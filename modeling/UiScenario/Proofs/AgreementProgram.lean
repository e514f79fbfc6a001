import UiScenario.Proofs.AgreementGrammar
import UiScenario.Proofs.ParallelProgram

/-!
Declarations and programs on two scripts that are alike, one lemma for each rule as in
`AgreementGrammar`.
-/

namespace UiScenario

section
variable (w : Wording) (n : Nat)

abbrev Field.alike : Likeness w n Field := .of down reword

abbrev PageVariable.alike : Likeness w n PageVariable := .of down reword

abbrev Action.alike : Likeness w n Action := .of down reword

abbrev Page.alike : Likeness w n Page := .of down reword

abbrev Library.alike : Likeness w n Library := .of down reword

abbrev Use.alike : Likeness w n Use := .of down reword

abbrev Hook.alike : Likeness w n Hook := .of down reword

abbrev Scenario.alike : Likeness w n Scenario := .of down reword

abbrev Feature.alike : Likeness w n Feature := .of down reword

abbrev Program.alike : Likeness w n Program := .of down reword

end

namespace Grammar

open UiScenario.Grammar.Parser

section
variable {w : Wording} {n : Nat}

/-! ## Pages and libraries -/

theorem agrees_action : Agrees (Action.alike w n) action action := by
  refine agrees_current.bind fun t u h => agrees_name.bind fun n₁ n₂ hn => ?_
  rw [h.line]
  have hblock : ∀ ps ps' : List String, (Likeness.name w n).list.Like ps ps' →
      Agrees (Action.alike w n)
        (block "action" >>= fun body => pure (⟨n₁, ps, body, t.line⟩ : Action))
        (block "action" >>= fun body => pure (⟨n₂, ps', body, t.line + n⟩ : Action)) :=
    fun ps ps' hps => agrees_block.map fun _ _ hb =>
      (congr (congrArg₂ (fun n ps body => Action.mk n ps body _) hn hps.of_list) hb :)
  refine agrees_ifEat ?_ (hblock [] [] rfl)
  exact (agrees_commaSeparated agrees_binding).bind fun ps ps' hps => hblock ps ps' hps

theorem agrees_field : Agrees (Field.alike w n) field field := by
  rw [field_eq]
  refine agrees_advance.bind fun t u h => ?_
  rw [h.line]
  refine agrees_enclosed (agrees_name.bind fun _ _ hn => agrees_expect.bind fun _ _ _ =>
    agrees_selector.map fun _ _ hs => ?_) (fun _ _ _ => rfl) fun _ _ _ => rfl
  exact congrArg₂ (Field.mk · · _) hn hs

theorem agrees_pageVariable : Agrees (PageVariable.alike w n) pageVariable pageVariable := by
  rw [pageVariable_eq]
  refine agrees_advance.bind fun t u h => ?_
  rw [h.line, h.kind]
  refine agrees_enclosed (agrees_name.bind fun _ _ hn => agrees_expect.bind fun _ _ _ =>
    agrees_expression.map fun _ _ he => ?_) (fun _ _ _ => ?_) fun _ _ _ => rfl
  · exact congrArg₂ (PageVariable.mk _ · · _) hn he
  · exact congrArg (fun v => some (Opened.mk v _)) (w.text_upper h.text)

def PageMember.map (f : Field → Field) (v : PageVariable → PageVariable) (a : Action → Action) :
    PageMember → PageMember
  | field x => field (f x)
  | variable_ x => variable_ (v x)
  | action x => action (a x)

abbrev PageMember.alike (w : Wording) (n : Nat) : Likeness w n PageMember :=
  ⟨map (Field.down n) (PageVariable.down n) (Action.down n),
    map (Field.reword w) (PageVariable.reword w) (Action.reword w)⟩

theorem wordless_atAction : Wordless atAction := by
  intro v p ts
  rcases ts with _ | ⟨_, _ | ⟨_, _⟩⟩ <;> rfl

theorem wordless_atPageMember : Wordless atPageMember := by
  intro v p ts
  cases ts with
  | nil => rfl
  | cons t ts =>
    have ha := wordless_atAction v p (t :: ts)
    rw [List.map_cons] at ha ⊢
    rw [atPageMember, atPageMember, ha]

theorem agrees_pageMember : Agrees (PageMember.alike w n) pageMember pageMember := by
  refine agrees_test (wordless_startsWith _)
    (agrees_field.map fun _ _ hf => congrArg PageMember.field hf) ?_
  refine agrees_test wordless_atAction
    (agrees_action.map fun _ _ ha => congrArg PageMember.action ha) ?_
  refine agrees_current.bind fun t u h => ?_
  rw [h.kind]
  exact agrees_ite (agrees_pageVariable.map fun _ _ hv => congrArg PageMember.variable_ hv)
    agrees_fail

theorem agrees_recoveringPageMember : Agrees (PageMember.alike w n).option
    recoveringPageMember recoveringPageMember := by
  refine (agrees_recovering wordless_atPageMember agrees_pageMember).bind fun x y hxy => ?_
  have hnone : x.isNone = y.isNone := by
    have hn := congrArg Option.isNone hxy
    simpa only [Option.isNone_map] using hn
  rw [hnone]
  exact agrees_ite ((agrees_setOpened rfl).bind fun _ _ _ => agrees_pure hxy) (agrees_pure hxy)

theorem agrees_page : Agrees (Page.alike w n) page page := by
  refine agrees_advance.bind fun t u h => agrees_name.bind fun _ _ hn => ?_
  rw [h.line]
  refine (agrees_after? (F := .text w n) ?_).bind fun url url' hu => ?_
  · exact agrees_expect.bind fun _ _ ht => agrees_expect.map fun _ _ _ => ht.text
  refine (agrees_braced agrees_recoveringPageMember).map fun xs ys hxs => ?_
  have hm := Likeness.filterMap_alike hxs (G := PageMember.alike w n) (j := id) (fun _ => rfl)
    fun _ => rfl
  have hf := Likeness.filterMap_alike hm (j := PageMember.field?) (G := Field.alike w n)
    (by rintro ⟨⟩ <;> rfl) (by rintro ⟨⟩ <;> rfl)
  have hv := Likeness.filterMap_alike hm (j := PageMember.pageVariable?)
    (G := PageVariable.alike w n) (by rintro ⟨⟩ <;> rfl) (by rintro ⟨⟩ <;> rfl)
  have ha := Likeness.filterMap_alike hm (j := PageMember.action?) (G := Action.alike w n)
    (by rintro ⟨⟩ <;> rfl) (by rintro ⟨⟩ <;> rfl)
  exact (congr (congr (congr (congrArg₂ (fun n u fs vs as => Page.mk n u fs vs as _) hn
    hu.of_option) hf) hv) ha :)

theorem agrees_libraryMember : Agrees (Action.alike w n) libraryMember libraryMember :=
  agrees_test wordless_atAction agrees_action agrees_fail

theorem agrees_library : Agrees (Library.alike w n) library library := by
  refine agrees_advance.bind fun t u h => agrees_name.bind fun _ _ hn => ?_
  rw [h.line]
  refine (agrees_after? agrees_name).bind fun _ _ hp => ?_
  refine (agrees_braced (agrees_recovering wordless_atAction agrees_libraryMember)).map
    fun xs ys hxs => ?_
  have ha := Likeness.filterMap_alike hxs (G := Action.alike w n) (j := id) (fun _ => rfl)
    fun _ => rfl
  exact (congr (congrArg₂ (fun n p as => Library.mk n p as _) hn hp.of_option) ha :)

/-! ## Features -/

theorem agrees_title {expected : String} :
    Agrees (.text w n) (title expected) (title expected) := by
  refine agrees_test (wordless_startsWith _) (agrees_text (j := id) fun _ _ h => h) ?_
  have hn : Agrees (.text w n) (name expected >>= fun v => pure v)
      (name expected >>= fun v => pure v) := agrees_name.map fun _ _ h => w.text_of_name h
  rwa [bind_pure] at hn

theorem agrees_tags : Agrees (Likeness.name w n).list tags tags := by
  rw [tags_eq]
  refine agrees_many (agrees_testName (wordless_startsWith _) rfl (fun t _ ht => ?_)
    (fun _ _ hv => congrArg some hv) (agrees_pure rfl))
  rw [beq_iff_eq.1 ht]
  rintro ⟨⟩

def FeatureMember.map (v : String → String) (u : Use → Use) (h : Hook → Hook)
    (s : Scenario → Scenario) : FeatureMember → FeatureMember
  | tags names => tags (names.map v)
  | uses us => uses (us.map u)
  | hook x => hook (h x)
  | scenario x => scenario (s x)
  | faulty us => faulty (us.map u)

abbrev FeatureMember.alike (w : Wording) (n : Nat) : Likeness w n FeatureMember :=
  ⟨map id (Use.down n) (Hook.down n) (Scenario.down n),
    map w.name (Use.reword w) (Hook.reword w) (Scenario.reword w)⟩

theorem agrees_hookKind : Agrees (.plain w n) hookKind hookKind := by
  refine agrees_advance.bind fun t u h => ?_
  rw [h.kind]
  exact agrees_ifEat (agrees_pure rfl) (agrees_ifEat (agrees_pure rfl) agrees_fail)

theorem agrees_hook : Agrees (Hook.alike w n) hook hook := by
  refine agrees_current.bind fun t u h => agrees_hookKind.bindPlain fun kind => ?_
  rw [h.line]
  exact agrees_block.map fun _ _ hb => congrArg (Hook.mk kind · _) hb

theorem agrees_scenario : Agrees (Scenario.alike w n) scenario scenario := by
  refine agrees_advance.bind fun t u h => ?_
  rw [h.line]
  refine agrees_title.bind fun _ _ hn => agrees_tags.bind fun _ _ ht =>
    agrees_block.map fun _ _ hb => ?_
  exact (congr (congrArg₂ (fun n ts body => Scenario.mk n ts body _) hn ht.of_list) hb :)

theorem agrees_featureMember :
    Agrees (FeatureMember.alike w n) featureMember featureMember := by
  refine agrees_current.bind fun t u h => ?_
  rw [h.kind]
  split
  · exact agrees_tags.map fun _ _ ht => congrArg FeatureMember.tags ht
  · exact agrees_hook.map fun _ _ hh => congrArg FeatureMember.hook hh
  · exact agrees_hook.map fun _ _ hh => congrArg FeatureMember.hook hh
  · exact agrees_scenario.map fun _ _ hs => congrArg FeatureMember.scenario hs
  · exact agrees_fail

theorem wordless_atFeatureMember : Wordless atFeatureMember := by
  intro v p ts
  cases ts <;> rfl

theorem agrees_useNames : ∀ i : Nat,
    Agrees ((Use.alike w n).list.prod (SyntaxError.alike w n).option) (useNames i) (useNames i)
  | 0 => agrees_pure rfl
  | i + 1 => by
    refine agrees_current.bind fun t u h => ?_
    rw [h.line]
    refine agrees_attempt agrees_name (fun x y hxy => ?_) fun e e' he => ?_
    · have huse : (Use.alike w n).Like ⟨x, t.line⟩ ⟨y, t.line + n⟩ := congrArg (Use.mk · _) hxy
      refine agrees_ifEat ((agrees_useNames i).map fun a b hab => ?_) (agrees_pure ?_)
      · obtain ⟨hus, he⟩ := Prod.mk.inj hab
        exact Prod.ext (congrArg₂ List.cons huse hus) he
      · exact congrArg (fun x => ([x], none)) huse
    · exact agrees_pure (congrArg (fun x => ([], some x)) he)

theorem agrees_useMember : Agrees (FeatureMember.alike w n) useMember useMember := by
  rw [useMember_eq]
  refine agrees_advance.bind fun t u h => agrees_bounded
    (p := fun i => useNames i >>= usesMember t.line)
    (q := fun i => useNames i >>= usesMember u.line) fun i => (agrees_useNames i).bind ?_
  rintro ⟨us, e⟩ ⟨us', e'⟩ hab
  obtain ⟨hus, he⟩ := Prod.mk.inj hab
  cases e with
  | none =>
    rw [Likeness.Like.eq_none he]
    exact agrees_pure (congrArg FeatureMember.uses hus)
  | some e =>
    obtain ⟨e', rfl, hfault⟩ := Likeness.Like.exists_some he
    exact agrees_giveUp hfault (skips_skipTo wordless_atFeatureMember h)
      (congrArg FeatureMember.faulty hus)

theorem agrees_recoveringFeatureMember : Agrees (FeatureMember.alike w n) recoveringFeatureMember
    recoveringFeatureMember := by
  refine agrees_test (wordless_startsWith _) agrees_useMember ?_
  refine (agrees_recovering wordless_atFeatureMember agrees_featureMember).map fun x y hxy => ?_
  cases x with
  | none => rw [hxy.eq_none]; rfl
  | some m =>
    obtain ⟨m', rfl, hm⟩ := hxy.exists_some
    exact hm

theorem scenarios_map {v : String → String} {u : Use → Use} {h : Hook → Hook}
    {g : Scenario → Scenario}
    (hg : ∀ s ts, g { s with tags := ts } = { g s with tags := ts.map v })
    (htags : ∀ s, (g s).tags = s.tags.map v) (pending : List String)
    (members : List FeatureMember) :
    (FeatureMember.scenarios pending members).map g =
      FeatureMember.scenarios (pending.map v) (members.map (FeatureMember.map v u h g)) := by
  fun_induction FeatureMember.scenarios pending members with
  | case1 => rfl
  | case2 pending names rest ih =>
    rw [List.map_cons, FeatureMember.map, FeatureMember.scenarios, ih, List.map_append]
  | case3 pending s rest ih =>
    rw [List.map_cons, List.map_cons, FeatureMember.map, FeatureMember.scenarios, ih, hg s, htags,
      List.map_append, List.map_nil]
  | case4 pending _ rest ih =>
    rw [List.map_cons, FeatureMember.map, FeatureMember.scenarios, ih, List.map_nil]
  | case5 pending _ rest ih | case6 pending _ rest ih =>
    rw [List.map_cons, FeatureMember.map, FeatureMember.scenarios, ih]

theorem agrees_feature : Agrees (Feature.alike w n) feature feature := by
  refine agrees_advance.bind fun t u h => ?_
  rw [h.line]
  refine agrees_title.bind fun _ _ hn => agrees_tags.bind fun _ _ ht =>
    (agrees_braced agrees_recoveringFeatureMember).map fun xs ys hxs => ?_
  have hu := Likeness.flatMap_alike hxs (j := FeatureMember.uses?) (G := Use.alike w n)
    (by rintro ⟨⟩ <;> rfl) (by rintro ⟨⟩ <;> rfl)
  have hh := Likeness.filterMap_alike hxs (j := FeatureMember.hook?) (G := Hook.alike w n)
    (by rintro ⟨⟩ <;> rfl) (by rintro ⟨⟩ <;> rfl)
  have hs : (Scenario.alike w n).list.Like (FeatureMember.scenarios [] xs)
      (FeatureMember.scenarios [] ys) := by
    have hs := congrArg (FeatureMember.scenarios []) hxs
    have hmove := scenarios_map (g := Scenario.down n) (v := id)
      (u := Use.down n) (h := Hook.down n) (by simp [Scenario.down]) (by simp [Scenario.down]) [] xs
    have hword := scenarios_map (g := Scenario.reword w) (v := w.name)
      (u := Use.reword w) (h := Hook.reword w) (fun _ _ => rfl) (fun _ => rfl) []
    exact (congrArg _ hmove).trans ((hword _).trans (hs.trans (hword ys).symm))
  exact (congr (congr (congr (congrArg₂ (fun n ts us hs ss => Feature.mk n ts us hs ss _) hn
    ht.of_list) hu) hh) hs :)

/-! ## Programs -/

def Declaration.map (p : Page → Page) (l : Library → Library) (f : Feature → Feature) :
    Declaration → Declaration
  | page x => page (p x)
  | library x => library (l x)
  | feature x => feature (f x)

abbrev Declaration.alike (w : Wording) (n : Nat) : Likeness w n Declaration :=
  ⟨map (Page.down n) (Library.down n) (Feature.down n),
    map (Page.reword w) (Library.reword w) (Feature.reword w)⟩

theorem agrees_declaration : Agrees (Declaration.alike w n) declaration declaration := by
  refine agrees_current.bind fun t u h => ?_
  rw [h.kind]
  split
  · exact agrees_page.map fun _ _ hp => congrArg Declaration.page hp
  · exact agrees_library.map fun _ _ hl => congrArg Declaration.library hl
  · exact agrees_feature.map fun _ _ hf => congrArg Declaration.feature hf
  · exact agrees_fail

theorem agrees_recoveringDeclaration : Agrees (Declaration.alike w n).option
    recoveringDeclaration recoveringDeclaration := by
  have hforget : Agrees (.plain w n) (modify fun s : State => { s with unclosedReported := false })
      (modify fun s : State => { s with unclosedReported := false }) :=
    fun _ _ hst => .ok rfl { hst with flag := rfl } (noted_of_errors rfl rfl)
  refine hforget.bind fun _ _ _ => agrees_attempt agrees_declaration (fun _ _ hd => ?_)
    fun _ _ he => ?_
  · exact agrees_pure (congrArg some hd)
  · exact agrees_giveUp he skips_skipDeclaration rfl

theorem agrees_programRound :
    Agrees (Declaration.alike w n).option.option programRound programRound :=
  agrees_test (fun _ _ _ => List.isEmpty_map) (agrees_pure rfl)
    (agrees_recoveringDeclaration.map fun _ _ hd => congrArg some hd)

theorem programOf_alike {xs ys : List (Option Declaration)}
    (h : (Declaration.alike w n).option.list.Like xs ys) :
    (Program.alike w n).Like (programOf xs) (programOf ys) := by
  have hd := Likeness.filterMap_alike h (G := Declaration.alike w n) (j := id) (fun _ => rfl)
    fun _ => rfl
  have hp := Likeness.filterMap_alike hd (j := Declaration.page?) (G := Page.alike w n)
    (by rintro ⟨⟩ <;> rfl) (by rintro ⟨⟩ <;> rfl)
  have hl := Likeness.filterMap_alike hd (j := Declaration.library?) (G := Library.alike w n)
    (by rintro ⟨⟩ <;> rfl) (by rintro ⟨⟩ <;> rfl)
  have hf := Likeness.filterMap_alike hd (j := Declaration.feature?) (G := Feature.alike w n)
    (by rintro ⟨⟩ <;> rfl) (by rintro ⟨⟩ <;> rfl)
  exact (congr (congrArg₂ Program.mk hp hl) hf :)

theorem agrees_program : Agrees (Program.alike w n) program program := by
  rw [program_eq]
  exact (agrees_many agrees_programRound).map fun _ _ h => programOf_alike h

/-! ## Tokens of a script -/

/-- Tokens that are alike are read from places that are alike. Where no end is given, it has the
    place behind the last token, if there is one. -/
theorem alike_ofTokens {a b : List Token} (h : (Token.alike w n).list.Like a b)
    (hn : n = 0 ∨ ∃ t ∈ a, t.kind = .eof) : Alike w n (.ofTokens a) (.ofTokens b) := by
  have hfilter : ∀ p : TokenKind → Bool, Skips w n (List.filter fun t => p t.kind)
      (List.filter fun t => p t.kind) := fun p => skips_of_map fun f hf ts => by
    simp only [List.filter_map, Function.comp_def, hf]
  have htake : Skips w n (List.takeWhile (·.kind != .eof)) (List.takeWhile (·.kind != .eof)) :=
    skips_of_map fun f hf ts => by simp only [List.takeWhile_map, Function.comp_def, hf]
  have hab := hfilter (· != .comment) a b h
  replace hn : n = 0 ∨ ∃ t ∈ a.filter (·.kind != .comment), t.kind = .eof :=
    hn.imp_right fun ⟨t, ht, hk⟩ => ⟨t, List.mem_filter.2 ⟨ht, by simp [hk]⟩, hk⟩
  unfold State.ofTokens
  dsimp only
  generalize a.filter (·.kind != .comment) = xs at hab hn
  generalize b.filter (·.kind != .comment) = ys at hab
  refine ⟨htake _ _ hab, ?_, rfl, rfl⟩
  have hfind : (Token.alike w n).option.Like (xs.find? (·.kind == .eof))
      (ys.find? (·.kind == .eof)) := by
    have hf := congrArg List.head? (hfilter (· == .eof) _ _ hab)
    simpa only [Likeness.Like, List.head?_map, List.head?_filter] using hf
  have hlast : (Token.alike w n).option.Like xs.getLast? ys.getLast? := by
    have hl := congrArg List.getLast? hab
    simpa only [Likeness.Like, List.getLast?_map] using hl
  cases hx : xs.find? (·.kind == .eof) with
  | some x =>
    rw [hx] at hfind
    obtain ⟨y, hy, hxy⟩ := hfind.exists_some
    rw [hy]
    exact hxy
  | none =>
    rw [hx] at hfind
    rw [hfind.eq_none]
    obtain rfl : n = 0 := by
      rcases hn with hn | ⟨t, ht, hk⟩
      · exact hn
      · exact absurd (List.find?_eq_none.1 hx t ht) (by simp [hk])
    cases hl : xs.getLast? with
    | none =>
      rw [hl] at hlast
      rw [hlast.eq_none]
      rfl
    | some x =>
      rw [hl] at hlast
      obtain ⟨y, hy, hxy⟩ := hlast.exists_some
      rw [hy]
      exact congrArg (fun p => (Token.alike w 0).word ⟨.eof, "", ⟨p.line, p.column + 1⟩⟩) hxy.pos

end

end Grammar

/-! ## Scripts -/

section
variable {w : Wording} {n : Nat} {a b : List Token}

theorem parse_alike (h : (Token.alike w n).list.Like a b) (hn : n = 0 ∨ ∃ t ∈ a, t.kind = .eof) :
    (Program.alike w n).Like (parse a).program (parse b).program ∧
      (SyntaxError.alike w n).list.Like (parse a).errors (parse b).errors := by
  have hrun := Grammar.agrees_program _ _ (Grammar.alike_ofTokens h hn)
  have hnoted : ∀ {s t}, Grammar.Noted w n (.ofTokens a) (.ofTokens b) s t →
      (SyntaxError.alike w n).list.Like s.errors t.errors := by
    rintro s t ⟨es, es', hs, ht, he⟩
    rw [hs, ht]
    exact he
  unfold parse
  generalize Grammar.program (.ofTokens a) = x at hrun
  generalize Grammar.program (.ofTokens b) = y at hrun
  cases hrun with
  | ok hp _ hnote => exact ⟨hp, hnoted hnote⟩
  | error he _ hnote =>
    refine ⟨rfl, ?_⟩
    have hes := hnoted hnote
    simp only [Likeness.Like, List.map_append, List.map_cons, List.map_nil] at hes he ⊢
    rw [hes, he]

/-- A program that is read stays the same no lines further down. -/
theorem parse_down_zero (a : List Token) :
    (parse a).program.down 0 = (parse a).program := by
  have ha : (Token.alike .same 0).list.Like a a :=
    congrArg (List.map (Token.reword .same)) (List.map_id a)
  have hp : ((parse a).program.down 0).reword .same = (parse a).program.reword .same :=
    (parse_alike ha (.inl rfl)).1
  rwa [Program.reword_same, Program.reword_same] at hp

theorem SyntaxError.down_zero : SyntaxError.down 0 = id := by
  funext ⟨fault, pos⟩
  cases fault <;> rfl

/-- Tokens worded alike are read as programs worded alike, with faults worded alike. -/
theorem parse_of_reword (h : a.map (Token.reword w) = b.map (Token.reword w)) :
    (parse a).program.reword w = (parse b).program.reword w ∧
      (parse a).errors.map (SyntaxError.reword w) =
        (parse b).errors.map (SyntaxError.reword w) := by
  have ha : (Token.alike w 0).list.Like a b :=
    (congrArg (List.map (Token.reword w)) (List.map_id a)).trans h
  obtain ⟨hp, he⟩ := parse_alike ha (.inl rfl)
  rw [Likeness.Like] at hp he
  dsimp only at hp he
  rw [parse_down_zero] at hp
  rw [SyntaxError.down_zero, List.map_id] at he
  exact ⟨hp, he⟩

theorem parse_down (ha : ∃ t ∈ a, t.kind = .eof) :
    parse (a.map (Token.down n)) =
      ⟨(parse a).program.down n, (parse a).errors.map (SyntaxError.down n)⟩ := by
  obtain ⟨hp, he⟩ := parse_alike (w := .same) (n := n) (a := a) rfl (.inr ha)
  rw [Likeness.Like] at hp he
  dsimp only at hp he
  rw [Program.reword_same, Program.reword_same] at hp
  rw [SyntaxError.reword_same, List.map_id, List.map_id] at he
  rw [hp, he]

end

end UiScenario
