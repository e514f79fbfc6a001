import UiScenario.Proofs.AgreementProgram
import UiScenario.Proofs.Progress

/-!
Scripts one below the other. A declaration without a fault ends with its closing brace, so the
declarations of a script without faults are read alike when more tokens follow, and they leave
nothing behind: what follows is read as on its own, some lines further down.
-/

namespace UiScenario

/-- The declarations of a program in front of those of another one. -/
def Program.append (p q : Program) : Program where
  pages := p.pages ++ q.pages
  libraries := p.libraries ++ q.libraries
  features := p.features ++ q.features

namespace Grammar

open UiScenario.Grammar.Parser

/-! ## Closing braces -/

/-- Reading without a fault ends with a closing brace, and tokens that follow do not matter. -/
structure Closes {α : Type} (N : Nat) (p : Parser α) : Prop where
  onward : ∀ s a s', Fits N s → p s = .ok a s' → Onward s s'
  brace : ∀ s a s', Fits N s → p s = .ok a s' → Clean s s' →
    ∃ us t, s.ahead = us ++ t :: s'.ahead ∧ t.kind = .rbrace
  longer : ∀ s a s', Fits N s → p s = .ok a s' → Clean s s' → Closed s.ahead →
    ∀ behind last, p (s.longer behind last) = .ok a (s'.longer behind last)

section
variable {α β : Type} {N : Nat} {c : Bool} {p : Parser α} {k : α → Parser β} {s s' : State}

/-- In front of a parser that closes, some tokens are left. -/
theorem Parser.Parallel.closes (h : Parallel N c p p) (hk : ∀ a, Closes N (k a)) :
    Closes N (p >>= k) where
  onward s b s'' hs hr := by
    obtain ⟨a, s', hp, hr⟩ := parser_bind_eq_ok.1 hr
    have ho := h.onward_ok hs hp
    exact ho.trans ((hk a).onward s' b s'' (hs.onward ho) hr)
  brace s b s'' hs hr hc := by
    obtain ⟨a, s', hp, hr⟩ := parser_bind_eq_ok.1 hr
    have ho := h.onward_ok hs hp
    have ho' := (hk a).onward s' b s'' (hs.onward ho) hr
    obtain ⟨us, t, hus, ht⟩ := (hk a).brace s' b s'' (hs.onward ho) hr (ho.clean_right ho' hc)
    obtain ⟨vs, hvs⟩ := ho.ahead
    exact ⟨vs ++ us, t, by rw [← hvs, hus, List.append_assoc], ht⟩
  longer s b s'' hs hr hc hcl behind last := by
    obtain ⟨a, s', hp, hr⟩ := parser_bind_eq_ok.1 hr
    have ho := h.onward_ok hs hp
    have ho' := (hk a).onward s' b s'' (hs.onward ho) hr
    have hc' := ho.clean_right ho' hc
    obtain ⟨us, t, hus, -⟩ := (hk a).brace s' b s'' (hs.onward ho) hr hc'
    have hne : s'.ahead ≠ [] := by simp [hus]
    rw [bind_of_ok (h.longer s a s' hs hp (ho.clean_left ho' hc) hcl hne behind last)]
    exact (hk a).longer s' b s'' (hs.onward ho) hr hc' (hcl.of_suffix ho.ahead hne) behind last

theorem Closes.map {g : α → β} (h : Closes N p) : Closes N (p >>= fun a => pure (g a)) where
  onward s b s' hs hr := by
    obtain ⟨a, s', hp, ⟨⟩⟩ := parser_bind_eq_ok.1 hr
    exact h.onward s a s' hs hp
  brace s b s' hs hr := by
    obtain ⟨a, s', hp, ⟨⟩⟩ := parser_bind_eq_ok.1 hr
    exact h.brace s a s' hs hp
  longer s b s' hs hr hc hcl behind last := by
    obtain ⟨a, s', hp, ⟨⟩⟩ := parser_bind_eq_ok.1 hr
    rw [bind_of_ok (h.longer s a s' hs hp hc hcl behind last)]
    rfl

theorem closes_fail {expected : String} : Closes N (fail expected : Parser α) where
  onward := by rintro s a s' - ⟨⟩
  brace := by rintro s a s' - ⟨⟩
  longer := by rintro s a s' - ⟨⟩

/-- Rounds in front of tokens that are left are the same ones when more tokens follow. -/
theorem Parser.Repeats.longer {p : Parser (Option α)} {xs : List α} (h : Parallel N c p p)
    (ha : Advances N p) (hs : Fits N s) (hx : Repeats p s xs s') (hc : Clean s s')
    (hcl : Closed s.ahead) (hne : s'.ahead ≠ []) (behind : List Token) (last : Token) :
    Repeats p (s.longer behind last) xs (s'.longer behind last) := by
  induction hx with
  | nil s => exact .nil _
  | @cons s s₁ s' x xs hp hx ih =>
    have ho := h.onward_ok hs hp
    have ho' := (onward_repeats h ha (hs.onward ho) hx).1
    have hne₁ : s₁.ahead ≠ [] := fun he => hne (List.suffix_nil.1 (he ▸ ho'.ahead))
    refine .cons (h.longer _ _ _ hs hp (ho.clean_left ho' hc) hcl hne₁ behind last) ?_
    exact ih (hs.onward ho) (ho.clean_right ho' hc) (hcl.of_suffix ho.ahead hne₁) hne

/-- The last round of a block without a fault reads its brace. -/
theorem exists_rbrace {block : String} {opening : Token} (hs : Fits N s)
    (hr : bracedRound block opening p s = .ok none s') (hc : Clean s s') :
    ∃ t, s.ahead = t :: s'.ahead ∧ t.kind = .rbrace ∧ s' = { s with ahead := s'.ahead } := by
  rcases bracedRound_cases s with ⟨t, ts, hts, hb⟩ | he | ⟨t, ts, hts, hb, hd⟩
  · rw [bracedRound_of_rbrace hts hb] at hr
    cases hr
    exact ⟨t, hts, hb, rfl⟩
  · rw [bracedRound_of_end he] at hr
    obtain ⟨a, s₁, hr, ⟨⟩⟩ := parser_bind_eq_ok.1 hr
    exact absurd hc (faulty_reportUnclosed s a s' hs hr)
  · rw [bracedRound_of_member hts hb hd] at hr
    obtain ⟨a, s₁, -, hr⟩ := parser_bind_eq_ok.1 hr
    cases hr

theorem closes_braced {block expected : String} (h : Parallel N c p p)
    (hp : Progresses N p) : Closes N (braced block expected p) := by
  rw [braced_eq]
  refine parallel_expect.closes fun opening => ?_
  have hround : Parallel N false (bracedRound block opening p) (bracedRound block opening p) :=
    parallel_bracedRound h
  have ha : Advances N (bracedRound block opening p) := advances_bracedRound hp
  have hmany := parallel_many hround ha
  have hends : ∀ s xs s', Fits N s → many (bracedRound block opening p) s = .ok xs s' →
      Clean s s' → ∃ s₁ t, Repeats (bracedRound block opening p) s xs s₁ ∧ Onward s s₁ ∧
        Clean s s₁ ∧ s₁.ahead = t :: s'.ahead ∧ t.kind = .rbrace ∧
        s' = { s₁ with ahead := s'.ahead } := by
    intro s xs s' hs hr hc
    obtain ⟨s₁, hx, hnone⟩ := (many_eq_ok hround ha hs).1 hr
    have ho := (onward_repeats hround ha hs hx).1
    have ho' := hround.onward_ok (hs.onward ho) hnone
    obtain ⟨t, hts, ht, he⟩ := exists_rbrace (hs.onward ho) hnone (ho.clean_right ho' hc)
    exact ⟨s₁, t, hx, ho, ho.clean_left ho' hc, hts, ht, he⟩
  constructor
  · exact fun s xs s' hs hr => hmany.onward_ok hs hr
  · intro s xs s' hs hr hc
    obtain ⟨s₁, t, -, ho, -, hts, ht, -⟩ := hends s xs s' hs hr hc
    obtain ⟨us, hus⟩ := ho.ahead
    exact ⟨us, t, by rw [← hus, hts], ht⟩
  · intro s xs s' hs hr hc hcl behind last
    obtain ⟨s₁, t, hx, ho, hc₁, hts, ht, he⟩ := hends s xs s' hs hr hc
    have hx' := hx.longer hround ha hs hc₁ hcl (by simp [hts]) behind last
    have hts' : (s₁.longer behind last).ahead = t :: (s'.ahead ++ behind) := by
      simp [State.longer, hts]
    have hnone : bracedRound block opening p (s₁.longer behind last) =
        .ok none (s'.longer behind last) := by
      rw [bracedRound_of_rbrace hts' ht, he]
      rfl
    have hl := (onward_repeats hround ha hs hx).2
    refine rounds_of_repeats hx' hnone ?_
    simp only [State.longer, List.length_append]
    omega

end

/-! ## Declarations -/

section
variable {N : Nat} {s s' : State}

theorem closes_page : Closes N page := by
  refine parallel_advance.closes fun t => steady_name.parallel.closes fun n => ?_
  refine (parallel_after? (c := false) ?_).closes fun url => ?_
  · exact parallel_expect.bind fun _ => parallel_expect.give
  · exact (closes_braced parallel_recoveringPageMember progresses_recoveringPageMember).map

theorem closes_library : Closes N library := by
  refine parallel_advance.closes fun t => steady_name.parallel.closes fun n => ?_
  refine (parallel_after? steady_name.parallel).closes fun forPage => ?_
  exact (closes_braced (parallel_recovering parallel_libraryMember)
    (progresses_recovering parallel_libraryMember)).map

theorem closes_feature : Closes N feature :=
  parallel_advance.closes fun _ => parallel_title.closes fun _ => parallel_tags.closes fun _ =>
    (closes_braced parallel_recoveringFeatureMember progresses_recoveringFeatureMember).map

theorem closes_declaration : Closes N declaration := by
  refine parallel_current.closes fun t => ?_
  split
  · exact closes_page.map
  · exact closes_library.map
  · exact closes_feature.map
  · exact closes_fail

theorem declaration_of_programRound {found : Option Declaration} (hs : Fits N s)
    (hr : programRound s = .ok (some found) s') (hc : Clean s s') :
    ∃ d, found = some d ∧ declaration s = .ok d s' := by
  obtain ⟨-, hr⟩ := programRound_eq_some.1 hr
  have he : { s with unclosedReported := false } = s := by rw [← hc.flag]
  replace hr : (attempt declaration >>= _) { s with unclosedReported := false } = _ := hr
  rw [he] at hr
  obtain ⟨d, s₁, hp, ⟨⟩⟩ := exists_of_attempt parallel_declaration
    (fun _ => parallel_giveUp skipDeclaration_suffix) (fun _ => faulty_giveUp) hs hr hc
  exact ⟨d, rfl, hp⟩

theorem programRound_of_declaration {d : Declaration} (hne : s.ahead ≠ [])
    (hf : s.unclosedReported = false) (hp : declaration s = .ok d s') :
    programRound s = .ok (some (some d)) s' := by
  have he : { s with unclosedReported := false } = s := by rw [← hf]
  refine programRound_eq_some.2 ⟨hne, ?_⟩
  show (attempt declaration >>= _) { s with unclosedReported := false } = _
  rw [he, attempt_bind_of_ok hp]
  rfl

/-- The tokens of declarations without a fault end with a closing brace, and the declarations are
    the same ones when more tokens follow. -/
theorem repeats_programRound_longer {xs : List (Option Declaration)} (hs : Fits N s)
    (hx : Repeats programRound s xs s') (hc : Clean s s') (hnil : s'.ahead = []) :
    (s.ahead = [] ∨ Closed s.ahead) ∧ ∀ behind last,
      Repeats programRound (s.longer behind last) xs (s'.longer behind last) := by
  have hround := parallel_programRound (N := N)
  induction hx with
  | nil s => exact ⟨.inl hnil, fun _ _ => .nil _⟩
  | @cons s s₁ s' x xs hp hx ih =>
    have ho := hround.onward_ok hs hp
    have ho' := (onward_repeats hround advances_programRound (hs.onward ho) hx).1
    have hc₁ := ho.clean_left ho' hc
    obtain ⟨hleft, hrest⟩ := ih (hs.onward ho) (ho.clean_right ho' hc) hnil
    obtain ⟨d, rfl, hd⟩ := declaration_of_programRound hs hp hc₁
    have hcl : Closed s.ahead := by
      obtain ⟨us, t, hus, ht⟩ := closes_declaration.brace s d s₁ hs hd hc₁
      rw [hus]
      rcases hleft with he | hcl
      · exact ⟨us, t, by rw [he], ht⟩
      · exact (hcl.of_append [t]).of_append us
    refine ⟨.inr hcl, fun behind last => .cons ?_ (hrest behind last)⟩
    exact programRound_of_declaration (List.append_ne_nil_of_left_ne_nil hcl.ne_nil _) hc.flag
      (closes_declaration.longer s d s₁ hs hd hc₁ hcl behind last)

theorem Parser.Repeats.trans {α : Type} {p : Parser (Option α)} {s'' : State} {xs ys : List α}
    (hx : Repeats p s xs s') (hy : Repeats p s' ys s'') : Repeats p s (xs ++ ys) s'' := by
  induction hx with
  | nil s => exact hy
  | cons hp _ ih => exact .cons hp (ih hy)

end

/-! ## Tokens -/

variable {xs : List (Option Declaration)} {ts rest : List Token}

theorem readable_readable (tokens : List Token) : readable (readable tokens) = readable tokens := by
  simp [readable]

theorem ofTokens_readable (tokens : List Token) :
    State.ofTokens (readable tokens) = State.ofTokens tokens := by
  unfold State.ofTokens readable
  simp only [List.filter_filter, Bool.and_self]

theorem ofTokens_append_readable (hts : ∀ t ∈ ts, t.kind ≠ .eof) (hrest : readable rest ≠ []) :
    State.ofTokens (ts ++ rest) =
      { State.ofTokens rest with ahead := readable ts ++ (State.ofTokens rest).ahead } := by
  have hkept : ∀ t ∈ readable ts, t.kind ≠ .comment ∧ t.kind ≠ .eof := by
    intro t ht
    obtain ⟨hm, hk⟩ := List.mem_filter.1 ht
    exact ⟨bne_iff_ne.1 hk, hts t hm⟩
  have ha : readable (ts ++ rest) = readable ts ++ readable rest := List.filter_append ..
  rw [← ofTokens_readable (ts ++ rest), ha, ofTokens_append hkept (by rwa [readable_readable]),
    ofTokens_readable]

theorem ofTokens_longer {e : Token} (hts : ∀ t ∈ ts, t.kind ≠ .eof) (he : e.kind = .eof)
    (hrest : readable rest ≠ []) :
    State.ofTokens (ts ++ rest) = (State.ofTokens (ts ++ [e])).longer
      (State.ofTokens rest).ahead (State.ofTokens rest).last := by
  have hend : readable [e] = [e] := by simp [readable, he]
  have hnil : (State.ofTokens [e]).ahead = [] := by simp [State.ofTokens, he]
  rw [ofTokens_append_readable hts hrest, ofTokens_append_readable hts (by simp [hend]), hnil,
    List.append_nil]
  rfl

theorem exists_repeats (tokens : List Token) :
    ∃ xs s, Repeats programRound (.ofTokens tokens) xs s ∧ s.ahead = [] := by
  obtain ⟨xs, s₁, s', j, hx, hnone, -⟩ := Loop.program.ends (at_ofTokens tokens)
  exact ⟨xs, s₁, hx, (programRound_eq_none.1 hnone).1⟩

theorem many_of_repeats {s s' : State} (hl : s.last.kind = .eof) (hx : Repeats programRound s xs s')
    (hs : s'.ahead = []) : many programRound s = .ok xs s' := by
  have hfits : Fits (s.ahead.length + 1) s := ⟨Nat.lt_succ_self _, hl⟩
  exact (many_eq_ok parallel_programRound advances_programRound hfits).2
    ⟨s', hx, programRound_eq_none.2 ⟨hs, rfl⟩⟩

theorem parse_of_repeats {tokens : List Token} {s : State}
    (hx : Repeats programRound (.ofTokens tokens) xs s) (hs : s.ahead = []) :
    parse tokens = ⟨programOf xs, s.errors⟩ := by
  have hr := many_of_repeats (last_ofTokens tokens) hx hs
  rw [parse, program_eq, bind_of_ok hr]
  rfl

/-- Behind declarations without a fault, other tokens are read as from their start. -/
theorem longer_of_repeats {tokens : List Token} {s : State}
    (hx : Repeats programRound (.ofTokens tokens) xs s) (hs : s.ahead = []) (he : s.errors = [])
    (rest : List Token) :
    s.longer (State.ofTokens rest).ahead (State.ofTokens rest).last = State.ofTokens rest := by
  have hround := parallel_programRound (N := (State.ofTokens tokens).ahead.length + 1)
  have hkind := last_ofTokens tokens
  have hfits : Fits _ (State.ofTokens tokens) := ⟨Nat.lt_succ_self _, hkind⟩
  have hflag := (onward_repeats hround advances_programRound hfits hx).1.quiet he rfl
  have hopened : s.opened = none := (parallel_many hround advances_programRound).opened _ xs s
    hfits (many_of_repeats hkind hx hs) ⟨rfl, he⟩ rfl
  obtain ⟨ahead, last, opened, flag, errors⟩ := s
  cases hs; cases he; cases hopened; cases hflag
  rfl

theorem programOf_append (xs ys : List (Option Declaration)) :
    programOf (xs ++ ys) = (programOf xs).append (programOf ys) := by
  simp [programOf, Program.append, List.filterMap_append]

/-- The tokens of a script without faults, and others behind them. -/
theorem parse_append {e : Token} (hts : ∀ t ∈ ts, t.kind ≠ .eof) (he : e.kind = .eof)
    (hrest : ∃ t ∈ rest, t.kind = .eof) (h : (parse (ts ++ [e])).errors = []) :
    parse (ts ++ rest) = ⟨(parse (ts ++ [e])).program.append (parse rest).program,
      (parse rest).errors⟩ := by
  obtain ⟨xs, s, hx, hs⟩ := exists_repeats (ts ++ [e])
  obtain ⟨ys, u, hy, hu⟩ := exists_repeats rest
  rw [parse_of_repeats hx hs] at h ⊢
  rw [parse_of_repeats hy hu]
  have hready : readable rest ≠ [] := by
    obtain ⟨t, ht, hk⟩ := hrest
    exact List.ne_nil_of_mem (List.mem_filter.2 ⟨ht, by simp [hk]⟩)
  have hfits : Fits ((State.ofTokens (ts ++ [e])).ahead.length + 1) (State.ofTokens (ts ++ [e])) :=
    ⟨Nat.lt_succ_self _, last_ofTokens _⟩
  have hfirst := (repeats_programRound_longer hfits hx ⟨rfl, h⟩ hs).2
    (State.ofTokens rest).ahead (State.ofTokens rest).last
  rw [longer_of_repeats hx hs h, ← ofTokens_longer hts he hready] at hfirst
  rw [parse_of_repeats (hfirst.trans hy) hu, programOf_append]

end Grammar

/-! ## Scripts -/

/-- Only the last token of a script is its end. -/
theorem exists_tokens (source : String) :
    ∃ ts e, (tokenize source).tokens = ts ++ [e] ∧ (∀ t ∈ ts, t.kind ≠ .eof) ∧ e.kind = .eof := by
  obtain ⟨pieces, ha, hs⟩ := scan_account [] source.toList
  have hstart : placeBehind [] = .start := rfl
  rw [hstart, List.nil_append] at hs
  refine ⟨(placed [] pieces).filterMap Lexeme.token?, .eofAt (placeBehind source.toList),
    by simp only [tokenize, hs], fun t ht => ?_, rfl⟩
  obtain ⟨⟨pos, lexeme⟩, hx, ht⟩ := List.mem_filterMap.1 ht
  obtain ⟨segment, rest, hform⟩ := ha.form hx
  cases lexeme with
  | token kind value => cases ht; exact hform.ne_eof
  | fault f => cases ht

theorem parseText_append {a : String} (ha : (parseText a).errors = []) (b : String) :
    parseText (a ++ "\n" ++ b) =
      ⟨(parseText a).program.append ((parseText b).program.down (lineCount a)),
        (parseText b).errors.map (SyntaxError.down (lineCount a))⟩ := by
  obtain ⟨ts, e, htokens, hts, he⟩ := exists_tokens a
  obtain ⟨us, e', htokens', -, he'⟩ := exists_tokens b
  have hrest : ∃ t ∈ (tokenize b).tokens, t.kind = .eof := ⟨e', by simp [htokens'], he'⟩
  unfold parseText at ha ⊢
  rw [htokens] at ha
  rw [tokens_append, htokens, List.dropLast_concat]
  have hrest' : ∃ t ∈ (tokenize b).tokens.map (Token.down (lineCount a)), t.kind = .eof := by
    obtain ⟨t, ht, hk⟩ := hrest
    exact ⟨_, List.mem_map_of_mem ht, hk⟩
  rw [Grammar.parse_append hts he hrest' ha, parse_down hrest]

/-- The same pages and libraries up to lines: each one is some lines further down. -/
structure Project.Moved (all moved : Project) : Prop where
  pages : List.Forall₂ (fun p q => ∃ n, q = p.down n) all.pages moved.pages
  libraries : List.Forall₂ (fun l m => ∃ n, m = l.down n) all.libraries moved.libraries

theorem Project.Moved.extend {all moved : Project} (h : all.Moved moved) (p : Program) (n : Nat) :
    (all.extend p).Moved (moved.extend (p.down n)) := by
  refine ⟨List.rel_append h.pages ?_, List.rel_append h.libraries ?_⟩
  · exact List.forall₂_map_right_iff.2 (List.forall₂_same.2 fun _ _ => ⟨n, rfl⟩)
  · exact List.forall₂_map_right_iff.2 (List.forall₂_same.2 fun _ _ => ⟨n, rfl⟩)

theorem parseProject_concat (files : List String) (file : String) :
    parseProject (files ++ [file]) = (parseProject files).extend (parseText file).program := by
  simp [parseProject, Project.extend]

theorem intercalate_concat {files : List String} (h : files ≠ []) (separator file : String) :
    separator.intercalate (files ++ [file]) = separator.intercalate files ++ separator ++ file := by
  induction files with
  | nil => exact absurd rfl h
  | cons first rest ih =>
    by_cases hr : rest = []
    · subst hr
      simp [String.intercalate_cons_cons]
    · rw [List.cons_append, String.intercalate_cons_of_ne_nil (by simp), ih hr,
        String.intercalate_cons_of_ne_nil hr]
      simp only [String.append_assoc]

/-- Scripts without faults, one below the other, have the pages and libraries of them all. -/
theorem moved_intercalate {files : List String}
    (h : ∀ file ∈ files, (parseText file).errors = []) :
    (parseText (String.intercalate "\n" files)).errors = [] ∧
      (parseProject files).Moved (parseProject [String.intercalate "\n" files]) := by
  have hone : ∀ text, parseProject [text] = Project.empty.extend (parseText text).program :=
    fun text => parseProject_concat [] text
  induction files using List.reverseRecOn with
  | nil =>
    have hend : (tokenize "").tokens = [.eofAt .start] := by simp [tokenize, scan]
    have hempty : parseText "" = ⟨.empty, []⟩ := by
      rw [parseText, hend]
      exact Grammar.parse_of_repeats (.nil _) rfl
    rw [String.intercalate_nil, hone, hempty]
    exact ⟨rfl, .nil, .nil⟩
  | append_singleton files file ih =>
    obtain ⟨herrors, hmoved⟩ := ih fun f hf => h f (List.mem_append_left _ hf)
    have hfile := h file (by simp)
    rw [parseProject_concat]
    by_cases hf : files = []
    · subst hf
      have hself : (Project.empty.extend (parseText file).program).Moved
          (Project.empty.extend ((parseText file).program.down 0)) :=
        Project.Moved.extend ⟨.nil, .nil⟩ _ 0
      rw [parseText, parse_down_zero] at hself
      rw [List.nil_append, String.intercalate_singleton, hone]
      exact ⟨hfile, hself⟩
    · rw [intercalate_concat hf, parseText_append herrors, hfile]
      refine ⟨rfl, ?_⟩
      have hjoined : parseProject [String.intercalate "\n" files ++ "\n" ++ file] =
          (parseProject [String.intercalate "\n" files]).extend
            ((parseText file).program.down (lineCount ("\n".intercalate files))) := by
        rw [hone, hone, parseText_append herrors]
        rfl
      rw [hjoined]
      exact hmoved.extend _ _

/-- **Scripts compose.** Below a script without faults another one is read as on its own: its
    declarations follow those of the first, and its faults are the only ones, with all lines moved
    down by those of the first. So scripts without faults, one below the other, define the pages
    and libraries of all of them up to lines. -/
theorem parse_composes :
    (∀ a b : String, (parseText a).errors = [] →
      parseText (a ++ "\n" ++ b) =
        ⟨(parseText a).program.append ((parseText b).program.down (lineCount a)),
          (parseText b).errors.map (SyntaxError.down (lineCount a))⟩) ∧
    ∀ files : List String, (∀ file ∈ files, (parseText file).errors = []) →
      (parseProject files).Moved (parseProject [String.intercalate "\n" files]) :=
  ⟨fun _ b ha => parseText_append ha b, fun _ h => (moved_intercalate h).2⟩

def cartScript : String :=
  "PAGE Cart \x7b
  FIELD total = \"#sum\"
\x7d"

/-- A script with a statement that is not complete. -/
def payScript : String :=
  "FEATURE Pay \x7b
  SCENARIO \"pays\" \x7b
    CLICK
    REFRESH
  \x7d
\x7d"

theorem parse_composes_cart :
    (parseText cartScript).errors = [] ∧
    (parseText payScript).errors.map (·.pos) = [⟨3, 5⟩] ∧
    (parseText (cartScript ++ "\n" ++ payScript)).errors.map (·.pos) = [⟨6, 5⟩] ∧
    parseText (cartScript ++ "\n" ++ payScript) =
      ⟨(parseText cartScript).program.append
          ((parseText payScript).program.down (lineCount cartScript)),
        (parseText payScript).errors.map (SyntaxError.down (lineCount cartScript))⟩ ∧
    (parseProject [cartScript, cartScript]).Moved
      (parseProject [String.intercalate "\n" [cartScript, cartScript]]) := by
  obtain ⟨hcart, hpay⟩ : (parseText cartScript).errors = [] ∧
      (parseText payScript).errors.map (·.pos) = [⟨3, 5⟩] := by
    decide +kernel
  have happend := parse_composes.1 cartScript payScript hcart
  refine ⟨hcart, hpay, ?_, happend, parse_composes.2 [cartScript, cartScript] (by simp [hcart])⟩
  calc (parseText (cartScript ++ "\n" ++ payScript)).errors.map (·.pos)
      = ((parseText payScript).errors.map (·.pos)).map
          (Position.down (lineCount cartScript)) := by
        rw [happend, List.map_map, List.map_map]
        rfl
    _ = [⟨6, 5⟩] := by
        rw [hpay]
        decide +kernel

end UiScenario
