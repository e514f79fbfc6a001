import UiScenario.Proofs.Faithful

/-!
The watches on statements, declarations and scripts tell the truth.
-/

namespace UiScenario.Grammar

open UiScenario.Grammar.Parser

namespace Watch

/-! ## Statements -/

section
variable {block : String → Parser (List Statement)}
  {wb : Inside → (what : String) → Watch (block what)} {S : State} {N : Nat} {i : Inside}
  {here : Bool}

/-- No further arm follows where a block ends without its brace. -/
theorem armRound_of_end {s : State} (h : endsBlock s.ahead = true) :
    Grammar.armRound block s = .ok none s ∧ (armRound wb i).events s = [] := by
  have he : atElseIf s.ahead = false := by
    rw [atElseIf, startsWith_of_endsBlock rfl h]
    rfl
  obtain ⟨p, hp⟩ : ∃ p : Parser (Option Arm), Grammar.armRound block s =
    (if atElseIf s.ahead = true then p else pure none) s := ⟨_, rfl⟩
  obtain ⟨xs, hx⟩ : ∃ xs, (armRound wb i).events s =
    if atElseIf s.ahead = true then xs else [] := ⟨_, rfl⟩
  rw [hp, hx, he]
  exact ⟨rfl, rfl⟩

theorem idle_armRounds (n : Nat) : Idle (rounds (armRound wb i) n) := by
  intro s hs
  obtain ⟨hr, he⟩ := @armRound_of_end block wb i s hs
  cases n with
  | zero => exact ⟨[], s, rfl, rfl, rfl⟩
  | succ n => exact ⟨[], s, rounds_of_none hr, rfl, by rw [events_rounds_of_none hr, he]; rfl⟩

theorem idle_eat {β : Type} {kind : TokenKind} {k : Bool → Parser β}
    {f : (eaten : Bool) → Watch (k eaten)} (hk : kind.startsDeclaration = false)
    (h : Idle (f false)) : Idle ((silent : Watch (eat kind)).bind f) := by
  intro s hs
  have he := eat_of_not_startsWith (startsWith_of_endsBlock hk hs)
  obtain ⟨b, s', hr, ha, hev⟩ := h s hs
  exact ⟨b, s', (bind_of_ok he).trans hr, ha, by rw [events_bind_of_ok he]; exact hev⟩

theorem faithful_throw {α : Type} {e : SyntaxError} (h : Answers S i e) :
    Faithful S N i here unnamed (rule i (throw e : Parser α)) where
  value _ hr := by cases hr
  fault {s _ _} hs hr := by
    cases hr
    exact ⟨[], i, rfl, hs.told (.refl s), h, rfl, fun _ => rfl⟩

variable (hb : ∀ {here} i what, Faithful S N i here unnamed (wb i what))
include hb

theorem faithful_arm : Faithful S N i here unnamed (arm wb i) :=
  calm_advance.leads fun _ => steady_condition.plain.leads fun _ => (hb i _).give

theorem faithful_armRounds : Faithful S N i here unnamed (many (armRound wb i)) := by
  have h : Faithful S N i here unnamed (armRound wb i) :=
    calm_ahead.leads fun _ => faithful_ite (calm_advance.leads fun _ => (faithful_arm hb).give)
      (faithful_silent calm_pure)
  exact faithful_of_runs fun s _ =>
    ⟨_, _, faithful_rounds h idle_armRounds (s.ahead.length + 1), rfl, rfl⟩

/-- Behind a block that ran out, neither a further arm nor an `ELSE` follows. -/
theorem faithful_branchStatement : Faithful S N i here unnamed (branchStatement wb i) := by
  refine (faithful_arm hb).bind (fun first => ?_) (.inr ⟨rfl, fun first => ?_⟩)
  · refine (faithful_armRounds hb).bind (fun further => ?_) (.inr ⟨rfl, fun further => ?_⟩)
    · exact calm_eat.leads fun _ => faithful_ite (hb i _).give (faithful_silent calm_pure)
    · exact idle_eat rfl fun s _ => ⟨_, s, rfl, rfl, rfl⟩
  · refine Idle.bind (fun s hs => idle_armRounds (s.ahead.length + 1) s hs) fun further => ?_
    exact idle_eat rfl fun s _ => ⟨_, s, rfl, rfl, rfl⟩

theorem faithful_repeatStatement : Faithful S N i here unnamed (repeatStatement wb i) :=
  calm_advance.leads fun _ => steady_expression.plain.leads fun _ =>
    (steady_expect (by decide)).plain.leads fun _ => (hb i _).give

theorem faithful_forEachStatement : Faithful S N i here unnamed (forEachStatement wb i) :=
  calm_advance.leads fun _ => (steady_expect (by decide)).plain.leads fun _ =>
    steady_binding.plain.leads fun _ => (steady_expect (by decide)).plain.leads fun _ =>
      steady_name.plain.leads fun _ => (hb i _).give

theorem faithful_statementRule : Faithful S N i here unnamed (statementRule wb i) := by
  refine faithful_of_runs fun s hs => ?_
  simp only [statementRule]
  split
  · next hk =>
    exact ⟨_, _, faithful_branchStatement hb, by rw [Grammar.statementRule, current_bind, hk], rfl⟩
  · next hk =>
    exact ⟨_, _, faithful_repeatStatement hb, by rw [Grammar.statementRule, current_bind, hk], rfl⟩
  · next hk =>
    exact ⟨_, _, faithful_forEachStatement hb, by rw [Grammar.statementRule, current_bind, hk], rfl⟩
  · next hif hrepeat hfor =>
    have he : _ = Grammar.statementRule block s := (current_bind _ s).symm
    refine ⟨_, _, (?_ : ∀ p, _ = p → Faithful S N i here unnamed (rule i p)) _ rfl, he,
      events_rule_congr he⟩
    intro p hp
    have hunknown : Answers S i ⟨.unknownStatement s.current.display, s.current.pos⟩ :=
      ⟨by simp, by simp, fun _ => .unknown hs.current⟩
    split at hp <;> subst hp
    · next heq => exact absurd heq hif
    · next heq => exact absurd heq hrepeat
    · next heq => exact absurd heq hfor
    · next word _ _ _ _ =>
      refine faithful_of_runs fun s₁ _ =>
        ⟨stepStatement s.current (stepRule? word s₁.ahead), rule i _, ?_, rfl, rfl⟩
      cases hr : stepRule? word s₁.ahead with
      | none => exact faithful_throw hunknown
      | some step =>
        obtain ⟨n, ⟨k, rfl, hk⟩, -⟩ := headed_stepRule hr
        rw [stepStatement, bind_assoc]
        exact faithful_rule (calm_advance.plain_bind fun t => (hk t).give.plain)
    · exact faithful_throw hunknown

/-- A statement is the innermost one inside of itself, and afterwards the record is back. -/
theorem faithful_statementWith : Faithful S N i false unnamed (statementWith wb i) := by
  have hrule : ∀ o, Faithful S N (i.statement o) false unnamed (statementRule wb (i.statement o)) :=
    fun _ => faithful_statementRule hb
  have hopen : ∀ {s}, Stands S N i.opened s → Stands S N
      (i.statement ⟨Text.upper s.current.value, s.current.line⟩).opened
      (s.reopened (some ⟨Text.upper s.current.value, s.current.line⟩)) :=
    fun hs => { hs with opened := rfl, placed := by rintro _ ⟨⟩; exact ⟨_, hs.current, rfl⟩ }
  constructor
  · intro s a s' hs hr
    rw [statementWith_eq, current_bind] at hr
    obtain ⟨s₁, hp, rfl⟩ := exists_of_enclosed_eq_ok hr
    obtain ⟨ht, hl⟩ := (hrule _).value (hopen hs) hp
    rw [id, hs.opened]
    exact ⟨{ ht.reopened hs.placed with }, hl⟩
  · intro s e s' hs hr
    rw [statementWith_eq, current_bind] at hr
    obtain ⟨events, j, he, ht, ha, hq, -⟩ := (hrule _).fault (hopen hs) (eq_error_of_enclosed hr)
    exact ⟨events, j, he, { ht with }, ha, hq, by simp⟩

/-- The record is back behind a faulty statement, too. -/
theorem faithful_blockMember : Faithful S N i here unnamed (blockMember wb i) where
  value {s x s'} hs hr := by
    rw [blockMember_eq] at hr
    obtain ⟨s₁, hp, rfl⟩ := exists_of_enclosed_eq_ok hr
    obtain ⟨o, ht, hl, -⟩ := (faithful_statementWith hb).recovered hs hp
    rw [id, hs.opened]
    exact ⟨ht.reopened hs.placed, hl⟩
  fault {s e s'} hs hr := by
    obtain ⟨x, s₁, hp⟩ := total_blockMember s
    cases hp.symm.trans hr

end

section
variable {S : State} {N : Nat} {i : Inside} {here : Bool}

theorem faithful_nestedBlock : ∀ n {here} i what,
    Faithful S n i here unnamed (nestedBlock n i what)
  | 0, _, _, _ => faithful_fail
  | n + 1, here, i, what => by
    have hp : ∀ what, Parallel n true (Grammar.nestedBlock n what) (Grammar.nestedBlock n what) :=
      parallel_nestedBlock n n n (Nat.le_refl n) (Nat.le_refl n)
    refine (faithful_braced (fun b => ?_) (parallel_blockMember hp) (progresses_blockMember hp)
      total_blockMember).forget.give
    exact faithful_blockMember (faithful_nestedBlock n)

theorem faithful_block (i : Inside) (what : String) :
    Faithful S N i here unnamed (block i what) := by
  have h : ∀ n, Faithful S n i here unnamed (nestedBlock n i what) :=
    fun n => faithful_nestedBlock n i what
  have hlength : ∀ {s}, Stands S N i.opened s → Stands S (s.ahead.length + 1) i.opened s :=
    fun hs => { hs with length := Nat.lt_succ_self _ }
  constructor
  · intro s a s' hs hr
    obtain ⟨ht, hl⟩ := (h _).value (hlength hs) hr
    exact ⟨{ ht with length := Nat.lt_of_lt_of_le ht.length hs.length }, hl⟩
  · intro s e s' hs hr
    obtain ⟨events, j, he, ht, hrest⟩ := (h _).fault (hlength hs) hr
    exact ⟨events, j, he, { ht with length := Nat.lt_of_lt_of_le ht.length hs.length }, hrest⟩

end

end Watch

/-! ## Declarations -/

/-- What the block of a declaration belongs to. -/
def Declaration.blockName : Declaration → String
  | page _ => "page"
  | library _ => "page actions"
  | feature _ => "feature"

/-- What is told of a round is true. -/
structure Reading.Sound (S : State) (r : Reading) : Prop where
  events : ∀ x ∈ r.events, x.Sound S
  kept : ∀ d, r.found = some d → ∃ (own : OpenBlock) (ahead : List Token),
    own.what = d.blockName ∧ Ended own [] ahead r.events
  missing : r.found = none → ranOuts r.events = []

namespace Watch

section
variable {S : State} {N : Nat} {i : Inside} {here : Bool}

/-! ### Pages and libraries -/

theorem faithful_action : Faithful S N i here unnamed (action i) :=
  calm_current.leads fun _ => steady_name.plain.leads fun _ => calm_eat.leads fun _ =>
    faithful_ite ((steady_commaSeparated steady_binding).plain.leads fun _ =>
        (faithful_block i _).give)
      (faithful_block i _).give

/-- A member of a page that is read as a statement, with no statement around it. -/
theorem faithful_opening {α : Type} {p : Parser α} {start : Token → Opened}
    {body : Token → Parser α} (hb : ∀ t, Plain (body t)) (hline : ∀ t, (start t).line = t.line)
    (hi : i.opened = none)
    (hp : p = advance >>= fun t => enclosed (fun _ => some (start t)) (fun _ => none) (body t)) :
    Faithful S N i false unnamed
      (⟨fun s => (rule (i.statement (start s.current)) p).events s⟩ : Watch p) := by
  have hopen : ∀ {s}, Stands S N i.opened s → Told S N (some (start s.current)) s []
      ((s.leaving s.ahead.tail).reopened (some (start s.current))) := by
    intro s hs
    obtain ⟨_, read, _, hread, ⟨⟩⟩ := calm_advance s
    refine (hs.told hread).reopened ?_
    rintro _ ⟨⟩
    exact ⟨_, hs.current, (hline _).symm⟩
  have hadvance : ∀ s, advance s = .ok s.current (s.leaving s.ahead.tail) := fun _ => rfl
  constructor
  · intro s a s' hs hr
    have he : (rule (i.statement (start s.current)) p).events s = [] := by simp only [rule, hr]
    rw [hp, bind_of_ok (hadvance s)] at hr
    obtain ⟨s₁, hbody, rfl⟩ := exists_of_enclosed_eq_ok hr
    obtain ⟨read, hread⟩ := (hb _).value hbody
    have ht := (hopen hs).trans ((hopen hs).toStands.told hread)
    rw [he, hi]
    exact ⟨ht.reopened (by simp), left_of_quiet rfl⟩
  · intro s e s' hs hr
    have he : (rule (i.statement (start s.current)) p).events s =
        [.raised e (i.statement (start s.current))] := by simp only [rule, hr]
    rw [hp, bind_of_ok (hadvance s)] at hr
    obtain ⟨read, hread, hraised⟩ := (hb _).fault (eq_error_of_enclosed hr)
    have ht := (hopen hs).trans ((hopen hs).toStands.told hread)
    exact ⟨[], _, he, ht, hraised.answers (hopen hs).toStands hread, rfl, by simp⟩

theorem faithful_pageMember (hi : i.opened = none) :
    Faithful S N i false unnamed (pageMember i) := by
  have hfield : Faithful S N i false unnamed (field i) :=
    faithful_opening (fun _ => (steady_name.bind fun _ => (steady_expect (by decide)).bind fun _ =>
      steady_selector.give).plain) (fun _ => rfl) hi field_eq
  have hvariable : Faithful S N i false unnamed (pageVariable i) :=
    faithful_opening (fun _ => (steady_name.bind fun _ => (steady_expect (by decide)).bind fun _ =>
      steady_expression.give).plain) (fun _ => rfl) hi pageVariable_eq
  exact calm_check.leads fun _ => faithful_ite hfield.give <|
    calm_ahead.leads fun _ => faithful_ite faithful_action.give <|
      calm_current.leads fun _ => faithful_ite hvariable.give <| faithful_fail

/-- Behind a faulty member no statement is open, as there is none around it. -/
theorem faithful_recoveringPageMember (hi : i.opened = none) :
    Faithful S N i here unnamed (recoveringPageMember i) where
  value {s x s'} hs hr := by
    obtain ⟨y, s₁, hp, hr⟩ := parser_bind_eq_ok.1 hr
    obtain ⟨o, ht, hl, ho⟩ := (faithful_pageMember hi).recovered hs hp
    have he : (recoveringPageMember i).events s = (pageMember i).events s := by
      rw [recoveringPageMember, events_bind_of_ok hp]
      exact List.append_nil _
    rw [he]
    cases y with
    | none =>
      cases hr
      rw [hi]
      exact ⟨ht.reopened (by simp), hl⟩
    | some m =>
      cases hr
      rw [ho (.inr rfl)] at ht
      exact ⟨ht, hl⟩
  fault {s e s'} hs hr := by
    obtain ⟨x, s₁, hp⟩ := total_recoveringPageMember s
    cases hp.symm.trans hr

theorem faithful_page (hi : i.opened = none) :
    Faithful S (N + 1) i here (fun _ => some "page") (page i) :=
  calm_advance.leads fun _ => steady_name.plain.leads fun _ =>
    (steady_after? (by decide) ((steady_expect (by decide)).bind fun _ =>
        (steady_expect (by decide)).give)).plain.leads fun _ =>
      (faithful_braced (fun _ => faithful_recoveringPageMember hi) parallel_recoveringPageMember
        progresses_recoveringPageMember total_recoveringPageMember).give

theorem faithful_library :
    Faithful S (N + 1) i here (fun _ => some "page actions") (library i) := by
  have hmember : ∀ i, Faithful S N i true unnamed (libraryMember i) := fun i =>
    calm_ahead.leads fun _ => faithful_ite faithful_action faithful_fail
  exact calm_advance.leads fun _ => steady_name.plain.leads fun _ =>
    (calm_eat.plain_bind fun _ => plain_ite steady_name.give.plain calm_pure.plain).leads fun _ =>
      (faithful_braced (fun b => (hmember _).caught) (parallel_recovering parallel_libraryMember)
        (progresses_recovering parallel_libraryMember) total_recovering).give

/-! ### Features -/

theorem plain_title {expected : String} : Plain (title expected) :=
  calm_check.plain_bind fun _ =>
    plain_ite (calm_advance.bind fun _ => calm_pure).plain steady_name.plain

theorem plain_hookKind : Plain hookKind :=
  calm_advance.plain_bind fun _ => calm_eat.plain_bind fun _ => plain_ite calm_pure.plain <|
    calm_eat.plain_bind fun _ => plain_ite calm_pure.plain plain_fail

theorem faithful_featureMember : Faithful S N i here unnamed (featureMember i) := by
  have hhook : Faithful S N i here unnamed (hook i) :=
    calm_current.leads fun _ => plain_hookKind.leads fun _ => (faithful_block i _).give
  have hscenario : Faithful S N i here unnamed (scenario i) :=
    calm_advance.leads fun _ => plain_title.leads fun _ => calm_tags.leads fun _ =>
      (faithful_block i _).give
  refine faithful_of_runs fun s hs => ?_
  simp only [featureMember]
  split
  · next hk =>
    refine ⟨_, _, hhook.give (g := FeatureMember.hook), ?_, rfl⟩
    rw [Grammar.featureMember, current_bind, hk]
  · next hk =>
    refine ⟨_, _, hhook.give (g := FeatureMember.hook), ?_, rfl⟩
    rw [Grammar.featureMember, current_bind, hk]
  · next hk =>
    refine ⟨_, _, hscenario.give (g := FeatureMember.scenario), ?_, rfl⟩
    rw [Grammar.featureMember, current_bind, hk]
  · next hbefore hafter hscenario =>
    have he : featureMemberAt s.current.kind s = Grammar.featureMember s := rfl
    refine ⟨_, rule i _, faithful_rule ?_, he, events_rule_congr he⟩
    unfold featureMemberAt
    split
    · exact (calm_tags.bind fun _ => calm_pure).plain
    · next heq => exact absurd heq hbefore
    · next heq => exact absurd heq hafter
    · next heq => exact absurd heq hscenario
    · exact plain_fail

/-- The names of a `USE` change nothing, and a missing one is a fault at the next token. -/
theorem useNames_raised {n : Nat} {s s' : State} {x : List Use × Option SyntaxError}
    (hr : useNames n s = .ok x s') :
    ∃ read, Passes s read s' ∧ ∀ e, x.2 = some e → Raised read s' e := by
  induction n generalizing s s' x with
  | zero =>
    cases hr
    exact ⟨[], .refl s, by simp⟩
  | succ n ih =>
    rw [useNames, current_bind] at hr
    cases hn : name "a page name after USE" s with
    | error e s₁ =>
      rw [attempt_bind_of_error hn] at hr
      cases hr
      obtain ⟨read, hread, he⟩ := steady_name.plain.fault hn
      exact ⟨read, hread, by rintro _ ⟨⟩; exact he⟩
    | ok a s₁ =>
      rw [attempt_bind_of_ok hn] at hr
      obtain ⟨read, hread⟩ := steady_name.plain.value hn
      obtain ⟨eaten, s₂, heat, hr⟩ := parser_bind_eq_ok.1 hr
      obtain ⟨read', hread'⟩ := calm_eat.plain.value heat
      cases eaten with
      | false =>
        cases hr
        exact ⟨_, hread.trans hread', by simp⟩
      | true =>
        obtain ⟨y, s₃, hrest, hr⟩ := parser_bind_eq_ok.1 hr
        cases hr
        obtain ⟨rest, hpasses, he⟩ := ih hrest
        exact ⟨_, (hread.trans hread').trans hpasses,
          fun e h => (he e h).of_read (List.subset_append_right ..)⟩

theorem faithful_useMember : Faithful S N i here unnamed (useMember i) := by
  refine calm_advance.leads fun t => calm_ahead.leads fun ts => ?_
  constructor
  · intro s m s'' hs hr
    obtain ⟨⟨uses, missing⟩, s', hn, hr⟩ := parser_bind_eq_ok.1 hr
    obtain ⟨read, hread, he⟩ := useNames_raised hn
    rw [events_bind_of_ok hn]
    cases missing with
    | none =>
      cases hr
      exact ⟨hs.told hread, left_of_quiet rfl⟩
    | some e =>
      cases hr
      exact ⟨(hs.told hread).noted ((he e rfl).answers hs hread) (skipTo_suffix ..),
        left_of_quiet rfl⟩
  · intro s e s'' hs hr
    obtain ⟨⟨uses, missing⟩, s', hn⟩ := total_useNames (ts.length + 1) s
    rw [bind_of_ok hn] at hr
    cases missing <;> cases hr

theorem faithful_feature : Faithful S (N + 1) i here (fun _ => some "feature") (feature i) := by
  have hmember : ∀ i, Faithful S N i here unnamed (recoveringFeatureMember i) := fun i =>
    calm_check.leads fun _ => faithful_ite faithful_useMember faithful_featureMember.caught.give
  exact calm_advance.leads fun _ => plain_title.leads fun _ => calm_tags.leads fun _ =>
    (faithful_braced (fun _ => hmember _) parallel_recoveringFeatureMember
      progresses_recoveringFeatureMember total_recoveringFeatureMember).give

end

end Watch

/-! ### Rounds -/

section
variable {S s s' : State} {N : Nat} {here : Bool} {found : Option Declaration}
  {xs : List (Option Declaration)}

theorem Watch.faithful_declaration {i : Inside} (hi : i.opened = none) :
    Faithful S (N + 1) i here (fun d => some d.blockName) (Watch.declaration i) := by
  refine faithful_of_runs fun s _ => ?_
  simp only [Watch.declaration]
  split
  · next hk =>
    refine ⟨_, _, (faithful_page hi).give (g := Declaration.page), ?_, rfl⟩
    rw [Grammar.declaration, current_bind, hk]
  · next hk =>
    refine ⟨_, _, faithful_library.give (g := Declaration.library), ?_, rfl⟩
    rw [Grammar.declaration, current_bind, hk]
  · next hk =>
    refine ⟨_, _, faithful_feature.give (g := Declaration.feature), ?_, rfl⟩
    rw [Grammar.declaration, current_bind, hk]
  · next hpage hlibrary hfeature =>
    have he : _ = Grammar.declaration s := (current_bind _ s).symm
    refine ⟨_, _, (?_ : ∀ p, _ = p → Faithful S (N + 1) i here _ (rule i p)) _ rfl, he,
      events_rule_congr he⟩
    intro p hp
    split at hp <;> subst hp
    · next heq => exact absurd heq hpage
    · next heq => exact absurd heq hlibrary
    · next heq => exact absurd heq hfeature
    · exact faithful_fail

/-- A round reads a declaration, or notes its fault and skips it. -/
theorem recoveringDeclaration_cases (hr : recoveringDeclaration s = .ok found s') :
    (∃ d, found = some d ∧ declaration s.renewed = .ok d s') ∨
    found = none ∧ ∃ e s₁, declaration s.renewed = .error e s₁ ∧
      s' = { s₁ with ahead := skipDeclaration s₁.ahead, errors := s₁.errors ++ [e] } := by
  replace hr : (attempt declaration >>= _) s.renewed = _ := hr
  cases hp : declaration s.renewed with
  | ok d s₁ =>
    rw [attempt_bind_of_ok hp] at hr
    cases hr
    exact .inl ⟨d, rfl, rfl⟩
  | error e s₁ =>
    rw [attempt_bind_of_error hp] at hr
    cases hr
    exact .inr ⟨rfl, e, s₁, rfl, rfl⟩

theorem Stands.renewed (h : Stands S N none s) : Stands S N none s.renewed :=
  { h with }

theorem told_of_programRound (hs : Stands S (N + 1) none s)
    (hr : programRound s = .ok (some found) s') :
    Told S (N + 1) none s.renewed ((Watch.declaration .nothing).events s.renewed) s' ∧
      Reading.Sound S ⟨found, (Watch.declaration .nothing).events s.renewed⟩ := by
  have hd : Watch.Faithful S (N + 1) .nothing true _ (Watch.declaration .nothing) :=
    Watch.faithful_declaration rfl
  obtain ⟨-, hr⟩ := programRound_eq_some.1 hr
  rcases recoveringDeclaration_cases hr with ⟨d, rfl, hp⟩ | ⟨rfl, e, s₁, hp, rfl⟩
  · obtain ⟨ht, hl⟩ := hd.value hs.renewed hp
    refine ⟨ht, ht.sound, ?_, by simp⟩
    rintro _ ⟨⟩
    generalize hown : some d.blockName = own at hl
    cases hl with
    | inside => cases hown
    | block b h => exact ⟨b, s'.ahead, (Option.some.inj hown).symm, h⟩
  · obtain ⟨events, j, he, ht, ha, hq, hj⟩ := hd.fault hs.renewed hp
    rw [hj rfl] at ht
    have hn := ht.noted ha (skipDeclaration_suffix s₁.ahead)
    rw [he]
    exact ⟨hn, hn.sound, by simp, fun _ => by rw [ranOuts_append, hq]; rfl⟩

/-! ## Scripts -/

/-- No statement is open in front of a declaration. -/
theorem stands_of_repeats (hs : Stands S (N + 1) none s) (hx : Repeats programRound s xs s') :
    Stands S (N + 1) none s' := by
  induction hx with
  | nil => exact hs
  | cons hr _ ih => exact ih (told_of_programRound hs hr).1.toStands

/-- The readings tell of all declarations, and of all faults. -/
theorem told_of_rounds {n : Nat} (hs : Stands S (N + 1) none s)
    (hr : rounds programRound n s = .ok xs s') :
    (readings n s).map (·.found) = xs ∧ (∀ r ∈ readings n s, r.Sound S) ∧
      s'.errors = s.errors ++ (readings n s).flatMap fun r => faults false r.events := by
  induction n generalizing s xs with
  | zero =>
    cases hr
    exact ⟨rfl, by simp [readings], (List.append_nil _).symm⟩
  | succ n ih =>
    obtain ⟨x, s₁, hp, hr⟩ := parser_bind_eq_ok.1 hr
    cases x with
    | none =>
      cases hr
      have hnone : readings (n + 1) s = [] := by simp only [readings, hp]
      obtain ⟨-, rfl⟩ := programRound_eq_none.1 hp
      rw [hnone]
      exact ⟨rfl, by simp, (List.append_nil _).symm⟩
    | some found =>
      obtain ⟨ys, s₂, hrest, ⟨⟩⟩ := parser_bind_eq_ok.1 hr
      obtain ⟨ht, hsound⟩ := told_of_programRound hs hp
      obtain ⟨hfound, hrs, herrors⟩ := ih ht.toStands hrest
      have hcons : readings (n + 1) s =
          ⟨found, (Watch.declaration .nothing).events s.renewed⟩ :: readings n s₁ := by
        simp only [readings, hp]
      rw [hcons, herrors, ht.errors, ← hfound]
      exact ⟨rfl, List.forall_mem_cons.2 ⟨hsound, hrs⟩, List.append_assoc ..⟩

end

theorem stands_ofTokens (tokens : List Token) : Stands (.ofTokens tokens)
    ((State.ofTokens tokens).ahead.length + 1) none (.ofTokens tokens) :=
  ⟨⟨Nat.lt_succ_self _, last_ofTokens tokens⟩, List.Subset.refl _, rfl, rfl, by simp⟩

theorem parse_eq_watch (tokens : List Token) :
    parse tokens = ⟨programOf ((watch tokens).map (·.found)),
      (watch tokens).flatMap fun r => faults false r.events⟩ ∧
    ∀ r ∈ watch tokens, r.Sound (.ofTokens tokens) := by
  obtain ⟨xs, s, hr⟩ := total_rounds total_programRound
    ((State.ofTokens tokens).ahead.length + 1) (State.ofTokens tokens)
  obtain ⟨hfound, hsound, herrors⟩ := told_of_rounds (stands_ofTokens tokens) hr
  have hmany : many programRound (.ofTokens tokens) = .ok xs s := hr
  refine ⟨?_, hsound⟩
  rw [parse, program_eq, bind_of_ok hmany]
  show Parsing.mk (programOf xs) s.errors = _
  rw [herrors, ← hfound]
  rfl

end UiScenario.Grammar
