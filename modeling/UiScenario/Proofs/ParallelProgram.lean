import UiScenario.Grammar.Program
import UiScenario.Proofs.ParallelGrammar

/-!
Declarations and programs, one lemma for each rule as in `ParallelGrammar`. A program is read by
rounds, one for each declaration, and every round leaves fewer tokens.
-/

namespace UiScenario.Grammar

open UiScenario.Grammar.Parser

section
variable {N : Nat} {s s' : State} {found : Option Declaration} {c : Bool}

/-! ## Pages and libraries -/

theorem parallel_action : Parallel N true action action := by
  refine parallel_current.bind fun t => Parallel.first steady_name.parallel fun n => ?_
  refine parallel_eat.bind fun _ => parallel_ite ?_ parallel_block.give
  exact (steady_commaSeparated steady_binding).parallel.bind fun _ => parallel_block.give

theorem field_eq : field = advance >>= fun t =>
    enclosed (fun _ => some ⟨"FIELD", t.line⟩) (fun _ => none) (name "a field name" >>= fun n =>
      expect .equals "'=' after the field name" >>= fun _ => selector >>= fun x =>
        pure ⟨n, x, t.line⟩) := by
  unfold field enclosed
  simp only [bind_assoc, pure_bind]
  rfl

theorem parallel_field : Parallel N true field field := by
  rw [field_eq]
  exact parallel_advance.first fun t => parallel_enclosed
    (steady_name.parallel.bind fun _ => parallel_expect.bind fun _ => steady_selector.parallel.give)
    rfl

theorem pageVariable_eq : pageVariable = advance >>= fun t =>
    enclosed (fun _ => some ⟨Text.upper t.value, t.line⟩) (fun _ => none)
      (name "a variable name" >>= fun n =>
        expect .equals "'=' after the variable name" >>= fun _ => expression >>= fun e =>
          pure ⟨variableKind t.kind, n, e, t.line⟩) := by
  unfold pageVariable enclosed
  simp only [bind_assoc, pure_bind]
  rfl

theorem parallel_pageVariable : Parallel N true pageVariable pageVariable := by
  rw [pageVariable_eq]
  exact parallel_advance.first fun t => parallel_enclosed
    (steady_name.parallel.bind fun _ => parallel_expect.bind fun _ =>
      steady_expression.parallel.give) rfl

theorem lookahead_atAction : Lookahead c atAction := by
  rintro _ behind ⟨us, t, rfl, ht⟩ -
  rcases us with _ | ⟨u, _ | ⟨v, us⟩⟩
  · cases behind <;> simp [atAction, Token.isWord, TokenKind.isWord, ht]
  · simp [atAction]
  · simp [atAction]

theorem parallel_pageMember : Parallel N true pageMember pageMember := by
  refine parallel_check.bind fun _ => parallel_ite parallel_field.map ?_
  refine parallel_test lookahead_atAction parallel_action.map ?_
  exact parallel_current.bind fun t => parallel_ite parallel_pageVariable.map parallel_fail

theorem parallel_recoveringPageMember :
    Parallel N false recoveringPageMember recoveringPageMember := by
  refine (parallel_recovering parallel_pageMember).bind fun found => ?_
  exact parallel_ite (parallel_setOpened_none.bind fun _ => parallel_pure) parallel_pure

theorem progresses_recoveringPageMember : Progresses N recoveringPageMember := by
  have h : Progresses N (recovering atPageMember pageMember) :=
    progresses_recovering parallel_pageMember
  refine h.bind fun found s x s' hr => ?_
  cases found <;> cases hr <;> rfl

theorem parallel_page : Parallel N true page page := by
  refine parallel_advance.first fun t => steady_name.parallel.bind fun n => ?_
  refine (parallel_after? (c := false) ?_).bind fun url => ?_
  · exact parallel_expect.bind fun _ => parallel_expect.give
  · exact (parallel_members parallel_recoveringPageMember progresses_recoveringPageMember).give

theorem parallel_libraryMember : Parallel N true libraryMember libraryMember :=
  parallel_test lookahead_atAction parallel_action parallel_fail

theorem parallel_library : Parallel N true library library := by
  refine parallel_advance.first fun t => steady_name.parallel.bind fun n => ?_
  refine (parallel_after? steady_name.parallel).bind fun forPage => ?_
  exact (parallel_members (parallel_recovering parallel_libraryMember)
    (progresses_recovering parallel_libraryMember)).give

/-! ## Features -/

theorem parallel_title {expected : String} : Parallel N true (title expected) (title expected) :=
  parallel_check.bind fun _ => parallel_ite parallel_advance.map steady_name.parallel

def tagRound : Parser (Option String) := do
  if ← check .tag then return some (← advance).value
  return none

theorem tags_eq : tags = many tagRound := rfl

theorem parallel_tagRound : Parallel N false tagRound tagRound :=
  parallel_check.bind fun _ => parallel_ite parallel_advance.give parallel_pure

theorem advances_tagRound : Advances N tagRound := by
  have htag : Parallel N true (advance >>= fun t => pure (some t.value))
      (advance >>= fun t => pure (some t.value)) := parallel_advance.map
  exact advances_test (g := startsWith .tag) rfl htag

theorem parallel_tags : Parallel N false tags tags := by
  rw [tags_eq]
  exact parallel_many parallel_tagRound advances_tagRound

theorem length_tags_lt {names : List String} (hs : Fits N s) (ht : startsWith .tag s.ahead = true)
    (hr : tags s = .ok names s') : s'.ahead.length < s.ahead.length := by
  have hround : tagRound s = .ok (some s.current.value) { s with ahead := s.ahead.tail } := by
    show (if startsWith .tag s.ahead = true then _ else _ : Parser (Option String)) s = _
    rw [if_pos ht]
    rfl
  obtain ⟨s₁, hx, hnone⟩ := (many_eq_ok parallel_tagRound advances_tagRound hs).1 hr
  cases hx with
  | nil =>
    rw [hround] at hnone
    cases hnone
  | cons h hx =>
    have hl := advances_tagRound _ _ _ hs h
    have hs₁ := hs.onward (parallel_tagRound.onward_ok hs h)
    have ho := (onward_repeats parallel_tagRound advances_tagRound hs₁ hx).1
    have ho' := parallel_tagRound.onward_ok (hs₁.onward ho) hnone
    exact (ho.trans ho').length.trans_lt hl

theorem parallel_hookKind : Parallel N true hookKind hookKind :=
  parallel_advance.first fun _ => parallel_eat.bind fun _ => parallel_ite parallel_pure <|
    parallel_eat.bind fun _ => parallel_ite parallel_pure parallel_fail

theorem parallel_hook : Parallel N true hook hook :=
  parallel_current.bind fun _ => parallel_hookKind.first fun _ => parallel_block.give

theorem parallel_scenario : Parallel N true scenario scenario :=
  parallel_advance.first fun _ => parallel_title.bind fun _ => parallel_tags.bind fun _ =>
    parallel_block.give

/-- The member of a feature that starts with a token of the given kind. -/
def featureMemberAt (kind : TokenKind) : Parser FeatureMember :=
  match kind with
  | .tag => return .tags (← tags)
  | .keyword .before | .keyword .after => return .hook (← hook)
  | .keyword .scenario => return .scenario (← scenario)
  | _ => fail "USE, SCENARIO, BEFORE or AFTER"

theorem featureMember_eq : featureMember = current >>= fun t => featureMemberAt t.kind := rfl

theorem parallel_featureMemberAt {kind : TokenKind} (hk : kind ≠ .tag) :
    Parallel N true (featureMemberAt kind) (featureMemberAt kind) := by
  unfold featureMemberAt
  split
  · exact absurd rfl hk
  · exact parallel_hook.map
  · exact parallel_hook.map
  · exact parallel_scenario.map
  · exact parallel_fail

theorem parallel_featureMember : Parallel N true featureMember featureMember := by
  have hall : Parallel N false featureMember featureMember := by
    rw [featureMember_eq]
    refine parallel_current.bind fun t => ?_
    by_cases hk : t.kind = .tag
    · rw [hk]
      exact parallel_tags.give
    · exact (parallel_featureMemberAt hk).weaken
  refine { hall with reads := fun _ s m s' hs hne hr => ?_ }
  rw [featureMember_eq, current_bind] at hr
  by_cases hk : s.current.kind = .tag
  · rw [hk] at hr
    obtain ⟨names, s₁, hr, ⟨⟩⟩ := parser_bind_eq_ok.1 hr
    refine length_tags_lt hs ?_ hr
    cases hts : s.ahead with
    | nil => exact absurd hts hne
    | cons t ts => simpa [State.current, hts, startsWith] using hk
  · exact (parallel_featureMemberAt hk).reads rfl s m s' hs hne hr

/-- The names of a `USE` as a member; behind a fault the rest is skipped. -/
def usesMember (line : Nat) : List Use × Option SyntaxError → Parser FeatureMember
  | (uses, none) => return .uses uses
  | (uses, some e) => do
    report e
    skip (skipTo atFeatureMember line 0)
    return .faulty uses

theorem useMember_eq : useMember = advance >>= fun t => ahead >>= fun ts =>
    useNames (ts.length + 1) >>= usesMember t.line := rfl

theorem parallel_useNames {β : Type} {k : List Use × Option SyntaxError → Parser β}
    (hk : ∀ us, Parallel N false (k (us, none)) (k (us, none)))
    (he : ∀ us e, Parallel N false (k (us, some e)) (k (us, some e)))
    (hf : ∀ us e, Faulty N (k (us, some e))) : ∀ M ≤ N, ∀ a b, M ≤ a → M ≤ b →
      Parallel M false (useNames a >>= k) (useNames b >>= k) := by
  intro M
  induction M generalizing k with
  | zero => exact fun _ _ _ _ _ => parallel_zero
  | succ M ih =>
    intro hM a b ha hb
    obtain ⟨a, rfl⟩ := Nat.exists_eq_add_of_le' ha
    obtain ⟨b, rfl⟩ := Nat.exists_eq_add_of_le' hb
    show Parallel (M + 1) false (useNames (a + M + 1) >>= k) (useNames (b + M + 1) >>= k)
    rw [useNames, useNames, bind_assoc, bind_assoc]
    refine parallel_current.bind fun t => ?_
    simp only [bind_assoc]
    refine parallel_attempt steady_name.parallel (fun n => ?_) (fun e => ?_) fun e => ?_
    · dsimp only
      rw [bind_assoc, bind_assoc]
      refine parallel_eat.bindFewer (c := false) (d := false)
        (M := fun eaten => bif eaten then M else M + 1) (fun s eaten s' hs hr => ?_)
        fun eaten => ?_
      · have ho := parallel_eat.onward_ok hs hr
        cases eaten with
        | false => exact hs.onward ho
        | true => exact hs.shorter ho (length_eat_lt hr)
      · cases eaten with
        | false => exact (hk _).anti hM
        | true =>
          show Parallel M false ((useNames (a + M) >>= _) >>= k) ((useNames (b + M) >>= _) >>= k)
          rw [bind_assoc, bind_assoc]
          exact ih (k := fun x => k (⟨n, t.line⟩ :: x.1, x.2))
            (fun us => hk (⟨n, t.line⟩ :: us)) (fun us => he (⟨n, t.line⟩ :: us))
            (fun us => hf (⟨n, t.line⟩ :: us)) (by omega) _ _ (Nat.le_add_left ..)
            (Nat.le_add_left ..)
    · exact (he [] e).anti hM
    · exact fun s x s' hs hr => hf [] e s x s' (hs.mono hM) hr

theorem parallel_usesMember (line : Nat) : ∀ M ≤ N, ∀ a b, M ≤ a → M ≤ b →
    Parallel M false (useNames a >>= usesMember line) (useNames b >>= usesMember line) :=
  parallel_useNames (fun _ => parallel_pure)
    (fun _ _ => parallel_giveUp (skipTo_suffix atFeatureMember line 0)) fun _ _ => faulty_giveUp

theorem parallel_useMember : Parallel N true useMember useMember := by
  rw [useMember_eq]
  exact parallel_advance.first fun t => parallel_bounded
    (p := fun n => useNames n >>= usesMember t.line)
    (q := fun n => useNames n >>= usesMember t.line) (parallel_usesMember t.line)

theorem parallel_recoveringFeatureMember :
    Parallel N false recoveringFeatureMember recoveringFeatureMember :=
  parallel_check.bind fun _ => parallel_ite parallel_useMember.weaken
    (parallel_recovering parallel_featureMember).give

theorem progresses_recoveringFeatureMember : Progresses N recoveringFeatureMember := by
  have hp : Progresses N (recovering atFeatureMember featureMember >>= fun found =>
      pure (found.getD (.faulty []))) :=
    (progresses_recovering parallel_featureMember).bind fun _ _ _ _ hr => by cases hr; rfl
  intro s t ts m s' hs hts hb hd hr
  replace hr : (if startsWith (.keyword .use) s.ahead = true then useMember else
    recovering atFeatureMember featureMember >>= fun found =>
      pure (found.getD (.faulty [])) : Parser FeatureMember) s = .ok m s' := hr
  split at hr
  · exact parallel_useMember.reads rfl s m s' hs (by simp [hts]) hr
  · exact hp s t ts m s' hs hts hb hd hr

theorem parallel_feature : Parallel N true feature feature :=
  parallel_advance.first fun _ => parallel_title.bind fun _ => parallel_tags.bind fun _ =>
    (parallel_members parallel_recoveringFeatureMember progresses_recoveringFeatureMember).give

/-! ## Programs -/

theorem parallel_declaration : Parallel N true declaration declaration := by
  refine parallel_current.bind fun t => ?_
  split
  · exact parallel_page.map
  · exact parallel_library.map
  · exact parallel_feature.map
  · exact parallel_fail

theorem parallel_forgetUnclosed : Parallel N false
    (modify fun s : State => { s with unclosedReported := false })
    (modify fun s : State => { s with unclosedReported := false }) where
  onward s _ := ⟨trivial, List.suffix_refl _, rfl, List.prefix_refl _, fun _ _ => rfl⟩
  reads hc := by cases hc
  opened := by rintro s a s' - ⟨⟩ - h; exact h
  same _ _ := rfl
  longer := by rintro s a s' - ⟨⟩ - - - behind last; rfl

theorem parallel_recoveringDeclaration :
    Parallel N false recoveringDeclaration recoveringDeclaration :=
  parallel_forgetUnclosed.bind fun _ => parallel_attempt parallel_declaration
    (fun _ => parallel_pure) (fun _ => parallel_giveUp skipDeclaration_suffix)
    fun _ => faulty_giveUp

/-- One round of a program: its end, or a declaration. -/
def programRound : Parser (Option (Option Declaration)) := do
  if (← ahead).isEmpty then return none
  return some (← recoveringDeclaration)

/-- The program of declarations; those that are missing were faulty. -/
def programOf (found : List (Option Declaration)) : Program :=
  let declarations := found.filterMap id
  { pages := declarations.filterMap Declaration.page?
    libraries := declarations.filterMap Declaration.library?
    features := declarations.filterMap Declaration.feature? }

theorem program_eq : program = many programRound >>= fun found => pure (programOf found) := rfl

theorem lookahead_isEmpty : Lookahead c (List.isEmpty (α := Token)) := by
  intro ts behind h _
  cases ts with
  | nil => exact absurd rfl h.ne_nil
  | cons t ts => rfl

theorem parallel_programRound : Parallel N false programRound programRound :=
  parallel_test lookahead_isEmpty parallel_pure parallel_recoveringDeclaration.give

/-- A faulty declaration is skipped from its first token on. -/
theorem length_recoveringDeclaration_lt (hs : Fits N s) (hne : s.ahead ≠ [])
    (hr : recoveringDeclaration s = .ok found s') : s'.ahead.length < s.ahead.length := by
  obtain ⟨_, s₁, ⟨⟩, hr⟩ := parser_bind_eq_ok.1 hr
  have hs₁ : Fits N { s with unclosedReported := false } := ⟨hs.length, hs.last⟩
  cases hp : declaration { s with unclosedReported := false } with
  | ok d s₂ =>
    rw [attempt_bind_of_ok hp] at hr
    cases hr
    exact parallel_declaration.reads rfl { s with unclosedReported := false } d s' hs₁ hne hp
  | error e s₂ =>
    rw [attempt_bind_of_error hp] at hr
    cases hr
    have ho : s₂.ahead <:+ s.ahead := (parallel_declaration.onward_error hs₁ hp).ahead
    show (skipDeclaration s₂.ahead).length < s.ahead.length
    by_cases he : s₂.ahead = []
    · rw [he]
      exact List.length_pos_of_ne_nil hne
    · have hsub : (skipDeclaration s₂.ahead).length ≤ (s₂.ahead.drop 1).length :=
        (List.dropWhile_suffix _).length_le
      rw [List.length_drop] at hsub
      have := List.length_pos_of_ne_nil he
      have := ho.length_le
      omega

theorem programRound_eq_none : programRound s = .ok none s' ↔ s.ahead = [] ∧ s' = s := by
  have hr : programRound s = (if s.ahead.isEmpty = true then pure none else
    recoveringDeclaration >>= fun found => pure (some found) :
      Parser (Option (Option Declaration))) s := rfl
  rw [hr]
  split
  · next he =>
    refine ⟨?_, fun h => by rw [h.2]; rfl⟩
    rintro ⟨⟩
    exact ⟨List.isEmpty_iff.1 he, rfl⟩
  · next he =>
    refine ⟨fun h => ?_, fun h => absurd (List.isEmpty_iff.2 h.1) he⟩
    obtain ⟨_, _, -, h⟩ := parser_bind_eq_ok.1 h
    cases h

theorem programRound_eq_some :
    programRound s = .ok (some found) s' ↔
      s.ahead ≠ [] ∧ recoveringDeclaration s = .ok found s' := by
  have hr : programRound s = (if s.ahead.isEmpty = true then pure none else
    recoveringDeclaration >>= fun found => pure (some found) :
      Parser (Option (Option Declaration))) s := rfl
  rw [hr]
  split
  · next he =>
    refine ⟨?_, fun h => absurd (List.isEmpty_iff.1 he) h.1⟩
    rintro ⟨⟩
  · next he =>
    refine ⟨fun h => ?_, fun h => bind_of_ok h.2⟩
    obtain ⟨found, s₁, hr, ⟨⟩⟩ := parser_bind_eq_ok.1 h
    exact ⟨by simpa using he, hr⟩

theorem advances_programRound : Advances N programRound := by
  intro s x s' hs hr
  obtain ⟨hne, hr⟩ := programRound_eq_some.1 hr
  exact length_recoveringDeclaration_lt hs hne hr

end

end UiScenario.Grammar
