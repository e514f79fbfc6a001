import UiScenario.Proofs.CleanRuns
import UiScenario.Proofs.Openings

/-!
What becomes of the tags of a feature. Tags stand behind the name of the feature, behind the name of
a scenario, or in a row of their own, and such a row waits for the next scenario, whatever comes
between. A row behind the last scenario waits in vain: the feature is read without a fault, and
without these tags.
-/

namespace UiScenario

def tagValues (ts : List Token) : List String :=
  (ts.filter (·.kind == .tag)).map Token.value

@[simp] theorem tagValues_append (ts us : List Token) :
    tagValues (ts ++ us) = tagValues ts ++ tagValues us := by
  simp [tagValues]

namespace Grammar

open UiScenario.Grammar.Parser

variable {ts : List Token} {f : Feature} {s s' : State} {members : List FeatureMember}

theorem Untagged.tagValues_eq (h : Untagged ts) : tagValues ts = [] := by
  have hf : ts.filter (·.kind == .tag) = [] :=
    List.filter_eq_nil_iff.2 fun t ht => by simpa using h t ht
  rw [tagValues, hf, List.map_nil]

/-- Tokens that are tags with the given values. -/
structure TagRow (names : List String) (ts : List Token) : Prop where
  kinds : ∀ t ∈ ts, t.kind = .tag
  values : ts.map Token.value = names

theorem TagRow.tagValues_eq {names : List String} (h : TagRow names ts) : tagValues ts = names := by
  have hf : ts.filter (·.kind == .tag) = ts :=
    List.filter_eq_self.2 fun t ht => by simpa using h.kinds t ht
  rw [tagValues, hf, h.values]

/-! ## Members -/

/-- A member of a feature and its tokens, where it has no fault. -/
inductive Span : FeatureMember → List Token → Prop
  | tags {names : List String} {row : List Token} (h : TagRow names row) : Span (.tags names) row
  | uses {us : List Use} {ts : List Token} (h : Untagged ts) : Span (.uses us) ts
  | hook {h : Hook} {ts : List Token} (ht : Untagged ts) : Span (.hook h) ts
  | scenario {s : Scenario} {front row back : List Token} (hf : Untagged front)
      (hr : TagRow s.tags row) (hb : Untagged back) : Span (.scenario s) (front ++ (row ++ back))

namespace FeatureMember

def tagNames : FeatureMember → List String
  | tags names => names
  | scenario s => s.tags
  | _ => []

def isScenario : FeatureMember → Bool
  | scenario _ => true
  | _ => false

end FeatureMember

theorem Span.tagValues_eq {m : FeatureMember} (h : Span m ts) : tagValues ts = m.tagNames := by
  cases h with
  | tags h => exact h.tagValues_eq
  | uses h => exact h.tagValues_eq
  | hook h => exact h.tagValues_eq
  | scenario hf hr hb =>
    simp [hf.tagValues_eq, hr.tagValues_eq, hb.tagValues_eq, FeatureMember.tagNames]

theorem quiet_title {P : State → Prop} {expected : String} : Quiet P (title expected) :=
  quiet_look (fun _ h => noTag_of_startsWith (by decide) h) quiet_advance.give
    steady_name.quiet

theorem tells_tags (s : State) : Tells TagRow tags s := by
  obtain ⟨row, rest, hs, hrow, hrest⟩ := exists_row s.ahead
  have hread := tags_of_row hrow hrest s
  rw [← hs, leaving_ahead] at hread
  rw [Tells, hread]
  exact ⟨[], (List.append_nil _).symm, fun _ => ⟨row, hs, hrow, rfl⟩⟩

theorem quiet_hook : Quiet noTag hook := by
  have hkind : Quiet noTag hookKind := by
    refine quiet_advance.bind fun t => quiet_option (by decide) quiet_pure ?_
    exact quiet_option (by decide) quiet_pure quiet_fail
  refine quiet_current fun t => ?_
  exact (hkind.mono fun s h => h.1).bind fun _ => quiet_block.give

theorem tells_scenario (hs : noTag s) : Tells (fun sc => Span (.scenario sc)) scenario s := by
  refine (quiet_advance.tells hs).bind fun t s₁ => ?_
  refine (quiet_title.tells (P := anywhere) trivial).bind fun n s₂ => ?_
  refine (tells_tags s₂).bind fun names s₃ => ?_
  refine (quiet_block.tells (P := anywhere) trivial).bind fun body s₄ => tells_pure ?_
  intro back hb row hr name hn keyword hk
  rw [List.append_nil, ← List.append_assoc]
  exact .scenario (hk.append hn) hr hb

theorem quiet_useNames : ∀ n, Quiet anywhere (useNames n)
  | 0 => quiet_pure
  | n + 1 => by
    have hattempt : Quiet anywhere (attempt (name "a page name after USE")) :=
      quiet_of_yields fun s₀ =>
        (yields_attempt (steady_name.quiet.yields s₀)).mono fun _ _ => trivial
    refine quiet_current fun t => (hattempt.mono fun _ _ => trivial).bind fun x => ?_
    cases x with
    | error e => exact quiet_pure
    | ok n => exact quiet_option (by decide) (quiet_useNames _).give quiet_pure

theorem tells_useMember (hs : noTag s) : Tells Span useMember s := by
  rw [useMember_eq]
  refine (quiet_advance.tells hs).bind fun t s₁ => ?_
  refine ((quiet_useNames _).tells trivial).bind (p := useNames (s₁.ahead.length + 1)) ?_
  rintro ⟨us, _ | e⟩ s₂
  · refine tells_pure fun names hn keyword hk => ?_
    rw [List.append_nil]
    exact .uses (hk.append hn)
  · exact (Went.refl trivial : Went (fun _ => True) s₂ s₂).noted rfl

theorem tells_featureMember (s : State) : Tells Span featureMember s := by
  rw [featureMember_eq]
  show Tells Span (featureMemberAt s.current.kind) s
  have hhook : noTag s → Tells Span (hook >>= fun h => pure (.hook h)) s := by
    refine fun hs => (quiet_hook.tells hs).bind fun h s₁ => tells_pure fun ts ht => ?_
    rw [List.append_nil]
    exact .hook ht
  unfold featureMemberAt
  split
  · refine (tells_tags s).bind fun names s₁ => tells_pure fun row hr => ?_
    rw [List.append_nil]
    exact .tags hr
  · next hk => exact hhook (by rw [noTag, hk]; decide)
  · next hk => exact hhook (by rw [noTag, hk]; decide)
  · next hk =>
    refine (tells_scenario (by rw [noTag, hk]; decide)).bind fun sc s₁ => tells_pure fun ts ht => ?_
    rwa [List.append_nil]
  · exact tells_fail

theorem tells_recoveringFeatureMember (s : State) : Tells Span recoveringFeatureMember s := by
  show Tells Span (if startsWith (.keyword .use) s.ahead = true then useMember else _) s
  split
  · next hk => exact tells_useMember (noTag_of_startsWith (by decide) hk)
  · refine (tells_recovering (tells_featureMember s)).bind fun found s₁ => tells_pure ?_
    rintro ts ⟨m, rfl, hm⟩
    rwa [List.append_nil]

/-! ## Features -/

/-- The tokens of members, and those that close the block. -/
def Spans (members : List FeatureMember) (ts : List Token) : Prop :=
  ∃ spans close, List.Forall₂ Span members spans ∧ Untagged close ∧ ts = spans.flatten ++ close

theorem exists_atBlockEnd (s : State) : ∃ b, atBlockEnd s = .ok b s := by
  obtain ⟨ts, _⟩ := s
  cases ts with
  | nil => exact ⟨true, rfl⟩
  | cons t ts => exact ⟨t.kind.startsDeclaration, rfl⟩

theorem tells_memberRound {block : String} {opening : Token} (s : State) :
    Tells (fun x ts => x.elim (Untagged ts) (Span · ts))
      (bracedRound block opening recoveringFeatureMember) s := by
  rw [bracedRound, eat_bind]
  show Tells _ (if startsWith .rbrace s.ahead = true then _ else _) s
  split
  · next hk =>
    refine (quiet_advance.tells (noTag_of_startsWith (by decide) hk)).bind fun _ _ => ?_
    refine tells_pure fun ts ht => ?_
    rwa [List.append_nil]
  · obtain ⟨b, hb⟩ := exists_atBlockEnd s
    refine tells_of_eq (bind_of_ok hb) ?_
    cases b with
    | true =>
      refine (quiet_reportUnclosed.tells (P := anywhere) trivial).bind fun _ _ => ?_
      refine tells_pure fun ts ht => ?_
      rwa [List.append_nil]
    | false =>
      refine (tells_recoveringFeatureMember s).bind fun m _ => tells_pure fun ts ht => ?_
      rwa [List.append_nil]

theorem tells_rounds {p : Parser (Option FeatureMember)}
    (h : ∀ s, Tells (fun x ts => x.elim (Untagged ts) (Span · ts)) p s) :
    ∀ n s, Tells Spans (rounds p n) s
  | 0, s => tells_pure ⟨[], [], .nil, untagged_nil, rfl⟩
  | n + 1, s => by
    refine (h s).bind fun x s₁ => ?_
    cases x with
    | none => exact tells_pure fun close hc => ⟨[], close, .nil, hc, by simp⟩
    | some m =>
      refine (tells_rounds h n s₁).bind fun members s₂ => tells_pure ?_
      rintro _ ⟨spans, close, hspans, hc, rfl⟩ ts ht
      exact ⟨ts :: spans, close, .cons ht hspans, hc, by simp⟩

theorem tells_members {block : String} {opening : Token} (s : State) :
    Tells Spans (many (bracedRound block opening recoveringFeatureMember)) s :=
  tells_rounds tells_memberRound (s.ahead.length + 1) s

/-- A feature that is read without a fault: what opens it, and its members. -/
def Composed (f : Feature) (members : List FeatureMember) (ts : List Token) : Prop :=
  f.scenarios = FeatureMember.scenarios [] members ∧
    ∃ opening body, ts = opening ++ body ∧ tagValues opening = f.tags ∧ Spans members body

theorem tells_feature (hs : noTag s) :
    Tells (fun f ts => ∃ members, Composed f members ts) feature s := by
  refine (quiet_advance.tells hs).bind fun t s₁ => ?_
  refine (quiet_title.tells (P := anywhere) trivial).bind fun n s₂ => ?_
  refine (tells_tags s₂).bind fun names s₃ => ?_
  rw [braced_eq, bind_assoc]
  refine ((steady_expect (by decide)).quiet.tells (P := anywhere) trivial).bind fun opening s₄ => ?_
  refine (tells_members s₄).bind fun members s₅ => tells_pure ?_
  intro body hbody brace hbrace row hrow name hname keyword hkeyword
  refine ⟨members, rfl, keyword ++ (name ++ (row ++ brace)), body, by simp, ?_, hbody⟩
  simp [hkeyword.tagValues_eq, hname.tagValues_eq, hrow.tagValues_eq, hbrace.tagValues_eq]

theorem feature_of_declaration (h : declaration s = .ok (.feature f) s') :
    s.current.kind = .keyword .feature ∧ feature s = .ok f s' := by
  rw [declaration_eq, current_bind] at h
  generalize hk : s.current.kind = kind at h
  unfold declarationAt at h
  split at h
  · obtain ⟨_, _, _, ⟨⟩⟩ := parser_bind_eq_ok.1 h
  · obtain ⟨_, _, _, ⟨⟩⟩ := parser_bind_eq_ok.1 h
  · obtain ⟨f', s₁, hf, ⟨⟩⟩ := parser_bind_eq_ok.1 h
    exact ⟨rfl, hf⟩
  · cases h

/-! ## Rows that wait -/

namespace FeatureMember

/-- The members up to the last scenario, and those behind it. -/
theorem exists_split (members : List FeatureMember) : ∃ front back, members = front ++ back ∧
    (front = [] ∨ ∃ before sc, front = before ++ [.scenario sc]) ∧
    ∀ m ∈ back, m.isScenario = false := by
  induction members with
  | nil => exact ⟨[], [], rfl, .inl rfl, by simp⟩
  | cons m members ih =>
    obtain ⟨front, back, rfl, hfront, hback⟩ := ih
    rcases hfront with rfl | ⟨before, sc, rfl⟩
    · cases hm : m.isScenario with
      | false => exact ⟨[], m :: back, rfl, .inl rfl, by simpa [hm] using hback⟩
      | true =>
        cases m with
        | scenario sc => exact ⟨[.scenario sc], back, rfl, .inr ⟨[], sc, rfl⟩, hback⟩
        | _ => cases hm
    · exact ⟨m :: (before ++ [.scenario sc]), back, rfl, .inr ⟨m :: before, sc, rfl⟩, hback⟩

theorem scenarios_of_none (h : ∀ m ∈ members, m.isScenario = false) (pending : List String) :
    scenarios pending members = [] := by
  fun_induction scenarios pending members with
  | case1 => rfl
  | case3 pending sc rest => exact absurd (h _ List.mem_cons_self) (by simp [isScenario])
  | case2 _ _ _ ih | case4 _ _ _ ih | case5 _ _ _ ih | case6 _ _ _ ih =>
    exact ih fun m hm => h m (List.mem_cons_of_mem _ hm)

/-- Up to the last scenario no tag is lost. -/
theorem flatMap_tags_scenarios (sc : Scenario) {before back : List FeatureMember}
    (hbefore : ∀ m ∈ before, ∀ us, m ≠ .faulty us) (hback : ∀ m ∈ back, m.isScenario = false)
    (pending : List String) :
    (scenarios pending (before ++ .scenario sc :: back)).flatMap Scenario.tags =
      pending ++ (before ++ [scenario sc]).flatMap tagNames := by
  induction before generalizing pending with
  | nil => simp [scenarios, scenarios_of_none hback, tagNames]
  | cons m before ih =>
    rw [List.forall_mem_cons] at hbefore
    cases m with
    | faulty us => exact absurd rfl (hbefore.1 us)
    | tags names => simp [scenarios, ih hbefore.2, tagNames]
    | scenario s => simp [scenarios, ih hbefore.2, tagNames]
    | uses _ => simp [scenarios, ih hbefore.2, tagNames]
    | hook _ => simp [scenarios, ih hbefore.2, tagNames]

end FeatureMember

theorem Spans.tagValues_eq (h : Spans members ts) :
    tagValues ts = members.flatMap FeatureMember.tagNames := by
  obtain ⟨spans, close, hspans, hc, rfl⟩ := h
  rw [tagValues_append, hc.tagValues_eq, List.append_nil]
  induction hspans with
  | nil => rfl
  | cons h _ ih => rw [List.flatten_cons, tagValues_append, h.tagValues_eq, ih, List.flatMap_cons]

theorem Spans.not_faulty (h : Spans members ts) : ∀ m ∈ members, ∀ us, m ≠ .faulty us := by
  obtain ⟨spans, close, hspans, -, -⟩ := h
  rintro m hm us rfl
  obtain ⟨ts, hts⟩ : ∃ ts, Span (.faulty us) ts := by
    induction hspans with
    | nil => cases hm
    | cons h _ ih =>
      rcases List.mem_cons.1 hm with rfl | hm
      · exact ⟨_, h⟩
      · exact ih hm
  cases hts

/-- The tags of a feature, of its scenarios, and of the members behind the last one. -/
theorem Composed.tagValues_eq {front back : List FeatureMember} (h : Composed f (front ++ back) ts)
    (hfront : front = [] ∨ ∃ before sc, front = before ++ [.scenario sc])
    (hback : ∀ m ∈ back, m.isScenario = false) :
    tagValues ts = f.tags ++ f.scenarios.flatMap Scenario.tags ++
      back.flatMap FeatureMember.tagNames := by
  obtain ⟨hscenarios, opening, body, rfl, hopening, hbody⟩ := h
  have hkept : f.scenarios.flatMap Scenario.tags = front.flatMap FeatureMember.tagNames := by
    rw [hscenarios]
    rcases hfront with rfl | ⟨before, sc, rfl⟩
    · rw [List.nil_append, FeatureMember.scenarios_of_none hback]
      rfl
    · have hbefore : ∀ m ∈ before, ∀ us, m ≠ .faulty us :=
        fun m hm => hbody.not_faulty m (by simp [hm])
      have h := FeatureMember.flatMap_tags_scenarios sc hbefore hback []
      simpa using h
  rw [tagValues_append, hopening, hbody.tagValues_eq, List.flatMap_append, hkept, List.append_assoc]

/-- The feature that is read from `s` without a fault, and the place behind it. -/
def cleanFeature? (s : State) : Option (Feature × State) :=
  match recoveringDeclaration s with
  | .ok (some (.feature f)) s' => if s'.errors = s.errors then some (f, s') else none
  | _ => none

theorem cleanFeature?_eq_some : cleanFeature? s = some (f, s') ↔
    recoveringDeclaration s = .ok (some (.feature f)) s' ∧ s'.errors = s.errors := by
  unfold cleanFeature?
  constructor
  · intro h
    split at h
    · split at h
      · next hr hc =>
        cases h
        exact ⟨hr, hc⟩
      · cases h
    · cases h
  · rintro ⟨hr, hc⟩
    rw [hr]
    exact if_pos hc

theorem feature_of_recoveringDeclaration
    (h : recoveringDeclaration s = .ok (some (.feature f)) s') :
    noTag s ∧ feature { s with unclosedReported := false } = .ok f s' := by
  replace h : (attempt declaration >>= _) { s with unclosedReported := false } = _ := h
  obtain ⟨x, s₁, hx, h⟩ := parser_bind_eq_ok.1 h
  rw [attempt_eq] at hx
  cases hd : declaration { s with unclosedReported := false } with
  | error e s₂ =>
    rw [hd] at hx
    cases hx
    cases h
  | ok d s₂ =>
    rw [hd] at hx
    cases hx
    cases h
    obtain ⟨hk, hf⟩ := feature_of_declaration hd
    have hs : s.current.kind = .keyword .feature := hk
    exact ⟨by rw [noTag, hs]; decide, hf⟩

/-- **Tags of a feature.** Where a feature is read without a fault, the tags among its tokens are
those of the feature, those of its scenarios, and those in rows behind the last scenario, in this
order. So all of them are kept just if there are no such rows. -/
theorem feature_tags {s s' : State} {f : Feature} (h : cleanFeature? s = some (f, s')) :
    ∃ read front back, s.ahead = read ++ s'.ahead ∧ Composed f (front ++ back) read ∧
      (front = [] ∨ ∃ before sc, front = before ++ [.scenario sc]) ∧
      (∀ m ∈ back, m.isScenario = false) ∧
      tagValues read = f.tags ++ f.scenarios.flatMap Scenario.tags ++
        back.flatMap FeatureMember.tagNames ∧
      (tagValues read = f.tags ++ f.scenarios.flatMap Scenario.tags ↔
        back.flatMap FeatureMember.tagNames = []) := by
  obtain ⟨hr, hc⟩ := cleanFeature?_eq_some.1 h
  obtain ⟨hs, hf⟩ := feature_of_recoveringDeclaration hr
  have htells := tells_feature (s := { s with unclosedReported := false }) hs
  unfold Tells at htells
  rw [hf] at htells
  obtain ⟨read, hread, members, hmembers⟩ := htells.of_clean hc
  obtain ⟨front, back, rfl, hfront, hback⟩ := FeatureMember.exists_split members
  have hvalues := hmembers.tagValues_eq hfront hback
  refine ⟨read, front, back, hread, hmembers, hfront, hback, hvalues, ?_⟩
  rw [hvalues, List.append_right_eq_self]

/-- A feature with a tag on its only scenario and a row of tags behind it. -/
def lateTag : State :=
  .ofTokens (tokenize "FEATURE F \x7b SCENARIO \"s\" @smoke \x7b REFRESH \x7d @late \x7d").tokens

/-- The tag `late` is among the tokens and is not kept. -/
theorem feature_tags_late : ∃ f s', cleanFeature? lateTag = some (f, s') ∧
    f.tags ++ f.scenarios.flatMap Scenario.tags = ["smoke"] ∧
    ∃ read, lateTag.ahead = read ++ s'.ahead ∧ tagValues read = ["smoke", "late"] ∧
      tagValues read ≠ f.tags ++ f.scenarios.flatMap Scenario.tags := by
  have hrun : (cleanFeature? lateTag).map (fun x =>
      (x.1.tags ++ x.1.scenarios.flatMap Scenario.tags, x.2.ahead, tagValues lateTag.ahead)) =
    some (["smoke"], [], ["smoke", "late"]) := by
    decide +kernel
  obtain ⟨⟨f, s'⟩, hf, hx⟩ := Option.map_eq_some_iff.1 hrun
  obtain ⟨hkept, hx⟩ := Prod.mk.inj hx
  obtain ⟨hahead, hvalues⟩ := Prod.mk.inj hx
  obtain ⟨read, -, -, hread, -⟩ := feature_tags hf
  have hall : read = lateTag.ahead := by rw [hread, hahead, List.append_nil]
  refine ⟨f, s', hf, hkept, read, hread, hall ▸ hvalues, ?_⟩
  rw [hall, hvalues, hkept]
  decide

end Grammar

end UiScenario
