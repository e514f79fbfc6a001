import UiScenario.Compile
import UiScenario.Proofs.Resolution
import UiScenario.Proofs.Spelling

/-!
What validity is worth. Generating code for a valid program can fail in two ways only: a test treats
a library that its feature uses as a page, or an action of the project around the program names
something that is not there. The actions of the program itself never fail.
-/

namespace UiScenario

/-! ## Tests of a request -/

def Request.Selects (r : Request) (f : Feature) (s : Scenario) : Prop :=
  s ∈ f.scenarios ∧ ∀ selection, r.selection = some selection → selection.matches_ f s = true

/-- The names that the tests of a scenario bind, test by test. -/
def Request.boundNames (r : Request) : List (List String) :=
  if r.combinations = [] then [[]] else r.combinations.map (·.names)

/-- A body is written for a feature, where the names of `scope` are bound in front of it: that of a
    selected scenario, or that of a hook if a scenario is selected. -/
def Request.Tests (r : Request) (f : Feature) (scope : List String) (body : List Statement) :
    Prop :=
  ∃ s, r.Selects f s ∧
    (scope ∈ r.boundNames ∧ body = s.body ∨ scope = [] ∧ ∃ h ∈ f.hooks, body = h.body)

namespace Generate

theorem values_labelsFrom (used : List String) (number : Nat) (cs : List Combination) :
    (labelsFrom used number cs).map (·.1) = cs := by
  induction cs generalizing used number with
  | nil => rfl
  | cons c rest ih => simp [labelsFrom, ih]

theorem names_variants (r : Request) :
    (variants r.combinations).map (·.2.map (·.1)) = r.boundNames := by
  unfold variants Request.boundNames
  by_cases h : r.combinations = []
  · simp [h]
  · have hv : (labelsFrom [] 1 r.combinations).map (fun x => x.1.names) =
        r.combinations.map (·.names) := by
      rw [← congrArg (List.map Combination.names) (values_labelsFrom [] 1 r.combinations)]
      simp
    simpa [h, Function.comp_def, Combination.names] using hv

theorem forall_selectedScenarios {r : Request} {features : List Feature} {P : Feature → Prop}
    {Q : Feature → Scenario → Prop} :
    (∀ x ∈ selectedScenarios r.selection features, P x.1 ∧ ∀ s ∈ x.2, Q x.1 s) ↔
      ∀ f ∈ features, ∀ s, r.Selects f s → P f ∧ Q f s := by
  have hs : ∀ f s, s ∈ f.scenarios.filter (fun s => r.selection.all (·.matches_ f s)) ↔
      r.Selects f s := by
    intro f s
    rw [List.mem_filter, Request.Selects]
    cases r.selection <;> simp
  simp only [selectedScenarios, List.mem_filter, List.mem_map, Bool.not_eq_true',
    List.isEmpty_eq_false_iff]
  constructor
  · intro h f hf s hsel
    have hm := (hs f s).2 hsel
    have := h (f, _) ⟨⟨f, hf, rfl⟩, List.ne_nil_of_mem hm⟩
    exact ⟨this.1, this.2 s hm⟩
  · rintro h _ ⟨⟨f, hf, rfl⟩, hne⟩
    obtain ⟨s, hm⟩ := List.exists_mem_of_ne_nil _ hne
    exact ⟨(h f hf s ((hs f s).1 hm)).1, fun s hm => (h f hf s ((hs f s).1 hm)).2⟩

/-- Code is generated for a program if all bodies that are written are resolved. -/
theorem succeeds_generate_iff {context : Project} {r : Request} {p : Program} :
    Succeeds (generate context r p) ↔
      (∀ page ∈ neededPages (context.extend p) p, ∀ a ∈ page.actions,
        ResolvedBody (context.extend p) a.parameters a.body) ∧
      (∀ l ∈ neededLibraries (context.extend p) p, ∀ a ∈ l.actions,
        ResolvedBody (context.extend p) a.parameters a.body) ∧
      ∀ f ∈ p.features, ∀ scope body, r.Tests f scope body →
        ResolvedBody (context.extend p) scope body := by
  rw [succeeds_generate, forall_selectedScenarios (r := r)
    (P := fun f => ∀ h ∈ f.hooks, ResolvedBody (context.extend p) [] h.body)
    (Q := fun _ s => ∀ v ∈ variants r.combinations,
      ResolvedBody (context.extend p) (v.2.map (·.1)) s.body)]
  have hv : ∀ body, (∀ v ∈ variants r.combinations,
      ResolvedBody (context.extend p) (v.2.map (·.1)) body) ↔
      ∀ scope ∈ r.boundNames, ResolvedBody (context.extend p) scope body := by
    intro body
    rw [← names_variants, List.forall_mem_map]
  simp only [hv]
  refine and_congr_right fun _ => and_congr_right fun _ => ?_
  constructor
  · rintro h f hf scope body ⟨s, hs, ⟨hb, rfl⟩ | ⟨rfl, k, hk, rfl⟩⟩
    · exact (h f hf s hs).2 scope hb
    · exact (h f hf s hs).1 k hk
  · intro h f hf s hs
    exact ⟨fun k hk => h f hf [] k.body ⟨s, hs, .inr ⟨rfl, k, hk, rfl⟩⟩,
      fun scope hb => h f hf scope s.body ⟨s, hs, .inl ⟨hb, rfl⟩⟩⟩

end Generate

/-! ## Bodies of valid programs -/

section
variable {all : Project} {body : List Statement} {N B : String → Prop}

/-- A performed action that is proper and whose owner is there can be performed. -/
theorem performable_of_callable {at_ : Place} {owner action : String} {count : Nat}
    (h : Callable all at_ owner action count)
    (hd : at_.Reaches all owner → owner ∈ all.definedNames) :
    Performable all owner action count := by
  rcases h with h | ⟨hl, hr, hp⟩
  · exact .inl h
  · have hm : owner ∈ all.pages.map (·.name) :=
      (List.mem_append.1 (hd hr)).resolve_right hl
    obtain ⟨p, hlast⟩ : ∃ p, IsLast (·.name = owner) all.pages p := by
      rw [← findLast?_name_isSome_iff, Option.isSome_iff_exists] at hm
      exact hm.imp fun p hp => findLast?_name_eq_some_iff.1 hp
    exact .inr ⟨hl, p, hlast, hp p hlast⟩

theorem Target.resolved_iff {scope : List String} {t : Target} (ht : t.Plain) :
    t.Resolved all scope ↔
      ∀ q f, t = .element (some q) f → q ∈ scope ∨ q ∈ all.pages.map (·.name) := by
  match t with
  | .element (some q) f => simp [Target.Resolved]
  | .element none _ | .selector _ => simp [Target.Resolved]
  | .unset => exact ht.elim

theorem resolvedBody_of_proper {defaultPage : Option String} {scope : List String}
    (h : PlacedBody.Proper all ⟨.action defaultPage, scope, body⟩) (hs : BodySpelled N B body)
    (hd : ∀ q, defaultPage = some q → q ∈ all.pages.map (·.name)) :
    ResolvedBody all scope body := by
  have hr : ∀ q, (Place.action defaultPage).Reaches all q → q ∈ all.pages.map (·.name) := by
    rintro q (hq | hq)
    · exact hq
    · exact hd q hq
  intro front s behind e
  have hp := h front s behind e
  have hm : s ∈ Statement.flattenAll body := by simp [e]
  refine ⟨fun t ht => ?_, fun line owner action arguments hc => ?_⟩
  · refine (Target.resolved_iff ((hs s hm).targets t ht)).2 ?_
    rintro q f rfl
    exact (hp.targets q f (Statement.mem_targets_iff.1 ht)).imp_right (hr q)
  · exact performable_of_callable (hp.calls line owner action arguments hc) fun h =>
      List.mem_append_left _ (hr owner h)

/-- A statement acts on an element of something that is in use, as if it were a page, though it is a
    library and no page. -/
def TargetsLibrary (all : Project) (uses scope : List String) (body : List Statement) : Prop :=
  ∃ front s behind q field, Statement.flattenAll body = front ++ s :: behind ∧
    .element (some q) field ∈ s.targets ∧ q ∉ scope ++ front.filterMap Statement.binds? ∧
    q ∈ uses ∧ q ∈ all.libraries.map (·.name) ∧ q ∉ all.pages.map (·.name)

/-- The body of a hook or test is resolved if it is proper, unless it treats a library as a page.
    Its test may bind names in front of it. -/
theorem not_resolvedBody_iff_of_proper {uses scope : List String}
    (h : PlacedBody.Proper all ⟨.feature uses, [], body⟩) (hs : BodySpelled N B body)
    (hu : ∀ q ∈ uses, q ∈ all.definedNames) :
    ¬ResolvedBody all scope body ↔ TargetsLibrary all uses scope body := by
  constructor
  · intro hn
    simp only [ResolvedBody, Classical.not_forall] at hn
    obtain ⟨front, s, behind, e, hn⟩ := hn
    have hp := h front s behind e
    have hm : s ∈ Statement.flattenAll body := by simp [e]
    have hcalls : ∀ line owner action arguments,
        s = .step line (.perform owner action arguments) →
        Performable all owner action arguments.length := fun line owner action arguments hc =>
      performable_of_callable (hp.calls line owner action arguments hc) (hu owner)
    -- so it is an element that is not there
    have ht : ∃ t ∈ s.targets,
        ¬t.Resolved all (scope ++ front.filterMap Statement.binds?) := by
      refine Classical.byContradiction fun hne => hn ⟨fun t ht => ?_, hcalls⟩
      exact Classical.byContradiction fun hr => hne ⟨t, ht, hr⟩
    obtain ⟨t, ht, hr⟩ := ht
    rw [Target.resolved_iff ((hs s hm).targets t ht)] at hr
    simp only [Classical.not_forall, not_or] at hr
    obtain ⟨q, field, rfl, hscope, hpage⟩ := hr
    have hq : q ∈ uses := (hp.targets q field (Statement.mem_targets_iff.1 ht)).resolve_left
      fun hq => hscope (List.mem_append_right _ (by simpa using hq))
    exact ⟨front, s, behind, q, field, e, ht, hscope, hq,
      (List.mem_append.1 (hu q hq)).resolve_left hpage, hpage⟩
  · rintro ⟨front, s, behind, q, field, e, ht, hscope, -, -, hpage⟩ hr
    rcases (hr front s behind e).targets _ ht with hq | hq
    · exact hscope hq
    · exact hpage hq

end

/-! ## Compiling -/

/-- A test of a feature treats a library that the feature uses as a page. -/
def LibraryAsPage (context : Project) (r : Request) (p : Program) : Prop :=
  ∃ f ∈ p.features, ∃ scope body, r.Tests f scope body ∧
    TargetsLibrary (context.extend p) (f.uses.map (·.name)) scope body

/-- A page or library of the project, which is needed for a program, has an action that names
    something that is not there. -/
def UnresolvedContext (context : Project) (p : Program) : Prop :=
  (∃ page ∈ context.pages, page ∈ Generate.neededPages (context.extend p) p ∧
    ∃ a ∈ page.actions, ¬ResolvedBody (context.extend p) a.parameters a.body) ∨
  ∃ l ∈ context.libraries, l ∈ Generate.neededLibraries (context.extend p) p ∧
    ∃ a ∈ l.actions, ¬ResolvedBody (context.extend p) a.parameters a.body

theorem compile_eq_error {context : Project} {r : Request} {source : String}
    {v : Generate.Violation} :
    compile context r source = .error v ↔ ∃ p, parseSource source = .ok ⟨p, []⟩ ∧
      WellFormed context p ∧ generate context r p = .error v := by
  simp only [← Validation.noErrors_validate, ← Validation.valid_iff_noErrors]
  unfold compile analyze
  cases hs : parseSource source with
  | error errors => simp
  | ok parsing =>
    obtain ⟨p, errors⟩ := parsing
    cases errors with
    | cons e es => simp
    | nil =>
      cases hv : (Report.ofProblems (validate context p)).valid with
      | false => simp [hv]
      | true =>
        cases hg : generate context r p <;> simp [hv, hg, bind, Except.bind, pure, Except.pure]

theorem mem_of_mem_neededPages {all : Project} {p : Program} {page : Page}
    (h : page ∈ Generate.neededPages all p) : page ∈ all.pages := by
  obtain ⟨n, -, hn⟩ := List.mem_filterMap.1 h
  obtain ⟨front, behind, e, -⟩ := findLast?_eq_some_iff.1 hn
  simp [e]

theorem mem_of_mem_neededLibraries {all : Project} {p : Program} {l : Library}
    (h : l ∈ Generate.neededLibraries all p) : l ∈ all.libraries := by
  obtain ⟨n, -, hn⟩ := List.mem_filterMap.1 h
  obtain ⟨front, behind, e, -⟩ := findLast?_eq_some_iff.1 hn
  simp [e]

section
variable {context : Project} {p : Program} {N B : String → Prop} (hs : p.Spelled N B)
  (hw : WellFormed context p)
include hs hw

theorem resolvedBody_of_mem_pages {page : Page} (hp : page ∈ p.pages) :
    ∀ a ∈ page.actions, ResolvedBody (context.extend p) a.parameters a.body := by
  intro a ha
  have hb : (⟨.action (some page.name), a.parameters, a.body⟩ : PlacedBody) ∈ p.placedBodies := by
    refine List.mem_append_left _ (List.mem_append_left _ (List.mem_flatMap.2 ⟨page, hp, ?_⟩))
    exact List.mem_map.2 ⟨a, ha, rfl⟩
  refine resolvedBody_of_proper (hw.bodies _ hb) ((hs.pages page hp).2 a ha).body ?_
  rintro _ ⟨⟩
  exact List.mem_map.2 ⟨page, List.mem_append_right _ hp, rfl⟩

theorem resolvedBody_of_mem_libraries {l : Library} (hl : l ∈ p.libraries) :
    ∀ a ∈ l.actions, ResolvedBody (context.extend p) a.parameters a.body := by
  intro a ha
  have hb : (⟨.action l.forPage, a.parameters, a.body⟩ : PlacedBody) ∈ p.placedBodies := by
    refine List.mem_append_left _ (List.mem_append_right _ (List.mem_flatMap.2 ⟨l, hl, ?_⟩))
    exact List.mem_map.2 ⟨a, ha, rfl⟩
  exact resolvedBody_of_proper (hw.bodies _ hb) ((hs.libraries l hl).2 a ha).body
    (hw.libraryPages l hl)

/-- The hooks and tests of a well-formed program are resolved unless they treat a library as a page.
-/
theorem not_resolvedBody_iff_of_tests {r : Request} {f : Feature} (hf : f ∈ p.features)
    {scope : List String} {body : List Statement} (ht : r.Tests f scope body) :
    ¬ResolvedBody (context.extend p) scope body ↔
      TargetsLibrary (context.extend p) (f.uses.map (·.name)) scope body := by
  have hbody : body ∈ f.hooks.map (·.body) ++ f.scenarios.map (·.body) ∧ BodySpelled N B body := by
    obtain ⟨s, ⟨hm, -⟩, ⟨-, rfl⟩ | ⟨-, k, hk, rfl⟩⟩ := ht
    · exact ⟨List.mem_append_right _ (List.mem_map.2 ⟨s, hm, rfl⟩), hs.scenarios f hf s hm⟩
    · exact ⟨List.mem_append_left _ (List.mem_map.2 ⟨k, hk, rfl⟩), hs.hooks f hf k hk⟩
  have hb : (⟨.feature (f.uses.map (·.name)), [], body⟩ : PlacedBody) ∈ p.placedBodies :=
    List.mem_append_right _ (List.mem_flatMap.2 ⟨f, hf, List.mem_map.2 ⟨body, hbody.1, rfl⟩⟩)
  refine not_resolvedBody_iff_of_proper (hw.bodies _ hb) hbody.2 fun q hq => ?_
  obtain ⟨u, hu, rfl⟩ := List.mem_map.1 hq
  exact hw.uses f hf u hu

theorem not_succeeds_generate_iff {r : Request} :
    ¬Succeeds (generate context r p) ↔ LibraryAsPage context r p ∨ UnresolvedContext context p := by
  rw [Generate.succeeds_generate_iff]
  constructor
  · intro hn
    refine Classical.byContradiction fun hne => hn ⟨?_, ?_, ?_⟩
    · intro page hp a ha
      rcases List.mem_append.1 (mem_of_mem_neededPages hp) with hc | hc
      · refine Classical.byContradiction fun hr => hne (.inr (.inl ?_))
        exact ⟨page, hc, hp, a, ha, hr⟩
      · exact resolvedBody_of_mem_pages hs hw hc a ha
    · intro l hl a ha
      rcases List.mem_append.1 (mem_of_mem_neededLibraries hl) with hc | hc
      · refine Classical.byContradiction fun hr => hne (.inr (.inr ?_))
        exact ⟨l, hc, hl, a, ha, hr⟩
      · exact resolvedBody_of_mem_libraries hs hw hc a ha
    · intro f hf scope body ht
      refine Classical.byContradiction fun hr => hne (.inl ?_)
      exact ⟨f, hf, scope, body, ht, (not_resolvedBody_iff_of_tests hs hw hf ht).1 hr⟩
  · rintro (⟨f, hf, scope, body, ht, hl⟩ | ⟨page, -, hp, a, ha, hr⟩ | ⟨l, -, hl, a, ha, hr⟩)
      ⟨h₁, h₂, h₃⟩
    · exact (not_resolvedBody_iff_of_tests hs hw hf ht).2 hl (h₃ f hf scope body ht)
    · exact hr (h₁ page hp a ha)
    · exact hr (h₂ l hl a ha)

end

theorem eq_parseText_of_parseSource {source : String} {parsing : Parsing}
    (h : parseSource source = .ok parsing) : parsing = parseText source := by
  unfold parseSource at h
  dsimp only at h
  split at h
  · cases h; rfl
  · cases h

/-- **Validity and code**: compiling a script fails with a violation exactly if the script is
    without faults and valid, and a test of it treats a library as a page or a needed action of the
    project around it names something that is not there. -/
theorem compile_eq_error_iff (context : Project) (r : Request) (source : String) :
    (∃ v, compile context r source = .error v) ↔
      ∃ p, parseSource source = .ok ⟨p, []⟩ ∧ WellFormed context p ∧
        (LibraryAsPage context r p ∨ UnresolvedContext context p) := by
  simp only [compile_eq_error]
  constructor
  · rintro ⟨v, p, hp, hw, hg⟩
    have hs : p.Spelled _ _ := eq_parseText_of_parseSource hp ▸ spelled_parseText source
    exact ⟨p, hp, hw, (not_succeeds_generate_iff hs hw).1 (not_succeeds_iff.2 ⟨v, hg⟩)⟩
  · rintro ⟨p, hp, hw, h⟩
    have hs : p.Spelled _ _ := eq_parseText_of_parseSource hp ▸ spelled_parseText source
    obtain ⟨v, hg⟩ := not_succeeds_iff.1 ((not_succeeds_generate_iff hs hw).2 h)
    exact ⟨v, p, hp, hw, hg⟩

-- a test that clicks on an element of the library `Flows`
example : (compile .empty ⟨none, []⟩
    "PAGEACTIONS Flows \x7b go \x7b REFRESH \x7d \x7d
    FEATURE Checkout \x7b USE Flows SCENARIO \"pays\" \x7b CLICK Flows.button \x7d \x7d").isOk =
    false := by
  decide +kernel

-- an action of the project that names a page which is not there
example : (compile (parseProject ["PAGE Login \x7b go \x7b CLICK Missing.field \x7d \x7d"])
    ⟨none, []⟩ "FEATURE Checkout \x7b USE Login SCENARIO \"pays\" \x7b REFRESH \x7d \x7d").isOk =
    false := by
  decide +kernel

end UiScenario
