import UiScenario.Proofs.Contract
import UiScenario.Proofs.Walk

/-!
Which violations there are. Generating the code of a body fails at a statement that it comes to, and
there at an element or at an action that is performed; of a valid program without a project around
it, that can only be an element of a library.
-/

namespace UiScenario

section
variable {ε α β : Type} {f : α → Except ε β} {xs : List α} {e : ε}

theorem bind_eq_error {x : Except ε α} :
    x >>= f = .error e ↔ x = .error e ∨ ∃ a, x = .ok a ∧ f a = .error e := by
  cases x <;> simp [bind, Except.bind]

theorem exists_of_mapM_eq_error (h : xs.mapM f = .error e) : ∃ x ∈ xs, f x = .error e := by
  induction xs with
  | nil => cases h
  | cons x xs ih =>
    rw [List.mapM_cons, bind_eq_error] at h
    rcases h with h | ⟨y, -, h⟩
    · exact ⟨x, List.mem_cons_self .., h⟩
    · rcases bind_eq_error.1 h with h | ⟨ys, -, h⟩
      · obtain ⟨x', hm, hx⟩ := ih h
        exact ⟨x', List.mem_cons_of_mem x hm, hx⟩
      · cases h

theorem exists_of_mem_forall₂ {r : α → β → Prop} {ys : List β} (h : List.Forall₂ r xs ys) {y : β}
    (hy : y ∈ ys) : ∃ x ∈ xs, r x y := by
  induction h with
  | nil => cases hy
  | @cons a b xs ys hr _ ih =>
    rcases List.mem_cons.1 hy with rfl | hy
    · exact ⟨a, List.mem_cons_self .., hr⟩
    · obtain ⟨x, hx, hxy⟩ := ih hy
      exact ⟨x, List.mem_cons_of_mem a hx, hxy⟩

end

namespace Generate

/-! ## Where a statement fails -/

section
variable {α β : Type} {b : Setting} {p : Progress} {line : Nat} {v : Violation}

theorem gen_bind_eq_error {x : Gen β} {f : β → Gen α} :
    (x >>= f) p = .error v ↔ x p = .error v ∨ ∃ c q, x p = .ok (c, q) ∧ f c q = .error v := by
  refine bind_eq_error.trans (or_congr_right ?_)
  exact Prod.exists

theorem gen_lift_eq_error {x : Except Violation α} :
    (liftM x : Gen α) p = .error v ↔ x = .error v := by
  refine bind_eq_error.trans ⟨?_, Or.inl⟩
  rintro (h | ⟨_, -, ⟨⟩⟩)
  exact h

/-- An element is not found on a page that is not defined. -/
theorem locator_eq_error {t : Target} (ht : t.Plain) (h : locator b p line t = .error v) :
    ∃ page field, t = .element (some page) field ∧ page ∉ p.scope ∧
      page ∉ b.all.pages.map (·.name) ∧ v = .unknownPage page line := by
  unfold locator at h
  split at h
  · cases h
  · exact ht.elim
  · cases h
  · next q field =>
    split at h
    · cases h
    · next hq =>
      split at h
      · cases h
      · next hpage =>
        cases h
        refine ⟨q, field, rfl, by simpa [Progress.hasVariable] using hq, ?_, rfl⟩
        exact findLast?_name_eq_none_iff.1 hpage

theorem assertion_eq_error {a : Assertion} (h : assertion b p line a = .error v) :
    ∃ t ∈ a.targets, locator b p line t = .error v := by
  cases a with
  | state t _ _ | text t _ _ _ | value t _ _ | attribute_ t _ _ | count t _ =>
    refine ⟨t, List.mem_singleton.2 rfl, ?_⟩
    rcases bind_eq_error.1 h with h | ⟨_, -, h⟩
    · exact h
    · cases h
  | url _ _ | title _ _ => cases h

/-- A step fails at one of its elements or at the action that it performs. -/
theorem step_eq_error {s : Step} (h : step b line s p = .error v) :
    (∃ t ∈ s.targets, locator b p line t = .error v) ∨
      ∃ owner action arguments, s = .perform owner action arguments ∧
        checkAction b.all line owner action arguments.length = .error v := by
  rw [step, gen_bind_eq_error] at h
  rcases h with h | ⟨_, _, hp, h⟩
  · cases h
  obtain ⟨rfl, rfl⟩ := gen_get_eq_ok.1 hp
  cases s with
  | click t | fill t _ | hover t | check t | uncheck t | select _ t | scrollTo t | upload _ t
  | waitFor t | clear t | switchToFrame t =>
    refine .inl ⟨t, List.mem_singleton.2 rfl, ?_⟩
    rcases gen_bind_eq_error.1 h with h | ⟨_, _, -, h⟩
    · exact gen_lift_eq_error.1 h
    · cases h
  | drag t u =>
    rcases gen_bind_eq_error.1 h with h | ⟨_, _, hq, h⟩
    · exact .inl ⟨t, List.mem_cons_self .., gen_lift_eq_error.1 h⟩
    · obtain ⟨-, rfl⟩ := gen_lift_eq_ok.1 hq
      rcases gen_bind_eq_error.1 h with h | ⟨_, _, -, h⟩
      · exact .inl ⟨u, by simp [Step.targets], gen_lift_eq_error.1 h⟩
      · cases h
  | verify a =>
    rcases gen_bind_eq_error.1 h with h | ⟨_, _, -, h⟩
    · exact .inl (assertion_eq_error (gen_lift_eq_error.1 h))
    · cases h
  | perform owner action arguments =>
    rcases gen_bind_eq_error.1 h with h | ⟨_, _, -, h⟩
    · exact .inr ⟨owner, action, arguments, rfl, gen_lift_eq_error.1 h⟩
    · cases h
  | open_ _ | scroll _ | press _ | wait _ _ | refresh | screenshot _ | log _ | switchToTab _
  | switchToNewTab _ | closeTab | switchToMainFrame | acceptDialog _ | dismissDialog
  | clearCookies | clearStorage | declare _ _ _ | query _ => cases h

/-- What is wrong with a statement itself, without the statements inside it: an element is not
    found, or an action cannot be performed. -/
inductive Fails (b : Setting) (x : Progress × Statement) (v : Violation) : Prop
  | target (t : Target) (ht : t ∈ x.2.targets) (h : locator b x.1 x.2.line t = .error v)
  | call (line : Nat) (owner action : String) (arguments : List Expression)
      (hx : x.2 = .step line (.perform owner action arguments))
      (h : checkAction b.all line owner action arguments.length = .error v)

theorem fails_of_step {s : Step} (h : step b line s p = .error v) :
    Fails b (p, .step line s) v := by
  rcases step_eq_error h with ⟨t, ht, h⟩ | ⟨owner, action, arguments, rfl, hc⟩
  · exact .target t ht h
  · exact .call line owner action arguments rfl hc

theorem fails_of_condition {c : Condition} {thenBody elseBody : List Statement}
    (h : condition b p line c = .error v) : Fails b (p, .branch line c thenBody elseBody) v := by
  cases c with
  | state t _ _ =>
    rcases bind_eq_error.1 h with h | ⟨_, -, h⟩
    · exact .target t (List.mem_singleton.2 rfl) h
    · cases h
  | comparison _ _ _ | truthy _ => cases h

end

namespace Walk

section
variable {α β : Type} {w : Walk α} {f : α → Walk β} {p q : Progress} {a : α}
  {x : Progress × Statement} {v : Violation}

theorem mem_log_bind (h : x ∈ (w p).1) : x ∈ ((w >>= f) p).1 :=
  List.mem_append_left _ h

theorem mem_log_bind_of_ok (hw : (w p).2 = .ok (a, q)) (h : x ∈ (f a q).1) :
    x ∈ ((w >>= f) p).1 := by
  refine List.mem_append_right _ ?_
  rw [hw]
  exact h

/-- Two walks fail where the first fails or where the second does. -/
theorem fails_bind {b : Setting} (hr : ((w >>= f) p).2 = .error v)
    (hw : (w p).2 = .error v → ∃ x ∈ (w p).1, Fails b x v)
    (hf : ∀ a q, (w p).2 = .ok (a, q) → (f a q).2 = .error v → ∃ x ∈ (f a q).1, Fails b x v) :
    ∃ x ∈ ((w >>= f) p).1, Fails b x v := by
  rw [result_bind] at hr
  rcases bind_eq_error.1 hr with h | ⟨⟨a, q⟩, h, hr⟩
  · obtain ⟨x, hx, h⟩ := hw h
    exact ⟨x, mem_log_bind hx, h⟩
  · obtain ⟨x, hx, hx'⟩ := hf a q h hr
    exact ⟨x, mem_log_bind_of_ok h hx, hx'⟩

theorem fails_inner {b : Setting} (hr : (inner w p).2 = .error v)
    (hw : (w p).2 = .error v → ∃ x ∈ (w p).1, Fails b x v) :
    ∃ x ∈ (inner w p).1, Fails b x v := by
  refine fails_bind (w := lift get) hr (by rintro ⟨⟩) ?_
  rintro _ _ ⟨⟩ hr
  refine fails_bind hr hw ?_
  rintro _ _ - ⟨⟩

/-- What is behind a statement that is come to fails at the statement or further on. -/
theorem fails_comeTo {b : Setting} {s : Statement} {k : Unit → Walk β}
    (h : Fails b (p, s) v ∨ ∃ x ∈ (k () p).1, Fails b x v) :
    ∃ x ∈ ((comeTo s >>= k) p).1, Fails b x v := by
  rcases h with h | ⟨x, hx, h⟩
  · exact ⟨(p, s), List.mem_cons_self .., h⟩
  · exact ⟨x, List.mem_cons_of_mem _ hx, h⟩

end

mutual

theorem fails_statement (b : Setting) {v : Violation} : ∀ (s : Statement) (depth : Nat)
    {p : Progress}, (statement b depth s p).2 = .error v →
    ∃ x ∈ (statement b depth s p).1, Fails b x v
  | .step line s, _, p, h => by
    rw [statement] at h ⊢
    exact fails_comeTo (.inl (fails_of_step h))
  | .branch line c thenBody elseBody, depth, p, h => by
    rw [statement] at h ⊢
    refine fails_comeTo ?_
    cases hc : condition b p line c with
    | error e =>
      have he : (condition b p line c >>= _) >>= _ = Except.error v := h
      rw [hc] at he
      cases he
      exact .inl (fails_of_condition hc)
    | ok test =>
      have hl : ((lift do liftM (condition b (← get) line c) : Walk Code.Expr) p).2 =
          .ok (test, p) := by
        show (condition b p line c >>= _) = _
        rw [hc]
        rfl
      refine .inr (fails_bind h (fun he => by rw [hl] at he; cases he) fun test' q hq h => ?_)
      refine fails_bind h (fun h => fails_inner h (fails_statements b thenBody depth)) ?_
      intro thenCode r _ h
      split at h
      · cases h
      · next he =>
        rw [if_neg he]
        refine fails_bind h (fun h => fails_inner h (fails_statements b elseBody depth)) ?_
        rintro _ _ - ⟨⟩
  | .repeat_ line times body, depth, p, h => by
    rw [statement] at h ⊢
    refine fails_comeTo (.inr (fails_bind h (by rintro ⟨⟩) ?_))
    rintro _ _ ⟨⟩ h
    refine fails_bind h (fun h => fails_inner h (fails_statements b body _)) ?_
    rintro _ _ - ⟨⟩
  | .forEach line item collection body, depth, p, h => by
    rw [statement] at h ⊢
    refine fails_comeTo (.inr (fails_bind h (by rintro ⟨⟩) ?_))
    rintro _ _ ⟨⟩ h
    refine fails_bind h (fun h => fails_inner h (fails_statements b body _)) ?_
    rintro _ _ - ⟨⟩

/-- A walk through a body that fails fails at a statement that it comes to. -/
theorem fails_statements (b : Setting) {v : Violation} : ∀ (body : List Statement) (depth : Nat)
    {p : Progress}, (statements b depth body p).2 = .error v →
    ∃ x ∈ (statements b depth body p).1, Fails b x v
  | [], _, p, h => by
    rw [statements] at h
    cases h
  | s :: rest, depth, p, h => by
    rw [statements] at h ⊢
    refine fails_bind h (fails_statement b s depth) fun code q _ h => ?_
    refine fails_bind h (fails_statements b rest depth) ?_
    rintro _ _ - ⟨⟩

end

end Walk

/-- The code of a body fails at one of its statements, in the scope in which it is checked and with
    the names that are given in addition. -/
theorem fails_of_body {all : Project} {o : BodyOwner} {bound scope given : List String}
    {body : List Statement} {v : Violation} (hr : Generate.body all o bound body = .error v)
    (hb : ∀ n, n ∈ bound ↔ n ∈ scope ∨ n ∈ given) :
    ∃ names s, (names, s) ∈ Statement.inScope scope (Statement.flattenAll body) ∧
      ∃ (b : Setting) (p : Progress), b.all = all ∧ Same given (names, s) (p, s) ∧
        Fails b (p, s) v := by
  rw [← result_bodyWalk] at hr
  have hw : (Walk.statements ⟨all, o.defaultPage, o.uses, hoistedNames bound body⟩ 0 body
      (.start bound)).2 = .error v := by
    rcases bind_eq_error.1 hr with h | ⟨_, -, h⟩
    · exact h
    · cases h
  obtain ⟨⟨p, s⟩, hx, hf⟩ := Walk.fails_statements _ body 0 hw
  obtain ⟨front, behind, heq, hlog, -⟩ :=
    follows_bodyWalk all o body hb
  obtain ⟨⟨names, s'⟩, hm, hsame⟩ := exists_of_mem_forall₂ hlog hx
  obtain rfl : s = s' := hsame.statement
  exact ⟨names, s, heq ▸ List.mem_append_left _ hm, _, p, rfl, hsame, hf⟩

end Generate

/-! ## Valid programs -/

/-- A statement of a feature, on the given line, acts on an element of a library that the feature
    uses, as if it were a page, though no variable and no page has its name. -/
def Feature.TargetsLibrary (p : Program) (f : Feature) (page : String) (line : Nat) : Prop :=
  ∃ body ∈ f.hooks.map (·.body) ++ f.scenarios.map (·.body), ∃ scope s field,
    (scope, s) ∈ Validation.visited [] body ∧ s.line = line ∧
    .element (some page) field ∈ s.targets ∧ page ∉ scope ∧ page ∈ f.uses.map (·.name) ∧
    page ∈ p.libraries.map (·.name) ∧ page ∉ p.pages.map (·.name)

/-- A body that is written for a feature: that of a hook, or that of a scenario with names that its
    test binds. -/
theorem exists_body_of_suite {all : Project} {combinations : List Combination} {f : Feature}
    {scenarios : List Scenario} {v : Generate.Violation}
    (h : Generate.suite all combinations f scenarios = .error v) :
    ∃ bound, ∃ body ∈ f.hooks.map (·.body) ++ scenarios.map (·.body),
      Generate.body all ⟨none, f.uses.map (·.name)⟩ bound body = .error v := by
  rcases bind_eq_error.1 h with h | ⟨_, -, h⟩
  · obtain ⟨k, hk, h⟩ := exists_of_mapM_eq_error h
    rcases bind_eq_error.1 h with h | ⟨_, -, h⟩
    · exact ⟨[], k.body, List.mem_append_left _ (List.mem_map.2 ⟨k, hk, rfl⟩), h⟩
    · cases h
  · rcases bind_eq_error.1 h with h | ⟨_, -, h⟩
    · obtain ⟨s, hm, h⟩ := exists_of_mapM_eq_error h
      obtain ⟨⟨label, values⟩, -, h⟩ := exists_of_mapM_eq_error h
      rcases bind_eq_error.1 h with h | ⟨_, -, h⟩
      · rcases bind_eq_error.1 h with h | ⟨_, -, h⟩
        · exact ⟨_, s.body, List.mem_append_right _ (List.mem_map.2 ⟨s, hm, rfl⟩), h⟩
        · cases h
      · cases h
    · cases h

theorem not_succeeds_of_eq_error {ε α : Type} {x : Except ε α} {e : ε} (h : x = .error e) :
    ¬Succeeds x :=
  not_succeeds_iff.2 ⟨e, h⟩

section
variable {p : Program} (hw : WellFormed .empty p) {v : Generate.Violation} {b : PlacedBody}
include hw

theorem defined_of_reaches (hb : b ∈ p.placedBodies) {q : String}
    (hq : b.place.Reaches (Project.empty.extend p) q) :
    q ∈ (Project.empty.extend p).definedNames := by
  rcases List.mem_append.1 hb with hb | hb
  · rcases List.mem_append.1 hb with hb | hb
    · obtain ⟨page, hp, hb⟩ := List.mem_flatMap.1 hb
      obtain ⟨a, -, rfl⟩ := List.mem_map.1 hb
      rcases hq with hq | hq
      · exact List.mem_append_left _ hq
      · cases hq
        exact List.mem_append_left _ (List.mem_map.2 ⟨page, hp, rfl⟩)
    · obtain ⟨l, hl, hb⟩ := List.mem_flatMap.1 hb
      obtain ⟨a, -, rfl⟩ := List.mem_map.1 hb
      rcases hq with hq | hq
      · exact List.mem_append_left _ hq
      · exact List.mem_append_left _ (hw.libraryPages l hl q hq)
  · obtain ⟨f, hf, hb⟩ := List.mem_flatMap.1 hb
    obtain ⟨body, -, rfl⟩ := List.mem_map.1 hb
    obtain ⟨u, hu, rfl⟩ := List.mem_map.1 hq
    exact hw.uses f hf u hu

theorem succeeds_checkAction_of_mem (hb : b ∈ p.placedBodies) {line : Nat} {owner action : String}
    {arguments : List Expression}
    (hm : .step line (.perform owner action arguments) ∈ Statement.flattenAll b.statements) :
    Succeeds (Generate.checkAction (Project.empty.extend p) line owner action
      arguments.length) := by
  obtain ⟨front, behind, heq⟩ := List.append_of_mem hm
  have hc := (hw.bodies b hb front _ behind heq).calls line owner action arguments rfl
  exact Generate.succeeds_checkAction.2 (performable_of_callable hc (defined_of_reaches hw hb))

variable {N B : String → Prop} (hs : p.Spelled N B)
include hs

/-- The body of a hook or test fails only at an element of a library. -/
theorem targetsLibrary_of_body {f : Feature} (hf : f ∈ p.features) {bound : List String}
    {body : List Statement} (hb : body ∈ f.hooks.map (·.body) ++ f.scenarios.map (·.body))
    (h : Generate.body (Project.empty.extend p) ⟨none, f.uses.map (·.name)⟩ bound body =
      .error v) : ∃ page line, v = .unknownPage page line ∧ f.TargetsLibrary p page line := by
  have hplaced : (⟨.feature (f.uses.map (·.name)), [], body⟩ : PlacedBody) ∈ p.placedBodies :=
    List.mem_append_right _ (List.mem_flatMap.2 ⟨f, hf, List.mem_map.2 ⟨body, hb, rfl⟩⟩)
  have hspelled : BodySpelled N B body := by
    rcases List.mem_append.1 hb with hb | hb
    · obtain ⟨k, hk, rfl⟩ := List.mem_map.1 hb
      exact hs.hooks f hf k hk
    · obtain ⟨s, hm, rfl⟩ := List.mem_map.1 hb
      exact hs.scenarios f hf s hm
  have hbound : ∀ n, n ∈ bound ↔ n ∈ ([] : List String) ∨ n ∈ bound := by simp
  obtain ⟨names, s, hm, b, q, hall, hsame, hfails⟩ := Generate.fails_of_body h hbound
  obtain ⟨front, behind, heq, hnames⟩ := Statement.mem_inScope.1 hm
  have hmem : s ∈ Statement.flattenAll body := by simp [heq]
  cases hfails with
  | target t ht hl =>
    obtain ⟨page, field, rfl, hscope, hpage, rfl⟩ :=
      Generate.locator_eq_error ((hspelled s hmem).targets t ht) hl
    rw [hall] at hpage
    have hn : page ∉ names := fun hn => hscope ((hsame.names page).2 (.inl hn))
    have hu : page ∈ f.uses.map (·.name) := by
      have ht' := (hw.bodies _ hplaced front s behind heq).targets page field
        (Statement.mem_targets_iff.1 ht)
      rw [← hnames] at ht'
      exact ht'.resolve_left hn
    have hd : page ∈ (Project.empty.extend p).definedNames := defined_of_reaches hw hplaced hu
    exact ⟨page, s.line, rfl, body, hb, names, s, field, hm, rfl, ht, hn, hu,
      (List.mem_append.1 hd).resolve_left hpage, hpage⟩
  | call line owner action arguments hx hc =>
    obtain rfl : s = _ := hx
    rw [hall] at hc
    exact (not_succeeds_of_eq_error hc (succeeds_checkAction_of_mem hw hplaced hmem)).elim

theorem targetsLibrary_of_generate {r : Request} (h : generate .empty r p = .error v) :
    ∃ page line, v = .unknownPage page line ∧ ∃ f ∈ p.features, f.TargetsLibrary p page line := by
  rcases bind_eq_error.1 h with h | ⟨_, -, h⟩
  · refine (not_succeeds_of_eq_error h (Generate.succeeds_pageFixtures.2 fun page hp => ?_)).elim
    exact resolvedBody_of_mem_pages hs hw (mem_of_mem_neededPages hp)
  rcases bind_eq_error.1 h with h | ⟨_, -, h⟩
  · refine (not_succeeds_of_eq_error h (Generate.succeeds_libraryFixtures.2 fun l hl => ?_)).elim
    exact resolvedBody_of_mem_libraries hs hw (mem_of_mem_neededLibraries hl)
  rcases bind_eq_error.1 h with h | ⟨_, -, h⟩
  · obtain ⟨⟨f, scenarios⟩, hx, h⟩ := exists_of_mapM_eq_error h
    obtain ⟨f, hf, hx⟩ := List.mem_map.1 (List.mem_filter.1 hx).1
    cases hx
    obtain ⟨bound, body, hb, h⟩ := exists_body_of_suite h
    have hb' : body ∈ f.hooks.map (·.body) ++ f.scenarios.map (·.body) := by
      refine List.mem_append.2 ((List.mem_append.1 hb).imp_right fun hb => ?_)
      obtain ⟨s, hm, rfl⟩ := List.mem_map.1 hb
      exact List.mem_map.2 ⟨s, (List.mem_filter.1 hm).1, rfl⟩
    obtain ⟨page, line, hv, ht⟩ := targetsLibrary_of_body hw hs hf hb' h
    exact ⟨page, line, hv, f, hf, ht⟩
  · cases h

end

/-- **What validity leaves open.** Code is generated for a valid program without a project around
    it, or a feature treats a library that it uses as a page: no action that is performed is wrong,
    and the code of every action is generated. -/
theorem violation_of_valid (tokens : List Token) (r : Request)
    (hv : (Report.ofProblems (validate .empty (parse tokens).program)).valid = true) :
    ((∃ g, generate .empty r (parse tokens).program = .ok g) ∨
      ∃ page line, generate .empty r (parse tokens).program = .error (.unknownPage page line) ∧
        ∃ f ∈ (parse tokens).program.features,
          f.TargetsLibrary (parse tokens).program page line) ∧
    (∀ b ∈ (parse tokens).program.placedBodies, ∀ line owner action arguments,
      .step line (.perform owner action arguments) ∈ Statement.flattenAll b.statements →
      Succeeds (Generate.checkAction (Project.empty.extend (parse tokens).program) line owner
        action arguments.length)) ∧
    (∀ page ∈ (parse tokens).program.pages, ∀ a ∈ page.actions,
      Succeeds (Generate.method (Project.empty.extend (parse tokens).program) (some page.name)
        a)) ∧
    ∀ l ∈ (parse tokens).program.libraries, ∀ a ∈ l.actions,
      Succeeds (Generate.method (Project.empty.extend (parse tokens).program) l.forPage a) := by
  have hw : WellFormed .empty (parse tokens).program :=
    Validation.noErrors_validate.1 (Validation.valid_iff_noErrors.1 hv)
  have hs : (parse tokens).program.Spelled (fun _ => True) (fun _ => True) :=
    spelled_parse fun _ _ => ⟨fun _ => trivial, fun _ => trivial⟩
  have hmethod : ∀ (page : Option String) (a : Action),
      ResolvedBody (Project.empty.extend (parse tokens).program) a.parameters a.body →
      Succeeds (Generate.method (Project.empty.extend (parse tokens).program) page a) :=
    fun page a h => (succeeds_bind_of fun _ => succeeds_ok).2 (Generate.succeeds_body.2 h)
  refine ⟨?_, fun b hb line owner action arguments hm => succeeds_checkAction_of_mem hw hb hm,
    fun page hp a ha => hmethod _ a (resolvedBody_of_mem_pages hs hw hp a ha),
    fun l hl a ha => hmethod _ a (resolvedBody_of_mem_libraries hs hw hl a ha)⟩
  cases hg : generate .empty r (parse tokens).program with
  | ok g => exact .inl ⟨g, rfl⟩
  | error v =>
    obtain ⟨page, line, rfl, hf⟩ := targetsLibrary_of_generate hw hs hg
    exact .inr ⟨page, line, rfl, hf⟩

/-- A feature that performs an action of a library, and that clicks on an element of the library. -/
def flowsScript : String :=
  "PAGEACTIONS Flows \x7b go WITH name \x7b LOG name \x7d \x7d
  FEATURE Checkout \x7b USE Flows SCENARIO \"pays\" \x7b
    PERFORM Flows.go WITH \"a\"
    IF TRUE \x7b CLICK Flows.button \x7d
  \x7d \x7d"

theorem violation_of_valid_flows :
    (Report.ofProblems (validate .empty (parse (tokenize flowsScript).tokens).program)).valid =
      true ∧
    ∃ page line, generate .empty ⟨none, []⟩ (parse (tokenize flowsScript).tokens).program =
        .error (.unknownPage page line) ∧
      ∃ f ∈ (parse (tokenize flowsScript).tokens).program.features,
        f.TargetsLibrary (parse (tokenize flowsScript).tokens).program page line := by
  obtain ⟨hv, hg⟩ : (Report.ofProblems
      (validate .empty (parse (tokenize flowsScript).tokens).program)).valid = true ∧
      (generate .empty ⟨none, []⟩ (parse (tokenize flowsScript).tokens).program).isOk = false := by
    decide +kernel
  refine ⟨hv, ?_⟩
  rcases (violation_of_valid (tokenize flowsScript).tokens ⟨none, []⟩ hv).1 with ⟨g, h⟩ | h
  · rw [h] at hg
    cases hg
  · exact h

end UiScenario
