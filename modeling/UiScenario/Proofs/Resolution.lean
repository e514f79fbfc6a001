import UiScenario.Generate.File
import UiScenario.Proofs.WellFormed

/-!
When code can be generated. Generating fails at a statement that names something which is not there,
and at nothing else.
-/

namespace UiScenario

/-! ## Success -/

/-- A computation gives a value. -/
def Succeeds {ε α : Type} (x : Except ε α) : Prop :=
  ∃ a, x = .ok a

section
variable {ε α β : Type} {x : Except ε α} {f : α → Except ε β} {xs : List α} {ys : List β}

@[simp]
theorem succeeds_ok {a : α} : Succeeds (.ok a : Except ε α) :=
  ⟨a, rfl⟩

@[simp]
theorem not_succeeds_error {e : ε} : ¬Succeeds (.error e : Except ε α) :=
  nofun

theorem succeeds_if {c : Prop} [Decidable c] {a : α} {e : ε} :
    Succeeds (if c then .ok a else .error e) ↔ c := by
  split <;> simp [*]

theorem not_succeeds_iff : ¬Succeeds x ↔ ∃ e, x = .error e := by
  cases x <;> simp

theorem toOption_eq_some {a : α} : x.toOption = some a ↔ x = .ok a := by
  cases x <;> simp [Except.toOption]

theorem succeeds_bind : Succeeds (x >>= f) ↔ ∃ a, x = .ok a ∧ Succeeds (f a) := by
  cases x with
  | error e => exact iff_of_false not_succeeds_error (by simp)
  | ok a =>
    refine ⟨fun h => ⟨a, rfl, h⟩, ?_⟩
    rintro ⟨_, ⟨⟩, h⟩
    exact h

theorem bind_eq_ok {b : β} : x >>= f = .ok b ↔ ∃ a, x = .ok a ∧ f a = .ok b := by
  cases x <;> simp [bind, Except.bind]

/-- What cannot fail behind a computation does not matter. -/
theorem succeeds_bind_of (h : ∀ a, Succeeds (f a)) : Succeeds (x >>= f) ↔ Succeeds x := by
  rw [succeeds_bind]
  exact exists_congr fun a => and_iff_left (h a)

theorem succeeds_mapM : Succeeds (xs.mapM f) ↔ ∀ x ∈ xs, Succeeds (f x) := by
  induction xs with
  | nil => simp [List.mapM_nil, pure, Except.pure]
  | cons x xs ih =>
    rw [List.mapM_cons, succeeds_bind, List.forall_mem_cons, ← ih]
    constructor
    · rintro ⟨a, ha, h⟩
      exact ⟨⟨a, ha⟩, (succeeds_bind_of fun _ => succeeds_ok).1 h⟩
    · rintro ⟨⟨a, ha⟩, h⟩
      exact ⟨a, ha, (succeeds_bind_of fun _ => succeeds_ok).2 h⟩

theorem mapM_eq_ok : xs.mapM f = .ok ys ↔ xs.map f = ys.map .ok := by
  induction xs generalizing ys with
  | nil => simp [List.mapM_nil, pure, Except.pure, eq_comm]
  | cons x xs ih =>
    rw [List.mapM_cons, bind_eq_ok, List.map_cons]
    constructor
    · rintro ⟨y, hy, h⟩
      obtain ⟨rest, hrest, h⟩ := bind_eq_ok.1 h
      cases h
      rw [hy, ih.1 hrest, List.map_cons]
    · intro h
      cases ys with
      | nil => cases h
      | cons y ys =>
        rw [List.map_cons, List.cons.injEq] at h
        exact ⟨y, h.1, bind_eq_ok.2 ⟨ys, ih.2 h.2, rfl⟩⟩

theorem exists_of_mem_mapM (h : xs.mapM f = .ok ys) {y : β} (hy : y ∈ ys) :
    ∃ x ∈ xs, f x = .ok y := by
  have hm : Except.ok y ∈ xs.map f := by
    rw [mapM_eq_ok.1 h]
    exact List.mem_map.2 ⟨y, hy, rfl⟩
  exact List.mem_map.1 hm

theorem exists_mem_of_mapM (h : xs.mapM f = .ok ys) {x : α} (hx : x ∈ xs) :
    ∃ y ∈ ys, f x = .ok y := by
  have hm : f x ∈ ys.map Except.ok := by
    rw [← mapM_eq_ok.1 h]
    exact List.mem_map.2 ⟨x, hx, rfl⟩
  obtain ⟨y, hy, heq⟩ := List.mem_map.1 hm
  exact ⟨y, hy, heq.symm⟩

theorem map_of_mapM_eq_ok {γ : Type} {v : β → γ} {w : α → γ} (hv : ∀ x y, f x = .ok y → v y = w x)
    (h : xs.mapM f = .ok ys) : ys.map v = xs.map w := by
  have heq := mapM_eq_ok.1 h
  clear h
  induction xs generalizing ys with
  | nil =>
    rw [List.map_nil] at heq
    rw [List.map_eq_nil_iff.1 heq.symm, List.map_nil, List.map_nil]
  | cons x xs ih =>
    cases ys with
    | nil => cases heq
    | cons y ys =>
      rw [List.map_cons, List.map_cons, List.cons.injEq] at heq
      rw [List.map_cons, List.map_cons, hv x y heq.1, ih heq.2]

end

/-! ## What has to be there -/

/-- The page of an element is there, if the name in front of it is no variable in scope. -/
def Target.Resolved (all : Project) (scope : List String) : Target → Prop
  | element (some q) _ => q ∈ scope ∨ q ∈ all.pages.map (·.name)
  | element none _ | selector _ => True
  | unset => False

/-- An action of a library or else of a page takes so many arguments. -/
def Performable (all : Project) (owner action : String) (count : Nat) : Prop :=
  (∃ l, IsLast (·.name = owner) all.libraries l ∧ Takes l.actions action count) ∨
  owner ∉ all.libraries.map (·.name) ∧
    ∃ p, IsLast (·.name = owner) all.pages p ∧ Takes p.actions action count

/-- What a statement names is there, with the names of `scope` in scope. -/
structure Statement.Resolved (all : Project) (scope : List String) (s : Statement) : Prop where
  targets : ∀ t ∈ s.targets, t.Resolved all scope
  calls : ∀ line owner action arguments, s = step line (.perform owner action arguments) →
    Performable all owner action arguments.length

/-- What the statements of a body name is there, at any depth, where each is in the scope of all
    names that are bound in front of it in reading order. -/
def ResolvedBody (all : Project) (scope : List String) (body : List Statement) : Prop :=
  ∀ front s behind, Statement.flattenAll body = front ++ s :: behind →
    s.Resolved all (scope ++ front.filterMap Statement.binds?)

namespace Generate

variable {all : Project} {b : Setting} {depth line : Nat} {p q : Progress} {s : Step}
  {body : List Statement} {code : List Code.Statement}

open Code (Expr)

/-! ## Steps -/

@[simp]
theorem succeeds_lift {α : Type} {x : Except Violation α} :
    Succeeds ((liftM x : Gen α) p) ↔ Succeeds x :=
  succeeds_bind_of fun _ => succeeds_ok

-- what a computation has done if it succeeded

section
variable {α β : Type} {r : Progress} {a c : α}

theorem gen_bind_eq_ok {x : Gen β} {f : β → Gen α} :
    (x >>= f) p = .ok (a, r) ↔ ∃ c q, x p = .ok (c, q) ∧ f c q = .ok (a, r) :=
  bind_eq_ok.trans Prod.exists

theorem gen_lift_eq_ok {x : Except Violation α} :
    (liftM x : Gen α) p = .ok (a, q) ↔ x = .ok a ∧ q = p := by
  refine bind_eq_ok.trans ⟨?_, ?_⟩
  · rintro ⟨_, h, ⟨⟩⟩; exact ⟨h, rfl⟩
  · rintro ⟨h, rfl⟩; exact ⟨a, h, rfl⟩

theorem gen_pure_eq_ok : (pure a : Gen α) p = .ok (c, q) ↔ c = a ∧ q = p := by
  show Except.ok (a, p) = .ok (c, q) ↔ _
  simp [eq_comm]

theorem gen_get_eq_ok : (get : Gen Progress) p = .ok (q, r) ↔ q = p ∧ r = p := by
  show Except.ok (p, p) = .ok (q, r) ↔ _
  simp [eq_comm]

theorem gen_set_eq_ok {u : PUnit} : (set q : Gen PUnit) p = .ok (u, r) ↔ r = q := by
  show Except.ok (_, q) = .ok (u, r) ↔ _
  simp [eq_comm]

theorem declare_eq_ok {name : String} {value : Expr} {c : Code.Statement} :
    declare b name value p = .ok (c, q) ↔
      c = (if b.hoisted.contains name then .assign name value else .const name value) ∧
      q = p.bind name :=
  gen_pure_eq_ok

end

theorem succeeds_locator {t : Target} :
    Succeeds (locator b p line t) ↔ t.Resolved b.all p.scope := by
  unfold locator
  split
  · simp [Target.Resolved]
  · simp [Target.Resolved]
  · simp [Target.Resolved]
  · next q name =>
    rw [Target.Resolved, ← Project.hasPage_iff, Project.hasPage]
    split
    · next h => simp_all [Progress.hasVariable]
    · next h =>
      have : q ∉ p.scope := by simpa [Progress.hasVariable] using h
      cases b.all.page? q <;> simp [this]

/-- An action is looked up, and the check behind goes by the number of its parameters. -/
theorem succeeds_lookup {actions : List Action} {action : String} {count : Nat}
    {f : Option Action → Except Violation Unit} (hnone : ¬Succeeds (f none))
    (hsome : ∀ a, Succeeds (f (some a)) ↔ a.parameters.length = count) :
    Succeeds (Except.ok (findLast? (·.name == action) actions) >>= f) ↔
      Takes actions action count := by
  simp only [succeeds_bind, Except.ok.injEq, exists_eq_left', Takes,
    ← findLast?_name_eq_some_iff]
  cases findLast? (·.name == action) actions with
  | none => simp [hnone]
  | some a => simp [hsome]

theorem succeeds_checkAction {owner action : String} {count : Nat} :
    Succeeds (checkAction all line owner action count) ↔ Performable all owner action count := by
  have hp : Performable all owner action count ↔
      (∃ l, all.library? owner = some l ∧ Takes l.actions action count) ∨
      all.library? owner = none ∧
        ∃ p, all.page? owner = some p ∧ Takes p.actions action count := by
    simp only [Performable, ← findLast?_name_eq_some_iff, ← findLast?_name_eq_none_iff]
    rfl
  rw [hp, checkAction]
  cases all.library? owner with
  | some l =>
    refine (succeeds_lookup not_succeeds_error fun a => succeeds_if).trans ?_
    simp
  | none =>
    cases all.page? owner with
    | none => exact iff_of_false not_succeeds_error (by simp)
    | some p =>
      refine (succeeds_lookup not_succeeds_error fun a => succeeds_if).trans ?_
      simp

theorem succeeds_assertion {a : Assertion} :
    Succeeds (assertion b p line a) ↔ ∀ t ∈ a.targets, Succeeds (locator b p line t) := by
  cases a with
  | state t _ _ | text t _ _ _ | value t _ _ | attribute_ t _ _ | count t _ =>
    exact (succeeds_bind_of fun _ => succeeds_ok).trans (by simp [Assertion.targets])
  | url _ _ | title _ _ => simp [assertion, Assertion.targets]

/-- A step fails only at an element that is not found or an action that cannot be performed. -/
theorem succeeds_step :
    Succeeds (step b line s p) ↔ (∀ t ∈ s.targets, Succeeds (locator b p line t)) ∧
      ∀ owner action arguments, s = .perform owner action arguments →
        Succeeds (checkAction b.all line owner action arguments.length) := by
  cases s with
  | click t | fill t _ | hover t | check t | uncheck t | select _ t | scrollTo t | upload _ t
  | waitFor t | clear t | switchToFrame t =>
    exact (succeeds_bind_of fun _ => succeeds_ok).trans (by simp [Step.targets])
  | drag t u =>
    refine succeeds_bind.trans ?_
    simp only [Step.targets, List.forall_mem_cons]
    constructor
    · rintro ⟨r, hr, h⟩
      obtain ⟨he, hq⟩ := gen_lift_eq_ok.1 hr
      have hu := succeeds_lift.1 ((succeeds_bind_of fun _ => succeeds_ok).1 h)
      exact ⟨⟨⟨_, he⟩, hu, by simp⟩, by simp⟩
    · rintro ⟨⟨⟨e, he⟩, hu, -⟩, -⟩
      refine ⟨(e, p), gen_lift_eq_ok.2 ⟨he, rfl⟩, ?_⟩
      exact (succeeds_bind_of fun _ => succeeds_ok).2 (succeeds_lift.2 hu)
  | verify a =>
    refine (succeeds_bind_of fun _ => succeeds_ok).trans ?_
    simp [Step.targets, succeeds_assertion]
  | perform owner action arguments =>
    refine (succeeds_bind_of fun _ => succeeds_ok).trans ?_
    simp [Step.targets]
  | open_ _ | scroll _ | press _ | wait _ _ | refresh | screenshot _ | log _ | switchToTab _
  | switchToNewTab _ | closeTab | switchToMainFrame | acceptDialog _ | dismissDialog
  | clearCookies | clearStorage | declare _ _ _ | query _ =>
    exact iff_of_true succeeds_ok (by simp [Step.targets])

def Progress.after (b : Setting) (p : Progress) : Step → Progress
  | .declare _ name _ => p.bind name
  | .query q => { p with reads := (queryCode b p q).2.2 }.bind q.variable_
  | .switchToFrame _ => { p with root := frameName (p.frames + 1), frames := p.frames + 1 }
  | .switchToMainFrame => { p with root := "page" }
  | _ => p

theorem progress_step (h : step b line s p = .ok (code, q)) : q = p.after b s := by
  rw [step, gen_bind_eq_ok] at h
  obtain ⟨_, _, hp, h⟩ := h
  obtain ⟨rfl, rfl⟩ := gen_get_eq_ok.1 hp
  cases s <;> simp only [gen_bind_eq_ok, gen_lift_eq_ok, gen_pure_eq_ok, gen_set_eq_ok,
    declare_eq_ok] at h <;> grind [Progress.after]

theorem mem_scope_bind {name n : String} : n ∈ (p.bind name).scope ↔ n ∈ p.scope ∨ n = name := by
  unfold Progress.bind Progress.hasVariable
  split
  · next h =>
    have : name ∈ p.scope := by simpa using h
    exact ⟨.inl, fun h => h.elim id fun e => e ▸ this⟩
  · simp

theorem mem_scope_after {n : String} :
    n ∈ (p.after b s).scope ↔ n ∈ p.scope ∨ s.bound? = some n := by
  cases s with
  | declare _ name _ | query q => simp [Progress.after, mem_scope_bind, Step.bound?, eq_comm]
  | _ => simp [Progress.after, Step.bound?]

/-! ## Statements -/

theorem inner_eq {α : Type} (g : Gen α) :
    inner g p = g p >>= fun r => .ok (r.1, { r.2 with root := p.root }) :=
  rfl

theorem statement_branch (line : Nat) (c : Condition) (thenBody elseBody : List Statement) :
    statement b depth (.branch line c thenBody elseBody) p =
      condition b p line c >>= fun test => inner (statements b depth thenBody) p >>= fun r =>
        if elseBody.isEmpty then .ok ([.branch test r.1], r.2)
        else inner (statements b depth elseBody) r.2 >>= fun r' =>
          .ok ([.choice test r.1 r'.1], r'.2) := by
  rw [statement]
  show (condition b p line c >>= fun test => _) >>= _ = _
  cases condition b p line c with
  | error e => rfl
  | ok test =>
    show (inner (statements b depth thenBody) p >>= fun r => _) = (inner _ p >>= fun r => _)
    refine bind_congr fun r => ?_
    cases elseBody.isEmpty <;> rfl

theorem statement_repeat (line : Nat) (times : Expression) (body : List Statement) :
    statement b depth (.repeat_ line times body) p =
      inner (statements b (depth + 1) body) p >>= fun r =>
        .ok ([.count (counterName depth) (expression b p times) r.1], r.2) := by
  rw [statement]
  rfl

theorem statement_forEach (line : Nat) (item collection : String) (body : List Statement) :
    statement b depth (.forEach line item collection body) p =
      inner (statements b depth body) (p.bind item) >>= fun r =>
        .ok ([.forOf item collection r.1], r.2) := by
  rw [statement]
  rfl

theorem statements_cons (s : Statement) (rest : List Statement) :
    statements b depth (s :: rest) p =
      statement b depth s p >>= fun r => statements b depth rest r.2 >>= fun r' =>
        .ok (r.1 ++ r'.1, r'.2) := by
  rw [statements]
  rfl

theorem inner_cases {α : Type} {g : Gen α} {a : α} (h : inner g p = .ok (a, q)) :
    ∃ r, g p = .ok (a, r) ∧ q = { r with root := p.root } := by
  obtain ⟨⟨a, r⟩, hg, h⟩ := bind_eq_ok.1 h
  cases h
  exact ⟨r, hg, rfl⟩

theorem branch_cases {c : Condition} {thenBody elseBody : List Statement}
    (h : statement b depth (.branch line c thenBody elseBody) p = .ok (code, q)) :
    ∃ test thenCode r, condition b p line c = .ok test ∧
      statements b depth thenBody p = .ok (thenCode, r) ∧
      (elseBody = [] ∧ code = [.branch test thenCode] ∧ q = { r with root := p.root } ∨
        ∃ elseCode r', statements b depth elseBody { r with root := p.root } = .ok (elseCode, r') ∧
          code = [.choice test thenCode elseCode] ∧ q = { r' with root := p.root }) := by
  rw [statement_branch] at h
  obtain ⟨test, hc, h⟩ := bind_eq_ok.1 h
  obtain ⟨⟨thenCode, q₁⟩, hi, h⟩ := bind_eq_ok.1 h
  obtain ⟨r, ht, rfl⟩ := inner_cases hi
  refine ⟨test, thenCode, r, hc, ht, ?_⟩
  split at h
  · next he => cases h; exact .inl ⟨List.isEmpty_iff.1 he, rfl, rfl⟩
  · obtain ⟨⟨elseCode, q₂⟩, hi', h⟩ := bind_eq_ok.1 h
    obtain ⟨r', he, rfl⟩ := inner_cases hi'
    cases h
    exact .inr ⟨elseCode, r', he, rfl, rfl⟩

/-- How the code of statements comes about: what is known in front of it and behind it. -/
inductive Lays (b : Setting) :
    Nat → List Statement → Progress → List Code.Statement → Progress → Prop
  | nil {depth : Nat} {p : Progress} : Lays b depth [] p [] p
  | cons {depth : Nat} {s : Statement} {rest : List Statement} {p r q : Progress}
      {code more : List Code.Statement} (h : Lays b depth [s] p code r)
      (hrest : Lays b depth rest r more q) : Lays b depth (s :: rest) p (code ++ more) q
  | step {depth line : Nat} {s : Step} {p q : Progress} {code : List Code.Statement}
      (h : step b line s p = .ok (code, q)) : Lays b depth [.step line s] p code q
  | branch {depth line : Nat} {c : Condition} {body : List Statement} {p q : Progress}
      {test : Code.Expr} {code : List Code.Statement} (hc : condition b p line c = .ok test)
      (h : Lays b depth body p code q) :
      Lays b depth [.branch line c body []] p [.branch test code] { q with root := p.root }
  | choice {depth line : Nat} {c : Condition} {thenBody elseBody : List Statement}
      {p r q : Progress} {test : Code.Expr} {thenCode elseCode : List Code.Statement}
      (hc : condition b p line c = .ok test) (hthen : Lays b depth thenBody p thenCode r)
      (helse : Lays b depth elseBody { r with root := p.root } elseCode q) :
      Lays b depth [.branch line c thenBody elseBody] p [.choice test thenCode elseCode]
        { q with root := p.root }
  | repeat_ {depth line : Nat} {times : Expression} {body : List Statement} {p q : Progress}
      {code : List Code.Statement} (h : Lays b (depth + 1) body p code q) :
      Lays b depth [.repeat_ line times body] p
        [.count (counterName depth) (expression b p times) code] { q with root := p.root }
  | forEach {depth line : Nat} {item collection : String} {body : List Statement}
      {p q : Progress} {code : List Code.Statement} (h : Lays b depth body (p.bind item) code q) :
      Lays b depth [.forEach line item collection body] p [.forOf item collection code]
        { q with root := p.root }

theorem root_bind (p : Progress) (name : String) : (p.bind name).root = p.root := by
  unfold Progress.bind
  split <;> rfl

mutual

theorem lays_statement : ∀ (s : Statement) {depth : Nat} {p q : Progress}
    {code : List Code.Statement}, statement b depth s p = .ok (code, q) → Lays b depth [s] p code q
  | .step line s, _, _, _, _, h => .step (by rwa [statement] at h)
  | .branch line c thenBody elseBody, _, p, q, code, h => by
    obtain ⟨test, thenCode, r, hc, ht, he⟩ := branch_cases h
    rcases he with ⟨rfl, rfl, rfl⟩ | ⟨elseCode, r', he, rfl, rfl⟩
    · exact .branch hc (lays_statements thenBody ht)
    · exact .choice hc (lays_statements thenBody ht) (lays_statements elseBody he)
  | .repeat_ line times body, _, p, q, code, h => by
    rw [statement_repeat] at h
    obtain ⟨⟨inside, _⟩, hi, ⟨⟩⟩ := bind_eq_ok.1 h
    obtain ⟨r, hr, rfl⟩ := inner_cases hi
    exact .repeat_ (lays_statements body hr)
  | .forEach line item collection body, _, p, q, code, h => by
    rw [statement_forEach] at h
    obtain ⟨⟨inside, _⟩, hi, ⟨⟩⟩ := bind_eq_ok.1 h
    obtain ⟨r, hr, rfl⟩ := inner_cases hi
    rw [root_bind]
    exact .forEach (lays_statements body hr)

theorem lays_statements : ∀ (body : List Statement) {depth : Nat} {p q : Progress}
    {code : List Code.Statement}, statements b depth body p = .ok (code, q) →
    Lays b depth body p code q
  | [], _, _, _, _, h => by
    cases h
    exact .nil
  | s :: rest, _, _, _, _, h => by
    rw [statements_cons] at h
    obtain ⟨⟨code, r⟩, hs, h⟩ := bind_eq_ok.1 h
    obtain ⟨⟨more, _⟩, hrest, ⟨⟩⟩ := bind_eq_ok.1 h
    exact (lays_statement s hs).cons (lays_statements rest hrest)

end

/-- What is in scope behind statements: in addition the names that they bind. -/
theorem Lays.mem_scope (h : Lays b depth body p code q) (n : String) :
    n ∈ q.scope ↔ n ∈ p.scope ∨ n ∈ Statement.boundAll body := by
  induction h with
  | nil => simp [Statement.boundAll]
  | cons _ _ ih ihrest => simp [ihrest, ih, Statement.boundAll, or_assoc]
  | step h =>
    rw [progress_step h, mem_scope_after]
    simp [Statement.boundAll, Statement.bound]
  | branch _ _ ih => simpa [Statement.boundAll, Statement.bound] using ih
  | choice _ _ _ ih ihelse => simp [ihelse, ih, Statement.boundAll, Statement.bound, or_assoc]
  | repeat_ _ ih => simpa [Statement.boundAll, Statement.bound] using ih
  | forEach _ ih => simp [ih, mem_scope_bind, Statement.boundAll, Statement.bound, or_assoc]

/-- The statements of a list are resolved, each with what is in scope there. -/
def AllResolved (all : Project) (scope : List String) (xs : List Statement) : Prop :=
  ∀ x ∈ Statement.inScope scope xs, x.2.Resolved all x.1

section
variable {scope scope' : List String} {xs : List Statement} {s : Statement}

theorem resolved_congr (h : ∀ n, n ∈ scope ↔ n ∈ scope') :
    s.Resolved all scope ↔ s.Resolved all scope' := by
  have ht : ∀ t : Target, t.Resolved all scope ↔ t.Resolved all scope' := by
    intro t
    match t with
    | .element (some q) _ => simp [Target.Resolved, h]
    | .element none _ | .selector _ | .unset => exact Iff.rfl
  exact ⟨fun ⟨h₁, h₂⟩ => ⟨fun t hm => (ht t).1 (h₁ t hm), h₂⟩,
    fun ⟨h₁, h₂⟩ => ⟨fun t hm => (ht t).2 (h₁ t hm), h₂⟩⟩

theorem allResolved_cons :
    AllResolved all scope (s :: xs) ↔
      s.Resolved all scope ∧ AllResolved all (scope ++ s.binds?.toList) xs := by
  simp [AllResolved, Statement.inScope]

theorem allResolved_append {ys : List Statement} :
    AllResolved all scope (xs ++ ys) ↔
      AllResolved all scope xs ∧ AllResolved all (scope ++ xs.filterMap Statement.binds?) ys := by
  simp only [AllResolved, Statement.inScope_append, List.mem_append, or_imp, forall_and]

theorem allResolved_congr (h : ∀ n, n ∈ scope ↔ n ∈ scope') :
    AllResolved all scope xs ↔ AllResolved all scope' xs := by
  induction xs generalizing scope scope' with
  | nil => simp [AllResolved, Statement.inScope]
  | cons s xs ih =>
    rw [allResolved_cons, allResolved_cons, resolved_congr h]
    exact and_congr_right fun _ => ih fun n => by simp [h]

theorem resolvedBody_iff :
    ResolvedBody all scope body ↔ AllResolved all scope (Statement.flattenAll body) := by
  simp only [AllResolved, Prod.forall, Statement.mem_inScope, ResolvedBody]
  constructor
  · rintro h _ s ⟨front, behind, e, rfl⟩
    exact h front s behind e
  · exact fun h front s behind e => h _ s ⟨front, behind, e, rfl⟩

theorem allResolved_bind {name : String} :
    AllResolved all (p.bind name).scope xs ↔ AllResolved all (p.scope ++ [name]) xs :=
  allResolved_congr fun n => by simp [mem_scope_bind]

theorem allResolved_statement (h : statement b depth s p = .ok (code, q)) :
    AllResolved all q.scope xs ↔ AllResolved all (p.scope ++ s.bound) xs :=
  allResolved_congr fun n => by simp [(lays_statement s h).mem_scope, Statement.boundAll]

theorem allResolved_statements (h : statements b depth body p = .ok (code, q)) :
    AllResolved all q.scope xs ↔ AllResolved all (p.scope ++ Statement.boundAll body) xs :=
  allResolved_congr fun n => by rw [(lays_statements body h).mem_scope, List.mem_append]

end

theorem succeeds_condition {c : Condition} {thenBody elseBody : List Statement} :
    Succeeds (condition b p line c) ↔
      (Statement.branch line c thenBody elseBody).Resolved b.all p.scope := by
  have hs : Succeeds (condition b p line c) ↔
      ∀ t ∈ (Statement.branch line c thenBody elseBody).targets, t.Resolved b.all p.scope := by
    cases c with
    | state t negated state =>
      refine (succeeds_bind_of fun _ => succeeds_ok).trans ?_
      simp [Statement.targets, succeeds_locator]
    | comparison _ _ _ | truthy _ => exact iff_of_true succeeds_ok (by simp [Statement.targets])
  rw [hs]
  exact ⟨fun h => ⟨h, nofun⟩, fun h => h.targets⟩

theorem succeeds_step_iff :
    Succeeds (step b line s p) ↔ (Statement.step line s).Resolved b.all p.scope := by
  simp only [succeeds_step, succeeds_locator, succeeds_checkAction]
  constructor
  · rintro ⟨ht, hc⟩
    exact ⟨ht, by rintro _ owner action arguments ⟨⟩; exact hc _ _ _ rfl⟩
  · rintro ⟨ht, hc⟩
    exact ⟨ht, by rintro owner action arguments rfl; exact hc _ _ _ _ rfl⟩

mutual

/-- The code of a statement is generated if it and the statements inside it are resolved. -/
theorem succeeds_statement (b : Setting) : ∀ (s : Statement) (depth : Nat) {p : Progress},
    Succeeds (statement b depth s p) ↔ AllResolved b.all p.scope s.flatten
  | .step line s, _, p => by
    rw [statement, succeeds_step_iff, Statement.flatten, allResolved_cons]
    simp [AllResolved, Statement.inScope]
  | .branch line c thenBody elseBody, depth, p => by
    have hall : AllResolved b.all p.scope (Statement.branch line c thenBody elseBody).flatten ↔
        (Statement.branch line c thenBody elseBody).Resolved b.all p.scope ∧
        AllResolved b.all p.scope (Statement.flattenAll thenBody) ∧
        AllResolved b.all (p.scope ++ Statement.boundAll thenBody)
          (Statement.flattenAll elseBody) := by
      rw [Statement.flatten, allResolved_cons, allResolved_append, ← Statement.boundAll_eq]
      simp [Statement.binds?]
    rw [hall]
    constructor
    · rintro ⟨⟨code, q⟩, h⟩
      obtain ⟨test, _, r, hc, ht, he⟩ := branch_cases h
      refine ⟨succeeds_condition.1 ⟨test, hc⟩, (succeeds_statements b thenBody depth).1 ⟨_, ht⟩, ?_⟩
      rcases he with ⟨rfl, -⟩ | ⟨_, r', he, -⟩
      · simp [AllResolved, Statement.inScope, Statement.flattenAll]
      · have := (succeeds_statements b elseBody depth).1 ⟨_, he⟩
        exact (allResolved_statements ht).1 this
    · rintro ⟨hc, ht, he⟩
      obtain ⟨test, hc⟩ := succeeds_condition.2 hc
      obtain ⟨⟨thenCode, r⟩, ht⟩ := (succeeds_statements b thenBody depth).2 ht
      rw [statement_branch, hc, inner_eq, ht]
      show Succeeds (if elseBody.isEmpty then _ else _)
      split
      · exact succeeds_ok
      · refine (succeeds_bind_of fun _ => succeeds_ok).2 ?_
        refine (succeeds_bind_of fun _ => succeeds_ok).2 ?_
        refine (succeeds_statements b elseBody depth).2 ?_
        exact (allResolved_statements ht).2 he
  | .repeat_ line times body, depth, p => by
    rw [statement_repeat, succeeds_bind_of fun _ => succeeds_ok, inner_eq,
      succeeds_bind_of fun _ => succeeds_ok, succeeds_statements b body, Statement.flatten,
      allResolved_cons]
    simp only [Statement.binds?, Option.toList_none, List.append_nil, iff_and_self]
    exact fun _ => ⟨by simp [Statement.targets], nofun⟩
  | .forEach line item collection body, depth, p => by
    rw [statement_forEach, succeeds_bind_of fun _ => succeeds_ok, inner_eq,
      succeeds_bind_of fun _ => succeeds_ok, succeeds_statements b body, Statement.flatten,
      allResolved_cons, allResolved_bind]
    simp only [Statement.binds?, Option.toList_some, iff_and_self]
    exact fun _ => ⟨by simp [Statement.targets], nofun⟩

theorem succeeds_statements (b : Setting) : ∀ (body : List Statement) (depth : Nat) {p : Progress},
    Succeeds (statements b depth body p) ↔ AllResolved b.all p.scope (Statement.flattenAll body)
  | [], _, p => iff_of_true succeeds_ok (by
      simp [AllResolved, Statement.inScope, Statement.flattenAll])
  | s :: rest, depth, p => by
    rw [statements_cons, succeeds_bind, Statement.flattenAll, allResolved_append,
      ← succeeds_statement b s depth, ← Statement.bound_eq]
    constructor
    · rintro ⟨⟨code, r⟩, hs, h⟩
      refine ⟨⟨_, hs⟩, (allResolved_statement hs).1 ((succeeds_statements b rest depth).1 ?_)⟩
      exact (succeeds_bind_of fun _ => succeeds_ok).1 h
    · rintro ⟨⟨⟨code, r⟩, hs⟩, h⟩
      refine ⟨(code, r), hs, (succeeds_bind_of fun _ => succeeds_ok).2 ?_⟩
      exact (succeeds_statements b rest depth).2 ((allResolved_statement hs).2 h)

end

/-! ## Bodies and files -/

theorem succeeds_body {o : BodyOwner} {bound : List String} :
    Succeeds (Generate.body all o bound body) ↔ ResolvedBody all bound body := by
  rw [resolvedBody_iff]
  refine (succeeds_bind_of fun _ => succeeds_ok).trans ?_
  exact succeeds_statements ⟨all, o.defaultPage, o.uses, hoistedNames bound body⟩ body 0

theorem succeeds_methods {page : Option String} {actions : List Action} :
    Succeeds (actions.mapM (method all page)) ↔
      ∀ a ∈ actions, ResolvedBody all a.parameters a.body := by
  rw [succeeds_mapM]
  exact forall_congr' fun a => forall_congr' fun _ =>
    (succeeds_bind_of fun _ => succeeds_ok).trans succeeds_body

theorem succeeds_pageFixtures {pages : List Page} :
    Succeeds ((pages.filter hasObject).mapM (pageFixture all)) ↔
      ∀ p ∈ pages, ∀ a ∈ p.actions, ResolvedBody all a.parameters a.body := by
  have hf : ∀ p, Succeeds (pageFixture all p) ↔
      ∀ a ∈ p.actions, ResolvedBody all a.parameters a.body := fun p =>
    (succeeds_bind_of fun _ => succeeds_ok).trans succeeds_methods
  simp only [succeeds_mapM, List.mem_filter, hf]
  refine ⟨fun h p hp a ha => h p ⟨hp, ?_⟩ a ha, fun h p hp => h p hp.1⟩
  -- a page without an object has no actions
  have : p.actions ≠ [] := List.ne_nil_of_mem ha
  simp [hasObject, this]

theorem succeeds_libraryFixtures {libraries : List Library} :
    Succeeds (libraries.mapM (libraryFixture all)) ↔
      ∀ l ∈ libraries, ∀ a ∈ l.actions, ResolvedBody all a.parameters a.body := by
  rw [succeeds_mapM]
  exact forall_congr' fun l => forall_congr' fun _ =>
    (succeeds_bind_of fun _ => succeeds_ok).trans succeeds_methods

theorem succeeds_suite {combinations : List Combination} {f : Feature} {scenarios : List Scenario} :
    Succeeds (suite all combinations f scenarios) ↔
      (∀ h ∈ f.hooks, ResolvedBody all [] h.body) ∧
      ∀ s ∈ scenarios, ∀ v ∈ variants combinations,
        ResolvedBody all (v.2.map (·.1)) s.body := by
  have ht : Succeeds (scenarios.mapM (tests all f combinations)) ↔
      ∀ s ∈ scenarios, ∀ v ∈ variants combinations,
        ResolvedBody all (v.2.map (·.1)) s.body := by
    simp only [succeeds_mapM, tests]
    refine forall_congr' fun s => forall_congr' fun _ => forall_congr' fun v =>
      forall_congr' fun _ => ?_
    refine (succeeds_bind_of fun _ => succeeds_ok).trans ?_
    exact (succeeds_bind_of fun _ => succeeds_ok).trans succeeds_body
  have hh : Succeeds (f.hooks.mapM (hook all (f.uses.map (·.name)))) ↔
      ∀ h ∈ f.hooks, ResolvedBody all [] h.body := by
    rw [succeeds_mapM]
    exact forall_congr' fun h => forall_congr' fun _ =>
      (succeeds_bind_of fun _ => succeeds_ok).trans succeeds_body
  rw [suite, succeeds_bind, ← hh, ← ht]
  constructor
  · rintro ⟨hooks, hr, h⟩
    exact ⟨⟨hooks, hr⟩, (succeeds_bind_of fun _ => succeeds_ok).1 h⟩
  · rintro ⟨⟨hooks, hr⟩, h⟩
    exact ⟨hooks, hr, (succeeds_bind_of fun _ => succeeds_ok).2 h⟩

/-- Code is generated for a program if all bodies that are written are resolved: those of the
    actions that are needed, and those of the hooks and tests of features with selected scenarios.
-/
theorem succeeds_generate {context : Project} {request : Request} {p : Program} :
    Succeeds (generate context request p) ↔
      (∀ page ∈ neededPages (context.extend p) p, ∀ a ∈ page.actions,
        ResolvedBody (context.extend p) a.parameters a.body) ∧
      (∀ l ∈ neededLibraries (context.extend p) p, ∀ a ∈ l.actions,
        ResolvedBody (context.extend p) a.parameters a.body) ∧
      ∀ x ∈ selectedScenarios request.selection p.features,
        (∀ h ∈ x.1.hooks, ResolvedBody (context.extend p) [] h.body) ∧
        ∀ s ∈ x.2, ∀ v ∈ variants request.combinations,
          ResolvedBody (context.extend p) (v.2.map (·.1)) s.body := by
  have hx : Succeeds ((selectedScenarios request.selection p.features).mapM
      fun x => suite (context.extend p) request.combinations x.1 x.2) ↔ _ :=
    succeeds_mapM.trans (forall_congr' fun x => forall_congr' fun _ => succeeds_suite)
  rw [generate, succeeds_bind, ← succeeds_pageFixtures, ← succeeds_libraryFixtures, ← hx]
  constructor
  · rintro ⟨pages, hp, h⟩
    obtain ⟨libraries, hl, h⟩ := succeeds_bind.1 h
    exact ⟨⟨pages, hp⟩, ⟨libraries, hl⟩, (succeeds_bind_of fun _ => succeeds_ok).1 h⟩
  · rintro ⟨⟨pages, hp⟩, ⟨libraries, hl⟩, h⟩
    exact ⟨pages, hp, succeeds_bind.2 ⟨libraries, hl, (succeeds_bind_of fun _ => succeeds_ok).2 h⟩⟩

/-- What a generated file and the account of it are made of. -/
theorem generate_cases {context : Project} {request : Request} {p : Program} {g : Generated}
    (h : generate context request p = .ok g) : ∃ pageObjects libraryObjects suites,
      ((neededPages (context.extend p) p).filter hasObject).mapM (pageFixture (context.extend p)) =
        .ok pageObjects ∧
      (neededLibraries (context.extend p) p).mapM (libraryFixture (context.extend p)) =
        .ok libraryObjects ∧
      ((selectedScenarios request.selection p.features).mapM fun x =>
        suite (context.extend p) request.combinations x.1 x.2) = .ok suites ∧
      g.file.fixtures = pageObjects ++ libraryObjects ∧ g.file.suites = suites.map (·.1) ∧
      g.cases = suites.flatMap (·.2) := by
  obtain ⟨pageObjects, hp, h⟩ := bind_eq_ok.1 h
  obtain ⟨libraryObjects, hl, h⟩ := bind_eq_ok.1 h
  obtain ⟨suites, hs, h⟩ := bind_eq_ok.1 h
  cases h
  exact ⟨pageObjects, libraryObjects, suites, hp, hl, hs, rfl, rfl, rfl⟩

end Generate

end UiScenario
