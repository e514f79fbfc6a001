import Mathlib.Data.List.Forall2
import UiScenario.Proofs.Resolution

/-!
The way through a body. The statements of a body are gone over twice: they are checked, and their
code is generated. On both ways it depends on the names in scope whether a qualifier is a variable
or a page.
-/

namespace UiScenario

namespace Generate

/-! ## Generating code with a log -/

/-- The statements that generating code came to, each with what had changed by then. -/
abbrev Log := List (Progress × Statement)

/-- Generating code, with a log. -/
def Walk (α : Type) : Type :=
  Progress → Log × Except Violation (α × Progress)

namespace Walk

variable {α β : Type}

/-- Generating code without coming to a statement. -/
def lift (g : Gen α) : Walk α :=
  fun p => ([], g p)

def comeTo (s : Statement) : Walk Unit :=
  fun p => ([(p, s)], .ok ((), p))

/-- One walk behind the other, unless the first fails. -/
def andThen (w : Walk α) (f : α → Walk β) : Walk β := fun p =>
  ((w p).1 ++ ((w p).2.toOption.map fun r => (f r.1 r.2).1).getD [],
    (w p).2 >>= fun r => (f r.1 r.2).2)

instance : Monad Walk where
  pure a := lift (pure a)
  bind := andThen

/-- Walks through an inner block. -/
def inner (w : Walk α) : Walk α := do
  let root := (← lift get).root
  let code ← w
  lift (modify fun p => { p with root })
  return code

mutual

def statement (b : Setting) (depth : Nat) : Statement → Walk (List Code.Statement)
  | .step line s => do
    comeTo (.step line s)
    lift (step b line s)
  | .branch line c thenBody elseBody => do
    comeTo (.branch line c thenBody elseBody)
    let test ← lift do liftM (condition b (← get) line c)
    let thenCode ← inner (statements b depth thenBody)
    if elseBody.isEmpty then return [.branch test thenCode]
    let elseCode ← inner (statements b depth elseBody)
    return [.choice test thenCode elseCode]
  | .repeat_ line times body => do
    comeTo (.repeat_ line times body)
    let bound := expression b (← lift get) times
    let code ← inner (statements b (depth + 1) body)
    return [.count (counterName depth) bound code]
  | .forEach line item collection body => do
    comeTo (.forEach line item collection body)
    lift (modify (·.bind item))
    let code ← inner (statements b depth body)
    return [.forOf item collection code]

def statements (b : Setting) (depth : Nat) : List Statement → Walk (List Code.Statement)
  | [] => return []
  | s :: rest => do
    let code ← statement b depth s
    return code ++ (← statements b depth rest)

end

theorem result_bind (w : Walk α) (f : α → Walk β) (p : Progress) :
    ((w >>= f) p).2 = (w p).2 >>= fun r => (f r.1 r.2).2 :=
  rfl

theorem result_inner (w : Walk α) (g : Gen α) (p : Progress) (h : (w p).2 = g p) :
    (inner w p).2 = Generate.inner g p := by
  rw [inner_eq, ← h]
  rfl

mutual

theorem result_statement (b : Setting) : ∀ (s : Statement) (depth : Nat) (p : Progress),
    (statement b depth s p).2 = Generate.statement b depth s p
  | .step line s, depth, p => by
    rw [statement, Generate.statement]
    rfl
  | .branch line c thenBody elseBody, depth, p => by
    rw [statement, statement_branch]
    cases hc : condition b p line c with
    | error e =>
      show (condition b p line c >>= _) >>= _ = _
      rw [hc]
      rfl
    | ok test =>
      show (condition b p line c >>= _) >>= _ = _
      rw [hc]
      show (inner (statements b depth thenBody) p).2 >>= _ = _
      rw [result_inner _ _ p (result_statements b thenBody depth p)]
      refine bind_congr fun r => ?_
      cases elseBody.isEmpty with
      | true => rfl
      | false =>
        show (inner (statements b depth elseBody) r.2).2 >>= _ = _
        rw [result_inner _ _ r.2 (result_statements b elseBody depth r.2)]
        rfl
  | .repeat_ line times body, depth, p => by
    rw [statement, statement_repeat, ← result_inner _ _ p (result_statements b body _ p)]
    rfl
  | .forEach line item collection body, depth, p => by
    rw [statement, statement_forEach, ← result_inner _ _ _ (result_statements b body _ _)]
    rfl

theorem result_statements (b : Setting) : ∀ (body : List Statement) (depth : Nat) (p : Progress),
    (statements b depth body p).2 = Generate.statements b depth body p
  | [], depth, p => by
    rw [statements, Generate.statements]
    rfl
  | s :: rest, depth, p => by
    rw [statements, statements_cons, ← result_statement b s, result_bind]
    refine bind_congr fun r => ?_
    rw [result_bind, result_statements b rest]
    rfl

end

end Walk

/-! ## What a walk comes to -/

/-- The same statement, with the same names in scope but for those that are given in addition. -/
structure Same (given : List String) (x : List String × Statement) (y : Progress × Statement) :
    Prop where
  statement : y.2 = x.2
  names : ∀ n, n ∈ y.1.scope ↔ n ∈ x.1 ∨ n ∈ given
  /-- Where nothing is given, the same qualifiers are variables. -/
  qualifiers : given = [] → ∀ q, y.1.hasVariable q = x.1.contains q

/-- A walk comes to the listed statements in their order, to all of them if it does not fail. -/
def Follows {α : Type} (given : List String) (visited : List (List String × Statement))
    (r : Log × Except Violation α) : Prop :=
  ∃ front behind, visited = front ++ behind ∧ List.Forall₂ (Same given) front r.1 ∧
    (Succeeds r.2 → behind = [])

theorem same_of_names {given scope : List String} {p : Progress}
    (hp : ∀ n, n ∈ p.scope ↔ n ∈ scope ∨ n ∈ given) (s : Statement) :
    Same given (scope, s) (p, s) := by
  refine ⟨rfl, hp, ?_⟩
  rintro rfl q
  simp [Progress.hasVariable, hp]

namespace Walk

section
variable {α β : Type} {given scope : List String} {p : Progress}

theorem follows_lift {g : Gen α} : Follows given (Statement.inScope scope []) (lift g p) :=
  ⟨[], [], rfl, .nil, fun _ => rfl⟩

theorem follows_comeTo {s : Statement} (hp : ∀ n, n ∈ p.scope ↔ n ∈ scope ∨ n ∈ given) :
    Follows given (Statement.inScope scope [s]) (comeTo s p) :=
  ⟨[(scope, s)], [], rfl, .cons (same_of_names hp s) .nil, fun _ => rfl⟩

/-- What the first walk binds is in scope on the second. -/
theorem follows_bind {w : Walk α} {f : α → Walk β} {x y : List Statement}
    (hw : Follows given (Statement.inScope scope x) (w p))
    (hf : ∀ a q, (w p).2 = .ok (a, q) →
      Follows given (Statement.inScope (scope ++ x.filterMap Statement.binds?) y) (f a q)) :
    Follows given (Statement.inScope scope (x ++ y)) ((w >>= f) p) := by
  obtain ⟨front, behind, hx, hlog, hall⟩ := hw
  rw [Statement.inScope_append, hx]
  show Follows given _ ((w p).1 ++ _, (w p).2 >>= _)
  cases hr : (w p).2 with
  | error e =>
    refine ⟨front, _, List.append_assoc .., ?_, fun h => (not_succeeds_error h).elim⟩
    simpa [Except.toOption] using hlog
  | ok r =>
    obtain ⟨a, q⟩ := r
    obtain ⟨front', behind', hy, hlog', hall'⟩ := hf a q hr
    rw [hall ⟨_, hr⟩, hy, List.append_nil]
    refine ⟨front ++ front', behind', (List.append_assoc ..).symm, ?_, hall'⟩
    exact List.rel_append hlog hlog'

theorem follows_inner {w : Walk α} {xs : List Statement}
    (hw : Follows given (Statement.inScope scope xs) (w p)) :
    Follows given (Statement.inScope scope xs) (inner w p) := by
  have h := follows_bind (f := fun code => lift (modify fun q => { q with root := p.root }) >>=
    fun _ => (pure code : Walk α)) (y := []) hw fun _ _ _ =>
      follows_bind (x := []) (y := []) follows_lift fun _ _ _ => follows_lift
  rw [List.append_nil] at h
  exact h

end

section
variable {given scope : List String} {p q : Progress} {b : Setting} {depth : Nat}
  {code : List Code.Statement}

theorem names_statement {s : Statement} (hp : ∀ n, n ∈ p.scope ↔ n ∈ scope ∨ n ∈ given)
    (h : (statement b depth s p).2 = .ok (code, q)) (n : String) :
    n ∈ q.scope ↔ n ∈ scope ++ s.flatten.filterMap Statement.binds? ∨ n ∈ given := by
  rw [result_statement] at h
  rw [(lays_statement s h).mem_scope, hp, Statement.boundAll_eq, Statement.flattenAll,
    Statement.flattenAll, List.append_nil, List.mem_append]
  exact or_right_comm

theorem names_inner {body : List Statement} (hp : ∀ n, n ∈ p.scope ↔ n ∈ scope ∨ n ∈ given)
    (h : (inner (statements b depth body) p).2 = .ok (code, q)) (n : String) :
    n ∈ q.scope ↔
      n ∈ scope ++ (Statement.flattenAll body).filterMap Statement.binds? ∨ n ∈ given := by
  rw [result_inner _ _ p (result_statements b body depth p)] at h
  obtain ⟨r, hr, rfl⟩ := inner_cases h
  show n ∈ r.scope ↔ _
  rw [(lays_statements body hr).mem_scope, hp, Statement.boundAll_eq, List.mem_append]
  exact or_right_comm

end

mutual

theorem follows_statement (b : Setting) {given : List String} : ∀ (s : Statement) (depth : Nat)
    {scope : List String} {p : Progress}, (∀ n, n ∈ p.scope ↔ n ∈ scope ∨ n ∈ given) →
    Follows given (Statement.inScope scope s.flatten) (statement b depth s p)
  | .step line s, _, scope, p, hp => by
    rw [statement, Statement.flatten]
    exact follows_bind (y := []) (follows_comeTo hp) fun _ _ _ => follows_lift
  | .branch line c thenBody elseBody, depth, scope, p, hp => by
    rw [statement, Statement.flatten]
    refine follows_bind (x := [_]) (follows_comeTo hp) ?_
    rintro _ _ ⟨⟩
    refine follows_bind (x := []) follows_lift fun test q hq => ?_
    have hq : ∀ n, n ∈ q.scope ↔ n ∈ scope ∨ n ∈ given := by
      obtain ⟨_, -, hq⟩ := bind_eq_ok.1 hq
      cases hq
      exact hp
    simp only [List.filterMap_cons, Statement.binds?, List.filterMap_nil, List.append_nil]
    refine follows_bind (follows_inner (follows_statements b thenBody depth hq)) fun _ r hr => ?_
    split
    · next he =>
      rw [List.isEmpty_iff.1 he]
      exact follows_lift
    · rw [← List.append_nil (Statement.flattenAll elseBody)]
      refine follows_bind ?_ fun _ _ _ => follows_lift
      exact follows_inner (follows_statements b elseBody depth (names_inner hq hr))
  | .repeat_ line times body, depth, scope, p, hp => by
    rw [statement, Statement.flatten]
    refine follows_bind (x := [_]) (follows_comeTo hp) ?_
    rintro _ _ ⟨⟩
    refine follows_bind (x := []) follows_lift ?_
    rintro _ _ ⟨⟩
    simp only [List.filterMap_cons, Statement.binds?, List.filterMap_nil, List.append_nil]
    rw [← List.append_nil (Statement.flattenAll body)]
    refine follows_bind ?_ fun _ _ _ => follows_lift
    exact follows_inner (follows_statements b body _ hp)
  | .forEach line item collection body, depth, scope, p, hp => by
    rw [statement, Statement.flatten]
    refine follows_bind (x := [_]) (follows_comeTo hp) ?_
    rintro _ _ ⟨⟩
    refine follows_bind (x := []) follows_lift ?_
    rintro _ _ ⟨⟩
    simp only [List.filterMap_cons, Statement.binds?, List.filterMap_nil, List.append_nil]
    rw [← List.append_nil (Statement.flattenAll body)]
    refine follows_bind ?_ fun _ _ _ => follows_lift
    refine follows_inner (follows_statements b body _ fun n => ?_)
    rw [mem_scope_bind, hp, List.mem_append, List.mem_singleton]
    exact or_right_comm

/-- A walk through a body comes to its statements, each in the scope of the names that are bound in
    front of it. -/
theorem follows_statements (b : Setting) {given : List String} : ∀ (body : List Statement)
    (depth : Nat) {scope : List String} {p : Progress},
    (∀ n, n ∈ p.scope ↔ n ∈ scope ∨ n ∈ given) →
    Follows given (Statement.inScope scope (Statement.flattenAll body)) (statements b depth body p)
  | [], _, _, _, _ => by
    rw [statements, Statement.flattenAll]
    exact follows_lift
  | s :: rest, depth, scope, p, hp => by
    rw [statements, Statement.flattenAll]
    refine follows_bind (follows_statement b s depth hp) fun _ q hq => ?_
    rw [← List.append_nil (Statement.flattenAll rest)]
    refine follows_bind ?_ fun _ _ _ => follows_lift
    exact follows_statements b rest depth (names_statement hp hq)

end

end Walk

/-! ## Bodies -/

def bodyWalk (all : Project) (o : BodyOwner) (bound : List String)
    (statementList : List Statement) : Log × Except Violation (List Code.Statement) :=
  let hoisted := hoistedNames bound statementList
  let fresh := hoisted.filter (!bound.contains ·)
  let setting : Setting := ⟨all, o.defaultPage, o.uses, hoisted⟩
  let (log, result) := Walk.statements setting 0 statementList (.start bound)
  (log, do
    let (code, _) ← result
    return (if fresh.isEmpty then [] else [.declare fresh]) ++ code)

theorem result_bodyWalk (all : Project) (o : BodyOwner) (bound : List String)
    (body : List Statement) : (bodyWalk all o bound body).2 = Generate.body all o bound body := by
  unfold bodyWalk Generate.body
  dsimp only
  rw [Walk.result_statements]
  rfl

theorem follows_bodyWalk (all : Project) (o : BodyOwner) (body : List Statement)
    {bound scope given : List String} (h : ∀ n, n ∈ bound ↔ n ∈ scope ∨ n ∈ given) :
    Follows given (Statement.inScope scope (Statement.flattenAll body))
      (bodyWalk all o bound body) := by
  obtain ⟨front, behind, hx, hlog, hall⟩ := Walk.follows_statements
    ⟨all, o.defaultPage, o.uses, hoistedNames bound body⟩ body 0 (p := .start bound) h
  exact ⟨front, behind, hx, hlog, fun hr => hall ((succeeds_bind_of fun _ => succeeds_ok).1 hr)⟩

/-- Code is made of what a walk generates. -/
def MadeOf {α β : Type} (x : Except Violation β) (r : Log × Except Violation α) : Prop :=
  ∃ make : α → β, x = make <$> r.2

theorem madeOf_bodyWalk {β : Type} {all : Project} {o : BodyOwner} {bound : List String}
    {body : List Statement} {make : List Code.Statement → β} :
    MadeOf (Generate.body all o bound body >>= fun code => pure (make code))
      (bodyWalk all o bound body) := by
  refine ⟨make, ?_⟩
  rw [result_bodyWalk]
  cases Generate.body all o bound body <;> rfl

end Generate

namespace Validation

/-- The statements of a body in the order in which they are checked, each with the names in scope
    there. -/
def visited (scope : List String) (body : List Statement) : List (List String × Statement) :=
  Statement.inScope scope (Statement.flattenAll body)

/-- The findings about statements themselves. -/
def findings (all : Project) (o : Owner) (xs : List (List String × Statement)) : List Problem :=
  xs.flatMap fun x => checkHere all o x.1 x.2

theorem checkActions_eq (all : Project) (o : Owner) (actions : List Action) :
    checkActions all o actions =
      actions.flatMap fun a => findings all o (visited a.parameters a.body) := by
  simp only [checkActions, checkBody_eq]
  rfl

theorem checkFeature_eq (all : Project) (f : Feature) :
    checkFeature all f = checkUses all f.uses ++
      f.hooks.flatMap (fun h => findings all (featureOwner f) (visited [] h.body)) ++
      f.scenarios.flatMap (fun s => findings all (featureOwner f) (visited [] s.body)) := by
  simp only [checkFeature, checkBody_eq]
  rfl

end Validation

open Generate Validation in
/-- **Scopes agree.** The statements of an action, a hook or a scenario are checked with the same
    names in scope with which their code is generated; in a test, the names of its parameters come
    in addition. But for its log, a walk generates what is generated without one. -/
theorem scopes_agree (all : Project) :
    (∀ (o : BodyOwner) (bound : List String) (body : List Statement),
      (bodyWalk all o bound body).2 = Generate.body all o bound body) ∧
    (∀ (o : Owner) (actions : List Action), checkActions all o actions =
      actions.flatMap fun a => findings all o (visited a.parameters a.body)) ∧
    (∀ (page : Option String) (a : Action),
      MadeOf (method all page a) (bodyWalk all ⟨page, []⟩ a.parameters a.body) ∧
      Follows [] (visited a.parameters a.body) (bodyWalk all ⟨page, []⟩ a.parameters a.body)) ∧
    (∀ f : Feature, checkFeature all f = checkUses all f.uses ++
      f.hooks.flatMap (fun h => findings all (featureOwner f) (visited [] h.body)) ++
      f.scenarios.flatMap (fun s => findings all (featureOwner f) (visited [] s.body))) ∧
    (∀ (uses : List String) (h : Hook),
      MadeOf (Generate.hook all uses h) (bodyWalk all ⟨none, uses⟩ [] h.body) ∧
      Follows [] (visited [] h.body) (bodyWalk all ⟨none, uses⟩ [] h.body)) ∧
    (∀ (uses : List String) (s : Scenario) (values : List (String × ParamValue)),
      MadeOf (testBody all uses s values) (bodyWalk all ⟨none, uses⟩ (values.map (·.1)) s.body) ∧
      Follows (values.map (·.1)) (visited [] s.body)
        (bodyWalk all ⟨none, uses⟩ (values.map (·.1)) s.body)) := by
  refine ⟨result_bodyWalk all, checkActions_eq all, fun page a => ⟨?_, ?_⟩, checkFeature_eq all,
    fun uses h => ⟨?_, ?_⟩, fun uses s values => ⟨?_, ?_⟩⟩
  · exact madeOf_bodyWalk
  · exact follows_bodyWalk _ _ _ (by simp)
  · exact madeOf_bodyWalk
  · exact follows_bodyWalk _ _ _ (by simp)
  · exact madeOf_bodyWalk
  · exact follows_bodyWalk _ _ _ (by simp)

end UiScenario
