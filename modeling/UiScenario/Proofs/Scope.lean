import UiScenario.Script.Program

/-!
Reading order and scope. The statements of a body are read from the front to the back, each before
the statements inside it, and a name is in scope in all that is read behind the statement that binds
it, at any depth.
-/

namespace UiScenario.Statement

/-- The name that a statement binds itself, without the statements inside it. -/
def binds? : Statement → Option String
  | step _ s => s.bound?
  | forEach _ item _ _ => some item
  | branch .. | repeat_ .. => none

/-- The statements of a list, each with the names in scope there: those of `scope`, and those that
    the statements in front of it bind. -/
def inScope (scope : List String) : List Statement → List (List String × Statement)
  | [] => []
  | s :: rest => (scope, s) :: inScope (scope ++ s.binds?.toList) rest

theorem inScope_append (scope : List String) (xs ys : List Statement) :
    inScope scope (xs ++ ys) = inScope scope xs ++ inScope (scope ++ xs.filterMap binds?) ys := by
  induction xs generalizing scope with
  | nil => simp [inScope]
  | cons s xs ih =>
    simp only [List.cons_append, inScope, ih, List.append_assoc]
    cases h : s.binds? <;> simp [h]

/-- What is in scope at a statement, in reading order. -/
theorem mem_inScope {scope : List String} {xs : List Statement} {names : List String}
    {s : Statement} :
    (names, s) ∈ inScope scope xs ↔
      ∃ front behind, xs = front ++ s :: behind ∧ names = scope ++ front.filterMap binds? := by
  constructor
  · intro h
    induction xs generalizing scope with
    | nil => simp [inScope] at h
    | cons x xs ih =>
      rcases List.mem_cons.1 h with h | h
      · cases h; exact ⟨[], xs, rfl, by simp⟩
      · obtain ⟨front, behind, rfl, rfl⟩ := ih h
        refine ⟨x :: front, behind, rfl, ?_⟩
        cases hx : x.binds? <;> simp [hx]
  · rintro ⟨front, behind, rfl, rfl⟩
    rw [inScope_append]
    exact List.mem_append_right _ (List.mem_cons_self ..)

mutual

theorem bound_eq : ∀ s : Statement, bound s = (flatten s).filterMap binds?
  | step _ s => by cases h : s.bound? <;> simp [bound, flatten, binds?, h]
  | branch _ _ thenBody elseBody => by
    simp [bound, flatten, binds?, boundAll_eq thenBody, boundAll_eq elseBody, List.filterMap_cons]
  | repeat_ _ _ body => by simp [bound, flatten, binds?, boundAll_eq body, List.filterMap_cons]
  | forEach _ item _ body => by simp [bound, flatten, binds?, boundAll_eq body]

/-- A body binds the names that its statements bind, in reading order. -/
theorem boundAll_eq : ∀ body : List Statement, boundAll body = (flattenAll body).filterMap binds?
  | [] => rfl
  | s :: rest => by simp [boundAll, flattenAll, bound_eq s, boundAll_eq rest]

end

end UiScenario.Statement
