import UiScenario.Code.Statement

/-!
Generated code as block-structured code: which names its expressions read, which names its
statements bind and write, and which bindings are visible where.
-/

namespace UiScenario.Code

namespace Expr

mutual

/-- The names that an expression reads. The parameter of a function is its own. -/
@[simp]
def names : Expr → List String
  | name n => [n]
  | text _ | integer _ | number _ | flag _ | null | containing _ | regex _ => []
  | array items => namesAll items
  | object members => memberNames members
  | member o _ => names o
  | index o i => names o ++ names i
  | call f arguments => names f ++ namesAll arguments
  | new f arguments => f :: namesAll arguments
  | await e | not e | paren e => names e
  | binary _ l r => names l ++ names r
  | arrow p e => (names e).filter (· != p)
  | procedure steps => namesAll steps

@[simp]
def namesAll : List Expr → List String
  | [] => []
  | e :: rest => names e ++ namesAll rest

/-- The names that the members of an object read. -/
@[simp]
def memberNames : List (String × Expr) → List String
  | [] => []
  | (_, e) :: rest => names e ++ memberNames rest

end

@[simp]
theorem namesAll_eq (es : List Expr) : namesAll es = es.flatMap names := by
  induction es with
  | nil => rfl
  | cons e rest ih => simp [ih]

@[simp]
theorem memberNames_eq (ms : List (String × Expr)) : memberNames ms = ms.flatMap (·.2.names) := by
  induction ms with
  | nil => rfl
  | cons m rest ih => simp [ih]

end Expr

namespace Statement

/-- The names that a statement declares as variables. -/
def lets : Statement → List String
  | declare names => names
  | let_ name _ => [name]
  | _ => []

/-- The names that a statement declares as constants. -/
def consts : Statement → List String
  | const name _ => [name]
  | _ => []

/-- The counter of a loop, which is bound inside the loop. -/
def counters : Statement → List String
  | count counter _ _ => [counter]
  | _ => []

/-- The names that are bound behind a statement in its block. -/
def declares (s : Statement) : List String :=
  s.lets ++ s.consts

def binds (s : Statement) : List String :=
  s.declares ++ s.counters

/-- The names that a statement assigns itself. -/
def writes : Statement → List String
  | assign name _ => [name]
  | forOf item _ _ => [item]
  | _ => []

def reads : Statement → List String
  | eval e | let_ _ e | const _ e | assign _ e | branch e _ | choice e _ _ => e.names
  | count counter bound _ => counter :: bound.names
  | forOf _ collection _ => [collection]
  | declare _ => []

/-- Whether a statement declares a name with a first value. -/
def isInitialized : Statement → Bool
  | let_ _ _ | const _ _ => true
  | _ => false

def isVariable : Statement → Bool
  | declare _ | let_ _ _ => true
  | _ => false

/-- Whether a statement does nothing but declare names. -/
def isDeclaration : Statement → Bool
  | declare _ | let_ _ _ | const _ _ => true
  | _ => false

end Statement

structure Visit where
  depth : Nat
  /-- The names that are bound in front of it, in its block and in the blocks around it. -/
  visible : List String
  statement : Statement

mutual

/-- The statements inside a statement, each before those inside it. -/
def inside (depth : Nat) (visible : List String) : Statement → List Visit
  | .branch _ thenBody => visitAll (depth + 1) visible thenBody
  | .choice _ thenBody elseBody =>
    visitAll (depth + 1) visible thenBody ++ visitAll (depth + 1) visible elseBody
  | .count counter _ body => visitAll (depth + 1) (visible ++ [counter]) body
  | .forOf _ _ body => visitAll (depth + 1) visible body
  | .eval _ | .declare _ | .let_ _ _ | .const _ _ | .assign _ _ => []

/-- The statements of a block and all statements inside them, in reading order. -/
def visitAll (depth : Nat) (visible : List String) : List Statement → List Visit
  | [] => []
  | s :: rest =>
    ⟨depth, visible, s⟩ ::
      (inside depth visible s ++ visitAll depth (visible ++ s.declares) rest)

end

theorem visitAll_append (depth : Nat) (visible : List String) (xs ys : List Statement) :
    visitAll depth visible (xs ++ ys) =
      visitAll depth visible xs ++
        visitAll depth (visible ++ xs.flatMap Statement.declares) ys := by
  induction xs generalizing visible with
  | nil => simp [visitAll]
  | cons s xs ih => simp [visitAll, ih]

mutual

/-- What is bound in front of a statement is visible in the statements inside it, which are in
    further blocks. -/
theorem visible_inside (depth : Nat) (visible : List String) :
    ∀ s, ∀ v ∈ inside depth visible s, depth < v.depth ∧ visible ⊆ v.visible
  | .branch _ thenBody | .forOf _ _ thenBody => visible_visitAll (depth + 1) visible thenBody
  | .choice _ thenBody elseBody => fun v hv => (List.mem_append.1 hv).elim
      (visible_visitAll (depth + 1) visible thenBody v)
      (visible_visitAll (depth + 1) visible elseBody v)
  | .count counter _ body => fun v hv =>
    have h := visible_visitAll (depth + 1) (visible ++ [counter]) body v hv
    ⟨h.1, List.Subset.trans (List.subset_append_left ..) h.2⟩
  | .eval _ | .declare _ | .let_ _ _ | .const _ _ | .assign _ _ => nofun

theorem visible_visitAll (depth : Nat) (visible : List String) :
    ∀ body, ∀ v ∈ visitAll depth visible body, depth ≤ v.depth ∧ visible ⊆ v.visible
  | [] => nofun
  | s :: rest => by
    intro v hv
    rw [visitAll, List.mem_cons, List.mem_append] at hv
    rcases hv with rfl | hv | hv
    · exact ⟨Nat.le_refl _, List.Subset.refl _⟩
    · exact (visible_inside depth visible s v hv).imp Nat.le_of_lt id
    · have h := visible_visitAll depth (visible ++ s.declares) rest v hv
      exact ⟨h.1, List.Subset.trans (List.subset_append_left ..) h.2⟩

end

theorem exists_visit {depth : Nat} {visible : List String} {body : List Statement} {s : Statement}
    (h : s ∈ body) : ∃ v ∈ visitAll depth visible body, v.statement = s := by
  induction body generalizing visible with
  | nil => cases h
  | cons c rest ih =>
    rcases List.mem_cons.1 h with rfl | h
    · exact ⟨_, List.mem_cons_self .., rfl⟩
    · obtain ⟨v, hv, e⟩ := @ih (visible ++ c.declares) h
      exact ⟨v, List.mem_cons_of_mem _ (List.mem_append_right _ hv), e⟩

theorem visitAll_declarations {depth : Nat} {visible : List String} {body : List Statement}
    (h : ∀ s ∈ body, s.isDeclaration = true) :
    (∀ v ∈ visitAll depth visible body, v.depth = depth ∧ v.statement ∈ body) ∧
    (visitAll depth visible body).flatMap (·.statement.binds) =
      body.flatMap Statement.declares := by
  induction body generalizing visible with
  | nil => exact ⟨nofun, rfl⟩
  | cons c rest ih =>
    obtain ⟨hv, hb⟩ := @ih (visible ++ c.declares) fun s hs => h s (List.mem_cons_of_mem _ hs)
    have hc : inside depth visible c = [] ∧ c.counters = [] := by
      have := h c (List.mem_cons_self ..)
      cases c <;> first | exact ⟨rfl, rfl⟩ | cases this
    rw [visitAll, hc.1, List.nil_append]
    constructor
    · intro v hm
      rcases List.mem_cons.1 hm with rfl | hm
      · exact ⟨rfl, List.mem_cons_self ..⟩
      · exact ⟨(hv v hm).1, List.mem_cons_of_mem _ (hv v hm).2⟩
    · rw [List.flatMap_cons, List.flatMap_cons, hb, Statement.binds, hc.2, List.append_nil]

/-- A statement with statements inside it declares nothing in its block. -/
theorem inside_eq_nil {depth : Nat} {visible : List String} {s : Statement} {x : String}
    (h : x ∈ s.declares) : inside depth visible s = [] := by
  cases s <;> first | rfl | cases h

/-- What a block declares itself is visible in all of it that follows, at any depth. -/
theorem visible_of_declares {depth : Nat} {visible : List String} {body : List Statement}
    {front behind : List Visit} {v w : Visit} {x : String}
    (e : visitAll depth visible body = front ++ v :: behind) (hw : w ∈ front)
    (hd : w.depth = depth) (hx : x ∈ w.statement.declares) : x ∈ v.visible := by
  induction body generalizing visible front with
  | nil => simp [visitAll] at e
  | cons s rest ih =>
    cases front with
    | nil => cases hw
    | cons u front =>
      rw [visitAll, List.cons_append, List.cons.injEq] at e
      obtain ⟨rfl, e⟩ := e
      -- the statement that declares is `s` itself or one behind it, for those inside `s` are deeper
      rcases List.mem_cons.1 hw with rfl | hw
      · rw [inside_eq_nil hx, List.nil_append] at e
        have hv : v ∈ visitAll depth (visible ++ s.declares) rest := by simp [e]
        exact (visible_visitAll _ _ _ v hv).2 (List.mem_append_right _ hx)
      · rcases List.append_eq_append_iff.1 e with ⟨more, rfl, er⟩ | ⟨more, hi, -⟩
        · rcases List.mem_append.1 hw with hw | hw
          · exact absurd hd (Nat.ne_of_gt (visible_inside _ _ _ w hw).1)
          · exact ih er hw
        · have : w ∈ inside depth visible s := hi ▸ List.mem_append_left _ hw
          exact absurd hd (Nat.ne_of_gt (visible_inside _ _ _ w this).1)

end UiScenario.Code
