import Mathlib.Data.List.DropRight
import UiScenario.Proofs.Conditions
import UiScenario.Proofs.SteadyGrammar

/-!
The conditions of a query are joined strictly from left to right, and so is its predicate, although
in generated code `&&` goes before `||`.
-/

namespace UiScenario

namespace Code

/-! ## Formulas -/

inductive Formula (α : Type) where
  | atom (a : α)
  | and (left right : Formula α)
  | or (left right : Formula α)

namespace Formula

variable {α β : Type}

def atoms : Formula α → List α
  | atom a => [a]
  | and l r | or l r => l.atoms ++ r.atoms

/-- The value of a formula, given the values of its operands. -/
def eval (v : α → Bool) : Formula α → Bool
  | atom a => v a
  | and l r => l.eval v && r.eval v
  | or l r => l.eval v || r.eval v

/-- A formula whose operands are formulas themselves. -/
def bind (f : α → Formula β) : Formula α → Formula β
  | atom a => f a
  | and l r => and (l.bind f) (r.bind f)
  | or l r => or (l.bind f) (r.bind f)

/-- Two formulas joined by the sign for a word. -/
def join : LogicalOp → Formula α → Formula α → Formula α
  | .and => and
  | .or => or

theorem eval_bind (f : α → Formula β) (v : β → Bool) (x : Formula α) :
    (x.bind f).eval v = x.eval fun a => (f a).eval v := by
  induction x with
  | atom a => rfl
  | and l r hl hr => simp only [bind, eval, hl, hr]
  | or l r hl hr => simp only [bind, eval, hl, hr]

theorem bind_join (f : α → Formula β) (op : LogicalOp) (l r : Formula α) :
    (join op l r).bind f = join op (l.bind f) (r.bind f) := by
  cases op <;> rfl

theorem atoms_join (op : LogicalOp) (l r : Formula α) :
    (join op l r).atoms = l.atoms ++ r.atoms := by
  cases op <;> rfl

end Formula

variable {cs rest : List Char} {f l r : Formula (List Char)} {c : Char} {fuel : Nat}

/-! ## Reading formulas -/

/-- Cuts off an operand: what stands in front of the first sign that ends it outside of brackets and
    of quoted texts. -/
def cutOperand : (depth : Nat) → Quoting → List Char → List Char × List Char
  | _, _, [] => ([], [])
  | depth, q, c :: cs =>
    if q = .outside ∧ depth = 0 ∧ endsOperand c = true then ([], c :: cs)
    else
      let (operand, rest) := cutOperand (if q = .outside then nest depth c else depth) (q.next c) cs
      (c :: operand, rest)

mutual

/-- Reads a formula in parentheses, or an operand. -/
def readUnit : (fuel : Nat) → List Char → Option (Formula (List Char) × List Char)
  | 0, _ => none
  | fuel + 1, cs =>
    match Json.skipSpaces cs with
    | '(' :: rest => do
      let (f, rest) ← readOr fuel rest
      match Json.skipSpaces rest with
      | ')' :: rest => some (f, Json.skipSpaces rest)
      | _ => none
    | cs =>
      let (operand, rest) := cutOperand 0 .outside cs
      if operand = [] then none else some (.atom (operand.rdropWhile Json.isSpace), rest)

/-- Reads what is joined by `&&` to the formula in front. -/
def readAnds : (fuel : Nat) → Formula (List Char) → List Char →
    Option (Formula (List Char) × List Char)
  | 0, _, _ => none
  | fuel + 1, left, cs =>
    match Json.skipSpaces cs with
    | '&' :: '&' :: rest => do
      let (right, rest) ← readUnit fuel rest
      readAnds fuel (.and left right) rest
    | _ => some (left, cs)

/-- Reads a formula that has `||` only in parentheses. -/
def readAnd : (fuel : Nat) → List Char → Option (Formula (List Char) × List Char)
  | 0, _ => none
  | fuel + 1, cs => do
    let (f, rest) ← readUnit fuel cs
    readAnds fuel f rest

/-- Reads what is joined by `||` to the formula in front. -/
def readOrs : (fuel : Nat) → Formula (List Char) → List Char →
    Option (Formula (List Char) × List Char)
  | 0, _, _ => none
  | fuel + 1, left, cs =>
    match Json.skipSpaces cs with
    | '|' :: '|' :: rest => do
      let (right, rest) ← readAnd fuel rest
      readOrs fuel (.or left right) rest
    | _ => some (left, cs)

def readOr : (fuel : Nat) → List Char → Option (Formula (List Char) × List Char)
  | 0, _ => none
  | fuel + 1, cs => do
    let (f, rest) ← readAnd fuel cs
    readOrs fuel f rest

end

/-- Reads a formula, and gives what stands behind it and behind blanks. -/
def readFormula (cs : List Char) : Option (Formula (List Char) × List Char) :=
  readOr (3 * cs.length + 3) cs

/-! ## Operands -/

theorem cutOperand_of_run {s s' : Scan} (h : s.run cs = some s') (rest : List Char) :
    cutOperand s.depth s.quoting (cs ++ rest) =
      (cs ++ (cutOperand s'.depth s'.quoting rest).1, (cutOperand s'.depth s'.quoting rest).2) := by
  induction cs generalizing s with
  | nil => cases h; rfl
  | cons c cs ih =>
    rw [Scan.run_cons] at h
    obtain ⟨t, hc, ht⟩ := Option.bind_eq_some_iff.1 h
    have hnext : t.quoting = s.quoting.next c ∧
        t.depth = (if s.quoting = .outside then nest s.depth c else s.depth) ∧
        ¬(s.quoting = .outside ∧ s.depth = 0 ∧ endsOperand c = true) := by
      unfold Scan.next at hc
      split at hc
      · next hq =>
        split at hc
        · cases hc
        · next hgo =>
          cases hc
          exact ⟨rfl, by rw [if_pos hq], fun hstop => hgo (.inl hstop.2)⟩
      · next hq =>
        cases hc
        exact ⟨rfl, by rw [if_neg hq], fun hstop => hq hstop.1⟩
    rw [List.cons_append, cutOperand, if_neg hnext.2.2, ← hnext.1, ← hnext.2.1, ih ht]
    rfl

theorem cutOperand_stop (h : endsOperand c = true) (cs : List Char) :
    cutOperand 0 .outside (c :: cs) = ([], c :: cs) := by
  rw [cutOperand, if_pos ⟨rfl, rfl, h⟩]

/-- What ends an operand: the end of the text, or a sign, perhaps behind a blank. -/
inductive Stopped : List Char → Prop
  | nil : Stopped []
  | sign {c : Char} {cs : List Char} : endsOperand c = true → Stopped (c :: cs)
  | blank {c : Char} {cs : List Char} : endsOperand c = true → Stopped (' ' :: c :: cs)

theorem not_isSpace_of_endsOperand (h : endsOperand c = true) : Json.isSpace c = false := by
  simp only [endsOperand, List.contains_eq_mem, List.mem_cons, List.not_mem_nil, or_false,
    decide_eq_true_eq] at h
  rcases h with rfl | rfl | rfl | rfl | rfl | rfl | rfl | rfl | rfl <;> rfl

theorem skipSpaces_sign (h : endsOperand c = true) (cs : List Char) :
    Json.skipSpaces (c :: cs) = c :: cs :=
  skipSpaces_cons (not_isSpace_of_endsOperand h) cs

/-- Text is read as one operand or one formula in parentheses, up to what ends it. -/
def ReadsUnit (cs : List Char) (f : Formula (List Char)) : Prop :=
  ∀ fuel rest, 3 * cs.length + 1 ≤ fuel → Stopped rest →
    readUnit fuel (cs ++ rest) = some (f, Json.skipSpaces rest)

theorem readUnit_cons (hspace : Json.isSpace c = false) (hc : c ≠ '(') (fuel : Nat) (cs : List Char)
    {operand : List Char} (h : cutOperand 0 .outside (c :: cs) = (operand, rest))
    (hne : operand ≠ []) :
    readUnit (fuel + 1) (c :: cs) = some (.atom (operand.rdropWhile Json.isSpace), rest) := by
  simp [readUnit, skipSpaces_cons hspace, hc, h, hne]

/-- An expression starts with neither a blank nor a parenthesis. -/
def Expr.Starts (e : Expr) : Prop :=
  ∃ c cs, e.print.toList = c :: cs ∧ Json.isSpace c = false ∧ c ≠ '('

/-- An expression that is passed over is an operand, unless it starts with a parenthesis. -/
theorem readsUnit_operand {e : Expr} (h : e.Calm 0) (hstart : e.Starts) :
    ReadsUnit e.print.toList (.atom (e.print.toList.rdropWhile Json.isSpace)) := by
  intro fuel rest hfuel hrest
  obtain ⟨c, cs, hstart, hspace, hc⟩ := hstart
  obtain ⟨fuel, rfl⟩ : ∃ n, fuel = n + 1 := ⟨fuel - 1, by omega⟩
  obtain ⟨x, -, hrun⟩ := h ' ' trivial
  have hcut := cutOperand_of_run hrun rest
  rw [hstart] at hcut ⊢
  cases hrest with
  | nil =>
    rw [cutOperand, List.append_nil] at hcut
    rw [List.append_nil]
    exact readUnit_cons hspace hc fuel _ hcut (List.cons_ne_nil _ _)
  | sign hs =>
    rw [cutOperand_stop hs, List.append_nil] at hcut
    rw [skipSpaces_sign hs]
    exact readUnit_cons hspace hc fuel _ hcut (List.cons_ne_nil _ _)
  | @blank s rest hs =>
    have hblank : cutOperand 0 .outside (' ' :: s :: rest) = ([' '], s :: rest) := by
      show (' ' :: (cutOperand 0 .outside (s :: rest)).1, (cutOperand 0 .outside (s :: rest)).2) = _
      rw [cutOperand_stop hs]
    have hskip : Json.skipSpaces (' ' :: s :: rest) = s :: rest := skipSpaces_sign hs rest
    have htrim : ((c :: cs) ++ [' ']).rdropWhile Json.isSpace =
        (c :: cs).rdropWhile Json.isSpace :=
      List.rdropWhile_concat_pos _ _ _ rfl
    rw [hblank] at hcut
    rw [hskip, ← htrim]
    exact readUnit_cons hspace hc fuel _ hcut (List.cons_ne_nil _ _)

/-! ## Joined formulas -/

theorem readAnds_stop (h : (Json.skipSpaces cs).head? ≠ some '&') (fuel : Nat)
    (f : Formula (List Char)) : readAnds (fuel + 1) f cs = some (f, cs) := by
  rw [readAnds]
  split
  · next hm => rw [hm] at h; exact absurd rfl h
  · rfl

theorem readOrs_stop (h : (Json.skipSpaces cs).head? ≠ some '|') (fuel : Nat)
    (f : Formula (List Char)) : readOrs (fuel + 1) f cs = some (f, cs) := by
  rw [readOrs]
  split
  · next hm => rw [hm] at h; exact absurd rfl h
  · rfl

theorem head?_skipSpaces_sign {d : Char} (h : endsOperand c = true) (hc : c ≠ d) (cs : List Char) :
    (Json.skipSpaces (c :: cs)).head? ≠ some d := by
  rw [skipSpaces_sign h]
  simpa using hc

theorem readUnit_blank (fuel : Nat) (cs : List Char) :
    readUnit fuel (' ' :: cs) = readUnit fuel cs := by
  cases fuel with
  | zero => rfl
  | succ fuel =>
    have hskip : Json.skipSpaces (' ' :: cs) = Json.skipSpaces cs := rfl
    rw [readUnit, readUnit, hskip]

theorem readOr_unit (h : readUnit (fuel + 1) cs = some (f, rest))
    (ha : (Json.skipSpaces rest).head? ≠ some '&') (ho : (Json.skipSpaces rest).head? ≠ some '|') :
    readOr (fuel + 3) cs = some (f, rest) := by
  have hand : readAnd (fuel + 2) cs = some (f, rest) := by
    rw [readAnd, h]
    exact readAnds_stop ha fuel f
  rw [readOr, hand]
  exact readOrs_stop ho (fuel + 1) f

theorem readOr_join (op : LogicalOp) {more : List Char}
    (hl : readUnit (fuel + 2) cs =
      some (l, (Generate.logicalOperator op).text.toList ++ ' ' :: more))
    (hr : readUnit (fuel + 1) more = some (r, ')' :: rest)) :
    readOr (fuel + 4) cs = some (.join op l r, ')' :: rest) := by
  have hand : (Json.skipSpaces (')' :: rest)).head? ≠ some '&' :=
    head?_skipSpaces_sign rfl (by decide) rest
  have hor : (Json.skipSpaces (')' :: rest)).head? ≠ some '|' :=
    head?_skipSpaces_sign rfl (by decide) rest
  cases op with
  | and =>
    have hskip : Json.skipSpaces ('&' :: '&' :: ' ' :: more) = '&' :: '&' :: ' ' :: more := rfl
    have hands : readAnds (fuel + 2) l ('&' :: '&' :: ' ' :: more) =
        some (.and l r, ')' :: rest) := by
      simp only [readAnds, hskip, readUnit_blank, hr, Option.bind_eq_bind, Option.bind_some]
      exact readAnds_stop hand fuel _
    have hboth : readAnd (fuel + 3) cs = some (.and l r, ')' :: rest) := by
      rw [readAnd, hl]
      exact hands
    rw [readOr, hboth]
    exact readOrs_stop hor (fuel + 2) _
  | or =>
    have hskip : Json.skipSpaces ('|' :: '|' :: ' ' :: more) = '|' :: '|' :: ' ' :: more := rfl
    have hleft : readAnd (fuel + 3) cs = some (l, '|' :: '|' :: ' ' :: more) := by
      rw [readAnd, hl]
      exact readAnds_stop (head?_skipSpaces_sign (c := '|') rfl (by decide) _) (fuel + 1) l
    have hright : readAnd (fuel + 2) (' ' :: more) = some (r, ')' :: rest) := by
      rw [readAnd, readUnit_blank, hr]
      exact readAnds_stop hand fuel r
    rw [readOr, hleft]
    show readOrs (fuel + 3) l ('|' :: '|' :: ' ' :: more) = _
    simp only [readOrs, hskip, hright, Option.bind_eq_bind, Option.bind_some]
    exact readOrs_stop hor (fuel + 1) _

theorem readUnit_paren (h : readOr fuel cs = some (f, ')' :: rest)) :
    readUnit (fuel + 1) ('(' :: cs) = some (f, Json.skipSpaces rest) := by
  have hopen : Json.skipSpaces ('(' :: cs) = '(' :: cs := rfl
  have hclose : Json.skipSpaces (')' :: rest) = ')' :: rest := rfl
  simp only [readUnit, hopen, h, Option.bind_eq_bind, Option.bind_some, hclose]

theorem ReadsUnit.paren (h : ReadsUnit cs f) : ReadsUnit ('(' :: (cs ++ [')'])) f := by
  intro fuel rest hfuel _
  simp only [List.length_cons, List.length_append, List.length_nil] at hfuel
  obtain ⟨fuel, rfl⟩ : ∃ n, fuel = n + 4 := ⟨fuel - 4, by omega⟩
  have hunit := h (fuel + 1) (')' :: rest) (by omega) (.sign rfl)
  rw [List.cons_append, List.append_assoc]
  exact readUnit_paren (readOr_unit hunit (head?_skipSpaces_sign rfl (by decide) rest)
    (head?_skipSpaces_sign rfl (by decide) rest))

/-- Two units with a sign between them, in parentheses. -/
theorem ReadsUnit.join (op : LogicalOp) {xs ys : List Char} (hl : ReadsUnit xs l)
    (hr : ReadsUnit ys r) :
    ReadsUnit ('(' :: (xs ++ ' ' :: ((Generate.logicalOperator op).text.toList ++
      ' ' :: (ys ++ [')'])))) (.join op l r) := by
  intro fuel rest hfuel _
  simp only [List.length_cons, List.length_append, List.length_nil] at hfuel
  obtain ⟨fuel, rfl⟩ : ∃ n, fuel = n + 5 := ⟨fuel - 5, by omega⟩
  have hright := hr (fuel + 1) (')' :: rest) (by omega) (.sign rfl)
  have hstop : Stopped (' ' :: ((Generate.logicalOperator op).text.toList ++
      ' ' :: (ys ++ ')' :: rest))) := by
    cases op <;> exact .blank rfl
  have hskip : Json.skipSpaces (' ' :: ((Generate.logicalOperator op).text.toList ++
      ' ' :: (ys ++ ')' :: rest))) =
      (Generate.logicalOperator op).text.toList ++ ' ' :: (ys ++ ')' :: rest) := by
    cases op <;> rfl
  have hleft := hl (fuel + 2) _ (by omega) hstop
  rw [hskip] at hleft
  simp only [List.cons_append, List.append_assoc, List.nil_append]
  exact readUnit_paren (readOr_join op hleft hright)

theorem ReadsUnit.printed (op : LogicalOp) {e e' : Expr} (hl : ReadsUnit e.print.toList l)
    (hr : ReadsUnit e'.print.toList r) :
    ReadsUnit (Expr.paren (.binary (Generate.logicalOperator op) e e')).print.toList
      (.join op l r) := by
  rw [Expr.toList_print_paren, Expr.toList_print_binary]
  simpa using hl.join op hr

theorem ReadsUnit.readFormula (h : ReadsUnit cs f) (hrest : Stopped rest)
    (ha : (Json.skipSpaces rest).head? ≠ some '&') (ho : (Json.skipSpaces rest).head? ≠ some '|') :
    readFormula (cs ++ rest) = some (f, Json.skipSpaces rest) := by
  have hskip : Json.skipSpaces (Json.skipSpaces rest) = Json.skipSpaces rest :=
    List.dropWhile_idempotent _ _
  refine readOr_unit (h _ rest ?_ hrest) (hskip.symm ▸ ha) (hskip.symm ▸ ho)
  rw [List.length_append]
  omega

namespace Expr

variable {e f : Expr}

theorem Starts.of_append (h : e.Starts) (more : List Char)
    (hf : f.print.toList = e.print.toList ++ more) : f.Starts := by
  obtain ⟨c, cs, he, hc⟩ := h
  exact ⟨c, cs ++ more, by rw [hf, he, List.cons_append], hc⟩

theorem Starts.binary (h : e.Starts) (op : Operator) : (Expr.binary op e f).Starts :=
  h.of_append _ (toList_print_binary op e f)

theorem Starts.invoke (h : e.Starts) (method : String) (arguments : List Expr) :
    (Expr.invoke e method arguments).Starts := by
  refine h.of_append ("." ++ method ++ "(" ++
    ", ".intercalate (Expr.printAll arguments) ++ ")").toList ?_
  show (e.print ++ "." ++ method ++ "(" ++ ", ".intercalate (Expr.printAll arguments) ++
    ")").toList = _
  simp [String.toList_append]

theorem starts_name {n : String} (h : n.toList = c :: cs) (hspace : Json.isSpace c = false)
    (hc : c ≠ '(') : (Expr.name n).Starts :=
  ⟨c, cs, h, hspace, hc⟩

theorem starts_stringOf (e : Expr) : (Expr.stringOf e).Starts := by
  refine (starts_name (n := "String") rfl rfl (by decide)).of_append
    ("(" ++ ", ".intercalate [e.print] ++ ")").toList ?_
  show ("String" ++ "(" ++ ", ".intercalate [e.print] ++ ")").toList = _
  simp only [String.toList_append, List.append_assoc]
  rfl

theorem starts_new (n : String) (e : Expr) : (Expr.new n [e]).Starts := by
  refine ⟨'n', 'e' :: 'w' :: ' ' :: (n ++ "(" ++ ", ".intercalate [e.print] ++ ")").toList, ?_,
    rfl, by decide⟩
  show ("new " ++ n ++ "(" ++ ", ".intercalate [e.print] ++ ")").toList = _
  simp [String.toList_append]

end Expr

end Code

namespace Generate

open Code

/-! ## Tests -/

theorem starts_rowColumn (column : String) : (rowColumn column).Starts := by
  refine (Expr.starts_name (n := "$row") rfl rfl (by decide)).of_append
    ("[" ++ quote column ++ "]").toList ?_
  show ("$row" ++ "[" ++ quote column ++ "]").toList = _
  simp only [String.toList_append, List.append_assoc]
  rfl

/-- A test is read as a unit: one operand, or two in parentheses if it asks whether there is a
    value at all. -/
theorem exists_readsUnit_rowTest (c : DataCondition) {value : Expr} (h : ∀ d, value.Calm d) :
    ∃ f, ReadsUnit (rowTest c value).print.toList f := by
  have hcolumn := starts_rowColumn c.column
  have hcalm : (rowTest c value).Calm 0 := calm_rowTest c h
  have hpair : ∀ (op : LogicalOp) (asked found : Operator),
      (asked ≠ .and ∧ asked ≠ .or ∧ asked ≠ .orElse) →
      (found ≠ .and ∧ found ≠ .or ∧ found ≠ .orElse) →
      ∃ f, ReadsUnit (Expr.paren (.binary (logicalOperator op)
        (.binary asked (rowColumn c.column) .null)
        (.binary found (.stringOf (rowColumn c.column)) (.text "")))).print.toList f := by
    intro op asked found hasked hfound
    have hleft : (Expr.binary asked (rowColumn c.column) .null).Calm 0 :=
      ((firm_rowColumn c.column).binary Expr.firm_null fun _ => hasked).calm
    have hright : (Expr.binary found (.stringOf (rowColumn c.column)) (.text "")).Calm 0 :=
      ((firm_rowColumn c.column).calm.stringOf.binary (Expr.firm_text "") fun _ => hfound).calm
    exact ⟨_, (readsUnit_operand hleft (hcolumn.binary asked)).printed op
      (readsUnit_operand hright ((Expr.starts_stringOf _).binary found))⟩
  unfold rowTest at hcalm ⊢
  cases hop : c.op with
  | isEmpty => exact hpair .or .equal .same (by decide) (by decide)
  | isNotEmpty => exact hpair .and .notEqual .notSame (by decide) (by decide)
  | equal | notEqual | greaterThan | lessThan | greaterEqual | lessEqual =>
    rw [hop] at hcalm
    exact ⟨_, readsUnit_operand hcalm (hcolumn.binary _)⟩
  | contains | startsWith | endsWith =>
    rw [hop] at hcalm
    exact ⟨_, readsUnit_operand hcalm ((Expr.starts_stringOf _).invoke _ _)⟩
  | matches_ =>
    rw [hop] at hcalm
    exact ⟨_, readsUnit_operand hcalm ((Expr.starts_new _ _).invoke _ _)⟩

/-! ## Left to right -/

/-- The value of two conditions that are joined. -/
def joinedValue : LogicalOp → Bool → Bool → Bool
  | .and => Bool.and
  | .or => Bool.or

section
variable {α : Type}

/-- The value of conditions that are joined from left to right. -/
def leftToRight (v : α → Bool) (first : α) (rest : List (LogicalOp × α)) : Bool :=
  rest.foldl (fun value x => joinedValue x.1 value (v x.2)) (v first)

/-- Operands joined from left to right. -/
def joined (first : Formula α) (rest : List (LogicalOp × α)) : Formula α :=
  rest.foldl (fun left x => .join x.1 left (.atom x.2)) first

theorem atoms_joined (first : Formula α) (rest : List (LogicalOp × α)) :
    (joined first rest).atoms = first.atoms ++ rest.map (·.2) := by
  induction rest generalizing first with
  | nil => simp [joined]
  | cons x rest ih =>
    show (joined (.join x.1 first (.atom x.2)) rest).atoms = _
    rw [ih, Formula.atoms_join]
    simp [Formula.atoms]

theorem eval_joined (v : α → Bool) (first : Formula α) (rest : List (LogicalOp × α)) :
    (joined first rest).eval v =
      rest.foldl (fun value x => joinedValue x.1 value (v x.2)) (first.eval v) := by
  induction rest generalizing first with
  | nil => rfl
  | cons x rest ih =>
    show (joined (.join x.1 first (.atom x.2)) rest).eval v = _
    rw [ih, List.foldl_cons]
    obtain ⟨op, a⟩ := x
    cases op <;> rfl

end

def meaning (cs : List Char) : Formula (List Char) :=
  ((readFormula cs).map (·.1)).getD (.atom cs)

theorem readFormula_of_readsUnit (h : ReadsUnit cs f) : readFormula cs = some (f, []) := by
  have := h.readFormula .nil (by decide) (by decide)
  rwa [List.append_nil] at this

theorem meaning_of_readsUnit (h : ReadsUnit cs f) : meaning cs = f := by
  rw [meaning, readFormula_of_readsUnit h]
  rfl

/-- Tests that are joined from left to right are read so. -/
theorem readsUnit_joinTests {first : Expr} {rest : List (LogicalOp × Expr)}
    (h : ReadsUnit first.print.toList (f.bind meaning))
    (hrest : ∀ x ∈ rest, ∃ g, ReadsUnit x.2.print.toList g) :
    ReadsUnit (joinTests first rest).print.toList
      ((joined f (rest.map fun x => (x.1, x.2.print.toList))).bind meaning) := by
  induction rest generalizing first f with
  | nil => exact h
  | cons x rest ih =>
    obtain ⟨g, hg⟩ := hrest x (List.mem_cons_self ..)
    refine ih (f := .join x.1 f (.atom x.2.print.toList)) ?_
      fun y hy => hrest y (List.mem_cons_of_mem _ hy)
    rw [Formula.bind_join, Formula.bind, meaning_of_readsUnit hg]
    refine h.printed x.1 ?_
    rw [Expr.toList_print_paren]
    exact hg.paren

end Generate

/-! ## Clauses of scripts -/

namespace Grammar

open UiScenario.Grammar.Parser

variable {s s' : State} {rest : List (LogicalOp × DataCondition)} {w : WhereClause}

/-- The tokens ahead are tokens of a script. -/
structure State.Within (source : String) (s : State) : Prop where
  last : s.last.kind = .eof
  ahead : ∀ t ∈ s.ahead, t ∈ (tokenize source).tokens

theorem State.within_ofTokens (source : String) :
    (State.ofTokens (tokenize source).tokens).Within source :=
  ⟨kind_last_ofTokens _, fun _ => mem_of_mem_ahead⟩

/-- Tokens of conditions that are joined to those in front: a word, the tokens of a condition, and
    so on. -/
inductive Joined (s : State) : List (LogicalOp × DataCondition) → List Token → List Token → Prop
  | nil {behind : List Token} : Joined s [] [] behind
  | cons {word : Token} {op : LogicalOp} {c : DataCondition} {own more behind : List Token}
      {rest : List (LogicalOp × DataCondition)} : logicalOp? word.kind = some op →
      dataCondition (s.leaving (own ++ (more ++ behind))) = .ok c (s.leaving (more ++ behind)) →
      Joined s rest more behind →
      Joined s ((op, c) :: rest) (word :: (own ++ more)) behind

theorem Joined.of_leaving {ts more behind : List Token}
    (h : Joined (s.leaving ts) rest more behind) : Joined s rest more behind := by
  induction h with
  | nil => exact .nil
  | cons hop hc _ ih => exact .cons hop hc ih

/-- What a round reads: nothing, or a word and a condition. -/
theorem whereRound_cases {x : Option (LogicalOp × DataCondition)} (hs : s.last.kind = .eof)
    (h : whereRound s = .ok x s') :
    x = none ∧ s' = s ∨ ∃ word op c own, x = some (op, c) ∧ logicalOp? word.kind = some op ∧
      s.ahead = word :: (own ++ s'.ahead) ∧ s' = s.leaving s'.ahead ∧
      dataCondition (s.leaving (own ++ s'.ahead)) = .ok c s' := by
  rw [whereRound_eq, current_bind] at h
  cases hop : logicalOp? s.current.kind with
  | none =>
    rw [hop] at h
    cases h
    exact .inl ⟨rfl, rfl⟩
  | some op =>
    rw [hop] at h
    cases hahead : s.ahead with
    | nil =>
      have hcurrent : s.current = s.last := by rw [State.current, hahead]; rfl
      rw [hcurrent, hs] at hop
      cases hop
    | cons word ts =>
      have hcurrent : s.current = word := by rw [State.current, hahead]; rfl
      obtain ⟨_, s₁, hadvance, h⟩ := parser_bind_eq_ok.1 h
      obtain rfl : s₁ = s.leaving ts := by
        rw [← leaving_ahead s, hahead, advance_cons] at hadvance
        cases hadvance
        rfl
      obtain ⟨c, s₂, hc, h⟩ := parser_bind_eq_ok.1 h
      cases h
      obtain ⟨own, hread, -⟩ := (steady_dataCondition (P := anywhere)).value trivial hc
      have hts : ts = own ++ s'.ahead := hread.ahead
      refine .inr ⟨word, op, c, own, rfl, hcurrent ▸ hop, by rw [hts], hread.same, ?_⟩
      rw [← hts]
      exact hc

theorem joined_of_rounds {n : Nat} (hs : s.last.kind = .eof)
    (h : rounds whereRound n s = .ok rest s') :
    ∃ more, s.ahead = more ++ s'.ahead ∧ Joined s rest more s'.ahead := by
  induction n generalizing s rest with
  | zero =>
    cases h
    exact ⟨[], rfl, .nil⟩
  | succ n ih =>
    rw [rounds] at h
    obtain ⟨x, s₁, hround, hgo⟩ := parser_bind_eq_ok.1 h
    rcases whereRound_cases hs hround with
      ⟨rfl, rfl⟩ | ⟨word, op, c, own, rfl, hop, hahead, hsame, hc⟩
    · cases hgo
      exact ⟨[], rfl, .nil⟩
    · obtain ⟨more, s₂, hrounds, hdone⟩ := parser_bind_eq_ok.1 hgo
      cases hdone
      have hlast : s₁.last.kind = .eof := by rw [hsame]; exact hs
      obtain ⟨tokens, htokens, hjoined⟩ := ih hlast hrounds
      rw [hsame] at hjoined
      refine ⟨word :: (own ++ tokens), by rw [hahead, htokens]; simp, ?_⟩
      refine .cons hop ?_ hjoined.of_leaving
      rw [← htokens, hc, ← hsame]

/-- The tokens of a clause: those of its first condition, and then words and conditions in turn. -/
theorem joined_of_whereClause (hs : s.last.kind = .eof) (h : whereClause s = .ok w s') :
    ∃ own more, s.ahead = own ++ (more ++ s'.ahead) ∧
      dataCondition s = .ok w.first (s.leaving (more ++ s'.ahead)) ∧
      Joined s w.rest more s'.ahead := by
  rw [whereClause_eq] at h
  obtain ⟨first, s₁, hfirst, h⟩ := parser_bind_eq_ok.1 h
  obtain ⟨rest, s₂, hrest, h⟩ := parser_bind_eq_ok.1 h
  cases h
  obtain ⟨own, hread, -⟩ := (steady_dataCondition (P := anywhere)).value trivial hfirst
  have hlast : s₁.last.kind = .eof := by rw [hread.same]; exact hs
  obtain ⟨more, hmore, hjoined⟩ := joined_of_rounds hlast hrest
  rw [hread.same] at hjoined
  refine ⟨own, more, by rw [← hmore, ← hread.ahead], ?_, hjoined.of_leaving⟩
  rw [hfirst, ← hmore, ← hread.same]

theorem worded_of_whereClause {source : String} (hs : s.Within source)
    (h : whereClause s = .ok w s') : ∀ c ∈ w.conditions, ∀ e, c.value = some e → e.Worded := by
  have hahead : Ahead Token.Worded s :=
    ⟨worded_of_eof hs.last, fun t ht => worded_of_mem_tokenize (hs.ahead t ht)⟩
  have hends := has_whereClause gathers_worded s hahead
  rw [h] at hends
  exact fun c hc => (hends.1 c hc).2

end Grammar

namespace Generate

open Code

/-- The predicate of a clause is read as its tests, joined from left to right. -/
theorem readsUnit_whereCode {b : Setting} {p : Progress} {w : WhereClause}
    (hw : ∀ c ∈ w.conditions, ∀ e, c.value = some e → e.Worded) :
    ∃ first rest, (rowTests b p w).map (·.print.toList) = first :: rest ∧
      (∀ t ∈ first :: rest, readFormula t = some (meaning t, [])) ∧
      ReadsUnit (whereCode b p w).1.print.toList
        ((joined (.atom first) ((w.rest.map (·.1)).zip rest)).bind meaning) := by
  have htests : ∀ t ∈ rowTests b p w, ∃ f, ReadsUnit t.print.toList f := by
    intro t ht
    obtain ⟨x, hx, rfl⟩ := List.mem_map.1 ht
    exact exists_readsUnit_rowTest x.1 fun d => calm_comparand hx (hw x.1 (mem_of_mem_numbered hx))
  obtain ⟨test, more, hmore, -⟩ := rowTests_eq_cons b p w
  refine ⟨test.print.toList, more.map (·.print.toList), by rw [hmore]; rfl, ?_, ?_⟩
  · intro t ht
    obtain ⟨e, he, rfl⟩ : ∃ e ∈ rowTests b p w, e.print.toList = t := by
      rw [← List.map_cons (f := fun e : Expr => e.print.toList), ← hmore] at ht
      exact List.mem_map.1 ht
    obtain ⟨f, hf⟩ := htests e he
    rw [meaning_of_readsUnit hf]
    exact readFormula_of_readsUnit hf
  · obtain ⟨f, hf⟩ := htests test (by rw [hmore]; exact List.mem_cons_self)
    have hfirst : ReadsUnit (Expr.paren test).print.toList
        ((Formula.atom test.print.toList).bind meaning) := by
      rw [Expr.toList_print_paren, Formula.bind, meaning_of_readsUnit hf]
      exact hf.paren
    have hzip : (w.rest.map (·.1)).zip (more.map fun e : Expr => e.print.toList) =
        ((w.rest.map (·.1)).zip more).map fun x => (x.1, x.2.print.toList) := by
      rw [List.zip_map_right]
      rfl
    rw [whereCode_eq, hmore, hzip]
    refine readsUnit_joinTests hfirst fun x hx => htests x.2 ?_
    rw [hmore]
    exact List.mem_cons_of_mem _ (List.of_mem_zip hx).2

/-- The predicate of a clause stands in some code, outside of quoted texts. With `&&` before `||`
    it is read as the formula `f`, whose operands are the tests of the conditions, in order, and
    whose value is that of the conditions joined from left to right. -/
structure ReadsLeftToRight (b : Setting) (p : Progress) (w : WhereClause) (code : List Char)
    (f : Formula (List Char)) : Prop where
  /-- How far the predicate goes does not depend on what is behind it in the code. -/
  stands : ∃ front back,
    code = front ++ ("where: ($row) => ".toList ++ ((whereCode b p w).1.print.toList ++ back)) ∧
    quotingAfter front = .outside ∧
    readFormula ((whereCode b p w).1.print.toList ++ back) =
      some (f.bind meaning, Json.skipSpaces back)
  alone : readFormula (whereCode b p w).1.print.toList = some (f.bind meaning, [])
  tests : f.atoms = (rowTests b p w).map (·.print.toList)
  /-- A test is read in the predicate as it is read alone. -/
  operands : ∀ t ∈ f.atoms, readFormula t = some (meaning t, [])
  /-- The second part is about the values of what the tests are read as. -/
  value : ∃ first rest, f.atoms = first :: rest ∧ rest.length = w.rest.length ∧
    (∀ v, f.eval v = leftToRight v first ((w.rest.map (·.1)).zip rest)) ∧
    ∀ v, (f.bind meaning).eval v =
      leftToRight (fun t => (meaning t).eval v) first ((w.rest.map (·.1)).zip rest)

/-- **Clauses go from left to right**: the tokens of a clause of a script are conditions with `AND`
    or `OR` between them, and in the code of every query with this clause, the predicate is read as
    its tests, joined from left to right. -/
theorem where_left_to_right {source : String} {s s' : Grammar.State} {w : WhereClause}
    (hs : s.Within source) (h : Grammar.whereClause s = .ok w s') :
    (∃ own more, s.ahead = own ++ (more ++ s'.ahead) ∧
      Grammar.dataCondition s = .ok w.first (s.leaving (more ++ s'.ahead)) ∧
      Grammar.Joined s w.rest more s'.ahead) ∧
    ∀ (b : Setting) (p : Progress) (q : DataQuery), q.where_ = some w →
      ∃ f, ReadsLeftToRight b p w (queryCode b p q).1.print.toList f := by
  refine ⟨Grammar.joined_of_whereClause hs.last h, fun b p q hq => ?_⟩
  obtain ⟨front, back, hcode, hfront, tail, hback⟩ := queryCode_of_where (b := b) (p := p) hq
  obtain ⟨first, rest, htests, hread, hunit⟩ :=
    readsUnit_whereCode (b := b) (p := p) (Grammar.worded_of_whereClause hs h)
  have hlength : rest.length = w.rest.length := by
    obtain ⟨test, more, hmore, hlength⟩ := rowTests_eq_cons b p w
    rw [hmore, List.map_cons] at htests
    rw [← (List.cons.inj htests).2, List.length_map, hlength]
  have hatoms : (joined (.atom first) ((w.rest.map (·.1)).zip rest)).atoms = first :: rest := by
    rw [atoms_joined, List.map_snd_zip (by simp [hlength])]
    rfl
  have hstop : Stopped back ∧ (Json.skipSpaces back).head? ≠ some '&' ∧
      (Json.skipSpaces back).head? ≠ some '|' := by
    rcases hback with rfl | rfl
    · exact ⟨.sign rfl, head?_skipSpaces_sign rfl (by decide) _,
        head?_skipSpaces_sign rfl (by decide) _⟩
    · exact ⟨.blank rfl, head?_skipSpaces_sign (c := '\x7d') rfl (by decide) tail,
        head?_skipSpaces_sign (c := '\x7d') rfl (by decide) tail⟩
  exact ⟨_, {
    stands := ⟨front, back, hcode, hfront, hunit.readFormula hstop.1 hstop.2.1 hstop.2.2⟩
    alone := readFormula_of_readsUnit hunit
    tests := by rw [hatoms, htests]
    operands := by rw [hatoms]; exact hread
    value := ⟨first, rest, hatoms, hlength, fun v => eval_joined v (.atom first) _, fun v =>
      (Formula.eval_bind meaning v _).trans (eval_joined _ (.atom first) _)⟩ }⟩

/-- A clause with both words, with a text that looks like the end of a condition, and with a
    condition that has parentheses of its own. -/
def mixedClause : String :=
  "role == \"a) || (b\" OR name IS EMPTY AND age > oldest"

theorem where_left_to_right_mixed :
    ∃ w s', Grammar.whereClause (.ofTokens (tokenize mixedClause).tokens) = .ok w s' ∧
      w.rest.map (·.1) = [.or, .and] ∧
      ∃ f, ReadsLeftToRight ⟨.empty, none, [], []⟩ (.start ["oldest"]) w
        (queryCode ⟨.empty, none, [], []⟩ (.start ["oldest"])
          ⟨.data, "users", .load, ⟨"Users", none⟩, some w, [], none, none⟩).1.print.toList f := by
  have hrun : (Grammar.whereClause.run' (.ofTokens (tokenize mixedClause).tokens)).map
      (fun w => w.rest.map (·.1)) = some [.or, .and] := by decide +kernel
  delta EStateM.run' EStateM.run at hrun
  cases hclause : Grammar.whereClause (.ofTokens (tokenize mixedClause).tokens) with
  | ok w s' =>
    rw [hclause] at hrun
    refine ⟨w, s', rfl, by simpa using hrun, ?_⟩
    exact (where_left_to_right (Grammar.State.within_ofTokens mixedClause) hclause).2 _ _ _ rfl
  | error e s' =>
    rw [hclause] at hrun
    cases hrun

end Generate

end UiScenario
