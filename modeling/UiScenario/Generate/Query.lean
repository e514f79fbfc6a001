import UiScenario.Code.Statement
import UiScenario.Generate.Value

/-!
Comparisons and queries in generated code. The condition of a query is a function of a row that
cannot wait for elements, so the texts of elements are read into constants ahead of it.
-/

namespace UiScenario.Generate

open Code (Expr)

def comparison (left : Expr) (op : ComparisonOp) (right : Expr) : Expr :=
  match op with
  | .equal => .binary .same left right
  | .notEqual => .binary .notSame left right
  | .greaterThan => .binary .greater left right
  | .lessThan => .binary .less left right
  | .greaterEqual => .binary .greaterEqual left right
  | .lessEqual => .binary .lessEqual left right
  | .contains => .invoke (.stringOf left) "includes" [.stringOf right]
  | .startsWith => .invoke (.stringOf left) "startsWith" [.stringOf right]
  | .endsWith => .invoke (.stringOf left) "endsWith" [.stringOf right]
  | .matches_ => .invoke (.new "RegExp" [right]) "test" [.stringOf left]
  | .isEmpty => .binary .same (.stringOf (.binary .orElse left (.text ""))) (.text "")
  | .isNotEmpty => .binary .notSame (.stringOf (.binary .orElse left (.text ""))) (.text "")

def rowColumn (column : String) : Expr :=
  .index (.name "$row") (.text column)

/-- The code of a condition on the row, given the code of its value. -/
def rowTest (c : DataCondition) (value : Expr) : Expr :=
  let column := rowColumn c.column
  match c.op with
  | .isEmpty => .paren (.binary .or (.binary .equal column .null)
      (.binary .same (.stringOf column) (.text "")))
  | .isNotEmpty => .paren (.binary .and (.binary .notEqual column .null)
      (.binary .notSame (.stringOf column) (.text "")))
  | op => comparison column op value

/-- The constant that holds the text that was read as the `n`th ahead of a query. -/
def readName (n : Nat) : String :=
  "$value" ++ toString n

/-- The code of a condition on the row, the statements ahead of it, and how many texts were read so
far; `reads` were read before. -/
def conditionCode (b : Setting) (p : Progress) (reads : Nat) (c : DataCondition) :
    Expr × List Code.Statement × Nat :=
  match c.value with
  | none => (rowTest c (.name ""), [], reads)
  | some e =>
    if readsElement b p e then
      let name := readName (reads + 1)
      (rowTest c (.name name), [.const name (expression b p e)], reads + 1)
    else (rowTest c (expression b p e), [], reads)

def logicalOperator : LogicalOp → Code.Operator
  | .and => .and
  | .or => .or

/-- The code of conditions joined to those in front of them, whose code is `left`. -/
def joinedCode (b : Setting) (p : Progress) (left : Expr) (reads : Nat) :
    List (LogicalOp × DataCondition) → Expr × List Code.Statement × Nat
  | [] => (left, [], reads)
  | (op, c) :: rest =>
    let (test, ahead, reads) := conditionCode b p reads c
    let joined := Expr.paren (.binary (logicalOperator op) left (.paren test))
    let (code, more, reads) := joinedCode b p joined reads rest
    (code, ahead ++ more, reads)

/-- The code of the conditions of a query, joined strictly from left to right. -/
def whereCode (b : Setting) (p : Progress) (w : WhereClause) : Expr × List Code.Statement × Nat :=
  let (test, ahead, reads) := conditionCode b p p.reads w.first
  let (code, more, reads) := joinedCode b p (.paren test) reads w.rest
  (code, ahead ++ more, reads)

def modeName : QueryMode → String
  | .load => "load"
  | .row => "row"
  | .rows => "rows"
  | .aggregate .count => "count"
  | .aggregate .sum => "sum"
  | .aggregate .average => "average"
  | .aggregate .min => "min"
  | .aggregate .max => "max"
  | .aggregate .distinct => "distinct"

def orderCode (o : OrderBy) : Expr :=
  .object [("column", .text o.column), ("descending", .flag o.descending)]

/-- What a query asks for, given the code of its conditions. -/
def queryMembers (q : DataQuery) (predicate : Option Expr) : List (String × Expr) :=
  [("table", .text q.source.table)] ++
  (q.source.column.map fun c => ("column", Expr.text c)).toList ++
  [("mode", .text (modeName q.mode))] ++
  (predicate.map fun e => ("where", Expr.arrow "$row" e)).toList ++
  (if q.orderBy.isEmpty then [] else [("orderBy", .array (q.orderBy.map orderCode))]) ++
  (q.limit.map fun n => ("limit", Expr.integer n)).toList ++
  (q.offset.map fun n => ("offset", Expr.integer n)).toList

def queryCall (members : List (String × Expr)) : Expr :=
  .await (.invoke (.name "testData") "query" [.object members])

/-- The code of a query, the statements ahead of it, and how many texts were read so far. -/
def queryCode (b : Setting) (p : Progress) (q : DataQuery) : Expr × List Code.Statement × Nat :=
  match q.where_ with
  | none => (queryCall (queryMembers q none), [], p.reads)
  | some w =>
    let (predicate, ahead, reads) := whereCode b p w
    (queryCall (queryMembers q (some predicate)), ahead, reads)

end UiScenario.Generate
