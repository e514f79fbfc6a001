import UiScenario.Script.Expression

/-!
Queries of tabular data. The conditions of a `WHERE` clause are joined from left to right: neither
`AND` nor `OR` binds tighter.
-/

namespace UiScenario

inductive ResultType where
  | data | list | number | text
deriving DecidableEq

inductive Aggregation where
  | count | sum | average | min | max | distinct
deriving DecidableEq

inductive QueryMode where
  /-- Every matching row, under `LOAD`. -/
  | load
  /-- The first matching row. -/
  | row
  /-- The matching rows. -/
  | rows
  | aggregate (by_ : Aggregation)
deriving DecidableEq

structure TableRef where
  table : String
  column : Option String
deriving DecidableEq

/-- A condition on a row: a column, a comparison, and the value it is compared with, which only
comparisons that take one have. -/
structure DataCondition where
  column : String
  op : ComparisonOp
  value : Option Expression
deriving DecidableEq

inductive LogicalOp where
  | and | or
deriving DecidableEq

/-- Conditions joined from left to right. -/
structure WhereClause where
  first : DataCondition
  rest : List (LogicalOp × DataCondition)
deriving DecidableEq

def WhereClause.conditions (w : WhereClause) : List DataCondition :=
  w.first :: w.rest.map (·.2)

structure OrderBy where
  column : String
  descending : Bool
deriving DecidableEq

structure DataQuery where
  resultType : ResultType
  variable_ : String
  mode : QueryMode
  source : TableRef
  where_ : Option WhereClause
  orderBy : List OrderBy
  limit : Option Nat
  offset : Option Nat
deriving DecidableEq

def DataQuery.conditions (q : DataQuery) : List DataCondition :=
  q.where_.elim [] WhereClause.conditions

/-- The values that the conditions of a query compare with. -/
def DataQuery.values (q : DataQuery) : List Expression :=
  q.conditions.filterMap (·.value)

end UiScenario
