import UiScenario.Decimal.Basic

/-!
Values and elements. An expression is a sum of one or more plain values; a target is what a
statement acts on; a condition is what an `IF` asks.
-/

namespace UiScenario

inductive Primary where
  | text (value : String)
  | number (value : Decimal)
  | flag (value : Bool)
  /-- A variable of the environment the tests run in. -/
  | env (name : String)
  /-- A variable, or with a qualifier a member of a page or a column of a row. -/
  | ref (qualifier : Option String) (name : String)
deriving DecidableEq

/-- What a plain value refers to: a qualifier and a name. -/
def Primary.reference? : Primary → Option (Option String × String)
  | ref qualifier name => some (qualifier, name)
  | _ => none

/-- A sum of plain values; mostly of one. -/
structure Expression where
  first : Primary
  rest : List Primary
deriving DecidableEq

namespace Expression

def ofPrimary (p : Primary) : Expression :=
  ⟨p, []⟩

def text (value : String) : Expression :=
  ofPrimary (.text value)

def parts (e : Expression) : List Primary :=
  e.first :: e.rest

def references (e : Expression) : List (Option String × String) :=
  e.parts.filterMap Primary.reference?

end Expression

/-- A selector as scripts write it: a quoted text, or a variable of the environment. -/
inductive PlainSelector where
  | text (value : String)
  | env (name : String)
deriving DecidableEq

def PlainSelector.expression : PlainSelector → Expression
  | text value => .ofPrimary (.text value)
  | env name => .ofPrimary (.env name)

inductive Target where
  /-- A field of a page, or a field or variable named alone. -/
  | element (page : Option String) (field : String)
  /-- A selector written out. -/
  | selector (value : Expression)
  /-- Nothing. -/
  | unset
deriving DecidableEq

def Target.page? : Target → Option String
  | element page _ => page
  | selector _ | unset => none

inductive ElementState where
  | visible | hidden | enabled | disabled | checked | empty | focused
deriving DecidableEq

/-- Comparisons of values. Those from `startsWith` on are for conditions of queries. -/
inductive ComparisonOp where
  | equal | notEqual | greaterThan | lessThan | greaterEqual | lessEqual | contains
  | startsWith | endsWith | matches_ | isEmpty | isNotEmpty
deriving DecidableEq

/-- Whether a comparison takes no value on its right. -/
def ComparisonOp.isUnary : ComparisonOp → Bool
  | isEmpty | isNotEmpty => true
  | _ => false

inductive Condition where
  | state (target : Target) (negated : Bool) (state : ElementState)
  | comparison (left : Expression) (op : ComparisonOp) (right : Expression)
  | truthy (value : Expression)
deriving DecidableEq

end UiScenario
