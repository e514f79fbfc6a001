import UiScenario.Script.Query

/-!
Statements. A step stands on its own; the other statements hold further statements. Every statement
knows its line.

The names that a statement binds are in scope in all that follows in the same body, also outside
the block that binds them.
-/

namespace UiScenario

inductive ScrollDirection where
  | up | down
deriving DecidableEq

inductive WaitUnit where
  | seconds | milliseconds
deriving DecidableEq

inductive VariableKind where
  | text | number | flag | list
deriving DecidableEq

inductive UrlMatch where
  | is | contains | matches_
deriving DecidableEq

inductive Assertion where
  | state (target : Target) (negated : Bool) (state : ElementState)
  | text (target : Target) (negated contains : Bool) (expected : Expression)
  | value (target : Target) (negated : Bool) (expected : Expression)
  | attribute_ (target : Target) (name expected : Expression)
  | count (target : Target) (expected : Expression)
  | url (matcher : UrlMatch) (expected : Expression)
  | title (contains : Bool) (expected : Expression)
deriving DecidableEq

namespace Assertion

def targets : Assertion → List Target
  | state target _ _ | text target _ _ _ | value target _ _ | attribute_ target _ _
  | count target _ => [target]
  | url _ _ | title _ _ => []

def expressions : Assertion → List Expression
  | state _ _ _ => []
  | text _ _ _ expected | value _ _ expected | count _ expected | url _ expected
  | title _ expected => [expected]
  | attribute_ _ name expected => [name, expected]

end Assertion

/-- A statement that holds no other statements. -/
inductive Step where
  | open_ (url : Expression)
  | click (target : Target)
  | fill (target : Target) (value : Expression)
  | hover (target : Target)
  | check (target : Target)
  | uncheck (target : Target)
  | select (option : Expression) (target : Target)
  | scroll (direction : Option ScrollDirection)
  | scrollTo (target : Target)
  | press (key : Expression)
  | drag (source destination : Target)
  | upload (file : Expression) (target : Target)
  | wait (amount : Expression) (unit : WaitUnit)
  | waitFor (target : Target)
  | refresh
  | clear (target : Target)
  | screenshot (name : Option Expression)
  | log (message : Expression)
  | switchToTab (index : Expression)
  | switchToNewTab (url : Option Expression)
  | closeTab
  | switchToFrame (target : Target)
  | switchToMainFrame
  | acceptDialog (prompt : Option Expression)
  | dismissDialog
  | clearCookies
  | clearStorage
  | verify (assertion : Assertion)
  | declare (kind : VariableKind) (name : String) (value : Expression)
  /-- Performs an action of a page or library. -/
  | perform (page action : String) (arguments : List Expression)
  | query (query : DataQuery)
deriving DecidableEq

namespace Step

def targets : Step → List Target
  | click target | fill target _ | hover target | check target | uncheck target | select _ target
  | scrollTo target | upload _ target | waitFor target | clear target
  | switchToFrame target => [target]
  | drag source destination => [source, destination]
  | verify assertion => assertion.targets
  | _ => []

def expressions : Step → List Expression
  | open_ e | fill _ e | select e _ | press e | upload e _ | wait e _ | log e | switchToTab e
  | declare _ _ e => [e]
  | screenshot e | switchToNewTab e | acceptDialog e => e.toList
  | verify assertion => assertion.expressions
  | perform _ _ arguments => arguments
  | query q => q.values
  | _ => []

def bound? : Step → Option String
  | declare _ name _ => some name
  | query q => some q.variable_
  | _ => none

end Step

inductive Statement where
  | step (line : Nat) (step : Step)
  | branch (line : Nat) (condition : Condition) (thenBody elseBody : List Statement)
  | repeat_ (line : Nat) (times : Expression) (body : List Statement)
  | forEach (line : Nat) (item collection : String) (body : List Statement)

namespace Statement

def line : Statement → Nat
  | step line _ | branch line _ _ _ | repeat_ line _ _ | forEach line _ _ _ => line

/-- The elements that a statement acts on, in order. -/
def targets : Statement → List Target
  | step _ s => s.targets
  | branch _ (.state target _ _) _ _ => [target]
  | _ => []

/-- The values that a statement reads itself, in order. -/
def expressions : Statement → List Expression
  | step _ s => s.expressions
  | branch _ (.comparison left _ right) _ _ => [left, right]
  | branch _ (.truthy value) _ _ => [value]
  | repeat_ _ times _ => [times]
  | _ => []

/-- The pages and libraries that a statement names itself: those of the elements it acts on, the
qualifiers of the values it reads, and the owner of an action it performs. -/
def owners (s : Statement) : List String :=
  s.targets.filterMap Target.page? ++
  s.expressions.flatMap (fun e => e.references.filterMap (·.1)) ++
  match s with
  | step _ (.perform page _ _) => [page]
  | _ => []

def isQuery : Statement → Bool
  | step _ (.query _) => true
  | _ => false

/-- The conditions of a statement that is a query. -/
def dataConditions : Statement → List DataCondition
  | step _ (.query q) => q.conditions
  | _ => []

mutual

/-- A statement and the statements inside it, each before those inside it. -/
def flatten : Statement → List Statement
  | step line s => [step line s]
  | branch line condition thenBody elseBody =>
    branch line condition thenBody elseBody :: (flattenAll thenBody ++ flattenAll elseBody)
  | repeat_ line times body => repeat_ line times body :: flattenAll body
  | forEach line item collection body => forEach line item collection body :: flattenAll body

/-- The statements of a list and all statements inside them. -/
def flattenAll : List Statement → List Statement
  | [] => []
  | s :: rest => flatten s ++ flattenAll rest

end

mutual

/-- The names that a statement and the statements inside it bind, in order. -/
def bound : Statement → List String
  | step _ s => s.bound?.toList
  | branch _ _ thenBody elseBody => boundAll thenBody ++ boundAll elseBody
  | repeat_ _ _ body => boundAll body
  | forEach _ item _ body => item :: boundAll body

def boundAll : List Statement → List String
  | [] => []
  | s :: rest => bound s ++ boundAll rest

end

end Statement

end UiScenario
