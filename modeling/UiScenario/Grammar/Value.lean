import UiScenario.Decimal.Read
import UiScenario.Grammar.Parser
import UiScenario.Script.Expression

/-!
The grammar of values, elements and conditions.
-/

namespace UiScenario.Grammar

open UiScenario.Grammar.Parser

def primary : Parser Primary := do
  let t ← current
  match t.kind with
  | .text => return .text (← advance).value
  | .number =>
    match Decimal.read? t.value with
    | some value =>
      let _ ← advance
      return .number value
    | none => fail "a number"
  | .keyword .true_ =>
    let _ ← advance
    return .flag true
  | .keyword .false_ =>
    let _ ← advance
    return .flag false
  | .env => return .env (← advance).value
  | _ =>
    if atQualifiedName (← ahead) then
      let (qualifier, name) ← qualifiedName
      return .ref (some qualifier) name
    if atBareName (← ahead) then return .ref none (← advance).value
    fail "a value"

/-- Plain values with plus signs between them. -/
def expression : Parser Expression := do
  let first ← primary
  return ⟨first, ← many (after? .plus primary)⟩

def atExpression (ahead : List Token) : Bool :=
  match ahead with
  | [] => false
  | t :: _ =>
    match t.kind with
    | .text | .number | .env | .keyword .true_ | .keyword .false_ => true
    | _ => atQualifiedName ahead || atBareName ahead

/-- A selector: a quoted text or a reference to the environment. -/
def selector : Parser PlainSelector := do
  match (← current).kind with
  | .text => return .text (← advance).value
  | .env => return .env (← advance).value
  | _ => fail "a selector in quotes"

/-- An element: a selector, a field of a page, or a name alone. -/
def target : Parser Target := do
  match (← current).kind with
  | .text | .env => return .selector (← selector).expression
  | _ =>
    if atQualifiedName (← ahead) then
      let (page, field) ← qualifiedName
      return .element (some page) field
    if atBareName (← ahead) then return .element none (← advance).value
    fail "an element (Page.field, a field name or a selector)"

def elementState? : TokenKind → Option ElementState
  | .keyword .visible => some .visible
  | .keyword .hidden => some .hidden
  | .keyword .enabled => some .enabled
  | .keyword .disabled => some .disabled
  | .keyword .checked => some .checked
  | .keyword .empty => some .empty
  | .keyword .focused => some .focused
  | _ => none

def elementState : Parser ElementState := do
  match elementState? (← current).kind with
  | some state =>
    let _ ← advance
    return state
  | none => fail "VISIBLE, HIDDEN, ENABLED, DISABLED, CHECKED, EMPTY or FOCUSED"

/-- The comparison that a sign or keyword of a condition stands for. -/
def comparison? : TokenKind → Option ComparisonOp
  | .eqEq | .equals => some .equal
  | .notEq => some .notEqual
  | .gt => some .greaterThan
  | .lt => some .lessThan
  | .gtEq => some .greaterEqual
  | .ltEq => some .lessEqual
  | .keyword .contains => some .contains
  | _ => none

/-- The element that the left side of an `IS` names. Numbers, flags and sums name none. -/
def elementOf? : Expression → Option Target
  | ⟨.text value, []⟩ => some (.selector (.text value))
  | ⟨.env name, []⟩ => some (.selector (.ofPrimary (.env name)))
  | ⟨.ref qualifier name, []⟩ => some (.element qualifier name)
  | _ => none

/-- A condition: the state of an element, a comparison, or a value alone. -/
def condition : Parser Condition := do
  let left ← expression
  if ← check (.keyword .is) then
    let is ← advance
    let negated ← eat (.keyword .not)
    let state ← elementState
    match elementOf? left with
    | some element => return .state element negated state
    | none => throw ⟨.unexpectedToken "an element before IS" is.display, is.pos⟩
  match comparison? (← current).kind with
  | some op =>
    let _ ← advance
    return .comparison left op (← expression)
  | none => return .truthy left

end UiScenario.Grammar
