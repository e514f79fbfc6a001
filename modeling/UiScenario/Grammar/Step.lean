import UiScenario.Grammar.Query
import UiScenario.Script.Statement

/-!
The grammar of steps. Each rule reads its keyword first.
-/

namespace UiScenario.Grammar

open UiScenario.Grammar.Parser

/-! ## Actions -/

def withTarget (make : Target → Step) : Parser Step := do
  let _ ← advance
  return make (← target)

def withValue (make : Expression → Step) : Parser Step := do
  let _ ← advance
  return make (← expression)

/-- `OPEN value` or `NAVIGATE TO value`. -/
def openStep : Parser Step := do
  if (← advance).kind == .keyword .navigate then
    let _ ← expect (.keyword .to_) "TO after NAVIGATE"
  return .open_ (← expression)

/-- `FILL element WITH value`. -/
def fillStep : Parser Step := do
  let _ ← advance
  let element ← target
  let _ ← expect (.keyword .with_) "WITH and the value to type"
  return .fill element (← expression)

/-- `SELECT value FROM element`. -/
def selectStep : Parser Step := do
  let _ ← advance
  let option ← expression
  let _ ← expect (.keyword .from_) "FROM and the dropdown to select in"
  return .select option (← target)

/-- `SCROLL UP`, `SCROLL DOWN` or `SCROLL TO element`. -/
def scrollStep : Parser Step := do
  let _ ← advance
  if ← eat (.keyword .up) then return .scroll (some .up)
  if ← eat (.keyword .down) then return .scroll (some .down)
  if ← eat (.keyword .to_) then return .scrollTo (← target)
  fail "UP, DOWN or TO"

/-- `DRAG element TO element`. -/
def dragStep : Parser Step := do
  let _ ← advance
  let source ← target
  let _ ← expect (.keyword .to_) "TO and the drop target"
  return .drag source (← target)

/-- `UPLOAD value TO element`. -/
def uploadStep : Parser Step := do
  let _ ← advance
  let file ← expression
  let _ ← expect (.keyword .to_) "TO and the file input"
  return .upload file (← target)

/-- The unit of waiting: seconds, unless it says otherwise. -/
def waitUnit : Parser WaitUnit := do
  if ← eat (.keyword .milliseconds) then return .milliseconds
  let _ ← eat (.keyword .seconds)
  return .seconds

/-- `WAIT FOR element`, or `WAIT value` and perhaps a unit. -/
def waitStep : Parser Step := do
  let _ ← advance
  if ← eat (.keyword .for_) then return .waitFor (← target)
  let amount ← expression
  return .wait amount (← waitUnit)

def refreshStep : Parser Step := do
  let _ ← advance
  return .refresh

/-- `CLEAR COOKIES`, `CLEAR STORAGE` or `CLEAR element`. -/
def clearStep : Parser Step := do
  let _ ← advance
  if ← eat (.keyword .cookies) then return .clearCookies
  if ← eat (.keyword .storage) then return .clearStorage
  return .clear (← target)

/-- `TAKE SCREENSHOT`, perhaps with a name. -/
def screenshotStep : Parser Step := do
  let _ ← advance
  let _ ← expect (.keyword .screenshot) "SCREENSHOT after TAKE"
  return .screenshot (← after? (.keyword .as) expression)

/-- `SWITCH TO` a new tab, a tab, a frame or the main frame. -/
def switchStep : Parser Step := do
  let _ ← advance
  let _ ← expect (.keyword .to_) "TO after SWITCH"
  if ← eat (.keyword .new) then
    let _ ← expect (.keyword .tab) "TAB after NEW"
    if atExpression (← ahead) then return .switchToNewTab (some (← expression))
    return .switchToNewTab none
  if ← eat (.keyword .tab) then return .switchToTab (← expression)
  if ← eat (.keyword .frame) then return .switchToFrame (← target)
  if ← eat (.keyword .main) then
    let _ ← expect (.keyword .frame) "FRAME after MAIN"
    return .switchToMainFrame
  fail "NEW TAB, TAB, FRAME or MAIN FRAME"

def closeStep : Parser Step := do
  let _ ← advance
  let _ ← expect (.keyword .tab) "TAB after CLOSE"
  return .closeTab

/-- `ACCEPT DIALOG`, perhaps with an answer, or `DISMISS DIALOG`. -/
def dialogStep : Parser Step := do
  let kind := (← advance).kind
  let _ ← expect (.keyword .dialog) "DIALOG"
  if kind == .keyword .dismiss then return .dismissDialog
  return .acceptDialog (← after? (.keyword .with_) expression)

/-! ## Checks -/

/-- How an address is compared. -/
def urlMatch : Parser UrlMatch := do
  if ← eat (.keyword .is) then return .is
  if ← eat (.keyword .contains) then return .contains
  if ← eat (.keyword .matches_) then return .matches_
  fail "IS, CONTAINS or MATCHES"

/-- Whether a title has to contain the text or to be the text. -/
def titleContains : Parser Bool := do
  if ← eat (.keyword .is) then return false
  if ← eat (.keyword .contains) then return true
  fail "IS or CONTAINS"

def assertionOf (element : Target) : Parser Assertion := do
  if ← eat (.keyword .is) then
    let negated ← eat (.keyword .not)
    return .state element negated (← elementState)
  let negated ← eat (.keyword .not)
  if ← eat (.keyword .contains) then
    let _ ← eat (.keyword .text)
    return .text element negated true (← expression)
  let _ ← expect (.keyword .has) "IS, HAS or CONTAINS"
  if ← eat (.keyword .text) then return .text element negated false (← expression)
  if ← eat (.keyword .value) then return .value element negated (← expression)
  if negated then fail "TEXT or VALUE"
  if ← eat (.keyword .attribute_) then
    let name ← expression
    let _ ← expect .equals "'=' and the expected attribute value"
    return .attribute_ element name (← expression)
  if ← eat (.keyword .count) then return .count element (← expression)
  fail "TEXT, VALUE, ATTRIBUTE or COUNT"

/-- Whether a keyword stands here that is not the qualifier of a name. -/
def atUnqualified (word : Keyword) (ahead : List Token) : Bool :=
  startsWith (.keyword word) ahead && !startsWith .dot (ahead.drop 1)

/-- `VERIFY` and a check of the address, of the title or of an element. -/
def verifyStep : Parser Step := do
  let _ ← advance
  if atUnqualified .url (← ahead) then
    let _ ← advance
    let matcher ← urlMatch
    return .verify (.url matcher (← expression))
  if atUnqualified .title (← ahead) then
    let _ ← advance
    let contains ← titleContains
    return .verify (.title contains (← expression))
  return .verify (← assertionOf (← target))

/-! ## Declarations, actions of pages, queries -/

def variableKind : TokenKind → VariableKind
  | .keyword .number => .number
  | .keyword .flag => .flag
  | .keyword .list => .list
  | _ => .text

/-- A kind, a name and a value. -/
def declareStep : Parser Step := do
  let kind := (← advance).kind
  let name ← binding "a variable name"
  let _ ← expect .equals "'=' after the variable name"
  return .declare (variableKind kind) name (← expression)

/-- `PERFORM page.action`, perhaps with arguments. -/
def performStep : Parser Step := do
  let _ ← advance
  unless atQualifiedName (← ahead) do fail "a page action such as Login.signIn"
  let (page, action) ← qualifiedName
  if ← eat (.keyword .with_) then return .perform page action (← commaSeparated expression)
  return .perform page action []

def queryStep : Parser Step :=
  return .query (← query)

/-- The step that starts with the given keyword; `none` for those that start none. -/
def stepRule? (word : Keyword) (ahead : List Token) : Option (Parser Step) :=
  match word with
  | .open_ | .navigate => some openStep
  | .click => some (withTarget .click)
  | .fill => some fillStep
  | .hover => some (withTarget .hover)
  | .check => some (withTarget .check)
  | .uncheck => some (withTarget .uncheck)
  | .select => some selectStep
  | .scroll => some scrollStep
  | .press => some (withValue .press)
  | .drag => some dragStep
  | .upload => some uploadStep
  | .wait => some waitStep
  | .refresh => some refreshStep
  | .clear => some clearStep
  | .take => some screenshotStep
  | .log => some (withValue .log)
  | .switch => some switchStep
  | .close => some closeStep
  | .accept | .dismiss => some dialogStep
  | .verify => some verifyStep
  | .perform => some performStep
  | .load | .data => some queryStep
  | .text | .number | .list => some (if atQueryBinding ahead then queryStep else declareStep)
  | .flag => some declareStep
  | _ => none

end UiScenario.Grammar
