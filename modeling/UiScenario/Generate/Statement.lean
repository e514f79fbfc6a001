import UiScenario.Decimal.Read
import UiScenario.Generate.Hoisting
import UiScenario.Generate.Query

/-!
Statements in generated code.
-/

namespace UiScenario.Generate

open Code (Expr)

/-- Generating code: what changes on the way, or a violation. -/
abbrev Gen := StateT Progress (Except Violation)

def page : Expr :=
  .name "page"

def awaitCall (object : Expr) (method : String) (arguments : List Expr) : Code.Statement :=
  .eval (.await (.invoke object method arguments))

section Steps

variable (b : Setting) (p : Progress)

def containing : Expression → Expr
  | ⟨.text value, []⟩ => .containing value
  | e =>
    .new "RegExp" [.invoke (textOf b p e) "replace"
      [.regex "/[.*+?^$\x7b\x7d()|[\\]\\\\]/g", .text "\\$&"]]

/-- How long to wait, in milliseconds. A literal is converted if the product fits. -/
def waitTime (amount : Expression) (unit : WaitUnit) : Expr :=
  let product (e : Expr) : Expr := .binary .mul (.paren e) (.integer 1000)
  match unit, amount with
  | .milliseconds, amount => expression b p amount
  | .seconds, ⟨.number d, []⟩ => (d.timesPowTen? 3).elim (product (.number d)) .number
  | .seconds, amount => product (expression b p amount)

def screenshotOptions : Option Expression → List Expr
  | none => []
  | some ⟨.text value, []⟩ =>
    [.object [("path", .text (if value.endsWith ".png" then value else value ++ ".png"))]]
  | some e =>
    [.object [("path", .binary .add (.stringOf (expression b p e)) (.text ".png"))]]

def stateMatcher : ElementState → String
  | .visible => "toBeVisible"
  | .hidden => "toBeHidden"
  | .enabled => "toBeEnabled"
  | .disabled => "toBeDisabled"
  | .checked => "toBeChecked"
  | .empty => "toBeEmpty"
  | .focused => "toBeFocused"

def expectation (value : Expr) (negated : Bool) (matcher : String) (arguments : List Expr) :
    Code.Statement :=
  let subject := Expr.call (.name "expect") [value]
  awaitCall (if negated then .member subject "not" else subject) matcher arguments

def assertion (line : Nat) : Assertion → Except Violation Code.Statement
  | .state target negated state => do
    return expectation (← locator b p line target) negated (stateMatcher state) []
  | .text target negated contains expected => do
    let matcher := if contains then "toContainText" else "toHaveText"
    return expectation (← locator b p line target) negated matcher [textOf b p expected]
  | .value target negated expected => do
    return expectation (← locator b p line target) negated "toHaveValue" [textOf b p expected]
  | .attribute_ target name expected => do
    return expectation (← locator b p line target) false "toHaveAttribute"
      [textOf b p name, textOf b p expected]
  | .count target expected => do
    return expectation (← locator b p line target) false "toHaveCount" [expression b p expected]
  | .url matcher expected =>
    let value := match matcher with
      | .is => expression b p expected
      | .contains => containing b p expected
      | .matches_ => .new "RegExp" [textOf b p expected]
    .ok (expectation page false "toHaveURL" [value])
  | .title contains expected =>
    let value := if contains then containing b p expected else expression b p expected
    .ok (expectation page false "toHaveTitle" [value])

def stateTest (element : Expr) : ElementState → Expr
  | .visible => .await (.invoke element "isVisible" [])
  | .hidden => .await (.invoke element "isHidden" [])
  | .enabled => .await (.invoke element "isEnabled" [])
  | .disabled => .await (.invoke element "isDisabled" [])
  | .checked => .await (.invoke element "isChecked" [])
  | .empty => .binary .same (.invoke (elementText element) "trim" []) (.text "")
  | .focused =>
    .await (.invoke element "evaluate"
      [.arrow "el" (.binary .same (.name "el") (.member (.name "document") "activeElement"))])

def condition (line : Nat) : Condition → Except Violation Expr
  | .state target negated state => do
    let test := stateTest (← locator b p line target) state
    return if negated then .not (.paren test) else test
  | .comparison left op right => .ok (comparison (expression b p left) op (expression b p right))
  | .truthy value => .ok (expression b p value)

end Steps

/-- Checks that an action exists and takes the given number of arguments. Libraries go before pages.
-/
def checkAction (all : Project) (line : Nat) (owner action : String) (count : Nat) :
    Except Violation Unit := do
  let found ← match all.library? owner, all.page? owner with
    | some l, _ => .ok (l.action? action)
    | none, some p => .ok (p.action? action)
    | none, none => .error (.unknownPage owner line)
  match found with
  | none => .error (.unknownAction owner action line)
  | some a =>
    if a.parameters.length = count then .ok ()
    else .error (.argumentCount owner action a.parameters.length count line)

/-- Declares a variable, or assigns it if it is declared at the top. -/
def declare (b : Setting) (name : String) (value : Expr) : Gen Code.Statement := do
  modify (·.bind name)
  return if b.hoisted.contains name then .assign name value else .const name value

/-- The constant that holds the `n`th frame. -/
def frameName (n : Nat) : String :=
  "frame" ++ toString n

def step (b : Setting) (line : Nat) (s : Step) : Gen (List Code.Statement) := do
  let p ← get
  let find (target : Target) : Gen Expr := liftM (locator b p line target)
  let value (e : Expression) : Expr := expression b p e
  let text (e : Expression) : Expr := textOf b p e
  let context := Expr.invoke page "context" []
  match s with
  | .open_ url => return [awaitCall page "goto" [value url]]
  | .click target => return [awaitCall (← find target) "click" []]
  | .fill target e => return [awaitCall (← find target) "fill" [text e]]
  | .hover target => return [awaitCall (← find target) "hover" []]
  | .check target => return [awaitCall (← find target) "check" []]
  | .uncheck target => return [awaitCall (← find target) "uncheck" []]
  | .select option target => return [awaitCall (← find target) "selectOption" [text option]]
  | .scroll direction =>
    let distance : Int := if direction = some .up then -500 else 500
    return [awaitCall (.member page "mouse") "wheel" [.integer 0, .integer distance]]
  | .scrollTo target => return [awaitCall (← find target) "scrollIntoViewIfNeeded" []]
  | .press key => return [awaitCall (.member page "keyboard") "press" [text key]]
  | .drag source destination =>
    let source ← find source
    return [awaitCall source "dragTo" [← find destination]]
  | .upload file target => return [awaitCall (← find target) "setInputFiles" [value file]]
  | .wait amount unit => return [awaitCall page "waitForTimeout" [waitTime b p amount unit]]
  | .waitFor target => return [awaitCall (← find target) "waitFor" []]
  | .refresh => return [awaitCall page "reload" []]
  | .clear target => return [awaitCall (← find target) "clear" []]
  | .screenshot name => return [awaitCall page "screenshot" (screenshotOptions b p name)]
  | .log message => return [.eval (.invoke (.name "console") "log" [value message])]
  | .switchToTab i =>
    let tab :=
      Expr.index (.invoke context "pages" []) (.binary .sub (.paren (value i)) (.integer 1))
    return [.assign "page" tab, awaitCall page "bringToFront" []]
  | .switchToNewTab url =>
    return .assign "page" (.await (.invoke context "newPage" [])) ::
      (url.map fun e => awaitCall page "goto" [value e]).toList
  | .closeTab =>
    let last := Expr.invoke (.invoke context "pages" []) "at" [.integer (-1)]
    return [awaitCall page "close" [], .assign "page" (.binary .orElse last page)]
  | .switchToFrame target =>
    let element ← find target
    let name := frameName (p.frames + 1)
    set { p with root := name, frames := p.frames + 1 }
    return [.const name (.invoke element "contentFrame" [])]
  | .switchToMainFrame =>
    set { p with root := "page" }
    return []
  | .acceptDialog prompt =>
    let answer := Expr.invoke (.name "dialog") "accept" (prompt.map text).toList
    return [.eval (.invoke page "once" [.text "dialog", .arrow "dialog" answer])]
  | .dismissDialog =>
    let answer := Expr.invoke (.name "dialog") "dismiss" []
    return [.eval (.invoke page "once" [.text "dialog", .arrow "dialog" answer])]
  | .clearCookies => return [awaitCall context "clearCookies" []]
  | .clearStorage =>
    return [awaitCall page "evaluate" [.procedure
      [.invoke (.name "localStorage") "clear" [], .invoke (.name "sessionStorage") "clear" []]]]
  | .verify a => return [← liftM (assertion b p line a)]
  | .declare _ name e => return [← declare b name (value e)]
  | .perform owner action arguments =>
    liftM (checkAction b.all line owner action arguments.length)
    return [awaitCall (.name owner) action (page :: arguments.map value)]
  | .query q =>
    let (call, ahead, reads) := queryCode b p q
    set { p with reads }
    return ahead ++ [← declare b q.variable_ call]

/-- Generates the code of an inner block. Behind it, elements are found below the same root as in
front of it. -/
def inner {α : Type} (g : Gen α) : Gen α := do
  let root := (← get).root
  let code ← g
  modify fun p => { p with root }
  return code

/-- The counter of a loop inside `depth` counting loops. -/
def counterName (depth : Nat) : String :=
  "i" ++ toString depth

mutual

/-- The code of a statement inside `depth` counting loops. -/
def statement (b : Setting) (depth : Nat) : Statement → Gen (List Code.Statement)
  | .step line s => step b line s
  | .branch line c thenBody elseBody => do
    let test ← liftM (condition b (← get) line c)
    let thenCode ← inner (statements b depth thenBody)
    if elseBody.isEmpty then return [.branch test thenCode]
    let elseCode ← inner (statements b depth elseBody)
    return [.choice test thenCode elseCode]
  | .repeat_ _ times body => do
    let bound := expression b (← get) times
    let code ← inner (statements b (depth + 1) body)
    return [.count (counterName depth) bound code]
  | .forEach _ item collection body => do
    modify (·.bind item)
    let code ← inner (statements b depth body)
    return [.forOf item collection code]

/-- The code of statements inside `depth` counting loops. -/
def statements (b : Setting) (depth : Nat) : List Statement → Gen (List Code.Statement)
  | [] => return []
  | s :: rest => do
    let code ← statement b depth s
    return code ++ (← statements b depth rest)

end

/-- What a body belongs to: the page whose fields are meant first, and the pages whose fields are
meant next. -/
structure BodyOwner where
  defaultPage : Option String
  uses : List String

/-- The code of a body where the names `bound` are declared already. -/
def body (all : Project) (o : BodyOwner) (bound : List String) (statementList : List Statement) :
    Except Violation (List Code.Statement) := do
  let hoisted := hoistedNames bound statementList
  let fresh := hoisted.filter (!bound.contains ·)
  let setting : Setting := ⟨all, o.defaultPage, o.uses, hoisted⟩
  let (code, _) ← (statements setting 0 statementList).run (.start bound)
  return (if fresh.isEmpty then [] else [.declare fresh]) ++ code

end UiScenario.Generate
