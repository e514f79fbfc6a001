import UiScenario.Grammar.Statement
import UiScenario.Script.Program
import UiScenario.Token.Scan

/-!
The grammar of declarations. A faulty member is skipped and the declaration is kept without it; a
faulty header takes its declaration with it.
-/

namespace UiScenario

namespace Grammar

open UiScenario.Grammar.Parser

/-! ## Actions and pages -/

/-- A name, perhaps parameters, and a block. -/
def action : Parser Action := do
  let line := (← current).line
  let name ← name "an action name"
  let parameters ←
    if ← eat (.keyword .with_) then commaSeparated (binding "a parameter name") else pure []
  return ⟨name, parameters, ← block "action", line⟩

inductive PageMember where
  | field (field : Field)
  | variable_ (variable_ : PageVariable)
  | action (action : Action)

namespace PageMember

def field? : PageMember → Option Field
  | field f => some f
  | _ => none

def pageVariable? : PageMember → Option PageVariable
  | variable_ v => some v
  | _ => none

def action? : PageMember → Option Action
  | action a => some a
  | _ => none

end PageMember

/-- `FIELD name = selector`. -/
def field : Parser Field := do
  let line := (← advance).line
  setOpened (some ⟨"FIELD", line⟩)
  let name ← name "a field name"
  let _ ← expect .equals "'=' after the field name"
  let selector ← selector
  setOpened none
  return ⟨name, selector, line⟩

/-- A kind, a name and a value. -/
def pageVariable : Parser PageVariable := do
  let keyword ← advance
  setOpened (some ⟨Text.upper keyword.value, keyword.line⟩)
  let name ← name "a variable name"
  let _ ← expect .equals "'=' after the variable name"
  let value ← expression
  setOpened none
  return ⟨variableKind keyword.kind, name, value, keyword.line⟩

def isVariableKind : TokenKind → Bool
  | .keyword .text | .keyword .number | .keyword .flag | .keyword .list => true
  | _ => false

def atPageMember : List Token → Bool
  | [] => false
  | t :: ts => t.kind == .keyword .field || isVariableKind t.kind || atAction (t :: ts)

/-- A member of a page. A keyword for a kind of variable may also name an action. -/
def pageMember : Parser PageMember := do
  if ← check (.keyword .field) then return .field (← field)
  if atAction (← ahead) then return .action (← action)
  if isVariableKind (← current).kind then return .variable_ (← pageVariable)
  fail "FIELD, a variable or an action definition"

/-- Runs the parser of a page member; a faulty one is skipped, and no statement is open behind it.
-/
def recoveringPageMember : Parser (Option PageMember) := do
  let found ← recovering atPageMember pageMember
  if found.isNone then setOpened none
  return found

/-- `PAGE name`, perhaps an address, and its members. -/
def page : Parser Page := do
  let line := (← advance).line
  let name ← name "a page name"
  let url ← after? .lparen do
    let url ← expect .text "the page URL in quotes"
    let _ ← expect .rparen "')'"
    return url.value
  let members ← braced "page" "'\x7b' to open the page" recoveringPageMember
  let members := members.filterMap id
  return {
    name, url, line
    fields := members.filterMap PageMember.field?
    pageVariables := members.filterMap PageMember.pageVariable?
    actions := members.filterMap PageMember.action? }

/-! ## Libraries -/

def libraryMember : Parser Action := do
  if atAction (← ahead) then action else fail "an action definition"

/-- `PAGEACTIONS name`, perhaps the page it is for, and its actions. -/
def library : Parser Library := do
  let line := (← advance).line
  let name ← name "a page actions name"
  let forPage ← after? (.keyword .for_) (Parser.name "a page name after FOR")
  let members ←
    braced "page actions" "'\x7b' to open the page actions" (recovering atAction libraryMember)
  return { name, forPage, actions := members.filterMap id, line }

/-! ## Features -/

/-- A name, quoted or not. -/
def title (expected : String) : Parser String := do
  if ← check .text then return (← advance).value
  name expected

/-- Tags in a row. -/
def tags : Parser (List String) :=
  many do
    if ← check .tag then return some (← advance).value
    return none

inductive FeatureMember where
  /-- Tags for the scenario that follows. -/
  | tags (tags : List String)
  | uses (uses : List Use)
  | hook (hook : Hook)
  | scenario (scenario : Scenario)
  /-- A faulty member. Of a `USE` the names in front of the fault count. -/
  | faulty (uses : List Use)

/-- The names of a `USE`, at most `n`, up to the first that is missing. -/
def useNames : Nat → Parser (List Use × Option SyntaxError)
  | 0 => return ([], none)
  | n + 1 => do
    let line := (← current).line
    match ← attempt (name "a page name after USE") with
    | .error e => return ([], some e)
    | .ok name =>
      if ← eat .comma then
        let (rest, missing) ← useNames n
        return (⟨name, line⟩ :: rest, missing)
      return ([⟨name, line⟩], none)

/-- When a hook runs: `EACH` or `ALL`, behind `BEFORE` or `AFTER`. -/
def hookKind : Parser HookKind := do
  let before := (← advance).kind == .keyword .before
  if ← eat (.keyword .each) then return if before then .beforeEach else .afterEach
  if ← eat (.keyword .all) then return if before then .beforeAll else .afterAll
  fail "EACH or ALL"

/-- `BEFORE` or `AFTER`, `EACH` or `ALL`, and a block. -/
def hook : Parser Hook := do
  let line := (← current).line
  let kind ← hookKind
  return ⟨kind, ← block "hook", line⟩

/-- `SCENARIO name`, tags, and a block. -/
def scenario : Parser Scenario := do
  let line := (← advance).line
  let name ← title "a scenario name"
  let tags ← tags
  return ⟨name, tags, ← block "scenario", line⟩

def atFeatureMember : List Token → Bool
  | [] => false
  | t :: _ =>
    match t.kind with
    | .keyword .use | .keyword .scenario | .keyword .before | .keyword .after | .tag => true
    | _ => false

/-- A member of a feature other than a `USE`. -/
def featureMember : Parser FeatureMember := do
  match (← current).kind with
  | .tag => return .tags (← tags)
  | .keyword .before | .keyword .after => return .hook (← hook)
  | .keyword .scenario => return .scenario (← scenario)
  | _ => fail "USE, SCENARIO, BEFORE or AFTER"

def useMember : Parser FeatureMember := do
  let line := (← advance).line
  match ← useNames ((← ahead).length + 1) with
  | (uses, none) => return .uses uses
  | (uses, some e) =>
    report e
    skip (skipTo atFeatureMember line 0)
    return .faulty uses

/-- Runs the parser of a feature's member; a faulty one is skipped. -/
def recoveringFeatureMember : Parser FeatureMember := do
  if ← check (.keyword .use) then useMember
  else return (← recovering atFeatureMember featureMember).getD (.faulty [])

namespace FeatureMember

def uses? : FeatureMember → List Use
  | uses names | faulty names => names
  | _ => []

def hook? : FeatureMember → Option Hook
  | hook h => some h
  | _ => none

/-- The scenarios among members. Tags in front of a scenario come before its own; a faulty member
drops the tags in front of it. -/
def scenarios (pending : List String) : List FeatureMember → List Scenario
  | [] => []
  | tags names :: rest => scenarios (pending ++ names) rest
  | scenario s :: rest => { s with tags := pending ++ s.tags } :: scenarios [] rest
  | faulty _ :: rest => scenarios [] rest
  | uses _ :: rest | hook _ :: rest => scenarios pending rest

end FeatureMember

/-- `FEATURE name`, tags, and its members. -/
def feature : Parser Feature := do
  let line := (← advance).line
  let name ← title "a feature name"
  let tags ← tags
  let members ← braced "feature" "'\x7b' to open the feature" recoveringFeatureMember
  return {
    name, tags, line
    uses := members.flatMap FeatureMember.uses?
    hooks := members.filterMap FeatureMember.hook?
    scenarios := FeatureMember.scenarios [] members }

/-! ## Programs -/

inductive Declaration where
  | page (page : Page)
  | library (library : Library)
  | feature (feature : Feature)

namespace Declaration

def page? : Declaration → Option Page
  | page p => some p
  | _ => none

def library? : Declaration → Option Library
  | library l => some l
  | _ => none

def feature? : Declaration → Option Feature
  | feature f => some f
  | _ => none

end Declaration

def declaration : Parser Declaration := do
  match (← current).kind with
  | .keyword .page => return .page (← page)
  | .keyword .pageActions => return .library (← library)
  | .keyword .feature => return .feature (← feature)
  | _ => fail "PAGE, PAGEACTIONS or FEATURE"

/-- Runs the parser of a declaration; a faulty one is skipped. -/
def recoveringDeclaration : Parser (Option Declaration) := do
  modify fun s => { s with unclosedReported := false }
  match ← attempt declaration with
  | .ok found => return some found
  | .error e =>
    report e
    skip skipDeclaration
    return none

def program : Parser Program := do
  let declarations ← many do
    if (← ahead).isEmpty then return none
    return some (← recoveringDeclaration)
  let declarations := declarations.filterMap id
  return {
    pages := declarations.filterMap Declaration.page?
    libraries := declarations.filterMap Declaration.library?
    features := declarations.filterMap Declaration.feature? }

end Grammar

/-- A program, without what could not be read, and the faults. -/
structure Parsing where
  program : Program
  errors : List SyntaxError

def parse (tokens : List Token) : Parsing :=
  match Grammar.program (.ofTokens tokens) with
  | .ok program s => ⟨program, s.errors⟩
  | .error e s => ⟨.empty, s.errors ++ [e]⟩

/-- The program of a script whose lexical faults are passed over. -/
def parseText (source : String) : Parsing :=
  parse (tokenize source).tokens

/-- The program of a script without lexical faults. -/
def parseSource (source : String) : Except (List LexError) Parsing :=
  let lexing := tokenize source
  if lexing.errors.isEmpty then .ok (parse lexing.tokens) else .error lexing.errors

/-- The pages and libraries of scripts, whose faults are passed over. -/
def parseProject (sources : List String) : Project :=
  let programs := sources.map fun source => (parseText source).program
  ⟨programs.flatMap (·.pages), programs.flatMap (·.libraries)⟩

end UiScenario
