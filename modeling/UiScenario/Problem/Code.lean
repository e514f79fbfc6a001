import UiScenario.Text.Blank

/-!
The catalogue of problems. Every kind of problem has a code, a category, a severity and a title.
-/

namespace UiScenario

inductive Category where
  | lexer | parser | validation | locator | timeout | navigation | assertion | browser | network
deriving DecidableEq

namespace Category

def name : Category → String
  | lexer => "lexer"
  | parser => "parser"
  | validation => "validation"
  | locator => "locator"
  | timeout => "timeout"
  | navigation => "navigation"
  | assertion => "assertion"
  | browser => "browser"
  | network => "network"

/-- Problems of these categories are found in the script; the others while a test runs. -/
def isCompileTime : Category → Bool
  | lexer | parser | validation => true
  | _ => false

end Category

inductive Severity where
  | error | warning
deriving DecidableEq

def Severity.name : Severity → String
  | error => "error"
  | warning => "warning"

inductive Code where
  | unterminatedString | unterminatedEnv | invalidNumber | unexpectedCharacter
  | unexpectedToken | unclosedBlock | incompleteStatement | unknownStatement
  | duplicateDefinition | duplicateMember | unknownLibraryPage
  | unresolvedUse | pageNotUsed | unknownAction | undefinedCollection | undefinedVariable
  | unknownField | argumentCount
  | pageNaming | fieldNaming
  | elementNotFound | timedOut | navigationFailed | checkFailed | browserClosed | networkError
deriving DecidableEq

structure CatalogueEntry where
  code : String
  category : Category
  severity : Severity
  title : String
  summary : String

namespace Code

def entry : Code → CatalogueEntry
  | unterminatedString => ⟨"VERO-001", .lexer, .error, "Unterminated string",
    "A string literal is not closed before the end of its line."⟩
  | unterminatedEnv => ⟨"VERO-002", .lexer, .error, "Unterminated environment reference",
    "A \x7b\x7bNAME\x7d\x7d reference is missing its closing braces."⟩
  | invalidNumber => ⟨"VERO-003", .lexer, .error, "Invalid number",
    "A number has more than one decimal point."⟩
  | unexpectedCharacter => ⟨"VERO-004", .lexer, .error, "Unexpected character",
    "A character outside of strings and comments is not part of the language."⟩
  | unexpectedToken => ⟨"VERO-010", .parser, .error, "Unexpected input",
    "The parser expected one kind of word or symbol and found another."⟩
  | unclosedBlock => ⟨"VERO-011", .parser, .error, "Missing closing brace",
    "A block opened with '\x7b' is never closed."⟩
  | incompleteStatement => ⟨"VERO-012", .parser, .error, "Incomplete statement",
    "A statement is missing its target, value or keyword."⟩
  | unknownStatement => ⟨"VERO-013", .parser, .error, "Unknown statement",
    "A line inside a scenario does not start with a statement keyword."⟩
  | duplicateDefinition => ⟨"VERO-100", .validation, .error, "Duplicate definition",
    "Two definitions share a name, including a page and a library; the last one is used."⟩
  | duplicateMember => ⟨"VERO-101", .validation, .error, "Duplicate member",
    "A page declares the same field, variable or action twice."⟩
  | unknownLibraryPage => ⟨"VERO-102", .validation, .error, "Unknown page",
    "A PAGEACTIONS library is bound to a page that does not exist."⟩
  | unresolvedUse => ⟨"VERO-200", .validation, .error, "Unknown page",
    "A USE line names a page that is not defined."⟩
  | pageNotUsed => ⟨"VERO-201", .validation, .error, "Page not available",
    "A statement targets a page the feature does not USE."⟩
  | unknownAction => ⟨"VERO-202", .validation, .error, "Unknown action",
    "PERFORM calls an action the page or library does not define."⟩
  | undefinedCollection => ⟨"VERO-203", .validation, .error, "Undefined collection",
    "FOR EACH loops over a variable that was never loaded."⟩
  | undefinedVariable => ⟨"VERO-204", .validation, .warning, "Variable may not be defined",
    "A variable is read before any declaration; it may be supplied at run time."⟩
  | unknownField => ⟨"VERO-205", .validation, .warning, "Field may not be defined",
    "A target names a field its page does not declare."⟩
  | argumentCount => ⟨"VERO-206", .validation, .error, "Wrong number of arguments",
    "PERFORM passes a different number of values than the action declares."⟩
  | pageNaming => ⟨"VERO-300", .validation, .warning, "Page name style",
    "Page names should be PascalCase."⟩
  | fieldNaming => ⟨"VERO-301", .validation, .warning, "Field name style",
    "Field names should be camelCase."⟩
  | elementNotFound => ⟨"VERO-500", .locator, .error, "Element not found",
    "No element matched a selector while the test ran."⟩
  | timedOut => ⟨"VERO-501", .timeout, .error, "Timed out",
    "A step did not complete within its timeout."⟩
  | navigationFailed => ⟨"VERO-502", .navigation, .error, "Navigation failed",
    "The browser could not open a URL."⟩
  | checkFailed => ⟨"VERO-503", .assertion, .error, "Check failed",
    "A VERIFY step saw a different value than expected."⟩
  | browserClosed => ⟨"VERO-504", .browser, .error, "Browser closed",
    "The browser process exited during the run."⟩
  | networkError => ⟨"VERO-505", .network, .error, "Network error",
    "A network request made by the page failed."⟩

/-- All kinds of problems, by code. -/
def all : List Code :=
  [unterminatedString, unterminatedEnv, invalidNumber, unexpectedCharacter,
    unexpectedToken, unclosedBlock, incompleteStatement, unknownStatement,
    duplicateDefinition, duplicateMember, unknownLibraryPage,
    unresolvedUse, pageNotUsed, unknownAction, undefinedCollection, undefinedVariable,
    unknownField, argumentCount,
    pageNaming, fieldNaming,
    elementNotFound, timedOut, navigationFailed, checkFailed, browserClosed, networkError]

end Code

def catalogue : List CatalogueEntry :=
  Code.all.map Code.entry

/-- The entry with the given code, which may be in small letters and without `VERO-`. -/
def explain? (code : String) : Option CatalogueEntry :=
  let code := (Text.trimText code).toUpper
  let code := if code.startsWith "VERO-" then code else "VERO-" ++ code
  catalogue.find? (·.code == code)

def CatalogueEntry.text (e : CatalogueEntry) : String :=
  let found := if e.category.isCompileTime
    then "Reported while compiling; fix the script and compile again."
    else "Reported while a generated test runs."
  s!"{e.code} {e.title}\n\n{e.summary}\n\n{found}\n"

/-- The lines of an overview, with a heading in front of every category but the one before. -/
def overviewLines (before : Option Category) : List CatalogueEntry → List String
  | [] => []
  | e :: rest =>
    let line := s!"  {e.code}  {e.title}\n"
    let heading := s!"\n{e.category.name.toUpper}\n"
    (if before = some e.category then line else heading ++ line) ::
      overviewLines (some e.category) rest

def catalogueOverview : String :=
  "VERO ERROR CODES\n" ++ String.join (overviewLines none catalogue) ++
    "\nRun 'vero explain <code>' for details.\n"

end UiScenario
