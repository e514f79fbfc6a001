import UiScenario.Problem.Basic
import UiScenario.Text.Casing
import UiScenario.Text.Distance

/-!
Diagnostics: problems in words, with hints how to mend them.
-/

namespace UiScenario

/-- A place in a script; the column is not always known. -/
structure Location where
  line : Nat
  column : Option Nat
deriving DecidableEq

/-- What could be done about a problem. The action is for editors. -/
structure Suggestion where
  text : String
  action : Option String
deriving DecidableEq

/-- Whether a problem may be gone when the test runs again. -/
inductive Flakiness where
  | permanent | flaky
deriving DecidableEq

def Flakiness.name : Flakiness → String
  | permanent => "permanent"
  | flaky => "flaky"

structure Diagnostic where
  code : String
  category : Category
  severity : Severity
  location : Option Location
  title : String
  whatWentWrong : String
  howToFix : String
  suggestions : List Suggestion
  flakiness : Flakiness
  suggestedRetries : Option Nat
deriving DecidableEq

namespace Problem

/-- Where a problem is. Runs of tests know no place. -/
def location? : Problem → Option Location
  | lexical ⟨_, pos⟩ | syntactic ⟨_, pos⟩ => some ⟨pos.line, some pos.column⟩
  | duplicateDefinition _ _ line _ | duplicateMember _ _ _ line | unknownLibraryPage _ _ line _
  | unresolvedUse _ line _ | pageNotUsed _ _ line _ | unknownAction _ _ line _
  | undefinedCollection _ line | undefinedVariable _ line _ | unknownField _ _ line _
  | argumentCount _ _ _ _ line | pageNaming _ line | fieldNaming _ _ line => some ⟨line, none⟩
  | elementNotFound .. | timedOut .. | navigationFailed .. | checkFailed .. | browserClosed ..
  | networkError .. => none

def whatWentWrong : Problem → String
  | lexical ⟨.unterminatedString, _⟩ =>
    "A quoted text starts here but is never closed on the same line."
  | lexical ⟨.unterminatedEnv, _⟩ =>
    "An environment reference opened with '\x7b\x7b' is never closed with '\x7d\x7d'."
  | lexical ⟨.invalidNumber text, _⟩ => s!"'{text}' is not a valid number."
  | lexical ⟨.unexpectedCharacter character, _⟩ =>
    s!"The character '{character}' has no meaning in Vero."
  | syntactic ⟨.unexpectedToken expected found, _⟩ => s!"Expected {expected} but found {found}."
  | syntactic ⟨.unclosedBlock block, _⟩ =>
    s!"The {block} block is not closed before the end of the file."
  | syntactic ⟨.incompleteStatement statement expected, _⟩ =>
    s!"The {statement} statement ends before {expected}."
  | syntactic ⟨.unknownStatement found, _⟩ => s!"{found} does not start a Vero statement."
  | duplicateDefinition kind name _ firstLine =>
    s!"{kind} '{name}' is already defined (first definition at line {firstLine})."
  | duplicateMember kind name owner _ => s!"'{owner}' declares {kind} '{name}' more than once."
  | unknownLibraryPage library page _ _ =>
    s!"Page actions '{library}' are declared FOR '{page}', which is not defined."
  | unresolvedUse name _ _ => s!"USE {name} refers to a page that is not defined in this project."
  | pageNotUsed page feature _ _ => s!"'{page}' is not one of the pages feature '{feature}' uses."
  | unknownAction page action _ _ => s!"'{page}' has no action named '{action}'."
  | undefinedCollection name _ =>
    s!"FOR EACH loops over '{name}', which has not been loaded in this scenario."
  | undefinedVariable name _ _ => s!"'{name}' is not defined before this line."
  | unknownField page field _ _ => s!"Page '{page}' does not declare a field named '{field}'."
  | argumentCount page action expected found _ =>
    s!"{page}.{action} takes {expected} argument(s) but {found} were given."
  | pageNaming name _ => s!"Page name '{name}' is not PascalCase."
  | fieldNaming page name _ => s!"Field '{name}' on page '{page}' is not camelCase."
  | elementNotFound selector statement =>
    s!"'{statement}' could not find an element matching {selector}."
  | timedOut operation milliseconds => s!"'{operation}' did not finish within {milliseconds} ms."
  | navigationFailed url reason => s!"Opening {url} failed: {reason}."
  | checkFailed expected actual statement =>
    s!"'{statement}' expected {expected} but the page showed {actual}."
  | browserClosed reason => s!"The browser stopped unexpectedly: {reason}."
  | networkError url reason => s!"A request to {url} failed: {reason}."

def howToFix : Problem → String
  | lexical ⟨.unterminatedString, _⟩ =>
    "Add the matching closing quote before the end of the line."
  | lexical ⟨.unterminatedEnv, _⟩ =>
    "Write environment references as \x7b\x7bNAME\x7d\x7d on a single line."
  | lexical ⟨.invalidNumber _, _⟩ =>
    "Numbers may have one leading '-' and at most one decimal point, like 42 or -3.5."
  | lexical ⟨.unexpectedCharacter _, _⟩ =>
    "Remove it, or put it inside quotes if it is part of a text or selector."
  | syntactic ⟨.unexpectedToken _ _, pos⟩ =>
    s!"Check the statement near line {pos.line} for a typo or a missing word."
  | syntactic ⟨.unclosedBlock _, _⟩ => "Add a '\x7d' to close the block."
  | syntactic ⟨.incompleteStatement statement expected, _⟩ =>
    s!"Complete the {statement} statement with {expected}."
  | syntactic ⟨.unknownStatement _, _⟩ =>
    "Statements start with an action such as CLICK, FILL, VERIFY, IF or LOAD."
  | duplicateDefinition kind _ _ _ =>
    s!"Rename one of the definitions or remove the duplicate {kind}."
  | duplicateMember kind _ owner _ => s!"Give each {kind} in '{owner}' a distinct name."
  | unknownLibraryPage .. => "Declare the page, or point the library at an existing page."
  | unresolvedUse .. => "Define the page or fix the name in the USE line."
  | pageNotUsed page _ _ _ =>
    s!"Add 'USE {page}' to the feature, or target a page it already uses."
  | unknownAction page action _ _ =>
    s!"Define '{action}' on '{page}' or call one of its existing actions."
  | undefinedCollection name _ => s!"Load the data first, for example: LOAD {name} FROM TableName"
  | undefinedVariable .. =>
    "Declare it earlier in the scenario, or make sure it is supplied when the test runs."
  | unknownField page field _ _ => s!"Add 'FIELD {field} = \"...\"' to page '{page}'."
  | argumentCount .. => "Pass one value per parameter after WITH, separated by commas."
  | pageNaming .. => "Start page names with a capital letter and capitalise each word."
  | fieldNaming .. =>
    "Start field names with a lowercase letter and capitalise each following word."
  | elementNotFound .. =>
    "Check the selector against the current page, or wait for the element before acting."
  | timedOut .. =>
    "The page may be slow; add an explicit WAIT or check that the step can complete."
  | navigationFailed .. => "Check the URL and that the application is running."
  | checkFailed .. =>
    "Update the expected value if the application changed, otherwise report a bug."
  | browserClosed .. => "Re-run the test; if it keeps happening, check the machine's memory."
  | networkError .. => "Check connectivity and that the backend is reachable."

/-- The suggestion of a name that is close to a mistyped one. -/
def didYouMean (name : String) (candidates : List String) : List Suggestion :=
  ((Text.closest? name candidates).map fun best =>
    (⟨s!"Did you mean '{best}'?", some s!"replace:{best}"⟩ : Suggestion)).toList

def renameTo (name : String) : Suggestion :=
  ⟨s!"Rename to {name}", some s!"replace:{name}"⟩

def suggestions : Problem → List Suggestion
  | lexical ⟨.unexpectedCharacter character, _⟩ =>
    [⟨s!"Remove '{character}'", some "delete-character"⟩]
  | syntactic ⟨.unclosedBlock _, _⟩ => [⟨"Insert '\x7d'", some "insert:\x7d"⟩]
  | unknownLibraryPage _ page _ candidates => didYouMean page candidates
  | unresolvedUse name _ candidates => didYouMean name candidates
  | pageNotUsed page _ _ candidates =>
    ⟨s!"Add USE {page}", some s!"add-use:{page}"⟩ :: didYouMean page candidates
  | unknownAction _ action _ candidates => didYouMean action candidates
  | undefinedVariable name _ candidates => didYouMean name candidates
  | unknownField _ field _ candidates => didYouMean field candidates
  | pageNaming name _ => [renameTo (Text.pascalCase name)]
  | fieldNaming _ name _ => [renameTo (Text.camelCase name)]
  | elementNotFound _ statement => [⟨s!"Add 'WAIT FOR' before '{statement}'", none⟩]
  | _ => []

/-- How often a run of the test is worth repeating; `none` if the problem will stay. -/
def retries? : Problem → Option Nat
  | elementNotFound .. => some 2
  | timedOut .. => some 3
  | navigationFailed .. => some 2
  | browserClosed .. => some 1
  | networkError .. => some 3
  | _ => none

def diagnostic (p : Problem) : Diagnostic :=
  let entry := p.code.entry
  { code := entry.code
    category := entry.category
    severity := entry.severity
    location := p.location?
    title := entry.title
    whatWentWrong := p.whatWentWrong
    howToFix := p.howToFix
    suggestions := p.suggestions
    flakiness := if p.retries?.isSome then .flaky else .permanent
    suggestedRetries := p.retries? }

end Problem

namespace Diagnostic

def isError (d : Diagnostic) : Bool :=
  d.severity == .error

def retryable (d : Diagnostic) : Bool :=
  d.flakiness == .flaky

def suggest (d : Diagnostic) (s : Suggestion) : Diagnostic :=
  { d with suggestions := d.suggestions ++ [s] }

def atLine (d : Diagnostic) (line : Nat) : Diagnostic :=
  { d with location := some ⟨line, none⟩ }

def placeText : Option Location → String
  | some ⟨line, some column⟩ => s!" {line}:{column}"
  | some ⟨line, none⟩ => s!" line {line}"
  | none => ""

def text (d : Diagnostic) : String :=
  let head := s!"{d.severity.name}[{d.code}]{placeText d.location}: {d.title}: {d.whatWentWrong}"
  let help := if d.howToFix.isEmpty then "" else s!"\n  help: {d.howToFix}"
  head ++ help ++ String.join (d.suggestions.map fun s => s!"\n  suggestion: {s.text}")

end Diagnostic

/-- A report of errors and warnings, the errors first. -/
def renderAll (errors warnings : List Diagnostic) : String :=
  "\n\n".intercalate ((errors ++ warnings).map Diagnostic.text)

end UiScenario
