import UiScenario.Grammar.Parser
import UiScenario.Problem.Code
import UiScenario.Token.Lexeme
import UiScenario.Token.Scan

/-!
Problems: everything that can be wrong with a script, and everything that can go wrong when the
tests it gives are run.
-/

namespace UiScenario

/-- A problem. Those of names carry the names that could have been meant. -/
inductive Problem where
  | lexical (error : LexError)
  | syntactic (error : SyntaxError)
  -- declarations
  | duplicateDefinition (kind name : String) (line firstLine : Nat)
  | duplicateMember (kind name owner : String) (line : Nat)
  | unknownLibraryPage (library page : String) (line : Nat) (candidates : List String)
  -- statements
  | unresolvedUse (name : String) (line : Nat) (candidates : List String)
  | pageNotUsed (page feature : String) (line : Nat) (candidates : List String)
  | unknownAction (page action : String) (line : Nat) (candidates : List String)
  | undefinedCollection (name : String) (line : Nat)
  | undefinedVariable (name : String) (line : Nat) (candidates : List String)
  | unknownField (page field : String) (line : Nat) (candidates : List String)
  | argumentCount (page action : String) (expected found line : Nat)
  -- styles of names
  | pageNaming (name : String) (line : Nat)
  | fieldNaming (page name : String) (line : Nat)
  -- runs of tests
  | elementNotFound (selector statement : String)
  | timedOut (operation : String) (milliseconds : Nat)
  | navigationFailed (url reason : String)
  | checkFailed (expected actual statement : String)
  | browserClosed (reason : String)
  | networkError (url reason : String)
deriving DecidableEq

namespace Problem

def code : Problem → Code
  | lexical ⟨.unterminatedString, _⟩ => .unterminatedString
  | lexical ⟨.unterminatedEnv, _⟩ => .unterminatedEnv
  | lexical ⟨.invalidNumber _, _⟩ => .invalidNumber
  | lexical ⟨.unexpectedCharacter _, _⟩ => .unexpectedCharacter
  | syntactic ⟨.unexpectedToken _ _, _⟩ => .unexpectedToken
  | syntactic ⟨.unclosedBlock _, _⟩ => .unclosedBlock
  | syntactic ⟨.incompleteStatement _ _, _⟩ => .incompleteStatement
  | syntactic ⟨.unknownStatement _, _⟩ => .unknownStatement
  | duplicateDefinition .. => .duplicateDefinition
  | duplicateMember .. => .duplicateMember
  | unknownLibraryPage .. => .unknownLibraryPage
  | unresolvedUse .. => .unresolvedUse
  | pageNotUsed .. => .pageNotUsed
  | unknownAction .. => .unknownAction
  | undefinedCollection .. => .undefinedCollection
  | undefinedVariable .. => .undefinedVariable
  | unknownField .. => .unknownField
  | argumentCount .. => .argumentCount
  | pageNaming .. => .pageNaming
  | fieldNaming .. => .fieldNaming
  | elementNotFound .. => .elementNotFound
  | timedOut .. => .timedOut
  | navigationFailed .. => .navigationFailed
  | checkFailed .. => .checkFailed
  | browserClosed .. => .browserClosed
  | networkError .. => .networkError

def severity (p : Problem) : Severity :=
  p.code.entry.severity

/-- Whether a problem keeps a script from being valid. -/
def isError (p : Problem) : Bool :=
  p.severity == .error

end Problem

end UiScenario
