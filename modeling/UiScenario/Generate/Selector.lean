import UiScenario.Code.Expr
import UiScenario.Pattern.Regex
import UiScenario.Text.Blank
import UiScenario.Text.Occurrence

/-!
How an element is found, given a selector: by a test identifier, by a text, a label, a placeholder
or a role if the selector says so, by a structural selector if it looks like one, and by its text
otherwise.
-/

namespace UiScenario.Generate

inductive Selector where
  | testId (id : String)
  | text (text : String)
  | label (text : String)
  | placeholder (text : String)
  | role (name : String)
  | structural (selector : String)
deriving DecidableEq

namespace Selector

/-- The rest of a list behind the given start. -/
def after? (start cs : List Char) : Option (List Char) :=
  if start.isPrefixOf cs then some (cs.drop start.length) else none

def isQuote (c : Char) : Bool :=
  c == '"' || c == '\''

/-- The identifier at the start of a list, up to a quote or closing bracket, if the selector ends
right behind it, or behind it and a quote. -/
def closedId? (cs : List Char) : Option (List Char) :=
  let id := cs.takeWhile fun c => !isQuote c && c != ']'
  if id.isEmpty then none
  else match cs.drop id.length with
    | [']'] => some id
    | [q, ']'] => if isQuote q then some id else none
    | _ => none

/-- The identifier behind an equals sign: blanks and a quote may stand in front of it. If there is
nothing else, the last blank is the identifier. -/
def testIdValue? (cs : List Char) : Option (List Char) :=
  let blanks := cs.takeWhile Text.isBlank
  match cs.drop blanks.length with
  | [] => none
  | c :: rest =>
    if isQuote c then closedId? rest <|> blanks.getLast?.bind fun b => closedId? (b :: c :: rest)
    else closedId? (c :: rest) <|> blanks.getLast?.bind fun b => closedId? (b :: c :: rest)

/-- The identifier of a selector such as `[data-testid=submit]`. -/
def testId? (cs : List Char) : Option (List Char) := do
  let rest ← after? "[data-testid".toList cs
  match rest.dropWhile Text.isBlank with
  | '=' :: rest => testIdValue? rest
  | _ => none

/-- Whether a character can stand in the name of an element, a class or an identifier. -/
def isNameChar (c : Char) : Bool :=
  Pattern.isWordChar c || c == '-'

/-- Whether the name of an element at the start is followed by an attribute, a class, an identifier
or a state. -/
def isQualifiedTag : List Char → Bool
  | [] => false
  | c :: cs =>
    c.isAlpha && match cs.dropWhile isNameChar with
      | '[' :: _ => true
      | '.' :: d :: _ | '#' :: d :: _ => isNameChar d
      | ':' :: d :: _ => 'a' ≤ d && d ≤ 'z'
      | _ => false

def structuralStarts : List String :=
  ["//", "(//", "xpath=", "css=", "#", ".", "["]

/-- Whether a selector looks like a structural one. -/
def isStructural (cs : List Char) : Bool :=
  structuralStarts.any (·.toList.isPrefixOf cs) || Text.occursIn " > ".toList cs ||
    Text.occursIn ">>".toList cs || isQualifiedTag cs

/-- The selector that starts with the name of a way to find elements. -/
def named? (cs : List Char) : Option Selector :=
  let rest (start : String) : Option String :=
    (after? start.toList cs).map fun rest => String.ofList (Text.trim rest)
  (rest "text=").map .text <|> (rest "label=").map .label <|>
    (rest "placeholder=").map .placeholder <|> (rest "role=").map .role

def ofText (selector : String) : Selector :=
  let cs := Text.trim selector.toList
  match testId? cs with
  | some id => .testId (String.ofList id)
  | none =>
    match named? cs with
    | some s => s
    | none =>
      if isStructural cs then .structural (String.ofList cs) else .text (String.ofList cs)

def method : Selector → String
  | testId _ => "getByTestId"
  | text _ => "getByText"
  | label _ => "getByLabel"
  | placeholder _ => "getByPlaceholder"
  | role _ => "getByRole"
  | structural _ => "locator"

def argument : Selector → String
  | testId s | text s | label s | placeholder s | role s | structural s => s

def locator (root : String) (s : Selector) : Code.Expr :=
  .invoke (.name root) s.method [.text s.argument]

end Selector

end UiScenario.Generate
