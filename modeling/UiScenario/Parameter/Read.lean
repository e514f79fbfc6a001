import UiScenario.Decimal.Read
import UiScenario.Json.Reader
import UiScenario.Parameter.Basic

/-!
Reading parameters from JSON. A file is an array of combinations, each an object of names and
values, or an object with these under `values` and perhaps a `label`.
-/

namespace UiScenario

/-- What is wrong with parameters. Combinations are counted from one. -/
inductive ParameterError where
  | notJson
  | notAnArray
  | notAnObject (combination : Nat)
  | labelNotText (combination : Nat)
  | invalidName (name : String) (combination : Nat)
  | reservedName (name : String) (combination : Nat)
  | nestedObject
  | number (text : String) (error : Decimal.ReadError)
deriving DecidableEq

def ParameterError.message : ParameterError → String
  | notJson => "not JSON"
  | notAnArray => "expected an array of combinations"
  | notAnObject n => s!"combination #{n} is not an object"
  | labelNotText n => s!"label of combination #{n} must be a string"
  | invalidName name n => s!"'{name}' in combination #{n} is not a valid variable name"
  | reservedName name n => s!"'{name}' in combination #{n} is reserved and cannot be a parameter"
  | nestedObject => "nested objects cannot be bound to a variable"
  | number text e => s!"number {text}: {e.message}"

def Decimal.readExponent? (cs : List Char) : Option Int :=
  let digits? (ds : List Char) : Option Nat :=
    if !ds.isEmpty && ds.all Char.isDigit then
      some (ds.foldl (fun n d => 10 * n + digitValue d) 0)
    else none
  match cs with
  | '-' :: ds => (digits? ds).map fun n => -(n : Int)
  | '+' :: ds => (digits? ds).map Int.ofNat
  | ds => (digits? ds).map Int.ofNat

/-- Reads a numeral, which may have a power of ten behind it. -/
def Decimal.readScientific (text : String) : Except Decimal.ReadError Decimal :=
  match read? text with
  | some d => .ok d
  | none =>
    let isMark (c : Char) : Bool := c == 'e' || c == 'E'
    let base := text.toList.takeWhile (!isMark ·)
    let power := (text.toList.dropWhile (!isMark ·)).drop 1
    match read? (String.ofList base), readExponent? power with
    | some d, some exponent => d.scaled exponent
    | _, _ => .error .malformed

namespace ParamValue

mutual

/-- The value that JSON stands for. Objects stand for none. -/
def ofJson : Json → Except ParameterError ParamValue
  | .null => .ok .null
  | .bool b => .ok (.flag b)
  | .number n =>
    match Decimal.readScientific n.text with
    | .ok d => .ok (.number d)
    | .error e => .error (.number n.text e)
  | .string s => .ok (.text s)
  | .array items => do return .list (← ofJsonList items)
  | .object _ => .error .nestedObject

/-- The values that JSON values stand for, up to the first fault. -/
def ofJsonList : List Json → Except ParameterError (List ParamValue)
  | [] => .ok []
  | j :: rest => do
    let v ← ofJson j
    return v :: (← ofJsonList rest)

end

end ParamValue

namespace Combination

/-- Whether a name can be bound: a letter or underscore, and then letters, digits and underscores,
all of them ASCII. -/
def isBindingName (name : String) : Bool :=
  match name.toList with
  | [] => false
  | c :: cs => (c.isAlpha || c == '_') && cs.all fun d => d.isAlphanum || d == '_'

/-- The names that generated tests use themselves, and the reserved words of their language. -/
def reservedNames : List String :=
  ["page", "browser", "test", "expect", "testData", "process", "String", "RegExp", "await",
    "break", "case", "catch", "class", "const", "continue", "debugger", "default", "delete", "do",
    "else", "enum", "export", "extends", "false", "finally", "for", "function", "if", "import",
    "in", "instanceof", "let", "new", "null", "return", "super", "switch", "this", "throw",
    "true", "try", "typeof", "undefined", "var", "void", "while", "with", "yield"]

def checkName (index : Nat) (name : String) : Except ParameterError Unit :=
  if !isBindingName name then .error (.invalidName name index)
  else if reservedNames.contains name then .error (.reservedName name index)
  else .ok ()

def readValues (index : Nat) (members : List (String × Json)) :
    Except ParameterError (List (String × ParamValue)) :=
  members.mapM fun (name, value) => do
    checkName index name
    return (name, ← ParamValue.ofJson value)

/-- The members under `values`, if an object has nothing else but perhaps a label. -/
def wrapped? (members : List (String × Json)) : Option (List (String × Json)) :=
  match members.lookup "values" with
  | some (.object values) =>
    if members.all fun (name, _) => name == "values" || name == "label" then some values else none
  | _ => none

def readLabel (index : Nat) (members : List (String × Json)) :
    Except ParameterError (Option String) :=
  match members.lookup "label" with
  | none => .ok none
  | some (.string label) => .ok (some label)
  | some _ => .error (.labelNotText index)

def ofJson (index : Nat) : Json → Except ParameterError Combination
  | .object members =>
    match wrapped? members with
    | some values => do
      let label ← readLabel index members
      return ⟨label, ← readValues index values⟩
    | none => do return ⟨none, ← readValues index members⟩
  | _ => .error (.notAnObject index)

/-- Reads combinations, the first of which has the given number. -/
def ofJsonList (index : Nat) : List Json → Except ParameterError (List Combination)
  | [] => .ok []
  | j :: rest => do
    let c ← ofJson index j
    return c :: (← ofJsonList (index + 1) rest)

def readAll (text : String) : Except ParameterError (List Combination) :=
  match Json.read? text with
  | none => .error .notJson
  | some (.array items) => ofJsonList 1 items
  | some _ => .error .notAnArray

end Combination

end UiScenario
