import UiScenario.Decimal.Basic
import UiScenario.Text.Category

/-!
Expressions of the generated test code, and how they are written. Parentheses are part of an
expression, so every expression is written in one way, whatever stands around it.
-/

namespace UiScenario.Code

/-! ## Literals -/

/-- The hexadecimal digit with a value below sixteen. -/
def hexDigit (d : Nat) : Char :=
  if d < 10 then Char.ofNat (48 + d) else Char.ofNat (87 + d)

/-- The last `count` hexadecimal digits of a number. -/
def hexDigits : (count : Nat) → Nat → List Char
  | 0, _ => []
  | count + 1, n => hexDigits count (n / 16) ++ [hexDigit (n % 16)]

/-- A character inside a quoted text. Control characters are written by number. -/
def quoteChar (c : Char) : List Char :=
  if c = '\'' then ['\\', '\'']
  else if c = '\\' then ['\\', '\\']
  else if c = '\n' then ['\\', 'n']
  else if c = '\r' then ['\\', 'r']
  else if c = '\t' then ['\\', 't']
  else if Text.inRanges Text.categoryCc c.toNat then '\\' :: 'u' :: hexDigits 4 c.toNat
  else [c]

def quoteChars (cs : List Char) : List Char :=
  '\'' :: (cs.flatMap quoteChar ++ ['\''])

def quote (s : String) : String :=
  String.ofList (quoteChars s.toList)

/-- Whether a character needs a backslash between slashes. -/
def isRegexSign (c : Char) : Bool :=
  ['.', '*', '+', '?', '^', '$', '\x7b', '\x7d', '(', ')', '|', '[', ']', '\\', '/'].contains c

/-- Characters between slashes that stand for themselves. -/
def regexChars (cs : List Char) : List Char :=
  cs.flatMap fun c => if isRegexSign c then ['\\', c] else [c]

/-- A text between slashes that stands for itself. -/
def regexLiteral (s : String) : String :=
  String.ofList ('/' :: (regexChars s.toList ++ ['/']))

/-! ## Expressions -/

inductive Operator where
  | add | sub | mul
  | same | notSame | equal | notEqual | greater | less | greaterEqual | lessEqual
  | and | or | orElse
deriving DecidableEq

def Operator.text : Operator → String
  | add => "+"
  | sub => "-"
  | mul => "*"
  | same => "==="
  | notSame => "!=="
  | equal => "=="
  | notEqual => "!="
  | greater => ">"
  | less => "<"
  | greaterEqual => ">="
  | lessEqual => "<="
  | and => "&&"
  | or => "||"
  | orElse => "??"

inductive Expr where
  | name (name : String)
  | text (value : String)
  | integer (value : Int)
  | number (value : Decimal)
  | flag (value : Bool)
  | null
  /-- A regular expression that finds the given text. -/
  | containing (text : String)
  /-- A regular expression, written as given. -/
  | regex (source : String)
  | array (items : List Expr)
  | object (members : List (String × Expr))
  | member (object : Expr) (name : String)
  | index (object index : Expr)
  | call (function : Expr) (arguments : List Expr)
  | new (function : String) (arguments : List Expr)
  | await (value : Expr)
  | not (value : Expr)
  | binary (operator : Operator) (left right : Expr)
  | paren (value : Expr)
  /-- A function with one parameter and a value. -/
  | arrow (parameter : String) (value : Expr)
  /-- A function without parameters that evaluates expressions in turn. -/
  | procedure (steps : List Expr)

namespace Expr

mutual

def print : Expr → String
  | name n => n
  | text s => quote s
  | integer n => toString n
  | number d => d.shortText
  | flag b => if b then "true" else "false"
  | null => "null"
  | containing s => regexLiteral s
  | regex source => source
  | array items => "[" ++ ", ".intercalate (printAll items) ++ "]"
  | object members => "\x7b " ++ ", ".intercalate (printMembers members) ++ " \x7d"
  | member o n => print o ++ "." ++ n
  | index o i => print o ++ "[" ++ print i ++ "]"
  | call f arguments => print f ++ "(" ++ ", ".intercalate (printAll arguments) ++ ")"
  | new f arguments => "new " ++ f ++ "(" ++ ", ".intercalate (printAll arguments) ++ ")"
  | await e => "await " ++ print e
  | not e => "!" ++ print e
  | binary op l r => print l ++ " " ++ op.text ++ " " ++ print r
  | paren e => "(" ++ print e ++ ")"
  | arrow p e => "(" ++ p ++ ") => " ++ print e
  | procedure steps => "() => \x7b " ++ String.join (printSteps steps) ++ "\x7d"

def printAll : List Expr → List String
  | [] => []
  | e :: rest => print e :: printAll rest

def printMembers : List (String × Expr) → List String
  | [] => []
  | (n, e) :: rest => (n ++ ": " ++ print e) :: printMembers rest

def printSteps : List Expr → List String
  | [] => []
  | e :: rest => (print e ++ "; ") :: printSteps rest

end

def invoke (object : Expr) (method : String) (arguments : List Expr) : Expr :=
  call (member object method) arguments

def stringOf (e : Expr) : Expr :=
  call (name "String") [e]

/-- A sum of expressions; of none, the empty text. -/
def sum : List Expr → Expr
  | [] => text ""
  | e :: rest => rest.foldl (binary .add) e

end Expr

end UiScenario.Code
