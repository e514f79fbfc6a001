import UiScenario.Json.Basic

/-!
Writing JSON text, on one line (`Json.compact`) or with one member or item a line, indented by two
spaces a level (`Json.pretty`).
-/

namespace UiScenario.Json

def printChar (c : Char) : String :=
  if c = '"' then "\\\""
  else if c = '\\' then "\\\\"
  else if c = '\n' then "\\n"
  else if c = '\r' then "\\r"
  else if c = '\t' then "\\t"
  else if c = '\x08' then "\\b"
  else if c = '\x0c' then "\\f"
  else if c.toNat < 0x20 then
    let digits := Nat.toDigits 16 c.toNat
    "\\u" ++ String.ofList (List.replicate (4 - digits.length) '0' ++ digits)
  else c.toString

def printString (s : String) : String :=
  "\"" ++ String.join (s.toList.map printChar) ++ "\""

mutual

def compact : Json → String
  | .null => "null"
  | .bool b => if b then "true" else "false"
  | .number n => n.text
  | .string s => printString s
  | .array items => "[" ++ ",".intercalate (compactItems items) ++ "]"
  | .object members => "\x7b" ++ ",".intercalate (compactMembers members) ++ "\x7d"

def compactItems : List Json → List String
  | [] => []
  | x :: xs => compact x :: compactItems xs

def compactMembers : List (String × Json) → List String
  | [] => []
  | (name, value) :: rest => (printString name ++ ":" ++ compact value) :: compactMembers rest

end

/-- A bracketed list with one part a line, `level` levels deep. -/
def printBlock (opening closing : String) (level : Nat) (parts : List String) : String :=
  if parts.isEmpty then opening ++ closing
  else
    let indent := String.ofList (List.replicate (2 * level + 2) ' ')
    let outdent := String.ofList (List.replicate (2 * level) ' ')
    opening ++ "\n" ++ ",\n".intercalate (parts.map (indent ++ ·)) ++ "\n" ++ outdent ++ closing

mutual

/-- A value on several lines, `level` levels deep. -/
def prettyAt (level : Nat) : Json → String
  | .array items => printBlock "[" "]" level (prettyItems level items)
  | .object members => printBlock "\x7b" "\x7d" level (prettyMembers level members)
  | .null => "null"
  | .bool b => if b then "true" else "false"
  | .number n => n.text
  | .string s => printString s

def prettyItems (level : Nat) : List Json → List String
  | [] => []
  | x :: xs => prettyAt (level + 1) x :: prettyItems level xs

def prettyMembers (level : Nat) : List (String × Json) → List String
  | [] => []
  | (name, value) :: rest =>
    (printString name ++ ": " ++ prettyAt (level + 1) value) :: prettyMembers level rest

end

def pretty (value : Json) : String :=
  prettyAt 0 value

end UiScenario.Json
