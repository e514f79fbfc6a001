import UiScenario.Text.Category
import UiScenario.Text.Property

/-!
The escaped form of a text, in double quotes: every character that would not show, or that would
join the character in front of it, is written by its code point.
-/

namespace UiScenario.Text

/-- The code point of a character in hexadecimal digits, between braces. -/
def escapedCode (c : Char) : String :=
  "\\u\x7b" ++ String.ofList (Nat.toDigits 16 c.toNat) ++ "\x7d"

def escapeChar (c : Char) : String :=
  if c = '\x00' then "\\0"
  else if c = '\t' then "\\t"
  else if c = '\r' then "\\r"
  else if c = '\n' then "\\n"
  else if c = '\\' then "\\\\"
  else if c = '"' then "\\\""
  else if c = ' ' then " "
  else if isClusterExtender c || !isVisible c then escapedCode c
  else c.toString

def escaped (s : String) : String :=
  "\"" ++ String.join (s.toList.map escapeChar) ++ "\""

end UiScenario.Text
