import UiScenario.Text.CaseMap
import UiScenario.Text.LetterCase

/-!
Styles of names. In `PascalCase` a name starts with a capital letter and in `camelCase` with a small
one; neither style has joints inside a name.
-/

namespace UiScenario.Text

/-- Whether a character joins the words of a name. -/
def isJoint (c : Char) : Bool :=
  c == '_' || c == '-' || c == ' '

/-- The words of a name whose current word has the characters `word` so far. A joint ends a word,
and a capital letter starts one. -/
def splitWords (word : List Char) : List Char → List (List Char)
  | [] => if word.isEmpty then [] else [word]
  | c :: cs =>
    if isJoint c then
      if word.isEmpty then splitWords [] cs else word :: splitWords [] cs
    else if isUppercase c && !word.isEmpty then word :: splitWords [c] cs
    else splitWords (word ++ [c]) cs

/-- A word with a capital first letter and small ones behind it. -/
def capitalize : List Char → List Char
  | [] => []
  | c :: cs => upperChar c ++ cs.flatMap lowerChar

/-- The words of a name in capitals, without joints. -/
def pascalChars (cs : List Char) : List Char :=
  (splitWords [] cs).flatMap capitalize

def camelChars (cs : List Char) : List Char :=
  match pascalChars cs with
  | [] => []
  | c :: cs => lowerChar c ++ cs

def pascalCase (name : String) : String :=
  String.ofList (pascalChars name.toList)

def camelCase (name : String) : String :=
  String.ofList (camelChars name.toList)

/-- Whether a name starts with a character of a kind and has no hyphens and underscores. -/
def isStyled (start : Char → Bool) (name : String) : Bool :=
  name.toList.head?.any start && !name.toList.any fun c => c == '_' || c == '-'

def isPascalCase (name : String) : Bool :=
  isStyled isUppercase name

def isCamelCase (name : String) : Bool :=
  isStyled isLowercase name

end UiScenario.Text
