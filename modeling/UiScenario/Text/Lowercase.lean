import UiScenario.Text.CaseMap
import UiScenario.Text.Category

/-!
The small form of a whole text. It differs from the character by character form in one place: a
capital sigma that ends a word becomes the final small sigma. Main definition: `lower`.
-/

namespace UiScenario.Text

/-- The characters that are looked through when the ends of a word are sought (Case_Ignorable):
marks, format characters, modifiers, and signs that stand inside words. -/
def caseIgnorableRanges : List (Nat × Nat) :=
  categoryMn ++ categoryMe ++ categoryCf ++ categoryLm ++ categorySk ++ ranges
    "27 2E 3A B7 387 55F 5F4 2018-2019 2024 2027 FE13 FE52 FE55 FF07 FF0E FF1A"

/-- Whether a character is looked through when the ends of a word are sought. -/
def isCaseIgnorable (c : Char) : Bool :=
  inRanges caseIgnorableRanges c.toNat

/-- Whether a character has a case: capital, small or title case. -/
def isCased (c : Char) : Bool :=
  isUppercase c || isLowercase c || inRanges categoryLt c.toNat

/-- Whether the first character that is not looked through has a case. -/
def reachesCased (cs : List Char) : Bool :=
  (cs.dropWhile isCaseIgnorable).head?.any isCased

/-- The small form of the characters `cs`, where `before` holds the characters in front of them, the
nearest first. -/
def lowerAfter (before : List Char) : List Char → List Char
  | [] => []
  | c :: cs =>
    let image :=
      if c = 'Σ' then
        if reachesCased before && !reachesCased cs then ['ς'] else ['σ']
      else lowerChar c
    image ++ lowerAfter (c :: before) cs

def lower (s : String) : String :=
  String.ofList (lowerAfter [] s.toList)

end UiScenario.Text
