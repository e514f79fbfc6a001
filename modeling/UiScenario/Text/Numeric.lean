import UiScenario.Text.Alphabetic

/-!
Digits and other number characters: the general categories Nd, Nl and No.
-/

namespace UiScenario.Text

def numericRanges : List (Nat × Nat) :=
  categoryNd ++ categoryNl ++ categoryNo

/-- Whether a character is a digit or another number sign. -/
def isNumeric (c : Char) : Bool :=
  if c.toNat < 128 then c.isDigit else inRanges numericRanges c.toNat

/-- Whether a character is a letter or a number sign. -/
def isAlphanumeric (c : Char) : Bool :=
  isAlphabetic c || isNumeric c

end UiScenario.Text
