import UiScenario.Text.CaseMap

/-!
Letters that count as equal when case is ignored: the simple case folding. Every character has one
representative, and two characters are variants of each other if they share it.
-/

namespace UiScenario.Text

/-- The characters whose representative is not their small letter. -/
def foldExceptions : List (Nat × Nat × Nat × Nat) := [
  (0x17F, 0x17F, 1, 0x73), (0x399, 0x399, 1, 0x345), (0x39C, 0x39C, 1, 0xB5),
  (0x3A3, 0x3A3, 1, 0x3C2), (0x3B9, 0x3B9, 1, 0x345), (0x3BC, 0x3BC, 1, 0xB5),
  (0x3C3, 0x3C3, 1, 0x3C2), (0x3D0, 0x3D0, 1, 0x3B2), (0x3D1, 0x3D1, 1, 0x3B8),
  (0x3D5, 0x3D5, 1, 0x3C6), (0x3D6, 0x3D6, 1, 0x3C0), (0x3F0, 0x3F0, 1, 0x3BA),
  (0x3F1, 0x3F1, 1, 0x3C1), (0x3F5, 0x3F5, 1, 0x3B5), (0x1C80, 0x1C80, 1, 0x432),
  (0x1C81, 0x1C81, 1, 0x434), (0x1C82, 0x1C82, 1, 0x43E), (0x1C83, 0x1C84, 1, 0x441),
  (0x1C85, 0x1C85, 1, 0x442), (0x1C86, 0x1C86, 1, 0x44A), (0x1C87, 0x1C87, 1, 0x463),
  (0x1E9B, 0x1E9B, 1, 0x1E61), (0x1FBE, 0x1FBE, 1, 0x345), (0xA64A, 0xA64A, 1, 0x1C88),
  (0xA64B, 0xA64B, 1, 0x1C88)]

/-- The mapping of characters to their representatives. -/
def foldRuns : List (Nat × Nat × Nat × Nat) :=
  foldExceptions ++ (0x41, 0x5A, 1, 0x61) :: lowerRuns

/-- All characters with the same representative as `c`. -/
def caseVariants (c : Char) : List Char :=
  let r := runImage foldRuns c.toNat
  (r :: runPreimages foldRuns r).map Char.ofNat

end UiScenario.Text
