/-!
Tables of characters. A character property is a list of ranges of code points, and a mapping of
characters is a list of runs, each with the image of its first code point.
-/

namespace UiScenario.Text

/-- The value of a hexadecimal digit. Letters are capitals. -/
def hexValue (c : Char) : Nat :=
  if c.isDigit then c.toNat - '0'.toNat else c.toNat - 'A'.toNat + 10

/-- Reads ranges, the first of which has the digits of `hi` at its end, and `lo` in front of them if
it has a hyphen. -/
def readRanges (lo hi : Option Nat) : List Char → List (Nat × Nat)
  | [] => (hi.map fun n => (lo.getD n, n)).toList
  | '-' :: cs => readRanges hi none cs
  | c :: cs =>
    if c.isWhitespace then (hi.map fun n => (lo.getD n, n)).toList ++ readRanges none none cs
    else readRanges lo (some (16 * hi.getD 0 + hexValue c)) cs

/-- The ranges that a text lists, with blanks between them and code points in hexadecimal digits:
`41-5A` is a range, `AA` a single code point. -/
def ranges (text : String) : List (Nat × Nat) :=
  readRanges none none text.toList

/-- Whether `n` lies in one of the ranges, whose ends are included. -/
def inRanges (ranges : List (Nat × Nat)) (n : Nat) : Bool :=
  ranges.any fun (lo, hi) => lo ≤ n && n ≤ hi

/-- Whether `n` is one of `lo`, `lo + step`, ..., `hi` for an entry `(lo, hi, step)`. -/
def inRuns (runs : List (Nat × Nat × Nat)) (n : Nat) : Bool :=
  runs.any fun (lo, hi, step) => lo ≤ n && n ≤ hi && (n - lo) % step == 0

/-- The ranges that runs consist of. -/
def runRanges (runs : List (Nat × Nat × Nat)) : List (Nat × Nat) :=
  runs.flatMap fun (lo, hi, step) =>
    if step = 1 then [(lo, hi)]
    else (List.range ((hi - lo) / step + 1)).map fun k => (lo + k * step, lo + k * step)

/-- The image of `n`: an entry `(lo, hi, step, image)` sends `lo + k * step` to `image + k * step`,
and a code point of no entry is its own image. -/
def runImage (runs : List (Nat × Nat × Nat × Nat)) (n : Nat) : Nat :=
  match runs.find? fun (lo, hi, step, _) => lo ≤ n && n ≤ hi && (n - lo) % step == 0 with
  | some (lo, _, _, image) => image + (n - lo)
  | none => n

/-- The code points that some entry sends to `n`. -/
def runPreimages (runs : List (Nat × Nat × Nat × Nat)) (n : Nat) : List Nat :=
  runs.filterMap fun (lo, hi, step, image) =>
    if image ≤ n && n - image ≤ hi - lo && (n - image) % step == 0 then some (lo + (n - image))
    else none

end UiScenario.Text
