import UiScenario.Text.Lowercase

/-!
Edit distance, and the name that is closest to a mistyped one.

The distance is computed row by row: the row of a text holds its distances to all beginnings of the
other text, the shortest first. Entries are looked up by their index, and an index that is out of
range gives no distance.
-/

namespace UiScenario.Text

/-- Computes the entry behind `current` for the character at place `j`, from the entries around it:
two of the row before, which is for one character less, and the last one. -/
def pushEntry (previous : List Nat) (a : Char) (current : List Nat) :
    Char × Nat → Option (List Nat)
  | (b, j) => do
    let cost := if a = b then 0 else 1
    let replaced := (← previous[j]?) + cost
    let deleted := (← previous[j + 1]?) + 1
    let inserted := (← current[j]?) + 1
    return current ++ [min (min replaced deleted) inserted]

/-- The row of a text with `a` at place `i`, its last one, from the row of the text without it. -/
def nextRow (bs : List Char) (previous : List Nat) : Char × Nat → Option (List Nat)
  | (a, i) => bs.zipIdx.foldlM (pushEntry previous a) [i + 1]

/-- The distances of `as` to all beginnings of `bs`. -/
def distanceRow (bs as : List Char) : Option (List Nat) :=
  as.zipIdx.foldlM (nextRow bs) (List.range (bs.length + 1))

def distance? (as bs : List Char) : Option Nat := do
  (← distanceRow bs as)[bs.length]?

/-- The least number of insertions, deletions and replacements that turn `as` into `bs`. No index is
out of range, so there always is one. -/
def distance (as bs : List Char) : Nat :=
  (distance? as bs).getD 0

/-- The distance of two names in small letters. -/
def nameDistance (a b : String) : Nat :=
  distance (lower a).toList (lower b).toList

/-- How far a name may be off. -/
def typoLimit (name : String) : Nat :=
  max 1 ((name.length + 2) / 3)

/-- The first of the elements with the least key. -/
def firstMin? {α : Type} (key : α → Nat) : List α → Option α
  | [] => none
  | x :: xs =>
    match firstMin? key xs with
    | some y => if key y < key x then some y else some x
    | none => some x

/-- The closest candidate other than the name itself, within the limit; the first of several. -/
def closest? (name : String) (candidates : List String) : Option String :=
  firstMin? (nameDistance name) <|
    candidates.filter fun c => c != name && nameDistance name c ≤ typoLimit name

end UiScenario.Text
