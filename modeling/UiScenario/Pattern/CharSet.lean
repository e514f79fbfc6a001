import UiScenario.Text.Folding
import UiScenario.Text.Ranges

/-!
Sets of characters, and how many ranges it takes to write them out.
-/

namespace UiScenario.Pattern

structure CharSet where
  /-- A bound on the number of ranges of the set. -/
  ranges : Nat
  contains : Char → Bool

namespace CharSet

def empty : CharSet :=
  ⟨0, fun _ => false⟩

def all : CharSet :=
  ⟨1, fun _ => true⟩

def ofList (cs : List Char) : CharSet :=
  ⟨cs.length, cs.contains⟩

def ofRange (lo hi : Char) : CharSet :=
  ⟨1, fun c => lo ≤ c && c ≤ hi⟩

def ofTable (table : List (Nat × Nat)) : CharSet :=
  ⟨table.length, fun c => Text.inRanges table c.toNat⟩

def union (s t : CharSet) : CharSet :=
  ⟨s.ranges + t.ranges, fun c => s.contains c || t.contains c⟩

def inter (s t : CharSet) : CharSet :=
  ⟨s.ranges + t.ranges, fun c => s.contains c && t.contains c⟩

def diff (s t : CharSet) : CharSet :=
  ⟨s.ranges + t.ranges, fun c => s.contains c && !t.contains c⟩

/-- The characters in one of the sets but not in both. -/
def symmDiff (s t : CharSet) : CharSet :=
  ⟨s.ranges + t.ranges, fun c => s.contains c != t.contains c⟩

def negate (s : CharSet) : CharSet :=
  ⟨s.ranges + 1, fun c => !s.contains c⟩

/-- The set with all case variants of its characters. -/
def foldCase (s : CharSet) : CharSet :=
  ⟨2 * s.ranges, fun c => (Text.caseVariants c).any s.contains⟩

/-- The set with the other case of its ASCII letters. -/
def foldAscii (s : CharSet) : CharSet :=
  ⟨2 * s.ranges, fun c => s.contains c || s.contains c.toLower || s.contains c.toUpper⟩

end CharSet

end UiScenario.Pattern
