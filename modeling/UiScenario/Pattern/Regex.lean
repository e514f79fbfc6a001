import UiScenario.Pattern.CharSet
import UiScenario.Text.Alphabetic
import UiScenario.Text.Category

/-!
Regular expressions and where they match.

* `Regex.ends` lists the places where a match that starts at a place can end. A repetition goes
  through at most as many rounds as the text has places: a longer run has a round that reads
  nothing, and leaving it out or doing it again changes nothing;
* `Regex.matches_` looks for a match anywhere in a text.
-/

namespace UiScenario.Pattern

def isWordChar (c : Char) : Bool :=
  Text.isAlphabetic c || Text.hasCategory ["Mn", "Mc", "Me", "Nd", "Pc"] c || c == '\u200c' ||
    c == '\u200d'

/-- Whether a character belongs to words of ASCII letters. -/
def isAsciiWordChar (c : Char) : Bool :=
  c.isAlphanum || c == '_'

inductive WordEdge where
  | boundary | noBoundary | start | stop | startHalf | stopHalf
deriving DecidableEq

inductive Look where
  | textStart | textEnd
  | lineStart | lineEnd
  /-- As `lineStart`, where a carriage return ends lines, too. -/
  | returnStart
  /-- As `lineEnd`, where a carriage return ends lines, too. -/
  | returnEnd
  | word (ascii : Bool) (edge : WordEdge)
deriving DecidableEq

/-- Whether a condition holds between two characters; there is none at the ends of a text. -/
def Look.holds (l : Look) (before after : Option Char) : Bool :=
  match l with
  | textStart => before.isNone
  | textEnd => after.isNone
  | lineStart => before.isNone || before == some '\n'
  | lineEnd => after.isNone || after == some '\n'
  | returnStart =>
    before.isNone || before == some '\n' || (before == some '\r' && after != some '\n')
  | returnEnd =>
    after.isNone || after == some '\r' || (after == some '\n' && before != some '\r')
  | word ascii edge =>
    let isWord := if ascii then isAsciiWordChar else isWordChar
    let b := before.any isWord
    let a := after.any isWord
    match edge with
    | .boundary => b != a
    | .noBoundary => b == a
    | .start => !b && a
    | .stop => b && !a
    | .startHalf => !b
    | .stopHalf => !a

inductive Regex where
  | empty
  | set (s : CharSet)
  | look (l : Look)
  | seq (a b : Regex)
  | alt (a b : Regex)
  | repeat_ (r : Regex) (least : Nat) (most : Option Nat)

namespace Regex

/-- The places behind `n` rounds of a step, from any of `ps`. -/
def rounds (step : Nat → List Nat) : Nat → List Nat → List Nat
  | 0, ps => ps
  | n + 1, ps => rounds step n (ps.flatMap step).eraseDups

/-- The places behind at most `n` rounds of a step, from any of `ps`. -/
def roundsUpTo (step : Nat → List Nat) : Nat → List Nat → List Nat
  | 0, ps => ps
  | n + 1, ps => (ps ++ roundsUpTo step n (ps.flatMap step).eraseDups).eraseDups

def before? (text : Array Char) (p : Nat) : Option Char :=
  if p = 0 then none else text[p - 1]?

def ends (text : Array Char) : Regex → Nat → List Nat
  | empty, p => [p]
  | set s, p => if text[p]?.any s.contains then [p + 1] else []
  | look l, p => if l.holds (before? text p) text[p]? then [p] else []
  | seq a b, p => ((ends text a p).flatMap (ends text b)).eraseDups
  | alt a b, p => (ends text a p ++ ends text b p).eraseDups
  | repeat_ r least most, p =>
    let bound := text.size + 1
    let more := most.elim bound fun m => min (m - least) bound
    roundsUpTo (ends text r) more (rounds (ends text r) (min least bound) [p])

def matches_ (r : Regex) (text : String) : Bool :=
  let chars := text.toList.toArray
  (List.range (chars.size + 1)).any fun p => !(ends chars r p).isEmpty

/-- The size of an expression with all repetitions written out. -/
def size : Regex → Nat
  | empty | look _ => 32
  | set s => if s.ranges ≤ 1 then 32 else if s.ranges ≤ 4 then 64 + 8 * s.ranges else 64 * s.ranges
  | seq a b => size a + size b
  | alt a b => 40 + size a + size b
  | repeat_ r least most =>
    let more := most.elim 1 fun m => m - least
    size r * least + (size r + 40) * more

/-- Expressions above this size are refused. -/
def sizeLimit : Nat :=
  10 * 1024 * 1024

end Regex

end UiScenario.Pattern
