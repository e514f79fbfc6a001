import UiScenario.Number.Binary64

/-!
The shortest decimal that reads back as a given binary number. The reals that round to the number
form an interval; for one digit, two digits and so on the two neighbours of the number with that
many digits are tried, and the first that lies in the interval is taken, the nearer one if both do.
-/

namespace UiScenario.Binary64

/-- The reals that round to a number, as fractions over a common denominator. -/
structure Interval where
  low : Nat
  value : Nat
  high : Nat
  den : Nat
  closed : Bool

/-- The reals that round to `x`. The gap below a power of two is half the gap above it. -/
def interval (x : Binary64) : Interval :=
  let unit := powTwo x.exponent.toNat
  let gap := if x.mantissa = leastFull && x.exponent > minExponent then unit else 2 * unit
  { low := 4 * x.num - gap
    value := 4 * x.num
    high := 4 * x.num + 2 * unit
    den := 4 * x.den
    closed := x.mantissa % 2 = 0 }

/-- Whether `n * 10 ^ k` lies in the interval. -/
def Interval.contains (i : Interval) (n : Nat) (k : Int) : Bool :=
  let v := n * powTen k.toNat * i.den
  let s := powTen (-k).toNat
  if i.closed then i.low * s ≤ v && v ≤ i.high * s else i.low * s < v && v < i.high * s

/-- The power of ten of the first digit of `num / den`, searched downwards from `k`. -/
def leadingPower (num den : Nat) : Nat → Int → Int
  | 0, k => k
  | fuel + 1, k =>
    if powTen k.toNat * den ≤ num * powTen (-k).toNat then k else leadingPower num den fuel (k - 1)

/-- The neighbour of the number on the grid `10 ^ k` that reads back, if there is one. -/
def Interval.onGrid? (i : Interval) (k : Int) : Option Nat :=
  let n := i.value * powTen (-k).toNat
  let d := i.den * powTen k.toNat
  let q := n / d
  let r := n % d
  match i.contains q k, i.contains (q + 1) k with
  | true, true => some (if 2 * r < d then q else if 2 * r > d then q + 1 else q + q % 2)
  | true, false => some q
  | false, true => some (q + 1)
  | false, false => none

/-- The digits and the power of ten `k` of the shortest decimal `digits * 10 ^ k`; the digits do not
end in a zero. -/
def shortest (x : Binary64) : Nat × Int :=
  if x.mantissa = 0 then (0, 0)
  else
    let i := interval x
    let top := leadingPower i.value i.den 640 309
    let candidate (n : Nat) : Option (Nat × Int) :=
      let k := top - (n : Int)
      (i.onGrid? k).map fun m => if m % 10 = 0 then (m / 10, k + 1) else (m, k)
    ((List.range 17).findSome? candidate).getD (0, 0)

/-- How numerals are written: powers of ten of the first digit from `-5` to `15` are written out,
with at least one digit behind the point; all others in scientific form with a signed exponent. -/
def numeral (x : Binary64) : String :=
  let (m, k) := shortest x
  let digits := Nat.toDigits 10 m
  let lead : Int := k + digits.length - 1
  let chars :=
    if m = 0 then ['0', '.', '0']
    else if -5 ≤ lead ∧ lead ≤ 15 then
      if k ≥ 0 then digits ++ List.replicate k.toNat '0' ++ ['.', '0']
      else if lead ≥ 0 then
        digits.take (lead.toNat + 1) ++ '.' :: digits.drop (lead.toNat + 1)
      else '0' :: '.' :: List.replicate (-lead - 1).toNat '0' ++ digits
    else
      let fraction := if digits.length = 1 then [] else '.' :: digits.tail
      let sign := if lead < 0 then '-' else '+'
      digits.take 1 ++ fraction ++ 'e' :: sign :: Nat.toDigits 10 lead.natAbs
  String.ofList chars

end UiScenario.Binary64
