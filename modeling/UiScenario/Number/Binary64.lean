import UiScenario.Number.Power

/-!
Binary floating point numbers with 53 significant bits, as exact integers: `mantissa * 2 ^ exponent`
with a mantissa below `2 ^ 53` and exponents from -1074 to 971. Only numbers that are not negative
occur; signs are kept elsewhere.
-/

namespace UiScenario

/-- The number `mantissa * 2 ^ exponent`. -/
structure Binary64 where
  mantissa : Nat
  exponent : Int
deriving DecidableEq

namespace Binary64

/-- The least exponent, that of the numbers next to zero. -/
abbrev minExponent : Int := -1074

abbrev maxExponent : Int := 971

/-- The bound of mantissas, `2 ^ 53`. -/
abbrev mantissaBound : Nat := 9007199254740992

/-- The least mantissa of numbers with all significant bits, `2 ^ 52`. -/
abbrev leastFull : Nat := 4503599627370496

def zero : Binary64 := ⟨0, minExponent⟩

/-- The fraction `num / (den * 2 ^ e)`, rounded to the nearest integer, a half to the even one. -/
def roundAt (num den : Nat) (e : Int) : Nat :=
  let n := num * powTwo (-e).toNat
  let d := den * powTwo e.toNat
  let q := n / d
  let r := n % d
  if 2 * r < d then q
  else if 2 * r > d then q + 1
  else if q % 2 = 0 then q else q + 1

/-- The largest integer that is at most `num / (den * 2 ^ e)`. -/
def floorAt (num den : Nat) (e : Int) : Nat :=
  num * powTwo (-e).toNat / (den * powTwo e.toNat)

/-- The exponent at which `num / den` has 53 significant bits, or the least exponent. -/
def exponentOf (num den : Nat) : Int :=
  let guess : Int := (Nat.log2 num : Int) - Nat.log2 den - 53
  let e := if floorAt num den guess < mantissaBound then guess else guess + 1
  max e minExponent

/-- The number nearest to `num / den`, if it is in range. -/
def ofRatio? (num den : Nat) : Option Binary64 :=
  if num = 0 then some zero
  else
    let e := exponentOf num den
    let m := roundAt num den e
    let x : Binary64 := if m < mantissaBound then ⟨m, e⟩ else ⟨leastFull, e + 1⟩
    if x.exponent ≤ maxExponent then some x else none

/-- The numerator of the number. -/
def num (x : Binary64) : Nat :=
  x.mantissa * powTwo x.exponent.toNat

/-- The denominator of the number. -/
def den (x : Binary64) : Nat :=
  powTwo (-x.exponent).toNat

def mul? (x y : Binary64) : Option Binary64 :=
  ofRatio? (x.num * y.num) (x.den * y.den)

def div? (x y : Binary64) : Option Binary64 :=
  ofRatio? (x.num * y.den) (x.den * y.num)

/-- The number nearest to `10 ^ k`. -/
def powTen? (k : Nat) : Option Binary64 :=
  ofRatio? (powTen k) 1

end Binary64

end UiScenario
