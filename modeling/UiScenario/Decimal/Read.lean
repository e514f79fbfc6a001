import UiScenario.Decimal.Basic
import UiScenario.Number.Power

/-!
Reading decimals. A numeral is an optional sign and digits with at most one point; `_` may stand
anywhere behind the first digit. The whole part must fit; fraction digits are taken while they fit,
and the first one that does not rounds the last one taken.
-/

namespace UiScenario.Decimal

def digitValue (c : Char) : Nat :=
  c.toNat - '0'.toNat

/-- Whether a character may stand in the part of a numeral that is only looked at. -/
def isFiller (c : Char) : Bool :=
  c.isDigit || c = '_'

/-- Ends a numeral at the first character `c` whose digit does not fit: a digit of at least five
rounds up. A mantissa that rounds up to the bound gives up its last digit. -/
def roundOff (m scale : Nat) (c : Char) (rest : List Char) : Option (Nat × Nat) :=
  if !isFiller c || !rest.all isFiller then none
  else if c = '_' || digitValue c < 5 then some (m, scale)
  else if m + 1 < mantissaBound then some (m + 1, scale)
  else if scale = 0 then none
  else some ((m + 1 + 4) / 10, scale - 1)

/-- Reads the digits of a numeral behind its sign. `m` and `scale` are the digits taken so far,
`point` tells whether the point was met and `seen` whether a digit was. -/
def readDigits (m scale : Nat) (point seen : Bool) : List Char → Option (Nat × Nat)
  | [] => if seen then some (m, scale) else none
  | c :: rest =>
    if point && scale ≥ maxScale then roundOff m scale c rest
    else if c.isDigit then
      let m' := 10 * m + digitValue c
      if m' < mantissaBound then readDigits m' (if point then scale + 1 else scale) point true rest
      else if point then roundOff m scale c rest
      else none
    else if c = '.' && !point then readDigits m scale true seen rest
    else if c = '_' && seen then readDigits m scale point seen rest
    else none

def readUnsigned? (negative : Bool) (cs : List Char) : Option Decimal :=
  (readDigits 0 0 false false cs).bind fun (m, scale) => make? negative m scale

def read? (s : String) : Option Decimal :=
  match s.toList with
  | '-' :: cs => readUnsigned? true cs
  | '+' :: cs => readUnsigned? false cs
  | cs => readUnsigned? false cs

/-! ## Powers of ten -/

/-- The quotient of `m` and `d`, rounded to the nearest; a half goes to the even neighbour. -/
def roundHalfEven (m d : Nat) : Nat :=
  let q := m / d
  let r := m % d
  if 2 * r < d then q
  else if 2 * r > d then q + 1
  else if q % 2 = 0 then q else q + 1

/-- The quotient of `m` and `d`, rounded to the nearest; a half goes up. -/
def roundHalfUp (m d : Nat) : Nat :=
  (2 * m + d) / (2 * d)

/-- The number `± m / 10 ^ scale`. If the mantissa is too large, the fewest digits at its end that
make it fit are rounded off; there is no answer if more than the fraction would go. -/
def fit? (negative : Bool) (m scale : Nat) : Option Decimal :=
  (List.range (scale + 1)).findSome? fun k =>
    make? negative (roundHalfEven m (powTen k)) (scale - k)

/-- The product with `10 ^ k`, with the same number of fraction digits if it fits. -/
def timesPowTen? (d : Decimal) (k : Nat) : Option Decimal :=
  fit? d.negative (d.mantissa * powTen k) d.scale

inductive ReadError where
  | malformed
  /-- The power of ten is out of bounds. -/
  | scale (exponent : Nat)
  | tooLarge
deriving DecidableEq

def ReadError.message : ReadError → String
  | malformed => "Failed to parse"
  | scale exponent =>
    s!"Scale exceeds the maximum precision allowed: {exponent} > {maxScale}"
  | tooLarge => "Number exceeds maximum value that can be represented."

/-- The number `d * 10 ^ exponent`. -/
def scaled (d : Decimal) : Int → Except ReadError Decimal
  | .ofNat exponent =>
    if exponent ≤ d.scale then
      (make? d.negative d.mantissa (d.scale - exponent)).elim (.error .malformed) .ok
    else if exponent > maxScale then .error (.scale exponent)
    else (d.timesPowTen? exponent).elim (.error .tooLarge) fun r => .ok r.normalize
  | .negSucc n =>
    let exponent := n + 1
    if exponent > maxScale then .error (.scale exponent)
    else
      let kept := min d.scale (maxScale - exponent)
      let m := roundHalfUp d.mantissa (powTen (d.scale - kept))
      (make? d.negative m (kept + exponent)).elim (.error .malformed) .ok

end UiScenario.Decimal
