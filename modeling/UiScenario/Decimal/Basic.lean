/-!
Decimal numbers of bounded size: a sign, a mantissa below `2 ^ 96` and a scale of at most 28 digits
behind the point. Zero has no sign.
-/

namespace UiScenario

/-- The mantissas of decimals lie below this bound, `2 ^ 96`. -/
abbrev Decimal.mantissaBound : Nat := 79228162514264337593543950336

/-- The most digits behind the point. -/
abbrev Decimal.maxScale : Nat := 28

/-- The number `± mantissa / 10 ^ scale`. -/
structure Decimal where
  negative : Bool
  mantissa : Nat
  scale : Nat
  mantissa_lt : mantissa < Decimal.mantissaBound
  scale_le : scale ≤ Decimal.maxScale
deriving DecidableEq

namespace Decimal

/-- The decimal with the given sign, mantissa and scale, if they are in bounds. -/
def make? (negative : Bool) (mantissa scale : Nat) : Option Decimal :=
  if h : mantissa < mantissaBound ∧ scale ≤ maxScale then
    some ⟨negative && mantissa != 0, mantissa, scale, h.1, h.2⟩
  else none

/-- Divides `m` by ten as often as `m` is divisible, at most `n` times; the quotient and how many of
the `n` divisions are left. -/
def stripZeros (m : Nat) : Nat → Nat × Nat
  | 0 => (m, 0)
  | n + 1 => if m % 10 = 0 then stripZeros (m / 10) n else (m, n + 1)

theorem stripZeros_fst_le (m n : Nat) : (stripZeros m n).1 ≤ m := by
  induction n generalizing m with
  | zero => exact Nat.le_refl m
  | succ n ih =>
    unfold stripZeros
    split
    · exact Nat.le_trans (ih (m / 10)) (Nat.div_le_self m 10)
    · exact Nat.le_refl m

theorem stripZeros_snd_le (m n : Nat) : (stripZeros m n).2 ≤ n := by
  induction n generalizing m with
  | zero => exact Nat.le_refl 0
  | succ n ih =>
    unfold stripZeros
    split
    · exact Nat.le_succ_of_le (ih (m / 10))
    · exact Nat.le_refl _

/-- The same number without zeros at the end of the fraction. -/
def normalize (d : Decimal) : Decimal where
  negative := d.negative && d.mantissa != 0
  mantissa := (stripZeros d.mantissa d.scale).1
  scale := (stripZeros d.mantissa d.scale).2
  mantissa_lt := Nat.lt_of_le_of_lt (stripZeros_fst_le d.mantissa d.scale) d.mantissa_lt
  scale_le := Nat.le_trans (stripZeros_snd_le d.mantissa d.scale) d.scale_le

/-- The digits of `n`, with zeros in front up to the given width. -/
def paddedDigits (width n : Nat) : List Char :=
  let digits := Nat.toDigits 10 n
  List.replicate (width - digits.length) '0' ++ digits

/-- The digits of a number with `scale` of them behind the point; at least one digit is in front. -/
def pointDigits (mantissa scale : Nat) : List Char :=
  let digits := paddedDigits (scale + 1) mantissa
  let whole := digits.take (digits.length - scale)
  if scale = 0 then whole else whole ++ '.' :: digits.drop (digits.length - scale)

/-- The decimal as text, with all its fraction digits. -/
def text (d : Decimal) : String :=
  String.ofList ((if d.negative then ['-'] else []) ++ pointDigits d.mantissa d.scale)

/-- The decimal as text, without zeros at the end of the fraction. -/
def shortText (d : Decimal) : String :=
  d.normalize.text

end Decimal

end UiScenario
