import Mathlib.Tactic.FieldSimp
import UiScenario.Proofs.Literals

/-!
Waiting times. Seconds are written as milliseconds. The product with a thousand may be too long for
a decimal, but the digits that are then rounded off are zeros; and where the whole part does not
fit, the product is left to the generated code.
-/

namespace UiScenario

/-! ## Products with powers of ten -/

namespace Decimal

variable {negative : Bool} {m scale : Nat} {d r : Decimal} {n : Nat}

theorem powTen_pos (n : Nat) : 0 < powTen n :=
  Nat.pow_pos (by decide)

theorem roundHalfEven_mul (m : Nat) {d : Nat} (h : 0 < d) : roundHalfEven (m * d) d = m := by
  simp [roundHalfEven, Nat.mul_div_cancel m h, Nat.mul_mod_left, h]

/-- Nothing is lost where no more digits are rounded off than the power of ten has zeros. -/
theorem roundHalfEven_powTen (m : Nat) {k : Nat} (h : k ≤ n) :
    roundHalfEven (m * powTen n) (powTen k) = m * 10 ^ (n - k) := by
  have hpow : powTen n = 10 ^ (n - k) * powTen k := by
    show 10 ^ n = 10 ^ (n - k) * 10 ^ k
    rw [← Nat.pow_add, Nat.sub_add_cancel h]
  rw [hpow, ← Nat.mul_assoc, roundHalfEven_mul _ (powTen_pos k)]

/-- The digits that are rounded off are the fewest that make the others fit. -/
theorem fit?_eq_some (h : fit? negative m scale = some r) :
    ∃ k ≤ scale, make? negative (roundHalfEven m (powTen k)) (scale - k) = some r ∧
      ∀ j < k, make? negative (roundHalfEven m (powTen j)) (scale - j) = none := by
  obtain ⟨front, k, back, heq, hk, hnone⟩ := List.findSome?_eq_some_iff.1 h
  have hle : k < scale + 1 := List.mem_range.1 (heq ▸ by simp)
  refine ⟨k, Nat.le_of_lt_succ hle, hk, fun j hj => hnone j ?_⟩
  -- the numbers behind `k` are larger than `k`
  have hmem : j ∈ front ++ k :: back := heq ▸ List.mem_range.2 (Nat.lt_trans hj hle)
  have hsorted : (front ++ k :: back).Pairwise (· < ·) := heq ▸ List.pairwise_lt_range
  have hback := (List.pairwise_cons.1 (List.pairwise_append.1 hsorted).2.1).1
  rcases List.mem_append.1 hmem with hmem | hmem
  · exact hmem
  rcases List.mem_cons.1 hmem with rfl | hmem
  · exact absurd hj (Nat.lt_irrefl j)
  · exact absurd hj (Nat.not_lt.2 (Nat.le_of_lt (hback j hmem)))

theorem fit?_eq_none_iff (hscale : scale ≤ maxScale) :
    fit? negative m scale = none ↔
      ∀ k ≤ scale, mantissaBound ≤ roundHalfEven m (powTen k) := by
  rw [fit?, List.findSome?_eq_none_iff]
  refine forall_congr' fun k => ?_
  rw [List.mem_range, Nat.lt_succ_iff]
  refine imp_congr_right fun hk => ?_
  unfold make?
  split
  · next h => exact iff_of_false (by simp) (Nat.not_le.2 h.1)
  · next h =>
    refine iff_of_true rfl (Nat.le_of_not_lt fun hlt => h ⟨hlt, ?_⟩)
    exact Nat.le_trans (Nat.sub_le scale k) hscale

theorem make?_eq_some (h : make? negative m scale = some r) :
    r.negative = (negative && m != 0) ∧ r.mantissa = m ∧ r.scale = scale := by
  unfold make? at h
  split at h
  · cases h
    exact ⟨rfl, rfl, rfl⟩
  · cases h

/-- A product with a power of ten has the digits of the number and further zeros. -/
theorem timesPowTen?_eq_some (h : d.timesPowTen? n = some r) :
    ∃ k ≤ n, k ≤ d.scale ∧ r.mantissa = d.mantissa * 10 ^ (n - k) ∧ r.scale = d.scale - k ∧
      r.negative = (d.negative && d.mantissa != 0) := by
  obtain ⟨k, hk, hmake, hnone⟩ := fit?_eq_some h
  -- with all zeros of the power of ten rounded off, the mantissa is that of the number, and fits
  have hkn : k ≤ n := by
    refine Nat.le_of_not_lt fun hlt => ?_
    have hn := hnone n hlt
    rw [roundHalfEven_powTen _ (Nat.le_refl n), Nat.sub_self, Nat.pow_zero, Nat.mul_one, make?,
      dif_pos ⟨d.mantissa_lt, Nat.le_trans (Nat.sub_le _ _) d.scale_le⟩] at hn
    cases hn
  rw [roundHalfEven_powTen _ hkn] at hmake
  obtain ⟨hnegative, hmantissa, hscale⟩ := make?_eq_some hmake
  refine ⟨k, hkn, hk, hmantissa, hscale, ?_⟩
  have hzero : (d.mantissa * 10 ^ (n - k) != 0) = (d.mantissa != 0) :=
    Bool.eq_iff_iff.2 (by simp)
  rw [hnegative, hzero]

theorem timesPowTen?_eq_none_iff (d : Decimal) (n : Nat) :
    d.timesPowTen? n = none ↔ mantissaBound * 10 ^ d.scale ≤ d.mantissa * 10 ^ n := by
  have hexact : ∀ k ≤ d.scale, d.scale ≤ n →
      roundHalfEven (d.mantissa * powTen n) (powTen k) = d.mantissa * 10 ^ (n - k) :=
    fun k hk hn => roundHalfEven_powTen _ (Nat.le_trans hk hn)
  rw [timesPowTen?, fit?_eq_none_iff d.scale_le]
  constructor
  · intro h
    have hscale : d.scale ≤ n := by
      refine Nat.le_of_not_lt fun hlt => ?_
      have hn := h n (Nat.le_of_lt hlt)
      rw [roundHalfEven_powTen _ (Nat.le_refl n), Nat.sub_self, Nat.pow_zero, Nat.mul_one] at hn
      exact Nat.not_le.2 d.mantissa_lt hn
    have hlast := h d.scale (Nat.le_refl _)
    rw [hexact _ (Nat.le_refl _) hscale] at hlast
    calc mantissaBound * 10 ^ d.scale
        ≤ d.mantissa * 10 ^ (n - d.scale) * 10 ^ d.scale := Nat.mul_le_mul_right _ hlast
      _ = d.mantissa * 10 ^ n := by rw [Nat.mul_assoc, ← Nat.pow_add, Nat.sub_add_cancel hscale]
  · intro h k hk
    have hscale : d.scale ≤ n := by
      refine Nat.le_of_not_lt fun hlt => Nat.not_lt.2 h ?_
      exact Nat.mul_lt_mul_of_lt_of_le d.mantissa_lt
        (Nat.pow_le_pow_right (by decide) (Nat.le_of_lt hlt)) (Nat.pow_pos (by decide))
    rw [hexact k hk hscale]
    refine Nat.le_of_mul_le_mul_right ?_ (Nat.pow_pos (n := d.scale) (show 0 < 10 by decide))
    calc mantissaBound * 10 ^ d.scale
        ≤ d.mantissa * 10 ^ n := h
      _ ≤ d.mantissa * 10 ^ (n - k + d.scale) :=
        Nat.mul_le_mul_left _ (Nat.pow_le_pow_right (by decide) (by omega))
      _ = d.mantissa * 10 ^ (n - k) * 10 ^ d.scale := by rw [Nat.pow_add, Nat.mul_assoc]

theorem toRat_timesPowTen? (h : d.timesPowTen? n = some r) : r.toRat = 10 ^ n * d.toRat := by
  obtain ⟨k, hkn, hk, hmantissa, hscale, hnegative⟩ := timesPowTen?_eq_some h
  have hvalue : ((d.mantissa * 10 ^ (n - k) : ℕ) : ℚ) / 10 ^ (d.scale - k) =
      10 ^ n * (d.mantissa / 10 ^ d.scale) := by
    have hn : (10 : ℚ) ^ n = 10 ^ (n - k) * 10 ^ k := by rw [← pow_add, Nat.sub_add_cancel hkn]
    have hs : (10 : ℚ) ^ d.scale = 10 ^ (d.scale - k) * 10 ^ k := by
      rw [← pow_add, Nat.sub_add_cancel hk]
    rw [hn, hs]
    push_cast
    field_simp
  rw [toRat, toRat, hmantissa, hscale, hnegative, hvalue]
  by_cases hm : d.mantissa = 0
  · simp [hm]
  · rw [bne_iff_ne.2 hm, Bool.and_true, mul_left_comm]

end Decimal

/-! ## Reading products -/

namespace Code

def readSigned : List Char → Option (ℚ × List Char)
  | '-' :: rest => (readNumeral rest).map fun (q, rest) => (-q, rest)
  | cs => readNumeral cs

/-- Reads a number, which may be in parentheses. -/
def readFactor : List Char → Option (ℚ × List Char)
  | '(' :: rest => (readSigned rest).bind fun (q, rest) =>
    match rest with
    | ')' :: rest => some (q, rest)
    | _ => none
  | cs => readSigned cs

/-- Reads the further factors of a product, where those in front make up `q`. `fuel` bounds their
    number. -/
def readFactors : (fuel : Nat) → ℚ → List Char → Option (ℚ × List Char)
  | 0, _, _ => none
  | fuel + 1, q, cs =>
    match Json.skipSpaces cs with
    | '*' :: rest => (readFactor (Json.skipSpaces rest)).bind fun (r, rest) =>
      readFactors fuel (q * r) rest
    | _ => some (q, cs)

def readProduct (cs : List Char) : Option (ℚ × List Char) :=
  (readFactor cs).bind fun (q, rest) => readFactors (rest.length + 1) q rest

theorem readSigned_shortText (d : Decimal) {rest : List Char} (h : canEnd rest = true)
    (hdot : rest.head? ≠ some '.') :
    readSigned (d.shortText.toList ++ rest) = some (d.toRat, rest) := by
  have hread := readNumeral_pointDigits d.normalize.mantissa d.normalize.scale h hdot
  rw [Decimal.shortText, Decimal.text, String.toList_ofList, ← Decimal.toRat_normalize,
    Decimal.toRat]
  split
  · show (readNumeral (Decimal.pointDigits _ _ ++ rest)).map _ = _
    rw [hread]
    simp
  · obtain ⟨c, cs, heq, hc⟩ := pointDigits_start d.normalize.mantissa d.normalize.scale
    rw [heq] at hread ⊢
    have hsign : c ≠ '-' := ne_of_isDigit hc rfl
    simp only [List.nil_append, List.cons_append] at hread ⊢
    simp [readSigned, hsign, hread]

theorem readFactor_paren (d : Decimal) (rest : List Char) :
    readFactor ('(' :: (d.shortText.toList ++ ')' :: rest)) = some (d.toRat, rest) := by
  show (readSigned (d.shortText.toList ++ ')' :: rest)).bind _ = _
  rw [readSigned_shortText d rfl (by simp)]
  rfl

theorem shortText_start (d : Decimal) : ∃ c cs, d.shortText.toList = c :: cs ∧ c ≠ '(' := by
  rw [Decimal.shortText, Decimal.text, String.toList_ofList]
  split
  · exact ⟨_, _, rfl, by decide⟩
  · obtain ⟨c, cs, heq, hc⟩ := pointDigits_start d.normalize.mantissa d.normalize.scale
    exact ⟨c, cs, heq, ne_of_isDigit hc rfl⟩

theorem readFactor_shortText (d : Decimal) {rest : List Char} (h : canEnd rest = true)
    (hdot : rest.head? ≠ some '.') :
    readFactor (d.shortText.toList ++ rest) = some (d.toRat, rest) := by
  have hread := readSigned_shortText d h hdot
  obtain ⟨c, cs, heq, hc⟩ := shortText_start d
  rw [heq, List.cons_append] at hread ⊢
  simpa [readFactor, hc] using hread

theorem readProduct_number (d : Decimal) (rest : List Char) :
    readProduct (d.shortText.toList ++ ')' :: rest) = some (d.toRat, ')' :: rest) := by
  rw [readProduct, readFactor_shortText d rfl (by simp)]
  rfl

theorem readFactors_times {c : Char} (hc : Json.isSpace c = false) (fuel : Nat) (q : ℚ)
    (rest : List Char) : readFactors (fuel + 1) q (' ' :: '*' :: ' ' :: c :: rest) =
      (readFactor (c :: rest)).bind fun (r, rest) => readFactors fuel (q * r) rest := by
  have hskip : Json.skipSpaces (' ' :: '*' :: ' ' :: c :: rest) = '*' :: ' ' :: c :: rest := rfl
  have hspace : Json.skipSpaces (' ' :: c :: rest) = c :: rest := skipSpaces_cons hc rest
  simp only [readFactors, hskip, hspace]

/-- A product that is left to the code is read as the product. -/
theorem readProduct_thousand (d : Decimal) (rest : List Char) :
    readProduct (("(" ++ d.shortText ++ ") * 1000").toList ++ ')' :: rest) =
      some (1000 * d.toRat, ')' :: rest) := by
  have htext : ("(" ++ d.shortText ++ ") * 1000").toList ++ ')' :: rest =
      '(' :: (d.shortText.toList ++ ')' :: ' ' :: '*' :: ' ' :: (['1', '0', '0', '0'] ++
        ')' :: rest)) := by
    simp [String.toList_append]
  have hthousand : readFactor (['1', '0', '0', '0'] ++ ')' :: rest) =
      some (1000, ')' :: rest) := by
    have hread := @readFactor_shortText ⟨false, 1000, 0, by decide, by decide⟩ (')' :: rest) rfl
      (by simp)
    have hchars : (Decimal.shortText ⟨false, 1000, 0, by decide, by decide⟩).toList =
        ['1', '0', '0', '0'] := by decide
    have hvalue : Decimal.toRat ⟨false, 1000, 0, by decide, by decide⟩ = 1000 := by
      simp [Decimal.toRat]
    rwa [hchars, hvalue] at hread
  rw [htext, readProduct, readFactor_paren]
  simp only [Option.bind_some, List.length_cons, List.cons_append] at hthousand ⊢
  rw [readFactors_times rfl, hthousand, mul_comm]
  rfl

end Code

/-! ## Waits -/

namespace Generate

theorem lines_waitForTimeout (e : Code.Expr) (level : Nat) :
    (awaitCall page "waitForTimeout" [e]).lines level =
      [Code.lineAt level ("await page.waitForTimeout(" ++ e.print ++ ");")] := by
  have hprint : "await " ++ ("page" ++ "." ++ "waitForTimeout" ++ "(" ++
      ", ".intercalate [e.print] ++ ")") ++ ";" =
      "await page.waitForTimeout(" ++ e.print ++ ");" :=
    String.toList_inj.1 (by simp [String.toList_append])
  exact congrArg (fun text => [Code.lineAt level text]) hprint

section
variable (b : Setting) (p : Progress) {d r : Decimal}

theorem print_waitTime_of_none (h : d.timesPowTen? 3 = none) :
    (waitTime b p (.ofPrimary (.number d)) .seconds).print =
      "(" ++ d.shortText ++ ") * 1000" := by
  show ((d.timesPowTen? 3).elim _ _ : Code.Expr).print = _
  rw [h]
  show "(" ++ d.shortText ++ ")" ++ " " ++ "*" ++ " " ++ "1000" = _
  exact String.toList_inj.1 (by simp [String.toList_append])

theorem print_waitTime_of_some (h : d.timesPowTen? 3 = some r) :
    (waitTime b p (.ofPrimary (.number d)) .seconds).print = r.shortText := by
  show ((d.timesPowTen? 3).elim _ _ : Code.Expr).print = _
  rw [h]
  rfl

end

/-- **Waits are exact**: a wait for a number of seconds is one line, and the time in it stands for
    exactly a thousand times the number. It is the product, written as a decimal, as long as the
    whole part of the product is in bounds, and otherwise a product that is left to the code. -/
theorem wait_exact (b : Setting) (p : Progress) (line level : Nat) (d : Decimal) :
    ∃ (code : Code.Statement) (time : String),
      step b line (.wait (.ofPrimary (.number d)) .seconds) p = .ok ([code], p) ∧
      code.lines level = [Code.lineAt level ("await page.waitForTimeout(" ++ time ++ ");")] ∧
      Code.readProduct (time.toList ++ ");".toList) = some (1000 * d.toRat, ");".toList) ∧
      (d.mantissa * 1000 < Decimal.mantissaBound * 10 ^ d.scale ∧
          (∃ r : Decimal, time = r.shortText ∧ r.toRat = 1000 * d.toRat) ∨
        Decimal.mantissaBound * 10 ^ d.scale ≤ d.mantissa * 1000 ∧
          time = "(" ++ d.shortText ++ ") * 1000") := by
  refine ⟨_, (waitTime b p (.ofPrimary (.number d)) .seconds).print, rfl,
    lines_waitForTimeout _ level, ?_⟩
  cases hproduct : d.timesPowTen? 3 with
  | none =>
    have hbound := (Decimal.timesPowTen?_eq_none_iff d 3).1 hproduct
    rw [print_waitTime_of_none b p hproduct]
    exact ⟨Code.readProduct_thousand d _, .inr ⟨hbound, rfl⟩⟩
  | some r =>
    have hbound : d.mantissa * 1000 < Decimal.mantissaBound * 10 ^ d.scale := by
      refine Nat.lt_of_not_le fun hle => ?_
      rw [(Decimal.timesPowTen?_eq_none_iff d 3).2 hle] at hproduct
      cases hproduct
    have hvalue : r.toRat = 1000 * d.toRat := by
      rw [Decimal.toRat_timesPowTen? hproduct]
      norm_num
    rw [print_waitTime_of_some b p hproduct, ← hvalue]
    exact ⟨Code.readProduct_number r _, .inl ⟨hbound, r, rfl, rfl⟩⟩

end Generate

end UiScenario
