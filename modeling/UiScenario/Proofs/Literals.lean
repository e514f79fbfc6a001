import Mathlib.Algebra.Field.Rat
import Mathlib.Data.List.Basic
import Mathlib.Tactic.IntervalCases
import UiScenario.Generate.File
import UiScenario.Json.Reader

/-!
Literals of generated code, read back. The values of parameters are written into the code of tests;
a reader of literals finds there what the values are, and it ends where the written value ends.
-/

namespace UiScenario

namespace Code

variable {cs rest : List Char} {c : Char}

/-! ## Reading literals -/

inductive Value where
  | null
  | flag (value : Bool)
  | number (value : ℚ)
  | text (value : String)
  | array (items : List Value)

/-- The character that a letter behind a backslash stands for. -/
def escapedLetter? : Char → Option Char
  | '\'' => some '\''
  | '\\' => some '\\'
  | 'n' => some '\n'
  | 'r' => some '\r'
  | 't' => some '\t'
  | _ => none

/-- The character with a code of four hexadecimal digits. Half of a pair is no character. -/
def codedChar? (a b c d : Char) : Option Char :=
  (Json.readHex4? [a, b, c, d]).bind fun (n, _) =>
    if n.isValidChar then some (Char.ofNat n) else none

/-- Reads a character of a text. A text ends on the line where it starts. -/
def readChar : List Char → Option (Char × List Char)
  | '\\' :: 'u' :: a :: b :: c :: d :: rest => (codedChar? a b c d).map (·, rest)
  | '\\' :: e :: rest => (escapedLetter? e).map (·, rest)
  | c :: rest => if c = '\\' ∨ c = '\n' ∨ c = '\r' then none else some (c, rest)
  | [] => none

/-- Reads a text behind its opening quote, up to its closing quote. `fuel` bounds the number of
    characters. -/
def readTextIn : (fuel : Nat) → List Char → Option (List Char × List Char)
  | 0, _ => none
  | fuel + 1, cs =>
    if cs.head? = some '\'' then some ([], cs.tail)
    else do
      let (c, rest) ← readChar cs
      let (text, rest) ← readTextIn fuel rest
      return (c :: text, rest)

def readQuoted : List Char → Option (String × List Char)
  | '\'' :: rest =>
    (readTextIn (rest.length + 1) rest).map fun (text, rest) => (String.ofList text, rest)
  | _ => none

/-- Whether a word can end here. All characters beyond ASCII count as parts of words. -/
def canEnd (rest : List Char) : Bool :=
  rest.head?.all fun c => !(c.isAlphanum || c = '_' || c = '$' || c = '\\' || 128 ≤ c.toNat)

/-- Reads the fraction of a number, if there is one: a point and the digits behind it. -/
def readFraction : List Char → List Char × List Char
  | '.' :: rest => (rest.takeWhile Char.isDigit, rest.dropWhile Char.isDigit)
  | rest => ([], rest)

/-- Reads a number without a sign: digits, and perhaps a point and further digits. A zero in front
    stands alone. -/
def readNumeral (cs : List Char) : Option (ℚ × List Char) :=
  let whole := cs.takeWhile Char.isDigit
  let (fraction, rest) := readFraction (cs.dropWhile Char.isDigit)
  if whole = [] ∨ (whole.head? = some '0' ∧ whole ≠ ['0']) then none
  else if canEnd rest = false ∨ rest.head? = some '.' then none
  else some (Nat.ofDigitChars 10 (whole ++ fraction) 0 / 10 ^ fraction.length, rest)

def readWord (cs : List Char) : Option (Value × List Char) :=
  [(['n', 'u', 'l', 'l'], Value.null), (['t', 'r', 'u', 'e'], .flag true),
    (['f', 'a', 'l', 's', 'e'], .flag false)].findSome? fun (word, v) =>
    (Json.afterWord? word cs).bind fun rest => if canEnd rest then some (v, rest) else none

mutual

/-- Reads a literal. `fuel` bounds the number of its parts. -/
def readValueIn : (fuel : Nat) → List Char → Option (Value × List Char)
  | 0, _ => none
  | _ + 1, [] => none
  | fuel + 1, c :: rest =>
    if c = '\'' then (readQuoted (c :: rest)).map fun (s, rest) => (.text s, rest)
    else if c = '[' then
      match Json.skipSpaces rest with
      | ']' :: rest => some (.array [], rest)
      | rest => (readItems fuel rest).map fun (vs, rest) => (.array vs, rest)
    else if c = '-' then (readNumeral rest).map fun (q, rest) => (.number (-q), rest)
    else if c.isDigit then (readNumeral (c :: rest)).map fun (q, rest) => (.number q, rest)
    else readWord (c :: rest)

/-- Reads the items of an array behind its opening bracket, up to its closing bracket. -/
def readItems : (fuel : Nat) → List Char → Option (List Value × List Char)
  | 0, _ => none
  | fuel + 1, cs => do
    let (v, rest) ← readValueIn fuel cs
    match Json.skipSpaces rest with
    | ',' :: rest =>
      let (vs, rest) ← readItems fuel (Json.skipSpaces rest)
      return (v :: vs, rest)
    | ']' :: rest => return ([v], rest)
    | _ => none

end

def readValue (cs : List Char) : Option (Value × List Char) :=
  readValueIn (cs.length + 1) cs

/-! ## Texts -/

theorem hexDigit?_hexDigit {d : Nat} (h : d < 16) : Json.hexDigit? (hexDigit d) = some d := by
  interval_cases d <;> decide

theorem codedChar?_hexDigits (h : c.toNat < 65536) :
    ∃ w x y z, hexDigits 4 c.toNat = [w, x, y, z] ∧ codedChar? w x y z = some c := by
  refine ⟨_, _, _, _, rfl, ?_⟩
  have hd : ∀ n : Nat, n % 16 < 16 := fun n => Nat.mod_lt n (by decide)
  have hn : ((c.toNat / 16 / 16 / 16 % 16 * 16 + c.toNat / 16 / 16 % 16) * 16 +
      c.toNat / 16 % 16) * 16 + c.toNat % 16 = c.toNat := by omega
  simp only [codedChar?, Json.readHex4?, hexDigit?_hexDigit (hd _), Option.bind_eq_bind,
    Option.bind_some, Option.pure_def, hn]
  rw [if_pos (show c.toNat.isValidChar from c.valid), Char.ofNat_toNat]

theorem readChar_quoteChar (c : Char) (rest : List Char) :
    readChar (quoteChar c ++ rest) = some (c, rest) := by
  unfold quoteChar
  split
  · next h => subst h; rfl
  split
  · next h => subst h; rfl
  split
  · next h => subst h; rfl
  split
  · next h => subst h; rfl
  split
  · next h => subst h; rfl
  split
  · next h =>
    have hc : c.toNat < 65536 := by
      simp only [Text.inRanges, Text.categoryCc, List.any_cons, List.any_nil, Bool.or_false,
        Bool.or_eq_true, Bool.and_eq_true, decide_eq_true_eq] at h
      omega
    obtain ⟨w, x, y, z, hdigits, hcode⟩ := codedChar?_hexDigits hc
    rw [hdigits]
    show (codedChar? w x y z).map _ = _
    rw [hcode]
    rfl
  · next h₁ h₂ h₃ h₄ h₅ h₆ => simp [readChar, h₂, h₃, h₄]

theorem head?_quoteChar (c : Char) (rest : List Char) :
    (quoteChar c ++ rest).head? ≠ some '\'' := by
  unfold quoteChar
  split_ifs with h₁ <;> simp_all

theorem length_le_quoted (s : List Char) : s.length ≤ (s.flatMap quoteChar).length := by
  induction s with
  | nil => exact Nat.le_refl 0
  | cons c s ih =>
    have hne : quoteChar c ≠ [] := by
      intro h
      have hread := readChar_quoteChar c []
      rw [h] at hread
      cases hread
    have hpos := List.length_pos_of_ne_nil hne
    rw [List.flatMap_cons, List.length_append, List.length_cons]
    omega

theorem readTextIn_quoted (s rest : List Char) {fuel : Nat} (h : s.length < fuel) :
    readTextIn fuel (s.flatMap quoteChar ++ '\'' :: rest) = some (s, rest) := by
  induction s generalizing fuel with
  | nil =>
    obtain ⟨fuel, rfl⟩ := Nat.exists_eq_succ_of_ne_zero (Nat.ne_of_gt h)
    rfl
  | cons c s ih =>
    obtain ⟨fuel, rfl⟩ := Nat.exists_eq_succ_of_ne_zero (Nat.ne_of_gt (Nat.zero_lt_of_lt h))
    rw [List.flatMap_cons, List.append_assoc, readTextIn, if_neg (head?_quoteChar c _),
      readChar_quoteChar]
    simp [ih (Nat.lt_of_succ_lt_succ h)]

theorem readChar_append (h : readChar cs = some (c, rest)) (more : List Char) :
    readChar (cs ++ more) = some (c, rest ++ more) := by
  unfold readChar at h
  split at h
  · next a b c d rest' =>
    obtain ⟨y, hy, heq⟩ := Option.map_eq_some_iff.1 h
    cases heq
    show (codedChar? a b c d).map _ = _
    rw [hy]
    rfl
  · next e rest' hshort =>
    obtain ⟨y, hy, heq⟩ := Option.map_eq_some_iff.1 h
    cases heq
    have he : e ≠ 'u' := by rintro rfl; cases hy
    simp [readChar, he, hy]
  · next d rest' h₁ h₂ =>
    split at h
    · cases h
    · next hd =>
      cases h
      obtain ⟨hb, hl⟩ := not_or.1 hd
      simp [readChar, hb, hl]
  · cases h

theorem readTextIn_append {text : List Char} {fuel fuel' : Nat}
    (h : readTextIn fuel cs = some (text, rest)) (hf : fuel ≤ fuel') (more : List Char) :
    readTextIn fuel' (cs ++ more) = some (text, rest ++ more) := by
  induction fuel generalizing cs text fuel' with
  | zero => cases h
  | succ fuel ih =>
    obtain ⟨fuel', rfl⟩ := Nat.exists_eq_succ_of_ne_zero (Nat.ne_of_gt (Nat.zero_lt_of_lt hf))
    rw [readTextIn] at h ⊢
    cases cs with
    | nil => cases h
    | cons c cs =>
      by_cases hc : c = '\''
      · subst hc
        cases h
        rfl
      · rw [if_neg (by simpa using hc)] at h ⊢
        simp only [Option.bind_eq_bind, Option.bind_eq_some_iff] at h
        obtain ⟨⟨x, rest'⟩, hx, ⟨text', rest''⟩, ht, heq⟩ := h
        cases heq
        rw [readChar_append hx]
        simp [ih ht (Nat.le_of_succ_le_succ hf)]

theorem mem_hexDigits {x : Char} {count n : Nat} (h : x ∈ hexDigits count n) :
    ∃ d < 16, x = hexDigit d := by
  induction count generalizing n with
  | zero => cases h
  | succ count ih =>
    rcases List.mem_append.1 h with h | h
    · exact ih h
    · exact ⟨n % 16, Nat.mod_lt n (by decide), List.mem_singleton.1 h⟩

theorem oneLine_quoteChar {x : Char} (h : x ∈ quoteChar c) : x ≠ '\n' ∧ x ≠ '\r' := by
  have hhex : ∀ d < 16, hexDigit d ≠ '\n' ∧ hexDigit d ≠ '\r' := by decide
  unfold quoteChar at h
  split_ifs at h with h₁ h₂ h₃ h₄ h₅ h₆
  iterate 5 · rcases List.mem_pair.1 h with rfl | rfl <;> decide
  · rcases List.mem_cons.1 h with rfl | h
    · decide
    rcases List.mem_cons.1 h with rfl | h
    · decide
    obtain ⟨d, hd, rfl⟩ := mem_hexDigits h
    exact hhex d hd
  · rw [List.mem_singleton.1 h]
    exact ⟨h₃, h₄⟩

end Code

/-! ## Numbers -/

namespace Decimal

def toRat (d : Decimal) : ℚ :=
  (if d.negative then -1 else 1) * (d.mantissa / 10 ^ d.scale)

/-- The last digits of a number, as many as given. -/
def lastDigits : Nat → Nat → List Char
  | 0, _ => []
  | count + 1, n => lastDigits count (n / 10) ++ [Nat.digitChar (n % 10)]

theorem length_lastDigits (count n : Nat) : (lastDigits count n).length = count := by
  induction count generalizing n with
  | zero => rfl
  | succ count ih => simp [lastDigits, ih]

theorem isDigit_of_mem_lastDigits {count n : Nat} (h : c ∈ lastDigits count n) :
    c.isDigit = true := by
  have hdigit : ∀ d < 10, (Nat.digitChar d).isDigit = true := by decide
  induction count generalizing n with
  | zero => cases h
  | succ count ih =>
    rcases List.mem_append.1 h with h | h
    · exact ih h
    · rw [List.mem_singleton.1 h]
      exact hdigit _ (Nat.mod_lt n (by decide))

theorem paddedDigits_succ (width n : Nat) :
    paddedDigits (width + 2) n = paddedDigits (width + 1) (n / 10) ++ [Nat.digitChar (n % 10)] := by
  by_cases h : n < 10
  · have hz : n / 10 = 0 := by omega
    have hm : n % 10 = n := by omega
    rw [hz, hm]
    simp only [paddedDigits]
    rw [Nat.toDigits_of_lt_base h, Nat.toDigits_of_lt_base (n := 0) (by decide)]
    exact congrArg (· ++ [Nat.digitChar n]) List.replicate_succ'
  · simp only [paddedDigits]
    rw [Nat.toDigits_eq_if (n := n) (by decide), if_neg h]
    simp only [List.length_append, List.length_singleton, Nat.reduceSubDiff, List.append_assoc]

theorem paddedDigits_eq (scale n : Nat) :
    paddedDigits (scale + 1) n = Nat.toDigits 10 (n / 10 ^ scale) ++ lastDigits scale n := by
  induction scale generalizing n with
  | zero =>
    have hpos : 1 ≤ (Nat.toDigits 10 n).length := Nat.length_toDigits_pos
    simp [paddedDigits, lastDigits, Nat.sub_eq_zero_of_le hpos]
  | succ scale ih =>
    rw [paddedDigits_succ, ih, lastDigits, Nat.div_div_eq_div_mul, ← Nat.pow_succ',
      List.append_assoc]

theorem pointDigits_eq (n scale : Nat) :
    pointDigits n scale = Nat.toDigits 10 (n / 10 ^ scale) ++
      if scale = 0 then [] else '.' :: lastDigits scale n := by
  have hlen : (paddedDigits (scale + 1) n).length - scale =
      (Nat.toDigits 10 (n / 10 ^ scale)).length := by
    rw [paddedDigits_eq, List.length_append, length_lastDigits, Nat.add_sub_cancel]
  simp only [pointDigits, hlen]
  rw [paddedDigits_eq, List.take_left, List.drop_left]
  split
  · rw [List.append_nil]
  · rfl

theorem ofDigitChars_lastDigits (count n : Nat) :
    Nat.ofDigitChars 10 (lastDigits count n) (n / 10 ^ count) = n := by
  induction count generalizing n with
  | zero => simp [lastDigits]
  | succ count ih =>
    have hd : (Nat.digitChar (n % 10)).toNat = '0'.toNat + n % 10 :=
      Nat.toNat_digitChar_of_lt_ten (Nat.mod_lt n (by decide))
    rw [lastDigits, Nat.ofDigitChars_append, Nat.pow_succ', ← Nat.div_div_eq_div_mul, ih,
      Nat.ofDigitChars_cons, Nat.ofDigitChars_nil, hd]
    omega

theorem eq_zero_of_head?_toDigits {n : Nat} (h : (Nat.toDigits 10 n).head? = some '0') : n = 0 := by
  induction n using Nat.strongRecOn with
  | ind n ih =>
    rw [Nat.toDigits_eq_if (by decide)] at h
    split at h
    · next hn =>
      have hz : ∀ n < 10, Nat.digitChar n = '0' → n = 0 := by decide
      exact hz n hn (Option.some.inj h)
    · next hn =>
      rw [List.head?_append_of_ne_nil _ Nat.toDigits_ne_nil] at h
      have hq := ih (n / 10) (by omega) h
      omega

theorem stripZeros_mul (m n : Nat) :
    (stripZeros m n).1 * 10 ^ (n - (stripZeros m n).2) = m := by
  induction n generalizing m with
  | zero => simp [stripZeros]
  | succ n ih =>
    have hle := stripZeros_snd_le (m / 10) n
    rw [stripZeros]
    split
    · next h =>
      rw [Nat.succ_sub hle, Nat.pow_succ, ← Nat.mul_assoc, ih]
      omega
    · simp

theorem toRat_normalize (d : Decimal) : d.normalize.toRat = d.toRat := by
  have hvalue : ((stripZeros d.mantissa d.scale).1 : ℚ) / 10 ^ (stripZeros d.mantissa d.scale).2 =
      d.mantissa / 10 ^ d.scale := by
    have hle := stripZeros_snd_le d.mantissa d.scale
    have hmul := stripZeros_mul d.mantissa d.scale
    generalize stripZeros d.mantissa d.scale = r at hle hmul ⊢
    rw [div_eq_div_iff (by positivity) (by positivity), ← hmul, Nat.cast_mul, Nat.cast_pow,
      mul_assoc, Nat.cast_ofNat, ← pow_add, Nat.sub_add_cancel hle]
  by_cases hz : d.mantissa = 0
  · simp only [toRat, normalize, hz] at hvalue ⊢
    rw [hvalue]
    simp
  · simp only [toRat, normalize, hvalue, bne_iff_ne.2 hz, Bool.and_true]

end Decimal

namespace Code

theorem not_digit_of_canEnd (h : canEnd (c :: rest) = true) : c.isDigit = false := by
  simp only [canEnd, List.head?_cons, Option.all_some, Bool.not_eq_true', Bool.or_eq_false_iff,
    Char.isAlphanum] at h
  exact h.1.1.1.1.2

theorem cut_digits {ds : List Char} (hd : ∀ c ∈ ds, c.isDigit = true)
    (hr : ∀ c ∈ rest.head?, c.isDigit = false) :
    (ds ++ rest).takeWhile Char.isDigit = ds ∧ (ds ++ rest).dropWhile Char.isDigit = rest := by
  rw [List.takeWhile_append_of_pos hd, List.dropWhile_append_of_pos hd]
  cases rest with
  | nil => simp
  | cons c rest => simp [hr c rfl]

/-- Digits, and perhaps a point and further digits, are read up to their end. -/
theorem readNumeral_digits {whole fraction tail : List Char} (hw : ∀ c ∈ whole, c.isDigit = true)
    (hne : whole ≠ []) (hzero : whole.head? = some '0' → whole = ['0'])
    (ht : ∀ c ∈ tail.head?, c.isDigit = false) (hf : readFraction tail = (fraction, rest))
    (h : canEnd rest = true) (hdot : rest.head? ≠ some '.') :
    readNumeral (whole ++ tail) =
      some ((Nat.ofDigitChars 10 (whole ++ fraction) 0 : ℚ) / 10 ^ fraction.length, rest) := by
  obtain ⟨htake, hdrop⟩ := cut_digits hw ht
  simp only [readNumeral, htake, hdrop, hf, h]
  rw [if_neg, if_neg]
  · simpa using hdot
  · rintro (h | ⟨h₁, h₂⟩)
    · exact hne h
    · exact h₂ (hzero h₁)

theorem readNumeral_pointDigits (n scale : Nat) (h : canEnd rest = true)
    (hdot : rest.head? ≠ some '.') :
    readNumeral (Decimal.pointDigits n scale ++ rest) = some ((n : ℚ) / 10 ^ scale, rest) := by
  have hwhole : ∀ c ∈ Nat.toDigits 10 (n / 10 ^ scale), c.isDigit = true := fun c hc =>
    Nat.isDigit_of_mem_toDigits (by decide) (by decide) hc
  have hzero : (Nat.toDigits 10 (n / 10 ^ scale)).head? = some '0' →
      Nat.toDigits 10 (n / 10 ^ scale) = ['0'] := by
    intro hz
    rw [Decimal.eq_zero_of_head?_toDigits hz]
    rfl
  have hrest : ∀ c ∈ rest.head?, c.isDigit = false := by
    intro c hc
    obtain ⟨more, rfl⟩ := List.head?_eq_some_iff.1 hc
    exact not_digit_of_canEnd h
  rw [Decimal.pointDigits_eq, List.append_assoc]
  split
  · next hs =>
    subst hs
    have hfraction : readFraction rest = ([], rest) := by
      unfold readFraction
      split
      · exact absurd rfl hdot
      · rfl
    rw [List.nil_append,
      readNumeral_digits hwhole Nat.toDigits_ne_nil hzero hrest hfraction h hdot]
    simp [Nat.ofDigitChars_toDigits]
  · obtain ⟨htake, hdrop⟩ := cut_digits (fun c => Decimal.isDigit_of_mem_lastDigits) hrest
    have hfraction : readFraction ('.' :: Decimal.lastDigits scale n ++ rest) =
        (Decimal.lastDigits scale n, rest) := by
      rw [List.cons_append, readFraction, htake, hdrop]
    rw [readNumeral_digits hwhole Nat.toDigits_ne_nil hzero (by simp) hfraction h hdot,
      Nat.ofDigitChars_append, Nat.ofDigitChars_toDigits (by decide) (by decide),
      Decimal.ofDigitChars_lastDigits, Decimal.length_lastDigits]

end Code

/-! ## Values -/

mutual

def ParamValue.meaning : ParamValue → Code.Value
  | .null => .null
  | .flag b => .flag b
  | .number d => .number d.toRat
  | .text s => .text s
  | .list items => .array (ParamValue.meanings items)

def ParamValue.meanings : List ParamValue → List Code.Value
  | [] => []
  | v :: rest => v.meaning :: ParamValue.meanings rest

end

namespace Code

open Generate (parameterCode parameterCodes)

variable {s : String} {vs : List ParamValue}

/-- The characters that are written for a value. -/
def valueChars (v : ParamValue) : List Char :=
  (parameterCode v).print.toList

/-- The characters that are written for the items of a list. -/
def itemChars (vs : List ParamValue) : List Char :=
  (", ".intercalate (Expr.printAll (parameterCodes vs))).toList

/-- A value in a file ends in front of a comma, a closing bracket or a semicolon. -/
def Closes (rest : List Char) : Prop :=
  ∃ more, rest = ',' :: more ∨ rest = ']' :: more ∨ rest = ';' :: more

theorem Closes.canEnd (h : Closes rest) : canEnd rest = true := by
  obtain ⟨more, rfl | rfl | rfl⟩ := h <;> rfl

theorem Closes.head?_ne_point (h : Closes rest) : rest.head? ≠ some '.' := by
  obtain ⟨more, rfl | rfl | rfl⟩ := h <;> simp

theorem valueChars_text (s : String) : valueChars (.text s) = quoteChars s.toList :=
  String.toList_ofList

theorem valueChars_list (vs : List ParamValue) :
    valueChars (.list vs) = '[' :: (itemChars vs ++ [']']) := by
  show ("[" ++ ", ".intercalate (Expr.printAll (parameterCodes vs)) ++ "]").toList = _
  rw [String.toList_append, String.toList_append]
  rfl

theorem valueChars_number (d : Decimal) :
    valueChars (.number d) = (if d.normalize.negative then ['-'] else []) ++
      Decimal.pointDigits d.normalize.mantissa d.normalize.scale :=
  String.toList_ofList

theorem itemChars_singleton (v : ParamValue) : itemChars [v] = valueChars v := by
  simp only [itemChars, parameterCodes, Expr.printAll, String.toList_intercalate, List.map_cons,
    List.map_nil, List.intercalate_singleton]
  rfl

theorem itemChars_cons (v w : ParamValue) (vs : List ParamValue) :
    itemChars (v :: w :: vs) = valueChars v ++ ',' :: ' ' :: itemChars (w :: vs) := by
  simp only [itemChars, parameterCodes, Expr.printAll, String.toList_intercalate, List.map_cons,
    List.intercalate_cons_cons, List.append_assoc]
  rfl

theorem pointDigits_start (n scale : Nat) :
    ∃ c cs, Decimal.pointDigits n scale = c :: cs ∧ c.isDigit = true := by
  have hne : Nat.toDigits 10 (n / 10 ^ scale) ≠ [] := Nat.toDigits_ne_nil
  obtain ⟨c, cs, heq⟩ := List.exists_cons_of_ne_nil hne
  refine ⟨c, _, by rw [Decimal.pointDigits_eq, heq, List.cons_append], ?_⟩
  exact Nat.isDigit_of_mem_toDigits (by decide) (by decide) (heq ▸ List.mem_cons_self)

theorem ne_of_isDigit {d : Char} (hc : c.isDigit = true) (hd : d.isDigit = false) : c ≠ d := by
  rintro rfl
  rw [hc] at hd
  cases hd

/-- A written value starts with neither a space nor a closing bracket. -/
theorem valueChars_start (v : ParamValue) :
    ∃ c cs, valueChars v = c :: cs ∧ Json.isSpace c = false ∧ c ≠ ']' := by
  cases v with
  | null => exact ⟨_, _, rfl, rfl, by decide⟩
  | flag b => cases b <;> exact ⟨_, _, rfl, rfl, by decide⟩
  | text s => exact ⟨_, _, String.toList_ofList, rfl, by decide⟩
  | list vs => exact ⟨_, _, valueChars_list vs, rfl, by decide⟩
  | number d =>
    rw [valueChars_number]
    split
    · exact ⟨_, _, rfl, rfl, by decide⟩
    · obtain ⟨c, cs, heq, hc⟩ := pointDigits_start d.normalize.mantissa d.normalize.scale
      refine ⟨c, cs, heq, ?_, ne_of_isDigit hc rfl⟩
      simp [Json.isSpace, ne_of_isDigit hc]

theorem itemChars_start (v : ParamValue) (vs : List ParamValue) :
    ∃ c cs, itemChars (v :: vs) = c :: cs ∧ Json.isSpace c = false ∧ c ≠ ']' := by
  obtain ⟨c, cs, heq, hc⟩ := valueChars_start v
  cases vs with
  | nil => exact ⟨c, cs, by rw [itemChars_singleton, heq], hc⟩
  | cons w vs => exact ⟨c, _, by rw [itemChars_cons, heq, List.cons_append], hc⟩

theorem skipSpaces_cons (h : Json.isSpace c = false) (cs : List Char) :
    Json.skipSpaces (c :: cs) = c :: cs :=
  List.dropWhile_cons_of_neg (by simp [h])

theorem toList_quote (s : String) : (quote s).toList = quoteChars s.toList :=
  String.toList_ofList

theorem oneLine_quote (h : c ∈ (quote s).toList) : c ≠ '\n' ∧ c ≠ '\r' := by
  rw [toList_quote, quoteChars, List.mem_cons, List.mem_append, List.mem_flatMap,
    List.mem_singleton] at h
  rcases h with rfl | ⟨x, -, hx⟩ | rfl
  · decide
  · exact oneLine_quoteChar hx
  · decide

theorem readQuoted_quote (s : String) (rest : List Char) :
    readQuoted ((quote s).toList ++ rest) = some (s, rest) := by
  have hlen : s.toList.length < (s.toList.flatMap quoteChar ++ '\'' :: rest).length + 1 := by
    have hle := length_le_quoted s.toList
    rw [List.length_append]
    omega
  rw [toList_quote, quoteChars, List.cons_append, List.append_assoc, List.singleton_append,
    readQuoted, readTextIn_quoted s.toList rest hlen]
  simp

theorem readWord_null (h : canEnd rest = true) :
    readWord ('n' :: 'u' :: 'l' :: 'l' :: rest) = some (.null, rest) := by
  simp [readWord, Json.afterWord?, h]

theorem readWord_flag (b : Bool) (h : canEnd rest = true) :
    readWord ((if b then ['t', 'r', 'u', 'e'] else ['f', 'a', 'l', 's', 'e']) ++ rest) =
      some (.flag b, rest) := by
  cases b <;> simp [readWord, Json.afterWord?, h]

theorem readValueIn_number (d : Decimal) (h : Closes rest) (fuel : Nat) :
    readValueIn (fuel + 1) (valueChars (.number d) ++ rest) = some (.number d.toRat, rest) := by
  have hread := readNumeral_pointDigits d.normalize.mantissa d.normalize.scale h.canEnd
    h.head?_ne_point
  rw [valueChars_number, ← Decimal.toRat_normalize, Decimal.toRat]
  split
  · show (readNumeral (Decimal.pointDigits _ _ ++ rest)).map _ = _
    rw [hread]
    simp
  · obtain ⟨c, cs, heq, hc⟩ := pointDigits_start d.normalize.mantissa d.normalize.scale
    rw [heq] at hread ⊢
    rw [List.nil_append, List.cons_append, readValueIn, if_neg (ne_of_isDigit hc rfl),
      if_neg (ne_of_isDigit hc rfl), if_neg (ne_of_isDigit hc rfl), if_pos hc, ← List.cons_append,
      hread]
    simp

theorem readValueIn_text (s : String) (rest : List Char) (fuel : Nat) :
    readValueIn (fuel + 1) (valueChars (.text s) ++ rest) = some (.text s, rest) := by
  have hread := readQuoted_quote s rest
  rw [toList_quote] at hread
  rw [valueChars_text]
  show (readQuoted (quoteChars s.toList ++ rest)).map _ = _
  rw [hread]
  rfl

/-- What is written for a value is read as the value. -/
def ReadsBack (v : ParamValue) : Prop :=
  ∀ (rest : List Char) (fuel : Nat), Closes rest → (valueChars v).length ≤ fuel →
    readValueIn (fuel + 1) (valueChars v ++ rest) = some (v.meaning, rest)

theorem readItems_itemChars {v : ParamValue} (h : ∀ w ∈ v :: vs, ReadsBack w) (rest : List Char)
    (fuel : Nat) (hf : (itemChars (v :: vs)).length < fuel) :
    readItems (fuel + 1) (itemChars (v :: vs) ++ ']' :: rest) =
      some (ParamValue.meanings (v :: vs), rest) := by
  obtain ⟨fuel, rfl⟩ := Nat.exists_eq_succ_of_ne_zero (Nat.ne_of_gt (Nat.zero_lt_of_lt hf))
  obtain ⟨hv, hvs⟩ := List.forall_mem_cons.1 h
  induction vs generalizing v fuel with
  | nil =>
    rw [itemChars_singleton] at hf ⊢
    rw [readItems, hv (']' :: rest) fuel ⟨rest, .inr (.inl rfl)⟩ (Nat.le_of_lt_succ hf)]
    rfl
  | cons w vs ih =>
    rw [itemChars_cons] at hf ⊢
    simp only [List.length_append, List.length_cons] at hf
    obtain ⟨fuel, rfl⟩ : ∃ n, fuel = n + 1 := Nat.exists_eq_succ_of_ne_zero (by omega)
    have hitems := ih hvs fuel (by omega) (hvs w List.mem_cons_self)
      fun x hx => hvs x (List.mem_cons_of_mem _ hx)
    have hread := hv (',' :: ' ' :: (itemChars (w :: vs) ++ ']' :: rest)) (fuel + 1) ⟨_, .inl rfl⟩
      (by omega)
    obtain ⟨c, cs, heq, hspace, -⟩ := itemChars_start w vs
    rw [List.append_assoc, List.cons_append, List.cons_append, readItems, hread]
    rw [heq, List.cons_append] at hitems ⊢
    -- behind the comma the space is skipped, and no more than the space
    show (readItems (fuel + 2) (Json.skipSpaces (c :: (cs ++ ']' :: rest)))).bind _ = _
    rw [skipSpaces_cons hspace, hitems]
    rfl

theorem readsBack_list (h : ∀ v ∈ vs, ReadsBack v) : ReadsBack (.list vs) := by
  intro rest fuel _ hf
  cases vs with
  | nil => rfl
  | cons v vs =>
    rw [valueChars_list] at hf ⊢
    simp only [List.length_cons, List.length_append, List.length_nil] at hf
    obtain ⟨fuel, rfl⟩ : ∃ n, fuel = n + 1 := Nat.exists_eq_succ_of_ne_zero (by omega)
    have hitems := readItems_itemChars h rest fuel (by omega)
    obtain ⟨c, cs, heq, hspace, hclose⟩ := itemChars_start v vs
    rw [heq, List.cons_append] at hitems
    rw [heq, List.cons_append, List.append_assoc, List.cons_append, readValueIn,
      if_neg (by decide), if_pos rfl, skipSpaces_cons hspace]
    split
    · next heq => exact absurd (List.cons.inj heq).1 hclose
    · rw [List.singleton_append, hitems]
      rfl

theorem readsBack : ∀ v : ParamValue, ReadsBack v
  | .null => fun _ _ h _ => readWord_null h.canEnd
  | .flag true => fun _ _ h _ => readWord_flag true h.canEnd
  | .flag false => fun _ _ h _ => readWord_flag false h.canEnd
  | .number d => fun _ fuel h _ => readValueIn_number d h fuel
  | .text s => fun rest fuel _ _ => readValueIn_text s rest fuel
  | .list vs => readsBack_list fun v _ => readsBack v

theorem readQuoted_append (h : readQuoted cs = some (s, rest)) (more : List Char) :
    readQuoted (cs ++ more) = some (s, rest ++ more) := by
  unfold readQuoted at h
  split at h
  · next inner =>
    obtain ⟨⟨text, rest'⟩, hread, heq⟩ := Option.map_eq_some_iff.1 h
    cases heq
    have hle : inner.length + 1 ≤ (inner ++ more).length + 1 := by
      rw [List.length_append]
      omega
    rw [List.cons_append, readQuoted, readTextIn_append hread hle more]
    rfl
  · cases h

/-- A text in quotes does not end before its last quote. -/
theorem readQuoted_of_prefix {front : List Char} (h : front <+: (quote s).toList)
    (hne : front ≠ (quote s).toList) : readQuoted front = none := by
  obtain ⟨more, hmore⟩ := h
  cases hread : readQuoted front with
  | none => rfl
  | some r =>
    obtain ⟨text, rest⟩ := r
    have hwhole := readQuoted_quote s []
    rw [List.append_nil, ← hmore, readQuoted_append hread more] at hwhole
    -- all of the literal is read, so nothing can stand behind the front part
    have hrest : rest ++ more = [] := congrArg Prod.snd (Option.some.inj hwhole)
    rw [(List.append_eq_nil_iff.1 hrest).2, List.append_nil] at hmore
    exact absurd hmore hne

/-- **Literals read back**: what is written for the value of a parameter is read as this value, in
    front of whatever can follow it in a file, and nothing behind it is read. A text in quotes is
    read as the text whatever follows it, stands on one line and does not end early. -/
theorem literals_read_back :
    (∀ (v : ParamValue) (rest : List Char), Closes rest →
      readValue ((parameterCode v).print.toList ++ rest) = some (v.meaning, rest)) ∧
    ∀ s : String,
      (∀ rest, readQuoted ((quote s).toList ++ rest) = some (s, rest)) ∧
      (∀ c ∈ (quote s).toList, c ≠ '\n' ∧ c ≠ '\r') ∧
      ∀ front, front <+: (quote s).toList → front ≠ (quote s).toList →
        readQuoted front = none := by
  refine ⟨fun v rest h => ?_, fun s => ⟨readQuoted_quote s, fun c hc => oneLine_quote hc,
    fun front => readQuoted_of_prefix⟩⟩
  refine readsBack v rest _ h ?_
  rw [List.length_append]
  exact Nat.le_add_right _ _

/-- A list with quotes, brackets, backslashes and line breaks in its texts. -/
def awkwardList : ParamValue :=
  .list [.text "it's ], [\\", .list [.number ⟨true, 50, 2, by decide, by decide⟩, .null, .list []],
    .flag true, .text "a\n\x01"]

-- in the text the escaped quote ends nothing
theorem literals_read_back_awkward :
    (parameterCode awkwardList).print =
      "['it\\'s ], [\\\\', [-0.5, null, []], true, 'a\\n\\u0001']" ∧
    Closes [';'] ∧
    readValue ((parameterCode awkwardList).print.toList ++ [';']) =
      some (.array [.text "it's ], [\\", .array [.number (-1 / 2), .null, .array []], .flag true,
        .text "a\n\x01"], [';']) ∧
    ['\'', 'i', 't', '\\', '\''] <+: (quote "it's").toList ∧
    readQuoted ['\'', 'i', 't', '\\', '\''] = none := by
  have hcloses : Closes [';'] := ⟨[], .inr (.inr rfl)⟩
  have hfront : ['\'', 'i', 't', '\\', '\''] <+: (quote "it's").toList ∧
      ['\'', 'i', 't', '\\', '\''] ≠ (quote "it's").toList := by decide +kernel
  have hnone := (literals_read_back.2 "it's").2.2 _ hfront.1 hfront.2
  refine ⟨by decide +kernel, hcloses, ?_, hfront.1, hnone⟩
  have hread := literals_read_back.1 awkwardList [';'] hcloses
  have hnumber : Decimal.toRat ⟨true, 50, 2, by decide, by decide⟩ = -1 / 2 := by
    norm_num [Decimal.toRat]
  rw [hread, awkwardList]
  simp only [ParamValue.meaning, ParamValue.meanings, hnumber]

end Code

end UiScenario
