import UiScenario.Text.Blank
import UiScenario.Text.Lowercase

/-!
What the case mappings do to single characters. A mapping is a table of runs and a table of
characters with longer images; the ASCII letters are a run of their own in front of them. What holds
of all images is checked for the tables as a whole: a set of code points is a number with these
bits, so inclusion and disjointness are one operation on numbers.
-/

namespace UiScenario.Text

variable {n : Nat} {c : Char} {runs : List (Nat × Nat × Nat × Nat)}
  {expansions : List (Nat × List Nat)}

/-! ## Code points as bits -/

/-- A number whose bits are the given code points. -/
def bits (points : List Nat) : Nat :=
  points.foldr (fun n mask => 1 <<< n ||| mask) 0

theorem testBit_bits (points : List Nat) (n : Nat) :
    (bits points).testBit n = decide (n ∈ points) := by
  induction points with
  | nil => simp [bits]
  | cons m points ih =>
    have hbit : (1 <<< m).testBit n = decide (n = m) := by
      rw [Nat.one_shiftLeft, Nat.testBit_two_pow]
      simp [eq_comm]
    show (1 <<< m ||| bits points).testBit n = _
    rw [Nat.testBit_or, hbit, ih]
    simp

theorem subset_of_bits {xs ys : List Nat} (h : bits xs ||| bits ys = bits ys) : xs ⊆ ys := by
  intro n hn
  have := congrArg (·.testBit n) h
  simpa [testBit_bits, hn] using this

theorem disjoint_of_bits {xs ys : List Nat} (h : bits xs &&& bits ys = 0) (hx : n ∈ xs) :
    n ∉ ys := by
  have := congrArg (·.testBit n) h
  simpa [testBit_bits, hx] using this

/-! ## Tables -/

/-- The code points `lo`, `lo + step`, ... up to `hi`. -/
def stepPoints (lo hi step : Nat) : List Nat :=
  ((List.range (hi + 1 - lo)).filter (· % step == 0)).map (lo + ·)

theorem mem_stepPoints {lo hi step : Nat} :
    n ∈ stepPoints lo hi step ↔ (lo ≤ n ∧ n ≤ hi) ∧ (n - lo) % step = 0 := by
  simp only [stepPoints, List.mem_map, List.mem_filter, List.mem_range, beq_iff_eq]
  constructor
  · rintro ⟨k, ⟨hk, hs⟩, rfl⟩
    refine ⟨by omega, ?_⟩
    rwa [Nat.add_sub_cancel_left]
  · rintro ⟨hn, hs⟩
    exact ⟨n - lo, ⟨by omega, hs⟩, by omega⟩

def propertyPoints (runs : List (Nat × Nat × Nat)) : List Nat :=
  runs.flatMap fun (lo, hi, step) => stepPoints lo hi step

theorem inRuns_iff {runs : List (Nat × Nat × Nat)} :
    inRuns runs n = true ↔ n ∈ propertyPoints runs := by
  simp only [inRuns, propertyPoints, List.any_eq_true, List.mem_flatMap, mem_stepPoints,
    Bool.and_eq_true, decide_eq_true_eq, beq_iff_eq]

def changedPoints (expansions : List (Nat × List Nat)) (runs : List (Nat × Nat × Nat × Nat)) :
    List Nat :=
  expansions.map (·.1) ++ runs.flatMap fun (lo, hi, step, _) => stepPoints lo hi step

/-- The code points that single ones are changed to. -/
def runImages (runs : List (Nat × Nat × Nat × Nat)) : List Nat :=
  runs.flatMap fun (lo, hi, step, image) => stepPoints image (image + (hi - lo)) step

def imagePoints (expansions : List (Nat × List Nat)) (runs : List (Nat × Nat × Nat × Nat)) :
    List Nat :=
  expansions.flatMap (·.2) ++ runImages runs

def leadPoints (expansions : List (Nat × List Nat)) (runs : List (Nat × Nat × Nat × Nat)) :
    List Nat :=
  expansions.filterMap (·.2.head?) ++ runImages runs

/-- A mapping leaves a character alone, or the tables have an image of it. -/
theorem mapCase_cases (expansions : List (Nat × List Nat))
    (runs : List (Nat × Nat × Nat × Nat)) (c : Char) :
    c.toNat ∉ changedPoints expansions runs ∧ mapCase expansions runs c = [c] ∨
    c.toNat ∈ changedPoints expansions runs ∧
      ∃ image, mapCase expansions runs c = image.map Char.ofNat ∧
        ((c.toNat, image) ∈ expansions ∨ ∃ n ∈ runImages runs, image = [n]) := by
  unfold mapCase
  cases hl : expansions.lookup c.toNat with
  | some image =>
    obtain ⟨front, back, hmem, -⟩ := List.lookup_eq_some_iff.1 hl
    have hmem : (c.toNat, image) ∈ expansions := by simp [hmem]
    exact .inr ⟨List.mem_append_left _ (List.mem_map_of_mem hmem), image, rfl, .inl hmem⟩
  | none =>
    dsimp only
    unfold runImage
    split
    · next lo hi step image h =>
      have hp := List.find?_some h
      have hm := List.mem_of_find?_eq_some h
      simp only [Bool.and_eq_true, decide_eq_true_eq, beq_iff_eq] at hp
      have himage : image + (c.toNat - lo) ∈ runImages runs := by
        refine List.mem_flatMap.2 ⟨_, hm, mem_stepPoints.2 ⟨by omega, ?_⟩⟩
        rw [Nat.add_sub_cancel_left]
        exact hp.2
      exact .inr ⟨List.mem_append_right _ (List.mem_flatMap.2 ⟨_, hm, mem_stepPoints.2 hp⟩),
        _, rfl, .inr ⟨_, himage, rfl⟩⟩
    · next h =>
      refine .inl ⟨fun hn => ?_, by rw [Char.ofNat_toNat]⟩
      rcases List.mem_append.1 hn with hn | hn
      · obtain ⟨⟨n, image⟩, hm, rfl⟩ := List.mem_map.1 hn
        exact absurd (List.lookup_eq_none_iff.1 hl _ hm) (by simp)
      · obtain ⟨⟨lo, hi, step, image⟩, hm, hp⟩ := List.mem_flatMap.1 hn
        have hx := List.find?_eq_none.1 h _ hm
        rw [mem_stepPoints] at hp
        simp [hp] at hx

/-- Where a mapping is not the identity the image has a first character. -/
theorem exists_lead {image : List Nat} (hne : expansions.all (!·.2.isEmpty) = true)
    (h : (n, image) ∈ expansions ∨ ∃ m ∈ runImages runs, image = [m]) :
    ∃ m ms, image = m :: ms ∧ m ∈ leadPoints expansions runs ∧
      ∀ k ∈ image, k ∈ imagePoints expansions runs := by
  rcases h with h | ⟨m, hm, rfl⟩
  · cases image with
    | nil => exact absurd (List.all_eq_true.1 hne _ h) (by simp)
    | cons m ms =>
      exact ⟨m, ms, rfl, List.mem_append_left _ (List.mem_filterMap.2 ⟨_, h, rfl⟩),
        fun k hk => List.mem_append_left _ (List.mem_flatMap.2 ⟨_, h, hk⟩)⟩
  · refine ⟨m, [], rfl, List.mem_append_right _ hm, fun k hk => List.mem_append_right _ ?_⟩
    rw [List.mem_singleton.1 hk]
    exact hm

/-! ## The mappings and properties with their ASCII letters -/

def smallRuns : List (Nat × Nat × Nat × Nat) :=
  (0x41, 0x5A, 1, 0x61) :: lowerRuns

def capitalRuns : List (Nat × Nat × Nat × Nat) :=
  (0x61, 0x7A, 1, 0x41) :: upperRuns

def smallLetters : List (Nat × Nat × Nat) :=
  (0x61, 0x7A, 1) :: lowercaseRuns

def capitalLetters : List (Nat × Nat × Nat) :=
  (0x41, 0x5A, 1) :: uppercaseRuns

theorem runImage_cons_of_not {lo hi image : Nat} (h : ¬(lo ≤ n ∧ n ≤ hi)) :
    runImage ((lo, hi, 1, image) :: runs) n = runImage runs n := by
  rw [runImage, runImage, List.find?_cons_of_neg]
  simpa [Nat.mod_one] using h

theorem runImage_cons_of_mem {lo hi image : Nat} (h : lo ≤ n ∧ n ≤ hi) :
    runImage ((lo, hi, 1, image) :: runs) n = image + (n - lo) := by
  rw [runImage, List.find?_cons_of_pos (by simp [h, Nat.mod_one])]

theorem runImage_of_lt (h : runs.all (128 ≤ ·.1) = true) (hn : n < 128) : runImage runs n = n := by
  rw [runImage, List.find?_eq_none.2 fun r hr => ?_]
  have := of_decide_eq_true (List.all_eq_true.1 h r hr)
  have hlt : ¬r.1 ≤ n := by omega
  simp [hlt]

theorem lookup_of_lt (h : expansions.all (128 ≤ ·.1) = true) (hn : n < 128) :
    expansions.lookup n = none := by
  refine List.lookup_eq_none_iff.2 fun e he => ?_
  have := of_decide_eq_true (List.all_eq_true.1 h e he)
  exact bne_iff_ne.2 (by omega)

/-- The ASCII letters can stand as a run in front of the tables. -/
theorem mapCase_cons {lo image : Nat} {ascii : Char → Char} (he : expansions.all (128 ≤ ·.1) = true)
    (hr : runs.all (128 ≤ ·.1) = true) (hlo : lo + 26 ≤ 128)
    (hin : (List.range 26).all (fun k => ascii (Char.ofNat (lo + k)) == Char.ofNat (image + k)))
    (hout : ∀ c : Char, ¬(lo ≤ c.toNat ∧ c.toNat ≤ lo + 25) → ascii c = c) (c : Char) :
    mapCase expansions ((lo, lo + 25, 1, image) :: runs) c =
      if c.toNat < 128 then [ascii c] else mapCase expansions runs c := by
  by_cases hn : c.toNat < 128
  · rw [if_pos hn, mapCase, lookup_of_lt he hn]
    dsimp only
    by_cases hv : lo ≤ c.toNat ∧ c.toNat ≤ lo + 25
    · have h := List.all_eq_true.1 hin (c.toNat - lo) (List.mem_range.2 (by omega))
      rw [beq_iff_eq, Nat.add_sub_cancel' hv.1, Char.ofNat_toNat] at h
      rw [runImage_cons_of_mem hv, h]
    · rw [runImage_cons_of_not hv, runImage_of_lt hr hn, Char.ofNat_toNat, hout c hv]
  · rw [if_neg hn, mapCase, mapCase, runImage_cons_of_not (by omega)]

theorem lowerChar_eq (c : Char) : lowerChar c = mapCase lowerExpansions smallRuns c := by
  refine (mapCase_cons (by decide) (by decide) (by decide) (by decide) (fun c h => ?_) c).symm
  exact dif_neg fun hv => h hv

theorem upperChar_eq (c : Char) : upperChar c = mapCase upperExpansions capitalRuns c := by
  refine (mapCase_cons (by decide) (by decide) (by decide) (by decide) (fun c h => ?_) c).symm
  exact dif_neg fun hv => h hv

theorem property_of_mem {runs : List (Nat × Nat × Nat)} {lo : Nat} {ascii : Char → Bool}
    (hr : runs.all (128 ≤ ·.1) = true) (hlo : lo + 26 ≤ 128)
    (hin : lo ≤ c.toNat ∧ c.toNat ≤ lo + 25 → ascii c = true)
    (h : c.toNat ∈ propertyPoints ((lo, lo + 25, 1) :: runs)) :
    (if c.toNat < 128 then ascii c else inRuns runs c.toNat) = true := by
  rcases List.mem_append.1 h with h | h
  · have hv := (mem_stepPoints.1 h).1
    rw [if_pos (by omega), hin hv]
  · obtain ⟨run, hm, hv⟩ := List.mem_flatMap.1 h
    have hge := of_decide_eq_true (List.all_eq_true.1 hr run hm)
    have hv := (mem_stepPoints.1 hv).1
    rw [if_neg (by omega), inRuns_iff]
    exact h

theorem isUppercase_of_mem (h : c.toNat ∈ propertyPoints capitalLetters) : isUppercase c = true :=
  property_of_mem (by decide) (by decide) (fun hv => decide_eq_true hv) h

theorem isLowercase_of_mem (h : c.toNat ∈ propertyPoints smallLetters) : isLowercase c = true := by
  refine property_of_mem (by decide) (by decide) (fun hv => ?_) h
  exact Bool.and_eq_true_iff.2 ⟨decide_eq_true hv.1, decide_eq_true hv.2⟩

def blankPoints : List Nat :=
  propertyPoints (blankRanges.map fun (lo, hi) => (lo, hi, 1))

theorem isBlank_iff : isBlank c = true ↔ c.toNat ∈ blankPoints := by
  rw [blankPoints, ← inRuns_iff]
  simp [isBlank, inRanges, inRuns, Nat.mod_one]

/-! ## Small forms -/

/-- The code points that `lowerChar` changes. -/
def loweredPoints : List Nat :=
  changedPoints lowerExpansions smallRuns

/-- The code points in small forms, with that of the final small sigma. -/
def smallPoints : List Nat :=
  0x3C2 :: imagePoints lowerExpansions smallRuns

/-- A character that is its own small form. -/
def Settled (c : Char) : Prop :=
  c.toNat ∉ loweredPoints

theorem toNat_ofNat_of_mem {points : List Nat}
    (h : points.all (fun n => decide n.isValidChar) = true) (hn : n ∈ points) :
    (Char.ofNat n).toNat = n := by
  rw [Char.ofNat, dif_pos (of_decide_eq_true (List.all_eq_true.1 h n hn))]
  rfl

theorem smallPoints_valid : smallPoints.all (fun n => decide n.isValidChar) = true := by
  decide +kernel

/-- Small forms are made of settled characters, and not of blanks, hyphens, `@` and `_`. -/
theorem smallPoints_disjoint :
    bits smallPoints &&& bits (loweredPoints ++ (0x2D :: 0x40 :: 0x5F :: blankPoints)) = 0 := by
  decide +kernel

theorem loweredPoints_disjoint : bits loweredPoints &&& bits blankPoints = 0 := by
  decide +kernel

theorem leadPoints_small : bits (leadPoints lowerExpansions smallRuns) |||
    bits (propertyPoints smallLetters) = bits (propertyPoints smallLetters) := by
  decide +kernel

/-- A character of a small form that is not the character itself. -/
structure IsSmall (c : Char) : Prop where
  settled : Settled c
  not_blank : isBlank c = false
  ne_at : c ≠ '@'
  not_joined : c ≠ '_' ∧ c ≠ '-'

theorem isSmall_of_mem (h : n ∈ smallPoints) : IsSmall (Char.ofNat n) := by
  have hn := disjoint_of_bits smallPoints_disjoint h
  rw [← toNat_ofNat_of_mem smallPoints_valid h] at hn
  simp only [List.mem_append, List.mem_cons, not_or] at hn
  obtain ⟨hs, hh, ha, hu, hb⟩ := hn
  refine ⟨hs, ?_, ?_, ?_, ?_⟩
  · exact Bool.eq_false_iff.2 fun hc => hb (isBlank_iff.1 hc)
  all_goals
    intro hc
    rw [hc] at ha hu hh
    contradiction

theorem lowerChar_cases (c : Char) :
    Settled c ∧ lowerChar c = [c] ∨
    ¬Settled c ∧ ∃ d ds, lowerChar c = d :: ds ∧ isLowercase d = true ∧
      ∀ e ∈ lowerChar c, IsSmall e := by
  rw [lowerChar_eq]
  rcases mapCase_cases lowerExpansions smallRuns c with h | ⟨hc, image, himage, hmem⟩
  · exact .inl h
  · obtain ⟨m, ms, rfl, hlead, hpoints⟩ := exists_lead (by decide) hmem
    refine .inr ⟨fun h => h hc, Char.ofNat m, ms.map Char.ofNat, himage, ?_, fun e he => ?_⟩
    · refine isLowercase_of_mem ?_
      rw [toNat_ofNat_of_mem smallPoints_valid
        (List.mem_cons_of_mem _ (hpoints m List.mem_cons_self))]
      exact subset_of_bits leadPoints_small hlead
    · rw [himage] at he
      obtain ⟨n, hn, rfl⟩ := List.mem_map.1 he
      exact isSmall_of_mem (List.mem_cons_of_mem _ (hpoints n hn))

theorem Settled.lowerChar_eq (h : Settled c) : lowerChar c = [c] := by
  rcases lowerChar_cases c with hc | hc
  · exact hc.2
  · exact absurd h hc.1

theorem settled_of_isBlank (h : isBlank c = true) : Settled c :=
  fun hc => disjoint_of_bits loweredPoints_disjoint hc (isBlank_iff.1 h)

theorem lowerChar_sigma : lowerChar 'Σ' = ['σ'] := by
  decide +kernel

theorem not_settled_sigma : ¬Settled 'Σ' := by
  intro h
  have := h.lowerChar_eq
  rw [lowerChar_sigma] at this
  cases this

theorem isSmall_sigma : IsSmall 'σ' ∧ IsSmall 'ς' := by
  refine ⟨?_, isSmall_of_mem List.mem_cons_self⟩
  rcases lowerChar_cases 'Σ' with h | ⟨-, _, _, _, _, hsmall⟩
  · exact absurd h.1 not_settled_sigma
  · exact hsmall _ (by rw [lowerChar_sigma]; exact List.mem_cons_self)

/-- What a character becomes in a text: itself, if it is settled, or a small form. -/
theorem lowerAfter_cons (before : List Char) (c : Char) (cs : List Char) :
    ∃ image, lowerAfter before (c :: cs) = image ++ lowerAfter (c :: before) cs ∧ image ≠ [] ∧
      (Settled c ∧ image = [c] ∨ ¬Settled c ∧ ∀ e ∈ image, IsSmall e) := by
  rw [lowerAfter]
  refine ⟨_, rfl, ?_⟩
  split
  · next hc =>
    subst hc
    split
    · exact ⟨List.cons_ne_nil _ _, .inr ⟨not_settled_sigma, by simpa using isSmall_sigma.2⟩⟩
    · exact ⟨List.cons_ne_nil _ _, .inr ⟨not_settled_sigma, by simpa using isSmall_sigma.1⟩⟩
  · rcases lowerChar_cases c with ⟨hs, h⟩ | ⟨hs, d, ds, h, -, hsmall⟩
    · exact ⟨by rw [h]; exact List.cons_ne_nil _ _, .inl ⟨hs, h⟩⟩
    · exact ⟨by rw [h]; exact List.cons_ne_nil _ _, .inr ⟨hs, hsmall⟩⟩

/-! ## Capital forms -/

def capitalPoints : List Nat :=
  imagePoints upperExpansions capitalRuns

/-- The capital form of `ŉ` alone starts with no letter but with an apostrophe. -/
def ledExpansions : List (Nat × List Nat) :=
  upperExpansions.filter (·.1 != 0x149)

theorem capitalPoints_valid : capitalPoints.all (fun n => decide n.isValidChar) = true := by
  decide +kernel

theorem capitalPoints_disjoint : bits capitalPoints &&& bits [0x2D, 0x5F] = 0 := by
  decide +kernel

theorem leadPoints_capital : bits (leadPoints ledExpansions capitalRuns) |||
    bits (propertyPoints capitalLetters) = bits (propertyPoints capitalLetters) := by
  decide +kernel

theorem leadPoints_lowered :
    bits (leadPoints ledExpansions capitalRuns) ||| bits loweredPoints = bits loweredPoints := by
  decide +kernel

theorem upperChar_cases (c : Char) :
    upperChar c = [c] ∨
    ∃ d ds, upperChar c = d :: ds ∧ (c ≠ 'ŉ' → isUppercase d = true ∧ ¬Settled d) ∧
      ∀ e ∈ upperChar c, e ≠ '_' ∧ e ≠ '-' := by
  rw [upperChar_eq]
  rcases mapCase_cases upperExpansions capitalRuns c with h | ⟨-, image, himage, hmem⟩
  · exact .inl h.2
  · obtain ⟨m, ms, rfl, -, hpoints⟩ := exists_lead (by decide) hmem
    refine .inr ⟨Char.ofNat m, ms.map Char.ofNat, himage, fun hc => ?_, fun e he => ?_⟩
    · have hled : (c.toNat, m :: ms) ∈ ledExpansions ∨ ∃ n ∈ runImages capitalRuns, m :: ms = [n] :=
        hmem.imp_left fun h =>
          List.mem_filter.2 ⟨h, bne_iff_ne.2 fun hn => hc (Char.toNat_inj.1 hn)⟩
      obtain ⟨m', ms', heq, hlead, -⟩ := exists_lead (by decide) hled
      obtain ⟨rfl, rfl⟩ := List.cons.inj heq
      have hm := toNat_ofNat_of_mem capitalPoints_valid (hpoints m List.mem_cons_self)
      constructor
      · refine isUppercase_of_mem ?_
        rw [hm]
        exact subset_of_bits leadPoints_capital hlead
      · rw [Settled, hm]
        exact fun h => h (subset_of_bits leadPoints_lowered hlead)
    · rw [himage] at he
      obtain ⟨n, hn, rfl⟩ := List.mem_map.1 he
      have hn' := disjoint_of_bits capitalPoints_disjoint (hpoints n hn)
      rw [← toNat_ofNat_of_mem capitalPoints_valid (hpoints n hn)] at hn'
      constructor <;> intro hc <;> rw [hc] at hn' <;> exact hn' (by decide)

end UiScenario.Text
