import Mathlib.Data.List.Induction
import Mathlib.Data.List.Nodup
import UiScenario.Proofs.Contract

/-!
Names of the tests of one scenario. A label that is taken is numbered with the place of its
combination, but the numbered label itself is not looked up: it may be the own label of an earlier
combination.
-/

namespace UiScenario

open Generate

variable {cs : List Combination} {a b : String} {i j : Nat}

def numberedLabel (label : String) (number : Nat) : String :=
  label ++ " #" ++ toString number

def labels (cs : List Combination) : List String :=
  (labelsFrom [] 1 cs).map (·.2)

/-- The label of a combination behind others. -/
def labelBehind (cs : List Combination) (c : Combination) : String :=
  if c.displayLabel ∈ labels cs then numberedLabel c.displayLabel (cs.length + 1)
  else c.displayLabel

/-- A combination whose own label is taken and, once it is numbered, is the own label that an
earlier combination has kept. -/
def Clashes (earlier : List Combination) (c : Combination) : Prop :=
  c.displayLabel ∈ labels earlier ∧
  ∃ front kept, front ++ [kept] <+: earlier ∧ kept.displayLabel ∉ labels front ∧
    kept.displayLabel = numberedLabel c.displayLabel (earlier.length + 1)

/-! ## Numbers in labels -/

theorem toString_nat_inj (h : (toString i).toList = (toString j).toList) : i = j := by
  have hread := congrArg (fun digits => Nat.ofDigitChars 10 digits 0) h
  simpa [Nat.toString_eq_ofList_toDigits] using hread

theorem hash_notMem_toString (i : Nat) : '#' ∉ (toString i).toList := by
  intro h
  rw [Nat.toString_eq_ofList_toDigits, String.toList_ofList] at h
  have hdigit := Nat.isDigit_of_mem_toDigits (b := 10) (by decide) (by decide) h
  exact absurd hdigit (by decide)

/-- The number is what stands behind the last `#`. -/
theorem numberedLabel_inj (h : numberedLabel a i = numberedLabel b j) : i = j := by
  have hback : ∀ (a : String) (i : Nat),
      (numberedLabel a i).toList.reverse.takeWhile (· != '#') = (toString i).toList.reverse := by
    intro a i
    have hdigits : ∀ c ∈ (toString i).toList.reverse, (c != '#') = true := by
      intro c hc
      rw [bne_iff_ne]
      rintro rfl
      exact hash_notMem_toString i (List.mem_reverse.1 hc)
    have hspell : (numberedLabel a i).toList.reverse
        = (toString i).toList.reverse ++ '#' :: ' ' :: a.toList.reverse := by
      simp [numberedLabel]
    rw [hspell, List.takeWhile_append_of_pos hdigits]
    simp
  apply toString_nat_inj
  have hrev := hback a i
  rw [h, hback b j] at hrev
  exact (List.reverse_inj.1 hrev).symm

/-! ## Labels one by one -/

theorem labelsFrom_append (used : List String) (number : Nat) (cs ds : List Combination) :
    labelsFrom used number (cs ++ ds) = labelsFrom used number cs ++
      labelsFrom (((labelsFrom used number cs).map (·.2)).reverse ++ used)
        (number + cs.length) ds := by
  induction cs generalizing used number with
  | nil => simp [labelsFrom]
  | cons c cs ih =>
    simp only [List.cons_append, labelsFrom, ih, List.map_cons, List.reverse_cons,
      List.append_assoc, List.nil_append, List.length_cons]
    rw [Nat.add_right_comm, Nat.add_assoc number]

theorem labels_concat (cs : List Combination) (c : Combination) :
    labels (cs ++ [c]) = labels cs ++ [labelBehind cs c] := by
  unfold labels
  rw [labelsFrom_append, List.map_append, List.append_nil]
  congr 1
  simp only [labelsFrom, List.map_cons, List.map_nil, labelBehind, labels, numberedLabel,
    List.contains_iff_mem, List.mem_reverse, Nat.add_comm 1]
  rfl

theorem mem_labels_iff {label : String} :
    label ∈ labels cs ↔ ∃ front c, front ++ [c] <+: cs ∧ label = labelBehind front c := by
  induction cs using List.reverseRecOn with
  | nil => simp [labels, labelsFrom]
  | append_singleton cs last ih =>
    rw [labels_concat, List.mem_append, ih, List.mem_singleton]
    constructor
    · rintro (⟨front, c, hfront, rfl⟩ | rfl)
      · exact ⟨front, c, hfront.trans (List.prefix_append _ _), rfl⟩
      · exact ⟨cs, last, List.prefix_rfl, rfl⟩
    · rintro ⟨front, c, hfront, rfl⟩
      rcases List.prefix_concat_iff.1 hfront with heq | hfront
      · obtain ⟨rfl, hc⟩ := List.append_inj' heq rfl
        cases hc
        exact Or.inr rfl
      · exact Or.inl ⟨front, c, hfront, rfl⟩

/-- The label that a combination gets is taken only if it clashes: the labels that were numbered
before it have smaller numbers. -/
theorem labelBehind_mem_iff (cs : List Combination) (c : Combination) :
    labelBehind cs c ∈ labels cs ↔ Clashes cs c := by
  by_cases htaken : c.displayLabel ∈ labels cs
  · rw [labelBehind, if_pos htaken, mem_labels_iff]
    constructor
    · rintro ⟨front, kept, hfront, hlabel⟩
      by_cases hkept : kept.displayLabel ∈ labels front
      · rw [labelBehind, if_pos hkept] at hlabel
        have hnumber := numberedLabel_inj hlabel
        have hlength := hfront.length_le
        simp only [List.length_append, List.length_singleton] at hlength
        omega
      · rw [labelBehind, if_neg hkept] at hlabel
        exact ⟨htaken, front, kept, hfront, hkept, hlabel.symm⟩
    · rintro ⟨-, front, kept, hfront, hkept, hlabel⟩
      refine ⟨front, kept, hfront, ?_⟩
      rw [labelBehind, if_neg hkept, hlabel]
  · rw [labelBehind, if_neg htaken]
    exact ⟨fun h => absurd h htaken, fun h => h.1⟩

theorem labels_nodup_iff (cs : List Combination) :
    (labels cs).Nodup ↔ ∀ earlier c, earlier ++ [c] <+: cs → ¬Clashes earlier c := by
  induction cs using List.reverseRecOn with
  | nil => simp [labels, labelsFrom]
  | append_singleton cs last ih =>
    rw [labels_concat, ← List.concat_eq_append, List.nodup_concat, labelBehind_mem_iff, ih]
    constructor
    · rintro ⟨hlast, hcs⟩ earlier c hearlier
      rcases List.prefix_concat_iff.1 hearlier with heq | hearlier
      · obtain ⟨rfl, hc⟩ := List.append_inj' heq rfl
        cases hc
        exact hlast
      · exact hcs earlier c hearlier
    · intro h
      refine ⟨h cs last List.prefix_rfl, fun earlier c hearlier => ?_⟩
      exact h earlier c (hearlier.trans (List.prefix_append _ _))

/-! ## Names of tests -/

def scenarioCases (cs : List Combination) (f : Feature) (s : Scenario) : List TestCase :=
  (variants cs).map fun v => ⟨f.name, s.name, v.1, testName s v.1⟩

theorem testName_inj {s : Scenario} (h : testName s (some a) = testName s (some b)) : a = b := by
  have hspell : ∀ l, testName s (some l) = s.name ++ " [" ++ l ++ "]" := fun _ => rfl
  rw [hspell, hspell, String.append_left_inj, String.append_right_inj] at h
  exact h

/-- All tests of a scenario are told apart by their labels if they are by their names. -/
theorem nodup_scenarioCases (cs : List Combination) (f : Feature) (s : Scenario) :
    (((scenarioCases cs f s).map (·.combination)).Nodup ↔ (labels cs).Nodup) ∧
    (((scenarioCases cs f s).map (·.name)).Nodup ↔ (labels cs).Nodup) := by
  by_cases hcs : cs = []
  · subst hcs
    simp [scenarioCases, variants, labels, labelsFrom]
  · have hcombination : (scenarioCases cs f s).map (·.combination) = (labels cs).map some := by
      simp [scenarioCases, variants, labels, hcs]
    have hname : (scenarioCases cs f s).map (·.name) =
        (labels cs).map fun label => testName s (some label) := by
      simp [scenarioCases, variants, labels, hcs]
    rw [hcombination, hname]
    exact ⟨List.nodup_map_iff fun _ _ => Option.some.inj,
      List.nodup_map_iff fun _ _ => testName_inj⟩

theorem cases_suite {all : Project} {f : Feature} {scenarios : List Scenario}
    {made : Code.Suite × List TestCase} (h : suite all cs f scenarios = .ok made) :
    made.2 = scenarios.flatMap (scenarioCases cs f) := by
  have htest : ∀ s label values t, test all f s label values = .ok t →
      t.2 = ⟨f.name, s.name, label, testName s label⟩ := by
    intro s label values t h
    obtain ⟨code, -, h⟩ := bind_eq_ok.1 h
    cases h
    rfl
  have htests : ∀ s ts, tests all f cs s = .ok ts → ts.map (·.2) = scenarioCases cs f s :=
    fun s ts h => map_of_mapM_eq_ok (fun v t => htest s v.1 v.2 t) h
  obtain ⟨hooks, -, h⟩ := bind_eq_ok.1 h
  obtain ⟨ts, hts, h⟩ := bind_eq_ok.1 h
  cases h
  show ts.flatten.map (·.2) = _
  rw [List.map_flatten, map_of_mapM_eq_ok htests hts, List.flatMap_def]

theorem cases_generate {context : Project} {r : Request} {p : Program} {g : Generated}
    (h : generate context r p = .ok g) :
    g.cases = (selectedScenarios r.selection p.features).flatMap fun x =>
      x.2.flatMap (scenarioCases r.combinations x.1) := by
  obtain ⟨_, _, suites, -, -, hsuites, -, -, hcases⟩ := generate_cases h
  rw [hcases, List.flatMap_def, map_of_mapM_eq_ok (fun _ _ => cases_suite) hsuites,
    ← List.flatMap_def]

/-- **Names of tests**: the account of a generated file lists the tests of the selected scenarios,
    and those of one scenario have different labels, and different names, if and only if no
    combination clashes with those before it. -/
theorem testNames_nodup_iff (context : Project) (r : Request) (p : Program) (g : Generated)
    (h : generate context r p = .ok g) :
    g.cases = ((selectedScenarios r.selection p.features).flatMap fun x =>
      x.2.flatMap (scenarioCases r.combinations x.1)) ∧
    ∀ f s,
      (((scenarioCases r.combinations f s).map (·.combination)).Nodup ↔
        ∀ earlier c, earlier ++ [c] <+: r.combinations → ¬Clashes earlier c) ∧
      (((scenarioCases r.combinations f s).map (·.name)).Nodup ↔
        ∀ earlier c, earlier ++ [c] <+: r.combinations → ¬Clashes earlier c) := by
  refine ⟨cases_generate h, fun f s => ?_⟩
  rw [← labels_nodup_iff]
  exact nodup_scenarioCases r.combinations f s

/-- Three combinations: the third has the label of the second, and its number makes it that of the
    first. -/
def clashingCombinations : List Combination :=
  [⟨some "a #3", []⟩, ⟨some "a", []⟩, ⟨some "a", []⟩]

theorem testNames_nodup_iff_clash : ∃ g,
    generate .empty ⟨none, clashingCombinations⟩
      (parseText "FEATURE F \x7b SCENARIO \"s\" \x7b REFRESH \x7d \x7d").program = .ok g ∧
    g.cases.map (·.name) = ["s [a #3]", "s [a]", "s [a #3]"] ∧
    ∃ earlier c, earlier ++ [c] <+: clashingCombinations ∧ Clashes earlier c := by
  have hrun : (generate .empty ⟨none, clashingCombinations⟩
      (parseText "FEATURE F \x7b SCENARIO \"s\" \x7b REFRESH \x7d \x7d").program).toOption.any
      (fun g => g.cases.map (·.name) == ["s [a #3]", "s [a]", "s [a #3]"]) = true := by
    decide +kernel
  obtain ⟨g, hg, hnames⟩ := (Option.any_eq_true _ _).1 hrun
  have hok := toOption_eq_some.1 hg
  refine ⟨g, hok, beq_iff_eq.1 hnames, ?_⟩
  by_contra hnone
  have hnodup := ((testNames_nodup_iff _ _ _ g hok).2
    ⟨"F", [], [], [], [], 1⟩ ⟨"s", [], [], 1⟩).2.2 fun earlier c hpre hc =>
      hnone ⟨earlier, c, hpre, hc⟩
  exact absurd hnodup (by decide +kernel)

end UiScenario
