import Mathlib.Algebra.BigOperators.Group.Finset.Piecewise
import Mathlib.Algebra.Order.BigOperators.Group.Finset
import UiScenario.Problem.Report
import UiScenario.Proofs.WellFormed

/-!
How often a name is reported as defined again. Pages and libraries share their names, and duplicates
are found by four checks: pages against earlier pages, pages against the libraries of the project,
libraries against earlier libraries, and libraries against all pages. Each check on its own reports
a definition once; a definition that is found by two of them is reported twice.
-/

namespace UiScenario

/-- The names that the pages and libraries of a program define. -/
def Program.definedNames (p : Program) : List String :=
  p.pages.map (·.name) ++ p.libraries.map (·.name)

/-- The name that a finding says is defined again. -/
def Problem.duplicated? : Problem → Option String
  | duplicateDefinition _ name _ _ => some name
  | _ => none

theorem Problem.code_eq_duplicateDefinition_iff {x : Problem} :
    x.code = .duplicateDefinition ↔ ∃ n, x.duplicated? = some n := by
  cases x with
  | lexical e => rcases e with ⟨⟨⟩ | ⟨⟩ | ⟨⟩ | ⟨⟩, _⟩ <;> simp [code, duplicated?]
  | syntactic e => rcases e with ⟨⟨⟩ | ⟨⟩ | ⟨⟩ | ⟨⟩, _⟩ <;> simp [code, duplicated?]
  | _ => simp [code, duplicated?]

theorem Problem.isError_of_duplicated? {x : Problem} {n : String} (h : x.duplicated? = some n) :
    x.isError = true := by
  have hc := code_eq_duplicateDefinition_iff.2 ⟨n, h⟩
  rw [isError, severity, hc]
  rfl

/-- How many findings say that a name is defined again. -/
def reportsOf (n : String) (problems : List Problem) : Nat :=
  problems.countP (·.duplicated? == some n)

section
variable {n : String} {xs ys : List Problem}

@[simp] theorem reportsOf_nil : reportsOf n [] = 0 := rfl

@[simp] theorem reportsOf_append : reportsOf n (xs ++ ys) = reportsOf n xs + reportsOf n ys :=
  List.countP_append

/-- Findings that are made for each element, one or none, count the elements with the name. -/
theorem reportsOf_flatMap {α : Type} {name : α → String} {f : α → List Problem} {as : List α}
    {c : Prop} [Decidable c]
    (h : ∀ a ∈ as, reportsOf n (f a) = if name a = n ∧ c then 1 else 0) :
    reportsOf n (as.flatMap f) = if c then (as.map name).count n else 0 := by
  induction as with
  | nil => simp
  | cons a as ih =>
    rw [List.flatMap_cons, reportsOf_append, ih fun b hb => h b (List.mem_cons_of_mem _ hb),
      h a List.mem_cons_self, List.map_cons, List.count_cons]
    by_cases hc : c <;> simp [hc, Nat.add_comm]

/-- The finding about a definition, if there is an earlier one. -/
theorem reportsOf_findLast? {α : Type} {name : α → String} {m : String} {as : List α}
    {f : α → Problem} (hf : ∀ a, (f a).duplicated? = some m) :
    reportsOf n ((findLast? (name · == m) as).map f).toList =
      if m = n ∧ n ∈ as.map name then 1 else 0 := by
  have hiff : findLast? (name · == m) as = none ↔ m ∉ as.map name := findLast?_name_eq_none_iff
  cases h : findLast? (name · == m) as with
  | none =>
    have hm := hiff.1 h
    rw [if_neg]
    · rfl
    · rintro ⟨rfl, hn⟩
      exact hm hn
  | some a =>
    have hm : m ∈ as.map name := by
      by_contra hn
      rw [hiff.2 hn] at h
      cases h
    by_cases hmn : m = n
    · subst hmn
      simp [reportsOf, hf, hm]
    · simp [reportsOf, hf, hmn]

end

/-! ## Checks of members and bodies -/

def NoDuplicates (xs : List Problem) : Prop :=
  ∀ x ∈ xs, x.duplicated? = none

section
variable {α : Type} {xs ys : List Problem}

theorem NoDuplicates.append (h : NoDuplicates xs) (h' : NoDuplicates ys) :
    NoDuplicates (xs ++ ys) :=
  List.forall_mem_append.2 ⟨h, h'⟩

theorem NoDuplicates.reportsOf_eq (h : NoDuplicates xs) (n : String) : reportsOf n xs = 0 :=
  List.countP_eq_zero.2 fun x hx => by simp [h x hx]

theorem noDuplicates_nil : NoDuplicates [] :=
  List.forall_mem_nil _

theorem noDuplicates_singleton {x : Problem} (h : x.duplicated? = none) : NoDuplicates [x] :=
  List.forall_mem_singleton.2 h

theorem noDuplicates_flatMap {f : α → List Problem} {as : List α}
    (h : ∀ a ∈ as, NoDuplicates (f a)) : NoDuplicates (as.flatMap f) := by
  intro x hx
  obtain ⟨a, ha, hx⟩ := List.mem_flatMap.1 hx
  exact h a ha x hx

theorem noDuplicates_map {f : α → Problem} {as : List α} (h : ∀ a, (f a).duplicated? = none) :
    NoDuplicates (as.map f) :=
  List.forall_mem_map.2 fun a _ => h a

/-- A finding that is made unless a condition holds. -/
theorem noDuplicates_unless {c : Prop} [Decidable c] {x : Problem} (h : x.duplicated? = none) :
    NoDuplicates (if c then [] else [x]) := by
  split
  · exact noDuplicates_nil
  · exact noDuplicates_singleton h

end

namespace Validation

theorem noDuplicates_duplicateMembers {kind owner : String} {members : List (String × Nat)} :
    NoDuplicates (duplicateMembers kind owner members) :=
  noDuplicates_map fun _ => rfl

theorem noDuplicates_checkPage (p : Page) : NoDuplicates (checkPage p) :=
  (((noDuplicates_unless rfl).append (noDuplicates_map fun _ => rfl)).append
    noDuplicates_duplicateMembers).append noDuplicates_duplicateMembers

section
variable (all : Project) (o : Owner) (scope : List String) (line : Nat)

theorem noDuplicates_checkTarget (t : Target) : NoDuplicates (checkTarget all o scope line t) := by
  unfold checkTarget
  split
  · split
    · exact noDuplicates_nil
    · split
      · exact noDuplicates_singleton rfl
      · split
        · exact noDuplicates_nil
        · exact noDuplicates_unless rfl
  · exact noDuplicates_nil

theorem noDuplicates_checkReference (r : Option String × String) :
    NoDuplicates (checkReference all scope line r) := by
  obtain ⟨_ | qualifier, name⟩ := r
  · exact noDuplicates_unless rfl
  · show NoDuplicates (if scope.contains qualifier then [] else _)
    split
    · exact noDuplicates_nil
    · split
      · exact noDuplicates_singleton rfl
      · exact noDuplicates_unless rfl

theorem noDuplicates_checkCall {page action : String} {count : Nat} {actions : List Action}
    {found : Option Action} : NoDuplicates (checkCall page action count line actions found) := by
  cases found with
  | none => exact noDuplicates_singleton rfl
  | some a => exact noDuplicates_unless rfl

theorem noDuplicates_checkPerform (page action : String) (count : Nat) :
    NoDuplicates (checkPerform all o line page action count) := by
  unfold checkPerform
  split
  · exact noDuplicates_checkCall line
  · split
    · exact noDuplicates_singleton rfl
    · split
      · exact noDuplicates_nil
      · exact noDuplicates_checkCall line

theorem noDuplicates_checkHere (s : Statement) : NoDuplicates (checkHere all o scope s) := by
  refine NoDuplicates.append ?_ ?_
  · refine (noDuplicates_flatMap fun t _ => noDuplicates_checkTarget all o scope _ t).append ?_
    exact noDuplicates_flatMap fun e _ => noDuplicates_flatMap fun r _ =>
      noDuplicates_checkReference all scope _ r
  · split
    · exact noDuplicates_checkPerform all o _ _ _ _
    · exact noDuplicates_unless rfl
    · exact noDuplicates_nil

theorem noDuplicates_checkBody (body : List Statement) :
    NoDuplicates (checkBody all o scope body) := by
  rw [checkBody_eq]
  exact noDuplicates_flatMap fun x _ => noDuplicates_checkHere all o x.1 x.2

end

theorem noDuplicates_checkBodies (all : Project) (p : Program) :
    NoDuplicates (checkBodies all p) := by
  have hactions : ∀ o actions, NoDuplicates (checkActions all o actions) := fun o actions =>
    noDuplicates_flatMap fun a _ => noDuplicates_checkBody all o a.parameters a.body
  refine NoDuplicates.append (NoDuplicates.append ?_ ?_) ?_
  · exact noDuplicates_flatMap fun _ _ => hactions _ _
  · exact noDuplicates_flatMap fun _ _ => hactions _ _
  · refine noDuplicates_flatMap fun f _ => ((noDuplicates_map fun _ => rfl).append ?_).append ?_
    · exact noDuplicates_flatMap fun h _ => noDuplicates_checkBody all _ [] h.body
    · exact noDuplicates_flatMap fun s _ => noDuplicates_checkBody all _ [] s.body

/-! ## Checks of definitions -/

/-- How often a name stands in a list behind other names, its first occurrence apart. -/
def laterOccurrences (before names : List String) (n : String) : Nat :=
  names.count n - if n ∈ before then 0 else 1

theorem laterOccurrences_cons (before names : List String) (m n : String) :
    laterOccurrences before (m :: names) n =
      (if m = n ∧ n ∈ before then 1 else 0) + laterOccurrences (before ++ [m]) names n := by
  unfold laterOccurrences
  by_cases hm : m = n
  · subst hm
    by_cases hb : m ∈ before <;> simp [hb, Nat.add_comm]
  · have hn : ¬n = m := fun h => hm h.symm
    simp [hm, hn]

section
variable (n : String)

theorem reportsOf_checkPages (before pages : List Page) :
    reportsOf n (checkPages before pages) =
      laterOccurrences (before.map (·.name)) (pages.map (·.name)) n := by
  induction pages generalizing before with
  | nil => simp [checkPages, laterOccurrences]
  | cons p rest ih =>
    have hp : reportsOf n ((findLast? (·.name == p.name) before).map
        (duplicatePage p ·.line)).toList = _ := reportsOf_findLast? fun _ => rfl
    rw [checkPages, reportsOf_append, reportsOf_append, hp,
      (noDuplicates_checkPage p).reportsOf_eq, ih, List.map_cons, laterOccurrences_cons,
      List.map_append]
    rfl

theorem reportsOf_checkLibraries (before libraries : List Library) :
    reportsOf n (checkLibraries before libraries) =
      laterOccurrences (before.map (·.name)) (libraries.map (·.name)) n := by
  induction libraries generalizing before with
  | nil => simp [checkLibraries, laterOccurrences]
  | cons l rest ih =>
    have hl : reportsOf n ((findLast? (·.name == l.name) before).map
        (duplicateLibrary l ·.line)).toList = _ := reportsOf_findLast? fun _ => rfl
    rw [checkLibraries, reportsOf_append, reportsOf_append, hl,
      noDuplicates_duplicateMembers.reportsOf_eq, ih, List.map_cons, laterOccurrences_cons,
      List.map_append]
    rfl

theorem reportsOf_checkPageLibraries (context : Project) (p : Program) :
    reportsOf n (checkPageLibraries context p) =
      if n ∉ p.libraries.map (·.name) ∧ n ∈ context.libraries.map (·.name)
      then (p.pages.map (·.name)).count n else 0 := by
  refine reportsOf_flatMap fun page _ => ?_
  have hany : p.libraries.any (·.name == page.name) = true ↔
      page.name ∈ p.libraries.map (·.name) := by simp
  have hlast : reportsOf n ((context.library? page.name).map
      (duplicatePage page ·.line)).toList = _ := reportsOf_findLast? fun _ => rfl
  by_cases hl : page.name ∈ p.libraries.map (·.name)
  · rw [if_pos (hany.2 hl), reportsOf_nil, if_neg]
    rintro ⟨rfl, hn, -⟩
    exact hn hl
  · rw [if_neg (mt hany.1 hl), hlast]
    refine if_congr (and_congr_right ?_) rfl rfl
    rintro rfl
    exact (and_iff_right hl).symm

theorem reportsOf_checkLibraryPages (all : Project) (libraries : List Library) :
    reportsOf n (libraries.flatMap (checkLibraryPages all)) =
      if n ∈ all.pages.map (·.name) then (libraries.map (·.name)).count n else 0 := by
  refine reportsOf_flatMap fun l _ => ?_
  have hlast : reportsOf n ((all.page? l.name).map (duplicateLibrary l ·.line)).toList = _ :=
    reportsOf_findLast? fun _ => rfl
  rw [checkLibraryPages, reportsOf_append, hlast, Nat.add_eq_left]
  refine NoDuplicates.reportsOf_eq ?_ n
  split
  · exact noDuplicates_nil
  · exact noDuplicates_unless rfl

theorem reportsOf_validate (context : Project) (p : Program) :
    reportsOf n (validate context p) =
      laterOccurrences (context.pages.map (·.name)) (p.pages.map (·.name)) n +
      (if n ∉ p.libraries.map (·.name) ∧ n ∈ context.libraries.map (·.name)
        then (p.pages.map (·.name)).count n else 0) +
      laterOccurrences (context.libraries.map (·.name)) (p.libraries.map (·.name)) n +
      if n ∈ (context.extend p).pages.map (·.name)
        then (p.libraries.map (·.name)).count n else 0 := by
  rw [validate, checkDeclarations, reportsOf_append, reportsOf_append, reportsOf_append,
    reportsOf_append, reportsOf_checkPages, reportsOf_checkPageLibraries,
    reportsOf_checkLibraries, reportsOf_checkLibraryPages,
    (noDuplicates_checkBodies _ p).reportsOf_eq, Nat.add_zero]

end

end Validation

/-! ## The number of reports -/

/-- How many definitions of a name in a program are not its first, which may be one of the
    project. -/
def extraDefinitions (context : Project) (p : Program) (n : String) : Nat :=
  p.definedNames.count n - if n ∈ context.definedNames then 0 else 1

/-- How many reports there are beyond the extra definitions of a name. They are about names of both
    a page and a library: the libraries that the program has of the name, or its pages if it has no
    such library, count twice, one apart unless the project has both kinds already. -/
def repeatedReports (context : Project) (p : Program) (n : String) : Nat :=
  let again := if n ∈ p.libraries.map (·.name) then (p.libraries.map (·.name)).count n
    else (p.pages.map (·.name)).count n
  if n ∈ (context.extend p).pages.map (·.name) ∧ n ∈ (context.extend p).libraries.map (·.name)
  then again - if n ∈ context.pages.map (·.name) ∧ n ∈ context.libraries.map (·.name) then 0 else 1
  else 0

theorem reportsOf_eq (context : Project) (p : Program) (n : String) :
    reportsOf n (validate context p) =
      extraDefinitions context p n + repeatedReports context p n := by
  rw [Validation.reportsOf_validate]
  simp only [extraDefinitions, repeatedReports, Validation.laterOccurrences, Program.definedNames,
    Project.definedNames, Project.extend, List.map_append, List.mem_append, List.count_append]
  have ha := List.count_pos_iff (a := n) (l := p.pages.map (·.name))
  have hl := List.count_pos_iff (a := n) (l := p.libraries.map (·.name))
  by_cases hn : n ∈ p.pages.map (·.name) <;> by_cases hm : n ∈ p.libraries.map (·.name) <;>
    simp only [hn, hm, iff_true, iff_false] at ha hl <;>
    by_cases hc : n ∈ context.pages.map (·.name) <;>
      by_cases hd : n ∈ context.libraries.map (·.name) <;>
        simp only [hn, hm, hc, hd, or_true, or_false, not_true, not_false_eq_true, and_true,
          and_false, if_true, if_false] <;> omega

/-- Every name that is reported is one that the program defines. -/
theorem mem_definedNames_of_duplicated? {context : Project} {p : Program} {x : Problem}
    {n : String} (hx : x ∈ validate context p) (hn : x.duplicated? = some n) :
    n ∈ p.definedNames := by
  have hpos : 0 < reportsOf n (validate context p) := List.countP_pos_iff.2 ⟨x, hx, by simp [hn]⟩
  by_contra hnot
  have hcount : p.definedNames.count n = 0 := List.count_eq_zero.2 hnot
  rw [Program.definedNames, List.mem_append, not_or] at hnot
  rw [reportsOf_eq, extraDefinitions, repeatedReports, hcount, if_neg hnot.2,
    List.count_eq_zero.2 hnot.1] at hpos
  simp at hpos

theorem countP_duplicateDefinition {names : Finset String} {xs : List Problem}
    (h : ∀ x ∈ xs, ∀ n, x.duplicated? = some n → n ∈ names) :
    xs.countP (·.code = .duplicateDefinition) = ∑ n ∈ names, reportsOf n xs := by
  induction xs with
  | nil => simp
  | cons x xs ih =>
    have hsum : (if x.code = .duplicateDefinition then 1 else 0) =
        ∑ n ∈ names, if x.duplicated? = some n then 1 else 0 := by
      cases hd : x.duplicated? with
      | none =>
        have hc : ¬x.code = .duplicateDefinition := by
          rw [Problem.code_eq_duplicateDefinition_iff, hd]
          simp
        simp [hc]
      | some m =>
        have hc := Problem.code_eq_duplicateDefinition_iff.2 ⟨m, hd⟩
        simp [hc, h x List.mem_cons_self m hd]
    have hcons : ∀ n, reportsOf n (x :: xs) =
        reportsOf n xs + if x.duplicated? = some n then 1 else 0 := by
      intro n
      simp [reportsOf, List.countP_cons]
    simp only [hcons, Finset.sum_add_distrib, ← ih fun y hy => h y (List.mem_cons_of_mem _ hy),
      ← hsum, List.countP_cons, decide_eq_true_eq]

/-- What it takes for a name to have as many reports as extra definitions: it is not that of a page
    and of a library at the same time; or the project does not have both, and the program has one
    library of the name, or no such library and one page. -/
def EvenlyReported (context : Project) (p : Program) (n : String) : Prop :=
  n ∈ (context.extend p).pages.map (·.name) → n ∈ (context.extend p).libraries.map (·.name) →
    ¬(n ∈ context.pages.map (·.name) ∧ n ∈ context.libraries.map (·.name)) ∧
    ((p.libraries.map (·.name)).count n = 1 ∨
      (p.libraries.map (·.name)).count n = 0 ∧ (p.pages.map (·.name)).count n = 1)

theorem repeatedReports_eq_zero_iff {context : Project} {p : Program} {n : String}
    (hn : n ∈ p.definedNames) : repeatedReports context p n = 0 ↔ EvenlyReported context p n := by
  have ha := List.count_pos_iff (a := n) (l := p.pages.map (·.name))
  have hl := List.count_pos_iff (a := n) (l := p.libraries.map (·.name))
  rw [Program.definedNames, List.mem_append, ← ha, ← hl] at hn
  unfold repeatedReports EvenlyReported
  dsimp only
  split_ifs <;> grind

/-- **Reports of names that are defined again.** For each name there are as many reports as the
    program has definitions of it that are not the first, and `repeatedReports` more. The sum over
    the names of the program is the number of all reports; it is that of the extra definitions
    exactly if every name is evenly reported, and never less. -/
theorem duplicateReports_eq (context : Project) (p : Program) :
    (∀ n, (Report.ofProblems (validate context p)).errors.countP (·.duplicated? == some n) =
      extraDefinitions context p n + repeatedReports context p n) ∧
    (Report.ofProblems (validate context p)).errors.countP (·.code = .duplicateDefinition) =
      ∑ n ∈ p.definedNames.toFinset,
        (extraDefinitions context p n + repeatedReports context p n) ∧
    ((Report.ofProblems (validate context p)).errors.countP (·.code = .duplicateDefinition) =
        ∑ n ∈ p.definedNames.toFinset, extraDefinitions context p n ↔
      ∀ n ∈ p.definedNames, EvenlyReported context p n) := by
  have herrors : ∀ {q : Problem → Bool}, (∀ x, q x = true → ∃ n, x.duplicated? = some n) →
      (Report.ofProblems (validate context p)).errors.countP q =
        (validate context p).countP q := by
    intro q hq
    rw [Report.ofProblems, List.countP_filter]
    refine List.countP_congr fun x _ => ?_
    rw [Bool.and_eq_true_iff, and_iff_left_iff_imp]
    intro hx
    obtain ⟨n, hn⟩ := hq x hx
    exact Problem.isError_of_duplicated? hn
  have hnames : ∀ n, (Report.ofProblems (validate context p)).errors.countP
      (·.duplicated? == some n) = extraDefinitions context p n + repeatedReports context p n := by
    intro n
    rw [herrors fun x hx => ⟨n, by simpa using hx⟩, ← reportsOf_eq]
    rfl
  have htotal : (Report.ofProblems (validate context p)).errors.countP
      (·.code = .duplicateDefinition) = ∑ n ∈ p.definedNames.toFinset,
        (extraDefinitions context p n + repeatedReports context p n) := by
    rw [herrors fun x hx => Problem.code_eq_duplicateDefinition_iff.1 (of_decide_eq_true hx),
      countP_duplicateDefinition fun x hx n hn =>
        List.mem_toFinset.2 (mem_definedNames_of_duplicated? hx hn)]
    exact Finset.sum_congr rfl fun n _ => reportsOf_eq context p n
  refine ⟨hnames, htotal, ?_⟩
  rw [htotal, Finset.sum_add_distrib, Nat.add_eq_left, Finset.sum_eq_zero_iff]
  simp only [List.mem_toFinset]
  exact forall₂_congr fun n hn => repeatedReports_eq_zero_iff hn

end UiScenario
