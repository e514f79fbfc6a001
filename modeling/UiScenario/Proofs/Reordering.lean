import Mathlib.Data.List.Nodup
import Mathlib.Data.List.Perm.Basic
import UiScenario.Grammar.Program
import UiScenario.Proofs.WellFormed

/-!
The order of declarations. A name means its last definition, candidates for a mistyped name are
sorted, and every body is checked on its own; so where definitions do not compete for a name their
order does not matter to the checks.
-/

namespace UiScenario

/-! ## Programs in another order -/

/-- The same feature with its scenarios in another order. -/
structure Feature.Reordered (f g : Feature) : Prop where
  rest : { f with scenarios := g.scenarios } = g
  scenarios : f.scenarios.Perm g.scenarios

/-- The same declarations in another order. -/
structure Program.Reordered (p q : Program) : Prop where
  pages : p.pages.Perm q.pages
  libraries : p.libraries.Perm q.libraries
  features : ∃ fs, List.Forall₂ Feature.Reordered p.features fs ∧ fs.Perm q.features

theorem Feature.Reordered.symm {f g : Feature} (h : f.Reordered g) : g.Reordered f where
  rest := by rw [← h.rest]
  scenarios := h.scenarios.symm

theorem Program.Reordered.symm {p q : Program} (h : p.Reordered q) : q.Reordered p where
  pages := h.pages.symm
  libraries := h.libraries.symm
  features := by
    obtain ⟨fs, hfs, hperm⟩ := h.features
    have hflip : List.Forall₂ Feature.Reordered fs p.features :=
      hfs.flip.imp fun _ _ h => h.symm
    obtain ⟨gs, hgs, hrest⟩ := List.perm_comp_forall₂ hperm.symm hflip
    exact ⟨gs, hgs, hrest⟩

/-! ## Looking names up -/

section
variable {α : Type} {name : α → String} {xs ys : List α} {n : String}

theorem findLast?_append {p : α → Bool} :
    findLast? p (xs ++ ys) = (findLast? p ys).or (findLast? p xs) := by
  rw [findLast?, List.reverse_append, List.find?_append]
  rfl

/-- Of elements with distinct names, the last with a name is the one with this name. -/
theorem findLast?_eq_some_iff_mem (hn : (xs.map name).Nodup) {x : α} :
    findLast? (name · == n) xs = some x ↔ x ∈ xs ∧ name x = n := by
  rw [findLast?_name_eq_some_iff]
  constructor
  · rintro ⟨front, behind, rfl, hx, -⟩
    exact ⟨by simp, hx⟩
  · rintro ⟨hmem, hx⟩
    obtain ⟨front, behind, rfl⟩ := List.append_of_mem hmem
    refine ⟨front, behind, rfl, hx, ?_⟩
    intro y hy hyn
    rw [List.map_append, List.map_cons] at hn
    have hnot := (List.nodup_cons.1 hn.of_append_right).1
    exact hnot (List.mem_map.2 ⟨y, hy, hyn.trans hx.symm⟩)

theorem findLast?_perm (h : xs.Perm ys) (hn : (xs.map name).Nodup) (n : String) :
    findLast? (name · == n) xs = findLast? (name · == n) ys := by
  have hn' : (ys.map name).Nodup := (h.map name).nodup_iff.1 hn
  ext x
  rw [findLast?_eq_some_iff_mem hn, findLast?_eq_some_iff_mem hn', h.mem_iff]

end

namespace Validation

theorem nodup_eraseDups : ∀ names : List String, names.eraseDups.Nodup
  | [] => by simp
  | n :: rest => by
    have hrest := nodup_eraseDups (rest.filter fun b => !b == n)
    rw [List.eraseDups_cons, List.nodup_cons]
    exact ⟨by simp [List.mem_eraseDups], hrest⟩
termination_by names => names.length
decreasing_by exact Nat.lt_succ_of_le (List.length_filter_le _ _)

theorem sortedNames_congr {xs ys : List String} (h : ∀ n, n ∈ xs ↔ n ∈ ys) :
    sortedNames xs = sortedNames ys := by
  have hperm : xs.eraseDups.Perm ys.eraseDups := by
    rw [List.perm_ext_iff_of_nodup (nodup_eraseDups xs) (nodup_eraseDups ys)]
    intro n
    rw [List.mem_eraseDups, List.mem_eraseDups, h]
  have hsorted : ∀ names : List String,
      (names.mergeSort fun a b => decide (a ≤ b)).Pairwise fun a b => decide (a ≤ b) = true := by
    refine List.pairwise_mergeSort ?_ ?_
    · intro a b c hab hbc
      exact decide_eq_true (String.le_trans (of_decide_eq_true hab) (of_decide_eq_true hbc))
    · intro a b
      rcases String.le_total a b with h | h <;> simp [h]
  refine List.Perm.eq_of_pairwise ?_ (hsorted _) (hsorted _) ?_
  · intro a b _ _ hab hba
    exact String.le_antisymm (of_decide_eq_true hab) (of_decide_eq_true hba)
  · exact (List.mergeSort_perm _ _).trans (hperm.trans (List.mergeSort_perm _ _).symm)

/-- Projects in which every name means the same. -/
structure SameMeaning (d e : Project) : Prop where
  page? : ∀ n, d.page? n = e.page? n
  library? : ∀ n, d.library? n = e.library? n
  pageNames : pageNames d = pageNames e
  libraryNames : libraryNames d = libraryNames e

/-- Names mean the same when definitions with distinct names change their order. -/
theorem sameMeaning_extend {context : Project} {p q : Program} (h : p.Reordered q)
    (hp : (p.pages.map (·.name)).Nodup) (hl : (p.libraries.map (·.name)).Nodup) :
    SameMeaning (context.extend p) (context.extend q) where
  page? n := by
    simp only [Project.page?, Project.extend, findLast?_append, findLast?_perm h.pages hp]
  library? n := by
    simp only [Project.library?, Project.extend, findLast?_append, findLast?_perm h.libraries hl]
  pageNames := by
    refine sortedNames_congr fun n => ?_
    simp only [Project.extend, List.map_append, List.mem_append, (h.pages.map (·.name)).mem_iff]
  libraryNames := by
    refine sortedNames_congr fun n => ?_
    simp only [Project.extend, List.map_append, List.mem_append,
      (h.libraries.map (·.name)).mem_iff]

/-! ## Statements -/

section
variable {d e : Project} (h : SameMeaning d e) {o : Owner} {scope : List String}
include h

theorem reaches_congr (page : String) : o.reaches d page = o.reaches e page := by
  simp only [Owner.reaches, Project.hasPage, h.page?]

theorem unreachable_congr (page : String) (line : Nat) :
    o.unreachable d page line = o.unreachable e page line := by
  simp only [Owner.unreachable, Owner.reachable, h.pageNames]

theorem checkTarget_congr : checkTarget d o scope = checkTarget e o scope := by
  funext line t
  unfold checkTarget
  simp only [reaches_congr h, unreachable_congr h, h.page?]

theorem checkReference_congr : checkReference d scope = checkReference e scope := by
  funext line r
  unfold checkReference
  simp only [h.page?]

theorem checkPerform_congr (line : Nat) (page action : String) (count : Nat) :
    checkPerform d o line page action count = checkPerform e o line page action count := by
  unfold checkPerform
  simp only [h.library?, reaches_congr h, unreachable_congr h, h.page?]

theorem checkHere_congr (s : Statement) : checkHere d o scope s = checkHere e o scope s := by
  simp only [checkHere, checkNames, checkTarget_congr h, checkReference_congr h,
    checkPerform_congr h]

theorem checkBody_congr (body : List Statement) :
    checkBody d o scope body = checkBody e o scope body := by
  rw [checkBody_eq, checkBody_eq]
  simp only [checkHere_congr h]

theorem checkActions_congr (actions : List Action) :
    checkActions d o actions = checkActions e o actions := by
  simp only [checkActions, checkBody_congr h]

theorem checkFeature_congr (f : Feature) : checkFeature d f = checkFeature e f := by
  simp only [checkFeature, checkUses, Project.hasPage, Project.hasLibrary, h.page?, h.library?,
    h.pageNames, h.libraryNames, checkBody_congr h]

theorem checkLibraryPages_congr (l : Library) : checkLibraryPages d l = checkLibraryPages e l := by
  have hpage : ∀ page, d.hasPage page = e.hasPage page := fun page => by
    rw [Project.hasPage, h.page?, Project.hasPage]
  rw [checkLibraryPages, checkLibraryPages, h.page?, h.pageNames]
  cases l.forPage with
  | none => rfl
  | some page =>
    dsimp only
    rw [hpage]

end

/-! ## Declarations -/

/-- Pages with distinct names can clash only with the pages in front of all of them. -/
theorem checkPages_eq_flatMap {before pages : List Page} (hn : (pages.map (·.name)).Nodup) :
    checkPages before pages = pages.flatMap fun p =>
      ((findLast? (·.name == p.name) before).map (duplicatePage p ·.line)).toList ++
        checkPage p := by
  induction pages generalizing before with
  | nil => rfl
  | cons p rest ih =>
    obtain ⟨hp, hrest⟩ := List.nodup_cons.1 hn
    have hsame : ∀ q ∈ rest, findLast? (·.name == q.name) (before ++ [p]) =
        findLast? (·.name == q.name) before := by
      intro q hq
      have hne : p.name ≠ q.name := fun h => hp (List.mem_map.2 ⟨q, hq, h.symm⟩)
      rw [findLast?_append]
      simp [findLast?, hne]
    rw [checkPages, ih hrest, List.flatMap_cons]
    congr 1
    exact List.flatMap_congr fun q hq => by rw [hsame q hq]

theorem checkLibraries_eq_flatMap {before libraries : List Library}
    (hn : (libraries.map (·.name)).Nodup) :
    checkLibraries before libraries = libraries.flatMap fun l =>
      ((findLast? (·.name == l.name) before).map (duplicateLibrary l ·.line)).toList ++
        duplicateMembers "action" l.name (actionNames l.actions) := by
  induction libraries generalizing before with
  | nil => rfl
  | cons l rest ih =>
    obtain ⟨hl, hrest⟩ := List.nodup_cons.1 hn
    have hsame : ∀ m ∈ rest, findLast? (·.name == m.name) (before ++ [l]) =
        findLast? (·.name == m.name) before := by
      intro m hm
      have hne : l.name ≠ m.name := fun h => hl (List.mem_map.2 ⟨m, hm, h.symm⟩)
      rw [findLast?_append]
      simp [findLast?, hne]
    rw [checkLibraries, ih hrest, List.flatMap_cons]
    congr 1
    exact List.flatMap_congr fun m hm => by rw [hsame m hm]

section
variable {context : Project} {p q : Program} (h : p.Reordered q)
  (hp : (p.pages.map (·.name)).Nodup) (hl : (p.libraries.map (·.name)).Nodup)
include h

theorem checkPageLibraries_perm :
    (checkPageLibraries context p).Perm (checkPageLibraries context q) := by
  have hany : ∀ page : Page, p.libraries.any (·.name == page.name) =
      q.libraries.any (·.name == page.name) := fun page => h.libraries.any_eq
  simp only [checkPageLibraries, hany]
  exact h.pages.flatMap_right _

include hp hl

theorem checkDeclarations_perm :
    (checkDeclarations context p).Perm (checkDeclarations context q) := by
  have hp' := (h.pages.map (·.name)).nodup_iff.1 hp
  have hl' := (h.libraries.map (·.name)).nodup_iff.1 hl
  have hpages : (checkPages context.pages p.pages).Perm (checkPages context.pages q.pages) := by
    rw [checkPages_eq_flatMap hp, checkPages_eq_flatMap hp']
    exact h.pages.flatMap_right _
  have hlibraries : (checkLibraries context.libraries p.libraries).Perm
      (checkLibraries context.libraries q.libraries) := by
    rw [checkLibraries_eq_flatMap hl, checkLibraries_eq_flatMap hl']
    exact h.libraries.flatMap_right _
  have hfor : (p.libraries.flatMap (checkLibraryPages (context.extend p))).Perm
      (q.libraries.flatMap (checkLibraryPages (context.extend q))) :=
    h.libraries.flatMap fun l _ => by
      rw [checkLibraryPages_congr (sameMeaning_extend h hp hl)]
  exact ((hpages.append (checkPageLibraries_perm h)).append hlibraries).append hfor

/-! ## Programs -/

omit h hp hl in
theorem checkFeature_perm {all : Project} {f g : Feature} (hfg : f.Reordered g) :
    (checkFeature all f).Perm (checkFeature all g) := by
  rw [← hfg.rest]
  exact (hfg.scenarios.flatMap_right _).append_left _

omit h hp hl in
theorem flatMap_checkFeature_perm {all : Project} {fs gs : List Feature}
    (hfg : List.Forall₂ Feature.Reordered fs gs) :
    (fs.flatMap (checkFeature all)).Perm (gs.flatMap (checkFeature all)) := by
  induction hfg with
  | nil => exact .nil
  | cons hf _ ih =>
    rw [List.flatMap_cons, List.flatMap_cons]
    exact (checkFeature_perm hf).append ih

theorem checkBodies_perm :
    (checkBodies (context.extend p) p).Perm (checkBodies (context.extend q) q) := by
  have hsame : SameMeaning (context.extend p) (context.extend q) := sameMeaning_extend h hp hl
  have hpages := h.pages.flatMap fun (page : Page) _ =>
    List.Perm.of_eq (checkActions_congr hsame (o := ⟨page.name, none, some page.name⟩) page.actions)
  have hlibraries := h.libraries.flatMap fun (l : Library) _ =>
    List.Perm.of_eq (checkActions_congr hsame (o := ⟨l.name, none, l.forPage⟩) l.actions)
  have hfeatures : (p.features.flatMap (checkFeature (context.extend p))).Perm
      (q.features.flatMap (checkFeature (context.extend q))) := by
    obtain ⟨fs, hfs, hperm⟩ := h.features
    refine (flatMap_checkFeature_perm hfs).trans (hperm.flatMap fun f _ => ?_)
    rw [checkFeature_congr hsame]
  exact (hpages.append hlibraries).append hfeatures

/-- Where no two pages and no two libraries of a program have one name, the findings are the same in
    another order. -/
theorem validate_perm : (validate context p).Perm (validate context q) :=
  (checkDeclarations_perm h hp hl).append (checkBodies_perm h hp hl)

end

theorem nodup_of_unique {context : Project} {p : Program}
    (h : ∀ n ∈ p.pages.map (·.name) ++ p.libraries.map (·.name),
      (context.extend p).definedNames.count n = 1) :
    (p.pages.map (·.name)).Nodup ∧ (p.libraries.map (·.name)).Nodup := by
  simp only [count_definedNames_extend] at h
  have hnodup := ((forall_count_eq_one_iff _ _).1 h).1
  exact ⟨hnodup.of_append_left, hnodup.of_append_right⟩

/-- A program is valid in any order of its declarations: a valid one has no competing
    definitions. -/
theorem valid_of_reordered {context : Project} {p q : Program} (h : p.Reordered q)
    (hv : (Report.ofProblems (validate context p)).valid = true) :
    (Report.ofProblems (validate context q)).valid = true := by
  have hw : WellFormed context p := noErrors_validate.1 (valid_iff_noErrors.1 hv)
  obtain ⟨hp, hl⟩ := nodup_of_unique hw.unique
  rw [valid_iff_noErrors] at hv ⊢
  intro x hx
  exact hv x ((validate_perm h hp hl).mem_iff.2 hx)

end Validation

open Validation in
/-- **The order of declarations**: it does not decide whether a program is valid. Where every page
    and library of the program is the only definition of its name, the errors are the same, and so
    are the warnings; the text of a finding and what it suggests are part of it. -/
theorem validate_of_reordered (context : Project) (p q : Program) (h : p.Reordered q) :
    (Report.ofProblems (validate context p)).valid =
      (Report.ofProblems (validate context q)).valid ∧
    ((∀ n ∈ p.pages.map (·.name) ++ p.libraries.map (·.name),
        (context.extend p).definedNames.count n = 1) →
      (Report.ofProblems (validate context p)).errors.Perm
        (Report.ofProblems (validate context q)).errors ∧
      (Report.ofProblems (validate context p)).warnings.Perm
        (Report.ofProblems (validate context q)).warnings) := by
  constructor
  · rw [Bool.eq_iff_iff]
    exact ⟨valid_of_reordered h, valid_of_reordered h.symm⟩
  · intro hu
    obtain ⟨hp, hl⟩ := nodup_of_unique hu
    have hperm : (validate context p).Perm (validate context q) := validate_perm h hp hl
    exact ⟨hperm.filter _, hperm.filter _⟩

/-- The declarations of a program from back to front. -/
def Program.backwards (p : Program) : Program where
  pages := p.pages.reverse
  libraries := p.libraries.reverse
  features := (p.features.map fun f => { f with scenarios := f.scenarios.reverse }).reverse

theorem Program.reordered_backwards (p : Program) : p.Reordered p.backwards where
  pages := (List.reverse_perm _).symm
  libraries := (List.reverse_perm _).symm
  features := by
    refine ⟨_, ?_, (List.reverse_perm _).symm⟩
    rw [List.forall₂_map_right_iff, List.forall₂_same]
    exact fun f _ => ⟨rfl, (List.reverse_perm _).symm⟩

/-- A program with a mistyped name, and an element that a page does not have. -/
def mistypedProgram : Program :=
  (parseText "PAGE Home \x7b FIELD menu = \"#menu\" \x7d
    PAGE Cart \x7b FIELD total = \"#total\" \x7d
    FEATURE Shop \x7b USE Hme, Cart
      SCENARIO \"opens\" \x7b CLICK Home.menu \x7d
      SCENARIO \"pays\" \x7b CLICK Cart.totl \x7d \x7d").program

-- both orders have two errors and a warning, the same ones
theorem validate_of_reordered_mistyped :
    mistypedProgram.Reordered mistypedProgram.backwards ∧
    (∀ n ∈ mistypedProgram.pages.map (·.name) ++ mistypedProgram.libraries.map (·.name),
      (Project.empty.extend mistypedProgram).definedNames.count n = 1) ∧
    (Report.ofProblems (validate .empty mistypedProgram)).errors.map (·.code) =
      [.unresolvedUse, .pageNotUsed] ∧
    (Report.ofProblems (validate .empty mistypedProgram)).warnings.map (·.code) =
      [.unknownField] ∧
    (Report.ofProblems (validate .empty mistypedProgram.backwards)).valid = false ∧
    (Report.ofProblems (validate .empty mistypedProgram)).errors.Perm
      (Report.ofProblems (validate .empty mistypedProgram.backwards)).errors ∧
    (Report.ofProblems (validate .empty mistypedProgram)).warnings.Perm
      (Report.ofProblems (validate .empty mistypedProgram.backwards)).warnings := by
  have hfound : (∀ n ∈ mistypedProgram.pages.map (·.name) ++
        mistypedProgram.libraries.map (·.name),
      (Project.empty.extend mistypedProgram).definedNames.count n = 1) ∧
      (Report.ofProblems (validate .empty mistypedProgram)).errors.map (·.code) =
        [.unresolvedUse, .pageNotUsed] ∧
      (Report.ofProblems (validate .empty mistypedProgram)).warnings.map (·.code) =
        [.unknownField] ∧
      (Report.ofProblems (validate .empty mistypedProgram)).valid = false := by
    decide +kernel
  obtain ⟨hu, herrors, hwarnings, hv⟩ := hfound
  obtain ⟨hvalid, hsame⟩ := validate_of_reordered .empty mistypedProgram mistypedProgram.backwards
    (Program.reordered_backwards _)
  exact ⟨Program.reordered_backwards _, hu, herrors, hwarnings, hvalid ▸ hv, hsame hu⟩

end UiScenario
