import Mathlib.Data.List.Basic
import UiScenario.Proofs.DataImport
import UiScenario.Proofs.Needed

/-!
One script, or many. The pages and libraries of a project can stand in the script that is compiled
or in scripts beside it. All names mean the same in both cases, so the tests do not change; a script
has the objects of all its own definitions and only the needed ones of the project, so objects can
be fewer.
-/

namespace UiScenario

/-- The program with the pages and libraries of a project in front of its own. -/
def Project.joinedTo (context : Project) (p : Program) : Program where
  pages := context.pages ++ p.pages
  libraries := context.libraries ++ p.libraries
  features := p.features

/-! ## Texts of files -/

namespace Code

/-- Lines as a text. -/
def linesText (lines : List String) : String :=
  String.join (lines.map (· ++ "\n"))

def File.objectTexts (f : File) : List String :=
  f.fixtures.map fun x => linesText x.lines

def File.suiteTexts (f : File) : List String :=
  f.suites.map fun x => linesText x.lines

theorem linesText_append (xs ys : List String) :
    linesText (xs ++ ys) = linesText xs ++ linesText ys := by
  rw [linesText, List.map_append, String.join_append]
  rfl

theorem linesText_flatMap {α : Type} (lines : α → List String) (xs : List α) :
    linesText (xs.flatMap lines) = String.join (xs.map fun x => linesText (lines x)) := by
  induction xs with
  | nil => rfl
  | cons x xs ih => rw [List.flatMap_cons, linesText_append, ih, List.map_cons, String.join_cons]

/-- A file is its first lines, the texts of its objects and the texts of its suites. -/
theorem File.text_eq (f : File) :
    f.text = linesText f.header ++ String.join f.objectTexts ++ String.join f.suiteTexts := by
  show linesText (f.header ++ f.fixtures.flatMap Fixture.lines ++ f.suites.flatMap Suite.lines) = _
  rw [linesText_append, linesText_append, linesText_flatMap, linesText_flatMap]
  rfl

end Code

namespace Generate

/-! ## What is needed -/

section
variable {all : Project} {p q : Program}

theorem Reached.mono {names names' : List String} (h : ∀ n ∈ names, n ∈ names') {n : String}
    (hn : Reached all names n) : Reached all names' n := by
  induction hn with
  | given hn => exact .given (h _ hn)
  | mentioned _ hn ih => exact .mentioned ih hn

theorem neededNames_mono (h : ∀ n ∈ programReferences p, n ∈ programReferences q) {n : String}
    (hn : n ∈ neededNames all p) : n ∈ neededNames all q :=
  mem_reachable_iff.2 ((mem_reachable_iff.1 hn).mono h)

theorem contains_neededNames_mono (h : ∀ n ∈ programReferences p, n ∈ programReferences q)
    (n : String) (hn : (neededNames all p).contains n = true) :
    (neededNames all q).contains n = true := by
  rw [List.contains_iff_mem] at hn ⊢
  exact neededNames_mono h hn

theorem neededPages_sublist (h : ∀ n ∈ programReferences p, n ∈ programReferences q) :
    (neededPages all p).Sublist (neededPages all q) :=
  (List.monotone_filter_right _ (contains_neededNames_mono h)).filterMap _

theorem neededLibraries_sublist (h : ∀ n ∈ programReferences p, n ∈ programReferences q) :
    (neededLibraries all p).Sublist (neededLibraries all q) :=
  (List.monotone_filter_right _ (contains_neededNames_mono h)).filterMap _

end

theorem exists_sublist_of_mapM {ε α β : Type} {f : α → Except ε β} {xs xs' : List α} {ys : List β}
    (hs : xs'.Sublist xs) (h : xs.mapM f = .ok ys) :
    ∃ ys' : List β, xs'.mapM f = .ok ys' ∧ ys'.Sublist ys := by
  have hmap : (xs'.map f).Sublist (ys.map .ok) := mapM_eq_ok.1 h ▸ hs.map f
  obtain ⟨ys', hys, heq⟩ := List.sublist_map_iff.1 hmap
  exact ⟨ys', mapM_eq_ok.2 heq, hys⟩

/-- A joined program has and mentions all that the program does. -/
theorem mem_programReferences_joinedTo {context : Project} {p : Program} {n : String}
    (h : n ∈ programReferences p) : n ∈ programReferences (context.joinedTo p) := by
  simp only [programReferences, Project.joinedTo, List.map_append, List.mem_append] at h ⊢
  rcases h with (h | h) | h
  · exact Or.inl (Or.inl (Or.inr h))
  · exact Or.inl (Or.inr (Or.inr h))
  · exact Or.inr h

/-- The joined program defines what the program and the project define together. -/
theorem extend_joinedTo (context : Project) (p : Program) :
    Project.empty.extend (context.joinedTo p) = context.extend p :=
  rfl

end Generate

/-! ## The same tests -/

open Generate

/-- Files with the same tests, where the second may have fewer objects. -/
structure SameTests (whole part : Generated) : Prop where
  cases : part.cases = whole.cases
  total : part.total = whole.total
  selected : part.selected = whole.selected
  /-- The texts are cut into first lines, objects and suites. -/
  whole_code : whole.code = Code.linesText whole.file.header ++
    String.join whole.file.objectTexts ++ String.join whole.file.suiteTexts
  part_code : part.code = Code.linesText part.file.header ++
    String.join part.file.objectTexts ++ String.join part.file.suiteTexts
  suites : part.file.suiteTexts = whole.file.suiteTexts
  objects : part.file.objectTexts.Sublist whole.file.objectTexts

/-- **Splitting a script**: if code is generated for the program that has everything in one script,
    then code is generated for the program alone in its project. The tests are the same, and the
    objects are some of those of the one script, in their order. -/
theorem sameTests_of_joined (context : Project) (request : Request) (p : Program)
    (whole : Generated) (h : generate .empty request (context.joinedTo p) = .ok whole) :
    ∃ part, generate context request p = .ok part ∧ SameTests whole part := by
  obtain ⟨pages, libraries, suites, hpages, hlibraries, hsuites, hfixtures, hfile, hcases⟩ :=
    generate_cases h
  rw [extend_joinedTo] at hpages hlibraries hsuites
  -- the objects of the program are among those of the joined program
  obtain ⟨pages', hpages', hp⟩ := exists_sublist_of_mapM
    ((neededPages_sublist fun n => mem_programReferences_joinedTo).filter hasObject) hpages
  obtain ⟨libraries', hlibraries', hl⟩ := exists_sublist_of_mapM
    (neededLibraries_sublist fun n => mem_programReferences_joinedTo) hlibraries
  obtain ⟨part, hpart⟩ : ∃ part, generate context request p = .ok part :=
    ⟨_, bind_eq_ok.2 ⟨_, hpages', bind_eq_ok.2 ⟨_, hlibraries', bind_eq_ok.2 ⟨_, hsuites, rfl⟩⟩⟩⟩
  obtain ⟨_, _, _, hpages₂, hlibraries₂, hsuites₂, hfixtures', hfile', hcases'⟩ :=
    generate_cases hpart
  cases hpages'.symm.trans hpages₂
  cases hlibraries'.symm.trans hlibraries₂
  cases hsuites.symm.trans hsuites₂
  obtain ⟨-, htotal, hselected⟩ := generate_account h
  obtain ⟨-, htotal', hselected'⟩ := generate_account hpart
  have hobjects : part.file.fixtures.Sublist whole.file.fixtures := by
    rw [hfixtures, hfixtures']
    exact hp.append hl
  refine ⟨part, hpart, ?_, ?_, ?_, whole.file.text_eq, part.file.text_eq, ?_, hobjects.map _⟩
  · rw [hcases, hcases']
  · rw [htotal, htotal']
    rfl
  · rw [hselected, hselected']
    rfl
  · rw [Code.File.suiteTexts, hfile', ← hfile, Code.File.suiteTexts]

/-- A project with a page that is used and a library that is not. -/
def shopProject : Project :=
  parseProject ["PAGE Cart (\"/cart\") \x7b FIELD total = \"#total\" \x7d
    PAGEACTIONS Refunds \x7b ask \x7b LOAD orders FROM Orders \x7d \x7d"]

/-- A program that uses a page of the project. -/
def shopProgram : Program :=
  (parseText "FEATURE Shop \x7b USE Cart
    SCENARIO \"pays\" \x7b VERIFY Cart.total IS VISIBLE \x7d \x7d").program

-- the library is left out, and with it the import of data
theorem sameTests_of_joined_shop : ∃ whole part,
    generate .empty ⟨none, []⟩ (shopProject.joinedTo shopProgram) = .ok whole ∧
    generate shopProject ⟨none, []⟩ shopProgram = .ok part ∧ SameTests whole part ∧
    whole.file.fixtures.map (·.name) = ["Cart", "Refunds"] ∧
    part.file.fixtures.map (·.name) = ["Cart"] ∧ part.cases.map (·.name) = ["pays"] := by
  have hrun : (generate .empty ⟨none, []⟩ (shopProject.joinedTo shopProgram)).toOption.any
        (fun g => g.file.fixtures.map (·.name) == ["Cart", "Refunds"]) = true ∧
      (generate shopProject ⟨none, []⟩ shopProgram).toOption.any (fun g =>
        g.file.fixtures.map (·.name) == ["Cart"] && g.cases.map (·.name) == ["pays"]) = true := by
    decide +kernel
  obtain ⟨whole, hw, hwhole⟩ := (Option.any_eq_true _ _).1 hrun.1
  obtain ⟨part, hp, hpart⟩ := (Option.any_eq_true _ _).1 hrun.2
  have hok := toOption_eq_some.1 hw
  obtain ⟨_, hp', hsame⟩ := sameTests_of_joined shopProject ⟨none, []⟩ shopProgram whole hok
  cases (toOption_eq_some.1 hp).symm.trans hp'
  simp only [Bool.and_eq_true, beq_iff_eq] at hwhole hpart
  exact ⟨whole, part, hok, hp', hsame, hwhole, hpart.1, hpart.2⟩

end UiScenario
