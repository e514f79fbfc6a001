import UiScenario.Proofs.Contract
import UiScenario.Proofs.CodeReads

/-!
Which objects a test file has. A definition mentions names, and what a program needs is all that can
be reached in this way from what it has and mentions itself.
-/

namespace UiScenario.Generate

/-! ## Reachable names -/

/-- The names that can be reached: those given, and those that the definitions of such names
    mention. -/
inductive Reached (all : Project) (names : List String) : String → Prop
  | given {n : String} (h : n ∈ names) : Reached all names n
  | mentioned {m n : String} (hm : Reached all names m) (h : n ∈ successors all m) :
      Reached all names n

/-- Names with everything that their definitions mention. -/
def Closed (all : Project) (names : List String) : Prop :=
  ∀ m ∈ names, ∀ n ∈ successors all m, n ∈ names

section
variable {all : Project} {names : List String} {n : String}

theorem mem_grow :
    n ∈ grow all names ↔ n ∈ names ∨ ∃ m ∈ names, n ∈ successors all m := by
  simp [grow, List.mem_eraseDups]

theorem Reached.of_grow (h : Reached all (grow all names) n) : Reached all names n := by
  induction h with
  | given h =>
    rcases mem_grow.1 h with h | ⟨m, hm, h⟩
    · exact .given h
    · exact .mentioned (.given hm) h
  | mentioned _ h ih => exact .mentioned ih h

theorem reached_of_mem_growTimes {rounds : Nat} (h : n ∈ growTimes all rounds names) :
    Reached all names n := by
  induction rounds generalizing names with
  | zero => exact .given h
  | succ rounds ih => exact (ih h).of_grow

theorem mem_growTimes_of_mem (rounds : Nat) (h : n ∈ names) : n ∈ growTimes all rounds names := by
  induction rounds generalizing names with
  | zero => exact h
  | succ rounds ih => exact ih (mem_grow.2 (Or.inl h))

theorem Closed.growTimes (h : Closed all names) (rounds : Nat) :
    Closed all (growTimes all rounds names) := by
  induction rounds generalizing names with
  | zero => exact h
  | succ rounds ih =>
    refine ih ?_
    intro m hm n hn
    rcases mem_grow.1 hm with hm | ⟨k, hk, hm⟩
    · exact mem_grow.2 (Or.inr ⟨m, hm, hn⟩)
    · exact mem_grow.2 (Or.inr ⟨m, h k hk m hm, hn⟩)

theorem mem_definedNames_of_page? {page : Page} (h : all.page? n = some page) :
    n ∈ all.definedNames := by
  refine List.mem_append_left _ ?_
  rw [← findLast?_name_isSome_iff, Option.isSome_iff_exists]
  exact ⟨page, h⟩

theorem mem_definedNames_of_library? {l : Library} (h : all.library? n = some l) :
    n ∈ all.definedNames := by
  refine List.mem_append_right _ ?_
  rw [← findLast?_name_isSome_iff, Option.isSome_iff_exists]
  exact ⟨l, h⟩

/-- Only a name with a definition brings others with it. -/
theorem mem_definedNames_of_mem_successors {m : String} (h : n ∈ successors all m) :
    m ∈ all.definedNames := by
  rcases List.mem_append.1 h with h | h
  · cases hp : all.page? m with
    | none => rw [hp] at h; cases h
    | some page => exact mem_definedNames_of_page? hp
  · cases hl : all.library? m with
    | none => rw [hl] at h; cases h
    | some l => exact mem_definedNames_of_library? hl

/-- Each round finds a further name with a definition, or it is the last that finds any name. -/
theorem closed_growTimes_succ {rounds : Nat}
    (h : (all.definedNames.filter (· ∉ names)).length ≤ rounds) :
    Closed all (growTimes all (rounds + 1) names) := by
  induction rounds generalizing names with
  | zero =>
    have hall : ∀ m ∈ all.definedNames, m ∈ names := by
      simpa [List.filter_eq_nil_iff] using List.length_eq_zero_iff.1 (Nat.le_zero.1 h)
    intro m hm n hn
    exact mem_grow.2 (Or.inr ⟨m, hall m (mem_definedNames_of_mem_successors hn), hn⟩)
  | succ rounds ih =>
    by_cases hnew : ∃ m ∈ all.definedNames, m ∈ grow all names ∧ m ∉ names
    · obtain ⟨m, hd, hm, hnot⟩ := hnew
      have hsplit : all.definedNames.filter (· ∉ grow all names) =
          (all.definedNames.filter (· ∉ names)).filter (· ∉ grow all names) := by
        rw [List.filter_filter]
        refine List.filter_congr fun x _ => ?_
        by_cases hx : x ∈ names
        · simp [hx, mem_grow]
        · simp [hx]
      have hlt : (all.definedNames.filter (· ∉ grow all names)).length <
          (all.definedNames.filter (· ∉ names)).length := by
        rw [hsplit, List.length_filter_lt_length_iff_exists]
        exact ⟨m, List.mem_filter.2 ⟨hd, by simpa using hnot⟩, by simpa using hm⟩
      exact ih (by omega)
    · -- all that is defined was there before this round, so no further round adds a name
      refine Closed.growTimes ?_ (rounds + 1)
      intro m hm n hn
      have hd := mem_definedNames_of_mem_successors hn
      have hold : m ∈ names :=
        Classical.byContradiction fun hnot => hnew ⟨m, hd, hm, hnot⟩
      exact mem_grow.2 (Or.inr ⟨m, hold, hn⟩)

theorem mem_reachable_iff : n ∈ reachable all names ↔ Reached all names n := by
  constructor
  · exact reached_of_mem_growTimes
  · have hclosed : Closed all (reachable all names) := by
      refine closed_growTimes_succ ?_
      have hle := List.length_filter_le (· ∉ names) all.definedNames
      simp only [Project.definedNames, List.length_append, List.length_map] at hle
      exact hle
    intro h
    induction h with
    | given h => exact mem_growTimes_of_mem _ h
    | mentioned _ h ih => exact hclosed _ ih _ h

end

/-! ## Objects -/

/-- The objects for a name are written in a file: those of the last library and of the last page
    with this name. -/
structure Defined (all : Project) (file : Code.File) (n : String) : Prop where
  library : ∀ l, all.library? n = some l → ∃ x ∈ file.fixtures, libraryFixture all l = .ok x
  page : ∀ page, all.page? n = some page → hasObject page = true →
    ∃ x ∈ file.fixtures, pageFixture all page = .ok x
  line : "const " ++ n ++ " = \x7b" ∈ file.lines

section
variable {all : Project} {p : Program} {n : String} {l : Library} {x : Code.Fixture} {page : Page}

theorem name_eq_of_library? (h : all.library? n = some l) : l.name = n := by
  obtain ⟨_, _, _, hn, _⟩ := findLast?_name_eq_some_iff.1 h
  exact hn

theorem mem_neededPages_iff :
    page ∈ neededPages all p ↔ page.name ∈ neededNames all p ∧ all.page? page.name = some page := by
  simp only [neededPages, List.mem_filterMap, List.mem_filter, List.contains_iff_mem,
    List.mem_eraseDups]
  constructor
  · rintro ⟨n, ⟨-, hn⟩, hp⟩
    rw [name_eq_of_page? hp]
    exact ⟨hn, hp⟩
  · rintro ⟨hn, hp⟩
    refine ⟨page.name, ⟨?_, hn⟩, hp⟩
    rw [← findLast?_name_isSome_iff, Option.isSome_iff_exists]
    exact ⟨page, hp⟩

theorem mem_neededLibraries_iff :
    l ∈ neededLibraries all p ↔
      l.name ∈ neededNames all p ∧ all.library? l.name = some l := by
  simp only [neededLibraries, List.mem_filterMap, List.mem_filter, List.contains_iff_mem,
    List.mem_eraseDups]
  constructor
  · rintro ⟨n, ⟨-, hn⟩, hl⟩
    rw [name_eq_of_library? hl]
    exact ⟨hn, hl⟩
  · rintro ⟨hn, hl⟩
    refine ⟨l.name, ⟨?_, hn⟩, hl⟩
    rw [← findLast?_name_isSome_iff, Option.isSome_iff_exists]
    exact ⟨l, hl⟩

theorem name_pageFixture (h : pageFixture all page = .ok x) : x.name = page.name := by
  obtain ⟨methods, -, h⟩ := bind_eq_ok.1 h
  cases h
  rfl

theorem name_libraryFixture (h : libraryFixture all l = .ok x) : x.name = l.name := by
  obtain ⟨methods, -, h⟩ := bind_eq_ok.1 h
  cases h
  rfl

end

section
variable {context : Project} {r : Request} {p : Program} {g : Generated}
  (hg : generate context r p = .ok g) {x : Code.Fixture}
include hg

/-- An object in a file is that of a needed page with an object, or of a needed library. -/
theorem mem_fixtures_iff : x ∈ g.file.fixtures ↔
    (∃ page ∈ neededPages (context.extend p) p, hasObject page = true ∧
      pageFixture (context.extend p) page = .ok x) ∨
    ∃ l ∈ neededLibraries (context.extend p) p, libraryFixture (context.extend p) l = .ok x := by
  obtain ⟨pages, libraries, _, hpages, hlibraries, -, hfixtures, -⟩ := generate_cases hg
  rw [hfixtures, List.mem_append]
  constructor
  · rintro (hx | hx)
    · obtain ⟨page, hm, hpage⟩ := exists_of_mem_mapM hpages hx
      obtain ⟨hm, ho⟩ := List.mem_filter.1 hm
      exact Or.inl ⟨page, hm, ho, hpage⟩
    · exact Or.inr (exists_of_mem_mapM hlibraries hx)
  · rintro (⟨page, hm, ho, hpage⟩ | ⟨l, hm, hl⟩)
    · obtain ⟨y, hy, heq⟩ := exists_mem_of_mapM hpages (List.mem_filter.2 ⟨hm, ho⟩)
      rw [hpage] at heq
      cases heq
      exact Or.inl hy
    · obtain ⟨y, hy, heq⟩ := exists_mem_of_mapM hlibraries hm
      rw [hl] at heq
      cases heq
      exact Or.inr hy

theorem name_mem_neededNames (hx : x ∈ g.file.fixtures) :
    x.name ∈ neededNames (context.extend p) p := by
  rcases (mem_fixtures_iff hg).1 hx with ⟨page, hm, -, hpage⟩ | ⟨l, hm, hl⟩
  · rw [name_pageFixture hpage]
    exact (mem_neededPages_iff.1 hm).1
  · rw [name_libraryFixture hl]
    exact (mem_neededLibraries_iff.1 hm).1

omit hg in
theorem mem_lines_of_mem_fixtures (hx : x ∈ g.file.fixtures) :
    "const " ++ x.name ++ " = \x7b" ∈ g.file.lines := by
  refine List.mem_append_left _ (List.mem_append_right _ (List.mem_flatMap.2 ⟨x, hx, ?_⟩))
  exact List.mem_cons_self ..

/-- A name with an object is defined in a file exactly if it can be reached from what the program
    has and mentions. -/
theorem defined_iff_reached {n : String} (ho : HasObject (context.extend p) n) :
    Defined (context.extend p) g.file n ↔
      Reached (context.extend p) (programReferences p) n := by
  rw [← mem_reachable_iff]
  constructor
  · intro hd
    rcases ho with ⟨l, hl⟩ | ⟨page, hpage, ho⟩
    · obtain ⟨x, hx, hfix⟩ := hd.library l hl
      have hname := name_mem_neededNames hg hx
      rw [name_libraryFixture hfix, name_eq_of_library? hl] at hname
      exact hname
    · obtain ⟨x, hx, hfix⟩ := hd.page page hpage ho
      have hname := name_mem_neededNames hg hx
      rw [name_pageFixture hfix, name_eq_of_page? hpage] at hname
      exact hname
  · intro hn
    obtain ⟨pages, libraries, _, hpages, hlibraries, -, hfixtures, -⟩ := generate_cases hg
    have hlibrary : ∀ l, (context.extend p).library? n = some l →
        ∃ x ∈ g.file.fixtures, libraryFixture (context.extend p) l = .ok x := by
      intro l hl
      have hname := name_eq_of_library? hl
      have hm : l ∈ neededLibraries (context.extend p) p :=
        mem_neededLibraries_iff.2 (by rw [hname]; exact ⟨hn, hl⟩)
      obtain ⟨x, hx, hfix⟩ := exists_mem_of_mapM hlibraries hm
      exact ⟨x, hfixtures ▸ List.mem_append_right _ hx, hfix⟩
    have hpage : ∀ page, (context.extend p).page? n = some page → hasObject page = true →
        ∃ x ∈ g.file.fixtures, pageFixture (context.extend p) page = .ok x := by
      intro page hpage ho
      have hname := name_eq_of_page? hpage
      have hm : page ∈ neededPages (context.extend p) p :=
        mem_neededPages_iff.2 (by rw [hname]; exact ⟨hn, hpage⟩)
      obtain ⟨x, hx, hfix⟩ := exists_mem_of_mapM hpages (List.mem_filter.2 ⟨hm, ho⟩)
      exact ⟨x, hfixtures ▸ List.mem_append_left _ hx, hfix⟩
    refine ⟨hlibrary, hpage, ?_⟩
    rcases ho with ⟨l, hl⟩ | ⟨page, hp, ho⟩
    · obtain ⟨x, hx, hfix⟩ := hlibrary l hl
      rw [← name_eq_of_library? hl, ← name_libraryFixture hfix]
      exact mem_lines_of_mem_fixtures hx
    · obtain ⟨x, hx, hfix⟩ := hpage page hp ho
      rw [← name_eq_of_page? hp, ← name_pageFixture hfix]
      exact mem_lines_of_mem_fixtures hx

end

end UiScenario.Generate
