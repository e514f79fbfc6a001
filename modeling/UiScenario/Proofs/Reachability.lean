import Mathlib.Data.List.Basic
import Mathlib.Data.List.Induction
import Mathlib.Order.Bounds.Basic
import UiScenario.Proofs.Needed
import UiScenario.Proofs.Rendering

/-!
What a program needs is a least set of names, and the objects of its test file are read off this
set.
-/

namespace UiScenario

theorem IsLast.mem {α : Type} {P : α → Prop} {xs : List α} {x : α} (h : IsLast P xs x) :
    x ∈ xs := by
  obtain ⟨front, behind, rfl, -⟩ := h
  exact List.mem_append_right _ List.mem_cons_self

theorem IsLast.holds {α : Type} {P : α → Prop} {xs : List α} {x : α} (h : IsLast P xs x) : P x := by
  obtain ⟨_, _, _, hx, _⟩ := h
  exact hx

/-! ## Mentions -/

/-- A statement names a page or library itself. -/
inductive Statement.Names (n : String) : Statement → Prop
  | target {s : Statement} {field : String} (h : s.HasTarget (.element (some n) field)) : Names n s
  | value {s : Statement} {e : Expression} {name : String} (he : s.HasValue e)
      (h : .ref (some n) name ∈ e.parts) : Names n s
  | owner {line : Nat} {action : String} {arguments : List Expression} :
      Names n (.step line (.perform n action arguments))

/-- A statement mentions a page or library, itself or in a statement inside it. -/
inductive Statement.Mentions (n : String) : Statement → Prop
  | itself {s : Statement} (h : s.Names n) : Mentions n s
  | inside {s t : Statement} {body : List Statement} (hb : body ∈ s.bodies) (ht : t ∈ body)
      (h : Mentions n t) : Mentions n s

def Mentioned (body : List Statement) (n : String) : Prop :=
  ∃ s ∈ body, s.Mentions n

theorem Target.page?_eq_some_iff {t : Target} {n : String} :
    t.page? = some n ↔ ∃ field, t = .element (some n) field := by
  cases t <;> simp [Target.page?]

theorem Expression.exists_reference_iff {e : Expression} {n : String} :
    (∃ r ∈ e.references, r.1 = some n) ↔ ∃ name, .ref (some n) name ∈ e.parts := by
  simp only [references, List.mem_filterMap]
  constructor
  · rintro ⟨⟨_, name⟩, ⟨part, hp, hr⟩, rfl⟩
    cases part with
    | ref qualifier name =>
      cases hr
      exact ⟨name, hp⟩
    | _ => cases hr
  · rintro ⟨name, h⟩
    exact ⟨(some n, name), ⟨_, h, rfl⟩, rfl⟩

namespace Statement

variable {n : String} {s t : Statement}

theorem mem_owners_iff : n ∈ s.owners ↔ s.Names n := by
  simp only [owners, List.mem_append, List.mem_filterMap, List.mem_flatMap,
    Target.page?_eq_some_iff, Expression.exists_reference_iff, mem_targets_iff, mem_expressions_iff]
  constructor
  · rintro ((⟨_, ht, field, rfl⟩ | ⟨e, he, name, h⟩) | h)
    · exact .target ht
    · exact .value he h
    · split at h
      · cases List.mem_singleton.1 h
        exact .owner
      · cases h
  · intro h
    cases h with
    | target h => exact .inl (.inl ⟨_, h, _, rfl⟩)
    | value he h => exact .inl (.inr ⟨_, he, _, h⟩)
    | owner => exact .inr (List.mem_singleton.2 rfl)

theorem mem_flatten_iff : t ∈ s.flatten ↔ t = s ∨ ∃ body ∈ s.bodies, t ∈ flattenAll body := by
  cases s <;> simp [flatten, bodies]

theorem sizeOf_lt_of_mem_bodies {body : List Statement} (hb : body ∈ s.bodies) (ht : t ∈ body) :
    sizeOf t < sizeOf s := by
  have hlt := List.sizeOf_lt_of_mem ht
  cases s with
  | step => cases hb
  | branch line c thenBody elseBody =>
    simp only [bodies, List.mem_cons, List.not_mem_nil, or_false] at hb
    rcases hb with rfl | rfl <;> simp only [branch.sizeOf_spec] <;> omega
  | repeat_ | forEach =>
    cases List.mem_singleton.1 hb
    simp only [repeat_.sizeOf_spec, forEach.sizeOf_spec]
    omega

theorem mentions_of_mem_flatten (h : t.Names n) (s : Statement) (ht : t ∈ s.flatten) :
    s.Mentions n := by
  rcases mem_flatten_iff.1 ht with rfl | ⟨body, hb, ht⟩
  · exact .itself h
  · obtain ⟨u, hu, ht⟩ := mem_flattenAll.1 ht
    exact .inside hb hu (mentions_of_mem_flatten h u ht)
termination_by sizeOf s
decreasing_by exact sizeOf_lt_of_mem_bodies hb hu

theorem Mentions.exists_mem_flatten (h : s.Mentions n) : ∃ t ∈ s.flatten, t.Names n := by
  induction h with
  | itself h => exact ⟨_, mem_flatten_self _, h⟩
  | inside hb ht _ ih =>
    obtain ⟨u, hu, hn⟩ := ih
    exact ⟨u, mem_flatten_iff.2 (.inr ⟨_, hb, mem_flattenAll.2 ⟨_, ht, hu⟩⟩), hn⟩

end Statement

namespace Generate

variable {all : Project} {n : String} {actions : List Action} {x : Code.Fixture} {p : Program}

theorem mem_references_iff {body : List Statement} : n ∈ references body ↔ Mentioned body n := by
  simp only [references, List.mem_flatMap, Statement.mem_owners_iff, Statement.mem_flattenAll]
  constructor
  · rintro ⟨t, ⟨s, hs, ht⟩, hn⟩
    exact ⟨s, hs, Statement.mentions_of_mem_flatten hn s ht⟩
  · rintro ⟨s, hs, hm⟩
    obtain ⟨t, ht, hn⟩ := hm.exists_mem_flatten
    exact ⟨t, ⟨s, hs, ht⟩, hn⟩

theorem mem_actionReferences_iff :
    n ∈ actionReferences actions ↔ ∃ a ∈ actions, Mentioned a.body n := by
  simp only [actionReferences, List.mem_flatMap, mem_references_iff]

/-! ## The names that are needed -/

/-- A set of names has all that a program has and mentions, and with a name all that the last page
    and the last library of this name mention. -/
structure Supplies (all : Project) (p : Program) (S : Set String) : Prop where
  pages : ∀ page ∈ p.pages, page.name ∈ S
  libraries : ∀ l ∈ p.libraries, l.name ∈ S
  uses : ∀ f ∈ p.features, ∀ u ∈ f.uses, u.name ∈ S
  hooks : ∀ f ∈ p.features, ∀ h ∈ f.hooks, ∀ n, Mentioned h.body n → n ∈ S
  scenarios : ∀ f ∈ p.features, ∀ s ∈ f.scenarios, ∀ n, Mentioned s.body n → n ∈ S
  pageActions : ∀ m ∈ S, ∀ page, IsLast (·.name = m) all.pages page →
    ∀ a ∈ page.actions, ∀ n, Mentioned a.body n → n ∈ S
  libraryActions : ∀ m ∈ S, ∀ l, IsLast (·.name = m) all.libraries l →
    ∀ a ∈ l.actions, ∀ n, Mentioned a.body n → n ∈ S
  forPage : ∀ m ∈ S, ∀ l, IsLast (·.name = m) all.libraries l → ∀ n ∈ l.forPage, n ∈ S

theorem mem_programReferences_iff : n ∈ programReferences p ↔
    (∃ page ∈ p.pages, page.name = n) ∨ (∃ l ∈ p.libraries, l.name = n) ∨
      ∃ f ∈ p.features, (∃ u ∈ f.uses, u.name = n) ∨ (∃ h ∈ f.hooks, Mentioned h.body n) ∨
        ∃ s ∈ f.scenarios, Mentioned s.body n := by
  simp only [programReferences, featureReferences, List.mem_append, List.mem_map, List.mem_flatMap,
    mem_references_iff, or_assoc]

theorem mem_successors_iff {m : String} : n ∈ successors all m ↔
    (∃ page, IsLast (·.name = m) all.pages page ∧ ∃ a ∈ page.actions, Mentioned a.body n) ∨
      ∃ l, IsLast (·.name = m) all.libraries l ∧
        (l.forPage = some n ∨ ∃ a ∈ l.actions, Mentioned a.body n) := by
  simp only [← findLast?_name_eq_some_iff, successors, List.mem_append]
  refine or_congr ?_ ?_
  · show _ ↔ ∃ page, all.page? m = some page ∧ _
    cases all.page? m <;> simp [mem_actionReferences_iff]
  · show _ ↔ ∃ l, all.library? m = some l ∧ _
    cases all.library? m <;> simp [mem_actionReferences_iff]

theorem supplies_iff {S : Set String} :
    Supplies all p S ↔ (∀ n ∈ programReferences p, n ∈ S) ∧
      ∀ m ∈ S, ∀ n ∈ successors all m, n ∈ S := by
  simp only [mem_programReferences_iff, mem_successors_iff]
  constructor
  · intro h
    refine ⟨?_, ?_⟩
    · rintro n (⟨page, hm, rfl⟩ | ⟨l, hm, rfl⟩ | ⟨f, hf, ⟨u, hu, rfl⟩ | ⟨x, hx, hn⟩ | ⟨s, hs, hn⟩⟩)
      · exact h.pages page hm
      · exact h.libraries l hm
      · exact h.uses f hf u hu
      · exact h.hooks f hf x hx n hn
      · exact h.scenarios f hf s hs n hn
    · rintro m hm n (⟨page, hp, a, ha, hn⟩ | ⟨l, hl, hn | ⟨a, ha, hn⟩⟩)
      · exact h.pageActions m hm page hp a ha n hn
      · exact h.forPage m hm l hl n hn
      · exact h.libraryActions m hm l hl a ha n hn
  · rintro ⟨hroots, hclosed⟩
    exact {
      pages := fun page hm => hroots _ (.inl ⟨page, hm, rfl⟩)
      libraries := fun l hm => hroots _ (.inr (.inl ⟨l, hm, rfl⟩))
      uses := fun f hf u hu => hroots _ (.inr (.inr ⟨f, hf, .inl ⟨u, hu, rfl⟩⟩))
      hooks := fun f hf x hx n hn => hroots n (.inr (.inr ⟨f, hf, .inr (.inl ⟨x, hx, hn⟩)⟩))
      scenarios := fun f hf s hs n hn => hroots n (.inr (.inr ⟨f, hf, .inr (.inr ⟨s, hs, hn⟩)⟩))
      pageActions := fun m hm page hp a ha n hn => hclosed m hm n (.inl ⟨page, hp, a, ha, hn⟩)
      libraryActions := fun m hm l hl a ha n hn =>
        hclosed m hm n (.inr ⟨l, hl, .inr ⟨a, ha, hn⟩⟩)
      forPage := fun m hm l hl n hn => hclosed m hm n (.inr ⟨l, hl, .inl hn⟩) }

theorem isLeast_neededNames (all : Project) (p : Program) :
    IsLeast {S | Supplies all p S} {n | n ∈ neededNames all p} := by
  have hneeded : ∀ n, n ∈ neededNames all p ↔ Reached all (programReferences p) n :=
    fun n => mem_reachable_iff
  refine ⟨supplies_iff.2 ⟨fun n hn => (hneeded n).2 (.given hn), fun m hm n hn => ?_⟩, ?_⟩
  · exact (hneeded n).2 (.mentioned ((hneeded m).1 hm) hn)
  · intro S hS n hn
    obtain ⟨hroots, hclosed⟩ := supplies_iff.1 hS
    have hreached := (hneeded n).1 hn
    induction hreached with
    | given h => exact hroots _ h
    | mentioned hm h ih => exact hclosed _ (ih ((hneeded _).2 hm)) _ h

/-! ## Objects -/

/-- The methods of an object are the actions of its definition. -/
def Implements (all : Project) (page : Option String) (actions : List Action)
    (methods : List Code.Method) : Prop :=
  List.Forall₂ (fun a m => m.name = a.name ∧ m.parameters = a.parameters ∧
    body all ⟨page, []⟩ a.parameters a.body = .ok m.body) actions methods

/-- The content of an object for a page: the address, the variables and the actions of the page. -/
structure PageObject (all : Project) (page : Page) (x : Code.Fixture) : Prop where
  name : x.name = page.name
  properties : x.properties = page.url.toList.map (fun url => ("url", Code.Expr.text url)) ++
    page.pageVariables.map fun v =>
      (v.name, expression ⟨all, some page.name, [], []⟩ (.start []) v.value)
  methods : Implements all (some page.name) page.actions x.methods

/-- The content of an object for a library: the actions of the library. -/
structure LibraryObject (all : Project) (l : Library) (x : Code.Fixture) : Prop where
  name : x.name = l.name
  properties : x.properties = []
  methods : Implements all l.forPage l.actions x.methods

/-- The objects for definitions: one for each name whose last definition is wanted, in the order of
    the first definitions, and with the content of the last. -/
structure ObjectsFor {α : Type} (name : α → String) (definitions : List α) (Wanted : α → Prop)
    (Content : α → Code.Fixture → Prop) (objects : List Code.Fixture) : Prop where
  mem_iff : ∀ n, n ∈ objects.map (·.name) ↔ ∃ d, IsLast (name · = n) definitions d ∧ Wanted d
  sorted : objects.Pairwise fun x y =>
    (definitions.map name).idxOf x.name < (definitions.map name).idxOf y.name
  content : ∀ x ∈ objects, ∃ d, IsLast (name · = x.name) definitions d ∧ Content d x

theorem implements_of_mapM {page : Option String} {methods : List Code.Method}
    (h : actions.mapM (method all page) = .ok methods) : Implements all page actions methods := by
  induction actions generalizing methods with
  | nil =>
    cases h
    exact .nil
  | cons a actions ih =>
    rw [List.mapM_cons, bind_eq_ok] at h
    obtain ⟨m, hm, h⟩ := h
    obtain ⟨rest, hrest, h⟩ := bind_eq_ok.1 h
    obtain ⟨code, hcode, hm⟩ := bind_eq_ok.1 hm
    cases h
    cases hm
    exact .cons ⟨rfl, rfl, hcode⟩ (ih hrest)

theorem pageObject_of_pageFixture {page : Page} (h : pageFixture all page = .ok x) :
    PageObject all page x := by
  obtain ⟨methods, hm, h⟩ := bind_eq_ok.1 h
  cases h
  exact ⟨rfl, by cases page.url <;> rfl, implements_of_mapM hm⟩

theorem libraryObject_of_libraryFixture {l : Library} (h : libraryFixture all l = .ok x) :
    LibraryObject all l x := by
  obtain ⟨methods, hm, h⟩ := bind_eq_ok.1 h
  cases h
  exact ⟨rfl, rfl, implements_of_mapM hm⟩

theorem eraseDups_concat (xs : List String) (x : String) :
    (xs ++ [x]).eraseDups = if x ∈ xs then xs.eraseDups else xs.eraseDups ++ [x] := by
  rw [List.eraseDups_append]
  split <;> simp [List.removeAll, List.eraseDups_cons, *]

/-- Without repetitions, names stand in the order of their first occurrences. -/
theorem pairwise_idxOf_eraseDups (names : List String) :
    names.eraseDups.Pairwise (names.idxOf · < names.idxOf ·) := by
  induction names using List.reverseRecOn with
  | nil => exact .nil
  | append_singleton xs x ih =>
    have hold : ∀ a ∈ xs, (xs ++ [x]).idxOf a = xs.idxOf a := fun a ha =>
      List.idxOf_append_of_mem ha
    have hpair : xs.eraseDups.Pairwise ((xs ++ [x]).idxOf · < (xs ++ [x]).idxOf ·) := by
      refine ih.imp_of_mem fun {a b} ha hb hab => ?_
      rwa [hold a (List.mem_eraseDups.1 ha), hold b (List.mem_eraseDups.1 hb)]
    rw [eraseDups_concat]
    split
    · exact hpair
    · next hx =>
      refine List.pairwise_append.2 ⟨hpair, List.pairwise_singleton _ _, fun a ha b hb => ?_⟩
      have ha := List.mem_eraseDups.1 ha
      cases List.mem_singleton.1 hb
      rw [hold a ha, List.idxOf_append_of_notMem hx]
      exact Nat.lt_add_right _ (List.idxOf_lt_length_of_mem ha)

section
variable {α : Type} {name : α → String} {definitions : List α} {keep : List String}

/-- The last definitions of the names that are kept, in the order of the first definitions. -/
def lastDefinitions (name : α → String) (definitions : List α) (keep : List String) : List α :=
  ((definitions.map name).eraseDups.filter keep.contains).filterMap fun n =>
    findLast? (name · == n) definitions

theorem mem_lastDefinitions {d : α} : d ∈ lastDefinitions name definitions keep ↔
    IsLast (name · = name d) definitions d ∧ name d ∈ keep := by
  simp only [lastDefinitions, List.mem_filterMap, List.mem_filter, List.contains_iff_mem,
    List.mem_eraseDups, findLast?_name_eq_some_iff]
  constructor
  · rintro ⟨n, ⟨-, hn⟩, hd⟩
    rw [hd.holds]
    exact ⟨hd, hn⟩
  · rintro ⟨hd, hn⟩
    exact ⟨name d, ⟨List.mem_map_of_mem hd.mem, hn⟩, hd⟩

theorem pairwise_lastDefinitions :
    (lastDefinitions name definitions keep).Pairwise fun d e =>
      (definitions.map name).idxOf (name d) < (definitions.map name).idxOf (name e) := by
  refine List.pairwise_filterMap.2 ?_
  refine ((pairwise_idxOf_eraseDups _).filter _).imp fun {m n} hlt d hd e he => ?_
  rw [(findLast?_name_eq_some_iff.1 hd).holds, (findLast?_name_eq_some_iff.1 he).holds]
  exact hlt

/-- An object of each last definition that passes a test. -/
theorem objectsFor_of_mapM {ok : α → Bool} {Wanted : α → Prop} {Content : α → Code.Fixture → Prop}
    {make : α → Except Violation Code.Fixture} {objects : List Code.Fixture}
    (hw : ∀ d, Wanted d ↔ name d ∈ keep ∧ ok d = true)
    (hname : ∀ d x, make d = .ok x → x.name = name d)
    (hcontent : ∀ d x, make d = .ok x → Content d x)
    (h : ((lastDefinitions name definitions keep).filter ok).mapM make = .ok objects) :
    ObjectsFor name definitions Wanted Content objects := by
  have hnames := map_of_mapM_eq_ok hname h
  refine ⟨fun n => ?_, ?_, fun x hx => ?_⟩
  · rw [hnames, List.mem_map]
    constructor
    · rintro ⟨d, hd, rfl⟩
      obtain ⟨hd, ho⟩ := List.mem_filter.1 hd
      obtain ⟨hlast, hkept⟩ := mem_lastDefinitions.1 hd
      exact ⟨d, hlast, (hw d).2 ⟨hkept, ho⟩⟩
    · rintro ⟨d, hlast, hd⟩
      obtain ⟨hkept, ho⟩ := (hw d).1 hd
      have hn := hlast.holds
      exact ⟨d, List.mem_filter.2 ⟨mem_lastDefinitions.2 ⟨hn.symm ▸ hlast, hkept⟩, ho⟩, hn⟩
  · have hsorted : (objects.map (·.name)).Pairwise fun m n =>
        (definitions.map name).idxOf m < (definitions.map name).idxOf n := by
      rw [hnames, List.pairwise_map]
      exact pairwise_lastDefinitions.filter _
    rwa [List.pairwise_map] at hsorted
  · obtain ⟨d, hd, hx⟩ := exists_of_mem_mapM h hx
    rw [hname d x hx]
    exact ⟨d, (mem_lastDefinitions.1 (List.mem_filter.1 hd).1).1, hcontent d x hx⟩

end

theorem hasObject_iff {page : Page} :
    hasObject page = true ↔ page.url ≠ none ∨ page.pageVariables ≠ [] ∨ page.actions ≠ [] := by
  simp [hasObject, Option.isSome_iff_ne_none, or_assoc]

/-- **Reachability**: the names that a program needs in a project are the least set that supplies
    it. The objects of a generated file are those for the pages of this set with more than fields,
    and then those for its libraries. -/
theorem neededNames_isLeast (context : Project) (request : Request) (p : Program) :
    let all := context.extend p
    let needed := {n | n ∈ neededNames all p}
    IsLeast {S | Supplies all p S} needed ∧
    ∀ g, generate context request p = .ok g → ∃ pages libraries,
      g.file.fixtures = pages ++ libraries ∧
      ObjectsFor (·.name) all.pages (fun page => page.name ∈ needed ∧
        (page.url ≠ none ∨ page.pageVariables ≠ [] ∨ page.actions ≠ []))
        (PageObject all) pages ∧
      ObjectsFor (·.name) all.libraries (·.name ∈ needed) (LibraryObject all) libraries := by
  refine ⟨isLeast_neededNames _ p, fun g hg => ?_⟩
  obtain ⟨pages, libraries, -, hpages, hlibraries, -, hfixtures, -⟩ := generate_cases hg
  refine ⟨pages, libraries, hfixtures, ?_, ?_⟩
  · exact objectsFor_of_mapM (fun page => and_congr_right fun _ => hasObject_iff.symm)
      (fun _ _ => name_pageFixture) (fun _ _ => pageObject_of_pageFixture) hpages
  · have hall : (lastDefinitions (·.name) (context.extend p).libraries
        (neededNames (context.extend p) p)).filter (fun _ => true) =
        neededLibraries (context.extend p) p := List.filter_true _
    exact objectsFor_of_mapM (fun l => (and_iff_left rfl).symm)
      (fun _ _ => name_libraryFixture) (fun _ _ => libraryObject_of_libraryFixture)
      (hall ▸ hlibraries)

/-- A page and a library that mention each other, and an earlier page with the same name. -/
def tillProject : Project :=
  parseProject ["PAGE Cart (\"/old\") \x7b \x7d PAGE Till (\"/till\") \x7b \x7d
    PAGE Spare (\"/spare\") \x7b \x7d",
    "PAGE Cart \x7b pay \x7b PERFORM Bank.settle \x7d \x7d
    PAGEACTIONS Bank FOR Till \x7b settle \x7b PERFORM Cart.pay \x7d \x7d"]

def tillProgram : Program :=
  (parseText "FEATURE Shop \x7b USE Cart
    SCENARIO \"pays\" \x7b PERFORM Cart.pay \x7d \x7d").program

theorem generate_till :
    neededNames (tillProject.extend tillProgram) tillProgram = ["Cart", "Bank", "Till"] ∧
    (tillProject.extend tillProgram).pages.flatMap (·.pageVariables) = [] ∧
    (generate tillProject ⟨none, []⟩ tillProgram).toOption.any (fun g =>
      g.file.fixtures.map (·.name) == ["Cart", "Till", "Bank"] &&
      g.file.fixtures.map (·.properties.map (·.1)) == [[], ["url"], []]) = true := by
  decide +kernel

-- the page stands where its name comes first, and has the action of its last definition
theorem neededNames_isLeast_till :
    IsLeast {S | Supplies (tillProject.extend tillProgram) tillProgram S}
      {"Cart", "Bank", "Till"} ∧
    ∃ g pages libraries, generate tillProject ⟨none, []⟩ tillProgram = .ok g ∧
      g.file.fixtures = pages ++ libraries ∧
      g.file.fixtures.map (·.name) = ["Cart", "Till", "Bank"] ∧
      g.file.fixtures.map (·.properties.map (·.1)) = [[], ["url"], []] ∧
      ObjectsFor (·.name) (tillProject.extend tillProgram).pages
        (fun page => page.name ∈ ({"Cart", "Bank", "Till"} : Set String) ∧
          (page.url ≠ none ∨ page.pageVariables ≠ [] ∨ page.actions ≠ []))
        (PageObject (tillProject.extend tillProgram)) pages ∧
      ObjectsFor (·.name) (tillProject.extend tillProgram).libraries
        (·.name ∈ ({"Cart", "Bank", "Till"} : Set String))
        (LibraryObject (tillProject.extend tillProgram)) libraries := by
  obtain ⟨hnames, -, hrun⟩ := generate_till
  have hneeded : {n | n ∈ neededNames (tillProject.extend tillProgram) tillProgram} =
      {"Cart", "Bank", "Till"} := by
    ext n
    simp [hnames]
  obtain ⟨g, hg, hfixtures⟩ := (Option.any_eq_true _ _).1 hrun
  have hok := toOption_eq_some.1 hg
  obtain ⟨hleast, hobjects⟩ := neededNames_isLeast tillProject ⟨none, []⟩ tillProgram
  obtain ⟨pages, libraries, heq, hpages, hlibraries⟩ := hobjects g hok
  rw [hneeded] at hleast hpages hlibraries
  simp only [Bool.and_eq_true, beq_iff_eq] at hfixtures
  exact ⟨hleast, g, pages, libraries, hok, heq, hfixtures.1, hfixtures.2, hpages, hlibraries⟩

end Generate

end UiScenario
