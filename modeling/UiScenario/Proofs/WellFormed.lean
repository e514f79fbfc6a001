import UiScenario.Problem.Report
import UiScenario.Proofs.Scope
import UiScenario.Validation.Program

/-!
Well-formed programs: which programs are valid, said without the checks.
-/

namespace UiScenario

/-! ## Definitions of names -/

/-- `x` is the last of `xs` with a property. -/
def IsLast {α : Type} (P : α → Prop) (xs : List α) (x : α) : Prop :=
  ∃ front behind, xs = front ++ x :: behind ∧ P x ∧ ∀ y ∈ behind, ¬P y

section
variable {α : Type} {p : α → Bool} {xs : List α}

theorem findLast?_eq_some_iff {x : α} :
    findLast? p xs = some x ↔ IsLast (p · = true) xs x := by
  rw [findLast?, List.find?_eq_some_iff_append]
  constructor
  · rintro ⟨hx, front, behind, h, hf⟩
    refine ⟨behind.reverse, front.reverse, ?_, hx, fun y hy => ?_⟩
    · rw [← List.reverse_reverse xs, h]; simp
    · simpa using hf y (List.mem_reverse.1 hy)
  · rintro ⟨front, behind, rfl, hx, hb⟩
    refine ⟨hx, behind.reverse, front.reverse, by simp, fun y hy => ?_⟩
    simpa using hb y (List.mem_reverse.1 hy)

theorem findLast?_eq_none_iff : findLast? p xs = none ↔ ∀ x ∈ xs, ¬p x = true := by
  simp [findLast?]

theorem findLast?_isSome_iff : (findLast? p xs).isSome = true ↔ ∃ x ∈ xs, p x = true := by
  simp [findLast?]

end

section
variable {α : Type} {name : α → String} {xs : List α} {n : String}

theorem findLast?_name_eq_some_iff {x : α} :
    findLast? (name · == n) xs = some x ↔ IsLast (name · = n) xs x := by
  simp [findLast?_eq_some_iff]

theorem findLast?_name_eq_none_iff : findLast? (name · == n) xs = none ↔ n ∉ xs.map name := by
  simp [findLast?_eq_none_iff]

theorem findLast?_name_isSome_iff :
    (findLast? (name · == n) xs).isSome = true ↔ n ∈ xs.map name := by
  simp [findLast?_isSome_iff]

end

theorem Project.hasPage_iff {all : Project} {n : String} :
    all.hasPage n = true ↔ n ∈ all.pages.map (·.name) :=
  findLast?_name_isSome_iff

theorem Project.hasLibrary_iff {all : Project} {n : String} :
    all.hasLibrary n = true ↔ n ∈ all.libraries.map (·.name) :=
  findLast?_name_isSome_iff

/-! ## Elements and values -/

/-- A step acts on an element. -/
inductive Step.HasTarget (t : Target) : Step → Prop
  | click : HasTarget t (.click t)
  | fill {e} : HasTarget t (.fill t e)
  | hover : HasTarget t (.hover t)
  | check : HasTarget t (.check t)
  | uncheck : HasTarget t (.uncheck t)
  | select {e} : HasTarget t (.select e t)
  | scrollTo : HasTarget t (.scrollTo t)
  | dragFrom {u} : HasTarget t (.drag t u)
  | dragTo {u} : HasTarget t (.drag u t)
  | upload {e} : HasTarget t (.upload e t)
  | waitFor : HasTarget t (.waitFor t)
  | clear : HasTarget t (.clear t)
  | switchToFrame : HasTarget t (.switchToFrame t)
  | state {negated s} : HasTarget t (.verify (.state t negated s))
  | text {negated contains e} : HasTarget t (.verify (.text t negated contains e))
  | value {negated e} : HasTarget t (.verify (.value t negated e))
  | attribute_ {name e} : HasTarget t (.verify (.attribute_ t name e))
  | count {e} : HasTarget t (.verify (.count t e))

/-- A step reads a value. -/
inductive Step.HasValue (e : Expression) : Step → Prop
  | open_ : HasValue e (.open_ e)
  | fill {t} : HasValue e (.fill t e)
  | select {t} : HasValue e (.select e t)
  | press : HasValue e (.press e)
  | upload {t} : HasValue e (.upload e t)
  | wait {unit} : HasValue e (.wait e unit)
  | screenshot : HasValue e (.screenshot (some e))
  | log : HasValue e (.log e)
  | switchToTab : HasValue e (.switchToTab e)
  | switchToNewTab : HasValue e (.switchToNewTab (some e))
  | acceptDialog : HasValue e (.acceptDialog (some e))
  | text {t negated contains} : HasValue e (.verify (.text t negated contains e))
  | value {t negated} : HasValue e (.verify (.value t negated e))
  | attributeName {t f} : HasValue e (.verify (.attribute_ t e f))
  | attributeValue {t f} : HasValue e (.verify (.attribute_ t f e))
  | count {t} : HasValue e (.verify (.count t e))
  | url {m} : HasValue e (.verify (.url m e))
  | title {contains} : HasValue e (.verify (.title contains e))
  | declare {kind name} : HasValue e (.declare kind name e)
  | argument {page action es} (h : e ∈ es) : HasValue e (.perform page action es)
  | condition {q w c} (hw : q.where_ = some w) (hc : c = w.first ∨ ∃ join, (join, c) ∈ w.rest)
      (h : c.value = some e) : HasValue e (.query q)

/-- A statement acts on an element itself. -/
inductive Statement.HasTarget (t : Target) : Statement → Prop
  | step {line s} (h : s.HasTarget t) : HasTarget t (.step line s)
  | branch {line negated s thenBody elseBody} :
      HasTarget t (.branch line (.state t negated s) thenBody elseBody)

/-- A statement reads a value itself. -/
inductive Statement.HasValue (e : Expression) : Statement → Prop
  | step {line s} (h : s.HasValue e) : HasValue e (.step line s)
  | left {line op f thenBody elseBody} :
      HasValue e (.branch line (.comparison e op f) thenBody elseBody)
  | right {line op f thenBody elseBody} :
      HasValue e (.branch line (.comparison f op e) thenBody elseBody)
  | alone {line thenBody elseBody} : HasValue e (.branch line (.truthy e) thenBody elseBody)
  | times {line body} : HasValue e (.repeat_ line e body)

theorem Step.mem_targets_iff {s : Step} {t : Target} : t ∈ s.targets ↔ s.HasTarget t := by
  constructor
  · intro h
    cases s with
    | drag => rcases h with _ | ⟨_, _ | ⟨_, ⟨⟩⟩⟩ <;> constructor
    | verify a => cases a <;> cases h <;> first | constructor | contradiction
    | _ => cases h <;> first | constructor | contradiction
  · rintro ⟨⟩ <;> simp [targets, Assertion.targets]

theorem DataQuery.mem_values_iff {q : DataQuery} {e : Expression} : e ∈ q.values ↔ ∃ w c,
    q.where_ = some w ∧ (c = w.first ∨ ∃ join, (join, c) ∈ w.rest) ∧ c.value = some e := by
  cases h : q.where_ <;> simp [values, conditions, WhereClause.conditions, h]

theorem Step.mem_expressions_iff {s : Step} {e : Expression} :
    e ∈ s.expressions ↔ s.HasValue e := by
  constructor
  · intro h
    cases s with
    | verify a =>
      cases a with
      | attribute_ => rcases h with _ | ⟨_, _ | ⟨_, ⟨⟩⟩⟩ <;> constructor
      | _ => cases h <;> first | constructor | contradiction
    | screenshot | switchToNewTab | acceptDialog =>
      obtain rfl := Option.mem_toList.1 h
      constructor
    | perform => exact .argument h
    | query q =>
      obtain ⟨w, c, hw, hc, he⟩ := DataQuery.mem_values_iff.1 h
      exact .condition hw hc he
    | _ => cases h <;> first | constructor | contradiction
  · rintro ⟨⟩
    case condition hw hc h => exact DataQuery.mem_values_iff.2 ⟨_, _, hw, hc, h⟩
    all_goals simp_all [expressions, Assertion.expressions]

theorem Statement.mem_targets_iff {s : Statement} {t : Target} :
    t ∈ s.targets ↔ s.HasTarget t := by
  constructor
  · intro h
    cases s with
    | step => exact .step (Step.mem_targets_iff.1 h)
    | branch line c => cases c <;> cases h <;> first | constructor | contradiction
    | _ => cases h
  · rintro (h | _)
    · exact Step.mem_targets_iff.2 h
    · exact List.mem_singleton_self _

theorem Statement.mem_expressions_iff {s : Statement} {e : Expression} :
    e ∈ s.expressions ↔ s.HasValue e := by
  constructor
  · intro h
    cases s with
    | step => exact .step (Step.mem_expressions_iff.1 h)
    | branch line c =>
      cases c with
      | comparison => rcases h with _ | ⟨_, _ | ⟨_, ⟨⟩⟩⟩ <;> constructor
      | _ => cases h <;> first | constructor | contradiction
    | _ => cases h <;> first | constructor | contradiction
  · rintro (h | _ | _ | _ | _)
    · exact Step.mem_expressions_iff.2 h
    all_goals simp [expressions]

/-! ## What is asked of a program -/

/-- Where statements stand: in a feature, with the names that it uses, or in an action, with the
    page that it is for. -/
inductive Place where
  | feature (uses : List String)
  | action (defaultPage : Option String)

/-- The names that the statements of a place can use as a page. -/
def Place.Reaches (all : Project) : Place → String → Prop
  | feature uses, q => q ∈ uses
  | action defaultPage, q => q ∈ all.pages.map (·.name) ∨ defaultPage = some q

/-- The action with the given name takes so many arguments. -/
def Takes (actions : List Action) (action : String) (count : Nat) : Prop :=
  ∃ a, IsLast (·.name = action) actions a ∧ a.parameters.length = count

/-- An action of a library, or of a page in reach, can be performed with so many arguments. A page
    in reach need not be defined. -/
def Callable (all : Project) (at_ : Place) (owner action : String) (count : Nat) : Prop :=
  (∃ l, IsLast (·.name = owner) all.libraries l ∧ Takes l.actions action count) ∨
  owner ∉ all.libraries.map (·.name) ∧ at_.Reaches all owner ∧
    ∀ p, IsLast (·.name = owner) all.pages p → Takes p.actions action count

/-- A statement names only what it may, with the names of `scope` in scope. -/
structure Statement.Proper (all : Project) (at_ : Place) (scope : List String)
    (s : Statement) : Prop where
  targets : ∀ q f, s.HasTarget (.element (some q) f) → q ∈ scope ∨ at_.Reaches all q
  calls : ∀ line owner action arguments, s = step line (.perform owner action arguments) →
    Callable all at_ owner action arguments.length
  collections : ∀ line item collection body, s = forEach line item collection body →
    collection ∈ scope

/-- Statements with their place and the names that are bound in front of them. -/
structure PlacedBody where
  place : Place
  scope : List String
  statements : List Statement

/-- Every statement is proper, at any depth, where each is in the scope of all names that are bound
    in front of it in reading order. -/
def PlacedBody.Proper (all : Project) (b : PlacedBody) : Prop :=
  ∀ front s behind, Statement.flattenAll b.statements = front ++ s :: behind →
    s.Proper all b.place (b.scope ++ front.filterMap Statement.binds?)

def actionBodies (defaultPage : Option String) (actions : List Action) : List PlacedBody :=
  actions.map fun a => ⟨.action defaultPage, a.parameters, a.body⟩

/-- The bodies of the hooks and scenarios of a feature. -/
def Feature.placedBodies (f : Feature) : List PlacedBody :=
  (f.hooks.map (·.body) ++ f.scenarios.map (·.body)).map
    (⟨.feature (f.uses.map (·.name)), [], ·⟩)

def Program.placedBodies (p : Program) : List PlacedBody :=
  p.pages.flatMap (fun page => actionBodies (some page.name) page.actions) ++
  p.libraries.flatMap (fun l => actionBodies l.forPage l.actions) ++
  p.features.flatMap Feature.placedBodies

/-- The names of pages and libraries, once for each definition. -/
def Project.definedNames (d : Project) : List String :=
  d.pages.map (·.name) ++ d.libraries.map (·.name)

/-- A program is well formed in a project. -/
structure WellFormed (context : Project) (p : Program) : Prop where
  /-- Each page and each library is the only one with its name. -/
  unique : ∀ n ∈ p.pages.map (·.name) ++ p.libraries.map (·.name),
    (context.extend p).definedNames.count n = 1
  pageMembers : ∀ page ∈ p.pages,
    (page.fields.map (·.name) ++ page.pageVariables.map (·.name)).Nodup ∧
    (page.actions.map (·.name)).Nodup
  libraryActions : ∀ l ∈ p.libraries, (l.actions.map (·.name)).Nodup
  libraryPages : ∀ l ∈ p.libraries, ∀ page, l.forPage = some page →
    page ∈ (context.extend p).pages.map (·.name)
  uses : ∀ f ∈ p.features, ∀ u ∈ f.uses, u.name ∈ (context.extend p).definedNames
  bodies : ∀ b ∈ p.placedBodies, b.Proper (context.extend p)

/-! ## Errors among findings -/

/-- The kinds of findings that leave a program valid. -/
theorem Problem.isError_eq_false_iff {p : Problem} :
    p.isError = false ↔
      p.code ∈ [Code.undefinedVariable, .unknownField, .pageNaming, .fieldNaming] := by
  have h : ∀ c : Code, (c.entry.severity == .error) = false ↔
      c ∈ [Code.undefinedVariable, .unknownField, .pageNaming, .fieldNaming] := by
    intro c; cases c <;> decide
  exact h p.code

namespace Validation

variable {all : Project} {line : Nat}

/-- No finding is an error. -/
def NoErrors (problems : List Problem) : Prop :=
  ∀ p ∈ problems, p.isError = false

theorem valid_iff_noErrors {problems : List Problem} :
    (Report.ofProblems problems).valid = true ↔ NoErrors problems := by
  simp [Report.valid, Report.ofProblems, NoErrors]

@[simp]
theorem noErrors_nil : NoErrors [] := by simp [NoErrors]

@[simp]
theorem noErrors_singleton {p : Problem} :
    NoErrors [p] ↔ p.code ∈ [Code.undefinedVariable, .unknownField, .pageNaming, .fieldNaming] := by
  rw [← Problem.isError_eq_false_iff]; simp [NoErrors]

@[simp]
theorem noErrors_append {xs ys : List Problem} :
    NoErrors (xs ++ ys) ↔ NoErrors xs ∧ NoErrors ys := by
  simp [NoErrors, or_imp, forall_and]

@[simp]
theorem noErrors_flatMap {α : Type} {f : α → List Problem} {xs : List α} :
    NoErrors (xs.flatMap f) ↔ ∀ x ∈ xs, NoErrors (f x) := by
  simp only [NoErrors, List.mem_flatMap]
  exact ⟨fun h x hx p hp => h p ⟨x, hx, hp⟩, fun h p ⟨x, hx, hp⟩ => h x hx p hp⟩

@[simp]
theorem noErrors_map {α : Type} {f : α → Problem} {xs : List α} :
    NoErrors (xs.map f) ↔ ∀ x ∈ xs, NoErrors [f x] := by
  simp [NoErrors]

@[simp]
theorem noErrors_toList {α : Type} {f : α → Problem} {x : Option α} :
    NoErrors (x.map f).toList ↔ ∀ a, x = some a → NoErrors [f a] := by
  cases x <;> simp

/-- A finding for the definition that has a name: there is none. -/
theorem noErrors_findLast? {α : Type} (name : α → String) (n : String) (xs : List α)
    {f : α → Problem} (hf : ∀ a, ¬NoErrors [f a]) :
    NoErrors ((findLast? (name · == n) xs).map f).toList ↔ n ∉ xs.map name := by
  rw [← findLast?_name_eq_none_iff, Option.eq_none_iff_forall_ne_some, noErrors_toList]
  exact forall_congr' fun a => ⟨fun h e => hf a (h e), fun h e => (h e).elim⟩

/-! ## Declarations -/

theorem not_noErrors_duplicatePage (p : Page) (first : Nat) :
    ¬NoErrors [duplicatePage p first] := by
  simp [duplicatePage, Problem.code]

theorem not_noErrors_duplicateLibrary (l : Library) (first : Nat) :
    ¬NoErrors [duplicateLibrary l first] := by
  simp [duplicateLibrary, Problem.code]

theorem repeated_eq_nil_iff {seen : List String} {members : List (String × Nat)} :
    repeated seen members = [] ↔
      (members.map (·.1)).Nodup ∧ ∀ n ∈ members.map (·.1), n ∉ seen := by
  induction members generalizing seen with
  | nil => simp [repeated]
  | cons m rest ih =>
    obtain ⟨name, line⟩ := m
    by_cases h : name ∈ seen
    · simp [repeated, h]
    · simp only [repeated, List.contains_eq_mem, h, decide_false, Bool.false_eq_true, ↓reduceIte,
        ih, List.map_cons, List.nodup_cons, List.mem_cons, not_or, forall_eq_or_imp,
        not_false_eq_true, true_and]
      grind

theorem noErrors_duplicateMembers {kind owner : String} {members : List (String × Nat)} :
    NoErrors (duplicateMembers kind owner members) ↔ (members.map (·.1)).Nodup := by
  have h : NoErrors (duplicateMembers kind owner members) ↔ repeated [] members = [] := by
    rw [List.eq_nil_iff_forall_not_mem]
    simp [duplicateMembers, Problem.code]
  rw [h, repeated_eq_nil_iff]
  simp

theorem noErrors_checkPage {p : Page} :
    NoErrors (checkPage p) ↔
      (p.fields.map (·.name) ++ p.pageVariables.map (·.name)).Nodup ∧
      (p.actions.map (·.name)).Nodup := by
  have hn : NoErrors (if Text.isPascalCase p.name then [] else [.pageNaming p.name p.line]) := by
    split <;> simp [Problem.code]
  simp [checkPage, noErrors_duplicateMembers, actionNames, hn, Problem.code, Function.comp_def]

theorem noErrors_checkPages {before pages : List Page} :
    NoErrors (checkPages before pages) ↔
      (pages.map (·.name)).Nodup ∧ (∀ n ∈ pages.map (·.name), n ∉ before.map (·.name)) ∧
      ∀ p ∈ pages, NoErrors (checkPage p) := by
  induction pages generalizing before with
  | nil => simp [checkPages]
  | cons p rest ih =>
    have hp := noErrors_findLast? Page.name p.name before
      fun q => not_noErrors_duplicatePage p q.line
    simp only [checkPages, noErrors_append, hp, ih, List.map_append, List.map_cons, List.map_nil]
    grind

theorem noErrors_checkLibraries {before libraries : List Library} :
    NoErrors (checkLibraries before libraries) ↔
      (libraries.map (·.name)).Nodup ∧
      (∀ n ∈ libraries.map (·.name), n ∉ before.map (·.name)) ∧
      ∀ l ∈ libraries, (l.actions.map (·.name)).Nodup := by
  induction libraries generalizing before with
  | nil => simp [checkLibraries]
  | cons l rest ih =>
    have hl := noErrors_findLast? Library.name l.name before
      fun m => not_noErrors_duplicateLibrary l m.line
    have ha : NoErrors (duplicateMembers "action" l.name (actionNames l.actions)) ↔
        (l.actions.map (·.name)).Nodup := by
      simp [noErrors_duplicateMembers, actionNames, Function.comp_def]
    simp only [checkLibraries, noErrors_append, hl, ha, ih, List.map_append, List.map_cons,
      List.map_nil]
    grind

theorem noErrors_checkPageLibraries {context : Project} {p : Program} :
    NoErrors (checkPageLibraries context p) ↔ ∀ n ∈ p.pages.map (·.name),
      n ∈ p.libraries.map (·.name) ∨ n ∉ context.libraries.map (·.name) := by
  simp only [checkPageLibraries, noErrors_flatMap, List.forall_mem_map]
  refine forall_congr' fun page => forall_congr' fun _ => ?_
  have hl := noErrors_findLast? Library.name page.name context.libraries
    fun l => not_noErrors_duplicatePage page l.line
  split <;> rename_i h
  · have hm : page.name ∈ p.libraries.map (·.name) := by simpa using h
    exact ⟨fun _ => .inl hm, fun _ => noErrors_nil⟩
  · have hm : page.name ∉ p.libraries.map (·.name) := by simpa using h
    exact ⟨fun h => .inr (hl.1 h), fun h => hl.2 (h.resolve_left hm)⟩

theorem noErrors_checkLibraryPages {l : Library} :
    NoErrors (checkLibraryPages all l) ↔
      l.name ∉ all.pages.map (·.name) ∧
      ∀ page, l.forPage = some page → page ∈ all.pages.map (·.name) := by
  have hl := noErrors_findLast? Page.name l.name all.pages
    fun p => not_noErrors_duplicateLibrary l p.line
  rw [checkLibraryPages, noErrors_append, Project.page?, hl]
  refine and_congr_right fun _ => ?_
  cases l.forPage with
  | none => simp
  | some page =>
    simp only [Option.some.injEq, forall_eq', ← Project.hasPage_iff]
    split <;> rename_i h <;> simp [h, Problem.code]

/-- Names that are each defined once: those of a list have no other definition in it, and none in
    what stands around it. -/
theorem forall_count_eq_one_iff (around own : List String) :
    (∀ n ∈ own, (around ++ own).count n = 1) ↔ own.Nodup ∧ ∀ n ∈ own, n ∉ around := by
  rw [List.nodup_iff_count]
  constructor
  · intro h
    refine ⟨fun n => ?_, fun n hn ha => ?_⟩
    · by_cases hn : n ∈ own
      · have := h n hn; rw [List.count_append] at this; omega
      · rw [List.count_eq_zero.2 hn]; omega
    · have := h n hn
      have := List.count_pos_iff.2 hn
      have := List.count_pos_iff.2 ha
      rw [List.count_append] at *; omega
  · rintro ⟨h₁, h₂⟩ n hn
    have := h₁ n
    have := List.count_pos_iff.2 hn
    rw [List.count_append, List.count_eq_zero.2 (h₂ n hn)]; omega

theorem count_definedNames_extend (context : Project) (p : Program) (n : String) :
    (context.extend p).definedNames.count n =
      (context.definedNames ++ (p.pages.map (·.name) ++ p.libraries.map (·.name))).count n := by
  simp only [Project.definedNames, Project.extend, List.map_append, List.count_append]
  omega

/-- The declarations have no error: what `WellFormed` asks of them. -/
theorem noErrors_checkDeclarations {context : Project} {p : Program} :
    NoErrors (checkDeclarations context p) ↔
      (∀ n ∈ p.pages.map (·.name) ++ p.libraries.map (·.name),
        (context.extend p).definedNames.count n = 1) ∧
      (∀ page ∈ p.pages,
        (page.fields.map (·.name) ++ page.pageVariables.map (·.name)).Nodup ∧
        (page.actions.map (·.name)).Nodup) ∧
      (∀ l ∈ p.libraries, (l.actions.map (·.name)).Nodup) ∧
      ∀ l ∈ p.libraries, ∀ page, l.forPage = some page →
        page ∈ (context.extend p).pages.map (·.name) := by
  have hu := forall_count_eq_one_iff context.definedNames
    (p.pages.map (·.name) ++ p.libraries.map (·.name))
  simp only [← count_definedNames_extend] at hu
  rw [hu]
  simp only [checkDeclarations, noErrors_append, noErrors_checkPages, noErrors_checkPage,
    noErrors_checkPageLibraries, noErrors_checkLibraries, noErrors_flatMap,
    noErrors_checkLibraryPages, List.nodup_append, Project.definedNames, Project.extend,
    List.map_append, List.mem_append]
  grind

/-! ## Statements -/

/-- Findings about a statement itself, without the statements inside it. -/
def checkHere (all : Project) (o : Owner) (scope : List String) (s : Statement) : List Problem :=
  checkNames all o scope s ++
  match s with
  | .step line (.perform page action arguments) =>
    checkPerform all o line page action arguments.length
  | .forEach line _ collection _ =>
    if scope.contains collection then [] else [.undefinedCollection collection line]
  | _ => []

mutual

theorem checkStatement_eq (all : Project) (o : Owner) (scope : List String) :
    ∀ s : Statement, checkStatement all o scope s =
      (Statement.inScope scope s.flatten).flatMap fun x => checkHere all o x.1 x.2
  | .step line s => by
    cases s <;> simp [checkStatement, Statement.flatten, Statement.inScope, checkHere]
  | .branch line condition thenBody elseBody => by
    simp [checkStatement, Statement.flatten, Statement.inScope, Statement.inScope_append, checkHere,
      Statement.binds?, Statement.boundAll_eq, checkBody_eq all o _ thenBody,
      checkBody_eq all o _ elseBody]
  | .repeat_ line times body => by
    simp [checkStatement, Statement.flatten, Statement.inScope, checkHere, Statement.binds?,
      checkBody_eq all o _ body]
  | .forEach line item collection body => by
    simp [checkStatement, Statement.flatten, Statement.inScope, checkHere, Statement.binds?,
      checkBody_eq all o _ body]

/-- The findings about a body are those about each of its statements, in reading order. -/
theorem checkBody_eq (all : Project) (o : Owner) (scope : List String) :
    ∀ body : List Statement, checkBody all o scope body =
      (Statement.inScope scope (Statement.flattenAll body)).flatMap fun x => checkHere all o x.1 x.2
  | [] => rfl
  | s :: rest => by
    simp [checkBody, Statement.flattenAll, Statement.inScope_append,
      checkStatement_eq all o scope s, checkBody_eq all o _ rest, Statement.bound_eq]

end

section
variable {o : Owner} {at_ : Place} {scope : List String}
  (ho : ∀ q, o.reaches all q = true ↔ at_.Reaches all q) {page action : String} {s : Statement}
  {count : Nat}

theorem not_noErrors_unreachable {q : String} : ¬NoErrors [o.unreachable all q line] := by
  simp [Owner.unreachable, Problem.code]

include ho in
theorem noErrors_checkTarget {t : Target} :
    NoErrors (checkTarget all o scope line t) ↔
      ∀ q f, .element (some q) f = t → q ∈ scope ∨ at_.Reaches all q := by
  unfold checkTarget
  split
  · next q field =>
    have hf : (∀ q' f, Target.element (some q') f = .element (some q) field →
        q' ∈ scope ∨ at_.Reaches all q') ↔ q ∈ scope ∨ o.reaches all q = true := by
      simp [ho]
    rw [hf]
    split
    · next h => simp_all
    · next h =>
      have hs : q ∉ scope := by simpa using h
      split
      · next hr => simp_all [not_noErrors_unreachable, -noErrors_singleton]
      · next hr =>
        have hr' : o.reaches all q = true := by simpa using hr
        simp only [hr', or_true, iff_true]
        split
        · exact noErrors_nil
        · split <;> simp [Problem.code]
  · next h => exact ⟨fun _ q f ht => (h q f ht.symm).elim, fun _ => noErrors_nil⟩

theorem noErrors_checkReference {r : Option String × String} :
    NoErrors (checkReference all scope line r) := by
  unfold checkReference
  split
  · split <;> simp [Problem.code]
  · split
    · exact noErrors_nil
    · split
      · simp [Problem.code]
      · split <;> simp [Problem.code]

include ho in
theorem noErrors_checkNames :
    NoErrors (checkNames all o scope s) ↔
      ∀ q f, s.HasTarget (.element (some q) f) → q ∈ scope ∨ at_.Reaches all q := by
  simp only [checkNames, noErrors_append, noErrors_flatMap, noErrors_checkReference, implies_true,
    and_true, noErrors_checkTarget ho, Statement.mem_targets_iff]
  exact ⟨fun h q f ht => h _ ht q f rfl, fun h t ht q f e => h q f (e ▸ ht)⟩

theorem noErrors_checkCall {actions : List Action} :
    NoErrors (checkCall page action count line actions
      (findLast? (·.name == action) actions)) ↔ Takes actions action count := by
  simp only [Takes, ← findLast?_name_eq_some_iff]
  unfold checkCall
  split
  · next h => simp [h, Problem.code]
  · next a h => split <;> simp_all [Problem.code]

include ho in
theorem noErrors_checkPerform :
    NoErrors (checkPerform all o line page action count) ↔
      Callable all at_ page action count := by
  have hc : Callable all at_ page action count ↔
      (∃ l, all.library? page = some l ∧ Takes l.actions action count) ∨
      all.library? page = none ∧ o.reaches all page = true ∧
        ∀ p, all.page? page = some p → Takes p.actions action count := by
    simp only [Callable, ← findLast?_name_eq_some_iff, ← findLast?_name_eq_none_iff, ho]
    rfl
  rw [hc, checkPerform]
  cases all.library? page with
  | some l => simp [Library.action?, noErrors_checkCall]
  | none =>
    cases hr : o.reaches all page with
    | false => simp [not_noErrors_unreachable, -noErrors_singleton]
    | true => cases all.page? page <;> simp [Page.action?, noErrors_checkCall]

include ho in
theorem noErrors_checkHere : NoErrors (checkHere all o scope s) ↔ s.Proper all at_ scope := by
  unfold checkHere
  rw [noErrors_append, noErrors_checkNames ho]
  constructor
  · rintro ⟨ht, h⟩
    refine ⟨ht, ?_, ?_⟩
    · rintro line owner action arguments rfl
      exact (noErrors_checkPerform ho).1 h
    · rintro line item collection body rfl
      by_cases hc : collection ∈ scope
      · exact hc
      · simp [hc, Problem.code] at h
  · rintro ⟨ht, hp, hf⟩
    refine ⟨ht, ?_⟩
    split
    · exact (noErrors_checkPerform ho).2 (hp _ _ _ _ rfl)
    · simp [hf _ _ _ _ rfl]
    · exact noErrors_nil

include ho in
theorem noErrors_checkBody {body : List Statement} :
    NoErrors (checkBody all o scope body) ↔ PlacedBody.Proper all ⟨at_, scope, body⟩ := by
  rw [checkBody_eq, noErrors_flatMap]
  simp only [Prod.forall, noErrors_checkHere ho, Statement.mem_inScope, PlacedBody.Proper]
  constructor
  · exact fun h front s behind e => h _ s ⟨front, behind, e, rfl⟩
  · rintro h _ s ⟨front, behind, e, rfl⟩
    exact h front s behind e

end

/-! ## Programs -/

theorem reaches_action {name : String} {defaultPage : Option String} (q : String) :
    Owner.reaches all ⟨name, none, defaultPage⟩ q = true ↔
      (Place.action defaultPage).Reaches all q := by
  simp [Owner.reaches, Place.Reaches, ← Project.hasPage_iff, or_comm]

theorem reaches_feature {f : Feature} (q : String) :
    (featureOwner f).reaches all q = true ↔
      (Place.feature (f.uses.map (·.name))).Reaches all q := by
  simp [Owner.reaches, Place.Reaches, featureOwner]

theorem noErrors_checkActions {name : String} {defaultPage : Option String}
    {actions : List Action} :
    NoErrors (checkActions all ⟨name, none, defaultPage⟩ actions) ↔
      ∀ b ∈ actionBodies defaultPage actions, b.Proper all := by
  simp [checkActions, actionBodies, noErrors_checkBody reaches_action]

theorem noErrors_checkUses {uses : List Use} :
    NoErrors (checkUses all uses) ↔ ∀ u ∈ uses, u.name ∈ all.definedNames := by
  simp only [checkUses, noErrors_map, List.mem_filter, Project.definedNames, List.mem_append,
    ← Project.hasPage_iff, ← Project.hasLibrary_iff]
  refine forall_congr' fun u => ?_
  cases all.hasPage u.name <;> cases all.hasLibrary u.name <;> simp [Problem.code]

theorem noErrors_checkFeature {f : Feature} :
    NoErrors (checkFeature all f) ↔
      (∀ u ∈ f.uses, u.name ∈ all.definedNames) ∧ ∀ b ∈ f.placedBodies, b.Proper all := by
  simp only [checkFeature, noErrors_append, noErrors_flatMap, noErrors_checkUses,
    noErrors_checkBody reaches_feature, Feature.placedBodies, List.map_append, List.mem_append,
    List.map_map, or_imp, forall_and, List.forall_mem_map, Function.comp_apply, and_assoc]

theorem noErrors_checkBodies {p : Program} :
    NoErrors (checkBodies all p) ↔
      (∀ f ∈ p.features, ∀ u ∈ f.uses, u.name ∈ all.definedNames) ∧
      ∀ b ∈ p.placedBodies, b.Proper all := by
  simp only [checkBodies, noErrors_append, noErrors_flatMap, noErrors_checkActions,
    noErrors_checkFeature, Program.placedBodies, List.mem_append, List.mem_flatMap]
  grind

/-- The checks of declarations and of bodies together ask for what makes a program well-formed. -/
theorem noErrors_validate {context : Project} {p : Program} :
    NoErrors (validate context p) ↔ WellFormed context p := by
  rw [validate, noErrors_append, noErrors_checkDeclarations, noErrors_checkBodies]
  constructor
  · rintro ⟨⟨hu, hp, hl, hf⟩, hs, hb⟩
    exact ⟨hu, hp, hl, hf, hs, hb⟩
  · rintro ⟨hu, hp, hl, hf, hs, hb⟩
    exact ⟨⟨hu, hp, hl, hf⟩, hs, hb⟩

end Validation

open Validation in
/-- **Validity**: the checks find no error in exactly the well-formed programs. -/
theorem valid_iff_wellFormed (context : Project) (p : Program) :
    (Report.ofProblems (validate context p)).valid = true ↔ WellFormed context p := by
  rw [valid_iff_noErrors, noErrors_validate]

end UiScenario
