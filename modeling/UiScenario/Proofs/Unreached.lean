import UiScenario.Proofs.Fixtures
import UiScenario.Proofs.Reachability

/-!
Definitions that are not reached have no influence. While code is generated, pages and libraries are
looked up only under names that the program needs, or that the first value of a page's variable
mentions.
-/

namespace UiScenario

/-! ## Names that are asked for -/

/-- Projects define the same pages and libraries under the names of a set. -/
structure Project.AgreeOn (S : Set String) (all other : Project) : Prop where
  page? : ∀ m ∈ S, other.page? m = all.page? m
  library? : ∀ m ∈ S, other.library? m = all.library? m

section
variable (S : Set String)

/-- The qualifiers of a value are in a set. -/
def Expression.AsksIn (e : Expression) : Prop :=
  ∀ m name, .ref (some m) name ∈ e.parts → m ∈ S

/-- The page that a target names, or the qualifiers of its selector, are in a set. -/
def Target.AsksIn : Target → Prop
  | element page _ => ∀ m ∈ page, m ∈ S
  | selector e => e.AsksIn S
  | unset => True

/-- The pages and libraries that a statement itself asks for are in a set. -/
structure Statement.AsksIn (s : Statement) : Prop where
  targets : ∀ t ∈ s.targets, t.AsksIn S
  expressions : ∀ e ∈ s.expressions, e.AsksIn S
  performed : ∀ line owner action arguments,
    s = .step line (.perform owner action arguments) → owner ∈ S

end

/-- The names that a statement names itself, and the qualifiers of its selectors, are all that it
    asks for. -/
theorem Statement.asksIn_of_owners {S : Set String} {s : Statement} (ho : ∀ m ∈ s.owners, m ∈ S)
    (he : ∀ e, .selector e ∈ s.targets → e.AsksIn S) : s.AsksIn S := by
  refine ⟨fun t ht => ?_, fun e hm m name hr => ?_, fun line owner action arguments heq => ?_⟩
  · cases t with
    | element page field =>
      rintro m rfl
      exact ho m (mem_owners_iff.2 (.target (mem_targets_iff.1 ht)))
    | selector e => exact he e ht
    | unset => trivial
  · exact ho m (mem_owners_iff.2 (.value (mem_expressions_iff.1 hm) hr))
  · subst heq
    exact ho owner (mem_owners_iff.2 .owner)

namespace Generate

variable {v : Primary} {n : String} {m : String} {b : Setting}

open Code (Expr)

/-- The setting in another project. -/
def Setting.within (b : Setting) (other : Project) : Setting :=
  { b with all := other }

section
variable {S : Set String} {other : Project} (h : b.all.AgreeOn S other)
include h

/-! ## Values -/

theorem primary_congr (hv : ∀ m name, v = .ref (some m) name → m ∈ S) (p : Progress) :
    primary (b.within other) p v = primary b p v := by
  cases v with
  | ref qualifier name =>
    cases qualifier with
    | none => rfl
    | some q =>
      have hq : other.page? q = b.all.page? q := h.page? q (hv q name rfl)
      simp only [primary, elementPage?, Setting.within, hq]
  | _ => rfl

theorem primaryText_congr (hv : ∀ m name, v = .ref (some m) name → m ∈ S) (p : Progress) :
    primaryText (b.within other) p v = primaryText b p v := by
  cases v <;> simp only [primaryText, primary_congr h hv]

theorem primaryReads_congr (hv : ∀ m name, v = .ref (some m) name → m ∈ S) (p : Progress) :
    primaryReads (b.within other) p v = primaryReads b p v := by
  cases v with
  | ref qualifier name =>
    cases qualifier with
    | none => rfl
    | some q =>
      have hq : other.page? q = b.all.page? q := h.page? q (hv q name rfl)
      simp only [primaryReads, elementPage?, Setting.within, hq]
  | _ => rfl

variable {e : Expression} (he : e.AsksIn S)
include he

theorem expression_congr (p : Progress) :
    expression (b.within other) p e = expression b p e := by
  have hfirst := primary_congr h (fun m name hv => he m name (hv ▸ List.mem_cons_self)) p
  have hparts : e.parts.map (primaryText (b.within other) p) = e.parts.map (primaryText b p) :=
    List.map_congr_left fun v hv => primaryText_congr h (fun m name hr => he m name (hr ▸ hv)) p
  simp only [expression, hfirst, hparts]

theorem textOf_congr (p : Progress) : textOf (b.within other) p e = textOf b p e := by
  have hfirst := primaryText_congr h (fun m name hv => he m name (hv ▸ List.mem_cons_self)) p
  simp only [textOf, hfirst, expression_congr h he]

theorem readsElement_congr (p : Progress) :
    readsElement (b.within other) p e = readsElement b p e := by
  rw [Bool.eq_iff_iff, readsElement, readsElement, List.any_eq_true, List.any_eq_true]
  refine exists_congr fun v => and_congr_right fun hv => ?_
  rw [primaryReads_congr h fun m name hr => he m name (hr ▸ hv)]

theorem selectorLocator_congr (p : Progress) :
    selectorLocator (b.within other) p e = selectorLocator b p e := by
  unfold selectorLocator
  split
  · rfl
  · rw [textOf_congr h he]

theorem containing_congr (p : Progress) : containing (b.within other) p e = containing b p e := by
  unfold containing
  split
  · rfl
  · rw [textOf_congr h he]

theorem waitTime_congr (p : Progress) (unit : WaitUnit) :
    waitTime (b.within other) p e unit = waitTime b p e unit := by
  unfold waitTime
  dsimp only
  split
  · exact expression_congr h he p
  · rfl
  · rw [expression_congr h he]

omit he in
theorem screenshotOptions_congr {name : Option Expression} (hn : ∀ e ∈ name, e.AsksIn S)
    (p : Progress) : screenshotOptions (b.within other) p name = screenshotOptions b p name := by
  unfold screenshotOptions
  split
  · rfl
  · rfl
  · rw [expression_congr h (hn _ rfl)]

end

/-! ## Queries -/

section
variable {S : Set String} {other : Project} (h : b.all.AgreeOn S other)
include h

theorem conditionCode_congr {c : DataCondition} (hc : ∀ e ∈ c.value, e.AsksIn S) (p : Progress)
    (reads : Nat) : conditionCode (b.within other) p reads c = conditionCode b p reads c := by
  unfold conditionCode
  split
  · rfl
  · next e heq =>
    have he := hc e heq
    rw [readsElement_congr h he, expression_congr h he]

theorem joinedCode_congr {rest : List (LogicalOp × DataCondition)}
    (hc : ∀ c ∈ rest, ∀ e ∈ c.2.value, e.AsksIn S) (p : Progress) (left : Expr) (reads : Nat) :
    joinedCode (b.within other) p left reads rest = joinedCode b p left reads rest := by
  induction rest generalizing left reads with
  | nil => rfl
  | cons c rest ih =>
    have hrest := fun left reads => ih (fun c hc' => hc c (List.mem_cons_of_mem _ hc')) left reads
    simp only [joinedCode, conditionCode_congr h (hc c List.mem_cons_self), hrest]

theorem whereCode_congr {w : WhereClause} (hw : ∀ c ∈ w.conditions, ∀ e ∈ c.value, e.AsksIn S)
    (p : Progress) : whereCode (b.within other) p w = whereCode b p w := by
  have hfirst := conditionCode_congr h (hw w.first List.mem_cons_self)
  have hrest := joinedCode_congr h fun c hc =>
    hw c.2 (List.mem_cons_of_mem _ (List.mem_map_of_mem hc))
  simp only [whereCode, hfirst, hrest]

theorem queryCode_congr {q : DataQuery} (hq : ∀ e ∈ q.values, e.AsksIn S) (p : Progress) :
    queryCode (b.within other) p q = queryCode b p q := by
  unfold queryCode
  split
  · rfl
  · next w heq =>
    have hw : ∀ c ∈ w.conditions, ∀ e ∈ c.value, e.AsksIn S := fun c hc e he => by
      refine hq e (List.mem_filterMap.2 ⟨c, ?_, he⟩)
      rw [DataQuery.conditions, heq]
      exact hc
    rw [whereCode_congr h hw]

end

/-! ## Elements -/

/-- The pages whose fields are meant by names alone are in a set. -/
def Setting.AsksIn (S : Set String) (b : Setting) : Prop :=
  ∀ m ∈ b.defaultPage.toList ++ b.uses, m ∈ S

section
variable {S : Set String} {other : Project} (h : b.all.AgreeOn S other) (hb : b.AsksIn S)
include h hb

theorem nameLocator_congr (p : Progress) (name : String) :
    nameLocator (b.within other) p name = nameLocator b p name := by
  have hpages : (b.defaultPage.toList ++ b.uses).filterMap other.page? =
      (b.defaultPage.toList ++ b.uses).filterMap b.all.page? :=
    List.filterMap_congr fun m hm => h.page? m (hb m hm)
  simp only [nameLocator, Setting.within, hpages]

theorem locator_congr {t : Target} (ht : t.AsksIn S) (p : Progress) (line : Nat) :
    locator (b.within other) p line t = locator b p line t := by
  cases t with
  | element page name =>
    cases page with
    | none => exact congrArg Except.ok (nameLocator_congr h hb p name)
    | some q =>
      have hq : other.page? q = b.all.page? q := h.page? q (ht q rfl)
      simp only [locator, Setting.within, hq]
  | selector e => exact congrArg Except.ok (selectorLocator_congr h ht p)
  | unset => rfl

theorem assertion_congr {a : Assertion} (ht : ∀ t ∈ a.targets, t.AsksIn S)
    (he : ∀ e ∈ a.expressions, e.AsksIn S) (p : Progress) (line : Nat) :
    assertion (b.within other) p line a = assertion b p line a := by
  cases a <;>
    simp only [Assertion.targets, Assertion.expressions, List.forall_mem_cons, List.not_mem_nil,
      false_imp_iff, implies_true, and_true] at ht he <;>
    simp (disch := simp [*]) only [assertion, locator_congr h hb, expression_congr h,
      textOf_congr h, containing_congr h]

theorem condition_congr {line : Nat} {c : Condition} {thenBody elseBody : List Statement}
    (hs : (Statement.branch line c thenBody elseBody).AsksIn S) (p : Progress) :
    condition (b.within other) p line c = condition b p line c := by
  have ht := hs.targets
  have he := hs.expressions
  cases c <;>
    simp only [Statement.targets, Statement.expressions, List.forall_mem_cons, List.not_mem_nil,
      false_imp_iff, implies_true, and_true] at ht he <;>
    simp (disch := simp [*]) only [condition, locator_congr h hb, expression_congr h]

end

theorem checkAction_congr {S : Set String} {all other : Project} (h : all.AgreeOn S other)
    {owner : String} (ho : owner ∈ S) (line : Nat) (action : String) (count : Nat) :
    checkAction other line owner action count = checkAction all line owner action count := by
  simp only [checkAction, h.page? owner ho, h.library? owner ho]

/-! ## Statements -/

section
variable {S : Set String} {other : Project} (h : b.all.AgreeOn S other) (hb : b.AsksIn S)
include h hb

theorem step_congr {line : Nat} {s : Step} (hs : (Statement.step line s).AsksIn S) :
    step (b.within other) line s = step b line s := by
  have ht : ∀ t ∈ s.targets, t.AsksIn S := hs.targets
  have he : ∀ e ∈ s.expressions, e.AsksIn S := hs.expressions
  -- the steps with values that may be missing, or with a lookup of their own, come first
  cases s with
  | screenshot name =>
    have hn : ∀ e ∈ name, e.AsksIn S := fun e hm => he e (Option.mem_toList.2 hm)
    simp only [step, screenshotOptions_congr h hn]
  | switchToNewTab url =>
    cases url with
    | none => rfl
    | some e => simp only [step, Option.map_some, expression_congr h (he e List.mem_cons_self)]
  | acceptDialog prompt =>
    cases prompt with
    | none => rfl
    | some e => simp only [step, Option.map_some, textOf_congr h (he e List.mem_cons_self)]
  | verify a => simp only [step, assertion_congr h hb ht he]
  | perform owner action arguments =>
    have ho : owner ∈ S := hs.performed line owner action arguments rfl
    have hcode : ∀ p, arguments.map (expression (b.within other) p) =
        arguments.map (expression b p) :=
      fun p => List.map_congr_left fun e hm => expression_congr h (he e hm) p
    have hcheck : checkAction (b.within other).all line owner action arguments.length =
        checkAction b.all line owner action arguments.length := checkAction_congr h ho ..
    simp only [step, hcode, hcheck]
  | query q =>
    simp only [step, queryCode_congr h he]
    rfl
  | declare kind name e =>
    simp only [step, expression_congr h (he e List.mem_cons_self)]
    rfl
  | _ =>
    simp only [Step.targets, Step.expressions, List.forall_mem_cons, List.not_mem_nil,
      false_imp_iff, implies_true, and_true] at ht he
    simp (disch := simp [*]) only [step, locator_congr h hb, expression_congr h,
      textOf_congr h, waitTime_congr h]

end

mutual

theorem statement_congr {S : Set String} {other : Project} (h : b.all.AgreeOn S other)
    (hb : b.AsksIn S) (depth : Nat) :
    ∀ s : Statement, (∀ t ∈ s.flatten, t.AsksIn S) →
      statement (b.within other) depth s = statement b depth s
  | .step line s, hs => by
    rw [statement, statement, step_congr h hb (hs _ (Statement.mem_flatten_self _))]
  | .branch line c thenBody elseBody, hs => by
    have hc := condition_congr h hb (hs _ (Statement.mem_flatten_self _))
    have hthen := statements_congr h hb depth thenBody fun t ht =>
      hs t (by simp [Statement.flatten, ht])
    have helse := statements_congr h hb depth elseBody fun t ht =>
      hs t (by simp [Statement.flatten, ht])
    simp only [statement, hc, hthen, helse]
  | .repeat_ line times body, hs => by
    have he := (hs _ (Statement.mem_flatten_self _)).expressions times List.mem_cons_self
    have hbody := statements_congr h hb (depth + 1) body fun t ht =>
      hs t (by simp [Statement.flatten, ht])
    simp only [statement, expression_congr h he, hbody]
  | .forEach line item collection body, hs => by
    have hbody := statements_congr h hb depth body fun t ht =>
      hs t (by simp [Statement.flatten, ht])
    simp only [statement, hbody]

theorem statements_congr {S : Set String} {other : Project} (h : b.all.AgreeOn S other)
    (hb : b.AsksIn S) (depth : Nat) :
    ∀ body : List Statement, (∀ t ∈ Statement.flattenAll body, t.AsksIn S) →
      statements (b.within other) depth body = statements b depth body
  | [], _ => rfl
  | s :: rest, hs => by
    have hfirst := statement_congr h hb depth s fun t ht =>
      hs t (by simp [Statement.flattenAll, ht])
    have hrest := statements_congr h hb depth rest fun t ht =>
      hs t (by simp [Statement.flattenAll, ht])
    simp only [statements, hfirst, hrest]

end

/-! ## Objects and suites -/

theorem mapM_congr {ε α β : Type} {f g : α → Except ε β} {xs : List α}
    (h : ∀ x ∈ xs, f x = g x) : xs.mapM f = xs.mapM g := by
  induction xs with
  | nil => rfl
  | cons x xs ih =>
    rw [List.mapM_cons, List.mapM_cons, h x List.mem_cons_self,
      ih fun y hy => h y (List.mem_cons_of_mem _ hy)]

section
variable {S : Set String} {all other : Project} (h : all.AgreeOn S other)
include h

/-- A body that asks for names of a set has the same code in projects that agree on them. -/
theorem body_congr {o : BodyOwner} (ho : ∀ m ∈ o.defaultPage.toList ++ o.uses, m ∈ S)
    {statementList : List Statement}
    (hs : ∀ t ∈ Statement.flattenAll statementList, t.AsksIn S) (bound : List String) :
    body other o bound statementList = body all o bound statementList := by
  have hcode := statements_congr
    (b := ⟨all, o.defaultPage, o.uses, hoistedNames bound statementList⟩) h ho 0 statementList hs
  simp only [Setting.within] at hcode
  simp only [body, hcode]

theorem actions_congr {page : Option String} (hpage : ∀ m ∈ page, m ∈ S) {actions : List Action}
    (hs : ∀ a ∈ actions, ∀ t ∈ Statement.flattenAll a.body, t.AsksIn S) :
    actions.mapM (method other page) = actions.mapM (method all page) := by
  refine mapM_congr fun a ha => ?_
  have ho : ∀ m ∈ page.toList ++ [], m ∈ S := by simpa using hpage
  simp only [method, body_congr h (o := ⟨page, []⟩) ho (hs a ha)]

theorem pageFixture_congr {page : Page} (hpage : page.name ∈ S)
    (hv : ∀ v ∈ page.pageVariables, v.value.AsksIn S)
    (hs : ∀ a ∈ page.actions, ∀ t ∈ Statement.flattenAll a.body, t.AsksIn S) :
    pageFixture other page = pageFixture all page := by
  have hvalues : page.pageVariables.map (fun v =>
        (v.name, expression ⟨other, some page.name, [], []⟩ (.start []) v.value)) =
      page.pageVariables.map fun v =>
        (v.name, expression ⟨all, some page.name, [], []⟩ (.start []) v.value) := by
    refine List.map_congr_left fun v hm => ?_
    exact congrArg (v.name, ·) (expression_congr (b := ⟨all, some page.name, [], []⟩) h (hv v hm) _)
  have hmethods : page.actions.mapM (method other (some page.name)) =
      page.actions.mapM (method all (some page.name)) :=
    actions_congr h (by simpa using hpage) hs
  simp only [pageFixture, hvalues, hmethods]

theorem libraryFixture_congr {l : Library} (hpage : ∀ m ∈ l.forPage, m ∈ S)
    (hs : ∀ a ∈ l.actions, ∀ t ∈ Statement.flattenAll a.body, t.AsksIn S) :
    libraryFixture other l = libraryFixture all l := by
  simp only [libraryFixture, actions_congr h hpage hs]

theorem suite_congr {f : Feature} {scenarios : List Scenario} (hu : ∀ u ∈ f.uses, u.name ∈ S)
    (hh : ∀ k ∈ f.hooks, ∀ t ∈ Statement.flattenAll k.body, t.AsksIn S)
    (hs : ∀ s ∈ scenarios, ∀ t ∈ Statement.flattenAll s.body, t.AsksIn S)
    (combinations : List Combination) :
    suite other combinations f scenarios = suite all combinations f scenarios := by
  have ho : ∀ m ∈ (none : Option String).toList ++ f.uses.map (·.name), m ∈ S := by simpa using hu
  have hhooks : f.hooks.mapM (hook other (f.uses.map (·.name))) =
      f.hooks.mapM (hook all (f.uses.map (·.name))) := by
    refine mapM_congr fun k hk => ?_
    simp only [hook, body_congr h (o := ⟨none, f.uses.map (·.name)⟩) ho (hh k hk)]
  have htests : scenarios.mapM (tests other f combinations) =
      scenarios.mapM (tests all f combinations) := by
    refine mapM_congr fun s hm => mapM_congr fun x _ => ?_
    simp only [test, testBody, body_congr h (o := ⟨none, f.uses.map (·.name)⟩) ho (hs s hm)]
  simp only [suite, hhooks, htests]

end

/-! ## Projects that differ in one name -/

end Generate

inductive Definition where
  | page (page : Page)
  | library (library : Library)

def Definition.name : Definition → String
  | page p => p.name
  | library l => l.name

namespace Project

/-- A project with a definition put in somewhere. -/
inductive Inserts : Definition → Project → Project → Prop
  | page (page : Page) (front behind : List Page) (libraries : List Library) :
      Inserts (.page page) ⟨front ++ behind, libraries⟩ ⟨front ++ page :: behind, libraries⟩
  | library (l : Library) (pages : List Page) (front behind : List Library) :
      Inserts (.library l) ⟨pages, front ++ behind⟩ ⟨pages, front ++ l :: behind⟩

/-- Projects have the same definitions under all names but one. -/
structure SameBut (n : String) (all other : Project) : Prop where
  pages : other.pages.filter (·.name != n) = all.pages.filter (·.name != n)
  libraries : other.libraries.filter (·.name != n) = all.libraries.filter (·.name != n)

theorem Inserts.sameBut {d : Definition} {context context' : Project}
    (h : Inserts d context context') (p : Program) :
    SameBut d.name (context.extend p) (context'.extend p) := by
  cases h <;> constructor <;> simp [extend, Definition.name]

/-- Of lists that differ only in elements of one name, the last element of another name is the
    same. -/
theorem findLast?_congr {α : Type} {name : α → String} {xs ys : List α}
    (h : ys.filter (name · != n) = xs.filter (name · != n)) (hm : m ≠ n) :
    findLast? (name · == m) ys = findLast? (name · == m) xs := by
  have hfilter : ∀ zs : List α,
      findLast? (name · == m) (zs.filter (name · != n)) = findLast? (name · == m) zs := by
    intro zs
    rw [findLast?, findLast?, ← List.filter_reverse, List.find?_filter]
    congr 1
    funext x
    by_cases hx : name x = m
    · simp [hx, hm]
    · simp [hx]
  rw [← hfilter ys, h, hfilter]

theorem SameBut.agreeOn {all other : Project} (h : SameBut n all other) :
    AgreeOn {m | m ≠ n} all other :=
  ⟨fun _ hm => findLast?_congr h.pages hm, fun _ hm => findLast?_congr h.libraries hm⟩

end Project

namespace Generate

section
variable {S : Set String} {all other : Project} (h : all.AgreeOn S other)
include h

theorem successors_congr (hm : m ∈ S) : successors other m = successors all m := by
  rw [successors, successors, h.page? m hm, h.library? m hm]

/-- Projects that agree on all that can be reached in one of them reach the same names. -/
theorem reached_congr {names : List String} (hS : ∀ m, Reached all names m → m ∈ S) :
    Reached other names m ↔ Reached all names m := by
  constructor
  · -- the name in front is reached in the first project as well, so both define the same under it
    intro hm
    induction hm with
    | given hm => exact .given hm
    | mentioned _ hn ih => exact .mentioned ih (successors_congr h (hS _ ih) ▸ hn)
  · intro hm
    induction hm with
    | given hm => exact .given hm
    | mentioned hm hn ih => exact .mentioned ih ((successors_congr h (hS _ hm)).symm ▸ hn)

end

theorem filter_eraseDups (keep : String → Bool) (xs : List String) :
    xs.eraseDups.filter keep = (xs.filter keep).eraseDups := by
  induction xs using List.reverseRecOn with
  | nil => rfl
  | append_singleton xs x ih =>
    rw [eraseDups_concat, List.filter_append]
    cases hx : keep x with
    | false => split <;> simp [hx, ih]
    | true =>
      have hone : [x].filter keep = [x] := by simp [hx]
      rw [hone, eraseDups_concat, ← ih]
      split <;> simp [*]

/-- The last definitions of the names that are kept do not hang on those of another name. -/
theorem lastDefinitions_congr {α : Type} {name : α → String} {xs ys : List α}
    (h : ys.filter (name · != n) = xs.filter (name · != n)) {keep keep' : List String}
    (hn : n ∉ keep) (hkeep : ∀ m, m ∈ keep' ↔ m ∈ keep) :
    lastDefinitions name ys keep' = lastDefinitions name xs keep := by
  have hcontains : keep'.contains = keep.contains := by
    funext m
    rw [Bool.eq_iff_iff, List.contains_iff_mem, List.contains_iff_mem, hkeep]
  have hsame : ∀ zs : List α, (zs.map name).filter keep.contains =
      ((zs.filter (name · != n)).map name).filter keep.contains := by
    intro zs
    rw [List.filter_map, List.filter_map, List.filter_filter]
    refine congrArg (List.map name) (List.filter_congr fun x _ => ?_)
    by_cases hx : name x = n
    · simp [hx, hn]
    · simp [hx]
  rw [lastDefinitions, lastDefinitions, hcontains, filter_eraseDups, filter_eraseDups, hsame ys, h,
    ← hsame]
  refine List.filterMap_congr fun m hm => Project.findLast?_congr h ?_
  rintro rfl
  rw [← filter_eraseDups, List.mem_filter, List.contains_iff_mem] at hm
  exact hn hm.2

section
variable {n : String} {all other : Project} {p : Program} (h : all.SameBut n other)
  (hn : n ∉ neededNames all p)
include h hn

theorem mem_neededNames_congr (m : String) :
    m ∈ neededNames other p ↔ m ∈ neededNames all p := by
  rw [neededNames, neededNames, mem_reachable_iff, mem_reachable_iff]
  refine reached_congr h.agreeOn fun k hk => ?_
  rintro rfl
  exact hn (mem_reachable_iff.2 hk)

theorem neededPages_congr : neededPages other p = neededPages all p :=
  lastDefinitions_congr h.pages hn (mem_neededNames_congr h hn)

theorem neededLibraries_congr : neededLibraries other p = neededLibraries all p :=
  lastDefinitions_congr h.libraries hn (mem_neededNames_congr h hn)

end

/-! ## Files -/

/-- A name qualifies no reference in a first value of a page's variable. -/
def InitialValuesAvoid (n : String) (pages : List Page) : Prop :=
  ∀ page ∈ pages, ∀ v ∈ page.pageVariables, ∀ r ∈ v.value.references, r.1 ≠ some n

instance (n : String) (pages : List Page) : Decidable (InitialValuesAvoid n pages) :=
  inferInstanceAs (Decidable (∀ page ∈ pages, ∀ v ∈ page.pageVariables,
    ∀ r ∈ v.value.references, r.1 ≠ some n))

/-- A name qualifies no reference in a selector. -/
def SelectorsAvoid (n : String) (bodies : List (List Statement)) : Prop :=
  ∀ body ∈ bodies, ∀ s ∈ Statement.flattenAll body, ∀ e, .selector e ∈ s.targets →
    ∀ r ∈ e.references, r.1 ≠ some n

theorem asksIn_of_references {e : Expression} (h : ∀ r ∈ e.references, r.1 ≠ some n) :
    e.AsksIn {m | m ≠ n} := by
  rintro m name hr rfl
  obtain ⟨r, hr, heq⟩ := Expression.exists_reference_iff.2 ⟨name, hr⟩
  exact h r hr heq

section
variable {n : String} {context context' : Project} {p : Program} {request : Request}
  (h : (context.extend p).SameBut n (context'.extend p))
  (hn : n ∉ neededNames (context.extend p) p)
  (hs : SelectorsAvoid n (writtenBodies (context.extend p) request p))

include hn in
theorem ne_of_needed (hm : m ∈ neededNames (context.extend p) p) : m ≠ n :=
  fun heq => hn (heq ▸ hm)

include hn hs in
/-- The statements that are written ask for needed names only. -/
theorem asksIn_of_writtenBodies : ∀ body ∈ writtenBodies (context.extend p) request p,
    ∀ s ∈ Statement.flattenAll body, s.AsksIn {m | m ≠ n} := by
  intro body hb s hm
  refine Statement.asksIn_of_owners (fun m ho => ?_) fun e he => ?_
  · exact ne_of_needed hn (needed_of_writtenBodies body hb s hm m ho)
  · exact asksIn_of_references (hs body hb s hm e he)

include h hn hs

theorem pageObjects_congr (hv : InitialValuesAvoid n (context.extend p).pages) :
    ((neededPages (context.extend p) p).filter hasObject).mapM (pageFixture (context'.extend p)) =
      ((neededPages (context.extend p) p).filter hasObject).mapM
        (pageFixture (context.extend p)) := by
  refine mapM_congr fun page hm => ?_
  have hm := (List.mem_filter.1 hm).1
  refine pageFixture_congr h.agreeOn (ne_of_needed hn (mem_neededPages_iff.1 hm).1) ?_ ?_
  · exact fun v hvm => asksIn_of_references (hv page (mem_of_mem_neededPages hm) v hvm)
  · exact (forall_writtenBodies.1 (asksIn_of_writtenBodies hn hs)).1 page hm

theorem libraryObjects_congr :
    (neededLibraries (context.extend p) p).mapM (libraryFixture (context'.extend p)) =
      (neededLibraries (context.extend p) p).mapM (libraryFixture (context.extend p)) := by
  refine mapM_congr fun l hm => ?_
  refine libraryFixture_congr h.agreeOn (fun m hf => ne_of_needed hn (needed_of_forPage hm hf)) ?_
  exact (forall_writtenBodies.1 (asksIn_of_writtenBodies hn hs)).2.1 l hm

theorem suites_congr :
    ((selectedScenarios request.selection p.features).mapM fun x =>
        suite (context'.extend p) request.combinations x.1 x.2) =
      (selectedScenarios request.selection p.features).mapM fun x =>
        suite (context.extend p) request.combinations x.1 x.2 := by
  refine mapM_congr fun x hx => ?_
  have hf := (mem_of_mem_selectedScenarios hx).1
  obtain ⟨hhooks, hscenarios⟩ :=
    (forall_writtenBodies.1 (asksIn_of_writtenBodies hn hs)).2.2 x hx
  refine suite_congr h.agreeOn (fun u hu => ?_) hhooks hscenarios _
  exact ne_of_needed hn (needed_of_use hf (List.mem_map_of_mem hu))

/-- What is generated does not hang on the definitions under a name that is not asked for. -/
theorem generate_congr (hv : InitialValuesAvoid n (context.extend p).pages) :
    generate context' request p = generate context request p := by
  simp only [generate, neededPages_congr h hn, neededLibraries_congr h hn,
    pageObjects_congr h hn hs hv, libraryObjects_congr h hn hs, suites_congr h hn hs]

end

theorem selectorsAvoid_of_plain {bodies : List (List Statement)}
    (h : ∀ body ∈ bodies, ∀ s ∈ Statement.flattenAll body, ∀ t ∈ s.targets, t.Plain)
    (n : String) : SelectorsAvoid n bodies := by
  intro body hb s hs e he r hr
  obtain ⟨selector, rfl⟩ := h body hb s hs _ he
  cases selector <;> cases hr

/-- A definition that is put into the project changes nothing that is generated if the program does
    not need its name, and neither a first value of a page's variable nor a selector mentions it. -/
theorem generate_congr_of_inserts {d : Definition} {context context' : Project}
    (hd : Project.Inserts d context context') {request : Request} {p : Program}
    (hn : d.name ∉ neededNames (context.extend p) p)
    (hv : InitialValuesAvoid d.name (context.extend p).pages)
    (hs : SelectorsAvoid d.name (writtenBodies (context.extend p) request p)) :
    generate context' request p = generate context request p :=
  generate_congr (hd.sameBut p) hn hs hv

/-- **Definitions out of reach**: a definition that is put into the project changes nothing that is
    generated, be it a file or a violation, if the program does not need its name and no first value
    of a page's variable mentions it. The selectors of scripts mention no pages. -/
theorem generate_of_inserts {d : Definition} {sources : List String} {context' : Project}
    (hd : Project.Inserts d (parseProject sources) context') (request : Request)
    (tokens : List Token)
    (hn : d.name ∉ neededNames ((parseProject sources).extend (parse tokens).program)
      (parse tokens).program)
    (hv : InitialValuesAvoid d.name ((parseProject sources).extend (parse tokens).program).pages) :
    generate context' request (parse tokens).program =
      generate (parseProject sources) request (parse tokens).program :=
  generate_congr_of_inserts hd hn hv
    (selectorsAvoid_of_plain (plain_of_parse sources request tokens) d.name)

/-- A page for which nothing can be generated. -/
def stockPage : Page where
  name := "Stock"
  url := some "/stock"
  fields := []
  pageVariables := []
  actions := [⟨"count", [], [.step 1 (.click (.element (some "Shelf") "item"))], 1⟩]
  line := 1

/-- A script with a page that is not defined. -/
def shelfScript : String :=
  "FEATURE Store \x7b SCENARIO \"counts\" \x7b CLICK Shelf.item \x7d \x7d"

-- between other pages, and in an empty project: the file stays as it is, and so does the violation
theorem generate_of_inserts_stock :
    (∃ context', Project.Inserts (.page stockPage) tillProject context' ∧
      "Stock" ∉ neededNames (tillProject.extend tillProgram) tillProgram ∧
      InitialValuesAvoid "Stock" (tillProject.extend tillProgram).pages ∧
      ∃ g, generate tillProject ⟨none, []⟩ tillProgram = .ok g ∧
        generate context' ⟨none, []⟩ tillProgram = .ok g) ∧
    Project.Inserts (.page stockPage) (parseProject []) ⟨[stockPage], []⟩ ∧
    "Stock" ∉ neededNames ((parseProject []).extend (parseText shelfScript).program)
      (parseText shelfScript).program ∧
    InitialValuesAvoid "Stock" ((parseProject []).extend (parseText shelfScript).program).pages ∧
    ∃ v, generate (parseProject []) ⟨none, []⟩ (parseText shelfScript).program = .error v ∧
      generate ⟨[stockPage], []⟩ ⟨none, []⟩ (parseText shelfScript).program = .error v := by
  refine ⟨?_, ?_⟩
  · have hd := Project.Inserts.page stockPage (tillProject.pages.take 1)
      (tillProject.pages.drop 1) tillProject.libraries
    rw [List.take_append_drop] at hd
    obtain ⟨hnames, hvariables, hrun⟩ := generate_till
    obtain ⟨g, hg, -⟩ := (Option.any_eq_true _ _).1 hrun
    have hg := toOption_eq_some.1 hg
    have hneeded : "Stock" ∉ neededNames (tillProject.extend tillProgram) tillProgram := by
      rw [hnames]
      decide
    have hvalues : InitialValuesAvoid "Stock" (tillProject.extend tillProgram).pages := by
      intro page hm v hv
      have hnone := List.flatMap_eq_nil_iff.1 hvariables page hm
      rw [hnone] at hv
      cases hv
    refine ⟨_, hd, hneeded, hvalues, g, hg, ?_⟩
    rw [← hg]
    exact generate_of_inserts hd ⟨none, []⟩ _ hneeded hvalues
  · have hd : Project.Inserts (.page stockPage) (parseProject []) ⟨[stockPage], []⟩ :=
      .page stockPage [] [] []
    have hrun : "Stock" ∉ neededNames ((parseProject []).extend (parseText shelfScript).program)
          (parseText shelfScript).program ∧
        InitialValuesAvoid "Stock"
          ((parseProject []).extend (parseText shelfScript).program).pages ∧
        (generate (parseProject []) ⟨none, []⟩ (parseText shelfScript).program).toOption.isSome =
          false := by
      decide +kernel
    obtain ⟨hneeded, hvalues, hviolation⟩ := hrun
    obtain ⟨v, hv⟩ : ∃ v,
        generate (parseProject []) ⟨none, []⟩ (parseText shelfScript).program = .error v := by
      cases hrun : generate (parseProject []) ⟨none, []⟩ (parseText shelfScript).program with
      | error v => exact ⟨v, rfl⟩
      | ok g => rw [hrun] at hviolation; cases hviolation
    refine ⟨hd, hneeded, hvalues, v, hv, ?_⟩
    rw [← hv]
    exact generate_of_inserts hd ⟨none, []⟩ _ hneeded hvalues

end Generate

end UiScenario
