import UiScenario.Generate.File
import UiScenario.Proofs.CodeScope
import UiScenario.Proofs.Resolution
import UiScenario.Proofs.Spelling

/-!
The names in generated code, wherever they occur. A property that holds of the names that code uses
of its own accord, of the root below which elements are found, and of what the script mentions holds
of every name that the code of a value, an element, a condition or a step has.
-/

namespace UiScenario

namespace Code

/-- A name in code, where it is bound, where it is used, or where a member of it is read. -/
inductive Occurrence where
  | binding (name : String)
  | use (name : String)
  | object (name : String)
deriving DecidableEq

namespace Expr

def name? : Expr → Option String
  | name n => some n
  | _ => none

@[simp]
theorem name?_name {n : String} : (name n).name? = some n :=
  rfl

@[simp]
theorem name?_call {f : Expr} {arguments : List Expr} : (call f arguments).name? = none :=
  rfl

@[simp]
theorem name?_member {o : Expr} {m : String} : (member o m).name? = none :=
  rfl

mutual

/-- The names in an expression. The parameter of a function is bound by it, and its members are
    those of the function alone. -/
@[simp]
def occurrences : Expr → List Occurrence
  | name n => [.use n]
  | text _ | integer _ | number _ | flag _ | null | containing _ | regex _ => []
  | array items => occurrencesAll items
  | object members => memberOccurrences members
  | member o _ => o.name?.toList.map .object ++ occurrences o
  | index o i => occurrences o ++ occurrences i
  | call f arguments => occurrences f ++ occurrencesAll arguments
  | new f arguments => .use f :: occurrencesAll arguments
  | await e | not e | paren e => occurrences e
  | binary _ l r => occurrences l ++ occurrences r
  | arrow p e => .binding p :: (occurrences e).filter (· != .object p)
  | procedure steps => occurrencesAll steps

@[simp]
def occurrencesAll : List Expr → List Occurrence
  | [] => []
  | e :: rest => occurrences e ++ occurrencesAll rest

@[simp]
def memberOccurrences : List (String × Expr) → List Occurrence
  | [] => []
  | (_, e) :: rest => occurrences e ++ memberOccurrences rest

end

@[simp]
theorem occurrencesAll_eq (es : List Expr) : occurrencesAll es = es.flatMap occurrences := by
  induction es with
  | nil => rfl
  | cons e rest ih => simp [ih]

@[simp]
theorem memberOccurrences_eq (ms : List (String × Expr)) :
    memberOccurrences ms = ms.flatMap (·.2.occurrences) := by
  induction ms with
  | nil => rfl
  | cons m rest ih => simp [ih]

@[simp]
theorem occurrences_sum (es : List Expr) : (sum es).occurrences = es.flatMap occurrences := by
  have hfold : ∀ (rest : List Expr) (e : Expr),
      (rest.foldl (binary .add) e).occurrences = e.occurrences ++ rest.flatMap occurrences := by
    intro rest
    induction rest with
    | nil => simp
    | cons r rest ih => simp [ih]
  cases es with
  | nil => rfl
  | cons e rest => exact hfold rest e

mutual

/-- An expression uses the names that it reads. -/
theorem use_mem_occurrences {x : String} : ∀ e : Expr, x ∈ e.names → .use x ∈ e.occurrences
  | name n => by simp
  | text _ | integer _ | number _ | flag _ | null | containing _ | regex _ => by simp
  | array items | procedure items => use_mem_occurrencesAll items
  | object members => use_mem_memberOccurrences members
  | member o _ => fun h => List.mem_append_right _ (use_mem_occurrences o h)
  | await o | not o | paren o => use_mem_occurrences o
  | index l r | binary _ l r => fun h => List.mem_append.2
      ((List.mem_append.1 h).imp (use_mem_occurrences l) (use_mem_occurrences r))
  | call f arguments => fun h => List.mem_append.2
      ((List.mem_append.1 h).imp (use_mem_occurrences f) (use_mem_occurrencesAll arguments))
  | new f arguments => fun h => List.mem_cons.2
      ((List.mem_cons.1 h).imp (congrArg _) (use_mem_occurrencesAll arguments))
  | arrow p e => fun h => List.mem_cons_of_mem _
      (List.mem_filter.2 ⟨use_mem_occurrences e (List.mem_filter.1 h).1, rfl⟩)

theorem use_mem_occurrencesAll {x : String} :
    ∀ es : List Expr, x ∈ namesAll es → .use x ∈ occurrencesAll es
  | [] => by simp
  | e :: rest => fun h => List.mem_append.2
      ((List.mem_append.1 h).imp (use_mem_occurrences e) (use_mem_occurrencesAll rest))

theorem use_mem_memberOccurrences {x : String} :
    ∀ ms : List (String × Expr), x ∈ memberNames ms → .use x ∈ memberOccurrences ms
  | [] => by simp
  | (_, e) :: rest => fun h => List.mem_append.2
      ((List.mem_append.1 h).imp (use_mem_occurrences e) (use_mem_memberOccurrences rest))

end

/-- Every name in an expression has a property, as it occurs. -/
def Only (P : Occurrence → Prop) (e : Expr) : Prop :=
  ∀ o ∈ e.occurrences, P o

section
variable {P Q : Occurrence → Prop} {e : Expr}

theorem Only.mono (h : e.Only P) (hpq : ∀ o, P o → Q o) : e.Only Q :=
  fun o ho => hpq o (h o ho)

theorem Only.invoke {method : String} {arguments : List Expr} (h : e.Only P)
    (hn : ∀ n, e.name? = some n → P (.object n)) (ha : ∀ a ∈ arguments, a.Only P) :
    (Expr.invoke e method arguments).Only P := by
  simp only [Only, Expr.invoke, occurrences, occurrencesAll_eq, List.forall_mem_append,
    List.forall_mem_map, List.mem_flatMap, Option.mem_toList]
  exact ⟨⟨hn, h⟩, fun o ⟨a, hm, ho⟩ => ha a hm o ho⟩

theorem Only.arrow {p : String} (h : e.Only P) (hp : P (.binding p)) : (Expr.arrow p e).Only P :=
  List.forall_mem_cons.2 ⟨hp, fun o ho => h o (List.mem_filter.1 ho).1⟩

end

end Expr

end Code

/-! ## What scripts mention -/

def Target.lone? : Target → Option String
  | element none name => some name
  | _ => none

/-- The pages and libraries that a value names. -/
def Expression.qualifiers (e : Expression) : List String :=
  e.references.filterMap (·.1)

/-- The page that a target names, and those in its selector. -/
def Target.qualifiers : Target → List String
  | element page _ => page.toList
  | selector e => e.qualifiers
  | unset => []

namespace Step

/-- What the code of a step calls the parameter of a function. -/
def locals : Step → List String
  | acceptDialog _ | dismissDialog => ["dialog"]
  | _ => []

/-- What the code of a step takes from its surroundings, apart from what all code takes. -/
def globals : Step → List String
  | log _ => ["console"]
  | clearStorage => ["localStorage", "sessionStorage"]
  | _ => []

end Step

namespace Condition

/-- What the code of a condition calls the parameter of a function. -/
def locals : Condition → List String
  | state _ _ .focused => ["el"]
  | _ => []

/-- What the code of a condition takes from its surroundings, apart from what all code takes. -/
def globals : Condition → List String
  | state _ _ .focused => ["document"]
  | _ => []

end Condition

/-- Whether a step enters a frame. -/
def Step.entersFrame : Step → Bool
  | switchToFrame _ => true
  | _ => false

namespace Statement

/-- What the code of a statement itself calls the parameter of a function. -/
def locals : Statement → List String
  | step _ s => s.locals
  | branch _ c _ _ => c.locals
  | _ => []

/-- What the code of a statement itself takes from its surroundings, apart from what all code takes.
-/
def globals : Statement → List String
  | step _ s => s.globals
  | branch _ c _ _ => c.globals
  | _ => []

theorem locals_subset (s : Statement) : s.locals ⊆ ["dialog", "el"] := by
  unfold locals
  split
  · unfold Step.locals; split <;> simp
  · unfold Condition.locals; split <;> simp
  · simp

theorem globals_subset (s : Statement) :
    s.globals ⊆ ["console", "localStorage", "sessionStorage", "document"] := by
  unfold globals
  split
  · unfold Step.globals; split <;> simp
  · unfold Condition.globals; split <;> simp
  · simp

/-- The names of the elements without a page that a statement acts on. -/
def loneNames (s : Statement) : List String :=
  s.targets.filterMap Target.lone?

theorem names_target_subset {s : Statement} {t : Target} (h : t ∈ s.targets) :
    t.names ⊆ s.names := by
  intro n hn
  cases s with
  | step _ s =>
    simp only [names, Step.names, List.mem_append, List.mem_flatMap]
    exact .inl (.inl ⟨t, h, hn⟩)
  | branch _ c _ _ =>
    cases c with
    | state => rwa [List.mem_singleton.1 h] at hn
    | comparison | truthy => cases h
  | repeat_ | forEach => cases h

theorem names_expression_subset {s : Statement} {e : Expression} (h : e ∈ s.expressions) :
    e.names ⊆ s.names := by
  intro n hn
  cases s with
  | step _ s =>
    simp only [names, Step.names, List.mem_append, List.mem_flatMap]
    exact .inl (.inr ⟨e, h, hn⟩)
  | branch _ c _ _ =>
    cases c with
    | state => cases h
    | comparison left _ right =>
      simp only [expressions, List.mem_cons, List.not_mem_nil, or_false] at h
      rcases h with rfl | rfl
      · exact List.mem_append_left _ hn
      · exact List.mem_append_right _ hn
    | truthy => rwa [List.mem_singleton.1 h] at hn
  | repeat_ => rwa [List.mem_singleton.1 h] at hn
  | forEach => cases h

end Statement

namespace Generate

open Code (Expr Occurrence)

variable {all : Project} {page : Page}

/-- The names that all code may use of its own accord. The last two are in conditions on rows: the
    row, and a value where there is none. -/
def givenNames : List String :=
  ["page", "String", "RegExp", "process", "expect", "testData", "$row", ""]

def givenObjects : List String :=
  ["page", "process", "testData"]

/-! ## Objects -/

/-- A name is that of a library, or of a page with more than fields. -/
def HasObject (all : Project) (n : String) : Prop :=
  (∃ l, all.library? n = some l) ∨ ∃ page, all.page? n = some page ∧ hasObject page = true

/-- Members of a name can be read: it is a variable, or it has an object if it has a definition. -/
def IsObject (b : Setting) (p : Progress) (n : String) : Prop :=
  n ∈ p.scope ∨ (n ∈ b.all.definedNames → HasObject b.all n)

theorem name_eq_of_page? {q : String} (hq : all.page? q = some page) : page.name = q := by
  obtain ⟨_, _, _, hn, _⟩ := findLast?_name_eq_some_iff.1 hq
  exact hn

theorem hasObject_of_pageVariable? {name : String} {v : PageVariable}
    (h : page.pageVariable? name = some v) : hasObject page = true := by
  have hne : page.pageVariables ≠ [] := by
    intro hnil
    rw [Page.pageVariable?, hnil] at h
    cases h
  simp [hasObject, hne]

/-- A member of a name is read as it is only if the name, if it has a definition, has an object. -/
theorem hasObject_of_elementPage?_eq_none {q name : String} (h : elementPage? all q name = none)
    (hd : q ∈ all.definedNames) : HasObject all q := by
  cases hp : all.page? q with
  | none =>
    left
    have hn : q ∉ all.pages.map (·.name) := findLast?_name_eq_none_iff.1 hp
    have hl := (List.mem_append.1 hd).resolve_left hn
    rwa [← findLast?_name_isSome_iff, Option.isSome_iff_exists] at hl
  | some page =>
    right
    rw [elementPage?, hp, Option.filter_eq_none_iff] at h
    obtain ⟨v, hv⟩ : ∃ v, page.pageVariable? name = some v := by
      simpa [Option.ne_none_iff_exists'] using h page rfl
    exact ⟨page, hp, hasObject_of_pageVariable? hv⟩

theorem hasObject_of_performable {owner action : String} {count : Nat}
    (h : Performable all owner action count) : HasObject all owner := by
  rcases h with ⟨l, hl, -⟩ | ⟨-, page, hp, a, ha, -⟩
  · exact Or.inl ⟨l, findLast?_name_eq_some_iff.2 hl⟩
  · refine Or.inr ⟨page, findLast?_name_eq_some_iff.2 hp, ?_⟩
    obtain ⟨front, behind, heq, -⟩ := ha
    have hne : page.actions ≠ [] := by simp [heq]
    simp [hasObject, hne]

/-! ## Properties of names -/

/-- A property holds of what code may use wherever it stands: the given names, the root below which
    elements are found, and the pages whose members are meant by names alone. -/
structure Allows (P : Occurrence → Prop) (b : Setting) (p : Progress) : Prop where
  given : ∀ x ∈ givenNames, P (.use x)
  members : ∀ x ∈ givenObjects, P (.object x)
  row : P (.binding "$row")
  root : P (.use p.root) ∧ P (.object p.root)
  owners : ∀ n ∈ b.defaultPage.toList ++ b.uses, P (.use n) ∧ (IsObject b p n → P (.object n))

/-- A property holds of what a value mentions. -/
structure AllowsValue (P : Occurrence → Prop) (b : Setting) (p : Progress) (e : Expression) :
    Prop where
  names : ∀ n ∈ e.names, P (.use n)
  objects : ∀ q ∈ e.qualifiers, IsObject b p q → P (.object q)

/-- A property holds of what a target mentions, and of the name of an element if it is a variable.
-/
structure AllowsTarget (P : Occurrence → Prop) (b : Setting) (p : Progress) (t : Target) :
    Prop where
  names : ∀ n ∈ t.names, P (.use n)
  objects : ∀ q ∈ t.qualifiers, IsObject b p q → P (.object q)
  lone : ∀ n ∈ t.lone?, n ∈ p.scope → P (.use n)

/-- A property holds of what the code of a statement itself has beyond that. -/
structure AllowsStatement (P : Occurrence → Prop) (b : Setting) (p : Progress) (s : Statement) :
    Prop where
  names : ∀ n ∈ s.names, P (.use n)
  objects : (∀ t ∈ s.targets, ∀ q ∈ t.qualifiers, IsObject b p q → P (.object q)) ∧
    (∀ e ∈ s.expressions, ∀ q ∈ e.qualifiers, IsObject b p q → P (.object q)) ∧
    ∀ line t, s = .step line t → ∀ q ∈ t.owner?, IsObject b p q → P (.object q)
  lone : ∀ n ∈ s.loneNames, n ∈ p.scope → P (.use n)
  locals : ∀ x ∈ s.locals, P (.binding x) ∧ P (.use x)
  globals : ∀ x ∈ s.globals, P (.use x) ∧ P (.object x)

namespace AllowsStatement

variable {P : Occurrence → Prop} {b : Setting} {p : Progress} {s : Statement}
  (hs : AllowsStatement P b p s)
include hs

theorem target : ∀ t ∈ s.targets, AllowsTarget P b p t := fun t ht =>
  { names := fun n hn => hs.names n (Statement.names_target_subset ht hn)
    objects := hs.objects.1 t ht
    lone := fun n hn => hs.lone n (List.mem_filterMap.2 ⟨t, ht, hn⟩) }

theorem expression : ∀ e ∈ s.expressions, AllowsValue P b p e := fun e he =>
  { names := fun n hn => hs.names n (Statement.names_expression_subset he hn)
    objects := hs.objects.2.1 e he }

end AllowsStatement

section
variable {P : Occurrence → Prop} {b : Setting} {p : Progress} {line : Nat} {method : String}
  {arguments : List Expr}

/-! ## Values and elements -/

/-- The code of an element: a call with such names. -/
def Finds (P : Occurrence → Prop) (e : Expr) : Prop :=
  e.name? = none ∧ e.Only P

theorem Finds.invoke {e : Expr} (h : Finds P e) (ha : ∀ a ∈ arguments, a.Only P) :
    (Expr.invoke e method arguments).Only P :=
  h.2.invoke (by simp [h.1]) ha

section
variable (h : Allows P b p)
include h

theorem only_given {x : String} (hx : x ∈ givenNames) : (Expr.name x).Only P :=
  List.forall_mem_singleton.2 (h.given x hx)

theorem only_invokeGiven {x : String} (hx : x ∈ givenObjects) (ha : ∀ a ∈ arguments, a.Only P) :
    (Expr.invoke (.name x) method arguments).Only P := by
  have hgiven : x ∈ givenNames := (by decide : givenObjects ⊆ givenNames) hx
  exact (only_given h hgiven).invoke (by rintro _ ⟨⟩; exact h.members x hx) ha

theorem only_stringOf {e : Expr} (he : e.Only P) : (Expr.stringOf e).Only P := by
  simpa [Expr.Only, Expr.stringOf] using ⟨h.given "String" (by simp [givenNames]), he⟩

theorem only_envValue (name : String) : (envValue name).Only P := by
  have := h.members "process" (by simp [givenObjects])
  simpa [Expr.Only, envValue] using ⟨this, h.given "process" (by simp [givenNames])⟩

theorem finds_call (ha : ∀ a ∈ arguments, a.Only P) :
    Finds P (.invoke (.name p.root) method arguments) :=
  ⟨rfl, Expr.Only.invoke (List.forall_mem_singleton.2 h.root.1) (by rintro _ ⟨⟩; exact h.root.2) ha⟩

theorem finds_plainLocator (s : PlainSelector) : Finds P (plainLocator p.root s) := by
  cases s with
  | text value => exact finds_call h (by simp [Expr.Only])
  | env name => exact finds_call h (List.forall_mem_singleton.2 (only_envValue h name))

theorem finds_byMember {q name : String} (hu : P (.use q)) (ho : P (.object q)) :
    Finds P (byText p.root (.stringOf (.member (.name q) name))) :=
  finds_call h (List.forall_mem_singleton.2 (only_stringOf h (by simpa [Expr.Only] using ⟨ho, hu⟩)))

section
variable {q : String} (hp : b.all.page? q = some page)
  (hq : P (.use q) ∧ (IsObject b p q → P (.object q)))
include hp hq

theorem finds_memberLocator {name : String} {e : Expr}
    (he : memberLocator? p.root page name = some e) : Finds P e := by
  unfold memberLocator? at he
  split at he
  · cases he; exact finds_plainLocator h _
  · obtain ⟨v, hv, rfl⟩ := Option.map_eq_some_iff.1 he
    rw [name_eq_of_page? hp]
    exact finds_byMember h hq.1
      (hq.2 (.inr fun _ => .inr ⟨page, hp, hasObject_of_pageVariable? hv⟩))

theorem finds_pageLocator (name : String) : Finds P (pageLocator p.root page name) := by
  unfold pageLocator
  cases he : memberLocator? p.root page name with
  | none => exact finds_call h (by simp [Expr.Only])
  | some e => exact finds_memberLocator h hp hq he

end

omit h in
theorem only_elementText {element : Expr} (he : Finds P element) : (elementText element).Only P :=
  List.forall_mem_append.2 ⟨he.invoke (List.forall_mem_nil _), List.forall_mem_nil _⟩

theorem only_primary {e : Primary} (he : ∀ r, e.reference? = some r → P (.use (r.1.getD r.2)))
    (hm : ∀ q n, e.reference? = some (some q, n) → IsObject b p q → P (.object q)) :
    (primary b p e).Only P := by
  unfold primary
  split
  · simp [Expr.Only]
  · simp [Expr.Only]
  · simp [Expr.Only]
  · exact only_envValue h _
  · next name => simpa [Expr.Only] using he (none, name) rfl
  · next q name =>
    have hq : P (.use q) := he (some q, name) rfl
    have hmember : IsObject b p q → (Expr.member (.name q) name).Only P := fun ho => by
      simpa [Expr.Only] using ⟨hm q name rfl ho, hq⟩
    split
    · next hv => exact hmember (.inl (by simpa [Progress.hasVariable] using hv))
    split
    · next page hp =>
      exact only_elementText
        (finds_pageLocator h (Option.filter_eq_some_iff.1 hp).1 ⟨hq, hm q name rfl⟩ name)
    · next hp => exact hmember (.inr (hasObject_of_elementPage?_eq_none hp))

theorem only_primaryText {e : Primary}
    (he : ∀ r, e.reference? = some r → P (.use (r.1.getD r.2)))
    (hm : ∀ q n, e.reference? = some (some q, n) → IsObject b p q → P (.object q)) :
    (primaryText b p e).Only P := by
  have hp := only_primary h he hm
  unfold primaryText
  split
  · exact hp
  · exact hp
  · exact only_stringOf h hp

section
variable {e : Expression} (he : AllowsValue P b p e) {part : Primary}
include he

omit h in
theorem allows_part (hm : part ∈ e.parts) :
    ∀ r, part.reference? = some r → P (.use (r.1.getD r.2)) :=
  fun r hr => he.names _ (List.mem_map.2 ⟨r, List.mem_filterMap.2 ⟨part, hm, hr⟩, rfl⟩)

omit h in
theorem allows_qualifier (hm : part ∈ e.parts) :
    ∀ q n, part.reference? = some (some q, n) → IsObject b p q → P (.object q) := fun q _ hr =>
  he.objects q (List.mem_filterMap.2 ⟨_, List.mem_filterMap.2 ⟨part, hm, hr⟩, rfl⟩)

theorem only_partText (hm : part ∈ e.parts) : (primaryText b p part).Only P :=
  only_primaryText h (allows_part he hm) (allows_qualifier he hm)

theorem only_expression : (expression b p e).Only P := by
  unfold expression
  split
  · exact only_primary h (allows_part he (List.mem_cons_self ..))
      (allows_qualifier he (List.mem_cons_self ..))
  · intro o ho
    rw [Expr.occurrences_sum] at ho
    obtain ⟨x, hx, ho⟩ := List.mem_flatMap.1 ho
    obtain ⟨part, hm, rfl⟩ := List.mem_map.1 hx
    exact only_partText h he hm o ho

theorem only_textOf : (textOf b p e).Only P := by
  unfold textOf
  split
  · exact only_partText h he (List.mem_cons_self ..)
  · exact only_expression h he

/-- A text is no name. -/
theorem finds_textOf : Finds P (textOf b p e) := by
  refine ⟨?_, only_textOf h he⟩
  have hpart : ∀ part, (primaryText b p part).name? = none := by
    intro part
    cases part <;> rfl
  have hfold : ∀ (rest : List Expr) (e : Expr), e.name? = none →
      (rest.foldl (Expr.binary .add) e).name? = none := by
    intro rest
    induction rest with
    | nil => exact fun e he => he
    | cons r rest ih => exact fun e _ => ih _ rfl
  unfold textOf
  split
  · exact hpart e.first
  · next hr =>
    rw [expression, if_neg hr]
    exact hfold _ _ (hpart e.first)

theorem only_containing : (containing b p e).Only P := by
  unfold containing
  split
  · simp [Expr.Only]
  · exact List.forall_mem_cons.2 ⟨h.given "RegExp" (by simp [givenNames]), List.forall_mem_append.2
      ⟨(finds_textOf h he).invoke (by simp [Expr.Only]), List.forall_mem_nil _⟩⟩

theorem only_waitTime (unit : WaitUnit) : (waitTime b p e unit).Only P := by
  have hv := only_expression h he
  unfold waitTime
  dsimp only
  split
  · exact hv
  · next d => cases d.timesPowTen? 3 <;> simp [Expr.Only]
  · simpa [Expr.Only] using hv

end

theorem only_screenshotOptions {name : Option Expression}
    (he : ∀ e ∈ name, AllowsValue P b p e) : ∀ o ∈ screenshotOptions b p name, o.Only P := by
  unfold screenshotOptions
  split
  · simp
  · simp [Expr.Only]
  · next e _ =>
    have := only_stringOf h (only_expression h (he e rfl))
    simpa [Expr.Only] using this

theorem finds_nameLocator {name : String} (hs : name ∈ p.scope → P (.use name)) :
    Finds P (nameLocator b p name) := by
  unfold nameLocator
  split
  · next hv =>
    have hn : name ∈ p.scope := by simpa [Progress.hasVariable] using hv
    exact finds_call h (List.forall_mem_singleton.2
      (only_stringOf h (List.forall_mem_singleton.2 (hs hn))))
  · dsimp only
    cases hf : List.findSome? (memberLocator? p.root · name)
        ((b.defaultPage.toList ++ b.uses).filterMap b.all.page?) with
    | none => exact finds_call h (by simp [Expr.Only])
    | some e =>
      obtain ⟨page, hm, he⟩ := List.exists_of_findSome?_eq_some hf
      obtain ⟨q, hq, hp⟩ := List.mem_filterMap.1 hm
      exact finds_memberLocator h hp (h.owners q hq) he

theorem finds_locator {t : Target} {e : Expr} (ht : AllowsTarget P b p t)
    (he : locator b p line t = .ok e) : Finds P e := by
  unfold locator at he
  split at he
  · next value =>
    cases he
    unfold selectorLocator
    split
    · exact finds_call h (by simp [Expr.Only])
    · exact finds_call h (List.forall_mem_singleton.2 (only_textOf h ⟨ht.names, ht.objects⟩))
  · cases he
  · next name => cases he; exact finds_nameLocator h (ht.lone name rfl)
  · next q name =>
    have hq : P (.use q) := ht.names q (by simp [Target.names])
    have ho := ht.objects q (by simp [Target.qualifiers])
    split at he
    · next hv =>
      cases he
      exact finds_byMember h hq (ho (.inl (by simpa [Progress.hasVariable] using hv)))
    split at he
    · next page hp => cases he; exact finds_pageLocator h hp ⟨hq, ho⟩ name
    · cases he

/-! ## Checks and conditions -/

theorem only_comparison {left right : Expr} (op : ComparisonOp) (hl : left.Only P)
    (hx : right.Only P) : (comparison left op right).Only P := by
  have hs := h.given "String" (by simp [givenNames])
  have hp := h.given "RegExp" (by simp [givenNames])
  have hboth : ∀ o, o ∈ left.occurrences ∨ o ∈ right.occurrences → P o :=
    fun o ho => ho.elim (hl o) (hx o)
  intro o ho
  cases op <;> simp [comparison, Expr.invoke, Expr.stringOf, Expr.name?] at ho <;> grind

theorem expectation_shape {value : Expr} (negated : Bool) (matcher : String) (hv : value.Only P)
    (ha : ∀ a ∈ arguments, a.Only P) :
    ∃ e, expectation value negated matcher arguments = .eval e ∧ e.Only P := by
  have hsubject : (Expr.call (.name "expect") [value]).Only P := by
    simpa [Expr.Only] using ⟨h.given "expect" (by simp [givenNames]), hv⟩
  refine ⟨_, rfl, ?_⟩
  cases negated with
  | false => exact Expr.Only.invoke hsubject (by simp) ha
  | true => exact Expr.Only.invoke (e := .member _ "not") hsubject (by simp) ha

theorem assertion_shape {a : Assertion} {c : Code.Statement}
    (ht : ∀ t ∈ a.targets, AllowsTarget P b p t) (he : ∀ e ∈ a.expressions, AllowsValue P b p e)
    (hc : assertion b p line a = .ok c) : ∃ e, c = .eval e ∧ e.Only P := by
  have hpage : page.Only P := only_given h (by simp [givenNames])
  have hone : ∀ {t : Target} {negated : Bool} {matcher : String} {arguments : List Expr},
      t ∈ a.targets → (∀ x ∈ arguments, x.Only P) →
      (do return expectation (← locator b p line t) negated matcher arguments) = .ok c →
      ∃ e, c = .eval e ∧ e.Only P := by
    intro t negated matcher arguments hm ha hc
    obtain ⟨element, hl, hc⟩ := bind_eq_ok.1 hc
    cases hc
    exact expectation_shape h negated matcher (finds_locator h (ht t hm) hl).2 ha
  cases a with
  | state target negated state => exact hone (by simp [Assertion.targets]) (by simp) hc
  | text target negated contains expected =>
    have := only_textOf h (he expected (by simp [Assertion.expressions]))
    exact hone (by simp [Assertion.targets]) (by simpa using this) hc
  | value target negated expected =>
    have := only_textOf h (he expected (by simp [Assertion.expressions]))
    exact hone (by simp [Assertion.targets]) (by simpa using this) hc
  | attribute_ target name expected =>
    have h₁ := only_textOf h (he name (by simp [Assertion.expressions]))
    have h₂ := only_textOf h (he expected (by simp [Assertion.expressions]))
    exact hone (by simp [Assertion.targets]) (by simpa using ⟨h₁, h₂⟩) hc
  | count target expected =>
    have := only_expression h (he expected (by simp [Assertion.expressions]))
    exact hone (by simp [Assertion.targets]) (by simpa using this) hc
  | url matcher expected =>
    have hx := he expected (by simp [Assertion.expressions])
    cases hc
    refine expectation_shape h _ _ hpage (List.forall_mem_singleton.2 ?_)
    cases matcher with
    | is => exact only_expression h hx
    | contains => exact only_containing h hx
    | matches_ =>
      have := only_textOf h hx
      simpa [Expr.Only] using ⟨h.given "RegExp" (by simp [givenNames]), this⟩
  | title contains expected =>
    have hx := he expected (by simp [Assertion.expressions])
    cases hc
    refine expectation_shape h _ _ hpage (List.forall_mem_singleton.2 ?_)
    cases contains with
    | true => exact only_containing h hx
    | false => exact only_expression h hx

omit h in
theorem only_stateTest {element : Expr} {target : Target} {negated : Bool} (state : ElementState)
    (hl : ∀ x ∈ (Condition.state target negated state).locals, P (.binding x) ∧ P (.use x))
    (hg : ∀ x ∈ (Condition.state target negated state).globals, P (.use x) ∧ P (.object x))
    (he : Finds P element) : (stateTest element state).Only P := by
  cases state with
  | focused =>
    have hel := hl "el" (by simp [Condition.locals])
    have hdocument := hg "document" (by simp [Condition.globals])
    refine he.invoke (List.forall_mem_singleton.2 (Expr.Only.arrow ?_ hel.1))
    simpa [Expr.Only] using ⟨hel.2, hdocument.2, hdocument.1⟩
  | empty =>
    have : (Expr.invoke (elementText element) "trim" []).Only P :=
      (only_elementText he).invoke (by simp [elementText, Expr.name?]) (List.forall_mem_nil _)
    simpa [Expr.Only, stateTest] using this
  | _ => exact he.invoke (List.forall_mem_nil _)

theorem only_condition {c : Condition} {thenBody elseBody : List Statement} {e : Expr}
    (hs : AllowsStatement P b p (.branch line c thenBody elseBody))
    (hc : condition b p line c = .ok e) : e.Only P := by
  cases c with
  | state target negated state =>
    obtain ⟨element, hl, hc⟩ := bind_eq_ok.1 hc
    have he := only_stateTest state hs.locals hs.globals
      (finds_locator h (hs.target target (List.mem_singleton.2 rfl)) hl)
    cases hc
    cases negated <;> exact he
  | comparison left op right =>
    cases hc
    exact only_comparison h op (only_expression h (hs.expression left (by
      simp [Statement.expressions]))) (only_expression h (hs.expression right (by
      simp [Statement.expressions])))
  | truthy value =>
    cases hc
    exact only_expression h (hs.expression value (List.mem_singleton.2 rfl))

/-! ## Queries -/

theorem only_rowTest {c : DataCondition} {e : Expr} (he : e.Only P) : (rowTest c e).Only P := by
  have hcolumn : (rowColumn c.column).Only P := by
    simpa [Expr.Only, rowColumn] using h.given "$row" (by simp [givenNames])
  have htext := only_stringOf h hcolumn
  unfold rowTest
  dsimp only
  split
  · simpa [Expr.Only, or_imp, forall_and] using ⟨hcolumn, htext⟩
  · simpa [Expr.Only, or_imp, forall_and] using ⟨hcolumn, htext⟩
  · exact only_comparison h _ hcolumn he

end

/-- Statements ahead of a query: constants for texts that are read. -/
def AheadOnly (P : Occurrence → Prop) (ahead : List Code.Statement) : Prop :=
  ∀ c ∈ ahead, ∃ n e, c = .const (readName n) e ∧ e.Only P

theorem AheadOnly.append {xs ys : List Code.Statement} (hx : AheadOnly P xs)
    (hy : AheadOnly P ys) : AheadOnly P (xs ++ ys) :=
  fun c hc => (List.mem_append.1 hc).elim (hx c) (hy c)

/-- A name has a property, or it is declared in statements ahead. -/
def Beyond (P : Occurrence → Prop) (ahead : List Code.Statement) (o : Occurrence) : Prop :=
  P o ∨ ∃ x ∈ ahead.flatMap Code.Statement.declares, o = .use x

theorem Allows.beyond (h : Allows P b p) (ahead : List Code.Statement) :
    Allows (Beyond P ahead) b p where
  given x hx := .inl (h.given x hx)
  members x hx := .inl (h.members x hx)
  row := .inl h.row
  root := ⟨.inl h.root.1, .inl h.root.2⟩
  owners n hn := ⟨.inl (h.owners n hn).1, fun ho => .inl ((h.owners n hn).2 ho)⟩

theorem Beyond.append_left {xs : List Code.Statement} (ys : List Code.Statement) {o : Occurrence}
    (h : Beyond P xs o) : Beyond P (xs ++ ys) o :=
  h.imp_right fun ⟨x, hx, e⟩ => ⟨x, by simp only [List.flatMap_append, List.mem_append, hx,
    true_or], e⟩

theorem Beyond.append_right (xs : List Code.Statement) {ys : List Code.Statement} {o : Occurrence}
    (h : Beyond P ys o) : Beyond P (xs ++ ys) o :=
  h.imp_right fun ⟨x, hx, e⟩ => ⟨x, by simp only [List.flatMap_append, List.mem_append, hx,
    or_true], e⟩

section
variable (h : Allows P b p)
include h

theorem conditionCode_shape (reads : Nat) {c : DataCondition}
    (hc : ∀ e ∈ c.value, AllowsValue P b p e) :
    AheadOnly P (conditionCode b p reads c).2.1 ∧
    (conditionCode b p reads c).1.Only (Beyond P (conditionCode b p reads c).2.1) := by
  unfold conditionCode
  split
  · exact ⟨List.forall_mem_nil _, only_rowTest (h.beyond _)
      (only_given (h.beyond _) (by simp [givenNames]))⟩
  · next e he =>
    have hx := only_expression h (hc e he)
    split
    · refine ⟨fun d hd => ⟨reads + 1, _, List.mem_singleton.1 hd, hx⟩,
        only_rowTest (h.beyond _) ?_⟩
      simp [Expr.Only, Beyond, Code.Statement.declares, Code.Statement.lets, Code.Statement.consts]
    · exact ⟨List.forall_mem_nil _, only_rowTest (h.beyond _) (hx.mono fun o => .inl)⟩

theorem joinedCode_shape {left : Expr} (reads : Nat) {front : List Code.Statement}
    {rest : List (LogicalOp × DataCondition)} (hl : left.Only (Beyond P front))
    (hc : ∀ c ∈ rest, ∀ e ∈ c.2.value, AllowsValue P b p e) :
    AheadOnly P (joinedCode b p left reads rest).2.1 ∧
    (joinedCode b p left reads rest).1.Only
      (Beyond P (front ++ (joinedCode b p left reads rest).2.1)) := by
  induction rest generalizing left reads front with
  | nil => exact ⟨List.forall_mem_nil _, hl.mono fun o => Beyond.append_left _⟩
  | cons c rest ih =>
    obtain ⟨op, c⟩ := c
    obtain ⟨ha, ht⟩ := conditionCode_shape h reads (hc (op, c) (List.mem_cons_self ..))
    -- the joined condition uses what is declared for either side
    have hj : (Expr.paren (.binary (logicalOperator op) left
        (.paren (conditionCode b p reads c).1))).Only
        (Beyond P (front ++ (conditionCode b p reads c).2.1)) := by
      intro o ho
      rcases List.mem_append.1 ho with ho | ho
      · exact (hl o ho).append_left _
      · exact (ht o ho).append_right _
    obtain ⟨hm, he⟩ := ih (conditionCode b p reads c).2.2 hj fun d hd => hc d (by simp [hd])
    rw [List.append_assoc] at he
    exact ⟨ha.append hm, he⟩

theorem only_queryCall {q : DataQuery} {predicate : Option Expr}
    (hp : ∀ e ∈ predicate, e.Only P) : (queryCall (queryMembers q predicate)).Only P := by
  have hm : ∀ m ∈ queryMembers q predicate, m.2.Only P := by
    intro m hm
    simp only [queryMembers, List.mem_append, Option.mem_toList, Option.map_eq_some_iff,
      List.mem_singleton] at hm
    rcases hm with (((((rfl | ⟨c, -, rfl⟩) | rfl) | ⟨e, he, rfl⟩) | ho) | ⟨n, -, rfl⟩) | ⟨n, -, rfl⟩
    · simp [Expr.Only]
    · simp [Expr.Only]
    · simp [Expr.Only]
    · exact (hp e he).arrow h.row
    · split at ho
      · cases ho
      · obtain rfl := List.mem_singleton.1 ho
        simp [Expr.Only, orderCode]
    · simp [Expr.Only]
    · simp [Expr.Only]
  refine only_invokeGiven h (by simp [givenObjects]) (List.forall_mem_singleton.2 fun o ho => ?_)
  rw [Expr.occurrences, Expr.memberOccurrences_eq] at ho
  obtain ⟨m, hmem, ho⟩ := List.mem_flatMap.1 ho
  exact hm m hmem o ho

/-- The code of a query uses what is declared ahead of it. -/
theorem queryCode_shape {q : DataQuery} (hq : ∀ e ∈ q.values, AllowsValue P b p e) :
    AheadOnly P (queryCode b p q).2.1 ∧
    (queryCode b p q).1.Only (Beyond P (queryCode b p q).2.1) := by
  unfold queryCode
  split
  · exact ⟨List.forall_mem_nil _, only_queryCall (h.beyond _) (by simp)⟩
  · next w hw =>
    have hc : ∀ c ∈ w.conditions, ∀ e ∈ c.value, AllowsValue P b p e := fun c hc e he =>
      hq e (List.mem_filterMap.2 ⟨c, by simpa [DataQuery.conditions, hw] using hc, he⟩)
    obtain ⟨ha, ht⟩ := conditionCode_shape h p.reads (hc w.first (List.mem_cons_self ..))
    have hfirst : (Expr.paren (conditionCode b p p.reads w.first).1).Only
        (Beyond P (conditionCode b p p.reads w.first).2.1) := ht
    obtain ⟨hm, he⟩ := joinedCode_shape h (conditionCode b p p.reads w.first).2.2 hfirst
      fun c hm => hc c.2 (List.mem_cons_of_mem _ (List.mem_map.2 ⟨c, hm, rfl⟩))
    refine ⟨ha.append hm, only_queryCall (h.beyond _) ?_⟩
    rintro _ ⟨⟩
    exact he

end

/-! ## Steps -/

theorem sum_ne_await {e e' x : Expr} {rest : List Expr} :
    Expr.sum (e :: e' :: rest) ≠ .await x := by
  obtain hnil | ⟨front, last, hlast⟩ := List.eq_nil_or_concat (e' :: rest)
  · cases hnil
  · rw [Expr.sum, hlast, List.concat_eq_append, List.foldl_append]
    rintro ⟨⟩

/-- The code of a value waits for nothing, except inside of it. -/
theorem expression_ne_await {b : Setting} {p : Progress} {e : Expression} {x : Expr} :
    expression b p e ≠ .await x := by
  obtain ⟨first, rest⟩ := e
  unfold expression
  cases rest with
  | cons y ys => exact sum_ne_await
  | nil =>
    show primary b p first ≠ .await x
    cases first with
    | ref qualifier name =>
      cases qualifier with
      | none => rintro ⟨⟩
      | some q =>
        rw [primary]
        split
        · rintro ⟨⟩
        · split <;> rintro ⟨⟩
    | _ => rintro ⟨⟩

theorem queryCode_eq (b : Setting) (p : Progress) (q : DataQuery) :
    ∃ members, (queryCode b p q).1 = queryCall members := by
  unfold queryCode
  split
  · exact ⟨_, rfl⟩
  · exact ⟨_, rfl⟩

/-- The code of a step: plain statements, a constant for a frame, or a declaration with constants
    ahead of it. Only a query is given the result of one. -/
inductive StepShape (P : Occurrence → Prop) (hoisted : List String) (frames : Nat) (s : Step) :
    List Code.Statement → Prop
  | plain {code : List Code.Statement} (hb : s.bound? = none) (hf : s.entersFrame = false)
      (hc : ∀ c ∈ code, ∃ e,
        (c = .eval e ∨ c = .assign "page" e ∧ ∀ members, e ≠ queryCall members) ∧ e.Only P) :
      StepShape P hoisted frames s code
  | frame {e : Expr} (hb : s.bound? = none) (hf : s.entersFrame = true)
      (hq : ∀ members, e ≠ queryCall members) (he : e.Only P) :
      StepShape P hoisted frames s [.const (frameName (frames + 1)) e]
  | declaration {x : String} {ahead : List Code.Statement} {e : Expr} (hb : s.bound? = some x)
      (hf : s.entersFrame = false)
      (hq : (∃ d, s = .query d) ∧ (∃ members, e = queryCall members) ∨
        ahead = [] ∧ (∀ d, s ≠ .query d) ∧ ∀ members, e ≠ queryCall members)
      (ha : AheadOnly P ahead) (he : e.Only (Beyond P ahead)) :
      StepShape P hoisted frames s
        (ahead ++ [if hoisted.contains x then .assign x e else .const x e])

/-- A step whose code is one statement that is evaluated. -/
theorem StepShape.single {hoisted : List String} {frames : Nat} {s : Step} {e : Expr}
    (hb : s.bound? = none) (hf : s.entersFrame = false) (he : e.Only P) :
    StepShape P hoisted frames s [.eval e] :=
  .plain hb hf fun _ hc => ⟨e, .inl (List.mem_singleton.1 hc), he⟩

/-- A step whose code is one statement that waits for a call. -/
theorem StepShape.call {hoisted : List String} {frames : Nat} {s : Step} {object : Expr}
    (hb : s.bound? = none) (hf : s.entersFrame = false)
    (hc : (Expr.invoke object method arguments).Only P) :
    StepShape P hoisted frames s [awaitCall object method arguments] :=
  .single hb hf hc

theorem step_shape (h : Allows P b p) {s : Step} {q : Progress} {code : List Code.Statement}
    (hs : AllowsStatement P b p (.step line s)) (hq : step b line s p = .ok (code, q)) :
    StepShape P b.hoisted p.frames s code := by
  have hlocal : ∀ {t : Target} {e : Expr}, t ∈ s.targets → locator b p line t = .ok e →
      Finds P e := fun ht he => finds_locator h (hs.target _ ht) he
  have hvalue : ∀ {e : Expression}, e ∈ s.expressions → (expression b p e).Only P :=
    fun he => only_expression h (hs.expression _ he)
  have htext : ∀ {e : Expression}, e ∈ s.expressions → (textOf b p e).Only P :=
    fun he => only_textOf h (hs.expression _ he)
  have hpage : ∀ {method : String} {arguments : List Expr}, (∀ a ∈ arguments, a.Only P) →
      (Expr.invoke page method arguments).Only P := only_invokeGiven h (by simp [givenObjects])
  have hcontext : Finds P (.invoke page "context" []) := ⟨rfl, hpage (List.forall_mem_nil _)⟩
  have hmember : ∀ name, Finds P (.member page name) := fun name => ⟨rfl, by
    simpa [Expr.Only, page] using ⟨h.members "page" (by simp [givenObjects]),
      h.given "page" (by simp [givenNames])⟩⟩
  rw [step, gen_bind_eq_ok] at hq
  obtain ⟨_, _, hp, hq⟩ := hq
  obtain ⟨rfl, rfl⟩ := gen_get_eq_ok.1 hp
  cases s with
  | click t | hover t | check t | uncheck t | scrollTo t | waitFor t | clear t =>
    simp only [gen_bind_eq_ok, gen_lift_eq_ok, gen_pure_eq_ok] at hq
    obtain ⟨e, _, ⟨hl, rfl⟩, rfl, rfl⟩ := hq
    exact .call rfl rfl ((hlocal (by simp [Step.targets]) hl).invoke (by simp))
  | fill t e | select e t =>
    simp only [gen_bind_eq_ok, gen_lift_eq_ok, gen_pure_eq_ok] at hq
    obtain ⟨x, _, ⟨hl, rfl⟩, rfl, rfl⟩ := hq
    exact .call rfl rfl ((hlocal (by simp [Step.targets]) hl).invoke
      (List.forall_mem_singleton.2 (htext (by simp [Step.expressions]))))
  | upload e t =>
    simp only [gen_bind_eq_ok, gen_lift_eq_ok, gen_pure_eq_ok] at hq
    obtain ⟨x, _, ⟨hl, rfl⟩, rfl, rfl⟩ := hq
    exact .call rfl rfl ((hlocal (by simp [Step.targets]) hl).invoke
      (List.forall_mem_singleton.2 (hvalue (by simp [Step.expressions]))))
  | drag t u =>
    simp only [gen_bind_eq_ok, gen_lift_eq_ok, gen_pure_eq_ok] at hq
    obtain ⟨x, _, ⟨hl, rfl⟩, y, _, ⟨hu, rfl⟩, rfl, rfl⟩ := hq
    exact .call rfl rfl ((hlocal (by simp [Step.targets]) hl).invoke
      (List.forall_mem_singleton.2 (hlocal (by simp [Step.targets]) hu).2))
  | open_ e =>
    obtain ⟨rfl, rfl⟩ := gen_pure_eq_ok.1 hq
    exact .call rfl rfl (hpage (List.forall_mem_singleton.2 (hvalue (by simp [Step.expressions]))))
  | press e =>
    obtain ⟨rfl, rfl⟩ := gen_pure_eq_ok.1 hq
    exact .call rfl rfl ((hmember _).invoke
      (List.forall_mem_singleton.2 (htext (by simp [Step.expressions]))))
  | wait e unit =>
    obtain ⟨rfl, rfl⟩ := gen_pure_eq_ok.1 hq
    exact .call rfl rfl (hpage (List.forall_mem_singleton.2 (only_waitTime h
      (hs.expression e (by simp [Statement.expressions, Step.expressions])) unit)))
  | screenshot name =>
    obtain ⟨rfl, rfl⟩ := gen_pure_eq_ok.1 hq
    exact .call rfl rfl (hpage
      (only_screenshotOptions h fun e he => hs.expression e (Option.mem_toList.2 he)))
  | scroll direction =>
    obtain ⟨rfl, rfl⟩ := gen_pure_eq_ok.1 hq
    exact .call rfl rfl ((hmember _).invoke (by simp [Expr.Only]))
  | refresh =>
    obtain ⟨rfl, rfl⟩ := gen_pure_eq_ok.1 hq
    exact .call rfl rfl (hpage (by simp))
  | clearCookies =>
    obtain ⟨rfl, rfl⟩ := gen_pure_eq_ok.1 hq
    exact .call rfl rfl (hcontext.invoke (by simp))
  | clearStorage =>
    obtain ⟨rfl, rfl⟩ := gen_pure_eq_ok.1 hq
    have h₁ := hs.globals "localStorage" (by simp [Statement.globals, Step.globals])
    have h₂ := hs.globals "sessionStorage" (by simp [Statement.globals, Step.globals])
    exact .call rfl rfl (hpage (by
      simpa [Expr.Only, Expr.invoke] using ⟨h₁.2, h₁.1, h₂.2, h₂.1⟩))
  | log e =>
    obtain ⟨rfl, rfl⟩ := gen_pure_eq_ok.1 hq
    have hv := hvalue (e := e) (by simp [Step.expressions])
    have hc := hs.globals "console" (by simp [Statement.globals, Step.globals])
    exact .single rfl rfl (Expr.Only.invoke (List.forall_mem_singleton.2 hc.1)
      (by rintro _ ⟨⟩; exact hc.2) (List.forall_mem_singleton.2 hv))
  | acceptDialog prompt =>
    obtain ⟨rfl, rfl⟩ := gen_pure_eq_ok.1 hq
    have hd := hs.locals "dialog" (by simp [Statement.locals, Step.locals])
    have ht : ∀ e ∈ prompt, (textOf b q e).Only P := fun e he => htext (Option.mem_toList.2 he)
    -- the dialog is the function's own, so its members need not be allowed
    have hanswer : (Expr.arrow "dialog" (.invoke (.name "dialog") "accept"
        (prompt.map (textOf b q)).toList)).Only P := by
      cases prompt with
      | none => simpa [Expr.Only, Expr.invoke] using hd
      | some e =>
        have hrest : ∀ o ∈ (textOf b q e).occurrences, o ≠ .object "dialog" → P o :=
          fun o ho _ => ht e rfl o ho
        simpa [Expr.Only, Expr.invoke, hd.1, hd.2] using hrest
    exact .single rfl rfl (hpage (by simpa [Expr.Only] using hanswer))
  | dismissDialog =>
    obtain ⟨rfl, rfl⟩ := gen_pure_eq_ok.1 hq
    have hd := hs.locals "dialog" (by simp [Statement.locals, Step.locals])
    exact .single rfl rfl (hpage (by simpa [Expr.Only, Expr.invoke] using hd))
  | switchToTab e =>
    obtain ⟨rfl, rfl⟩ := gen_pure_eq_ok.1 hq
    have hv := hvalue (e := e) (by simp [Step.expressions])
    have hpages : (Expr.invoke (.invoke page "context" []) "pages" []).Only P :=
      hcontext.invoke (List.forall_mem_nil _)
    refine .plain rfl rfl fun c hc => ?_
    simp only [List.mem_cons, List.not_mem_nil, or_false] at hc
    rcases hc with rfl | rfl
    · exact ⟨_, .inr ⟨rfl, by rintro _ ⟨⟩⟩,
        List.forall_mem_append.2 ⟨hpages, by simpa [Expr.Only] using hv⟩⟩
    · exact ⟨_, .inl rfl, hpage (by simp)⟩
  | switchToNewTab url =>
    obtain ⟨rfl, rfl⟩ := gen_pure_eq_ok.1 hq
    refine .plain rfl rfl fun c hc => ?_
    rcases List.mem_cons.1 hc with rfl | hc
    · exact ⟨_, .inr ⟨rfl, by rintro _ ⟨⟩⟩, hcontext.invoke (by simp)⟩
    · obtain ⟨e, he, rfl⟩ := Option.map_eq_some_iff.1 (Option.mem_toList.1 hc)
      have hv := hvalue (e := e) (Option.mem_toList.2 he)
      exact ⟨_, .inl rfl, hpage (List.forall_mem_singleton.2 hv)⟩
  | closeTab =>
    obtain ⟨rfl, rfl⟩ := gen_pure_eq_ok.1 hq
    have hpages : (Expr.invoke (.invoke page "context" []) "pages" []).Only P :=
      hcontext.invoke (List.forall_mem_nil _)
    refine .plain rfl rfl fun c hc => ?_
    simp only [List.mem_cons, List.not_mem_nil, or_false] at hc
    rcases hc with rfl | rfl
    · exact ⟨_, .inl rfl, hpage (by simp)⟩
    · refine ⟨_, .inr ⟨rfl, by rintro _ ⟨⟩⟩,
        List.forall_mem_append.2 ⟨?_, only_given h (by simp [givenNames])⟩⟩
      exact hpages.invoke (by simp [Expr.invoke]) (by simp [Expr.Only])
  | switchToFrame t =>
    simp only [gen_bind_eq_ok, gen_lift_eq_ok, gen_set_eq_ok, gen_pure_eq_ok] at hq
    obtain ⟨x, _, ⟨hl, rfl⟩, _, _, rfl, rfl, rfl⟩ := hq
    have hfinds := hlocal (t := t) (by simp [Step.targets]) hl
    exact .frame rfl rfl (by rintro _ ⟨⟩) (hfinds.invoke (by simp))
  | switchToMainFrame =>
    simp only [gen_bind_eq_ok, gen_set_eq_ok, gen_pure_eq_ok] at hq
    obtain ⟨_, _, rfl, rfl, rfl⟩ := hq
    exact .plain rfl rfl (List.forall_mem_nil _)
  | verify a =>
    simp only [gen_bind_eq_ok, gen_lift_eq_ok, gen_pure_eq_ok] at hq
    obtain ⟨c, _, ⟨ha, rfl⟩, rfl, rfl⟩ := hq
    obtain ⟨e, rfl, he⟩ := assertion_shape h hs.target hs.expression ha
    exact .single rfl rfl he
  | perform owner action arguments =>
    simp only [gen_bind_eq_ok, gen_lift_eq_ok, gen_pure_eq_ok] at hq
    obtain ⟨_, _, ⟨ha, rfl⟩, rfl, rfl⟩ := hq
    have howner := hs.names owner (by simp [Statement.names, Step.names, Step.owner?])
    have hobject := hs.objects.2.2 _ _ rfl owner rfl
      (.inr fun _ => hasObject_of_performable (succeeds_checkAction.1 ⟨_, ha⟩))
    refine .call rfl rfl (Expr.Only.invoke (List.forall_mem_singleton.2 howner)
      (by rintro _ ⟨⟩; exact hobject) fun a ha => ?_)
    rcases List.mem_cons.1 ha with rfl | ha
    · exact only_given h (by simp [givenNames])
    · obtain ⟨e, he, rfl⟩ := List.mem_map.1 ha
      exact hvalue he
  | declare kind name e =>
    simp only [gen_bind_eq_ok, declare_eq_ok, gen_pure_eq_ok] at hq
    obtain ⟨c, _, ⟨rfl, rfl⟩, rfl, rfl⟩ := hq
    have hv := hvalue (e := e) (by simp [Step.expressions])
    have ha : AheadOnly P [] := List.forall_mem_nil _
    exact .declaration rfl rfl (.inr ⟨rfl, by simp, fun _ => expression_ne_await⟩) ha
      (hv.mono fun o => .inl)
  | query d =>
    simp only [gen_bind_eq_ok, gen_set_eq_ok, declare_eq_ok, gen_pure_eq_ok] at hq
    obtain ⟨_, _, rfl, c, _, ⟨rfl, rfl⟩, rfl, rfl⟩ := hq
    obtain ⟨ha, he⟩ := queryCode_shape h hs.expression
    exact .declaration rfl rfl (.inl ⟨⟨d, rfl⟩, queryCode_eq b _ d⟩) ha he

end

theorem allows_true {b : Setting} {p : Progress} : Allows (fun _ => True) b p :=
  ⟨by simp, by simp, trivial, by simp, by simp⟩

theorem allowsStatement_true {b : Setting} {p : Progress} {s : Statement} :
    AllowsStatement (fun _ => True) b p s :=
  ⟨by simp, by simp, by simp, by simp, by simp⟩

end Generate

end UiScenario
