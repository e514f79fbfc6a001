import UiScenario.Grammar.Program
import UiScenario.Proofs.Reading
import UiScenario.Proofs.Scope

/-!
Properties of the parts of a program that is read from tokens. What is shown of the few rules that
read values, elements and names holds of all that a program consists of.
-/

namespace UiScenario

structure Traits where
  value : Expression → Prop
  target : Target → Prop
  /-- Of the names of declarations, and of those that statements mention. -/
  name : String → Prop
  /-- Of the names that statements and actions bind. -/
  binding : String → Prop

/-- The page or library whose action a step performs. -/
def Step.owner? : Step → Option String
  | perform owner _ _ => some owner
  | _ => none

/-- The names that a statement mentions outside of its elements and values. -/
def Statement.mentioned : Statement → List String
  | step _ s => s.owner?.toList
  | forEach _ _ collection _ => [collection]
  | _ => []

section
variable (T : Traits)

/-- All parts of a step have the properties, and conditions on rows have the values they need. -/
structure Step.Has (s : Step) : Prop where
  targets : ∀ t ∈ s.targets, T.target t
  values : ∀ e ∈ s.expressions, T.value e
  conditions : ∀ q, s = .query q → ∀ c ∈ q.conditions, c.value.isSome = !c.op.isUnary
  owner : ∀ n, s.owner? = some n → T.name n
  binds : ∀ n, s.bound? = some n → T.binding n

/-- All parts of a statement have the properties, apart from the statements inside it; and
conditions on rows have the values they need. -/
structure Statement.Has (s : Statement) : Prop where
  targets : ∀ t ∈ s.targets, T.target t
  values : ∀ e ∈ s.expressions, T.value e
  conditions : ∀ c ∈ s.dataConditions, c.value.isSome = !c.op.isUnary
  mentions : ∀ n ∈ s.mentioned, T.name n
  binds : ∀ n, s.binds? = some n → T.binding n

/-- A body consists of such statements, at any depth. -/
def BodyHas (body : List Statement) : Prop :=
  ∀ s ∈ Statement.flattenAll body, s.Has T

/-- All parts of an action have the properties. -/
structure Action.Has (a : Action) : Prop where
  name : T.name a.name
  parameters : ∀ n ∈ a.parameters, T.binding n
  body : BodyHas T a.body

structure Page.Has (p : Page) : Prop where
  name : T.name p.name
  fields : ∀ f ∈ p.fields, T.name f.name
  pageVariables : ∀ v ∈ p.pageVariables, T.name v.name ∧ T.value v.value
  actions : ∀ a ∈ p.actions, a.Has T

/-- All parts of a library have the properties. -/
structure Library.Has (l : Library) : Prop where
  name : T.name l.name
  forPage : ∀ q, l.forPage = some q → T.name q
  actions : ∀ a ∈ l.actions, a.Has T

/-- All parts of a feature have the properties. -/
structure Feature.Has (f : Feature) : Prop where
  uses : ∀ u ∈ f.uses, T.name u.name
  hooks : ∀ h ∈ f.hooks, BodyHas T h.body
  scenarios : ∀ s ∈ f.scenarios, BodyHas T s.body

/-- All parts of a program have the properties. -/
structure Program.Has (p : Program) : Prop where
  pages : ∀ page ∈ p.pages, page.Has T
  libraries : ∀ l ∈ p.libraries, l.Has T
  features : ∀ f ∈ p.features, f.Has T

end

/-- Of a program, all bodies have the properties. -/
theorem Program.Has.bodies {T : Traits} {p : Program} (h : p.Has T) :
    ∀ body ∈ p.bodies, BodyHas T body := by
  intro body hb
  simp only [Program.bodies, List.mem_append, List.mem_map, List.mem_flatMap] at hb
  rcases hb with (⟨a, ⟨page, hp, ha⟩, rfl⟩ | ⟨a, ⟨l, hl, ha⟩, rfl⟩) |
    ⟨f, hf, ⟨k, hk, rfl⟩ | ⟨s, hs, rfl⟩⟩
  · exact ((h.pages page hp).actions a ha).body
  · exact ((h.libraries l hl).actions a ha).body
  · exact (h.features f hf).hooks k hk
  · exact (h.features f hf).scenarios s hs

/-! ## Steps -/

section
variable {T : Traits} {s : Step} {t : Target} {e : Expression} {body : List Statement} {line : Nat}

/-- What a step refers to. -/
def Step.parts (s : Step) : List Target × List Expression × Option String × Option String :=
  (s.targets, s.expressions, s.owner?, s.bound?)

/-- A step that binds and performs nothing: its elements and values decide. -/
theorem Step.has_of {ts : List Target} {es : List Expression} (h : s.parts = (ts, es, none, none))
    (ht : ∀ t ∈ ts, T.target t) (he : ∀ e ∈ es, T.value e) : s.Has T := by
  obtain ⟨rfl, rfl, ho, hb⟩ : s.targets = ts ∧ s.expressions = es ∧ s.owner? = none ∧
      s.bound? = none := by simpa [Step.parts] using h
  exact {
    targets := ht
    values := he
    conditions := by rintro q rfl; cases hb
    owner := by simp [ho]
    binds := by simp [hb] }

theorem Step.has_target (ht : T.target t) (h : s.parts = ([t], [], none, none)) : s.Has T :=
  Step.has_of h (by simpa using ht) (by simp)

theorem Step.has_both (ht : T.target t) (he : T.value e)
    (h : s.parts = ([t], [e], none, none)) : s.Has T :=
  Step.has_of h (by simpa using ht) (by simpa using he)

theorem Step.has_option {x : Option Expression} (hx : ∀ e, x = some e → T.value e)
    (h : s.parts = ([], x.toList, none, none)) : s.Has T :=
  Step.has_of h (by simp) (by simpa using hx)

theorem Step.has_value (he : T.value e) (h : s.parts = ([], [e], none, none)) : s.Has T :=
  Step.has_of h (by simp) (by simpa using he)

theorem Step.has_plain (h : s.parts = ([], [], none, none)) : s.Has T :=
  Step.has_of h (by simp) (by simp)

theorem Statement.has_step (h : s.Has T) : (Statement.step line s).Has T where
  targets := h.targets
  values := h.values
  conditions := by
    intro c hc
    cases s with
    | query q => exact h.conditions q rfl c hc
    | _ => cases hc
  mentions := fun n hn => h.owner n (Option.mem_toList.1 hn)
  binds := h.binds

theorem Statement.has_branch {c : Condition} {thenBody elseBody : List Statement}
    (ht : ∀ t ∈ (Statement.branch line c thenBody elseBody).targets, T.target t)
    (he : ∀ e ∈ (Statement.branch line c thenBody elseBody).expressions, T.value e) :
    (Statement.branch line c thenBody elseBody).Has T where
  targets := ht
  values := he
  conditions := by simp [Statement.dataConditions]
  mentions := by simp [Statement.mentioned]
  binds := by simp [Statement.binds?]

/-- A loop has the properties, and so has its body. -/
theorem bodyHas_loop {s : Statement} (hs : s.Has T) (hb : BodyHas T body)
    (h : s.flatten = s :: Statement.flattenAll body) : BodyHas T [s] := by
  rw [BodyHas, Statement.flattenAll, Statement.flattenAll, List.append_nil, h]
  exact List.forall_mem_cons.2 ⟨hs, hb⟩

theorem bodyHas_iff : BodyHas T body ↔ ∀ s ∈ body, BodyHas T [s] := by
  induction body with
  | nil => simp [BodyHas, Statement.flattenAll]
  | cons s rest ih =>
    have h : BodyHas T (s :: rest) ↔ BodyHas T [s] ∧ BodyHas T rest := by
      simp only [BodyHas, Statement.flattenAll, List.append_nil, List.mem_append, or_imp,
        forall_and]
    rw [h, ih, List.forall_mem_cons]

end

theorem isWord_of_isBareName {t : Token} (h : t.kind.isBareName = true) : t.isWord = true := by
  unfold Token.isWord
  cases hk : t.kind <;> simp_all [TokenKind.isBareName, TokenKind.isWord]

namespace Grammar

open UiScenario.Grammar.Parser

/-! ## Parts of declarations -/

section
variable {T : Traits} {elseBody : List Statement} {a : Arm}

/-- An arm with a condition and a body that have the properties. -/
def Arm.Has (T : Traits) (a : Arm) : Prop :=
  (∀ elseBody, (Statement.branch a.line a.condition a.body elseBody).Has T) ∧
  BodyHas T a.body

theorem Arm.Has.branch (ha : a.Has T) (he : BodyHas T elseBody) :
    BodyHas T [.branch a.line a.condition a.body elseBody] := by
  intro s hs
  simp only [Statement.flattenAll, Statement.flatten, List.append_nil, List.mem_cons,
    List.mem_append] at hs
  rcases hs with rfl | hs | hs
  · exact ha.1 _
  · exact ha.2 s hs
  · exact he s hs

theorem has_chain {rest : List Arm} (ha : ∀ x ∈ a :: rest, x.Has T) (he : BodyHas T elseBody) :
    BodyHas T [a.chain rest elseBody] := by
  induction rest generalizing a with
  | nil => exact (ha a (by simp)).branch he
  | cons b rest ih =>
    obtain ⟨ha, hrest⟩ := List.forall_mem_cons.1 ha
    exact ha.branch (ih hrest)

/-- What a member of a page is has the properties. -/
def PageMember.Has (T : Traits) : PageMember → Prop
  | field f => T.name f.name
  | variable_ v => T.name v.name ∧ T.value v.value
  | action a => a.Has T

theorem has_pageMembers (members : List PageMember) (h : ∀ m ∈ members, m.Has T) {p : Page}
    (hn : T.name p.name) (hf : p.fields = members.filterMap PageMember.field?)
    (hv : p.pageVariables = members.filterMap PageMember.pageVariable?)
    (ha : p.actions = members.filterMap PageMember.action?) : p.Has T where
  name := hn
  fields := by
    rw [hf, List.forall_mem_filterMap]
    rintro (_ | _ | _) hm _ ⟨⟩
    exact h _ hm
  pageVariables := by
    rw [hv, List.forall_mem_filterMap]
    rintro (_ | _ | _) hm _ ⟨⟩
    exact h _ hm
  actions := by
    rw [ha, List.forall_mem_filterMap]
    rintro (_ | _ | _) hm _ ⟨⟩
    exact h _ hm

/-- What a member of a feature is has the properties. -/
def FeatureMember.Has (T : Traits) : FeatureMember → Prop
  | tags _ => True
  | uses us | faulty us => ∀ u ∈ us, T.name u.name
  | hook h => BodyHas T h.body
  | scenario s => BodyHas T s.body

theorem has_scenarios {pending : List String} {members : List FeatureMember}
    (h : ∀ m ∈ members, m.Has T) :
    ∀ s ∈ FeatureMember.scenarios pending members, BodyHas T s.body := by
  fun_induction FeatureMember.scenarios pending members with
  | case1 => simp
  | case3 pending s rest ih =>
    intro x hx
    rcases List.mem_cons.1 hx with rfl | hx
    · exact h (.scenario s) (by simp)
    · exact ih (fun m hm => h m (by simp [hm])) x hx
  | case2 _ _ _ ih | case4 _ _ _ ih | case5 _ _ _ ih | case6 _ _ _ ih =>
    exact ih fun m hm => h m (by simp [hm])

/-- What a declaration is has the properties. -/
def Declaration.Has (T : Traits) : Declaration → Prop
  | page p => p.Has T
  | library l => l.Has T
  | feature f => f.Has T

end

/-- From tokens that have a property, the rules read what has properties. -/
structure Gathers (P : Token → Prop) (T : Traits) : Prop where
  expression : Yields (Ahead P) expression T.value
  target : Yields (Ahead P) target T.target
  word : ∀ t, P t → t.isWord = true → T.name t.value
  bare : ∀ t, P t → t.kind.isBareName = true → T.binding t.value
  /-- A value may turn out to be an element. -/
  element : ∀ e t, T.value e → elementOf? e = some t → T.target t

/-! ## Names -/

theorem not_isUnary_dataComparison {kind : TokenKind} {op : ComparisonOp}
    (h : dataComparison? kind = some op) : op.isUnary = false := by
  unfold dataComparison? at h
  split at h
  · cases h
    rfl
  · unfold comparison? at h
    split at h <;> cases h <;> rfl

section
variable {P : Token → Prop}

/-- A rule that starts with a name that has a qualifier, or goes on otherwise. -/
theorem yields_qualified {β : Type} {f : String × String → Parser β} {g : Parser β}
    {r : β → Prop}
    (hf : ∀ q n : Token, P q → q.isWord = true → P n → n.isWord = true →
      Yields (Ahead P) (f (q.value, n.value)) r)
    (hg : Yields (Ahead P) g r) :
    Yields (Ahead P)
      (ahead >>= fun ts => if atQualifiedName ts = true then qualifiedName >>= f else g) r := by
  intro s hs
  show Ends _ _ ((if atQualifiedName s.ahead = true then qualifiedName >>= f else g) s)
  split
  · next h =>
    obtain ⟨ts, last, opened, reported, errors⟩ := s
    match ts, h with
    | q :: d :: n :: rest, h =>
      simp only [atQualifiedName, Bool.and_eq_true] at h
      refine hf q n (hs.2 q (by simp)) h.1.1 (hs.2 n (by simp)) h.2
        ⟨rest, last, opened, reported, errors⟩ ?_
      exact ⟨hs.1, fun t ht => hs.2 t (by simp [ht])⟩
  · exact hg s hs

/-- A rule that starts with a word that stands alone, or goes on otherwise. -/
theorem yields_bare {β : Type} {f : Token → Parser β} {g : Parser β} {r : β → Prop}
    (hf : ∀ t, P t → t.isWord = true → Yields (Ahead P) (f t) r) (hg : Yields (Ahead P) g r) :
    Yields (Ahead P)
      (ahead >>= fun ts => if atBareName ts = true then advance >>= f else g) r := by
  intro s hs
  show Ends _ _ ((if atBareName s.ahead = true then advance >>= f else g) s)
  split
  · next h =>
    exact hf s.current hs.current (isWord_of_isBareName (isBareName_current h)) _ hs.tail
  · exact hg s hs

theorem yields_elementState : Yields (Ahead P) elementState fun _ => True := by
  refine yields_current.bind fun t _ => ?_
  split
  · exact yields_advance.bind fun _ _ => yields_pure trivial
  · exact yields_fail

theorem yields_primary {R : Option String × String → Prop}
    (hq : ∀ q n : Token, P q → q.isWord = true → P n → n.isWord = true →
      R (some q.value, n.value))
    (hb : ∀ t : Token, P t → t.isWord = true → R (none, t.value)) :
    Yields (Ahead P) primary fun e => ∀ r, e.reference? = some r → R r := by
  refine yields_current.bind fun t _ => ?_
  split
  · exact yields_advance.bind fun _ _ => yields_pure (by simp [Primary.reference?])
  · split
    · exact yields_advance.bind fun _ _ => yields_pure (by simp [Primary.reference?])
    · exact yields_fail
  · exact yields_advance.bind fun _ _ => yields_pure (by simp [Primary.reference?])
  · exact yields_advance.bind fun _ _ => yields_pure (by simp [Primary.reference?])
  · exact yields_advance.bind fun _ _ => yields_pure (by simp [Primary.reference?])
  · refine yields_qualified (fun q n hq' hw hn hw' => ?_)
      (yields_bare (fun t ht hw => ?_) yields_fail)
    · exact yields_pure (by rintro _ ⟨⟩; exact hq q n hq' hw hn hw')
    · exact yields_pure (by rintro _ ⟨⟩; exact hb t ht hw)

theorem yields_expression {R : Option String × String → Prop}
    (hq : ∀ q n : Token, P q → q.isWord = true → P n → n.isWord = true →
      R (some q.value, n.value))
    (hb : ∀ t : Token, P t → t.isWord = true → R (none, t.value)) :
    Yields (Ahead P) expression fun e => ∀ r ∈ e.references, R r := by
  have hp := yields_primary hq hb
  refine hp.bind fun first hf => ?_
  refine (yields_many (yields_after? hp)).bind fun rest hr => yields_pure fun r hm => ?_
  obtain ⟨e, he, h⟩ := List.mem_filterMap.1 hm
  rcases List.mem_cons.1 he with rfl | he
  · exact hf r h
  · exact hr e he r h

/-- A condition on a row has a value exactly if its comparison takes one. -/
theorem yields_dataCondition {V : Expression → Prop} (he : Yields (Ahead P) expression V) :
    Yields (Ahead P) dataCondition fun c =>
      c.value.isSome = !c.op.isUnary ∧ ∀ e, c.value = some e → V e := by
  refine yields_name.bind fun column _ => yields_current.bind fun t _ => ?_
  refine yields_ite (fun _ => ?_) fun _ => ?_
  · refine yields_advance.bind fun _ _ => yields_expect.bind fun _ _ => ?_
    refine he.bind fun e he => yields_pure ⟨?_, by rintro _ ⟨⟩; exact he⟩
    split <;> rfl
  · refine yields_option ?_ ?_
    · refine yields_eat.bind fun _ _ => yields_expect.bind fun _ _ => yields_pure ⟨?_, by simp⟩
      split <;> rfl
    · simp only [Bool.false_eq_true, if_false]
      split
      · next op hop =>
        refine yields_advance.bind fun _ _ => ?_
        refine he.bind fun e he => yields_pure ⟨?_, by rintro _ ⟨⟩; exact he⟩
        rw [not_isUnary_dataComparison hop]
        rfl
      · exact yields_fail

theorem yields_selector : Yields (Ahead P) selector fun _ => True := by
  refine yields_current.bind fun t _ => ?_
  split
  · exact yields_advance.bind fun _ _ => yields_pure trivial
  · exact yields_advance.bind fun _ _ => yields_pure trivial
  · exact yields_fail

/-- An element: a selector, or a name with a qualifier or without one. -/
theorem yields_target {V : Target → Prop} (hs : ∀ s : PlainSelector, V (.selector s.expression))
    (hq : ∀ q n : Token, P q → q.isWord = true → P n → n.isWord = true →
      V (.element (some q.value) n.value))
    (hb : ∀ t : Token, P t → t.isWord = true → V (.element none t.value)) :
    Yields (Ahead P) target V := by
  refine yields_current.bind fun t _ => ?_
  split
  · exact yields_selector.bind fun s _ => yields_pure (hs s)
  · exact yields_selector.bind fun s _ => yields_pure (hs s)
  · refine yields_qualified (fun q n hq' hw hn hw' => ?_)
      (yields_bare (fun t ht hw => ?_) yields_fail)
    · exact yields_pure (hq q n hq' hw hn hw')
    · exact yields_pure (hb t ht hw)

theorem yields_count {expected : String} :
    Yields (Ahead P) (count expected) fun _ => True := by
  refine yields_current.bind fun t _ => ?_
  split
  · exact yields_advance.bind fun _ _ => yields_pure trivial
  · exact yields_fail

theorem yields_tags : Yields (Ahead P) tags fun _ => True :=
  (yields_many (q := fun _ => True) (yields_check.bind fun _ _ => yields_ite
    (fun _ => yields_advance.bind fun _ _ => yields_pure fun _ _ => trivial)
    fun _ => yields_pure fun _ _ => trivial)).mono fun _ _ => trivial

end

section
variable {P : Token → Prop} {T : Traits} (hT : Gathers P T)
include hT

theorem has_name {expected : String} : Yields (Ahead P) (Parser.name expected) T.name :=
  yields_name.mono fun _ ⟨t, ht, hw, e⟩ => e ▸ hT.word t ht hw

theorem has_binding {expected : String} : Yields (Ahead P) (binding expected) T.binding :=
  yields_binding.mono fun _ ⟨t, ht, hb, e⟩ => e ▸ hT.bare t ht hb

/-- A condition: a statement with it has the properties. -/
theorem has_condition : Yields (Ahead P) condition fun c =>
    ∀ line thenBody elseBody, (Statement.branch line c thenBody elseBody).Has T := by
  refine hT.expression.bind fun left hl => ?_
  refine yields_check.bind fun _ _ => yields_ite (fun _ => ?_) fun _ => ?_
  · refine yields_advance.bind fun is _ => yields_eat.bind fun negated _ => ?_
    refine yields_elementState.bind fun state _ => ?_
    split
    · next t ht =>
      have := hT.element _ _ hl ht
      exact yields_pure fun _ _ _ => Statement.has_branch (by simpa [Statement.targets] using this)
        (by simp [Statement.expressions])
    · exact yields_throw
  · refine yields_current.bind fun t _ => ?_
    split
    · refine yields_advance.bind fun _ _ => hT.expression.bind fun right hr => ?_
      exact yields_pure fun _ _ _ => Statement.has_branch (by simp [Statement.targets])
        (by simp [Statement.expressions, hl, hr])
    · exact yields_pure fun _ _ _ => Statement.has_branch (by simp [Statement.targets])
        (by simpa [Statement.expressions] using hl)

/-! ## Queries -/

theorem has_whereClause : Yields (Ahead P) whereClause fun w =>
    ∀ c ∈ w.conditions, c.value.isSome = !c.op.isUnary ∧ ∀ e, c.value = some e → T.value e := by
  have hc := yields_dataCondition hT.expression
  refine hc.bind fun first hf => ?_
  refine Yields.bind (q := fun rest => ∀ x ∈ rest, x.2.value.isSome = !x.2.op.isUnary ∧
    ∀ e, x.2.value = some e → T.value e) (yields_many ?_) fun rest hr => yields_pure ?_
  · refine yields_current.bind fun t _ => ?_
    split
    · refine yields_advance.bind fun _ _ => hc.bind fun c hc => ?_
      exact yields_pure (by rintro _ ⟨⟩; exact hc)
    · exact yields_pure (by simp)
  · intro c hc
    rcases List.mem_cons.1 hc with rfl | hc
    · exact hf
    · obtain ⟨x, hx, rfl⟩ := List.mem_map.1 hc
      exact hr x hx

theorem yields_tableRef : Yields (Ahead P) tableRef fun _ => True :=
  (has_name hT).bind fun _ _ => (yields_after? (has_name hT)).bind fun _ _ => yields_pure trivial

theorem has_querySource : Yields (Ahead P) querySource fun x => T.binding x.2.1 := by
  refine yields_advance.bind fun t _ => yields_ite (fun _ => ?_) fun _ => ?_
  · refine (has_binding hT).bind fun _ hb => yields_expect.bind fun _ _ => ?_
    exact (yields_tableRef hT).bind fun _ _ => yields_pure hb
  · refine (has_binding hT).bind fun _ hb => yields_expect.bind fun _ _ => ?_
    refine yields_current.bind fun t _ => ?_
    split
    · exact yields_advance.bind fun _ _ => (yields_tableRef hT).bind fun _ _ => yields_pure hb
    · exact yields_fail

theorem yields_orderClause : Yields (Ahead P) orderClause fun _ => True := by
  have ho : Yields (Ahead P) orderBy fun _ => True := by
    refine (has_name hT).bind fun _ _ => yields_option (yields_pure trivial) ?_
    exact yields_eat.bind fun _ _ => yields_pure trivial
  refine yields_option ?_ (yields_pure trivial)
  exact yields_expect.bind fun _ _ => (yields_commaSeparated ho).mono fun _ _ => trivial

theorem has_query : Yields (Ahead P) query fun q => (Step.query q).Has T := by
  refine (has_querySource hT).bind fun x hx => ?_
  refine (yields_after? (has_whereClause hT)).bind fun w hw => ?_
  refine (yields_orderClause hT).bind fun _ _ => (yields_after? yields_count).bind fun _ _ => ?_
  refine (yields_after? yields_count).bind fun _ _ => yields_pure ?_
  have hc : ∀ c ∈ w.elim [] WhereClause.conditions,
      c.value.isSome = !c.op.isUnary ∧ ∀ e, c.value = some e → T.value e := by
    cases w with
    | none => simp
    | some w => exact hw w rfl
  exact
    { targets := by simp [Step.targets]
      values := fun e he =>
        have ⟨c, hm, hv⟩ := List.mem_filterMap.1 he
        (hc c hm).2 e hv
      conditions := by rintro _ ⟨⟩; exact fun c hm => (hc c hm).1
      owner := by simp [Step.owner?]
      binds := by rintro _ ⟨⟩; exact hx }

/-! ## Steps -/

theorem has_withTarget {make : Target → Step}
    (h : ∀ t, T.target t → (make t).Has T) :
    Yields (Ahead P) (withTarget make) (Step.Has T) :=
  yields_advance.bind fun _ _ => hT.target.bind fun t ht => yields_pure (h t ht)

theorem has_withValue {make : Expression → Step}
    (h : ∀ e, T.value e → (make e).Has T) :
    Yields (Ahead P) (withValue make) (Step.Has T) :=
  yields_advance.bind fun _ _ => hT.expression.bind fun e he => yields_pure (h e he)

theorem has_scrollStep : Yields (Ahead P) scrollStep (Step.Has T) := by
  refine yields_advance.bind fun _ _ => ?_
  refine yields_option (yields_pure (Step.has_plain rfl)) ?_
  refine yields_option (yields_pure (Step.has_plain rfl)) ?_
  refine yields_option ?_ yields_fail
  exact hT.target.bind fun t ht => yields_pure (Step.has_target ht rfl)

theorem has_dragStep : Yields (Ahead P) dragStep (Step.Has T) := by
  refine yields_advance.bind fun _ _ => hT.target.bind fun t ht => ?_
  refine yields_expect.bind fun _ _ => hT.target.bind fun u hu => yields_pure ?_
  exact Step.has_of rfl (by simp [Step.targets, ht, hu]) (by simp [Step.expressions])

theorem has_openStep : Yields (Ahead P) openStep (Step.Has T) := by
  have he : Yields (Ahead P) (Step.open_ <$> expression) (Step.Has T) :=
    hT.expression.map fun e he => Step.has_value he rfl
  refine yields_advance.bind fun t _ => yields_ite (fun _ => ?_) fun _ => he
  exact yields_expect.bind fun _ _ => he

theorem has_fillStep : Yields (Ahead P) fillStep (Step.Has T) := by
  refine yields_advance.bind fun _ _ => hT.target.bind fun t ht => ?_
  refine yields_expect.bind fun _ _ => hT.expression.bind fun e he => yields_pure ?_
  exact Step.has_both ht he rfl

theorem has_selectStep : Yields (Ahead P) selectStep (Step.Has T) := by
  refine yields_advance.bind fun _ _ => hT.expression.bind fun e he => ?_
  refine yields_expect.bind fun _ _ => hT.target.bind fun t ht => yields_pure ?_
  exact Step.has_both ht he rfl

theorem has_uploadStep : Yields (Ahead P) uploadStep (Step.Has T) := by
  refine yields_advance.bind fun _ _ => hT.expression.bind fun e he => ?_
  refine yields_expect.bind fun _ _ => hT.target.bind fun t ht => yields_pure ?_
  exact Step.has_both ht he rfl

theorem has_waitStep : Yields (Ahead P) waitStep (Step.Has T) := by
  have hu : Yields (Ahead P) waitUnit fun _ => True :=
    yields_option (yields_pure trivial) (yields_eat.bind fun _ _ => yields_pure trivial)
  refine yields_advance.bind fun _ _ => ?_
  refine yields_option ?_ ?_
  · exact hT.target.bind fun t ht => yields_pure (Step.has_target ht rfl)
  · refine hT.expression.bind fun e he => hu.bind fun _ _ => yields_pure ?_
    exact Step.has_value he rfl

theorem has_clearStep : Yields (Ahead P) clearStep (Step.Has T) := by
  refine yields_advance.bind fun _ _ => ?_
  refine yields_option (yields_pure (Step.has_plain rfl)) ?_
  refine yields_option (yields_pure (Step.has_plain rfl)) ?_
  exact hT.target.bind fun t ht => yields_pure (Step.has_target ht rfl)

theorem has_screenshotStep : Yields (Ahead P) screenshotStep (Step.Has T) := by
  refine yields_advance.bind fun _ _ => yields_expect.bind fun _ _ => ?_
  refine (yields_after? hT.expression).bind fun x hx => yields_pure ?_
  exact Step.has_option hx rfl

theorem has_switchStep : Yields (Ahead P) switchStep (Step.Has T) := by
  refine yields_advance.bind fun _ _ => yields_expect.bind fun _ _ => ?_
  refine yields_option ?_ ?_
  · refine yields_expect.bind fun _ _ => yields_ahead.bind fun _ _ => yields_ite (fun _ => ?_) ?_
    · refine hT.expression.bind fun e he => yields_pure ?_
      exact Step.has_value he rfl
    · exact fun _ => yields_pure (Step.has_plain rfl)
  refine yields_option ?_ ?_
  · exact hT.expression.bind fun e he => yields_pure (Step.has_value he rfl)
  refine yields_option ?_ ?_
  · exact hT.target.bind fun t ht => yields_pure (Step.has_target ht rfl)
  refine yields_option ?_ yields_fail
  exact yields_expect.bind fun _ _ => yields_pure (Step.has_plain rfl)

theorem has_dialogStep : Yields (Ahead P) dialogStep (Step.Has T) := by
  refine yields_advance.bind fun _ _ => yields_expect.bind fun _ _ => ?_
  refine yields_ite (fun _ => yields_pure (Step.has_plain rfl)) fun _ => ?_
  refine (yields_after? hT.expression).bind fun x hx => yields_pure ?_
  exact Step.has_option hx rfl

theorem has_assertionOf {element : Target} (ht : T.target element) :
    Yields (Ahead P) (assertionOf element) fun a => (Step.verify a).Has T := by
  refine yields_option ?_ ?_
  · refine yields_eat.bind fun _ _ => yields_elementState.bind fun _ _ => yields_pure ?_
    exact Step.has_target ht rfl
  refine yields_eat.bind fun negated _ => ?_
  refine yields_option ?_ ?_
  · refine yields_eat.bind fun _ _ => hT.expression.bind fun e he => yields_pure ?_
    exact Step.has_both ht he rfl
  refine yields_expect.bind fun _ _ => ?_
  refine yields_option ?_ ?_
  · refine hT.expression.bind fun e he => yields_pure ?_
    exact Step.has_both ht he rfl
  refine yields_option ?_ ?_
  · refine hT.expression.bind fun e he => yields_pure ?_
    exact Step.has_both ht he rfl
  simp only [Bool.false_eq_true, if_false]
  refine yields_ite (fun _ => yields_fail.bind (q := fun _ => False) fun _ h => h.elim) fun _ => ?_
  refine yields_option ?_ ?_
  · refine hT.expression.bind fun e he => yields_expect.bind fun _ _ => ?_
    refine hT.expression.bind fun e' he' => yields_pure ?_
    exact Step.has_of rfl (by simpa [Step.targets, Assertion.targets] using ht)
      (by simp [Step.expressions, Assertion.expressions, he, he'])
  refine yields_option ?_ yields_fail
  refine hT.expression.bind fun e he => yields_pure ?_
  exact Step.has_both ht he rfl

theorem has_verifyStep : Yields (Ahead P) verifyStep (Step.Has T) := by
  have hu : Yields (Ahead P) urlMatch fun _ => True :=
    yields_option (yields_pure trivial) (yields_option (yields_pure trivial)
      (yields_option (yields_pure trivial) yields_fail))
  have hc : Yields (Ahead P) titleContains fun _ => True :=
    yields_option (yields_pure trivial) (yields_option (yields_pure trivial) yields_fail)
  refine yields_advance.bind fun _ _ => ?_
  refine yields_ahead.bind fun _ _ => yields_ite (fun _ => ?_) fun _ => ?_
  · refine yields_advance.bind fun _ _ => hu.bind fun _ _ => ?_
    exact hT.expression.bind fun e he => yields_pure (Step.has_value he rfl)
  refine yields_ahead.bind fun _ _ => yields_ite (fun _ => ?_) fun _ => ?_
  · refine yields_advance.bind fun _ _ => hc.bind fun _ _ => ?_
    exact hT.expression.bind fun e he => yields_pure (Step.has_value he rfl)
  refine hT.target.bind fun t ht => (has_assertionOf hT ht).bind fun a ha => yields_pure ha

theorem has_declareStep : Yields (Ahead P) declareStep (Step.Has T) := by
  refine yields_advance.bind fun _ _ => (has_binding hT).bind fun n hn => ?_
  refine yields_expect.bind fun _ _ => hT.expression.bind fun e he => yields_pure ?_
  exact
    { targets := by simp [Step.targets]
      values := by simpa [Step.expressions] using he
      conditions := by simp
      owner := by simp [Step.owner?]
      binds := by rintro _ ⟨⟩; exact hn }

theorem has_performStep : Yields (Ahead P) performStep (Step.Has T) := by
  have hp : ∀ {o : String} {a : String} {es : List Expression}, T.name o →
      (∀ e ∈ es, T.value e) → (Step.perform o a es).Has T := fun ho hes =>
    { targets := by simp [Step.targets]
      values := hes
      conditions := by simp
      owner := by rintro _ ⟨⟩; exact ho
      binds := by simp [Step.bound?] }
  refine yields_advance.bind fun _ _ => ?_
  refine yields_qualified (fun q n hq hw _ _ => ?_)
    (yields_fail.bind (q := fun _ => False) fun _ h => h.elim)
  have ho := hT.word q hq hw
  refine yields_option ?_ ?_
  · exact (yields_commaSeparated hT.expression).bind fun es hes => yields_pure (hp ho hes)
  · exact yields_pure (hp ho (by simp))

theorem has_queryStep : Yields (Ahead P) queryStep (Step.Has T) :=
  (has_query hT).bind fun _ hq => yields_pure hq

theorem has_stepRule {word : Keyword} {ts : List Token} {rule : Parser Step}
    (h : stepRule? word ts = some rule) : Yields (Ahead P) rule (Step.Has T) := by
  unfold stepRule? at h
  split at h <;> cases h
  · exact has_openStep hT
  · exact has_openStep hT
  · exact has_withTarget hT fun t ht => Step.has_target ht rfl
  · exact has_fillStep hT
  · exact has_withTarget hT fun t ht => Step.has_target ht rfl
  · exact has_withTarget hT fun t ht => Step.has_target ht rfl
  · exact has_withTarget hT fun t ht => Step.has_target ht rfl
  · exact has_selectStep hT
  · exact has_scrollStep hT
  · exact has_withValue hT fun e he => Step.has_value he rfl
  · exact has_dragStep hT
  · exact has_uploadStep hT
  · exact has_waitStep hT
  · exact yields_advance.bind fun _ _ => yields_pure (Step.has_plain rfl)
  · exact has_clearStep hT
  · exact has_screenshotStep hT
  · exact has_withValue hT fun e he => Step.has_value he rfl
  · exact has_switchStep hT
  · exact yields_advance.bind fun _ _ => yields_expect.bind fun _ _ =>
      yields_pure (Step.has_plain rfl)
  · exact has_dialogStep hT
  · exact has_dialogStep hT
  · exact has_verifyStep hT
  · exact has_performStep hT
  · exact has_queryStep hT
  · exact has_queryStep hT
  · exact yields_ite (fun _ => has_queryStep hT) fun _ => has_declareStep hT
  · exact yields_ite (fun _ => has_queryStep hT) fun _ => has_declareStep hT
  · exact yields_ite (fun _ => has_queryStep hT) fun _ => has_declareStep hT
  · exact has_declareStep hT

/-! ## Statements -/

theorem has_arm {block : String → Parser (List Statement)}
    (hb : ∀ what, Yields (Ahead P) (block what) (BodyHas T)) :
    Yields (Ahead P) (arm block) (Arm.Has T) :=
  yields_advance.bind fun _ _ => (has_condition hT).bind fun _ hc => (hb _).bind fun _ hbody =>
    yields_pure ⟨hc _ _, hbody⟩

section
variable {block : String → Parser (List Statement)}
  (hb : ∀ what, Yields (Ahead P) (block what) (BodyHas T))
include hb

theorem has_branchStatement :
    Yields (Ahead P) (branchStatement block) fun s => BodyHas T [s] := by
  refine (has_arm hT hb).bind fun a ha => ?_
  refine Yields.bind (q := fun further => ∀ x ∈ further, Arm.Has T x)
    (yields_many ?_) fun further hf => ?_
  · refine yields_ahead.bind fun _ _ => yields_ite (fun _ => ?_) fun _ => yields_pure (by simp)
    refine yields_advance.bind fun _ _ => (has_arm hT hb).bind fun x hx => ?_
    exact yields_pure (by rintro _ ⟨⟩; exact hx)
  · have hc : ∀ x ∈ a :: further, x.Has T := List.forall_mem_cons.2 ⟨ha, hf⟩
    refine yields_option ?_ ?_
    · exact (hb _).bind fun e he => yields_pure (has_chain hc he)
    · exact yields_pure (has_chain hc (by simp [BodyHas, Statement.flattenAll]))

theorem has_repeatStatement :
    Yields (Ahead P) (repeatStatement block) fun s => BodyHas T [s] := by
  refine yields_advance.bind fun _ _ => hT.expression.bind fun e he => ?_
  refine yields_expect.bind fun _ _ => (hb _).bind fun body hbody =>
    yields_pure (bodyHas_loop ?_ hbody rfl)
  exact
    { targets := by simp [Statement.targets]
      values := by simpa [Statement.expressions] using he
      conditions := by simp [Statement.dataConditions]
      mentions := by simp [Statement.mentioned]
      binds := by simp [Statement.binds?] }

theorem has_forEachStatement :
    Yields (Ahead P) (forEachStatement block) fun s => BodyHas T [s] := by
  refine yields_advance.bind fun _ _ => yields_expect.bind fun _ _ => ?_
  refine (has_binding hT).bind fun item hi => yields_expect.bind fun _ _ => ?_
  refine (has_name hT).bind fun collection hc => (hb _).bind fun body hbody =>
    yields_pure (bodyHas_loop ?_ hbody rfl)
  exact
    { targets := by simp [Statement.targets]
      values := by simp [Statement.expressions]
      conditions := by simp [Statement.dataConditions]
      mentions := by simpa [Statement.mentioned] using hc
      binds := by rintro _ ⟨⟩; exact hi }

theorem has_statementRule :
    Yields (Ahead P) (statementRule block) fun s => BodyHas T [s] := by
  refine yields_current.bind fun start _ => ?_
  dsimp only
  split
  · exact has_branchStatement hT hb
  · exact has_repeatStatement hT hb
  · exact has_forEachStatement hT hb
  · refine yields_ahead.bind fun ts _ => ?_
    split
    · next rule hr =>
      refine (has_stepRule hT hr).bind fun s hs => yields_pure ?_
      intro x hx
      obtain rfl : x = .step start.line s := by
        simpa [Statement.flattenAll, Statement.flatten] using hx
      exact Statement.has_step hs
    · exact yields_throw
  · exact yields_throw

theorem has_blockMember :
    Yields (Ahead P) (blockMember block) fun x => ∀ s, x = some s → BodyHas T [s] := by
  have hs : Yields (Ahead P) (statementWith block) fun s => BodyHas T [s] :=
    yields_current.bind fun _ _ => yields_get fun _ => yields_setOpened.bind fun _ _ =>
      (has_statementRule hT hb).bind fun s hs => yields_setOpened.bind fun _ _ => yields_pure hs
  exact yields_get fun _ => yields_recovering <| yields_tryCatch hs fun _ =>
    yields_setOpened.bind fun _ _ => yields_throw

end

theorem has_nestedBlock :
    ∀ n what, Yields (Ahead P) (nestedBlock n what) (BodyHas T)
  | 0, _ => yields_fail
  | n + 1, _ => by
    refine (yields_braced (has_blockMember hT (has_nestedBlock n))).bind fun xs hxs => ?_
    exact yields_pure (bodyHas_iff.2 (List.forall_mem_filterMap.2 hxs))

theorem has_block {what : String} : Yields (Ahead P) (block what) (BodyHas T) :=
  yields_ahead.bind fun _ _ => has_nestedBlock hT _ _

/-! ## Declarations -/

theorem has_action : Yields (Ahead P) action (Action.Has T) := by
  have hp : ∀ {ps : List String} {line : Nat} {n : String}, T.name n → (∀ x ∈ ps, T.binding x) →
      Yields (Ahead P) (do return (⟨n, ps, ← block "action", line⟩ : Action))
        (Action.Has T) :=
    fun hn hps => (has_block hT).bind fun _ hb => yields_pure ⟨hn, hps, hb⟩
  refine yields_current.bind fun _ _ => (has_name hT).bind fun n hn => ?_
  refine yields_option ?_ (hp hn (by simp))
  exact (yields_commaSeparated (has_binding hT)).bind fun _ hps => hp hn hps

theorem has_pageMember : Yields (Ahead P) pageMember (PageMember.Has T) := by
  have hf : Yields (Ahead P) field fun f => T.name f.name :=
    yields_advance.bind fun _ _ => yields_setOpened.bind fun _ _ => (has_name hT).bind fun _ hn =>
      yields_expect.bind fun _ _ => yields_selector.bind fun _ _ =>
        yields_setOpened.bind fun _ _ => yields_pure hn
  have hv : Yields (Ahead P) pageVariable fun v => T.name v.name ∧ T.value v.value :=
    yields_advance.bind fun _ _ => yields_setOpened.bind fun _ _ => (has_name hT).bind fun _ hn =>
      yields_expect.bind fun _ _ => hT.expression.bind fun _ he =>
        yields_setOpened.bind fun _ _ => yields_pure ⟨hn, he⟩
  refine yields_check.bind fun _ _ => yields_ite (fun _ => ?_) fun _ => ?_
  · exact hf.bind fun _ h => yields_pure h
  refine yields_ahead.bind fun _ _ => yields_ite (fun _ => ?_) fun _ => ?_
  · exact (has_action hT).bind fun _ h => yields_pure h
  refine yields_current.bind fun _ _ => yields_ite (fun _ => ?_) fun _ => yields_fail
  exact hv.bind fun _ h => yields_pure h

theorem has_page : Yields (Ahead P) page (Page.Has T) := by
  have hm : Yields (Ahead P) recoveringPageMember fun x => ∀ m, x = some m → m.Has T := by
    refine (yields_recovering (has_pageMember hT)).bind fun x hx => yields_ite (fun _ => ?_) ?_
    · exact yields_setOpened.bind fun _ _ => yields_pure hx
    · exact fun _ => yields_pure hx
  refine yields_advance.bind fun _ _ => (has_name hT).bind fun n hn => ?_
  refine (yields_after? (q := fun _ => True) ?_).bind fun _ _ => ?_
  · exact yields_expect.bind fun _ _ => yields_expect.bind fun _ _ => yields_pure trivial
  refine (yields_braced hm).bind fun xs hxs => yields_pure ?_
  exact has_pageMembers (xs.filterMap id) (List.forall_mem_filterMap.2 hxs) hn rfl rfl rfl

theorem has_library : Yields (Ahead P) library (Library.Has T) := by
  have hm : Yields (Ahead P) libraryMember (Action.Has T) :=
    yields_ahead.bind fun _ _ => yields_ite (fun _ => has_action hT) fun _ => yields_fail
  refine yields_advance.bind fun _ _ => (has_name hT).bind fun _ hn => ?_
  refine (yields_after? (has_name hT)).bind fun _ hf => ?_
  exact (yields_braced (yields_recovering hm)).bind fun xs hxs =>
    yields_pure ⟨hn, hf, List.forall_mem_filterMap.2 hxs⟩

/-! ## Features -/

theorem yields_title {expected : String} : Yields (Ahead P) (title expected) fun _ => True :=
  yields_check.bind fun _ _ => yields_ite
    (fun _ => yields_advance.bind fun _ _ => yields_pure trivial)
    fun _ => (has_name hT).mono fun _ _ => trivial

theorem has_useNames : ∀ n, Yields (Ahead P) (useNames n) fun x => ∀ u ∈ x.1, T.name u.name
  | 0 => yields_pure (by simp)
  | n + 1 => by
    refine yields_current.bind fun _ _ => (yields_attempt (has_name hT)).bind fun x hx => ?_
    cases x with
    | error e => exact yields_pure (by simp)
    | ok name =>
      have hn := hx name rfl
      refine yields_option ?_ ?_
      · refine (has_useNames n).bind fun y hy => yields_pure ?_
        simpa using ⟨hn, hy⟩
      · exact yields_pure (by simpa using hn)

theorem has_featureMember :
    Yields (Ahead P) featureMember (FeatureMember.Has T) := by
  have hk : Yields (Ahead P) hookKind fun _ => True :=
    yields_advance.bind fun _ _ => yields_option (yields_pure trivial)
      (yields_option (yields_pure trivial) yields_fail)
  have hh : Yields (Ahead P) hook fun h => BodyHas T h.body :=
    yields_current.bind fun _ _ => hk.bind fun _ _ => (has_block hT).bind fun _ hb => yields_pure hb
  have hs : Yields (Ahead P) scenario fun s => BodyHas T s.body :=
    yields_advance.bind fun _ _ => (yields_title hT).bind fun _ _ => yields_tags.bind fun _ _ =>
      (has_block hT).bind fun _ hb => yields_pure hb
  refine yields_current.bind fun t _ => ?_
  split
  · exact yields_tags.bind fun _ _ => yields_pure trivial
  · exact hh.bind fun _ h => yields_pure h
  · exact hh.bind fun _ h => yields_pure h
  · exact hs.bind fun _ h => yields_pure h
  · exact yields_fail

theorem has_recoveringFeatureMember :
    Yields (Ahead P) recoveringFeatureMember (FeatureMember.Has T) := by
  refine yields_check.bind fun _ _ => yields_ite (fun _ => ?_) fun _ => ?_
  · refine yields_advance.bind fun t _ => yields_ahead.bind fun _ _ => ?_
    refine (has_useNames hT _).bind fun x hx => ?_
    split
    · exact yields_pure hx
    · refine yields_report.bind fun _ _ => ?_
      exact (yields_skip (skipTo_subset _ _ _)).bind fun _ _ => yields_pure hx
  · refine (yields_recovering (has_featureMember hT)).bind fun x hx => yields_pure ?_
    cases x with
    | none => simp [FeatureMember.Has]
    | some m => exact hx m rfl

theorem has_feature : Yields (Ahead P) feature (Feature.Has T) := by
  refine yields_advance.bind fun _ _ => (yields_title hT).bind fun _ _ => ?_
  refine yields_tags.bind fun _ _ => ?_
  refine (yields_braced (has_recoveringFeatureMember hT)).bind fun ms hms => yields_pure ?_
  refine ⟨fun u hu => ?_, fun h hh => ?_, has_scenarios hms⟩
  · obtain ⟨m, hm, hu⟩ := List.mem_flatMap.1 hu
    have := hms m hm
    cases m <;> simp_all [FeatureMember.uses?, FeatureMember.Has]
  · obtain ⟨m, hm, hh⟩ := List.mem_filterMap.1 hh
    have := hms m hm
    cases m <;> simp_all [FeatureMember.hook?, FeatureMember.Has]

/-! ## Programs -/

theorem has_declaration : Yields (Ahead P) declaration (Declaration.Has T) := by
  refine yields_current.bind fun _ _ => ?_
  split
  · exact (has_page hT).bind fun _ h => yields_pure h
  · exact (has_library hT).bind fun _ h => yields_pure h
  · exact (has_feature hT).bind fun _ h => yields_pure h
  · exact yields_fail

theorem has_program : Yields (Ahead P) program (Program.Has T) := by
  have hd : Yields (Ahead P) recoveringDeclaration fun x =>
      ∀ d, x = some d → d.Has T := by
    refine Yields.bind (q := fun _ => True) (yields_modify ?_) fun _ _ => ?_
    · exact fun _ hs => hs
    refine (yields_attempt (has_declaration hT)).bind fun x hx => ?_
    cases x with
    | ok d => exact yields_pure (by rintro _ ⟨⟩; exact hx d rfl)
    | error e =>
      exact yields_report.bind fun _ _ =>
        (yields_skip skipDeclaration_subset).bind fun _ _ => yields_pure (by simp)
  refine Yields.bind (q := fun xs => ∀ x ∈ xs, ∀ d, x = some d → Declaration.Has T d)
    (yields_many ?_) fun xs hxs => yields_pure ?_
  · refine yields_ahead.bind fun _ _ => yields_ite (fun _ => yields_pure (by simp)) fun _ => ?_
    exact hd.bind fun x hx => yields_pure (by rintro _ ⟨⟩; exact hx)
  have hall : ∀ d ∈ xs.filterMap id, d.Has T := List.forall_mem_filterMap.2 hxs
  constructor <;> refine List.forall_mem_filterMap.2 ?_ <;> rintro (_ | _ | _) hd _ ⟨⟩ <;>
    exact hall _ hd

end

end Grammar

theorem Grammar.kind_last_ofTokens (tokens : List Token) :
    (Grammar.State.ofTokens tokens).last.kind = .eof := by
  unfold Grammar.State.ofTokens
  dsimp only
  split
  · next t ht => simpa using List.find?_some ht
  · rfl

theorem Grammar.mem_of_mem_ahead {tokens : List Token} {t : Token}
    (h : t ∈ (Grammar.State.ofTokens tokens).ahead) : t ∈ tokens := by
  have hf : t ∈ tokens.filter (·.kind != .comment) := List.takeWhile_subset _ h
  exact (List.mem_filter.1 hf).1

open Grammar in
/-- **Parts of programs**: what the rules read from the tokens has the properties, and so has
    all that the program consists of. -/
theorem has_parse {P : Token → Prop} {T : Traits} (hT : Gathers P T) {tokens : List Token}
    (heof : ∀ t : Token, t.kind = .eof → P t) (h : ∀ t ∈ tokens, P t) :
    (parse tokens).program.Has T := by
  have hs : Parser.Ahead P (State.ofTokens tokens) :=
    ⟨heof _ (kind_last_ofTokens tokens), fun t ht => h t (mem_of_mem_ahead ht)⟩
  have hp := has_program hT (State.ofTokens tokens) hs
  unfold parse
  cases hr : program (State.ofTokens tokens) with
  | ok p s => rw [hr] at hp; exact hp.1
  | error e s => exact ⟨by simp [Program.empty], by simp [Program.empty], by simp [Program.empty]⟩

end UiScenario
