import UiScenario.Proofs.Readback

/-!
Reading back values, conditions and queries. A value ends where neither a plus sign nor a dot comes
next, an element where no dot does; a query ends where none of its clauses goes on.
-/

namespace UiScenario.Grammar

open UiScenario.Grammar.Parser

variable {behind : List TokenKind} {op : ComparisonOp} {xs : List Slot} {line : Nat}
  {column : String} {q : DataQuery} {bad : List TokenKind} {e : Expression} {t : Target}
  {k : TokenKind} {word : String} {x : Slot}

/-! ## Values and elements -/

theorem not_flag_of_isBareName (h : k.isBareName = true) : k ∉ flagKinds := by
  simp only [flagKinds, List.mem_cons, List.not_mem_nil, or_false]
  rintro (rfl | rfl) <;> exact absurd h (by decide)

/-- A name with or without a qualifier, as values and elements read it. -/
def reference {α : Type} (make : Option String → String → α) (expected : String) : Parser α := do
  if atQualifiedName (← ahead) then
    let (qualifier, name) ← qualifiedName
    return make (some qualifier) name
  if atBareName (← ahead) then return make none (← advance).value
  fail expected

theorem reads_reference {α : Type} (make : Option String → String → α) (expected : String)
    (qualifier : Option String) (name : String)
    (hn : qualifier = none → (TokenKind.ofWord name).isBareName = true)
    (hb : Avoids [.dot] behind) :
    Reads (reference make expected) (Target.element qualifier name).slots (make qualifier name)
      behind := by
  refine reads_ahead fun ts hts => ?_
  cases qualifier with
  | none =>
    have hq := not_atQualifiedName hts (hb.ne (by simp))
    refine reads_neg (by rw [hq]; nofun) (reads_ahead fun us hus => ?_)
    exact reads_pos ((atBareName_eq hus).trans (hn rfl)) (reads_valueOf (make none) fun _ h => h)
  | some qualifier =>
    exact reads_pos (atQualifiedName_of hts) (reads_qualifiedName.last reads_pure)

/-- As a value, a word that is no flag is a name. -/
theorem reads_primary_word {p : Primary} (hw : TokenKind.ofWord word ∉ flagKinds)
    (h : Reads (reference .ref "a value") (.name word :: xs) p behind) :
    Reads primary (.name word :: xs) p behind := by
  refine reads_current fun t ht => ?_
  change t.kind = TokenKind.ofWord word at ht
  rcases TokenKind.ofWord_cases word with hk | ⟨k, hk⟩
  · rw [ht, hk]; exact h
  · rw [hk] at ht hw
    rw [ht]
    split
    · next heq => cases heq
    · next heq => cases heq
    · next heq => rw [heq] at hw; exact absurd hw (by decide)
    · next heq => rw [heq] at hw; exact absurd hw (by decide)
    · next heq => cases heq
    · exact h

theorem reads_target_word
    (h : Reads (reference .element "an element (Page.field, a field name or a selector)")
      (.name word :: xs) t behind) : Reads target (.name word :: xs) t behind := by
  refine reads_current fun u hu => ?_
  change u.kind = TokenKind.ofWord word at hu
  rcases TokenKind.ofWord_cases word with hk | ⟨k, hk⟩ <;> (rw [hu, hk]; exact h)

theorem reads_primary (p : Primary) (hp : p.Writable) (hb : Avoids [.dot] behind) :
    Reads primary p.slots p behind := by
  cases p with
  | text value =>
    refine reads_current fun t ht => ?_
    rw [ht]
    exact reads_valueOf Primary.text fun _ h => h
  | number value =>
    refine reads_next fun t ht => ?_
    have hread : Decimal.read? t.value = some value := ht.2
    rw [ht.1]
    dsimp only
    rw [hread]
    exact reads_advance fun _ _ => reads_pure
  | flag value =>
    refine reads_current fun t ht => ?_
    rw [ht]
    cases value <;> exact reads_advance fun _ _ => reads_pure
  | env name =>
    refine reads_current fun t ht => ?_
    rw [ht]
    exact reads_valueOf Primary.env fun _ h => h
  | ref qualifier name =>
    cases qualifier with
    | none =>
      have h := reads_reference Primary.ref "a value" none name (fun _ => hp) hb
      exact reads_primary_word (not_flag_of_isBareName hp) h
    | some qualifier =>
      have h := reads_reference Primary.ref "a value" (some qualifier) name (by simp) hb
      exact reads_primary_word hp h

/-- A value ends where neither a sum nor a qualified name goes on. -/
theorem reads_expression (e : Expression) (he : e.Writable) (hb : Avoids [.plus, .dot] behind) :
    Reads expression e.slots e behind := by
  have hdot : Avoids [.dot] behind := hb.mono (by simp)
  have hfirst : e.first.Writable := he _ (by simp [Expression.parts])
  refine (reads_primary e.first hfirst ?_).bind (Reads.last ?_ reads_pure)
  · exact keeps_each (by decide) e.rest _ hdot
  · refine reads_each (x := .sign .plus) rfl (by decide) hb e.rest fun p hp ks hks => ?_
    exact reads_primary p (he p (by simp [Expression.parts, hp])) hks

/-- A selector that is written out, as an element or as a value. -/
theorem reads_selector (s : PlainSelector) : Reads selector s.expression.slots s behind := by
  cases s with
  | text value =>
    refine reads_current fun t ht => ?_
    rw [ht]
    exact reads_valueOf PlainSelector.text fun _ h => h
  | env name =>
    refine reads_current fun t ht => ?_
    rw [ht]
    exact reads_valueOf PlainSelector.env fun _ h => h

theorem reads_target (t : Target) (ht : t.Writable) (hb : Avoids [.dot] behind) :
    Reads target t.slots t behind := by
  cases t with
  | element page field =>
    have hn : page = none → (TokenKind.ofWord field).isBareName = true := by
      rintro rfl; exact ht
    cases page <;> exact reads_target_word (reads_reference Target.element _ _ field hn hb)
  | selector e =>
    obtain ⟨s, rfl⟩ := ht
    refine reads_current fun t ht => ?_
    rw [ht]
    cases s with
    | text value | env name => exact (reads_selector _).last reads_pure
  | unset => exact ht.elim

theorem reads_elementState (s : ElementState) :
    Reads elementState [.keyword s.keyword] s behind := by
  refine reads_current fun t ht => ?_
  rw [ht]
  cases s <;> exact reads_advance fun _ _ => reads_pure

/-! ## Conditions -/

/-- An element in front of `IS` is read as a value first. -/
theorem exists_primary_of_target (ht : t.Writable)
    (hq : ∀ page ∈ t.page?, TokenKind.ofWord page ∉ flagKinds) :
    ∃ p : Primary, p.Writable ∧ p.slots = t.slots ∧ elementOf? ⟨p, []⟩ = some t := by
  cases t with
  | element page field =>
    refine ⟨.ref page field, ?_, ?_, rfl⟩
    · cases page with
      | none => exact ht
      | some page => exact hq page rfl
    · cases page <;> rfl
  | selector e =>
    obtain ⟨s, rfl⟩ := ht
    cases s with
    | text value => exact ⟨.text value, trivial, rfl, rfl⟩
    | env name => exact ⟨.env name, trivial, rfl, rfl⟩
  | unset => exact ht.elim

theorem exists_slot_of_condition (h : op ∈ ComparisonOp.ofCondition) :
    ∃ x : Slot, op.slots = [x] ∧ comparison? x.kind = some op := by
  simp only [ComparisonOp.ofCondition, List.mem_cons, List.not_mem_nil, or_false] at h
  rcases h with rfl | rfl | rfl | rfl | rfl | rfl | rfl <;> exact ⟨_, rfl, rfl⟩

theorem not_mem_state (state : ElementState) :
    TokenKind.keyword state.keyword ∉ [.keyword .not] := by
  cases state <;> decide

theorem reads_state (ht : t.Writable) (hq : ∀ page ∈ t.page?, TokenKind.ofWord page ∉ flagKinds)
    (negated : Bool) (state : ElementState) :
    Reads condition (t.slots ++ stateSlots negated state) (.state t negated state) behind := by
  obtain ⟨p, hp, hslots, helement⟩ := exists_primary_of_target ht hq
  have hleft : Reads expression t.slots ⟨p, []⟩ (kinds (stateSlots negated state) ++ behind) := by
    rw [← hslots, ← List.append_nil p.slots]
    exact reads_expression ⟨p, []⟩ (by simpa [Expression.Writable, Expression.parts] using hp)
      avoids_cons
  refine hleft.bind (reads_check_then rfl ?_)
  refine reads_advance fun is _ => ?_
  refine (reads_keywordIf negated (avoids_cons (not_mem_state state))).bind ?_
  refine (reads_elementState state).last ?_
  rw [helement]
  exact reads_pure

theorem not_mem_of_comparison? (h : comparison? k = some op) : k ∉ [.plus, .dot, .keyword .is] := by
  simp only [List.mem_cons, List.not_mem_nil, or_false]
  rintro (rfl | rfl | rfl) <;> cases h

theorem reads_comparison {left right : Expression} (hop : comparison? x.kind = some op)
    (hl : left.Writable) (hr : Reads expression xs right behind) :
    Reads condition (left.slots ++ x :: xs) (.comparison left op right) behind := by
  have hk := not_mem_of_comparison? hop
  refine (reads_expression left hl ?_).bind (reads_check_else ?_ ?_)
  · exact (avoids_cons hk).mono (by simp)
  · exact (avoids_cons hk).ne (by simp)
  · refine reads_current fun t ht => ?_
    rw [show comparison? t.kind = some op by rw [ht]; exact hop]
    exact reads_advance fun _ _ => hr.last reads_pure

theorem reads_truthy (he : e.Writable) :
    Reads condition e.slots (.truthy e) (.lbrace :: behind) := by
  refine (reads_expression e he avoids_cons).last (reads_check_else nofun ?_)
  refine reads_current fun t ht => ?_
  rw [ht]
  exact reads_pure

theorem reads_condition {c : Condition} {thenBody elseBody : List Statement}
    (h : (Statement.branch line c thenBody elseBody).WritableHere) :
    Reads condition c.slots c (.lbrace :: behind) := by
  cases c with
  | state t negated state =>
    exact reads_state (h.targets t (by simp [Statement.targets])) h.admitted negated state
  | comparison left op right =>
    obtain ⟨x, hx, hop⟩ := exists_slot_of_condition h.admitted
    show Reads condition (left.slots ++ (op.slots ++ right.slots)) _ _
    rw [hx]
    have hr := h.expressions right (by simp [Statement.expressions])
    exact reads_comparison hop (h.expressions left (by simp [Statement.expressions]))
      (reads_expression right hr avoids_cons)
  | truthy e => exact reads_truthy (h.expressions e (by simp [Statement.expressions]))

/-! ## Queries -/

theorem reads_tableRef (t : TableRef) (hb : Avoids [.dot] behind) :
    Reads tableRef t.slots t behind := by
  obtain ⟨table, column⟩ := t
  refine reads_name.cons ?_
  cases column with
  | none => exact (reads_after_none (hb.ne (by simp))).look reads_pure
  | some column => exact (reads_after rfl reads_name).last reads_pure

theorem reads_dataComparison (hop : dataComparison? x.kind = some op) (he : e.Writable)
    (hb : Avoids [.plus, .dot] behind) :
    Reads dataCondition (.name column :: x :: e.slots) ⟨column, op, some e⟩ behind := by
  have hk : x.kind ≠ .keyword .starts ∧ x.kind ≠ .keyword .ends ∧ x.kind ≠ .keyword .is := by
    refine ⟨?_, ?_, ?_⟩ <;> (intro hk; rw [hk] at hop; cases hop)
  refine reads_name.cons (reads_current fun t ht => ?_)
  change t.kind = x.kind at ht
  refine reads_neg (by simp [ht, hk]) ?_
  refine reads_eat_else (fun h => hk.2.2 (Option.some.inj h)) ?_
  rw [ht, hop]
  exact reads_advance fun _ _ => (reads_expression e he hb).last reads_pure

theorem reads_dataAffix (hop : op = .startsWith ∨ op = .endsWith) (he : e.Writable)
    (hb : Avoids [.plus, .dot] behind) :
    Reads dataCondition (DataCondition.mk column op (some e)).slots ⟨column, op, some e⟩
      behind := by
  rcases hop with rfl | rfl
  all_goals
    refine reads_name.cons (reads_current fun t ht => ?_)
    rw [ht]
    refine reads_pos rfl (reads_advance fun _ _ => reads_expect rfl fun _ => ?_)
    exact (reads_expression e he hb).last reads_pure

theorem reads_dataEmpty (hop : op.isUnary = true) :
    Reads dataCondition (DataCondition.mk column op none).slots ⟨column, op, none⟩ behind := by
  obtain ⟨negated, hslots, hvalue⟩ : ∃ negated,
      op.slots = .keyword .is :: (keywordIf .not negated ++ [.keyword .empty]) ∧
        (if negated = true then ComparisonOp.isNotEmpty else .isEmpty) = op := by
    cases op with
    | isEmpty => exact ⟨false, rfl, rfl⟩
    | isNotEmpty => exact ⟨true, rfl, rfl⟩
    | _ => cases hop
  unfold DataCondition.slots
  rw [hslots, Option.elim_none, List.append_nil]
  refine reads_name.cons (reads_current fun t ht => ?_)
  rw [ht]
  refine reads_neg nofun (reads_eat_then rfl ?_)
  refine (reads_keywordIf negated avoids_cons).bind (reads_expect rfl fun _ => ?_)
  rw [hvalue]
  exact reads_pure

theorem reads_dataCondition (c : DataCondition) (hv : c.value.isSome = !c.op.isUnary)
    (he : ∀ e, c.value = some e → e.Writable) (hb : Avoids [.plus, .dot] behind) :
    Reads dataCondition c.slots c behind := by
  obtain ⟨column, op, value⟩ := c
  cases value with
  | none => exact reads_dataEmpty (by simpa using hv.symm)
  | some e =>
    have hw : e.Writable := he e rfl
    cases op with
    | startsWith => exact reads_dataAffix (.inl rfl) hw hb
    | endsWith => exact reads_dataAffix (.inr rfl) hw hb
    | isEmpty | isNotEmpty => exact absurd hv (by simp [ComparisonOp.isUnary])
    | _ => exact reads_dataComparison rfl hw hb

theorem logicalOp?_eq_none {ks : List TokenKind}
    (h : Avoids [.keyword .and, .keyword .or] ks) : logicalOp? (ks.headD .eof) = none := by
  cases ks with
  | nil => rfl
  | cons k ks =>
    have hk := h k rfl
    simp only [List.mem_cons, List.not_mem_nil, or_false, not_or] at hk
    show logicalOp? k = none
    unfold logicalOp?
    split
    · exact absurd rfl hk.1
    · exact absurd rfl hk.2
    · rfl

/-- Conditions one behind the other, each read as its own rule reads it. -/
theorem reads_conditions {ι : Type} {c : DataCondition} {slots : ι → List Slot}
    (join : ι → LogicalOp) (value : ι → DataCondition) (is : List ι)
    (hfirst : ∀ ks, Avoids [.plus, .dot] ks → Reads dataCondition xs c ks)
    (hrest : ∀ i ∈ is, ∀ ks, Avoids [.plus, .dot] ks → Reads dataCondition (slots i) (value i) ks)
    (hb : Avoids [.plus, .dot, .keyword .and, .keyword .or] behind) :
    Reads whereClause (xs ++ is.flatMap fun i => .keyword (join i).keyword :: slots i)
      ⟨c, is.map fun i => (join i, value i)⟩ behind := by
  have hend : Avoids [.plus, .dot] behind := hb.mono (by simp)
  have hjoin : ∀ i ∈ is, Keeps [.plus, .dot] (.keyword (join i).keyword :: slots i) := by
    intro i _
    exact keeps_cons (by cases join i <;> simp [LogicalOp.keyword, Slot.kind])
  rw [← List.append_nil (is.flatMap _)]
  refine Reads.bind (hfirst _ ?_) (Reads.last ?_ reads_pure)
  · exact good_flatMap hend is hjoin
  · refine reads_manyOf _ (Avoids [.plus, .dot]) (reads_current fun t ht => ?_) ?_ is ?_ hjoin ?_
    · have hnone : logicalOp? t.kind = none := by
        rw [ht]; exact logicalOp?_eq_none (hb.mono (by simp))
      rw [hnone]
      exact reads_pure
    · exact hend
    · exact fun _ _ => List.cons_ne_nil _ _
    · intro i hi ks hks
      refine reads_current fun t ht => ?_
      rw [show logicalOp? t.kind = some (join i) by rw [ht]; cases join i <;> rfl]
      exact reads_advance fun _ _ => (hrest i hi ks hks).last reads_pure

theorem reads_whereClause (w : WhereClause)
    (hv : ∀ c ∈ w.conditions, c.value.isSome = !c.op.isUnary)
    (he : ∀ c ∈ w.conditions, ∀ e, c.value = some e → e.Writable)
    (hb : Avoids [.plus, .dot, .keyword .and, .keyword .or] behind) :
    Reads whereClause w.slots w behind := by
  have hfirst : w.first ∈ w.conditions := List.mem_cons_self ..
  have hrest : ∀ oc ∈ w.rest, oc.2 ∈ w.conditions := by
    intro oc hoc
    exact List.mem_cons_of_mem _ (List.mem_map_of_mem hoc)
  have h := reads_conditions Prod.fst Prod.snd w.rest
    (fun ks hks => reads_dataCondition w.first (hv _ hfirst) (he _ hfirst) hks)
    (fun oc hoc ks hks => reads_dataCondition oc.2 (hv _ (hrest oc hoc)) (he _ (hrest oc hoc)) hks)
    hb
  rwa [List.map_id'] at h

theorem reads_orderBy (o : OrderBy) (hb : Avoids [.keyword .desc, .keyword .asc] behind) :
    Reads orderBy o.slots o behind := by
  obtain ⟨column, descending⟩ := o
  refine reads_name.cons ?_
  cases descending with
  | true => exact reads_eat_then rfl reads_pure
  | false =>
    refine reads_eat_else (hb.ne (by simp)) ?_
    exact (reads_eat_none (hb.ne (by simp))).look reads_pure

theorem reads_orderClause (columns : List OrderBy)
    (hb : Avoids [.comma, .keyword .desc, .keyword .asc, .keyword .order] behind) :
    Reads orderClause (orderSlots columns) columns behind := by
  cases columns with
  | nil => exact reads_eat_else (hb.ne (by simp)) reads_pure
  | cons o columns =>
    refine reads_eat_then rfl (reads_expect rfl fun _ => ?_)
    exact reads_commaSeparated (by decide) (hb.mono (by simp)) columns
      fun o _ ks hks => reads_orderBy o hks

theorem reads_count {n : Nat} {expected : String} : Reads (count expected) [.count n] n behind := by
  refine reads_next fun t ht => ?_
  have hk : t.kind = .number := ht.1
  have hcount : (if (t.kind == .number) = true then count? t.value else none) = some n := by
    rw [if_pos (beq_iff_eq.2 hk)]; exact ht.2
  rw [hcount]
  exact reads_advance fun _ _ => reads_pure

theorem exists_slot_of_mode {mode : QueryMode} (h : mode ≠ .load) :
    ∃ word, mode.slots = [.sign .equals, .keyword word] ∧
      queryMode? (.keyword word) = some mode := by
  cases mode with
  | load => exact absurd rfl h
  | row | rows => exact ⟨_, rfl, rfl⟩
  | aggregate a => cases a <;> exact ⟨_, rfl, rfl⟩

theorem resultType_keyword (r : ResultType) : resultType (.keyword r.keyword) = r := by
  cases r <;> rfl

theorem reads_querySource (hv : (TokenKind.ofWord q.variable_).isBareName = true)
    (hq : q.mode = .load → q.resultType = .data) (hb : Avoids [.dot] behind) :
    Reads querySource
      (.opening q.keyword line :: .name q.variable_ :: (q.mode.slots ++ q.source.slots))
      (q.resultType, q.variable_, q.mode, q.source) behind := by
  refine reads_advance fun t ht => ?_
  have hkind : t.kind = .keyword q.keyword := ht.1
  by_cases hm : q.mode = .load
  · rw [hm, hq hm]
    have hl : t.kind = .keyword .load := by rw [hkind, DataQuery.keyword, if_pos hm]
    rw [hl]
    refine reads_pos rfl ((reads_binding hv).cons (reads_expect rfl fun _ => ?_))
    exact (reads_tableRef q.source hb).last reads_pure
  · obtain ⟨word, hslots, hword⟩ := exists_slot_of_mode hm
    have hr : t.kind = .keyword q.resultType.keyword := by rw [hkind, DataQuery.keyword, if_neg hm]
    rw [hr, hslots]
    refine reads_neg (by cases q.resultType <;> decide) ?_
    refine (reads_binding hv).cons (reads_expect rfl fun _ => reads_current fun u hu => ?_)
    rw [show queryMode? u.kind = some q.mode by rw [hu]; exact hword]
    refine reads_advance fun _ _ => (reads_tableRef q.source hb).last ?_
    rw [resultType_keyword]
    exact reads_pure

theorem keeps_orderSlots (h : .keyword .order ∉ bad) (columns : List OrderBy) :
    Keeps bad (orderSlots columns) := by
  cases columns with
  | nil => exact keeps_nil
  | cons o columns => exact keeps_cons h

theorem keeps_bounds (hl : .keyword .limit ∉ bad) (ho : .keyword .offset ∉ bad) (q : DataQuery) :
    Keeps bad q.bounds :=
  (keeps_optional hl q.limit).append (keeps_optional ho q.offset)

/-- What a statement could go on with behind its last part. -/
def joints : List TokenKind :=
  [.plus, .dot, .comma, .keyword .and, .keyword .or, .keyword .where_, .keyword .order,
    .keyword .desc, .keyword .asc, .keyword .limit, .keyword .offset, .keyword .with_, .keyword .as,
    .keyword .else_]

/-- What follows the conditions of a query. -/
def queryEnd : Parser (List OrderBy × Option Nat × Option Nat) := do
  let columns ← orderClause
  let limit ← after? (.keyword .limit) (count "a row limit")
  return (columns, limit, ← after? (.keyword .offset) (count "a row offset"))

theorem query_eq : query = querySource >>= fun head =>
    after? (.keyword .where_) whereClause >>= fun where_ => queryEnd >>= fun rest =>
      pure ⟨head.1, head.2.1, head.2.2.1, head.2.2.2, where_, rest.1, rest.2.1, rest.2.2⟩ := by
  simp only [query, queryEnd, bind_assoc, pure_bind]

/-- A query is read if its parts are, whichever way they are written. -/
theorem reads_queryParts {ws zs : List Slot} (hv : (TokenKind.ofWord q.variable_).isBareName = true)
    (hq : q.mode = .load → q.resultType = .data) (hdot : Avoids [.dot] (kinds (ws ++ zs) ++ behind))
    (hwhere : Reads (after? (.keyword .where_) whereClause) ws q.where_ (kinds zs ++ behind))
    (hend : Reads queryEnd zs (q.orderBy, q.limit, q.offset) behind) :
    Reads query
      ((.opening q.keyword line :: .name q.variable_ :: (q.mode.slots ++ q.source.slots)) ++
        (ws ++ zs)) q behind := by
  rw [query_eq]
  exact (reads_querySource hv hq hdot).bind (hwhere.bind (hend.last reads_pure))

theorem keeps_queryEnd (h : ∀ k ∈ [.order, .limit, .offset], TokenKind.keyword k ∉ bad)
    (q : DataQuery) : Keeps bad (orderSlots q.orderBy ++ q.bounds) := by
  refine (keeps_orderSlots (h _ (by simp)) q.orderBy).append ?_
  exact keeps_bounds (h _ (by simp)) (h _ (by simp)) q

theorem reads_queryEnd (q : DataQuery) (hb : Avoids joints behind) :
    Reads queryEnd (orderSlots q.orderBy ++ q.bounds) (q.orderBy, q.limit, q.offset) behind := by
  have horder : Avoids [.comma, .keyword .desc, .keyword .asc, .keyword .order]
      (kinds q.bounds ++ behind) :=
    keeps_bounds (by simp) (by simp) q _ (hb.mono (by simp [joints]))
  have hlimit : Avoids [.keyword .limit]
      (kinds (optional .offset (fun n => [.count n]) q.offset) ++ behind) :=
    keeps_optional (by simp) q.offset _ (hb.mono (by simp [joints]))
  have hoffset : Avoids [.keyword .offset] behind := hb.mono (by simp [joints])
  refine (reads_orderClause q.orderBy horder).bind ?_
  refine (reads_optional hlimit fun n _ => reads_count).bind ?_
  exact (reads_optional hoffset fun n _ => reads_count).last reads_pure

theorem reads_query (h : (Statement.step line (.query q)).WritableHere)
    (hb : Avoids joints behind) : Reads query (.opening q.keyword line :: q.slots) q behind := by
  obtain ⟨hload, hvalue⟩ := h.admitted
  have he : ∀ c ∈ q.conditions, ∀ e, c.value = some e → e.Writable := by
    intro c hc e hce
    exact h.expressions e (List.mem_filterMap.2 ⟨c, hc, hce⟩)
  have hslots : Slot.opening q.keyword line :: q.slots =
      (.opening q.keyword line :: .name q.variable_ :: (q.mode.slots ++ q.source.slots)) ++
        q.clauses := by
    simp [DataQuery.slots]
  rw [hslots]
  -- what is behind each part starts with the keyword of a later clause, or is `behind`
  have hsource : Avoids [.dot] (kinds q.clauses ++ behind) := by
    refine (keeps_optional (by simp) q.where_).append ?_ _ (hb.mono (by simp [joints]))
    exact keeps_queryEnd (by simp) q
  have hwhere : Avoids [.plus, .dot, .keyword .and, .keyword .or, .keyword .where_]
      (kinds (orderSlots q.orderBy ++ q.bounds) ++ behind) :=
    keeps_queryEnd (by simp) q _ (hb.mono (by simp [joints]))
  refine reads_queryParts (h.binds q.variable_ rfl) hload hsource ?_ ?_
  · refine reads_optional (hwhere.mono (by simp)) fun w hw => ?_
    have hconditions : q.conditions = w.conditions := by rw [DataQuery.conditions, hw]; rfl
    rw [hconditions] at hvalue he
    exact reads_whereClause w hvalue he (hwhere.mono (by simp))
  · exact reads_queryEnd q hb

end UiScenario.Grammar
