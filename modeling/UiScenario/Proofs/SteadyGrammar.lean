import UiScenario.Proofs.Steady

/-!
The rules for values, queries and steps keep to their tokens. One lemma for each rule; the number
says how many tokens the rule reads at least. Rules for steps read their keyword first, and what
they do behind it is `Steady`.
-/

namespace UiScenario.Grammar

open UiScenario.Grammar.Parser

section
variable {P : State → Prop} {s : State} {α : Type} {us : List Token} {left : Expression}
  {ts : List Token} {word : Keyword} {d : Token}

/-! ## Values -/

theorem atQualifiedName_append (r X Y : List Token) (hr : 3 ≤ r.length) :
    atQualifiedName (r ++ X) = atQualifiedName (r ++ Y) := by
  rcases r with _ | ⟨q, _ | ⟨d, _ | ⟨n, r⟩⟩⟩
  · cases hr
  · simp at hr
  · simp at hr
  · rfl

/-- A name with its qualifier starts and ends with a word. -/
theorem exists_of_atQualifiedName (h : atQualifiedName ts = true) :
    ∃ q d n us, ts = q :: d :: n :: us ∧ q.isWord = true ∧ d.kind = .dot ∧ n.isWord = true := by
  rcases ts with _ | ⟨q, _ | ⟨d, _ | ⟨n, us⟩⟩⟩
  · cases h
  · cases h
  · cases h
  · simp only [atQualifiedName, Bool.and_eq_true] at h
    exact ⟨q, d, n, us, rfl, h.1.1, beq_iff_eq.1 h.1.2, h.2⟩

theorem qualifiedName_cons {q n : Token} :
    qualifiedName (s.leaving (q :: d :: n :: us)) = .ok (q.value, n.value) (s.leaving us) := rfl

theorem settles_qualifiedName :
    Settles (fun s => atQualifiedName s.ahead = true) 3 qualifiedName where
  value {s a s'} hP hp := by
    obtain ⟨q, d, n, us, hs, hq, hd, hn⟩ := exists_of_atQualifiedName hP
    have hq := ordinary_of_isWord hq
    have hn := ordinary_of_isWord hn
    rw [← leaving_ahead s, hs, qualifiedName_cons] at hp
    cases hp
    refine ⟨[q, d, n], ⟨⟨hs, rfl⟩, ?_⟩, fun _ => ⟨⟨?_, ?_⟩, Nat.le_refl 3⟩⟩
    · simp [Untagged, hq.2, hd, hn.2]
    · simpa using hq.1
    · simpa using hn.1
  fault _ hp := by cases hp

theorem steady_qualifiedName :
    Steady (fun s => atQualifiedName s.ahead = true) 3 qualifiedName where
  toSettles := settles_qualifiedName
  moves {s t a r r' X Y} hs _ hX _ hp := by
    obtain ⟨read, rfl, -, hn⟩ := settles_qualifiedName.split hs hX hp
    rcases read with _ | ⟨q, _ | ⟨d, _ | ⟨n, us⟩⟩⟩
    · simp at hn
    · simp at hn
    · simp at hn
    · have hl : us ++ r' ++ X = r' ++ X := congrArg State.ahead (EStateM.Result.ok.inj hp).2
      obtain rfl : us = [] := List.append_left_eq_self.1 (List.append_cancel_right hl)
      rw [← (EStateM.Result.ok.inj hp).1]
      rfl

theorem steady_reference (make : Option String → String → α) (expected : String) :
    Steady P 1 (reference make expected) := by
  refine steady_look 3 3 atQualifiedName_append (fun r Y hY _ hr => ?_) (fun _ _ h => h)
    steady_qualifiedName.give ?_
  · exact hY.atQualifiedName_eq_false hr
  · exact steady_atBareName steady_advance.give

theorem steady_primary : Steady P 1 primary := by
  refine steady_current fun t => ?_
  split
  · next hk => exact (steady_advance_at (by rw [hk]; decide)).give
  · next hk =>
    split
    · exact (steady_advance_at (by rw [hk]; decide)).give
    · exact steady_fail
  · next hk => exact (steady_advance_at (by rw [hk]; decide)).give
  · next hk => exact (steady_advance_at (by rw [hk]; decide)).give
  · next hk => exact (steady_advance_at (by rw [hk]; decide)).give
  · exact steady_reference Primary.ref "a value"

theorem steady_expression : Steady P 1 expression :=
  steady_primary.bind fun _ => (steady_separated (by decide) steady_primary).give

theorem steady_selector : Steady P 1 selector := by
  refine steady_current fun t => ?_
  split
  · next hk => exact (steady_advance_at (by rw [hk]; decide)).give
  · next hk => exact (steady_advance_at (by rw [hk]; decide)).give
  · exact steady_fail

theorem steady_target : Steady P 1 target := by
  refine steady_current fun t => ?_
  split
  · exact steady_selector.give
  · exact steady_selector.give
  · exact steady_reference Target.element _

theorem steady_elementState : Steady P 1 elementState := by
  refine steady_current fun t => ?_
  split
  · next hk => exact (steady_advance_at (ordinary_of_eq_some hk ⟨rfl, rfl⟩)).give
  · exact steady_fail

/-! ## Queries -/

def column : Parser (Option String) :=
  after? .dot (name "a column name")

theorem tableRef_eq : tableRef =
    name "a table name" >>= fun table => column >>= fun c => pure ⟨table, c⟩ := rfl

theorem column_of_dot (hd : d.kind = .dot) :
    column (s.leaving (d :: us)) =
      (name "a column name" >>= fun c => pure (some c)) (s.leaving us) := by
  have h : startsWith .dot (d :: us) = true := beq_iff_eq.2 hd
  rw [column, after?_eq, ahead_ite, ahead_leaving, if_pos h]
  rfl

theorem column_of_not_dot (h : startsWith .dot s.ahead = false) : column s = .ok none s := by
  rw [column, after?_eq, ahead_ite, h]
  rfl

theorem column_cases (s : State) : startsWith .dot s.ahead = false ∨
    ∃ d us, s = s.leaving (d :: us) ∧ d.kind = .dot := by
  cases hs : s.ahead with
  | nil => exact .inl rfl
  | cons d us =>
    by_cases hd : d.kind = .dot
    · exact .inr ⟨d, us, by rw [← hs, leaving_ahead], hd⟩
    · exact .inl (beq_eq_false_iff_ne.2 hd)

theorem passes_column (hs : s = s.leaving (d :: us)) (hd : d.kind = .dot) :
    PassesUntagged s [d] (s.leaving us) :=
  ⟨by rw [hs]; exact ⟨rfl, rfl⟩, untagged_singleton (by rw [hd]; decide)⟩

/-- The dot in front of a column is between two words. -/
theorem settles_tableRef : Settles P 1 tableRef := by
  have hname : ∀ {expected : String}, Settles anywhere 1 (name expected) := steady_name.toSettles
  constructor
  · intro s a s' _ hr
    rw [tableRef_eq] at hr
    obtain ⟨table, s₁, ht, hr⟩ := parser_bind_eq_ok.1 hr
    obtain ⟨c, s₂, hc, ⟨⟩⟩ := parser_bind_eq_ok.1 hr
    obtain ⟨read, hread, hdot⟩ := hname.value trivial ht
    rcases column_cases s₁ with hs₁ | ⟨d, us, hs₁, hd⟩
    · rw [column_of_not_dot hs₁] at hc
      cases hc
      exact ⟨read, hread, hdot⟩
    · rw [hs₁, column_of_dot hd] at hc
      obtain ⟨c, s₂, hc, ⟨⟩⟩ := parser_bind_eq_ok.1 hc
      obtain ⟨read', hread', hdot'⟩ := hname.value trivial hc
      have hpass : PassesUntagged s₁ [d] (s₁.leaving us) := passes_column hs₁ hd
      obtain ⟨hdot, hn⟩ := hdot (by rw [hs₁]; simp)
      refine ⟨read ++ ([d] ++ read'), hread.trans (hpass.trans hread'), fun hne => ?_⟩
      obtain ⟨hdot', hn'⟩ := hdot' hne
      refine ⟨⟨?_, ?_⟩, by rw [List.length_append]; omega⟩
      · rw [List.head?_append_of_ne_nil _ (List.ne_nil_of_length_pos hn)]
        exact hdot.head
      · rw [← List.append_assoc, List.getLast?_append_of_ne_nil _ (List.ne_nil_of_length_pos hn')]
        exact hdot'.last
  · intro s e s' _ hr
    rw [tableRef_eq] at hr
    cases ht : name "a table name" s with
    | error e₁ s₁ =>
      rw [bind_of_error ht] at hr
      cases hr
      exact hname.fault trivial ht
    | ok table s₁ =>
      rw [bind_of_ok ht] at hr
      obtain ⟨read, hread, -⟩ := hname.value trivial ht
      rcases column_cases s₁ with hs₁ | ⟨d, us, hs₁, hd⟩
      · rw [bind_of_ok (column_of_not_dot hs₁)] at hr
        cases hr
      · cases hc : name "a column name" (s₁.leaving us) with
        | ok c s₂ => 
          rw [hs₁, bind_of_ok (by rw [column_of_dot hd, bind_of_ok hc]; rfl)] at hr
          cases hr
        | error e₂ s₂ =>
          rw [hs₁, bind_of_error (by rw [column_of_dot hd, bind_of_error hc])] at hr
          cases hr
          have hpass : PassesUntagged s₁ [d] (s₁.leaving us) := passes_column hs₁ hd
          obtain ⟨read', hread', he⟩ := hname.fault trivial hc
          exact ⟨_, hread.trans (hpass.trans hread'), he.of_read (by simp)⟩

theorem steady_tableRef : Steady P 1 tableRef where
  toSettles := settles_tableRef
  moves {s t a r r' X Y} _ _ hX hY hr := by
    have hname : ∀ {expected : String}, Steady anywhere 1 (name expected) := steady_name
    rw [tableRef_eq] at hr ⊢
    obtain ⟨table, s₁, ht, hr⟩ := parser_bind_eq_ok.1 hr
    obtain ⟨c, s₂, hc, hs₂⟩ := parser_bind_eq_ok.1 hr
    rcases column_cases s₁ with hs₁ | ⟨d, us, hs₁, hd⟩
    · rw [column_of_not_dot hs₁] at hc
      cases hc
      obtain ⟨rfl, rfl⟩ := EStateM.Result.ok.inj hs₂
      have hY' : startsWith .dot (r' ++ Y) = false := by
        cases r' with
        | nil => exact hY.startsWith_eq_false (by decide) rfl
        | cons u us => exact hs₁
      rw [bind_of_ok (hname.moves trivial trivial hX hY ht),
        bind_of_ok (column_of_not_dot (s := t.leaving (r' ++ Y)) hY')]
      rfl
    · rw [hs₁, column_of_dot hd] at hc
      obtain ⟨c, s₃, hc, ⟨⟩⟩ := parser_bind_eq_ok.1 hc
      obtain ⟨rfl, rfl⟩ := EStateM.Result.ok.inj hs₂
      obtain ⟨read, hread, -⟩ := hname.value trivial ht
      obtain ⟨read', hread', -⟩ := hname.value trivial hc
      -- behind the table are the dot and the tokens `read' ++ r'`
      have hus : us = read' ++ r' ++ X := by
        have := hread'.ahead
        rwa [ahead_leaving, ahead_leaving, ← List.append_assoc] at this
      subst hus
      have hs₁' : s₁ = s.leaving (d :: (read' ++ r') ++ X) := by
        rw [hs₁, hread.same]
        rfl
      subst hs₁'
      obtain ⟨_, hrr, -⟩ := hname.toSettles.split trivial hX ht
      have hY' : Limits (read' ++ r') Y := by
        refine hY.of_suffix ?_
        rw [hrr]
        exact (List.suffix_cons ..).trans (List.suffix_append ..)
      rw [bind_of_ok (hname.moves trivial trivial hX hY ht),
        bind_of_ok (by
          rw [List.cons_append, column_of_dot hd,
            bind_of_ok (hname.moves trivial trivial hX hY' hc)]
          rfl)]
      rfl

theorem steady_dataCondition : Steady P 2 dataCondition := by
  refine steady_name.bind (m := 1) fun column => steady_current fun t => ?_
  refine steady_ite (fun hk => ?_) fun _ => ?_
  · have hd : Ordinary t.kind := by
      constructor <;>
      · intro hd
        rw [hd] at hk
        exact absurd hk (by decide)
    refine ((steady_advance_at hd).bind fun _ => ?_ : Steady _ (1 + 2) _).fewer (by omega)
    exact (steady_expect (by decide)).bind fun _ => steady_expression.give
  · refine steady_eat (n := 0) (by decide) ?_ ?_
    · refine Steady.fewer (n := 1) ?_ (by omega)
      exact steady_eat (by decide) ((steady_expect (by decide)).give.fewer (by omega))
        (steady_expect (by decide)).give
    · simp only [Bool.false_eq_true, if_false]
      split
      · next hk =>
        have hd := ordinary_of_eq_some hk ⟨rfl, rfl⟩
        refine ((steady_advance_at hd).bind fun _ => ?_ : Steady _ (1 + 1) _).fewer (by omega)
        exact steady_expression.give
      · exact steady_fail

/-- One round of a `WHERE` clause behind its first condition. -/
def whereRound : Parser (Option (LogicalOp × DataCondition)) := do
  match logicalOp? (← current).kind with
  | some op =>
    let _ ← advance
    return some (op, ← dataCondition)
  | none => return none

theorem whereClause_eq : whereClause = dataCondition >>= fun first =>
    many whereRound >>= fun rest => pure ⟨first, rest⟩ := rfl

theorem whereRound_eq : whereRound = current >>= fun t => (logicalOp? t.kind).elim (pure none)
    fun op => advance >>= fun _ => dataCondition >>= fun c => pure (some (op, c)) := by
  funext s
  unfold whereRound
  rw [current_bind, current_bind]
  cases logicalOp? s.current.kind <;> rfl

theorem steady_whereRound : Steady P 0 whereRound := by
  rw [whereRound_eq]
  refine steady_choose (n := 2) ?_ (fun op => ?_) steady_pure
  · intro kind op h
    unfold logicalOp? at h
    split at h
    · decide
    · decide
    · cases h
  · exact steady_advance.bind fun _ => steady_dataCondition.give

theorem consumes_whereRound : Consumes whereRound := by
  intro s x s' hr hne
  rw [whereRound_eq, current_bind] at hr
  cases hop : logicalOp? s.current.kind with
  | none => rw [hop] at hr; cases hr
  | some op =>
    rw [hop] at hr
    have hs : ordinary s := ordinary_of_eq_some hop ⟨rfl, rfl⟩
    have h : Steady ordinary (1 + 2)
        (advance >>= fun _ => dataCondition >>= fun c => pure (some (op, c))) :=
      steady_advance.bind fun _ => steady_dataCondition.give
    obtain ⟨read, hread, hn⟩ := h.value hs hr
    have := (hn hne).2
    rw [hread.ahead, List.length_append]
    omega

/-- The end of the script joins no condition. -/
theorem advances_whereRound {N : Nat} : Advances N whereRound := by
  intro s x s' hs hr
  rw [whereRound_eq, current_bind] at hr
  cases hop : logicalOp? s.current.kind with
  | none => rw [hop] at hr; cases hr
  | some op =>
    rw [hop] at hr
    have hne : s.ahead ≠ [] := by
      intro he
      rw [State.current, he, List.headD_nil, hs.last] at hop
      cases hop
    have h : Parallel N true (advance >>= fun _ => dataCondition >>= fun c => pure (some (op, c)))
        (advance >>= fun _ => dataCondition >>= fun c => pure (some (op, c))) :=
      parallel_advance.first fun _ => steady_dataCondition.parallel.give
    exact h.reads rfl s _ s' hs hne hr

theorem steady_whereClause : Steady P 2 whereClause := by
  rw [whereClause_eq]
  exact steady_dataCondition.bind fun _ => (steady_many steady_whereRound consumes_whereRound).give

theorem steady_orderBy : Steady P 1 orderBy := by
  refine steady_name.bind (m := 0) fun _ => ?_
  exact steady_eat_last (by decide) steady_pure
    (steady_eat_last (by decide) steady_pure steady_pure)

theorem steady_count {expected : String} : Steady P 1 (count expected) := by
  refine steady_current fun t => ?_
  split
  · next hk =>
    refine (steady_advance_at ?_).give
    constructor <;>
    · intro hd
      rw [hd] at hk
      cases hk
  · exact steady_fail

theorem steady_orderClause : Steady P 0 orderClause := by
  refine steady_eat_last (n := 2) (by decide) ?_ steady_pure
  exact (steady_expect (by decide)).bind fun _ => steady_commaSeparated steady_orderBy

/-! ## Rules with a keyword -/

/-- A rule that reads its first token, whatever it is, and then keeps to its tokens. -/
def Headed {α : Type} (n : Nat) (rule : Parser α) : Prop :=
  ∃ k : Token → Parser α, rule = advance >>= k ∧ ∀ t, Steady anywhere n (k t)

theorem headed_advance {n : Nat} {k : Token → Parser α} (h : ∀ t, Steady anywhere n (k t)) :
    Headed n (advance >>= k) :=
  ⟨k, rfl, h⟩

theorem Headed.bind {β : Type} {n m : Nat} {p : Parser α} {f : α → Parser β} (h : Headed n p)
    (hf : ∀ a, Steady anywhere m (f a)) : Headed (n + m) (p >>= f) := by
  obtain ⟨k, rfl, hk⟩ := h
  exact ⟨fun t => k t >>= f, bind_assoc .., fun t => (hk t).bind hf⟩

theorem Headed.parallel {n N : Nat} {rule : Parser α} (h : Headed n rule) :
    Parallel N true rule rule := by
  obtain ⟨k, rfl, hk⟩ := h
  exact parallel_advance.first fun t => (hk t).parallel.weaken

theorem headed_querySource : Headed 3 querySource := by
  refine headed_advance fun t => steady_ite (fun _ => ?_) fun _ => ?_
  · exact steady_binding.bind (m := 2) fun _ => (steady_expect (by decide)).bind fun _ =>
      steady_tableRef.give
  · refine steady_binding.bind (m := 2) fun _ => ?_
    refine (steady_expect (by decide)).bind (m := 1) fun _ => steady_current fun t => ?_
    split
    · next hk =>
      have hd := ordinary_of_eq_some hk ⟨rfl, rfl⟩
      refine Steady.fewer (n := 2) ?_ (by omega)
      exact (steady_advance_at hd).bind fun _ => steady_tableRef.give
    · exact steady_fail

theorem headed_query : Headed 3 query := by
  refine headed_querySource.bind (m := 0) fun x => ?_
  refine (steady_after? (by decide) steady_whereClause).bind (m := 0) fun _ => ?_
  refine steady_orderClause.bind (m := 0) fun _ => ?_
  refine (steady_after? (by decide) steady_count).bind (m := 0) fun _ => ?_
  exact (steady_after? (by decide) steady_count).give

theorem headed_queryStep : Headed 3 queryStep :=
  headed_query.bind fun _ => steady_pure

theorem headed_declareStep : Headed 3 declareStep :=
  headed_advance fun _ => steady_binding.bind (m := 2) fun _ =>
    (steady_expect (by decide)).bind fun _ => steady_expression.give

theorem headed_withTarget (make : Target → Step) : Headed 1 (withTarget make) :=
  headed_advance fun _ => steady_target.give

theorem headed_withValue (make : Expression → Step) : Headed 1 (withValue make) :=
  headed_advance fun _ => steady_expression.give

theorem headed_openStep : Headed 1 openStep := by
  refine headed_advance fun t => steady_ite (fun _ => ?_) fun _ => steady_expression.give
  refine Steady.fewer (n := 2) ?_ (by omega)
  exact (steady_expect (by decide)).bind fun _ => steady_expression.give

theorem headed_fillStep : Headed 3 fillStep :=
  headed_advance fun _ => steady_target.bind (m := 2) fun _ =>
    (steady_expect (by decide)).bind fun _ => steady_expression.give

theorem headed_selectStep : Headed 3 selectStep :=
  headed_advance fun _ => steady_expression.bind (m := 2) fun _ =>
    (steady_expect (by decide)).bind fun _ => steady_target.give

theorem headed_dragStep : Headed 3 dragStep :=
  headed_advance fun _ => steady_target.bind (m := 2) fun _ =>
    (steady_expect (by decide)).bind fun _ => steady_target.give

theorem headed_uploadStep : Headed 3 uploadStep :=
  headed_advance fun _ => steady_expression.bind (m := 2) fun _ =>
    (steady_expect (by decide)).bind fun _ => steady_target.give

theorem headed_scrollStep : Headed 1 scrollStep := by
  refine headed_advance fun _ => ?_
  refine steady_eat (by decide) steady_pure (steady_eat (by decide) steady_pure ?_)
  exact steady_eat (by decide) (steady_target.give.fewer (by omega)) steady_fail

theorem steady_waitUnit : Steady P 0 waitUnit :=
  steady_eat_last (by decide) steady_pure (steady_eat_last (by decide) steady_pure steady_pure)

theorem headed_waitStep : Headed 1 waitStep := by
  refine headed_advance fun _ => ?_
  refine steady_eat (by decide) (steady_target.give.fewer (by omega)) ?_
  exact steady_expression.bind fun _ => steady_waitUnit.give

theorem headed_refreshStep : Headed 0 refreshStep :=
  headed_advance fun _ => steady_pure

theorem headed_clearStep : Headed 1 clearStep := by
  refine headed_advance fun _ => ?_
  exact steady_eat (by decide) steady_pure (steady_eat (by decide) steady_pure steady_target.give)

theorem headed_screenshotStep : Headed 1 screenshotStep :=
  headed_advance fun _ => (steady_expect (by decide)).bind fun _ =>
    (steady_after? (by decide) steady_expression).give

/-- What is no value of its own is read as a name. -/
theorem primary_eq_reference (h : s.current.kind ∉ valueKinds) :
    primary s = reference Primary.ref "a value" s := by
  simp only [valueKinds, flagKinds, List.mem_cons, List.not_mem_nil, or_false, not_or] at h
  rw [primary, current_bind]
  refine congrFun ?_ s
  split
  · next hk => exact absurd hk h.1
  · next hk => exact absurd hk h.2.1
  · next hk => exact absurd hk h.2.2.2.1
  · next hk => exact absurd hk h.2.2.2.2
  · next hk => exact absurd hk h.2.2.1
  · rfl

theorem atExpression_of_primary {s' : State} {a : Primary} (hne : s.ahead ≠ [])
    (h : primary s = .ok a s') : atExpression s.ahead = true := by
  obtain ⟨t, ts, hs⟩ := List.exists_cons_of_ne_nil hne
  have hc : s.current = t := by rw [State.current, hs]; rfl
  rw [hs, atExpression_iff]
  by_contra hn
  simp only [not_or, Bool.not_eq_true] at hn
  obtain ⟨hv, hq, hb⟩ := hn
  rw [← hc] at hv
  rw [← hs] at hq hb
  rw [primary_eq_reference hv, reference, ahead_ite, hq, if_neg Bool.false_ne_true, ahead_ite, hb]
    at h
  cases h

theorem Limits.atExpression_eq_false {r X Y : List Token} (hY : Limits r Y)
    (h : atExpression (r ++ X) = false) : atExpression (r ++ Y) = false := by
  cases r with
  | nil => exact hY.stops.not_atExpression rfl
  | cons t ts =>
    have hq : atQualifiedName (t :: ts ++ X) = false → atQualifiedName (t :: ts ++ Y) = false := by
      intro hX
      by_cases hl : (t :: ts).length < 3
      · exact hY.atQualifiedName_eq_false hl
      · rw [← atQualifiedName_append _ X Y (by omega), hX]
    rw [← Bool.not_eq_true, List.cons_append, atExpression_iff] at h ⊢
    simp only [not_or, Bool.not_eq_true] at h ⊢
    exact ⟨h.1, hq h.2.1, h.2.2⟩

/-- Whether an address follows `SWITCH TO NEW TAB`. -/
theorem steady_newTab {f : Expression → Step} {plain : Step} :
    Steady P 0 (ahead >>= fun ts =>
      if atExpression ts = true then expression >>= fun e => pure (f e) else pure plain) where
  toSettles := settles_look (Q := anywhere) (fun _ _ _ => trivial)
    (steady_expression.give.fewer (Nat.zero_le _)).toSettles settles_pure
  moves {s t a r r' X Y} hs ht hX hY hr := by
    rw [ahead_ite, ahead_leaving] at hr ⊢
    cases hgX : atExpression (r ++ X) with
    | true =>
      rw [hgX] at hr
      -- a value that is read in the other place starts there
      have hmoved := (steady_expression.give (f := f)).moves hs ht hX hY hr
      obtain ⟨e, s₁, he, -⟩ := parser_bind_eq_ok.1 hmoved
      obtain ⟨first, s₂, hfirst, -⟩ := parser_bind_eq_ok.1 he
      have hgY := atExpression_of_primary (by simp [hY.ne_nil]) hfirst
      rw [ahead_leaving] at hgY
      rw [hgY]
      exact hmoved
    | false =>
      rw [hgX] at hr
      rw [hY.atExpression_eq_false hgX]
      exact steady_pure.moves hs ht hX hY hr

theorem headed_switchStep : Headed 1 switchStep := by
  refine headed_advance fun _ => (steady_expect (by decide)).bind (m := 0) fun _ => ?_
  refine Steady.fewer (n := 1) ?_ (by omega)
  refine steady_eat (by decide) ?_ ?_
  · refine Steady.fewer (n := 1) ?_ (by omega)
    exact (steady_expect (by decide)).bind fun _ => steady_newTab
  refine steady_eat (by decide) (steady_expression.give.fewer (by omega)) ?_
  refine steady_eat (by decide) (steady_target.give.fewer (by omega)) ?_
  exact steady_eat (by decide) ((steady_expect (by decide)).give.fewer (by omega)) steady_fail

theorem headed_closeStep : Headed 1 closeStep :=
  headed_advance fun _ => (steady_expect (by decide)).give

theorem headed_dialogStep : Headed 1 dialogStep := by
  refine headed_advance fun _ => (steady_expect (by decide)).bind (m := 0) fun _ => ?_
  exact steady_ite (fun _ => steady_pure) fun _ =>
    (steady_after? (by decide) steady_expression).give

theorem steady_urlMatch : Steady P 1 urlMatch := by
  refine steady_eat (by decide) steady_pure (steady_eat (by decide) steady_pure ?_)
  exact steady_eat (by decide) steady_pure steady_fail

theorem steady_titleContains : Steady P 1 titleContains :=
  steady_eat (by decide) steady_pure (steady_eat (by decide) steady_pure steady_fail)

/-- What is checked of an element behind a `NOT` that may be there. -/
def assertionRest (element : Target) (negated : Bool) : Parser Assertion := do
  if ← eat (.keyword .contains) then
    let _ ← eat (.keyword .text)
    return .text element negated true (← expression)
  let _ ← expect (.keyword .has) "IS, HAS or CONTAINS"
  if ← eat (.keyword .text) then return .text element negated false (← expression)
  if ← eat (.keyword .value) then return .value element negated (← expression)
  if negated then fail "TEXT or VALUE"
  if ← eat (.keyword .attribute_) then
    let name ← expression
    let _ ← expect .equals "'=' and the expected attribute value"
    return .attribute_ element name (← expression)
  if ← eat (.keyword .count) then return .count element (← expression)
  fail "TEXT, VALUE, ATTRIBUTE or COUNT"

theorem steady_assertionOf {element : Target} : Steady P 2 (assertionOf element) := by
  refine steady_eat (n := 1) (by decide) ?_ ?_
  · exact steady_eat (by decide) (steady_elementState.give.fewer (by omega))
      steady_elementState.give
  -- whether or not a `NOT` is there, two tokens follow
  have hrest : ∀ negated, Steady anywhere 2 (assertionRest element negated) := by
    intro negated
    refine steady_eat (n := 1) (by decide) ?_ ?_
    · exact steady_eat (by decide) (steady_expression.give.fewer (by omega)) steady_expression.give
    refine (steady_expect (by decide)).bind (m := 1) fun _ => ?_
    refine steady_eat (by decide) (steady_expression.give.fewer (by omega)) ?_
    refine steady_eat (by decide) (steady_expression.give.fewer (by omega)) ?_
    simp only [Bool.false_eq_true, if_false]
    refine steady_ite (fun _ => steady_fail) fun _ => ?_
    refine steady_eat (by decide) (Steady.fewer (n := 3) ?_ (by omega)) ?_
    · exact steady_expression.bind (m := 2) fun _ => (steady_expect (by decide)).bind fun _ =>
        steady_expression.give
    exact steady_eat (by decide) (steady_expression.give.fewer (by omega)) steady_fail
  exact steady_eat (n := 1) (by decide) ((hrest true).fewer (by omega)) (hrest false).here

theorem atUnqualified_append (word : Keyword) (r X Y : List Token) (hr : 2 ≤ r.length) :
    atUnqualified word (r ++ X) = atUnqualified word (r ++ Y) := by
  rcases r with _ | ⟨u, _ | ⟨v, us⟩⟩
  · cases hr
  · simp at hr
  · rfl

theorem ordinary_of_atUnqualified (h : atUnqualified word s.ahead = true) : ordinary s :=
  ordinary_of_startsWith (by simp [Ordinary] : Ordinary (.keyword word))
    (Bool.and_eq_true_iff.1 h).1

theorem headed_verifyStep : Headed 3 verifyStep := by
  have hlook : ∀ (word : Keyword) {p q : Parser Step}, Steady ordinary 3 p → Steady anywhere 3 q →
      Steady anywhere 3 (ahead >>= fun ts => if atUnqualified word ts = true then p else q) :=
    fun word _ _ hp hq => steady_look 2 3 (atUnqualified_append word) (fun _ _ _ _ _ => by omega)
      (fun _ _ h => ordinary_of_atUnqualified h) hp hq
  refine headed_advance fun _ => hlook _ ?_ (hlook _ ?_ ?_)
  · exact steady_advance.bind (m := 2) fun _ => steady_urlMatch.bind fun _ =>
      steady_expression.give
  · exact steady_advance.bind (m := 2) fun _ => steady_titleContains.bind fun _ =>
      steady_expression.give
  · exact steady_target.bind (m := 2) fun _ => steady_assertionOf.give

theorem headed_performStep : Headed 3 performStep := by
  refine headed_advance fun _ => ?_
  refine steady_look 3 3 atQualifiedName_append (fun _ _ _ _ _ => by omega) (fun _ _ h => h) ?_
    steady_fail
  refine steady_qualifiedName.bind (m := 0) fun _ => ?_
  exact steady_eat_last (by decide) (steady_commaSeparated steady_expression).give steady_pure

/-- Every rule for a step. Where the rule depends on what follows the keyword, it reads as much. -/
theorem headed_stepRule {rule : Parser Step} (h : stepRule? word ts = some rule) :
    ∃ n, Headed n rule ∧ (3 ≤ n ∨ ∀ us, stepRule? word us = some rule) := by
  have hdeclared : Headed 3 (if atQueryBinding ts then queryStep else declareStep) := by
    split
    · exact headed_queryStep
    · exact headed_declareStep
  unfold stepRule? at h
  split at h <;> cases h
  · exact ⟨1, headed_openStep, .inr fun _ => rfl⟩
  · exact ⟨1, headed_openStep, .inr fun _ => rfl⟩
  · exact ⟨1, headed_withTarget _, .inr fun _ => rfl⟩
  · exact ⟨3, headed_fillStep, .inr fun _ => rfl⟩
  · exact ⟨1, headed_withTarget _, .inr fun _ => rfl⟩
  · exact ⟨1, headed_withTarget _, .inr fun _ => rfl⟩
  · exact ⟨1, headed_withTarget _, .inr fun _ => rfl⟩
  · exact ⟨3, headed_selectStep, .inr fun _ => rfl⟩
  · exact ⟨1, headed_scrollStep, .inr fun _ => rfl⟩
  · exact ⟨1, headed_withValue _, .inr fun _ => rfl⟩
  · exact ⟨3, headed_dragStep, .inr fun _ => rfl⟩
  · exact ⟨3, headed_uploadStep, .inr fun _ => rfl⟩
  · exact ⟨1, headed_waitStep, .inr fun _ => rfl⟩
  · exact ⟨0, headed_refreshStep, .inr fun _ => rfl⟩
  · exact ⟨1, headed_clearStep, .inr fun _ => rfl⟩
  · exact ⟨1, headed_screenshotStep, .inr fun _ => rfl⟩
  · exact ⟨1, headed_withValue _, .inr fun _ => rfl⟩
  · exact ⟨1, headed_switchStep, .inr fun _ => rfl⟩
  · exact ⟨1, headed_closeStep, .inr fun _ => rfl⟩
  · exact ⟨1, headed_dialogStep, .inr fun _ => rfl⟩
  · exact ⟨1, headed_dialogStep, .inr fun _ => rfl⟩
  · exact ⟨3, headed_verifyStep, .inr fun _ => rfl⟩
  · exact ⟨3, headed_performStep, .inr fun _ => rfl⟩
  · exact ⟨3, headed_queryStep, .inr fun _ => rfl⟩
  · exact ⟨3, headed_queryStep, .inr fun _ => rfl⟩
  · exact ⟨3, hdeclared, .inl (Nat.le_refl 3)⟩
  · exact ⟨3, hdeclared, .inl (Nat.le_refl 3)⟩
  · exact ⟨3, hdeclared, .inl (Nat.le_refl 3)⟩
  · exact ⟨3, headed_declareStep, .inr fun _ => rfl⟩

/-! ## Conditions -/

/-- The state behind an `IS`, with what it is the state of. -/
def stateOf (left : Expression) (is : Token) : Parser Condition := do
  let negated ← eat (.keyword .not)
  let state ← elementState
  match elementOf? left with
  | some element => return .state element negated state
  | none => throw ⟨.unexpectedToken "an element before IS" is.display, is.pos⟩

def comparisonRest (left : Expression) : Parser Condition := do
  match comparison? (← current).kind with
  | some op =>
    let _ ← advance
    return .comparison left op (← expression)
  | none => return .truthy left

theorem condition_eq : condition = expression >>= fun left => ahead >>= fun ts =>
    if startsWith (.keyword .is) ts = true then advance >>= fun is => stateOf left is
    else comparisonRest left := rfl

theorem comparisonRest_eq (left : Expression) : comparisonRest left = current >>= fun t =>
    (comparison? t.kind).elim (pure (.truthy left)) fun op =>
      advance >>= fun _ => expression >>= fun e => pure (.comparison left op e) := by
  funext s
  unfold comparisonRest
  rw [current_bind, current_bind]
  cases comparison? s.current.kind <;> rfl

theorem steady_comparisonRest : Steady P 0 (comparisonRest left) := by
  rw [comparisonRest_eq]
  refine steady_choose (n := 1) (fun kind op h => ?_) (fun op => ?_) steady_pure
  · unfold comparison? at h
    split at h
    all_goals first | decide | cases h
  · exact steady_advance.bind fun _ => steady_expression.give

theorem steady_negatedState {f : Bool → ElementState → α} :
    Steady P 1 (eat (.keyword .not) >>= fun negated => elementState >>= fun state =>
      pure (f negated state)) :=
  steady_eat (by decide) (steady_elementState.give.fewer (by omega)) steady_elementState.give

theorem stateOf_of_none {is : Token} (h : elementOf? left = none) :
    stateOf left is = (eat (.keyword .not) >>= fun _ => elementState >>= fun _ => pure ()) >>=
      fun _ => throw ⟨.unexpectedToken "an element before IS" is.display, is.pos⟩ := by
  unfold stateOf
  rw [h]
  simp only [bind_assoc, pure_bind]

/-- Where no element comes before an `IS`, what follows it is wrong or it is wrong itself. -/
theorem steady_stateOf :
    Steady (fun s => startsWith (.keyword .is) s.ahead = true) 1
      (advance >>= fun is => stateOf left is) := by
  have hdot : ∀ s : State, startsWith (.keyword .is) s.ahead = true → ordinary s :=
    fun s h => ordinary_of_startsWith (by decide) h
  cases hleft : elementOf? left with
  | some element =>
    have h : Steady ordinary (1 + 1) (advance >>= fun is => stateOf left is) := by
      refine steady_advance.bind fun is => ?_
      unfold stateOf
      rw [hleft]
      exact steady_negatedState
    exact h.mono (by omega) hdot
  | none =>
    have hstate : Settles anywhere 1
        (eat (.keyword .not) >>= fun _ => elementState >>= fun _ => pure ()) :=
      steady_negatedState.toSettles
    have hno : ∀ {s s' : State} {a : Condition},
        (advance >>= fun is => stateOf left is) s ≠ .ok a s' := by
      intro s s' a hr
      obtain ⟨is, s₁, -, hr⟩ := parser_bind_eq_ok.1 hr
      rw [stateOf_of_none hleft] at hr
      obtain ⟨_, _, -, hr⟩ := parser_bind_eq_ok.1 hr
      cases hr
    refine ⟨⟨fun _ hr => absurd hr hno, ?_⟩, fun _ _ _ _ hr => absurd hr hno⟩
    · intro s e s' hs hr
      cases hts : s.ahead with
      | nil => rw [hts] at hs; cases hs
      | cons is ts =>
        have hkind : is.kind = .keyword .is := by rw [hts] at hs; exact beq_iff_eq.1 hs
        have hpass : PassesUntagged s [is] (s.leaving ts) :=
          ⟨passes_tail hts, untagged_singleton (by rw [hkind]; decide)⟩
        have hadvance : advance s = .ok is (s.leaving ts) := by
          rw [← leaving_ahead s, hts]
          rfl
        rw [bind_of_ok hadvance, stateOf_of_none hleft] at hr
        cases hq : (eat (.keyword .not) >>= fun _ => elementState >>= fun _ => pure () :
            Parser Unit) (s.leaving ts) with
        | error e₁ s₁ =>
          rw [bind_of_error hq] at hr
          cases hr
          obtain ⟨read, hread, he⟩ := hstate.fault trivial hq
          exact ⟨_, hpass.trans hread, he.of_read (by simp)⟩
        | ok u s₁ =>
          rw [bind_of_ok hq] at hr
          cases hr
          obtain ⟨read, hread, -⟩ := hstate.value trivial hq
          exact ⟨_, hpass.trans hread, .back (by simp)⟩

/-- A condition may blame its `IS`, which it has read. -/
theorem steady_condition : Steady P 1 condition := by
  rw [condition_eq]
  refine steady_expression.bind (m := 0) fun left => ?_
  exact steady_look 1 1 startsWith_append
    (fun r Y hY _ hr => Joins.startsWith_eq_false (by decide) r Y hY hr) (fun _ _ h => h)
    steady_stateOf steady_comparisonRest

end

end UiScenario.Grammar
