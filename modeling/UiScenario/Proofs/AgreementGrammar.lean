import UiScenario.Proofs.Agreement
import UiScenario.Proofs.ParallelGrammar

/-!
The rules of the grammar on two scripts that are alike: what they read is alike. One lemma for each
rule; no rule looks at the value of a token, numbers apart.
-/

namespace UiScenario

section
variable (w : Wording) (n : Nat)

abbrev Primary.alike : Likeness w n Primary := .still reword

abbrev Expression.alike : Likeness w n Expression := .still reword

abbrev PlainSelector.alike : Likeness w n PlainSelector := .still reword

abbrev Target.alike : Likeness w n Target := .still reword

abbrev Condition.alike : Likeness w n Condition := .still reword

abbrev TableRef.alike : Likeness w n TableRef := .still reword

abbrev DataCondition.alike : Likeness w n DataCondition := .still reword

abbrev WhereClause.alike : Likeness w n WhereClause := .still reword

abbrev OrderBy.alike : Likeness w n OrderBy := .still reword

abbrev DataQuery.alike : Likeness w n DataQuery := .still reword

abbrev Assertion.alike : Likeness w n Assertion := .still reword

abbrev Step.alike : Likeness w n Step := .still reword

abbrev Statement.alike : Likeness w n Statement := .of down reword

abbrev Statement.alikeAll : Likeness w n (List Statement) := .of downAll rewordAll

end

namespace Grammar

open UiScenario.Grammar.Parser

section
variable {w : Wording} {n : Nat}

/-! ## Values -/

theorem agrees_primary : Agrees (Primary.alike w n) primary primary := by
  refine agrees_atCurrent fun t u h => ?_
  have hk := h.kind
  rw [hk]
  split
  · exact Agrees.at (agrees_text fun _ _ hv => congrArg Primary.text hv)
  · next hn =>
    rw [h.number (hk.trans hn)]
    split
    · exact Agrees.at (agrees_advance.map fun _ _ _ => rfl)
    · exact Agrees.at agrees_fail
  · exact Agrees.at (agrees_advance.map fun _ _ _ => rfl)
  · exact Agrees.at (agrees_advance.map fun _ _ _ => rfl)
  · next he => exact agreesAt_name (by simp [he]) fun _ _ hv => congrArg Primary.env hv
  · refine Agrees.at (agrees_qualifiedName (fun x y hxy => agrees_pure ?_) ?_)
    · exact congrArg (fun z : String × String => Primary.ref (some z.1) z.2) hxy
    · exact agrees_bareName (fun _ _ hv => congrArg (Primary.ref none) hv) agrees_fail

theorem agrees_expression : Agrees (Expression.alike w n) expression expression :=
  agrees_primary.bind fun _ _ hp => (agrees_many (agrees_after? agrees_primary)).map fun _ _ hxs =>
    congrArg₂ Expression.mk hp hxs.of_list

theorem wordless_atExpression : Wordless atExpression := by
  intro v p ts
  cases ts with
  | nil => rfl
  | cons t ts =>
    have hq := wordless_atQualifiedName v p (t :: ts)
    rw [List.map_cons] at hq ⊢
    rw [atExpression, atExpression, hq]
    rfl

theorem agrees_selector : Agrees (PlainSelector.alike w n) selector selector := by
  refine agrees_atCurrent fun t u h => ?_
  rw [h.kind]
  split
  · exact Agrees.at (agrees_text fun _ _ hv => congrArg PlainSelector.text hv)
  · next he => exact agreesAt_name (by simp [he]) fun _ _ hv => congrArg PlainSelector.env hv
  · exact Agrees.at agrees_fail

theorem target_alike {x y : PlainSelector} (h : (PlainSelector.alike w n).Like x y) :
    (Target.alike w n).Like (.selector x.expression) (.selector y.expression) := by
  have hmove : ∀ z : PlainSelector, (Target.alike w n).move (.selector z.expression) =
      .selector ((PlainSelector.alike w n).move z).expression := by rintro (_ | _) <;> rfl
  have hword : ∀ z : PlainSelector, (Target.alike w n).word (.selector z.expression) =
      .selector ((PlainSelector.alike w n).word z).expression := by rintro (_ | _) <;> rfl
  rw [Likeness.Like, hmove, hword, hword, h]

theorem agrees_target : Agrees (Target.alike w n) target target := by
  have hs : Agrees (Target.alike w n) (selector >>= fun x => pure (.selector x.expression))
      (selector >>= fun x => pure (.selector x.expression)) :=
    agrees_selector.map fun _ _ h => target_alike h
  refine agrees_current.bind fun t u h => ?_
  rw [h.kind]
  split
  · exact hs
  · exact hs
  · refine agrees_qualifiedName (fun x y hxy => agrees_pure ?_) ?_
    · exact congrArg (fun z : String × String => Target.element (some z.1) z.2) hxy
    · exact agrees_bareName (fun _ _ hv => congrArg (Target.element none) hv) agrees_fail

theorem agrees_elementState : Agrees (.plain w n) elementState elementState := by
  refine agrees_current.bind fun t u h => ?_
  rw [h.kind]
  split
  · exact agrees_advance.map fun _ _ _ => rfl
  · exact agrees_fail

theorem elementOf?_alike {e e' : Expression} (h : (Expression.alike w n).Like e e') :
    (Target.alike w n).option.Like (elementOf? e) (elementOf? e') := by
  have hmove : ∀ x : Expression, elementOf? ((Expression.alike w n).move x) =
      (Target.alike w n).option.move (elementOf? x) := by
    rintro ⟨_ | _ | _ | _ | _, _ | _⟩ <;> rfl
  have hword : ∀ x : Expression, elementOf? ((Expression.alike w n).word x) =
      (Target.alike w n).option.word (elementOf? x) := by
    rintro ⟨_ | _ | _ | _ | _, _ | _⟩ <;> rfl
  rw [Likeness.Like, ← hmove, ← hword, ← hword, h]

theorem agrees_condition : Agrees (Condition.alike w n) condition condition := by
  refine agrees_expression.bind fun left left' hl => ?_
  refine agrees_test (wordless_startsWith _) ?_ ?_
  · refine agrees_advance.bind fun is is' his => agrees_eat.bindPlain fun negated => ?_
    refine agrees_elementState.bindPlain fun state => ?_
    have he := elementOf?_alike hl
    cases hx : elementOf? left with
    | none =>
      rw [hx] at he
      rw [he.eq_none]
      exact agrees_throw (congrArg₂ (fun v p => SyntaxError.mk (.unexpectedToken _ v) p)
        his.display his.pos)
    | some element =>
      rw [hx] at he
      obtain ⟨element', hx', he⟩ := he.exists_some
      rw [hx']
      exact agrees_pure (congrArg (Condition.state · negated state) he)
  · refine agrees_current.bind fun t u h => ?_
    rw [h.kind]
    split
    · next op _ =>
      exact agrees_advance.bind fun _ _ _ => agrees_expression.map fun _ _ hr =>
        congrArg₂ (Condition.comparison · op ·) hl hr
    · exact agrees_pure (congrArg Condition.truthy hl)

/-! ## Queries -/

theorem wordless_atQueryBinding : Wordless atQueryBinding := by
  intro v p ts
  rcases ts with _ | ⟨_, _ | ⟨_, _ | ⟨_, _ | ⟨_, _⟩⟩⟩⟩ <;> rfl

theorem agrees_tableRef : Agrees (TableRef.alike w n) tableRef tableRef :=
  agrees_name.bind fun _ _ hn => (agrees_after? agrees_name).map fun _ _ hc =>
    congrArg₂ TableRef.mk hn hc.of_option

theorem agrees_dataCondition :
    Agrees (DataCondition.alike w n) dataCondition dataCondition := by
  refine agrees_name.bind fun column column' hc => agrees_current.bind fun t u h => ?_
  rw [h.kind]
  have hvalue : ∀ (op : ComparisonOp) (e e' : Expression), (Expression.alike w n).Like e e' →
      (DataCondition.alike w n).Like ⟨column, op, some e⟩ ⟨column', op, some e'⟩ :=
    fun op e e' he => congrArg₂ (fun c x => (⟨c, op, some x⟩ : DataCondition)) hc he
  refine agrees_ite ?_ (agrees_ifEat ?_ ?_)
  · exact agrees_advance.bind fun _ _ _ => agrees_expect.bind fun _ _ _ =>
      agrees_expression.map fun _ _ he => hvalue _ _ _ he
  · exact agrees_eat.bindPlain fun _ => agrees_expect.map fun _ _ _ =>
      congrArg (fun c => (⟨c, _, none⟩ : DataCondition)) hc
  · split
    · exact agrees_advance.bind fun _ _ _ => agrees_expression.map fun _ _ he => hvalue _ _ _ he
    · exact agrees_fail

theorem agrees_whereRound :
    Agrees (Likeness.plain w n |>.prod (DataCondition.alike w n)).option whereRound whereRound := by
  refine agrees_current.bind fun t u h => ?_
  rw [h.kind]
  split
  · next op _ =>
    exact agrees_advance.bind fun _ _ _ => agrees_dataCondition.map fun _ _ hc =>
      congrArg (fun c => some (op, c)) hc
  · exact agrees_pure rfl

theorem agrees_whereClause : Agrees (WhereClause.alike w n) whereClause whereClause := by
  rw [whereClause_eq]
  exact agrees_dataCondition.bind fun _ _ hc => (agrees_many agrees_whereRound).map fun _ _ hr =>
    congrArg₂ WhereClause.mk hc (by simpa [Likeness.Like] using hr)

theorem agrees_orderBy : Agrees (OrderBy.alike w n) orderBy orderBy :=
  agrees_name.bind fun _ _ hn =>
    agrees_ifEat (agrees_pure (congrArg (OrderBy.mk · true) hn)) <|
      agrees_eat.map fun _ _ _ => congrArg (OrderBy.mk · false) hn

theorem agrees_count {expected : String} :
    Agrees (.plain w n) (count expected) (count expected) := by
  refine agrees_current.bind fun t u h => ?_
  have hk := h.kind
  have hc : (if t.kind == .number then count? t.value else none) =
      if u.kind == .number then count? u.value else none := by
    rw [hk]
    split
    · next hn => rw [h.number (hk.trans (beq_iff_eq.1 hn))]
    · rfl
  rw [hc]
  split
  · exact agrees_advance.map fun _ _ _ => rfl
  · exact agrees_fail

theorem agrees_querySource :
    Agrees ((Likeness.plain w n).prod ((Likeness.name w n).prod
      ((Likeness.plain w n).prod (TableRef.alike w n)))) querySource querySource := by
  have hsource : ∀ (type : ResultType) (mode : QueryMode) {v v' : String} {x x' : TableRef},
      w.name v = w.name v' → (TableRef.alike w n).Like x x' →
      ((Likeness.plain w n).prod ((Likeness.name w n).prod
        ((Likeness.plain w n).prod (TableRef.alike w n)))).Like (type, v, mode, x)
          (type, v', mode, x') :=
    fun type mode _ _ _ _ hv hx => congrArg₂ (fun v x => (type, v, mode, x)) hv hx
  refine agrees_advance.bind fun t u h => ?_
  rw [h.kind]
  refine agrees_ite ?_ ?_
  · exact agrees_binding.bind fun _ _ hv => agrees_expect.bind fun _ _ _ =>
      agrees_tableRef.map fun _ _ hx => hsource _ _ hv hx
  · refine agrees_binding.bind fun _ _ hv => agrees_expect.bind fun _ _ _ => ?_
    refine agrees_current.bind fun t' u' h' => ?_
    rw [h'.kind]
    split
    · exact agrees_advance.bind fun _ _ _ => agrees_tableRef.map fun _ _ hx =>
        hsource _ _ hv hx
    · exact agrees_fail

theorem agrees_orderClause :
    Agrees (OrderBy.alike w n).list orderClause orderClause :=
  agrees_ifEat (agrees_expect.bind fun _ _ _ => agrees_commaSeparated agrees_orderBy)
    (agrees_pure rfl)

theorem agrees_query : Agrees (DataQuery.alike w n) query query := by
  refine agrees_querySource.bind fun x y hxy => ?_
  obtain ⟨type, variable_, mode, source⟩ := x
  obtain ⟨type', variable', mode', source'⟩ := y
  obtain ⟨rfl, hv, rfl, hs⟩ : type = type' ∧ w.name variable_ = w.name variable' ∧ mode = mode' ∧
      (TableRef.alike w n).Like source source' := by
    simpa [Likeness.Like, Prod.ext_iff] using hxy
  refine (agrees_after? agrees_whereClause).bind fun _ _ hw => ?_
  refine agrees_orderClause.bind fun _ _ ho => ?_
  refine (agrees_after? agrees_count).bind fun limit limit' hl => ?_
  refine (agrees_after? agrees_count).map fun offset offset' hf => ?_
  obtain rfl := hl.eq_of_plain
  obtain rfl := hf.eq_of_plain
  exact (congr (congr (congrArg₂ (fun v x c o => DataQuery.mk type v mode x c o limit offset) hv hs)
    hw.of_option) ho.of_list :)

/-! ## Steps -/

theorem agrees_withTarget {make : Target → Step}
    (h : ∀ x y, (Target.alike w n).Like x y → (Step.alike w n).Like (make x) (make y)) :
    Agrees (Step.alike w n) (withTarget make) (withTarget make) :=
  agrees_advance.bind fun _ _ _ => agrees_target.map h

theorem agrees_withValue {make : Expression → Step}
    (h : ∀ x y, (Expression.alike w n).Like x y → (Step.alike w n).Like (make x) (make y)) :
    Agrees (Step.alike w n) (withValue make) (withValue make) :=
  agrees_advance.bind fun _ _ _ => agrees_expression.map h

theorem agrees_openStep : Agrees (Step.alike w n) openStep openStep := by
  have he : Agrees (Step.alike w n) (Step.open_ <$> expression) (Step.open_ <$> expression) :=
    agrees_expression.map fun _ _ he => congrArg Step.open_ he
  refine agrees_advance.bind fun t u h => ?_
  rw [h.kind]
  exact agrees_ite (agrees_expect.bind fun _ _ _ => he) he

theorem agrees_fillStep : Agrees (Step.alike w n) fillStep fillStep :=
  agrees_advance.bind fun _ _ _ => agrees_target.bind fun _ _ ht => agrees_expect.bind fun _ _ _ =>
    agrees_expression.map fun _ _ he => congrArg₂ Step.fill ht he

theorem agrees_selectStep : Agrees (Step.alike w n) selectStep selectStep :=
  agrees_advance.bind fun _ _ _ => agrees_expression.bind fun _ _ he =>
    agrees_expect.bind fun _ _ _ => agrees_target.map fun _ _ ht => congrArg₂ Step.select he ht

theorem agrees_scrollStep : Agrees (Step.alike w n) scrollStep scrollStep :=
  agrees_advance.bind fun _ _ _ => agrees_ifEat (agrees_pure rfl) <|
    agrees_ifEat (agrees_pure rfl) <|
      agrees_ifEat (agrees_target.map fun _ _ ht => congrArg Step.scrollTo ht) agrees_fail

theorem agrees_dragStep : Agrees (Step.alike w n) dragStep dragStep :=
  agrees_advance.bind fun _ _ _ => agrees_target.bind fun _ _ hs => agrees_expect.bind fun _ _ _ =>
    agrees_target.map fun _ _ ht => congrArg₂ Step.drag hs ht

theorem agrees_uploadStep : Agrees (Step.alike w n) uploadStep uploadStep :=
  agrees_advance.bind fun _ _ _ => agrees_expression.bind fun _ _ he =>
    agrees_expect.bind fun _ _ _ => agrees_target.map fun _ _ ht => congrArg₂ Step.upload he ht

theorem agrees_waitUnit : Agrees (.plain w n) waitUnit waitUnit :=
  agrees_ifEat (agrees_pure rfl) (agrees_eat.map fun _ _ _ => rfl)

theorem agrees_waitStep : Agrees (Step.alike w n) waitStep waitStep := by
  refine agrees_advance.bind fun _ _ _ => agrees_ifEat ?_ ?_
  · exact agrees_target.map fun _ _ ht => congrArg Step.waitFor ht
  · exact agrees_expression.bind fun _ _ he => agrees_waitUnit.bindPlain fun unit =>
      agrees_pure (congrArg (Step.wait · unit) he)

theorem agrees_refreshStep : Agrees (Step.alike w n) refreshStep refreshStep :=
  agrees_advance.map fun _ _ _ => rfl

theorem agrees_clearStep : Agrees (Step.alike w n) clearStep clearStep :=
  agrees_advance.bind fun _ _ _ => agrees_ifEat (agrees_pure rfl) <|
    agrees_ifEat (agrees_pure rfl) (agrees_target.map fun _ _ ht => congrArg Step.clear ht)

theorem agrees_screenshotStep : Agrees (Step.alike w n) screenshotStep screenshotStep :=
  agrees_advance.bind fun _ _ _ => agrees_expect.bind fun _ _ _ =>
    (agrees_after? agrees_expression).map fun _ _ he => congrArg Step.screenshot he.of_option

theorem agrees_switchStep : Agrees (Step.alike w n) switchStep switchStep := by
  refine agrees_advance.bind fun _ _ _ => agrees_expect.bind fun _ _ _ => agrees_ifEat ?_ ?_
  · refine agrees_expect.bind fun _ _ _ =>
      agrees_test wordless_atExpression ?_ (agrees_pure rfl)
    exact agrees_expression.map fun _ _ he => congrArg (fun e => Step.switchToNewTab (some e)) he
  refine agrees_ifEat (agrees_expression.map fun _ _ he => congrArg Step.switchToTab he) ?_
  refine agrees_ifEat (agrees_target.map fun _ _ ht => congrArg Step.switchToFrame ht) ?_
  exact agrees_ifEat (agrees_expect.map fun _ _ _ => rfl) agrees_fail

theorem agrees_closeStep : Agrees (Step.alike w n) closeStep closeStep :=
  agrees_advance.bind fun _ _ _ => agrees_expect.map fun _ _ _ => rfl

theorem agrees_dialogStep : Agrees (Step.alike w n) dialogStep dialogStep := by
  refine agrees_advance.bind fun t u h => agrees_expect.bind fun _ _ _ => ?_
  rw [h.kind]
  exact agrees_ite (agrees_pure rfl) <|
    (agrees_after? agrees_expression).map fun _ _ he => congrArg Step.acceptDialog he.of_option

theorem agrees_urlMatch : Agrees (.plain w n) urlMatch urlMatch :=
  agrees_ifEat (agrees_pure rfl) <| agrees_ifEat (agrees_pure rfl) <|
    agrees_ifEat (agrees_pure rfl) agrees_fail

theorem agrees_titleContains : Agrees (.plain w n) titleContains titleContains :=
  agrees_ifEat (agrees_pure rfl) <| agrees_ifEat (agrees_pure rfl) agrees_fail

theorem agrees_assertionOf {x x' : Target} (hx : (Target.alike w n).Like x x') :
    Agrees (Assertion.alike w n) (assertionOf x) (assertionOf x') := by
  refine agrees_ifEat ?_ (agrees_eat.bindPlain fun negated => ?_)
  · exact agrees_eat.bindPlain fun negated => agrees_elementState.bindPlain fun state =>
      agrees_pure (congrArg (Assertion.state · negated state) hx)
  refine agrees_ifEat ?_ (agrees_expect.bind fun _ _ _ => ?_)
  · exact agrees_eat.bind fun _ _ _ => agrees_expression.map fun _ _ he =>
      congrArg₂ (Assertion.text · negated true ·) hx he
  refine agrees_ifEat (agrees_expression.map fun _ _ he => ?_) ?_
  · exact congrArg₂ (Assertion.text · negated false ·) hx he
  refine agrees_ifEat (agrees_expression.map fun _ _ he => ?_) (agrees_ite agrees_fail ?_)
  · exact congrArg₂ (Assertion.value · negated ·) hx he
  refine agrees_ifEat ?_ (agrees_ifEat (agrees_expression.map fun _ _ he => ?_) agrees_fail)
  · refine agrees_expression.bind fun _ _ hn => agrees_expect.bind fun _ _ _ =>
      agrees_expression.map fun _ _ he => ?_
    exact (congr (congrArg₂ Assertion.attribute_ hx hn) he :)
  · exact congrArg₂ Assertion.count hx he

theorem wordless_atUnqualified (word : Keyword) : Wordless (atUnqualified word) := by
  intro v p ts
  rcases ts with _ | ⟨_, _ | ⟨_, _⟩⟩ <;> rfl

theorem agrees_verifyStep : Agrees (Step.alike w n) verifyStep verifyStep := by
  refine agrees_advance.bind fun _ _ _ => agrees_test (wordless_atUnqualified _) ?_ ?_
  · exact agrees_advance.bind fun _ _ _ => agrees_urlMatch.bindPlain fun matcher =>
      agrees_expression.map fun _ _ he => congrArg (fun e => Step.verify (.url matcher e)) he
  refine agrees_test (wordless_atUnqualified _) ?_ ?_
  · exact agrees_advance.bind fun _ _ _ => agrees_titleContains.bindPlain fun contains =>
      agrees_expression.map fun _ _ he => congrArg (fun e => Step.verify (.title contains e)) he
  exact agrees_target.bind fun _ _ ht => (agrees_assertionOf ht).map fun _ _ ha =>
    congrArg Step.verify ha

theorem agrees_declareStep : Agrees (Step.alike w n) declareStep declareStep := by
  refine agrees_advance.bind fun t u h => ?_
  rw [h.kind]
  exact agrees_binding.bind fun _ _ hn => agrees_expect.bind fun _ _ _ =>
    agrees_expression.map fun _ _ he => congrArg₂ (Step.declare _ · ·) hn he

theorem agrees_performStep : Agrees (Step.alike w n) performStep performStep := by
  refine agrees_advance.bind fun _ _ _ => agrees_qualifiedName (fun x y hxy => ?_) agrees_fail
  have hstep : ∀ es es' : List Expression,
      (Expression.alike w n).list.Like es es' →
      (Step.alike w n).Like (.perform x.1 x.2 es) (.perform y.1 y.2 es') :=
    fun _ _ he => congrArg₂ (fun z : String × String => Step.perform z.1 z.2) hxy he.of_list
  exact agrees_ifEat ((agrees_commaSeparated agrees_expression).map hstep)
    (agrees_pure (hstep [] [] rfl))

theorem agrees_queryStep : Agrees (Step.alike w n) queryStep queryStep :=
  agrees_query.map fun _ _ hq => congrArg Step.query hq

theorem agrees_stepRule {word : Keyword} {ts : List Token} {rule : Parser Step}
    (h : stepRule? word ts = some rule) : Agrees (Step.alike w n) rule rule := by
  unfold stepRule? at h
  split at h <;> cases h
  · exact agrees_openStep
  · exact agrees_openStep
  · exact agrees_withTarget fun _ _ h => congrArg Step.click h
  · exact agrees_fillStep
  · exact agrees_withTarget fun _ _ h => congrArg Step.hover h
  · exact agrees_withTarget fun _ _ h => congrArg Step.check h
  · exact agrees_withTarget fun _ _ h => congrArg Step.uncheck h
  · exact agrees_selectStep
  · exact agrees_scrollStep
  · exact agrees_withValue fun _ _ h => congrArg Step.press h
  · exact agrees_dragStep
  · exact agrees_uploadStep
  · exact agrees_waitStep
  · exact agrees_refreshStep
  · exact agrees_clearStep
  · exact agrees_screenshotStep
  · exact agrees_withValue fun _ _ h => congrArg Step.log h
  · exact agrees_switchStep
  · exact agrees_closeStep
  · exact agrees_dialogStep
  · exact agrees_dialogStep
  · exact agrees_verifyStep
  · exact agrees_performStep
  · exact agrees_queryStep
  · exact agrees_queryStep
  · exact agrees_ite agrees_queryStep agrees_declareStep
  · exact agrees_ite agrees_queryStep agrees_declareStep
  · exact agrees_ite agrees_queryStep agrees_declareStep
  · exact agrees_declareStep

theorem wordless_stepRule (word : Keyword) : Wordless (stepRule? word) := by
  intro v p ts
  unfold stepRule?
  rw [wordless_atQueryBinding]

/-! ## Statements -/

abbrev Arm.alike (w : Wording) (n : Nat) : Likeness w n Arm where
  move a := ⟨a.line + n, a.condition, Statement.downAll n a.body⟩
  word a := ⟨a.line, a.condition.reword w, Statement.rewordAll w a.body⟩

theorem chain_alike {rest rest' : List Arm} (hrest : (Arm.alike w n).list.Like rest rest')
    {e e' : List Statement} (he : (Statement.alikeAll w n).Like e e') : ∀ {a a' : Arm},
      (Arm.alike w n).Like a a' →
      (Statement.alike w n).Like (a.chain rest e) (a'.chain rest' e') := by
  induction rest generalizing rest' with
  | nil =>
    intro a a' ha
    obtain rfl := List.map_eq_nil_iff.1 (Eq.symm hrest)
    obtain ⟨hl, hc, hb⟩ := Arm.mk.inj ha
    exact (congr (congr (congrArg₂ Statement.branch hl hc) hb) he :)
  | cons b rest ih =>
    intro a a' ha
    obtain ⟨b', rest', rfl, hb', hr⟩ := List.map_eq_cons_iff.1 (Eq.symm hrest)
    obtain ⟨hl, hc, hb⟩ := Arm.mk.inj ha
    exact (congr (congr (congrArg₂ Statement.branch hl hc) hb)
      (congrArg (fun s => [s]) (ih hr.symm hb'.symm)) :)

theorem wordless_atStatement : Wordless atStatement := by
  intro v p ts
  cases ts <;> rfl

theorem wordless_atElseIf : Wordless atElseIf := by
  intro v p ts
  rcases ts with _ | ⟨_, _ | ⟨_, _⟩⟩ <;> rfl

section
variable {block : String → Parser (List Statement)}
  (hb : ∀ what, Agrees (Statement.alikeAll w n) (block what) (block what))
include hb

theorem agrees_arm : Agrees (Arm.alike w n) (arm block) (arm block) := by
  refine agrees_advance.bind fun t u h => ?_
  rw [h.line]
  exact agrees_condition.bind fun _ _ hc => (hb _).map fun _ _ hs => congrArg₂ (Arm.mk _) hc hs

theorem agrees_branchStatement :
    Agrees (Statement.alike w n) (branchStatement block) (branchStatement block) := by
  have hround : Agrees (Arm.alike w n).option (armRound block) (armRound block) :=
    agrees_test wordless_atElseIf (agrees_advance.bind fun _ _ _ =>
      (agrees_arm hb).map fun _ _ ha => congrArg some ha) (agrees_pure rfl)
  rw [branchStatement_eq]
  refine (agrees_arm hb).bind fun a a' ha => (agrees_many hround).bind fun further further' hf => ?_
  exact agrees_ifEat ((hb _).map fun _ _ he => chain_alike hf he ha)
    (agrees_pure (chain_alike hf rfl ha))

theorem agrees_repeatStatement :
    Agrees (Statement.alike w n) (repeatStatement block) (repeatStatement block) := by
  refine agrees_advance.bind fun t u h => ?_
  rw [h.line]
  exact agrees_expression.bind fun _ _ he => agrees_expect.bind fun _ _ _ =>
    (hb _).map fun _ _ hs => congrArg₂ (Statement.repeat_ _) he hs

theorem agrees_forEachStatement :
    Agrees (Statement.alike w n) (forEachStatement block) (forEachStatement block) := by
  refine agrees_advance.bind fun t u h => agrees_expect.bind fun _ _ _ => ?_
  rw [h.line]
  refine agrees_binding.bind fun _ _ hi => agrees_expect.bind fun _ _ _ =>
    agrees_name.bind fun _ _ hc => (hb _).map fun _ _ hs => ?_
  exact (congr (congrArg₂ (Statement.forEach _) hi hc) hs :)

theorem agrees_statementRule :
    Agrees (Statement.alike w n) (statementRule block) (statementRule block) := by
  refine agrees_current.bind fun t u h => ?_
  have hunknown : Agrees (Statement.alike w n) (throw ⟨.unknownStatement t.display, t.pos⟩)
      (throw ⟨.unknownStatement u.display, u.pos⟩) :=
    agrees_throw (congrArg₂ (fun v p => SyntaxError.mk (.unknownStatement v) p) h.display h.pos)
  rw [h.kind]
  dsimp only
  split
  · exact agrees_branchStatement hb
  · exact agrees_repeatStatement hb
  · exact agrees_forEachStatement hb
  · next word _ _ _ _ =>
    intro s s' hst
    show Agree _ s s' (stepStatement t (stepRule? word s.ahead) s)
      (stepStatement u (stepRule? word s'.ahead) s')
    rw [← (wordless_stepRule word).eq hst.ahead]
    cases hr : stepRule? word s.ahead with
    | none => exact hunknown s s' hst
    | some rule =>
      refine ((agrees_stepRule hr).map fun x y hxy => ?_ : Agrees _ _ _) s s' hst
      exact congrArg₂ Statement.step h.line.symm hxy
  · exact hunknown

theorem agrees_statementWith :
    Agrees (Statement.alike w n) (statementWith block) (statementWith block) := by
  rw [statementWith_eq]
  refine agrees_current.bind fun t u h => ?_
  refine agrees_enclosed (agrees_statementRule hb) (fun _ _ _ => ?_) fun _ _ ho => ho
  exact congrArg₂ (fun v l => some (Opened.mk v l)) (w.text_upper h.text) h.line.symm

theorem agrees_blockMember :
    Agrees (Statement.alike w n).option (blockMember block) (blockMember block) := by
  rw [blockMember_eq]
  exact agrees_enclosed (agrees_recovering wordless_atStatement (agrees_statementWith hb))
    (fun _ _ ho => ho) fun _ _ ho => ho

end

/-- Blocks inside each other, by induction on the bound of the nesting. -/
theorem agrees_nestedBlock : ∀ (i : Nat) (what : String),
    Agrees (Statement.alikeAll w n) (nestedBlock i what) (nestedBlock i what)
  | 0, _ => agrees_fail
  | i + 1, what => by
    refine (agrees_braced (agrees_blockMember (agrees_nestedBlock i))).map fun xs ys hxs => ?_
    have hs := Likeness.filterMap_alike hxs (G := Statement.alike w n) (j := id) (fun _ => rfl)
      fun _ => rfl
    simpa only [Likeness.Like, Statement.rewordAll_eq_map, Statement.downAll_eq_map] using hs

theorem agrees_block {what : String} :
    Agrees (Statement.alikeAll w n) (block what) (block what) :=
  agrees_bounded fun i => agrees_nestedBlock i what

end

end Grammar

end UiScenario
