import UiScenario.Proofs.Completeness

/-!
Places of values and elements. A value place is a form of a statement with a value left open, and a
target place one with an element left open. Both come with the keywords that the grammar looks for
where the value or the element starts: what starts with none of them is read.

The other parts of a statement may be written in any way in which they are read.
-/

namespace UiScenario.Grammar

open UiScenario.Grammar.Parser

variable {behind : List TokenKind}

/-! ## Parts of statements -/

structure WrittenBlock where
  slots : List Slot
  body : List Statement
  opens : ∃ inner, slots = .sign .lbrace :: inner
  reads : ∀ what behind, Reads (block what) slots body behind

theorem blockSlots_opens (body : List Statement) :
    ∃ inner, blockSlots body = .sign .lbrace :: inner :=
  ⟨_, rfl⟩

def WrittenBlock.of (body : List Statement) (h : ∀ s ∈ body, s.Writable) : WrittenBlock where
  slots := blockSlots body
  body := body
  opens := blockSlots_opens body
  reads := reads_block h

structure WrittenArm where
  line : Nat
  asks : List Slot
  condition : Condition
  block : WrittenBlock
  reads : ∀ ks, Reads Grammar.condition asks condition (.lbrace :: ks)

namespace WrittenArm

def slots (w : WrittenArm) : List Slot :=
  .opening .if_ w.line :: (w.asks ++ w.block.slots)

def arm (w : WrittenArm) : Arm :=
  ⟨w.line, w.condition, w.block.body⟩

theorem reads_arm (w : WrittenArm) (ks : List TokenKind) :
    Reads (Grammar.arm Grammar.block) w.slots w.arm ks := by
  obtain ⟨inner, hinner⟩ := w.block.opens
  have hasks : Reads Grammar.condition w.asks w.condition (kinds w.block.slots ++ ks) := by
    rw [hinner]
    exact w.reads _
  refine reads_advance fun t ht => hasks.bind ((w.block.reads "IF" ks).last ?_)
  rw [show t.line = w.line from ht.2]
  exact reads_pure

end WrittenArm

structure WrittenCondition where
  slots : List Slot
  value : DataCondition
  reads : ∀ ks, Avoids [.plus, .dot] ks → Reads dataCondition slots value ks

/-- The end of a query as it is written: neither a value nor a condition goes on with it. -/
structure WrittenEnd where
  slots : List Slot
  columns : List OrderBy
  limit : Option Nat
  offset : Option Nat
  keeps : Keeps [.plus, .dot, .keyword .and, .keyword .or] slots
  reads : ∀ ks, Avoids joints ks → Reads queryEnd slots (columns, limit, offset) ks

/-- The end of a query that has one. -/
def WrittenEnd.of (q : DataQuery) : WrittenEnd where
  slots := orderSlots q.orderBy ++ q.bounds
  columns := q.orderBy
  limit := q.limit
  offset := q.offset
  keeps := keeps_queryEnd (by simp) q
  reads := fun _ => reads_queryEnd q

/-- A query with the given conditions and this end. -/
def WrittenEnd.complete (rest : WrittenEnd) (q : DataQuery) (conditions : WhereClause) :
    DataQuery :=
  { q with
    where_ := some conditions
    orderBy := rest.columns
    limit := rest.limit
    offset := rest.offset }

/-! ## Branches -/

def furtherSlots (arms : List WrittenArm) : List Slot :=
  arms.flatMap fun w => .keyword .else_ :: w.slots

/-- What stands behind the last `ELSE`, if there is one. -/
def otherwiseSlots (otherwise : Option WrittenBlock) : List Slot :=
  optional .else_ WrittenBlock.slots otherwise

/-- An `IF` with the condition of an arm left open: of the first arm, or of a further one. -/
inductive BranchPlace : (List Slot → List Slot) → (Condition → Statement) → Prop
  | first (line : Nat) (body : WrittenBlock) (further : List WrittenArm)
    (otherwise : Option WrittenBlock) :
    BranchPlace
      (fun xs => (.opening .if_ line :: (xs ++ body.slots)) ++
        (furtherSlots further ++ otherwiseSlots otherwise))
      (fun c => Arm.chain ⟨line, c, body.body⟩ (further.map WrittenArm.arm)
        (otherwise.elim [] WrittenBlock.body))
  | later (first : WrittenArm) (before : List WrittenArm) (line : Nat) (body : WrittenBlock)
    (after : List WrittenArm) (otherwise : Option WrittenBlock) :
    BranchPlace
      (fun xs => first.slots ++ (furtherSlots before ++ .keyword .else_ :: (.opening .if_ line ::
        (xs ++ body.slots) ++ (furtherSlots after ++ otherwiseSlots otherwise))))
      (fun c => first.arm.chain
        (before.map WrittenArm.arm ++ ⟨line, c, body.body⟩ :: after.map WrittenArm.arm)
        (otherwise.elim [] WrittenBlock.body))

theorem reads_chain (first : WrittenArm) (further : List WrittenArm)
    (otherwise : Option WrittenBlock) (hb : Stops behind) :
    Reads (branchStatement block)
      (first.slots ++ (furtherSlots further ++ otherwiseSlots otherwise))
      (first.arm.chain (further.map WrittenArm.arm) (otherwise.elim [] WrittenBlock.body))
      behind := by
  refine reads_arms WrittenArm.slots WrittenArm.arm further first.reads_arm
    (fun w _ => w.reads_arm) (fun _ _ _ => rfl) ?_
  cases otherwise with
  | none => exact .inl ⟨rfl, rfl, hb.avoids.mono (by simp [joints])⟩
  | some w =>
    obtain ⟨inner, hinner⟩ := w.opens
    exact .inr ⟨inner, congrArg (_ :: ·) hinner, hinner ▸ w.reads "ELSE" _⟩

theorem reads_branchPlace {write : List Slot → List Slot} {make : Condition → Statement}
    {xs : List Slot} {c : Condition} (h : BranchPlace write make)
    (hc : ∀ ks, Reads condition xs c (.lbrace :: ks)) (hb : Stops behind) :
    Reads statement (write xs) (make c) behind := by
  have hif : ∀ {xs : List Slot} {s : Statement} {line : Nat},
      Reads (branchStatement block) (.opening .if_ line :: xs) s behind →
      Reads statement (.opening .if_ line :: xs) s behind := by
    intro xs s line hs
    refine reads_statementWith (reads_current fun t ht => ?_)
    rw [show t.kind = .keyword .if_ from ht]
    exact hs
  cases h with
  | first line body further otherwise =>
    exact hif (reads_chain ⟨line, xs, c, body, hc⟩ further otherwise hb)
  | later first before line body after otherwise =>
    have hchain := reads_chain first (before ++ ⟨line, xs, c, body, hc⟩ :: after) otherwise hb
    simp only [furtherSlots, List.flatMap_append, List.flatMap_cons, List.map_append,
      List.map_cons, List.append_assoc] at hchain
    exact hif hchain

/-- An `IF` condition with a value left open. -/
inductive ConditionPlace : (Expression → List Slot) → (Expression → Condition) → Prop
  | alone : ConditionPlace Expression.slots .truthy
  | left {x : Slot} {op : ComparisonOp} {right : Expression} (hx : comparison? x.kind = some op)
    (hr : right.Writable) :
    ConditionPlace (fun e => e.slots ++ x :: right.slots) (fun e => .comparison e op right)
  | right {left : Expression} {x : Slot} {op : ComparisonOp} (hl : left.Writable)
    (hx : comparison? x.kind = some op) :
    ConditionPlace (fun e => left.slots ++ x :: e.slots) (fun e => .comparison left op e)

theorem reads_conditionPlace {write : Expression → List Slot} {make : Expression → Condition}
    {e : Expression} (h : ConditionPlace write make) (he : e.Writable) (ks : List TokenKind) :
    Reads condition (write e) (make e) (.lbrace :: ks) := by
  cases h with
  | alone => exact reads_truthy he
  | left hx hr => exact reads_comparison hx he (reads_expression _ hr avoids_cons)
  | right hl hx => exact reads_comparison hx hl (reads_expression e he avoids_cons)

/-! ## Conditions on rows -/

/-- The ways to write a comparison that takes a value. -/
inductive Compares : List Slot → ComparisonOp → Prop
  | sign {x : Slot} {op : ComparisonOp} (h : dataComparison? x.kind = some op) : Compares [x] op
  | starts : Compares [.keyword .starts, .keyword .with_] .startsWith
  | ends : Compares [.keyword .ends, .keyword .with_] .endsWith

theorem reads_compared {xs : List Slot} {op : ComparisonOp} {column : String} {e : Expression}
    (h : Compares xs op) (he : e.Writable) (hb : Avoids [.plus, .dot] behind) :
    Reads dataCondition (.name column :: (xs ++ e.slots)) ⟨column, op, some e⟩ behind := by
  cases h with
  | sign h => exact reads_dataComparison h he hb
  | starts => exact reads_dataAffix (.inl rfl) he hb
  | ends => exact reads_dataAffix (.inr rfl) he hb

/-- Conditions with the keywords that join them to those in front. -/
def joinedSlots (conditions : List (LogicalOp × WrittenCondition)) : List Slot :=
  conditions.flatMap fun c => .keyword c.1.keyword :: c.2.slots

def joined (conditions : List (LogicalOp × WrittenCondition)) : List (LogicalOp × DataCondition) :=
  conditions.map fun c => (c.1, c.2.value)

/-- A `WHERE` clause with one condition left open: the first, or a later one. -/
inductive ClausePlace : (List Slot → List Slot) → (DataCondition → WhereClause) → Prop
  | first (rest : List (LogicalOp × WrittenCondition)) :
    ClausePlace (fun xs => xs ++ joinedSlots rest) (fun c => ⟨c, joined rest⟩)
  | later (first : WrittenCondition) (before : List (LogicalOp × WrittenCondition))
    (join : LogicalOp) (after : List (LogicalOp × WrittenCondition)) :
    ClausePlace
      (fun xs => first.slots ++ (joinedSlots before ++ .keyword join.keyword ::
        (xs ++ joinedSlots after)))
      (fun c => ⟨first.value, joined before ++ (join, c) :: joined after⟩)

theorem reads_clausePlace {write : List Slot → List Slot} {make : DataCondition → WhereClause}
    {xs : List Slot} {c : DataCondition} (h : ClausePlace write make)
    (hc : ∀ ks, Avoids [.plus, .dot] ks → Reads dataCondition xs c ks)
    (hb : Avoids [.plus, .dot, .keyword .and, .keyword .or] behind) :
    Reads whereClause (write xs) (make c) behind := by
  have hall : ∀ (first : WrittenCondition) (rest : List (LogicalOp × WrittenCondition)),
      Reads whereClause (first.slots ++ joinedSlots rest) ⟨first.value, joined rest⟩ behind := by
    intro first rest
    have hrest : ∀ c ∈ rest, ∀ ks, Avoids [.plus, .dot] ks →
        Reads dataCondition c.2.slots c.2.value ks := fun c _ => c.2.reads
    exact reads_conditions Prod.fst (fun c => c.2.value) rest first.reads hrest hb
  cases h with
  | first rest => exact hall ⟨xs, c, hc⟩ rest
  | later first before join after =>
    have hlater := hall first (before ++ (join, ⟨xs, c, hc⟩) :: after)
    simpa only [joinedSlots, joined, List.flatMap_append, List.flatMap_cons, List.map_append,
      List.map_cons, List.append_assoc, List.cons_append] using hlater

/-! ## Checks -/

/-- A check of an element with a value left open, and the keywords that the grammar looks for where
    the value starts. -/
inductive CheckPlace :
    (Expression → List Slot) → (Target → Expression → Assertion) → List TokenKind → Prop
  | containsText (negated : Bool) :
    CheckPlace
      (fun e => keywordIf .not negated ++ .keyword .contains :: .keyword .text :: e.slots)
      (fun t e => .text t negated true e) []
  | contains (negated : Bool) :
    CheckPlace (fun e => keywordIf .not negated ++ .keyword .contains :: e.slots)
      (fun t e => .text t negated true e) [.keyword .text]
  | hasText (negated : Bool) :
    CheckPlace (fun e => keywordIf .not negated ++ .keyword .has :: .keyword .text :: e.slots)
      (fun t e => .text t negated false e) []
  | hasValue (negated : Bool) :
    CheckPlace (fun e => keywordIf .not negated ++ .keyword .has :: .keyword .value :: e.slots)
      (fun t e => .value t negated e) []
  | attributeName {expected : Expression} (he : expected.Writable) :
    CheckPlace
      (fun e => .keyword .has :: .keyword .attribute_ :: (e.slots ++ .sign .equals ::
        expected.slots))
      (fun t e => .attribute_ t e expected) []
  | attributeValue {name : Expression} (hn : name.Writable) :
    CheckPlace
      (fun e => .keyword .has :: .keyword .attribute_ :: (name.slots ++ .sign .equals :: e.slots))
      (fun t e => .attribute_ t name e) []
  | hasCount :
    CheckPlace (fun e => .keyword .has :: .keyword .count :: e.slots) (fun t e => .count t e) []

section
variable {write : Expression → List Slot} {make : Target → Expression → Assertion}
  {looked : List TokenKind} {e : Expression}

theorem keeps_checkPlace (h : CheckPlace write make looked) : Keeps [.dot] (write e) := by
  cases h with
  | containsText negated | contains negated | hasText negated | hasValue negated =>
    exact (keeps_keywordIf (by simp) negated).append (keeps_cons (by simp [Slot.kind]))
  | attributeName | attributeValue | hasCount => exact keeps_cons (by simp [Slot.kind])

theorem reads_contains {xs : List Slot} {t : Target} (he : Reads expression xs e behind)
    (htext : (kinds xs ++ behind).head? ≠ some (.keyword .text)) (negated : Bool) :
    Reads (assertionOf t) (keywordIf .not negated ++ .keyword .contains :: xs)
      (.text t negated true e) behind := by
  refine reads_eat_else (by cases negated <;> rintro ⟨⟩) ?_
  refine (reads_keywordIf negated avoids_cons).bind (reads_eat_then rfl ?_)
  exact (reads_eat_none htext).look (he.last reads_pure)

theorem reads_checkPlace (h : CheckPlace write make looked) (he : e.Writable)
    (hl : Avoids looked (kinds e.slots)) (t : Target) (hb : Stops behind) :
    Reads (assertionOf t) (write e) (make t e) behind := by
  have hvalue := reads_expression e he hb.value
  cases h with
  | contains negated =>
    refine reads_contains hvalue ?_ negated
    rw [head?_expression]
    exact hl.ne (by simp)
  | containsText negated => exact reads_containsText hvalue negated
  | hasText negated => exact reads_hasText hvalue negated
  | hasValue negated => exact reads_hasValue hvalue negated
  | attributeName hx => exact reads_hasAttribute (reads_expression _ hx hb.value) he
  | attributeValue hn => exact reads_hasAttribute hvalue hn
  | hasCount => exact reads_hasCount hvalue

end

/-! ## Values in steps -/

/-- The keywords that make a declaration a query. -/
def modeKinds : List TokenKind :=
  [.keyword .row, .keyword .rows, .keyword .count, .keyword .sum, .keyword .average, .keyword .min,
    .keyword .max, .keyword .distinct]

theorem mem_modeKinds {k : TokenKind} : k ∈ modeKinds ↔ (queryMode? k).isSome = true := by
  constructor
  · intro h
    simp only [modeKinds, List.mem_cons, List.not_mem_nil, or_false] at h
    rcases h with rfl | rfl | rfl | rfl | rfl | rfl | rfl | rfl <;> rfl
  · intro h
    unfold queryMode? at h
    split at h
    all_goals (cases h <;> simp [modeKinds])

/-- What stands behind the first word of a step, with a value left open, and the keywords that the
    grammar looks for where the value starts. -/
inductive StepValuePlace :
    Keyword → (Expression → List Slot) → (Expression → Step) → List TokenKind → Prop
  | open_ : StepValuePlace .open_ Expression.slots .open_ []
  | navigate : StepValuePlace .navigate (fun e => .keyword .to_ :: e.slots) .open_ []
  | fill {t : Target} (ht : t.Writable) :
    StepValuePlace .fill (fun e => t.slots ++ .keyword .with_ :: e.slots) (.fill t) []
  | select {t : Target} (ht : t.Writable) :
    StepValuePlace .select (fun e => e.slots ++ .keyword .from_ :: t.slots)
      (fun e => .select e t) []
  | press : StepValuePlace .press Expression.slots .press []
  | upload {t : Target} (ht : t.Writable) :
    StepValuePlace .upload (fun e => e.slots ++ .keyword .to_ :: t.slots) (fun e => .upload e t) []
  | wait (unit : WaitUnit) :
    StepValuePlace .wait (fun e => e.slots ++ [.keyword unit.keyword]) (fun e => .wait e unit)
      [.keyword .for_]
  | waitSeconds :
    StepValuePlace .wait Expression.slots (fun e => .wait e .seconds) [.keyword .for_]
  | screenshot :
    StepValuePlace .take (fun e => .keyword .screenshot :: .keyword .as :: e.slots)
      (fun e => .screenshot (some e)) []
  | log : StepValuePlace .log Expression.slots .log []
  | newTab :
    StepValuePlace .switch (fun e => .keyword .to_ :: .keyword .new :: .keyword .tab :: e.slots)
      (fun e => .switchToNewTab (some e)) []
  | tab :
    StepValuePlace .switch (fun e => .keyword .to_ :: .keyword .tab :: e.slots) .switchToTab []
  | dialog :
    StepValuePlace .accept (fun e => .keyword .dialog :: .keyword .with_ :: e.slots)
      (fun e => .acceptDialog (some e)) []
  | url (m : UrlMatch) :
    StepValuePlace .verify (fun e => .keyword .url :: .keyword m.keyword :: e.slots)
      (fun e => .verify (.url m e)) []
  | title (contains : Bool) :
    StepValuePlace .verify
      (fun e => .keyword .title :: .keyword (if contains then .contains else .is) :: e.slots)
      (fun e => .verify (.title contains e)) []
  | verify {t : Target} {write : Expression → List Slot} {make : Target → Expression → Assertion}
    {looked : List TokenKind} (ht : t.Writable)
    (hk : kinds t.slots ∉ [[.keyword .url], [.keyword .title]])
    (h : CheckPlace write make looked) :
    StepValuePlace .verify (fun e => t.slots ++ write e) (fun e => .verify (make t e)) looked
  | declare (kind : VariableKind) {name : String}
    (hn : (TokenKind.ofWord name).isBareName = true) :
    StepValuePlace kind.keyword (fun e => .name name :: .sign .equals :: e.slots)
      (.declare kind name) (if kind = .flag then [] else modeKinds)
  | argument (page action : String) {before after : List Expression}
    (hbefore : ∀ e ∈ before, e.Writable) (hafter : ∀ e ∈ after, e.Writable) :
    StepValuePlace .perform
      (fun e => .name page :: .sign .dot :: .name action :: .keyword .with_ ::
        listed Expression.slots (before ++ e :: after))
      (fun e => .perform page action (before ++ e :: after)) []
  | row {q : DataQuery} {write : List Slot → List Slot} {make : DataCondition → WhereClause}
    {column : String} {xs : List Slot} {op : ComparisonOp}
    (hv : (TokenKind.ofWord q.variable_).isBareName = true)
    (hq : q.mode = .load → q.resultType = .data) (h : ClausePlace write make)
    (hop : Compares xs op) (rest : WrittenEnd) :
    StepValuePlace q.keyword
      (fun e => .name q.variable_ :: (q.mode.slots ++ (q.source.slots ++ (.keyword .where_ ::
        (write (.name column :: (xs ++ e.slots)) ++ rest.slots)))))
      (fun e => .query (rest.complete q (make ⟨column, op, some e⟩))) []

section
variable {word : Keyword} {write : Expression → List Slot} {make : Expression → Step}
  {looked : List TokenKind} {e : Expression} {xs : List Slot} {line : Nat}

theorem reads_navigate (he : Reads expression xs e behind) :
    Reads openStep (.opening .navigate line :: .keyword .to_ :: xs) (.open_ e) behind :=
  reads_advance fun o ho => reads_pos (by rw [ho.1]; rfl) <|
    reads_expect rfl fun _ => he.last reads_pure

/-- A wait without a unit is one for seconds. -/
theorem reads_waitSeconds {x : Slot} (he : Reads expression xs e behind)
    (hfor : (kinds xs ++ behind).head? ≠ some (.keyword .for_))
    (hunit : Avoids [.keyword .milliseconds, .keyword .seconds] behind) :
    Reads waitStep (x :: xs) (.wait e .seconds) behind := by
  refine reads_advance fun _ _ => reads_eat_else hfor (he.last ?_)
  refine Reads.last (reads_eat_else (hunit.ne (by simp)) ?_) reads_pure
  exact (reads_eat_none (hunit.ne (by simp))).look reads_pure

theorem Stops.unit (hb : Stops behind) :
    Avoids [.keyword .milliseconds, .keyword .seconds] behind := by
  cases behind with
  | nil => exact avoids_nil
  | cons k ks =>
    refine avoids_cons fun hk => ?_
    simp only [List.mem_cons, List.not_mem_nil, or_false] at hk
    rcases hk with rfl | rfl <;> rcases hb with hb | ⟨hb, -⟩ <;> cases hb

theorem reads_rowPlace {q : DataQuery} {write : List Slot → List Slot}
    {make : DataCondition → WhereClause} {column : String} {xs : List Slot} {op : ComparisonOp}
    (hv : (TokenKind.ofWord q.variable_).isBareName = true)
    (hq : q.mode = .load → q.resultType = .data) (h : ClausePlace write make)
    (hop : Compares xs op) (rest : WrittenEnd) (he : e.Writable) (hb : Stops behind) :
    Reads queryStep
      (.opening q.keyword line :: .name q.variable_ :: (q.mode.slots ++ (q.source.slots ++
        (.keyword .where_ :: (write (.name column :: (xs ++ e.slots)) ++ rest.slots)))))
      (.query (rest.complete q (make ⟨column, op, some e⟩))) behind := by
  have hrest : Avoids [.plus, .dot, .keyword .and, .keyword .or] (kinds rest.slots ++ behind) :=
    rest.keeps behind (hb.avoids.mono (by simp [joints]))
  have hclause : Reads whereClause (write (.name column :: (xs ++ e.slots)))
      (make ⟨column, op, some e⟩) (kinds rest.slots ++ behind) :=
    reads_clausePlace h (fun ks hks => reads_compared hop he hks) hrest
  have hwhere : Reads (after? (.keyword .where_) whereClause)
      (.keyword .where_ :: write (.name column :: (xs ++ e.slots)))
      (some (make ⟨column, op, some e⟩)) (kinds rest.slots ++ behind) := reads_after rfl hclause
  have hquery : Reads query
      ((.opening q.keyword line :: .name q.variable_ :: (q.mode.slots ++ q.source.slots)) ++
        (.keyword .where_ :: write (.name column :: (xs ++ e.slots)) ++ rest.slots))
      (rest.complete q (make ⟨column, op, some e⟩)) behind :=
    reads_queryParts (q := rest.complete q _) hv hq avoids_cons hwhere (rest.reads behind hb.avoids)
  simp only [List.cons_append, List.append_assoc] at hquery
  exact hquery.last reads_pure

/-- A step is read by the rule of its first word. All rules but those of declarations and queries
    depend on the first word alone. -/
theorem reads_stepWord {rule : Parser Step} {s : Step}
    (h : Reads rule (.opening word line :: xs) s behind)
    (hword : word ∉ [.if_, .repeat_, .for_] := by decide)
    (hr : ∀ ts, stepRule? word ts = some rule := by exact fun _ => rfl) :
    Reads statement (.opening word line :: xs) (.step line s) behind :=
  reads_statementWith (reads_stepStatement hword fun ts _ => ⟨rule, hr ts, h⟩)

/-- A value in a step is read by the rule of the step's first word, unless a keyword stands where
    the value starts that the grammar looks for there. -/
theorem reads_stepValuePlace (h : StepValuePlace word write make looked) (he : e.Writable)
    (hl : Avoids looked (kinds e.slots)) (hb : Stops behind) :
    Reads statement (.opening word line :: write e) (.step line (make e)) behind := by
  have hvalue := reads_expression e he hb.value
  cases h with
  | open_ => exact reads_stepWord (reads_openStep hvalue)
  | navigate => exact reads_stepWord (reads_navigate hvalue)
  | fill ht => exact reads_stepWord (reads_fillStep ht hvalue)
  | select ht => exact reads_stepWord (reads_selectStep he ht hb)
  | press => exact reads_stepWord (reads_withValue .press hvalue)
  | upload ht => exact reads_stepWord (reads_uploadStep he ht hb)
  | wait unit => exact reads_stepWord (reads_wait he (hl.ne (by simp)))
  | waitSeconds =>
    refine reads_stepWord (reads_waitSeconds hvalue ?_ hb.unit)
    rw [head?_expression]
    exact hl.ne (by simp)
  | screenshot => exact reads_stepWord (reads_screenshotStep (reads_after rfl hvalue))
  | log => exact reads_stepWord (reads_withValue .log hvalue)
  | newTab => exact reads_stepWord (reads_switchToNewTabAt hvalue fun _ => atExpression_of he)
  | tab => exact reads_stepWord (reads_switchToTab hvalue)
  | dialog => exact reads_stepWord (reads_acceptDialog (reads_after rfl hvalue))
  | url m => exact reads_stepWord (reads_verifyUrl m hvalue)
  | title contains => exact reads_stepWord (reads_verifyTitle contains hvalue)
  | verify ht hk h =>
    refine reads_stepWord (reads_verifyElement ht hk ?_ ?_)
    · exact keeps_checkPlace h behind hb.element
    · exact reads_checkPlace h he hl _ hb
  | @declare kind name hn =>
    have hd : Reads declareStep
        (.opening kind.keyword line :: .name name :: .sign .equals :: e.slots)
        (.declare kind name e) behind := reads_declareStep kind hn hvalue
    cases kind with
    | flag => exact reads_stepWord hd
    | text | number | list =>
      refine reads_statementWith (reads_stepStatement (by decide) fun ts hts => ?_)
      refine ⟨_, rfl, reads_neg ?_ hd⟩
      refine not_atQueryBinding hts (Option.not_isSome_iff_eq_none.1 fun hsome => ?_)
      obtain ⟨mode, hmode⟩ := Option.isSome_iff_exists.1 hsome
      obtain ⟨k, hk, hkm⟩ := Option.bind_eq_some_iff.1 hmode
      exact hl k hk (mem_modeKinds.2 (by rw [hkm]; rfl))
  | @argument page action before after hbefore hafter =>
    have ha : ∀ e' ∈ before ++ e :: after, e'.Writable := by
      intro e' he'
      rcases List.mem_append.1 he' with h | h
      · exact hbefore e' h
      · exact (List.mem_cons.1 h).elim (fun heq => heq ▸ he) (hafter e')
    have hslots : .keyword .with_ :: listed Expression.slots (before ++ e :: after) =
        if (before ++ e :: after).isEmpty then [] else
          .keyword .with_ :: listed Expression.slots (before ++ e :: after) :=
      (if_neg (by simp)).symm
    dsimp only
    rw [hslots]
    exact reads_stepWord (reads_performStep ha hb)
  | @row q write make column xs op hv hq h hop rest =>
    refine reads_statementWith (reads_stepStatement (keyword_step (.query q)).2 fun ts hts => ?_)
    exact ⟨_, stepRule?_query hts, reads_rowPlace hv hq h hop rest he hb⟩

end

/-! ## Elements in steps -/

/-- What stands behind the first word of a step, with an element left open, and the keywords that
    the grammar looks for where the element starts. -/
inductive StepTargetPlace :
    Keyword → (Target → List Slot) → (Target → Step) → List TokenKind → Prop
  | click : StepTargetPlace .click Target.slots .click []
  | hover : StepTargetPlace .hover Target.slots .hover []
  | check : StepTargetPlace .check Target.slots .check []
  | uncheck : StepTargetPlace .uncheck Target.slots .uncheck []
  | fill {e : Expression} (he : e.Writable) :
    StepTargetPlace .fill (fun t => t.slots ++ .keyword .with_ :: e.slots) (fun t => .fill t e) []
  | select {e : Expression} (he : e.Writable) :
    StepTargetPlace .select (fun t => e.slots ++ .keyword .from_ :: t.slots) (.select e) []
  | scrollTo : StepTargetPlace .scroll (fun t => .keyword .to_ :: t.slots) .scrollTo []
  | dragFrom {u : Target} (hu : u.Writable) :
    StepTargetPlace .drag (fun t => t.slots ++ .keyword .to_ :: u.slots) (fun t => .drag t u) []
  | dragTo {u : Target} (hu : u.Writable) :
    StepTargetPlace .drag (fun t => u.slots ++ .keyword .to_ :: t.slots) (.drag u) []
  | upload {e : Expression} (he : e.Writable) :
    StepTargetPlace .upload (fun t => e.slots ++ .keyword .to_ :: t.slots) (.upload e) []
  | waitFor : StepTargetPlace .wait (fun t => .keyword .for_ :: t.slots) .waitFor []
  | clear : StepTargetPlace .clear Target.slots .clear [.keyword .cookies, .keyword .storage]
  | frame :
    StepTargetPlace .switch (fun t => .keyword .to_ :: .keyword .frame :: t.slots) .switchToFrame []
  | verifyState (negated : Bool) (state : ElementState) :
    StepTargetPlace .verify (fun t => t.slots ++ stateSlots negated state)
      (fun t => .verify (.state t negated state)) []
  | verify {write : Expression → List Slot} {make : Target → Expression → Assertion}
    {looked : List TokenKind} {e : Expression} (h : CheckPlace write make looked)
    (he : e.Writable) (hl : Avoids looked (kinds e.slots)) :
    StepTargetPlace .verify (fun t => t.slots ++ write e) (fun t => .verify (make t e)) []

section
variable {word : Keyword} {write : Target → List Slot} {make : Target → Step}
  {looked : List TokenKind} {page field : String} {line : Nat}

/-- A field of a page in a step is read by the rule of the step's first word, unless the page is
    spelled like a keyword that the grammar looks for there. -/
theorem reads_stepTargetPlace (h : StepTargetPlace word write make looked)
    (hl : TokenKind.ofWord page ∉ looked) (hb : Stops behind) :
    Reads statement (.opening word line :: write (.element (some page) field))
      (.step line (make (.element (some page) field))) behind := by
  have ht : (Target.element (some page) field).Writable := trivial
  have hverify : kinds (Target.element (some page) field).slots ∉
      [[.keyword .url], [.keyword .title]] := by
    simp [Target.slots]
  cases h with
  | click => exact reads_stepWord (reads_withTarget .click ht hb)
  | hover => exact reads_stepWord (reads_withTarget .hover ht hb)
  | check => exact reads_stepWord (reads_withTarget .check ht hb)
  | uncheck => exact reads_stepWord (reads_withTarget .uncheck ht hb)
  | fill he => exact reads_stepWord (reads_fillStep ht (reads_expression _ he hb.value))
  | select he => exact reads_stepWord (reads_selectStep he ht hb)
  | scrollTo => exact reads_stepWord (reads_scrollTo ht hb)
  | dragFrom hu => exact reads_stepWord (reads_dragStep ht hu hb)
  | dragTo hu => exact reads_stepWord (reads_dragStep hu ht hb)
  | upload he => exact reads_stepWord (reads_uploadStep he ht hb)
  | waitFor => exact reads_stepWord (reads_waitFor ht hb)
  | clear =>
    refine reads_stepWord (reads_clear ht ?_ hb)
    simpa [Target.slots, Slot.kind] using hl
  | frame => exact reads_stepWord (reads_switchToFrame ht hb)
  | verifyState negated state =>
    refine reads_stepWord (reads_verifyElement ht hverify avoids_cons ?_)
    exact reads_assertionOf rfl rfl (by simp [Assertion.expressions]) hb
  | verify h he hvalue =>
    refine reads_stepWord (reads_verifyElement ht hverify ?_ ?_)
    · exact keeps_checkPlace h behind hb.element
    · exact reads_checkPlace h he hvalue _ hb

end

/-! ## Statements -/

/-- A statement with a value left open, and the keywords that the grammar looks for where the value
    starts. -/
inductive ValuePlace :
    (Expression → List Slot) → (Expression → Statement) → List TokenKind → Prop
  | step {word : Keyword} {write : Expression → List Slot} {make : Expression → Step}
    {looked : List TokenKind} (h : StepValuePlace word write make looked) (line : Nat) :
    ValuePlace (fun e => .opening word line :: write e) (fun e => .step line (make e)) looked
  | branch {asks : Expression → List Slot} {condition : Expression → Condition}
    {write : List Slot → List Slot} {make : Condition → Statement} (h : BranchPlace write make)
    (hc : ConditionPlace asks condition) :
    ValuePlace (fun e => write (asks e)) (fun e => make (condition e)) []
  | repeat_ (line : Nat) (body : WrittenBlock) :
    ValuePlace (fun e => .opening .repeat_ line :: (e.slots ++ .keyword .times :: body.slots))
      (fun e => .repeat_ line e body.body) []

/-- A statement with an element left open, and the keywords that the grammar looks for where the
    element starts. -/
inductive TargetPlace : (Target → List Slot) → (Target → Statement) → List TokenKind → Prop
  | step {word : Keyword} {write : Target → List Slot} {make : Target → Step}
    {looked : List TokenKind} (h : StepTargetPlace word write make looked) (line : Nat) :
    TargetPlace (fun t => .opening word line :: write t) (fun t => .step line (make t)) looked
  | branch {write : List Slot → List Slot} {make : Condition → Statement}
    (h : BranchPlace write make) (negated : Bool) (state : ElementState) :
    TargetPlace (fun t => write (t.slots ++ stateSlots negated state))
      (fun t => make (.state t negated state)) flagKinds

theorem reads_valuePlace {write : Expression → List Slot} {make : Expression → Statement}
    {looked : List TokenKind} {e : Expression} (h : ValuePlace write make looked) (he : e.Writable)
    (hl : Avoids looked (kinds e.slots)) (hb : Stops behind) :
    Reads statement (write e) (make e) behind := by
  cases h with
  | step h line => exact reads_stepValuePlace h he hl hb
  | branch h hc => exact reads_branchPlace h (reads_conditionPlace hc he) hb
  | repeat_ line body =>
    refine reads_statementWith (reads_current fun t ht => ?_)
    rw [show t.kind = .keyword .repeat_ from ht]
    exact reads_repeatStatement he (body.reads "REPEAT" _)

theorem reads_targetPlace {write : Target → List Slot} {make : Target → Statement}
    {looked : List TokenKind} {page field : String} (h : TargetPlace write make looked)
    (hl : TokenKind.ofWord page ∉ looked) (hb : Stops behind) :
    Reads statement (write (.element (some page) field)) (make (.element (some page) field))
      behind := by
  cases h with
  | step h line => exact reads_stepTargetPlace h hl hb
  | branch h negated state =>
    have ht : (Target.element (some page) field).Writable := trivial
    refine reads_branchPlace h (fun ks => reads_state ht ?_ negated state) hb
    rintro _ ⟨⟩
    exact hl

end UiScenario.Grammar
