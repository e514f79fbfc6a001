import UiScenario.Proofs.Conditions
import UiScenario.Proofs.DataImport

/-!
Reading elements and testing rows. The code of a value waits for an element exactly if the value
reads one; the predicate of a query tests one row after the other and waits for nothing, so what it
needs of elements is read ahead of the query.
-/

namespace UiScenario

def Statement.query? : Statement → Option DataQuery
  | step _ (.query q) => some q
  | _ => none

namespace Generate

open Code

variable {b : Setting} {line depth : Nat} {s : Step} {p q : Progress} {body : List Statement}
  {code : List Code.Statement}

/-! ## Values that read elements -/

section
variable {e : Expression}

theorem toList_print_elementText (element : Expr) : (elementText element).print.toList =
    "((await ".toList ++ (element.print.toList ++ ".textContent()) ?? '')".toList) := by
  show ("(" ++ ("(" ++ ("await " ++ (element.print ++ "." ++ "textContent" ++ "(" ++
    ", ".intercalate [] ++ ")")) ++ ")" ++ " " ++ "??" ++ " " ++ (Expr.text "").print) ++
    ")").toList = _
  have hempty : (Expr.text "").print.toList = "''".toList := by decide
  simp [String.toList_append, hempty]

theorem primary_of_reads {x : Primary} (h : primaryReads b p x = true) :
    ∃ element, primary b p x = elementText element ∧
      primaryText b p x = .stringOf (elementText element) := by
  cases x with
  | text | number | flag | env => cases h
  | ref qualifier name =>
    cases qualifier with
    | none => cases h
    | some q =>
      simp only [primaryReads, Bool.and_eq_true, Bool.not_eq_true'] at h
      obtain ⟨page, hpage⟩ := Option.isSome_iff_exists.1 h.2
      have hprimary : primary b p (.ref (some q) name) =
          elementText (pageLocator p.root page name) := by
        rw [primary, h.1, hpage]
        rfl
      exact ⟨_, hprimary, congrArg Expr.stringOf hprimary⟩

/-- The first part of a value that reads an element. -/
theorem exists_first_reading (h : readsElement b p e = true) :
    ∃ front x back, e.parts = front ++ x :: back ∧ primaryReads b p x = true ∧
      ∀ y ∈ front, primaryReads b p y = false := by
  obtain ⟨x, hx⟩ := Option.isSome_iff_exists.1 (List.find?_isSome.2 (List.any_eq_true.1 h))
  obtain ⟨hreads, front, back, hparts, hfront⟩ := List.find?_eq_some_iff_append.1 hx
  exact ⟨front, x, back, hparts, hreads, fun y hy => by simpa using hfront y hy⟩

theorem awaitsElement_of_reads (hw : e.Worded) (h : readsElement b p e = true) :
    AwaitsElement (expression b p e).print.toList := by
  obtain ⟨front, x, back, hparts, hx, hfront⟩ := exists_first_reading h
  obtain ⟨element, hprimary, htext⟩ := primary_of_reads hx
  refine ⟨element, ?_⟩
  rw [← toList_print_elementText]
  unfold expression
  split
  · next hrest =>
    -- the value has one part only
    have hone : e.first = x := by
      rw [Expression.parts, List.isEmpty_iff.1 hrest] at hparts
      cases front with
      | nil => exact (List.cons.inj hparts).1
      | cons y front => simp at hparts
    rw [hone, hprimary]
    exact .refl _
  · rw [hparts, List.map_append, List.map_cons, htext]
    refine (Expr.occurs_stringOf _).trans (Expr.occurs_sum (fun f hf => ?_) _ _)
    obtain ⟨y, hy, rfl⟩ := List.mem_map.1 hf
    refine firm_primaryText (fun r hr => hw r (List.mem_filterMap.2 ⟨y, ?_, hr⟩)) (hfront y hy)
    rw [hparts]
    exact List.mem_append_left _ hy

theorem awaitsElement_iff (hw : e.Worded) :
    AwaitsElement (expression b p e).print.toList ↔ readsElement b p e = true := by
  refine ⟨fun h => ?_, awaitsElement_of_reads hw⟩
  by_contra hr
  exact (calm_expression (d := 0) hw (Bool.not_eq_true _ ▸ hr)).not_occurs_await h.occurs_await

end

/-! ## Predicates -/

section
variable {w : WhereClause} {rest : List (LogicalOp × Expr)} {first : Expr}

theorem firm_joinTests (hfirst : ∀ d, first.Firm d) (hrest : ∀ x ∈ rest, ∀ d, x.2.Calm d) :
    ∀ d, (joinTests first rest).Firm d := by
  induction rest generalizing first with
  | nil => exact hfirst
  | cons x rest ih =>
    refine ih (fun d => ?_) fun y hy => hrest y (List.mem_cons_of_mem _ hy)
    have htest : (Expr.paren x.2).Firm (d + 1) := (hrest x (List.mem_cons_self ..) _).paren
    exact ((hfirst (d + 1)).binary htest fun h => by cases h).calm.paren

theorem occurs_joinTests_first (first : Expr) (rest : List (LogicalOp × Expr)) :
    Occurs first.print.toList (joinTests first rest).print.toList := by
  induction rest generalizing first with
  | nil => exact .refl _
  | cons x rest ih =>
    exact ((Expr.occurs_left (logicalOperator x.1) first (.paren x.2)).trans
      (Expr.occurs_paren _)).trans (ih _)

theorem occurs_joinTests (hfirst : ∀ d, first.Firm d) (hrest : ∀ x ∈ rest, ∀ d, x.2.Calm d) :
    ∀ x ∈ rest, Occurs x.2.print.toList (joinTests first rest).print.toList := by
  induction rest generalizing first with
  | nil => exact List.forall_mem_nil _
  | cons y rest ih =>
    have hjoined : ∀ d, (joinTests first [y]).Firm d :=
      firm_joinTests hfirst (List.forall_mem_singleton.2 (hrest y (List.mem_cons_self ..)))
    intro x hx
    rcases List.mem_cons.1 hx with rfl | hx
    · refine Occurs.trans ?_ (occurs_joinTests_first (joinTests first [x]) rest)
      refine ((Expr.occurs_paren x.2).trans ?_).trans (Expr.occurs_paren _)
      exact Expr.occurs_right _ (hfirst 0).calm.quotingAfter _
    · exact ih hjoined (fun z hz => hrest z (List.mem_cons_of_mem _ hz)) x hx

section
variable (hw : ∀ c ∈ w.conditions, ∀ e, c.value = some e → e.Worded)
include hw

theorem firm_whereCode (d : Nat) : (whereCode b p w).1.Firm d := by
  have htests := calm_rowTests (b := b) (p := p) hw
  rw [whereCode_eq]
  obtain ⟨test, more, hmore, -⟩ := rowTests_eq_cons b p w
  rw [hmore] at htests ⊢
  refine firm_joinTests (fun d => (htests test (List.mem_cons_self ..) _).paren) (fun x hx => ?_) d
  exact htests _ (List.mem_cons_of_mem _ (List.of_mem_zip hx).2)

theorem occurs_whereCode {x : DataCondition × Option Nat}
    (hx : x ∈ numbered b p p.reads w.conditions) :
    Occurs (testOf b p x).print.toList (whereCode b p w).1.print.toList := by
  have htests := calm_rowTests (b := b) (p := p) hw
  obtain ⟨test, more, hmore, hlength⟩ := rowTests_eq_cons b p w
  have hmem : testOf b p x ∈ test :: more := hmore ▸ List.mem_map_of_mem hx
  rw [hmore] at htests
  rw [whereCode_eq, hmore]
  have hfirst : ∀ d, (Expr.paren test).Firm d := fun d => (htests _ (List.mem_cons_self ..) _).paren
  rcases List.mem_cons.1 hmem with heq | hmem
  · rw [heq]
    exact (Expr.occurs_paren test).trans (occurs_joinTests_first _ _)
  · have hsnd : ((w.rest.map (·.1)).zip more).map (·.2) = more :=
      List.map_snd_zip (by simp [hlength])
    rw [← hsnd] at hmem
    obtain ⟨y, hy, hyx⟩ := List.mem_map.1 hmem
    rw [← hyx]
    refine occurs_joinTests hfirst (fun z hz => htests _ ?_) y hy
    exact List.mem_cons_of_mem _ (List.of_mem_zip hz).2

end

theorem readName_mem_testOf {c : DataCondition} (h : c.op.isUnary = false) (n : Nat) :
    readName n ∈ (testOf b p (c, some n)).names := by
  obtain ⟨column, op, value⟩ := c
  cases op with
  | isEmpty | isNotEmpty => cases h
  | _ => simp [testOf, rowTest, comparison, comparand, Expr.invoke, Expr.stringOf]

end

/-! ## Queries -/

theorem reads_bind (p : Progress) (name : String) : (p.bind name).reads = p.reads := by
  unfold Progress.bind
  split <;> rfl

/-- The code of a query: the constants ahead of it, in the order of its conditions, and the
    declaration of its variable. -/
theorem step_query {d : DataQuery} (h : step b line (.query d) p = .ok (code, q)) :
    q.reads = p.reads + (d.conditions.filter (conditionReads b p)).length ∧
    code = (numbered b p p.reads d.conditions).filterMap (holding? b p) ++
      [if b.hoisted.contains d.variable_ then .assign d.variable_ (queryCode b p d).1
        else .const d.variable_ (queryCode b p d).1] := by
  have hquery : (queryCode b p d).2 =
      ((numbered b p p.reads d.conditions).filterMap (holding? b p),
        p.reads + (d.conditions.filter (conditionReads b p)).length) := by
    unfold queryCode DataQuery.conditions
    cases d.where_ with
    | none => rfl
    | some w =>
      show (whereCode b p w).2 = _
      rw [whereCode_eq]
      rfl
  rw [step, gen_bind_eq_ok] at h
  obtain ⟨_, _, hp, h⟩ := h
  obtain ⟨rfl, rfl⟩ := gen_get_eq_ok.1 hp
  simp only [gen_bind_eq_ok, gen_set_eq_ok, declare_eq_ok, gen_pure_eq_ok, hquery] at h
  obtain ⟨_, _, rfl, _, _, ⟨rfl, rfl⟩, rfl, rfl⟩ := h
  exact ⟨reads_bind _ _, rfl⟩

section
variable (b : Setting) (p : Progress)

/-- The line that gives its constant to a condition. -/
def heldLine? (level : Nat) (x : DataCondition × Option Nat) : Option String :=
  x.2.bind fun n => x.1.value.map fun e =>
    lineAt level ("const " ++ readName n ++ " = " ++ (expression b p e).print ++ ";")

/-- How a query is written that waits for elements only ahead of its predicate. -/
structure ReadsAhead (q : DataQuery) (own : List String) : Prop where
  generated : ∃ line code p' level, step b line (.query q) p = .ok (code, p') ∧
    own = Code.Statement.blockLines level code
  /-- All conditions are numbered, in order, as far as they read elements. -/
  conditions : (numbered b p p.reads q.conditions).map (·.1) = q.conditions
  numbers : ∀ x ∈ numbered b p p.reads q.conditions,
    x.2.isSome = x.1.value.any (readsElement b p)
  /-- The lines of the constants, in this order, and behind them the line of the query. -/
  lines : ∃ level head, (head = "const " ++ q.variable_ ∨ head = q.variable_) ∧
    own = (numbered b p p.reads q.conditions).filterMap (heldLine? b p level) ++
      [lineAt level (head ++ " = " ++ (queryCode b p q).1.print ++ ";")]
  predicate : ∀ w, q.where_ = some w →
    Occurs ("where: ($row) => ".toList ++ (whereCode b p w).1.print.toList)
      (queryCode b p q).1.print.toList ∧
    ¬Occurs "await ".toList (whereCode b p w).1.print.toList ∧
    ¬AwaitsElement (whereCode b p w).1.print.toList
  /-- The predicate has a test for each condition, which refers to the constant if there is one. -/
  tests : ∀ w, q.where_ = some w → ∀ x ∈ numbered b p p.reads q.conditions,
    Occurs (testOf b p x).print.toList (whereCode b p w).1.print.toList
  refers : ∀ x ∈ numbered b p p.reads q.conditions, ∀ n, x.2 = some n →
    readName n ∈ (testOf b p x).names

end

theorem blockLines_append (level : Nat) (xs ys : List Code.Statement) :
    Code.Statement.blockLines level (xs ++ ys) =
      Code.Statement.blockLines level xs ++ Code.Statement.blockLines level ys := by
  induction xs with
  | nil => rfl
  | cons s xs ih => simp [Code.Statement.blockLines, ih]

theorem blockLines_holding (b : Setting) (p : Progress) (level : Nat)
    (xs : List (DataCondition × Option Nat)) :
    Code.Statement.blockLines level (xs.filterMap (holding? b p)) =
      xs.filterMap (heldLine? b p level) := by
  induction xs with
  | nil => rfl
  | cons x xs ih =>
    have hline : Code.Statement.blockLines level (holding? b p x).toList =
        (heldLine? b p level x).toList := by
      obtain ⟨⟨column, op, value⟩, number⟩ := x
      cases number <;> cases value <;> rfl
    rw [filterMap_holding_cons, blockLines_append, hline, ih, List.filterMap_cons]
    cases heldLine? b p level x <;> rfl

theorem isSome_value_of_numbered {reads n : Nat} {cs : List DataCondition} {c : DataCondition}
    (h : (c, some n) ∈ numbered b p reads cs) : c.value.isSome = true := by
  obtain ⟨e, he, -⟩ := (Option.any_eq_true _ _).1 (isSome_of_mem_numbered h).symm
  rw [he]
  rfl

theorem readsAhead_of_step {x : DataQuery}
    (hw : (Statement.step line (.query x)).Has Grammar.worded)
    (h : step b line (.query x) p = .ok (code, q)) (level : Nat) :
    ReadsAhead b p x (Code.Statement.blockLines level code) := by
  have hworded : ∀ w, x.where_ = some w → ∀ c ∈ w.conditions, ∀ e, c.value = some e → e.Worded := by
    intro w hx c hc e he
    refine hw.values e (List.mem_filterMap.2 ⟨c, ?_, he⟩)
    rw [DataQuery.conditions, hx]
    exact hc
  have hawait : ∀ w, x.where_ = some w →
      ¬Occurs "await ".toList (whereCode b p w).1.print.toList := fun w hx =>
    (firm_whereCode (hworded w hx) 0).calm.not_occurs_await
  exact {
    generated := ⟨line, code, q, level, h, rfl⟩
    conditions := map_fst_numbered _ _
    numbers := fun _ => isSome_of_mem_numbered
    lines := by
      obtain ⟨-, rfl⟩ := step_query h
      rw [blockLines_append, blockLines_holding]
      split
      · exact ⟨level, _, .inr rfl, rfl⟩
      · exact ⟨level, _, .inl rfl, rfl⟩
    predicate := by
      intro w hx
      obtain ⟨front, back, hcode, hfront, -⟩ := queryCode_of_where (b := b) (p := p) hx
      refine ⟨⟨front, back, ?_, hfront⟩, hawait w hx, fun h => hawait w hx h.occurs_await⟩
      rw [hcode, List.append_assoc]
    tests := by
      intro w hx y hy
      rw [DataQuery.conditions, hx] at hy
      exact occurs_whereCode (hworded w hx) hy
    refers := by
      rintro ⟨c, _⟩ hy n rfl
      have hvalue := hw.conditions c (mem_of_mem_numbered hy)
      rw [isSome_value_of_numbered hy] at hvalue
      exact readName_mem_testOf (by simpa using hvalue.symm) n }

/-! ## Queries of bodies -/

section
variable (b : Setting)

/-- Queries stand in this order among some lines, each with its own lines together. -/
inductive Written : List DataQuery → List String → Prop
  | nil (lines : List String) : Written [] lines
  | cons {q : DataQuery} {qs : List DataQuery} {p : Progress} {own lines : List String}
      (front : List String) (hq : ReadsAhead b p q own) (hrest : Written qs lines) :
      Written (q :: qs) (front ++ (own ++ lines))

end

section
variable {qs qs' : List DataQuery} {xs ys : List String}

theorem Written.behind (h : Written b qs xs) (front : List String) :
    Written b qs (front ++ xs) := by
  cases h with
  | nil => exact .nil _
  | cons front' hq hrest =>
    rw [← List.append_assoc]
    exact .cons _ hq hrest

theorem Written.append (h : Written b qs xs) (h' : Written b qs' ys) :
    Written b (qs ++ qs') (xs ++ ys) := by
  induction h with
  | nil lines => exact h'.behind lines
  | cons front hq _ ih =>
    rw [List.append_assoc, List.append_assoc, List.cons_append]
    exact .cons front hq ih

theorem Written.block (h : Written b qs xs) (head : String) (back : List String) :
    Written b qs (head :: (xs ++ back)) := by
  have := (h.append (.nil back)).behind [head]
  rwa [List.append_nil] at this

theorem written_step (hw : (Statement.step line s).Has Grammar.worded)
    (h : step b line s p = .ok (code, q)) (level : Nat) :
    Written b (Statement.step line s).query?.toList (Code.Statement.blockLines level code) := by
  cases s with
  | query x =>
    have := Written.cons [] (readsAhead_of_step hw h level) (.nil [])
    rwa [List.append_nil, List.nil_append] at this
  | _ => exact .nil _

/-- The queries of statements, at any depth, are written in the order of the statements. -/
theorem Lays.written {depth : Nat} {body : List Statement} {p q : Progress}
    {code : List Code.Statement} (h : Lays b depth body p code q) (level : Nat)
    (hw : BodyHas Grammar.worded body) :
    Written b ((Statement.flattenAll body).filterMap Statement.query?)
      (Code.Statement.blockLines level code) := by
  unfold BodyHas at hw
  induction h generalizing level with
  | nil => exact .nil _
  | cons _ _ ih ihrest =>
    simp only [Statement.flattenAll, List.append_nil, List.forall_mem_append] at hw ih
    rw [blockLines_append, Statement.flattenAll, List.filterMap_append]
    exact (ih level hw.1).append (ihrest level hw.2)
  | step h =>
    have := written_step (hw _ List.mem_cons_self) h level
    simp only [Statement.flattenAll, Statement.flatten, List.append_nil, List.filterMap_cons,
      List.filterMap_nil]
    cases hs : (Statement.step _ _).query? <;> rw [hs] at this <;> exact this
  | choice _ _ _ ih ihelse =>
    simp only [Statement.flattenAll, Statement.flatten, List.append_nil, List.forall_mem_cons,
      List.forall_mem_append] at hw ⊢
    rw [List.filterMap_cons_none rfl, List.filterMap_append, Code.Statement.blockLines,
      Code.Statement.blockLines, List.append_nil, Code.Statement.lines]
    exact ((ih (level + 1) hw.2.1).append ((ihelse (level + 1) hw.2.2).block _ _)).behind [_]
  | branch _ _ ih | repeat_ _ ih | forEach _ ih =>
    simp only [Statement.flattenAll, Statement.flatten, List.append_nil,
      List.forall_mem_cons] at hw ⊢
    rw [List.filterMap_cons_none rfl, Code.Statement.blockLines, Code.Statement.blockLines,
      List.append_nil, Code.Statement.lines]
    exact (ih (level + 1) hw.2).block _ _

end

/-! ## Constants that hold texts -/

/-- The constants of statements that have a dollar sign in their names, in order. -/
def heldNames (visits : List Visit) : List String :=
  (visits.flatMap (·.statement.consts)).filter fun n => decide ('$' ∈ n.toList)

theorem heldNames_append (xs ys : List Visit) :
    heldNames (xs ++ ys) = heldNames xs ++ heldNames ys := by
  simp [heldNames]

theorem heldNames_flat {d : Nat} {visible : List String}
    (h : ∀ c ∈ code, ∀ visible, Code.inside d visible c = []) :
    heldNames (Code.visitAll d visible code) =
      (code.flatMap Code.Statement.consts).filter fun n => decide ('$' ∈ n.toList) := by
  induction code generalizing visible with
  | nil => rfl
  | cons c code ih =>
    have hrest := @ih (visible ++ c.declares) fun x hx => h x (List.mem_cons_of_mem _ hx)
    rw [Code.visitAll, h c (List.mem_cons_self ..), List.nil_append, ← List.singleton_append,
      heldNames_append, hrest]
    simp [heldNames]

theorem heldNames_block {s : Code.Statement} (h : s.consts = []) (d : Nat)
    (visible : List String) :
    heldNames (Code.visitAll d visible [s]) = heldNames (Code.inside d visible s) := by
  rw [Code.visitAll, Code.visitAll, List.append_nil, ← List.singleton_append, heldNames_append]
  simp [heldNames, h]

theorem not_dollar_of_isWord {n : String} (h : IsWord n) : '$' ∉ n.toList := by
  intro hd
  have := h _ hd
  revert this
  decide +kernel

theorem not_dollar_frameName (n : Nat) : '$' ∉ (frameName n).toList := by
  rw [frameName, String.toList_append]
  simp only [List.mem_append, not_or]
  refine ⟨by decide, fun hd => ?_⟩
  rw [show (toString n).toList = Nat.toDigits 10 n from String.toList_ofList] at hd
  have := Nat.isDigit_of_mem_toDigits (by decide) (by decide) hd
  revert this
  decide

/-- A declaration has no blocks, and makes at most one constant. -/
theorem consts_declaration (b : Setting) (name : String) (e : Expr) {c : Code.Statement}
    (hc : c = if b.hoisted.contains name then .assign name e else .const name e) :
    (∀ d visible, Code.inside d visible c = []) ∧ ∀ n ∈ c.consts, n = name := by
  rw [hc]
  split
  · exact ⟨fun _ _ => rfl, List.forall_mem_nil _⟩
  · exact ⟨fun _ _ => rfl, List.forall_mem_singleton.2 rfl⟩

/-- The code of a step that is no query has no blocks, and the constants in it have the names that
    the step binds, or those of frames. -/
theorem consts_step (h : step b line s p = .ok (code, q))
    (hs : (Statement.step line s).isQuery = false) :
    q.reads = p.reads ∧ ∀ c ∈ code, (∀ d visible, Code.inside d visible c = []) ∧
      ∀ n ∈ c.consts, s.bound? = some n ∨ ∃ k, n = frameName k := by
  have hreads : q.reads = p.reads := by
    rw [progress_step h]
    cases s with
    | query => cases hs
    | declare kind name e => exact reads_bind p name
    | _ => rfl
  refine ⟨hreads, fun c hc => ?_⟩
  cases step_shape allows_true allowsStatement_true h with
  | plain _ _ hplain =>
    obtain ⟨e, rfl | ⟨rfl, -⟩, -⟩ := hplain c hc <;>
      exact ⟨fun _ _ => rfl, List.forall_mem_nil _⟩
  | frame =>
    rw [List.mem_singleton.1 hc]
    exact ⟨fun _ _ => rfl, List.forall_mem_singleton.2 (.inr ⟨_, rfl⟩)⟩
  | declaration hb _ hq =>
    rcases hq with ⟨⟨_, rfl⟩, -⟩ | ⟨rfl, -⟩
    · cases hs
    · obtain ⟨hflat, hname⟩ := consts_declaration b _ _ (List.mem_singleton.1 hc)
      exact ⟨hflat, fun n hn => .inl (hname n hn ▸ hb)⟩

/-- The constants ahead of a query have the numbers of its conditions. -/
theorem consts_holding (reads : Nat) (cs : List DataCondition) :
    ((numbered b p reads cs).filterMap (holding? b p)).flatMap Code.Statement.consts =
      (List.range' (reads + 1) (cs.filter (conditionReads b p)).length).map readName := by
  rw [← filterMap_numbered]
  induction cs generalizing reads with
  | nil => rfl
  | cons c cs ih =>
    rw [numbered_cons, filterMap_holding_cons, List.flatMap_append, ih]
    split
    · next hc =>
      obtain ⟨e, he, -⟩ := (Option.any_eq_true _ _).1 hc
      simp [holding?, he, Code.Statement.consts]
    · simp [holding?]

theorem filter_map_readName (ns : List Nat) :
    (ns.map readName).filter (fun n => decide ('$' ∈ n.toList)) = ns.map readName := by
  refine List.filter_eq_self.2 fun n hn => ?_
  obtain ⟨k, -, rfl⟩ := List.mem_map.1 hn
  simpa using dollar_of_readName k

theorem heldNames_query {x : DataQuery} (hx : IsWord x.variable_)
    (h : step b line (.query x) p = .ok (code, q)) (d : Nat) (visible : List String) :
    heldNames (Code.visitAll d visible code) =
      (List.range' (p.reads + 1) (x.conditions.filter (conditionReads b p)).length).map
        readName := by
  obtain ⟨-, rfl⟩ := step_query h
  obtain ⟨hflat, hname⟩ := consts_declaration b x.variable_ (queryCode b p x).1 rfl
  have hahead : ∀ c ∈ (numbered b p p.reads x.conditions).filterMap (holding? b p),
      ∀ visible, Code.inside d visible c = [] := by
    intro c hc visible
    obtain ⟨y, -, hy⟩ := List.mem_filterMap.1 hc
    obtain ⟨n, -, hy⟩ := Option.bind_eq_some_iff.1 hy
    obtain ⟨e, -, rfl⟩ := Option.map_eq_some_iff.1 hy
    rfl
  rw [heldNames_flat (List.forall_mem_append.2 ⟨hahead, List.forall_mem_singleton.2 (hflat d)⟩),
    List.flatMap_append, List.filter_append, List.flatMap_singleton, consts_holding,
    filter_map_readName, List.append_right_eq_self, List.filter_eq_nil_iff]
  intro n hn
  rw [hname n hn]
  simpa using not_dollar_of_isWord hx

theorem heldNames_step (hw : (Statement.step line s).Has Grammar.worded)
    (h : step b line s p = .ok (code, q)) (d : Nat) (visible : List String) :
    ∃ k, q.reads = p.reads + k ∧
      heldNames (Code.visitAll d visible code) = (List.range' (p.reads + 1) k).map readName := by
  cases hs : (Statement.step line s).isQuery with
  | false =>
    obtain ⟨hreads, hconsts⟩ := consts_step h hs
    refine ⟨0, hreads, ?_⟩
    rw [heldNames_flat fun c hc => (hconsts c hc).1 d, List.range'_zero, List.map_nil,
      List.filter_eq_nil_iff]
    intro n hn
    obtain ⟨c, hc, hn⟩ := List.mem_flatMap.1 hn
    rcases (hconsts c hc).2 n hn with hbound | ⟨k, rfl⟩
    · simpa using not_dollar_of_isWord (hw.binds n hbound)
    · simpa using not_dollar_frameName k
  | true =>
    cases s with
    | query x => exact ⟨_, (step_query h).1, heldNames_query (hw.binds _ rfl) h d visible⟩
    | _ => cases hs

/-- The constants that hold texts are numbered through, at any depth. -/
theorem Lays.heldNames (h : Lays b depth body p code q) (d : Nat) (visible : List String)
    (hw : BodyHas Grammar.worded body) :
    ∃ k, q.reads = p.reads + k ∧
      heldNames (Code.visitAll d visible code) = (List.range' (p.reads + 1) k).map readName := by
  unfold BodyHas at hw
  induction h generalizing d visible with
  | nil => exact ⟨0, rfl, rfl⟩
  | cons _ _ ih ihrest =>
    simp only [Statement.flattenAll, List.append_nil, List.forall_mem_append] at hw ih
    obtain ⟨k, hk, hheld⟩ := ih d visible hw.1
    obtain ⟨k', hk', hheld'⟩ := ihrest d _ hw.2
    refine ⟨k + k', by rw [hk', hk, Nat.add_assoc], ?_⟩
    rw [Code.visitAll_append, heldNames_append, hheld, hheld', ← List.map_append, hk,
      Nat.add_right_comm, List.range'_append_1]
  | step h => exact heldNames_step (hw _ List.mem_cons_self) h d visible
  | branch _ _ ih =>
    simp only [Statement.flattenAll, Statement.flatten, List.append_nil,
      List.forall_mem_cons] at hw
    obtain ⟨k, hk, hheld⟩ := ih (d + 1) visible hw.2
    exact ⟨k, hk, (heldNames_block rfl d visible).trans hheld⟩
  | choice _ _ _ ih ihelse =>
    simp only [Statement.flattenAll, Statement.flatten, List.append_nil, List.forall_mem_cons,
      List.forall_mem_append] at hw
    obtain ⟨k, hk, hheld⟩ := ih (d + 1) visible hw.2.1
    obtain ⟨k', hk', hheld'⟩ := ihelse (d + 1) visible hw.2.2
    refine ⟨k + k', by rw [hk', hk, Nat.add_assoc], ?_⟩
    rw [heldNames_block rfl, Code.inside, heldNames_append, hheld, hheld', ← List.map_append, hk,
      Nat.add_right_comm, List.range'_append_1]
  | repeat_ _ ih =>
    simp only [Statement.flattenAll, Statement.flatten, List.append_nil,
      List.forall_mem_cons] at hw
    obtain ⟨k, hk, hheld⟩ := ih (d + 1) _ hw.2
    exact ⟨k, hk, (heldNames_block rfl d visible).trans hheld⟩
  | forEach _ ih =>
    simp only [Statement.flattenAll, Statement.flatten, List.append_nil,
      List.forall_mem_cons] at hw
    obtain ⟨k, hk, hheld⟩ := ih (d + 1) visible hw.2
    rw [reads_bind] at hk hheld
    exact ⟨k, hk, (heldNames_block rfl d visible).trans hheld⟩

end Generate

/-- The values of a statement, with those of the selectors of its elements. -/
def Statement.values (s : Statement) : List Expression :=
  s.expressions ++ s.targets.filterMap Target.value?

/-- The values of a program: those of its statements, at any depth, and those of the variables of
    its pages. -/
def Program.values (p : Program) : List Expression :=
  p.bodies.flatMap (fun body => (Statement.flattenAll body).flatMap Statement.values) ++
    p.pages.flatMap fun page => page.pageVariables.map (·.value)

theorem worded_of_mem_values {p : Program} (h : p.Has Grammar.worded) :
    ∀ e ∈ p.values, e.Worded := by
  intro e he
  simp only [Program.values, List.mem_append, List.mem_flatMap, List.mem_map] at he
  rcases he with ⟨body, hb, s, hs, he⟩ | ⟨page, hp, v, hv, rfl⟩
  · have hw := h.bodies body hb s hs
    rcases List.mem_append.1 he with he | he
    · exact hw.values e he
    · obtain ⟨t, ht, he⟩ := List.mem_filterMap.1 he
      exact hw.targets t ht e he
  · exact ((h.pages page hp).pageVariables v hv).2

namespace Generate

open Code

/-- **Predicates wait for nothing**: the code of a value of a script waits for an element exactly if
    the value is said to read one. In the code of each body, the constants that hold texts are
    numbered through, and each query, at any depth, has in front of it the constants that its
    predicate refers to in place of elements. -/
theorem row_predicates_never_await (source : String) :
    (∀ e ∈ (parseText source).program.values, ∀ (b : Setting) (p : Progress),
      (readsElement b p e = true ↔ AwaitsElement (expression b p e).print.toList) ∧
      (readsElement b p e = false →
        ¬Occurs "await ".toList (expression b p e).print.toList)) ∧
    ∀ body ∈ (parseText source).program.bodies, ∀ (all : Project) (o : BodyOwner)
      (bound : List String) (code : List Code.Statement),
      Generate.body all o bound body = .ok code →
      (∃ count, heldNames (Code.visitAll 0 [] code) = (List.range' 1 count).map readName) ∧
      Written ⟨all, o.defaultPage, o.uses, hoistedNames bound body⟩
        ((Statement.flattenAll body).filterMap Statement.query?)
        (Code.Statement.blockLines 0 code) := by
  have hprogram := worded_parseText source
  refine ⟨fun e he b p => ?_, fun body hbody all o bound code h => ?_⟩
  · have hw := worded_of_mem_values hprogram e he
    exact ⟨(awaitsElement_iff hw).symm, fun hr => (calm_expression (d := 0) hw hr).not_occurs_await⟩
  · have hw := hprogram.bodies body hbody
    obtain ⟨core, r, hcore, rfl⟩ := body_cases h
    refine ⟨?_, ?_⟩
    · obtain ⟨k, -, hheld⟩ := (lays_statements body hcore).heldNames 0
        ([] ++ (declareLine _).flatMap Code.Statement.declares) hw
      have hline : heldNames (Code.visitAll 0 []
          (declareLine ((hoistedNames bound body).filter (!bound.contains ·)))) = [] := by
        unfold declareLine
        split <;> rfl
      refine ⟨k, ?_⟩
      rw [Code.visitAll_append, heldNames_append, hline, hheld]
      rfl
    · rw [blockLines_append]
      exact ((lays_statements body hcore).written 0 hw).behind _

def cart : Project :=
  ⟨[⟨"Cart", none, [⟨"total", .text "#sum", 1⟩], [⟨.text, "unit", .text "EUR", 1⟩], [], 1⟩], []⟩

/-- A script with a query inside a loop that compares with elements, and with a query behind the
    loop that compares with the variable of their page too. -/
def billingScript : String :=
  "FEATURE F \x7b SCENARIO \"s\" \x7b
    REPEAT 2 TIMES \x7b
      LOAD due FROM A WHERE p == Cart.total OR n CONTAINS \"await \" + Cart.total
    \x7d
    LOAD paid FROM A WHERE u == Cart.unit AND p > Cart.total
  \x7d \x7d"

theorem row_predicates_never_await_billing :
    (∃ e ∈ (parseText billingScript).program.values,
      readsElement ⟨cart, none, [], []⟩ (.start []) e = true ∧
      AwaitsElement (expression ⟨cart, none, [], []⟩ (.start []) e).print.toList) ∧
    ∃ body ∈ (parseText billingScript).program.bodies, ∃ code,
      Generate.body cart ⟨none, []⟩ [] body = .ok code ∧
      heldNames (Code.visitAll 0 [] code) = ["$value1", "$value2", "$value3"] ∧
      ((Statement.flattenAll body).filterMap Statement.query?).map (·.variable_) =
        ["due", "paid"] ∧
      Written ⟨cart, none, [], hoistedNames [] body⟩
        ((Statement.flattenAll body).filterMap Statement.query?)
        (Code.Statement.blockLines 0 code) := by
  have hfacts : ((parseText billingScript).program.values.any
        (readsElement ⟨cart, none, [], []⟩ (.start [])) &&
      (parseText billingScript).program.bodies.any fun body =>
        (Generate.body cart ⟨none, []⟩ [] body).toOption.any (fun code =>
          heldNames (Code.visitAll 0 [] code) == ["$value1", "$value2", "$value3"]) &&
        ((Statement.flattenAll body).filterMap Statement.query?).map (·.variable_) ==
          ["due", "paid"]) = true := by decide +kernel
  obtain ⟨hvalue, hbody⟩ := Bool.and_eq_true_iff.1 hfacts
  obtain ⟨e, he, hr⟩ := List.any_eq_true.1 hvalue
  obtain ⟨body, hb, hfacts⟩ := List.any_eq_true.1 hbody
  obtain ⟨hheld, hqueries⟩ := Bool.and_eq_true_iff.1 hfacts
  obtain ⟨code, hcode, hheld⟩ := (Option.any_eq_true _ _).1 hheld
  have hok : Generate.body cart ⟨none, []⟩ [] body = .ok code := by
    cases h : Generate.body cart ⟨none, []⟩ [] body with
    | ok _ => rw [h] at hcode; cases hcode; rfl
    | error _ => rw [h] at hcode; cases hcode
  obtain ⟨hreads, hwritten⟩ := row_predicates_never_await billingScript
  exact ⟨⟨e, he, hr, (hreads e he _ _).1.1 hr⟩, body, hb, code, hok, eq_of_beq hheld,
    eq_of_beq hqueries, (hwritten body hb cart ⟨none, []⟩ [] code hok).2⟩

end Generate

end UiScenario
