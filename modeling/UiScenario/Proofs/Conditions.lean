import UiScenario.Generate.Query
import UiScenario.Proofs.CodeText
import UiScenario.Proofs.Spelling

/-!
The conditions of queries in generated code. Each condition of a clause becomes a test of the row; a
value that reads an element is held by a constant ahead of the query, and the test has the constant
in its place.
-/

namespace UiScenario

/-! ## Words -/

/-- A name has only the characters of words. -/
def IsWord (n : String) : Prop :=
  ∀ c ∈ n.toList, Lexeme.isWordChar c = true

/-- All that a value refers to is spelled with words. -/
def Expression.Worded (e : Expression) : Prop :=
  ∀ r ∈ e.references, (∀ q, r.1 = some q → IsWord q) ∧ IsWord r.2

/-- The value of a selector that is written out. -/
def Target.value? : Target → Option Expression
  | selector e => some e
  | element _ _ | unset => none

/-- If a token is a word, it has only the characters of words. -/
def Token.Worded (t : Token) : Prop :=
  t.isWord = true → IsWord t.value

theorem worded_of_mem_tokenize {source : String} {t : Token} (h : t ∈ (tokenize source).tokens) :
    t.Worded :=
  fun hw => (isWord_tokenize h hw).1

theorem worded_of_eof {t : Token} (h : t.kind = .eof) : t.Worded := by
  intro hw
  rw [Token.isWord, h] at hw
  cases hw

namespace Grammar

def worded : Traits where
  value := Expression.Worded
  target t := ∀ e, t.value? = some e → e.Worded
  name := IsWord
  binding := IsWord

theorem gathers_worded : Gathers Token.Worded worded where
  expression := by
    refine yields_expression (fun q n hq hw hn hw' => ⟨?_, hn hw'⟩) fun t ht hw => ⟨by simp, ht hw⟩
    rintro _ ⟨⟩
    exact hq hw
  target := by
    refine yields_target ?_ (fun _ _ _ _ _ _ => by rintro _ ⟨⟩) fun _ _ _ => by rintro _ ⟨⟩
    rintro (value | name) _ ⟨⟩ <;> exact List.forall_mem_nil _
  word := fun _ ht hw => ht hw
  bare := fun _ ht hb => ht (isWord_of_isBareName hb)
  element := by
    intro e t _ ht
    unfold elementOf? at ht
    split at ht <;> cases ht <;> rintro _ ⟨⟩ <;> exact List.forall_mem_nil _

end Grammar

theorem worded_parseText (source : String) : (parseText source).program.Has Grammar.worded :=
  has_parse Grammar.gathers_worded (fun _ => worded_of_eof) fun _ => worded_of_mem_tokenize

namespace Generate

open Code (Expr)

/-! ## Values -/

section
variable {b : Setting} {p : Progress} {d : Nat} {reads : Nat} {cs : List DataCondition}
  {x : DataCondition × Option Nat} {w : WhereClause}

theorem isPlain_of_isWord {n : String} (h : IsWord n) : n.toList.all Code.isPlain = true :=
  List.all_eq_true.2 fun c hc => Code.isPlain_of_isWordChar (h c hc)

theorem firm_envValue (name : String) : (envValue name).Firm d := by
  have hvariable : (Expr.index (.member (.name "process") "env") (.text name)).Firm (d + 1) :=
    ((Expr.calm_name (by decide)).member (by decide)).index (Expr.firm_text name).calm
  exact (hvariable.binary (Expr.firm_text "") fun h => by cases h).calm.paren

theorem calm_primary {x : Primary}
    (hw : ∀ r, x.reference? = some r → (∀ q, r.1 = some q → IsWord q) ∧ IsWord r.2)
    (hr : primaryReads b p x = false) : (primary b p x).Calm d := by
  cases x with
  | text value => exact (Expr.firm_text value).calm
  | number value => exact Expr.calm_number value
  | flag value => exact Expr.calm_flag value
  | env name => exact (firm_envValue name).calm
  | ref qualifier name =>
    obtain ⟨hq, hn⟩ := hw _ rfl
    cases qualifier with
    | none => exact Expr.calm_name (isPlain_of_isWord hn)
    | some q =>
      have hmember : (Expr.member (.name q) name).Calm d :=
        (Expr.calm_name (isPlain_of_isWord (hq q rfl))).member (isPlain_of_isWord hn)
      rw [primary]
      split
      · exact hmember
      · next hv =>
        simp only [primaryReads, Bool.and_eq_false_iff, Bool.not_eq_false'] at hr
        rcases hr with hr | hr
        · exact absurd hr hv
        · rw [Option.isSome_eq_false_iff, Option.isNone_iff_eq_none] at hr
          rw [hr]
          exact hmember

theorem firm_primaryText {x : Primary}
    (hw : ∀ r, x.reference? = some r → (∀ q, r.1 = some q → IsWord q) ∧ IsWord r.2)
    (hr : primaryReads b p x = false) : (primaryText b p x).Firm d := by
  cases x with
  | text value => exact Expr.firm_text value
  | env name => exact firm_envValue name
  | number value => exact (calm_primary (b := b) (p := p) hw hr).stringOf
  | flag value => exact (calm_primary (b := b) (p := p) hw hr).stringOf
  | ref qualifier name => exact (calm_primary (b := b) (p := p) hw hr).stringOf

theorem calm_expression {e : Expression} (hw : e.Worded) (hr : readsElement b p e = false) :
    (expression b p e).Calm d := by
  have hparts : ∀ x ∈ e.parts,
      (∀ r, x.reference? = some r → (∀ q, r.1 = some q → IsWord q) ∧ IsWord r.2) ∧
      primaryReads b p x = false := by
    intro x hx
    refine ⟨fun r h => hw r (List.mem_filterMap.2 ⟨x, hx, h⟩), ?_⟩
    have := List.any_eq_false.1 hr x hx
    simpa using this
  unfold expression
  split
  · obtain ⟨hx, hn⟩ := hparts e.first (List.mem_cons_self ..)
    exact calm_primary hx hn
  · refine (Expr.firm_sum fun f hf => ?_).calm
    obtain ⟨x, hx, rfl⟩ := List.mem_map.1 hf
    exact firm_primaryText (hparts x hx).1 (hparts x hx).2

/-! ## Tests of rows -/

theorem firm_rowColumn (column : String) : (rowColumn column).Firm d :=
  (Expr.calm_name (by decide)).index (Expr.firm_text column).calm

theorem calm_rowTest (c : DataCondition) {value : Expr} (h : ∀ d, value.Calm d) :
    (rowTest c value).Calm d := by
  have hcolumn : ∀ d, (rowColumn c.column).Firm d := fun d => firm_rowColumn c.column
  have hstring : ∀ d, (Expr.stringOf (rowColumn c.column)).Firm d := fun d =>
    (hcolumn (d + 1)).calm.stringOf
  unfold rowTest
  cases c.op with
  | equal | notEqual | greaterThan | lessThan | greaterEqual | lessEqual =>
    exact (hcolumn d).calm_binary (h d) fun _ => by decide
  | contains | startsWith | endsWith =>
    exact ((hstring d).calm.invoke (by decide) (h (d + 1 + 1)).stringOf.calm).calm
  | matches_ =>
    have hpattern : (Expr.new "RegExp" [value]).Firm d := (h (d + 1)).new (by decide)
    exact (hpattern.calm.invoke (by decide) (hstring (d + 1)).calm).calm
  | isEmpty | isNotEmpty =>
    have hnull : ∀ op, (Expr.binary op (rowColumn c.column) .null).Firm (d + 1) := fun op =>
      (hcolumn (d + 1)).binary Expr.firm_null fun h => by cases h
    have hempty : ∀ op, (Expr.binary op (.stringOf (rowColumn c.column)) (.text "")).Firm (d + 1) :=
      fun op => (hstring (d + 1)).binary (Expr.firm_text "") fun h => by cases h
    exact ((hnull _).binary (hempty _) fun h => by cases h).calm.paren.calm

/-! ## Constants ahead of queries -/

variable (b p)

/-- Whether the value of a condition reads an element. -/
def conditionReads (c : DataCondition) : Bool :=
  c.value.any (readsElement b p)

/-- Conditions with the numbers of their constants, where they need one; `reads` are taken. -/
def numbered : (reads : Nat) → List DataCondition → List (DataCondition × Option Nat)
  | _, [] => []
  | reads, c :: rest =>
    if conditionReads b p c then (c, some (reads + 1)) :: numbered (reads + 1) rest
    else (c, none) :: numbered reads rest

/-- What a condition compares with: its constant, or its value. -/
def comparand : DataCondition × Option Nat → Expr
  | (_, some n) => .name (readName n)
  | (c, none) => c.value.elim (.name "") (expression b p)

def testOf (x : DataCondition × Option Nat) : Expr :=
  rowTest x.1 (comparand b p x)

/-- The statement that gives its constant to a condition. -/
def holding? (x : DataCondition × Option Nat) : Option Code.Statement :=
  x.2.bind fun n => x.1.value.map fun e => .const (readName n) (expression b p e)

def rowTests (w : WhereClause) : List Expr :=
  (numbered b p p.reads w.conditions).map (testOf b p)

variable {b p}

theorem numbered_cons (reads : Nat) (c : DataCondition) (cs : List DataCondition) :
    numbered b p reads (c :: cs) =
      (c, if conditionReads b p c then some (reads + 1) else none) ::
        numbered b p (if conditionReads b p c then reads + 1 else reads) cs := by
  rw [numbered]
  split <;> rfl

theorem filterMap_numbered (reads : Nat) (cs : List DataCondition) :
    (numbered b p reads cs).filterMap (·.2) =
      List.range' (reads + 1) (cs.filter (conditionReads b p)).length := by
  induction cs generalizing reads with
  | nil => rfl
  | cons c cs ih =>
    rw [numbered]
    split
    · next h => simp [ih, h, List.range'_succ]
    · next h => simp [ih, h]

theorem map_fst_numbered (reads : Nat) (cs : List DataCondition) :
    (numbered b p reads cs).map (·.1) = cs := by
  induction cs generalizing reads with
  | nil => rfl
  | cons c cs ih =>
    rw [numbered]
    split <;> simp [ih]

theorem mem_of_mem_numbered (h : x ∈ numbered b p reads cs) : x.1 ∈ cs := by
  rw [← map_fst_numbered (b := b) (p := p) reads cs]
  exact List.mem_map_of_mem h

/-- A condition has a constant exactly if its value reads an element. -/
theorem isSome_of_mem_numbered (h : x ∈ numbered b p reads cs) :
    x.2.isSome = conditionReads b p x.1 := by
  induction cs generalizing reads with
  | nil => cases h
  | cons c cs ih =>
    rw [numbered] at h
    split at h
    · next hc =>
      rcases List.mem_cons.1 h with rfl | h
      · exact hc.symm
      · exact ih h
    · next hc =>
      rcases List.mem_cons.1 h with rfl | h
      · simpa using hc
      · exact ih h

/-- What a condition compares with is passed over: the text of an element is never read there. -/
theorem calm_comparand (hx : x ∈ numbered b p reads cs) (hw : ∀ e, x.1.value = some e → e.Worded) :
    (comparand b p x).Calm d := by
  have hsome := isSome_of_mem_numbered hx
  obtain ⟨⟨column, op, value⟩, number⟩ := x
  cases number with
  | some n =>
    refine Expr.calm_name ?_
    rw [readName, String.toList_append, List.all_append, Bool.and_eq_true]
    refine ⟨by decide, List.all_eq_true.2 fun c hc => ?_⟩
    rw [show (toString n).toList = Nat.toDigits 10 n from String.toList_ofList] at hc
    exact Code.isPlain_of_isDigit (Nat.isDigit_of_mem_toDigits (by decide) (by decide) hc)
  | none =>
    cases value with
    | none => exact Expr.calm_name (by decide)
    | some e => exact calm_expression (hw e rfl) hsome.symm

theorem rowTests_eq_cons (b : Setting) (p : Progress) (w : WhereClause) :
    ∃ test more, rowTests b p w = test :: more ∧ more.length = w.rest.length := by
  have hlength : (rowTests b p w).length = w.conditions.length := by
    rw [rowTests, List.length_map, ← List.length_map (f := (·.1)), map_fst_numbered]
  rw [WhereClause.conditions, List.length_cons, List.length_map] at hlength
  obtain ⟨test, more, hmore⟩ := List.exists_cons_of_length_eq_add_one hlength
  exact ⟨test, more, hmore, by simpa [hmore] using hlength⟩

theorem calm_rowTests (hw : ∀ c ∈ w.conditions, ∀ e, c.value = some e → e.Worded) :
    ∀ t ∈ rowTests b p w, ∀ d, t.Calm d := by
  intro t ht d
  obtain ⟨x, hx, rfl⟩ := List.mem_map.1 ht
  exact calm_rowTest x.1 fun d => calm_comparand hx (hw x.1 (mem_of_mem_numbered hx))

theorem conditionCode_eq (reads : Nat) (c : DataCondition) :
    conditionCode b p reads c =
      let x := (c, if conditionReads b p c then some (reads + 1) else none)
      (testOf b p x, (holding? b p x).toList,
        if conditionReads b p c then reads + 1 else reads) := by
  obtain ⟨column, op, value⟩ := c
  unfold conditionCode
  cases value with
  | none => rfl
  | some e =>
    have hreads : conditionReads b p ⟨column, op, some e⟩ = readsElement b p e := rfl
    dsimp only
    rw [hreads]
    split <;> rfl

/-- Tests joined from left to right, each with the word in front of it. -/
def joinTests (first : Expr) (rest : List (LogicalOp × Expr)) : Expr :=
  rest.foldl (fun left x => .paren (.binary (logicalOperator x.1) left (.paren x.2))) first

theorem filterMap_holding_cons (x : DataCondition × Option Nat)
    (xs : List (DataCondition × Option Nat)) :
    (x :: xs).filterMap (holding? b p) =
      (holding? b p x).toList ++ xs.filterMap (holding? b p) := by
  cases hx : holding? b p x <;> simp [hx]

theorem length_filter_reads (reads : Nat) (c : DataCondition) (cs : List DataCondition) :
    (if conditionReads b p c then reads + 1 else reads) +
        (cs.filter (conditionReads b p)).length =
      reads + ((c :: cs).filter (conditionReads b p)).length := by
  split
  · next h => rw [List.filter_cons_of_pos h, List.length_cons]; omega
  · next h => rw [List.filter_cons_of_neg h]

theorem joinedCode_eq (left : Expr) (reads : Nat) (rest : List (LogicalOp × DataCondition)) :
    joinedCode b p left reads rest =
      let xs := numbered b p reads (rest.map (·.2))
      (joinTests left ((rest.map (·.1)).zip (xs.map (testOf b p))), xs.filterMap (holding? b p),
        reads + ((rest.map (·.2)).filter (conditionReads b p)).length) := by
  induction rest generalizing left reads with
  | nil => rfl
  | cons x rest ih =>
    obtain ⟨op, c⟩ := x
    simp only [joinedCode, conditionCode_eq, ih, List.map_cons, numbered_cons,
      filterMap_holding_cons, length_filter_reads, List.zip_cons_cons]
    rfl

/-- The code of a clause: its tests joined from left to right, the constants ahead of it in the
    order of its conditions, and the numbers that are taken behind it. -/
theorem whereCode_eq (w : WhereClause) :
    whereCode b p w =
      (joinTests (.paren ((rowTests b p w).headD .null))
          ((w.rest.map (·.1)).zip (rowTests b p w).tail),
        (numbered b p p.reads w.conditions).filterMap (holding? b p),
        p.reads + (w.conditions.filter (conditionReads b p)).length) := by
  simp only [whereCode, conditionCode_eq, joinedCode_eq, rowTests, WhereClause.conditions,
    numbered_cons, filterMap_holding_cons, length_filter_reads, List.map_cons, List.headD_cons,
    List.tail_cons]

/-! ## Queries -/

def memberChars (m : String × Expr) : List Char :=
  m.1.toList ++ ':' :: ' ' :: m.2.print.toList

theorem toList_printMembers (ms : List (String × Expr)) :
    (Expr.printMembers ms).map String.toList = ms.map memberChars := by
  induction ms with
  | nil => rfl
  | cons m ms ih =>
    have hm : (m.1 ++ ": " ++ m.2.print).toList = memberChars m := by
      simp [memberChars, String.toList_append]
    rw [Expr.printMembers, List.map_cons, List.map_cons, hm, ih]

/-- One of several texts that stand between commas. -/
theorem intercalate_split (sep : List Char) (xs : List (List Char)) (y : List Char)
    (zs : List (List Char)) :
    sep.intercalate (xs ++ y :: zs) = xs.flatMap (· ++ sep) ++ (y ++ zs.flatMap (sep ++ ·)) := by
  induction xs with
  | nil =>
    induction zs generalizing y with
    | nil => simp
    | cons z zs ih =>
      have := ih z
      simp only [List.nil_append, List.flatMap_nil] at this ⊢
      rw [List.intercalate_cons_cons, this]
      simp
  | cons x xs ih =>
    obtain ⟨x', rest, hrest⟩ := List.exists_cons_of_ne_nil (l := xs ++ y :: zs) (by simp)
    rw [List.cons_append, hrest, List.intercalate_cons_cons, ← hrest, ih]
    simp

/-- Where one member stands in the text of a query. -/
theorem print_queryCall (xs : List (String × Expr)) (m : String × Expr)
    (ys : List (String × Expr)) :
    (queryCall (xs ++ m :: ys)).print.toList =
      "await testData.query(\x7b ".toList ++ xs.flatMap (memberChars · ++ [',', ' ']) ++
        (memberChars m ++ (ys.flatMap ([',', ' '] ++ memberChars ·) ++ " \x7d)".toList)) := by
  show ("await " ++ ("testData" ++ "." ++ "query" ++ "(" ++ ", ".intercalate ["\x7b " ++
    ", ".intercalate (Expr.printMembers (xs ++ m :: ys)) ++ " \x7d"] ++ ")")).toList = _
  simp only [String.toList_append, String.toList_intercalate, List.map_cons, List.map_nil,
    List.intercalate_singleton, toList_printMembers, List.map_append, intercalate_split,
    List.flatMap_map]
  simp

/-- What a query asks for in front of its predicate. -/
def membersBefore (q : DataQuery) : List (String × Expr) :=
  [("table", .text q.source.table)] ++
  (q.source.column.map fun c => ("column", Expr.text c)).toList ++
  [("mode", .text (modeName q.mode))]

/-- What a query asks for behind its predicate. -/
def membersBehind (q : DataQuery) : List (String × Expr) :=
  (if q.orderBy.isEmpty then [] else [("orderBy", .array (q.orderBy.map orderCode))]) ++
  (q.limit.map fun n => ("limit", Expr.integer n)).toList ++
  (q.offset.map fun n => ("offset", Expr.integer n)).toList

theorem queryMembers_some (q : DataQuery) (predicate : Expr) :
    queryMembers q (some predicate) =
      membersBefore q ++ ("where", .arrow "$row" predicate) :: membersBehind q := by
  simp [queryMembers, membersBefore, membersBehind]

/-- The texts in front of a predicate are closed. -/
theorem quotingAfter_membersBefore (q : DataQuery) :
    Code.quotingAfter ((membersBefore q).flatMap (memberChars · ++ [',', ' '])) = .outside := by
  refine Code.quotingAfter_flatMap fun m hm => ?_
  have hm : m.1 ∈ ["table", "column", "mode"] ∧ ∃ s, m.2 = .text s := by
    simp only [membersBefore, List.mem_append, List.mem_singleton, Option.mem_toList,
      Option.map_eq_some_iff] at hm
    rcases hm with (rfl | ⟨c, -, rfl⟩) | rfl <;> exact ⟨by simp, _, rfl⟩
  obtain ⟨hname, s, hs⟩ := hm
  have hhead : Code.quotingAfter (m.1.toList ++ [':', ' ']) = .outside := by
    simp only [List.mem_cons, List.not_mem_nil, or_false] at hname
    rcases hname with hname | hname | hname <;> rw [hname] <;> decide
  have hsplit : memberChars m ++ [',', ' '] =
      (m.1.toList ++ [':', ' ']) ++ ((Expr.text s).print.toList ++ [',', ' ']) := by
    simp [memberChars, hs]
  rw [hsplit, Code.quotingAfter_append hhead, Code.quotingAfter_append (Expr.quotingAfter_text s)]
  rfl

/-- Where the predicate of a query stands: behind texts that are closed, and in front of a comma or
    of the end of the query. -/
theorem queryCode_of_where {q : DataQuery} (h : q.where_ = some w) :
    ∃ front back, (queryCode b p q).1.print.toList =
        front ++ ("where: ($row) => ".toList ++ ((whereCode b p w).1.print.toList ++ back)) ∧
      Code.quotingAfter front = .outside ∧
      ∃ rest, back = ',' :: rest ∨ back = ' ' :: '\x7d' :: rest := by
  have hcode : (queryCode b p q).1 = queryCall (queryMembers q (some (whereCode b p w).1)) := by
    rw [queryCode, h]
  have harrow : memberChars ("where", .arrow "$row" (whereCode b p w).1) =
      "where: ($row) => ".toList ++ (whereCode b p w).1.print.toList := by
    show "where".toList ++ ':' :: ' ' ::
      ("(" ++ "$row" ++ ") => " ++ (whereCode b p w).1.print).toList = _
    simp [String.toList_append]
  refine ⟨"await testData.query(\x7b ".toList ++
      (membersBefore q).flatMap (memberChars · ++ [',', ' ']),
    (membersBehind q).flatMap ([',', ' '] ++ memberChars ·) ++ " \x7d)".toList, ?_, ?_, ?_⟩
  · rw [hcode, queryMembers_some, print_queryCall, harrow]
    simp only [List.append_assoc]
  · rw [Code.quotingAfter_append (by decide)]
    exact quotingAfter_membersBefore q
  · cases membersBehind q with
    | nil => exact ⟨_, .inr rfl⟩
    | cons m ms => exact ⟨_, .inl rfl⟩

end

end Generate

end UiScenario
