import UiScenario.Proofs.CodeReads

/-!
How generated code binds names. A name that a script declares in an inner block, as the item of a
loop, or twice is declared at the top of its body and assigned in its place; any other is a constant
of the outermost block.
-/

namespace UiScenario.Generate

variable {x : String} {body : List Statement} {b : Setting} {p q : Progress}
  {code : List Code.Statement}

/-! ## Hoisting -/

mutual

theorem map_fst_declarations (inner : Bool) :
    ∀ s : Statement, (declarations inner s).map (·.1) = s.bound
  | .step _ s => by cases h : s.bound? <;> simp [declarations, Statement.bound, h]
  | .branch _ _ thenBody elseBody => by
    simp [declarations, Statement.bound, map_fst_declarationsIn true thenBody,
      map_fst_declarationsIn true elseBody]
  | .repeat_ _ _ body => by
    simp [declarations, Statement.bound, map_fst_declarationsIn true body]
  | .forEach _ item _ body => by
    simp [declarations, Statement.bound, map_fst_declarationsIn true body]

/-- The names that a body declares are those that it binds. -/
theorem map_fst_declarationsIn (inner : Bool) :
    ∀ body : List Statement, (declarationsIn inner body).map (·.1) = Statement.boundAll body
  | [] => rfl
  | s :: rest => by
    simp [declarationsIn, Statement.boundAll, map_fst_declarations inner s,
      map_fst_declarationsIn inner rest]

end

mutual

theorem forced_of_mem_declarations :
    ∀ s : Statement, ∀ d ∈ declarations true s, d.2 = true
  | .step _ s => by cases h : s.bound? <;> simp [declarations, h]
  | .branch _ _ thenBody elseBody => fun d hd => (List.mem_append.1 hd).elim
      (forced_of_mem_declarationsIn thenBody d) (forced_of_mem_declarationsIn elseBody d)
  | .repeat_ _ _ body => forced_of_mem_declarationsIn body
  | .forEach _ item _ body => fun d hd => (List.mem_cons.1 hd).elim
      (fun e => by rw [e]) (forced_of_mem_declarationsIn body d)

/-- All that an inner block declares has to be hoisted. -/
theorem forced_of_mem_declarationsIn :
    ∀ body : List Statement, ∀ d ∈ declarationsIn true body, d.2 = true
  | [] => nofun
  | s :: rest => fun d hd => (List.mem_append.1 hd).elim
      (forced_of_mem_declarations s d) (forced_of_mem_declarationsIn rest d)

end

theorem mem_declarationsIn_true (h : x ∈ Statement.boundAll body) :
    (x, true) ∈ declarationsIn true body := by
  rw [← map_fst_declarationsIn true body] at h
  obtain ⟨⟨y, forced⟩, hm, rfl⟩ := List.mem_map.1 h
  have : forced = true := forced_of_mem_declarationsIn body _ hm
  exact this ▸ hm

theorem mem_hoistFrom {seen hoisted : List String} {ds : List (String × Bool)} :
    x ∈ hoistFrom seen hoisted ds ↔ x ∈ hoisted ∨ (x, true) ∈ ds ∨
      x ∈ ds.map (·.1) ∧ x ∈ seen ∨ 2 ≤ (ds.map (·.1)).count x := by
  induction ds generalizing seen hoisted with
  | nil => simp [hoistFrom]
  | cons d rest ih =>
    obtain ⟨y, forced⟩ := d
    rw [hoistFrom, ih]
    by_cases hxy : x = y
    · subst hxy
      have hone : x ∈ rest.map (·.1) ↔ 1 ≤ (rest.map (·.1)).count x := List.one_le_count_iff.symm
      grind
    · grind

theorem nodup_hoistFrom {seen hoisted : List String} {ds : List (String × Bool)}
    (h : hoisted.Nodup) : (hoistFrom seen hoisted ds).Nodup := by
  induction ds generalizing seen hoisted with
  | nil => exact h
  | cons d rest ih =>
    obtain ⟨y, forced⟩ := d
    rw [hoistFrom]
    refine ih ?_
    split
    · next hy =>
      have hm : y ∉ hoisted := by
        simp only [Bool.and_eq_true, Bool.not_eq_true', List.contains_eq_mem,
          decide_eq_false_iff_not] at hy
        exact hy.2
      refine List.nodup_append.2 ⟨h, by simp, fun a ha c hc e => hm ?_⟩
      rwa [← List.mem_singleton.1 hc, ← e]
    · exact h

/-- The names at the top of a body: those whose place asks for it, those that are bound in front of
    the body, and those that are declared more than once. -/
theorem mem_hoistedNames {bound : List String} :
    x ∈ hoistedNames bound body ↔ (x, true) ∈ declarationsIn false body ∨
      x ∈ Statement.boundAll body ∧ x ∈ bound ∨ 2 ≤ (Statement.boundAll body).count x := by
  rw [hoistedNames, mem_hoistFrom, map_fst_declarationsIn]
  simp

theorem mem_boundAll_of_mem_hoistedNames {bound : List String} (h : x ∈ hoistedNames bound body) :
    x ∈ Statement.boundAll body := by
  rcases mem_hoistedNames.1 h with h | ⟨h, -⟩ | h
  · rw [← map_fst_declarationsIn false body]
    exact List.mem_map.2 ⟨_, h, rfl⟩
  · exact h
  · exact List.count_pos_iff.1 (by omega)

/-! ## Statements in their places -/

/-- What holds of the code of statements that declare the given names, at a depth: variables are
    declared nowhere in it, only hoisted names and the page are assigned, every other declared name
    has a constant wherever it is declared, all constants further inside are made up, and only
    visible constants are read. -/
structure Laid (hoisted declared : List String) (depth : Nat) (visits : List Code.Visit) :
    Prop where
  noVariable : ∀ v ∈ visits, v.statement.isVariable = false
  writes : ∀ v ∈ visits, ∀ x ∈ v.statement.writes, x = "page" ∨ x ∈ hoisted
  count : ∀ x, ¬MadeUp x → (visits.flatMap (·.statement.binds)).count x =
    if x ∈ hoisted then 0 else declared.count x
  depth : ∀ v ∈ visits, v.depth = depth ∨ ∀ x ∈ v.statement.binds, MadeUp x
  reads : ∀ v ∈ visits, ∀ x ∈ v.statement.reads, Held x → x ∈ v.visible

namespace Laid

variable {hoisted declared declared' visible : List String} {d : Nat}
  {visits visits' : List Code.Visit}

theorem nil : Laid hoisted [] d [] :=
  ⟨nofun, nofun, by simp, nofun, nofun⟩

theorem append (h : Laid hoisted declared d visits) (h' : Laid hoisted declared' d visits') :
    Laid hoisted (declared ++ declared') d (visits ++ visits') where
  noVariable v hv := (List.mem_append.1 hv).elim (h.noVariable v) (h'.noVariable v)
  writes v hv := (List.mem_append.1 hv).elim (h.writes v) (h'.writes v)
  count x hx := by
    rw [List.flatMap_append, List.count_append, h.count x hx, h'.count x hx, List.count_append]
    split <;> rfl
  depth v hv := (List.mem_append.1 hv).elim (h.depth v) (h'.depth v)
  reads v hv := (List.mem_append.1 hv).elim (h.reads v) (h'.reads v)

/-- A name that is bound is made up, or declared and not hoisted. -/
theorem binds (h : Laid hoisted declared d visits) {v : Code.Visit} (hv : v ∈ visits) {x : String}
    (hx : x ∈ v.statement.binds) : MadeUp x ∨ x ∈ declared ∧ x ∉ hoisted := by
  by_cases hm : MadeUp x
  · exact .inl hm
  right
  have hpos : 0 < (visits.flatMap (·.statement.binds)).count x :=
    List.count_pos_iff.2 (List.mem_flatMap.2 ⟨v, hv, hx⟩)
  rw [h.count x hm] at hpos
  split at hpos
  · omega
  · next hn => exact ⟨List.count_pos_iff.1 hpos, hn⟩

/-- An inner block, all of whose names are hoisted, seen from the block around it. -/
theorem inner (h : Laid hoisted declared (d + 1) visits) (hh : ∀ x ∈ declared, x ∈ hoisted) :
    Laid hoisted declared d visits where
  noVariable := h.noVariable
  writes := h.writes
  count := h.count
  depth _ hv := .inr fun x hx => (h.binds hv hx).resolve_right fun hd => hd.2 (hh x hd.1)
  reads := h.reads

/-- A hoisted name may be declared once more. -/
theorem cons (h : Laid hoisted declared d visits) (hx : x ∈ hoisted) :
    Laid hoisted (x :: declared) d visits where
  noVariable := h.noVariable
  writes := h.writes
  count y hy := by
    rw [h.count y hy]
    split
    · rfl
    · next hn => rw [List.count_cons_of_ne (by rintro rfl; exact hn hx)]
  depth := h.depth
  reads := h.reads

theorem single {s : Code.Statement} (hl : s.isVariable = false)
    (hw : ∀ x ∈ s.writes, x = "page" ∨ x ∈ hoisted)
    (hc : ∀ x, ¬MadeUp x → s.binds.count x = if x ∈ hoisted then 0 else declared.count x)
    (hr : ∀ x ∈ s.reads, Held x → x ∈ visible) :
    Laid hoisted declared d [⟨d, visible, s⟩] where
  noVariable v hv := by rw [List.mem_singleton.1 hv]; exact hl
  writes v hv := by rw [List.mem_singleton.1 hv]; exact hw
  count x hx := by simpa using hc x hx
  depth v hv := by rw [List.mem_singleton.1 hv]; exact .inl rfl
  reads v hv := by rw [List.mem_singleton.1 hv]; exact hr

/-- Statements that are evaluated, assign the page or declare a constant for a frame or a text. -/
theorem plain
    (h : ∀ c ∈ code, ∃ e, (c = .eval e ∨ c = .assign "page" e ∨ ∃ n, Held n ∧ c = .const n e) ∧
      Sees visible e) : Laid hoisted [] d (Code.visitAll d visible code) := by
  induction code generalizing visible with
  | nil => exact nil
  | cons c rest ih =>
    obtain ⟨e, hc, he⟩ := h c (List.mem_cons_self ..)
    have hrest : Laid hoisted [] d (Code.visitAll d (visible ++ c.declares) rest) :=
      ih fun c' hc' => by
        obtain ⟨e', hk, he'⟩ := h c' (List.mem_cons_of_mem _ hc')
        exact ⟨e', hk, he'.mono (List.subset_append_left ..)⟩
    have hone : Laid hoisted [] d [⟨d, visible, c⟩] := by
      rcases hc with rfl | rfl | ⟨n, hn, rfl⟩
      · refine single rfl nofun (fun x _ => ?_) he
        show List.count x [] = _
        simp
      · refine single rfl (fun x hx => .inl (List.mem_singleton.1 hx)) (fun x _ => ?_) he
        show List.count x [] = _
        simp
      · refine single rfl nofun (fun x hx => ?_) he
        have : n ≠ x := by rintro rfl; exact hx (.inr hn)
        show List.count x [n] = _
        simp [this]
    have hi : Code.inside d visible c = [] := by
      rcases hc with rfl | rfl | ⟨n, hn, rfl⟩ <;> rfl
    rw [Code.visitAll, hi, List.nil_append]
    exact hone.append hrest

end Laid

section
variable {hoisted visible : List String} {d : Nat}

theorem laid_ahead {ahead : List Code.Statement} (h : IsAhead visible ahead) :
    Laid hoisted [] d (Code.visitAll d visible ahead) :=
  .plain fun c hc =>
    have ⟨n, e, hk, he⟩ := h c hc
    ⟨e, .inr (.inr ⟨readName n, ⟨n, .inr rfl⟩, hk⟩), he⟩

theorem laid_declaration {e : Code.Expr} (he : Sees visible e) :
    Laid hoisted [x] d (Code.visitAll d visible
      [if hoisted.contains x then .assign x e else .const x e]) := by
  split
  · next hx =>
    have hx : x ∈ hoisted := by simpa using hx
    refine .single rfl (fun y hy => .inr (List.mem_singleton.1 hy ▸ hx)) (fun y _ => ?_) he
    show List.count y [] = _
    split
    · rfl
    · next hn =>
      have : x ≠ y := by rintro rfl; exact hn hx
      simp [this]
  · next hx =>
    have hx : x ∉ hoisted := by simpa using hx
    refine .single rfl nofun (fun y _ => ?_) he
    show List.count y [x] = _
    split
    · next hn =>
      have : x ≠ y := by rintro rfl; exact hx hn
      simp [this]
    · rfl

theorem laid_stepCode {root root' : String} {x : Option String} (hr : Held root → root ∈ visible)
    (h : StepCode hoisted visible root x code root') :
    Laid hoisted x.toList d (Code.visitAll d visible code) ∧
    (Held root' → root' ∈ behind visible code) := by
  cases h with
  | plain hroot hc =>
    refine ⟨.plain fun c hm => ?_, ?_⟩
    · obtain ⟨e, rfl | rfl, he⟩ := hc c hm
      · exact ⟨e, .inl rfl, he⟩
      · exact ⟨e, .inr (.inl rfl), he⟩
    · rcases hroot with rfl | rfl
      · exact fun hh => List.mem_append_left _ (hr hh)
      · simp
  | @frame n e he =>
    refine ⟨.plain fun c hm => ?_, fun _ => ?_⟩
    · exact ⟨e, .inr (.inr ⟨frameName n, ⟨n, .inl rfl⟩, List.mem_singleton.1 hm⟩), he⟩
    · exact List.mem_append_right _ (List.mem_singleton.2 rfl)
  | declaration ha he =>
    rw [Code.visitAll_append]
    exact ⟨(laid_ahead ha).append (laid_declaration he), fun hh => List.mem_append_left _ (hr hh)⟩

end

/-- No name that a statement mentions or binds is that of a constant. -/
abbrev UnheldIn (s : Statement) : Prop :=
  s.Spelled (¬Held ·) (¬Held ·)

theorem not_held_of_mem_boundAll (h : ∀ t ∈ Statement.flattenAll body, UnheldIn t) {n : String}
    (hn : n ∈ Statement.boundAll body) : ¬Held n := by
  rw [Statement.boundAll_eq] at hn
  obtain ⟨t, ht, hb⟩ := List.mem_filterMap.1 hn
  exact (h t ht).binds n hb

/-- Statements bring no names of constants into scope. -/
theorem Lays.scope_held {depth : Nat} {visible : List String} (h : Lays b depth body p code q)
    (hu : ∀ t ∈ Statement.flattenAll body, UnheldIn t) (hs : ∀ n ∈ p.scope, Held n → n ∈ visible) :
    ∀ n ∈ q.scope, Held n → n ∈ visible := by
  intro n hn hh
  rcases (h.mem_scope n).1 hn with hn | hn
  · exact hs n hn hh
  · exact absurd hh (not_held_of_mem_boundAll hu hn)

/-- A statement around blocks, in front of them. -/
theorem Laid.head {hoisted declared : List String} {d : Nat} (visible : List String)
    (s : Code.Statement) {visits : List Code.Visit} (hl : s.isVariable = false)
    (hw : ∀ x ∈ s.writes, x ∈ hoisted) (hb : ∀ x ∈ s.binds, MadeUp x)
    (hr : ∀ x ∈ s.reads, Held x → x ∈ visible)
    (h : Laid hoisted declared (d + 1) visits) (hh : ∀ x ∈ declared, x ∈ hoisted) :
    Laid hoisted declared d (⟨d, visible, s⟩ :: visits) := by
  have hone : Laid hoisted [] d [⟨d, visible, s⟩] := by
    refine .single hl (fun x hx => .inr (hw x hx)) (fun x hx => ?_) hr
    rw [List.count_eq_zero_of_not_mem fun hm => hx (hb x hm)]
    simp
  exact hone.append (h.inner hh)

/-- The code of statements, in its place, with the constants that are visible behind it. -/
theorem Lays.laid (ho : ∀ n ∈ b.defaultPage.toList ++ b.uses, ¬Held n) {inner : Bool}
    {depth d : Nat} {visible : List String} (h : Lays b depth body p code q)
    (hf : ∀ x, (x, true) ∈ declarationsIn inner body → x ∈ b.hoisted)
    (hu : ∀ t ∈ Statement.flattenAll body, UnheldIn t) (hr : Held p.root → p.root ∈ visible)
    (hs : ∀ n ∈ p.scope, Held n → n ∈ visible) :
    Laid b.hoisted (Statement.boundAll body) d (Code.visitAll d visible code) ∧
      (Held q.root → q.root ∈ behind visible code) := by
  induction h generalizing inner d visible with
  | nil => exact ⟨.nil, fun hh => List.mem_append_left _ (hr hh)⟩
  | cons h _ ih ihrest =>
    simp only [declarationsIn, Statement.flattenAll, Statement.boundAll, List.append_nil,
      List.forall_mem_append] at hf hu ih ⊢
    have hscope := h.scope_held (by simpa [Statement.flattenAll] using hu.1) hs
    obtain ⟨hl, hroot⟩ := ih (d := d) (fun x hx => hf x (List.mem_append_left _ hx)) hu.1 hr hs
    obtain ⟨hlrest, hrest⟩ := ihrest (d := d) (fun x hx => hf x (List.mem_append_right _ hx)) hu.2
      hroot fun n hn hh => List.mem_append_left _ (hscope n hn hh)
    rw [Code.visitAll_append, behind_append]
    exact ⟨hl.append hlrest, hrest⟩
  | @step _ line s _ _ _ h =>
    have hn := (hu (.step line s) List.mem_cons_self).names
    simpa [Statement.boundAll, Statement.bound] using laid_stepCode hr (step_code hr hs ho hn h)
  | @branch _ line c body p _ test code hc _ ih =>
    simp only [declarationsIn, declarations, Statement.flattenAll, Statement.flatten,
      List.append_nil, List.forall_mem_cons] at hf hu
    refine ⟨?_, fun hh => List.mem_append_left _ (hr hh)⟩
    have := Laid.head visible (.branch test code) rfl nofun nofun
      (sees_condition hr ho hs hu.1.names hc) (ih (d := d + 1) hf hu.2 hr hs).1 fun x hx =>
        hf x (mem_declarationsIn_true hx)
    simpa [Code.visitAll, Code.inside, Statement.boundAll, Statement.bound] using this
  | @choice _ line c thenBody elseBody p r _ test thenCode elseCode hc hthen _ ih ihelse =>
    simp only [declarationsIn, declarations, Statement.flattenAll, Statement.flatten,
      List.append_nil, List.forall_mem_cons, List.forall_mem_append] at hf hu
    have hft : ∀ x, (x, true) ∈ declarationsIn true thenBody → x ∈ b.hoisted := fun x hx =>
      hf x (List.mem_append_left _ hx)
    have hfe : ∀ x, (x, true) ∈ declarationsIn true elseBody → x ∈ b.hoisted := fun x hx =>
      hf x (List.mem_append_right _ hx)
    refine ⟨?_, fun hh => List.mem_append_left _ (hr hh)⟩
    have hlthen := (ih (d := d + 1) hft hu.2.1 hr hs).1
    have hlelse := (ihelse (d := d + 1) hfe hu.2.2 hr (hthen.scope_held hu.2.1 hs)).1
    have := Laid.head visible (.choice test thenCode elseCode) rfl nofun nofun
      (sees_condition hr ho hs hu.1.names hc) (hlthen.append hlelse) fun x hx =>
        (List.mem_append.1 hx).elim (fun hx => hft x (mem_declarationsIn_true hx))
          fun hx => hfe x (mem_declarationsIn_true hx)
    simpa [Code.visitAll, Code.inside, Statement.boundAll, Statement.bound] using this
  | @repeat_ depth line times body p _ code _ ih =>
    simp only [declarationsIn, declarations, Statement.flattenAll, Statement.flatten,
      List.append_nil, List.forall_mem_cons] at hf hu
    refine ⟨?_, fun hh => List.mem_append_left _ (hr hh)⟩
    have hbody : Laid b.hoisted (Statement.boundAll body) (d + 1)
        (Code.visitAll (d + 1) (visible ++ [counterName depth]) code) :=
      (ih hf hu.2 (fun hh => List.mem_append_left _ (hr hh))
        fun n hm hh => List.mem_append_left _ (hs n hm hh)).1
    have htimes := sees_expression hr ho hu.1.names
    have := Laid.head visible (.count (counterName depth) (expression b p times) code) rfl nofun
      (fun x hx => .inl ⟨depth, List.mem_singleton.1 hx⟩)
      (fun x hx hh => (List.mem_cons.1 hx).elim
        (fun e => absurd (e ▸ hh) (not_held_counterName depth)) fun hx => htimes x hx hh)
      hbody fun x hx => hf x (mem_declarationsIn_true hx)
    simpa [Code.visitAll, Code.inside, Statement.boundAll, Statement.bound] using this
  | @forEach _ line item collection body p _ code _ ih =>
    simp only [declarationsIn, declarations, Statement.flattenAll, Statement.flatten,
      List.append_nil, List.forall_mem_cons] at hf hu
    have hitem : item ∈ b.hoisted := hf item List.mem_cons_self
    have hfb : ∀ x, (x, true) ∈ declarationsIn true body → x ∈ b.hoisted := fun x hx =>
      hf x (List.mem_cons_of_mem _ hx)
    refine ⟨?_, fun hh => List.mem_append_left _ (hr hh)⟩
    have hsb : ∀ n ∈ (p.bind item).scope, Held n → n ∈ visible := fun n hm hh =>
      (mem_scope_bind.1 hm).elim (fun hm => hs n hm hh)
        fun e => absurd (e ▸ hh) (hu.1.binds item rfl)
    have hbody := (ih (d := d + 1) hfb hu.2 (by rwa [root_bind]) hsb).1
    have := Laid.head visible (.forOf item collection code) rfl
      (fun x hx => List.mem_singleton.1 hx ▸ hitem) nofun
      (fun x hx hh => absurd hh (List.mem_singleton.1 hx ▸ hu.1.names collection (by
        simp [Statement.names]))) hbody fun x hx => hfb x (mem_declarationsIn_true hx)
    simpa [Code.visitAll, Code.inside, Statement.boundAll, Statement.bound] using this.cons hitem

end UiScenario.Generate
