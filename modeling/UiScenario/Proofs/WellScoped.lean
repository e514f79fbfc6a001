import UiScenario.Proofs.Binding

/-!
The bodies of generated functions are well scoped: every name that a script declares is bound once,
in the outermost block, what is assigned is a variable, and constants that hold frames and texts are
read only where they are visible.
-/

namespace UiScenario

open Generate

variable {x : String} {v : Code.Visit}

/-! ## Bodies -/

/-- One line that declares names, if there are any. -/
def declareLine (names : List String) : List Code.Statement :=
  if names.isEmpty then [] else [.declare names]

/-- The body of a generated function, with the statements that it is generated from. -/
structure Emission where
  /-- The pages whose fields are meant by names alone. -/
  owners : List String
  statements : List Statement
  /-- The names that are bound in front of the statements. -/
  initial : List String
  /-- What every function of its kind is given: a page or a browser. -/
  given : List String
  /-- The parameters of the function itself. -/
  parameters : List String
  code : List Code.Statement

namespace Emission

/-- The statements of the body in reading order, at any depth. -/
def visits (e : Emission) : List Code.Visit :=
  Code.visitAll 0 (e.given ++ e.parameters) e.code

/-- The names that the script declares in the body. -/
def declared (e : Emission) : List String :=
  Statement.boundAll e.statements

/-- The names that come from the script or from parameters. -/
def userNames (e : Emission) : List String :=
  e.owners ++ e.initial ++
    (Statement.flattenAll e.statements).flatMap fun s => s.names ++ s.binds?.toList

/-- All places where the function binds names, by name, without what it is given. -/
def bindings (e : Emission) : List String :=
  e.parameters ++ e.visits.flatMap (·.statement.binds)

/-- The names that are declared at the top of the body or assigned to. -/
def hoisted (e : Emission) : List String :=
  hoistedNames e.initial e.statements

/-- The names that are declared in one line at the top of the body. -/
def fresh (e : Emission) : List String :=
  e.hoisted.filter (!e.initial.contains ·)

/-- The declarations in front of the code of the statements, after those of `init`. -/
def top (e : Emission) (init : List Code.Statement) : List Code.Statement :=
  init ++ declareLine e.fresh

end Emission

/-- The bodies that are generated for a program among the definitions of a project. -/
inductive Emitted (all : Project) (p : Program) : Emission → Prop
  | pageAction {page : Page} {a : Action} {m : Code.Method} (hp : page ∈ p.pages)
      (ha : a ∈ page.actions) (hm : method all (some page.name) a = .ok m) :
      Emitted all p ⟨[page.name], a.body, a.parameters, ["page"], m.parameters, m.body⟩
  | libraryAction {l : Library} {a : Action} {m : Code.Method} (hl : l ∈ p.libraries)
      (ha : a ∈ l.actions) (hm : method all l.forPage a = .ok m) :
      Emitted all p ⟨l.forPage.toList, a.body, a.parameters, ["page"], m.parameters, m.body⟩
  | hook {f : Feature} {h : Hook} {k : Code.Hook} (hf : f ∈ p.features) (hh : h ∈ f.hooks)
      (hk : Generate.hook all (f.uses.map (·.name)) h = .ok k) :
      Emitted all p ⟨f.uses.map (·.name), h.body, [], [k.event.argument], [], k.body⟩
  | test {f : Feature} {s : Scenario} {values : List (String × ParamValue)}
      {code : List Code.Statement} (hf : f ∈ p.features) (hs : s ∈ f.scenarios)
      (hc : testBody all (f.uses.map (·.name)) s values = .ok code) :
      Emitted all p ⟨f.uses.map (·.name), s.body, values.map (·.1), ["page"], [], code⟩

/-- A name of the form that generated code uses for counters or frames. -/
def Reserved (n : String) : Prop :=
  (∃ k, n = counterName k) ∨ ∃ k, n = frameName k

/-- A body is well scoped. -/
structure WellScoped (e : Emission) : Prop where
  /-- Every declared name is bound once, apart from what the function is given. -/
  once : ∀ x ∈ e.declared, e.bindings.count x = 1
  /-- Variables are declared at the top only, and those without a value in one line. -/
  leading : ∃ init line rest, e.code = init ++ line ++ rest ∧
    (∀ c ∈ init, c.isInitialized = true) ∧ (line = [] ∨ ∃ names, line = [.declare names]) ∧
    ∀ v ∈ Code.visitAll 0 (behind (e.given ++ e.parameters) (init ++ line)) rest,
      v.statement.isVariable = false
  /-- What is assigned is a parameter or a variable, and it is a constant only if it is the page and
      bound in front of the statements. -/
  assigned : ∀ v ∈ e.visits, ∀ x ∈ v.statement.writes,
    (x ∈ e.given ++ e.parameters ∨ ∃ w ∈ e.visits, x ∈ w.statement.lets) ∧
    ((∃ w ∈ e.visits, x ∈ w.statement.consts) ↔ x = "page" ∧ x ∈ e.initial)
  /-- A constant for a name of the script or of a parameter is in the outermost block. -/
  outermost : ∀ v ∈ e.visits, ∀ x ∈ v.statement.consts, x ∈ e.initial ++ e.declared →
    v.depth = 0 ∨ x ∈ e.initial ∧ ∃ n, x = readName n
  /-- A name of the script or of a parameter is visible wherever it is assigned, and behind every
      statement that declares or assigns it, at any depth. -/
  inScope : ∀ front v behind, e.visits = front ++ v :: behind → ∀ x ∈ e.initial ++ e.declared,
    (x ∈ v.statement.writes ∨ ∃ w ∈ front, x ∈ w.statement.declares ++ w.statement.writes) →
    x ∈ v.visible
  /-- A constant that holds a frame or a text is visible wherever it is read. -/
  constants : ∀ v ∈ e.visits, ∀ x ∈ v.statement.reads, Held x → x ∈ v.visible

/-! ## Bodies in two parts -/

/-- How a body opens: the names that are bound in front of its statements are parameters of the
    function, or declared with their values, as variables if they are hoisted; and the page is given
    or a variable. -/
structure Opening (e : Emission) (init : List Code.Statement) : Prop where
  initialized : ∀ c ∈ init, c.isInitialized = true ∧ ∀ x ∈ c.reads, ¬Held x
  count : ∀ x ≠ "page",
    (e.parameters ++ init.flatMap Code.Statement.declares).count x = e.initial.count x
  bound : e.initial ⊆ e.parameters ++ init.flatMap Code.Statement.declares
  consts : ∀ x ∈ init.flatMap Code.Statement.consts, x ∈ e.initial ∧ x ∉ e.hoisted
  lets : ∀ x ∈ e.initial, x ∈ e.hoisted → x ∈ e.parameters ++ init.flatMap Code.Statement.lets
  page : "page" ∈ e.given ++ init.flatMap Code.Statement.lets
  pageConst : "page" ∈ e.initial → "page" ∈ init.flatMap Code.Statement.consts

/-- A body that opens so, goes on with one line for the other hoisted names, and then has the code
    of its statements. -/
structure Assembled (e : Emission) (init rest : List Code.Statement) : Prop
    extends Opening e init where
  code : e.code = e.top init ++ rest
  distinct : e.initial.Nodup
  unreserved : ∀ x ∈ e.initial, ¬Reserved x
  declared : ∀ x ∈ e.declared, ¬MadeUp x ∧ x ≠ "page"
  laid : Laid e.hoisted e.declared 0
    (Code.visitAll 0 (behind (e.given ++ e.parameters) (e.top init)) rest)

namespace Emission

variable {e : Emission}

theorem mem_fresh : x ∈ e.fresh ↔ x ∈ e.hoisted ∧ x ∉ e.initial := by
  simp [fresh]

theorem nodup_fresh (e : Emission) : e.fresh.Nodup :=
  (nodup_hoistFrom List.nodup_nil).filter _

theorem mem_declared_of_mem_hoisted (h : x ∈ e.hoisted) : x ∈ e.declared :=
  mem_boundAll_of_mem_hoistedNames h

/-- A declared name that is not hoisted is not bound in front, and declared once. -/
theorem of_not_mem_hoisted (hd : x ∈ e.declared) (hn : x ∉ e.hoisted) :
    x ∉ e.initial ∧ e.declared.count x = 1 := by
  have hn' := mt mem_hoistedNames.2 hn
  have hpos : 0 < e.declared.count x := List.count_pos_iff.2 hd
  refine ⟨fun hi => hn' (.inr (.inl ⟨hd, hi⟩)), ?_⟩
  have : ¬2 ≤ e.declared.count x := fun h => hn' (.inr (.inr h))
  omega

end Emission

theorem Opening.initial_visible {e : Emission} {init : List Code.Statement} (h : Opening e init)
    (hx : x ∈ e.initial) : x ∈ behind (e.given ++ e.parameters) (e.top init) := by
  simp only [behind, Emission.top, List.flatMap_append, List.mem_append]
  rcases List.mem_append.1 (h.bound hx) with hp | hp
  · exact .inl (.inr hp)
  · exact .inr (.inl hp)

theorem Opening.page_visible {e : Emission} {init : List Code.Statement} (h : Opening e init) :
    "page" ∈ behind (e.given ++ e.parameters) (e.top init) := by
  simp only [behind, Emission.top, List.flatMap_append, List.mem_append]
  rcases List.mem_append.1 h.page with hp | hp
  · exact .inl (.inl hp)
  · obtain ⟨c, hc, hx⟩ := List.mem_flatMap.1 hp
    exact .inr (.inl (List.mem_flatMap.2 ⟨c, hc, List.mem_append_left _ hx⟩))

theorem eq_of_mem_declareLine {names : List String} {c : Code.Statement}
    (h : c ∈ declareLine names) : c = .declare names := by
  unfold declareLine at h
  split at h
  · cases h
  · exact List.mem_singleton.1 h

theorem declares_declareLine (names : List String) :
    (declareLine names).flatMap Code.Statement.declares = names := by
  unfold declareLine
  split
  · next he => rw [List.isEmpty_iff.1 he]; rfl
  · simp [Code.Statement.declares, Code.Statement.lets, Code.Statement.consts]

namespace Assembled

variable {e : Emission} {init rest : List Code.Statement} (h : Assembled e init rest)
  {front behind_ : List Code.Visit}
include h

theorem isDeclaration_top : ∀ c ∈ e.top init, c.isDeclaration = true := by
  intro c hc
  rcases List.mem_append.1 hc with hc | hc
  · have := (h.initialized c hc).1
    cases c <;> first | rfl | cases this
  · rw [eq_of_mem_declareLine hc]; rfl

theorem visits_eq : e.visits = Code.visitAll 0 (e.given ++ e.parameters) (e.top init) ++
    Code.visitAll 0 (behind (e.given ++ e.parameters) (e.top init)) rest := by
  rw [Emission.visits, h.code, Code.visitAll_append]

theorem of_mem_top (hv : v ∈ Code.visitAll 0 (e.given ++ e.parameters) (e.top init)) :
    v.depth = 0 ∧ v.statement ∈ e.top init ∧ v.statement.writes = [] := by
  obtain ⟨hd, hm⟩ := (Code.visitAll_declarations h.isDeclaration_top).1 v hv
  refine ⟨hd, hm, ?_⟩
  have := h.isDeclaration_top _ hm
  cases hs : v.statement <;> first | rfl | (rw [hs] at this; cases this)

/-- What is visible in all of the code of the statements. -/
theorem visible {x : String} (hx : x = "page" ∨ x ∈ e.hoisted ∨ x ∈ e.initial) :
    x ∈ behind (e.given ++ e.parameters) (e.top init) := by
  rcases hx with rfl | hx | hx
  · exact h.toOpening.page_visible
  · by_cases hm : x ∈ e.initial
    · exact h.toOpening.initial_visible hm
    · have : x ∈ (declareLine e.fresh).flatMap Code.Statement.declares := by
        rw [declares_declareLine]; exact Emission.mem_fresh.2 ⟨hx, hm⟩
      simp only [behind, Emission.top, List.flatMap_append, List.mem_append]
      exact .inr (.inr this)
  · exact h.toOpening.initial_visible hx

theorem once {x : String} (hx : x ∈ e.declared) : e.bindings.count x = 1 := by
  have htop : (e.top init).flatMap Code.Statement.declares =
      init.flatMap Code.Statement.declares ++ e.fresh := by
    rw [Emission.top, List.flatMap_append, declares_declareLine]
  have hcount : e.bindings.count x =
      e.initial.count x + e.fresh.count x + if x ∈ e.hoisted then 0 else e.declared.count x := by
    rw [Emission.bindings, h.visits_eq, List.flatMap_append,
      (Code.visitAll_declarations h.isDeclaration_top).2, htop, ← List.append_assoc,
      ← List.append_assoc, List.count_append, List.count_append, h.count x (h.declared x hx).2,
      h.laid.count x (h.declared x hx).1]
  rw [hcount]
  by_cases hh : x ∈ e.hoisted
  · rw [if_pos hh]
    by_cases hi : x ∈ e.initial
    · have hf : x ∉ e.fresh := fun hf => (Emission.mem_fresh.1 hf).2 hi
      rw [h.distinct.count, if_pos hi, List.count_eq_zero_of_not_mem hf]
    · have hf : x ∈ e.fresh := Emission.mem_fresh.2 ⟨hh, hi⟩
      rw [e.nodup_fresh.count, if_pos hf, List.count_eq_zero_of_not_mem hi]
  · obtain ⟨hi, hone⟩ := Emission.of_not_mem_hoisted hx hh
    have hf : x ∉ e.fresh := fun hf => hh (Emission.mem_fresh.1 hf).1
    rw [if_neg hh, hone, List.count_eq_zero_of_not_mem hi, List.count_eq_zero_of_not_mem hf]

theorem leading : ∃ init line rest, e.code = init ++ line ++ rest ∧
    (∀ c ∈ init, c.isInitialized = true) ∧ (line = [] ∨ ∃ names, line = [.declare names]) ∧
    ∀ v ∈ Code.visitAll 0 (behind (e.given ++ e.parameters) (init ++ line)) rest,
      v.statement.isVariable = false := by
  refine ⟨init, declareLine e.fresh, rest, h.code, fun c hc => (h.initialized c hc).1, ?_,
    h.laid.noVariable⟩
  unfold declareLine
  split
  · exact .inl rfl
  · exact .inr ⟨_, rfl⟩

theorem mem_rest {w : Code.Visit} (hv : e.visits = front ++ v :: behind_) (hw : w ∈ front)
    (hn : w ∉ Code.visitAll 0 (e.given ++ e.parameters) (e.top init)) :
    v ∈ Code.visitAll 0 (behind (e.given ++ e.parameters) (e.top init)) rest := by
  rw [h.visits_eq] at hv
  rcases List.append_eq_append_iff.1 hv with ⟨more, rfl, hr⟩ | ⟨more, ht, -⟩
  · rw [hr]; simp
  · exact absurd (ht ▸ List.mem_append_left _ hw) hn

/-- What the body assigns. -/
theorem writes {v : Code.Visit} (hv : v ∈ e.visits) {x : String} (hx : x ∈ v.statement.writes) :
    v ∈ Code.visitAll 0 (behind (e.given ++ e.parameters) (e.top init)) rest ∧
    (x = "page" ∨ x ∈ e.hoisted) := by
  rw [h.visits_eq, List.mem_append] at hv
  rcases hv with hv | hv
  · rw [(h.of_mem_top hv).2.2] at hx; cases hx
  · exact ⟨hv, h.laid.writes v hv x hx⟩

/-- What the body declares to be constant. -/
theorem const_cases (hv : v ∈ e.visits) (hx : x ∈ v.statement.consts) :
    v.depth = 0 ∧ x ∈ e.initial ∧ x ∉ e.hoisted ∨ v.depth = 0 ∧ x ∈ e.declared ∧ x ∉ e.hoisted ∨
      MadeUp x := by
  rw [h.visits_eq, List.mem_append] at hv
  rcases hv with hv | hv
  · obtain ⟨hd, hm, -⟩ := h.of_mem_top hv
    rcases List.mem_append.1 hm with hm | hm
    · exact .inl ⟨hd, h.consts x (List.mem_flatMap.2 ⟨_, hm, hx⟩)⟩
    · rw [eq_of_mem_declareLine hm] at hx; cases hx
  · have hb : x ∈ v.statement.binds := by simp [Code.Statement.binds, Code.Statement.declares, hx]
    rcases h.laid.depth v hv with hd | hd
    · rcases h.laid.binds hv hb with hm | hm
      · exact .inr (.inr hm)
      · exact .inr (.inl ⟨hd, hm⟩)
    · exact .inr (.inr (hd x hb))

theorem assigned {v : Code.Visit} (hv : v ∈ e.visits) {x : String}
    (hx : x ∈ v.statement.writes) :
    (x ∈ e.given ++ e.parameters ∨ ∃ w ∈ e.visits, x ∈ w.statement.lets) ∧
    ((∃ w ∈ e.visits, x ∈ w.statement.consts) ↔ x = "page" ∧ x ∈ e.initial) := by
  have htop : ∀ c ∈ e.top init, ∃ w ∈ e.visits, w.statement = c := by
    intro c hc
    refine Code.exists_visit ?_
    rw [h.code]
    exact List.mem_append_left _ hc
  have hlets : x ∈ init.flatMap Code.Statement.lets → ∃ w ∈ e.visits, x ∈ w.statement.lets := by
    intro hm
    obtain ⟨c, hc, hxc⟩ := List.mem_flatMap.1 hm
    obtain ⟨w, hw, rfl⟩ := htop c (List.mem_append_left _ hc)
    exact ⟨w, hw, hxc⟩
  have hw := (h.writes hv hx).2
  refine ⟨?_, ?_, ?_⟩
  · rcases hw with rfl | hw
    · rcases List.mem_append.1 h.page with hp | hp
      · exact .inl (List.mem_append_left _ hp)
      · exact .inr (hlets hp)
    by_cases hi : x ∈ e.initial
    · rcases List.mem_append.1 (h.lets x hi hw) with hp | hp
      · exact .inl (List.mem_append_right _ hp)
      · exact .inr (hlets hp)
    · have hf : x ∈ e.fresh := Emission.mem_fresh.2 ⟨hw, hi⟩
      have hne : ¬e.fresh.isEmpty = true := by simpa using List.ne_nil_of_mem hf
      obtain ⟨w, hwv, hws⟩ := htop (.declare e.fresh) (List.mem_append_right _ (by
        rw [declareLine, if_neg hne]; exact List.mem_singleton.2 rfl))
      exact .inr ⟨w, hwv, hws ▸ hf⟩
  · rintro ⟨w, hwv, hc⟩
    rcases h.const_cases hwv hc with ⟨-, hi, hn⟩ | ⟨-, hd, hn⟩ | hm
    · exact ⟨hw.resolve_right hn, hi⟩
    · exact absurd (hw.resolve_right hn) (h.declared x hd).2
    · rcases hw with rfl | hw
      · exact absurd hm not_madeUp_page
      · exact absurd hm (h.declared x (Emission.mem_declared_of_mem_hoisted hw)).1
  · rintro ⟨rfl, hi⟩
    obtain ⟨c, hc, hxc⟩ := List.mem_flatMap.1 (h.pageConst hi)
    obtain ⟨w, hwv, rfl⟩ := htop c (List.mem_append_left _ hc)
    exact ⟨w, hwv, hxc⟩

/-- A made-up name of the script or of a parameter is that of a text, and bound in front. -/
theorem of_madeUp (hx : x ∈ e.initial ++ e.declared) (hm : MadeUp x) :
    x ∈ e.initial ∧ ∃ n, x = readName n := by
  have hi : x ∈ e.initial := (List.mem_append.1 hx).resolve_right fun hd => (h.declared x hd).1 hm
  refine ⟨hi, ?_⟩
  rcases hm with ⟨n, hn⟩ | ⟨n, hn | hn⟩
  · exact absurd (.inl ⟨n, hn⟩) (h.unreserved x hi)
  · exact absurd (.inr ⟨n, hn⟩) (h.unreserved x hi)
  · exact ⟨n, hn⟩

theorem inScope (hv : e.visits = front ++ v :: behind_) (hx : x ∈ e.initial ++ e.declared)
    (hf : x ∈ v.statement.writes ∨
      ∃ w ∈ front, x ∈ w.statement.declares ++ w.statement.writes) : x ∈ v.visible := by
  have hrest : v ∈ Code.visitAll 0 (behind (e.given ++ e.parameters) (e.top init)) rest →
      x = "page" ∨ x ∈ e.hoisted ∨ x ∈ e.initial → x ∈ v.visible := fun hm hk =>
    (Code.visible_visitAll _ _ _ v hm).2 (h.visible hk)
  rcases hf with hw | ⟨w, hwf, hw⟩
  · obtain ⟨hm, hk⟩ := h.writes (by rw [hv]; simp) hw
    exact hrest hm (hk.imp_right .inl)
  have hwv : w ∈ e.visits := by rw [hv]; exact List.mem_append_left _ hwf
  rcases List.mem_append.1 hw with hw | hw
  · by_cases hd : w.depth = 0
    · exact Code.visible_of_declares hv hwf hd hw
    -- a constant further inside hides nothing: its name is bound at the top as well
    have hn : w ∉ Code.visitAll 0 (e.given ++ e.parameters) (e.top init) := fun hm =>
      hd (h.of_mem_top hm).1
    have hm : w ∈ Code.visitAll 0 (behind (e.given ++ e.parameters) (e.top init)) rest := by
      rw [h.visits_eq] at hwv
      exact (List.mem_append.1 hwv).resolve_left hn
    have hmade := (h.laid.depth w hm).resolve_left hd x (List.mem_append_left _ hw)
    exact hrest (h.mem_rest hv hwf hn) (.inr (.inr (h.of_madeUp hx hmade).1))
  · have hn : w ∉ Code.visitAll 0 (e.given ++ e.parameters) (e.top init) := fun hm => by
      rw [(h.of_mem_top hm).2.2] at hw; cases hw
    exact hrest (h.mem_rest hv hwf hn) ((h.writes hwv hw).2.imp_right .inl)

/-- An assembled body is well scoped. -/
theorem wellScoped : WellScoped e where
  once _ hx := h.once hx
  leading := h.leading
  assigned _ hv _ hx := h.assigned hv hx
  outermost v hv x hx hu := by
    rcases h.const_cases hv hx with ⟨hd, -⟩ | ⟨hd, -⟩ | hm
    · exact .inl hd
    · exact .inl hd
    · exact .inr (h.of_madeUp hu hm)
  inScope _ _ _ hv _ hx hf := h.inScope hv hx hf
  constants v hv x hx hh := by
    rw [h.visits_eq, List.mem_append] at hv
    rcases hv with hv | hv
    · obtain ⟨-, hm, -⟩ := h.of_mem_top hv
      rcases List.mem_append.1 hm with hm | hm
      · exact absurd hh ((h.initialized _ hm).2 x hx)
      · rw [eq_of_mem_declareLine hm] at hx; cases hx
    · exact h.laid.reads v hv x hx hh

end Assembled

/-! ## Bodies of programs -/

theorem not_madeUp {n : String} (hd : '$' ∉ n.toList) (hr : ¬Reserved n) : ¬MadeUp n := by
  rintro (hn | ⟨k, hn | hn⟩)
  · exact hr (.inl hn)
  · exact hr (.inr ⟨k, hn⟩)
  · exact hd (hn ▸ dollar_of_readName k)

theorem not_held {n : String} (hd : '$' ∉ n.toList) (hr : ¬Reserved n) : ¬Held n :=
  fun h => not_madeUp hd hr (.inr h)

theorem Generate.body_cases {all : Project} {o : BodyOwner} {bound : List String}
    {statementList : List Statement} {code : List Code.Statement}
    (h : Generate.body all o bound statementList = .ok code) :
    ∃ core q, Generate.statements ⟨all, o.defaultPage, o.uses, hoistedNames bound statementList⟩ 0
        statementList (.start bound) = .ok (core, q) ∧
      code =
        declareLine ((hoistedNames bound statementList).filter (!bound.contains ·)) ++ core := by
  obtain ⟨⟨core, q⟩, hs, h⟩ := bind_eq_ok.1 h
  cases h
  exact ⟨core, q, hs, rfl⟩

namespace Emission

variable {e : Emission}

/-- What a script promises of a body: no name has a dollar sign, and none that it declares is that
    of the page. -/
structure Scripted (e : Emission) : Prop where
  owners : ∀ n ∈ e.owners, '$' ∉ n.toList
  statements : BodySpelled (fun n => '$' ∉ n.toList) (fun n => '$' ∉ n.toList ∧ n ≠ "page")
    e.statements

section
variable (hs : e.Scripted) (hr : ∀ n ∈ e.userNames, ¬Reserved n)
include hs hr

theorem Scripted.unheld : ∀ t ∈ Statement.flattenAll e.statements, UnheldIn t := by
  intro t ht
  have hsp := hs.statements t ht
  have hu : ∀ n ∈ t.names ++ t.binds?.toList, ¬Reserved n := fun n hn =>
    hr n (List.mem_append_right _ (List.mem_flatMap.2 ⟨t, ht, hn⟩))
  refine ⟨hsp.targets, fun n hn => ?_, fun n hn => ?_⟩
  · exact not_held (hsp.names n hn) (hu n (List.mem_append_left _ hn))
  · exact not_held (hsp.binds n hn).1 (hu n (List.mem_append_right _ (Option.mem_toList.2 hn)))

theorem Scripted.declared : ∀ x ∈ e.declared, ¬MadeUp x ∧ x ≠ "page" := by
  intro x hx
  rw [Emission.declared, Statement.boundAll_eq] at hx
  obtain ⟨t, ht, hb⟩ := List.mem_filterMap.1 hx
  have hsp := (hs.statements t ht).binds x hb
  refine ⟨not_madeUp hsp.1 (hr x (List.mem_append_right _ (List.mem_flatMap.2 ⟨t, ht, ?_⟩))), hsp.2⟩
  exact List.mem_append_right _ (Option.mem_toList.2 hb)

/-- A body that opens properly and goes on with the code of its statements, and perhaps with more
    that is plainly evaluated, is well scoped. -/
theorem Scripted.wellScoped {all : Project} {o : BodyOwner}
    {init bodyCode tail : List Code.Statement} (ho : e.owners = o.defaultPage.toList ++ o.uses)
    (hn : e.initial.Nodup) (hopen : Opening e init)
    (hb : Generate.body all o e.initial e.statements = .ok bodyCode)
    (hc : e.code = init ++ (bodyCode ++ tail)) (ht : ∀ c ∈ tail, ∃ v, c = .eval v ∧ Sees [] v) :
    WellScoped e := by
  obtain ⟨core, q, hcore, rfl⟩ := body_cases hb
  have hsub : ∀ x ∈ e.initial, Held x → x ∈ behind (e.given ++ e.parameters) (e.top init) :=
    fun x hx _ => hopen.initial_visible hx
  have hforced : ∀ x, (x, true) ∈ declarationsIn false e.statements → x ∈ e.hoisted := fun x hx =>
    mem_hoistedNames.2 (.inl hx)
  have howners : ∀ n ∈ o.defaultPage.toList ++ o.uses, ¬Held n := fun n hm =>
    have hm' : n ∈ e.owners := ho ▸ hm
    not_held (hs.owners n hm') (hr n (List.mem_append_left _ (List.mem_append_left _ hm')))
  obtain ⟨hlaid, -⟩ := (lays_statements e.statements hcore).laid howners (d := 0) hforced
    (hs.unheld hr) (fun hh => absurd hh (by simp [Progress.start])) hsub
  have htail : Laid e.hoisted [] 0 (Code.visitAll 0
      (behind (behind (e.given ++ e.parameters) (e.top init)) core) tail) :=
    .plain fun c hm =>
      have ⟨v, hv, hsees⟩ := ht c hm
      ⟨v, .inl hv, hsees.mono (List.nil_subset _)⟩
  have hrest := hlaid.append htail
  rw [← Code.visitAll_append, List.append_nil] at hrest
  have hall : Assembled e init (core ++ tail) :=
    { hopen with
      code := by rw [hc]; simp [top, fresh, hoisted]
      distinct := hn
      unreserved := fun x hx => hr x (List.mem_append_left _ (List.mem_append_right _ hx))
      declared := hs.declared hr
      laid := hrest }
  exact hall.wellScoped

end

end Emission

/-! ## Openings -/

section
variable {e : Emission}

theorem opening_parameters (hp : e.parameters = e.initial) (hg : "page" ∈ e.given)
    (hi : "page" ∉ e.initial) : Opening e [] where
  initialized := nofun
  count x _ := by simp [hp]
  bound := by simp [hp]
  consts := nofun
  lets x hx _ := by simpa [hp] using hx
  page := by simpa using hg
  pageConst h := absurd h hi

theorem opening_ownPage (hp : e.parameters = []) (hi : e.initial = []) :
    Opening e [.let_ "page" (.await (.invoke (.name "browser") "newPage" []))] where
  initialized c hc := by
    rw [List.mem_singleton.1 hc]
    exact ⟨rfl, by simp [Code.Statement.reads, Code.Expr.invoke]⟩
  count x hx := by
    simp [hp, hi, Code.Statement.declares, Code.Statement.lets, Code.Statement.consts, hx.symm]
  bound := by simp [hi]
  consts x hx := by simp [Code.Statement.consts] at hx
  lets x hx := by rw [hi] at hx; cases hx
  page := by simp [Code.Statement.lets]
  pageConst h := by rw [hi] at h; cases h

mutual

theorem names_parameterCode : ∀ v : ParamValue, (parameterCode v).names = []
  | .null | .flag _ | .number _ | .text _ => by simp [parameterCode]
  | .list items => by
    simp only [parameterCode, Code.Expr.names]
    exact names_parameterCodes items

theorem names_parameterCodes : ∀ vs : List ParamValue, Code.Expr.namesAll (parameterCodes vs) = []
  | [] => rfl
  | v :: rest => by
    rw [parameterCodes, Code.Expr.namesAll, names_parameterCode v, names_parameterCodes rest]
    rfl

end

section
variable {hoisted : List String} {values : List (String × ParamValue)}

theorem declares_bindings :
    (bindings hoisted values).flatMap Code.Statement.declares = values.map (·.1) := by
  induction values with
  | nil => rfl
  | cons v values ih =>
    rw [bindings, List.map_cons, List.flatMap_cons, ← bindings, ih]
    dsimp only
    split <;> rfl

theorem mem_lets_bindings : x ∈ (bindings hoisted values).flatMap Code.Statement.lets ↔
    x ∈ values.map (·.1) ∧ x ∈ hoisted := by
  induction values with
  | nil => simp [bindings]
  | cons v values ih =>
    rw [bindings, List.map_cons, List.flatMap_cons, ← bindings, List.mem_append, ih, List.map_cons,
      List.mem_cons]
    dsimp only
    split <;> grind [Code.Statement.lets]

theorem mem_consts_bindings : x ∈ (bindings hoisted values).flatMap Code.Statement.consts ↔
    x ∈ values.map (·.1) ∧ x ∉ hoisted := by
  induction values with
  | nil => simp [bindings]
  | cons v values ih =>
    rw [bindings, List.map_cons, List.flatMap_cons, ← bindings, List.mem_append, ih, List.map_cons,
      List.mem_cons]
    dsimp only
    split <;> grind [Code.Statement.consts]

end

theorem opening_bindings {values : List (String × ParamValue)} (hp : e.parameters = [])
    (hi : e.initial = values.map (·.1)) (hg : "page" ∈ e.given) (hh : "page" ∉ e.hoisted) :
    Opening e (bindings e.hoisted values) where
  initialized c hc := by
    obtain ⟨v, -, rfl⟩ := List.mem_map.1 hc
    dsimp only
    split <;> exact ⟨rfl, by simp [Code.Statement.reads, names_parameterCode]⟩
  count x _ := by rw [hp, hi, declares_bindings, List.nil_append]
  bound := by rw [hp, hi, declares_bindings, List.nil_append]; exact List.Subset.refl _
  consts x hx := by rw [hi]; exact mem_consts_bindings.1 hx
  lets x hx hm := List.mem_append_right _ (mem_lets_bindings.2 ⟨hi ▸ hx, hm⟩)
  page := List.mem_append_left _ hg
  pageConst h := mem_consts_bindings.2 ⟨hi ▸ h, hh⟩

end

section
variable {all : Project} {uses : List String} (hu : ∀ n ∈ uses, '$' ∉ n.toList)

theorem evaluated_nil : ∀ c ∈ ([] : List Code.Statement), ∃ v, c = .eval v ∧ Sees [] v :=
  nofun

theorem wellScoped_method {page : Option String} {a : Action} {m : Code.Method}
    (hp : ∀ q ∈ page, '$' ∉ q.toList)
    (ha : a.Spelled (fun n => '$' ∉ n.toList) (fun n => '$' ∉ n.toList ∧ n ≠ "page"))
    (hm : method all page a = .ok m) (hn : a.parameters.Nodup)
    (hr : ∀ n ∈ (⟨page.toList, a.body, a.parameters, ["page"], m.parameters, m.body⟩ :
      Emission).userNames, ¬Reserved n) :
    WellScoped ⟨page.toList, a.body, a.parameters, ["page"], m.parameters, m.body⟩ := by
  obtain ⟨code, hb, hm⟩ := bind_eq_ok.1 hm
  cases hm
  have hs : Emission.Scripted ⟨page.toList, a.body, a.parameters, ["page"], a.parameters, code⟩ :=
    ⟨fun n hm => hp n (Option.mem_toList.1 hm), ha.body⟩
  have hopen := opening_parameters (e := ⟨page.toList, a.body, a.parameters, ["page"],
    a.parameters, code⟩) rfl (by simp) fun hi => (ha.parameters _ hi).2 rfl
  exact hs.wellScoped hr (List.append_nil _).symm hn hopen hb (by simp) evaluated_nil

include hu

theorem wellScoped_hook {h : Hook} {k : Code.Hook}
    (hb : BodySpelled (fun n => '$' ∉ n.toList) (fun n => '$' ∉ n.toList ∧ n ≠ "page") h.body)
    (hk : Generate.hook all uses h = .ok k)
    (hr : ∀ n ∈ (⟨uses, h.body, [], [k.event.argument], [], k.body⟩ : Emission).userNames,
      ¬Reserved n) :
    WellScoped ⟨uses, h.body, [], [k.event.argument], [], k.body⟩ := by
  obtain ⟨code, hc, hk⟩ := bind_eq_ok.1 hk
  have hs : Emission.Scripted ⟨uses, h.body, [], [k.event.argument], [], k.body⟩ := ⟨hu, hb⟩
  -- hooks of single tests are given a page, the others open one around their code
  have hcases : k.event.argument = "page" ∧ k.body = code ∨ k.body = withOwnPage code := by
    cases hk
    cases h.kind with
    | beforeEach | afterEach => exact .inl ⟨rfl, rfl⟩
    | beforeAll | afterAll => exact .inr rfl
  rcases hcases with ⟨hp, hcode⟩ | hcode
  · have hopen := opening_parameters (e := ⟨uses, h.body, [], [k.event.argument], [], k.body⟩) rfl
      (by simp [hp]) (by simp)
    exact hs.wellScoped hr rfl List.nodup_nil hopen hc (by simp [hcode]) evaluated_nil
  · have hopen := opening_ownPage (e := ⟨uses, h.body, [], [k.event.argument], [], k.body⟩) rfl rfl
    have htail : ∀ c ∈ [awaitCall Generate.page "close" []], ∃ v, c = .eval v ∧ Sees [] v := by
      intro c hm
      exact ⟨_, List.mem_singleton.1 hm, by simp [Sees, Generate.page, Code.Expr.invoke]⟩
    exact hs.wellScoped hr rfl List.nodup_nil hopen hc hcode htail

theorem wellScoped_test {s : Scenario} {values : List (String × ParamValue)}
    {code : List Code.Statement}
    (hb : BodySpelled (fun n => '$' ∉ n.toList) (fun n => '$' ∉ n.toList ∧ n ≠ "page") s.body)
    (hc : testBody all uses s values = .ok code) (hn : (values.map (·.1)).Nodup)
    (hr : ∀ n ∈ (⟨uses, s.body, values.map (·.1), ["page"], [], code⟩ : Emission).userNames,
      ¬Reserved n) :
    WellScoped ⟨uses, s.body, values.map (·.1), ["page"], [], code⟩ := by
  obtain ⟨bodyCode, hbody, hc⟩ := bind_eq_ok.1 hc
  cases hc
  have hs : Emission.Scripted ⟨uses, s.body, values.map (·.1), ["page"], [],
      bindings (hoistedNames (values.map (·.1)) s.body) values ++ bodyCode⟩ := ⟨hu, hb⟩
  have hopen := opening_bindings (e := ⟨uses, s.body, values.map (·.1), ["page"], [],
    bindings (hoistedNames (values.map (·.1)) s.body) values ++ bodyCode⟩) rfl rfl (by simp)
    fun hm => (hs.declared hr _ (Emission.mem_declared_of_mem_hoisted hm)).2 rfl
  exact hs.wellScoped hr rfl hn hopen hbody (by simp [Emission.hoisted]) evaluated_nil

end

/-- The body of the first test of a program, with the given values. -/
def firstTest? (all : Project) (p : Program) (values : List (String × ParamValue)) :
    Option Emission := do
  let f ← p.features.head?
  let s ← f.scenarios.head?
  let uses := f.uses.map (·.name)
  let code ← (testBody all uses s values).toOption
  return ⟨uses, s.body, values.map (·.1), ["page"], [], code⟩

theorem emitted_of_firstTest? {all : Project} {p : Program} {values : List (String × ParamValue)}
    {e : Emission} (h : firstTest? all p values = some e) : Emitted all p e := by
  simp only [firstTest?, Option.bind_eq_bind, Option.bind_eq_some_iff, Option.pure_def,
    Option.some.injEq] at h
  obtain ⟨f, hf, s, hs, code, hc, rfl⟩ := h
  refine .test (List.mem_of_head? hf) (List.mem_of_head? hs) ?_
  cases ht : testBody all (f.uses.map (·.name)) s values with
  | error v => rw [ht] at hc; cases hc
  | ok c => rw [ht] at hc; cases hc; rfl

/-- Whether a name starts like that of a counter or a frame. -/
def startsReserved (n : String) : Bool :=
  n.toList.take 1 == ['i'] || n.toList.take 2 == ['f', 'r']

theorem not_reserved {n : String} (h : startsReserved n = false) : ¬Reserved n := by
  rintro (⟨k, rfl⟩ | ⟨k, rfl⟩)
  · simp [startsReserved, counterName, String.toList_append] at h
  · simp [startsReserved, frameName, String.toList_append] at h

/-- **Scopes**: the body of every action, hook and test of a script is well scoped, if no name is
    bound twice in front of it and no name of the script looks like a counter or a frame. -/
theorem wellScoped_of_emitted (source : String) (all : Project) (e : Emission)
    (h : Emitted all (parseText source).program e) (hn : e.initial.Nodup)
    (hr : ∀ n ∈ e.userNames, ¬Reserved n) : WellScoped e := by
  have hsp := spelled_parseText source
  have huses : ∀ f ∈ (parseText source).program.features, ∀ n ∈ f.uses.map (·.name),
      '$' ∉ n.toList := by
    intro f hf n hm
    obtain ⟨u, hu, rfl⟩ := List.mem_map.1 hm
    exact hsp.uses f hf u hu
  cases h with
  | @pageAction page a m hp ha hm =>
    have hpage := hsp.pages page hp
    exact wellScoped_method (by rintro _ ⟨⟩; exact hpage.1) (hpage.2 a ha) hm hn hr
  | @libraryAction l a m hl ha hm =>
    have hlib := hsp.libraries l hl
    exact wellScoped_method hlib.1 (hlib.2 a ha) hm hn hr
  | @hook f k c hf hk hc => exact wellScoped_hook (huses f hf) (hsp.hooks f hf k hk) hc hr
  | @test f s values code hf hs hc =>
    exact wellScoped_test (huses f hf) (hsp.scenarios f hf s hs) hc hn hr

/-- A script with a test that assigns its parameter, and that declares names and reads an element of
    a frame in an inner block. -/
def checkoutScript : String :=
  "PAGE Cart \x7b FIELD total = \"#sum\" \x7d
  FEATURE Pay \x7b USE Cart SCENARIO \"pays\" \x7b
    TEXT amount = \"1\"
    IF TRUE \x7b
      SWITCH TO FRAME \"#card\"
      LOAD rows FROM Orders WHERE price == Cart.total
    \x7d
    LOG rows
  \x7d \x7d"

theorem wellScoped_of_emitted_checkout : ∃ e,
    Emitted (Project.empty.extend (parseText checkoutScript).program)
      (parseText checkoutScript).program e ∧
    e.initial = ["amount"] ∧ e.declared = ["amount", "rows"] ∧ e.visits.length = 8 ∧
    e.initial.Nodup ∧ (∀ n ∈ e.userNames, ¬Reserved n) ∧ WellScoped e := by
  have h : (firstTest? (Project.empty.extend (parseText checkoutScript).program)
      (parseText checkoutScript).program [("amount", .flag true)]).any (fun e =>
        e.initial == ["amount"] && e.declared == ["amount", "rows"] &&
        e.visits.length == 8 && e.userNames.all (!startsReserved ·)) = true := by
    decide +kernel
  obtain ⟨e, he, hfacts⟩ := (Option.any_eq_true _ _).1 h
  simp only [Bool.and_eq_true, beq_iff_eq, List.all_eq_true, Bool.not_eq_true'] at hfacts
  obtain ⟨⟨⟨hi, hd⟩, hl⟩, hu⟩ := hfacts
  have hn : e.initial.Nodup := by rw [hi]; decide
  have hr : ∀ n ∈ e.userNames, ¬Reserved n := fun n hm => not_reserved (hu n hm)
  have hem := emitted_of_firstTest? he
  exact ⟨e, hem, hi, hd, hl, hn, hr, wellScoped_of_emitted _ _ e hem hn hr⟩

/-- A test that binds the name of the page in front of its statements assigns a constant when it
    turns to another tab. -/
theorem assigns_constant_page : ∃ e, Emitted Project.empty (parseText
      "FEATURE F \x7b SCENARIO \"s\" \x7b SWITCH TO NEW TAB \x7d \x7d").program e ∧
    e.initial = ["page"] ∧ e.initial.Nodup ∧ (∀ n ∈ e.userNames, ¬Reserved n) ∧
    (∃ v ∈ e.visits, "page" ∈ v.statement.writes) ∧
    ∃ w ∈ e.visits, "page" ∈ w.statement.consts := by
  have h : (firstTest? Project.empty (parseText
      "FEATURE F \x7b SCENARIO \"s\" \x7b SWITCH TO NEW TAB \x7d \x7d").program
      [("page", .flag true)]).any (fun e =>
        e.initial == ["page"] && e.userNames.all (!startsReserved ·) &&
        e.visits.any (·.statement.writes.contains "page") &&
        e.visits.any (·.statement.consts.contains "page")) = true := by
    decide +kernel
  obtain ⟨e, he, hfacts⟩ := (Option.any_eq_true _ _).1 h
  simp only [Bool.and_eq_true, beq_iff_eq, List.all_eq_true, Bool.not_eq_true', List.any_eq_true,
    List.contains_eq_mem, decide_eq_true_eq] at hfacts
  obtain ⟨⟨⟨hi, hu⟩, hw⟩, hc⟩ := hfacts
  have hn : e.initial.Nodup := by rw [hi]; decide
  exact ⟨e, emitted_of_firstTest? he, hi, hn, fun n hm => not_reserved (hu n hm), hw, hc⟩

end UiScenario
