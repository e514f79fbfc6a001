import Mathlib.Logic.Basic
import UiScenario.Proofs.Fixtures

/-!
When a file imports the data of tests. The import is decided by the statements that a file is
generated from, and not by its code; the code takes the result of a query exactly where a statement
is a query.
-/

namespace UiScenario

/-- A statement of generated code takes the result of a query. -/
def Code.Statement.TakesQuery (s : Code.Statement) : Prop :=
  ∃ name members, s = .const name (Generate.queryCall members) ∨
    s = .assign name (Generate.queryCall members)

/-- Code takes the result of a query, at any depth. -/
def Code.AsksData (depth : Nat) (visible : List String) (code : List Code.Statement) : Prop :=
  ∃ v ∈ Code.visitAll depth visible code, v.statement.TakesQuery

/-- The code of a file takes the result of a query somewhere. -/
def Code.File.AsksData (f : Code.File) : Prop :=
  ∃ x ∈ f.bodies, Code.AsksData 0 [] x.2

namespace Generate

open Code (Expr)

variable {code : List Code.Statement} {s : Code.Statement} {uses : List String}

section
variable {d : Nat} {visible : List String}

theorem asksData_append {xs ys : List Code.Statement} :
    Code.AsksData d visible (xs ++ ys) ↔ Code.AsksData d visible xs ∨
      Code.AsksData d (visible ++ xs.flatMap Code.Statement.declares) ys := by
  simp only [Code.AsksData, Code.visitAll_append, List.mem_append, or_and_right, exists_or]

theorem asksData_cons {rest : List Code.Statement} :
    Code.AsksData d visible (s :: rest) ↔ s.TakesQuery ∨
      (∃ v ∈ Code.inside d visible s, v.statement.TakesQuery) ∨
        Code.AsksData d (visible ++ s.declares) rest := by
  simp only [Code.AsksData, Code.visitAll, List.mem_cons, List.mem_append, or_and_right,
    exists_or, exists_eq_left]

theorem not_asksData_nil : ¬Code.AsksData d visible [] := by
  simp [Code.AsksData, Code.visitAll]

/-- A statement that takes no query and has no statements inside it. -/
def Plain (s : Code.Statement) : Prop :=
  ¬s.TakesQuery ∧ ∀ d visible, Code.inside d visible s = []

theorem not_asksData_of_plain (h : ∀ c ∈ code, Plain c) : ¬Code.AsksData d visible code := by
  induction code generalizing visible with
  | nil => exact not_asksData_nil
  | cons c rest ih =>
    obtain ⟨hc, hi⟩ := h c (List.mem_cons_self ..)
    rw [asksData_cons, hi]
    rintro (hq | ⟨v, hv, -⟩ | hrest)
    · exact hc hq
    · cases hv
    · exact ih (fun c' hc' => h c' (List.mem_cons_of_mem _ hc')) hrest

/-! ## Plain statements -/

theorem plain_eval (e : Expr) : Plain (.eval e) := by
  refine ⟨?_, fun _ _ => rfl⟩
  rintro ⟨_, _, h | h⟩ <;> cases h

theorem plain_declare (names : List String) : Plain (.declare names) := by
  refine ⟨?_, fun _ _ => rfl⟩
  rintro ⟨_, _, h | h⟩ <;> cases h

theorem plain_let (name : String) (e : Expr) : Plain (.let_ name e) := by
  refine ⟨?_, fun _ _ => rfl⟩
  rintro ⟨_, _, h | h⟩ <;> cases h

/-- Whatever a constant or a variable is given, other than the result of a query. -/
theorem plain_set {e : Expr} (he : ∀ members, e ≠ queryCall members) (name : String) :
    Plain (.const name e) ∧ Plain (.assign name e) := by
  refine ⟨⟨?_, fun _ _ => rfl⟩, ⟨?_, fun _ _ => rfl⟩⟩
  · rintro ⟨_, members, h | h⟩
    · exact he members (Code.Statement.const.inj h).2
    · cases h
  · rintro ⟨_, members, h | h⟩
    · cases h
    · exact he members (Code.Statement.assign.inj h).2

theorem parameterCode_ne_await {v : ParamValue} {x : Expr} : parameterCode v ≠ .await x := by
  cases v <;> rintro ⟨⟩

/-- What is declared with the result of a query, at the top of a body or in its place. -/
theorem takesQuery_set {e : Expr} (he : ∃ members, e = queryCall members) (c : Prop) [Decidable c]
    (name : String) :
    (if c then Code.Statement.assign name e else .const name e).TakesQuery := by
  obtain ⟨members, rfl⟩ := he
  split
  · exact ⟨name, members, .inr rfl⟩
  · exact ⟨name, members, .inl rfl⟩

/-! ## Statements -/

/-- The code of a step takes the result of a query if the step is one, and is plain otherwise. -/
theorem asksData_step {b : Setting} {line : Nat} {s : Step} {p q : Progress}
    (h : step b line s p = .ok (code, q)) :
    Code.AsksData d visible code ↔ (Statement.step line s).isQuery = true := by
  have hplain : (∀ c ∈ code, Plain c) → (∀ d, s ≠ .query d) →
      (Code.AsksData d visible code ↔ (Statement.step line s).isQuery = true) := by
    intro hc hs
    refine iff_of_false (not_asksData_of_plain hc) fun hq => ?_
    cases s <;> cases hq
    exact hs _ rfl
  cases step_shape allows_true allowsStatement_true h with
  | plain hb _ hc =>
    refine hplain (fun c hm => ?_) (by rintro _ rfl; cases hb)
    obtain ⟨e, rfl | ⟨rfl, hq⟩, -⟩ := hc c hm
    · exact plain_eval e
    · exact (plain_set hq "page").2
  | frame hb _ hq =>
    exact hplain (List.forall_mem_singleton.2 (plain_set hq _).1) (by rintro _ rfl; cases hb)
  | @declaration x _ _ _ _ hq =>
    rcases hq with ⟨⟨_, rfl⟩, hm⟩ | ⟨rfl, hs, hm⟩
    · refine iff_of_true (asksData_append.2 (.inr (asksData_cons.2 (.inl ?_)))) rfl
      exact takesQuery_set hm _ _
    · refine hplain (List.forall_mem_singleton.2 ?_) hs
      obtain ⟨hconst, hassign⟩ := plain_set hm x
      split
      · exact hassign
      · exact hconst

end

section
variable {b : Setting}

/-- A statement around blocks takes no query itself. -/
theorem asksData_block {d : Nat} {visible : List String}
    (hs : ∀ name e, s ≠ .const name e ∧ s ≠ .assign name e) :
    Code.AsksData d visible [s] ↔ ∃ v ∈ Code.inside d visible s, v.statement.TakesQuery := by
  have hq : ¬s.TakesQuery := by
    rintro ⟨name, members, h | h⟩
    · exact (hs name _).1 h
    · exact (hs name _).2 h
  rw [asksData_cons, or_iff_right hq, or_iff_left not_asksData_nil]

/-- The code of statements takes the result of a query if one of them, at any depth, is a query. -/
theorem Lays.asksData {depth : Nat} {body : List Statement} {p q : Progress}
    (h : Lays b depth body p code q) (d : Nat) (visible : List String) :
    Code.AsksData d visible code ↔ ∃ t ∈ Statement.flattenAll body, t.isQuery = true := by
  induction h generalizing d visible with
  | nil => exact iff_of_false not_asksData_nil (by simp [Statement.flattenAll])
  | cons _ _ ih ihrest =>
    rw [asksData_append, ih, ihrest]
    simp only [Statement.flattenAll, List.append_nil, List.mem_append, or_and_right, exists_or]
  | step h =>
    rw [asksData_step h]
    simp [Statement.flattenAll, Statement.flatten]
  | branch _ _ ih =>
    rw [asksData_block (by simp)]
    refine (ih (d + 1) visible).trans ?_
    simp [Statement.flattenAll, Statement.flatten, Statement.isQuery]
  | choice _ _ _ ih ihelse =>
    rw [asksData_block (by simp)]
    simp only [Code.inside, List.mem_append, or_and_right, exists_or]
    refine (or_congr (ih (d + 1) visible) (ihelse (d + 1) visible)).trans ?_
    simp [Statement.flattenAll, Statement.flatten, Statement.isQuery, or_and_right, exists_or]
  | repeat_ _ ih | forEach _ ih =>
    rw [asksData_block (by simp)]
    refine (ih (d + 1) _).trans ?_
    simp [Statement.flattenAll, Statement.flatten, Statement.isQuery]

end

/-! ## Bodies -/

section
variable {all : Project} {d : Nat} {visible : List String}

theorem asksData_body {o : BodyOwner} {bound : List String} {body : List Statement}
    (h : Generate.body all o bound body = .ok code) :
    Code.AsksData d visible code ↔ queries body = true := by
  obtain ⟨core, q, hcore, rfl⟩ := body_cases h
  have hline : ∀ c ∈ declareLine ((hoistedNames bound body).filter (!bound.contains ·)),
      Plain c := by
    unfold declareLine
    split
    · exact List.forall_mem_nil _
    · exact List.forall_mem_singleton.2 (plain_declare _)
  rw [asksData_append, or_iff_right (not_asksData_of_plain hline),
    (lays_statements body hcore).asksData, queries, List.any_eq_true]

theorem asksData_method {page : Option String} {a : Action} {m : Code.Method}
    (h : method all page a = .ok m) : Code.AsksData d visible m.body ↔ queries a.body = true := by
  obtain ⟨code, hcode, h⟩ := bind_eq_ok.1 h
  cases h
  exact asksData_body hcode

theorem asksData_hook {k : Hook} {c : Code.Hook} (h : hook all uses k = .ok c) :
    Code.AsksData d visible c.body ↔ queries k.body = true := by
  obtain ⟨code, hcode, h⟩ := bind_eq_ok.1 h
  cases h
  have hown : Code.AsksData d visible (withOwnPage code) ↔ queries k.body = true := by
    have hclose : ∀ d visible, ¬Code.AsksData d visible [awaitCall page "close" []] := fun _ _ =>
      not_asksData_of_plain (List.forall_mem_singleton.2 (plain_eval _))
    have hopen : ∀ d visible,
        ¬Code.AsksData d visible [.let_ "page" (.await (.invoke (.name "browser") "newPage" []))] :=
      fun _ _ => not_asksData_of_plain (List.forall_mem_singleton.2 (plain_let _ _))
    show Code.AsksData d visible ([_] ++ (code ++ [_])) ↔ _
    rw [asksData_append, or_iff_right (hopen _ _), asksData_append, or_iff_left (hclose _ _)]
    exact asksData_body hcode
  dsimp only
  split
  · exact hown
  · exact hown
  · exact asksData_body hcode
  · exact asksData_body hcode

theorem asksData_testBody {s : Scenario} {values : List (String × ParamValue)}
    (h : testBody all uses s values = .ok code) :
    Code.AsksData d visible code ↔ queries s.body = true := by
  obtain ⟨core, hcore, h⟩ := bind_eq_ok.1 h
  cases h
  have hbindings : ∀ c ∈ bindings (hoistedNames (values.map (·.1)) s.body) values, Plain c := by
    intro c hc
    obtain ⟨⟨name, value⟩, -, rfl⟩ := List.mem_map.1 hc
    dsimp only
    split
    · exact plain_let _ _
    · exact (plain_set (fun _ => parameterCode_ne_await) _).1
  rw [asksData_append, or_iff_right (not_asksData_of_plain hbindings)]
  exact asksData_body hcore

end

/-! ## Files -/

theorem WrittenAs.asksData {all : Project} {r : Request} {p : Program} {body : List Statement}
    {x : List String × List Code.Statement} (h : WrittenAs all r p body x) :
    Code.AsksData 0 [] x.2 ↔ queries body = true := by
  cases h with
  | page _ _ h | library _ _ h => exact asksData_method h
  | hook _ _ h => exact asksData_hook h
  | test _ _ h => exact asksData_testBody h

section
variable {context : Project} {r : Request} {p : Program} {g : Generated}
  (h : generate context r p = .ok g)
include h

theorem generate_account :
    g.file.usesData = usesData (neededPages (context.extend p) p)
      (neededLibraries (context.extend p) p) (selectedScenarios r.selection p.features) ∧
    g.total = (p.features.flatMap (·.scenarios)).length ∧
    g.selected = ((selectedScenarios r.selection p.features).flatMap (·.2)).length := by
  obtain ⟨pageObjects, -, h⟩ := bind_eq_ok.1 h
  obtain ⟨libraryObjects, -, h⟩ := bind_eq_ok.1 h
  obtain ⟨suites, -, h⟩ := bind_eq_ok.1 h
  cases h
  exact ⟨rfl, rfl, rfl⟩

/-- A file imports the data of tests exactly if its code takes the result of a query. -/
theorem usesData_iff : g.file.usesData = true ↔ g.file.AsksData := by
  have hany : g.file.usesData = (writtenBodies (context.extend p) r p).any queries := by
    rw [(generate_account h).1]
    simp [usesData, writtenBodies, List.any_flatMap, List.any_map, Function.comp_def, Bool.or_assoc]
  rw [hany, List.any_eq_true]
  constructor
  · rintro ⟨body, hb, hq⟩
    obtain ⟨x, hx, hw⟩ := exists_of_writtenBodies h body hb
    exact ⟨x, hx, hw.asksData.2 hq⟩
  · rintro ⟨x, hx, ha⟩
    obtain ⟨body, hw⟩ := exists_written h hx
    exact ⟨body, hw.mem, hw.asksData.1 ha⟩

end

end Generate

end UiScenario
