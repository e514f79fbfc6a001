import UiScenario.Proofs.Needed

/-!
Which objects generated code reads. Code reads members of what the test runner gives, of frames, of
variables, and of the objects for pages and libraries.
-/

namespace UiScenario

namespace Code

namespace Expr

mutual

/-- The names whose members an expression reads. The parameter of a function is its own. -/
@[simp]
def objects : Expr → List String
  | name _ | text _ | integer _ | number _ | flag _ | null | containing _ | regex _ => []
  | array items => objectsAll items
  | object members => memberObjects members
  | member o _ => o.name?.toList ++ objects o
  | index o i => objects o ++ objects i
  | call f arguments => objects f ++ objectsAll arguments
  | new _ arguments => objectsAll arguments
  | await e | not e | paren e => objects e
  | binary _ l r => objects l ++ objects r
  | arrow p e => (objects e).filter (· != p)
  | procedure steps => objectsAll steps

/-- The names whose members expressions read. -/
@[simp]
def objectsAll : List Expr → List String
  | [] => []
  | e :: rest => objects e ++ objectsAll rest

/-- The names whose members the members of an object read. -/
@[simp]
def memberObjects : List (String × Expr) → List String
  | [] => []
  | (_, e) :: rest => objects e ++ memberObjects rest

end

mutual

theorem object_mem_occurrences {n : String} : ∀ e : Expr, n ∈ e.objects → .object n ∈ e.occurrences
  | name _ | text _ | integer _ | number _ | flag _ | null | containing _ | regex _ => by simp
  | array items | procedure items => object_mem_occurrencesAll items
  | object members => object_mem_memberOccurrences members
  | member o _ => fun h => List.mem_append.2 ((List.mem_append.1 h).imp
      (fun h => List.mem_map.2 ⟨n, h, rfl⟩) (object_mem_occurrences o))
  | await o | not o | paren o => object_mem_occurrences o
  | index l r | binary _ l r => fun h => List.mem_append.2
      ((List.mem_append.1 h).imp (object_mem_occurrences l) (object_mem_occurrences r))
  | call f arguments => fun h => List.mem_append.2
      ((List.mem_append.1 h).imp (object_mem_occurrences f) (object_mem_occurrencesAll arguments))
  | new _ arguments => fun h => List.mem_cons_of_mem _ (object_mem_occurrencesAll arguments h)
  | arrow p e => fun h => by
    obtain ⟨h, hp⟩ := List.mem_filter.1 h
    exact List.mem_cons_of_mem _
      (List.mem_filter.2 ⟨object_mem_occurrences e h, by simpa using hp⟩)

theorem object_mem_occurrencesAll {n : String} :
    ∀ es : List Expr, n ∈ objectsAll es → .object n ∈ occurrencesAll es
  | [] => by simp
  | e :: rest => fun h => List.mem_append.2
      ((List.mem_append.1 h).imp (object_mem_occurrences e) (object_mem_occurrencesAll rest))

theorem object_mem_memberOccurrences {n : String} :
    ∀ ms : List (String × Expr), n ∈ memberObjects ms → .object n ∈ memberOccurrences ms
  | [] => by simp
  | (_, e) :: rest => fun h => List.mem_append.2
      ((List.mem_append.1 h).imp (object_mem_occurrences e) (object_mem_memberOccurrences rest))

end

end Expr

namespace Statement

/-- The names whose members a statement reads itself. -/
def objects : Statement → List String
  | eval e | let_ _ e | const _ e | assign _ e | branch e _ | choice e _ _ | count _ e _ =>
    e.objects
  | declare _ | forOf _ _ _ => []

/-- The names that a statement gives a value itself. -/
def sets : Statement → List String
  | let_ name _ | const name _ | assign name _ | forOf name _ _ => [name]
  | _ => []

end Statement

end Code

/-- The targets of a statement are plain, and the pages and libraries that it names itself are among
    the given names. -/
structure Statement.Within (ms : List String) (s : Statement) : Prop where
  targets : ∀ t ∈ s.targets, t.Plain
  owners : ∀ n ∈ s.owners, n ∈ ms

namespace Statement.Within

variable {ms : List String} {s : Statement}

theorem target (h : s.Within ms) : ∀ t ∈ s.targets, ∀ q ∈ t.qualifiers, q ∈ ms := by
  intro t ht q hq
  have hplain := h.targets t ht
  cases t with
  | element page name =>
    exact h.owners q (List.mem_append_left _ (List.mem_append_left _
      (List.mem_filterMap.2 ⟨_, ht, Option.mem_toList.1 hq⟩)))
  | selector e =>
    obtain ⟨e, rfl⟩ := hplain
    cases e <;> cases hq
  | unset => exact hplain.elim

theorem expression (h : s.Within ms) : ∀ e ∈ s.expressions, ∀ q ∈ e.qualifiers, q ∈ ms := by
  intro e he q hq
  refine h.owners q (List.mem_append_left _ (List.mem_append_right _ ?_))
  exact List.mem_flatMap.2 ⟨e, he, hq⟩

theorem owner {line : Nat} {t : Step} (h : (step line t).Within ms) :
    ∀ o, t.owner? = some o → o ∈ ms := by
  intro o ho
  cases t <;> cases ho
  exact h.owners o (List.mem_append_right _ (List.mem_singleton.2 rfl))

end Statement.Within

namespace Generate

open Code (Expr Occurrence)

/-! ## What code can read members of -/

/-- What the test runner gives to the code of statements. -/
def runtimeNames : List String :=
  ["page", "browser", "process", "console", "testData", "document", "localStorage",
    "sessionStorage"]

/-- The names whose members the code of a statement can read, with the names of `scope` in scope:
    those that the test runner gives, what elements are found below, variables, and among the names
    that the statement mentions those that have an object if they have a definition. -/
inductive Readable (all : Project) (root : String) (scope mentions : List String) : String → Prop
  | runtime {n : String} (h : n ∈ runtimeNames) : Readable all root scope mentions n
  | root : Readable all root scope mentions root
  | inScope {n : String} (h : n ∈ scope) : Readable all root scope mentions n
  | object {n : String} (h : n ∈ mentions) (ho : n ∈ all.definedNames → HasObject all n) :
      Readable all root scope mentions n

theorem Readable.mono {all : Project} {root : String} {scope scope' mentions : List String}
    (hs : scope ⊆ scope') {n : String} (h : Readable all root scope mentions n) :
    Readable all root scope' mentions n := by
  cases h with
  | runtime h => exact .runtime h
  | root => exact .root
  | inScope h => exact .inScope (hs h)
  | object h ho => exact .object h ho

section
variable {b : Setting} {p : Progress} {ms : List String}

/-- Code reads only members that it can read. -/
abbrev Reads (b : Setting) (p : Progress) (ms : List String) (e : Expr) : Prop :=
  ∀ n ∈ e.objects, Readable b.all p.root p.scope ms n

/-- A name whose member is read is one that code can read members of. -/
def ReadableAt (b : Setting) (p : Progress) (ms : List String) : Occurrence → Prop
  | .object n => Readable b.all p.root p.scope ms n
  | .use _ | .binding _ => True

theorem reads_of_only {e : Expr} (h : e.Only (ReadableAt b p ms)) : Reads b p ms e :=
  fun n hn => h (.object n) (Expr.object_mem_occurrences e hn)

theorem readable_of_isObject {n : String} (hn : n ∈ ms) (h : IsObject b p n) :
    ReadableAt b p ms (.object n) :=
  h.elim .inScope (.object hn)

section
variable (ho : ∀ q ∈ b.defaultPage.toList ++ b.uses, q ∈ ms)
include ho

theorem allows_readable : Allows (ReadableAt b p ms) b p where
  given _ _ := trivial
  members _ hx := .runtime ((by decide : givenObjects ⊆ runtimeNames) hx)
  row := trivial
  root := ⟨trivial, .root⟩
  owners n hn := ⟨trivial, readable_of_isObject (ho n hn)⟩

theorem reads_expression {e : Expression} (he : ∀ q ∈ e.qualifiers, q ∈ ms) :
    Reads b p ms (expression b p e) :=
  reads_of_only (only_expression (allows_readable ho)
    ⟨fun _ _ => trivial, fun q hq => readable_of_isObject (he q hq)⟩)

omit ho in
theorem allowsStatement_readable {s : Statement} (hs : s.Within ms) :
    AllowsStatement (ReadableAt b p ms) b p s where
  names _ _ := trivial
  objects :=
    ⟨fun t ht q hq => readable_of_isObject (hs.target t ht q hq),
      fun e he q hq => readable_of_isObject (hs.expression e he q hq), by
        rintro line t rfl q hq
        exact readable_of_isObject (hs.owner q hq)⟩
  lone _ _ _ := trivial
  locals _ _ := ⟨trivial, trivial⟩
  globals x hx := ⟨trivial, .runtime ((by decide : ["console", "localStorage", "sessionStorage",
    "document"] ⊆ runtimeNames) (s.globals_subset hx))⟩

/-! ## Steps -/

/-- A statement that holds no other and reads only members that it can read. -/
def Flat (b : Setting) (p : Progress) (ms : List String) (c : Code.Statement) : Prop :=
  ∃ e, Reads b p ms e ∧ (c = .eval e ∨ ∃ x, c = .assign x e ∨ c = .const x e)

/-- The code of a step reads only members that it can read, and sets the name that it binds. -/
theorem flat_step {line : Nat} {s : Step} {q : Progress} {code : List Code.Statement}
    (hs : (Statement.step line s).Within ms) (h : step b line s p = .ok (code, q)) :
    (∀ c ∈ code, Flat b p ms c) ∧ ∀ n, s.bound? = some n → n ∈ code.flatMap (·.sets) := by
  cases step_shape (allows_readable ho) (allowsStatement_readable hs) h with
  | plain hb _ hc =>
    refine ⟨fun c hm => ?_, by simp [hb]⟩
    obtain ⟨e, hk, he⟩ := hc c hm
    exact ⟨e, reads_of_only he, hk.imp_right fun hk => ⟨_, .inl hk.1⟩⟩
  | frame hb _ _ he =>
    refine ⟨List.forall_mem_singleton.2 ?_, by simp [hb]⟩
    exact ⟨_, reads_of_only he, .inr ⟨_, .inr rfl⟩⟩
  | @declaration x ahead e hb _ _ ha he =>
    have hreads : Reads b p ms e := fun n hn =>
      (he (.object n) (Expr.object_mem_occurrences e hn)).elim id fun ⟨_, _, h⟩ => by cases h
    refine ⟨List.forall_mem_append.2 ⟨fun c hc => ?_, List.forall_mem_singleton.2 ?_⟩, ?_⟩
    · obtain ⟨n, e, rfl, he⟩ := ha c hc
      exact ⟨e, reads_of_only he, .inr ⟨_, .inr rfl⟩⟩
    · split
      · exact ⟨e, hreads, .inr ⟨x, .inl rfl⟩⟩
      · exact ⟨e, hreads, .inr ⟨x, .inr rfl⟩⟩
    · rintro n hn
      cases hb.symm.trans hn
      rw [List.flatMap_append, List.mem_append]
      right
      split <;> exact List.mem_singleton.2 rfl

end

end

/-! ## Statements in reading order -/

/-- What elements are found below: the page or a frame. -/
def IsRoot (root : String) : Prop :=
  root = "page" ∨ ∃ k, root = frameName k

theorem isRoot_after {b : Setting} {p : Progress} {s : Step} (h : IsRoot p.root) :
    IsRoot (p.after b s).root := by
  cases s with
  | declare _ name _ | query q =>
    rw [Progress.after, root_bind]
    exact h
  | switchToFrame t => exact Or.inr ⟨_, rfl⟩
  | switchToMainFrame => exact Or.inl rfl
  | _ => exact h

/-- Statements in reading order, each of which reads only members that it can read where the names
    of `scope`, and those that the statements in front of it set, are in scope. -/
def Accounted (all : Project) (ms : List String) : List String → List Code.Visit → Prop
  | _, [] => True
  | scope, v :: rest =>
    (∀ n ∈ v.statement.objects, ∃ root, IsRoot root ∧ Readable all root scope ms n) ∧
      Accounted all ms (scope ++ v.statement.sets) rest

abbrev setsOf (visits : List Code.Visit) : List String :=
  visits.flatMap (·.statement.sets)

section
variable {all : Project} {ms scope : List String}

theorem accounted_append {xs ys : List Code.Visit} :
    Accounted all ms scope (xs ++ ys) ↔
      Accounted all ms scope xs ∧ Accounted all ms (scope ++ setsOf xs) ys := by
  induction xs generalizing scope with
  | nil => simp [Accounted]
  | cons v xs ih => simp [Accounted, ih, and_assoc]

/-- A statement around blocks, in front of what is inside it. -/
theorem Accounted.cons {v : Code.Visit} {names scope' : List String} {inside : List Code.Visit}
    (hv : v.statement.sets = names)
    (hhead : ∀ n ∈ v.statement.objects, ∃ root, IsRoot root ∧ Readable all root scope ms n)
    (h : Accounted all ms (scope ++ names) inside ∧
      scope' ⊆ (scope ++ names) ++ setsOf inside) :
    Accounted all ms scope (v :: inside) ∧ scope' ⊆ scope ++ setsOf (v :: inside) := by
  subst hv
  refine ⟨⟨hhead, h.1⟩, ?_⟩
  rw [setsOf, List.flatMap_cons, ← List.append_assoc]
  exact h.2

theorem Accounted.at {xs front behind : List Code.Visit} {v : Code.Visit}
    (h : Accounted all ms scope xs) (heq : xs = front ++ v :: behind) :
    ∀ n ∈ v.statement.objects,
      ∃ root, IsRoot root ∧ Readable all root (scope ++ setsOf front) ms n := by
  subst heq
  exact (accounted_append.1 h).2.1

end

section
variable {b : Setting} {ms scope : List String}

theorem accounted_flat {p : Progress} {code : List Code.Statement} (d : Nat)
    (visible : List String) (hr : IsRoot p.root) (hs : p.scope ⊆ scope)
    (h : ∀ c ∈ code, Flat b p ms c) :
    Accounted b.all ms scope (Code.visitAll d visible code) ∧
    setsOf (Code.visitAll d visible code) = code.flatMap (·.sets) := by
  induction code generalizing visible scope with
  | nil => exact ⟨trivial, rfl⟩
  | cons c rest ih =>
    obtain ⟨e, he, hc⟩ := h c (List.mem_cons_self ..)
    have hrest : ∀ c ∈ rest, Flat b p ms c := fun c hm => h c (List.mem_cons_of_mem _ hm)
    have hobjects : c.objects = e.objects ∧ Code.inside d visible c = [] := by
      rcases hc with rfl | ⟨x, rfl | rfl⟩ <;> exact ⟨rfl, rfl⟩
    obtain ⟨hacc, hsets⟩ := ih (visible ++ c.declares)
      (List.Subset.trans hs (List.subset_append_left scope c.sets)) hrest
    rw [Code.visitAll, hobjects.2, List.nil_append]
    refine ⟨⟨fun n hn => ?_, hacc⟩, ?_⟩
    · rw [hobjects.1] at hn
      exact ⟨p.root, hr, (he n hn).mono hs⟩
    · rw [setsOf, List.flatMap_cons, List.flatMap_cons, ← hsets]

/-- The code of statements reads only members that it can read, and sets what comes into scope. -/
theorem Lays.accounted (ho : ∀ q ∈ b.defaultPage.toList ++ b.uses, q ∈ ms) {depth : Nat}
    {body : List Statement} {p q : Progress} {code : List Code.Statement}
    (h : Lays b depth body p code q) (d : Nat) (visible : List String) (hr : IsRoot p.root)
    (hs : p.scope ⊆ scope) (hw : ∀ t ∈ Statement.flattenAll body, t.Within ms) :
    (Accounted b.all ms scope (Code.visitAll d visible code) ∧
      q.scope ⊆ scope ++ setsOf (Code.visitAll d visible code)) ∧ IsRoot q.root := by
  induction h generalizing d visible scope with
  | nil => exact ⟨⟨trivial, by simpa [Code.visitAll] using hs⟩, hr⟩
  | cons _ _ ih ihrest =>
    simp only [Statement.flattenAll, List.append_nil, List.forall_mem_append] at hw ih
    obtain ⟨⟨hacc, hscope⟩, hroot⟩ := ih d visible hr hs hw.1
    obtain ⟨⟨hacc', hscope'⟩, hroot'⟩ := ihrest d (behind visible _) hroot hscope hw.2
    rw [Code.visitAll_append]
    refine ⟨⟨accounted_append.2 ⟨hacc, hacc'⟩, ?_⟩, hroot'⟩
    rw [setsOf, List.flatMap_append, ← List.append_assoc]
    exact hscope'
  | step h =>
    obtain ⟨hflat, hset⟩ := flat_step ho (hw _ List.mem_cons_self) h
    obtain ⟨hacc, hsets⟩ := accounted_flat d visible hr hs hflat
    rw [progress_step h]
    refine ⟨⟨hacc, fun n hn => ?_⟩, isRoot_after hr⟩
    rw [hsets]
    rcases mem_scope_after.1 hn with hn | hn
    · exact List.mem_append_left _ (hs hn)
    · exact List.mem_append_right _ (hset n hn)
  | @branch _ _ _ _ p _ test _ hc _ ih =>
    simp only [Statement.flattenAll, Statement.flatten, List.append_nil,
      List.forall_mem_cons] at hw
    have htest := reads_of_only
      (only_condition (allows_readable ho) (allowsStatement_readable hw.1) hc)
    have hhead : ∀ n ∈ test.objects, ∃ root, IsRoot root ∧ Readable b.all root scope ms n :=
      fun n hn => ⟨p.root, hr, (htest n hn).mono hs⟩
    rw [Code.visitAll, Code.inside, Code.visitAll, List.append_nil]
    refine ⟨Accounted.cons (rfl : _ = []) hhead ?_, hr⟩
    rw [List.append_nil]
    exact (ih (d + 1) visible hr hs hw.2).1
  | @choice _ _ _ _ _ p _ _ test _ _ hc _ _ ih ihelse =>
    simp only [Statement.flattenAll, Statement.flatten, List.append_nil, List.forall_mem_cons,
      List.forall_mem_append] at hw
    have htest := reads_of_only
      (only_condition (allows_readable ho) (allowsStatement_readable hw.1) hc)
    have hhead : ∀ n ∈ test.objects, ∃ root, IsRoot root ∧ Readable b.all root scope ms n :=
      fun n hn => ⟨p.root, hr, (htest n hn).mono hs⟩
    obtain ⟨⟨hacc, hscope⟩, -⟩ := ih (d + 1) visible hr hs hw.2.1
    obtain ⟨⟨hacc', hscope'⟩, -⟩ := ihelse (d + 1) visible hr hscope hw.2.2
    rw [Code.visitAll, Code.inside, Code.visitAll, List.append_nil]
    refine ⟨Accounted.cons (rfl : _ = []) hhead ?_, hr⟩
    rw [List.append_nil, setsOf, List.flatMap_append, ← List.append_assoc]
    exact ⟨accounted_append.2 ⟨hacc, hacc'⟩, hscope'⟩
  | @repeat_ depth _ times _ p _ _ _ ih =>
    simp only [Statement.flattenAll, Statement.flatten, List.append_nil,
      List.forall_mem_cons] at hw
    have htimes := reads_expression (p := p) ho
      (hw.1.expression times (by simp [Statement.expressions]))
    have hhead : ∀ n ∈ (expression b p times).objects,
        ∃ root, IsRoot root ∧ Readable b.all root scope ms n := fun n hn =>
      ⟨p.root, hr, (htimes n hn).mono hs⟩
    rw [Code.visitAll, Code.inside, Code.visitAll, List.append_nil]
    refine ⟨Accounted.cons (rfl : _ = []) hhead ?_, hr⟩
    rw [List.append_nil]
    exact (ih (d + 1) (visible ++ [counterName depth]) hr hs hw.2).1
  | @forEach _ _ item _ _ p _ _ _ ih =>
    simp only [Statement.flattenAll, Statement.flatten, List.append_nil,
      List.forall_mem_cons] at hw
    have hitem : (p.bind item).scope ⊆ scope ++ [item] := by
      intro n hn
      rcases mem_scope_bind.1 hn with hn | rfl
      · exact List.mem_append_left _ (hs hn)
      · exact List.mem_append_right _ (List.mem_singleton.2 rfl)
    rw [Code.visitAll, Code.inside, Code.visitAll, List.append_nil]
    have hbody := (ih (d + 1) visible (by rwa [root_bind]) hitem hw.2).1
    exact ⟨Accounted.cons rfl (List.forall_mem_nil _) hbody, hr⟩

end

end Generate

end UiScenario
