import UiScenario.Proofs.Occurrences

/-!
What generated code reads. Of the constants that hold frames and texts, the code of a value or an
element reads at most the root below which elements are found, as long as scripts do not use such
names themselves; the condition of a query reads in addition the constants that are declared ahead
of it.
-/

namespace UiScenario.Generate

open Code (Expr Occurrence)

variable {visible : List String} {ahead : List Code.Statement} {e : Expr}

/-- The name of a constant that holds a frame, or a text that was read ahead of a query. -/
def Held (x : String) : Prop :=
  ∃ n, x = frameName n ∨ x = readName n

/-- A name that does not come from a script: that of a counter, or of a constant. -/
def MadeUp (x : String) : Prop :=
  (∃ n, x = counterName n) ∨ Held x

theorem take_of_held {x : String} (h : Held x) :
    x.toList.take 2 = ['f', 'r'] ∨ x.toList.take 2 = ['$', 'v'] := by
  obtain ⟨n, rfl | rfl⟩ := h
  · left; simp [frameName, String.toList_append]
  · right; simp [readName, String.toList_append]

theorem dollar_of_readName (n : Nat) : '$' ∈ (readName n).toList := by
  simp [readName, String.toList_append]

@[simp]
theorem not_held_counterName (n : Nat) : ¬Held (counterName n) := by
  intro h
  have := take_of_held h
  simp [counterName, String.toList_append] at this

/-- The other names in generated code, apart from those of scripts, are not held. -/
@[simp]
theorem not_held_global : ¬Held "" ∧ ¬Held "page" ∧ ¬Held "browser" ∧ ¬Held "String" ∧
    ¬Held "RegExp" ∧ ¬Held "process" ∧ ¬Held "expect" ∧ ¬Held "console" ∧ ¬Held "testData" ∧
    ¬Held "document" ∧ ¬Held "localStorage" ∧ ¬Held "sessionStorage" ∧ ¬Held "dialog" ∧
    ¬Held "el" ∧ ¬Held "$row" := by
  have h : ∀ x : String, x.toList.take 2 ≠ ['f', 'r'] ∧ x.toList.take 2 ≠ ['$', 'v'] → ¬Held x :=
    fun x hx hh => (take_of_held hh).elim hx.1 hx.2
  refine ⟨?_, ?_, ?_, ?_, ?_, ?_, ?_, ?_, ?_, ?_, ?_, ?_, ?_, ?_, ?_⟩ <;> exact h _ (by decide)

theorem not_madeUp_page : ¬MadeUp "page" := by
  rintro (⟨n, h⟩ | h)
  · have := congrArg (·.toList.take 1) h
    simp [counterName, String.toList_append] at this
  · simp at h

/-! ## Visible constants -/

/-- An expression reads only such constants as are visible. -/
def Sees (visible : List String) (e : Expr) : Prop :=
  ∀ x ∈ e.names, Held x → x ∈ visible

theorem Sees.mono {visible' : List String} (h : Sees visible e) (hs : visible ⊆ visible') :
    Sees visible' e :=
  fun x hx hh => hs (h x hx hh)

/-- A name that is used is visible if it is that of a constant. -/
def Visible (visible : List String) : Occurrence → Prop
  | .use x => Held x → x ∈ visible
  | .binding _ | .object _ => True

theorem sees_of_only (h : e.Only (Visible visible)) : Sees visible e :=
  fun x hx => h (.use x) (Expr.use_mem_occurrences e hx)

/-- The names that are visible behind statements of a block. -/
abbrev behind (visible : List String) (code : List Code.Statement) : List String :=
  visible ++ code.flatMap Code.Statement.declares

theorem behind_append (visible : List String) (xs ys : List Code.Statement) :
    behind visible (xs ++ ys) = behind (behind visible xs) ys := by
  simp [behind]

/-- The statements ahead of a query: constants for texts that are read. -/
def IsAhead (visible : List String) (ahead : List Code.Statement) : Prop :=
  ∀ c ∈ ahead, ∃ n e, c = .const (readName n) e ∧ Sees visible e

theorem isAhead_of_aheadOnly (h : AheadOnly (Visible visible) ahead) :
    IsAhead visible ahead := fun c hc =>
  have ⟨n, e, hk, he⟩ := h c hc
  ⟨n, e, hk, sees_of_only he⟩

theorem visible_of_beyond {o : Occurrence} (h : Beyond (Visible visible) ahead o) :
    Visible (behind visible ahead) o := by
  cases o with
  | binding x | object x => trivial
  | use x =>
    intro hh
    rcases h with h | ⟨y, hy, e⟩
    · exact List.mem_append_left _ (h hh)
    · cases e
      exact List.mem_append_right _ hy

section
variable {b : Setting} {p : Progress}
  (hr : Held p.root → p.root ∈ visible) (ho : ∀ n ∈ b.defaultPage.toList ++ b.uses, ¬Held n)
include hr ho

theorem allows_visible : Allows (Visible visible) b p where
  given x hx hh := by
    simp only [givenNames, List.mem_cons, List.not_mem_nil, or_false] at hx
    rcases hx with rfl | rfl | rfl | rfl | rfl | rfl | rfl | rfl <;> simp at hh
  members _ _ := trivial
  row := trivial
  root := ⟨hr, trivial⟩
  owners n hn := ⟨fun hh => absurd hh (ho n hn), fun _ => trivial⟩

theorem sees_expression {e : Expression} (he : e.Spelled (¬Held ·)) :
    Sees visible (expression b p e) :=
  sees_of_only (only_expression (allows_visible hr ho)
    ⟨fun n hn hh => absurd hh (he n hn), fun _ _ _ => trivial⟩)

variable (hs : ∀ n ∈ p.scope, Held n → n ∈ visible)
include hs

omit hr ho in
theorem allowsStatement_visible {s : Statement} (hn : ∀ n ∈ s.names, ¬Held n) :
    AllowsStatement (Visible visible) b p s where
  names n hm hh := absurd hh (hn n hm)
  objects := ⟨fun _ _ _ _ _ => trivial, fun _ _ _ _ _ => trivial, fun _ _ _ _ _ _ => trivial⟩
  lone n _ := hs n
  locals x hx := by
    refine ⟨trivial, fun hh => ?_⟩
    have := s.locals_subset hx
    simp only [List.mem_cons, List.not_mem_nil, or_false] at this
    rcases this with rfl | rfl <;> simp at hh
  globals x hx := by
    refine ⟨fun hh => ?_, trivial⟩
    have := s.globals_subset hx
    simp only [List.mem_cons, List.not_mem_nil, or_false] at this
    rcases this with rfl | rfl | rfl | rfl <;> simp at hh

theorem sees_condition {line : Nat} {c : Condition} {thenBody elseBody : List Statement} {e : Expr}
    (hn : ∀ n ∈ (Statement.branch line c thenBody elseBody).names, ¬Held n)
    (h : condition b p line c = .ok e) : Sees visible e :=
  sees_of_only (only_condition (allows_visible hr ho) (allowsStatement_visible hs hn) h)

end

/-! ## Steps -/

/-- The code of a step that binds a name or none, below a root, and the root behind it: plain
    statements, a constant for a frame, or a declaration with constants ahead of it. -/
inductive StepCode (hoisted visible : List String) (root : String) :
    Option String → List Code.Statement → String → Prop
  | plain {code : List Code.Statement} {root' : String} (hr : root' = root ∨ root' = "page")
      (hc : ∀ c ∈ code, ∃ e, (c = .eval e ∨ c = .assign "page" e) ∧ Sees visible e) :
      StepCode hoisted visible root none code root'
  | frame {n : Nat} {e : Expr} (he : Sees visible e) :
      StepCode hoisted visible root none [.const (frameName n) e] (frameName n)
  | declaration {x : String} {ahead : List Code.Statement} {e : Expr} (ha : IsAhead visible ahead)
      (he : Sees (behind visible ahead) e) :
      StepCode hoisted visible root (some x)
        (ahead ++ [if hoisted.contains x then .assign x e else .const x e]) root

theorem root_after (b : Setting) (p : Progress) {s : Step} (hf : s.entersFrame = false) :
    (p.after b s).root = p.root ∨ s.bound? = none ∧ (p.after b s).root = "page" := by
  cases s with
  | switchToFrame t => cases hf
  | switchToMainFrame => exact .inr ⟨rfl, rfl⟩
  | declare | query => exact .inl (root_bind ..)
  | _ => exact .inl rfl

theorem step_code {b : Setting} {p : Progress} {visible : List String}
    (hr : Held p.root → p.root ∈ visible) (hs : ∀ n ∈ p.scope, Held n → n ∈ visible)
    (ho : ∀ n ∈ b.defaultPage.toList ++ b.uses, ¬Held n) {line : Nat} {s : Step} {q : Progress}
    {code : List Code.Statement} (hn : ∀ n ∈ s.names, ¬Held n)
    (h : step b line s p = .ok (code, q)) :
    StepCode b.hoisted visible p.root s.bound? code q.root := by
  rw [progress_step h]
  cases step_shape (allows_visible hr ho) (allowsStatement_visible (s := .step line s) hs hn) h with
  | plain hb hf hc =>
    rw [hb]
    refine .plain ((root_after b p hf).imp_right And.right) fun c hm => ?_
    obtain ⟨e, hk, he⟩ := hc c hm
    exact ⟨e, hk.imp_right And.left, sees_of_only he⟩
  | frame hb hf _ he =>
    rw [hb]
    cases s <;> cases hf
    exact .frame (sees_of_only he)
  | declaration hb hf _ ha he =>
    have hroot := (root_after b p hf).resolve_right fun hn => by simp [hb] at hn
    rw [hb, hroot]
    exact .declaration (isAhead_of_aheadOnly ha)
      (sees_of_only (he.mono fun o => visible_of_beyond))

end UiScenario.Generate
