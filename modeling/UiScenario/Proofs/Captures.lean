import UiScenario.Proofs.Contract
import UiScenario.Proofs.Fixtures
import UiScenario.Proofs.Parameters

/-!
Parameters of tests, and the names that the code of tests has of its own. A test declares its
parameters in front of the code of its scenario. That code has names which no script mentions: what
the test runner gives, parameters of functions, constants for frames, counters of loops, and objects
of the surroundings. Only the first are refused as names of parameters.
-/

namespace UiScenario

namespace Code

def Occurrence.name : Occurrence → String
  | binding x | use x | object x => x

mutual

/-- The names in a statement and in the statements inside it. -/
@[simp]
def Statement.occurrences : Statement → List Occurrence
  | .eval e => e.occurrences
  | .declare names => names.map .binding
  | .let_ name e | .const name e => .binding name :: e.occurrences
  | .assign name e => .use name :: e.occurrences
  | .branch test thenBody => test.occurrences ++ occurrencesIn thenBody
  | .choice test thenBody elseBody =>
    test.occurrences ++ (occurrencesIn thenBody ++ occurrencesIn elseBody)
  | .count counter bound body => .binding counter :: (bound.occurrences ++ occurrencesIn body)
  | .forOf item collection body => .use item :: .use collection :: occurrencesIn body

@[simp]
def occurrencesIn : List Statement → List Occurrence
  | [] => []
  | s :: rest => s.occurrences ++ occurrencesIn rest

end

@[simp]
theorem occurrencesIn_append (xs ys : List Statement) :
    occurrencesIn (xs ++ ys) = occurrencesIn xs ++ occurrencesIn ys := by
  induction xs with
  | nil => rfl
  | cons s xs ih => simp [ih]

theorem mem_occurrencesIn {o : Occurrence} {body : List Statement} :
    o ∈ occurrencesIn body ↔ ∃ s ∈ body, o ∈ s.occurrences := by
  induction body with
  | nil => simp
  | cons s rest ih => simp [ih]

end Code

/-! ## Names of the code's own -/

namespace Statement

mutual

/-- How deep counting loops are nested in a statement. -/
def nesting : Statement → Nat
  | step _ _ => 0
  | branch _ _ thenBody elseBody => max (nestingAll thenBody) (nestingAll elseBody)
  | repeat_ _ _ body => nestingAll body + 1
  | forEach _ _ _ body => nestingAll body

/-- How deep counting loops are nested in statements. -/
def nestingAll : List Statement → Nat
  | [] => 0
  | s :: rest => max (nesting s) (nestingAll rest)

end

/-- Whether a statement itself enters a frame. -/
def entersFrame : Statement → Bool
  | step _ s => s.entersFrame
  | _ => false

/-- The names that a script writes in a statement itself, apart from names of fields and actions. -/
def written (s : Statement) : List String :=
  s.names ++ s.loneNames ++ s.binds?.toList

end Statement

namespace Generate

open Code (Expr Occurrence)

variable {b : Setting} {line depth : Nat} {s : Step} {p q : Progress} {body : List Statement}
  {code : List Code.Statement}

/-- What the test runner gives to the code of tests, and what every such code may take from its
    language. -/
def runnerNames : List String :=
  ["page", "test", "expect", "testData", "process", "String", "RegExp"]

/-- How many frames a body enters, at any depth. -/
def frameCount (body : List Statement) : Nat :=
  (Statement.flattenAll body).countP Statement.entersFrame

/-- The names that the code of a body binds of its own accord: parameters of functions, constants
    for frames, and counters of loops. -/
def localNames (body : List Statement) : List String :=
  (Statement.flattenAll body).flatMap Statement.locals ++
    (List.range (frameCount body)).map (fun k => frameName (k + 1)) ++
    (List.range (Statement.nestingAll body)).map counterName

/-- The names that the code of a body takes from its surroundings of its own accord. -/
def globalNames (body : List Statement) : List String :=
  (Statement.flattenAll body).flatMap Statement.globals

/-- All names that the code of a body has of its own accord. -/
def ownNames (body : List Statement) : List String :=
  runnerNames ++ localNames body ++ globalNames body

/-- The names that a script writes in a body. -/
def writtenNames (body : List Statement) : List String :=
  (Statement.flattenAll body).flatMap Statement.written

theorem mem_localNames {x : String} :
    x ∈ localNames body ↔ (∃ t ∈ Statement.flattenAll body, x ∈ t.locals) ∨
      (∃ k, 0 < k ∧ k ≤ frameCount body ∧ x = frameName k) ∨
      ∃ k < Statement.nestingAll body, x = counterName k := by
  simp only [localNames, List.mem_append, List.mem_flatMap, List.mem_map, List.mem_range, or_assoc]
  refine or_congr_right (or_congr ⟨?_, ?_⟩ ⟨?_, ?_⟩)
  · rintro ⟨k, hk, rfl⟩
    exact ⟨k + 1, Nat.succ_pos k, hk, rfl⟩
  · rintro ⟨k, hp, hk, rfl⟩
    exact ⟨k - 1, by omega, by rw [Nat.sub_add_cancel hp]⟩
  · rintro ⟨k, hk, rfl⟩
    exact ⟨k, hk, rfl⟩
  · rintro ⟨k, hk, rfl⟩
    exact ⟨k, hk, rfl⟩

/-! ## Names that are refused -/

section
open Combination

theorem not_bindable_runnerNames : ∀ x ∈ runnerNames, ¬Bindable x := by
  decide

theorem not_bindable_givenNames : ∀ x ∈ givenNames, ¬Bindable x := by
  decide

theorem not_bindable_readName (n : Nat) : ¬Bindable (readName n) := by
  simp [Bindable, isBindingName, readName, String.toList_append]

end

/-! ## Where names come from -/

/-- Where a name in the code of a body comes from: it is refused as the name of a parameter, it is
    one of the code's own, the script writes it, or it is a page whose members are meant by names
    alone. What the code binds for the script is no parameter. Whose members are read says nothing
    more. -/
inductive Origin (owners parameters : List String) (body : List Statement) : Occurrence → Prop
  | refused {o : Occurrence} (h : ¬Combination.Bindable o.name) : Origin owners parameters body o
  | own {o : Occurrence} (h : o.name ∈ localNames body) : Origin owners parameters body o
  | global {x : String} (h : x ∈ globalNames body) : Origin owners parameters body (.use x)
  | written {x : String} (h : x ∈ writtenNames body) : Origin owners parameters body (.use x)
  | owner {x : String} (h : x ∈ owners) : Origin owners parameters body (.use x)
  | declared {x : String} (h : x ∈ Statement.boundAll body) (hp : x ∉ parameters) :
      Origin owners parameters body (.binding x)
  | member {x : String} : Origin owners parameters body (.object x)

section
variable {owners parameters : List String} {whole : List Statement}

theorem allows_origin (ho : b.defaultPage.toList ++ b.uses ⊆ owners)
    (hr : Origin owners parameters whole (.use p.root)) :
    Allows (Origin owners parameters whole) b p where
  given x hx := .refused (not_bindable_givenNames x hx)
  members _ _ := .member
  row := .refused (not_bindable_givenNames "$row" (by simp [givenNames]))
  root := ⟨hr, .member⟩
  owners n hn := ⟨.owner (ho hn), fun _ => .member⟩

theorem written_of_mem {s : Statement} (hs : s ∈ Statement.flattenAll whole) {x : String}
    (hx : x ∈ s.written) : Origin owners parameters whole (.use x) :=
  .written (List.mem_flatMap.2 ⟨s, hs, hx⟩)

theorem allowsStatement_origin {s : Statement} (hs : s ∈ Statement.flattenAll whole) :
    AllowsStatement (Origin owners parameters whole) b p s where
  names n hn := written_of_mem hs (by simp [Statement.written, hn])
  objects := ⟨fun _ _ _ _ _ => .member, fun _ _ _ _ _ => .member, fun _ _ _ _ _ _ => .member⟩
  lone n hn _ := written_of_mem hs (by simp [Statement.written, hn])
  locals x hx := by
    have := mem_localNames.2 (.inl ⟨s, hs, hx⟩)
    exact ⟨.own this, .own this⟩
  globals x hx := ⟨.global (List.mem_flatMap.2 ⟨s, hs, hx⟩), .member⟩

theorem origin_of_beyond {ahead : List Code.Statement} {o : Occurrence}
    (ha : AheadOnly (Origin owners parameters whole) ahead)
    (h : Beyond (Origin owners parameters whole) ahead o) : Origin owners parameters whole o := by
  rcases h with h | ⟨x, hx, rfl⟩
  · exact h
  · obtain ⟨c, hc, hx⟩ := List.mem_flatMap.1 hx
    obtain ⟨n, e, rfl, -⟩ := ha c hc
    rw [List.mem_singleton.1 hx]
    exact .refused (not_bindable_readName n)

theorem origin_page : Origin owners parameters whole (.use "page") :=
  .refused (not_bindable_runnerNames "page" (by simp [runnerNames]))

theorem origin_frame {k : Nat} (h : k < frameCount whole) {o : Occurrence}
    (ho : o.name = frameName (k + 1)) : Origin owners parameters whole o :=
  .own (ho ▸ mem_localNames.2 (.inr (.inl ⟨k + 1, Nat.succ_pos k, h, rfl⟩)))

section
variable (hh : ∀ x ∈ Statement.boundAll whole, x ∈ parameters → x ∈ b.hoisted)
include hh

theorem origin_shape {frames : Nat} (hs : .step line s ∈ Statement.flattenAll whole)
    (hf : s.entersFrame = true → frames < frameCount whole)
    (h : StepShape (Origin owners parameters whole) b.hoisted frames s code) :
    ∀ o ∈ Code.occurrencesIn code, Origin owners parameters whole o := by
  intro o ho
  obtain ⟨c, hc, hoc⟩ := Code.mem_occurrencesIn.1 ho
  cases h with
  | plain _ _ hplain =>
    obtain ⟨e, rfl | ⟨rfl, -⟩, he⟩ := hplain c hc
    · exact he o hoc
    · rcases List.mem_cons.1 hoc with rfl | hoc
      · exact origin_page
      · exact he o hoc
  | frame _ henters _ he =>
    rw [List.mem_singleton.1 hc] at hoc
    rcases List.mem_cons.1 hoc with rfl | hoc
    · exact origin_frame (hf henters) rfl
    · exact he o hoc
  | @declaration x ahead e hb _ _ ha he =>
    rcases List.mem_append.1 hc with hc | hc
    · obtain ⟨n, e', rfl, he'⟩ := ha c hc
      rcases List.mem_cons.1 hoc with rfl | hoc
      · exact .refused (not_bindable_readName n)
      · exact he' o hoc
    rw [List.mem_singleton.1 hc] at hoc
    split at hoc
    · rcases List.mem_cons.1 hoc with rfl | hoc
      · exact written_of_mem hs (by simp [Statement.written, Statement.binds?, hb])
      · exact origin_of_beyond ha (he o hoc)
    · next hn =>
      rcases List.mem_cons.1 hoc with rfl | hoc
      · have hbound : x ∈ Statement.boundAll whole := by
          rw [Statement.boundAll_eq]
          exact List.mem_filterMap.2 ⟨_, hs, hb⟩
        exact .declared hbound fun hp => hn (by simpa using hh x hbound hp)
      · exact origin_of_beyond ha (he o hoc)

variable (ho : b.defaultPage.toList ++ b.uses ⊆ owners)
include ho

/-- The names in the code of a step, and the root behind it. -/
theorem origin_step (hs : .step line s ∈ Statement.flattenAll whole)
    (hf : s.entersFrame = true → p.frames < frameCount whole)
    (hr : Origin owners parameters whole (.use p.root)) (h : step b line s p = .ok (code, q)) :
    (∀ o ∈ Code.occurrencesIn code, Origin owners parameters whole o) ∧
    Origin owners parameters whole (.use q.root) := by
  refine ⟨origin_shape hh hs hf (step_shape (allows_origin ho hr) (allowsStatement_origin hs) h),
    ?_⟩
  rw [progress_step h]
  cases henters : s.entersFrame with
  | true =>
    cases s <;> cases henters
    exact origin_frame (hf rfl) rfl
  | false =>
    rcases root_after b p henters with he | ⟨-, he⟩
    · rw [he]; exact hr
    · rw [he]; exact origin_page

end

end

/-! ## Counting frames -/

section
variable {thenBody elseBody : List Statement}

theorem frameCount_step (s : Step) : frameCount [.step line s] = s.entersFrame.toNat := by
  cases hs : s.entersFrame <;>
    simp [frameCount, Statement.flattenAll, Statement.flatten, Statement.entersFrame, hs]

theorem frameCount_branch (c : Condition) :
    frameCount [.branch line c thenBody elseBody] = frameCount thenBody + frameCount elseBody := by
  simp [frameCount, Statement.flattenAll, Statement.flatten, Statement.entersFrame]

theorem frameCount_repeat (times : Expression) :
    frameCount [.repeat_ line times body] = frameCount body := by
  simp [frameCount, Statement.flattenAll, Statement.flatten, Statement.entersFrame]

theorem frameCount_forEach (item collection : String) :
    frameCount [.forEach line item collection body] = frameCount body := by
  simp [frameCount, Statement.flattenAll, Statement.flatten, Statement.entersFrame]

theorem frameCount_cons (s : Statement) (rest : List Statement) :
    frameCount (s :: rest) = frameCount [s] + frameCount rest := by
  simp [frameCount, Statement.flattenAll]

end

theorem frames_bind (p : Progress) (name : String) : (p.bind name).frames = p.frames := by
  unfold Progress.bind
  split <;> rfl

theorem frames_after (b : Setting) (p : Progress) (s : Step) :
    (p.after b s).frames = p.frames + s.entersFrame.toNat := by
  cases s with
  | declare | query => exact frames_bind ..
  | _ => rfl

/-- Behind statements, the frames that were entered in them are counted. -/
theorem Lays.frames {b : Setting} {depth : Nat} {body : List Statement} {p q : Progress}
    {code : List Code.Statement} (h : Lays b depth body p code q) :
    q.frames = p.frames + frameCount body := by
  induction h with
  | nil => rfl
  | cons _ _ ih ihrest => rw [ihrest, ih, Nat.add_assoc, ← frameCount_cons]
  | step h => rw [progress_step h, frames_after, frameCount_step]
  | branch _ _ ih =>
    rw [frameCount_branch]
    exact ih
  | choice _ _ _ ih ihelse =>
    rw [frameCount_branch, ← Nat.add_assoc, ← ih]
    exact ihelse
  | repeat_ _ ih => rwa [frameCount_repeat]
  | forEach _ ih => rwa [frames_bind, ← frameCount_forEach] at ih

/-! ## Bodies -/

section
variable {owners parameters : List String} {whole : List Statement}

/-- The names in the code of statements somewhere in a body, in front of which no more frames were
    entered, and around which no more loops stand, than there are in the body. -/
theorem Lays.origin (hh : ∀ x ∈ Statement.boundAll whole, x ∈ parameters → x ∈ b.hoisted)
    (ho : b.defaultPage.toList ++ b.uses ⊆ owners) (h : Lays b depth body p code q)
    (hs : Statement.flattenAll body ⊆ Statement.flattenAll whole)
    (hd : depth + Statement.nestingAll body ≤ Statement.nestingAll whole)
    (hf : p.frames + frameCount body ≤ frameCount whole)
    (hr : Origin owners parameters whole (.use p.root)) :
    (∀ o ∈ Code.occurrencesIn code, Origin owners parameters whole o) ∧
    Origin owners parameters whole (.use q.root) := by
  induction h with
  | nil => exact ⟨List.forall_mem_nil _, hr⟩
  | cons h _ ih ihrest =>
    have hframes := h.frames
    rw [frameCount_cons] at hf
    simp only [Statement.flattenAll, Statement.nestingAll, List.append_nil, List.append_subset,
      Nat.max_zero] at hs hd ih
    obtain ⟨hfirst, hr₁⟩ := ih hs.1 (by omega) (by omega) hr
    obtain ⟨hrest, hr₂⟩ := ihrest hs.2 (by omega) (by omega) hr₁
    rw [Code.occurrencesIn_append]
    exact ⟨List.forall_mem_append.2 ⟨hfirst, hrest⟩, hr₂⟩
  | step h =>
    rw [frameCount_step] at hf
    refine origin_step hh ho (hs List.mem_cons_self) (fun henters => ?_) hr h
    rw [henters] at hf
    exact hf
  | branch hc _ ih =>
    rw [frameCount_branch] at hf
    simp only [Statement.flattenAll, Statement.flatten, Statement.nestingAll, Statement.nesting,
      List.append_nil, List.cons_subset, Nat.max_zero] at hs hd
    have htest := only_condition (allows_origin ho hr) (allowsStatement_origin hs.1) hc
    obtain ⟨hbody, -⟩ := ih hs.2 hd hf hr
    refine ⟨fun o hm => ?_, hr⟩
    simp only [Code.occurrencesIn, Code.Statement.occurrences, List.append_nil,
      List.mem_append] at hm
    exact hm.elim (htest o) (hbody o)
  | choice hc hthen _ ih ihelse =>
    have hframes := hthen.frames
    rw [frameCount_branch] at hf
    simp only [Statement.flattenAll, Statement.flatten, Statement.nestingAll, Statement.nesting,
      List.append_nil, List.cons_subset, List.append_subset, Nat.max_zero] at hs hd
    have htest := only_condition (allows_origin ho hr) (allowsStatement_origin hs.1) hc
    obtain ⟨hthen, -⟩ := ih hs.2.1 (by omega) (by omega) hr
    obtain ⟨helse, -⟩ := ihelse hs.2.2 (by omega) (by simp only; omega) hr
    refine ⟨fun o hm => ?_, hr⟩
    simp only [Code.occurrencesIn, Code.Statement.occurrences, List.append_nil,
      List.mem_append] at hm
    exact hm.elim (htest o) (·.elim (hthen o) (helse o))
  | @repeat_ depth _ times _ p _ _ _ ih =>
    rw [frameCount_repeat] at hf
    simp only [Statement.flattenAll, Statement.flatten, Statement.nestingAll, Statement.nesting,
      List.append_nil, List.cons_subset, Nat.max_zero] at hs hd
    have htimes := only_expression (allows_origin ho hr)
      ((allowsStatement_origin (p := p) hs.1).expression times (List.mem_singleton.2 rfl))
    obtain ⟨hbody, -⟩ := ih hs.2 (by omega) hf hr
    refine ⟨fun o hm => ?_, hr⟩
    simp only [Code.occurrencesIn, Code.Statement.occurrences, List.append_nil, List.mem_cons,
      List.mem_append] at hm
    rcases hm with rfl | hm | hm
    · exact .own (mem_localNames.2 (.inr (.inr ⟨depth, by omega, rfl⟩)))
    · exact htimes o hm
    · exact hbody o hm
  | @forEach _ _ item _ _ p _ _ _ ih =>
    rw [frameCount_forEach, ← frames_bind p item] at hf
    simp only [Statement.flattenAll, Statement.flatten, Statement.nestingAll, Statement.nesting,
      List.append_nil, List.cons_subset, Nat.max_zero] at hs hd
    obtain ⟨hbody, -⟩ := ih hs.2 hd hf (by rwa [root_bind])
    refine ⟨fun o hm => ?_, hr⟩
    simp only [Code.occurrencesIn, Code.Statement.occurrences, List.append_nil, List.mem_cons] at hm
    rcases hm with rfl | rfl | hm
    · exact written_of_mem hs.1 (by simp [Statement.written, Statement.binds?])
    · exact written_of_mem hs.1 (by simp [Statement.written, Statement.names])
    · exact hbody o hm

end

/-! ## Names that the code of a body has -/

/-- The names in code include those of the code's own that statements ask for, where the frames
    behind `first` up to `last` are entered, and loops are nested so deep inside `depth` loops. -/
structure Introduces (ts : List Statement) (first last depth nesting : Nat)
    (names : List Occurrence) : Prop where
  locals : ∀ t ∈ ts, ∀ x ∈ t.locals, .binding x ∈ names
  globals : ∀ t ∈ ts, ∀ x ∈ t.globals, .use x ∈ names
  frames : ∀ k, first < k → k ≤ last → .binding (frameName k) ∈ names
  counters : ∀ k, depth ≤ k → k < depth + nesting → .binding (counterName k) ∈ names

namespace Introduces

variable {ts ts' : List Statement} {first mid last nesting nesting' : Nat}
  {names names' : List Occurrence}

theorem nil : Introduces [] first first depth 0 names where
  locals := List.forall_mem_nil _
  globals := List.forall_mem_nil _
  frames _ h₁ h₂ := absurd h₁ (Nat.not_lt.2 h₂)
  counters _ h₁ h₂ := absurd h₂ (Nat.not_lt.2 h₁)

theorem mono (h : Introduces ts first last depth nesting names) (hn : names ⊆ names') :
    Introduces ts first last depth nesting names' where
  locals t ht x hx := hn (h.locals t ht x hx)
  globals t ht x hx := hn (h.globals t ht x hx)
  frames k h₁ h₂ := hn (h.frames k h₁ h₂)
  counters k h₁ h₂ := hn (h.counters k h₁ h₂)

theorem append (h : Introduces ts first mid depth nesting names)
    (h' : Introduces ts' mid last depth nesting' names') :
    Introduces (ts ++ ts') first last depth (max nesting nesting') (names ++ names') where
  locals := List.forall_mem_append.2
    ⟨fun t ht x hx => List.mem_append_left _ (h.locals t ht x hx),
      fun t ht x hx => List.mem_append_right _ (h'.locals t ht x hx)⟩
  globals := List.forall_mem_append.2
    ⟨fun t ht x hx => List.mem_append_left _ (h.globals t ht x hx),
      fun t ht x hx => List.mem_append_right _ (h'.globals t ht x hx)⟩
  frames k h₁ h₂ := by
    by_cases hk : k ≤ mid
    · exact List.mem_append_left _ (h.frames k h₁ hk)
    · exact List.mem_append_right _ (h'.frames k (Nat.lt_of_not_le hk) h₂)
  counters k h₁ h₂ := by
    by_cases hk : k < depth + nesting
    · exact List.mem_append_left _ (h.counters k h₁ hk)
    · exact List.mem_append_right _ (h'.counters k h₁ (by omega))

theorem cons {s : Statement} (h : Introduces ts first last depth nesting names)
    (hl : ∀ x ∈ s.locals, .binding x ∈ names) (hg : ∀ x ∈ s.globals, .use x ∈ names) :
    Introduces (s :: ts) first last depth nesting names where
  locals := List.forall_mem_cons.2 ⟨hl, h.locals⟩
  globals := List.forall_mem_cons.2 ⟨hg, h.globals⟩
  frames := h.frames
  counters := h.counters

theorem counted (h : Introduces ts first last (depth + 1) nesting names)
    (hc : .binding (counterName depth) ∈ names) :
    Introduces ts first last depth (nesting + 1) names where
  locals := h.locals
  globals := h.globals
  frames := h.frames
  counters k h₁ h₂ := by
    by_cases hk : k = depth
    · rw [hk]; exact hc
    · exact h.counters k (by omega) (by omega)

end Introduces

theorem introduces_step (h : step b line s p = .ok (code, q)) (depth : Nat) :
    Introduces [.step line s] p.frames q.frames depth 0 (Code.occurrencesIn code) := by
  have hq : q.frames = p.frames + s.entersFrame.toNat := by rw [progress_step h, frames_after]
  have hown : (∀ x ∈ s.locals, .binding x ∈ Code.occurrencesIn code) ∧
      (∀ x ∈ s.globals, .use x ∈ Code.occurrencesIn code) ∧
      (s.entersFrame = true → .binding (frameName (p.frames + 1)) ∈ Code.occurrencesIn code) := by
    rw [step, gen_bind_eq_ok] at h
    obtain ⟨_, _, hp, h⟩ := h
    obtain ⟨rfl, rfl⟩ := gen_get_eq_ok.1 hp
    cases s with
    | acceptDialog | dismissDialog | log | clearStorage =>
      obtain ⟨rfl, rfl⟩ := gen_pure_eq_ok.1 h
      simp [Step.locals, Step.globals, Step.entersFrame, awaitCall, Expr.invoke]
    | switchToFrame t =>
      simp only [gen_bind_eq_ok, gen_lift_eq_ok, gen_set_eq_ok, gen_pure_eq_ok] at h
      obtain ⟨_, _, -, _, _, -, rfl, -⟩ := h
      simp [Step.locals, Step.globals]
    | _ => simp [Step.locals, Step.globals, Step.entersFrame]
  refine ⟨List.forall_mem_singleton.2 hown.1, List.forall_mem_singleton.2 hown.2.1, ?_, ?_⟩
  · intro k h₁ h₂
    cases henters : s.entersFrame with
    | true =>
      rw [henters] at hq
      obtain rfl : k = p.frames + 1 := by simp only [Bool.toNat_true] at hq; omega
      exact hown.2.2 henters
    | false =>
      rw [henters] at hq
      simp only [Bool.toNat_false] at hq
      omega
  · intro k h₁ h₂
    omega

theorem introduces_condition {c : Condition} {e : Expr} (h : condition b p line c = .ok e) :
    (∀ x ∈ c.locals, .binding x ∈ e.occurrences) ∧ ∀ x ∈ c.globals, .use x ∈ e.occurrences := by
  cases c with
  | state target negated state =>
    obtain ⟨element, -, h⟩ := bind_eq_ok.1 h
    cases h
    cases state with
    | focused =>
      cases negated <;> simp [Condition.locals, Condition.globals, stateTest, Expr.invoke]
    | _ => exact ⟨List.forall_mem_nil _, List.forall_mem_nil _⟩
  | comparison | truthy => exact ⟨List.forall_mem_nil _, List.forall_mem_nil _⟩

theorem Lays.introduces (h : Lays b depth body p code q) :
    Introduces (Statement.flattenAll body) p.frames q.frames depth (Statement.nestingAll body)
      (Code.occurrencesIn code) := by
  induction h with
  | nil => exact .nil
  | cons _ _ ih ihrest =>
    rw [Code.occurrencesIn_append]
    simpa [Statement.flattenAll, Statement.nestingAll] using ih.append ihrest
  | step h => exact introduces_step h _
  | branch hc _ ih =>
    obtain ⟨hl, hg⟩ := introduces_condition hc
    simp only [Statement.flattenAll, Statement.flatten, Statement.nestingAll, Statement.nesting,
      Code.occurrencesIn, Code.Statement.occurrences, List.append_nil, Nat.max_zero]
    exact (ih.mono (List.subset_append_right ..)).cons
      (fun x hx => List.mem_append_left _ (hl x hx)) fun x hx => List.mem_append_left _ (hg x hx)
  | choice hc _ _ ih ihelse =>
    obtain ⟨hl, hg⟩ := introduces_condition hc
    simp only [Statement.flattenAll, Statement.flatten, Statement.nestingAll, Statement.nesting,
      Code.occurrencesIn, Code.Statement.occurrences, List.append_nil, Nat.max_zero]
    exact ((ih.append ihelse).mono (List.subset_append_right ..)).cons
      (fun x hx => List.mem_append_left _ (hl x hx)) fun x hx => List.mem_append_left _ (hg x hx)
  | repeat_ _ ih =>
    simp only [Statement.flattenAll, Statement.flatten, Statement.nestingAll, Statement.nesting,
      Code.occurrencesIn, Code.Statement.occurrences, List.append_nil, Nat.max_zero]
    refine ((ih.mono fun o ho => ?_).counted (List.mem_cons_self ..)).cons
      (List.forall_mem_nil _) (List.forall_mem_nil _)
    exact List.mem_cons_of_mem _ (List.mem_append_right _ ho)
  | forEach _ ih =>
    rw [frames_bind] at ih
    simp only [Statement.flattenAll, Statement.flatten, Statement.nestingAll, Statement.nesting,
      Code.occurrencesIn, Code.Statement.occurrences, List.append_nil, Nat.max_zero]
    refine (ih.mono fun o ho => ?_).cons (List.forall_mem_nil _) (List.forall_mem_nil _)
    exact List.mem_cons_of_mem _ (List.mem_cons_of_mem _ ho)

/-- The names in the code of a whole body, in front of which the names `bound` are declared. -/
theorem names_of_body {all : Project} {o : BodyOwner} {bound : List String}
    {statementList : List Statement} (h : Generate.body all o bound statementList = .ok code) :
    (∀ n ∈ Code.occurrencesIn code,
      Origin (o.defaultPage.toList ++ o.uses) bound statementList n) ∧
    Introduces (Statement.flattenAll statementList) 0 (frameCount statementList) 0
      (Statement.nestingAll statementList) (Code.occurrencesIn code) := by
  obtain ⟨core, q, hcore, rfl⟩ := body_cases h
  have hlays := lays_statements statementList hcore
  rw [Code.occurrencesIn_append]
  constructor
  · refine List.forall_mem_append.2 ⟨fun n hn => ?_, ?_⟩
    · obtain ⟨c, hc, hn⟩ := Code.mem_occurrencesIn.1 hn
      rw [eq_of_mem_declareLine hc] at hn
      obtain ⟨x, hx, rfl⟩ := List.mem_map.1 hn
      simp only [List.mem_filter, List.contains_eq_mem, Bool.not_eq_true',
        decide_eq_false_iff_not] at hx
      exact .declared (mem_boundAll_of_mem_hoistedNames hx.1) hx.2
    · refine (hlays.origin (fun x hx hb => mem_hoistedNames.2 (.inr (.inl ⟨hx, hb⟩)))
        (List.Subset.refl _) (List.Subset.refl _) ?_ ?_ origin_page).1
      · exact Nat.le_of_eq (Nat.zero_add _)
      · exact Nat.le_of_eq (Nat.zero_add _)
  · have hall := hlays.introduces
    rw [hlays.frames] at hall
    simpa [Progress.start] using hall.mono (List.subset_append_right ..)

/-! ## Tests -/

/-- How the code of a body has the names of the parameters that are declared in front of it. -/
structure Parameterized (owners parameters : List String) (body : List Statement)
    (code : List Code.Statement) : Prop where
  /-- The parameters have different names, all of which can be bound. -/
  distinct : parameters.Nodup
  bindable : ∀ x ∈ parameters, Combination.Bindable x
  /-- Of the names of the code's own, a parameter can have those that the code binds and those that
      it takes from the surroundings, and no others. -/
  own : ∀ x ∈ parameters, x ∈ ownNames body ↔ x ∈ localNames body ∨ x ∈ globalNames body
  binds : ∀ x ∈ localNames body, .binding x ∈ Code.occurrencesIn code
  takes : ∀ x ∈ globalNames body, .use x ∈ Code.occurrencesIn code
  /-- A parameter is bound once more, so that its name means something else, exactly if the name is
      one that the code binds of its own accord. -/
  rebound : ∀ x ∈ parameters, .binding x ∈ Code.occurrencesIn code ↔ x ∈ localNames body
  /-- A parameter whose name is none of the code's own is used only where the script writes it, or
      as a page whose members are meant by names alone. -/
  used : ∀ x ∈ parameters, x ∉ ownNames body → .use x ∈ Code.occurrencesIn code →
    x ∈ writtenNames body ∨ x ∈ owners

theorem parameterized_of_body {all : Project} {o : BodyOwner} {parameters : List String}
    {statementList : List Statement} (hn : parameters.Nodup)
    (hp : ∀ x ∈ parameters, Combination.Bindable x)
    (h : Generate.body all o parameters statementList = .ok code) :
    Parameterized (o.defaultPage.toList ++ o.uses) parameters statementList code := by
  obtain ⟨horigin, hall⟩ := names_of_body h
  have hown : ∀ x ∈ parameters, x ∈ ownNames statementList ↔
      x ∈ localNames statementList ∨ x ∈ globalNames statementList := by
    intro x hx
    have hrunner : x ∉ runnerNames := fun hr => not_bindable_runnerNames x hr (hp x hx)
    simp [ownNames, hrunner]
  have hbinds : ∀ x ∈ localNames statementList, .binding x ∈ Code.occurrencesIn code := by
    intro x hx
    rcases mem_localNames.1 hx with ⟨t, ht, hx⟩ | ⟨k, h₁, h₂, rfl⟩ | ⟨k, hk, rfl⟩
    · exact hall.locals t ht x hx
    · exact hall.frames k h₁ h₂
    · exact hall.counters k (Nat.zero_le k) (by omega)
  refine ⟨hn, hp, hown, hbinds, ?_, fun x hx => ⟨fun hb => ?_, hbinds x⟩, fun x hx ho hu => ?_⟩
  · intro x hx
    obtain ⟨t, ht, hx⟩ := List.mem_flatMap.1 hx
    exact hall.globals t ht x hx
  · cases horigin _ hb with
    | refused hr => exact absurd (hp x hx) hr
    | own hl => exact hl
    | declared _ hd => exact absurd hx hd
  · rw [hown x hx, not_or] at ho
    cases horigin _ hu with
    | refused hr => exact absurd (hp x hx) hr
    | own hl => exact absurd hl ho.1
    | global hg => exact absurd hg ho.2
    | written hw => exact .inl hw
    | owner hw => exact .inr hw

theorem exists_combination {combinations : List Combination}
    {v : Option String × List (String × ParamValue)} (h : v ∈ variants combinations) :
    v.2 = [] ∨ ∃ c ∈ combinations, v.2 = c.values := by
  unfold variants at h
  split at h
  · rw [List.mem_singleton.1 h]
    exact .inl rfl
  · obtain ⟨⟨c, label⟩, hc, rfl⟩ := List.mem_map.1 h
    have hmem : c ∈ (labelsFrom [] 1 combinations).map (·.1) := List.mem_map.2 ⟨_, hc, rfl⟩
    rw [values_labelsFrom] at hmem
    exact .inr ⟨c, hmem, rfl⟩

/-- **Parameters of tests**: every test of a file that is generated for parameters from a text
    declares the parameters of one combination, and goes on with the code of a scenario, which uses
    their names as scripts do, unless they are among its own. -/
theorem parameterized_of_generate {text : String} {combinations : List Combination}
    {context : Project} {selection : Option Selection} {p : Program} {g : Generated}
    (hr : Combination.readAll text = .ok combinations)
    (hg : generate context ⟨selection, combinations⟩ p = .ok g) {x : Code.Suite}
    (hx : x ∈ g.file.suites) {t : Code.Test} (ht : t ∈ x.tests) :
    ∃ f ∈ p.features, ∃ s ∈ f.scenarios, ∃ v ∈ variants combinations, ∃ code,
      x.name = f.name ∧ t.name = testName s v.1 ∧
      t.body = bindings (hoistedNames (v.2.map (·.1)) s.body) v.2 ++ code ∧
      Parameterized (f.uses.map (·.name)) (v.2.map (·.1)) s.body code := by
  obtain ⟨_, _, suites, -, -, hsuites, -, hfile, -⟩ := generate_cases hg
  rw [hfile] at hx
  obtain ⟨made, hmade, rfl⟩ := List.mem_map.1 hx
  obtain ⟨⟨f, scenarios⟩, hchosen, hsuite⟩ := exists_of_mem_mapM hsuites hmade
  obtain ⟨hf, hscenarios⟩ := mem_of_mem_selectedScenarios hchosen
  obtain ⟨hooks, -, hsuite⟩ := bind_eq_ok.1 hsuite
  obtain ⟨groups, hgroups, hsuite⟩ := bind_eq_ok.1 hsuite
  cases hsuite
  obtain ⟨y, hy, rfl⟩ := List.mem_map.1 ht
  obtain ⟨group, hgroup, hy⟩ := List.mem_flatten.1 hy
  obtain ⟨s, hs, htests⟩ := exists_of_mem_mapM hgroups hgroup
  obtain ⟨v, hv, htest⟩ := exists_of_mem_mapM htests hy
  obtain ⟨full, hfull, htest⟩ := bind_eq_ok.1 htest
  cases htest
  obtain ⟨code, hcode, hfull⟩ := bind_eq_ok.1 hfull
  cases hfull
  have hnames : (v.2.map (·.1)).Nodup ∧ ∀ n ∈ v.2.map (·.1), Combination.Bindable n := by
    rcases exists_combination hv with he | ⟨c, hc, he⟩
    · rw [he]
      exact ⟨List.nodup_nil, List.forall_mem_nil _⟩
    · rw [he]
      exact Combination.names_of_readAll hr c hc
  exact ⟨f, hf, s, hscenarios s hs, v, hv, code, rfl, rfl, rfl,
    parameterized_of_body hnames.1 hnames.2 hcode⟩

/-- Parameters that are called like names of the code's own. -/
def shadowingParameters : String :=
  "[\x7b\"console\": \"a\", \"frame1\": \"b\", \"i0\": \"c\", \"user\": \"d\"\x7d]"

/-- A scenario whose code takes an object from its surroundings, enters a frame and counts. -/
def framedLog : Program :=
  (parseText "FEATURE Audit \x7b SCENARIO \"logs\" \x7b LOG user
    SWITCH TO FRAME \"f\" REPEAT 2 TIMES \x7b LOG i0 \x7d \x7d \x7d").program

-- the constant for the frame and the counter of the loop hide parameters
theorem parameterized_of_generate_framedLog : ∃ combinations g,
    Combination.readAll shadowingParameters = .ok combinations ∧
    generate .empty ⟨none, combinations⟩ framedLog = .ok g ∧
    ∃ x ∈ g.file.suites, ∃ t ∈ x.tests,
      (∃ f ∈ framedLog.features, ∃ s ∈ f.scenarios, ∃ v ∈ variants combinations, ∃ code,
        x.name = f.name ∧ t.name = testName s v.1 ∧
        t.body = bindings (hoistedNames (v.2.map (·.1)) s.body) v.2 ++ code ∧
        Parameterized (f.uses.map (·.name)) (v.2.map (·.1)) s.body code) ∧
      (Code.occurrencesIn t.body).count (.binding "console") = 1 ∧
      (Code.occurrencesIn t.body).count (.use "console") = 2 ∧
      (Code.occurrencesIn t.body).count (.binding "frame1") = 2 ∧
      (Code.occurrencesIn t.body).count (.binding "i0") = 2 ∧
      (Code.occurrencesIn t.body).count (.binding "user") = 1 := by
  have hrun : (Combination.readAll shadowingParameters).toOption.any (fun combinations =>
      (generate .empty ⟨none, combinations⟩ framedLog).toOption.any fun g =>
        g.file.suites.any fun x => x.tests.any fun t => decide (
          (Code.occurrencesIn t.body).count (.binding "console") = 1 ∧
          (Code.occurrencesIn t.body).count (.use "console") = 2 ∧
          (Code.occurrencesIn t.body).count (.binding "frame1") = 2 ∧
          (Code.occurrencesIn t.body).count (.binding "i0") = 2 ∧
          (Code.occurrencesIn t.body).count (.binding "user") = 1)) = true := by
    decide +kernel
  obtain ⟨combinations, hr, hrun⟩ := (Option.any_eq_true _ _).1 hrun
  obtain ⟨g, hg, hrun⟩ := (Option.any_eq_true _ _).1 hrun
  obtain ⟨x, hx, hrun⟩ := List.any_eq_true.1 hrun
  obtain ⟨t, ht, hrun⟩ := List.any_eq_true.1 hrun
  have hr := toOption_eq_some.1 hr
  have hg := toOption_eq_some.1 hg
  exact ⟨combinations, g, hr, hg, x, hx, t, ht, parameterized_of_generate hr hg hx ht,
    of_decide_eq_true hrun⟩

end Generate

end UiScenario
