import UiScenario.Grammar.Parser

/-!
What parsers give. `Yields I p q` says that a parser, started where `I` holds, ends where `I` holds,
by a failure or with a value that has `q`. There is a rule for each way to build a parser; the rules
for single tokens are about the invariant `Ahead T`, that the tokens ahead have the property `T`.
-/

namespace UiScenario.Grammar.Parser

/-- The end of a run: the invariant holds, and a value has the property. -/
def Ends {α : Type} (I : State → Prop) (q : α → Prop) : EStateM.Result SyntaxError State α → Prop
  | .ok a s => q a ∧ I s
  | .error _ s => I s

/-- A parser keeps an invariant of the state, and its values have a property. -/
def Yields {α : Type} (I : State → Prop) (p : Parser α) (q : α → Prop) : Prop :=
  ∀ s, I s → Ends I q (p s)

/-! ## Building parsers -/

section
variable {α β : Type} {I : State → Prop} {p : Parser α} {q : α → Prop} {r : β → Prop}
  {f : α → Parser β} {q' : α → Prop}

theorem Ends.mono {x : EStateM.Result SyntaxError State α} (h : Ends I q x) (hq : ∀ a, q a → q' a) :
    Ends I q' x := by
  cases x with
  | ok a s => exact ⟨hq a h.1, h.2⟩
  | error e s => exact h

theorem ends_bind {s : State} (h : Ends I q (p s)) (hf : ∀ a, q a → Yields I (f a) r) :
    Ends I r ((p >>= f) s) := by
  show Ends I r (EStateM.bind p f s)
  unfold EStateM.bind
  cases hp : p s with
  | ok a s' => rw [hp] at h; exact hf a h.1 s' h.2
  | error e s' => rw [hp] at h; exact h

theorem Yields.mono (h : Yields I p q) (hq : ∀ a, q a → q' a) : Yields I p q' :=
  fun s hs => (h s hs).mono hq

theorem yields_pure {a : α} (h : q a) : Yields I (pure a) q :=
  fun _ hs => ⟨h, hs⟩

theorem yields_throw {e : SyntaxError} : Yields I (throw e : Parser α) q :=
  fun _ hs => hs

theorem yields_fail {expected : String} : Yields I (fail expected : Parser α) q :=
  fun _ hs => hs

theorem Yields.bind (h : Yields I p q) (hf : ∀ a, q a → Yields I (f a) r) : Yields I (p >>= f) r :=
  fun s hs => ends_bind (h s hs) hf

theorem Yields.map {f : α → β} (h : Yields I p q) (hf : ∀ a, q a → r (f a)) :
    Yields I (f <$> p) r :=
  h.bind fun a ha => yields_pure (hf a ha)

theorem yields_ite {c : Prop} [Decidable c] {p' : Parser α} (h : c → Yields I p q)
    (h' : ¬c → Yields I p' q) : Yields I (if c then p else p') q := by
  split
  · next hc => exact h hc
  · next hc => exact h' hc

theorem yields_modify {f : State → State} (h : ∀ s, I s → I (f s)) :
    Yields I (modify f) fun _ => True :=
  fun s hs => ⟨True.intro, h s hs⟩

theorem yields_get {f : State → Parser β} (h : ∀ s, Yields I (f s) r) : Yields I (get >>= f) r :=
  fun s hs => h s s hs

theorem attempt_eq (p : Parser α) (s : State) :
    attempt p s = match p s with
      | .ok a s' => .ok (.ok a) s'
      | .error e s' => .ok (.error e) s' := by
  show EStateM.tryCatch (EStateM.map Except.ok p) _ s = _
  unfold EStateM.tryCatch EStateM.map
  cases p s <;> rfl

section
variable {k : SyntaxError → Parser α} {s s' : State}

theorem tryCatch_of_ok {a : α} (h : p s = .ok a s') :
    (tryCatch p k : Parser α) s = .ok a s' := by
  show EStateM.tryCatch p k s = _
  unfold EStateM.tryCatch
  rw [h]

theorem tryCatch_of_error {e : SyntaxError} (h : p s = .error e s') :
    (tryCatch p k : Parser α) s = k e s' := by
  show EStateM.tryCatch p k s = _
  unfold EStateM.tryCatch
  rw [h]
  rfl

end

theorem yields_tryCatch {k : SyntaxError → Parser α} (h : Yields I p q)
    (hk : ∀ e, Yields I (k e) q) : Yields I (tryCatch p k) q := by
  intro s hs
  have hp := h s hs
  cases hr : p s with
  | ok a s' => rw [tryCatch_of_ok hr, ← hr]; exact hp
  | error e s' => rw [hr] at hp; rw [tryCatch_of_error hr]; exact hk e s' hp

theorem yields_attempt (h : Yields I p q) :
    Yields I (attempt p) fun x => ∀ a, x = .ok a → q a := by
  intro s hs
  have hp := h s hs
  rw [attempt_eq]
  cases hr : p s with
  | ok a s' => rw [hr] at hp; exact ⟨by rintro _ ⟨⟩; exact hp.1, hp.2⟩
  | error e s' => rw [hr] at hp; exact ⟨by simp, hp⟩

/-! ## Repetition -/

theorem yields_rounds {p : Parser (Option α)} (h : Yields I p fun x => ∀ a, x = some a → q a) :
    ∀ n, Yields I (rounds p n) fun xs => ∀ a ∈ xs, q a
  | 0 => yields_pure (by simp)
  | n + 1 => by
    refine Yields.bind h fun x hx => ?_
    cases x with
    | none => exact yields_pure (by simp)
    | some a =>
      refine (yields_rounds h n).bind fun xs hxs => yields_pure ?_
      simpa using ⟨hx a rfl, hxs⟩

theorem yields_many {p : Parser (Option α)} (h : Yields I p fun x => ∀ a, x = some a → q a) :
    Yields I (many p) fun xs => ∀ a ∈ xs, q a :=
  fun s hs => yields_rounds h _ s hs

end

/-! ## Tokens -/

/-- The tokens ahead, and the end of the script, have a property. -/
def Ahead (T : Token → Prop) (s : State) : Prop :=
  T s.last ∧ ∀ t ∈ s.ahead, T t

section
variable {α β : Type} {T : Token → Prop} {p : Parser α} {q : α → Prop} {s : State}
  {kind : TokenKind} {expected : String}

theorem Ahead.current (h : Ahead T s) : T s.current := by
  unfold State.current
  cases hs : s.ahead with
  | nil => exact h.1
  | cons t ts => exact h.2 t (by simp [hs])

/-- Of the tokens ahead, some may be left out. -/
theorem Ahead.of_subset (h : Ahead T s) {ts : List Token} (hts : ts ⊆ s.ahead) :
    Ahead T { s with ahead := ts } :=
  ⟨h.1, fun t ht => h.2 t (hts ht)⟩

theorem Ahead.tail (h : Ahead T s) : Ahead T { s with ahead := s.ahead.tail } :=
  h.of_subset (List.tail_sublist _).subset

theorem yields_current : Yields (Ahead T) current T :=
  fun _ hs => ⟨hs.current, hs⟩

theorem yields_ahead : Yields (Ahead T) ahead fun ts => ∀ t ∈ ts, T t :=
  fun _ hs => ⟨hs.2, hs⟩

theorem yields_advance : Yields (Ahead T) advance T :=
  fun _ hs => ⟨hs.current, hs.tail⟩

theorem yields_check : Yields (Ahead T) (check kind) fun _ => True :=
  fun _ hs => ⟨trivial, hs⟩

theorem yields_eat : Yields (Ahead T) (eat kind) fun _ => True :=
  yields_check.bind fun _ _ => yields_ite
    (fun _ => yields_advance.bind fun _ _ => yields_pure trivial) fun _ => yields_pure trivial

theorem yields_option {f : Bool → Parser α} (ht : Yields (Ahead T) (f true) q)
    (hf : Yields (Ahead T) (f false) q) : Yields (Ahead T) (eat kind >>= f) q :=
  yields_eat.bind fun x _ => by cases x <;> assumption

theorem yields_expect : Yields (Ahead T) (expect kind expected) T :=
  yields_check.bind fun _ _ => yields_ite (fun _ => yields_advance) fun _ => yields_fail

theorem isBareName_current (h : atBareName s.ahead = true) : s.current.kind.isBareName = true := by
  unfold State.current
  cases hs : s.ahead with
  | nil => simp [hs, atBareName] at h
  | cons t ts => simpa [hs, atBareName] using h

theorem yields_name :
    Yields (Ahead T) (name expected) fun n => ∃ t, T t ∧ t.isWord = true ∧ t.value = n := by
  intro s hs
  show Ends _ _ ((if s.current.isWord = true then _ else _ : Parser String) s)
  split
  · next h => exact ⟨⟨s.current, hs.current, h, rfl⟩, hs.tail⟩
  · exact hs

/-- A name that is bound is the value of a word that can stand alone. -/
theorem yields_binding :
    Yields (Ahead T) (binding expected) fun n =>
      ∃ t, T t ∧ t.kind.isBareName = true ∧ t.value = n := by
  intro s hs
  show Ends _ _ ((if atBareName s.ahead = true then _ else _ : Parser String) s)
  split
  · next h => exact ⟨⟨s.current, hs.current, isBareName_current h, rfl⟩, hs.tail⟩
  · exact hs

theorem yields_after? (h : Yields (Ahead T) p q) :
    Yields (Ahead T) (after? kind p) fun x => ∀ a, x = some a → q a :=
  yields_eat.bind fun _ _ => yields_ite
    (fun _ => h.bind fun a ha => yields_pure (by rintro _ ⟨⟩; exact ha))
    fun _ => yields_pure (by simp)

theorem yields_commaSeparated (h : Yields (Ahead T) p q) :
    Yields (Ahead T) (commaSeparated p) fun xs => ∀ a ∈ xs, q a :=
  h.bind fun a ha => (yields_many (yields_after? h)).bind fun xs hxs =>
    yields_pure (by simpa using ⟨ha, hxs⟩)

/-! ## Recovery -/

theorem yields_report {e : SyntaxError} : Yields (Ahead T) (report e) fun _ => True :=
  yields_modify fun _ hs => hs

theorem yields_setOpened {opened : Option Opened} :
    Yields (Ahead T) (setOpened opened) fun _ => True :=
  yields_modify fun _ hs => hs

theorem yields_reportUnclosed {block : String} {opening : Token} :
    Yields (Ahead T) (reportUnclosed block opening) fun _ => True :=
  yields_modify fun s hs => by split <;> exact hs

theorem yields_skip {f : List Token → List Token} (hf : ∀ ts, f ts ⊆ ts) :
    Yields (Ahead T) (skip f) fun _ => True :=
  yields_modify fun s hs => hs.of_subset (hf s.ahead)

theorem skipTo_subset (isStart : List Token → Bool) (line depth : Nat) (ts : List Token) :
    skipTo isStart line depth ts ⊆ ts := by
  fun_induction skipTo isStart line depth ts with
  | case1 => simp
  | case2 | case4 | case6 => simp
  | case3 _ _ _ _ _ ih | case5 _ _ _ _ _ _ _ ih | case7 _ _ _ _ _ _ _ ih =>
    exact fun t ht => List.mem_cons_of_mem _ (ih ht)

theorem skipDeclaration_subset (ts : List Token) : skipDeclaration ts ⊆ ts :=
  fun _ ht => List.mem_of_mem_drop ((List.dropWhile_sublist _).mem ht)

theorem yields_recovering {isStart : List Token → Bool} (h : Yields (Ahead T) p q) :
    Yields (Ahead T) (recovering isStart p) fun x => ∀ a, x = some a → q a := by
  refine yields_current.bind fun t _ => (yields_attempt h).bind fun x hx => ?_
  cases x with
  | ok a => exact yields_pure (by rintro _ ⟨⟩; exact hx a rfl)
  | error e =>
    exact yields_report.bind fun _ _ =>
      (yields_skip (skipTo_subset isStart t.line 0)).bind fun _ _ => yields_pure (by simp)

theorem yields_atBlockEnd : Yields (Ahead T) atBlockEnd fun _ => True := by
  refine yields_ahead.bind fun ts _ => ?_
  cases ts <;> exact yields_pure trivial

theorem yields_braced {block : String} (h : Yields (Ahead T) p q) :
    Yields (Ahead T) (braced block expected p) fun xs => ∀ a ∈ xs, q a := by
  refine yields_expect.bind fun opening _ => yields_many ?_
  refine yields_eat.bind fun _ _ => yields_ite (fun _ => yields_pure (by simp)) fun _ => ?_
  refine yields_atBlockEnd.bind fun _ _ => yields_ite
    (fun _ => yields_reportUnclosed.bind fun _ _ => yields_pure (by simp)) fun _ => ?_
  exact h.bind fun a ha => yields_pure (by rintro _ ⟨⟩; exact ha)

end

end UiScenario.Grammar.Parser
