import Mathlib.Data.List.Infix
import UiScenario.Proofs.Reading

/-!
Reading the same tokens twice. `Parallel N c p q` says that the parser `q` does with at most `N`
tokens what `p` does, and that it does so, as long as nothing is wrong, also when more tokens
follow. There is a rule for each way to build a parser.

* What bounds the rounds and the nesting of blocks may differ on both sides, if it is not below `N`;
* reading goes onward: it ends at a later place of the same tokens, and where `c` says so it has
  read a token.
-/

namespace UiScenario.Grammar

/-- The same place with more tokens behind those ahead, and with another end of the script. -/
def State.longer (s : State) (behind : List Token) (last : Token) : State :=
  { s with ahead := s.ahead ++ behind, last }

/-- The same place with another open statement. -/
def State.reopened (s : State) (opened : Option Opened) : State :=
  { s with opened }

theorem current_longer {s : State} (h : s.ahead ≠ []) (behind : List Token) (last : Token) :
    (s.longer behind last).current = s.current := by
  cases s with
  | mk ahead =>
    cases ahead with
    | nil => exact absurd rfl h
    | cons t ts => rfl

/-! ## The way of reading -/

/-- A later place of the same tokens. An unclosed block is noted with a fault only. -/
structure Onward (s s' : State) : Prop where
  ahead : s'.ahead <:+ s.ahead
  last : s'.last = s.last
  errors : s.errors <+: s'.errors
  quiet : s'.errors = s.errors → s.unclosedReported = false → s'.unclosedReported = false

/-- Nothing is noted on the way. -/
structure Clean (s s' : State) : Prop where
  flag : s.unclosedReported = false
  errors : s'.errors = s.errors

/-- There are fewer than `N` tokens in front of the end of the script. -/
structure Fits (N : Nat) (s : State) : Prop where
  length : s.ahead.length < N
  last : s.last.kind = .eof

/-- Tokens with a closing brace at their end. -/
def Closed (ts : List Token) : Prop :=
  ∃ us t, ts = us ++ [t] ∧ t.kind = .rbrace

section
variable {s s' s'' : State} {N M : Nat}

theorem Onward.refl (s : State) : Onward s s :=
  ⟨List.suffix_refl _, rfl, List.prefix_refl _, fun _ h => h⟩

theorem Onward.length (h : Onward s s') : s'.ahead.length ≤ s.ahead.length :=
  h.ahead.length_le

theorem Onward.clean_left (h : Onward s s') (h' : Onward s' s'') (hc : Clean s s'') :
    Clean s s' := by
  refine ⟨hc.flag, ?_⟩
  have hp := h'.errors
  rw [hc.errors] at hp
  exact (h.errors.eq_of_length_le hp.length_le).symm

theorem Onward.clean_right (h : Onward s s') (h' : Onward s' s'') (hc : Clean s s'') :
    Clean s' s'' := by
  have hl := h.clean_left h' hc
  exact ⟨h.quiet hl.errors hl.flag, by rw [hc.errors, hl.errors]⟩

theorem Onward.trans (h : Onward s s') (h' : Onward s' s'') : Onward s s'' := by
  refine ⟨h'.ahead.trans h.ahead, h'.last.trans h.last, h.errors.trans h'.errors, fun he hf => ?_⟩
  have hc : Clean s s'' := ⟨hf, he⟩
  exact h'.quiet (h.clean_right h' hc).errors (h.clean_right h' hc).flag

/-- If all tokens were read before, one was. -/
theorem Onward.shorter (h : Onward s s') (h' : Onward s' s'') (hne : s.ahead ≠ [])
    (hl : s'.ahead ≠ [] → s''.ahead.length < s'.ahead.length) :
    s''.ahead.length < s.ahead.length := by
  by_cases he : s'.ahead = []
  · have hnil : s''.ahead = [] := List.suffix_nil.1 (he ▸ h'.ahead)
    rw [hnil]
    exact List.length_pos_of_ne_nil hne
  · exact (hl he).trans_le h.length

theorem Fits.onward (h : Fits N s) (ho : Onward s s') : Fits N s' :=
  ⟨ho.length.trans_lt h.length, by rw [ho.last]; exact h.last⟩

/-- Behind a token that was read there is room for one less. -/
theorem Fits.shorter (h : Fits (N + 1) s) (ho : Onward s s')
    (hl : s'.ahead.length < s.ahead.length) : Fits N s' :=
  ⟨by have := h.length; omega, (h.onward ho).last⟩

theorem Fits.mono (h : Fits M s) (hM : M ≤ N) : Fits N s :=
  ⟨h.length.trans_le hM, h.last⟩

theorem Closed.ne_nil {ts : List Token} (h : Closed ts) : ts ≠ [] := by
  obtain ⟨us, t, rfl, -⟩ := h
  simp

theorem Closed.of_suffix {ts us : List Token} (h : Closed ts) (hs : us <:+ ts) (hu : us ≠ []) :
    Closed us := by
  obtain ⟨vs, t, rfl, ht⟩ := h
  obtain ⟨ws, hw⟩ := hs
  obtain ⟨us, t', rfl⟩ := List.eq_nil_or_concat' us |>.resolve_left hu
  rw [← List.append_assoc] at hw
  obtain ⟨-, he⟩ := List.append_inj' hw rfl
  rw [List.singleton_inj.1 he]
  exact ⟨us, t, rfl, ht⟩

theorem Closed.of_append {ts : List Token} (us : List Token) (h : Closed ts) :
    Closed (us ++ ts) := by
  obtain ⟨vs, t, rfl, ht⟩ := h
  exact ⟨us ++ vs, t, by simp, ht⟩

end

/-- What a test of the tokens ahead finds does not change when tokens follow behind a closing brace.
    The brace need not count if it is the first token, where `c` says that this token is read in any
    case. -/
def Lookahead {β : Type} (c : Bool) (g : List Token → β) : Prop :=
  ∀ ts behind, Closed ts → (c = true → 1 < ts.length) → g (ts ++ behind) = g ts

namespace Parser

/-- The parser `q` does what `p` does, also with more tokens; reading goes onward. -/
structure Parallel {α : Type} (N : Nat) (c : Bool) (p q : Parser α) : Prop where
  onward : ∀ s, Fits N s → Ends (Onward s) (fun _ => True) (p s)
  reads : c = true → ∀ s a s', Fits N s → s.ahead ≠ [] → p s = .ok a s' →
    s'.ahead.length < s.ahead.length
  /-- No statement is left open. -/
  opened : ∀ s a s', Fits N s → p s = .ok a s' → Clean s s' → s.opened = none → s'.opened = none
  same : ∀ s, Fits N s → q s = p s
  /-- What follows behind the tokens does not matter, as long as some of them are left. -/
  longer : ∀ s a s', Fits N s → p s = .ok a s' → Clean s s' → Closed s.ahead → s'.ahead ≠ [] →
    ∀ behind last, q (s.longer behind last) = .ok a (s'.longer behind last)

/-! ## Building parsers -/

section
variable {α β : Type} {N M : Nat} {c d : Bool} {p q : Parser α} {k k' : α → Parser β}
  {s s' : State} {a : α} {e : SyntaxError} {j : α → β}

theorem parser_bind_eq_ok {s'' : State} {b : β} :
    (p >>= k) s = .ok b s'' ↔ ∃ a s', p s = .ok a s' ∧ k a s' = .ok b s'' := by
  show EStateM.bind p k s = _ ↔ _
  unfold EStateM.bind
  cases p s <;> simp

theorem bind_of_ok (h : p s = .ok a s') : (p >>= k) s = k a s' := by
  show EStateM.bind p k s = _
  rw [EStateM.bind, h]

theorem bind_of_error (h : p s = .error e s') : (p >>= k) s = .error e s' := by
  show EStateM.bind p k s = _
  rw [EStateM.bind, h]

theorem Parallel.onward_ok (h : Parallel N c p q) (hs : Fits N s) (hp : p s = .ok a s') :
    Onward s s' := by
  have := h.onward s hs
  rw [hp] at this
  exact this.2

theorem Parallel.onward_error (h : Parallel N c p q) (hs : Fits N s) (hp : p s = .error e s') :
    Onward s s' := by
  have := h.onward s hs
  rw [hp] at this
  exact this

theorem Parallel.anti (h : Parallel N c p q) (hM : M ≤ N) : Parallel M c p q where
  onward s hs := h.onward s (hs.mono hM)
  reads hc s a s' hs := h.reads hc s a s' (hs.mono hM)
  opened s a s' hs := h.opened s a s' (hs.mono hM)
  same s hs := h.same s (hs.mono hM)
  longer s a s' hs := h.longer s a s' (hs.mono hM)

theorem Parallel.weaken (h : Parallel N c p q) : Parallel N false p q :=
  { h with reads := by rintro ⟨⟩ }

/-- The parser that goes on may agree on fewer tokens, if only that many are left. -/
theorem Parallel.bindFewer {M : α → Nat} (h : Parallel N c p q)
    (hM : ∀ s a s', Fits N s → p s = .ok a s' → Fits (M a) s')
    (hk : ∀ a, Parallel (M a) d (k a) (k' a)) : Parallel N (c || d) (p >>= k) (q >>= k') where
  onward s hs := by
    cases hp : p s with
    | error e s' =>
      rw [bind_of_error hp]
      exact h.onward_error hs hp
    | ok a s' =>
      rw [bind_of_ok hp]
      have ho := h.onward_ok hs hp
      have hr := (hk a).onward s' (hM s a s' hs hp)
      cases hq : k a s' with
      | ok b s'' => rw [hq] at hr; exact ⟨trivial, ho.trans hr.2⟩
      | error e s'' => rw [hq] at hr; exact ho.trans hr
  reads hc s b s'' hs hne hr := by
    obtain ⟨a, s', hp, hq⟩ := parser_bind_eq_ok.1 hr
    have hs' := hM s a s' hs hp
    have ho := h.onward_ok hs hp
    have ho' := (hk a).onward_ok hs' hq
    cases c with
    | true => exact ho'.length.trans_lt (h.reads rfl s a s' hs hne hp)
    | false => exact ho.shorter ho' hne fun he => (hk a).reads hc s' b s'' hs' he hq
  opened s b s'' hs hr hc hn := by
    obtain ⟨a, s', hp, hq⟩ := parser_bind_eq_ok.1 hr
    have hs' := hM s a s' hs hp
    have ho := h.onward_ok hs hp
    have ho' := (hk a).onward_ok hs' hq
    exact (hk a).opened s' b s'' hs' hq (ho.clean_right ho' hc)
      (h.opened s a s' hs hp (ho.clean_left ho' hc) hn)
  same s hs := by
    have hr := h.same s hs
    cases hp : p s with
    | error e s' => rw [bind_of_error (hr.trans hp), bind_of_error hp]
    | ok a s' =>
      rw [bind_of_ok (hr.trans hp), bind_of_ok hp]
      exact (hk a).same s' (hM s a s' hs hp)
  longer s b s'' hs hr hc hcl hne behind last := by
    obtain ⟨a, s', hp, hq⟩ := parser_bind_eq_ok.1 hr
    have hs' := hM s a s' hs hp
    have ho := h.onward_ok hs hp
    have ho' := (hk a).onward_ok hs' hq
    have hne' : s'.ahead ≠ [] := fun he => hne (List.suffix_nil.1 (he ▸ ho'.ahead))
    rw [bind_of_ok (h.longer s a s' hs hp (ho.clean_left ho' hc) hcl hne' behind last)]
    exact (hk a).longer s' b s'' hs' hq (ho.clean_right ho' hc) (hcl.of_suffix ho.ahead hne') hne
      behind last

theorem Parallel.bind (h : Parallel N c p q) (hk : ∀ a, Parallel N d (k a) (k' a)) :
    Parallel N d (p >>= k) (q >>= k') := by
  have hb := h.bindFewer (fun s a s' hs hp => hs.onward (h.onward_ok hs hp)) hk
  refine { hb with reads := fun hd => hb.reads ?_ }
  rw [hd, Bool.or_true]

/-- What follows a parser that reads need not read. -/
theorem Parallel.first (h : Parallel N true p q) (hk : ∀ a, Parallel N false (k a) (k' a)) :
    Parallel N true (p >>= k) (q >>= k') :=
  h.bindFewer (fun _ _ _ hs hp => hs.onward (h.onward_ok hs hp)) hk

theorem parallel_pure : Parallel N false (pure a) (pure a) where
  onward s _ := ⟨trivial, .refl s⟩
  reads hc := by cases hc
  opened := by rintro s a s' - ⟨⟩ - h; exact h
  same _ _ := rfl
  longer := by rintro s a s' - ⟨⟩ - - - behind last; rfl

theorem Parallel.map (h : Parallel N c p q) :
    Parallel N c (p >>= fun a => pure (j a)) (q >>= fun a => pure (j a)) := by
  have hb : Parallel N (c || false) (p >>= fun a => pure (j a)) (q >>= fun a => pure (j a)) :=
    h.bindFewer (fun s a s' hs hp => hs.onward (h.onward_ok hs hp)) fun _ => parallel_pure
  rwa [Bool.or_false] at hb

theorem Parallel.give (h : Parallel N c p q) :
    Parallel N false (p >>= fun a => pure (j a)) (q >>= fun a => pure (j a)) :=
  h.map.weaken

theorem parallel_ite {t : Prop} [Decidable t] {p' q' : Parser α} (h : Parallel N c p q)
    (h' : Parallel N c p' q') : Parallel N c (if t then p else p') (if t then q else q') := by
  split
  · exact h
  · exact h'

theorem parallel_throw : Parallel N c (throw e : Parser α) (throw e) where
  onward s _ := Onward.refl s
  reads _ s a s' _ _ hp := by cases hp
  opened s a s' _ hp := by cases hp
  same _ _ := rfl
  longer s a s' _ hp := by cases hp

theorem parallel_fail {expected : String} :
    Parallel N c (fail expected : Parser α) (fail expected) where
  onward s _ := Onward.refl s
  reads _ s a s' _ _ hp := by cases hp
  opened s a s' _ hp := by cases hp
  same _ _ := rfl
  longer s a s' _ hp := by cases hp

end

/-! ## Looking ahead -/

section
variable {α β : Type} {N : Nat} {c : Bool} {p q : Parser α} {g : List Token → β}

theorem parallel_look {k m : β → Parser α} (hg : Lookahead c g)
    (hk : ∀ ts, Parallel N c (k (g ts)) (m (g ts))) :
    Parallel N c (ahead >>= fun ts => k (g ts)) (ahead >>= fun ts => m (g ts)) where
  onward s hs := (hk s.ahead).onward s hs
  reads hc s a s' hs hne hp := (hk s.ahead).reads hc s a s' hs hne hp
  opened s a s' hs hp := (hk s.ahead).opened s a s' hs hp
  same s hs := (hk s.ahead).same s hs
  longer s a s' hs hp hc hcl hne behind last := by
    have hl : c = true → 1 < s.ahead.length := by
      intro hc
      have hlt := (hk s.ahead).reads hc s a s' hs hcl.ne_nil hp
      have hpos := List.length_pos_of_ne_nil hne
      omega
    show m (g (s.ahead ++ behind)) _ = _
    rw [hg _ behind hcl hl]
    exact (hk s.ahead).longer s a s' hs hp hc hcl hne behind last

theorem parallel_test {g : List Token → Bool} {p' q' : Parser α} (hg : Lookahead c g)
    (h : Parallel N c p q) (h' : Parallel N c p' q') :
    Parallel N c (ahead >>= fun ts => if g ts = true then p else p')
      (ahead >>= fun ts => if g ts = true then q else q') :=
  parallel_look (k := fun b => if b = true then p else p')
    (m := fun b => if b = true then q else q') hg fun _ => parallel_ite h h'

theorem lookahead_startsWith (kind : TokenKind) : Lookahead c (startsWith kind) := by
  intro ts behind h _
  cases ts with
  | nil => exact absurd rfl h.ne_nil
  | cons t ts => rfl

end

/-! ## Tokens -/

section
variable {α β : Type} {N : Nat} {c : Bool} {p q : Parser α} {kind : TokenKind}

theorem onward_tail (s : State) : Onward s { s with ahead := s.ahead.tail } :=
  ⟨List.tail_suffix _, rfl, List.prefix_refl _, fun _ h => h⟩

theorem parallel_current : Parallel N false current current where
  onward s _ := ⟨trivial, .refl s⟩
  reads hc := by cases hc
  opened := by rintro s a s' - ⟨⟩ - h; exact h
  same _ _ := rfl
  longer := by
    rintro s a s' - ⟨⟩ - hcl - behind last
    show EStateM.Result.ok _ _ = EStateM.Result.ok _ _
    rw [current_longer hcl.ne_nil]

theorem current_bind (k : Token → Parser α) (s : State) : (current >>= k) s = k s.current s := rfl

theorem parallel_advance : Parallel N true advance advance where
  onward s _ := ⟨trivial, onward_tail s⟩
  reads := by
    rintro - s a s' - hne ⟨⟩
    show s.ahead.tail.length < _
    rw [List.length_tail]
    have := List.length_pos_of_ne_nil hne
    omega
  opened := by rintro s a s' - ⟨⟩ - h; exact h
  same _ _ := rfl
  longer := by
    rintro s a s' - ⟨⟩ - hcl - behind last
    show EStateM.Result.ok _ _ = EStateM.Result.ok _ _
    rw [current_longer hcl.ne_nil]
    simp only [State.longer]
    rw [List.tail_append_of_ne_nil hcl.ne_nil]

theorem parallel_check : Parallel N false (check kind) (check kind) :=
  parallel_look (lookahead_startsWith kind) fun _ => parallel_pure

theorem parallel_eat : Parallel N false (eat kind) (eat kind) :=
  parallel_check.bind fun _ => parallel_ite (parallel_advance.bind fun _ => parallel_pure)
    parallel_pure

theorem parallel_expect {expected : String} :
    Parallel N true (expect kind expected) (expect kind expected) :=
  parallel_check.bind fun _ => parallel_ite parallel_advance parallel_fail

end

/-! ## Repetition -/

/-- Every round that gives a value reads a token. -/
def Advances {α : Type} (N : Nat) (p : Parser (Option α)) : Prop :=
  ∀ s x s', Fits N s → p s = .ok (some x) s' → s'.ahead.length < s.ahead.length

section
variable {α β : Type} {N : Nat} {c : Bool} {p q : Parser (Option α)} {n : Nat} {s s' : State}
  {xs : List α}

theorem parallel_zero {p q : Parser α} : Parallel 0 c p q where
  onward _ hs := absurd hs.length (Nat.not_lt_zero _)
  reads _ _ _ _ hs := absurd hs.length (Nat.not_lt_zero _)
  opened _ _ _ hs := absurd hs.length (Nat.not_lt_zero _)
  same _ hs := absurd hs.length (Nat.not_lt_zero _)
  longer _ _ _ hs := absurd hs.length (Nat.not_lt_zero _)

/-- The bounds of the rounds do not matter if they are not below the number of tokens: each round
    but the last leaves fewer. -/
theorem parallel_rounds (h : Parallel N false p q) (ha : Advances N p) :
    ∀ M ≤ N, ∀ a b, M ≤ a → M ≤ b → Parallel M false (rounds p a) (rounds q b) := by
  intro M
  induction M with
  | zero => exact fun _ _ _ _ _ => parallel_zero
  | succ M ih =>
    intro hM a b hMa hMb
    obtain ⟨a, rfl⟩ := Nat.exists_eq_add_of_le' hMa
    obtain ⟨b, rfl⟩ := Nat.exists_eq_add_of_le' hMb
    have hp := h.anti hM
    refine (hp.bindFewer (M := fun x => x.elim (M + 1) fun _ => M) ?_ fun x => ?_ :
      Parallel (M + 1) (false || false) _ _)
    · intro s x s' hs hr
      cases x with
      | none => exact hs.onward (hp.onward_ok hs hr)
      | some x => exact hs.shorter (hp.onward_ok hs hr) (ha s x s' (hs.mono hM) hr)
    · cases x with
      | none => exact parallel_pure
      | some x =>
        exact (ih (by omega) (a + M) (b + M) (Nat.le_add_left ..) (Nat.le_add_left ..)).map

/-- A bound on the left that is one more than the number of tokens ahead. -/
theorem parallel_bounded_left {p : Nat → Parser α} {q : Parser α}
    (h : ∀ M ≤ N, Parallel M c (p M) q) :
    Parallel N c (ahead >>= fun ts => p (ts.length + 1)) q := by
  have hn : ∀ {s : State}, Fits N s → Fits (s.ahead.length + 1) s ∧
      Parallel (s.ahead.length + 1) c (p (s.ahead.length + 1)) q :=
    fun hs => ⟨⟨Nat.lt_succ_self _, hs.last⟩, h _ (Nat.succ_le_of_lt hs.length)⟩
  constructor
  · exact fun s hs => (hn hs).2.onward s (hn hs).1
  · exact fun hc s a s' hs => (hn hs).2.reads hc s a s' (hn hs).1
  · exact fun s a s' hs => (hn hs).2.opened s a s' (hn hs).1
  · exact fun s hs => (hn hs).2.same s (hn hs).1
  · exact fun s a s' hs => (hn hs).2.longer s a s' (hn hs).1

theorem parallel_bounded_right {p : Parser α} {q : Nat → Parser α}
    (h : ∀ M ≤ N, ∀ b, M ≤ b → Parallel M c p (q b)) :
    Parallel N c p (ahead >>= fun ts => q (ts.length + 1)) := by
  have hn : ∀ {s : State}, Fits N s → Fits (s.ahead.length + 1) s ∧ ∀ n,
      Parallel (s.ahead.length + 1) c p (q (s.ahead.length + n + 1)) :=
    fun hs => ⟨⟨Nat.lt_succ_self _, hs.last⟩,
      fun n => h _ (Nat.succ_le_of_lt hs.length) _ (by omega)⟩
  constructor
  · exact fun s hs => ((hn hs).2 0).onward s (hn hs).1
  · exact fun hc s a s' hs => ((hn hs).2 0).reads hc s a s' (hn hs).1
  · exact fun s a s' hs => ((hn hs).2 0).opened s a s' (hn hs).1
  · exact fun s hs => ((hn hs).2 0).same s (hn hs).1
  · intro s a s' hs hp hc hcl hne behind last
    show q ((s.ahead ++ behind).length + 1) _ = _
    rw [List.length_append]
    exact ((hn hs).2 behind.length).longer s a s' (hn hs).1 hp hc hcl hne behind last

/-- What is bounded by the number of tokens ahead may have other bounds. -/
theorem parallel_bounded {p q : Nat → Parser α}
    (h : ∀ M ≤ N, ∀ a b, M ≤ a → M ≤ b → Parallel M c (p a) (q b)) :
    Parallel N c (ahead >>= fun ts => p (ts.length + 1))
      (ahead >>= fun ts => q (ts.length + 1)) :=
  parallel_bounded_left fun M hM => parallel_bounded_right fun M' hM' b hb =>
    h M' (hM'.trans hM) M b hM' hb

theorem parallel_many (h : Parallel N false p q) (ha : Advances N p) :
    Parallel N false (many p) (many q) :=
  parallel_bounded (parallel_rounds h ha)

/-- The bound of a repetition is never felt. -/
theorem rounds_eq_many (h : Parallel N false p p) (ha : Advances N p) (hs : Fits N s)
    (hn : s.ahead.length < n) : rounds p n s = many p s :=
  (parallel_rounds h ha _ hs.length _ n (Nat.le_refl _) hn).same s ⟨Nat.lt_succ_self _, hs.last⟩

theorem parallel_after? {kind : TokenKind} {p q : Parser α} (h : Parallel N c p q) :
    Parallel N false (after? kind p) (after? kind q) :=
  parallel_eat.bind fun _ => parallel_ite h.give parallel_pure

/-- Rounds of a parser that give values. -/
inductive Repeats (p : Parser (Option α)) : State → List α → State → Prop
  | nil (s : State) : Repeats p s [] s
  | cons {s s' s'' : State} {x : α} {xs : List α} :
    p s = .ok (some x) s' → Repeats p s' xs s'' → Repeats p s (x :: xs) s''

theorem rounds_of_none (h : p s = .ok none s') : rounds p (n + 1) s = .ok [] s' := by
  rw [rounds, bind_of_ok h]
  rfl

theorem rounds_of_some {x : α} (h : p s = .ok (some x) s') :
    rounds p (n + 1) s = (rounds p n >>= fun xs => pure (x :: xs)) s' := by
  rw [rounds, bind_of_ok h]

/-- Rounds that end with a value end because the parser answers `none`, not because of the bound. -/
theorem repeats_of_rounds (h : Parallel N c p q) (ha : Advances N p) (hs : Fits N s)
    (hn : s.ahead.length < n) (hr : rounds p n s = .ok xs s') :
    ∃ s₁, Repeats p s xs s₁ ∧ p s₁ = .ok none s' := by
  induction n generalizing s xs with
  | zero => exact absurd hn (Nat.not_lt_zero _)
  | succ n ih =>
    cases hp : p s with
    | error e s₁ =>
      rw [rounds, bind_of_error hp] at hr
      cases hr
    | ok x s₁ =>
      cases x with
      | none =>
        rw [rounds_of_none hp] at hr
        cases hr
        exact ⟨s, .nil s, hp⟩
      | some x =>
        rw [rounds_of_some hp] at hr
        obtain ⟨xs, s₂, hr, ⟨⟩⟩ := parser_bind_eq_ok.1 hr
        have hl := ha s x s₁ hs hp
        obtain ⟨s₃, hx, hnone⟩ := ih (hs.onward (h.onward_ok hs hp)) (by omega) hr
        exact ⟨s₃, .cons hp hx, hnone⟩

theorem rounds_of_repeats {s₁ : State} (h : Repeats p s xs s₁) (hnone : p s₁ = .ok none s')
    (hn : xs.length < n) : rounds p n s = .ok xs s' := by
  induction h generalizing n with
  | nil s =>
    obtain ⟨n, rfl⟩ := Nat.exists_eq_add_of_lt hn
    exact rounds_of_none hnone
  | cons hp _ ih =>
    obtain ⟨n, rfl⟩ := Nat.exists_eq_succ_of_ne_zero (Nat.ne_zero_of_lt hn)
    rw [rounds_of_some hp, bind_of_ok (ih hnone (Nat.lt_of_succ_lt_succ hn))]
    rfl

/-- Rounds go onward, and no more of them than there are tokens. -/
theorem onward_repeats (h : Parallel N c p q) (ha : Advances N p) (hs : Fits N s)
    (hx : Repeats p s xs s') : Onward s s' ∧ xs.length + s'.ahead.length ≤ s.ahead.length := by
  induction hx with
  | nil s => exact ⟨.refl s, by simp⟩
  | cons hp _ ih =>
    have ho := h.onward_ok hs hp
    have hl := ha _ _ _ hs hp
    obtain ⟨ho', hlen⟩ := ih (hs.onward ho)
    refine ⟨ho.trans ho', ?_⟩
    rw [List.length_cons]
    omega

/-- Repetition ends by the parser's own answer. -/
theorem many_eq_ok (h : Parallel N c p q) (ha : Advances N p) (hs : Fits N s) :
    many p s = .ok xs s' ↔ ∃ s₁, Repeats p s xs s₁ ∧ p s₁ = .ok none s' := by
  refine ⟨repeats_of_rounds h ha hs (Nat.lt_succ_self _), ?_⟩
  rintro ⟨s₁, hx, hnone⟩
  have hl := (onward_repeats h ha hs hx).2
  exact rounds_of_repeats hx hnone (by omega)

/-- A round whose first token passes a test. -/
theorem advances_test {g : List Token → Bool} (hg : g [] = false) (h : Parallel N true p q) :
    Advances N (ahead >>= fun ts => if g ts = true then p else pure none) := by
  intro s x s' hs hr
  replace hr : (if g s.ahead = true then p else pure none : Parser (Option α)) s =
    .ok (some x) s' := hr
  split at hr
  · next ht =>
    have hne : s.ahead ≠ [] := fun he => by rw [he, hg] at ht; cases ht
    exact h.reads rfl s _ s' hs hne hr
  · cases hr

theorem after?_eq (kind : TokenKind) (p : Parser α) :
    after? kind p = ahead >>= fun ts =>
      if startsWith kind ts = true then advance >>= fun _ => p >>= fun a => pure (some a)
      else pure none := by
  funext s
  show ((if startsWith kind s.ahead = true then _ else _ : Parser Bool) >>= _) s =
    (if startsWith kind s.ahead = true then _ else _ : Parser (Option α)) s
  split <;> rfl

theorem advances_after? {kind : TokenKind} {p q : Parser α} (h : Parallel N c p q) :
    Advances N (after? kind p) := by
  have hp : Parallel N true (advance >>= fun _ => p >>= fun a => pure (some a))
      (advance >>= fun _ => q >>= fun a => pure (some a)) := parallel_advance.first fun _ => h.give
  rw [after?_eq]
  exact advances_test rfl hp

end

end Parser

end UiScenario.Grammar
