import UiScenario.Proofs.ParallelBlocks
import UiScenario.Proofs.StepReadback

/-!
Parsers that keep to their tokens. `Settles P n p` says what a run of `p` can do: it reads tokens
from the front, at least `n` of them if it succeeds and none of them a tag, and changes nothing
else; a failure is about the token it stopped at or about one it has read. `Steady P n p` adds that
the run does not depend on what follows: tokens that are read in one place are read alike in front
of a closing brace and in front of the next statement. Both are about places with the property `P`.

There is a rule for each way to build a parser. A test of the tokens ahead may look at as many
tokens as are read in any case; what it sees behind them must not matter.
-/

namespace UiScenario.Grammar

/-- The same place with other tokens ahead. -/
def State.leaving (s : State) (ahead : List Token) : State :=
  { s with ahead }

@[simp] theorem ahead_leaving (s : State) (ts : List Token) : (s.leaving ts).ahead = ts := rfl

@[simp] theorem leaving_leaving (s : State) (ts us : List Token) :
    (s.leaving ts).leaving us = s.leaving us := rfl

@[simp] theorem leaving_ahead (s : State) : s.leaving s.ahead = s := rfl

@[simp] theorem current_leaving_cons (s : State) (t : Token) (ts : List Token) :
    (s.leaving (t :: ts)).current = t := rfl

/-- From `s` to `s'` the tokens `read` were read, and nothing else happened. -/
structure Passes (s : State) (read : List Token) (s' : State) : Prop where
  ahead : s.ahead = read ++ s'.ahead
  same : s' = s.leaving s'.ahead

/-- Tokens without tags. -/
def Untagged (ts : List Token) : Prop :=
  ∀ t ∈ ts, t.kind ≠ .tag

/-- From `s` to `s'` the tokens `read` were read, none of which is a tag. -/
structure PassesUntagged (s : State) (read : List Token) (s' : State) : Prop
    extends Passes s read s' where
  untagged : Untagged read

/-- Tokens that neither start nor end with a dot. -/
structure Undotted (ts : List Token) : Prop where
  head : ∀ t, ts.head? = some t → t.kind ≠ .dot
  last : ∀ t, ts.getLast? = some t → t.kind ≠ .dot

/-- A fault of a parser that has read tokens and stopped at `s`: what comes next is not expected, or
    one of the tokens is wrong. -/
inductive Raised (read : List Token) (s : State) : SyntaxError → Prop
  | next (expected : String) : Raised read s (s.unexpected expected)
  | back {t : Token} {expected : String} (ht : t ∈ read) :
    Raised read s ⟨.unexpectedToken expected t.display, t.pos⟩

/-- What can come behind the tokens `r` of a statement: a closing brace, or the next statement. A
    statement starts with a keyword that is no qualifier, and no dot stands in front of it. -/
inductive Limits (r : List Token) : List Token → Prop
  | brace {t : Token} {ts : List Token} : t.kind = .rbrace → Limits r (t :: ts)
  | statement {t : Token} {ts : List Token} : t.kind.startsStatement = true →
    startsWith .dot ts = false → (∀ d, r.getLast? = some d → d.kind ≠ .dot) → Limits r (t :: ts)

section
variable {s s' s'' : State} {ts us r r' Y : List Token}

theorem Passes.refl (s : State) : Passes s [] s := ⟨rfl, rfl⟩

theorem Passes.trans (h : Passes s ts s') (h' : Passes s' us s'') : Passes s (ts ++ us) s'' := by
  refine ⟨by rw [h.ahead, h'.ahead, List.append_assoc], ?_⟩
  rw [h'.same, h.same]
  rfl

theorem Passes.onward (h : Passes s ts s') : Onward s s' := by
  have hs := h.same
  refine ⟨⟨ts, h.ahead.symm⟩, ?_, ?_, ?_⟩
  · rw [hs]; rfl
  · rw [hs]; exact List.prefix_refl _
  · intro _ hu
    rw [hs]
    exact hu

theorem passes_tail {t : Token} (h : s.ahead = t :: ts) : Passes s [t] (s.leaving ts) :=
  ⟨h, rfl⟩

theorem untagged_nil : Untagged [] :=
  fun _ h => absurd h List.not_mem_nil

theorem untagged_singleton {t : Token} (h : t.kind ≠ .tag) : Untagged [t] :=
  List.forall_mem_singleton.2 h

theorem Untagged.append (h : Untagged ts) (h' : Untagged us) : Untagged (ts ++ us) :=
  List.forall_mem_append.2 ⟨h, h'⟩

theorem PassesUntagged.refl (s : State) : PassesUntagged s [] s := ⟨.refl s, untagged_nil⟩

theorem PassesUntagged.trans (h : PassesUntagged s ts s') (h' : PassesUntagged s' us s'') :
    PassesUntagged s (ts ++ us) s'' :=
  ⟨h.toPasses.trans h'.toPasses, h.untagged.append h'.untagged⟩

theorem undotted_nil : Undotted [] := by
  constructor <;> simp

theorem undotted_singleton {t : Token} (h : t.kind ≠ .dot) : Undotted [t] := by
  constructor <;> simpa using h

theorem Undotted.append (h : Undotted ts) (h' : Undotted us) : Undotted (ts ++ us) := by
  constructor
  · intro t ht
    rcases List.eq_nil_or_concat' ts with rfl | ⟨_, _, rfl⟩
    · exact h'.head t ht
    · rw [List.head?_append_of_ne_nil _ (by simp)] at ht
      exact h.head t ht
  · intro t ht
    rcases List.eq_nil_or_concat' us with rfl | ⟨_, _, rfl⟩
    · exact h.last t (by simpa using ht)
    · rw [List.getLast?_append_of_ne_nil _ (by simp)] at ht
      exact h'.last t ht

theorem Raised.of_read {e : SyntaxError} (h : Raised us s e) (hs : us ⊆ ts) : Raised ts s e := by
  cases h with
  | next expected => exact .next expected
  | back ht => exact .back (hs ht)

theorem Limits.ne_nil (h : Limits r Y) : Y ≠ [] := by
  cases h <;> simp

theorem Limits.of_suffix (h : Limits r Y) (hr : r' <:+ r) : Limits r' Y := by
  cases h with
  | brace ht => exact .brace ht
  | statement ht hd hl =>
    refine .statement ht hd fun d hd' => hl d ?_
    obtain ⟨us, rfl⟩ := hr
    have hne : r' ≠ [] := by rintro rfl; cases hd'
    rw [List.getLast?_append_of_ne_nil _ hne, hd']

theorem Limits.of_append (h : Limits (us ++ r) Y) : Limits r Y :=
  h.of_suffix (List.suffix_append ..)

theorem Limits.stops (h : Limits r Y) : Stops (Y.map Token.kind) := by
  cases h with
  | brace ht => exact .inl ht
  | @statement t ts ht hd _ =>
    refine .inr ⟨ht, ?_⟩
    rw [Parser.startsWith_eq rfl] at hd
    simpa using hd

/-- A kind that neither closes a block nor starts a statement does not come next. -/
theorem Limits.startsWith_eq_false {k : TokenKind} (h : Limits r Y) (hb : k ≠ .rbrace)
    (hs : k.startsStatement = false) : startsWith k Y = false := by
  cases h with
  | brace ht =>
    simp only [startsWith, ht, beq_eq_false_iff_ne]
    exact hb.symm
  | statement ht _ _ =>
    simp only [startsWith, beq_eq_false_iff_ne]
    rintro rfl
    rw [hs] at ht
    cases ht

/-- A name with a qualifier does not run into what comes behind. -/
theorem Limits.atQualifiedName_eq_false (h : Limits r Y) (hr : r.length < 3) :
    atQualifiedName (r ++ Y) = false := by
  have hdot := h.startsWith_eq_false (k := .dot) (by decide) rfl
  rcases r with _ | ⟨q, _ | ⟨d, _ | ⟨n, r⟩⟩⟩
  · cases h with
    | @brace t ts ht => rcases ts with _ | ⟨u, _ | ⟨v, ts⟩⟩ <;>
        simp [atQualifiedName, Token.isWord, TokenKind.isWord, ht]
    | @statement t ts ht hd _ =>
      rcases ts with _ | ⟨u, _ | ⟨v, ts⟩⟩
      · rfl
      · rfl
      · simp only [startsWith] at hd
        simp [atQualifiedName, hd]
  · cases Y with
    | nil => rfl
    | cons t ts =>
      simp only [startsWith] at hdot
      cases ts <;> simp [atQualifiedName, hdot]
  · cases h with
    | brace ht => simp [atQualifiedName, Token.isWord, TokenKind.isWord, ht]
    | statement ht _ hl =>
      have hd : d.kind ≠ .dot := hl d rfl
      simp [atQualifiedName, hd]
  · simp only [List.length_cons] at hr
    omega

end

namespace Parser

/-- A run of the parser reads tokens other than tags and changes nothing else. If it succeeds in
    front of further tokens, it has read at least `n`, of which the first and the last are no dots.
-/
structure Settles {α : Type} (P : State → Prop) (n : Nat) (p : Parser α) : Prop where
  value : ∀ {s : State} {a : α} {s' : State}, P s → p s = .ok a s' →
    ∃ read, PassesUntagged s read s' ∧ (s'.ahead ≠ [] → Undotted read ∧ n ≤ read.length)
  fault : ∀ {s : State} {e : SyntaxError} {s' : State}, P s → p s = .error e s' →
    ∃ read, PassesUntagged s read s' ∧ Raised read s' e

/-- What the parser makes of tokens does not depend on what follows them. -/
structure Steady {α : Type} (P : State → Prop) (n : Nat) (p : Parser α) : Prop
    extends Settles P n p where
  moves : ∀ {s t : State} {a : α} {r r' X Y : List Token}, P (s.leaving (r ++ X)) →
    P (t.leaving (r ++ Y)) → X ≠ [] → Limits r Y →
    p (s.leaving (r ++ X)) = .ok a (s.leaving (r' ++ X)) →
    p (t.leaving (r ++ Y)) = .ok a (t.leaving (r' ++ Y))

abbrev anywhere (_ : State) : Prop := True

/-- A kind of tokens that are neither dots nor tags. -/
def Ordinary (kind : TokenKind) : Prop :=
  kind ≠ .dot ∧ kind ≠ .tag

instance (kind : TokenKind) : Decidable (Ordinary kind) :=
  inferInstanceAs (Decidable (_ ∧ _))

abbrev ordinary (s : State) : Prop := Ordinary s.current.kind

section
variable {α β : Type} {P Q : State → Prop} {n m : Nat} {p q : Parser α} {k : α → Parser β}
  {s t : State} {a : α} {r r' X Y : List Token} {kind : TokenKind} {expected : String}

/-- The tokens that were read come from the front part, if the rest is still there. -/
theorem Settles.split (h : Settles P n p) (hP : P (s.leaving (r ++ X))) (hX : X ≠ [])
    (hp : p (s.leaving (r ++ X)) = .ok a (s.leaving (r' ++ X))) :
    ∃ read, r = read ++ r' ∧ Undotted read ∧ n ≤ read.length := by
  obtain ⟨read, hread, hdot⟩ := h.value hP hp
  have hr : r ++ X = read ++ r' ++ X := by
    have := hread.ahead
    simpa using this
  exact ⟨read, List.append_cancel_right hr, hdot (by simp [hX])⟩

theorem Settles.ne_nil (h : Settles P (n + 1) p) (hP : P (s.leaving (r ++ X)))
    (hX : X ≠ []) (hp : p (s.leaving (r ++ X)) = .ok a (s.leaving (r' ++ X))) : r ≠ [] := by
  obtain ⟨read, rfl, -, hn⟩ := h.split hP hX hp
  intro he
  have := congrArg List.length he
  simp only [List.length_append, List.length_nil] at this
  omega

theorem Settles.mono (h : Settles P n p) (hn : m ≤ n) (hP : ∀ s, Q s → P s) : Settles Q m p where
  value hQ hp := by
    obtain ⟨read, hread, hdot⟩ := h.value (hP _ hQ) hp
    exact ⟨read, hread, fun hne => ⟨(hdot hne).1, hn.trans (hdot hne).2⟩⟩
  fault hQ hp := h.fault (hP _ hQ) hp

theorem Steady.mono (h : Steady P n p) (hn : m ≤ n) (hP : ∀ s, Q s → P s) : Steady Q m p where
  toSettles := h.toSettles.mono hn hP
  moves hs ht := h.moves (hP _ hs) (hP _ ht)

/-- What does not depend on the tokens that follow does not depend on those behind a brace. -/
theorem Steady.parallel {N : Nat} (h : Steady anywhere n p) : Parallel N (decide (0 < n)) p p where
  onward s _ := by
    cases hp : p s with
    | ok a s' =>
      obtain ⟨read, hread, -⟩ := h.value trivial hp
      exact ⟨trivial, hread.onward⟩
    | error e s' =>
      obtain ⟨read, hread, -⟩ := h.fault trivial hp
      exact hread.onward
  reads hn s a s' _ hne hp := by
    obtain ⟨read, hread, hlen⟩ := h.value trivial hp
    by_cases he : s'.ahead = []
    · rw [he]
      exact List.length_pos_of_ne_nil hne
    · have := (hlen he).2
      have := of_decide_eq_true hn
      rw [hread.ahead, List.length_append]
      omega
  opened s a s' _ hp _ ho := by
    obtain ⟨read, hread, -⟩ := h.value trivial hp
    rw [hread.same]
    exact ho
  same _ _ := rfl
  longer s a s' _ hp _ hcl hne behind last := by
    obtain ⟨read, hread, -⟩ := h.value trivial hp
    obtain ⟨r, t, hs', ht⟩ := hcl.of_suffix ⟨read, hread.ahead.symm⟩ hne
    have hs : s.ahead = read ++ r ++ [t] := by rw [hread.ahead, hs', List.append_assoc]
    have hp' : p (s.leaving (read ++ r ++ [t])) = .ok a (s.leaving (r ++ [t])) := by
      rw [← hs, leaving_ahead, ← hs', ← hread.same, hp]
    have hmoved := h.moves (t := s.longer behind last) (Y := t :: behind) trivial trivial (by simp)
      (.brace ht) hp'
    have hl : ∀ ts, (s.longer behind last).leaving (ts ++ t :: behind) =
        (s.leaving (ts ++ [t])).longer behind last := by
      intro ts
      simp only [State.longer, State.leaving, List.append_assoc, List.singleton_append]
    rwa [hl, hl, ← hs, leaving_ahead, ← hs', ← hread.same] at hmoved

theorem Steady.fewer (h : Steady P n p) (hn : m ≤ n) : Steady P m p :=
  h.mono hn fun _ ht => ht

/-- What is read anywhere is read where the next token is known. -/
theorem Steady.here (h : Steady anywhere n p) : Steady P n p :=
  h.mono (Nat.le_refl n) fun _ _ => trivial

/-! ## Building parsers -/

theorem Settles.bind (h : Settles P n p) (hk : ∀ a, Settles anywhere m (k a)) :
    Settles P (n + m) (p >>= k) where
  value {s b s''} hP hb := by
    obtain ⟨a, s', hp, hb⟩ := parser_bind_eq_ok.1 hb
    obtain ⟨read, hread, hdot⟩ := h.value hP hp
    obtain ⟨read', hread', hdot'⟩ := (hk a).value trivial hb
    refine ⟨read ++ read', hread.trans hread', fun hne => ?_⟩
    have hne' : s'.ahead ≠ [] := by
      rw [hread'.ahead]
      exact List.append_ne_nil_of_right_ne_nil _ hne
    refine ⟨(hdot hne').1.append (hdot' hne).1, ?_⟩
    rw [List.length_append]
    exact Nat.add_le_add (hdot hne').2 (hdot' hne).2
  fault {s e s''} hP hb := by
    cases hp : p s with
    | error e' s' =>
      rw [bind_of_error hp] at hb
      cases hb
      exact h.fault hP hp
    | ok a s' =>
      rw [bind_of_ok hp] at hb
      obtain ⟨read, hread, -⟩ := h.value hP hp
      obtain ⟨read', hread', he⟩ := (hk a).fault trivial hb
      exact ⟨read ++ read', hread.trans hread', he.of_read (List.subset_append_right ..)⟩

theorem Steady.bind (h : Steady P n p) (hk : ∀ a, Steady anywhere m (k a)) :
    Steady P (n + m) (p >>= k) where
  toSettles := h.toSettles.bind fun a => (hk a).toSettles
  moves {s t b r r' X Y} hs ht hX hY hb := by
    obtain ⟨a, s', hp, hb⟩ := parser_bind_eq_ok.1 hb
    obtain ⟨read, hread, -⟩ := h.value hs hp
    obtain ⟨read', hread', -⟩ := (hk a).value trivial hb
    -- between the parsers, the tokens `read' ++ r'` of the front part are left
    have hs' : s' = s.leaving (read' ++ r' ++ X) := by
      have ha := hread'.ahead
      rw [hread.same]
      simp only [ahead_leaving] at ha
      rw [ha, leaving_leaving, List.append_assoc]
    subst hs'
    have hr : r = read ++ (read' ++ r') := by
      have := hread.ahead
      simp only [ahead_leaving, ← List.append_assoc] at this
      rw [← List.append_assoc]
      exact List.append_cancel_right this
    rw [hr] at hY
    rw [bind_of_ok (h.moves hs ht hX (hr ▸ hY) hp)]
    exact (hk a).moves trivial trivial hX hY.of_append hb

theorem settles_pure : Settles P 0 (pure a) where
  value {s b s'} _ hp := by
    cases hp
    exact ⟨[], .refl s, fun _ => ⟨undotted_nil, Nat.le_refl 0⟩⟩
  fault _ hp := by cases hp

theorem steady_pure : Steady P 0 (pure a) where
  toSettles := settles_pure
  moves {s t b r r' X Y} _ _ _ _ hp := by
    have hr : r ++ X = r' ++ X := congrArg State.ahead (EStateM.Result.ok.inj hp).2
    cases (EStateM.Result.ok.inj hp).1
    rw [List.append_cancel_right hr]
    rfl

theorem Steady.give {f : α → β} (h : Steady P n p) : Steady P n (p >>= fun a => pure (f a)) :=
  h.bind fun _ => steady_pure

theorem steady_fail : Steady P n (fail expected : Parser α) where
  value _ hp := by cases hp
  fault {s e s'} _ hp := by
    cases hp
    exact ⟨[], .refl s, .next expected⟩
  moves _ _ _ _ hp := by cases hp

theorem steady_ite {c : Prop} [Decidable c] (hp : c → Steady P n p) (hq : ¬c → Steady P n q) :
    Steady P n (if c then p else q) := by
  split
  · next hc => exact hp hc
  · next hc => exact hq hc

/-! ## Looking ahead -/

theorem settles_current {f : Token → Parser α}
    (h : ∀ t, Settles (fun s => P s ∧ s.current = t) n (f t)) : Settles P n (current >>= f) where
  value {s _ _} hP hp := (h s.current).value ⟨hP, rfl⟩ hp
  fault {s _ _} hP hp := (h s.current).fault ⟨hP, rfl⟩ hp

/-- What is read next depends on the next token, which is read. -/
theorem steady_current {f : Token → Parser α}
    (h : ∀ t, Steady (fun s => P s ∧ s.current = t) (n + 1) (f t)) :
    Steady P (n + 1) (current >>= f) where
  toSettles := settles_current fun t => (h t).toSettles
  moves {s t a r r' X Y} hs ht hX hY hp := by
    have hp' : f (s.leaving (r ++ X)).current (s.leaving (r ++ X)) =
        .ok a (s.leaving (r' ++ X)) := hp
    cases r with
    | nil => exact absurd rfl ((h _).ne_nil ⟨hs, rfl⟩ hX hp')
    | cons u us => exact (h u).moves ⟨hs, rfl⟩ ⟨ht, rfl⟩ hX hY hp'

theorem ahead_ite {g : List Token → Bool} (s : State) :
    (ahead >>= fun ts => if g ts = true then p else q) s =
      (if g s.ahead = true then p else q) s := rfl

theorem settles_look {g : List Token → Bool}
    (hQ : ∀ s, P s → g s.ahead = true → Q s) (hp : Settles Q n p)
    (hq : Settles P n q) : Settles P n (ahead >>= fun ts => if g ts = true then p else q) where
  value {s a s'} hP hr := by
    rw [ahead_ite] at hr
    split at hr
    · next ht => exact hp.value (hQ s hP ht) hr
    · exact hq.value hP hr
  fault {s e s'} hP hr := by
    rw [ahead_ite] at hr
    split at hr
    · next ht => exact hp.fault (hQ s hP ht) hr
    · exact hq.fault hP hr

/-- A test of the tokens ahead that sees at most `m` tokens. If it holds, so many are read; if fewer
    are left in front of what follows, it does not hold. -/
theorem steady_look {g : List Token → Bool} (m l : Nat)
    (hg : ∀ r X Y, m ≤ r.length → g (r ++ X) = g (r ++ Y))
    (hend : ∀ r Y, Limits r Y → n ≤ r.length → r.length < m → g (r ++ Y) = false)
    (hQ : ∀ s, P s → g s.ahead = true → Q s) (hp : Steady Q l p)
    (hq : Steady P n q) (hn : n ≤ l := by omega) (hm : m ≤ l := by omega) :
    Steady P n (ahead >>= fun ts => if g ts = true then p else q) where
  toSettles := settles_look hQ (hp.fewer hn).toSettles hq.toSettles
  moves {s t a r r' X Y} hs ht hX hY hr := by
    rw [ahead_ite, ahead_leaving] at hr ⊢
    split at hr
    · next hgX =>
      obtain ⟨read, rfl, -, hl⟩ := hp.split (hQ _ hs hgX) hX hr
      have hgY := hg (read ++ r') X Y (by rw [List.length_append]; omega)
      rw [hgX] at hgY
      rw [if_pos hgY.symm]
      exact hp.moves (hQ _ hs hgX) (hQ _ ht hgY.symm) hX hY hr
    · next hgX =>
      obtain ⟨read, rfl, -, hl⟩ := hq.split hs hX hr
      have hgY : g (read ++ r' ++ Y) = false := by
        by_cases hlen : (read ++ r').length < m
        · exact hend _ Y hY (by rw [List.length_append]; omega) hlen
        · rw [← hg (read ++ r') X Y (by omega)]
          exact Bool.eq_false_iff.2 hgX
      rw [hgY]
      exact hq.moves hs ht hX hY hr

/-! ## Single tokens -/

theorem advance_cons {t : Token} {ts : List Token} :
    advance (s.leaving (t :: ts)) = .ok t (s.leaving ts) := rfl

theorem steady_advance : Steady ordinary 1 advance where
  value {s t s'} hP hp := by
    cases hp
    obtain ⟨ahead, _⟩ := s
    cases ahead with
    | nil => exact ⟨[], ⟨⟨rfl, rfl⟩, untagged_nil⟩, fun hne => absurd rfl hne⟩
    | cons u us =>
      exact ⟨[u], ⟨⟨rfl, rfl⟩, untagged_singleton hP.2⟩,
        fun _ => ⟨undotted_singleton hP.1, Nat.le_refl 1⟩⟩
  fault _ hp := by cases hp
  moves {s t a r r' X Y} hs ht hX hY hp := by
    cases r with
    | nil =>
      obtain ⟨x, xs, rfl⟩ := List.exists_cons_of_ne_nil hX
      rw [List.nil_append, advance_cons] at hp
      have hl : xs = r' ++ x :: xs := congrArg State.ahead (EStateM.Result.ok.inj hp).2
      have := congrArg List.length hl
      simp only [List.length_append, List.length_cons] at this
      omega
    | cons u us =>
      rw [List.cons_append, advance_cons] at hp ⊢
      have hl : us ++ X = r' ++ X := congrArg State.ahead (EStateM.Result.ok.inj hp).2
      rw [← (EStateM.Result.ok.inj hp).1, List.append_cancel_right hl]

/-- The next token is read if it is known to be ordinary. -/
theorem steady_advance_at {u : Token} (h : Ordinary u.kind) :
    Steady (fun s => P s ∧ s.current = u) 1 advance := by
  refine steady_advance.mono (Nat.le_refl 1) ?_
  rintro s ⟨-, rfl⟩
  exact h

theorem startsWith_append (r X Y : List Token) (hr : 1 ≤ r.length) :
    startsWith kind (r ++ X) = startsWith kind (r ++ Y) := by
  cases r with
  | nil => cases hr
  | cons t ts => rfl

theorem current_of_startsWith (h : startsWith kind s.ahead = true) : s.current.kind = kind := by
  unfold State.current
  cases hs : s.ahead with
  | nil => rw [hs] at h; cases h
  | cons t ts => rw [hs] at h; exact beq_iff_eq.1 h

theorem ordinary_of_startsWith (hk : Ordinary kind) (h : startsWith kind s.ahead = true) :
    ordinary s := by
  rw [ordinary, current_of_startsWith h]
  exact hk

theorem expect_eq (kind : TokenKind) (expected : String) (s : State) : expect kind expected s =
    (if startsWith kind s.ahead = true then advance else fail expected) s := rfl

theorem steady_expect (hk : Ordinary kind) : Steady P 1 (expect kind expected) := by
  refine steady_look 1 1 startsWith_append (fun _ _ _ _ _ => by omega) ?_ steady_advance steady_fail
  exact fun s _ h => ordinary_of_startsWith hk h

theorem ordinary_of_isWord {u : Token} (h : u.isWord = true) : Ordinary u.kind := by
  constructor <;>
  · intro hd
    rw [Token.isWord, hd] at h
    cases h

theorem ordinary_of_eq_some {γ : Type} {g : TokenKind → Option γ} {c : γ} (h : g kind = some c)
    (hg : g .dot = none ∧ g .tag = none) : Ordinary kind := by
  constructor <;> rintro rfl <;> simp [hg] at h

theorem steady_name : Steady P 1 (name expected) := by
  refine steady_current fun t => steady_ite (fun ht => ?_) fun _ => steady_fail
  exact (steady_advance_at (ordinary_of_isWord ht)).give

theorem atBareName_append (r X Y : List Token) (hr : 1 ≤ r.length) :
    atBareName (r ++ X) = atBareName (r ++ Y) := by
  cases r with
  | nil => cases hr
  | cons t ts => rfl

theorem steady_atBareName (hp : Steady ordinary 1 p) :
    Steady P 1 (ahead >>= fun ts => if atBareName ts = true then p else fail expected) := by
  refine steady_look 1 1 atBareName_append (fun _ _ _ _ _ => by omega) ?_ hp steady_fail
  intro s _ h
  have := isBareName_current h
  constructor <;>
  · intro hd
    rw [hd] at this
    cases this

theorem steady_binding : Steady P 1 (binding expected) :=
  steady_atBareName steady_advance.give

/-! ## Tokens that may be there -/

/-- An ordinary kind that neither closes a block nor starts a statement. -/
def Joins (kind : TokenKind) : Prop :=
  Ordinary kind ∧ kind ≠ .rbrace ∧ kind.startsStatement = false

instance (kind : TokenKind) : Decidable (Joins kind) :=
  inferInstanceAs (Decidable (_ ∧ _ ∧ _))

theorem Joins.startsWith_eq_false (hk : Joins kind) (r Y : List Token) (hY : Limits r Y)
    (hr : r.length < 1) : startsWith kind (r ++ Y) = false := by
  obtain rfl : r = [] := List.eq_nil_of_length_eq_zero (by omega)
  exact hY.startsWith_eq_false hk.2.1 hk.2.2

/-- What follows a token that is read if it is of the kind. -/
theorem steady_startsWith {p q : Parser α} (hk : Joins kind) (hp : Steady anywhere n p)
    (hq : Steady P 0 q) :
    Steady P 0 (ahead >>= fun ts =>
      if startsWith kind ts = true then advance >>= fun _ => p else q) :=
  steady_look 1 (1 + n) startsWith_append (fun r Y hY _ hr => hk.startsWith_eq_false r Y hY hr)
    (fun _ _ h => ordinary_of_startsWith hk.1 h) (steady_advance.bind fun _ => hp) hq

theorem eat_bind (kind : TokenKind) (f : Bool → Parser α) :
    eat kind >>= f = ahead >>= fun ts =>
      if startsWith kind ts = true then advance >>= fun _ => f true else f false := by
  funext s
  show ((if startsWith kind s.ahead = true then _ else _ : Parser Bool) >>= f) s =
    (if startsWith kind s.ahead = true then _ else _ : Parser α) s
  split <;> rfl

/-- A token may be there at the end of a statement. -/
theorem steady_eat_last {f : Bool → Parser α} (hk : Joins kind) (ht : Steady anywhere n (f true))
    (hf : Steady P 0 (f false)) : Steady P 0 (eat kind >>= f) := by
  rw [eat_bind]
  exact steady_startsWith hk ht hf

/-- A token may be there, and more is read in any case. -/
theorem steady_eat {f : Bool → Parser α} (hk : Ordinary kind) (ht : Steady anywhere n (f true))
    (hf : Steady P (n + 1) (f false)) : Steady P (n + 1) (eat kind >>= f) := by
  have hp : Steady ordinary (1 + n) (advance >>= fun _ => f true) := steady_advance.bind fun _ => ht
  rw [eat_bind]
  exact steady_look 1 (1 + n) startsWith_append (fun _ _ _ _ _ => by omega)
    (fun _ _ h => ordinary_of_startsWith hk h) hp hf

theorem steady_after? (hk : Joins kind) (h : Steady anywhere n p) : Steady P 0 (after? kind p) := by
  rw [after?_eq]
  exact steady_startsWith hk h.give steady_pure

/-- A token that says how to go on may be the next; no such token comes behind the statement. -/
theorem steady_choose {γ : Type} {g : TokenKind → Option γ} {f : γ → Parser α}
    (hg : ∀ kind c, g kind = some c → Joins kind) (hf : ∀ c, Steady ordinary (n + 1) (f c))
    (hq : Steady anywhere 0 q) : Steady P 0 (current >>= fun t => (g t.kind).elim q f) where
  toSettles := by
    refine settles_current fun t => ?_
    cases hc : g t.kind with
    | none => exact hq.here.toSettles
    | some c =>
      refine (hf c).toSettles.mono (Nat.zero_le _) ?_
      rintro s ⟨-, rfl⟩
      exact (hg _ c hc).1
  moves {s t a r r' X Y} _ _ hX hY hp := by
    rw [current_bind] at hp ⊢
    cases r with
    | cons u us =>
      rw [List.cons_append, current_leaving_cons] at hp ⊢
      cases hc : g u.kind with
      | some c =>
        rw [hc] at hp
        exact (hf c).moves (r := u :: us) (hg _ c hc).1 (hg _ c hc).1 hX hY hp
      | none =>
        rw [hc] at hp
        exact hq.moves (r := u :: us) trivial trivial hX hY hp
    | nil =>
      obtain ⟨y, ys, rfl⟩ := List.exists_cons_of_ne_nil hY.ne_nil
      obtain ⟨x, xs, rfl⟩ := List.exists_cons_of_ne_nil hX
      rw [List.nil_append, current_leaving_cons] at hp ⊢
      have hy : g y.kind = none := by
        cases hc : g y.kind with
        | none => rfl
        | some c =>
          have hk := (hg _ c hc).startsWith_eq_false [] _ hY Nat.zero_lt_one
          simp [startsWith] at hk
      rw [hy]
      cases hc : g x.kind with
      | some c =>
        rw [hc] at hp
        exact absurd rfl ((hf c).ne_nil (s := s) (r := []) (X := x :: xs) (hg _ c hc).1 hX hp)
      | none =>
        rw [hc] at hp
        exact hq.moves (r := []) trivial trivial hX hY hp

/-! ## Repetition -/

/-- Every round that gives a value reads a token, or is the last because no token is left. -/
def Consumes (p : Parser (Option α)) : Prop :=
  ∀ s x s', p s = .ok (some x) s' → s'.ahead ≠ [] → s'.ahead.length < s.ahead.length

theorem settles_rounds {p : Parser (Option α)} (h : Settles anywhere 0 p) :
    ∀ n, Settles anywhere 0 (rounds p n)
  | 0 => settles_pure
  | n + 1 => by
    refine Settles.bind (m := 0) h fun x => ?_
    cases x with
    | none => exact settles_pure
    | some x => exact (settles_rounds h n).bind fun _ => settles_pure

/-- The bounds of the rounds do not matter if they are above the number of tokens that are read. -/
theorem rounds_moves {p : Parser (Option α)} (h : Steady anywhere 0 p) (hc : Consumes p)
    {xs : List α}
    (hX : X ≠ []) : ∀ {i j : Nat} {r : List Token}, r.length < i → r.length < j → Limits r Y →
      rounds p i (s.leaving (r ++ X)) = .ok xs (s.leaving (r' ++ X)) →
      rounds p j (t.leaving (r ++ Y)) = .ok xs (t.leaving (r' ++ Y)) := by
  intro i
  induction i generalizing xs with
  | zero => intro j r hi; exact absurd hi (Nat.not_lt_zero _)
  | succ i ih =>
    intro j r hi hj hY hr
    obtain ⟨j, rfl⟩ := Nat.exists_eq_succ_of_ne_zero (Nat.ne_zero_of_lt hj)
    obtain ⟨x, s₁, hp, hr⟩ := parser_bind_eq_ok.1 hr
    obtain ⟨read, hread, -⟩ := h.value trivial hp
    cases x with
    | none =>
      cases hr
      exact rounds_of_none (h.moves trivial trivial hX hY hp)
    | some x =>
      obtain ⟨xs, s₂, hr, ⟨⟩⟩ := parser_bind_eq_ok.1 hr
      obtain ⟨read', hread', -⟩ := (settles_rounds h.toSettles i).value trivial hr
      -- the tokens `read' ++ r'` are left to the further rounds
      have hs₁ : s₁ = s.leaving (read' ++ r' ++ X) := by
        rw [hread.same, hread'.ahead]
        simp
      subst hs₁
      have hlen := hc _ x _ hp (by simp [hX])
      simp only [ahead_leaving, List.length_append] at hlen
      have hrr : r = read ++ (read' ++ r') := by
        have := hread.ahead
        simp only [ahead_leaving, ← List.append_assoc] at this
        rw [← List.append_assoc]
        exact List.append_cancel_right this
      have hY' : Limits (read' ++ r') Y := (hrr ▸ hY).of_append
      rw [rounds_of_some (h.moves trivial trivial hX hY hp),
        bind_of_ok (ih (by rw [List.length_append]; omega) (by rw [List.length_append]; omega)
          hY' hr)]
      rfl

theorem steady_many {p : Parser (Option α)} (h : Steady anywhere 0 p) (hc : Consumes p) :
    Steady P 0 (many p) where
  value {s a s'} _ hr := (settles_rounds h.toSettles (s.ahead.length + 1)).value trivial hr
  fault {s a s'} _ hr := (settles_rounds h.toSettles (s.ahead.length + 1)).fault trivial hr
  moves {s t a r r' X Y} _ _ hX hY hr := by
    refine rounds_moves h hc hX (i := (r ++ X).length + 1) ?_ ?_ hY hr
    · rw [List.length_append]; omega
    · show r.length < (r ++ Y).length + 1
      rw [List.length_append]; omega

theorem consumes_after? (h : Settles anywhere n p) : Consumes (after? kind p) := by
  intro s x s' hr hne
  rw [after?_eq, ahead_ite] at hr
  split at hr
  · next hk =>
    obtain ⟨t, s₁, ht, hr⟩ := parser_bind_eq_ok.1 hr
    obtain ⟨a, s₂, ha, ⟨⟩⟩ := parser_bind_eq_ok.1 hr
    obtain ⟨read, hread, -⟩ := h.value trivial ha
    cases ht
    have hlen := congrArg List.length hread.ahead
    cases hs : s.ahead with
    | nil => rw [hs] at hk; cases hk
    | cons u us =>
      simp only [hs, List.tail_cons, List.length_append, List.length_cons] at hlen ⊢
      omega
  · cases hr

theorem steady_separated (hk : Joins kind) (h : Steady anywhere n p) :
    Steady P 0 (many (after? kind p)) :=
  steady_many (steady_after? hk h) (consumes_after? h.toSettles)

theorem steady_commaSeparated (h : Steady anywhere 1 p) : Steady P 1 (commaSeparated p) :=
  h.here.bind fun _ => (steady_separated (by decide) h).give

end

end Parser

end UiScenario.Grammar
