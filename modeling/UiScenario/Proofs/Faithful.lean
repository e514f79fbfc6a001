import UiScenario.Proofs.CleanRuns
import UiScenario.Proofs.Watching

/-!
Watches that tell the truth. The faults that such a watch tells are those that are noted, in order,
and each is about a token; the record of the open statement is the same behind a run as in front of
it, and it is that of the innermost statement wherever a fault is raised.

Where the script or the next declaration ends a block, it ends all blocks around it, too: nothing
more is read until the declaration is left. So the blocks that run out are those that are open at
one token.
-/

namespace UiScenario

/-- The token that a syntax error is about is one of the tokens. -/
inductive Located (tokens : List Token) : SyntaxError → Prop
  | unexpected {t : Token} {expected : String} (ht : t ∈ tokens) :
    Located tokens ⟨.unexpectedToken expected t.display, t.pos⟩
  | unknown {t : Token} (ht : t ∈ tokens) : Located tokens ⟨.unknownStatement t.display, t.pos⟩
  | unclosed {t : Token} {block : String} (ht : t ∈ tokens) (hk : t.kind = .lbrace) :
    Located tokens ⟨.unclosedBlock block, t.pos⟩
  | incomplete {start stop : Token} {word expected : String} (ht : start ∈ tokens)
    (hu : stop ∈ tokens) (hl : start.line < stop.line ∨ start.line = stop.line ∧ stop.kind = .eof) :
    Located tokens ⟨.incompleteStatement word expected, ⟨start.line, stop.column⟩⟩

namespace Grammar

open UiScenario.Grammar.Parser

/-! ## Events -/

def OpenBlock.fault (b : OpenBlock) : SyntaxError :=
  ⟨.unclosedBlock b.what, b.opening.pos⟩

def Event.isRanOut : Event → Bool
  | ranOut .. => true
  | _ => false

/-- The faults that are noted: those that are raised, and the fault of the first block that ran out,
    unless one was `noted` before. -/
def faults (noted : Bool) : List Event → List SyntaxError
  | [] => []
  | .raised e _ :: rest => e :: faults noted rest
  | .closed .. :: rest => faults noted rest
  | .ranOut b .. :: rest => (if noted then [] else [b.fault]) ++ faults true rest

theorem faults_append (noted : Bool) (xs ys : List Event) :
    faults noted (xs ++ ys) = faults noted xs ++ faults (noted || xs.any Event.isRanOut) ys := by
  induction xs generalizing noted with
  | nil => simp [faults]
  | cons x xs ih =>
    cases x <;> simp [faults, ih, Event.isRanOut]

/-- The tokens of a script whose reading starts at `s`. -/
def State.tokens (s : State) : List Token :=
  s.last :: s.ahead

/-- A raised fault is not about a block, and if it is about an incomplete statement then it is the
    innermost one. Where the script ends behind all its tokens, the fault has its place. -/
structure Answers (S : State) (i : Inside) (e : SyntaxError) : Prop where
  block : ∀ what, e.fault ≠ .unclosedBlock what
  statement : ∀ word expected, e.fault = .incompleteStatement word expected →
    i.opened = some ⟨word, e.line⟩
  located : (∀ t ∈ S.tokens, t.line ≤ S.last.line) → Located S.tokens e

def Event.Sound (S : State) : Event → Prop
  | raised e i => Answers S i e
  | closed .. => True
  | ranOut b .. => b.opening ∈ S.tokens ∧ b.opening.kind = .lbrace

/-! ## Places -/

/-- Where reading the script from `S` on can stand: fewer than `N` tokens are ahead, and `o` is the
    record of the open statement. -/
structure Stands (S : State) (N : Nat) (o : Option Opened) (s : State) : Prop extends Fits N s where
  ahead : s.ahead ⊆ S.ahead
  same : s.last = S.last
  opened : s.opened = o
  placed : ∀ x, o = some x → ∃ t ∈ S.tokens, t.line = x.line

/-- From `s` to `s'` the events happened. -/
structure Told (S : State) (N : Nat) (o : Option Opened) (s : State) (events : List Event)
    (s' : State) : Prop extends Stands S N o s' where
  errors : s'.errors = s.errors ++ faults s.unclosedReported events
  flag : s'.unclosedReported = (s.unclosedReported || events.any Event.isRanOut)
  sound : ∀ x ∈ events, x.Sound S

section
variable {S s s' s'' : State} {N M : Nat} {o o' : Option Opened} {xs ys : List Event}
  {ts read : List Token} {i : Inside} {e : SyntaxError}

theorem Stands.current (h : Stands S N o s) : s.current ∈ S.tokens := by
  unfold State.current
  cases hs : s.ahead with
  | nil => exact List.mem_cons.2 (.inl h.same)
  | cons t ts => exact List.mem_cons_of_mem _ (h.ahead (by simp [hs]))

theorem Stands.leaving (h : Stands S N o s) (hts : ts <:+ s.ahead) : Stands S N o (s.leaving ts) :=
  { h with
    length := Nat.lt_of_le_of_lt hts.length_le h.length
    ahead := fun _ ht => h.ahead (hts.subset ht) }

theorem Stands.passes (h : Stands S N o s) (hr : Passes s read s') : Stands S N o s' := by
  rw [hr.same]
  exact h.leaving ⟨read, hr.ahead.symm⟩

/-- Nothing happens where only tokens are read. -/
theorem Stands.told (h : Stands S N o s) (hr : Passes s read s') : Told S N o s [] s' where
  toStands := h.passes hr
  errors := by rw [hr.same]; simp [faults, State.leaving]
  flag := by rw [hr.same]; simp [State.leaving]
  sound := by simp

theorem Told.trans (h : Told S N o s xs s') (h' : Told S M o' s' ys s'') :
    Told S M o' s (xs ++ ys) s'' where
  toStands := h'.toStands
  errors := by rw [h'.errors, h.errors, h.flag, faults_append, List.append_assoc]
  flag := by rw [h'.flag, h.flag, List.any_append, Bool.or_assoc]
  sound x hx := (List.mem_append.1 hx).elim (h.sound x) (h'.sound x)

theorem Told.reopened (h : Told S N o s xs s')
    (ho : ∀ x, o' = some x → ∃ t ∈ S.tokens, t.line = x.line) :
    Told S N o' s xs (s'.reopened o') :=
  { h with opened := rfl, placed := ho }

/-- A fault is noted, and some tokens are skipped. -/
theorem Told.noted (h : Told S N o s xs s') (ha : Answers S i e) (hts : ts <:+ s'.ahead) :
    Told S N o s (xs ++ [.raised e i]) { s' with ahead := ts, errors := s'.errors ++ [e] } where
  toStands := { h.toStands.leaving hts with }
  errors := by rw [h.errors, faults_append, List.append_assoc]; rfl
  flag := by simp [h.flag, Event.isRanOut]
  sound x hx := by
    rcases List.mem_append.1 hx with hx | hx
    · exact h.sound x hx
    · rw [List.mem_singleton.1 hx]
      exact ha

/-- What is not expected is blamed on the innermost statement, or on the token. -/
theorem Stands.answers (h : Stands S N i.opened s) (expected : String) :
    Answers S i (s.unexpected expected) := by
  have hw : Located S.tokens ⟨.unexpectedToken expected s.current.display, s.current.pos⟩ :=
    .unexpected h.current
  unfold State.unexpected
  rw [h.opened]
  cases ho : i.opened with
  | none => exact ⟨by simp, by simp, fun _ => hw⟩
  | some o =>
    obtain ⟨start, hstart, hline⟩ := h.placed o ho
    dsimp only
    split
    · next hc =>
      refine ⟨by simp, by rintro _ _ ⟨⟩; exact ho, fun hb => ?_⟩
      rw [← hline]
      refine .incomplete hstart h.current ?_
      by_cases hl : s.current.line > o.line
      · exact .inl (by omega)
      · -- reading stopped at the end of the script, which is behind all tokens
        have he : s.ahead = [] := by simpa [hl] using hc
        have hcur : s.current = s.last := by rw [State.current, he]; rfl
        have hlast := hb start hstart
        rw [← h.same] at hlast
        rw [hcur] at hl ⊢
        exact .inr ⟨by omega, h.last⟩
    · exact ⟨by simp, by simp, fun _ => hw⟩

theorem Raised.answers (h : Raised read s' e) (hs : Stands S N i.opened s)
    (hr : Passes s read s') : Answers S i e := by
  cases h with
  | next expected => exact (hs.passes hr).answers expected
  | back ht =>
    refine ⟨by simp, by simp, fun _ => .unexpected (List.mem_cons_of_mem _ (hs.ahead ?_))⟩
    rw [hr.ahead]
    exact List.mem_append_left _ ht

end

/-! ## Blocks that run out -/

/-- The blocks `inner`, innermost first and inside of `around`, run out at the tokens ahead. -/
def allRanOut (around : List OpenBlock) (ahead : List Token) : List OpenBlock → List Event
  | [] => []
  | b :: inner => .ranOut b (inner ++ around) ahead :: allRanOut around ahead inner

theorem allRanOut_concat (around : List OpenBlock) (ahead : List Token) (b : OpenBlock)
    (inner : List OpenBlock) : allRanOut around ahead (inner ++ [b]) =
      allRanOut (b :: around) ahead inner ++ [.ranOut b around ahead] := by
  induction inner with
  | nil => rfl
  | cons c inner ih => simp [allRanOut, ih]

def ranOuts (events : List Event) : List Event :=
  events.filter Event.isRanOut

theorem ranOuts_append (xs ys : List Event) : ranOuts (xs ++ ys) = ranOuts xs ++ ranOuts ys :=
  List.filter_append ..

/-- How a block ends. With its brace, none of the blocks inside it runs out; without, those run out
    that are open at the same tokens. -/
inductive Ended (b : OpenBlock) (around : List OpenBlock) (ahead : List Token) : List Event → Prop
  | closed {events : List Event} (h : ranOuts events = []) :
    Ended b around ahead (events ++ [.closed b around])
  | ranOut {events : List Event} {inner : List OpenBlock} (hend : endsBlock ahead = true)
    (h : ranOuts events = allRanOut (b :: around) ahead inner) :
    Ended b around ahead (events ++ [.ranOut b around ahead])

/-- The blocks that ran out in a part of a run are open at its end; or the part is a block of the
    given name, and it ended. -/
inductive Left (around : List OpenBlock) (ahead : List Token) (events : List Event) :
    Option String → Prop
  | inside (inner : List OpenBlock) (h : ranOuts events = allRanOut around ahead inner)
    (hend : inner ≠ [] → endsBlock ahead = true) : Left around ahead events none
  | block (b : OpenBlock) (h : Ended b around ahead events) : Left around ahead events (some b.what)

section
variable {b : OpenBlock} {around : List OpenBlock} {ahead : List Token} {xs ys : List Event}
  {own : Option String}

theorem Ended.append (hx : ranOuts xs = []) (h : Ended b around ahead ys) :
    Ended b around ahead (xs ++ ys) := by
  cases h with
  | closed h =>
    rw [← List.append_assoc]
    exact .closed (by rw [ranOuts_append, hx, h]; rfl)
  | ranOut hend h =>
    rw [← List.append_assoc]
    exact .ranOut hend (by rw [ranOuts_append, hx, h]; rfl)

theorem left_of_quiet (hx : ranOuts xs = []) : Left around ahead xs none :=
  .inside [] hx fun h => absurd rfl h

theorem Left.forget (h : Left around ahead xs own) : Left around ahead xs none := by
  cases h with
  | inside inner h hend => exact .inside inner h hend
  | block b h =>
    cases h with
    | closed h => exact left_of_quiet (by rw [ranOuts_append, h]; rfl)
    | @ranOut _ inner hend h =>
      refine .inside (inner ++ [b]) ?_ fun _ => hend
      rw [ranOuts_append, h, allRanOut_concat]
      rfl

theorem Left.append (hx : ranOuts xs = []) (h : Left around ahead ys own) :
    Left around ahead (xs ++ ys) own := by
  cases h with
  | inside inner h hend => exact .inside inner (by rw [ranOuts_append, hx, h]; rfl) hend
  | block b h => exact .block b (h.append hx)

end

/-! ## Plain parsers -/

namespace Parser

/-- A parser that reads tokens, changes nothing else and does not fail. -/
def Calm {α : Type} (p : Parser α) : Prop :=
  ∀ s, ∃ a read s', Passes s read s' ∧ p s = .ok a s'

/-- A parser that reads tokens and changes nothing else. Its faults are about the next token or
    about one it has read. -/
structure Plain {α : Type} (p : Parser α) : Prop where
  value : ∀ {s : State} {a : α} {s' : State}, p s = .ok a s' → ∃ read, Passes s read s'
  fault : ∀ {s : State} {e : SyntaxError} {s' : State}, p s = .error e s' →
    ∃ read, Passes s read s' ∧ Raised read s' e

section
variable {α β : Type} {p q : Parser α} {k : α → Parser β} {s s' : State} {kind : TokenKind}
  {e : SyntaxError} {expected : String} {c : Prop}

theorem calm_pure {a : α} : Calm (pure a) :=
  fun s => ⟨_, _, s, .refl s, rfl⟩

theorem calm_ahead : Calm ahead :=
  fun s => ⟨_, _, s, .refl s, rfl⟩

theorem calm_current : Calm current :=
  fun s => ⟨_, _, s, .refl s, rfl⟩

theorem calm_check : Calm (check kind) :=
  fun s => ⟨_, _, s, .refl s, rfl⟩

theorem calm_advance : Calm advance := by
  refine fun s => ⟨_, s.ahead.take 1, s.leaving s.ahead.tail, ⟨?_, rfl⟩, rfl⟩
  cases s.ahead <;> rfl

theorem Calm.bind (h : Calm p) (hk : ∀ a, Calm (k a)) : Calm (p >>= k) := by
  intro s
  obtain ⟨a, read, s', hr, hp⟩ := h s
  obtain ⟨b, read', s'', hr', hp'⟩ := hk a s'
  exact ⟨b, _, s'', hr.trans hr', by rw [bind_of_ok hp, hp']⟩

theorem calm_ite [Decidable c] (h : Calm p) (h' : Calm q) : Calm (if c then p else q) := by
  split
  · exact h
  · exact h'

theorem calm_eat : Calm (eat kind) :=
  calm_check.bind fun _ => calm_ite (calm_advance.bind fun _ => calm_pure) calm_pure

theorem calm_rounds {p : Parser (Option α)} (h : Calm p) : ∀ n, Calm (rounds p n)
  | 0 => calm_pure
  | n + 1 => by
    refine Calm.bind h fun x => ?_
    cases x with
    | none => exact calm_pure
    | some x => exact (calm_rounds h n).bind fun _ => calm_pure

theorem calm_tags : Calm tags := by
  refine fun s => calm_rounds ?_ (s.ahead.length + 1) s
  exact calm_check.bind fun _ => calm_ite (calm_advance.bind fun _ => calm_pure) calm_pure

theorem Calm.plain (h : Calm p) : Plain p where
  value {s a s'} hr := by
    obtain ⟨_, read, _, hread, hp⟩ := h s
    cases hp.symm.trans hr
    exact ⟨read, hread⟩
  fault {s e s'} hr := by
    obtain ⟨_, _, _, _, hp⟩ := h s
    cases hp.symm.trans hr

theorem Calm.plain_bind (h : Calm p) (hk : ∀ a, Plain (k a)) : Plain (p >>= k) where
  value {s b s''} hr := by
    obtain ⟨a, read, s', hread, hp⟩ := h s
    rw [bind_of_ok hp] at hr
    obtain ⟨read', hread'⟩ := (hk a).value hr
    exact ⟨_, hread.trans hread'⟩
  fault {s e s''} hr := by
    obtain ⟨a, read, s', hread, hp⟩ := h s
    rw [bind_of_ok hp] at hr
    obtain ⟨read', hread', he⟩ := (hk a).fault hr
    exact ⟨_, hread.trans hread', he.of_read (List.subset_append_right ..)⟩

theorem plain_ite [Decidable c] (h : Plain p) (h' : Plain q) : Plain (if c then p else q) := by
  split
  · exact h
  · exact h'

theorem Steady.plain {n : Nat} (h : Steady anywhere n p) : Plain p where
  value hr := by
    obtain ⟨read, hread, -⟩ := h.value trivial hr
    exact ⟨read, hread.toPasses⟩
  fault hr := by
    obtain ⟨read, hread, he⟩ := h.fault trivial hr
    exact ⟨read, hread.toPasses, he⟩

theorem plain_fail : Plain (fail expected : Parser α) :=
  (steady_fail (n := 0)).plain

/-! ## Failures -/

theorem eq_error_of_give {g : α → β} (hr : (p >>= fun a => pure (g a)) s = .error e s') :
    p s = .error e s' := by
  cases hp : p s with
  | ok a s₁ =>
    rw [bind_of_ok hp] at hr
    cases hr
  | error e₁ s₁ =>
    rw [bind_of_error hp] at hr
    cases hr
    rfl

theorem eq_error_of_enclosed {start back : Option Opened → Option Opened}
    (h : enclosed start back p s = .error e s') :
    p (s.reopened (start s.opened)) = .error e s' := by
  cases hp : p (s.reopened (start s.opened)) with
  | ok a s₁ =>
    rw [enclosed_of_ok hp] at h
    cases h
  | error e₁ s₁ =>
    rw [enclosed_of_error hp] at h
    cases h
    rfl

theorem eq_error_of_braced {block : String} (h : Total p)
    (hr : braced block expected p s = .error e s') : expect .lbrace expected s = .error e s' := by
  rw [braced_eq] at hr
  cases hp : expect .lbrace expected s with
  | error e₁ s₁ =>
    rw [bind_of_error hp] at hr
    cases hr
    rfl
  | ok opening s₁ =>
    have ht : Total (bracedRound block opening p) := total_bracedRound h
    obtain ⟨xs, s₂, hrest⟩ := total_rounds ht (s₁.ahead.length + 1) s₁
    rw [bind_of_ok hp] at hr
    cases hrest.symm.trans hr

theorem expect_eq_ok {t : Token} (hr : expect kind expected s = .ok t s') :
    ∃ ts, s.ahead = t :: ts ∧ t.kind = kind ∧ s' = s.leaving ts := by
  rw [expect_eq] at hr
  split at hr
  · next hk =>
    cases hts : s.ahead with
    | nil =>
      rw [hts] at hk
      cases hk
    | cons u ts =>
      rw [← leaving_ahead s, hts] at hr
      cases hr
      exact ⟨ts, rfl, by simpa [hts, startsWith] using hk, rfl⟩
  · cases hr

end

end Parser

namespace Watch

section
variable {α β : Type} {p q : Parser α} {k : α → Parser β} {w : Watch p} {f : (a : α) → Watch (k a)}
  {S s s' : State} {N : Nat} {i : Inside} {here : Bool} {own : β → Option String} {kind : TokenKind}
  {n : Nat} {e : SyntaxError} {a : α} {expected : String} {c : Prop}

/-- A watch tells what happens in the runs of a parser inside of `i`. A fault is the last event, no
    block runs out in front of it, and it is raised `here`, inside of `i` and no statement in it, if
    this is said. The value tells which block has ended. -/
structure Faithful {α : Type} {p : Parser α} (S : State) (N : Nat) (i : Inside) (here : Bool)
    (own : α → Option String) (w : Watch p) : Prop where
  value : ∀ {s : State} {a : α} {s' : State}, Stands S N i.opened s → p s = .ok a s' →
    Told S N i.opened s (w.events s) s' ∧ Left i.blocks s'.ahead (w.events s) (own a)
  fault : ∀ {s : State} {e : SyntaxError} {s' : State}, Stands S N i.opened s →
    p s = .error e s' → ∃ events j, w.events s = events ++ [.raised e j] ∧
      Told S N j.opened s events s' ∧ Answers S j e ∧ ranOuts events = [] ∧ (here = true → j = i)

/-- No block of its own. -/
def unnamed {α : Type} (_ : α) : Option String :=
  none

/-! ## Building parsers -/

theorem events_bind_of_ok (hp : p s = .ok a s') :
    (w.bind f).events s = w.events s ++ (f a).events s' := by
  simp only [Watch.bind, hp]

theorem events_bind_of_error (hp : p s = .error e s') : (w.bind f).events s = w.events s := by
  simp only [Watch.bind, hp, List.append_nil]

theorem ranOuts_rule (s : State) : ranOuts ((rule i p).events s) = [] := by
  simp only [rule]
  split <;> rfl

/-- Where a block ends without its brace, the parser reads nothing. -/
def Idle (w : Watch p) : Prop :=
  ∀ s, endsBlock s.ahead = true → ∃ a s', p s = .ok a s' ∧ s'.ahead = s.ahead ∧
    ranOuts (w.events s) = []

theorem Idle.bind (h : Idle w) (hf : ∀ a, Idle (f a)) : Idle (w.bind f) := by
  intro s hs
  obtain ⟨a, s', hp, ha, hq⟩ := h s hs
  obtain ⟨b, s'', hr, ha', hq'⟩ := hf a s' (by rw [ha]; exact hs)
  refine ⟨b, s'', (bind_of_ok hp).trans hr, ha'.trans ha, ?_⟩
  rw [events_bind_of_ok hp, ranOuts_append, hq, hq']
  rfl

/-- Behind a block that ran out nothing happens. -/
theorem Faithful.bind (h : Faithful S N i here unnamed w) (hf : ∀ a, Faithful S N i here own (f a))
    (hi : (∀ s, ranOuts (w.events s) = []) ∨ own = unnamed ∧ ∀ a, Idle (f a)) :
    Faithful S N i here own (w.bind f) := by
  -- if a block ran out, the continuation is idle
  have hidle : ∀ {s a s'}, Left i.blocks s'.ahead (w.events s) none →
      ranOuts (w.events s) = [] ∨ own = unnamed ∧ ∃ b s'', k a s' = .ok b s'' ∧
        s''.ahead = s'.ahead ∧ ranOuts ((f a).events s') = [] := by
    rintro s a s' ⟨inner, hin, hend⟩
    by_cases hne : inner = []
    · exact .inl (by rw [hin, hne]; rfl)
    · exact hi.imp (fun hq => hq s) (.imp_right fun hi => hi a s' (hend hne))
  constructor
  · intro s b s'' hs hr
    obtain ⟨a, s', hp, hr⟩ := parser_bind_eq_ok.1 hr
    obtain ⟨ht, hl⟩ := h.value hs hp
    obtain ⟨ht', hl'⟩ := (hf a).value ht.toStands hr
    rw [events_bind_of_ok hp]
    refine ⟨ht.trans ht', ?_⟩
    rcases hidle (a := a) hl with hq | ⟨rfl, _, _, hk, ha, hq⟩
    · exact hl'.append hq
    · cases hk.symm.trans hr
      obtain ⟨inner, hin, hend⟩ := hl
      rw [ha]
      exact .inside inner (by rw [ranOuts_append, hq, hin, List.append_nil]) hend
  · intro s e s'' hs hr
    cases hp : p s with
    | error e' s' =>
      rw [bind_of_error hp] at hr
      cases hr
      rw [events_bind_of_error hp]
      exact h.fault hs hp
    | ok a s' =>
      rw [bind_of_ok hp] at hr
      obtain ⟨ht, hl⟩ := h.value hs hp
      obtain ⟨events, j, he, ht', ha, hq', hj⟩ := (hf a).fault ht.toStands hr
      rw [events_bind_of_ok hp, he, ← List.append_assoc]
      refine ⟨_, j, rfl, ht.trans ht', ha, ?_, hj⟩
      rcases hidle (a := a) hl with hq | ⟨-, _, _, hk, -⟩
      · rw [ranOuts_append, hq, hq']
        rfl
      · cases hk.symm.trans hr

theorem Faithful.give {g : α → β} {own' : α → Option String} (h : Faithful S N i here own' w)
    (ho : ∀ a, own' a = own (g a) := by exact fun _ => rfl) :
    Faithful S N i here own (w.give (g := g)) where
  value hs hr := by
    obtain ⟨a, s', hp, ⟨⟩⟩ := parser_bind_eq_ok.1 hr
    rw [← ho a]
    exact h.value hs hp
  fault hs hr := h.fault hs (eq_error_of_give hr)

theorem Faithful.forget {own : α → Option String} (h : Faithful S N i here own w) :
    Faithful S N i here unnamed w :=
  ⟨fun hs hr => (h.value hs hr).imp_right Left.forget, h.fault⟩

theorem faithful_rule (h : Plain p) : Faithful S N i here unnamed (rule i p) where
  value {s a s'} hs hr := by
    obtain ⟨read, hread⟩ := h.value hr
    have he : (rule i p).events s = [] := by simp only [rule, hr]
    rw [he]
    exact ⟨hs.told hread, left_of_quiet rfl⟩
  fault {s e s'} hs hr := by
    obtain ⟨read, hread, hraised⟩ := h.fault hr
    have he : (rule i p).events s = [.raised e i] := by simp only [rule, hr]
    rw [he]
    exact ⟨[], i, rfl, hs.told hread, hraised.answers hs hread, rfl, fun _ => rfl⟩

theorem faithful_fail {own : α → Option String} :
    Faithful S N i here own (rule i (fail expected : Parser α)) :=
  ⟨fun _ hr => (by cases hr), (faithful_rule plain_fail).fault⟩

theorem faithful_silent (h : Calm p) : Faithful S N i here unnamed (silent : Watch p) where
  value hs hr := by
    obtain ⟨read, hread⟩ := h.plain.value hr
    exact ⟨hs.told hread, left_of_quiet rfl⟩
  fault {s e s'} hs hr := by
    obtain ⟨_, _, _, _, hp⟩ := h s
    cases hp.symm.trans hr

/-- It is enough that each run is one that a watch tells the truth about. -/
theorem faithful_of_runs {own : α → Option String} (h : ∀ s, Stands S N i.opened s →
      ∃ (q : Parser α) (v : Watch q), Faithful S N i here own v ∧ q s = p s ∧
        v.events s = w.events s) : Faithful S N i here own w where
  value {s a s'} hs hr := by
    obtain ⟨q, v, hv, hq, he⟩ := h s hs
    rw [← he]
    exact hv.value hs (hq.trans hr)
  fault {s e s'} hs hr := by
    obtain ⟨q, v, hv, hq, he⟩ := h s hs
    rw [← he]
    exact hv.fault hs (hq.trans hr)

theorem events_rule_congr (h : p s = q s) : (rule i p).events s = (rule i q).events s := by
  simp only [rule, h]

theorem faithful_ite {own : α → Option String} [Decidable c] {w : Watch p} {w' : Watch q}
    (h : Faithful S N i here own w) (h' : Faithful S N i here own w') :
    Faithful S N i here own (ite (c := c) w w') := by
  refine faithful_of_runs fun s _ => ?_
  by_cases hc : c
  · exact ⟨p, w, h, by rw [if_pos hc], by simp only [ite, if_pos hc]⟩
  · exact ⟨q, w', h', by rw [if_neg hc], by simp only [ite, if_neg hc]⟩

theorem faithful_rounds {p : Parser (Option α)} {w : Watch p} (h : Faithful S N i here unnamed w)
    (hi : ∀ n, Idle (rounds w n)) : ∀ n, Faithful S N i here unnamed (rounds w n)
  | 0 => faithful_silent calm_pure
  | n + 1 => by
    refine h.bind (fun x => ?_) (.inr ⟨rfl, fun x => ?_⟩)
    · cases x with
      | none => exact faithful_silent calm_pure
      | some x => exact (faithful_rounds h hi n).give (g := (x :: ·))
    · cases x with
      | none => exact fun s _ => ⟨_, s, rfl, rfl, rfl⟩
      | some x =>
        intro s hs
        obtain ⟨xs, s', hr, ha, he⟩ := hi n s hs
        exact ⟨_, s', bind_of_ok hr, ha, he⟩

/-- A fault that is caught was told of. The record of the statement is back unless the parser
    failed inside of one. -/
theorem Faithful.recovered {isStart : List Token → Bool} {x : Option α}
    (h : Faithful S N i here unnamed w) (hs : Stands S N i.opened s)
    (hr : recovering isStart p s = .ok x s') : ∃ o, Told S N o s (w.events s) s' ∧
      Left i.blocks s'.ahead (w.events s) none ∧ (here = true ∨ x.isSome → o = i.opened) := by
  cases hp : p s with
  | ok a s₁ =>
    rw [recovering_of_ok hp] at hr
    cases hr
    obtain ⟨ht, hl⟩ := h.value hs hp
    exact ⟨_, ht, hl, fun _ => rfl⟩
  | error e s₁ =>
    obtain ⟨rest, hrest, hrec⟩ := recovering_of_error isStart hp
    rw [hrec] at hr
    cases hr
    obtain ⟨events, j, he, ht, ha, hq, hj⟩ := h.fault hs hp
    rw [he]
    refine ⟨_, ht.noted ha hrest, left_of_quiet (by rw [ranOuts_append, hq]; rfl), ?_⟩
    rintro (hhere | ⟨⟨⟩⟩)
    rw [hj hhere]

theorem Faithful.caught {isStart : List Token → Bool} (h : Faithful S N i true unnamed w) :
    Faithful S N i here unnamed (w.caught : Watch (recovering isStart p)) where
  value hs hr := by
    obtain ⟨o, ht, hl, ho⟩ := h.recovered hs hr
    rw [ho (.inl rfl)] at ht
    exact ⟨ht, hl⟩
  fault {s e s'} hs hr := by
    have ht : Total (recovering isStart p) := total_recovering
    obtain ⟨x, s₁, hp⟩ := ht s
    cases hp.symm.trans hr

/-! ## Blocks -/

theorem startsWith_of_endsBlock {ts : List Token} (hk : kind.startsDeclaration = false)
    (h : endsBlock ts = true) : startsWith kind ts = false := by
  cases ts with
  | nil => rfl
  | cons t ts =>
    replace h : t.kind.startsDeclaration = true := h
    refine beq_eq_false_iff_ne.2 fun he => ?_
    rw [he, hk] at h
    cases h

theorem events_bracedRound_of_end {b : OpenBlock} {around : List OpenBlock}
    (he : endsBlock s.ahead = true) :
    (bracedRound b around w).events s = [.ranOut b around s.ahead] := by
  have hb : startsWith .rbrace s.ahead = false := startsWith_of_endsBlock rfl he
  simp [bracedRound, hb, he]

theorem events_rounds_of_none {p : Parser (Option α)} {w : Watch p} (h : p s = .ok none s') :
    (rounds w (n + 1)).events s = w.events s := by
  rw [rounds, events_bind_of_ok h]
  exact List.append_nil _

theorem events_rounds_of_some {p : Parser (Option α)} {w : Watch p} {x : α}
    (h : p s = .ok (some x) s') :
    (rounds w (n + 1)).events s = w.events s ++ (rounds w n).events s' := by
  rw [rounds, events_bind_of_ok h]
  rfl

section
variable {b : OpenBlock} (hb : b.opening ∈ S.tokens ∧ b.opening.kind = .lbrace)
include hb

/-- A block runs out at the tokens ahead, and the first one that does is noted. -/
theorem told_of_end (around : List OpenBlock) {o : Option Opened} (hs : Stands S N o s)
    (he : endsBlock s.ahead = true)
    (h : Parser.bracedRound b.what b.opening p s = .ok none s') :
    Told S N o s [.ranOut b around s.ahead] s' ∧ s'.ahead = s.ahead := by
  rw [bracedRound_of_end he] at h
  obtain ⟨_, s₁, hu, ⟨⟩⟩ := parser_bind_eq_ok.1 h
  rw [reportUnclosed_eq] at hu
  cases hu
  have hsound : ∀ x ∈ [Event.ranOut b around s.ahead], x.Sound S := by simpa [Event.Sound] using hb
  cases hf : s.unclosedReported with
  | true =>
    exact ⟨⟨hs, by simp [faults, hf], by simp [Event.isRanOut, hf], hsound⟩, rfl⟩
  | false =>
    refine ⟨⟨{ hs with }, ?_, by simp [Event.isRanOut, hf], hsound⟩, rfl⟩
    simp [faults, OpenBlock.fault, hf]

/-- A round that gives no member ends the block. -/
theorem told_of_none (hs : Stands S N i.opened s)
    (h : Parser.bracedRound b.what b.opening p s = .ok none s') :
    Told S N i.opened s ((bracedRound b i.blocks w).events s) s' ∧
      Ended b i.blocks s'.ahead ((bracedRound b i.blocks w).events s) := by
  rcases bracedRound_cases s with ⟨t, ts, ha, ht⟩ | he | ⟨t, ts, ha, hr, hd⟩
  · rw [bracedRound_of_rbrace ha ht] at h
    cases h
    have hev : (bracedRound b i.blocks w).events s = [.closed b i.blocks] := by
      simp [bracedRound, ha, startsWith, ht]
    have hts : Stands S N i.opened (s.leaving ts) :=
      hs.leaving (by rw [ha]; exact List.suffix_cons ..)
    rw [hev]
    refine ⟨⟨hts, by simp [faults], by simp [Event.isRanOut], by simp [Event.Sound]⟩, ?_⟩
    exact .closed (rfl : ranOuts [] = [])
  · obtain ⟨ht, ha⟩ := told_of_end hb i.blocks hs he h
    rw [events_bracedRound_of_end he, ha]
    exact ⟨ht, @Ended.ranOut b i.blocks s.ahead [] [] he rfl⟩
  · rw [bracedRound_of_member ha hr hd] at h
    obtain ⟨_, _, -, h⟩ := parser_bind_eq_ok.1 h
    cases h

omit hb in
theorem member_of_some (h : Parser.bracedRound b.what b.opening p s = .ok (some a) s') :
    p s = .ok a s' ∧ endsBlock s.ahead = false ∧
      (bracedRound b i.blocks w).events s = w.events s := by
  rcases bracedRound_cases s with ⟨t, ts, ha, ht⟩ | he | ⟨t, ts, ha, hr, hd⟩
  · rw [bracedRound_of_rbrace ha ht] at h
    cases h
  · rw [bracedRound_of_end he] at h
    cases h
  · rw [bracedRound_of_member ha hr hd] at h
    obtain ⟨_, _, hp, ⟨⟩⟩ := parser_bind_eq_ok.1 h
    exact ⟨hp, by rw [ha]; exact hd, by simp [bracedRound, ha, startsWith, hr, endsBlock, hd]⟩

/-- The induction is over the rounds. Behind a member in which a block runs out, this block runs
    out at once; no block runs out in the members in front of it. -/
theorem told_of_repeats {xs : List α} {s₁ : State} (h : Faithful S N (i.block b) here unnamed w)
    (hs : Stands S N i.opened s) (hx : Repeats (Parser.bracedRound b.what b.opening p) s xs s₁)
    (hnone : Parser.bracedRound b.what b.opening p s₁ = .ok none s') (hn : xs.length < n) :
    Told S N i.opened s ((rounds (bracedRound b i.blocks w) n).events s) s' ∧
      Ended b i.blocks s'.ahead ((rounds (bracedRound b i.blocks w) n).events s) := by
  induction hx generalizing n with
  | nil s =>
    obtain ⟨n, rfl⟩ := Nat.exists_eq_succ_of_ne_zero (Nat.ne_of_gt hn)
    rw [events_rounds_of_none hnone]
    exact told_of_none hb hs hnone
  | @cons s s₂ s₁ x xs hr hrest ih =>
    obtain ⟨n, rfl⟩ := Nat.exists_eq_succ_of_ne_zero (Nat.ne_of_gt (Nat.zero_lt_of_lt hn))
    replace hn : xs.length < n := Nat.lt_of_succ_lt_succ hn
    obtain ⟨hp, -, he⟩ := member_of_some (i := i) (w := w) hr
    obtain ⟨ht, inner, hin, hend⟩ := h.value hs hp
    obtain ⟨ht', hended⟩ := ih ht.toStands hnone hn
    rw [events_rounds_of_some hr, he]
    refine ⟨ht.trans ht', ?_⟩
    by_cases hne : inner = []
    · exact hended.append (by rw [hin, hne]; rfl)
    · cases hrest with
      | cons hr' _ =>
        obtain ⟨-, hend', -⟩ := member_of_some (i := i) (w := w) hr'
        rw [hend hne] at hend'
        cases hend'
      | nil =>
        obtain ⟨n, rfl⟩ := Nat.exists_eq_succ_of_ne_zero (Nat.ne_of_gt hn)
        obtain ⟨-, ha⟩ := told_of_end hb i.blocks ht.toStands (hend hne) hnone
        rw [events_rounds_of_none hnone, events_bracedRound_of_end (hend hne), ha]
        exact .ranOut (hend hne) hin

end

theorem faithful_braced {what : String} {c : Bool} {w : Inside → Watch p}
    (h : ∀ b, Faithful S N (i.block b) here unnamed (w (i.block b))) (hp : Parallel N c p p)
    (hprogress : Progresses N p) (ht : Total p) :
    Faithful S (N + 1) i here (fun _ => some what)
      (braced i w : Watch (Parser.braced what expected p)) where
  value {s xs s'} hs hr := by
    obtain ⟨opening, s₁, ho, hr⟩ := parser_bind_eq_ok.1 hr
    obtain ⟨ts, hts, hk, rfl⟩ := expect_eq_ok ho
    have hl := hs.length
    rw [hts, List.length_cons] at hl
    have hb : opening ∈ S.tokens := List.mem_cons_of_mem _ (hs.ahead (by simp [hts]))
    have hs₁ : Stands S N i.opened (s.leaving ts) :=
      { hs.leaving (by rw [hts]; exact List.suffix_cons ..) with
        length := Nat.lt_of_succ_lt_succ hl }
    have hround : Parallel N false (Parser.bracedRound what opening p)
      (Parser.bracedRound what opening p) := parallel_bracedRound hp
    have hadvances : Advances N (Parser.bracedRound what opening p) :=
      advances_bracedRound hprogress
    obtain ⟨s₂, hx, hnone⟩ := (many_eq_ok hround hadvances hs₁.toFits).1 hr
    have hlength := (onward_repeats hround hadvances hs₁.toFits hx).2
    obtain ⟨htold, hended⟩ := told_of_repeats (b := ⟨what, opening⟩) (n := ts.length + 1) ⟨hb, hk⟩
      (h _) hs₁ hx hnone (Nat.lt_succ_of_le (Nat.le_of_add_right_le hlength))
    have hev : (braced i w : Watch (Parser.braced what expected p)).events s =
        (rounds (bracedRound ⟨what, opening⟩ i.blocks (w (i.block ⟨what, opening⟩)))
          (ts.length + 1)).events (s.leaving ts) := by
      refine (events_bind_of_ok
        (k := fun opening => Parser.many (Parser.bracedRound what opening p)) ho).trans ?_
      simp only [rule, ho]
      rfl
    rw [hev]
    exact ⟨{ htold with length := Nat.lt_succ_of_lt htold.length }, .block _ hended⟩
  fault {s e s'} hs hr := by
    replace hr := eq_error_of_braced ht hr
    have hev : (braced i w : Watch (Parser.braced what expected p)).events s =
        (rule i (expect .lbrace expected)).events s :=
      events_bind_of_error (k := fun opening => Parser.many (Parser.bracedRound what opening p)) hr
    have hlbrace : Ordinary .lbrace := by decide
    rw [hev]
    exact (faithful_rule (steady_expect hlbrace).plain).fault hs hr

end

end Watch

section
variable {α β : Type} {p : Parser α} {k : α → Parser β} {f : (a : α) → Watch (k a)} {S : State}
  {N : Nat} {i : Inside} {here : Bool} {own : β → Option String}
  (hf : ∀ a, Watch.Faithful S N i here own (f a))
include hf

theorem Parser.Plain.leads (h : Plain p) :
    Watch.Faithful S N i here own ((Watch.rule i p).bind f) :=
  (Watch.faithful_rule h).bind hf (.inl Watch.ranOuts_rule)

theorem Parser.Calm.leads (h : Calm p) :
    Watch.Faithful S N i here own ((Watch.silent : Watch p).bind f) :=
  (Watch.faithful_silent h).bind hf (.inl fun _ => rfl)

end

end Grammar

end UiScenario
