import UiScenario.Proofs.ParallelGrammar

/-!
Runs without a fault. `Went Q s s'` says that from `s` to `s'` faults were only added, and that the
tokens that were read have the property `Q` if none was. Most rules read no tags in such a run
(`Quiet`). What keeps to its tokens reads none at all; left are the rules for statements and blocks,
which recover from faults. A statement reads its keyword without a look, and is quiet where the next
token is no tag. `Tells R p s` is for the rules that do read tags: it relates what a run gives to
the tokens it reads.
-/

namespace UiScenario.Grammar

open UiScenario.Grammar.Parser

/-- From `s` to `s'` faults may have been noted. If there are none, tokens with the property were
read. -/
def Went (Q : List Token → Prop) (s s' : State) : Prop :=
  ∃ noted, s'.errors = s.errors ++ noted ∧
    (noted = [] → ∃ read, s.ahead = read ++ s'.ahead ∧ Q read)

section
variable {Q Q' R : List Token → Prop} {s s' s'' : State}

theorem Went.refl (h : Q []) : Went Q s s :=
  ⟨[], (List.append_nil _).symm, fun _ => ⟨[], rfl, h⟩⟩

theorem Went.trans (h : Went Q s s') (h' : Went Q' s' s'') (hR : ∀ u v, Q u → Q' v → R (u ++ v)) :
    Went R s s'' := by
  obtain ⟨noted, he, hread⟩ := h
  obtain ⟨noted', he', hread'⟩ := h'
  refine ⟨noted ++ noted', by rw [he', he, List.append_assoc], fun hn => ?_⟩
  obtain ⟨hn, hn'⟩ := List.append_eq_nil_iff.1 hn
  obtain ⟨u, hu, hQ⟩ := hread hn
  obtain ⟨v, hv, hQ'⟩ := hread' hn'
  exact ⟨u ++ v, by rw [hu, hv, List.append_assoc], hR u v hQ hQ'⟩

theorem Went.mono (h : Went Q s s') (hR : ∀ u, Q u → R u) : Went R s s' := by
  obtain ⟨noted, he, hread⟩ := h
  refine ⟨noted, he, fun hn => ?_⟩
  obtain ⟨u, hu, hQ⟩ := hread hn
  exact ⟨u, hu, hR u hQ⟩

theorem Went.of_clean (h : Went Q s s') (hc : s'.errors = s.errors) :
    ∃ read, s.ahead = read ++ s'.ahead ∧ Q read := by
  obtain ⟨noted, he, hread⟩ := h
  exact hread (List.append_right_eq_self.1 (he.symm.trans hc))

/-- Once a fault is noted, the tokens do not matter. -/
theorem Went.noted {e : SyntaxError} (h : Went Q s s') (he : s''.errors = s'.errors ++ [e]) :
    Went R s s'' := by
  obtain ⟨noted, he', -⟩ := h
  exact ⟨noted ++ [e], by rw [he, he', List.append_assoc], fun hn => absurd hn (by simp)⟩

end

namespace Parser

/-! ## Quiet parsers -/

/-- The next token is no tag. -/
abbrev noTag (s : State) : Prop :=
  s.current.kind ≠ .tag

/-- From places with the property `P`, a parser reads no tags in a run without a fault, and faults
stay noted also when it fails. -/
def Quiet {α : Type} (P : State → Prop) (p : Parser α) : Prop :=
  ∀ s₀ s, Went Untagged s₀ s → P s → Ends (Went Untagged s₀) (fun _ => True) (p s)

section
variable {α β : Type} {P P' : State → Prop} {p q : Parser α} {k : α → Parser β}

theorem Quiet.yields (h : Quiet anywhere p) (s₀ : State) :
    Yields (Went Untagged s₀) p fun _ => True :=
  fun s hs => h s₀ s hs trivial

theorem quiet_of_yields (h : ∀ s₀, Yields (Went Untagged s₀) p fun _ => True) : Quiet P p :=
  fun s₀ s hs _ => h s₀ s hs

theorem Quiet.mono (h : Quiet P p) (hP : ∀ s, P' s → P s) : Quiet P' p :=
  fun s₀ s hs hP' => h s₀ s hs (hP s hP')

theorem Quiet.bind (h : Quiet P p) (hk : ∀ a, Quiet anywhere (k a)) : Quiet P (p >>= k) :=
  fun s₀ s hs hP => ends_bind (h s₀ s hs hP) fun a _ => (hk a).yields s₀

theorem quiet_pure {a : α} : Quiet P (pure a) :=
  quiet_of_yields fun _ => yields_pure trivial

theorem quiet_fail {expected : String} : Quiet P (fail expected : Parser α) :=
  quiet_of_yields fun _ => yields_fail

theorem quiet_throw {e : SyntaxError} : Quiet P (throw e : Parser α) :=
  quiet_of_yields fun _ => yields_throw

theorem Quiet.give {f : α → β} (h : Quiet P p) : Quiet P (p >>= fun a => pure (f a)) :=
  h.bind fun _ => quiet_pure

theorem quiet_ite {c : Prop} [Decidable c] (hp : c → Quiet P p) (hq : ¬c → Quiet P q) :
    Quiet P (if c then p else q) := by
  split
  · next hc => exact hp hc
  · next hc => exact hq hc

theorem Settles.quiet {n : Nat} (h : Settles P n p) : Quiet P p := by
  have hgo : ∀ {s₀ s read s'}, Went Untagged s₀ s → PassesUntagged s read s' →
      Went Untagged s₀ s' := fun hs hread => by
    refine hs.trans ⟨[], ?_, fun _ => ⟨_, hread.ahead, hread.untagged⟩⟩ fun _ _ => Untagged.append
    rw [hread.same, List.append_nil]
    rfl
  intro s₀ s hs hP
  cases hp : p s with
  | ok a s' =>
    obtain ⟨read, hread, -⟩ := h.value hP hp
    exact ⟨trivial, hgo hs hread⟩
  | error e s' =>
    obtain ⟨read, hread, -⟩ := h.fault hP hp
    exact hgo hs hread

theorem Steady.quiet {n : Nat} (h : Steady P n p) : Quiet P p :=
  h.toSettles.quiet

/-! ## Looking ahead -/

theorem quiet_current {f : Token → Parser α}
    (h : ∀ t, Quiet (fun s => P s ∧ s.current = t) (f t)) : Quiet P (current >>= f) :=
  fun s₀ s hs hP => h s.current s₀ s hs ⟨hP, rfl⟩

theorem quiet_look {g : List Token → Bool} (hP : ∀ s, g s.ahead = true → P' s) (hp : Quiet P' p)
    (hq : Quiet P q) : Quiet P (ahead >>= fun ts => if g ts = true then p else q) := by
  intro s₀ s hs h
  rw [ahead_ite]
  split
  · next hg => exact hp s₀ s hs (hP s hg)
  · exact hq s₀ s hs h

theorem quiet_ahead {f : List Token → Parser α} (h : ∀ ts, Quiet P (f ts)) :
    Quiet P (ahead >>= f) :=
  fun s₀ s hs hP => h s.ahead s₀ s hs hP

/-! ## Single tokens -/

theorem quiet_advance : Quiet noTag advance := by
  intro s₀ s hs hP
  refine ⟨trivial, hs.trans ⟨[], (List.append_nil _).symm, fun _ => ?_⟩ fun _ _ => Untagged.append⟩
  cases ht : s.ahead with
  | nil => exact ⟨[], rfl, untagged_nil⟩
  | cons t ts =>
    have hc : s.current = t := by rw [State.current, ht]; rfl
    exact ⟨[t], rfl, untagged_singleton (hc ▸ hP)⟩

theorem noTag_of_startsWith {kind : TokenKind} (hk : kind ≠ .tag) {s : State}
    (h : startsWith kind s.ahead = true) : noTag s := by
  rw [noTag, current_of_startsWith h]
  exact hk

theorem quiet_eat {kind : TokenKind} (hk : kind ≠ .tag) : Quiet P (eat kind) :=
  quiet_look (fun _ h => noTag_of_startsWith hk h) quiet_advance.give quiet_pure

theorem quiet_option {kind : TokenKind} {f : Bool → Parser α} (hk : kind ≠ .tag)
    (ht : Quiet anywhere (f true)) (hf : Quiet P (f false)) : Quiet P (eat kind >>= f) := by
  rw [eat_bind]
  exact quiet_look (fun _ h => noTag_of_startsWith hk h) (quiet_advance.bind fun _ => ht) hf

/-- A token is read without a look, and the next one is known, too. -/
theorem quiet_advance_then (hs : ∀ s, P s → noTag s ∧ P' (s.leaving s.ahead.tail))
    (hp : Quiet P' p) : Quiet P (advance >>= fun _ => p) := by
  intro s₀ s hw hP
  have hnext := quiet_advance s₀ s hw (hs s hP).1
  exact hp s₀ (s.leaving s.ahead.tail) hnext.2 (hs s hP).2

/-! ## Repetition -/

theorem quiet_many {p : Parser (Option α)} (h : Quiet anywhere p) : Quiet P (many p) :=
  quiet_of_yields fun s₀ => (yields_many (q := fun _ => True)
    ((h.yields s₀).mono fun _ _ _ _ => trivial)).mono fun _ _ => trivial

/-! ## Recovery -/

theorem quiet_setOpened {opened : Option Opened} : Quiet P (setOpened opened) :=
  quiet_of_yields fun _ => yields_modify fun _ hs => hs

theorem quiet_enclosed {start back : Option Opened → Option Opened} (h : Quiet anywhere p) :
    Quiet P (enclosed start back p) := by
  refine quiet_of_yields fun s₀ => yields_get fun s => ?_
  refine (quiet_setOpened.yields s₀).bind fun _ _ => (h.yields s₀).bind fun _ _ => ?_
  exact (quiet_setOpened.yields s₀).bind fun _ _ => yields_pure trivial

theorem recovering_of_ok {isStart : List Token → Bool} {s s' : State} {a : α}
    (h : p s = .ok a s') : recovering isStart p s = .ok (some a) s' := by
  rw [recovering, current_bind, attempt_bind_of_ok h]
  rfl

theorem recovering_of_error (isStart : List Token → Bool) {s s' : State} {e : SyntaxError}
    (h : p s = .error e s') : ∃ ahead, ahead <:+ s'.ahead ∧ recovering isStart p s =
      .ok none { s' with ahead, errors := s'.errors ++ [e] } := by
  rw [recovering, current_bind, attempt_bind_of_error h]
  exact ⟨_, skipTo_suffix .., rfl⟩

theorem quiet_recovering {isStart : List Token → Bool} (h : Quiet anywhere p) :
    Quiet P (recovering isStart p) := by
  intro s₀ s hs _
  have hends := h s₀ s hs trivial
  cases hp : p s with
  | ok a s' =>
    rw [hp] at hends
    rw [recovering_of_ok hp]
    exact hends
  | error e s' =>
    rw [hp] at hends
    obtain ⟨ahead, -, hr⟩ := recovering_of_error isStart hp
    rw [hr]
    exact ⟨trivial, hends.noted rfl⟩

theorem quiet_atBlockEnd : Quiet P atBlockEnd := by
  refine quiet_ahead fun ts => ?_
  cases ts <;> exact quiet_pure

theorem quiet_reportUnclosed {block : String} {opening : Token} :
    Quiet P (reportUnclosed block opening) := by
  refine quiet_of_yields fun s₀ => yields_modify fun s hs => ?_
  split
  · exact hs
  · exact hs.noted rfl

theorem quiet_bracedRound {block : String} {opening : Token} (h : Quiet anywhere p) :
    Quiet P (bracedRound block opening p) := by
  refine (quiet_eat (by decide)).bind fun _ => quiet_ite (fun _ => quiet_pure) fun _ => ?_
  refine quiet_atBlockEnd.bind fun _ => quiet_ite (fun _ => ?_) fun _ => h.give
  exact quiet_reportUnclosed.give

theorem quiet_braced {block expected : String} (h : Quiet anywhere p) :
    Quiet P (braced block expected p) :=
  (steady_expect (by decide)).quiet.bind fun _ => quiet_many (quiet_bracedRound h)

end

end Parser

section
variable {P : State → Prop}

/-! ## Statements -/

theorem quiet_stepRule {word : Keyword} {ts : List Token} {rule : Parser Step}
    (h : stepRule? word ts = some rule) : Quiet noTag rule := by
  obtain ⟨n, ⟨k, rfl, hk⟩, -⟩ := headed_stepRule h
  exact quiet_advance.bind fun t => (hk t).quiet

section
variable {block : String → Parser (List Statement)} (hb : ∀ what, Quiet anywhere (block what))
include hb

theorem quiet_arm : Quiet noTag (arm block) :=
  quiet_advance.bind fun _ => steady_condition.toSettles.quiet.bind fun _ => (hb _).give

theorem quiet_armRound : Quiet P (armRound block) := by
  refine quiet_look (fun _ h => h) (quiet_advance_then (fun s h => ?_) (quiet_arm hb).give)
    quiet_pure
  obtain ⟨helse, hif⟩ := Bool.and_eq_true_iff.1 h
  refine ⟨noTag_of_startsWith (by decide) helse,
    @noTag_of_startsWith (.keyword .if_) (by decide) _ ?_⟩
  rwa [ahead_leaving, ← List.drop_one]

theorem quiet_branchStatement : Quiet noTag (branchStatement block) := by
  rw [branchStatement_eq]
  refine (quiet_arm hb).bind fun first => (quiet_many (quiet_armRound hb)).bind fun further => ?_
  exact quiet_option (by decide) (hb _).give quiet_pure

theorem quiet_repeatStatement : Quiet noTag (repeatStatement block) :=
  quiet_advance.bind fun _ => steady_expression.quiet.bind fun _ =>
    (steady_expect (by decide)).quiet.bind fun _ => (hb _).give

theorem quiet_forEachStatement : Quiet noTag (forEachStatement block) :=
  quiet_advance.bind fun _ => (steady_expect (by decide)).quiet.bind fun _ =>
    steady_binding.quiet.bind fun _ => (steady_expect (by decide)).quiet.bind fun _ =>
      steady_name.quiet.bind fun _ => (hb _).give

theorem quiet_statementRule : Quiet P (statementRule block) := by
  refine quiet_current fun start => ?_
  have hfrom : ∀ {word : Keyword} {p : Parser Statement}, start.kind = .keyword word →
      Quiet noTag p → Quiet (fun s => P s ∧ s.current = start) p := by
    intro word p hk hp
    refine hp.mono ?_
    rintro s ⟨-, rfl⟩
    rw [noTag, hk]
    simp
  dsimp only
  split
  · next hk => exact hfrom hk (quiet_branchStatement hb)
  · next hk => exact hfrom hk (quiet_repeatStatement hb)
  · next hk => exact hfrom hk (quiet_forEachStatement hb)
  · next hk =>
    refine quiet_ahead fun ts => ?_
    split
    · next hr => exact (hfrom hk (quiet_stepRule hr).give)
    · exact quiet_throw
  · exact quiet_throw

theorem quiet_blockMember : Quiet P (blockMember block) := by
  rw [blockMember_eq]
  refine quiet_enclosed (quiet_recovering ?_)
  rw [statementWith_eq]
  exact quiet_current fun _ => quiet_enclosed (quiet_statementRule hb)

end

theorem quiet_nestedBlock : ∀ n what, Quiet anywhere (nestedBlock n what)
  | 0, _ => quiet_fail
  | n + 1, _ => (quiet_braced (quiet_blockMember (quiet_nestedBlock n))).give

theorem quiet_block {what : String} : Quiet P (block what) :=
  quiet_ahead fun ts => (quiet_nestedBlock (ts.length + 1) what).mono fun _ _ => trivial

end

/-! ## Runs from a place -/

/-- What a run from `s` tells: it adds faults or, where its value is `a` and there are none, reads
tokens `ts` with `R a ts`. -/
def Tells {α : Type} (R : α → List Token → Prop) (p : Parser α) (s : State) : Prop :=
  match p s with
  | .ok a s' => Went (R a) s s'
  | .error _ s' => Went (fun _ => True) s s'

section
variable {α β : Type} {R : α → List Token → Prop} {T : β → List Token → Prop} {p : Parser α}
  {k : α → Parser β} {s : State}

theorem Tells.bind (h : Tells R p s)
    (hk : ∀ a s', Tells (fun b v => ∀ u, R a u → T b (u ++ v)) (k a) s') : Tells T (p >>= k) s := by
  unfold Tells at h ⊢
  cases hp : p s with
  | error e s' =>
    rw [bind_of_error hp]
    rwa [hp] at h
  | ok a s' =>
    rw [bind_of_ok hp]
    rw [hp] at h
    have hk := hk a s'
    unfold Tells at hk
    cases hr : k a s' with
    | ok b s'' =>
      rw [hr] at hk
      exact h.trans hk fun u v hu hv => hv u hu
    | error e s'' =>
      rw [hr] at hk
      exact h.trans hk fun _ _ _ _ => trivial

theorem tells_of_eq {q : Parser α} (heq : p s = q s) (h : Tells R q s) : Tells R p s := by
  unfold Tells
  rw [heq]
  exact h

theorem tells_pure {a : α} (h : R a []) : Tells R (pure a) s :=
  Went.refl h

theorem tells_fail {expected : String} : Tells R (fail expected) s :=
  Went.refl trivial

theorem Parser.Quiet.tells {P : State → Prop} (h : Quiet P p) (hs : P s) :
    Tells (fun _ => Untagged) p s := by
  have hends := h s s (.refl untagged_nil) hs
  unfold Tells
  cases hp : p s with
  | ok a s' =>
    rw [hp] at hends
    exact hends.2
  | error e s' =>
    rw [hp] at hends
    exact Went.mono hends fun _ _ => trivial

theorem tells_recovering {isStart : List Token → Bool} (h : Tells R p s) :
    Tells (fun x ts => ∃ a, x = some a ∧ R a ts) (recovering isStart p) s := by
  unfold Tells at h ⊢
  cases hp : p s with
  | ok a s' =>
    rw [hp] at h
    rw [recovering_of_ok hp]
    exact h.mono fun ts ht => ⟨a, rfl, ht⟩
  | error e s' =>
    rw [hp] at h
    obtain ⟨ahead, -, hr⟩ := recovering_of_error isStart hp
    rw [hr]
    exact h.noted rfl

end

end UiScenario.Grammar
