import UiScenario.Proofs.Parallel

/-!
Faults and blocks of two parsers side by side. A fault that is noted ends the part of a run that
does not depend on what follows; a block in braces is read alike if its members are.
-/

namespace UiScenario.Grammar.Parser

/-! ## Recovery -/

/-- A parser that notes a fault. -/
def Faulty {α : Type} (N : Nat) (p : Parser α) : Prop :=
  ∀ s a s', Fits N s → p s = .ok a s' → ¬Clean s s'

section
variable {α β : Type} {N : Nat} {c d : Bool} {p q : Parser α} {s s' : State} {a : α}
  {e : SyntaxError} {k : Except SyntaxError α → Parser β}

theorem attempt_bind_of_ok (h : p s = .ok a s') : (attempt p >>= k) s = k (.ok a) s' :=
  bind_of_ok (by rw [attempt_eq, h])

theorem attempt_bind_of_error (h : p s = .error e s') : (attempt p >>= k) s = k (.error e) s' :=
  bind_of_ok (by rw [attempt_eq, h])

/-- Where no fault is noted, the parser gives a value. -/
theorem exists_of_attempt {k' : SyntaxError → Parser β} {b : β} {s'' : State} (h : Parallel N c p q)
    (herror : ∀ e, Parallel N d (k (.error e)) (k' e)) (hf : ∀ e, Faulty N (k (.error e)))
    (hs : Fits N s) (hb : (attempt p >>= k) s = .ok b s'') (hc : Clean s s'') :
    ∃ a s', p s = .ok a s' ∧ k (.ok a) s' = .ok b s'' := by
  cases hp : p s with
  | ok a s' =>
    rw [attempt_bind_of_ok hp] at hb
    exact ⟨a, s', rfl, hb⟩
  | error e s' =>
    rw [attempt_bind_of_error hp] at hb
    have ho := h.onward_error hs hp
    have ho' := (herror e).onward_ok (hs.onward ho) hb
    exact absurd (ho.clean_right ho' hc) (hf e s' b s'' (hs.onward ho) hb)

/-- A failure is handed out to a parser that notes a fault. -/
theorem parallel_attempt {k' : Except SyntaxError α → Parser β} (h : Parallel N c p q)
    (hok : ∀ a, Parallel N d (k (.ok a)) (k' (.ok a)))
    (herror : ∀ e, Parallel N d (k (.error e)) (k' (.error e)))
    (hf : ∀ e, Faulty N (k (.error e))) : Parallel N d (attempt p >>= k) (attempt q >>= k') := by
  -- Both ends of `p` leave a place from which a parser goes on that is parallel.
  have hgo : ∀ s, Fits N s → ∃ x s', Onward s s' ∧ (attempt p >>= k) s = k x s' ∧
      Parallel N d (k x) (k' x) ∧ (attempt q >>= k') s = k' x s' := by
    intro s hs
    have hr := h.same s hs
    cases hp : p s with
    | ok a s' =>
      rw [hp] at hr
      exact ⟨_, s', h.onward_ok hs hp, attempt_bind_of_ok hp, hok a, attempt_bind_of_ok hr⟩
    | error e s' =>
      rw [hp] at hr
      exact ⟨_, s', h.onward_error hs hp, attempt_bind_of_error hp, herror e,
        attempt_bind_of_error hr⟩
  constructor
  · intro s hs
    obtain ⟨x, s', ho, heq, hk, -⟩ := hgo s hs
    have hr := hk.onward s' (hs.onward ho)
    rw [heq]
    cases hq : k x s' with
    | ok b s'' => rw [hq] at hr; exact ⟨trivial, ho.trans hr.2⟩
    | error e s'' => rw [hq] at hr; exact ho.trans hr
  · intro hd s b s'' hs hne hb
    obtain ⟨x, s', ho, heq, hk, -⟩ := hgo s hs
    rw [heq] at hb
    have hs' := hs.onward ho
    exact ho.shorter (hk.onward_ok hs' hb) hne fun he => hk.reads hd s' b s'' hs' he hb
  · intro s b s'' hs hb hc hn
    obtain ⟨a, s', hp, hb⟩ := exists_of_attempt h herror hf hs hb hc
    have ho := h.onward_ok hs hp
    have ho' := (hok a).onward_ok (hs.onward ho) hb
    exact (hok a).opened s' b s'' (hs.onward ho) hb (ho.clean_right ho' hc)
      (h.opened s a s' hs hp (ho.clean_left ho' hc) hn)
  · intro s hs
    obtain ⟨x, s', ho, heq, hk, heq'⟩ := hgo s hs
    rw [heq, heq']
    exact hk.same s' (hs.onward ho)
  · intro s b s'' hs hb hc hcl hne behind last
    obtain ⟨a, s', hp, hb⟩ := exists_of_attempt h herror hf hs hb hc
    have ho := h.onward_ok hs hp
    have ho' := (hok a).onward_ok (hs.onward ho) hb
    have hne' : s'.ahead ≠ [] := fun he => hne (List.suffix_nil.1 (he ▸ ho'.ahead))
    have hl := h.longer s a s' hs hp (ho.clean_left ho' hc) hcl hne' behind last
    rw [attempt_bind_of_ok hl]
    exact (hok a).longer s' b s'' (hs.onward ho) hb (ho.clean_right ho' hc)
      (hcl.of_suffix ho.ahead hne') hne behind last

end

theorem skipTo_suffix (isStart : List Token → Bool) (line depth : Nat) (ts : List Token) :
    skipTo isStart line depth ts <:+ ts := by
  fun_induction skipTo isStart line depth ts with
  | case1 => exact List.suffix_refl _
  | case2 | case4 | case6 => exact List.suffix_refl _
  | case3 _ _ _ _ _ ih | case5 _ _ _ _ _ _ _ ih | case7 _ _ _ _ _ _ _ ih =>
    exact ih.trans (List.suffix_cons ..)

theorem skipDeclaration_suffix (ts : List Token) : skipDeclaration ts <:+ ts :=
  (List.dropWhile_suffix _).trans (List.drop_suffix ..)

section
variable {α β : Type} {N : Nat} {c : Bool} {p q : Parser α} {j : List Token → List Token}
  {e : SyntaxError} {b : β}

theorem parallel_giveUp (hj : ∀ ts, j ts <:+ ts) :
    Parallel N false (report e >>= fun _ => skip j >>= fun _ => pure b)
      (report e >>= fun _ => skip j >>= fun _ => pure b) where
  onward s _ := ⟨trivial, hj _, rfl, List.prefix_append .., fun he => absurd he (by simp)⟩
  reads hc := by cases hc
  opened := by rintro s a s' - ⟨⟩ - h; exact h
  same _ _ := rfl
  longer := by
    rintro s a s' - ⟨⟩ hc
    exact absurd hc.errors (by simp)

theorem faulty_giveUp : Faulty N (report e >>= fun _ => skip j >>= fun _ => pure b) := by
  rintro s a s' - ⟨⟩ hc
  exact absurd hc.errors (by simp)

theorem parallel_recovering {isStart : List Token → Bool} (h : Parallel N c p q) :
    Parallel N false (recovering isStart p) (recovering isStart q) :=
  parallel_current.bind fun t => parallel_attempt h (fun _ => parallel_pure)
    (fun _ => parallel_giveUp (skipTo_suffix isStart t.line 0)) fun _ => faulty_giveUp

/-! ## Statements that are open -/

/-- Runs a parser with another statement as the open one. -/
def enclosed (start back : Option Opened → Option Opened) (p : Parser α) : Parser α := do
  let enclosing := (← get).opened
  setOpened (start enclosing)
  let found ← p
  setOpened (back enclosing)
  return found

section
variable {start back : Option Opened → Option Opened} {s s' : State} {a : α}

theorem enclosed_of_ok (h : p (s.reopened (start s.opened)) = .ok a s') :
    enclosed start back p s = .ok a (s'.reopened (back s.opened)) :=
  bind_of_ok (k := fun found => setOpened (back s.opened) >>= fun _ => pure found) h

theorem enclosed_of_error {e : SyntaxError} (h : p (s.reopened (start s.opened)) = .error e s') :
    enclosed start back p s = .error e s' :=
  bind_of_error (k := fun found => setOpened (back s.opened) >>= fun _ => pure found) h

theorem exists_of_enclosed_eq_ok (h : enclosed start back p s = .ok a s') :
    ∃ s₁, p (s.reopened (start s.opened)) = .ok a s₁ ∧ s' = s₁.reopened (back s.opened) := by
  cases hp : p (s.reopened (start s.opened)) with
  | ok a₁ s₁ =>
    rw [enclosed_of_ok hp] at h
    cases h
    exact ⟨s₁, rfl, rfl⟩
  | error e s₁ =>
    rw [enclosed_of_error hp] at h
    cases h

/-- Which statement is open at the end does not depend on the parser. -/
theorem parallel_enclosed (h : Parallel N c p q) (hnone : back none = none) :
    Parallel N c (enclosed start back p) (enclosed start back q) := by
  have hfits : ∀ {s : State} {o : Option Opened}, Fits N s → Fits N (s.reopened o) :=
    fun hs => ⟨hs.length, hs.last⟩
  constructor
  · intro s hs
    cases hp : p (s.reopened (start s.opened)) with
    | ok a s₁ =>
      rw [enclosed_of_ok hp]
      have ho := h.onward_ok (hfits hs) hp
      exact ⟨trivial, ho.ahead, ho.last, ho.errors, ho.quiet⟩
    | error e s₁ =>
      rw [enclosed_of_error hp]
      have ho := h.onward_error (hfits hs) hp
      exact ⟨ho.ahead, ho.last, ho.errors, ho.quiet⟩
  · intro hc s a s' hs hne hr
    obtain ⟨s₁, hp, rfl⟩ := exists_of_enclosed_eq_ok hr
    exact h.reads hc (s.reopened (start s.opened)) a s₁ (hfits hs) hne hp
  · intro s a s' hs hr hc ho
    obtain ⟨s₁, hp, rfl⟩ := exists_of_enclosed_eq_ok hr
    show back s.opened = none
    rw [ho, hnone]
  · intro s hs
    have hr := h.same (s.reopened (start s.opened)) (hfits hs)
    cases hp : p (s.reopened (start s.opened)) with
    | ok a s₁ => rw [enclosed_of_ok hp, enclosed_of_ok (hr.trans hp)]
    | error e s₁ => rw [enclosed_of_error hp, enclosed_of_error (hr.trans hp)]
  · intro s a s' hs hr hc hcl hne behind last
    obtain ⟨s₁, hp, rfl⟩ := exists_of_enclosed_eq_ok hr
    exact enclosed_of_ok (s := s.longer behind last) (h.longer (s.reopened (start s.opened)) a s₁
      (hfits hs) hp ⟨hc.flag, hc.errors⟩ hcl hne behind last)

end

theorem parallel_setOpened_none : Parallel N false (setOpened none) (setOpened none) where
  onward s _ := ⟨trivial, List.suffix_refl _, rfl, List.prefix_refl _, fun _ h => h⟩
  reads hc := by cases hc
  opened := by rintro s a s' - ⟨⟩ - -; rfl
  same _ _ := rfl
  longer := by rintro s a s' - ⟨⟩ - - - behind last; rfl

end

/-! ## Blocks -/

/-- One round of a block: its closing brace, its end without one, or a member. -/
def bracedRound {α : Type} (block : String) (opening : Token) (member : Parser α) :
    Parser (Option α) := do
  if ← eat .rbrace then return none
  if ← atBlockEnd then
    reportUnclosed block opening
    return none
  return some (← member)

theorem braced_eq {α : Type} (block expected : String) (member : Parser α) :
    braced block expected member =
      expect .lbrace expected >>= fun opening => many (bracedRound block opening member) := rfl

/-- Of the tokens of a block, a member reads at least the first. -/
def Progresses {α : Type} (N : Nat) (p : Parser α) : Prop :=
  ∀ s t ts a s', Fits N s → s.ahead = t :: ts → t.kind ≠ .rbrace →
    t.kind.startsDeclaration = false → p s = .ok a s' → s'.ahead.length < s.ahead.length

section
variable {α β : Type} {N : Nat} {c : Bool} {p q : Parser α} {opening : Token} {block : String}

theorem reportUnclosed_eq (block : String) (opening : Token) (s : State) :
    reportUnclosed block opening s =
      .ok () (if s.unclosedReported then s else { s with
        unclosedReported := true
        errors := s.errors ++ [⟨.unclosedBlock block, opening.pos⟩] }) := rfl

theorem faulty_reportUnclosed : Faulty N (reportUnclosed block opening) := by
  intro s a s' _ hr hc
  rw [reportUnclosed_eq, hc.flag] at hr
  cases hr
  exact absurd hc.errors (by simp)

theorem parallel_reportUnclosed :
    Parallel N false (reportUnclosed block opening) (reportUnclosed block opening) where
  onward s hs := by
    rw [reportUnclosed_eq]
    refine ⟨trivial, ?_⟩
    split
    · exact .refl s
    · exact ⟨List.suffix_refl _, rfl, List.prefix_append .., fun he => absurd he (by simp)⟩
  reads hc := by cases hc
  opened s a s' hs hr hc := absurd hc (faulty_reportUnclosed s a s' hs hr)
  same _ _ := rfl
  longer s a s' hs hr hc := absurd hc (faulty_reportUnclosed s a s' hs hr)

/-- Whether a block ends in front of these tokens without its brace. -/
def endsBlock (ts : List Token) : Bool :=
  ts.head?.elim true (·.kind.startsDeclaration)

theorem atBlockEnd_eq : atBlockEnd = ahead >>= fun ts => pure (endsBlock ts) := by
  funext s
  cases s with
  | mk ahead => cases ahead <;> rfl

theorem lookahead_endsBlock : Lookahead c endsBlock := by
  intro ts behind h _
  cases ts with
  | nil => exact absurd rfl h.ne_nil
  | cons t ts => rfl

theorem parallel_atBlockEnd : Parallel N false atBlockEnd atBlockEnd := by
  rw [atBlockEnd_eq]
  exact parallel_look lookahead_endsBlock fun _ => parallel_pure

theorem parallel_bracedRound (h : Parallel N c p q) :
    Parallel N false (bracedRound block opening p) (bracedRound block opening q) :=
  parallel_eat.bind fun _ => parallel_ite parallel_pure <|
    parallel_atBlockEnd.bind fun _ => parallel_ite
      (parallel_reportUnclosed.bind fun _ => parallel_pure) h.give

section
variable {t : Token} {ts : List Token} {s : State} {kind : TokenKind}

theorem eat_of_startsWith (h : startsWith kind s.ahead = true) :
    eat kind s = .ok true { s with ahead := s.ahead.tail } := by
  show (if startsWith kind s.ahead = true then _ else _ : Parser Bool) s = _
  rw [if_pos h]
  rfl

theorem eat_of_not_startsWith (h : startsWith kind s.ahead = false) : eat kind s = .ok false s := by
  show (if startsWith kind s.ahead = true then _ else _ : Parser Bool) s = _
  rw [h]
  rfl

theorem length_eat_lt {s' : State} (h : eat kind s = .ok true s') :
    s'.ahead.length < s.ahead.length := by
  cases hk : startsWith kind s.ahead with
  | false =>
    rw [eat_of_not_startsWith hk] at h
    cases h
  | true =>
    rw [eat_of_startsWith hk] at h
    cases h
    cases hts : s.ahead with
    | nil => rw [hts] at hk; cases hk
    | cons t ts => exact Nat.lt_succ_self _

theorem bracedRound_of_rbrace (hs : s.ahead = t :: ts) (ht : t.kind = .rbrace) :
    bracedRound block opening p s = .ok none { s with ahead := ts } := by
  have hb : startsWith .rbrace s.ahead = true := by simp [hs, startsWith, ht]
  unfold bracedRound
  rw [bind_of_ok (eat_of_startsWith hb), if_pos rfl, hs]
  rfl

theorem bracedRound_of_end (hs : endsBlock s.ahead = true) :
    bracedRound block opening p s = (reportUnclosed block opening >>= fun _ => pure none) s := by
  have hb : startsWith .rbrace s.ahead = false := by
    cases hts : s.ahead with
    | nil => rfl
    | cons t ts =>
      simp only [hts, endsBlock, List.head?_cons, Option.elim_some] at hs
      simp only [startsWith, beq_eq_false_iff_ne]
      rintro hk
      rw [hk] at hs
      cases hs
  have ha : atBlockEnd s = .ok true s := by
    rw [atBlockEnd_eq, ← hs]
    rfl
  unfold bracedRound
  rw [bind_of_ok (eat_of_not_startsWith hb), if_neg (by simp), bind_of_ok ha, if_pos rfl]

theorem bracedRound_of_member (hs : s.ahead = t :: ts) (hb : t.kind ≠ .rbrace)
    (hd : t.kind.startsDeclaration = false) :
    bracedRound block opening p s = (p >>= fun a => pure (some a)) s := by
  have he : startsWith .rbrace s.ahead = false := by simpa [hs, startsWith] using hb
  have ha : atBlockEnd s = .ok false s := by
    rw [atBlockEnd_eq, ← hd]
    show EStateM.Result.ok _ _ = _
    rw [hs]
    rfl
  unfold bracedRound
  rw [bind_of_ok (eat_of_not_startsWith he), if_neg (by simp), bind_of_ok ha, if_neg (by simp)]

/-- A block ends with its brace or without, or a member follows. -/
theorem bracedRound_cases (s : State) :
    (∃ t ts, s.ahead = t :: ts ∧ t.kind = .rbrace) ∨
    endsBlock s.ahead = true ∨
    ∃ t ts, s.ahead = t :: ts ∧ t.kind ≠ .rbrace ∧ t.kind.startsDeclaration = false := by
  cases s.ahead with
  | nil => exact .inr (.inl rfl)
  | cons t ts =>
    by_cases hb : t.kind = .rbrace
    · exact .inl ⟨t, ts, rfl, hb⟩
    · cases hd : t.kind.startsDeclaration with
      | true => exact .inr (.inl hd)
      | false => exact .inr (.inr ⟨t, ts, rfl, hb, hd⟩)

end

theorem advances_bracedRound {block : String} {opening : Token} (h : Progresses N p) :
    Advances N (bracedRound block opening p) := by
  intro s x s' hs hr
  rcases bracedRound_cases s with ⟨t, ts, hts, hb⟩ | he | ⟨t, ts, hts, hb, hd⟩
  · rw [bracedRound_of_rbrace hts hb] at hr
    cases hr
  · rw [bracedRound_of_end he] at hr
    obtain ⟨_, _, -, hr⟩ := parser_bind_eq_ok.1 hr
    cases hr
  · rw [bracedRound_of_member hts hb hd] at hr
    obtain ⟨a, s₁, hp, ⟨⟩⟩ := parser_bind_eq_ok.1 hr
    exact h s t ts _ s' hs hts hb hd hp

/-- What goes on behind a member reads no other tokens. -/
theorem Progresses.bind {k : α → Parser β} (h : Progresses N p)
    (hk : ∀ a s b s', k a s = .ok b s' → s'.ahead = s.ahead) : Progresses N (p >>= k) := by
  intro s t ts b s'' hs hts hb hd hr
  obtain ⟨a, s', hp, hr⟩ := parser_bind_eq_ok.1 hr
  rw [hk a s' b s'' hr]
  exact h s t ts a s' hs hts hb hd hp

/-- A faulty member that read nothing is skipped from its first token on. -/
theorem length_skipTo_lt {isStart : List Token → Bool} {t : Token} {ts us : List Token}
    (hb : t.kind ≠ .rbrace) (hd : t.kind.startsDeclaration = false) (hu : us <:+ t :: ts) :
    (skipTo isStart t.line 0 us).length < (t :: ts).length := by
  rcases List.suffix_cons_iff.1 hu with rfl | hu
  · have hl : ¬t.line > t.line := Nat.lt_irrefl _
    simp only [skipTo, hd, Bool.false_and, Bool.false_eq_true, if_false, beq_iff_eq, hb, hl,
      decide_false, Bool.and_false, Bool.false_and]
    split
    · exact Nat.lt_succ_of_le (skipTo_suffix ..).length_le
    · exact Nat.lt_succ_of_le (skipTo_suffix ..).length_le
  · exact Nat.lt_succ_of_le ((skipTo_suffix ..).trans hu).length_le

theorem progresses_recovering {isStart : List Token → Bool} (h : Parallel N true p q) :
    Progresses N (recovering isStart p) := by
  intro s t ts x s' hs hts hb hd hr
  have hc : s.current = t := by rw [State.current, hts]; rfl
  replace hr : (attempt p >>= _) s = .ok x s' := hr
  cases hp : p s with
  | ok a s₁ =>
    rw [attempt_bind_of_ok hp] at hr
    cases hr
    exact h.reads rfl s a s' hs (by simp [hts]) hp
  | error e s₁ =>
    rw [attempt_bind_of_error hp] at hr
    cases hr
    show (skipTo isStart s.current.line 0 s₁.ahead).length < _
    rw [hc, hts]
    exact length_skipTo_lt hb hd (hts ▸ (h.onward_error hs hp).ahead)

/-- A block that is read leaves fewer tokens, so its members may agree on fewer. -/
theorem parallel_braced {block expected : String} (h : Parallel N c p q) (hp : Progresses N p) :
    Parallel (N + 1) true (braced block expected p) (braced block expected q) := by
  rw [braced_eq, braced_eq]
  refine parallel_expect.bindFewer (M := fun _ => N) ?_ fun opening =>
    parallel_many (parallel_bracedRound h) (advances_bracedRound hp)
  intro s t s' hs hr
  have hne : s.ahead ≠ [] := by
    intro he
    have hr : (if startsWith .lbrace s.ahead = true then advance else fail expected :
      Parser Token) s = .ok t s' := hr
    rw [he] at hr
    cases hr
  have hx : Parallel (N + 1) true (expect .lbrace expected) (expect .lbrace expected) :=
    parallel_expect
  exact hs.shorter (hx.onward_ok hs hr) (hx.reads rfl s t s' hs hne hr)

theorem parallel_members {block expected : String} (h : Parallel N c p q) (hp : Progresses N p) :
    Parallel N true (braced block expected p) (braced block expected q) :=
  (parallel_braced h hp).anti (Nat.le_succ N)

end

end UiScenario.Grammar.Parser
