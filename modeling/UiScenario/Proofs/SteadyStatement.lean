import UiScenario.Proofs.Progress
import UiScenario.Proofs.SteadyGrammar

/-!
Statements keep to their tokens. Where no block is opened, a statement is a step: if it is read in
one place, it is read alike in others, and if it fails, then at the token where it stopped or at one
it has read. A statement that needs a block does not get past tokens without an opening brace.
-/

namespace UiScenario.Grammar

open UiScenario.Grammar.Parser

/-! ## Blocks -/

/-- Reading goes onward from every place. -/
def Onwards {α : Type} (p : Parser α) : Prop :=
  ∀ s, s.last.kind = .eof → Ends (Onward s) (fun _ => True) (p s)

theorem Parser.Parallel.onwards {α : Type} {c : Bool} {p q : Parser α}
    (h : ∀ N, Parallel N c p q) : Onwards p :=
  fun s hs => (h (s.ahead.length + 1)).onward s ⟨Nat.lt_succ_self _, hs⟩

/-- Tokens that open no block. -/
def Braceless (ts : List Token) : Prop :=
  ∀ t ∈ ts, t.kind ≠ .lbrace

/-- Among tokens that open no block the parser can only fail, at a token where it stops or at one it
    has read. -/
structure Shut {α : Type} (p : Parser α) : Prop where
  onward : Onwards p
  value : ∀ {s : State} {a : α} {s' : State} {r r' X : List Token}, s.last.kind = .eof →
    Braceless r → s.ahead = r ++ X → p s = .ok a s' → s'.ahead ≠ r' ++ X
  fault : ∀ {s : State} {e : SyntaxError} {s' : State} {r r' X : List Token}, s.last.kind = .eof →
    Braceless r → s.ahead = r ++ X → p s = .error e s' → s'.ahead = r' ++ X →
    ∃ read, Passes s read s' ∧ Raised read s' e

section
variable {α β : Type} {s s' : State} {r r' X ts us : List Token} {what : String} {k : α → Parser β}
  {p : Parser α} {b : Token}

/-- If the back part is still ahead, it is behind what is left of the front part. -/
theorem Passes.exists_front (h : Passes s ts s') (hs : s.ahead = r ++ X)
    (hX : r' ++ X <:+ s'.ahead) : ∃ r₁, s'.ahead = r₁ ++ X ∧ r = ts ++ r₁ := by
  obtain ⟨us, hus⟩ := hX
  refine ⟨us ++ r', by rw [← hus, List.append_assoc], ?_⟩
  have h' := h.ahead
  rw [hs, ← hus, ← List.append_assoc us, ← List.append_assoc ts] at h'
  exact List.append_cancel_right h'

theorem Braceless.of_append (h : Braceless (ts ++ us)) : Braceless us :=
  fun t ht => h t (List.mem_append_right _ ht)

theorem Braceless.of_cons {u : Token} (h : Braceless (u :: ts)) : Braceless ts :=
  fun t ht => h t (List.mem_cons_of_mem _ ht)

theorem shut_of_passes (hvalue : ∀ {s a s'}, p s = .ok a s' → ∃ read, Passes s read s')
    (hfault : ∀ {s e s'}, p s = .error e s' → ∃ read, Passes s read s' ∧ Raised read s' e)
    (hk : ∀ a, Shut (k a)) : Shut (p >>= k) := by
  constructor
  · intro s hs
    cases hp : p s with
    | error e s' =>
      rw [bind_of_error hp]
      obtain ⟨read, hread, -⟩ := hfault hp
      exact hread.onward
    | ok a s' =>
      obtain ⟨read, hread⟩ := hvalue hp
      have ho := (hk a).onward s' (by rw [hread.onward.last]; exact hs)
      rw [bind_of_ok hp]
      cases hr : k a s' with
      | ok b s'' => rw [hr] at ho; exact ⟨trivial, hread.onward.trans ho.2⟩
      | error e s'' => rw [hr] at ho; exact hread.onward.trans ho
  · intro s b s'' r r' X hs hb ha hr hr'
    obtain ⟨a, s', hp, hr⟩ := parser_bind_eq_ok.1 hr
    obtain ⟨read, hread⟩ := hvalue hp
    have hs' : s'.last.kind = .eof := by rw [hread.onward.last]; exact hs
    have ho := (hk a).onward s' hs'
    rw [hr] at ho
    have hX : r' ++ X <:+ s'.ahead := by rw [← hr']; exact ho.2.ahead
    obtain ⟨r₁, ha₁, rfl⟩ := hread.exists_front ha hX
    exact (hk a).value hs' hb.of_append ha₁ hr hr'
  · intro s e s'' r r' X hs hb ha hr hr'
    cases hp : p s with
    | error e' s' =>
      rw [bind_of_error hp] at hr
      cases hr
      exact hfault hp
    | ok a s' =>
      rw [bind_of_ok hp] at hr
      obtain ⟨read, hread⟩ := hvalue hp
      have hs' : s'.last.kind = .eof := by rw [hread.onward.last]; exact hs
      have ho := (hk a).onward s' hs'
      rw [hr] at ho
      have hX : r' ++ X <:+ s'.ahead := by rw [← hr']; exact ho.ahead
      obtain ⟨r₁, ha₁, rfl⟩ := hread.exists_front ha hX
      obtain ⟨read', hread', he⟩ := (hk a).fault hs' hb.of_append ha₁ hr hr'
      exact ⟨_, hread.trans hread', he.of_read (List.subset_append_right ..)⟩

theorem Parser.Settles.shut {n : Nat} (h : Settles anywhere n p) (hk : ∀ a, Shut (k a)) :
    Shut (p >>= k) := by
  refine shut_of_passes (fun hp => ?_) (fun hp => ?_) hk
  · obtain ⟨read, hread, -⟩ := h.value trivial hp
    exact ⟨read, hread.toPasses⟩
  · obtain ⟨read, hread, he⟩ := h.fault trivial hp
    exact ⟨read, hread.toPasses, he⟩

theorem shut_advance {k : Token → Parser β} (hk : ∀ t, Shut (k t)) : Shut (advance >>= k) := by
  refine shut_of_passes (fun {s _ _} hp => ?_) (fun hp => by cases hp) hk
  cases hp
  cases hs : s.ahead with
  | nil => exact ⟨[], by rw [hs]; rfl, rfl⟩
  | cons t ts => exact ⟨[t], by rw [hs]; rfl, rfl⟩

/-- Without its brace, a block fails at once. -/
theorem block_of_no_brace (h : startsWith .lbrace s.ahead = false) :
    block what s = .error (s.unexpected ("'\x7b' to open the " ++ what)) s := by
  have he : expect .lbrace ("'\x7b' to open the " ++ what) s =
      .error (s.unexpected ("'\x7b' to open the " ++ what)) s := by
    show (if startsWith .lbrace s.ahead = true then advance else fail _ : Parser Token) s = _
    rw [h]
    rfl
  show (braced what _ (blockMember (nestedBlock s.ahead.length)) >>= _) s = _
  rw [braced_eq]
  exact bind_of_error (bind_of_error he)

/-- With its brace, a block is read, and the brace is passed. -/
theorem exists_block_of_brace {ts : List Token} (hs : s.last.kind = .eof) (ha : s.ahead = b :: ts)
    (hb : b.kind = .lbrace) :
    ∃ body s', block what s = .ok body s' ∧ Onward s s' ∧ s'.ahead <:+ ts := by
  have hfits : Fits (s.ahead.length + 1) s := ⟨Nat.lt_succ_self _, hs⟩
  have he : expect .lbrace ("'\x7b' to open the " ++ what) s = .ok b (s.leaving ts) := by
    have hk : startsWith .lbrace s.ahead = true := by rw [ha]; exact beq_iff_eq.2 hb
    show (if startsWith .lbrace s.ahead = true then advance else fail _ : Parser Token) s = _
    rw [if_pos hk, ← leaving_ahead s, ha]
    rfl
  obtain ⟨xs, s', hr⟩ := total_rounds (total_bracedRound total_blockMember)
    ((s.leaving ts).ahead.length + 1) (s.leaving ts)
  have hblock : block what s = .ok (xs.filterMap id) s' := by
    rw [block_eq hs, braced_eq, bind_of_ok (by rw [bind_of_ok he]; exact hr)]
    rfl
  have ho := parallel_block.onward_ok hfits hblock
  have hl := parallel_block.reads rfl s _ s' hfits (by simp [ha]) hblock
  refine ⟨_, s', hblock, ho, ?_⟩
  have hsuffix := ho.ahead
  rw [ha] at hsuffix hl
  rcases List.suffix_cons_iff.1 hsuffix with he | he
  · rw [he] at hl
    exact absurd hl (Nat.lt_irrefl _)
  · exact he

theorem brace_cases (s : State) :
    startsWith .lbrace s.ahead = false ∨ ∃ b ts, s.ahead = b :: ts ∧ b.kind = .lbrace := by
  cases ha : s.ahead with
  | nil => exact .inl rfl
  | cons b ts =>
    by_cases hb : b.kind = .lbrace
    · exact .inr ⟨b, ts, rfl, hb⟩
    · exact .inl (beq_eq_false_iff_ne.2 hb)

/-- Behind a brace, reading does not come back to tokens that open no block. -/
theorem Braceless.ne_of_onward {s₁ : State} (h : Braceless r) (hr : s.ahead = r ++ X)
    (ha : s.ahead = b :: ts) (hb : b.kind = .lbrace) (hsuffix : s₁.ahead <:+ ts)
    (ho : Onward s₁ s') : s'.ahead ≠ r' ++ X := by
  intro hr'
  obtain ⟨us, hus⟩ := ho.ahead.trans hsuffix
  rw [hr', ← List.append_assoc] at hus
  have hcancel : r ++ X = b :: (us ++ r') ++ X := by
    rw [← hr, ha, ← hus]
    rfl
  exact h b (by rw [List.append_cancel_right hcancel]; exact List.mem_cons_self ..) hb

/-- A block is opened or not, and in no case are tokens left that open none. -/
theorem shut_block {k : List Statement → Parser β} (hk : ∀ body, Onwards (k body)) :
    Shut (block what >>= k) := by
  constructor
  · intro s hs
    rcases brace_cases s with hno | ⟨b, ts, ha, hb⟩
    · rw [bind_of_error (block_of_no_brace hno)]
      exact Onward.refl s
    · obtain ⟨body, s₁, hblock, ho, -⟩ := exists_block_of_brace hs ha hb
      have hends := hk body s₁ (by rw [ho.last]; exact hs)
      rw [bind_of_ok hblock]
      cases hr : k body s₁ with
      | ok a s' => rw [hr] at hends; exact ⟨trivial, ho.trans hends.2⟩
      | error e s' => rw [hr] at hends; exact ho.trans hends
  · intro s a s' r r' X hs hbr hr hok
    rcases brace_cases s with hno | ⟨b, ts, ha, hb⟩
    · rw [bind_of_error (block_of_no_brace hno)] at hok
      cases hok
    · obtain ⟨body, s₁, hblock, ho, hsuffix⟩ := exists_block_of_brace hs ha hb
      have hends := hk body s₁ (by rw [ho.last]; exact hs)
      rw [bind_of_ok hblock] at hok
      rw [hok] at hends
      exact hbr.ne_of_onward hr ha hb hsuffix hends.2
  · intro s e s' r r' X hs hbr hr herror hr'
    rcases brace_cases s with hno | ⟨b, ts, ha, hb⟩
    · rw [bind_of_error (block_of_no_brace hno)] at herror
      cases herror
      exact ⟨[], .refl s, .next _⟩
    · obtain ⟨body, s₁, hblock, ho, hsuffix⟩ := exists_block_of_brace hs ha hb
      have hends := hk body s₁ (by rw [ho.last]; exact hs)
      rw [bind_of_ok hblock] at herror
      rw [herror] at hends
      exact absurd hr' (hbr.ne_of_onward hr ha hb hsuffix hends)

theorem onwards_pure {a : α} : Onwards (pure a) :=
  fun s _ => ⟨trivial, Onward.refl s⟩

def furtherArms (first : Arm) : Parser Statement :=
  many (armRound block) >>= fun further => eat (.keyword .else_) >>= fun eaten =>
    if eaten = true then block "ELSE" >>= fun elseBody => pure (first.chain further elseBody)
    else pure (first.chain further [])

theorem onwards_furtherArms (first : Arm) : Onwards (furtherArms first) := by
  have hb : ∀ N what, Parallel N true (block what) (block what) := fun _ _ => parallel_block
  refine Parallel.onwards (c := false) (q := furtherArms first) fun N => ?_
  refine (parallel_many (parallel_armRound (hb N)) (advances_armRound (hb N))).bind fun _ => ?_
  exact parallel_eat.bind fun _ => parallel_ite (hb N _).give parallel_pure

theorem shut_branchStatement : Shut (branchStatement block) := by
  have h : branchStatement block = advance >>= fun t => condition >>= fun c =>
      block "IF" >>= fun body => furtherArms ⟨t.line, c, body⟩ := by
    rw [branchStatement_eq]
    simp only [arm, bind_assoc, pure_bind, furtherArms]
  rw [h]
  exact shut_advance fun _ => steady_condition.toSettles.shut fun _ => shut_block fun _ =>
    onwards_furtherArms _

theorem shut_repeatStatement : Shut (repeatStatement block) :=
  shut_advance fun _ => steady_expression.toSettles.shut fun _ =>
    (steady_expect (by decide)).toSettles.shut fun _ => shut_block fun _ => onwards_pure

theorem shut_forEachStatement : Shut (forEachStatement block) :=
  shut_advance fun _ => (steady_expect (by decide)).toSettles.shut fun _ =>
    steady_binding.toSettles.shut fun _ => (steady_expect (by decide)).toSettles.shut fun _ =>
      steady_name.toSettles.shut fun _ => shut_block fun _ => onwards_pure

end

/-! ## Statements -/

/-- The place at which the statement is read that starts with a token. -/
def State.entering (s : State) (u : Token) : State :=
  s.reopened (some ⟨Text.upper u.value, u.line⟩)

section
variable {s t s' : State} {u : Token} {us r r' X Y : List Token} {st : Statement} {e : SyntaxError}

theorem statement_of_ok (h : statementRule block ((s.entering u).leaving (u :: us)) = .ok st s') :
    statement (s.leaving (u :: us)) = .ok st (s'.reopened s.opened) := by
  show enclosed (fun _ => some ⟨Text.upper u.value, u.line⟩) id (statementRule block) _ = _
  exact enclosed_of_ok h

theorem statement_eq_ok (h : statement (s.leaving (u :: us)) = .ok st s') :
    ∃ s₁, statementRule block ((s.entering u).leaving (u :: us)) = .ok st s₁ ∧
      s' = s₁.reopened s.opened := by
  change enclosed (fun _ => some ⟨Text.upper u.value, u.line⟩) id (statementRule block) _ = _ at h
  exact exists_of_enclosed_eq_ok h

theorem statement_eq_error (h : statement (s.leaving (u :: us)) = .error e s') :
    statementRule block ((s.entering u).leaving (u :: us)) = .error e s' := by
  change enclosed (fun _ => some ⟨Text.upper u.value, u.line⟩) id (statementRule block) _ = _ at h
  cases hrule : statementRule block ((s.entering u).leaving (u :: us)) with
  | error e₁ s₁ => exact (enclosed_of_error hrule).symm.trans h
  | ok st₁ s₁ => cases (enclosed_of_ok hrule).symm.trans h

/-- A token starts a statement that needs a block, or a step, or none. -/
theorem statementRule_cases (u : Token) :
    (∃ p, Shut p ∧ ∀ s, s.current = u → statementRule block s = p s) ∨
    (∃ word, u.kind = .keyword word ∧ ∀ s, s.current = u →
      statementRule block s = stepStatement u (stepRule? word s.ahead) s) ∨
    ∀ s, s.current = u → statementRule block s = .error ⟨.unknownStatement u.display, u.pos⟩ s := by
  cases hk : u.kind with
  | keyword word =>
    by_cases hif : word = .if_
    · refine .inl ⟨_, shut_branchStatement, ?_⟩
      rintro s rfl
      rw [statementRule, current_bind, hk, hif]
    by_cases hrepeat : word = .repeat_
    · refine .inl ⟨_, shut_repeatStatement, ?_⟩
      rintro s rfl
      rw [statementRule, current_bind, hk, hrepeat]
    by_cases hfor : word = .for_
    · refine .inl ⟨_, shut_forEachStatement, ?_⟩
      rintro s rfl
      rw [statementRule, current_bind, hk, hfor]
    refine .inr (.inl ⟨word, rfl, ?_⟩)
    rintro s rfl
    rw [statementRule, current_bind, hk]
    refine congrFun (?_ : _ = ahead >>= fun ts => stepStatement s.current (stepRule? word ts)) s
    split
    · next heq => cases heq; exact absurd rfl hif
    · next heq => cases heq; exact absurd rfl hrepeat
    · next heq => cases heq; exact absurd rfl hfor
    · next heq => cases heq; rfl
    · next h => exact absurd rfl (h word)
  | _ =>
    refine .inr (.inr ?_)
    rintro s rfl
    rw [statementRule, current_bind, hk]
    rfl

theorem stepRule?_append (word : Keyword) {r : List Token} (X Y : List Token) (hr : 4 ≤ r.length) :
    stepRule? word (r ++ X) = stepRule? word (r ++ Y) := by
  have h : atQueryBinding (r ++ X) = atQueryBinding (r ++ Y) := by
    rcases r with _ | ⟨a, _ | ⟨b, _ | ⟨c, _ | ⟨d, r⟩⟩⟩⟩
    · cases hr
    · simp at hr
    · simp at hr
    · simp at hr
    · rfl
  unfold stepRule?
  rw [h]

theorem startsDeclaration_of_stepRule {word : Keyword} {ts : List Token} {rule : Parser Step}
    (h : stepRule? word ts = some rule) : word.startsDeclaration = false := by
  cases word with
  | page | pageActions | feature => cases h
  | _ => rfl

/-- A statement that is read among tokens that open no block is a step, and it is read alike
    wherever a statement can end behind the tokens. -/
theorem statement_moves (hs : s.last.kind = .eof) (hb : Braceless (u :: us)) (hX : X ≠ [])
    (hr : statement (s.leaving (u :: (us ++ X))) = .ok st s') (ha : s'.ahead = r' ++ X) :
    s' = s.leaving (r' ++ X) ∧ st.line = u.line ∧
    (∃ word, u.kind = .keyword word ∧ word.startsDeclaration = false) ∧
    (∃ read, us = read ++ r' ∧ Undotted read) ∧
    ∀ (t : State) (Y : List Token), Limits us Y →
      statement (t.leaving (u :: (us ++ Y))) = .ok st (t.leaving (r' ++ Y)) := by
  obtain ⟨s₁, hrule, rfl⟩ := statement_eq_ok hr
  replace ha : s₁.ahead = r' ++ X := ha
  rcases statementRule_cases u with ⟨p, hp, heq⟩ | ⟨word, hword, heq⟩ | heq
  · rw [heq _ rfl] at hrule
    exact absurd ha (hp.value (s := (s.entering u).leaving (u :: (us ++ X))) hs hb rfl hrule)
  · rw [heq _ rfl, ahead_leaving] at hrule
    cases hstep : stepRule? word (u :: (us ++ X)) with
    | none => rw [hstep] at hrule; cases hrule
    | some rule =>
      rw [hstep] at hrule
      obtain ⟨x, s₂, hx, ⟨⟩⟩ := parser_bind_eq_ok.1 hrule
      obtain ⟨n, ⟨k, rfl, hk⟩, hn⟩ := headed_stepRule hstep
      replace hx : k u ((s.entering u).leaving (us ++ X)) = .ok x s₁ := hx
      obtain ⟨_, hread, -⟩ := (hk u).value trivial hx
      obtain rfl : s₁ = (s.entering u).leaving (r' ++ X) := by rw [hread.same, ha]; rfl
      obtain ⟨read, hus, hdot, hlen⟩ := (hk u).split trivial hX hx
      refine ⟨rfl, rfl, ⟨word, hword, startsDeclaration_of_stepRule hstep⟩, ⟨read, hus, hdot⟩,
        fun t Y hY => ?_⟩
      have hstep' : stepRule? word (u :: (us ++ Y)) = some (advance >>= k) := by
        rcases hn with hn | hn
        · have hlen' : 4 ≤ (u :: us).length := by
            rw [hus, List.length_cons, List.length_append]
            omega
          rw [← hstep]
          exact stepRule?_append word Y X hlen'
        · exact hn _
      have hmoved : statementRule block ((t.entering u).leaving (u :: (us ++ Y))) =
          .ok (.step u.line x) ((t.entering u).leaving (r' ++ Y)) := by
        rw [heq _ rfl, ahead_leaving, hstep']
        have hx' := (hk u).moves (t := t.entering u) trivial trivial hX hY hx
        exact bind_of_ok (k := fun y => (pure (.step u.line y) : Parser Statement)) hx'
      rw [statement_of_ok hmoved]
      rfl
  · rw [heq _ rfl] at hrule
    cases hrule

/-- A statement that fails among tokens that open no block is none, or the token where it stopped or
    one that it has read is wrong. -/
theorem statement_fault (hs : s.last.kind = .eof) (hb : Braceless (u :: us))
    (hr : statement (s.leaving (u :: (us ++ X))) = .error e s') (ha : s'.ahead = r' ++ X) :
    s' = (s.entering u).leaving (r' ++ X) ∧ ∃ read, u :: us = read ++ r' ∧
      (e = ⟨.unknownStatement u.display, u.pos⟩ ∨ Raised read s' e) := by
  have hrule := statement_eq_error hr
  have hpassed : ∀ {read}, Passes ((s.entering u).leaving (u :: (us ++ X))) read s' →
      s' = (s.entering u).leaving (r' ++ X) ∧ u :: us = read ++ r' := by
    intro read hread
    refine ⟨by rw [hread.same, ha]; rfl, ?_⟩
    have h := hread.ahead
    rw [ahead_leaving, ha, ← List.append_assoc] at h
    exact List.append_cancel_right h
  rcases statementRule_cases u with ⟨p, hp, heq⟩ | ⟨word, hword, heq⟩ | heq
  · rw [heq _ rfl] at hrule
    obtain ⟨read, hread, he⟩ :=
      hp.fault (s := (s.entering u).leaving (u :: (us ++ X))) hs hb rfl hrule ha
    exact ⟨(hpassed hread).1, read, (hpassed hread).2, .inr he⟩
  · rw [heq _ rfl, ahead_leaving] at hrule
    cases hstep : stepRule? word (u :: (us ++ X)) with
    | none =>
      rw [hstep] at hrule
      cases hrule
      exact ⟨(hpassed (.refl _)).1, [], (hpassed (.refl _)).2, .inl rfl⟩
    | some rule =>
      rw [hstep] at hrule
      obtain ⟨n, ⟨k, rfl, hk⟩, -⟩ := headed_stepRule hstep
      have hx : k u ((s.entering u).leaving (us ++ X)) = .error e s' := by
        cases hx : k u ((s.entering u).leaving (us ++ X)) with
        | ok x s₁ =>
          have := bind_of_ok (k := fun y => (pure (.step u.line y) : Parser Statement)) hx
          cases hrule.symm.trans this
        | error e₁ s₁ =>
          have := bind_of_error (k := fun y => (pure (.step u.line y) : Parser Statement)) hx
          cases hrule.symm.trans this
          rfl
      obtain ⟨read, hread, he⟩ := (hk u).fault trivial hx
      have hread' : Passes ((s.entering u).leaving (u :: (us ++ X))) (u :: read) s' :=
        (passes_tail rfl).trans hread.toPasses
      exact ⟨(hpassed hread').1, _, (hpassed hread').2,
        .inr (he.of_read (List.subset_cons_self ..))⟩
  · rw [heq _ rfl] at hrule
    cases hrule
    exact ⟨(hpassed (.refl _)).1, [], (hpassed (.refl _)).2, .inl rfl⟩

end

end UiScenario.Grammar
