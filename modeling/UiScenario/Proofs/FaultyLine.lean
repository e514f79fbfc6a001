import UiScenario.Proofs.Completeness
import UiScenario.Proofs.Composition
import UiScenario.Proofs.SteadyStatement

/-!
One faulty line, one error. A block has a statement on each line, and one line is replaced by tokens
that are no statements. If the faulty line does not continue a line in front of it, and no statement
on it reads on into what follows, then the statements of all other lines are kept, and one error is
noted, for this line.
-/

namespace UiScenario.Grammar

open UiScenario.Grammar.Parser

/-! ## Rounds of a block -/

/-- One round of a block of statements. -/
abbrev memberRound (what : String) (opening : Token) : Parser (Option (Option Statement)) :=
  bracedRound what opening (blockMember block)

section
variable {s s' s₁ : State} {what : String} {opening u : Token} {us ts : List Token}
  {st : Statement} {e : SyntaxError}

theorem memberRound_of_ok (hs : s.ahead = u :: us) (hb : u.kind ≠ .rbrace)
    (hd : u.kind.startsDeclaration = false) (h : statement s = .ok st s') :
    memberRound what opening s = .ok (some (some st)) s' := by
  rw [memberRound, bracedRound_of_member hs hb hd, bind_of_ok (blockMember_of_ok h)]
  rfl

theorem memberRound_of_error (hs : s.ahead = u :: us) (hb : u.kind ≠ .rbrace)
    (hd : u.kind.startsDeclaration = false) (h : statement s = .error e s') :
    memberRound what opening s = .ok (some none) (s.recovered s' e) := by
  rw [memberRound, bracedRound_of_member hs hb hd, bind_of_ok (blockMember_of_error h)]
  rfl

theorem onwards_statement : Onwards statement :=
  Parallel.onwards fun _ => parallel_statementWith fun _ => parallel_block

/-- A block is read if its rounds are and the last one finds the end. -/
theorem block_eq_ok {body : List Statement} (hs : s.last.kind = .eof) (ha : s.ahead = opening :: ts)
    (ho : opening.kind = .lbrace) :
    block what s = .ok body s' ↔ ∃ xs s₁, Repeats (memberRound what opening) (s.leaving ts) xs s₁ ∧
      memberRound what opening s₁ = .ok none s' ∧ body = xs.filterMap id := by
  have he : expect .lbrace ("'\x7b' to open the " ++ what) s = .ok opening (s.leaving ts) := by
    have hk : startsWith .lbrace s.ahead = true := by rw [ha]; exact beq_iff_eq.2 ho
    show (if startsWith .lbrace s.ahead = true then advance else fail _ : Parser Token) s = _
    rw [if_pos hk, ← leaving_ahead s, ha]
    rfl
  have hp := (Loop.block what opening).parallel (ts.length + 1)
  have hmany : ∀ {xs}, many (memberRound what opening) (s.leaving ts) = .ok xs s' ↔
      ∃ s₁, Repeats (memberRound what opening) (s.leaving ts) xs s₁ ∧
        memberRound what opening s₁ = .ok none s' :=
    many_eq_ok hp (Loop.block what opening).advances ⟨Nat.lt_succ_self _, hs⟩
  have hblock : block what s = (many (memberRound what opening) >>= fun xs =>
      pure (xs.filterMap id)) (s.leaving ts) := by
    rw [block_eq hs, braced_eq, bind_assoc, bind_of_ok he]
  rw [hblock, parser_bind_eq_ok]
  constructor
  · rintro ⟨xs, s₂, hxs, ⟨⟩⟩
    obtain ⟨s₁, hx, hnone⟩ := hmany.1 hxs
    exact ⟨xs, s₁, hx, hnone, rfl⟩
  · rintro ⟨xs, s₁, hx, hnone, rfl⟩
    exact ⟨xs, s', hmany.2 ⟨s₁, hx, hnone⟩, rfl⟩

end

/-! ## Statements one after the other -/

/-- From the tokens `ts` in front of `X`, statements are read one after the other until `r` is left
    of them. -/
inductive Series (s : State) (X : List Token) : List Token → List Statement → List Token → Prop
  | nil (ts : List Token) : Series s X ts [] ts
  | cons {u : Token} {us r r' : List Token} {st : Statement} {body : List Statement} :
    statement (s.leaving (u :: (us ++ X))) = .ok st (s.leaving (r ++ X)) → Series s X r body r' →
    Series s X (u :: us) (st :: body) r'

section
variable {s t : State} {X Y ts r : List Token} {u : Token} {us : List Token} {st : Statement}
  {body : List Statement} {what : String} {opening : Token}

/-- A statement that is read takes a round of the block. -/
theorem memberRound_of_moves (hs : s.last.kind = .eof) (hb : Braceless (u :: us)) (hX : X ≠ [])
    (h : statement (s.leaving (u :: (us ++ X))) = .ok st (s.leaving (r ++ X))) :
    memberRound what opening (s.leaving (u :: (us ++ X))) =
      .ok (some (some st)) (s.leaving (r ++ X)) := by
  obtain ⟨-, -, ⟨word, hw, hd⟩, -, -⟩ := statement_moves hs hb hX h rfl
  refine memberRound_of_ok rfl ?_ ?_ h
  · rw [hw]
    rintro ⟨⟩
  · rw [hw]
    exact hd

theorem Series.repeats (hs : s.last.kind = .eof) (hb : Braceless ts) (hX : X ≠ [])
    (h : Series s X ts body r) :
    Repeats (memberRound what opening) (s.leaving (ts ++ X)) (body.map some)
      (s.leaving (r ++ X)) := by
  induction h with
  | nil ts => exact .nil _
  | cons hst _ ih =>
    obtain ⟨-, -, -, ⟨read, rfl, -⟩, -⟩ := statement_moves hs hb hX hst rfl
    exact .cons (memberRound_of_moves hs hb hX hst) (ih hb.of_cons.of_append)

/-- Statements are read alike wherever the last of them can end. -/
theorem Series.moves (hs : s.last.kind = .eof) (hb : Braceless ts) (hX : X ≠ []) (hY : Limits ts Y)
    (h : Series s X ts body r) : Series t Y ts body r := by
  induction h with
  | nil ts => exact .nil ts
  | cons hst _ ih =>
    obtain ⟨-, -, -, ⟨read, rfl, -⟩, hmoves⟩ := statement_moves hs hb hX hst rfl
    have hY' := hY.of_suffix (List.suffix_cons ..)
    exact .cons (hmoves t Y hY') (ih hb.of_cons.of_append hY'.of_append)

/-- Each statement has the line of one of the tokens, and those left are of the tokens. -/
theorem Series.inside (hs : s.last.kind = .eof) (hb : Braceless ts) (hX : X ≠ [])
    (h : Series s X ts body r) : (∀ st ∈ body, ∃ t ∈ ts, st.line = t.line) ∧ r <:+ ts := by
  induction h with
  | nil ts => exact ⟨by simp, List.suffix_refl ts⟩
  | @cons u us r r' st body hst _ ih =>
    obtain ⟨-, hline, -, ⟨read, rfl, -⟩, -⟩ := statement_moves hs hb hX hst rfl
    obtain ⟨hlines, hsuffix⟩ := ih hb.of_cons.of_append
    refine ⟨fun st' hst' => ?_, hsuffix.trans (List.suffix_append (u :: read) r)⟩
    rcases List.mem_cons.1 hst' with rfl | hst'
    · exact ⟨u, List.mem_cons_self .., hline⟩
    · obtain ⟨t, ht, hl⟩ := hlines st' hst'
      exact ⟨t, by simp [ht], hl⟩

end

/-! ## Bodies on their own -/

/-- The tokens as the whole body of a block. -/
def State.ofBody (ts : List Token) : State where
  ahead := ⟨.lbrace, "\x7b", .start⟩ :: (ts ++ [⟨.rbrace, "\x7d", .start⟩])
  last := ⟨.eof, "", .start⟩
  opened := none
  unclosedReported := false
  errors := []

/-- The statements of the tokens as the whole body of a block, if they are read without an error. -/
def cleanBody? (ts : List Token) : Option (List Statement) :=
  match block "" (State.ofBody ts) with
  | .ok body s => if s.errors.isEmpty then some body else none
  | .error .. => none

/-- Tokens that neither open nor close a block. -/
structure BraceFree (ts : List Token) : Prop where
  braceless : Braceless ts
  rbrace : ∀ t ∈ ts, t.kind ≠ .rbrace

section
variable {s s' s₁ : State} {ts r : List Token} {body : List Statement} {what : String}
  {opening close : Token} {xs : List (Option Statement)}

theorem BraceFree.of_suffix (h : BraceFree ts) (hr : r <:+ ts) : BraceFree r :=
  ⟨fun t ht => h.braceless t (hr.subset ht), fun t ht => h.rbrace t (hr.subset ht)⟩

theorem cleanBody?_eq_some : cleanBody? ts = some body ↔
    ∃ s', block "" (State.ofBody ts) = .ok body s' ∧ s'.errors = [] := by
  unfold cleanBody?
  cases block "" (State.ofBody ts) with
  | error e s' => simp
  | ok body' s' => simp [and_comm]

theorem errors_prefix (hx : Repeats (memberRound what opening) s xs s₁)
    (hnone : memberRound what opening s₁ = .ok none s') (hs : s.last.kind = .eof) :
    s.errors <+: s'.errors := by
  have hp := (Loop.block what opening).parallel (s.ahead.length + 1)
  have hfits : Fits (s.ahead.length + 1) s := ⟨Nat.lt_succ_self _, hs⟩
  have ho := (onward_repeats hp (Loop.block what opening).advances hfits hx).1
  exact (ho.trans (hp.onward_ok (hfits.onward ho) hnone)).errors

/-- A round where the block ends without its brace would be the last one and note an error. -/
theorem endsBlock_eq_false (hx : Repeats (memberRound what opening) s xs s₁)
    (hnone : memberRound what opening s₁ = .ok none s') (hu : s.unclosedReported = false)
    (he : s'.errors = s.errors) : endsBlock s.ahead = false := by
  by_contra hs
  rw [Bool.not_eq_false] at hs
  have hround : memberRound what opening s =
      .ok none { s with
        unclosedReported := true
        errors := s.errors ++ [⟨.unclosedBlock what, opening.pos⟩] } := by
    rw [memberRound, bracedRound_of_end hs, bind_of_ok (reportUnclosed_eq what opening s), hu]
    rfl
  cases hx with
  | nil =>
    rw [hround] at hnone
    cases hnone
    simp at he
  | cons hsome _ =>
    rw [hround] at hsome
    cases hsome

/-- Rounds up to the closing brace without an error read one statement after the other. -/
theorem series_of_repeats (hs : s.last.kind = .eof) (hu : s.unclosedReported = false)
    (hp : BraceFree ts) (hc : close.kind = .rbrace)
    (hx : Repeats (memberRound what opening) (s.leaving (ts ++ [close])) xs s₁)
    (hnone : memberRound what opening s₁ = .ok none s') (he : s'.errors = s.errors) :
    Series s [close] ts (xs.filterMap id) [] := by
  generalize hs₀ : s.leaving (ts ++ [close]) = s₀ at hx
  have hx₀ := hx
  induction hx generalizing ts with
  | nil _ =>
    subst hs₀
    cases ts with
    | nil => exact .nil []
    | cons u us =>
      have hd : u.kind.startsDeclaration = false := endsBlock_eq_false hx₀ hnone hu he
      rw [memberRound, bracedRound_of_member rfl (hp.rbrace u (List.mem_cons_self ..)) hd] at hnone
      obtain ⟨_, _, -, ⟨⟩⟩ := parser_bind_eq_ok.1 hnone
  | @cons _ s₂ _ x xs hround hx ih =>
    subst hs₀
    cases ts with
    | nil =>
      rw [memberRound, bracedRound_of_rbrace rfl hc] at hround
      cases hround
    | cons u us =>
      have hb := hp.rbrace u (List.mem_cons_self ..)
      have hd : u.kind.startsDeclaration = false := endsBlock_eq_false hx₀ hnone hu he
      have ho := onwards_statement (s.leaving (u :: (us ++ [close]))) hs
      rw [List.cons_append] at hround
      cases hst : statement (s.leaving (u :: (us ++ [close]))) with
      | error e s₃ =>
        -- the error that is noted stays
        rw [memberRound_of_error rfl hb hd hst] at hround
        cases hround
        rw [hst] at ho
        have hprefix := errors_prefix hx hnone ((congrArg Token.kind ho.last).trans hs)
        have hle := ho.errors.length_le
        have hlen := hprefix.length_le
        rw [he] at hlen
        simp only [State.recovered, State.reopened, List.length_append, List.length_singleton]
          at hlen
        exact absurd (hlen.trans hle) (Nat.not_succ_le_self _)
      | ok st s₃ =>
        rw [memberRound_of_ok rfl hb hd hst] at hround
        cases hround
        rw [hst] at ho
        have hprefix := errors_prefix hx hnone ((congrArg Token.kind ho.2.last).trans hs)
        have hsame : s₂.errors = s.errors :=
          (ho.2.errors.eq_of_length_le (he ▸ hprefix.length_le)).symm
        have hsuffix : s₂.ahead <:+ (u :: us) ++ [close] := ho.2.ahead
        rcases List.suffix_concat_iff.1 hsuffix with hnil | ⟨r, hr, -⟩
        · have hend := endsBlock_eq_false hx hnone (ho.2.quiet hsame hu) (he.trans hsame.symm)
          cases (congrArg endsBlock hnil).symm.trans hend
        · obtain ⟨rfl, -, -, ⟨read, rfl, -⟩, -⟩ :=
            statement_moves hs hp.braceless (List.cons_ne_nil _ _) hst hr
          have hr' : r <:+ u :: (read ++ r) := List.suffix_append (u :: read) r
          exact .cons hst (ih (hp.of_suffix hr') hnone rfl hx)

/-- The clean bodies are those whose statements are read one after the other, up to the brace. -/
theorem cleanBody?_eq_some_iff (hp : BraceFree ts) : cleanBody? ts = some body ↔
    Series (State.ofBody []) [⟨.rbrace, "\x7d", .start⟩] ts body [] := by
  rw [cleanBody?_eq_some]
  constructor
  · rintro ⟨s', hblock, he⟩
    obtain ⟨xs, s₁, hx, hnone, rfl⟩ := (block_eq_ok rfl rfl rfl).1 hblock
    exact series_of_repeats rfl rfl hp rfl hx hnone he
  · intro h
    have hx : Repeats (memberRound "" ⟨.lbrace, "\x7b", .start⟩) _ _ _ :=
      h.repeats rfl hp.braceless (List.cons_ne_nil _ _)
    refine ⟨_, (block_eq_ok rfl rfl rfl).2 ⟨_, _, hx, bracedRound_of_rbrace rfl rfl, ?_⟩, rfl⟩
    simp

end

/-! ## Lines -/

/-- A line with one statement. -/
structure Line where
  number : Nat
  tokens : List Token
  statement : Statement
  on_line : ∀ t ∈ tokens, t.line = number
  starts : atStatement tokens = true
  brace_free : BraceFree tokens
  complete : cleanBody? tokens = some [statement]

/-- The statement at the start of `ts` is read, and it ends in front of `behind`. -/
def EndsBefore (s : State) (ts behind : List Token) : Prop :=
  ∃ st s', statement (s.leaving (ts ++ behind)) = .ok st s' ∧ s'.ahead = behind

section
variable {s t : State} {X Y W : List Token} {what : String} {opening close : Token}

/-- What the line says about itself, read in front of a brace. -/
theorem Line.reads_alone (l : Line) : ∃ u us, l.tokens = u :: us ∧ u.kind.startsStatement = true ∧
    Grammar.statement ((State.ofBody []).leaving (u :: (us ++ [⟨.rbrace, "\x7d", .start⟩]))) =
      .ok l.statement ((State.ofBody []).leaving [⟨.rbrace, "\x7d", .start⟩]) := by
  have hseries := (cleanBody?_eq_some_iff l.brace_free).1 l.complete
  have hstarts := l.starts
  generalize l.tokens = ts at hseries hstarts
  cases hseries with
  | @cons u us r _ _ _ hst hrest =>
    cases hrest
    exact ⟨u, us, rfl, hstarts, hst⟩

/-- The statement of a line is read wherever a statement can end behind it. -/
theorem Line.reads (l : Line) (hY : Limits l.tokens Y) :
    Grammar.statement (s.leaving (l.tokens ++ Y)) = .ok l.statement (s.leaving Y) := by
  obtain ⟨u, us, hts, -, hst⟩ := l.reads_alone
  have hb := l.brace_free.braceless
  rw [hts] at hb hY ⊢
  obtain ⟨-, -, -, -, hmoves⟩ :=
    statement_moves rfl hb (List.cons_ne_nil _ _) hst (List.nil_append _).symm
  exact hmoves s Y (hY.of_suffix (List.suffix_cons ..))

/-- Where a line is read to its end, its own statement is read. -/
theorem Line.reads_of_endsBefore (l : Line) (hs : s.last.kind = .eof) (hX : X ≠ [])
    (h : EndsBefore s l.tokens X) :
    Grammar.statement (s.leaving (l.tokens ++ X)) = .ok l.statement (s.leaving X) := by
  obtain ⟨u, us, hts, -, hst⟩ := l.reads_alone
  obtain ⟨st, s', hok, ha⟩ := h
  have hb := l.brace_free.braceless
  rw [hts] at hb hok ⊢
  obtain ⟨rfl, -, -, -, hmoves⟩ := statement_moves hs hb hX hok (ha.trans (List.nil_append X).symm)
  have halone := hmoves (State.ofBody []) [⟨.rbrace, "\x7d", .start⟩] (.brace rfl)
  rw [hst] at halone
  cases halone
  exact hok

/-- A line neither ends with a dot nor has one behind its first word. -/
theorem Line.undotted (l : Line) : (∀ d, l.tokens.getLast? = some d → d.kind ≠ .dot) ∧
    ∃ u us, l.tokens = u :: us ∧ u.kind.startsStatement = true ∧ startsWith .dot us = false := by
  obtain ⟨u, us, hts, hu, hst⟩ := l.reads_alone
  have hb := l.brace_free.braceless
  rw [hts] at hb ⊢
  obtain ⟨-, -, ⟨word, hw, -⟩, ⟨read, hus, hdot⟩, -⟩ :=
    statement_moves rfl hb (List.cons_ne_nil _ _) hst (List.nil_append _).symm
  rw [List.append_nil] at hus
  subst hus
  have hu' : u.kind ≠ .dot := by
    rw [hw]
    rintro ⟨⟩
  refine ⟨((undotted_singleton hu').append hdot).last, u, us, rfl, hu, ?_⟩
  cases us with
  | nil => rfl
  | cons t ts => exact beq_eq_false_iff_ne.2 (hdot.head t rfl)

theorem Line.startsWith_dot (l : Line) (X : List Token) :
    startsWith .dot (l.tokens ++ X) = false := by
  obtain ⟨-, u, us, hts, hu, -⟩ := l.undotted
  rw [hts]
  refine beq_eq_false_iff_ne.2 fun hd => ?_
  rw [hd] at hu
  cases hu

/-- In front of another line, a line ends. -/
theorem Line.limits (l m : Line) (hW : startsWith .dot W = false) :
    Limits l.tokens (m.tokens ++ W) := by
  obtain ⟨-, u, us, hts, hu, hd⟩ := m.undotted
  rw [hts]
  refine .statement hu ?_ l.undotted.1
  cases us with
  | nil => exact hW
  | cons t ts => exact hd

theorem Line.memberRound (l : Line) (hs : s.last.kind = .eof) (hX : X ≠ [])
    (h : Grammar.statement (s.leaving (l.tokens ++ X)) = .ok l.statement (s.leaving X)) :
    Grammar.memberRound what opening (s.leaving (l.tokens ++ X)) =
      .ok (some (some l.statement)) (s.leaving X) := by
  obtain ⟨u, us, hts, -⟩ := l.reads_alone
  have hb := l.brace_free.braceless
  rw [hts] at hb h ⊢
  exact memberRound_of_moves (r := []) hs hb hX h

theorem repeats_lines (hs : s.last.kind = .eof) (hc : close.kind = .rbrace) (rest : List Token) :
    ∀ ls : List Line, Repeats (memberRound what opening)
      (s.leaving (ls.flatMap Line.tokens ++ close :: rest)) (ls.map fun l => some l.statement)
      (s.leaving (close :: rest))
  | [] => .nil _
  | l :: ls => by
    have hlimits : Limits l.tokens (ls.flatMap Line.tokens ++ close :: rest) := by
      cases ls with
      | nil => exact .brace hc
      | cons m ls =>
        rw [List.flatMap_cons, List.append_assoc]
        refine l.limits m ?_
        cases ls with
        | nil =>
          refine beq_eq_false_iff_ne.2 ?_
          rw [hc]
          rintro ⟨⟩
        | cons n ls =>
          rw [List.flatMap_cons, List.append_assoc]
          exact n.startsWith_dot _
    rw [List.flatMap_cons, List.append_assoc]
    exact .cons (l.memberRound hs hlimits.ne_nil (l.reads hlimits)) (repeats_lines hs hc rest ls)

/-- Lines in front of other tokens. If the last two are read to their ends, all of them are. -/
theorem repeats_lines_before (hs : s.last.kind = .eof) (hX : X ≠ []) : ∀ {ls : List Line},
    (∀ pre l post, ls = pre ++ l :: post → post.length ≤ 1 →
      EndsBefore s l.tokens (post.flatMap Line.tokens ++ X)) →
    Repeats (memberRound what opening) (s.leaving (ls.flatMap Line.tokens ++ X))
      (ls.map fun l => some l.statement) (s.leaving X)
  | [], _ => .nil _
  | l :: ls, h => by
    have hne : ls.flatMap Line.tokens ++ X ≠ [] := List.append_ne_nil_of_right_ne_nil _ hX
    have hread : Grammar.statement (s.leaving (l.tokens ++ (ls.flatMap Line.tokens ++ X))) =
        .ok l.statement (s.leaving (ls.flatMap Line.tokens ++ X)) := by
      by_cases hlen : ls.length ≤ 1
      · exact l.reads_of_endsBefore hs hne (h [] l ls rfl hlen)
      · -- behind the next line comes a third one, so no dot
        rcases ls with _ | ⟨m, _ | ⟨n, ls⟩⟩
        · exact absurd (Nat.zero_le _) hlen
        · exact absurd (Nat.le_refl _) hlen
        · refine l.reads ?_
          simp only [List.flatMap_cons, List.append_assoc]
          exact l.limits m (n.startsWith_dot _)
    rw [List.flatMap_cons, List.append_assoc]
    refine .cons (l.memberRound hs hne hread) (repeats_lines_before hs hX fun pre l' post he => ?_)
    exact h (l :: pre) l' post (by rw [he]; rfl)

end

/-! ## The faulty line -/

/-- The statements that start in `ts`, read one after the other up to the first that fails, keep to
    `ts`: none of them reads tokens of `behind`. -/
inductive StaysIn (s : State) (behind : List Token) : List Token → Prop
  | done : StaysIn s behind []
  | read {u : Token} {us r : List Token} {st : Statement} {s' : State} :
    statement (s.leaving (u :: (us ++ behind))) = .ok st s' → s'.ahead = r ++ behind →
    StaysIn s behind r → StaysIn s behind (u :: us)
  | fail {u : Token} {us r : List Token} {e : SyntaxError} {s' : State} :
    statement (s.leaving (u :: (us ++ behind))) = .error e s' → s'.ahead = r ++ behind →
    StaysIn s behind (u :: us)

section
variable {s : State} {X ts : List Token} {k : Nat} {us r : List Token} {e : SyntaxError}
  {s' : State} {u : Token}

/-- The statements on a line are all read, or one of them fails. -/
theorem StaysIn.cases_series (hs : s.last.kind = .eof) (hb : Braceless ts) (hX : X ≠ [])
    (h : StaysIn s X ts) : (∃ body, Series s X ts body []) ∨
      ∃ body u us r e s', Series s X ts body (u :: us) ∧
        statement (s.leaving (u :: (us ++ X))) = .error e s' ∧ s'.ahead = r ++ X := by
  induction h with
  | done => exact .inl ⟨[], .nil []⟩
  | @read u us r st s' hst ha _ ih =>
    obtain ⟨rfl, -, -, ⟨read, rfl, -⟩, -⟩ := statement_moves hs hb hX hst ha
    rcases ih hb.of_cons.of_append with ⟨body, hbody⟩ | ⟨body, u', us', r', e, s', hbody, he, ha'⟩
    · exact .inl ⟨_, .cons hst hbody⟩
    · exact .inr ⟨_, u', us', r', e, s', .cons hst hbody, he, ha'⟩
  | @fail u us r e s' he ha => exact .inr ⟨[], u, us, r, e, s', .nil _, he, ha⟩

/-- What follows a faulty line: the brace of the block, or a statement on a later line. -/
inductive Follows (k : Nat) : List Token → Prop
  | brace {t : Token} {ts : List Token} : t.kind = .rbrace → k ≤ t.line → Follows k (t :: ts)
  | line {t : Token} {ts : List Token} : t.kind.startsStatement = true → k < t.line →
    Follows k (t :: ts)

theorem Follows.ne_nil (h : Follows k X) : X ≠ [] := by
  cases h <;> simp

theorem Follows.le_line (h : Follows k X) (s : State) : k ≤ (s.leaving X).current.line := by
  cases h with
  | brace _ hk => exact hk
  | line _ hk => exact Nat.le_of_lt hk

/-- Skipping ends in front of what follows. -/
theorem skipTo_follows (hX : Follows k X) : skipTo atStatement k 0 X = X := by
  cases hX with
  | @brace t ts ht _ => simp [skipTo, ht, TokenKind.startsDeclaration]
  | @line t ts ht hk =>
    have hd : t.kind.startsDeclaration = false := by
      cases hw : t.kind with
      | keyword word =>
        rw [hw] at ht
        exact startsDeclaration_of_startsStatement ht
      | _ => rfl
    have hl : t.kind ≠ .lbrace := by
      rintro hl
      rw [hl] at ht
      cases ht
    have hr : t.kind ≠ .rbrace := by
      rintro hr
      rw [hr] at ht
      cases ht
    simp [skipTo, hd, hl, hr, hk, atStatement, ht]

/-- The rest of a faulty line is skipped, and no more. -/
theorem skipTo_append (hb : BraceFree ts) (hd : ∀ t ∈ ts, t.kind.startsDeclaration = false)
    (hk : ∀ t ∈ ts, t.line = k) (hX : Follows k X) : skipTo atStatement k 0 (ts ++ X) = X := by
  induction ts with
  | nil => exact skipTo_follows hX
  | cons t ts ih =>
    have hl : ¬k < t.line := by rw [hk t (List.mem_cons_self ..)]; exact Nat.lt_irrefl k
    have hrest := ih (hb.of_suffix (List.suffix_cons ..))
      (fun t ht => hd t (List.mem_cons_of_mem _ ht)) fun t ht => hk t (List.mem_cons_of_mem _ ht)
    simp [skipTo, hd t (List.mem_cons_self ..), hb.braceless t (List.mem_cons_self ..),
      hb.rbrace t (List.mem_cons_self ..), hl, hrest]

/-- An error of a statement that keeps to its line is about this line. -/
theorem line_of_fault (hs : s.last.kind = .eof) (hb : Braceless (u :: us))
    (hk : ∀ t ∈ u :: us, t.line = k) (hX : Follows k X)
    (he : statement (s.leaving (u :: (us ++ X))) = .error e s') (ha : s'.ahead = r ++ X) :
    e.line = k := by
  obtain ⟨rfl, read, hread, rfl | hraised⟩ := statement_fault hs hb he ha
  · exact hk u (List.mem_cons_self ..)
  cases hraised with
  | @back t _ ht => exact hk t (by rw [hread]; exact List.mem_append_left _ ht)
  | next expected =>
    have hu : u.line = k := hk u (List.mem_cons_self ..)
    have hle : k ≤ ((s.entering u).leaving (r ++ X)).current.line := by
      cases r with
      | nil => exact hX.le_line _
      | cons v vs => exact Nat.le_of_eq (hk v (by simp [hread])).symm
    show SyntaxError.line (if ((r ++ X).isEmpty ||
      decide (((s.entering u).leaving (r ++ X)).current.line > u.line)) = true then _ else _) = k
    split
    · exact hu
    · next hc =>
      rw [Bool.or_eq_true, not_or, decide_eq_true_eq, hu] at hc
      exact Nat.le_antisymm (Nat.le_of_not_lt hc.2) hle

/-- The round of a faulty statement notes its error and leaves what follows the line. -/
theorem memberRound_of_fault {what : String} {opening : Token} (hs : s.last.kind = .eof)
    (hb : BraceFree (u :: us)) (hd : ∀ t ∈ u :: us, t.kind.startsDeclaration = false)
    (hk : ∀ t ∈ u :: us, t.line = k) (hX : Follows k X)
    (he : statement (s.leaving (u :: (us ++ X))) = .error e s') (ha : s'.ahead = r ++ X) :
    memberRound what opening (s.leaving (u :: (us ++ X))) =
      .ok (some none) (State.leaving { s with errors := s.errors ++ [e] } X) := by
  obtain ⟨rfl, read, hread, -⟩ := statement_fault hs hb.braceless he ha
  have hr : r <:+ u :: us := hread ▸ List.suffix_append read r
  have hskip : skipTo atStatement u.line 0 (r ++ X) = X := by
    rw [hk u (List.mem_cons_self ..)]
    exact skipTo_append (hb.of_suffix hr) (fun t ht => hd t (hr.subset ht))
      (fun t ht => hk t (hr.subset ht)) hX
  rw [memberRound_of_error rfl (hb.rbrace u (List.mem_cons_self ..))
    (hd u (List.mem_cons_self ..)) he]
  simp only [State.recovered, current_leaving_cons, ahead_leaving, hskip]
  rfl

end

/-- One faulty line, one error. A block has a statement on each line, apart from line `k`, which
    holds tokens that are not read without an error on their own. If the last two lines in front of
    it are read to their ends, and no statement on it reads what follows, then the block notes one
    error, of line `k`, and keeps the statements of all other lines. -/
theorem block_of_faulty_line {what : String} {s : State} {opening close : Token}
    {before after : List Line} {bad rest : List Token} {k : Nat} (hs : s.last.kind = .eof)
    (ho : opening.kind = .lbrace) (hc : close.kind = .rbrace) (hk : k ≤ close.line)
    (hb : BraceFree bad) (hd : ∀ t ∈ bad, t.kind.startsDeclaration = false)
    (hl : ∀ t ∈ bad, t.line = k) (hbad : cleanBody? bad = none) (ha : ∀ l ∈ after, k < l.number)
    (hfront : ∀ pre l post, before = pre ++ l :: post → post.length ≤ 1 →
      EndsBefore s l.tokens (post.flatMap Line.tokens ++
        (bad ++ (after.flatMap Line.tokens ++ close :: rest))))
    (hstays : StaysIn s (after.flatMap Line.tokens ++ close :: rest) bad) :
    ∃ found e,
      block what (s.leaving (opening :: (before.flatMap Line.tokens ++
          (bad ++ (after.flatMap Line.tokens ++ close :: rest))))) =
        .ok (before.map Line.statement ++ found ++ after.map Line.statement)
          { s with ahead := rest, errors := s.errors ++ [e] } ∧
      e.line = k ∧ ∀ st ∈ found, st.line = k := by
  have hX : Follows k (after.flatMap Line.tokens ++ close :: rest) := by
    cases after with
    | nil => exact .brace hc hk
    | cons l after =>
      obtain ⟨u, us, hts, hu, -⟩ := l.reads_alone
      have hline : u.line = l.number := l.on_line u (by simp [hts])
      rw [List.flatMap_cons, hts]
      exact .line hu (by rw [hline]; exact ha l (List.mem_cons_self ..))
  have hbefore : Repeats (memberRound what opening) _ _ _ :=
    repeats_lines_before hs (List.append_ne_nil_of_right_ne_nil bad hX.ne_nil) hfront
  rcases hstays.cases_series hs hb.braceless hX.ne_nil with
    ⟨body, hbody⟩ | ⟨found, u, us, r, e, s', hfound, he, hr⟩
  · -- a line whose statements are all read is read on its own, too
    have halone : cleanBody? _ = some body :=
      (cleanBody?_eq_some_iff hb).2 (hbody.moves hs hb.braceless hX.ne_nil (.brace rfl))
    rw [hbad] at halone
    cases halone
  · obtain ⟨hlines, hsuffix⟩ := hfound.inside hs hb.braceless hX.ne_nil
    have hl' : ∀ t ∈ u :: us, t.line = k := fun t ht => hl t (hsuffix.subset ht)
    have hfault : memberRound what opening _ = _ := memberRound_of_fault hs (hb.of_suffix hsuffix)
      (fun t ht => hd t (hsuffix.subset ht)) hl' hX he hr
    have hafter : Repeats (memberRound what opening) _ _ _ :=
      repeats_lines (s := { s with errors := s.errors ++ [e] }) hs hc rest after
    have hx := hbefore.trans ((hfound.repeats hs hb.braceless hX.ne_nil).trans
      (.cons hfault hafter))
    have herror := line_of_fault hs (hb.of_suffix hsuffix).braceless hl' hX he hr
    refine ⟨found, e, ?_, herror, fun st hst => ?_⟩
    · rw [block_eq_ok (by exact hs) rfl ho]
      refine ⟨_, _, hx, bracedRound_of_rbrace rfl hc, ?_⟩
      simp [List.filterMap_map]
    · obtain ⟨t, ht, hline⟩ := hlines st hst
      exact hline.trans (hl t ht)

/-- `REFRESH`, alone on its line. -/
def refreshLine (n : Nat) : Line where
  number := n
  tokens := [⟨.keyword .refresh, "REFRESH", ⟨n, 1⟩⟩]
  statement := .step n .refresh
  on_line := by simp [Token.line]
  starts := rfl
  brace_free := ⟨by simp [Braceless], by simp⟩
  complete := rfl

/-- `WAIT delay`, alone on its line. -/
def waitLine (n : Nat) : Line where
  number := n
  tokens := [⟨.keyword .wait, "WAIT", ⟨n, 1⟩⟩, ⟨.identifier, "delay", ⟨n, 6⟩⟩]
  statement := .step n (.wait (.ofPrimary (.ref none "delay")) .seconds)
  on_line := by simp [Token.line]
  starts := rfl
  brace_free := ⟨by simp [Braceless], by simp⟩
  complete := rfl

/-- A block with lines, then other tokens, and lines again. -/
def scriptOf (before : List Line) (bad : List Token) (after : List Line) : State :=
  (State.ofBody []).leaving (⟨.lbrace, "\x7b", ⟨1, 1⟩⟩ :: (before.flatMap Line.tokens ++
    (bad ++ (after.flatMap Line.tokens ++ [⟨.rbrace, "\x7d", ⟨5, 1⟩⟩]))))

/-- A line with a statement and the first word of another. -/
def refreshClick : List Token :=
  [⟨.keyword .refresh, "REFRESH", ⟨3, 1⟩⟩, ⟨.keyword .click, "CLICK", ⟨3, 9⟩⟩]

theorem block_of_faulty_line_click : cleanBody? refreshClick = none ∧ ∃ found e,
    block "scenario" (scriptOf [waitLine 1, refreshLine 2] refreshClick [refreshLine 4]) =
      .ok ([waitLine 1, refreshLine 2].map Line.statement ++ found ++
          [refreshLine 4].map Line.statement)
        { State.ofBody [] with ahead := [], errors := [] ++ [e] } ∧
    e.line = 3 ∧ ∀ st ∈ found, st.line = 3 := by
  refine ⟨rfl, block_of_faulty_line (s := State.ofBody []) (k := 3) rfl rfl rfl (by decide)
    ⟨by simp [Braceless, refreshClick], by simp [refreshClick]⟩ (by decide) (by decide) rfl
    (by simp [refreshLine]) (fun pre l post he _ => ?_) (.read rfl rfl (.fail rfl rfl))⟩
  rcases pre with _ | ⟨_, _ | ⟨_, pre⟩⟩
  · cases he
    exact ⟨_, _, rfl, rfl⟩
  · cases he
    exact ⟨_, _, rfl, rfl⟩
  · have := congrArg List.length he
    simp at this

/-- `LOAD users FROM`, without its table. -/
def halfLoad : List Token :=
  [⟨.keyword .load, "LOAD", ⟨2, 1⟩⟩, ⟨.identifier, "users", ⟨2, 6⟩⟩,
    ⟨.keyword .from_, "FROM", ⟨2, 12⟩⟩]

/-- `MILLISECONDS`, alone on a line. -/
def loneUnit : List Token :=
  [⟨.keyword .milliseconds, "MILLISECONDS", ⟨2, 1⟩⟩]

/-- Both conditions are needed: a faulty line can take the first word of the next line as a name, or
    continue the line in front of it, and then no error is noted. -/
theorem faulty_line_runs_on :
    (cleanBody? halfLoad = none ∧ ∃ q,
      block "scenario" (scriptOf [refreshLine 1] halfLoad [refreshLine 3]) =
        .ok [.step 1 .refresh, .step 2 (.query q)] ((State.ofBody []).leaving [])) ∧
    cleanBody? loneUnit = none ∧
      block "scenario" (scriptOf [waitLine 1] loneUnit [refreshLine 3]) =
        .ok [.step 1 (.wait (.ofPrimary (.ref none "delay")) .milliseconds), .step 3 .refresh]
          ((State.ofBody []).leaving []) :=
  ⟨⟨rfl, _, rfl⟩, rfl, rfl⟩

end UiScenario.Grammar
