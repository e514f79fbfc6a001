import UiScenario.Proofs.Completeness
import UiScenario.Proofs.ParallelProgram

/-!
Where reading stands, and that it ends. Reading goes through the tokens without comments, one after
the other, up to the first end of the script.
-/

namespace UiScenario.Grammar

open UiScenario.Grammar.Parser

/-! ## Positions -/

/-- The tokens that are read, with an end of the script at the back. -/
def stream (tokens : List Token) : List Token :=
  let kept := tokens.filter (·.kind != .comment)
  if kept.getLast?.any (·.kind == .eof) then kept
  else kept ++ [⟨.eof, "", kept.getLast?.elim .start fun t => ⟨t.line, t.column + 1⟩⟩]

/-- The position of the first end of the script. -/
def firstEnd (stream : List Token) : Nat :=
  stream.findIdx (·.kind == .eof)

/-- A state stands at a position up to the first end of the script, and the tokens ahead are those
    from there to that end. -/
structure State.At (stream : List Token) (i : Nat) (s : State) : Prop where
  le : i ≤ firstEnd stream
  ahead : s.ahead = (stream.take (firstEnd stream)).drop i
  last : stream[firstEnd stream]? = some s.last

section
variable {stream : List Token} {i : Nat} {s s' : State}

theorem State.At.lt (h : s.At stream i) : firstEnd stream < stream.length :=
  (List.getElem?_eq_some_iff.1 h.last).1

theorem State.At.kind_last (h : s.At stream i) : s.last.kind = .eof := by
  obtain ⟨hlt, he⟩ := List.getElem?_eq_some_iff.1 h.last
  have hk := List.findIdx_getElem (p := fun t : Token => t.kind == .eof) (w := hlt)
  rw [← he]
  exact beq_iff_eq.1 hk

theorem State.At.length (h : s.At stream i) : i + s.ahead.length = firstEnd stream := by
  have hlt := h.lt
  have hle := h.le
  rw [h.ahead, List.length_drop, List.length_take]
  omega

theorem State.At.fits (h : s.At stream i) : Fits (stream.length + 1) s := by
  have hlt := h.lt
  have hl := h.length
  exact ⟨by omega, h.kind_last⟩

theorem State.At.drop (h : s.At stream i) :
    stream.drop i = s.ahead ++ s.last :: stream.drop (firstEnd stream + 1) := by
  obtain ⟨hlt, he⟩ := List.getElem?_eq_some_iff.1 h.last
  have hsplit : stream.drop (firstEnd stream) = s.last :: stream.drop (firstEnd stream + 1) := by
    rw [List.drop_eq_getElem_cons hlt, he]
  rw [h.ahead, ← hsplit, ← List.drop_append_of_le_length, List.take_append_drop]
  rw [List.length_take]
  have := h.le
  omega

/-- There is a token at the position, and it is the next one. -/
theorem State.At.getElem? (h : s.At stream i) : stream[i]? = some s.current := by
  have h0 : (stream.drop i)[0]? = stream[i]? := by rw [List.getElem?_drop, Nat.add_zero]
  rw [← h0, h.drop, State.current]
  cases s.ahead <;> rfl

/-- Reading goes on to a later position. -/
theorem State.At.onward (h : s.At stream i) (ho : Onward s s') :
    s'.At stream (i + (s.ahead.length - s'.ahead.length)) := by
  have hl := h.length
  refine ⟨by omega, (List.suffix_iff_eq_drop.1 ho.ahead).trans ?_, by rw [ho.last]; exact h.last⟩
  generalize s.ahead.length - s'.ahead.length = n
  rw [h.ahead, List.drop_drop]

end

/-- The tokens up to and including the first end of the script. -/
def upToEnd (tokens : List Token) : List Token :=
  (stream tokens).take (firstEnd (stream tokens) + 1)

theorem takeWhile_stream (tokens : List Token) :
    (stream tokens).takeWhile (·.kind != .eof) = (State.ofTokens tokens).ahead := by
  unfold stream State.ofTokens
  dsimp only
  split
  · rfl
  · rw [List.takeWhile_append]
    split
    · next hl => rw [List.takeWhile_cons_of_neg (by simp), List.append_nil,
        (List.takeWhile_prefix _).eq_of_length hl]
    · rfl

theorem find?_stream (tokens : List Token) :
    (stream tokens).find? (·.kind == .eof) = some (State.ofTokens tokens).last := by
  unfold stream State.ofTokens
  dsimp only
  generalize tokens.filter (·.kind != .comment) = kept
  split
  · next hl =>
    cases hf : kept.find? (·.kind == .eof) with
    | some t => rfl
    | none =>
      obtain ⟨t, ht, hk⟩ := (Option.any_eq_true _ _).1 hl
      exact absurd hk (List.find?_eq_none.1 hf t (List.mem_of_getLast? ht))
  · rw [List.find?_append]
    cases hf : kept.find? (·.kind == .eof) <;> rfl

theorem at_ofTokens (tokens : List Token) : (State.ofTokens tokens).At (stream tokens) 0 := by
  refine ⟨Nat.zero_le _, ?_, ?_⟩
  · rw [← takeWhile_stream, List.takeWhile_eq_take_findIdx_not, List.drop_zero, firstEnd]
    congr 2
    funext t
    rw [bne, Bool.not_not]
  · rw [← find?_stream, firstEnd, List.find?_eq_getElem?_findIdx]

theorem upToEnd_eq (tokens : List Token) :
    upToEnd tokens = (State.ofTokens tokens).ahead ++ [(State.ofTokens tokens).last] := by
  have h := at_ofTokens tokens
  obtain ⟨hlt, he⟩ := List.getElem?_eq_some_iff.1 h.last
  rw [upToEnd, List.take_succ_eq_append_getElem hlt, he, h.ahead, List.drop_zero]

/-- Only the tokens up to the first end of the script count. -/
theorem parse_congr {tokens others : List Token} (h : upToEnd others = upToEnd tokens) :
    parse others = parse tokens := by
  rw [upToEnd_eq, upToEnd_eq] at h
  obtain ⟨ha, hl⟩ := List.append_inj' h rfl
  have hs : State.ofTokens others = State.ofTokens tokens := by
    have h₁ : ∀ ts, State.ofTokens ts =
        ⟨(State.ofTokens ts).ahead, (State.ofTokens ts).last, none, false, []⟩ := fun _ => rfl
    rw [h₁ others, h₁ tokens, ha, List.singleton_inj.1 hl]
  rw [parse, parse, hs]

/-! ## Looking ahead -/

/-- The tests of the tokens ahead. -/
inductive Test : (List Token → Bool) → Prop
  | kind (k : TokenKind) (h : k ≠ .eof) : Test (startsWith k)
  | bareName : Test atBareName
  | qualifiedName : Test atQualifiedName
  | expression : Test atExpression
  | queryBinding (word : Keyword) : Test fun ts =>
    startsWith (.keyword word) ts && atQueryBinding ts
  | unqualified (word : Keyword) : Test (atUnqualified word)
  | elseIf : Test atElseIf
  | statement : Test atStatement
  | action : Test atAction
  | pageMember : Test atPageMember
  | featureMember : Test atFeatureMember

section
variable {ts behind : List Token} {last : Token}

theorem atQualifiedName_append_end (hl : last.kind = .eof) :
    atQualifiedName (ts ++ last :: behind) = atQualifiedName ts := by
  rcases ts with _ | ⟨q, _ | ⟨d, _ | ⟨n, ts⟩⟩⟩
  · rcases behind with _ | ⟨x, _ | ⟨y, behind⟩⟩ <;>
      simp [atQualifiedName, Token.isWord, TokenKind.isWord, hl]
  · cases behind <;> simp [atQualifiedName, hl]
  · simp [atQualifiedName, Token.isWord, TokenKind.isWord, hl]
  · rfl

theorem atAction_append_end (hl : last.kind = .eof) :
    atAction (ts ++ last :: behind) = atAction ts := by
  rcases ts with _ | ⟨n, _ | ⟨t, ts⟩⟩
  · cases behind <;> simp [atAction, Token.isWord, TokenKind.isWord, hl]
  · simp [atAction, hl]
  · rfl

/-- No test looks behind the end of the script. -/
theorem Test.append_end {g : List Token → Bool} (h : Test g) (hl : last.kind = .eof) :
    g (ts ++ last :: behind) = g ts := by
  cases h with
  | kind k hk => cases ts <;> simp [startsWith, hl, hk.symm]
  | bareName => cases ts <;> simp [atBareName, hl, TokenKind.isBareName]
  | qualifiedName => exact atQualifiedName_append_end hl
  | expression =>
    have hq : atQualifiedName (ts ++ last :: behind) = atQualifiedName ts :=
      atQualifiedName_append_end hl
    cases ts with
    | nil =>
      rw [List.nil_append] at hq
      simp only [List.nil_append, atExpression, hl, hq, atBareName]
      rfl
    | cons t ts =>
      simp only [List.cons_append] at hq
      simp only [List.cons_append, atExpression, hq]
      rfl
  | queryBinding word =>
    rcases ts with _ | ⟨t, _ | ⟨n, _ | ⟨e, _ | ⟨m, ts⟩⟩⟩⟩
    · simp [startsWith, hl]
    · rcases behind with _ | ⟨x, _ | ⟨y, behind⟩⟩ <;>
        simp [atQueryBinding, Token.isWord, TokenKind.isWord, hl]
    · cases behind <;> simp [atQueryBinding, hl]
    · simp [atQueryBinding, queryMode?, hl]
    · rfl
  | unqualified word =>
    rcases ts with _ | ⟨t, _ | ⟨n, ts⟩⟩ <;> simp [atUnqualified, startsWith, hl]
  | elseIf => rcases ts with _ | ⟨t, _ | ⟨n, ts⟩⟩ <;> simp [atElseIf, startsWith, hl]
  | statement => cases ts <;> simp [atStatement, hl, TokenKind.startsStatement]
  | action => exact atAction_append_end hl
  | pageMember =>
    have ha : atAction (ts ++ last :: behind) = atAction ts := atAction_append_end hl
    cases ts with
    | nil =>
      rw [List.nil_append] at ha
      simp only [List.nil_append, atPageMember, hl, ha]
      rfl
    | cons t ts =>
      simp only [List.cons_append] at ha
      simp only [List.cons_append, atPageMember, ha]
  | featureMember => cases ts <;> simp [atFeatureMember, hl]

end

/-! ## Parsers that do not fail -/

/-- A parser that does not fail. -/
def Total {α : Type} (p : Parser α) : Prop :=
  ∀ s, ∃ a s', p s = .ok a s'

section
variable {α β : Type} {p : Parser α}

theorem total_pure (a : α) : Total (pure a : Parser α) :=
  fun s => ⟨a, s, rfl⟩

theorem total_modify (f : State → State) : Total (modify f : Parser Unit) :=
  fun s => ⟨(), f s, rfl⟩

theorem Total.bind {k : α → Parser β} (h : Total p) (hk : ∀ a, Total (k a)) : Total (p >>= k) := by
  intro s
  obtain ⟨a, s', hp⟩ := h s
  rw [bind_of_ok hp]
  exact hk a s'

theorem total_ite {t : Prop} [Decidable t] {q : Parser α} (h : Total p) (h' : Total q) :
    Total (if t then p else q) := by
  split
  · exact h
  · exact h'

theorem total_look {k : List Token → Parser α} (hk : ∀ ts, Total (k ts)) : Total (ahead >>= k) :=
  fun s => hk s.ahead s

theorem total_eat {kind : TokenKind} : Total (eat kind) := by
  intro s
  cases h : startsWith kind s.ahead with
  | true => exact ⟨_, _, eat_of_startsWith h⟩
  | false => exact ⟨_, _, eat_of_not_startsWith h⟩

/-- What goes on behind a failure does not fail, so nothing does. -/
theorem total_attempt {k : Except SyntaxError α → Parser β} (hk : ∀ x, Total (k x)) :
    Total (attempt p >>= k) := by
  intro s
  cases hp : p s with
  | ok a s' =>
    rw [attempt_bind_of_ok hp]
    exact hk _ s'
  | error e s' =>
    rw [attempt_bind_of_error hp]
    exact hk _ s'

theorem total_recovering {isStart : List Token → Bool} : Total (recovering isStart p) := by
  intro s
  refine total_attempt (fun x => ?_) s
  cases x with
  | ok a => exact total_pure _
  | error e => exact (total_modify _).bind fun _ => (total_modify _).bind fun _ => total_pure _

theorem total_rounds {p : Parser (Option α)} (h : Total p) : ∀ n, Total (rounds p n)
  | 0 => total_pure _
  | n + 1 => by
    refine Total.bind h fun x => ?_
    cases x with
    | none => exact total_pure _
    | some x => exact (total_rounds h n).bind fun _ => total_pure _

theorem total_bracedRound {block : String} {opening : Token} (h : Total p) :
    Total (bracedRound block opening p) := by
  refine total_eat.bind fun _ => total_ite (total_pure _) ?_
  rw [atBlockEnd_eq]
  refine Total.bind (total_look fun _ => total_pure _) fun _ => total_ite ?_ ?_
  · exact (total_modify _).bind fun _ => total_pure _
  · exact h.bind fun _ => total_pure _

theorem total_blockMember {block : String → Parser (List Statement)} :
    Total (blockMember block) := by
  have ht : Total (recovering atStatement (statementWith block)) := total_recovering
  rw [blockMember_eq]
  intro s
  obtain ⟨a, s', hp⟩ := ht (s.reopened (id s.opened))
  exact ⟨a, _, enclosed_of_ok hp⟩

theorem total_recoveringPageMember : Total recoveringPageMember :=
  total_recovering.bind fun _ => total_ite ((total_modify _).bind fun _ => total_pure _)
    (total_pure _)

theorem total_useNames : ∀ n, Total (useNames n)
  | 0 => total_pure _
  | n + 1 => by
    intro s
    refine total_attempt (fun x => ?_) s
    cases x with
    | error e => exact total_pure _
    | ok name =>
      refine total_eat.bind fun _ => total_ite ?_ (total_pure _)
      exact (total_useNames n).bind fun _ => total_pure _

theorem total_recoveringFeatureMember : Total recoveringFeatureMember := by
  refine Total.bind (total_look fun _ => total_pure _) fun _ => total_ite ?_ ?_
  · rw [useMember_eq]
    refine Total.bind (fun _ => ⟨_, _, rfl⟩) fun _ => total_look fun _ =>
      (total_useNames _).bind fun x => ?_
    obtain ⟨us, missing⟩ := x
    cases missing with
    | none => exact total_pure _
    | some e => exact (total_modify _).bind fun _ => (total_modify _).bind fun _ => total_pure _
  · exact total_recovering.bind fun _ => total_pure _

theorem total_programRound : Total programRound := by
  refine total_look fun _ => total_ite (total_pure _) ?_
  refine Total.bind ((total_modify _).bind fun _ => total_attempt fun x => ?_) fun _ => total_pure _
  cases x with
  | ok d => exact total_pure _
  | error e => exact (total_modify _).bind fun _ => (total_modify _).bind fun _ => total_pure _

end

/-! ## Loops -/

/-- The rounds of the loops over declarations, over the members of a declaration and over the
    statements of a block. -/
inductive Loop : {α : Type} → Parser (Option α) → Prop
  | program : Loop programRound
  | page (opening : Token) : Loop (bracedRound "page" opening recoveringPageMember)
  | library (opening : Token) :
    Loop (bracedRound "page actions" opening (recovering atAction libraryMember))
  | feature (opening : Token) : Loop (bracedRound "feature" opening recoveringFeatureMember)
  | block (what : String) (opening : Token) : Loop (bracedRound what opening (blockMember block))

section
variable {α : Type} {round : Parser (Option α)} {N : Nat}

theorem Loop.total (h : Loop round) : Total round := by
  cases h with
  | program => exact total_programRound
  | page => exact total_bracedRound total_recoveringPageMember
  | library => exact total_bracedRound total_recovering
  | feature => exact total_bracedRound total_recoveringFeatureMember
  | block => exact total_bracedRound total_blockMember

theorem Loop.advances (h : Loop round) : Advances N round := by
  cases h with
  | program => exact advances_programRound
  | page => exact advances_bracedRound progresses_recoveringPageMember
  | library => exact advances_bracedRound (progresses_recovering parallel_libraryMember)
  | feature => exact advances_bracedRound progresses_recoveringFeatureMember
  | block => exact advances_bracedRound (progresses_blockMember fun _ => parallel_block)

theorem Loop.parallel (h : Loop round) (N : Nat) : Parallel N false round round := by
  cases h with
  | program => exact parallel_programRound
  | page => exact parallel_bracedRound parallel_recoveringPageMember
  | library => exact parallel_bracedRound (parallel_recovering parallel_libraryMember)
  | feature => exact parallel_bracedRound parallel_recoveringFeatureMember
  | block => exact parallel_bracedRound (parallel_blockMember fun _ => parallel_block)

/-- A round reads a token, or it is the last one. -/
theorem Loop.steps (h : Loop round) {stream : List Token} {i : Nat} {s : State}
    (hs : s.At stream i) :
    ∃ x s' j, round s = .ok x s' ∧ s'.At stream j ∧ i ≤ j ∧ (x.isSome = true → i < j) := by
  obtain ⟨x, s', hr⟩ := h.total s
  have hp := h.parallel (stream.length + 1)
  have ho := hp.onward_ok hs.fits hr
  refine ⟨x, s', _, hr, hs.onward ho, Nat.le_add_right .., fun hx => ?_⟩
  obtain ⟨x, rfl⟩ := Option.isSome_iff_exists.1 hx
  have := h.advances s x s' hs.fits hr
  omega

/-- A loop ends because a round answers `none`. -/
theorem Loop.ends (h : Loop round) {stream : List Token} {i : Nat} {s : State}
    (hs : s.At stream i) :
    ∃ xs s₁ s' j, Repeats round s xs s₁ ∧ round s₁ = .ok none s' ∧ many round s = .ok xs s' ∧
      s'.At stream j := by
  obtain ⟨xs, s', hr⟩ := total_rounds h.total (s.ahead.length + 1) s
  have hp := h.parallel (stream.length + 1)
  obtain ⟨s₁, hx, hnone⟩ := (many_eq_ok hp h.advances hs.fits).1 hr
  have ho := (onward_repeats hp h.advances hs.fits hx).1
  have ho' := hp.onward_ok (hs.fits.onward ho) hnone
  exact ⟨xs, s₁, s', _, hx, hnone, hr, hs.onward (ho.trans ho')⟩

/-- The bound on the nesting of blocks is never felt. -/
theorem block_eq {what : String} {s : State} (hs : s.last.kind = .eof) :
    block what s = (braced what ("'\x7b' to open the " ++ what) (blockMember block) >>=
      fun members => pure (members.filterMap id)) s := by
  have hblock : ∀ what, Parallel s.ahead.length true (nestedBlock s.ahead.length what)
      (block what) :=
    fun what => parallel_bounded_right fun M hM b hb => parallel_nestedBlock M _ b hM hb what
  have hbraced : Parallel (s.ahead.length + 1) true
      (braced what ("'\x7b' to open the " ++ what) (blockMember (nestedBlock s.ahead.length)))
      (braced what ("'\x7b' to open the " ++ what) (blockMember block)) :=
    parallel_braced (parallel_blockMember hblock) (progresses_blockMember hblock)
  exact (hbraced.map.same s ⟨Nat.lt_succ_self _, hs⟩).symm

end

/-- The rounds of the loops inside members and statements. -/
inductive InnerLoop : {α : Type} → Parser (Option α) → Prop
  | summands : InnerLoop (after? .plus primary)
  | arguments : InnerLoop (after? .comma expression)
  | parameters : InnerLoop (after? .comma (binding "a parameter name"))
  | columns : InnerLoop (after? .comma orderBy)
  | conditions : InnerLoop whereRound
  | arms : InnerLoop (armRound block)
  | tags : InnerLoop tagRound

theorem InnerLoop.rounds_eq {α : Type} {round : Parser (Option α)} (h : InnerLoop round) {n : Nat}
    {s : State} (hs : s.last.kind = .eof) (hn : s.ahead.length < n) :
    rounds round n s = many round s := by
  have hf : Fits (s.ahead.length + 1) s := ⟨Nat.lt_succ_self _, hs⟩
  have hafter : ∀ {β : Type} {c : Bool} {kind : TokenKind} {p : Parser β},
      Parallel (s.ahead.length + 1) c p p →
        rounds (after? kind p) n s = many (after? kind p) s :=
    fun hp => rounds_eq_many (parallel_after? hp) (advances_after? hp) hf hn
  cases h with
  | summands => exact hafter steady_primary.parallel
  | arguments => exact hafter steady_expression.parallel
  | parameters => exact hafter steady_binding.parallel
  | columns => exact hafter steady_orderBy.parallel
  | conditions => exact rounds_eq_many steady_whereRound.parallel advances_whereRound hf hn
  | arms =>
    have hb : ∀ what, Parallel (s.ahead.length + 1) true (block what) (block what) :=
      fun _ => parallel_block
    exact rounds_eq_many (parallel_armRound hb) (advances_armRound hb) hf hn
  | tags => exact rounds_eq_many parallel_tagRound advances_tagRound hf hn

/-- The names of a `USE` end by themselves, too. -/
theorem useNames_eq {line n : Nat} {s : State} (hs : s.last.kind = .eof)
    (hn : s.ahead.length < n) : (useNames n >>= usesMember line) s =
      (useNames (s.ahead.length + 1) >>= usesMember line) s := by
  exact (parallel_usesMember line _ (Nat.le_refl _) _ n (Nat.le_refl _) hn).same s
    ⟨Nat.lt_succ_self _, hs⟩

end UiScenario.Grammar

namespace UiScenario

open Grammar Grammar.Parser

/-- **Reading ends at the first end of the script.** From any position up to there, a round of a
    loop ends at a later one unless it is the last, nothing behind the end is looked at, and no
    bound on rounds or on nesting is felt; tokens behind the end, and comments, do not count. -/
theorem parse_reads_to_firstEnd (tokens : List Token) :
    (∃ p s, program (.ofTokens tokens) = .ok p s ∧
      s.At (stream tokens) (firstEnd (stream tokens)) ∧ parse tokens = ⟨p, s.errors⟩) ∧
    (∀ i s, s.At (stream tokens) i →
      i ≤ firstEnd (stream tokens) ∧ firstEnd (stream tokens) < (stream tokens).length ∧
      (stream tokens)[i]? = some s.current ∧
      (∀ g, Test g → g ((stream tokens).drop i) = g s.ahead) ∧
      (∀ {α : Type} (round : Parser (Option α)), Loop round →
        (∃ x s' j, round s = .ok x s' ∧ s'.At (stream tokens) j ∧ i ≤ j ∧
          (x.isSome = true → i < j)) ∧
        ∃ xs s₁ s' j, Repeats round s xs s₁ ∧ round s₁ = .ok none s' ∧ many round s = .ok xs s' ∧
          s'.At (stream tokens) j) ∧
      (∀ {α : Type} (round : Parser (Option α)), InnerLoop round → ∀ n, s.ahead.length < n →
        rounds round n s = many round s) ∧
      (∀ line n, s.ahead.length < n → (useNames n >>= usesMember line) s =
        (useNames (s.ahead.length + 1) >>= usesMember line) s) ∧
      ∀ what, block what s =
        (braced what ("'\x7b' to open the " ++ what) (blockMember block) >>=
          fun members => pure (members.filterMap id)) s) ∧
    ∀ others, upToEnd others = upToEnd tokens → parse others = parse tokens := by
  refine ⟨?_, fun i s hs => ?_, fun others h => parse_congr h⟩
  · obtain ⟨xs, s₁, s', j, -, hnone, hr, hs⟩ := Loop.program.ends (at_ofTokens tokens)
    have hp : program (.ofTokens tokens) = .ok (programOf xs) s' := by
      rw [program_eq, bind_of_ok hr]
      rfl
    refine ⟨programOf xs, s', hp, ?_, by rw [parse, hp]⟩
    obtain ⟨hnil, rfl⟩ := programRound_eq_none.1 hnone
    have hl := hs.length
    rw [hnil] at hl
    rwa [← hl]
  · refine ⟨hs.le, hs.lt, hs.getElem?, fun g hg => ?_, fun round hl => ⟨hl.steps hs, hl.ends hs⟩,
      fun round hl n hn => hl.rounds_eq hs.kind_last hn,
      fun line n hn => useNames_eq hs.kind_last hn, fun what => block_eq hs.kind_last⟩
    rw [hs.drop]
    exact hg.append_end hs.kind_last

/-- A comment, a feature that breaks off, and a brace behind the end of the script. -/
def strayTokens : List Token :=
  [⟨.comment, "todo", ⟨1, 1⟩⟩, ⟨.keyword .feature, "FEATURE", ⟨2, 1⟩⟩, ⟨.eof, "", ⟨2, 8⟩⟩,
    ⟨.rbrace, "\x7d", ⟨3, 1⟩⟩]

theorem parse_reads_to_firstEnd_stray :
    (State.ofTokens strayTokens).At (stream strayTokens) 0 ∧ firstEnd (stream strayTokens) = 1 ∧
    (∃ x s j, programRound (.ofTokens strayTokens) = .ok x s ∧ s.At (stream strayTokens) j ∧
      0 ≤ j ∧ (x.isSome = true → 0 < j)) ∧
    upToEnd ((strayTokens.drop 1).take 2) = upToEnd strayTokens ∧
    parse ((strayTokens.drop 1).take 2) = parse strayTokens := by
  obtain ⟨-, hat, hcongr⟩ := parse_reads_to_firstEnd strayTokens
  have hstart := at_ofTokens strayTokens
  obtain ⟨-, -, -, -, hloops, -⟩ := hat 0 _ hstart
  have hend : upToEnd ((strayTokens.drop 1).take 2) = upToEnd strayTokens := by decide
  exact ⟨hstart, by decide, (hloops programRound .program).1, hend, hcongr _ hend⟩

end UiScenario
