import UiScenario.Grammar.Statement
import UiScenario.Proofs.SteadyGrammar

/-!
The rules for statements do not see what follows a closing brace as long as nothing is wrong, and
the bounds on their nesting do not matter. Rules that open no block are `Steady`; blocks inside each
other by induction on the tokens.
-/

namespace UiScenario.Grammar

open UiScenario.Grammar.Parser

section
variable {N : Nat}

/-- The first token of a declaration may be any. -/
theorem lookahead_atQueryBinding : Lookahead true atQueryBinding := by
  rintro _ behind ⟨us, t, rfl, ht⟩ hl
  rcases us with _ | ⟨u, _ | ⟨v, _ | ⟨w, _ | ⟨x, us⟩⟩⟩⟩
  · exact absurd (hl rfl) (by simp)
  · rcases behind with _ | ⟨a, _ | ⟨b, behind⟩⟩ <;>
      simp [atQueryBinding, Token.isWord, TokenKind.isWord, ht]
  · rcases behind with _ | ⟨a, behind⟩ <;> simp [atQueryBinding, ht]
  · simp [atQueryBinding]
  · simp [atQueryBinding]

/-- Which rule a keyword starts depends on what follows for declarations only. -/
theorem lookahead_stepRule (word : Keyword) : Lookahead true (stepRule? word) := by
  intro ts behind hc hl
  unfold stepRule?
  rw [lookahead_atQueryBinding ts behind hc hl]

/-- The statement of a rule for a step, if there is one for its first token. -/
def stepStatement (start : Token) (found : Option (Parser Step)) : Parser Statement :=
  match found with
  | some rule => rule >>= fun s => pure (.step start.line s)
  | none => throw ⟨.unknownStatement start.display, start.pos⟩

theorem statementWith_eq (block : String → Parser (List Statement)) :
    statementWith block = current >>= fun start =>
      enclosed (fun _ => some ⟨Text.upper start.value, start.line⟩) id (statementRule block) := rfl

section
variable {block : String → Parser (List Statement)} {s s' : State} {st : Statement}

theorem opened_of_statement (h : statementWith block s = .ok st s') : s'.opened = s.opened := by
  rw [statementWith_eq, current_bind] at h
  obtain ⟨s₁, -, rfl⟩ := exists_of_enclosed_eq_ok h
  rfl

theorem blockMember_of_ok (h : statementWith block s = .ok st s') :
    blockMember block s = .ok (some st) s' :=
  attempt_bind_of_ok (tryCatch_of_ok h)

/-- What a faulty statement leaves: its error is noted, and the tokens up to the next statement are
    skipped. -/
def State.recovered (s s' : State) (e : SyntaxError) : State :=
  State.reopened { s' with
    ahead := skipTo atStatement s.current.line 0 s'.ahead
    errors := s'.errors ++ [e] } s.opened

theorem blockMember_of_error {e : SyntaxError} (h : statementWith block s = .error e s') :
    blockMember block s = .ok none (s.recovered s' e) := by
  have hp : (tryCatch (statementWith block) fun e => setOpened s.opened >>= fun _ => throw e :
      Parser Statement) s = .error e (s'.reopened s.opened) := tryCatch_of_error h
  exact attempt_bind_of_error hp

/-- Behind a statement that was read, putting the record back changes nothing. -/
theorem blockMember_eq (block : String → Parser (List Statement)) :
    blockMember block = enclosed id id (recovering atStatement (statementWith block)) := by
  funext s
  cases h : statementWith block s with
  | ok st s' =>
    have hr : recovering atStatement (statementWith block) s = .ok (some st) s' :=
      attempt_bind_of_ok h
    rw [blockMember_of_ok h, enclosed_of_ok hr, id, ← opened_of_statement h]
    rfl
  | error e s' =>
    have hr : recovering atStatement (statementWith block) s =
        .ok none { s' with
          ahead := skipTo atStatement s.current.line 0 s'.ahead
          errors := s'.errors ++ [e] } :=
      attempt_bind_of_error h
    rw [blockMember_of_error h, enclosed_of_ok hr]
    rfl

end

/-- One round of the further arms of an `IF`. -/
def armRound (block : String → Parser (List Statement)) : Parser (Option Arm) := do
  if atElseIf (← ahead) then
    let _ ← advance
    return some (← arm block)
  return none

theorem branchStatement_eq (block : String → Parser (List Statement)) :
    branchStatement block = arm block >>= fun first => many (armRound block) >>= fun further =>
      eat (.keyword .else_) >>= fun eaten =>
        if eaten = true then block "ELSE" >>= fun elseBody => pure (first.chain further elseBody)
        else pure (first.chain further []) := rfl

theorem lookahead_atElseIf {c : Bool} : Lookahead c atElseIf := by
  rintro _ behind ⟨us, t, rfl, ht⟩ -
  rcases us with _ | ⟨u, _ | ⟨v, us⟩⟩
  · simp [atElseIf, startsWith, ht]
  · simp [atElseIf, startsWith]
  · simp [atElseIf, startsWith]

section
variable {block block' : String → Parser (List Statement)}
  (hb : ∀ what, Parallel N true (block what) (block' what))
include hb

theorem parallel_arm : Parallel N true (arm block) (arm block') :=
  parallel_advance.first fun _ => steady_condition.parallel.bind fun _ => (hb _).give

theorem parallel_furtherArm : Parallel N true
    (advance >>= fun _ => arm block >>= fun x => pure (some x))
    (advance >>= fun _ => arm block' >>= fun x => pure (some x)) :=
  parallel_advance.first fun _ => (parallel_arm hb).give

theorem parallel_armRound : Parallel N false (armRound block) (armRound block') :=
  parallel_test lookahead_atElseIf (parallel_furtherArm hb).weaken parallel_pure

theorem advances_armRound : Advances N (armRound block) :=
  advances_test rfl (parallel_furtherArm hb)

theorem parallel_branchStatement :
    Parallel N true (branchStatement block) (branchStatement block') := by
  rw [branchStatement_eq, branchStatement_eq]
  refine (parallel_arm hb).first fun a => ?_
  refine (parallel_many (parallel_armRound hb) (advances_armRound hb)).bind fun further => ?_
  exact parallel_eat.bind fun _ => parallel_ite (hb _).give parallel_pure

theorem parallel_repeatStatement :
    Parallel N true (repeatStatement block) (repeatStatement block') :=
  parallel_advance.first fun _ => steady_expression.parallel.bind fun _ =>
    parallel_expect.bind fun _ => (hb _).give

theorem parallel_forEachStatement :
    Parallel N true (forEachStatement block) (forEachStatement block') :=
  parallel_advance.first fun _ => parallel_expect.bind fun _ =>
    steady_binding.parallel.bind fun _ => parallel_expect.bind fun _ =>
      steady_name.parallel.bind fun _ => (hb _).give

theorem parallel_statementRule : Parallel N true (statementRule block) (statementRule block') := by
  refine parallel_current.bind fun start => ?_
  dsimp only
  split
  · exact parallel_branchStatement hb
  · exact parallel_repeatStatement hb
  · exact parallel_forEachStatement hb
  · next word _ _ _ _ =>
    refine parallel_look (k := stepStatement start) (m := stepStatement start)
      (lookahead_stepRule word) fun ts => ?_
    cases hr : stepRule? word ts with
    | none => exact parallel_throw
    | some rule =>
      obtain ⟨n, hrule, -⟩ := headed_stepRule hr
      exact hrule.parallel.map
  · exact parallel_throw

theorem parallel_statementWith : Parallel N true (statementWith block) (statementWith block') := by
  rw [statementWith_eq, statementWith_eq]
  exact parallel_current.bind fun _ => parallel_enclosed (parallel_statementRule hb) rfl

theorem parallel_blockMember : Parallel N false (blockMember block) (blockMember block') := by
  rw [blockMember_eq, blockMember_eq]
  exact parallel_enclosed (parallel_recovering (parallel_statementWith hb)) rfl

theorem progresses_blockMember : Progresses N (blockMember block) := by
  rw [blockMember_eq]
  intro s t ts a s' hs hts hbrace hd hr
  obtain ⟨s₁, hp, rfl⟩ := exists_of_enclosed_eq_ok hr
  exact progresses_recovering (parallel_statementWith hb) s t ts a s₁ hs hts hbrace hd hp

end

/-- Blocks inside each other: the bounds of the nesting do not matter if they are not below the
    number of tokens, because each block leaves fewer to the blocks inside it. -/
theorem parallel_nestedBlock : ∀ (N a b : Nat), N ≤ a → N ≤ b → ∀ what : String,
    Parallel N true (nestedBlock a what) (nestedBlock b what) := by
  intro N
  induction N with
  | zero => exact fun _ _ _ _ _ => parallel_zero
  | succ N ih =>
    intro a b ha hb what
    obtain ⟨a, rfl⟩ := Nat.exists_eq_add_of_le' ha
    obtain ⟨b, rfl⟩ := Nat.exists_eq_add_of_le' hb
    have hblock := ih (a + N) (b + N) (Nat.le_add_left ..) (Nat.le_add_left ..)
    exact (parallel_braced (parallel_blockMember hblock) (progresses_blockMember hblock)).map

theorem parallel_block {what : String} : Parallel N true (block what) (block what) :=
  parallel_bounded fun M _ a b ha hb => parallel_nestedBlock M a b ha hb what

end

end UiScenario.Grammar
