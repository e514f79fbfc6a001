import UiScenario.Proofs.FaithfulGrammar

/-!
The record of the open statement. Every statement sets it and puts back what it found, a block puts
it back behind a faulty statement, and the members of a page clear it; so it is always that of the
innermost statement, and an incomplete statement is reported by its own word and line.
-/

namespace UiScenario.Grammar

open UiScenario.Grammar.Parser

section
variable {s s' : State} {what : String}

/-- Statements inside a block may fail, but each of them leaves the record as it was. -/
theorem yields_blockRound {block : String → Parser (List Statement)} {opening : Token}
    {o : Option Opened} : Yields (fun s => s.opened = o)
      (bracedRound what opening (blockMember block)) fun x => ∀ a, x = some a → True := by
  intro s hs
  rcases bracedRound_cases s with ⟨t, ts, ha, ht⟩ | he | ⟨t, ts, ha, hb, hd⟩
  · rw [bracedRound_of_rbrace ha ht]
    exact ⟨by simp, hs⟩
  · rw [bracedRound_of_end he, bind_of_ok (reportUnclosed_eq ..)]
    refine ⟨by simp, ?_⟩
    split <;> exact hs
  · rw [bracedRound_of_member ha hb hd]
    cases hr : statementWith block s with
    | ok st s' =>
      rw [bind_of_ok (blockMember_of_ok hr)]
      exact ⟨by simp, (opened_of_statement hr).trans hs⟩
    | error e s' =>
      rw [bind_of_ok (blockMember_of_error hr)]
      exact ⟨by simp, hs⟩

theorem opened_of_block {body : List Statement} (hr : block what s = .ok body s') :
    s'.opened = s.opened := by
  replace hr : nestedBlock (s.ahead.length + 1) what s = .ok body s' := hr
  obtain ⟨members, _, hr, ⟨⟩⟩ := parser_bind_eq_ok.1 hr
  rw [braced_eq] at hr
  obtain ⟨opening, s₁, he, hr⟩ := parser_bind_eq_ok.1 hr
  obtain ⟨ts, -, -, rfl⟩ := expect_eq_ok he
  have hends : Ends (fun t => t.opened = s.opened) _
      (many (bracedRound what opening (blockMember (nestedBlock s.ahead.length))) _) :=
    yields_many yields_blockRound (s.leaving ts) rfl
  rw [hr] at hends
  exact hends.2

theorem block_eq_error {e : SyntaxError} (hr : block what s = .error e s') :
    startsWith .lbrace s.ahead = false ∧ s' = s := by
  have he : expect .lbrace ("'\x7b' to open the " ++ what) s = .error e s' :=
    eq_error_of_braced total_blockMember (eq_error_of_give hr)
  rw [expect_eq] at he
  split at he
  · cases he
  · next hb =>
    cases he
    exact ⟨by simpa using hb, rfl⟩

end

/-- The record of the open statement is properly nested. -/
theorem openStatement_nested :
    (∀ s found s', statement s = .ok found s' → s'.opened = s.opened) ∧
    (∀ what s body s', block what s = .ok body s' → s'.opened = s.opened) ∧
    (∀ what s e s', block what s = .error e s' → startsWith .lbrace s.ahead = false ∧ s' = s) ∧
    (∀ tokens xs s, Repeats programRound (.ofTokens tokens) xs s → s.opened = none ∧
      ∀ e s' word expected, declaration s.renewed = .error e s' →
        e.fault ≠ .incompleteStatement word expected) ∧
    ∀ tokens, (parse tokens).errors = (watch tokens).flatMap (fun r => faults false r.events) ∧
      ∀ r ∈ watch tokens, ∀ e i word expected, .raised e i ∈ r.events →
        e.fault = .incompleteStatement word expected → i.opened = some ⟨word, e.line⟩ := by
  refine ⟨fun _ _ _ => opened_of_statement, fun _ _ _ _ => opened_of_block,
    fun _ _ _ _ => block_eq_error, fun tokens xs s hx => ?_, fun tokens => ?_⟩
  · have hs := stands_of_repeats (stands_ofTokens tokens) hx
    refine ⟨hs.opened, fun e s' word expected hr hf => ?_⟩
    -- the fault of a header is raised inside of nothing
    have hd : ∀ N, Watch.Faithful (.ofTokens tokens) (N + 1) .nothing true _
        (Watch.declaration .nothing) := fun _ => Watch.faithful_declaration rfl
    obtain ⟨events, j, -, -, ha, -, hj⟩ := (hd _).fault hs.renewed hr
    have ho := ha.statement word expected hf
    rw [hj rfl] at ho
    cases ho
  · obtain ⟨hparse, hsound⟩ := parse_eq_watch tokens
    exact ⟨by rw [hparse], fun r hr e i word expected hm =>
      ((hsound r hr).events _ hm).statement word expected⟩

end UiScenario.Grammar
