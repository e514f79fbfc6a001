import UiScenario.Proofs.Composition
import UiScenario.Proofs.FaithfulGrammar

/-!
The places of syntax errors. An unexpected token and an unknown statement are placed at the token
they show, an unclosed block at its opening brace. An incomplete statement has the line of the token
it starts with and the column of the token at which reading stopped, which is on a later line or the
end of the script.

The events of reading are located; here this is carried over to the faults of a script, whose end is
behind all its tokens.
-/

namespace UiScenario

theorem Located.mono {ts us : List Token} {e : SyntaxError} (h : Located ts e) (hs : ts ⊆ us) :
    Located us e := by
  cases h with
  | unexpected ht => exact .unexpected (hs ht)
  | unknown ht => exact .unknown (hs ht)
  | unclosed ht hk => exact .unclosed (hs ht) hk
  | incomplete ht hu hl => exact .incomplete (hs ht) (hs hu) hl

namespace Grammar

open UiScenario.Grammar.Parser

theorem located_of_mem_faults {S : State} (noted : Bool) {events : List Event} {e : SyntaxError}
    (hb : ∀ t ∈ S.tokens, t.line ≤ S.last.line) (h : ∀ x ∈ events, x.Sound S)
    (he : e ∈ faults noted events) : Located S.tokens e := by
  induction events generalizing noted with
  | nil => cases he
  | cons x events ih =>
    have ih := fun noted => ih noted fun x hx => h x (List.mem_cons_of_mem _ hx)
    have hx := h x List.mem_cons_self
    cases x with
    | raised e' i =>
      rcases List.mem_cons.1 he with rfl | he
      · exact hx.located hb
      · exact ih _ he
    | closed => exact ih _ he
    | ranOut b around ahead =>
      rcases List.mem_append.1 he with he | he
      · cases noted with
        | true => cases he
        | false =>
          rw [List.mem_singleton.1 he]
          exact .unclosed hx.1 hx.2
      · exact ih _ he

/-! ## Scripts -/

/-- Lexemes stand in the order of their lines, in front of the end of the text. -/
theorem scan_ordered (pos : Position) (cs : List Char) :
    pos.line ≤ (scan pos cs).2.line ∧ ∀ x ∈ (scan pos cs).1, x.1.line ≤ (scan pos cs).2.line := by
  fun_induction scan pos cs with
  | case1 pos => simp
  | case2 pos c cs hb ih =>
    have hl : pos.line ≤ (pos.next c).line := by
      unfold Position.next
      split <;> simp
    exact ⟨hl.trans ih.1, ih.2⟩
  | case3 pos c cs hb cut found last heq ih =>
    have hl : pos.line ≤ (pos.after cut.segment).line := by
      rw [Position.after_line]
      exact Nat.le_add_right ..
    rw [heq] at ih
    refine ⟨hl.trans ih.1, fun x hx => ?_⟩
    rcases List.mem_cons.1 hx with rfl | hx
    · exact hl.trans ih.1
    · exact ih.2 x hx

theorem line_le_end {source : String} {ts : List Token} {e : Token}
    (h : (tokenize source).tokens = ts ++ [e]) :
    ∀ t ∈ (tokenize source).tokens, t.line ≤ e.line := by
  have hord := (scan_ordered .start source.toList).2
  have htokens : (tokenize source).tokens =
      (scan .start source.toList).1.filterMap Lexeme.token? ++
        [Token.eofAt (scan .start source.toList).2] := rfl
  obtain ⟨rfl, he⟩ := List.append_inj' (h.symm.trans htokens) rfl
  obtain rfl := List.singleton_inj.1 he
  intro t ht
  rw [htokens] at ht
  rcases List.mem_append.1 ht with ht | ht
  · obtain ⟨⟨pos, lexeme⟩, hx, ht⟩ := List.mem_filterMap.1 ht
    cases lexeme with
    | token kind value => cases ht; exact hord _ hx
    | fault f => cases ht
  · rw [List.mem_singleton.1 ht]

/-- The tokens that are read are those of the script, and its end is behind them. -/
theorem tokens_ofTokens (source : String) :
    (State.ofTokens (tokenize source).tokens).tokens ⊆ (tokenize source).tokens ∧
      ∀ t ∈ (tokenize source).tokens,
        t.line ≤ (State.ofTokens (tokenize source).tokens).last.line := by
  obtain ⟨ts, e, htokens, hts, he⟩ := exists_tokens source
  have hlast : (State.ofTokens (tokenize source).tokens).last = e := by
    have hts' : ∀ t ∈ readable ts, ¬(t.kind == .eof) = true := by
      intro t ht hk
      exact hts t (List.mem_of_mem_filter ht) (beq_iff_eq.1 hk)
    have hfind : (readable (ts ++ [e])).find? (·.kind == .eof) = some e := by
      rw [readable, List.filter_append, List.find?_append, ← readable, List.find?_eq_none.2 hts']
      simp [he]
    rw [htokens]
    unfold State.ofTokens
    rw [← readable]
    simp only [hfind]
  refine ⟨List.cons_subset.2 ⟨?_, fun t ht => ?_⟩, ?_⟩
  · rw [hlast, htokens]
    simp
  · exact List.mem_of_mem_filter ((List.takeWhile_sublist _).mem ht)
  · rw [hlast]
    exact line_le_end htokens

end Grammar

open Grammar in
/-- **The places of syntax errors.** Every syntax error of a script is about one of its tokens, and
    it has the place of that token, unless it is about an incomplete statement at whose end reading
    went on to a later line: then it has the line of the token that starts the statement and the
    column of the token at which reading stopped. -/
theorem syntaxErrors_located (source : String) (e : SyntaxError)
    (he : e ∈ (parseText source).errors) :
    Located (tokenize source).tokens e ∧
    ((∃ t ∈ (tokenize source).tokens, e.pos = t.pos) ∨
      ∃ word expected, e.fault = .incompleteStatement word expected ∧
        ∃ start ∈ (tokenize source).tokens, ∃ stop ∈ (tokenize source).tokens,
          start.line < stop.line ∧ e.line = start.line ∧ e.column = stop.column) := by
  have hlocated : Located (tokenize source).tokens e := by
    obtain ⟨hparse, hsound⟩ := parse_eq_watch (tokenize source).tokens
    obtain ⟨hsub, hb⟩ := tokens_ofTokens source
    rw [parseText, hparse] at he
    obtain ⟨r, hr, he⟩ := List.mem_flatMap.1 he
    exact (located_of_mem_faults _ (fun t ht => hb t (hsub ht)) (hsound r hr).events he).mono hsub
  refine ⟨hlocated, ?_⟩
  cases hlocated with
  | unexpected ht | unknown ht | unclosed ht => exact .inl ⟨_, ht, rfl⟩
  | @incomplete start stop word expected ht hu hl =>
    rcases hl with hl | ⟨hl, -⟩
    · exact .inr ⟨word, expected, rfl, start, ht, stop, hu, hl, rfl, rfl⟩
    · refine .inl ⟨stop, hu, ?_⟩
      rw [hl]
      rfl

/-- A click without an element, in front of an indented line. -/
def brokenClick : String :=
  "FEATURE F \x7b SCENARIO \"s\" \x7b\nCLICK\n    REFRESH\n\x7d \x7d"

theorem syntaxErrors_located_brokenClick :
    ∃ e ∈ (parseText brokenClick).errors, e.pos = ⟨2, 5⟩ ∧
      (∀ t ∈ (tokenize brokenClick).tokens, e.pos ≠ t.pos) ∧
      ∃ start ∈ (tokenize brokenClick).tokens, ∃ stop ∈ (tokenize brokenClick).tokens,
        start.line < stop.line ∧ e.line = start.line ∧ e.column = stop.column := by
  obtain ⟨hpos, hfree⟩ : (parseText brokenClick).errors.map (·.pos) = [⟨2, 5⟩] ∧
      ∀ t ∈ (tokenize brokenClick).tokens, (⟨2, 5⟩ : Position) ≠ t.pos := by
    decide +kernel
  obtain ⟨e, herrors, he⟩ := List.map_eq_singleton_iff.1 hpos
  have hmem : e ∈ (parseText brokenClick).errors := by simp [herrors]
  rw [← he] at hfree
  refine ⟨e, hmem, he, hfree, ?_⟩
  rcases (syntaxErrors_located brokenClick e hmem).2 with ⟨t, ht, hp⟩ | ⟨_, _, -, h⟩
  · exact absurd hp (hfree t ht)
  · exact h

end UiScenario
