import UiScenario.Proofs.Misreading

/-!
Names are read back. A name in a value place or a target place is read as a name, unless the grammar
looks there for a keyword that the name is spelled like; then it never is.
-/

namespace UiScenario.Grammar

open UiScenario.Grammar.Parser

/-- Tokens of the slots are read as the statement, in front of all tokens where it can end. -/
def ReadsBack (slots : List Slot) (s : Statement) : Prop :=
  ∀ ts rest : List Token, List.Forall₂ Token.Fills ts slots → CanEnd rest →
    statement (State.ofTokens (ts ++ rest)) = .ok s (State.ofTokens rest)

/-- Tokens of the slots are not read as the statement, wherever reading ends. -/
def Misreads (slots : List Slot) (s : Statement) : Prop :=
  ∀ (ts rest : List Token) (st : State), List.Forall₂ Token.Fills ts slots → CanEnd rest →
    statement (State.ofTokens (ts ++ rest)) ≠ .ok s st

theorem misreads_of_gives {xs : List Slot} {s : Statement}
    (h : ∀ ks, Stops ks → Gives statement xs (· ≠ s) ks) : Misreads xs s := by
  intro ts rest st hts hrest hst
  have hends := h _ hrest.stops ts _ (State.ofTokens (ts ++ rest)) hts rfl ?_ ?_
  · rw [hst] at hends
    exact hends.1 rfl
  · exact last_ofTokens _
  · rw [ofTokens_of_fills hts hrest]

section
variable {write : Expression → List Slot} {make : Expression → Statement}
  {looked : List TokenKind} {qualifier : Option String} {name : String}

theorem readsBack_valuePlace (h : ValuePlace write make looked)
    (hn : (Primary.ref qualifier name).Writable)
    (hl : TokenKind.ofWord (qualifier.getD name) ∉ looked) :
    ReadsBack (write (.ofPrimary (.ref qualifier name)))
      (make (.ofPrimary (.ref qualifier name))) := by
  have he : (Expression.ofPrimary (.ref qualifier name)).Writable := by
    simpa [Expression.Writable, Expression.ofPrimary, Expression.parts] using hn
  have hlooked : Avoids looked (kinds (Expression.ofPrimary (.ref qualifier name)).slots) := by
    cases qualifier <;> exact avoids_cons hl
  exact fun ts rest hts hrest =>
    statement_ofTokens (fun ks hks => reads_valuePlace h he hlooked hks) hts hrest

theorem misreads_valuePlace (h : ValuePlace write make looked)
    (hn : (Primary.ref qualifier name).Writable)
    (hl : TokenKind.ofWord (qualifier.getD name) ∈ looked) :
    Misreads (write (.ofPrimary (.ref qualifier name)))
      (make (.ofPrimary (.ref qualifier name))) := by
  cases h with
  | step h line => exact misreads_of_gives fun ks hks => gives_lookedStep h hn hl hks
  | branch | repeat_ => cases hl

end

/-- Names are read back in every place of every statement, but for those that are spelled like a
    keyword the grammar looks for in that place. A word that can be bound stands alone as a value,
    and any word qualifies a name as a value or names the page of an element. As a value, a name is
    not read back either if its qualifier is spelled like a flag. -/
theorem names_read_back (word name : String) :
    (∀ write make looked, ValuePlace write make looked →
      (TokenKind.ofWord word).isBareName = true →
      (TokenKind.ofWord word ∉ looked →
        ReadsBack (write (.ofPrimary (.ref none word))) (make (.ofPrimary (.ref none word)))) ∧
      (TokenKind.ofWord word ∈ looked →
        Misreads (write (.ofPrimary (.ref none word))) (make (.ofPrimary (.ref none word))))) ∧
    (∀ write make looked, ValuePlace write make looked →
      (TokenKind.ofWord word ∉ flagKinds ++ looked →
        ReadsBack (write (.ofPrimary (.ref (some word) name)))
          (make (.ofPrimary (.ref (some word) name)))) ∧
      (TokenKind.ofWord word ∈ flagKinds ++ looked →
        Misreads (write (.ofPrimary (.ref (some word) name)))
          (make (.ofPrimary (.ref (some word) name))))) ∧
    ∀ write make looked, TargetPlace write make looked →
      (TokenKind.ofWord word ∉ looked →
        ReadsBack (write (.element (some word) name)) (make (.element (some word) name))) ∧
      (TokenKind.ofWord word ∈ looked →
        Misreads (write (.element (some word) name)) (make (.element (some word) name))) := by
  refine ⟨?_, ?_, ?_⟩
  · intro write make looked h hn
    have hw : (Primary.ref none word).Writable := hn
    exact ⟨fun hl => readsBack_valuePlace h hw hl, fun hl => misreads_valuePlace h hw hl⟩
  · intro write make looked h
    refine ⟨fun hq => ?_, fun hq => ?_⟩
    · rw [List.mem_append, not_or] at hq
      exact readsBack_valuePlace h hq.1 hq.2
    · by_cases hf : TokenKind.ofWord word ∈ flagKinds
      · exact misreads_of_gives fun ks hks => gives_valueFlag h hf hks
      · exact misreads_valuePlace h hf ((List.mem_append.1 hq).resolve_left hf)
  · intro write make looked h
    refine ⟨fun hl ts rest hts hrest => ?_, fun hl => ?_⟩
    · exact statement_ofTokens (fun ks hks => reads_targetPlace h hl hks) hts hrest
    · exact misreads_of_gives fun ks _ => gives_lookedPlace h hl

-- `count` and `Cookies` are names elsewhere
theorem names_read_back_keywords :
    ReadsBack [.opening .wait 3, .name "count", .keyword .milliseconds]
      (.step 3 (.wait (.ofPrimary (.ref none "count")) .milliseconds)) ∧
    Misreads [.opening .number 3, .name "total", .sign .equals, .name "count"]
      (.step 3 (.declare .number "total" (.ofPrimary (.ref none "count")))) ∧
    ReadsBack [.opening .log 4, .name "Cookies", .sign .dot, .name "banner"]
      (.step 4 (.log (.ofPrimary (.ref (some "Cookies") "banner")))) ∧
    Misreads [.opening .log 4, .name "True", .sign .dot, .name "banner"]
      (.step 4 (.log (.ofPrimary (.ref (some "True") "banner")))) ∧
    ReadsBack [.opening .click 5, .name "Cookies", .sign .dot, .name "banner"]
      (.step 5 (.click (.element (some "Cookies") "banner"))) ∧
    Misreads [.opening .clear 5, .name "Cookies", .sign .dot, .name "banner"]
      (.step 5 (.clear (.element (some "Cookies") "banner"))) ∧
    ReadsBack [.opening .repeat_ 6, .name "count", .keyword .times, .sign .lbrace,
        .opening .refresh 7, .sign .rbrace]
      (.repeat_ 6 (.ofPrimary (.ref none "count")) [.step 7 .refresh]) ∧
    ReadsBack [.opening .load 8, .name "users", .keyword .from_, .name "Users", .keyword .where_,
        .name "age", .sign .equals, .name "count", .keyword .limit, .count 3]
      (.step 8 (.query ⟨.data, "users", .load, ⟨"Users", none⟩,
        some ⟨⟨"age", .equal, some (.ofPrimary (.ref none "count"))⟩, []⟩, [], some 3, none⟩)) := by
  obtain ⟨hcount, -⟩ := names_read_back "count" "rows"
  obtain ⟨-, hvalue, htarget⟩ := names_read_back "Cookies" "banner"
  obtain ⟨-, hflag, -⟩ := names_read_back "True" "banner"
  refine ⟨?_, ?_, ?_, ?_, ?_, ?_, ?_, ?_⟩
  · exact (hcount _ _ _ (.step (.wait .milliseconds) 3) (by decide)).1 (by decide)
  · exact (hcount _ _ _ (.step (.declare .number (by decide)) 3) (by decide)).2 (by decide)
  · exact (hvalue _ _ _ (.step .log 4)).1 (by decide)
  · exact (hflag _ _ _ (.step .log 4)).2 (by decide)
  · exact (htarget _ _ _ (.step .click 5)).1 (by decide)
  · exact (htarget _ _ _ (.step .clear 5)).2 (by decide)
  · exact (hcount _ _ _ (.repeat_ 6 (.of [.step 7 .refresh] (by decide))) (by decide)).1 (by decide)
  · let q : DataQuery := ⟨.data, "users", .load, ⟨"Users", none⟩, none, [], some 3, none⟩
    have hplace := @StepValuePlace.row q _ _ "age" [.sign .equals] _ (by decide) (fun _ => rfl)
      (.first []) (.sign rfl) (.of q)
    exact (hcount _ _ _ (.step hplace 8) (by decide)).1 (by decide)

end UiScenario.Grammar
