import UiScenario.Proofs.FaithfulGrammar

/-!
Blocks that are not closed. Of the blocks that run out at one token, from the innermost to that of
the declaration, the first one is reported; so there is one fault for each declaration that is left
open, at its innermost block.
-/

namespace UiScenario.Grammar

open UiScenario.Grammar.Parser

/-- Whether a fault is about a block that is not closed. -/
def isUnclosed (e : SyntaxError) : Bool :=
  match e.fault with
  | .unclosedBlock _ => true
  | _ => false

def Event.ranOut? : Event → Option OpenBlock
  | ranOut b .. => some b
  | _ => none

namespace Reading

/-- Whether the block of a declaration that was kept ended without its brace. -/
def leftOpen (r : Reading) : Bool :=
  r.found.isSome && r.events.getLast?.any Event.isRanOut

def innermost? (r : Reading) : Option OpenBlock :=
  r.events.findSome? Event.ranOut?

end Reading

theorem findSome?_ranOut? (events : List Event) :
    events.findSome? Event.ranOut? = (ranOuts events).findSome? Event.ranOut? := by
  induction events with
  | nil => rfl
  | cons x events ih =>
    cases x with
    | raised | closed => exact ih
    | ranOut => rfl

section
variable {events : List Event}

theorem not_isUnclosed {S : State} {e : SyntaxError} {i : Inside} (h : Answers S i e) :
    isUnclosed e = false := by
  unfold isUnclosed
  split
  · next what he => exact absurd he (h.block what)
  · rfl

/-- Of the blocks that run out, the first one is reported. -/
theorem filter_faults {S : State} (noted : Bool) (h : ∀ x ∈ events, x.Sound S) :
    (faults noted events).filter isUnclosed =
      if noted then [] else (events.findSome? Event.ranOut?).toList.map OpenBlock.fault := by
  induction events generalizing noted with
  | nil => cases noted <;> rfl
  | cons x events ih =>
    have ih := fun noted => ih noted fun x hx => h x (List.mem_cons_of_mem _ hx)
    cases x with
    | raised e i =>
      have he := not_isUnclosed (h _ List.mem_cons_self)
      rw [faults, List.filter_cons_of_neg (by simp [he]), ih]
      rfl
    | closed => exact ih noted
    | ranOut b around ahead =>
      rw [faults, List.filter_append, ih]
      cases noted <;> rfl

end

/-- A declaration is left open if and only if a block runs out; then all blocks that are open at one
    place do, and the innermost is the first. -/
theorem Reading.Sound.innermost {S : State} {r : Reading} (h : r.Sound S) :
    (r.leftOpen = false ∧ r.innermost? = none) ∨
    (r.leftOpen = true ∧ ∃ b around ahead, r.innermost? = some b ∧ endsBlock ahead = true ∧
      ranOuts r.events = allRanOut [] ahead (b :: around)) := by
  obtain ⟨found, events⟩ := r
  unfold Reading.leftOpen Reading.innermost?
  rw [findSome?_ranOut?]
  cases found with
  | none => exact .inl ⟨rfl, by rw [h.missing rfl]; rfl⟩
  | some d =>
    obtain ⟨own, ahead, -, hended⟩ := h.kept d rfl
    replace hended : Ended own [] ahead events := hended
    cases hended with
    | @closed events hnone =>
      refine .inl ⟨by simp [Event.isRanOut], ?_⟩
      rw [ranOuts_append, hnone]
      rfl
    | @ranOut events inner hend hinner =>
      have hall : ranOuts (events ++ [.ranOut own [] ahead]) =
          allRanOut [] ahead (inner ++ [own]) := by
        rw [ranOuts_append, hinner, allRanOut_concat]
        rfl
      obtain ⟨b, around, hb⟩ : ∃ b around, inner ++ [own] = b :: around :=
        List.exists_cons_of_ne_nil (by simp)
      rw [hb] at hall
      exact .inr ⟨by simp [Event.isRanOut], b, around, ahead, by rw [hall]; rfl, hend, hall⟩

/-- One fault for each declaration that is left open. -/
theorem filter_unclosed {S : State} {rs : List Reading} (h : ∀ r ∈ rs, r.Sound S) :
    (rs.flatMap fun r => faults false r.events).filter isUnclosed =
        ((rs.filter (·.leftOpen)).filterMap fun r => r.innermost?.map OpenBlock.fault) ∧
      ((rs.flatMap fun r => faults false r.events).filter isUnclosed).length =
        (rs.filter (·.leftOpen)).length := by
  induction rs with
  | nil => exact ⟨rfl, rfl⟩
  | cons r rs ih =>
    have hr := h r List.mem_cons_self
    obtain ⟨ihfaults, ihlength⟩ := ih fun r hr => h r (List.mem_cons_of_mem _ hr)
    have hfirst : (faults false r.events).filter isUnclosed =
      r.innermost?.toList.map OpenBlock.fault := filter_faults false hr.events
    rw [List.flatMap_cons, List.filter_append, hfirst, List.length_append, ihlength, ihfaults]
    rcases hr.innermost with ⟨hopen, hnone⟩ | ⟨hopen, b, around, ahead, hsome, -⟩
    · rw [hnone, List.filter_cons_of_neg (by simp [hopen])]
      exact ⟨rfl, Nat.zero_add _⟩
    · rw [hsome, List.filter_cons_of_pos hopen]
      refine ⟨?_, Nat.add_comm ..⟩
      rw [List.filterMap_cons, hsome]
      rfl

/-- A missing closing brace is reported once for a declaration, at the innermost block. -/
theorem unclosedBlocks_reported (tokens : List Token) :
    (parse tokens).program = programOf ((watch tokens).map (·.found)) ∧
    (∀ r ∈ watch tokens, ∀ d, r.found = some d → ∃ (own : OpenBlock) (ahead : List Token),
      own.what = d.blockName ∧ Ended own [] ahead r.events) ∧
    (∀ r ∈ watch tokens, r.leftOpen = true → ∃ b around ahead, r.innermost? = some b ∧
      endsBlock ahead = true ∧ ranOuts r.events = allRanOut [] ahead (b :: around)) ∧
    (parse tokens).errors.countP isUnclosed = (watch tokens).countP (·.leftOpen) ∧
    (parse tokens).errors.filter isUnclosed =
      ((watch tokens).filter (·.leftOpen)).filterMap fun r => r.innermost?.map OpenBlock.fault := by
  obtain ⟨hparse, hsound⟩ := parse_eq_watch tokens
  obtain ⟨hfaults, hlength⟩ := filter_unclosed hsound
  rw [hparse]
  refine ⟨rfl, fun r hr => (hsound r hr).kept, fun r hr hopen => ?_, ?_, hfaults⟩
  · rcases (hsound r hr).innermost with ⟨hclosed, -⟩ | ⟨-, hinner⟩
    · rw [hopen] at hclosed
      cases hclosed
    · exact hinner
  · rw [List.countP_eq_length_filter, List.countP_eq_length_filter, hlength]

end UiScenario.Grammar
