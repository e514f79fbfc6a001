import UiScenario.Proofs.NamePlaces

/-!
What is read otherwise than it is meant. `Gives p slots q behind` says that a parser fails on tokens
that fill the slots, or gives a value with a property; it has a rule for each way to build a parser,
like `Reads`. With it two kinds of names turn out not to be read as names:

* a qualifier that is spelled like a flag is read as the flag, and the dot behind it is left
  (`gives_valueFlag`);
* a word that is spelled like a keyword the grammar looks for is read as that keyword
  (`gives_lookedStep` for values, `gives_lookedPlace` for elements).
-/

namespace UiScenario.Grammar.Parser

/-- On tokens that fill the slots, in front of tokens of the kinds `behind`, a parser fails or gives
a value with a property. How far it reads is left open. -/
def Gives {α : Type} (p : Parser α) (slots : List Slot) (q : α → Prop) (behind : List TokenKind) :
    Prop :=
  ∀ (ts rest : List Token) (s : State), List.Forall₂ Token.Fills ts slots →
    rest.map Token.kind = behind → s.last.kind = .eof → s.ahead = ts ++ rest →
    Ends (fun _ => True) q (p s)

section
variable {α β : Type} {p : Parser α} {f : α → Parser β} {q : α → Prop} {r : β → Prop} {x : Slot}
  {xs ys : List Slot} {a : α} {behind : List TokenKind}

/-! ## Building parsers -/

theorem Yields.gives (h : Yields (fun _ => True) p q) : Gives p xs q behind :=
  fun _ _ s _ _ _ _ => h s trivial

theorem yields_any : Yields (fun _ => True) p fun _ => True := by
  intro s _
  cases p s <;> simp [Ends]

theorem gives_pure (h : q a) : Gives (pure a) xs q behind :=
  (yields_pure h).gives

theorem Gives.mono {q' : α → Prop} (h : Gives p xs q behind) (hq : ∀ a, q a → q' a) :
    Gives p xs q' behind :=
  fun ts rest s hts hrest hlast hs => (h ts rest s hts hrest hlast hs).mono hq

/-- Nothing is known of where the second parser starts. -/
theorem Gives.bind (h : Gives p xs q behind)
    (hf : ∀ a, q a → Yields (fun _ => True) (f a) r) : Gives (p >>= f) xs r behind :=
  fun ts rest s hts hrest hlast hs => ends_bind (h ts rest s hts hrest hlast hs) hf

theorem Gives.map {g : α → β} (h : Gives p xs q behind) (hg : ∀ a, q a → r (g a)) :
    Gives (p >>= fun a => pure (g a)) xs r behind :=
  h.bind fun a ha => yields_pure (hg a ha)

/-- What is read comes first. -/
theorem Reads.gives (h : Reads p xs a (kinds ys ++ behind)) (hf : Gives (f a) ys r behind) :
    Gives (p >>= f) (xs ++ ys) r behind := by
  intro ts rest s hts hrest hlast hs
  have hx := List.forall₂_take_append ts xs ys hts
  have hy := List.forall₂_drop_append ts xs ys hts
  have hp : p s = .ok a { s with ahead := ts.drop xs.length ++ rest } := by
    refine h _ _ s hx ?_ hlast ?_
    · rw [List.map_append, kinds_of_fills hy, hrest]
    · rw [← List.append_assoc, List.take_append_drop, hs]
  show Ends _ _ (EStateM.bind p f s)
  unfold EStateM.bind
  rw [hp]
  exact hf _ rest _ hy hrest hlast rfl

theorem Reads.gives_cons (h : Reads p [x] a (kinds xs ++ behind)) (hf : Gives (f a) xs r behind) :
    Gives (p >>= f) (x :: xs) r behind :=
  Reads.gives h hf

theorem Reads.gives_look (h : Reads p [] a (kinds xs ++ behind)) (hf : Gives (f a) xs r behind) :
    Gives (p >>= f) xs r behind :=
  Reads.gives h hf

theorem gives_ite {c : Prop} [Decidable c] {p' : Parser α} (h : c → Gives p xs q behind)
    (h' : ¬c → Gives p' xs q behind) : Gives (if c then p else p') xs q behind := by
  split
  · next hc => exact h hc
  · next hc => exact h' hc

/-! ## Single tokens -/

theorem gives_ahead {f : List Token → Parser β}
    (h : ∀ ts, ts.map Token.kind = kinds xs ++ behind → Gives (f ts) xs r behind) :
    Gives (ahead >>= f) xs r behind := by
  intro ts rest s hts hrest hlast hs
  show Ends _ _ (f s.ahead s)
  refine h s.ahead ?_ ts rest s hts hrest hlast hs
  rw [hs, List.map_append, kinds_of_fills hts, hrest]

theorem gives_next {f : Token → Parser β} (h : ∀ t, t.Fills x → Gives (f t) (x :: xs) r behind) :
    Gives (current >>= f) (x :: xs) r behind := by
  intro ts rest s hts hrest hlast hs
  obtain ⟨t, us, ht, -, rfl⟩ := List.forall₂_cons_right_iff.1 hts
  have hc : s.current = t := by rw [State.current, hs]; rfl
  show Ends _ _ (f s.current s)
  rw [hc]
  exact h t ht _ rest s hts hrest hlast hs

theorem gives_advance {f : Token → Parser β} (h : ∀ t, t.Fills x → Gives (f t) xs r behind) :
    Gives (advance >>= f) (x :: xs) r behind := by
  intro ts rest s hts hrest hlast hs
  obtain ⟨t, us, ht, hus, rfl⟩ := List.forall₂_cons_right_iff.1 hts
  have hc : s.current = t := by rw [State.current, hs]; rfl
  show Ends _ _ (f s.current { s with ahead := s.ahead.tail })
  rw [hc, hs]
  exact h t ht us rest { s with ahead := us ++ rest } hus hrest hlast rfl

section
variable {k : TokenKind} {p p' : Parser β}

theorem gives_eat_then (hx : x.kind = k) (h : Gives p xs r behind) :
    Gives (eat k >>= fun c => if c = true then p else p') (x :: xs) r behind :=
  (reads_eat hx).gives_cons (gives_ite (fun _ => h) fun hc => absurd rfl hc)

theorem gives_eat_else (hk : (kinds xs ++ behind).head? ≠ some k) (h : Gives p' xs r behind) :
    Gives (eat k >>= fun c => if c = true then p else p') xs r behind :=
  (reads_eat_none hk).gives_look (gives_ite (fun hc => absurd hc Bool.false_ne_true) fun _ => h)

end

theorem gives_expect {k : TokenKind} {expected : String} {f : Token → Parser β}
    (h : x.kind = k → ∀ t, Gives (f t) xs r behind) :
    Gives (expect k expected >>= f) (x :: xs) r behind := by
  intro ts rest s hts hrest hlast hs
  obtain ⟨t, us, ht, hus, rfl⟩ := List.forall₂_cons_right_iff.1 hts
  have hstart : startsWith k s.ahead = (t.kind == k) := by rw [hs]; rfl
  show Ends _ _ (EStateM.bind (if startsWith k s.ahead = true then advance else fail expected) f s)
  rw [hstart]
  by_cases hk : t.kind = k
  · rw [if_pos (beq_iff_eq.2 hk)]
    show Ends _ _ (f s.current { s with ahead := s.ahead.tail })
    rw [hs]
    exact h (ht.1.symm.trans hk) _ us rest { s with ahead := us ++ rest } hus hrest hlast rfl
  · rw [if_neg (mt beq_iff_eq.1 hk)]
    exact trivial

theorem gives_expect_ne {k : TokenKind} {expected : String} {f : Token → Parser β}
    (h : x.kind ≠ k) : Gives (expect k expected >>= f) (x :: xs) r behind :=
  gives_expect fun hx => absurd hx h

/-! ## Repetition -/

section
variable {ι : Type} {slots : ι → List Slot} {p : Parser (Option α)} {q : Option α → Prop}

/-- Rounds of a parser read items one behind the other. What the next round gives, if it gives an
item, stands behind their values. -/
theorem gives_rounds (value : ι → α) (Good : List TokenKind → Prop)
    (hend : Good (kinds ys ++ behind)) (hq : Gives p ys q behind) (is : List ι)
    (hgood : ∀ i ∈ is, ∀ ks, Good ks → Good (kinds (slots i) ++ ks))
    (hstep : ∀ i ∈ is, ∀ ks, Good ks → Reads p (slots i) (some (value i)) ks) (n : Nat)
    (hn : is.length < n) :
    Gives (rounds p n) (is.flatMap slots ++ ys)
      (fun as => ∃ o tail, q o ∧ as = is.map value ++ (o.toList ++ tail)) behind := by
  induction is generalizing n with
  | nil =>
    obtain ⟨m, rfl⟩ : ∃ m, n = m + 1 := ⟨n - 1, by simp at hn; omega⟩
    refine hq.bind fun o ho => ?_
    cases o with
    | none => exact yields_pure ⟨none, [], ho, rfl⟩
    | some a =>
      exact yields_any.bind fun tail _ => yields_pure ⟨some a, tail, ho, rfl⟩
  | cons i is ih =>
    obtain ⟨m, rfl⟩ : ∃ m, n = m + 1 := ⟨n - 1, by simp at hn; omega⟩
    have hgood' : ∀ i' ∈ is, ∀ ks, Good ks → Good (kinds (slots i') ++ ks) :=
      fun i' hi' => hgood i' (by simp [hi'])
    have hstep' : ∀ i' ∈ is, ∀ ks, Good ks → Reads p (slots i') (some (value i')) ks :=
      fun i' hi' => hstep i' (by simp [hi'])
    rw [List.flatMap_cons, List.append_assoc]
    refine (hstep i (by simp) _ (good_flatMap hend is hgood')).gives ?_
    refine (ih hgood' hstep' m (by simpa using hn)).map ?_
    rintro as ⟨o, tail, ho, rfl⟩
    exact ⟨o, tail, ho, rfl⟩

theorem gives_many (value : ι → α) (Good : List TokenKind → Prop) (hend : Good (kinds ys ++ behind))
    (hq : Gives p ys q behind) (is : List ι) (hne : ∀ i ∈ is, slots i ≠ [])
    (hgood : ∀ i ∈ is, ∀ ks, Good ks → Good (kinds (slots i) ++ ks))
    (hstep : ∀ i ∈ is, ∀ ks, Good ks → Reads p (slots i) (some (value i)) ks) :
    Gives (many p) (is.flatMap slots ++ ys)
      (fun as => ∃ o tail, q o ∧ as = is.map value ++ (o.toList ++ tail)) behind := by
  refine gives_ahead fun ts hts => ?_
  refine gives_rounds value Good hend hq is hgood hstep _ ?_
  have hl := congrArg List.length hts
  have := length_le_flatMap is hne
  simp only [kinds, List.length_map, List.length_append] at hl
  omega

end

end

end UiScenario.Grammar.Parser

namespace UiScenario.Grammar

open UiScenario.Grammar.Parser

variable {behind : List TokenKind} {looked : List TokenKind} {word : Keyword} {line : Nat}
  {xs ys : List Slot}

abbrev qualified (qualifier name : String) : Expression :=
  .ofPrimary (.ref (some qualifier) name)

theorem slots_qualified (qualifier name : String) :
    (qualified qualifier name).slots = [.name qualifier, .sign .dot, .name name] := rfl

/-! ## Flags as qualifiers -/

section
variable {β : Type} {word name : String} {r : β → Prop}

/-- In front of a dot, too, a word that spells a flag is read as the flag alone. -/
theorem reads_flag (h : TokenKind.ofWord word ∈ flagKinds) :
    ∃ b, ∀ ks, Reads expression [.name word] (.ofPrimary (.flag b)) (.dot :: ks) := by
  have hprimary : ∃ b, ∀ ks, Reads primary [.name word] (.flag b) ks := by
    simp only [flagKinds, List.mem_cons, List.not_mem_nil, or_false] at h
    rcases h with h | h
    · refine ⟨true, fun ks => reads_current fun t ht => ?_⟩
      rw [ht.trans h]
      exact reads_advance fun _ _ => reads_pure
    · refine ⟨false, fun ks => reads_current fun t ht => ?_⟩
      rw [ht.trans h]
      exact reads_advance fun _ _ => reads_pure
  obtain ⟨b, hb⟩ := hprimary
  refine ⟨b, fun ks => (hb _).last (Reads.look ?_ reads_pure)⟩
  exact reads_many_none (reads_after_none (by simp))

/-- Where a value is read, a qualifier that spells a flag leaves a dot behind. -/
theorem gives_flag {f : Expression → Parser β} (hf : TokenKind.ofWord word ∈ flagKinds)
    (h : ∀ b, Gives (f (.ofPrimary (.flag b))) (.sign .dot :: .name name :: ys) r behind) :
    Gives (expression >>= f) ((qualified word name).slots ++ ys) r behind := by
  obtain ⟨b, hb⟩ := reads_flag hf
  exact (hb _).gives_cons (h b)

/-- Where a value ends what is read, the dot and the name are left. -/
theorem gives_ending {p : Parser β} {slots : List Slot} {a : β}
    (h : Reads p xs a (.dot :: .ofWord name :: behind))
    (hs : slots = xs ++ [.sign .dot, .name name]) (ha : r a) : Gives p slots r behind := by
  rw [hs, ← bind_pure p]
  exact Reads.gives h (gives_pure ha)

theorem not_mem_of_flag {k : TokenKind} (h : k ∈ flagKinds) :
    k ∉ [.keyword .for_, .keyword .text] := by
  simp only [flagKinds, List.mem_cons, List.not_mem_nil, or_false] at h
  rcases h with rfl | rfl <;> decide

end

theorem gives_checkFlag {write : Expression → List Slot} {make : Target → Expression → Assertion}
    {word name : String} (h : CheckPlace write make looked) (hf : TokenKind.ofWord word ∈ flagKinds)
    (t : Target) :
    Gives (assertionOf t) (write (qualified word name)) (· ≠ make t (qualified word name))
      behind := by
  obtain ⟨b, hflag⟩ := reads_flag hf
  have hvalue := hflag (.ofWord name :: behind)
  cases h with
  | containsText negated =>
    exact gives_ending (reads_containsText hvalue negated) (by cases negated <;> rfl) (by rintro ⟨⟩)
  | contains negated =>
    have htext : TokenKind.ofWord word ≠ .keyword .text := fun h =>
      not_mem_of_flag hf (by simp [h])
    exact gives_ending (reads_contains hvalue (fun h => htext (Option.some.inj h)) negated)
      (by cases negated <;> rfl) (by rintro ⟨⟩)
  | hasText negated =>
    exact gives_ending (reads_hasText hvalue negated) (by cases negated <;> rfl) (by rintro ⟨⟩)
  | hasValue negated =>
    exact gives_ending (reads_hasValue hvalue negated) (by cases negated <;> rfl) (by rintro ⟨⟩)
  | attributeName he =>
    refine gives_eat_else (by simp [Slot.kind]) ?_
    refine (reads_eat_none (by simp [Slot.kind])).gives_look ?_
    refine gives_eat_else (by simp [Slot.kind]) ?_
    refine gives_expect fun _ _ => gives_eat_else (by simp [Slot.kind]) ?_
    refine gives_eat_else (by simp [Slot.kind]) (gives_ite (fun h => by cases h) fun _ => ?_)
    exact gives_eat_then rfl (gives_flag hf fun b => gives_expect_ne (by decide))
  | attributeValue hn =>
    exact gives_ending (reads_hasAttribute hvalue hn) (by simp [slots_qualified]) (by rintro ⟨⟩)
  | hasCount => exact gives_ending (reads_hasCount hvalue) rfl (by rintro ⟨⟩)

theorem gives_verifyElement {a : Assertion} {x : Slot} {t : Target} (ht : t.Writable)
    (hk : kinds t.slots ∉ [[.keyword .url], [.keyword .title]])
    (hdot : Avoids [.dot] (kinds xs ++ behind)) (ha : Gives (assertionOf t) xs (· ≠ a) behind) :
    Gives verifyStep (x :: (t.slots ++ xs)) (· ≠ .verify a) behind := by
  simp only [List.mem_cons, List.not_mem_nil, or_false, not_or] at hk
  obtain ⟨hurl, htitle⟩ := hk
  refine gives_advance fun _ _ => gives_ahead fun ts hts => ?_
  rw [kinds_append, List.append_assoc] at hts
  refine gives_ite (fun h => absurd h (not_atUnqualified ht hurl hts)) fun _ => ?_
  refine gives_ahead fun us hus => ?_
  rw [kinds_append, List.append_assoc] at hus
  refine gives_ite (fun h => absurd h (not_atUnqualified ht htitle hus)) fun _ => ?_
  refine (reads_target t ht hdot).gives (ha.map ?_)
  rintro _ h ⟨⟩
  exact h rfl

/-! ## Statements -/

theorem gives_statement {r : Statement → Prop} (h : Gives (statementRule block) xs r behind) :
    Gives statement xs r behind := by
  intro ts rest s hts hrest hlast hs
  have hrule := h ts rest
    { s with opened := some ⟨Text.upper s.current.value, s.current.line⟩ } hts hrest hlast hs
  show Ends _ _ (EStateM.bind (statementRule block) _ _)
  exact ends_bind hrule fun _ hst => yields_any.bind fun _ _ => yields_pure hst

theorem gives_stepStatement {s : Step} (hword : word ∉ [.if_, .repeat_, .for_])
    (h : ∀ ts : List Token, ts.map Token.kind = .keyword word :: (kinds xs ++ behind) →
      ∃ rule, stepRule? word ts = some rule ∧
        Gives rule (.opening word line :: xs) (· ≠ s) behind) :
    Gives statement (.opening word line :: xs) (· ≠ .step line s) behind := by
  refine gives_statement (gives_next fun t ht => ?_)
  rw [show t.kind = .keyword word from ht.1]
  split
  · next heq => rw [TokenKind.keyword.inj heq] at hword; exact absurd hword (by decide)
  · next heq => rw [TokenKind.keyword.inj heq] at hword; exact absurd hword (by decide)
  · next heq => rw [TokenKind.keyword.inj heq] at hword; exact absurd hword (by decide)
  · next heq =>
    rw [← TokenKind.keyword.inj heq]
    refine gives_ahead fun ts hts => ?_
    obtain ⟨rule, hrule, hgives⟩ := h ts hts
    rw [hrule]
    exact hgives.map fun a ha hs => ha (Statement.step.inj hs).2
  · next heq => exact absurd rfl (heq word)

theorem gives_stepWord {rule : Parser Step} {s : Step}
    (h : Gives rule (.opening word line :: xs) (· ≠ s) behind)
    (hword : word ∉ [.if_, .repeat_, .for_] := by decide)
    (hr : ∀ ts, stepRule? word ts = some rule := by exact fun _ => rfl) :
    Gives statement (.opening word line :: xs) (· ≠ .step line s) behind :=
  gives_stepStatement hword fun ts _ => ⟨rule, hr ts, h⟩

theorem gives_queryStep {s : Step} (h : ∀ q, Step.query q ≠ s) :
    Gives queryStep xs (· ≠ s) behind :=
  Yields.gives (yields_any.bind fun q _ => yields_pure (h q))

/-- The conditions of a query, if one of them is not read as it is meant. -/
theorem gives_clausePlace {write : List Slot → List Slot} {make : DataCondition → WhereClause}
    {c : DataCondition} (h : ClausePlace write make)
    (hc : ∀ ys, Gives dataCondition (xs ++ ys) (· ≠ c) behind) :
    Gives whereClause (write xs ++ ys) (· ≠ make c) behind := by
  cases h with
  | first rest =>
    rw [List.append_assoc]
    refine (hc _).bind fun c' hne => yields_any.bind fun _ _ => yields_pure ?_
    rintro ⟨⟩
    exact hne rfl
  | later first before join after =>
    have hjoin : ∀ w ∈ before, Keeps [.plus, .dot] (.keyword w.1.keyword :: w.2.slots) := by
      intro w _
      exact keeps_cons (by cases w.1 <;> simp [LogicalOp.keyword, Slot.kind])
    have hend : ∀ zs, Avoids [.plus, .dot] (kinds (.keyword join.keyword :: zs) ++ behind) :=
      fun zs => avoids_cons (by cases join <;> simp [LogicalOp.keyword, Slot.kind])
    simp only [List.append_assoc, List.cons_append, joinedSlots]
    refine (first.reads _ (good_flatMap (hend _) before hjoin)).gives ?_
    refine (gives_many (fun w => (w.1, w.2.value)) (Avoids [.plus, .dot]) (hend _)
      (q := fun o => ∃ c', c' ≠ c ∧ o = some (join, c')) ?_ before
      (fun _ _ => List.cons_ne_nil _ _) hjoin ?_).map ?_
    · refine gives_next fun t ht => ?_
      rw [show logicalOp? t.kind = some join by rw [ht.1]; cases join <;> rfl]
      exact gives_advance fun _ _ => (hc _).map fun c' hne => ⟨c', hne, rfl⟩
    · intro w _ ks hks
      refine reads_current fun t ht => ?_
      rw [show logicalOp? t.kind = some w.1 by rw [ht]; cases w.1 <;> rfl]
      exact reads_advance fun _ _ => (w.2.reads ks hks).last reads_pure
    · rintro _ ⟨_, tail, ⟨c', hne, rfl⟩, rfl⟩ h
      have hrest := congrArg WhereClause.rest h
      exact hne (Prod.mk.inj (List.cons.inj (List.append_cancel_left hrest)).1).2

/-! ## Steps with a flag as qualifier -/

section
variable {x : Slot} {t : Target} {qualifier name : String}
  (hf : TokenKind.ofWord qualifier ∈ flagKinds) {before after : List Expression} {r : Step → Prop}
  {op : ComparisonOp} {column : String}
include hf

theorem gives_selectStep :
    Gives selectStep (x :: ((qualified qualifier name).slots ++ ys)) r behind :=
  gives_advance fun _ _ => gives_flag hf fun _ => gives_expect_ne (by decide)

theorem gives_uploadStep :
    Gives uploadStep (x :: ((qualified qualifier name).slots ++ ys)) r behind :=
  gives_advance fun _ _ => gives_flag hf fun _ => gives_expect_ne (by decide)

theorem gives_waitStep (ys : List Slot) (unit : WaitUnit) :
    Gives waitStep (x :: ((qualified qualifier name).slots ++ ys))
      (· ≠ .wait (qualified qualifier name) unit) behind := by
  refine gives_advance fun _ _ => gives_eat_else (fun h => ?_) (gives_flag hf fun b => ?_)
  · have hfor : TokenKind.ofWord qualifier = .keyword .for_ := Option.some.inj h
    exact not_mem_of_flag hf (by simp [hfor])
  · exact Yields.gives (yields_any.bind fun _ _ => yields_pure (by rintro ⟨⟩))

/-- Values with commas between them are read up to the flag. -/
theorem gives_arguments (hbefore : ∀ e ∈ before, e.Writable) :
    Gives (commaSeparated expression)
      (listed Expression.slots (before ++ qualified qualifier name :: after))
      (· ≠ before ++ qualified qualifier name :: after) behind := by
  cases before with
  | nil =>
    refine gives_flag hf fun b => Yields.gives ?_
    exact yields_any.bind fun _ _ => yields_pure (by rintro ⟨⟩)
  | cons first before =>
    have hitem : ∀ {ys ks}, Gives (after? .comma expression)
        (.sign .comma :: ((qualified qualifier name).slots ++ ys))
        (fun o => ∃ b, o = some (.ofPrimary (.flag b))) ks :=
      gives_eat_then rfl (gives_flag hf fun b => gives_pure ⟨b, rfl⟩)
    have hgood : ∀ e ∈ before, ∀ ks, Avoids [.plus, .dot] ks →
        Avoids [.plus, .dot] (kinds (.sign .comma :: e.slots) ++ ks) := fun _ _ _ _ => avoids_cons
    have hread : ∀ e ∈ before, ∀ ks, Avoids [.plus, .dot] ks →
        Reads (after? .comma expression) (.sign .comma :: e.slots) (some e) ks :=
      fun e he ks hks => reads_after rfl (reads_expression e (hbefore e (by simp [he])) hks)
    show Gives _ (first.slots ++ (before ++ _ :: after).flatMap _) _ _
    rw [List.flatMap_append, List.flatMap_cons, List.cons_append]
    refine (reads_expression first (hbefore first (by simp)) ?_).gives ?_
    · exact good_flatMap avoids_cons before hgood
    · refine (gives_many id (Avoids [.plus, .dot]) avoids_cons hitem before
        (fun _ _ => List.cons_ne_nil _ _) hgood hread).map ?_
      rintro _ ⟨_, tail, ⟨b, rfl⟩, rfl⟩ h
      rw [List.map_id] at h
      cases (List.cons.inj (List.append_cancel_left (List.cons.inj h).2)).1

theorem gives_performStep {page action : String} (hbefore : ∀ e ∈ before, e.Writable) :
    Gives performStep
      (x :: .name page :: .sign .dot :: .name action :: .keyword .with_ ::
        listed Expression.slots (before ++ qualified qualifier name :: after))
      (· ≠ .perform page action (before ++ qualified qualifier name :: after)) behind := by
  refine gives_advance fun _ _ => gives_ahead fun ts hts => ?_
  rw [atQualifiedName_of hts]
  refine reads_qualifiedName.gives (gives_eat_then rfl ((gives_arguments hf hbefore).map ?_))
  rintro _ h ⟨⟩
  exact h rfl

theorem gives_compared (h : Compares xs op) :
    Gives dataCondition (.name column :: (xs ++ ((qualified qualifier name).slots ++ ys)))
      (fun c => ∃ b, c = ⟨column, op, some (.ofPrimary (.flag b))⟩) behind := by
  refine reads_name.gives_cons ?_
  cases h with
  | @sign x op h =>
    have hk : x.kind ≠ .keyword .starts ∧ x.kind ≠ .keyword .ends ∧ x.kind ≠ .keyword .is := by
      refine ⟨?_, ?_, ?_⟩ <;> (intro hk; rw [hk] at h; cases h)
    refine gives_next fun t ht => ?_
    rw [show t.kind = x.kind from ht.1]
    refine gives_ite (fun hc => absurd hc (by simp [hk])) fun _ => ?_
    refine gives_eat_else (fun h => hk.2.2 (Option.some.inj h)) ?_
    rw [h]
    exact gives_advance fun _ _ => gives_flag hf fun b => gives_pure ⟨b, rfl⟩
  | starts | ends =>
    refine gives_next fun t ht => ?_
    rw [show t.kind = _ from ht.1]
    refine gives_ite (fun _ => ?_) fun h => absurd rfl h
    refine gives_advance fun _ _ => gives_expect fun _ _ => ?_
    exact gives_flag hf fun b => gives_pure ⟨b, rfl⟩

theorem gives_rowFlag {q : DataQuery} {write : List Slot → List Slot}
    {make : DataCondition → WhereClause} (hv : (TokenKind.ofWord q.variable_).isBareName = true)
    (hq : q.mode = .load → q.resultType = .data) (h : ClausePlace write make) (hop : Compares xs op)
    (rest : WrittenEnd) :
    Gives queryStep
      (.opening q.keyword line :: .name q.variable_ :: (q.mode.slots ++ (q.source.slots ++
        (.keyword .where_ :: (write (.name column :: (xs ++ (qualified qualifier name).slots)) ++
          rest.slots)))))
      (· ≠ .query (rest.complete q (make ⟨column, op, some (qualified qualifier name)⟩)))
      behind := by
  have hclause : Gives whereClause
      (write (.name column :: (xs ++ (qualified qualifier name).slots)) ++ rest.slots)
      (· ≠ make ⟨column, op, some (qualified qualifier name)⟩) behind := by
    refine gives_clausePlace h fun ys => ?_
    rw [List.cons_append, List.append_assoc]
    refine (gives_compared hf hop).mono ?_
    rintro _ ⟨b, rfl⟩ ⟨⟩
  have hquery : Gives query
      ((.opening q.keyword line :: .name q.variable_ :: (q.mode.slots ++ q.source.slots)) ++
        .keyword .where_ :: (write (.name column :: (xs ++ (qualified qualifier name).slots)) ++
          rest.slots))
      (· ≠ rest.complete q (make ⟨column, op, some (qualified qualifier name)⟩)) behind := by
    rw [query_eq]
    have hwhere : Gives (after? (.keyword .where_) whereClause)
        (.keyword .where_ :: (write (.name column :: (xs ++ (qualified qualifier name).slots)) ++
          rest.slots))
        (· ≠ some (make ⟨column, op, some (qualified qualifier name)⟩)) behind :=
      gives_eat_then rfl (hclause.map fun w hne hw => hne (Option.some.inj hw))
    refine (reads_querySource hv hq avoids_cons).gives (hwhere.bind fun w hne => ?_)
    refine yields_any.bind fun _ _ => yields_pure fun hw => hne ?_
    exact congrArg DataQuery.where_ hw
  simp only [List.cons_append, List.append_assoc] at hquery
  refine hquery.map ?_
  rintro _ hne ⟨⟩
  exact hne rfl

/-- A qualifier that spells a flag is no qualifier in a step: the flag is the value, or what has to
    follow the value is missing. -/
theorem gives_stepFlag {write : Expression → List Slot} {make : Expression → Step}
    (h : StepValuePlace word write make looked) (hb : Stops behind) :
    Gives statement (.opening word line :: write (qualified qualifier name))
      (· ≠ .step line (make (qualified qualifier name))) behind := by
  obtain ⟨b, hflag⟩ := reads_flag hf
  have hvalue := hflag (.ofWord name :: behind)
  -- a step that ends with the value is read, with the flag as its value
  cases h with
  | open_ => exact gives_stepWord (gives_ending (reads_openStep hvalue) rfl (by rintro ⟨⟩))
  | navigate => exact gives_stepWord (gives_ending (reads_navigate hvalue) rfl (by rintro ⟨⟩))
  | fill ht =>
    refine gives_stepWord (gives_ending (reads_fillStep (x := .opening .fill line) ht hvalue) ?_
      (by rintro ⟨⟩))
    simp [slots_qualified]
  | select ht => exact gives_stepWord (gives_selectStep hf)
  | press =>
    exact gives_stepWord (gives_ending (reads_withValue .press hvalue) rfl (by rintro ⟨⟩))
  | upload ht => exact gives_stepWord (gives_uploadStep hf)
  | wait unit => exact gives_stepWord (gives_waitStep hf _ unit)
  | waitSeconds =>
    refine gives_stepWord ?_
    rw [← List.append_nil (Expression.slots _)]
    exact gives_waitStep hf [] .seconds
  | screenshot =>
    exact gives_stepWord (gives_ending (reads_screenshotStep (reads_after rfl hvalue)) rfl
      (by rintro ⟨⟩))
  | log => exact gives_stepWord (gives_ending (reads_withValue .log hvalue) rfl (by rintro ⟨⟩))
  | newTab =>
    refine gives_stepWord (gives_ending (reads_switchToNewTabAt hvalue fun ts hts => ?_) rfl
      (by rintro ⟨⟩))
    obtain ⟨t, us, rfl, ht, -⟩ := List.map_eq_cons_iff.1 hts
    refine atExpression_iff.2 (.inl ?_)
    rw [ht]
    exact List.mem_cons_of_mem _ (List.mem_cons_of_mem _ (List.mem_cons_of_mem _ hf))
  | tab => exact gives_stepWord (gives_ending (reads_switchToTab hvalue) rfl (by rintro ⟨⟩))
  | dialog =>
    exact gives_stepWord (gives_ending (reads_acceptDialog (reads_after rfl hvalue)) rfl
      (by rintro ⟨⟩))
  | url m => exact gives_stepWord (gives_ending (reads_verifyUrl m hvalue) rfl (by rintro ⟨⟩))
  | title contains =>
    exact gives_stepWord (gives_ending (reads_verifyTitle contains hvalue) rfl (by rintro ⟨⟩))
  | verify ht hk h =>
    refine gives_stepWord (gives_verifyElement ht hk ?_ ?_)
    · exact keeps_checkPlace h behind hb.element
    · exact gives_checkFlag h hf _
  | @declare kind variable_ hn =>
    have hdeclare : Gives declareStep
        (.opening kind.keyword line :: .name variable_ :: .sign .equals ::
          (qualified qualifier name).slots)
        (· ≠ .declare kind variable_ (qualified qualifier name)) behind :=
      gives_ending (reads_declareStep kind hn hvalue) rfl (by rintro ⟨⟩)
    cases kind with
    | flag => exact gives_stepWord hdeclare
    | text | number | list =>
      refine gives_stepStatement (by decide) fun ts hts => ⟨_, rfl, gives_ite (fun _ => ?_) ?_⟩
      · exact gives_queryStep (by rintro _ ⟨⟩)
      · exact fun _ => hdeclare
  | argument page action hbefore hafter =>
    exact gives_stepWord (gives_performStep hf hbefore)
  | @row q write make column xs op hv hq h hop rest =>
    refine gives_stepStatement (keyword_step (.query q)).2 fun ts hts => ?_
    exact ⟨_, stepRule?_query hts, gives_rowFlag hf hv hq h hop rest⟩

end

/-! ## Keywords that the grammar looks for -/

theorem gives_dot : Gives expression (.sign .dot :: xs) (fun _ => False) behind := by
  have hdot : ∀ ts : List Token, ts.map Token.kind = .dot :: (kinds xs ++ behind) →
      atQualifiedName ts = false ∧ atBareName ts = false := by
    intro ts hts
    obtain ⟨t, us, rfl, ht, -⟩ := List.map_eq_cons_iff.1 hts
    refine ⟨?_, by simp [atBareName, ht, TokenKind.isBareName]⟩
    unfold atQualifiedName
    split
    · next heq =>
      cases heq
      simp [Token.isWord, ht, TokenKind.isWord]
    · rfl
  have hprimary : Gives primary (.sign .dot :: xs) (fun _ => False) behind := by
    refine gives_next fun t ht => ?_
    rw [show t.kind = .dot from ht.1]
    refine gives_ahead fun ts hts => gives_ite (fun h => ?_) fun _ => gives_ahead fun us hus => ?_
    · rw [(hdot ts hts).1] at h
      cases h
    · refine gives_ite (fun h => ?_) fun _ => yields_fail.gives
      rw [(hdot us hus).2] at h
      cases h
  exact hprimary.bind fun _ h => h.elim

section
variable {qualifier : Option String} {name : String} {write : Expression → List Slot}

/-- The keyword that is looked for in a check is read as such, and no value follows. -/
theorem gives_lookedCheck {make : Target → Expression → Assertion}
    (h : CheckPlace write make looked) (hn : (Primary.ref qualifier name).Writable)
    (hl : TokenKind.ofWord (qualifier.getD name) ∈ looked) (t : Target) :
    Gives (assertionOf t) (write (.ofPrimary (.ref qualifier name)))
      (· ≠ make t (.ofPrimary (.ref qualifier name))) behind := by
  cases h with
  | contains negated =>
    cases qualifier with
    | none =>
      have hbare : (TokenKind.ofWord name).isBareName = true := hn
      have htext : TokenKind.ofWord name = .keyword .text := List.mem_singleton.1 hl
      rw [htext] at hbare
      cases hbare
    | some qualifier =>
      refine gives_eat_else (by cases negated <;> simp [keywordIf, Slot.kind]) ?_
      refine (reads_keywordIf negated avoids_cons).gives (gives_eat_then rfl ?_)
      have htext : ∀ ks, Reads (eat (.keyword .text)) [.name qualifier] true ks :=
        fun ks => reads_eat (List.mem_singleton.1 hl)
      exact (htext _).gives_cons (gives_dot.bind fun _ h => h.elim)
  | containsText | hasText | hasValue | attributeName | attributeValue | hasCount => cases hl

/-- What is looked for in a step is read as such: the step is a wait for an element, a check, or a
    query. -/
theorem gives_lookedStep {make : Expression → Step} (h : StepValuePlace word write make looked)
    (hn : (Primary.ref qualifier name).Writable)
    (hl : TokenKind.ofWord (qualifier.getD name) ∈ looked) (hb : Stops behind) :
    Gives statement (.opening word line :: write (.ofPrimary (.ref qualifier name)))
      (· ≠ .step line (make (.ofPrimary (.ref qualifier name)))) behind := by
  obtain ⟨x, xs, hx, hkind⟩ :
      ∃ x xs, (Expression.ofPrimary (.ref qualifier name)).slots = x :: xs ∧
        x.kind = TokenKind.ofWord (qualifier.getD name) := by
    cases qualifier <;> exact ⟨_, _, rfl, rfl⟩
  have hwait : ∀ {ys : List Slot} {s : Step}, (∀ t, Step.waitFor t ≠ s) → x.kind = .keyword .for_ →
      Gives waitStep (.opening .wait line :: x :: ys) (· ≠ s) behind := by
    intro ys s hs hfor
    refine gives_advance fun _ _ => gives_eat_then hfor (Yields.gives ?_)
    exact yields_any.bind fun t _ => yields_pure (hs t)
  cases h with
  | wait unit =>
    refine gives_stepStatement (by decide) fun ts hts => ⟨_, rfl, ?_⟩
    dsimp only
    rw [hx]
    exact hwait (by rintro _ ⟨⟩) (hkind.trans (List.mem_singleton.1 hl))
  | waitSeconds =>
    refine gives_stepStatement (by decide) fun ts hts => ⟨_, rfl, ?_⟩
    rw [hx]
    exact hwait (by rintro _ ⟨⟩) (hkind.trans (List.mem_singleton.1 hl))
  | verify ht hk h =>
    refine gives_stepStatement (by decide) fun ts hts => ⟨_, rfl, gives_verifyElement ht hk ?_ ?_⟩
    · exact keeps_checkPlace h behind hb.element
    · exact gives_lookedCheck h hn hl _
  | @declare kind variable_ hv =>
    have hmode : kind ≠ .flag ∧ TokenKind.ofWord (qualifier.getD name) ∈ modeKinds := by
      split at hl
      · cases hl
      · next hne => exact ⟨hne, hl⟩
    have hquery : ∀ ts : List Token, ts.map Token.kind = .keyword kind.keyword ::
        (kinds (.name variable_ :: .sign .equals ::
          (Expression.ofPrimary (.ref qualifier name)).slots) ++ behind) →
        atQueryBinding ts = true := by
      intro ts hts
      rw [atQueryBinding_eq hts, hx]
      show (queryMode? x.kind).isSome = true
      rw [hkind]
      exact mem_modeKinds.1 hmode.2
    cases kind with
    | flag => exact absurd rfl hmode.1
    | text | number | list =>
      refine gives_stepStatement (by decide) fun ts hts => ⟨_, rfl, gives_ite (fun _ => ?_) ?_⟩
      · exact gives_queryStep (by rintro _ ⟨⟩)
      · exact fun h => absurd (hquery ts hts) h
  | open_ | navigate | fill | select | press | upload | screenshot | log | newTab | tab | dialog
  | url | title | argument | row => cases hl

end

/-- `CLEAR` reads what it looks for, and no element. -/
theorem gives_lookedTarget {write : Target → List Slot} {make : Target → Step} {page field : String}
    (h : StepTargetPlace word write make looked) (hl : TokenKind.ofWord page ∈ looked) :
    Gives statement (.opening word line :: write (.element (some page) field))
      (· ≠ .step line (make (.element (some page) field))) behind := by
  cases h with
  | clear =>
    refine gives_stepStatement (by decide) fun ts hts => ⟨_, rfl, gives_advance fun _ _ => ?_⟩
    simp only [List.mem_cons, List.not_mem_nil, or_false] at hl
    rcases hl with hl | hl
    · exact gives_eat_then hl (gives_pure (by rintro ⟨⟩))
    · have hpage : Avoids [.keyword .cookies] (.ofWord page :: .dot :: .ofWord field :: behind) :=
        avoids_cons (by rw [hl]; decide)
      exact gives_eat_else (hpage.ne (by simp)) (gives_eat_then hl (gives_pure (by rintro ⟨⟩)))
  | click | hover | check | uncheck | fill | select | scrollTo | dragFrom | dragTo | upload
  | waitFor | frame | verifyState | verify => cases hl

/-! ## Branches and loops -/

theorem gives_arm {c : Condition} (hc : ∀ ks, Reads condition xs c (.dot :: ks)) :
    Gives (arm block) (.opening .if_ line :: (xs ++ .sign .dot :: ys)) (fun _ => False) behind := by
  have hblock : ∀ what, Gives (block what) (.sign .dot :: ys) (fun _ => False) behind := by
    intro what
    refine gives_ahead fun ts _ => Gives.bind (q := fun _ => False) ?_ fun _ h => h.elim
    exact gives_expect_ne (by decide)
  exact gives_advance fun _ _ => (hc _).gives ((hblock "IF").bind fun _ h => h.elim)

theorem gives_branchPlace {write : List Slot → List Slot} {make : Condition → Statement}
    {c : Condition} {r : Statement → Prop} (h : BranchPlace write make)
    (hc : ∀ ks, Reads condition xs c (.dot :: ks)) :
    Gives statement (write (xs ++ .sign .dot :: ys)) r behind := by
  have hif : ∀ {zs : List Slot} {line : Nat},
      Gives (branchStatement block) (.opening .if_ line :: zs) r behind →
      Gives statement (.opening .if_ line :: zs) r behind := by
    intro zs line hs
    refine gives_statement (gives_next fun t ht => ?_)
    rw [show t.kind = .keyword .if_ from ht.1]
    exact hs
  cases h with
  | first line body further otherwise =>
    simp only [List.append_assoc, List.cons_append]
    exact hif ((gives_arm hc).bind fun _ h => h.elim)
  | later first before line body after otherwise =>
    simp only [List.append_assoc, List.cons_append, furtherSlots]
    refine hif ((first.reads_arm _).gives ?_)
    refine (gives_many (q := fun _ => False) WrittenArm.arm (fun _ => True) trivial
      (gives_ahead fun ts hts => gives_ite (fun _ => ?_) fun h => absurd ?_ h) before
      (fun _ _ => List.cons_ne_nil _ _) (fun _ _ _ _ => trivial) fun w _ ks _ => ?_).bind ?_
    · exact gives_advance fun _ _ => (gives_arm hc).bind fun _ h => h.elim
    · exact (atElseIf_iff hts).2 ⟨rfl, rfl⟩
    · refine reads_ahead fun ts hts => reads_pos ((atElseIf_iff hts).2 ⟨rfl, rfl⟩) ?_
      exact reads_advance fun _ _ => (w.reads_arm ks).last reads_pure
    · rintro _ ⟨_, _, h, _⟩
      exact h.elim

theorem reads_flagCondition {word : String} (hf : TokenKind.ofWord word ∈ flagKinds) :
    ∃ b, ∀ ks, Reads condition [.name word] (.truthy (.ofPrimary (.flag b))) (.dot :: ks) := by
  obtain ⟨b, hb⟩ := reads_flag hf
  refine ⟨b, fun ks => (hb ks).last (reads_check_else (by simp) ?_)⟩
  refine reads_current fun t ht => ?_
  rw [ht]
  exact reads_pure

theorem gives_conditionFlag {asks : Expression → List Slot} {ask : Expression → Condition}
    {write : List Slot → List Slot} {make : Condition → Statement} {r : Statement → Prop}
    {qualifier name : String} (h : BranchPlace write make) (hc : ConditionPlace asks ask)
    (hf : TokenKind.ofWord qualifier ∈ flagKinds) :
    Gives statement (write (asks (qualified qualifier name))) r behind := by
  obtain ⟨b, hb⟩ := reads_flagCondition hf
  cases hc with
  | alone | left => exact gives_branchPlace h hb
  | @right left x op hl hx =>
    obtain ⟨b, hflag⟩ := reads_flag hf
    have hcondition : ∀ ks, Reads condition (left.slots ++ [x, .name qualifier])
        (.comparison left op (.ofPrimary (.flag b))) (.dot :: ks) :=
      fun ks => reads_comparison hx hl (hflag ks)
    have hslots : left.slots ++ x :: (qualified qualifier name).slots =
        (left.slots ++ [x, .name qualifier]) ++ .sign .dot :: [.name name] := by
      rw [List.append_assoc]
      rfl
    dsimp only
    rw [hslots]
    exact gives_branchPlace h hcondition

theorem gives_valueFlag {write : Expression → List Slot} {make : Expression → Statement}
    {qualifier name : String} (h : ValuePlace write make looked)
    (hf : TokenKind.ofWord qualifier ∈ flagKinds) (hb : Stops behind) :
    Gives statement (write (qualified qualifier name)) (· ≠ make (qualified qualifier name))
      behind := by
  cases h with
  | step h line => exact gives_stepFlag hf h hb
  | branch h hc => exact gives_conditionFlag h hc hf
  | repeat_ line body =>
    refine gives_statement (gives_next fun t ht => ?_)
    rw [show t.kind = .keyword .repeat_ from ht.1]
    exact gives_advance fun _ _ => gives_flag hf fun b => gives_expect_ne (by decide)

theorem gives_lookedPlace {write : Target → List Slot} {make : Target → Statement}
    {page field : String} (h : TargetPlace write make looked)
    (hl : TokenKind.ofWord page ∈ looked) :
    Gives statement (write (.element (some page) field)) (· ≠ make (.element (some page) field))
      behind := by
  cases h with
  | step h line => exact gives_lookedTarget h hl
  | branch h negated state =>
    obtain ⟨b, hb⟩ := reads_flagCondition hl
    exact gives_branchPlace h hb

end UiScenario.Grammar
