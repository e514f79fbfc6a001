import UiScenario.Grammar.Step
import UiScenario.Proofs.ValueReadback

/-!
Reading back steps. Behind the last token of a step comes what `Stops` allows, so nothing of it is
read as a part of the step.
-/

namespace UiScenario.Grammar

open UiScenario.Grammar.Parser

variable {behind : List TokenKind} {ks : List TokenKind} {ts : List Token}

/-! ## Ends of statements -/

/-- A statement can end here: a block closes, the script ends, or a statement starts, with a word
that is not a qualifier. -/
def Stops : List TokenKind → Prop
  | [] => True
  | k :: ks => k = .rbrace ∨ k.startsStatement = true ∧ ks.head? ≠ some .dot

theorem Stops.avoids (h : Stops ks) : Avoids joints ks := by
  have hjoints : ∀ k ∈ joints, k ≠ .rbrace ∧ k.startsStatement = false := by decide
  cases ks with
  | nil => exact avoids_nil
  | cons k ks =>
    refine avoids_cons fun hk => ?_
    rcases h with h | ⟨h, -⟩
    · exact (hjoints k hk).1 h
    · rw [(hjoints k hk).2] at h; cases h

/-- A value ends here. -/
theorem Stops.value {ks : List TokenKind} (h : Stops ks) : Avoids [.plus, .dot] ks :=
  h.avoids.mono (by simp [joints])

theorem Stops.element {ks : List TokenKind} (h : Stops ks) : Avoids [.dot] ks :=
  h.avoids.mono (by simp [joints])

/-- The kinds of tokens that are values of their own. -/
def valueKinds : List TokenKind :=
  .text :: .number :: .env :: flagKinds

/-- A value starts where a value of its own or a name does. -/
theorem atExpression_iff {t : Token} :
    atExpression (t :: ts) = true ↔
      t.kind ∈ valueKinds ∨ atQualifiedName (t :: ts) = true ∨ atBareName (t :: ts) = true := by
  simp only [atExpression, valueKinds, flagKinds, List.mem_cons, List.not_mem_nil, or_false]
  split
  · next h => simp [h]
  · next h => simp [h]
  · next h => simp [h]
  · next h => simp [h]
  · next h => simp [h]
  · next h₁ h₂ h₃ h₄ h₅ =>
    rw [Bool.or_eq_true]
    refine ⟨.inr, ?_⟩
    rintro ((h | h | h | h | h) | h)
    exacts [(h₁ h).elim, (h₂ h).elim, (h₃ h).elim, (h₄ h).elim, (h₅ h).elim, h]

theorem atExpression_of {e : Expression} (he : e.Writable)
    (hts : ts.map Token.kind = kinds e.slots ++ ks) : atExpression ts = true := by
  obtain ⟨first, rest⟩ := e
  have hw : first.Writable := he first (by simp [Expression.parts])
  cases ts with
  | nil => rcases first with _ | _ | _ | _ | ⟨_ | _, _⟩ <;> cases hts
  | cons t ts =>
    rw [atExpression_iff]
    cases first with
    | ref qualifier name =>
      cases qualifier with
      | none => exact .inr (.inr ((atBareName_eq hts).trans hw))
      | some qualifier => exact .inr (.inl (atQualifiedName_of hts))
    | text | number | env =>
      have ht := (List.cons.inj hts).1
      exact .inl (by rw [ht]; simp [valueKinds, Slot.kind])
    | flag value =>
      have ht := (List.cons.inj hts).1
      exact .inl (by rw [ht]; cases value <;> simp [valueKinds, flagKinds, Slot.kind])

/-- A word that starts a statement is no value and does not stand alone as a name. -/
theorem not_value_of_startsStatement {k : TokenKind} (h : k.startsStatement = true) :
    k ∉ valueKinds ∧ k.isBareName = false := by
  cases k with
  | keyword word =>
    have hw : word.startsStatement = true := h
    refine ⟨?_, by simp [TokenKind.isBareName, Keyword.isBareName, hw]⟩
    simp only [valueKinds, flagKinds, List.mem_cons, List.not_mem_nil, or_false, reduceCtorEq,
      false_or, TokenKind.keyword.injEq]
    rintro (rfl | rfl) <;> cases hw
  | _ => cases h

theorem Stops.not_atExpression (h : Stops ks) (hts : ts.map Token.kind = ks) :
    atExpression ts = false := by
  subst hts
  cases ts with
  | nil => rfl
  | cons t ts =>
    obtain ⟨hv, hb, hq⟩ : t.kind ∉ valueKinds ∧ t.kind.isBareName = false ∧
        atQualifiedName (t :: ts) = false := by
      rcases h with h | ⟨h, hdot⟩
      · refine ⟨by rw [h]; decide, by rw [h]; rfl, ?_⟩
        unfold atQualifiedName
        split
        · next heq => cases heq; simp [Token.isWord, h, TokenKind.isWord]
        · rfl
      · obtain ⟨hv, hb⟩ := not_value_of_startsStatement h
        exact ⟨hv, hb, not_atQualifiedName rfl hdot⟩
    rw [Bool.eq_false_iff, Ne, atExpression_iff, hq]
    rintro (hv' | hq' | hb')
    · exact hv hv'
    · cases hq'
    · exact Bool.noConfusion (hb.symm.trans hb')

/-! ## Steps -/

section
variable {x : Slot} {xs : List Slot} {line : Nat} {t u : Target} {e : Expression}

theorem reads_withTarget (make : Target → Step) (ht : t.Writable) (hb : Stops behind) :
    Reads (withTarget make) (x :: t.slots) (make t) behind :=
  reads_advance fun _ _ => (reads_target t ht hb.element).last reads_pure

theorem reads_withValue (make : Expression → Step) (he : Reads expression xs e behind) :
    Reads (withValue make) (x :: xs) (make e) behind :=
  reads_advance fun _ _ => he.last reads_pure

theorem reads_openStep (he : Reads expression xs e behind) :
    Reads openStep (.opening .open_ line :: xs) (.open_ e) behind :=
  reads_advance fun o ho => reads_neg (by rw [ho.1]; nofun) (he.last reads_pure)

theorem reads_fillStep (ht : t.Writable) (he : Reads expression xs e behind) :
    Reads fillStep (x :: (t.slots ++ .keyword .with_ :: xs)) (.fill t e) behind := by
  refine reads_advance fun _ _ => (reads_target t ht avoids_cons).bind ?_
  exact reads_expect rfl fun _ => he.last reads_pure

theorem reads_selectStep (he : e.Writable) (ht : t.Writable) (hb : Stops behind) :
    Reads selectStep (x :: (e.slots ++ .keyword .from_ :: t.slots)) (.select e t) behind := by
  refine reads_advance fun _ _ => (reads_expression e he avoids_cons).bind ?_
  exact reads_expect rfl fun _ => (reads_target t ht hb.element).last reads_pure

theorem reads_dragStep (ht : t.Writable) (hu : u.Writable) (hb : Stops behind) :
    Reads dragStep (x :: (t.slots ++ .keyword .to_ :: u.slots)) (.drag t u) behind := by
  refine reads_advance fun _ _ => (reads_target t ht avoids_cons).bind ?_
  exact reads_expect rfl fun _ => (reads_target u hu hb.element).last reads_pure

theorem reads_uploadStep (he : e.Writable) (ht : t.Writable) (hb : Stops behind) :
    Reads uploadStep (x :: (e.slots ++ .keyword .to_ :: t.slots)) (.upload e t) behind := by
  refine reads_advance fun _ _ => (reads_expression e he avoids_cons).bind ?_
  exact reads_expect rfl fun _ => (reads_target t ht hb.element).last reads_pure

theorem reads_scroll (d : ScrollDirection) :
    Reads scrollStep [x, .keyword d.keyword] (.scroll (some d)) behind := by
  refine reads_advance fun _ _ => ?_
  cases d with
  | up => exact reads_eat_then rfl reads_pure
  | down => exact reads_eat_else nofun (reads_eat_then rfl reads_pure)

theorem reads_scrollTo (ht : t.Writable) (hb : Stops behind) :
    Reads scrollStep (x :: .keyword .to_ :: t.slots) (.scrollTo t) behind := by
  refine reads_advance fun _ _ => reads_eat_else nofun (reads_eat_else nofun ?_)
  exact reads_eat_then rfl ((reads_target t ht hb.element).last reads_pure)

theorem reads_waitUnit (unit : WaitUnit) : Reads waitUnit [.keyword unit.keyword] unit behind := by
  cases unit with
  | seconds => exact reads_eat_else nofun ((reads_eat rfl).last reads_pure)
  | milliseconds => exact reads_eat_then rfl reads_pure

theorem head?_expression (e : Expression) (ks : List TokenKind) :
    (kinds e.slots ++ ks).head? = (kinds e.slots).head? := by
  rcases e with ⟨_ | _ | _ | _ | ⟨_ | _, _⟩, rest⟩ <;> rfl

theorem head?_target (ht : t.Writable) (ks : List TokenKind) :
    (kinds t.slots ++ ks).head? = (kinds t.slots).head? := by
  rcases t with ⟨_ | _, _⟩ | e | _
  · rfl
  · rfl
  · exact head?_expression e ks
  · exact ht.elim

theorem reads_wait {unit : WaitUnit} (he : e.Writable)
    (hfor : (kinds e.slots).head? ≠ some (.keyword .for_)) :
    Reads waitStep (x :: (e.slots ++ [.keyword unit.keyword])) (.wait e unit) behind := by
  refine reads_advance fun _ _ => reads_eat_else ?_ ?_
  · rw [kinds_append, List.append_assoc, head?_expression]
    exact hfor
  · refine (reads_expression e he ?_).bind ((reads_waitUnit unit).last reads_pure)
    cases unit <;> exact avoids_cons

theorem reads_waitFor (ht : t.Writable) (hb : Stops behind) :
    Reads waitStep (x :: .keyword .for_ :: t.slots) (.waitFor t) behind :=
  reads_advance fun _ _ => reads_eat_then rfl ((reads_target t ht hb.element).last reads_pure)

theorem reads_clear (ht : t.Writable)
    (hk : (kinds t.slots).head? ∉ [some (.keyword .cookies), some (.keyword .storage)])
    (hb : Stops behind) :
    Reads clearStep (x :: t.slots) (.clear t) behind := by
  rw [← head?_target ht behind] at hk
  simp only [List.mem_cons, List.not_mem_nil, or_false, not_or] at hk
  refine reads_advance fun _ _ => reads_eat_else hk.1 (reads_eat_else hk.2 ?_)
  exact (reads_target t ht hb.element).last reads_pure

theorem reads_screenshotStep {name : Option Expression}
    (h : Reads (after? (.keyword .as) expression) xs name behind) :
    Reads screenshotStep (x :: .keyword .screenshot :: xs) (.screenshot name) behind :=
  reads_advance fun _ _ => reads_expect rfl fun _ => h.last reads_pure

theorem reads_acceptDialog {prompt : Option Expression}
    (h : Reads (after? (.keyword .with_) expression) xs prompt behind) :
    Reads dialogStep (.opening .accept line :: .keyword .dialog :: xs) (.acceptDialog prompt)
      behind :=
  reads_advance fun o ho => reads_expect rfl fun _ =>
    reads_neg (by rw [ho.1]; nofun) (h.last reads_pure)

theorem reads_dismissDialog :
    Reads dialogStep [.opening .dismiss line, .keyword .dialog] .dismissDialog behind :=
  reads_advance fun o ho => reads_expect rfl fun _ => reads_pos (by rw [ho.1]; rfl) reads_pure

theorem reads_switchToNewTab (hb : Stops behind) :
    Reads switchStep [x, .keyword .to_, .keyword .new, .keyword .tab] (.switchToNewTab none)
      behind := by
  refine reads_advance fun _ _ => reads_expect rfl fun _ => reads_eat_then rfl ?_
  refine reads_expect rfl fun _ => reads_ahead fun ts hts => ?_
  exact reads_neg (by rw [hb.not_atExpression hts]; nofun) reads_pure

theorem reads_switchToNewTabAt (he : Reads expression xs e behind)
    (hs : ∀ ts : List Token, ts.map Token.kind = kinds xs ++ behind → atExpression ts = true) :
    Reads switchStep (x :: .keyword .to_ :: .keyword .new :: .keyword .tab :: xs)
      (.switchToNewTab (some e)) behind := by
  refine reads_advance fun _ _ => reads_expect rfl fun _ => reads_eat_then rfl ?_
  refine reads_expect rfl fun _ => reads_ahead fun ts hts => ?_
  exact reads_pos (hs ts hts) (he.last reads_pure)

theorem reads_switchToTab (he : Reads expression xs e behind) :
    Reads switchStep (x :: .keyword .to_ :: .keyword .tab :: xs) (.switchToTab e) behind := by
  refine reads_advance fun _ _ => reads_expect rfl fun _ => reads_eat_else nofun ?_
  exact reads_eat_then rfl (he.last reads_pure)

theorem reads_switchToFrame (ht : t.Writable) (hb : Stops behind) :
    Reads switchStep (x :: .keyword .to_ :: .keyword .frame :: t.slots) (.switchToFrame t)
      behind := by
  refine reads_advance fun _ _ => reads_expect rfl fun _ => reads_eat_else nofun ?_
  exact reads_eat_else nofun (reads_eat_then rfl ((reads_target t ht hb.element).last reads_pure))

theorem reads_switchToMainFrame :
    Reads switchStep [x, .keyword .to_, .keyword .main, .keyword .frame] .switchToMainFrame
      behind := by
  refine reads_advance fun _ _ => reads_expect rfl fun _ => reads_eat_else nofun ?_
  refine reads_eat_else nofun (reads_eat_else nofun (reads_eat_then rfl ?_))
  exact reads_expect rfl fun _ => reads_pure

theorem reads_declareStep (kind : VariableKind) {name : String}
    (hn : (TokenKind.ofWord name).isBareName = true) (he : Reads expression xs e behind) :
    Reads declareStep (.opening kind.keyword line :: .name name :: .sign .equals :: xs)
      (.declare kind name e) behind := by
  refine reads_advance fun o ho => (reads_binding hn).cons (reads_expect rfl fun _ => ?_)
  refine he.last ?_
  rw [show variableKind o.kind = kind by rw [ho.1]; cases kind <;> rfl]
  exact reads_pure

theorem reads_performStep {page action : String} {arguments : List Expression}
    (ha : ∀ e ∈ arguments, e.Writable) (hb : Stops behind) :
    Reads performStep (x :: .name page :: .sign .dot :: .name action ::
      if arguments.isEmpty then [] else .keyword .with_ :: listed Expression.slots arguments)
      (.perform page action arguments) behind := by
  refine reads_advance fun _ _ => reads_ahead fun ts hts => ?_
  rw [atQualifiedName_of hts]
  refine reads_qualifiedName.bind ?_
  cases arguments with
  | nil => exact reads_eat_else (hb.avoids.ne (by simp [joints])) reads_pure
  | cons e es =>
    refine reads_eat_then rfl (Reads.last ?_ reads_pure)
    exact reads_commaSeparated (by decide) (hb.avoids.mono (by simp [joints])) es
      fun e he ks hks => reads_expression e (ha e he) hks

/-! ## Checks -/

section
variable (he : Reads expression xs e behind)
include he

theorem reads_containsText (negated : Bool) :
    Reads (assertionOf t) (keywordIf .not negated ++ .keyword .contains :: .keyword .text :: xs)
      (.text t negated true e) behind := by
  refine reads_eat_else (by cases negated <;> nofun) ?_
  refine (reads_keywordIf negated avoids_cons).bind (reads_eat_then rfl ?_)
  exact (reads_eat rfl).cons (he.last reads_pure)

theorem reads_hasText (negated : Bool) :
    Reads (assertionOf t) (keywordIf .not negated ++ .keyword .has :: .keyword .text :: xs)
      (.text t negated false e) behind := by
  refine reads_eat_else (by cases negated <;> nofun) ?_
  refine (reads_keywordIf negated avoids_cons).bind (reads_eat_else nofun ?_)
  exact reads_expect rfl fun _ => reads_eat_then rfl (he.last reads_pure)

theorem reads_hasValue (negated : Bool) :
    Reads (assertionOf t) (keywordIf .not negated ++ .keyword .has :: .keyword .value :: xs)
      (.value t negated e) behind := by
  refine reads_eat_else (by cases negated <;> nofun) ?_
  refine (reads_keywordIf negated avoids_cons).bind (reads_eat_else nofun ?_)
  exact reads_expect rfl fun _ => reads_eat_else nofun (reads_eat_then rfl (he.last reads_pure))

theorem reads_hasAttribute {name : Expression} (hn : name.Writable) :
    Reads (assertionOf t)
      (.keyword .has :: .keyword .attribute_ :: (name.slots ++ .sign .equals :: xs))
      (.attribute_ t name e) behind := by
  refine reads_eat_else nofun (Reads.look (reads_eat_none nofun) (reads_eat_else nofun ?_))
  refine reads_expect rfl fun _ => reads_eat_else nofun (reads_eat_else nofun ?_)
  refine reads_neg nofun (reads_eat_then rfl ?_)
  exact (reads_expression name hn avoids_cons).bind (reads_expect rfl fun _ => he.last reads_pure)

theorem reads_hasCount :
    Reads (assertionOf t) (.keyword .has :: .keyword .count :: xs) (.count t e) behind := by
  refine reads_eat_else nofun (Reads.look (reads_eat_none nofun) (reads_eat_else nofun ?_))
  refine reads_expect rfl fun _ => reads_eat_else nofun (reads_eat_else nofun ?_)
  exact reads_neg nofun (reads_eat_else nofun (reads_eat_then rfl (he.last reads_pure)))

end

/-- The rule behind the element, for each check of an element. -/
theorem reads_assertionOf {a : Assertion} (hs : a.slots = t.slots ++ xs) (ht : a.targets = [t])
    (he : ∀ e ∈ a.expressions, e.Writable) (hb : Stops behind) :
    Reads (assertionOf t) xs a behind := by
  have hvalue : ∀ e ∈ a.expressions, Reads expression e.slots e behind :=
    fun e hm => reads_expression e (he e hm) hb.value
  cases a with
  | state t' negated state =>
    cases ht
    cases List.append_cancel_left hs
    refine reads_eat_then rfl ?_
    refine (reads_keywordIf negated (avoids_cons (not_mem_state state))).bind ?_
    exact (reads_elementState state).last reads_pure
  | text t' negated contains expected =>
    have hx := hvalue expected (by simp [Assertion.expressions])
    cases ht
    cases contains with
    | true =>
      cases List.append_cancel_left hs
      exact reads_containsText hx negated
    | false =>
      cases List.append_cancel_left hs
      exact reads_hasText hx negated
  | value t' negated expected =>
    cases ht
    cases List.append_cancel_left hs
    exact reads_hasValue (hvalue expected (by simp [Assertion.expressions])) negated
  | attribute_ t' name expected =>
    cases ht
    cases List.append_cancel_left hs
    exact reads_hasAttribute (hvalue expected (by simp [Assertion.expressions]))
      (he name (by simp [Assertion.expressions]))
  | count t' expected =>
    cases ht
    cases List.append_cancel_left hs
    exact reads_hasCount (hvalue expected (by simp [Assertion.expressions]))
  | url | title => cases ht

theorem atUnqualified_eq {word : Keyword} (h : ts.map Token.kind = ks) :
    atUnqualified word ts =
      (ks.head? == some (.keyword word) && !(ks.tail.head? == some .dot)) := by
  rw [atUnqualified, startsWith_eq h, startsWith_drop h]

/-- An element is not read as a keyword, unless the keyword is all of it. -/
theorem not_atUnqualified {word : Keyword} (ht : t.Writable) (hk : kinds t.slots ≠ [.keyword word])
    (hts : ts.map Token.kind = kinds t.slots ++ ks) : ¬atUnqualified word ts = true := by
  rw [atUnqualified_eq hts, Bool.and_eq_true, beq_iff_eq]
  rintro ⟨hhead, hdot⟩
  cases t with
  | element page field =>
    cases page with
    | none => exact hk (by rw [← Option.some.inj hhead]; rfl)
    | some page => cases hdot
  | selector e =>
    obtain ⟨s, rfl⟩ := ht
    cases s <;> cases hhead
  | unset => exact ht

theorem reads_urlMatch (m : UrlMatch) : Reads urlMatch [.keyword m.keyword] m behind := by
  cases m with
  | is => exact reads_eat_then rfl reads_pure
  | contains => exact reads_eat_else nofun (reads_eat_then rfl reads_pure)
  | matches_ =>
    exact reads_eat_else nofun (reads_eat_else nofun (reads_eat_then rfl reads_pure))

theorem reads_titleContains (contains : Bool) :
    Reads titleContains [.keyword (if contains then .contains else .is)] contains behind := by
  cases contains with
  | true => exact reads_eat_else nofun (reads_eat_then rfl reads_pure)
  | false => exact reads_eat_then rfl reads_pure

theorem reads_verifyUrl (m : UrlMatch) (he : Reads expression xs e behind) :
    Reads verifyStep (x :: .keyword .url :: .keyword m.keyword :: xs) (.verify (.url m e))
      behind := by
  refine reads_advance fun _ _ => reads_ahead fun ts hts => reads_pos ?_ ?_
  · rw [atUnqualified_eq hts]; cases m <;> rfl
  · exact reads_advance fun _ _ => (reads_urlMatch m).cons (he.last reads_pure)

theorem reads_verifyTitle (contains : Bool) (he : Reads expression xs e behind) :
    Reads verifyStep
      (x :: .keyword .title :: .keyword (if contains then .contains else .is) :: xs)
      (.verify (.title contains e)) behind := by
  refine reads_advance fun _ _ => reads_ahead fun ts hts => reads_neg ?_ ?_
  · rw [atUnqualified_eq hts]; rintro ⟨⟩
  · refine reads_ahead fun us hus => reads_pos ?_ (reads_advance fun _ _ => ?_)
    · rw [atUnqualified_eq hus]; cases contains <;> rfl
    · exact (reads_titleContains contains).cons (he.last reads_pure)

/-- A check of an element is read if the rule behind the element reads it. -/
theorem reads_verifyElement {a : Assertion} (ht : t.Writable)
    (hk : kinds t.slots ∉ [[.keyword .url], [.keyword .title]])
    (hdot : Avoids [.dot] (kinds xs ++ behind)) (ha : Reads (assertionOf t) xs a behind) :
    Reads verifyStep (x :: (t.slots ++ xs)) (.verify a) behind := by
  simp only [List.mem_cons, List.not_mem_nil, or_false, not_or] at hk
  obtain ⟨hurl, htitle⟩ := hk
  refine reads_advance fun _ _ => reads_ahead fun ts hts => ?_
  rw [kinds_append, List.append_assoc] at hts
  refine reads_neg (not_atUnqualified ht hurl hts) (reads_ahead fun us hus => ?_)
  rw [kinds_append, List.append_assoc] at hus
  refine reads_neg (not_atUnqualified ht htitle hus) ?_
  exact (reads_target t ht hdot).bind (ha.last reads_pure)

theorem reads_verifyStep {a : Assertion} (h : (Statement.step line (.verify a)).WritableHere)
    (hb : Stops behind) : Reads verifyStep (x :: a.slots) (.verify a) behind := by
  have he : ∀ e ∈ a.expressions, e.Writable := h.expressions
  have helement : ∀ t xs, a.targets = [t] → a.slots = t.slots ++ xs →
      Avoids [.dot] (kinds xs ++ behind) → Reads verifyStep (x :: a.slots) (.verify a) behind := by
    intro t xs ht hs hxs
    have hw : t.Writable := h.targets t (by simp [Statement.targets, Step.targets, ht])
    have hkeywords := h.admitted t (by simp [ht])
    rw [hs]
    exact reads_verifyElement hw hkeywords hxs (reads_assertionOf hs ht he hb)
  cases a with
  | url matcher expected =>
    exact reads_verifyUrl matcher
      (reads_expression expected (he expected (by simp [Assertion.expressions])) hb.value)
  | title contains expected =>
    exact reads_verifyTitle contains
      (reads_expression expected (he expected (by simp [Assertion.expressions])) hb.value)
  | state t negated state => exact helement t _ rfl rfl avoids_cons
  | text t negated contains expected =>
    cases contains with
    | true => exact helement t _ rfl rfl (by cases negated <;> exact avoids_cons)
    | false => exact helement t _ rfl rfl (by cases negated <;> exact avoids_cons)
  | value t negated expected =>
    exact helement t _ rfl rfl (by cases negated <;> exact avoids_cons)
  | attribute_ t name expected => exact helement t _ rfl rfl avoids_cons
  | count t expected => exact helement t _ rfl rfl avoids_cons

end

/-! ## Rules of steps -/

/-- A declaration goes on as a query if its value starts like one. -/
theorem atQueryBinding_eq {k : TokenKind} {name : String}
    (h : ts.map Token.kind = k :: .ofWord name :: .equals :: ks) :
    atQueryBinding ts = (ks.head?.bind queryMode?).isSome := by
  rcases ts with _ | ⟨t, _ | ⟨n, _ | ⟨e, us⟩⟩⟩
  · cases h
  · simp at h
  · simp at h
  · simp only [List.map_cons, List.cons.injEq] at h
    obtain ⟨-, hn, he, rfl⟩ := h
    cases us with
    | nil => rfl
    | cons m us => simp [atQueryBinding, Token.isWord, hn, he, isWord_ofWord]

theorem not_atQueryBinding {k : TokenKind} {name : String} {e : Expression}
    (hts : ts.map Token.kind = k :: (kinds (.name name :: .sign .equals :: e.slots) ++ behind))
    (h : (kinds e.slots).head?.bind queryMode? = none) : ¬atQueryBinding ts = true := by
  have hq : atQueryBinding ts = ((kinds e.slots ++ behind).head?.bind queryMode?).isSome :=
    atQueryBinding_eq hts
  rw [hq, head?_expression, h]
  nofun

/-- The rule of a query's first word is that of queries: what is no `LOAD` has its mode behind the
name, whatever is written further on. -/
theorem stepRule?_query {q : DataQuery} {xs : List Slot}
    (hts : ts.map Token.kind =
      .keyword q.keyword :: (kinds (.name q.variable_ :: (q.mode.slots ++ xs)) ++ behind)) :
    stepRule? q.keyword ts = some queryStep := by
  by_cases hm : q.mode = .load
  · have hk : q.keyword = .load := by rw [DataQuery.keyword, if_pos hm]
    rw [hk]
    rfl
  · have hk : q.keyword = q.resultType.keyword := by rw [DataQuery.keyword, if_neg hm]
    obtain ⟨word, hslots, hword⟩ := exists_slot_of_mode hm
    have hat : atQueryBinding ts = true := by
      rw [hslots] at hts
      rw [atQueryBinding_eq hts]
      show (queryMode? (.keyword word)).isSome = true
      rw [hword]
      rfl
    rw [hk]
    cases q.resultType <;> simp [stepRule?, ResultType.keyword, hat]

theorem reads_stepRule {s : Step} {line : Nat} (h : (Statement.step line s).WritableHere)
    (hb : Stops behind)
    (hts : ts.map Token.kind = .keyword s.keyword :: (kinds s.slots ++ behind)) :
    ∃ rule, stepRule? s.keyword ts = some rule ∧
      Reads rule (.opening s.keyword line :: s.slots) s behind := by
  have ht : ∀ t ∈ s.targets, t.Writable := h.targets
  have he : ∀ e ∈ s.expressions, e.Writable := h.expressions
  have hvalue : ∀ e ∈ s.expressions, Reads expression e.slots e behind :=
    fun e hm => reads_expression e (he e hm) hb.value
  cases s with
  | open_ e => exact ⟨_, rfl, reads_openStep (hvalue e (by simp [Step.expressions]))⟩
  | click t => exact ⟨_, rfl, reads_withTarget .click (ht t (by simp [Step.targets])) hb⟩
  | hover t => exact ⟨_, rfl, reads_withTarget .hover (ht t (by simp [Step.targets])) hb⟩
  | check t => exact ⟨_, rfl, reads_withTarget .check (ht t (by simp [Step.targets])) hb⟩
  | uncheck t => exact ⟨_, rfl, reads_withTarget .uncheck (ht t (by simp [Step.targets])) hb⟩
  | fill t e =>
    exact ⟨_, rfl, reads_fillStep (ht t (by simp [Step.targets]))
      (hvalue e (by simp [Step.expressions]))⟩
  | select e t =>
    exact ⟨_, rfl, reads_selectStep (he e (by simp [Step.expressions]))
      (ht t (by simp [Step.targets])) hb⟩
  | scroll direction =>
    cases direction with
    | none => cases h.admitted
    | some d => exact ⟨_, rfl, reads_scroll d⟩
  | scrollTo t => exact ⟨_, rfl, reads_scrollTo (ht t (by simp [Step.targets])) hb⟩
  | press e => exact ⟨_, rfl, reads_withValue .press (hvalue e (by simp [Step.expressions]))⟩
  | drag t u =>
    exact ⟨_, rfl, reads_dragStep (ht t (by simp [Step.targets]))
      (ht u (by simp [Step.targets])) hb⟩
  | upload e t =>
    exact ⟨_, rfl, reads_uploadStep (he e (by simp [Step.expressions]))
      (ht t (by simp [Step.targets])) hb⟩
  | wait e unit =>
    exact ⟨_, rfl, reads_wait (he e (by simp [Step.expressions])) h.admitted⟩
  | waitFor t => exact ⟨_, rfl, reads_waitFor (ht t (by simp [Step.targets])) hb⟩
  | refresh => exact ⟨_, rfl, reads_advance fun _ _ => reads_pure⟩
  | clear t => exact ⟨_, rfl, reads_clear (ht t (by simp [Step.targets])) h.admitted hb⟩
  | clearCookies => exact ⟨_, rfl, reads_advance fun _ _ => reads_eat_then rfl reads_pure⟩
  | clearStorage =>
    exact ⟨_, rfl, reads_advance fun _ _ => reads_eat_else nofun (reads_eat_then rfl reads_pure)⟩
  | screenshot name =>
    exact ⟨_, rfl, reads_screenshotStep (reads_optional (hb.avoids.mono (by simp [joints]))
      fun e hn => hvalue e (by simp [Step.expressions, hn]))⟩
  | log e => exact ⟨_, rfl, reads_withValue .log (hvalue e (by simp [Step.expressions]))⟩
  | switchToTab e => exact ⟨_, rfl, reads_switchToTab (hvalue e (by simp [Step.expressions]))⟩
  | switchToNewTab url =>
    cases url with
    | none => exact ⟨_, rfl, reads_switchToNewTab hb⟩
    | some e =>
      exact ⟨_, rfl, reads_switchToNewTabAt (hvalue e (by simp [Step.expressions]))
        fun _ => atExpression_of (he e (by simp [Step.expressions]))⟩
  | switchToFrame t => exact ⟨_, rfl, reads_switchToFrame (ht t (by simp [Step.targets])) hb⟩
  | switchToMainFrame => exact ⟨_, rfl, reads_switchToMainFrame⟩
  | closeTab =>
    exact ⟨_, rfl, reads_advance fun _ _ => reads_expect rfl fun _ => reads_pure⟩
  | acceptDialog prompt =>
    exact ⟨_, rfl, reads_acceptDialog (reads_optional (hb.avoids.mono (by simp [joints]))
      fun e hn => hvalue e (by simp [Step.expressions, hn]))⟩
  | dismissDialog => exact ⟨_, rfl, reads_dismissDialog⟩
  | verify a => exact ⟨_, rfl, reads_verifyStep h hb⟩
  | declare kind name e =>
    have hd : Reads declareStep
        (.opening kind.keyword line :: .name name :: .sign .equals :: e.slots)
        (.declare kind name e) behind :=
      reads_declareStep kind (h.binds name rfl) (hvalue e (by simp [Step.expressions]))
    cases kind with
    | flag => exact ⟨_, rfl, hd⟩
    | text | number | list =>
      exact ⟨_, rfl, reads_neg (not_atQueryBinding hts (h.admitted (by rintro ⟨⟩))) hd⟩
  | perform page action arguments => exact ⟨_, rfl, reads_performStep he hb⟩
  | query q => exact ⟨_, stepRule?_query hts, (reads_query h hb.avoids).last reads_pure⟩

end UiScenario.Grammar
