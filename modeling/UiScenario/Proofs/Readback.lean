import UiScenario.Proofs.Reading
import UiScenario.Proofs.Rendering

/-!
Reading back what was rendered. `Reads p slots a behind` says that a parser reads tokens that fill
the slots as `a`, and leaves exactly the tokens behind them, whose kinds are `behind`. There is a
rule for each way to build a parser, as there is one for `Yields`; here the rules say which token is
next, and so which way the parser goes.

All that a parser looks at ahead are kinds, so the kinds of the slots and of what is behind them
decide: `Avoids` says what must not come next, and `Keeps` that slots keep to that.
-/

namespace UiScenario.Grammar.Parser

variable {k : TokenKind} {bad ks : List TokenKind} {ts : List Token} {word : Keyword}

/-- What comes next is not of one of the kinds. -/
def Avoids (bad ks : List TokenKind) : Prop :=
  ∀ k, ks.head? = some k → k ∉ bad

theorem avoids_nil : Avoids bad [] := by
  intro k hk
  cases hk

theorem avoids_cons (h : k ∉ bad := by decide) : Avoids bad (k :: ks) := by
  intro k' hk
  cases hk
  exact h

theorem Avoids.ne (h : Avoids bad ks) (hk : k ∈ bad) : ks.head? ≠ some k :=
  fun hks => h k hks hk

theorem Avoids.mono {bad' : List TokenKind} (h : Avoids bad ks) (hb : bad' ⊆ bad) :
    Avoids bad' ks :=
  fun k hk hk' => h k hk (hb hk')

/-- What comes first of the slots, or behind them where there are none, is not of one of the
kinds. -/
def Keeps (bad : List TokenKind) (xs : List Slot) : Prop :=
  ∀ ks, Avoids bad ks → Avoids bad (kinds xs ++ ks)

theorem keeps_nil : Keeps bad [] :=
  fun _ h => h

theorem keeps_cons {x : Slot} {xs : List Slot} (h : x.kind ∉ bad) : Keeps bad (x :: xs) :=
  fun _ _ => avoids_cons h

theorem Keeps.append {xs ys : List Slot} (hx : Keeps bad xs) (hy : Keeps bad ys) :
    Keeps bad (xs ++ ys) := by
  intro ks h
  rw [kinds_append, List.append_assoc]
  exact hx _ (hy ks h)

theorem keeps_keywordIf (h : .keyword word ∉ bad) (is : Bool) : Keeps bad (keywordIf word is) := by
  cases is with
  | true => exact keeps_cons h
  | false => exact keeps_nil

theorem keeps_optional {α : Type} {slots : α → List Slot} (h : .keyword word ∉ bad) (o : Option α) :
    Keeps bad (optional word slots o) := by
  cases o with
  | none => exact keeps_nil
  | some a => exact keeps_cons h

theorem keeps_each {α : Type} {x : Slot} {slots : α → List Slot} (h : x.kind ∉ bad) (as : List α) :
    Keeps bad (as.flatMap fun a => x :: slots a) := by
  cases as with
  | nil => exact keeps_nil
  | cons a as => exact keeps_cons h

/-- A parser reads tokens that fill the slots, in front of tokens of the kinds `behind`, and nothing
else. -/
def Reads {α : Type} (p : Parser α) (slots : List Slot) (a : α) (behind : List TokenKind) : Prop :=
  ∀ (ts rest : List Token) (s : State), List.Forall₂ Token.Fills ts slots →
    rest.map Token.kind = behind → s.last.kind = .eof → s.ahead = ts ++ rest →
    p s = .ok a { s with ahead := rest }

section
variable {α β : Type} {p : Parser α} {x : Slot} {xs ys : List Slot} {a : α} {b : β}
  {behind : List TokenKind} {slots : α → List Slot} {f : Token → Parser β} {q : Parser α} {c : Prop}

/-! ## Building parsers -/

theorem reads_pure : Reads (pure a) [] a behind := by
  intro ts rest s hts _ _ hs
  cases hts
  rw [List.nil_append] at hs
  subst hs
  rfl

theorem Reads.bind {f : α → Parser β} (h : Reads p xs a (kinds ys ++ behind))
    (hf : Reads (f a) ys b behind) : Reads (p >>= f) (xs ++ ys) b behind := by
  intro ts rest s hts hrest hlast hs
  have hx := List.forall₂_take_append ts xs ys hts
  have hy := List.forall₂_drop_append ts xs ys hts
  have hp : p s = .ok a { s with ahead := ts.drop xs.length ++ rest } := by
    refine h _ _ s hx ?_ hlast ?_
    · rw [List.map_append, kinds_of_fills hy, hrest]
    · rw [← List.append_assoc, List.take_append_drop, hs]
  show EStateM.bind p f s = _
  unfold EStateM.bind
  rw [hp]
  exact hf _ rest _ hy hrest hlast rfl

/-- What reads one token comes first. -/
theorem Reads.cons {f : α → Parser β} (h : Reads p [x] a (kinds xs ++ behind))
    (hf : Reads (f a) xs b behind) : Reads (p >>= f) (x :: xs) b behind :=
  Reads.bind h hf

/-- What reads the last token; nothing is read behind it. -/
theorem Reads.last {f : α → Parser β} (h : Reads p xs a behind) (hf : Reads (f a) [] b behind) :
    Reads (p >>= f) xs b behind := by
  rw [← List.append_nil xs]
  exact Reads.bind h hf

theorem Reads.look {f : α → Parser β} (h : Reads p [] a (kinds xs ++ behind))
    (hf : Reads (f a) xs b behind) : Reads (p >>= f) xs b behind :=
  Reads.bind h hf

theorem reads_pos [Decidable c] (hc : c) (h : Reads p xs a behind) :
    Reads (if c then p else q) xs a behind := by
  rw [if_pos hc]
  exact h

theorem reads_neg [Decidable c] (hc : ¬c) (h : Reads p xs a behind) :
    Reads (if c then q else p) xs a behind := by
  rw [if_neg hc]
  exact h

theorem reads_attempt (h : Reads p xs a behind) : Reads (attempt p) xs (.ok a) behind := by
  intro ts rest s hts hrest hlast hs
  rw [attempt_eq, h ts rest s hts hrest hlast hs]

theorem reads_tryCatch {k : SyntaxError → Parser α} (h : Reads p xs a behind) :
    Reads (tryCatch p k) xs a behind := by
  intro ts rest s hts hrest hlast hs
  exact tryCatch_of_ok (h ts rest s hts hrest hlast hs)

/-! ## Single tokens -/

theorem reads_ahead {f : List Token → Parser β}
    (h : ∀ ts, ts.map Token.kind = kinds xs ++ behind → Reads (f ts) xs b behind) :
    Reads (ahead >>= f) xs b behind := by
  intro ts rest s hts hrest hlast hs
  show f s.ahead s = _
  refine h s.ahead ?_ ts rest s hts hrest hlast hs
  rw [hs, List.map_append, kinds_of_fills hts, hrest]

theorem reads_current
    (h : ∀ t : Token, t.kind = (kinds xs ++ behind).headD .eof → Reads (f t) xs b behind) :
    Reads (current >>= f) xs b behind := by
  intro ts rest s hts hrest hlast hs
  show f s.current s = _
  refine h s.current ?_ ts rest s hts hrest hlast hs
  rw [← hrest, ← kinds_of_fills hts, ← List.map_append, ← hs, State.current]
  cases s.ahead with
  | nil => exact hlast
  | cons t _ => rfl

theorem reads_next (h : ∀ t, t.Fills x → Reads (f t) (x :: xs) b behind) :
    Reads (current >>= f) (x :: xs) b behind := by
  intro ts rest s hts hrest hlast hs
  obtain ⟨t, us, ht, -, rfl⟩ := List.forall₂_cons_right_iff.1 hts
  show f s.current s = _
  have hc : s.current = t := by rw [State.current, hs]; rfl
  rw [hc]
  exact h t ht _ rest s hts hrest hlast hs

theorem reads_advance (h : ∀ t, t.Fills x → Reads (f t) xs b behind) :
    Reads (advance >>= f) (x :: xs) b behind := by
  intro ts rest s hts hrest hlast hs
  obtain ⟨t, us, ht, hus, rfl⟩ := List.forall₂_cons_right_iff.1 hts
  show f s.current { s with ahead := s.ahead.tail } = _
  have hc : s.current = t := by rw [State.current, hs]; rfl
  rw [hc, hs]
  exact h t ht us rest { s with ahead := us ++ rest } hus hrest hlast rfl

theorem startsWith_eq (h : ts.map Token.kind = ks) : startsWith k ts = (ks.head? == some k) := by
  subst h
  cases ts <;> rfl

theorem startsWith_drop (h : ts.map Token.kind = ks) :
    startsWith k (ts.drop 1) = (ks.tail.head? == some k) := by
  refine startsWith_eq ?_
  rw [← h, List.drop_one, List.map_tail]

theorem reads_check {f : Bool → Parser β}
    (h : Reads (f ((kinds xs ++ behind).head? == some k)) xs b behind) :
    Reads (check k >>= f) xs b behind := by
  show Reads (ahead >>= fun ts => f (startsWith k ts)) xs b behind
  refine reads_ahead fun ts hts => ?_
  rw [startsWith_eq hts]
  exact h

theorem reads_eat (hx : x.kind = k) : Reads (eat k) [x] true behind := by
  refine reads_check (reads_pos ?_ (reads_advance fun _ _ => reads_pure))
  rw [← hx]
  exact beq_self_eq_true _

theorem reads_eat_none (hk : behind.head? ≠ some k) : Reads (eat k) [] false behind := by
  exact reads_check (reads_neg (mt beq_iff_eq.1 hk) reads_pure)

theorem reads_keywordIf (is : Bool) (h : Avoids [.keyword word] behind) :
    Reads (eat (.keyword word)) (keywordIf word is) is behind := by
  cases is with
  | true => exact reads_eat rfl
  | false => exact reads_eat_none (h.ne (List.mem_singleton_self _))

section
variable {q r : Parser β}

/-- One way to go on: the next token is of the kind, and is read. -/
theorem reads_eat_then (hx : x.kind = k) (h : Reads q xs b behind) :
    Reads (eat k >>= fun c => if c = true then q else r) (x :: xs) b behind :=
  (reads_eat hx).cons (reads_pos rfl h)

/-- The other way to go on: the next token is not of the kind. -/
theorem reads_eat_else (hk : (kinds xs ++ behind).head? ≠ some k) (h : Reads r xs b behind) :
    Reads (eat k >>= fun c => if c = true then q else r) xs b behind :=
  (reads_eat_none hk).look (reads_neg nofun h)

theorem reads_check_then (hk : (kinds xs ++ behind).head? = some k) (h : Reads q xs b behind) :
    Reads (check k >>= fun c => if c = true then q else r) xs b behind :=
  reads_check (reads_pos (beq_iff_eq.2 hk) h)

theorem reads_check_else (hk : (kinds xs ++ behind).head? ≠ some k) (h : Reads r xs b behind) :
    Reads (check k >>= fun c => if c = true then q else r) xs b behind :=
  reads_check (reads_neg (mt beq_iff_eq.1 hk) h)

end

theorem reads_expect {expected : String} {f : Token → Parser β} (hx : x.kind = k)
    (h : ∀ t, Reads (f t) xs b behind) : Reads (expect k expected >>= f) (x :: xs) b behind := by
  intro ts rest s hts hrest hlast hs
  obtain ⟨t, us, ht, hus, rfl⟩ := List.forall₂_cons_right_iff.1 hts
  have hstart : startsWith k s.ahead = true := by
    rw [hs]; exact beq_iff_eq.2 (ht.1.trans hx)
  have hp : expect k expected s = .ok s.current { s with ahead := us ++ rest } := by
    show (if startsWith k s.ahead = true then advance else fail expected : Parser Token) s = _
    rw [if_pos hstart]
    show EStateM.Result.ok s.current { s with ahead := s.ahead.tail } = _
    rw [hs]; rfl
  show EStateM.bind (expect k expected) f s = _
  unfold EStateM.bind
  rw [hp]
  exact h _ us rest { s with ahead := us ++ rest } hus hrest hlast rfl

/-! ## Names -/

theorem isWord_ofWord (word : String) : (TokenKind.ofWord word).isWord = true := by
  rcases TokenKind.ofWord_cases word with h | ⟨k, h⟩ <;> rw [h] <;> rfl

theorem atBareName_eq (h : ts.map Token.kind = ks) :
    atBareName ts = ks.head?.any TokenKind.isBareName := by
  subst h
  cases ts <;> rfl

theorem reads_valueOf {value : String} (make : String → β)
    (hx : ∀ t, x.Carries t → t.value = value) :
    Reads (advance >>= fun t => pure (make t.value)) [x] (make value) behind := by
  refine reads_advance fun t ht => ?_
  rw [hx t ht.2]
  exact reads_pure

theorem reads_name {expected word : String} : Reads (name expected) [.name word] word behind := by
  refine reads_current fun t ht => ?_
  have hw : t.isWord = true := by unfold Token.isWord; rw [ht]; exact isWord_ofWord word
  exact reads_pos hw (reads_valueOf id fun _ h => h)

theorem reads_binding {expected word : String} (h : (TokenKind.ofWord word).isBareName = true) :
    Reads (binding expected) [.name word] word behind := by
  refine reads_ahead fun ts hts => ?_
  exact reads_pos ((atBareName_eq hts).trans h) (reads_valueOf id fun _ h => h)

theorem reads_qualifiedName {qualifier word : String} :
    Reads qualifiedName [.name qualifier, .sign .dot, .name word] (qualifier, word) behind := by
  refine reads_advance fun t ht => reads_advance fun _ _ => reads_advance fun u hu => ?_
  rw [ht.2, hu.2]
  exact reads_pure

theorem atQualifiedName_of {q n : String}
    (h : ts.map Token.kind = .ofWord q :: .dot :: .ofWord n :: ks) : atQualifiedName ts = true := by
  rcases ts with _ | ⟨t, _ | ⟨d, _ | ⟨u, us⟩⟩⟩
  · cases h
  · simp at h
  · simp at h
  · simp only [List.map_cons, List.cons.injEq] at h
    obtain ⟨ht, hd, hu, -⟩ := h
    simp [atQualifiedName, Token.isWord, ht, hd, hu, isWord_ofWord]

theorem not_atQualifiedName (h : ts.map Token.kind = k :: ks) (hk : ks.head? ≠ some .dot) :
    atQualifiedName ts = false := by
  rcases ts with _ | ⟨t, _ | ⟨d, _ | ⟨u, us⟩⟩⟩
  · rfl
  · rfl
  · rfl
  · simp only [List.map_cons, List.cons.injEq] at h
    obtain ⟨-, rfl⟩ := h
    have hd : d.kind ≠ .dot := fun hd => hk (by rw [List.head?_cons, hd])
    simp [atQualifiedName, hd]

/-! ## Repetition -/

section
variable {ι : Type} {slots : ι → List Slot} {p : Parser (Option α)} {stop : List Slot}

/-- What holds of the kinds at the end, and of items in front of kinds for which it holds, holds of
items one behind the other. -/
theorem good_flatMap {Good : List TokenKind → Prop} (hend : Good (kinds ys ++ behind)) (is : List ι)
    (hgood : ∀ i ∈ is, ∀ ks, Good ks → Good (kinds (slots i) ++ ks)) :
    Good (kinds (is.flatMap slots ++ ys) ++ behind) := by
  induction is with
  | nil => exact hend
  | cons i is ih =>
    rw [List.flatMap_cons, List.append_assoc, kinds_append, List.append_assoc]
    exact hgood i (by simp) _ (ih fun i' hi' => hgood i' (by simp [hi']))

/-- Rounds of a parser read items one behind the other, and then `stop`. Each item is read as its
value wherever what follows is `Good`, as the next item and the stop are. -/
theorem reads_rounds (value : ι → α) (Good : List TokenKind → Prop)
    (hstop : Reads p stop none behind) (hend : Good (kinds stop ++ behind)) (is : List ι)
    (hgood : ∀ i ∈ is, ∀ ks, Good ks → Good (kinds (slots i) ++ ks))
    (hstep : ∀ i ∈ is, ∀ ks, Good ks → Reads p (slots i) (some (value i)) ks) (n : Nat)
    (hn : is.length < n) : Reads (rounds p n) (is.flatMap slots ++ stop) (is.map value) behind := by
  induction is generalizing n with
  | nil =>
    obtain ⟨m, rfl⟩ : ∃ m, n = m + 1 := ⟨n - 1, by simp at hn; omega⟩
    exact hstop.last reads_pure
  | cons i is ih =>
    obtain ⟨m, rfl⟩ : ∃ m, n = m + 1 := ⟨n - 1, by simp at hn; omega⟩
    have hgood' : ∀ i' ∈ is, ∀ ks, Good ks → Good (kinds (slots i') ++ ks) :=
      fun i' hi' => hgood i' (by simp [hi'])
    rw [List.flatMap_cons, List.append_assoc]
    refine (hstep i (by simp) _ (good_flatMap hend is hgood')).bind ?_
    refine Reads.last (ih hgood' ?_ m (by simpa using hn)) reads_pure
    exact fun i' hi' => hstep i' (by simp [hi'])

theorem length_le_flatMap (is : List ι) (h : ∀ i ∈ is, slots i ≠ []) :
    is.length ≤ (is.flatMap slots).length := by
  induction is with
  | nil => simp
  | cons i is ih =>
    have hi : 0 < (slots i).length := List.length_pos_iff.2 (h i (by simp))
    have := ih fun i' hi' => h i' (by simp [hi'])
    rw [List.flatMap_cons, List.length_append, List.length_cons]
    omega

/-- Each item fills a slot at least, so the tokens ahead suffice for a round each. -/
theorem reads_manyOf (value : ι → α) (Good : List TokenKind → Prop)
    (hstop : Reads p stop none behind) (hend : Good (kinds stop ++ behind)) (is : List ι)
    (hne : ∀ i ∈ is, slots i ≠ []) (hgood : ∀ i ∈ is, ∀ ks, Good ks → Good (kinds (slots i) ++ ks))
    (hstep : ∀ i ∈ is, ∀ ks, Good ks → Reads p (slots i) (some (value i)) ks) :
    Reads (many p) (is.flatMap slots ++ stop) (is.map value) behind := by
  refine reads_ahead fun ts hts => ?_
  refine reads_rounds value Good hstop hend is hgood hstep _ ?_
  have hl := congrArg List.length hts
  have := length_le_flatMap is hne
  simp only [kinds, List.length_map, List.length_append] at hl
  omega

end

theorem reads_many {p : Parser (Option α)} {stop : List Slot} (Good : List TokenKind → Prop)
    (hstop : Reads p stop none behind) (hend : Good (kinds stop ++ behind)) (as : List α)
    (hne : ∀ a ∈ as, slots a ≠ []) (hgood : ∀ a ∈ as, ∀ ks, Good ks → Good (kinds (slots a) ++ ks))
    (hstep : ∀ a ∈ as, ∀ ks, Good ks → Reads p (slots a) (some a) ks) :
    Reads (many p) (as.flatMap slots ++ stop) as behind := by
  have h := reads_manyOf id Good hstop hend as hne hgood hstep
  rwa [List.map_id] at h

theorem reads_many_none {p : Parser (Option α)} (h : Reads p [] none behind) :
    Reads (many p) [] [] behind :=
  reads_ahead fun _ _ => h.last reads_pure

theorem reads_after (hx : x.kind = k) (h : Reads p xs a behind) :
    Reads (after? k p) (x :: xs) (some a) behind :=
  reads_eat_then hx (h.last reads_pure)

theorem reads_after_none (hk : behind.head? ≠ some k) : Reads (after? k p) [] none behind :=
  reads_eat_else hk reads_pure

theorem reads_optional {o : Option α} (hk : Avoids [.keyword word] behind)
    (h : ∀ a, o = some a → Reads p (slots a) a behind) :
    Reads (after? (.keyword word) p) (optional word slots o) o behind := by
  cases o with
  | none => exact reads_after_none (hk.ne (List.mem_singleton_self _))
  | some a => exact reads_after rfl (h a rfl)

theorem reads_each (hx : x.kind = k) (hk : k ∉ bad) (hb : Avoids (k :: bad) behind) (as : List α)
    (h : ∀ a ∈ as, ∀ ks, Avoids bad ks → Reads p (slots a) a ks) :
    Reads (many (after? k p)) (as.flatMap fun a => x :: slots a) as behind := by
  rw [← List.append_nil (as.flatMap _)]
  refine reads_many (Avoids bad) ?_ ?_ as ?_ ?_ ?_
  · exact reads_after_none (hb.ne (List.mem_cons_self ..))
  · exact hb.mono (List.subset_cons_self ..)
  · exact fun _ _ => List.cons_ne_nil _ _
  · exact fun _ _ => keeps_cons (hx ▸ hk)
  · exact fun a ha ks hks => reads_after hx (h a ha ks hks)

theorem reads_commaSeparated (hk : .comma ∉ bad) (hb : Avoids (.comma :: bad) behind) (as : List α)
    (h : ∀ a' ∈ a :: as, ∀ ks, Avoids bad ks → Reads p (slots a') a' ks) :
    Reads (commaSeparated p) (listed slots (a :: as)) (a :: as) behind := by
  refine Reads.bind (h a (List.mem_cons_self ..) _ ?_) (Reads.last ?_ reads_pure)
  · exact keeps_each hk as _ (hb.mono (List.subset_cons_self ..))
  · refine reads_each (x := .sign .comma) rfl hk hb as fun a' ha' => ?_
    exact h a' (List.mem_cons_of_mem _ ha')

/-! ## Blocks -/

theorem reads_recovering {isStart : List Token → Bool} (h : Reads p xs a behind) :
    Reads (recovering isStart p) xs (some a) behind :=
  reads_current fun _ _ => (reads_attempt h).last reads_pure

theorem reads_atBlockEnd (hb : behind = k :: ks) (hk : k.startsDeclaration = false) :
    Reads atBlockEnd [] false behind := by
  refine reads_ahead fun ts hts => ?_
  rw [kinds_nil, List.nil_append, hb] at hts
  match ts, hts with
  | t :: _, hts =>
    have ht : t.kind = k := (List.cons.inj hts).1
    show Reads (pure t.kind.startsDeclaration) [] false behind
    rw [ht, hk]
    exact reads_pure

/-- A block reads its members up to the closing brace, if no member starts like the end of the
block. -/
theorem reads_braced {block expected : String} (Good : List TokenKind → Prop) (as : List α)
    (hstart : ∀ a ∈ as, ∃ k ks,
      kinds (slots a) = k :: ks ∧ k ≠ .rbrace ∧ k.startsDeclaration = false)
    (hend : Good (.rbrace :: behind))
    (hgood : ∀ a ∈ as, ∀ ks, Good ks → Good (kinds (slots a) ++ ks))
    (hstep : ∀ a ∈ as, ∀ ks, Good ks → Reads p (slots a) a ks) :
    Reads (braced block expected p) (.sign .lbrace :: (as.flatMap slots ++ [.sign .rbrace])) as
      behind := by
  refine reads_expect rfl fun opening => ?_
  refine reads_many Good ?_ hend as ?_ hgood ?_
  · exact reads_eat_then rfl reads_pure
  · intro a ha h
    obtain ⟨k, ks, hk, -⟩ := hstart a ha
    rw [h] at hk
    cases hk
  · intro a ha ks hks
    obtain ⟨k, ks', hk, hr, hd⟩ := hstart a ha
    have hhead : kinds (slots a) ++ ks = k :: (ks' ++ ks) := by rw [hk, List.cons_append]
    refine reads_eat_else ?_ ?_
    · rw [hhead, List.head?_cons]
      exact fun h => hr (Option.some.inj h)
    · refine (reads_atBlockEnd hhead hd).look ?_
      exact reads_neg nofun ((hstep a ha ks hks).last reads_pure)

end

end UiScenario.Grammar.Parser
