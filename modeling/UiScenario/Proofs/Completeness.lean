import UiScenario.Grammar.Statement
import UiScenario.Proofs.StepReadback

/-!
Statements are read back as they were written. Whatever a statement holds, the tokens of its
rendering are read as the statement, and no token behind them is.
-/

namespace UiScenario.Grammar

open UiScenario.Grammar.Parser

variable {behind : List TokenKind} {s : Statement} {xs : List Slot} {line : Nat}
  {body : List Statement} {ts rest : List Token}

/-! ## First words -/

theorem ofWord_ne_dot (word : String) : TokenKind.ofWord word ∉ [.dot] := by
  rcases TokenKind.ofWord_cases word with h | ⟨k, h⟩ <;> rw [h] <;> simp

theorem keeps_expression (e : Expression) : Keeps [.dot] e.slots := by
  obtain ⟨first, rest⟩ := e
  cases first with
  | text | number | env => exact keeps_cons (by simp [Slot.kind])
  | flag value => exact keeps_cons (by simp [Slot.kind])
  | ref qualifier name => cases qualifier <;> exact keeps_cons (ofWord_ne_dot _)

theorem keeps_target (t : Target) : Keeps [.dot] t.slots := by
  cases t with
  | element page field => cases page <;> exact keeps_cons (ofWord_ne_dot _)
  | selector e => exact keeps_expression e
  | unset => exact keeps_nil

theorem keeps_assertion (a : Assertion) : Keeps [.dot] a.slots := by
  cases a with
  | url | title => exact keeps_cons (by simp [Slot.kind])
  | text t negated contains expected =>
    cases contains with
    | true | false =>
      refine (keeps_target t).append ((keeps_keywordIf (by simp) negated).append ?_)
      exact keeps_cons (by simp [Slot.kind])
  | value t negated expected =>
    refine (keeps_target t).append ((keeps_keywordIf (by simp) negated).append ?_)
    exact keeps_cons (by simp [Slot.kind])
  | state t | attribute_ t | count t =>
    exact (keeps_target t).append (keeps_cons (by simp [Slot.kind]))

/-- No step goes on with a dot behind its first word. -/
theorem keeps_step (s : Step) : Keeps [.dot] s.slots := by
  cases s with
  | open_ e | press e | log e => exact keeps_expression e
  | click t | hover t | check t | uncheck t | clear t => exact keeps_target t
  | fill t | drag t => exact (keeps_target t).append (keeps_cons (by simp [Slot.kind]))
  | select e | upload e | wait e =>
    exact (keeps_expression e).append (keeps_cons (by simp [Slot.kind]))
  | scroll direction =>
    cases direction with
    | none => exact keeps_nil
    | some d => exact keeps_cons (by simp [Slot.kind])
  | refresh => exact keeps_nil
  | verify a => exact keeps_assertion a
  | declare | perform | query => exact keeps_cons (ofWord_ne_dot _)
  | _ => exact keeps_cons (by simp [Slot.kind])

theorem keeps_condition (c : Condition) : Keeps [.dot] c.slots := by
  cases c with
  | state t => exact (keeps_target t).append (keeps_cons (by simp [Slot.kind]))
  | comparison left op right =>
    refine (keeps_expression left).append (Keeps.append ?_ (keeps_expression right))
    cases op <;> exact keeps_cons (by simp [Slot.kind])
  | truthy e => exact keeps_expression e

/-- A step starts with a word that starts statements, and not with that of a statement that holds
others. -/
theorem keyword_step (s : Step) :
    s.keyword.startsStatement = true ∧ s.keyword ∉ [.if_, .repeat_, .for_] := by
  cases s with
  | declare kind => cases kind <;> exact ⟨rfl, by simp [Step.keyword, VariableKind.keyword]⟩
  | query q =>
    show q.keyword.startsStatement = true ∧ q.keyword ∉ [.if_, .repeat_, .for_]
    unfold DataQuery.keyword
    split
    · exact ⟨rfl, by decide⟩
    · cases q.resultType <;> exact ⟨rfl, by decide⟩
  | _ => exact ⟨rfl, by simp [Step.keyword]⟩

/-- A statement starts with a word that starts statements, and has no dot behind it. -/
theorem exists_slots (s : Statement) :
    ∃ word xs, s.slots = .opening word s.line :: xs ∧ word.startsStatement = true ∧
      Keeps [.dot] xs := by
  cases s with
  | step line s => exact ⟨_, _, by rw [Statement.slots]; rfl, (keyword_step s).1, keeps_step s⟩
  | branch line c thenBody elseBody =>
    refine ⟨.if_, _, by rw [Statement.slots]; rfl, rfl, (keeps_condition c).append ?_⟩
    exact keeps_cons (by simp [Slot.kind])
  | repeat_ line times body =>
    refine ⟨.repeat_, _, by rw [Statement.slots]; rfl, rfl, (keeps_expression times).append ?_⟩
    exact keeps_cons (by simp [Slot.kind])
  | forEach line item collection body =>
    exact ⟨.for_, _, by rw [Statement.slots]; rfl, rfl, keeps_cons (by simp [Slot.kind])⟩

theorem stops_statement (s : Statement) {ks : List TokenKind} (h : Stops ks) :
    Stops (kinds s.slots ++ ks) := by
  obtain ⟨word, xs, hs, hw, hdot⟩ := exists_slots s
  rw [hs]
  exact .inr ⟨hw, (hdot ks h.element).ne (by simp)⟩

/-! ## Statements -/

section
variable {b : String → Parser (List Statement)} {thenBody elseBody : List Statement} {c : Condition}

theorem reads_arm (h : (Statement.branch line c thenBody elseBody).WritableHere)
    (hbody : Reads (b "IF") (blockSlots thenBody) thenBody behind) :
    Reads (arm b) (.opening .if_ line :: (c.slots ++ blockSlots thenBody)) ⟨line, c, thenBody⟩
      behind := by
  refine reads_advance fun t ht => (reads_condition h).bind (hbody.last ?_)
  rw [show t.line = line from ht.2]
  exact reads_pure

theorem atElseIf_iff {ks : List TokenKind} (h : ts.map Token.kind = ks) :
    atElseIf ts = true ↔
      ks.head? = some (.keyword .else_) ∧ ks.tail.head? = some (.keyword .if_) := by
  rw [atElseIf, startsWith_eq h, startsWith_drop h, Bool.and_eq_true, beq_iff_eq, beq_iff_eq]

/-- An `IF` with all its arms, and with what stands behind its last `ELSE`, if there is one. A brace
is behind that `ELSE`, so it does not start a further arm. -/
theorem reads_arms {ι : Type} {zs : List Slot} {first : Arm} (slots : ι → List Slot)
    (value : ι → Arm) (is : List ι) (hfirst : ∀ ks, Reads (arm b) xs first ks)
    (hrest : ∀ i ∈ is, ∀ ks, Reads (arm b) (slots i) (value i) ks)
    (hif : ∀ i ∈ is, ∀ ks, (kinds (slots i) ++ ks).head? = some (.keyword .if_))
    (helse : (zs = [] ∧ elseBody = [] ∧ Avoids [.keyword .else_] behind) ∨
      ∃ ys, zs = .keyword .else_ :: .sign .lbrace :: ys ∧
        Reads (b "ELSE") (.sign .lbrace :: ys) elseBody behind) :
    Reads (branchStatement b) (xs ++ (is.flatMap (fun i => .keyword .else_ :: slots i) ++ zs))
      (first.chain (is.map value) elseBody) behind := by
  refine (hfirst _).bind (Reads.bind ?_ ?_ (a := is.map value))
  · rw [← List.append_nil (is.flatMap _)]
    refine reads_manyOf value (fun _ => True) (reads_ahead fun ts hts => reads_neg ?_ reads_pure)
      trivial is (fun _ _ => List.cons_ne_nil _ _) (fun _ _ _ _ => trivial) fun i hi ks _ => ?_
    · rw [atElseIf_iff hts]
      rintro ⟨helse', hif'⟩
      rcases helse with ⟨rfl, -, hb⟩ | ⟨ys, rfl, -⟩
      · exact hb.ne (by simp) helse'
      · cases hif'
    · refine reads_ahead fun ts hts => reads_pos ((atElseIf_iff hts).2 ⟨rfl, hif i hi ks⟩) ?_
      exact reads_advance fun _ _ => (hrest i hi ks).last reads_pure
  · rcases helse with ⟨rfl, rfl, hb⟩ | ⟨ys, rfl, hbody⟩
    · exact reads_eat_else (hb.ne (by simp)) reads_pure
    · exact reads_eat_then rfl (hbody.last reads_pure)

theorem reads_branchStatement (h : (Statement.branch line c thenBody elseBody).WritableHere)
    (hbody : ∀ body ∈ [thenBody, elseBody], ∀ what ks, Reads (b what) (blockSlots body) body ks)
    (hb : Avoids [.keyword .else_] behind) :
    Reads (branchStatement b)
      ((.opening .if_ line :: (c.slots ++ blockSlots thenBody)) ++ Statement.elseSlots elseBody)
      (.branch line c thenBody elseBody) behind := by
  have hfirst := fun ks => reads_arm h (hbody thenBody (by simp) "IF" ks)
  refine reads_arms (fun i : Empty => i.elim) (fun i => i.elim) [] hfirst (by simp) (by simp) ?_
  cases elseBody with
  | nil => exact .inl ⟨rfl, rfl, hb⟩
  | cons s rest =>
    exact .inr ⟨_, Statement.elseSlots_cons s rest, hbody (s :: rest) (by simp) "ELSE" _⟩

theorem reads_repeatStatement {times : Expression} (he : times.Writable)
    (hbody : Reads (b "REPEAT") xs body behind) :
    Reads (repeatStatement b) (.opening .repeat_ line :: (times.slots ++ .keyword .times :: xs))
      (.repeat_ line times body) behind := by
  refine reads_advance fun t ht => (reads_expression times he avoids_cons).bind ?_
  refine reads_expect rfl fun _ => hbody.last ?_
  rw [show t.line = line from ht.2]
  exact reads_pure

theorem reads_forEachStatement {item collection : String}
    (hi : (TokenKind.ofWord item).isBareName = true)
    (hbody : ∀ what ks, Reads (b what) (blockSlots body) body ks) :
    Reads (forEachStatement b)
      (.opening .for_ line :: .keyword .each :: .name item :: .keyword .in_ :: .name collection ::
        blockSlots body)
      (.forEach line item collection body) behind := by
  refine reads_advance fun t ht => reads_expect rfl fun _ => (reads_binding hi).cons ?_
  refine reads_expect rfl fun _ => reads_name.cons ((hbody "FOR EACH" _).last ?_)
  rw [show t.line = line from ht.2]
  exact reads_pure

/-- A step is read by the rule of its first word, which is not that of a statement that holds
others. -/
theorem reads_stepStatement {word : Keyword} {s : Step} (hword : word ∉ [.if_, .repeat_, .for_])
    (h : ∀ ts : List Token, ts.map Token.kind = .keyword word :: (kinds xs ++ behind) →
      ∃ rule, stepRule? word ts = some rule ∧ Reads rule (.opening word line :: xs) s behind) :
    Reads (statementRule b) (.opening word line :: xs) (.step line s) behind := by
  refine reads_next fun t ht => ?_
  rw [show t.kind = .keyword word from ht.1]
  split
  · next heq => rw [TokenKind.keyword.inj heq] at hword; exact absurd hword (by decide)
  · next heq => rw [TokenKind.keyword.inj heq] at hword; exact absurd hword (by decide)
  · next heq => rw [TokenKind.keyword.inj heq] at hword; exact absurd hword (by decide)
  · next heq =>
    rw [← TokenKind.keyword.inj heq]
    refine reads_ahead fun ts hts => ?_
    obtain ⟨rule, hrule, hreads⟩ := h ts hts
    rw [hrule, show t.line = line from ht.2]
    exact hreads.last reads_pure
  · next heq => exact absurd rfl (heq word)

theorem reads_statementRule (h : s.WritableHere) (hb : Stops behind)
    (hbody : ∀ body ∈ s.bodies, ∀ what ks, Reads (b what) (blockSlots body) body ks) :
    Reads (statementRule b) s.slots s behind := by
  cases s with
  | branch line c thenBody elseBody =>
    have hslots : (Statement.branch line c thenBody elseBody).slots =
        (.opening .if_ line :: (c.slots ++ blockSlots thenBody)) ++
          Statement.elseSlots elseBody := by
      simp [Statement.slots, blockSlots]
    rw [hslots]
    refine reads_current fun t ht => ?_
    rw [show t.kind = .keyword .if_ from ht]
    exact reads_branchStatement h hbody (hb.avoids.mono (by simp [joints]))
  | repeat_ line times body =>
    rw [Statement.slots]
    refine reads_current fun t ht => ?_
    rw [show t.kind = .keyword .repeat_ from ht]
    have he := h.expressions times (by simp [Statement.expressions])
    exact reads_repeatStatement he (hbody body (by simp [Statement.bodies]) "REPEAT" _)
  | forEach line item collection body =>
    rw [Statement.slots]
    refine reads_current fun t ht => ?_
    rw [show t.kind = .keyword .for_ from ht]
    exact reads_forEachStatement (h.binds item rfl) (hbody body (by simp [Statement.bodies]))
  | step line s =>
    rw [Statement.slots]
    exact reads_stepStatement (keyword_step s).2 fun ts hts => reads_stepRule h hb hts

/-- The statement around is the same afterwards. -/
theorem reads_statementWith (h : Reads (statementRule b) xs s behind) :
    Reads (statementWith b) xs s behind := by
  intro ts rest st hts hrest hlast hs
  have hrule := h ts rest
    { st with opened := some ⟨Text.upper st.current.value, st.current.line⟩ } hts hrest hlast hs
  show EStateM.bind (statementRule b) _ _ = _
  unfold EStateM.bind
  rw [hrule]
  rfl

theorem reads_blockMember (h : Reads (statementRule b) xs s behind) :
    Reads (blockMember b) xs (some s) behind := by
  intro ts rest st hts hrest hlast hs
  exact reads_recovering (reads_tryCatch (reads_statementWith h)) ts rest st hts hrest hlast hs

end

/-! ## Nesting -/

theorem length_blockSlots (body : List Statement) :
    (blockSlots body).length = (body.flatMap Statement.slots).length + 2 := by
  simp [blockSlots, Statement.slotsAll_eq]

theorem length_le_of_mem (h : s ∈ body) :
    s.slots.length ≤ (body.flatMap Statement.slots).length := by
  obtain ⟨front, back, rfl⟩ := List.append_of_mem h
  simp only [List.flatMap_append, List.flatMap_cons, List.length_append]
  omega

theorem startsDeclaration_of_startsStatement {word : Keyword} (h : word.startsStatement = true) :
    word.startsDeclaration = false := by
  unfold Keyword.startsDeclaration
  split
  · cases h
  · cases h
  · cases h
  · rfl

theorem length_body_lt (h : body ∈ s.bodies) : (blockSlots body).length < s.slots.length := by
  cases s with
  | step => cases h
  | branch line c thenBody elseBody =>
    simp only [Statement.bodies, List.mem_cons, List.not_mem_nil, or_false] at h
    rcases h with rfl | rfl
    · simp only [Statement.slots, blockSlots, List.length_cons, List.length_append, List.length_nil]
      omega
    · cases body with
      | nil =>
        simp only [Statement.slots, blockSlots, Statement.slotsAll, List.length_cons,
          List.length_append, List.length_nil]
        omega
      | cons s rest =>
        rw [Statement.slots, Statement.elseSlots_cons]
        simp only [List.length_cons, List.length_append]
        omega
  | repeat_ | forEach =>
    simp only [Statement.bodies, List.mem_singleton] at h
    subst h
    simp only [Statement.slots, blockSlots, List.length_cons, List.length_append, List.length_nil]
    omega

theorem reads_nestedBlock (n : Nat) (body : List Statement) (hn : (blockSlots body).length ≤ n)
    (h : ∀ s ∈ body, s.Writable) (what : String) (behind : List TokenKind) :
    Reads (nestedBlock n what) (blockSlots body) body behind := by
  induction n generalizing body what behind with
  | zero => rw [length_blockSlots] at hn; omega
  | succ n ih =>
    have hslots : blockSlots body = .sign .lbrace ::
        ((body.map some).flatMap (fun o => o.elim [] Statement.slots) ++ [.sign .rbrace]) := by
      simp [blockSlots, Statement.slotsAll_eq, List.flatMap_map]
    rw [hslots]
    -- in front of each member and of the closing brace a statement can end
    refine Reads.last (reads_braced Stops (body.map some) ?_ (.inl rfl) ?_ ?_) ?_
    · intro o ho
      obtain ⟨s, -, rfl⟩ := List.mem_map.1 ho
      obtain ⟨word, xs, hs, hw, -⟩ := exists_slots s
      refine ⟨.keyword word, kinds xs, by rw [Option.elim_some, hs]; rfl, by simp, ?_⟩
      exact startsDeclaration_of_startsStatement hw
    · intro o ho ks hks
      obtain ⟨s, -, rfl⟩ := List.mem_map.1 ho
      exact stops_statement s hks
    · intro o ho ks hks
      obtain ⟨s, hs, rfl⟩ := List.mem_map.1 ho
      refine reads_blockMember (reads_statementRule (h s hs).here hks ?_)
      intro inner hinner what ks'
      -- the blocks inside a member are shorter than this one, so there is room for them
      have hlt := length_body_lt hinner
      have hle := length_le_of_mem hs
      rw [length_blockSlots] at hn
      exact ih inner (by omega) (fun t ht => (h s hs).inside hinner ht) what ks'
    · have hbody : (body.map some).filterMap id = body := by simp
      rw [hbody]
      exact reads_pure

theorem reads_block (h : ∀ s ∈ body, s.Writable) (what : String) (behind : List TokenKind) :
    Reads (block what) (blockSlots body) body behind := by
  refine reads_ahead fun ts hts => reads_nestedBlock _ body ?_ h what behind
  have hl := congrArg List.length hts
  simp only [kinds, List.length_map, List.length_append] at hl
  omega

theorem reads_statement (h : s.Writable) (hb : Stops behind) :
    Reads statement s.slots s behind := by
  refine reads_statementWith (reads_statementRule h.here hb fun body hm what ks => ?_)
  exact reads_block (fun t ht => h.inside hm ht) what ks

/-! ## Tokens of a script -/

/-- The tokens that are read: all but comments. -/
def readable (tokens : List Token) : List Token :=
  tokens.filter (·.kind != .comment)

/-- A statement can end in front of these tokens: at a brace that closes a block, at the end of the
script, or at a word that starts a statement and has no dot behind it. -/
def CanEnd : List Token → Prop
  | [] => False
  | t :: rest =>
    t.kind = .rbrace ∨ t.kind = .eof ∨
      t.kind.startsStatement = true ∧ (readable rest).head?.map Token.kind ≠ some .dot

instance : (rest : List Token) → Decidable (CanEnd rest)
  | [] => inferInstanceAs (Decidable False)
  | _ :: _ => inferInstanceAs (Decidable (_ ∨ _ ∨ _ ∧ _))

theorem last_ofTokens (tokens : List Token) : (State.ofTokens tokens).last.kind = .eof := by
  unfold State.ofTokens
  dsimp only
  split
  · next t h => simpa using List.find?_some h
  · rfl

theorem ofTokens_append (hts : ∀ t ∈ ts, t.kind ≠ .comment ∧ t.kind ≠ .eof)
    (hrest : readable rest ≠ []) :
    State.ofTokens (ts ++ rest) =
      { State.ofTokens rest with ahead := ts ++ (State.ofTokens rest).ahead } := by
  have hkept : (ts ++ rest).filter (·.kind != .comment) = ts ++ readable rest := by
    rw [List.filter_append, List.filter_eq_self.2 fun t ht => bne_iff_ne.2 (hts t ht).1, readable]
  have hfind : (ts ++ readable rest).find? (·.kind == .eof) =
      (readable rest).find? (·.kind == .eof) := by
    have hnone : ts.find? (·.kind == .eof) = none :=
      List.find?_eq_none.2 fun t ht h => (hts t ht).2 (beq_iff_eq.1 h)
    rw [List.find?_append, hnone, Option.none_or]
  have hlast : (ts ++ readable rest).getLast? = (readable rest).getLast? := by
    rw [List.getLast?_append_of_ne_nil _ hrest]
  have htake : (ts ++ readable rest).takeWhile (·.kind != .eof) =
      ts ++ (readable rest).takeWhile (·.kind != .eof) :=
    List.takeWhile_append_of_pos fun t ht => bne_iff_ne.2 (hts t ht).2
  unfold State.ofTokens
  dsimp only
  rw [hkept, hfind, hlast, htake]
  rfl

theorem CanEnd.readable_cons {t : Token} (h : CanEnd (t :: rest)) :
    readable (t :: rest) = t :: readable rest := by
  have ht : t.kind ≠ .comment := by
    intro hk
    rcases h with h | h | ⟨h, -⟩ <;> rw [hk] at h <;> cases h
  simp [readable, ht]

theorem CanEnd.readable_ne_nil (h : CanEnd rest) : readable rest ≠ [] := by
  cases rest with
  | nil => exact h.elim
  | cons t rest =>
    rw [h.readable_cons]
    exact List.cons_ne_nil _ _

theorem CanEnd.stops (h : CanEnd rest) : Stops ((State.ofTokens rest).ahead.map Token.kind) := by
  cases rest with
  | nil => exact h.elim
  | cons t rest =>
    show Stops (((readable (t :: rest)).takeWhile (·.kind != .eof)).map Token.kind)
    rw [h.readable_cons]
    by_cases ht : t.kind = .eof
    · rw [List.takeWhile_cons_of_neg (by simp [ht])]
      trivial
    · rw [List.takeWhile_cons_of_pos (by simp [ht])]
      rcases h with h | h | ⟨h, hdot⟩
      · exact .inl h
      · exact absurd h ht
      · refine .inr ⟨h, ?_⟩
        cases hr : readable rest with
        | nil => exact nofun
        | cons u us =>
          rw [hr] at hdot
          rw [List.takeWhile_cons]
          split
          · exact hdot
          · exact nofun

theorem ofTokens_of_fills (hts : List.Forall₂ Token.Fills ts xs) (hrest : CanEnd rest) :
    State.ofTokens (ts ++ rest) =
      { State.ofTokens rest with ahead := ts ++ (State.ofTokens rest).ahead } := by
  refine ofTokens_append (fun t ht => ?_) hrest.readable_ne_nil
  have hk : t.kind ∈ kinds xs := by
    rw [← kinds_of_fills hts]; exact List.mem_map_of_mem ht
  obtain ⟨x, -, hx⟩ := List.mem_map.1 hk
  rw [← hx]
  exact x.kind_ne

/-- What is read wherever a statement can end is read in front of the further tokens of a script. -/
theorem statement_ofTokens (h : ∀ ks, Stops ks → Reads statement xs s ks)
    (hts : List.Forall₂ Token.Fills ts xs) (hrest : CanEnd rest) :
    statement (State.ofTokens (ts ++ rest)) = .ok s (State.ofTokens rest) := by
  rw [ofTokens_of_fills hts hrest]
  exact h _ hrest.stops ts _ _ hts rfl (last_ofTokens rest) rfl

/-- Whatever statement can be written, its tokens are read back as the statement, up to the last of
them and no further: what is left is what reading would start with behind them. -/
theorem statement_reads_back {s : Statement} (hs : s.Writable) {ts rest : List Token}
    (hts : List.Forall₂ Token.Fills ts s.slots) (hrest : CanEnd rest) :
    statement (State.ofTokens (ts ++ rest)) = .ok s (State.ofTokens rest) :=
  statement_ofTokens (fun _ hks => reads_statement hs hks) hts hrest

/-- A statement with a block inside a block, and keywords as names. -/
def nestedStatement : Statement :=
  .branch 1 (.truthy ⟨.flag true, []⟩)
    [.step 2 (.verify (.text (.element (some "url") "row") true true
      ⟨.text "a", [.number ⟨false, 15, 1, by decide, by decide⟩]⟩)),
    .step 3 (.switchToNewTab none)]
    [.repeat_ 4 ⟨.env "n", []⟩ [.step 4 .refresh]]

/-- The tokens of the statement, in front of another one. -/
def nestedTokens : List Token :=
  [(.keyword .if_, "IF", 1), (.keyword .true_, "TRUE", 1), (.lbrace, "\x7b", 1),
    (.keyword .verify, "VERIFY", 2), (.keyword .url, "url", 2), (.dot, ".", 2),
    (.keyword .row, "row", 2), (.keyword .not, "NOT", 2), (.keyword .contains, "CONTAINS", 2),
    (.keyword .text, "TEXT", 2), (.text, "a", 2), (.plus, "+", 2), (.number, "1.5", 2),
    (.keyword .switch, "SWITCH", 3), (.keyword .to_, "TO", 3), (.keyword .new, "NEW", 3),
    (.keyword .tab, "TAB", 3), (.rbrace, "\x7d", 4), (.keyword .else_, "ELSE", 4),
    (.lbrace, "\x7b", 4), (.keyword .repeat_, "REPEAT", 4), (.env, "n", 4),
    (.keyword .times, "TIMES", 4), (.lbrace, "\x7b", 4), (.keyword .refresh, "REFRESH", 4),
    (.rbrace, "\x7d", 4), (.rbrace, "\x7d", 4), (.keyword .refresh, "REFRESH", 5),
    (.eof, "", 5)].map fun (kind, value, line) => ⟨kind, value, ⟨line, 1⟩⟩

theorem statement_reads_back_nested :
    nestedStatement.Writable ∧ CanEnd (nestedTokens.drop 27) ∧
    statement (State.ofTokens nestedTokens) =
      .ok nestedStatement (State.ofTokens (nestedTokens.drop 27)) := by
  have hs : nestedStatement.Writable := by decide +kernel
  have hrest : CanEnd (nestedTokens.drop 27) := by decide
  have hfills : ∀ p ∈ (nestedTokens.take 27).zip nestedStatement.slots, p.1.Fills p.2 := by
    decide +kernel
  have hts : List.Forall₂ Token.Fills (nestedTokens.take 27) nestedStatement.slots :=
    List.forall₂_iff_zip.2 ⟨rfl, fun h => hfills _ h⟩
  have hread := statement_reads_back hs hts hrest
  rw [List.take_append_drop] at hread
  exact ⟨hs, hrest, hread⟩

end UiScenario.Grammar
