import UiScenario.Proofs.Gathering

/-!
The names of a program that is read from tokens. Whatever holds of every word among the tokens holds
of every name that the program mentions, and whatever holds of every word that can stand alone holds
of every name that it binds; and no statement is without an element that it needs, nor does it
compute a selector.
-/

namespace UiScenario

/-! ## Names of statements -/

/-- The variables and pages that the references of a value start with. -/
def Expression.names (e : Expression) : List String :=
  e.references.map fun r => r.1.getD r.2

/-- The pages that a target names, and the variables and pages in its selector. -/
def Target.names : Target → List String
  | element page _ => page.toList
  | selector e => e.names
  | unset => []

/-- A target is there, and its selector, if it has one, is written out. -/
def Target.Plain : Target → Prop
  | element _ _ => True
  | selector e => ∃ s : PlainSelector, e = s.expression
  | unset => False

/-- The variables, pages and libraries that a step mentions. -/
def Step.names (s : Step) : List String :=
  s.targets.flatMap Target.names ++ s.expressions.flatMap Expression.names ++ s.owner?.toList

/-- The variables, pages and libraries that a statement mentions itself. -/
def Statement.names : Statement → List String
  | step _ s => s.names
  | branch _ (.state target _ _) _ _ => target.names
  | branch _ (.comparison left _ right) _ _ => left.names ++ right.names
  | branch _ (.truthy value) _ _ => value.names
  | repeat_ _ times _ => times.names
  | forEach _ _ collection _ => [collection]

section
variable (N B : String → Prop)

/-- An expression mentions only names with a property. -/
def Expression.Spelled (e : Expression) : Prop :=
  ∀ n ∈ e.names, N n

/-- A target is plain and mentions only names with a property. -/
def Target.Spelled (t : Target) : Prop :=
  t.Plain ∧ ∀ n ∈ t.names, N n

/-- A statement has its elements, and the names that it mentions and binds have the properties. -/
structure Statement.Spelled (s : Statement) : Prop where
  targets : ∀ t ∈ s.targets, t.Plain
  names : ∀ n ∈ s.names, N n
  binds : ∀ n, s.binds? = some n → B n

/-- A body consists of such statements. -/
def BodySpelled (body : List Statement) : Prop :=
  ∀ s ∈ Statement.flattenAll body, s.Spelled N B

/-- An action binds names with the one property, and its body is spelled. -/
structure Action.Spelled (a : Action) : Prop where
  parameters : ∀ n ∈ a.parameters, B n
  body : BodySpelled N B a.body

/-- A program has its elements, and the names that it mentions and binds have the properties. -/
structure Program.Spelled (p : Program) : Prop where
  pages : ∀ page ∈ p.pages, N page.name ∧ ∀ a ∈ page.actions, a.Spelled N B
  libraries : ∀ l ∈ p.libraries, (∀ q, l.forPage = some q → N q) ∧ ∀ a ∈ l.actions, a.Spelled N B
  uses : ∀ f ∈ p.features, ∀ u ∈ f.uses, N u.name
  hooks : ∀ f ∈ p.features, ∀ h ∈ f.hooks, BodySpelled N B h.body
  scenarios : ∀ f ∈ p.features, ∀ s ∈ f.scenarios, BodySpelled N B s.body

end

/-- A word has the one property, and a word that can stand alone the other. -/
def Token.Spelled (N B : String → Prop) (t : Token) : Prop :=
  (t.isWord = true → N t.value) ∧ (t.kind.isBareName = true → B t.value)

namespace Grammar

open UiScenario.Grammar.Parser

section
variable {N B : String → Prop}

/-- The invariant of reading: the words ahead have the properties. -/
abbrev Spelling (N B : String → Prop) : State → Prop :=
  Ahead (Token.Spelled N B)

theorem spelled_expression : Yields (Spelling N B) expression (Expression.Spelled N) := by
  refine (yields_expression (R := fun r => N (r.1.getD r.2)) (fun _ _ hq hw _ _ => hq.1 hw)
    fun _ ht hw => ht.1 hw).mono fun e he n hn => ?_
  obtain ⟨r, hr, rfl⟩ := List.mem_map.1 hn
  exact he r hr

theorem spelled_target : Yields (Spelling N B) target (Target.Spelled N) := by
  refine yields_target (fun s => ⟨⟨s, rfl⟩, ?_⟩) (fun q _ hq hw _ _ => ⟨trivial, ?_⟩)
    fun t _ _ => ⟨trivial, ?_⟩
  · cases s <;> exact List.forall_mem_nil _
  · simp [Target.names, hq.1 hw]
  · simp [Target.names]

theorem spelled_of_elementOf? {e : Expression} {t : Target} (he : e.Spelled N)
    (h : elementOf? e = some t) : t.Spelled N := by
  unfold elementOf? at h
  split at h <;> cases h
  · next value => exact ⟨⟨.text value, rfl⟩, fun _ hn => nomatch hn⟩
  · next name => exact ⟨⟨.env name, rfl⟩, fun _ hn => nomatch hn⟩
  · next qualifier name =>
    refine ⟨trivial, fun n hn => he n ?_⟩
    cases qualifier with
    | none => simp [Target.names] at hn
    | some q =>
      have : n = q := by simpa [Target.names] using hn
      simp [this, Expression.names, Expression.references, Expression.parts, Primary.reference?]

end

/-- What values and elements mention has the one property, and what is bound has the other. -/
def spelling (N B : String → Prop) : Traits where
  value := Expression.Spelled N
  target := Target.Spelled N
  name := N
  binding := B

theorem gathers_spelling (N B : String → Prop) : Gathers (Token.Spelled N B) (spelling N B) where
  expression := spelled_expression
  target := spelled_target
  word := fun _ ht hw => ht.1 hw
  bare := fun _ ht hb => ht.2 hb
  element := fun _ _ => spelled_of_elementOf?

end Grammar

section
variable {N B : String → Prop}

theorem Statement.Has.spelled {s : Statement} (h : s.Has (Grammar.spelling N B)) :
    s.Spelled N B where
  targets := fun t ht => (h.targets t ht).1
  names := by
    have ht : ∀ n ∈ s.targets.flatMap Target.names, N n := fun n hn =>
      have ⟨t, hm, hn⟩ := List.mem_flatMap.1 hn
      (h.targets t hm).2 n hn
    have he : ∀ n ∈ s.expressions.flatMap Expression.names, N n := fun n hn =>
      have ⟨e, hm, hn⟩ := List.mem_flatMap.1 hn
      h.values e hm n hn
    intro n hn
    cases s with
    | step line s =>
      rcases List.mem_append.1 hn with hn | hn
      · exact (List.mem_append.1 hn).elim (ht n) (he n)
      · exact h.mentions n hn
    | branch line c thenBody elseBody =>
      cases c with
      | state target negated state =>
        exact ht n (by simpa [Statement.targets, Statement.names] using hn)
      | comparison left op right =>
        exact he n (by simpa [Statement.expressions, Statement.names] using hn)
      | truthy value =>
        exact he n (by simpa [Statement.expressions, Statement.names] using hn)
    | repeat_ line times body =>
      exact he n (by simpa [Statement.expressions, Statement.names] using hn)
    | forEach line item collection body => exact h.mentions n hn
  binds := h.binds

theorem BodyHas.spelled {body : List Statement} (h : BodyHas (Grammar.spelling N B) body) :
    BodySpelled N B body :=
  fun s hs => (h s hs).spelled

theorem Action.Has.spelled {a : Action} (h : a.Has (Grammar.spelling N B)) : a.Spelled N B :=
  ⟨h.parameters, h.body.spelled⟩

theorem Program.Has.spelled {p : Program} (h : p.Has (Grammar.spelling N B)) :
    p.Spelled N B where
  pages := fun page hp => ⟨(h.pages page hp).name, fun a ha =>
    ((h.pages page hp).actions a ha).spelled⟩
  libraries := fun l hl => ⟨(h.libraries l hl).forPage, fun a ha =>
    ((h.libraries l hl).actions a ha).spelled⟩
  uses := fun f hf => (h.features f hf).uses
  hooks := fun f hf x hx => ((h.features f hf).hooks x hx).spelled
  scenarios := fun f hf x hx => ((h.features f hf).scenarios x hx).spelled

end

/-- **Names of programs**: what holds of the words that are read holds of the names of the program.
-/
theorem spelled_parse {N B : String → Prop} {tokens : List Token}
    (h : ∀ t ∈ tokens, t.Spelled N B) : (parse tokens).program.Spelled N B := by
  refine (has_parse (Grammar.gathers_spelling N B) (fun t ht => ?_) h).spelled
  constructor <;> intro hw <;> simp_all [Token.isWord, TokenKind.isWord, TokenKind.isBareName]

/-! ## Words of a script -/

/-- If a lexeme is a word, it has only the characters of words, and it is the keyword that it
    spells or else an identifier. -/
def Lexeme.IsWordLike : Lexeme → Prop
  | token kind value => kind.isWord = true →
      (∀ c ∈ value.toList, isWordChar c = true) ∧
      kind = (Keyword.ofWord? value).elim .identifier .keyword
  | fault _ => True

namespace Lexeme

theorem isWordLike_sign? {c : Char} {cs : List Char} {found : Cut} (h : sign? c cs = some found) :
    found.lexeme.IsWordLike := by
  have hs : ∀ {k : TokenKind}, singleSign? c = some k → k.isWord = false := by
    intro k hk
    unfold singleSign? at hk
    split at hk <;> cases hk <;> rfl
  have hd : ∀ {d : Char} {k : TokenKind}, doubleSign? c d = some k → k.isWord = false := by
    intro d k hk
    unfold doubleSign? at hk
    split at hk <;> cases hk <;> rfl
  unfold sign? at h
  split at h
  · split at h
    · next hk => cases h; intro hw; rw [hd hk] at hw; cases hw
    · obtain ⟨k, hk, rfl⟩ := Option.map_eq_some_iff.1 h
      intro hw; rw [hs hk] at hw; cases hw
  · obtain ⟨k, hk, rfl⟩ := Option.map_eq_some_iff.1 h
    intro hw; rw [hs hk] at hw; cases hw

theorem isWordLike_number (sign cs : List Char) : (number sign cs).lexeme.IsWordLike := by
  unfold number
  dsimp only
  split
  · split
    · trivial
    · exact nofun
  · exact nofun

theorem isWordLike_word (cs : List Char) : (word cs).lexeme.IsWordLike := by
  intro _
  refine ⟨fun c hc => ?_, ?_⟩
  · rw [String.toList_ofList] at hc
    exact List.all_eq_true.1 List.all_takeWhile c hc
  · cases Keyword.ofWord? (String.ofList (cs.takeWhile isWordChar)) <;> rfl

theorem isWordLike_cut (c : Char) (cs : List Char) : (cut c cs).lexeme.IsWordLike := by
  unfold cut
  split
  · exact nofun
  split
  · unfold quoted
    dsimp only
    split
    · exact nofun
    · trivial
  split
  · unfold env
    dsimp only
    split
    · trivial
    · exact nofun
  split
  · next h => exact isWordLike_sign? h
  split
  · exact nofun
  split
  · exact isWordLike_number _ _
  split
  · exact isWordLike_number _ _
  split
  · exact isWordLike_word _
  · trivial

end Lexeme

theorem isWordLike_of_mem_scan (pos : Position) (cs : List Char) :
    ∀ x ∈ (scan pos cs).1, x.2.IsWordLike := by
  fun_induction scan pos cs with
  | case1 pos => simp
  | case2 pos c cs hb ih => exact ih
  | case3 pos c cs hb cut found last heq ih =>
    rw [heq] at ih
    intro x hx
    rcases List.mem_cons.1 hx with rfl | hx
    · exact Lexeme.isWordLike_cut c cs
    · exact ih x hx

/-- A word of a script has only the characters of words, and it is the keyword that it spells or
    else an identifier. -/
theorem isWord_tokenize {source : String} {t : Token} (ht : t ∈ (tokenize source).tokens)
    (hw : t.isWord = true) :
    (∀ c ∈ t.value.toList, Lexeme.isWordChar c = true) ∧
    t.kind = (Keyword.ofWord? t.value).elim .identifier .keyword := by
  rcases List.mem_append.1 ht with ht | ht
  · obtain ⟨⟨pos, l⟩, hx, hl⟩ := List.mem_filterMap.1 ht
    have hword := isWordLike_of_mem_scan _ _ _ hx
    cases l with
    | token kind value => cases hl; exact hword hw
    | fault f => cases hl
  · obtain rfl := List.mem_singleton.1 ht
    cases hw

/-- No name of a script has a dollar sign, and no name that it binds is that of the page. -/
theorem spelled_parseText (source : String) :
    (parseText source).program.Spelled (fun n => '$' ∉ n.toList)
      (fun n => '$' ∉ n.toList ∧ n ≠ "page") := by
  have hd : Lexeme.isWordChar '$' = false := by decide +kernel
  have hp : Keyword.ofWord? "page" = some .page := by decide
  refine spelled_parse fun t ht => ?_
  have hchars : t.isWord = true → '$' ∉ t.value.toList := by
    intro hw hm
    have := (isWord_tokenize ht hw).1 _ hm
    rw [hd] at this; cases this
  refine ⟨hchars, fun hb => ⟨hchars (isWord_of_isBareName hb), fun e => ?_⟩⟩
  have hk := (isWord_tokenize ht (isWord_of_isBareName hb)).2
  rw [e, hp] at hk
  rw [hk] at hb
  cases hb

end UiScenario
