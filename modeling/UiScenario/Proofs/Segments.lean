import Mathlib.Data.List.TakeWhile
import UiScenario.Proofs.Lines

/-!
Every character of a script is accounted for. A script is made of stretches of blanks and segments
in turn; each segment is one token or one fault, and its place is the place of its first character.
-/

namespace UiScenario

/-! ## Places -/

/-- The place behind the characters at the front of a script. -/
def placeBehind (cs : List Char) : Position :=
  ⟨1 + cs.count '\n', 1 + (cs.reverse.takeWhile (· ≠ '\n')).length⟩

theorem placeBehind_concat (cs : List Char) (c : Char) :
    placeBehind (cs ++ [c]) = (placeBehind cs).next c := by
  unfold placeBehind Position.next
  rw [List.count_append, List.reverse_append]
  by_cases hc : c = '\n'
  · subst hc
    simp only [List.count_singleton_self, List.reverse_singleton, List.singleton_append, ↓reduceIte,
      Position.mk.injEq]
    exact ⟨by omega, by simp⟩
  · simp only [List.reverse_singleton, List.singleton_append, hc, ↓reduceIte, Position.mk.injEq]
    refine ⟨by simp [hc], ?_⟩
    rw [List.takeWhile_cons, if_pos (by simpa using hc), List.length_cons]; omega

theorem placeBehind_append (cs ds : List Char) :
    placeBehind (cs ++ ds) = (placeBehind cs).after ds := by
  induction ds generalizing cs with
  | nil => rw [List.append_nil, Position.after_nil]
  | cons d ds ih =>
    rw [List.append_cons, ih, placeBehind_concat, Position.after_cons]

def TokenKind.ofWord (word : String) : TokenKind :=
  (Keyword.ofWord? word).elim .identifier .keyword

namespace Lexeme

variable {cs segment rest : List Char} {c d quote : Char} {kind : TokenKind} {p : Char → Bool}

/-! ## Forms of lexemes -/

/-- The characters that are written with a backslash in quoted texts. -/
def escapes : List (Char × Char) :=
  [('n', '\n'), ('t', '\t'), ('\\', '\\'), ('"', '"'), ('\'', '\'')]

/-- What the inside of a quoted text stands for. A backslash in front of a character that has no
    escape stands for itself. -/
inductive StandsFor (quote : Char) : List Char → List Char → Prop
  | nil : StandsFor quote [] []
  | plain {c : Char} {cs text : List Char} (hq : c ≠ quote) (hb : c ≠ '\\') (hn : c ≠ '\n')
      (h : StandsFor quote cs text) : StandsFor quote (c :: cs) (c :: text)
  | escape {c d : Char} {cs text : List Char} (he : (c, d) ∈ escapes)
      (h : StandsFor quote cs text) : StandsFor quote ('\\' :: c :: cs) (d :: text)
  | backslash {c : Char} {cs text : List Char} (he : c ∉ escapes.map (·.1)) (hn : c ≠ '\n')
      (h : StandsFor quote cs text) : StandsFor quote ('\\' :: c :: cs) ('\\' :: c :: text)

/-- The line ends in front of a text. -/
def LineEnds (rest : List Char) : Prop :=
  rest = [] ∨ rest.head? = some '\n'

/-- A text does not go on with a character of a class. -/
def StopsAt (p : Char → Bool) (rest : List Char) : Prop :=
  ∀ c ∈ rest.head?, p c = false

/-- `value` is `cs` without the blanks at its end. -/
def TrimmedRight (cs value : List Char) : Prop :=
  (∃ blanks, cs = value ++ blanks ∧ ∀ c ∈ blanks, Text.isBlank c = true) ∧
    ∀ c ∈ value.getLast?, Text.isBlank c = false

/-- `value` is `cs` without the blanks at both ends. -/
def Trimmed (cs value : List Char) : Prop :=
  ∃ blanks more, cs = blanks ++ more ∧ (∀ c ∈ blanks, Text.isBlank c = true) ∧
    (∀ c ∈ more.head?, Text.isBlank c = false) ∧ TrimmedRight more value

def IsDigits (cs : List Char) : Prop :=
  cs ≠ [] ∧ ∀ c ∈ cs, c.isDigit = true

def signs : List (List Char × TokenKind) :=
  [(['\x7b'], .lbrace), (['\x7d'], .rbrace), (['('], .lparen), ([')'], .rparen), ([','], .comma),
    (['.'], .dot), (['+'], .plus), (['='], .equals), (['>'], .gt), (['<'], .lt),
    (['=', '='], .eqEq), (['!', '='], .notEq), (['>', '='], .gtEq), (['<', '='], .ltEq)]

/-- A character with which no token begins, in front of a text. -/
structure Unexpected (c : Char) (rest : List Char) : Prop where
  blank : Text.isBlank c = false
  word : Text.isAlphabetic c = false ∧ c ≠ '_'
  digit : c.isDigit = false
  quote : c ≠ '"' ∧ c ≠ '\'' ∧ c ≠ '#'
  sign : [c] ∉ signs.map (·.1)
  notEq : c = '!' → rest.head? ≠ some '='
  comment : c = '/' → rest.head? ≠ some '/'
  tag : c = '@' → StopsAt isWordChar rest
  number : c = '-' → StopsAt Char.isDigit rest

/-- Segments in front of a text, and what they are. -/
inductive Form : List Char → Lexeme → List Char → Prop
  | word {c : Char} {cs rest : List Char} (first : Text.isAlphabetic c = true ∨ c = '_')
      (chars : ∀ d ∈ cs, isWordChar d = true) (stops : StopsAt isWordChar rest) :
      Form (c :: cs) (.token (.ofWord (String.ofList (c :: cs))) (String.ofList (c :: cs))) rest
  | number {sign whole fraction rest : List Char} (hs : sign = [] ∨ sign = ['-'])
      (hw : IsDigits whole) (hf : fraction = [] ∨ ∃ ds, fraction = '.' :: ds ∧ IsDigits ds)
      (stops : StopsAt Char.isDigit rest)
      (point : ∀ more, rest = '.' :: more → StopsAt Char.isDigit more) :
      Form (sign ++ whole ++ fraction)
        (.token .number (String.ofList (sign ++ whole ++ fraction))) rest
  /-- A number with two points is a fault that carries its text. -/
  | invalidNumber {sign whole fraction more rest : List Char} {d : Char}
      (hs : sign = [] ∨ sign = ['-']) (hw : IsDigits whole) (hf : IsDigits fraction)
      (hd : d.isDigit = true) (hm : ∀ c ∈ more, c.isDigit = true ∨ c = '.')
      (stops : StopsAt (fun c => c.isDigit || c = '.') rest) :
      Form (sign ++ whole ++ '.' :: fraction ++ '.' :: d :: more)
        (.fault (.invalidNumber
          (String.ofList (sign ++ whole ++ '.' :: fraction ++ '.' :: d :: more)))) rest
  /-- A sign carries its text; no longer sign stands there. -/
  | sign {cs rest : List Char} {kind : TokenKind} (hs : (cs, kind) ∈ signs)
      (stops : ∀ c ∈ rest.head?, cs ++ [c] ∉ signs.map (·.1) ∧ cs ++ [c] ≠ ['\x7b', '\x7b']) :
      Form cs (.token kind (String.ofList cs)) rest
  /-- A comment carries its text without the blanks at its end. -/
  | comment {cs value rest : List Char} (start : ['#'] <+: cs ∨ ['/', '/'] <+: cs)
      (line : '\n' ∉ cs) (ends : LineEnds rest) (trimmed : TrimmedRight cs value) :
      Form cs (.token .comment (String.ofList value)) rest
  | tag {c : Char} {cs rest : List Char} (first : isWordChar c = true)
      (chars : ∀ d ∈ cs, isTagChar d = true) (stops : StopsAt isTagChar rest) :
      Form ('@' :: c :: cs) (.token .tag (String.ofList (c :: cs))) rest
  /-- A reference carries what stands between the braces, without the blanks around it. It ends at
      the first two closing braces. -/
  | env {name value rest : List Char} (line : '\n' ∉ name)
      (first : ¬['\x7d', '\x7d'] <:+: name ++ ['\x7d']) (trimmed : Trimmed name value) :
      Form ('\x7b' :: '\x7b' :: (name ++ ['\x7d', '\x7d'])) (.token .env (String.ofList value)) rest
  /-- A quoted text carries what its inside stands for. -/
  | text {quote : Char} {inside value rest : List Char} (hq : quote = '"' ∨ quote = '\'')
      (h : StandsFor quote inside value) :
      Form (quote :: (inside ++ [quote])) (.token .text (String.ofList value)) rest
  /-- A quoted text that the line ends, perhaps behind a backslash. -/
  | unterminatedString {quote : Char} {inside value last rest : List Char}
      (hq : quote = '"' ∨ quote = '\'') (h : StandsFor quote inside value)
      (hl : last = [] ∨ last = ['\\']) (ends : LineEnds rest) :
      Form (quote :: (inside ++ last)) (.fault .unterminatedString) rest
  /-- A reference that the line ends. -/
  | unterminatedEnv {name rest : List Char} (line : '\n' ∉ name)
      (first : ¬['\x7d', '\x7d'] <:+: name) (ends : LineEnds rest) :
      Form ('\x7b' :: '\x7b' :: name) (.fault .unterminatedEnv) rest
  | unexpected {c : Char} {rest : List Char} (h : Unexpected c rest) :
      Form [c] (.fault (.unexpectedCharacter c)) rest

/-! ## Ends of segments -/

theorem stopsAt_dropWhile (p : Char → Bool) (cs : List Char) : StopsAt p (cs.dropWhile p) := by
  intro c hc
  have h := List.head?_dropWhile_not p cs
  rw [Option.mem_def.1 hc] at h
  simpa using h

theorem lineEnds_dropWhile (cs : List Char) : LineEnds (cs.dropWhile (· ≠ '\n')) := by
  have h := stopsAt_dropWhile (· ≠ '\n') cs
  unfold LineEnds
  cases hd : cs.dropWhile (· ≠ '\n') with
  | nil => exact Or.inl rfl
  | cons c rest =>
    rw [hd] at h
    have := h c rfl
    right
    simpa using this

theorem trimmedRight_trimRight (cs : List Char) : TrimmedRight cs (Text.trimRight cs) := by
  unfold Text.trimRight
  refine ⟨⟨(cs.reverse.takeWhile Text.isBlank).reverse, ?_, ?_⟩, ?_⟩
  · rw [← List.reverse_append, List.takeWhile_append_dropWhile, List.reverse_reverse]
  · intro c hc
    exact List.mem_takeWhile_imp (List.mem_reverse.1 hc)
  · intro c hc
    rw [List.getLast?_reverse] at hc
    exact stopsAt_dropWhile Text.isBlank cs.reverse c hc

theorem trimmed_trim (cs : List Char) : Trimmed cs (Text.trim cs) :=
  ⟨cs.takeWhile Text.isBlank, cs.dropWhile Text.isBlank, List.takeWhile_append_dropWhile.symm,
    fun _ hc => List.mem_takeWhile_imp hc, stopsAt_dropWhile Text.isBlank cs,
    trimmedRight_trimRight _⟩

/-! ## The scanners -/

theorem word_eq (cs : List Char) :
    word cs = verbatim (.ofWord (String.ofList (cs.takeWhile isWordChar)))
      (cs.takeWhile isWordChar) (cs.dropWhile isWordChar) := by
  unfold word TokenKind.ofWord
  dsimp only
  cases Keyword.ofWord? (String.ofList (cs.takeWhile isWordChar)) <;> rfl

theorem form_word (hc : Text.isAlphabetic c = true ∨ c = '_') (cs : List Char) :
    Form (word (c :: cs)).segment (word (c :: cs)).lexeme (word (c :: cs)).rest := by
  have hw : isWordChar c = true := by
    rcases hc with hc | rfl
    · simp [isWordChar, Text.isAlphanumeric, hc]
    · simp [isWordChar]
  rw [word_eq, List.takeWhile_cons, if_pos hw, List.dropWhile_cons, if_pos hw]
  exact .word hc (fun d hd => List.mem_takeWhile_imp hd) (stopsAt_dropWhile isWordChar cs)

theorem form_tag (hc : isWordChar c = true) (cs : List Char) :
    Form (tag (c :: cs)).segment (tag (c :: cs)).lexeme (tag (c :: cs)).rest := by
  have ht : isTagChar c = true := by simp [isTagChar, hc]
  unfold tag
  rw [List.takeWhile_cons, if_pos ht, List.dropWhile_cons, if_pos ht]
  exact .tag hc (fun d hd => List.mem_takeWhile_imp hd) (stopsAt_dropWhile isTagChar cs)

theorem form_comment (h : ['#'] <+: cs ∨ ['/', '/'] <+: cs) :
    Form (comment cs).segment (comment cs).lexeme (comment cs).rest := by
  unfold comment
  refine .comment ?_ ?_ (lineEnds_dropWhile cs) (trimmedRight_trimRight _)
  · rcases h with ⟨t, rfl⟩ | ⟨t, rfl⟩
    · left; simp
    · right; simp
  · intro hm
    simpa using List.mem_takeWhile_imp hm

/-! ### Numbers -/

theorem isDigits_takeWhile (h : c.isDigit = true) : IsDigits ((c :: cs).takeWhile Char.isDigit) :=
  ⟨takeWhile_cons_ne_nil h, fun _ hd => List.mem_takeWhile_imp hd⟩

theorem startsFraction_iff :
    startsFraction cs = true ↔ ∃ d more, cs = '.' :: d :: more ∧ d.isDigit = true := by
  unfold startsFraction
  split
  · next d more => simp
  · next h =>
    simp only [Bool.false_eq_true, false_iff, not_exists, not_and]
    rintro d more rfl
    exact absurd rfl (h d more)

theorem stopsAt_of_not_startsFraction (h : ¬startsFraction cs = true) :
    ∀ more, cs = '.' :: more → StopsAt Char.isDigit more := by
  rintro more rfl c hc
  cases more with
  | nil => cases hc
  | cons d more =>
    cases hc
    rw [startsFraction_iff] at h
    cases hd : c.isDigit with
    | false => rfl
    | true => exact absurd ⟨c, more, rfl, hd⟩ h

theorem form_number {sign : List Char} (hs : sign = [] ∨ sign = ['-']) (hc : c.isDigit = true) :
    Form (number sign (c :: cs)).segment (number sign (c :: cs)).lexeme
      (number sign (c :: cs)).rest := by
  have hw : IsDigits ((c :: cs).takeWhile Char.isDigit) := isDigits_takeWhile hc
  have hstop : StopsAt Char.isDigit ((c :: cs).dropWhile Char.isDigit) := stopsAt_dropWhile _ _
  unfold number
  dsimp only
  split
  · next h₁ =>
    obtain ⟨d, more, hr, hd⟩ := startsFraction_iff.1 h₁
    rw [hr, List.tail_cons]
    have hf : IsDigits ((d :: more).takeWhile Char.isDigit) := isDigits_takeWhile hd
    split
    · next h₂ =>
      -- the second point, and the digit behind it, are part of the fault
      obtain ⟨e, tail, ht, he⟩ := startsFraction_iff.1 h₂
      rw [ht]
      have htake : ('.' :: e :: tail).takeWhile (fun c => c.isDigit || c = '.') =
          '.' :: e :: tail.takeWhile (fun c => c.isDigit || c = '.') := by simp [he]
      have hdrop : ('.' :: e :: tail).dropWhile (fun c => c.isDigit || c = '.') =
          tail.dropWhile (fun c => c.isDigit || c = '.') := by simp [he]
      rw [htake, hdrop]
      refine .invalidNumber hs hw hf he (fun x hx => ?_) (stopsAt_dropWhile _ _)
      simpa using List.mem_takeWhile_imp hx
    · next h₂ =>
      exact .number hs hw (Or.inr ⟨_, rfl, hf⟩) (stopsAt_dropWhile _ _)
        (stopsAt_of_not_startsFraction h₂)
  · next h₁ =>
    have h := Form.number hs hw (Or.inl rfl) hstop (stopsAt_of_not_startsFraction h₁)
    rw [List.append_nil] at h
    exact h

/-! ### Quoted texts and references -/

theorem unescape_eq (text : List Char) (hn : c ≠ '\n') (h : StandsFor quote cs text) :
    StandsFor quote ('\\' :: c :: cs) (unescape c ++ text) := by
  unfold unescape
  split
  · exact .escape (by decide) h
  · exact .escape (by decide) h
  · exact .escape (by decide) h
  · exact .escape (by decide) h
  · exact .escape (by decide) h
  · next h₁ h₂ h₃ h₄ h₅ =>
    refine .backslash ?_ hn h
    simp only [escapes, List.map_cons, List.map_nil, List.mem_cons, List.not_mem_nil, or_false,
      not_or]
    exact ⟨h₁, h₂, h₃, h₄, h₅⟩

/-- How the inside of a quoted text ends: at the quote, or at the end of the line. -/
def InsideForm (quote : Char) (used : List Char) (text : Option (List Char)) (rest : List Char) :
    Prop :=
  (∃ inside value, used = inside ++ [quote] ∧ text = some value ∧ StandsFor quote inside value) ∨
  ∃ inside value last, used = inside ++ last ∧ text = none ∧ StandsFor quote inside value ∧
    (last = [] ∨ last = ['\\']) ∧ LineEnds rest

theorem InsideForm.cons {used : List Char} {text : Option (List Char)} (front value₀ : List Char)
    (h : InsideForm quote used text rest)
    (hf : ∀ {cs value : List Char}, StandsFor quote cs value →
      StandsFor quote (front ++ cs) (value₀ ++ value)) :
    InsideForm quote (front ++ used) (text.map (value₀ ++ ·)) rest := by
  rcases h with ⟨inside, value, rfl, rfl, h⟩ | ⟨inside, value, last, rfl, rfl, h, hl, hr⟩
  · exact Or.inl ⟨front ++ inside, value₀ ++ value, by simp, rfl, hf h⟩
  · exact Or.inr ⟨front ++ inside, value₀ ++ value, last, by simp, rfl, hf h, hl, hr⟩

theorem insideForm_quotedBody (quote : Char) (cs : List Char) :
    InsideForm quote (quotedBody quote cs).1 (quotedBody quote cs).2.1
      (quotedBody quote cs).2.2 := by
  fun_induction quotedBody quote cs with
  | case1 => exact Or.inr ⟨[], [], [], rfl, rfl, .nil, Or.inl rfl, Or.inl rfl⟩
  | case2 => exact Or.inr ⟨[], [], ['\\'], rfl, rfl, .nil, Or.inr rfl, Or.inl rfl⟩
  | case3 rest => exact Or.inr ⟨[], [], ['\\'], rfl, rfl, .nil, Or.inr rfl, Or.inr rfl⟩
  | case4 c rest hc used text rest' heq ih =>
    rw [heq] at ih
    exact ih.cons ['\\', c] (unescape c) fun h => unescape_eq _ hc h
  | case5 rest h₁ h₂ => exact Or.inl ⟨[], [], rfl, rfl, .nil⟩
  | case6 rest h₁ h₂ h₃ => exact Or.inr ⟨[], [], [], rfl, rfl, .nil, Or.inl rfl, Or.inr rfl⟩
  | case7 c rest h₁ h₂ h₃ h₄ used text rest' heq ih =>
    rw [heq] at ih
    exact ih.cons [c] [c] fun h => .plain h₃ (ne_backslash h₁ h₂) h₄ h

theorem form_quoted (hq : quote = '"' ∨ quote = '\'') (cs : List Char) :
    Form (quoted quote cs).segment (quoted quote cs).lexeme (quoted quote cs).rest := by
  unfold quoted
  dsimp only
  rcases insideForm_quotedBody quote cs with ⟨inside, value, hu, ht, h⟩ |
    ⟨inside, value, last, hu, ht, h, hl, hr⟩
  · rw [hu, ht]; exact .text hq h
  · rw [hu, ht]; exact .unterminatedString hq h hl hr

/-- How a reference ends: at the first two closing braces, or at the end of the line. -/
theorem envBody_form (cs : List Char) :
    '\n' ∉ (envBody cs).1 ∧
      ((envBody cs).2.1 = ['\x7d', '\x7d'] ∧ ¬['\x7d', '\x7d'] <:+: (envBody cs).1 ++ ['\x7d'] ∨
        (envBody cs).2.1 = [] ∧ ¬['\x7d', '\x7d'] <:+: (envBody cs).1 ∧
          LineEnds (envBody cs).2.2) := by
  fun_induction envBody cs with
  | case1 => exact ⟨by simp, Or.inr ⟨rfl, by simp, Or.inl rfl⟩⟩
  | case2 rest => exact ⟨by simp, Or.inl ⟨rfl, by simp [List.infix_cons_iff]⟩⟩
  | case3 rest h => exact ⟨by simp, Or.inr ⟨rfl, by simp, Or.inr rfl⟩⟩
  | case4 c rest h hc name braces rest' heq ih =>
    have happ := envBody_append rest
    rw [heq] at ih happ
    obtain ⟨hn, ih⟩ := ih
    -- two braces do not begin with `c`, since what follows `c` begins like `rest`
    have hfirst : ∀ front, front <+: rest → ¬['\x7d', '\x7d'] <+: c :: front := by
      rintro front ⟨more, rfl⟩ hp
      obtain ⟨rfl, ds, rfl⟩ := List.cons_prefix_cons.1 hp
      exact h (ds ++ more) rfl rfl
    refine ⟨fun hm => (List.mem_cons.1 hm).elim (fun e => hc e.symm) hn, ?_⟩
    rcases ih with ⟨hb, hi⟩ | ⟨hb, hi, hl⟩
    · refine Or.inl ⟨hb, fun hm => ?_⟩
      rcases List.infix_cons_iff.1 hm with hm | hm
      · refine hfirst _ ⟨'\x7d' :: rest', ?_⟩ hm
        rw [← happ, hb]; simp
      · exact hi hm
    · refine Or.inr ⟨hb, fun hm => ?_, hl⟩
      rcases List.infix_cons_iff.1 hm with hm | hm
      · exact hfirst _ ⟨_, happ⟩ hm
      · exact hi hm

theorem form_env (cs : List Char) : Form (env cs).segment (env cs).lexeme (env cs).rest := by
  unfold env
  dsimp only
  obtain ⟨hn, ⟨hb, hi⟩ | ⟨hb, hi, hl⟩⟩ := envBody_form cs
  · rw [hb]; exact .env hn hi (trimmed_trim _)
  · rw [hb, List.append_nil]; exact .unterminatedEnv hn hi hl

/-! ### Signs and all other characters -/

theorem mem_signs_of_doubleSign? (h : doubleSign? c d = some kind) : ([c, d], kind) ∈ signs := by
  unfold doubleSign? at h
  split at h <;> cases h <;> decide

theorem mem_signs_of_singleSign? (h : singleSign? c = some kind) : ([c], kind) ∈ signs := by
  unfold singleSign? at h
  split at h <;> cases h <;> decide

theorem doubleSign?_of_mem_signs (h : [c, d] ∈ signs.map (·.1)) : doubleSign? c d ≠ none := by
  simp only [signs, List.map_cons, List.map_nil, List.mem_cons, List.cons.injEq, List.not_mem_nil,
    or_false, and_true, reduceCtorEq, and_false, false_or] at h
  rcases h with ⟨rfl, rfl⟩ | ⟨rfl, rfl⟩ | ⟨rfl, rfl⟩ | ⟨rfl, rfl⟩ <;> simp [doubleSign?]

theorem singleSign?_of_mem_signs (h : [c] ∈ signs.map (·.1)) : singleSign? c ≠ none := by
  simp only [signs, List.map_cons, List.map_nil, List.mem_cons, List.cons.injEq, List.not_mem_nil,
    or_false, and_true, reduceCtorEq, and_false] at h
  rcases h with rfl | rfl | rfl | rfl | rfl | rfl | rfl | rfl | rfl | rfl <;> simp [singleSign?]

theorem length_of_mem_signs (h : cs ∈ signs.map (·.1)) : cs.length ≤ 2 := by
  revert cs
  decide

theorem form_sign? {found : Cut} (h : sign? c cs = some found)
    (hb : c = '\x7b' → cs.head? ≠ some '\x7b') : Form found.segment found.lexeme found.rest := by
  have hsingle : ∀ {kind : TokenKind}, singleSign? c = some kind →
      (∀ d ∈ cs.head?, doubleSign? c d = none) → Form [c] (.token kind (String.ofList [c])) cs := by
    intro kind hk hd
    refine .sign (mem_signs_of_singleSign? hk) fun d hm => ⟨fun hs => ?_, fun he => ?_⟩
    · exact doubleSign?_of_mem_signs hs (hd d hm)
    · simp only [List.singleton_append, List.cons.injEq, and_true] at he
      obtain ⟨rfl, rfl⟩ := he
      exact hb rfl hm
  cases cs with
  | nil =>
    obtain ⟨kind, hk, rfl⟩ := Option.map_eq_some_iff.1 h
    exact hsingle hk (by simp)
  | cons d rest =>
    simp only [sign?] at h
    cases hd : doubleSign? c d with
    | some kind =>
      rw [hd] at h
      cases h
      refine .sign (mem_signs_of_doubleSign? hd) fun e _ => ⟨fun hs => ?_, by simp [verbatim]⟩
      have := length_of_mem_signs hs
      simp [verbatim] at this
    | none =>
      rw [hd] at h
      obtain ⟨kind, hk, rfl⟩ := Option.map_eq_some_iff.1 h
      exact hsingle hk (by simpa using hd)

/-- Where no sign stands, no sign of one character and no `!=` stands. -/
theorem not_sign_of_sign?_eq_none (h : sign? c cs = none) :
    [c] ∉ signs.map (·.1) ∧ (c = '!' → cs.head? ≠ some '=') := by
  cases cs with
  | nil =>
    have hs : singleSign? c = none := by simpa [sign?] using h
    exact ⟨fun hm => singleSign?_of_mem_signs hm hs, by simp⟩
  | cons d rest =>
    simp only [sign?] at h
    split at h
    · cases h
    · next hd =>
      have hs : singleSign? c = none := by simpa using h
      refine ⟨fun hm => singleSign?_of_mem_signs hm hs, ?_⟩
      rintro rfl he
      cases he
      simp [doubleSign?] at hd

theorem stopsAt_of_any (h : ¬cs.head?.any p = true) : StopsAt p cs := by
  intro c hc
  rw [Option.mem_def.1 hc] at h
  simpa using h

theorem eq_cons_of_any (h : cs.head?.any p = true) : ∃ d ds, cs = d :: ds ∧ p d = true := by
  cases cs with
  | nil => simp at h
  | cons d ds => exact ⟨d, ds, rfl, by simpa using h⟩

/-- The lexeme that is cut off the front of a text has a form. -/
theorem form_cut (hc : Text.isBlank c = false) (cs : List Char) :
    Form (cut c cs).segment (cut c cs).lexeme (cut c cs).rest := by
  unfold cut
  split
  · next h =>
    refine form_comment ?_
    rcases (by simpa using h : c = '#' ∨ c = '/' ∧ cs.head? = some '/') with rfl | ⟨rfl, hd⟩
    · left; simp
    · obtain ⟨ds, rfl⟩ := List.head?_eq_some_iff.1 hd
      right; simp
  next hcomment =>
  split
  · next h => exact form_quoted (by simpa using h) cs
  next hquote =>
  split
  · exact form_env cs.tail
  next henv =>
  cases hsign : sign? c cs with
  | some found =>
    refine form_sign? hsign ?_
    rintro rfl
    simpa using henv
  | none =>
    dsimp only
    split
    · next h =>
      simp only [Bool.and_eq_true, decide_eq_true_eq] at h
      obtain ⟨d, ds, rfl, hd⟩ := eq_cons_of_any h.2
      exact form_tag hd ds
    next htag =>
    split
    · next h =>
      simp only [Bool.and_eq_true, decide_eq_true_eq] at h
      obtain ⟨d, ds, rfl, hd⟩ := eq_cons_of_any h.2
      exact form_number (Or.inr rfl) hd
    next hminus =>
    split
    · next h => exact form_number (Or.inl rfl) h
    next hdigit =>
    split
    · next h => exact form_word (by simpa using h) cs
    next hword =>
    obtain ⟨hs, hn⟩ := not_sign_of_sign?_eq_none hsign
    refine .unexpected ⟨hc, by simpa using hword, by simpa using hdigit, ?_, hs, hn, ?_, ?_, ?_⟩
    · simp only [Bool.or_eq_true, Bool.and_eq_true, decide_eq_true_eq, not_or] at hcomment hquote
      exact ⟨hquote.1, hquote.2, hcomment.1⟩
    · rintro rfl hd
      exact hcomment (by simp [hd])
    · rintro rfl
      exact stopsAt_of_any fun hd => htag (by simp [hd])
    · rintro rfl
      exact stopsAt_of_any fun hd => hminus (by simp [hd])

/-! ## Segments stay on their line -/

theorem StandsFor.newline_free {text : List Char} (h : StandsFor quote cs text) : '\n' ∉ cs := by
  induction h with
  | nil => simp
  | plain _ _ hn _ ih => simp [Ne.symm hn, ih]
  | escape he _ ih =>
    refine fun hm => ?_
    rcases List.mem_cons.1 hm with hm | hm
    · cases hm
    rcases List.mem_cons.1 hm with rfl | hm
    · revert he; simp [escapes]
    · exact ih hm
  | backslash _ hn _ ih => simp [Ne.symm hn, ih]

theorem IsDigits.newline_free (h : IsDigits cs) : '\n' ∉ cs :=
  fun hm => absurd (h.2 _ hm) (by decide)

theorem Form.newline_free {lexeme : Lexeme} (h : Form segment lexeme rest) : '\n' ∉ segment := by
  have hsign : ∀ {cs : List Char}, cs = [] ∨ cs = ['-'] → '\n' ∉ cs := by
    rintro cs (rfl | rfl) <;> decide
  cases h with
  | @word c cs _ first chars _ =>
    refine fun hm => (List.mem_cons.1 hm).elim (fun e => ?_) fun hm => ?_
    · rw [← e] at first
      revert first
      decide +kernel
    · exact absurd (chars _ hm) (by simp [isWordChar_newline])
  | @number sign whole fraction _ hs hw hf _ _ =>
    have hfraction : '\n' ∉ fraction := by
      rcases hf with rfl | ⟨ds, rfl, hds⟩
      · simp
      · simpa using hds.newline_free
    simp only [List.mem_append, not_or]
    exact ⟨⟨hsign hs, hw.newline_free⟩, hfraction⟩
  | @invalidNumber sign whole fraction more _ d hs hw hf hd hm _ =>
    have hd' : '\n' ≠ d := by rintro rfl; exact absurd hd (by decide)
    have hm' : '\n' ∉ more := fun h => absurd (hm _ h) (by decide)
    simp only [List.mem_append, List.mem_cons, not_or]
    exact ⟨⟨⟨hsign hs, hw.newline_free⟩, by decide, hf.newline_free⟩, by decide, hd', hm'⟩
  | sign hs _ => exact (by decide : ∀ s ∈ signs, '\n' ∉ s.1) _ hs
  | comment _ line _ _ => exact line
  | @tag c cs _ first chars _ =>
    have ht : isTagChar '\n' = false := by simp [isTagChar, isWordChar_newline]
    have hc : '\n' ≠ c := by rintro rfl; exact absurd first (by simp [isWordChar_newline])
    have hcs : '\n' ∉ cs := fun h => absurd (chars _ h) (by simp [ht])
    simp only [List.mem_cons, not_or]
    exact ⟨by decide, hc, hcs⟩
  | env line _ _ => simpa using line
  | text hq h =>
    rcases hq with rfl | rfl <;> simpa using h.newline_free
  | unterminatedString hq h hl _ =>
    rcases hq with rfl | rfl <;> rcases hl with rfl | rfl <;> simpa using h.newline_free
  | unterminatedEnv line _ _ => simpa using line
  | unexpected h =>
    refine fun hm => ?_
    rw [← List.mem_singleton.1 hm] at h
    exact absurd h.blank (by decide)

theorem ofWord_ne_eof (word : String) : TokenKind.ofWord word ≠ .eof := by
  unfold TokenKind.ofWord
  cases Keyword.ofWord? word <;> simp

theorem Form.ne_eof {value : String} (h : Form segment (.token kind value) rest) : kind ≠ .eof := by
  cases h with
  | word _ _ _ => exact ofWord_ne_eof _
  | sign hs _ => exact (by decide : ∀ s ∈ signs, s.2 ≠ .eof) _ hs
  | number _ _ _ _ _ | comment _ _ _ _ | tag _ _ _ | env _ _ _ | text _ _ => simp

end Lexeme

/-! ## Accounts -/

/-- Blanks, and the segment behind them. -/
structure Piece where
  blanks : List Char
  segment : List Char
  lexeme : Lexeme

def Piece.text (p : Piece) : List Char :=
  p.blanks ++ p.segment

/-- A piece in front of a text: blanks, and a segment of one line with a form. -/
structure Piece.Proper (p : Piece) (rest : List Char) : Prop where
  blanks : ∀ c ∈ p.blanks, Text.isBlank c = true
  nonempty : p.segment ≠ []
  line : '\n' ∉ p.segment
  form : Lexeme.Form p.segment p.lexeme rest

/-- A text is made of pieces, and of blanks at its end. -/
inductive Account : List Char → List Piece → Prop
  | blanks {cs : List Char} (h : ∀ c ∈ cs, Text.isBlank c = true) : Account cs []
  | piece {p : Piece} {rest : List Char} {pieces : List Piece} (hp : p.Proper rest)
      (h : Account rest pieces) : Account (p.text ++ rest) (p :: pieces)

/-- The lexemes of pieces, each at the place of the first character of its segment, where `front`
    stands in front of the pieces. -/
def placed (front : List Char) : List Piece → List (Position × Lexeme)
  | [] => []
  | p :: pieces => (placeBehind (front ++ p.blanks), p.lexeme) :: placed (front ++ p.text) pieces

/-- A blank in front of a text goes to the first piece, or to the blanks at the end. -/
theorem Account.cons_blank (hc : Text.isBlank c = true) {pieces : List Piece}
    (h : Account cs pieces) (front : List Char) :
    ∃ pieces', Account (c :: cs) pieces' ∧ placed front pieces' = placed (front ++ [c]) pieces := by
  cases h with
  | blanks h => exact ⟨[], .blanks (by simpa [hc] using h), rfl⟩
  | @piece p rest pieces hp h =>
    have hp' : Piece.Proper ⟨c :: p.blanks, p.segment, p.lexeme⟩ rest :=
      ⟨by simpa [hc] using hp.blanks, hp.nonempty, hp.line, hp.form⟩
    exact ⟨_, .piece hp' h, by simp [placed, Piece.text]⟩

/-- A scan goes through an account of the text, from place to place. -/
theorem scan_account (front cs : List Char) :
    ∃ pieces, Account cs pieces ∧
      scan (placeBehind front) cs = (placed front pieces, placeBehind (front ++ cs)) := by
  generalize hp : placeBehind front = pos
  fun_induction scan pos cs generalizing front with
  | case1 pos => exact ⟨[], .blanks (by simp), by simp [placed, hp]⟩
  | case2 pos c cs hb ih =>
    obtain ⟨pieces, ha, hs⟩ := ih (front ++ [c]) (by rw [placeBehind_concat, hp])
    obtain ⟨pieces', ha', hpl⟩ := ha.cons_blank hb front
    exact ⟨pieces', ha', by rw [hs, hpl, List.append_assoc, List.singleton_append]⟩
  | case3 pos c cs hb cut found last heq ih =>
    obtain ⟨pieces, ha, hs⟩ := ih (front ++ cut.segment) (by rw [placeBehind_append, hp])
    have hform : Lexeme.Form cut.segment cut.lexeme cut.rest :=
      Lexeme.form_cut (by simpa using hb) cs
    have hwhole : cut.segment ++ cut.rest = c :: cs := Lexeme.segment_append_rest c cs
    have hpiece : Piece.Proper ⟨[], cut.segment, cut.lexeme⟩ cut.rest :=
      ⟨by simp, Lexeme.segment_ne_nil c cs, hform.newline_free, hform⟩
    refine ⟨⟨[], cut.segment, cut.lexeme⟩ :: pieces, hwhole ▸ .piece hpiece ha, ?_⟩
    rw [heq] at hs
    obtain ⟨rfl, rfl⟩ := Prod.mk.inj hs
    rw [List.append_assoc, hwhole]
    simp [placed, Piece.text, hp]

/-- A lexeme of an account has a form. -/
theorem Account.form {cs : List Char} {pieces : List Piece} (h : Account cs pieces)
    {front : List Char} {x : Position × Lexeme} (hx : x ∈ placed front pieces) :
    ∃ segment rest, Lexeme.Form segment x.2 rest := by
  induction h generalizing front with
  | blanks _ => cases hx
  | @piece p rest pieces hp _ ih =>
    rcases List.mem_cons.1 hx with rfl | hx
    · exact ⟨p.segment, rest, hp.form⟩
    · exact ih hx

/-- **Every character is accounted for.** A script is made of blanks and segments in turn. Each
    segment is one token or one fault at the place of its first character, tokens and faults are in
    the order of their segments, and only the last token is the end of the script, which stands
    behind all characters. -/
theorem tokenize_accounts (source : String) :
    ∃ pieces, Account source.toList pieces ∧
      (tokenize source).tokens =
        (placed [] pieces).filterMap Lexeme.token? ++ [.eofAt (placeBehind source.toList)] ∧
      (tokenize source).errors = (placed [] pieces).filterMap Lexeme.error? ∧
      ∀ t ∈ (tokenize source).tokens.dropLast, t.kind ≠ .eof := by
  obtain ⟨pieces, ha, hs⟩ := scan_account [] source.toList
  have hstart : placeBehind [] = .start := rfl
  rw [hstart, List.nil_append] at hs
  have htokens : (tokenize source).tokens =
      (placed [] pieces).filterMap Lexeme.token? ++ [.eofAt (placeBehind source.toList)] := by
    simp only [tokenize, hs]
  refine ⟨pieces, ha, htokens, by simp only [tokenize, hs], fun t ht => ?_⟩
  rw [htokens, List.dropLast_concat] at ht
  obtain ⟨⟨pos, lexeme⟩, hx, ht⟩ := List.mem_filterMap.1 ht
  obtain ⟨segment, rest, hform⟩ := ha.form hx
  cases lexeme with
  | token kind value => cases ht; exact hform.ne_eof
  | fault f => cases ht

end UiScenario
