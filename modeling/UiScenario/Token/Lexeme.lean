import UiScenario.Text.Blank
import UiScenario.Text.Numeric
import UiScenario.Token.Basic

/-!
Lexemes: the stretches of a script between blanks. Each is a token or a fault, and each is cut off
the front of the text by `Lexeme.cut`, which returns the segment it used, what the segment is, and
the rest.

Main statements: the segment and the rest make up the text (`segment_append_rest`), and so the rest
is shorter than the text (`length_rest_lt`).
-/

namespace UiScenario

inductive LexFault where
  /-- A quoted text is not closed on its line. -/
  | unterminatedString
  /-- A reference to the environment is not closed on its line. -/
  | unterminatedEnv
  /-- A number has two points. -/
  | invalidNumber (text : String)
  /-- A character that no token begins with. -/
  | unexpectedCharacter (character : Char)
deriving DecidableEq

inductive Lexeme where
  | token (kind : TokenKind) (value : String)
  | fault (fault : LexFault)
deriving DecidableEq

structure Lexeme.Cut where
  /-- The characters of the stretch. -/
  segment : List Char
  /-- What the stretch is. -/
  lexeme : Lexeme
  /-- The text behind it. -/
  rest : List Char

namespace Lexeme

/-! ## Cutting off one kind of lexeme -/

/-- A token whose value is its own text. -/
def verbatim (kind : TokenKind) (segment rest : List Char) : Cut :=
  ⟨segment, .token kind (String.ofList segment), rest⟩

/-- A comment reaches to the end of its line; blanks at its end are left out of the value. -/
def comment (cs : List Char) : Cut :=
  let body := cs.takeWhile (· ≠ '\n')
  ⟨body, .token .comment (String.ofList (Text.trimRight body)), cs.dropWhile (· ≠ '\n')⟩

/-- The characters that an escaped character of a quoted text stands for. -/
def unescape : Char → List Char
  | 'n' => ['\n']
  | 't' => ['\t']
  | '\\' => ['\\']
  | '"' => ['"']
  | '\'' => ['\'']
  | c => ['\\', c]

/-- The inside of a quoted text: the characters used, with the closing quote; what they stand for,
or `none` if the line ends first; and the characters behind. -/
def quotedBody (quote : Char) : List Char → List Char × Option (List Char) × List Char
  | [] => ([], none, [])
  | ['\\'] => (['\\'], none, [])
  | '\\' :: c :: rest =>
    if c = '\n' then (['\\'], none, c :: rest)
    else
      let (used, text, rest) := quotedBody quote rest
      ('\\' :: c :: used, text.map (unescape c ++ ·), rest)
  | c :: rest =>
    if c = quote then ([c], some [], rest)
    else if c = '\n' then ([], none, c :: rest)
    else
      let (used, text, rest) := quotedBody quote rest
      (c :: used, text.map (c :: ·), rest)

def quoted (quote : Char) (cs : List Char) : Cut :=
  let (used, text, rest) := quotedBody quote cs
  ⟨quote :: used,
    match text with
    | some text => .token .text (String.ofList text)
    | none => .fault .unterminatedString,
    rest⟩

/-- The inside of a reference to the environment: the characters up to the closing braces, the
braces if they are there, and the characters behind. -/
def envBody : List Char → List Char × List Char × List Char
  | [] => ([], [], [])
  | '\x7d' :: '\x7d' :: rest => ([], ['\x7d', '\x7d'], rest)
  | c :: rest =>
    if c = '\n' then ([], [], c :: rest)
    else
      let (name, braces, rest) := envBody rest
      (c :: name, braces, rest)

/-- A reference to the environment, behind its opening braces. -/
def env (cs : List Char) : Cut :=
  let (name, braces, rest) := envBody cs
  ⟨'\x7b' :: '\x7b' :: (name ++ braces),
    if braces.isEmpty then .fault .unterminatedEnv
    else .token .env (String.ofList (Text.trim name)),
    rest⟩

/-- Whether a text goes on with a point and a digit. -/
def startsFraction : List Char → Bool
  | '.' :: d :: _ => d.isDigit
  | _ => false

/-- A number, behind its sign. A second fraction makes it a fault, which takes in all digits and
points that follow. -/
def number (sign cs : List Char) : Cut :=
  let whole := sign ++ cs.takeWhile Char.isDigit
  let rest := cs.dropWhile Char.isDigit
  if startsFraction rest then
    let fraction := '.' :: rest.tail.takeWhile Char.isDigit
    let rest := rest.tail.dropWhile Char.isDigit
    if startsFraction rest then
      let more := rest.takeWhile fun c => c.isDigit || c = '.'
      let segment := whole ++ fraction ++ more
      ⟨segment, .fault (.invalidNumber (String.ofList segment)),
        rest.dropWhile fun c => c.isDigit || c = '.'⟩
    else verbatim .number (whole ++ fraction) rest
  else verbatim .number whole rest

def isWordChar (c : Char) : Bool :=
  Text.isAlphanumeric c || c = '_'

def word (cs : List Char) : Cut :=
  let body := cs.takeWhile isWordChar
  let kind := match Keyword.ofWord? (String.ofList body) with
    | some k => .keyword k
    | none => .identifier
  verbatim kind body (cs.dropWhile isWordChar)

def isTagChar (c : Char) : Bool :=
  isWordChar c || c = '-'

def tag (cs : List Char) : Cut :=
  let name := cs.takeWhile isTagChar
  ⟨'@' :: name, .token .tag (String.ofList name), cs.dropWhile isTagChar⟩

def doubleSign? : Char → Char → Option TokenKind
  | '=', '=' => some .eqEq
  | '!', '=' => some .notEq
  | '>', '=' => some .gtEq
  | '<', '=' => some .ltEq
  | _, _ => none

def singleSign? : Char → Option TokenKind
  | '\x7b' => some .lbrace
  | '\x7d' => some .rbrace
  | '(' => some .lparen
  | ')' => some .rparen
  | ',' => some .comma
  | '.' => some .dot
  | '+' => some .plus
  | '=' => some .equals
  | '>' => some .gt
  | '<' => some .lt
  | _ => none

/-- A sign at the front of `c :: cs`, if there is one; the longer sign wins. -/
def sign? (c : Char) (cs : List Char) : Option Cut :=
  match cs with
  | d :: rest =>
    match doubleSign? c d with
    | some kind => some (verbatim kind [c, d] rest)
    | none => (singleSign? c).map (verbatim · [c] cs)
  | [] => (singleSign? c).map (verbatim · [c] cs)

/-- Cuts the lexeme off the front of `c :: cs`, where `c` is not blank. -/
def cut (c : Char) (cs : List Char) : Cut :=
  if c = '#' || (c = '/' && cs.head? = some '/') then comment (c :: cs)
  else if c = '"' || c = '\'' then quoted c cs
  else if c = '\x7b' && cs.head? = some '\x7b' then env cs.tail
  else match sign? c cs with
    | some found => found
    | none =>
      if c = '@' && cs.head?.any isWordChar then tag cs
      else if c = '-' && cs.head?.any Char.isDigit then number ['-'] cs
      else if c.isDigit then number [] (c :: cs)
      else if Text.isAlphabetic c || c = '_' then word (c :: cs)
      else ⟨[c], .fault (.unexpectedCharacter c), cs⟩

/-! ## Segments and rests -/

theorem quotedBody_append (quote : Char) (cs : List Char) :
    (quotedBody quote cs).1 ++ (quotedBody quote cs).2.2 = cs := by
  fun_induction quotedBody quote cs <;> simp_all

theorem envBody_append (cs : List Char) :
    (envBody cs).1 ++ ((envBody cs).2.1 ++ (envBody cs).2.2) = cs := by
  fun_induction envBody cs <;> simp_all

theorem comment_append (cs : List Char) : (comment cs).segment ++ (comment cs).rest = cs :=
  List.takeWhile_append_dropWhile

theorem word_append (cs : List Char) : (word cs).segment ++ (word cs).rest = cs :=
  List.takeWhile_append_dropWhile

theorem eq_cons_of_startsFraction {cs : List Char} (h : startsFraction cs = true) :
    '.' :: cs.tail = cs := by
  unfold startsFraction at h
  split at h
  · rfl
  · simp at h

theorem number_append (sign cs : List Char) :
    (number sign cs).segment ++ (number sign cs).rest = sign ++ cs := by
  have split₁ := List.takeWhile_append_dropWhile (p := Char.isDigit) (l := cs)
  unfold number
  dsimp only
  split
  · next h₁ =>
    have dot₁ := eq_cons_of_startsFraction h₁
    have split₂ := List.takeWhile_append_dropWhile (p := Char.isDigit)
      (l := (cs.dropWhile Char.isDigit).tail)
    split
    · have split₃ := List.takeWhile_append_dropWhile (p := fun c => c.isDigit || c = '.')
        (l := (cs.dropWhile Char.isDigit).tail.dropWhile Char.isDigit)
      simp only [List.append_assoc, List.cons_append]
      rw [split₃, split₂, dot₁, split₁]
    · simp only [verbatim, List.append_assoc, List.cons_append]
      rw [split₂, dot₁, split₁]
  · simp only [verbatim, List.append_assoc]
    rw [split₁]

theorem sign?_append {c : Char} {cs : List Char} {found : Cut} (h : sign? c cs = some found) :
    found.segment ++ found.rest = c :: cs := by
  unfold sign? at h
  split at h
  · split at h
    · cases h
      rfl
    · obtain ⟨kind, -, rfl⟩ := Option.map_eq_some_iff.1 h
      rfl
  · obtain ⟨kind, -, rfl⟩ := Option.map_eq_some_iff.1 h
    rfl

/-- The segment and the rest make up the text. -/
theorem segment_append_rest (c : Char) (cs : List Char) :
    (cut c cs).segment ++ (cut c cs).rest = c :: cs := by
  unfold cut
  split
  · exact comment_append (c :: cs)
  split
  · exact congrArg (c :: ·) (quotedBody_append c cs)
  split
  · next h =>
    obtain ⟨rfl, h⟩ := (by simpa using h : c = '\x7b' ∧ cs.head? = some '\x7b')
    obtain ⟨d, rfl⟩ : ∃ d, cs = '\x7b' :: d := by
      cases cs with
      | nil => simp at h
      | cons d ds => exact ⟨ds, by simpa using h⟩
    have := envBody_append d
    simpa [env] using this
  split
  · next h => exact sign?_append h
  split
  · next h =>
    obtain ⟨rfl, -⟩ := (by simpa using h : c = '@' ∧ _)
    exact congrArg ('@' :: ·) List.takeWhile_append_dropWhile
  split
  · next h =>
    obtain ⟨rfl, -⟩ := (by simpa using h : c = '-' ∧ _)
    exact number_append ['-'] cs
  split
  · exact number_append [] (c :: cs)
  split
  · exact word_append (c :: cs)
  · rfl

theorem takeWhile_cons_ne_nil {p : Char → Bool} {c : Char} {cs : List Char} (h : p c = true) :
    (c :: cs).takeWhile p ≠ [] := by
  simp [h]

theorem comment_segment_ne_nil {c : Char} {cs : List Char} (h : c ≠ '\n') :
    (comment (c :: cs)).segment ≠ [] := by
  simp [comment, h]

theorem word_segment_ne_nil {c : Char} {cs : List Char} (h : isWordChar c = true) :
    (word (c :: cs)).segment ≠ [] := by
  simp [word, verbatim, h]

theorem number_segment_ne_nil {sign cs : List Char} (h : sign ++ cs.takeWhile Char.isDigit ≠ []) :
    (number sign cs).segment ≠ [] := by
  unfold number
  dsimp only
  split
  · split <;> simp [verbatim]
  · exact h

theorem sign?_segment_ne_nil {c : Char} {cs : List Char} {found : Cut}
    (h : sign? c cs = some found) : found.segment ≠ [] := by
  unfold sign? at h
  split at h
  · split at h
    · cases h
      exact List.cons_ne_nil _ _
    · obtain ⟨kind, -, rfl⟩ := Option.map_eq_some_iff.1 h
      exact List.cons_ne_nil _ _
  · obtain ⟨kind, -, rfl⟩ := Option.map_eq_some_iff.1 h
    exact List.cons_ne_nil _ _

/-- A lexeme has at least one character. -/
theorem segment_ne_nil (c : Char) (cs : List Char) : (cut c cs).segment ≠ [] := by
  unfold cut
  split
  · next h =>
    refine comment_segment_ne_nil ?_
    rcases (by simpa using h : c = '#' ∨ c = '/' ∧ _) with rfl | ⟨rfl, -⟩ <;> decide
  split
  · exact List.cons_ne_nil _ _
  split
  · exact List.cons_ne_nil _ _
  split
  · next h => exact sign?_segment_ne_nil h
  split
  · exact List.cons_ne_nil _ _
  split
  · exact number_segment_ne_nil (List.cons_ne_nil _ _)
  split
  · next h => exact number_segment_ne_nil (takeWhile_cons_ne_nil h)
  split
  · next h =>
    refine word_segment_ne_nil ?_
    rcases (by simpa using h : Text.isAlphabetic c = true ∨ c = '_') with h | rfl
    · simp [isWordChar, Text.isAlphanumeric, h]
    · simp [isWordChar]
  · exact List.cons_ne_nil _ _

/-- The rest is shorter than the text. -/
theorem length_rest_lt (c : Char) (cs : List Char) : (cut c cs).rest.length < (c :: cs).length := by
  have whole := congrArg List.length (segment_append_rest c cs)
  have pos := List.length_pos_iff.2 (segment_ne_nil c cs)
  rw [List.length_append] at whole
  omega

end Lexeme

end UiScenario
