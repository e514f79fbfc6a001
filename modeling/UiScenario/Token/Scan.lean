import UiScenario.Token.Lexeme

/-!
The tokens of a whole script. Blanks are skipped, every other stretch is cut off by `Lexeme.cut`,
and the place of a lexeme is the place of its first character. Faults do not stop the scan.
-/

namespace UiScenario

structure LexError where
  fault : LexFault
  pos : Position
deriving DecidableEq

namespace LexError

def line (e : LexError) : Nat :=
  e.pos.line

def column (e : LexError) : Nat :=
  e.pos.column

def message (e : LexError) : String :=
  let place := s!"at line {e.pos.line}, column {e.pos.column}"
  match e.fault with
  | .unterminatedString => s!"Unterminated string {place}"
  | .unterminatedEnv => s!"Unterminated environment reference {place}"
  | .invalidNumber text => s!"Invalid number '{text}' {place}"
  | .unexpectedCharacter character => s!"Unexpected character '{character}' {place}"

end LexError

/-- The lexemes of a text that starts at `pos`, with their places, and the place of its end. -/
def scan (pos : Position) : List Char → List (Position × Lexeme) × Position
  | [] => ([], pos)
  | c :: cs =>
    if Text.isBlank c then scan (pos.next c) cs
    else
      let cut := Lexeme.cut c cs
      let (found, last) := scan (pos.after cut.segment) cut.rest
      ((pos, cut.lexeme) :: found, last)
termination_by cs => cs.length
decreasing_by
  · simp
  · exact Lexeme.length_rest_lt c cs

structure Lexing where
  tokens : List Token
  errors : List LexError

def Lexeme.token? : Position × Lexeme → Option Token
  | (pos, .token kind value) => some ⟨kind, value, pos⟩
  | (_, .fault _) => none

def Lexeme.error? : Position × Lexeme → Option LexError
  | (_, .token _ _) => none
  | (pos, .fault f) => some ⟨f, pos⟩

def Token.eofAt (pos : Position) : Token :=
  ⟨.eof, "", pos⟩

def tokenize (source : String) : Lexing :=
  let (found, last) := scan .start source.toList
  { tokens := found.filterMap Lexeme.token? ++ [Token.eofAt last]
    errors := found.filterMap Lexeme.error? }

/-- The first `count` tokens of a script; its end is repeated as often as needed. -/
def firstTokens (source : String) (count : Nat) : List Token :=
  let tokens := (tokenize source).tokens
  match tokens.getLast? with
  | some last => (tokens ++ List.replicate count last).take count
  | none => []

end UiScenario
