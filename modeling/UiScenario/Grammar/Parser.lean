import UiScenario.Text.CaseMap
import UiScenario.Token.Basic

/-!
Reading tokens. A parser works on the tokens ahead, none of which is a comment or the end of the
script, and fails with a syntax error; what it has read by then stays read.

* `Parser.many` repeats a parser until it answers `none`. Every round but the last has to read a
  token, so the tokens ahead bound the number of rounds;
* `Parser.braced` reads a block in braces. A block that runs into the next declaration or into the
  end of the script is reported, once for a declaration, and keeps what was read.
-/

namespace UiScenario

inductive SyntaxFault where
  | unexpectedToken (expected found : String)
  | unclosedBlock (block : String)
  | incompleteStatement (statement expected : String)
  | unknownStatement (found : String)
deriving DecidableEq

structure SyntaxError where
  fault : SyntaxFault
  pos : Position
deriving DecidableEq

namespace SyntaxError

def line (e : SyntaxError) : Nat :=
  e.pos.line

def column (e : SyntaxError) : Nat :=
  e.pos.column

def message (e : SyntaxError) : String :=
  let line := e.pos.line
  let column := e.pos.column
  match e.fault with
  | .unexpectedToken expected found =>
    s!"Expected {expected}, found {found} at line {line}, column {column}"
  | .unclosedBlock block => s!"Unclosed {block} block opened at line {line}, column {column}"
  | .incompleteStatement statement expected =>
    s!"Incomplete {statement} statement at line {line}: expected {expected}"
  | .unknownStatement found => s!"Unknown statement {found} at line {line}, column {column}"

end SyntaxError

namespace Grammar

/-- The statement that is being read: its first word in capitals, and its line. -/
structure Opened where
  word : String
  line : Nat
deriving DecidableEq

structure State where
  ahead : List Token
  last : Token
  opened : Option Opened
  /-- Whether an unclosed block was reported for the declaration that is being read. -/
  unclosedReported : Bool
  errors : List SyntaxError

/-- The start of reading. Tokens behind the first end of the script do not count, and where no end
is given the script ends one column behind its last token. -/
def State.ofTokens (tokens : List Token) : State :=
  let kept := tokens.filter (·.kind != .comment)
  let last : Token :=
    match kept.find? (·.kind == .eof) with
    | some t => t
    | none => ⟨.eof, "", kept.getLast?.elim .start fun t => ⟨t.line, t.column + 1⟩⟩
  { ahead := kept.takeWhile (·.kind != .eof), last, opened := none, unclosedReported := false
    errors := [] }

/-- The next token, which may be the end of the script. -/
def State.current (s : State) : Token :=
  s.ahead.headD s.last

/-- Inside a statement, a token on a later line or the end of the script shows that the statement is
not complete; otherwise the token itself is wrong. -/
def State.unexpected (s : State) (expected : String) : SyntaxError :=
  let t := s.current
  let wrong : SyntaxError := ⟨.unexpectedToken expected t.display, t.pos⟩
  match s.opened with
  | none => wrong
  | some o =>
    if s.ahead.isEmpty || t.line > o.line then
      ⟨.incompleteStatement o.word expected, ⟨o.line, t.column⟩⟩
    else wrong

/-! ## Looking ahead -/

/-- Whether the first of the tokens has the given kind. -/
def startsWith (kind : TokenKind) : List Token → Bool
  | t :: _ => t.kind == kind
  | [] => false

/-- A name with a qualifier: two words with a dot between them. -/
def atQualifiedName : List Token → Bool
  | q :: d :: n :: _ => q.isWord && d.kind == .dot && n.isWord
  | _ => false

/-- A word that can stand alone as the name of a variable or field. -/
def atBareName : List Token → Bool
  | t :: _ => t.kind.isBareName
  | [] => false

/-- The start of an action definition: a name, and parameters or a block. -/
def atAction : List Token → Bool
  | n :: t :: _ => n.isWord && (t.kind == .lbrace || t.kind == .keyword .with_)
  | _ => false

def atStatement : List Token → Bool
  | t :: _ => t.kind.startsStatement
  | [] => false

/-! ## Skipping -/

/-- What is left when a faulty statement or member that started on line `line` is skipped. Skipping
ends at what starts on a later line and looks like the next one, at the brace that closes the block
around it, and at the next declaration; blocks that open on the way, `depth` of them so far, are
skipped whole. -/
def skipTo (isStart : List Token → Bool) (line : Nat) : Nat → List Token → List Token
  | _, [] => []
  | depth, t :: ts =>
    if t.kind.startsDeclaration && depth == 0 then t :: ts
    else if t.kind == .lbrace then skipTo isStart line (depth + 1) ts
    else if t.kind == .rbrace then
      if depth == 0 then t :: ts else skipTo isStart line (depth - 1) ts
    else if depth == 0 && t.line > line && isStart (t :: ts) then t :: ts
    else skipTo isStart line depth ts

/-- What is left when a faulty declaration is skipped. -/
def skipDeclaration (ahead : List Token) : List Token :=
  (ahead.drop 1).dropWhile (!·.kind.startsDeclaration)

abbrev Parser := EStateM SyntaxError State

namespace Parser

/-! ## Single tokens -/

def ahead : Parser (List Token) :=
  return (← get).ahead

def current : Parser Token :=
  return (← get).current

/-- Reads a token. The end of the script is never passed. -/
def advance : Parser Token := do
  let s ← get
  set { s with ahead := s.ahead.tail }
  return s.current

def check (kind : TokenKind) : Parser Bool :=
  return startsWith kind (← ahead)

/-- Reads a token of the given kind, if the next one is. -/
def eat (kind : TokenKind) : Parser Bool := do
  if ← check kind then
    let _ ← advance
    return true
  return false

def fail {α : Type} (expected : String) : Parser α := do
  throw ((← get).unexpected expected)

def expect (kind : TokenKind) (expected : String) : Parser Token := do
  if ← check kind then advance else fail expected

/-- Reads a word as a name. Keywords are words, too. -/
def name (expected : String) : Parser String := do
  if (← current).isWord then return (← advance).value else fail expected

/-- Reads a name that later statements can read back alone. -/
def binding (expected : String) : Parser String := do
  if atBareName (← ahead) then return (← advance).value else fail expected

def qualifiedName : Parser (String × String) := do
  let qualifier := (← advance).value
  let _ ← advance
  return (qualifier, (← advance).value)

/-! ## Repetition -/

/-- At most `n` rounds of a parser, until it answers `none`. -/
def rounds {α : Type} (p : Parser (Option α)) : Nat → Parser (List α)
  | 0 => return []
  | n + 1 => do
    match ← p with
    | none => return []
    | some x => return x :: (← rounds p n)

def many {α : Type} (p : Parser (Option α)) : Parser (List α) := do
  rounds p ((← ahead).length + 1)

/-- Reads `p` if the next token has the given kind, which is read first. -/
def after? {α : Type} (kind : TokenKind) (p : Parser α) : Parser (Option α) := do
  if ← eat kind then return some (← p)
  return none

def commaSeparated {α : Type} (p : Parser α) : Parser (List α) := do
  let first ← p
  return first :: (← many (after? .comma p))

/-! ## Recovery -/

def attempt {α : Type} (p : Parser α) : Parser (Except SyntaxError α) :=
  tryCatch (Except.ok <$> p) fun e => return .error e

def report (e : SyntaxError) : Parser Unit :=
  modify fun s => { s with errors := s.errors ++ [e] }

def skip (f : List Token → List Token) : Parser Unit :=
  modify fun s => { s with ahead := f s.ahead }

def setOpened (opened : Option Opened) : Parser Unit :=
  modify fun s => { s with opened }

/-- Notes that a block was not closed, unless a block inside it was noted already. -/
def reportUnclosed (block : String) (opening : Token) : Parser Unit :=
  modify fun s =>
    if s.unclosedReported then s
    else { s with
      unclosedReported := true
      errors := s.errors ++ [⟨.unclosedBlock block, opening.pos⟩] }

/-- Runs the parser of a member. Of a faulty one, the fault is noted and the tokens are skipped up
to the next. -/
def recovering {α : Type} (isStart : List Token → Bool) (p : Parser α) : Parser (Option α) := do
  let line := (← current).line
  match ← attempt p with
  | .ok x => return some x
  | .error e =>
    report e
    skip (skipTo isStart line 0)
    return none

/-- Whether a block ends without its brace: at the next declaration or at the end of the script. -/
def atBlockEnd : Parser Bool := do
  match ← ahead with
  | [] => return true
  | t :: _ => return t.kind.startsDeclaration

/-- The members of a block in braces. The parser of a member must not fail. -/
def braced {α : Type} (block expected : String) (member : Parser α) : Parser (List α) := do
  let opening ← expect .lbrace expected
  many do
    if ← eat .rbrace then return none
    if ← atBlockEnd then
      reportUnclosed block opening
      return none
    return some (← member)

end Parser

end Grammar

end UiScenario
