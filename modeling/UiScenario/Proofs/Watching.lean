import UiScenario.Proofs.Progress

/-!
Accounts of reading. What happens while a script is read leaves little behind: the faults, one
record of the statement that is open, and one mark for a block that was not closed. A `Watch` on a
parser tells of its runs what is being read at which time: each rule hands on the blocks and
statements around it, so these are known wherever a fault is raised and wherever a block ends.

A watch is built like the parser it is on, and changes nothing about its runs.
-/

namespace UiScenario.Grammar

open UiScenario.Grammar.Parser

/-- A block that is being read: what it belongs to, and its opening brace. -/
structure OpenBlock where
  what : String
  opening : Token
deriving DecidableEq

/-- The blocks and statements that are being read, each the innermost first. -/
structure Inside where
  blocks : List OpenBlock
  statements : List Opened
deriving DecidableEq

namespace Inside

def nothing : Inside :=
  ⟨[], []⟩

def block (i : Inside) (b : OpenBlock) : Inside :=
  { i with blocks := b :: i.blocks }

def statement (i : Inside) (o : Opened) : Inside :=
  { i with statements := o :: i.statements }

def opened (i : Inside) : Option Opened :=
  i.statements.head?

end Inside

/-- What can happen while tokens are read. -/
inductive Event where
  /-- A rule fails. -/
  | raised (fault : SyntaxError) (inside : Inside)
  /-- The closing brace of a block is read. -/
  | closed (block : OpenBlock) (around : List OpenBlock)
  /-- A block meets the end of the script or the next declaration, the first of the tokens. -/
  | ranOut (block : OpenBlock) (around : List OpenBlock) (ahead : List Token)
deriving DecidableEq

/-- What happens in the runs of a parser, by the place where a run starts. -/
structure Watch {α : Type} (p : Parser α) where
  events : State → List Event

namespace Watch

/-! ## Building parsers -/

section
variable {α β : Type} {p q : Parser α} {k : α → Parser β}

def silent : Watch p :=
  ⟨fun _ => []⟩

def rule (i : Inside) (p : Parser α) : Watch p :=
  ⟨fun s => match p s with
    | .ok _ _ => []
    | .error e _ => [.raised e i]⟩

def bind (w : Watch p) (f : (a : α) → Watch (k a)) : Watch (p >>= k) :=
  ⟨fun s => w.events s ++ match p s with
    | .ok a s' => (f a).events s'
    | .error _ _ => []⟩

/-- What is made of a value makes nothing happen. -/
def give {g : α → β} (w : Watch p) : Watch (p >>= fun a => pure (g a)) :=
  ⟨w.events⟩

def ite {c : Prop} [Decidable c] (w : Watch p) (w' : Watch q) : Watch (if c then p else q) :=
  ⟨fun s => if c then w.events s else w'.events s⟩

def rounds {p : Parser (Option α)} (w : Watch p) : (n : Nat) → Watch (Parser.rounds p n)
  | 0 => silent
  | n + 1 => w.bind fun x => match x with
    | none => silent
    | some _ => (rounds w n).give

def many {p : Parser (Option α)} (w : Watch p) : Watch (Parser.many p) :=
  ⟨fun s => (w.rounds (s.ahead.length + 1)).events s⟩

/-- A failure has happened when it is caught. -/
def caught {isStart : List Token → Bool} (w : Watch p) : Watch (recovering isStart p) :=
  ⟨w.events⟩

/-- A round of a block ends it, or reads a member. -/
def bracedRound (b : OpenBlock) (around : List OpenBlock) (w : Watch p) :
    Watch (Parser.bracedRound b.what b.opening p) :=
  ⟨fun s =>
    if startsWith .rbrace s.ahead then [.closed b around]
    else if endsBlock s.ahead then [.ranOut b around s.ahead]
    else w.events s⟩

/-- A block whose members are read inside it. -/
def braced (i : Inside) {what expected : String} (w : Inside → Watch p) :
    Watch (Parser.braced what expected p) :=
  (rule i (expect .lbrace expected)).bind fun opening =>
    ((w (i.block ⟨what, opening⟩)).bracedRound ⟨what, opening⟩ i.blocks).many

end

/-! ## Statements -/

section
variable {block : String → Parser (List Statement)}
  (wb : Inside → (what : String) → Watch (block what)) (i : Inside)

def arm : Watch (Grammar.arm block) :=
  silent.bind fun _ => (rule i condition).bind fun _ => (wb i "IF").give

def armRound : Watch (Grammar.armRound block) :=
  silent.bind fun _ => ite (silent.bind fun _ => (arm wb i).give) silent

def branchStatement : Watch (Grammar.branchStatement block) :=
  (arm wb i).bind fun _ => (armRound wb i).many.bind fun _ =>
    silent.bind fun _ => ite (wb i "ELSE").give silent

def repeatStatement : Watch (Grammar.repeatStatement block) :=
  silent.bind fun _ => (rule i expression).bind fun _ => (rule i (expect _ _)).bind fun _ =>
    (wb i "REPEAT").give

def forEachStatement : Watch (Grammar.forEachStatement block) :=
  silent.bind fun _ => (rule i (expect _ _)).bind fun _ => (rule i (binding _)).bind fun _ =>
    (rule i (expect _ _)).bind fun _ => (rule i (name _)).bind fun _ => (wb i "FOR EACH").give

/-- Steps, and what is no statement, are rules without blocks. -/
def statementRule : Watch (Grammar.statementRule block) :=
  ⟨fun s => match s.current.kind with
    | .keyword .if_ => (branchStatement wb i).events s
    | .keyword .repeat_ => (repeatStatement wb i).events s
    | .keyword .for_ => (forEachStatement wb i).events s
    | _ => (rule i (Grammar.statementRule block)).events s⟩

/-- A statement is known by its first word in capitals, and by its line. -/
def statementWith : Watch (Grammar.statementWith block) :=
  ⟨fun s =>
    let o : Opened := ⟨Text.upper s.current.value, s.current.line⟩
    (statementRule wb (i.statement o)).events (s.reopened (some o))⟩

def blockMember : Watch (Grammar.blockMember block) :=
  ⟨(statementWith wb i).events⟩

end

def nestedBlock : (n : Nat) → (i : Inside) → (what : String) → Watch (Grammar.nestedBlock n what)
  | 0, i, _ => rule i (fail _)
  | n + 1, i, _ => (braced i (blockMember (nestedBlock n))).give

def block (i : Inside) (what : String) : Watch (Grammar.block what) :=
  ⟨fun s => (nestedBlock (s.ahead.length + 1) i what).events s⟩

/-! ## Declarations -/

section
variable (i : Inside)

def action : Watch Grammar.action :=
  silent.bind fun _ => (rule i (name _)).bind fun _ => silent.bind fun _ =>
    ite ((rule i (commaSeparated (binding _))).bind fun _ => (block i "action").give)
      (block i "action").give

/-- A field is read as a statement of its own. -/
def field : Watch Grammar.field :=
  ⟨fun s => (rule (i.statement ⟨"FIELD", s.current.line⟩) Grammar.field).events s⟩

def pageVariable : Watch Grammar.pageVariable :=
  ⟨fun s => (rule (i.statement ⟨Text.upper s.current.value, s.current.line⟩)
    Grammar.pageVariable).events s⟩

def pageMember : Watch Grammar.pageMember :=
  silent.bind fun _ => ite (field i).give <| silent.bind fun _ => ite (action i).give <|
    silent.bind fun _ => ite (pageVariable i).give (rule i (fail _))

def recoveringPageMember : Watch Grammar.recoveringPageMember :=
  (pageMember i).caught.bind fun _ => silent

def page : Watch Grammar.page :=
  silent.bind fun _ => (rule i (name _)).bind fun _ => (rule i (after? _ _)).bind fun _ =>
    (braced i recoveringPageMember).give

def libraryMember : Watch Grammar.libraryMember :=
  silent.bind fun _ => ite (action i) (rule i (fail _))

def library : Watch Grammar.library :=
  silent.bind fun _ => (rule i (name _)).bind fun _ => (rule i (after? _ _)).bind fun _ =>
    (braced i fun i => (libraryMember i).caught).give

def hook : Watch Grammar.hook :=
  silent.bind fun _ => (rule i hookKind).bind fun _ => (block i "hook").give

def scenario : Watch Grammar.scenario :=
  silent.bind fun _ => (rule i (title _)).bind fun _ => silent.bind fun _ =>
    (block i "scenario").give

def featureMember : Watch Grammar.featureMember :=
  ⟨fun s => match s.current.kind with
    | .keyword .before | .keyword .after => (hook i).events s
    | .keyword .scenario => (scenario i).events s
    | _ => (rule i Grammar.featureMember).events s⟩

/-- A `USE` notes the fault of a missing name itself. -/
def useMember : Watch Grammar.useMember :=
  silent.bind fun _ => silent.bind fun _ => silent.bind fun x =>
    ⟨fun _ => x.2.toList.map fun e => .raised e i⟩

def recoveringFeatureMember : Watch Grammar.recoveringFeatureMember :=
  silent.bind fun _ => ite (useMember i) (featureMember i).caught.give

def feature : Watch Grammar.feature :=
  silent.bind fun _ => (rule i (title _)).bind fun _ => silent.bind fun _ =>
    (braced i recoveringFeatureMember).give

def declaration : Watch Grammar.declaration :=
  ⟨fun s => match s.current.kind with
    | .keyword .page => (page i).events s
    | .keyword .pageActions => (library i).events s
    | .keyword .feature => (feature i).events s
    | _ => (rule i Grammar.declaration).events s⟩

end

end Watch

/-! ## Scripts -/

/-- One round of reading declarations: what was found, and what happened. -/
structure Reading where
  found : Option Declaration
  events : List Event

/-- The start of a declaration, for which no block was reported. -/
def State.renewed (s : State) : State :=
  { s with unclosedReported := false }

/-- At most `n` rounds of reading declarations. -/
def readings : Nat → State → List Reading
  | 0, _ => []
  | n + 1, s =>
    match programRound s with
    | .ok (some found) s' =>
      ⟨found, (Watch.declaration .nothing).events s.renewed⟩ :: readings n s'
    | _ => []

/-- The rounds of reading the declarations of a script. -/
def watch (tokens : List Token) : List Reading :=
  readings ((State.ofTokens tokens).ahead.length + 1) (.ofTokens tokens)

end UiScenario.Grammar
