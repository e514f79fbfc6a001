import UiScenario.Grammar.Step

/-!
The grammar of statements and blocks. Blocks hold statements and statements hold blocks; a block
inside a block has fewer tokens ahead, so their number bounds the nesting.

While a statement is read its first word and line are kept, and a fault inside it can say so;
afterwards those of the statement around it are back.
-/

namespace UiScenario.Grammar

open UiScenario.Grammar.Parser

/-- An `IF` with its condition and its block. -/
structure Arm where
  line : Nat
  condition : Condition
  body : List Statement

/-- A chain of arms: each further one stands alone in the else branch of the one before. -/
def Arm.chain : Arm → List Arm → List Statement → Statement
  | a, [], elseBody => .branch a.line a.condition a.body elseBody
  | a, b :: rest, elseBody => .branch a.line a.condition a.body [b.chain rest elseBody]

section Nested

variable (block : String → Parser (List Statement))

/-- `IF condition block`. -/
def arm : Parser Arm := do
  let line := (← advance).line
  let condition ← condition
  return ⟨line, condition, ← block "IF"⟩

def atElseIf (ahead : List Token) : Bool :=
  startsWith (.keyword .else_) ahead && startsWith (.keyword .if_) (ahead.drop 1)

/-- An `IF` with all its arms. -/
def branchStatement : Parser Statement := do
  let first ← arm block
  let further ← many do
    if atElseIf (← ahead) then
      let _ ← advance
      return some (← arm block)
    return none
  let elseBody ← if ← eat (.keyword .else_) then block "ELSE" else pure []
  return first.chain further elseBody

/-- `REPEAT value TIMES block`. -/
def repeatStatement : Parser Statement := do
  let line := (← advance).line
  let times ← expression
  let _ ← expect (.keyword .times) "TIMES after the repeat count"
  return .repeat_ line times (← block "REPEAT")

/-- `FOR EACH name IN name block`. -/
def forEachStatement : Parser Statement := do
  let line := (← advance).line
  let _ ← expect (.keyword .each) "EACH after FOR"
  let item ← binding "a name for each item"
  let _ ← expect (.keyword .in_) "IN and the collection to loop over"
  let collection ← name "the collection to loop over"
  return .forEach line item collection (← block "FOR EACH")

def statementRule : Parser Statement := do
  let start ← current
  let unknown : Parser Statement := throw ⟨.unknownStatement start.display, start.pos⟩
  match start.kind with
  | .keyword .if_ => branchStatement block
  | .keyword .repeat_ => repeatStatement block
  | .keyword .for_ => forEachStatement block
  | .keyword word =>
    match stepRule? word (← ahead) with
    | some rule => return .step start.line (← rule)
    | none => unknown
  | _ => unknown

/-- A statement whose blocks are read by `block`. -/
def statementWith : Parser Statement := do
  let start ← current
  let enclosing := (← get).opened
  setOpened (some ⟨Text.upper start.value, start.line⟩)
  let found ← statementRule block
  setOpened enclosing
  return found

/-- A statement of a block. A faulty one is skipped, and the statement around it is open again. -/
def blockMember : Parser (Option Statement) := do
  let enclosing := (← get).opened
  recovering atStatement <| tryCatch (statementWith block) fun e => do
    setOpened enclosing
    throw e

end Nested

/-- A block with at most `n` blocks inside each other. -/
def nestedBlock : Nat → String → Parser (List Statement)
  | 0, what => fail ("'\x7b' to open the " ++ what)
  | n + 1, what => do
    let members ← braced what ("'\x7b' to open the " ++ what) (blockMember (nestedBlock n))
    return members.filterMap id

/-- A block of statements; `what` it belongs to is for messages. -/
def block (what : String) : Parser (List Statement) := do
  nestedBlock ((← ahead).length + 1) what

def statement : Parser Statement :=
  statementWith block

end UiScenario.Grammar
