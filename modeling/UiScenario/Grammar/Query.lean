import UiScenario.Grammar.Value
import UiScenario.Script.Query

/-!
The grammar of queries: `LOAD name FROM table`, or a result type, a name and a mode, each with the
clauses `WHERE`, `ORDER BY`, `LIMIT` and `OFFSET` in this order.
-/

namespace UiScenario.Grammar

open UiScenario.Grammar.Parser

def queryMode? : TokenKind → Option QueryMode
  | .keyword .row => some .row
  | .keyword .rows => some .rows
  | .keyword .count => some (.aggregate .count)
  | .keyword .sum => some (.aggregate .sum)
  | .keyword .average => some (.aggregate .average)
  | .keyword .min => some (.aggregate .min)
  | .keyword .max => some (.aggregate .max)
  | .keyword .distinct => some (.aggregate .distinct)
  | _ => none

/-- Whether a declaration goes on as a query: its name, an equals sign and a mode follow the first
token. -/
def atQueryBinding : List Token → Bool
  | _ :: n :: e :: m :: _ => n.isWord && e.kind == .equals && (queryMode? m.kind).isSome
  | _ => false

def tableRef : Parser TableRef := do
  let table ← name "a table name"
  return ⟨table, ← after? .dot (name "a column name")⟩

/-- The comparison that a sign or keyword of a row's condition stands for. -/
def dataComparison? : TokenKind → Option ComparisonOp
  | .keyword .matches_ => some .matches_
  | kind => comparison? kind

def dataCondition : Parser DataCondition := do
  let column ← name "a column name"
  let kind := (← current).kind
  if kind == .keyword .starts || kind == .keyword .ends then
    let _ ← advance
    let _ ← expect (.keyword .with_) "WITH"
    let op := if kind == .keyword .starts then .startsWith else .endsWith
    return ⟨column, op, some (← expression)⟩
  if ← eat (.keyword .is) then
    let op := if ← eat (.keyword .not) then .isNotEmpty else .isEmpty
    let _ ← expect (.keyword .empty) "EMPTY"
    return ⟨column, op, none⟩
  match dataComparison? kind with
  | some op =>
    let _ ← advance
    return ⟨column, op, some (← expression)⟩
  | none => fail "a comparison operator"

/-- How the next condition is joined, if there is one. -/
def logicalOp? : TokenKind → Option LogicalOp
  | .keyword .and => some .and
  | .keyword .or => some .or
  | _ => none

def whereClause : Parser WhereClause := do
  let first ← dataCondition
  let rest ← many do
    match logicalOp? (← current).kind with
    | some op =>
      let _ ← advance
      return some (op, ← dataCondition)
    | none => return none
  return ⟨first, rest⟩

/-- A column to sort by, upwards unless it says otherwise. -/
def orderBy : Parser OrderBy := do
  let column ← name "a column to order by"
  if ← eat (.keyword .desc) then return ⟨column, true⟩
  let _ ← eat (.keyword .asc)
  return ⟨column, false⟩

/-- The bound of counts, `2 ^ 64`. -/
abbrev countBound : Nat := 18446744073709551616

/-- A count of rows: digits, perhaps with a plus sign, of a number below the bound. -/
def count? (text : String) : Option Nat :=
  let digits := match text.toList with
    | '+' :: cs => cs
    | cs => cs
  let value := digits.foldl (fun n c => n * 10 + Decimal.digitValue c) 0
  if !digits.isEmpty && digits.all Char.isDigit && value < countBound then some value
  else none

def count (expected : String) : Parser Nat := do
  let t ← current
  match if t.kind == .number then count? t.value else none with
  | some value =>
    let _ ← advance
    return value
  | none => fail expected

def resultType : TokenKind → ResultType
  | .keyword .text => .text
  | .keyword .number => .number
  | .keyword .list => .list
  | _ => .data

/-- What a query binds and reads, without its clauses. -/
def querySource : Parser (ResultType × String × QueryMode × TableRef) := do
  let kind := (← advance).kind
  if kind == .keyword .load then
    let variable_ ← binding "a name for the loaded rows"
    let _ ← expect (.keyword .from_) "FROM and the table to load"
    return (.data, variable_, .load, ← tableRef)
  let variable_ ← binding "a variable name"
  let _ ← expect .equals "'=' after the variable name"
  match queryMode? (← current).kind with
  | some mode =>
    let _ ← advance
    return (resultType kind, variable_, mode, ← tableRef)
  | none => fail "ROW, ROWS, COUNT, SUM, AVERAGE, MIN, MAX or DISTINCT"

def orderClause : Parser (List OrderBy) := do
  if ← eat (.keyword .order) then
    let _ ← expect (.keyword .by_) "BY after ORDER"
    return ← commaSeparated orderBy
  return []

def query : Parser DataQuery := do
  let (resultType, variable_, mode, source) ← querySource
  let where_ ← after? (.keyword .where_) whereClause
  let orderBy ← orderClause
  let limit ← after? (.keyword .limit) (count "a row limit")
  let offset ← after? (.keyword .offset) (count "a row offset")
  return { resultType, variable_, mode, source, where_, orderBy, limit, offset }

end UiScenario.Grammar
