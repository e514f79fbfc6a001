import Mathlib.Data.List.Forall2
import Mathlib.Tactic.MkIffOfInductiveProp
import UiScenario.Grammar.Query
import UiScenario.Proofs.Scope
import UiScenario.Proofs.Segments

/-!
How statements are written. A statement settles its tokens one by one, up to the spelling of
keywords and the places of the tokens.

* `Slot` is a token as far as the statement settles it, and `Token.Fills` says which tokens do;
* `Statement.slots` renders a statement, with one spelling where the grammar has several: `OPEN`,
  `==`, `CONTAINS TEXT`, the unit of a wait, braces behind `ELSE`, and no `ASC`;
* `Statement.Writable` says of a statement that it is one the grammar can write: names that stand
  alone can do so, elements and comparisons are those of their rule, and no name is in the place of
  a keyword that the grammar looks for first.
-/

namespace UiScenario

/-! ## Slots -/

/-- Whether tokens of this kind are punctuation. -/
def TokenKind.isPunctuation : TokenKind → Bool
  | lbrace | rbrace | lparen | rparen | comma | dot | equals | eqEq | notEq | gt | lt | gtEq | ltEq
  | plus => true
  | _ => false

theorem TokenKind.ofWord_cases (word : String) :
    ofWord word = .identifier ∨ ∃ k, ofWord word = .keyword k := by
  unfold ofWord
  cases Keyword.ofWord? word with
  | none => exact .inl rfl
  | some k => exact .inr ⟨k, rfl⟩

/-- A token, as far as a statement settles it. -/
inductive Slot where
  /-- The keyword that opens a statement, on the line of the statement. -/
  | opening (word : Keyword) (line : Nat)
  | keyword (word : Keyword)
  | sign (kind : TokenKind) (h : kind.isPunctuation = true := by rfl)
  | name (word : String)
  | text (value : String)
  | env (name : String)
  | number (value : Decimal)
  /-- A number of rows. -/
  | count (value : Nat)

namespace Slot

def kind : Slot → TokenKind
  | opening word _ | keyword word => .keyword word
  | sign kind _ => kind
  | name word => .ofWord word
  | text _ => .text
  | env _ => .env
  | number _ | count _ => .number

/-- What else the statement settles of the token. -/
def Carries : Slot → Token → Prop
  | opening _ line, t => t.line = line
  | keyword _, _ | sign _ _, _ => True
  | name value, t | text value, t | env value, t => t.value = value
  | number value, t => Decimal.read? t.value = some value
  | count value, t => Grammar.count? t.value = some value

instance : (s : Slot) → (t : Token) → Decidable (s.Carries t)
  | opening _ line, t => inferInstanceAs (Decidable (t.line = line))
  | keyword _, _ | sign _ _, _ => inferInstanceAs (Decidable True)
  | name value, t | text value, t | env value, t => inferInstanceAs (Decidable (t.value = value))
  | number value, t => inferInstanceAs (Decidable (Decimal.read? t.value = some value))
  | count value, t => inferInstanceAs (Decidable (Grammar.count? t.value = some value))

theorem kind_ne (x : Slot) : x.kind ≠ .comment ∧ x.kind ≠ .eof := by
  cases x with
  | sign kind h => constructor <;> (rintro rfl; cases h)
  | name word =>
    show TokenKind.ofWord word ≠ .comment ∧ TokenKind.ofWord word ≠ .eof
    rcases TokenKind.ofWord_cases word with h | ⟨k, h⟩ <;> rw [h] <;> exact ⟨nofun, nofun⟩
  | _ => exact ⟨nofun, nofun⟩

end Slot

/-- A token is one that a slot asks for. -/
def Token.Fills (t : Token) (s : Slot) : Prop :=
  t.kind = s.kind ∧ s.Carries t

instance (t : Token) (s : Slot) : Decidable (t.Fills s) :=
  inferInstanceAs (Decidable (_ ∧ _))

def kinds (slots : List Slot) : List TokenKind :=
  slots.map Slot.kind

@[simp] theorem kinds_nil : kinds [] = [] := rfl

@[simp] theorem kinds_cons (s : Slot) (slots : List Slot) :
    kinds (s :: slots) = s.kind :: kinds slots := rfl

@[simp] theorem kinds_append (xs ys : List Slot) : kinds (xs ++ ys) = kinds xs ++ kinds ys :=
  List.map_append

theorem kinds_of_fills {ts : List Token} {slots : List Slot}
    (h : List.Forall₂ Token.Fills ts slots) : ts.map Token.kind = kinds slots := by
  induction h with
  | nil => rfl
  | cons ht _ ih => rw [List.map_cons, kinds_cons, ih, ht.1]

/-! ## Renderings -/

def Primary.slots : Primary → List Slot
  | text value => [.text value]
  | number value => [.number value]
  | flag value => [.keyword (if value then .true_ else .false_)]
  | env name => [.env name]
  | ref none name => [.name name]
  | ref (some qualifier) name => [.name qualifier, .sign .dot, .name name]

/-- Plain values with plus signs between them. -/
def Expression.slots (e : Expression) : List Slot :=
  e.first.slots ++ e.rest.flatMap fun p => .sign .plus :: p.slots

/-- A selector, a field of a page, or a name alone. -/
def Target.slots : Target → List Slot
  | element none field => [.name field]
  | element (some page) field => [.name page, .sign .dot, .name field]
  | selector e => e.slots
  | unset => []

/-- What stands behind a keyword, if anything does. -/
def optional {α : Type} (word : Keyword) (slots : α → List Slot) (x : Option α) : List Slot :=
  x.elim [] fun a => .keyword word :: slots a

def keywordIf (word : Keyword) (is : Bool) : List Slot :=
  if is then [.keyword word] else []

def listed {α : Type} (slots : α → List Slot) : List α → List Slot
  | [] => []
  | x :: xs => slots x ++ xs.flatMap fun y => .sign .comma :: slots y

def ElementState.keyword : ElementState → Keyword
  | visible => .visible
  | hidden => .hidden
  | enabled => .enabled
  | disabled => .disabled
  | checked => .checked
  | empty => .empty
  | focused => .focused

def ComparisonOp.slots : ComparisonOp → List Slot
  | equal => [.sign .eqEq]
  | notEqual => [.sign .notEq]
  | greaterThan => [.sign .gt]
  | lessThan => [.sign .lt]
  | greaterEqual => [.sign .gtEq]
  | lessEqual => [.sign .ltEq]
  | contains => [.keyword .contains]
  | startsWith => [.keyword .starts, .keyword .with_]
  | endsWith => [.keyword .ends, .keyword .with_]
  | matches_ => [.keyword .matches_]
  | isEmpty => [.keyword .is, .keyword .empty]
  | isNotEmpty => [.keyword .is, .keyword .not, .keyword .empty]

/-- `IS` or `IS NOT`, and a state. -/
def stateSlots (negated : Bool) (state : ElementState) : List Slot :=
  .keyword .is :: (keywordIf .not negated ++ [.keyword state.keyword])

/-- The state of an element, a comparison, or a value alone. -/
def Condition.slots : Condition → List Slot
  | state target negated found => target.slots ++ stateSlots negated found
  | comparison left op right => left.slots ++ (op.slots ++ right.slots)
  | truthy value => value.slots

/-- `table` or `table.column`. -/
def TableRef.slots (t : TableRef) : List Slot :=
  .name t.table :: t.column.elim [] fun column => [.sign .dot, .name column]

/-- A column, a comparison, and its value. -/
def DataCondition.slots (c : DataCondition) : List Slot :=
  .name c.column :: (c.op.slots ++ c.value.elim [] Expression.slots)

def LogicalOp.keyword : LogicalOp → Keyword
  | and => .and
  | or => .or

/-- Conditions joined by `AND` and `OR`. -/
def WhereClause.slots (w : WhereClause) : List Slot :=
  w.first.slots ++ w.rest.flatMap fun (op, c) => .keyword op.keyword :: c.slots

/-- A column to sort by, with `DESC` if downwards. -/
def OrderBy.slots (o : OrderBy) : List Slot :=
  .name o.column :: keywordIf .desc o.descending

/-- `ORDER BY` and the columns, if there are any. -/
def orderSlots (columns : List OrderBy) : List Slot :=
  if columns.isEmpty then [] else .keyword .order :: .keyword .by_ :: listed OrderBy.slots columns

def ResultType.keyword : ResultType → Keyword
  | data => .data
  | list => .list
  | number => .number
  | text => .text

/-- What stands between the name and the table: `FROM`, or an equals sign and the mode. -/
def QueryMode.slots : QueryMode → List Slot
  | load => [.keyword .from_]
  | row => [.sign .equals, .keyword .row]
  | rows => [.sign .equals, .keyword .rows]
  | aggregate .count => [.sign .equals, .keyword .count]
  | aggregate .sum => [.sign .equals, .keyword .sum]
  | aggregate .average => [.sign .equals, .keyword .average]
  | aggregate .min => [.sign .equals, .keyword .min]
  | aggregate .max => [.sign .equals, .keyword .max]
  | aggregate .distinct => [.sign .equals, .keyword .distinct]

namespace DataQuery

def keyword (q : DataQuery) : Keyword :=
  if q.mode = .load then .load else q.resultType.keyword

def bounds (q : DataQuery) : List Slot :=
  optional .limit (fun n => [.count n]) q.limit ++ optional .offset (fun n => [.count n]) q.offset

def clauses (q : DataQuery) : List Slot :=
  optional .where_ WhereClause.slots q.where_ ++ (orderSlots q.orderBy ++ q.bounds)

/-- A query behind its first word. -/
def slots (q : DataQuery) : List Slot :=
  .name q.variable_ :: (q.mode.slots ++ (q.source.slots ++ q.clauses))

end DataQuery

/-- The keyword of a way to compare an address. -/
def UrlMatch.keyword : UrlMatch → Keyword
  | is => .is
  | contains => .contains
  | matches_ => .matches_

def Assertion.slots : Assertion → List Slot
  | state target negated found => target.slots ++ stateSlots negated found
  | text target negated true expected =>
    target.slots ++ (keywordIf .not negated ++ .keyword .contains :: .keyword .text ::
      expected.slots)
  | text target negated false expected =>
    target.slots ++ (keywordIf .not negated ++ .keyword .has :: .keyword .text :: expected.slots)
  | value target negated expected =>
    target.slots ++ (keywordIf .not negated ++ .keyword .has :: .keyword .value :: expected.slots)
  | attribute_ target name expected =>
    target.slots ++ .keyword .has :: .keyword .attribute_ :: (name.slots ++ .sign .equals ::
      expected.slots)
  | count target expected =>
    target.slots ++ .keyword .has :: .keyword .count :: expected.slots
  | url matcher expected => .keyword .url :: .keyword matcher.keyword :: expected.slots
  | title contains expected =>
    .keyword .title :: .keyword (if contains then .contains else .is) :: expected.slots

def ScrollDirection.keyword : ScrollDirection → Keyword
  | up => .up
  | down => .down

def WaitUnit.keyword : WaitUnit → Keyword
  | seconds => .seconds
  | milliseconds => .milliseconds

def VariableKind.keyword : VariableKind → Keyword
  | text => .text
  | number => .number
  | flag => .flag
  | list => .list

namespace Step

def keyword : Step → Keyword
  | open_ _ => .open_
  | click _ => .click
  | fill _ _ => .fill
  | hover _ => .hover
  | check _ => .check
  | uncheck _ => .uncheck
  | select _ _ => .select
  | scroll _ | scrollTo _ => .scroll
  | press _ => .press
  | drag _ _ => .drag
  | upload _ _ => .upload
  | wait _ _ | waitFor _ => .wait
  | refresh => .refresh
  | clear _ | clearCookies | clearStorage => .clear
  | screenshot _ => .take
  | log _ => .log
  | switchToTab _ | switchToNewTab _ | switchToFrame _ | switchToMainFrame => .switch
  | closeTab => .close
  | acceptDialog _ => .accept
  | dismissDialog => .dismiss
  | verify _ => .verify
  | declare kind _ _ => kind.keyword
  | perform _ _ _ => .perform
  | query q => q.keyword

def slots : Step → List Slot
  | open_ value | press value | log value => value.slots
  | click target | hover target | check target | uncheck target | clear target => target.slots
  | fill target value => target.slots ++ .keyword .with_ :: value.slots
  | select option target => option.slots ++ .keyword .from_ :: target.slots
  | scroll direction => direction.elim [] fun d => [.keyword d.keyword]
  | scrollTo target => .keyword .to_ :: target.slots
  | drag source destination => source.slots ++ .keyword .to_ :: destination.slots
  | upload file target => file.slots ++ .keyword .to_ :: target.slots
  | wait amount unit => amount.slots ++ [.keyword unit.keyword]
  | waitFor target => .keyword .for_ :: target.slots
  | refresh => []
  | clearCookies => [.keyword .cookies]
  | clearStorage => [.keyword .storage]
  | screenshot name => .keyword .screenshot :: optional .as Expression.slots name
  | switchToNewTab url =>
    .keyword .to_ :: .keyword .new :: .keyword .tab :: url.elim [] Expression.slots
  | switchToTab index => .keyword .to_ :: .keyword .tab :: index.slots
  | switchToFrame target => .keyword .to_ :: .keyword .frame :: target.slots
  | switchToMainFrame => [.keyword .to_, .keyword .main, .keyword .frame]
  | closeTab => [.keyword .tab]
  | acceptDialog prompt => .keyword .dialog :: optional .with_ Expression.slots prompt
  | dismissDialog => [.keyword .dialog]
  | verify assertion => assertion.slots
  | declare _ name value => .name name :: .sign .equals :: value.slots
  | perform page action arguments =>
    .name page :: .sign .dot :: .name action ::
      if arguments.isEmpty then [] else .keyword .with_ :: listed Expression.slots arguments
  | query q => q.slots

end Step

namespace Statement

mutual

def slots : Statement → List Slot
  | step line s => .opening s.keyword line :: s.slots
  | branch line condition thenBody elseBody =>
    .opening .if_ line :: (condition.slots ++ .sign .lbrace :: (slotsAll thenBody ++
      .sign .rbrace :: elseSlots elseBody))
  | repeat_ line times body =>
    .opening .repeat_ line :: (times.slots ++ .keyword .times :: .sign .lbrace ::
      (slotsAll body ++ [.sign .rbrace]))
  | forEach line item collection body =>
    .opening .for_ line :: .keyword .each :: .name item :: .keyword .in_ :: .name collection ::
      .sign .lbrace :: (slotsAll body ++ [.sign .rbrace])

def slotsAll : List Statement → List Slot
  | [] => []
  | s :: rest => slots s ++ slotsAll rest

def elseSlots : List Statement → List Slot
  | [] => []
  | s :: rest =>
    .keyword .else_ :: .sign .lbrace :: (slots s ++ (slotsAll rest ++ [.sign .rbrace]))

end

end Statement

def blockSlots (body : List Statement) : List Slot :=
  .sign .lbrace :: (Statement.slotsAll body ++ [.sign .rbrace])

/-! ## What can be written -/

/-- The kinds of words that are values of their own. -/
def flagKinds : List TokenKind :=
  [.keyword .true_, .keyword .false_]

/-- A name that stands alone can do so, and a qualifier is not read as a flag. -/
def Primary.Writable : Primary → Prop
  | ref none name => (TokenKind.ofWord name).isBareName = true
  | ref (some qualifier) _ => TokenKind.ofWord qualifier ∉ flagKinds
  | _ => True

instance : (p : Primary) → Decidable p.Writable
  | .ref none _ => inferInstanceAs (Decidable (_ = true))
  | .ref (some qualifier) _ => inferInstanceAs (Decidable (TokenKind.ofWord qualifier ∉ flagKinds))
  | .text _ | .number _ | .flag _ | .env _ => inferInstanceAs (Decidable True)

def Expression.Writable (e : Expression) : Prop :=
  ∀ p ∈ e.parts, p.Writable

instance (e : Expression) : Decidable e.Writable :=
  inferInstanceAs (Decidable (∀ p ∈ e.parts, p.Writable))

instance : (e : Expression) → Decidable (∃ s : PlainSelector, e = s.expression)
  | ⟨.text value, []⟩ => isTrue ⟨.text value, rfl⟩
  | ⟨.env name, []⟩ => isTrue ⟨.env name, rfl⟩
  | ⟨_, _ :: _⟩ | ⟨.number _, _⟩ | ⟨.flag _, _⟩ | ⟨.ref _ _, _⟩ =>
    isFalse (by rintro ⟨_ | _, h⟩ <;> cases h)

/-- A name that stands alone can do so, and a selector is written out. -/
def Target.Writable : Target → Prop
  | element none field => (TokenKind.ofWord field).isBareName = true
  | element (some _) _ => True
  | selector e => ∃ s : PlainSelector, e = s.expression
  | unset => False

instance : (t : Target) → Decidable t.Writable
  | .element none _ => inferInstanceAs (Decidable (_ = true))
  | .element (some _) _ => inferInstanceAs (Decidable True)
  | .selector e => inferInstanceAs (Decidable (∃ s : PlainSelector, e = s.expression))
  | .unset => inferInstanceAs (Decidable False)

def ComparisonOp.ofCondition : List ComparisonOp :=
  [equal, notEqual, greaterThan, lessThan, greaterEqual, lessEqual, contains]

/-- The page of an element is not read as a flag, and a comparison is one of an `IF`. -/
def Condition.Admitted : Condition → Prop
  | state target _ _ => ∀ page ∈ target.page?, TokenKind.ofWord page ∉ flagKinds
  | comparison _ op _ => op ∈ ComparisonOp.ofCondition
  | truthy _ => True

instance : (c : Condition) → Decidable c.Admitted
  | .state target _ _ =>
    inferInstanceAs (Decidable (∀ page ∈ target.page?, TokenKind.ofWord page ∉ flagKinds))
  | .comparison _ op _ => inferInstanceAs (Decidable (op ∈ ComparisonOp.ofCondition))
  | .truthy _ => inferInstanceAs (Decidable True)

/-- `LOAD` yields data, and comparisons have a value just if they take one. -/
def DataQuery.Admitted (q : DataQuery) : Prop :=
  (q.mode = .load → q.resultType = .data) ∧
    ∀ c ∈ q.conditions, c.value.isSome = !c.op.isUnary

instance (q : DataQuery) : Decidable q.Admitted :=
  inferInstanceAs (Decidable (_ ∧ _))

/-- A scroll has its direction, a query is admitted, and what stands behind the first word does not
start like another form of the step. -/
def Step.Admitted : Step → Prop
  | scroll direction => direction.isSome = true
  | wait amount _ => (kinds amount.slots).head? ≠ some (.keyword .for_)
  | clear target =>
    (kinds target.slots).head? ∉ [some (.keyword .cookies), some (.keyword .storage)]
  | verify assertion =>
    ∀ t ∈ assertion.targets, kinds t.slots ∉ [[.keyword .url], [.keyword .title]]
  | declare kind _ value =>
    kind ≠ .flag → (kinds value.slots).head?.bind Grammar.queryMode? = none
  | query q => q.Admitted
  | _ => True

instance : (s : Step) → Decidable s.Admitted
  | .scroll _ => inferInstanceAs (Decidable (_ = true))
  | .wait _ _ => inferInstanceAs (Decidable (_ ≠ _))
  | .clear _ => inferInstanceAs (Decidable (_ ∉ _))
  | .verify assertion => inferInstanceAs (Decidable (∀ t ∈ assertion.targets, _))
  | .declare kind _ _ => inferInstanceAs (Decidable (kind ≠ .flag → _))
  | .query q => inferInstanceAs (Decidable q.Admitted)
  | .open_ _ | .click _ | .fill _ _ | .hover _ | .check _ | .uncheck _ | .select _ _ | .scrollTo _
  | .press _ | .drag _ _ | .upload _ _ | .waitFor _ | .refresh | .screenshot _ | .log _
  | .switchToTab _ | .switchToNewTab _ | .closeTab | .switchToFrame _ | .switchToMainFrame
  | .acceptDialog _ | .dismissDialog | .clearCookies | .clearStorage | .perform _ _ _ =>
    inferInstanceAs (Decidable True)

namespace Statement

def Admitted : Statement → Prop
  | step _ s => s.Admitted
  | branch _ condition _ _ => condition.Admitted
  | repeat_ .. | forEach .. => True

instance : (s : Statement) → Decidable s.Admitted
  | step _ s => inferInstanceAs (Decidable s.Admitted)
  | branch _ condition _ _ => inferInstanceAs (Decidable condition.Admitted)
  | repeat_ .. | forEach .. => inferInstanceAs (Decidable True)

/-- A statement can be written, as far as the statements inside it are not concerned. -/
@[mk_iff]
structure WritableHere (s : Statement) : Prop where
  targets : ∀ t ∈ s.targets, t.Writable
  expressions : ∀ e ∈ s.expressions, e.Writable
  binds : ∀ n ∈ s.binds?, (TokenKind.ofWord n).isBareName = true
  admitted : s.Admitted

instance (s : Statement) : Decidable s.WritableHere :=
  decidable_of_iff _ (writableHere_iff s).symm

/-- A statement can be written, and so can all statements inside it. -/
def Writable (s : Statement) : Prop :=
  ∀ t ∈ s.flatten, t.WritableHere

instance (s : Statement) : Decidable s.Writable :=
  inferInstanceAs (Decidable (∀ t ∈ s.flatten, t.WritableHere))

/-- The bodies of a statement. -/
def bodies : Statement → List (List Statement)
  | step .. => []
  | branch _ _ thenBody elseBody => [thenBody, elseBody]
  | repeat_ _ _ body | forEach _ _ _ body => [body]

theorem mem_flattenAll {t : Statement} {body : List Statement} :
    t ∈ flattenAll body ↔ ∃ s ∈ body, t ∈ s.flatten := by
  induction body with
  | nil => simp [flattenAll]
  | cons s rest ih => simp [flattenAll, ih]

theorem mem_flatten_self (s : Statement) : s ∈ s.flatten := by
  cases s <;> simp [flatten]

theorem Writable.here {s : Statement} (h : s.Writable) : s.WritableHere :=
  h s s.mem_flatten_self

/-- The statements inside a statement that can be written can be written. -/
theorem Writable.inside {s t : Statement} {body : List Statement} (h : s.Writable)
    (hb : body ∈ s.bodies) (ht : t ∈ body) : t.Writable := by
  intro u hu
  have hall : u ∈ flattenAll body := mem_flattenAll.2 ⟨t, ht, hu⟩
  refine h u ?_
  cases s with
  | step => simp [bodies] at hb
  | branch line condition thenBody elseBody =>
    simp only [bodies, List.mem_cons, List.not_mem_nil, or_false] at hb
    rcases hb with rfl | rfl <;> simp [flatten, hall]
  | repeat_ | forEach =>
    simp only [bodies, List.mem_singleton] at hb
    subst hb; simp [flatten, hall]

theorem slotsAll_eq (body : List Statement) : slotsAll body = body.flatMap slots := by
  induction body with
  | nil => rfl
  | cons s rest ih => rw [slotsAll, ih, List.flatMap_cons]

theorem elseSlots_cons (s : Statement) (rest : List Statement) :
    elseSlots (s :: rest) = .keyword .else_ :: blockSlots (s :: rest) := by
  rw [elseSlots, blockSlots, slotsAll, List.append_assoc]

end Statement

end UiScenario
