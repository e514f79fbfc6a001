import Mathlib.Logic.Basic
import UiScenario.Grammar.Program

/-!
Scripts in another wording. A wording says what two names, and what two quoted texts, have in common
when they count as the same. It carries over to tokens, to programs and to faults: two of them are
worded alike if they become equal. Kinds of tokens, places and numbers always count.
-/

namespace UiScenario

/-- What counts of the words of a script. -/
structure Wording where
  /-- What counts of a name. -/
  name : String → String
  /-- What counts of a quoted text, and of what messages show. -/
  text : String → String
  text_of_name : ∀ {v v' : String}, name v = name v' → text v = text v'
  text_append : ∀ {u u' v v' : String}, text u = text u' → text v = text v' →
    text (u ++ v) = text (u' ++ v')
  text_upper : ∀ {v v' : String}, text v = text v' → text (Text.upper v) = text (Text.upper v')

/-- Everything counts. -/
def Wording.same : Wording where
  name := id
  text := id
  text_of_name h := h
  text_append h h' := congrArg₂ (· ++ ·) h h'
  text_upper h := congrArg Text.upper h

variable (w : Wording)

/-! ## Tokens and faults -/

/-- What counts of the value of a token. -/
def Wording.value : TokenKind → String → String
  | .text => w.text
  | .number => id
  | _ => w.name

def Token.reword (t : Token) : Token :=
  ⟨t.kind, w.value t.kind t.value, t.pos⟩

def SyntaxFault.reword : SyntaxFault → SyntaxFault
  | unexpectedToken expected found => unexpectedToken expected (w.text found)
  | unclosedBlock block => unclosedBlock block
  | incompleteStatement statement expected => incompleteStatement (w.text statement) expected
  | unknownStatement found => unknownStatement (w.text found)

def SyntaxError.reword (e : SyntaxError) : SyntaxError :=
  ⟨e.fault.reword w, e.pos⟩

/-! ## Values and queries -/

def Primary.reword : Primary → Primary
  | text value => text (w.text value)
  | number value => number value
  | flag value => flag value
  | env name => env (w.name name)
  | ref qualifier name => ref (qualifier.map w.name) (w.name name)

def Expression.reword (e : Expression) : Expression :=
  ⟨e.first.reword w, e.rest.map (Primary.reword w)⟩

def PlainSelector.reword : PlainSelector → PlainSelector
  | text value => text (w.text value)
  | env name => env (w.name name)

def Target.reword : Target → Target
  | element page field => element (page.map w.name) (w.name field)
  | selector value => selector (value.reword w)
  | unset => unset

def Condition.reword : Condition → Condition
  | state target negated s => state (target.reword w) negated s
  | comparison left op right => comparison (left.reword w) op (right.reword w)
  | truthy value => truthy (value.reword w)

def TableRef.reword (t : TableRef) : TableRef :=
  ⟨w.name t.table, t.column.map w.name⟩

def DataCondition.reword (c : DataCondition) : DataCondition :=
  ⟨w.name c.column, c.op, c.value.map (Expression.reword w)⟩

def WhereClause.reword (c : WhereClause) : WhereClause :=
  ⟨c.first.reword w, c.rest.map (Prod.map id (DataCondition.reword w))⟩

def OrderBy.reword (o : OrderBy) : OrderBy :=
  ⟨w.name o.column, o.descending⟩

def DataQuery.reword (q : DataQuery) : DataQuery :=
  { q with
    variable_ := w.name q.variable_
    source := q.source.reword w
    where_ := q.where_.map (WhereClause.reword w)
    orderBy := q.orderBy.map (OrderBy.reword w) }

/-! ## Statements -/

def Assertion.reword : Assertion → Assertion
  | state target negated s => state (target.reword w) negated s
  | text target negated contains expected =>
    text (target.reword w) negated contains (expected.reword w)
  | value target negated expected => value (target.reword w) negated (expected.reword w)
  | attribute_ target name expected =>
    attribute_ (target.reword w) (name.reword w) (expected.reword w)
  | count target expected => count (target.reword w) (expected.reword w)
  | url matcher expected => url matcher (expected.reword w)
  | title contains expected => title contains (expected.reword w)

def Step.reword : Step → Step
  | open_ url => open_ (url.reword w)
  | click target => click (target.reword w)
  | fill target value => fill (target.reword w) (value.reword w)
  | hover target => hover (target.reword w)
  | check target => check (target.reword w)
  | uncheck target => uncheck (target.reword w)
  | select option target => select (option.reword w) (target.reword w)
  | scroll direction => scroll direction
  | scrollTo target => scrollTo (target.reword w)
  | press key => press (key.reword w)
  | drag source destination => drag (source.reword w) (destination.reword w)
  | upload file target => upload (file.reword w) (target.reword w)
  | wait amount unit => wait (amount.reword w) unit
  | waitFor target => waitFor (target.reword w)
  | refresh => refresh
  | clear target => clear (target.reword w)
  | screenshot name => screenshot (name.map (Expression.reword w))
  | log message => log (message.reword w)
  | switchToTab index => switchToTab (index.reword w)
  | switchToNewTab url => switchToNewTab (url.map (Expression.reword w))
  | closeTab => closeTab
  | switchToFrame target => switchToFrame (target.reword w)
  | switchToMainFrame => switchToMainFrame
  | acceptDialog prompt => acceptDialog (prompt.map (Expression.reword w))
  | dismissDialog => dismissDialog
  | clearCookies => clearCookies
  | clearStorage => clearStorage
  | verify assertion => verify (assertion.reword w)
  | declare kind name value => declare kind (w.name name) (value.reword w)
  | perform page action arguments =>
    perform (w.name page) (w.name action) (arguments.map (Expression.reword w))
  | query q => query (q.reword w)

namespace Statement

mutual

def reword : Statement → Statement
  | step line s => step line (s.reword w)
  | branch line condition thenBody elseBody =>
    branch line (condition.reword w) (rewordAll thenBody) (rewordAll elseBody)
  | repeat_ line times body => repeat_ line (times.reword w) (rewordAll body)
  | forEach line item collection body =>
    forEach line (w.name item) (w.name collection) (rewordAll body)

def rewordAll : List Statement → List Statement
  | [] => []
  | s :: rest => reword s :: rewordAll rest

end

theorem rewordAll_eq_map (body : List Statement) : rewordAll w body = body.map (reword w) := by
  induction body with
  | nil => rfl
  | cons s rest ih => rw [rewordAll, ih, List.map_cons]

end Statement

/-! ## Declarations -/

def Field.reword (f : Field) : Field :=
  ⟨w.name f.name, f.selector.reword w, f.line⟩

def PageVariable.reword (v : PageVariable) : PageVariable :=
  ⟨v.kind, w.name v.name, v.value.reword w, v.line⟩

def Action.reword (a : Action) : Action :=
  ⟨w.name a.name, a.parameters.map w.name, Statement.rewordAll w a.body, a.line⟩

def Page.reword (p : Page) : Page where
  name := w.name p.name
  url := p.url.map w.text
  fields := p.fields.map (Field.reword w)
  pageVariables := p.pageVariables.map (PageVariable.reword w)
  actions := p.actions.map (Action.reword w)
  line := p.line

def Library.reword (l : Library) : Library where
  name := w.name l.name
  forPage := l.forPage.map w.name
  actions := l.actions.map (Action.reword w)
  line := l.line

def Use.reword (u : Use) : Use :=
  ⟨w.name u.name, u.line⟩

def Hook.reword (h : Hook) : Hook :=
  ⟨h.kind, Statement.rewordAll w h.body, h.line⟩

/-- The title of a scenario may be quoted. -/
def Scenario.reword (s : Scenario) : Scenario :=
  ⟨w.text s.name, s.tags.map w.name, Statement.rewordAll w s.body, s.line⟩

def Feature.reword (f : Feature) : Feature where
  name := w.text f.name
  tags := f.tags.map w.name
  uses := f.uses.map (Use.reword w)
  hooks := f.hooks.map (Hook.reword w)
  scenarios := f.scenarios.map (Scenario.reword w)
  line := f.line

def Program.reword (p : Program) : Program where
  pages := p.pages.map (Page.reword w)
  libraries := p.libraries.map (Library.reword w)
  features := p.features.map (Feature.reword w)

/-! ## Everything counts -/

@[simp] theorem SyntaxError.reword_same : SyntaxError.reword .same = id := by
  funext e
  obtain ⟨fault, pos⟩ := e
  cases fault <;> rfl

@[simp] theorem Wording.name_same : Wording.same.name = id := rfl

@[simp] theorem Wording.text_same : Wording.same.text = id := rfl

@[simp] theorem Primary.reword_same : Primary.reword .same = id := by
  funext p
  cases p <;> simp [Primary.reword]

@[simp] theorem Expression.reword_same : Expression.reword .same = id := by
  funext e
  simp [Expression.reword]

@[simp] theorem PlainSelector.reword_same : PlainSelector.reword .same = id := by
  funext s
  cases s <;> rfl

@[simp] theorem Target.reword_same : Target.reword .same = id := by
  funext t
  cases t <;> simp [Target.reword]

@[simp] theorem Condition.reword_same : Condition.reword .same = id := by
  funext c
  cases c <;> simp [Condition.reword]

@[simp] theorem DataQuery.reword_same : DataQuery.reword .same = id := by
  have hc : DataCondition.reword .same = id := by
    funext c
    simp [DataCondition.reword]
  have hw : WhereClause.reword .same = id := by
    funext c
    simp [WhereClause.reword, hc]
  have ho : OrderBy.reword .same = id := rfl
  funext q
  simp [DataQuery.reword, TableRef.reword, hw, ho]

@[simp] theorem Assertion.reword_same : Assertion.reword .same = id := by
  funext a
  cases a <;> simp [Assertion.reword]

@[simp] theorem Step.reword_same : Step.reword .same = id := by
  funext s
  cases s <;> simp [Step.reword]

namespace Statement

mutual

theorem reword_same : ∀ s : Statement, s.reword .same = s
  | step .. => by simp [reword]
  | branch _ _ thenBody elseBody => by
    simp [reword, rewordAll_same thenBody, rewordAll_same elseBody]
  | repeat_ _ _ body => by simp [reword, rewordAll_same body]
  | forEach _ _ _ body => by simp [reword, rewordAll_same body]

theorem rewordAll_same : ∀ body : List Statement, rewordAll .same body = body
  | [] => rfl
  | s :: rest => by rw [rewordAll, reword_same s, rewordAll_same rest]

end

end Statement

@[simp] theorem Action.reword_same : Action.reword .same = id := by
  funext a
  simp [Action.reword, Statement.rewordAll_same]

theorem Page.reword_same : Page.reword .same = id := by
  have hf : Field.reword .same = id := by
    funext f
    simp [Field.reword]
  have hv : PageVariable.reword .same = id := by
    funext v
    simp [PageVariable.reword]
  funext p
  simp [Page.reword, hf, hv]

theorem Library.reword_same : Library.reword .same = id := by
  funext l
  simp [Library.reword]

theorem Feature.reword_same : Feature.reword .same = id := by
  have hu : Use.reword .same = id := rfl
  have hh : Hook.reword .same = id := by
    funext h
    simp [Hook.reword, Statement.rewordAll_same]
  have hs : Scenario.reword .same = id := by
    funext s
    simp [Scenario.reword, Statement.rewordAll_same]
  funext f
  simp [Feature.reword, hu, hh, hs]

theorem Program.reword_same (p : Program) : p.reword .same = p := by
  simp [Program.reword, Page.reword_same, Library.reword_same, Feature.reword_same]

end UiScenario
