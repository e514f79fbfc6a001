import UiScenario.Script.Statement

/-!
Programs: the declarations of a script. Names are looked up from the back, so of several definitions
of a name the last one counts.
-/

namespace UiScenario

def findLast? {α : Type} (p : α → Bool) (xs : List α) : Option α :=
  xs.reverse.find? p

structure Field where
  name : String
  selector : PlainSelector
  line : Nat
deriving DecidableEq

structure PageVariable where
  kind : VariableKind
  name : String
  value : Expression
  line : Nat
deriving DecidableEq

/-- A named sequence of statements with parameters. -/
structure Action where
  name : String
  parameters : List String
  body : List Statement
  line : Nat

structure Page where
  name : String
  url : Option String
  fields : List Field
  pageVariables : List PageVariable
  actions : List Action
  line : Nat

namespace Page

def field? (p : Page) (name : String) : Option Field :=
  findLast? (·.name == name) p.fields

def pageVariable? (p : Page) (name : String) : Option PageVariable :=
  findLast? (·.name == name) p.pageVariables

def action? (p : Page) (name : String) : Option Action :=
  findLast? (·.name == name) p.actions

end Page

/-- A collection of actions, perhaps for one page. -/
structure Library where
  name : String
  forPage : Option String
  actions : List Action
  line : Nat

def Library.action? (l : Library) (name : String) : Option Action :=
  findLast? (·.name == name) l.actions

/-- A mention of a page or library that a feature uses. -/
structure Use where
  name : String
  line : Nat
deriving DecidableEq

inductive HookKind where
  | beforeAll | beforeEach | afterAll | afterEach
deriving DecidableEq

/-- Statements that run around the scenarios of a feature. -/
structure Hook where
  kind : HookKind
  body : List Statement
  line : Nat

structure Scenario where
  name : String
  tags : List String
  body : List Statement
  line : Nat

structure Feature where
  name : String
  tags : List String
  uses : List Use
  hooks : List Hook
  scenarios : List Scenario
  line : Nat

structure Program where
  pages : List Page
  libraries : List Library
  features : List Feature

def Program.empty : Program :=
  ⟨[], [], []⟩

/-- The statement lists of a program: actions of pages and of libraries, then of each feature its
hooks and scenarios. -/
def Program.bodies (p : Program) : List (List Statement) :=
  (p.pages.flatMap (·.actions)).map (·.body) ++ (p.libraries.flatMap (·.actions)).map (·.body) ++
    p.features.flatMap fun f => f.hooks.map (·.body) ++ f.scenarios.map (·.body)

/-- The pages and libraries that are in reach. -/
structure Project where
  pages : List Page
  libraries : List Library

namespace Project

def empty : Project :=
  ⟨[], []⟩

/-- The pages and libraries of a project with those of a program behind them. -/
def extend (context : Project) (p : Program) : Project :=
  ⟨context.pages ++ p.pages, context.libraries ++ p.libraries⟩

def page? (d : Project) (name : String) : Option Page :=
  findLast? (·.name == name) d.pages

def library? (d : Project) (name : String) : Option Library :=
  findLast? (·.name == name) d.libraries

def hasPage (d : Project) (name : String) : Bool :=
  (d.page? name).isSome

def hasLibrary (d : Project) (name : String) : Bool :=
  (d.library? name).isSome

end Project

end UiScenario
