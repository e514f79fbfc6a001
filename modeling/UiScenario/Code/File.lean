import UiScenario.Code.Statement

/-!
Generated test files: imports, then objects for pages and libraries, then suites of tests.
-/

namespace UiScenario.Code

/-- A method of an object. It takes the page that is shown, and then its parameters. -/
structure Method where
  name : String
  parameters : List String
  body : List Statement

structure Fixture where
  name : String
  properties : List (String × Expr)
  methods : List Method

/-- When a hook runs. The hooks of single tests are given a page, those of all tests a browser. -/
inductive HookEvent where
  | beforeAll | beforeEach | afterAll | afterEach
deriving DecidableEq

namespace HookEvent

def name : HookEvent → String
  | beforeAll => "beforeAll"
  | beforeEach => "beforeEach"
  | afterAll => "afterAll"
  | afterEach => "afterEach"

def argument : HookEvent → String
  | beforeAll | afterAll => "browser"
  | beforeEach | afterEach => "page"

end HookEvent

structure Hook where
  event : HookEvent
  body : List Statement

structure Test where
  name : String
  tags : List String
  body : List Statement

structure Suite where
  name : String
  hooks : List Hook
  tests : List Test

structure File where
  usesData : Bool
  fixtures : List Fixture
  suites : List Suite

def Method.lines (m : Method) : List String :=
  let parameters := "page: Page" :: m.parameters.map (· ++ ": any")
  lineAt 1 ("async " ++ m.name ++ "(" ++ ", ".intercalate parameters ++ ") \x7b") ::
    (Statement.blockLines 2 m.body ++ [lineAt 1 "\x7d,"])

def Fixture.lines (f : Fixture) : List String :=
  ("const " ++ f.name ++ " = \x7b") ::
    (f.properties.map (fun (name, value) => lineAt 1 (name ++ ": " ++ value.print ++ ",")) ++
      f.methods.flatMap Method.lines ++ ["\x7d;", ""])

/-- The lines of a call with a function as its last argument, one block deep, and an empty line. -/
def callbackLines (head argument : String) (body : List Statement) : List String :=
  lineAt 1 (head ++ "async (\x7b " ++ argument ++ " \x7d) => \x7b") ::
    (Statement.blockLines 2 body ++ [lineAt 1 "\x7d);", ""])

def Hook.lines (h : Hook) : List String :=
  callbackLines ("test." ++ h.event.name ++ "(") h.event.argument h.body

/-- The head of a test: its name, and its tags if it has any. -/
def Test.head (t : Test) : String :=
  let tags := ", ".intercalate (t.tags.map fun tag => quote ("@" ++ tag))
  let details := if t.tags.isEmpty then "" else "\x7b tag: [" ++ tags ++ "] \x7d, "
  "test(" ++ quote t.name ++ ", " ++ details

def Test.lines (t : Test) : List String :=
  callbackLines t.head "page" t.body

def Suite.lines (s : Suite) : List String :=
  ("test.describe(" ++ quote s.name ++ ", () => \x7b") ::
    (s.hooks.flatMap Hook.lines ++ s.tests.flatMap Test.lines ++ ["\x7d);", ""])

namespace File

def header (f : File) : List String :=
  ["// Generated by vero. Do not edit.",
    "import \x7b test, expect, type Page \x7d from '@playwright/test';"] ++
  (if f.usesData then ["import \x7b testData \x7d from '@vero/runtime';"] else []) ++
  [""]

def lines (f : File) : List String :=
  f.header ++ f.fixtures.flatMap Fixture.lines ++ f.suites.flatMap Suite.lines

def text (f : File) : String :=
  String.join (f.lines.map (· ++ "\n"))

end File

end UiScenario.Code
