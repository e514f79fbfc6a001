import UiScenario.Code.File
import UiScenario.Generate.Reference
import UiScenario.Generate.Statement
import UiScenario.Parameter.Basic
import UiScenario.Selection

/-!
Test files for programs: an object for each page and library that is needed, and a suite for each
feature with selected scenarios. A scenario gives one test, or one for each combination of
parameters.
-/

namespace UiScenario

structure TestCase where
  feature : String
  scenario : String
  combination : Option String
  name : String
deriving DecidableEq

structure Generated where
  file : Code.File
  total : Nat
  selected : Nat
  cases : List TestCase

def Generated.code (g : Generated) : String :=
  g.file.text

/-- What to generate tests for: the scenarios of a selection, each with every combination. Without a
selection it is all scenarios, without combinations each scenario once. -/
structure Request where
  selection : Option Selection
  combinations : List Combination

namespace Generate

open Code (Expr)

/-! ## Objects -/

def method (all : Project) (page : Option String) (a : Action) : Except Violation Code.Method := do
  return ⟨a.name, a.parameters, ← body all ⟨page, []⟩ a.parameters a.body⟩

def hasObject (p : Page) : Bool :=
  p.url.isSome || !p.pageVariables.isEmpty || !p.actions.isEmpty

def pageFixture (all : Project) (p : Page) : Except Violation Code.Fixture := do
  let setting : Setting := ⟨all, some p.name, [], []⟩
  let url := (p.url.map fun url => ("url", Expr.text url)).toList
  let values := p.pageVariables.map fun v => (v.name, expression setting (.start []) v.value)
  return ⟨p.name, url ++ values, ← p.actions.mapM (method all (some p.name))⟩

def libraryFixture (all : Project) (l : Library) : Except Violation Code.Fixture := do
  return ⟨l.name, [], ← l.actions.mapM (method all l.forPage)⟩

/-! ## Hooks and tests -/

def hookEvent : HookKind → Code.HookEvent
  | .beforeAll => .beforeAll
  | .beforeEach => .beforeEach
  | .afterAll => .afterAll
  | .afterEach => .afterEach

def withOwnPage (code : List Code.Statement) : List Code.Statement :=
  .let_ "page" (.await (.invoke (.name "browser") "newPage" [])) ::
    (code ++ [awaitCall page "close" []])

/-- The code of a hook. Hooks around all tests open a page of their own. -/
def hook (all : Project) (uses : List String) (h : Hook) : Except Violation Code.Hook := do
  let code ← body all ⟨none, uses⟩ [] h.body
  return ⟨hookEvent h.kind, match h.kind with
    | .beforeAll | .afterAll => withOwnPage code
    | .beforeEach | .afterEach => code⟩

mutual

def parameterCode : ParamValue → Expr
  | .null => .null
  | .flag b => .flag b
  | .number d => .number d
  | .text s => .text s
  | .list items => .array (parameterCodes items)

def parameterCodes : List ParamValue → List Expr
  | [] => []
  | v :: rest => parameterCode v :: parameterCodes rest

end

/-- The declarations of parameters. Those that are assigned later are no constants. -/
def bindings (hoisted : List String) (values : List (String × ParamValue)) :
    List Code.Statement :=
  values.map fun (name, value) =>
    if hoisted.contains name then .let_ name (parameterCode value)
    else .const name (parameterCode value)

/-- The body of a test of a scenario with the given values. -/
def testBody (all : Project) (uses : List String) (s : Scenario)
    (values : List (String × ParamValue)) : Except Violation (List Code.Statement) := do
  let bound := values.map (·.1)
  let code ← body all ⟨none, uses⟩ bound s.body
  return bindings (hoistedNames bound s.body) values ++ code

/-- Labels for combinations, the first of which has the given number, where `used` are taken. A
label that is taken is numbered. -/
def labelsFrom (used : List String) (number : Nat) : List Combination → List (Combination × String)
  | [] => []
  | c :: rest =>
    let label := c.displayLabel
    let label := if used.contains label then s!"{label} #{number}" else label
    (c, label) :: labelsFrom (label :: used) (number + 1) rest

/-- The tests of a scenario: the label of the combination and its values. -/
def variants (combinations : List Combination) :
    List (Option String × List (String × ParamValue)) :=
  if combinations.isEmpty then [(none, [])]
  else (labelsFrom [] 1 combinations).map fun (c, label) => (some label, c.values)

def testName (s : Scenario) (label : Option String) : String :=
  label.elim s.name fun label => s!"{s.name} [{label}]"

def test (all : Project) (f : Feature) (s : Scenario) (label : Option String)
    (values : List (String × ParamValue)) : Except Violation (Code.Test × TestCase) := do
  let name := testName s label
  let code ← testBody all (f.uses.map (·.name)) s values
  return (⟨name, effectiveTags f s, code⟩, ⟨f.name, s.name, label, name⟩)

def tests (all : Project) (f : Feature) (combinations : List Combination) (s : Scenario) :
    Except Violation (List (Code.Test × TestCase)) :=
  (variants combinations).mapM fun (label, values) => test all f s label values

/-- The suite for scenarios of a feature with an account of its tests. -/
def suite (all : Project) (combinations : List Combination) (f : Feature)
    (scenarios : List Scenario) : Except Violation (Code.Suite × List TestCase) := do
  let hooks ← f.hooks.mapM (hook all (f.uses.map (·.name)))
  let made := (← scenarios.mapM (tests all f combinations)).flatten
  return (⟨f.name, hooks, made.map (·.1)⟩, made.map (·.2))

/-! ## Files -/

/-- The selected scenarios of features that have any. -/
def selectedScenarios (selection : Option Selection) (features : List Feature) :
    List (Feature × List Scenario) :=
  (features.map fun f => (f, f.scenarios.filter fun s => selection.all (·.matches_ f s))).filter
    (!·.2.isEmpty)

/-- Whether statements query data at any depth. -/
def queries (body : List Statement) : Bool :=
  (Statement.flattenAll body).any Statement.isQuery

/-- Whether the code for pages, libraries and scenarios queries data. -/
def usesData (pages : List Page) (libraries : List Library)
    (chosen : List (Feature × List Scenario)) : Bool :=
  pages.any (·.actions.any (queries ·.body)) || libraries.any (·.actions.any (queries ·.body)) ||
    chosen.any fun (f, scenarios) =>
      f.hooks.any (queries ·.body) || scenarios.any (queries ·.body)

end Generate

open Generate in
/-- The test file for a program in a project. Pages with nothing but fields have no object. -/
def generate (context : Project) (request : Request) (p : Program) :
    Except Violation Generated := do
  let all := context.extend p
  let pages := neededPages all p
  let libraries := neededLibraries all p
  let chosen := selectedScenarios request.selection p.features
  let pageObjects ← (pages.filter hasObject).mapM (pageFixture all)
  let libraryObjects ← libraries.mapM (libraryFixture all)
  let suites ← chosen.mapM fun (f, scenarios) => suite all request.combinations f scenarios
  return {
    file := ⟨usesData pages libraries chosen, pageObjects ++ libraryObjects, suites.map (·.1)⟩
    total := (p.features.flatMap (·.scenarios)).length
    selected := (chosen.flatMap (·.2)).length
    cases := suites.flatMap (·.2) }

end UiScenario
