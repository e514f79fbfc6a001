import UiScenario.Generate.File
import UiScenario.Grammar.Program
import UiScenario.Parameter.Read
import UiScenario.Problem.Report
import UiScenario.Validation.Program

/-!
Scripts as a whole. Lexical faults hide syntactic ones, and these hide the findings of validation.
Code is generated for scripts without errors; warnings are reported and do not stop it.
-/

namespace UiScenario

/-! ## Reports -/

/-- The program of a script without faults, and the problems of the script. -/
structure Analysis where
  program : Option Program
  problems : List Problem

def analyze (context : Project) (source : String) : Analysis :=
  match parseSource source with
  | .error errors => ⟨none, errors.map .lexical⟩
  | .ok ⟨program, []⟩ => ⟨some program, validate context program⟩
  | .ok ⟨_, errors⟩ => ⟨none, errors.map .syntactic⟩

def check (context : Project) (source : String) : Report :=
  .ofProblems (analyze context source).problems

/-! ## Test files -/

inductive Compilation where
  | success (generated : Generated) (warnings : List Problem)
  | failure (report : Report)

/-- The test file for a script in a project, or why there is none. -/
def compile (context : Project) (request : Request) (source : String) :
    Except Generate.Violation Compilation :=
  let analysis := analyze context source
  let report := Report.ofProblems analysis.problems
  match analysis.program, report.valid with
  | some program, true => do
    return .success (← generate context request program) report.warnings
  | _, _ => .ok (.failure report)

namespace Compilation

def isSuccess : Compilation → Bool
  | success .. => true
  | failure _ => false

def caseJson (c : TestCase) : Json :=
  .record [
    ("feature", some (.string c.feature)),
    ("scenario", some (.string c.scenario)),
    ("combinationLabel", c.combination.map Json.string),
    ("testName", some (.string c.name))]

def generatedMembers (g : Generated) : List (String × Json) :=
  [("code", .string g.code),
    ("totalScenarios", .nat g.total),
    ("selectedScenarios", .nat g.selected),
    ("cases", .array (g.cases.map caseJson))]

def toJson : Compilation → Json
  | success g warnings =>
    let result := generatedMembers g ++ [("warnings", Report.problemsJson warnings)]
    .object [("success", .bool true), ("result", .object result)]
  | failure r =>
    .object [
      ("success", .bool false),
      ("errors", Report.problemsJson r.errors),
      ("warnings", Report.problemsJson r.warnings)]

end Compilation

/-! ## Options -/

structure CompileOptions where
  source : String
  /-- The scripts whose pages and libraries are in reach. -/
  context : List String
  scenario : Option String
  tags : List String
  excludeTags : List String
  tagMode : Option String
  patterns : List String
  parameters : Option String

inductive CompileError where
  | selection (error : SelectionError)
  | parameters (error : ParameterError)
  | violation (violation : Generate.Violation)
deriving DecidableEq

def CompileError.message : CompileError → String
  | selection e => e.message
  | parameters .notJson => "Invalid JSON"
  | parameters e => "Invalid parameter file: " ++ e.message
  | violation v => v.message

namespace CompileOptions

/-- The selection that options ask for; none if they have no criteria. -/
def selection (o : CompileOptions) : Except SelectionError (Option Selection) := do
  let s := o.scenario.elim Selection.none Selection.none.withScenario
  let s := o.tags.foldl Selection.withTag s
  let s := o.excludeTags.foldl Selection.withoutTag s
  let s := { s with mode := ← o.tagMode.elim (.ok s.mode) TagMode.read }
  let s ← o.patterns.foldlM Selection.withPattern s
  return if s.isEmpty then none else some s

def combinations (o : CompileOptions) : Except ParameterError (List Combination) :=
  o.parameters.elim (.ok []) Combination.readAll

/-- What options ask for. Faults of the selection come first. -/
def request (o : CompileOptions) : Except CompileError Request := do
  let selection ← o.selection.mapError .selection
  return ⟨selection, ← o.combinations.mapError .parameters⟩

/-- Compiles as options say. The options are looked at before the script. -/
def run (o : CompileOptions) : Except CompileError Compilation := do
  let request ← o.request
  (compile (parseProject o.context) request o.source).mapError .violation

end CompileOptions

end UiScenario
