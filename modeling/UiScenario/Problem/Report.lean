import UiScenario.Json.Basic
import UiScenario.Problem.Diagnostic

/-!
Reports: the errors and the warnings among the findings about a script, as text and as JSON.
-/

namespace UiScenario

/-- An object with those members that have a value. -/
def Json.record (members : List (String × Option Json)) : Json :=
  .object (members.filterMap fun (name, value) => value.map (name, ·))

namespace Diagnostic

def locationJson (l : Location) : Json :=
  .record [("line", some (.nat l.line)), ("column", l.column.map Json.nat)]

def suggestionJson (s : Suggestion) : Json :=
  .record [("text", some (.string s.text)), ("action", s.action.map Json.string)]

def toJson (d : Diagnostic) : Json :=
  .record [
    ("code", some (.string d.code)),
    ("category", some (.string d.category.name)),
    ("severity", some (.string d.severity.name)),
    ("location", d.location.map locationJson),
    ("title", some (.string d.title)),
    ("whatWentWrong", some (.string d.whatWentWrong)),
    ("howToFix", some (.string d.howToFix)),
    ("suggestions", some (.array (d.suggestions.map suggestionJson))),
    ("flakiness", some (.string d.flakiness.name)),
    ("retryable", some (.bool d.retryable)),
    ("suggestedRetries", d.suggestedRetries.map Json.nat)]

end Diagnostic

/-- Findings, the errors apart from the warnings. -/
structure Report where
  errors : List Problem
  warnings : List Problem

namespace Report

def ofProblems (problems : List Problem) : Report :=
  ⟨problems.filter (·.isError), problems.filter (!·.isError)⟩

def valid (r : Report) : Bool :=
  r.errors.isEmpty

def text (r : Report) : String :=
  renderAll (r.errors.map Problem.diagnostic) (r.warnings.map Problem.diagnostic)

def problemsJson (problems : List Problem) : Json :=
  .array (problems.map (·.diagnostic.toJson))

def toJson (r : Report) : Json :=
  .object [
    ("valid", .bool r.valid),
    ("errors", problemsJson r.errors),
    ("warnings", problemsJson r.warnings)]

end Report

end UiScenario
