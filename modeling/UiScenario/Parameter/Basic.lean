import UiScenario.Decimal.Basic

/-!
Parameters: values that are bound to variables of a scenario. A scenario is tested once with each
combination.
-/

namespace UiScenario

inductive ParamValue where
  | null
  | flag (value : Bool)
  | number (value : Decimal)
  | text (value : String)
  | list (items : List ParamValue)

namespace ParamValue

mutual

def label : ParamValue → String
  | null => "null"
  | flag b => if b then "true" else "false"
  | number d => d.shortText
  | text s => s
  | list items => "[" ++ ", ".intercalate (labels items) ++ "]"

def labels : List ParamValue → List String
  | [] => []
  | v :: rest => label v :: labels rest

end

end ParamValue

structure Combination where
  label : Option String
  values : List (String × ParamValue)

namespace Combination

def names (c : Combination) : List String :=
  c.values.map (·.1)

/-- The label of a combination: the one it has, or its names and values. -/
def displayLabel (c : Combination) : String :=
  c.label.getD (", ".intercalate (c.values.map fun (name, value) => name ++ "=" ++ value.label))

end Combination

end UiScenario
