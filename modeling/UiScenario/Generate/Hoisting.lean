import UiScenario.Script.Statement

/-!
Names that have to be declared at the top of a body: a name is in scope in all that follows, also
outside the block that declares it, so names of inner blocks, items of loops and names that are
declared twice cannot be constants in their place.
-/

namespace UiScenario.Generate

mutual

/-- The names that a statement declares, in order, and whether their place alone asks for hoisting;
`inner` tells whether the statement is in an inner block. -/
def declarations (inner : Bool) : Statement → List (String × Bool)
  | .step _ s => (s.bound?.map (·, inner)).toList
  | .branch _ _ thenBody elseBody => declarationsIn true thenBody ++ declarationsIn true elseBody
  | .repeat_ _ _ body => declarationsIn true body
  | .forEach _ item _ body => (item, true) :: declarationsIn true body

/-- The names that statements declare. -/
def declarationsIn (inner : Bool) : List Statement → List (String × Bool)
  | [] => []
  | s :: rest => declarations inner s ++ declarationsIn inner rest

end

/-- The names to hoist, where `seen` are declared already and `hoisted` are hoisted already. -/
def hoistFrom (seen hoisted : List String) : List (String × Bool) → List String
  | [] => hoisted
  | (name, forced) :: rest =>
    let hoists := (forced || seen.contains name) && !hoisted.contains name
    hoistFrom (name :: seen) (if hoists then hoisted ++ [name] else hoisted) rest

/-- The names to hoist in a body where the names `bound` are declared already, each once. -/
def hoistedNames (bound : List String) (body : List Statement) : List String :=
  hoistFrom bound [] (declarationsIn false body)

end UiScenario.Generate
