import UiScenario.Script.Program

/-!
Which pages and libraries a program needs. It needs its own, those that its features mention, and
all that the actions of these mention in turn.

* `reachable` gives the names that are needed. One round adds the names that definitions mention;
  only a defined name can bring others with it, so there are at most as many rounds as definitions,
  and one more.
-/

namespace UiScenario.Generate

/-- The pages and libraries that statements mention. -/
def references (body : List Statement) : List String :=
  (Statement.flattenAll body).flatMap Statement.owners

def actionReferences (actions : List Action) : List String :=
  actions.flatMap (references ·.body)

/-- The pages and libraries that the definitions of a name mention. -/
def successors (all : Project) (name : String) : List String :=
  ((all.page? name).elim [] fun p => actionReferences p.actions) ++
    (all.library? name).elim [] fun l => l.forPage.toList ++ actionReferences l.actions

/-- The pages and libraries that a feature mentions. -/
def featureReferences (f : Feature) : List String :=
  f.uses.map (·.name) ++ f.hooks.flatMap (references ·.body) ++
    f.scenarios.flatMap (references ·.body)

/-- The pages and libraries that a program has or mentions outside of actions. -/
def programReferences (p : Program) : List String :=
  p.pages.map (·.name) ++ p.libraries.map (·.name) ++ p.features.flatMap featureReferences

/-- Adds the names that the definitions of names mention. -/
def grow (all : Project) (names : List String) : List String :=
  (names ++ names.flatMap (successors all)).eraseDups

/-- Adds what definitions mention, `rounds` times. -/
def growTimes (all : Project) : Nat → List String → List String
  | 0, names => names
  | rounds + 1, names => growTimes all rounds (grow all names)

/-- The names that can be reached from the given ones. -/
def reachable (all : Project) (names : List String) : List String :=
  growTimes all (all.pages.length + all.libraries.length + 1) names

/-- The names of pages and libraries that a program needs. -/
def neededNames (all : Project) (p : Program) : List String :=
  reachable all (programReferences p)

/-- The pages that are needed, in the order of their first definitions. -/
def neededPages (all : Project) (p : Program) : List Page :=
  let needed := neededNames all p
  ((all.pages.map (·.name)).eraseDups.filter needed.contains).filterMap all.page?

/-- The libraries that are needed, in the order of their first definitions. -/
def neededLibraries (all : Project) (p : Program) : List Library :=
  let needed := neededNames all p
  ((all.libraries.map (·.name)).eraseDups.filter needed.contains).filterMap all.library?

end UiScenario.Generate
