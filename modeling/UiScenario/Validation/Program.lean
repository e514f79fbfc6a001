import UiScenario.Validation.Body

/-!
Findings about a program, given the pages and libraries of the project around it.
-/

namespace UiScenario

namespace Validation

def checkActions (all : Project) (o : Owner) (actions : List Action) : List Problem :=
  actions.flatMap fun a => checkBody all o a.parameters a.body

def checkUses (all : Project) (uses : List Use) : List Problem :=
  (uses.filter fun u => !all.hasPage u.name && !all.hasLibrary u.name).map fun u =>
    .unresolvedUse u.name u.line (pageNames all ++ libraryNames all)

def featureOwner (f : Feature) : Owner :=
  ⟨f.name, some (f.uses.map (·.name)), none⟩

def checkFeature (all : Project) (f : Feature) : List Problem :=
  checkUses all f.uses ++
  f.hooks.flatMap (fun h => checkBody all (featureOwner f) [] h.body) ++
  f.scenarios.flatMap (fun s => checkBody all (featureOwner f) [] s.body)

def checkBodies (all : Project) (p : Program) : List Problem :=
  p.pages.flatMap (fun page => checkActions all ⟨page.name, none, some page.name⟩ page.actions) ++
  p.libraries.flatMap (fun l => checkActions all ⟨l.name, none, l.forPage⟩ l.actions) ++
  p.features.flatMap (checkFeature all)

end Validation

def validate (context : Project) (p : Program) : List Problem :=
  Validation.checkDeclarations context p ++ Validation.checkBodies (context.extend p) p

end UiScenario
