import UiScenario.Validation.Declaration

/-!
Findings about statements. What a statement may name depends on its owner and on the names in scope,
which only grow from one statement to the next.
-/

namespace UiScenario.Validation

structure Owner where
  name : String
  /-- The pages that statements can name; all, if not given. -/
  uses : Option (List String)
  /-- The page of an action, which its statements can always name. -/
  defaultPage : Option String

/-- Whether the statements of an owner can name a page. -/
def Owner.reaches (all : Project) (o : Owner) (page : String) : Bool :=
  o.defaultPage == some page ||
  match o.uses with
  | some uses => uses.contains page
  | none => all.hasPage page

/-- The pages that the statements of an owner can name. -/
def Owner.reachable (all : Project) (o : Owner) : List String :=
  o.uses.getD (pageNames all) ++ o.defaultPage.toList

def Owner.unreachable (all : Project) (o : Owner) (page : String) (line : Nat) : Problem :=
  .pageNotUsed page o.name line (o.reachable all)

/-- Whether a page has a field or variable with the given name. -/
def hasMember (p : Page) (name : String) : Bool :=
  (p.field? name).isSome || (p.pageVariable? name).isSome

/-- Findings about an element. A qualifier in scope is a row, not a page, and a page that is
reachable but not defined is found elsewhere. -/
def checkTarget (all : Project) (o : Owner) (scope : List String) (line : Nat) :
    Target → List Problem
  | .element (some page) field =>
    if scope.contains page then []
    else if !o.reaches all page then [o.unreachable all page line]
    else match all.page? page with
      | none => []
      | some p =>
        if hasMember p field then [] else [.unknownField page field line (p.fields.map (·.name))]
  | _ => []

def checkReference (all : Project) (scope : List String) (line : Nat) :
    Option String × String → List Problem
  | (none, name) => if scope.contains name then [] else [.undefinedVariable name line scope]
  | (some qualifier, name) =>
    if scope.contains qualifier then []
    else match all.page? qualifier with
      | none => [.undefinedVariable (qualifier ++ "." ++ name) line []]
      | some p =>
        if hasMember p name then []
        else
          let members := p.pageVariables.map (·.name) ++ p.fields.map (·.name)
          [.undefinedVariable (qualifier ++ "." ++ name) line members]

/-- Findings about a call of one of the given actions; `found` is the one that is called. -/
def checkCall (page action : String) (count line : Nat) (actions : List Action)
    (found : Option Action) : List Problem :=
  match found with
  | none => [.unknownAction page action line (actions.map (·.name))]
  | some a =>
    if a.parameters.length = count then []
    else [.argumentCount page action a.parameters.length count line]

/-- Findings about a `PERFORM`. A library can always be named, and goes before a page. -/
def checkPerform (all : Project) (o : Owner) (line : Nat) (page action : String) (count : Nat) :
    List Problem :=
  match all.library? page with
  | some l => checkCall page action count line l.actions (l.action? action)
  | none =>
    if !o.reaches all page then [o.unreachable all page line]
    else match all.page? page with
      | none => []
      | some p => checkCall page action count line p.actions (p.action? action)

def checkNames (all : Project) (o : Owner) (scope : List String) (s : Statement) : List Problem :=
  s.targets.flatMap (checkTarget all o scope s.line) ++
    s.expressions.flatMap fun e => e.references.flatMap (checkReference all scope s.line)

mutual

/-- Findings about a statement and the statements inside it. -/
def checkStatement (all : Project) (o : Owner) (scope : List String) (s : Statement) :
    List Problem :=
  checkNames all o scope s ++
  match s with
  | .step line (.perform page action arguments) =>
    checkPerform all o line page action arguments.length
  | .step _ _ => []
  | .branch _ _ thenBody elseBody =>
    checkBody all o scope thenBody ++
      checkBody all o (scope ++ Statement.boundAll thenBody) elseBody
  | .repeat_ _ _ body => checkBody all o scope body
  | .forEach line item collection body =>
    (if scope.contains collection then [] else [.undefinedCollection collection line]) ++
      checkBody all o (scope ++ [item]) body

/-- Findings about statements with the given names in scope. -/
def checkBody (all : Project) (o : Owner) (scope : List String) : List Statement → List Problem
  | [] => []
  | s :: rest => checkStatement all o scope s ++ checkBody all o (scope ++ s.bound) rest

end

end UiScenario.Validation
