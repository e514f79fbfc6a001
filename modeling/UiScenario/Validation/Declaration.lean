import UiScenario.Problem.Basic
import UiScenario.Script.Program
import UiScenario.Text.Casing

/-!
Findings about the declarations of a program. Pages and libraries share their names, within the
program and with the project around it.
-/

namespace UiScenario.Validation

/-- Names in the order of their characters, each once. -/
def sortedNames (names : List String) : List String :=
  names.eraseDups.mergeSort fun a b => decide (a ≤ b)

/-- The members whose name is that of an earlier member or one of `seen`. -/
def repeated (seen : List String) : List (String × Nat) → List (String × Nat)
  | [] => []
  | (name, line) :: rest =>
    if seen.contains name then (name, line) :: repeated seen rest
    else repeated (name :: seen) rest

/-- One finding for each member whose name is taken. -/
def duplicateMembers (kind owner : String) (members : List (String × Nat)) : List Problem :=
  (repeated [] members).map fun (name, line) => .duplicateMember kind name owner line

def actionNames (actions : List Action) : List (String × Nat) :=
  actions.map fun a => (a.name, a.line)

def checkPage (p : Page) : List Problem :=
  (if Text.isPascalCase p.name then [] else [.pageNaming p.name p.line]) ++
  (p.fields.filter (!Text.isCamelCase ·.name)).map (fun f => .fieldNaming p.name f.name f.line) ++
  duplicateMembers "field or variable" p.name
    (p.fields.map (fun f => (f.name, f.line)) ++ p.pageVariables.map (fun v => (v.name, v.line))) ++
  duplicateMembers "action" p.name (actionNames p.actions)

/-- The finding that a page is defined again, where `first` is the earlier definition's line. -/
def duplicatePage (p : Page) (first : Nat) : Problem :=
  .duplicateDefinition "Page" p.name p.line first

def duplicateLibrary (l : Library) (first : Nat) : Problem :=
  .duplicateDefinition "Page actions" l.name l.line first

/-- Findings about pages, where `before` holds the pages in front of them. -/
def checkPages (before : List Page) : List Page → List Problem
  | [] => []
  | p :: rest =>
    let earlier := findLast? (·.name == p.name) before
    (earlier.map (duplicatePage p ·.line)).toList ++ checkPage p ++ checkPages (before ++ [p]) rest

/-- Findings about pages with the name of a library of the project. A page with the name of a
library of the program is left to the library. -/
def checkPageLibraries (context : Project) (p : Program) : List Problem :=
  p.pages.flatMap fun page =>
    if p.libraries.any (·.name == page.name) then []
    else ((context.library? page.name).map (duplicatePage page ·.line)).toList

/-- Findings about libraries and their actions, where `before` holds the libraries in front of them.
-/
def checkLibraries (before : List Library) : List Library → List Problem
  | [] => []
  | l :: rest =>
    let earlier := findLast? (·.name == l.name) before
    (earlier.map (duplicateLibrary l ·.line)).toList ++
      duplicateMembers "action" l.name (actionNames l.actions) ++
      checkLibraries (before ++ [l]) rest

def pageNames (all : Project) : List String :=
  sortedNames (all.pages.map (·.name))

def libraryNames (all : Project) : List String :=
  sortedNames (all.libraries.map (·.name))

def checkLibraryPages (all : Project) (l : Library) : List Problem :=
  ((all.page? l.name).map (duplicateLibrary l ·.line)).toList ++
  match l.forPage with
  | none => []
  | some page =>
    if all.hasPage page then [] else [.unknownLibraryPage l.name page l.line (pageNames all)]

def checkDeclarations (context : Project) (p : Program) : List Problem :=
  checkPages context.pages p.pages ++
  checkPageLibraries context p ++
  checkLibraries context.libraries p.libraries ++
  p.libraries.flatMap (checkLibraryPages (context.extend p))

end UiScenario.Validation
