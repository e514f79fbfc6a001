import UiScenario.Generate.Selector
import UiScenario.Script.Program

/-!
Values and elements in generated code. A name with a qualifier is a column if the qualifier is a
variable, and otherwise a member of a page: a variable of the page is read from its object, and a
field stands for the text that its element shows.
-/

namespace UiScenario.Generate

open Code (Expr)

/-- A name that cannot be resolved. Valid programs have none. -/
inductive Violation where
  | unknownPage (page : String) (line : Nat)
  | unknownAction (page action : String) (line : Nat)
  | argumentCount (page action : String) (expected found line : Nat)
deriving DecidableEq

def Violation.message : Violation → String
  | unknownPage page line => s!"internal error: page '{page}' at line {line} is not defined"
  | unknownAction page action line =>
    s!"internal error: '{page}' has no action '{action}' (line {line})"
  | argumentCount page action expected found line =>
    s!"internal error: {page}.{action} takes {expected} argument(s), {found} given (line {line})"

/-- What is fixed while the statements of a body are generated. -/
structure Setting where
  all : Project
  /-- The page whose fields are meant first by names alone. -/
  defaultPage : Option String
  /-- The pages whose fields are meant next, in order. -/
  uses : List String
  /-- The names that are declared at the top of the body. -/
  hoisted : List String

/-- What changes while the statements of a body are generated. -/
structure Progress where
  /-- The variables in scope. -/
  scope : List String
  /-- The variable below which elements are found: the page, or a frame. -/
  root : String
  /-- How many frames were entered. -/
  frames : Nat
  /-- How many texts were read ahead of queries. -/
  reads : Nat

/-- The start of a body with the given variables in scope. -/
def Progress.start (scope : List String) : Progress :=
  ⟨scope, "page", 0, 0⟩

def Progress.hasVariable (p : Progress) (name : String) : Bool :=
  p.scope.contains name

def Progress.bind (p : Progress) (name : String) : Progress :=
  if p.hasVariable name then p else { p with scope := p.scope ++ [name] }

/-! ## Elements of pages -/

def byText (root : String) (value : Expr) : Expr :=
  .invoke (.name root) "getByText" [value]

/-- A variable of the environment, or the empty text. -/
def envValue (name : String) : Expr :=
  .paren (.binary .orElse (.index (.member (.name "process") "env") (.text name)) (.text ""))

def plainLocator (root : String) : PlainSelector → Expr
  | .text value => (Selector.ofText value).locator root
  | .env name => .invoke (.name root) "locator" [envValue name]

/-- The element of a member of a page: a field, or what shows the value of a variable. -/
def memberLocator? (root : String) (page : Page) (name : String) : Option Expr :=
  match page.field? name with
  | some f => some (plainLocator root f.selector)
  | none => (page.pageVariable? name).map fun _ =>
      byText root (.stringOf (.member (.name page.name) name))

/-- The element of a name on a page. A name that the page does not declare is a text it shows. -/
def pageLocator (root : String) (page : Page) (name : String) : Expr :=
  (memberLocator? root page name).getD (byText root (.text name))

def elementText (element : Expr) : Expr :=
  .paren (.binary .orElse (.paren (.await (.invoke element "textContent" []))) (.text ""))

/-! ## Values -/

/-- The page whose member with the given name is read by reading an element. -/
def elementPage? (all : Project) (qualifier name : String) : Option Page :=
  (all.page? qualifier).filter fun page => (page.pageVariable? name).isNone

def primary (b : Setting) (p : Progress) : Primary → Expr
  | .text value => .text value
  | .number value => .number value
  | .flag value => .flag value
  | .env name => envValue name
  | .ref none name => .name name
  | .ref (some qualifier) name =>
    if p.hasVariable qualifier then .member (.name qualifier) name
    else match elementPage? b.all qualifier name with
      | some page => elementText (pageLocator p.root page name)
      | none => .member (.name qualifier) name

def primaryText (b : Setting) (p : Progress) (value : Primary) : Expr :=
  match value with
  | .text _ | .env _ => primary b p value
  | _ => .stringOf (primary b p value)

def expression (b : Setting) (p : Progress) (e : Expression) : Expr :=
  if e.rest.isEmpty then primary b p e.first else .sum (e.parts.map (primaryText b p))

def textOf (b : Setting) (p : Progress) (e : Expression) : Expr :=
  if e.rest.isEmpty then primaryText b p e.first else expression b p e

/-- Whether the code of a plain value reads an element. -/
def primaryReads (b : Setting) (p : Progress) : Primary → Bool
  | .ref (some qualifier) name =>
    !p.hasVariable qualifier && (elementPage? b.all qualifier name).isSome
  | _ => false

def readsElement (b : Setting) (p : Progress) (e : Expression) : Bool :=
  e.parts.any (primaryReads b p)

/-! ## Elements -/

/-- The element with a selector that may be computed. -/
def selectorLocator (b : Setting) (p : Progress) : Expression → Expr
  | ⟨.text value, []⟩ => (Selector.ofText value).locator p.root
  | e => .invoke (.name p.root) "locator" [textOf b p e]

/-- The element that a name alone means: what shows the value of a variable, or the first member
with this name of the pages in reach, or else a text. -/
def nameLocator (b : Setting) (p : Progress) (name : String) : Expr :=
  if p.hasVariable name then byText p.root (.stringOf (.name name))
  else
    let pages := (b.defaultPage.toList ++ b.uses).filterMap b.all.page?
    (pages.findSome? (memberLocator? p.root · name)).getD (byText p.root (.text name))

def locator (b : Setting) (p : Progress) (line : Nat) : Target → Except Violation Expr
  | .selector e => .ok (selectorLocator b p e)
  | .unset => .error (.unknownPage "" line)
  | .element none name => .ok (nameLocator b p name)
  | .element (some qualifier) name =>
    if p.hasVariable qualifier then
      .ok (byText p.root (.stringOf (.member (.name qualifier) name)))
    else match b.all.page? qualifier with
      | some page => .ok (pageLocator p.root page name)
      | none => .error (.unknownPage qualifier line)

end UiScenario.Generate
