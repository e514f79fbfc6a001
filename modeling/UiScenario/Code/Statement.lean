import UiScenario.Code.Expr

/-!
Statements of the generated test code, and the lines they are written on. The lines of a block are
indented by two spaces for each block around them.
-/

namespace UiScenario.Code

inductive Statement where
  | eval (value : Expr)
  | declare (names : List String)
  | let_ (name : String) (value : Expr)
  | const (name : String) (value : Expr)
  | assign (name : String) (value : Expr)
  | branch (condition : Expr) (thenBody : List Statement)
  | choice (condition : Expr) (thenBody elseBody : List Statement)
  | count (counter : String) (bound : Expr) (body : List Statement)
  | forOf (item collection : String) (body : List Statement)

def lineAt (level : Nat) (text : String) : String :=
  String.ofList (List.replicate (2 * level) ' ') ++ text

namespace Statement

def countHead (counter : String) (bound : Expr) : String :=
  "for (let " ++ counter ++ " = 0; " ++ counter ++ " < " ++ bound.print ++ "; " ++ counter ++
    "++) \x7b"

mutual

def lines (level : Nat) : Statement → List String
  | eval e => [lineAt level (e.print ++ ";")]
  | declare names => [lineAt level ("let " ++ ", ".intercalate names ++ ";")]
  | let_ name e => [lineAt level ("let " ++ name ++ " = " ++ e.print ++ ";")]
  | const name e => [lineAt level ("const " ++ name ++ " = " ++ e.print ++ ";")]
  | assign name e => [lineAt level (name ++ " = " ++ e.print ++ ";")]
  | branch condition thenBody =>
    lineAt level ("if (" ++ condition.print ++ ") \x7b") ::
      (blockLines (level + 1) thenBody ++ [lineAt level "\x7d"])
  | choice condition thenBody elseBody =>
    lineAt level ("if (" ++ condition.print ++ ") \x7b") ::
      (blockLines (level + 1) thenBody ++
        lineAt level "\x7d else \x7b" ::
          (blockLines (level + 1) elseBody ++ [lineAt level "\x7d"]))
  | count counter bound body =>
    lineAt level (countHead counter bound) ::
      (blockLines (level + 1) body ++ [lineAt level "\x7d"])
  | forOf item collection body =>
    lineAt level ("for (" ++ item ++ " of " ++ collection ++ ") \x7b") ::
      (blockLines (level + 1) body ++ [lineAt level "\x7d"])

def blockLines (level : Nat) : List Statement → List String
  | [] => []
  | s :: rest => lines level s ++ blockLines level rest

end

end Statement

end UiScenario.Code
