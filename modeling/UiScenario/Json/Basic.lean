import UiScenario.Number.Shortest

/-!
JSON values. A number is kept as an integer if it was written as one of 64 bits, and as a binary
number otherwise; an object keeps its members in order, each name once.
-/

namespace UiScenario

/-- A JSON number. -/
inductive Json.Number where
  | integer (value : Int)
  | binary (negative : Bool) (value : Binary64)
deriving DecidableEq

def Json.Number.text : Json.Number → String
  | .integer value => toString value
  | .binary negative value => (if negative then "-" else "") ++ value.numeral

inductive Json where
  | null
  | bool (value : Bool)
  | number (value : Json.Number)
  | string (value : String)
  | array (items : List Json)
  | object (members : List (String × Json))

namespace Json

def nat (n : Nat) : Json :=
  .number (.integer n)

/-- The members of an object with one more: a name that is already there keeps its place and takes
the new value. -/
def insertMember (name : String) (value : Json) : List (String × Json) → List (String × Json)
  | [] => [(name, value)]
  | (n, v) :: rest =>
    if n = name then (n, value) :: rest else (n, v) :: insertMember name value rest

def get? (name : String) : Json → Option Json
  | .object members => members.lookup name
  | _ => none

end Json

end UiScenario
