import Dataflow.Text.Basic

/-!
# JSON values

A number is kept as it is written, and an object keeps its fields in order, a repeated one included.
-/

namespace Dataflow

inductive Json where
  | null
  | bool (b : Bool)
  | number (digits : String)
  | string (s : String)
  | array (items : List Json)
  | object (fields : List (String × Json))
deriving Repr, Inhabited

namespace Json

def ofNat (n : Nat) : Json := number (toString n)

def ofInt (n : Int) : Json := number (toString n)

/-- A number that is written as plain digits. -/
def nat? : Json → Option Nat
  | number s => if s.toList.all Char.isDigit then some (digitsValue s.toList) else none
  | _ => none

def bool? : Json → Option Bool
  | bool b => some b
  | _ => none

def string? : Json → Option String
  | string s => some s
  | _ => none

end Json

end Dataflow
