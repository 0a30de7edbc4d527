import Dataflow.Error
import Dataflow.Source.Attempts

/-!
# Why a quad file is refused

Its text does not follow the grammar, or what it says makes no graph.
-/

namespace Dataflow.Source

/-- How many arguments an operator takes. -/
inductive Arity where
  | exactly (n : Nat)
  | between (least most : Nat)
  | atLeast (n : Nat)
deriving DecidableEq, Repr

namespace Arity

def admits : Arity → Nat → Bool
  | exactly n, k => k = n
  | between least most, k => least ≤ k && k ≤ most
  | atLeast n, k => n ≤ k

def text : Arity → String
  | exactly n => toString n
  | between least most => toString least ++ " to " ++ toString most
  | atLeast n => "at least " ++ toString n

end Arity

/-- What is wrong with the arguments of a quad. Arguments are counted from 0. -/
inductive OperandFault where
  | count (arity : Arity) (found : Nat)
  | notRegister (i : Nat)
  | notValue (i : Nat)
  | notName (i : Nat)
  | notBlock (i : Nat)
  | jumpToEntry
deriving DecidableEq, Repr

namespace OperandFault

def message : OperandFault → String
  | count arity found => "takes " ++ arity.text ++ " operands, found " ++ toString found
  | notRegister i => "operand " ++ toString (i + 1) ++ " must be a register"
  | notValue i => "operand " ++ toString (i + 1) ++ " must be a register, integer or null"
  | notName i => "operand " ++ toString (i + 1) ++ " must be a name"
  | notBlock i => "operand " ++ toString (i + 1) ++ " must be a block"
  | jumpToEntry => "cannot jump to entry"

end OperandFault

inductive ParseError where
  | badText (e : SyntaxError)
  | unknownOpcode (line : Nat) (opcode : String)
  | badOperands (line : Nat) (opcode : String) (fault : OperandFault)
  | invalidNumber (line : Nat) (text : String)
  | unknownBlock (method block : String)
  | duplicateBlock (method block : String)
  | missingFallthrough (method block : String)
  | duplicateQuad (method : String) (id : QuadId)
  | graph (method : String) (e : FlowError)
deriving DecidableEq, Repr

namespace ParseError

def message : ParseError → String
  | badText e => "Syntax error: " ++ e.message
  | unknownOpcode line opcode => "Line " ++ toString line ++ ": unknown opcode " ++ opcode
  | badOperands line opcode fault =>
    "Line " ++ toString line ++ ": " ++ opcode ++ " " ++ fault.message
  | invalidNumber line text => "Line " ++ toString line ++ ": number out of range: " ++ text
  | unknownBlock method block => "Method " ++ method ++ ": block " ++ block ++ " is not declared"
  | duplicateBlock method block => "Method " ++ method ++ ": block " ++ block ++ " declared twice"
  | missingFallthrough method block =>
    "Method " ++ method ++ ": block " ++ block ++ " branches conditionally but lists no fallthrough"
  | duplicateQuad method id => "Method " ++ method ++ ": quad id " ++ toString id ++ " used twice"
  | graph method e => "Method " ++ method ++ ": " ++ e.message

end ParseError

end Dataflow.Source
