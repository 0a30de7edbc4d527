import Dataflow.Quad.Text
import Dataflow.Source.Error

/-!
# Operators from their arguments

An opcode and its arguments make an operator if there are as many arguments as it takes and each is of
the kind that stands at its place. The first fault from the left is reported.
-/

namespace Dataflow.Source

/-- An argument whose numbers are read and whose blocks exist. -/
inductive Arg where
  | register (name : Register)
  | int (value : Int32)
  | null
  | block (b : BlockId)
  | symbol (name : String)
deriving DecidableEq, Repr

/-- Why an opcode and its arguments make no operator. -/
inductive OperatorFault where
  | unknownOpcode
  | operands (fault : OperandFault)
deriving DecidableEq, Repr

namespace Arg

abbrev Read (α : Type) := Except OperatorFault α

def fail {α : Type} (fault : OperandFault) : Read α := .error (.operands fault)

def expect (args : List Arg) (arity : Arity) : Read Unit :=
  if arity.admits args.length then .ok () else fail (.count arity args.length)

def registerAt (args : List Arg) (i : Nat) : Read Register :=
  match args[i]? with
  | some (register r) => .ok r
  | _ => fail (.notRegister i)

def valueAt (args : List Arg) (i : Nat) : Read Operand :=
  match args[i]? with
  | some (register r) => .ok (.reg r)
  | some (int v) => .ok (.int v)
  | some null => .ok .null
  | _ => fail (.notValue i)

def symbolAt (args : List Arg) (i : Nat) : Read String :=
  match args[i]? with
  | some (symbol s) => .ok s
  | _ => fail (.notName i)

def targetAt (args : List Arg) (i : Nat) : Read BlockId :=
  match args[i]? with
  | some (block b) => if b = .entry then fail .jumpToEntry else .ok b
  | _ => fail (.notBlock i)

/-- The values from argument `i` on. -/
def valuesFrom (args : List Arg) (i : Nat) : Read (List Operand) :=
  ((List.range (args.length - i)).map (i + ·)).mapM (valueAt args)

end Arg

open Arg

/-- The operator with a mnemonic of its own. -/
def plainOperator (opcode : String) (args : List Arg) : Except OperatorFault Operator := do
  match opcode with
  | "MOVE" =>
    expect args (.exactly 2)
    return .move (← registerAt args 0) (← valueAt args 1)
  | "NULL_CHECK" =>
    expect args (.between 1 2)
    if args.length = 2 then return .nullCheck (some (← registerAt args 0)) (← valueAt args 1)
    else return .nullCheck none (← valueAt args 0)
  | "NEW" =>
    expect args (.exactly 2)
    return .new (← registerAt args 0) (← symbolAt args 1)
  | "NEWARRAY" =>
    expect args (.exactly 2)
    return .newArray (← registerAt args 0) (← valueAt args 1)
  | "ALOAD" =>
    expect args (.exactly 3)
    return .arrayLoad (← registerAt args 0) (← valueAt args 1) (← valueAt args 2)
  | "ASTORE" =>
    expect args (.exactly 3)
    return .arrayStore (← valueAt args 0) (← valueAt args 1) (← valueAt args 2)
  | "ALENGTH" =>
    expect args (.exactly 2)
    return .arrayLength (← registerAt args 0) (← valueAt args 1)
  | "GETFIELD" =>
    expect args (.exactly 3)
    return .getField (← registerAt args 0) (← valueAt args 1) (← symbolAt args 2)
  | "PUTFIELD" =>
    expect args (.exactly 3)
    return .putField (← valueAt args 0) (← symbolAt args 1) (← valueAt args 2)
  | "GETSTATIC" =>
    expect args (.exactly 2)
    return .getStatic (← registerAt args 0) (← symbolAt args 1)
  | "PUTSTATIC" =>
    expect args (.exactly 2)
    return .putStatic (← symbolAt args 0) (← valueAt args 1)
  | "INSTANCEOF" =>
    expect args (.exactly 3)
    return .instanceOf (← registerAt args 0) (← valueAt args 1) (← symbolAt args 2)
  | "CHECKCAST" =>
    expect args (.exactly 3)
    return .checkCast (← registerAt args 0) (← valueAt args 1) (← symbolAt args 2)
  | "INVOKE" =>
    expect args (.atLeast 2)
    let dest ← match args.head? with
      | some (symbol "void") => pure none
      | _ => some <$> registerAt args 0
    return .invoke dest (← symbolAt args 1) (← valuesFrom args 2)
  | "GOTO" =>
    expect args (.exactly 1)
    return .goto (← targetAt args 0)
  | "RETURN" =>
    expect args (.between 0 1)
    if args.isEmpty then return .ret none else return .ret (some (← valueAt args 0))
  | "NOP" =>
    expect args (.exactly 0)
    return .nop
  | _ => .error .unknownOpcode

/-- The condition that a branch mnemonic names. -/
def branchCondition? (opcode : String) : Option Condition :=
  Condition.all.find? fun c => "IFCMP_" ++ c.suffix == opcode

/-- The operator that an opcode and its arguments make. -/
def operatorOf (opcode : String) (args : List Arg) : Except OperatorFault Operator :=
  match BinaryOp.ofMnemonic? opcode, UnaryOp.ofMnemonic? opcode, branchCondition? opcode with
  | some op, _, _ => do
    expect args (.exactly 3)
    return .binary op (← registerAt args 0) (← valueAt args 1) (← valueAt args 2)
  | none, some op, _ => do
    expect args (.exactly 2)
    return .unary op (← registerAt args 0) (← valueAt args 1)
  | none, none, some cond => do
    expect args (.exactly 3)
    return .ifCmp cond (← valueAt args 0) (← valueAt args 1) (← targetAt args 2)
  | none, none, none => plainOperator opcode args

end Dataflow.Source
