import Dataflow.Flow.Solver
import Dataflow.Lattice.Constants

/-!
# Constant propagation

Which registers hold one and the same 32-bit integer on every path. Addition, subtraction,
multiplication and negation of constants are carried out, wrapping around; what any other operator
writes is not constant. Parameters are not constant when the method starts.
-/

namespace Dataflow

namespace BinaryOp

/-- The operation on constants, for those that are carried out. -/
def fold? : BinaryOp → Option (Int32 → Int32 → Int32)
  | add => some (· + ·)
  | sub => some (· - ·)
  | mul => some (· * ·)
  | _ => none

end BinaryOp

namespace Operand

/-- What is known of the value of an operand that can be an integer. -/
def state? (t : Constants) : Operand → Option ConstState
  | reg r => some (t.get r)
  | int v => some (.const v)
  | null | symbol _ => none

/-- Whether an operand can be an integer. -/
def isInteger : Operand → Bool
  | reg _ | int _ => true
  | null | symbol _ => false

end Operand

namespace ConstState

/-- What is known of the result of an operation. -/
def combine (f : Int32 → Int32 → Int32) : ConstState → ConstState → ConstState
  | nac, _ | _, nac => nac
  | undef, _ | _, undef => undef
  | const a, const b => const (f a b)

/-- What is known of the negative. -/
def negate : ConstState → ConstState
  | undef => undef
  | const v => const (-v)
  | nac => nac

end ConstState

namespace ConstantProp

/-- What a binary quad writes. -/
def binaryState (t : Constants) (op : BinaryOp) (l r : Operand) : ConstState :=
  match op.fold?, l.state? t, r.state? t with
  | some f, some a, some b => a.combine f b
  | _, _, _ => .nac

/-- What is known after a quad, from what is known before it. -/
def transfer (q : Quad) (t : Constants) : Constants :=
  match q.op with
  | .move d s => t.set d ((s.state? t).getD .nac)
  | .binary op d l r => t.set d (binaryState t op l r)
  | .unary .neg d s => t.set d (((s.state? t).map ConstState.negate).getD .nac)
  | op => op.defs.foldl (Constants.set · · .nac) t

/-- Operations that are carried out need operands that can be integers. -/
def fault (q : Quad) : Option FlowError :=
  match q.op with
  | .binary op _ l r =>
    if op.fold?.isSome && !(l.isInteger && r.isInteger) then some (.arithmeticOperand q.id op) else none
  | _ => none

def problem (g : Graph) : Problem Constants where
  direction := .forward
  meet := Constants.meet
  top := ∅
  source := g.method.paramRegisters.foldl (Constants.set · · .nac) ∅
  transfer := transfer
  fault := fault
  height := 2 * g.registers.size

end ConstantProp

def Analysis.constantProp : Analysis Constants where
  name := "constant-prop"
  problem := ConstantProp.problem
  text := Constants.text

end Dataflow
