/-!
# Quads

A quad is one numbered instruction of a method body: an operator with its destination register and
its operands. What an analysis needs to know of a quad is which registers it writes (`defs`), which
it reads (`uses`), and whether it does anything else (`hasSideEffects`).
-/

namespace Dataflow

/-- A virtual register, known by its name: `R0`, `R1`, … are locals and parameters, `T0`, … are
temporaries. -/
abbrev Register := String

namespace Register

/-- The register that holds parameter number `i`. -/
def param (i : Nat) : Register := "R" ++ toString i

end Register

/-- The number of a quad, unique within its method. -/
abbrev QuadId := Nat

/-- A basic block of a method. Blocks 0 and 1 hold no quads: flow enters the method at the one and
leaves it at the other. -/
structure BlockId where
  index : Nat
deriving DecidableEq, Repr

namespace BlockId

/-- The block where flow enters a method. -/
def entry : BlockId := ⟨0⟩

/-- The block where flow leaves a method. -/
def exit : BlockId := ⟨1⟩

def isPseudo (b : BlockId) : Bool := b == entry || b == exit

def text (b : BlockId) : String :=
  if b = entry then "entry" else if b = exit then "exit" else "bb" ++ toString b.index

end BlockId

/-- What an operator reads. -/
inductive Operand where
  | reg (r : Register)
  | int (value : Int32)
  | null
  | symbol (name : String)
deriving DecidableEq, Repr

namespace Operand

def register? : Operand → Option Register
  | reg r => some r
  | _ => none

def isNull : Operand → Bool
  | null => true
  | _ => false

end Operand

inductive BinaryOp where
  | add | sub | mul | div | rem | and | or | xor | shl | shr | cmp
deriving DecidableEq, Repr

inductive UnaryOp where
  | neg | not
deriving DecidableEq, Repr

/-- How a conditional branch compares its two operands. -/
inductive Condition where
  | eq | ne | lt | ge | gt | le
deriving DecidableEq, Repr

/-- What a quad does. `nullCheck` throws when its source is null; its guard, if any, carries the
outcome of the check. -/
inductive Operator where
  | move (dest : Register) (src : Operand)
  | binary (op : BinaryOp) (dest : Register) (left right : Operand)
  | unary (op : UnaryOp) (dest : Register) (src : Operand)
  | nullCheck (guard : Option Register) (src : Operand)
  | new (dest : Register) (className : String)
  | newArray (dest : Register) (size : Operand)
  | arrayLoad (dest : Register) (array index : Operand)
  | arrayStore (array index value : Operand)
  | arrayLength (dest : Register) (array : Operand)
  | getField (dest : Register) (object : Operand) (field : String)
  | putField (object : Operand) (field : String) (value : Operand)
  | getStatic (dest : Register) (field : String)
  | putStatic (field : String) (value : Operand)
  | instanceOf (dest : Register) (src : Operand) (className : String)
  | checkCast (dest : Register) (src : Operand) (className : String)
  | invoke (dest : Option Register) (method : String) (args : List Operand)
  | ifCmp (cond : Condition) (left right : Operand) (target : BlockId)
  | goto (target : BlockId)
  | ret (value : Option Operand)
  | nop
deriving DecidableEq, Repr

namespace Operator

/-- The registers the operator writes. -/
def defs : Operator → List Register
  | move d _ | binary _ d _ _ | unary _ d _ | new d _ | newArray d _ | arrayLoad d _ _
  | arrayLength d _ | getField d _ _ | getStatic d _ | instanceOf d _ _ | checkCast d _ _ => [d]
  | nullCheck guard _ => guard.toList
  | invoke dest _ _ => dest.toList
  | _ => []

/-- The operands the operator reads, in the order they are written. -/
def operands : Operator → List Operand
  | move _ s | unary _ _ s | nullCheck _ s | instanceOf _ s _ | checkCast _ s _ => [s]
  | binary _ _ l r | ifCmp _ l r _ => [l, r]
  | newArray _ n => [n]
  | arrayLoad _ a i => [a, i]
  | arrayStore a i v => [a, i, v]
  | arrayLength _ a => [a]
  | getField _ o _ => [o]
  | putField o _ v => [o, v]
  | putStatic _ v => [v]
  | invoke _ _ args => args
  | ret v => v.toList
  | new _ _ | getStatic _ _ | goto _ | nop => []

/-- The registers the operator reads. -/
def uses (o : Operator) : List Register := o.operands.filterMap Operand.register?

/-- Whether the operator does anything besides writing its registers. -/
def hasSideEffects : Operator → Bool
  | nullCheck .. | arrayStore .. | putField .. | putStatic .. | checkCast .. | invoke ..
  | ifCmp .. | goto .. | ret .. => true
  | _ => false

/-- Whether the operator decides where flow goes next. -/
def isBranch : Operator → Bool
  | ifCmp .. | goto .. | ret .. => true
  | _ => false

/-- Whether the operator jumps or falls through. -/
def isConditional : Operator → Bool
  | ifCmp .. => true
  | _ => false

/-- The block a jump names. -/
def target? : Operator → Option BlockId
  | ifCmp _ _ _ t | goto t => some t
  | _ => none

end Operator

structure Quad where
  id : QuadId
  op : Operator
deriving DecidableEq, Repr

namespace Quad

def defs (q : Quad) : List Register := q.op.defs

def uses (q : Quad) : List Register := q.op.uses

def hasSideEffects (q : Quad) : Bool := q.op.hasSideEffects

end Quad

end Dataflow
