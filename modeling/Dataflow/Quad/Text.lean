import Dataflow.Quad.Basic

/-!
# The text of a quad

A quad is written `id: MNEMONIC arg, arg, …`. Mnemonics are looked up through the same tables that
print them, so a name that is printed is a name that is found.
-/

namespace Dataflow

namespace Operand

def text : Operand → String
  | reg r => r
  | int v => toString v.toInt
  | null => "null"
  | symbol s => s

end Operand

namespace BinaryOp

def all : List BinaryOp := [add, sub, mul, div, rem, and, or, xor, shl, shr, cmp]

def mnemonic : BinaryOp → String
  | add => "ADD"
  | sub => "SUB"
  | mul => "MUL"
  | div => "DIV"
  | rem => "REM"
  | and => "AND"
  | or => "OR"
  | xor => "XOR"
  | shl => "SHL"
  | shr => "SHR"
  | cmp => "CMP"

def ofMnemonic? (s : String) : Option BinaryOp := all.find? (·.mnemonic == s)

end BinaryOp

namespace UnaryOp

def all : List UnaryOp := [neg, not]

def mnemonic : UnaryOp → String
  | neg => "NEG"
  | not => "NOT"

def ofMnemonic? (s : String) : Option UnaryOp := all.find? (·.mnemonic == s)

end UnaryOp

namespace Condition

def all : List Condition := [eq, ne, lt, ge, gt, le]

/-- What follows `IFCMP_` in the mnemonic of a branch. -/
def suffix : Condition → String
  | eq => "EQ"
  | ne => "NE"
  | lt => "LT"
  | ge => "GE"
  | gt => "GT"
  | le => "LE"

def ofSuffix? (s : String) : Option Condition := all.find? (·.suffix == s)

end Condition

namespace Operator

def mnemonic : Operator → String
  | move .. => "MOVE"
  | binary op .. => op.mnemonic
  | unary op .. => op.mnemonic
  | nullCheck .. => "NULL_CHECK"
  | new .. => "NEW"
  | newArray .. => "NEWARRAY"
  | arrayLoad .. => "ALOAD"
  | arrayStore .. => "ASTORE"
  | arrayLength .. => "ALENGTH"
  | getField .. => "GETFIELD"
  | putField .. => "PUTFIELD"
  | getStatic .. => "GETSTATIC"
  | putStatic .. => "PUTSTATIC"
  | instanceOf .. => "INSTANCEOF"
  | checkCast .. => "CHECKCAST"
  | invoke .. => "INVOKE"
  | ifCmp cond .. => "IFCMP_" ++ cond.suffix
  | goto .. => "GOTO"
  | ret .. => "RETURN"
  | nop => "NOP"

/-- The arguments as they are written, left to right. A call without a result writes `void` in its
place. -/
def args : Operator → List String
  | move d s => [d, s.text]
  | binary _ d l r => [d, l.text, r.text]
  | unary _ d s => [d, s.text]
  | nullCheck guard s => guard.toList ++ [s.text]
  | new d c => [d, c]
  | newArray d n => [d, n.text]
  | arrayLoad d a i => [d, a.text, i.text]
  | arrayStore a i v => [a.text, i.text, v.text]
  | arrayLength d a => [d, a.text]
  | getField d o f => [d, o.text, f]
  | putField o f v => [o.text, f, v.text]
  | getStatic d f => [d, f]
  | putStatic f v => [f, v.text]
  | instanceOf d s c => [d, s.text, c]
  | checkCast d s c => [d, s.text, c]
  | invoke dest m as => dest.getD "void" :: m :: as.map Operand.text
  | ifCmp _ l r t => [l.text, r.text, t.text]
  | goto t => [t.text]
  | ret v => v.toList.map Operand.text
  | nop => []

def text (o : Operator) : String :=
  match o.args with
  | [] => o.mnemonic
  | args => o.mnemonic ++ " " ++ ", ".intercalate args

end Operator

namespace Quad

def text (q : Quad) : String := toString q.id ++ ": " ++ q.op.text

end Quad

end Dataflow
