import Dataflow.Flow.Solver

/-!
# Redundant null checks

The registers that have been checked for null on every path, and not written since. A check of such a
register is redundant. The extended mode also learns from the receiver, from allocations, from copies
and from branches that compare with null.
-/

namespace Dataflow

/-- What to do about redundant checks, and how much to learn. -/
structure NullCheckMode where
  remove : Bool
  extended : Bool
deriving DecidableEq, Repr

namespace NullCheckMode

def report : NullCheckMode := ⟨false, false⟩

def removing : NullCheckMode := ⟨true, false⟩

def extendedRemoving : NullCheckMode := ⟨true, true⟩

end NullCheckMode

namespace Operator

/-- The register that is compared with null, in either order. -/
def comparedWithNull? : Operator → Option (Condition × Register × BlockId)
  | ifCmp cond (.reg r) .null target | ifCmp cond .null (.reg r) target => some (cond, r, target)
  | _ => none

/-- The register that a null check looks at. -/
def checked? : Operator → Option Register
  | nullCheck _ (.reg r) => some r
  | _ => none

end Operator

namespace Graph

/-- What a branch on null at the end of a block tells: one arm is only taken when the register is not
null. The first quad of that arm learns it if the arm is entered from this block alone and is not the
other arm as well. -/
def branchFact? (g : Graph) (block : Block) : Option (QuadId × Register) := do
  let last ← block.quads.getLast?
  let (cond, r, target) ← last.op.comparedWithNull?
  let fallthrough ← g.fallthrough block.id
  guard (fallthrough ≠ target)
  let arm ← match cond with
    | .eq => some fallthrough
    | .ne => some target
    | _ => none
  guard (g.predecessors arm = [block.id])
  let first ← (g.block? arm).bind (·.quads.head?)
  return (first.id, r)

def branchFacts (g : Graph) : List (QuadId × Register) := g.blocks.filterMap (g.branchFact? ·.2)

end Graph

namespace NullCheck

/-- The registers known to hold something besides those checked before: the receiver, a fresh object,
a copy of a known register, and what a branch told. -/
def learn (g : Graph) (facts : List (QuadId × Register)) (q : Quad) (s : Registers) : Registers :=
  let s := if g.method.isStatic then s else s.insertAll [Register.param 0]
  let s := match q.op with
    | .new d _ | .newArray d _ => s.insertAll [d]
    | .move d (.reg r) => if r ∈ s then s.insertAll [d] else s
    | _ => s
  s.insertAll ((facts.filter (·.1 = q.id)).map (·.2))

/-- The registers known to be non-null when a quad does its own check. -/
def known (m : NullCheckMode) (g : Graph) (facts : List (QuadId × Register)) (q : Quad)
    (s : Registers) : Registers :=
  let s := s.eraseAll q.defs
  if m.extended then learn g facts q s else s

/-- A check that looks at no register cannot be judged. -/
def fault (q : Quad) : Option FlowError :=
  match q.op with
  | .nullCheck _ (.reg _) => none
  | .nullCheck _ src => some (.nullCheckOperand q.id src)
  | _ => none

def problem (m : NullCheckMode) (g : Graph) : Problem Registers :=
  let facts := if m.extended then g.branchFacts else []
  { direction := .forward
    meet := (· ∩ ·)
    top := g.registers
    source := ∅
    transfer := fun q s => (known m g facts q s).insertAll q.op.checked?.toList
    fault := fault
    verdict := fun q s => q.op.checked?.map (· ∈ known m g facts q s)
    height := g.registers.size + 1 }

end NullCheck

def Analysis.nullCheck (m : NullCheckMode) : Analysis Registers where
  name := "null-check"
  problem := NullCheck.problem m
  removes := m.remove
  text := Registers.text

end Dataflow
