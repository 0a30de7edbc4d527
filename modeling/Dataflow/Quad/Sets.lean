import Std.Data.ExtTreeSet
import Dataflow.Quad.Basic

/-!
# Sets of registers and of quads

Both kinds of set are equal as soon as they have the same members, and list them in ascending order:
registers by the code points of their names, so `R10` stands before `R2`, and quads by number.
-/

namespace Dataflow

/-- A finite set of registers. -/
abbrev Registers := Std.ExtTreeSet Register

/-- A finite set of quads, by number. -/
abbrev QuadIds := Std.ExtTreeSet QuadId

namespace Registers

/-- Removes every register of `rs`. -/
def eraseAll (s : Registers) (rs : List Register) : Registers := rs.foldl Std.ExtTreeSet.erase s

/-- Adds every register of `rs`. -/
def insertAll (s : Registers) (rs : List Register) : Registers := rs.foldl Std.ExtTreeSet.insert s

@[simp] theorem mem_eraseAll {s : Registers} {rs : List Register} {r : Register} :
    r ∈ s.eraseAll rs ↔ r ∈ s ∧ r ∉ rs := by
  unfold eraseAll
  induction rs generalizing s with
  | nil => simp
  | cons a rs ih => simp [ih]; grind

@[simp] theorem mem_insertAll {s : Registers} {rs : List Register} {r : Register} :
    r ∈ s.insertAll rs ↔ r ∈ rs ∨ r ∈ s := by
  unfold insertAll
  induction rs generalizing s with
  | nil => simp
  | cons a rs ih => simp [ih]; grind

def text (s : Registers) : String := "[" ++ ", ".intercalate s.toList ++ "]"

end Registers

namespace QuadIds

def text (s : QuadIds) : String := "[" ++ ", ".intercalate (s.toList.map toString) ++ "]"

end QuadIds

end Dataflow
