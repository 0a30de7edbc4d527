import Dataflow.Flow.Solver

/-!
# Live registers

A register is live where some path leads on to a quad that reads it before any quad writes it. A quad
that does nothing but write registers, all of them dead afterwards, is dead code.
-/

namespace Dataflow

namespace Liveness

/-- What is live before a quad, from what is live after it. -/
def transfer (q : Quad) (live : Registers) : Registers := (live.eraseAll q.defs).insertAll q.uses

def problem (g : Graph) : Problem Registers where
  direction := .backward
  meet := (· ∪ ·)
  top := ∅
  source := ∅
  transfer := transfer
  height := g.registers.size

/-- Whether nothing of what a quad does is seen after it. -/
def isDead (s : FlowState Registers) (q : Quad) : Bool :=
  !q.hasSideEffects && q.defs.all (· ∉ s.outAt q.id)

end Liveness

/-- Live registers; with `removesDead` dead code is removed. -/
def Analysis.liveness (removesDead : Bool) : Analysis Registers where
  name := "liveness"
  problem := Liveness.problem
  finish s g := if removesDead then (g.quads.filter (Liveness.isDead s)).map (·.id) else []
  removes := removesDead
  text := Registers.text

end Dataflow
