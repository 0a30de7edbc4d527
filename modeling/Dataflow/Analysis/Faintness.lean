import Dataflow.Flow.Solver

/-!
# Faint registers

A register is faint where its value never reaches a real use: all that is read of it are copies and
arithmetic that end up in faint registers themselves.
-/

namespace Dataflow

namespace Faintness

/-- Whether a quad only computes a faint register, by a copy or by arithmetic. -/
def feedsFaint (q : Quad) (faint : Registers) : Bool :=
  match q.op with
  | .move d _ | .binary _ d _ _ => d ∈ faint
  | _ => false

/-- What is faint before a quad, from what is faint after it. A quad that feeds a faint register reads
nothing in earnest. -/
def transfer (q : Quad) (faint : Registers) : Registers :=
  if feedsFaint q faint then faint else (faint.insertAll q.defs).eraseAll q.uses

def problem (g : Graph) : Problem Registers where
  direction := .backward
  meet := (· ∩ ·)
  top := g.registers
  source := g.registers
  transfer := transfer
  height := g.registers.size

end Faintness

def Analysis.faintness : Analysis Registers where
  name := "faintness"
  problem := Faintness.problem
  text := Registers.text

end Dataflow
