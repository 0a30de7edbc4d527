import Dataflow.Analysis.Kind

/-!
# Optimization

Passes that remove quads: redundant null checks, and dead code. By default one plain elimination of
null checks runs; a full optimization alternates extended elimination and dead code removal for a
number of rounds.
-/

namespace Dataflow

/-- What the optimizer runs. -/
structure OptimizeSettings where
  rounds : Nat
  nullCheckOnly : Bool
deriving DecidableEq, Repr

namespace OptimizeSettings

def default : OptimizeSettings := ⟨5, true⟩

def full : OptimizeSettings := { default with nullCheckOnly := false }

end OptimizeSettings

/-- The redundant null checks of `g`, found by plain elimination without removing them. -/
def Graph.redundantNullChecks (g : Graph) : Except FlowError NullCheckReport :=
  match (Progress.start (.nullCheck .report)).solve g with
  | (.error e, _) => .error e
  | (.ok _, w) => .ok ⟨g.method.name, w.findings.flagged.toList⟩

/-- Runs one analysis on `g` and removes what it asks for. -/
def Analysis.runPass {L : Type} [DecidableEq L] (a : Analysis L) (round : Nat) (g : Graph) :
    Except FlowError (PassReport × Graph) :=
  match (Progress.start a).solve g with
  | (.error e, _) => .error e
  | (.ok _, w) => .ok (⟨a.name, round, w.pending⟩, g.removeQuads w.pending)

namespace Graph

/-- Extended elimination of null checks, then dead code removal. -/
def optimizeRound (g : Graph) (round : Nat) : Except FlowError (List PassReport × Graph) := do
  let (checks, g) ← (Analysis.nullCheck .extendedRemoving).runPass round g
  let (deadCode, g) ← (Analysis.liveness true).runPass round g
  return ([checks, deadCode], g)

/-- `rounds` rounds from number `round` on. -/
def optimizeRounds (g : Graph) (round : Nat) : (rounds : Nat) → Except FlowError (List PassReport × Graph)
  | 0 => .ok ([], g)
  | rounds + 1 => do
    let (passes, g) ← g.optimizeRound round
    let (later, g) ← g.optimizeRounds (round + 1) rounds
    return (passes ++ later, g)

/-- Runs the configured passes. Answers which quads each removed, and what is left. -/
def optimize (g : Graph) (c : OptimizeSettings) : Except FlowError (OptimizeReport × Graph) := do
  if c.nullCheckOnly then
    let (outcome, left) ← (Analysis.nullCheck .removing).runPass 0 g
    return (⟨g.method.name, [outcome]⟩, left)
  else
    let (passes, left) ← g.optimizeRounds 0 c.rounds
    return (⟨g.method.name, passes⟩, left)

end Graph

end Dataflow
