import Dataflow.Flow.Solver

/-!
# Sweeps that stop at a refused quad

`Problem.solve` looks at all quads before it sweeps, and says at once which of them the problem refuses. Here a quad
is refused only when a sweep comes to it, with the value that is met there: passing a quad answers a value, or the
reason that ends the sweep and the run.
-/

namespace Dataflow

/-- How a quad is passed with the value met before it: the value after it, and whether it is flagged, cleared or left
alone, or else why it is refused. -/
abbrev Passing (L : Type) := Quad → L → Except FlowError (L × Option Bool)

namespace Problem

variable {L : Type} (p : Problem L)

/-- Every quad is passed. -/
def passing : Passing L := fun q v => .ok (p.transfer q v, p.verdict q v)

variable (how : Passing L) (e : QuadEdges)

/-- Meets the neighbours' results at a quad and passes it, if it is not refused. -/
def visitStep (f : Findings L) (q : Quad) : Option FlowError × Findings L :=
  let f := p.meetAt e f q
  match how q (f.state.metAt q.id) with
  | .ok (v, verdict) => (none, { f with state := f.state.setResult q.id v }.note q.id verdict)
  | .error err => (some err, f)

/-- Visits the quads one after another, up to the first that is refused. -/
def sweepStep : List Quad → Findings L → Option FlowError × Findings L
  | [], f => (none, f)
  | q :: quads, f =>
    match p.visitStep how e f q with
    | (none, f) => sweepStep quads f
    | (some err, f) => (some err, f)

/-- Sweeps until nothing changes or a quad is refused, at most `limit` times. -/
def iterateStep [DecidableEq L] (quads : List Quad) :
    (limit : Nat) → Findings L → Option (Except FlowError Nat × Findings L)
  | 0, _ => none
  | limit + 1, f =>
    match p.sweepStep how e quads f with
    | (some err, f') => some (.error err, f')
    | (none, f') =>
      if agree quads f f' then some (.ok 1, f')
      else (iterateStep quads limit f').map fun (sweeps, r) => (sweeps.map (· + 1), r)

/-- Solves the problem on `g`, quad by quad. -/
def solveStep [DecidableEq L] (g : Graph) : Outcome × Findings L :=
  let e := g.quadEdges
  let f := p.initial g
  match p.iterateStep how e g.quads (p.sweepLimit g.quads) f with
  | some (.ok sweeps, f') => (.settled sweeps, p.close e f')
  | some (.error err, f') => (.refused err, f')
  | none => (.unsettled, f)

end Problem

namespace Solver

variable {L : Type} [DecidableEq L]

/-- Solves `g` quad by quad and removes what the analysis asks for. -/
def runStep (how : Graph → Passing L) (s : Solver L) (g : Graph) : Except FlowError RunStats × Solver L × Graph :=
  match s.registered with
  | none => (.error .noAnalysis, s, g)
  | some w =>
    let (outcome, f) := (w.analysis.problem g).solveStep (how g) g
    let w : Progress L := ⟨w.analysis, g, f⟩
    match outcome with
    | .settled sweeps =>
      let w := w.finish g
      let g' := g.removeQuads w.pending
      (.ok ⟨w.analysis.name, sweeps, g.quadCount, g.quadCount - g'.quadCount⟩, ⟨some w⟩, g')
    | .refused err => (.error err, ⟨some w⟩, g)
    | .unsettled => (.error (.unsettled w.analysis.name), ⟨some w⟩, g)

end Solver

end Dataflow
