import Dataflow.Flow.Problem

/-!
# Analyses and the solver

An analysis sets a problem for each graph, and may ask for quads to be removed once it is solved. A
solver holds at most one analysis together with what that has found so far. A run starts afresh on its
graph, solves it, and drops the quads the analysis asks for; a run that fails leaves the graph alone.
-/

namespace Dataflow

/-- An analysis, ready for any graph. `finish` names the quads to flag once the values are known;
`removes` says whether flagged quads are to be removed. -/
structure Analysis (L : Type) where
  name : String
  problem : Graph → Problem L
  finish : FlowState L → Graph → List QuadId := fun _ _ => []
  removes : Bool := false
  text : L → String

namespace Graph

/-- A static method without parameters and without a body. -/
def blank : Graph := ofMethod ⟨"", 0, true⟩

end Graph

/-- An analysis at work: the graph it was last prepared for, and what it has found there. -/
structure Progress (L : Type) where
  analysis : Analysis L
  graph : Graph
  findings : Findings L

namespace Progress

variable {L : Type}

/-- Before the first graph. -/
def start (a : Analysis L) : Progress L :=
  let p := a.problem .blank
  ⟨a, .blank, .blank p.direction p.top, ∅⟩

def state (w : Progress L) : FlowState L := w.findings.state

/-- Flags what the analysis finds in `g` when it is done. -/
def finish (w : Progress L) (g : Graph) : Progress L :=
  let ids := w.analysis.finish w.state g
  { w with findings := { w.findings with flagged := ids.foldl Std.ExtTreeSet.insert w.findings.flagged } }

/-- The quads that the analysis asks to remove, ascending. -/
def pending (w : Progress L) : List QuadId :=
  if w.analysis.removes then w.findings.flagged.toList else []

def report (w : Progress L) (g : Graph) : FlowReport :=
  w.state.report w.analysis.text w.analysis.name g.method.name

/-- Prepares for `g`, solves its problem and finishes. -/
def solve [DecidableEq L] (w : Progress L) (g : Graph) : Except FlowError Nat × Progress L :=
  let (outcome, f) := (w.analysis.problem g).solve g
  let w : Progress L := ⟨w.analysis, g, f⟩
  match outcome with
  | .settled sweeps => (.ok sweeps, w.finish g)
  | .refused e => (.error e, w)
  | .unsettled => (.error (.unsettled w.analysis.name), w)

end Progress

/-- What a run did. -/
structure RunStats where
  analysis : String
  sweeps : Nat
  quads : Nat
  removed : Nat
deriving DecidableEq, Repr

/-- Runs at most one analysis, on one graph after another. -/
structure Solver (L : Type) where
  registered : Option (Progress L)

namespace Solver

variable {L : Type}

def empty : Solver L := ⟨none⟩

def ofAnalysis (a : Analysis L) : Solver L := ⟨some (.start a)⟩

/-- Hands the analysis back. -/
def take (s : Solver L) : Option (Progress L) × Solver L := (s.registered, empty)

/-- Solves `g` and removes what the analysis asks for. -/
def run [DecidableEq L] (s : Solver L) (g : Graph) : Except FlowError RunStats × Solver L × Graph :=
  match s.registered with
  | none => (.error .noAnalysis, s, g)
  | some w =>
    match w.solve g with
    | (.error e, w) => (.error e, ⟨some w⟩, g)
    | (.ok sweeps, w) =>
      let g' := g.removeQuads w.pending
      (.ok ⟨w.analysis.name, sweeps, g.quadCount, g.quadCount - g'.quadCount⟩, ⟨some w⟩, g')

end Solver

end Dataflow
