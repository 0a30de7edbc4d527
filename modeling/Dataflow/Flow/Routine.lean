import Dataflow.Flow.Solver

/-!
# Routines

A routine carries an analysis out with notes: the values found, and whatever else is looked up while quads are passed.
The notes are kept from one graph to the next, and it is up to the routine to bring all of them up to date when it
prepares for a graph. A run that fails leaves the notes of that moment, and the next run starts from these.
-/

namespace Dataflow

/-- Reads and changes notes, and may fail. What was noted until then stays. -/
abbrev Noting (σ : Type) : Type → Type := ExceptT FlowError (StateM σ)

/-- What is answered from the notes `n`, and the notes afterwards. -/
def Noting.on {σ α : Type} (op : Noting σ α) (n : σ) : Except FlowError α × σ := (ExceptT.run op).run n

/-- An analysis that keeps notes of type `σ`, among them its values. `height g` bounds how often the result of one
quad of `g` can change while `g` is solved. -/
structure Routine (σ L : Type) where
  name : String
  text : L → String
  meet : L → L → L
  height : Graph → Nat
  state : σ → FlowState L
  setState : FlowState L → σ → σ
  prepare : Graph → Noting σ Unit
  pass : Quad → Noting σ Unit
  finish : Graph → Noting σ Unit := fun _ => pure ()
  pending : σ → List QuadId := fun _ => []

namespace Routine

variable {σ L : Type} (R : Routine σ L)

/-- The values as they are noted. -/
def values : Noting σ (FlowState L) := return R.state (← get)

def update (f : FlowState L → FlowState L) : Noting σ Unit := modify fun n => R.setState (f (R.state n)) n

/-- Gives every quad the result `top`. -/
def clear (quads : List Quad) : Noting σ Unit := quads.forM fun q => R.update fun s => s.setResult q.id s.top

/-- Meets the neighbours' results at a quad. -/
def meetAt (e : QuadEdges) (q : Quad) : Noting σ Unit :=
  R.update fun s => s.setMet q.id (meetAll R.meet s.top ((e.neighbours s.direction q.id).map s.handedOn))

/-- Meets the results where the analysis ends; the starting value stands there if no quad leads out. -/
def close (e : QuadEdges) : Noting σ Unit :=
  R.update fun s => { s with sink := meetAll R.meet s.source ((e.lastQuads s.direction).map s.resultAt) }

def report (n : σ) (g : Graph) : FlowReport := (R.state n).report R.text R.name g.method.name

variable [DecidableEq L]

/-- Meets the neighbours' results at a quad and passes it. Answers whether its result has changed. -/
def visit (e : QuadEdges) (q : Quad) : Noting σ Bool := do
  R.meetAt e q
  let before := (← R.values).resultAt q.id
  R.pass q
  return before ≠ (← R.values).resultAt q.id

/-- Visits the quads one after another. Answers whether some result has changed. -/
def sweep (e : QuadEdges) : List Quad → Noting σ Bool
  | [] => return false
  | q :: quads => do
    let changed ← R.visit e q
    let later ← sweep e quads
    return changed || later

/-- Sweeps until nothing changes, at most `limit` times. Answers the number of sweeps. -/
def iterate (e : QuadEdges) (quads : List Quad) : (limit : Nat) → Noting σ Nat
  | 0 => throw (.unsettled R.name)
  | limit + 1 => do
    let changed ← R.sweep e quads
    if changed then return (← iterate e quads limit) + 1 else return 1

/-- Prepares for `g`, sweeps over its quads and finishes. Answers the number of sweeps. -/
def solve (g : Graph) : Noting σ Nat := do
  R.prepare g
  R.clear g.quads
  let sweeps ← R.iterate g.quadEdges g.quads (g.quads.length * R.height g + 2)
  R.close g.quadEdges
  R.finish g
  return sweeps

/-- A run of a solver that holds these notes, if a routine is registered: solves `g` and removes what the routine asks
for. Answers what the run did, the notes afterwards and the graph that is left. -/
def run (held : Option σ) (g : Graph) : Except FlowError RunStats × Option σ × Graph :=
  match held with
  | none => (.error .noAnalysis, none, g)
  | some n =>
    match (R.solve g).on n with
    | (.error e, n) => (.error e, some n, g)
    | (.ok sweeps, n) =>
      let left := g.removeQuads (R.pending n)
      (.ok ⟨R.name, sweeps, g.quadCount, g.quadCount - left.quadCount⟩, some n, left)

/-- Runs one and the same solver on one graph after another, whether or not a run succeeds. -/
def runAll (held : Option σ) : List Graph → List (Except FlowError RunStats × Option σ × Graph)
  | [] => []
  | g :: gs =>
    let r := R.run held g
    r :: runAll r.2.1 gs

end Routine

end Dataflow
