import Dataflow.Flow.State

/-!
# Dataflow problems

A problem says how values meet, where they start, and what passing a quad does to them. It is solved
by sweeps: each visits all quads in order, meets the results of the neighbours and passes the quad at
once, so that later visits of the same sweep already see the new result. The first sweep that leaves
every result as it was ends the iteration.

Some problems refuse some quads; which ones depends on the quad alone (`fault`). A problem may also
flag quads while it passes them (`verdict`).
-/

namespace Dataflow

/-- A dataflow problem on the quads of one graph. `height` bounds how often the result of one quad can
change while the problem is solved. -/
structure Problem (L : Type) where
  direction : Direction
  meet : L → L → L
  top : L
  source : L
  transfer : Quad → L → L
  fault : Quad → Option FlowError := fun _ => none
  verdict : Quad → L → Option Bool := fun _ _ => none
  height : Nat

/-- The meet of a list of values, `top` if there is none. -/
def meetAll {L : Type} (meet : L → L → L) (top : L) : List L → L
  | [] => top
  | v :: vs => vs.foldl meet v

/-- The values found so far, and the quads flagged. -/
structure Findings (L : Type) where
  state : FlowState L
  flagged : QuadIds

namespace Findings

variable {L : Type}

/-- Flags a quad, clears its flag, or leaves it alone. -/
def note (f : Findings L) (id : QuadId) : Option Bool → Findings L
  | none => f
  | some true => { f with flagged := f.flagged.insert id }
  | some false => { f with flagged := f.flagged.erase id }

end Findings

namespace Problem

variable {L : Type} (p : Problem L)

/-- The meet of what the neighbours of quad `id` hand on. -/
def meetNeighbours (e : QuadEdges) (s : FlowState L) (id : QuadId) : L :=
  meetAll p.meet s.top ((e.neighbours p.direction id).map s.handedOn)

/-- Passes a quad with the value met before it. -/
def pass (f : Findings L) (q : Quad) : Findings L :=
  let v := f.state.metAt q.id
  { f with state := f.state.setResult q.id (p.transfer q v) }.note q.id (p.verdict q v)

/-- Meets the neighbours' results at a quad. -/
def meetAt (e : QuadEdges) (f : Findings L) (q : Quad) : Findings L :=
  { f with state := f.state.setMet q.id (p.meetNeighbours e f.state q.id) }

def visit (e : QuadEdges) (f : Findings L) (q : Quad) : Findings L := p.pass (p.meetAt e f q) q

/-- Visits the quads one after another. -/
def sweep (e : QuadEdges) (quads : List Quad) (f : Findings L) : Findings L := quads.foldl (p.visit e) f

/-- Whether all quads have the same result in both. -/
def agree [DecidableEq L] (quads : List Quad) (f f' : Findings L) : Bool :=
  quads.all fun q => f.state.resultAt q.id = f'.state.resultAt q.id

/-- Sweeps until nothing changes, at most `limit` times. Answers the number of sweeps and what they
found. -/
def iterate [DecidableEq L] (e : QuadEdges) (quads : List Quad) :
    (limit : Nat) → Findings L → Option (Nat × Findings L)
  | 0, _ => none
  | limit + 1, f =>
    let f' := p.sweep e quads f
    if agree quads f f' then some (1, f')
    else (iterate e quads limit f').map fun (sweeps, r) => (sweeps + 1, r)

/-- Meets the results where the analysis ends; the starting value stands there if no quad leads out. -/
def close (e : QuadEdges) (f : Findings L) : Findings L :=
  let sink := meetAll p.meet f.state.source ((e.lastQuads p.direction).map f.state.resultAt)
  { f with state := { f.state with sink } }

/-- More sweeps than can change anything: all but the last change some result. -/
def sweepLimit (quads : List Quad) : Nat := quads.length * p.height + 2

/-- Every quad has `top` and nothing is flagged. -/
def initial (g : Graph) : Findings L := ⟨.forGraph p.direction p.top p.source g, ∅⟩

/-- How a problem was solved: the number of sweeps, or what stopped them. -/
inductive Outcome where
  | settled (sweeps : Nat)
  | refused (e : FlowError)
  | unsettled
deriving DecidableEq

/-- Solves the problem on `g`. If it refuses a quad, the findings are those of the moment when the
first sweep comes to that quad. -/
def solve [DecidableEq L] (g : Graph) : Outcome × Findings L :=
  let e := g.quadEdges
  let f := p.initial g
  match g.quads.findSome? fun q => (p.fault q).map (q, ·) with
  | some (q, err) =>
    let done := g.quads.takeWhile (p.fault · |>.isNone)
    (.refused err, p.meetAt e (p.sweep e done f) q)
  | none =>
    match p.iterate e g.quads (p.sweepLimit g.quads) f with
    | some (sweeps, f') => (.settled sweeps, p.close e f')
    | none => (.unsettled, f)

end Problem

end Dataflow
