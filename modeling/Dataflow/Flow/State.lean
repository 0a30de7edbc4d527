import Dataflow.Graph.Edges
import Dataflow.Report

/-!
# The values of an analysis

For every quad an analysis keeps the value met over the neighbours that flow comes from, and the
result of passing the quad. A forward analysis calls the one IN and the other OUT; a backward analysis,
which runs against the flow, the other way round. Likewise the value where the analysis starts
(`source`) is the entry value of a forward analysis and the exit value of a backward one.
-/

namespace Dataflow

/-- Whether values follow the flow or run against it. -/
inductive Direction where
  | forward
  | backward
deriving DecidableEq, Repr

namespace QuadEdges

/-- The neighbours whose results meet at a quad. -/
def neighbours (e : QuadEdges) : Direction → QuadId → List (Option QuadId)
  | .forward => e.predecessors
  | .backward => e.successors

/-- The quads whose results meet where the analysis ends. -/
def lastQuads (e : QuadEdges) : Direction → List QuadId
  | .forward => e.exitQuads
  | .backward => e.entryQuads

end QuadEdges

/-- A value for each quad number; the numbers below `size` count as present. -/
structure Slots (L : Type) where
  size : Nat
  values : Std.ExtTreeMap QuadId L

namespace Slots

variable {L : Type}

/-- The value at `id`, or `default` if none was set. -/
def get (s : Slots L) (default : L) (id : QuadId) : L := s.values[id]?.getD default

/-- Sets the value at `id`, with room for all smaller numbers. -/
def set (s : Slots L) (id : QuadId) (v : L) : Slots L := ⟨max s.size (id + 1), s.values.insert id v⟩

def has (s : Slots L) (id : QuadId) : Bool := id < s.size

@[simp] theorem get_set (s : Slots L) (default v : L) (id q : QuadId) :
    (s.set id v).get default q = if id = q then v else s.get default q := by
  simp only [get, set, Std.ExtTreeMap.getElem?_insert, Std.LawfulEqCmp.compare_eq_iff_eq]
  split <;> rfl

end Slots

/-- The values found so far. -/
structure FlowState (L : Type) where
  direction : Direction
  top : L
  met : Slots L
  result : Slots L
  source : L
  sink : L
  ids : List QuadId

namespace FlowState

variable {L : Type}

/-- No quads, and `top` on both ends. -/
def blank (d : Direction) (top : L) : FlowState L := ⟨d, top, ⟨0, ∅⟩, ⟨0, ∅⟩, top, top, []⟩

/-- The quads of `g`, all with `top`. -/
def forGraph (d : Direction) (top source : L) (g : Graph) : FlowState L :=
  let slots := ⟨(g.maxQuadId.map (· + 1)).getD 0, ∅⟩
  ⟨d, top, slots, slots, source, top, g.quadOrder.mergeSort⟩

/-- The value met before passing quad `id`. -/
def metAt (s : FlowState L) (id : QuadId) : L := s.met.get s.top id

/-- The value after passing quad `id`. -/
def resultAt (s : FlowState L) (id : QuadId) : L := s.result.get s.top id

def setMet (s : FlowState L) (id : QuadId) (v : L) : FlowState L := { s with met := s.met.set id v }

def setResult (s : FlowState L) (id : QuadId) (v : L) : FlowState L :=
  { s with result := s.result.set id v }

/-- What a neighbour hands on: its result, or the starting value at the boundary. -/
def handedOn (s : FlowState L) : Option QuadId → L
  | some id => s.resultAt id
  | none => s.source

/-! ### In the direction of flow -/

/-- The value before quad `id`. -/
def inAt (s : FlowState L) (id : QuadId) : L :=
  match s.direction with
  | .forward => s.metAt id
  | .backward => s.resultAt id

/-- The value after quad `id`. -/
def outAt (s : FlowState L) (id : QuadId) : L :=
  match s.direction with
  | .forward => s.resultAt id
  | .backward => s.metAt id

def hasIn (s : FlowState L) (id : QuadId) : Bool :=
  match s.direction with
  | .forward => s.met.has id
  | .backward => s.result.has id

def hasOut (s : FlowState L) (id : QuadId) : Bool :=
  match s.direction with
  | .forward => s.result.has id
  | .backward => s.met.has id

/-- The value where flow enters the method. -/
def entry (s : FlowState L) : L :=
  match s.direction with
  | .forward => s.source
  | .backward => s.sink

/-- The value where flow leaves the method. -/
def exit (s : FlowState L) : L :=
  match s.direction with
  | .forward => s.sink
  | .backward => s.source

def setIn (s : FlowState L) (id : QuadId) (v : L) : FlowState L :=
  match s.direction with
  | .forward => s.setMet id v
  | .backward => s.setResult id v

def setOut (s : FlowState L) (id : QuadId) (v : L) : FlowState L :=
  match s.direction with
  | .forward => s.setResult id v
  | .backward => s.setMet id v

def setEntry (s : FlowState L) (v : L) : FlowState L :=
  match s.direction with
  | .forward => { s with source := v }
  | .backward => { s with sink := v }

def setExit (s : FlowState L) (v : L) : FlowState L :=
  match s.direction with
  | .forward => { s with sink := v }
  | .backward => { s with source := v }

/-- All values as text. -/
def report (s : FlowState L) (text : L → String) (analysis method : String) : FlowReport where
  analysis := analysis
  method := method
  entry := text s.entry
  nodes := s.ids.map fun id => ⟨id, text (s.inAt id), text (s.outAt id)⟩
  exit := text s.exit
  removed := []

end FlowState

end Dataflow
