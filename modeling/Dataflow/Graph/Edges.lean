import Std.Data.ExtTreeMap
import Dataflow.Graph.Basic

/-!
# Flow between quads

Flow passes from quad to quad inside a block, and from the last quad of a block to the first quad of
each block it leads to. Blocks without quads are passed through. Where flow comes in from `entry` or
goes out to `exit` there is no neighbouring quad; the neighbour is then `none`. A block that leads
nowhere leads out of the method.
-/

namespace Dataflow

/-- The neighbours of each quad, `none` standing for the boundary of the method. -/
structure QuadEdges where
  order : List QuadId
  preds : Std.ExtTreeMap QuadId (List (Option QuadId))
  succs : Std.ExtTreeMap QuadId (List (Option QuadId))

namespace QuadEdges

def empty : QuadEdges := ⟨[], ∅, ∅⟩

def predecessors (e : QuadEdges) (id : QuadId) : List (Option QuadId) := e.preds[id]?.getD []

def successors (e : QuadEdges) (id : QuadId) : List (Option QuadId) := e.succs[id]?.getD []

/-- The quads that flow reaches straight from `entry`, in quad order. -/
def entryQuads (e : QuadEdges) : List QuadId := e.order.filter (none ∈ e.predecessors ·)

/-- The quads that flow leaves straight to `exit`, in quad order. -/
def exitQuads (e : QuadEdges) : List QuadId := e.order.filter (none ∈ e.successors ·)

/-- Joins neighbours inside a block. -/
def link (e : QuadEdges) : List QuadId → QuadEdges
  | a :: b :: rest =>
    { e with succs := e.succs.insert a [some b], preds := e.preds.insert b [some a] }.link (b :: rest)
  | _ => e

end QuadEdges

namespace Graph

/-- Every block that a walk along edges can come to. -/
def mentioned (g : Graph) : List BlockId :=
  (g.blocks.flatMap fun (_, block) => block.id :: block.successors).eraseDups

/-- Walks along `next` from the blocks in `work`, in the order of a depth-first search. A block where
`stop` finds a neighbour is not entered, and no block is entered twice: `unseen` holds those that may
still be. Answers the neighbours found, each once, the first found first. -/
def collect (next : BlockId → List BlockId) (stop : BlockId → Option (Option QuadId))
    (unseen work : List BlockId) (found : List (Option QuadId)) : List (Option QuadId) :=
  match work with
  | [] => found
  | b :: work =>
    match stop b with
    | some n => collect next stop unseen work (if n ∈ found then found else found ++ [n])
    | none =>
      if b ∈ unseen then collect next stop (unseen.erase b) (next b ++ work) found
      else collect next stop unseen work found
termination_by (unseen.flatMap fun b => b :: next b).length + work.length
decreasing_by
  · simp
  · -- a block is entered in exchange for those next to it
    have hlen := ((List.perm_cons_erase ‹b ∈ unseen›).flatMap_right fun b => b :: next b).length_eq
    simp only [List.flatMap_cons, List.length_append, List.length_cons] at hlen ⊢
    omega
  · simp

/-- The blocks flow goes to after `b`: a block without successors falls off the end of the method. -/
def flowSuccessors (g : Graph) (b : BlockId) : List BlockId :=
  match g.successors b with
  | [] => [.exit]
  | bs => bs

/-- The neighbour that flow arriving at `b` meets there, if any. -/
def firstIn (g : Graph) (b : BlockId) : Option (Option QuadId) :=
  if b = .exit then some none
  else ((g.block? b).bind (·.quads.head?)).map fun q => some q.id

/-- The neighbour that flow leaving `b` comes from, if it comes from inside `b`. -/
def lastIn (g : Graph) (b : BlockId) : Option (Option QuadId) :=
  if b = .entry then some none
  else ((g.block? b).bind (·.quads.getLast?)).map fun q => some q.id

/-- Where flow into block `b` comes from, through blocks of `within`. -/
def incoming (g : Graph) (within : List BlockId) (b : BlockId) : List (Option QuadId) :=
  collect g.predecessors g.lastIn within (g.predecessors b) []

/-- Where flow out of block `b` goes, through blocks of `within`. -/
def outgoing (g : Graph) (within : List BlockId) (b : BlockId) : List (Option QuadId) :=
  collect g.flowSuccessors g.firstIn within (g.flowSuccessors b) []

/-- Adds the neighbours of the quads of one block. -/
def addBlockEdges (g : Graph) (within : List BlockId) (e : QuadEdges) (block : Block) : QuadEdges :=
  match block.quads.head?, block.quads.getLast? with
  | some first, some last =>
    let ids := block.quads.map (·.id)
    { order := e.order ++ ids
      preds := e.preds.insert first.id (g.incoming within block.id)
      succs := e.succs.insert last.id (g.outgoing within block.id) : QuadEdges }.link ids
  | _, _ => e

/-- The neighbours of every quad. -/
def quadEdges (g : Graph) : QuadEdges :=
  let within := g.mentioned
  (g.blocks.map (·.2)).foldl (g.addBlockEdges within) .empty

end Graph

end Dataflow
