import Dataflow.InPlace

/-!
# Building a graph that is kept

The operations on graphs as changes to one graph. Each makes its checks one after the other and writes when all of
them have passed. An edge is written in two steps, first among the successors and then as the fallthrough.
-/

namespace Dataflow

namespace Block

/-- Lists `b` among the successors, once. -/
def listSuccessor (k : Block) (b : BlockId) : Block :=
  { k with successors := if b ∈ k.successors then k.successors else k.successors ++ [b] }

/-- Makes `b` the fallthrough if there is none yet. -/
def fallInto (k : Block) (b : BlockId) : Block := { k with fallthrough := k.fallthrough <|> some b }

end Block

namespace InPlace

/-- Fails on graphs with this fault. -/
def refuseIf (fault : Graph → Bool) (e : FlowError) : InPlace Unit := do
  if fault (← get) then throw e

/-- Adds an empty block under a free number. Answers that number. -/
def addBlock : InPlace BlockId := do
  let (b, left) := (← get).addBlock
  set left
  return b

/-- Adds an empty block under the number `b`. -/
def insertBlock (b : BlockId) : InPlace Unit := do
  refuseIf (·.hasBlock b) (.malformedGraph (.duplicateBlock b))
  modify fun g => { g with blocks := g.blocks ++ [(b, .empty b)] }

def addEdge (source target : BlockId) : InPlace Unit := do
  refuseIf (fun _ => source = .exit) (.malformedGraph .edgeOutOfExit)
  refuseIf (fun _ => target = .entry) (.malformedGraph .edgeIntoEntry)
  refuseIf (!·.hasBlock target) (.unknownBlock target)
  refuseIf (!·.hasBlock source) (.unknownBlock source)
  modify (·.modifyBlock source (·.listSuccessor target))
  modify (·.modifyBlock source (·.fallInto target))

/-- Appends a quad to a block. Its number must be new in the whole graph. -/
def pushQuad (b : BlockId) (q : Quad) : InPlace Unit := do
  refuseIf (fun _ => b.isPseudo) (.malformedGraph (.quadInPseudoBlock q.id b))
  refuseIf (fun g => (g.quad? q.id).isSome) (.malformedGraph (.duplicateQuad q.id))
  refuseIf (!·.hasBlock b) (.unknownBlock b)
  modify (·.modifyBlock b (·.pushQuad q))

/-- Drops every quad with a listed number. Answers how many there were, counted block by block. -/
def removeQuads (ids : List QuadId) : InPlace Nat := do
  if ids.isEmpty then return 0
  let g ← get
  set (g.removeQuads ids)
  return g.blocks.foldl (fun removed (_, k) => removed + (k.quads.length - (k.removeQuads ids).quads.length)) 0

end InPlace

/-- An operation that builds or changes a graph. -/
inductive Edit where
  | addBlock
  | insertBlock (b : BlockId)
  | addEdge (source target : BlockId)
  | pushQuad (b : BlockId) (q : Quad)
  | removeQuads (ids : List QuadId)
deriving DecidableEq, Repr

/-- Carries an operation out, whatever it answers. -/
def Edit.perform : Edit → InPlace Unit
  | addBlock => discard InPlace.addBlock
  | insertBlock b => InPlace.insertBlock b
  | addEdge source target => InPlace.addEdge source target
  | pushQuad b q => InPlace.pushQuad b q
  | removeQuads ids => discard (InPlace.removeQuads ids)

end Dataflow
