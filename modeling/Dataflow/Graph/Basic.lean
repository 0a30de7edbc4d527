import Dataflow.Error
import Dataflow.Quad.Sets

/-!
# Control-flow graphs

The body of a method is a graph of blocks, kept in the order they were added; `entry` and `exit`
come first and hold no quads. The first edge added out of a block is its fallthrough. Operations
that could break the graph answer an error instead and change nothing.
-/

namespace Dataflow

/-- What is known of a method besides its body. -/
structure Method where
  name : String
  params : Nat
  isStatic : Bool
deriving DecidableEq, Repr

namespace Method

/-- `R0`, …, one for each parameter. In an instance method `R0` is the receiver. -/
def paramRegisters (m : Method) : List Register := (List.range m.params).map Register.param

end Method

/-- A basic block: quads that run one after another, and the blocks flow may continue in. -/
structure Block where
  id : BlockId
  quads : List Quad
  successors : List BlockId
  fallthrough : Option BlockId
deriving DecidableEq, Repr

namespace Block

/-- A block without quads and without edges. -/
def empty (b : BlockId) : Block := ⟨b, [], [], none⟩

/-- Adds an edge to `b`, which becomes the fallthrough if there is none yet. -/
def addSuccessor (k : Block) (b : BlockId) : Block :=
  { k with
    successors := if b ∈ k.successors then k.successors else k.successors ++ [b]
    fallthrough := k.fallthrough <|> some b }

def pushQuad (k : Block) (q : Quad) : Block := { k with quads := k.quads ++ [q] }

def removeQuads (k : Block) (ids : List QuadId) : Block :=
  { k with quads := k.quads.filter (·.id ∉ ids) }

end Block

/-- The body of a method. Each block is stored with the number it is found under; `nextBlock` is
where the search for a free number starts. -/
structure Graph where
  method : Method
  blocks : List (BlockId × Block)
  nextBlock : Nat
deriving DecidableEq, Repr

namespace Graph

/-- The graph with `entry` and `exit` only, and no edge between them. -/
def ofMethod (m : Method) : Graph :=
  ⟨m, [(.entry, .empty .entry), (.exit, .empty .exit)], 2⟩

/-! ### Looking up -/

def block? (g : Graph) (b : BlockId) : Option Block := g.blocks.lookup b

def hasBlock (g : Graph) (b : BlockId) : Bool := (g.block? b).isSome

/-- The blocks flow may continue in after `b`, fallthrough first. -/
def successors (g : Graph) (b : BlockId) : List BlockId :=
  ((g.block? b).map (·.successors)).getD []

def fallthrough (g : Graph) (b : BlockId) : Option BlockId := (g.block? b).bind (·.fallthrough)

/-- The blocks with an edge to `b`, in block order. -/
def predecessors (g : Graph) (b : BlockId) : List BlockId :=
  (g.blocks.filter (b ∈ ·.2.successors)).map (·.2.id)

/-- All quads, block by block. -/
def quads (g : Graph) : List Quad := g.blocks.flatMap (·.2.quads)

def quadOrder (g : Graph) : List QuadId := g.quads.map (·.id)

def quad? (g : Graph) (id : QuadId) : Option Quad := g.quads.find? (·.id == id)

def quadCount (g : Graph) : Nat := g.quads.length

def maxQuadId (g : Graph) : Option QuadId := g.quadOrder.max?

/-- The parameters and every register that a quad writes or reads. -/
def registers (g : Graph) : Registers :=
  g.quads.foldl (fun s q => (s.insertAll q.defs).insertAll q.uses)
    ((∅ : Registers).insertAll g.method.paramRegisters)

/-! ### Changing -/

/-- Block numbers are taken modulo this. -/
def blockLimit : Nat := UInt32.size

/-- The first number from `nextBlock` on that no block has. -/
def freeIndex (g : Graph) : Nat :=
  let candidates := (List.range (g.blocks.length + 1)).map fun i => (g.nextBlock + i) % blockLimit
  (candidates.find? (!g.hasBlock ⟨·⟩)).getD g.nextBlock

/-- Adds an empty block under a free number. -/
def addBlock (g : Graph) : BlockId × Graph :=
  let b : BlockId := ⟨g.freeIndex⟩
  (b, { g with
    blocks := g.blocks ++ [(b, .empty b)]
    nextBlock := (b.index + 1) % blockLimit })

/-- Adds an empty block under the number `b`. -/
def insertBlock (g : Graph) (b : BlockId) : Except FlowError Graph :=
  if g.hasBlock b then .error (.malformedGraph (.duplicateBlock b))
  else .ok { g with blocks := g.blocks ++ [(b, .empty b)] }

def modifyBlock (g : Graph) (b : BlockId) (f : Block → Block) : Graph :=
  { g with blocks := g.blocks.map fun (k, block) => (k, if k = b then f block else block) }

def addEdge (g : Graph) (source target : BlockId) : Except FlowError Graph :=
  if source = .exit then .error (.malformedGraph .edgeOutOfExit)
  else if target = .entry then .error (.malformedGraph .edgeIntoEntry)
  else if !g.hasBlock target then .error (.unknownBlock target)
  else if !g.hasBlock source then .error (.unknownBlock source)
  else .ok (g.modifyBlock source (·.addSuccessor target))

/-- Appends a quad to a block. Its number must be new in the whole graph. -/
def pushQuad (g : Graph) (b : BlockId) (q : Quad) : Except FlowError Graph :=
  if b.isPseudo then .error (.malformedGraph (.quadInPseudoBlock q.id b))
  else if (g.quad? q.id).isSome then .error (.malformedGraph (.duplicateQuad q.id))
  else if !g.hasBlock b then .error (.unknownBlock b)
  else .ok (g.modifyBlock b (·.pushQuad q))

/-- Drops every quad with a listed number. -/
def removeQuads (g : Graph) (ids : List QuadId) : Graph :=
  { g with blocks := g.blocks.map fun (k, block) => (k, block.removeQuads ids) }

/-- `entry`, one block with all the quads, `exit`. -/
def straightLine (m : Method) (quads : List Quad) : Except FlowError Graph := do
  let (body, g) := (ofMethod m).addBlock
  let g ← g.addEdge .entry body
  let g ← g.addEdge body .exit
  quads.foldlM (·.pushQuad body) g

end Graph

end Dataflow
