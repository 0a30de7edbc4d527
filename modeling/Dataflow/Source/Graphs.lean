import Dataflow.Graph.Basic
import Dataflow.Source.Grammar
import Dataflow.Source.Operands
import Dataflow.Text.Basic

/-!
# Graphs from quad files

Each method of a quad file becomes one graph: first all blocks are declared, then the listed edges are
added, then the quads. A jump adds the edge to its target.
-/

namespace Dataflow.Source

/-- A number of the file that has to be below a limit. -/
def number (text : List Char) (limit : Nat) (w : Word) : Except ParseError Nat :=
  match readBelow limit w.text.toList with
  | some n => .ok n
  | none => .error (.invalidNumber (lineAt text w.offset) w.text)

/-- The block that a word names. -/
def blockId (text : List Char) (w : Word) : Except ParseError BlockId :=
  if w.text = "entry" then .ok .entry
  else if w.text = "exit" then .ok .exit
  else
    match readBelow UInt32.size (w.text.toList.drop 2) with
    | some n => .ok ⟨n⟩
    | none => .error (.invalidNumber (lineAt text w.offset) w.text)

/-- The block that a word names, which has to be there. -/
def declaredBlock (text : List Char) (g : Graph) (w : Word) : Except ParseError BlockId := do
  let b ← blockId text w
  if g.hasBlock b then return b else .error (.unknownBlock g.method.name w.text)

/-- Errors of graph operations, told with the method. -/
def inMethod {α : Type} (g : Graph) : Except FlowError α → Except ParseError α :=
  Except.mapError (.graph g.method.name)

/-! ### Blocks and edges -/

/-- Declares the blocks in order. Answers their numbers too. -/
def addBlocks (text : List Char) (g : Graph) :
    (seen : List BlockId) → List BlockDecl → Except ParseError (List BlockId × Graph)
  | _, [] => .ok ([], g)
  | seen, d :: ds => do
    let b ← blockId text d.name
    if b ∈ seen then .error (.duplicateBlock g.method.name d.name.text)
    else
      let g ← if b.isPseudo then pure g else inMethod g (g.insertBlock b)
      let (bs, g) ← addBlocks text g (b :: seen) ds
      return (b :: bs, g)

/-- Adds the edges that a block lists. -/
def addListedEdges (text : List Char) (g : Graph) (b : BlockId) (d : BlockDecl) :
    Except ParseError Graph :=
  d.successors.foldlM (fun g w => do inMethod g (g.addEdge b (← declaredBlock text g w))) g

/-! ### Quads -/

/-- Reads the numbers and looks up the blocks of an argument. -/
def argOf (text : List Char) (g : Graph) : ArgDecl → Except ParseError Arg
  | .register r => .ok (.register r)
  | .null => .ok .null
  | .integer w =>
    match readInt32 w.text.toList with
    | some v => .ok (.int v)
    | none => .error (.invalidNumber (lineAt text w.offset) w.text)
  | .block w => Arg.block <$> declaredBlock text g w
  | .symbol s => .ok (.symbol s)

def quadOf (text : List Char) (g : Graph) (d : QuadDecl) : Except ParseError Quad := do
  let id ← number text UInt32.size d.id
  let args ← d.args.mapM (argOf text g)
  match operatorOf d.opcode args with
  | .ok op => return ⟨id, op⟩
  | .error .unknownOpcode => .error (.unknownOpcode (lineAt text d.id.offset) d.opcode)
  | .error (.operands fault) => .error (.badOperands (lineAt text d.id.offset) d.opcode fault)

/-- Adds one quad to block `b`, with the edge of its jump. A conditional branch needs a block that lists
where it falls through. -/
def addQuad (text : List Char) (b : BlockId) (block : BlockDecl) (g : Graph) (d : QuadDecl) :
    Except ParseError Graph := do
  let q ← quadOf text g d
  if (g.quad? q.id).isSome then .error (.duplicateQuad g.method.name q.id)
  else if q.op.isConditional && block.successors.isEmpty then
    .error (.missingFallthrough g.method.name b.text)
  else
    let g ← match q.op.target? with
      | some target => inMethod g (g.addEdge b target)
      | none => pure g
    inMethod g (g.pushQuad b q)

/-- The graph of a method. -/
def MethodDecl.toGraph (text : List Char) (d : MethodDecl) : Except ParseError Graph := do
  let params ← number text UInt64.size d.params
  let g := Graph.ofMethod ⟨d.name, params, d.isStatic⟩
  let (bs, g) ← addBlocks text g [] d.blocks
  let blocks := bs.zip d.blocks
  let g ← blocks.foldlM (fun g (b, block) => addListedEdges text g b block) g
  blocks.foldlM (fun g (b, block) => block.quads.foldlM (addQuad text b block) g) g

/-- The graphs of all methods of a quad file. -/
def graphs (text : String) : Except ParseError (List Graph) :=
  match program.parse text with
  | .error e => .error (.badText e)
  | .ok methods => methods.mapM (·.toGraph text.toList)

end Dataflow.Source
