import Dataflow.Flow.Routine
import Dataflow.InPlace

/-!
# The analyses with what they note

Besides its values, dead code removal notes the dead quads, reaching definitions the table of definitions, and the
elimination of null checks the receiver, the redundant checks and what branches tell. Which of its modes an analysis is
in stands among its notes too, and no step changes it.
-/

namespace Dataflow

/-! ### Liveness -/

namespace Liveness

structure Notes where
  state : FlowState Registers
  removesDead : Bool
  dead : QuadIds

def Notes.new (removesDead : Bool) : Notes := ⟨.blank .backward ∅, removesDead, ∅⟩

def routine : Routine Notes Registers where
  name := "liveness"
  text := Registers.text
  meet := (· ∪ ·)
  height g := g.registers.size
  state := Notes.state
  setState s n := { n with state := s }
  prepare g := do
    modify fun n => { n with state := .forGraph .backward ∅ ∅ g }
    modify fun n => { n with dead := ∅ }
  pass q := modify fun n => { n with state := n.state.setResult q.id (transfer q (n.state.metAt q.id)) }
  finish g := do
    if (← get).removesDead then
      g.quads.forM fun q => modify fun n => if isDead n.state q then { n with dead := n.dead.insert q.id } else n
  pending n := n.dead.toList

end Liveness

/-! ### Faintness -/

def Faintness.routine : Routine (FlowState Registers) Registers where
  name := "faintness"
  text := Registers.text
  meet := (· ∩ ·)
  height g := g.registers.size
  state := id
  setState s _ := s
  prepare g := set (FlowState.forGraph .backward g.registers g.registers g)
  pass q := modify fun s => s.setResult q.id (transfer q (s.metAt q.id))

/-! ### Reaching definitions -/

namespace ReachingDefs

structure Notes where
  state : FlowState QuadIds
  defSites : DefTable

def Notes.new : Notes := ⟨.blank .forward ∅, ∅⟩

def routine : Routine Notes QuadIds where
  name := "reaching-defs"
  text := QuadIds.text
  meet := (· ∪ ·)
  height g := g.quadCount
  state := Notes.state
  setState s n := { n with state := s }
  prepare g := do
    modify fun n => { n with state := .forGraph .forward ∅ ∅ g }
    modify fun n => { n with defSites := ∅ }
    g.quads.forM fun q => modify fun n => { n with defSites := n.defSites.add q }
  pass q := modify fun n =>
    { n with state := n.state.setResult q.id (transfer n.defSites q (n.state.metAt q.id)) }

end ReachingDefs

/-! ### Constant propagation -/

def ConstantProp.routine : Routine (FlowState Constants) Constants where
  name := "constant-prop"
  text := Constants.text
  meet := Constants.meet
  height g := 2 * g.registers.size
  state := id
  setState s _ := s
  prepare g := set (FlowState.forGraph .forward ∅ (g.method.paramRegisters.foldl (Constants.set · · .nac) ∅) g)
  pass q := do
    let (t, _) ← passing q ((← get).metAt q.id)
    modify fun s => s.setResult q.id t

/-! ### Null checks -/

namespace NullCheck

/-- What branches tell at each quad. -/
abbrev FactTable := Std.ExtTreeMap QuadId (List Register)

namespace FactTable

def told (t : FactTable) (id : QuadId) : List Register := t[id]?.getD []

/-- Notes that `r` is not null at quad `id`. -/
def note (t : FactTable) (id : QuadId) (r : Register) : FactTable := t.insert id (t.told id ++ [r])

end FactTable

structure Notes where
  state : FlowState Registers
  mode : NullCheckMode
  receiver : Option Register
  redundant : QuadIds
  branchFacts : FactTable

namespace Notes

def new (m : NullCheckMode) : Notes := ⟨.blank .forward ∅, m, none, ∅, ∅⟩

/-- What is learnt at a quad besides its own check. -/
def learn (n : Notes) (q : Quad) (s : Registers) : Registers :=
  let s := s.insertAll n.receiver.toList
  let s := match q.op with
    | .new d _ | .newArray d _ => s.insertAll [d]
    | .move d (.reg r) => if r ∈ s then s.insertAll [d] else s
    | _ => s
  s.insertAll (n.branchFacts.told q.id)

/-- Notes what branches tell, one fact after another. -/
def collect (g : Graph) : Noting Notes Unit :=
  g.branchFacts.forM fun fact => modify fun n => { n with branchFacts := n.branchFacts.note fact.1 fact.2 }

end Notes

def routine : Routine Notes Registers where
  name := "null-check"
  text := Registers.text
  meet := (· ∩ ·)
  height g := g.registers.size + 1
  state := Notes.state
  setState s n := { n with state := s }
  prepare g := do
    modify fun n => { n with state := .forGraph .forward g.registers ∅ g }
    modify fun n => { n with redundant := ∅ }
    modify fun n => { n with branchFacts := ∅ }
    modify fun n => { n with receiver := if g.method.isStatic then none else some (.param 0) }
    if (← get).mode.extended then Notes.collect g
  pass q := do
    let n ← get
    let known := (n.state.metAt q.id).eraseAll q.defs
    let known := if n.mode.extended then n.learn q known else known
    match q.op with
    | .nullCheck _ src =>
      match src.register? with
      | none => throw (.nullCheckOperand q.id src)
      | some r =>
        modify fun n => { n with
          redundant := if r ∈ known then n.redundant.insert q.id else n.redundant.erase q.id }
        modify fun n => { n with state := n.state.setResult q.id (known.insertAll [r]) }
    | _ => modify fun n => { n with state := n.state.setResult q.id known }
  pending n := if n.mode.remove then n.redundant.toList else []

end NullCheck

end Dataflow
