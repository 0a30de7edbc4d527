import Dataflow.Proofs.Flow.Descent
import Dataflow.Proofs.Graph.Neighbours

/-!
# The greatest solution

`Problem.SolvedBy g v`: the values `v` solve the dataflow equations of the problem on `g`. The equations
are written for values that follow the flow; a problem that runs against it has them for the values
turned round. A solution is compared with another by meeting the two, quad by quad.

The sweeps start above every solution that stays in the domain of the descent, and a visit cannot bring
a result below one, because what meets at the quad is above what meets there in the solution
(`Above.visit`). So the solution that the sweeps come to is the greatest (`Exact.isGreatestSolution`). The
order in which results fall may differ from the order of the meet, as long as the two agree on results.
-/

namespace Dataflow

/-! ### Values and equations -/

/-- Values before and after each quad, and where flow enters and leaves the method. -/
structure FlowValues (L : Type) where
  input : QuadId → L
  output : QuadId → L
  entry : L
  exit : L

namespace FlowValues

variable {L : Type}

/-- The values turned round, as they are met against the flow. -/
def flip (v : FlowValues L) : FlowValues L := ⟨v.output, v.input, v.exit, v.entry⟩

def along (v : FlowValues L) : Direction → FlowValues L
  | .forward => v
  | .backward => v.flip

/-- All values at quads of `g` and at its ends satisfy `P`. -/
structure Within (g : Graph) (P : L → Prop) (v : FlowValues L) : Prop where
  input : ∀ q ∈ g.quads, P (v.input q.id)
  output : ∀ q ∈ g.quads, P (v.output q.id)
  entry : P v.entry
  exit : P v.exit

/-- All values of `u` at quads of `g` and at its ends are related to those of `v`. -/
structure Rel (g : Graph) (R : L → L → Prop) (u v : FlowValues L) : Prop where
  input : ∀ q ∈ g.quads, R (u.input q.id) (v.input q.id)
  output : ∀ q ∈ g.quads, R (u.output q.id) (v.output q.id)
  entry : R u.entry v.entry
  exit : R u.exit v.exit

variable {g : Graph} {P : L → Prop} {R : L → L → Prop} {u v : FlowValues L}

theorem within_along (d : Direction) : (v.along d).Within g P ↔ v.Within g P := by
  cases d with
  | forward => exact Iff.rfl
  | backward => exact ⟨fun h => ⟨h.output, h.input, h.exit, h.entry⟩, fun h => ⟨h.output, h.input, h.exit, h.entry⟩⟩

theorem rel_along (d : Direction) : Rel g R (u.along d) (v.along d) ↔ Rel g R u v := by
  cases d with
  | forward => exact Iff.rfl
  | backward => exact ⟨fun h => ⟨h.output, h.input, h.exit, h.entry⟩, fun h => ⟨h.output, h.input, h.exit, h.entry⟩⟩

end FlowValues

/-- The values that are stored. -/
def FlowState.values {L : Type} (s : FlowState L) : FlowValues L := ⟨s.inAt, s.outAt, s.entry, s.exit⟩

theorem FlowState.values_along {L : Type} {s : FlowState L} {d : Direction} (h : s.direction = d) :
    s.values.along d = ⟨s.metAt, s.resultAt, s.source, s.sink⟩ := by
  obtain ⟨direction, top, met, result, source, sink, ids⟩ := s
  obtain rfl : direction = d := h
  cases direction <;> rfl

namespace Problem

variable {L : Type}

/-- The dataflow equations, for values along the direction of the problem: what meets at a quad comes
from its neighbours, the boundary handing on the starting value, and is `top` without neighbours; what
leaves a quad has passed it; and at the other end the results of the last quads meet, or the starting
value stands if there are none. -/
structure Equations (p : Problem L) (g : Graph) (v : FlowValues L) : Prop where
  entry : v.entry = p.source
  input : ∀ q ∈ g.quads, v.input q.id = meetAll p.meet p.top
    ((g.quadEdges.neighbours p.direction q.id).map fun n => n.elim v.entry v.output)
  output : ∀ q ∈ g.quads, v.output q.id = p.transfer q (v.input q.id)
  exit : v.exit = meetAll p.meet v.entry ((g.quadEdges.lastQuads p.direction).map v.output)

def SolvedBy (p : Problem L) (g : Graph) (v : FlowValues L) : Prop := p.Equations g (v.along p.direction)

/-- In the order of the meet. -/
def Below (p : Problem L) (a b : L) : Prop := p.meet a b = a

/-- Among the solutions with values in `scope`, `v` is the greatest. -/
structure IsGreatestSolution (p : Problem L) (g : Graph) (scope : L → Prop) (v : FlowValues L) : Prop where
  solves : p.SolvedBy g v
  within : v.Within g scope
  greatest : ∀ u, p.SolvedBy g u → u.Within g scope → FlowValues.Rel g p.Below u v

/-- The laws of a meet. -/
structure MeetLaws (meet : L → L → L) : Prop where
  comm : ∀ a b, meet a b = meet b a
  assoc : ∀ a b c, meet (meet a b) c = meet a (meet b c)
  self : ∀ a, meet a a = a

/-- A descent with the laws of the meet, whose order is that of the meet wherever a quad was passed. -/
structure Exact (p : Problem L) (quads : List Quad) (scope : L → Prop) where
  descent : p.Descent quads
  dom_iff : ∀ a, descent.dom a ↔ scope a
  laws : MeetLaws p.meet
  below : ∀ q ∈ quads, ∀ {a b}, descent.le (p.transfer q a) (p.transfer q b) →
    p.Below (p.transfer q a) (p.transfer q b)

variable {p : Problem L}

theorem MeetLaws.meet_left {meet : L → L → L} (h : MeetLaws meet) {a a' b b' : L} (ha : meet a a' = a)
    (hb : meet b b' = b) : meet (meet a b) (meet a' b') = meet a b :=
  calc meet (meet a b) (meet a' b') = meet a (meet (meet b a') b') := by rw [h.assoc, h.assoc]
    _ = meet a (meet (meet a' b) b') := by rw [h.comm b a']
    _ = meet (meet a a') (meet b b') := by rw [h.assoc, h.assoc]
    _ = meet a b := by rw [ha, hb]

/-! ### Neighbours -/

section

variable {g : Graph} (hd : g.quadOrder.Nodup)
include hd

theorem exists_neighbour {q : Quad} (hq : q ∈ g.quads) {id : QuadId}
    (h : some id ∈ g.quadEdges.neighbours p.direction q.id) : ∃ x ∈ g.quads, x.id = id := by
  cases hdir : p.direction with
  | forward =>
    rw [hdir] at h
    exact Graph.exists_quad_of_mem_predecessors hd hq h
  | backward =>
    rw [hdir] at h
    exact Graph.exists_quad_of_mem_successors hd hq h

omit hd in
theorem exists_lastQuad {id : QuadId} (h : id ∈ g.quadEdges.lastQuads p.direction) :
    ∃ x ∈ g.quads, x.id = id := by
  have horder : id ∈ g.quadOrder := by
    rw [← Graph.quadEdges_order]
    cases hdir : p.direction with
    | forward =>
      rw [hdir] at h
      exact (List.mem_filter.1 h).1
    | backward =>
      rw [hdir] at h
      exact (List.mem_filter.1 h).1
  exact List.mem_map.1 horder

/-! ### Sweeps stay above every solution -/

variable {D : p.Descent g.quads} {f f' : Findings L} {v : FlowValues L}

omit hd in
/-- Every result is still above that of the solution `v`. -/
def Above (D : p.Descent g.quads) (v : FlowValues L) (f : Findings L) : Prop :=
  ∀ q ∈ g.quads, D.le (v.output q.id) (f.state.resultAt q.id)

theorem Above.meet (h : Above D v f) (hf : p.Underway g.quads f) (hv : p.Equations g v) {q : Quad}
    (hq : q ∈ g.quads) : D.le (v.input q.id) (p.meetNeighbours g.quadEdges f.state q.id) := by
  rw [hv.input q hq, meetNeighbours, hf.top]
  refine D.meetAll_mono _ (fun n hn => ?_) _
  cases n with
  | none =>
    show D.le v.entry f.state.source
    rw [hv.entry, hf.source]
    exact D.le_refl _
  | some id =>
    obtain ⟨x, hx, rfl⟩ := exists_neighbour hd hq hn
    exact h x hx

theorem Above.visit (h : Above D v f) (hf : p.Underway g.quads f) (hv : p.Equations g v) {q : Quad}
    (hq : q ∈ g.quads) : Above D v (p.visit g.quadEdges f q) := by
  intro x hx
  rw [visit_resultAt]
  split
  · next he =>
    obtain rfl := Graph.eq_of_id_eq hd hq hx he
    rw [hv.output q hq]
    exact D.transfer_mono q hq (h.meet hd hf hv hq)
  · exact h x hx

variable [DecidableEq L]

theorem Above.ends {n : Nat} (h : Above D v f) (hf : p.Underway g.quads f) (hv : p.Equations g v)
    (ht : p.Ends g.quadEdges g.quads f n f') : Above D v f' := by
  refine (ht.induct (I := fun f => p.Underway g.quads f ∧ Above D v f) ?_ ⟨hf, h⟩).2
  rintro f q hq ⟨hf, h⟩
  exact ⟨hf.visit hq, h.visit hd hf hv hq⟩

omit hd [DecidableEq L] in
theorem Above.initial (hv : p.Equations g v) (hs : v.Within g D.dom) : Above D v (p.initial g) := by
  intro q hq
  rw [initial_resultAt, hv.output q hq]
  exact D.transfer_le_top q hq (hs.input q hq)

/-! ### The result of the sweeps -/

variable {scope : L → Prop} {n : Nat}

/-- Where the sweeps end, the values solve the equations. -/
theorem equations_of_ends (ht : p.Ends g.quadEdges g.quads (p.initial g) n f) :
    p.Equations g ((p.close g.quadEdges f).state.values.along p.direction) := by
  have hi := ht.iterate_eq (Nat.le_refl n)
  have hf : p.Solved g.quadEdges g.quads f := iterate_solved hd (.initial p g) hi
  have hv := FlowState.values_along (s := (p.close g.quadEdges f).state) hf.direction
  rw [hv]
  refine ⟨hf.source, fun q hq => ?_, hf.result, rfl⟩
  have hmet : f.state.metAt q.id = p.meetNeighbours g.quadEdges f.state q.id := hf.met q hq
  have hhanded : (fun n : Option QuadId => n.elim f.state.source f.state.resultAt) = f.state.handedOn := by
    funext n
    cases n <;> rfl
  show f.state.metAt q.id = _
  rw [hmet, meetNeighbours, hf.top, ← hhanded]
  rfl

theorem Descent.within_of_ends (D : p.Descent g.quads)
    (ht : p.Ends g.quadEdges g.quads (p.initial g) n f) :
    (p.close g.quadEdges f).state.values.Within g D.dom := by
  have hi := ht.iterate_eq (Nat.le_refl n)
  have hsolved : p.Solved g.quadEdges g.quads f := iterate_solved hd (.initial p g) hi
  have hf : D.Falling g.quadEdges f := (Descent.Falling.initial g).ends hd ht
  rw [← FlowValues.within_along p.direction]
  have hv := FlowState.values_along (s := (p.close g.quadEdges f).state) hf.direction
  have hsource : D.dom f.state.source := hf.source ▸ D.dom_source
  rw [hv]
  refine ⟨fun q hq => ?_, fun q _ => hf.dom q.id, hsource, D.dom_meetAll hsource fun a ha => ?_⟩
  · show D.dom (f.state.metAt q.id)
    rw [hsolved.met q hq]
    exact hf.dom_meet q.id
  · obtain ⟨id, -, rfl⟩ := List.mem_map.1 ha
    exact hf.dom id

theorem Exact.isGreatestSolution (E : p.Exact g.quads scope)
    (ht : p.Ends g.quadEdges g.quads (p.initial g) n f) :
    p.IsGreatestSolution g scope (p.close g.quadEdges f).state.values := by
  have heq := equations_of_ends hd ht
  have hscope : E.descent.dom = scope := funext fun a => propext (E.dom_iff a)
  refine ⟨heq, hscope ▸ E.descent.within_of_ends hd ht, fun u hu hw => ?_⟩
  replace hw : (u.along p.direction).Within g E.descent.dom := by
    rw [hscope, FlowValues.within_along]
    exact hw
  have habove : Above E.descent (u.along p.direction) f :=
    (Above.initial hu hw).ends hd (.initial p g) hu ht
  rw [← FlowValues.rel_along p.direction]
  have hf : p.Underway g.quads f := ((Descent.Falling.initial (D := E.descent) g).ends hd ht).toUnderway
  have hv := FlowState.values_along (s := (p.close g.quadEdges f).state) hf.direction
  rw [hv] at heq ⊢
  -- results first: both solutions have passed the quad there, so the two orders agree
  have hout : ∀ q ∈ g.quads, p.Below ((u.along p.direction).output q.id) (f.state.resultAt q.id) := by
    intro q hq
    have hle := habove q hq
    have hresult : f.state.resultAt q.id = p.transfer q (f.state.metAt q.id) := heq.output q hq
    rw [hu.output q hq, hresult] at hle ⊢
    exact E.below q hq hle
  have hself : ∀ a, p.Below a a := E.laws.self
  have hsource : p.Below (u.along p.direction).entry f.state.source := by
    rw [hu.entry, hf.source]
    exact hself _
  refine ⟨fun q hq => ?_, hout, hsource, ?_⟩
  · rw [hu.input q hq, heq.input q hq]
    refine meetAll_rel hself E.laws.meet_left _ (fun n hn => ?_) _
    cases n with
    | none => exact hsource
    | some id =>
      obtain ⟨x, hx, rfl⟩ := exists_neighbour hd hq hn
      exact hout x hx
  · rw [hu.exit, heq.exit, hu.entry, heq.entry]
    refine meetAll_rel hself E.laws.meet_left _ (fun id hid => ?_) _
    obtain ⟨x, hx, rfl⟩ := exists_lastQuad hid
    exact hout x hx

end

end Problem

end Dataflow
