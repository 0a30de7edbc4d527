import Dataflow.Proofs.Flow.Greatest
import Dataflow.Proofs.Lattice.Registers

/-!
# Problems that gather

A problem gathers if its values are sets that meet by union and nothing is there to begin with. Then every
element of a value was put there by passing some quad and has come along neighbours from there. So what can
be said of an element wherever a quad puts it, and still holds when the next quad hands it on, holds of all
elements of the final results (`Gathers.of_mem_resultAt`): no visit brings in anything else, whatever mixture of
old and new results it meets.
-/

namespace Dataflow.Problem

variable {α : Type} [Ord α] [Std.TransOrd α]

structure Gathers (p : Problem (Std.ExtTreeSet α)) : Prop where
  meet : p.meet = (· ∪ ·)
  top : p.top = ∅
  source : p.source = ∅

namespace Gathers

variable {p : Problem (Std.ExtTreeSet α)} (hp : p.Gathers) {g : Graph} (hd : g.quadOrder.Nodup)
  {f : Findings (Std.ExtTreeSet α)} {q : Quad} {x : α}
include hp hd

theorem mem_meetNeighbours (hf : p.Underway g.quads f) (hq : q ∈ g.quads) :
    x ∈ p.meetNeighbours g.quadEdges f.state q.id ↔
      ∃ n ∈ g.quads, some n.id ∈ g.quadEdges.neighbours p.direction q.id ∧ x ∈ f.state.resultAt n.id := by
  rw [meetNeighbours, hp.meet, hf.top, hp.top, mem_meetAll_union]
  constructor
  · rintro ⟨v, hv, hx⟩
    obtain ⟨n, hn, rfl⟩ := List.mem_map.1 hv
    cases n with
    | none =>
      have hs : f.state.handedOn none = ∅ := hf.source.trans hp.source
      rw [hs] at hx
      exact absurd hx (by simp)
    | some id =>
      obtain ⟨n, hm, rfl⟩ := exists_neighbour hd hq hn
      exact ⟨n, hm, hn, hx⟩
  · rintro ⟨n, -, hn, hx⟩
    exact ⟨_, List.mem_map_of_mem hn, hx⟩

theorem mem_metAt (hf : p.Solved g.quadEdges g.quads f) (hq : q ∈ g.quads) : x ∈ f.state.metAt q.id ↔
    ∃ n ∈ g.quads, some n.id ∈ g.quadEdges.neighbours p.direction q.id ∧ x ∈ f.state.resultAt n.id := by
  rw [hf.met q hq]
  exact hp.mem_meetNeighbours hd hf.toUnderway hq

omit hd in
/-- Where the analysis ends, what the last quads hand on comes together. -/
theorem mem_sink [DecidableEq (Std.ExtTreeSet α)] {n : Nat} (h : p.solve g = (.settled n, f)) :
    x ∈ f.state.sink ↔
      ∃ q ∈ g.quads, q.id ∈ g.quadEdges.lastQuads p.direction ∧ x ∈ f.state.resultAt q.id := by
  obtain ⟨f₀, ht, rfl⟩ := ends_of_solve h
  have hsource : f₀.state.source = ∅ := by
    refine (ht.induct (I := fun f => f.state.source = p.source) (fun f q _ hf => ?_) rfl).trans hp.source
    rw [visit_source, hf]
  have hsink : (p.close g.quadEdges f₀).state.sink =
      meetAll (· ∪ ·) ∅ ((g.quadEdges.lastQuads p.direction).map f₀.state.resultAt) := by
    rw [close, hp.meet, hsource]
  rw [hsink, mem_meetAll_union]
  constructor
  · rintro ⟨v, hv, hx⟩
    obtain ⟨id, hid, rfl⟩ := List.mem_map.1 hv
    obtain ⟨q, hq, rfl⟩ := exists_lastQuad hid
    exact ⟨q, hq, hid, hx⟩
  · rintro ⟨q, -, hlast, hx⟩
    exact ⟨_, List.mem_map_of_mem hlast, hx⟩

theorem of_mem_resultAt [DecidableEq (Std.ExtTreeSet α)] {P : Quad → α → Prop} {n : Nat}
    (hP : ∀ q ∈ g.quads, ∀ s : Std.ExtTreeSet α,
      (∀ x ∈ s, ∃ n ∈ g.quads, some n.id ∈ g.quadEdges.neighbours p.direction q.id ∧ P n x) →
        ∀ x ∈ p.transfer q s, P q x)
    (h : p.solve g = (.settled n, f)) (hq : q ∈ g.quads) (hx : x ∈ f.state.resultAt q.id) : P q x := by
  obtain ⟨f₀, ht, rfl⟩ := ends_of_solve h
  refine (ht.induct (I := fun f => p.Underway g.quads f ∧ ∀ q ∈ g.quads, ∀ x ∈ f.state.resultAt q.id, P q x)
    ?_ ⟨.initial p g, ?_⟩).2 q hq x hx
  · rintro f q hq ⟨hf, hI⟩
    refine ⟨hf.visit hq, fun y hy z hz => ?_⟩
    rw [visit_resultAt] at hz
    split at hz
    · next he =>
      obtain rfl := Graph.eq_of_id_eq hd hq hy he
      refine hP q hq _ (fun x hx => ?_) z hz
      obtain ⟨n, hn, hnq, hx⟩ := (hp.mem_meetNeighbours hd hf hq).1 hx
      exact ⟨n, hn, hnq, hI n hn x hx⟩
    · exact hI y hy z hz
  · intro q _ x hx
    rw [initial_resultAt, hp.top] at hx
    exact absurd hx (by simp)

end Gathers

end Dataflow.Problem
