import Dataflow.Proofs.Flow.Greatest
import Dataflow.Proofs.Lattice.Registers

/-!
# Problems that shed

A problem sheds if its values are sets that meet by intersection. Every result begins with all of `top`, so what is
missing from a result has been lost on the way: some quad dropped it, or the boundary never had it, and from there
no neighbour could hand it on. What can be said of an element wherever it is lost, and still holds when the next
quad does not get it, therefore holds of all elements that are missing at the end (`Sheds.of_notMem_resultAt`). This
is `Gathers.of_mem_resultAt` turned round; elements outside of `top` were never there and are left out.
-/

namespace Dataflow.Problem

variable {α : Type} [Ord α] [Std.TransOrd α]

def Sheds (p : Problem (Std.ExtTreeSet α)) : Prop := p.meet = (· ∩ ·)

namespace Sheds

variable {p : Problem (Std.ExtTreeSet α)} (hp : p.Sheds) {g : Graph} (hd : g.quadOrder.Nodup)
  {f : Findings (Std.ExtTreeSet α)} {q : Quad} {x : α}

/-- How `x` can be missing where values meet at `q`, if `lost n` says that it is missing from the result of `n`. -/
def Lost (p : Problem (Std.ExtTreeSet α)) (g : Graph) (lost : Quad → Prop) (q : Quad) (x : α) : Prop :=
  none ∈ g.quadEdges.neighbours p.direction q.id ∧ x ∉ p.source ∨
    ∃ n ∈ g.quads, some n.id ∈ g.quadEdges.neighbours p.direction q.id ∧ lost n

include hp hd

theorem notMem_meetNeighbours (hf : p.Underway g.quads f) (hq : q ∈ g.quads) (hx : x ∈ p.top) :
    x ∉ p.meetNeighbours g.quadEdges f.state q.id ↔ Lost p g (fun n => x ∉ f.state.resultAt n.id) q x := by
  have hmem : x ∈ p.meetNeighbours g.quadEdges f.state q.id ↔
      ∀ n ∈ g.quadEdges.neighbours p.direction q.id, x ∈ f.state.handedOn n := by
    rw [meetNeighbours, hp, hf.top]
    cases g.quadEdges.neighbours p.direction q.id with
    | nil => simpa [meetAll] using hx
    | cons n ns => rw [mem_meetAll_inter (by simp), List.forall_mem_map]
  rw [hmem]
  constructor
  · intro h
    simp only [not_forall] at h
    obtain ⟨n, hn, hx⟩ := h
    cases n with
    | none =>
      refine .inl ⟨hn, ?_⟩
      rw [← hf.source]
      exact hx
    | some id =>
      obtain ⟨n, hm, rfl⟩ := exists_neighbour hd hq hn
      exact .inr ⟨n, hm, hn, hx⟩
  · rintro (⟨hn, hx⟩ | ⟨n, -, hn, hx⟩) h
    · refine hx ?_
      rw [← hf.source]
      exact h none hn
    · exact hx (h (some n.id) hn)

theorem notMem_metAt (hf : p.Solved g.quadEdges g.quads f) (hq : q ∈ g.quads) (hx : x ∈ p.top) :
    x ∉ f.state.metAt q.id ↔ Lost p g (fun n => x ∉ f.state.resultAt n.id) q x := by
  rw [hf.met q hq]
  exact hp.notMem_meetNeighbours hd hf.toUnderway hq hx

theorem of_notMem_resultAt [DecidableEq (Std.ExtTreeSet α)] {P : Quad → α → Prop} {n : Nat}
    (hP : ∀ q ∈ g.quads, ∀ s : Std.ExtTreeSet α, (∀ x ∈ p.top, x ∉ s → Lost p g (P · x) q x) →
      ∀ x ∈ p.top, x ∉ p.transfer q s → P q x)
    (h : p.solve g = (.settled n, f)) (hq : q ∈ g.quads) (hx : x ∈ p.top) (hn : x ∉ f.state.resultAt q.id) :
    P q x := by
  obtain ⟨f₀, ht, rfl⟩ := ends_of_solve h
  refine (ht.induct (I := fun f => p.Underway g.quads f ∧
    ∀ q ∈ g.quads, ∀ x ∈ p.top, x ∉ f.state.resultAt q.id → P q x) ?_ ⟨.initial p g, ?_⟩).2 q hq x hx hn
  · rintro f q hq ⟨hf, hI⟩
    refine ⟨hf.visit hq, fun y hy x hx hn => ?_⟩
    rw [visit_resultAt] at hn
    split at hn
    · next he =>
      obtain rfl := Graph.eq_of_id_eq hd hq hy he
      refine hP q hq _ (fun z hz hz' => ?_) x hx hn
      refine ((hp.notMem_meetNeighbours hd hf hq hz).1 hz').imp_right ?_
      rintro ⟨n, hm, hnq, hlost⟩
      exact ⟨n, hm, hnq, hI n hm z hz hlost⟩
    · exact hI y hy x hx hn
  · intro q _ x hx hn
    rw [initial_resultAt] at hn
    exact absurd hx hn

end Sheds

end Dataflow.Problem
