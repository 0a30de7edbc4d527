import Dataflow.Analysis.Liveness
import Dataflow.Proofs.Flow.Descent
import Dataflow.Proofs.Lattice.Registers

/-!
# The liveness equations

Liveness settles on every graph (`exists_solve_eq`), and where it has settled a register is live before a quad
iff the quad uses it or hands it on (`mem_inAt`), and live after it iff it is live before a successor
(`mem_outAt`).
-/

namespace Dataflow.Liveness

variable {g : Graph} {e : QuadEdges} {quads : List Quad} {f : Findings Registers} {q : Quad} {r : Register}

theorem mem_transfer {live : Registers} : r ∈ transfer q live ↔ r ∈ q.uses ∨ r ∈ live ∧ r ∉ q.defs := by
  rw [transfer, Registers.mem_insertAll, Registers.mem_eraseAll]

/-- Live sets only grow, and only by registers of the graph. -/
def descent (g : Graph) : (problem g).Descent g.quads where
  dom s := ∀ r ∈ s, r ∈ g.registers
  le s t := ∀ r ∈ t, r ∈ s
  rank s := g.registers.toList.countP (· ∉ s)
  le_refl _ _ h := h
  le_trans h₁ h₂ r hr := h₁ r (h₂ r hr)
  dom_top r hr := absurd hr (by simp [problem])
  dom_source r hr := absurd hr (by simp [problem])
  dom_meet {s t} hs ht r hr := by
    rcases Std.ExtTreeSet.mem_union_iff.1 hr with hr | hr
    · exact hs r hr
    · exact ht r hr
  dom_transfer q hq {s} hs r hr := by
    rcases mem_transfer.1 hr with hr | hr
    · exact Graph.mem_registers_of_uses hq hr
    · exact hs r hr.1
  meet_mono {s s' t t'} hs ht r hr := by
    rcases Std.ExtTreeSet.mem_union_iff.1 hr with hr | hr
    · exact Std.ExtTreeSet.mem_union_iff.2 (.inl (hs r hr))
    · exact Std.ExtTreeSet.mem_union_iff.2 (.inr (ht r hr))
  transfer_mono q _ {s t} h r hr := by
    rcases mem_transfer.1 hr with hr | hr
    · exact mem_transfer.2 (.inl hr)
    · exact mem_transfer.2 (.inr ⟨h r hr.1, hr.2⟩)
  transfer_le_top q _ {s} _ r hr := absurd hr (by simp [problem])
  rank_lt {s t} hs _ h hne := by
    obtain ⟨x, hx, hn⟩ := Registers.exists_mem_of_ne h hne.symm
    refine countP_lt_countP (fun r _ hr => ?_) (Std.ExtTreeSet.mem_toList.2 (hs x hx)) ?_ ?_
    · rw [decide_eq_true_eq] at hr ⊢
      exact fun ht => hr (h r ht)
    · simpa using hx
    · simpa using hn
  rank_top := by
    show _ ≤ g.registers.size
    rw [← Std.ExtTreeSet.length_toList]
    exact List.countP_le_length

theorem mem_inAt (h : (problem g).Solved e quads f) (hq : q ∈ quads) :
    r ∈ f.state.inAt q.id ↔ r ∈ q.uses ∨ r ∈ f.state.outAt q.id ∧ r ∉ q.defs := by
  rw [FlowState.inAt_of_backward h.direction, FlowState.outAt_of_backward h.direction, h.result q hq]
  exact mem_transfer

theorem mem_outAt (h : (problem g).Solved e quads f) (hq : q ∈ quads) :
    r ∈ f.state.outAt q.id ↔ ∃ id, some id ∈ e.successors q.id ∧ r ∈ f.state.inAt id := by
  have hm : r ∈ (problem g).meetNeighbours e f.state q.id ↔
      ∃ v ∈ (e.successors q.id).map f.state.handedOn, r ∈ v := by
    rw [Problem.meetNeighbours, h.top]
    exact mem_meetAll_union
  rw [FlowState.outAt_of_backward h.direction, h.met q hq, hm]
  simp only [FlowState.inAt_of_backward h.direction]
  constructor
  · rintro ⟨v, hv, hr⟩
    obtain ⟨n, hn, rfl⟩ := List.mem_map.1 hv
    cases n with
    | none =>
      -- nothing is live where flow leaves the method
      have hs : f.state.handedOn none = ∅ := h.source
      rw [hs] at hr
      exact absurd hr (by simp)
    | some id => exact ⟨id, hn, hr⟩
  · rintro ⟨id, hid, hr⟩
    exact ⟨_, List.mem_map_of_mem hid, hr⟩

/-- Liveness settles on every graph, in either mode, and its values solve the equations. -/
theorem exists_solve_eq (g : Graph) (hd : g.quadOrder.Nodup) :
    ∃ n f, (problem g).Solved g.quadEdges g.quads f ∧ ∀ removesDead,
      (Progress.start (.liveness removesDead)).solve g =
        (.ok n, Progress.finish ⟨.liveness removesDead, g, f⟩ g) := by
  obtain ⟨n, f, hs⟩ := (descent g).settles hd fun _ _ => rfl
  exact ⟨n, f, Problem.solve_solved hd hs, fun _ => Progress.solve_of_settled hs⟩

end Dataflow.Liveness
