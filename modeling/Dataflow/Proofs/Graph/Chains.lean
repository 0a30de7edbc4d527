import Dataflow.Proofs.Graph.Neighbours

/-!
# Neighbours and chains of blocks

The neighbour lists of quads say what the blocks and their edges say: flow leaves a block at its last
quad, passes through blocks without quads (`ChainTo`), and goes on at the first quad that it meets there
or out of the method. Both directions of the lists are brought to these chains, so they agree with each
other, also at the boundary (`exits_iff`, `enters_iff`), and neither search reports a neighbour twice.
-/

namespace Dataflow.Graph

/-- A chain of edges leads from block `x` to block `y`, and all blocks between the two hold no quads. -/
def ChainTo (g : Graph) (x y : BlockId) : Prop := ∃ v ∈ g.successors x, g.Leads v y

variable {g : Graph} {k : Block} {a b q : Quad} {x : BlockId}

/-! ### No neighbour twice -/

theorem neighbours_of_notMem {id : QuadId} (h : id ∉ g.quadOrder) :
    g.quadEdges.successors id = [] ∧ g.quadEdges.predecessors id = [] := by
  have hk : ∀ k ∈ g.blocks.map (·.2), id ∉ k.quads.map (·.id) := by
    intro k hk hid
    obtain ⟨e, he, rfl⟩ := List.mem_map.1 hk
    obtain ⟨q, hq, rfl⟩ := List.mem_map.1 hid
    exact h (List.mem_map_of_mem (mem_quads.2 ⟨e, he, hq⟩))
  constructor
  · rw [QuadEdges.successors, quadEdges, (foldl_addBlockEdges_of_notMem hk).1]
    simp [QuadEdges.empty]
  · rw [QuadEdges.predecessors, quadEdges, (foldl_addBlockEdges_of_notMem hk).2]
    simp [QuadEdges.empty]

theorem nodup_neighbours (hd : g.quadOrder.Nodup) (id : QuadId) :
    (g.quadEdges.successors id).Nodup ∧ (g.quadEdges.predecessors id).Nodup := by
  by_cases hid : id ∈ g.quadOrder
  · obtain ⟨q, hq, rfl⟩ := List.mem_map.1 hid
    obtain ⟨⟨x, k⟩, hk, hqk⟩ := mem_quads.1 hq
    constructor
    · rcases getLast?_or_adjacent hqk with hl | ⟨b, hi⟩
      · rw [successors_last hd hk hl]
        exact nodup_collect .nil _ _
      · rw [successors_inner hd hk hi]
        exact List.nodup_singleton _
    · rcases head?_or_adjacent hqk with hf | ⟨a, hi⟩
      · rw [predecessors_first hd hk hf]
        exact nodup_collect .nil _ _
      · rw [predecessors_inner hd hk hi]
        exact List.nodup_singleton _
  · obtain ⟨hs, hp⟩ := neighbours_of_notMem hid
    rw [hs, hp]
    exact ⟨.nil, .nil⟩

namespace WellFormed

variable (hw : g.WellFormed)
include hw

/-! ### The boundary -/

theorem successors_eq (hk : (x, k) ∈ g.blocks) : g.successors x = k.successors := by
  rw [successors, hw.block?_iff.2 hk]
  rfl

theorem exits_last_iff (hk : (x, k) ∈ g.blocks) (ha : k.quads.getLast? = some a) :
    g.Exits a ↔ k.successors = [] ∨ ∃ c, g.ChainTo x c ∧ g.IsEnd c := by
  rw [Exits, successors_last hw.quads_nodup hk ha, hw.none_mem_outgoing, hw.id_eq hk,
    hw.successors_eq hk]
  simp only [ChainTo, hw.successors_eq hk]
  refine or_congr_right ⟨?_, ?_⟩
  · rintro ⟨v, c, hv, hl, hc⟩
    exact ⟨c, ⟨v, hv, hl⟩, hc⟩
  · rintro ⟨c, ⟨v, hv, hl⟩, hc⟩
    exact ⟨v, c, hv, hl, hc⟩

theorem enters_first_iff (hk : (x, k) ∈ g.blocks) (hb : k.quads.head? = some b) :
    g.Enters b ↔ g.ChainTo .entry x := by
  rw [Enters, predecessors_first hw.quads_nodup hk hb, hw.mem_incoming, hw.id_eq hk]
  constructor
  · rintro ⟨a, v, ha, hv, hl⟩
    obtain rfl := lastIn_eq_some_none.1 ha
    exact ⟨v, hv, hl⟩
  · rintro ⟨v, hv, hl⟩
    exact ⟨.entry, v, lastIn_eq_some_none.2 rfl, hv, hl⟩

omit hw in
/-- Inside a block flow goes to the next quad only. -/
theorem not_exits_of_adjacent (hd : g.quadOrder.Nodup) (hk : (x, k) ∈ g.blocks)
    (h : [a, b] <:+: k.quads) : ¬ g.Exits a := by
  rw [Exits, successors_inner hd hk h]
  simp

omit hw in
theorem not_enters_of_adjacent (hd : g.quadOrder.Nodup) (hk : (x, k) ∈ g.blocks)
    (h : [a, b] <:+: k.quads) : ¬ g.Enters b := by
  rw [Enters, predecessors_inner hd hk h]
  simp

theorem exits_iff (ha : a ∈ g.quads) : g.Exits a ↔ ∃ x k, (x, k) ∈ g.blocks ∧
    k.quads.getLast? = some a ∧ (k.successors = [] ∨ ∃ c, g.ChainTo x c ∧ g.IsEnd c) := by
  constructor
  · intro h
    obtain ⟨⟨x, k⟩, hk, hak⟩ := mem_quads.1 ha
    rcases getLast?_or_adjacent hak with hl | ⟨b, hi⟩
    · exact ⟨x, k, hk, hl, (hw.exits_last_iff hk hl).1 h⟩
    · exact absurd h (not_exits_of_adjacent hw.quads_nodup hk hi)
  · rintro ⟨x, k, hk, hl, h⟩
    exact (hw.exits_last_iff hk hl).2 h

theorem enters_iff (hb : b ∈ g.quads) : g.Enters b ↔ ∃ x k, (x, k) ∈ g.blocks ∧
    k.quads.head? = some b ∧ g.ChainTo .entry x := by
  constructor
  · intro h
    obtain ⟨⟨x, k⟩, hk, hbk⟩ := mem_quads.1 hb
    rcases head?_or_adjacent hbk with hf | ⟨a, hi⟩
    · exact ⟨x, k, hk, hf, (hw.enters_first_iff hk hf).1 h⟩
    · exact absurd h (not_enters_of_adjacent hw.quads_nodup hk hi)
  · rintro ⟨x, k, hk, hf, h⟩
    exact (hw.enters_first_iff hk hf).2 h

/-! ### Between quads -/

theorem next_iff : g.Next a b ↔ (∃ x k, (x, k) ∈ g.blocks ∧ [a, b] <:+: k.quads) ∨
    ∃ x k y l, (x, k) ∈ g.blocks ∧ k.quads.getLast? = some a ∧ (y, l) ∈ g.blocks ∧
      l.quads.head? = some b ∧ g.ChainTo x y := by
  constructor
  · intro h
    cases h with
    | inner hk hi => exact .inl ⟨_, _, hk, hi⟩
    | across hk ha hv hm =>
      obtain ⟨y, l, hl, hb, hvy⟩ := hm
      rw [← hw.successors_eq hk] at hv
      exact .inr ⟨_, _, y, l, hk, ha, hl, hb, _, hv, hvy⟩
  · rintro (⟨x, k, hk, hi⟩ | ⟨x, k, y, l, hk, ha, hl, hb, hc⟩)
    · exact .inner hk hi
    · obtain ⟨v, hv, hvy⟩ := hc
      rw [hw.successors_eq hk] at hv
      exact .across hk ha hv ⟨y, l, hl, hb, hvy⟩

end WellFormed

/-! ### The result -/

/-- The neighbour lists describe exactly the chains of blocks: between quads in both directions, and
where flow leaves and enters the method. They hold no neighbour twice, and the quads come in their
order. -/
theorem neighbours_iff_chains (g : Graph) (h : g.Built) :
    (∀ a ∈ g.quads, ∀ b ∈ g.quads,
      (some b.id ∈ g.quadEdges.successors a.id ↔ some a.id ∈ g.quadEdges.predecessors b.id) ∧
      (some b.id ∈ g.quadEdges.successors a.id ↔
        (∃ x k, (x, k) ∈ g.blocks ∧ [a, b] <:+: k.quads) ∨
        ∃ x k y l, (x, k) ∈ g.blocks ∧ k.quads.getLast? = some a ∧ (y, l) ∈ g.blocks ∧
          l.quads.head? = some b ∧ g.ChainTo x y)) ∧
    (∀ a ∈ g.quads, none ∈ g.quadEdges.successors a.id ↔ ∃ x k, (x, k) ∈ g.blocks ∧
      k.quads.getLast? = some a ∧ (k.successors = [] ∨ ∃ c, g.ChainTo x c ∧ g.IsEnd c)) ∧
    (∀ b ∈ g.quads, none ∈ g.quadEdges.predecessors b.id ↔ ∃ x k, (x, k) ∈ g.blocks ∧
      k.quads.head? = some b ∧ g.ChainTo .entry x) ∧
    (∀ id, (g.quadEdges.successors id).Nodup ∧ (g.quadEdges.predecessors id).Nodup) ∧
    g.quadEdges.order = g.quadOrder := by
  have hw := h.wellFormed
  refine ⟨fun a ha b hb => ?_, fun a ha => hw.exits_iff ha, fun b hb => hw.enters_iff hb,
    nodup_neighbours hw.quads_nodup, g.quadEdges_order⟩
  have hflows : some b.id ∈ g.quadEdges.successors a.id ↔ g.Next a b := hw.flows_iff_next ha hb
  rw [hflows, hw.mem_predecessors_iff_next ha hb]
  exact ⟨Iff.rfl, hw.next_iff⟩

/-- A quad that flow comes back to through two blocks without quads, which form a loop of their own. -/
def detour : Graph := ⟨⟨"detour", 0, true⟩,
  [(.entry, ⟨.entry, [], [⟨3⟩], some ⟨3⟩⟩), (.exit, .empty .exit),
   (⟨2⟩, ⟨⟨2⟩, [⟨1, .nop⟩], [⟨3⟩], some ⟨3⟩⟩),
   (⟨3⟩, ⟨⟨3⟩, [], [⟨3⟩, ⟨4⟩], some ⟨3⟩⟩),
   (⟨4⟩, ⟨⟨4⟩, [], [⟨3⟩, ⟨2⟩, ⟨5⟩], some ⟨3⟩⟩),
   (⟨5⟩, .empty ⟨5⟩)], 6⟩

theorem built_detour : detour.Built := by
  have hblocks := (Built.ofMethod ⟨"detour", 0, true⟩).addBlock (by decide) |>.addBlock (by decide)
    |>.addBlock (by decide) |>.addBlock (by decide)
  have hedges := hblocks.addEdge (b := .entry) (t := ⟨3⟩) rfl |>.addEdge (b := ⟨2⟩) (t := ⟨3⟩) rfl
    |>.addEdge (b := ⟨3⟩) (t := ⟨3⟩) rfl |>.addEdge (b := ⟨3⟩) (t := ⟨4⟩) rfl
    |>.addEdge (b := ⟨4⟩) (t := ⟨3⟩) rfl |>.addEdge (b := ⟨4⟩) (t := ⟨2⟩) rfl
    |>.addEdge (b := ⟨4⟩) (t := ⟨5⟩) rfl
  exact hedges.pushQuad (b := ⟨2⟩) (q := ⟨1, .nop⟩) rfl

theorem detour_chains : detour.ChainTo .entry ⟨2⟩ ∧ detour.ChainTo ⟨2⟩ ⟨2⟩ ∧
    ∃ c, detour.ChainTo ⟨2⟩ c ∧ detour.IsEnd c := by
  have hs : detour.quadEdges.successors 1 = [some 1, none] := by decide +kernel
  have hp : detour.quadEdges.predecessors 1 = [none, some 1] := by decide +kernel
  have hq : (⟨1, .nop⟩ : Quad) ∈ detour.quads := .head _
  have hblock : ∀ e ∈ detour.blocks, ⟨1, .nop⟩ ∈ e.2.quads →
      e.1 = ⟨2⟩ ∧ e.2.quads = [⟨1, .nop⟩] ∧ e.2.successors ≠ [] := by decide
  obtain ⟨hflows, hexits, henters, -, -⟩ := neighbours_iff_chains detour built_detour
  refine ⟨?_, ?_, ?_⟩
  · obtain ⟨x, k, hk, hf, hc⟩ := (henters _ hq).1 (by rw [hp]; decide)
    obtain ⟨rfl, -, -⟩ := hblock _ hk (List.mem_of_head? hf)
    exact hc
  · rcases (hflows _ hq _ hq).2.1 (by rw [hs]; decide) with ⟨x, k, hk, hi⟩ | ⟨x, k, y, l, hk, ha, hl, hb, hc⟩
    · have hlen := hi.length_le
      rw [(hblock _ hk (hi.subset (.head _))).2.1] at hlen
      exact absurd hlen (by decide)
    · obtain ⟨rfl, -, -⟩ := hblock _ hk (List.mem_of_getLast? ha)
      obtain ⟨rfl, -, -⟩ := hblock _ hl (List.mem_of_head? hb)
      exact hc
  · obtain ⟨x, k, hk, hl, hend⟩ := (hexits _ hq).1 (by rw [hs]; decide)
    obtain ⟨rfl, -, hne⟩ := hblock _ hk (List.mem_of_getLast? hl)
    exact hend.resolve_left hne

end Dataflow.Graph
