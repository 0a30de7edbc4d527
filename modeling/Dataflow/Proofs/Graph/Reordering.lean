import Mathlib.Data.Multiset.Basic
import Dataflow.Analysis.NullCheck
import Dataflow.Proofs.Graph.Chains
import Dataflow.Proofs.Lattice.Registers

/-!
# Graphs that differ in order only

`g.Reordered g'`: the same method and the same blocks, but the blocks may stand in another order and so may the
edges out of each block. The order decides in which order the searches for neighbours go and what they list
first. It does not decide what they find: walks along the edges are the same walks (`hits`), and neither search
lists a neighbour twice, so the lists of neighbours are the same up to order (`neighbours_perm`).
-/

namespace Dataflow

/-- A block without the order of its edges. -/
@[ext]
structure Block.Outline where
  id : BlockId
  quads : List Quad
  successors : Multiset BlockId
  fallthrough : Option BlockId

-- field by field: rewriting along an equality of multisets would not compute
instance : DecidableEq Block.Outline := fun _ _ => decidable_of_iff' _ Block.Outline.ext_iff

def Block.outline (k : Block) : Block.Outline := ⟨k.id, k.quads, k.successors, k.fallthrough⟩

theorem Block.outline_eq_iff {k l : Block} : k.outline = l.outline ↔
    k.id = l.id ∧ k.quads = l.quads ∧ k.successors.Perm l.successors ∧ k.fallthrough = l.fallthrough := by
  simp [Block.outline]

namespace Graph

/-- The blocks with their numbers, without the order of edges. -/
def outlines (g : Graph) : List (BlockId × Block.Outline) := g.blocks.map fun e => (e.1, e.2.outline)

/-- The same method and the same blocks, whatever the order of blocks and of the edges out of a block. -/
@[mk_iff]
structure Reordered (g g' : Graph) : Prop where
  method_eq : g.method = g'.method
  outlines_perm : g.outlines.Perm g'.outlines

instance (g g' : Graph) : Decidable (g.Reordered g') := decidable_of_iff' _ (reordered_iff g g')

theorem Hits.imp {next next' : BlockId → List BlockId} {stop stop' : BlockId → Option (Option QuadId)}
    {may may' : BlockId → Prop} {b : BlockId} {n : Option QuadId} (h : Hits next stop may b n)
    (hn : ∀ b c, c ∈ next b → c ∈ next' b) (hs : ∀ b, stop b = stop' b) (hm : ∀ b, may b → may' b) :
    Hits next' stop' may' b n := by
  induction h with
  | stop h => exact .stop (hs _ ▸ h)
  | pass h hb hc _ ih => exact .pass (hs _ ▸ h) (hm _ hb) (hn _ _ hc) ih

namespace Reordered

variable {g g' : Graph} (h : g.Reordered g') {b x : BlockId} {k : Block} {q : Quad} {n : Option QuadId}
include h

theorem symm : g'.Reordered g := ⟨h.method_eq.symm, h.outlines_perm.symm⟩

theorem exists_block (hk : (b, k) ∈ g.blocks) : ∃ l, (b, l) ∈ g'.blocks ∧ l.outline = k.outline := by
  have hm : (b, k.outline) ∈ g'.outlines := h.outlines_perm.mem_iff.1 (List.mem_map.2 ⟨_, hk, rfl⟩)
  obtain ⟨⟨c, l⟩, hl, he⟩ := List.mem_map.1 hm
  obtain ⟨rfl, ho⟩ := Prod.mk.inj he
  exact ⟨l, hl, ho⟩

/-! ### Quads and blocks -/

theorem quads_perm : g.quads.Perm g'.quads := by
  have hquads : ∀ g : Graph, g.quads = g.outlines.flatMap (·.2.quads) := by
    intro g
    rw [outlines, List.flatMap_map]
    rfl
  rw [hquads, hquads]
  exact h.outlines_perm.flatMap_right _

theorem mem_quads_iff : q ∈ g.quads ↔ q ∈ g'.quads := h.quads_perm.mem_iff

theorem quadOrder_perm : g.quadOrder.Perm g'.quadOrder := h.quads_perm.map _

theorem quadCount_eq : g.quadCount = g'.quadCount := h.quads_perm.length_eq

theorem blockIds_perm : g.blockIds.Perm g'.blockIds := by
  have hids : ∀ g : Graph, g.blockIds = g.outlines.map (·.1) := by
    intro g
    rw [outlines, List.map_map]
    rfl
  rw [hids, hids]
  exact h.outlines_perm.map _

theorem nodup_quadOrder (hd : g.quadOrder.Nodup) : g'.quadOrder.Nodup := h.quadOrder_perm.nodup_iff.1 hd

theorem nodup_blockIds (hb : g.blockIds.Nodup) : g'.blockIds.Nodup := h.blockIds_perm.nodup_iff.1 hb

theorem registers_eq : g.registers = g'.registers := by
  refine Std.ExtTreeSet.ext_mem fun r => ?_
  rw [mem_registers, mem_registers, h.method_eq]
  simp only [h.mem_quads_iff]

theorem predecessors_perm (b : BlockId) : (g.predecessors b).Perm (g'.predecessors b) := by
  have hpreds : ∀ g : Graph, g.predecessors b =
      (g.outlines.filter fun e => b ∈ e.2.successors).map (·.2.id) := by
    intro g
    rw [outlines, List.filter_map, List.map_map, predecessors]
    simp only [Block.outline, Function.comp_def, Multiset.mem_coe]
  rw [hpreds, hpreds]
  exact (h.outlines_perm.filter _).map _

theorem mem_mentioned (hx : x ∈ g.mentioned) : x ∈ g'.mentioned := by
  rw [Graph.mem_mentioned] at hx ⊢
  obtain ⟨⟨b, k⟩, hk, hx⟩ := hx
  obtain ⟨l, hl, he⟩ := h.exists_block hk
  obtain ⟨hid, -, hs, -⟩ := Block.outline_eq_iff.1 he
  exact ⟨(b, l), hl, hx.imp (·.trans hid.symm) hs.mem_iff.2⟩

/-- The graph with its edges in one order and the blocks in another removes the same quads. -/
theorem removeQuads (ids : List QuadId) : (g.removeQuads ids).Reordered (g'.removeQuads ids) := by
  have houtlines : ∀ g : Graph, (g.removeQuads ids).outlines = g.outlines.map fun e =>
      (e.1, { e.2 with quads := e.2.quads.filter (·.id ∉ ids) }) := by
    intro g
    simp only [outlines, Graph.removeQuads, List.map_map]
    rfl
  refine ⟨h.method_eq, ?_⟩
  rw [houtlines, houtlines]
  exact h.outlines_perm.map _

/-! ### Looking up -/

variable (hb : g.blockIds.Nodup)
include hb

theorem outline_block? (b : BlockId) : (g.block? b).map Block.outline = (g'.block? b).map Block.outline := by
  have hb' := h.nodup_blockIds hb
  have hlook : ∀ o, (g.block? b).map Block.outline = some o ↔ (g'.block? b).map Block.outline = some o := by
    intro o
    simp only [Option.map_eq_some_iff, block?, lookup_eq_some_iff hb, lookup_eq_some_iff hb']
    constructor
    · rintro ⟨k, hk, rfl⟩
      exact h.exists_block hk
    · rintro ⟨k, hk, rfl⟩
      exact h.symm.exists_block hk
  exact Option.ext hlook

theorem successors_perm (b : BlockId) : (g.successors b).Perm (g'.successors b) := by
  have hsucc : ∀ g : Graph, (g.successors b : Multiset BlockId) =
      (((g.block? b).map Block.outline).map (·.successors)).getD 0 := by
    intro g
    rw [successors]
    cases g.block? b with
    | none => rfl
    | some k => rfl
  rw [← Multiset.coe_eq_coe, hsucc, hsucc, h.outline_block? hb]

theorem fallthrough_eq (b : BlockId) : g.fallthrough b = g'.fallthrough b := by
  have hfall : ∀ g : Graph, g.fallthrough b = ((g.block? b).map Block.outline).bind (·.fallthrough) := by
    intro g
    rw [Option.bind_map]
    rfl
  rw [hfall, hfall, h.outline_block? hb]

theorem quads_block?_eq (b : BlockId) : (g.block? b).map (·.quads) = (g'.block? b).map (·.quads) := by
  have hquads : ∀ g : Graph, (g.block? b).map (·.quads) = ((g.block? b).map Block.outline).map (·.quads) := by
    intro g
    rw [Option.map_map]
    rfl
  rw [hquads, hquads, h.outline_block? hb]

theorem head?_block?_eq (b : BlockId) :
    (g.block? b).bind (·.quads.head?) = (g'.block? b).bind (·.quads.head?) := by
  have hhead := congrArg (Option.bind · List.head?) (h.quads_block?_eq hb b)
  simpa only [Option.bind_map, Function.comp_def] using hhead

theorem getLast?_block?_eq (b : BlockId) :
    (g.block? b).bind (·.quads.getLast?) = (g'.block? b).bind (·.quads.getLast?) := by
  have hlast := congrArg (Option.bind · List.getLast?) (h.quads_block?_eq hb b)
  simpa only [Option.bind_map, Function.comp_def] using hlast

theorem firstIn_eq (b : BlockId) : g.firstIn b = g'.firstIn b := by
  rw [firstIn, firstIn, h.head?_block?_eq hb]

theorem lastIn_eq (b : BlockId) : g.lastIn b = g'.lastIn b := by
  rw [lastIn, lastIn, h.getLast?_block?_eq hb]

theorem mem_flowSuccessors (hx : x ∈ g.flowSuccessors b) : x ∈ g'.flowSuccessors b := by
  rw [Graph.mem_flowSuccessors] at hx ⊢
  have hp := h.successors_perm hb b
  refine hx.imp hp.mem_iff.1 fun ⟨he, hx⟩ => ⟨?_, hx⟩
  rw [he] at hp
  exact hp.nil_eq.symm

/-! ### Neighbours -/

theorem mem_outgoing (hn : n ∈ g.outgoing g.mentioned b) : n ∈ g'.outgoing g'.mentioned b := by
  rw [outgoing, mem_collect (nodup_mentioned _), or_iff_right (by simp)] at hn ⊢
  obtain ⟨c, hc, hits⟩ := hn
  exact ⟨c, h.mem_flowSuccessors hb hc, hits.imp (fun _ _ => h.mem_flowSuccessors hb) (h.firstIn_eq hb)
    fun _ => h.mem_mentioned⟩

theorem mem_incoming (hn : n ∈ g.incoming g.mentioned b) : n ∈ g'.incoming g'.mentioned b := by
  rw [incoming, mem_collect (nodup_mentioned _), or_iff_right (by simp)] at hn ⊢
  obtain ⟨c, hc, hits⟩ := hn
  exact ⟨c, (h.predecessors_perm b).mem_iff.1 hc, hits.imp (fun b _ => (h.predecessors_perm b).mem_iff.1)
    (h.lastIn_eq hb) fun _ => h.mem_mentioned⟩

variable (hd : g.quadOrder.Nodup)
include hd

theorem mem_neighbours (hq : q ∈ g.quads) :
    (n ∈ g.quadEdges.successors q.id → n ∈ g'.quadEdges.successors q.id) ∧
      (n ∈ g.quadEdges.predecessors q.id → n ∈ g'.quadEdges.predecessors q.id) := by
  have hd' := h.nodup_quadOrder hd
  obtain ⟨⟨x, k⟩, hk, hqk⟩ := mem_quads.1 hq
  obtain ⟨l, hl, he⟩ := h.exists_block hk
  obtain ⟨hid, hquads, -, -⟩ := Block.outline_eq_iff.1 he
  constructor
  · rcases getLast?_or_adjacent hqk with hlast | ⟨b, hi⟩
    · rw [successors_last hd hk hlast, successors_last hd' hl (hquads ▸ hlast), hid]
      exact h.mem_outgoing hb
    · rw [successors_inner hd hk hi, successors_inner hd' hl (hquads ▸ hi)]
      exact id
  · rcases head?_or_adjacent hqk with hfirst | ⟨a, hi⟩
    · rw [predecessors_first hd hk hfirst, predecessors_first hd' hl (hquads ▸ hfirst), hid]
      exact h.mem_incoming hb
    · rw [predecessors_inner hd hk hi, predecessors_inner hd' hl (hquads ▸ hi)]
      exact id

theorem neighbours_perm (d : Direction) (hq : q ∈ g.quads) :
    (g.quadEdges.neighbours d q.id).Perm (g'.quadEdges.neighbours d q.id) := by
  have hb' := h.nodup_blockIds hb
  have hd' := h.nodup_quadOrder hd
  have hq' : q ∈ g'.quads := h.mem_quads_iff.1 hq
  obtain ⟨hs, hp⟩ := nodup_neighbours hd q.id
  obtain ⟨hs', hp'⟩ := nodup_neighbours hd' q.id
  cases d with
  | forward =>
    exact (List.perm_ext_iff_of_nodup hp hp').2 fun n =>
      ⟨(h.mem_neighbours hb hd hq).2, (h.symm.mem_neighbours hb' hd' hq').2⟩
  | backward =>
    exact (List.perm_ext_iff_of_nodup hs hs').2 fun n =>
      ⟨(h.mem_neighbours hb hd hq).1, (h.symm.mem_neighbours hb' hd' hq').1⟩

theorem lastQuads_perm (d : Direction) : (g.quadEdges.lastQuads d).Perm (g'.quadEdges.lastQuads d) := by
  have hlast : ∀ (g : Graph) (d : Direction), g.quadEdges.lastQuads d =
      g.quadOrder.filter (none ∈ g.quadEdges.neighbours (if d = .forward then .backward else .forward) ·) := by
    intro g d
    rw [← quadEdges_order]
    cases d <;> rfl
  rw [hlast, hlast]
  have hfilter : g.quadOrder.filter
      (none ∈ g.quadEdges.neighbours (if d = .forward then .backward else .forward) ·) =
        g.quadOrder.filter
          (none ∈ g'.quadEdges.neighbours (if d = .forward then .backward else .forward) ·) := by
    refine List.filter_congr fun id hid => ?_
    obtain ⟨q, hq, rfl⟩ := List.mem_map.1 hid
    rw [decide_eq_decide]
    exact (h.neighbours_perm hb hd _ hq).mem_iff
  rw [hfilter]
  exact h.quadOrder_perm.filter _

end Reordered

end Graph

end Dataflow
