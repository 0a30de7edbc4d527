import Dataflow.Proofs.Graph.Chains
import Dataflow.Proofs.Source.Graphs

/-!
# The edges of jumps

A jump gives its block an edge to the target, wherever it stands in the block (`IsLowered.carries`). The
edges of quads are drawn from the edges of blocks, and flow leaves a block at its last quad only. So
the quad with the edge to the target is the last quad of the block, also where another one jumps.
-/

namespace Dataflow

namespace Graph

theorem not_adjacent_head {α : Type} {l : List α} {a b : α} (hd : l.Nodup) (hb : l.head? = some b) :
    ¬ [a, b] <:+: l := by
  obtain ⟨rest, rfl⟩ := List.head?_eq_some_iff.1 hb
  have hn : b ∉ rest := (List.nodup_cons.1 hd).1
  intro h
  rcases List.infix_cons_iff.1 h with h | h
  · exact hn ((List.cons_prefix_cons.1 h).2.subset List.mem_cons_self)
  · exact hn (h.subset (by simp))

namespace WellFormed

variable {g : Graph} {x t : BlockId} {k l : Block} {p first : Quad} (hw : g.WellFormed)
include hw

/-- The next quad of a block is the first of none. -/
theorem not_flows_head_of_adjacent {b : Quad} (hk : (x, k) ∈ g.blocks) (hi : [p, b] <:+: k.quads)
    (hl : (t, l) ∈ g.blocks) (hf : l.quads.head? = some first) : ¬ g.Flows p first := by
  intro h
  have hb : b ∈ k.quads := hi.subset (by simp)
  have hfirst : first ∈ l.quads := List.mem_of_head? hf
  rw [Flows, successors_inner hw.quads_nodup hk hi, List.mem_singleton, Option.some.injEq] at h
  obtain rfl : first = b :=
    eq_of_id_eq hw.quads_nodup (mem_quads.2 ⟨_, hl, hfirst⟩) (mem_quads.2 ⟨_, hk, hb⟩) h
  -- so `first` is in block `k` too, after `p`, and block `l` is the same block
  obtain ⟨rfl, rfl⟩ := Prod.mk.inj (eq_of_mem_quads hw.quads_nodup hk hl hb hfirst)
  have hd : k.quads.Nodup := .of_map _ (exists_addBlockEdges hw.quads_nodup hk).1
  exact not_adjacent_head hd hf hi

theorem flows_head_iff (hk : (x, k) ∈ g.blocks) (hp : p ∈ k.quads) (ht : t ∈ k.successors)
    (hl : (t, l) ∈ g.blocks) (hf : l.quads.head? = some first) :
    g.Flows p first ↔ k.quads.getLast? = some p := by
  constructor
  · intro h
    rcases getLast?_or_adjacent hp with hlast | ⟨b, hi⟩
    · exact hlast
    · exact absurd h (hw.not_flows_head_of_adjacent hk hi hl hf)
  · intro hlast
    have hfirst : first ∈ g.quads := mem_quads.2 ⟨_, hl, List.mem_of_head? hf⟩
    exact (hw.flows_last_iff hk hlast hfirst).2 ⟨t, ht, t, l, hl, hf, .refl⟩

theorem exits_iff_of_exit (hk : (x, k) ∈ g.blocks) (hp : p ∈ k.quads) (ht : .exit ∈ k.successors) :
    g.Exits p ↔ k.quads.getLast? = some p := by
  constructor
  · intro h
    rcases getLast?_or_adjacent hp with hlast | ⟨b, hi⟩
    · exact hlast
    · exact absurd h (not_exits_of_adjacent hw.quads_nodup hk hi)
  · intro hlast
    rw [← hw.successors_eq hk] at ht
    exact (hw.exits_last_iff hk hlast).2 (.inr ⟨.exit, ⟨.exit, ht, .refl⟩, .inl rfl⟩)

end WellFormed

end Graph

namespace Source

/-- In a block with a jump, the edge from a quad `p` to the first quad of the target, or out of the method
where the target is the exit, is there exactly for the last quad of the block. The jump itself has it if
nothing follows it in its block. -/
theorem jump_edge_iff_last {text : String} {gs : List Graph} (h : graphs text = .ok gs) {g : Graph}
    (hg : g ∈ gs) {x : BlockId} {k : Block} (hk : (x, k) ∈ g.blocks) {q : Quad} (hq : q ∈ k.quads)
    {t : BlockId} (ht : q.op.target? = some t) : ∀ p ∈ k.quads,
    (∀ l first, (t, l) ∈ g.blocks → l.quads.head? = some first →
      (some first.id ∈ g.quadEdges.successors p.id ↔ k.quads.getLast? = some p)) ∧
    (t = .exit → (none ∈ g.quadEdges.successors p.id ↔ k.quads.getLast? = some p)) := by
  have hlow : IsLowered g := isLowered_of_graphs h hg
  have htarget : t ∈ k.successors := (hlow.carries _ hk q hq).2.2 t ht
  intro p hp
  constructor
  · intro l first hl hf
    exact hlow.wellFormed.flows_head_iff hk hp htarget hl hf
  · rintro rfl
    exact hlow.wellFormed.exits_iff_of_exit hk hp htarget

/-- A branch with a quad after it in its block, and one that ends its block. -/
def early : Graph := ⟨⟨"early", 1, true⟩,
  [(.entry, ⟨.entry, [], [⟨2⟩], some ⟨2⟩⟩), (.exit, .empty .exit),
   (⟨2⟩, ⟨⟨2⟩, [⟨1, .ifCmp .eq (.reg "R0") .null ⟨4⟩⟩, ⟨2, .move "R1" (.int 5)⟩], [⟨3⟩, ⟨4⟩], some ⟨3⟩⟩),
   (⟨3⟩, ⟨⟨3⟩, [⟨3, .ifCmp .lt (.reg "R1") (.int 0) .exit⟩], [⟨4⟩, .exit], some ⟨4⟩⟩),
   (⟨4⟩, ⟨⟨4⟩, [⟨4, .ret (some (.reg "R0"))⟩], [.exit], some .exit⟩)], 2⟩

def earlyText : String :=
  "method early(1) static \x7b\n  entry -> bb2:\n  bb2 -> bb3:\n    1: IFCMP_EQ R0, null, bb4\n" ++
  "    2: MOVE R1, 5\n  bb3 -> bb4:\n    3: IFCMP_LT R1, 0, exit\n  bb4 -> exit:\n    4: RETURN R0\n\x7d\n"

theorem graphs_earlyText : graphs earlyText = .ok [early] := by
  decide +kernel

/-- The edge of the first branch is that of the quad after it. The second branch has its own. -/
theorem early_edges : some 4 ∉ early.quadEdges.successors 1 ∧ some 4 ∈ early.quadEdges.successors 2 ∧
    none ∈ early.quadEdges.successors 3 := by
  have hfirst := jump_edge_iff_last graphs_earlyText (.head _) (.tail _ (.tail _ (.head _))) (.head _) rfl
  have hsecond := jump_edge_iff_last graphs_earlyText (.head _) (.tail _ (.tail _ (.tail _ (.head _))))
    (.head _) rfl
  have htarget : (⟨4⟩, ⟨⟨4⟩, [⟨4, .ret (some (.reg "R0"))⟩], [.exit], some .exit⟩) ∈ early.blocks := by
    decide
  refine ⟨?_, ?_, ?_⟩
  · rw [(hfirst _ (.head _)).1 _ _ htarget rfl]
    decide
  · exact ((hfirst _ (.tail _ (.head _))).1 _ _ htarget rfl).2 rfl
  · exact ((hsecond _ (.head _)).2 rfl).2 rfl

theorem early_jump_without_edge : graphs earlyText = .ok [early] ∧ ∃ k l q first,
    (⟨2⟩, k) ∈ early.blocks ∧ q ∈ k.quads ∧ q.op.target? = some ⟨4⟩ ∧
    (⟨4⟩, l) ∈ early.blocks ∧ l.quads.head? = some first ∧
    some first.id ∉ early.quadEdges.successors q.id := by
  have hs : early.quadEdges.successors 1 = [some 2] := by decide +kernel
  refine ⟨graphs_earlyText, _, _, ⟨1, .ifCmp .eq (.reg "R0") .null ⟨4⟩⟩, ⟨4, .ret (some (.reg "R0"))⟩,
    .tail _ (.tail _ (.head _)), .head _, rfl, .tail _ (.tail _ (.tail _ (.tail _ (.head _)))), rfl, ?_⟩
  rw [hs]
  decide

end Source

end Dataflow
