import Mathlib.Data.List.Chain
import Dataflow.Graph.Edges

/-!
# Paths from quad to quad

A path follows the flow between quads, wherever it begins. `FromEntry` is a path that begins where flow
enters the method; such paths are grown at their end (`fromEntry_concat_concat`), since what a forward
analysis knows at a quad comes from the quad before it.
-/

namespace Dataflow

theorem isChain_concat_concat {α : Type} {R : α → α → Prop} {l : List α} {a b : α} :
    (l ++ [a] ++ [b]).IsChain R ↔ (l ++ [a]).IsChain R ∧ R a b := by
  rw [List.append_assoc, List.singleton_append, List.isChain_append_cons_cons]
  simp

namespace Graph

variable {g : Graph} {path : List Quad} {a b q : Quad}

/-- Flow may pass from `a` straight to `b`. -/
def Flows (g : Graph) (a b : Quad) : Prop := some b.id ∈ g.quadEdges.successors a.id

/-- Flow may enter the method at `q`. -/
def Enters (g : Graph) (q : Quad) : Prop := none ∈ g.quadEdges.predecessors q.id

/-- Flow may leave the method after `q`. -/
def Exits (g : Graph) (q : Quad) : Prop := none ∈ g.quadEdges.successors q.id

/-- A sequence of quads along the flow. -/
structure IsPath (g : Graph) (path : List Quad) : Prop where
  mem : ∀ q ∈ path, q ∈ g.quads
  flows : path.IsChain g.Flows

/-- A path that begins where flow enters the method. -/
structure FromEntry (g : Graph) (path : List Quad) : Prop extends IsPath g path where
  enters : ∀ q ∈ path.head?, g.Enters q

theorem IsPath.head (h : g.IsPath (q :: path)) : q ∈ g.quads := h.mem q List.mem_cons_self

theorem IsPath.tail (h : g.IsPath (q :: path)) : g.IsPath path :=
  ⟨fun x hx => h.mem x (List.mem_cons_of_mem q hx), h.flows.tail⟩

theorem IsPath.part {part : List Quad} (h : g.IsPath path) (hpart : part <:+: path) : g.IsPath part :=
  ⟨fun x hx => h.mem x (hpart.subset hx), List.IsChain.infix h.flows hpart⟩

theorem fromEntry_singleton : g.FromEntry [q] ↔ q ∈ g.quads ∧ g.Enters q := by
  constructor
  · intro h
    exact ⟨h.mem q List.mem_cons_self, h.enters q rfl⟩
  · rintro ⟨hq, he⟩
    refine ⟨⟨fun x hx => ?_, .singleton q⟩, fun x hx => ?_⟩
    · rw [List.mem_singleton.1 hx]
      exact hq
    · rw [← Option.some.inj hx]
      exact he

theorem fromEntry_concat_concat : g.FromEntry (path ++ [a] ++ [b]) ↔
    g.FromEntry (path ++ [a]) ∧ b ∈ g.quads ∧ g.Flows a b := by
  have hh : (path ++ [a] ++ [b]).head? = (path ++ [a]).head? := by
    rw [List.head?_append_of_ne_nil]
    simp
  constructor
  · rintro ⟨⟨hm, hc⟩, he⟩
    obtain ⟨hc, hf⟩ := isChain_concat_concat.1 hc
    rw [hh] at he
    exact ⟨⟨⟨fun q hq => hm q (List.mem_append_left _ hq), hc⟩, he⟩, hm b (by simp), hf⟩
  · rintro ⟨⟨⟨hm, hc⟩, he⟩, hb, hf⟩
    refine ⟨⟨fun q hq => ?_, isChain_concat_concat.2 ⟨hc, hf⟩⟩, fun q hq => he q (hh ▸ hq)⟩
    rcases List.mem_append.1 hq with hq | hq
    · exact hm q hq
    · rw [List.mem_singleton.1 hq]
      exact hb

end Graph

end Dataflow
