import Dataflow.Editing
import Dataflow.Proofs.Analysis.InPlace

/-!
# Graphs that come about by edits

`g.Reached`: some edits, which may fail, lead from a method without a body to `g`. In place or not, an operation does
the same (`on_addEdge` and its like, through `kept`), so such a graph is one that the operations build
(`Reached.built`), and it is well-formed. Read off through lookups, that is what everything else assumes of graphs.
-/

namespace Dataflow

namespace InPlace

variable {α : Type} {g : Graph}

/-! ### Operations in place -/

theorem on_refuseIf_bind (fault : Graph → Bool) (e : FlowError) (k : Unit → InPlace α) (g : Graph) :
    (refuseIf fault e >>= k).on g = if fault g then (.error e, g) else (k ()).on g := by
  have hget : (get : InPlace Graph).on g = (.ok g, g) := rfl
  rw [on_bind, refuseIf, on_bind_of_ok hget]
  cases fault g with
  | true => rfl
  | false => rfl

/-- What an operation answers and leaves in place, if it hands `r` on. -/
def kept (g : Graph) : (r : Except FlowError Graph) → Except FlowError Unit × Graph
  | .ok left => (.ok (), left)
  | .error e => (.error e, g)

theorem on_insertBlock (b : BlockId) (g : Graph) : (insertBlock b).on g = kept g (g.insertBlock b) := by
  rw [insertBlock, on_refuseIf_bind, Graph.insertBlock, apply_ite (kept g)]
  rfl

theorem on_pushQuad (b : BlockId) (q : Quad) (g : Graph) : (pushQuad b q).on g = kept g (g.pushQuad b q) := by
  simp only [pushQuad, on_refuseIf_bind, Graph.pushQuad, apply_ite (kept g)]
  rfl

/-- The two steps of an edge make up what `Block.addSuccessor` does. -/
theorem on_addEdge (source target : BlockId) (g : Graph) :
    (addEdge source target).on g = kept g (g.addEdge source target) := by
  have hwrite : (do
      modify (·.modifyBlock source (·.listSuccessor target))
      modify (·.modifyBlock source (·.fallInto target)) : InPlace Unit).on g =
      (.ok (), g.modifyBlock source (·.addSuccessor target)) := by
    show (Except.ok (), (g.modifyBlock source (·.listSuccessor target)).modifyBlock source
      (·.fallInto target)) = _
    simp only [Graph.modifyBlock, List.map_map]
    congr 3
    funext e
    by_cases he : e.1 = source
    · simp only [Function.comp_apply, he, ↓reduceIte]
      rfl
    · simp only [Function.comp_apply, he, ↓reduceIte]
  simp only [addEdge, on_refuseIf_bind, hwrite, Graph.addEdge, apply_ite (kept g), decide_eq_true_eq]
  rfl

theorem on_perform_removeQuads (ids : List QuadId) (g : Graph) :
    (Edit.perform (.removeQuads ids)).on g = (.ok (), g.removeQuads ids) := by
  simp only [Edit.perform, removeQuads]
  split
  · next hnil =>
    rw [List.isEmpty_iff.1 hnil, Graph.removeQuads_nil]
    rfl
  · rfl

/-! ### Edits -/

theorem on_perform_of_error {e : Edit} {err : FlowError} (h : (e.perform.on g).1 = .error err) :
    (e.perform.on g).2 = g := by
  have hkept : ∀ r, (kept g r).1 = .error err → (kept g r).2 = g := by
    intro r hr
    cases r with
    | ok left => cases hr
    | error e => rfl
  cases e with
  | addBlock => cases h
  | insertBlock b =>
    simp only [Edit.perform, on_insertBlock] at h ⊢
    exact hkept _ h
  | addEdge source target =>
    simp only [Edit.perform, on_addEdge] at h ⊢
    exact hkept _ h
  | pushQuad b q =>
    simp only [Edit.perform, on_pushQuad] at h ⊢
    exact hkept _ h
  | removeQuads ids =>
    rw [on_perform_removeQuads] at h
    cases h

end InPlace

namespace Graph

variable {g : Graph}

/-- The graphs that edits lead to, as long as there are numbers for the blocks. -/
inductive Reached : Graph → Prop
  | ofMethod (m : Method) : Reached (ofMethod m)
  | edit {g : Graph} (h : Reached g) (e : Edit) (hroom : e = .addBlock → g.blocks.length < blockLimit) :
      Reached (e.perform.on g).2

theorem Reached.built (h : g.Reached) : g.Built := by
  induction h with
  | ofMethod m => exact .ofMethod m
  | @edit g _ e hroom ih =>
    have hkept : ∀ r, (∀ left, r = .ok left → left.Built) → (InPlace.kept g r).2.Built := by
      intro r hr
      cases r with
      | ok left => exact hr left rfl
      | error e => exact ih
    cases e with
    | addBlock => exact ih.addBlock (hroom rfl)
    | insertBlock b =>
      simp only [Edit.perform, InPlace.on_insertBlock]
      exact hkept _ fun left hleft => ih.insertBlock hleft
    | addEdge source target =>
      simp only [Edit.perform, InPlace.on_addEdge]
      exact hkept _ fun left hleft => ih.addEdge hleft
    | pushQuad b q =>
      simp only [Edit.perform, InPlace.on_pushQuad]
      exact hkept _ fun left hleft => ih.pushQuad hleft
    | removeQuads ids =>
      rw [InPlace.on_perform_removeQuads]
      exact ih.removeQuads ids

/-! ### What lookups find -/

namespace WellFormed

variable {b : BlockId} (h : g.WellFormed)
include h

theorem fits_of_block? {k : Block} (hk : g.block? b = some k) : k.Fits g.blockIds b :=
  h.fits _ (h.block?_iff.1 hk)

/-- What lookups of `b` find is that of a block, where there is one, and of the empty block elsewhere. -/
theorem exists_fits (b : BlockId) :
    ∃ k : Block, k.Fits g.blockIds b ∧ g.successors b = k.successors ∧ g.fallthrough b = k.fallthrough := by
  cases hk : g.block? b with
  | some k =>
    refine ⟨k, h.fits_of_block? hk, ?_, ?_⟩
    · rw [successors, hk]
      rfl
    · rw [fallthrough, hk]
      rfl
  | none =>
    refine ⟨.empty b, .empty b, ?_, ?_⟩
    · rw [successors, hk]
      rfl
    · rw [fallthrough, hk]
      rfl

theorem exists_block?_of_pseudo (hb : b = .entry ∨ b = .exit) : ∃ k, g.block? b = some k ∧ k.quads = [] := by
  have hmem : b ∈ g.blockIds := by
    rcases hb with rfl | rfl
    · exact h.entry_mem
    · exact h.exit_mem
  obtain ⟨k, hk⟩ := Option.isSome_iff_exists.1 (hasBlock_iff.2 hmem)
  refine ⟨k, hk, (h.fits_of_block? hk).quads_eq ?_⟩
  rcases hb with rfl | rfl <;> rfl

/-- Numbers below a bound are used up only by as many blocks. -/
theorem length_le {n : Nat} (hids : ∀ b ∈ g.blockIds, b.index < n) : g.blocks.length ≤ n := by
  have hnodup : (g.blockIds.map (·.index)).Nodup :=
    h.blocks_nodup.map fun b b' hbb => by
      cases b
      cases b'
      exact congrArg BlockId.mk hbb
  have hsub : g.blockIds.map (·.index) ⊆ List.range n := by
    intro i hi
    obtain ⟨b, hb, rfl⟩ := List.mem_map.1 hi
    exact List.mem_range.2 (hids b hb)
  simpa [blockIds] using (hnodup.subperm hsub).length_le

end WellFormed

end Graph

/-! ### The result -/

/-- Edits keep a graph in shape, and one that fails changes nothing: numbers of quads are used once; `entry` and
`exit` are there and hold no quads; no edge leads into `entry` or out of `exit`; edges lead to blocks of the graph,
each once; the fallthrough is the first edge; a block is found under its own number. A new block gets a number that
was free. -/
theorem edits_keep_shape {g : Graph} (h : g.Reached) :
    (∀ e : Edit, ∀ err, (e.perform.on g).1 = .error err → (e.perform.on g).2 = g) ∧
    g.quadOrder.Nodup ∧
    (∀ b, b = .entry ∨ b = .exit → ∃ k, g.block? b = some k ∧ k.quads = []) ∧
    (∀ b, .entry ∉ g.successors b) ∧
    g.successors .exit = [] ∧
    (∀ b, ∀ s ∈ g.successors b, g.hasBlock s = true) ∧
    (∀ b, (g.successors b).Nodup) ∧
    (∀ b, g.fallthrough b = (g.successors b).head? ∧ (g.fallthrough b = none ↔ g.successors b = [])) ∧
    (∀ b k, (b, k) ∈ g.blocks → k.id = b ∧ g.block? b = some k) ∧
    ((∀ b ∈ g.blockIds, b.index < 2 ^ 32 - 1) →
      ∃ b left, InPlace.addBlock.on g = (.ok b, left) ∧ b ∉ g.blockIds) := by
  have hw := h.built.wellFormed
  refine ⟨fun e err he => InPlace.on_perform_of_error he, hw.quads_nodup,
    fun b hb => hw.exists_block?_of_pseudo hb, fun b hb => ?_, ?_, fun b s hs => ?_, fun b => ?_, fun b => ?_,
    fun b k hk => ⟨hw.id_eq hk, hw.block?_iff.2 hk⟩, fun hids => ?_⟩
  · obtain ⟨k, hk, hsucc, -⟩ := hw.exists_fits b
    exact hk.ne_entry _ (hsucc ▸ hb) rfl
  · obtain ⟨k, hk, hsucc, -⟩ := hw.exists_fits .exit
    rw [hsucc, hk.exit_eq rfl]
  · obtain ⟨k, hk, hsucc, -⟩ := hw.exists_fits b
    exact Graph.hasBlock_iff.2 (hk.known s (hsucc ▸ hs))
  · obtain ⟨k, hk, hsucc, -⟩ := hw.exists_fits b
    rw [hsucc]
    exact hk.nodup
  · obtain ⟨k, hk, hsucc, hfall⟩ := hw.exists_fits b
    rw [hsucc, hfall, hk.fallthrough_eq]
    exact ⟨rfl, List.head?_eq_none_iff⟩
  · have hlen := hw.length_le hids
    refine ⟨⟨g.freeIndex⟩, g.addBlock.2, rfl, Graph.freeIndex_notMem ?_⟩
    rw [Graph.blockLimit, UInt32.size]
    omega

/-- Block `2` was inserted, so that the next one got number `3`; the second quad with number `1` was refused. -/
def dodging : Graph := ⟨⟨"dodging", 0, true⟩,
  [(.entry, ⟨.entry, [], [⟨3⟩, ⟨2⟩], some ⟨3⟩⟩), (.exit, .empty .exit), (⟨2⟩, .empty ⟨2⟩),
   (⟨3⟩, ⟨⟨3⟩, [⟨1, .ret none⟩], [.exit], some .exit⟩)], 4⟩

theorem dodging_reached : dodging.Reached := by
  have h := (Graph.Reached.ofMethod ⟨"dodging", 0, true⟩).edit (.insertBlock ⟨2⟩) nofun
  replace h := h.edit .addBlock fun _ => by decide
  replace h := h.edit (.addEdge .entry ⟨3⟩) nofun
  replace h := h.edit (.addEdge .entry ⟨2⟩) nofun
  replace h := h.edit (.addEdge .entry ⟨3⟩) nofun
  replace h := h.edit (.addEdge ⟨3⟩ .exit) nofun
  replace h := h.edit (.addEdge .exit ⟨3⟩) nofun
  replace h := h.edit (.pushQuad ⟨3⟩ ⟨1, .ret none⟩) nofun
  replace h := h.edit (.pushQuad ⟨2⟩ ⟨1, .ret none⟩) nofun
  exact h

theorem dodging_shape : dodging.fallthrough .entry = (dodging.successors .entry).head? ∧
    (Edit.pushQuad ⟨2⟩ ⟨1, .ret none⟩).perform.on dodging =
      (.error (.malformedGraph (.duplicateQuad 1)), dodging) ∧
    ∃ b left, InPlace.addBlock.on dodging = (.ok b, left) ∧ b ∉ dodging.blockIds := by
  obtain ⟨hfails, -, -, -, -, -, -, hfall, -, hfresh⟩ := edits_keep_shape dodging_reached
  have herror : ((Edit.pushQuad ⟨2⟩ ⟨1, .ret none⟩).perform.on dodging).1 =
      .error (.malformedGraph (.duplicateQuad 1)) := rfl
  exact ⟨(hfall .entry).1, Prod.ext herror (hfails _ _ herror), hfresh (by decide)⟩

end Dataflow
