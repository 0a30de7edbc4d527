import Mathlib.Data.List.Nodup
import Mathlib.Data.List.Pairwise
import Mathlib.Data.List.Perm.Subperm
import Mathlib.Data.Nat.ModEq
import Mathlib.Tactic.MkIffOfInductiveProp
import Dataflow.Graph.Basic

/-!
# Well-formed graphs

`Graph.WellFormed` is what every graph keeps that is built by the operations on graphs: numbers are not
used twice, `entry` and `exit` are there and hold no quads, edges lead between blocks of the graph but
not into `entry` or out of `exit`, and the fallthrough is the first edge. What it asks of one block is
`Block.Fits`. The operations keep it (`Built.wellFormed`).
-/

namespace Dataflow

/-- A block that may be stored under the number `b` beside the blocks `known`. -/
@[mk_iff]
structure Block.Fits (known : List BlockId) (b : BlockId) (k : Block) : Prop where
  id_eq : k.id = b
  quads_eq : b.isPseudo = true → k.quads = []
  known : ∀ s ∈ k.successors, s ∈ known
  ne_entry : ∀ s ∈ k.successors, s ≠ .entry
  exit_eq : b = .exit → k.successors = []
  nodup : k.successors.Nodup
  fallthrough_eq : k.fallthrough = k.successors.head?

namespace Block.Fits

variable {known known' : List BlockId} {b t : BlockId} {k : Block}

theorem mono (h : k.Fits known b) (hk : known ⊆ known') : k.Fits known' b :=
  { h with known := fun s hs => hk (h.known s hs) }

theorem empty (b : BlockId) : (Block.empty b).Fits known b := by
  constructor <;> simp [Block.empty]

theorem addSuccessor (h : k.Fits known b) (ht : t ∈ known) (hne : t ≠ .entry) (hb : b ≠ .exit) :
    (k.addSuccessor t).Fits known b := by
  have hmem : ∀ s, s ∈ (k.addSuccessor t).successors → s = t ∨ s ∈ k.successors := by
    intro s hs
    simp only [Block.addSuccessor] at hs
    split at hs
    · exact .inr hs
    · rw [List.mem_append, List.mem_singleton] at hs
      exact hs.symm
  refine ⟨h.id_eq, h.quads_eq, fun s hs => ?_, fun s hs => ?_, fun he => absurd he hb, ?_, ?_⟩
  · rcases hmem s hs with rfl | hs
    · exact ht
    · exact h.known s hs
  · rcases hmem s hs with rfl | hs
    · exact hne
    · exact h.ne_entry s hs
  · simp only [Block.addSuccessor]
    split
    · exact h.nodup
    · next hn =>
      rw [← List.concat_eq_append]
      exact h.nodup.concat hn
  · simp only [Block.addSuccessor, h.fallthrough_eq]
    cases hs : k.successors with
    | nil => simp
    | cons s ss =>
      split
      · rfl
      · rfl

theorem pushQuad {q : Quad} (h : k.Fits known b) (hb : b.isPseudo = false) :
    (k.pushQuad q).Fits known b :=
  { h with quads_eq := fun hp => by rw [hb] at hp; cases hp }

theorem removeQuads {ids : List QuadId} (h : k.Fits known b) : (k.removeQuads ids).Fits known b :=
  { h with
    quads_eq := fun hp => by
      show k.quads.filter _ = []
      rw [h.quads_eq hp]
      rfl }

end Block.Fits

instance (known : List BlockId) (b : BlockId) (k : Block) : Decidable (k.Fits known b) :=
  decidable_of_iff' _ (Block.fits_iff known b k)

namespace Graph

/-- The numbers of all blocks, in block order. -/
def blockIds (g : Graph) : List BlockId := g.blocks.map (·.1)

/-- The graph is one that the operations on graphs can build. -/
@[mk_iff]
structure WellFormed (g : Graph) : Prop where
  quads_nodup : g.quadOrder.Nodup
  blocks_nodup : g.blockIds.Nodup
  entry_mem : BlockId.entry ∈ g.blockIds
  exit_mem : BlockId.exit ∈ g.blockIds
  fits : ∀ e ∈ g.blocks, e.2.Fits g.blockIds e.1

instance (g : Graph) : Decidable g.WellFormed := decidable_of_iff' _ (wellFormed_iff g)

variable {g g' : Graph} {b : BlockId} {k : Block}

/-! ### Looking up -/

theorem lookup_eq_some_iff {l : List (BlockId × Block)} (hd : (l.map (·.1)).Nodup) :
    l.lookup b = some k ↔ (b, k) ∈ l := by
  induction l with
  | nil => simp
  | cons e l ih =>
    obtain ⟨b', k'⟩ := e
    rw [List.map_cons, List.nodup_cons] at hd
    rw [List.lookup_cons, List.mem_cons]
    by_cases he : b = b'
    · subst he
      have hn : (b, k) ∉ l := fun h => hd.1 (List.mem_map.2 ⟨(b, k), h, rfl⟩)
      simp [hn, eq_comm]
    · have hb : (b == b') = false := by simpa using he
      rw [hb, ih hd.2]
      simp [he]

theorem hasBlock_iff : g.hasBlock b = true ↔ b ∈ g.blockIds := by
  rw [hasBlock, block?, blockIds]
  induction g.blocks with
  | nil => simp
  | cons e l ih =>
    rw [List.lookup_cons, List.map_cons, List.mem_cons]
    by_cases he : b = e.1
    · simp [he]
    · have hb : (b == e.1) = false := by simpa using he
      rw [hb, ih]
      simp [he]

theorem quad?_isSome_iff {id : QuadId} : (g.quad? id).isSome = true ↔ id ∈ g.quadOrder := by
  simp [quad?, quadOrder]

theorem mem_quads {q : Quad} : q ∈ g.quads ↔ ∃ e ∈ g.blocks, q ∈ e.2.quads := List.mem_flatMap

/-- With distinct numbers, a quad is known by its number. -/
theorem eq_of_id_eq (hd : g.quadOrder.Nodup) {p q : Quad} (hp : p ∈ g.quads) (hq : q ∈ g.quads)
    (h : p.id = q.id) : p = q := List.inj_on_of_nodup_map hd hp hq h

/-- With distinct numbers, a quad stands in one block only. -/
theorem eq_of_mem_quads (hd : g.quadOrder.Nodup) {e e' : BlockId × Block} (he : e ∈ g.blocks)
    (he' : e' ∈ g.blocks) {q : Quad} (hq : q ∈ e.2.quads) (hq' : q ∈ e'.2.quads) : e = e' := by
  by_contra hne
  have hp := (List.nodup_flatMap.1 hd.of_map).2
  have : Std.Symm (Function.onFun List.Disjoint fun e : BlockId × Block => e.2.quads) :=
    ⟨fun _ _ h _ ha hb => h hb ha⟩
  exact hp.forall he he' hne hq hq'

namespace WellFormed

theorem block?_iff (h : g.WellFormed) : g.block? b = some k ↔ (b, k) ∈ g.blocks :=
  lookup_eq_some_iff h.blocks_nodup

theorem id_eq (h : g.WellFormed) (hk : (b, k) ∈ g.blocks) : k.id = b := (h.fits _ hk).id_eq

theorem block?_id (h : g.WellFormed) {e : BlockId × Block} (he : e ∈ g.blocks) :
    g.block? e.2.id = some e.2 := by
  rw [(h.fits e he).id_eq]
  exact h.block?_iff.2 he

end WellFormed

/-! ### Removing quads -/

theorem quads_removeQuads (ids : List QuadId) :
    (g.removeQuads ids).quads = g.quads.filter (·.id ∉ ids) := by
  simp only [quads, removeQuads, List.flatMap_map, List.filter_flatMap]
  rfl

@[simp] theorem removeQuads_nil : g.removeQuads [] = g := by
  simp [removeQuads, Block.removeQuads]

/-! ### What the operations do -/

theorem insertBlock_ok_iff : g.insertBlock b = .ok g' ↔
    b ∉ g.blockIds ∧ g' = { g with blocks := g.blocks ++ [(b, .empty b)] } := by
  rw [insertBlock, ← hasBlock_iff]
  cases g.hasBlock b with
  | true => simp
  | false => simp [eq_comm]

theorem addEdge_ok_iff {t : BlockId} : g.addEdge b t = .ok g' ↔ b ≠ .exit ∧ t ≠ .entry ∧
    t ∈ g.blockIds ∧ b ∈ g.blockIds ∧ g' = g.modifyBlock b (·.addSuccessor t) := by
  rw [addEdge, ← hasBlock_iff, ← hasBlock_iff]
  by_cases hb : b = .exit
  · simp [hb]
  · by_cases ht : t = .entry
    · simp [hb, ht]
    · cases g.hasBlock t with
      | false => simp [hb, ht]
      | true =>
        cases g.hasBlock b with
        | false => simp [hb, ht]
        | true => simp [hb, ht, eq_comm]

theorem pushQuad_ok_iff {q : Quad} : g.pushQuad b q = .ok g' ↔ b.isPseudo = false ∧
    q.id ∉ g.quadOrder ∧ b ∈ g.blockIds ∧ g' = g.modifyBlock b (·.pushQuad q) := by
  rw [pushQuad, ← hasBlock_iff, ← quad?_isSome_iff]
  cases b.isPseudo with
  | true => simp
  | false =>
    cases (g.quad? q.id).isSome with
    | true => simp
    | false =>
      cases g.hasBlock b with
      | false => simp
      | true => simp [eq_comm]

@[simp] theorem blockIds_modifyBlock (f : Block → Block) : (g.modifyBlock b f).blockIds = g.blockIds := by
  simp [blockIds, modifyBlock]

theorem mem_modifyBlock {f : Block → Block} {e : BlockId × Block} : e ∈ (g.modifyBlock b f).blocks ↔
    ∃ k, (e.1, k) ∈ g.blocks ∧ e.2 = if e.1 = b then f k else k := by
  constructor
  · intro h
    obtain ⟨⟨c, k⟩, hk, rfl⟩ := List.mem_map.1 h
    exact ⟨k, hk, rfl⟩
  · rintro ⟨k, hk, he⟩
    refine List.mem_map.2 ⟨(e.1, k), hk, ?_⟩
    exact Prod.ext rfl he.symm

/-- With distinct numbers, only the block itself is modified. -/
theorem blocks_modifyBlock {l₁ l₂ : List (BlockId × Block)} (hd : g.blockIds.Nodup)
    (hl : g.blocks = l₁ ++ (b, k) :: l₂) (f : Block → Block) :
    (g.modifyBlock b f).blocks = l₁ ++ (b, f k) :: l₂ := by
  rw [blockIds, hl, List.map_append, List.map_cons, List.nodup_append, List.nodup_cons] at hd
  obtain ⟨-, ⟨h₂, -⟩, h₁⟩ := hd
  have hrest : ∀ l : List (BlockId × Block), b ∉ l.map (·.1) →
      l.map (fun e => (e.1, if e.1 = b then f e.2 else e.2)) = l := by
    intro l hb
    refine (List.map_congr_left fun e he => ?_).trans (List.map_id l)
    have hne : e.1 ≠ b := fun h => hb (h ▸ List.mem_map_of_mem he)
    rw [if_neg hne]
    rfl
  show g.blocks.map (fun e => (e.1, if e.1 = b then f e.2 else e.2)) = _
  rw [hl, List.map_append, List.map_cons, hrest l₂ h₂,
    hrest l₁ fun hm => h₁ b hm b List.mem_cons_self rfl, if_pos rfl]

/-! ### The operations keep it -/

/-- While numbers are left, the one chosen for a new block is free. -/
theorem freeIndex_notMem (hl : g.blocks.length < blockLimit) :
    (⟨g.freeIndex⟩ : BlockId) ∉ g.blockIds := by
  let candidates := (List.range (g.blocks.length + 1)).map fun i => (g.nextBlock + i) % blockLimit
  have hdistinct : candidates.Nodup := by
    refine List.Nodup.map_on (fun i hi j hj he => ?_) List.nodup_range
    rw [List.mem_range] at hi hj
    have hij : i % blockLimit = j % blockLimit := Nat.ModEq.add_left_cancel' g.nextBlock he
    rwa [Nat.mod_eq_of_lt (by omega), Nat.mod_eq_of_lt (by omega)] at hij
  have he : g.freeIndex = (candidates.find? (!g.hasBlock ⟨·⟩)).getD g.nextBlock := rfl
  cases hfind : candidates.find? (!g.hasBlock ⟨·⟩) with
  | some i =>
    have hi := List.find?_some hfind
    rw [he, hfind, ← hasBlock_iff]
    simpa using hi
  | none =>
    -- the candidates would be more numbers than there are blocks
    have hsub : candidates.map BlockId.mk ⊆ g.blockIds := by
      intro c hc
      obtain ⟨i, hi, rfl⟩ := List.mem_map.1 hc
      have htaken := List.find?_eq_none.1 hfind i hi
      rw [← hasBlock_iff]
      simpa using htaken
    have hle := ((hdistinct.map fun i j h => BlockId.mk.inj h).subperm hsub).length_le
    simp only [candidates, blockIds, List.length_map, List.length_range] at hle
    omega

theorem quads_modifyBlock {f : Block → Block} (hf : ∀ l : Block, (f l).quads = l.quads) :
    (g.modifyBlock b f).quads = g.quads := by
  simp only [quads, modifyBlock, List.flatMap_map]
  refine List.flatMap_congr fun e _ => ?_
  split
  · exact hf e.2
  · rfl

/-- Appending a quad to a block puts it among the quads of the graph once. -/
theorem quads_pushQuad_perm (hd : g.blockIds.Nodup) (hk : (b, k) ∈ g.blocks) (q : Quad) :
    (g.modifyBlock b (·.pushQuad q)).quads.Perm (q :: g.quads) := by
  obtain ⟨l₁, l₂, hl⟩ := List.append_of_mem hk
  have hblocks := blocks_modifyBlock hd hl (·.pushQuad q)
  have hperm : ∀ before after : List Quad,
      (before ++ (k.quads ++ [q] ++ after)).Perm (q :: (before ++ (k.quads ++ after))) := by
    intro before after
    rw [List.append_assoc, List.singleton_append, ← List.append_assoc, ← List.append_assoc]
    exact List.perm_middle
  rw [quads, quads, hblocks, hl, List.flatMap_append, List.flatMap_append, List.flatMap_cons,
    List.flatMap_cons]
  exact hperm _ _

namespace WellFormed

theorem of_ofMethod (m : Method) : (ofMethod m).WellFormed := by
  refine ⟨.nil, ?_, ?_, ?_, ?_⟩
  · show List.Nodup [BlockId.entry, BlockId.exit]
    decide
  · exact .head _
  · exact .tail _ (.head _)
  · show ∀ e ∈ [(BlockId.entry, Block.empty .entry), (.exit, .empty .exit)],
      e.2.Fits [.entry, .exit] e.1
    decide

variable (h : g.WellFormed)
include h

theorem append_empty (hb : b ∉ g.blockIds) (n : Nat) :
    WellFormed { g with blocks := g.blocks ++ [(b, .empty b)], nextBlock := n } := by
  have hids : blockIds { g with blocks := g.blocks ++ [(b, .empty b)], nextBlock := n } =
      g.blockIds ++ [b] := by
    simp [blockIds]
  have hsub : g.blockIds ⊆ g.blockIds ++ [b] := List.subset_append_left _ _
  refine ⟨?_, ?_, ?_, ?_, fun e he => ?_⟩
  · have hq := h.quads_nodup
    simpa [quadOrder, quads, Block.empty] using hq
  · rw [hids]
    rw [← List.concat_eq_append]
    exact h.blocks_nodup.concat hb
  · rw [hids]
    exact hsub h.entry_mem
  · rw [hids]
    exact hsub h.exit_mem
  · rw [hids]
    rcases List.mem_append.1 he with he | he
    · exact (h.fits e he).mono hsub
    · rw [List.mem_singleton.1 he]
      exact .empty b

theorem addBlock (hl : g.blocks.length < blockLimit) : g.addBlock.2.WellFormed :=
  h.append_empty (freeIndex_notMem hl) _

theorem insertBlock (hg : g.insertBlock b = .ok g') : g'.WellFormed := by
  obtain ⟨hb, rfl⟩ := insertBlock_ok_iff.1 hg
  exact h.append_empty hb _

theorem of_blockIds_eq (hids : g'.blockIds = g.blockIds) (hq : g'.quadOrder.Nodup)
    (hf : ∀ e ∈ g'.blocks, e.2.Fits g.blockIds e.1) : g'.WellFormed := by
  refine ⟨hq, ?_, ?_, ?_, ?_⟩
  · rw [hids]
    exact h.blocks_nodup
  · rw [hids]
    exact h.entry_mem
  · rw [hids]
    exact h.exit_mem
  · rw [hids]
    exact hf

theorem modifyBlock {f : Block → Block} (hq : (g.modifyBlock b f).quadOrder.Nodup)
    (hf : ∀ k, (b, k) ∈ g.blocks → (f k).Fits g.blockIds b) : (g.modifyBlock b f).WellFormed := by
  refine h.of_blockIds_eq (blockIds_modifyBlock f) hq fun e he => ?_
  obtain ⟨k, hk, he⟩ := mem_modifyBlock.1 he
  rw [he]
  split
  · next hb =>
    rw [hb] at hk ⊢
    exact hf k hk
  · exact h.fits _ hk

theorem addEdge {t : BlockId} (hg : g.addEdge b t = .ok g') : g'.WellFormed := by
  obtain ⟨hexit, hentry, htarget, -, rfl⟩ := addEdge_ok_iff.1 hg
  refine h.modifyBlock ?_ fun k hk => (h.fits _ hk).addSuccessor htarget hentry hexit
  rw [quadOrder, quads_modifyBlock (fun l => (rfl : (l.addSuccessor t).quads = l.quads))]
  exact h.quads_nodup

theorem pushQuad {q : Quad} (hg : g.pushQuad b q = .ok g') : g'.WellFormed := by
  obtain ⟨hpseudo, hquad, hblock, rfl⟩ := pushQuad_ok_iff.1 hg
  refine h.modifyBlock ?_ fun k hk => (h.fits _ hk).pushQuad hpseudo
  obtain ⟨⟨_, k⟩, hk, rfl⟩ := List.mem_map.1 hblock
  rw [quadOrder, ((quads_pushQuad_perm h.blocks_nodup hk q).map _).nodup_iff, List.map_cons,
    List.nodup_cons]
  exact ⟨hquad, h.quads_nodup⟩

theorem removeQuads (ids : List QuadId) : (g.removeQuads ids).WellFormed := by
  have hids : (g.removeQuads ids).blockIds = g.blockIds := by
    simp [blockIds, Graph.removeQuads]
  refine h.of_blockIds_eq hids ?_ fun e he => ?_
  · rw [quadOrder, quads_removeQuads]
    exact h.quads_nodup.sublist (List.filter_sublist.map _)
  · obtain ⟨⟨y, l⟩, hl, rfl⟩ := List.mem_map.1 he
    exact (h.fits _ hl).removeQuads

end WellFormed

/-- The graphs that the operations build, as long as there are numbers for the blocks. -/
inductive Built : Graph → Prop
  | ofMethod (m : Method) : Built (ofMethod m)
  | addBlock {g : Graph} (h : Built g) (hl : g.blocks.length < blockLimit) : Built g.addBlock.2
  | insertBlock {g g' : Graph} {b : BlockId} (h : Built g) (hg : g.insertBlock b = .ok g') : Built g'
  | addEdge {g g' : Graph} {b t : BlockId} (h : Built g) (hg : g.addEdge b t = .ok g') : Built g'
  | pushQuad {g g' : Graph} {b : BlockId} {q : Quad} (h : Built g) (hg : g.pushQuad b q = .ok g') :
      Built g'
  | removeQuads {g : Graph} (h : Built g) (ids : List QuadId) : Built (g.removeQuads ids)

theorem Built.wellFormed (h : Built g) : g.WellFormed := by
  induction h with
  | ofMethod m => exact .of_ofMethod m
  | addBlock _ hl ih => exact ih.addBlock hl
  | insertBlock _ hg ih => exact ih.insertBlock hg
  | addEdge _ hg ih => exact ih.addEdge hg
  | pushQuad _ hg ih => exact ih.pushQuad hg
  | removeQuads _ ids ih => exact ih.removeQuads ids

end Graph

end Dataflow
