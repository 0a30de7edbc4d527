import Dataflow.Proofs.Graph.Paths
import Dataflow.Proofs.Graph.Search

/-!
# Neighbours of quads

Where each neighbour list comes from: a quad inside a block has the quads beside it as its only
neighbours, and the first and the last quad of a block have what the searches through blocks without
quads find. `Graph.Next` says the same without lists, and both directions of the lists agree with it
(`flows_iff_next`, `mem_predecessors_iff_next`), so flow to a quad is flow from its predecessors.
-/

namespace Dataflow

/-! ### Inside a block -/

/-- In a list an element is the last one or has one after it. -/
theorem getLast?_or_adjacent {α : Type} {l : List α} {a : α} (h : a ∈ l) :
    l.getLast? = some a ∨ ∃ b, [a, b] <:+: l := by
  obtain ⟨s, t, rfl⟩ := List.append_of_mem h
  cases t with
  | nil => exact .inl (by simp)
  | cons b t => exact .inr ⟨b, s, t, by simp⟩

/-- In a list an element is the first one or has one before it. -/
theorem head?_or_adjacent {α : Type} {l : List α} {b : α} (h : b ∈ l) :
    l.head? = some b ∨ ∃ a, [a, b] <:+: l := by
  obtain ⟨s, t, rfl⟩ := List.append_of_mem h
  rcases List.eq_nil_or_concat s with rfl | ⟨s, a, rfl⟩
  · exact .inl (by simp)
  · exact .inr ⟨a, s, t, by simp⟩

theorem exists_ends {α : Type} {l : List α} {a : α} (h : a ∈ l) :
    ∃ first last, l.head? = some first ∧ l.getLast? = some last := by
  cases l with
  | nil => cases h
  | cons first l => exact ⟨first, _, rfl, List.getLast?_cons⟩

namespace QuadEdges

variable {e : QuadEdges} {a b x : QuadId} {ids : List QuadId}

theorem link_succs_of_notMem (h : x ∉ ids.dropLast) : (e.link ids).succs[x]? = e.succs[x]? := by
  induction ids generalizing e with
  | nil => rfl
  | cons a ids ih =>
    cases ids with
    | nil => rfl
    | cons b ids =>
      rw [List.dropLast_cons_cons, List.mem_cons, not_or] at h
      rw [link, ih h.2, Std.ExtTreeMap.getElem?_insert]
      simp [Ne.symm h.1]

theorem link_preds_of_notMem (h : x ∉ ids.tail) : (e.link ids).preds[x]? = e.preds[x]? := by
  induction ids generalizing e with
  | nil => rfl
  | cons a ids ih =>
    cases ids with
    | nil => rfl
    | cons b ids =>
      rw [List.tail_cons, List.mem_cons, not_or] at h
      rw [link, ih h.2, Std.ExtTreeMap.getElem?_insert]
      simp [Ne.symm h.1]

theorem link_succs_of_adjacent (hd : ids.Nodup) (h : [a, b] <:+: ids) :
    (e.link ids).succs[a]? = some [some b] := by
  induction ids generalizing e with
  | nil => simp at h
  | cons c ids ih =>
    obtain ⟨hc, hd⟩ := List.nodup_cons.1 hd
    rcases List.infix_cons_iff.1 h with h | h
    · obtain ⟨t, ht⟩ := h
      simp only [List.cons_append, List.nil_append, List.cons.injEq] at ht
      obtain ⟨rfl, rfl⟩ := ht
      rw [link, link_succs_of_notMem fun hm => hc (List.dropLast_subset _ hm)]
      simp
    · cases ids with
      | nil => simp at h
      | cons d ids => exact ih hd h

theorem link_preds_of_adjacent (hd : ids.Nodup) (h : [a, b] <:+: ids) :
    (e.link ids).preds[b]? = some [some a] := by
  induction ids generalizing e with
  | nil => simp at h
  | cons c ids ih =>
    have hd' : ids.Nodup := (List.nodup_cons.1 hd).2
    rcases List.infix_cons_iff.1 h with h | h
    · obtain ⟨t, ht⟩ := h
      simp only [List.cons_append, List.nil_append, List.cons.injEq] at ht
      obtain ⟨rfl, rfl⟩ := ht
      rw [link, link_preds_of_notMem (List.nodup_cons.1 hd').1]
      simp
    · cases ids with
      | nil => simp at h
      | cons d ids => exact ih hd' h

@[simp] theorem link_order (ids : List QuadId) : (e.link ids).order = e.order := by
  induction ids generalizing e with
  | nil => rfl
  | cons a ids ih =>
    cases ids with
    | nil => rfl
    | cons b ids =>
      rw [link, ih]

end QuadEdges

namespace Graph

variable {g : Graph} {within : List BlockId} {e : QuadEdges} {k : Block} {a b q : Quad} {x : QuadId}

/-! ### The edges of one block -/

theorem addBlockEdges_succs_of_notMem (h : x ∉ k.quads.map (·.id)) :
    (g.addBlockEdges within e k).succs[x]? = e.succs[x]? := by
  rw [addBlockEdges]
  split
  · next first last hf hl =>
    have hne : last.id ≠ x := by
      rintro rfl
      exact h (List.mem_map_of_mem (List.mem_of_getLast? hl))
    rw [QuadEdges.link_succs_of_notMem fun hm => h (List.dropLast_subset _ hm),
      Std.ExtTreeMap.getElem?_insert]
    simp [hne]
  · rfl

theorem addBlockEdges_preds_of_notMem (h : x ∉ k.quads.map (·.id)) :
    (g.addBlockEdges within e k).preds[x]? = e.preds[x]? := by
  rw [addBlockEdges]
  split
  · next first last hf hl =>
    have hne : first.id ≠ x := by
      rintro rfl
      exact h (List.mem_map_of_mem (List.mem_of_head? hf))
    rw [QuadEdges.link_preds_of_notMem fun hm => h (List.mem_of_mem_tail hm),
      Std.ExtTreeMap.getElem?_insert]
    simp [hne]
  · rfl

theorem addBlockEdges_succs_last (hd : (k.quads.map (·.id)).Nodup) (h : k.quads.getLast? = some q) :
    (g.addBlockEdges within e k).succs[q.id]? = some (g.outgoing within k.id) := by
  obtain ⟨s, hs⟩ := List.getLast?_eq_some_iff.1 h
  have hn : q.id ∉ (k.quads.map (·.id)).dropLast := by
    rw [hs, List.map_append, List.nodup_append] at hd
    rw [hs, List.map_append]
    simpa using fun x hx he => hd.2.2 x.id (List.mem_map_of_mem hx) q.id (by simp) he
  obtain ⟨first, last, hf, hl⟩ := exists_ends (List.mem_of_getLast? h)
  obtain rfl : last = q := Option.some.inj (hl.symm.trans h)
  simp only [addBlockEdges, hf, hl]
  rw [QuadEdges.link_succs_of_notMem hn, Std.ExtTreeMap.getElem?_insert_self]

theorem addBlockEdges_preds_first (hd : (k.quads.map (·.id)).Nodup) (h : k.quads.head? = some q) :
    (g.addBlockEdges within e k).preds[q.id]? = some (g.incoming within k.id) := by
  obtain ⟨s, hs⟩ := List.head?_eq_some_iff.1 h
  have hn : q.id ∉ (k.quads.map (·.id)).tail := by
    rw [hs, List.map_cons, List.nodup_cons] at hd
    rw [hs]
    exact hd.1
  obtain ⟨first, last, hf, hl⟩ := exists_ends (List.mem_of_head? h)
  obtain rfl : first = q := Option.some.inj (hf.symm.trans h)
  simp only [addBlockEdges, hf, hl]
  rw [QuadEdges.link_preds_of_notMem hn, Std.ExtTreeMap.getElem?_insert_self]

theorem addBlockEdges_of_adjacent (hd : (k.quads.map (·.id)).Nodup) (h : [a, b] <:+: k.quads) :
    (g.addBlockEdges within e k).succs[a.id]? = some [some b.id] ∧
      (g.addBlockEdges within e k).preds[b.id]? = some [some a.id] := by
  have hi : [a.id, b.id] <:+: k.quads.map (·.id) := h.map Quad.id
  obtain ⟨first, last, hf, hl⟩ := exists_ends (h.subset (List.mem_cons_self (a := a)))
  simp only [addBlockEdges, hf, hl]
  exact ⟨QuadEdges.link_succs_of_adjacent hd hi, QuadEdges.link_preds_of_adjacent hd hi⟩

/-! ### The edges of all blocks -/

theorem foldl_addBlockEdges_of_notMem {ks : List Block} (h : ∀ k ∈ ks, x ∉ k.quads.map (·.id)) :
    (ks.foldl (g.addBlockEdges within) e).succs[x]? = e.succs[x]? ∧
      (ks.foldl (g.addBlockEdges within) e).preds[x]? = e.preds[x]? := by
  induction ks generalizing e with
  | nil => exact ⟨rfl, rfl⟩
  | cons k ks ih =>
    have hk := h k List.mem_cons_self
    rw [List.foldl_cons, (ih fun l hl => h l (List.mem_cons_of_mem k hl)).1,
      (ih fun l hl => h l (List.mem_cons_of_mem k hl)).2]
    exact ⟨addBlockEdges_succs_of_notMem hk, addBlockEdges_preds_of_notMem hk⟩

/-- The neighbours of the quads of a block are those that were added with that block. -/
theorem exists_addBlockEdges (hd : g.quadOrder.Nodup) {y : BlockId} (hk : (y, k) ∈ g.blocks) :
    (k.quads.map (·.id)).Nodup ∧ ∃ e, ∀ q ∈ k.quads,
      g.quadEdges.succs[q.id]? = (g.addBlockEdges g.mentioned e k).succs[q.id]? ∧
      g.quadEdges.preds[q.id]? = (g.addBlockEdges g.mentioned e k).preds[q.id]? := by
  obtain ⟨l₁, l₂, hl⟩ := List.append_of_mem hk
  rw [quadOrder, quads, hl, List.flatMap_append, List.flatMap_cons, List.map_append, List.map_append,
    List.nodup_append, List.nodup_append] at hd
  obtain ⟨-, ⟨hdk, -, hlater⟩, -⟩ := hd
  refine ⟨hdk, (l₁.map (·.2)).foldl (g.addBlockEdges g.mentioned) .empty, fun q hq => ?_⟩
  have hnew : ∀ l ∈ l₂.map (·.2), q.id ∉ l.quads.map (·.id) := by
    intro l hl hm
    obtain ⟨entry, he, rfl⟩ := List.mem_map.1 hl
    obtain ⟨p, hp, hpq⟩ := List.mem_map.1 hm
    exact hlater q.id (List.mem_map_of_mem hq) p.id
      (List.mem_map_of_mem (List.mem_flatMap.2 ⟨entry, he, hp⟩)) hpq.symm
  have heq : g.quadEdges = (l₂.map (·.2)).foldl (g.addBlockEdges g.mentioned)
      (g.addBlockEdges g.mentioned ((l₁.map (·.2)).foldl (g.addBlockEdges g.mentioned) .empty) k) := by
    simp only [quadEdges]
    rw [hl, List.map_append, List.map_cons, List.foldl_append, List.foldl_cons]
  rw [heq]
  exact foldl_addBlockEdges_of_notMem hnew

section

variable (hd : g.quadOrder.Nodup) {y : BlockId} (hk : (y, k) ∈ g.blocks)
include hd hk

theorem successors_last (h : k.quads.getLast? = some q) :
    g.quadEdges.successors q.id = g.outgoing g.mentioned k.id := by
  obtain ⟨hdk, e, he⟩ := exists_addBlockEdges hd hk
  rw [QuadEdges.successors, (he q (List.mem_of_getLast? h)).1, addBlockEdges_succs_last hdk h]
  rfl

theorem predecessors_first (h : k.quads.head? = some q) :
    g.quadEdges.predecessors q.id = g.incoming g.mentioned k.id := by
  obtain ⟨hdk, e, he⟩ := exists_addBlockEdges hd hk
  rw [QuadEdges.predecessors, (he q (List.mem_of_head? h)).2, addBlockEdges_preds_first hdk h]
  rfl

theorem successors_inner (h : [a, b] <:+: k.quads) : g.quadEdges.successors a.id = [some b.id] := by
  obtain ⟨hdk, e, he⟩ := exists_addBlockEdges hd hk
  rw [QuadEdges.successors, (he a (h.subset (by simp))).1, (addBlockEdges_of_adjacent hdk h).1]
  rfl

theorem predecessors_inner (h : [a, b] <:+: k.quads) : g.quadEdges.predecessors b.id = [some a.id] := by
  obtain ⟨hdk, e, he⟩ := exists_addBlockEdges hd hk
  rw [QuadEdges.predecessors, (he b (h.subset (by simp))).2, (addBlockEdges_of_adjacent hdk h).2]
  rfl

end

/-! ### Only quads of the graph are neighbours -/

theorem addBlockEdges_order : (g.addBlockEdges within e k).order = e.order ++ k.quads.map (·.id) := by
  rw [addBlockEdges]
  split
  · rw [QuadEdges.link_order]
  · next h =>
    cases hk : k.quads with
    | nil => simp
    | cons first quads =>
      rw [hk] at h
      exact absurd List.getLast?_cons (h _ _ rfl)

theorem quadEdges_order (g : Graph) : g.quadEdges.order = g.quadOrder := by
  have hfold : ∀ (ks : List Block) (e : QuadEdges),
      (ks.foldl (g.addBlockEdges g.mentioned) e).order =
        e.order ++ ks.flatMap fun k => k.quads.map (·.id) := by
    intro ks
    induction ks with
    | nil => simp
    | cons k ks ih =>
      intro e
      rw [List.foldl_cons, ih, addBlockEdges_order, List.flatMap_cons, List.append_assoc]
  rw [quadEdges, hfold, quadOrder, quads, List.map_flatMap, List.flatMap_map]
  rfl

theorem mem_quads_of_block? {x : BlockId} (hk : g.block? x = some k) (hq : q ∈ k.quads) : q ∈ g.quads := by
  obtain ⟨l₁, l₂, hl, -⟩ := List.lookup_eq_some_iff.1 hk
  exact mem_quads.2 ⟨(x, k), by rw [hl]; simp, hq⟩

theorem exists_quad_of_mem_successors (hd : g.quadOrder.Nodup) (hq : q ∈ g.quads) {id : QuadId}
    (h : some id ∈ g.quadEdges.successors q.id) : ∃ b ∈ g.quads, b.id = id := by
  obtain ⟨⟨x, k⟩, hk, hqk⟩ := mem_quads.1 hq
  rcases getLast?_or_adjacent hqk with hl | ⟨b, hi⟩
  · rw [successors_last hd hk hl, outgoing, mem_collect g.nodup_mentioned] at h
    obtain h | ⟨v, -, h⟩ := h
    · cases h
    obtain ⟨c, hc⟩ := h.exists_stop
    obtain ⟨-, l, b, hl, hb, hid⟩ := firstIn_eq_some_some.1 hc
    exact ⟨b, mem_quads_of_block? hl (List.mem_of_head? hb), hid⟩
  · rw [successors_inner hd hk hi, List.mem_singleton, Option.some.injEq] at h
    exact ⟨b, mem_quads.2 ⟨_, hk, hi.subset (by simp)⟩, h.symm⟩

theorem exists_quad_of_mem_predecessors (hd : g.quadOrder.Nodup) (hq : q ∈ g.quads) {id : QuadId}
    (h : some id ∈ g.quadEdges.predecessors q.id) : ∃ a ∈ g.quads, a.id = id := by
  obtain ⟨⟨x, k⟩, hk, hqk⟩ := mem_quads.1 hq
  rcases head?_or_adjacent hqk with hf | ⟨a, hi⟩
  · rw [predecessors_first hd hk hf, incoming, mem_collect g.nodup_mentioned] at h
    obtain h | ⟨v, -, h⟩ := h
    · cases h
    obtain ⟨c, hc⟩ := h.exists_stop
    obtain ⟨-, l, a, hl, ha, hid⟩ := lastIn_eq_some_some.1 hc
    exact ⟨a, mem_quads_of_block? hl (List.mem_of_getLast? ha), hid⟩
  · rw [predecessors_inner hd hk hi, List.mem_singleton, Option.some.injEq] at h
    exact ⟨a, mem_quads.2 ⟨_, hk, hi.subset (by simp)⟩, h.symm⟩

/-! ### Both directions agree -/

/-- Flow that arrives at block `v` meets `q` as its first quad. -/
def Meets (g : Graph) (v : BlockId) (q : Quad) : Prop :=
  ∃ y l, (y, l) ∈ g.blocks ∧ l.quads.head? = some q ∧ g.Leads v y

/-- `b` comes next after `a`: in the same block, or as the first quad that flow meets after the block
that `a` ends. -/
inductive Next (g : Graph) (a b : Quad) : Prop
  | inner {x : BlockId} {k : Block} (hk : (x, k) ∈ g.blocks) (h : [a, b] <:+: k.quads)
  | across {x v : BlockId} {k : Block} (hk : (x, k) ∈ g.blocks) (ha : k.quads.getLast? = some a)
      (hv : v ∈ k.successors) (hb : g.Meets v b)

namespace WellFormed

variable (hw : g.WellFormed)
include hw

theorem mem_successors_id {x v : BlockId} (hk : (x, k) ∈ g.blocks) :
    v ∈ g.successors k.id ↔ v ∈ k.successors := by
  rw [mem_successors_iff, hw.block?_id hk]
  simp

theorem ne_pseudo {x : BlockId} (hk : (x, k) ∈ g.blocks) (hq : q ∈ k.quads) : x.isPseudo = false := by
  cases hp : x.isPseudo with
  | false => rfl
  | true =>
    rw [(hw.fits _ hk).quads_eq hp] at hq
    cases hq

theorem firstIn_eq {x : BlockId} (hk : (x, k) ∈ g.blocks) (hq : k.quads.head? = some q) :
    g.firstIn x = some (some q.id) := by
  have hx := hw.ne_pseudo hk (List.mem_of_head? hq)
  refine firstIn_eq_some_some.2 ⟨?_, k, q, hw.block?_iff.2 hk, hq, rfl⟩
  rintro rfl
  cases hx

theorem lastIn_eq {x : BlockId} (hk : (x, k) ∈ g.blocks) (hq : k.quads.getLast? = some q) :
    g.lastIn x = some (some q.id) := by
  have hx := hw.ne_pseudo hk (List.mem_of_getLast? hq)
  refine lastIn_eq_some_some.2 ⟨?_, k, q, hw.block?_iff.2 hk, hq, rfl⟩
  rintro rfl
  cases hx

/-- Flow out of the last quad of a block goes to what it meets after one of the edges. -/
theorem flows_last_iff {x : BlockId} (hk : (x, k) ∈ g.blocks) (ha : k.quads.getLast? = some a)
    (hb : b ∈ g.quads) : g.Flows a b ↔ ∃ v ∈ k.successors, g.Meets v b := by
  rw [Flows, successors_last hw.quads_nodup hk ha, hw.mem_outgoing]
  constructor
  · rintro ⟨v, y, hv, hvy, hy⟩
    obtain ⟨-, l, q, hlk, hq, hid⟩ := firstIn_eq_some_some.1 hy
    have hl := hw.block?_iff.1 hlk
    obtain rfl : q = b :=
      eq_of_id_eq hw.quads_nodup (mem_quads.2 ⟨_, hl, List.mem_of_head? hq⟩) hb hid
    exact ⟨v, (hw.mem_successors_id hk).1 hv, y, l, hl, hq, hvy⟩
  · rintro ⟨v, hv, y, l, hl, hq, hvy⟩
    exact ⟨v, y, (hw.mem_successors_id hk).2 hv, hvy, hw.firstIn_eq hl hq⟩

theorem flows_iff_next (ha : a ∈ g.quads) (hb : b ∈ g.quads) : g.Flows a b ↔ g.Next a b := by
  constructor
  · intro h
    obtain ⟨⟨x, k⟩, hk, hak⟩ := mem_quads.1 ha
    rcases getLast?_or_adjacent hak with hl | ⟨c, hi⟩
    · obtain ⟨v, hv, hm⟩ := (hw.flows_last_iff hk hl hb).1 h
      exact .across hk hl hv hm
    · rw [Flows, successors_inner hw.quads_nodup hk hi, List.mem_singleton, Option.some.injEq] at h
      obtain rfl : b = c :=
        eq_of_id_eq hw.quads_nodup hb (mem_quads.2 ⟨_, hk, hi.subset (by simp)⟩) h
      exact .inner hk hi
  · intro h
    cases h with
    | inner hk hi =>
      rw [Flows, successors_inner hw.quads_nodup hk hi]
      exact List.mem_singleton_self _
    | across hk ha hv hm => exact (hw.flows_last_iff hk ha hb).2 ⟨_, hv, hm⟩

theorem mem_predecessors_iff_next (ha : a ∈ g.quads) (hb : b ∈ g.quads) :
    some a.id ∈ g.quadEdges.predecessors b.id ↔ g.Next a b := by
  constructor
  · intro h
    obtain ⟨⟨y, l⟩, hl, hbl⟩ := mem_quads.1 hb
    rcases head?_or_adjacent hbl with hf | ⟨c, hi⟩
    · rw [predecessors_first hw.quads_nodup hl hf, hw.mem_incoming] at h
      obtain ⟨x, v, hx, hv, hvy⟩ := h
      obtain ⟨-, k, q, hk, hq, hid⟩ := lastIn_eq_some_some.1 hx
      have hk' := hw.block?_iff.1 hk
      obtain rfl : q = a :=
        eq_of_id_eq hw.quads_nodup (mem_quads.2 ⟨_, hk', List.mem_of_getLast? hq⟩) ha hid
      rw [hw.id_eq hl] at hvy
      rw [← hw.id_eq hk', hw.mem_successors_id hk'] at hv
      exact .across hk' hq hv ⟨y, l, hl, hf, hvy⟩
    · rw [predecessors_inner hw.quads_nodup hl hi, List.mem_singleton, Option.some.injEq] at h
      obtain rfl : a = c :=
        eq_of_id_eq hw.quads_nodup ha (mem_quads.2 ⟨_, hl, hi.subset (by simp)⟩) h
      exact .inner hl hi
  · intro h
    cases h with
    | inner hk hi =>
      rw [predecessors_inner hw.quads_nodup hk hi]
      exact List.mem_singleton_self _
    | @across x v k hk ha hv hm =>
      obtain ⟨y, l, hl, hb, hvy⟩ := hm
      rw [predecessors_first hw.quads_nodup hl hb, hw.mem_incoming, hw.id_eq hl]
      refine ⟨x, v, hw.lastIn_eq hk ha, ?_, hvy⟩
      rw [← hw.id_eq hk]
      exact (hw.mem_successors_id hk).2 hv

/-- Flow to a quad comes from its predecessors. -/
theorem mem_predecessors_of_flows (ha : a ∈ g.quads) (hb : b ∈ g.quads) (h : g.Flows a b) :
    some a.id ∈ g.quadEdges.predecessors b.id :=
  (hw.mem_predecessors_iff_next ha hb).2 ((hw.flows_iff_next ha hb).1 h)

theorem flows_of_mem_predecessors (ha : a ∈ g.quads) (hb : b ∈ g.quads)
    (h : some a.id ∈ g.quadEdges.predecessors b.id) : g.Flows a b :=
  (hw.flows_iff_next ha hb).2 ((hw.mem_predecessors_iff_next ha hb).1 h)

end WellFormed

end Graph

end Dataflow
