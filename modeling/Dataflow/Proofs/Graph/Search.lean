import Mathlib.Logic.Relation
import Dataflow.Graph.Edges
import Dataflow.Proofs.Graph.WellFormed

/-!
# What the search for neighbours finds

`Hits next stop may b n`: a walk along `next` from `b`, which enters blocks of `may` only, stops at the
neighbour `n`. The search for neighbours finds all that some walk from its work list stops at, and
nothing else (`mem_collect`), although it never enters a block twice: a walk that comes back to a block
can be cut short there (`Hits.avoid`).

In a well-formed graph both searches follow the same chains of blocks without quads, one forwards and
one backwards (`mem_outgoing`, `mem_incoming`). Forwards such a chain may also end where flow leaves the
method (`none_mem_outgoing`).
-/

namespace Dataflow.Graph

/-- A walk along `next` from `b`, entering blocks of `may` only, stops at `n`. -/
inductive Hits (next : BlockId → List BlockId) (stop : BlockId → Option (Option QuadId))
    (may : BlockId → Prop) : BlockId → Option QuadId → Prop
  | stop {b : BlockId} {n : Option QuadId} (h : stop b = some n) : Hits next stop may b n
  | pass {b c : BlockId} {n : Option QuadId} (hs : stop b = none) (hm : may b) (hc : c ∈ next b)
      (h : Hits next stop may c n) : Hits next stop may b n

variable {next : BlockId → List BlockId} {stop : BlockId → Option (Option QuadId)}
  {may may' : BlockId → Prop} {b : BlockId} {n : Option QuadId}

namespace Hits

theorem mono (h : Hits next stop may b n) (hm : ∀ c, may c → may' c) : Hits next stop may' b n := by
  induction h with
  | stop hs => exact .stop hs
  | pass hs hb hc _ ih => exact .pass hs (hm _ hb) hc ih

theorem eq_of_stop {m : Option QuadId} (h : Hits next stop may b n) (hs : stop b = some m) : m = n := by
  cases h with
  | stop hn => exact Option.some.inj (hs.symm.trans hn)
  | pass hn => rw [hn] at hs; cases hs

theorem exists_stop (h : Hits next stop may b n) : ∃ c, stop c = some n := by
  induction h with
  | stop hs => exact ⟨_, hs⟩
  | pass _ _ _ _ ih => exact ih

/-- A walk either avoids the block `c` or goes on from `c` without coming back to it. -/
theorem avoid (h : Hits next stop may b n) (c : BlockId) :
    Hits next stop (fun x => may x ∧ x ≠ c) b n ∨
      ∃ d ∈ next c, Hits next stop (fun x => may x ∧ x ≠ c) d n := by
  induction h with
  | stop hs => exact .inl (.stop hs)
  | @pass b d n hs hb hd _ ih =>
    rcases ih with ih | ih
    · by_cases he : b = c
      · exact .inr ⟨d, he ▸ hd, ih⟩
      · exact .inl (.pass hs ⟨hb, he⟩ hd ih)
    · exact .inr ih

end Hits

/-- The search answers what was found before, and what walks from the work list stop at. -/
theorem mem_collect {unseen : List BlockId} (hd : unseen.Nodup) (work : List BlockId)
    (found : List (Option QuadId)) :
    n ∈ collect next stop unseen work found ↔
      n ∈ found ∨ ∃ b ∈ work, Hits next stop (· ∈ unseen) b n := by
  fun_induction collect next stop unseen work found with
  | case1 => simp
  | case2 unseen found b work m hs ih =>
    have hm : n ∈ (if m ∈ found then found else found ++ [m]) ↔ n ∈ found ∨ n = m := by
      split
      · next hm => exact ⟨.inl, fun h => h.elim id fun h => h ▸ hm⟩
      · rw [List.mem_append, List.mem_singleton]
    have hb : Hits next stop (· ∈ unseen) b n ↔ n = m :=
      ⟨fun h => (h.eq_of_stop hs).symm, fun h => .stop (h ▸ hs)⟩
    simp only [dite_eq_ite] at ih
    rw [ih hd, hm, List.exists_mem_cons_iff, hb, or_assoc]
  | case3 unseen found b work hs hb ih =>
    have hmem : ∀ c, c ∈ unseen.erase b ↔ c ∈ unseen ∧ c ≠ b := by
      intro c
      rw [hd.mem_erase_iff, and_comm]
    rw [ih (hd.erase b)]
    refine or_congr_right ⟨?_, ?_⟩
    · rintro ⟨c, hc, h⟩
      have h' : Hits next stop (· ∈ unseen) c n := h.mono fun x hx => ((hmem x).1 hx).1
      rcases List.mem_append.1 hc with hc | hc
      · exact ⟨b, List.mem_cons_self, .pass hs hb hc h'⟩
      · exact ⟨c, List.mem_cons_of_mem b hc, h'⟩
    · -- a walk from `b` itself goes on from a block next to it
      rintro ⟨c, hc, h⟩
      rcases h.avoid b with h | ⟨d, hdn, h⟩
      · replace h : Hits next stop (· ∈ unseen.erase b) c n := h.mono fun x hx => (hmem x).2 hx
        rcases List.mem_cons.1 hc with rfl | hc
        · cases h with
          | stop hn => rw [hs] at hn; cases hn
          | pass _ hm => exact absurd rfl ((hmem c).1 hm).2
        · exact ⟨c, List.mem_append_right _ hc, h⟩
      · exact ⟨d, List.mem_append_left _ hdn, h.mono fun x hx => (hmem x).2 hx⟩
  | case4 unseen found b work hs hb ih =>
    have hno : ¬ Hits next stop (· ∈ unseen) b n := by
      intro h
      cases h with
      | stop hn => rw [hs] at hn; cases hn
      | pass _ hm => exact hb hm
    rw [ih hd, List.exists_mem_cons_iff, or_iff_right hno]

theorem nodup_collect {found : List (Option QuadId)} (hf : found.Nodup) (unseen work : List BlockId) :
    (collect next stop unseen work found).Nodup := by
  fun_induction collect next stop unseen work found with
  | case1 => exact hf
  | case2 unseen found b work m hs ih =>
    simp only [dite_eq_ite] at ih
    refine ih ?_
    split
    · exact hf
    · next hm =>
      rw [← List.concat_eq_append]
      exact hf.concat hm
  | case3 unseen found b work hs hb ih => exact ih hf
  | case4 unseen found b work hs hb ih => exact ih hf

theorem nodup_eraseDups {α : Type} [DecidableEq α] : ∀ l : List α, l.eraseDups.Nodup
  | [] => by simp
  | a :: l => by
    rw [List.eraseDups_cons, List.nodup_cons, List.mem_eraseDups]
    exact ⟨by simp, nodup_eraseDups _⟩
termination_by l => l.length
decreasing_by
  exact Nat.lt_succ_of_le (List.length_filter_le _ _)

/-! ### Chains of blocks without quads -/

/-- Flow may pass from `x` to `y`, and `x` holds no quads. -/
def Passes (g : Graph) (x y : BlockId) : Prop :=
  ∃ k, g.block? x = some k ∧ k.quads = [] ∧ y ∈ k.successors

/-- Flow that arrives at block `x` may come to `y` through blocks without quads. -/
def Leads (g : Graph) : BlockId → BlockId → Prop := Relation.ReflTransGen g.Passes

/-- Flow that arrives at block `x` leaves the method there: `x` is `exit`, or it holds no quads and leads
nowhere. -/
def IsEnd (g : Graph) (x : BlockId) : Prop :=
  x = .exit ∨ ∃ k, (x, k) ∈ g.blocks ∧ k.quads = [] ∧ k.successors = []

variable {g : Graph} {x y : BlockId} {k : Block} {m : QuadId}

theorem mem_successors_iff : y ∈ g.successors x ↔ ∃ k, g.block? x = some k ∧ y ∈ k.successors := by
  rw [successors]
  cases g.block? x with
  | none => simp
  | some k => simp

theorem nodup_mentioned (g : Graph) : g.mentioned.Nodup := nodup_eraseDups _

theorem mem_flowSuccessors :
    y ∈ g.flowSuccessors x ↔ y ∈ g.successors x ∨ g.successors x = [] ∧ y = .exit := by
  rw [flowSuccessors]
  split
  · next h => simp [h]
  · next h => exact ⟨.inl, fun hy => hy.resolve_right fun he => h he.1⟩

theorem mem_mentioned : x ∈ g.mentioned ↔ ∃ e ∈ g.blocks, x = e.2.id ∨ x ∈ e.2.successors := by
  rw [mentioned, List.mem_eraseDups, List.mem_flatMap]
  simp only [List.mem_cons]

theorem firstIn_eq_some_some : g.firstIn x = some (some m) ↔
    x ≠ .exit ∧ ∃ k q, g.block? x = some k ∧ k.quads.head? = some q ∧ q.id = m := by
  rw [firstIn]
  split
  · next h => simp [h]
  · next h => simp [h, Option.bind_eq_some_iff]

theorem lastIn_eq_some_some : g.lastIn x = some (some m) ↔
    x ≠ .entry ∧ ∃ k q, g.block? x = some k ∧ k.quads.getLast? = some q ∧ q.id = m := by
  rw [lastIn]
  split
  · next h => simp [h]
  · next h => simp [h, Option.bind_eq_some_iff]

theorem firstIn_eq_some_none : g.firstIn x = some none ↔ x = .exit := by
  rw [firstIn]
  split
  · next h => simp [h]
  · next h => simp [h, Option.bind_eq_some_iff]

theorem lastIn_eq_some_none : g.lastIn x = some none ↔ x = .entry := by
  rw [lastIn]
  split
  · next h => simp [h]
  · next h => simp [h, Option.bind_eq_some_iff]

/-- A block that flow leaves has no last quad only if it has no quads. -/
theorem passes_of_lastIn (h : g.lastIn x = none) (hy : y ∈ g.successors x) : g.Passes x y := by
  obtain ⟨k, hk, hy⟩ := mem_successors_iff.1 hy
  rw [lastIn, hk] at h
  split at h
  · cases h
  · refine ⟨k, hk, ?_, hy⟩
    simpa using h

theorem passes_of_firstIn (h : g.firstIn x = none) (hy : y ∈ g.successors x) : g.Passes x y := by
  obtain ⟨k, hk, hy⟩ := mem_successors_iff.1 hy
  rw [firstIn, hk] at h
  split at h
  · cases h
  · refine ⟨k, hk, ?_, hy⟩
    simpa using h

theorem Passes.lastIn (h : g.Passes x y) (hx : x ≠ .entry) : g.lastIn x = none := by
  obtain ⟨k, hk, hq, -⟩ := h
  rw [Graph.lastIn, if_neg hx, hk]
  simp [hq]

theorem Passes.mem_mentioned (hw : g.WellFormed) (h : g.Passes x y) : x ∈ g.mentioned := by
  obtain ⟨k, hk, -, -⟩ := h
  have hm := hw.block?_iff.1 hk
  exact Graph.mem_mentioned.2 ⟨(x, k), hm, .inl (hw.fits _ hm).id_eq.symm⟩

namespace WellFormed

variable (hw : g.WellFormed)
include hw

theorem mem_predecessors_iff : x ∈ g.predecessors y ↔ y ∈ g.successors x := by
  rw [mem_successors_iff, predecessors, List.mem_map]
  constructor
  · rintro ⟨e, he, rfl⟩
    rw [List.mem_filter, decide_eq_true_eq] at he
    exact ⟨e.2, hw.block?_id he.1, he.2⟩
  · rintro ⟨k, hk, hy⟩
    have hm := hw.block?_iff.1 hk
    exact ⟨(x, k), List.mem_filter.2 ⟨hm, decide_eq_true hy⟩, (hw.fits _ hm).id_eq⟩

theorem successor_ne_entry (h : y ∈ g.successors x) : y ≠ .entry := by
  obtain ⟨k, hk, hy⟩ := mem_successors_iff.1 h
  exact (hw.fits _ (hw.block?_iff.1 hk)).ne_entry y hy

theorem ne_exit_of_successor (h : y ∈ g.successors x) : x ≠ .exit := by
  rintro rfl
  obtain ⟨k, hk, hy⟩ := mem_successors_iff.1 h
  rw [(hw.fits _ (hw.block?_iff.1 hk)).exit_eq rfl] at hy
  exact absurd hy (by simp)

theorem firstIn_of_passes (h : g.Passes x y) : g.firstIn x = none := by
  have hx : x ≠ .exit := by
    obtain ⟨k, hk, -, hy⟩ := h
    exact hw.ne_exit_of_successor (mem_successors_iff.2 ⟨k, hk, hy⟩)
  obtain ⟨k, hk, hq, -⟩ := h
  rw [firstIn, if_neg hx, hk]
  simp [hq]

theorem exists_leads_of_hits {may : BlockId → Prop} {z : BlockId}
    (h : Hits g.predecessors g.lastIn may x n) (hy : y ∈ g.successors x) (hz : g.Leads y z) :
    ∃ a v, g.lastIn a = some n ∧ v ∈ g.successors a ∧ g.Leads v z := by
  induction h generalizing y with
  | stop hs => exact ⟨_, y, hs, hy, hz⟩
  | pass hs _ hc _ ih =>
    exact ih (hw.mem_predecessors_iff.1 hc) (.head (passes_of_lastIn hs hy) hz)

/-- Flow comes into `b` from the quad, or from the boundary, at the start of a chain to `b`. -/
theorem mem_incoming : n ∈ g.incoming g.mentioned b ↔
    ∃ a v, g.lastIn a = some n ∧ v ∈ g.successors a ∧ g.Leads v b := by
  rw [incoming, mem_collect g.nodup_mentioned, or_iff_right (by simp)]
  constructor
  · rintro ⟨x, hx, h⟩
    exact hw.exists_leads_of_hits h (hw.mem_predecessors_iff.1 hx) .refl
  · rintro ⟨a, v, ha, hv, hl⟩
    induction hl with
    | refl => exact ⟨a, hw.mem_predecessors_iff.2 hv, .stop ha⟩
    | @tail x y _ hxy ih =>
      obtain ⟨d, hd, h⟩ := ih
      have hne : x ≠ .entry := hw.successor_ne_entry (hw.mem_predecessors_iff.1 hd)
      obtain ⟨k, hk, -, hy⟩ := id hxy
      refine ⟨x, hw.mem_predecessors_iff.2 (mem_successors_iff.2 ⟨k, hk, hy⟩), ?_⟩
      exact .pass (hxy.lastIn hne) (hxy.mem_mentioned hw) hd h

omit hw in
/-- Walks that stop at a quad do not pass through `exit`. -/
theorem exists_leads_of_hits_first {may : BlockId → Prop}
    (h : Hits g.flowSuccessors g.firstIn may x (some m)) :
    ∃ c, g.Leads x c ∧ g.firstIn c = some (some m) := by
  generalize hn : some m = n at h
  induction h with
  | stop hs => exact ⟨_, .refl, hn ▸ hs⟩
  | @pass x d n hs _ hd h ih =>
    subst hn
    obtain ⟨c, hl, hc⟩ := ih rfl
    rcases mem_flowSuccessors.1 hd with hd | ⟨-, rfl⟩
    · exact ⟨c, .head (passes_of_firstIn hs hd) hl, hc⟩
    · cases h.eq_of_stop (m := none) (by rw [firstIn, if_pos rfl])

theorem hits_of_leads (hl : g.Leads x y) (h : Hits g.flowSuccessors g.firstIn (· ∈ g.mentioned) y n) :
    Hits g.flowSuccessors g.firstIn (· ∈ g.mentioned) x n := by
  induction hl using Relation.ReflTransGen.head_induction_on with
  | refl => exact h
  | @head x z hxz _ ih =>
    obtain ⟨k, hk, -, hz⟩ := id hxz
    have hz' : z ∈ g.successors x := mem_successors_iff.2 ⟨k, hk, hz⟩
    exact .pass (hw.firstIn_of_passes hxz) (hxz.mem_mentioned hw) (mem_flowSuccessors.2 (.inl hz')) ih

/-- Flow out of `b` goes to the first quad at the end of a chain from `b`. -/
theorem mem_outgoing : some m ∈ g.outgoing g.mentioned b ↔
    ∃ v c, v ∈ g.successors b ∧ g.Leads v c ∧ g.firstIn c = some (some m) := by
  rw [outgoing, mem_collect g.nodup_mentioned, or_iff_right (by simp)]
  constructor
  · rintro ⟨v, hv, h⟩
    obtain ⟨c, hl, hc⟩ := exists_leads_of_hits_first h
    rcases mem_flowSuccessors.1 hv with hv | ⟨-, rfl⟩
    · exact ⟨v, c, hv, hl, hc⟩
    · cases h.eq_of_stop (m := none) (by rw [firstIn, if_pos rfl])
  · rintro ⟨v, c, hv, hl, hc⟩
    exact ⟨v, mem_flowSuccessors.2 (.inl hv), hw.hits_of_leads hl (.stop hc)⟩

theorem successor_mem (h : y ∈ g.successors x) : y ∈ g.blockIds := by
  obtain ⟨k, hk, hy⟩ := mem_successors_iff.1 h
  exact (hw.fits _ (hw.block?_iff.1 hk)).known y hy

/-- A walk that stops at the boundary has come to an end. -/
theorem exists_isEnd_of_hits {may : BlockId → Prop} (hx : x ∈ g.blockIds)
    (h : Hits g.flowSuccessors g.firstIn may x none) : ∃ c, g.Leads x c ∧ g.IsEnd c := by
  generalize hn : (none : Option QuadId) = n at h
  induction h with
  | stop hs =>
    subst hn
    exact ⟨_, .refl, .inl (firstIn_eq_some_none.1 hs)⟩
  | @pass x d n hs _ hd _ ih =>
    rcases mem_flowSuccessors.1 hd with hd | ⟨he, -⟩
    · obtain ⟨c, hl, hc⟩ := ih (hw.successor_mem hd) hn
      exact ⟨c, .head (passes_of_firstIn hs hd) hl, hc⟩
    · obtain ⟨⟨_, k⟩, hk, rfl⟩ := List.mem_map.1 hx
      have hb := hw.block?_iff.2 hk
      rw [firstIn, hb] at hs
      rw [successors, hb] at he
      split at hs
      · cases hs
      · exact ⟨_, .refl, .inr ⟨k, hk, by simpa using hs, he⟩⟩

theorem hits_of_isEnd (h : g.IsEnd x) : Hits g.flowSuccessors g.firstIn (· ∈ g.mentioned) x none := by
  have hexit : Hits g.flowSuccessors g.firstIn (· ∈ g.mentioned) .exit none :=
    .stop (firstIn_eq_some_none.2 rfl)
  rcases h with rfl | ⟨k, hk, hq, hs⟩
  · exact hexit
  · by_cases hx : x = .exit
    · rw [hx]
      exact hexit
    · have hb := hw.block?_iff.2 hk
      refine .pass ?_ (Graph.mem_mentioned.2 ⟨_, hk, .inl (hw.id_eq hk).symm⟩) ?_ hexit
      · rw [firstIn, if_neg hx, hb]
        simp [hq]
      · exact mem_flowSuccessors.2 (.inr ⟨by rw [successors, hb]; exact hs, rfl⟩)

/-- Flow out of `b` leaves the method if `b` leads nowhere, or at the end of a chain from `b`. -/
theorem none_mem_outgoing : none ∈ g.outgoing g.mentioned b ↔
    g.successors b = [] ∨ ∃ v c, v ∈ g.successors b ∧ g.Leads v c ∧ g.IsEnd c := by
  rw [outgoing, mem_collect g.nodup_mentioned, or_iff_right (by simp)]
  constructor
  · rintro ⟨v, hv, h⟩
    rcases mem_flowSuccessors.1 hv with hv | ⟨he, -⟩
    · obtain ⟨c, hl, hc⟩ := hw.exists_isEnd_of_hits (hw.successor_mem hv) h
      exact .inr ⟨v, c, hv, hl, hc⟩
    · exact .inl he
  · rintro (he | ⟨v, c, hv, hl, hc⟩)
    · exact ⟨.exit, mem_flowSuccessors.2 (.inr ⟨he, rfl⟩), .stop (firstIn_eq_some_none.2 rfl)⟩
    · exact ⟨v, mem_flowSuccessors.2 (.inl hv), hw.hits_of_leads hl (hw.hits_of_isEnd hc)⟩

end WellFormed

end Dataflow.Graph
