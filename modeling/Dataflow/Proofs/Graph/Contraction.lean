import Dataflow.Proofs.Graph.Chains

/-!
# Removing quads contracts the flow

A block that loses all its quads is passed through from then on, so an edge of the smaller graph may stand
for a long way through the old one. Both are seen as one walk, `Comes g skips l s n`: flow that still has
the quads `l` of its block before it, and then the edges to the blocks `s`, passes over the quads that
`skips` names and meets `n`, or leaves the method if `n` is `none`.

- In the smaller graph nothing is left to pass over (`ahead_removeQuads_iff`).
- With nothing to pass over the walk is one edge of the graph (`leaves_iff_ahead`), hence in general a
  path through quads that are passed over (`exists_trail`, `comes_of_trail`).
- So the quads of a path that are left are a path of the smaller graph (`isPath_removeQuads`).
-/

namespace Dataflow.Graph

variable {g : Graph} {skips : Quad → Prop} {ids : List QuadId} {a b d q : Quad} {n : Option Quad}
  {l ds : List Quad} {s : List BlockId} {v : BlockId} {k : Block}

inductive Comes (g : Graph) (skips : Quad → Prop) : List Quad → List BlockId → Option Quad → Prop
  | meet {q : Quad} {l : List Quad} {s : List BlockId} (h : ¬ skips q) : Comes g skips (q :: l) s (some q)
  | skip {q : Quad} {l : List Quad} {s : List BlockId} {n : Option Quad} (h : skips q)
      (hn : Comes g skips l s n) : Comes g skips (q :: l) s n
  | enter {v : BlockId} {k : Block} {s : List BlockId} {n : Option Quad} (hv : v ∈ s)
      (hk : (v, k) ∈ g.blocks) (hn : Comes g skips k.quads k.successors n) : Comes g skips [] s n
  | leave : Comes g skips [] [] none

/-- The walk that passes over nothing. -/
abbrev Ahead (g : Graph) : List Quad → List BlockId → Option Quad → Prop := g.Comes fun _ => False

/-- The quads `l` end a block of the graph that leads to `s`. -/
def Within (g : Graph) (l : List Quad) (s : List BlockId) : Prop :=
  ∃ x k, (x, k) ∈ g.blocks ∧ l <:+ k.quads ∧ k.successors = s

theorem Within.of_block (hk : (v, k) ∈ g.blocks) : g.Within k.quads k.successors :=
  ⟨v, k, hk, List.suffix_refl _, rfl⟩

theorem Within.tail (h : g.Within (q :: l) s) : g.Within l s := by
  obtain ⟨x, k, hk, hl, hs⟩ := h
  exact ⟨x, k, hk, (List.suffix_cons q l).trans hl, hs⟩

theorem exists_within (h : q ∈ g.quads) : ∃ l s, g.Within (q :: l) s := by
  obtain ⟨⟨x, k⟩, hk, hq⟩ := mem_quads.1 h
  obtain ⟨pre, l, hl⟩ := List.append_of_mem hq
  exact ⟨l, k.successors, x, k, hk, ⟨pre, hl.symm⟩, rfl⟩

/-! ### Nothing to pass over -/

/-- Flow that arrives at block `v` meets `n` next. -/
def Arrives (g : Graph) (v : BlockId) : Option Quad → Prop
  | some q => g.Meets v q
  | none => ∃ c, g.Leads v c ∧ g.IsEnd c

theorem Passes.arrives {w : BlockId} (h : g.Passes v w) (hn : g.Arrives w n) : g.Arrives v n := by
  cases n with
  | some q =>
    obtain ⟨y, m, hm, hq, hl⟩ := hn
    exact ⟨y, m, hm, hq, .head h hl⟩
  | none =>
    obtain ⟨c, hl, hc⟩ := hn
    exact ⟨c, .head h hl, hc⟩

theorem ahead_cons_iff : g.Ahead (q :: l) s n ↔ n = some q := by
  constructor
  · intro h
    cases h with
    | meet => rfl
    | skip h => exact h.elim
  · rintro rfl
    exact .meet id

namespace WellFormed

variable (hw : g.WellFormed)
include hw

theorem ahead_cases (h : g.Ahead l s n) : (∃ q, l.head? = some q ∧ n = some q) ∨
    l = [] ∧ (s = [] ∧ n = none ∨ ∃ v ∈ s, g.Arrives v n) := by
  induction h with
  | @meet q => exact .inl ⟨q, rfl, rfl⟩
  | skip h => exact h.elim
  | leave => exact .inr ⟨rfl, .inl ⟨rfl, rfl⟩⟩
  | @enter v k s n hv hk _ ih =>
    refine .inr ⟨rfl, .inr ⟨v, hv, ?_⟩⟩
    rcases ih with ⟨q, hq, rfl⟩ | ⟨hq, ⟨hs, rfl⟩ | ⟨w, hs, hn⟩⟩
    · exact ⟨v, k, hk, hq, .refl⟩
    · exact ⟨v, .refl, .inr ⟨k, hk, hq, hs⟩⟩
    · exact Passes.arrives ⟨k, hw.block?_iff.2 hk, hq, hs⟩ hn

theorem ahead_of_leads {c : BlockId} (hl : g.Leads v c) (hc : ∀ s, c ∈ s → g.Ahead [] s n) (hv : v ∈ s) :
    g.Ahead [] s n := by
  induction hl using Relation.ReflTransGen.head_induction_on generalizing s with
  | refl => exact hc s hv
  | head h _ ih =>
    obtain ⟨k, hk, hq, hs⟩ := h
    refine .enter hv (hw.block?_iff.1 hk) ?_
    rw [hq]
    exact ih hs

theorem ahead_of_isEnd {c : BlockId} (hc : g.IsEnd c) (hs : c ∈ s) : g.Ahead [] s none := by
  have hend : ∃ k, (c, k) ∈ g.blocks ∧ k.quads = [] ∧ k.successors = [] := by
    rcases hc with rfl | h
    · obtain ⟨⟨_, k⟩, hk, rfl⟩ := List.mem_map.1 hw.exit_mem
      exact ⟨k, hk, (hw.fits _ hk).quads_eq rfl, (hw.fits _ hk).exit_eq rfl⟩
    · exact h
  obtain ⟨k, hk, hq, hk'⟩ := hend
  refine .enter hs hk ?_
  rw [hq, hk']
  exact .leave

theorem ahead_nil_iff : g.Ahead [] s n ↔ s = [] ∧ n = none ∨ ∃ v ∈ s, g.Arrives v n := by
  constructor
  · intro h
    rcases hw.ahead_cases h with ⟨q, hq, -⟩ | ⟨-, h⟩
    · cases hq
    · exact h
  · rintro (⟨rfl, rfl⟩ | ⟨v, hv, h⟩)
    · exact .leave
    · cases n with
      | some q =>
        obtain ⟨y, m, hm, hq, hl⟩ := h
        refine hw.ahead_of_leads hl (fun s hs => .enter hs hm ?_) hv
        obtain ⟨t, ht⟩ := List.head?_eq_some_iff.1 hq
        rw [ht]
        exact .meet id
      | none =>
        obtain ⟨c, hl, hc⟩ := h
        exact hw.ahead_of_leads hl (fun s hs => hw.ahead_of_isEnd hc hs) hv

end WellFormed

/-- Flow may pass from `a` straight to `n`. -/
def Leaves (g : Graph) (a : Quad) : Option Quad → Prop
  | some b => b ∈ g.quads ∧ g.Flows a b
  | none => g.Exits a

theorem WellFormed.leaves_inner_iff (hw : g.WellFormed) (hk : (v, k) ∈ g.blocks) (hi : [a, b] <:+: k.quads) :
    g.Leaves a n ↔ n = some b := by
  have hb : b ∈ g.quads := mem_quads.2 ⟨_, hk, hi.subset (by simp)⟩
  cases n with
  | none =>
    refine iff_of_false (not_exits_of_adjacent hw.quads_nodup hk hi) ?_
    simp
  | some c =>
    rw [Leaves, Flows, successors_inner hw.quads_nodup hk hi, List.mem_singleton, Option.some.injEq,
      Option.some.injEq]
    constructor
    · rintro ⟨hc, hid⟩
      exact eq_of_id_eq hw.quads_nodup hc hb hid
    · rintro rfl
      exact ⟨hb, rfl⟩

theorem WellFormed.leaves_last_iff (hw : g.WellFormed) (hk : (v, k) ∈ g.blocks)
    (ha : k.quads.getLast? = some a) :
    g.Leaves a n ↔ k.successors = [] ∧ n = none ∨ ∃ w ∈ k.successors, g.Arrives w n := by
  cases n with
  | none =>
    rw [Leaves, hw.exits_last_iff hk ha, and_iff_left rfl]
    refine or_congr_right ⟨?_, ?_⟩
    · rintro ⟨c, ⟨w, hs, hl⟩, hc⟩
      rw [hw.successors_eq hk] at hs
      exact ⟨w, hs, c, hl, hc⟩
    · rintro ⟨w, hs, c, hl, hc⟩
      rw [← hw.successors_eq hk] at hs
      exact ⟨c, ⟨w, hs, hl⟩, hc⟩
  | some b =>
    constructor
    · rintro ⟨hb, hab⟩
      exact .inr ((hw.flows_last_iff hk ha hb).1 hab)
    · rintro (⟨-, hn⟩ | ⟨w, hs, hm⟩)
      · cases hn
      · have hb : b ∈ g.quads := by
          obtain ⟨y, m, hm, hb, -⟩ := hm
          exact mem_quads.2 ⟨_, hm, List.mem_of_head? hb⟩
        exact ⟨hb, (hw.flows_last_iff hk ha hb).2 ⟨w, hs, hm⟩⟩

/-- The edges out of a quad are what lies ahead of it. -/
theorem WellFormed.leaves_iff_ahead (hw : g.WellFormed) (h : g.Within (a :: l) s) :
    g.Leaves a n ↔ g.Ahead l s n := by
  obtain ⟨x, k, hk, ⟨pre, hpre⟩, rfl⟩ := h
  cases l with
  | cons c l =>
    have hi : [a, c] <:+: k.quads := ⟨pre, l, by simpa using hpre⟩
    rw [ahead_cons_iff, hw.leaves_inner_iff hk hi]
  | nil =>
    have ha : k.quads.getLast? = some a := by
      rw [← hpre, List.getLast?_concat]
    rw [hw.ahead_nil_iff, hw.leaves_last_iff hk ha]

theorem WellFormed.enters_iff_ahead (hw : g.WellFormed) :
    b ∈ g.quads ∧ g.Enters b ↔ g.Ahead [] (g.successors .entry) (some b) := by
  rw [hw.ahead_nil_iff]
  constructor
  · rintro ⟨hb, h⟩
    obtain ⟨x, k, hk, hf, v, hv, hl⟩ := (hw.enters_iff hb).1 h
    exact .inr ⟨v, hv, x, k, hk, hf, hl⟩
  · rintro (⟨-, hn⟩ | ⟨v, hv, x, k, hk, hf, hl⟩)
    · cases hn
    · have hb : b ∈ g.quads := mem_quads.2 ⟨_, hk, List.mem_of_head? hf⟩
      exact ⟨hb, (hw.enters_iff hb).2 ⟨x, k, hk, hf, v, hv, hl⟩⟩

/-! ### The smaller graph -/

theorem Comes.append {pre : List Quad} (h : g.Comes skips l s n) (hpre : ∀ q ∈ pre, skips q) :
    g.Comes skips (pre ++ l) s n := by
  induction pre with
  | nil => exact h
  | cons q pre ih =>
    exact .skip (hpre q List.mem_cons_self) (ih fun x hx => hpre x (List.mem_cons_of_mem q hx))

theorem mem_removeQuads_blocks : (v, k) ∈ (g.removeQuads ids).blocks ↔
    ∃ k', (v, k') ∈ g.blocks ∧ k = k'.removeQuads ids := by
  simp only [removeQuads, List.mem_map, Prod.mk.injEq]
  constructor
  · rintro ⟨⟨y, k'⟩, hk', rfl, rfl⟩
    exact ⟨k', hk', rfl⟩
  · rintro ⟨k', hk', rfl⟩
    exact ⟨(v, k'), hk', rfl, rfl⟩

theorem Comes.removeQuads (h : g.Comes (·.id ∈ ids) l s n) :
    (g.removeQuads ids).Ahead (l.filter (·.id ∉ ids)) s n := by
  induction h with
  | meet h =>
    rw [List.filter_cons_of_pos (by simpa using h)]
    exact .meet id
  | skip h _ ih =>
    rw [List.filter_cons_of_neg (by simpa using h)]
    exact ih
  | enter hv hk _ ih => exact .enter hv (mem_removeQuads_blocks.2 ⟨_, hk, rfl⟩) ih
  | leave => exact .leave

theorem comes_of_removeQuads (h : (g.removeQuads ids).Ahead (l.filter (·.id ∉ ids)) s n) :
    g.Comes (·.id ∈ ids) l s n := by
  have hskips : ∀ pre : List Quad, (∀ q ∈ pre, ¬ decide (q.id ∉ ids) = true) → ∀ q ∈ pre, q.id ∈ ids := by
    intro pre hpre q hq
    simpa using hpre q hq
  generalize hl : l.filter (·.id ∉ ids) = l' at h
  induction h generalizing l with
  | meet =>
    obtain ⟨pre, rest, rfl, hpre, hq, -⟩ := List.filter_eq_cons_iff.1 hl
    exact .append (.meet (by simpa using hq)) (hskips pre hpre)
  | skip h => exact h.elim
  | enter hv hk _ ih =>
    obtain ⟨k, hk', rfl⟩ := mem_removeQuads_blocks.1 hk
    rw [← List.append_nil l]
    exact .append (.enter hv hk' (ih (l := k.quads) rfl)) (hskips l (List.filter_eq_nil_iff.1 hl))
  | leave =>
    rw [← List.append_nil l]
    exact .append .leave (hskips l (List.filter_eq_nil_iff.1 hl))

theorem ahead_removeQuads_iff :
    (g.removeQuads ids).Ahead (l.filter (·.id ∉ ids)) s n ↔ g.Comes (·.id ∈ ids) l s n :=
  ⟨comes_of_removeQuads, Comes.removeQuads⟩

theorem Within.removeQuads (h : g.Within l s) : (g.removeQuads ids).Within (l.filter (·.id ∉ ids)) s := by
  obtain ⟨x, k, hk, hl, rfl⟩ := h
  exact ⟨x, _, mem_removeQuads_blocks.2 ⟨k, hk, rfl⟩, hl.filter _, rfl⟩

/-! ### Paths through quads that are passed over -/

/-- Flow passes from `a` through the quads `ds` to `n`. -/
def Course (g : Graph) : Quad → List Quad → Option Quad → Prop
  | a, [], n => g.Leaves a n
  | a, d :: ds, n => g.Leaves a (some d) ∧ g.Course d ds n

/-- The same, for flow that has the quads `l` and then the edges to `s` before it. -/
def Trail (g : Graph) (l : List Quad) (s : List BlockId) : List Quad → Option Quad → Prop
  | [], n => g.Ahead l s n
  | d :: ds, n => g.Ahead l s (some d) ∧ g.Course d ds n

theorem WellFormed.course_iff_trail (hw : g.WellFormed) (h : g.Within (a :: l) s) :
    g.Course a ds n ↔ g.Trail l s ds n := by
  cases ds with
  | nil => exact hw.leaves_iff_ahead h
  | cons d ds => exact and_congr_left fun _ => hw.leaves_iff_ahead h

theorem WellFormed.exists_trail (hw : g.WellFormed) (hl : g.Within l s) (h : g.Comes skips l s n) :
    ∃ ds, (∀ d ∈ ds, skips d) ∧ g.Trail l s ds n := by
  induction h with
  | meet => exact ⟨[], by simp, .meet id⟩
  | @skip q l s n hq _ ih =>
    obtain ⟨ds, hds, ht⟩ := ih hl.tail
    refine ⟨q :: ds, ?_, .meet id, (hw.course_iff_trail hl).2 ht⟩
    intro d hd
    rcases List.mem_cons.1 hd with rfl | hd
    · exact hq
    · exact hds d hd
  | enter hv hk _ ih =>
    obtain ⟨ds, hds, ht⟩ := ih (.of_block hk)
    refine ⟨ds, hds, ?_⟩
    cases ds with
    | nil => exact .enter hv hk ht
    | cons d ds => exact ⟨.enter hv hk ht.1, ht.2⟩
  | leave => exact ⟨[], by simp, .leave⟩

theorem Ahead.comes (h : g.Ahead l s n) (hn : ∀ q ∈ n, ¬ skips q) : g.Comes skips l s n := by
  induction h with
  | meet => exact .meet (hn _ rfl)
  | skip h => exact h.elim
  | enter hv hk _ ih => exact .enter hv hk (ih hn)
  | leave => exact .leave

/-- What can be met from after a quad can be met from before it by passing over the quad. -/
theorem Ahead.exists_skip (h : g.Ahead l s (some d)) (hl : g.Within l s) (hd : skips d) :
    ∃ l' s', g.Within (d :: l') s' ∧ ∀ n, g.Comes skips l' s' n → g.Comes skips l s n := by
  generalize hn : some d = m at h
  induction h with
  | @meet q l s =>
    obtain rfl := Option.some.inj hn
    exact ⟨l, s, hl, fun n => .skip hd⟩
  | skip h => exact h.elim
  | enter hv hk _ ih =>
    obtain ⟨l', s', hl', hcomes⟩ := ih (.of_block hk) hn
    exact ⟨l', s', hl', fun n h => .enter hv hk (hcomes n h)⟩
  | leave => cases hn

theorem WellFormed.comes_of_trail (hw : g.WellFormed) (hl : g.Within l s) (hds : ∀ d ∈ ds, skips d)
    (hn : ∀ q ∈ n, ¬ skips q) (h : g.Trail l s ds n) : g.Comes skips l s n := by
  induction ds generalizing l s with
  | nil => exact h.comes hn
  | cons d ds ih =>
    obtain ⟨hd, hcourse⟩ := h
    obtain ⟨l', s', hl', hcomes⟩ := hd.exists_skip hl (hds d List.mem_cons_self)
    refine hcomes n (ih hl'.tail (fun x hx => hds x (List.mem_cons_of_mem d hx)) ?_)
    exact (hw.course_iff_trail hl').1 hcourse

theorem WellFormed.comes_iff_trail (hw : g.WellFormed) (hl : g.Within l s) (hn : ∀ q ∈ n, ¬ skips q) :
    g.Comes skips l s n ↔ ∃ ds, (∀ d ∈ ds, skips d) ∧ g.Trail l s ds n := by
  constructor
  · exact hw.exists_trail hl
  · rintro ⟨ds, hds, h⟩
    exact hw.comes_of_trail hl hds hn h

theorem isPath_cons_cons {path : List Quad} :
    g.IsPath (a :: b :: path) ↔ a ∈ g.quads ∧ g.Flows a b ∧ g.IsPath (b :: path) := by
  constructor
  · intro h
    exact ⟨h.head, (List.isChain_cons_cons.1 h.flows).1, h.tail⟩
  · rintro ⟨ha, hab, h⟩
    exact ⟨List.forall_mem_cons.2 ⟨ha, h.mem⟩, .cons_cons hab h.flows⟩

theorem isPath_singleton : g.IsPath [a] ↔ a ∈ g.quads := by
  constructor
  · intro h
    exact h.head
  · intro h
    exact ⟨by simpa using h, .singleton a⟩

theorem course_some_iff (ha : a ∈ g.quads) : g.Course a ds (some b) ↔ g.IsPath (a :: ds ++ [b]) := by
  induction ds generalizing a with
  | nil =>
    rw [List.singleton_append, isPath_cons_cons, isPath_singleton, and_iff_right ha, and_comm]
    rfl
  | cons d ds ih =>
    rw [List.cons_append, List.cons_append, isPath_cons_cons, Course, Leaves, and_iff_right ha, and_assoc]
    constructor
    · rintro ⟨hd, had, h⟩
      exact ⟨had, (ih hd).1 h⟩
    · rintro ⟨had, h⟩
      exact ⟨h.head, had, (ih h.head).2 h⟩

theorem course_none_iff (ha : a ∈ g.quads) : g.Course a ds none ↔
    g.IsPath (a :: ds) ∧ ∀ z ∈ (a :: ds).getLast?, g.Exits z := by
  induction ds generalizing a with
  | nil =>
    rw [isPath_singleton, and_iff_right ha]
    simp [Course, Leaves]
  | cons d ds ih =>
    rw [isPath_cons_cons, Course, Leaves, List.getLast?_cons_cons, and_iff_right ha, and_assoc, and_assoc]
    constructor
    · rintro ⟨hd, had, h⟩
      exact ⟨had, (ih hd).1 h⟩
    · rintro ⟨had, h⟩
      exact ⟨h.1.head, had, (ih h.1.head).2 h⟩

theorem WellFormed.trail_entry_iff (hw : g.WellFormed) :
    g.Trail [] (g.successors .entry) ds (some b) ↔ g.FromEntry (ds ++ [b]) := by
  cases ds with
  | nil => rw [Trail, ← hw.enters_iff_ahead, List.nil_append, fromEntry_singleton]
  | cons d ds =>
    rw [Trail, ← hw.enters_iff_ahead]
    constructor
    · rintro ⟨⟨hd, he⟩, hc⟩
      refine ⟨(course_some_iff hd).1 hc, fun q hq => ?_⟩
      rw [← Option.some.inj hq]
      exact he
    · intro h
      have hd : d ∈ g.quads := h.mem d List.mem_cons_self
      exact ⟨⟨hd, h.enters d rfl⟩, (course_some_iff hd).2 h.toIsPath⟩

/-! ### The result -/

theorem mem_removeQuads : q ∈ (g.removeQuads ids).quads ↔ q ∈ g.quads ∧ q.id ∉ ids := by
  rw [quads_removeQuads, List.mem_filter, decide_eq_true_eq]

namespace WellFormed

variable (hw : g.WellFormed)
include hw

theorem leaves_removeQuads_iff (ha : a ∈ (g.removeQuads ids).quads) (hn : ∀ q ∈ n, q.id ∉ ids) :
    (g.removeQuads ids).Leaves a n ↔ ∃ ds, (∀ d ∈ ds, d.id ∈ ids) ∧ g.Course a ds n := by
  obtain ⟨ha, hid⟩ := mem_removeQuads.1 ha
  obtain ⟨l, s, hl⟩ := exists_within ha
  have hl' : (g.removeQuads ids).Within ((a :: l).filter (·.id ∉ ids)) s := hl.removeQuads
  rw [List.filter_cons_of_pos (by simpa using hid)] at hl'
  calc (g.removeQuads ids).Leaves a n
      ↔ (g.removeQuads ids).Ahead (l.filter (·.id ∉ ids)) s n := (hw.removeQuads ids).leaves_iff_ahead hl'
    _ ↔ g.Comes (·.id ∈ ids) l s n := ahead_removeQuads_iff
    _ ↔ ∃ ds, (∀ d ∈ ds, d.id ∈ ids) ∧ g.Trail l s ds n := hw.comes_iff_trail hl.tail hn
    _ ↔ ∃ ds, (∀ d ∈ ds, d.id ∈ ids) ∧ g.Course a ds n := by simp only [hw.course_iff_trail hl]

theorem enters_removeQuads_iff (hb : b ∈ (g.removeQuads ids).quads) :
    (g.removeQuads ids).Enters b ↔ ∃ ds, (∀ d ∈ ds, d.id ∈ ids) ∧ g.FromEntry (ds ++ [b]) := by
  obtain ⟨⟨_, k⟩, hk, hentry⟩ := List.mem_map.1 hw.entry_mem
  obtain rfl := hentry
  have hs : (g.removeQuads ids).successors .entry = g.successors .entry := by
    rw [hw.successors_eq hk, (hw.removeQuads ids).successors_eq (mem_removeQuads_blocks.2 ⟨k, hk, rfl⟩)]
    rfl
  have hl : g.Within [] (g.successors .entry) := ⟨_, k, hk, List.nil_suffix, (hw.successors_eq hk).symm⟩
  calc (g.removeQuads ids).Enters b
      ↔ (g.removeQuads ids).Ahead (([] : List Quad).filter (·.id ∉ ids)) (g.successors .entry) (some b) := by
        rw [← hs]
        exact (and_iff_right hb).symm.trans (hw.removeQuads ids).enters_iff_ahead
    _ ↔ g.Comes (·.id ∈ ids) [] (g.successors .entry) (some b) := ahead_removeQuads_iff
    _ ↔ ∃ ds, (∀ d ∈ ds, d.id ∈ ids) ∧ g.Trail [] (g.successors .entry) ds (some b) :=
        hw.comes_iff_trail hl (by simpa using (mem_removeQuads.1 hb).2)
    _ ↔ ∃ ds, (∀ d ∈ ds, d.id ∈ ids) ∧ g.FromEntry (ds ++ [b]) := by simp only [hw.trail_entry_iff]

/-! Whole paths: what is left of a path of `g` is a path of the smaller graph. The inductions are on the quads still
to come, and `ds` are removed quads that have been passed since the last that is left. -/

theorem isPath_removeQuads {rest : List Quad} (ha : a ∈ (g.removeQuads ids).quads) (hds : ∀ d ∈ ds, d.id ∈ ids)
    (hp : g.IsPath (a :: ds ++ rest)) :
    (g.removeQuads ids).IsPath (a :: rest.filter (·.id ∉ ids)) := by
  induction rest generalizing a ds with
  | nil => exact isPath_singleton.2 ha
  | cons x rest ih =>
    by_cases hx : x.id ∈ ids
    · rw [List.filter_cons_of_neg (by simpa using hx)]
      have hpassed : ∀ d ∈ ds ++ [x], d.id ∈ ids := by simpa [or_imp, forall_and, hx] using hds
      exact ih ha hpassed (by simpa using hp)
    · rw [List.filter_cons_of_pos (by simpa using hx)]
      have hxm : x ∈ (g.removeQuads ids).quads := mem_removeQuads.2 ⟨hp.mem x (by simp), hx⟩
      have hfirst : g.IsPath (a :: ds ++ [x]) := hp.part (List.IsPrefix.isInfix ⟨rest, by simp⟩)
      have hrest : g.IsPath (x :: rest) := hp.part (List.suffix_append _ _).isInfix
      have hcourse := (course_some_iff (mem_removeQuads.1 ha).1).2 hfirst
      have hleaves : (g.removeQuads ids).Leaves a (some x) :=
        (hw.leaves_removeQuads_iff ha (by simpa using hx)).2 ⟨ds, hds, hcourse⟩
      exact isPath_cons_cons.2 ⟨ha, hleaves.2, ih hxm (List.forall_mem_nil _) hrest⟩

theorem fromEntry_removeQuads {path : List Quad} (hds : ∀ d ∈ ds, d.id ∈ ids) (hp : g.FromEntry (ds ++ path)) :
    (g.removeQuads ids).FromEntry (path.filter (·.id ∉ ids)) := by
  induction path generalizing ds with
  | nil => exact ⟨⟨by simp, .nil⟩, by simp⟩
  | cons x path ih =>
    by_cases hx : x.id ∈ ids
    · rw [List.filter_cons_of_neg (by simpa using hx)]
      have hpassed : ∀ d ∈ ds ++ [x], d.id ∈ ids := by simpa [or_imp, forall_and, hx] using hds
      exact ih hpassed (by simpa using hp)
    · rw [List.filter_cons_of_pos (by simpa using hx)]
      have hxm : x ∈ (g.removeQuads ids).quads := mem_removeQuads.2 ⟨hp.mem x (by simp), hx⟩
      have hfirst : g.FromEntry (ds ++ [x]) := by
        refine ⟨hp.part (List.IsPrefix.isInfix ⟨path, by simp⟩), ?_⟩
        simpa [List.head?_append] using hp.enters
      have hrest : g.IsPath (x :: path) := hp.part (List.suffix_append _ _).isInfix
      refine ⟨hw.isPath_removeQuads hxm (List.forall_mem_nil _) hrest, ?_⟩
      simpa using (hw.enters_removeQuads_iff hxm).2 ⟨ds, hds, hfirst⟩

end WellFormed

/-- Removing quads contracts the flow and does nothing else to it: between two quads that are left, from
one of them out of the method, and from the entry to one of them, an edge of the smaller graph is a
path of the old one through quads that were removed. -/
theorem removeQuads_contracts (g : Graph) (h : g.Built) (ids : List QuadId) :
    (∀ a ∈ (g.removeQuads ids).quads, ∀ b ∈ (g.removeQuads ids).quads,
      (some b.id ∈ (g.removeQuads ids).quadEdges.successors a.id ↔
        ∃ ds, (∀ d ∈ ds, d.id ∈ ids) ∧ g.IsPath (a :: ds ++ [b]))) ∧
    (∀ a ∈ (g.removeQuads ids).quads,
      (none ∈ (g.removeQuads ids).quadEdges.successors a.id ↔
        ∃ ds, (∀ d ∈ ds, d.id ∈ ids) ∧ g.IsPath (a :: ds) ∧
          ∀ z ∈ (a :: ds).getLast?, none ∈ g.quadEdges.successors z.id)) ∧
    ∀ b ∈ (g.removeQuads ids).quads,
      (none ∈ (g.removeQuads ids).quadEdges.predecessors b.id ↔
        ∃ ds, (∀ d ∈ ds, d.id ∈ ids) ∧ g.FromEntry (ds ++ [b])) := by
  have hw := h.wellFormed
  refine ⟨fun a ha b hb => ?_, fun a ha => ?_, fun b hb => hw.enters_removeQuads_iff hb⟩
  · have hleaves := hw.leaves_removeQuads_iff ha (n := some b) (by simpa using (mem_removeQuads.1 hb).2)
    simp only [course_some_iff (mem_removeQuads.1 ha).1] at hleaves
    rw [← hleaves]
    exact (and_iff_right hb).symm
  · have hleaves := hw.leaves_removeQuads_iff ha (n := none) (by simp)
    simp only [course_none_iff (mem_removeQuads.1 ha).1] at hleaves
    exact hleaves

/-- A loop of one block between two quads. -/
def spin : Graph := ⟨⟨"spin", 0, true⟩,
  [(.entry, ⟨.entry, [], [⟨2⟩], some ⟨2⟩⟩), (.exit, .empty .exit),
   (⟨2⟩, ⟨⟨2⟩, [⟨1, .nop⟩], [⟨3⟩], some ⟨3⟩⟩),
   (⟨3⟩, ⟨⟨3⟩, [⟨2, .nop⟩, ⟨3, .nop⟩], [⟨3⟩, ⟨4⟩], some ⟨3⟩⟩),
   (⟨4⟩, ⟨⟨4⟩, [⟨4, .nop⟩], [], none⟩)], 5⟩

theorem built_spin : spin.Built := by
  have hblocks := (Built.ofMethod ⟨"spin", 0, true⟩).addBlock (by decide) |>.addBlock (by decide)
    |>.addBlock (by decide)
  have hedges := hblocks.addEdge (b := .entry) (t := ⟨2⟩) rfl |>.addEdge (b := ⟨2⟩) (t := ⟨3⟩) rfl
    |>.addEdge (b := ⟨3⟩) (t := ⟨3⟩) rfl |>.addEdge (b := ⟨3⟩) (t := ⟨4⟩) rfl
  exact hedges.pushQuad (b := ⟨2⟩) (q := ⟨1, .nop⟩) rfl |>.pushQuad (b := ⟨3⟩) (q := ⟨2, .nop⟩) rfl
    |>.pushQuad (b := ⟨3⟩) (q := ⟨3, .nop⟩) rfl |>.pushQuad (b := ⟨4⟩) (q := ⟨4, .nop⟩) rfl

/-- Without the loop's quads flow goes straight on, as it did through them, and still not out. -/
theorem spin_contracts :
    (∃ ds, (∀ d ∈ ds, d.id ∈ [2, 3]) ∧ spin.IsPath (⟨1, .nop⟩ :: ds ++ [⟨4, .nop⟩])) ∧
    ¬ ∃ ds, (∀ d ∈ ds, d.id ∈ [2, 3]) ∧ spin.IsPath (⟨1, .nop⟩ :: ds) ∧
      ∀ z ∈ (⟨1, .nop⟩ :: ds).getLast?, none ∈ spin.quadEdges.successors z.id := by
  have hs : (spin.removeQuads [2, 3]).quadEdges.successors 1 = [some 4] := by decide +kernel
  obtain ⟨hflows, hexits, -⟩ := removeQuads_contracts spin built_spin [2, 3]
  constructor
  · refine (hflows ⟨1, .nop⟩ (by decide) ⟨4, .nop⟩ (by decide)).1 ?_
    rw [hs]
    decide
  · rw [← hexits ⟨1, .nop⟩ (by decide), hs]
    decide

end Dataflow.Graph
