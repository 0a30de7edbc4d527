import Dataflow.Proofs.Analysis.NullCheck

/-!
# What extended elimination knows, and when it is true

A run is a path from the entry together with the registers that hold null when flow arrives at each of
its quads. Along a run a quad may vouch for a register that it writes itself: a check whose guard is its
own source, the first quad of an arm that overwrites what the branch compared, and in an instance method
any quad that writes `R0`. The analysis keeps such a register although nothing is known of its new
value. These are the only ways in which it goes wrong: at a check that is taken to be redundant the
source is null iff it holds a null that such a quad wrote (`null_iff_stale_of_flagged`), so where no quad
vouches for what it writes the check could not have failed (`nonNull_of_not_vouches`).
-/

namespace Dataflow

/-- Which registers hold null. -/
abbrev Nulls := Register → Bool

namespace Operator

/-- The register that a fresh object goes to. -/
def allocated? : Operator → Option Register
  | new d _ | newArray d _ => some d
  | _ => none

theorem allocated?_of_checked? {op : Operator} {r : Register} (h : op.checked? = some r) :
    op.allocated? = none := by
  unfold checked? at h
  split at h
  · rfl
  · cases h

/-- Passing the operator may turn `σ` into `τ`. A null check is passed only when its source is not
null. -/
def Yields (op : Operator) (σ τ : Nulls) : Prop :=
  (∀ r, r ∉ op.defs → τ r = σ r) ∧
  match op with
  | move d (.reg s) => τ d = σ s
  | move d .null => τ d = true
  | new d _ | newArray d _ => τ d = false
  | nullCheck _ (.reg s) => σ s = false
  | _ => True

theorem Yields.checked {op : Operator} {σ τ : Nulls} {r : Register} (h : op.Yields σ τ)
    (hr : op.checked? = some r) : σ r = false := by
  unfold checked? at hr
  split at hr
  · rw [← Option.some.inj hr]
    exact h.2
  · cases hr

theorem Yields.allocated {op : Operator} {σ τ : Nulls} {r : Register} (h : op.Yields σ τ)
    (hr : op.allocated? = some r) : τ r = false := by
  unfold allocated? at hr
  split at hr
  · rw [← Option.some.inj hr]
    exact h.2
  · rw [← Option.some.inj hr]
    exact h.2
  · cases hr

theorem Yields.copied {op : Operator} {σ τ : Nulls} {d s : Register} (h : op.Yields σ τ)
    (ho : op = .move d (.reg s)) : τ d = σ s := by
  subst ho
  exact h.2

theorem eq_ifCmp_of_comparedWithNull? {op : Operator} {cond : Condition} {r : Register}
    {target : BlockId} (h : op.comparedWithNull? = some (cond, r, target)) :
    ∃ left right, op = .ifCmp cond left right target := by
  unfold comparedWithNull? at h
  split at h
  · cases h
    exact ⟨_, _, rfl⟩
  · cases h
    exact ⟨_, _, rfl⟩
  · cases h

end Operator

namespace Condition

/-- How a comparison with null comes out, if that depends on nothing else. -/
def onNull? : Condition → (isNull : Bool) → Option Bool
  | eq, isNull => some isNull
  | ne, isNull => some !isNull
  | _, _ => none

end Condition

/-- Flow may leave the block towards `v`: if the block ends in a comparison with null, towards the
target only when the comparison holds, and towards the fallthrough only when it does not. -/
def Block.MayLeave (k : Block) (σ : Nulls) (v : BlockId) : Prop :=
  ∀ last ∈ k.quads.getLast?, ∀ cond r target, last.op.comparedWithNull? = some (cond, r, target) →
    ∀ holds, cond.onNull? (σ r) = some holds →
      v = target ∧ holds = true ∨ k.fallthrough = some v ∧ holds = false ∨
        v ≠ target ∧ k.fallthrough ≠ some v

/-- A quad of a run, with what is null when flow arrives there. -/
structure Visit where
  quad : Quad
  nulls : Nulls

namespace Graph

/-- One step of a run does what the operator says, and leaves a block by an edge that may be taken. -/
structure Steps (g : Graph) (a b : Visit) : Prop where
  yields : a.quad.op.Yields a.nulls b.nulls
  leaves : ∀ x k, (x, k) ∈ g.blocks → k.quads.getLast? = some a.quad →
    ∃ v ∈ k.successors, k.MayLeave a.nulls v ∧ g.Meets v b.quad

/-- A run from the entry. -/
structure IsRun (g : Graph) (run : List Visit) : Prop where
  path : g.FromEntry (run.map Visit.quad)
  steps : run.IsChain g.Steps

variable {g : Graph} {run : List Visit} {a b u v : Visit} {r : Register}

theorem isRun_singleton : g.IsRun [v] ↔ v.quad ∈ g.quads ∧ g.Enters v.quad := by
  rw [← fromEntry_singleton]
  exact ⟨IsRun.path, fun h => ⟨h, .singleton v⟩⟩

theorem fromEntry_map_concat_concat : g.FromEntry ((run ++ [a] ++ [b]).map Visit.quad) ↔
    g.FromEntry ((run ++ [a]).map Visit.quad) ∧ b.quad ∈ g.quads ∧ g.Flows a.quad b.quad := by
  simp only [List.map_append, List.map_cons, List.map_nil]
  exact fromEntry_concat_concat

theorem isRun_concat_concat : g.IsRun (run ++ [a] ++ [b]) ↔
    g.IsRun (run ++ [a]) ∧ (b.quad ∈ g.quads ∧ g.Flows a.quad b.quad) ∧ g.Steps a b := by
  constructor
  · rintro ⟨hp, hs⟩
    obtain ⟨hp, hb⟩ := fromEntry_map_concat_concat.1 hp
    obtain ⟨hs, hab⟩ := isChain_concat_concat.1 hs
    exact ⟨⟨hp, hs⟩, hb, hab⟩
  · rintro ⟨⟨hp, hs⟩, hb, hab⟩
    exact ⟨fromEntry_map_concat_concat.2 ⟨hp, hb⟩, isChain_concat_concat.2 ⟨hs, hab⟩⟩

theorem IsRun.mem (h : g.IsRun run) (hv : v ∈ run) : v.quad ∈ g.quads :=
  h.path.mem v.quad (List.mem_map_of_mem hv)

/-- Without comparisons every edge may be taken, so a run is a path along which nullness evolves as the
operators say. -/
theorem isRun_of_path (hw : g.WellFormed) (hc : ∀ q ∈ g.quads, q.op.isConditional = false)
    (hp : g.FromEntry (run.map Visit.quad))
    (hy : run.IsChain fun a b => a.quad.op.Yields a.nulls b.nulls) : g.IsRun run := by
  induction run using List.reverseRecOn with
  | nil => exact ⟨hp, .nil⟩
  | append_singleton run b ih =>
    rcases List.eq_nil_or_concat run with rfl | ⟨run, a, rfl⟩
    · exact ⟨hp, .singleton b⟩
    rw [List.concat_eq_append] at hp hy ih ⊢
    obtain ⟨hp, hb, hab⟩ := fromEntry_map_concat_concat.1 hp
    obtain ⟨hy, hyab⟩ := isChain_concat_concat.1 hy
    refine isRun_concat_concat.2 ⟨ih hp hy, ⟨hb, hab⟩, hyab, fun x k hk ha => ?_⟩
    obtain ⟨v, hv, hm⟩ := (hw.flows_last_iff hk ha hb).1 hab
    refine ⟨v, hv, fun last hlast cond r target h => ?_, hm⟩
    obtain ⟨left, right, ho⟩ := Operator.eq_ifCmp_of_comparedWithNull? h
    have hl := hc last (mem_quads.2 ⟨_, hk, List.mem_of_getLast? hlast⟩)
    rw [ho] at hl
    cases hl

/-- In an instance method the receiver is not null where the run begins. -/
def HasReceiver (g : Graph) (run : List Visit) : Prop :=
  g.method.isStatic = false → ∀ u ∈ run.head?, u.nulls (Register.param 0) = false

theorem HasReceiver.of_concat (h : g.HasReceiver (run ++ [a] ++ [b])) : g.HasReceiver (run ++ [a]) := by
  intro hi u hu
  refine h hi u ?_
  rw [List.head?_append, hu]
  rfl

/-! ### What a branch tells -/

/-- `k` ends in `last`, which compares `r` with null, and flow goes to `arm` from there alone, and only
when `r` is not null. -/
structure NonNullArm (g : Graph) (k : Block) (last : Quad) (r : Register) (arm : BlockId) : Prop where
  getLast? : k.quads.getLast? = some last
  compares : ∃ cond target other, last.op.comparedWithNull? = some (cond, r, target) ∧
    k.fallthrough = some other ∧ other ≠ target ∧
      (cond = .eq ∧ arm = other ∨ cond = .ne ∧ arm = target)
  predecessors : g.predecessors arm = [k.id]

theorem branchFact?_eq_some {x : BlockId} {k : Block} {id : QuadId} (hw : g.WellFormed)
    (hk : (x, k) ∈ g.blocks) (h : g.branchFact? k = some (id, r)) :
    ∃ last arm l first, g.NonNullArm k last r arm ∧ (arm, l) ∈ g.blocks ∧
      l.quads.head? = some first ∧ first.id = id := by
  simp only [branchFact?, fallthrough, hw.block?_id hk, Option.bind_eq_bind, Option.bind_some,
    Option.bind_eq_some_iff, Option.pure_def, Prod.exists, Option.guard_eq_some'] at h
  obtain ⟨last, hl, cond, r', target, hc, other, ho, -, hne, h⟩ := h
  -- the other comparisons tell nothing of null
  cases cond with
  | eq =>
    simp only [Option.bind_eq_some_iff, Option.guard_eq_some', hw.block?_iff] at h
    obtain ⟨-, hp, first, ⟨l, hm, hf⟩, he⟩ := h
    obtain ⟨hid, rfl⟩ := Prod.mk.inj (Option.some.inj he)
    exact ⟨last, other, l, first, ⟨hl, ⟨.eq, target, other, hc, ho, hne, .inl ⟨rfl, rfl⟩⟩, hp⟩, hm, hf, hid⟩
  | ne =>
    simp only [Option.bind_eq_some_iff, Option.guard_eq_some', hw.block?_iff] at h
    obtain ⟨-, hp, first, ⟨l, hm, hf⟩, he⟩ := h
    obtain ⟨hid, rfl⟩ := Prod.mk.inj (Option.some.inj he)
    exact ⟨last, target, l, first, ⟨hl, ⟨.ne, target, other, hc, ho, hne, .inr ⟨rfl, rfl⟩⟩, hp⟩, hm, hf, hid⟩
  | lt | ge | gt | le => cases h

/-- A block that is entered from `k` alone, where `k` holds quads, is not reached through others. -/
theorem NonNullArm.eq_of_leads {k : Block} {last : Quad} {arm y : BlockId} (h : g.NonNullArm k last r arm)
    (hw : g.WellFormed) {x : BlockId} (hk : (x, k) ∈ g.blocks) (hy : g.Leads y arm) : y = arm := by
  rcases hy.cases_tail with he | ⟨z, -, l, hl, hq, hz⟩
  · exact he.symm
  · have hp := hw.mem_predecessors_iff.2 (mem_successors_iff.2 ⟨l, hl, hz⟩)
    rw [h.predecessors, List.mem_singleton] at hp
    rw [hp] at hl
    obtain rfl : k = l := Option.some.inj ((hw.block?_id hk).symm.trans hl)
    have hlast := h.getLast?
    rw [hq] at hlast
    cases hlast

theorem NonNullArm.eq_last {k l : Block} {last first : Quad} {arm x : BlockId} {n : Option QuadId}
    (h : g.NonNullArm k last r arm) (hw : g.WellFormed) (hk : (x, k) ∈ g.blocks)
    (hl : (arm, l) ∈ g.blocks) (hf : l.quads.head? = some first)
    (hn : n ∈ g.quadEdges.predecessors first.id) : n = some last.id := by
  rw [predecessors_first hw.quads_nodup hl hf, hw.mem_incoming, hw.id_eq hl] at hn
  obtain ⟨a, y, ha, hy, hlead⟩ := hn
  obtain rfl := h.eq_of_leads hw hk hlead
  have hp := hw.mem_predecessors_iff.2 hy
  rw [h.predecessors, List.mem_singleton, hw.id_eq hk] at hp
  rw [hp, hw.lastIn_eq hk h.getLast?] at ha
  exact (Option.some.inj ha).symm

theorem NonNullArm.null_eq_false {k : Block} {last : Quad} {arm : BlockId} {σ : Nulls}
    (h : g.NonNullArm k last r arm) (hm : k.MayLeave σ arm) : σ r = false := by
  obtain ⟨cond, target, other, hc, ho, hne, harm⟩ := h.compares
  rcases harm with ⟨rfl, rfl⟩ | ⟨rfl, rfl⟩
  · rcases hm last h.getLast? _ _ _ hc _ rfl with ⟨he, -⟩ | ⟨-, hn⟩ | ⟨-, hn⟩
    · exact absurd he hne
    · exact hn
    · exact absurd ho hn
  · rcases hm last h.getLast? _ _ _ hc _ rfl with ⟨-, hn⟩ | ⟨he, -⟩ | ⟨hn, -⟩
    · simpa using hn
    · exact absurd (Option.some.inj (ho.symm.trans he)) hne
    · exact absurd rfl hn

/-- What a branch told is true: where a run arrives at the first quad of an arm, the register that was
compared is not null. -/
theorem IsRun.null_eq_false_of_branchFacts (hw : g.WellFormed) (h : g.IsRun (run ++ [v]))
    (hf : (v.quad.id, r) ∈ g.branchFacts) : v.nulls r = false := by
  have hv : v.quad ∈ g.quads := h.mem (by simp)
  obtain ⟨⟨x, k⟩, hk, hfact⟩ := List.mem_filterMap.1 hf
  obtain ⟨last, arm, l, first, harm, hl, hfirst, hid⟩ := branchFact?_eq_some hw hk hfact
  obtain rfl : first = v.quad :=
    eq_of_id_eq hw.quads_nodup (mem_quads.2 ⟨_, hl, List.mem_of_head? hfirst⟩) hv hid
  rcases List.eq_nil_or_concat run with rfl | ⟨run, u, rfl⟩
  · cases harm.eq_last hw hk hl hfirst (isRun_singleton.1 h).2
  · rw [List.concat_eq_append] at h
    obtain ⟨hrun, ⟨-, hflows⟩, hstep⟩ := isRun_concat_concat.1 h
    have hu : u.quad ∈ g.quads := hrun.mem (by simp)
    have hlast := harm.eq_last hw hk hl hfirst (hw.mem_predecessors_of_flows hu hv hflows)
    obtain rfl : u.quad = last := eq_of_id_eq hw.quads_nodup hu
      (mem_quads.2 ⟨_, hk, List.mem_of_getLast? harm.getLast?⟩) (Option.some.inj hlast)
    obtain ⟨b, -, hleave, y, l', hl', hfirst', hlead⟩ := hstep.leaves x k hk harm.getLast?
    obtain ⟨rfl, -⟩ := Prod.mk.inj (eq_of_mem_quads hw.quads_nodup hl hl'
      (List.mem_of_head? hfirst) (List.mem_of_head? hfirst'))
    obtain rfl := harm.eq_of_leads hw hk hlead
    have hdefs : u.quad.op.defs = [] := by
      obtain ⟨cond, target, other, hc, -⟩ := harm.compares
      obtain ⟨left, right, ho⟩ := Operator.eq_ifCmp_of_comparedWithNull? hc
      rw [ho]
      rfl
    rw [hstep.yields.1 r (by simp [hdefs])]
    exact harm.null_eq_false hleave

/-! ### Nulls that a quad vouches for -/

/-- Quad `q` is taken to leave `r` non-null although it writes `r`. -/
def Vouches (g : Graph) (q : Quad) (r : Register) : Prop :=
  r ∈ q.defs ∧ (q.op.checked? = some r ∨ (q.id, r) ∈ g.branchFacts ∨
    g.method.isStatic = false ∧ r = Register.param 0)

/-- At the end of the run `r` holds a null that a quad wrote while vouching for it, or a copy of one. -/
inductive Stale (g : Graph) : List Visit → Register → Prop
  | written {run : List Visit} {a b : Visit} {r : Register} (h : g.Vouches a.quad r)
      (hn : b.nulls r = true) : Stale g (run ++ [a] ++ [b]) r
  | kept {run : List Visit} {a b : Visit} {r : Register} (hd : r ∉ a.quad.defs)
      (h : Stale g (run ++ [a]) r) : Stale g (run ++ [a] ++ [b]) r
  | copied {run : List Visit} {a b : Visit} {d s : Register} (ho : a.quad.op = .move d (.reg s))
      (h : Stale g (run ++ [a]) s) : Stale g (run ++ [a] ++ [b]) d

theorem Stale.null (h : g.Stale run r) (hrun : g.IsRun run) (hv : run.getLast? = some v) :
    v.nulls r = true := by
  induction h generalizing v with
  | written _ hn =>
    rw [List.getLast?_concat, Option.some.injEq] at hv
    exact hv ▸ hn
  | kept hd _ ih =>
    rw [List.getLast?_concat, Option.some.injEq] at hv
    obtain ⟨hrun, -, hs⟩ := isRun_concat_concat.1 hrun
    rw [← hv, hs.yields.1 _ hd]
    exact ih hrun List.getLast?_concat
  | @copied run a b d s ho _ ih =>
    rw [List.getLast?_concat, Option.some.injEq] at hv
    obtain ⟨hrun, -, hs⟩ := isRun_concat_concat.1 hrun
    rw [← hv, hs.yields.copied ho]
    exact ih hrun List.getLast?_concat

theorem Stale.exists_vouches (h : g.Stale run r) : ∃ u ∈ run, ∃ s, g.Vouches u.quad s := by
  induction h with
  | @written run a b r hv _ => exact ⟨a, by simp, r, hv⟩
  | kept _ _ ih =>
    obtain ⟨u, hu, s, hs⟩ := ih
    exact ⟨u, List.mem_append_left _ hu, s, hs⟩
  | copied _ _ ih =>
    obtain ⟨u, hu, s, hs⟩ := ih
    exact ⟨u, List.mem_append_left _ hu, s, hs⟩

end Graph

namespace NullCheck

variable {m : NullCheckMode} {g : Graph} {f : Findings Registers} {q : Quad} {r : Register}
  {facts : List (QuadId × Register)} {s : Registers} {run : List Visit} {v : Visit}

/-- `r` is in `s`, or is the receiver, which is always taken to be known. -/
def Held (g : Graph) (s : Registers) (r : Register) : Prop :=
  r ∈ s ∨ g.method.isStatic = false ∧ r = Register.param 0

theorem mem_learn : r ∈ learn g facts q s ↔ (q.id, r) ∈ facts ∨ Held g s r ∨
    q.op.allocated? = some r ∨ ∃ src, q.op = .move r (.reg src) ∧ Held g s src := by
  have hfacts : r ∈ (facts.filter (·.1 = q.id)).map (·.2) ↔ (q.id, r) ∈ facts := by
    simp
  have hheld : ∀ x, x ∈ (if g.method.isStatic then s else s.insertAll [Register.param 0]) ↔
      Held g s x := by
    intro x
    cases hs : g.method.isStatic
    · simp [Held, hs, or_comm]
    · simp [Held, hs]
  simp only [learn]
  rw [Registers.mem_insertAll, hfacts]
  refine or_congr_right ?_
  generalize (if g.method.isStatic then s else s.insertAll [Register.param 0]) = s' at hheld
  split
  · next d _ ho => simp [ho, Operator.allocated?, hheld, eq_comm, or_comm]
  · next d _ ho => simp [ho, Operator.allocated?, hheld, eq_comm, or_comm]
  · next d src ho =>
    split
    · next hs =>
      simp [ho, Operator.allocated?, hheld, eq_comm, or_comm, (hheld src).1 hs]
    · next hs =>
      have hn : ¬ Held g s src := fun h => hs ((hheld src).2 h)
      simp [ho, Operator.allocated?, hheld, hn]
  · next hnew harr hmove =>
    rw [hheld]
    have ha : q.op.allocated? = none := by
      unfold Operator.allocated?
      split
      · next d _ ho => exact absurd ho (hnew d _)
      · next d _ ho => exact absurd ho (harr d _)
      · rfl
    refine ⟨.inl, ?_⟩
    rintro (hr | hr | ⟨src, ho, -⟩)
    · exact hr
    · cases ha.symm.trans hr
    · exact absurd ho (hmove r src)

section

variable (h : (problem m g).Solved g.quadEdges g.quads f) (hm : m.extended = true) (hw : g.WellFormed)
include h hm hw

theorem held_of_flows {p q : Quad} (hp : p ∈ g.quads) (hq : q ∈ g.quads) (hpq : g.Flows p q)
    (hr : Held g (f.state.metAt q.id) r) : p.op.checked? = some r ∨ (p.id, r) ∈ g.branchFacts ∨
      Held g ((f.state.metAt p.id).eraseAll p.defs) r ∨ p.op.allocated? = some r ∨
        ∃ src, p.op = .move r (.reg src) ∧ Held g ((f.state.metAt p.id).eraseAll p.defs) src := by
  rcases hr with hr | hr
  · have hk := (mem_resultAt h hp).1 (mem_resultAt_of_flows h hw hp hq hpq hr)
    rw [known, factsOf, hm] at hk
    exact hk.imp_right mem_learn.1
  · exact .inr (.inr (.inl (.inr hr)))

/-- One step of a run: a null that is held after it is one that the quad vouches for, or was held and
null before. -/
theorem vouches_or_held {a b : Visit} (hrun : g.IsRun (run ++ [a] ++ [b]))
    (hr : Held g (f.state.metAt b.quad.id) r) (hn : b.nulls r = true) :
    g.Vouches a.quad r ∨
      r ∉ a.quad.defs ∧ Held g (f.state.metAt a.quad.id) r ∧ a.nulls r = true ∨
      ∃ s, a.quad.op = .move r (.reg s) ∧ Held g (f.state.metAt a.quad.id) s ∧ a.nulls s = true := by
  obtain ⟨hrun', ⟨hb, hflows⟩, hs⟩ := Graph.isRun_concat_concat.1 hrun
  have ha : a.quad ∈ g.quads := hrun'.mem (by simp)
  have hbefore : ∀ s, Held g ((f.state.metAt a.quad.id).eraseAll a.quad.defs) s →
      Held g (f.state.metAt a.quad.id) s :=
    fun s hs => hs.imp_left fun hs => (Registers.mem_eraseAll.1 hs).1
  have hsame : r ∉ a.quad.defs → a.nulls r = true := fun hd => (hs.yields.1 r hd).symm.trans hn
  -- whatever the quad gives is true of the value before it, so it matters whether the quad writes `r`
  rcases held_of_flows h hm hw ha hb hflows hr with hc | hf | hk | hnew | ⟨s, ho, hk⟩
  · by_cases hd : r ∈ a.quad.defs
    · exact .inl ⟨hd, .inl hc⟩
    · cases (hs.yields.checked hc).symm.trans (hsame hd)
  · by_cases hd : r ∈ a.quad.defs
    · exact .inl ⟨hd, .inr (.inl hf)⟩
    · cases (hrun'.null_eq_false_of_branchFacts hw hf).symm.trans (hsame hd)
  · by_cases hd : r ∈ a.quad.defs
    · rcases hk with hk | hk
      · exact absurd hd (Registers.mem_eraseAll.1 hk).2
      · exact .inl ⟨hd, .inr (.inr hk)⟩
    · exact .inr (.inl ⟨hd, hbefore r hk, hsame hd⟩)
  · cases (hs.yields.allocated hnew).symm.trans hn
  · exact .inr (.inr ⟨s, ho, hbefore s hk, (hs.yields.copied ho).symm.trans hn⟩)

/-- What is held at the end of a run is null iff it is stale. The receiver is not null at first. -/
theorem null_iff_stale (hrun : g.IsRun (run ++ [v])) (hthis : g.HasReceiver (run ++ [v]))
    (hr : Held g (f.state.metAt v.quad.id) r) : v.nulls r = true ↔ g.Stale (run ++ [v]) r := by
  refine ⟨fun hn => ?_, fun hs => hs.null hrun List.getLast?_concat⟩
  induction run using List.reverseRecOn generalizing v r with
  | nil =>
    obtain ⟨hv, he⟩ := Graph.isRun_singleton.1 hrun
    rcases hr with hr | ⟨hi, rfl⟩
    · exact absurd hr (notMem_metAt_of_enters h hv he)
    · cases (hthis hi v rfl).symm.trans hn
  | append_singleton run u ih =>
    have hrun' := (Graph.isRun_concat_concat.1 hrun).1
    have hthis' := hthis.of_concat
    rcases vouches_or_held h hm hw hrun hr hn with hv | ⟨hd, hk, hu⟩ | ⟨s, ho, hk, hu⟩
    · exact .written hv hn
    · exact .kept hd (ih hrun' hthis' hk hu)
    · exact .copied ho (ih hrun' hthis' hk hu)

/-- Where a run arrives at a check that is taken to be redundant, the source is null iff it is stale. -/
theorem null_iff_stale_of_flagged (hrun : g.IsRun (run ++ [v])) (hthis : g.HasReceiver (run ++ [v]))
    (hf : v.quad.id ∈ f.flagged) :
    ∃ r, v.quad.op.checked? = some r ∧ (v.nulls r = true ↔ g.Stale (run ++ [v]) r) := by
  have hv : v.quad ∈ g.quads := hrun.mem (by simp)
  obtain ⟨r, hr, hk⟩ := (mem_flagged_iff h hw.quads_nodup hv).1 hf
  refine ⟨r, hr, ?_⟩
  rw [known, factsOf, hm] at hk
  rcases mem_learn.1 hk with hk | hk | hk | ⟨s, hk, -⟩
  · have hn := hrun.null_eq_false_of_branchFacts hw hk
    refine ⟨fun hn' => ?_, fun hs => hs.null hrun List.getLast?_concat⟩
    cases hn.symm.trans hn'
  · exact null_iff_stale h hm hw hrun hthis (hk.imp_left fun hk => (Registers.mem_eraseAll.1 hk).1)
  · cases (Operator.allocated?_of_checked? hr).symm.trans hk
  · rw [hk] at hr
    cases hr

/-- Where no quad vouches for what it writes, a check that is taken to be redundant cannot fail. -/
theorem nonNull_of_not_vouches (hv : ∀ q ∈ g.quads, ∀ r, ¬ g.Vouches q r)
    (hrun : g.IsRun (run ++ [v])) (hthis : g.HasReceiver (run ++ [v])) (hf : v.quad.id ∈ f.flagged) :
    ∃ r, v.quad.op.checked? = some r ∧ v.nulls r = false := by
  obtain ⟨r, hr, hiff⟩ := null_iff_stale_of_flagged h hm hw hrun hthis hf
  refine ⟨r, hr, ?_⟩
  rw [← Bool.not_eq_true, hiff]
  intro hs
  obtain ⟨u, hu, s, hus⟩ := hs.exists_vouches
  exact hv u.quad (hrun.mem hu) s hus

end

/-- Extended elimination in a static method: where a run arrives at a check that is marked redundant,
the source is not null unless it is stale. -/
theorem redundant_check_nonNull_iff (g : Graph) (hw : g.WellFormed) (hs : g.method.isStatic = true)
    {m : NullCheckMode} (hm : m.extended = true) {n : Nat} {w : Progress Registers}
    (h : (Progress.start (.nullCheck m)).solve g = (.ok n, w)) {run : List Visit} {v : Visit}
    (hrun : g.IsRun (run ++ [v])) (hf : v.quad.id ∈ w.findings.flagged) :
    ∃ r, v.quad.op.checked? = some r ∧ (v.nulls r = false ↔ ¬ g.Stale (run ++ [v]) r) := by
  obtain ⟨hf', -⟩ := solved_of_solve hw.quads_nodup h
  have hthis : g.HasReceiver (run ++ [v]) := by
    intro hi
    rw [hs] at hi
    cases hi
  obtain ⟨r, hr, hiff⟩ := null_iff_stale_of_flagged hf' hm hw hrun hthis hf
  exact ⟨r, hr, by rw [← hiff, Bool.not_eq_true]⟩

/-- Only `R0` is null. -/
def nullR0 : Nulls := (· == "R0")

/-- The arm that learns that `R0` is not null begins with overwriting it. -/
def overwrittenArm : Graph := ⟨⟨"arm", 1, true⟩,
  [(.entry, ⟨.entry, [], [⟨2⟩], some ⟨2⟩⟩), (.exit, .empty .exit),
   (⟨2⟩, ⟨⟨2⟩, [⟨1, .ifCmp .eq (.reg "R0") .null ⟨4⟩⟩], [⟨3⟩, ⟨4⟩], some ⟨3⟩⟩),
   (⟨3⟩, ⟨⟨3⟩, [⟨2, .move "R0" .null⟩, ⟨3, .nullCheck none (.reg "R0")⟩], [.exit], some .exit⟩),
   (⟨4⟩, ⟨⟨4⟩, [⟨4, .ret none⟩], [.exit], some .exit⟩)], 5⟩

/-- Through the arm, to the check. -/
def overwrittenArmRun : List Visit :=
  [⟨⟨1, .ifCmp .eq (.reg "R0") .null ⟨4⟩⟩, fun _ => false⟩, ⟨⟨2, .move "R0" .null⟩, fun _ => false⟩] ++
    [⟨⟨3, .nullCheck none (.reg "R0")⟩, nullR0⟩]

theorem overwrittenArm_isRun : overwrittenArm.IsRun overwrittenArmRun := by
  have h₀ : overwrittenArm.quadEdges.predecessors 1 = [none] := by decide +kernel
  have h₁ : overwrittenArm.quadEdges.successors 1 = [some 2, some 4] := by decide +kernel
  have h₂ : overwrittenArm.quadEdges.successors 2 = [some 3] := by decide +kernel
  show overwrittenArm.IsRun ([] ++ [_] ++ [_] ++ [_])
  refine Graph.isRun_concat_concat.2 ⟨Graph.isRun_concat_concat.2 ⟨Graph.isRun_singleton.2 ?_, ?_, ?_⟩, ?_, ?_⟩
  · exact ⟨by decide, by rw [Graph.Enters, h₀]; decide⟩
  · exact ⟨by decide, by rw [Graph.Flows, h₁]; decide⟩
  · refine ⟨⟨fun _ _ => rfl, trivial⟩, fun x k hk hl => ?_⟩
    simp only [overwrittenArm, List.mem_cons, Prod.mk.injEq, List.not_mem_nil, or_false] at hk
    rcases hk with ⟨rfl, rfl⟩ | ⟨rfl, rfl⟩ | ⟨rfl, rfl⟩ | ⟨rfl, rfl⟩ | ⟨rfl, rfl⟩ <;> cases hl
    refine ⟨⟨3⟩, .head _, ?_, ⟨3⟩, _, .tail _ (.tail _ (.tail _ (.head _))), rfl, .refl⟩
    rintro _ ⟨⟩ _ _ _ ⟨⟩ _ ⟨⟩
    exact .inr (.inl ⟨rfl, rfl⟩)
  · exact ⟨by decide, by rw [Graph.Flows, h₂]; decide⟩
  · refine ⟨⟨fun r hr => ?_, rfl⟩, fun x k hk hl => ?_⟩
    · exact beq_false_of_ne fun he => hr (he ▸ .head _)
    · have hinner : ∀ e ∈ overwrittenArm.blocks, e.2.quads.getLast? ≠ some ⟨2, .move "R0" .null⟩ := by
        decide
      exact absurd hl (hinner _ hk)

theorem overwrittenArm_solve : ∃ w,
    (Progress.start (.nullCheck .extendedRemoving)).solve overwrittenArm = (.ok 2, w) ∧
      3 ∈ w.findings.flagged := by
  have hsolve : ((Progress.start (.nullCheck .extendedRemoving)).solve overwrittenArm).1 = .ok 2 := by
    decide +kernel
  exact ⟨_, Prod.ext hsolve rfl, by decide +kernel⟩

theorem overwrittenArm_stale : overwrittenArm.Stale overwrittenArmRun "R0" := by
  obtain ⟨w, hw, hf⟩ := overwrittenArm_solve
  obtain ⟨r, hr, hiff⟩ :=
    redundant_check_nonNull_iff overwrittenArm (by decide) rfl rfl hw overwrittenArm_isRun hf
  obtain rfl : "R0" = r := Option.some.inj hr
  by_contra h
  cases hiff.2 h

theorem overwrittenArm_check_fails : overwrittenArm.WellFormed ∧ overwrittenArm.method.isStatic = true ∧
    ∃ n w run v, (Progress.start (.nullCheck .extendedRemoving)).solve overwrittenArm = (.ok n, w) ∧
      overwrittenArm.IsRun (run ++ [v]) ∧ v.quad.id ∈ w.findings.flagged ∧
        v.quad.op.checked? = some "R0" ∧ v.nulls "R0" = true := by
  obtain ⟨w, hw, hf⟩ := overwrittenArm_solve
  exact ⟨by decide, rfl, 2, w, _, _, hw, overwrittenArm_isRun, hf, rfl, rfl⟩

/-- Extended elimination in a method without comparisons: where a path along which nullness evolves as
the operators say, from a receiver that is not null, arrives at a check that is removed, the source is
not null unless it is stale. -/
theorem removed_check_nonNull_iff (g : Graph) (hw : g.WellFormed)
    (hc : ∀ q ∈ g.quads, q.op.isConditional = false) {round : Nat} {report : PassReport} {g' : Graph}
    (h : (Analysis.nullCheck .extendedRemoving).runPass round g = .ok (report, g'))
    {run : List Visit} {v : Visit} (hp : g.FromEntry ((run ++ [v]).map Visit.quad))
    (hy : (run ++ [v]).IsChain fun a b => a.quad.op.Yields a.nulls b.nulls)
    (hthis : g.method.isStatic = false → ∀ u ∈ (run ++ [v]).head?, u.nulls (Register.param 0) = false)
    (hq : v.quad ∉ g'.quads) :
    ∃ r, v.quad.op.checked? = some r ∧ (v.nulls r = false ↔ ¬ g.Stale (run ++ [v]) r) := by
  have hrun : g.IsRun (run ++ [v]) := Graph.isRun_of_path hw hc hp hy
  obtain ⟨n, w, hs, -, rfl⟩ := Analysis.runPass_ok h
  obtain ⟨hf, ha⟩ := solved_of_solve hw.quads_nodup hs
  rw [Progress.mem_quads_removeQuads (hrun.mem (by simp)), ha] at hq
  have hflag : v.quad.id ∈ w.findings.flagged := by
    by_contra hn
    exact hq fun _ => hn
  obtain ⟨r, hr, hiff⟩ := null_iff_stale_of_flagged hf rfl hw hrun hthis hflag
  exact ⟨r, hr, by rw [← hiff, Bool.not_eq_true]⟩

/-- An instance method that overwrites its receiver. -/
def overwrittenThis : Graph := ⟨⟨"this", 1, false⟩,
  [(.entry, ⟨.entry, [], [⟨2⟩], some ⟨2⟩⟩), (.exit, .empty .exit),
   (⟨2⟩, ⟨⟨2⟩, [⟨1, .move "R0" .null⟩, ⟨2, .nullCheck none (.reg "R0")⟩], [.exit], some .exit⟩)], 3⟩

def overwrittenThisRun : List Visit :=
  [⟨⟨1, .move "R0" .null⟩, fun _ => false⟩] ++ [⟨⟨2, .nullCheck none (.reg "R0")⟩, nullR0⟩]

theorem overwrittenThis_runPass : (Analysis.nullCheck .extendedRemoving).runPass 0 overwrittenThis =
    .ok (⟨"null-check", 0, [2]⟩, overwrittenThis.removeQuads [2]) := by decide +kernel

theorem overwrittenThis_fromEntry : overwrittenThis.FromEntry (overwrittenThisRun.map Visit.quad) := by
  have h₀ : overwrittenThis.quadEdges.predecessors 1 = [none] := by decide +kernel
  have h₁ : overwrittenThis.quadEdges.successors 1 = [some 2] := by decide +kernel
  show overwrittenThis.FromEntry ([] ++ [_] ++ [_])
  refine Graph.fromEntry_concat_concat.2 ⟨Graph.fromEntry_singleton.2 ?_, ?_⟩
  · exact ⟨by decide, by rw [Graph.Enters, h₀]; decide⟩
  · exact ⟨by decide, by rw [Graph.Flows, h₁]; decide⟩

theorem overwrittenThis_yields :
    overwrittenThisRun.IsChain fun a b => a.quad.op.Yields a.nulls b.nulls := by
  refine .cons_cons ⟨fun r hr => ?_, rfl⟩ (.singleton _)
  exact beq_false_of_ne fun he => hr (he ▸ .head _)

theorem overwrittenThis_stale : overwrittenThis.Stale overwrittenThisRun "R0" := by
  obtain ⟨r, hr, hiff⟩ := removed_check_nonNull_iff overwrittenThis (by decide) (by decide)
    overwrittenThis_runPass overwrittenThis_fromEntry overwrittenThis_yields
    (by rintro - _ ⟨⟩; rfl) (by decide)
  obtain rfl : "R0" = r := Option.some.inj hr
  by_contra h
  cases hiff.2 h

theorem overwrittenThis_check_fails : overwrittenThis.WellFormed ∧
    overwrittenThis.method.isStatic = false ∧ (∀ q ∈ overwrittenThis.quads, q.op.isConditional = false) ∧
    ∃ report g' run v, (Analysis.nullCheck .extendedRemoving).runPass 0 overwrittenThis = .ok (report, g') ∧
      overwrittenThis.FromEntry ((run ++ [v]).map Visit.quad) ∧
      (run ++ [v]).IsChain (fun a b => a.quad.op.Yields a.nulls b.nulls) ∧
      (∀ u ∈ (run ++ [v]).head?, u.nulls (Register.param 0) = false) ∧ v.quad ∉ g'.quads ∧
        v.quad.op.checked? = some "R0" ∧ v.nulls "R0" = true :=
  ⟨by decide, rfl, by decide, _, _, _, _, overwrittenThis_runPass, overwrittenThis_fromEntry,
    overwrittenThis_yields, by rintro _ ⟨⟩; rfl, by decide, rfl, rfl⟩

end NullCheck

end Dataflow
