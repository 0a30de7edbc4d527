import Dataflow.Proofs.Analysis.Solutions
import Dataflow.Proofs.Graph.Reordering

/-!
# The order of declarations does not matter

The order of blocks decides in which order a sweep visits the quads, and the order of edges which neighbour it
meets first; from there on two runs hold different values until they end. But both end at the greatest solution,
and graphs that differ in order only set the same problem (`Standard.problem_eq`) with the same equations
(`Equations.reordered`), so the values at the end are the same. What an analysis flags depends on these values.
-/

namespace Dataflow

namespace FlowValues

variable {L : Type} {g g' : Graph} {u v : FlowValues L} {P : L → Prop} {R : L → L → Prop}

theorem Within.reordered (hv : v.Within g P) (h : g.Reordered g') : v.Within g' P :=
  ⟨fun q hq => hv.input q (h.mem_quads_iff.2 hq), fun q hq => hv.output q (h.mem_quads_iff.2 hq), hv.entry, hv.exit⟩

theorem Rel.reordered (hv : Rel g R u v) (h : g.Reordered g') : Rel g' R u v :=
  ⟨fun q hq => hv.input q (h.mem_quads_iff.2 hq), fun q hq => hv.output q (h.mem_quads_iff.2 hq), hv.entry, hv.exit⟩

end FlowValues

namespace Problem

variable {L : Type} {p : Problem L} {g g' : Graph} {v v' : FlowValues L} {scope : L → Prop}

theorem MeetLaws.meetAll_perm {meet : L → L → L} (h : MeetLaws meet) (top : L) {vs vs' : List L}
    (hp : vs.Perm vs') : meetAll meet top vs = meetAll meet top vs' := by
  induction hp with
  | nil => rfl
  | cons v hp _ =>
    refine hp.foldl_eq' (fun a _ b _ c => ?_) v
    rw [h.assoc, h.assoc, h.comm a b]
  | swap v w vs =>
    show vs.foldl meet (meet w v) = vs.foldl meet (meet v w)
    rw [h.comm]
  | trans _ _ ih ih' => exact ih.trans ih'

/-! ### Solutions -/

section

variable (hm : MeetLaws p.meet) (h : g.Reordered g') (hb : g.blockIds.Nodup) (hd : g.quadOrder.Nodup)
include hm

theorem IsGreatestSolution.unique (hv : p.IsGreatestSolution g scope v)
    (hv' : p.IsGreatestSolution g scope v') : FlowValues.Rel g (· = ·) v v' := by
  have heq : ∀ {a b}, p.Below a b → p.Below b a → a = b := by
    intro a b hab hba
    exact hab.symm.trans ((hm.comm a b).trans hba)
  have hle := hv'.greatest v hv.solves hv.within
  have hge := hv.greatest v' hv'.solves hv'.within
  exact ⟨fun q hq => heq (hle.input q hq) (hge.input q hq), fun q hq => heq (hle.output q hq) (hge.output q hq),
    heq hle.entry hge.entry, heq hle.exit hge.exit⟩

include h hb hd

theorem Equations.reordered (hv : p.Equations g v) : p.Equations g' v := by
  have hmem : ∀ q ∈ g'.quads, q ∈ g.quads := fun q => h.mem_quads_iff.2
  refine ⟨hv.entry, fun q hq => ?_, fun q hq => hv.output q (hmem q hq), ?_⟩
  · rw [hv.input q (hmem q hq)]
    exact hm.meetAll_perm _ ((h.neighbours_perm hb hd _ (hmem q hq)).map _)
  · rw [hv.exit]
    exact hm.meetAll_perm _ ((h.lastQuads_perm hb hd _).map _)

theorem IsGreatestSolution.reordered (hv : p.IsGreatestSolution g scope v) :
    p.IsGreatestSolution g' scope v := by
  refine ⟨hv.solves.reordered hm h hb hd, hv.within.reordered h, fun u hu hwithin => ?_⟩
  have hsolves : p.SolvedBy g u := Equations.reordered hm h.symm (h.nodup_blockIds hb) (h.nodup_quadOrder hd) hu
  exact (hv.greatest u hsolves (hwithin.reordered h.symm)).reordered h

end

/-! ### Flags, and numbers that no quad has -/

/-- Where it depends on the quad alone which quads are judged, the flags are the final verdicts. -/
theorem Solved.mem_flagged_iff {e : QuadEdges} {quads : List Quad} {f : Findings L} (hf : p.Solved e quads f)
    (hj : ∀ q v v', (p.verdict q v).isSome = (p.verdict q v').isSome) {id : QuadId} : id ∈ f.flagged ↔
      ∃ q ∈ quads, q.id = id ∧ p.verdict q (f.state.metAt id) = some true := by
  constructor
  · intro hid
    obtain ⟨q, hq, rfl, v, hv⟩ := hf.flagged id hid
    obtain ⟨b, hb⟩ : ∃ b, p.verdict q (f.state.metAt q.id) = some b := by
      rw [← Option.isSome_iff_exists, hj q _ v, hv]
      rfl
    have htrue : b = true := (hf.judged q hq b hb).1 hid
    exact ⟨q, hq, rfl, htrue ▸ hb⟩
  · rintro ⟨q, hq, rfl, hv⟩
    exact (hf.judged q hq true hv).2 rfl

theorem top_of_notMem [DecidableEq L] {n : Nat} {f : Findings L} (h : p.solve g = (.settled n, f))
    {id : QuadId} (hid : id ∉ g.quadOrder) : f.state.inAt id = p.top ∧ f.state.outAt id = p.top := by
  obtain ⟨f₀, ht, rfl⟩ := ends_of_solve h
  have hinit : (p.initial g).state.metAt id = p.top := by
    simp [Problem.initial, FlowState.forGraph, FlowState.metAt, Slots.get]
  have htop : f₀.state.metAt id = p.top ∧ f₀.state.resultAt id = p.top := by
    refine ht.induct (I := fun f => f.state.metAt id = p.top ∧ f.state.resultAt id = p.top)
      (fun f q hq hf => ?_) ⟨hinit, initial_resultAt g id⟩
    have hne : q.id ≠ id := fun he => hid (he ▸ List.mem_map_of_mem hq)
    rw [visit_metAt, visit_resultAt, if_neg hne, if_neg hne]
    exact hf
  show f₀.state.inAt id = p.top ∧ f₀.state.outAt id = p.top
  unfold FlowState.inAt FlowState.outAt
  cases f₀.state.direction with
  | forward => exact htop
  | backward => exact htop.symm

end Problem

/-! ### The same problem -/

namespace Graph.Reordered

variable {g g' : Graph} (h : g.Reordered g') (hb : g.blockIds.Nodup)
include h

theorem defTable_sites_eq (r : Register) : g.defTable.sites r = g'.defTable.sites r := by
  refine Std.ExtTreeSet.ext_mem fun id => ?_
  refine (g.mem_defSites r id).trans (Iff.trans ?_ (g'.mem_defSites r id).symm)
  simp only [h.mem_quads_iff]

include hb

theorem branchFact?_eq {k l : Block} (hkl : l.outline = k.outline) : g.branchFact? k = g'.branchFact? l := by
  obtain ⟨hid, hquads, -, -⟩ := Block.outline_eq_iff.1 hkl
  have halone : ∀ b arm : BlockId, g.predecessors arm = [b] ↔ g'.predecessors arm = [b] := by
    intro b arm
    rw [← List.perm_singleton, ← List.perm_singleton]
    exact ⟨(h.predecessors_perm arm).symm.trans, (h.predecessors_perm arm).trans⟩
  simp only [branchFact?, hid, hquads, h.fallthrough_eq hb, h.head?_block?_eq hb, halone]

theorem mem_branchFacts {fact : QuadId × Register} (hf : fact ∈ g.branchFacts) : fact ∈ g'.branchFacts := by
  obtain ⟨⟨b, k⟩, hk, hfact⟩ := List.mem_filterMap.1 hf
  obtain ⟨l, hl, hkl⟩ := h.exists_block hk
  exact List.mem_filterMap.2 ⟨(b, l), hl, h.branchFact?_eq hb hkl ▸ hfact⟩

theorem mem_branchFacts_iff {fact : QuadId × Register} : fact ∈ g.branchFacts ↔ fact ∈ g'.branchFacts :=
  ⟨h.mem_branchFacts hb, h.symm.mem_branchFacts (h.nodup_blockIds hb)⟩

theorem nullCheck_known_eq (m : NullCheckMode) (q : Quad) (s : Registers) :
    NullCheck.known m g (NullCheck.factsOf m g) q s = NullCheck.known m g' (NullCheck.factsOf m g') q s := by
  refine Std.ExtTreeSet.ext_mem fun r => ?_
  cases hm : m.extended with
  | false => rw [NullCheck.mem_known_of_plain hm, NullCheck.mem_known_of_plain hm]
  | true =>
    simp only [NullCheck.known, NullCheck.factsOf, hm, ↓reduceIte, NullCheck.mem_learn, NullCheck.Held,
      h.mem_branchFacts_iff hb, h.method_eq]

theorem nullCheck_problem_eq (m : NullCheckMode) : NullCheck.problem m g = NullCheck.problem m g' := by
  have hknown := h.nullCheck_known_eq hb m
  simp only [NullCheck.factsOf] at hknown
  simp only [NullCheck.problem, h.registers_eq, hknown]

end Graph.Reordered

namespace Analysis.Standard

variable {L : Type} {a : Analysis L} {scope : Graph → L → Prop} {g g' : Graph}

theorem problem_eq (ha : a.Standard scope) (h : g.Reordered g') (hb : g.blockIds.Nodup) :
    a.problem g = a.problem g' := by
  cases ha with
  | liveness removesDead =>
    show Liveness.problem g = Liveness.problem g'
    rw [Liveness.problem, Liveness.problem, h.registers_eq]
  | faintness =>
    show Faintness.problem g = Faintness.problem g'
    rw [Faintness.problem, Faintness.problem, h.registers_eq]
  | reachingDefs =>
    show ReachingDefs.problem g = ReachingDefs.problem g'
    have htransfer : ReachingDefs.transfer g.defTable = ReachingDefs.transfer g'.defTable := by
      funext q s
      simp only [ReachingDefs.transfer, h.defTable_sites_eq]
    simp only [ReachingDefs.problem, htransfer, h.quadCount_eq]
  | constantProp =>
    show ConstantProp.problem g = ConstantProp.problem g'
    rw [ConstantProp.problem, ConstantProp.problem, h.registers_eq, h.method_eq]
  | nullCheck m => exact h.nullCheck_problem_eq hb m

theorem scope_eq (ha : a.Standard scope) (h : g.Reordered g') : scope g = scope g' := by
  funext s
  cases ha with
  | liveness removesDead => simp only [h.registers_eq]
  | faintness => simp only [h.registers_eq]
  | reachingDefs => simp only [h.quadOrder_perm.mem_iff]
  | constantProp => simp only [h.registers_eq]
  | nullCheck m => simp only [h.registers_eq, h.method_eq]

theorem verdict_isSome (ha : a.Standard scope) (g : Graph) (q : Quad) (v v' : L) :
    ((a.problem g).verdict q v).isSome = ((a.problem g).verdict q v').isSome := by
  cases ha with
  | liveness removesDead => rfl
  | faintness => rfl
  | reachingDefs => rfl
  | constantProp => rfl
  | nullCheck m =>
    show (q.op.checked?.map _).isSome = (q.op.checked?.map _).isSome
    rw [Option.isSome_map, Option.isSome_map]

theorem mem_finish (ha : a.Standard scope) (h : g.Reordered g') {s s' : FlowState L}
    (hs : ∀ id, s.outAt id = s'.outAt id) (id : QuadId) : id ∈ a.finish s g ↔ id ∈ a.finish s' g' := by
  cases ha with
  | liveness removesDead =>
    have hdead : Liveness.isDead s = Liveness.isDead s' := by
      funext q
      rw [Liveness.isDead, Liveness.isDead, hs]
    show id ∈ (if removesDead then (g.quads.filter (Liveness.isDead s)).map (·.id) else []) ↔
      id ∈ (if removesDead then (g'.quads.filter (Liveness.isDead s')).map (·.id) else [])
    rw [hdead]
    split
    · exact ((h.quads_perm.filter _).map _).mem_iff
    · exact Iff.rfl
  | faintness => exact Iff.rfl
  | reachingDefs => exact Iff.rfl
  | constantProp => exact Iff.rfl
  | nullCheck m => exact Iff.rfl

/-! ### The same findings -/

section

variable [DecidableEq L] (ha : a.Standard scope) (h : g.Reordered g') (hb : g.blockIds.Nodup)
  (hd : g.quadOrder.Nodup) {n n' : Nat} {f f' : Findings L}
include ha hd

theorem isGreatestSolution (hs : (a.problem g).solve g = (.settled n, f)) :
    (a.problem g).IsGreatestSolution g (scope g) f.state.values := by
  obtain ⟨E⟩ := ha.nonempty_exact g
  obtain ⟨f₀, hends, rfl⟩ := Problem.ends_of_solve hs
  exact E.isGreatestSolution hd hends

include h hb

theorem values_eq (hs : (a.problem g).solve g = (.settled n, f))
    (hs' : (a.problem g').solve g' = (.settled n', f')) : f.state.values = f'.state.values := by
  have hb' := h.nodup_blockIds hb
  have hd' := h.nodup_quadOrder hd
  have hlaws : Problem.MeetLaws (a.problem g).meet := by
    obtain ⟨E⟩ := ha.nonempty_exact g
    exact E.laws
  have hv' := ha.isGreatestSolution hd' hs'
  rw [← ha.problem_eq h hb, ← ha.scope_eq h] at hv'
  obtain ⟨hin, hout, hentry, hexit⟩ :=
    (ha.isGreatestSolution hd hs).unique hlaws (hv'.reordered hlaws h.symm hb' hd')
  have hall : ∀ id, f.state.inAt id = f'.state.inAt id ∧ f.state.outAt id = f'.state.outAt id := by
    intro id
    by_cases hid : id ∈ g.quadOrder
    · obtain ⟨q, hq, rfl⟩ := List.mem_map.1 hid
      exact ⟨hin q hq, hout q hq⟩
    · -- what no quad has as its number keeps `top` in both
      obtain ⟨htop, htop'⟩ := Problem.top_of_notMem hs hid
      obtain ⟨hi, ho⟩ := Problem.top_of_notMem hs' (mt h.quadOrder_perm.mem_iff.2 hid)
      rw [htop, htop', hi, ho, ha.problem_eq h hb]
      exact ⟨rfl, rfl⟩
  simp only [FlowState.values, FlowValues.mk.injEq]
  exact ⟨funext fun id => (hall id).1, funext fun id => (hall id).2, hentry, hexit⟩

theorem flagged_eq (hs : (a.problem g).solve g = (.settled n, f))
    (hs' : (a.problem g').solve g' = (.settled n', f')) : f.flagged = f'.flagged := by
  have hf := Problem.solve_solved hd hs
  have hf' := Problem.solve_solved (h.nodup_quadOrder hd) hs'
  have hmet : f.state.metAt = f'.state.metAt := by
    have halong := congrArg (FlowValues.input ∘ (FlowValues.along · (a.problem g).direction))
      (ha.values_eq h hb hd hs hs')
    have hdir' : f'.state.direction = (a.problem g).direction := by rw [hf'.direction, ha.problem_eq h hb]
    simpa only [Function.comp_apply, FlowState.values_along hf.direction,
      FlowState.values_along hdir'] using halong
  refine Std.ExtTreeSet.ext_mem fun id => ?_
  rw [hf.mem_flagged_iff (ha.verdict_isSome g), hf'.mem_flagged_iff (ha.verdict_isSome g'), hmet,
    ha.problem_eq h hb]
  simp only [h.mem_quads_iff]

theorem pending_eq (hs : (a.problem g).solve g = (.settled n, f))
    (hs' : (a.problem g').solve g' = (.settled n', f')) :
    (Progress.finish ⟨a, g, f⟩ g).pending = (Progress.finish ⟨a, g', f'⟩ g').pending := by
  have hout : ∀ id, f.state.outAt id = f'.state.outAt id :=
    congrFun (congrArg FlowValues.output (ha.values_eq h hb hd hs hs'))
  have hflagged : (Progress.finish ⟨a, g, f⟩ g).findings.flagged =
      (Progress.finish ⟨a, g', f'⟩ g').findings.flagged := by
    refine Std.ExtTreeSet.ext_mem fun id => ?_
    rw [Progress.mem_finish_flagged, Progress.mem_finish_flagged]
    exact or_congr (ha.mem_finish h hout id) (by rw [ha.flagged_eq h hb hd hs hs'])
  simp only [Progress.pending, hflagged]
  rfl

end

end Analysis.Standard

/-! ### The result -/

variable {L : Type} [DecidableEq L]

/-- Two graphs that differ in the order of their blocks and edges only are alike to every analysis: it succeeds on
both or on neither, and then the values, the quads to remove and, up to order, the graphs that are left are the
same. -/
theorem run_reordered {w w' : Progress L} {scope : Graph → L → Prop} (ha : w.analysis.Standard scope)
    (hw : w'.analysis = w.analysis) {g g' : Graph} (h : g.Reordered g') (hb : g.blockIds.Nodup)
    (hd : g.quadOrder.Nodup) :
    ((∃ stats, ((Solver.mk (some w)).run g).1 = .ok stats) ↔
      ∃ stats, ((Solver.mk (some w')).run g').1 = .ok stats) ∧
    ∀ stats v left stats' v' left', (Solver.mk (some w)).run g = (.ok stats, ⟨some v⟩, left) →
      (Solver.mk (some w')).run g' = (.ok stats', ⟨some v'⟩, left') →
        v.state.entry = v'.state.entry ∧ v.state.exit = v'.state.exit ∧
        (∀ id, v.state.inAt id = v'.state.inAt id ∧ v.state.outAt id = v'.state.outAt id) ∧
        v.pending = v'.pending ∧ left.Reordered left' := by
  have hd' := h.nodup_quadOrder hd
  have ha' : w'.analysis.Standard scope := hw ▸ ha
  have hp : w'.analysis.problem g' = w.analysis.problem g := by rw [hw, ha.problem_eq h hb]
  refine ⟨?_, fun stats v left stats' v' left' hrun hrun' => ?_⟩
  · rw [ha.run_ok_iff hd, ha'.run_ok_iff hd', hp]
    simp only [h.mem_quads_iff]
  obtain ⟨f, hs, rfl, rfl⟩ := Solver.run_finished hrun
  obtain ⟨f', hs', rfl, rfl⟩ := Solver.run_finished hrun'
  rw [hw] at hs' ⊢
  have hv := ha.values_eq h hb hd hs hs'
  have hpending := ha.pending_eq h hb hd hs hs'
  refine ⟨congrArg FlowValues.entry hv, congrArg FlowValues.exit hv, fun id => ?_, hpending, ?_⟩
  · exact ⟨congrFun (congrArg FlowValues.input hv) id, congrFun (congrArg FlowValues.output hv) id⟩
  · rw [hpending]
    exact h.removeQuads _

/-- A branch on null whose arms both make sure of the register, in one order of declarations. -/
def arms : Graph := ⟨⟨"arms", 1, true⟩,
  [(.entry, ⟨.entry, [], [⟨2⟩], some ⟨2⟩⟩), (.exit, .empty .exit),
   (⟨2⟩, ⟨⟨2⟩, [⟨1, .ifCmp .eq (.reg "R0") .null ⟨4⟩⟩], [⟨3⟩, ⟨4⟩], some ⟨3⟩⟩),
   (⟨3⟩, ⟨⟨3⟩, [⟨2, .nullCheck none (.reg "R0")⟩], [⟨5⟩], some ⟨5⟩⟩),
   (⟨4⟩, ⟨⟨4⟩, [⟨3, .new "R0" "Box"⟩], [⟨5⟩], some ⟨5⟩⟩),
   (⟨5⟩, ⟨⟨5⟩, [⟨4, .nullCheck none (.reg "R0")⟩], [.exit], some .exit⟩)], 6⟩

/-- In another. -/
def armsTurned : Graph := ⟨⟨"arms", 1, true⟩,
  [(.entry, ⟨.entry, [], [⟨2⟩], some ⟨2⟩⟩), (.exit, .empty .exit),
   (⟨5⟩, ⟨⟨5⟩, [⟨4, .nullCheck none (.reg "R0")⟩], [.exit], some .exit⟩),
   (⟨4⟩, ⟨⟨4⟩, [⟨3, .new "R0" "Box"⟩], [⟨5⟩], some ⟨5⟩⟩),
   (⟨3⟩, ⟨⟨3⟩, [⟨2, .nullCheck none (.reg "R0")⟩], [⟨5⟩], some ⟨5⟩⟩),
   (⟨2⟩, ⟨⟨2⟩, [⟨1, .ifCmp .eq (.reg "R0") .null ⟨4⟩⟩], [⟨4⟩, ⟨3⟩], some ⟨3⟩⟩)], 2⟩

theorem arms_reordered : arms.quadOrder = [1, 2, 3, 4] ∧ armsTurned.quadOrder = [4, 3, 2, 1] ∧
    ∃ stats v left stats' v' left',
      (Solver.ofAnalysis (.nullCheck .extendedRemoving)).run arms = (.ok stats, ⟨some v⟩, left) ∧
      (Solver.ofAnalysis (.nullCheck .extendedRemoving)).run armsTurned = (.ok stats', ⟨some v'⟩, left') ∧
      v.pending = v'.pending ∧ ∀ id, v.state.inAt id = v'.state.inAt id := by
  have hr : arms.Reordered armsTurned := by decide +kernel
  have hd : arms.quadOrder.Nodup := by decide
  have ha := Analysis.Standard.nullCheck .extendedRemoving
  have hf : ∀ q ∈ arms.quads, NullCheck.fault q = none := by decide
  have hf' : ∀ q ∈ armsTurned.quads, NullCheck.fault q = none := by decide
  obtain ⟨E⟩ := ha.nonempty_exact arms
  obtain ⟨E'⟩ := ha.nonempty_exact armsTurned
  obtain ⟨n, f, hs⟩ := E.descent.settles hd hf
  obtain ⟨n', f', hs'⟩ := E'.descent.settles (by decide) hf'
  obtain ⟨stats, v, left, hrun, -⟩ := Solver.run_of_settled (w := .start _) hs
  obtain ⟨stats', v', left', hrun', -⟩ := Solver.run_of_settled (w := .start _) hs'
  obtain ⟨-, -, hin, hpending, -⟩ :=
    (run_reordered ha rfl hr (by decide) hd).2 _ _ _ _ _ _ hrun hrun'
  exact ⟨by decide, by decide, stats, v, left, stats', v', left', hrun, hrun', hpending, fun id => (hin id).1⟩

end Dataflow
