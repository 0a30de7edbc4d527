import Dataflow.Proofs.Analysis.Passes
import Dataflow.Proofs.Analysis.Solutions
import Dataflow.Proofs.Flow.Gathering

/-!
# Definitions and their uses

`g.Reaches d r q`: some path leads from `d` on to `q`, and no quad between the two writes `r`. Liveness looks for
such paths from their ends, reaching definitions from their starts. Each finds all of them and nothing else:
a register is live after `d` iff `d` reaches a use of it (`Liveness.mem_outAt_iff`), and the definitions that
reach `q` are those with a path to it (`ReachingDefs.mem_inAt_iff`). From a path to a value the induction is on
the quads between; from a value to a path it is on the visits that put the element there.
-/

namespace Dataflow

/-- No quad writes two registers. -/
theorem Quad.eq_of_mem_defs {q : Quad} {r r' : Register} (h : r ∈ q.defs) (h' : r' ∈ q.defs) : r = r' := by
  obtain ⟨id, op⟩ := q
  cases op <;> simp_all [Quad.defs, Operator.defs]

namespace Graph

variable {g : Graph} {d q u x : Quad} {r : Register}

/-- Some path leads from `d` on to `q`, and no quad between the two writes `r`. -/
def Reaches (g : Graph) (d : Quad) (r : Register) (q : Quad) : Prop :=
  ∃ between, g.IsPath (d :: between ++ [q]) ∧ ∀ x ∈ between, r ∉ x.defs

theorem liveAfter_iff_reaches : g.LiveAfter d r ↔ ∃ u, g.Reaches d r u ∧ r ∈ u.uses := by
  constructor
  · rintro ⟨between, u, hp, hu, hb⟩
    exact ⟨u, ⟨between, hp, hb⟩, hu⟩
  · rintro ⟨u, ⟨between, hp, hb⟩, hu⟩
    exact ⟨between, u, hp, hu, hb⟩

namespace Reaches

theorem mem (h : g.Reaches d r q) : d ∈ g.quads ∧ q ∈ g.quads := by
  obtain ⟨between, hp, -⟩ := h
  exact ⟨hp.head, hp.mem q (by simp)⟩

theorem of_flows (hd : d ∈ g.quads) (hq : q ∈ g.quads) (h : g.Flows d q) : g.Reaches d r q := by
  refine ⟨[], ⟨?_, ?_⟩, by simp⟩
  · simp [hd, hq]
  · simp [h]

/-- One quad more at the start. -/
theorem cons (hd : d ∈ g.quads) (hf : g.Flows d x) (hx : r ∉ x.defs) (h : g.Reaches x r q) :
    g.Reaches d r q := by
  obtain ⟨between, ⟨hm, hc⟩, hb⟩ := h
  refine ⟨x :: between, ⟨fun y hy => ?_, List.isChain_cons_cons.2 ⟨hf, hc⟩⟩, fun y hy => ?_⟩
  · rcases List.mem_cons.1 hy with rfl | hy
    · exact hd
    · exact hm y hy
  · rcases List.mem_cons.1 hy with rfl | hy
    · exact hx
    · exact hb y hy

/-- One quad more at the end. -/
theorem snoc (h : g.Reaches d r x) (hx : r ∉ x.defs) (hq : q ∈ g.quads) (hf : g.Flows x q) :
    g.Reaches d r q := by
  obtain ⟨between, ⟨hm, hc⟩, hb⟩ := h
  refine ⟨between ++ [x], ⟨fun y hy => ?_, ?_⟩, fun y hy => ?_⟩
  · rcases List.mem_append.1 hy with hy | hy
    · exact hm y (by simpa using hy)
    · rw [List.mem_singleton.1 hy]
      exact hq
  · have hcons : d :: (between ++ [x]) ++ [q] = d :: between ++ [x] ++ [q] := by simp
    rw [hcons]
    exact isChain_concat_concat.2 ⟨hc, hf⟩
  · rcases List.mem_append.1 hy with hy | hy
    · exact hb y hy
    · rw [List.mem_singleton.1 hy]
      exact hx

/-- What reaches the end of a quad reaches the next. -/
theorem of_past (hp : d = x ∨ g.Reaches d r x ∧ r ∉ x.defs) (hx : x ∈ g.quads) (hq : q ∈ g.quads)
    (hf : g.Flows x q) : g.Reaches d r q := by
  rcases hp with rfl | ⟨h, hxd⟩
  · exact .of_flows hx hq hf
  · exact h.snoc hxd hq hf

end Reaches

/-- What is live before a quad is live after the quad before it. -/
theorem liveAfter_of_flows (hq : q ∈ g.quads) (hx : x ∈ g.quads) (hf : g.Flows q x)
    (h : r ∈ x.uses ∨ g.LiveAfter x r ∧ r ∉ x.defs) : g.LiveAfter q r := by
  rw [liveAfter_iff_reaches] at h ⊢
  rcases h with huse | ⟨⟨u, hreach, hu⟩, hdef⟩
  · exact ⟨x, .of_flows hq hx hf, huse⟩
  · exact ⟨u, hreach.cons hq hf hdef, hu⟩

end Graph

variable {g : Graph} {d q : Quad} {r : Register}

/-! ### Live registers -/

namespace Liveness

theorem gathers (g : Graph) : (problem g).Gathers := ⟨rfl, rfl, rfl⟩

/-- Where a register is in a result, the quad reads it, or hands it on to a quad that does. -/
theorem uses_or_liveAfter_of_mem_resultAt (hd : g.quadOrder.Nodup) {n : Nat} {f : Findings Registers}
    (h : (problem g).solve g = (.settled n, f)) (hq : q ∈ g.quads) (hr : r ∈ f.state.resultAt q.id) :
    r ∈ q.uses ∨ g.LiveAfter q r ∧ r ∉ q.defs := by
  refine (gathers g).of_mem_resultAt hd (P := fun q r => r ∈ q.uses ∨ g.LiveAfter q r ∧ r ∉ q.defs)
    (fun q hq s hs r hr => ?_) h hq hr
  refine (mem_transfer.1 hr).imp_right fun ⟨hr, hdef⟩ => ⟨?_, hdef⟩
  obtain ⟨x, hx, hflows, hxr⟩ := hs r hr
  exact Graph.liveAfter_of_flows hq hx hflows hxr

theorem mem_outAt_iff (hd : g.quadOrder.Nodup) {n : Nat} {f : Findings Registers}
    (h : (problem g).solve g = (.settled n, f)) (hq : q ∈ g.quads) :
    r ∈ f.state.outAt q.id ↔ g.LiveAfter q r := by
  have hf := Problem.solve_solved hd h
  constructor
  · intro hr
    rw [FlowState.outAt_of_backward hf.direction, (gathers g).mem_metAt hd hf hq] at hr
    obtain ⟨x, hx, hflows, hr⟩ := hr
    exact Graph.liveAfter_of_flows hq hx hflows (uses_or_liveAfter_of_mem_resultAt hd h hx hr)
  · exact mem_outAt_of_liveAfter hf

end Liveness

/-! ### Reaching definitions -/

namespace ReachingDefs

theorem gathers (g : Graph) : (problem g).Gathers := ⟨rfl, rfl, rfl⟩

/-- A quad stops a definition iff it writes the same register. -/
theorem survives_iff (hd : g.quadOrder.Nodup) (hm : d ∈ g.quads) (hr : r ∈ d.defs) :
    (∀ r' ∈ q.defs, d.id ∉ g.defTable.sites r') ↔ r ∉ q.defs := by
  constructor
  · intro h hq
    exact h r hq ((g.mem_defSites r d.id).2 ⟨d, hm, rfl, hr⟩)
  · intro h r' hr' hsite
    obtain ⟨d', hm', hid, hdef⟩ := (g.mem_defSites r' d.id).1 hsite
    obtain rfl := Graph.eq_of_id_eq hd hm' hm hid
    exact h (Quad.eq_of_mem_defs hdef hr ▸ hr')

theorem mem_inAt_of_reaches (hw : g.WellFormed) {f : Findings QuadIds}
    (h : (problem g).Solved g.quadEdges g.quads f) (hr : r ∈ d.defs) (hreach : g.Reaches d r q) :
    d.id ∈ f.state.metAt q.id := by
  have hd := hw.quads_nodup
  obtain ⟨between, hp, hb⟩ := hreach
  -- what leaves a quad before `q` arrives at `q`
  have harrives : ∀ {x q : Quad}, x ∈ g.quads → q ∈ g.quads → g.Flows x q →
      d.id ∈ f.state.resultAt x.id → d.id ∈ f.state.metAt q.id := fun hx hq hflows hid =>
    ((gathers g).mem_metAt hd h hq).2 ⟨_, hx, hw.mem_predecessors_of_flows hx hq hflows, hid⟩
  induction between using List.reverseRecOn generalizing q with
  | nil =>
    have hflows : g.Flows d q := (List.isChain_cons_cons.1 hp.flows).1
    refine harrives hp.head hp.tail.head hflows ?_
    rw [h.result d hp.head]
    exact mem_transfer.2 (.inr ⟨List.ne_nil_of_mem hr, rfl⟩)
  | append_singleton between x ih =>
    have hcons : d :: (between ++ [x]) ++ [q] = d :: between ++ [x] ++ [q] := by simp
    rw [hcons] at hp
    obtain ⟨hc, hflows⟩ := isChain_concat_concat.1 hp.flows
    have hx : x ∈ g.quads := hp.mem x (by simp)
    have hmet : d.id ∈ f.state.metAt x.id :=
      ih ⟨fun y hy => hp.mem y (List.mem_append_left _ hy), hc⟩ fun y hy => hb y (by simp [hy])
    refine harrives hx (hp.mem q (by simp)) hflows ?_
    rw [h.result x hx]
    exact mem_transfer.2 (.inl ⟨hmet, (survives_iff hd hp.head hr).2 (hb x (by simp))⟩)

/-- Where a definition is in a result, the quad makes it, or a path leads from it to the quad. -/
theorem exists_def_of_mem_resultAt (hw : g.WellFormed) {n : Nat} {f : Findings QuadIds}
    (h : (problem g).solve g = (.settled n, f)) (hq : q ∈ g.quads) {id : QuadId}
    (hid : id ∈ f.state.resultAt q.id) :
    ∃ d ∈ g.quads, d.id = id ∧ ∃ r ∈ d.defs, d = q ∨ g.Reaches d r q ∧ r ∉ q.defs := by
  have hd := hw.quads_nodup
  refine (gathers g).of_mem_resultAt hd
    (P := fun q id => ∃ d ∈ g.quads, d.id = id ∧ ∃ r ∈ d.defs, d = q ∨ g.Reaches d r q ∧ r ∉ q.defs)
    (fun q hq s hs id hid => ?_) h hq hid
  rcases mem_transfer.1 hid with ⟨hid, hkept⟩ | ⟨hne, rfl⟩
  · obtain ⟨x, hx, hpred, d, hm, rfl, r, hr, hdx⟩ := hs id hid
    have hflows := hw.flows_of_mem_predecessors hx hq hpred
    exact ⟨d, hm, rfl, r, hr, .inr ⟨.of_past hdx hx hq hflows, (survives_iff hd hm hr).1 hkept⟩⟩
  · obtain ⟨r, hr⟩ := List.exists_mem_of_ne_nil _ hne
    exact ⟨q, hq, rfl, r, hr, .inl rfl⟩

theorem inAt_eq_metAt {f : Findings QuadIds} (h : (problem g).Solved g.quadEdges g.quads f) (id : QuadId) :
    f.state.inAt id = f.state.metAt id := by
  rw [FlowState.inAt, h.direction]
  rfl

/-- A definition that is listed before a quad has a register, and a path to the quad on which none writes it. -/
theorem exists_reaches_of_mem_inAt (hw : g.WellFormed) {n : Nat} {f : Findings QuadIds}
    (h : (problem g).solve g = (.settled n, f)) (hm : d ∈ g.quads) (hq : q ∈ g.quads)
    (hid : d.id ∈ f.state.inAt q.id) : ∃ r ∈ d.defs, g.Reaches d r q := by
  have hd := hw.quads_nodup
  have hf := Problem.solve_solved hd h
  rw [inAt_eq_metAt hf] at hid
  obtain ⟨x, hx, hpred, hid⟩ := ((gathers g).mem_metAt hd hf hq).1 hid
  have hflows := hw.flows_of_mem_predecessors hx hq hpred
  obtain ⟨d', hm', he, r, hr, hdx⟩ := exists_def_of_mem_resultAt hw h hx hid
  obtain rfl := Graph.eq_of_id_eq hd hm' hm he
  exact ⟨r, hr, .of_past hdx hx hq hflows⟩

theorem mem_inAt_iff (hw : g.WellFormed) {n : Nat} {f : Findings QuadIds}
    (h : (problem g).solve g = (.settled n, f)) (hm : d ∈ g.quads) (hr : r ∈ d.defs) (hq : q ∈ g.quads) :
    d.id ∈ f.state.inAt q.id ↔ g.Reaches d r q := by
  constructor
  · intro hid
    obtain ⟨r', hr', hreach⟩ := exists_reaches_of_mem_inAt hw h hm hq hid
    obtain rfl := Quad.eq_of_mem_defs hr' hr
    exact hreach
  · intro hreach
    have hf := Problem.solve_solved hw.quads_nodup h
    rw [inAt_eq_metAt hf]
    exact mem_inAt_of_reaches hw hf hr hreach

end ReachingDefs

/-! ### The result -/

/-- Both analyses settle on every graph, and agree there: a register is live after a quad that defines it iff
the definition reaches some quad that uses the register. -/
theorem liveOut_iff_reaches_use (g : Graph) (hw : g.WellFormed) (removesDead : Bool) :
    ∃ stats live g' stats' reaching,
      (Solver.ofAnalysis (.liveness removesDead)).run g = (.ok stats, ⟨some live⟩, g') ∧
      (Solver.ofAnalysis .reachingDefs).run g = (.ok stats', ⟨some reaching⟩, g) ∧
      ∀ d ∈ g.quads, ∀ r ∈ d.defs,
        r ∈ live.state.outAt d.id ↔ ∃ u ∈ g.quads, r ∈ u.uses ∧ d.id ∈ reaching.state.inAt u.id := by
  have hd := hw.quads_nodup
  obtain ⟨n, f, hlive⟩ := (Liveness.descent g).settles hd fun _ _ => rfl
  obtain ⟨n', f', hreaching⟩ := (ReachingDefs.descent g).settles hd fun _ _ => rfl
  obtain ⟨stats, hrun, -⟩ := Solver.run_eq_of_settled (w := .start (.liveness removesDead)) hlive
  obtain ⟨stats', hrun', -⟩ := Solver.run_eq_of_settled (w := .start .reachingDefs) hreaching
  rw [Progress.pending_of_not_removes rfl, Graph.removeQuads_nil] at hrun'
  refine ⟨stats, _, _, stats', _, hrun, hrun', fun d hm r hr => ?_⟩
  show r ∈ f.state.outAt d.id ↔ ∃ u ∈ g.quads, r ∈ u.uses ∧ d.id ∈ f'.state.inAt u.id
  rw [Liveness.mem_outAt_iff hd hlive hm, Graph.liveAfter_iff_reaches]
  constructor
  · rintro ⟨u, hreach, hu⟩
    exact ⟨u, hreach.mem.2, hu, (ReachingDefs.mem_inAt_iff hw hreaching hm hr hreach.mem.2).2 hreach⟩
  · rintro ⟨u, hum, hu, hid⟩
    exact ⟨u, (ReachingDefs.mem_inAt_iff hw hreaching hm hr hum).1 hid, hu⟩

/-- A loop through a block without quads; no path from the entry comes to quad 4. -/
def waiting : Graph := ⟨⟨"waiting", 1, true⟩,
  [(.entry, ⟨.entry, [], [⟨2⟩], some ⟨2⟩⟩), (.exit, .empty .exit),
   (⟨2⟩, ⟨⟨2⟩, [⟨1, .move "T0" (.reg "R0")⟩], [⟨3⟩], some ⟨3⟩⟩),
   (⟨3⟩, ⟨⟨3⟩, [], [⟨4⟩], some ⟨4⟩⟩),
   (⟨4⟩, ⟨⟨4⟩, [⟨2, .binary .sub "T0" (.reg "T0") (.int 1)⟩, ⟨3, .ifCmp .gt (.reg "T0") (.int 0) ⟨3⟩⟩],
      [.exit, ⟨3⟩], some .exit⟩),
   (⟨5⟩, ⟨⟨5⟩, [⟨4, .move "T0" .null⟩], [⟨3⟩], some ⟨3⟩⟩)], 6⟩

theorem waiting_liveOut_iff : ∃ stats live g' stats' reaching,
    (Solver.ofAnalysis (.liveness true)).run waiting = (.ok stats, ⟨some live⟩, g') ∧
    (Solver.ofAnalysis .reachingDefs).run waiting = (.ok stats', ⟨some reaching⟩, waiting) ∧
    ("T0" ∈ live.state.outAt 4 ↔ ∃ u ∈ waiting.quads, "T0" ∈ u.uses ∧ 4 ∈ reaching.state.inAt u.id) := by
  obtain ⟨stats, live, g', stats', reaching, hrun, hrun', h⟩ :=
    liveOut_iff_reaches_use waiting (by decide) true
  exact ⟨stats, live, g', stats', reaching, hrun, hrun',
    h ⟨4, .move "T0" .null⟩ (by decide) "T0" (by decide)⟩

end Dataflow
