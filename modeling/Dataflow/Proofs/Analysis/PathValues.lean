import Dataflow.Proofs.Analysis.DefUse

/-!
# Values that are statements about paths

`g.LiveAt q r`: some path leads from `q` to a quad that reads `r`, and no quad before the last writes `r`. The
path may be `q` alone, so this is what holds before `q`, where `LiveAfter` is what holds behind it; the two are
one step apart (`liveAt_iff`, `liveAfter_iff_liveAt`). With both, every value of the two analyses that gather is a
statement about paths: before and after each quad, and where the analysis ends, which is the entry of the method
for live registers and its exit for reaching definitions (`Gathers.mem_sink`).
-/

namespace Dataflow

namespace Graph

variable {g : Graph} {q : Quad} {r : Register}

/-- Some path leads from `q` to a quad that reads `r`, and no quad on it before that one writes `r`. -/
def LiveAt (g : Graph) (q : Quad) (r : Register) : Prop :=
  ∃ before u, g.IsPath (before ++ [u]) ∧ (before ++ [u]).head? = some q ∧ r ∈ u.uses ∧
    ∀ d ∈ before, r ∉ d.defs

theorem liveAt_iff (hq : q ∈ g.quads) : g.LiveAt q r ↔ r ∈ q.uses ∨ g.LiveAfter q r ∧ r ∉ q.defs := by
  constructor
  · rintro ⟨before, u, hp, hhead, hu, hb⟩
    cases before with
    | nil =>
      obtain rfl : u = q := Option.some.inj hhead
      exact .inl hu
    | cons d before =>
      obtain rfl : d = q := Option.some.inj hhead
      exact .inr ⟨⟨before, u, hp, hu, fun x hx => hb x (List.mem_cons_of_mem d hx)⟩, hb d List.mem_cons_self⟩
  · rintro (hu | ⟨⟨between, u, hp, hu, hb⟩, hdef⟩)
    · exact ⟨[], q, ⟨by simpa using hq, .singleton q⟩, rfl, hu, by simp⟩
    · exact ⟨q :: between, u, hp, rfl, hu, List.forall_mem_cons.2 ⟨hdef, hb⟩⟩

theorem liveAfter_iff_liveAt (hq : q ∈ g.quads) :
    g.LiveAfter q r ↔ ∃ x ∈ g.quads, g.Flows q x ∧ g.LiveAt x r := by
  constructor
  · rintro ⟨between, u, hp, hu, hb⟩
    have hne : between ++ [u] ≠ [] := by simp
    obtain ⟨x, hx⟩ : ∃ x, (between ++ [u]).head? = some x := ⟨_, List.head?_eq_some_head hne⟩
    have hflows : g.Flows q x := (List.isChain_cons.1 hp.flows).1 x hx
    exact ⟨x, hp.tail.mem x (List.mem_of_head? hx), hflows, between, u, hp.tail, hx, hu, hb⟩
  · rintro ⟨x, hx, hflows, h⟩
    exact liveAfter_of_flows hq hx hflows ((liveAt_iff hx).1 h)

/-! ### The ends of a method -/

theorem mem_entryQuads (hq : q ∈ g.quads) : q.id ∈ g.quadEdges.entryQuads ↔ g.Enters q := by
  rw [QuadEdges.entryQuads, quadEdges_order, List.mem_filter, decide_eq_true_eq]
  exact and_iff_right (List.mem_map_of_mem hq)

theorem mem_exitQuads (hq : q ∈ g.quads) : q.id ∈ g.quadEdges.exitQuads ↔ g.Exits q := by
  rw [QuadEdges.exitQuads, quadEdges_order, List.mem_filter, decide_eq_true_eq]
  exact and_iff_right (List.mem_map_of_mem hq)

end Graph

/-! ### Live registers -/

namespace Liveness

variable {g : Graph} {n : Nat} {f : Findings Registers} {q : Quad} {r : Register} (hd : g.quadOrder.Nodup)
  (h : (problem g).solve g = (.settled n, f))
include hd h

theorem mem_inAt_iff (hq : q ∈ g.quads) : r ∈ f.state.inAt q.id ↔ g.LiveAt q r := by
  rw [mem_inAt (Problem.solve_solved hd h) hq, mem_outAt_iff hd h hq, Graph.liveAt_iff hq]

theorem mem_entry_iff : r ∈ f.state.entry ↔ ∃ q ∈ g.quads, g.Enters q ∧ g.LiveAt q r := by
  have hdir := (Problem.solve_solved hd h).direction
  have hentry : f.state.entry = f.state.sink := by
    rw [FlowState.entry, hdir]
    rfl
  rw [hentry, (gathers g).mem_sink h]
  refine exists_congr fun q => and_congr_right fun hq => and_congr (Graph.mem_entryQuads hq) ?_
  rw [← FlowState.inAt_of_backward hdir]
  exact mem_inAt_iff hd h hq

end Liveness

/-- Liveness is exact, in either mode: a register is live before a quad iff some path from the quad comes to a use
of it before any quad writes it, live after a quad iff such a path begins at a successor, and live at the entry
iff one begins where flow enters the method. -/
theorem live_iff_path_to_use (g : Graph) (hd : g.quadOrder.Nodup) (removesDead : Bool) :
    ∃ stats w g', (Solver.ofAnalysis (.liveness removesDead)).run g = (.ok stats, ⟨some w⟩, g') ∧
      (∀ q ∈ g.quads, ∀ r, (r ∈ w.state.inAt q.id ↔ g.LiveAt q r) ∧
        (r ∈ w.state.outAt q.id ↔ ∃ x ∈ g.quads, g.Flows q x ∧ g.LiveAt x r)) ∧
      ∀ r, r ∈ w.state.entry ↔ ∃ q ∈ g.quads, g.Enters q ∧ g.LiveAt q r := by
  obtain ⟨n, f₀, hsettled⟩ := (Liveness.descent g).settles hd fun _ _ => rfl
  obtain ⟨stats, w, g', hrun, -⟩ := Solver.run_of_settled (w := .start (.liveness removesDead)) hsettled
  obtain ⟨f, hsolve, hstate⟩ := Solver.run_ok hrun
  refine ⟨stats, w, g', hrun, ?_⟩
  rw [hstate]
  refine ⟨fun q hq r => ⟨Liveness.mem_inAt_iff hd hsolve hq, ?_⟩, fun r => Liveness.mem_entry_iff hd hsolve⟩
  rw [← Graph.liveAfter_iff_liveAt hq]
  exact Liveness.mem_outAt_iff hd hsolve hq

/-- The counter is read again after the loop has gone round through the empty block, and no path from the entry
reads it before it is set. -/
theorem waiting_paths_to_use :
    (∃ x ∈ waiting.quads, waiting.Flows ⟨3, .ifCmp .gt (.reg "T0") (.int 0) ⟨3⟩⟩ x ∧ waiting.LiveAt x "T0") ∧
    ¬ ∃ q ∈ waiting.quads, waiting.Enters q ∧ waiting.LiveAt q "T0" := by
  have hvalues : ((Solver.ofAnalysis (.liveness true)).run waiting).2.1.registered.map
      (fun w => ((w.state.outAt 3).toList, w.state.entry.toList)) = some (["T0"], ["R0"]) := by decide +kernel
  obtain ⟨stats, w, g', hrun, hquads, hentry⟩ := live_iff_path_to_use waiting (by decide) true
  rw [hrun] at hvalues
  obtain ⟨hout, hin⟩ := Prod.mk.inj (Option.some.inj hvalues)
  constructor
  · rw [← (hquads _ (by decide) "T0").2, ← Std.ExtTreeSet.mem_toList, hout]
    decide
  · rw [← hentry, ← Std.ExtTreeSet.mem_toList, hin]
    decide

/-! ### Reaching definitions -/

namespace ReachingDefs

variable {g : Graph} {n : Nat} {f : Findings QuadIds} {d : Quad} (hw : g.WellFormed)
  (h : (problem g).solve g = (.settled n, f))
include hw h

theorem mem_exit_iff (hm : d ∈ g.quads) : d.id ∈ f.state.exit ↔ ∃ r ∈ d.defs, g.Exits d ∨
    ∃ e ∈ g.quads, g.Exits e ∧ r ∉ e.defs ∧ g.Reaches d r e := by
  have hd := hw.quads_nodup
  have hf := Problem.solve_solved hd h
  have hexit : f.state.exit = f.state.sink := by
    rw [FlowState.exit, hf.direction]
    rfl
  rw [hexit, (gathers g).mem_sink h]
  constructor
  · rintro ⟨e, he, hlast, hid⟩
    have hleaves : g.Exits e := (Graph.mem_exitQuads he).1 hlast
    obtain ⟨d', hm', hid', r, hr, hpast⟩ := exists_def_of_mem_resultAt hw h he hid
    obtain rfl := Graph.eq_of_id_eq hd hm' hm hid'
    rcases hpast with rfl | ⟨hreach, hdef⟩
    · exact ⟨r, hr, .inl hleaves⟩
    · exact ⟨r, hr, .inr ⟨e, he, hleaves, hdef, hreach⟩⟩
  · rintro ⟨r, hr, hleaves | ⟨e, he, hleaves, hdef, hreach⟩⟩
    · refine ⟨d, hm, (Graph.mem_exitQuads hm).2 hleaves, ?_⟩
      rw [hf.result d hm]
      exact mem_transfer.2 (.inr ⟨List.ne_nil_of_mem hr, rfl⟩)
    · refine ⟨e, he, (Graph.mem_exitQuads he).2 hleaves, ?_⟩
      rw [hf.result e he]
      exact mem_transfer.2 (.inl ⟨mem_inAt_of_reaches hw hf hr hreach, (survives_iff hd hm hr).2 hdef⟩)

end ReachingDefs

/-- Reaching definitions are exact: a definition is listed before a quad iff some path from it comes to the quad and
no quad between the two writes its register, and listed at the exit iff it leads out of the method itself, or such
a path comes to a quad that does and that does not write the register either. -/
theorem reaching_iff_path_from_def (g : Graph) (hw : g.WellFormed) :
    ∃ stats w, (Solver.ofAnalysis .reachingDefs).run g = (.ok stats, ⟨some w⟩, g) ∧
      ∀ d ∈ g.quads, (∀ q ∈ g.quads, d.id ∈ w.state.inAt q.id ↔ ∃ r ∈ d.defs, g.Reaches d r q) ∧
        (d.id ∈ w.state.exit ↔ ∃ r ∈ d.defs, g.Exits d ∨
          ∃ e ∈ g.quads, g.Exits e ∧ r ∉ e.defs ∧ g.Reaches d r e) := by
  have hd := hw.quads_nodup
  obtain ⟨n, f, hsolve⟩ := (ReachingDefs.descent g).settles hd fun _ _ => rfl
  obtain ⟨stats, hrun, -⟩ := Solver.run_eq_of_settled (w := .start .reachingDefs) hsolve
  rw [Progress.pending_of_not_removes rfl, Graph.removeQuads_nil] at hrun
  refine ⟨stats, _, hrun, fun d hm => ⟨fun q hq => ⟨?_, ?_⟩, ReachingDefs.mem_exit_iff hw hsolve hm⟩⟩
  · exact ReachingDefs.exists_reaches_of_mem_inAt hw hsolve hm hq
  · rintro ⟨r, hr, hreach⟩
    exact (ReachingDefs.mem_inAt_iff hw hsolve hm hr hq).2 hreach

/-- Also code that no path from the entry comes to sets the counter for the loop; outside only the loop's own value
is seen. -/
theorem waiting_paths_from_def :
    (∃ r ∈ ["T0"], waiting.Reaches ⟨4, .move "T0" .null⟩ r ⟨2, .binary .sub "T0" (.reg "T0") (.int 1)⟩) ∧
    ¬ ∃ e ∈ waiting.quads, waiting.Exits e ∧ "T0" ∉ e.defs ∧
      waiting.Reaches ⟨1, .move "T0" (.reg "R0")⟩ "T0" e := by
  have hvalues : ((Solver.ofAnalysis .reachingDefs).run waiting).2.1.registered.map
      (fun w => ((w.state.inAt 2).toList, w.state.exit.toList)) = some ([1, 2, 4], [2]) := by decide +kernel
  obtain ⟨stats, w, hrun, hdefs⟩ := reaching_iff_path_from_def waiting (by decide)
  rw [hrun] at hvalues
  obtain ⟨hin, hexit⟩ := Prod.mk.inj (Option.some.inj hvalues)
  constructor
  · refine ((hdefs ⟨4, .move "T0" .null⟩ (by decide)).1 _ ?_).1 ?_
    · decide
    rw [← Std.ExtTreeSet.mem_toList, hin]
    decide
  · intro hreach
    have hmem := ((hdefs ⟨1, .move "T0" (.reg "R0")⟩ (by decide)).2).2 ⟨"T0", by decide, .inr hreach⟩
    rw [← Std.ExtTreeSet.mem_toList, hexit] at hmem
    exact absurd hmem (by decide)

end Dataflow
