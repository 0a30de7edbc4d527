import Dataflow.Proofs.Analysis.InPlace

/-!
# Every removed quad is reported once

`g.Accounts passes`: each pass lists its quads in ascending order, no quad is listed twice, and all are quads of `g`.
A pass can only list quads of the graph that it ran on, and quads that an earlier pass listed are not there any more
(`RunsPasses.accounts`). So what is left is `g` without the quads that are listed, and their number is the number of
quads that are gone.
-/

namespace Dataflow

/-! ### What an analysis asks to remove -/

namespace Progress

variable {L : Type} {w w' : Progress L} {g : Graph}

theorem pending_ascending (w : Progress L) : w.pending.Pairwise (· < ·) := by
  rw [pending]
  split
  · exact Std.ExtTreeSet.ordered_toList.imp fun h => Nat.compare_eq_lt.1 h
  · exact .nil

/-- Only quads of the graph can be flagged, by a verdict or at the end. -/
theorem mem_quadOrder_of_pending [DecidableEq L] {n : Nat} (hd : g.quadOrder.Nodup)
    (h : w.solve g = (.ok n, w')) (hfinish : ∀ s, ∀ id ∈ w.analysis.finish s g, id ∈ g.quadOrder) :
    ∀ id ∈ w'.pending, id ∈ g.quadOrder := by
  intro id hid
  obtain ⟨f, hf, rfl⟩ := solve_ok hd h
  rcases (mem_finish_flagged _ _ _).1 (mem_pending.1 hid).2 with hid | hid
  · exact hfinish _ id hid
  · obtain ⟨q, hq, rfl, -⟩ := hf.flagged id hid
    exact List.mem_map_of_mem hq

end Progress

namespace Graph

variable {g : Graph} {p : PassReport} {ps : List PassReport} {ids : List QuadId}

/-! ### Removing -/

theorem quadOrder_removeQuads (g : Graph) (ids : List QuadId) :
    (g.removeQuads ids).quadOrder = g.quadOrder.filter (· ∉ ids) := by
  rw [quadOrder, quads_removeQuads, quadOrder, List.filter_map]
  rfl

theorem removeQuads_removeQuads (g : Graph) (ids ids' : List QuadId) :
    (g.removeQuads ids).removeQuads ids' = g.removeQuads (ids ++ ids') := by
  simp only [removeQuads, Block.removeQuads, List.map_map, Graph.mk.injEq, true_and, and_true]
  refine List.map_congr_left fun e _ => ?_
  simp [List.filter_filter, Bool.and_comm]

/-- Listing distinct quads of the graph, removal takes as many away. -/
theorem quadCount_removeQuads (hd : g.quadOrder.Nodup) (hn : ids.Nodup) (hs : ∀ id ∈ ids, id ∈ g.quadOrder) :
    (g.removeQuads ids).quadCount + ids.length = g.quadCount := by
  have hcount : ∀ g : Graph, g.quadCount = g.quadOrder.length := fun g => (List.length_map ..).symm
  have hgone : (g.quadOrder.filter (· ∈ ids)).Perm ids := by
    refine (List.perm_ext_iff_of_nodup (hd.filter _) hn).2 fun id => ?_
    rw [List.mem_filter, decide_eq_true_eq]
    exact and_iff_right_of_imp (hs id)
  have hsum := g.quadOrder.length_eq_length_filter_add (· ∈ ids)
  simp only [hgone.length_eq, ← decide_not] at hsum
  rw [hcount, hcount, quadOrder_removeQuads]
  omega

theorem afterPasses_eq_removeQuads (g : Graph) (ps : List PassReport) :
    g.afterPasses ps = g.removeQuads (ps.flatMap (·.removed)) := by
  induction ps generalizing g with
  | nil => exact removeQuads_nil.symm
  | cons p ps ih =>
    show (g.removeQuads p.removed).afterPasses ps = _
    rw [ih, removeQuads_removeQuads, List.flatMap_cons]

/-! ### One pass -/

theorem RunsPass.removed (hd : g.quadOrder.Nodup) (h : g.RunsPass p) :
    p.removed.Pairwise (· < ·) ∧ ∀ id ∈ p.removed, id ∈ g.quadOrder := by
  cases h with
  | nullCheck h =>
    obtain ⟨n, w, hs, rfl, -⟩ := Analysis.runPass_ok h
    exact ⟨w.pending_ascending, Progress.mem_quadOrder_of_pending hd hs nofun⟩
  | deadCode h =>
    obtain ⟨n, w, hs, rfl, -⟩ := Analysis.runPass_ok h
    refine ⟨w.pending_ascending, Progress.mem_quadOrder_of_pending hd hs fun s id hid => ?_⟩
    obtain ⟨q, hq, rfl⟩ := List.mem_map.1 hid
    exact List.mem_map_of_mem (List.mem_of_mem_filter hq)

/-! ### All passes -/

/-- The passes list quads of `g`, each once, and each pass in ascending order. -/
structure Accounts (g : Graph) (ps : List PassReport) : Prop where
  ascending : ∀ p ∈ ps, p.removed.Pairwise (· < ·)
  disjoint : ps.Pairwise fun p p' => p.removed.Disjoint p'.removed
  known : ∀ p ∈ ps, ∀ id ∈ p.removed, id ∈ g.quadOrder

theorem RunsPasses.accounts (hd : g.quadOrder.Nodup) (h : g.RunsPasses ps) : g.Accounts ps := by
  induction h with
  | nil => exact ⟨nofun, .nil, nofun⟩
  | @cons g p ps hp _ ih =>
    obtain ⟨hasc, hknown⟩ := hp.removed hd
    obtain ⟨hasc', hdisj, hknown'⟩ := ih (nodup_removeQuads hd p.removed)
    -- what a later pass lists was still there
    have hlater : ∀ p' ∈ ps, ∀ id ∈ p'.removed, id ∈ g.quadOrder ∧ id ∉ p.removed := by
      intro p' hp' id hid
      have hmem := hknown' p' hp' id hid
      rw [quadOrder_removeQuads, List.mem_filter, decide_eq_true_eq] at hmem
      exact hmem
    refine ⟨List.forall_mem_cons.2 ⟨hasc, hasc'⟩, List.pairwise_cons.2 ⟨fun p' hp' => ?_, hdisj⟩,
      List.forall_mem_cons.2 ⟨hknown, fun p' hp' id hid => (hlater p' hp' id hid).1⟩⟩
    intro id hid hid'
    exact (hlater p' hp' id hid').2 hid

theorem Accounts.nodup (h : g.Accounts ps) : (ps.flatMap (·.removed)).Nodup := by
  refine List.nodup_flatMap.2 ⟨fun p hp => ?_, h.disjoint⟩
  exact (h.ascending p hp).imp Nat.ne_of_lt

theorem Accounts.mem_quadOrder (h : g.Accounts ps) : ∀ id ∈ ps.flatMap (·.removed), id ∈ g.quadOrder := by
  intro id hid
  obtain ⟨p, hp, hid⟩ := List.mem_flatMap.1 hid
  exact h.known p hp id hid

end Graph

/-! ### The result -/

/-- An optimization that succeeds reports each quad that it removed, once and in one pass, and nothing else. What is
left is the graph without these quads: the same blocks in the same order, with the same edges, and in each block the
quads that are not listed, in order and unchanged. -/
theorem optimize_accounts (g : Graph) (hd : g.quadOrder.Nodup) {c : OptimizeSettings} {report : OptimizeReport}
    {g' : Graph} (h : (InPlace.optimize c).on g = (.ok report, g')) :
    (∀ p ∈ report.passes, p.removed.Pairwise (· < ·)) ∧
    (report.passes.Pairwise fun p p' => p.removed.Disjoint p'.removed) ∧
    (∀ p ∈ report.passes, ∀ id ∈ p.removed, id ∈ g.quadOrder) ∧
    g' = { g with blocks := g.blocks.map fun (b, k) =>
      (b, { k with quads := k.quads.filter (·.id ∉ report.passes.flatMap (·.removed)) }) } ∧
    g'.quadCount + report.totalRemoved = g.quadCount := by
  obtain ⟨-, hruns, rfl⟩ := Graph.optimize_ok (InPlace.on_optimize_ok_iff.1 h)
  have ha := hruns.accounts hd
  refine ⟨ha.ascending, ha.disjoint, ha.known, g.afterPasses_eq_removeQuads _, ?_⟩
  rw [Graph.afterPasses_eq_removeQuads]
  exact Graph.quadCount_removeQuads hd ha.nodup ha.mem_quadOrder

theorem guardedTwice_accounts : ([2] : List QuadId).Disjoint [3] ∧
    (guardedTwice.removeQuads [2, 3]).blocks = guardedTwice.blocks.map (fun (b, k) =>
      (b, { k with quads := k.quads.filter (·.id ∉ [2, 3]) })) ∧
    (guardedTwice.removeQuads [2, 3]).quadCount + 2 = guardedTwice.quadCount := by
  obtain ⟨-, hdisj, -, hleft, hcount⟩ :=
    optimize_accounts guardedTwice (by decide) (InPlace.on_optimize_ok_iff.2 guardedTwice_optimize)
  have hpair := List.pairwise_pair.1 hdisj
  exact ⟨hpair, congrArg Graph.blocks hleft, hcount⟩

end Dataflow
