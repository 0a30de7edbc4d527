import Dataflow.Proofs.Analysis.Failures
import Dataflow.Proofs.Flow.Shedding

/-!
# Which null checks are redundant

`g.ComesUnchecked r q`: some path leads to `q` on which nobody checks `r`, from the entry or from a quad that writes
`r`. Plain elimination knows `r` at `q` iff there is no such path (`NullCheck.mem_metAt_iff`). Along such a path the
equations alone keep `r` unknown. That there is one wherever `r` is unknown does not follow from the equations,
which a loop can satisfy by believing itself: it follows from the visits, which lose `r` only where a path is.
-/

namespace Dataflow

namespace Graph

variable {g : Graph} {r : Register} {q x : Quad}

/-- Some path leads to `q` on which no quad before `q` checks `r`, and which begins where flow enters the method or
with a quad that writes `r`. -/
def ComesUnchecked (g : Graph) (r : Register) (q : Quad) : Prop :=
  ∃ path, g.IsPath (path ++ [q]) ∧ (∀ x ∈ path, x.op.checked? ≠ some r) ∧
    (g.FromEntry (path ++ [q]) ∨ ∃ d ∈ path.head?, r ∈ d.defs)

/-- `q` checks a register that is not its own guard, and on every path the register has been checked before. -/
def Rechecks (g : Graph) (q : Quad) : Prop :=
  ∃ guard r, q.op = .nullCheck guard (.reg r) ∧ guard ≠ some r ∧ ¬ g.ComesUnchecked r q

namespace ComesUnchecked

theorem of_enters (hq : q ∈ g.quads) (he : g.Enters q) : g.ComesUnchecked r q := by
  have hp : g.FromEntry [q] := fromEntry_singleton.2 ⟨hq, he⟩
  exact ⟨[], hp.toIsPath, by simp, .inl hp⟩

/-- What leaves a quad unchecked comes to the next. -/
theorem of_flows (hx : x ∈ g.quads) (hq : q ∈ g.quads) (hf : g.Flows x q) (hc : x.op.checked? ≠ some r)
    (h : r ∈ x.defs ∨ g.ComesUnchecked r x) : g.ComesUnchecked r q := by
  rcases h with hdef | ⟨path, ⟨hm, hflows⟩, hp, hstart⟩
  · refine ⟨[x], ⟨by simp [hx, hq], by simp [hf]⟩, by simpa using hc, .inr ⟨x, rfl, hdef⟩⟩
  refine ⟨path ++ [x], ⟨?_, isChain_concat_concat.2 ⟨hflows, hf⟩⟩, ?_, hstart.imp ?_ ?_⟩
  · intro y hy
    rcases List.mem_append.1 hy with hy | hy
    · exact hm y hy
    · rw [List.mem_singleton.1 hy]
      exact hq
  · simpa [or_imp, forall_and, hc] using hp
  · intro hentry
    exact fromEntry_concat_concat.2 ⟨hentry, hq, hf⟩
  · rintro ⟨d, hd, hdef⟩
    exact ⟨d, by rw [List.head?_append_of_ne_nil _ (by rintro rfl; cases hd)]; exact hd, hdef⟩

end ComesUnchecked

end Graph

namespace NullCheck

variable {m : NullCheckMode} {g : Graph} {f : Findings Registers} {q : Quad} {r : Register}

theorem sheds (m : NullCheckMode) (g : Graph) : (problem m g).Sheds := rfl

theorem notMem_transfer_of_plain (hm : m.extended = false) {s : Registers} :
    r ∉ (problem m g).transfer q s ↔ q.op.checked? ≠ some r ∧ (r ∉ s ∨ r ∈ q.defs) := by
  rw [mem_transfer, mem_known_of_plain hm, not_or, not_and_or, not_not]

/-- Along a path on which nobody checks it, a register stays unknown. The induction is on the path from its end. -/
theorem notMem_metAt_of_comesUnchecked (hm : m.extended = false) (hw : g.WellFormed)
    (h : (problem m g).Solved g.quadEdges g.quads f) (hu : g.ComesUnchecked r q) : r ∉ f.state.metAt q.id := by
  obtain ⟨path, hp, hc, hstart⟩ := hu
  induction path using List.reverseRecOn generalizing q with
  | nil =>
    rcases hstart with hentry | ⟨d, hd, -⟩
    · obtain ⟨hq, he⟩ := Graph.fromEntry_singleton.1 hentry
      exact notMem_metAt_of_enters h hq he
    · cases hd
  | append_singleton path x ih =>
    obtain ⟨hchain, hflows⟩ := isChain_concat_concat.1 hp.flows
    have hx : x ∈ g.quads := hp.mem x (by simp)
    have hq : q ∈ g.quads := hp.mem q (by simp)
    have hpx : g.IsPath (path ++ [x]) := ⟨fun y hy => hp.mem y (List.mem_append_left _ hy), hchain⟩
    -- the path begins before `x`, or `x` itself writes the register
    have hbefore : r ∉ f.state.metAt x.id ∨ r ∈ x.defs := by
      have hcx : ∀ y ∈ path, y.op.checked? ≠ some r := fun y hy => hc y (List.mem_append_left _ hy)
      rcases hstart with hentry | ⟨d, hd, hdef⟩
      · exact .inl (ih hpx hcx (.inl (Graph.fromEntry_concat_concat.1 hentry).1))
      · cases path with
        | nil =>
          obtain rfl : x = d := Option.some.inj hd
          exact .inr hdef
        | cons y path => exact .inl (ih hpx hcx (.inr ⟨d, hd, hdef⟩))
    have hresult : r ∉ f.state.resultAt x.id := by
      rw [h.result x hx, notMem_transfer_of_plain hm]
      exact ⟨hc x (by simp), hbefore⟩
    exact mt (mem_resultAt_of_flows h hw hx hq hflows) hresult

/-- Where a register of the graph is unknown, a path on which nobody checks it has come. -/
theorem comesUnchecked_of_notMem_metAt (hm : m.extended = false) (hw : g.WellFormed) {n : Nat}
    (h : (problem m g).solve g = (.settled n, f)) (hr : r ∈ g.registers) (hq : q ∈ g.quads)
    (hn : r ∉ f.state.metAt q.id) : g.ComesUnchecked r q := by
  have hd := hw.quads_nodup
  have hf := Problem.solve_solved hd h
  -- what is said of a quad that the register leaves unknown
  let P : Quad → Register → Prop := fun x r => x.op.checked? ≠ some r ∧ (r ∈ x.defs ∨ g.ComesUnchecked r x)
  have hcomes : ∀ r, ∀ q ∈ g.quads, Problem.Sheds.Lost (problem m g) g (P · r) q r → g.ComesUnchecked r q := by
    rintro r q hq (⟨he, -⟩ | ⟨x, hx, hpred, hc, hbefore⟩)
    · exact .of_enters hq he
    · exact .of_flows hx hq (hw.flows_of_mem_predecessors hx hq hpred) hc hbefore
  refine hcomes r q hq ?_
  refine (((sheds m g).notMem_metAt hd hf hq hr).1 hn).imp_right ?_
  rintro ⟨x, hx, hpred, hlost⟩
  refine ⟨x, hx, hpred, (sheds m g).of_notMem_resultAt hd (fun q hq s hs r hr hlost => ?_) h hx hr hlost⟩
  obtain ⟨hc, hbefore⟩ := (notMem_transfer_of_plain hm).1 hlost
  exact ⟨hc, (hbefore.imp_left fun hsr => hcomes r q hq (hs r hr hsr)).symm⟩

theorem mem_metAt_iff (hm : m.extended = false) (hw : g.WellFormed) {n : Nat}
    (h : (problem m g).solve g = (.settled n, f)) (hr : r ∈ g.registers) (hq : q ∈ g.quads) :
    r ∈ f.state.metAt q.id ↔ ¬ g.ComesUnchecked r q := by
  constructor
  · intro hmem hu
    exact notMem_metAt_of_comesUnchecked hm hw (Problem.solve_solved hw.quads_nodup h) hu hmem
  · intro hu
    by_contra hn
    exact hu (comesUnchecked_of_notMem_metAt hm hw h hr hq hn)

theorem mem_registers_of_checked? (hq : q ∈ g.quads) (hc : q.op.checked? = some r) : r ∈ g.registers := by
  obtain ⟨guard, ho⟩ := Operator.eq_nullCheck_of_checked? hc
  refine Graph.mem_registers_of_uses hq ?_
  simp [Quad.uses, ho, Operator.uses, Operator.operands, Operand.register?]

/-- Plain elimination flags exactly the checks that were made before on every path. -/
theorem mem_flagged_iff_rechecks (hm : m.extended = false) (hw : g.WellFormed) {n : Nat}
    (h : (problem m g).solve g = (.settled n, f)) (hq : q ∈ g.quads) : q.id ∈ f.flagged ↔ g.Rechecks q := by
  have hd := hw.quads_nodup
  rw [mem_flagged_iff (Problem.solve_solved hd h) hd hq]
  simp only [mem_known_of_plain hm]
  constructor
  · rintro ⟨r, hc, hmem, hdef⟩
    obtain ⟨guard, ho⟩ := Operator.eq_nullCheck_of_checked? hc
    have hr := mem_registers_of_checked? hq hc
    refine ⟨guard, r, ho, fun hguard => hdef ?_, (mem_metAt_iff hm hw h hr hq).1 hmem⟩
    simp [Quad.defs, ho, Operator.defs, hguard]
  · rintro ⟨guard, r, ho, hguard, hu⟩
    have hc : q.op.checked? = some r := by rw [ho]; rfl
    have hr := mem_registers_of_checked? hq hc
    refine ⟨r, hc, (mem_metAt_iff hm hw h hr hq).2 hu, fun hdef => hguard ?_⟩
    simpa [Quad.defs, ho, Operator.defs] using hdef

end NullCheck

/-! ### The result -/

theorem Progress.exists_settled_of_ok {L : Type} [DecidableEq L] {w w' : Progress L} {g : Graph} {n : Nat}
    (h : w.solve g = (.ok n, w')) : ∃ f, (w.analysis.problem g).solve g = (.settled n, f) ∧
      w' = Progress.finish ⟨w.analysis, g, f⟩ g := by
  simp only [solve] at h
  cases hs : (w.analysis.problem g).solve g with
  | mk outcome f =>
    rw [hs] at h
    cases outcome with
    | settled m =>
      obtain ⟨hn, rfl⟩ := Prod.mk.inj h
      cases hn
      exact ⟨f, rfl, rfl⟩
    | refused err => cases h
    | unsettled => cases h

/-- Plain elimination is exact. Wherever it succeeds, the checks that are reported, and those that are removed, are
the checks of a register, other than their own guard, that no path can reach unchecked: neither from the entry
nor from a quad that writes the register without checking it. -/
theorem redundant_iff_rechecks (g : Graph) (hw : g.WellFormed) {report : NullCheckReport} {left : Graph}
    (h : InPlace.redundantNullChecks.on g = (.ok report, left)) (rounds : Nat) :
    ∃ summary g', (InPlace.optimize ⟨rounds, true⟩).on g = (.ok summary, g') ∧
      (∀ id ∈ report.redundant, id ∈ g.quadOrder) ∧
      ∀ q ∈ g.quads, (q.id ∈ report.redundant ↔ g.Rechecks q) ∧ (q ∉ g'.quads ↔ g.Rechecks q) := by
  have hd := hw.quads_nodup
  rw [InPlace.on_redundantNullChecks] at h
  obtain ⟨hreport, -⟩ := Prod.mk.inj h
  have hnofault : ∀ q ∈ g.quads, NullCheck.fault q = none := by
    rcases no_fault_or_firstFault NullCheck.fault g.quads with hf | ⟨err, hfirst⟩
    · exact hf
    · rw [(Graph.redundantNullChecks_error_iff hd).2 (Graph.firstMisfit_iff.2 hfirst)] at hreport
      cases hreport
  obtain ⟨summary, g', hopt⟩ := Graph.exists_optimize_ok hd hnofault ⟨rounds, true⟩
  refine ⟨summary, g', InPlace.on_optimize_ok_iff.2 hopt, ?_⟩
  -- what is reported
  rw [Graph.redundantNullChecks] at hreport
  cases hs : (Progress.start (.nullCheck .report)).solve g with
  | mk outcome w =>
    rw [hs] at hreport
    cases outcome with
    | error e => cases hreport
    | ok n =>
      obtain rfl := Except.ok.inj hreport
      obtain ⟨f, hsolve, rfl⟩ := Progress.exists_settled_of_ok hs
      have hlisted : ∀ id, id ∈ f.flagged.toList ↔ id ∈ f.flagged := fun id => Std.ExtTreeSet.mem_toList
      refine ⟨fun id hid => ?_, fun q hq => ⟨?_, ?_⟩⟩
      · obtain ⟨q, hq, rfl, -⟩ := (Problem.solve_solved hd hsolve).flagged id ((hlisted id).1 hid)
        exact List.mem_map_of_mem hq
      · exact (hlisted q.id).trans (NullCheck.mem_flagged_iff_rechecks rfl hw hsolve hq)
      · -- what is removed
        obtain ⟨n', w', hs', -, rfl⟩ := Graph.optimize_plain_ok hopt
        obtain ⟨f', hsolve', rfl⟩ := Progress.exists_settled_of_ok hs'
        rw [Progress.mem_quads_removeQuads hq, ← NullCheck.mem_flagged_iff_rechecks rfl hw hsolve' hq]
        exact ⟨fun hn => not_not.1 (not_forall.1 hn).2, fun hf hn => hn rfl hf⟩

/-- A register is checked twice, but code that no path from the entry reaches writes it in between; and there is a check
that nothing at all leads to. -/
def sideDoor : Graph := ⟨⟨"sideDoor", 1, true⟩,
  [(.entry, ⟨.entry, [], [⟨2⟩], some ⟨2⟩⟩), (.exit, .empty .exit),
   (⟨2⟩, ⟨⟨2⟩, [⟨1, .nullCheck none (.reg "R0")⟩], [⟨3⟩], some ⟨3⟩⟩),
   (⟨3⟩, ⟨⟨3⟩, [⟨2, .nullCheck none (.reg "R0")⟩, ⟨3, .nullCheck (some "T0") (.reg "R0")⟩], [.exit], some .exit⟩),
   (⟨4⟩, ⟨⟨4⟩, [⟨4, .move "R0" .null⟩], [⟨3⟩], some ⟨3⟩⟩),
   (⟨5⟩, ⟨⟨5⟩, [⟨5, .nullCheck none (.reg "R1")⟩], [.exit], some .exit⟩)], 6⟩

theorem sideDoor_rechecks : ¬ sideDoor.Rechecks ⟨2, .nullCheck none (.reg "R0")⟩ ∧
    sideDoor.Rechecks ⟨3, .nullCheck (some "T0") (.reg "R0")⟩ ∧
    sideDoor.Rechecks ⟨5, .nullCheck none (.reg "R1")⟩ := by
  have h : InPlace.redundantNullChecks.on sideDoor = (.ok ⟨"sideDoor", [3, 5]⟩, sideDoor) := by
    rw [InPlace.on_redundantNullChecks]
    decide +kernel
  obtain ⟨_, _, _, _, hiff⟩ := redundant_iff_rechecks sideDoor (by decide) h 0
  refine ⟨fun hr => ?_, (hiff _ (by decide)).1.1 (by decide), (hiff _ (by decide)).1.1 (by decide)⟩
  exact absurd ((hiff _ (by decide)).1.2 hr) (by decide)

end Dataflow
