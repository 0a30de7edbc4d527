import Mathlib.Tactic.Ring
import Dataflow.Proofs.Analysis.Descents
import Dataflow.Proofs.Flow.Refusals

/-!
# What a run of the solver comes to

`Analysis.Standard` lists the analyses in all their modes, each with the values that it draws on. For each
of them the sweeps end, after a number of sweeps that the size of the graph bounds (`run_returns`), and what
they leave is the greatest solution of the dataflow equations (`run_isGreatestSolution`).
-/

namespace Dataflow

/-- The analyses in all their modes. `scope g` are the values that mention only registers of `g`, or only
quads of `g`; extended elimination of null checks also knows the receiver of an instance method. -/
inductive Analysis.Standard : {L : Type} → Analysis L → (Graph → L → Prop) → Prop
  | liveness (removesDead : Bool) : Standard (.liveness removesDead) fun g s => ∀ r ∈ s, r ∈ g.registers
  | faintness : Standard .faintness fun g s => ∀ r ∈ s, r ∈ g.registers
  | reachingDefs : Standard .reachingDefs fun g s => ∀ id ∈ s, id ∈ g.quadOrder
  | constantProp : Standard .constantProp fun g t => ∀ r, t.get r ≠ .undef → r ∈ g.registers
  | nullCheck (m : NullCheckMode) : Standard (.nullCheck m) fun g s => ∀ r ∈ s, r ∈ g.registers ∨
      m.extended = true ∧ g.method.isStatic = false ∧ r = Register.param 0

namespace Analysis.Standard

variable {L : Type} {a : Analysis L} {scope : Graph → L → Prop}

theorem nonempty_exact (h : a.Standard scope) (g : Graph) :
    Nonempty ((a.problem g).Exact g.quads (scope g)) := by
  cases h with
  | liveness removesDead => exact ⟨Liveness.exact g⟩
  | faintness => exact ⟨Faintness.exact g⟩
  | reachingDefs => exact ⟨ReachingDefs.exact g⟩
  | constantProp => exact ⟨ConstantProp.exact g⟩
  | nullCheck m => exact ⟨NullCheck.exact m g⟩

/-- A result changes at most twice for each register or each quad. The receiver adds one more change,
which counts only where there are quads at all. -/
theorem sweeps_le (h : a.Standard scope) (g : Graph) : g.quads.length * (a.problem g).height + 1 ≤
    2 + 2 * g.quadCount * max g.quadCount g.registers.size := by
  have hn : g.quads.length = g.quadCount := rfl
  have hle : ∀ k, k ≤ 2 * max g.quadCount g.registers.size → g.quads.length * k + 1 ≤
      2 + 2 * g.quadCount * max g.quadCount g.registers.size := by
    intro k hk
    calc g.quads.length * k + 1 ≤ g.quadCount * (2 * max g.quadCount g.registers.size) + 1 :=
          Nat.add_le_add_right (Nat.mul_le_mul_left _ hk) 1
      _ = 2 * g.quadCount * max g.quadCount g.registers.size + 1 := by ring
      _ ≤ _ := by omega
  have hm : g.registers.size ≤ max g.quadCount g.registers.size := le_max_right _ _
  have hq : g.quadCount ≤ max g.quadCount g.registers.size := le_max_left _ _
  cases h with
  | liveness removesDead => exact hle g.registers.size (by omega)
  | faintness => exact hle g.registers.size (by omega)
  | reachingDefs => exact hle g.quadCount (by omega)
  | constantProp => exact hle (2 * g.registers.size) (by omega)
  | nullCheck m =>
    by_cases hz : g.quadCount = 0
    · rw [hn, hz]
      omega
    · exact hle (g.registers.size + 1) (by omega)

end Analysis.Standard

/-! ### Runs -/

section

variable {L : Type} [DecidableEq L] {w w' : Progress L} {g g' : Graph} {stats : RunStats}

/-- A run that succeeds has settled and finished, and has removed what was flagged. -/
theorem Solver.run_finished (h : (Solver.mk (some w)).run g = (.ok stats, ⟨some w'⟩, g')) :
    ∃ f, (w.analysis.problem g).solve g = (.settled stats.sweeps, f) ∧
      w' = Progress.finish ⟨w.analysis, g, f⟩ g ∧ g' = g.removeQuads w'.pending := by
  simp only [run, Progress.solve] at h
  cases hs : (w.analysis.problem g).solve g with
  | mk outcome f =>
    rw [hs] at h
    cases outcome with
    | settled n =>
      simp only [Prod.mk.injEq, Except.ok.injEq, Solver.mk.injEq, Option.some.injEq] at h
      obtain ⟨rfl, rfl, rfl⟩ := h
      exact ⟨f, rfl, rfl, rfl⟩
    | refused e => cases h
    | unsettled => cases h

theorem Solver.run_ok (h : (Solver.mk (some w)).run g = (.ok stats, ⟨some w'⟩, g')) :
    ∃ f, (w.analysis.problem g).solve g = (.settled stats.sweeps, f) ∧ w'.state = f.state := by
  obtain ⟨f, hs, rfl, -⟩ := run_finished h
  exact ⟨f, hs, rfl⟩

theorem Solver.run_eq_of_settled {n : Nat} {f : Findings L}
    (h : (w.analysis.problem g).solve g = (.settled n, f)) :
    ∃ stats, (Solver.mk (some w)).run g = (.ok stats, ⟨some (Progress.finish ⟨w.analysis, g, f⟩ g)⟩,
      g.removeQuads (Progress.finish ⟨w.analysis, g, f⟩ g).pending) ∧ stats.sweeps = n := by
  simp only [run, Progress.solve_of_settled h]
  exact ⟨_, rfl, rfl⟩

theorem Solver.run_of_settled {n : Nat} {f : Findings L}
    (h : (w.analysis.problem g).solve g = (.settled n, f)) :
    ∃ stats w' g', (Solver.mk (some w)).run g = (.ok stats, ⟨some w'⟩, g') ∧ stats.sweeps = n := by
  obtain ⟨stats, hrun, hn⟩ := run_eq_of_settled h
  exact ⟨stats, _, _, hrun, hn⟩

end

/-! ### Runs that fail -/

section

variable {L : Type} [DecidableEq L] {w : Progress L} {g : Graph} {e : FlowError}

theorem Solver.run_of_firstFault (h : FirstFault (w.analysis.problem g).fault g.quads e) :
    ∃ f, (Solver.mk (some w)).run g = (.error e, ⟨some ⟨w.analysis, g, f⟩⟩, g) := by
  obtain ⟨f, hs⟩ := h.solve
  simp only [run, Progress.solve, hs]
  exact ⟨f, rfl⟩

theorem Solver.run_of_fault {q : Quad} (hq : q ∈ g.quads)
    (h : (w.analysis.problem g).fault q = some e) :
    ∃ x ∈ g.quads, ∃ err, (w.analysis.problem g).fault x = some err ∧
      ((Solver.mk (some w)).run g).1 = .error err := by
  obtain ⟨err, hfirst⟩ := exists_firstFault hq h
  obtain ⟨x, hx, herr⟩ := hfirst.exists_mem
  obtain ⟨f, hrun⟩ := Solver.run_of_firstFault hfirst
  exact ⟨x, hx, err, herr, by rw [hrun]⟩

/-- What a run can come to: it settles on a graph of which no quad is refused, or fails at the first that is. -/
theorem Analysis.Standard.run_cases {scope : Graph → L → Prop} (ha : w.analysis.Standard scope)
    (hd : g.quadOrder.Nodup) :
    (∀ q ∈ g.quads, (w.analysis.problem g).fault q = none) ∧
      (∃ n f, (w.analysis.problem g).solve g = (.settled n, f)) ∨
    ∃ err, FirstFault (w.analysis.problem g).fault g.quads err := by
  refine (no_fault_or_firstFault _ g.quads).imp_left fun hf => ⟨hf, ?_⟩
  obtain ⟨E⟩ := ha.nonempty_exact g
  exact E.descent.settles hd hf

theorem Analysis.Standard.run_ok_iff {scope : Graph → L → Prop} (ha : w.analysis.Standard scope)
    (hd : g.quadOrder.Nodup) : (∃ stats, ((Solver.mk (some w)).run g).1 = .ok stats) ↔
      ∀ q ∈ g.quads, (w.analysis.problem g).fault q = none := by
  rcases ha.run_cases hd with ⟨hf, n, f, hs⟩ | ⟨err, hfirst⟩
  · obtain ⟨stats, hrun, -⟩ := Solver.run_eq_of_settled hs
    exact iff_of_true ⟨stats, by rw [hrun]⟩ hf
  · obtain ⟨f, hrun⟩ := Solver.run_of_firstFault hfirst
    obtain ⟨q, hq, hfault⟩ := hfirst.exists_mem
    refine iff_of_false ?_ fun hf => ?_
    · rw [hrun]
      rintro ⟨stats, ⟨⟩⟩
    · cases (hf q hq).symm.trans hfault

end

variable {L : Type} [DecidableEq L]

/-- The values of a run that succeeds solve the dataflow equations of its analysis, and no solution over
the same registers and quads is greater anywhere. -/
theorem run_isGreatestSolution {w w' : Progress L} {scope : Graph → L → Prop}
    (ha : w.analysis.Standard scope) (g : Graph) (hd : g.quadOrder.Nodup) {stats : RunStats} {g' : Graph}
    (h : (Solver.mk (some w)).run g = (.ok stats, ⟨some w'⟩, g')) :
    (w.analysis.problem g).IsGreatestSolution g (scope g) w'.state.values := by
  obtain ⟨E⟩ := ha.nonempty_exact g
  obtain ⟨f, hs, hstate⟩ := Solver.run_ok h
  obtain ⟨f₀, hends, rfl⟩ := Problem.ends_of_solve hs
  rw [hstate]
  exact E.isGreatestSolution hd hends

/-- A loop of an instance method without parameters: its receiver is no register of the graph. -/
def retry : Graph := ⟨⟨"retry", 0, false⟩,
  [(.entry, ⟨.entry, [], [⟨2⟩], some ⟨2⟩⟩), (.exit, .empty .exit),
   (⟨2⟩, ⟨⟨2⟩, [⟨1, .nullCheck none (.reg "T0")⟩, ⟨2, .new "T0" "Box"⟩,
      ⟨3, .ifCmp .eq (.reg "T1") (.int 0) ⟨2⟩⟩], [.exit, ⟨2⟩], some .exit⟩)], 3⟩

theorem retry_isGreatestSolution : "R0" ∉ retry.registers ∧ ∃ stats w g',
    (Solver.ofAnalysis (.nullCheck .extendedRemoving)).run retry = (.ok stats, ⟨some w⟩, g') ∧
      ((Analysis.nullCheck .extendedRemoving).problem retry).IsGreatestSolution retry
        (fun s => ∀ r ∈ s, r ∈ retry.registers ∨ r = "R0") w.state.values := by
  have hd : retry.quadOrder.Nodup := by decide
  have hf : ∀ q ∈ retry.quads, NullCheck.fault q = none := by decide
  have hout : retry.registers.contains "R0" = false := by decide +kernel
  obtain ⟨E⟩ := (Analysis.Standard.nullCheck .extendedRemoving).nonempty_exact retry
  obtain ⟨n, f, -, -, hs⟩ := E.descent.exists_ends_initial hd hf
  obtain ⟨stats, w, g', hrun, -⟩ := Solver.run_of_settled (w := .start _) hs
  refine ⟨fun h => ?_, stats, w, g', hrun, ?_⟩
  · rw [Std.ExtTreeSet.mem_iff_contains, hout] at h
    cases h
  · have hgreatest := run_isGreatestSolution (w := .start (.nullCheck .extendedRemoving))
      (.nullCheck .extendedRemoving) retry hd hrun
    have hthis : ∀ r : Register, (NullCheckMode.extendedRemoving.extended = true ∧
        retry.method.isStatic = false ∧ r = Register.param 0) = (r = "R0") := by
      intro r
      exact propext ⟨fun h => h.2.2, fun h => ⟨rfl, rfl, h⟩⟩
    simp only [hthis] at hgreatest
    exact hgreatest

/-- Every run returns. Either the analysis refuses a quad, or the sweeps end of their own accord, and their
number is bounded by the numbers of quads and of registers. -/
theorem run_returns {w : Progress L} {scope : Graph → L → Prop} (ha : w.analysis.Standard scope)
    (g : Graph) (hd : g.quadOrder.Nodup) :
    (∃ q ∈ g.quads, ∃ e, (w.analysis.problem g).fault q = some e ∧
      ((Solver.mk (some w)).run g).1 = .error e) ∨
    ∃ stats w' g' f, (Solver.mk (some w)).run g = (.ok stats, ⟨some w'⟩, g') ∧
      (w.analysis.problem g).Ends g.quadEdges g.quads ((w.analysis.problem g).initial g) stats.sweeps f ∧
        stats.sweeps ≤ 2 + 2 * g.quadCount * max g.quadCount g.registers.size := by
  by_cases hf : ∀ q ∈ g.quads, (w.analysis.problem g).fault q = none
  · obtain ⟨E⟩ := ha.nonempty_exact g
    obtain ⟨n, f, hends, hn, hs⟩ := E.descent.exists_ends_initial hd hf
    obtain ⟨stats, w', g', hrun, rfl⟩ := Solver.run_of_settled hs
    exact .inr ⟨stats, w', g', f, hrun, hends, hn.trans (ha.sweeps_le g)⟩
  · simp only [not_forall] at hf
    obtain ⟨q, hq, hne⟩ := hf
    obtain ⟨e, he⟩ := Option.ne_none_iff_exists'.1 hne
    exact .inl (Solver.run_of_fault hq he)

theorem retry_returns : ∃ stats w g', (Solver.ofAnalysis .constantProp).run retry = (.ok stats, w, g') ∧
    stats.sweeps ≤ 2 + 2 * 3 * 3 := by
  have hsize : 2 + 2 * retry.quadCount * max retry.quadCount retry.registers.size = 2 + 2 * 3 * 3 := by
    decide +kernel
  have hf : ∀ q ∈ retry.quads, ConstantProp.fault q = none := by decide
  obtain ⟨q, hq, e, he, -⟩ | ⟨stats, w, g', f, hrun, -, hle⟩ :=
    run_returns (w := .start .constantProp) .constantProp retry (by decide)
  · cases (hf q hq).symm.trans he
  · exact ⟨stats, _, g', hrun, hsize ▸ hle⟩

end Dataflow
