import Mathlib.Data.List.Induction
import Dataflow.Optimize
import Dataflow.Proofs.Flow.Fixpoint
import Dataflow.Proofs.Graph.Neighbours
import Dataflow.Proofs.Lattice.Registers

/-!
# The null-check equations

What is known before a quad was known after each quad that flow comes from, and nothing is known where
flow enters the method. The elimination removes all redundant checks at once, so two checks might be
redundant because of each other around a loop; `exists_kept_check` shows that on no path from the entry
both of them go: walking back from what is known at a quad, the first check of the register that is met
and that is not redundant itself must come before the path is used up.
-/

namespace Dataflow

theorem Operator.eq_nullCheck_of_checked? {op : Operator} {s : Register} (h : op.checked? = some s) :
    ∃ guard, op = .nullCheck guard (.reg s) := by
  unfold checked? at h
  split at h
  · rw [Option.some.inj h]
    exact ⟨_, rfl⟩
  · cases h

namespace NullCheck

variable {m : NullCheckMode} {g : Graph} {f : Findings Registers} {p q : Quad} {r : Register}
  {facts : List (QuadId × Register)} {s : Registers}

/-! ### What one quad does -/

/-- What the analysis learns from branches in mode `m`. -/
def factsOf (m : NullCheckMode) (g : Graph) : List (QuadId × Register) :=
  if m.extended then g.branchFacts else []

theorem mem_transfer : r ∈ (problem m g).transfer q s ↔
    q.op.checked? = some r ∨ r ∈ known m g (factsOf m g) q s := by
  show r ∈ (known m g (factsOf m g) q s).insertAll q.op.checked?.toList ↔ _
  rw [Registers.mem_insertAll, Option.mem_toList]

theorem mem_known_of_plain (hm : m.extended = false) :
    r ∈ known m g facts q s ↔ r ∈ s ∧ r ∉ q.defs := by
  simp only [known, hm, Bool.false_eq_true, ↓reduceIte, Registers.mem_eraseAll]

/-! ### What the equations say -/

section

variable (h : (problem m g).Solved g.quadEdges g.quads f)
include h

/-- What is known before a quad is handed on by every neighbour that flow comes from. -/
theorem mem_handedOn (hq : q ∈ g.quads) (hr : r ∈ f.state.metAt q.id) {n : Option QuadId}
    (hn : n ∈ g.quadEdges.predecessors q.id) : r ∈ f.state.handedOn n := by
  rw [h.met q hq] at hr
  have hne : (g.quadEdges.predecessors q.id).map f.state.handedOn ≠ [] := by
    intro he
    rw [List.map_eq_nil_iff.1 he] at hn
    cases hn
  exact (mem_meetAll_inter hne).1 hr _ (List.mem_map_of_mem hn)

theorem notMem_metAt_of_enters (hq : q ∈ g.quads) (he : g.Enters q) : r ∉ f.state.metAt q.id := by
  intro hr
  have hs : f.state.handedOn none = ∅ := h.source
  have hn := mem_handedOn h hq hr he
  rw [hs] at hn
  exact absurd hn (by simp)

theorem mem_resultAt_of_flows (hw : g.WellFormed) (hp : p ∈ g.quads) (hq : q ∈ g.quads)
    (hpq : g.Flows p q) (hr : r ∈ f.state.metAt q.id) : r ∈ f.state.resultAt p.id :=
  mem_handedOn h hq hr (hw.mem_predecessors_of_flows hp hq hpq)

theorem mem_resultAt (hq : q ∈ g.quads) : r ∈ f.state.resultAt q.id ↔
    q.op.checked? = some r ∨ r ∈ known m g (factsOf m g) q (f.state.metAt q.id) := by
  rw [h.result q hq]
  exact mem_transfer

theorem mem_flagged_iff (hd : g.quadOrder.Nodup) (hq : q ∈ g.quads) : q.id ∈ f.flagged ↔
    ∃ r, q.op.checked? = some r ∧ r ∈ known m g (factsOf m g) q (f.state.metAt q.id) := by
  constructor
  · intro hf
    obtain ⟨x, hx, he, v, hv⟩ := h.flagged q.id hf
    obtain rfl := Graph.eq_of_id_eq hd hx hq he
    obtain ⟨r, hr, -⟩ := Option.map_eq_some_iff.1 hv
    have hj := h.judged x hq (r ∈ known m g (factsOf m g) x (f.state.metAt x.id))
      (Option.map_eq_some_iff.2 ⟨r, hr, rfl⟩)
    exact ⟨r, hr, of_decide_eq_true (hj.1 hf)⟩
  · rintro ⟨r, hr, hk⟩
    have hj := h.judged q hq (r ∈ known m g (factsOf m g) q (f.state.metAt q.id))
      (Option.map_eq_some_iff.2 ⟨r, hr, rfl⟩)
    exact hj.2 (decide_eq_true hk)

/-! ### Plain elimination -/

/-- What plain elimination knows at the end of a path from the entry was checked on the path, by a quad
that is not redundant, and not written since. The induction is on the path from its end. -/
theorem exists_kept_check (hm : m.extended = false) (hw : g.WellFormed) {path : List Quad}
    (hp : g.FromEntry (path ++ [q])) (hr : r ∈ f.state.metAt q.id) :
    ∃ before c between, path = before ++ c :: between ∧ c.op.checked? = some r ∧ c.id ∉ f.flagged ∧
      ∀ d ∈ between, r ∉ d.defs := by
  induction path using List.reverseRecOn generalizing q with
  | nil =>
    obtain ⟨hq, he⟩ := Graph.fromEntry_singleton.1 hp
    exact absurd hr (notMem_metAt_of_enters h hq he)
  | append_singleton path p ih =>
    obtain ⟨hpath, hq, hpq⟩ := Graph.fromEntry_concat_concat.1 hp
    have hpm : p ∈ g.quads := hpath.mem p (by simp)
    -- a quad that only hands the register on lengthens what lies between
    have hpass : r ∈ f.state.metAt p.id ∧ r ∉ p.defs → ∃ before c between,
        path ++ [p] = before ++ c :: between ∧ c.op.checked? = some r ∧ c.id ∉ f.flagged ∧
          ∀ d ∈ between, r ∉ d.defs := by
      rintro ⟨hmet, hdef⟩
      obtain ⟨before, c, between, rfl, hc, hcf, hb⟩ := ih hpath hmet
      refine ⟨before, c, between ++ [p], by simp, hc, hcf, fun d hd => ?_⟩
      rcases List.mem_append.1 hd with hd | hd
      · exact hb d hd
      · rw [List.mem_singleton.1 hd]
        exact hdef
    rcases (mem_resultAt h hpm).1 (mem_resultAt_of_flows h hw hpm hq hpq hr) with hc | hk
    · by_cases hf : p.id ∈ f.flagged
      · obtain ⟨r', hr', hk⟩ := (mem_flagged_iff h hw.quads_nodup hpm).1 hf
        obtain rfl : r' = r := Option.some.inj (hr'.symm.trans hc)
        exact hpass ((mem_known_of_plain hm).1 hk)
      · exact ⟨path, p, [], rfl, hc, hf, by simp⟩
    · exact hpass ((mem_known_of_plain hm).1 hk)

end

end NullCheck

/-! ### Removing -/

/-- A pass that succeeds has solved its analysis on the graph and removed what that asks for. -/
theorem Analysis.runPass_ok {L : Type} [DecidableEq L] {a : Analysis L} {round : Nat} {g g' : Graph}
    {report : PassReport} (h : a.runPass round g = .ok (report, g')) :
    ∃ n w, (Progress.start a).solve g = (.ok n, w) ∧ report = ⟨a.name, round, w.pending⟩ ∧
      g' = g.removeQuads w.pending := by
  simp only [runPass] at h
  split at h
  · cases h
  · next n w hs =>
    obtain ⟨rfl, rfl⟩ := Prod.mk.inj (Except.ok.inj h)
    exact ⟨n, w, hs, rfl, rfl⟩

/-- A quad stays unless the analysis removes what it flags and has flagged it. -/
theorem Progress.mem_quads_removeQuads {L : Type} {w : Progress L} {g : Graph} {q : Quad}
    (hq : q ∈ g.quads) : q ∈ (g.removeQuads w.pending).quads ↔
      (w.analysis.removes = true → q.id ∉ w.findings.flagged) := by
  rw [Graph.quads_removeQuads, List.mem_filter, decide_eq_true_eq, Progress.mem_pending, not_and]
  exact and_iff_right hq

theorem Graph.optimize_plain_ok {g g' : Graph} {rounds : Nat} {report : OptimizeReport}
    (h : g.optimize ⟨rounds, true⟩ = .ok (report, g')) :
    ∃ n w, (Progress.start (.nullCheck .removing)).solve g = (.ok n, w) ∧
      report = ⟨g.method.name, [⟨"null-check", 0, w.pending⟩]⟩ ∧ g' = g.removeQuads w.pending := by
  simp only [optimize, ↓reduceIte] at h
  cases hp : (Analysis.nullCheck .removing).runPass 0 g with
  | error e =>
    rw [hp] at h
    cases h
  | ok outcome =>
    obtain ⟨n, w, hs, hr, hg⟩ := Analysis.runPass_ok hp
    rw [hp] at h
    obtain ⟨rfl, rfl⟩ := Prod.mk.inj (Except.ok.inj h)
    exact ⟨n, w, hs, by rw [hr]; rfl, hg⟩

namespace NullCheck

theorem solved_of_solve {m : NullCheckMode} {g : Graph} {n : Nat} {w : Progress Registers}
    (hd : g.quadOrder.Nodup) (h : (Progress.start (.nullCheck m)).solve g = (.ok n, w)) :
    (problem m g).Solved g.quadEdges g.quads w.findings ∧ w.analysis = .nullCheck m := by
  obtain ⟨f, hf, rfl⟩ := Progress.solve_ok hd h
  exact ⟨hf, rfl⟩

/-- Plain elimination of null checks never takes the last check away: on every path from the entry to
a check that was removed, a check of the same register remains, and the register is not written
between the two. -/
theorem removed_check_is_covered (g : Graph) (hw : g.WellFormed) {rounds : Nat} {report : OptimizeReport}
    {g' : Graph} (h : g.optimize ⟨rounds, true⟩ = .ok (report, g')) {path : List Quad} {q : Quad}
    (hp : g.FromEntry (path ++ [q])) (hq : q ∉ g'.quads) :
    ∃ r, q.op.checked? = some r ∧ ∃ before c between, path = before ++ c :: between ∧
      c.op.checked? = some r ∧ c ∈ g'.quads ∧ ∀ d ∈ between, r ∉ d.defs := by
  obtain ⟨n, w, hs, -, rfl⟩ := Graph.optimize_plain_ok h
  obtain ⟨hf, ha⟩ := solved_of_solve hw.quads_nodup hs
  have hkept : ∀ x ∈ g.quads, x ∈ (g.removeQuads w.pending).quads ↔ x.id ∉ w.findings.flagged := by
    intro x hx
    rw [Progress.mem_quads_removeQuads hx, ha]
    exact ⟨fun h => h rfl, fun h _ => h⟩
  have hqm : q ∈ g.quads := hp.mem q (by simp)
  rw [hkept q hqm, not_not, mem_flagged_iff hf hw.quads_nodup hqm] at hq
  obtain ⟨r, hr, hk⟩ := hq
  obtain ⟨before, c, between, rfl, hc, hcf, hb⟩ :=
    exists_kept_check hf rfl hw hp ((mem_known_of_plain rfl).1 hk).1
  exact ⟨r, hr, before, c, between, rfl, hc, (hkept c (hp.mem c (by simp))).2 hcf, hb⟩

/-- A loop that checks what has been checked before it. -/
def recheck : Graph := ⟨⟨"recheck", 1, true⟩,
  [(.entry, ⟨.entry, [], [⟨2⟩], some ⟨2⟩⟩), (.exit, .empty .exit),
   (⟨2⟩, ⟨⟨2⟩, [⟨1, .nullCheck none (.reg "R0")⟩], [⟨3⟩], some ⟨3⟩⟩),
   (⟨3⟩, ⟨⟨3⟩, [⟨2, .nullCheck none (.reg "R0")⟩, ⟨3, .ifCmp .lt (.reg "R1") (.int 3) ⟨3⟩⟩],
      [.exit, ⟨3⟩], some .exit⟩)], 4⟩

/-- Once around the loop. -/
def recheckPath : List Quad :=
  [⟨1, .nullCheck none (.reg "R0")⟩, ⟨2, .nullCheck none (.reg "R0")⟩,
    ⟨3, .ifCmp .lt (.reg "R1") (.int 3) ⟨3⟩⟩]

theorem recheck_covered : ∃ before c between, recheckPath = before ++ c :: between ∧
    c.op.checked? = some "R0" ∧ c ∈ (recheck.removeQuads [2]).quads ∧ ∀ d ∈ between, "R0" ∉ d.defs := by
  have hopt : recheck.optimize ⟨5, true⟩ =
      .ok (⟨"recheck", [⟨"null-check", 0, [2]⟩]⟩, recheck.removeQuads [2]) := by decide +kernel
  have h₀ : recheck.quadEdges.predecessors 1 = [none] := by decide +kernel
  have h₁ : recheck.quadEdges.successors 1 = [some 2] := by decide +kernel
  have h₂ : recheck.quadEdges.successors 2 = [some 3] := by decide +kernel
  have h₃ : recheck.quadEdges.successors 3 = [none, some 2] := by decide +kernel
  have hpath : recheck.FromEntry (recheckPath ++ [⟨2, .nullCheck none (.reg "R0")⟩]) := by
    refine ⟨⟨by decide, ?_⟩, ?_⟩
    · simp [recheckPath, Graph.Flows, h₁, h₂, h₃]
    · simp [recheckPath, Graph.Enters, h₀]
  obtain ⟨r, hr, hc⟩ := removed_check_is_covered recheck (by decide) hopt hpath (by decide)
  obtain rfl : "R0" = r := Option.some.inj hr
  exact hc

end NullCheck

end Dataflow
