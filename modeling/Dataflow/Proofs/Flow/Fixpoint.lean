import Mathlib.Data.List.Basic
import Dataflow.Flow.Solver

/-!
# What the sweeps leave behind

`Problem.Solved e quads f`: the values of `f` solve the dataflow equations of `p` exactly, and the
flags of `f` are the verdicts at these values. Sweeps overwrite results in place, so the values met in
the middle of a sweep mix old and new results; only the last sweep, which leaves every result as it was,
has met nothing but final results (`sweep_stable`). That needs each quad to be visited once in a sweep,
that is, quad numbers to be distinct.
-/

namespace Dataflow

namespace FlowState

variable {L : Type} {s : FlowState L}

theorem inAt_of_backward (h : s.direction = .backward) (id : QuadId) : s.inAt id = s.resultAt id := by
  rw [inAt, h]

theorem outAt_of_backward (h : s.direction = .backward) (id : QuadId) : s.outAt id = s.metAt id := by
  rw [outAt, h]

end FlowState

namespace Findings

variable {L : Type}

@[simp] theorem note_state (f : Findings L) (id : QuadId) (b : Option Bool) :
    (f.note id b).state = f.state := by
  rcases b with _ | _ | _ <;> rfl

theorem mem_note_flagged (f : Findings L) (id x : QuadId) (b : Option Bool) :
    x ∈ (f.note id b).flagged ↔ if id = x then b.getD (x ∈ f.flagged) = true else x ∈ f.flagged := by
  rcases b with _ | _ | _
  · simp [note]
  · simp [note]
  · simp only [note, Std.ExtTreeSet.mem_insert, Std.LawfulEqCmp.compare_eq_iff_eq]
    grind

end Findings

theorem findSome?_of_no_fault {fault : Quad → Option FlowError} {quads : List Quad}
    (hf : ∀ q ∈ quads, fault q = none) : quads.findSome? (fun q => (fault q).map (q, ·)) = none := by
  rw [List.findSome?_eq_none_iff]
  intro q hq
  rw [hf q hq, Option.map_none]

namespace Problem

variable {L : Type} {p : Problem L} {e : QuadEdges} {f f' : Findings L} {quads : List Quad}

/-! ### One visit -/

@[simp] theorem initial_resultAt (g : Graph) (id : QuadId) : (p.initial g).state.resultAt id = p.top := by
  simp [Problem.initial, FlowState.forGraph, FlowState.resultAt, Slots.get]

@[simp] theorem visit_top (f : Findings L) (q : Quad) : (p.visit e f q).state.top = f.state.top := by
  simp [visit, pass, meetAt, FlowState.setResult, FlowState.setMet]

@[simp] theorem visit_source (f : Findings L) (q : Quad) :
    (p.visit e f q).state.source = f.state.source := by
  simp [visit, pass, meetAt, FlowState.setResult, FlowState.setMet]

@[simp] theorem visit_direction (f : Findings L) (q : Quad) :
    (p.visit e f q).state.direction = f.state.direction := by
  simp [visit, pass, meetAt, FlowState.setResult, FlowState.setMet]

theorem visit_metAt (f : Findings L) (q : Quad) (id : QuadId) :
    (p.visit e f q).state.metAt id =
      if q.id = id then p.meetNeighbours e f.state q.id else f.state.metAt id := by
  simp [visit, pass, meetAt, FlowState.metAt, FlowState.setResult, FlowState.setMet]

theorem visit_resultAt (f : Findings L) (q : Quad) (id : QuadId) :
    (p.visit e f q).state.resultAt id =
      if q.id = id then p.transfer q (p.meetNeighbours e f.state q.id) else f.state.resultAt id := by
  simp [visit, pass, meetAt, FlowState.metAt, FlowState.resultAt, FlowState.setResult, FlowState.setMet]

theorem mem_visit_flagged (f : Findings L) (q : Quad) (id : QuadId) :
    id ∈ (p.visit e f q).flagged ↔
      if q.id = id then
        (p.verdict q (p.meetNeighbours e f.state q.id)).getD (id ∈ f.flagged) = true
      else id ∈ f.flagged := by
  simp only [visit, pass, Findings.mem_note_flagged, meetAt]
  simp [FlowState.metAt, FlowState.setMet]

/-- What is met at a quad depends on the results, on `top` and on the starting value only. -/
theorem meetNeighbours_congr {s s' : FlowState L} (ht : s.top = s'.top) (hs : s.source = s'.source)
    (hr : ∀ id, s.resultAt id = s'.resultAt id) (id : QuadId) :
    p.meetNeighbours e s id = p.meetNeighbours e s' id := by
  have hh : s.handedOn = s'.handedOn := by
    funext n
    cases n with
    | none => exact hs
    | some id => exact hr id
  rw [meetNeighbours, meetNeighbours, ht, hh]

/-! ### One sweep -/

@[simp] theorem sweep_cons (q : Quad) (f : Findings L) :
    p.sweep e (q :: quads) f = p.sweep e quads (p.visit e f q) := rfl

/-- What every visit preserves, a sweep preserves. -/
theorem sweep_induct {I : Findings L → Prop} (hv : ∀ f, ∀ q ∈ quads, I f → I (p.visit e f q))
    (hf : I f) : I (p.sweep e quads f) := by
  induction quads generalizing f with
  | nil => exact hf
  | cons q quads ih =>
    exact ih (fun f x hx => hv f x (List.mem_cons_of_mem q hx)) (hv f q List.mem_cons_self hf)

@[simp] theorem sweep_top (f : Findings L) : (p.sweep e quads f).state.top = f.state.top :=
  sweep_induct (I := fun f' => f'.state.top = f.state.top) (fun _ _ _ h => by rw [visit_top, h]) rfl

@[simp] theorem sweep_source (f : Findings L) : (p.sweep e quads f).state.source = f.state.source :=
  sweep_induct (I := fun f' => f'.state.source = f.state.source)
    (fun _ _ _ h => by rw [visit_source, h]) rfl

theorem sweep_resultAt_of_notMem {id : QuadId} (h : id ∉ quads.map (·.id)) (f : Findings L) :
    (p.sweep e quads f).state.resultAt id = f.state.resultAt id := by
  refine sweep_induct (I := fun f' => f'.state.resultAt id = f.state.resultAt id)
    (fun f' q hq hf => ?_) rfl
  have hne : q.id ≠ id := fun he => h (he ▸ List.mem_map_of_mem hq)
  rw [visit_resultAt, if_neg hne, hf]

theorem sweep_metAt_of_notMem {id : QuadId} (h : id ∉ quads.map (·.id)) (f : Findings L) :
    (p.sweep e quads f).state.metAt id = f.state.metAt id := by
  refine sweep_induct (I := fun f' => f'.state.metAt id = f.state.metAt id)
    (fun f' q hq hf => ?_) rfl
  have hne : q.id ≠ id := fun he => h (he ▸ List.mem_map_of_mem hq)
  rw [visit_metAt, if_neg hne, hf]

theorem mem_sweep_flagged_of_notMem {id : QuadId} (h : id ∉ quads.map (·.id)) (f : Findings L) :
    id ∈ (p.sweep e quads f).flagged ↔ id ∈ f.flagged := by
  refine sweep_induct (I := fun f' => id ∈ f'.flagged ↔ id ∈ f.flagged) (fun f' q hq hf => ?_) Iff.rfl
  have hne : q.id ≠ id := fun he => h (he ▸ List.mem_map_of_mem hq)
  rw [mem_visit_flagged, if_neg hne, hf]

/-- A sweep that changes no result has met final results only. The invariant of the induction is that
the results before each visit are already those at the end. -/
theorem sweep_stable (hd : (quads.map (·.id)).Nodup)
    (hs : ∀ id, (p.sweep e quads f).state.resultAt id = f.state.resultAt id) :
    ∀ q ∈ quads,
      (p.sweep e quads f).state.metAt q.id = p.meetNeighbours e (p.sweep e quads f).state q.id ∧
      (p.sweep e quads f).state.resultAt q.id =
        p.transfer q ((p.sweep e quads f).state.metAt q.id) ∧
      ∀ b, p.verdict q ((p.sweep e quads f).state.metAt q.id) = some b →
        (q.id ∈ (p.sweep e quads f).flagged ↔ b = true) := by
  induction quads generalizing f with
  | nil => simp
  | cons q quads ih =>
    rw [List.map_cons, List.nodup_cons] at hd
    obtain ⟨hq, hd⟩ := hd
    rw [sweep_cons] at hs ⊢
    have hvisit : ∀ id, (p.visit e f q).state.resultAt id = f.state.resultAt id := by
      intro id
      by_cases he : q.id = id
      · subst he
        rw [← hs, sweep_resultAt_of_notMem hq]
      · rw [visit_resultAt, if_neg he]
    have hmeet : p.meetNeighbours e f.state q.id =
        p.meetNeighbours e (p.sweep e quads (p.visit e f q)).state q.id :=
      meetNeighbours_congr (by simp) (by simp) (fun id => (hs id).symm) q.id
    have hmet : (p.sweep e quads (p.visit e f q)).state.metAt q.id =
        p.meetNeighbours e f.state q.id := by
      rw [sweep_metAt_of_notMem hq, visit_metAt, if_pos rfl]
    intro x hx
    rcases List.mem_cons.1 hx with rfl | hx
    · refine ⟨hmet.trans hmeet, ?_, fun b hb => ?_⟩
      · rw [hmet, sweep_resultAt_of_notMem hq, visit_resultAt, if_pos rfl]
      · rw [hmet] at hb
        rw [mem_sweep_flagged_of_notMem hq, mem_visit_flagged, if_pos rfl, hb, Option.getD_some]
    · exact ih hd (fun id => by rw [hs, hvisit]) x hx

/-! ### The whole iteration -/

/-- What holds of all findings while `p` is being solved. -/
structure Underway (p : Problem L) (quads : List Quad) (f : Findings L) : Prop where
  top : f.state.top = p.top
  source : f.state.source = p.source
  direction : f.state.direction = p.direction
  /-- Nothing is flagged that was never judged so. -/
  flagged : ∀ id ∈ f.flagged, ∃ q ∈ quads, q.id = id ∧ ∃ v, p.verdict q v = some true

/-- The values of `f` solve the equations of `p`, and its flags are the verdicts at these values. -/
structure Solved (p : Problem L) (e : QuadEdges) (quads : List Quad) (f : Findings L) : Prop
    extends Underway p quads f where
  met : ∀ q ∈ quads, f.state.metAt q.id = p.meetNeighbours e f.state q.id
  result : ∀ q ∈ quads, f.state.resultAt q.id = p.transfer q (f.state.metAt q.id)
  judged : ∀ q ∈ quads, ∀ b, p.verdict q (f.state.metAt q.id) = some b → (q.id ∈ f.flagged ↔ b = true)

theorem Underway.initial (p : Problem L) (g : Graph) : p.Underway quads (p.initial g) :=
  ⟨rfl, rfl, rfl, fun id hid => absurd hid (by simp [Problem.initial])⟩

theorem Underway.visit {q : Quad} (hq : q ∈ quads) (h : p.Underway quads f) :
    p.Underway quads (p.visit e f q) := by
  refine ⟨by rw [visit_top, h.top], by rw [visit_source, h.source],
    by rw [visit_direction, h.direction], fun id hid => ?_⟩
  rw [mem_visit_flagged] at hid
  split at hid
  · next he =>
    cases hv : p.verdict q (p.meetNeighbours e f.state q.id) with
    | none =>
      rw [hv] at hid
      exact h.flagged id (by simpa using hid)
    | some b =>
      rw [hv, Option.getD_some] at hid
      exact ⟨q, hq, he, _, hid ▸ hv⟩
  · exact h.flagged id hid

theorem Underway.sweep (h : p.Underway quads f) : p.Underway quads (p.sweep e quads f) :=
  sweep_induct (fun _ _ hq hf => hf.visit hq) h

/-- Meeting the results where the analysis ends changes nothing that the equations speak of. -/
theorem Solved.close (h : p.Solved e quads f) : p.Solved e quads (p.close e f) :=
  ⟨⟨h.top, h.source, h.direction, h.flagged⟩, h.met, h.result, h.judged⟩

variable [DecidableEq L]

/-- The iteration ends with a sweep that changes no result. -/
theorem iterate_last {n limit : Nat} (hf : p.Underway quads f)
    (h : p.iterate e quads limit f = some (n, f')) :
    ∃ f₀, p.Underway quads f₀ ∧ f' = p.sweep e quads f₀ ∧ agree quads f₀ f' = true := by
  induction limit generalizing f n with
  | zero => simp [iterate] at h
  | succ limit ih =>
    rw [iterate] at h
    split at h
    · next ha =>
      obtain ⟨-, rfl⟩ := Prod.mk.inj (Option.some.inj h)
      exact ⟨f, hf, rfl, ha⟩
    · obtain ⟨⟨m, r⟩, hi, hr⟩ := Option.map_eq_some_iff.1 h
      obtain ⟨-, rfl⟩ := Prod.mk.inj hr
      exact ih hf.sweep hi

theorem iterate_solved {n limit : Nat} (hd : (quads.map (·.id)).Nodup) (hf : p.Underway quads f)
    (h : p.iterate e quads limit f = some (n, f')) : p.Solved e quads f' := by
  obtain ⟨f₀, h₀, rfl, ha⟩ := iterate_last hf h
  have hs : ∀ id, (p.sweep e quads f₀).state.resultAt id = f₀.state.resultAt id := by
    intro id
    by_cases hid : id ∈ quads.map (·.id)
    · obtain ⟨q, hq, rfl⟩ := List.mem_map.1 hid
      have hall := List.all_eq_true.1 ha q hq
      exact (of_decide_eq_true hall).symm
    · exact sweep_resultAt_of_notMem hid f₀
  have hst := sweep_stable hd hs
  exact ⟨h₀.sweep, fun q hq => (hst q hq).1, fun q hq => (hst q hq).2.1, fun q hq => (hst q hq).2.2⟩

/-- A problem that settles is solved. -/
theorem solve_solved {g : Graph} {n : Nat} (hd : g.quadOrder.Nodup)
    (h : p.solve g = (.settled n, f)) : p.Solved g.quadEdges g.quads f := by
  simp only [solve] at h
  split at h
  · simp at h
  · split at h
    · next hi =>
      obtain ⟨-, rfl⟩ := Prod.mk.inj h
      exact (iterate_solved hd (Underway.initial p g) hi).close
    · simp at h

end Problem

namespace Progress

variable {L : Type} [DecidableEq L] {w w' : Progress L} {g : Graph} {n : Nat} {f : Findings L}

theorem solve_of_settled (h : (w.analysis.problem g).solve g = (.settled n, f)) :
    w.solve g = (.ok n, Progress.finish ⟨w.analysis, g, f⟩ g) := by
  simp only [solve, h]

omit [DecidableEq L] in
theorem mem_finish_flagged (w : Progress L) (g : Graph) (id : QuadId) :
    id ∈ (w.finish g).findings.flagged ↔ id ∈ w.analysis.finish w.state g ∨ id ∈ w.findings.flagged := by
  have hfold : ∀ (ids : List QuadId) (s : QuadIds),
      id ∈ ids.foldl Std.ExtTreeSet.insert s ↔ id ∈ ids ∨ id ∈ s := by
    intro ids
    induction ids with
    | nil => simp
    | cons x ids ih =>
      intro s
      rw [List.foldl_cons, ih, Std.ExtTreeSet.mem_insert, Std.LawfulEqCmp.compare_eq_iff_eq, List.mem_cons]
      grind
  exact hfold _ _

omit [DecidableEq L] in
theorem mem_pending {id : QuadId} :
    id ∈ w.pending ↔ w.analysis.removes = true ∧ id ∈ w.findings.flagged := by
  rw [pending]
  split
  · next h => simp [h]
  · next h => simp [h]

omit [DecidableEq L] in
theorem pending_of_not_removes (h : w.analysis.removes = false) : w.pending = [] := by
  simp [pending, h]

/-- A run that succeeds has solved the problem of its graph. -/
theorem solve_ok (hd : g.quadOrder.Nodup) (h : w.solve g = (.ok n, w')) :
    ∃ f, (w.analysis.problem g).Solved g.quadEdges g.quads f ∧
      w' = Progress.finish ⟨w.analysis, g, f⟩ g := by
  simp only [solve] at h
  cases hs : (w.analysis.problem g).solve g with
  | mk outcome f =>
    rw [hs] at h
    cases outcome with
    | settled m =>
      obtain ⟨-, rfl⟩ := Prod.mk.inj h
      exact ⟨f, Problem.solve_solved hd hs, rfl⟩
    | refused err => simp at h
    | unsettled => simp at h

end Progress

end Dataflow
