import Dataflow.Flow.Stepwise
import Dataflow.Proofs.Flow.Fixpoint

/-!
# The quad that ends a run

Whether a quad is refused depends on the quad alone, so the first sweep already comes to every quad that is refused:
`FirstFault` is what it says of the first of them, and if it comes to none, no later sweep does. Sweeps that
look at each quad as they come to it therefore end as `Problem.solve` says, with the same findings (`solveStep_eq`).
-/

namespace Dataflow

/-- Some quad is refused, and `e` is what is said of the first that is. -/
def FirstFault (fault : Quad → Option FlowError) (quads : List Quad) (e : FlowError) : Prop :=
  ∃ before q after, quads = before ++ q :: after ∧ (∀ x ∈ before, fault x = none) ∧ fault q = some e

section

variable {fault : Quad → Option FlowError} {quads : List Quad} {q : Quad} {e err : FlowError}

theorem exists_firstFault (hq : q ∈ quads) (h : fault q = some e) : ∃ err, FirstFault fault quads err := by
  have hfind : (quads.find? fun x => (fault x).isSome).isSome = true := by
    rw [List.find?_isSome]
    exact ⟨q, hq, by rw [h]; rfl⟩
  obtain ⟨x, hx⟩ := Option.isSome_iff_exists.1 hfind
  obtain ⟨hfault, before, after, hsplit, hb⟩ := List.find?_eq_some_iff_append.1 hx
  obtain ⟨err, herr⟩ := Option.isSome_iff_exists.1 hfault
  exact ⟨err, before, x, after, hsplit, fun y hy => by simpa using hb y hy, herr⟩

theorem no_fault_or_firstFault (fault : Quad → Option FlowError) (quads : List Quad) :
    (∀ q ∈ quads, fault q = none) ∨ ∃ err, FirstFault fault quads err := by
  by_cases hf : ∀ q ∈ quads, fault q = none
  · exact .inl hf
  · simp only [not_forall] at hf
    obtain ⟨q, hq, hne⟩ := hf
    obtain ⟨e, he⟩ := Option.ne_none_iff_exists'.1 hne
    exact .inr (exists_firstFault hq he)

theorem findSome?_of_first_fault {before : List Quad} (hb : ∀ x ∈ before, fault x = none)
    (hq : fault q = some e) (after : List Quad) :
    (before ++ q :: after).findSome? (fun q => (fault q).map (q, ·)) = some (q, e) := by
  rw [List.findSome?_append, findSome?_of_no_fault hb, List.findSome?_cons, hq]
  rfl

/-- The first sweep ends where a value has been met at the first quad that is refused. -/
theorem Problem.solve_of_first_fault {L : Type} [DecidableEq L] {p : Problem L} {g : Graph}
    {before after : List Quad} (hsplit : g.quads = before ++ q :: after) (hb : ∀ x ∈ before, p.fault x = none)
    (hq : p.fault q = some e) : p.solve g =
      (.refused e, p.meetAt g.quadEdges (p.sweep g.quadEdges before (p.initial g)) q) := by
  have hdone : g.quads.takeWhile (p.fault · |>.isNone) = before := by
    rw [hsplit, List.takeWhile_append_of_pos fun x hx => by rw [hb x hx]; rfl, List.takeWhile_cons_of_neg]
    · exact List.append_nil before
    · rw [hq]
      exact Bool.false_ne_true
  have hfind : g.quads.findSome? (fun q => (p.fault q).map (q, ·)) = some (q, e) := by
    rw [hsplit, findSome?_of_first_fault hb hq]
  simp only [Problem.solve, hfind, hdone]

namespace FirstFault

theorem exists_mem (h : FirstFault fault quads e) : ∃ q ∈ quads, fault q = some e := by
  obtain ⟨before, q, after, rfl, -, hq⟩ := h
  exact ⟨q, by simp, hq⟩

theorem unique (h : FirstFault fault quads e) (h' : FirstFault fault quads err) : e = err := by
  obtain ⟨before, q, after, rfl, hb, hq⟩ := h
  obtain ⟨before', q', after', hsplit, hb', hq'⟩ := h'
  have hfind := findSome?_of_first_fault hb hq after
  rw [hsplit, findSome?_of_first_fault hb' hq'] at hfind
  exact (Prod.mk.inj (Option.some.inj hfind)).2.symm

theorem solve {L : Type} [DecidableEq L] {p : Problem L} {g : Graph} (h : FirstFault p.fault g.quads e) :
    ∃ f, p.solve g = (.refused e, f) := by
  obtain ⟨before, q, after, hsplit, hb, hq⟩ := h
  exact ⟨_, Problem.solve_of_first_fault hsplit hb hq⟩

end FirstFault

end

/-! ### Quad by quad -/

/-- Quads are passed and refused as the problem says, whatever the value. -/
def Passing.Follows {L : Type} (how : Passing L) (p : Problem L) : Prop :=
  ∀ q v, how q v = (p.fault q).elim (.ok (p.transfer q v, p.verdict q v)) .error

namespace Problem

variable {L : Type} {p : Problem L} {how : Passing L}

theorem passing_follows (hp : p.fault = fun _ => none) : p.passing.Follows p := by
  intro q v
  rw [hp]
  rfl

variable (h : how.Follows p) {e : QuadEdges} {quads : List Quad} {q : Quad}
include h

theorem visitStep_of_none (hq : p.fault q = none) (f : Findings L) :
    p.visitStep how e f q = (none, p.visit e f q) := by
  rw [visitStep, h q, hq]
  rfl

theorem visitStep_of_fault {err : FlowError} (hq : p.fault q = some err) (f : Findings L) :
    p.visitStep how e f q = (some err, p.meetAt e f q) := by
  rw [visitStep, h q, hq]
  rfl

theorem sweepStep_append {before : List Quad} (hb : ∀ x ∈ before, p.fault x = none) (rest : List Quad)
    (f : Findings L) : p.sweepStep how e (before ++ rest) f = p.sweepStep how e rest (p.sweep e before f) := by
  induction before generalizing f with
  | nil => rfl
  | cons x before ih =>
    rw [List.cons_append, sweepStep, visitStep_of_none h (hb x List.mem_cons_self)]
    exact ih (fun y hy => hb y (List.mem_cons_of_mem x hy)) _

theorem sweepStep_of_none (hf : ∀ q ∈ quads, p.fault q = none) (f : Findings L) :
    p.sweepStep how e quads f = (none, p.sweep e quads f) := by
  have happend := sweepStep_append h (e := e) hf [] f
  rw [List.append_nil] at happend
  exact happend

variable [DecidableEq L]

/-- If no quad is refused, these are the sweeps without refusals. -/
theorem iterateStep_of_none (hf : ∀ q ∈ quads, p.fault q = none) (limit : Nat) (f : Findings L) :
    p.iterateStep how e quads limit f = (p.iterate e quads limit f).map fun (n, r) => (.ok n, r) := by
  induction limit generalizing f with
  | zero => rfl
  | succ limit ih =>
    rw [iterateStep, iterate, sweepStep_of_none h hf]
    simp only
    split
    · rfl
    · rw [ih, Option.map_map, Option.map_map]
      rfl

/-- Looking at each quad as the sweeps come to it and looking at all quads before come to the same. -/
theorem solveStep_eq (g : Graph) : p.solveStep how g = p.solve g := by
  rcases no_fault_or_firstFault p.fault g.quads with hf | ⟨err, before, q, after, hsplit, hb, hq⟩
  · simp only [solveStep, solve, findSome?_of_no_fault hf, iterateStep_of_none h hf]
    cases p.iterate g.quadEdges g.quads (p.sweepLimit g.quads) (p.initial g) with
    | none => rfl
    | some r => rfl
  · -- the first sweep ends at `q`
    have hsweep : ∀ f, p.sweepStep how g.quadEdges g.quads f =
        (some err, p.meetAt g.quadEdges (p.sweep g.quadEdges before f) q) := by
      intro f
      rw [hsplit, sweepStep_append h hb, sweepStep, visitStep_of_fault h hq]
    rw [solve_of_first_fault hsplit hb hq]
    simp only [solveStep, sweepLimit, iterateStep, hsweep]

end Problem

theorem Solver.runStep_eq {L : Type} [DecidableEq L] {how : Graph → Passing L} {w : Progress L} {g : Graph}
    (h : (how g).Follows (w.analysis.problem g)) :
    (Solver.mk (some w)).runStep how g = (Solver.mk (some w)).run g := by
  simp only [runStep, run, Progress.solve, Problem.solveStep_eq h]
  obtain ⟨outcome, f⟩ := (w.analysis.problem g).solve g
  cases outcome <;> rfl

end Dataflow
