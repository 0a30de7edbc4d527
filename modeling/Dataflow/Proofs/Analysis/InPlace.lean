import Dataflow.InPlace
import Dataflow.Proofs.Analysis.Passes
import Dataflow.Proofs.Flow.Refusals

/-!
# What operations leave of a graph that is kept

Asking for values or for redundant checks leaves the graph alone (`on_analyze`, `on_redundantNullChecks`). An
optimization in place answers and leaves what `Graph.optimize` does, although that starts every pass with a new
solver (`agrees_optimize`): a run begins by forgetting what its solver held.
-/

namespace Dataflow

theorem Progress.solve_analysis {L : Type} [DecidableEq L] (w : Progress L) (g : Graph) :
    (w.solve g).2.analysis = w.analysis := by
  simp only [solve]
  cases (w.analysis.problem g).solve g with
  | mk outcome f => cases outcome <;> rfl

/-! ### Each analysis is carried out as its problem says -/

def Analysis.CarriedOutBy {L : Type} (a : Analysis L) (how : Graph → Passing L) : Prop :=
  ∀ g, (how g).Follows (a.problem g)

theorem Operand.isInteger_eq {o : Operand} {t : Constants} : o.isInteger = (o.state? t).isSome := by
  cases o <;> rfl

theorem ConstantProp.passing_follows : Analysis.constantProp.CarriedOutBy fun _ => passing := by
  intro g q t
  show passing q t = (fault q).elim (.ok (transfer q t, none)) .error
  obtain ⟨id, op⟩ := q
  cases op with
  | binary op d l r =>
    simp only [passing, fault, transfer, evalBinary, binaryState, Operand.isInteger_eq (t := t)]
    cases op.fold? with
    | none => rfl
    | some f =>
      cases l.state? t with
      | none => rfl
      | some a =>
        cases r.state? t with
        | none => rfl
        | some b => rfl
  | _ => rfl

theorem NullCheck.passing_follows (m : NullCheckMode) : (Analysis.nullCheck m).CarriedOutBy (passing m) := by
  intro g q s
  obtain ⟨id, op⟩ := q
  cases op with
  | nullCheck guard src =>
    cases src with
    | reg r => rfl
    | int v => rfl
    | null => rfl
    | symbol name => rfl
  | _ => rfl

namespace InPlace

variable {α β L : Type} [DecidableEq L] {g left : Graph}

/-! ### One operation after another -/

theorem on_bind (op : InPlace α) (k : α → InPlace β) (g : Graph) : (op >>= k).on g =
    match op.on g with
    | (.ok a, left) => (k a).on left
    | (.error e, left) => (.error e, left) := by
  show (ExceptT.run (op >>= k)).run g = _
  rw [ExceptT.run_bind, StateT.run_bind, on]
  cases (ExceptT.run op).run g with
  | mk outcome left => cases outcome <;> rfl

theorem on_bind_of_ok {op : InPlace α} {a : α} (h : op.on g = (.ok a, left)) (k : α → InPlace β) :
    (op >>= k).on g = (k a).on left := by
  rw [on_bind, h]

theorem on_bind_of_error {op : InPlace α} {e : FlowError} (h : op.on g = (.error e, left))
    (k : α → InPlace β) : (op >>= k).on g = (.error e, left) := by
  rw [on_bind, h]

section

variable {how : Graph → Passing L} {w w' : Progress L} (ha : w.analysis.CarriedOutBy how)
include ha

theorem on_runSolver (g : Graph) : (runSolver how ⟨some w⟩).on g =
    match w.solve g with
    | (.ok n, w') => (.ok (⟨w'.analysis.name, n, g.quadCount,
        g.quadCount - (g.removeQuads w'.pending).quadCount⟩, ⟨some w'⟩), g.removeQuads w'.pending)
    | (.error e, _) => (.error e, g) := by
  have hget : (get : InPlace Graph).on g = (.ok g, g) := rfl
  rw [runSolver, on_bind_of_ok hget, Solver.runStep_eq (ha g)]
  simp only [Solver.run]
  obtain ⟨outcome, w'⟩ := w.solve g
  cases outcome <;> rfl

theorem on_runSolver_of_ok {n : Nat} (h : w.solve g = (.ok n, w')) :
    ∃ stats, stats.analysis = w'.analysis.name ∧
      (runSolver how ⟨some w⟩).on g = (.ok (stats, ⟨some w'⟩), g.removeQuads w'.pending) := by
  rw [on_runSolver ha, h]
  exact ⟨_, rfl, rfl⟩

theorem on_runSolver_of_error {e : FlowError} (h : w.solve g = (.error e, w')) :
    (runSolver how ⟨some w⟩).on g = (.error e, g) := by
  rw [on_runSolver ha, h]

end

/-! ### Operations that only look -/

section

variable {a : Analysis L} {how : Graph → Passing L} (ha : a.CarriedOutBy how) (hr : a.removes = false)
include ha hr

/-- An analysis that removes nothing leaves the graph alone. -/
theorem on_runSolver_of_not_removes {n : Nat} {w : Progress L} (h : (Progress.start a).solve g = (.ok n, w)) :
    ∃ stats, (runSolver how (.ofAnalysis a)).on g = (.ok (stats, ⟨some w⟩), g) := by
  obtain ⟨stats, -, hrun⟩ := on_runSolver_of_ok (w := .start a) ha h
  have hw : w.analysis = a := by
    have hsame := (Progress.start a).solve_analysis g
    rw [h] at hsame
    exact hsame
  rw [Progress.pending_of_not_removes (hw ▸ hr), Graph.removeQuads_nil] at hrun
  exact ⟨stats, hrun⟩

theorem on_report (g : Graph) : (report a how).on g = (a.reportOn g, g) := by
  rw [report, Analysis.reportOn]
  cases hs : (Progress.start a).solve g with
  | mk outcome w =>
    cases outcome with
    | error e => exact on_bind_of_error (on_runSolver_of_error (w := .start a) ha hs) _
    | ok n =>
      obtain ⟨stats, hrun⟩ := on_runSolver_of_not_removes ha hr hs
      exact on_bind_of_ok hrun _

end

theorem on_analyze (kind : AnalysisKind) (g : Graph) : (analyze kind).on g = (kind.run g, g) := by
  cases kind with
  | liveness => exact on_report (fun _ => Problem.passing_follows rfl) rfl g
  | faintness => exact on_report (fun _ => Problem.passing_follows rfl) rfl g
  | reachingDefs => exact on_report (fun _ => Problem.passing_follows rfl) rfl g
  | constantProp => exact on_report ConstantProp.passing_follows rfl g
  | nullCheck => exact on_report (NullCheck.passing_follows .report) rfl g

theorem on_redundantNullChecks (g : Graph) : redundantNullChecks.on g = (g.redundantNullChecks, g) := by
  have ha := NullCheck.passing_follows .report
  rw [redundantNullChecks, Graph.redundantNullChecks]
  cases hs : (Progress.start (.nullCheck .report)).solve g with
  | mk outcome w =>
    cases outcome with
    | error e => exact on_bind_of_error (on_runSolver_of_error (w := .start _) ha hs) _
    | ok n =>
      obtain ⟨stats, hrun⟩ := on_runSolver_of_not_removes ha rfl hs
      exact on_bind_of_ok hrun _

/-! ### Passes -/

section

variable {w : Progress L} {a : Analysis L} {how : Graph → Passing L} {round : Nat} (hw : w.analysis = a)
  (ha : a.CarriedOutBy how)
include hw ha

theorem on_pass_of_ok {p : PassReport} (h : a.runPass round g = .ok (p, left)) :
    ∃ w', w'.analysis = a ∧ (pass how ⟨some w⟩ round).on g = (.ok (p, ⟨some w'⟩), left) := by
  subst hw
  obtain ⟨n, w', hs, rfl, rfl⟩ := Analysis.runPass_ok h
  replace hs : w.solve g = (.ok n, w') := hs
  obtain ⟨stats, hname, hrun⟩ := on_runSolver_of_ok ha hs
  have hsame : w'.analysis = w.analysis := by
    rw [← w.solve_analysis g, hs]
  refine ⟨w', hsame, ?_⟩
  rw [pass, on_bind_of_ok hrun, ← hsame, ← hname]
  rfl

/-- A pass that fails leaves the graph alone. -/
theorem on_pass_of_error {e : FlowError} (h : a.runPass round g = .error e) :
    (pass how ⟨some w⟩ round).on g = (.error e, g) := by
  subst hw
  rw [Analysis.runPass] at h
  cases hs : w.solve g with
  | mk outcome w' =>
    rw [show (Progress.start w.analysis).solve g = (outcome, w') from hs] at h
    cases outcome with
    | error err =>
      obtain rfl : err = e := Except.error.inj h
      exact on_bind_of_error (on_runSolver_of_error ha hs) _
    | ok n => cases h

end

/-! ### The same passes with solvers that are kept -/

section

variable {γ δ : Type} {R : α → β → Prop} {S : γ → δ → Prop}

/-- An operation in place has come to the result of one that hands graphs on, up to `R`. -/
def Agrees (R : α → β → Prop) (x : Except FlowError α × Graph) : Except FlowError (β × Graph) → Prop
  | .ok (b, left) => ∃ a, R a b ∧ x = (.ok a, left)
  | .error e => x.1 = .error e

theorem Agrees.pure {a : α} {b : β} (h : R a b) (g : Graph) :
    Agrees R ((Pure.pure a : InPlace α).on g) (.ok (b, g)) := ⟨a, h, rfl⟩

theorem Agrees.bind {op : InPlace α} {r : Except FlowError (β × Graph)} (h : Agrees R (op.on g) r)
    {k : α → InPlace γ} {f : β × Graph → Except FlowError (δ × Graph)}
    (hk : ∀ a b left, r = .ok (b, left) → R a b → Agrees S ((k a).on left) (f (b, left))) :
    Agrees S ((op >>= k).on g) (r >>= f) := by
  cases r with
  | error e =>
    have hop : op.on g = (.error e, (op.on g).2) := Prod.ext h rfl
    rw [on_bind_of_error hop]
    exact rfl
  | ok outcome =>
    obtain ⟨b, left⟩ := outcome
    obtain ⟨a, hab, hop⟩ := h
    rw [on_bind_of_ok hop]
    exact hk a b left rfl hab

end

/-- A pass has been reported, and the solver still holds its analysis. -/
def Passed (a : Analysis L) (outcome : PassReport × Solver L) (p : PassReport) : Prop :=
  outcome.1 = p ∧ ∃ w, outcome.2 = ⟨some w⟩ ∧ w.analysis = a

theorem agrees_pass {w : Progress L} {a : Analysis L} {how : Graph → Passing L} (hw : w.analysis = a)
    (ha : a.CarriedOutBy how) (round : Nat) (g : Graph) :
    Agrees (Passed a) ((pass how ⟨some w⟩ round).on g) (a.runPass round g) := by
  cases h : a.runPass round g with
  | error e =>
    show ((pass how ⟨some w⟩ round).on g).1 = .error e
    rw [on_pass_of_error hw ha h]
  | ok outcome =>
    obtain ⟨p, left⟩ := outcome
    obtain ⟨w', hw', hon⟩ := on_pass_of_ok hw ha h
    exact ⟨_, ⟨rfl, w', rfl, hw'⟩, hon⟩

theorem agrees_passChecks {m : NullCheckMode} {w : Progress Registers} (hw : w.analysis = .nullCheck m)
    (round : Nat) (g : Graph) : Agrees (Passed (.nullCheck m)) ((passChecks m ⟨some w⟩ round).on g)
      ((Analysis.nullCheck m).runPass round g) :=
  agrees_pass hw (NullCheck.passing_follows m) round g

theorem agrees_passDeadCode {w : Progress Registers} (hw : w.analysis = .liveness true) (round : Nat)
    (g : Graph) : Agrees (Passed (.liveness true)) ((passDeadCode ⟨some w⟩ round).on g)
      ((Analysis.liveness true).runPass round g) :=
  agrees_pass hw (fun _ => Problem.passing_follows rfl) round g

theorem agrees_optimizeRounds {checks deadCode : Progress Registers}
    (hc : checks.analysis = .nullCheck .extendedRemoving) (hl : deadCode.analysis = .liveness true)
    (round rounds : Nat) (g : Graph) :
    Agrees (· = ·) ((optimizeRounds ⟨some checks⟩ ⟨some deadCode⟩ round rounds).on g)
      (g.optimizeRounds round rounds) := by
  induction rounds generalizing checks deadCode round g with
  | zero => exact .pure rfl g
  | succ rounds ih =>
    rw [optimizeRounds, Graph.optimizeRounds, Graph.optimizeRound, bind_assoc]
    refine (agrees_passChecks hc round g).bind ?_
    rintro ⟨_, _⟩ first left - ⟨rfl, checks, rfl, hc⟩
    rw [bind_assoc]
    refine (agrees_passDeadCode hl round left).bind ?_
    rintro ⟨_, _⟩ second left - ⟨rfl, deadCode, rfl, hl⟩
    rw [pure_bind]
    refine (ih hc hl (round + 1) left).bind ?_
    rintro later _ left - rfl
    exact .pure rfl left

theorem agrees_optimize (c : OptimizeSettings) (g : Graph) :
    Agrees (· = ·) ((optimize c).on g) (g.optimize c) := by
  rw [optimize, Graph.optimize]
  cases c.nullCheckOnly with
  | true =>
    simp only [↓reduceIte]
    refine (agrees_passChecks rfl 0 g).bind ?_
    rintro ⟨_, _⟩ outcome left hleft ⟨rfl, _, rfl, _⟩
    obtain ⟨n, w, -, -, rfl⟩ := Analysis.runPass_ok hleft
    exact .pure rfl _
  | false =>
    simp only [Bool.false_eq_true, ↓reduceIte]
    refine (agrees_optimizeRounds rfl rfl 0 c.rounds g).bind ?_
    rintro passes _ left hleft rfl
    obtain ⟨-, rfl⟩ := Graph.optimizeRounds_ok hleft
    rw [← g.afterPasses_method passes]
    exact .pure rfl _

theorem on_optimize_ok_iff {c : OptimizeSettings} {report : OptimizeReport} :
    (optimize c).on g = (.ok report, left) ↔ g.optimize c = .ok (report, left) := by
  have h := agrees_optimize c g
  cases hopt : g.optimize c with
  | error e =>
    have herror : ((optimize c).on g).1 = .error e := by
      rw [hopt] at h
      exact h
    refine iff_of_false (fun hok => ?_) nofun
    rw [hok] at herror
    cases herror
  | ok outcome =>
    obtain ⟨report', left'⟩ := outcome
    rw [hopt] at h
    obtain ⟨_, rfl, hon⟩ := h
    rw [hon]
    simp

end InPlace

end Dataflow
