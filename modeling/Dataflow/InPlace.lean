import Dataflow.Flow.Stepwise
import Dataflow.Optimize

/-!
# Operations on a graph that is kept

Whoever holds a graph sees each operation as a change to it: there is a result or an error, and in either case
some graph is left (`InPlace.on`). A quad is refused when a sweep comes to it, whatever the value there, and an
optimization keeps its two solvers from one round to the next, so each pass but the first starts from a solver
that still holds what an earlier one has found.
-/

namespace Dataflow

/-! ### Passing a quad -/

/-- What is known of what a binary quad writes, if the operation can be carried out. -/
def ConstantProp.evalBinary (id : QuadId) (t : Constants) (op : BinaryOp) (l r : Operand) :
    Except FlowError ConstState :=
  match op.fold? with
  | none => .ok .nac
  | some f =>
    match l.state? t, r.state? t with
    | some a, some b => .ok (a.combine f b)
    | _, _ => .error (.arithmeticOperand id op)

def ConstantProp.passing : Passing Constants := fun q t =>
  match q.op with
  | .binary op d l r => do
    let s ← evalBinary q.id t op l r
    return (t.set d s, none)
  | _ => .ok (transfer q t, none)

/-- A check flags itself or clears its flag, and its register is known afterwards. -/
def NullCheck.passing (m : NullCheckMode) (g : Graph) : Passing Registers :=
  let facts := if m.extended then g.branchFacts else []
  fun q s =>
    let s := known m g facts q s
    match q.op with
    | .nullCheck _ src =>
      match src.register? with
      | some r => .ok (s.insertAll [r], some (r ∈ s))
      | none => .error (.nullCheckOperand q.id src)
    | _ => .ok (s, none)

/-- What answers a result or an error, and may in either case change the graph that it acts on. -/
abbrev InPlace : Type → Type := ExceptT FlowError (StateM Graph)

namespace InPlace

variable {α L : Type} [DecidableEq L]

/-- What an operation answers on `g`, and the graph that it leaves. -/
def on (op : InPlace α) (g : Graph) : Except FlowError α × Graph := (ExceptT.run op).run g

/-- Runs a solver. Answers what the run did and the solver afterwards. -/
def runSolver (how : Graph → Passing L) (s : Solver L) : InPlace (RunStats × Solver L) := do
  let (outcome, s, left) := s.runStep how (← get)
  set left
  match outcome with
  | .ok stats => return (stats, s)
  | .error e => throw e

/-- Solves an analysis and reports its values and what it asked to remove. -/
def report (a : Analysis L) (how : Graph → Passing L) : InPlace FlowReport := do
  let (_, s) ← runSolver how (.ofAnalysis a)
  match s.take.1 with
  | some w => return { w.report (← get) with removed := w.pending }
  | none => throw .noAnalysis

/-- The values of one analysis. -/
def analyze : AnalysisKind → InPlace FlowReport
  | .liveness => report (.liveness false) fun g => (Liveness.problem g).passing
  | .faintness => report .faintness fun g => (Faintness.problem g).passing
  | .reachingDefs => report .reachingDefs fun g => (ReachingDefs.problem g).passing
  | .constantProp => report .constantProp fun _ => ConstantProp.passing
  | .nullCheck => report (.nullCheck .report) (NullCheck.passing .report)

/-- The redundant null checks, found by plain elimination without removing them. -/
def redundantNullChecks : InPlace NullCheckReport := do
  let (_, s) ← runSolver (NullCheck.passing .report) (.ofAnalysis (.nullCheck .report))
  let redundant := (s.registered.map (·.findings.flagged.toList)).getD []
  return ⟨(← get).method.name, redundant⟩

/-- One pass of a solver. Answers what it removed and the solver afterwards. -/
def pass (how : Graph → Passing L) (s : Solver L) (round : Nat) : InPlace (PassReport × Solver L) := do
  let (stats, s) ← runSolver how s
  return (⟨stats.analysis, round, (s.registered.map Progress.pending).getD []⟩, s)

/-- A pass that eliminates null checks. -/
def passChecks (m : NullCheckMode) (s : Solver Registers) (round : Nat) :
    InPlace (PassReport × Solver Registers) := pass (NullCheck.passing m) s round

/-- A pass that removes dead code. -/
def passDeadCode (s : Solver Registers) (round : Nat) : InPlace (PassReport × Solver Registers) :=
  pass (fun g => (Liveness.problem g).passing) s round

/-- `rounds` rounds from number `round` on, each an elimination of null checks and a dead code removal. -/
def optimizeRounds (checks deadCode : Solver Registers) (round : Nat) :
    (rounds : Nat) → InPlace (List PassReport)
  | 0 => return []
  | rounds + 1 => do
    let (first, checks) ← passChecks .extendedRemoving checks round
    let (second, deadCode) ← passDeadCode deadCode round
    let later ← optimizeRounds checks deadCode (round + 1) rounds
    return first :: second :: later

/-- Runs the configured passes. Answers which quads each removed. -/
def optimize (c : OptimizeSettings) : InPlace OptimizeReport := do
  let passes ←
    if c.nullCheckOnly then do
      let (outcome, _) ← passChecks .removing (.ofAnalysis (.nullCheck .removing)) 0
      pure [outcome]
    else
      optimizeRounds (.ofAnalysis (.nullCheck .extendedRemoving)) (.ofAnalysis (.liveness true)) 0 c.rounds
  return ⟨(← get).method.name, passes⟩

end InPlace

end Dataflow
