import Dataflow.Analysis.Liveness
import Dataflow.Analysis.Faintness
import Dataflow.Analysis.ReachingDefs
import Dataflow.Analysis.ConstantProp
import Dataflow.Analysis.NullCheck
import Dataflow.Text.Basic

/-!
# The five analyses by name

Each analysis has one name; a name is looked up without regard to case, surrounding blanks, or `_`
written for `-`.
-/

namespace Dataflow

inductive AnalysisKind where
  | liveness
  | faintness
  | reachingDefs
  | constantProp
  | nullCheck
deriving DecidableEq, Repr

namespace AnalysisKind

def all : List AnalysisKind := [liveness, faintness, reachingDefs, constantProp, nullCheck]

def name : AnalysisKind → String
  | liveness => "liveness"
  | faintness => "faintness"
  | reachingDefs => "reaching-defs"
  | constantProp => "constant-prop"
  | nullCheck => "null-check"

def ofName (s : String) : Except FlowError AnalysisKind :=
  let wanted := (lowerAscii (trimBlanks s)).toList.map fun c => if c = '_' then '-' else c
  match all.find? (·.name.toList == wanted) with
  | some k => .ok k
  | none => .error (.unknownAnalysis s)

end AnalysisKind

/-- Solves an analysis on `g` and reports its values and what it asks to remove. -/
def Analysis.reportOn {L : Type} [DecidableEq L] (a : Analysis L) (g : Graph) :
    Except FlowError FlowReport :=
  match (Progress.start a).solve g with
  | (.error e, _) => .error e
  | (.ok _, w) => .ok { w.report g with removed := w.pending }

/-- The values of one analysis on `g`. -/
def AnalysisKind.run (g : Graph) : AnalysisKind → Except FlowError FlowReport
  | liveness => (Analysis.liveness false).reportOn g
  | faintness => Analysis.faintness.reportOn g
  | reachingDefs => Analysis.reachingDefs.reportOn g
  | constantProp => Analysis.constantProp.reportOn g
  | nullCheck => (Analysis.nullCheck .report).reportOn g

end Dataflow
