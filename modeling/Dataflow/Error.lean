import Dataflow.Quad.Text

/-!
# What can go wrong

Each error is its cause; `message` is the one place that words it.
-/

namespace Dataflow

/-- Why a change to a graph is refused. -/
inductive GraphFault where
  | duplicateBlock (b : BlockId)
  | edgeOutOfExit
  | edgeIntoEntry
  | quadInPseudoBlock (q : QuadId) (b : BlockId)
  | duplicateQuad (q : QuadId)
deriving DecidableEq, Repr

namespace GraphFault

def message : GraphFault → String
  | duplicateBlock b => "duplicate block " ++ b.text
  | edgeOutOfExit => "edge out of exit"
  | edgeIntoEntry => "edge into entry"
  | quadInPseudoBlock q b => "quad " ++ toString q ++ " placed in pseudo block " ++ b.text
  | duplicateQuad q => "duplicate quad id " ++ toString q

end GraphFault

/-- Why building a graph, solving an analysis or reading a setting fails. -/
inductive FlowError where
  | noAnalysis
  | noBottom (lattice : String)
  | arithmeticOperand (q : QuadId) (op : BinaryOp)
  | nullCheckOperand (q : QuadId) (src : Operand)
  | unsettled (analysis : String)
  | unknownBlock (b : BlockId)
  | malformedGraph (fault : GraphFault)
  | unknownAnalysis (name : String)
  | config (reason : String)
deriving DecidableEq, Repr

namespace FlowError

def message : FlowError → String
  | noAnalysis => "No analysis registered with the solver"
  | noBottom lattice => "Unsupported lattice operation: set_to_bottom on " ++ lattice
  | arithmeticOperand q op =>
    "Invariant violation at quad " ++ toString q ++ ": " ++ op.mnemonic ++ " expects integer operands"
  | nullCheckOperand q src =>
    "Invariant violation at quad " ++ toString q ++ ": NULL_CHECK on non-register operand " ++ src.text
  | unsettled analysis => "Analysis " ++ analysis ++ " did not settle"
  | unknownBlock b => "Unknown block: " ++ b.text
  | malformedGraph fault => "Malformed graph: " ++ fault.message
  | unknownAnalysis name => "Unknown analysis: " ++ name
  | config reason => "Config error: " ++ reason

end FlowError

end Dataflow
