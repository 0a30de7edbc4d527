import Dataflow.Quad.Basic

/-!
# Reports

What is told about one method: the values of an analysis, the null checks that are redundant, or the
quads that each pass of the optimizer removed. Values appear here as text.
-/

namespace Dataflow

/-- The values before and after one quad. -/
structure QuadValues where
  id : QuadId
  input : String
  output : String
deriving DecidableEq, Repr

/-- The values of one analysis, quad by quad in ascending order of their numbers. -/
structure FlowReport where
  analysis : String
  method : String
  entry : String
  nodes : List QuadValues
  exit : String
  removed : List QuadId
deriving DecidableEq, Repr

namespace FlowReport

def node? (r : FlowReport) (id : QuadId) : Option QuadValues := r.nodes.find? (·.id == id)

end FlowReport

/-- The null checks of one method that can never throw. -/
structure NullCheckReport where
  method : String
  redundant : List QuadId
deriving DecidableEq, Repr

namespace NullCheckReport

/-- The name of the method, then the numbers. -/
def text (r : NullCheckReport) : String := " ".intercalate (r.method :: r.redundant.map toString)

end NullCheckReport

/-- The quads that one pass removed. -/
structure PassReport where
  pass : String
  round : Nat
  removed : List QuadId
deriving DecidableEq, Repr

/-- The passes that ran over one method, in order. -/
structure OptimizeReport where
  method : String
  passes : List PassReport
deriving DecidableEq, Repr

namespace OptimizeReport

def totalRemoved (s : OptimizeReport) : Nat := (s.passes.flatMap (·.removed)).length

end OptimizeReport

end Dataflow
