import Dataflow.Main
import Dataflow.Lattice.Elements
import Dataflow.Proofs.Analysis.DeadCode
import Dataflow.Proofs.Analysis.Nullness
import Dataflow.Proofs.Analysis.Passes
import Dataflow.Proofs.Flow.Greatest
import Dataflow.Proofs.Lattice.Constants
import Dataflow.Proofs.Lattice.Sets
import Dataflow.Proofs.Analysis.Descents
import Dataflow.Proofs.Analysis.Solutions
import Dataflow.Proofs.Source.Layout
import Dataflow.Proofs.Source.Operands
import Dataflow.Proofs.Source.Reading
import Dataflow.Proofs.Source.Grammar
import Dataflow.Proofs.Source.Graphs
import Dataflow.Proofs.Source.RoundTrip
import Dataflow.Proofs.Analysis.ConstantProp
import Dataflow.Proofs.Graph.Contraction
import Dataflow.Proofs.Source.Jumps
import Dataflow.Proofs.Analysis.DefUse
import Dataflow.Proofs.Analysis.OrderFree
import Dataflow.Proofs.Analysis.InPlace
import Dataflow.Proofs.Analysis.Failures
import Dataflow.Proofs.Analysis.Accounting
import Dataflow.Proofs.Analysis.Redundancy
import Dataflow.Proofs.Analysis.Stability
import Dataflow.Proofs.Graph.Editing
import Dataflow.Proofs.Analysis.Routines
import Dataflow.Proofs.Analysis.PathValues
import Dataflow.Proofs.Analysis.Faintness
import Dataflow.Proofs.Analysis.SecondElimination
import Dataflow.Proofs.Analysis.ExtendedMode
import Dataflow.Proofs.Lattice.Laws
import Dataflow.Proofs.Lattice.Rendering
import Dataflow.Proofs.Source.Registers
import Dataflow.Proofs.Analysis.Reports
