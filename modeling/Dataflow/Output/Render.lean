import Dataflow.Output.Layout
import Dataflow.Report

/-!
# Writing reports

Reports are written as text or as JSON. As text, one report follows another; as JSON, several reports
make one array.
-/

namespace Dataflow

/-- Something that can be written as text or as JSON. -/
class Renderable (α : Type) where
  json : α → Json
  text : OutputStyle → Layout → α → String

/-- One item. -/
def render {α : Type} [Renderable α] (c : OutputStyle) (item : α) : String :=
  match c.format with
  | .json => jsonLines (Renderable.json item)
  | .text => Renderable.text c (.ofStyle c) item

/-- All items. -/
def renderAll {α : Type} [Renderable α] (c : OutputStyle) (items : List α) : String :=
  match c.format with
  | .json => jsonLines (.array (items.map Renderable.json))
  | .text => String.join (items.map (Renderable.text c (.ofStyle c)))

def Json.ofIds (ids : List QuadId) : Json := .array (ids.map .ofNat)

/-- Numbers with blanks between them. -/
def idsText (ids : List QuadId) : String := " ".intercalate (ids.map toString)

namespace FlowReport

def toJson (r : FlowReport) : Json :=
  .object ([("analysis", .string r.analysis), ("method", .string r.method), ("entry", .string r.entry),
    ("nodes", .array (r.nodes.map fun n =>
      .object [("id", .ofNat n.id), ("in", .string n.input), ("out", .string n.output)])),
    ("exit", .string r.exit)] ++
    if r.removed.isEmpty then [] else [("removed", .ofIds r.removed)])

def write (c : OutputStyle) (l : Layout) (r : FlowReport) : String :=
  String.join (
    [l.header ("Method: " ++ r.method), l.line ("entry: " ++ r.entry)] ++
    r.nodes.flatMap (fun n =>
      [l.line (toString n.id ++ " in:  " ++ n.input), l.line (toString n.id ++ " out: " ++ n.output)]) ++
    [l.line ("exit: " ++ r.exit)] ++
    if c.showRemoved && !r.removed.isEmpty then
      [l.coloredLine .yellow ("removed: " ++ idsText r.removed)]
    else [])

instance : Renderable FlowReport := ⟨toJson, write⟩

end FlowReport

namespace NullCheckReport

def toJson (r : NullCheckReport) : Json :=
  .object [("method", .string r.method), ("redundant", .ofIds r.redundant)]

instance : Renderable NullCheckReport := ⟨toJson, fun _ l r => l.line r.text⟩

end NullCheckReport

namespace OptimizeReport

def toJson (s : OptimizeReport) : Json :=
  .object [("method", .string s.method), ("passes", .array (s.passes.map fun p =>
    .object [("pass", .string p.pass), ("round", .ofNat p.round), ("removed", .ofIds p.removed)]))]

def write (l : Layout) (s : OptimizeReport) : String :=
  String.join (
    [l.header ("Method: " ++ s.method)] ++
    s.passes.map (fun p =>
      let removed := if p.removed.isEmpty then "nothing" else idsText p.removed
      l.indent.line ("round " ++ toString p.round ++ " " ++ p.pass ++ ": removed " ++ removed)) ++
    [l.coloredLine .green ("total removed: " ++ toString s.totalRemoved)])

instance : Renderable OptimizeReport := ⟨toJson, fun _ => write⟩

end OptimizeReport

end Dataflow
