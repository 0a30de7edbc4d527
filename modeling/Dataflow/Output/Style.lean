import Dataflow.Json.Reader
import Dataflow.Text.Basic

/-!
# How results are written
-/

namespace Dataflow

inductive OutputFormat where
  | text
  | json
deriving DecidableEq, Repr

namespace OutputFormat

def name : OutputFormat → String
  | text => "text"
  | json => "json"

/-- Exactly one of the names. -/
def ofExactName? (s : String) : Option OutputFormat := [text, json].find? (·.name == s)

/-- A name without regard to case; the message if there is no such format. -/
def ofName (s : String) : Except String OutputFormat :=
  match ofExactName? (lowerAscii s) with
  | some f => .ok f
  | none => .error ("unknown output format: " ++ lowerAscii s)

/-- A name, alone or as the one field of an object that holds no value. -/
def ofJson? : Json → Option OutputFormat
  | .string s | .object [(s, .null)] => ofExactName? s
  | _ => none

end OutputFormat

/-- Whether to colour, in which format to write, how many blanks a level is indented by, and whether to
list what an analysis removed. -/
structure OutputStyle where
  useColors : Bool
  format : OutputFormat
  indent : Nat
  showRemoved : Bool
deriving DecidableEq, Repr

namespace OutputStyle

def default : OutputStyle := ⟨true, .text, 2, true⟩

/-- Text without colours. -/
def plain : OutputStyle := { default with useColors := false }

def json : OutputStyle := { plain with format := .json }

def ofJson? (j : Json) : Option OutputStyle := do
  let [useColors, format, indent, showRemoved] ←
    j.record? ["use_colors", "format", "indent", "show_removed"] | none
  return {
    useColors := ← Json.fieldOr default.useColors Json.bool? useColors
    format := ← Json.fieldOr default.format OutputFormat.ofJson? format
    indent := ← Json.fieldOr default.indent Json.count? indent
    showRemoved := ← Json.fieldOr default.showRemoved Json.bool? showRemoved }

end OutputStyle

end Dataflow
