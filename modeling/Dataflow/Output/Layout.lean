import Dataflow.Output.Style
import Dataflow.Json.Printer

/-!
# Lines

Lines of output, indented to a level and coloured on demand. The colour covers the text of a line, not
its indentation.
-/

namespace Dataflow

inductive Color where
  | yellow
  | green
  | red
deriving DecidableEq, Repr

/-- Text in the style that a terminal knows by the code. Where the text itself goes back to plain, the
style sets in again. -/
def styled (code text : String) : String :=
  let style := "\x1b[" ++ code ++ "m"
  let plain := "\x1b[0m"
  style ++ (plain ++ style).intercalate (text.splitOn plain) ++ plain

namespace Color

def code : Color → String
  | yellow => "33"
  | green => "32"
  | red => "31"

end Color

/-- The level of indentation, what one level is indented by, and whether to colour. -/
structure Layout where
  level : Nat
  unit : String
  useColors : Bool
deriving DecidableEq, Repr

namespace Layout

def default : Layout := ⟨0, "  ", false⟩

def ofStyle (c : OutputStyle) : Layout := ⟨0, String.ofList (List.replicate c.indent ' '), c.useColors⟩

def indent (l : Layout) : Layout := { l with level := l.level + 1 }

def dedent (l : Layout) : Layout := { l with level := l.level - 1 }

/-- What every line starts with. -/
def margin (l : Layout) : String := String.join (List.replicate l.level l.unit)

def line (l : Layout) (text : String) : String := l.margin ++ text ++ "\n"

/-- A line in the style of the code, if there are colours. -/
def styledLine (l : Layout) (code text : String) : String :=
  l.line (if l.useColors then styled code text else text)

def coloredLine (l : Layout) (color : Color) (text : String) : String := l.styledLine color.code text

def header (l : Layout) (text : String) : String := l.styledLine "1;94" text

end Layout

/-- A JSON value and a line end. -/
def jsonLines (j : Json) : String := j.pretty ++ "\n"

end Dataflow
