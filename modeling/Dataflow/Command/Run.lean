import Dataflow.Command.Args
import Dataflow.Command.Files
import Dataflow.Output.Render
import Dataflow.Settings
import Dataflow.Source.Graphs
import Dataflow.Text.Basic

/-!
# Carrying out a command

All results are computed before any is written, so that a command that fails writes nothing; only
`validate` writes as it goes.
-/

namespace Dataflow.Command

/-- A failure and what caused it, the nearest cause first. -/
structure Failure where
  message : String
  causes : List String
deriving DecidableEq, Repr

namespace Failure

/-- Text whose later lines are indented. -/
def indentLater (margin text : String) : String := ("\n" ++ margin).intercalate (text.splitOn "\n")

/-- The message, and under it the causes, numbered if there are several. -/
def text (f : Failure) : String :=
  let causes := match f.causes with
    | [] => ""
    | [c] => "\n\nCaused by:\n    " ++ indentLater "    " c
    | cs => "\n\nCaused by:" ++ String.join (cs.zipIdx.map fun (c, i) =>
        "\n    " ++ toString i ++ ": " ++ indentLater "       " c)
  "Error: " ++ f.message ++ causes ++ "\n"

end Failure

/-- What a command leaves behind. -/
structure Outcome where
  stdout : String
  failure : Option Failure
deriving DecidableEq, Repr

/-- What a command finds around it: what its output is, and the files by their paths. -/
structure Surroundings where
  terminal : Bool
  forceColor : Bool
  tree? : String → Option FileTree

/-! ### Input files -/

def notUtf8 : String := "stream did not contain valid UTF-8"

/-- The files that one input stands for, with their paths. -/
def filesOf (s : Surroundings) (input : String) : Except Failure (List (String × ByteArray)) :=
  match s.tree? input with
  | none => .error ⟨"input not found: " ++ input, []⟩
  | some (.file bytes) => .ok [(input, bytes)]
  | some t =>
    match t.quadFiles with
    | [] => .error ⟨"no .quad files under " ++ input, []⟩
    | files => .ok (files.map fun (names, bytes) => (joinPath input names, bytes))

def inputFiles (s : Surroundings) (inputs : List String) : Except Failure (List (String × ByteArray)) := do
  return (← inputs.mapM (filesOf s)).flatten

/-- A parse error and what caused it. -/
def parseCauses (e : Source.ParseError) : List String :=
  e.message :: match e with
    | .badText inner => [inner.message]
    | .graph _ inner => [inner.message]
    | _ => []

def loadGraphs (path : String) (bytes : ByteArray) : Except Failure (List Graph) :=
  let message := "failed to load " ++ path
  match String.fromUTF8? bytes with
  | none => .error ⟨message, ["Failed to read " ++ quotedText path ++ ": " ++ notUtf8, notUtf8]⟩
  | some text => (Source.graphs text).mapError fun e => ⟨message, parseCauses e⟩

/-- Applies `f` to every graph of every file, file by file. -/
def forGraphs {α : Type} (s : Surroundings) (inputs : List String)
    (f : Graph → Except Failure (List α)) : Except Failure (List α) := do
  let results ← (← inputFiles s inputs).mapM fun (path, bytes) => do
    return (← (← loadGraphs path bytes).mapM f).flatten
  return results.flatten

def failedOn {α : Type} (what : String) (g : Graph) : Except FlowError α → Except Failure (List α)
  | .ok a => .ok [a]
  | .error e => .error ⟨what ++ " failed on method " ++ g.method.name, [e.message]⟩

/-! ### Tasks -/

/-- The settings that a file gives. -/
def loadSettings (s : Surroundings) (path : String) : Except Failure OptimizeSettings :=
  let config := match (s.tree? path).map FileTree.text? with
    | some (some text) => OptimizeSettings.ofText text
    | some none => .error (.config (path ++ ": " ++ notUtf8))
    | none => .error (.config (path ++ ": file not found"))
  config.mapError fun e => ⟨e.message, []⟩

/-- The settings of an optimization: those of the file, overridden by the options. -/
def optimizeSettings (s : Surroundings) (rounds : Option Nat) (full : Bool) (config : Option String) :
    Except Failure OptimizeSettings := do
  let c ← match config with
    | some path => loadSettings s path
    | none => .ok .default
  return ⟨rounds.getD c.rounds, c.nullCheckOnly && !full⟩

def written (e : Except Failure String) : Outcome :=
  match e with
  | .ok out => ⟨out, none⟩
  | .error f => ⟨"", some f⟩

/-- Checks one file after another. Answers what is written, and how many are invalid or what stopped
the check. -/
def validateFiles (color : Bool) : List (String × ByteArray) → String × Except Failure Nat
  | [] => ("", .ok 0)
  | (path, bytes) :: files =>
    let label (code word : String) := (if color then styled code word else word) ++ " " ++ path ++ "\n"
    match String.fromUTF8? bytes with
    | none => ("", .error ⟨"failed to read " ++ path, [notUtf8]⟩)
    | some text =>
      let (line, invalid) := match Source.program.parse text with
        | .ok _ => (label "1;92" "VALID", 0)
        | .error e => (label "1;91" "INVALID" ++ e.message ++ "\n", 1)
      let (out, r) := validateFiles color files
      (line ++ out, r.map (· + invalid))

def validate (color : Bool) (files : List (String × ByteArray)) : Outcome :=
  match validateFiles color files with
  | (out, .error f) => ⟨out, some f⟩
  | (out, .ok 0) => ⟨out, none⟩
  | (out, .ok n) => ⟨out, some ⟨toString n ++ " file(s) failed validation", []⟩⟩

/-- Carries out a command. -/
def run (s : Surroundings) (i : Invocation) : Outcome :=
  let style (format : OutputFormat) : OutputStyle :=
    { OutputStyle.default with useColors := !i.noColor && s.terminal, format }
  match i.task with
  | .analyze kind method format => written do
    let reports ← forGraphs s i.inputs fun g =>
      if method.any (· ≠ g.method.name) then .ok [] else failedOn kind.name g (kind.run g)
    match method, reports with
    | some name, [] => .error ⟨"no method named " ++ name, []⟩
    | _, _ => return renderAll (style format) reports
  | .nullChecks format => written do
    let reports ← forGraphs s i.inputs fun g => failedOn "null-check analysis" g g.redundantNullChecks
    return renderAll (style format) reports
  | .optimize rounds full config format => written do
    let c ← optimizeSettings s rounds full config
    let summaries ← forGraphs s i.inputs fun g =>
      failedOn "optimization" g ((g.optimize c).map (·.1))
    return renderAll (style format) summaries
  | .validate =>
    match inputFiles s i.inputs with
    | .error f => ⟨"", some f⟩
    | .ok files => validate (!i.noColor && (s.forceColor || s.terminal)) files

/-- What the program calls itself. -/
def versionLine : String := "quadflow 0.1.0\n"

end Dataflow.Command
