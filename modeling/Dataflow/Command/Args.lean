import Dataflow.Analysis.Kind
import Dataflow.Output.Style
import Dataflow.Text.Basic

/-!
# The command line

`analyze`, `null-checks`, `optimize` and `validate` take files and directories, with options anywhere
among them: `--name value`, `--name=value`, `-n value`, `-nvalue`, and flags that may share one dash.
After `--` everything is a file. An option may be given once, except `-v`. Reading goes from left to
right and stops at the first mistake, or where help or the version is asked for.
-/

namespace Dataflow.Command

inductive Opt where
  | verbose | noColor | help | version | analysis | method | format | rounds | full | config
deriving DecidableEq, Repr

namespace Opt

def long : Opt → String
  | verbose => "verbose"
  | noColor => "no-color"
  | help => "help"
  | version => "version"
  | analysis => "analysis"
  | method => "method"
  | format => "format"
  | rounds => "rounds"
  | full => "full"
  | config => "config"

def short? : Opt → Option Char
  | verbose => some 'v'
  | help => some 'h'
  | version => some 'V'
  | analysis => some 'a'
  | method => some 'm'
  | rounds => some 'r'
  | config => some 'c'
  | noColor | format | full => none

def takesValue : Opt → Bool
  | analysis | method | format | rounds | config => true
  | verbose | noColor | help | version | full => false

end Opt

/-- A count of rounds, with or without a plus sign. -/
def readRounds? (s : String) : Option Nat :=
  let digits := match s.toList with
    | '+' :: ds => ds
    | ds => ds
  if !digits.isEmpty && digits.all Char.isDigit then readBelow UInt64.size digits else none

namespace Opt

/-- Whether the option can have this value. -/
def admits : Opt → String → Bool
  | analysis, s => AnalysisKind.all.any (·.name == s)
  | format, s => (OutputFormat.ofExactName? s).isSome
  | rounds, s => (readRounds? s).isSome
  | config, s => !s.isEmpty
  | _, _ => true

end Opt

/-- Why the command line is not carried out. -/
inductive Stop where
  | usage
  | help
  | version
deriving DecidableEq, Repr

/-- What has been read: options with their values, and files, the last first. -/
structure Given where
  options : List (Opt × String)
  files : List String
deriving DecidableEq, Repr

namespace Given

def none : Given := ⟨[], []⟩

def has (g : Given) (o : Opt) : Bool := g.options.any (·.1 == o)

def value? (g : Given) (o : Opt) : Option String := g.options.lookup o

def addOption (g : Given) (o : Opt) (value : String) : Except Stop Given :=
  match o with
  | .help => .error .help
  | .version => .error .version
  | _ =>
    if (g.has o && o ≠ .verbose) || !o.admits value then .error .usage
    else .ok { g with options := (o, value) :: g.options }

def addFile (g : Given) (path : String) : Except Stop Given :=
  if path.isEmpty then .error .usage else .ok { g with files := path :: g.files }

end Given

/-- Whether a word can only be an option. -/
def isOption (s : String) : Bool :=
  match s.toList with
  | '-' :: _ :: _ => true
  | _ => false

/-- Reads the letters after a single dash. Answers the option whose value is still to come, if any. -/
def readShorts (known : List Opt) (g : Given) : List Char → Except Stop (Given × Option Opt)
  | [] => .ok (g, none)
  | c :: cs =>
    match known.find? (·.short? == some c) with
    | none => .error .usage
    | some o =>
      if o.takesValue then
        match cs with
        | [] => .ok (g, some o)
        | '=' :: v => return (← g.addOption o (String.ofList v), none)
        | v => return (← g.addOption o (String.ofList v), none)
      else do readShorts known (← g.addOption o "") cs

/-- Reads what follows two dashes. -/
def readLong (known : List Opt) (g : Given) (s : List Char) : Except Stop (Given × Option Opt) :=
  match known.find? (·.long.toList == s.takeWhile (· ≠ '=')) with
  | none => .error .usage
  | some o =>
    match o.takesValue, s.dropWhile (· ≠ '=') with
    | true, [] => .ok (g, some o)
    | true, _ :: v => return (← g.addOption o (String.ofList v), none)
    | false, [] => return (← g.addOption o "", none)
    | false, _ => .error .usage

def readOption (known : List Opt) (g : Given) (s : String) : Except Stop (Given × Option Opt) :=
  match s.toList with
  | '-' :: '-' :: name => readLong known g name
  | _ :: letters => readShorts known g letters
  | [] => .error .usage

/-- Reads options and files. `pending` is an option whose value comes next. -/
def readArgs (known : List Opt) : (pending : Option Opt) → Given → List String → Except Stop Given
  | none, g, [] => .ok g
  | some _, _, [] => .error .usage
  | some o, g, a :: as =>
    if isOption a then .error .usage else do readArgs known none (← g.addOption o a) as
  | none, g, a :: as =>
    if a = "--" then as.foldlM Given.addFile g
    else if isOption a then do
      let (g, pending) ← readOption known g a
      readArgs known pending g as
    else do readArgs known none (← g.addFile a) as

/-! ### Commands -/

/-- What to do with the files. -/
inductive Task where
  | analyze (kind : AnalysisKind) (method : Option String) (format : OutputFormat)
  | nullChecks (format : OutputFormat)
  | optimize (rounds : Option Nat) (full : Bool) (config : Option String) (format : OutputFormat)
  | validate
deriving DecidableEq, Repr

structure Invocation where
  noColor : Bool
  inputs : List String
  task : Task
deriving DecidableEq, Repr

/-- The options of every command. -/
def commonOptions : List Opt := [.verbose, .noColor, .help]

/-- The options of a command besides the common ones. -/
def commandOptions? : String → Option (List Opt)
  | "analyze" => some [.analysis, .method, .format]
  | "null-checks" => some [.format]
  | "optimize" => some [.rounds, .full, .config, .format]
  | "validate" => some []
  | _ => none

def commandNames : List String := ["analyze", "null-checks", "optimize", "validate", "help"]

/-- The task of a command with its options. -/
def taskOf (name : String) (g : Given) : Task :=
  let format := ((g.value? .format).bind OutputFormat.ofExactName?).getD .text
  match name with
  | "analyze" =>
    let kind := (g.value? .analysis).bind fun s => AnalysisKind.all.find? (·.name == s)
    .analyze (kind.getD .liveness) (g.value? .method) format
  | "null-checks" => .nullChecks format
  | "optimize" =>
    .optimize ((g.value? .rounds).bind readRounds?) (g.has .full) (g.value? .config) format
  | _ => .validate

/-- Reads what follows the name of a command. -/
def readCommand (before : Given) (name : String) (args : List String) : Except Stop Invocation :=
  match commandOptions? name with
  | none =>
    if name = "help" && args.length ≤ 1 && args.all (· ∈ commandNames) then .error .help
    else .error .usage
  | some options => do
    let g ← readArgs (commonOptions ++ options) none .none args
    if g.files.isEmpty then .error .usage
    else return ⟨before.has .noColor || g.has .noColor, g.files.reverse, taskOf name g⟩

/-- Reads options up to the name of a command, then the command. -/
def readLine (g : Given) : List String → Except Stop Invocation
  | [] => .error .usage
  | a :: as =>
    if isOption a then do
      let (g, _) ← readOption (.version :: commonOptions) g a
      readLine g as
    else readCommand g a as

/-- Reads a whole command line. -/
def parse (args : List String) : Except Stop Invocation := readLine .none args

end Dataflow.Command
