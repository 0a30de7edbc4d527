import Dataflow.Command.Run

/-!
# The program

Reads the files that a command line names, hands them to `Command.run`, and writes what comes back.
-/

namespace Dataflow.Command

def usage : String :=
  "Usage: quadflow [-v] [--no-color] <analyze|null-checks|optimize|validate> [options] <inputs>\n"

/-- What is stored at a path; nothing if it cannot be read. -/
partial def readTree (path : String) : IO (Option FileTree) :=
  try
    let place ← IO.FS.realPath path
    if ← place.isDir then
      let entries ← (← place.readDir).toList.filterMapM fun e => do
        return (← readTree e.path.toString).map (e.fileName, ·)
      return some (.directory entries)
    else
      return some (.file (← IO.FS.readBinFile place))
  catch _ => return none

/-- The paths that a command reads. -/
def Invocation.paths (i : Invocation) : List String :=
  match i.task with
  | .optimize _ _ (some config) _ => config :: i.inputs
  | _ => i.inputs

def surroundings (i : Invocation) : IO Surroundings := do
  let trees ← i.paths.mapM fun path => do return (path, ← readTree path)
  let terminal ← (← IO.getStdout).isTty
  let forced ← IO.getEnv "CLICOLOR_FORCE"
  return ⟨terminal, forced.any (· ≠ "0"), fun path => (trees.lookup path).join⟩

/-- Carries out a command line, and answers the exit code. -/
def perform (args : List String) : IO UInt32 := do
  match parse args with
  | .error .usage => IO.eprint usage; return 2
  | .error .help => IO.print usage; return 0
  | .error .version => IO.print versionLine; return 0
  | .ok i =>
    let r := run (← surroundings i) i
    IO.print r.stdout
    match r.failure with
    | none => return 0
    | some f => IO.eprint f.text; return 1

end Dataflow.Command

def main (args : List String) : IO UInt32 := Dataflow.Command.perform args
