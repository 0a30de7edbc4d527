/-!
# Files

Files and directories as a command finds them. A directory stands for the quad files below it, in the
order of their names, directory by directory.
-/

namespace Dataflow.Command

inductive FileTree where
  | file (bytes : ByteArray)
  | directory (entries : List (String × FileTree))

namespace FileTree

/-- The text of a file, if its bytes are UTF-8. -/
def text? : FileTree → Option String
  | file bytes => String.fromUTF8? bytes
  | directory _ => none

/-- Whether a file name has the extension `quad`: a name and a dot before it. -/
def isQuadName (name : String) : Bool :=
  let reversed := name.toList.reverse
  reversed.takeWhile (· ≠ '.') = ['d', 'a', 'u', 'q'] && 1 < (reversed.dropWhile (· ≠ '.')).length

mutual

/-- The files below, each by the names that lead to it. -/
def files : FileTree → List (List String × ByteArray)
  | file bytes => [([], bytes)]
  | directory entries => filesIn entries

def filesIn : List (String × FileTree) → List (List String × ByteArray)
  | [] => []
  | (name, t) :: rest => (t.files.map fun (path, bytes) => (name :: path, bytes)) ++ filesIn rest

end

/-- The quad files below, in the order in which they are visited. -/
def quadFiles (t : FileTree) : List (List String × ByteArray) :=
  (t.files.filter fun (path, _) => (path.getLast?.map isQuadName).getD false).mergeSort
    fun a b => !decide (b.1 < a.1)

/-- One step along a path: the trees passed so far, the nearest first. Only a directory has anything
below it, itself included. -/
def step : List FileTree → String → Option (List FileTree)
  | here@(directory entries) :: above, name =>
    if name = "" || name = "." then some (here :: above)
    else if name = ".." then some above
    else (entries.lookup name).map (· :: here :: above)
  | _, _ => none

/-- The tree at a relative path that does not lead outside. -/
def at? (t : FileTree) (path : String) : Option FileTree :=
  if path.isEmpty || path.startsWith "/" then none
  else ((path.splitOn "/").foldlM step [t]).bind List.head?

end FileTree

/-- A path below a directory. -/
def joinPath (dir : String) (names : List String) : String :=
  let rest := "/".intercalate names
  if dir.endsWith "/" then dir ++ rest else dir ++ "/" ++ rest

end Dataflow.Command
