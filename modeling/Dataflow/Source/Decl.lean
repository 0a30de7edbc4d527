/-!
# What a quad file says

The parts of a quad file as they are written, before any number is read or any block is looked up.
-/

namespace Dataflow.Source

/-- A word and where it stands. -/
structure Word where
  offset : Nat
  text : String
deriving DecidableEq, Repr

/-- An argument as it is written. -/
inductive ArgDecl where
  | register (name : String)
  | null
  | integer (word : Word)
  | block (word : Word)
  | symbol (name : String)
deriving DecidableEq, Repr

structure QuadDecl where
  id : Word
  opcode : String
  args : List ArgDecl
deriving DecidableEq, Repr

structure BlockDecl where
  name : Word
  successors : List Word
  quads : List QuadDecl
deriving DecidableEq, Repr

structure MethodDecl where
  name : String
  params : Word
  isStatic : Bool
  blocks : List BlockDecl
deriving DecidableEq, Repr

end Dataflow.Source
