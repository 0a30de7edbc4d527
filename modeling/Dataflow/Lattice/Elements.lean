import Dataflow.Error
import Dataflow.Lattice.Constants

/-!
# Lattice elements on their own

The values an analysis works with, each together with what it needs to be met, raised to the top or
lowered to the bottom without an analysis around it. Two elements count as equal (`==`) when they
hold the same values, whatever they were drawn from.
-/

namespace Dataflow

/-- How sets of registers meet: a register may hold on some path (`union`), or must on every path
(`intersection`). -/
inductive MeetOp where
  | union
  | intersection
deriving DecidableEq, Repr

namespace MeetOp

def apply : MeetOp → Registers → Registers → Registers
  | union, s, t => s ∪ t
  | intersection, s, t => s ∩ t

/-- The neutral set among the subsets of `domain`. -/
def top : MeetOp → Registers → Registers
  | union, _ => ∅
  | intersection, domain => domain

/-- The absorbing set among the subsets of `domain`. -/
def bottom : MeetOp → Registers → Registers
  | union, domain => domain
  | intersection, _ => ∅

def text : MeetOp → String
  | union => "Union"
  | intersection => "Intersection"

end MeetOp

/-- A set of registers drawn from a domain. -/
structure RegisterSet where
  meetOp : MeetOp
  domain : Registers
  members : Registers

namespace RegisterSet

def empty (domain : Registers) (op : MeetOp) : RegisterSet := ⟨op, domain, ∅⟩

def full (domain : Registers) (op : MeetOp) : RegisterSet := ⟨op, domain, domain⟩

def top (domain : Registers) (op : MeetOp) : RegisterSet := ⟨op, domain, op.top domain⟩

instance : BEq RegisterSet where
  beq s t := s.members == t.members

/-- Adds a register and says whether it is new. -/
def insert (s : RegisterSet) (r : Register) : Bool × RegisterSet :=
  (r ∉ s.members, { s with members := s.members.insert r })

/-- Removes a register and says whether it was there. -/
def erase (s : RegisterSet) (r : Register) : Bool × RegisterSet :=
  (r ∈ s.members, { s with members := s.members.erase r })

def toTop (s : RegisterSet) : RegisterSet := { s with members := s.meetOp.top s.domain }

def toBottom (s : RegisterSet) : RegisterSet := { s with members := s.meetOp.bottom s.domain }

/-- Meets `t` into `s`, in the way of `s`. -/
def meet (s t : RegisterSet) : RegisterSet :=
  { s with members := s.meetOp.apply s.members t.members }

def text (s : RegisterSet) : String := s.members.text

end RegisterSet

/-- Definition sites, met by union. -/
structure DefSet where
  sites : QuadIds
deriving DecidableEq

namespace DefSet

def ofList (ids : List QuadId) : DefSet := ⟨.ofList ids⟩

/-- Adds a site and says whether it is new. -/
def insert (s : DefSet) (id : QuadId) : Bool × DefSet := (id ∉ s.sites, ⟨s.sites.insert id⟩)

def kill (s : DefSet) (ids : QuadIds) : DefSet := ⟨s.sites \ ids⟩

def toTop (_ : DefSet) : DefSet := ⟨∅⟩

/-- There is no finite set of all sites. -/
def toBottom (_ : DefSet) : Except FlowError DefSet := .error (.noBottom "DefSet")

def meet (s t : DefSet) : DefSet := ⟨s.sites ∪ t.sites⟩

def text (s : DefSet) : String := s.sites.text

end DefSet

/-- The states stored for registers. -/
abbrev States := Std.ExtTreeMap Register ConstState

namespace States

/-- The entries, in ascending order of their registers. -/
def members (m : States) : List (Register × ConstState) := m.toList

end States

/-- A table of constants over a domain of registers, which only `toBottom` looks at. A register without an entry is
`undef`. An entry could hold `undef` as well; it is the operations that never store it. -/
structure ConstantTable where
  domain : Registers
  entries : States

namespace ConstantTable

def undefined (domain : Registers) : ConstantTable := ⟨domain, ∅⟩

instance : BEq ConstantTable where
  beq t u := t.entries == u.entries

def get (t : ConstantTable) (r : Register) : ConstState := t.entries[r]?.getD .undef

def set (t : ConstantTable) (r : Register) (s : ConstState) : ConstantTable :=
  { t with entries := if s = .undef then t.entries.erase r else t.entries.insert r s }

def toTop (t : ConstantTable) : ConstantTable := { t with entries := ∅ }

/-- No register of the domain, and none that has an entry, is constant. -/
def toBottom (t : ConstantTable) : ConstantTable :=
  { t with entries := (t.domain.toList ++ t.entries.keys).foldl (Std.ExtTreeMap.insert · · .nac) t.entries }

/-- Meets the entries of `u` into `t`, one register after another. -/
def meet (t u : ConstantTable) : ConstantTable :=
  u.entries.foldl (fun t r s => t.set r ((t.get r).meet s)) t

def text (t : ConstantTable) : String := ConstState.entriesText t.entries.members

end ConstantTable

end Dataflow
