import Dataflow.Flow.Solver

/-!
# Reaching definitions

A definition reaches a quad where some path leads from it to the quad without passing another
definition of its register. Which quads define a register is looked up in a table that is built once for
each graph (`mem_defSites`).
-/

namespace Dataflow

/-- The quads that write each register. -/
abbrev DefTable := Std.ExtTreeMap Register QuadIds

namespace DefTable

def sites (t : DefTable) (r : Register) : QuadIds := t[r]?.getD ∅

/-- Notes that quad `id` writes `r`. -/
def note (t : DefTable) (id : QuadId) (r : Register) : DefTable := t.insert r ((t.sites r).insert id)

/-- Notes what a quad writes. -/
def add (t : DefTable) (q : Quad) : DefTable := q.defs.foldl (·.note q.id ·) t

@[simp] theorem sites_empty (r : Register) : sites ∅ r = ∅ := by simp [sites]

theorem mem_sites_note (t : DefTable) (id q : QuadId) (r x : Register) :
    q ∈ (t.note id r).sites x ↔ (q = id ∧ x = r) ∨ q ∈ t.sites x := by
  by_cases h : r = x
  · subst h
    simp only [note, sites, Std.ExtTreeMap.getElem?_insert_self, Option.getD_some, and_true,
      Std.ExtTreeSet.mem_insert, Std.LawfulEqCmp.compare_eq_iff_eq]
    rw [eq_comm]
  · simp [note, sites, Std.ExtTreeMap.getElem?_insert, h, Ne.symm h]

theorem mem_sites_foldl_note (id q : QuadId) (x : Register) (rs : List Register) (t : DefTable) :
    q ∈ (rs.foldl (·.note id ·) t).sites x ↔ (q = id ∧ x ∈ rs) ∨ q ∈ t.sites x := by
  induction rs generalizing t with
  | nil => simp
  | cons r rs ih =>
    rw [List.foldl_cons, ih, mem_sites_note, List.mem_cons]
    grind

theorem mem_sites_foldl_add (q : QuadId) (x : Register) (qs : List Quad) (t : DefTable) :
    q ∈ (qs.foldl add t).sites x ↔ (∃ d ∈ qs, d.id = q ∧ x ∈ d.defs) ∨ q ∈ t.sites x := by
  induction qs generalizing t with
  | nil => simp
  | cons d qs ih =>
    rw [List.foldl_cons, ih, add, mem_sites_foldl_note]
    grind

end DefTable

namespace Graph

def defTable (g : Graph) : DefTable := g.quads.foldl .add ∅

/-- The quads that write `r`. -/
def defSites (g : Graph) (r : Register) : QuadIds := g.defTable.sites r

theorem mem_defSites (g : Graph) (r : Register) (id : QuadId) :
    id ∈ g.defSites r ↔ ∃ d ∈ g.quads, d.id = id ∧ r ∈ d.defs := by
  simp [defSites, defTable, DefTable.mem_sites_foldl_add]

end Graph

namespace ReachingDefs

/-- What reaches past a quad: all definitions of the registers it writes give way to its own. -/
def transfer (t : DefTable) (q : Quad) (reaching : QuadIds) : QuadIds :=
  let kept := q.defs.foldl (fun s r => s \ t.sites r) reaching
  if q.defs.isEmpty then kept else kept.insert q.id

def problem (g : Graph) : Problem QuadIds :=
  let table := g.defTable
  { direction := .forward
    meet := (· ∪ ·)
    top := ∅
    source := ∅
    transfer := transfer table
    height := g.quadCount }

end ReachingDefs

def Analysis.reachingDefs : Analysis QuadIds where
  name := "reaching-defs"
  problem := ReachingDefs.problem
  text := QuadIds.text

end Dataflow
