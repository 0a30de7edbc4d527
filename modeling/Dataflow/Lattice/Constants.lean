import Std.Data.ExtTreeMap
import Dataflow.Quad.Sets

/-!
# Tables of constants

What is known of the value of a register: nothing yet (`undef`), that it is one 32-bit integer
(`const`), or that it is not constant (`nac`). A table gives a state to every register and stores
only those that are not `undef`, so tables that agree on every register (`ext_get`) are equal. Tables
meet register by register (`get_meet`).
-/

namespace Dataflow

/-- What is known of the value of one register. -/
inductive ConstState where
  | undef
  | const (value : Int32)
  | nac
deriving DecidableEq, Repr

namespace ConstState

/-- What is known when either of two states may hold. -/
def meet : ConstState → ConstState → ConstState
  | undef, s => s
  | s, undef => s
  | const a, const b => if a = b then const a else nac
  | _, _ => nac

def value? : ConstState → Option Int32
  | const v => some v
  | _ => none

def text : ConstState → String
  | undef => "undef"
  | const v => toString v.toInt
  | nac => "NAC"

/-- The text of a table with these entries. -/
def entriesText (entries : List (Register × ConstState)) : String :=
  "\x7b" ++ ", ".intercalate (entries.map fun (r, s) => r ++ "=" ++ s.text) ++ "\x7d"

@[simp] theorem undef_meet (s : ConstState) : undef.meet s = s := by cases s <;> rfl

@[simp] theorem meet_undef (s : ConstState) : s.meet undef = s := by cases s <;> rfl

/-! ### Meeting entries one after another -/

section

variable {T β : Type} {read : T → Register → ConstState} {step : T → Register → β → T} {state : β → ConstState}
  (h : ∀ t r k q, read (step t r k) q = if r = q then (read t q).meet (state k) else read t q)
include h

/-- Meeting a list of entries for distinct registers changes each of these once. -/
theorem read_foldl_list (q : Register) (l : List (Register × β))
    (hl : l.Pairwise fun a b => ¬ compare a.1 b.1 = .eq) (t : T) :
    read (l.foldl (fun t e => step t e.1 e.2) t) q =
      (read t q).meet (((l.find? fun e => compare e.1 q == .eq).map (state ·.2)).getD undef) := by
  induction l generalizing t with
  | nil => simp
  | cons e l ih =>
    obtain ⟨hhead, htail⟩ := List.pairwise_cons.1 hl
    rw [List.foldl_cons, ih htail, h]
    by_cases hq : e.1 = q
    · have hnone : l.find? (fun e => compare e.1 q == .eq) = none := by
        rw [List.find?_eq_none]
        intro a ha he
        simp only [beq_iff_eq, Std.LawfulEqCmp.compare_eq_iff_eq] at he hhead
        exact hhead a ha (hq.trans he.symm)
      simp [hq, hnone]
    · simp [hq]

/-- Meeting the entries of a map gives every register its entry once; the others keep their state. -/
theorem read_foldl (u : Std.ExtTreeMap Register β) (t : T) (q : Register) :
    read (u.foldl step t) q = (read t q).meet ((u[q]?.map state).getD undef) := by
  rw [Std.ExtTreeMap.foldl_eq_foldl_toList, read_foldl_list h q _ u.distinct_keys_toList]
  cases hu : u[q]? with
  | none =>
    have hnone : u.contains q = false := by
      rw [Std.ExtTreeMap.contains_eq_isSome_getElem?, hu]
      rfl
    rw [Std.ExtTreeMap.find?_toList_eq_none_iff_contains_eq_false.2 hnone]
    rfl
  | some k =>
    have hmem : q ∈ u := Std.ExtTreeMap.mem_iff_isSome_getElem?.2 (hu ▸ rfl)
    have hkey : u.getKey? q = some q := Std.ExtTreeMap.getKey?_eq_some hmem
    rw [Std.ExtTreeMap.find?_toList_eq_some_iff_getKey?_eq_some_and_getElem?_eq_some.2 ⟨hkey, hu⟩]
    rfl

end

end ConstState

/-- A state other than `undef`. -/
inductive Known where
  | const (value : Int32)
  | nac
deriving DecidableEq, Repr

namespace Known

def state : Known → ConstState
  | const v => .const v
  | nac => .nac

theorem state_inj {a b : Known} (h : a.state = b.state) : a = b := by
  cases a <;> cases b <;> simp_all [state]

theorem state_ne_undef (k : Known) : k.state ≠ .undef := by cases k <;> simp [state]

end Known

namespace ConstState

def known? : ConstState → Option Known
  | undef => none
  | const v => some (.const v)
  | nac => some .nac

end ConstState

/-- A state for every register, `undef` for those without an entry. -/
abbrev Constants := Std.ExtTreeMap Register Known

namespace Constants

def get (t : Constants) (r : Register) : ConstState :=
  match t[r]? with
  | none => .undef
  | some k => k.state

def set (t : Constants) (r : Register) (s : ConstState) : Constants :=
  match s.known? with
  | none => t.erase r
  | some k => t.insert r k

/-- The registers that are not `undef`, in ascending order, with their states. -/
def members (t : Constants) : List (Register × ConstState) := t.toList.map fun (r, k) => (r, k.state)

/-- Meets the entries of `u` into `t`, one register after another. -/
def meet (t u : Constants) : Constants :=
  u.foldl (fun t r k => t.set r ((t.get r).meet k.state)) t

def text (t : Constants) : String := ConstState.entriesText t.members

@[simp] theorem get_empty (r : Register) : get ∅ r = .undef := by simp [get]

@[simp] theorem get_set (t : Constants) (r q : Register) (s : ConstState) :
    (t.set r s).get q = if r = q then s else t.get q := by
  by_cases h : r = q <;> cases s <;>
    simp [set, ConstState.known?, get, Std.ExtTreeMap.getElem?_erase, Std.ExtTreeMap.getElem?_insert,
      h, Known.state]

theorem ext_get {t u : Constants} (h : ∀ r, t.get r = u.get r) : t = u := by
  apply Std.ExtTreeMap.ext_getElem?
  intro r
  have := h r
  unfold get at this
  cases ht : t[r]? <;> cases hu : u[r]? <;> rw [ht, hu] at this
  · exact absurd this.symm (Known.state_ne_undef _)
  · exact absurd this (Known.state_ne_undef _)
  · rw [Known.state_inj this]

theorem get_meet (t u : Constants) (q : Register) : (t.meet u).get q = (t.get q).meet (u.get q) := by
  have hstep : ∀ (t : Constants) r (k : Known) q,
      (t.set r ((t.get r).meet k.state)).get q = if r = q then (t.get q).meet k.state else t.get q := by
    intro t r k q
    rw [get_set]
    split
    · next h => rw [h]
    · rfl
  have hget : u.get q = (u[q]?.map Known.state).getD .undef := by
    unfold get
    cases u[q]? <;> rfl
  rw [meet, ConstState.read_foldl hstep, hget]

end Constants

end Dataflow
