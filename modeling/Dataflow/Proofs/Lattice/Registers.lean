import Mathlib.Data.List.Basic
import Mathlib.Data.List.Count
import Dataflow.Flow.Problem

/-!
# Meets of sets

An element is in a union over neighbours if some neighbour hands it on, and in an intersection if all
do. Sets drawn from a finite domain are ranked by how many elements of the domain satisfy a test; a
test that fails once more has a smaller count (`countP_lt_countP`).
-/

namespace Dataflow

theorem countP_lt_countP {α : Type} {l : List α} {p q : α → Bool} (h : ∀ x ∈ l, p x = true → q x = true)
    {x : α} (hx : x ∈ l) (hp : p x = false) (hq : q x = true) : l.countP p < l.countP q := by
  obtain ⟨l₁, l₂, rfl⟩ := List.append_of_mem hx
  have h₁ : l₁.countP p ≤ l₁.countP q := List.countP_mono_left fun y hy => h y (by simp [hy])
  have h₂ : l₂.countP p ≤ l₂.countP q := List.countP_mono_left fun y hy => h y (by simp [hy])
  simp only [List.countP_append, List.countP_cons, hp, hq]
  simp only [Bool.false_eq_true, ↓reduceIte]
  omega

section

variable {α : Type} [Ord α] [Std.TransOrd α] {s top : Std.ExtTreeSet α} {vs : List (Std.ExtTreeSet α)} {x : α}

theorem mem_foldl_union : x ∈ vs.foldl (· ∪ ·) s ↔ x ∈ s ∨ ∃ v ∈ vs, x ∈ v := by
  induction vs generalizing s with
  | nil => simp
  | cons v vs ih =>
    rw [List.foldl_cons, ih, Std.ExtTreeSet.mem_union_iff, or_assoc, List.exists_mem_cons_iff]

theorem mem_meetAll_union : x ∈ meetAll (· ∪ ·) (∅ : Std.ExtTreeSet α) vs ↔ ∃ v ∈ vs, x ∈ v := by
  cases vs with
  | nil => simp [meetAll]
  | cons v vs => rw [meetAll, mem_foldl_union, List.exists_mem_cons_iff]

theorem mem_foldl_inter : x ∈ vs.foldl (· ∩ ·) s ↔ x ∈ s ∧ ∀ v ∈ vs, x ∈ v := by
  induction vs generalizing s with
  | nil => simp
  | cons v vs ih =>
    rw [List.foldl_cons, ih, Std.ExtTreeSet.mem_inter_iff, and_assoc, List.forall_mem_cons]

theorem mem_meetAll_inter (h : vs ≠ []) : x ∈ meetAll (· ∩ ·) top vs ↔ ∀ v ∈ vs, x ∈ v := by
  cases vs with
  | nil => exact absurd rfl h
  | cons v vs => rw [meetAll, mem_foldl_inter, List.forall_mem_cons]

end

namespace Registers

/-- Two sets one of which holds the other are equal, or the larger holds something more. -/
theorem exists_mem_of_ne {s t : Registers} (h : ∀ r ∈ s, r ∈ t) (hne : s ≠ t) : ∃ r ∈ t, r ∉ s := by
  by_contra hn
  refine hne (Std.ExtTreeSet.ext_mem fun r => ⟨h r, fun hr => ?_⟩)
  by_contra hs
  exact hn ⟨r, hr, hs⟩

end Registers

namespace Graph

variable {g : Graph} {r : Register}

theorem mem_foldl_registers (quads : List Quad) (s : Registers) :
    r ∈ quads.foldl (fun s q => (s.insertAll q.defs).insertAll q.uses) s ↔
      r ∈ s ∨ ∃ q ∈ quads, r ∈ q.defs ∨ r ∈ q.uses := by
  induction quads generalizing s with
  | nil => simp
  | cons q quads ih =>
    rw [List.foldl_cons, ih, List.exists_mem_cons_iff, Registers.mem_insertAll, Registers.mem_insertAll]
    grind

theorem mem_registers : r ∈ g.registers ↔
    r ∈ g.method.paramRegisters ∨ ∃ q ∈ g.quads, r ∈ q.defs ∨ r ∈ q.uses := by
  rw [registers, mem_foldl_registers, Registers.mem_insertAll]
  simp

theorem mem_registers_of_uses {q : Quad} (hq : q ∈ g.quads) (hr : r ∈ q.uses) : r ∈ g.registers :=
  mem_registers.2 (.inr ⟨q, hq, .inr hr⟩)

end Graph

end Dataflow
