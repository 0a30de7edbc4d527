import Dataflow.Proofs.Flow.Greatest
import Dataflow.Proofs.Lattice.Registers

/-!
# Descents of sets

Most analyses compute sets that meet by union or by intersection. While they are solved, an element goes
one way only: if it `leaves`, it may be lost from a result but never comes in, otherwise it may come in
but is never lost. In a union all elements come in and in an intersection all leave, but an analysis
that puts an element into every result has that one come in, whatever the others do. The rank of a set is
the number of elements that have still to go their way (`waits`).
-/

namespace Dataflow

variable {α : Type} [Ord α] [Std.TransOrd α] {s t s' t' : Std.ExtTreeSet α} {x : α}

section

variable [Std.LawfulEqOrd α]

theorem meetLaws_union : Problem.MeetLaws fun s t : Std.ExtTreeSet α => s ∪ t := by
  constructor <;> intros <;> refine Std.ExtTreeSet.ext_mem fun x => ?_ <;>
    simp only [Std.ExtTreeSet.mem_union_iff]
  · exact or_comm
  · exact or_assoc
  · exact or_self_iff

theorem meetLaws_inter : Problem.MeetLaws fun s t : Std.ExtTreeSet α => s ∩ t := by
  constructor <;> intros <;> refine Std.ExtTreeSet.ext_mem fun x => ?_ <;>
    simp only [Std.ExtTreeSet.mem_inter_iff]
  · exact and_comm
  · exact and_assoc
  · exact and_self_iff

theorem union_eq_left_of_subset (h : ∀ x ∈ t, x ∈ s) : s ∪ t = s := by
  refine Std.ExtTreeSet.ext_mem fun x => ?_
  rw [Std.ExtTreeSet.mem_union_iff]
  exact ⟨fun hx => hx.elim id (h x), .inl⟩

theorem inter_eq_left_of_subset (h : ∀ x ∈ s, x ∈ t) : s ∩ t = s := by
  refine Std.ExtTreeSet.ext_mem fun x => ?_
  rw [Std.ExtTreeSet.mem_inter_iff]
  exact ⟨And.left, fun hx => ⟨hx, h x hx⟩⟩

end

/-! ### Each element goes its way -/

/-- From `t` to `s` elements have only left that `leaves` says, and only others have come in. -/
def Sinks (leaves : α → Bool) (s t : Std.ExtTreeSet α) : Prop :=
  ∀ x, if leaves x then x ∈ s → x ∈ t else x ∈ t → x ∈ s

/-- Whether `x` has still to go its way. -/
def waits (leaves : α → Bool) (s : Std.ExtTreeSet α) (x : α) : Bool := decide (x ∈ s) == leaves x

variable {leaves : α → Bool} {univ : List α}

theorem sinks_iff_waits : Sinks leaves s t ↔ ∀ x, waits leaves s x = true → waits leaves t x = true := by
  refine forall_congr' fun x => ?_
  cases hl : leaves x with
  | true => simp [waits, hl]
  | false => simpa [waits, hl] using (not_imp_not (a := x ∈ s) (b := x ∈ t)).symm

theorem sinks_of_leaves : Sinks (fun _ => true) s t ↔ ∀ x ∈ s, x ∈ t := by
  simp [Sinks]

theorem sinks_of_enters : Sinks (fun _ => false) s t ↔ ∀ x ∈ t, x ∈ s := by
  simp [Sinks]

theorem Sinks.union (hs : Sinks leaves s s') (ht : Sinks leaves t t') :
    Sinks leaves (s ∪ t) (s' ∪ t') := by
  intro x
  have hx := hs x
  have hx' := ht x
  simp only [Std.ExtTreeSet.mem_union_iff]
  split
  · next hl =>
    rw [if_pos hl] at hx hx'
    exact Or.imp hx hx'
  · next hl =>
    rw [if_neg hl] at hx hx'
    exact Or.imp hx hx'

theorem Sinks.inter (hs : Sinks leaves s s') (ht : Sinks leaves t t') :
    Sinks leaves (s ∩ t) (s' ∩ t') := by
  intro x
  have hx := hs x
  have hx' := ht x
  simp only [Std.ExtTreeSet.mem_inter_iff]
  split
  · next hl =>
    rw [if_pos hl] at hx hx'
    exact And.imp hx hx'
  · next hl =>
    rw [if_neg hl] at hx hx'
    exact And.imp hx hx'

theorem Sinks.countP_lt [Std.LawfulEqOrd α] (h : Sinks leaves s t) (hne : s ≠ t)
    (hs : ∀ x ∈ s, x ∈ univ) (ht : ∀ x ∈ t, x ∈ univ) :
    univ.countP (waits leaves s) < univ.countP (waits leaves t) := by
  rw [sinks_iff_waits] at h
  obtain ⟨x, hx⟩ : ∃ x, ¬ (x ∈ s ↔ x ∈ t) := by
    by_contra hall
    simp only [not_exists, not_not] at hall
    exact hne (Std.ExtTreeSet.ext_mem hall)
  have hu : x ∈ univ := by
    by_contra hn
    exact hx (iff_of_false (fun hxs => hn (hs x hxs)) fun hxt => hn (ht x hxt))
  have hw : waits leaves s x ≠ waits leaves t x := by
    intro he
    rw [waits, waits, Bool.beq_eq_decide_eq, Bool.beq_eq_decide_eq] at he
    exact hx (by cases hl : leaves x <;> simp_all)
  cases hs' : waits leaves s x with
  | true => exact absurd (hs'.trans (h x hs').symm) hw
  | false =>
    have ht' : waits leaves t x = true := by
      rw [hs'] at hw
      simpa using hw.symm
    exact countP_lt_countP (fun y _ => h y) hu hs' ht'

/-- The descent of a problem about sets drawn from `univ`. -/
def Problem.Descent.ofSets [Std.LawfulEqOrd α] {p : Problem (Std.ExtTreeSet α)} {quads : List Quad} (univ : List α)
    (leaves : α → Bool) (hmeet : p.meet = (· ∪ ·) ∨ p.meet = (· ∩ ·)) (htop : ∀ x ∈ p.top, x ∈ univ)
    (hsource : ∀ x ∈ p.source, x ∈ univ)
    (hdom : ∀ q ∈ quads, ∀ s, (∀ x ∈ s, x ∈ univ) → ∀ x ∈ p.transfer q s, x ∈ univ)
    (hmono : ∀ q ∈ quads, ∀ s t, Sinks leaves s t → Sinks leaves (p.transfer q s) (p.transfer q t))
    (hle : ∀ q ∈ quads, ∀ s, (∀ x ∈ s, x ∈ univ) → Sinks leaves (p.transfer q s) p.top)
    (hrank : univ.countP (waits leaves p.top) ≤ p.height) : p.Descent quads where
  dom s := ∀ x ∈ s, x ∈ univ
  le := Sinks leaves
  rank s := univ.countP (waits leaves s)
  le_refl s := sinks_iff_waits.2 fun _ => id
  le_trans h h' := sinks_iff_waits.2 fun x hx => sinks_iff_waits.1 h' x (sinks_iff_waits.1 h x hx)
  dom_top := htop
  dom_source := hsource
  dom_meet {s t} hs ht x hx := by
    rcases hmeet with hm | hm <;> rw [hm] at hx
    · rcases Std.ExtTreeSet.mem_union_iff.1 hx with hx | hx
      · exact hs x hx
      · exact ht x hx
    · exact hs x (Std.ExtTreeSet.mem_inter_iff.1 hx).1
  dom_transfer q hq {s} hs := hdom q hq s hs
  meet_mono hs ht := by
    rcases hmeet with hm | hm <;> rw [hm]
    · exact hs.union ht
    · exact hs.inter ht
  transfer_mono q hq {s t} := hmono q hq s t
  transfer_le_top q hq {s} := hle q hq s
  rank_lt hs ht h hne := h.countP_lt hne hs ht
  rank_top := hrank

end Dataflow
