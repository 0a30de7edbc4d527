import Mathlib.Algebra.Order.BigOperators.Group.List
import Mathlib.Algebra.Order.Ring.Nat
import Dataflow.Analysis.ConstantProp
import Dataflow.Proofs.Flow.Greatest

/-!
# The order of constants

A state is below another if meeting the two gives it back: `undef` is above every constant and `nac`
below. So the state of one register falls at most twice (`ConstState.rank`). Tables are compared register
by register, and what the operators of the analysis make of two states falls with either of them
(`combine_below`): an operand that is not constant decides the result, whatever the other is.
-/

namespace Dataflow

namespace ConstState

variable {a b a' b' : ConstState}

theorem meet_comm (a b : ConstState) : a.meet b = b.meet a := by
  cases a <;> cases b <;> simp only [meet]
  next v w =>
    by_cases h : v = w
    · simp [h]
    · simp [h, Ne.symm h]

theorem meet_self (a : ConstState) : a.meet a = a := by
  cases a <;> simp [meet]

@[simp] theorem nac_meet (a : ConstState) : nac.meet a = nac := by
  cases a <;> rfl

@[simp] theorem meet_nac (a : ConstState) : a.meet nac = nac := by
  cases a <;> rfl

theorem meet_assoc (a b c : ConstState) : (a.meet b).meet c = a.meet (b.meet c) := by
  cases a with
  | undef => rw [undef_meet, undef_meet]
  | nac => simp
  | const u =>
    cases b with
    | undef => rw [meet_undef, undef_meet]
    | nac => simp
    | const v =>
      cases c with
      | undef => rw [meet_undef, meet_undef]
      | nac => simp
      | const w => grind [meet]

theorem meetLaws_meet : Problem.MeetLaws meet := ⟨meet_comm, meet_assoc, meet_self⟩

/-- How often the state can still fall. -/
def rank : ConstState → Nat
  | undef => 2
  | const _ => 1
  | nac => 0

/-- A state below another is that one, or anything at all below `undef`, or `nac`. -/
theorem meet_eq_left_iff : a.meet b = a ↔ a = b ∨ b = undef ∨ a = nac := by
  cases a <;> cases b <;> simp [meet]

theorem rank_lt (h : a.meet b = a) (hne : a ≠ b) : a.rank < b.rank := by
  rcases meet_eq_left_iff.1 h with rfl | rfl | rfl
  · exact absurd rfl hne
  · cases a <;> simp_all [rank]
  · cases b <;> simp_all [rank]

@[simp] theorem nac_combine (f : Int32 → Int32 → Int32) (a : ConstState) : nac.combine f a = nac := by
  cases a <;> rfl

@[simp] theorem combine_nac (f : Int32 → Int32 → Int32) (a : ConstState) : a.combine f nac = nac := by
  cases a <;> rfl

theorem combine_below (f : Int32 → Int32 → Int32) (ha : a.meet a' = a) (hb : b.meet b' = b) :
    (a.combine f b).meet (a'.combine f b') = a.combine f b := by
  rw [meet_eq_left_iff] at ha hb ⊢
  -- either operand may have stayed, fallen from `undef`, or become `nac`
  rcases ha with rfl | rfl | rfl
  · rcases hb with rfl | rfl | rfl
    · exact .inl rfl
    · cases a <;> cases b <;> simp [combine]
    · exact .inr (.inr (combine_nac f a))
  · rcases hb with rfl | rfl | rfl
    · cases a <;> cases b <;> simp [combine]
    · exact .inr (.inl rfl)
    · exact .inr (.inr (combine_nac f a))
  · exact .inr (.inr (nac_combine f b))

theorem negate_below (h : a.meet b = a) : a.negate.meet b.negate = a.negate := by
  rw [meet_eq_left_iff] at h ⊢
  rcases h with rfl | rfl | rfl
  · exact .inl rfl
  · exact .inr (.inl rfl)
  · exact .inr (.inr rfl)

end ConstState

namespace Constants

variable {t u : Constants} {r : Register}

theorem meetLaws_meet : Problem.MeetLaws Constants.meet := by
  constructor <;> intros <;> refine ext_get fun r => ?_ <;> simp only [get_meet]
  · exact ConstState.meet_comm _ _
  · exact ConstState.meet_assoc _ _ _
  · exact ConstState.meet_self _

/-- In every register `t` is below `u`. -/
def Lower (t u : Constants) : Prop := ∀ r, (t.get r).meet (u.get r) = t.get r

theorem Lower.refl (t : Constants) : Lower t t := fun _ => ConstState.meet_self _

theorem Lower.trans {w : Constants} (h : Lower t u) (h' : Lower u w) : Lower t w := by
  intro r
  rw [← h r, ConstState.meet_assoc, h' r]

theorem Lower.meet_eq (h : Lower t u) : t.meet u = t := by
  refine ext_get fun r => ?_
  rw [get_meet]
  exact h r

theorem Lower.meet {t' u' : Constants} (h : Lower t u) (h' : Lower t' u') :
    Lower (t.meet t') (u.meet u') := by
  intro r
  simp only [get_meet]
  exact ConstState.meetLaws_meet.meet_left (h r) (h' r)

/-- How often the states of the registers `rs` can still fall. -/
def rank (rs : List Register) (t : Constants) : Nat := (rs.map fun r => (t.get r).rank).sum

theorem Lower.rank_lt {rs : List Register} (h : Lower t u) (hne : t ≠ u)
    (ht : ∀ r, t.get r ≠ .undef → r ∈ rs) : t.rank rs < u.rank rs := by
  obtain ⟨r, hr⟩ : ∃ r, t.get r ≠ u.get r := by
    by_contra hall
    simp only [not_exists, not_not] at hall
    exact hne (ext_get hall)
  -- what is `undef` is below `undef` only
  have hrs : r ∈ rs := by
    refine ht r fun hundef => hr ?_
    have hle := h r
    rw [hundef, ConstState.undef_meet] at hle
    rw [hundef, hle]
  refine List.sum_lt_sum _ _ (fun x _ => ?_) ⟨r, hrs, ConstState.rank_lt (h r) hr⟩
  by_cases he : t.get x = u.get x
  · rw [he]
  · exact (ConstState.rank_lt (h x) he).le

theorem rank_empty (rs : List Register) : rank rs ∅ = 2 * rs.length := by
  simp [rank, ConstState.rank, Nat.mul_comm]

theorem get_foldl_set (rs : List Register) (s : ConstState) (t : Constants) :
    (rs.foldl (Constants.set · · s) t).get r = if r ∈ rs then s else t.get r := by
  induction rs generalizing t with
  | nil => simp
  | cons x rs ih =>
    rw [List.foldl_cons, ih, get_set]
    by_cases hr : r ∈ rs
    · simp [hr]
    · by_cases hx : x = r
      · simp [hx]
      · simp [hr, hx, Ne.symm hx]

end Constants

end Dataflow
