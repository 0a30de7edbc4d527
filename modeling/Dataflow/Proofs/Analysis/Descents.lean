import Dataflow.Analysis.Faintness
import Dataflow.Analysis.ReachingDefs
import Dataflow.Proofs.Analysis.Liveness
import Dataflow.Proofs.Analysis.Nullness
import Dataflow.Proofs.Lattice.Constants
import Dataflow.Proofs.Lattice.Sets

/-!
# What falls in each analysis

One descent for each of the analyses, in the order of its meet. Extended elimination of null checks in an
instance method is the exception: it puts the receiver into every result, also where the receiver is no
register of the graph and so not in `top`. There the receiver comes in while all other registers leave, and
since it is in the result of every quad, the order is that of the meet again wherever a quad was passed.
-/

namespace Dataflow

/-! ### Liveness -/

theorem mem_registers_of_defs {g : Graph} {q : Quad} {r : Register} (hq : q ∈ g.quads) (hr : r ∈ q.defs) :
    r ∈ g.registers := Graph.mem_registers.2 (.inr ⟨q, hq, .inl hr⟩)

def Liveness.exact (g : Graph) : (problem g).Exact g.quads fun s => ∀ r ∈ s, r ∈ g.registers where
  descent := descent g
  dom_iff _ := Iff.rfl
  laws := meetLaws_union
  below _ _ _ _ h := union_eq_left_of_subset h

/-! ### Faintness -/

/-- The register that a copy or arithmetic computes from what it reads. -/
def Operator.computed? : Operator → Option Register
  | move d _ | binary _ d _ _ => some d
  | _ => none

theorem Operator.defs_of_computed? {op : Operator} {d : Register} (h : op.computed? = some d) :
    op.defs = [d] := by
  cases op <;> simp_all [computed?, defs]

namespace Faintness

variable {g : Graph} {q : Quad} {r : Register} {s t : Registers}

theorem mem_transfer : r ∈ transfer q s ↔
    if feedsFaint q s then r ∈ s else (r ∈ q.defs ∨ r ∈ s) ∧ r ∉ q.uses := by
  rw [transfer]
  split
  · rfl
  · rw [Registers.mem_eraseAll, Registers.mem_insertAll]

theorem feedsFaint_iff : feedsFaint q s = true ↔ ∃ d ∈ s, q.op.computed? = some d := by
  obtain ⟨id, op⟩ := q
  cases op <;> simp [feedsFaint, Operator.computed?]

/-- Fewer faint registers after a quad, fewer before it: a quad that feeds a register which is faint in
the larger set only finds the register that it writes there already. -/
theorem transfer_mono (h : ∀ r ∈ s, r ∈ t) : ∀ r ∈ transfer q s, r ∈ transfer q t := by
  intro r hr
  rw [mem_transfer] at hr ⊢
  by_cases hs : feedsFaint q s = true
  · have ht : feedsFaint q t = true := by
      obtain ⟨d, hd, hc⟩ := feedsFaint_iff.1 hs
      exact feedsFaint_iff.2 ⟨d, h d hd, hc⟩
    rw [if_pos hs] at hr
    rw [if_pos ht]
    exact h r hr
  · rw [if_neg hs] at hr
    by_cases ht : feedsFaint q t = true
    · rw [if_pos ht]
      obtain ⟨d, hd, hc⟩ := feedsFaint_iff.1 ht
      rcases hr.1 with hrd | hrs
      · rw [Quad.defs, Operator.defs_of_computed? hc, List.mem_singleton] at hrd
        exact hrd ▸ hd
      · exact h r hrs
    · rw [if_neg ht]
      exact ⟨hr.1.imp_right (h r), hr.2⟩

theorem mem_registers_of_mem_transfer (hq : q ∈ g.quads) (hs : ∀ r ∈ s, r ∈ g.registers) :
    ∀ r ∈ transfer q s, r ∈ g.registers := by
  intro r hr
  rw [mem_transfer] at hr
  split at hr
  · exact hs r hr
  · rcases hr.1 with hr | hr
    · exact mem_registers_of_defs hq hr
    · exact hs r hr

def descent (g : Graph) : (problem g).Descent g.quads :=
  .ofSets g.registers.toList (fun _ => true) (.inr rfl) (fun _ => Std.ExtTreeSet.mem_toList.2)
    (fun _ => Std.ExtTreeSet.mem_toList.2)
    (fun q hq s hs => by
      simp only [Std.ExtTreeSet.mem_toList] at hs ⊢
      exact mem_registers_of_mem_transfer hq hs)
    (fun q _ s t h => sinks_of_leaves.2 (transfer_mono (sinks_of_leaves.1 h)))
    (fun q hq s hs => by
      simp only [Std.ExtTreeSet.mem_toList] at hs
      exact sinks_of_leaves.2 (mem_registers_of_mem_transfer hq hs))
    (List.countP_le_length.trans (Std.ExtTreeSet.length_toList).le)

def exact (g : Graph) : (problem g).Exact g.quads fun s => ∀ r ∈ s, r ∈ g.registers where
  descent := descent g
  dom_iff _ := forall₂_congr fun _ _ => Std.ExtTreeSet.mem_toList
  laws := meetLaws_inter
  below _ _ _ _ h := inter_eq_left_of_subset (sinks_of_leaves.1 h)

end Faintness

/-! ### Reaching definitions -/

namespace ReachingDefs

variable {g : Graph} {q : Quad} {table : DefTable} {s t : QuadIds} {id : QuadId}

theorem mem_foldl_sites (rs : List Register) (s : QuadIds) :
    id ∈ rs.foldl (fun s r => s \ table.sites r) s ↔ id ∈ s ∧ ∀ r ∈ rs, id ∉ table.sites r := by
  induction rs generalizing s with
  | nil => simp
  | cons r rs ih =>
    rw [List.foldl_cons, ih, Std.ExtTreeSet.mem_diff_iff, List.forall_mem_cons, and_assoc]

theorem mem_transfer : id ∈ transfer table q s ↔
    (id ∈ s ∧ ∀ r ∈ q.defs, id ∉ table.sites r) ∨ q.defs ≠ [] ∧ id = q.id := by
  simp only [transfer]
  split
  · next h =>
    rw [List.isEmpty_iff] at h
    rw [mem_foldl_sites]
    simp [h]
  · next h =>
    rw [List.isEmpty_iff] at h
    rw [Std.ExtTreeSet.mem_insert, Std.LawfulEqCmp.compare_eq_iff_eq, mem_foldl_sites]
    simp only [ne_eq, h, not_false_eq_true, true_and]
    rw [or_comm, eq_comm]

theorem transfer_mono (h : ∀ id ∈ t, id ∈ s) : ∀ id ∈ transfer table q t, id ∈ transfer table q s := by
  intro id hid
  rw [mem_transfer] at hid ⊢
  exact hid.imp_left fun hk => ⟨h id hk.1, hk.2⟩

def descent (g : Graph) : (problem g).Descent g.quads :=
  .ofSets g.quadOrder (fun _ => false) (.inl rfl) (fun id h => absurd h (by simp [problem]))
    (fun id h => absurd h (by simp [problem]))
    (fun q hq s hs id hid => by
      rcases mem_transfer.1 hid with hk | ⟨-, rfl⟩
      · exact hs id hk.1
      · exact List.mem_map_of_mem hq)
    (fun q _ s t h => sinks_of_enters.2 (transfer_mono (sinks_of_enters.1 h)))
    (fun q _ s _ => sinks_of_enters.2 fun id h => absurd h (by simp [problem]))
    (by
      refine List.countP_le_length.trans ?_
      rw [Graph.quadOrder, List.length_map]
      exact le_refl _)

def exact (g : Graph) : (problem g).Exact g.quads fun s => ∀ id ∈ s, id ∈ g.quadOrder where
  descent := descent g
  dom_iff _ := Iff.rfl
  laws := meetLaws_union
  below _ _ _ _ h := union_eq_left_of_subset (sinks_of_enters.1 h)

end ReachingDefs

/-! ### Constant propagation -/

namespace ConstantProp

variable {g : Graph} {q : Quad} {r : Register} {t u : Constants}

/-- What a quad writes to the register that it defines. -/
def written (op : Operator) (t : Constants) : ConstState :=
  match op with
  | .move _ s => (s.state? t).getD .nac
  | .binary op _ l r => binaryState t op l r
  | .unary .neg _ s => ((s.state? t).map ConstState.negate).getD .nac
  | _ => .nac

theorem get_transfer : (transfer q t).get r = if r ∈ q.defs then written q.op t else t.get r := by
  simp only [transfer]
  split
  · next d s ho => simp [ho, Quad.defs, Operator.defs, written, eq_comm]
  · next op d l r' ho => simp [ho, Quad.defs, Operator.defs, written, eq_comm]
  · next d s ho => simp [ho, Quad.defs, Operator.defs, written, eq_comm]
  · next hmove hbinary hneg =>
    rw [Constants.get_foldl_set]
    have hw : written q.op t = .nac := by
      unfold written
      split
      · next d s ho => exact absurd ho (hmove d s)
      · next op d l r' ho => exact absurd ho (hbinary op d l r')
      · next d s ho => exact absurd ho (hneg d s)
      · rfl
    rw [hw]
    rfl

theorem state?_lower (h : t.Lower u) (o : Operand) : (o.state? t = none ∧ o.state? u = none) ∨
    ∃ a b, o.state? t = some a ∧ o.state? u = some b ∧ a.meet b = a := by
  cases o with
  | reg r => exact .inr ⟨_, _, rfl, rfl, h r⟩
  | int v => exact .inr ⟨_, _, rfl, rfl, ConstState.meet_self _⟩
  | null => exact .inl ⟨rfl, rfl⟩
  | symbol s => exact .inl ⟨rfl, rfl⟩

theorem written_lower (h : t.Lower u) (op : Operator) :
    (written op t).meet (written op u) = written op t := by
  unfold written
  split
  · next d s =>
    rcases state?_lower h s with ⟨ht, hu⟩ | ⟨a, b, ht, hu, hab⟩
    · rw [ht, hu]
      rfl
    · rw [ht, hu]
      exact hab
  · next op d left right =>
    rw [binaryState, binaryState]
    cases op.fold? with
    | none => rfl
    | some f =>
      rcases state?_lower h left with ⟨ht, hu⟩ | ⟨a, b, ht, hu, hab⟩
      · rw [ht, hu]
        rfl
      · rcases state?_lower h right with ⟨ht', hu'⟩ | ⟨a', b', ht', hu', hab'⟩
        · rw [ht, hu, ht', hu']
          rfl
        · rw [ht, hu, ht', hu']
          exact ConstState.combine_below f hab hab'
  · next d s =>
    rcases state?_lower h s with ⟨ht, hu⟩ | ⟨a, b, ht, hu, hab⟩
    · rw [ht, hu]
      rfl
    · rw [ht, hu]
      exact ConstState.negate_below hab
  · rfl

theorem transfer_lower (h : t.Lower u) : (transfer q t).Lower (transfer q u) := by
  intro r
  rw [get_transfer, get_transfer]
  split
  · exact written_lower h q.op
  · exact h r

theorem lower_empty (t : Constants) : t.Lower ∅ := by
  intro r
  rw [Constants.get_empty, ConstState.meet_undef]

def descent (g : Graph) : (problem g).Descent g.quads where
  dom t := ∀ r, t.get r ≠ .undef → r ∈ g.registers
  le := Constants.Lower
  rank := Constants.rank g.registers.toList
  le_refl := Constants.Lower.refl
  le_trans := Constants.Lower.trans
  dom_top r hr := absurd (Constants.get_empty r) hr
  dom_source r hr := by
    have hs : (problem g).source.get r = if r ∈ g.method.paramRegisters then .nac else .undef := by
      simp only [problem, Constants.get_foldl_set, Constants.get_empty]
    rw [hs] at hr
    split at hr
    · next hp => exact Graph.mem_registers.2 (.inl hp)
    · exact absurd rfl hr
  dom_meet {t u} ht hu r hr := by
    have hm : ((problem g).meet t u).get r = (t.get r).meet (u.get r) := Constants.get_meet t u r
    rw [hm] at hr
    by_cases h : t.get r = .undef
    · rw [h, ConstState.undef_meet] at hr
      exact hu r hr
    · exact ht r h
  dom_transfer q hq {t} ht r hr := by
    have htr : ((problem g).transfer q t).get r = if r ∈ q.defs then written q.op t else t.get r :=
      get_transfer
    rw [htr] at hr
    split at hr
    · next hd => exact mem_registers_of_defs hq hd
    · exact ht r hr
  meet_mono := Constants.Lower.meet
  transfer_mono _ _ {_ _} := transfer_lower
  transfer_le_top _ _ {_} _ := lower_empty _
  rank_lt ht _ h hne := h.rank_lt hne fun r hr => Std.ExtTreeSet.mem_toList.2 (ht r hr)
  rank_top := by
    show Constants.rank g.registers.toList ∅ ≤ 2 * g.registers.size
    rw [Constants.rank_empty, Std.ExtTreeSet.length_toList]

def exact (g : Graph) : (problem g).Exact g.quads fun t => ∀ r, t.get r ≠ .undef → r ∈ g.registers where
  descent := descent g
  dom_iff _ := Iff.rfl
  laws := Constants.meetLaws_meet
  below _ _ _ _ h := Constants.Lower.meet_eq h

end ConstantProp

/-! ### Null checks -/

namespace NullCheck

variable {m : NullCheckMode} {g : Graph} {q : Quad} {r : Register} {s t : Registers}

/-- `r` is the receiver, and the analysis takes it to be known everywhere. -/
def Receives (m : NullCheckMode) (g : Graph) (r : Register) : Prop :=
  m.extended = true ∧ g.method.isStatic = false ∧ r = Register.param 0

instance (m : NullCheckMode) (g : Graph) (r : Register) : Decidable (Receives m g r) :=
  inferInstanceAs (Decidable (_ ∧ _ ∧ _))

theorem mem_transfer_of_receives (h : Receives m g r) : r ∈ (problem m g).transfer q s := by
  refine mem_transfer.2 (.inr ?_)
  rw [known, if_pos h.1]
  exact mem_learn.2 (.inr (.inl (.inr h.2)))

/-- Knowing more before a quad, the receiver apart, the analysis knows more after it. -/
theorem transfer_mono (h : ∀ r ∈ s, r ∈ t ∨ Receives m g r) :
    ∀ r ∈ (problem m g).transfer q s, r ∈ (problem m g).transfer q t := by
  intro r hr
  rw [mem_transfer] at hr ⊢
  refine hr.imp_right fun hk => ?_
  cases hm : m.extended with
  | false =>
    rw [mem_known_of_plain hm] at hk ⊢
    exact ⟨(h r hk.1).resolve_right fun hrec => (by cases hm.symm.trans hrec.1), hk.2⟩
  | true =>
    have hheld : ∀ x, Held g (s.eraseAll q.defs) x → Held g (t.eraseAll q.defs) x := by
      rintro x (hx | hx)
      · rw [Registers.mem_eraseAll] at hx
        rcases h x hx.1 with ht | hrec
        · exact .inl (Registers.mem_eraseAll.2 ⟨ht, hx.2⟩)
        · exact .inr hrec.2
      · exact .inr hx
    rw [known, if_pos hm, mem_learn] at hk ⊢
    rcases hk with hf | hx | ha | ⟨src, ho, hx⟩
    · exact .inl hf
    · exact .inr (.inl (hheld r hx))
    · exact .inr (.inr (.inl ha))
    · exact .inr (.inr (.inr ⟨src, ho, hheld src hx⟩))

theorem mem_registers_of_branchFacts {id : QuadId} (h : (id, r) ∈ g.branchFacts) : r ∈ g.registers := by
  obtain ⟨⟨x, k⟩, hk, hfact⟩ := List.mem_filterMap.1 h
  simp only [Graph.branchFact?, Option.bind_eq_bind, Option.bind_eq_some_iff, Option.pure_def,
    Option.guard_eq_some'] at hfact
  obtain ⟨last, hl, ⟨cond, r', target⟩, hc, other, -, -, -, harm⟩ := hfact
  obtain rfl : r' = r := by
    cases cond with
    | eq | ne =>
      simp only [Option.bind_eq_some_iff, Option.some.injEq, Prod.mk.injEq] at harm
      obtain ⟨arm, -, -, -, first, -, -, he⟩ := harm
      exact he
    | lt | ge | gt | le => cases harm
  refine Graph.mem_registers_of_uses (Graph.mem_quads.2 ⟨_, hk, List.mem_of_getLast? hl⟩) ?_
  rw [Quad.uses, Operator.uses]
  unfold Operator.comparedWithNull? at hc
  split at hc
  · next ho =>
    obtain ⟨rfl, rfl, rfl⟩ := Option.some.inj hc
    simp [ho, Operator.operands, Operand.register?]
  · next ho =>
    obtain ⟨rfl, rfl, rfl⟩ := Option.some.inj hc
    simp [ho, Operator.operands, Operand.register?]
  · cases hc

theorem mem_registers_of_mem_transfer (hq : q ∈ g.quads) (hs : ∀ r ∈ s, r ∈ g.registers ∨ Receives m g r) :
    ∀ r ∈ (problem m g).transfer q s, r ∈ g.registers ∨ Receives m g r := by
  intro r hr
  rcases mem_transfer.1 hr with hc | hk
  · obtain ⟨guard, ho⟩ := Operator.eq_nullCheck_of_checked? hc
    refine .inl (Graph.mem_registers_of_uses hq ?_)
    simp [Quad.uses, Operator.uses, ho, Operator.operands, Operand.register?]
  · cases hm : m.extended with
    | false => exact hs r ((mem_known_of_plain hm).1 hk).1
    | true =>
      rw [known, if_pos hm, factsOf, if_pos hm, mem_learn] at hk
      rcases hk with hf | (hx | hx) | ha | ⟨src, ho, -⟩
      · exact .inl (mem_registers_of_branchFacts hf)
      · exact hs r (Registers.mem_eraseAll.1 hx).1
      · exact .inr ⟨hm, hx⟩
      · refine .inl (mem_registers_of_defs hq ?_)
        unfold Operator.allocated? at ha
        split at ha
        · next ho => simp [Quad.defs, ho, Operator.defs, Option.some.inj ha]
        · next ho => simp [Quad.defs, ho, Operator.defs, Option.some.inj ha]
        · cases ha
      · refine .inl (mem_registers_of_defs hq ?_)
        simp [Quad.defs, ho, Operator.defs]

theorem sinks_iff : Sinks (fun r => !decide (Receives m g r)) s t ↔
    (∀ r ∈ s, r ∈ t ∨ Receives m g r) ∧ ∀ r ∈ t, Receives m g r → r ∈ s := by
  constructor
  · intro h
    refine ⟨fun r hr => ?_, fun r hr hrec => ?_⟩
    · by_cases hrec : Receives m g r
      · exact .inr hrec
      · have hx := h r
        simp only [hrec, decide_false, Bool.not_false, ↓reduceIte] at hx
        exact .inl (hx hr)
    · have hx := h r
      simp only [hrec, decide_true, Bool.not_true, Bool.false_eq_true, ↓reduceIte] at hx
      exact hx hr
  · rintro ⟨h, h'⟩ r
    by_cases hrec : Receives m g r
    · simp only [hrec, decide_true, Bool.not_true, Bool.false_eq_true, ↓reduceIte]
      exact fun hr => h' r hr hrec
    · simp only [hrec, decide_false, Bool.not_false, ↓reduceIte]
      exact fun hr => (h r hr).resolve_right hrec

/-- The registers that occur. The receiver may be named twice. -/
def domain (m : NullCheckMode) (g : Graph) : List Register :=
  g.registers.toList ++ if Receives m g (Register.param 0) then [Register.param 0] else []

theorem mem_domain : r ∈ domain m g ↔ r ∈ g.registers ∨ Receives m g r := by
  have hrec : Receives m g r ↔ Receives m g (Register.param 0) ∧ r = Register.param 0 := by
    simp only [Receives, and_assoc, true_and]
  rw [domain, List.mem_append, Std.ExtTreeSet.mem_toList, hrec]
  refine or_congr_right ?_
  split
  · next h => simp [h]
  · next h => simp [h]

def descent (m : NullCheckMode) (g : Graph) : (problem m g).Descent g.quads :=
  .ofSets (domain m g) (fun r => !decide (Receives m g r)) (.inr rfl)
    (fun _ hr => mem_domain.2 (.inl hr)) (fun _ hr => absurd hr (by simp [problem]))
    (fun q hq s hs => by
      simp only [mem_domain] at hs ⊢
      exact mem_registers_of_mem_transfer hq hs)
    (fun q _ s t h => sinks_iff.2
      ⟨fun r hr => .inl (transfer_mono (sinks_iff.1 h).1 r hr), fun _ _ => mem_transfer_of_receives⟩)
    (fun q hq s hs => by
      simp only [mem_domain] at hs
      exact sinks_iff.2 ⟨mem_registers_of_mem_transfer hq hs, fun _ _ => mem_transfer_of_receives⟩)
    (by
      have hlen : (domain m g).length ≤ g.registers.size + 1 := by
        rw [domain, List.length_append, Std.ExtTreeSet.length_toList]
        split <;> simp
      exact List.countP_le_length.trans hlen)

def exact (m : NullCheckMode) (g : Graph) :
    (problem m g).Exact g.quads fun s => ∀ r ∈ s, r ∈ g.registers ∨ Receives m g r where
  descent := descent m g
  dom_iff _ := forall₂_congr fun _ _ => mem_domain
  laws := meetLaws_inter
  below q _ a b h := by
    refine inter_eq_left_of_subset fun r hr => ?_
    rcases (sinks_iff.1 h).1 r hr with hr | hrec
    · exact hr
    · exact mem_transfer_of_receives hrec

end NullCheck

end Dataflow
