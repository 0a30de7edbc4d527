import Dataflow.Lattice.Elements
import Dataflow.Proofs.Lattice.Constants
import Dataflow.Proofs.Lattice.Sets

/-!
# The laws of the lattices

Sets of registers, sets of definition sites and tables of constants are stored in three ways and meet in four, but
the solver treats them alike. It relies on the same laws for all of them (`Lawful`), among the elements that share
what they are drawn from. From the laws it follows that the order in which neighbours are listed does not matter, nor
how often one is listed, and that it makes no difference to start from the first of them or from the top
(`MeetsNeighbours`).

The laws are proved of what an element holds and carried over to the element (`IsView.lawful`). For tables this takes
care: their meet walks through the entries of one side only, and `==` compares what is stored. What is stored settles
what a table holds only because no operation ever stores `undef` (`Reached.canonical`).
-/

namespace Dataflow

/-! ### Laws among some of the values -/

section

variable {L : Type}

/-- The meet stays among the values that `dom` admits, and is commutative, associative and idempotent there. -/
structure LawsOn (dom : L → Prop) (meet : L → L → L) : Prop where
  dom_meet : ∀ a b, dom a → dom b → dom (meet a b)
  comm : ∀ a b, dom a → dom b → meet a b = meet b a
  assoc : ∀ a b c, dom a → dom b → dom c → meet (meet a b) c = meet a (meet b c)
  self : ∀ a, dom a → meet a a = a

/-- Meeting `top` with another value gives that value. -/
structure Neutral (dom : L → Prop) (meet : L → L → L) (top : L) : Prop where
  admitted : dom top
  left : ∀ a, dom a → meet top a = a
  right : ∀ a, dom a → meet a top = a

/-- Meeting `bottom` with another value gives `bottom`. -/
structure Absorbing (dom : L → Prop) (meet : L → L → L) (bottom : L) : Prop where
  admitted : dom bottom
  left : ∀ a, dom a → meet bottom a = bottom
  right : ∀ a, dom a → meet a bottom = bottom

/-- Where `dom` admits all that is handed on, what meets at a quad is what the neighbours make of `top` when they are
met into it one after another, and depends only on which neighbours there are. -/
def MeetsNeighbours (dom : L → Prop) (meet : L → L → L) (top : L) : Prop :=
  ∀ (p : Problem L) (s : FlowState L) (e : QuadEdges) (id : QuadId), p.meet = meet → s.top = top →
    (∀ n ∈ e.neighbours p.direction id, dom (s.handedOn n)) →
    p.meetNeighbours e s id = ((e.neighbours p.direction id).map s.handedOn).foldl meet top ∧
      ∀ (e' : QuadEdges) (id' : QuadId),
        (∀ n, n ∈ e'.neighbours p.direction id' ↔ n ∈ e.neighbours p.direction id) →
        p.meetNeighbours e' s id' = p.meetNeighbours e s id

variable {dom : L → Prop} {meet : L → L → L} {top : L} {vs vs' : List L} {a b : L}

theorem Problem.MeetLaws.lawsOn (h : MeetLaws meet) (hdom : ∀ a b, dom a → dom b → dom (meet a b)) :
    LawsOn dom meet :=
  ⟨hdom, fun a b _ _ => h.comm a b, fun a b c _ _ _ => h.assoc a b c, fun a _ => h.self a⟩

theorem Neutral.meetAll_eq_foldl (h : Neutral dom meet top) (hvs : ∀ v ∈ vs, dom v) :
    meetAll meet top vs = vs.foldl meet top := by
  cases vs with
  | nil => rfl
  | cons v vs => rw [List.foldl_cons, h.left v (hvs v List.mem_cons_self), meetAll]

namespace LawsOn

variable (h : LawsOn dom meet)
include h

theorem dom_foldl (hvs : ∀ v ∈ vs, dom v) (ha : dom a) : dom (vs.foldl meet a) :=
  List.foldlRecOn vs meet ha fun b hb v hv => h.dom_meet b v hb (hvs v hv)

/-- A value that stays as it is when met with each of the values stays so when met with all of them. -/
theorem meet_foldl (hb : dom b) (hvs : ∀ v ∈ vs, dom v ∧ meet b v = b) (ha : dom a) (hba : meet b a = b) :
    meet b (vs.foldl meet a) = b := by
  induction vs generalizing a with
  | nil => exact hba
  | cons v vs ih =>
    obtain ⟨hv, hbv⟩ := hvs v List.mem_cons_self
    refine ih (fun w hw => hvs w (List.mem_cons_of_mem v hw)) (h.dom_meet a v ha hv) ?_
    rw [← h.assoc b a v hb ha hv, hba, hbv]

/-- What the values make of `a` stays as it is when met with `a` or with one of them again. -/
theorem foldl_meet (hvs : ∀ v ∈ vs, dom v) (ha : dom a) :
    ∀ w ∈ a :: vs, meet (vs.foldl meet a) w = vs.foldl meet a := by
  induction vs generalizing a with
  | nil =>
    intro w hw
    rw [List.mem_singleton.1 hw]
    exact h.self a ha
  | cons v vs ih =>
    intro w hw
    have hv := hvs v List.mem_cons_self
    have hrest : ∀ x ∈ vs, dom x := fun x hx => hvs x (List.mem_cons_of_mem v hx)
    have hav := h.dom_meet a v ha hv
    have hall := h.dom_foldl hrest hav
    have hmeet := ih hrest hav (meet a v) List.mem_cons_self
    rw [List.foldl_cons]
    -- `a` and `v` are met first, so the rest has taken up both already
    rcases List.mem_cons.1 hw with rfl | hw
    · rw [← hmeet, h.assoc _ _ _ hall hav ha, h.comm _ _ hav ha, ← h.assoc _ _ _ ha ha hv, h.self _ ha, hmeet]
    · rcases List.mem_cons.1 hw with rfl | hw
      · rw [← hmeet, h.assoc _ _ _ hall hav hv, h.assoc _ _ _ ha hv hv, h.self _ hv, hmeet]
      · exact ih hrest hav w (List.mem_cons_of_mem _ hw)

theorem meetAll_congr (hvs : ∀ v ∈ vs, dom v) (hmem : ∀ v, v ∈ vs' ↔ v ∈ vs) :
    meetAll meet top vs' = meetAll meet top vs := by
  have hvs' : ∀ v ∈ vs', dom v := fun v hv => hvs v ((hmem v).1 hv)
  match vs, vs' with
  | [], [] => rfl
  | [], v :: vs' => exact absurd ((hmem v).1 List.mem_cons_self) List.not_mem_nil
  | v :: vs, [] => exact absurd ((hmem v).2 List.mem_cons_self) List.not_mem_nil
  | v :: vs, v' :: vs' =>
    obtain ⟨hv, hrest⟩ := List.forall_mem_cons.1 hvs
    obtain ⟨hv', hrest'⟩ := List.forall_mem_cons.1 hvs'
    have hdom := h.dom_foldl hrest hv
    have hdom' := h.dom_foldl hrest' hv'
    have habsorbs := h.foldl_meet hrest hv
    have habsorbs' := h.foldl_meet hrest' hv'
    -- each side has taken up all values of the other
    have hle : meet (vs.foldl meet v) (vs'.foldl meet v') = vs.foldl meet v :=
      h.meet_foldl hdom (fun w hw => ⟨hrest' w hw, habsorbs w ((hmem w).1 (List.mem_cons_of_mem v' hw))⟩) hv'
        (habsorbs v' ((hmem v').1 List.mem_cons_self))
    have hge : meet (vs'.foldl meet v') (vs.foldl meet v) = vs'.foldl meet v' :=
      h.meet_foldl hdom' (fun w hw => ⟨hrest w hw, habsorbs' w ((hmem w).2 (List.mem_cons_of_mem v hw))⟩) hv
        (habsorbs' v ((hmem v).2 List.mem_cons_self))
    show vs'.foldl meet v' = vs.foldl meet v
    rw [← hge, h.comm _ _ hdom' hdom, hle]

theorem meetsNeighbours (htop : Neutral dom meet top) : MeetsNeighbours dom meet top := by
  rintro p s e id rfl rfl hdom
  have hvs : ∀ v ∈ (e.neighbours p.direction id).map s.handedOn, dom v := by
    intro v hv
    obtain ⟨n, hn, rfl⟩ := List.mem_map.1 hv
    exact hdom n hn
  refine ⟨htop.meetAll_eq_foldl hvs, fun e' id' hmem => h.meetAll_congr hvs fun v => ?_⟩
  simp only [List.mem_map, hmem]

end LawsOn

/-! ### Carrying laws over -/

/-- The elements among which `join` stays are settled by what they hold (`view`), and that is drawn from `dom` and meets
by `meet`. -/
structure IsView {α : Type} (view : α → L) (among : α → Prop) (join : α → α → α) (dom : L → Prop)
    (meet : L → L → L) : Prop where
  admitted : ∀ a, among a → dom (view a)
  view_join : ∀ a b, among a → among b → view (join a b) = meet (view a) (view b)
  closed : ∀ a b, among a → among b → among (join a b)
  inj : ∀ a b, among a → among b → view a = view b → a = b

/-- The elements that `dom` admits obey the laws of a lattice. Raised to the top they are neutral and lowered to the
bottom, if that is possible, absorbing; `==` says whether they agree; and neighbours meet as they should. -/
structure Lawful [BEq L] (dom : L → Prop) (agree : L → L → Prop) (meet : L → L → L) (toTop : L → L)
    (toBottom : L → Except FlowError L) : Prop where
  laws : LawsOn dom meet
  top : ∀ a, dom a → Neutral dom meet (toTop a)
  bottom : ∀ a b, dom a → toBottom a = .ok b → Absorbing dom meet b
  beq_iff : ∀ a b, dom a → dom b → ((a == b) = true ↔ agree a b)
  neighbours : ∀ a, dom a → MeetsNeighbours dom meet (toTop a)

namespace IsView

variable {α : Type} {view : α → L} {among : α → Prop} {join : α → α → α} (v : IsView view among join dom meet)
include v

theorem lawsOn (h : LawsOn dom meet) : LawsOn among join where
  dom_meet := v.closed
  comm a b ha hb := by
    refine v.inj _ _ (v.closed a b ha hb) (v.closed b a hb ha) ?_
    rw [v.view_join a b ha hb, v.view_join b a hb ha, h.comm _ _ (v.admitted a ha) (v.admitted b hb)]
  assoc a b c ha hb hc := by
    have hab := v.closed a b ha hb
    have hbc := v.closed b c hb hc
    refine v.inj _ _ (v.closed _ c hab hc) (v.closed a _ ha hbc) ?_
    rw [v.view_join _ c hab hc, v.view_join a b ha hb, v.view_join a _ ha hbc, v.view_join b c hb hc,
      h.assoc _ _ _ (v.admitted a ha) (v.admitted b hb) (v.admitted c hc)]
  self a ha := by
    refine v.inj _ _ (v.closed a a ha ha) ha ?_
    rw [v.view_join a a ha ha, h.self _ (v.admitted a ha)]

theorem neutral {t : α} (ht : among t) (h : Neutral dom meet (view t)) : Neutral among join t := by
  refine ⟨ht, fun a ha => v.inj _ _ (v.closed t a ht ha) ha ?_, fun a ha => v.inj _ _ (v.closed a t ha ht) ha ?_⟩
  · rw [v.view_join t a ht ha, h.left _ (v.admitted a ha)]
  · rw [v.view_join a t ha ht, h.right _ (v.admitted a ha)]

theorem absorbing {b : α} (hb : among b) (h : Absorbing dom meet (view b)) : Absorbing among join b := by
  refine ⟨hb, fun a ha => v.inj _ _ (v.closed b a hb ha) hb ?_, fun a ha => v.inj _ _ (v.closed a b ha hb) hb ?_⟩
  · rw [v.view_join b a hb ha, h.left _ (v.admitted a ha)]
  · rw [v.view_join a b ha hb, h.right _ (v.admitted a ha)]

/-- Elements obey the laws that what they hold obeys. -/
theorem lawful [BEq α] {agree : α → α → Prop} {toTop : α → α} {toBottom : α → Except FlowError α}
    (h : LawsOn dom meet) (htop : ∀ a, among a → among (toTop a) ∧ Neutral dom meet (view (toTop a)))
    (hbot : ∀ a b, among a → toBottom a = .ok b → among b ∧ Absorbing dom meet (view b))
    (hbeq : ∀ a b, among a → among b → ((a == b) = true ↔ agree a b)) :
    Lawful among agree join toTop toBottom := by
  have hlaws := v.lawsOn h
  have hneutral : ∀ a, among a → Neutral among join (toTop a) := by
    intro a ha
    exact v.neutral (htop a ha).1 (htop a ha).2
  refine ⟨hlaws, hneutral, fun a b ha hb => ?_, hbeq, fun a ha => hlaws.meetsNeighbours (hneutral a ha)⟩
  exact v.absorbing (hbot a b ha hb).1 (hbot a b ha hb).2

end IsView

end

/-! ### Sets -/

section

variable {α : Type} [Ord α] [Std.TransOrd α] [Std.LawfulEqOrd α]

theorem neutral_empty_union {dom : Std.ExtTreeSet α → Prop} (h : dom ∅) : Neutral dom (· ∪ ·) ∅ := by
  refine ⟨h, fun s _ => Std.ExtTreeSet.ext_mem fun x => ?_, fun s _ => ?_⟩
  · simp
  · exact union_eq_left_of_subset fun x hx => absurd hx Std.ExtTreeSet.not_mem_empty

end

namespace MeetOp

variable (op : MeetOp) (domain : Registers)

theorem lawsOn_apply : LawsOn (fun s : Registers => ∀ r ∈ s, r ∈ domain) op.apply := by
  cases op with
  | union =>
    refine meetLaws_union.lawsOn fun s t hs ht r hr => ?_
    exact (Std.ExtTreeSet.mem_union_iff.1 hr).elim (hs r) (ht r)
  | intersection =>
    refine meetLaws_inter.lawsOn fun s t hs _ r hr => ?_
    exact hs r (Std.ExtTreeSet.mem_inter_iff.1 hr).1

theorem neutral_top : Neutral (fun s : Registers => ∀ r ∈ s, r ∈ domain) op.apply (op.top domain) := by
  cases op with
  | union => exact neutral_empty_union fun r hr => absurd hr Std.ExtTreeSet.not_mem_empty
  | intersection =>
    refine ⟨fun _ => id, fun s hs => ?_, fun s hs => inter_eq_left_of_subset hs⟩
    exact (meetLaws_inter.comm domain s).trans (inter_eq_left_of_subset hs)

theorem absorbing_bottom :
    Absorbing (fun s : Registers => ∀ r ∈ s, r ∈ domain) op.apply (op.bottom domain) := by
  cases op with
  | union =>
    refine ⟨fun _ => id, fun s hs => union_eq_left_of_subset hs, fun s hs => ?_⟩
    exact (meetLaws_union.comm s domain).trans (union_eq_left_of_subset hs)
  | intersection =>
    have hempty : ∀ s : Registers, (∅ : Registers) ∩ s = ∅ := by
      intro s
      exact inter_eq_left_of_subset fun r hr => absurd hr Std.ExtTreeSet.not_mem_empty
    refine ⟨fun r hr => absurd hr Std.ExtTreeSet.not_mem_empty, fun s _ => hempty s, fun s _ => ?_⟩
    exact (meetLaws_inter.comm s ∅).trans (hempty s)

end MeetOp

/-! ### Tables -/

namespace ConstantTable

variable {t u : ConstantTable} {r q : Register} {s : ConstState}

/-- No entry holds `undef`. -/
def Canonical (t : ConstantTable) : Prop := ∀ r : Register, t.entries[r]? ≠ some .undef

theorem canonical_undefined (domain : Registers) : (undefined domain).Canonical := by
  intro r
  simp [undefined]

/-- The tables that operations lead to, one after another. -/
inductive Reached : ConstantTable → Prop
  | undefined (domain : Registers) : Reached (undefined domain)
  | set {t : ConstantTable} (r : Register) (s : ConstState) : Reached t → Reached (t.set r s)
  | toTop {t : ConstantTable} : Reached t → Reached t.toTop
  | toBottom {t : ConstantTable} : Reached t → Reached t.toBottom
  | meet {t u : ConstantTable} : Reached t → Reached u → Reached (t.meet u)

/-- A meet is a number of single changes. -/
theorem meet_induct {P : ConstantTable → Prop} (ht : P t) (hset : ∀ t r s, P t → P (t.set r s)) : P (t.meet u) := by
  rw [meet, Std.ExtTreeMap.foldl_eq_foldl_toList]
  exact List.foldlRecOn _ _ ht fun t ht e _ => hset t e.1 _ ht

theorem domain_meet : (t.meet u).domain = t.domain :=
  meet_induct (P := fun x => x.domain = t.domain) rfl fun _ _ _ => id

theorem getElem?_foldl_insert (rs : List Register) (m : States) :
    (rs.foldl (Std.ExtTreeMap.insert · · .nac) m)[q]? = if q ∈ rs then some .nac else m[q]? := by
  induction rs generalizing m with
  | nil => simp
  | cons x rs ih =>
    rw [List.foldl_cons, ih, Std.ExtTreeMap.getElem?_insert]
    by_cases hq : q ∈ rs
    · simp [hq]
    · by_cases hx : x = q
      · simp [hx]
      · simp [hq, hx, Ne.symm hx]

/-! #### What is stored -/

theorem Canonical.set (h : t.Canonical) (r : Register) (s : ConstState) : (t.set r s).Canonical := by
  intro q
  have hq := h q
  by_cases hs : s = .undef
  · simp only [ConstantTable.set, hs, if_true, Std.ExtTreeMap.getElem?_erase]
    split
    · simp
    · exact hq
  · simp only [ConstantTable.set, hs, if_false, Std.ExtTreeMap.getElem?_insert]
    split
    · simpa using hs
    · exact hq

theorem Canonical.toBottom (h : t.Canonical) : t.toBottom.Canonical := by
  intro q
  rw [ConstantTable.toBottom, getElem?_foldl_insert]
  split
  · simp
  · exact h q

theorem Canonical.meet (h : t.Canonical) (u : ConstantTable) : (t.meet u).Canonical :=
  meet_induct h fun _ r s ht => ht.set r s

theorem Reached.canonical (h : t.Reached) : t.Canonical := by
  induction h with
  | undefined domain => exact canonical_undefined domain
  | set r s _ ih => exact ih.set r s
  | toTop _ _ => exact canonical_undefined _
  | toBottom _ ih => exact ih.toBottom
  | meet _ _ ih _ => exact ih.meet _

/-! #### What is read -/

@[simp] theorem get_set : (t.set r s).get q = if r = q then s else t.get q := by
  by_cases hs : s = .undef <;> by_cases hr : r = q <;>
    simp [set, get, hs, hr, Std.ExtTreeMap.getElem?_erase, Std.ExtTreeMap.getElem?_insert]

@[simp] theorem get_toTop : t.toTop.get r = .undef := by
  simp [toTop, get]

theorem get_toBottom : t.toBottom.get r = if r ∈ t.domain ∨ r ∈ t.entries then .nac else t.get r := by
  rw [get, toBottom, getElem?_foldl_insert]
  simp only [List.mem_append, Std.ExtTreeSet.mem_toList, Std.ExtTreeMap.mem_keys]
  split
  · rfl
  · rfl

theorem get_meet (t u : ConstantTable) (q : Register) : (t.meet u).get q = (t.get q).meet (u.get q) := by
  have hstep : ∀ (t : ConstantTable) r s q,
      (t.set r ((t.get r).meet s)).get q = if r = q then (t.get q).meet (id s) else t.get q := by
    intro t r s q
    rw [get_set]
    split
    · next h => rw [h, id]
    · rfl
  rw [meet, ConstState.read_foldl hstep, Option.map_id, id, get.eq_def u]

/-- What is stored is settled by what is read. -/
theorem Canonical.entries_eq (ht : t.Canonical) (hu : u.Canonical) (h : ∀ r, t.get r = u.get r) :
    t.entries = u.entries := by
  refine Std.ExtTreeMap.ext_getElem? fun r => ?_
  have hr := h r
  have htr := ht r
  have hur := hu r
  unfold get at hr
  cases ht' : t.entries[r]? <;> cases hu' : u.entries[r]? <;> simp_all

theorem Canonical.beq_iff (ht : t.Canonical) (hu : u.Canonical) : (t == u) = true ↔ ∀ r, t.get r = u.get r := by
  show (t.entries == u.entries) = true ↔ _
  rw [beq_iff_eq]
  refine ⟨fun h r => ?_, ht.entries_eq hu⟩
  rw [get, h, get]

/-- The table without what it is drawn from. -/
def constants (t : ConstantTable) : Constants := t.entries.filterMap fun _ s => s.known?

@[simp] theorem get_constants : t.constants.get r = t.get r := by
  rw [Constants.get, constants, Std.ExtTreeMap.getElem?_filterMap, get]
  cases t.entries[r]? with
  | none => rfl
  | some s => cases s <;> rfl

theorem constants_meet (t u : ConstantTable) : (t.meet u).constants = t.constants.meet u.constants := by
  refine Constants.ext_get fun r => ?_
  simp only [get_constants, get_meet, Constants.get_meet]

end ConstantTable

/-! ### The elements -/

namespace RegisterSet

/-- The sets that meet by `op` and whose members are drawn from `domain`. -/
structure Over (op : MeetOp) (domain : Registers) (s : RegisterSet) : Prop where
  meetOp_eq : s.meetOp = op
  domain_eq : s.domain = domain
  subset : ∀ r ∈ s.members, r ∈ domain

variable {op : MeetOp} {domain : Registers} {s t : RegisterSet}

theorem Over.withMembers (h : s.Over op domain) {m : Registers} (hm : ∀ r ∈ m, r ∈ domain) :
    Over op domain { s with members := m } :=
  ⟨h.meetOp_eq, h.domain_eq, hm⟩

theorem Over.eq_of_members_eq (hs : s.Over op domain) (ht : t.Over op domain) (h : s.members = t.members) : s = t := by
  obtain ⟨_, _, _⟩ := s
  obtain ⟨_, _, _⟩ := t
  obtain ⟨rfl, rfl, -⟩ := hs
  obtain ⟨rfl, rfl, -⟩ := ht
  cases h
  rfl

theorem Over.members_meet (hs : s.Over op domain) : (s.meet t).members = op.apply s.members t.members := by
  rw [meet, hs.meetOp_eq]

theorem Over.meet (hs : s.Over op domain) (ht : t.Over op domain) : (s.meet t).Over op domain := by
  refine hs.withMembers ?_
  rw [hs.meetOp_eq]
  exact (op.lawsOn_apply domain).dom_meet _ _ hs.subset ht.subset

theorem Over.toTop (hs : s.Over op domain) : s.toTop.Over op domain := by
  refine hs.withMembers ?_
  rw [hs.meetOp_eq, hs.domain_eq]
  exact (op.neutral_top domain).admitted

theorem Over.toBottom (hs : s.Over op domain) : s.toBottom.Over op domain := by
  refine hs.withMembers ?_
  rw [hs.meetOp_eq, hs.domain_eq]
  exact (op.absorbing_bottom domain).admitted

theorem isView_members (op : MeetOp) (domain : Registers) :
    IsView members (Over op domain) meet (fun s => ∀ r ∈ s, r ∈ domain) op.apply :=
  ⟨fun _ hs => hs.subset, fun _ _ hs _ => hs.members_meet, fun _ _ hs => hs.meet, fun _ _ hs => hs.eq_of_members_eq⟩

theorem lawful (op : MeetOp) (domain : Registers) :
    Lawful (Over op domain) (fun s t => ∀ r, r ∈ s.members ↔ r ∈ t.members) meet toTop (fun s => .ok s.toBottom) := by
  refine (isView_members op domain).lawful (op.lawsOn_apply domain) (fun s hs => ⟨hs.toTop, ?_⟩) ?_ fun s t _ _ => ?_
  · rw [toTop, hs.meetOp_eq, hs.domain_eq]
    exact op.neutral_top domain
  · rintro s _ hs ⟨⟩
    refine ⟨hs.toBottom, ?_⟩
    rw [toBottom, hs.meetOp_eq, hs.domain_eq]
    exact op.absorbing_bottom domain
  · show (s.members == t.members) = true ↔ _
    rw [beq_iff_eq]
    exact Std.ExtTreeSet.ext_mem_iff

end RegisterSet

namespace DefSet

theorem isView_sites : IsView sites (fun _ => True) meet (fun _ => True) (· ∪ ·) := by
  refine ⟨fun _ _ => trivial, fun _ _ _ _ => rfl, fun _ _ _ _ => trivial, ?_⟩
  rintro ⟨_⟩ ⟨_⟩ - - rfl
  rfl

theorem lawful :
    Lawful (fun _ => True) (fun s t => ∀ id, id ∈ s.sites ↔ id ∈ t.sites) meet toTop toBottom := by
  refine isView_sites.lawful (meetLaws_union.lawsOn fun _ _ _ _ => trivial)
    (fun s _ => ⟨trivial, neutral_empty_union trivial⟩) (fun s b _ hb => nomatch hb) fun s t _ _ => ?_
  rw [beq_iff_eq, ← Std.ExtTreeSet.ext_mem_iff]
  exact ⟨congrArg sites, isView_sites.inj s t trivial trivial⟩

end DefSet

namespace Constants

variable (domain : Registers)

theorem lawsOn_meet : LawsOn (fun t => ∀ r, t.get r ≠ .undef → r ∈ domain) Constants.meet := by
  refine meetLaws_meet.lawsOn fun t u ht hu r hr => ?_
  rw [get_meet] at hr
  by_cases h : t.get r = .undef
  · rw [h, ConstState.undef_meet] at hr
    exact hu r hr
  · exact ht r h

theorem neutral_empty {dom : Constants → Prop} (h : dom ∅) : Neutral dom Constants.meet ∅ := by
  refine ⟨h, fun t _ => ext_get fun r => ?_, fun t _ => ext_get fun r => ?_⟩
  · rw [get_meet, get_empty, ConstState.undef_meet]
  · rw [get_meet, get_empty, ConstState.meet_undef]

/-- A table in which nothing of the domain is constant is below every table of the domain. -/
theorem absorbing_of_nac {b : Constants} (hb : ∀ r, b.get r = if r ∈ domain then .nac else .undef) :
    Absorbing (fun t => ∀ r, t.get r ≠ .undef → r ∈ domain) Constants.meet b := by
  have hmeet : ∀ t : Constants, (∀ r, t.get r ≠ .undef → r ∈ domain) → b.meet t = b := by
    intro t ht
    refine ext_get fun r => ?_
    rw [get_meet, hb r]
    split
    · exact ConstState.nac_meet _
    · next hr =>
      by_contra hne
      rw [ConstState.undef_meet] at hne
      exact hr (ht r hne)
  refine ⟨fun r hr => ?_, hmeet, fun t ht => (meetLaws_meet.comm t b).trans (hmeet t ht)⟩
  by_contra hn
  exact hr (by rw [hb r, if_neg hn])

end Constants

namespace ConstantTable

/-- The tables that store no `undef` and whose entries are drawn from `domain`. -/
structure Over (domain : Registers) (t : ConstantTable) : Prop where
  canonical : t.Canonical
  domain_eq : t.domain = domain
  subset : ∀ r, t.get r ≠ .undef → r ∈ domain

variable {domain : Registers} {t u : ConstantTable}

theorem Over.eq_of_constants_eq (ht : t.Over domain) (hu : u.Over domain) (h : t.constants = u.constants) : t = u := by
  have hentries : t.entries = u.entries := by
    refine ht.canonical.entries_eq hu.canonical fun r => ?_
    rw [← get_constants, h, get_constants]
  have hdomain : t.domain = u.domain := ht.domain_eq.trans hu.domain_eq.symm
  obtain ⟨_, _⟩ := t
  obtain ⟨_, _⟩ := u
  cases hentries
  cases hdomain
  rfl

theorem Over.meet (ht : t.Over domain) (hu : u.Over domain) : (t.meet u).Over domain := by
  refine ⟨ht.canonical.meet u, domain_meet.trans ht.domain_eq, fun r hr => ?_⟩
  refine (Constants.lawsOn_meet domain).dom_meet t.constants u.constants ?_ ?_ r ?_
  · simpa using ht.subset
  · simpa using hu.subset
  · rwa [← constants_meet, get_constants]

theorem Over.get_toBottom (ht : t.Over domain) (r : Register) :
    t.toBottom.get r = if r ∈ domain then .nac else .undef := by
  rw [ConstantTable.get_toBottom, ht.domain_eq]
  have hget : r ∉ domain → t.get r = .undef := by
    intro hr
    by_contra hne
    exact hr (ht.subset r hne)
  have hentry : r ∈ t.entries → r ∈ domain := by
    intro hr
    refine ht.subset r fun hundef => ht.canonical r ?_
    obtain ⟨s, hs⟩ := Option.isSome_iff_exists.1 (Std.ExtTreeMap.mem_iff_isSome_getElem?.1 hr)
    rw [get, hs] at hundef
    rw [hs]
    exact congrArg some hundef
  by_cases hr : r ∈ domain
  · simp [hr]
  · rw [if_neg (not_or.2 ⟨hr, fun he => hr (hentry he)⟩), if_neg hr, hget hr]

theorem Over.toTop (ht : t.Over domain) : t.toTop.Over domain :=
  ⟨canonical_undefined _, ht.domain_eq, fun _ hr => absurd get_toTop hr⟩

theorem Over.toBottom (ht : t.Over domain) : t.toBottom.Over domain := by
  refine ⟨ht.canonical.toBottom, ht.domain_eq, fun r hr => ?_⟩
  by_contra hn
  exact hr (by rw [ht.get_toBottom, if_neg hn])

theorem isView_constants (domain : Registers) :
    IsView constants (Over domain) meet (fun t => ∀ r, t.get r ≠ .undef → r ∈ domain) Constants.meet := by
  refine ⟨fun t ht r hr => ?_, fun t u _ _ => constants_meet t u, fun _ _ ht => ht.meet,
    fun _ _ ht => ht.eq_of_constants_eq⟩
  exact ht.subset r (by rwa [← get_constants])

theorem lawful (domain : Registers) :
    Lawful (Over domain) (fun t u => ∀ r, t.get r = u.get r) meet toTop (fun t => .ok t.toBottom) := by
  refine (isView_constants domain).lawful (Constants.lawsOn_meet domain) (fun t ht => ⟨ht.toTop, ?_⟩) ?_
    fun t u ht hu => ht.canonical.beq_iff hu.canonical
  · have hempty : t.toTop.constants = ∅ := Constants.ext_get fun r => by simp
    rw [hempty]
    exact Constants.neutral_empty fun r hr => absurd (Constants.get_empty r) hr
  · rintro t _ ht ⟨⟩
    refine ⟨ht.toBottom, Constants.absorbing_of_nac domain fun r => ?_⟩
    rw [get_constants, ht.get_toBottom]

end ConstantTable

/-! ### All together -/

/-- No operation stores `undef` in a table, and tables meet register by register. Elements that share what they are
drawn from obey the laws of a lattice, with `==` as agreement on every register or every site; only sets of sites
cannot be lowered to a bottom. So the solver meets neighbours to the same value however they are listed, and to the
same as if it met all of them into the top. -/
theorem lattices_are_lawful :
    (∀ t : ConstantTable, t.Reached → ∀ r : Register, t.entries[r]? ≠ some .undef) ∧
    (∀ (t u : ConstantTable) (r : Register), (t.meet u).get r = (t.get r).meet (u.get r)) ∧
    (∀ op domain, Lawful (RegisterSet.Over op domain) (fun s t => ∀ r, r ∈ s.members ↔ r ∈ t.members)
      RegisterSet.meet RegisterSet.toTop (fun s => .ok s.toBottom)) ∧
    (Lawful (fun _ => True) (fun s t => ∀ id, id ∈ s.sites ↔ id ∈ t.sites) DefSet.meet DefSet.toTop DefSet.toBottom ∧
      ∀ s : DefSet, s.toBottom = .error (.noBottom "DefSet")) ∧
    (∀ domain, Lawful (ConstantTable.Over domain) (fun t u => ∀ r, t.get r = u.get r)
      ConstantTable.meet ConstantTable.toTop (fun t => .ok t.toBottom)) ∧
    (∀ (op : MeetOp) (domain : Registers),
      MeetsNeighbours (fun s : Registers => ∀ r ∈ s, r ∈ domain) op.apply (op.top domain)) ∧
    MeetsNeighbours (fun _ : QuadIds => True) (· ∪ ·) ∅ ∧
    MeetsNeighbours (fun _ : Constants => True) Constants.meet ∅ := by
  refine ⟨fun t ht => ht.canonical, ConstantTable.get_meet, RegisterSet.lawful, ⟨DefSet.lawful, fun _ => rfl⟩,
    ConstantTable.lawful, fun op domain => ?_, ?_, ?_⟩
  · exact (op.lawsOn_apply domain).meetsNeighbours (op.neutral_top domain)
  · exact (meetLaws_union.lawsOn fun _ _ _ _ => trivial).meetsNeighbours (neutral_empty_union trivial)
  · exact (Constants.meetLaws_meet.lawsOn fun _ _ _ _ => trivial).meetsNeighbours (Constants.neutral_empty trivial)

/-- Of the two registers `R0` and `R1`, the first has this state. -/
def ConstantTable.firstOfTwo (s : ConstState) : ConstantTable := (undefined (.ofList ["R0", "R1"])).set "R0" s

theorem ConstantTable.over_firstOfTwo (s : ConstState) : (firstOfTwo s).Over (.ofList ["R0", "R1"]) := by
  refine ⟨(canonical_undefined _).set "R0" s, rfl, fun r hr => ?_⟩
  rw [firstOfTwo, get_set] at hr
  split at hr
  · next h => simp [← h]
  · exact absurd (by simp [undefined, get]) hr

theorem firstOfTwo_meet : (ConstantTable.firstOfTwo (.const 3)).meet (.firstOfTwo (.const 4)) =
      (ConstantTable.firstOfTwo (.const 4)).meet (.firstOfTwo (.const 3)) ∧
    ((ConstantTable.firstOfTwo (.const 3)).meet (.firstOfTwo (.const 4))).get "R0" = .nac := by
  obtain ⟨-, hget, -, -, hlawful, -⟩ := lattices_are_lawful
  refine ⟨(hlawful _).laws.comm _ _ (ConstantTable.over_firstOfTwo _) (ConstantTable.over_firstOfTwo _), ?_⟩
  rw [hget]
  decide

end Dataflow
