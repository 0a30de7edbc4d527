import Mathlib.Algebra.Order.BigOperators.Group.List
import Mathlib.Algebra.Order.Ring.Nat
import Mathlib.Data.List.Nodup
import Dataflow.Proofs.Flow.Fixpoint

/-!
# Why the sweeps end

`Descent p quads`: an order in which meeting and passing are monotone and in which a result that
changes loses rank. The invariant is `Descent.Falling`: visiting any quad now could only lower its
result. It holds at the start, every visit keeps it (`Falling.visit`), and under it a sweep lowers
results in place, whatever mixture of old and new results it meets. So each sweep but the last uses up
some of the rank that all quads have together: the sweeps end of their own accord (`Ends`), and the
limit on them is never reached (`Descent.exists_ends_initial`).
-/

namespace Dataflow

/-- What meeting two values keeps, meeting the values of a list of neighbours keeps. -/
theorem meetAll_rel {L α : Type} {meet : L → L → L} {R : L → L → Prop} (hrefl : ∀ a, R a a)
    (hmeet : ∀ {a a' b b'}, R a a' → R b b' → R (meet a b) (meet a' b')) {h h' : α → L} (ns : List α)
    (hR : ∀ n ∈ ns, R (h n) (h' n)) (top : L) :
    R (meetAll meet top (ns.map h)) (meetAll meet top (ns.map h')) := by
  cases ns with
  | nil => exact hrefl top
  | cons n ns =>
    show R ((ns.map h).foldl meet (h n)) ((ns.map h').foldl meet (h' n))
    have hn : R (h n) (h' n) := hR n List.mem_cons_self
    replace hR : ∀ m ∈ ns, R (h m) (h' m) := fun m hm => hR m (List.mem_cons_of_mem n hm)
    generalize h n = a at hn ⊢
    generalize h' n = a' at hn ⊢
    induction ns generalizing a a' with
    | nil => exact hn
    | cons m ns ih =>
      exact ih (fun x hx => hR x (List.mem_cons_of_mem m hx)) _ _ (hmeet hn (hR m List.mem_cons_self))

namespace Problem

variable {L : Type}

/-- Values that only fall while `p` is solved. -/
structure Descent (p : Problem L) (quads : List Quad) where
  /-- The values that occur. -/
  dom : L → Prop
  le : L → L → Prop
  rank : L → Nat
  le_refl : ∀ a, le a a
  le_trans : ∀ {a b c}, le a b → le b c → le a c
  dom_top : dom p.top
  dom_source : dom p.source
  dom_meet : ∀ {a b}, dom a → dom b → dom (p.meet a b)
  dom_transfer : ∀ q ∈ quads, ∀ {a}, dom a → dom (p.transfer q a)
  meet_mono : ∀ {a a' b b'}, le a a' → le b b' → le (p.meet a b) (p.meet a' b')
  transfer_mono : ∀ q ∈ quads, ∀ {a b}, le a b → le (p.transfer q a) (p.transfer q b)
  transfer_le_top : ∀ q ∈ quads, ∀ {a}, dom a → le (p.transfer q a) p.top
  rank_lt : ∀ {a b}, dom a → dom b → le a b → a ≠ b → rank a < rank b
  rank_top : rank p.top ≤ p.height

/-! ### Sweeps without a limit -/

/-- From `f` on the `n`-th sweep is the first that changes no result, and it leaves `f'`. -/
inductive Ends [DecidableEq L] (p : Problem L) (e : QuadEdges) (quads : List Quad) :
    Findings L → Nat → Findings L → Prop
  | last {f : Findings L} (h : agree quads f (p.sweep e quads f) = true) :
      Ends p e quads f 1 (p.sweep e quads f)
  | more {f f' : Findings L} {n : Nat} (h : agree quads f (p.sweep e quads f) = false)
      (ht : Ends p e quads (p.sweep e quads f) n f') : Ends p e quads f (n + 1) f'

theorem Ends.iterate_eq [DecidableEq L] {p : Problem L} {e : QuadEdges} {quads : List Quad}
    {f f' : Findings L} {n limit : Nat} (h : p.Ends e quads f n f') (hl : n ≤ limit) :
    p.iterate e quads limit f = some (n, f') := by
  induction h generalizing limit with
  | last ha =>
    obtain ⟨limit, rfl⟩ : ∃ k, limit = k + 1 := ⟨limit - 1, by omega⟩
    rw [iterate, if_pos ha]
  | more ha _ ih =>
    obtain ⟨limit, rfl⟩ : ∃ k, limit = k + 1 := ⟨limit - 1, by omega⟩
    rw [iterate, if_neg (by simp [ha]), ih (by omega)]
    rfl

/-- What every visit preserves, the sweeps preserve to their end. -/
theorem Ends.induct [DecidableEq L] {p : Problem L} {e : QuadEdges} {quads : List Quad} {f f' : Findings L}
    {n : Nat} {I : Findings L → Prop} (h : p.Ends e quads f n f')
    (hv : ∀ f, ∀ q ∈ quads, I f → I (p.visit e f q)) (hf : I f) : I f' := by
  induction h with
  | last _ => exact sweep_induct hv hf
  | more _ _ ih => exact ih (sweep_induct hv hf)

theorem ends_of_iterate [DecidableEq L] {p : Problem L} {e : QuadEdges} {quads : List Quad}
    {f f' : Findings L} {n limit : Nat} (h : p.iterate e quads limit f = some (n, f')) :
    p.Ends e quads f n f' := by
  induction limit generalizing f n with
  | zero => cases h
  | succ limit ih =>
    rw [iterate] at h
    split at h
    · next ha =>
      obtain ⟨rfl, rfl⟩ := Prod.mk.inj (Option.some.inj h)
      exact .last ha
    · next ha =>
      obtain ⟨⟨m, r⟩, hi, hr⟩ := Option.map_eq_some_iff.1 h
      obtain ⟨rfl, rfl⟩ := Prod.mk.inj hr
      exact .more (by simpa using ha) (ih hi)

/-- A problem that settles has come to the end of its sweeps. -/
theorem ends_of_solve [DecidableEq L] {p : Problem L} {g : Graph} {n : Nat} {f : Findings L}
    (h : p.solve g = (.settled n, f)) :
    ∃ f₀, p.Ends g.quadEdges g.quads (p.initial g) n f₀ ∧ f = p.close g.quadEdges f₀ := by
  simp only [solve] at h
  split at h
  · cases h
  · split at h
    · next hi =>
      obtain ⟨hn, rfl⟩ := Prod.mk.inj h
      cases hn
      exact ⟨_, ends_of_iterate hi, rfl⟩
    · cases h

namespace Descent

variable {p : Problem L} {quads : List Quad} (D : Descent p quads) {e : QuadEdges} {f f' : Findings L}

/-! ### Meeting -/

theorem dom_meetAll {top : L} (ht : D.dom top) {vs : List L} (h : ∀ v ∈ vs, D.dom v) :
    D.dom (meetAll p.meet top vs) := by
  cases vs with
  | nil => exact ht
  | cons v vs =>
    show D.dom (vs.foldl p.meet v)
    have hv : D.dom v := h v List.mem_cons_self
    replace h : ∀ w ∈ vs, D.dom w := fun w hw => h w (List.mem_cons_of_mem v hw)
    induction vs generalizing v with
    | nil => exact hv
    | cons w vs ih =>
      exact ih (p.meet v w) (D.dom_meet hv (h w List.mem_cons_self))
        fun x hx => h x (List.mem_cons_of_mem w hx)

theorem meetAll_mono {α : Type} {h h' : α → L} (ns : List α) (hle : ∀ n ∈ ns, D.le (h n) (h' n))
    (top : L) : D.le (meetAll p.meet top (ns.map h)) (meetAll p.meet top (ns.map h')) :=
  meetAll_rel D.le_refl D.meet_mono ns hle top

/-! ### The invariant -/

/-- Every result is a value of the domain, and passing any quad now would not raise its result. -/
structure Falling (e : QuadEdges) (f : Findings L) : Prop extends Underway p quads f where
  dom : ∀ id, D.dom (f.state.resultAt id)
  falls : ∀ q ∈ quads, D.le (p.transfer q (p.meetNeighbours e f.state q.id)) (f.state.resultAt q.id)

variable {D}

theorem Falling.dom_meet (h : D.Falling e f) (id : QuadId) : D.dom (p.meetNeighbours e f.state id) := by
  refine D.dom_meetAll (h.top ▸ D.dom_top) fun v hv => ?_
  obtain ⟨n, -, rfl⟩ := List.mem_map.1 hv
  cases n with
  | none =>
    show D.dom f.state.source
    rw [h.source]
    exact D.dom_source
  | some id => exact h.dom id

theorem Falling.initial (g : Graph) : D.Falling e (p.initial g) := by
  refine ⟨.initial p g, fun id => ?_, fun q hq => ?_⟩
  · rw [initial_resultAt]
    exact D.dom_top
  rw [initial_resultAt]
  refine D.transfer_le_top q hq (D.dom_meetAll D.dom_top fun v hv => ?_)
  obtain ⟨n, -, rfl⟩ := List.mem_map.1 hv
  cases n with
  | none => exact D.dom_source
  | some id =>
    show D.dom ((p.initial g).state.resultAt id)
    rw [initial_resultAt]
    exact D.dom_top

theorem Falling.visit_le (h : D.Falling e f) {q : Quad} (hq : q ∈ quads) (id : QuadId) :
    D.le ((p.visit e f q).state.resultAt id) (f.state.resultAt id) := by
  rw [visit_resultAt]
  split
  · next he => exact he ▸ h.falls q hq
  · exact D.le_refl _

theorem Falling.visit (hd : (quads.map (·.id)).Nodup) (h : D.Falling e f) {q : Quad} (hq : q ∈ quads) :
    D.Falling e (p.visit e f q) := by
  -- what meets at a quad falls with the results
  have hmeet : ∀ id, D.le (p.meetNeighbours e (p.visit e f q).state id) (p.meetNeighbours e f.state id) := by
    intro id
    rw [meetNeighbours, meetNeighbours, visit_top]
    refine D.meetAll_mono _ (fun n _ => ?_) _
    cases n with
    | none =>
      show D.le (p.visit e f q).state.source f.state.source
      rw [visit_source]
      exact D.le_refl _
    | some id => exact h.visit_le hq id
  refine ⟨h.toUnderway.visit hq, fun id => ?_, fun x hx => ?_⟩
  · rw [visit_resultAt]
    split
    · exact D.dom_transfer q hq (h.dom_meet q.id)
    · exact h.dom id
  · refine D.le_trans (D.transfer_mono x hx (hmeet x.id)) ?_
    rw [visit_resultAt]
    split
    · next he =>
      obtain rfl := List.inj_on_of_nodup_map hd hq hx he
      exact D.le_refl _
    · exact h.falls x hx

/-- A sweep keeps the invariant and lowers every result or leaves it alone. -/
theorem Falling.sweep (hd : (quads.map (·.id)).Nodup) (h : D.Falling e f) :
    D.Falling e (p.sweep e quads f) ∧
      ∀ id, D.le ((p.sweep e quads f).state.resultAt id) (f.state.resultAt id) := by
  refine sweep_induct (I := fun f' => D.Falling e f' ∧
    ∀ id, D.le (f'.state.resultAt id) (f.state.resultAt id)) ?_ ⟨h, fun id => D.le_refl _⟩
  rintro f' q hq ⟨hf', hle⟩
  exact ⟨hf'.visit hd hq, fun id => D.le_trans (hf'.visit_le hq id) (hle id)⟩

/-! ### Counting -/

variable (D) in
/-- The rank that the results of all quads have together. -/
def potential (f : Findings L) : Nat := (quads.map fun q => D.rank (f.state.resultAt q.id)).sum

variable [DecidableEq L]

theorem Falling.potential_lt (hd : (quads.map (·.id)).Nodup) (h : D.Falling e f)
    (ha : ¬ agree quads f (p.sweep e quads f) = true) :
    D.potential (p.sweep e quads f) < D.potential f := by
  obtain ⟨h', hle⟩ := h.sweep hd
  have hrank : ∀ q ∈ quads, (p.sweep e quads f).state.resultAt q.id ≠ f.state.resultAt q.id →
      D.rank ((p.sweep e quads f).state.resultAt q.id) < D.rank (f.state.resultAt q.id) :=
    fun q _ hne => D.rank_lt (h'.dom q.id) (h.dom q.id) (hle q.id) hne
  obtain ⟨q, hq, hne⟩ : ∃ q ∈ quads, f.state.resultAt q.id ≠ (p.sweep e quads f).state.resultAt q.id := by
    simpa [agree] using ha
  refine List.sum_lt_sum _ _ (fun x hx => ?_) ⟨q, hq, hrank q hq hne.symm⟩
  by_cases he : (p.sweep e quads f).state.resultAt x.id = f.state.resultAt x.id
  · rw [he]
  · exact (hrank x hx he).le

/-- Under the invariant the sweeps come to an end, and each but the last has used up some rank. -/
theorem Falling.exists_ends (hd : (quads.map (·.id)).Nodup) (h : D.Falling e f) :
    ∃ n f', p.Ends e quads f n f' ∧ n ≤ D.potential f + 1 := by
  induction hk : D.potential f using Nat.strong_induction_on generalizing f with
  | _ k ih =>
    cases ha : agree quads f (p.sweep e quads f) with
    | true => exact ⟨1, _, .last ha, by omega⟩
    | false =>
      have hlt := h.potential_lt hd (by simp [ha])
      obtain ⟨n, f', hends, hn⟩ := ih _ (hk ▸ hlt) (h.sweep hd).1 rfl
      exact ⟨n + 1, f', .more ha hends, by omega⟩

theorem Falling.ends {n : Nat} (hd : (quads.map (·.id)).Nodup) (h : D.Falling e f)
    (ht : p.Ends e quads f n f') : D.Falling e f' :=
  ht.induct (fun _ _ hq hf => hf.visit hd hq) h

/-- A problem whose values fall settles on every graph on which it refuses no quad, as the sweeps do
without a limit. -/
theorem exists_ends_initial {g : Graph} (D : Descent p g.quads) (hd : g.quadOrder.Nodup)
    (hf : ∀ q ∈ g.quads, p.fault q = none) :
    ∃ n f, p.Ends g.quadEdges g.quads (p.initial g) n f ∧ n ≤ g.quads.length * p.height + 1 ∧
      p.solve g = (.settled n, p.close g.quadEdges f) := by
  have hpot : D.potential (p.initial g) ≤ g.quads.length * p.height := by
    have := List.sum_le_card_nsmul (g.quads.map fun q => D.rank ((p.initial g).state.resultAt q.id))
      p.height ?_
    · simpa [potential] using this
    · intro n hn
      obtain ⟨q, -, rfl⟩ := List.mem_map.1 hn
      rw [initial_resultAt]
      exact D.rank_top
  obtain ⟨n, f, hends, hn⟩ := (Falling.initial (D := D) (e := g.quadEdges) g).exists_ends hd
  have hi : p.iterate g.quadEdges g.quads (p.sweepLimit g.quads) (p.initial g) = some (n, f) :=
    hends.iterate_eq (by rw [sweepLimit]; omega)
  refine ⟨n, f, hends, by omega, ?_⟩
  simp only [solve, findSome?_of_no_fault hf, hi]

theorem settles {g : Graph} (D : Descent p g.quads) (hd : g.quadOrder.Nodup)
    (hf : ∀ q ∈ g.quads, p.fault q = none) : ∃ n f, p.solve g = (.settled n, f) := by
  obtain ⟨n, f, -, -, hs⟩ := D.exists_ends_initial hd hf
  exact ⟨n, _, hs⟩

end Descent

end Problem

end Dataflow
