import Dataflow.Proofs.Analysis.Redundancy
import Dataflow.Proofs.Graph.Contraction

/-!
# One plain elimination is enough

A check that stays has a path on which its register comes unchecked. Elimination takes many quads out of that path
at once, and may empty whole blocks on it. Where no check has a guard, the quads that go write nothing, so that
what is left of the path still begins at the entry or with a quad that writes the register
(`ComesUnchecked.removeQuads`). A check that was not redundant before is then not redundant afterwards.
-/

namespace Dataflow

/-- The register that a null check writes. -/
def Operator.guard? : Operator → Option Register
  | nullCheck guard _ => guard
  | _ => none

namespace Graph

variable {g left : Graph} {r : Register} {q : Quad} {ids : List QuadId}

/-- No check of the graph has a guard. -/
def Unguarded (g : Graph) : Prop := ∀ q ∈ g.quads, q.op.guard? = none

instance (g : Graph) : Decidable g.Unguarded := inferInstanceAs (Decidable (∀ q ∈ g.quads, q.op.guard? = none))

/-- A register that comes unchecked still does when quads that write nothing are removed. -/
theorem ComesUnchecked.removeQuads (hw : g.WellFormed) (hids : ∀ x ∈ g.quads, x.id ∈ ids → x.defs = [])
    (hq : q.id ∉ ids) (h : g.ComesUnchecked r q) : (g.removeQuads ids).ComesUnchecked r q := by
  obtain ⟨path, hp, hc, hstart⟩ := h
  have hlast : (path ++ [q]).filter (·.id ∉ ids) = path.filter (·.id ∉ ids) ++ [q] := by
    simp [List.filter_append, hq]
  have hunchecked : ∀ x ∈ path.filter (·.id ∉ ids), x.op.checked? ≠ some r :=
    fun x hx => hc x (List.mem_of_mem_filter hx)
  rcases hstart with hentry | ⟨d, hd, hdef⟩
  · have hleft : (g.removeQuads ids).FromEntry ((path ++ [q]).filter (·.id ∉ ids)) :=
      hw.fromEntry_removeQuads (List.forall_mem_nil _) hentry
    rw [hlast] at hleft
    exact ⟨_, hleft.toIsPath, hunchecked, .inl hleft⟩
  · -- the quad that the path begins with writes the register, so it stays
    obtain ⟨rest, rfl⟩ := List.head?_eq_some_iff.1 hd
    have hdm : d ∈ g.quads := hp.mem d (by simp)
    have hdid : d.id ∉ ids := by
      intro hid
      rw [hids d hdm hid] at hdef
      cases hdef
    have hstays : ∀ l, (d :: l).filter (·.id ∉ ids) = d :: l.filter (·.id ∉ ids) :=
      fun l => List.filter_cons_of_pos (by simpa using hdid)
    have hleft : (g.removeQuads ids).IsPath ((d :: rest ++ [q]).filter (·.id ∉ ids)) := by
      rw [List.cons_append, hstays]
      exact hw.isPath_removeQuads (mem_removeQuads.2 ⟨hdm, hdid⟩) (List.forall_mem_nil _) hp
    rw [hlast] at hleft
    exact ⟨_, hleft, hunchecked, .inr ⟨d, by rw [hstays]; rfl, hdef⟩⟩

theorem Rechecks.defs_eq_nil (hg : g.Unguarded) (hq : q ∈ g.quads) (h : g.Rechecks q) : q.defs = [] := by
  obtain ⟨guard, r, ho, -, -⟩ := h
  have hnone : guard = none := by simpa [ho, Operator.guard?] using hg q hq
  simp [Quad.defs, ho, Operator.defs, hnone]

/-- What a plain elimination does: of all quads it removes exactly the checks that were made before. -/
theorem optimize_plain_rechecks (hw : g.WellFormed) {rounds : Nat} {report : OptimizeReport}
    (h : g.optimize ⟨rounds, true⟩ = .ok (report, left)) :
    ∃ ids, report = ⟨g.method.name, [⟨"null-check", 0, ids⟩]⟩ ∧ left = g.removeQuads ids ∧
      (∀ id ∈ ids, ∃ q ∈ g.quads, q.id = id) ∧ ∀ q ∈ g.quads, q.id ∈ ids ↔ g.Rechecks q := by
  obtain ⟨n, w, hs, rfl, rfl⟩ := optimize_plain_ok h
  obtain ⟨f, hsolve, rfl⟩ := Progress.exists_settled_of_ok hs
  refine ⟨_, rfl, rfl, fun id hid => ?_, fun q hq => ?_⟩
  · obtain ⟨q, hq, rfl, -⟩ :=
      (Problem.solve_solved hw.quads_nodup hsolve).flagged id (Progress.mem_pending.1 hid).2
    exact ⟨q, hq, rfl⟩
  · rw [Progress.mem_pending, ← NullCheck.mem_flagged_iff_rechecks rfl hw hsolve hq]
    exact ⟨fun h => h.2, fun h => ⟨rfl, h⟩⟩

/-- Where no check has a guard, removing the redundant checks makes no other check redundant. -/
theorem Rechecks.of_removeQuads (hw : g.WellFormed) (hg : g.Unguarded)
    (hids : ∀ q ∈ g.quads, q.id ∈ ids ↔ g.Rechecks q) (hq : q ∈ (g.removeQuads ids).quads)
    (h : (g.removeQuads ids).Rechecks q) : g.Rechecks q := by
  obtain ⟨guard, r, ho, hguard, hu⟩ := h
  obtain ⟨hqm, hid⟩ := mem_removeQuads.1 hq
  have hdefs : ∀ x ∈ g.quads, x.id ∈ ids → x.defs = [] :=
    fun x hx hxid => ((hids x hx).1 hxid).defs_eq_nil hg hx
  exact ⟨guard, r, ho, hguard, fun hcomes => hu (hcomes.removeQuads hw hdefs hid)⟩

end Graph

/-! ### The result -/

/-- Where no check has a guard, a plain elimination leaves nothing to eliminate: whenever it succeeds, so does
another one on the graph that it leaves, which removes no quad and changes nothing. -/
theorem second_elimination_removes_nothing (g : Graph) (hw : g.WellFormed) (hg : g.Unguarded) {rounds : Nat}
    {report : OptimizeReport} {left : Graph} (h : (InPlace.optimize ⟨rounds, true⟩).on g = (.ok report, left))
    (rounds' : Nat) :
    ∃ again, (InPlace.optimize ⟨rounds', true⟩).on left = (.ok again, left) ∧ ∀ p ∈ again.passes, p.removed = [] := by
  have hnofault : ∀ q ∈ g.quads, NullCheck.fault q = none := by
    rcases no_fault_or_firstFault NullCheck.fault g.quads with hf | ⟨e, hfirst⟩
    · exact hf
    · rw [InPlace.on_optimize_of_firstMisfit hw.quads_nodup (Graph.firstMisfit_iff.2 hfirst) (.inl rfl)] at h
      cases h
  obtain ⟨ids, -, rfl, -, hids⟩ := Graph.optimize_plain_rechecks hw (InPlace.on_optimize_ok_iff.1 h)
  have hw' := hw.removeQuads ids
  have hnofault' : ∀ q ∈ (g.removeQuads ids).quads, NullCheck.fault q = none :=
    fun q hq => hnofault q (Graph.mem_removeQuads.1 hq).1
  obtain ⟨again, left', hagain⟩ := Graph.exists_optimize_ok hw'.quads_nodup hnofault' ⟨rounds', true⟩
  obtain ⟨ids', rfl, rfl, hknown, hids'⟩ := Graph.optimize_plain_rechecks hw' hagain
  -- a check that the second elimination removes would have gone with the first
  have hnone : ids' = [] := by
    refine List.eq_nil_iff_forall_not_mem.2 fun id hid => ?_
    obtain ⟨q, hq, rfl⟩ := hknown id hid
    obtain ⟨hqm, hkept⟩ := Graph.mem_removeQuads.1 hq
    have hrechecks : g.Rechecks q := ((hids' q hq).1 hid).of_removeQuads hw hg hids hq
    exact hkept ((hids q hqm).2 hrechecks)
  subst hnone
  rw [Graph.removeQuads_nil] at hagain
  exact ⟨_, InPlace.on_optimize_ok_iff.2 hagain, by simp⟩

/-- A loop that only repeats the check before it, and a check that nothing leads to, from which code that makes the same
check is entered. -/
def idleLoop : Graph := ⟨⟨"idleLoop", 2, true⟩,
  [(.entry, ⟨.entry, [], [⟨2⟩], some ⟨2⟩⟩), (.exit, .empty .exit),
   (⟨2⟩, ⟨⟨2⟩, [⟨1, .nullCheck none (.reg "R0")⟩], [⟨3⟩], some ⟨3⟩⟩),
   (⟨3⟩, ⟨⟨3⟩, [⟨2, .nullCheck none (.reg "R0")⟩], [⟨4⟩, ⟨3⟩], some ⟨4⟩⟩),
   (⟨4⟩, ⟨⟨4⟩, [⟨3, .nullCheck none (.reg "R1")⟩], [.exit], some .exit⟩),
   (⟨5⟩, ⟨⟨5⟩, [⟨4, .nullCheck none (.reg "R1")⟩], [⟨4⟩], some ⟨4⟩⟩)], 5⟩

theorem idleLoop_optimize : idleLoop.optimize ⟨0, true⟩ =
    .ok (⟨"idleLoop", [⟨"null-check", 0, [2, 4]⟩]⟩, idleLoop.removeQuads [2, 4]) := by
  decide +kernel

/-- The loop and the code that nothing leads to are empty after the first elimination. -/
theorem idleLoop_second_elimination : (idleLoop.removeQuads [2, 4]).quadOrder = [1, 3] ∧
    ∃ again, (InPlace.optimize ⟨0, true⟩).on (idleLoop.removeQuads [2, 4]) =
        (.ok again, idleLoop.removeQuads [2, 4]) ∧ ∀ p ∈ again.passes, p.removed = [] := by
  refine ⟨by decide, ?_⟩
  exact second_elimination_removes_nothing idleLoop (by decide) (by decide)
    (InPlace.on_optimize_ok_iff.2 idleLoop_optimize) 0

end Dataflow
