import Dataflow.Proofs.Analysis.Solutions

/-!
# What the extended mode adds

`p'.Outdoes p quads R`: two problems start and meet alike, and of values that are related by `R` the quads of `p'`
make results that are related to those of `p`. The sweeps of the two problems do not keep step, so their values
are not compared sweep by sweep: a solution of `p` stays related to everything that the sweeps of `p'` hold
(`Outdoes.visit`), as it is to `top`, and so to what they end with (`Outdoes.rel_values`).

With inclusion for `R`, extended elimination of null checks outdoes plain elimination (`NullCheck.outdoes_plain`):
what it learns besides is only ever added.
-/

namespace Dataflow

namespace Problem

variable {L : Type} {p p' : Problem L} {R : L → L → Prop}

/-- `p'` differs from `p` only in what its quads do, and from related values they make related results. -/
structure Outdoes (p' p : Problem L) (quads : List Quad) (R : L → L → Prop) : Prop where
  direction_eq : p'.direction = p.direction
  meet_eq : p'.meet = p.meet
  top_eq : p'.top = p.top
  source_eq : p'.source = p.source
  refl : ∀ a, R a a
  meet : ∀ {a a' b b'}, R a a' → R b b' → R (p.meet a b) (p.meet a' b')
  transfer : ∀ q ∈ quads, ∀ {a a'}, R a a' → R (p.transfer q a) (p'.transfer q a')

namespace Outdoes

variable {g : Graph} {v : FlowValues L} {f : Findings L} {n : Nat}
  (h : p'.Outdoes p g.quads R) (hd : g.quadOrder.Nodup)
include h hd

/-- What meets at a quad, if the results of `p'` are `out`. -/
theorem rel_input (hv : p.Equations g v) {out : QuadId → L} (hout : ∀ q ∈ g.quads, R (v.output q.id) (out q.id))
    {q : Quad} (hq : q ∈ g.quads) : R (v.input q.id) (meetAll p'.meet p'.top
      ((g.quadEdges.neighbours p'.direction q.id).map fun n => n.elim p'.source out)) := by
  rw [hv.input q hq, h.direction_eq, h.meet_eq, h.top_eq, h.source_eq]
  refine meetAll_rel h.refl h.meet _ (fun n hn => ?_) _
  cases n with
  | none =>
    show R v.entry p.source
    rw [hv.entry]
    exact h.refl _
  | some id =>
    obtain ⟨x, hx, rfl⟩ := exists_neighbour hd hq hn
    exact hout x hx

/-- A solution of `p` is related to the results of `p'` at every visit. -/
theorem visit (hv : p.Equations g v) (hf : p'.Underway g.quads f)
    (hR : ∀ q ∈ g.quads, R (v.output q.id) (f.state.resultAt q.id)) {q : Quad} (hq : q ∈ g.quads) :
    ∀ x ∈ g.quads, R (v.output x.id) ((p'.visit g.quadEdges f q).state.resultAt x.id) := by
  intro x hx
  rw [visit_resultAt]
  split
  · next he =>
    obtain rfl := Graph.eq_of_id_eq hd hq hx he
    have hhanded : f.state.handedOn = fun n => n.elim p'.source f.state.resultAt := by
      funext n
      cases n with
      | none => exact hf.source
      | some id => rfl
    rw [hv.output q hq, meetNeighbours, hf.top, hhanded]
    exact h.transfer q hq (h.rel_input hd hv hR hq)
  · exact hR x hx

variable [DecidableEq L]

theorem ends (hv : p.Equations g v) (htop : ∀ q ∈ g.quads, R (v.output q.id) p.top)
    (ht : p'.Ends g.quadEdges g.quads (p'.initial g) n f) :
    p'.Underway g.quads f ∧ ∀ q ∈ g.quads, R (v.output q.id) (f.state.resultAt q.id) := by
  refine ht.induct (I := fun f => p'.Underway g.quads f ∧
    ∀ q ∈ g.quads, R (v.output q.id) (f.state.resultAt q.id)) ?_ ⟨.initial p' g, fun q hq => ?_⟩
  · rintro f q hq ⟨hf, hR⟩
    exact ⟨hf.visit hq, h.visit hd hv hf hR hq⟩
  · rw [initial_resultAt, h.top_eq]
    exact htop q hq

/-- Both in the direction of the problems. -/
theorem rel_values (hv : p.Equations g v) (htop : ∀ q ∈ g.quads, R (v.output q.id) p.top)
    (ht : p'.Ends g.quadEdges g.quads (p'.initial g) n f) :
    FlowValues.Rel g R v ((p'.close g.quadEdges f).state.values.along p'.direction) := by
  obtain ⟨hf, hout⟩ := h.ends hd hv htop ht
  have heq := equations_of_ends hd ht
  rw [FlowState.values_along (s := (p'.close g.quadEdges f).state) hf.direction] at heq ⊢
  have hentry : R v.entry f.state.source := by
    rw [hv.entry, hf.source, h.source_eq]
    exact h.refl _
  refine ⟨fun q hq => ?_, hout, hentry, ?_⟩
  · rw [heq.input q hq, heq.entry]
    exact h.rel_input hd hv hout hq
  · rw [hv.exit, heq.exit, hv.entry, heq.entry, h.direction_eq, h.meet_eq, h.source_eq]
    refine meetAll_rel h.refl h.meet _ (fun id hid => ?_) _
    obtain ⟨x, hx, rfl⟩ := exists_lastQuad hid
    exact hout x hx

end Outdoes

end Problem

namespace NullCheck

variable {m m' : NullCheckMode} {g : Graph} {q : Quad} {r : Register} {s t : Registers}

/-- The extended mode knows at a quad what the plain mode knows there. -/
theorem mem_known_of_mem_plain (hm : m.extended = false) (hst : ∀ r ∈ s, r ∈ t)
    (hr : r ∈ known m g (factsOf m g) q s) : r ∈ known m' g (factsOf m' g) q t := by
  obtain ⟨hs, hdef⟩ := (mem_known_of_plain hm).1 hr
  have hkept : r ∈ t.eraseAll q.defs := Registers.mem_eraseAll.2 ⟨hst r hs, hdef⟩
  simp only [known]
  split
  · exact mem_learn.2 (.inr (.inl (.inl hkept)))
  · exact hkept

theorem outdoes_plain (hm : m.extended = false) (m' : NullCheckMode) (g : Graph) :
    (problem m' g).Outdoes (problem m g) g.quads fun s t => ∀ r ∈ s, r ∈ t where
  direction_eq := rfl
  meet_eq := rfl
  top_eq := rfl
  source_eq := rfl
  refl _ _ := id
  meet {a a' b b'} ha hb r hr := by
    obtain ⟨hra, hrb⟩ := Std.ExtTreeSet.mem_inter_iff.1 hr
    exact Std.ExtTreeSet.mem_inter_iff.2 ⟨ha r hra, hb r hrb⟩
  transfer q _ {s t} hst r hr := mem_transfer.2 ((mem_transfer.1 hr).imp_right (mem_known_of_mem_plain hm hst))

section

variable (hm : m.extended = false) (hd : g.quadOrder.Nodup) {n n' : Nat} {f f' : Findings Registers}
  (h : (problem m g).solve g = (.settled n, f)) (h' : (problem m' g).solve g = (.settled n', f'))
include hm hd h h'

theorem rel_values_of_plain : FlowValues.Rel g (fun s t => ∀ r ∈ s, r ∈ t) f.state.values f'.state.values := by
  obtain ⟨f₀, hends, rfl⟩ := Problem.ends_of_solve h
  obtain ⟨f₀', hends', rfl⟩ := Problem.ends_of_solve h'
  have hgreatest := (exact m g).isGreatestSolution hd hends
  -- in the plain mode no register from outside the graph is ever known
  have hwithin : ∀ r, r ∈ g.registers ∨ Receives m g r → r ∈ g.registers :=
    fun r hr => hr.resolve_right fun hrec => by cases hm.symm.trans hrec.1
  exact (outdoes_plain hm m' g).rel_values hd hgreatest.solves
    (fun q hq r hr => hwithin r (hgreatest.within.output q hq r hr)) hends'

theorem mem_flagged_of_plain : ∀ id ∈ f.flagged, id ∈ f'.flagged := by
  have hf := Problem.solve_solved hd h
  have hf' := Problem.solve_solved hd h'
  have hmet : ∀ q ∈ g.quads, ∀ r ∈ f.state.metAt q.id, r ∈ f'.state.metAt q.id := by
    have hdir : f.state.direction = .forward := hf.direction
    have hdir' : f'.state.direction = .forward := hf'.direction
    have hrel := (FlowValues.rel_along .forward).2 (rel_values_of_plain hm hd h h')
    rw [FlowState.values_along hdir, FlowState.values_along hdir'] at hrel
    exact hrel.input
  intro id hid
  obtain ⟨q, hq, rfl, -⟩ := hf.flagged id hid
  obtain ⟨r, hc, hk⟩ := (mem_flagged_iff hf hd hq).1 hid
  exact (mem_flagged_iff hf' hd hq).2 ⟨r, hc, mem_known_of_mem_plain hm (hmet q hq) hk⟩

end

end NullCheck

/-! ### The result -/

/-- Extended elimination loses nothing that plain elimination finds. On every graph on which the plain mode succeeds
the extended mode succeeds too; before and after every quad, and where flow leaves the method, it knows every
register that the plain mode knows, and it has every check flagged that the plain mode has. -/
theorem extended_mode_keeps_plain_facts (g : Graph) (hd : g.quadOrder.Nodup) (remove remove' : Bool)
    {stats : RunStats} {w : Progress Registers} {left : Graph}
    (h : (Solver.ofAnalysis (.nullCheck ⟨remove, false⟩)).run g = (.ok stats, ⟨some w⟩, left)) :
    ∃ stats' w' left', (Solver.ofAnalysis (.nullCheck ⟨remove', true⟩)).run g = (.ok stats', ⟨some w'⟩, left') ∧
      FlowValues.Rel g (fun s t => ∀ r ∈ s, r ∈ t) w.state.values w'.state.values ∧
      ∀ id ∈ w.findings.flagged, id ∈ w'.findings.flagged := by
  -- which quads are refused does not depend on the mode
  have hfault : ∀ q ∈ g.quads, NullCheck.fault q = none :=
    ((Analysis.Standard.nullCheck ⟨remove, false⟩).run_ok_iff (w := .start _) hd).1 ⟨stats, congrArg Prod.fst h⟩
  obtain ⟨f, hs, rfl, -⟩ := Solver.run_finished h
  obtain ⟨n, f', hs'⟩ := (NullCheck.descent ⟨remove', true⟩ g).settles hd hfault
  obtain ⟨stats', hrun, -⟩ := Solver.run_eq_of_settled (w := .start (.nullCheck ⟨remove', true⟩)) hs'
  exact ⟨stats', _, _, hrun, NullCheck.rel_values_of_plain rfl hd hs hs',
    NullCheck.mem_flagged_of_plain rfl hd hs hs'⟩

/-- A loop that checks `T0` once more in every round. The receiver is no register of the graph, but the extended mode
knows it everywhere. -/
def polling : Graph := ⟨⟨"polling", 0, false⟩,
  [(.entry, ⟨.entry, [], [⟨2⟩], some ⟨2⟩⟩), (.exit, .empty .exit),
   (⟨2⟩, ⟨⟨2⟩, [⟨1, .nullCheck none (.reg "T0")⟩], [⟨3⟩], some ⟨3⟩⟩),
   (⟨3⟩, ⟨⟨3⟩, [⟨2, .nullCheck none (.reg "T0")⟩, ⟨3, .move "T1" (.reg "T0")⟩,
      ⟨4, .ifCmp .eq (.reg "T2") (.int 0) ⟨3⟩⟩], [.exit, ⟨3⟩], some .exit⟩)], 4⟩

theorem polling_keeps_plain_facts : ∃ stats w stats' w' left left',
    (Solver.ofAnalysis (.nullCheck .report)).run polling = (.ok stats, ⟨some w⟩, left) ∧
    (Solver.ofAnalysis (.nullCheck .extendedRemoving)).run polling = (.ok stats', ⟨some w'⟩, left') ∧
    2 ∈ w.findings.flagged ∧ 2 ∈ w'.findings.flagged ∧ ∀ r ∈ w.state.inAt 2, r ∈ w'.state.inAt 2 := by
  have hd : polling.quadOrder.Nodup := by decide
  obtain ⟨n, f, hs⟩ := (NullCheck.descent .report polling).settles hd (by decide)
  have hflagged : ((NullCheck.problem .report polling).solve polling).2.flagged.contains 2 = true := by
    decide +kernel
  rw [hs] at hflagged
  obtain ⟨stats, hrun, -⟩ := Solver.run_eq_of_settled (w := .start (.nullCheck .report)) hs
  obtain ⟨stats', w', left', hrun', hrel, hflags⟩ := extended_mode_keeps_plain_facts polling hd false true hrun
  exact ⟨stats, _, stats', w', _, left', hrun, hrun', hflagged, hflags 2 hflagged,
    hrel.input ⟨2, .nullCheck none (.reg "T0")⟩ (by decide)⟩

end Dataflow
