import Dataflow.Proofs.Analysis.InPlace
import Dataflow.Proofs.Analysis.Solutions

/-!
# Which graphs an operation refuses

`q.Misfits kind e`: the operands of `q` have the wrong shape for an analysis of this kind, and `e` says so. Nothing
else makes an operation fail. What a quad looks like does not depend on values, so a sweep that comes to all quads
once finds nothing new in later sweeps; a pass leaves quads out and changes none, so that later passes find nothing
new either (`exists_optimizeRounds_ok`). An optimization that fails does so in its first pass, and the graph is
still as it was.
-/

namespace Dataflow

/-- The operands of a quad have the wrong shape for an analysis: arithmetic that is carried out needs registers or
integers, and a null check needs a register. -/
inductive Quad.Misfits : AnalysisKind → Quad → FlowError → Prop
  | arithmetic {id : QuadId} {op : BinaryOp} {d : Register} {l r o : Operand}
      (hop : op = .add ∨ op = .sub ∨ op = .mul) (ho : o = l ∨ o = r) (hreg : ∀ x, o ≠ .reg x)
      (hint : ∀ v, o ≠ .int v) : Misfits .constantProp ⟨id, .binary op d l r⟩ (.arithmeticOperand id op)
  | check {id : QuadId} {guard : Option Register} {src : Operand} (hreg : ∀ x, src ≠ .reg x) :
      Misfits .nullCheck ⟨id, .nullCheck guard src⟩ (.nullCheckOperand id src)

/-- Some quad misfits, and `e` is what is wrong with the first, in quad order. -/
def Graph.FirstMisfit (g : Graph) (kind : AnalysisKind) (e : FlowError) : Prop :=
  ∃ before q after, g.quads = before ++ q :: after ∧ (∀ x ∈ before, ∀ err, ¬ x.Misfits kind err) ∧
    q.Misfits kind e

/-! ### What each kind refuses -/

theorem BinaryOp.fold?_isSome {op : BinaryOp} :
    op.fold?.isSome = true ↔ op = .add ∨ op = .sub ∨ op = .mul := by
  cases op <;> simp [fold?]

theorem Operand.isInteger_eq_false {o : Operand} :
    o.isInteger = false ↔ (∀ x, o ≠ .reg x) ∧ ∀ v, o ≠ .int v := by
  cases o <;> simp [isInteger]

theorem ConstantProp.fault_iff {q : Quad} {e : FlowError} :
    fault q = some e ↔ q.Misfits .constantProp e := by
  obtain ⟨id, op⟩ := q
  constructor
  · intro h
    unfold fault at h
    split at h
    · next op d l r ho =>
      obtain rfl : _ = _ := ho
      split at h
      · next hc =>
        obtain rfl := Option.some.inj h
        rw [Bool.and_eq_true, BinaryOp.fold?_isSome, Bool.not_eq_true', Bool.and_eq_false_iff] at hc
        rcases hc.2 with hl | hr
        · obtain ⟨hreg, hint⟩ := Operand.isInteger_eq_false.1 hl
          exact .arithmetic hc.1 (.inl rfl) hreg hint
        · obtain ⟨hreg, hint⟩ := Operand.isInteger_eq_false.1 hr
          exact .arithmetic hc.1 (.inr rfl) hreg hint
      · cases h
    · cases h
  · rintro ⟨hop, ho, hreg, hint⟩
    have hfalse := Operand.isInteger_eq_false.2 ⟨hreg, hint⟩
    rcases ho with rfl | rfl
    · simp [fault, BinaryOp.fold?_isSome.2 hop, hfalse]
    · simp [fault, BinaryOp.fold?_isSome.2 hop, hfalse]

theorem NullCheck.fault_iff {q : Quad} {e : FlowError} : fault q = some e ↔ q.Misfits .nullCheck e := by
  obtain ⟨id, op⟩ := q
  constructor
  · intro h
    unfold fault at h
    split at h
    · cases h
    · next guard src hreg ho =>
      obtain rfl : _ = _ := ho
      obtain rfl := Option.some.inj h
      exact .check fun x hx => hreg x hx
    · cases h
  · intro h
    cases h with
    | @check _ guard src hreg =>
      cases src with
      | reg x => exact absurd rfl (hreg x)
      | int v => rfl
      | null => rfl
      | symbol s => rfl

/-- What an analysis of this kind says of a quad. -/
def AnalysisKind.fault : AnalysisKind → Quad → Option FlowError
  | constantProp => ConstantProp.fault
  | nullCheck => NullCheck.fault
  | _ => fun _ => none

theorem AnalysisKind.fault_iff {kind : AnalysisKind} {q : Quad} {e : FlowError} :
    kind.fault q = some e ↔ q.Misfits kind e := by
  cases kind with
  | constantProp => exact ConstantProp.fault_iff
  | nullCheck => exact NullCheck.fault_iff
  | liveness | faintness | reachingDefs => exact iff_of_false nofun nofun

namespace Graph

variable {g : Graph} {kind : AnalysisKind} {e : FlowError}

theorem firstMisfit_iff : g.FirstMisfit kind e ↔ FirstFault kind.fault g.quads e := by
  simp only [FirstMisfit, FirstFault, Option.eq_none_iff_forall_ne_some, ne_eq, AnalysisKind.fault_iff]

theorem exists_firstMisfit_iff :
    (∃ e, g.FirstMisfit kind e) ↔ ∃ q ∈ g.quads, ∃ e, q.Misfits kind e := by
  simp only [firstMisfit_iff, ← AnalysisKind.fault_iff]
  constructor
  · rintro ⟨e, h⟩
    obtain ⟨q, hq, hfault⟩ := h.exists_mem
    exact ⟨q, hq, e, hfault⟩
  · rintro ⟨q, hq, e, hfault⟩
    exact exists_firstFault hq hfault

end Graph

/-! ### Analyses -/

namespace Analysis.Standard

variable {L : Type} [DecidableEq L] {a : Analysis L} {scope : Graph → L → Prop} {g : Graph} {e : FlowError}
  (ha : a.Standard scope) (hd : g.quadOrder.Nodup)
include ha hd

theorem solve_error_iff :
    ((Progress.start a).solve g).1 = .error e ↔ FirstFault (a.problem g).fault g.quads e := by
  rcases run_cases (w := .start a) ha hd with ⟨hf, n, f, hs⟩ | ⟨err, hfirst⟩
  · refine iff_of_false ?_ fun h => ?_
    · rw [Progress.solve_of_settled hs]
      nofun
    · obtain ⟨q, hq, hfault⟩ := h.exists_mem
      cases (hf q hq).symm.trans hfault
  · obtain ⟨f, hs⟩ := hfirst.solve
    have hsolve : ((Progress.start a).solve g).1 = .error err := by
      simp only [Progress.solve, hs]
    rw [hsolve, Except.error.injEq]
    constructor
    · rintro rfl
      exact hfirst
    · exact hfirst.unique

theorem reportOn_error_iff :
    a.reportOn g = .error e ↔ FirstFault (a.problem g).fault g.quads e := by
  rw [← ha.solve_error_iff hd, Analysis.reportOn]
  obtain ⟨outcome, w⟩ := (Progress.start a).solve g
  cases outcome <;> simp

theorem runPass_error_iff {round : Nat} :
    a.runPass round g = .error e ↔ FirstFault (a.problem g).fault g.quads e := by
  rw [← ha.solve_error_iff hd, Analysis.runPass]
  obtain ⟨outcome, w⟩ := (Progress.start a).solve g
  cases outcome <;> simp

theorem exists_runPass_ok (hf : ∀ q ∈ g.quads, (a.problem g).fault q = none) (round : Nat) :
    ∃ p, a.runPass round g = .ok (p, g.removeQuads p.removed) := by
  cases h : a.runPass round g with
  | error e =>
    obtain ⟨q, hq, hfault⟩ := ((ha.runPass_error_iff hd).1 h).exists_mem
    cases (hf q hq).symm.trans hfault
  | ok outcome =>
    obtain ⟨p, left⟩ := outcome
    obtain ⟨n, w, -, rfl, rfl⟩ := Analysis.runPass_ok h
    exact ⟨_, rfl⟩

end Analysis.Standard

section

variable {g : Graph} {e : FlowError} (hd : g.quadOrder.Nodup)
include hd

theorem AnalysisKind.run_error_iff {kind : AnalysisKind} :
    kind.run g = .error e ↔ g.FirstMisfit kind e := by
  rw [Graph.firstMisfit_iff]
  cases kind with
  | liveness => exact (Analysis.Standard.liveness false).reportOn_error_iff hd
  | faintness => exact Analysis.Standard.faintness.reportOn_error_iff hd
  | reachingDefs => exact Analysis.Standard.reachingDefs.reportOn_error_iff hd
  | constantProp => exact Analysis.Standard.constantProp.reportOn_error_iff hd
  | nullCheck => exact (Analysis.Standard.nullCheck .report).reportOn_error_iff hd

theorem Graph.redundantNullChecks_error_iff :
    g.redundantNullChecks = .error e ↔ g.FirstMisfit .nullCheck e := by
  rw [Graph.firstMisfit_iff]
  refine Iff.trans ?_ ((Analysis.Standard.nullCheck .report).solve_error_iff hd)
  rw [Graph.redundantNullChecks]
  obtain ⟨outcome, w⟩ := (Progress.start (.nullCheck .report)).solve g
  cases outcome <;> simp

/-! ### Optimizations -/

/-- Where every check looks at a register, all rounds succeed: a pass only leaves quads out. -/
theorem Graph.exists_optimizeRounds_ok (hf : ∀ q ∈ g.quads, NullCheck.fault q = none) (round rounds : Nat) :
    ∃ ps left, g.optimizeRounds round rounds = .ok (ps, left) := by
  induction rounds generalizing g round with
  | zero => exact ⟨[], g, rfl⟩
  | succ rounds ih =>
    have hkept : ∀ {g : Graph} {ids}, (∀ q ∈ g.quads, NullCheck.fault q = none) →
        ∀ q ∈ (g.removeQuads ids).quads, NullCheck.fault q = none := by
      intro g ids hf q hq
      rw [Graph.quads_removeQuads] at hq
      exact hf q (List.mem_of_mem_filter hq)
    obtain ⟨checks, h₁⟩ := (Analysis.Standard.nullCheck .extendedRemoving).exists_runPass_ok hd hf round
    have hd₁ := Graph.nodup_removeQuads hd checks.removed
    obtain ⟨deadCode, h₂⟩ := (Analysis.Standard.liveness true).exists_runPass_ok hd₁ (fun _ _ => rfl) round
    have hd₂ := Graph.nodup_removeQuads hd₁ deadCode.removed
    obtain ⟨later, left, h₃⟩ := ih hd₂ (hkept (hkept hf)) (round + 1)
    refine ⟨checks :: deadCode :: later, left, ?_⟩
    simp only [optimizeRounds, optimizeRound, h₁, h₂, h₃, bind, Except.bind, pure, Except.pure]
    rfl

theorem Graph.exists_optimize_ok (hf : ∀ q ∈ g.quads, NullCheck.fault q = none) (c : OptimizeSettings) :
    ∃ report left, g.optimize c = .ok (report, left) := by
  rw [optimize]
  cases c.nullCheckOnly with
  | true =>
    obtain ⟨p, hp⟩ := (Analysis.Standard.nullCheck .removing).exists_runPass_ok hd hf 0
    simp only [hp]
    exact ⟨_, _, rfl⟩
  | false =>
    obtain ⟨ps, left, hps⟩ := exists_optimizeRounds_ok hd hf 0 c.rounds
    simp only [hps]
    exact ⟨_, _, rfl⟩

namespace InPlace

variable {c : OptimizeSettings}

/-- The first pass fails, and nothing has been removed yet. -/
theorem on_optimize_of_firstMisfit (h : g.FirstMisfit .nullCheck e)
    (hc : c.nullCheckOnly = true ∨ 1 ≤ c.rounds) : (optimize c).on g = (.error e, g) := by
  rw [Graph.firstMisfit_iff] at h
  have hpass : ∀ m, (passChecks m (.ofAnalysis (.nullCheck m)) 0).on g = (.error e, g) := fun m =>
    on_pass_of_error rfl (NullCheck.passing_follows m) (((Analysis.Standard.nullCheck m).runPass_error_iff hd).2 h)
  obtain ⟨rounds, nullCheckOnly⟩ := c
  cases nullCheckOnly with
  | true => exact on_bind_of_error (hpass _) _
  | false =>
    cases rounds with
    | zero => simp at hc
    | succ rounds => exact on_bind_of_error (on_bind_of_error (hpass _) _) _

theorem on_optimize_error_iff : ((optimize c).on g).1 = .error e ↔
    g.FirstMisfit .nullCheck e ∧ (c.nullCheckOnly = true ∨ 1 ≤ c.rounds) := by
  constructor
  · intro herror
    have hnot : ∀ report left, g.optimize c ≠ .ok (report, left) := by
      intro report left hok
      rw [on_optimize_ok_iff.2 hok] at herror
      cases herror
    rcases no_fault_or_firstFault NullCheck.fault g.quads with hf | ⟨err, hfirst⟩
    · obtain ⟨report, left, hok⟩ := Graph.exists_optimize_ok hd hf c
      exact absurd hok (hnot report left)
    replace hfirst : g.FirstMisfit .nullCheck err := Graph.firstMisfit_iff.2 hfirst
    by_cases hc : c.nullCheckOnly = true ∨ 1 ≤ c.rounds
    · rw [on_optimize_of_firstMisfit hd hfirst hc, Except.error.injEq] at herror
      exact ⟨herror ▸ hfirst, hc⟩
    · -- no pass at all
      obtain ⟨rounds, nullCheckOnly⟩ := c
      obtain ⟨rfl, rfl⟩ : nullCheckOnly = false ∧ rounds = 0 := by simpa using hc
      exact absurd rfl (hnot ⟨g.method.name, []⟩ g)
  · rintro ⟨hfirst, hc⟩
    rw [on_optimize_of_firstMisfit hd hfirst hc]

end InPlace

end

/-! ### The result -/

/-- What makes an operation fail is the shape of operands alone. The error is that of the first quad with operands of
the wrong shape, wherever that stands, and the graph is left as it was. -/
theorem fails_iff_misfit (g : Graph) (hd : g.quadOrder.Nodup) :
    (∀ kind, ((∃ e, ((InPlace.analyze kind).on g).1 = .error e) ↔ ∃ q ∈ g.quads, ∃ e, q.Misfits kind e) ∧
      (∀ e, ((InPlace.analyze kind).on g).1 = .error e → g.FirstMisfit kind e) ∧
      ((InPlace.analyze kind).on g).2 = g) ∧
    ((∀ e, (InPlace.redundantNullChecks.on g).1 = .error e ↔
        ((InPlace.analyze .nullCheck).on g).1 = .error e) ∧
      (InPlace.redundantNullChecks.on g).2 = g) ∧
    ∀ c, ((∃ e, ((InPlace.optimize c).on g).1 = .error e) ↔
        (∃ q ∈ g.quads, ∃ e, q.Misfits .nullCheck e) ∧ (c.nullCheckOnly = true ∨ 1 ≤ c.rounds)) ∧
      ∀ e, ((InPlace.optimize c).on g).1 = .error e →
        g.FirstMisfit .nullCheck e ∧ ((InPlace.optimize c).on g).2 = g := by
  refine ⟨fun kind => ?_, ⟨fun e => ?_, ?_⟩, fun c => ⟨?_, fun e he => ?_⟩⟩
  · have herror : ∀ e, kind.run g = .error e ↔ g.FirstMisfit kind e :=
      fun _ => AnalysisKind.run_error_iff hd
    rw [InPlace.on_analyze, exists_congr herror, Graph.exists_firstMisfit_iff]
    exact ⟨Iff.rfl, fun e => (herror e).1, rfl⟩
  · rw [InPlace.on_redundantNullChecks, InPlace.on_analyze]
    exact (Graph.redundantNullChecks_error_iff hd).trans (AnalysisKind.run_error_iff hd).symm
  · rw [InPlace.on_redundantNullChecks]
  · simp only [InPlace.on_optimize_error_iff hd]
    rw [exists_and_right, Graph.exists_firstMisfit_iff]
  · obtain ⟨hfirst, hc⟩ := (InPlace.on_optimize_error_iff hd).1 he
    rw [InPlace.on_optimize_of_firstMisfit hd hfirst hc]
    exact ⟨hfirst, rfl⟩

/-- A dead copy and two checks of constants, all three on no path from the entry. -/
def strayChecks : Graph := ⟨⟨"stray", 0, true⟩,
  [(.entry, ⟨.entry, [], [⟨2⟩], some ⟨2⟩⟩), (.exit, .empty .exit),
   (⟨2⟩, ⟨⟨2⟩, [⟨1, .ret none⟩], [.exit], some .exit⟩),
   (⟨3⟩, ⟨⟨3⟩, [⟨2, .move "T0" (.int 1)⟩, ⟨3, .nullCheck none .null⟩, ⟨4, .nullCheck none (.int 1)⟩],
      [.exit], some .exit⟩)], 4⟩

theorem strayChecks_fails : (InPlace.optimize ⟨3, false⟩).on strayChecks =
    (.error (.nullCheckOperand 3 .null), strayChecks) := by
  have hcheck : Quad.Misfits .nullCheck ⟨3, .nullCheck none .null⟩ (.nullCheckOperand 3 .null) := .check nofun
  have hfirst : strayChecks.FirstMisfit .nullCheck (.nullCheckOperand 3 .null) := by
    refine ⟨[⟨1, .ret none⟩, ⟨2, .move "T0" (.int 1)⟩], _, [⟨4, .nullCheck none (.int 1)⟩], rfl, ?_, hcheck⟩
    intro x hx err h
    cases h with
    | check hreg => simp at hx
  obtain ⟨hfails, herror⟩ := (fails_iff_misfit strayChecks (by decide)).2.2 ⟨3, false⟩
  obtain ⟨e, he⟩ := hfails.2 ⟨⟨⟨3, .nullCheck none .null⟩, by decide, _, hcheck⟩, .inr (by decide)⟩
  obtain ⟨hfirst', hleft⟩ := herror e he
  rw [Graph.firstMisfit_iff] at hfirst hfirst'
  exact Prod.ext (he.trans (congrArg _ (hfirst'.unique hfirst))) hleft

end Dataflow
