import Dataflow.Proofs.Analysis.DeadCode
import Dataflow.Proofs.Analysis.NullCheck

/-!
# What the passes of the optimizer remove

A report lists its passes in order, and each ran on what the passes before it had left
(`Graph.runsPass_of_optimize`). A pass removes a quad for one of two reasons: its results are dead, or it
is a check that is taken to be redundant. The second reason says nothing about the guard of the check,
so a guard is the one register that a pass can take away from a quad that still reads it
(`removed_def_dead_or_guard`).
-/

namespace Dataflow

namespace Graph

variable {g g' : Graph} {q : Quad} {r : Register}

/-- Some path leads from `q` on to a quad that reads `r`, and no quad between the two writes `r`. -/
def LiveAfter (g : Graph) (q : Quad) (r : Register) : Prop :=
  ∃ between u, g.IsPath (q :: between ++ [u]) ∧ r ∈ u.uses ∧ ∀ d ∈ between, r ∉ d.defs

/-- What is left of `g` after the passes that are reported. -/
def afterPasses (g : Graph) (passes : List PassReport) : Graph :=
  passes.foldl (fun g p => g.removeQuads p.removed) g

/-- `p` reports a pass of the optimizer over `g`. -/
inductive RunsPass (g : Graph) (p : PassReport) : Prop
  | nullCheck {m : NullCheckMode} {round : Nat} {g' : Graph}
      (h : (Analysis.nullCheck m).runPass round g = .ok (p, g'))
  | deadCode {round : Nat} {g' : Graph} (h : (Analysis.liveness true).runPass round g = .ok (p, g'))

/-- The passes ran one after another, from `g` on. -/
inductive RunsPasses : Graph → List PassReport → Prop
  | nil {g : Graph} : RunsPasses g []
  | cons {g : Graph} {p : PassReport} {ps : List PassReport} (h : g.RunsPass p)
      (hs : RunsPasses (g.removeQuads p.removed) ps) : RunsPasses g (p :: ps)

theorem RunsPasses.runsPass {before after : List PassReport} {p : PassReport}
    (h : g.RunsPasses (before ++ p :: after)) : (g.afterPasses before).RunsPass p := by
  induction before generalizing g with
  | nil =>
    cases h with
    | cons h _ => exact h
  | cons b before ih =>
    cases h with
    | cons _ hs => exact ih hs

theorem nodup_removeQuads (hd : g.quadOrder.Nodup) (ids : List QuadId) :
    (g.removeQuads ids).quadOrder.Nodup := by
  rw [quadOrder, quads_removeQuads]
  exact hd.sublist (List.filter_sublist.map _)

theorem nodup_afterPasses (hd : g.quadOrder.Nodup) (passes : List PassReport) :
    (g.afterPasses passes).quadOrder.Nodup := by
  induction passes generalizing g with
  | nil => exact hd
  | cons p passes ih => exact ih (nodup_removeQuads hd p.removed)

theorem afterPasses_method (g : Graph) (passes : List PassReport) :
    (g.afterPasses passes).method = g.method := by
  induction passes generalizing g with
  | nil => rfl
  | cons p passes ih => exact ih (g.removeQuads p.removed)

/-! ### The passes of one optimization -/

theorem optimizeRound_ok {round : Nat} {ps : List PassReport} (h : g.optimizeRound round = .ok (ps, g')) :
    ∃ checks deadCode, ps = [checks, deadCode] ∧ g.RunsPass checks ∧
      (g.removeQuads checks.removed).RunsPass deadCode ∧ g' = g.afterPasses ps := by
  simp only [optimizeRound, bind, Except.bind, pure, Except.pure] at h
  split at h
  · cases h
  · next checks h₁ =>
    obtain ⟨checks, g₁⟩ := checks
    split at h
    · cases h
    · next deadCode h₂ =>
      obtain ⟨deadCode, g₂⟩ := deadCode
      obtain ⟨rfl, rfl⟩ := Prod.mk.inj (Except.ok.inj h)
      obtain ⟨n, w, -, rfl, rfl⟩ := Analysis.runPass_ok h₁
      obtain ⟨n', w', -, rfl, rfl⟩ := Analysis.runPass_ok h₂
      exact ⟨_, _, rfl, .nullCheck h₁, .deadCode h₂, rfl⟩

theorem optimizeRounds_ok {round rounds : Nat} {ps : List PassReport}
    (h : g.optimizeRounds round rounds = .ok (ps, g')) : g.RunsPasses ps ∧ g' = g.afterPasses ps := by
  induction rounds generalizing g round ps with
  | zero =>
    obtain ⟨rfl, rfl⟩ := Prod.mk.inj (Except.ok.inj h)
    exact ⟨.nil, rfl⟩
  | succ rounds ih =>
    simp only [optimizeRounds, bind, Except.bind, pure, Except.pure] at h
    split at h
    · cases h
    · next first h₁ =>
      obtain ⟨first, g₁⟩ := first
      obtain ⟨checks, deadCode, rfl, hc, hdead, rfl⟩ := optimizeRound_ok h₁
      split at h
      · cases h
      · next later h₂ =>
        obtain ⟨later, g₂⟩ := later
        obtain ⟨rfl, rfl⟩ := Prod.mk.inj (Except.ok.inj h)
        obtain ⟨hruns, rfl⟩ := ih h₂
        exact ⟨.cons hc (.cons hdead hruns), rfl⟩

/-- An optimization that succeeds has run the passes that it reports, and leaves what these leave. -/
theorem optimize_ok {c : OptimizeSettings} {report : OptimizeReport} (h : g.optimize c = .ok (report, g')) :
    report.method = g.method.name ∧ g.RunsPasses report.passes ∧ g' = g.afterPasses report.passes := by
  simp only [optimize, bind, Except.bind, pure, Except.pure] at h
  split at h
  · split at h
    · cases h
    · next pass h₁ =>
      obtain ⟨pass, left⟩ := pass
      obtain ⟨rfl, rfl⟩ := Prod.mk.inj (Except.ok.inj h)
      obtain ⟨n, w, -, rfl, rfl⟩ := Analysis.runPass_ok h₁
      exact ⟨rfl, .cons (.nullCheck h₁) .nil, rfl⟩
  · split at h
    · cases h
    · next passes h₁ =>
      obtain ⟨passes, left⟩ := passes
      obtain ⟨rfl, rfl⟩ := Prod.mk.inj (Except.ok.inj h)
      exact ⟨rfl, optimizeRounds_ok h₁⟩

theorem runsPass_of_optimize {c : OptimizeSettings} {report : OptimizeReport}
    (h : g.optimize c = .ok (report, g')) {before after : List PassReport} {p : PassReport}
    (hp : report.passes = before ++ p :: after) : (g.afterPasses before).RunsPass p := by
  have hruns := (optimize_ok h).2.1
  rw [hp] at hruns
  exact hruns.runsPass

end Graph

/-! ### What each reason to remove a quad says of its registers -/

variable {g : Graph} {q : Quad} {r : Register}

/-- The liveness equations hold along paths: where a path reads a register before it is written, the
register is live. The induction is on the quads between. -/
theorem Liveness.mem_outAt_of_liveAfter {f : Findings Registers}
    (h : (problem g).Solved g.quadEdges g.quads f) (hl : g.LiveAfter q r) : r ∈ f.state.outAt q.id := by
  obtain ⟨between, u, hp, hu, hb⟩ := hl
  induction between generalizing q with
  | nil =>
    have hflows : g.Flows q u := (List.isChain_cons_cons.1 hp.flows).1
    have hin : r ∈ f.state.inAt u.id := (mem_inAt h hp.tail.head).2 (.inl hu)
    exact (mem_outAt h hp.head).2 ⟨u.id, hflows, hin⟩
  | cons d between ih =>
    have hflows : g.Flows q d := (List.isChain_cons_cons.1 hp.flows).1
    have hout : r ∈ f.state.outAt d.id := ih hp.tail fun x hx => hb x (List.mem_cons_of_mem d hx)
    have hin : r ∈ f.state.inAt d.id :=
      (mem_inAt h hp.tail.head).2 (.inr ⟨hout, hb d List.mem_cons_self⟩)
    exact (mem_outAt h hp.head).2 ⟨d.id, hflows, hin⟩

theorem Graph.RunsPass.dead_or_guard (hd : g.quadOrder.Nodup) {p : PassReport} (h : g.RunsPass p)
    (hq : q ∈ g.quads) (hp : q.id ∈ p.removed) (hr : r ∈ q.defs) :
    (∃ src, q.op = .nullCheck (some r) src) ∨ ¬ g.LiveAfter q r := by
  cases h with
  | nullCheck h =>
    obtain ⟨n, w, hs, rfl, -⟩ := Analysis.runPass_ok h
    obtain ⟨hf, -⟩ := NullCheck.solved_of_solve hd hs
    obtain ⟨s, hc, -⟩ := (NullCheck.mem_flagged_iff hf hd hq).1 (Progress.mem_pending.1 hp).2
    obtain ⟨guard, ho⟩ := Operator.eq_nullCheck_of_checked? hc
    rw [Quad.defs, ho] at hr
    have hguard : guard = some r := Option.mem_toList.1 hr
    exact .inl ⟨.reg s, hguard ▸ ho⟩
  | deadCode h =>
    obtain ⟨n, w, hs, rfl, -⟩ := Analysis.runPass_ok h
    obtain ⟨f, hf, hw⟩ := Progress.solve_ok hd hs
    have hdead : Liveness.isDead f.state q = true := (Liveness.mem_pending_iff hd hf hw hq).1 hp
    rw [Liveness.isDead, Bool.and_eq_true, List.all_eq_true] at hdead
    have hout : r ∉ f.state.outAt q.id := of_decide_eq_true (hdead.2 r hr)
    exact .inr fun hl => hout (Liveness.mem_outAt_of_liveAfter hf hl)

/-! ### The result -/

/-- Whatever a pass of the optimizer removes, no register that the quad defines is still read after it
in the graph that the pass ran on, unless the quad is a null check and the register is its guard. -/
theorem removed_def_dead_or_guard (g : Graph) (hd : g.quadOrder.Nodup) {c : OptimizeSettings}
    {report : OptimizeReport} {g' : Graph} (h : g.optimize c = .ok (report, g'))
    {before after : List PassReport} {p : PassReport} (hp : report.passes = before ++ p :: after)
    {q : Quad} (hq : q ∈ (g.afterPasses before).quads) (hr : q.id ∈ p.removed) :
    ∀ r ∈ q.defs, (∃ src, q.op = .nullCheck (some r) src) ∨ ¬ (g.afterPasses before).LiveAfter q r := by
  intro r hdef
  exact (Graph.runsPass_of_optimize h hp).dead_or_guard (Graph.nodup_afterPasses hd before) hq hr hdef

/-- A check that is made twice, the second time for its guard, and a copy that nobody reads. -/
def guardedTwice : Graph := ⟨⟨"guarded", 1, true⟩,
  [(.entry, ⟨.entry, [], [⟨2⟩], some ⟨2⟩⟩), (.exit, .empty .exit),
   (⟨2⟩, ⟨⟨2⟩, [⟨1, .nullCheck none (.reg "R0")⟩, ⟨2, .nullCheck (some "T0") (.reg "R0")⟩,
      ⟨3, .move "T1" (.reg "T0")⟩, ⟨4, .ret (some (.reg "T0"))⟩], [.exit], some .exit⟩)], 3⟩

theorem guardedTwice_optimize : guardedTwice.optimize ⟨1, false⟩ =
    .ok (⟨"guarded", [⟨"null-check", 0, [2]⟩, ⟨"liveness", 0, [3]⟩]⟩, guardedTwice.removeQuads [2, 3]) := by
  decide +kernel

/-- The second pass ran on what the first one left, and took a copy that is dead there. -/
theorem guardedTwice_copy_dead :
    ¬ (guardedTwice.removeQuads [2]).LiveAfter ⟨3, .move "T1" (.reg "T0")⟩ "T1" := by
  have hp : (OptimizeReport.mk "guarded" [⟨"null-check", 0, [2]⟩, ⟨"liveness", 0, [3]⟩]).passes =
      [⟨"null-check", 0, [2]⟩] ++ ⟨"liveness", 0, [3]⟩ :: [] := rfl
  have h := removed_def_dead_or_guard guardedTwice (by decide) guardedTwice_optimize hp
    (q := ⟨3, .move "T1" (.reg "T0")⟩) (by decide) (by decide) "T1" (by decide)
  rcases h with ⟨src, ho⟩ | h
  · cases ho
  · exact h

/-- The first pass took the guard away from the quad that returns it. -/
theorem guardedTwice_guard_live : guardedTwice.WellFormed ∧
    ∃ report g' p after q, guardedTwice.optimize ⟨1, false⟩ = .ok (report, g') ∧
      report.passes = p :: after ∧ q ∈ guardedTwice.quads ∧ q.id ∈ p.removed ∧ "T0" ∈ q.defs ∧
        guardedTwice.LiveAfter q "T0" := by
  have h₂ : guardedTwice.quadEdges.successors 2 = [some 3] := by decide +kernel
  refine ⟨by decide, _, _, _, _, ⟨2, .nullCheck (some "T0") (.reg "R0")⟩, guardedTwice_optimize, rfl,
    by decide, by decide, by decide, [], ⟨3, .move "T1" (.reg "T0")⟩, ⟨by decide, ?_⟩, by decide, by simp⟩
  simp [Graph.Flows, h₂]

end Dataflow
