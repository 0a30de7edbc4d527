import Dataflow.Proofs.Analysis.Accounting
import Dataflow.Proofs.Analysis.Failures

/-!
# A full optimization comes to rest

`g.Quiet`: both passes of a round run through on `g` and find nothing to remove. What a pass finds does not depend
on the number of its round, so rounds from a quiet graph on leave that graph (`Quiet.optimizeRounds`). A graph that
is not quiet has fewer quads after a round (`quiet_or_quadCount_lt`), so that as many rounds as there are quads end
in a quiet graph (`quiet_of_quadCount_le`), and any rounds beyond these change nothing.
-/

namespace Dataflow

namespace Analysis

variable {L : Type} [DecidableEq L] {a : Analysis L} {g left : Graph} {round : Nat} {p : PassReport}

/-- Passes of `a` over `g` succeed and remove nothing. -/
def Spares (a : Analysis L) (g : Graph) : Prop := ∀ round, a.runPass round g = .ok (⟨a.name, round, []⟩, g)

theorem spares_of_runPass (h : a.runPass round g = .ok (p, left)) (hp : p.removed = []) : a.Spares g := by
  obtain ⟨n, w, hs, rfl, -⟩ := runPass_ok h
  replace hp : w.pending = [] := hp
  intro round'
  rw [runPass, hs]
  simp only [hp, Graph.removeQuads_nil]

end Analysis

namespace Graph

variable {g mid left : Graph} {round first rounds : Nat} {ps later : List PassReport}

/-! ### Rounds -/

/-- The passes of a round, the second on what the first has left. -/
structure RunsRound (g : Graph) (round : Nat) (checks deadCode : PassReport) (left : Graph) : Prop where
  first : (Analysis.nullCheck .extendedRemoving).runPass round g = .ok (checks, g.removeQuads checks.removed)
  second : (Analysis.liveness true).runPass round (g.removeQuads checks.removed) = .ok (deadCode, left)
  left_eq : left = (g.removeQuads checks.removed).removeQuads deadCode.removed

theorem optimizeRounds_succ_ok_iff : g.optimizeRounds round (rounds + 1) = .ok (ps, left) ↔
    ∃ checks deadCode mid later, g.RunsRound round checks deadCode mid ∧
      mid.optimizeRounds (round + 1) rounds = .ok (later, left) ∧ ps = checks :: deadCode :: later := by
  simp only [optimizeRounds, optimizeRound, bind, Except.bind, pure, Except.pure]
  constructor
  · intro h
    cases h₁ : (Analysis.nullCheck .extendedRemoving).runPass round g with
    | error e => simp [h₁] at h
    | ok outcome =>
      obtain ⟨checks, g₁⟩ := outcome
      obtain ⟨n, w, -, rfl, rfl⟩ := Analysis.runPass_ok h₁
      simp only [h₁] at h
      cases h₂ : (Analysis.liveness true).runPass round (g.removeQuads w.pending) with
      | error e => simp [h₂] at h
      | ok outcome =>
        obtain ⟨deadCode, g₂⟩ := outcome
        obtain ⟨n', w', -, rfl, rfl⟩ := Analysis.runPass_ok h₂
        simp only [h₂] at h
        cases h₃ : ((g.removeQuads w.pending).removeQuads w'.pending).optimizeRounds (round + 1) rounds with
        | error e => simp [h₃] at h
        | ok outcome =>
          obtain ⟨later, g₃⟩ := outcome
          simp only [h₃] at h
          obtain ⟨rfl, rfl⟩ := Prod.mk.inj (Except.ok.inj h)
          exact ⟨_, _, _, later, ⟨h₁, h₂, rfl⟩, h₃, rfl⟩
  · rintro ⟨checks, deadCode, mid, later, h, hlater, rfl⟩
    simp only [h.first, h.second, hlater]
    rfl

theorem optimizeRounds_add (h : g.optimizeRounds round first = .ok (ps, mid))
    (hlater : mid.optimizeRounds (round + first) rounds = .ok (later, left)) :
    g.optimizeRounds round (first + rounds) = .ok (ps ++ later, left) := by
  induction first generalizing g round ps with
  | zero =>
    obtain ⟨rfl, rfl⟩ := Prod.mk.inj (Except.ok.inj h)
    rwa [Nat.zero_add]
  | succ first ih =>
    obtain ⟨checks, deadCode, next, rest, hround, hrest, rfl⟩ := optimizeRounds_succ_ok_iff.1 h
    rw [Nat.add_right_comm]
    refine optimizeRounds_succ_ok_iff.2 ⟨checks, deadCode, next, _, hround, ih hrest ?_, rfl⟩
    rwa [Nat.add_assoc, Nat.add_comm 1]

/-! ### Rounds from a quiet graph on -/

/-- Neither pass of a round removes anything. -/
def Quiet (g : Graph) : Prop :=
  (Analysis.nullCheck .extendedRemoving).Spares g ∧ (Analysis.liveness true).Spares g

theorem Quiet.runsRound (h : g.Quiet) (round : Nat) :
    g.RunsRound round ⟨"null-check", round, []⟩ ⟨"liveness", round, []⟩ g := by
  refine ⟨?_, ?_, ?_⟩
  · exact removeQuads_nil.symm ▸ h.1 round
  · exact removeQuads_nil.symm ▸ h.2 round
  · rw [removeQuads_nil, removeQuads_nil]

theorem Quiet.optimizeRounds (h : g.Quiet) (round rounds : Nat) :
    ∃ ps, g.optimizeRounds round rounds = .ok (ps, g) ∧ ∀ p ∈ ps, p.removed = [] := by
  induction rounds generalizing round with
  | zero => exact ⟨[], rfl, nofun⟩
  | succ rounds ih =>
    obtain ⟨later, hlater, hnil⟩ := ih (round + 1)
    refine ⟨_, optimizeRounds_succ_ok_iff.2 ⟨_, _, g, later, h.runsRound round, hlater, rfl⟩, ?_⟩
    exact List.forall_mem_cons.2 ⟨rfl, List.forall_mem_cons.2 ⟨rfl, hnil⟩⟩

namespace RunsRound

variable {checks deadCode : PassReport}

theorem quiet (h : g.RunsRound round checks deadCode left) (hc : checks.removed = [])
    (hl : deadCode.removed = []) : g.Quiet ∧ left = g := by
  obtain ⟨h₁, h₂, rfl⟩ := h
  rw [hc, removeQuads_nil] at h₁ h₂
  refine ⟨⟨Analysis.spares_of_runPass h₁ hc, Analysis.spares_of_runPass h₂ hl⟩, ?_⟩
  rw [hc, hl, removeQuads_nil, removeQuads_nil]

theorem round_eq (h : g.RunsRound round checks deadCode left) : checks.round = round ∧ deadCode.round = round := by
  obtain ⟨n, w, -, hc, -⟩ := Analysis.runPass_ok h.first
  obtain ⟨n', w', -, hl, -⟩ := Analysis.runPass_ok h.second
  rw [hc, hl]
  exact ⟨rfl, rfl⟩

end RunsRound

/-- Once a round has removed nothing, no pass does. -/
theorem removed_eq_nil_of_round (h : g.optimizeRounds round rounds = .ok (ps, left)) {i : Nat} (hi : round ≤ i)
    (hnone : ∀ p ∈ ps, p.round = i → p.removed = []) : ∀ p ∈ ps, i ≤ p.round → p.removed = [] := by
  induction rounds generalizing g round ps with
  | zero =>
    obtain ⟨rfl, -⟩ := Prod.mk.inj (Except.ok.inj h)
    nofun
  | succ rounds ih =>
    obtain ⟨checks, deadCode, mid, later, hround, hlater, rfl⟩ := optimizeRounds_succ_ok_iff.1 h
    obtain ⟨hc, hl⟩ := hround.round_eq
    simp only [List.forall_mem_cons] at hnone ⊢
    obtain ⟨hnone₁, hnone₂, hnone₃⟩ := hnone
    rcases hi.eq_or_lt with rfl | hlt
    · -- this is the round: the graph is quiet, and is still there when the later rounds begin
      obtain ⟨hquiet, rfl⟩ := hround.quiet (hnone₁ hc) (hnone₂ hl)
      obtain ⟨ps', hps', hnil⟩ := hquiet.optimizeRounds (round + 1) rounds
      obtain ⟨rfl, -⟩ := Prod.mk.inj (Except.ok.inj (hlater.symm.trans hps'))
      exact ⟨fun _ => hnone₁ hc, fun _ => hnone₂ hl, fun p hp _ => hnil p hp⟩
    · exact ⟨fun hle => by omega, fun hle => by omega, ih hlater hlt hnone₃⟩

/-! ### Rounds that remove something -/

theorem RunsRound.quiet_or_quadCount_lt {checks deadCode : PassReport} (hd : g.quadOrder.Nodup)
    (h : g.RunsRound round checks deadCode left) : (g.Quiet ∧ left = g) ∨ left.quadCount < g.quadCount := by
  have hd' := nodup_removeQuads hd checks.removed
  obtain ⟨hc, hknown⟩ := RunsPass.removed hd (.nullCheck h.first)
  obtain ⟨hl, hknown'⟩ := RunsPass.removed hd' (.deadCode h.second)
  have hcount := quadCount_removeQuads hd (hc.imp Nat.ne_of_lt) hknown
  have hcount' := quadCount_removeQuads hd' (hl.imp Nat.ne_of_lt) hknown'
  rw [← h.left_eq] at hcount'
  by_cases hnone : checks.removed = [] ∧ deadCode.removed = []
  · exact .inl (h.quiet hnone.1 hnone.2)
  · have hsome : 0 < checks.removed.length ∨ 0 < deadCode.removed.length := by
      simpa only [List.length_pos_iff, not_and_or] using hnone
    right
    omega

theorem quiet_of_quadCount_eq_zero (h : g.quadCount = 0) : g.Quiet := by
  have hquads : g.quads = [] := List.length_eq_zero_iff.1 h
  have hd : g.quadOrder.Nodup := by simp [quadOrder, hquads]
  obtain ⟨ps, left, hps⟩ := exists_optimizeRounds_ok hd (by simp [hquads]) 0 1
  obtain ⟨checks, deadCode, mid, later, hround, -, -⟩ := optimizeRounds_succ_ok_iff.1 hps
  rcases hround.quiet_or_quadCount_lt hd with ⟨hquiet, -⟩ | hlt
  · exact hquiet
  · omega

/-- As many rounds as there are quads are enough. -/
theorem quiet_of_quadCount_le (hd : g.quadOrder.Nodup) (hn : g.quadCount ≤ rounds)
    (h : g.optimizeRounds round rounds = .ok (ps, left)) : left.Quiet := by
  induction rounds generalizing g round ps with
  | zero =>
    obtain ⟨-, rfl⟩ := Prod.mk.inj (Except.ok.inj h)
    exact quiet_of_quadCount_eq_zero (Nat.le_zero.1 hn)
  | succ rounds ih =>
    obtain ⟨checks, deadCode, mid, later, hround, hlater, -⟩ := optimizeRounds_succ_ok_iff.1 h
    rcases hround.quiet_or_quadCount_lt hd with ⟨hquiet, rfl⟩ | hlt
    · obtain ⟨ps', hps', -⟩ := hquiet.optimizeRounds (round + 1) rounds
      obtain ⟨-, rfl⟩ := Prod.mk.inj (Except.ok.inj (hlater.symm.trans hps'))
      exact hquiet
    · rw [hround.left_eq] at hlater hlt
      exact ih (nodup_removeQuads (nodup_removeQuads hd _) _) (by omega) hlater

theorem optimize_full_ok_iff {report : OptimizeReport} : g.optimize ⟨rounds, false⟩ = .ok (report, left) ↔
    ∃ ps, g.optimizeRounds 0 rounds = .ok (ps, left) ∧ report = ⟨g.method.name, ps⟩ := by
  simp only [optimize, Bool.false_eq_true, ↓reduceIte, bind, Except.bind, pure, Except.pure]
  cases g.optimizeRounds 0 rounds with
  | error e => simp
  | ok outcome =>
    obtain ⟨ps, left'⟩ := outcome
    simp only [Except.ok.injEq, Prod.mk.injEq]
    constructor
    · rintro ⟨rfl, rfl⟩
      exact ⟨ps, ⟨rfl, rfl⟩, rfl⟩
    · rintro ⟨_, ⟨rfl, rfl⟩, rfl⟩
      exact ⟨rfl, rfl⟩

end Graph

/-! ### The result -/

namespace InPlace

variable {g left : Graph} {rounds : Nat}

theorem on_optimize_full {ps : List PassReport} (h : g.optimizeRounds 0 rounds = .ok (ps, left)) :
    (optimize ⟨rounds, false⟩).on g = (.ok ⟨g.method.name, ps⟩, left) :=
  on_optimize_ok_iff.2 (Graph.optimize_full_ok_iff.2 ⟨ps, h, rfl⟩)

/-- A graph that is refused stays as it is. It is not refused when no round is asked for. -/
theorem on_optimize_full_of_firstMisfit {e : FlowError} (hd : g.quadOrder.Nodup)
    (he : g.FirstMisfit .nullCheck e) (rounds : Nat) :
    ((optimize ⟨rounds, false⟩).on g).2 = g ∧
      ∀ report, ((optimize ⟨rounds, false⟩).on g).1 = .ok report → rounds = 0 ∧ report.passes = [] := by
  cases rounds with
  | zero =>
    rw [on_optimize_full rfl]
    refine ⟨rfl, ?_⟩
    rintro _ ⟨rfl⟩
    exact ⟨rfl, rfl⟩
  | succ rounds =>
    rw [on_optimize_of_firstMisfit hd he (.inr (Nat.le_add_left 1 rounds))]
    exact ⟨rfl, nofun⟩

end InPlace

/-- After a round whose passes remove nothing, no pass of a full optimization removes anything. With as many rounds
as there are quads, or more, it leaves one and the same graph, and no further optimization removes anything from
that. -/
theorem optimize_comes_to_rest (g : Graph) (hd : g.quadOrder.Nodup) {k : Nat} {report : OptimizeReport}
    {left : Graph} (h : (InPlace.optimize ⟨k, false⟩).on g = (.ok report, left)) :
    (∀ i, (∀ p ∈ report.passes, p.round = i → p.removed = []) →
      ∀ p ∈ report.passes, i ≤ p.round → p.removed = []) ∧
    ∃ final,
      (∀ rounds, g.quadCount ≤ rounds → ((InPlace.optimize ⟨rounds, false⟩).on g).2 = final) ∧
      (∀ rounds, ((InPlace.optimize ⟨rounds, false⟩).on final).2 = final ∧
        ∀ again, ((InPlace.optimize ⟨rounds, false⟩).on final).1 = .ok again →
          ∀ p ∈ again.passes, p.removed = []) ∧
      (0 < k → ∀ rounds, (∃ r, ((InPlace.optimize ⟨rounds, false⟩).on g).1 = .ok r) ∧
        ∃ r, ((InPlace.optimize ⟨rounds, false⟩).on final).1 = .ok r) := by
  obtain ⟨ps, hps, rfl⟩ := Graph.optimize_full_ok_iff.1 (InPlace.on_optimize_ok_iff.1 h)
  refine ⟨fun i hnone => Graph.removed_eq_nil_of_round hps (Nat.zero_le i) hnone, ?_⟩
  rcases no_fault_or_firstFault NullCheck.fault g.quads with hf | ⟨e, hfirst⟩
  · obtain ⟨all, final, hall⟩ := Graph.exists_optimizeRounds_ok hd hf 0 g.quadCount
    have hquiet : final.Quiet := Graph.quiet_of_quadCount_le hd le_rfl hall
    refine ⟨final, fun rounds hn => ?_, fun rounds => ?_, fun _ rounds => ⟨?_, ?_⟩⟩
    · obtain ⟨more, rfl⟩ := Nat.exists_eq_add_of_le hn
      obtain ⟨later, hlater, -⟩ := hquiet.optimizeRounds (0 + g.quadCount) more
      rw [InPlace.on_optimize_full (Graph.optimizeRounds_add hall hlater)]
    · obtain ⟨again, hagain, hnil⟩ := hquiet.optimizeRounds 0 rounds
      rw [InPlace.on_optimize_full hagain]
      refine ⟨rfl, ?_⟩
      rintro _ ⟨rfl⟩
      exact hnil
    · obtain ⟨ps', left', hps'⟩ := Graph.exists_optimizeRounds_ok hd hf 0 rounds
      exact ⟨_, congrArg Prod.fst (InPlace.on_optimize_full hps')⟩
    · obtain ⟨again, hagain, -⟩ := hquiet.optimizeRounds 0 rounds
      exact ⟨_, congrArg Prod.fst (InPlace.on_optimize_full hagain)⟩
  · -- the graph is refused as soon as there is a round, so `h` is about none
    replace hfirst : g.FirstMisfit .nullCheck e := Graph.firstMisfit_iff.2 hfirst
    have hstays := InPlace.on_optimize_full_of_firstMisfit hd hfirst
    refine ⟨g, fun rounds _ => (hstays rounds).1, fun rounds => ⟨(hstays rounds).1, fun again hagain => ?_⟩,
      fun hk => ?_⟩
    · rw [((hstays rounds).2 again hagain).2]
      nofun
    · have hzero := ((hstays k).2 _ (congrArg Prod.fst h)).1
      omega

/-- A value that is copied twice and then never read: a round removes only the last copy that is left. -/
def copiedTwice : Graph := ⟨⟨"copied", 1, true⟩,
  [(.entry, ⟨.entry, [], [⟨2⟩], some ⟨2⟩⟩), (.exit, .empty .exit),
   (⟨2⟩, ⟨⟨2⟩, [⟨1, .move "T0" (.reg "R0")⟩, ⟨2, .move "T1" (.reg "T0")⟩, ⟨3, .ret none⟩], [.exit], some .exit⟩)], 3⟩

theorem copiedTwice_optimize : copiedTwice.optimize ⟨3, false⟩ =
    .ok (⟨"copied", [⟨"null-check", 0, []⟩, ⟨"liveness", 0, [2]⟩, ⟨"null-check", 1, []⟩, ⟨"liveness", 1, [1]⟩,
      ⟨"null-check", 2, []⟩, ⟨"liveness", 2, []⟩]⟩, copiedTwice.removeQuads [1, 2]) := by
  decide +kernel

/-- The third round of three removes nothing, and a hundred rounds do no more than three. -/
theorem copiedTwice_comes_to_rest :
    ((InPlace.optimize ⟨100, false⟩).on copiedTwice).2 = copiedTwice.removeQuads [1, 2] ∧
    ∃ r, ((InPlace.optimize ⟨100, false⟩).on copiedTwice).1 = .ok r := by
  have hthree := InPlace.on_optimize_ok_iff.2 copiedTwice_optimize
  obtain ⟨-, final, hsame, -, hok⟩ := optimize_comes_to_rest copiedTwice (by decide) hthree
  refine ⟨(hsame 100 (by decide)).trans ?_, (hok (by decide) 100).1⟩
  rw [← hsame 3 (by decide), hthree]

end Dataflow
