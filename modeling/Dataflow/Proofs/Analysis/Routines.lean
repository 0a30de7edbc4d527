import Dataflow.Analysis.Routines
import Dataflow.Proofs.Analysis.Failures
import Dataflow.Proofs.Flow.Routine

/-!
# Solvers that are used again

Each of the five routines brings all its notes up to date when it prepares for a graph, whatever they were, and keeps
nothing but its mode (`Resets`). The notes are then those that its analysis works with (`Carries`): the table of
definitions and the table of facts are the ones of this graph.
-/

namespace Dataflow

/-- Notes that change in steps, one for each member of a list. -/
theorem Noting.on_forM_modify {σ β : Type} (f : β → σ → σ) (l : List β) (n : σ) :
    Noting.on (l.forM fun b => (modify (f b) : Noting σ Unit)) n = (.ok (), l.foldl (fun n b => f b n) n) := by
  induction l generalizing n with
  | nil => rfl
  | cons b l ih => exact ih (f b n)

/-! ### Liveness -/

namespace Liveness

/-- Only the dead quads change, and values are looked up as they were at the start. -/
theorem foldl_dead (quads : List Quad) (n : Notes) :
    quads.foldl (fun n q => if isDead n.state q then { n with dead := n.dead.insert q.id } else n) n =
      { n with dead := ((quads.filter (isDead n.state)).map (·.id)).foldl Std.ExtTreeSet.insert n.dead } := by
  induction quads generalizing n with
  | nil => rfl
  | cons q quads ih =>
    rw [List.foldl_cons, List.filter_cons, ih]
    cases isDead n.state q <;> rfl

theorem on_finish (g : Graph) (n : Notes) : (routine.finish g).on n = (.ok (), { n with
    dead := ((Analysis.liveness n.removesDead).finish n.state g).foldl Std.ExtTreeSet.insert n.dead }) := by
  have hget : Noting.on (get : Noting Notes Notes) n = (.ok n, n) := rfl
  simp only [routine, Noting.on_bind_of_ok hget, Analysis.liveness]
  by_cases hr : n.removesDead = true
  · rw [if_pos hr, if_pos hr, Noting.on_forM_modify, foldl_dead]
  · rw [if_neg hr, if_neg hr]
    rfl

theorem resets : routine.Resets Notes.removesDead where
  prepare_eq g n n' h := by
    show (Except.ok (), Notes.mk _ n.removesDead ∅) = (Except.ok (), Notes.mk _ n'.removesDead ∅)
    rw [h]
  prepare _ _ := rfl
  setState _ _ := rfl
  pass _ _ := rfl
  finish g n := by rw [on_finish]

/-- Quads are noted as dead only where they are to be removed. -/
theorem carries (removesDead : Bool) (g : Graph) : routine.Carries (.liveness removesDead) g
    (fun n => ⟨n.state, n.dead⟩) fun n => n.removesDead = removesDead ∧ (removesDead = false → n.dead = ∅) where
  setState _ _ h := ⟨h, rfl⟩
  pass _ _ h _ := ⟨_, rfl, h, rfl⟩
  refuse _ _ _ _ h := nomatch h
  finish n h := by
    refine ⟨_, on_finish g n, ⟨h.1, fun hr => ?_⟩, by rw [h.1]⟩
    rw [h.1, hr, h.2 hr]
    rfl
  pending n h := by
    show n.dead.toList = if removesDead then n.dead.toList else []
    cases removesDead with
    | true => rfl
    | false =>
      rw [h.2 rfl]
      rfl
  finish_congr s t h := by
    have hdead : isDead s = isDead t := by
      funext q
      rw [isDead, isDead, h.outAt]
    simp only [Analysis.liveness, hdead]

end Liveness

/-! ### Faintness -/

namespace Faintness

theorem resets : routine.Resets fun _ => () where
  prepare_eq _ _ _ _ := rfl
  prepare _ _ := rfl
  setState _ _ := rfl
  pass _ _ := rfl
  finish _ _ := rfl

theorem carries (g : Graph) : routine.Carries .faintness g (fun s => ⟨s, ∅⟩) fun _ => True where
  setState _ _ _ := ⟨trivial, rfl⟩
  pass _ _ _ _ := ⟨_, rfl, trivial, rfl⟩
  refuse _ _ _ _ h := nomatch h
  finish _ _ := ⟨_, rfl, trivial, rfl⟩
  pending _ _ := rfl
  finish_congr _ _ _ := rfl

end Faintness

/-! ### Reaching definitions -/

namespace ReachingDefs

theorem foldl_defSites (quads : List Quad) (n : Notes) :
    quads.foldl (fun n q => { n with defSites := n.defSites.add q }) n =
      { n with defSites := quads.foldl .add n.defSites } := by
  induction quads generalizing n with
  | nil => rfl
  | cons q quads ih => exact ih _

theorem on_prepare (g : Graph) (n : Notes) :
    (routine.prepare g).on n = (.ok (), ⟨.forGraph .forward ∅ ∅ g, g.defTable⟩) := by
  have hfill := Noting.on_forM_modify (fun q (n : Notes) => { n with defSites := n.defSites.add q }) g.quads
    ⟨.forGraph .forward ∅ ∅ g, ∅⟩
  rw [foldl_defSites] at hfill
  exact hfill

theorem resets : routine.Resets fun _ => () where
  prepare_eq g n n' _ := by rw [on_prepare, on_prepare]
  prepare _ _ := rfl
  setState _ _ := rfl
  pass _ _ := rfl
  finish _ _ := rfl

theorem carries (g : Graph) : routine.Carries .reachingDefs g (fun n => ⟨n.state, ∅⟩)
    fun n => n.defSites = g.defTable where
  setState _ _ h := ⟨h, rfl⟩
  pass q n h _ := by
    refine ⟨_, rfl, h, ?_⟩
    show Findings.mk (n.state.setResult q.id (transfer n.defSites q (n.state.metAt q.id))) ∅ = _
    rw [h]
    rfl
  refuse _ _ _ _ h := nomatch h
  finish _ h := ⟨_, rfl, h, rfl⟩
  pending _ _ := rfl
  finish_congr _ _ _ := rfl

end ReachingDefs

/-! ### Constant propagation -/

namespace ConstantProp

theorem on_pass (q : Quad) (s : FlowState Constants) : (routine.pass q).on s =
    (fault q).elim (.ok (), s.setResult q.id (transfer q (s.metAt q.id))) fun e => (.error e, s) := by
  have hget : Noting.on (get : Noting (FlowState Constants) _) s = (.ok s, s) := rfl
  have hpassing : passing q (s.metAt q.id) = (fault q).elim (.ok (transfer q (s.metAt q.id), none)) .error :=
    passing_follows .blank q (s.metAt q.id)
  simp only [routine, Noting.on_bind_of_ok hget, hpassing]
  cases fault q with
  | none => rfl
  | some e => rfl

theorem resets : routine.Resets fun _ => () where
  prepare_eq _ _ _ _ := rfl
  prepare _ _ := rfl
  setState _ _ := rfl
  pass _ _ := rfl
  finish _ _ := rfl

theorem carries (g : Graph) : routine.Carries .constantProp g (fun s => ⟨s, ∅⟩) fun _ => True where
  setState _ _ _ := ⟨trivial, rfl⟩
  pass q s _ h := by
    replace h : fault q = none := h
    exact ⟨s.setResult q.id (transfer q (s.metAt q.id)), by rw [on_pass, h]; rfl, trivial, rfl⟩
  refuse q s e _ h := by
    replace h : fault q = some e := h
    rw [on_pass, h]
    rfl
  finish _ _ := ⟨_, rfl, trivial, rfl⟩
  pending _ _ := rfl
  finish_congr _ _ _ := rfl

end ConstantProp

/-! ### Null checks -/

namespace NullCheck

/-- A table that was filled fact by fact has those facts at each quad, in order, after what it had before. -/
theorem told_foldl_note (facts : List (QuadId × Register)) (t : FactTable) (id : QuadId) :
    (facts.foldl (fun t fact => t.note fact.1 fact.2) t).told id =
      t.told id ++ (facts.filter (·.1 = id)).map (·.2) := by
  induction facts generalizing t with
  | nil => simp
  | cons fact facts ih =>
    rw [List.foldl_cons, ih, List.filter_cons]
    by_cases hid : fact.1 = id
    · simp [FactTable.note, FactTable.told, hid]
    · simp [FactTable.note, FactTable.told, Std.ExtTreeMap.getElem?_insert, hid]

/-- The table of facts as preparing for `g` fills it. -/
def factTable (g : Graph) : FactTable := g.branchFacts.foldl (fun t fact => t.note fact.1 fact.2) ∅

theorem told_factTable (g : Graph) (id : QuadId) :
    (factTable g).told id = (g.branchFacts.filter (·.1 = id)).map (·.2) := by
  rw [factTable, told_foldl_note]
  simp [FactTable.told]

theorem on_collect (g : Graph) (n : Notes) : (Notes.collect g).on n =
    (.ok (), { n with branchFacts := g.branchFacts.foldl (fun t fact => t.note fact.1 fact.2) n.branchFacts }) := by
  rw [Notes.collect, Noting.on_forM_modify]
  generalize g.branchFacts = facts
  induction facts generalizing n with
  | nil => rfl
  | cons fact facts ih => exact ih _

theorem on_prepare (g : Graph) (n : Notes) : (routine.prepare g).on n =
    (.ok (), ⟨.forGraph .forward g.registers ∅ g, n.mode, if g.method.isStatic then none else some (.param 0), ∅,
      if n.mode.extended then factTable g else ∅⟩) := by
  show Noting.on (if n.mode.extended then Notes.collect g else pure ())
    ⟨.forGraph .forward g.registers ∅ g, n.mode, if g.method.isStatic then none else some (.param 0), ∅, ∅⟩ = _
  split
  · rw [on_collect]
    rfl
  · rfl

/-- The notes have been prepared for `g`. -/
structure Ready (m : NullCheckMode) (g : Graph) (n : Notes) : Prop where
  mode_eq : n.mode = m
  receiver_eq : n.receiver = if g.method.isStatic then none else some (.param 0)
  branchFacts_eq : n.branchFacts = if m.extended then factTable g else ∅

variable {m : NullCheckMode} {g : Graph} {n : Notes}

/-- What is learnt from the notes is what there is to learn in `g`. -/
theorem Ready.known_eq (h : Ready m g n) (q : Quad) (s : Registers) :
    (if n.mode.extended then n.learn q (s.eraseAll q.defs) else s.eraseAll q.defs) =
      known m g (if m.extended then g.branchFacts else []) q s := by
  rw [known, h.mode_eq]
  by_cases hm : m.extended = true
  · rw [if_pos hm, if_pos hm, if_pos hm, Notes.learn, learn, h.receiver_eq, h.branchFacts_eq, if_pos hm,
      told_factTable]
    cases g.method.isStatic with
    | true => rfl
    | false => rfl
  · rw [if_neg hm, if_neg hm]

theorem resets : routine.Resets Notes.mode where
  prepare_eq g n n' h := by rw [on_prepare, on_prepare, h]
  prepare g n := by rw [on_prepare]
  setState _ _ := rfl
  pass q n := by
    obtain ⟨id, op⟩ := q
    cases op with
    | nullCheck guard src => cases src <;> rfl
    | _ => rfl
  finish _ _ := rfl

theorem carries (m : NullCheckMode) (g : Graph) :
    routine.Carries (.nullCheck m) g (fun n => ⟨n.state, n.redundant⟩) (Ready m g) where
  setState _ _ h := ⟨⟨h.mode_eq, h.receiver_eq, h.branchFacts_eq⟩, rfl⟩
  pass q n h hq := by
    have hknown := h.known_eq q (n.state.metAt q.id)
    obtain ⟨id, op⟩ := q
    cases op with
    | nullCheck guard src =>
      cases src with
      | reg r =>
        -- the flag is set or cleared as the verdict on what is known says
        have hnote : ∀ s : Registers, Findings.mk (n.state.setResult id (s.insertAll [r]))
            (if r ∈ s then n.redundant.insert id else n.redundant.erase id) =
            (Findings.mk (n.state.setResult id (s.insertAll [r])) n.redundant).note id (some (r ∈ s)) := by
          intro s
          by_cases hr : r ∈ s
          · simp only [Findings.note, hr, if_true, decide_true]
          · simp only [Findings.note, hr, if_false, decide_false]
        refine ⟨_, rfl, ⟨h.mode_eq, h.receiver_eq, h.branchFacts_eq⟩, (hnote _).trans ?_⟩
        rw [hknown]
        rfl
      | int v => cases hq
      | null => cases hq
      | symbol name => cases hq
    | _ =>
      refine ⟨_, rfl, ⟨h.mode_eq, h.receiver_eq, h.branchFacts_eq⟩, ?_⟩
      exact congrArg (fun s => Findings.mk (n.state.setResult id s) n.redundant) hknown
  refuse q n e h hq := by
    obtain ⟨id, op⟩ := q
    cases op with
    | nullCheck guard src =>
      cases src with
      | reg r => cases hq
      | int v => cases hq; rfl
      | null => cases hq; rfl
      | symbol name => cases hq; rfl
    | _ => cases hq
  finish _ h := ⟨_, rfl, h, rfl⟩
  pending n h := by
    show (if n.mode.remove then n.redundant.toList else []) = _
    rw [h.mode_eq]
    rfl
  finish_congr _ _ _ := rfl

end NullCheck

/-! ### The result -/

/-- The analyses in all their modes, each with its routine and the notes of a new solver. -/
inductive Routine.Bundled : {σ L : Type} → Routine σ L → σ → Analysis L → Prop
  | liveness (removesDead : Bool) : Bundled Liveness.routine (.new removesDead) (.liveness removesDead)
  | faintness : Bundled Faintness.routine (.blank .backward ∅) .faintness
  | reachingDefs : Bundled ReachingDefs.routine .new .reachingDefs
  | constantProp : Bundled ConstantProp.routine (.blank .forward ∅) .constantProp
  | nullCheck (m : NullCheckMode) : Bundled NullCheck.routine (.new m) (.nullCheck m)

namespace Routine.Bundled

variable {σ L : Type} [DecidableEq L] {R : Routine σ L} {new : σ} {a : Analysis L}

theorem runAll_eq (h : R.Bundled new a) (gs : List Graph) : R.runAll (some new) gs = gs.map (R.run (some new)) := by
  cases h with
  | liveness removesDead => exact Liveness.resets.runAll_eq _ gs
  | faintness => exact Faintness.resets.runAll_eq _ gs
  | reachingDefs => exact ReachingDefs.resets.runAll_eq _ gs
  | constantProp => exact ConstantProp.resets.runAll_eq _ gs
  | nullCheck m => exact NullCheck.resets.runAll_eq _ gs

theorem standard (h : R.Bundled new a) : ∃ scope, a.Standard scope := by
  cases h with
  | liveness removesDead => exact ⟨_, .liveness removesDead⟩
  | faintness => exact ⟨_, .faintness⟩
  | reachingDefs => exact ⟨_, .reachingDefs⟩
  | constantProp => exact ⟨_, .constantProp⟩
  | nullCheck m => exact ⟨_, .nullCheck m⟩

theorem run_agrees (h : R.Bundled new a) {g : Graph} (hd : g.quadOrder.Nodup) :
    R.Agrees (R.run (some new) g) ((Solver.ofAnalysis a).run g) := by
  have hends : ((a.problem g).solve g).1 ≠ .unsettled := by
    obtain ⟨scope, hs⟩ := h.standard
    rcases hs.run_cases (w := .start a) hd with ⟨-, n, f, hsolve⟩ | ⟨err, hfirst⟩
    · rw [show (a.problem g).solve g = _ from hsolve]
      nofun
    · obtain ⟨f, hsolve⟩ := hfirst.solve
      rw [show (a.problem g).solve g = _ from hsolve]
      nofun
  cases h with
  | liveness removesDead =>
    exact (Liveness.carries removesDead g).run_agrees rfl ⟨rfl, fun _ => rfl⟩ rfl hd hends
  | faintness => exact (Faintness.carries g).run_agrees rfl trivial rfl hd hends
  | reachingDefs => exact (ReachingDefs.carries g).run_agrees (ReachingDefs.on_prepare g _) rfl rfl hd hends
  | constantProp => exact (ConstantProp.carries g).run_agrees rfl trivial rfl hd hends
  | nullCheck m =>
    exact (NullCheck.carries m g).run_agrees (NullCheck.on_prepare g _) ⟨rfl, rfl, rfl⟩ rfl hd hends

end Routine.Bundled

/-- A solver carries nothing over from one graph to the next. Whatever graphs it is run on, one after another, and
whether or not a run fails, each run answers, notes and leaves what a new solver does on that graph alone. What it
notes are the values, reports and removals that the analysis stands for. -/
theorem runs_carry_nothing_over {σ L : Type} [DecidableEq L] {R : Routine σ L} {new : σ} {a : Analysis L}
    (h : R.Bundled new a) :
    (∀ gs, R.runAll (some new) gs = gs.map (R.run (some new))) ∧
    ∀ g, g.quadOrder.Nodup → R.Agrees (R.run (some new) g) ((Solver.ofAnalysis a).run g) :=
  ⟨h.runAll_eq, fun _ => h.run_agrees⟩

/-- A run that fails in the middle of its first sweep, and after it one that succeeds. -/
theorem strayChecks_carry_nothing_over :
    NullCheck.routine.runAll (some (.new .extendedRemoving)) [strayChecks, guardedTwice] =
      [NullCheck.routine.run (some (.new .extendedRemoving)) strayChecks,
        NullCheck.routine.run (some (.new .extendedRemoving)) guardedTwice] ∧
    (NullCheck.routine.run (some (.new .extendedRemoving)) strayChecks).1 =
      .error (.nullCheckOperand 3 .null) ∧
    (NullCheck.routine.run (some (.new .extendedRemoving)) guardedTwice).2.2 = guardedTwice.removeQuads [2] := by
  obtain ⟨hruns, hagrees⟩ := runs_carry_nothing_over (.nullCheck .extendedRemoving)
  refine ⟨hruns [strayChecks, guardedTwice], ?_, ?_⟩
  · rw [(hagrees strayChecks (by decide)).1]
    decide +kernel
  · rw [(hagrees guardedTwice (by decide)).2.1]
    decide +kernel

end Dataflow
