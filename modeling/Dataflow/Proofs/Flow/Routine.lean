import Dataflow.Flow.Routine
import Dataflow.Proofs.Flow.Refusals

/-!
# Runs of routines

What a routine does on a graph can depend on its notes only through their settings, which say what mode it is in:
preparing for a graph brings all else up to date (`Routine.Resets.prepare_eq`). No step changes the settings, not even
one that fails (`Noting.Keeps`), so whatever graphs came before, a run does what it does with new notes (`runAll_eq`).

`R.Carries a g found ready`: on `g` the routine does with its notes what the analysis says of findings. The notes then
mirror the findings at every visit (`Mirrors`), up to the results that the routine sets to `top` beforehand, and the
run ends as `Problem.solve` does.
-/

namespace Dataflow

namespace Noting

variable {σ τ α β : Type}

theorem on_bind (op : Noting σ α) (k : α → Noting σ β) (n : σ) : Noting.on (op >>= k) n =
    match op.on n with
    | (.ok a, n) => (k a).on n
    | (.error e, n) => (.error e, n) := by
  show (ExceptT.run (op >>= k)).run n = _
  rw [ExceptT.run_bind, StateT.run_bind, on]
  cases (ExceptT.run op).run n with
  | mk outcome n => cases outcome <;> rfl

theorem on_bind_of_ok {op : Noting σ α} {n n' : σ} {a : α} (h : op.on n = (.ok a, n')) (k : α → Noting σ β) :
    Noting.on (op >>= k) n = (k a).on n' := by
  rw [on_bind, h]

theorem on_bind_of_error {op : Noting σ α} {n n' : σ} {e : FlowError} (h : op.on n = (.error e, n'))
    (k : α → Noting σ β) : Noting.on (op >>= k) n = (.error e, n') := by
  rw [on_bind, h]

/-- Whether or not it fails, an operation leaves the settings alone. -/
def Keeps (settings : σ → τ) (op : Noting σ α) : Prop := ∀ n, settings (op.on n).2 = settings n

namespace Keeps

variable {settings : σ → τ}

theorem bind {op : Noting σ α} {k : α → Noting σ β} (h : Keeps settings op) (hk : ∀ a, Keeps settings (k a)) :
    Keeps settings (op >>= k) := by
  intro n
  rw [on_bind]
  rcases hop : op.on n with ⟨outcome, n'⟩
  have hn : settings n' = settings n := by
    have hn := h n
    rwa [hop] at hn
  cases outcome with
  | ok a => exact (hk a n').trans hn
  | error e => exact hn

theorem of_pure (a : α) : Keeps settings (pure a : Noting σ α) := fun _ => rfl

theorem of_throw (e : FlowError) : Keeps settings (throw e : Noting σ α) := fun _ => rfl

theorem of_modify {f : σ → σ} (h : ∀ n, settings (f n) = settings n) :
    Keeps settings (modify f : Noting σ Unit) := h

theorem forM {f : β → Noting σ Unit} (h : ∀ b, Keeps settings (f b)) (l : List β) :
    Keeps settings (l.forM f) := by
  induction l with
  | nil => exact of_pure ()
  | cons b l ih => exact (h b).bind fun _ => ih

end Keeps

end Noting

namespace Routine

variable {σ τ L : Type} {R : Routine σ L} {settings : σ → τ}

/-- With the same settings, all notes come out the same when the routine prepares for a graph. No step of the routine
changes the settings. -/
structure Resets (R : Routine σ L) (settings : σ → τ) : Prop where
  prepare_eq : ∀ g n n', settings n = settings n' → (R.prepare g).on n = (R.prepare g).on n'
  prepare : ∀ g, (R.prepare g).Keeps settings
  setState : ∀ s n, settings (R.setState s n) = settings n
  pass : ∀ q, (R.pass q).Keeps settings
  finish : ∀ g, (R.finish g).Keeps settings

namespace Resets

variable (h : R.Resets settings)
include h

theorem update (f : FlowState L → FlowState L) : (R.update f).Keeps settings :=
  .of_modify fun n => h.setState _ n

variable [DecidableEq L]

theorem visit (e : QuadEdges) (q : Quad) : (R.visit e q).Keeps settings := by
  have hvalues : R.values.Keeps settings := fun _ => rfl
  refine (h.update _).bind fun _ => hvalues.bind fun _ => (h.pass q).bind fun _ => hvalues.bind fun _ => ?_
  exact .of_pure _

theorem sweep (e : QuadEdges) (quads : List Quad) : (R.sweep e quads).Keeps settings := by
  induction quads with
  | nil => exact .of_pure false
  | cons q quads ih => exact (h.visit e q).bind fun _ => ih.bind fun _ => .of_pure _

theorem iterate (e : QuadEdges) (quads : List Quad) (limit : Nat) :
    (R.iterate e quads limit).Keeps settings := by
  induction limit with
  | zero => exact .of_throw _
  | succ limit ih =>
    refine (h.sweep e quads).bind fun changed => ?_
    cases changed with
    | true => exact ih.bind fun _ => .of_pure _
    | false => exact .of_pure 1

theorem solve (g : Graph) : (R.solve g).Keeps settings :=
  (h.prepare g).bind fun _ => (Noting.Keeps.forM (fun _ => h.update _) _).bind fun _ =>
    (h.iterate _ _ _).bind fun _ => (h.update _).bind fun _ => (h.finish g).bind fun _ => .of_pure _

/-! ### Runs -/

variable {n n' : σ}

/-- Nothing but the settings gets past the preparation. -/
theorem solve_eq (hn : settings n = settings n') (g : Graph) : (R.solve g).on n = (R.solve g).on n' := by
  simp only [Routine.solve]
  rw [Noting.on_bind, Noting.on_bind, h.prepare_eq g n n' hn]

theorem run_eq (hn : settings n = settings n') (g : Graph) : R.run (some n) g = R.run (some n') g := by
  simp only [Routine.run, h.solve_eq hn g]

/-- The notes that a run leaves, if only those of the quad where it failed, have the settings from before. -/
theorem exists_run_eq (n : σ) (g : Graph) : ∃ n', (R.run (some n) g).2.1 = some n' ∧ settings n' = settings n := by
  have hkeeps := h.solve g n
  rcases hsolve : (R.solve g).on n with ⟨outcome, n'⟩
  rw [hsolve] at hkeeps
  simp only [Routine.run, hsolve]
  cases outcome with
  | ok sweeps => exact ⟨n', rfl, hkeeps⟩
  | error e => exact ⟨n', rfl, hkeeps⟩

theorem runAll_eq (n : σ) (gs : List Graph) : R.runAll (some n) gs = gs.map (R.run (some n)) := by
  induction gs generalizing n with
  | nil => rfl
  | cons g gs ih =>
    obtain ⟨n', hrun, hn⟩ := h.exists_run_eq n g
    simp only [Routine.runAll, hrun, ih, List.map_cons, List.cons.injEq, true_and]
    exact List.map_congr_left fun g' _ => h.run_eq hn g'

end Resets

end Routine

/-! ### Values that look alike -/

namespace FlowState

variable {L : Type} {s t : FlowState L} {id : QuadId} {v : L}

/-- The same values everywhere, whether or not they were ever set. -/
structure Alike (s t : FlowState L) : Prop where
  direction : s.direction = t.direction
  top : s.top = t.top
  source : s.source = t.source
  sink : s.sink = t.sink
  ids : s.ids = t.ids
  metAt : ∀ id, s.metAt id = t.metAt id
  resultAt : ∀ id, s.resultAt id = t.resultAt id

theorem metAt_setMet (s : FlowState L) (id x : QuadId) (v : L) :
    (s.setMet id v).metAt x = if id = x then v else s.metAt x := by
  simp [metAt, setMet]

theorem resultAt_setResult (s : FlowState L) (id x : QuadId) (v : L) :
    (s.setResult id v).resultAt x = if id = x then v else s.resultAt x := by
  simp [resultAt, setResult]

namespace Alike

theorem refl (s : FlowState L) : s.Alike s := ⟨rfl, rfl, rfl, rfl, rfl, fun _ => rfl, fun _ => rfl⟩

variable (h : s.Alike t)
include h

theorem setMet : (s.setMet id v).Alike (t.setMet id v) :=
  { h with
    metAt := fun x => by rw [metAt_setMet, metAt_setMet, h.metAt]
    resultAt := h.resultAt }

theorem setResult : (s.setResult id v).Alike (t.setResult id v) :=
  { h with
    metAt := h.metAt
    resultAt := fun x => by rw [resultAt_setResult, resultAt_setResult, h.resultAt] }

/-- Setting what is there already makes no difference. -/
theorem setResult_left (hv : v = t.resultAt id) : (s.setResult id v).Alike t :=
  { h with
    metAt := h.metAt
    resultAt := fun x => by
      rw [resultAt_setResult]
      split
      · next hx => rw [hv, hx]
      · exact h.resultAt x }

theorem handedOn : s.handedOn = t.handedOn := by
  funext neighbour
  cases neighbour with
  | none => exact h.source
  | some id => exact h.resultAt id

theorem inAt (id : QuadId) : s.inAt id = t.inAt id := by
  rw [FlowState.inAt, FlowState.inAt, h.direction, h.metAt, h.resultAt]

theorem outAt (id : QuadId) : s.outAt id = t.outAt id := by
  rw [FlowState.outAt, FlowState.outAt, h.direction, h.metAt, h.resultAt]

theorem entry : s.entry = t.entry := by
  rw [FlowState.entry, FlowState.entry, h.direction, h.source, h.sink]

theorem exit : s.exit = t.exit := by
  rw [FlowState.exit, FlowState.exit, h.direction, h.source, h.sink]

theorem report (text : L → String) (analysis method : String) :
    s.report text analysis method = t.report text analysis method := by
  simp only [FlowState.report, h.entry, h.exit, h.ids, h.inAt, h.outAt]

end Alike

end FlowState

/-! ### Notes that mirror findings -/

namespace Routine

variable {σ L : Type} {R : Routine σ L} {a : Analysis L} {g : Graph} {found : σ → Findings L} {ready : σ → Prop}

/-- On `g` the routine does with its notes what the analysis says of findings. `found` reads the findings off the
notes, and `ready` says that all else that is noted fits `g`. -/
structure Carries (R : Routine σ L) (a : Analysis L) (g : Graph) (found : σ → Findings L) (ready : σ → Prop) :
    Prop where
  name_eq : R.name = a.name := by rfl
  text_eq : R.text = a.text := by rfl
  meet_eq : R.meet = (a.problem g).meet := by rfl
  height_eq : R.height g = (a.problem g).height := by rfl
  state_eq : ∀ n, R.state n = (found n).state := by intro n; rfl
  setState : ∀ s n, ready n → ready (R.setState s n) ∧ found (R.setState s n) = { found n with state := s }
  pass : ∀ q n, ready n → (a.problem g).fault q = none →
    ∃ n', (R.pass q).on n = (.ok (), n') ∧ ready n' ∧ found n' = (a.problem g).pass (found n) q
  refuse : ∀ q n e, ready n → (a.problem g).fault q = some e → (R.pass q).on n = (.error e, n)
  finish : ∀ n, ready n → ∃ n', (R.finish g).on n = (.ok (), n') ∧ ready n' ∧
    found n' = { found n with
      flagged := (a.finish (found n).state g).foldl Std.ExtTreeSet.insert (found n).flagged }
  pending : ∀ n, ready n → R.pending n = if a.removes then (found n).flagged.toList else []
  finish_congr : ∀ s t, FlowState.Alike s t → a.finish s g = a.finish t g

/-- The findings that are noted are `f`, as far as values go. -/
structure Mirrors (p : Problem L) (found : σ → Findings L) (ready : σ → Prop) (n : σ) (f : Findings L) : Prop where
  ready : ready n
  direction : f.state.direction = p.direction
  state : (found n).state.Alike f.state
  flagged : (found n).flagged = f.flagged

namespace Mirrors

variable {p : Problem L} {n n' : σ} {f : Findings L} {q : Quad}

theorem pass (m : Mirrors p found ready n f) (hready : ready n') (hfound : found n' = p.pass (found n) q) :
    Mirrors p found ready n' (p.pass f q) := by
  have hmet : (found n).state.metAt q.id = f.state.metAt q.id := m.state.metAt q.id
  have hstate : ∀ f : Findings L,
      (p.pass f q).state = f.state.setResult q.id (p.transfer q (f.state.metAt q.id)) := by
    intro f
    rw [Problem.pass, Findings.note_state]
  refine ⟨hready, ?_, ?_, ?_⟩
  · rw [hstate]
    exact m.direction
  · rw [hfound, hstate, hstate, hmet]
    exact m.state.setResult
  · rw [hfound, Problem.pass, Problem.pass, hmet]
    rcases p.verdict q (f.state.metAt q.id) with _ | _ | _
    · exact m.flagged
    · exact congrArg (Std.ExtTreeSet.erase · q.id) m.flagged
    · exact congrArg (Std.ExtTreeSet.insert · q.id) m.flagged

end Mirrors

namespace Carries

variable (C : R.Carries a g found ready) {n : σ} {f : Findings L} {e : QuadEdges} {q : Quad} {quads : List Quad}
include C

/-- A change to the values that the findings undergo as well. -/
theorem update (m : Mirrors (a.problem g) found ready n f) {F : FlowState L → FlowState L} {s : FlowState L}
    (hs : (F (found n).state).Alike s) (hd : s.direction = (a.problem g).direction) :
    ∃ n', (R.update F).on n = (.ok (), n') ∧ Mirrors (a.problem g) found ready n' { f with state := s } := by
  obtain ⟨hready, hfound⟩ := C.setState (F (R.state n)) n m.ready
  refine ⟨_, rfl, hready, hd, ?_, ?_⟩
  · rw [hfound, C.state_eq]
    exact hs
  · rw [hfound]
    exact m.flagged

theorem clear (quads : List Quad) (m : Mirrors (a.problem g) found ready n f)
    (ht : ∀ id, f.state.resultAt id = f.state.top) :
    ∃ n', (R.clear quads).on n = (.ok (), n') ∧ Mirrors (a.problem g) found ready n' f := by
  induction quads generalizing n with
  | nil => exact ⟨n, rfl, m⟩
  | cons q quads ih =>
    obtain ⟨n', hn, m'⟩ := C.update m (F := fun s => s.setResult q.id s.top)
      (m.state.setResult_left (m.state.top.trans (ht q.id).symm)) m.direction
    obtain ⟨n'', hn', m''⟩ := ih m'
    exact ⟨n'', (Noting.on_bind_of_ok hn _).trans hn', m''⟩

theorem meetAt (m : Mirrors (a.problem g) found ready n f) :
    ∃ n', (R.meetAt e q).on n = (.ok (), n') ∧
      Mirrors (a.problem g) found ready n' ((a.problem g).meetAt e f q) := by
  refine C.update m ?_ m.direction
  rw [Problem.meetNeighbours, C.meet_eq, m.state.top, m.state.handedOn, m.state.direction, m.direction]
  exact m.state.setMet

theorem close (m : Mirrors (a.problem g) found ready n f) :
    ∃ n', (R.close e).on n = (.ok (), n') ∧ Mirrors (a.problem g) found ready n' ((a.problem g).close e f) := by
  have hresult : (found n).state.resultAt = f.state.resultAt := funext m.state.resultAt
  have hsink : meetAll R.meet (found n).state.source
      ((e.lastQuads (found n).state.direction).map (found n).state.resultAt) =
      meetAll (a.problem g).meet f.state.source ((e.lastQuads (a.problem g).direction).map f.state.resultAt) := by
    rw [C.meet_eq, m.state.source, hresult, m.state.direction, m.direction]
  refine C.update m ?_ m.direction
  exact { m.state with
    sink := hsink
    metAt := m.state.metAt
    resultAt := m.state.resultAt }

section

variable [DecidableEq L]

/-- A quad that is not refused. -/
theorem visit (m : Mirrors (a.problem g) found ready n f) (hq : (a.problem g).fault q = none) :
    ∃ n', (R.visit e q).on n =
        (.ok (f.state.resultAt q.id ≠ ((a.problem g).visit e f q).state.resultAt q.id), n') ∧
      Mirrors (a.problem g) found ready n' ((a.problem g).visit e f q) := by
  obtain ⟨n₁, hmeet, m₁⟩ := C.meetAt (e := e) (q := q) m
  obtain ⟨n₂, hpass, hready, hfound⟩ := C.pass q n₁ m₁.ready hq
  have m₂ : Mirrors (a.problem g) found ready n₂ ((a.problem g).visit e f q) := by
    rw [Problem.visit]
    exact m₁.pass hready hfound
  have hbefore : (R.state n₁).resultAt q.id = f.state.resultAt q.id := by
    rw [C.state_eq]
    exact m₁.state.resultAt q.id
  have hafter : (R.state n₂).resultAt q.id = ((a.problem g).visit e f q).state.resultAt q.id := by
    rw [C.state_eq]
    exact m₂.state.resultAt q.id
  refine ⟨n₂, ?_, m₂⟩
  have hvalues : ∀ n, R.values.on n = (.ok (R.state n), n) := fun _ => rfl
  rw [Routine.visit, Noting.on_bind_of_ok hmeet, Noting.on_bind_of_ok (hvalues n₁), Noting.on_bind_of_ok hpass,
    Noting.on_bind_of_ok (hvalues n₂), hbefore, hafter]
  rfl

/-- A quad that is refused: what is met before it has been noted. -/
theorem visit_refused {err : FlowError} (m : Mirrors (a.problem g) found ready n f)
    (hq : (a.problem g).fault q = some err) :
    ∃ n', (R.visit e q).on n = (.error err, n') ∧
      Mirrors (a.problem g) found ready n' ((a.problem g).meetAt e f q) := by
  obtain ⟨n₁, hmeet, m₁⟩ := C.meetAt (e := e) (q := q) m
  have hvalues : R.values.on n₁ = (.ok (R.state n₁), n₁) := rfl
  refine ⟨n₁, ?_, m₁⟩
  rw [Routine.visit, Noting.on_bind_of_ok hmeet, Noting.on_bind_of_ok hvalues,
    Noting.on_bind_of_error (C.refuse q n₁ err m₁.ready hq)]

/-- Each quad is visited once, so a result differs after the sweep if its own visit has changed it. -/
theorem sweep (m : Mirrors (a.problem g) found ready n f) (hd : (quads.map (·.id)).Nodup)
    (hf : ∀ q ∈ quads, (a.problem g).fault q = none) :
    ∃ n', (R.sweep e quads).on n =
        (.ok (!Problem.agree quads f ((a.problem g).sweep e quads f)), n') ∧
      Mirrors (a.problem g) found ready n' ((a.problem g).sweep e quads f) := by
  induction quads generalizing n f with
  | nil => exact ⟨n, rfl, m⟩
  | cons q quads ih =>
    rw [List.map_cons, List.nodup_cons] at hd
    obtain ⟨n₁, hvisit, m₁⟩ := C.visit (e := e) m (hf q List.mem_cons_self)
    obtain ⟨n₂, hsweep, m₂⟩ := ih m₁ hd.2 fun x hx => hf x (List.mem_cons_of_mem q hx)
    refine ⟨n₂, ?_, m₂⟩
    rw [Routine.sweep, Noting.on_bind_of_ok hvisit, Noting.on_bind_of_ok hsweep, Problem.sweep_cons]
    have hself := Problem.sweep_resultAt_of_notMem (p := a.problem g) (e := e) hd.1 ((a.problem g).visit e f q)
    have hrest : Problem.agree quads ((a.problem g).visit e f q)
          ((a.problem g).sweep e quads ((a.problem g).visit e f q)) =
        Problem.agree quads f ((a.problem g).sweep e quads ((a.problem g).visit e f q)) := by
      rw [Problem.agree, Problem.agree, Bool.eq_iff_iff, List.all_eq_true, List.all_eq_true]
      refine forall₂_congr fun x hx => ?_
      have hne : q.id ≠ x.id := fun he => hd.1 (he ▸ List.mem_map_of_mem hx)
      rw [Problem.visit_resultAt, if_neg hne]
    show (Except.ok (_ || _), n₂) = _
    rw [hrest, Problem.agree, Problem.agree, List.all_cons, hself, Bool.not_and, decide_not]

theorem sweep_refused {before : List Quad} {err : FlowError} (m : Mirrors (a.problem g) found ready n f)
    (hb : ∀ x ∈ before, (a.problem g).fault x = none) (hq : (a.problem g).fault q = some err)
    (after : List Quad) :
    ∃ n', (R.sweep e (before ++ q :: after)).on n = (.error err, n') ∧
      Mirrors (a.problem g) found ready n' ((a.problem g).meetAt e ((a.problem g).sweep e before f) q) := by
  induction before generalizing n f with
  | nil =>
    obtain ⟨n₁, hvisit, m₁⟩ := C.visit_refused (e := e) m hq
    exact ⟨n₁, Noting.on_bind_of_error hvisit _, m₁⟩
  | cons x before ih =>
    obtain ⟨n₁, hvisit, m₁⟩ := C.visit (e := e) m (hb x List.mem_cons_self)
    obtain ⟨n₂, hsweep, m₂⟩ := ih m₁ fun y hy => hb y (List.mem_cons_of_mem x hy)
    refine ⟨n₂, ?_, m₂⟩
    rw [List.cons_append, Routine.sweep, Noting.on_bind_of_ok hvisit, Noting.on_bind_of_error hsweep]

theorem iterate (m : Mirrors (a.problem g) found ready n f) (hd : (quads.map (·.id)).Nodup)
    (hf : ∀ q ∈ quads, (a.problem g).fault q = none) {limit k : Nat} {f' : Findings L}
    (h : (a.problem g).iterate e quads limit f = some (k, f')) :
    ∃ n', (R.iterate e quads limit).on n = (.ok k, n') ∧ Mirrors (a.problem g) found ready n' f' := by
  induction limit generalizing n f k with
  | zero => cases h
  | succ limit ih =>
    obtain ⟨n₁, hsweep, m₁⟩ := C.sweep (e := e) m hd hf
    rw [Problem.iterate] at h
    split at h
    · next hagree =>
      obtain ⟨rfl, rfl⟩ := Prod.mk.inj (Option.some.inj h)
      rw [hagree] at hsweep
      exact ⟨n₁, Noting.on_bind_of_ok hsweep _, m₁⟩
    · next hagree =>
      obtain ⟨⟨k', f''⟩, hlater, heq⟩ := Option.map_eq_some_iff.1 h
      obtain ⟨rfl, rfl⟩ := Prod.mk.inj heq
      obtain ⟨n₂, hiterate, m₂⟩ := ih m₁ hlater
      rw [Bool.not_eq_true] at hagree
      rw [hagree] at hsweep
      refine ⟨n₂, ?_, m₂⟩
      rw [Routine.iterate, Noting.on_bind_of_ok hsweep]
      exact Noting.on_bind_of_ok hiterate _

end

/-! ### Whole runs -/

variable {n₀ : σ} (hprepare : (R.prepare g).on n = (.ok (), n₀)) (hready : ready n₀)
  (hfound : found n₀ = (a.problem g).initial g)
include hprepare hready hfound

/-- Prepared and cleared, the notes mirror the findings that the sweeps begin with. -/
theorem prepared : ∃ n₁, (∀ k : Unit → Noting σ Nat,
      Noting.on (R.prepare g >>= fun _ => R.clear g.quads >>= k) n = (k ()).on n₁) ∧
    Mirrors (a.problem g) found ready n₁ ((a.problem g).initial g) := by
  have m₀ : Mirrors (a.problem g) found ready n₀ ((a.problem g).initial g) := by
    refine ⟨hready, rfl, ?_, ?_⟩
    · rw [hfound]
      exact .refl _
    · rw [hfound]
  obtain ⟨n₁, hclear, m₁⟩ := C.clear g.quads m₀ (Problem.initial_resultAt g)
  refine ⟨n₁, fun k => ?_, m₁⟩
  rw [Noting.on_bind_of_ok hprepare, Noting.on_bind_of_ok hclear]

variable [DecidableEq L]

theorem solve_settled (hd : g.quadOrder.Nodup) {sweeps : Nat}
    (h : (a.problem g).solve g = (.settled sweeps, f)) :
    ∃ n', (R.solve g).on n = (.ok sweeps, n') ∧ Mirrors (a.problem g) found ready n' { f with
      flagged := (a.finish f.state g).foldl Std.ExtTreeSet.insert f.flagged } := by
  rcases no_fault_or_firstFault (a.problem g).fault g.quads with hf | ⟨err, hfirst⟩
  · simp only [Problem.solve, findSome?_of_no_fault hf] at h
    split at h
    · next k f' hiter =>
      obtain ⟨hk, rfl⟩ := Prod.mk.inj h
      obtain rfl : k = sweeps := Problem.Outcome.settled.inj hk
      obtain ⟨n₁, hstart, m₁⟩ := C.prepared hprepare hready hfound
      obtain ⟨n₂, hiterate, m₂⟩ := C.iterate m₁ hd hf hiter
      obtain ⟨n₃, hclose, m₃⟩ := C.close (e := g.quadEdges) m₂
      obtain ⟨n₄, hfinish, hready₄, hfound₄⟩ := C.finish n₃ m₃.ready
      rw [C.finish_congr _ _ m₃.state, m₃.flagged] at hfound₄
      rw [Problem.sweepLimit, ← C.height_eq] at hiterate
      refine ⟨n₄, ?_, hready₄, m₃.direction, ?_, ?_⟩
      · rw [Routine.solve, hstart, Noting.on_bind_of_ok hiterate, Noting.on_bind_of_ok hclose,
          Noting.on_bind_of_ok hfinish]
        rfl
      · rw [hfound₄]
        exact m₃.state
      · rw [hfound₄]
    · cases h
  · obtain ⟨f', hrefused⟩ := hfirst.solve
    cases hrefused.symm.trans h

theorem solve_refused {err : FlowError} (h : (a.problem g).solve g = (.refused err, f)) :
    ∃ n', (R.solve g).on n = (.error err, n') ∧ Mirrors (a.problem g) found ready n' f := by
  rcases no_fault_or_firstFault (a.problem g).fault g.quads with hf | ⟨err', before, q, after, hsplit, hb, hq⟩
  · simp only [Problem.solve, findSome?_of_no_fault hf] at h
    split at h
    · cases h
    · cases h
  · rw [Problem.solve_of_first_fault hsplit hb hq] at h
    obtain ⟨he, rfl⟩ := Prod.mk.inj h
    obtain rfl : err' = err := Problem.Outcome.refused.inj he
    obtain ⟨n₁, hstart, m₁⟩ := C.prepared hprepare hready hfound
    obtain ⟨n₂, hsweep, m₂⟩ := C.sweep_refused (e := g.quadEdges) m₁ hb hq after
    rw [← hsplit] at hsweep
    have hiterate : (R.iterate g.quadEdges g.quads (g.quads.length * R.height g + 2)).on n₁ = (.error err', n₂) :=
      Noting.on_bind_of_error hsweep _
    refine ⟨n₂, ?_, m₂⟩
    rw [Routine.solve, hstart, Noting.on_bind_of_error hiterate]

end Carries

/-- A run of a routine and one of a solver have come to the same: what they answer, the graph that is left, the
values, the quads to be removed and the reports. -/
def Agrees (R : Routine σ L) (x : Except FlowError RunStats × Option σ × Graph)
    (y : Except FlowError RunStats × Solver L × Graph) : Prop :=
  x.1 = y.1 ∧ x.2.2 = y.2.2 ∧ ∃ n w, x.2.1 = some n ∧ y.2.1 = ⟨some w⟩ ∧ (R.state n).Alike w.state ∧
    R.pending n = w.pending ∧ ∀ g, R.report n g = w.report g

theorem Carries.run_agrees [DecidableEq L] (C : R.Carries a g found ready) {n n₀ : σ}
    (hprepare : (R.prepare g).on n = (.ok (), n₀)) (hready : ready n₀)
    (hfound : found n₀ = (a.problem g).initial g) (hd : g.quadOrder.Nodup)
    (hends : ((a.problem g).solve g).1 ≠ .unsettled) :
    R.Agrees (R.run (some n) g) ((Solver.ofAnalysis a).run g) := by
  have hmirror : ∀ n' f, Mirrors (a.problem g) found ready n' f → (R.state n').Alike f.state ∧
      R.pending n' = (Progress.mk a g f).pending ∧ ∀ g', R.report n' g' = (Progress.mk a g f).report g' := by
    intro n' f m
    have hstate : (R.state n').Alike f.state := by
      rw [C.state_eq]
      exact m.state
    refine ⟨hstate, ?_, fun g' => ?_⟩
    · rw [C.pending n' m.ready, m.flagged]
      rfl
    · rw [Routine.report, C.name_eq, C.text_eq]
      exact hstate.report _ _ _
  rcases hs : (a.problem g).solve g with ⟨outcome, f⟩
  cases outcome with
  | settled sweeps =>
    obtain ⟨n', hsolve, m⟩ := C.solve_settled hprepare hready hfound hd hs
    obtain ⟨hstate, hpending, hreport⟩ := hmirror n' _ m
    simp only [Routine.run, hsolve, Solver.run, Solver.ofAnalysis, Progress.solve, Progress.start, hs, hpending,
      C.name_eq]
    exact ⟨rfl, rfl, n', _, rfl, rfl, hstate, hpending, hreport⟩
  | refused err =>
    obtain ⟨n', hsolve, m⟩ := C.solve_refused hprepare hready hfound hs
    obtain ⟨hstate, hpending, hreport⟩ := hmirror n' _ m
    simp only [Routine.run, hsolve, Solver.run, Solver.ofAnalysis, Progress.solve, Progress.start, hs]
    exact ⟨rfl, rfl, n', _, rfl, rfl, hstate, hpending, hreport⟩
  | unsettled =>
    rw [hs] at hends
    exact absurd rfl hends

end Routine

end Dataflow
