import Dataflow.Proofs.Analysis.Liveness
import Dataflow.Proofs.Graph.Paths
import Dataflow.Proofs.Graph.WellFormed

/-!
# Dead code cannot be observed

Along a path every quad reads values and writes one. A run with the dead quads left out keeps a
valuation that differs from that of the full run, but never on a register that is live: `trace_eq` is
the simulation, carried by agreement on the registers that are live before the next quad. It rests on
values that solve the liveness equations, and liveness settles on such values on every graph.
-/

namespace Dataflow

/-! ### Execution along a path -/

/-- What quads do to values of type `V`: what an operand that is no register stands for, and what the
quad at a position of a path writes, from the values that it reads. -/
structure Interpretation (V : Type) where
  constant : Operand → V
  result : Nat → List V → V

/-- A value for every register. -/
abbrev Valuation (V : Type) := Register → V

/-- A quad at a position of a path, and the values of the operands that it reads there. -/
structure Reading (V : Type) where
  position : Nat
  quad : Quad
  values : List V

namespace Interpretation

variable {V : Type} (I : Interpretation V)

def value (σ : Valuation V) : Operand → V
  | .reg r => σ r
  | o => I.constant o

def reads (σ : Valuation V) (q : Quad) : List V := q.op.operands.map (I.value σ)

/-- The registers after the quad at position `i`. -/
def write (i : Nat) (q : Quad) (σ : Valuation V) : Valuation V :=
  fun r => if r ∈ q.defs then I.result i (I.reads σ q) else σ r

/-- Executes the quads of a path from position `i` on, leaving out those that `skips` says. Answers what
each quad that is executed reads. -/
def trace (skips : Quad → Bool) : Nat → List Quad → Valuation V → List (Reading V)
  | _, [], _ => []
  | i, q :: path, σ =>
    if skips q then trace skips (i + 1) path σ
    else ⟨i, q, I.reads σ q⟩ :: trace skips (i + 1) path (I.write i q σ)

variable {I} {σ τ : Valuation V} {q : Quad}

/-- What a quad reads depends on the registers that it uses. -/
theorem reads_congr (h : ∀ r ∈ q.uses, σ r = τ r) : I.reads σ q = I.reads τ q := by
  refine List.map_congr_left fun o ho => ?_
  cases o with
  | reg r => exact h r (List.mem_filterMap.2 ⟨_, ho, rfl⟩)
  | int v => rfl
  | null => rfl
  | symbol s => rfl

end Interpretation

namespace Liveness

variable {g : Graph} {f : Findings Registers} {V : Type} {I : Interpretation V} {skips : Quad → Bool}

open Interpretation

/-- Leaving out quads whose results are dead changes nothing that any other quad reads, from any two
valuations that agree on what is live at the start. -/
theorem trace_eq (h : (problem g).Solved g.quadEdges g.quads f)
    (hs : ∀ q ∈ g.quads, skips q = true → ∀ r ∈ q.defs, r ∉ f.state.outAt q.id)
    {path : List Quad} (hp : g.IsPath path) (i : Nat) {σ τ : Valuation V}
    (ha : ∀ q ∈ path.head?, ∀ r ∈ f.state.inAt q.id, σ r = τ r) :
    I.trace skips i path τ = (I.trace (fun _ => false) i path σ).filter (!skips ·.quad) := by
  induction path generalizing i σ τ with
  | nil => rfl
  | cons q path ih =>
    have hin : ∀ r, r ∈ q.uses ∨ r ∈ f.state.outAt q.id ∧ r ∉ q.defs → σ r = τ r :=
      fun r hr => ha q rfl r ((mem_inAt h hp.head).2 hr)
    -- what is live before the next quad is live after this one
    have hout : ∀ x ∈ path.head?, ∀ r ∈ f.state.inAt x.id, r ∈ f.state.outAt q.id := by
      intro x hx r hr
      cases path with
      | nil => cases hx
      | cons y path =>
        obtain rfl : y = x := Option.some.inj hx
        exact (mem_outAt h hp.head).2 ⟨y.id, (List.isChain_cons_cons.1 hp.flows).1, hr⟩
    rw [trace, trace]
    simp only [Bool.false_eq_true, ↓reduceIte, List.filter_cons]
    by_cases hq : skips q = true
    · simp only [hq, ↓reduceIte, Bool.not_true, Bool.false_eq_true]
      refine ih hp.tail (i + 1) fun x hx r hr => ?_
      have hro := hout x hx r hr
      have hrd : r ∉ q.defs := fun hd => hs q hp.head hq r hd hro
      rw [write, if_neg hrd]
      exact hin r (.inr ⟨hro, hrd⟩)
    · have hreads : I.reads τ q = I.reads σ q := reads_congr fun r hr => (hin r (.inl hr)).symm
      simp only [hq, Bool.not_false, Bool.false_eq_true, ↓reduceIte, hreads]
      refine congrArg _ (ih hp.tail (i + 1) fun x hx r hr => ?_)
      rw [write, write, hreads]
      split
      · rfl
      · next hrd => exact hin r (.inr ⟨hout x hx r hr, hrd⟩)

theorem mem_pending_iff {w : Progress Registers} (hd : g.quadOrder.Nodup)
    (h : (problem g).Solved g.quadEdges g.quads f) (hw : w = Progress.finish ⟨.liveness true, g, f⟩ g)
    {q : Quad} (hq : q ∈ g.quads) : q.id ∈ w.pending ↔ isDead f.state q = true := by
  have hnone : q.id ∉ f.flagged := by
    intro hf
    obtain ⟨x, -, -, v, hv⟩ := h.flagged _ hf
    cases hv
  have hfin : q.id ∈ (Analysis.liveness true).finish f.state g ↔ isDead f.state q = true := by
    show q.id ∈ (g.quads.filter (isDead f.state)).map (·.id) ↔ _
    constructor
    · intro hm
      obtain ⟨x, hx, he⟩ := List.mem_map.1 hm
      rw [List.mem_filter] at hx
      rw [← Graph.eq_of_id_eq hd hx.1 hq he]
      exact hx.2
    · intro hdead
      exact List.mem_map_of_mem (List.mem_filter.2 ⟨hq, hdead⟩)
  rw [hw, Progress.mem_pending, Progress.mem_finish_flagged]
  show true = true ∧ (q.id ∈ (Analysis.liveness true).finish f.state g ∨ q.id ∈ f.flagged) ↔ _
  rw [hfin]
  simp [hnone]

end Liveness

/-! ### The result -/

/-- Dead code removal succeeds on every graph, drops exactly the quads without side effects whose
registers are all dead after them, and along every path leaves what each remaining quad reads as it
was. -/
theorem deadCode_removal_unobservable (g : Graph) (hd : g.quadOrder.Nodup) :
    ∃ stats w g', (Solver.ofAnalysis (.liveness true)).run g = (.ok stats, ⟨some w⟩, g') ∧
      g'.quads = g.quads.filter (fun q => q.hasSideEffects || q.defs.any (· ∈ w.state.outAt q.id)) ∧
      ∀ {V : Type} (I : Interpretation V) (σ : Valuation V) (path : List Quad), g.IsPath path →
        I.trace (· ∉ g'.quads) 0 path σ =
          (I.trace (fun _ => false) 0 path σ).filter (·.quad ∈ g'.quads) := by
  obtain ⟨n, f, hf, hsolve⟩ := Liveness.exists_solve_eq g hd
  obtain ⟨w, hw⟩ : ∃ w, w = Progress.finish ⟨.liveness true, g, f⟩ g := ⟨_, rfl⟩
  have hs : w.state = f.state := by rw [hw]; rfl
  have hrun : (Solver.ofAnalysis (.liveness true)).run g =
      (.ok ⟨w.analysis.name, n, g.quadCount, g.quadCount - (g.removeQuads w.pending).quadCount⟩,
        ⟨some w⟩, g.removeQuads w.pending) := by
    simp only [Solver.run, Solver.ofAnalysis, hsolve true, ← hw]
  have hkept : ∀ q ∈ g.quads, q ∈ (g.removeQuads w.pending).quads ↔ ¬ Liveness.isDead w.state q = true := by
    intro q hq
    rw [Graph.quads_removeQuads, List.mem_filter, decide_eq_true_eq, hs,
      ← Liveness.mem_pending_iff hd hf hw hq]
    exact and_iff_right hq
  refine ⟨_, w, _, hrun, ?_, fun {V} I σ path hp => ?_⟩
  · rw [Graph.quads_removeQuads]
    refine List.filter_congr fun q hq => ?_
    rw [Bool.eq_iff_iff, decide_eq_true_eq, Liveness.mem_pending_iff hd hf hw hq, ← hs, Liveness.isDead]
    simp [or_iff_not_imp_left]
  · have hskip : ∀ q ∈ g.quads, decide (q ∉ (g.removeQuads w.pending).quads) = true →
        ∀ r ∈ q.defs, r ∉ f.state.outAt q.id := by
      intro q hq hn r hr
      rw [decide_eq_true_eq, hkept q hq, not_not, Liveness.isDead, Bool.and_eq_true, List.all_eq_true] at hn
      have hout := hn.2 r hr
      rw [decide_eq_true_eq, hs] at hout
      exact hout
    rw [Liveness.trace_eq hf hskip hp 0 fun _ _ _ _ => rfl]
    simp

/-- A loop that copies its counter in vain. -/
def countdown : Graph := ⟨⟨"countdown", 1, true⟩,
  [(.entry, ⟨.entry, [], [⟨2⟩], some ⟨2⟩⟩), (.exit, .empty .exit),
   (⟨2⟩, ⟨⟨2⟩, [⟨1, .move "T0" (.reg "R0")⟩, ⟨2, .binary .sub "R0" (.reg "R0") (.int 1)⟩,
      ⟨3, .ifCmp .gt (.reg "R0") (.int 0) ⟨2⟩⟩], [.exit, ⟨2⟩], some .exit⟩)], 3⟩

theorem countdown_unobservable : ∃ stats w g',
    (Solver.ofAnalysis (.liveness true)).run countdown = (.ok stats, ⟨some w⟩, g') ∧
      ∀ (I : Interpretation Int) (σ : Valuation Int) (path : List Quad), countdown.IsPath path →
        I.trace (· ∉ g'.quads) 0 path σ =
          (I.trace (fun _ => false) 0 path σ).filter (·.quad ∈ g'.quads) := by
  obtain ⟨stats, w, g', hrun, -, htrace⟩ := deadCode_removal_unobservable countdown (by decide)
  exact ⟨stats, w, g', hrun, htrace⟩

end Dataflow
