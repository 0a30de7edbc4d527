import Dataflow.Proofs.Analysis.Solutions
import Dataflow.Proofs.Source.Registers

/-!
# Reports tell values apart

A report shows the values of a run as text. The values draw on the registers and quads of the graph, and registers of
a parsed graph are spelled as they should be, so no two values that a run can come to have the same text
(`Standard.text_inj`). Two reports about the same quads list them in the same order. So they show the same exactly if
the values are the same, quad by quad and at both ends.
-/

namespace Dataflow

/-- The same values stand in both reports, for the same quads. -/
structure FlowReport.SameValues (r r' : FlowReport) : Prop where
  entry : r.entry = r'.entry
  nodes : r.nodes = r'.nodes
  exit : r.exit = r'.exit

/-- A run of `a` on the method `g` of a quad file succeeds and leaves `w`. -/
structure Analysis.RanOn {L : Type} [DecidableEq L] (a : Analysis L) (g : Graph) (w : Progress L) : Prop where
  parsed : ∃ text gs, Source.graphs text = .ok gs ∧ g ∈ gs
  run : ∃ (start : Progress L) (stats : RunStats) (left : Graph), start.analysis = a ∧
    (Solver.mk (some start)).run g = (.ok stats, ⟨some w⟩, left)

/-! ### The quads of a report -/

theorem mergeSort_eq_of_mem_iff {l l' : List QuadId} (hl : l.Nodup) (hl' : l'.Nodup) (h : ∀ id, id ∈ l ↔ id ∈ l') :
    l.mergeSort = l'.mergeSort := by
  have hsorted : ∀ l : List QuadId, l.mergeSort.Pairwise (· ≤ ·) := by
    intro l
    have htrans : ∀ a b c : QuadId, decide (a ≤ b) = true → decide (b ≤ c) = true → decide (a ≤ c) = true := by
      simpa using fun _ _ _ => Nat.le_trans
    have htotal : ∀ a b : QuadId, (decide (a ≤ b) || decide (b ≤ a)) = true := by
      simpa using Nat.le_total
    exact (List.pairwise_mergeSort htrans htotal l).imp of_decide_eq_true
  have hperm : l.mergeSort.Perm l'.mergeSort :=
    (l.mergeSort_perm _).trans (((List.perm_ext_iff_of_nodup hl hl').2 h).trans (l'.mergeSort_perm _).symm)
  exact hperm.eq_of_pairwise (fun _ _ _ _ => Nat.le_antisymm) (hsorted l) (hsorted l')

namespace Problem

variable {L : Type} {p : Problem L}

theorem visit_ids (e : QuadEdges) (f : Findings L) (q : Quad) : (p.visit e f q).state.ids = f.state.ids := by
  simp [visit, pass, meetAt, FlowState.setResult, FlowState.setMet]

/-- Solving leaves the quads as they were listed at the start. -/
theorem ids_of_solve [DecidableEq L] {g : Graph} {n : Nat} {f : Findings L} (h : p.solve g = (.settled n, f)) :
    f.state.ids = g.quadOrder.mergeSort := by
  obtain ⟨f₀, hends, rfl⟩ := ends_of_solve h
  refine hends.induct (I := fun f => f.state.ids = g.quadOrder.mergeSort) (fun f q _ hf => ?_) rfl
  rw [visit_ids, hf]

end Problem

/-! ### Values and their texts -/

section

variable {L : Type}

theorem FlowValues.Within.of_quadOrder {g g' : Graph} {P : L → Prop} {v : FlowValues L} (hv : v.Within g' P)
    (h : ∀ id ∈ g.quadOrder, id ∈ g'.quadOrder) : v.Within g P := by
  have hquad : ∀ q ∈ g.quads, ∃ q' ∈ g'.quads, q'.id = q.id := by
    intro q hq
    exact List.mem_map.1 (h q.id (List.mem_map_of_mem hq))
  refine ⟨fun q hq => ?_, fun q hq => ?_, hv.entry, hv.exit⟩
  · obtain ⟨q', hq', hid⟩ := hquad q hq
    exact hid ▸ hv.input q' hq'
  · obtain ⟨q', hq', hid⟩ := hquad q hq
    exact hid ▸ hv.output q' hq'

/-- Where its text settles a value, reports about the same quads show the same exactly if the values are the same. -/
theorem FlowState.sameValues_iff {g : Graph} {s s' : FlowState L} {text : L → String} {P P' : L → Prop}
    (hs : ∀ id, id ∈ s.ids ↔ id ∈ g.quadOrder) (hids : s.ids = s'.ids) (hv : s.values.Within g P)
    (hv' : s'.values.Within g P') (hinj : ∀ v v', P v → P' v' → text v = text v' → v = v')
    {analysis analysis' method method' : String} :
    (s.report text analysis method).SameValues (s'.report text analysis' method') ↔
      FlowValues.Rel g (· = ·) s.values s'.values := by
  constructor
  · rintro ⟨hentry, hnodes, hexit⟩
    rw [FlowState.report, FlowState.report, ← hids, List.map_inj_left] at hnodes
    have hnode : ∀ q ∈ g.quads,
        text (s.inAt q.id) = text (s'.inAt q.id) ∧ text (s.outAt q.id) = text (s'.outAt q.id) := by
      intro q hq
      simpa using hnodes q.id ((hs _).2 (List.mem_map_of_mem hq))
    refine ⟨fun q hq => ?_, fun q hq => ?_, hinj _ _ hv.entry hv'.entry hentry, hinj _ _ hv.exit hv'.exit hexit⟩
    · exact hinj _ _ (hv.input q hq) (hv'.input q hq) (hnode q hq).1
    · exact hinj _ _ (hv.output q hq) (hv'.output q hq) (hnode q hq).2
  · intro h
    refine ⟨congrArg text h.entry, ?_, congrArg text h.exit⟩
    rw [FlowState.report, FlowState.report, ← hids, List.map_inj_left]
    intro id hid
    obtain ⟨q, hq, rfl⟩ := List.mem_map.1 ((hs id).1 hid)
    have hin : s.inAt q.id = s'.inAt q.id := h.input q hq
    have hout : s.outAt q.id = s'.outAt q.id := h.output q hq
    rw [hin, hout]

namespace Analysis

variable {a : Analysis L} {scope : Graph → L → Prop} {g g' : Graph}

/-- Over spelled registers, no two values of an analysis have the same text. -/
theorem Standard.text_inj (ha : a.Standard scope) (hg : ∀ r ∈ g.registers, r.IsSpelled)
    (hg' : ∀ r ∈ g'.registers, r.IsSpelled) (v v' : L) (hv : scope g v) (hv' : scope g' v')
    (h : a.text v = a.text v') : v = v' := by
  cases ha with
  | liveness _ => exact Registers.text_inj (fun r hr => hg r (hv r hr)) (fun r hr => hg' r (hv' r hr)) h
  | faintness => exact Registers.text_inj (fun r hr => hg r (hv r hr)) (fun r hr => hg' r (hv' r hr)) h
  | reachingDefs => exact QuadIds.text_inj h
  | constantProp => exact Constants.text_inj (fun r hr => hg r (hv r hr)) (fun r hr => hg' r (hv' r hr)) h
  | nullCheck m =>
    -- the receiver is spelled like a register whether or not the graph has it
    refine Registers.text_inj (fun r hr => ?_) (fun r hr => ?_) h
    · exact (hv r hr).elim (hg r) fun hthis => hthis.2.2 ▸ Register.isSpelled_param 0
    · exact (hv' r hr).elim (hg' r) fun hthis => hthis.2.2 ▸ Register.isSpelled_param 0

namespace RanOn

variable [DecidableEq L] {w w' : Progress L}

theorem isLowered (h : a.RanOn g w) : Source.IsLowered g := by
  obtain ⟨text, gs, hparse, hg⟩ := h.parsed
  exact Source.isLowered_of_graphs hparse hg

theorem exists_solve (h : a.RanOn g w) :
    w.analysis = a ∧ ∃ n f, (a.problem g).solve g = (.settled n, f) ∧ w.state = f.state := by
  obtain ⟨start, stats, left, rfl, hrun⟩ := h.run
  obtain ⟨f, hs, rfl, -⟩ := Solver.run_finished hrun
  exact ⟨rfl, stats.sweeps, f, hs, rfl⟩

theorem ids_eq (h : a.RanOn g w) : w.state.ids = g.quadOrder.mergeSort := by
  obtain ⟨-, n, f, hs, hstate⟩ := h.exists_solve
  rw [hstate, Problem.ids_of_solve hs]

theorem within (h : a.RanOn g w) (ha : a.Standard scope) : w.state.values.Within g (scope g) := by
  obtain ⟨-, n, f, hs, hstate⟩ := h.exists_solve
  obtain ⟨E⟩ := ha.nonempty_exact g
  obtain ⟨f₀, hends, rfl⟩ := Problem.ends_of_solve hs
  rw [hstate]
  exact (E.isGreatestSolution h.isLowered.wellFormed.quads_nodup hends).within

theorem of_settled {text : String} {gs : List Graph} {n : Nat} (hparse : Source.graphs text = .ok gs) (hg : g ∈ gs)
    (hs : ((a.problem g).solve g).1 = .settled n) :
    ∃ w, a.RanOn g w ∧ ∀ g', (w.report g').exit = a.text ((a.problem g).solve g).2.state.exit := by
  obtain ⟨stats, hrun, -⟩ := Solver.run_eq_of_settled (w := .start a) (Prod.ext hs rfl)
  exact ⟨_, ⟨⟨text, gs, hparse, hg⟩, .start a, stats, _, rfl, hrun⟩, fun _ => rfl⟩

theorem sameValues_iff (h : a.RanOn g w) (h' : a.RanOn g' w') (ha : a.Standard scope)
    (hids : ∀ id, id ∈ g.quadOrder ↔ id ∈ g'.quadOrder) :
    (w.report g).SameValues (w'.report g') ↔ FlowValues.Rel g (· = ·) w.state.values w'.state.values := by
  have hsorted : w.state.ids = w'.state.ids := by
    rw [h.ids_eq, h'.ids_eq]
    exact mergeSort_eq_of_mem_iff h.isLowered.wellFormed.quads_nodup h'.isLowered.wellFormed.quads_nodup hids
  have hlisted : ∀ id, id ∈ w.state.ids ↔ id ∈ g.quadOrder := by
    intro id
    rw [h.ids_eq, List.mem_mergeSort]
  have hwithin' := (h'.within ha).of_quadOrder fun id => (hids id).1
  rw [Progress.report, Progress.report, h.exists_solve.1, h'.exists_solve.1]
  refine FlowState.sameValues_iff hlisted hsorted (h.within ha) hwithin' (ha.text_inj ?_ ?_)
  · exact fun r => h.isLowered.isSpelled_of_mem_registers
  · exact fun r => h'.isLowered.isSpelled_of_mem_registers

end RanOn

end Analysis

end

/-! ### All together -/

/-- Sets and tables over spelled registers have the same text exactly if they are equal. So two reports of one analysis
on parsed methods with the same quads show the same exactly if the runs came to the same values. -/
theorem texts_settle_values :
    (∀ s t : RegisterSet, (∀ r ∈ s.members, r.IsSpelled) → (∀ r ∈ t.members, r.IsSpelled) →
      (s.text = t.text ↔ (s == t) = true)) ∧
    (∀ s t : DefSet, s.text = t.text ↔ (s == t) = true) ∧
    (∀ t u : ConstantTable, (∀ r ∈ t.entries, r.IsSpelled) → (∀ r ∈ u.entries, r.IsSpelled) →
      (t.text = u.text ↔ (t == u) = true)) ∧
    ∀ {L : Type} [DecidableEq L] {a : Analysis L} {scope : Graph → L → Prop} {g g' : Graph} {w w' : Progress L},
      a.Standard scope → a.RanOn g w → a.RanOn g' w' → (∀ id, id ∈ g.quadOrder ↔ id ∈ g'.quadOrder) →
      ((w.report g).SameValues (w'.report g') ↔ FlowValues.Rel g (· = ·) w.state.values w'.state.values) := by
  refine ⟨fun s t hs ht => RegisterSet.text_eq_iff hs ht, DefSet.text_eq_iff,
    fun t u ht hu => ConstantTable.text_eq_iff ht hu, ?_⟩
  intro L _ a scope g g' w w' ha h h' hids
  exact h.sameValues_iff h' ha hids

/-- One method as two files tell it, with another number in its first quad. -/
def answer (n : Int32) : Graph := ⟨⟨"answer", 0, true⟩,
  [(.entry, ⟨.entry, [], [⟨2⟩], some ⟨2⟩⟩), (.exit, .empty .exit),
   (⟨2⟩, ⟨⟨2⟩, [⟨1, .move "R0" (.int n)⟩, ⟨2, .ret (some (.reg "R0"))⟩], [.exit], some .exit⟩)], 2⟩

def answerText (n : String) : String :=
  "method answer(0) static \x7b\n  entry -> bb2:\n  bb2 -> exit:\n    1: MOVE R0, " ++ n ++ "\n    2: RETURN R0\n\x7d\n"

theorem graphs_answerText : Source.graphs (answerText "41") = .ok [answer 41] ∧
    Source.graphs (answerText "42") = .ok [answer 42] := by
  decide +kernel

theorem answer_exits :
    (∃ w, Analysis.constantProp.RanOn (answer 41) w ∧ (w.report (answer 41)).exit = "\x7bR0=41\x7d") ∧
    ∃ w, Analysis.constantProp.RanOn (answer 42) w ∧ (w.report (answer 42)).exit = "\x7bR0=42\x7d" := by
  constructor
  · obtain ⟨w, hran, hw⟩ :=
      Analysis.RanOn.of_settled (a := .constantProp) (n := 2) graphs_answerText.1 (.head _) (by decide +kernel)
    exact ⟨w, hran, (hw _).trans (by decide +kernel)⟩
  · obtain ⟨w, hran, hw⟩ :=
      Analysis.RanOn.of_settled (a := .constantProp) (n := 2) graphs_answerText.2 (.head _) (by decide +kernel)
    exact ⟨w, hran, (hw _).trans (by decide +kernel)⟩

/-- The two files lead to other values, for their reports show others. -/
theorem answers_tell_apart : ∃ w w', Analysis.constantProp.RanOn (answer 41) w ∧
    Analysis.constantProp.RanOn (answer 42) w' ∧
    ¬ FlowValues.Rel (answer 41) (· = ·) w.state.values w'.state.values := by
  obtain ⟨⟨w, hran, hexit⟩, ⟨w', hran', hexit'⟩⟩ := answer_exits
  refine ⟨w, w', hran, hran', fun hrel => ?_⟩
  have hsame := (texts_settle_values.2.2.2 .constantProp hran hran' (fun _ => Iff.rfl)).2 hrel
  exact absurd (hexit.symm.trans (hsame.exit.trans hexit')) (by decide)

end Dataflow
