import Dataflow.Proofs.Analysis.Solutions
import Dataflow.Proofs.Flow.Shedding
import Dataflow.Proofs.Graph.Contraction

/-!
# Faint registers and where their values go

`g.IsValueChain chain`: along a path of quads, each with the register that holds the value there, a value is handed
from register to register by copies and arithmetic and is read in earnest by the last quad. A register is faint
unless such a chain begins with it (`Faintness.notMem_inAt_iff`).

What passing a quad takes out of the faint set is one step of a chain, whether or not the quad feeds a faint
register (`notMem_transfer`): a quad that writes the register that it reads is no exception. From a chain to the
values the induction is on the chain; from the values to a chain it is on the visits, since a loop that only copies
around would also satisfy the equations with nothing faint.
-/

namespace Dataflow

/-! ### Chains of values -/

namespace Quad

/-- The quad reads `r`, and not only to compute another register. -/
def ReadsInEarnest (q : Quad) (r : Register) : Prop := q.op.computed? = none ∧ r ∈ q.uses

/-- What `r` holds before the quad goes into `r'`: the quad leaves `r` alone and `r'` is `r`, or it computes `r'` from
`r`. -/
def Carries (q : Quad) (r r' : Register) : Prop :=
  r' = r ∧ r ∉ q.defs ∨ r ∈ q.uses ∧ q.op.computed? = some r'

instance (q : Quad) (r : Register) : Decidable (q.ReadsInEarnest r) := inferInstanceAs (Decidable (_ ∧ _))

instance (q : Quad) (r r' : Register) : Decidable (q.Carries r r') := inferInstanceAs (Decidable (_ ∨ _))

end Quad

namespace Graph

variable {g : Graph} {q x : Quad} {r r' : Register} {chain : List (Quad × Register)}

/-- A path, with the register at each quad that a value is in when flow comes there; the last quad reads it in
earnest. -/
structure IsValueChain (g : Graph) (chain : List (Quad × Register)) : Prop where
  path : g.IsPath (chain.map (·.1))
  carried : chain.IsChain fun a b => a.1.Carries a.2 b.2
  read : ∀ e ∈ chain.getLast?, e.1.ReadsInEarnest e.2

theorem isValueChain_singleton : g.IsValueChain [(q, r)] ↔ q ∈ g.quads ∧ q.ReadsInEarnest r := by
  constructor
  · intro h
    exact ⟨h.path.head, h.read _ rfl⟩
  · rintro ⟨hq, hr⟩
    exact ⟨isPath_singleton.2 hq, .singleton _, by simpa using hr⟩

theorem isValueChain_cons_cons : g.IsValueChain ((q, r) :: (x, r') :: chain) ↔
    q ∈ g.quads ∧ g.Flows q x ∧ q.Carries r r' ∧ g.IsValueChain ((x, r') :: chain) := by
  constructor
  · rintro ⟨hp, hc, hread⟩
    obtain ⟨hq, hflows, hp⟩ := isPath_cons_cons.1 hp
    obtain ⟨hcarries, hc⟩ := List.isChain_cons_cons.1 hc
    exact ⟨hq, hflows, hcarries, hp, hc, hread⟩
  · rintro ⟨hq, hflows, hcarries, hp, hc, hread⟩
    exact ⟨isPath_cons_cons.2 ⟨hq, hflows, hp⟩, .cons_cons hcarries hc, hread⟩

/-- What `r` holds before `q` is read in earnest somewhere. -/
def Matters (g : Graph) (q : Quad) (r : Register) : Prop :=
  ∃ chain, g.IsValueChain chain ∧ chain.head? = some (q, r)

theorem Matters.of_reads (hq : q ∈ g.quads) (h : q.ReadsInEarnest r) : g.Matters q r :=
  ⟨_, isValueChain_singleton.2 ⟨hq, h⟩, rfl⟩

theorem Matters.of_carries (hq : q ∈ g.quads) (hf : g.Flows q x) (hc : q.Carries r r') (h : g.Matters x r') :
    g.Matters q r := by
  obtain ⟨chain, hchain, hhead⟩ := h
  obtain ⟨rest, rfl⟩ := List.head?_eq_some_iff.1 hhead
  exact ⟨_, isValueChain_cons_cons.2 ⟨hq, hf, hc, hchain⟩, rfl⟩

theorem mem_registers_of_carries (hq : q ∈ g.quads) (hr : r ∈ g.registers) (h : q.Carries r r') :
    r' ∈ g.registers := by
  rcases h with ⟨rfl, -⟩ | ⟨-, hc⟩
  · exact hr
  · refine mem_registers_of_defs hq ?_
    rw [Quad.defs, Operator.defs_of_computed? hc]
    exact List.mem_singleton_self r'

end Graph

namespace Faintness

variable {g : Graph} {n : Nat} {f : Findings Registers} {q : Quad} {r : Register} {s : Registers}

/-! ### One quad -/

theorem notMem_transfer : r ∉ transfer q s ↔ q.ReadsInEarnest r ∨ ∃ r', q.Carries r r' ∧ r' ∉ s := by
  rw [mem_transfer, Quad.ReadsInEarnest]
  cases hc : q.op.computed? with
  | none =>
    have hfeeds : ¬ feedsFaint q s = true := by simp [feedsFaint_iff, hc]
    have hcarries : ∀ r', q.Carries r r' ↔ r' = r ∧ r ∉ q.defs := by simp [Quad.Carries, hc]
    rw [if_neg hfeeds]
    simp only [hcarries]
    grind
  | some d =>
    have hdefs : q.defs = [d] := Operator.defs_of_computed? hc
    have hcarries : ∀ r', q.Carries r r' ↔ r' = r ∧ r ≠ d ∨ r ∈ q.uses ∧ r' = d := by
      simp [Quad.Carries, hc, hdefs, eq_comm]
    by_cases hd : d ∈ s
    · -- only what stays where it is can be missing, and `d` itself is not
      have hfeeds : feedsFaint q s = true := feedsFaint_iff.2 ⟨d, hd, hc⟩
      rw [if_pos hfeeds]
      simp only [hcarries]
      grind
    · have hfeeds : ¬ feedsFaint q s = true := by simp [feedsFaint_iff, hc, hd]
      rw [if_neg hfeeds]
      simp only [hcarries, hdefs]
      grind

/-! ### All quads -/

theorem sheds (g : Graph) : (problem g).Sheds := rfl

/-- Nothing is lost where flow leaves the method: all registers are faint there. -/
theorem lost_iff {lost : Quad → Prop} (hr : r ∈ g.registers) :
    Problem.Sheds.Lost (problem g) g lost q r ↔ ∃ x ∈ g.quads, g.Flows q x ∧ lost x := by
  constructor
  · rintro (⟨-, hn⟩ | h)
    · exact absurd hr hn
    · exact h
  · exact .inr

theorem notMem_resultAt (hd : g.quadOrder.Nodup) (hf : (problem g).Solved g.quadEdges g.quads f) (hq : q ∈ g.quads)
    (hr : r ∈ g.registers) : r ∉ f.state.resultAt q.id ↔ q.ReadsInEarnest r ∨
      ∃ r', q.Carries r r' ∧ ∃ x ∈ g.quads, g.Flows q x ∧ r' ∉ f.state.resultAt x.id := by
  rw [hf.result q hq]
  refine notMem_transfer.trans (or_congr_right (exists_congr fun r' => and_congr_right fun hc => ?_))
  have hr' := Graph.mem_registers_of_carries hq hr hc
  exact ((sheds g).notMem_metAt hd hf hq hr').trans (lost_iff hr')

theorem notMem_resultAt_of_matters (hd : g.quadOrder.Nodup) (hf : (problem g).Solved g.quadEdges g.quads f)
    (hr : r ∈ g.registers) (h : g.Matters q r) : r ∉ f.state.resultAt q.id := by
  obtain ⟨chain, hchain, hhead⟩ := h
  induction chain generalizing q r with
  | nil => cases hhead
  | cons e chain ih =>
    obtain rfl : e = (q, r) := Option.some.inj hhead
    cases chain with
    | nil =>
      obtain ⟨hq, hreads⟩ := Graph.isValueChain_singleton.1 hchain
      exact (notMem_resultAt hd hf hq hr).2 (.inl hreads)
    | cons e chain =>
      obtain ⟨x, r'⟩ := e
      obtain ⟨hq, hflows, hcarries, hchain⟩ := Graph.isValueChain_cons_cons.1 hchain
      have hlost := ih (Graph.mem_registers_of_carries hq hr hcarries) hchain rfl
      exact (notMem_resultAt hd hf hq hr).2 (.inr ⟨r', hcarries, x, hchain.path.head, hflows, hlost⟩)

theorem matters_of_notMem_resultAt (hd : g.quadOrder.Nodup) (h : (problem g).solve g = (.settled n, f))
    (hq : q ∈ g.quads) (hr : r ∈ g.registers) (hn : r ∉ f.state.resultAt q.id) : g.Matters q r := by
  refine (sheds g).of_notMem_resultAt hd (P := g.Matters) (fun q hq s hs r hr hn => ?_) h hq hr hn
  rcases notMem_transfer.1 hn with hreads | ⟨r', hcarries, hr's⟩
  · exact .of_reads hq hreads
  · have hr' := Graph.mem_registers_of_carries hq hr hcarries
    obtain ⟨x, -, hflows, hx⟩ := (lost_iff hr').1 (hs r' hr' hr's)
    exact .of_carries hq hflows hcarries hx

theorem notMem_inAt_iff (hd : g.quadOrder.Nodup) (h : (problem g).solve g = (.settled n, f)) (hq : q ∈ g.quads)
    (hr : r ∈ g.registers) : r ∉ f.state.inAt q.id ↔ g.Matters q r := by
  have hf := Problem.solve_solved hd h
  rw [FlowState.inAt_of_backward hf.direction]
  exact ⟨matters_of_notMem_resultAt hd h hq hr, notMem_resultAt_of_matters hd hf hr⟩

end Faintness

/-! ### The result -/

/-- Faintness is exact: it settles on every graph, and a register of the graph is missing from the faint registers
before a quad iff a chain of values that begins there is read in earnest at its end. -/
theorem notFaint_iff_valueChain (g : Graph) (hd : g.quadOrder.Nodup) :
    ∃ stats w, (Solver.ofAnalysis .faintness).run g = (.ok stats, ⟨some w⟩, g) ∧
      ∀ q ∈ g.quads, ∀ r ∈ g.registers, r ∉ w.state.inAt q.id ↔
        ∃ chain, g.IsValueChain chain ∧ chain.head? = some (q, r) := by
  obtain ⟨n, f, hsolve⟩ := (Faintness.descent g).settles hd fun _ _ => rfl
  obtain ⟨stats, hrun, -⟩ := Solver.run_eq_of_settled (w := .start .faintness) hsolve
  rw [Progress.pending_of_not_removes rfl, Graph.removeQuads_nil] at hrun
  exact ⟨stats, _, hrun, fun q hq r hr => Faintness.notMem_inAt_iff (f := f) hd hsolve hq hr⟩

/-- A loop that passes a parameter on, one register each time around, and counts in vain. -/
def relay : Graph := ⟨⟨"relay", 1, true⟩,
  [(.entry, ⟨.entry, [], [⟨2⟩], some ⟨2⟩⟩), (.exit, .empty .exit),
   (⟨2⟩, ⟨⟨2⟩, [⟨1, .move "T1" (.reg "T0")⟩, ⟨2, .move "T0" (.reg "R0")⟩,
      ⟨3, .binary .add "T2" (.reg "T2") (.int 1)⟩], [⟨3⟩, ⟨2⟩], some ⟨3⟩⟩),
   (⟨3⟩, ⟨⟨3⟩, [⟨4, .ret (some (.reg "T1"))⟩], [.exit], some .exit⟩)], 4⟩

/-- The parameter is copied, comes round to the other copy and is returned. -/
def relayed : List (Quad × Register) :=
  [(⟨2, .move "T0" (.reg "R0")⟩, "R0"), (⟨3, .binary .add "T2" (.reg "T2") (.int 1)⟩, "T0"),
    (⟨1, .move "T1" (.reg "T0")⟩, "T0"), (⟨2, .move "T0" (.reg "R0")⟩, "T1"),
    (⟨3, .binary .add "T2" (.reg "T2") (.int 1)⟩, "T1"), (⟨4, .ret (some (.reg "T1"))⟩, "T1")]

theorem relayed_isValueChain : relay.IsValueChain relayed := by
  have h₁ : relay.quadEdges.successors 1 = [some 2] := by decide +kernel
  have h₂ : relay.quadEdges.successors 2 = [some 3] := by decide +kernel
  have h₃ : relay.quadEdges.successors 3 = [some 4, some 1] := by decide +kernel
  refine ⟨⟨by decide, ?_⟩, by decide, by decide⟩
  simp [relayed, Graph.Flows, h₁, h₂, h₃]

/-- The count feeds nothing but itself. -/
theorem relay_count_unread {chain : List (Quad × Register)} (h : relay.IsValueChain chain) :
    ∀ e ∈ chain.head?, e.2 ≠ "T2" := by
  have hfeeds : ∀ q ∈ relay.quads, "T2" ∈ q.uses → q.op.computed? = some "T2" := by decide
  induction chain with
  | nil => simp
  | cons e chain ih =>
    obtain ⟨q, r⟩ := e
    rintro _ ⟨⟩ rfl
    cases chain with
    | nil =>
      obtain ⟨hq, hnone, huse⟩ := Graph.isValueChain_singleton.1 h
      rw [hfeeds q hq huse] at hnone
      cases hnone
    | cons e chain =>
      obtain ⟨hq, -, hcarries, h⟩ := Graph.isValueChain_cons_cons.1 h
      refine ih h _ rfl ?_
      rcases hcarries with ⟨hsame, -⟩ | ⟨huse, hcomputed⟩
      · exact hsame
      · rw [hfeeds q hq huse] at hcomputed
        exact (Option.some.inj hcomputed).symm

theorem relay_faint : ∃ stats w, (Solver.ofAnalysis .faintness).run relay = (.ok stats, ⟨some w⟩, relay) ∧
    "R0" ∉ w.state.inAt 2 ∧ "T2" ∈ w.state.inAt 3 := by
  have hparam : "R0" ∈ relay.registers :=
    Graph.mem_registers_of_uses (q := ⟨2, .move "T0" (.reg "R0")⟩) (by decide) (by decide)
  have hcount : "T2" ∈ relay.registers :=
    Graph.mem_registers_of_uses (q := ⟨3, .binary .add "T2" (.reg "T2") (.int 1)⟩) (by decide) (by decide)
  obtain ⟨stats, w, hrun, hfaint⟩ := notFaint_iff_valueChain relay (by decide)
  refine ⟨stats, w, hrun, ?_, ?_⟩
  · exact (hfaint ⟨2, .move "T0" (.reg "R0")⟩ (by decide) "R0" hparam).2 ⟨relayed, relayed_isValueChain, rfl⟩
  · by_contra hn
    obtain ⟨chain, hchain, hhead⟩ :=
      (hfaint ⟨3, .binary .add "T2" (.reg "T2") (.int 1)⟩ (by decide) "T2" hcount).1 hn
    exact relay_count_unread hchain _ hhead rfl

end Dataflow
