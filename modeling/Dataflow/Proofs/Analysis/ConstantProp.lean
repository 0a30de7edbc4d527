import Dataflow.Analysis.Kind
import Dataflow.Proofs.Analysis.Descents
import Dataflow.Proofs.Graph.Neighbours

/-!
# What the tables of constants say of an execution

An execution follows a path from the entry and keeps what every register holds, `none` for one that was
never initialised. A table describes the registers (`Constants.Describes`) if a constant is the only
value that its register can hold and a register that is `undef` holds nothing at all. Nothing follows
from a constant being initialised: merging with a path that has not written the register keeps the
constant, so both readings of `const` below are needed for the meet to be sound.

Arithmetic is exact arithmetic on integers, brought back to 32 bits. What folding does to two states is
right for every pair of values that they describe (`Describes.combine`), so passing a quad keeps tables
right (`transfer_describes`), and by induction along the execution they are right at every quad.
-/

namespace Dataflow

/-! ### Executions -/

/-- What a register can hold once something was written to it. -/
inductive Value where
  | int (v : Int32)
  | null
  | object (address : Nat)
deriving DecidableEq, Repr

/-- What each register holds, `none` if it was never initialised. -/
abbrev Store := Register → Option Value

/-- What an operand may stand for. Nothing is known of what a symbol stands for. -/
def Operand.Denotes (σ : Store) : Operand → Option Value → Prop
  | reg r, v => v = σ r
  | int n, v => v = some (.int n)
  | null, v => v = some .null
  | symbol _, _ => True

/-- The operation on integers, for addition, subtraction and multiplication. -/
def BinaryOp.exact? : BinaryOp → Option (Int → Int → Int)
  | add => some (· + ·)
  | sub => some (· - ·)
  | mul => some (· * ·)
  | _ => none

/-- `z` may be the result of the operation `f` on `x` and `y`: nothing if one of them is nothing, and on
integers the exact result modulo 2³², as a signed number. What comes of other values is left open. -/
def Computes (f : Int → Int → Int) (x y z : Option Value) : Prop :=
  (x = none ∨ y = none → z = none) ∧
  ∀ a b, x = some (.int a) → y = some (.int b) → z = some (.int (.ofInt (f a.toInt b.toInt)))

/-- Executing the operator may turn `σ` into `τ`. Operators other than those named here write anything. -/
def Operator.Executes (op : Operator) (σ τ : Store) : Prop :=
  (∀ r, r ∉ op.defs → τ r = σ r) ∧
  match op with
  | move d s => s.Denotes σ (τ d)
  | binary o d l r => ∀ f, o.exact? = some f →
      ∃ x y, l.Denotes σ x ∧ r.Denotes σ y ∧ Computes f x y (τ d)
  | unary .neg d s => ∃ x, s.Denotes σ x ∧ Computes (fun a _ => -a) x x (τ d)
  | _ => True

/-- A quad of an execution, with the registers before and after it. -/
structure Moment where
  quad : Quad
  before : Store
  after : Store

/-- An execution from the entry. Only the parameters hold anything when it begins. -/
structure Graph.IsExecution (g : Graph) (run : List Moment) : Prop where
  path : g.FromEntry (run.map Moment.quad)
  starts : ∀ m ∈ run.head?, ∀ r, r ∉ g.method.paramRegisters → m.before r = none
  executes : ∀ m ∈ run, m.quad.op.Executes m.before m.after
  continues : run.IsChain fun a b => b.before = a.after

/-! ### What states and tables say -/

/-- The values that a state allows. -/
def ConstState.Describes : ConstState → Option Value → Prop
  | undef, v => v = none
  | const c, v => v = none ∨ v = some (.int c)
  | nac, _ => True

namespace ConstState.Describes

variable {a b : ConstState} {x y z : Option Value}

theorem of_none (a : ConstState) : a.Describes none := by
  cases a with
  | undef => rfl
  | const c => exact .inl rfl
  | nac => trivial

theorem meet_left (h : a.Describes x) (b : ConstState) : (a.meet b).Describes x := by
  cases a with
  | undef =>
    rw [show x = none from h]
    exact of_none _
  | nac => rw [nac_meet]; trivial
  | const c =>
    cases b with
    | undef => exact h
    | nac => trivial
    | const d =>
      rw [meet]
      split
      · exact h
      · trivial

theorem meet_right (h : b.Describes x) (a : ConstState) : (a.meet b).Describes x := by
  rw [meet_comm]
  exact h.meet_left a

/-- Folding is right: `nac` decides first, and an operand that holds nothing leaves nothing. -/
theorem combine {f : Int → Int → Int} {g : Int32 → Int32 → Int32}
    (hg : ∀ v w, g v w = .ofInt (f v.toInt w.toInt)) (ha : a.Describes x) (hb : b.Describes y)
    (hz : Computes f x y z) : (a.combine g b).Describes z := by
  obtain ⟨hnone, hint⟩ := hz
  cases a with
  | nac => rw [nac_combine]; trivial
  | undef =>
    rw [hnone (.inl ha)]
    exact of_none _
  | const v =>
    cases b with
    | nac => rw [combine_nac]; trivial
    | undef =>
      rw [hnone (.inr hb)]
      exact of_none _
    | const w =>
      rcases ha with rfl | rfl
      · exact .inl (hnone (.inl rfl))
      rcases hb with rfl | rfl
      · exact .inl (hnone (.inr rfl))
      · refine .inr ?_
        rw [hint v w rfl rfl, hg]

theorem negate (ha : a.Describes x) (hz : Computes (fun v _ => -v) x x z) : a.negate.Describes z := by
  obtain ⟨hnone, hint⟩ := hz
  cases a with
  | nac => trivial
  | undef => exact hnone (.inl ha)
  | const v =>
    rcases ha with rfl | rfl
    · exact .inl (hnone (.inl rfl))
    · refine .inr ?_
      rw [hint v v rfl rfl, Int32.ofInt_neg, Int32.ofInt_toInt]

end ConstState.Describes

/-- The operations that are carried out on constants are the exact ones, brought back to 32 bits. -/
theorem BinaryOp.exists_exact? {op : BinaryOp} {f : Int32 → Int32 → Int32} (h : op.fold? = some f) :
    ∃ f', op.exact? = some f' ∧ ∀ v w, f v w = .ofInt (f' v.toInt w.toInt) := by
  cases op with
  | add =>
    obtain rfl := Option.some.inj h
    exact ⟨_, rfl, fun v w => by simp [Int32.ofInt_add]⟩
  | sub =>
    obtain rfl := Option.some.inj h
    exact ⟨_, rfl, fun v w => by simp [Int32.ofInt_sub]⟩
  | mul =>
    obtain rfl := Option.some.inj h
    exact ⟨_, rfl, fun v w => by simp [Int32.ofInt_mul]⟩
  | _ => cases h

/-- The table is right about every register. -/
def Constants.Describes (t : Constants) (σ : Store) : Prop := ∀ r, (t.get r).Describes (σ r)

namespace ConstantProp

variable {g : Graph} {f : Findings Constants} {q a b : Quad} {t u : Constants} {σ τ : Store}

/-! ### One step -/

theorem describes_meetAll {ts : List Constants} (hu : u ∈ ts) (h : u.Describes σ) (top : Constants) :
    (meetAll Constants.meet top ts).Describes σ := by
  -- once a table is right, meeting more tables into it keeps it right
  have hfold : ∀ (ts : List Constants) (t : Constants), t.Describes σ ∨ u ∈ ts →
      (ts.foldl Constants.meet t).Describes σ := by
    intro ts
    induction ts with
    | nil =>
      rintro t (ht | hu)
      · exact ht
      · cases hu
    | cons s ts ih =>
      intro t ht
      refine ih _ ?_
      rw [List.mem_cons] at ht
      rcases ht with ht | rfl | hu
      · exact .inl fun r => by rw [Constants.get_meet]; exact (ht r).meet_left _
      · exact .inl fun r => by rw [Constants.get_meet]; exact (h r).meet_right _
      · exact .inr hu
  cases ts with
  | nil => cases hu
  | cons s ts =>
    rcases List.mem_cons.1 hu with rfl | hu
    · exact hfold ts u (.inl h)
    · exact hfold ts s (.inr hu)

theorem state?_describes (ht : t.Describes σ) {o : Operand} {s : ConstState} {v : Option Value}
    (hs : o.state? t = some s) (hv : o.Denotes σ v) : s.Describes v := by
  cases o with
  | reg r =>
    obtain rfl := Option.some.inj hs
    rw [show v = σ r from hv]
    exact ht r
  | int n =>
    obtain rfl := Option.some.inj hs
    exact .inr hv
  | null => cases hs
  | symbol s => cases hs

/-- What the table says that an operator writes is right about what it does write. -/
theorem written_describes (ht : t.Describes σ) {op : Operator} (h : op.Executes σ τ) {d : Register}
    (hd : d ∈ op.defs) : (written op t).Describes (τ d) := by
  obtain ⟨-, h⟩ := h
  unfold written
  split
  · next d' s =>
    obtain rfl := List.mem_singleton.1 hd
    cases hs : s.state? t with
    | none => trivial
    | some c => exact state?_describes ht hs h
  · next o d' left right =>
    obtain rfl := List.mem_singleton.1 hd
    unfold binaryState
    split
    · next f c₁ c₂ hf hc₁ hc₂ =>
      obtain ⟨f', hf', hexact⟩ := BinaryOp.exists_exact? hf
      obtain ⟨x, y, hx, hy, hz⟩ := h f' hf'
      exact .combine hexact (state?_describes ht hc₁ hx) (state?_describes ht hc₂ hy) hz
    · trivial
  · next d' s =>
    obtain rfl := List.mem_singleton.1 hd
    obtain ⟨x, hx, hz⟩ := h
    cases hs : s.state? t with
    | none => trivial
    | some c => exact (state?_describes ht hs hx).negate hz
  · trivial

theorem transfer_describes (ht : t.Describes σ) (h : q.op.Executes σ τ) : (transfer q t).Describes τ := by
  intro r
  rw [get_transfer]
  split
  · next hd => exact written_describes ht h hd
  · next hd =>
    rw [h.1 r hd]
    exact ht r

/-! ### Along an execution -/

section

variable (h : (problem g).Solved g.quadEdges g.quads f)
include h

/-- What one of the neighbours hands on is right after they have met. -/
theorem metAt_describes (hq : q ∈ g.quads) {n : Option QuadId} (hn : n ∈ g.quadEdges.predecessors q.id)
    (hσ : (f.state.handedOn n).Describes σ) : (f.state.metAt q.id).Describes σ := by
  rw [h.met q hq]
  exact describes_meetAll (List.mem_map_of_mem hn) hσ _

theorem metAt_describes_of_enters (hq : q ∈ g.quads) (he : g.Enters q)
    (hσ : ∀ r, r ∉ g.method.paramRegisters → σ r = none) : (f.state.metAt q.id).Describes σ := by
  refine metAt_describes h hq he fun r => ?_
  have hs : f.state.handedOn none = g.method.paramRegisters.foldl (Constants.set · · .nac) ∅ := h.source
  rw [hs, Constants.get_foldl_set]
  split
  · trivial
  · next hr => rw [hσ r hr]; exact .of_none _

/-- From a quad where the table is right, it is right at all quads that the execution comes to. -/
theorem describes_along (hw : g.WellFormed) {run : List Moment} (hp : g.IsPath (run.map Moment.quad))
    (hx : ∀ m ∈ run, m.quad.op.Executes m.before m.after)
    (hc : run.IsChain fun a b => b.before = a.after)
    (hstart : ∀ m ∈ run.head?, (f.state.metAt m.quad.id).Describes m.before) :
    ∀ m ∈ run, (f.state.metAt m.quad.id).Describes m.before ∧
      (f.state.resultAt m.quad.id).Describes m.after := by
  induction run with
  | nil => simp
  | cons m run ih =>
    have hm : m.quad ∈ g.quads := hp.head
    have hbefore := hstart m rfl
    have hafter : (f.state.resultAt m.quad.id).Describes m.after := by
      rw [h.result _ hm]
      exact transfer_describes hbefore (hx m List.mem_cons_self)
    have hrest := ih hp.tail (fun x hx' => hx x (List.mem_cons_of_mem m hx')) hc.tail ?_
    · intro x hxm
      rcases List.mem_cons.1 hxm with rfl | hxm
      · exact ⟨hbefore, hafter⟩
      · exact hrest x hxm
    · -- the next quad meets the result of this one
      intro x hxm
      cases run with
      | nil => cases hxm
      | cons y run =>
        obtain rfl : y = x := Option.some.inj hxm
        have hflows : g.Flows m.quad y.quad := (List.isChain_cons_cons.1 hp.flows).1
        have hy : y.quad ∈ g.quads := hp.tail.head
        rw [(List.isChain_cons_cons.1 hc).1]
        exact metAt_describes h hy (hw.mem_predecessors_of_flows hm hy hflows) hafter

end

theorem run_constantProp_ok (hd : g.quadOrder.Nodup) {report : FlowReport}
    (h : AnalysisKind.run g .constantProp = .ok report) :
    ∃ n w, (Progress.start .constantProp).solve g = (.ok n, w) ∧ report = w.report g ∧
      (problem g).Solved g.quadEdges g.quads w.findings ∧ w.state.direction = .forward := by
  simp only [AnalysisKind.run, Analysis.reportOn] at h
  cases hs : (Progress.start Analysis.constantProp).solve g with
  | mk result w =>
    rw [hs] at h
    cases result with
    | error e => cases h
    | ok n =>
      obtain ⟨f, hf, rfl⟩ := Progress.solve_ok hd hs
      obtain rfl := Except.ok.inj h
      exact ⟨n, _, rfl, rfl, hf, hf.direction⟩

end ConstantProp

/-! ### The result -/

/-- Where constant propagation succeeds, its tables are right before and after every quad of every
execution. -/
theorem constantProp_describes_execution (g : Graph) (hw : g.WellFormed) {report : FlowReport}
    (h : AnalysisKind.run g .constantProp = .ok report) :
    ∃ n w, (Progress.start .constantProp).solve g = (.ok n, w) ∧ report = w.report g ∧
      ∀ run, g.IsExecution run → ∀ m ∈ run,
        (w.state.inAt m.quad.id).Describes m.before ∧ (w.state.outAt m.quad.id).Describes m.after := by
  obtain ⟨n, w, hs, hreport, hsolved, hforward⟩ := ConstantProp.run_constantProp_ok hw.quads_nodup h
  refine ⟨n, w, hs, hreport, fun run hrun m hm => ?_⟩
  rw [FlowState.inAt, FlowState.outAt, hforward]
  refine ConstantProp.describes_along hsolved hw hrun.path.toIsPath hrun.executes hrun.continues
    (fun x hx => ?_) m hm
  have hhead : x.quad ∈ (run.map Moment.quad).head? := by
    rw [List.head?_map]
    exact Option.mem_map_of_mem _ hx
  have hmem : x.quad ∈ g.quads := hrun.path.mem _ (List.mem_of_mem_head? hhead)
  exact ConstantProp.metAt_describes_of_enters hsolved hmem (hrun.path.enters _ hhead) (hrun.starts x hx)

/-- A loop that adds one to what it writes afterwards, the largest integer. -/
def overflow : Graph := ⟨⟨"overflow", 1, true⟩,
  [(.entry, ⟨.entry, [], [⟨2⟩], some ⟨2⟩⟩), (.exit, .empty .exit),
   (⟨2⟩, ⟨⟨2⟩, [⟨1, .binary .add "T1" (.reg "T0") (.int 1)⟩, ⟨2, .move "T0" (.int 2147483647)⟩,
      ⟨3, .ifCmp .gt (.reg "R0") (.int 0) ⟨2⟩⟩], [.exit, ⟨2⟩], some .exit⟩)], 3⟩

/-- Through the loop and once more over its first quad, which has nothing to read at first. -/
def overflowRun : List Moment :=
  let σ : Store := Function.update (fun _ => none) "R0" (some (.int 5))
  let τ := Function.update σ "T0" (some (.int 2147483647))
  [⟨⟨1, .binary .add "T1" (.reg "T0") (.int 1)⟩, σ, σ⟩,
   ⟨⟨2, .move "T0" (.int 2147483647)⟩, σ, τ⟩,
   ⟨⟨3, .ifCmp .gt (.reg "R0") (.int 0) ⟨2⟩⟩, τ, τ⟩,
   ⟨⟨1, .binary .add "T1" (.reg "T0") (.int 1)⟩, τ,
      Function.update τ "T1" (some (.int (-2147483648)))⟩]

theorem overflow_predecessors : overflow.quadEdges.predecessors 1 = [none, some 3] ∧
    overflow.quadEdges.predecessors 3 = [some 2] := by
  decide +kernel

theorem overflow_isExecution : overflow.IsExecution overflowRun := by
  have h₁ : overflow.quadEdges.successors 1 = [some 2] := by decide +kernel
  have h₂ : overflow.quadEdges.successors 2 = [some 3] := by decide +kernel
  have h₃ : overflow.quadEdges.successors 3 = [none, some 1] := by decide +kernel
  refine ⟨⟨⟨by decide, ?_⟩, ?_⟩, ?_, ?_, ?_⟩
  · simp [overflowRun, Graph.Flows, h₁, h₂, h₃]
  · simp [overflowRun, Graph.Enters, overflow_predecessors.1]
  · rintro _ ⟨⟩ r hr
    have hne : r ≠ "R0" := fun he => hr (he ▸ by decide)
    simp [hne]
  · simp only [overflowRun, List.mem_cons, List.not_mem_nil, or_false]
    rintro m (rfl | rfl | rfl | rfl)
    · refine ⟨fun _ _ => rfl, ?_⟩
      rintro f -
      exact ⟨none, _, rfl, rfl, by simp, by simp⟩
    · exact ⟨fun r hr => Function.update_of_ne (List.ne_of_not_mem_cons hr) _ _, rfl⟩
    · exact ⟨fun _ _ => rfl, trivial⟩
    · refine ⟨fun r hr => Function.update_of_ne (List.ne_of_not_mem_cons hr) _ _, ?_⟩
      rintro f ⟨⟩
      refine ⟨some (.int 2147483647), _, rfl, rfl, by simp, ?_⟩
      rintro a b ⟨⟩ ⟨⟩
      rfl
  · simp [overflowRun]

theorem overflow_solved : ∃ report, AnalysisKind.run overflow .constantProp = .ok report := by
  have hf : ∀ q ∈ overflow.quads, ConstantProp.fault q = none := by decide
  obtain ⟨n, f, -, -, hs⟩ := (ConstantProp.descent overflow).exists_ends_initial (by decide) hf
  have hok := Progress.solve_of_settled (w := .start .constantProp) hs
  simp only [AnalysisKind.run, Analysis.reportOn, hok]
  exact ⟨_, rfl⟩

/-- One more than the largest integer is the smallest, although the first time round the loop there is
nothing to add to. -/
theorem overflow_described : ∃ n w, (Progress.start .constantProp).solve overflow = (.ok n, w) ∧
    (w.state.outAt 1).get "T1" = .const (-2147483648) ∧
    ∀ m ∈ overflowRun,
      (w.state.inAt m.quad.id).Describes m.before ∧ (w.state.outAt m.quad.id).Describes m.after := by
  obtain ⟨report, h⟩ := overflow_solved
  obtain ⟨n, w, hs, -, hdescribes⟩ := constantProp_describes_execution overflow (by decide) h
  refine ⟨n, w, hs, ?_, hdescribes _ overflow_isExecution⟩
  obtain ⟨n', w', hs', -, hf, hforward⟩ := ConstantProp.run_constantProp_ok (by decide) h
  obtain ⟨-, rfl⟩ := Prod.mk.inj (hs.symm.trans hs')
  obtain ⟨h₁, h₃⟩ := overflow_predecessors
  -- the result of each quad, from what meets there
  have hresult : ∀ q ∈ overflow.quads, w.state.resultAt q.id = ConstantProp.transfer q
      (meetAll Constants.meet w.state.top
        ((overflow.quadEdges.predecessors q.id).map w.state.handedOn)) := by
    intro q hq
    exact (hf.result q hq).trans (congrArg _ (hf.met q hq))
  have hlast : (w.state.resultAt 3).get "T0" = .const 2147483647 := by
    rw [hresult ⟨3, _⟩ (.tail _ (.tail _ (.head _))), ConstantProp.get_transfer, h₃]
    show (w.state.resultAt 2).get "T0" = _
    rw [hresult ⟨2, _⟩ (.tail _ (.head _)), ConstantProp.get_transfer]
    rfl
  have hsource : w.state.source.get "T0" = .undef := by
    rw [show w.state.source = _ from hf.source]
    show (Constants.set ∅ "R0" .nac).get "T0" = _
    rw [Constants.get_set]
    decide
  rw [FlowState.outAt, hforward]
  show (w.state.resultAt 1).get "T1" = _
  rw [hresult ⟨1, _⟩ (.head _), ConstantProp.get_transfer, h₁]
  show (((w.state.source.meet (w.state.resultAt 3)).get "T0").combine (· + ·) (.const 1)) = _
  rw [Constants.get_meet, hsource, hlast]
  rfl

end Dataflow
