import Dataflow.Proofs.Lattice.Registers
import Dataflow.Proofs.Lattice.Rendering
import Dataflow.Proofs.Source.Graphs

/-!
# The registers of a quad file

Every register that a quad of a parsed graph writes or reads stands among the arguments of the quad
(`operatorOf_covers`), and an argument is read as a register only if it is spelled like one. The parameters of the
method are spelled so as well. So all registers of a parsed graph are (`IsLowered.isSpelled_of_mem_registers`).
-/

namespace Dataflow.Source

namespace Arg

variable {args : List Arg} {op : Operator}

/-- The destinations `ds` and the registers among the operands `os` stand among the arguments. -/
structure Covers (args : List Arg) (ds : List Register) (os : List Operand) : Prop where
  dests : ∀ r ∈ ds, register r ∈ args
  reads : ∀ r ∈ os.filterMap Operand.register?, register r ∈ args

theorem covers_nil : Covers args [] [] :=
  ⟨fun _ h => absurd h List.not_mem_nil, fun _ h => absurd h List.not_mem_nil⟩

theorem Covers.append {ds ds' : List Register} {os os' : List Operand} (h : Covers args ds os)
    (h' : Covers args ds' os') : Covers args (ds ++ ds') (os ++ os') := by
  refine ⟨fun r hr => (List.mem_append.1 hr).elim (h.dests r) (h'.dests r), fun r hr => ?_⟩
  rw [List.filterMap_append] at hr
  exact (List.mem_append.1 hr).elim (h.reads r) (h'.reads r)

/-- What `A` reads makes these destinations and operands, and they stand among the arguments. -/
def ReadsCovered {γ : Type} (A : List Arg → Nat → Read γ) (ds : γ → List Register) (os : γ → List Operand) : Prop :=
  ∀ {args i x}, A args i = .ok x → Covers args (ds x) (os x)

theorem readsCovered_registerAt : ReadsCovered registerAt (fun r => [r]) (fun _ => []) := by
  intro args i x h
  rw [registerAt] at h
  split at h
  · next r hr =>
    obtain rfl := Except.ok.inj h
    refine ⟨fun q hq => ?_, covers_nil.reads⟩
    rw [List.mem_singleton.1 hq]
    exact List.mem_of_getElem? hr
  · cases h

theorem readsCovered_valueAt : ReadsCovered valueAt (fun _ => []) (fun o => [o]) := by
  intro args i x h
  refine ⟨covers_nil.dests, fun r hr => ?_⟩
  obtain ⟨o, ho, hreg⟩ := List.mem_filterMap.1 hr
  rw [List.mem_singleton.1 ho] at hreg
  cases ha : args[i]? with
  | none =>
    rw [valueAt, ha] at h
    cases h
  | some a =>
    rw [valueAt, ha] at h
    cases a with
    | register q =>
      obtain rfl := Except.ok.inj h
      obtain rfl := Option.some.inj hreg
      exact List.mem_of_getElem? ha
    | int v | null =>
      obtain rfl := Except.ok.inj h
      cases hreg
    | block b | symbol s => cases h

/-- Names and blocks make neither destinations nor operands. -/
theorem readsCovered_none {γ : Type} (A : List Arg → Nat → Read γ) : ReadsCovered A (fun _ => []) (fun _ => []) :=
  fun _ => covers_nil

theorem covers_valuesFrom {i : Nat} {os : List Operand} (h : valuesFrom args i = .ok os) : Covers args [] os := by
  refine ⟨covers_nil.dests, fun r hr => ?_⟩
  obtain ⟨o, ho, hreg⟩ := List.mem_filterMap.1 hr
  obtain ⟨j, -, hj⟩ := exists_of_forall₂ (mapM_ok_iff.1 h) ho
  exact (readsCovered_valueAt hj).reads r (by simp [hreg])

/-! ### Operators with a fixed number of arguments -/

section

variable {γ δ ε : Type} {A : List Arg → Nat → Read γ} {B : List Arg → Nat → Read δ}
  {C : List Arg → Nat → Read ε} {da : γ → List Register} {db : δ → List Register} {dc : ε → List Register}
  {oa : γ → List Operand} {ob : δ → List Operand} {oc : ε → List Operand} {n : Nat}

theorem covers_one {k : γ → Operator} (hk : ∀ x, (k x).defs = da x ∧ (k x).operands = oa x)
    (hA : ReadsCovered A da oa) (h : (do return k (← A args 0)) = .ok op) : Covers args op.defs op.operands := by
  obtain ⟨x, hx, h⟩ := bind_eq_ok h
  obtain rfl := Except.ok.inj h
  rw [(hk x).1, (hk x).2]
  exact hA hx

theorem covers_two {k : γ → δ → Operator}
    (hk : ∀ x y, (k x y).defs = da x ++ db y ∧ (k x y).operands = oa x ++ ob y)
    (hA : ReadsCovered A da oa) (hB : ReadsCovered B db ob)
    (h : (do return k (← A args 0) (← B args 1)) = .ok op) : Covers args op.defs op.operands := by
  obtain ⟨x, hx, h⟩ := bind_eq_ok h
  obtain ⟨y, hy, h⟩ := bind_eq_ok h
  obtain rfl := Except.ok.inj h
  rw [(hk x y).1, (hk x y).2]
  exact (hA hx).append (hB hy)

theorem covers_three {k : γ → δ → ε → Operator}
    (hk : ∀ x y z, (k x y z).defs = da x ++ db y ++ dc z ∧ (k x y z).operands = oa x ++ ob y ++ oc z)
    (hA : ReadsCovered A da oa) (hB : ReadsCovered B db ob) (hC : ReadsCovered C dc oc)
    (h : (do return k (← A args 0) (← B args 1) (← C args 2)) = .ok op) : Covers args op.defs op.operands := by
  obtain ⟨x, hx, h⟩ := bind_eq_ok h
  obtain ⟨y, hy, h⟩ := bind_eq_ok h
  obtain ⟨z, hz, h⟩ := bind_eq_ok h
  obtain rfl := Except.ok.inj h
  rw [(hk x y z).1, (hk x y z).2]
  exact ((hA hx).append (hB hy)).append (hC hz)

end

/-! ### Operators with a varying number of arguments -/

theorem covers_nullCheck
    (h : (do
      if args.length = 2 then return Operator.nullCheck (some (← registerAt args 0)) (← valueAt args 1)
      else return Operator.nullCheck none (← valueAt args 0)) = .ok op) : Covers args op.defs op.operands := by
  split at h
  · exact covers_two (fun _ _ => ⟨rfl, rfl⟩) readsCovered_registerAt readsCovered_valueAt h
  · exact covers_one (fun _ => ⟨rfl, rfl⟩) readsCovered_valueAt h

theorem covers_ret
    (h : (do
      if args.isEmpty then return Operator.ret none
      else return Operator.ret (some (← valueAt args 0))) = .ok op) : Covers args op.defs op.operands := by
  split at h
  · obtain rfl := Except.ok.inj h
    exact covers_nil
  · exact covers_one (fun _ => ⟨rfl, rfl⟩) readsCovered_valueAt h

theorem covers_call (dest : Option Register) (hdest : ∀ r ∈ dest.toList, register r ∈ args)
    (h : (do return Operator.invoke dest (← symbolAt args 1) (← valuesFrom args 2)) = .ok op) :
    Covers args op.defs op.operands := by
  obtain ⟨m, -, h⟩ := bind_eq_ok h
  obtain ⟨os, hos, h⟩ := bind_eq_ok h
  obtain rfl := Except.ok.inj h
  exact ⟨hdest, (covers_valuesFrom hos).reads⟩

theorem covers_invoke
    (h : (do
      let dest ← match args.head? with
        | some (symbol "void") => pure none
        | _ => some <$> registerAt args 0
      return Operator.invoke dest (← symbolAt args 1) (← valuesFrom args 2)) = .ok op) :
    Covers args op.defs op.operands := by
  dsimp only at h
  split at h
  · exact covers_call none covers_nil.dests h
  · obtain ⟨dest, hdest, h⟩ := bind_eq_ok h
    obtain ⟨r, hr, hdest⟩ := bind_eq_ok hdest
    obtain rfl := Except.ok.inj hdest
    exact covers_call (some r) (readsCovered_registerAt hr).dests h

end Arg

open Arg

theorem plainOperator_covers {opcode : String} {args : List Arg} {op : Operator}
    (h : plainOperator opcode args = .ok op) : Covers args op.defs op.operands := by
  unfold plainOperator at h
  split at h
  case h_18 => cases h
  all_goals obtain ⟨⟨⟩, -, h⟩ := bind_eq_ok h
  · exact covers_two (fun _ _ => ⟨rfl, rfl⟩) readsCovered_registerAt readsCovered_valueAt h
  · exact covers_nullCheck h
  · exact covers_two (fun _ _ => ⟨rfl, rfl⟩) readsCovered_registerAt (readsCovered_none symbolAt) h
  · exact covers_two (fun _ _ => ⟨rfl, rfl⟩) readsCovered_registerAt readsCovered_valueAt h
  · exact covers_three (fun _ _ _ => ⟨rfl, rfl⟩) readsCovered_registerAt readsCovered_valueAt readsCovered_valueAt h
  · exact covers_three (fun _ _ _ => ⟨rfl, rfl⟩) readsCovered_valueAt readsCovered_valueAt readsCovered_valueAt h
  · exact covers_two (fun _ _ => ⟨rfl, rfl⟩) readsCovered_registerAt readsCovered_valueAt h
  · exact covers_three (fun _ _ _ => ⟨rfl, rfl⟩) readsCovered_registerAt readsCovered_valueAt
      (readsCovered_none symbolAt) h
  · exact covers_three (fun _ _ _ => ⟨rfl, rfl⟩) readsCovered_valueAt (readsCovered_none symbolAt)
      readsCovered_valueAt h
  · exact covers_two (fun _ _ => ⟨rfl, rfl⟩) readsCovered_registerAt (readsCovered_none symbolAt) h
  · exact covers_two (fun _ _ => ⟨rfl, rfl⟩) (readsCovered_none symbolAt) readsCovered_valueAt h
  · exact covers_three (fun _ _ _ => ⟨rfl, rfl⟩) readsCovered_registerAt readsCovered_valueAt
      (readsCovered_none symbolAt) h
  · exact covers_three (fun _ _ _ => ⟨rfl, rfl⟩) readsCovered_registerAt readsCovered_valueAt
      (readsCovered_none symbolAt) h
  · exact covers_invoke h
  · exact covers_one (fun _ => ⟨rfl, rfl⟩) (readsCovered_none targetAt) h
  · exact covers_ret h
  · obtain rfl := Except.ok.inj h
    exact covers_nil

theorem operatorOf_covers {opcode : String} {args : List Arg} {op : Operator}
    (h : operatorOf opcode args = .ok op) : Covers args op.defs op.operands := by
  rw [operatorOf] at h
  split at h
  · obtain ⟨⟨⟩, -, h⟩ := bind_eq_ok h
    exact covers_three (fun _ _ _ => ⟨rfl, rfl⟩) readsCovered_registerAt readsCovered_valueAt readsCovered_valueAt h
  · obtain ⟨⟨⟩, -, h⟩ := bind_eq_ok h
    exact covers_two (fun _ _ => ⟨rfl, rfl⟩) readsCovered_registerAt readsCovered_valueAt h
  · obtain ⟨⟨⟩, -, h⟩ := bind_eq_ok h
    exact covers_three (fun _ _ _ => ⟨rfl, rfl⟩) readsCovered_valueAt readsCovered_valueAt
      (readsCovered_none targetAt) h
  · exact plainOperator_covers h

/-! ### Graphs -/

theorem Arg.IsSpelled.isSpelled_register {r : Register} (h : (Arg.register r).IsSpelled) : r.IsSpelled :=
  cutRegister_eq_some (Spelled.cut_self h)

theorem IsWritten.isSpelled {known : List BlockId} {q : Quad} (h : IsWritten known q) {r : Register}
    (hr : r ∈ q.defs ∨ r ∈ q.uses) : r.IsSpelled := by
  obtain ⟨args, hspelled, -, hop⟩ := h
  have hcovers := operatorOf_covers hop
  exact (hspelled _ (hr.elim (hcovers.dests r) (hcovers.reads r))).isSpelled_register

theorem IsLowered.isSpelled_of_mem_registers {g : Graph} (h : IsLowered g) {r : Register} (hr : r ∈ g.registers) :
    r.IsSpelled := by
  rcases Graph.mem_registers.1 hr with hr | ⟨q, hq, hr⟩
  · obtain ⟨i, -, rfl⟩ := List.mem_map.1 hr
    exact Register.isSpelled_param i
  · obtain ⟨e, he, hq⟩ := Graph.mem_quads.1 hq
    exact (h.carries e he q hq).1.isSpelled hr

end Dataflow.Source
