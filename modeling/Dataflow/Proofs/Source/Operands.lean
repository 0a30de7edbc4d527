import Dataflow.Source.Operands

/-!
# Operators are written as they are read

An operator that an opcode and arguments make is written with this opcode and with these arguments
(`operatorOf_writtenWith`), so reading its text again makes the same operator.
-/

namespace Dataflow.Source

/-- An argument as it is written. -/
def Arg.text : Arg → String
  | register r => r
  | int v => toString v.toInt
  | null => "null"
  | block b => b.text
  | symbol s => s

/-- The operator is written with this mnemonic and these arguments. -/
def WrittenWith (op : Operator) (opcode : String) (args : List Arg) : Prop :=
  op.mnemonic = opcode ∧ op.args = args.map Arg.text

theorem bind_eq_ok {ε α β : Type} {x : Except ε α} {f : α → Except ε β} {r : β} (h : x >>= f = .ok r) :
    ∃ a, x = .ok a ∧ f a = .ok r := by
  cases x with
  | error e => cases h
  | ok a => exact ⟨a, rfl, h⟩

namespace Arg

variable {args : List Arg} {opcode : String} {op : Operator} {n : Nat}

/-- What `A` reads at a place is written as the argument there. -/
def ReadsText {γ : Type} (A : List Arg → Nat → Read γ) (text : γ → String) : Prop :=
  ∀ {args i x}, A args i = .ok x → (args.map Arg.text)[i]? = some (text x)

theorem readsText_registerAt : ReadsText registerAt id := by
  intro args i x h
  rw [registerAt] at h
  split at h
  · next r hr =>
    obtain rfl := Except.ok.inj h
    rw [List.getElem?_map, hr]
    rfl
  · cases h

theorem readsText_valueAt : ReadsText valueAt Operand.text := by
  intro args i x h
  cases ha : args[i]? with
  | none =>
    rw [valueAt, ha] at h
    cases h
  | some a =>
    rw [valueAt, ha] at h
    rw [List.getElem?_map, ha]
    cases a with
    | register r | int v | null =>
      obtain rfl := Except.ok.inj h
      rfl
    | block b | symbol s => cases h

theorem readsText_symbolAt : ReadsText symbolAt id := by
  intro args i x h
  rw [symbolAt] at h
  split at h
  · next s hs =>
    obtain rfl := Except.ok.inj h
    rw [List.getElem?_map, hs]
    rfl
  · cases h

theorem readsText_targetAt : ReadsText targetAt BlockId.text := by
  intro args i x h
  rw [targetAt] at h
  split at h
  · next b hb =>
    split at h
    · cases h
    · obtain rfl := Except.ok.inj h
      rw [List.getElem?_map, hb]
      rfl
  · cases h

theorem admits_of_expect {arity : Arity} (h : expect args arity = .ok ()) :
    arity.admits (args.map Arg.text).length = true := by
  rw [expect] at h
  split at h
  · next ha => rwa [List.length_map]
  · cases h

theorem length_of_expect (h : expect args (.exactly n) = .ok ()) : (args.map Arg.text).length = n := by
  simpa [Arity.admits] using admits_of_expect h

/-! ### Operators with a fixed number of arguments -/

section

variable {γ δ ε : Type} {A : List Arg → Nat → Read γ} {B : List Arg → Nat → Read δ}
  {C : List Arg → Nat → Read ε} {a : γ → String} {b : δ → String} {c : ε → String}

theorem writtenWith_one {k : γ → Operator} (hk : ∀ x, (k x).mnemonic = opcode ∧ (k x).args = [a x])
    (hA : ReadsText A a) (hl : (args.map Arg.text).length = 1) (h : (do return k (← A args 0)) = .ok op) :
    WrittenWith op opcode args := by
  obtain ⟨x, hx, h⟩ := bind_eq_ok h
  obtain rfl := Except.ok.inj h
  have h₀ := hA hx
  refine ⟨(hk x).1, (hk x).2.trans ?_⟩
  generalize args.map Arg.text = l at hl h₀ ⊢
  match l, hl with
  | [_], _ => simp_all

theorem writtenWith_two {k : γ → δ → Operator}
    (hk : ∀ x y, (k x y).mnemonic = opcode ∧ (k x y).args = [a x, b y])
    (hA : ReadsText A a) (hB : ReadsText B b) (hl : (args.map Arg.text).length = 2)
    (h : (do return k (← A args 0) (← B args 1)) = .ok op) : WrittenWith op opcode args := by
  obtain ⟨x, hx, h⟩ := bind_eq_ok h
  obtain ⟨y, hy, h⟩ := bind_eq_ok h
  obtain rfl := Except.ok.inj h
  have h₀ := hA hx
  have h₁ := hB hy
  refine ⟨(hk x y).1, (hk x y).2.trans ?_⟩
  generalize args.map Arg.text = l at hl h₀ h₁ ⊢
  match l, hl with
  | [_, _], _ => simp_all

theorem writtenWith_three {k : γ → δ → ε → Operator}
    (hk : ∀ x y z, (k x y z).mnemonic = opcode ∧ (k x y z).args = [a x, b y, c z])
    (hA : ReadsText A a) (hB : ReadsText B b) (hC : ReadsText C c) (hl : (args.map Arg.text).length = 3)
    (h : (do return k (← A args 0) (← B args 1) (← C args 2)) = .ok op) : WrittenWith op opcode args := by
  obtain ⟨x, hx, h⟩ := bind_eq_ok h
  obtain ⟨y, hy, h⟩ := bind_eq_ok h
  obtain ⟨z, hz, h⟩ := bind_eq_ok h
  obtain rfl := Except.ok.inj h
  have h₀ := hA hx
  have h₁ := hB hy
  have h₂ := hC hz
  refine ⟨(hk x y z).1, (hk x y z).2.trans ?_⟩
  generalize args.map Arg.text = l at hl h₀ h₁ h₂ ⊢
  match l, hl with
  | [_, _, _], _ => simp_all

theorem writtenWith_exactly_two {k : γ → δ → Operator}
    (hk : ∀ x y, (k x y).mnemonic = opcode ∧ (k x y).args = [a x, b y]) (hA : ReadsText A a)
    (hB : ReadsText B b)
    (h : (do expect args (.exactly 2); return k (← A args 0) (← B args 1)) = .ok op) :
    WrittenWith op opcode args := by
  obtain ⟨⟨⟩, he, h⟩ := bind_eq_ok h
  exact writtenWith_two hk hA hB (length_of_expect he) h

theorem writtenWith_exactly_three {k : γ → δ → ε → Operator}
    (hk : ∀ x y z, (k x y z).mnemonic = opcode ∧ (k x y z).args = [a x, b y, c z])
    (hA : ReadsText A a) (hB : ReadsText B b) (hC : ReadsText C c)
    (h : (do expect args (.exactly 3); return k (← A args 0) (← B args 1) (← C args 2)) = .ok op) :
    WrittenWith op opcode args := by
  obtain ⟨⟨⟩, he, h⟩ := bind_eq_ok h
  exact writtenWith_three hk hA hB hC (length_of_expect he) h

end

/-! ### Operators with a varying number of arguments -/

/-- The operands from a place on are all that is written there. -/
theorem texts_of_valuesFrom {i : Nat} {os : List Operand} (h : valuesFrom args i = .ok os) :
    os.map Operand.text = (args.map Arg.text).drop i := by
  have key : ∀ {js : List Nat} {os : List Operand}, js.mapM (valueAt args) = .ok os →
      os.map (some ·.text) = js.map ((args.map Arg.text)[·]?) := by
    intro js
    induction js with
    | nil =>
      intro os h
      obtain rfl := Except.ok.inj h
      rfl
    | cons j js ih =>
      intro os h
      rw [List.mapM_cons] at h
      obtain ⟨o, ho, h⟩ := bind_eq_ok h
      obtain ⟨os, hos, h⟩ := bind_eq_ok h
      obtain rfl := Except.ok.inj h
      rw [List.map_cons, List.map_cons, ih hos, readsText_valueAt ho]
  refine List.ext_getElem? fun j => ?_
  have hj := congrArg (·[j]?) (key h)
  rw [List.getElem?_drop, List.getElem?_map]
  by_cases hlt : j < args.length - i
  · simp only [List.getElem?_map, List.getElem?_range hlt, Option.map_some] at hj
    obtain ⟨o, ho, heq⟩ := Option.map_eq_some_iff.1 hj
    rw [ho, List.getElem?_map, ← heq]
    rfl
  · have hrange : (List.range (args.length - i))[j]? = none := by
      rw [List.getElem?_eq_none_iff, List.length_range]
      omega
    have hargs : (args.map Arg.text)[i + j]? = none := by
      rw [List.getElem?_eq_none_iff, List.length_map]
      omega
    simp only [List.getElem?_map, hrange, Option.map_none, Option.map_eq_none_iff] at hj
    rw [hj, hargs]
    rfl

theorem writtenWith_nullCheck
    (h : (do
      expect args (.between 1 2)
      if args.length = 2 then return Operator.nullCheck (some (← registerAt args 0)) (← valueAt args 1)
      else return Operator.nullCheck none (← valueAt args 0)) = .ok op) : WrittenWith op "NULL_CHECK" args := by
  obtain ⟨⟨⟩, he, h⟩ := bind_eq_ok h
  have hl := admits_of_expect he
  simp only [Arity.admits, List.length_map, Bool.and_eq_true, decide_eq_true_eq] at hl
  split at h
  · next htwo =>
    refine writtenWith_two (fun _ _ => ⟨rfl, rfl⟩) readsText_registerAt readsText_valueAt ?_ h
    rwa [List.length_map]
  · next htwo =>
    refine writtenWith_one (fun _ => ⟨rfl, rfl⟩) readsText_valueAt ?_ h
    rw [List.length_map]
    omega

theorem writtenWith_ret
    (h : (do
      expect args (.between 0 1)
      if args.isEmpty then return Operator.ret none
      else return Operator.ret (some (← valueAt args 0))) = .ok op) :
    WrittenWith op "RETURN" args := by
  obtain ⟨⟨⟩, he, h⟩ := bind_eq_ok h
  have hl := admits_of_expect he
  simp only [Arity.admits, List.length_map, Bool.and_eq_true, decide_eq_true_eq] at hl
  split at h
  · next hempty =>
    obtain rfl := Except.ok.inj h
    obtain rfl := List.isEmpty_iff.1 hempty
    exact ⟨rfl, rfl⟩
  · next hempty =>
    refine writtenWith_one (fun _ => ⟨rfl, rfl⟩) readsText_valueAt ?_ h
    have hpos : args.length ≠ 0 := fun h0 => hempty (List.isEmpty_iff.2 (List.length_eq_zero_iff.1 h0))
    rw [List.length_map]
    omega

theorem writtenWith_call {dest : Option Register} (hl : 2 ≤ (args.map Arg.text).length)
    (h₀ : (args.map Arg.text)[0]? = some (dest.getD "void"))
    (h : (do return Operator.invoke dest (← symbolAt args 1) (← valuesFrom args 2)) = .ok op) :
    WrittenWith op "INVOKE" args := by
  obtain ⟨m, hm, h⟩ := bind_eq_ok h
  obtain ⟨os, hos, h⟩ := bind_eq_ok h
  obtain rfl := Except.ok.inj h
  have h₁ := readsText_symbolAt hm
  refine ⟨rfl, ?_⟩
  rw [Operator.args, texts_of_valuesFrom hos]
  generalize args.map Arg.text = l at hl h₀ h₁ ⊢
  match l, hl with
  | _ :: _ :: _, _ => simp_all

/-- A call writes `void` where it has no result. -/
theorem writtenWith_invoke
    (h : (do
      expect args (.atLeast 2)
      let dest ← match args.head? with
        | some (symbol "void") => pure none
        | _ => some <$> registerAt args 0
      return Operator.invoke dest (← symbolAt args 1) (← valuesFrom args 2)) = .ok op) :
    WrittenWith op "INVOKE" args := by
  obtain ⟨⟨⟩, he, h⟩ := bind_eq_ok h
  have hl : 2 ≤ (args.map Arg.text).length := of_decide_eq_true (admits_of_expect he)
  dsimp only at h
  split at h
  · next hv =>
    refine writtenWith_call hl ?_ h
    rw [List.getElem?_map, ← List.head?_eq_getElem?, hv]
    rfl
  · obtain ⟨dest, hd, h⟩ := bind_eq_ok h
    obtain ⟨r, hr, hd⟩ := bind_eq_ok hd
    obtain rfl := Except.ok.inj hd
    have h₀ : (args.map Arg.text)[0]? = some ((some r).getD "void") := readsText_registerAt hr
    exact writtenWith_call hl h₀ h

end Arg

open Arg

/-- The operators with mnemonics of their own, one by one. -/
theorem plainOperator_writtenWith {opcode : String} {args : List Arg} {op : Operator}
    (h : plainOperator opcode args = .ok op) : WrittenWith op opcode args := by
  unfold plainOperator at h
  split at h
  · exact writtenWith_exactly_two (fun _ _ => ⟨rfl, rfl⟩) readsText_registerAt readsText_valueAt h
  · exact writtenWith_nullCheck h
  · exact writtenWith_exactly_two (fun _ _ => ⟨rfl, rfl⟩) readsText_registerAt readsText_symbolAt h
  · exact writtenWith_exactly_two (fun _ _ => ⟨rfl, rfl⟩) readsText_registerAt readsText_valueAt h
  · exact writtenWith_exactly_three (fun _ _ _ => ⟨rfl, rfl⟩) readsText_registerAt readsText_valueAt
      readsText_valueAt h
  · exact writtenWith_exactly_three (fun _ _ _ => ⟨rfl, rfl⟩) readsText_valueAt readsText_valueAt
      readsText_valueAt h
  · exact writtenWith_exactly_two (fun _ _ => ⟨rfl, rfl⟩) readsText_registerAt readsText_valueAt h
  · exact writtenWith_exactly_three (fun _ _ _ => ⟨rfl, rfl⟩) readsText_registerAt readsText_valueAt
      readsText_symbolAt h
  · exact writtenWith_exactly_three (fun _ _ _ => ⟨rfl, rfl⟩) readsText_valueAt readsText_symbolAt
      readsText_valueAt h
  · exact writtenWith_exactly_two (fun _ _ => ⟨rfl, rfl⟩) readsText_registerAt readsText_symbolAt h
  · exact writtenWith_exactly_two (fun _ _ => ⟨rfl, rfl⟩) readsText_symbolAt readsText_valueAt h
  · exact writtenWith_exactly_three (fun _ _ _ => ⟨rfl, rfl⟩) readsText_registerAt readsText_valueAt
      readsText_symbolAt h
  · exact writtenWith_exactly_three (fun _ _ _ => ⟨rfl, rfl⟩) readsText_registerAt readsText_valueAt
      readsText_symbolAt h
  · exact writtenWith_invoke h
  · obtain ⟨⟨⟩, he, h⟩ := bind_eq_ok h
    exact writtenWith_one (fun _ => ⟨rfl, rfl⟩) readsText_targetAt (length_of_expect he) h
  · exact writtenWith_ret h
  · obtain ⟨⟨⟩, he, h⟩ := bind_eq_ok h
    obtain rfl := Except.ok.inj h
    exact ⟨rfl, (List.eq_nil_of_length_eq_zero (length_of_expect he)).symm⟩
  · cases h

theorem operatorOf_writtenWith {opcode : String} {args : List Arg} {op : Operator}
    (h : operatorOf opcode args = .ok op) : WrittenWith op opcode args := by
  rw [operatorOf] at h
  split at h
  · next b hb =>
    have hname : b.mnemonic = opcode := by simpa using List.find?_some hb
    exact writtenWith_exactly_three (k := .binary b) (fun _ _ _ => ⟨hname, rfl⟩) readsText_registerAt
      readsText_valueAt readsText_valueAt h
  · next u _ hu =>
    have hname : u.mnemonic = opcode := by simpa using List.find?_some hu
    exact writtenWith_exactly_two (k := .unary u) (fun _ _ => ⟨hname, rfl⟩) readsText_registerAt
      readsText_valueAt h
  · next c _ _ hc =>
    have hname : "IFCMP_" ++ c.suffix = opcode := by simpa using List.find?_some hc
    exact writtenWith_exactly_three (k := .ifCmp c) (fun _ _ _ => ⟨hname, rfl⟩) readsText_valueAt
      readsText_valueAt readsText_targetAt h
  · exact plainOperator_writtenWith h

end Dataflow.Source
