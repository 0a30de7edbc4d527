import Dataflow.Proofs.Source.Grammar
import Dataflow.Source.Graphs

/-!
# The graphs of quad files

What a quad file declares is spelled so that it can be read back (`yields_program`), and what is declared
makes graphs of one kind, `IsLowered`: they are well formed, their numbers fit the file, and the target of
each jump is a successor of its block. Every step that adds to a graph keeps this (`isLowered_of_toGraph`).
-/

namespace Dataflow

theorem Block.mem_addSuccessor {k : Block} {b t : BlockId} :
    b ∈ (k.addSuccessor t).successors ↔ b ∈ k.successors ∨ b = t := by
  simp only [addSuccessor]
  split
  · next h =>
    refine ⟨.inl, fun hb => ?_⟩
    obtain hb | rfl := hb
    · exact hb
    · exact h
  · rw [List.mem_append, List.mem_singleton]

namespace Source

open Dataflow.Source.Parser

/-! ### What is declared -/

section

variable {α β : Type} {p q : Parser α} {f : α → Parser β} {P : α → Prop} {Q : β → Prop}

/-- Whatever `p` reads satisfies `P`. -/
def Yields (p : Parser α) (P : α → Prop) : Prop := ∀ c a c', p.run c = some (a, c') → P a

theorem Yields.bind (hp : Yields p P) (hf : ∀ a, P a → Yields (f a) Q) : Yields (p >>= f) Q := by
  intro c b c' h
  obtain ⟨⟨a, c₁⟩, hrun, hb⟩ := Option.bind_eq_some_iff.1 h
  exact hf a (hp c a c₁ hrun) c₁ b c' hb

theorem Yields.of_bind (hf : ∀ a, Yields (f a) Q) : Yields (p >>= f) Q := by
  intro c b c' h
  obtain ⟨⟨a, c₁⟩, -, hb⟩ := Option.bind_eq_some_iff.1 h
  exact hf a c₁ b c' hb

theorem Yields.pure {a : α} (h : P a) : Yields (Pure.pure a) P := by
  intro c b c' hrun
  obtain ⟨rfl, -⟩ := Prod.mk.inj (Option.some.inj hrun)
  exact h

theorem Yields.rule {r : Rule} (h : Yields p P) : Yields (Parser.rule r p) P := h

theorem Yields.optional (h : Yields p P) : Yields (Parser.optional p) fun o => ∀ a ∈ o, P a := by
  intro c o c' hrun
  obtain hrun | ⟨-, hrun⟩ := Option.or_eq_some_iff.1 hrun
  · obtain ⟨⟨a, c₁⟩, hp, ho⟩ := Option.bind_eq_some_iff.1 hrun
    obtain ⟨rfl, -⟩ := Prod.mk.inj (Option.some.inj ho)
    intro b hb
    obtain rfl := Option.some.inj hb
    exact h c a c₁ hp
  · obtain ⟨rfl, -⟩ := Prod.mk.inj (Option.some.inj hrun)
    simp

theorem Yields.runAll (h : Yields p P) (c : Cursor) : ∀ a ∈ (Parser.runAll p c).1, P a := by
  fun_induction Parser.runAll p c with
  | case1 c hrun => simp
  | case2 c a c' hrun hlt as c'' hall ih =>
    rw [hall] at ih
    exact List.forall_mem_cons.2 ⟨h c a c' hrun, ih⟩
  | case3 c a c' hrun hlt => simpa using h c a c' hrun

theorem Yields.many (h : Yields p P) : Yields (Parser.many p) fun as => ∀ a ∈ as, P a := by
  intro c as c' hrun
  obtain hrun | ⟨-, hrun⟩ := Option.or_eq_some_iff.1 hrun
  · obtain ⟨⟨a, c₁⟩, hp, hrest⟩ := Option.bind_eq_some_iff.1 hrun
    obtain ⟨rfl, -⟩ := Prod.mk.inj (Option.some.inj hrest)
    exact List.forall_mem_cons.2 ⟨h c a c₁ hp, Yields.runAll (Yields.of_bind fun _ => h) c₁⟩
  · obtain ⟨rfl, -⟩ := Prod.mk.inj (Option.some.inj hrun)
    simp

theorem Yields.commaList (h : Yields p P) : Yields (Source.commaList p) fun as => ∀ a ∈ as, P a :=
  Yields.bind h fun _ ha => .of_bind fun _ => .bind (.many (.of_bind fun _ => .of_bind fun _ => h))
    fun _ has => .pure (List.forall_mem_cons.2 ⟨ha, has⟩)

theorem Yields.word {r : Rule} {F : List Char → Option Cut} {P : List Char → Prop}
    (h : ∀ {s x rest}, F s = some (x, rest) → P x) : Yields (Source.word r F) fun w => P w.text.toList := by
  intro c w c' hrun
  rw [run_word] at hrun
  obtain ⟨⟨x, rest⟩, hcut, hw⟩ := Option.map_eq_some_iff.1 hrun
  obtain ⟨rfl, -⟩ := Prod.mk.inj hw
  simpa using h hcut

end

def ArgDecl.IsSpelled : ArgDecl → Prop
  | register r => Spelled cutRegister r.toList
  | symbol s => IsSymbol s.toList
  | _ => True

theorem cut_eq_none {α : Type} {r : Rule} {F : List Char → Option Cut} {k : Word → α} {c : Cursor}
    (h : (word r F >>= fun w => Pure.pure (k w)).run c = none) : F c.rest = none := by
  have hrun : (word r F).run c = none := by
    cases hw : (word r F).run c with
    | none => rfl
    | some x =>
      have hsome : ((word r F).run c).bind (fun x => some (k x.1, x.2)) = none := h
      rw [hw] at hsome
      cases hsome
  rw [run_word, Option.map_eq_none_iff] at hrun
  exact hrun

theorem yields_arg : Yields arg ArgDecl.IsSpelled := by
  have hword : Yields (word .register cutRegister >>= fun w => Pure.pure (.register w.text))
      ArgDecl.IsSpelled := Yields.bind (.word spelled_cutRegister) fun _ hw => .pure hw
  refine Yields.of_bind fun _ => Yields.of_bind fun _ => ?_
  intro c d c' hrun
  -- a symbol is read where all that is tried before it was refused
  obtain hrun | ⟨hregister, hrun⟩ := Option.or_eq_some_iff.1 hrun
  · exact hword c d c' hrun
  obtain hrun | ⟨hnull, hrun⟩ := Option.or_eq_some_iff.1 hrun
  · exact Yields.of_bind (fun _ => .pure trivial) c d c' hrun
  obtain hrun | ⟨-, hrun⟩ := Option.or_eq_some_iff.1 hrun
  · exact Yields.of_bind (fun _ => .pure trivial) c d c' hrun
  obtain hrun | ⟨hblock, hrun⟩ := Option.or_eq_some_iff.1 hrun
  · exact Yields.of_bind (fun _ => .pure trivial) c d c' hrun
  obtain ⟨⟨w, c₁⟩, hw, hd⟩ := Option.bind_eq_some_iff.1 hrun
  obtain ⟨rfl, -⟩ := Prod.mk.inj (Option.some.inj hd)
  rw [run_word] at hw
  obtain ⟨⟨x, rest⟩, hcut, hw⟩ := Option.map_eq_some_iff.1 hw
  obtain ⟨rfl, -⟩ := Prod.mk.inj hw
  have hx : IsSymbol x := isSymbol_of_cut hcut (cut_eq_none hregister) (cut_eq_none hnull) (cut_eq_none hblock)
  simpa [ArgDecl.IsSpelled] using hx

structure MethodDecl.IsSpelled (d : MethodDecl) : Prop where
  name : Spelled cutMethodName d.name.toList
  args : ∀ b ∈ d.blocks, ∀ q ∈ b.quads, ∀ a ∈ q.args, a.IsSpelled

theorem yields_quad : Yields quad fun d => ∀ a ∈ d.args, a.IsSpelled := by
  refine Yields.rule (Yields.of_bind fun _ => .of_bind fun _ => .of_bind fun _ => .of_bind fun _ =>
    .of_bind fun _ => .of_bind fun _ => .bind (.optional (.commaList yields_arg)) fun o ho => .pure ?_)
  cases o with
  | none => simp
  | some ds => exact ho ds rfl

theorem yields_block : Yields block fun d => ∀ q ∈ d.quads, ∀ a ∈ q.args, a.IsSpelled :=
  Yields.rule (Yields.of_bind fun _ => .of_bind fun _ => .of_bind fun _ => .of_bind fun _ =>
    .of_bind fun _ => .of_bind fun _ => .bind (.many yields_quad) fun _ hqs => .pure hqs)

theorem yields_method : Yields method MethodDecl.IsSpelled :=
  Yields.rule (Yields.of_bind fun _ => .of_bind fun _ => .bind (.word spelled_cutMethodName) fun _ hname =>
    .of_bind fun _ => .of_bind fun _ => .of_bind fun _ => .of_bind fun _ => .of_bind fun _ =>
      .of_bind fun _ => .of_bind fun _ => .of_bind fun _ => .of_bind fun _ => .of_bind fun _ =>
        .of_bind fun _ => .bind (.many yields_block) fun _ hbs =>
          .of_bind fun _ => .of_bind fun _ => .pure ⟨hname, hbs⟩)

theorem yields_program : Yields program fun ds => ∀ d ∈ ds, d.IsSpelled :=
  Yields.rule (Yields.of_bind fun _ => .bind (.many yields_method) fun _ hds =>
    .of_bind fun _ => .of_bind fun _ => .pure hds)

/-! ### Sequences that may fail -/

theorem mapM_ok_iff {ε α β : Type} {f : α → Except ε β} {as : List α} {bs : List β} :
    as.mapM f = .ok bs ↔ List.Forall₂ (fun a b => f a = .ok b) as bs := by
  induction as generalizing bs with
  | nil =>
    rw [List.forall₂_nil_left_iff]
    exact ⟨fun h => (Except.ok.inj h).symm, fun h => by rw [h]; rfl⟩
  | cons a as ih =>
    rw [List.forall₂_cons_left_iff, List.mapM_cons]
    constructor
    · intro h
      obtain ⟨b, hb, h⟩ := bind_eq_ok h
      obtain ⟨bs', hbs, h⟩ := bind_eq_ok h
      exact ⟨b, bs', hb, ih.1 hbs, (Except.ok.inj h).symm⟩
    · rintro ⟨b, bs', hb, hbs, rfl⟩
      rw [hb, ih.2 hbs]
      rfl

theorem exists_of_forall₂ {α β : Type} {R : α → β → Prop} {as : List α} {bs : List β}
    (h : List.Forall₂ R as bs) {b : β} (hb : b ∈ bs) : ∃ a ∈ as, R a b := by
  induction h with
  | nil => cases hb
  | @cons a b' as bs hab _ ih =>
    obtain rfl | hb := List.mem_cons.1 hb
    · exact ⟨a, List.mem_cons_self, hab⟩
    · obtain ⟨a', ha', hab'⟩ := ih hb
      exact ⟨a', List.mem_cons_of_mem a ha', hab'⟩

theorem forall₂_of_mem {α β : Type} {R S : α → β → Prop} {as : List α} {bs : List β}
    (h : List.Forall₂ R as bs) (hRS : ∀ a, ∀ b ∈ bs, R a b → S a b) : List.Forall₂ S as bs := by
  induction h with
  | nil => exact .nil
  | cons hab _ ih =>
    obtain ⟨hb, hbs⟩ : (∀ a, R a _ → S a _) ∧ ∀ a, ∀ b ∈ _, R a b → S a b :=
      ⟨fun a => hRS a _ List.mem_cons_self, fun a b hb => hRS a b (List.mem_cons_of_mem _ hb)⟩
    exact .cons (hb _ hab) (ih hbs)

theorem foldlM_ok {ε α β : Type} {I : β → Prop} {f : β → α → Except ε β} {as : List α}
    (hstep : ∀ a ∈ as, ∀ {s s'}, I s → f s a = .ok s' → I s') {s s' : β} (hs : I s)
    (h : as.foldlM f s = .ok s') : I s' := by
  induction as generalizing s with
  | nil =>
    obtain rfl := Except.ok.inj h
    exact hs
  | cons a as ih =>
    rw [List.foldlM_cons] at h
    obtain ⟨s₁, hs₁, h⟩ := bind_eq_ok h
    obtain ⟨ha, hstep⟩ := List.forall_mem_cons.1 hstep
    exact ih hstep (ha hs hs₁) h

theorem inMethod_ok {α : Type} {g : Graph} {x : Except FlowError α} {a : α} (h : inMethod g x = .ok a) :
    x = .ok a := by
  cases x with
  | error e => cases h
  | ok b => exact congrArg Except.ok (Except.ok.inj h)

/-! ### What is made of it -/

/-- The quads of a block are written with blocks among `known`, and jump along the edges of the block. -/
def Carries (known : List BlockId) (k : Block) : Prop :=
  ∀ q ∈ k.quads, IsWritten known q ∧ q.id < UInt32.size ∧ ∀ t ∈ q.op.target?, t ∈ k.successors

/-- The graphs that quad files tell. -/
structure IsLowered (g : Graph) : Prop where
  wellFormed : g.WellFormed
  nextBlock : g.nextBlock = 2
  blockIds : ∃ bs, g.blockIds = .entry :: .exit :: bs
  index_lt : ∀ b ∈ g.blockIds, b.index < UInt32.size
  params_lt : g.method.params < UInt64.size
  name : Spelled cutMethodName g.method.name.toList
  carries : ∀ e ∈ g.blocks, Carries g.blockIds e.2

theorem IsWritten.mono {known known' : List BlockId} {q : Quad} (h : IsWritten known q)
    (hk : known ⊆ known') : IsWritten known' q := by
  obtain ⟨args, hs, hb, hop⟩ := h
  exact ⟨args, hs, fun b hm => hk (hb b hm), hop⟩

namespace IsLowered

variable {g g' : Graph} {b t : BlockId}

theorem isLegible (h : IsLowered g) : IsLegible g := ⟨h.name, fun e he q hq => (h.carries e he q hq).1⟩

theorem of_ofMethod {m : Method} (hname : Spelled cutMethodName m.name.toList)
    (hparams : m.params < UInt64.size) : IsLowered (Graph.ofMethod m) := by
  refine ⟨.of_ofMethod m, rfl, ⟨[], rfl⟩, ?_, hparams, hname, ?_⟩
  · show ∀ b ∈ [BlockId.entry, BlockId.exit], b.index < UInt32.size
    decide
  · show ∀ e ∈ [(BlockId.entry, Block.empty .entry), (.exit, .empty .exit)], _
    simp [Carries, Block.empty]

theorem insertBlock (h : IsLowered g) (hb : b.index < UInt32.size) (hg : g.insertBlock b = .ok g') :
    IsLowered g' := by
  have hwf := h.wellFormed.insertBlock hg
  obtain ⟨-, rfl⟩ := Graph.insertBlock_ok_iff.1 hg
  have hids : Graph.blockIds { g with blocks := g.blocks ++ [(b, .empty b)] } = g.blockIds ++ [b] := by
    simp [Graph.blockIds]
  obtain ⟨bs, hbs⟩ := h.blockIds
  refine ⟨hwf, h.nextBlock, ⟨bs ++ [b], ?_⟩, ?_, h.params_lt, h.name, ?_⟩
  · rw [hids, hbs]
    rfl
  · rw [hids]
    intro c hc
    obtain hc | hc := List.mem_append.1 hc
    · exact h.index_lt c hc
    · rwa [List.mem_singleton.1 hc]
  · rw [hids]
    intro e he
    obtain he | he := List.mem_append.1 he
    · intro q hq
      obtain ⟨hw, hrest⟩ := h.carries e he q hq
      exact ⟨hw.mono (List.subset_append_left _ _), hrest⟩
    · rw [List.mem_singleton.1 he]
      simp [Carries, Block.empty]

theorem modifyBlock (h : IsLowered g) {f : Block → Block} (hwf : (g.modifyBlock b f).WellFormed)
    (hf : ∀ k, (b, k) ∈ g.blocks → Carries g.blockIds (f k)) : IsLowered (g.modifyBlock b f) := by
  refine ⟨hwf, h.nextBlock, ?_, ?_, h.params_lt, h.name, ?_⟩
  · rw [Graph.blockIds_modifyBlock]
    exact h.blockIds
  · rw [Graph.blockIds_modifyBlock]
    exact h.index_lt
  · rw [Graph.blockIds_modifyBlock]
    intro e he
    obtain ⟨k, hk, he⟩ := Graph.mem_modifyBlock.1 he
    rw [he]
    split
    · next hb =>
      rw [hb] at hk
      exact hf k hk
    · exact h.carries _ hk

theorem addEdge (h : IsLowered g) (hg : g.addEdge b t = .ok g') : IsLowered g' := by
  have hwf := h.wellFormed.addEdge hg
  obtain ⟨-, -, -, -, rfl⟩ := Graph.addEdge_ok_iff.1 hg
  refine h.modifyBlock hwf fun k hk q hq => ?_
  obtain ⟨hw, hid, ht⟩ := h.carries _ hk q hq
  exact ⟨hw, hid, fun s hs => Block.mem_addSuccessor.2 (.inl (ht s hs))⟩

theorem pushQuad (h : IsLowered g) {q : Quad} (hw : IsWritten g.blockIds q) (hid : q.id < UInt32.size)
    (ht : ∀ t ∈ q.op.target?, ∀ k, (b, k) ∈ g.blocks → t ∈ k.successors) (hg : g.pushQuad b q = .ok g') :
    IsLowered g' := by
  have hwf := h.wellFormed.pushQuad hg
  obtain ⟨-, -, -, rfl⟩ := Graph.pushQuad_ok_iff.1 hg
  refine h.modifyBlock hwf fun k hk q' hq' => ?_
  obtain hq' | hq' := List.mem_append.1 hq'
  · exact h.carries _ hk q' hq'
  · rw [List.mem_singleton.1 hq']
    exact ⟨hw, hid, fun t hm => ht t hm k hk⟩

end IsLowered

section

variable {text : List Char} {g g' : Graph} {b : BlockId} {w : Word}

theorem lt_of_readBelow {limit n : Nat} {s : List Char} (h : readBelow limit s = some n) : n < limit := by
  simp only [readBelow] at h
  split at h
  · next hlt =>
    obtain rfl := Option.some.inj h
    exact hlt
  · cases h

theorem number_lt {limit n : Nat} (h : number text limit w = .ok n) : n < limit := by
  rw [number] at h
  split at h
  · next m hm =>
    obtain rfl := Except.ok.inj h
    exact lt_of_readBelow hm
  · cases h

theorem blockId_index_lt (h : blockId text w = .ok b) : b.index < UInt32.size := by
  rw [blockId] at h
  split at h
  · obtain rfl := Except.ok.inj h
    decide
  · split at h
    · obtain rfl := Except.ok.inj h
      decide
    · split at h
      · next m hm =>
        obtain rfl := Except.ok.inj h
        exact lt_of_readBelow hm
      · cases h

theorem mem_of_declaredBlock (h : declaredBlock text g w = .ok b) : b ∈ g.blockIds := by
  obtain ⟨c, -, h⟩ := bind_eq_ok h
  split at h
  · next hc =>
    obtain rfl := Except.ok.inj h
    exact Graph.hasBlock_iff.1 hc
  · cases h

theorem argOf_ok {d : ArgDecl} {a : Arg} (hd : d.IsSpelled) (h : argOf text g d = .ok a) :
    a.IsSpelled ∧ ∀ c, a = .block c → c ∈ g.blockIds := by
  cases d with
  | register r =>
    obtain rfl := Except.ok.inj h
    exact ⟨hd, fun c hc => by cases hc⟩
  | null =>
    obtain rfl := Except.ok.inj h
    exact ⟨trivial, fun c hc => by cases hc⟩
  | integer w =>
    simp only [argOf] at h
    split at h
    · obtain rfl := Except.ok.inj h
      exact ⟨trivial, fun c hc => by cases hc⟩
    · cases h
  | block w =>
    obtain ⟨c, hc, h⟩ := bind_eq_ok h
    obtain rfl := Except.ok.inj h
    refine ⟨trivial, fun c' hc' => ?_⟩
    obtain rfl := Arg.block.inj hc'
    exact mem_of_declaredBlock hc
  | symbol s =>
    obtain rfl := Except.ok.inj h
    exact ⟨hd, fun c hc => by cases hc⟩

theorem quadOf_ok {d : QuadDecl} {q : Quad} (hd : ∀ a ∈ d.args, a.IsSpelled)
    (h : quadOf text g d = .ok q) : IsWritten g.blockIds q ∧ q.id < UInt32.size := by
  obtain ⟨id, hid, h⟩ := bind_eq_ok h
  obtain ⟨args, hargs, h⟩ := bind_eq_ok h
  have hall : ∀ a ∈ args, a.IsSpelled ∧ ∀ c, a = .block c → c ∈ g.blockIds := by
    intro a ha
    obtain ⟨a', ha', harg⟩ := exists_of_forall₂ (mapM_ok_iff.1 hargs) ha
    exact argOf_ok (hd a' ha') harg
  split at h
  · next op hop =>
    obtain rfl := Except.ok.inj h
    refine ⟨⟨args, fun a ha => (hall a ha).1, fun c hc => (hall _ hc).2 c rfl, ?_⟩, number_lt hid⟩
    rw [(operatorOf_writtenWith hop).1]
    exact hop
  · cases h
  · cases h

theorem IsLowered.addQuad (hg : IsLowered g) {block : BlockDecl} {d : QuadDecl}
    (hd : ∀ a ∈ d.args, a.IsSpelled) (h : addQuad text b block g d = .ok g') : IsLowered g' := by
  obtain ⟨q, hq, h⟩ := bind_eq_ok h
  obtain ⟨hw, hid⟩ := quadOf_ok hd hq
  split at h
  · cases h
  split at h
  · cases h
  cases htarget : q.op.target? with
  | none =>
    rw [htarget] at h
    refine hg.pushQuad hw hid (fun t ht => ?_) (inMethod_ok h)
    rw [htarget] at ht
    cases ht
  | some t =>
    rw [htarget] at h
    obtain ⟨g₁, hg₁, h⟩ := bind_eq_ok h
    have hedge := inMethod_ok hg₁
    have hlow := hg.addEdge hedge
    obtain ⟨-, -, -, -, rfl⟩ := Graph.addEdge_ok_iff.1 hedge
    rw [← Graph.blockIds_modifyBlock] at hw
    refine hlow.pushQuad hw hid (fun t' ht' k hk => ?_) (inMethod_ok h)
    rw [htarget] at ht'
    obtain rfl := Option.some.inj ht'
    obtain ⟨k', -, hk'⟩ := Graph.mem_modifyBlock.1 hk
    have hk' : k = k'.addSuccessor t := hk'.trans (if_pos rfl)
    rw [hk']
    exact Block.mem_addSuccessor.2 (.inr rfl)

theorem IsLowered.addBlocks {seen bs : List BlockId} {ds : List BlockDecl} (hg : IsLowered g)
    (h : addBlocks text g seen ds = .ok (bs, g')) : IsLowered g' := by
  induction ds generalizing g seen bs with
  | nil =>
    obtain ⟨-, rfl⟩ := Prod.mk.inj (Except.ok.inj h)
    exact hg
  | cons d ds ih =>
    obtain ⟨c, hc, h⟩ := bind_eq_ok h
    split at h
    · cases h
    split at h
    · obtain ⟨g₀, hg₀, h⟩ := bind_eq_ok h
      obtain rfl := Except.ok.inj hg₀
      obtain ⟨⟨bs', g₁⟩, hrest, h⟩ := bind_eq_ok h
      obtain ⟨-, rfl⟩ := Prod.mk.inj (Except.ok.inj h)
      exact ih hg hrest
    · obtain ⟨g₀, hg₀, h⟩ := bind_eq_ok h
      obtain ⟨⟨bs', g₁⟩, hrest, h⟩ := bind_eq_ok h
      obtain ⟨-, rfl⟩ := Prod.mk.inj (Except.ok.inj h)
      exact ih (hg.insertBlock (blockId_index_lt hc) (inMethod_ok hg₀)) hrest

theorem IsLowered.addListedEdges {d : BlockDecl} (hg : IsLowered g)
    (h : addListedEdges text g b d = .ok g') : IsLowered g' := by
  refine foldlM_ok (fun w _ {g₁ g₂} hg₁ h => ?_) hg h
  obtain ⟨t, -, h⟩ := bind_eq_ok h
  exact hg₁.addEdge (inMethod_ok h)

theorem isLowered_of_toGraph {d : MethodDecl} (hd : d.IsSpelled) (h : d.toGraph text = .ok g) :
    IsLowered g := by
  obtain ⟨params, hparams, h⟩ := bind_eq_ok h
  obtain ⟨⟨bs, g₁⟩, hblocks, h⟩ := bind_eq_ok h
  obtain ⟨g₂, hedges, h⟩ := bind_eq_ok h
  have h₁ : IsLowered g₁ := (IsLowered.of_ofMethod hd.name (number_lt hparams)).addBlocks hblocks
  have h₂ : IsLowered g₂ := foldlM_ok (fun e _ {_ _} hg h => hg.addListedEdges h) h₁ hedges
  refine foldlM_ok (fun e he {_ _} hg h => ?_) h₂ h
  have hblock : e.2 ∈ d.blocks := (List.of_mem_zip he).2
  exact foldlM_ok (fun q hq {_ _} hg h => hg.addQuad (hd.args e.2 hblock q hq) h) hg h

end

/-- Every graph that a quad file makes is of this kind. -/
theorem isLowered_of_graphs {text : String} {gs : List Graph} (h : graphs text = .ok gs) {g : Graph}
    (hg : g ∈ gs) : IsLowered g := by
  simp only [graphs, Parser.parse] at h
  cases hrun : program.run ⟨0, text.toList⟩ with
  | none =>
    rw [hrun] at h
    cases h
  | some x =>
    rw [hrun] at h
    obtain ⟨d, hd, hgraph⟩ := exists_of_forall₂ (mapM_ok_iff.1 h) hg
    exact isLowered_of_toGraph (yields_program _ _ x.2 hrun d hd) hgraph

end Source

end Dataflow
