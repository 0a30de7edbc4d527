import Dataflow.Proofs.Source.Graphs

/-!
# Printing undoes reading

The words of a graph that a quad file makes, written in any layout, are read as that graph
(`graphs_of_layout`). The declaration that is read describes the graph (`exists_run_program`); what is left is that a
declaration makes the graph that it describes (`MethodDecl.Describes.toGraph_eq`). The graph is built in stages,
each of which completes the blocks one after another: first they are empty, then they have their edges, then
their quads.
-/

namespace Dataflow

namespace Block

variable {k : Block} {t : BlockId}

/-- The block with other quads. -/
def withQuads (k : Block) (qs : List Quad) : Block := { k with quads := qs }

/-- An edge that is there already changes nothing. -/
theorem addSuccessor_of_mem (ht : t ∈ k.successors) (hf : k.fallthrough = k.successors.head?) :
    k.addSuccessor t = k := by
  obtain ⟨id, quads, successors, fallthrough⟩ := k
  obtain rfl : fallthrough = successors.head? := hf
  cases successors with
  | nil => cases ht
  | cons s ss =>
    have ht : t ∈ s :: ss := ht
    simp [addSuccessor, ht]

/-- Edges that are added one by one come in order, the first one as the fallthrough. -/
theorem foldl_addSuccessor (b : BlockId) (before : List BlockId) {ss : List BlockId} (hd : (before ++ ss).Nodup) :
    ss.foldl addSuccessor ⟨b, [], before, before.head?⟩ = ⟨b, [], before ++ ss, (before ++ ss).head?⟩ := by
  induction ss generalizing before with
  | nil => rw [List.append_nil]; rfl
  | cons s ss ih =>
    have hs : s ∉ before := fun hm => (List.nodup_append.1 hd).2.2 s hm s List.mem_cons_self rfl
    have hstep : addSuccessor ⟨b, [], before, before.head?⟩ s = ⟨b, [], before ++ [s], (before ++ [s]).head?⟩ := by
      cases before with
      | nil => rfl
      | cons c before => simp [addSuccessor, hs]
    rw [List.append_cons] at hd
    rw [List.foldl_cons, hstep, ih _ hd, List.append_assoc]
    rfl

end Block

namespace Graph

variable {g : Graph} {l₁ l₂ : List (BlockId × Block)} {b t : BlockId} {k : Block}

/-- The graph with the block `k` between others. -/
def focus (g : Graph) (l₁ : List (BlockId × Block)) (b : BlockId) (k : Block) (l₂ : List (BlockId × Block)) :
    Graph :=
  { g with blocks := l₁ ++ (b, k) :: l₂ }

theorem blockIds_focus : (g.focus l₁ b k l₂).blockIds = l₁.map (·.1) ++ b :: l₂.map (·.1) := by
  simp [focus, blockIds]

theorem modifyBlock_focus (hd : (g.focus l₁ b k l₂).blockIds.Nodup) (f : Block → Block) :
    (g.focus l₁ b k l₂).modifyBlock b f = g.focus l₁ b (f k) l₂ :=
  congrArg (fun bs => { g with blocks := bs }) (blocks_modifyBlock hd rfl f)

end Graph

namespace Source

variable {text : List Char} {g : Graph} {b : BlockId} {w : Word}

theorem inMethod_eq {α : Type} {x : Except FlowError α} {a : α} (h : x = .ok a) :
    inMethod g x = .ok a := by
  rw [h]
  rfl

theorem target_of_isConditional {o : Operator} (h : o.isConditional = true) : ∃ t, o.target? = some t := by
  cases o
  case ifCmp t => exact ⟨t, rfl⟩
  all_goals cases h

/-! ### Numbers, blocks and arguments -/

theorem number_eq {n limit : Nat} (hw : w.text = toString n) (h : n < limit) :
    number text limit w = .ok n := by
  rw [number, hw, readBelow_toString h]

theorem blockId_eq (hw : w.text = b.text) (h : b.index < UInt32.size) : blockId text w = .ok b := by
  rw [blockId, hw, BlockId.text]
  by_cases he : b = .entry
  · rw [if_pos he, if_pos rfl, he]
  · by_cases hx : b = .exit
    · rw [if_neg he, if_pos hx, if_neg (by decide), if_pos rfl, hx]
    · have hlist : ("bb" ++ toString b.index).toList = 'b' :: 'b' :: (toString b.index).toList := by
        rw [String.toList_append]
        rfl
      have hne : ∀ s : String, s.toList.head? = some 'e' → "bb" ++ toString b.index ≠ s := by
        intro s hs heq
        rw [← heq, hlist] at hs
        cases hs
      rw [if_neg he, if_neg hx, if_neg (hne "entry" rfl), if_neg (hne "exit" rfl), hlist]
      simp only [List.drop_succ_cons, List.drop_zero, readBelow_toString h]

theorem declaredBlock_eq (hw : w.text = b.text) (h : b.index < UInt32.size) (hb : b ∈ g.blockIds) :
    declaredBlock text g w = .ok b := by
  rw [declaredBlock, blockId_eq hw h]
  show (if g.hasBlock b then Except.ok b else _) = _
  rw [if_pos (Graph.hasBlock_iff.2 hb)]

theorem argOf_eq {d : ArgDecl} {a : Arg} (h : d.Writes a) (hlt : ∀ c ∈ g.blockIds, c.index < UInt32.size)
    (hb : ∀ c, a = .block c → c ∈ g.blockIds) : argOf text g d = .ok a := by
  cases h with
  | register r => rfl
  | null => rfl
  | integer hw =>
    rw [argOf, hw, readInt32_toString]
  | block hw =>
    have hc := hb _ rfl
    rw [argOf, declaredBlock_eq hw (hlt _ hc) hc]
    rfl
  | symbol s => rfl

theorem mapM_argOf_eq {ds : List ArgDecl} {args : List Arg} (h : List.Forall₂ ArgDecl.Writes ds args)
    (hlt : ∀ c ∈ g.blockIds, c.index < UInt32.size) (hb : ∀ c, Arg.block c ∈ args → c ∈ g.blockIds) :
    ds.mapM (argOf text g) = .ok args := by
  refine mapM_ok_iff.2 (forall₂_of_mem h fun d a ha hd => argOf_eq hd hlt fun c hc => ?_)
  subst hc
  exact hb c ha

theorem QuadDecl.Describes.quadOf_eq {d : QuadDecl} {q : Quad} (h : d.Describes g.blockIds q)
    (hlt : ∀ c ∈ g.blockIds, c.index < UInt32.size) (hid : q.id < UInt32.size) :
    quadOf text g d = .ok q := by
  obtain ⟨args, hargs, hb, hop⟩ := h.args
  rw [quadOf, number_eq h.id_eq hid, mapM_argOf_eq hargs hlt hb]
  simp only [bind, Except.bind, h.opcode_eq, hop]
  rfl

/-! ### Blocks -/

/-- Blocks that are not there yet are appended, empty and in order. -/
theorem addBlocks_eq {ds : List BlockDecl} {bs seen : List BlockId}
    (h : List.Forall₂ (fun d b => d.name.text = BlockId.text b) ds bs)
    (hlt : ∀ b ∈ bs, b.index < UInt32.size) (hd : bs.Nodup) (hseen : ∀ b ∈ bs, b ∉ seen)
    (hnew : ∀ b ∈ bs, b.isPseudo = false → b ∉ g.blockIds) :
    addBlocks text g seen ds = .ok (bs, { g with
      blocks := g.blocks ++ (bs.filter (!·.isPseudo)).map fun b => (b, .empty b) }) := by
  induction h generalizing g seen with
  | nil => simp [addBlocks]
  | @cons d b ds bs hname _ ih =>
    obtain ⟨hb, hlt⟩ := List.forall_mem_cons.1 hlt
    obtain ⟨hnot, hd⟩ := List.nodup_cons.1 hd
    obtain ⟨hbs, hseen⟩ := List.forall_mem_cons.1 hseen
    obtain ⟨hbnew, hnew⟩ := List.forall_mem_cons.1 hnew
    have hseen' : ∀ c ∈ bs, c ∉ b :: seen := by
      intro c hc hm
      obtain rfl | hm := List.mem_cons.1 hm
      · exact hnot hc
      · exact hseen c hc hm
    rw [addBlocks, blockId_eq hname hb]
    show (if b ∈ seen then _ else _) = _
    rw [if_neg hbs]
    cases hp : b.isPseudo with
    | true =>
      have hrest := ih hlt hd hseen' hnew
      simp only [if_true]
      show ((addBlocks text g (b :: seen) ds) >>= _) = _
      rw [hrest]
      simp [hp]
    | false =>
      have hinsert := Graph.insertBlock_ok_iff.2 ⟨hbnew hp, rfl⟩
      have hnew' : ∀ c ∈ bs, c.isPseudo = false →
          c ∉ Graph.blockIds { g with blocks := g.blocks ++ [(b, .empty b)] } := by
        intro c hc hcp hm
        rw [Graph.blockIds, List.map_append, List.mem_append] at hm
        obtain hm | hm := hm
        · exact hnew c hc hcp hm
        · obtain rfl := List.mem_singleton.1 hm
          exact hnot hc
      have hrest := ih hlt hd hseen' hnew'
      simp only [Bool.false_eq_true, if_false]
      rw [inMethod_eq hinsert]
      show ((addBlocks text _ (b :: seen) ds) >>= _) = _
      rw [hrest]
      simp [hp]

/-! ### One block among others -/

/-- A block that fits into a graph with the blocks `known`, between `l₁` and `l₂`. -/
structure Placed (known : List BlockId) (l₁ : List (BlockId × Block)) (b : BlockId) (k : Block)
    (l₂ : List (BlockId × Block)) : Prop where
  ids : l₁.map (·.1) ++ b :: l₂.map (·.1) = known
  nodup : known.Nodup
  index_lt : ∀ c ∈ known, c.index < UInt32.size
  fits : k.Fits known b

section

variable {known : List BlockId} {l₁ l₂ : List (BlockId × Block)} {k k' : Block}

namespace Placed

theorem blockIds_eq (hk : Placed known l₁ b k l₂) : (g.focus l₁ b k' l₂).blockIds = known :=
  Graph.blockIds_focus.trans hk.ids

theorem mem (hk : Placed known l₁ b k l₂) : b ∈ known := by
  rw [← hk.ids]
  simp

theorem ne_exit (hk : Placed known l₁ b k l₂) {t : BlockId} (ht : t ∈ k.successors) : b ≠ .exit := by
  intro he
  rw [hk.fits.exit_eq he] at ht
  cases ht

theorem modifyBlock_eq (hk : Placed known l₁ b k l₂) (f : Block → Block) :
    (g.focus l₁ b k' l₂).modifyBlock b f = g.focus l₁ b (f k') l₂ := by
  refine Graph.modifyBlock_focus ?_ f
  rw [hk.blockIds_eq]
  exact hk.nodup

theorem addEdge_eq (hk : Placed known l₁ b k l₂) {t : BlockId} (ht : t ∈ k.successors) :
    (g.focus l₁ b k' l₂).addEdge b t = .ok (g.focus l₁ b (k'.addSuccessor t) l₂) := by
  rw [Graph.addEdge_ok_iff, hk.blockIds_eq, hk.modifyBlock_eq]
  exact ⟨hk.ne_exit ht, hk.fits.ne_entry t ht, hk.fits.known t ht, hk.mem, rfl⟩

/-- The edges that are listed are added in order. -/
theorem addEdges_eq (hk : Placed known l₁ b k l₂) {ws : List Word} {ss : List BlockId}
    (h : List.Forall₂ (fun (w : Word) (s : BlockId) => w.text = s.text) ws ss) (hss : ss ⊆ k.successors) :
    ws.foldlM (fun g w => do inMethod g (g.addEdge b (← declaredBlock text g w))) (g.focus l₁ b k' l₂) =
      .ok (g.focus l₁ b (ss.foldl Block.addSuccessor k') l₂) := by
  induction h generalizing k' with
  | nil => rfl
  | @cons w s ws ss hw _ ih =>
    obtain ⟨hs, hss⟩ := List.cons_subset.1 hss
    have hknown : s ∈ known := hk.fits.known s hs
    rw [List.foldlM_cons, declaredBlock_eq hw (hk.index_lt s hknown) (by rwa [hk.blockIds_eq])]
    show (inMethod _ _ >>= _) = _
    rw [inMethod_eq (hk.addEdge_eq hs)]
    exact ih hss

theorem quadOrder_eq (hl₂ : l₂.flatMap (·.2.quads) = []) :
    (g.focus l₁ b k l₂).quadOrder = (l₁.flatMap (·.2.quads) ++ k.quads).map (·.id) := by
  simp [Graph.quadOrder, Graph.quads, Graph.focus, hl₂]

theorem addQuad_eq (hk : Placed known l₁ b k l₂) {block : BlockDecl} {d : QuadDecl} {q : Quad}
    {qs : List Quad} (hq : d.Describes known q) (hid : q.id < UInt32.size) (hb : b.isPseudo = false)
    (ht : ∀ t ∈ q.op.target?, t ∈ k.successors) (hlist : block.successors = [] → k.successors = [])
    (hfresh : q.id ∉ (l₁.flatMap (·.2.quads) ++ qs).map (·.id)) (hl₂ : l₂.flatMap (·.2.quads) = []) :
    addQuad text b block (g.focus l₁ b (k.withQuads qs) l₂) d =
      .ok (g.focus l₁ b (k.withQuads (qs ++ [q])) l₂) := by
  have hids : (g.focus l₁ b (k.withQuads qs) l₂).blockIds = known := hk.blockIds_eq
  have hnot : q.id ∉ (g.focus l₁ b (k.withQuads qs) l₂).quadOrder := by
    rw [quadOrder_eq hl₂]
    exact hfresh
  have hquad : quadOf text (g.focus l₁ b (k.withQuads qs) l₂) d = .ok q := by
    refine QuadDecl.Describes.quadOf_eq ?_ ?_ hid
    · rwa [hids]
    · rw [hids]
      exact hk.index_lt
  -- a branch jumps along an edge, so its block lists one
  have hcond : (q.op.isConditional && block.successors.isEmpty) = false := by
    by_contra h
    simp only [Bool.not_eq_false, Bool.and_eq_true, List.isEmpty_iff] at h
    obtain ⟨t, htarget⟩ := target_of_isConditional h.1
    have hm := ht t htarget
    rw [hlist h.2] at hm
    cases hm
  have hpush : (g.focus l₁ b (k.withQuads qs) l₂).pushQuad b q =
      .ok (g.focus l₁ b (k.withQuads (qs ++ [q])) l₂) := by
    rw [Graph.pushQuad_ok_iff, hids, hk.modifyBlock_eq]
    exact ⟨hb, hnot, hk.mem, rfl⟩
  rw [addQuad, hquad]
  show (if ((g.focus l₁ b (k.withQuads qs) l₂).quad? q.id).isSome then _ else _) = _
  rw [if_neg (fun h => hnot (Graph.quad?_isSome_iff.1 h)), hcond]
  cases htarget : q.op.target? with
  | none => exact inMethod_eq hpush
  | some t =>
    have hsame : (k.withQuads qs).addSuccessor t = k.withQuads qs :=
      Block.addSuccessor_of_mem (ht t htarget) hk.fits.fallthrough_eq
    show (inMethod _ _ >>= fun g => inMethod g (g.pushQuad b q)) = _
    rw [inMethod_eq (hk.addEdge_eq (ht t htarget)), hsame]
    exact inMethod_eq hpush

/-- The quads of a block are added in order. -/
theorem addQuads_eq (hk : Placed known l₁ b k l₂) {block : BlockDecl} {ds : List QuadDecl}
    {before qs : List Quad} (h : List.Forall₂ (·.Describes known ·) ds qs)
    (hq : ∀ q ∈ qs, q.id < UInt32.size ∧ ∀ t ∈ q.op.target?, t ∈ k.successors)
    (hb : b.isPseudo = true → qs = []) (hlist : block.successors = [] → k.successors = [])
    (hfresh : ((l₁.flatMap (·.2.quads) ++ (before ++ qs)).map (·.id)).Nodup)
    (hl₂ : l₂.flatMap (·.2.quads) = []) :
    ds.foldlM (addQuad text b block) (g.focus l₁ b (k.withQuads before) l₂) =
      .ok (g.focus l₁ b (k.withQuads (before ++ qs)) l₂) := by
  induction h generalizing before with
  | nil =>
    rw [List.append_nil]
    rfl
  | @cons d q ds qs hdesc _ ih =>
    obtain ⟨⟨hid, ht⟩, hq⟩ := List.forall_mem_cons.1 hq
    have hb : b.isPseudo = false := by
      by_contra he
      exact List.cons_ne_nil q qs (hb (by simpa using he))
    rw [List.append_cons] at hfresh ⊢
    have hnew : q.id ∉ (l₁.flatMap (·.2.quads) ++ before).map (·.id) := by
      intro hm
      rw [← List.append_assoc, ← List.append_assoc, List.append_assoc _ [q], List.map_append,
        List.nodup_append] at hfresh
      exact hfresh.2.2 q.id hm q.id (by simp) rfl
    rw [List.foldlM_cons, hk.addQuad_eq hdesc hid hb ht hlist hnew hl₂]
    exact ih hq (fun he => by rw [hb] at he; cases he) hfresh

end Placed

end

/-! ### All blocks, one after another -/

/-- A step that turns the block `B e` into `A e`, whatever the others, turns all blocks of a graph. -/
theorem foldlM_blocks {A B : BlockId × Block → Block} {R : BlockDecl → BlockId × Block → Prop}
    {step : Graph → BlockId × BlockDecl → Except ParseError Graph}
    (hstep : ∀ l₁ e l₂ d, g.blocks = l₁ ++ e :: l₂ → R d e →
      step (g.focus (l₁.map fun e => (e.1, A e)) e.1 (B e) (l₂.map fun e => (e.1, B e))) (e.1, d) =
        .ok (g.focus (l₁.map fun e => (e.1, A e)) e.1 (A e) (l₂.map fun e => (e.1, B e))))
    {ds : List BlockDecl} (h : List.Forall₂ R ds g.blocks) :
    (g.blockIds.zip ds).foldlM step { g with blocks := g.blocks.map fun e => (e.1, B e) } =
      .ok { g with blocks := g.blocks.map fun e => (e.1, A e) } := by
  have key : ∀ (todo : List (BlockId × Block)) (ds : List BlockDecl) (done : List (BlockId × Block)),
      List.Forall₂ R ds todo → g.blocks = done ++ todo →
        ((todo.map (·.1)).zip ds).foldlM step
          { g with blocks := (done.map fun e => (e.1, A e)) ++ todo.map fun e => (e.1, B e) } =
          .ok { g with blocks := g.blocks.map fun e => (e.1, A e) } := by
    intro todo ds done h
    induction h generalizing done with
    | nil =>
      intro hg
      rw [hg, List.append_nil, List.map_nil, List.append_nil]
      rfl
    | @cons d e ds todo hd _ ih =>
      intro hg
      rw [List.map_cons, List.map_cons, List.zip_cons_cons, List.foldlM_cons]
      have hone := hstep done e todo d hg hd
      have hrest := ih (done ++ [e]) (by rw [hg, List.append_assoc]; rfl)
      rw [List.map_append, List.append_assoc] at hrest
      show (step (g.focus _ e.1 (B e) _) (e.1, d) >>= _) = _
      rw [hone]
      exact hrest
  exact key g.blocks ds [] h rfl

theorem IsLowered.placed (hg : IsLowered g) {l₁ l₂ : List (BlockId × Block)} {e : BlockId × Block}
    (h : g.blocks = l₁ ++ e :: l₂) (A B : BlockId × Block → Block) :
    Placed g.blockIds (l₁.map fun e => (e.1, A e)) e.1 e.2 (l₂.map fun e => (e.1, B e)) := by
  refine ⟨?_, hg.wellFormed.blocks_nodup, hg.index_lt, hg.wellFormed.fits e (by simp [h])⟩
  simp [Graph.blockIds, h, Function.comp_def]

/-- The blocks are declared again, in the same order. -/
theorem MethodDecl.Describes.addBlocks_eq {d : MethodDecl} (hd : d.Describes g) (hg : IsLowered g) :
    addBlocks text (.ofMethod g.method) [] d.blocks =
      .ok (g.blockIds, { g with blocks := g.blocks.map fun e => (e.1, .empty e.1) }) := by
  have hnames : List.Forall₂ (fun (d : BlockDecl) b => d.name.text = BlockId.text b) d.blocks g.blockIds := by
    rw [Graph.blockIds, List.forall₂_map_right_iff]
    refine forall₂_of_mem hd.blocks fun d e he h => ?_
    rw [h.name_eq, hg.wellFormed.id_eq he]
  have hnew : ∀ b ∈ g.blockIds, b.isPseudo = false → b ∉ (Graph.ofMethod g.method).blockIds := by
    intro b _ hb hm
    have hm : b ∈ [BlockId.entry, BlockId.exit] := hm
    simp only [List.mem_cons, List.not_mem_nil, or_false] at hm
    obtain rfl | rfl := hm
    all_goals cases hb
  have hadd : addBlocks text (.ofMethod g.method) [] d.blocks = _ :=
    Source.addBlocks_eq hnames hg.index_lt hg.wellFormed.blocks_nodup (by simp) hnew
  rw [hadd]
  obtain ⟨bs, hbs⟩ := hg.blockIds
  have hdistinct := hg.wellFormed.blocks_nodup
  rw [hbs, List.nodup_cons, List.nodup_cons] at hdistinct
  obtain ⟨hentry, hexit, -⟩ := hdistinct
  have hfilter : g.blockIds.filter (!·.isPseudo) = bs := by
    rw [hbs, List.filter_cons_of_neg (by decide), List.filter_cons_of_neg (by decide), List.filter_eq_self]
    intro b hb
    have hne : b ≠ .entry := fun he => hentry (he ▸ List.mem_cons_of_mem _ hb)
    have hne' : b ≠ .exit := fun he => hexit (he ▸ hb)
    simp [BlockId.isPseudo, hne, hne']
  have hblocks : g.blocks.map (fun e => (e.1, Block.empty e.1)) =
      (Graph.ofMethod g.method).blocks ++ bs.map fun b => (b, .empty b) := by
    have hmap : g.blocks.map (fun e => (e.1, Block.empty e.1)) = g.blockIds.map fun b => (b, .empty b) := by
      simp [Graph.blockIds, Function.comp_def]
    rw [hmap, hbs]
    rfl
  rw [hfilter, hblocks, hg.nextBlock]
  rfl

/-- The declaration that describes a graph makes it. -/
theorem MethodDecl.Describes.toGraph_eq {d : MethodDecl} (hd : d.Describes g) (hg : IsLowered g) :
    d.toGraph text = .ok g := by
  have hmethod : (⟨d.name, g.method.params, d.isStatic⟩ : Method) = g.method := by
    rw [hd.name_eq, hd.isStatic_eq]
  have hedges : (g.blockIds.zip d.blocks).foldlM (fun g p => addListedEdges text g p.1 p.2)
      { g with blocks := g.blocks.map fun e => (e.1, .empty e.1) } =
      .ok { g with blocks := g.blocks.map fun e => (e.1, e.2.withQuads []) } := by
    refine foldlM_blocks (fun l₁ e l₂ d hsplit hdesc => ?_) hd.blocks
    have hk := hg.placed hsplit (fun e => e.2.withQuads []) fun e => .empty e.1
    have hblock : e.2.successors.foldl Block.addSuccessor (.empty e.1) = e.2.withQuads [] := by
      refine (Block.foldl_addSuccessor e.1 [] hk.fits.nodup).trans ?_
      rw [Block.withQuads, hk.fits.fallthrough_eq, hk.fits.id_eq]
      rfl
    rw [← hblock]
    exact hk.addEdges_eq hdesc.successors fun s hs => hs
  have hquads : (g.blockIds.zip d.blocks).foldlM
      (fun g p => p.2.quads.foldlM (addQuad text p.1 p.2) g)
      { g with blocks := g.blocks.map fun e => (e.1, e.2.withQuads []) } =
      .ok { g with blocks := g.blocks.map fun e => (e.1, e.2) } := by
    refine foldlM_blocks (fun l₁ e l₂ d hsplit hdesc => ?_) hd.blocks
    have hk := hg.placed hsplit (fun e => e.2) fun e => e.2.withQuads []
    have hfresh := hg.wellFormed.quads_nodup
    have hcarries := hg.carries e (by simp [hsplit])
    refine hk.addQuads_eq hdesc.quads (fun q hq => (hcarries q hq).2) hk.fits.quads_eq ?_ ?_ ?_
    · intro hnil
      have hsucc := hdesc.successors
      rw [hnil] at hsucc
      exact List.forall₂_nil_left_iff.1 hsucc
    · rw [Graph.quadOrder, Graph.quads, hsplit, List.flatMap_append, List.flatMap_cons, ← List.append_assoc,
        List.map_append] at hfresh
      rw [List.map_id', List.nil_append]
      exact (List.nodup_append.1 hfresh).1
    · rw [List.flatMap_map, List.flatMap_eq_nil_iff]
      intro e _
      rfl
  rw [MethodDecl.toGraph, number_eq hd.params_eq hg.params_lt]
  show (addBlocks text (.ofMethod ⟨d.name, g.method.params, d.isStatic⟩) [] d.blocks >>= _) = _
  rw [hmethod, hd.addBlocks_eq hg]
  refine (congrArg (fun x => x >>= fun g' => List.foldlM _ g' (g.blockIds.zip d.blocks)) hedges).trans ?_
  refine hquads.trans ?_
  rw [List.map_id']

/-! ### The result -/

/-- A graph of a quad file, written word by word in any layout, is read as the same graph and nothing
else. -/
theorem graphs_of_layout {text : String} {gs : List Graph} (h : graphs text = .ok gs) {g : Graph}
    (hg : g ∈ gs) {written : String} (hw : Layout g.tokens written.toList) :
    graphs written = .ok [g] := by
  have hlow : IsLowered g := isLowered_of_graphs h hg
  have hstarts : Starts g.tokens written.toList := hw.starts hlow.isLegible.solid
  obtain ⟨d, c, hrun, hd⟩ := exists_run_program hlow.isLegible hstarts
  have hparse : program.parse written = .ok [d] := by
    simp only [Parser.parse, hrun]
  rw [graphs, hparse]
  exact mapM_ok_iff.2 (.cons (hd.toGraph_eq hlow) .nil)

theorem layout_intercalate {sep t : String} (hsep : IsSeparator sep.toList) (ts : List String) :
    Layout (t :: ts) (sep.intercalate (t :: ts)).toList := by
  induction ts generalizing t with
  | nil => exact .last t
  | cons u ts ih =>
    rw [String.intercalate_cons_cons, String.toList_append, String.toList_append]
    exact .more t hsep ih

/-- A call of a name with slashes, and a branch to its own block. -/
def slashes : Graph := ⟨⟨"f", 1, false⟩,
  [(.entry, .empty .entry), (.exit, .empty .exit),
   (⟨2⟩, ⟨⟨2⟩, [⟨1, .invoke none "a//b" [.reg "R0"]⟩, ⟨2, .ifCmp .eq (.reg "R0") .null ⟨2⟩⟩],
    [.exit, ⟨2⟩], some .exit⟩)], 2⟩

theorem graphs_slashes : graphs
    "method f(1)\x7bbb2->exit:1:INVOKE void,a//b,R0 2:IFCMP_EQ R0,null,bb2\x7d" = .ok [slashes] := by
  decide +kernel

/-- Each word on a line of its own, with a comment that looks like a label. -/
theorem slashes_layout : graphs (" # 1:\n".intercalate slashes.tokens) = .ok [slashes] := by
  have hsep : IsSeparator " # 1:\n".toList := by
    have hcomment : Filler (['#'] ++ [' ', '1', ':'] ++ ['\n']) :=
      .comment (.inl rfl) (by simp) (.inl rfl) .nil
    exact ⟨' ', _, rfl, rfl, hcomment⟩
  exact graphs_of_layout graphs_slashes List.mem_cons_self (layout_intercalate hsep _)

end Source

end Dataflow
