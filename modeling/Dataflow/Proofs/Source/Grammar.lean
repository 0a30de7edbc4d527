import Dataflow.Proofs.Graph.WellFormed
import Dataflow.Proofs.Source.Operands
import Dataflow.Proofs.Source.Reading

/-!
# Reading the text of a graph

The grammar reads the words of a graph, whatever their layout, as a declaration that describes the graph
(`exists_run_program`). Its one look ahead, at the label of the next line, is told by `LineStart`: what the words
of a line cannot go on into.
-/

namespace Dataflow.Source

open Dataflow.Source.Parser

/-- Registers and symbols that are read as such; all other arguments are. -/
def Arg.IsSpelled : Arg → Prop
  | register r => Spelled cutRegister r.toList
  | symbol s => IsSymbol s.toList
  | _ => True

/-- The declared argument is written as `a` is. -/
inductive ArgDecl.Writes : ArgDecl → Arg → Prop
  | register (r : Register) : Writes (.register r) (.register r)
  | null : Writes .null .null
  | integer {w : Word} {v : Int32} (h : w.text = toString v.toInt) : Writes (.integer w) (.int v)
  | block {w : Word} {b : BlockId} (h : w.text = b.text) : Writes (.block w) (.block b)
  | symbol (s : String) : Writes (.symbol s) (.symbol s)

variable {a : Arg} {t : String} {us : List String} {c : Char} {x : List Char}

/-! ### First characters -/

theorem solid_of_isWordChar (hc : isWordChar c = true) (hne : c ≠ '/') : Solid (c :: x) := by
  refine ⟨c, rfl, ?_, ?_, hne⟩
  · by_contra hs
    simp only [isSpace, Bool.or_eq_true, decide_eq_true_eq, Bool.not_eq_false] at hs
    obtain ((rfl | rfl) | rfl) | rfl := hs
    all_goals cases hc
  · intro he
    subst he
    cases hc

theorem solid_of_isNameStart (hc : isNameStart c = true) : Solid (c :: x) := by
  refine solid_of_isWordChar (isWordChar_of_isNameStart hc) fun he => ?_
  subst he
  cases hc

theorem solid_of_isDigit (hc : c.isDigit = true) : Solid (c :: x) := by
  refine solid_of_isWordChar (isWordChar_of_isDigit hc) fun he => ?_
  subst he
  cases hc

theorem solid_toString (n : Nat) : Solid (toString n).toList := by
  obtain ⟨d, l, hl, hd⟩ := (spelled_toString n).cons
  rw [hl]
  exact solid_of_isDigit hd

theorem solid_blockText (b : BlockId) : Solid b.text.toList := by
  obtain ⟨c, l, hl, hc⟩ := blockText_cons b
  rw [hl]
  obtain rfl | rfl := hc
  · exact ⟨'e', rfl, by decide⟩
  · exact ⟨'b', rfl, by decide⟩

theorem register_cons (h : Spelled cutRegister x) : ∃ c l, x = c :: l ∧ (c = 'R' ∨ c = 'T') := by
  obtain ⟨c, l, hx, hc, -⟩ := cutRegister_eq_some h.cut_self
  exact ⟨c, l, hx, hc⟩

theorem Arg.IsSpelled.solid (h : a.IsSpelled) : Solid a.text.toList := by
  cases a with
  | register r =>
    obtain ⟨c, l, hl, hc⟩ := register_cons h
    rw [Arg.text, hl]
    obtain rfl | rfl := hc
    · exact ⟨'R', rfl, by decide⟩
    · exact ⟨'T', rfl, by decide⟩
  | int v =>
    rw [Arg.text]
    obtain ⟨-, hv⟩ | ⟨-, hv⟩ := toList_toString_int v.toInt
    · rw [hv]
      exact solid_toString _
    · rw [hv]
      exact ⟨'-', rfl, by decide⟩
  | null => exact ⟨'n', rfl, by decide⟩
  | block b => exact solid_blockText b
  | symbol s =>
    obtain ⟨c, l, hl, hc⟩ := h.spelled.cons
    rw [Arg.text, hl]
    exact solid_of_isNameStart hc

/-! ### Labels -/

theorem takes_quadId (n : Nat) : Takes quadId (toString n) fun w => w.text = toString n :=
  takes_word (spelled_toString n)

theorem takes_blockName (b : BlockId) : Takes blockName b.text fun w => w.text = b.text :=
  takes_word (spelled_blockText b)

theorem rejects_quadId_blockText (b : BlockId) : Rejects quadId b.text := by
  obtain ⟨c, l, hl, hc⟩ := blockText_cons b
  refine rejects_word_cons hl fun _ => cutDigits_eq_none ?_
  obtain rfl | rfl := hc
  · rfl
  · rfl

theorem reads_label_quad (n : Nat) : Reads label [toString n, ":"] (fun _ => True) us := by
  refine Takes.bind_skip (takes_quadId n).left fun _ _ => (Takes.right ?_ (takes_literal ":")).reads
  exact rejects_literal_cons rfl rfl (by decide)

theorem reads_label_block (b : BlockId) {m : String} (hm : m = "->" ∨ m = ":") :
    Reads label [b.text, m] (fun _ => True) us := by
  refine Takes.bind_skip (Takes.right (rejects_quadId_blockText b) (takes_blockName b)) fun _ _ => ?_
  obtain rfl | rfl := hm
  · exact (takes_literal "->").left.reads
  · exact (Takes.right (rejects_literal_cons rfl rfl (by decide)) (takes_literal ":")).reads

/-- A word that is no number and no block starts no label; a word that is one does so only before a mark. -/
theorem refuses_label (hus : Refuses (literal "->" <|> literal ":") us)
    (h : Rejects (quadId <|> blockName) t ∨ ∃ P, Takes (quadId <|> blockName) t P) :
    Refuses label (t :: us) := by
  obtain h | ⟨P, h⟩ := h
  · exact h.bind.refuses
  · exact h.refuses_bind_skip fun _ _ => hus

theorem Arg.IsSpelled.refuses_label (h : a.IsSpelled) (hus : Refuses (literal "->" <|> literal ":") us) :
    Refuses label (a.text :: us) := by
  refine Source.refuses_label hus ?_
  cases a with
  | register r =>
    obtain ⟨c, l, hl, hc⟩ := register_cons h
    refine .inl (.or (rejects_word_cons hl fun _ => cutDigits_eq_none ?_)
      (rejects_word_cons hl fun _ => cutBlockName_eq_none ?_ ?_))
    all_goals
      obtain rfl | rfl := hc
      all_goals decide
  | int v =>
    obtain ⟨-, hv⟩ | ⟨-, hv⟩ := toList_toString_int v.toInt
    · rw [Arg.text, hv]
      exact .inr ⟨_, (takes_quadId v.toInt.natAbs).left⟩
    · exact .inl (.or (rejects_word_cons hv fun _ => cutDigits_eq_none rfl)
        (rejects_word_cons hv fun _ => cutBlockName_eq_none (by decide) (by decide)))
  | null =>
    exact .inl (.or (rejects_word_cons rfl fun _ => cutDigits_eq_none rfl)
      (rejects_word_cons rfl fun _ => cutBlockName_eq_none (by decide) (by decide)))
  | block b => exact .inr ⟨_, Takes.right (rejects_quadId_blockText b) (takes_blockName b)⟩
  | symbol s =>
    obtain ⟨c, l, hl, hc⟩ := h.spelled.cons
    exact .inl (.or (rejects_word_cons hl fun _ => cutDigits_eq_none (ne_of_isNameStart hc).2)
      (rejects_word h.block))

/-! ### Arguments -/

theorem Arg.IsSpelled.reads (h : a.IsSpelled) (hus : Refuses (literal "->" <|> literal ":") us) :
    Reads arg [a.text] (·.Writes a) us := by
  refine Reads.of_notAhead (h.refuses_label hus) (Takes.reads ?_)
  cases a with
  | register r =>
    refine Takes.left (Takes.bind_pure (takes_word h) fun w hw => ?_)
    rw [hw]
    exact .register r
  | null =>
    refine Takes.right (rejects_word (local_cutRegister.foreign rfl)).bind (Takes.left ?_)
    exact (takes_word (local_cutNull.spelled rfl)).bind_pure fun _ _ => .null
  | int v =>
    have hcons : ∃ c l, (toString v.toInt).toList = c :: l ∧ (c = '-' ∨ c.isDigit = true) := by
      obtain ⟨-, hv⟩ | ⟨-, hv⟩ := toList_toString_int v.toInt
      · obtain ⟨d, l, hl, hd⟩ := (spelled_toString v.toInt.natAbs).cons
        rw [hv]
        exact ⟨d, l, hl, .inr hd⟩
      · exact ⟨'-', _, hv, .inl rfl⟩
    obtain ⟨c, l, hl, hc⟩ := hcons
    have hne : ∀ d : Char, d ≠ '-' → d.isDigit = false → c ≠ d := by
      intro d hm hd he
      subst he
      obtain rfl | hc := hc
      · exact hm rfl
      · rw [hd] at hc
        cases hc
    refine Takes.right (rejects_word_cons hl fun _ => cutRegister_eq_none ?_ ?_).bind
      (Takes.right (rejects_word_cons hl fun _ => cutNull_eq_none ?_).bind (Takes.left ?_))
    · exact hne 'R' (by decide) rfl
    · exact hne 'T' (by decide) rfl
    · exact hne 'n' (by decide) rfl
    · exact (takes_word (spelled_toString_int v.toInt)).bind_pure fun w hw => .integer hw
  | block b =>
    obtain ⟨c, l, hl, hc⟩ := blockText_cons b
    refine Takes.right (rejects_word_cons hl fun _ => cutRegister_eq_none ?_ ?_).bind
      (Takes.right (rejects_word_cons hl fun _ => cutNull_eq_none ?_).bind
        (Takes.right (rejects_word_cons hl fun _ => cutInteger_eq_none ?_ ?_).bind (Takes.left ?_)))
    case refine_6 => exact (takes_blockName b).bind_pure fun w hw => .block hw
    all_goals
      obtain rfl | rfl := hc
      all_goals decide
  | symbol s =>
    obtain ⟨c, l, hl, hc⟩ := h.spelled.cons
    obtain ⟨hm, hd⟩ := ne_of_isNameStart hc
    refine Takes.right (rejects_word h.register).bind (Takes.right (rejects_word h.null).bind
      (Takes.right (rejects_word_cons hl fun _ => cutInteger_eq_none hm hd).bind
        (Takes.right (rejects_word h.block).bind ?_)))
    refine (takes_word h.spelled).bind_pure fun w hw => ?_
    rw [hw]
    exact .symbol s

/-! ### Lists with commas -/

theorem intersperse_cons (s u : String) (l : List String) :
    (u :: l).intersperse s = u :: l.flatMap fun v => [s, v] := by
  induction l generalizing u with
  | nil => rfl
  | cons v l ih =>
    rw [List.intersperse_cons_cons, ih]
    rfl

theorem Reads.commaList {α β : Type} {p : Parser α} {R : α → β → Prop} {f : β → String}
    {N : List String → Prop} {bs : List β} (hp : ∀ b ∈ bs, ∀ vs, N vs → Reads p [f b] (R · b) vs)
    (hcomma : ∀ vs, N ("," :: vs)) (hus : N us) (hstop : Refuses (literal ",") us) (hne : bs ≠ []) :
    Reads (Source.commaList p) ((bs.map f).intersperse ",") (fun as => List.Forall₂ R as bs) us := by
  cases bs with
  | nil => exact absurd rfl hne
  | cons b bs =>
    obtain ⟨hb, hp⟩ := List.forall_mem_cons.1 hp
    have htokens : ((b :: bs).map f).intersperse "," = [f b] ++ bs.flatMap fun b => [",", f b] := by
      rw [List.map_cons, intersperse_cons, List.flatMap_map]
      rfl
    rw [htokens]
    refine Reads.bind_skip (hb _ (next_of_items (fun b _ vs => hcomma _) hus)) fun a ha => ?_
    refine Reads.bind_pure (Reads.many (N := N) (R := R) (fun _ => List.cons_ne_nil _ _) (fun b hb vs hvs => ?_)
      (fun b _ vs => hcomma _) hus hstop.bind) fun as has => .cons ha has
    exact Takes.bind_skip (takes_literal ",") fun _ _ => hp b hb vs hvs

/-! ### Lines -/

/-- The words `us` do not go on with the line before them. -/
structure LineStart (us : List String) : Prop where
  comma : Refuses (literal ",") us
  arg : Refuses arg us
  mark : Refuses (literal "->" <|> literal ":") us

theorem refuses_mark (ht : t.toList = c :: x) (hminus : c ≠ '-') (hcolon : c ≠ ':') :
    Refuses (literal "->" <|> literal ":") (t :: us) :=
  (Rejects.or (rejects_literal_cons rfl ht hminus.symm) (rejects_literal_cons rfl ht hcolon.symm)).refuses

theorem lineStart_of_label {m : String} (ht : t.toList = c :: x) (hc : c ≠ ',' ∧ c ≠ '-' ∧ c ≠ ':')
    (hlabel : Reads label [t, m] (fun _ => True) us) : LineStart (t :: m :: us) := by
  obtain ⟨hcomma, hminus, hcolon⟩ := hc
  exact ⟨(rejects_literal_cons rfl ht hcomma.symm).refuses, refuses_notAhead hlabel,
    refuses_mark ht hminus hcolon⟩

theorem lineStart_quad (q : Quad) (us : List String) : LineStart (q.tokens ++ us) := by
  obtain ⟨d, l, hl, hd⟩ := (spelled_toString q.id).cons
  refine lineStart_of_label hl ⟨?_, ?_, ?_⟩ (reads_label_quad q.id)
  all_goals
    intro he
    subst he
    cases hd

/-- The words of a block start with its name and a mark. -/
theorem blockTokens_eq (k : Block) : ∃ m ts, k.tokens = k.id.text :: m :: ts ∧ (m = "->" ∨ m = ":") := by
  rw [Block.tokens, Block.edgeTokens]
  cases k.successors with
  | nil => exact ⟨":", _, rfl, .inr rfl⟩
  | cons b bs => exact ⟨"->", _, rfl, .inl rfl⟩

theorem lineStart_block (k : Block) (us : List String) : LineStart (k.tokens ++ us) := by
  obtain ⟨m, ts, htokens, hm⟩ := blockTokens_eq k
  obtain ⟨c, l, hl, hc⟩ := blockText_cons k.id
  rw [htokens]
  refine lineStart_of_label hl ?_ (reads_label_block k.id hm)
  obtain rfl | rfl := hc
  · decide
  · decide

theorem lineStart_close (us : List String) : LineStart ("\x7d" :: us) := by
  have hword : ∀ {r : Rule} {F : List Char → Option Cut}, (∀ s, F ('\x7d' :: s) = none) →
      Rejects (word r F) "\x7d" := fun h => rejects_word_cons rfl h
  refine ⟨(rejects_literal_cons rfl rfl (by decide)).refuses, ?_, refuses_mark rfl (by decide) (by decide)⟩
  refine Refuses.of_notAhead (Rejects.refuses (Rejects.or ?_ (Rejects.or ?_ (Rejects.or ?_ (Rejects.or ?_ ?_)))))
  · exact (hword fun _ => cutRegister_eq_none (by decide) (by decide)).bind
  · exact (hword fun _ => cutNull_eq_none (by decide)).bind
  · exact (hword fun _ => cutInteger_eq_none (by decide) rfl).bind
  · exact (hword fun _ => cutBlockName_eq_none (by decide) (by decide)).bind
  · exact (hword fun _ => cutWord_eq_none rfl).bind

/-! ### Quads -/

/-- The quad is made of arguments that are read as they are written, with blocks among `known`. -/
def IsWritten (known : List BlockId) (q : Quad) : Prop :=
  ∃ args : List Arg, (∀ a ∈ args, a.IsSpelled) ∧ (∀ b, Arg.block b ∈ args → b ∈ known) ∧
    operatorOf q.op.mnemonic args = .ok q.op

structure QuadDecl.Describes (known : List BlockId) (d : QuadDecl) (q : Quad) : Prop where
  id_eq : d.id.text = toString q.id
  opcode_eq : d.opcode = q.op.mnemonic
  args : ∃ args, List.Forall₂ ArgDecl.Writes d.args args ∧ (∀ b, Arg.block b ∈ args → b ∈ known) ∧
    operatorOf q.op.mnemonic args = .ok q.op

theorem spelled_mnemonic (o : Operator) : Spelled cutOpcode o.mnemonic.toList := by
  refine local_cutOpcode.spelled ?_
  cases o with
  | binary op =>
    rw [Operator.mnemonic]
    cases op <;> rw [BinaryOp.mnemonic] <;> rfl
  | unary op =>
    rw [Operator.mnemonic]
    cases op <;> rw [UnaryOp.mnemonic] <;> rfl
  | ifCmp cond =>
    rw [Operator.mnemonic, String.toList_append]
    cases cond <;> rfl
  | _ =>
    rw [Operator.mnemonic]
    rfl

theorem reads_args {args : List Arg} (hs : ∀ a ∈ args, a.IsSpelled) (hus : LineStart us) :
    Reads (Parser.optional (commaList arg)) ((args.map Arg.text).intersperse ",")
      (fun o => List.Forall₂ ArgDecl.Writes (o.getD []) args) us := by
  by_cases hne : args = []
  · subst hne
    refine Reads.mono hus.arg.bind.optional_none fun o ho => ?_
    rw [ho]
    exact .nil
  · have hcomma : ∀ vs, Refuses (literal "->" <|> literal ":") ("," :: vs) :=
      fun _ => refuses_mark rfl (by decide) (by decide)
    have hlist := Reads.commaList (R := ArgDecl.Writes) (fun a ha vs => (hs a ha).reads) hcomma hus.mark
      hus.comma hne
    refine hlist.optional_some.mono fun o ho => ?_
    obtain ⟨ds, rfl, hds⟩ := ho
    exact hds

theorem reads_quad {known : List BlockId} {q : Quad} (h : IsWritten known q) (hus : LineStart us) :
    Reads quad q.tokens (·.Describes known q) us := by
  obtain ⟨args, hs, hknown, hop⟩ := h
  have hargs : q.op.args = args.map Arg.text := (operatorOf_writtenWith hop).2
  rw [Quad.tokens, Operator.tokens, hargs]
  refine Reads.rule (Takes.bind_skip (takes_quadId q.id) fun id hid => ?_)
  refine Takes.bind_skip (takes_literal ":") fun _ _ => ?_
  refine Takes.bind_skip (takes_word (spelled_mnemonic q.op)) fun opcode hopcode => ?_
  exact (reads_args hs hus).bind_pure fun ds hds => ⟨hid, hopcode, args, hds, hknown, hop⟩

/-! ### Blocks -/

structure BlockDecl.Describes (known : List BlockId) (d : BlockDecl) (k : Block) : Prop where
  name_eq : d.name.text = k.id.text
  successors : List.Forall₂ (fun (w : Word) (b : BlockId) => w.text = b.text) d.successors k.successors
  quads : List.Forall₂ (·.Describes known ·) d.quads k.quads

theorem refuses_comma_colon (us : List String) : Refuses (literal ",") (":" :: us) :=
  (rejects_literal_cons rfl rfl (by decide)).refuses

theorem reads_edges (k : Block) (us : List String) : Reads (Parser.optional successors) k.edgeTokens
    (fun o => List.Forall₂ (fun (w : Word) (b : BlockId) => w.text = b.text) (o.getD []) k.successors)
    (":" :: us) := by
  rw [Block.edgeTokens]
  cases hk : k.successors with
  | nil =>
    have hrefuse : Refuses successors (":" :: us) :=
      Refuses.rule (Rejects.bind (rejects_literal_cons rfl rfl (by decide))).refuses
    refine hrefuse.optional_none.mono fun o ho => ?_
    rw [ho]
    exact .nil
  | cons b bs =>
    have hlist := Reads.commaList (N := fun _ => True) (R := fun (w : Word) (b : BlockId) => w.text = b.text)
      (fun b _ vs _ => (takes_blockName b).reads) (fun _ => trivial) trivial (refuses_comma_colon us)
      (List.cons_ne_nil b bs)
    have hreads : Reads successors ("->" :: ((b :: bs).map BlockId.text).intersperse ",") _ (":" :: us) :=
      Reads.rule (Takes.bind_skip (takes_literal "->") fun _ _ => hlist)
    refine hreads.optional_some.mono fun o ho => ?_
    obtain ⟨ws, rfl, hws⟩ := ho
    exact hws

theorem reads_block {known : List BlockId} {k : Block} (h : ∀ q ∈ k.quads, IsWritten known q)
    (hus : LineStart us) (hstop : Refuses quad us) : Reads block k.tokens (·.Describes known k) us := by
  have hquads : Reads (many quad) (k.quads.flatMap Quad.tokens)
      (fun ds => List.Forall₂ (·.Describes known ·) ds k.quads) us :=
    Reads.many (N := LineStart) (fun _ => List.cons_ne_nil _ _) (fun q hq vs hvs => reads_quad (h q hq) hvs)
      (fun q _ vs => lineStart_quad q vs) hus hstop
  refine Reads.rule (Takes.bind_skip (takes_blockName k.id) fun name hname => ?_)
  refine Reads.bind_skip (reads_edges k _) fun succs hsuccs => ?_
  refine Takes.bind_skip (takes_literal ":") fun _ _ => ?_
  exact hquads.bind_pure fun ds hds => ⟨hname, hsuccs, hds⟩

/-! ### Methods -/

/-- All names of the graph are read as they are written. -/
structure IsLegible (g : Graph) : Prop where
  name : Spelled cutMethodName g.method.name.toList
  quads : ∀ e ∈ g.blocks, ∀ q ∈ e.2.quads, IsWritten g.blockIds q

structure MethodDecl.Describes (d : MethodDecl) (g : Graph) : Prop where
  name_eq : d.name = g.method.name
  params_eq : d.params.text = toString g.method.params
  isStatic_eq : d.isStatic = g.method.isStatic
  blocks : List.Forall₂ (fun d e => d.Describes g.blockIds e.2) d.blocks g.blocks

theorem refuses_quad_block (k : Block) (us : List String) : Refuses quad (k.tokens ++ us) :=
  Refuses.rule (Rejects.bind (rejects_quadId_blockText k.id)).refuses

theorem refuses_quad_close (us : List String) : Refuses quad ("\x7d" :: us) :=
  Refuses.rule (Rejects.bind (rejects_word_cons rfl fun _ => cutDigits_eq_none rfl)).refuses

theorem refuses_block_close (us : List String) : Refuses block ("\x7d" :: us) :=
  Refuses.rule (Rejects.bind (rejects_word_cons rfl fun _ =>
    cutBlockName_eq_none (by decide) (by decide))).refuses

theorem reads_blocks {known : List BlockId} {bs : List (BlockId × Block)}
    (h : ∀ e ∈ bs, ∀ q ∈ e.2.quads, IsWritten known q) (us : List String) :
    Reads (many block) (bs.flatMap (·.2.tokens))
      (fun ds => List.Forall₂ (fun d e => d.Describes known e.2) ds bs) ("\x7d" :: us) :=
  Reads.many (N := fun vs => LineStart vs ∧ Refuses quad vs) (fun _ => List.cons_ne_nil _ _)
    (fun e he _ hvs => reads_block (h e he) hvs.1 hvs.2)
    (fun e _ vs => ⟨lineStart_block e.2 vs, refuses_quad_block e.2 vs⟩)
    ⟨lineStart_close us, refuses_quad_close us⟩ (refuses_block_close us)

theorem reads_staticFlag (isStatic : Bool) (us : List String) :
    Reads (Parser.optional (rule .staticFlag (literal "static"))) (if isStatic then ["static"] else [])
      (fun o => o.isSome = isStatic) ("\x7b" :: us) := by
  cases isStatic with
  | true =>
    have hread : Reads (rule .staticFlag (literal "static")) ["static"] (fun _ => True) ("\x7b" :: us) :=
      (takes_literal "static").reads
    refine hread.optional_some.mono fun o ho => ?_
    obtain ⟨_, rfl, -⟩ := ho
    rfl
  | false =>
    have hrefuse : Refuses (rule .staticFlag (literal "static")) ("\x7b" :: us) :=
      Refuses.rule (rejects_literal_cons rfl rfl (by decide)).refuses
    refine hrefuse.optional_none.mono fun o ho => ?_
    rw [ho]
    rfl

theorem tokens_eq (g : Graph) : g.tokens = "method" :: g.method.name :: "(" :: toString g.method.params ::
    ")" :: ((if g.method.isStatic then ["static"] else []) ++
      "\x7b" :: (g.blocks.flatMap (·.2.tokens) ++ ["\x7d"])) := by
  simp [Graph.tokens]

theorem reads_method {g : Graph} (h : IsLegible g) (us : List String) :
    Reads method g.tokens (·.Describes g) us := by
  rw [tokens_eq]
  refine Reads.rule (Takes.bind_skip (takes_literal "method") fun _ _ => ?_)
  refine Takes.bind_skip (takes_word h.name) fun name hname => ?_
  refine Takes.bind_skip (takes_literal "(") fun _ _ => ?_
  refine Takes.bind_skip (takes_word (spelled_toString g.method.params)) fun params hparams => ?_
  refine Takes.bind_skip (takes_literal ")") fun _ _ => ?_
  refine Reads.bind_skip (reads_staticFlag g.method.isStatic _) fun flag hflag => ?_
  refine Takes.bind_skip (takes_literal "\x7b") fun _ _ => ?_
  refine Reads.bind_skip (reads_blocks h.quads us) fun blocks hblocks => ?_
  exact (takes_literal "\x7d").reads.bind_pure fun _ _ => ⟨hname, hparams, hflag, hblocks⟩

/-- A file that holds the words of one graph, in any layout, is read as one method. -/
theorem exists_run_program {g : Graph} (h : IsLegible g) {s : List Char} (hs : Starts g.tokens s) :
    ∃ d c, program.run ⟨0, s⟩ = some ([d], c) ∧ d.Describes g := by
  have hmethods : Reads (many method) ([g].flatMap Graph.tokens)
      (fun ds => List.Forall₂ MethodDecl.Describes ds [g]) [] := by
    refine Reads.many (N := fun _ => True) (fun g => ?_) (fun g' hg vs _ => ?_) (fun _ _ _ => trivial) trivial ?_
    · rw [tokens_eq]
      exact List.cons_ne_nil _ _
    · obtain rfl := List.mem_singleton.1 hg
      exact reads_method h vs
    · intro i s hs
      cases hs
      rfl
  have hstart : Starts ([g].flatMap Graph.tokens ++ []) s := by
    rw [List.append_nil, List.flatMap_singleton]
    exact hs
  obtain ⟨ds, j, rest, hrun, hds, hrest, -⟩ := hmethods 0 s hstart
  obtain ⟨k, s', hskip, hend, -⟩ := hrest.run_skip j
  cases hend
  cases hds with
  | cons hd hnil =>
    cases hnil
    refine ⟨_, ⟨k, []⟩, ?_, hd⟩
    show ((many method).run (skipFrom false 0 s)).bind (fun x => (skip.run x.2).bind
      fun y => (atEnd.run y.2).bind fun z => some (x.1, z.2)) = _
    rw [hs.skipFrom_eq, hrun, Option.bind_some, hskip]
    rfl

/-! ### All words are solid -/

theorem mem_intersperse {s u : String} {l : List String} (h : u ∈ l.intersperse s) : u = s ∨ u ∈ l := by
  cases l with
  | nil => exact .inr h
  | cons v l =>
    rw [intersperse_cons, List.mem_cons, List.mem_flatMap] at h
    obtain rfl | ⟨w, hw, h⟩ := h
    · exact .inr List.mem_cons_self
    · simp only [List.mem_cons, List.not_mem_nil, or_false] at h
      obtain rfl | rfl := h
      · exact .inl rfl
      · exact .inr (List.mem_cons_of_mem v hw)

theorem IsWritten.solid {known : List BlockId} {q : Quad} (h : IsWritten known q) :
    ∀ t ∈ q.tokens, Solid t.toList := by
  obtain ⟨args, hs, -, hop⟩ := h
  have hargs : q.op.args = args.map Arg.text := (operatorOf_writtenWith hop).2
  intro t ht
  simp only [Quad.tokens, Operator.tokens, hargs, List.mem_cons] at ht
  obtain rfl | rfl | rfl | ht := ht
  · exact solid_toString q.id
  · exact ⟨':', rfl, by decide⟩
  · obtain ⟨c, l, hl, hc⟩ := (spelled_mnemonic q.op).cons
    rw [hl]
    refine solid_of_isWordChar (isWordChar_of_isUpper hc) fun he => ?_
    subst he
    cases hc
  · obtain rfl | ht := mem_intersperse ht
    · exact ⟨',', rfl, by decide⟩
    · obtain ⟨a, ha, rfl⟩ := List.mem_map.1 ht
      exact (hs a ha).solid

theorem solid_edgeTokens (k : Block) : ∀ t ∈ k.edgeTokens, Solid t.toList := by
  intro t ht
  rw [Block.edgeTokens] at ht
  split at ht
  · cases ht
  · obtain rfl | ht := List.mem_cons.1 ht
    · exact ⟨'-', rfl, by decide⟩
    · obtain rfl | ht := mem_intersperse ht
      · exact ⟨',', rfl, by decide⟩
      · obtain ⟨b, -, rfl⟩ := List.mem_map.1 ht
        exact solid_blockText b

theorem IsLegible.solid {g : Graph} (h : IsLegible g) : ∀ t ∈ g.tokens, Solid t.toList := by
  have hblock : ∀ e ∈ g.blocks, ∀ t ∈ e.2.tokens, Solid t.toList := by
    intro e he t ht
    rw [Block.tokens, List.mem_append, List.mem_cons, List.mem_cons, List.mem_flatMap] at ht
    obtain (rfl | ht) | rfl | ⟨q, hq, ht⟩ := ht
    · exact solid_blockText e.2.id
    · exact solid_edgeTokens e.2 t ht
    · exact ⟨':', rfl, by decide⟩
    · exact (h.quads e he q hq).solid t ht
  intro t ht
  simp only [tokens_eq, List.mem_cons, List.mem_append, List.mem_flatMap, List.not_mem_nil, or_false] at ht
  obtain rfl | rfl | rfl | rfl | rfl | ht | rfl | ⟨e, he, ht⟩ | rfl := ht
  · exact ⟨'m', rfl, by decide⟩
  · obtain ⟨c, l, hl, hc⟩ := h.name.cons
    rw [hl]
    exact solid_of_isNameStart hc
  · exact ⟨'(', rfl, by decide⟩
  · exact solid_toString _
  · exact ⟨')', rfl, by decide⟩
  · split at ht
    · obtain rfl := List.mem_singleton.1 ht
      exact ⟨'s', rfl, by decide⟩
    · cases ht
  · exact ⟨'\x7b', rfl, by decide⟩
  · exact hblock e he t ht
  · exact ⟨'\x7d', rfl, by decide⟩

end Dataflow.Source
