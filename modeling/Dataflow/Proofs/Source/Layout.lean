import Dataflow.Graph.Basic
import Dataflow.Proofs.Source.Words
import Dataflow.Source.Parser

/-!
# The text of a graph, in any layout

`Graph.tokens` are the words that tell a graph. A `Layout` writes words one after another, with blanks and
comments between any two of them. For a reader all layouts look alike: each word stands where the blanks
and comments before it end (`Layout.starts`).
-/

namespace Dataflow

/-- The mnemonic and the arguments, with commas between these. -/
def Operator.tokens (o : Operator) : List String := o.mnemonic :: o.args.intersperse ","

def Quad.tokens (q : Quad) : List String := toString q.id :: ":" :: q.op.tokens

/-- An arrow stands only before successors. -/
def Block.edgeTokens (k : Block) : List String :=
  match k.successors with
  | [] => []
  | ss => "->" :: (ss.map BlockId.text).intersperse ","

def Block.tokens (k : Block) : List String :=
  k.id.text :: k.edgeTokens ++ ":" :: k.quads.flatMap Quad.tokens

def Graph.tokens (g : Graph) : List String :=
  ["method", g.method.name, "(", toString g.method.params, ")"] ++
    (if g.method.isStatic then ["static"] else []) ++
      "\x7b" :: g.blocks.flatMap (·.2.tokens) ++ ["\x7d"]

namespace Source

open Dataflow.Source.Parser

/-- Blanks and comments. A comment ends with its line. -/
inductive Filler : List Char → Prop
  | nil : Filler []
  | blank {c : Char} {s : List Char} (hc : isSpace c = true) (h : Filler s) : Filler (c :: s)
  | comment {mark body s : List Char} {e : Char} (hm : mark = ['#'] ∨ mark = ['/', '/'])
      (hb : ∀ c ∈ body, c ≠ '\n' ∧ c ≠ '\r') (he : e = '\n' ∨ e = '\r') (h : Filler s) :
      Filler (mark ++ body ++ e :: s)

/-- What may stand between two words: a blank, then any blanks and comments. -/
def IsSeparator (s : List Char) : Prop := ∃ c t, s = c :: t ∧ isSpace c = true ∧ Filler t

/-- The words one after another, with a separator between each two. -/
inductive Layout : List String → List Char → Prop
  | last (t : String) : Layout [t] t.toList
  | more (t : String) {u : String} {us : List String} {sep s : List Char} (hsep : IsSeparator sep)
      (h : Layout (u :: us) s) : Layout (t :: u :: us) (t.toList ++ sep ++ s)

/-! ### Skipping -/

variable {t : String} {us : List String} {s rest : List Char}

theorem skipFrom_comment {body : List Char} {e : Char} (hb : ∀ c ∈ body, c ≠ '\n' ∧ c ≠ '\r')
    (he : e = '\n' ∨ e = '\r') (rest : List Char) (i : Nat) :
    ∃ j, skipFrom true i (body ++ e :: rest) = skipFrom false j rest := by
  induction body generalizing i with
  | nil =>
    refine ⟨i + 1, ?_⟩
    obtain rfl | rfl := he
    · rfl
    · rfl
  | cons c body ih =>
    obtain ⟨⟨hn, hr⟩, hb⟩ := List.forall_mem_cons.1 hb
    obtain ⟨j, hj⟩ := ih hb (i + 1)
    refine ⟨j, ?_⟩
    rw [List.cons_append, skipFrom, if_pos rfl, ← hj, bne_iff_ne.2 hn, bne_iff_ne.2 hr]
    rfl

theorem skipFrom_filler {f : List Char} (h : Filler f) (rest : List Char) (i : Nat) :
    ∃ j, skipFrom false i (f ++ rest) = skipFrom false j rest := by
  induction h generalizing i with
  | nil => exact ⟨i, rfl⟩
  | blank hc h ih =>
    obtain ⟨j, hj⟩ := ih (i + 1)
    refine ⟨j, ?_⟩
    rw [List.cons_append, skipFrom, if_neg Bool.false_ne_true, if_pos hc, hj]
  | @comment mark body s e hm hb he h ih =>
    rw [List.append_assoc, List.append_assoc, List.cons_append]
    obtain rfl | rfl := hm
    · obtain ⟨j, hj⟩ := skipFrom_comment hb he (s ++ rest) (i + 1)
      obtain ⟨k, hk⟩ := ih j
      exact ⟨k, hj.trans hk⟩
    · obtain ⟨j, hj⟩ := skipFrom_comment hb he (s ++ rest) (i + 1 + 1)
      obtain ⟨k, hk⟩ := ih j
      exact ⟨k, hj.trans hk⟩

theorem length_skipFrom_le (b : Bool) (i : Nat) (s : List Char) :
    (skipFrom b i s).rest.length ≤ s.length := by
  induction s generalizing b i with
  | nil => exact Nat.le_refl _
  | cons c s ih =>
    have hs : ∀ b, (skipFrom b (i + 1) s).rest.length ≤ (c :: s).length :=
      fun b => (ih b (i + 1)).trans (Nat.le_succ _)
    rw [skipFrom]
    split
    · exact hs _
    · split
      · exact hs _
      · split
        · exact hs _
        · exact Nat.le_refl _

/-- A text that starts with neither a blank nor a comment. -/
def Solid (s : List Char) : Prop := ∃ c ∈ s.head?, isSpace c = false ∧ c ≠ '#' ∧ c ≠ '/'

theorem Solid.append (h : Solid s) (rest : List Char) : Solid (s ++ rest) := by
  obtain ⟨c, hc, hs⟩ := h
  obtain ⟨l, rfl⟩ := List.head?_eq_some_iff.1 hc
  exact ⟨c, rfl, hs⟩

theorem Solid.skipFrom_eq (h : Solid s) (i : Nat) : skipFrom false i s = ⟨i, s⟩ := by
  obtain ⟨c, hc, hspace, hhash, hslash⟩ := h
  obtain ⟨l, rfl⟩ := List.head?_eq_some_iff.1 hc
  simp [skipFrom, hspace, hhash, hslash]

theorem Solid.length_pos (h : Solid s) : 0 < s.length := by
  obtain ⟨c, hc, -⟩ := h
  obtain ⟨l, rfl⟩ := List.head?_eq_some_iff.1 hc
  exact Nat.succ_pos _

/-! ### Words ahead -/

/-- The words come next, the first one right away and each of the others after what is skipped. -/
inductive Starts : List String → List Char → Prop
  | nil : Starts [] []
  | cons {t : String} {us : List String} {rest s : List Char} (ht : Solid t.toList) (hr : EndsWord rest)
      (hskip : ∀ i, ∃ j, skipFrom false i rest = ⟨j, s⟩) (h : Starts us s) : Starts (t :: us) (t.toList ++ rest)

/-- The words come next, after what is skipped. -/
def Ahead (us : List String) (rest : List Char) : Prop :=
  ∃ s, Starts us s ∧ ∀ i, ∃ j, skipFrom false i rest = ⟨j, s⟩

theorem Starts.cons_iff : Starts (t :: us) s ↔
    ∃ rest, s = t.toList ++ rest ∧ Solid t.toList ∧ EndsWord rest ∧ Ahead us rest := by
  constructor
  · intro h
    cases h with
    | cons ht hr hskip h => exact ⟨_, rfl, ht, hr, _, h, hskip⟩
  · rintro ⟨rest, rfl, ht, hr, s, h, hskip⟩
    exact .cons ht hr hskip h

theorem Starts.skipFrom_eq (h : Starts us s) (i : Nat) : skipFrom false i s = ⟨i, s⟩ := by
  cases h with
  | nil => rfl
  | cons ht => exact (ht.append _).skipFrom_eq i

theorem Starts.ahead (h : Starts us s) : Ahead us s := ⟨s, h, fun i => ⟨i, h.skipFrom_eq i⟩⟩

theorem Ahead.nil : Ahead [] [] := Starts.nil.ahead

theorem Ahead.of_separator {sep : List Char} (hsep : IsSeparator sep) (h : Starts us s) :
    Ahead us (sep ++ s) := by
  obtain ⟨c, f, rfl, hc, hf⟩ := hsep
  refine ⟨s, h, fun i => ?_⟩
  obtain ⟨j, hj⟩ := skipFrom_filler (.blank hc hf) s i
  exact ⟨j, hj.trans (h.skipFrom_eq j)⟩

theorem endsWord_separator {sep : List Char} (hsep : IsSeparator sep) (rest : List Char) :
    EndsWord (sep ++ rest) := by
  obtain ⟨c, f, rfl, hc, -⟩ := hsep
  intro d hd
  obtain rfl : c = d := Option.some.inj hd
  simp only [isSpace, Bool.or_eq_true, decide_eq_true_eq] at hc
  obtain ((rfl | rfl) | rfl) | rfl := hc
  all_goals decide

theorem Layout.starts {ts : List String} (h : Layout ts s) (hs : ∀ t ∈ ts, Solid t.toList) :
    Starts ts s := by
  induction h with
  | last t =>
    rw [← List.append_nil t.toList]
    exact Starts.cons_iff.2 ⟨[], rfl, hs t List.mem_cons_self, by simp [EndsWord], .nil⟩
  | more t hsep _ ih =>
    obtain ⟨ht, hs⟩ := List.forall_mem_cons.1 hs
    rw [List.append_assoc]
    exact Starts.cons_iff.2 ⟨_, rfl, ht, endsWord_separator hsep _, .of_separator hsep (ih hs)⟩

end Source

end Dataflow
