import Mathlib.Data.List.Forall2
import Dataflow.Proofs.Source.Layout
import Dataflow.Source.Grammar

/-!
# Reading words

How readers act on words ahead: `Reads` says that a reader takes the first words and leaves the rest,
`Refuses` that it fails. Readers made of others do what their parts do, in sequence, as a choice, or again
and again until the next words are refused (`Reads.many`).
-/

namespace Dataflow.Source

open Dataflow.Source.Parser

variable {α β : Type} {p q : Parser α} {f : α → Parser β} {P : α → Prop} {Q : β → Prop} {t : String}
  {ts us vs : List String}

/-- Reads the word `t`, wherever it ends. -/
def Takes (p : Parser α) (t : String) (P : α → Prop) : Prop :=
  ∀ i rest, EndsWord rest → ∃ a j, p.run ⟨i, t.toList ++ rest⟩ = some (a, ⟨j, rest⟩) ∧ P a

/-- Refuses the word `t`, wherever it ends. -/
def Rejects (p : Parser α) (t : String) : Prop :=
  ∀ i rest, EndsWord rest → p.run ⟨i, t.toList ++ rest⟩ = none

/-- Reads the words `ts` where `us` come after them. Each word takes up some of the text. -/
def Reads (p : Parser α) (ts : List String) (P : α → Prop) (us : List String) : Prop :=
  ∀ i s, Starts (ts ++ us) s → ∃ a j rest, p.run ⟨i, s⟩ = some (a, ⟨j, rest⟩) ∧ P a ∧ Ahead us rest ∧
    rest.length + ts.length ≤ s.length

/-- Fails where the words `us` come. -/
def Refuses (p : Parser α) (us : List String) : Prop := ∀ i s, Starts us s → p.run ⟨i, s⟩ = none

/-! ### One word -/

theorem Takes.reads (h : Takes p t P) : Reads p [t] P us := by
  intro i s hs
  obtain ⟨rest, rfl, ht, hr, hus⟩ := Starts.cons_iff.1 hs
  obtain ⟨a, j, hrun, ha⟩ := h i rest hr
  refine ⟨a, j, rest, hrun, ha, hus, ?_⟩
  have hpos := ht.length_pos
  rw [List.length_append, List.length_singleton]
  omega

theorem Rejects.refuses (h : Rejects p t) : Refuses p (t :: us) := by
  intro i s hs
  obtain ⟨rest, rfl, -, hr, -⟩ := Starts.cons_iff.1 hs
  exact h i rest hr

theorem Takes.left (h : Takes p t P) : Takes (p <|> q) t P := by
  intro i rest hr
  obtain ⟨a, j, hrun, ha⟩ := h i rest hr
  refine ⟨a, j, ?_, ha⟩
  show (p.run _).or _ = _
  rw [hrun]
  rfl

theorem Takes.right (hp : Rejects p t) (h : Takes q t P) : Takes (p <|> q) t P := by
  intro i rest hr
  obtain ⟨a, j, hrun, ha⟩ := h i rest hr
  refine ⟨a, j, ?_, ha⟩
  show (p.run _).or (q.run _) = _
  rw [hp i rest hr, hrun]
  rfl

theorem Rejects.or (hp : Rejects p t) (hq : Rejects q t) : Rejects (p <|> q) t := by
  intro i rest hr
  show (p.run _).or (q.run _) = _
  rw [hp i rest hr, hq i rest hr]
  rfl

theorem Takes.bind_pure {k : α → β} (h : Takes p t P) (hk : ∀ a, P a → Q (k a)) :
    Takes (p >>= fun a => Pure.pure (k a)) t Q := by
  intro i rest hr
  obtain ⟨a, j, hrun, ha⟩ := h i rest hr
  refine ⟨k a, j, ?_, hk a ha⟩
  show (p.run _).bind _ = _
  rw [hrun]
  rfl

theorem Rejects.bind (h : Rejects p t) : Rejects (p >>= f) t := by
  intro i rest hr
  show (p.run _).bind _ = _
  rw [h i rest hr]
  rfl

theorem run_word (r : Rule) (F : List Char → Option Cut) (c : Cursor) : (word r F).run c =
    (F c.rest).map fun x => (⟨c.offset, String.ofList x.1⟩, ⟨c.offset + x.1.length, x.2⟩) := by
  show ((F c.rest).map _).bind _ = _
  cases F c.rest with
  | none => rfl
  | some x => rfl

theorem takes_word {r : Rule} {F : List Char → Option Cut} (h : Spelled F t.toList) :
    Takes (word r F) t fun w => w.text = t := by
  intro i rest hr
  refine ⟨⟨i, t⟩, i + t.toList.length, ?_, rfl⟩
  rw [run_word, h rest hr, Option.map_some, String.ofList_toList]

theorem rejects_word {r : Rule} {F : List Char → Option Cut} (h : Foreign F t.toList) :
    Rejects (word r F) t := by
  intro i rest hr
  rw [run_word, h rest hr]
  rfl

theorem takes_literal (t : String) : Takes (literal t) t fun _ => True := by
  intro i rest _
  refine ⟨(), i + t.length, ?_, trivial⟩
  have hrest : (t.toList ++ rest).drop t.length = rest := by
    rw [← String.length_toList, List.drop_left]
  simp only [literal, List.isPrefixOf_iff_prefix.2 (List.prefix_append t.toList rest), hrest]
  rfl

/-! The first character often decides. -/

theorem rejects_word_cons {r : Rule} {F : List Char → Option Cut} {c : Char} {x : List Char}
    (ht : t.toList = c :: x) (h : ∀ s, F (c :: s) = none) : Rejects (word r F) t := by
  refine rejects_word ?_
  rw [ht]
  exact foreign_cons h x

theorem rejects_literal_cons {l : String} {c d : Char} {x y : List Char} (hl : l.toList = d :: y)
    (ht : t.toList = c :: x) (h : d ≠ c) : Rejects (literal l) t := by
  intro i rest _
  simp [literal, hl, ht, h]

/-! ### Several words -/

theorem Reads.mono {Q : α → Prop} (h : Reads p ts P us) (hPQ : ∀ a, P a → Q a) : Reads p ts Q us := by
  intro i s hs
  obtain ⟨a, j, rest, hrun, ha, hrest⟩ := h i s hs
  exact ⟨a, j, rest, hrun, hPQ a ha, hrest⟩

theorem Reads.rule {r : Rule} (h : Reads p ts P us) : Reads (Parser.rule r p) ts P us := h

theorem Refuses.rule {r : Rule} (h : Refuses p us) : Refuses (Parser.rule r p) us := h

theorem Reads.bind_pure {k : α → β} (h : Reads p ts P us) (hk : ∀ a, P a → Q (k a)) :
    Reads (p >>= fun a => Pure.pure (k a)) ts Q us := by
  intro i s hs
  obtain ⟨a, j, rest, hrun, ha, hus, hle⟩ := h i s hs
  refine ⟨k a, j, rest, ?_, hk a ha, hus, hle⟩
  show (p.run _).bind _ = _
  rw [hrun]
  rfl

/-- Skipping leads to the words ahead. -/
theorem Ahead.run_skip {rest : List Char} (h : Ahead us rest) (j : Nat) :
    ∃ k s, skip.run ⟨j, rest⟩ = some ((), ⟨k, s⟩) ∧ Starts us s ∧ s.length ≤ rest.length := by
  obtain ⟨s, hs, hskip⟩ := h
  obtain ⟨k, hk⟩ := hskip j
  refine ⟨k, s, ?_, hs, ?_⟩
  · show some ((), skipFrom false j rest) = _
    rw [hk]
  · have hle := length_skipFrom_le false j rest
    rwa [hk] at hle

theorem Reads.bind_skip (hp : Reads p ts P (vs ++ us)) (hf : ∀ a, P a → Reads (f a) vs Q us) :
    Reads (p >>= fun a => skip >>= fun _ => f a) (ts ++ vs) Q us := by
  intro i s hs
  rw [List.append_assoc] at hs
  obtain ⟨a, j, rest, hrun, ha, hrest, hle⟩ := hp i s hs
  obtain ⟨k, s', hskip, hs', hle'⟩ := hrest.run_skip j
  obtain ⟨b, l, rest', hrun', hb, hus, hle''⟩ := hf a ha k s' hs'
  refine ⟨b, l, rest', ?_, hb, hus, ?_⟩
  · show (p.run _).bind (fun x => (skip.run x.2).bind fun y => (f x.1).run y.2) = _
    rw [hrun, Option.bind_some, hskip, Option.bind_some, hrun']
  · rw [List.length_append]
    omega

theorem Takes.bind_skip (hp : Takes p t P) (hf : ∀ a, P a → Reads (f a) vs Q us) :
    Reads (p >>= fun a => skip >>= fun _ => f a) (t :: vs) Q us :=
  Reads.bind_skip hp.reads hf

theorem Refuses.bind (h : Refuses p us) : Refuses (p >>= f) us := by
  intro i s hs
  show (p.run _).bind _ = _
  rw [h i s hs]
  rfl

theorem Takes.refuses_bind_skip (hp : Takes p t P) (hf : ∀ a, P a → Refuses (f a) us) :
    Refuses (p >>= fun a => skip >>= fun _ => f a) (t :: us) := by
  intro i s hs
  obtain ⟨a, j, rest, hrun, ha, hrest, -⟩ := hp.reads i s hs
  obtain ⟨k, s', hskip, hs', -⟩ := hrest.run_skip j
  show (p.run _).bind (fun x => (skip.run x.2).bind fun y => (f x.1).run y.2) = _
  rw [hrun, Option.bind_some, hskip, Option.bind_some, hf a ha k s' hs']

theorem Reads.optional_some (h : Reads p ts P us) :
    Reads (Parser.optional p) ts (fun o => ∃ a, o = some a ∧ P a) us := by
  intro i s hs
  obtain ⟨a, j, rest, hrun, ha, hus, hle⟩ := h i s hs
  refine ⟨some a, j, rest, ?_, ⟨a, rfl, ha⟩, hus, hle⟩
  show ((p.run _).bind _).or _ = _
  rw [hrun]
  rfl

theorem Refuses.optional_none (h : Refuses p us) : Reads (Parser.optional p) [] (fun o => o = none) us := by
  intro i s hs
  refine ⟨none, i, s, ?_, rfl, hs.ahead, Nat.le_refl _⟩
  show ((p.run _).bind _).or _ = _
  rw [h i s hs]
  rfl

/-- What must not come next does not come. -/
theorem Reads.of_notAhead (hq : Refuses q (ts ++ us)) {p : Parser β} (hp : Reads p ts Q us) :
    Reads (notAhead q >>= fun _ => skip >>= fun _ => p) ts Q us := by
  intro i s hs
  obtain ⟨b, j, rest, hrun, hb⟩ := hp i s hs
  refine ⟨b, j, rest, ?_, hb⟩
  have hlook : (notAhead q).run ⟨i, s⟩ = some ((), ⟨i, s⟩) := by
    simp only [notAhead, hq i s hs]
    rfl
  show ((notAhead q).run _).bind (fun x => p.run (skipFrom false x.2.offset x.2.rest)) = _
  rw [hlook, Option.bind_some, hs.skipFrom_eq, hrun]

theorem Refuses.of_notAhead {p : Parser β} (hp : Refuses p us) :
    Refuses (notAhead q >>= fun _ => skip >>= fun _ => p) us := by
  intro i s hs
  by_cases hq : (q.run ⟨i, s⟩).isSome = true
  · have hlook : (notAhead q).run ⟨i, s⟩ = none := if_pos hq
    show ((notAhead q).run _).bind _ = _
    rw [hlook]
    rfl
  · have hlook : (notAhead q).run ⟨i, s⟩ = some ((), ⟨i, s⟩) := if_neg hq
    show ((notAhead q).run _).bind (fun x => p.run (skipFrom false x.2.offset x.2.rest)) = _
    rw [hlook, Option.bind_some, hs.skipFrom_eq, hp i s hs]

theorem refuses_notAhead {p : Parser β} (hq : Reads q ts P us) :
    Refuses (notAhead q >>= fun _ => p) (ts ++ us) := by
  intro i s hs
  obtain ⟨a, j, rest, hrun, -⟩ := hq i s hs
  have hlook : (notAhead q).run ⟨i, s⟩ = none := by
    simp only [notAhead, hrun]
    rfl
  show ((notAhead q).run _).bind _ = _
  rw [hlook]
  rfl

/-! ### Repetition -/

section

variable {R : α → β → Prop} {tk : β → List String} {N : List String → Prop} {bs : List β}

theorem next_of_items (hN : ∀ b ∈ bs, ∀ vs, N (tk b ++ vs)) (hus : N us) : N (bs.flatMap tk ++ us) := by
  cases bs with
  | nil => exact hus
  | cons b bs =>
    rw [List.flatMap_cons, List.append_assoc]
    exact hN b List.mem_cons_self _

/-- The items `bs` are read one by one, each where what comes next satisfies `N`. -/
theorem runAll_reads (hne : ∀ b, tk b ≠ []) (hp : ∀ b ∈ bs, ∀ vs, N vs → Reads p (tk b) (R · b) vs)
    (hN : ∀ b ∈ bs, ∀ vs, N (tk b ++ vs)) (hus : N us) (hstop : Refuses p us) (i : Nat) {rest : List Char}
    (h : Ahead (bs.flatMap tk ++ us) rest) :
    ∃ as j rest', runAll (skip >>= fun _ => p) ⟨i, rest⟩ = (as, ⟨j, rest'⟩) ∧ List.Forall₂ R as bs ∧
      Ahead us rest' ∧ rest'.length + (bs.flatMap tk).length ≤ rest.length := by
  induction bs generalizing i rest with
  | nil =>
    refine ⟨[], i, rest, ?_, .nil, h, Nat.le_refl _⟩
    obtain ⟨k, s, hskip, hs, -⟩ := h.run_skip i
    have hrun : (skip >>= fun _ => p).run ⟨i, rest⟩ = none := by
      show (skip.run ⟨i, rest⟩).bind (fun x => p.run x.2) = _
      rw [hskip]
      exact hstop k s hs
    rw [runAll, hrun]
  | cons b bs ih =>
    rw [List.flatMap_cons, List.append_assoc] at h
    obtain ⟨k, s, hskip, hs, hle⟩ := h.run_skip i
    obtain ⟨hpb, hp⟩ := List.forall_mem_cons.1 hp
    obtain ⟨-, hN⟩ := List.forall_mem_cons.1 hN
    obtain ⟨a, j, rest₁, hrun, ha, hahead, hle₁⟩ := hpb _ (next_of_items hN hus) k s hs
    obtain ⟨as, l, rest₂, hall, has, hlast, hle₂⟩ := ih hp hN j hahead
    have hstep : (skip >>= fun _ => p).run ⟨i, rest⟩ = some (a, ⟨j, rest₁⟩) := by
      show (skip.run ⟨i, rest⟩).bind (fun x => p.run x.2) = _
      rw [hskip]
      exact hrun
    have hpos : 0 < (tk b).length := List.length_pos_of_ne_nil (hne b)
    refine ⟨a :: as, l, rest₂, ?_, .cons ha has, hlast, ?_⟩
    · rw [runAll, hstep]
      simp only
      rw [if_pos (by omega), hall]
    · rw [List.flatMap_cons, List.length_append]
      omega

theorem Reads.many (hne : ∀ b, tk b ≠ []) (hp : ∀ b ∈ bs, ∀ vs, N vs → Reads p (tk b) (R · b) vs)
    (hN : ∀ b ∈ bs, ∀ vs, N (tk b ++ vs)) (hus : N us) (hstop : Refuses p us) :
    Reads (Parser.many p) (bs.flatMap tk) (fun as => List.Forall₂ R as bs) us := by
  intro i s hs
  cases bs with
  | nil =>
    refine ⟨[], i, s, ?_, .nil, hs.ahead, Nat.le_refl _⟩
    show ((p.run _).bind _).or _ = _
    rw [hstop i s hs]
    rfl
  | cons b bs =>
    rw [List.flatMap_cons, List.append_assoc] at hs
    obtain ⟨hpb, hp⟩ := List.forall_mem_cons.1 hp
    obtain ⟨-, hN⟩ := List.forall_mem_cons.1 hN
    obtain ⟨a, j, rest₁, hrun, ha, hahead, hle₁⟩ := hpb _ (next_of_items hN hus) i s hs
    obtain ⟨as, l, rest₂, hall, has, hlast, hle₂⟩ := runAll_reads hne hp hN hus hstop j hahead
    refine ⟨a :: as, l, rest₂, ?_, .cons ha has, hlast, ?_⟩
    · show ((p.run _).bind fun x => some (x.1 :: (runAll (skip >>= fun _ => p) x.2).1,
        (runAll (skip >>= fun _ => p) x.2).2)).or _ = _
      rw [hrun, Option.bind_some, hall]
      rfl
    · rw [List.flatMap_cons, List.length_append]
      omega

end

end Dataflow.Source
