import Dataflow.Lattice.Elements
import Dataflow.Proofs.Source.Words

/-!
# Values are settled by their texts

Reports hold values as texts, so results are compared by their texts. A text lists what a value holds, in order and
with commas between. None of the words listed is empty or has a comma in it, as long as registers are spelled as in
quad files, so the list can be cut apart again (`intercalate_inj`). Each word tells what it stands for: a number is
written in one way only, and in an entry of a table the last `=` stands before the state (`entryText_injective`).
-/

namespace Dataflow

/-- `R` or `T` and digits. -/
def Register.IsSpelled (r : Register) : Prop :=
  ∃ c ds, r.toList = c :: ds ∧ (c = 'R' ∨ c = 'T') ∧ ds ≠ [] ∧ ∀ d ∈ ds, d.isDigit = true

/-! ### Numbers -/

theorem toString_ne_nil (n : Nat) : (toString n).toList ≠ [] := by
  rw [Source.toList_toString]
  exact Nat.toDigits_ne_nil

theorem isDigit_of_mem_toString {n : Nat} {c : Char} (h : c ∈ (toString n).toList) : c.isDigit = true := by
  rw [Source.toList_toString] at h
  exact Nat.isDigit_of_mem_toDigits (by decide) (by decide) h

theorem Register.isSpelled_param (i : Nat) : (Register.param i).IsSpelled := by
  refine ⟨'R', (toString i).toList, ?_, .inl rfl, toString_ne_nil i, fun _ => isDigit_of_mem_toString⟩
  rw [param, String.toList_append]
  rfl

/-! ### Lists -/

/-- A word that can be told apart in a list. -/
structure IsItem (w : String) : Prop where
  ne_nil : w.toList ≠ []
  no_comma : ',' ∉ w.toList

theorem intercalate_cons {α : Type} (sep w : List α) (ws : List (List α)) :
    sep.intercalate (w :: ws) = w ++ ws.flatMap (sep ++ ·) := by
  induction ws generalizing w with
  | nil => simp
  | cons v ws ih => rw [List.intercalate_cons_cons, ih v, List.flatMap_cons, List.append_assoc, List.append_assoc]

/-- The blanks can be counted to the words after them. -/
theorem intercalate_comma (w : List Char) (ws : List (List Char)) :
    [',', ' '].intercalate (w :: ws) = [','].intercalate (w :: ws.map (' ' :: ·)) := by
  rw [intercalate_cons, intercalate_cons, List.flatMap_map]
  rfl

theorem intercalate_ne_empty {w : String} {ws : List String} (hw : IsItem w) : ", ".intercalate (w :: ws) ≠ "" := by
  intro he
  have hchars := congrArg String.toList he
  rw [String.toList_intercalate, List.map_cons, intercalate_cons] at hchars
  exact hw.ne_nil (List.append_eq_nil_iff.1 hchars).1

/-- Cut at its commas, a list falls into its words, each but the first with a blank before it. -/
theorem splitOn_intercalate_items {w : String} {ws : List String} (h : ∀ x ∈ w :: ws, IsItem x) :
    (", ".intercalate (w :: ws)).toList.splitOn ',' = w.toList :: (ws.map String.toList).map (' ' :: ·) := by
  rw [String.toList_intercalate, List.map_cons]
  refine (congrArg (List.splitOn ',') (intercalate_comma _ _)).trans (List.splitOn_intercalate ',' ?_ (by simp))
  intro l hl
  rcases List.mem_cons.1 hl with rfl | hl
  · exact (h w List.mem_cons_self).no_comma
  · simp only [List.mem_map, exists_exists_and_eq_and] at hl
    obtain ⟨x, hx, rfl⟩ := hl
    simpa using (h x (List.mem_cons_of_mem w hx)).no_comma

theorem intercalate_inj {ws vs : List String} (hws : ∀ w ∈ ws, IsItem w) (hvs : ∀ v ∈ vs, IsItem v)
    (h : ", ".intercalate ws = ", ".intercalate vs) : ws = vs := by
  match ws, vs with
  | [], [] => rfl
  | [], v :: vs => exact absurd h.symm (intercalate_ne_empty (hvs v List.mem_cons_self))
  | w :: ws, [] => exact absurd h (intercalate_ne_empty (hws w List.mem_cons_self))
  | w :: ws, v :: vs =>
    have hcut : w.toList :: (ws.map String.toList).map (' ' :: ·) =
        v.toList :: (vs.map String.toList).map (' ' :: ·) := by
      rw [← splitOn_intercalate_items hws, h, splitOn_intercalate_items hvs]
    obtain ⟨hhead, htail⟩ := List.cons.inj hcut
    rw [List.map_inj_right fun _ _ he => (List.cons.inj he).2, List.map_inj_right fun _ _ => String.toList_injective]
      at htail
    rw [String.toList_injective hhead, htail]

/-- The same for a list between brackets. -/
theorem bracketed_inj {l r : String} {ws vs : List String} (hws : ∀ w ∈ ws, IsItem w) (hvs : ∀ v ∈ vs, IsItem v)
    (h : l ++ ", ".intercalate ws ++ r = l ++ ", ".intercalate vs ++ r) : ws = vs :=
  intercalate_inj hws hvs ((String.append_right_inj l).1 ((String.append_left_inj r).1 h))

/-- The last `c` of a text stands where nothing after it is a `c`. -/
theorem append_cons_inj {c : Char} {a a' b b' : List Char} (hb : c ∉ b) (hb' : c ∉ b')
    (h : a ++ c :: b = a' ++ c :: b') : a = a' ∧ b = b' := by
  rcases List.append_eq_append_iff.1 h with ⟨d, rfl, hd⟩ | ⟨d, rfl, hd⟩
  · cases d with
    | nil => simpa using hd
    | cons x d => exact absurd (by simp [(List.cons.inj hd).2]) hb
  · cases d with
    | nil => simpa using hd.symm
    | cons x d => exact absurd (by simp [(List.cons.inj hd).2]) hb'

/-! ### Words -/

theorem Register.IsSpelled.isItem {r : Register} (h : r.IsSpelled) : IsItem r := by
  obtain ⟨c, ds, hr, hc, -, hds⟩ := h
  refine ⟨hr ▸ List.cons_ne_nil c ds, fun hm => ?_⟩
  rw [hr] at hm
  rcases List.mem_cons.1 hm with rfl | hm
  · rcases hc with hc | hc <;> cases hc
  · cases hds _ hm

theorem isItem_toString (n : Nat) : IsItem (toString n) :=
  ⟨toString_ne_nil n, fun h => nomatch isDigit_of_mem_toString h⟩

namespace ConstState

/-- The characters of a number: digits, and a minus. -/
theorem mem_text_const {v : Int32} {c : Char} (h : c ∈ (const v).text.toList) : c = '-' ∨ c.isDigit = true := by
  rw [text] at h
  obtain ⟨-, hv⟩ | ⟨-, hv⟩ := Source.toList_toString_int v.toInt
  · rw [hv] at h
    exact .inr (isDigit_of_mem_toString h)
  · rw [hv] at h
    exact (List.mem_cons.1 h).imp id isDigit_of_mem_toString

theorem notMem_text {c : Char} (hc : c = ',' ∨ c = '=') (s : ConstState) : c ∉ s.text.toList := by
  intro h
  cases s with
  | undef => rcases hc with rfl | rfl <;> exact absurd h (by decide)
  | nac => rcases hc with rfl | rfl <;> exact absurd h (by decide)
  | const v =>
    rcases mem_text_const h with rfl | hd
    · rcases hc with hc | hc <;> cases hc
    · rcases hc with rfl | rfl <;> cases hd

theorem text_const_ne {v : Int32} {w : String} (hw : ∃ c ∈ w.toList, c ≠ '-' ∧ c.isDigit = false) :
    (const v).text ≠ w := by
  rintro rfl
  obtain ⟨c, hc, hne, hd⟩ := hw
  rcases mem_text_const hc with he | he
  · exact hne he
  · cases hd.symm.trans he

theorem text_injective : Function.Injective text := by
  have hundef : ∃ c ∈ undef.text.toList, c ≠ '-' ∧ c.isDigit = false := ⟨'u', by decide, by decide, rfl⟩
  have hnac : ∃ c ∈ nac.text.toList, c ≠ '-' ∧ c.isDigit = false := ⟨'N', by decide, by decide, rfl⟩
  intro s t h
  cases s with
  | undef =>
    cases t with
    | undef => rfl
    | nac => exact absurd h (by decide)
    | const w => exact absurd h.symm (text_const_ne hundef)
  | nac =>
    cases t with
    | undef => exact absurd h (by decide)
    | nac => rfl
    | const w => exact absurd h.symm (text_const_ne hnac)
  | const v =>
    cases t with
    | undef => exact absurd h (text_const_ne hundef)
    | nac => exact absurd h (text_const_ne hnac)
    | const w =>
      have hread := (Source.readInt32_toString v).symm.trans
        ((congrArg (readInt32 ·.toList) h).trans (Source.readInt32_toString w))
      rw [Option.some.inj hread]

theorem entryText_injective :
    Function.Injective fun e : Register × ConstState => e.1 ++ "=" ++ e.2.text := by
  rintro ⟨r, s⟩ ⟨q, t⟩ h
  have hchars : r.toList ++ '=' :: s.text.toList = q.toList ++ '=' :: t.text.toList := by
    simpa using congrArg String.toList h
  obtain ⟨hr, hs⟩ := append_cons_inj (notMem_text (.inr rfl) s) (notMem_text (.inr rfl) t) hchars
  rw [String.toList_injective hr, text_injective (String.toList_injective hs)]

theorem isItem_entryText {r : Register} (h : r.IsSpelled) (s : ConstState) : IsItem (r ++ "=" ++ s.text) := by
  have hr := h.isItem
  refine ⟨by simp, fun hm => ?_⟩
  simp only [String.toList_append, List.mem_append] at hm
  rcases hm with (hm | hm) | hm
  · exact hr.no_comma hm
  · exact absurd hm (by decide)
  · exact notMem_text (.inl rfl) s hm

theorem entriesText_inj {l l' : List (Register × ConstState)} (hl : ∀ e ∈ l, e.1.IsSpelled)
    (hl' : ∀ e ∈ l', e.1.IsSpelled) (h : entriesText l = entriesText l') : l = l' := by
  have hitem : ∀ {l : List (Register × ConstState)}, (∀ e ∈ l, e.1.IsSpelled) →
      ∀ w ∈ l.map fun e => e.1 ++ "=" ++ e.2.text, IsItem w := by
    intro l hl w hw
    obtain ⟨e, he, rfl⟩ := List.mem_map.1 hw
    exact isItem_entryText (hl e he) e.2
  exact (List.map_inj_right entryText_injective).1 (bracketed_inj (hitem hl) (hitem hl') h)

end ConstState

/-! ### Values -/

theorem Registers.text_inj {s t : Registers} (hs : ∀ r ∈ s, r.IsSpelled) (ht : ∀ r ∈ t, r.IsSpelled)
    (h : s.text = t.text) : s = t := by
  refine Std.ExtTreeSet.toList_inj.1 (bracketed_inj (fun r hr => ?_) (fun r hr => ?_) h)
  · exact (hs r (Std.ExtTreeSet.mem_toList.1 hr)).isItem
  · exact (ht r (Std.ExtTreeSet.mem_toList.1 hr)).isItem

theorem QuadIds.text_inj {s t : QuadIds} (h : s.text = t.text) : s = t := by
  have hitem : ∀ {l : List QuadId}, ∀ w ∈ l.map toString, IsItem w := by
    intro l w hw
    obtain ⟨n, -, rfl⟩ := List.mem_map.1 hw
    exact isItem_toString n
  have hnumber : ∀ n m : QuadId, toString n = toString m → n = m := by
    intro n m hnm
    rw [← Source.digitsValue_toString n, hnm, Source.digitsValue_toString]
  exact Std.ExtTreeSet.toList_inj.1 ((List.map_inj_right hnumber).1 (bracketed_inj hitem hitem h))

theorem States.text_inj {m n : States} (hm : ∀ r ∈ m, r.IsSpelled) (hn : ∀ r ∈ n, r.IsSpelled)
    (h : ConstState.entriesText m.members = ConstState.entriesText n.members) : m = n := by
  have hmem : ∀ {m : States} {e : Register × ConstState}, e ∈ m.toList → e.1 ∈ m := by
    intro m e he
    rw [Std.ExtTreeMap.mem_iff_isSome_getElem?, Std.ExtTreeMap.mem_toList_iff_getElem?_eq_some.1 he]
    rfl
  exact Std.ExtTreeMap.toList_inj.1
    (ConstState.entriesText_inj (fun _ he => hm _ (hmem he)) (fun _ he => hn _ (hmem he)) h)

theorem Constants.text_inj {t u : Constants} (ht : ∀ r, t.get r ≠ .undef → Register.IsSpelled r)
    (hu : ∀ r, u.get r ≠ .undef → Register.IsSpelled r) (h : t.text = u.text) : t = u := by
  have hspelled : ∀ {t : Constants}, (∀ r, t.get r ≠ .undef → Register.IsSpelled r) →
      ∀ e ∈ t.members, e.1.IsSpelled := by
    intro t ht e he
    obtain ⟨⟨r, k⟩, hk, rfl⟩ := List.mem_map.1 he
    refine ht r ?_
    rw [get, Std.ExtTreeMap.mem_toList_iff_getElem?_eq_some.1 hk]
    exact k.state_ne_undef
  have hentry : ∀ e e' : Register × Known, (e.1, e.2.state) = (e'.1, e'.2.state) → e = e' := by
    intro e e' he
    exact Prod.ext (Prod.mk.inj he).1 (Known.state_inj (Prod.mk.inj he).2)
  have hmembers := ConstState.entriesText_inj (hspelled ht) (hspelled hu) h
  exact Std.ExtTreeMap.toList_inj.1 ((List.map_inj_right hentry).1 hmembers)

theorem RegisterSet.text_eq_iff {s t : RegisterSet} (hs : ∀ r ∈ s.members, r.IsSpelled)
    (ht : ∀ r ∈ t.members, r.IsSpelled) : s.text = t.text ↔ (s == t) = true := by
  show s.members.text = t.members.text ↔ (s.members == t.members) = true
  rw [beq_iff_eq]
  exact ⟨Registers.text_inj hs ht, congrArg Registers.text⟩

theorem DefSet.text_eq_iff (s t : DefSet) : s.text = t.text ↔ (s == t) = true := by
  obtain ⟨s⟩ := s
  obtain ⟨t⟩ := t
  rw [beq_iff_eq, DefSet.mk.injEq]
  exact ⟨QuadIds.text_inj, congrArg QuadIds.text⟩

theorem ConstantTable.text_eq_iff {t u : ConstantTable} (ht : ∀ r ∈ t.entries, r.IsSpelled)
    (hu : ∀ r ∈ u.entries, r.IsSpelled) : t.text = u.text ↔ (t == u) = true := by
  show _ ↔ (t.entries == u.entries) = true
  rw [beq_iff_eq]
  exact ⟨States.text_inj ht hu, congrArg fun m : States => ConstState.entriesText m.members⟩

end Dataflow
