import Mathlib.Data.List.TakeWhile
import Dataflow.Quad.Text
import Dataflow.Source.Lexeme
import Dataflow.Text.Basic

/-!
# Words that are read back

A word is read back (`Spelled`) if its shape is cut off whole wherever no word goes on after it, and it is
foreign to a shape that is refused there. Whether a word is the one or the other is decided on the word
alone, because no shape looks further than one character past its end (`Local`).
-/

namespace Dataflow.Source

/-- The characters of which words are made, apart from a leading minus. -/
def isWordChar (c : Char) : Bool := isNameChar c || c = '.' || c = '/' || c = '<' || c = '>'

/-- No word goes on into `r`. -/
def EndsWord (r : List Char) : Prop := ∀ c ∈ r.head?, isWordChar c = false

def Spelled (F : List Char → Option Cut) (x : List Char) : Prop :=
  ∀ r, EndsWord r → F (x ++ r) = some (x, r)

def Foreign (F : List Char → Option Cut) (x : List Char) : Prop := ∀ r, EndsWord r → F (x ++ r) = none

/-- What `F` cuts off a text does not change with what stands after the text. -/
def Local (F : List Char → Option Cut) : Prop :=
  ∀ x r, EndsWord r → F (x ++ r) = (F x).map fun c => (c.1, c.2 ++ r)

variable {F G : List Char → Option Cut} {first later : Char → Bool} {x r s t w : List Char} {c : Char}

theorem Local.spelled (h : Local F) (hx : F x = some (x, [])) : Spelled F x := by
  intro r hr
  rw [h x r hr, hx]
  rfl

theorem Local.foreign (h : Local F) (hx : F x = none) : Foreign F x := by
  intro r hr
  rw [h x r hr, hx]
  rfl

/-- What is refused before the end of a word is refused at every end. -/
theorem Local.foreign_of_append (h : Local F) (hr : EndsWord r) (hx : F (x ++ r) = none) : Foreign F x := by
  rw [h x r hr, Option.map_eq_none_iff] at hx
  exact h.foreign hx

theorem isWordChar_of_isNameChar (h : isNameChar c = true) : isWordChar c = true := by
  simp [isWordChar, h]

theorem isWordChar_of_isDigit (h : c.isDigit = true) : isWordChar c = true := by
  simp [isWordChar, isNameChar, Char.isAlphanum, h]

theorem EndsWord.isNameChar_eq (hr : EndsWord r) : (r.head?.map isNameChar).getD false = false := by
  cases r with
  | nil => rfl
  | cons c r =>
    by_contra h
    have hc : isWordChar c = false := hr c rfl
    rw [isWordChar_of_isNameChar (by simpa using h)] at hc
    cases hc

/-! ### Pieces -/

/-- What stands after a text matters only if it could go on with it. -/
theorem cutWhile_append (p : Char → Bool) (x : List Char) (hr : ∀ d ∈ r.head?, p d = false) :
    cutWhile p (x ++ r) = ((cutWhile p x).1, (cutWhile p x).2 ++ r) := by
  induction x with
  | nil =>
    cases r with
    | nil => rfl
    | cons d r => simp [cutWhile, hr d rfl]
  | cons c x ih =>
    cases hc : p c with
    | false => simp [cutWhile, hc]
    | true =>
      simp only [cutWhile, Prod.mk.injEq] at ih
      simp [cutWhile, hc, ih]

theorem cutWhile_of_forall (p : Char → Bool) (hs : ∀ d ∈ s, p d = true) : cutWhile p s = (s, []) := by
  rw [cutWhile, List.takeWhile_eq_self_iff.2 hs, List.dropWhile_eq_nil_iff.2 hs]

/-- What a word is made of, and that it ends where its characters do. -/
theorem cutWord_eq_some (h : cutWord first later s = some (x, r)) :
    s = x ++ r ∧ (∃ c t, x = c :: t ∧ first c = true ∧ ∀ d ∈ t, later d = true) ∧
      ∀ d ∈ r.head?, later d = false := by
  cases s with
  | nil => cases h
  | cons c s =>
    rw [cutWord] at h
    split at h
    · next hc =>
      obtain ⟨rfl, rfl⟩ := Prod.mk.inj (Option.some.inj h)
      refine ⟨?_, ⟨c, s.takeWhile later, rfl, hc, fun d hd => List.mem_takeWhile_imp hd⟩, fun d hd => ?_⟩
      · show c :: s = c :: (s.takeWhile later ++ s.dropWhile later)
        rw [List.takeWhile_append_dropWhile]
      · obtain ⟨l, hl⟩ : ∃ l, s.dropWhile later = d :: l := List.head?_eq_some_iff.1 hd
        have hne : s.dropWhile later ≠ [] := by simp [hl]
        have hhead := List.head_dropWhile_not later hne
        simpa [hl] using hhead
    · cases h

theorem cutWord_cons (hc : first c = true) (hs : ∀ d ∈ s, later d = true)
    (hr : ∀ d ∈ r.head?, later d = false) : cutWord first later (c :: s ++ r) = some (c :: s, r) := by
  rw [List.cons_append, cutWord, if_pos hc, cutWhile_append later s hr, cutWhile_of_forall later hs]
  rfl

theorem cutWord_eq_none (hc : first c = false) : cutWord first later (c :: s) = none := by
  rw [cutWord, hc]
  rfl

theorem cutText_append (w r : List Char) : cutText w (w ++ r) = some (w, r) := by
  rw [cutText, if_pos (List.isPrefixOf_iff_prefix.2 (List.prefix_append w r)), List.drop_left]

theorem cutText_eq_none {d : Char} (h : c ≠ d) : cutText (d :: w) (c :: s) = none := by
  rw [cutText, if_neg]
  simp [List.isPrefixOf, Ne.symm h]

theorem wholeName_eq_none (h : F s = none) : wholeName F s = none := by
  rw [wholeName, h]
  rfl

theorem wholeName_of_endsWord (h : F s = some (x, r)) (hr : EndsWord r) :
    wholeName F s = some (x, r) := by
  rw [wholeName, h]
  show (if (r.head?.map isNameChar).getD false = true then none else some (x, r)) = _
  rw [hr.isNameChar_eq]
  rfl

theorem cutBoth_eq (h : F s = some (x, t)) : cutBoth F G s = (G t).map fun c => (x ++ c.1, c.2) := by
  rw [cutBoth, h]
  cases hg : G t with
  | none => simp [hg]
  | some c => simp [hg]

theorem cutBoth_eq_none (h : F s = none) : cutBoth F G s = none := by
  rw [cutBoth, h]
  rfl

theorem wholeName_eq_some (h : wholeName F s = some (x, r)) : F s = some (x, r) := by
  cases hF : F s with
  | none =>
    rw [wholeName_eq_none hF] at h
    cases h
  | some c =>
    simp only [wholeName, hF, Option.bind_eq_bind, Option.bind_some] at h
    split at h
    · cases h
    · exact h

theorem cutBoth_eq_some (h : cutBoth F G s = some (x, r)) :
    ∃ y t z, F s = some (y, t) ∧ G t = some (z, r) ∧ x = y ++ z := by
  cases hF : F s with
  | none =>
    rw [cutBoth_eq_none hF] at h
    cases h
  | some c =>
    rw [cutBoth_eq hF, Option.map_eq_some_iff] at h
    obtain ⟨d, hG, heq⟩ := h
    obtain ⟨rfl, rfl⟩ := Prod.mk.inj heq
    exact ⟨c.1, c.2, d.1, rfl, hG, rfl⟩

theorem eq_of_cutText (h : cutText w s = some (x, r)) : x = w := by
  rw [cutText] at h
  split at h
  · exact (Prod.mk.inj (Option.some.inj h)).1.symm
  · cases h

/-! ### Locality -/

theorem local_cutText (hw : w.all isWordChar = true) : Local (cutText w) := by
  intro x r hr
  rw [List.all_eq_true] at hw
  -- the text `w` cannot reach into `r`, which starts with no character of a word
  have key : w <+: x ++ r ↔ w <+: x := by
    refine ⟨fun h => ?_, fun h => h.trans (List.prefix_append x r)⟩
    induction x generalizing w with
    | nil =>
      cases w with
      | nil => exact List.nil_prefix
      | cons c w =>
        obtain ⟨l, hl⟩ := h
        have hc : isWordChar c = false := hr c (by rw [← List.nil_append r, ← hl]; rfl)
        rw [hw c List.mem_cons_self] at hc
        cases hc
    | cons d x ih =>
      cases w with
      | nil => exact List.nil_prefix
      | cons c w =>
        rw [List.cons_append, List.cons_prefix_cons] at h
        exact List.cons_prefix_cons.2 ⟨h.1, ih (fun d hd => hw d (List.mem_cons_of_mem c hd)) h.2⟩
  simp only [cutText, List.isPrefixOf_iff_prefix, key]
  split
  · next h => rw [Option.map_some, List.drop_append_of_le_length h.length_le]
  · rfl

theorem local_cutWord (hf : ∀ c, first c = true → isWordChar c = true)
    (hl : ∀ c, later c = true → isWordChar c = true) : Local (cutWord first later) := by
  intro x r hr
  have hstop : ∀ p : Char → Bool, (∀ c, p c = true → isWordChar c = true) → ∀ d ∈ r.head?, p d = false := by
    intro p hp d hd
    by_contra h
    have hd := hr d hd
    rw [hp d (by simpa using h)] at hd
    cases hd
  cases x with
  | nil =>
    cases r with
    | nil => rfl
    | cons d r => exact cutWord_eq_none (hstop first hf d rfl)
  | cons c x =>
    by_cases hc : first c = true
    · rw [List.cons_append, cutWord, cutWord, if_pos hc, if_pos hc, cutWhile_append later x (hstop later hl)]
      rfl
    · rw [List.cons_append, cutWord, cutWord, if_neg hc, if_neg hc]
      rfl

theorem Local.or (hF : Local F) (hG : Local G) : Local fun s => (F s).or (G s) := by
  intro x r hr
  show (F (x ++ r)).or (G (x ++ r)) = ((F x).or (G x)).map _
  rw [hF x r hr, hG x r hr]
  cases F x with
  | none => rfl
  | some c => rfl

theorem Local.both (hF : Local F) (hG : Local G) : Local (cutBoth F G) := by
  intro x r hr
  cases h : F x with
  | none =>
    have hr' : F (x ++ r) = none := by rw [hF x r hr, h]; rfl
    rw [cutBoth_eq_none h, cutBoth_eq_none hr']
    rfl
  | some c =>
    have hr' : F (x ++ r) = some (c.1, c.2 ++ r) := by rw [hF x r hr, h]; rfl
    rw [cutBoth_eq h, cutBoth_eq hr', hG c.2 r hr, Option.map_map, Option.map_map]
    rfl

theorem Local.wholeName (hF : Local F) : Local (wholeName F) := by
  intro x r hr
  cases h : F x with
  | none =>
    have hr' : F (x ++ r) = none := by rw [hF x r hr, h]; rfl
    rw [wholeName_eq_none h, wholeName_eq_none hr']
    rfl
  | some c =>
    have hr' : F (x ++ r) = some (c.1, c.2 ++ r) := by rw [hF x r hr, h]; rfl
    have hhead : ((c.2 ++ r).head?.map isNameChar).getD false = (c.2.head?.map isNameChar).getD false := by
      cases c.2 with
      | nil => exact hr.isNameChar_eq
      | cons d y => rfl
    simp only [Source.wholeName, h, hr', Option.bind_eq_bind, Option.bind_some, hhead]
    split
    · rfl
    · rfl

theorem local_cutDigits : Local cutDigits :=
  local_cutWord (fun _ => isWordChar_of_isDigit) fun _ => isWordChar_of_isDigit

theorem local_cutBlockName : Local cutBlockName :=
  (Local.or (local_cutText (by decide)) <| Local.or (local_cutText (by decide)) <|
    Local.both (local_cutText (by decide)) local_cutDigits).wholeName

theorem local_cutRegister : Local cutRegister :=
  ((Local.or (local_cutText (by decide)) (local_cutText (by decide))).both local_cutDigits).wholeName

theorem local_cutNull : Local cutNull := (local_cutText (by decide)).wholeName

theorem isWordChar_of_isUpper (h : c.isUpper = true) : isWordChar c = true := by
  have halpha : c.isAlpha = true := Bool.or_eq_true_iff.2 (.inl h)
  simp [isWordChar, isNameChar, Char.isAlphanum, halpha]

theorem isWordChar_of_isNameStart (h : isNameStart c = true) : isWordChar c = true := by
  simp only [isNameStart, Bool.or_eq_true, decide_eq_true_eq] at h
  obtain ((h | rfl) | rfl) | rfl := h
  · simp [isWordChar, isNameChar, Char.isAlphanum, h]
  · decide
  · decide
  · decide

theorem local_cutOpcode : Local cutOpcode := by
  refine local_cutWord (fun _ => isWordChar_of_isUpper) fun c hc => ?_
  simp only [Bool.or_eq_true, decide_eq_true_eq] at hc
  obtain (hc | hc) | rfl := hc
  · exact isWordChar_of_isUpper hc
  · exact isWordChar_of_isDigit hc
  · decide

theorem local_cutMethodName : Local cutMethodName := by
  refine local_cutWord (fun _ => isWordChar_of_isNameStart) fun c hc => ?_
  simp only [Bool.or_eq_true, decide_eq_true_eq] at hc
  obtain hc | rfl := hc
  · exact isWordChar_of_isNameChar hc
  · decide

theorem local_cutSymbol : Local cutSymbol :=
  local_cutWord (fun _ => isWordChar_of_isNameStart) fun _ h => h

/-! ### First characters -/

theorem foreign_cons (h : ∀ s, F (c :: s) = none) (x : List Char) : Foreign F (c :: x) :=
  fun r _ => h (x ++ r)

theorem cutDigits_eq_none (h : c.isDigit = false) : cutDigits (c :: s) = none := cutWord_eq_none h

theorem cutRegister_eq_none (hR : c ≠ 'R') (hT : c ≠ 'T') : cutRegister (c :: s) = none := by
  refine wholeName_eq_none (cutBoth_eq_none ?_)
  rw [cutText_eq_none hR, cutText_eq_none hT]
  rfl

theorem cutNull_eq_none (h : c ≠ 'n') : cutNull (c :: s) = none := wholeName_eq_none (cutText_eq_none h)

theorem cutInteger_eq_none (hm : c ≠ '-') (hd : c.isDigit = false) : cutInteger (c :: s) = none := by
  refine wholeName_eq_none ?_
  rw [cutBoth_eq_none (cutText_eq_none hm), cutDigits_eq_none hd]
  rfl

theorem cutBlockName_eq_none (he : c ≠ 'e') (hb : c ≠ 'b') : cutBlockName (c :: s) = none := by
  refine wholeName_eq_none ?_
  rw [cutText_eq_none he, cutText_eq_none he, cutBoth_eq_none (cutText_eq_none hb)]
  rfl

theorem ne_of_isNameStart (h : isNameStart c = true) : c ≠ '-' ∧ c.isDigit = false := by
  simp only [isNameStart, Bool.or_eq_true, decide_eq_true_eq] at h
  obtain ((h | rfl) | rfl) | rfl := h
  · refine ⟨fun he => ?_, ?_⟩
    · subst he
      cases h
    · by_contra hd
      rw [Bool.not_eq_false] at hd
      have hle : c.val ≤ '9'.val := of_decide_eq_true (Bool.and_eq_true_iff.1 hd).2
      -- letters come after the digits, capitals and small ones alike
      obtain hc | hc := Bool.or_eq_true_iff.1 h
      · have hge : 'A'.val ≤ c.val := (of_decide_eq_true hc).1
        exact absurd (UInt32.le_trans hge hle) (by decide)
      · have hge : 'a'.val ≤ c.val := of_decide_eq_true (Bool.and_eq_true_iff.1 hc).1
        exact absurd (UInt32.le_trans hge hle) (by decide)
  · decide
  · decide
  · decide

/-! ### Registers, names and symbols -/

theorem cutRegister_eq_some (h : cutRegister s = some (x, r)) :
    ∃ c t, x = c :: t ∧ (c = 'R' ∨ c = 'T') ∧ t ≠ [] ∧ ∀ d ∈ t, d.isDigit = true := by
  obtain ⟨y, t, z, hy, hz, rfl⟩ := cutBoth_eq_some (wholeName_eq_some h)
  obtain ⟨-, ⟨d, l, rfl, hd, hl⟩, -⟩ := cutWord_eq_some hz
  have hdigits : ∀ a ∈ d :: l, a.isDigit = true := List.forall_mem_cons.2 ⟨hd, hl⟩
  obtain hy | ⟨-, hy⟩ := Option.or_eq_some_iff.1 hy
  · exact ⟨'R', d :: l, by rw [eq_of_cutText hy]; rfl, .inl rfl, List.cons_ne_nil d l, hdigits⟩
  · exact ⟨'T', d :: l, by rw [eq_of_cutText hy]; rfl, .inr rfl, List.cons_ne_nil d l, hdigits⟩

theorem spelled_cutDigits (hne : x ≠ []) (hx : ∀ d ∈ x, d.isDigit = true) : Spelled cutDigits x := by
  refine local_cutDigits.spelled ?_
  cases x with
  | nil => exact absurd rfl hne
  | cons d l =>
    obtain ⟨hd, hl⟩ := List.forall_mem_cons.1 hx
    have hcut := cutWord_cons (r := []) hd hl (by simp)
    rwa [List.append_nil] at hcut

theorem spelled_cutRegister (h : cutRegister s = some (x, r)) : Spelled cutRegister x := by
  obtain ⟨c, t, rfl, hc, hne, ht⟩ := cutRegister_eq_some h
  intro r hr
  refine wholeName_of_endsWord ?_ hr
  have hfirst : (cutText ['R'] (c :: t ++ r)).or (cutText ['T'] (c :: t ++ r)) = some ([c], t ++ r) := by
    obtain rfl | rfl := hc
    · exact congrArg (Option.or · _) (cutText_append ['R'] (t ++ r))
    · rw [List.cons_append, cutText_eq_none (by decide)]
      exact cutText_append ['T'] (t ++ r)
  rw [cutBoth_eq hfirst, spelled_cutDigits hne ht r hr]
  rfl

theorem spelled_cutMethodName (h : cutMethodName s = some (x, r)) : Spelled cutMethodName x := by
  obtain ⟨-, ⟨c, t, rfl, hc, ht⟩, -⟩ := cutWord_eq_some h
  refine local_cutMethodName.spelled ?_
  have hcut := cutWord_cons (r := []) hc ht (by simp)
  rwa [List.append_nil] at hcut

/-- A word that is read as a symbol and as nothing that is tried before. -/
structure IsSymbol (x : List Char) : Prop where
  spelled : Spelled cutSymbol x
  register : Foreign cutRegister x
  null : Foreign cutNull x
  block : Foreign cutBlockName x

theorem isSymbol_of_cut (h : cutSymbol s = some (x, r)) (hreg : cutRegister s = none)
    (hnull : cutNull s = none) (hblock : cutBlockName s = none) : IsSymbol x := by
  obtain ⟨rfl, ⟨c, t, rfl, hc, ht⟩, hr⟩ := cutWord_eq_some h
  have hend : EndsWord r := hr
  refine ⟨local_cutSymbol.spelled ?_, local_cutRegister.foreign_of_append hend hreg,
    local_cutNull.foreign_of_append hend hnull, local_cutBlockName.foreign_of_append hend hblock⟩
  have hcut := cutWord_cons (r := []) hc ht (by simp)
  rwa [List.append_nil] at hcut

theorem Spelled.cut_self (h : Spelled F x) : F x = some (x, []) := by
  have hcut := h [] (by simp [EndsWord])
  rwa [List.append_nil] at hcut

theorem Spelled.cons (h : Spelled (cutWord first later) x) : ∃ c t, x = c :: t ∧ first c = true := by
  obtain ⟨-, ⟨c, t, hx, hc, -⟩, -⟩ := cutWord_eq_some h.cut_self
  exact ⟨c, t, hx, hc⟩

/-! ### Numbers -/

theorem toList_toString (n : Nat) : (toString n).toList = Nat.toDigits 10 n := by
  rw [Nat.toString_eq_ofList_toDigits, String.toList_ofList]

theorem spelled_toString (n : Nat) : Spelled cutDigits (toString n).toList := by
  rw [toList_toString]
  exact spelled_cutDigits Nat.toDigits_ne_nil fun _ => Nat.isDigit_of_mem_toDigits (by decide) (by decide)

theorem digitsValue_toString (n : Nat) : digitsValue (toString n).toList = n := by
  rw [toList_toString, digitsValue, ← Nat.ofDigitChars_eq_foldl, Nat.ofDigitChars_ten_toDigits]

theorem readBelow_toString {n limit : Nat} (h : n < limit) :
    readBelow limit (toString n).toList = some n := by
  simp only [readBelow, digitsValue_toString]
  rw [if_pos h]

/-- A negative number is written with a minus before its digits. -/
theorem toList_toString_int (i : Int) : (0 ≤ i ∧ toString i = toString i.natAbs) ∨
    (i < 0 ∧ (toString i).toList = '-' :: (toString i.natAbs).toList) := by
  cases i with
  | ofNat n => exact .inl ⟨Int.natCast_nonneg n, rfl⟩
  | negSucc n =>
    refine .inr ⟨Int.negSucc_lt_zero n, ?_⟩
    show ("-" ++ toString (n + 1)).toList = _
    rw [String.toList_append]
    rfl

theorem spelled_toString_int (i : Int) : Spelled cutInteger (toString i).toList := by
  obtain ⟨-, h⟩ | ⟨-, h⟩ := toList_toString_int i
  · rw [h]
    intro r hr
    obtain ⟨d, l, hl, hd⟩ := (spelled_toString i.natAbs).cons
    have hne : d ≠ '-' := by
      intro he
      subst he
      cases hd
    refine wholeName_of_endsWord ?_ hr
    have hcut := spelled_toString i.natAbs r hr
    rw [hl] at hcut ⊢
    rw [hcut, List.cons_append, cutBoth_eq_none (cutText_eq_none hne)]
    rfl
  · rw [h]
    intro r hr
    refine wholeName_of_endsWord ?_ hr
    have hminus : cutText ['-'] ('-' :: (toString i.natAbs).toList ++ r) =
        some (['-'], (toString i.natAbs).toList ++ r) := cutText_append ['-'] _
    rw [cutBoth_eq hminus, spelled_toString i.natAbs r hr]
    rfl

theorem readInt32_toString (v : Int32) : readInt32 (toString v.toInt).toList = some v := by
  have hlow := v.le_toInt
  have hhigh := v.toInt_lt
  obtain ⟨hv, h⟩ | ⟨hv, h⟩ := toList_toString_int v.toInt
  · obtain ⟨d, l, hl, hd⟩ := (spelled_toString v.toInt.natAbs).cons
    have hne : d ≠ '-' := by
      intro he
      subst he
      cases hd
    have hvalue := digitsValue_toString v.toInt.natAbs
    rw [h, hl]
    rw [hl] at hvalue
    have hread : readInt32 (d :: l) = if v.toInt.natAbs < 0x80000000 then
        some (Int32.ofInt v.toInt.natAbs) else none := by
      rw [readInt32]
      · rw [hvalue]
      · intro s hs
        exact hne (List.cons.inj hs).1
    rw [hread, if_pos (by omega), Int.natAbs_of_nonneg hv, Int32.ofInt_toInt]
  · rw [h]
    simp only [readInt32, digitsValue_toString]
    have habs : (v.toInt.natAbs : Int) = -v.toInt := by omega
    rw [if_pos (by omega), habs, Int.neg_neg, Int32.ofInt_toInt]

/-! ### Names of blocks -/

theorem blockText_cons (b : BlockId) : ∃ c t, b.text.toList = c :: t ∧ (c = 'e' ∨ c = 'b') := by
  rw [BlockId.text]
  split
  · exact ⟨'e', _, rfl, .inl rfl⟩
  · split
    · exact ⟨'e', _, rfl, .inl rfl⟩
    · refine ⟨'b', 'b' :: (toString b.index).toList, ?_, .inr rfl⟩
      rw [String.toList_append]
      rfl

theorem spelled_blockText (b : BlockId) : Spelled cutBlockName b.text.toList := by
  rw [BlockId.text]
  split
  · exact local_cutBlockName.spelled rfl
  · split
    · exact local_cutBlockName.spelled rfl
    · have htext : ("bb" ++ toString b.index).toList = ['b', 'b'] ++ (toString b.index).toList := by
        rw [String.toList_append]
        rfl
      rw [htext]
      intro r hr
      refine wholeName_of_endsWord ?_ hr
      have hdigits := spelled_toString b.index r hr
      rw [List.append_assoc, cutBoth_eq (cutText_append ['b', 'b'] _), hdigits]
      rfl

end Dataflow.Source
