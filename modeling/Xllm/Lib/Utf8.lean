import Mathlib.Data.List.Basic

/-!
# UTF-8 over lists of bytes

A text is the concatenation of the encodings of its characters (`encodeText`). `Recognizes` says
that a function tells whether a list of bytes begins with a character and how many bytes it takes,
which determines the function where it says yes.
-/

namespace Xllm.Lib.Utf8

open List

open String (utf8EncodeChar)

def encodeText (text : List Char) : List UInt8 := text.flatMap utf8EncodeChar

@[simp] theorem encodeText_nil : encodeText [] = [] := rfl

@[simp] theorem encodeText_cons (c : Char) (text : List Char) :
    encodeText (c :: text) = utf8EncodeChar c ++ encodeText text := rfl

theorem encodeText_append (text text' : List Char) :
    encodeText (text ++ text') = encodeText text ++ encodeText text' :=
  flatMap_append

theorem utf8EncodeChar_length_pos (c : Char) : 0 < (utf8EncodeChar c).length :=
  length_pos_iff.mpr String.utf8EncodeChar_ne_nil

theorem val_lt (c : Char) : c.val.toNat < 0x110000 := by
  cases c.valid with
  | inl h => exact Nat.lt_trans h (by decide)
  | inr h => exact h.2

/-- The encoding in arithmetic: a lead byte, and six bits in each byte behind it. -/
theorem utf8EncodeChar_cases (c : Char) :
    (c.val.toNat < 0x80 ∧ utf8EncodeChar c = [UInt8.ofNat c.val.toNat]) ∨
    (0x80 ≤ c.val.toNat ∧ c.val.toNat < 0x800 ∧ utf8EncodeChar c =
        [UInt8.ofNat (0xC0 + c.val.toNat / 64), UInt8.ofNat (0x80 + c.val.toNat % 64)]) ∨
    (0x800 ≤ c.val.toNat ∧ c.val.toNat < 0x10000 ∧ utf8EncodeChar c =
        [UInt8.ofNat (0xE0 + c.val.toNat / 4096), UInt8.ofNat (0x80 + c.val.toNat / 64 % 64),
          UInt8.ofNat (0x80 + c.val.toNat % 64)]) ∨
    (0x10000 ≤ c.val.toNat ∧ c.val.toNat < 0x110000 ∧ utf8EncodeChar c =
        [UInt8.ofNat (0xF0 + c.val.toNat / 262144), UInt8.ofNat (0x80 + c.val.toNat / 4096 % 64),
          UInt8.ofNat (0x80 + c.val.toNat / 64 % 64), UInt8.ofNat (0x80 + c.val.toNat % 64)]) := by
  have hlt := val_lt c
  unfold utf8EncodeChar
  generalize c.val.toNat = v at hlt ⊢
  by_cases h1 : v ≤ 0x7F
  · exact .inl ⟨Nat.lt_succ_of_le h1, if_pos h1⟩
  right
  by_cases h2 : v ≤ 0x7FF
  · left
    refine ⟨Nat.lt_of_not_le h1, Nat.lt_succ_of_le h2, ?_⟩
    simp only [if_neg h1, if_pos h2]
    rw [Nat.mod_eq_of_lt (by omega : v / 64 < 0x20), Nat.add_comm 0xC0, Nat.add_comm 0x80]
  right
  by_cases h3 : v ≤ 0xFFFF
  · left
    refine ⟨Nat.lt_of_not_le h2, Nat.lt_succ_of_le h3, ?_⟩
    simp only [if_neg h1, if_neg h2, if_pos h3]
    rw [Nat.mod_eq_of_lt (by omega : v / 4096 < 0x10)]
    simp only [Nat.add_comm]
  right
  refine ⟨Nat.lt_of_not_le h3, hlt, ?_⟩
  simp only [if_neg h1, if_neg h2, if_neg h3]
  rw [Nat.mod_eq_of_lt (by omega : v / 262144 < 0x08)]
  simp only [Nat.add_comm]

variable {n : Nat}

theorem val_ofNat (h : n.isValidChar) : (Char.ofNat n).val.toNat = n := by
  rw [Char.ofNat, dif_pos h]
  rfl

theorem utf8EncodeChar_ascii (h : n < 0x80) :
    utf8EncodeChar (Char.ofNat n) = [UInt8.ofNat n] := by
  have hval : (Char.ofNat n).val.toNat = n := val_ofNat (.inl (Nat.lt_trans h (by decide)))
  rcases utf8EncodeChar_cases (Char.ofNat n) with ⟨-, hchar⟩ | ⟨hle, -⟩ | ⟨hle, -⟩ | ⟨hle, -⟩
  · rw [hchar, hval]
  all_goals omega

/-- The character that bytes begin with. -/
def firstChar (bytes : List UInt8) : Option Char := bytes.toByteArray.utf8DecodeChar? 0

theorem firstChar_append (c : Char) (rest : List UInt8) :
    firstChar (utf8EncodeChar c ++ rest) = some c := by
  unfold firstChar
  rw [toByteArray_append]
  exact ByteArray.utf8DecodeChar?_utf8EncodeChar_append

variable {bytes : List UInt8} {c : Char}

theorem eq_of_firstChar (h : firstChar bytes = some c) :
    ∃ rest, bytes = utf8EncodeChar c ++ rest := by
  obtain ⟨rest, hrest⟩ := ByteArray.exists_of_utf8DecodeChar?_eq_some h
  refine ⟨rest.data.toList, ?_⟩
  have := congrArg (fun array => array.data.toList) hrest
  simpa using this

theorem char_unique {c' : Char} {rest rest' : List UInt8}
    (h : utf8EncodeChar c ++ rest = utf8EncodeChar c' ++ rest') : c = c' := by
  have hc := firstChar_append c rest
  rw [h, firstChar_append] at hc
  exact (Option.some.inj hc).symm

theorem firstChar_eq_none_iff :
    firstChar bytes = none ↔ ∀ (c : Char) (rest : List UInt8), bytes ≠ utf8EncodeChar c ++ rest := by
  constructor
  · intro h c rest heq
    rw [heq, firstChar_append] at h
    cases h
  · intro h
    cases hfirst : firstChar bytes with
    | none => rfl
    | some c =>
      obtain ⟨rest, hrest⟩ := eq_of_firstChar hfirst
      exact absurd hrest (h c rest)

/-- Bytes are a text, and then bytes that begin with no character. -/
theorem exists_text_append (bytes : List UInt8) :
    ∃ text tail, bytes = encodeText text ++ tail ∧ firstChar tail = none := by
  induction hlength : bytes.length using Nat.strongRecOn generalizing bytes with
  | ind length ih =>
    cases hfirst : firstChar bytes with
    | none => exact ⟨[], bytes, rfl, hfirst⟩
    | some c =>
      obtain ⟨rest, hrest⟩ := eq_of_firstChar hfirst
      have hlt : rest.length < length := by
        rw [← hlength, hrest, length_append]
        exact Nat.lt_add_of_pos_left (utf8EncodeChar_length_pos c)
      obtain ⟨text, tail, htext, htail⟩ := ih rest.length hlt rest rfl
      refine ⟨c :: text, tail, ?_, htail⟩
      rw [hrest, htext, encodeText_cons, List.append_assoc]

/-! ## Repairs -/

/-- U+FFFD. -/
def replacementChar : Char := Char.ofNat 0xFFFD

/-- No character begins in a run of bytes, whatever comes behind it. -/
def NoChar (run rest : List UInt8) : Prop :=
  ∀ before after, run = before ++ after → after ≠ [] → firstChar (after ++ rest) = none

/-- Ill-formed runs are replaced, by one replacement character for each byte at most, and the
characters before and behind them are kept. -/
inductive Repairs : List UInt8 → List UInt8 → Prop
  | done : Repairs [] []
  | char (c : Char) {rest out : List UInt8} :
    Repairs rest out → Repairs (utf8EncodeChar c ++ rest) (utf8EncodeChar c ++ out)
  | run {run rest out : List UInt8} (n : Nat) : NoChar run rest → 0 < n → n ≤ run.length →
    Repairs rest out → Repairs (run ++ rest) (encodeText (List.replicate n replacementChar) ++ out)

variable {text : List Char} {out : List UInt8}

theorem Repairs.of_text (h : Repairs bytes out) :
    Repairs (encodeText text ++ bytes) (encodeText text ++ out) := by
  induction text with
  | nil => exact h
  | cons c text ih =>
    rw [encodeText_cons, List.append_assoc, List.append_assoc]
    exact .char c ih

/-- A character at the beginning is kept. -/
theorem Repairs.char_inv (h : Repairs (utf8EncodeChar c ++ bytes) out) :
    ∃ rest, out = utf8EncodeChar c ++ rest ∧ Repairs bytes rest := by
  generalize hall : utf8EncodeChar c ++ bytes = all at h
  cases h with
  | done => exact absurd (append_eq_nil_iff.mp hall).1 String.utf8EncodeChar_ne_nil
  | @char c' rest out h =>
    obtain rfl := char_unique hall
    obtain rfl := append_cancel_left hall
    exact ⟨out, rfl, h⟩
  | @run run rest out n hrun hpos hle h =>
    have hne : run ≠ [] := length_pos_iff.mp (Nat.lt_of_lt_of_le hpos hle)
    have hnone := hrun [] run rfl hne
    rw [← hall, firstChar_append] at hnone
    cases hnone

theorem Repairs.text_inv (h : Repairs (encodeText text ++ bytes) out) :
    ∃ rest, out = encodeText text ++ rest ∧ Repairs bytes rest := by
  induction text generalizing out with
  | nil => exact ⟨out, rfl, h⟩
  | cons c text ih =>
    rw [encodeText_cons, List.append_assoc] at h
    obtain ⟨rest, rfl, hrest⟩ := h.char_inv
    obtain ⟨rest', rfl, hrest'⟩ := ih hrest
    exact ⟨rest', by rw [encodeText_cons, List.append_assoc], hrest'⟩

theorem Repairs.nil_inv (h : Repairs bytes []) : bytes = [] := by
  generalize hout : ([] : List UInt8) = out at h
  cases h with
  | done => rfl
  | char c _ => exact absurd (append_eq_nil_iff.mp hout.symm).1 String.utf8EncodeChar_ne_nil
  | run n _ hpos _ _ =>
    obtain ⟨m, rfl⟩ := Nat.exists_eq_succ_of_ne_zero (Nat.ne_of_gt hpos)
    rw [replicate_succ, encodeText_cons, List.append_assoc] at hout
    exact absurd (append_eq_nil_iff.mp hout.symm).1 String.utf8EncodeChar_ne_nil

/-- One replacement character stands for bytes without a character. -/
theorem Repairs.replacement_iff (hfirst : firstChar bytes = none) :
    Repairs bytes (utf8EncodeChar replacementChar) ↔ bytes ≠ [] ∧ NoChar bytes [] := by
  constructor
  · intro h
    generalize hout : utf8EncodeChar replacementChar = out at h
    cases h with
    | done => exact absurd hout String.utf8EncodeChar_ne_nil
    | char c _ =>
      rw [firstChar_append] at hfirst
      cases hfirst
    | @run run rest out n hrun hpos hle h =>
      obtain ⟨m, rfl⟩ := Nat.exists_eq_succ_of_ne_zero (Nat.ne_of_gt hpos)
      rw [replicate_succ, encodeText_cons, List.append_assoc] at hout
      have hnil := append_right_eq_self.mp hout.symm
      obtain rfl := (append_eq_nil_iff.mp hnil).2
      obtain rfl := h.nil_inv
      rw [append_nil]
      exact ⟨length_pos_iff.mp (Nat.lt_of_lt_of_le hpos hle), hrun⟩
  · intro ⟨hne, hrun⟩
    have h := Repairs.run 1 hrun Nat.one_pos (length_pos_iff.mpr hne) .done
    rw [append_nil, append_nil] at h
    exact h

/-- A test for a character at the beginning of bytes, with the number of bytes it takes. -/
structure Recognizes (recognize : List UInt8 → Bool × Nat) : Prop where
  char : ∀ (c : Char) (rest : List UInt8),
    recognize (utf8EncodeChar c ++ rest) = (true, (utf8EncodeChar c).length)
  other : ∀ bytes, (∀ (c : Char) (rest : List UInt8), bytes ≠ utf8EncodeChar c ++ rest) →
    (recognize bytes).1 = false

/-- The test by decoding. -/
def recognizeFirst (bytes : List UInt8) : Bool × Nat :=
  match firstChar bytes with
  | some c => (true, (utf8EncodeChar c).length)
  | none => (false, 1)

theorem recognizeFirst_recognizes : Recognizes recognizeFirst where
  char c rest := by
    unfold recognizeFirst
    rw [firstChar_append]
  other bytes h := by
    unfold recognizeFirst
    rw [firstChar_eq_none_iff.mpr h]

end Xllm.Lib.Utf8
