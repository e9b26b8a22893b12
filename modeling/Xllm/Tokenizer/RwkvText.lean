import Xllm.Lib.Utf8
import Xllm.Tokenizer.Rwkv

/-!
# Characters in the RWKV tokenizer

The tokenizer reads and writes UTF-8 by tests of its own on the bits of a byte. On the encoding of a
character they say what the encoding is: `decodeUtf8Codepoint_char` and `utf8AppendCodepoint_val` for
the literals, `decodeLoop_char` for the text that is decoded.
-/

namespace Xllm.Tokenizer.RwkvTokenizer

open Xllm.Lib.Utf8 List
open String (utf8EncodeChar)

/-! ## The bits of a byte -/

theorem isContinuation_ofNat :
    ∀ b < 64, isContinuation (UInt8.ofNat (0x80 + b)) = true ∧
      (UInt8.ofNat (0x80 + b) &&& 0x3F).toNat = b := by
  decide

theorem lead_one :
    ∀ a < 0x80, UInt8.ofNat a &&& 0x80 = 0 ∧ UInt8.ofNat a < 0x80 ∧ (UInt8.ofNat a).toNat = a := by
  decide

theorem lead_two :
    ∀ a < 32, UInt8.ofNat (0xC0 + a) &&& 0x80 ≠ 0 ∧ ¬ UInt8.ofNat (0xC0 + a) < 0x80 ∧
      UInt8.ofNat (0xC0 + a) &&& 0xE0 = 0xC0 ∧ (UInt8.ofNat (0xC0 + a) &&& 0x1F).toNat = a := by
  decide

theorem lead_three :
    ∀ a < 16, UInt8.ofNat (0xE0 + a) &&& 0x80 ≠ 0 ∧ ¬ UInt8.ofNat (0xE0 + a) < 0x80 ∧
      UInt8.ofNat (0xE0 + a) &&& 0xE0 ≠ 0xC0 ∧ UInt8.ofNat (0xE0 + a) &&& 0xF0 = 0xE0 ∧
      (UInt8.ofNat (0xE0 + a) &&& 0x0F).toNat = a := by
  decide

theorem lead_four :
    ∀ a < 8, UInt8.ofNat (0xF0 + a) &&& 0x80 ≠ 0 ∧ ¬ UInt8.ofNat (0xF0 + a) < 0x80 ∧
      UInt8.ofNat (0xF0 + a) &&& 0xE0 ≠ 0xC0 ∧ UInt8.ofNat (0xF0 + a) &&& 0xF0 ≠ 0xE0 ∧
      UInt8.ofNat (0xF0 + a) &&& 0xF8 = 0xF0 ∧ (UInt8.ofNat (0xF0 + a) &&& 0x07).toNat = a := by
  decide

theorem toNat_toUInt32_shiftLeft (byte : UInt8) (n : UInt32) (hn : n.toNat ≤ 18) :
    (byte.toUInt32 <<< n).toNat = byte.toNat * 2 ^ n.toNat := by
  have hpow : 2 ^ n.toNat ≤ 2 ^ 18 := Nat.pow_le_pow_right (by decide) hn
  have hlt : byte.toNat * 2 ^ n.toNat < 2 ^ 8 * 2 ^ 18 :=
    Nat.mul_lt_mul_of_lt_of_le byte.toNat_lt hpow (by decide)
  rw [UInt32.toNat_shiftLeft, UInt8.toNat_toUInt32, Nat.shiftLeft_eq,
    Nat.mod_eq_of_lt (Nat.lt_of_le_of_lt hn (by decide) : n.toNat < 32)]
  exact Nat.mod_eq_of_lt (Nat.lt_trans hlt (by decide))

theorem mul_or_eq_add (a b n : Nat) (h : b < 2 ^ n) : a * 2 ^ n ||| b = a * 2 ^ n + b := by
  rw [← Nat.shiftLeft_eq, ← Nat.shiftLeft_add_eq_or_of_lt h]

theorem join_two (v : Nat) : v / 64 * 2 ^ 6 ||| v % 64 = v := by
  rw [mul_or_eq_add _ (v % 64) 6 (Nat.mod_lt v (by decide))]
  exact Nat.div_add_mod' v 64

theorem join_three (v : Nat) : v / 4096 * 2 ^ 12 ||| v / 64 % 64 * 2 ^ 6 ||| v % 64 = v := by
  rw [mul_or_eq_add _ _ 12 (by omega)]
  have h : v / 4096 * 2 ^ 12 + v / 64 % 64 * 2 ^ 6 = v / 64 * 2 ^ 6 := by omega
  rw [h, join_two]

theorem join_four (v : Nat) :
    v / 262144 * 2 ^ 18 ||| v / 4096 % 64 * 2 ^ 12 ||| v / 64 % 64 * 2 ^ 6 ||| v % 64 = v := by
  rw [mul_or_eq_add _ _ 18 (by omega)]
  have h : v / 262144 * 2 ^ 18 + v / 4096 % 64 * 2 ^ 12 = v / 4096 * 2 ^ 12 := by omega
  rw [h, join_three]

/-! ## Literals -/

theorem utf8AppendCodepoint_val (c : Char) : utf8AppendCodepoint c.val = utf8EncodeChar c := by
  have hle : c.val ≤ 0x10FFFF := UInt32.le_iff_toNat_le.mpr (Nat.le_of_lt_succ (val_lt c))
  rw [String.utf8EncodeChar_eq_utf8EncodeCharFast, String.utf8EncodeCharFast, utf8AppendCodepoint,
    if_pos hle]
  -- The masks are the same numbers in 32 bits and in 8 bits.
  have h07 : UInt32.toUInt8 0x07 = 0x07 := rfl
  have h0F : UInt32.toUInt8 0x0F = 0x0F := rfl
  have h1F : UInt32.toUInt8 0x1F = 0x1F := rfl
  have h3F : UInt32.toUInt8 0x3F = 0x3F := rfl
  have h80 : UInt32.toUInt8 0x80 = 0x80 := rfl
  have hC0 : UInt32.toUInt8 0xC0 = 0xC0 := rfl
  have hE0 : UInt32.toUInt8 0xE0 = 0xE0 := rfl
  have hF0 : UInt32.toUInt8 0xF0 = 0xF0 := rfl
  simp only [UInt32.toUInt8_or, UInt32.toUInt8_and, UInt8.or_comm, h07, h0F, h1F, h3F, h80, hC0, hE0,
    hF0]

theorem decodeUtf8Codepoint_char (c : Char) (rest : Bytes) :
    decodeUtf8Codepoint (utf8EncodeChar c ++ rest) = some (c.val, (utf8EncodeChar c).length) := by
  rcases utf8EncodeChar_cases c with ⟨hlt, h⟩ | ⟨-, hlt, h⟩ | ⟨-, hlt, h⟩ | ⟨-, hlt, h⟩ <;> rw [h]
  · obtain ⟨h1, -, hlead⟩ := lead_one c.val.toNat hlt
    simp only [cons_append, decodeUtf8Codepoint, if_pos h1, length_singleton]
    congr
    rw [← UInt32.toNat_inj, UInt8.toNat_toUInt32, hlead]
  · obtain ⟨h1, -, h2, hlead⟩ := lead_two (c.val.toNat / 64) (by omega)
    obtain ⟨hc1, hv1⟩ := isContinuation_ofNat (c.val.toNat % 64) (Nat.mod_lt _ (by decide))
    simp only [cons_append, decodeUtf8Codepoint, if_neg h1, if_pos h2, hc1, ↓reduceIte]
    congr
    rw [← UInt32.toNat_inj, UInt32.toNat_or, toNat_toUInt32_shiftLeft _ 6 (by decide),
      UInt8.toNat_toUInt32, hlead, hv1]
    exact join_two c.val.toNat
  · obtain ⟨h1, -, h2, h3, hlead⟩ := lead_three (c.val.toNat / 4096) (by omega)
    obtain ⟨hc1, hv1⟩ := isContinuation_ofNat (c.val.toNat / 64 % 64) (Nat.mod_lt _ (by decide))
    obtain ⟨hc2, hv2⟩ := isContinuation_ofNat (c.val.toNat % 64) (Nat.mod_lt _ (by decide))
    simp only [cons_append, decodeUtf8Codepoint, if_neg h1, if_neg h2, if_pos h3, hc1, hc2,
      Bool.and_self, ↓reduceIte]
    congr
    rw [← UInt32.toNat_inj, UInt32.toNat_or, UInt32.toNat_or,
      toNat_toUInt32_shiftLeft _ 12 (by decide), toNat_toUInt32_shiftLeft _ 6 (by decide),
      UInt8.toNat_toUInt32, hlead, hv1, hv2]
    exact join_three c.val.toNat
  · obtain ⟨h1, -, h2, h3, h4, hlead⟩ := lead_four (c.val.toNat / 262144) (by omega)
    obtain ⟨hc1, hv1⟩ := isContinuation_ofNat (c.val.toNat / 4096 % 64) (Nat.mod_lt _ (by decide))
    obtain ⟨hc2, hv2⟩ := isContinuation_ofNat (c.val.toNat / 64 % 64) (Nat.mod_lt _ (by decide))
    obtain ⟨hc3, hv3⟩ := isContinuation_ofNat (c.val.toNat % 64) (Nat.mod_lt _ (by decide))
    simp only [cons_append, decodeUtf8Codepoint, if_neg h1, if_neg h2, if_neg h3, if_pos h4,
      hc1, hc2, hc3, Bool.and_self, ↓reduceIte]
    congr
    rw [← UInt32.toNat_inj, UInt32.toNat_or, UInt32.toNat_or, UInt32.toNat_or,
      toNat_toUInt32_shiftLeft _ 18 (by decide), toNat_toUInt32_shiftLeft _ 12 (by decide),
      toNat_toUInt32_shiftLeft _ 6 (by decide), UInt8.toNat_toUInt32, hlead, hv1, hv2, hv3]
    exact join_four c.val.toNat

/-! ## Texts -/

/-- The encoding of a character is one byte, or a lead byte with the bytes it asks for. -/
theorem char_bytes (c : Char) :
    (∃ byte, utf8EncodeChar c = [byte] ∧ byte < 0x80) ∨
    ∃ lead rest, utf8EncodeChar c = lead :: rest ∧ ¬ lead < 0x80 ∧
      seqLen lead = some (rest.length + 1) ∧ rest.all isContinuation = true := by
  rcases utf8EncodeChar_cases c with ⟨hlt, h⟩ | ⟨-, hlt, h⟩ | ⟨-, hlt, h⟩ | ⟨-, hlt, h⟩
  · obtain ⟨-, h1, -⟩ := lead_one c.val.toNat hlt
    exact .inl ⟨_, h, h1⟩
  · obtain ⟨-, h1, h2, -⟩ := lead_two (c.val.toNat / 64) (by omega)
    obtain ⟨hc1, -⟩ := isContinuation_ofNat (c.val.toNat % 64) (Nat.mod_lt _ (by decide))
    refine .inr ⟨_, _, h, h1, if_pos h2, ?_⟩
    rw [all_cons, hc1]
    rfl
  · obtain ⟨-, h1, h2, h3, -⟩ := lead_three (c.val.toNat / 4096) (by omega)
    obtain ⟨hc1, -⟩ := isContinuation_ofNat (c.val.toNat / 64 % 64) (Nat.mod_lt _ (by decide))
    obtain ⟨hc2, -⟩ := isContinuation_ofNat (c.val.toNat % 64) (Nat.mod_lt _ (by decide))
    refine .inr ⟨_, _, h, h1, (if_neg h2).trans (if_pos h3), ?_⟩
    rw [all_cons, all_cons, hc1, hc2]
    rfl
  · obtain ⟨-, h1, h2, h3, h4, -⟩ := lead_four (c.val.toNat / 262144) (by omega)
    obtain ⟨hc1, -⟩ := isContinuation_ofNat (c.val.toNat / 4096 % 64) (Nat.mod_lt _ (by decide))
    obtain ⟨hc2, -⟩ := isContinuation_ofNat (c.val.toNat / 64 % 64) (Nat.mod_lt _ (by decide))
    obtain ⟨hc3, -⟩ := isContinuation_ofNat (c.val.toNat % 64) (Nat.mod_lt _ (by decide))
    refine .inr ⟨_, _, h, h1, (if_neg h2).trans ((if_neg h3).trans (if_pos h4)), ?_⟩
    rw [all_cons, all_cons, all_cons, hc1, hc2, hc3]
    rfl

theorem decodeLoop_sequence {lead : UInt8} {bytes : Bytes} (hlead : ¬ lead < 0x80)
    (hlen : seqLen lead = some (bytes.length + 1)) (hbytes : bytes.all isContinuation = true)
    (rest : Bytes) (turns : Nat) :
    decodeLoop (turns + 1) (lead :: (bytes ++ rest)) = lead :: (bytes ++ decodeLoop turns rest) := by
  have hlt : ¬ (lead :: (bytes ++ rest)).length < bytes.length + 1 := by
    rw [length_cons, length_append]
    omega
  simp only [decodeLoop, if_neg hlead, hlen, if_neg hlt, Nat.add_sub_cancel, take_left, hbytes,
    ↓reduceIte, take_succ_cons, drop_succ_cons, drop_left, cons_append]

theorem decodeLoop_char (c : Char) (rest : Bytes) (turns : Nat) :
    decodeLoop (turns + 1) (utf8EncodeChar c ++ rest) =
      utf8EncodeChar c ++ decodeLoop turns rest := by
  rcases char_bytes c with ⟨byte, h, hbyte⟩ | ⟨lead, bytes, h, hlead, hlen, hbytes⟩ <;> rw [h]
  · simp only [cons_append, nil_append, decodeLoop, if_pos hbyte]
  · exact decodeLoop_sequence hlead hlen hbytes rest turns

theorem decodeLoop_encodeText (text : List Char) (turns : Nat)
    (hturns : (encodeText text).length ≤ turns) :
    decodeLoop turns (encodeText text) = encodeText text := by
  induction text generalizing turns with
  | nil => cases turns <;> rfl
  | cons c text ih =>
    rw [encodeText_cons] at hturns ⊢
    rw [length_append] at hturns
    have hpos := utf8EncodeChar_length_pos c
    cases turns with
    | zero => omega
    | succ turns => rw [decodeLoop_char, ih turns (by omega)]

end Xllm.Tokenizer.RwkvTokenizer
