import Xllm.Tokenizer.RwkvText
import Xllm.Tokenizer.TiktokenText

/-!
# The text of tokens

The bytes of tokens need not be UTF-8: a character may be cut, or never come to its end. Both decoders
keep the characters before the first byte that begins none. There tiktoken puts one U+FFFD and stops,
and RWKV goes on with rules of its own. `decoders_iff` says for which bytes both give the same text with
all characters in it: nothing but one cut character or one stray byte may follow the well-formed part.
-/

namespace Xllm.Tokenizer

open Xllm.Lib.Utf8 RwkvTokenizer TiktokenTokenizer List
open String (utf8EncodeChar)

/-! ## Bytes behind a text -/

/-- Bytes behind the last character that the decoders agree on. -/
inductive CutShort : Bytes → Prop
  /-- A byte that leads no character. -/
  | stray {byte : UInt8} : ¬ byte < 0x80 → seqLen byte = none → CutShort [byte]
  /-- A lead byte asks for more bytes than there are, and no character is among them. -/
  | unfinished {lead : UInt8} {rest : Bytes} {length : Nat} : seqLen lead = some length →
    (lead :: rest).length < length → NoChar (lead :: rest) [] → CutShort (lead :: rest)

/-- A byte below 128 is a character. -/
theorem not_lt_of_firstChar {byte : UInt8} {rest : Bytes} (h : firstChar (byte :: rest) = none) :
    ¬ byte < 0x80 := by
  intro hlt
  have hchar := utf8EncodeChar_ascii (UInt8.lt_iff_toNat_lt.mp hlt)
  rw [UInt8.ofNat_toNat] at hchar
  exact firstChar_eq_none_iff.mp h (Char.ofNat byte.toNat) rest (by rw [hchar]; rfl)

theorem seqLen_spec :
    ∀ n < 256, ∀ length ∈ seqLen (UInt8.ofNat n), ¬ UInt8.ofNat n < 0x80 ∧ 2 ≤ length := by
  decide +kernel

theorem seqLen_lead {byte : UInt8} {length : Nat} (h : seqLen byte = some length) :
    ¬ byte < 0x80 ∧ 2 ≤ length := by
  have hspec := seqLen_spec byte.toNat byte.toNat_lt length
  rw [UInt8.ofNat_toNat] at hspec
  exact hspec h

theorem CutShort.ne_nil {bytes : Bytes} (h : CutShort bytes) : bytes ≠ [] := by
  cases h with
  | stray _ _ => exact cons_ne_nil _ _
  | unfinished _ _ _ => exact cons_ne_nil _ _

theorem CutShort.noChar {bytes : Bytes} (h : CutShort bytes) : NoChar bytes [] := by
  cases h with
  | unfinished _ _ hchar => exact hchar
  | @stray byte hlarge hlead =>
    intro before after hparts hne
    obtain rfl : after = [byte] := by
      cases before with
      | nil => exact hparts.symm
      | cons first before =>
        have htail := (List.cons.inj hparts).2
        exact absurd (append_eq_nil_iff.mp htail.symm).2 hne
    rw [append_nil, firstChar_eq_none_iff]
    intro c rest hchar
    rcases char_bytes c with ⟨first, h, hsmall⟩ | ⟨lead, bytes, h, -, hlen, -⟩ <;> rw [h] at hchar
    · exact hlarge ((List.cons.inj hchar).1 ▸ hsmall)
    · rw [(List.cons.inj hchar).1, hlen] at hlead
      cases hlead

/-! ## The decoders -/

/-- tiktoken stops at the first byte that begins no character. -/
theorem decodeBytes_append {isValidDecodeUtf8 : Bytes → Bool × Nat}
    (hvalid : Recognizes isValidDecodeUtf8) (text : List Char) {tail : Bytes}
    (htail : firstChar tail = none) (turns : Nat)
    (hturns : (encodeText text ++ tail).length ≤ turns) :
    decodeBytes isValidDecodeUtf8 turns (encodeText text ++ tail) =
      encodeText text ++ if tail = [] then [] else replacement := by
  induction text generalizing turns with
  | nil =>
    rw [encodeText_nil, nil_append, nil_append] at *
    cases tail with
    | nil => cases turns <;> rfl
    | cons byte rest =>
      cases turns with
      | zero => exact absurd hturns (Nat.not_succ_le_zero _)
      | succ turns =>
        have hother := hvalid.other _ (firstChar_eq_none_iff.mp htail)
        rw [if_neg (cons_ne_nil _ _), decodeBytes.eq_3 _ _ _ (cons_ne_nil _ _)]
        simp only [hother, Bool.false_eq_true, ↓reduceIte]
  | cons c text ih =>
    have hpos := utf8EncodeChar_length_pos c
    rw [encodeText_cons, List.append_assoc] at hturns ⊢
    rw [length_append] at hturns
    cases turns with
    | zero => omega
    | succ turns =>
      rw [decodeBytes_char hvalid, ih turns (by omega), List.append_assoc]

/-- The number of turns does not matter. -/
theorem decodeLoop_turns (bytes : Bytes) (turns turns' : Nat) (h : bytes.length ≤ turns)
    (h' : bytes.length ≤ turns') : decodeLoop turns bytes = decodeLoop turns' bytes := by
  induction turns generalizing bytes turns' with
  | zero =>
    obtain rfl := length_eq_zero_iff.mp (Nat.le_zero.mp h)
    cases turns' <;> rfl
  | succ turns ih =>
    cases bytes with
    | nil => cases turns' <;> rfl
    | cons byte rest =>
      cases turns' with
      | zero => exact absurd h' (Nat.not_succ_le_zero _)
      | succ turns' =>
        have hrest := ih rest turns' (Nat.le_of_succ_le_succ h) (Nat.le_of_succ_le_succ h')
        unfold decodeLoop
        rw [hrest]
        cases hlen : seqLen byte with
        | none => rfl
        | some length =>
          have hdrop : ((byte :: rest).drop length).length ≤ rest.length := by
            have := (seqLen_lead hlen).2
            rw [length_drop, length_cons]
            omega
          dsimp only
          rw [ih _ turns' (Nat.le_trans hdrop (Nat.le_of_succ_le_succ h))
            (Nat.le_trans hdrop (Nat.le_of_succ_le_succ h'))]

/-- RWKV keeps the text that comes first. -/
theorem decodeLoop_append (text : List Char) (tail : Bytes) (turns : Nat)
    (hturns : (encodeText text ++ tail).length ≤ turns) :
    decodeLoop turns (encodeText text ++ tail) = encodeText text ++ decodeLoop tail.length tail := by
  induction text generalizing turns with
  | nil => exact decodeLoop_turns tail turns tail.length hturns (Nat.le_refl _)
  | cons c text ih =>
    have hpos := utf8EncodeChar_length_pos c
    rw [encodeText_cons, List.append_assoc] at hturns ⊢
    rw [length_append] at hturns
    cases turns with
    | zero => omega
    | succ turns => rw [decodeLoop_char, ih turns (by omega), List.append_assoc]

theorem decodeLoop_ne_nil (byte : UInt8) (rest : Bytes) (turns : Nat) :
    decodeLoop (turns + 1) (byte :: rest) ≠ [] := by
  have hreplacement : ∀ out, replacement ++ out ≠ [] := fun out => cons_ne_nil _ _
  unfold decodeLoop
  split
  · exact cons_ne_nil _ _
  · split
    · exact hreplacement _
    · rename_i length hlen
      split
      · exact cons_ne_nil _ _
      · split
        · have hlength := (seqLen_lead hlen).2
          obtain ⟨n, rfl⟩ := Nat.exists_eq_add_of_le' hlength
          exact cons_ne_nil _ _
        · exact hreplacement _

/-- RWKV puts one replacement character, and nothing else, for bytes that are cut short only. -/
theorem decodeLoop_replacement_iff {bytes : Bytes} (hne : bytes ≠ []) (hchar : NoChar bytes []) :
    decodeLoop bytes.length bytes = replacement ↔ CutShort bytes := by
  obtain ⟨byte, rest, rfl⟩ := exists_cons_of_ne_nil hne
  have hfirst : firstChar (byte :: rest) = none := by
    have h := hchar [] (byte :: rest) rfl hne
    rw [append_nil] at h
    exact h
  have hlarge := not_lt_of_firstChar hfirst
  have hmore : rest ≠ [] → replacement ++ decodeLoop rest.length rest ≠ replacement := by
    intro hrest heq
    obtain ⟨next, others, rfl⟩ := exists_cons_of_ne_nil hrest
    exact decodeLoop_ne_nil next others _ (append_right_eq_self.mp heq)
  rw [length_cons, decodeLoop, if_neg hlarge]
  cases hlen : seqLen byte with
  | none =>
    constructor
    · intro hout
      by_cases hrest : rest = []
      · rw [hrest]
        exact .stray hlarge hlen
      · exact absurd hout (hmore hrest)
    · intro hcut
      cases hcut with
      | stray _ _ => rfl
      | unfinished hlead _ _ =>
        rw [hlen] at hlead
        cases hlead
  | some length =>
    dsimp only
    have hlength := (seqLen_lead hlen).2
    by_cases hshort : (byte :: rest).length < length
    · rw [if_pos hshort]
      exact ⟨fun _ => .unfinished hlen hshort hchar, fun _ => rfl⟩
    · rw [if_neg hshort]
      have hcut : ¬ CutShort (byte :: rest) := by
        intro hcut
        cases hcut with
        | stray _ hnone =>
          rw [hlen] at hnone
          cases hnone
        | unfinished hlead hlt _ =>
          rw [hlen] at hlead
          cases hlead
          exact hshort hlt
      refine ⟨fun hout => ?_, fun h => absurd h hcut⟩
      rw [length_cons] at hshort
      split at hout
      · -- The bytes would be those of U+FFFD itself.
        exfalso
        obtain ⟨n, rfl⟩ := Nat.exists_eq_add_of_le' hlength
        have hbyte : byte = 0xEF := (List.cons.inj hout).1
        have hthree : n + 2 = 3 := by
          rw [hbyte] at hlen
          exact (Option.some.inj hlen).symm
        have htake : (byte :: rest).take (n + 2) = replacement := by
          apply (append_inj (hout.trans (append_nil _).symm) _).1
          rw [length_take, length_cons, Nat.min_eq_left (Nat.le_of_not_lt hshort), hthree]
          rfl
        have hparts := take_append_drop (n + 2) (byte :: rest)
        rw [htake] at hparts
        exact firstChar_eq_none_iff.mp hfirst replacementChar _ hparts.symm
      · have hrest : rest ≠ [] := by
          intro h
          rw [h, length_nil] at hshort
          omega
        exact absurd hout (hmore hrest)

/-! ## Both decoders -/

/-- What is asked of a decoded text. -/
structure Faithful (bytes out : Bytes) : Prop where
  valid : ∃ text, out = encodeText text
  repairs : Repairs bytes out

/-- What is asked of both decoders, for tokens with the same bytes. -/
structure DecodedAlike (bytes tiktoken rwkv : Bytes) : Prop where
  ofTiktoken : Faithful bytes tiktoken
  ofRwkv : Faithful bytes rwkv
  alike : tiktoken = rwkv

/-- The bytes that both decoders handle. -/
def EndsCutShort (bytes : Bytes) : Prop :=
  ∃ text tail, bytes = encodeText text ++ tail ∧ (tail = [] ∨ CutShort tail)

/-- Both decoders give the same text with all characters in it exactly when nothing but a character
that is cut short, or one stray byte, follows the well-formed bytes. -/
theorem decoders_iff {isValidDecodeUtf8 : Bytes → Bool × Nat}
    (hvalid : Recognizes isValidDecodeUtf8) (tiktoken : TiktokenTokenizer) (rwkv : RwkvTokenizer)
    (ids : List Int) (skipSpecialTokens : Bool)
    (hsame : ids.flatMap (tiktoken.tokenBytes skipSpecialTokens) =
      rwkv.bytesOf ids skipSpecialTokens) :
    DecodedAlike (rwkv.bytesOf ids skipSpecialTokens)
      (tiktoken.decode isValidDecodeUtf8 ids skipSpecialTokens)
      (rwkv.decode ids skipSpecialTokens) ↔
    EndsCutShort (rwkv.bytesOf ids skipSpecialTokens) := by
  unfold TiktokenTokenizer.decode RwkvTokenizer.decode
  rw [hsame]
  generalize rwkv.bytesOf ids skipSpecialTokens = bytes
  constructor
  · intro h
    obtain ⟨text, tail, rfl, htail⟩ := exists_text_append bytes
    refine ⟨text, tail, rfl, ?_⟩
    by_cases hnil : tail = []
    · exact .inl hnil
    right
    obtain ⟨out, hout, hrepairs⟩ := h.ofTiktoken.repairs.text_inv
    have halike := h.alike
    rw [decodeBytes_append hvalid text htail _ (Nat.le_refl _), if_neg hnil] at hout halike
    rw [decodeLoop_append text tail _ (Nat.le_refl _)] at halike
    obtain rfl := append_cancel_left hout
    obtain ⟨hne, hchar⟩ := (Repairs.replacement_iff htail).mp hrepairs
    exact (decodeLoop_replacement_iff hne hchar).mp (append_cancel_left halike).symm
  · intro ⟨text, tail, hbytes, htail⟩
    subst hbytes
    have hfirst : firstChar tail = none := by
      cases htail with
      | inl hnil => rw [hnil]; rfl
      | inr hcut =>
        have h := hcut.noChar [] tail rfl hcut.ne_nil
        rw [append_nil] at h
        exact h
    have htiktoken := decodeBytes_append hvalid text hfirst _ (Nat.le_refl _)
    have halike : decodeBytes isValidDecodeUtf8 (encodeText text ++ tail).length
        (encodeText text ++ tail) =
        decodeLoop (encodeText text ++ tail).length (encodeText text ++ tail) := by
      rw [htiktoken, decodeLoop_append text tail _ (Nat.le_refl _)]
      cases htail with
      | inl hnil => rw [if_pos hnil, hnil]; rfl
      | inr hcut =>
        rw [if_neg hcut.ne_nil, (decodeLoop_replacement_iff hcut.ne_nil hcut.noChar).mpr hcut]
    have hfaithful : Faithful (encodeText text ++ tail)
        (decodeBytes isValidDecodeUtf8 (encodeText text ++ tail).length
          (encodeText text ++ tail)) := by
      rw [htiktoken]
      cases htail with
      | inl hnil =>
        rw [if_pos hnil, hnil]
        exact ⟨⟨text, append_nil _⟩, Repairs.done.of_text⟩
      | inr hcut =>
        rw [if_neg hcut.ne_nil]
        refine ⟨⟨text ++ [replacementChar], ?_⟩, ?_⟩
        · rw [encodeText_append]
          rfl
        · exact ((Repairs.replacement_iff hfirst).mpr ⟨hcut.ne_nil, hcut.noChar⟩).of_text
    exact ⟨hfaithful, halike ▸ hfaithful, halike⟩

/-- Tokens for a stray byte, a letter, a surrogate and the two halves of `é`. -/
def stubVocab : List (Bytes × Int) :=
  [([0xFF], 1), ([0x41], 2), ([0xED, 0xA0, 0x80], 3), ([0xC3], 4), ([0xA9], 5)]

def stubTiktoken : TiktokenTokenizer := { vocab := stubVocab }

def stubRwkv : RwkvTokenizer :=
  { vocab := { idxToToken := stubVocab.map fun entry => (entry.2, entry.1) } }

theorem decoders_cut_short :
    DecodedAlike (stubRwkv.bytesOf [2, 4] false) (stubTiktoken.decode recognizeFirst [2, 4] false)
      (stubRwkv.decode [2, 4] false) ↔
    EndsCutShort (stubRwkv.bytesOf [2, 4] false) :=
  decoders_iff recognizeFirst_recognizes stubTiktoken stubRwkv [2, 4] false (by decide)

/-- tiktoken drops the letter behind a stray byte, and RWKV puts out a surrogate. -/
theorem decoders_disagree :
    stubTiktoken.decode recognizeFirst [1, 2] false = [0xEF, 0xBF, 0xBD] ∧
    stubRwkv.decode [1, 2] false = [0xEF, 0xBF, 0xBD, 0x41] ∧
    ¬ DecodedAlike (stubRwkv.bytesOf [1, 2] false)
      (stubTiktoken.decode recognizeFirst [1, 2] false) (stubRwkv.decode [1, 2] false) ∧
    ¬ Faithful (stubRwkv.bytesOf [3] false) (stubRwkv.decode [3] false) := by
  have htiktoken : stubTiktoken.decode recognizeFirst [1, 2] false = [0xEF, 0xBF, 0xBD] := by
    decide +kernel
  have hrwkv : stubRwkv.decode [1, 2] false = [0xEF, 0xBF, 0xBD, 0x41] := by decide +kernel
  refine ⟨htiktoken, hrwkv, fun h => ?_, fun h => ?_⟩
  · have halike := h.alike
    exact absurd halike (by decide)
  · obtain ⟨text, htext⟩ := h.valid
    have hfirst : firstChar (stubRwkv.decode [3] false) = none := by decide +kernel
    cases text with
    | nil =>
      have hne : stubRwkv.decode [3] false ≠ [] := by decide +kernel
      exact hne htext
    | cons c text => exact firstChar_eq_none_iff.mp hfirst c _ htext

end Xllm.Tokenizer
