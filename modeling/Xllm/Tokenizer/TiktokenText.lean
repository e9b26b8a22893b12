import Xllm.Lib.Utf8
import Xllm.Tokenizer.TiktokenMerges

/-!
# Texts of the tiktoken tokenizer

The tokens of a piece are those of the reference merges, and the tokens of a text decode to the
text. The ids of the special tokens must not be ranks of the vocabulary, since `decode` looks for a
special token first, and the prefix tokens come on top.
-/

namespace Xllm.Tokenizer

open Xllm.Lib Xllm.Lib.Utf8 List
open String (utf8EncodeChar)

/-! ## Vocabularies -/

section Vocab

variable {entries : List (Bytes × Int)}

theorem mem_of_idOf {token : Bytes} {id : Int} (h : idOf entries token = some id) :
    (token, id) ∈ entries := by
  unfold idOf at h
  rw [Option.map_eq_some_iff] at h
  obtain ⟨entry, hfind, rfl⟩ := h
  have htoken := List.find?_some hfind
  rw [decide_eq_true_eq] at htoken
  rw [← htoken]
  exact List.mem_of_find?_eq_some hfind

theorem mem_of_tokenOf {token : Bytes} {id : Int} (h : tokenOf entries id = some token) :
    (token, id) ∈ entries := by
  unfold tokenOf at h
  rw [Option.map_eq_some_iff] at h
  obtain ⟨entry, hfind, rfl⟩ := h
  have hid := List.find?_some hfind
  rw [decide_eq_true_eq] at hid
  rw [← hid]
  exact List.mem_of_find?_eq_some hfind

theorem tokenOf_of_idOf (hdistinct : (entries.map Prod.snd).Nodup) {token : Bytes} {id : Int}
    (h : idOf entries token = some id) : tokenOf entries id = some token := by
  have hmem := mem_of_idOf h
  unfold tokenOf
  cases hfind : entries.find? fun entry => decide (entry.2 = id) with
  | none =>
    have := List.find?_eq_none.mp hfind _ hmem
    simp at this
  | some entry =>
    have hid := List.find?_some hfind
    rw [decide_eq_true_eq] at hid
    have heq := inj_on_of_nodup_map hdistinct (List.mem_of_find?_eq_some hfind) hmem hid
    rw [heq]
    rfl

end Vocab

/-! ## Working lists of a run -/

/-- The working lists that the merges of a piece go through. -/
inductive Working (encoder : Bytes → Option Int) (piece : Bytes) : List Part → Prop
  | init {parts : List Part} (h : initParts encoder piece = .ok parts) : Working encoder piece parts
  | turn {parts parts' : List Part} (h : Working encoder piece parts)
      (next : mergeTurn encoder piece parts = .ok (some parts')) : Working encoder piece parts'

/-- Every rank in a working list is what a lookup gives now. -/
def Fresh (encoder : Bytes → Option Int) (piece : Bytes) (parts : List Part) : Prop :=
  ∀ i part, i + 1 < parts.length → parts[i]? = some part →
    ∃ rank, getRank encoder piece parts i 0 = .ok rank ∧ part.rank = rank.getD kMaxRank

section Working

variable {encoder : Bytes → Option Int} {piece : Bytes} {parts : List Part}

theorem partsOf_fresh (encoder : Bytes → Option Int) (segments : List Bytes) :
    Fresh encoder segments.flatten (partsOf encoder 0 segments) := by
  intro i part hi hpart
  rw [partsOf_length] at hi
  have hlt : i < segments.length := Nat.lt_of_succ_lt_succ hi
  rw [partsOf_get hlt, Option.some.injEq] at hpart
  refine ⟨_, getRank_eq (partsOf_starts encoder 0 segments) i 0, ?_⟩
  rw [← hpart, Nat.zero_add, Nat.add_zero]
  split <;> rfl

theorem Working.segments (hranks : ∀ token rank, encoder token = some rank → rank < kMaxRank)
    (hsize : (piece.length : Int) < kMaxRank) (h : Working encoder piece parts) :
    ∃ segments, parts = partsOf encoder 0 segments ∧ segments.flatten = piece := by
  induction h with
  | init hinit =>
    rw [initParts_eq hranks hsize, Except.ok.injEq] at hinit
    exact ⟨bytesOf piece, hinit.symm, bytesOf_flatten piece⟩
  | turn h next ih =>
    obtain ⟨segments, rfl, hflatten⟩ := ih
    rw [← hflatten] at next
    rcases mergeTurn_spec hranks segments with ⟨hnone, -⟩ | ⟨more, hsome, hmerge⟩
    · rw [hnone] at next
      cases next
    · rw [hsome] at next
      cases next
      exact ⟨more, rfl, hmerge.flatten.trans hflatten⟩

/-- No rank is stale, and the next turn stays within the list. -/
theorem Working.fresh (hranks : ∀ token rank, encoder token = some rank → rank < kMaxRank)
    (hsize : (piece.length : Int) < kMaxRank) (h : Working encoder piece parts) :
    Fresh encoder piece parts ∧ ∃ next, mergeTurn encoder piece parts = .ok next := by
  obtain ⟨segments, rfl, rfl⟩ := h.segments hranks hsize
  refine ⟨partsOf_fresh encoder segments, ?_⟩
  rcases mergeTurn_spec hranks segments with ⟨hnone, -⟩ | ⟨next, hsome, -⟩
  · exact ⟨_, hnone⟩
  · exact ⟨_, hsome⟩

end Working

/-! ## Texts -/

namespace TiktokenTokenizer

variable {tokenizer : TiktokenTokenizer} {isValidDecodeUtf8 : Bytes → Bool × Nat}

theorem decodeBytes_char (hvalid : Recognizes isValidDecodeUtf8) (c : Char) (rest : Bytes)
    (turns : Nat) :
    decodeBytes isValidDecodeUtf8 (turns + 1) (utf8EncodeChar c ++ rest) =
      utf8EncodeChar c ++ decodeBytes isValidDecodeUtf8 turns rest := by
  obtain ⟨byte, bytes, hchar⟩ := exists_cons_of_ne_nil String.utf8EncodeChar_ne_nil
  have hvalidChar := hvalid.char c rest
  have htake : (utf8EncodeChar c ++ rest).take (utf8EncodeChar c).length = utf8EncodeChar c :=
    take_left
  have hdrop : (utf8EncodeChar c ++ rest).drop (utf8EncodeChar c).length = rest := drop_left
  rw [hchar] at hvalidChar htake hdrop ⊢
  rw [cons_append] at hvalidChar htake hdrop ⊢
  rw [decodeBytes, hvalidChar]
  · dsimp only
    rw [if_pos rfl, htake, hdrop]
  · intro h
    cases h

theorem decodeBytes_text (hvalid : Recognizes isValidDecodeUtf8) (text : List Char) {turns : Nat}
    (hturns : (encodeText text).length ≤ turns) :
    decodeBytes isValidDecodeUtf8 turns (encodeText text) = encodeText text := by
  induction text generalizing turns with
  | nil => cases turns <;> rfl
  | cons c text ih =>
    have hpos := utf8EncodeChar_length_pos c
    rw [encodeText_cons, length_append] at hturns
    cases turns with
    | zero => omega
    | succ turns => rw [encodeText_cons, decodeBytes_char hvalid, ih (by omega)]

theorem tokens_of_segments (hdistinct : (tokenizer.vocab.map Prod.snd).Nodup)
    {segments : List Bytes} (hall : ∀ segment ∈ segments, (tokenizer.encoder segment).isSome) :
    (segments.filterMap tokenizer.encoder).flatMap (fun id => (tokenizer.decoder id).getD []) =
      segments.flatten := by
  induction segments with
  | nil => rfl
  | cons segment segments ih =>
    obtain ⟨id, hid⟩ := Option.isSome_iff_exists.mp (hall segment mem_cons_self)
    have hrest := ih fun other hother => hall other (mem_cons_of_mem _ hother)
    have htoken : tokenizer.decoder id = some segment := tokenOf_of_idOf hdistinct hid
    rw [filterMap_cons_some hid, flatMap_cons, htoken, hrest]
    rfl

theorem bytePairEncode_spec (hranks : ∀ line ∈ tokenizer.vocab, line.2 < kMaxRank)
    (hdistinct : (tokenizer.vocab.map Prod.snd).Nodup) {piece : Bytes}
    (hsize : (piece.length : Int) < kMaxRank) :
    ∃ last ids, Merges tokenizer.encoder (bytesOf piece) last ∧
      ids = last.filterMap tokenizer.encoder ∧
      bytePairEncode tokenizer.encoder piece = .ok ids ∧
      ((∀ byte ∈ piece, (tokenizer.encoder [byte]).isSome) →
        ids.flatMap (fun id => (tokenizer.decoder id).getD []) = piece) := by
  have hbelow : ∀ token rank, tokenizer.encoder token = some rank → rank < kMaxRank :=
    fun token rank htoken => hranks _ (mem_of_idOf htoken)
  obtain ⟨last, hmerges, hencode⟩ := bytePairEncode_eq hbelow hsize
  refine ⟨last, _, hmerges, rfl, hencode, fun hbytes => ?_⟩
  have hall := hmerges.isSome fun segment hsegment => by
    obtain ⟨byte, hbyte, rfl⟩ := mem_map.mp hsegment
    exact hbytes byte hbyte
  rw [tokens_of_segments hdistinct hall, hmerges.flatten, bytesOf_flatten]

theorem findSpecial_eq_none {specials : List (Bytes × Int)} {text : Bytes}
    (h : ∀ entry ∈ specials, ¬entry.1 <:+: text) : findSpecial specials text = none := by
  induction text with
  | nil => rfl
  | cons byte rest ih =>
    unfold findSpecial
    have hnone : specials.find? (fun entry => entry.1.isPrefixOf (byte :: rest)) = none := by
      rw [List.find?_eq_none]
      intro entry hentry hprefix
      exact h entry hentry (List.isPrefixOf_iff_prefix.mp hprefix).isInfix
    rw [hnone, ih fun entry hentry hfound => h entry hentry (hfound.trans
      (suffix_cons byte rest).isInfix)]
    rfl

theorem tokenBytes_of_encoder (hspecials : ∀ entry ∈ tokenizer.specials,
      ∀ line ∈ tokenizer.vocab, entry.2 ≠ line.2)
    (skipSpecialTokens : Bool) {token : Bytes} {id : Int} (h : (token, id) ∈ tokenizer.vocab) :
    tokenizer.tokenBytes skipSpecialTokens id = (tokenizer.decoder id).getD [] := by
  unfold tokenBytes
  cases hspecial : tokenOf tokenizer.specials id with
  | none => rfl
  | some special => exact absurd rfl (hspecials _ (mem_of_tokenOf hspecial) (token, id) h)

/-- The ids of a text without special tokens stand for its bytes. -/
theorem encodeInternal_spec (hranks : ∀ line ∈ tokenizer.vocab, line.2 < kMaxRank)
    (hdistinct : (tokenizer.vocab.map Prod.snd).Nodup)
    (hbytes : ∀ byte, (tokenizer.encoder [byte]).isSome) {text : Bytes}
    (hsize : (text.length : Int) < kMaxRank)
    (hcut : ∀ cut, tokenizer.pattern = some cut → (cut text).flatten = text) :
    ∃ ids, tokenizer.encodeInternal text = .ok ids ∧
      ids.flatMap (fun id => (tokenizer.decoder id).getD []) = text ∧
      ∀ id ∈ ids, ∃ token, (token, id) ∈ tokenizer.vocab := by
  have hpiece : ∀ piece : Bytes, (piece.length : Int) < kMaxRank →
      ∃ ids, bytePairEncode tokenizer.encoder piece = .ok ids ∧
        ids.flatMap (fun id => (tokenizer.decoder id).getD []) = piece ∧
        ∀ id ∈ ids, ∃ token, (token, id) ∈ tokenizer.vocab := by
    intro piece hpiece
    obtain ⟨last, ids, -, rfl, hencode, htokens⟩ := bytePairEncode_spec hranks hdistinct hpiece
    refine ⟨_, hencode, htokens fun byte _ => hbytes byte, fun id hid => ?_⟩
    obtain ⟨token, -, htoken⟩ := mem_filterMap.mp hid
    exact ⟨token, mem_of_idOf htoken⟩
  -- a piece is a token, or is merged
  have hone : ∀ piece : Bytes, (piece.length : Int) < kMaxRank →
      ∃ ids, tokenizer.encodePiece piece = .ok ids ∧
        ids.flatMap (fun id => (tokenizer.decoder id).getD []) = piece ∧
        ∀ id ∈ ids, ∃ token, (token, id) ∈ tokenizer.vocab := by
    intro piece hlength
    unfold encodePiece
    cases htoken : tokenizer.encoder piece with
    | none => exact hpiece piece hlength
    | some id =>
      refine ⟨[id], rfl, ?_, fun other hother => ?_⟩
      · have hdecode : tokenizer.decoder id = some piece := tokenOf_of_idOf hdistinct htoken
        simp [hdecode]
      · rw [mem_singleton.mp hother]
        exact ⟨piece, mem_of_idOf htoken⟩
  have hall : ∀ pieces : List Bytes, (pieces.flatten.length : Int) < kMaxRank →
      ∃ idss, pieces.mapM tokenizer.encodePiece = .ok idss ∧
        idss.flatten.flatMap (fun id => (tokenizer.decoder id).getD []) = pieces.flatten ∧
        ∀ id ∈ idss.flatten, ∃ token, (token, id) ∈ tokenizer.vocab := by
    intro pieces hpieces
    induction pieces with
    | nil => exact ⟨[], rfl, rfl, fun id hid => nomatch hid⟩
    | cons piece pieces ih =>
      rw [flatten_cons, length_append] at hpieces
      obtain ⟨ids, hids, htokens, hvocab⟩ := hone piece (by omega)
      obtain ⟨idss, hidss, htokens', hvocab'⟩ := ih (by omega)
      refine ⟨ids :: idss, ?_, ?_, fun id hid => ?_⟩
      · rw [mapM_cons, hids, ok_bind, hidss]
        rfl
      · rw [flatten_cons, flatMap_append, htokens, htokens', flatten_cons]
      · rcases mem_append.mp hid with hid | hid
        · exact hvocab id hid
        · exact hvocab' id hid
  unfold encodeInternal
  cases hpattern : tokenizer.pattern with
  | none => exact hpiece text hsize
  | some cut =>
    have hflatten := hcut cut hpattern
    obtain ⟨idss, hidss, htokens, hvocab⟩ := hall (cut text) (by rw [hflatten]; exact hsize)
    refine ⟨idss.flatten, ?_, htokens.trans hflatten, hvocab⟩
    dsimp only
    rw [hidss]
    rfl

/-- A text without special tokens decodes to itself, behind the prefix tokens. -/
theorem decode_encode (hvalid : Recognizes isValidDecodeUtf8)
    (hranks : ∀ line ∈ tokenizer.vocab, line.2 < kMaxRank)
    (hdistinct : (tokenizer.vocab.map Prod.snd).Nodup)
    (hbytes : ∀ byte, (tokenizer.encoder [byte]).isSome)
    (hspecials : ∀ entry ∈ tokenizer.specials, ∀ line ∈ tokenizer.vocab, entry.2 ≠ line.2)
    {text : List Char} (hsize : ((encodeText text).length : Int) < kMaxRank)
    (hcut : ∀ cut, tokenizer.pattern = some cut → (cut (encodeText text)).flatten = encodeText text)
    (hnone : ∀ entry ∈ tokenizer.specials, ¬entry.1 <:+: encodeText text) :
    ∃ ids, tokenizer.encode (encodeText text) = .ok (tokenizer.prefixTokenIds ++ ids) ∧
      ∀ skipSpecialTokens,
        tokenizer.decode isValidDecodeUtf8 ids skipSpecialTokens = encodeText text := by
  obtain ⟨ids, hencode, htokens, hvocab⟩ :=
    encodeInternal_spec hranks hdistinct hbytes hsize hcut
  refine ⟨ids, ?_, fun skipSpecialTokens => ?_⟩
  · unfold encode encodeSpecials
    rw [findSpecial_eq_none hnone]
    rw [hencode]
    rfl
  · have hsame : ids.flatMap (tokenizer.tokenBytes skipSpecialTokens) = encodeText text := by
      rw [← htokens]
      apply flatMap_congr
      intro id hid
      obtain ⟨token, htoken⟩ := hvocab id hid
      exact tokenBytes_of_encoder hspecials skipSpecialTokens htoken
    unfold decode
    rw [hsame]
    exact decodeBytes_text hvalid text le_rfl

/-- The tokens of a piece are those of the reference merges, and the ids of a text decode to it. -/
theorem encode_merges_and_decodes (hvalid : Recognizes isValidDecodeUtf8)
    (hranks : ∀ line ∈ tokenizer.vocab, line.2 < kMaxRank)
    (hdistinct : (tokenizer.vocab.map Prod.snd).Nodup) :
    (∀ piece : Bytes, (piece.length : Int) < kMaxRank →
      (∃ last ids, Merges tokenizer.encoder (bytesOf piece) last ∧
        ids = last.filterMap tokenizer.encoder ∧ bytePairEncode tokenizer.encoder piece = .ok ids ∧
        ((∀ byte ∈ piece, (tokenizer.encoder [byte]).isSome) →
          ids.flatMap (fun id => (tokenizer.decoder id).getD []) = piece)) ∧
      (piece ≠ [] → ∀ parts, Working tokenizer.encoder piece parts →
        Fresh tokenizer.encoder piece parts ∧
          ∃ next, mergeTurn tokenizer.encoder piece parts = .ok next)) ∧
    ((∀ byte, (tokenizer.encoder [byte]).isSome) →
      (∀ entry ∈ tokenizer.specials, ∀ line ∈ tokenizer.vocab, entry.2 ≠ line.2) →
      ∀ text : List Char, ((encodeText text).length : Int) < kMaxRank →
        (∀ cut, tokenizer.pattern = some cut → (cut (encodeText text)).flatten = encodeText text) →
        (∀ entry ∈ tokenizer.specials, ¬entry.1 <:+: encodeText text) →
        ∃ ids, tokenizer.encode (encodeText text) = .ok (tokenizer.prefixTokenIds ++ ids) ∧
          ∀ skipSpecialTokens,
            tokenizer.decode isValidDecodeUtf8 ids skipSpecialTokens = encodeText text) := by
  have hbelow : ∀ token rank, tokenizer.encoder token = some rank → rank < kMaxRank :=
    fun token rank htoken => hranks _ (mem_of_idOf htoken)
  refine ⟨fun piece hsize => ⟨bytePairEncode_spec hranks hdistinct hsize, ?_⟩, ?_⟩
  · intro _ parts hworking
    exact hworking.fresh hbelow hsize
  · intro hbytes hspecials text hsize hcut hnone
    exact decode_encode hvalid hranks hdistinct hbytes hspecials hsize hcut hnone

/-- The single bytes, each with its own value as rank, and one merge. -/
def byteVocab : List (Bytes × Int) :=
  ((List.range 256).map fun n => ([UInt8.ofNat n], (n : Int))) ++ [([97, 98], 256)]

theorem byteVocab_bytes (byte : UInt8) : (idOf byteVocab [byte]).isSome := by
  unfold idOf
  rw [Option.isSome_map, List.find?_isSome]
  refine ⟨([byte], byte.toNat), ?_, by simp⟩
  refine mem_append_left _ (mem_map.mpr ⟨byte.toNat, ?_, ?_⟩)
  · rw [mem_range]
    exact byte.toNat_lt
  · rw [UInt8.ofNat_toNat]

theorem byteVocab_ranks :
    byteVocab.map Prod.snd = (List.range (256 + 1)).map fun n : Nat => (n : Int) := by
  rw [range_succ]
  simp [byteVocab, Function.comp_def]

theorem byteVocab_distinct : (byteVocab.map Prod.snd).Nodup := by
  rw [byteVocab_ranks]
  exact nodup_range.map fun _ _ => Int.ofNat.inj

theorem byteVocab_below : ∀ line ∈ byteVocab, line.2 < kMaxRank := by
  intro line hline
  have hmem : line.2 ∈ byteVocab.map Prod.snd := mem_map.mpr ⟨line, hline, rfl⟩
  rw [byteVocab_ranks, mem_map] at hmem
  obtain ⟨n, hn, hrank⟩ := hmem
  rw [mem_range] at hn
  unfold kMaxRank
  omega

theorem encode_merges_ab :
    (∃ last ids, Merges (idOf byteVocab) (bytesOf [97, 98]) last ∧
      ids = last.filterMap (idOf byteVocab) ∧ bytePairEncode (idOf byteVocab) [97, 98] = .ok ids ∧
      ids.flatMap (fun id => (tokenOf byteVocab id).getD []) = [97, 98]) ∧
    ∃ ids, ({ vocab := byteVocab } : TiktokenTokenizer).encode (encodeText ['a', 'b']) = .ok ids ∧
      ({ vocab := byteVocab } : TiktokenTokenizer).decode recognizeFirst ids true =
        encodeText ['a', 'b'] := by
  have hspec := @encode_merges_and_decodes { vocab := byteVocab } recognizeFirst
    recognizeFirst_recognizes byteVocab_below byteVocab_distinct
  obtain ⟨last, ids, hmerges, hids, hencode, htokens⟩ := (hspec.1 [97, 98] (by decide)).1
  obtain ⟨ids', hencode', hdecode⟩ := hspec.2 byteVocab_bytes (by decide) ['a', 'b']
    (by decide) nofun (by decide)
  exact ⟨⟨last, ids, hmerges, hids, hencode, htokens fun byte _ => byteVocab_bytes byte⟩, ids',
    hencode', hdecode true⟩

/-- A special token with the rank of a byte, a prefix token, and a piece whose positions are no
`int32_t`. -/
theorem decode_encode_fails :
    (∃ ids, ({ vocab := byteVocab, specialTokens := [([60, 62], 97)] } :
        TiktokenTokenizer).encode (encodeText ['a']) = .ok ids ∧
      ({ vocab := byteVocab, specialTokens := [([60, 62], 97)] } :
        TiktokenTokenizer).decode recognizeFirst ids false ≠ encodeText ['a']) ∧
    (∃ ids, ({ vocab := byteVocab, prefixTokens := [[98]] } :
        TiktokenTokenizer).encode (encodeText ['a']) = .ok ids ∧
      ({ vocab := byteVocab, prefixTokens := [[98]] } :
        TiktokenTokenizer).decode recognizeFirst ids true ≠ encodeText ['a']) ∧
    bytePairEncode (idOf byteVocab) (List.replicate 2147483647 97) = .error .overflow := by
  refine ⟨⟨[97], by decide +kernel, by decide +kernel⟩,
    ⟨[98, 97], by decide +kernel, by decide +kernel⟩, ?_⟩
  have hlength : kMaxRank ≤ ((List.replicate 2147483647 (97 : UInt8)).length : Int) := by
    rw [length_replicate]
    decide
  have hne : List.replicate 2147483647 (97 : UInt8) ≠ [] := by
    intro h
    rw [h] at hlength
    exact absurd hlength (by decide)
  unfold bytePairEncode initParts
  rw [if_neg hne, if_pos hlength]
  rfl

end TiktokenTokenizer

end Xllm.Tokenizer
