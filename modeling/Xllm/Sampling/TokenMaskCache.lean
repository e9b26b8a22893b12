import Xllm.Sampling.JsonObjectExact
import Mathlib.Data.Finset.Sort

/-!
# The cache of the token masks

`cached_mask_for_state` looks the mask of a matcher up by its `transition_cache_key` in an LRU cache. On
a miss it computes the mask without the lock and then stores it, unless another request was faster. The
key leaves out the fields that the parse mode does not read: matchers with one key have one language of
what may follow (`rest_of_key`), and what a matcher accepts depends on this language alone
(`canAcceptToken_of_rest`), so a mask found in the cache is the mask of the matcher that asks for it.

A cache is the map of the entries and the list of their recency in one: the most recent entry is first.
-/

namespace Xllm.Framework

open Xllm.Lib Json JsonObjectGrammarState List

/-! ## The key -/

def appendCacheKeyUint64 (value : Nat) : List UInt8 :=
  (List.range 8).map fun byteIndex => UInt8.ofNat (value >>> (byteIndex * 8) &&& 0xFF)

def frameKey (frame : ContainerFrame) : List UInt8 :=
  [.ofNat frame.type.ctorIdx, .ofNat frame.state.ctorIdx]

def JsonObjectGrammarState.transitionCacheKey (s : JsonObjectGrammarState) : List UInt8 :=
  [s.valid.toUInt8, s.rootStarted.toUInt8, s.rootComplete.toUInt8, s.reasoningPhase.toUInt8,
    .ofNat s.parseMode.ctorIdx] ++
  ((if s.reasoningPhase then appendCacheKeyUint64 s.reasoningMarkerIndex else []) ++
  ((match s.parseMode with
    | .string | .stringEscape => [.ofNat s.stringRole.ctorIdx]
    | .stringUnicode => [.ofNat s.stringRole.ctorIdx, .ofNat s.unicodeDigits]
    | .number => [.ofNat s.numberState.ctorIdx]
    | .literal =>
      appendCacheKeyUint64 s.literalIndex ++
        (appendCacheKeyUint64 s.literalTarget.length ++ s.literalTarget)
    | .none => []) ++
  (appendCacheKeyUint64 s.containers.length ++ s.containers.reverse.flatMap frameKey)))

/-! ## The cache -/

def kMaxFilterMaskCacheEntries : Nat := 64

abbrev FilterMaskCache := List (List UInt8 × List Nat)

namespace FilterMaskCache

/-- The entry of `key` becomes the most recent one. -/
def splice (cache : FilterMaskCache) (key : List UInt8) (mask : List Nat) : FilterMaskCache :=
  (key, mask) :: cache.filter fun entry => entry.1 ≠ key

/-- What a request that missed does when it has the lock again. -/
def store (cache : FilterMaskCache) (key : List UInt8) (mask : List Nat) :
    List Nat × FilterMaskCache :=
  match cache.lookup key with
  | some existing => (existing, cache.splice key existing)
  | none =>
    (mask, (key, mask) ::
      if kMaxFilterMaskCacheEntries ≤ cache.length then cache.dropLast else cache)

end FilterMaskCache

namespace JsonObjectGrammar

variable (g : JsonObjectGrammar)

/-- `bitmask[token_id / 32] &= ~(1 << (token_id & 31))`. -/
def clearBit (bitmask : List Nat) (tokenId : Nat) : List Nat :=
  bitmask.modify (tokenId / 32) (fun word => word &&& (0xFFFFFFFF ^^^ 1 <<< (tokenId % 32)))

def clearStopToken (bitmask : List Nat) (stopTokenId : Int) : List Nat :=
  if stopTokenId < 0 ∨ g.vocabSize ≤ stopTokenId.toNat then bitmask
  else clearBit bitmask stopTokenId.toNat

/-- `reasoning_bitmask_` after the loop of the constructor over the stop tokens. -/
def clearStopTokens : List Nat :=
  (g.stopTokenIds.sort (· ≤ ·)).foldl g.clearStopToken
    (List.replicate g.bitmaskNumWords 0xFFFFFFFF)

/-- `reasoning_bitmask_`, as the constructor leaves it. -/
def constructedReasoningBitmask : List Nat :=
  if g.vocabSize % 32 ≠ 0 ∧ g.clearStopTokens ≠ [] then
    g.clearStopTokens.modify (g.clearStopTokens.length - 1)
      (fun word => word &&& ((1 <<< (g.vocabSize % 32)) - 1))
  else g.clearStopTokens

/-- `allowed_token_bitmask`, with the cache as the lookup finds it and as the store finds it; `none` is
the CHECK that some token is allowed. -/
def allowedTokenBitmask (lookupCache storeCache : FilterMaskCache) (s : JsonObjectGrammarState) :
    Option (List Nat) :=
  if ¬ s.valid then some (List.replicate g.bitmaskNumWords 0)
  else if s.reasoningPhase then some g.constructedReasoningBitmask
  else
    match lookupCache.lookup s.transitionCacheKey with
    | some mask => some mask
    | none =>
      if g.someTokenAllowed s then
        some (storeCache.store s.transitionCacheKey (g.computeAllowedBitmask s)).1
      else none

/-- The valid matchers that `accept_token` reaches. -/
def Reached (s : JsonObjectGrammarState) : Prop :=
  s.valid = true ∧ ∃ reasoningPhase tokenIds, s = g.offerAll (initialState reasoningPhase) tokenIds

/-- The caches after any requests: each hits, or misses and stores some time later. -/
inductive Requested : FilterMaskCache → Prop
  | empty : Requested []
  | hit {cache : FilterMaskCache} {s : JsonObjectGrammarState} {mask : List Nat} : Requested cache →
      cache.lookup s.transitionCacheKey = some mask →
      Requested (cache.splice s.transitionCacheKey mask)
  | store {cache : FilterMaskCache} {s : JsonObjectGrammarState} : Requested cache → g.Reached s →
      s.reasoningPhase = false → g.someTokenAllowed s = true →
      Requested (cache.store s.transitionCacheKey (g.computeAllowedBitmask s)).2

end JsonObjectGrammar

/-! ## Matchers with one key -/

section

variable {s s' : JsonObjectGrammarState}

theorem appendCacheKeyUint64_inj : ∀ n ≤ 5, ∀ m ≤ 5,
    appendCacheKeyUint64 n = appendCacheKeyUint64 m → n = m := by
  decide +kernel

theorem append_of_cacheKey {n m : Nat} {rest rest' : List UInt8}
    (h : appendCacheKeyUint64 n ++ rest = appendCacheKeyUint64 m ++ rest') :
    appendCacheKeyUint64 n = appendCacheKeyUint64 m ∧ rest = rest' :=
  append_inj h (by simp [appendCacheKeyUint64])

theorem frameKey_inj {frame frame' : ContainerFrame} (h : frameKey frame = frameKey frame') :
    frame = frame' := by
  obtain ⟨type, state⟩ := frame
  obtain ⟨type', state'⟩ := frame'
  cases type <;> cases type' <;> cases state <;> cases state' <;> first | rfl | cases h

theorem frames_of_key {frames frames' : List ContainerFrame}
    (h : frames.flatMap frameKey = frames'.flatMap frameKey) : frames = frames' := by
  induction frames generalizing frames' with
  | nil =>
    cases frames' with
    | nil => rfl
    | cons frame' frames' => cases h
  | cons frame frames ih =>
    cases frames' with
    | nil => cases h
    | cons frame' frames' =>
      obtain ⟨hframe, hrest⟩ := append_inj h rfl
      rw [frameKey_inj hframe, ih hrest]

theorem parseMode_of_key : ∀ {mode mode' : ParseMode},
    UInt8.ofNat mode.ctorIdx = UInt8.ofNat mode'.ctorIdx → mode = mode' := by
  intro mode mode' h
  cases mode <;> cases mode' <;> first | rfl | cases h

theorem stringRole_of_key {role role' : StringRole}
    (h : UInt8.ofNat role.ctorIdx = UInt8.ofNat role'.ctorIdx) : role = role' := by
  cases role <;> cases role' <;> first | rfl | cases h

theorem numberState_of_key {state state' : NumberState}
    (h : UInt8.ofNat state.ctorIdx = UInt8.ofNat state'.ctorIdx) : state = state' := by
  cases state <;> cases state' <;> first | rfl | cases h

theorem digits_of_key : ∀ n < 4, ∀ m < 4, UInt8.ofNat n = UInt8.ofNat m → n = m := by
  decide

/-- The key has everything that decides what may follow. -/
theorem rest_of_key (h : Matching s) (h' : Matching s') (hliteral : s.literalTarget.length ≤ 5)
    (hliteral' : s'.literalTarget.length ≤ 5) (hkey : s.transitionCacheKey = s'.transitionCacheKey) :
    s.rest = s'.rest := by
  obtain ⟨hhead, hkey⟩ := append_inj hkey rfl
  simp only [cons.injEq, and_true] at hhead
  obtain ⟨-, -, hcomplete, -, hmode⟩ := hhead
  have hmode := parseMode_of_key hmode
  have hcomplete : s.rootComplete = s'.rootComplete := by
    revert hcomplete
    cases s.rootComplete <;> cases s'.rootComplete <;> first | exact fun _ => rfl | exact nofun
  rw [h.reasoning, h'.reasoning] at hkey
  simp only [Bool.false_eq_true, if_false, nil_append] at hkey
  suffices hinner : (∀ frame, s.innerRest frame = s'.innerRest frame) ∧
      appendCacheKeyUint64 s.containers.length ++ s.containers.reverse.flatMap frameKey =
        appendCacheKeyUint64 s'.containers.length ++ s'.containers.reverse.flatMap frameKey by
    have hcontainers := reverse_injective (frames_of_key (append_of_cacheKey hinner.2).2)
    unfold rest
    rw [hcomplete, hcontainers]
    simp only [hinner.1]
  unfold innerRest roleTail
  rw [← hmode] at hkey ⊢
  cases hm : s.parseMode with
  | none =>
    rw [hm] at hkey
    exact ⟨fun _ => rfl, hkey⟩
  | string | stringEscape =>
    rw [hm] at hkey
    obtain ⟨hrole, hkey⟩ := append_inj hkey rfl
    rw [stringRole_of_key (cons.inj hrole).1]
    exact ⟨fun _ => rfl, hkey⟩
  | stringUnicode =>
    rw [hm] at hkey
    obtain ⟨hrole, hkey⟩ := append_inj hkey rfl
    rw [stringRole_of_key (cons.inj hrole).1,
      digits_of_key _ (h.unicode hm) _ (h'.unicode (hmode ▸ hm)) (cons.inj (cons.inj hrole).2).1]
    exact ⟨fun _ => rfl, hkey⟩
  | number =>
    rw [hm] at hkey
    obtain ⟨hstate, hkey⟩ := append_inj hkey rfl
    rw [numberState_of_key (cons.inj hstate).1]
    exact ⟨fun _ => rfl, hkey⟩
  | literal =>
    rw [hm] at hkey
    simp only [List.append_assoc] at hkey
    have hlt := (h.literal hm).1
    have hlt' := (h'.literal (hmode ▸ hm)).1
    obtain ⟨hindex, hkey⟩ := append_of_cacheKey hkey
    obtain ⟨hlength, hkey⟩ := append_of_cacheKey hkey
    obtain ⟨htarget, hkey⟩ := append_inj hkey
      (appendCacheKeyUint64_inj _ hliteral _ hliteral' hlength)
    rw [htarget, appendCacheKeyUint64_inj _ (by omega) _ (by omega) hindex]
    exact ⟨fun _ => rfl, hkey⟩

end

namespace JsonObjectGrammar

section

variable {g : JsonObjectGrammar} {s s' : JsonObjectGrammarState} {tokenId : Int}

theorem exists_run_of_rest (h : Matching s) (h' : Matching s') (hrest : s.rest = s'.rest)
    {piece : List UInt8} {t : JsonObjectGrammarState}
    (hrun : piece.foldlM consumeCharacter s = some t) :
    ∃ t', piece.foldlM consumeCharacter s' = some t' := by
  obtain ⟨ht, hquot⟩ := matcher_residual.run piece s t h hrun
  obtain ⟨z, hz, -⟩ := hasAscii_rest ht
  rw [← hquot, hrest] at hz
  cases hrun' : piece.foldlM consumeCharacter s' with
  | none => exact absurd hz (matcher_residual.run_none piece s' h' hrun' z)
  | some t' => exact ⟨t', rfl⟩

/-- What a matcher accepts depends on what may follow alone. -/
theorem canAcceptToken_of_rest (h : Matching s) (h' : Matching s') (hvalid : s.valid = true)
    (hvalid' : s'.valid = true) (hrest : s.rest = s'.rest) (tokenId : Int) :
    g.canAcceptToken s tokenId = g.canAcceptToken s' tokenId := by
  have hroot : s.rootComplete = true ↔ s'.rootComplete = true := by
    rw [← nil_mem_rest, ← nil_mem_rest, hrest]
  unfold canAcceptToken
  cases hpiece : g.tokenPiece? tokenId with
  | none => rw [acceptToken_of_no_piece hpiece, acceptToken_of_no_piece hpiece]
  | some piece =>
    by_cases hstop : tokenId ∈ g.stopTokenIds
    · rw [acceptToken_stop h hvalid hpiece hstop, acceptToken_stop h' hvalid' hpiece hstop]
      simp only [hroot]
      split <;> rfl
    · rw [acceptToken_piece h hvalid hpiece hstop, acceptToken_piece h' hvalid' hpiece hstop]
      simp only [hroot]
      split
      · rfl
      · cases hrun : piece.foldlM consumeCharacter s with
        | some t =>
          obtain ⟨t', hrun'⟩ := exists_run_of_rest h h' hrest hrun
          rw [hrun']
        | none =>
          cases hrun' : piece.foldlM consumeCharacter s' with
          | none => rfl
          | some t' =>
            obtain ⟨t, ht⟩ := exists_run_of_rest h' h hrest.symm hrun'
            rw [hrun] at ht
            cases ht

/-! ## Reachable matchers -/

/-- A matcher in the reasoning phase, or one that reads an object. -/
def Live (s : JsonObjectGrammarState) : Prop :=
  s.literalTarget.length ≤ 5 ∧ (s.reasoningPhase = true ∨ Matching s)

theorem acceptToken_live (h : Live s) (hvalid : s.valid = true)
    (hend : (g.acceptToken s tokenId).1.valid = true) : Live (g.acceptToken s tokenId).1 := by
  obtain ⟨hliteral, hphase | hmatch⟩ := h
  · unfold acceptToken
    rw [hvalid, hphase]
    cases g.tokenPiece? tokenId with
    | none => exact ⟨hliteral, Or.inl hphase⟩
    | some piece =>
      dsimp only
      split
      · exact ⟨hliteral, Or.inl hphase⟩
      · rw [if_pos rfl]
        unfold acceptReasoning
        repeat' split
        all_goals first
          | exact ⟨hliteral, Or.inl hphase⟩
          | exact ⟨hliteral, Or.inr (.of_none rfl rfl (fun _ _ => rfl) (fun _ => rfl) (by simp [commit]))⟩
  · rcases haccept : g.acceptToken s tokenId with ⟨t, ok⟩
    cases ok with
    | true =>
      refine ⟨?_, Or.inr (acceptToken_accepted hmatch hvalid haccept).matching⟩
      obtain ⟨piece, -, ⟨-, rfl⟩ | ⟨-, u, hrun, rfl⟩⟩ := accepted_cases hmatch hvalid haccept
      · exact hliteral
      · exact (foldlM_keeps piece s u hrun).2 hliteral
    | false =>
      rcases acceptToken_rejected hmatch hvalid (by rw [haccept]) with hsame | hdead
      · rw [haccept] at hsame
        exact hsame ▸ ⟨hliteral, Or.inr hmatch⟩
      · rw [hdead] at hend
        cases hend

theorem Reached.live (h : g.Reached s) : Live s := by
  obtain ⟨hvalid, b, tokenIds, rfl⟩ := h
  have hinitial : Live (initialState b) := by
    refine ⟨Nat.zero_le 5, ?_⟩
    cases b with
    | true => exact Or.inl rfl
    | false => exact Or.inr matching_initialState
  revert hinitial hvalid
  generalize initialState b = s
  induction tokenIds generalizing s with
  | nil => exact fun _ h => h
  | cons tokenId tokenIds ih =>
    intro hend h
    have hoffer : g.offerAll s (tokenId :: tokenIds) =
        g.offerAll (g.acceptToken s tokenId).1 tokenIds := rfl
    rw [hoffer] at hend ⊢
    cases hnext : (g.acceptToken s tokenId).1.valid with
    | false =>
      rw [offerAll_of_invalid g tokenIds hnext, hnext] at hend
      cases hend
    | true =>
      refine ih _ hend (acceptToken_live h ?_ hnext)
      by_contra hinvalid
      rw [acceptToken_of_invalid (Bool.eq_false_iff.mpr hinvalid)] at hnext
      exact hinvalid hnext

theorem Reached.matching (h : g.Reached s) (hphase : s.reasoningPhase = false) : Matching s :=
  h.live.2.resolve_left (by rw [hphase]; simp)

/-- Matchers with one key accept the same tokens. -/
theorem canAcceptToken_of_key (h : g.Reached s) (h' : g.Reached s')
    (hphase : s.reasoningPhase = false) (hphase' : s'.reasoningPhase = false)
    (hkey : s.transitionCacheKey = s'.transitionCacheKey) (tokenId : Int) :
    g.canAcceptToken s tokenId = g.canAcceptToken s' tokenId :=
  canAcceptToken_of_rest (h.matching hphase) (h'.matching hphase') h.1 h'.1
    (rest_of_key (h.matching hphase) (h'.matching hphase') h.live.1 h'.live.1 hkey) tokenId

/-! ## The mask of the reasoning phase -/

theorem testBit_ones (t : Nat) : (0xFFFFFFFF : Nat).testBit (t % 32) = true :=
  (Nat.testBit_two_pow_sub_one 32 _).trans (decide_eq_true (Nat.mod_lt t (by decide)))

theorem hasBit_clearBit {bitmask : List Nat} {i : Nat} (hi : i / 32 < bitmask.length) (t : Nat) :
    hasBit (clearBit bitmask i) t = true ↔ hasBit bitmask t = true ∧ t ≠ i := by
  rw [clearBit, hasBit_modify _ hi]
  by_cases hword : t / 32 = i / 32
  · have hbit : i % 32 = t % 32 ↔ t = i := by omega
    rw [if_pos hword, Nat.testBit_and, Nat.testBit_xor, Nat.one_shiftLeft, Nat.testBit_two_pow,
      testBit_ones, ← hword]
    simp [hasBit, hbit]
  · have hne : t ≠ i := fun he => hword (he ▸ rfl)
    rw [if_neg hword]
    simp [hne]

theorem hasBit_foldl_clearStopToken (t : Nat) (stops : List Int) {bitmask : List Nat}
    (hlength : bitmask.length = g.bitmaskNumWords) :
    (stops.foldl g.clearStopToken bitmask).length = g.bitmaskNumWords ∧
      (hasBit (stops.foldl g.clearStopToken bitmask) t = true ↔
        hasBit bitmask t = true ∧ (t < g.vocabSize → (t : Int) ∉ stops)) := by
  induction stops generalizing bitmask with
  | nil => simp [hlength]
  | cons stop stops ih =>
    rw [foldl_cons, clearStopToken]
    simp only [mem_cons, not_or, imp_and]
    by_cases hskip : stop < 0 ∨ g.vocabSize ≤ stop.toNat
    · have hne : t < g.vocabSize → (t : Int) ≠ stop := by omega
      rw [if_pos hskip, and_iff_right hne]
      exact ih hlength
    · have hword : stop.toNat / 32 < bitmask.length := by
        rw [hlength, bitmaskNumWords]
        omega
      have hne : t ≠ stop.toNat ↔ (t < g.vocabSize → (t : Int) ≠ stop) := by omega
      rw [if_neg hskip, ← hne, ← and_assoc, ← hasBit_clearBit hword]
      exact ih (by rw [clearBit, length_modify, hlength])

/-- The mask of the reasoning phase is every token but the stop tokens. -/
theorem hasBit_constructedReasoningBitmask (t : Nat) :
    hasBit g.constructedReasoningBitmask t = true ↔
      t < g.vocabSize ∧ (t : Int) ∉ g.stopTokenIds := by
  have hwords : g.bitmaskNumWords = (g.vocabSize + 31) / 32 := rfl
  have hall : hasBit (List.replicate g.bitmaskNumWords 0xFFFFFFFF) t = true ↔
      t / 32 < g.bitmaskNumWords := by
    rw [hasBit, List.getD_eq_getElem?_getD, List.getElem?_replicate]
    split <;> simp_all [testBit_ones]
  have hcleared := hasBit_foldl_clearStopToken (g := g) t (g.stopTokenIds.sort (· ≤ ·))
    (length_replicate (a := 0xFFFFFFFF))
  rw [hall, Finset.mem_sort] at hcleared
  obtain ⟨hlength, hbit⟩ : g.clearStopTokens.length = g.bitmaskNumWords ∧
    (hasBit g.clearStopTokens t = true ↔ _) := hcleared
  unfold constructedReasoningBitmask
  split
  · rename_i hmask
    rw [hasBit_modify _ (Nat.sub_one_lt (length_pos_iff.mpr hmask.2).ne')]
    split
    · rename_i hlast
      have hlt : t / 32 < g.bitmaskNumWords ∧ t % 32 < g.vocabSize % 32 ↔ t < g.vocabSize := by omega
      rw [← hlast, Nat.testBit_and, Nat.one_shiftLeft, Nat.testBit_two_pow_sub_one, Bool.and_eq_true,
        decide_eq_true_eq]
      refine (and_congr_left' hbit).trans ?_
      tauto
    · have hlt : t / 32 < g.bitmaskNumWords ↔ t < g.vocabSize := by omega
      tauto
  · rename_i hmask
    rw [ne_eq, ne_eq, ← length_eq_zero_iff] at hmask
    have hlt : t / 32 < g.bitmaskNumWords ↔ t < g.vocabSize := by omega
    tauto

theorem canAcceptToken_of_reasoning (hvalid : s.valid = true) (hphase : s.reasoningPhase = true)
    (t : Nat) : g.canAcceptToken s t = true ↔ t < g.vocabSize ∧ (t : Int) ∉ g.stopTokenIds := by
  have hpiece : g.tokenPiece? t = g.tokenPieces[t]? := by simp [tokenPiece?]
  unfold canAcceptToken acceptToken
  rw [hvalid, hphase, hpiece]
  by_cases hlt : t < g.vocabSize
  · rw [List.getElem?_eq_getElem hlt]
    by_cases hstop : (t : Int) ∈ g.stopTokenIds
    · simp [hstop]
    · simp [hstop, hlt]
  · rw [List.getElem?_eq_none (Nat.le_of_not_lt hlt)]
    simp [hlt]

theorem someTokenAllowed_iff (hvalid : s.valid = true) (hphase : s.reasoningPhase = false) :
    g.someTokenAllowed s = true ↔ ∃ t < g.vocabSize, g.canAcceptToken s t = true := by
  refine ⟨fun h => ?_, fun ⟨t, hlt, ht⟩ =>
    any_of_hasBit ((hasBit_computeAllowedBitmask hvalid hphase t).mpr ⟨hlt, ht⟩)⟩
  by_contra hnone
  have hfilter : ((List.range g.vocabSize).filter fun (t : Nat) => g.canAcceptToken s t) = [] :=
    filter_eq_nil_iff.mpr fun t ht haccept => hnone ⟨t, mem_range.mp ht, haccept⟩
  unfold someTokenAllowed computeAllowedBitmask at h
  rw [if_neg (by rw [hvalid]; simp), if_neg (by rw [hphase]; simp), hfilter] at h
  simp at h

/-! ## The cache -/

/-- Every entry is the mask of a matcher under its key. -/
def Sound (g : JsonObjectGrammar) (cache : FilterMaskCache) : Prop :=
  ∀ entry ∈ cache, ∃ s, g.Reached s ∧ s.reasoningPhase = false ∧ g.someTokenAllowed s = true ∧
    entry = (s.transitionCacheKey, g.computeAllowedBitmask s)

variable {cache : FilterMaskCache} {key : List UInt8} {mask : List Nat}

theorem mem_of_lookup (h : cache.lookup key = some mask) : (key, mask) ∈ cache := by
  obtain ⟨l, r, rfl, -⟩ := lookup_eq_some_iff.mp h
  exact mem_append_right _ mem_cons_self

theorem Sound.splice (h : g.Sound cache) (hfound : cache.lookup key = some mask) :
    g.Sound (cache.splice key mask) := by
  intro entry hentry
  rcases mem_cons.mp hentry with rfl | hentry
  · exact h _ (mem_of_lookup hfound)
  · exact h _ (mem_of_mem_filter hentry)

theorem Requested.sound (h : g.Requested cache) : g.Sound cache := by
  induction h with
  | empty => exact nofun
  | hit _ hfound ih => exact ih.splice hfound
  | @store cache s _ hs hphase hsome ih =>
    unfold FilterMaskCache.store
    split
    · exact ih.splice ‹_›
    · intro entry hentry
      rcases mem_cons.mp hentry with rfl | hentry
      · exact ⟨s, hs, hphase, hsome, rfl⟩
      · refine ih entry ?_
        split at hentry
        · exact mem_of_mem_dropLast hentry
        · exact hentry

/-- A mask that is found is the mask of the matcher that asks for it, and it has a token. -/
theorem Sound.exact (h : g.Sound cache) (hs : g.Reached s) (hphase : s.reasoningPhase = false)
    (hfound : cache.lookup s.transitionCacheKey = some mask) :
    (∃ t < g.vocabSize, g.canAcceptToken s t = true) ∧
      ∀ t : Nat, hasBit mask t = true ↔ t < g.vocabSize ∧ g.canAcceptToken s t = true := by
  obtain ⟨s', hs', hphase', hsome, hentry⟩ := h _ (mem_of_lookup hfound)
  obtain ⟨hkey, rfl⟩ := Prod.mk.inj hentry
  rw [someTokenAllowed_iff hs'.1 hphase'] at hsome
  have hbit := hasBit_computeAllowedBitmask (g := g) hs'.1 hphase'
  simp only [canAcceptToken_of_key hs hs' hphase hphase' hkey]
  exact ⟨hsome, hbit⟩

end

/-- For a valid matcher and any caches that requests leave: the mask is that of the tokens the matcher
accepts, and there is none exactly where the matcher reads an object and accepts no token. Matchers with
one key accept the same tokens. -/
theorem allowedTokenBitmask_exact {g : JsonObjectGrammar} {s : JsonObjectGrammarState}
    {lookupCache storeCache : FilterMaskCache} (hs : g.Reached s) (hlookup : g.Requested lookupCache)
    (hstore : g.Requested storeCache) :
    (∀ mask, g.allowedTokenBitmask lookupCache storeCache s = some mask →
      ∀ t : Nat, hasBit mask t = true ↔ t < g.vocabSize ∧ g.canAcceptToken s t = true) ∧
    (g.allowedTokenBitmask lookupCache storeCache s = none ↔
      s.reasoningPhase = false ∧ ∀ t < g.vocabSize, ¬ g.canAcceptToken s t = true) ∧
    ∀ s', g.Reached s' → s.reasoningPhase = false → s'.reasoningPhase = false →
      s.transitionCacheKey = s'.transitionCacheKey →
      ∀ tokenId, g.canAcceptToken s tokenId = g.canAcceptToken s' tokenId := by
  rw [← and_assoc]
  refine ⟨?_, fun s' hs' hphase hphase' hkey => canAcceptToken_of_key hs hs' hphase hphase' hkey⟩
  unfold allowedTokenBitmask
  rw [if_neg (by rw [hs.1]; simp)]
  cases hphase : s.reasoningPhase with
  | true =>
    refine ⟨fun mask hmask t => ?_, by simp⟩
    cases hmask
    rw [hasBit_constructedReasoningBitmask, canAcceptToken_of_reasoning hs.1 hphase]
    simp
  | false =>
    have hsome := someTokenAllowed_iff (g := g) hs.1 hphase
    rw [if_neg (by simp)]
    cases hfound : lookupCache.lookup s.transitionCacheKey with
    | some mask =>
      have hexact := hlookup.sound.exact hs hphase hfound
      refine ⟨fun mask' hmask => (Option.some.inj hmask) ▸ hexact.2, by simpa using hexact.1⟩
    | none =>
      dsimp only
      split
      · rename_i hallowed
        refine ⟨fun mask hmask => ?_, by simpa [hallowed] using hsome⟩
        rw [← Option.some.inj hmask, FilterMaskCache.store]
        split
        · exact (hstore.sound.exact hs hphase ‹_›).2
        · exact hasBit_computeAllowedBitmask hs.1 hphase
      · rename_i hallowed
        exact ⟨nofun, by simpa [hallowed] using hsome⟩

/-- A request for the matcher that has read nothing, after another one for the same matcher. -/
theorem allowedTokenBitmask_exact_brace :
    let g : JsonObjectGrammar := { tokenPieces := [[123], [97]] }
    ∃ cache mask, g.Requested cache ∧ cache ≠ [] ∧
      g.allowedTokenBitmask cache cache (initialState false) = some mask ∧
      (hasBit mask 0 = true ↔ 0 < g.vocabSize ∧ g.canAcceptToken (initialState false) 0 = true) := by
  intro g
  have hs : g.Reached (initialState false) := ⟨rfl, false, [], rfl⟩
  have hcache := Requested.store (s := initialState false) .empty hs rfl (by decide +kernel)
  exact ⟨_, [1], hcache, by decide, by decide +kernel,
    (allowedTokenBitmask_exact hs hcache hcache).1 [1] (by decide +kernel) 0⟩

/-- After the only piece `{` no token can be accepted: the CHECK ends the process. -/
theorem no_mask_after_brace :
    let g : JsonObjectGrammar := { tokenPieces := [[123]] }
    let s := g.offerAll (initialState false) [0]
    g.Reached s ∧ s.valid = true ∧ s.reasoningPhase = false ∧
      g.allowedTokenBitmask [] [] s = none := by
  refine ⟨⟨?_, false, [0], rfl⟩, ?_, ?_, ?_⟩ <;> decide +kernel

end JsonObjectGrammar

end Xllm.Framework
