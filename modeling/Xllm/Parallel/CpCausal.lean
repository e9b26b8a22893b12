import Xllm.Lib.Outcome
import Xllm.Parallel.CpKeyGather

/-!
# Context-parallel attention sees the causal keys

A rank's metadata are right when the length of each segment is the prefix and the tokens up to the
chunk's last one. The lengths are read from the positions at the last row of each chunk, so they are
right when every sequence has a row. A sequence without tokens reads the row before it, which belongs to
another sequence and differs from rank to rank, while the keys it should see are the same on all of them.
-/

namespace Xllm.Parallel

open Xllm.Lib List

section

variable {cpSize kvSplitSize blockSize r : Nat} {havePrefixSlots : Bool} {seqs : List CpSequence}

/-! ## The metadata of a batch -/

theorem shardMeta_localPaddedTokenCount :
    (buildInputShardMeta cpSize r (queryLengths seqs)
      (batchPositions seqs)).localPaddedTokenCount = (seqs.map (localWidth cpSize)).sum := by
  refine ((shardLoop_spec cpSize r (batchPositions seqs) (queryLengths seqs) {}).localPadded).trans ?_
  show 0 + paddedRows cpSize (seqs.map _) = _
  unfold paddedRows
  rw [Nat.zero_add, map_map]
  rfl

theorem shardMeta_localPaddedSeqLens :
    (buildInputShardMeta cpSize r (queryLengths seqs)
      (batchPositions seqs)).localPaddedSeqLens = seqs.map (localWidth cpSize) := by
  refine ((shardLoop_spec cpSize r (batchPositions seqs) (queryLengths seqs) {}).paddedLens).trans ?_
  show [] ++ (seqs.map _).map _ = _
  rw [nil_append, map_map]
  rfl

theorem shardMeta_localPositionIds (hcp : 0 < cpSize) :
    (buildInputShardMeta cpSize r (queryLengths seqs)
      (batchPositions seqs)).localPositionIds = localPositions cpSize r seqs := by
  refine ((shardLoop_spec cpSize r (batchPositions seqs) (queryLengths seqs) {}).positions).trans ?_
  exact positionsFrom_batchPositions hcp [] seqs

/-- The metadata, from the lengths that are read from the positions. -/
def attentionOf (cpSize kvSplitSize blockSize : Nat) (havePrefixSlots : Bool)
    (seqs : List CpSequence) (totalsPrev totalsNext : List Int) : CpAttentionMeta :=
  let inputLengths := seqs.map (localWidth cpSize)
  { queryBalanceIndices := generateQueryBalanceIndices inputLengths
    attentionOutputReorderIndices :=
      generateAttentionOutputReorderIndices (inputLengths.map (· / 2))
    kvReorderIndices :=
      generateKvReorderIndices cpSize inputLengths.sum (inputLengths.map (· / 2))
    prevKvGatherIndices := kvGatherIndices cpSize kvSplitSize blockSize havePrefixSlots totalsPrev
      inputLengths (seqs.map (·.prefixTokens))
    nextKvGatherIndices := kvGatherIndices cpSize kvSplitSize blockSize havePrefixSlots totalsNext
      inputLengths (seqs.map (·.prefixTokens))
    prevQueryCuSeqLens := (cumsumFrom 0 inputLengths).map (· / 2)
    nextQueryCuSeqLens := (cumsumFrom 0 inputLengths).map (· / 2)
    prevKeyCuSeqLens := cumsumFrom 0 totalsPrev
    nextKeyCuSeqLens := cumsumFrom 0 totalsNext }

def chunkEnds (cpSize : Nat) (seqs : List CpSequence) : List (Nat × Nat) :=
  computeInputLengthsCumsumCp 0 (cumsumFrom 0 (seqs.map (localWidth cpSize)))

theorem attentionMeta_eq_ok (hcp : 0 < cpSize) (hdvd : kvSplitSize ∣ cpSize)
    {attention : CpAttentionMeta} :
    attentionMeta cpSize kvSplitSize blockSize havePrefixSlots seqs r = .ok attention ↔
      ∃ totalsPrev totalsNext,
        actualSeqLengthsKv (localPositions cpSize r seqs) ((chunkEnds cpSize seqs).map Prod.fst) =
          .ok totalsPrev ∧
        actualSeqLengthsKv (localPositions cpSize r seqs) ((chunkEnds cpSize seqs).map Prod.snd) =
          .ok totalsNext ∧
        attention = attentionOf cpSize kvSplitSize blockSize havePrefixSlots seqs totalsPrev
          totalsNext := by
  have hsizes : ¬ (havePrefixSlots = true ∧
      (seqs.map (localWidth cpSize)).length ≠ (seqs.map (·.prefixTokens)).length) := by
    rw [length_map, length_map]
    exact fun h => h.2 rfl
  unfold attentionMeta buildAttentionTensorMeta
  dsimp only
  rw [shardMeta_localPaddedTokenCount, shardMeta_localPaddedSeqLens,
    shardMeta_localPositionIds hcp, if_neg (not_not.mpr (Nat.mod_eq_zero_of_dvd hdvd))]
  constructor
  · intro h
    obtain ⟨totalsPrev, hprev, h⟩ := bind_eq_ok.mp h
    obtain ⟨totalsNext, hnext, h⟩ := bind_eq_ok.mp h
    rw [if_neg hsizes] at h
    exact ⟨totalsPrev, totalsNext, hprev, hnext, (Except.ok.inj h).symm⟩
  · rintro ⟨totalsPrev, totalsNext, hprev, hnext, rfl⟩
    have hprev' : actualSeqLengthsKv (localPositions cpSize r seqs)
        ((computeInputLengthsCumsumCp 0 (cumsumFrom 0 (seqs.map (localWidth cpSize)))).map
          Prod.fst) = .ok totalsPrev := hprev
    have hnext' : actualSeqLengthsKv (localPositions cpSize r seqs)
        ((computeInputLengthsCumsumCp 0 (cumsumFrom 0 (seqs.map (localWidth cpSize)))).map
          Prod.snd) = .ok totalsNext := hnext
    rw [hprev']
    rw [hnext']
    show (if _ then _ else _) = _
    rw [if_neg hsizes]
    rfl

/-! ## The outputs, put back in order -/

theorem queryBalance_eq :
    generateQueryBalanceIndices (seqs.map (localWidth cpSize)) =
      (seqs.mapIdx fun i s => List.range' (offsetOf (localWidth cpSize) seqs i)
        (chunkLength cpSize s.queryTokens)).flatten ++
      (seqs.mapIdx fun i s =>
        List.range' (offsetOf (localWidth cpSize) seqs i + chunkLength cpSize s.queryTokens)
          (chunkLength cpSize s.queryTokens)).flatten := by
  have hhalf : ∀ s : CpSequence, localWidth cpSize s / 2 = chunkLength cpSize s.queryTokens := by
    intro s
    unfold localWidth
    omega
  have hrest : ∀ s : CpSequence, localWidth cpSize s - chunkLength cpSize s.queryTokens =
      chunkLength cpSize s.queryTokens := by
    intro s
    unfold localWidth
    omega
  unfold generateQueryBalanceIndices
  rw [withOffsets_map, withOffsets_map, withOffsets_eq, withOffsets_eq]
  simp only [hhalf, hrest, Nat.zero_add, id]

/-- The second indices undo the first: a sequence's head and tail chunks come back together. -/
theorem reorder_balance :
    indexSelect (generateQueryBalanceIndices (seqs.map (localWidth cpSize)))
        (generateAttentionOutputReorderIndices ((seqs.map (localWidth cpSize)).map (· / 2))) =
      some (List.range (seqs.map (localWidth cpSize)).sum) := by
  let chunk := fun s : CpSequence => chunkLength cpSize s.queryTokens
  have hchunks : (seqs.map (localWidth cpSize)).map (· / 2) = seqs.map chunk := by
    rw [map_map]
    apply map_congr_left
    intro s _
    show 2 * chunkLength cpSize s.queryTokens / 2 = chunkLength cpSize s.queryTokens
    omega
  have hrange : List.range (seqs.map (localWidth cpSize)).sum =
      (seqs.mapIdx fun i s =>
        List.range' (offsetOf (localWidth cpSize) seqs i) (localWidth cpSize s)).flatten := by
    rw [range_eq_range', ← @withOffsets_range' _ (localWidth cpSize) seqs, withOffsets_eq]
    simp only [Nat.zero_add]
  have hfirstLength : ∀ (i : Nat) (s : CpSequence), seqs[i]? = some s →
      (List.range' (offsetOf (localWidth cpSize) seqs i) (chunk s)).length = chunk s :=
    fun i s _ => length_range'
  have hsecondLength : ∀ (i : Nat) (s : CpSequence), seqs[i]? = some s →
      (List.range' (offsetOf (localWidth cpSize) seqs i + chunk s) (chunk s)).length = chunk s :=
    fun i s _ => length_range'
  unfold generateAttentionOutputReorderIndices
  rw [hchunks, queryBalance_eq, hrange]
  rw [withOffsets_map, withOffsets_eq]
  refine indexSelect_flatten_mapIdx fun i s hs => ?_
  -- the rows of a sequence are its two chunks
  have hsplit : List.range' (offsetOf (localWidth cpSize) seqs i) (localWidth cpSize s) =
      List.range' (offsetOf (localWidth cpSize) seqs i) (chunk s) ++
        List.range' (offsetOf (localWidth cpSize) seqs i + chunk s) (chunk s) := by
    have hwidth : localWidth cpSize s = chunk s + chunk s := Nat.two_mul _
    rw [hwidth, List.range'_append_1]
  rw [hsplit, Nat.zero_add]
  refine indexSelect_append ?_ ?_
  · refine indexSelect_append_left ?_
    have hrows := @indexSelect_range'_of_getElem? _
      (seqs.mapIdx fun i s => List.range' (offsetOf (localWidth cpSize) seqs i) (chunk s)).flatten
      (List.range' (offsetOf (localWidth cpSize) seqs i) (chunk s)) (offsetOf chunk seqs i)
      fun k hk => by
        rw [length_range'] at hk
        exact getElem?_flatten_mapIdx hfirstLength hs hk
    rw [length_range'] at hrows
    exact hrows
  · refine indexSelect_append_right (length_flatten_mapIdx hfirstLength) ?_
    have hrows := @indexSelect_range'_of_getElem? _
      (seqs.mapIdx fun i s =>
        List.range' (offsetOf (localWidth cpSize) seqs i + chunk s) (chunk s)).flatten
      (List.range' (offsetOf (localWidth cpSize) seqs i + chunk s) (chunk s))
      (offsetOf chunk seqs i)
      fun k hk => by
        rw [length_range'] at hk
        exact getElem?_flatten_mapIdx hsecondLength hs hk
    rw [length_range'] at hrows
    exact hrows

theorem reorder_undoes_balance {α : Type} (rows : List α)
    (hlength : rows.length = (seqs.map (localWidth cpSize)).sum) :
    ∃ balanced,
      indexSelect rows (generateQueryBalanceIndices (seqs.map (localWidth cpSize))) =
        some balanced ∧
      indexSelect balanced
        (generateAttentionOutputReorderIndices ((seqs.map (localWidth cpSize)).map (· / 2))) =
        some rows := by
  have hbalance : ∀ i ∈ generateQueryBalanceIndices (seqs.map (localWidth cpSize)),
      i < rows.length := by
    intro i hi
    rw [queryBalance_eq, mem_append, mem_flatten, mem_flatten] at hi
    rcases hi with ⟨piece, hpiece, hi⟩ | ⟨piece, hpiece, hi⟩
    · obtain ⟨k, hk, rfl⟩ := mem_mapIdx.mp hpiece
      have hle := @offsetOf_add_le _ (localWidth cpSize) seqs k _ (List.getElem?_eq_getElem hk)
      obtain ⟨hge, hlt⟩ := List.mem_range'_1.mp hi
      have : localWidth cpSize seqs[k] = 2 * chunkLength cpSize seqs[k].queryTokens := rfl
      omega
    · obtain ⟨k, hk, rfl⟩ := mem_mapIdx.mp hpiece
      have hle := @offsetOf_add_le _ (localWidth cpSize) seqs k _ (List.getElem?_eq_getElem hk)
      obtain ⟨hge, hlt⟩ := List.mem_range'_1.mp hi
      have : localWidth cpSize seqs[k] = 2 * chunkLength cpSize seqs[k].queryTokens := rfl
      omega
  obtain ⟨balanced, hbalanced⟩ := Option.isSome_iff_exists.mp (indexSelect_isSome_iff.mpr hbalance)
  refine ⟨balanced, hbalanced, ?_⟩
  rw [indexSelect_comp hbalanced reorder_balance, ← hlength, indexSelect_range]

/-! ## The keys, selected -/

theorem attentionKeys_eq :
    attentionKeys cpSize kvSplitSize blockSize havePrefixSlots seqs
        (generateKvReorderIndices cpSize (seqs.map (localWidth cpSize)).sum
          ((seqs.map (localWidth cpSize)).map (· / 2))) =
      some ((if havePrefixSlots then prefixKeys kvSplitSize blockSize seqs else []) ++
        currentKeys cpSize seqs) := by
  unfold attentionKeys
  rw [kvReorder_keys]
  rfl

theorem currentIndices_select {upTo : CpSequence → Nat} {i : Nat} {s : CpSequence}
    (hs : seqs[i]? = some s) (hle : upTo s ≤ localWidth cpSize s * cpSize) :
    indexSelect (currentKeys cpSize seqs)
        (List.range' (offsetOf (fun s => localWidth cpSize s * cpSize) seqs i) (upTo s)) =
      some ((List.range (upTo s)).map (KeyRow.current i)) :=
  indexSelect_range' fun _ ht => currentKeys_getElem? hs (by omega)

/-- What the gather selects: each sequence's prefix keys, then its keys up to the row. -/
theorem kvGatherIndices_select {upTo : CpSequence → Nat} (hkv : 0 < kvSplitSize)
    (hbs : 0 < blockSize) (hdvd : ∀ s ∈ seqs, kvSplitSize * blockSize ∣ s.prefixTokens)
    (habsent : havePrefixSlots = true ∨ ∀ s ∈ seqs, s.prefixTokens = 0)
    (hle : ∀ s ∈ seqs, upTo s ≤ localWidth cpSize s * cpSize) :
    indexSelect
        ((if havePrefixSlots then prefixKeys kvSplitSize blockSize seqs else []) ++
          currentKeys cpSize seqs) (kvGatherIndices cpSize kvSplitSize blockSize havePrefixSlots
          (seqs.map fun s => ((s.prefixTokens + upTo s : Nat) : Int))
          (seqs.map (localWidth cpSize)) (seqs.map (·.prefixTokens))) =
      some (seqs.mapIdx (keySegment kvSplitSize blockSize upTo)).flatten := by
  cases havePrefixSlots with
  | false =>
    have hcold : ∀ s ∈ seqs, s.prefixTokens = 0 :=
      habsent.resolve_left (by simp)
    have htotals : (seqs.map fun s => ((s.prefixTokens + upTo s : Nat) : Int)).map Int.toNat =
        seqs.map upTo := by
      rw [map_map]
      apply map_congr_left
      intro s hs
      show ((s.prefixTokens + upTo s : Nat) : Int).toNat = upTo s
      rw [Int.toNat_natCast, hcold s hs, Nat.zero_add]
    show indexSelect ([] ++ currentKeys cpSize seqs) (generateKGatherIndex _ _ _) = _
    rw [htotals, generateKGatherIndex_eq, nil_append]
    refine indexSelect_flatten_mapIdx fun i s hs => ?_
    have hmem := mem_of_getElem? hs
    have hnone : prefixTokenOrder kvSplitSize blockSize s.prefixTokens = [] := by
      rw [hcold s hmem]
      exact List.Perm.eq_nil (prefixTokenOrder_perm hkv hbs (Nat.dvd_zero _))
    rw [currentIndices_select hs (hle s hmem)]
    unfold keySegment
    rw [hnone]
    rfl
  | true =>
    have hcurrent : currentLengths kvSplitSize blockSize
        (seqs.map fun s => ((s.prefixTokens + upTo s : Nat) : Int)) (seqs.map (·.prefixTokens)) =
        seqs.map upTo := by
      unfold currentLengths
      rw [zipWith_map, zipWith_self]
      apply map_congr_left
      intro s hs
      rw [realLenInRank_mul hkv hbs (hdvd s hs)]
      omega
    have hlengths : (((seqs.map (·.prefixTokens)).map fun kvCacheTokens =>
        realLenInRank kvSplitSize blockSize kvCacheTokens * kvSplitSize).zip (seqs.map upTo)) =
        seqs.map fun s => (s.prefixTokens, upTo s) := by
      rw [map_map, zip_map']
      apply map_congr_left
      intro s hs
      show (realLenInRank kvSplitSize blockSize s.prefixTokens * kvSplitSize, upTo s) = _
      rw [realLenInRank_mul hkv hbs (hdvd s hs)]
    have hhistoryLength : ∀ (i : Nat) (s : CpSequence), seqs[i]? = some s →
        (prefixIndices kvSplitSize blockSize seqs i s).length = s.prefixTokens :=
      fun i s hs => prefixIndices_length hkv hbs (hdvd s (mem_of_getElem? hs))
    have hcurrentLength : ∀ (i : Nat) (s : CpSequence), seqs[i]? = some s →
        (List.range' (offsetOf (fun s => localWidth cpSize s * cpSize) seqs i) (upTo s)).length =
          upTo s := fun i s _ => length_range'
    show indexSelect (prefixKeys kvSplitSize blockSize seqs ++ currentKeys cpSize seqs)
      (mergeContextAndCurrent _ _ _ 0 0 _) = _
    rw [hcurrent, hlengths, generateContextKGatherIndex_eq, generateKGatherIndex_eq,
      mergeContextAndCurrent_eq]
    -- each sequence cuts its own piece out of the two lists of indices
    have hpieces : ((seqs.map fun s => (s.prefixTokens, upTo s)).mapIdx fun i p =>
        ((seqs.mapIdx (prefixIndices kvSplitSize blockSize seqs)).flatten.drop
            (0 + offsetOf Prod.fst (seqs.map fun s => (s.prefixTokens, upTo s)) i)).take p.1 ++
          (((seqs.mapIdx fun i s => List.range'
              (offsetOf (fun s => localWidth cpSize s * cpSize) seqs i) (upTo s)).flatten.drop
            (0 + offsetOf Prod.snd (seqs.map fun s => (s.prefixTokens, upTo s)) i)).take p.2).map
              (· + rankBlockSize kvSplitSize blockSize (seqs.map (·.prefixTokens)) * kvSplitSize)) =
        seqs.mapIdx fun i s => prefixIndices kvSplitSize blockSize seqs i s ++
          (List.range' (offsetOf (fun s => localWidth cpSize s * cpSize) seqs i) (upTo s)).map
            (· + rankBlockSize kvSplitSize blockSize (seqs.map (·.prefixTokens)) * kvSplitSize) := by
      apply ext_getElem?
      intro i
      rw [List.getElem?_mapIdx, List.getElem?_mapIdx, List.getElem?_map]
      cases hs : seqs[i]? with
      | none => rfl
      | some s =>
        show some (_ ++ _) = some (_ ++ _)
        rw [offsetOf_map, offsetOf_map, Nat.zero_add, Nat.zero_add]
        rw [take_drop_flatten_mapIdx hhistoryLength hs, take_drop_flatten_mapIdx hcurrentLength hs]
    rw [hpieces]
    refine indexSelect_flatten_mapIdx fun i s hs => ?_
    have hmem := mem_of_getElem? hs
    exact indexSelect_append
      (indexSelect_append_left (prefixIndices_select hkv hbs hs (hdvd s hmem)))
      (indexSelect_append_right (prefixKeys_length hbs) (currentIndices_select hs (hle s hmem)))

/-! ## A batch without empty sequences -/

theorem firstChunkEnd_le (hr : r < cpSize) (s : CpSequence) :
    firstChunkEnd cpSize r s ≤ localWidth cpSize s * cpSize := by
  calc (r + 1) * chunkLength cpSize s.queryTokens
      ≤ (2 * cpSize) * chunkLength cpSize s.queryTokens := Nat.mul_le_mul_right _ (by omega)
    _ = 2 * chunkLength cpSize s.queryTokens * cpSize := by
      rw [Nat.mul_assoc, Nat.mul_comm cpSize, Nat.mul_assoc]

theorem secondChunkEnd_le (s : CpSequence) :
    secondChunkEnd cpSize r s ≤ localWidth cpSize s * cpSize := by
  calc (cpSize * 2 - r) * chunkLength cpSize s.queryTokens
      ≤ (2 * cpSize) * chunkLength cpSize s.queryTokens := Nat.mul_le_mul_right _ (by omega)
    _ = 2 * chunkLength cpSize s.queryTokens * cpSize := by
      rw [Nat.mul_assoc, Nat.mul_comm cpSize, Nat.mul_assoc]

theorem causalAttention_of_pos (hkv : 0 < kvSplitSize) (hkvcp : kvSplitSize ∣ cpSize)
    (hbs : 0 < blockSize) (hdvd : ∀ s ∈ seqs, kvSplitSize * blockSize ∣ s.prefixTokens)
    (habsent : havePrefixSlots = true ∨ ∀ s ∈ seqs, s.prefixTokens = 0) (hr : r < cpSize)
    (hpos : ∀ s ∈ seqs, 0 < s.queryTokens) :
    ∃ attention, attentionMeta cpSize kvSplitSize blockSize havePrefixSlots seqs r =
        .ok attention ∧
      CausalAttention cpSize kvSplitSize blockSize havePrefixSlots seqs r
        (seqs.map (localWidth cpSize)).sum attention := by
  have hcp : 0 < cpSize := by omega
  have hprev := @totalsPrev_eq cpSize r seqs hcp hpos
  have hnext := totalsNext_eq hr hpos
  refine ⟨_, (attentionMeta_eq_ok hcp hkvcp).mpr ⟨_, _, hprev, hnext, rfl⟩, ?_, ?_⟩
  · refine ⟨_, attentionKeys_eq, ?_, ?_⟩
    · exact seesCausalKeys_of_segments hkv hbs hdvd
        (kvGatherIndices_select hkv hbs hdvd habsent fun s _ => firstChunkEnd_le hr s)
    · exact seesCausalKeys_of_segments hkv hbs hdvd
        (kvGatherIndices_select hkv hbs hdvd habsent fun s _ => secondChunkEnd_le s)
  · intro α rows hlength
    exact reorder_undoes_balance rows hlength

/-! ## An empty sequence -/

theorem total_of_seesCausalKeys {keys : List KeyRow} {indices : List Nat} {totals : List Int}
    {upTo : CpSequence → Nat} (h : SeesCausalKeys keys indices (cumsumFrom 0 totals) seqs upTo)
    {i : Nat} {s : CpSequence} (hs : seqs[i]? = some s) :
    totals[i]? = some ((s.prefixTokens + upTo s : Nat) : Int) := by
  obtain ⟨segments, -, hlength, hsums, hsegments⟩ := h
  have hlt : i < segments.length := by
    rw [hlength]
    exact (List.getElem?_eq_some_iff.mp hs).1
  have hsegment := List.getElem?_eq_getElem hlt
  obtain ⟨hnodup, hrows⟩ := hsegments i s _ hs hsegment
  rw [← cumsumFrom_injective hsums, List.getElem?_map, hsegment, Option.map_some,
    causalRows_length hnodup hrows]

theorem position_of_total {positions : List Int} {ends : List Nat} {totals : List Int}
    (h : actualSeqLengthsKv positions ends = .ok totals) {i chunkEnd : Nat} {total : Int}
    (hend : ends[i]? = some chunkEnd) (htotal : totals[i]? = some total) :
    positions[chunkEnd - 1]? = some (total - 1) := by
  unfold actualSeqLengthsKv at h
  cases hselect : indexSelect positions (ends.map (· - 1)) with
  | none =>
    rw [hselect] at h
    cases h
  | some read =>
    rw [hselect] at h
    cases h
    rw [List.getElem?_map] at htotal
    obtain ⟨position, hposition, rfl⟩ := Option.map_eq_some_iff.mp htotal
    rw [Int.add_sub_cancel]
    refine (getElem?_of_indexSelect hselect).2 i (chunkEnd - 1) position ?_ hposition
    rw [List.getElem?_map, hend]
    rfl

theorem position_of_causalAttention (hcp : 0 < cpSize) (hkvcp : kvSplitSize ∣ cpSize)
    {attention : CpAttentionMeta}
    (hmeta : attentionMeta cpSize kvSplitSize blockSize havePrefixSlots seqs r = .ok attention)
    (h : CausalAttention cpSize kvSplitSize blockSize havePrefixSlots seqs r
      (seqs.map (localWidth cpSize)).sum attention) {i : Nat} {s : CpSequence}
    (hs : seqs[i]? = some s) (hempty : s.queryTokens = 0) :
    (localPositions cpSize r seqs)[offsetOf (localWidth cpSize) seqs i - 1]? =
      some ((s.prefixTokens : Int) - 1) := by
  obtain ⟨totalsPrev, totalsNext, hprev, -, rfl⟩ := (attentionMeta_eq_ok hcp hkvcp).mp hmeta
  obtain ⟨keys, -, hfirst, -⟩ := h.keys
  have htotal := total_of_seesCausalKeys hfirst hs
  have hend : ((chunkEnds cpSize seqs).map Prod.fst)[i]? =
      some (offsetOf (localWidth cpSize) seqs i) := by
    unfold chunkEnds
    rw [cumsumCp_eq, map_mapIdx, List.getElem?_mapIdx, hs]
    show some (_ + chunkLength cpSize s.queryTokens) = _
    rw [hempty, chunkLength_zero hcp, Nat.add_zero]
  have hupTo : firstChunkEnd cpSize r s = 0 := by
    unfold firstChunkEnd
    rw [hempty, chunkLength_zero hcp, Nat.mul_zero]
  rw [hupTo, Nat.add_zero] at htotal
  exact position_of_total hprev hend htotal

end

/-- On every rank the gather indices of the two chunks select, sequence by sequence, the prefix and
the tokens up to the chunk's last one, each once, with the key lengths of the metadata, and the
outputs are put back in order: exactly when no sequence of the batch is empty. -/
theorem cp_attention_causal_iff (cpSize kvSplitSize blockSize : Nat) (havePrefixSlots : Bool)
    (seqs : List CpSequence) (hcp : 1 < cpSize) (hkv : 0 < kvSplitSize)
    (hkvcp : kvSplitSize ∣ cpSize) (hbs : 0 < blockSize)
    (hdvd : ∀ s ∈ seqs, kvSplitSize * blockSize ∣ s.prefixTokens)
    (habsent : havePrefixSlots = true ∨ ∀ s ∈ seqs, s.prefixTokens = 0) :
    (∀ r < cpSize, ∃ attention,
        attentionMeta cpSize kvSplitSize blockSize havePrefixSlots seqs r = .ok attention ∧
        CausalAttention cpSize kvSplitSize blockSize havePrefixSlots seqs r
          (seqs.map (localWidth cpSize)).sum attention) ↔
      ∀ s ∈ seqs, 0 < s.queryTokens := by
  constructor
  · intro h s hmem
    refine Nat.pos_of_ne_zero fun hempty => ?_
    obtain ⟨i, hs⟩ := mem_iff_getElem?.mp hmem
    obtain ⟨attention, hmeta, hcausal⟩ := h 0 (by omega)
    obtain ⟨attention', hmeta', hcausal'⟩ := h 1 hcp
    have hposition := position_of_causalAttention (by omega) hkvcp hmeta hcausal hs hempty
    have hposition' := position_of_causalAttention (by omega) hkvcp hmeta' hcausal' hs hempty
    -- the row before the sequence has other positions on the next rank
    exact localPositions_ne hcp hposition hposition' rfl
  · intro hpos r hr
    exact causalAttention_of_pos hkv hkvcp hbs hdvd habsent hr hpos

/-- A prefill with two sequences, one of them with a cached prefix, on its second rank. -/
theorem cp_attention_causal_two : ∃ attention,
    attentionMeta 2 2 2 true [⟨5, 8⟩, ⟨3, 0⟩] 1 = .ok attention ∧
    CausalAttention 2 2 2 true [⟨5, 8⟩, ⟨3, 0⟩] 1
      (([⟨5, 8⟩, ⟨3, 0⟩] : List CpSequence).map (localWidth 2)).sum attention :=
  (cp_attention_causal_iff 2 2 2 true [⟨5, 8⟩, ⟨3, 0⟩] (by decide) (by decide) (by decide)
    (by decide) (by decide) (.inl rfl)).mpr (by decide) 1 (by decide)

/-- The sequence without tokens gets the length of its neighbour's positions, and with it the keys of the
sequence behind it and rows past the last one. -/
theorem empty_sequence_reads_neighbour : ∃ attention,
    attentionMeta 2 2 2 true [⟨8, 8⟩, ⟨0, 0⟩, ⟨3, 0⟩] 0 = .ok attention ∧
    attention.prevKeyCuSeqLens = [10, 26, 27] ∧
    ¬ CausalAttention 2 2 2 true [⟨8, 8⟩, ⟨0, 0⟩, ⟨3, 0⟩] 0
      (([⟨8, 8⟩, ⟨0, 0⟩, ⟨3, 0⟩] : List CpSequence).map (localWidth 2)).sum attention := by
  have hmeta := (@attentionMeta_eq_ok 2 2 2 0 true [⟨8, 8⟩, ⟨0, 0⟩, ⟨3, 0⟩] (by decide) (by decide)
    _).mpr ⟨[10, 16, 1], [16, 16, 4], by decide +kernel, by decide +kernel, rfl⟩
  refine ⟨_, hmeta, by decide +kernel, fun h => ?_⟩
  have hs : ([⟨8, 8⟩, ⟨0, 0⟩, ⟨3, 0⟩] : List CpSequence)[1]? = some ⟨0, 0⟩ := rfl
  have hposition := position_of_causalAttention (by decide) (by decide) hmeta h hs rfl
  exact absurd hposition (by decide +kernel)

end Xllm.Parallel
