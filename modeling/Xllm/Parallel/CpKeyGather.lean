import Xllm.Parallel.CpCausalKeys

/-!
# The gather indices of a chunk, computed

Each list of the attention metadata is a loop over the sequences, so each is computed sequence by
sequence: the positions of a rank's rows, the ends of the chunks that are read from them, the indices of
the prefix and of the keys of the batch, and the merge of the two. What a sequence's part of the merged
indices selects is its `keySegment`, and `Nodup` and membership of a segment come from one permutation:
the rows that the KV-split ranks hold of a prefix are the prefix, in another order.
-/

namespace Xllm.Parallel

open Xllm.Lib List

/-! ## The positions of a rank's rows -/

def localPositions (cpSize r : Nat) (seqs : List CpSequence) : List Int :=
  (seqs.mapIdx fun _ s => seqPositions cpSize r s.queryTokens s.prefixTokens).flatten

section

variable {cpSize r : Nat}

theorem chunkLength_zero (hcp : 0 < cpSize) : chunkLength cpSize 0 = 0 := by
  unfold chunkLength paddedLength
  have hround : (0 + cpSize * 2 - 1) / (cpSize * 2) = 0 := Nat.div_eq_of_lt (by omega)
  rw [hround, Nat.zero_mul, Nat.zero_div]

theorem seqPositions_zero (hcp : 0 < cpSize) (posStart : Int) :
    seqPositions cpSize r 0 posStart = [] := by
  unfold seqPositions
  rw [chunkLength_zero hcp]
  rfl

theorem seqPositions_length (q : Nat) (posStart : Int) :
    (seqPositions cpSize r q posStart).length = 2 * chunkLength cpSize q := by
  unfold seqPositions
  rw [length_append, length_map, length_map, length_range]
  omega

theorem seqPositions_first {q j : Nat} (posStart : Int) (hj : j < chunkLength cpSize q) :
    (seqPositions cpSize r q posStart)[j]? =
      some (posStart + (r * chunkLength cpSize q + j : Nat)) := by
  unfold seqPositions
  rw [List.getElem?_append_left (by rw [length_map, length_range]; exact hj),
    List.getElem?_map, List.getElem?_range hj]
  rfl

theorem seqPositions_second {q j : Nat} (posStart : Int) (hj : j < chunkLength cpSize q) :
    (seqPositions cpSize r q posStart)[chunkLength cpSize q + j]? =
      some (posStart + ((cpSize * 2 - 1 - r) * chunkLength cpSize q + j : Nat)) := by
  unfold seqPositions
  rw [List.getElem?_append_right (by rw [length_map, length_range]; omega),
    length_map, length_range, Nat.add_sub_cancel_left, List.getElem?_map,
    List.getElem?_range hj]
  rfl

theorem localPositions_cons (s : CpSequence) (seqs : List CpSequence) :
    localPositions cpSize r (s :: seqs) =
      seqPositions cpSize r s.queryTokens s.prefixTokens ++ localPositions cpSize r seqs := by
  unfold localPositions
  rw [mapIdx_cons, flatten_cons]

theorem positionsFrom_batchPositions (hcp : 0 < cpSize) (before : List Int) :
    ∀ (seqs : List CpSequence),
      positionsFrom cpSize r (before ++ batchPositions seqs) before.length (queryLengths seqs) =
        localPositions cpSize r seqs := by
  intro seqs
  induction seqs generalizing before with
  | nil => rfl
  | cons s seqs ih =>
    let own := (List.range s.queryTokens).map fun t => ((s.prefixTokens + t : Nat) : Int)
    have hbatch : before ++ batchPositions (s :: seqs) = (before ++ own) ++ batchPositions seqs := by
      rw [List.append_assoc]
      rfl
    have hlength : (before ++ own).length = before.length + s.queryTokens := by
      rw [length_append, length_map, length_range]
    have hrest := ih (before ++ own)
    rw [hlength, ← hbatch] at hrest
    show seqPositions cpSize r (s.queryTokens : Int).toNat
        (seqPosStart (before ++ batchPositions (s :: seqs)) before.length) ++
      positionsFrom cpSize r (before ++ batchPositions (s :: seqs))
        (before.length + (s.queryTokens : Int).toNat) (queryLengths seqs) = _
    rw [Int.toNat_natCast, hrest, localPositions_cons]
    cases hq : s.queryTokens with
    | zero => rw [seqPositions_zero hcp, seqPositions_zero hcp]
    | succ q =>
      have hstart : seqPosStart (before ++ batchPositions (s :: seqs)) before.length =
          s.prefixTokens := by
        unfold seqPosStart
        have hown : own[0]? = some (s.prefixTokens : Int) := by
          rw [List.getElem?_map, List.getElem?_range (by omega)]
          rfl
        have hpos : 0 < own.length := by
          rw [length_map, length_range]
          omega
        rw [hbatch, List.append_assoc, List.getElem?_append_right (Nat.le_refl _), Nat.sub_self,
          List.getElem?_append_left hpos, hown]
        rfl
      rw [hstart]

theorem localPositions_ne (hr : r + 1 < cpSize) {seqs : List CpSequence} {k : Nat} {x y : Int}
    (hx : (localPositions cpSize r seqs)[k]? = some x)
    (hy : (localPositions cpSize (r + 1) seqs)[k]? = some y) : x ≠ y := by
  induction seqs generalizing k with
  | nil => exact nomatch hx
  | cons s seqs ih =>
    rw [localPositions_cons] at hx hy
    have hlength := @seqPositions_length cpSize r s.queryTokens s.prefixTokens
    have hlength' := @seqPositions_length cpSize (r + 1) s.queryTokens s.prefixTokens
    by_cases hk : k < 2 * chunkLength cpSize s.queryTokens
    · rw [List.getElem?_append_left (by omega)] at hx hy
      by_cases hfirst : k < chunkLength cpSize s.queryTokens
      · rw [seqPositions_first _ hfirst] at hx hy
        rw [Nat.succ_mul] at hy
        cases hx
        cases hy
        omega
      · obtain ⟨j, rfl⟩ : ∃ j, k = chunkLength cpSize s.queryTokens + j :=
          ⟨k - chunkLength cpSize s.queryTokens, by omega⟩
        have hj : j < chunkLength cpSize s.queryTokens := by omega
        rw [seqPositions_second _ hj] at hx hy
        have hback : cpSize * 2 - 1 - r = (cpSize * 2 - 1 - (r + 1)) + 1 := by omega
        rw [hback, Nat.succ_mul] at hx
        cases hx
        cases hy
        omega
    · rw [List.getElem?_append_right (by omega), hlength] at hx
      rw [List.getElem?_append_right (by omega), hlength'] at hy
      exact ih hx hy

end

/-! ## Running sums -/

theorem cumsumFrom_injective {xs ys : List Int} {s : Int}
    (h : cumsumFrom s xs = cumsumFrom s ys) : xs = ys := by
  induction xs generalizing s ys with
  | nil =>
    cases ys with
    | nil => rfl
    | cons y ys => exact nomatch h
  | cons x xs ih =>
    cases ys with
    | nil => exact nomatch h
    | cons y ys =>
      obtain ⟨hhead, htail⟩ := List.cons.inj h
      obtain rfl : x = y := by omega
      rw [ih htail]

theorem computeInputLengthsCumsumCp_eq (lengths : List Nat) (offset : Nat) :
    computeInputLengthsCumsumCp offset (cumsumFrom offset lengths) =
      withOffsets id (fun length base => [(base + length / 2, base + length)]) offset lengths := by
  induction lengths generalizing offset with
  | nil => rfl
  | cons length lengths ih =>
    show (offset + (offset + length - offset) / 2, offset + length) ::
        computeInputLengthsCumsumCp (offset + length) (cumsumFrom (offset + length) lengths) =
      (offset + length / 2, offset + length) ::
        withOffsets id (fun length base => [(base + length / 2, base + length)])
          (offset + length) lengths
    rw [ih, Nat.add_sub_cancel_left]

section

variable {cpSize kvSplitSize blockSize r : Nat} {seqs : List CpSequence}

theorem cumsumCp_eq :
    computeInputLengthsCumsumCp 0 (cumsumFrom 0 (seqs.map (localWidth cpSize))) =
      seqs.mapIdx fun i s =>
        (offsetOf (localWidth cpSize) seqs i + chunkLength cpSize s.queryTokens,
          offsetOf (localWidth cpSize) seqs i + localWidth cpSize s) := by
  rw [computeInputLengthsCumsumCp_eq, withOffsets_map]
  refine (withOffsets_singleton _ 0).trans ?_
  congr 1
  funext i s
  show (0 + offsetOf (localWidth cpSize) seqs i + 2 * chunkLength cpSize s.queryTokens / 2,
    0 + offsetOf (localWidth cpSize) seqs i + localWidth cpSize s) = _
  rw [Nat.mul_div_cancel_left _ (by omega), Nat.zero_add]

variable {upTo : CpSequence → Nat}

theorem actualSeqLengthsKv_eq {ends : CpSequence → Nat}
    (h : ∀ s ∈ seqs, 0 < ends s ∧ ends s ≤ localWidth cpSize s ∧
      (seqPositions cpSize r s.queryTokens s.prefixTokens)[ends s - 1]? =
        some ((s.prefixTokens + upTo s : Nat) - 1 : Int)) :
    actualSeqLengthsKv (localPositions cpSize r seqs)
        (seqs.mapIdx fun i s => offsetOf (localWidth cpSize) seqs i + ends s) =
      .ok (seqs.map fun s => ((s.prefixTokens + upTo s : Nat) : Int)) := by
  have hselect : indexSelect (localPositions cpSize r seqs)
      ((seqs.mapIdx fun i s => offsetOf (localWidth cpSize) seqs i + ends s).map (· - 1)) =
      some (seqs.map fun s => ((s.prefixTokens + upTo s : Nat) - 1 : Int)) := by
    refine indexSelect_eq_of_getElem? (by simp) fun k hk => ?_
    rw [length_map] at hk
    have hs := List.getElem?_eq_getElem hk
    obtain ⟨hpos, hle, hrow⟩ := h _ (getElem_mem hk)
    refine ⟨offsetOf (localWidth cpSize) seqs k + ends seqs[k] - 1, ?_, ?_⟩
    · rw [List.getElem?_map, List.getElem?_mapIdx, hs]
      rfl
    · have hwidth : ∀ (i : Nat) (s : CpSequence), seqs[i]? = some s →
          (seqPositions cpSize r s.queryTokens s.prefixTokens).length = localWidth cpSize s :=
        fun i s _ => seqPositions_length s.queryTokens s.prefixTokens
      have hlt : ends seqs[k] - 1 < localWidth cpSize seqs[k] := by omega
      unfold localPositions
      rw [List.getElem?_map, hs, Nat.add_sub_assoc hpos, getElem?_flatten_mapIdx hwidth hs hlt, hrow]
      rfl
  unfold actualSeqLengthsKv
  rw [hselect]
  show Except.ok _ = Except.ok _
  rw [map_map]
  congr 1
  apply map_congr_left
  intro s _
  show ((s.prefixTokens + upTo s : Nat) : Int) - 1 + 1 = _
  omega

theorem totalsPrev_eq (hcp : 0 < cpSize) (hpos : ∀ s ∈ seqs, 0 < s.queryTokens) :
    actualSeqLengthsKv (localPositions cpSize r seqs)
        ((computeInputLengthsCumsumCp 0 (cumsumFrom 0 (seqs.map (localWidth cpSize)))).map
          Prod.fst) =
      .ok (seqs.map fun s => ((s.prefixTokens + firstChunkEnd cpSize r s : Nat) : Int)) := by
  rw [cumsumCp_eq, map_mapIdx]
  refine actualSeqLengthsKv_eq fun s hs => ?_
  have hchunk := chunkLength_pos hcp (hpos s hs)
  refine ⟨hchunk, by unfold localWidth; omega, ?_⟩
  rw [seqPositions_first _ (by omega)]
  unfold firstChunkEnd
  rw [Nat.succ_mul]
  congr 1
  omega

theorem totalsNext_eq (hr : r < cpSize) (hpos : ∀ s ∈ seqs, 0 < s.queryTokens) :
    actualSeqLengthsKv (localPositions cpSize r seqs)
        ((computeInputLengthsCumsumCp 0 (cumsumFrom 0 (seqs.map (localWidth cpSize)))).map
          Prod.snd) =
      .ok (seqs.map fun s => ((s.prefixTokens + secondChunkEnd cpSize r s : Nat) : Int)) := by
  rw [cumsumCp_eq, map_mapIdx]
  refine actualSeqLengthsKv_eq fun s hs => ?_
  have hchunk := chunkLength_pos (Nat.lt_of_le_of_lt (Nat.zero_le r) hr) (hpos s hs)
  refine ⟨by unfold localWidth; omega, Nat.le_refl _, ?_⟩
  have hlast : localWidth cpSize s - 1 =
      chunkLength cpSize s.queryTokens + (chunkLength cpSize s.queryTokens - 1) := by
    unfold localWidth
    omega
  rw [hlast, seqPositions_second _ (by omega)]
  unfold secondChunkEnd
  have hback : cpSize * 2 - r = (cpSize * 2 - 1 - r) + 1 := by omega
  rw [hback, Nat.succ_mul]
  congr 1
  omega

/-! ## The prefix in the gathered keys -/

/-- `real_len_in_rank` in blocks. -/
def rankBlocks (kvSplitSize blockSize prefixTokens : Nat) : Nat :=
  prefixTokens / (kvSplitSize * blockSize)

/-- The tokens of a prefix, in the order of the KV-split ranks. -/
def prefixTokenOrder (kvSplitSize blockSize prefixTokens : Nat) : List Nat :=
  (List.range kvSplitSize).flatMap fun j =>
    (List.range (rankBlocks kvSplitSize blockSize prefixTokens)).flatMap fun block =>
      (List.range blockSize).map fun offset =>
        block * (blockSize * kvSplitSize) + j * blockSize + offset

variable {prefixTokens : Nat}

theorem realLenInRank_eq (hkv : 0 < kvSplitSize) (hbs : 0 < blockSize)
    (hdvd : kvSplitSize * blockSize ∣ prefixTokens) :
    realLenInRank kvSplitSize blockSize prefixTokens =
      rankBlocks kvSplitSize blockSize prefixTokens * blockSize := by
  obtain ⟨m, rfl⟩ := hdvd
  unfold realLenInRank rankBlocks
  rw [Nat.mul_div_cancel_left _ (Nat.mul_pos hkv hbs), Nat.mul_assoc,
    Nat.mul_div_cancel_left _ hkv, Nat.mul_div_cancel_left _ hbs]

theorem realLenInRank_mul (hkv : 0 < kvSplitSize) (hbs : 0 < blockSize)
    (hdvd : kvSplitSize * blockSize ∣ prefixTokens) :
    realLenInRank kvSplitSize blockSize prefixTokens * kvSplitSize = prefixTokens := by
  rw [realLenInRank_eq hkv hbs hdvd, Nat.mul_assoc, Nat.mul_comm blockSize]
  exact Nat.div_mul_cancel hdvd

/-- The KV-split ranks hold the tokens of a prefix, each once. -/
theorem prefixTokenOrder_perm (hkv : 0 < kvSplitSize) (hbs : 0 < blockSize)
    (hdvd : kvSplitSize * blockSize ∣ prefixTokens) :
    (prefixTokenOrder kvSplitSize blockSize prefixTokens).Perm (List.range prefixTokens) := by
  have hlength : (prefixTokenOrder kvSplitSize blockSize prefixTokens).length = prefixTokens := by
    have hreal := realLenInRank_mul hkv hbs hdvd
    rw [realLenInRank_eq hkv hbs hdvd] at hreal
    unfold prefixTokenOrder
    simp only [length_flatMap, length_map, length_range, map_const',
      sum_replicate_nat]
    rw [Nat.mul_comm kvSplitSize]
    exact hreal
  have hsubset : List.range prefixTokens ⊆ prefixTokenOrder kvSplitSize blockSize prefixTokens := by
    intro t ht
    have hlt := mem_range.mp ht
    -- the block, the rank and the offset are the digits of `t`
    have hblock : t / (blockSize * kvSplitSize) < rankBlocks kvSplitSize blockSize prefixTokens := by
      rw [Nat.mul_comm blockSize]
      exact Nat.div_lt_div_of_lt_of_dvd hdvd hlt
    have hrank : t % (blockSize * kvSplitSize) / blockSize < kvSplitSize :=
      Nat.div_lt_of_lt_mul (Nat.mod_lt _ (Nat.mul_pos hbs hkv))
    have hoffset : t % (blockSize * kvSplitSize) % blockSize < blockSize := Nat.mod_lt _ hbs
    refine mem_flatMap.mpr ⟨_, mem_range.mpr hrank, mem_flatMap.mpr
      ⟨_, mem_range.mpr hblock, mem_map.mpr ⟨_, mem_range.mpr hoffset, ?_⟩⟩⟩
    rw [Nat.add_assoc, Nat.mul_comm (_ / blockSize), Nat.div_add_mod, Nat.mul_comm (t / _),
      Nat.div_add_mod]
  have hperm := (nodup_range.subperm hsubset).perm_of_length_le
    (by rw [hlength, length_range])
  exact hperm.symm

/-! ## The keys of a sequence -/

/-- The rows that the gather indices select for sequence `i`. -/
def keySegment (kvSplitSize blockSize : Nat) (upTo : CpSequence → Nat) (i : Nat)
    (s : CpSequence) : List KeyRow :=
  (prefixTokenOrder kvSplitSize blockSize s.prefixTokens).map (KeyRow.history i) ++
    (List.range (upTo s)).map (KeyRow.current i)

variable {i : Nat}

/-- Rows that are a prefix and the tokens before `upTo`, each once, in some order. -/
theorem causalRows_spec {upTo : Nat} {rows : List KeyRow}
    (hperm : rows.Perm ((List.range prefixTokens).map (KeyRow.history i) ++
      (List.range upTo).map (KeyRow.current i))) :
    rows.Nodup ∧ ∀ row : KeyRow, row ∈ rows ↔
      (∃ t < prefixTokens, row = .history i t) ∨ ∃ t < upTo, row = .current i t := by
  refine ⟨hperm.nodup_iff.mpr ?_, fun row => hperm.mem_iff.trans ?_⟩
  · refine nodup_append.mpr ⟨?_, ?_, ?_⟩
    · exact nodup_range.map fun t t' h => (KeyRow.history.inj h).2
    · exact nodup_range.map fun t t' h => (KeyRow.current.inj h).2
    · intro row hrow row' hrow' heq
      obtain ⟨t, -, rfl⟩ := mem_map.mp hrow
      obtain ⟨t', -, rfl⟩ := mem_map.mp hrow'
      cases heq
  · rw [mem_append, mem_map, mem_map]
    constructor
    · rintro (⟨t, ht, rfl⟩ | ⟨t, ht, rfl⟩)
      · exact .inl ⟨t, mem_range.mp ht, rfl⟩
      · exact .inr ⟨t, mem_range.mp ht, rfl⟩
    · rintro (⟨t, ht, rfl⟩ | ⟨t, ht, rfl⟩)
      · exact .inl ⟨t, mem_range.mpr ht, rfl⟩
      · exact .inr ⟨t, mem_range.mpr ht, rfl⟩

/-- The other direction: such rows are as many as the prefix and the tokens before `upTo`. -/
theorem causalRows_length {upTo : Nat} {rows : List KeyRow} (hnodup : rows.Nodup)
    (hrows : ∀ row : KeyRow, row ∈ rows ↔
      (∃ t < prefixTokens, row = .history i t) ∨ ∃ t < upTo, row = .current i t) :
    rows.length = prefixTokens + upTo := by
  obtain ⟨hnodup', hrows'⟩ := @causalRows_spec prefixTokens i upTo _ (List.Perm.refl _)
  have hperm := (perm_ext_iff_of_nodup hnodup hnodup').mpr fun row =>
    (hrows row).trans (hrows' row).symm
  rw [hperm.length_eq, length_append, length_map, length_map, length_range,
    length_range]

variable {s : CpSequence}

theorem keySegment_perm (hkv : 0 < kvSplitSize)
    (hbs : 0 < blockSize) (hdvd : kvSplitSize * blockSize ∣ s.prefixTokens) :
    (keySegment kvSplitSize blockSize upTo i s).Perm
      ((List.range s.prefixTokens).map (KeyRow.history i) ++
        (List.range (upTo s)).map (KeyRow.current i)) :=
  ((prefixTokenOrder_perm hkv hbs hdvd).map _).append_right _

/-- Indices that select the segments, with the lengths of the segments summed up. -/
theorem seesCausalKeys_of_segments {keys : List KeyRow} {indices : List Nat}
    (hkv : 0 < kvSplitSize) (hbs : 0 < blockSize)
    (hdvd : ∀ s ∈ seqs, kvSplitSize * blockSize ∣ s.prefixTokens)
    (hselect : indexSelect keys indices =
      some (seqs.mapIdx (keySegment kvSplitSize blockSize upTo)).flatten) :
    SeesCausalKeys keys indices
      (cumsumFrom 0 (seqs.map fun s => ((s.prefixTokens + upTo s : Nat) : Int))) seqs upTo := by
  refine ⟨_, hselect, length_mapIdx, ?_, ?_⟩
  · congr 1
    apply ext_getElem?
    intro i
    rw [map_mapIdx, List.getElem?_mapIdx, List.getElem?_map]
    cases hs : seqs[i]? with
    | none => rfl
    | some s =>
      have hlength : (keySegment kvSplitSize blockSize upTo i s).length =
          s.prefixTokens + upTo s := by
        rw [(keySegment_perm hkv hbs (hdvd s (mem_of_getElem? hs))).length_eq,
          length_append, length_map, length_map, length_range,
          length_range]
      show some ((keySegment kvSplitSize blockSize upTo i s).length : Int) = some _
      rw [hlength]
  · intro i s segment hs hsegment
    rw [List.getElem?_mapIdx, hs] at hsegment
    cases hsegment
    exact causalRows_spec (keySegment_perm hkv hbs (hdvd s (mem_of_getElem? hs)))

/-! ## The gather indices -/

/-- The keys of the batch hold a sequence's tokens in a row. -/
theorem currentKeys_getElem? {t : Nat} (hs : seqs[i]? = some s)
    (ht : t < localWidth cpSize s * cpSize) :
    (currentKeys cpSize seqs)[offsetOf (fun s => localWidth cpSize s * cpSize) seqs i + t]? =
      some (.current i t) := by
  have hcount : ∀ s : CpSequence,
      cpSize * 2 * chunkLength cpSize s.queryTokens = localWidth cpSize s * cpSize := by
    intro s
    unfold localWidth
    rw [Nat.mul_assoc, Nat.mul_comm]
  have hwidth : ∀ (i : Nat) (s : CpSequence), seqs[i]? = some s →
      ((List.range (cpSize * 2 * chunkLength cpSize s.queryTokens)).map (KeyRow.current i)).length =
        localWidth cpSize s * cpSize := by
    intro i s _
    rw [length_map, length_range, hcount]
  unfold currentKeys
  rw [getElem?_flatten_mapIdx hwidth hs ht, List.getElem?_map, List.getElem?_range (by
    rw [hcount]
    exact ht)]
  rfl

theorem generateKGatherIndex_eq (upTo : CpSequence → Nat) :
    generateKGatherIndex cpSize (seqs.map upTo) (seqs.map (localWidth cpSize)) =
      (seqs.mapIdx fun i s =>
        List.range' (offsetOf (fun s => localWidth cpSize s * cpSize) seqs i) (upTo s)).flatten := by
  unfold generateKGatherIndex
  have hzip : (seqs.map upTo).zip (seqs.map (localWidth cpSize)) =
      seqs.map fun s => (upTo s, localWidth cpSize s) := zip_map'
  rw [hzip, withOffsets_map, withOffsets_eq]
  congr 2
  funext i s
  rw [Nat.zero_add]

theorem mergeContextAndCurrent_eq (history current : List Nat) (prefixTotalLen : Nat)
    (lengths : List (Nat × Nat)) (historyOff currentOff : Nat) :
    mergeContextAndCurrent history current prefixTotalLen historyOff currentOff lengths =
      (lengths.mapIdx fun i p =>
        (history.drop (historyOff + offsetOf Prod.fst lengths i)).take p.1 ++
          ((current.drop (currentOff + offsetOf Prod.snd lengths i)).take p.2).map
            (· + prefixTotalLen)).flatten := by
  induction lengths generalizing historyOff currentOff with
  | nil => rfl
  | cons p lengths ih =>
    obtain ⟨ctxLen, curLen⟩ := p
    show (history.drop historyOff).take ctxLen ++
        ((current.drop currentOff).take curLen).map (· + prefixTotalLen) ++
        mergeContextAndCurrent history current prefixTotalLen (historyOff + ctxLen)
          (currentOff + curLen) lengths = _
    rw [ih, mapIdx_cons, flatten_cons]
    simp only [offsetOf_zero, offsetOf_cons_succ, Nat.add_zero, Nat.add_assoc]

/-- The indices of a sequence's prefix: its rows on each KV-split rank. -/
def prefixIndices (kvSplitSize blockSize : Nat) (seqs : List CpSequence) (i : Nat)
    (s : CpSequence) : List Nat :=
  let widths := cacheLenInRank kvSplitSize blockSize
  (List.range kvSplitSize).flatMap fun j =>
    List.range' (offsetOf (fun s => widths s.prefixTokens) seqs i +
        rankBlockSize kvSplitSize blockSize (seqs.map (·.prefixTokens)) * j)
      (realLenInRank kvSplitSize blockSize s.prefixTokens)

theorem generateContextKGatherIndex_eq :
    generateContextKGatherIndex (seqs.map (·.prefixTokens)) kvSplitSize blockSize =
      (seqs.mapIdx (prefixIndices kvSplitSize blockSize seqs)).flatten := by
  unfold generateContextKGatherIndex
  rw [withOffsets_map, withOffsets_eq]
  congr 2
  funext i s
  unfold prefixIndices
  by_cases hreal : realLenInRank kvSplitSize blockSize s.prefixTokens = 0
  · rw [if_pos hreal, hreal]
    simp
  · have hcache : cacheLenInRank kvSplitSize blockSize s.prefixTokens =
        realLenInRank kvSplitSize blockSize s.prefixTokens := if_neg hreal
    rw [if_neg hreal, hcache, Nat.zero_add]

theorem prefixIndices_length (hkv : 0 < kvSplitSize)
    (hbs : 0 < blockSize) (hdvd : kvSplitSize * blockSize ∣ s.prefixTokens) :
    (prefixIndices kvSplitSize blockSize seqs i s).length = s.prefixTokens := by
  have hreal := realLenInRank_mul hkv hbs hdvd
  unfold prefixIndices
  simp only [length_flatMap, length_range', map_const', sum_replicate_nat,
    length_range]
  rw [Nat.mul_comm]
  exact hreal

/-! ## The prefix slices -/

/-- The rows of a sequence in a prefix slice. -/
def sliceRows (kvSplitSize blockSize j i : Nat) (s : CpSequence) : List KeyRow :=
  if realLenInRank kvSplitSize blockSize s.prefixTokens = 0 then [KeyRow.padding]
  else
    (List.range (realLenInRank kvSplitSize blockSize s.prefixTokens / blockSize)).flatMap
      fun block => (List.range blockSize).map fun offset =>
        .history i (block * (blockSize * kvSplitSize) + j * blockSize + offset)

/-- The rows of a sequence on a KV-split rank. -/
def prefixWidth (kvSplitSize blockSize : Nat) (s : CpSequence) : Nat :=
  cacheLenInRank kvSplitSize blockSize s.prefixTokens

theorem prefixSlice_eq (j : Nat) :
    prefixSlice kvSplitSize blockSize (seqs.map (·.prefixTokens)) j =
      (seqs.mapIdx (sliceRows kvSplitSize blockSize j)).flatten := by
  unfold prefixSlice prefixRankRows
  congr 1
  apply ext_getElem?
  intro i
  rw [List.getElem?_mapIdx, List.getElem?_mapIdx, List.getElem?_map, Option.map_map]
  rfl

theorem sliceRows_length (hbs : 0 < blockSize) (j i : Nat) (s : CpSequence) :
    (sliceRows kvSplitSize blockSize j i s).length = prefixWidth kvSplitSize blockSize s := by
  unfold sliceRows prefixWidth cacheLenInRank
  split
  · rfl
  · simp only [length_flatMap, length_map, length_range, map_const',
      sum_replicate_nat]
    unfold realLenInRank
    rw [Nat.mul_div_cancel _ hbs]

theorem prefixSlice_length (hbs : 0 < blockSize) (j : Nat) :
    (prefixSlice kvSplitSize blockSize (seqs.map (·.prefixTokens)) j).length =
      rankBlockSize kvSplitSize blockSize (seqs.map (·.prefixTokens)) := by
  rw [prefixSlice_eq, length_flatten_mapIdx fun i s _ => sliceRows_length hbs j i s]
  unfold rankBlockSize
  rw [map_map]
  rfl

/-- The prefix slices of the KV-split ranks, one after the other. -/
def prefixKeys (kvSplitSize blockSize : Nat) (seqs : List CpSequence) : List KeyRow :=
  (List.range kvSplitSize).flatMap (prefixSlice kvSplitSize blockSize (seqs.map (·.prefixTokens)))

theorem prefixKeys_length (hbs : 0 < blockSize) :
    (prefixKeys kvSplitSize blockSize seqs).length =
      rankBlockSize kvSplitSize blockSize (seqs.map (·.prefixTokens)) * kvSplitSize := by
  unfold prefixKeys
  simp only [length_flatMap, prefixSlice_length hbs, map_const', sum_replicate_nat,
    length_range]
  exact Nat.mul_comm _ _

theorem prefixKeys_getElem? (hbs : 0 < blockSize) {j k : Nat}
    (hj : j < kvSplitSize) (hs : seqs[i]? = some s) (hk : k < prefixWidth kvSplitSize blockSize s) :
    (prefixKeys kvSplitSize blockSize seqs)[
      j * rankBlockSize kvSplitSize blockSize (seqs.map (·.prefixTokens)) +
        (offsetOf (prefixWidth kvSplitSize blockSize) seqs i + k)]? =
      (sliceRows kvSplitSize blockSize j i s)[k]? := by
  have hsum : rankBlockSize kvSplitSize blockSize (seqs.map (·.prefixTokens)) =
      (seqs.map (prefixWidth kvSplitSize blockSize)).sum := by
    unfold rankBlockSize
    rw [map_map]
    rfl
  have hle := @offsetOf_add_le _ (prefixWidth kvSplitSize blockSize) seqs _ _ hs
  have hslice : ((List.range kvSplitSize).map
      (prefixSlice kvSplitSize blockSize (seqs.map (·.prefixTokens))))[j]? =
      some (prefixSlice kvSplitSize blockSize (seqs.map (·.prefixTokens)) j) := by
    rw [List.getElem?_map, List.getElem?_range hj]
    rfl
  unfold prefixKeys
  rw [flatMap_def, getElem?_flatten_of_length (by omega), hslice, Option.bind_some,
    prefixSlice_eq]
  · exact getElem?_flatten_mapIdx (fun i s _ => sliceRows_length hbs j i s) hs hk
  · intro slice hmem
    obtain ⟨j', -, rfl⟩ := mem_map.mp hmem
    exact prefixSlice_length hbs j'

theorem prefixIndices_select (hkv : 0 < kvSplitSize) (hbs : 0 < blockSize) (hs : seqs[i]? = some s)
    (hdvd : kvSplitSize * blockSize ∣ s.prefixTokens) :
    indexSelect (prefixKeys kvSplitSize blockSize seqs)
        (prefixIndices kvSplitSize blockSize seqs i s) =
      some ((prefixTokenOrder kvSplitSize blockSize s.prefixTokens).map (KeyRow.history i)) := by
  have hblocks := realLenInRank_eq hkv hbs hdvd
  let rows := fun j => (List.range (rankBlocks kvSplitSize blockSize s.prefixTokens)).flatMap
    fun block => (List.range blockSize).map fun offset =>
      KeyRow.history i (block * (blockSize * kvSplitSize) + j * blockSize + offset)
  have horder : (prefixTokenOrder kvSplitSize blockSize s.prefixTokens).map (KeyRow.history i) =
      (List.range kvSplitSize).flatMap rows := by
    unfold prefixTokenOrder
    simp only [map_flatMap, map_map]
    rfl
  rw [horder]
  refine indexSelect_flatMap_range fun j hj => ?_
  have hlength : (rows j).length = realLenInRank kvSplitSize blockSize s.prefixTokens := by
    rw [hblocks]
    simp only [rows, length_flatMap, length_map, length_range, map_const',
      sum_replicate_nat]
  rw [← hlength]
  refine indexSelect_range'_of_getElem? fun k hk => ?_
  have hreal : realLenInRank kvSplitSize blockSize s.prefixTokens ≠ 0 := by omega
  have hwidth : prefixWidth kvSplitSize blockSize s =
      realLenInRank kvSplitSize blockSize s.prefixTokens := if_neg hreal
  have hslice : sliceRows kvSplitSize blockSize j i s = rows j := by
    unfold sliceRows
    rw [if_neg hreal, hblocks, Nat.mul_div_cancel _ hbs]
  have hget := @prefixKeys_getElem? kvSplitSize blockSize seqs i s hbs j k hj hs (by omega)
  rw [hslice] at hget
  rw [← hget]
  congr 1
  rw [Nat.mul_comm j]
  show offsetOf (prefixWidth kvSplitSize blockSize) seqs i + _ + k = _
  omega

end

end Xllm.Parallel
