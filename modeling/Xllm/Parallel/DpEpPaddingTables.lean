import Xllm.Parallel.DpEpPadding

/-!
# What the padding tables hold

With counts that fit together, `max_token_size_per_dp_group_` is a multiple of the TP size that no
group exceeds, so all entries of `new_dp_size_` are one width (`newDpSize_eq`),
`build_all_gather_unpadding` numbers the gathered rows as they are (`buildAllGatherUnpadding_eq`),
and `attn_unpadding_idx` and `lm_head_skip_padding_token_indices` are one table
(`buildReduceScatterUnpadding_eq`): the first rows of every block of the common size.
-/

namespace Xllm.Parallel.DpEpPadding

open Xllm.Lib List

/-- The counts of groups that exist, with no more raw tokens than tokens. -/
structure Valid (p : DpEpPadding) : Prop where
  length_eq : p.rawTokenSizePerDpGroup.length = p.tokenSizePerDpGroup.length
  raw_le : ∀ i raw size : Nat, p.rawTokenSizePerDpGroup[i]? = some raw →
    p.tokenSizePerDpGroup[i]? = some size → raw ≤ size
  size_pos : ∀ size ∈ p.tokenSizePerDpGroup, 0 < size
  tpRank_lt : p.mappingNpu.attnTpRank < p.mappingNpu.attnTpSize
  dpRank_lt : p.mappingNpu.attnDpRank < p.tokenSizePerDpGroup.length
  rank_eq : p.rank = p.mappingNpu.attnTpRank + p.mappingNpu.attnDpRank * p.mappingNpu.attnTpSize

variable {p : DpEpPadding}

/-! ## The common size -/

theorem calculateMaxTokenSize_eq : p.calculateMaxTokenSize = p.maxTokenSize +
    if p.maxTokenSize % p.mappingNpu.attnTpSize ≠ 0 then
      p.mappingNpu.attnTpSize - p.maxTokenSize % p.mappingNpu.attnTpSize else 0 := by
  unfold calculateMaxTokenSize
  by_cases h : p.maxTokenSize % p.mappingNpu.attnTpSize ≠ 0
  · rw [if_pos h, if_pos h]
  · rw [if_neg h, if_neg h]
    rfl

theorem maxTokenSize_le : p.maxTokenSize ≤ p.calculateMaxTokenSize := by
  rw [calculateMaxTokenSize_eq]
  exact Nat.le_add_right _ _

theorem tpSize_dvd (htp : 0 < p.mappingNpu.attnTpSize) :
    p.mappingNpu.attnTpSize ∣ p.calculateMaxTokenSize := by
  rw [calculateMaxTokenSize_eq]
  by_cases h : p.maxTokenSize % p.mappingNpu.attnTpSize ≠ 0
  · rw [if_pos h]
    have hlt := Nat.mod_lt p.maxTokenSize htp
    refine ⟨p.maxTokenSize / p.mappingNpu.attnTpSize + 1, ?_⟩
    have hdiv := Nat.div_add_mod p.maxTokenSize p.mappingNpu.attnTpSize
    rw [Nat.mul_add, Nat.mul_one]
    omega
  · rw [if_neg h]
    exact Nat.dvd_of_mod_eq_zero (not_not.mp h)

variable {size : Nat}

theorem size_le_max (hsize : size ∈ p.tokenSizePerDpGroup) :
    size ≤ p.calculateMaxTokenSize :=
  Nat.le_trans (List.le_max?_getD_of_mem hsize) maxTokenSize_le

variable {i raw : Nat}

theorem Valid.raw_le_max (h : p.Valid)
    (hraw : p.rawTokenSizePerDpGroup[i]? = some raw) : raw ≤ p.calculateMaxTokenSize := by
  have hi : i < p.tokenSizePerDpGroup.length := by
    rw [← h.length_eq]
    exact (List.getElem?_eq_some_iff.mp hraw).1
  have hle := h.raw_le i raw _ hraw (List.getElem?_eq_getElem hi)
  exact Nat.le_trans hle (size_le_max (getElem_mem hi))

theorem Valid.tp_pos (h : p.Valid) : 0 < p.mappingNpu.attnTpSize :=
  Nat.lt_of_le_of_lt (Nat.zero_le _) h.tpRank_lt

theorem Valid.width_mul (h : p.Valid) :
    p.mappingNpu.attnTpSize * (p.calculateMaxTokenSize / p.mappingNpu.attnTpSize) =
      p.calculateMaxTokenSize :=
  Nat.mul_div_cancel' (tpSize_dvd h.tp_pos)

theorem Valid.max_pos (h : p.Valid) : 0 < p.calculateMaxTokenSize := by
  have hmem := getElem_mem h.dpRank_lt
  exact Nat.lt_of_lt_of_le (h.size_pos _ hmem) (size_le_max hmem)

/-! ## Gathering and the raw rows -/

theorem newDpSize_eq : p.newDpSize =
    List.replicate (p.tokenSizePerDpGroup.length * p.mappingNpu.attnTpSize)
      (p.calculateMaxTokenSize / p.mappingNpu.attnTpSize) := by
  have hgroup : ∀ size ∈ p.tokenSizePerDpGroup, size + (p.maxTokenSize - size +
      if p.maxTokenSize % p.mappingNpu.attnTpSize ≠ 0 then
        p.mappingNpu.attnTpSize - p.maxTokenSize % p.mappingNpu.attnTpSize else 0) =
      p.calculateMaxTokenSize := by
    intro size hsize
    have hle : size ≤ p.maxTokenSize := List.le_max?_getD_of_mem hsize
    rw [calculateMaxTokenSize_eq]
    omega
  unfold newDpSize
  dsimp only
  generalize p.tokenSizePerDpGroup = sizes at hgroup ⊢
  induction sizes with
  | nil => rw [length_nil, Nat.zero_mul]; rfl
  | cons size sizes ih =>
    rw [flatMap_cons, hgroup size mem_cons_self,
      ih fun s hs => hgroup s (mem_cons_of_mem _ hs), length_cons, Nat.succ_mul,
      Nat.add_comm (sizes.length * _), replicate_add]

theorem Valid.rank_lt (h : p.Valid) :
    p.rank < p.tokenSizePerDpGroup.length * p.mappingNpu.attnTpSize := by
  rw [h.rank_eq]
  have hle : (p.mappingNpu.attnDpRank + 1) * p.mappingNpu.attnTpSize ≤
      p.tokenSizePerDpGroup.length * p.mappingNpu.attnTpSize :=
    Nat.mul_le_mul_right _ h.dpRank_lt
  rw [Nat.succ_mul] at hle
  have hlt := h.tpRank_lt
  omega

theorem getD_newDpSize (h : p.Valid) : p.newDpSize.getD p.rank 0 =
    p.calculateMaxTokenSize / p.mappingNpu.attnTpSize := by
  rw [newDpSize_eq, List.getD_eq_getElem?_getD, List.getElem?_replicate, if_pos h.rank_lt]
  rfl

theorem buildAllGatherUnpadding_eq (h : p.Valid) : p.buildAllGatherUnpadding =
    List.range (p.tokenSizePerDpGroup.length * p.calculateMaxTokenSize) := by
  have hpos : 0 < p.tokenSizePerDpGroup.length * p.mappingNpu.attnTpSize :=
    Nat.lt_of_le_of_lt (Nat.zero_le _) h.rank_lt
  have hmax : p.newDpSize.max?.getD 0 = p.calculateMaxTokenSize / p.mappingNpu.attnTpSize := by
    rw [newDpSize_eq, List.max?_replicate_of_pos hpos]
    rfl
  unfold buildAllGatherUnpadding
  rw [hmax, getD_newDpSize h]
  dsimp only
  rw [Nat.sub_self, Nat.add_zero, newDpSize_eq]
  have hmapIdx : ∀ (n width : Nat), ((List.replicate n width).mapIdx fun i size =>
      (List.range size).map (· + i * width)) =
      (List.replicate n width).mapIdx fun i _ => (List.range width).map (· + i * width) := by
    intro n width
    apply mapIdx_eq_mapIdx_iff.mpr
    intro i hi
    rw [getElem_replicate]
  rw [hmapIdx, flatten_mapIdx_range, length_replicate, Nat.mul_assoc, h.width_mul]

theorem buildReduceScatterUnpadding_eq (h : p.Valid) :
    p.buildReduceScatterUnpadding = p.buildLmHeadIndices := by
  unfold buildReduceScatterUnpadding buildLmHeadIndices
  congr 1
  apply mapIdx_eq_mapIdx_iff.mpr
  intro i hi
  have hle : i * p.mappingNpu.attnTpSize ≤
      p.tokenSizePerDpGroup.length * p.mappingNpu.attnTpSize := by
    rw [← h.length_eq]
    exact Nat.mul_le_mul_right _ (Nat.le_of_lt hi)
  have hoffset : (p.newDpSize.take (i * p.mappingNpu.attnTpSize)).sum =
      i * p.calculateMaxTokenSize := by
    rw [newDpSize_eq, take_replicate, sum_replicate_nat, Nat.min_eq_left hle,
      Nat.mul_assoc, h.width_mul]
  rw [hoffset]

variable {index : Nat}

theorem lt_of_mem_buildLmHeadIndices (h : p.Valid) (hindex : index ∈ p.buildLmHeadIndices) :
    index < p.tokenSizePerDpGroup.length * p.calculateMaxTokenSize := by
  obtain ⟨block, hblock, hmem⟩ := mem_flatten.mp hindex
  obtain ⟨i, hi, heq⟩ := mem_mapIdx.mp hblock
  subst heq
  obtain ⟨k, hk, heq⟩ := mem_map.mp hmem
  have hraw := h.raw_le_max (List.getElem?_eq_getElem hi)
  have hk := mem_range.mp hk
  have hle : (i + 1) * p.calculateMaxTokenSize ≤
      p.tokenSizePerDpGroup.length * p.calculateMaxTokenSize := by
    rw [← h.length_eq]
    exact Nat.mul_le_mul_right _ hi
  rw [Nat.succ_mul] at hle
  omega

theorem indexSelect_allGather (h : p.Valid) :
    indexSelect p.buildAllGatherUnpadding p.buildReduceScatterUnpadding =
      some p.buildLmHeadIndices := by
  rw [buildAllGatherUnpadding_eq h, buildReduceScatterUnpadding_eq h]
  have hselect := indexSelect_eq_map (f := id) fun index hindex =>
    List.getElem?_range (lt_of_mem_buildLmHeadIndices h hindex)
  rw [hselect, map_id]

/-! ## Padding the batch -/

theorem getElem?_cumsumFrom {start : Nat} {sizes : List Nat} (hi : i < sizes.length) :
    (cumsumFrom start sizes)[i]? = some (start + offsetOf id sizes (i + 1)) := by
  induction sizes generalizing start i with
  | nil => cases hi
  | cons size sizes ih =>
    rw [cumsumFrom, offsetOf_cons_succ]
    cases i with
    | zero => rfl
    | succ i =>
      rw [List.getElem?_cons_succ, ih (Nat.lt_of_succ_lt_succ hi), Nat.add_assoc]
      rfl

theorem length_cumsumFrom (start : Nat) (sizes : List Nat) :
    (cumsumFrom start sizes).length = sizes.length := by
  induction sizes generalizing start with
  | nil => rfl
  | cons size sizes ih => rw [cumsumFrom, length_cons, ih, length_cons]

/-- Groups begin at the sums of the raw counts before them: the last sum is not read. -/
theorem start_eq (hi : i < p.rawTokenSizePerDpGroup.length) :
    (if 0 < i then p.prepareCumulativeSum.getD (i - 1) 0 else 0) =
      offsetOf id p.rawTokenSizePerDpGroup i := by
  cases i with
  | zero => rw [if_neg (Nat.lt_irrefl 0), offsetOf_zero]
  | succ i =>
    have hlast : (cumsumFrom 0 p.rawTokenSizePerDpGroup).length - 1 ≠ i := by
      rw [length_cumsumFrom]
      omega
    rw [if_pos (Nat.succ_pos i), Nat.add_sub_cancel, List.getD_eq_getElem?_getD]
    unfold prepareCumulativeSum
    rw [List.getElem?_set_ne hlast, getElem?_cumsumFrom (Nat.lt_of_succ_lt hi), Nat.zero_add]
    rfl

/-- `ffn_padding_idx` before the expert-parallel branch replaces it: the raw rows of each group,
and the first row up to the common size. -/
theorem buildFfnPaddingIdx_eq (h : p.Valid) : p.buildFfnPaddingIdx =
    .ok (p.rawTokenSizePerDpGroup.mapIdx fun i raw =>
      List.range' (offsetOf id p.rawTokenSizePerDpGroup i) raw ++
        List.replicate (p.calculateMaxTokenSize - raw) 0).flatten := by
  unfold buildFfnPaddingIdx
  rw [check_bind_eq_ok]
  constructor
  · intro raw hraw
    obtain ⟨i, hi⟩ := mem_iff_getElem?.mp hraw
    exact h.raw_le_max hi
  · refine congrArg (fun blocks => Except.ok (List.flatten blocks)) ?_
    apply mapIdx_eq_mapIdx_iff.mpr
    intro i hi
    rw [start_eq hi]
    dsimp only
    rw [map_add_range]

theorem length_ffnBlock (h : p.Valid) (hraw : p.rawTokenSizePerDpGroup[i]? = some raw) :
    (List.range' (offsetOf id p.rawTokenSizePerDpGroup i) raw ++
      List.replicate (p.calculateMaxTokenSize - raw) 0).length = p.calculateMaxTokenSize := by
  rw [length_append, length_range', length_replicate]
  exact Nat.add_sub_cancel' (h.raw_le_max hraw)

variable {ffnPaddingIdx : List Nat}

theorem indexSelect_ffnPadding (h : p.Valid) (hffn : p.buildFfnPaddingIdx = .ok ffnPaddingIdx) :
    indexSelect ffnPaddingIdx p.buildLmHeadIndices =
      some (List.range p.rawTokenSizePerDpGroup.sum) := by
  rw [buildFfnPaddingIdx_eq h] at hffn
  cases hffn
  have hblocks : indexSelect (p.rawTokenSizePerDpGroup.mapIdx fun i raw =>
        List.range' (offsetOf id p.rawTokenSizePerDpGroup i) raw ++
          List.replicate (p.calculateMaxTokenSize - raw) 0).flatten p.buildLmHeadIndices = _ :=
    indexSelect_blocks (fun i raw hraw => length_ffnBlock h hraw)
      fun i raw hraw => h.raw_le_max hraw
  have htake : ∀ i raw : Nat, (List.range' (offsetOf id p.rawTokenSizePerDpGroup i) raw ++
      List.replicate (p.calculateMaxTokenSize - raw) 0).take raw =
        List.range' (offsetOf id p.rawTokenSizePerDpGroup i) raw := by
    intro i raw
    exact take_left' length_range'
  have hloop : withOffsets id (fun raw offset => List.range' offset (id raw)) 0
      p.rawTokenSizePerDpGroup = List.range' 0 (p.rawTokenSizePerDpGroup.map id).sum :=
    withOffsets_range' 0
  rw [withOffsets_eq, map_id, ← range_eq_range'] at hloop
  rw [hblocks, ← hloop]
  simp only [htake, Nat.zero_add, id_eq]

theorem lt_of_mem_ffnPadding (h : p.Valid)
    (hffn : p.buildFfnPaddingIdx = .ok ffnPaddingIdx) (hsum : 0 < p.rawTokenSizePerDpGroup.sum)
    (hindex : index ∈ ffnPaddingIdx) : index < p.rawTokenSizePerDpGroup.sum := by
  rw [buildFfnPaddingIdx_eq h] at hffn
  cases hffn
  obtain ⟨block, hblock, hmem⟩ := mem_flatten.mp hindex
  obtain ⟨i, hi, heq⟩ := mem_mapIdx.mp hblock
  subst heq
  cases mem_append.mp hmem with
  | inl hvalid =>
    have hle : offsetOf id p.rawTokenSizePerDpGroup i + p.rawTokenSizePerDpGroup[i] ≤
        (p.rawTokenSizePerDpGroup.map id).sum := offsetOf_add_le (List.getElem?_eq_getElem hi)
    rw [map_id] at hle
    exact Nat.lt_of_lt_of_le (List.mem_range'_1.mp hvalid).2 hle
  | inr hpadding =>
    rw [eq_of_mem_replicate hpadding]
    exact hsum

/-! ## The groups' own rows -/

/-- `attn_padding_idx` of a group. -/
def attnPadding (p : DpEpPadding) (size : Nat) : List Nat :=
  List.range size ++ List.replicate (p.calculateMaxTokenSize - size) 0

theorem length_attnPadding (hsize : size ∈ p.tokenSizePerDpGroup) :
    (p.attnPadding size).length = p.calculateMaxTokenSize := by
  unfold attnPadding
  rw [length_append, length_range, length_replicate]
  exact Nat.add_sub_cancel' (size_le_max hsize)

theorem lt_of_mem_attnPadding (hpos : 0 < size)
    (hindex : index ∈ p.attnPadding size) : index < size := by
  cases mem_append.mp hindex with
  | inl hvalid => exact mem_range.mp hvalid
  | inr hpadding =>
    rw [eq_of_mem_replicate hpadding]
    exact hpos

theorem prepareGatherIndices_eq (h : p.Valid) {attnPaddingIdx : List Nat} :
    p.prepareGatherIndices attnPaddingIdx =
      (attnPaddingIdx.drop (p.mappingNpu.attnTpRank *
        (p.calculateMaxTokenSize / p.mappingNpu.attnTpSize))).take
          (p.calculateMaxTokenSize / p.mappingNpu.attnTpSize) := by
  have hwidth : 0 < p.calculateMaxTokenSize / p.mappingNpu.attnTpSize :=
    Nat.div_pos (Nat.le_of_dvd h.max_pos (tpSize_dvd h.tp_pos)) h.tp_pos
  have hend : (p.mappingNpu.attnTpRank + 1) *
      (p.calculateMaxTokenSize / p.mappingNpu.attnTpSize) ≤ p.calculateMaxTokenSize := by
    conv => rhs; rw [← h.width_mul]
    exact Nat.mul_le_mul_right _ h.tpRank_lt
  rw [Nat.succ_mul] at hend
  unfold prepareGatherIndices
  dsimp only
  rw [Nat.min_eq_left hend, if_pos (by omega), drop_take, Nat.add_sub_cancel_left]

end Xllm.Parallel.DpEpPadding
