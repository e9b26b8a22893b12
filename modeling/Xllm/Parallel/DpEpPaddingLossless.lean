import Xllm.Parallel.DpEpPaddingTables

/-!
# Padding and freeing of padding lose no token

The tables of all ranks, put together (`tables_lossless`): padding the batch and selecting the
rows of the head gives the batch; the slices of a group's ranks are the group's padded rows; and
what the ranks gather holds, at `attn_unpadding_idx`, the raw rows of one group after the other.

In the expert-parallel branch each rank keeps its own shard, and `ffn_padding_idx` is the identity
on it. A batch without any raw token has no row that padding could repeat.
-/

namespace Xllm.Parallel

open Xllm.Lib DpEpPadding List

/-- What the tables of the ranks do, `data t d` being those of TP rank `t` of DP group `d`. -/
structure LosslessTables (sizes raw : List Nat) (tpSize : Nat) (expertParallel : Prop)
    (data : Nat → Nat → DpEpPaddingData) : Prop where
  /-- The batch, padded and freed of the padding. -/
  head_of_padded : ¬ expertParallel → ∀ t < tpSize, ∀ d < sizes.length,
    indexSelect (data t d).ffnPaddingIdx (data t d).lmHeadSkipPaddingTokenIndices =
      some (List.range raw.sum)
  head_rows : ¬ expertParallel → 0 < raw.sum → ∀ t < tpSize, ∀ d < sizes.length,
    ∀ {α : Type} (xs : List α), xs.length = raw.sum →
      ∃ ys, indexSelect xs (data t d).ffnPaddingIdx = some ys ∧
        indexSelect ys (data t d).lmHeadSkipPaddingTokenIndices = some xs
  /-- The shards of all ranks, gathered and freed of the padding. -/
  gathered_rows : ¬ expertParallel → ∀ {α : Type} (inputs : List (List α))
    (shard : Nat → Nat → List α), inputs.map List.length = sizes →
    (∀ t < tpSize, ∀ d < sizes.length,
      indexSelect (inputs.getD d []) (data t d).gatherPrenormIdx = some (shard t d)) →
    ∀ t < tpSize, ∀ d < sizes.length,
      indexSelect ((List.range sizes.length).flatMap fun d =>
          (List.range tpSize).flatMap fun t => shard t d) (data t d).attnUnpaddingIdx =
        some ((inputs.zip raw).flatMap fun group => group.1.take group.2)
  slices : ∀ t < tpSize, ∀ d < sizes.length,
    ((List.range tpSize).flatMap fun t => (data t d).gatherPrenormIdx) = (data t d).attnPaddingIdx
  /-- Every index is a row of what it is applied to. -/
  attnPadding_lt : ∀ t < tpSize, ∀ d < sizes.length, ∀ index ∈ (data t d).attnPaddingIdx,
    index < sizes.getD d 0
  gatherPrenorm_lt : ∀ t < tpSize, ∀ d < sizes.length, ∀ index ∈ (data t d).gatherPrenormIdx,
    index < sizes.getD d 0
  ffnPadding_lt : ¬ expertParallel → 0 < raw.sum → ∀ t < tpSize, ∀ d < sizes.length,
    ∀ index ∈ (data t d).ffnPaddingIdx, index < raw.sum
  lmHead_lt : ∀ t < tpSize, ∀ d < sizes.length,
    ∀ index ∈ (data t d).lmHeadSkipPaddingTokenIndices,
      index < sizes.length * (data t d).attnPaddingIdx.length
  attnUnpadding_lt : ¬ expertParallel → ∀ t < tpSize, ∀ d < sizes.length,
    ∀ index ∈ (data t d).attnUnpaddingIdx, index < sizes.length * (data t d).attnPaddingIdx.length
  ffnUnpadding_lt : ∀ t < tpSize, ∀ d < sizes.length, ∀ index ∈ (data t d).ffnUnpaddingIdx,
    index < (data t d).attnPaddingIdx.length
  paddingIdx_eq : ∀ t < tpSize, ∀ d < sizes.length,
    (data t d).paddingIdx = (data t (sizes.length - 1)).attnPaddingIdx
  /-- The expert-parallel branch: the rank's own shard as it is. -/
  ownShard : expertParallel → ∀ t < tpSize, ∀ d < sizes.length,
    (data t d).attnUnpaddingIdx = List.range (data t d).gatherPrenormIdx.length ∧
      (data t d).ffnPaddingIdx = List.range (data t d).gatherPrenormIdx.length

namespace DpEpPadding

/-- The token counts that a step is run with. -/
def atLeastOne (padded : List Nat) : List Nat := padded.map fun size => if size = 0 then 1 else size

/-- The padding of a rank, as the constructor makes it. -/
def ofRank (padded raw : List Nat) (tpSize : Nat) (moeEpSize : Option Nat) (degree : Nat)
    (isPrefill : Bool) (t d : Nat) : DpEpPadding :=
  { tokenSizePerDpGroup := atLeastOne padded
    rawTokenSizePerDpGroup := raw
    mappingNpu := ⟨t, d, tpSize, padded.length, moeEpSize⟩
    rank := t + d * tpSize
    expertParallelDegree := if 1 < moeEpSize.getD 0 then degree else 0
    isPrefill }

/-- The flags that lead to the expert-parallel branch. -/
def ExpertParallelBranch (moeEpSize : Option Nat) (degree : Nat) (isPrefill : Bool) : Prop :=
  1 < moeEpSize.getD 0 ∧ (degree = 2 ∨ degree = 3 ∧ isPrefill = true)

theorem isExpertParallel_ofRank {padded raw : List Nat} {tpSize degree : Nat}
    {moeEpSize : Option Nat} {isPrefill : Bool} (t d : Nat) :
    (ofRank padded raw tpSize moeEpSize degree isPrefill t d).IsExpertParallel ↔
      ExpertParallelBranch moeEpSize degree isPrefill := by
  unfold IsExpertParallel ofRank ExpertParallelBranch
  by_cases hmoe : 1 < moeEpSize.getD 0
  · simp [hmoe]
  · simp [hmoe]

def tablesOf (p : DpEpPadding) : DpEpPaddingData :=
  let attnPaddingIdx := p.attnPadding (p.tokenSizePerDpGroup.getD p.mappingNpu.attnDpRank 0)
  let ownShard := List.range (p.calculateMaxTokenSize / p.mappingNpu.attnTpSize)
  { attnPaddingIdx
    attnUnpaddingIdx := if p.IsExpertParallel then ownShard else p.buildLmHeadIndices
    ffnPaddingIdx := if p.IsExpertParallel then ownShard else
      (p.rawTokenSizePerDpGroup.mapIdx fun i raw =>
        List.range' (offsetOf id p.rawTokenSizePerDpGroup i) raw ++
          List.replicate (p.calculateMaxTokenSize - raw) 0).flatten
    ffnUnpaddingIdx := p.buildFfnUnpaddingIdx
    lmHeadSkipPaddingTokenIndices := p.buildLmHeadIndices
    gatherPrenormIdx := p.prepareGatherIndices attnPaddingIdx
    paddingIdx := p.attnPadding (p.tokenSizePerDpGroup.getD (p.mappingNpu.attnDpSize - 1) 0)
    unPaddingIdx := [0] }

variable {p : DpEpPadding}

theorem getD_buildDpPaddingIndices {d : Nat} (hd : d < p.tokenSizePerDpGroup.length) :
    p.buildDpPaddingIndices.getD d [] = p.attnPadding (p.tokenSizePerDpGroup.getD d 0) := by
  unfold buildDpPaddingIndices attnPadding
  rw [List.getD_eq_getElem?_getD, List.getElem?_map, List.getD_eq_getElem?_getD,
    List.getElem?_eq_getElem hd]
  rfl

theorem prepareIndices_eq (h : p.Valid)
    (hdpSize : p.mappingNpu.attnDpSize = p.tokenSizePerDpGroup.length) :
    p.prepareIndices = .ok p.tablesOf := by
  have hgroups : p.buildDpPaddingIndices.length = p.tokenSizePerDpGroup.length :=
    length_map _
  have hlast : p.mappingNpu.attnDpSize - 1 < p.tokenSizePerDpGroup.length := by
    have hd := h.dpRank_lt
    omega
  unfold prepareIndices
  rw [buildFfnPaddingIdx_eq h, ok_bind, check_bind_eq_ok]
  refine ⟨by have hd := h.dpRank_lt; omega, ?_⟩
  rw [getD_buildDpPaddingIndices h.dpRank_lt, getD_buildDpPaddingIndices hlast, getD_newDpSize h,
    indexSelect_allGather h]
  unfold tablesOf
  by_cases hep : p.IsExpertParallel
  · simp only [if_pos hep]
    rfl
  · simp only [if_neg hep]
    rfl

/-! ## One rank -/

section Rank

variable {padded raw : List Nat} {tpSize degree : Nat} {moeEpSize : Option Nat} {isPrefill : Bool}

variable {t d : Nat}

theorem valid_ofRank (hlength : raw.length = padded.length)
    (hle : ∀ i r size : Nat, raw[i]? = some r → (atLeastOne padded)[i]? = some size → r ≤ size)
    (ht : t < tpSize) (hd : d < padded.length) :
    (ofRank padded raw tpSize moeEpSize degree isPrefill t d).Valid where
  length_eq := hlength.trans (length_map _).symm
  raw_le := hle
  size_pos := by
    intro size hsize
    obtain ⟨size', _, heq⟩ := mem_map.mp hsize
    rw [← heq]
    by_cases hzero : size' = 0
    · rw [if_pos hzero]
      exact Nat.one_pos
    · rw [if_neg hzero]
      exact Nat.pos_of_ne_zero hzero
  tpRank_lt := ht
  dpRank_lt := by
    unfold ofRank atLeastOne
    rw [length_map]
    exact hd
  rank_eq := rfl

theorem build_eq (hlength : raw.length = padded.length)
    (hle : ∀ i r size : Nat, raw[i]? = some r → (atLeastOne padded)[i]? = some size → r ≤ size)
    (ht : t < tpSize) (hd : d < padded.length) :
    build padded (some raw) ⟨t, d, tpSize, padded.length, moeEpSize⟩ degree isPrefill =
      .ok (ofRank padded raw tpSize moeEpSize degree isPrefill t d).tablesOf := by
  have hcreate : create padded (some raw) ⟨t, d, tpSize, padded.length, moeEpSize⟩ degree
      isPrefill = .ok (ofRank padded raw tpSize moeEpSize degree isPrefill t d) := by
    unfold create
    rw [check_bind_eq_ok, check_bind_eq_ok, check_bind_eq_ok]
    exact ⟨hlength, ht, hd, rfl⟩
  unfold build
  rw [hcreate, ok_bind]
  exact prepareIndices_eq (valid_ofRank hlength hle ht hd) (length_map _).symm

end Rank

section Tables

variable (h : p.Valid)
include h

theorem tablesOf_size_mem :
    p.tokenSizePerDpGroup.getD p.mappingNpu.attnDpRank 0 ∈ p.tokenSizePerDpGroup := by
  rw [List.getD_eq_getElem?_getD, List.getElem?_eq_getElem h.dpRank_lt]
  exact getElem_mem h.dpRank_lt

theorem length_tablesOf_attnPadding :
    p.tablesOf.attnPaddingIdx.length = p.calculateMaxTokenSize :=
  length_attnPadding (tablesOf_size_mem h)

theorem length_tablesOf_gatherPrenorm : p.tablesOf.gatherPrenormIdx.length =
    p.calculateMaxTokenSize / p.mappingNpu.attnTpSize := by
  have hend : (p.mappingNpu.attnTpRank + 1) *
      (p.calculateMaxTokenSize / p.mappingNpu.attnTpSize) ≤ p.calculateMaxTokenSize := by
    conv => rhs; rw [← h.width_mul]
    exact Nat.mul_le_mul_right _ h.tpRank_lt
  rw [Nat.succ_mul] at hend
  have hgather : p.prepareGatherIndices p.tablesOf.attnPaddingIdx = _ := prepareGatherIndices_eq h
  show (p.prepareGatherIndices p.tablesOf.attnPaddingIdx).length = _
  rw [hgather, length_take, length_drop, length_tablesOf_attnPadding h]
  omega

variable {index : Nat}

theorem mem_attnPadding_of_gatherPrenorm (hindex : index ∈ p.tablesOf.gatherPrenormIdx) :
    index ∈ p.tablesOf.attnPaddingIdx := by
  have hgather : p.prepareGatherIndices p.tablesOf.attnPaddingIdx = _ := prepareGatherIndices_eq h
  have hindex : index ∈ p.prepareGatherIndices p.tablesOf.attnPaddingIdx := hindex
  rw [hgather] at hindex
  exact mem_of_mem_drop (mem_of_mem_take hindex)

theorem tablesOf_attnPadding_lt (hindex : index ∈ p.tablesOf.attnPaddingIdx) :
    index < p.tokenSizePerDpGroup.getD p.mappingNpu.attnDpRank 0 :=
  lt_of_mem_attnPadding (h.size_pos _ (tablesOf_size_mem h)) hindex

theorem tablesOf_head (hep : ¬ p.IsExpertParallel) :
    indexSelect p.tablesOf.ffnPaddingIdx p.tablesOf.lmHeadSkipPaddingTokenIndices =
      some (List.range p.rawTokenSizePerDpGroup.sum) := by
  unfold tablesOf
  simp only [if_neg hep]
  exact indexSelect_ffnPadding h (buildFfnPaddingIdx_eq h)

theorem tablesOf_ffnPadding_lt (hep : ¬ p.IsExpertParallel) (hsum : 0 < p.rawTokenSizePerDpGroup.sum)
    (hindex : index ∈ p.tablesOf.ffnPaddingIdx) :
    index < p.rawTokenSizePerDpGroup.sum := by
  unfold tablesOf at hindex
  simp only [if_neg hep] at hindex
  exact lt_of_mem_ffnPadding h (buildFfnPaddingIdx_eq h) hsum hindex

theorem tablesOf_head_rows (hep : ¬ p.IsExpertParallel) (hsum : 0 < p.rawTokenSizePerDpGroup.sum)
    {α : Type} {xs : List α} (hxs : xs.length = p.rawTokenSizePerDpGroup.sum) :
    ∃ ys, indexSelect xs p.tablesOf.ffnPaddingIdx = some ys ∧
      indexSelect ys p.tablesOf.lmHeadSkipPaddingTokenIndices = some xs := by
  have hsome : (indexSelect xs p.tablesOf.ffnPaddingIdx).isSome := by
    rw [indexSelect_isSome_iff]
    intro index hindex
    rw [hxs]
    exact tablesOf_ffnPadding_lt h hep hsum hindex
  obtain ⟨ys, hys⟩ := Option.isSome_iff_exists.mp hsome
  refine ⟨ys, hys, ?_⟩
  rw [indexSelect_comp hys (tablesOf_head h hep), ← hxs]
  exact indexSelect_range xs

theorem tablesOf_ffnUnpadding_lt (hindex : index ∈ p.tablesOf.ffnUnpaddingIdx) :
    index < p.tablesOf.attnPaddingIdx.length := by
  have hmem := tablesOf_size_mem h
  have hpos := h.size_pos _ hmem
  have hlt := mem_range.mp hindex
  rw [if_neg (Nat.ne_of_gt hpos)] at hlt
  rw [length_tablesOf_attnPadding h]
  exact Nat.lt_of_lt_of_le hlt (size_le_max hmem)

theorem tablesOf_ownShard (hep : p.IsExpertParallel) :
    p.tablesOf.attnUnpaddingIdx = List.range p.tablesOf.gatherPrenormIdx.length ∧
      p.tablesOf.ffnPaddingIdx = List.range p.tablesOf.gatherPrenormIdx.length := by
  rw [length_tablesOf_gatherPrenorm h]
  exact ⟨if_pos hep, if_pos hep⟩

end Tables

/-! ## All ranks -/

section Ranks

variable {padded raw : List Nat} {tpSize degree : Nat} {moeEpSize : Option Nat} {isPrefill : Bool}

variable {t d : Nat}

theorem flatMap_gatherPrenorm (hlength : raw.length = padded.length)
    (hle : ∀ i r size : Nat, raw[i]? = some r → (atLeastOne padded)[i]? = some size → r ≤ size)
    (ht : t < tpSize) (hd : d < padded.length) :
    ((List.range tpSize).flatMap fun t =>
        (ofRank padded raw tpSize moeEpSize degree isPrefill t d).tablesOf.gatherPrenormIdx) =
      (ofRank padded raw tpSize moeEpSize degree isPrefill t d).tablesOf.attnPaddingIdx := by
  have hvalid : (ofRank padded raw tpSize moeEpSize degree isPrefill t d).Valid :=
    valid_ofRank hlength hle ht hd
  have hattn := length_tablesOf_attnPadding hvalid
  have hmul := hvalid.width_mul
  have hslices : ∀ t' ∈ List.range tpSize,
      (ofRank padded raw tpSize moeEpSize degree isPrefill t' d).tablesOf.gatherPrenormIdx =
        ((ofRank padded raw tpSize moeEpSize degree isPrefill t d).tablesOf.attnPaddingIdx.drop
          (t' * ((ofRank padded raw tpSize moeEpSize degree isPrefill t d).calculateMaxTokenSize /
            tpSize))).take
          ((ofRank padded raw tpSize moeEpSize degree isPrefill t d).calculateMaxTokenSize /
            tpSize) := by
    intro t' ht'
    exact prepareGatherIndices_eq (valid_ofRank hlength hle (mem_range.mp ht') hd)
  rw [flatMap_congr hslices, flatMap_slices]
  apply take_of_length_le
  rw [hattn]
  exact Nat.le_of_eq hmul.symm

variable {α : Type}

theorem flatMap_range_eq {β : Type} (f : Nat → List α) (bs : List β) :
    (List.range bs.length).flatMap f = (bs.mapIdx fun i _ => f i).flatten := by
  rw [flatMap_def]
  congr 1
  apply ext_getElem
  · simp
  · intro i hi hi'
    simp

theorem mapIdx_take_eq (inputs : List (List α)) (raw : List Nat)
    (hlength : inputs.length = raw.length) :
    (raw.mapIdx fun i r => (inputs.getD i []).take r).flatten =
      (inputs.zip raw).flatMap fun group => group.1.take group.2 := by
  congr 1
  apply ext_getElem
  · simp [hlength]
  · intro i hi hi'
    rw [length_mapIdx] at hi
    rw [getElem_mapIdx, getElem_map, getElem_zip, List.getD_eq_getElem?_getD,
      List.getElem?_eq_getElem (by omega)]
    rfl

theorem indexSelect_attnPadding {p : DpEpPadding} {input block : List α}
    (hblock : indexSelect input (p.attnPadding input.length) = some block) (hpos : 0 < input.length) :
    ∃ padding, block = input ++ padding := by
  have hzeros : (indexSelect input
      (List.replicate (p.calculateMaxTokenSize - input.length) 0)).isSome := by
    rw [indexSelect_isSome_iff]
    intro index hindex
    rw [eq_of_mem_replicate hindex]
    exact hpos
  obtain ⟨padding, hpadding⟩ := Option.isSome_iff_exists.mp hzeros
  have happend := indexSelect_append (indexSelect_range input) hpadding
  unfold attnPadding at hblock
  rw [hblock] at happend
  exact ⟨padding, Option.some.inj happend⟩

/-- What the ranks gather has the raw rows of each group at `attn_unpadding_idx`. -/
theorem gathered_rows_ofRank (hlength : raw.length = padded.length)
    (hle : ∀ i r size : Nat, raw[i]? = some r → (atLeastOne padded)[i]? = some size → r ≤ size)
    {inputs : List (List α)} {shard : Nat → Nat → List α}
    (hinputs : inputs.map List.length = atLeastOne padded)
    (hshard : ∀ t < tpSize, ∀ d < padded.length, indexSelect (inputs.getD d [])
      (ofRank padded raw tpSize moeEpSize degree isPrefill t d).tablesOf.gatherPrenormIdx =
        some (shard t d)) (ht : t < tpSize) (hd : d < padded.length) :
    indexSelect ((List.range padded.length).flatMap fun d =>
        (List.range tpSize).flatMap fun t => shard t d)
      (ofRank padded raw tpSize moeEpSize degree isPrefill t d).buildLmHeadIndices =
        some ((inputs.zip raw).flatMap fun group => group.1.take group.2) := by
  have hcount : inputs.length = padded.length := by
    have h := congrArg List.length hinputs
    unfold atLeastOne at h
    rw [length_map, length_map] at h
    exact h
  have hvalid : ∀ d < padded.length,
      (ofRank padded raw tpSize moeEpSize degree isPrefill t d).Valid := fun d hd =>
    valid_ofRank hlength hle ht hd
  have hsize : ∀ d < padded.length, (atLeastOne padded).getD d 0 = (inputs.getD d []).length := by
    intro d hd
    rw [← hinputs, List.getD_eq_getElem?_getD, List.getElem?_map, List.getD_eq_getElem?_getD,
      List.getElem?_eq_getElem (by omega)]
    rfl
  -- Each group's shards are its rows, and padding behind them.
  have hblock : ∀ d < padded.length, ∃ padding,
      ((List.range tpSize).flatMap fun t => shard t d) = inputs.getD d [] ++ padding ∧
        ((List.range tpSize).flatMap fun t => shard t d).length =
          (ofRank padded raw tpSize moeEpSize degree isPrefill t d).calculateMaxTokenSize := by
    intro d hd
    have hselect := indexSelect_flatMap_range fun t ht => hshard t ht d hd
    rw [flatMap_gatherPrenorm hlength hle ht hd] at hselect
    have hattn : (ofRank padded raw tpSize moeEpSize degree isPrefill t d).tablesOf.attnPaddingIdx =
        (ofRank padded raw tpSize moeEpSize degree isPrefill t d).attnPadding
          (inputs.getD d []).length :=
      congrArg (ofRank padded raw tpSize moeEpSize degree isPrefill t d).attnPadding (hsize d hd)
    have hpos : 0 < (inputs.getD d []).length := by
      rw [← hsize d hd]
      exact (hvalid d hd).size_pos _ (tablesOf_size_mem (hvalid d hd))
    have hrows := (getElem?_of_indexSelect hselect).1
    rw [length_tablesOf_attnPadding (hvalid d hd)] at hrows
    rw [hattn] at hselect
    obtain ⟨padding, hpadding⟩ := indexSelect_attnPadding hselect hpos
    exact ⟨padding, hpadding, hrows.symm⟩
  have hraw : ∀ d r : Nat, raw[d]? = some r → d < padded.length := by
    intro d r hr
    rw [← hlength]
    exact (List.getElem?_eq_some_iff.mp hr).1
  have hselect : indexSelect (raw.mapIdx fun d _ =>
      (List.range tpSize).flatMap fun t => shard t d).flatten
        (ofRank padded raw tpSize moeEpSize degree isPrefill t d).buildLmHeadIndices = _ :=
    indexSelect_blocks (fun d r hr => (hblock d (hraw d r hr)).choose_spec.2)
      fun _ _ hr => (hvalid d hd).raw_le_max hr
  have htake : (raw.mapIdx fun d r => ((List.range tpSize).flatMap fun t => shard t d).take r) =
      raw.mapIdx fun d r => (inputs.getD d []).take r := by
    apply mapIdx_eq_mapIdx_iff.mpr
    intro d hd
    have hd' := hraw d _ (List.getElem?_eq_getElem hd)
    obtain ⟨padding, hpadding, _⟩ := hblock d hd'
    have hsome : (atLeastOne padded)[d]? = some (inputs.getD d []).length := by
      rw [← hinputs, List.getElem?_map, List.getD_eq_getElem?_getD,
        List.getElem?_eq_getElem (by omega)]
      rfl
    rw [hpadding, take_append_of_le_length (hle d _ _ (List.getElem?_eq_getElem hd) hsome)]
  rw [← hlength, flatMap_range_eq, hselect, htake, mapIdx_take_eq inputs raw (by omega)]

end Ranks

/-- Padding loses and mixes no token. -/
theorem tables_lossless (padded raw : List Nat) (tpSize : Nat) (moeEpSize : Option Nat)
    (degree : Nat) (isPrefill : Bool) (hlength : raw.length = padded.length)
    (hle : ∀ i r size : Nat, raw[i]? = some r → (atLeastOne padded)[i]? = some size → r ≤ size) :
    ∃ data : Nat → Nat → DpEpPaddingData,
      (∀ t < tpSize, ∀ d < padded.length,
        build padded (some raw) ⟨t, d, tpSize, padded.length, moeEpSize⟩ degree isPrefill =
          .ok (data t d)) ∧
      LosslessTables (atLeastOne padded) raw tpSize
        (ExpertParallelBranch moeEpSize degree isPrefill) data := by
  have hn : (atLeastOne padded).length = padded.length := length_map _
  have hvalid : ∀ t < tpSize, ∀ d < (atLeastOne padded).length,
      (ofRank padded raw tpSize moeEpSize degree isPrefill t d).Valid := by
    intro t ht d hd
    rw [hn] at hd
    exact valid_ofRank hlength hle ht hd
  have hbranch : ∀ t d, (ofRank padded raw tpSize moeEpSize degree isPrefill t d).IsExpertParallel ↔
      ExpertParallelBranch moeEpSize degree isPrefill := isExpertParallel_ofRank
  refine ⟨fun t d => (ofRank padded raw tpSize moeEpSize degree isPrefill t d).tablesOf,
    fun t ht d hd => build_eq hlength hle ht hd, ?_⟩
  constructor
  case head_of_padded =>
    intro hep t ht d hd
    exact tablesOf_head (hvalid t ht d hd) (fun h => hep ((hbranch t d).mp h))
  case head_rows =>
    intro hep hsum t ht d hd α xs hxs
    exact tablesOf_head_rows (hvalid t ht d hd) (fun h => hep ((hbranch t d).mp h)) hsum hxs
  case gathered_rows =>
    intro hep α inputs shard hinputs hshard t ht d hd
    have hunpadding :
        (ofRank padded raw tpSize moeEpSize degree isPrefill t d).tablesOf.attnUnpaddingIdx =
        (ofRank padded raw tpSize moeEpSize degree isPrefill t d).buildLmHeadIndices :=
      if_neg fun h => hep ((hbranch t d).mp h)
    rw [hn] at hshard hd ⊢
    rw [hunpadding]
    exact gathered_rows_ofRank hlength hle hinputs hshard ht hd
  case slices =>
    intro t ht d hd
    rw [hn] at hd
    exact flatMap_gatherPrenorm hlength hle ht hd
  case attnPadding_lt =>
    intro t ht d hd index hindex
    exact tablesOf_attnPadding_lt (hvalid t ht d hd) hindex
  case gatherPrenorm_lt =>
    intro t ht d hd index hindex
    exact tablesOf_attnPadding_lt (hvalid t ht d hd)
      (mem_attnPadding_of_gatherPrenorm (hvalid t ht d hd) hindex)
  case ffnPadding_lt =>
    intro hep hsum t ht d hd index hindex
    exact tablesOf_ffnPadding_lt (hvalid t ht d hd) (fun h => hep ((hbranch t d).mp h)) hsum hindex
  case lmHead_lt =>
    intro t ht d hd index hindex
    rw [length_tablesOf_attnPadding (hvalid t ht d hd)]
    exact lt_of_mem_buildLmHeadIndices (hvalid t ht d hd) hindex
  case attnUnpadding_lt =>
    intro hep t ht d hd index hindex
    rw [length_tablesOf_attnPadding (hvalid t ht d hd)]
    have hunpadding :
        (ofRank padded raw tpSize moeEpSize degree isPrefill t d).tablesOf.attnUnpaddingIdx =
        (ofRank padded raw tpSize moeEpSize degree isPrefill t d).buildLmHeadIndices :=
      if_neg fun h => hep ((hbranch t d).mp h)
    rw [hunpadding] at hindex
    exact lt_of_mem_buildLmHeadIndices (hvalid t ht d hd) hindex
  case ffnUnpadding_lt =>
    intro t ht d hd index hindex
    exact tablesOf_ffnUnpadding_lt (hvalid t ht d hd) hindex
  case paddingIdx_eq =>
    intro t ht d hd
    rw [hn]
    rfl
  case ownShard =>
    intro hep t ht d hd
    exact tablesOf_ownShard (hvalid t ht d hd) ((hbranch t d).mpr hep)

/-- Two groups with three and no tokens, two ranks each. -/
theorem tables_lossless_two_groups :
    ∃ data : Nat → Nat → DpEpPaddingData,
      (∀ t < 2, ∀ d < 2, build [3, 0] (some [2, 0]) ⟨t, d, 2, 2, none⟩ 0 false = .ok (data t d)) ∧
      LosslessTables [3, 1] [2, 0] 2 (ExpertParallelBranch none 0 false) data :=
  tables_lossless [3, 0] [2, 0] 2 none 0 false rfl (by
    intro i r size hr hsize
    match i with
    | 0 =>
      cases hr
      cases hsize
      decide
    | 1 =>
      cases hr
      cases hsize
      decide
    | i + 2 => cases hr)

/-- In the expert-parallel branch the rows of the head are not those of `ffn_padding_idx`, which
is the identity on a shard; and without a raw token `ffn_padding_idx` names a row that the batch
does not have. -/
theorem tables_lossless_limits :
    (∃ data, build [1, 1] (some [1, 1]) ⟨0, 0, 1, 2, some 2⟩ 2 false = .ok data ∧
      indexSelect data.ffnPaddingIdx data.lmHeadSkipPaddingTokenIndices ≠ some [0, 1]) ∧
    ∃ data, build [0] (some [0]) ⟨0, 0, 1, 1, none⟩ 0 false = .ok data ∧
      0 ∈ data.ffnPaddingIdx ∧ indexSelect ([] : List Nat) data.ffnPaddingIdx = none := by
  constructor
  · refine ⟨⟨[0], [0], [0], [0], [0, 1], [0], [0], [0]⟩, by decide +kernel, by decide⟩
  · refine ⟨⟨[0], [], [0], [0], [], [0], [0], [0]⟩, by decide +kernel, by decide, by decide⟩

end DpEpPadding

end Xllm.Parallel
