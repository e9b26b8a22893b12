import Xllm.Lib.Double
import Xllm.Parallel.CpAttention

/-!
# Building a context-parallel plan

`NpuCpPlan::build` of `core/framework/parallel_state/npu_cp_plan.cpp`: its CHECKs, the rows the
sharder and the merger move, the attention metadata and the index tables of expert parallelism.
A batch of empty sequences has no position that `build_attention_tensor_meta` could read
(`buildAttentionTensorMeta_isOk_iff`), so it has no plan.

The host lengths and the device of a plan, which no index depends on, are left out.
-/

namespace Xllm.Parallel

open Xllm.Lib List

/-! ## Expert parallelism -/

structure CpEpMeta where
  attentionTpPaddingIndices : List Nat
  attentionTpUnpaddingIndices : List Nat
  ffnPaddingIndices : List Nat
  ffnUnpaddingIndices : List Nat
  lmHeadSkipPaddingIndices : List Nat
  prenormGatherIndices : List Nat
  attentionPaddingIndices : List Nat
  attentionUnpaddingIndices : List Nat
  dynamicEpIndices : List Nat
  moeIndices : List Nat
  expertArray : List Nat
  deriving Repr, DecidableEq

/-- `get_cp_ep_buffer_factor`, a `float`. -/
def getCpEpBufferFactor (length attentionCpSize : Nat) : ℚ :=
  let length := length * attentionCpSize
  toFloat <|
    if 1048576 ≤ length then 132 / 100
    else if 524288 ≤ length then 14 / 10
    else if 262144 ≤ length then 153 / 100
    else if 131072 ≤ length then 18 / 10
    else if 32768 ≤ length then 3
    else if 8192 ≤ length then 52 / 10
    else 8

def CpPlanConfig.dynamicEp (config : CpPlanConfig) : Bool :=
  config.moeEpSize > 1 ∧ (config.expertParallelDegree = 2 ∨
    (config.expertParallelDegree = 3 ∧ config.isPrefill))

/-- The rows an expert rank may receive: the buffer, up to a multiple of the ranks. -/
def epInputLength (baseLength attentionCpSize moeEpSize : Nat) : Nat :=
  let length := ⌊toFloat (toFloat baseLength * getCpEpBufferFactor baseLength attentionCpSize)⌋.toNat
  if length % moeEpSize ≠ 0 then length + (moeEpSize - length % moeEpSize) else length

def buildCpEpMeta (localPaddedTokenCount : Nat) (config : CpPlanConfig) :
    Except String CpEpMeta := do
  check (0 < config.attentionTpSize) "attention_tp_size"
  check (0 < config.attentionCpSize) "attention_cp_size"
  check (0 < config.attentionCpGroupSize) "attention_cp_group_size"
  check (0 ≤ config.attentionTpRank ∧ config.attentionTpRank < config.attentionTpSize)
    "attention_tp_rank"
  let tpSize := config.attentionTpSize.toNat
  let cpRanks := List.range config.attentionCpGroupSize.toNat
  let inputLength := max localPaddedTokenCount 1
  let paddingLength := (tpSize - inputLength % tpSize) % tpSize
  let paddedGroupLength := inputLength + paddingLength
  let paddedRankLength := paddedGroupLength / tpSize
  let paddingIndices := List.range inputLength ++ replicate paddingLength 0
  let skipPaddingIndices :=
    cpRanks.flatMap fun cpRank => List.range' (cpRank * paddedGroupLength) inputLength
  let unpaddingIndices :=
    if config.dynamicEp then List.range paddedRankLength else skipPaddingIndices
  let shared : CpEpMeta := {
    attentionTpPaddingIndices := paddingIndices
    attentionTpUnpaddingIndices := unpaddingIndices
    ffnPaddingIndices :=
      if config.dynamicEp then unpaddingIndices
      else cpRanks.flatMap fun cpRank =>
        List.range' (inputLength * cpRank) inputLength ++ replicate paddingLength 0
    ffnUnpaddingIndices := List.range inputLength
    lmHeadSkipPaddingIndices := skipPaddingIndices
    prenormGatherIndices := (paddingIndices.drop
      (config.attentionTpRank.toNat * paddedRankLength)).take paddedRankLength
    attentionPaddingIndices := paddingIndices
    attentionUnpaddingIndices := [0]
    dynamicEpIndices := [0]
    moeIndices := [0]
    expertArray := [0] }
  if config.dynamicEp then
    -- `torch::arange` of a negative number of entries
    check (0 ≤ config.numExpertsPerToken) "arange"
    let numExpertsPerToken := config.numExpertsPerToken.toNat
    let epInputLength := epInputLength (unpaddingIndices.length * numExpertsPerToken)
      config.attentionCpSize.toNat config.moeEpSize.toNat
    return { shared with
      dynamicEpIndices := List.range
        ((if tpSize = 1 then inputLength else unpaddingIndices.length) * numExpertsPerToken)
      moeIndices := List.range' 1 epInputLength
      expertArray := replicate epInputLength 1 }
  else return shared

/-- What `build_cp_ep_meta` asks of the configuration. -/
def CpPlanConfig.EpReady (config : CpPlanConfig) : Prop :=
  0 < config.attentionTpSize ∧ 0 < config.attentionCpSize ∧ 0 < config.attentionCpGroupSize ∧
    (0 ≤ config.attentionTpRank ∧ config.attentionTpRank < config.attentionTpSize) ∧
    (config.dynamicEp = true → 0 ≤ config.numExpertsPerToken)

theorem buildCpEpMeta_isOk_iff {localPaddedTokenCount : Nat} {config : CpPlanConfig} :
    (∃ ep, buildCpEpMeta localPaddedTokenCount config = .ok ep) ↔ config.EpReady := by
  unfold buildCpEpMeta CpPlanConfig.EpReady
  simp only [check_bind_eq_ok]
  cases config.dynamicEp with
  | false => simp [pure, Except.pure]
  | true => simp [check_bind_eq_ok, pure, Except.pure]

/-! ## The plan -/

structure NpuCpPlan extends CpRowPlan where
  attentionMeta : CpAttentionMeta
  cpEpMeta : CpEpMeta
  deriving Repr, DecidableEq

/-- The rows of the plan of a rank. -/
def rowPlan (input : CpPlanInput) (cpSize cpRank : Nat) : CpRowPlan :=
  let shard := buildInputShardMeta cpSize cpRank input.qSeqLens input.positionIds
  { enabled := true
    cpSize := cpSize
    cpRank := cpRank
    inputShardMeta := shard
    outputMergeMeta := buildOutputMergeMeta cpSize input.qSeqLens shard.localPaddedTokenCount }

def NpuCpPlan.build (input : CpPlanInput) (config : CpPlanConfig) : Except String NpuCpPlan := do
  check (1 < config.cpSize) "NPU CP plan requires cp_size > 1"
  check (0 ≤ config.cpRank ∧ config.cpRank < config.cpSize) "cp_rank"
  check (0 < config.kvSplitSize) "kv_split_size"
  check (0 ≤ config.kvSplitRank ∧ config.kvSplitRank < config.kvSplitSize) "kv_split_rank"
  check (0 < config.blockSize) "block_size"
  check (input.hasPrefixSlots = true → input.qSeqLens.length = input.prefixTokenCounts.length)
    "prefix_token_counts"
  check (∀ len ∈ input.qSeqLens, 0 ≤ len) "seq_len"
  check (input.positionIds.length = globalTokenCount input.qSeqLens)
    "NPU CP plan must be built from global, unsharded positions"
  let rows := rowPlan input config.cpSize.toNat config.cpRank.toNat
  let attention ← buildAttentionMeta rows.inputShardMeta config.cpSize.toNat input.hasPrefixSlots
    input.prefixTokenCounts input.blockTables config.blockSize.toNat config.kvSplitSize.toNat
  let ep ← buildCpEpMeta rows.inputShardMeta.localPaddedTokenCount config
  return { rows with attentionMeta := attention, cpEpMeta := ep }

/-! ## When it is built -/

theorem mem_chunkEnds_le {cumsums : Nat × Nat} {s : Nat} {lengths : List Nat}
    (h : cumsums ∈ computeInputLengthsCumsumCp s (cumsumFrom s lengths)) :
    cumsums.1 ≤ s + lengths.sum ∧ cumsums.2 ≤ s + lengths.sum := by
  induction lengths generalizing s with
  | nil => exact absurd h not_mem_nil
  | cons length lengths ih =>
    rw [sum_cons]
    rcases mem_cons.mp h with rfl | h
    · dsimp only
      omega
    · have hrest := ih h
      omega

theorem actualSeqLengthsKv_isOk_iff {positionIds : List Int} {ends : List Nat}
    (hends : ∀ e ∈ ends, e ≤ positionIds.length) :
    (∃ totals, actualSeqLengthsKv positionIds ends = .ok totals) ↔
      ends = [] ∨ 0 < positionIds.length := by
  have hselect := @indexSelect_isSome_iff _ positionIds (ends.map (· - 1))
  rw [forall_mem_map] at hselect
  have hfound : (indexSelect positionIds (ends.map (· - 1))).isSome = true ↔
      ends = [] ∨ 0 < positionIds.length := by
    rw [hselect]
    constructor
    · intro h
      cases ends with
      | nil => exact .inl rfl
      | cons e rest => exact .inr (Nat.zero_lt_of_lt (h e mem_cons_self))
    · rintro (rfl | hpos) e he
      · exact absurd he not_mem_nil
      · have hle := hends e he
        omega
  rw [← hfound]
  unfold actualSeqLengthsKv
  cases indexSelect positionIds (ends.map (· - 1)) with
  | none => simp
  | some positions => simp

/-- `build_attention_tensor_meta` returns where there is a position to read. -/
theorem buildAttentionTensorMeta_isOk_iff {cpSize localTokenNum : Nat} {positionIds : List Int}
    {inputLengths : List Nat} {havePrefixSlots : Bool} {kvCacheTokensPerSeq : List Nat}
    {blockSize kvSplitSize : Nat} (hlength : positionIds.length = inputLengths.sum)
    (hsizes : havePrefixSlots = true → inputLengths.length = kvCacheTokensPerSeq.length) :
    (∃ attention, buildAttentionTensorMeta cpSize localTokenNum positionIds inputLengths
        havePrefixSlots kvCacheTokensPerSeq blockSize kvSplitSize = .ok attention) ↔
      cpSize % kvSplitSize = 0 ∧ (inputLengths = [] ∨ 0 < inputLengths.sum) := by
  have hbound (ends : List Nat) (hends : ends =
      (computeInputLengthsCumsumCp 0 (cumsumFrom 0 inputLengths)).map Prod.fst ∨ ends =
      (computeInputLengthsCumsumCp 0 (cumsumFrom 0 inputLengths)).map Prod.snd) :
      ∀ e ∈ ends, e ≤ positionIds.length := by
    intro e he
    rw [hlength]
    rcases hends with rfl | rfl
    · obtain ⟨cumsums, hmem, rfl⟩ := mem_map.mp he
      have hle := mem_chunkEnds_le hmem
      rw [Nat.zero_add] at hle
      exact hle.1
    · obtain ⟨cumsums, hmem, rfl⟩ := mem_map.mp he
      have hle := mem_chunkEnds_le hmem
      rw [Nat.zero_add] at hle
      exact hle.2
  have hprev := actualSeqLengthsKv_isOk_iff (hbound _ (.inl rfl))
  have hnext := actualSeqLengthsKv_isOk_iff (hbound _ (.inr rfl))
  have hempty : computeInputLengthsCumsumCp 0 (cumsumFrom 0 inputLengths) = [] ↔
      inputLengths = [] := by
    cases inputLengths with
    | nil => exact ⟨fun _ => rfl, fun _ => rfl⟩
    | cons length lengths => exact ⟨nofun, nofun⟩
  rw [map_eq_nil_iff, hempty, hlength] at hprev hnext
  unfold buildAttentionTensorMeta
  by_cases hdvd : cpSize % kvSplitSize = 0
  · rw [if_neg (not_not.mpr hdvd)]
    dsimp only
    constructor
    · rintro ⟨attention, h⟩
      obtain ⟨totalsPrev, htotals, -⟩ := bind_eq_ok.mp h
      exact ⟨hdvd, hprev.mp ⟨totalsPrev, htotals⟩⟩
    · rintro ⟨-, htokens⟩
      obtain ⟨totalsPrev, htotalsPrev⟩ := hprev.mpr htokens
      obtain ⟨totalsNext, htotalsNext⟩ := hnext.mpr htokens
      rw [htotalsPrev, htotalsNext, ok_bind, ok_bind,
        if_neg fun h => h.2 (hsizes h.1)]
      exact ⟨_, rfl⟩
  · rw [if_pos hdvd]
    exact ⟨nofun, fun h => absurd h.1 hdvd⟩

/-- The block tables have the blocks that hold the prefix on a rank. -/
def CpPlanInput.TablesFit (input : CpPlanInput) (blockSize kvSplitSize : Nat) : Prop :=
  input.hasPrefixSlots = true → ∀ blockTables, input.blockTables = some blockTables →
    blockTables.length = input.prefixTokenCounts.length ∧
      ∀ p ∈ blockTables.zip input.prefixTokenCounts,
        realLenInRank kvSplitSize blockSize p.2 / blockSize ≤ p.1.length

theorem buildPrefixCacheSlots_isOk_iff {blockTables : List (List Int)}
    {prefixTokenCounts : List Nat} {blockSize kvSplitSize : Nat} :
    (∃ slots, buildPrefixCacheSlots blockTables prefixTokenCounts blockSize kvSplitSize =
        .ok slots) ↔
      blockTables.length = prefixTokenCounts.length ∧
        ∀ p ∈ blockTables.zip prefixTokenCounts,
          realLenInRank kvSplitSize blockSize p.2 / blockSize ≤ p.1.length := by
  unfold buildPrefixCacheSlots
  simp only [check_bind_eq_ok]
  by_cases hnil : blockTables = []
  · subst hnil
    simp [pure, Except.pure]
  · simp [hnil, check_bind_eq_ok, pure, Except.pure]

/-- `build_attention_meta` returns where there is a position to read and the tables fit. -/
theorem buildAttentionMeta_isOk_iff {shardMeta : CpInputShardMeta} {cpSize blockSize : Nat}
    {kvSplitSize : Nat} {input : CpPlanInput}
    (hlength : shardMeta.localPositionIds.length = shardMeta.localPaddedSeqLens.sum)
    (hsizes : input.hasPrefixSlots = true →
      shardMeta.localPaddedSeqLens.length = input.prefixTokenCounts.length) :
    (∃ attention, buildAttentionMeta shardMeta cpSize input.hasPrefixSlots
        input.prefixTokenCounts input.blockTables blockSize kvSplitSize = .ok attention) ↔
      (cpSize % kvSplitSize = 0 ∧
        (shardMeta.localPaddedSeqLens = [] ∨ 0 < shardMeta.localPaddedSeqLens.sum)) ∧
      input.TablesFit blockSize kvSplitSize := by
  have htensors := @buildAttentionTensorMeta_isOk_iff cpSize shardMeta.localPaddedTokenCount _ _ _ _
    blockSize kvSplitSize hlength hsizes
  rw [← htensors]
  unfold buildAttentionMeta CpPlanInput.TablesFit
  cases buildAttentionTensorMeta cpSize shardMeta.localPaddedTokenCount shardMeta.localPositionIds
      shardMeta.localPaddedSeqLens input.hasPrefixSlots input.prefixTokenCounts blockSize
      kvSplitSize with
  | error failure => exact ⟨nofun, nofun⟩
  | ok attention =>
    rw [ok_bind]
    cases input.hasPrefixSlots with
    | false => exact ⟨fun _ => ⟨⟨_, rfl⟩, nofun⟩, fun _ => ⟨_, rfl⟩⟩
    | true =>
      cases input.blockTables with
      | none => exact ⟨fun _ => ⟨⟨_, rfl⟩, fun _ => nofun⟩, fun _ => ⟨_, rfl⟩⟩
      | some blockTables =>
        have hslots := @buildPrefixCacheSlots_isOk_iff blockTables input.prefixTokenCounts
          blockSize kvSplitSize
        constructor
        · rintro ⟨result, h⟩
          obtain ⟨slots, hrun, -⟩ := bind_eq_ok.mp h
          refine ⟨⟨_, rfl⟩, ?_⟩
          rintro - _ ⟨⟩
          exact hslots.mp ⟨slots, hrun⟩
        · rintro ⟨-, hfit⟩
          obtain ⟨slots, hrun⟩ := hslots.mpr (hfit rfl blockTables rfl)
          exact ⟨_, bind_eq_ok.mpr ⟨slots, hrun, rfl⟩⟩

end Xllm.Parallel
