import Xllm.Lib.Outcome
import Xllm.Lib.Segments
import Xllm.Parallel.CpPlan

/-!
# The attention metadata of a context-parallel plan

`build_attention_meta` of `core/framework/parallel_state/npu_cp_plan.cpp`: which keys the two chunks
of a rank attend to. The keys of a layer are the prefix, gathered from the ranks that split the
KV cache, and behind it the keys of the batch, gathered from the context-parallel ranks and put in
order by `kv_reorder_indices`.

A loop over the sequences carries the offset of the next one, so the loops are written with
`withOffsets`. Where prev and next lengths are treated alike, one definition serves both.
-/

namespace Xllm.Parallel

open Xllm.Lib

structure CpAttentionMeta where
  queryBalanceIndices : List Nat
  attentionOutputReorderIndices : List Nat
  kvReorderIndices : List Nat
  prevKvGatherIndices : List Nat
  nextKvGatherIndices : List Nat
  prevQueryCuSeqLens : List Nat
  nextQueryCuSeqLens : List Nat
  prevKeyCuSeqLens : List Int
  nextKeyCuSeqLens : List Int
  prefixCacheSlots : Option (List Int) := none
  deriving Repr, DecidableEq

/-- `torch::cumsum`, from a sum on. -/
def cumsumFrom {α : Type} [Add α] : α → List α → List α
  | _, [] => []
  | s, x :: xs => (s + x) :: cumsumFrom (s + x) xs

def generateQueryBalanceIndices (inputLengths : List Nat) : List Nat :=
  withOffsets id (fun length base => List.range' base (length / 2)) 0 inputLengths ++
    withOffsets id (fun length base => List.range' (base + length / 2) (length - length / 2)) 0
      inputLengths

def generateAttentionOutputReorderIndices (chunkLengths : List Nat) : List Nat :=
  let chunkLengthsSum := chunkLengths.sum
  withOffsets id (fun chunkLen base =>
    List.range' base chunkLen ++ (List.range' base chunkLen).map (· + chunkLengthsSum)) 0
    chunkLengths

/-- `gather_idx_per_chunk`: each rank writes its first chunk and its last one. -/
def gatherIdxPerChunk (cpSize inputIdsSize reqChunkLen reqOffset : Nat) : List (List Nat) :=
  (List.range cpSize).foldl (fun gather cpRankId => let rankOffset := cpRankId * inputIdsSize
      (gather.set cpRankId (List.range' (rankOffset + reqOffset) reqChunkLen)).set
        (cpSize * 2 - 1 - cpRankId) (List.range' (rankOffset + reqOffset + reqChunkLen) reqChunkLen))
    (List.replicate (cpSize * 2) [])

def generateKvReorderIndices (cpSize inputIdsSize : Nat) (chunkLengths : List Nat) : List Nat :=
  withOffsets (· * 2) (fun reqChunkLen reqOffset =>
    (gatherIdxPerChunk cpSize inputIdsSize reqChunkLen reqOffset).flatten) 0 chunkLengths

/-- The ends of the first half of each sequence and of the sequence. -/
def computeInputLengthsCumsumCp : Nat → List Nat → List (Nat × Nat)
  | _, [] => []
  | offset, cumsum :: rest =>
    (offset + (cumsum - offset) / 2, cumsum) :: computeInputLengthsCumsumCp cumsum rest

/-- `generate_k_gather_index` and `generate_current_k_gather_index`, for one of the two chunks: of
each sequence's keys, as many as its length says. -/
def generateKGatherIndex (cpSize : Nat) (lengthsKv inputLengths : List Nat) : List Nat :=
  withOffsets (fun s => s.2 * cpSize) (fun s kOffset => List.range' kOffset s.1) 0
    (lengthsKv.zip inputLengths)

/-! ## The prefix -/

/-- `real_len_in_rank` of `PrefixRankGeometry`. -/
def realLenInRank (kvSplitSize blockSize kvCacheTokens : Nat) : Nat :=
  kvCacheTokens / kvSplitSize / blockSize * blockSize

/-- `cache_len_in_rank`: an empty prefix has a padding row. -/
def cacheLenInRank (kvSplitSize blockSize kvCacheTokens : Nat) : Nat :=
  if realLenInRank kvSplitSize blockSize kvCacheTokens = 0 then 1
  else realLenInRank kvSplitSize blockSize kvCacheTokens

def rankBlockSize (kvSplitSize blockSize : Nat) (kvCacheTokensPerSeq : List Nat) : Nat :=
  (kvCacheTokensPerSeq.map (cacheLenInRank kvSplitSize blockSize)).sum

/-- The rows of the prefix on a rank, sequence by sequence and block by block. -/
def prefixRankRows {α : Type} (kvSplitSize blockSize : Nat) (padding : α) (row : Nat → Nat → Nat → α)
    (kvCacheTokensPerSeq : List Nat) : List α :=
  (kvCacheTokensPerSeq.mapIdx fun sequence kvCacheTokens =>
    if realLenInRank kvSplitSize blockSize kvCacheTokens = 0 then [padding]
    else
      (List.range (realLenInRank kvSplitSize blockSize kvCacheTokens / blockSize)).flatMap
        fun block => (List.range blockSize).map (row sequence block)).flatten

def buildPrefixCacheSlots (blockTables : List (List Int)) (prefixTokenCounts : List Nat)
    (blockSize kvSplitSize : Nat) : Except String (List Int) := do
  check (blockTables.length = prefixTokenCounts.length)
    "block_tables rows must match prefix_token_counts size"
  if blockTables = [] then return [0]
  else
    check (∀ p ∈ blockTables.zip prefixTokenCounts,
      realLenInRank kvSplitSize blockSize p.2 / blockSize ≤ p.1.length) "prefix_block_count"
    return prefixRankRows kvSplitSize blockSize 0 (fun sequence block offset =>
      (blockTables.getD sequence []).getD block 0 * blockSize + offset) prefixTokenCounts

def generateContextKGatherIndex (kvCacheTokensPerSeq : List Nat) (kvSplitSize blockSize : Nat) :
    List Nat :=
  withOffsets (cacheLenInRank kvSplitSize blockSize) (fun kvCacheTokens offsetInRank =>
      if realLenInRank kvSplitSize blockSize kvCacheTokens = 0 then []
      else
        (List.range kvSplitSize).flatMap fun j =>
          List.range' (offsetInRank + rankBlockSize kvSplitSize blockSize kvCacheTokensPerSeq * j)
            (cacheLenInRank kvSplitSize blockSize kvCacheTokens)) 0
    kvCacheTokensPerSeq

/-- `merge_context_and_current_k_gather_index` for one of the two chunks, with the offsets of the
history and of the current keys. -/
def mergeContextAndCurrent (history current : List Nat) (prefixTotalLen : Nat) :
    Nat → Nat → List (Nat × Nat) → List Nat
  | _, _, [] => []
  | historyOff, currentOff, (ctxLen, curLen) :: rest =>
    (history.drop historyOff).take ctxLen ++
      ((current.drop currentOff).take curLen).map (· + prefixTotalLen) ++
      mergeContextAndCurrent history current prefixTotalLen (historyOff + ctxLen)
        (currentOff + curLen) rest

/-- The lengths of the current keys: `max(0, total - prefix)`. -/
def currentLengths (kvSplitSize blockSize : Nat) (totals : List Int)
    (kvCacheTokensPerSeq : List Nat) : List Nat :=
  List.zipWith (fun (total : Int) kvCacheTokens =>
    (total - (realLenInRank kvSplitSize blockSize kvCacheTokens * kvSplitSize : Nat)).toNat)
    totals kvCacheTokensPerSeq

/-- The gather indices of one of the two chunks. -/
def kvGatherIndices (cpSize kvSplitSize blockSize : Nat) (havePrefixSlots : Bool)
    (totals : List Int) (inputLengths kvCacheTokensPerSeq : List Nat) : List Nat :=
  if havePrefixSlots then
    let current := currentLengths kvSplitSize blockSize totals kvCacheTokensPerSeq
    mergeContextAndCurrent
      (generateContextKGatherIndex kvCacheTokensPerSeq kvSplitSize blockSize)
      (generateKGatherIndex cpSize current inputLengths)
      (rankBlockSize kvSplitSize blockSize kvCacheTokensPerSeq * kvSplitSize) 0 0
      ((kvCacheTokensPerSeq.map fun kvCacheTokens =>
        realLenInRank kvSplitSize blockSize kvCacheTokens * kvSplitSize).zip current)
  else generateKGatherIndex cpSize (totals.map Int.toNat) inputLengths

/-! ## The metadata -/

/-- One key past each gathered position: the number of keys up to it. -/
def actualSeqLengthsKv (positionIds : List Int) (cumsumCp : List Nat) :
    Except String (List Int) :=
  match indexSelect positionIds (cumsumCp.map (· - 1)) with
  | none => .error "index_select"
  | some positions => .ok (positions.map (· + 1))

def buildAttentionTensorMeta (cpSize localTokenNum : Nat) (positionIds : List Int)
    (inputLengths : List Nat) (havePrefixSlots : Bool) (kvCacheTokensPerSeq : List Nat)
    (blockSize kvSplitSize : Nat) : Except String CpAttentionMeta :=
  if cpSize % kvSplitSize ≠ 0 then .error "cp_size must be divisible by kv_split_size"
  else do
    let chunkLengths := inputLengths.map (· / 2)
    let inputLengthsCumsum := cumsumFrom 0 inputLengths
    let cumsumCp := computeInputLengthsCumsumCp 0 inputLengthsCumsum
    let totalsPrev ← actualSeqLengthsKv positionIds (cumsumCp.map Prod.fst)
    let totalsNext ← actualSeqLengthsKv positionIds (cumsumCp.map Prod.snd)
    if havePrefixSlots ∧ inputLengths.length ≠ kvCacheTokensPerSeq.length then
      .error "input_lengths must equal kv_cache_tokens_per_seq size"
    else
      .ok
        { queryBalanceIndices := generateQueryBalanceIndices inputLengths
          attentionOutputReorderIndices := generateAttentionOutputReorderIndices chunkLengths
          kvReorderIndices := generateKvReorderIndices cpSize localTokenNum chunkLengths
          prevKvGatherIndices := kvGatherIndices cpSize kvSplitSize blockSize havePrefixSlots
            totalsPrev inputLengths kvCacheTokensPerSeq
          nextKvGatherIndices := kvGatherIndices cpSize kvSplitSize blockSize havePrefixSlots
            totalsNext inputLengths kvCacheTokensPerSeq
          prevQueryCuSeqLens := inputLengthsCumsum.map (· / 2)
          nextQueryCuSeqLens := inputLengthsCumsum.map (· / 2)
          prevKeyCuSeqLens := cumsumFrom 0 totalsPrev
          nextKeyCuSeqLens := cumsumFrom 0 totalsNext }

def buildAttentionMeta (shardMeta : CpInputShardMeta) (cpSize : Nat) (havePrefixSlots : Bool)
    (kvCacheTokensPerSeq : List Nat) (blockTables : Option (List (List Int)))
    (blockSize kvSplitSize : Nat) : Except String CpAttentionMeta := do
  let attention ← buildAttentionTensorMeta cpSize shardMeta.localPaddedTokenCount
    shardMeta.localPositionIds shardMeta.localPaddedSeqLens havePrefixSlots kvCacheTokensPerSeq
    blockSize kvSplitSize
  match havePrefixSlots, blockTables with
  | true, some blockTables =>
    let slots ← buildPrefixCacheSlots blockTables kvCacheTokensPerSeq blockSize kvSplitSize
    return { attention with prefixCacheSlots := some slots }
  | _, _ => return attention

end Xllm.Parallel
