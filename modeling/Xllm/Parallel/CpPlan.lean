import Mathlib
import Xllm.Lib.Rows

/-!
# `NpuCpPlan` — the context-parallel plan of one worker

`core/framework/parallel_state/npu_cp_plan.cpp`. A prefill batch is a list of query lengths
laid out one after the other (*global-real* rows). Every sequence is padded to a multiple of
`2 * cp_size`, cut into `2 * cp_size` equal chunks, and rank `r` takes chunks `r` and
`2 * cp_size - 1 - r` (the zig-zag that balances causal attention). Two functions compute that
layout independently:

* `buildInputShardMeta` enumerates the two chunks of one rank and records which global row goes
  to which local row;
* `buildOutputMergeMeta` walks the tokens of a sequence and divides by the chunk length to find
  the rank and the row each one ended up in.

What of the plan the two compute, with the operations that use it, is `CpRowPlan`.

Rows of a hidden matrix are values of an arbitrary type; `zero` is the row `torch::zeros` writes.
Row counts, offsets and positions are `int32_t`/`int64_t` in the source and are far below their
bounds in any batch that fits in memory; they are unbounded here.
-/

namespace Xllm.Parallel

open Xllm.Lib

universe u

/-- Global-real inputs from which one worker derives its plan. A row of `blockTables` is as long as
the second size of the tensor, which may be undefined. -/
structure CpPlanInput where
  qSeqLens : List Int
  positionIds : List Int
  prefixTokenCounts : List Nat := []
  blockTables : Option (List (List Int)) := none
  hasPrefixSlots : Bool := false
  deriving Repr, DecidableEq

structure CpPlanConfig where
  cpSize : Int := 1
  cpRank : Int := 0
  kvSplitSize : Int := 1
  kvSplitRank : Int := 0
  blockSize : Int := 0
  attentionTpSize : Int := 1
  attentionTpRank : Int := 0
  attentionCpSize : Int := 1
  attentionCpGroupSize : Int := 1
  moeEpSize : Int := 1
  expertParallelDegree : Int := 1
  numExpertsPerToken : Int := 1
  isPrefill : Bool := true
  deriving Repr, DecidableEq

/-- Pre-model mapping from global-real rows to this rank's local-padded rows. -/
structure CpInputShardMeta where
  globalRealTokenCount : Nat
  localRealTokenCount : Nat
  localPaddedTokenCount : Nat
  localRealSeqLens : List Nat
  localPaddedSeqLens : List Nat
  inputSourceIndices : List Nat
  inputDestinationIndices : List Nat
  localPositionIds : List Int
  deriving Repr, DecidableEq

/-- Post-model mapping from rank-major gathered rows back to global-real order. -/
structure CpOutputMergeMeta where
  globalPaddedTokenCount : Nat
  outputRestoreIndices : List Nat
  deriving Repr, DecidableEq

/-- What of a plan moves hidden rows. -/
structure CpRowPlan where
  enabled : Bool
  cpSize : Nat
  cpRank : Nat
  inputShardMeta : CpInputShardMeta
  outputMergeMeta : CpOutputMergeMeta
  deriving Repr, DecidableEq

/-! ## The sharder -/

/-- `p_i`: the query length aligned up to `2 * cp_size`. -/
def paddedLength (cpSize q : Nat) : Nat :=
  ((q + cpSize * 2 - 1) / (cpSize * 2)) * (cpSize * 2)

/-- `chunk_i = p_i / num_chunks`. -/
def chunkLength (cpSize q : Nat) : Nat := paddedLength cpSize q / (cpSize * 2)

/-- The accumulators of `build_input_shard_meta`'s loop over sequences. -/
structure ShardLoop where
  globalRealTokenCount : Nat := 0
  localPaddedTokenCount : Nat := 0
  localRealTokenCount : Nat := 0
  sourceVec : List Nat := []
  destVec : List Nat := []
  virtualPosVec : List Int := []
  localQSeqLens : List Nat := []
  localPaddedSeqLens : List Nat := []
  localRealLen : Nat := 0
  seqTokenOffset : Nat := 0
  localOffset : Nat := 0

/-- One row `j` of chunk `c`: the position is recorded for every row, the row mapping only for
rows that hold a real token. `rowBase` is the chunk's first row within the sequence. -/
def shardRow (q chunk c rowBase : Nat) (posStart : Int) (s : ShardLoop) (j : Nat) : ShardLoop :=
  let intra := c * chunk + j
  let s := { s with virtualPosVec := s.virtualPosVec ++ [posStart + (c * chunk + j : Nat)] }
  if intra < q then
    { s with
      sourceVec := s.sourceVec ++ [s.seqTokenOffset + intra]
      destVec := s.destVec ++ [s.localOffset + (rowBase + j)]
      localRealTokenCount := s.localRealTokenCount + 1
      localRealLen := s.localRealLen + 1 }
  else s

def shardChunk (q chunk c rowBase : Nat) (posStart : Int) (s : ShardLoop) : ShardLoop :=
  (List.range chunk).foldl (shardRow q chunk c rowBase posStart) s

/-- The position of a sequence's first token: read from the global positions, or the token
offset itself past their end. -/
def seqPosStart (globalPositions : List Int) (seqTokenOffset : Nat) : Int :=
  (globalPositions[seqTokenOffset]?).getD seqTokenOffset

/-- One sequence: chunk `cp_rank`, then chunk `2 * cp_size - 1 - cp_rank`. -/
def shardSequence (cpSize cpRank : Nat) (globalPositions : List Int) (s : ShardLoop) (len : Int) :
    ShardLoop :=
  let q := len.toNat
  let chunk := chunkLength cpSize q
  let posStart := seqPosStart globalPositions s.seqTokenOffset
  let s := { s with localRealLen := 0 }
  let s := shardChunk q chunk cpRank 0 posStart s
  let s := shardChunk q chunk (cpSize * 2 - 1 - cpRank) chunk posStart s
  { s with
    localQSeqLens := s.localQSeqLens ++ [s.localRealLen]
    localPaddedSeqLens := s.localPaddedSeqLens ++ [2 * chunk]
    globalRealTokenCount := s.globalRealTokenCount + q
    localPaddedTokenCount := s.localPaddedTokenCount + 2 * chunk
    seqTokenOffset := s.seqTokenOffset + q
    localOffset := s.localOffset + 2 * chunk }

def shardLoop (cpSize cpRank : Nat) (globalPositions : List Int) (lens : List Int) : ShardLoop :=
  lens.foldl (shardSequence cpSize cpRank globalPositions) {}

def buildInputShardMeta (cpSize cpRank : Nat) (globalQSeqLens : List Int)
    (globalPositions : List Int) : CpInputShardMeta :=
  let s := shardLoop cpSize cpRank globalPositions globalQSeqLens
  { globalRealTokenCount := s.globalRealTokenCount
    localRealTokenCount := s.localRealTokenCount
    localPaddedTokenCount := s.localPaddedTokenCount
    localRealSeqLens := s.localQSeqLens
    localPaddedSeqLens := s.localPaddedSeqLens
    inputSourceIndices := s.sourceVec
    inputDestinationIndices := s.destVec
    localPositionIds := s.virtualPosVec }

/-! ## The merger -/

/-- `(r_owner, row_in_seq)` of token `t`: chunk `t / chunk` is on rank `c`, or in the second half
of rank `2 * cp_size - 1 - c`. -/
def ownerRow (cpSize chunk t : Nat) : Nat × Nat :=
  let c := t / chunk
  let k := t % chunk
  if c < cpSize then (c, k) else (cpSize * 2 - 1 - c, chunk + k)

/-- The accumulators of `build_output_merge_meta`. -/
structure MergeLoop where
  restoreVec : List Nat := []
  globalPaddedTokenCount : Nat := 0
  gatherSeqOffset : Nat := 0

def mergeSequence (cpSize localPaddedTokenCount : Nat) (m : MergeLoop) (len : Int) : MergeLoop :=
  let q := len.toNat
  let chunk := chunkLength cpSize q
  { restoreVec := m.restoreVec ++ (List.range q).map (fun t =>
      (ownerRow cpSize chunk t).1 * localPaddedTokenCount + m.gatherSeqOffset +
        (ownerRow cpSize chunk t).2)
    globalPaddedTokenCount := m.globalPaddedTokenCount + paddedLength cpSize q
    gatherSeqOffset := m.gatherSeqOffset + 2 * chunk }

def mergeLoop (cpSize localPaddedTokenCount : Nat) (lens : List Int) : MergeLoop :=
  lens.foldl (mergeSequence cpSize localPaddedTokenCount) {}

def buildOutputMergeMeta (cpSize : Nat) (globalQSeqLens : List Int)
    (localPaddedTokenCount : Nat) : CpOutputMergeMeta :=
  let m := mergeLoop cpSize localPaddedTokenCount globalQSeqLens
  { globalPaddedTokenCount := m.globalPaddedTokenCount
    outputRestoreIndices := m.restoreVec }

/-! ## The two operations that use the plan -/

/-- `Σ max(0, len)`: the number of global-real rows. -/
def globalTokenCount (lens : List Int) : Nat := (lens.map Int.toNat).sum

/-- `shard_model_input`: this rank's padded rows and their positions; `none` when a CHECK or an
index fails. -/
def CpRowPlan.shardModelInput {α : Type u} (plan : CpRowPlan) (zero : α) (hiddenStates : List α)
    (positionIds : List Int) : Option (List α × List Int) :=
  if ¬ plan.enabled then some (hiddenStates, positionIds)
  else if plan.inputShardMeta.globalRealTokenCount = 0 then
    if plan.inputShardMeta.localPaddedTokenCount = 0 then
      some ([], plan.inputShardMeta.localPositionIds)
    else none
  else if hiddenStates.length ≠ plan.inputShardMeta.globalRealTokenCount then none
  else if positionIds.length ≠ plan.inputShardMeta.globalRealTokenCount then none
  else do
    let localSource ← indexSelect hiddenStates plan.inputShardMeta.inputSourceIndices
    let localHidden ← indexPut
      (List.replicate plan.inputShardMeta.localPaddedTokenCount zero)
      plan.inputShardMeta.inputDestinationIndices localSource
    return (localHidden, plan.inputShardMeta.localPositionIds)

/-- `merge_model_output` on one rank: `gathered` is what `parallel_state::gather` returns for the
ranks' `localHiddenStates`. -/
def CpRowPlan.mergeModelOutput {α : Type u} (plan : CpRowPlan) (localHiddenStates : List α)
    (gathered : List α) : Option (List α) :=
  if ¬ plan.enabled then some localHiddenStates
  else if localHiddenStates.length ≠ plan.inputShardMeta.localPaddedTokenCount then none
  else indexSelect gathered plan.outputMergeMeta.outputRestoreIndices

end Xllm.Parallel
