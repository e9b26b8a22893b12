import Xllm.Lib.Outcome
import Xllm.Parallel.CpAttention

/-!
# Index tables of data- and expert-parallel padding

`DpEpPadding` of `core/framework/parallel_state/npu_dp_ep_padding.cpp`. Each rank knows the token
counts of all DP groups, those to run with (`token_size_per_dp_group`, a zero counted as one) and
those of real tokens (`raw_token_size_per_dp_group`), and builds the tables by which rows are
padded to a common number, split over the ranks of a group, gathered again and freed of the
padding.

Counts, ranks and indices are natural numbers. The tables of `handle_expert_parallel` are left out.
-/

namespace Xllm.Parallel

open Xllm.Lib

/-- What the tables read of `mapping_npu`. -/
structure MappingNpu where
  attnTpRank : Nat
  attnDpRank : Nat
  attnTpSize : Nat
  attnDpSize : Nat
  moeEpSize : Option Nat
  deriving Repr, DecidableEq

/-- How the process stops. -/
inductive PaddingError
  | rawTokenSizeCount
  | attnTpRank
  /-- A group that the counts do not have. -/
  | groupOutOfRange
  /-- `torch::zeros` of a negative size. -/
  | negativeSize
  /-- `index` beyond the end. -/
  | indexOutOfRange
  deriving Repr, DecidableEq

structure DpEpPadding where
  tokenSizePerDpGroup : List Nat
  rawTokenSizePerDpGroup : List Nat
  mappingNpu : MappingNpu
  rank : Nat
  expertParallelDegree : Nat
  isPrefill : Bool
  deriving Repr, DecidableEq

namespace DpEpPadding

/-- The constructor. `degree` is the flag `expert_parallel_degree`; the raw counts may be left
undefined. -/
def create (tokenSizePerDpGroup : List Nat) (rawTokenSizePerDpGroup : Option (List Nat))
    (mappingNpu : MappingNpu) (degree : Nat) (isPrefill : Bool) :
    Except PaddingError DpEpPadding := do
  let raw := rawTokenSizePerDpGroup.getD tokenSizePerDpGroup
  check (raw.length = tokenSizePerDpGroup.length) .rawTokenSizeCount
  check (mappingNpu.attnTpRank < mappingNpu.attnTpSize) .attnTpRank
  check (mappingNpu.attnDpRank < tokenSizePerDpGroup.length) .groupOutOfRange
  return {
    tokenSizePerDpGroup := tokenSizePerDpGroup.map fun size => if size = 0 then 1 else size
    rawTokenSizePerDpGroup := raw
    mappingNpu
    rank := mappingNpu.attnTpRank + mappingNpu.attnDpRank * mappingNpu.attnTpSize
    expertParallelDegree := if 1 < mappingNpu.moeEpSize.getD 0 then degree else 0
    isPrefill }

variable (p : DpEpPadding)

/-- `token_size_per_dp_group_.max()`. -/
def maxTokenSize : Nat := p.tokenSizePerDpGroup.max?.getD 0

/-- `calculate_max_token_size`: the value of `max_token_size_per_dp_group_`. -/
def calculateMaxTokenSize : Nat :=
  let remainder := p.maxTokenSize % p.mappingNpu.attnTpSize
  if remainder ≠ 0 then p.maxTokenSize + (p.mappingNpu.attnTpSize - remainder) else p.maxTokenSize

/-- `prepare_cumulative_sum`: the last entry is overwritten. -/
def prepareCumulativeSum : List Nat :=
  let startid := cumsumFrom 0 p.rawTokenSizePerDpGroup
  startid.set (startid.length - 1) 0

/-- The branch for a group without raw tokens writes the zero that is there. -/
def buildFfnPaddingIdx : Except PaddingError (List Nat) := do
  check (∀ raw ∈ p.rawTokenSizePerDpGroup, raw ≤ p.calculateMaxTokenSize) .negativeSize
  return (p.rawTokenSizePerDpGroup.mapIdx fun dpGroupId rawTokenSize =>
    let start := if 0 < dpGroupId then p.prepareCumulativeSum.getD (dpGroupId - 1) 0 else 0
    (List.range rawTokenSize).map (· + start) ++
      List.replicate (p.calculateMaxTokenSize - rawTokenSize) 0).flatten

def buildLmHeadIndices : List Nat :=
  (p.rawTokenSizePerDpGroup.mapIdx fun rankId j =>
    (List.range j).map (· + rankId * p.calculateMaxTokenSize)).flatten

def buildDpPaddingIndices : List (List Nat) :=
  p.tokenSizePerDpGroup.map fun currentSize =>
    List.range currentSize ++ List.replicate (p.calculateMaxTokenSize - currentSize) 0

def prepareGatherIndices (attnPaddingIdx : List Nat) : List Nat :=
  let tokenSizePerTpRank := p.calculateMaxTokenSize / p.mappingNpu.attnTpSize
  let start := p.mappingNpu.attnTpRank * tokenSizePerTpRank
  let safeEnd := min (start + tokenSizePerTpRank) p.calculateMaxTokenSize
  if start < safeEnd then (attnPaddingIdx.take safeEnd).drop start else []

/-- `new_dp_size_`. -/
def newDpSize : List Nat :=
  p.tokenSizePerDpGroup.flatMap fun inputLength =>
    let tpGroupSize := p.mappingNpu.attnTpSize
    let reduceScatterPadding := p.maxTokenSize % tpGroupSize
    let inputLengthPadding := p.maxTokenSize - inputLength +
      if reduceScatterPadding ≠ 0 then tpGroupSize - reduceScatterPadding else 0
    List.replicate tpGroupSize ((inputLength + inputLengthPadding) / tpGroupSize)

def buildAllGatherUnpadding : List Nat :=
  let maxDpSize := p.newDpSize.max?.getD 0
  let newSize := p.newDpSize.getD p.rank 0
  let allGatherPadding := newSize + (maxDpSize - newSize)
  (p.newDpSize.mapIdx fun i size => (List.range size).map (· + i * allGatherPadding)).flatten

def buildReduceScatterUnpadding : List Nat :=
  (p.rawTokenSizePerDpGroup.mapIdx fun i raw =>
    let offset := (p.newDpSize.take (i * p.mappingNpu.attnTpSize)).sum
    (List.range raw).map (· + offset)).flatten

def buildFfnUnpaddingIdx : List Nat :=
  let tokenSize := p.tokenSizePerDpGroup.getD p.mappingNpu.attnDpRank 0
  List.range (if tokenSize = 0 then 1 else tokenSize)

/-- The condition of the expert-parallel branch. -/
def IsExpertParallel : Prop :=
  p.expertParallelDegree = 2 ∨ p.expertParallelDegree = 3 ∧ p.isPrefill = true

instance : Decidable p.IsExpertParallel := inferInstanceAs (Decidable (_ ∨ _))

end DpEpPadding

/-- The tables that `prepare_indices` leaves. -/
structure DpEpPaddingData where
  attnPaddingIdx : List Nat
  attnUnpaddingIdx : List Nat
  ffnPaddingIdx : List Nat
  ffnUnpaddingIdx : List Nat
  lmHeadSkipPaddingTokenIndices : List Nat
  gatherPrenormIdx : List Nat
  paddingIdx : List Nat
  unPaddingIdx : List Nat
  deriving Repr, DecidableEq

namespace DpEpPadding

/-- `prepare_indices`. -/
def prepareIndices (p : DpEpPadding) : Except PaddingError DpEpPaddingData := do
  let ffnPaddingIdx ← p.buildFfnPaddingIdx
  let dpPaddingIdx := p.buildDpPaddingIndices
  check (0 < p.mappingNpu.attnDpSize ∧ p.mappingNpu.attnDpSize ≤ dpPaddingIdx.length)
    .groupOutOfRange
  let attnPaddingIdx := dpPaddingIdx.getD p.mappingNpu.attnDpRank []
  let attnUnpaddingIdx ←
    if p.IsExpertParallel then .ok (List.range (p.newDpSize.getD p.rank 0))
    else
      match indexSelect p.buildAllGatherUnpadding p.buildReduceScatterUnpadding with
      | some attnUnpaddingIdx => .ok attnUnpaddingIdx
      | none => .error .indexOutOfRange
  return {
    attnPaddingIdx
    attnUnpaddingIdx
    ffnPaddingIdx := if p.IsExpertParallel then attnUnpaddingIdx else ffnPaddingIdx
    ffnUnpaddingIdx := p.buildFfnUnpaddingIdx
    lmHeadSkipPaddingTokenIndices := p.buildLmHeadIndices
    gatherPrenormIdx := p.prepareGatherIndices attnPaddingIdx
    paddingIdx := dpPaddingIdx.getD (p.mappingNpu.attnDpSize - 1) []
    unPaddingIdx := [0] }

/-- The constructor and `build`. -/
def build (tokenSizePerDpGroup : List Nat) (rawTokenSizePerDpGroup : Option (List Nat))
    (mappingNpu : MappingNpu) (degree : Nat) (isPrefill : Bool) :
    Except PaddingError DpEpPaddingData := do
  let p ← create tokenSizePerDpGroup rawTokenSizePerDpGroup mappingNpu degree isPrefill
  p.prepareIndices

end DpEpPadding

end Xllm.Parallel
