import Xllm.Lib.Outcome
import Xllm.Request.RequestState

/-!
# The sampling parameters of a batch

`SamplingParameters` (`core/framework/sampling/sampling_params.cpp`): `init` gathers the parameters
of the requests of a batch in tensors, of which it leaves out those that no request needs, and
`concat` puts the parameters of another batch behind them. A tensor with a row for each request is
the list of its rows, and an undefined one is `none`. Floating point values are only compared with
the constants 0 and 1. `filter_bitmask`, `acc_logprob` and `return_probs`, which `init` does not
set, are left out.
-/

namespace Xllm.Sampling

open Xllm.Lib Xllm.Request

/-- The CHECKs, and what torch and the vectors refuse. -/
inductive SamplingCheck
  | selectedTokenIdxes
  | sampleIdxes
  | filterMaskRows
  | vocabSize
  | filterMaskWidth
  | uniqueTokens
  | raggedRows
  | outOfRange
  | catSizes
  deriving DecidableEq, Repr

structure SamplingParameters (F : Type) where
  selectedTokenIdxes : List Nat
  filterMask : Option (List (List F))
  frequencyPenalties : Option (List F)
  presencePenalties : Option (List F)
  repetitionPenalties : Option (List F)
  temperatures : Option (List F)
  topP : Option (List F)
  topK : Option (List Int64)
  uniqueTokenIds : Option (List (List Int64))
  uniqueTokenCounts : Option (List (List Int32))
  uniqueTokenIdsLens : Option (List Nat)
  sampleIdxes : List Nat
  doSample : List Bool
  allRandomSample : Bool
  allGreedySample : Bool
  logprobs : Bool
  isEmbeddings : Bool
  maxTopLogprobs : Int64
  numReturnSequences : Int32
  useBeamSearch : Bool

/-- A tensor that is made only when it is needed. -/
def definedIf {α : Type} (needed : Bool) (rows : List α) : Option (List α) :=
  if needed then some rows else none

def rowAt {α : Type} (rows : List α) (idx : Nat) : Except SamplingCheck α :=
  match rows[idx]? with
  | some row => .ok row
  | none => .error .outOfRange

/-- `create_2d_tensor`. -/
def create2dTensor {α : Type} (vec : List (List α)) :
    Except SamplingCheck (Option (List (List α))) :=
  match vec with
  | [] => .ok none
  | first :: _ =>
    if ∀ row ∈ vec, row.length = first.length then .ok (some vec) else .error .raggedRows

/-- `pad_2d_vector`. -/
def pad2dVector {α : Type} (vec : List (List α)) (padValue : α) : List (List α) :=
  let maxColSize := vec.foldl (fun size row => max size row.length) 0
  vec.map fun row => row ++ List.replicate (maxColSize - row.length) padValue

/-- `safe_concat` along the rows. -/
def safeConcat {α : Type} : Option (List α) → Option (List α) → Option (List α)
  | some t₁, some t₂ => some (t₁ ++ t₂)
  | none, t₂ => t₂
  | t₁, none => t₁

/-- `torch::cat` of two tensors of rows. -/
def catRows {α : Type} (t₁ t₂ : List (List α)) : Except SamplingCheck (List (List α)) :=
  if (t₁.head?.map List.length) = (t₂.head?.map List.length) then .ok (t₁ ++ t₂)
  else .error .catSizes

/-- `safe_concat` of two tensors of rows. -/
def safeConcatRows {α : Type} : Option (List (List α)) → Option (List (List α)) →
    Except SamplingCheck (Option (List (List α)))
  | some t₁, some t₂ => (catRows t₁ t₂).map some
  | none, t₂ => .ok t₂
  | t₁, none => .ok t₁

namespace SamplingParameters

variable {F : Type} [DecidableEq F] [Zero F] [One F]

def needsPenalties (params : List (RequestSamplingParam F)) : Bool :=
  params.any (fun p => p.frequencyPenalty ≠ 0) || params.any (fun p => p.presencePenalty ≠ 0)

def needsRepetition (params : List (RequestSamplingParam F)) : Bool :=
  params.any fun p => p.repetitionPenalty ≠ 1

def needTokenStats (params : List (RequestSamplingParam F)) : Bool :=
  needsPenalties params || needsRepetition params

def needsTemperature (params : List (RequestSamplingParam F)) : Bool :=
  params.any fun p => p.temperature ≠ 0 ∧ p.temperature ≠ 1

def needsTopK (params : List (RequestSamplingParam F)) : Bool := params.any fun p => 0 < p.topK

def needsTopP (params : List (RequestSamplingParam F)) : Bool := params.any fun p => p.topP ≠ 1

/-- Whether a request samples. -/
def samples (p : RequestSamplingParam F) : Bool :=
  p.doSample || p.temperature ≠ 0 || p.topP ≠ 1 || 0 < p.topK

/-- The rows of the mask: a request without a row of its own gets zeros. -/
def filterMaskOf (numRequests : Nat) (sampleIdxes : List Nat) (rows : List (Option (List F))) :
    Except SamplingCheck (Option (List (List F))) :=
  match rows.filterMap id with
  | [] => .ok none
  | first :: rest => do
    check (rows.length = numRequests) .filterMaskRows
    check (first.length ≠ 0) .vocabSize
    check (∀ row ∈ rest, row.length = first.length) .filterMaskWidth
    let mask := rows.map fun row => row.getD (List.replicate first.length 0)
    if sampleIdxes.length = rows.length then .ok (some mask)
    else (sampleIdxes.mapM (rowAt mask)).map some

/-- The fields, once the checks have passed. -/
def gather (params : List (RequestSamplingParam F)) (selectedTokenIdxes sampleIdxes : List Nat)
    (uniqueTokenIds : Option (List (List Int64))) (uniqueTokenCounts : Option (List (List Int32)))
    (uniqueTokenLensVec : List Nat) (filterMask : Option (List (List F))) (doSample : List Bool) :
    SamplingParameters F where
  selectedTokenIdxes
  filterMask
  frequencyPenalties := definedIf (needsPenalties params) (params.map (·.frequencyPenalty))
  presencePenalties := definedIf (needsPenalties params) (params.map (·.presencePenalty))
  repetitionPenalties := definedIf (needsRepetition params) (params.map (·.repetitionPenalty))
  temperatures := definedIf (needsTemperature params) (params.map (·.temperature))
  topP := definedIf (needsTopP params) (params.map (·.topP))
  topK := definedIf (needsTopK params) (params.map (·.topK))
  uniqueTokenIds
  uniqueTokenCounts
  uniqueTokenIdsLens := definedIf (needTokenStats params) uniqueTokenLensVec
  sampleIdxes
  doSample
  allRandomSample := doSample.all id
  allGreedySample := !doSample.any id
  logprobs := params.any (·.logprobs)
  isEmbeddings := params.any (·.isEmbeddings)
  maxTopLogprobs := params.foldl (fun top p => max top p.topLogprobs) 0
  numReturnSequences := params.foldl (fun num p => max num p.numReturnSequences) 0
  useBeamSearch := params.any fun p => 0 < p.beamWidth

def init (params : List (RequestSamplingParam F)) (selectedTokenIdxes sampleIdxes : List Nat)
    (uniqueTokenIdsVec : List (List Int64)) (uniqueTokenCountsVec : List (List Int32))
    (uniqueTokenLensVec : List Nat) (filterMaskRows : List (Option (List F))) :
    Except SamplingCheck (SamplingParameters F) := do
  check (params.length = selectedTokenIdxes.length) .selectedTokenIdxes
  check (sampleIdxes.length ≤ params.length) .sampleIdxes
  let filterMask ← filterMaskOf params.length sampleIdxes filterMaskRows
  check (needTokenStats params → params.length = uniqueTokenIdsVec.length ∧
    params.length = uniqueTokenCountsVec.length ∧ params.length = uniqueTokenLensVec.length)
    .uniqueTokens
  let ids ← if needTokenStats params then create2dTensor uniqueTokenIdsVec else .ok none
  let counts ← if needTokenStats params then create2dTensor uniqueTokenCountsVec else .ok none
  let doSample ← sampleIdxes.mapM fun idx => (rowAt params idx).map samples
  .ok (gather params selectedTokenIdxes sampleIdxes ids counts uniqueTokenLensVec filterMask
    doSample)

/-- Indices that go on behind the last one of another tensor. -/
def shifted (idxes behind : List Nat) : Except SamplingCheck (List Nat) :=
  match behind.getLast? with
  | none => .error .outOfRange
  | some last => .ok (idxes.map (· + last + 1))

/-- The masks of both, where only one has a mask with zeros for the requests of the other. -/
def concatFilterMask (p param : SamplingParameters F) :
    Except SamplingCheck (Option (List (List F))) :=
  match p.filterMask, param.filterMask with
  | none, none => .ok none
  | some mask, some mask' => (catRows mask mask').map some
  | some mask, none => .ok (some (mask ++ List.replicate param.sampleIdxes.length
      (List.replicate ((mask.head?.map List.length).getD 0) 0)))
  | none, some mask' => .ok (some (List.replicate p.sampleIdxes.length
      (List.replicate ((mask'.head?.map List.length).getD 0) 0) ++ mask'))

/-- The fields of both; the source leaves out `presence_penalties` and the flags about sampling. -/
def join (p param : SamplingParameters F) (selectedTokenIdxes sampleIdxes : List Nat)
    (uniqueTokenIds : Option (List (List Int64))) (uniqueTokenCounts : Option (List (List Int32)))
    (filterMask : Option (List (List F))) : SamplingParameters F :=
  { p with
    selectedTokenIdxes := p.selectedTokenIdxes ++ selectedTokenIdxes
    sampleIdxes := p.sampleIdxes ++ sampleIdxes
    frequencyPenalties := safeConcat p.frequencyPenalties param.frequencyPenalties
    repetitionPenalties := safeConcat p.repetitionPenalties param.repetitionPenalties
    temperatures := safeConcat p.temperatures param.temperatures
    topP := safeConcat p.topP param.topP
    topK := safeConcat p.topK param.topK
    uniqueTokenIds
    uniqueTokenCounts
    uniqueTokenIdsLens := safeConcat p.uniqueTokenIdsLens param.uniqueTokenIdsLens
    doSample := p.doSample ++ param.doSample
    filterMask
    logprobs := p.logprobs || param.logprobs
    isEmbeddings := p.isEmbeddings || param.isEmbeddings
    useBeamSearch := p.useBeamSearch || param.useBeamSearch
    maxTopLogprobs := max p.maxTopLogprobs param.maxTopLogprobs
    numReturnSequences := max p.numReturnSequences param.numReturnSequences }

def concat (p param : SamplingParameters F) : Except SamplingCheck (SamplingParameters F) := do
  let selectedTokenIdxes ← shifted param.selectedTokenIdxes p.selectedTokenIdxes
  let sampleIdxes ← shifted param.sampleIdxes p.sampleIdxes
  let uniqueTokenIds ← safeConcatRows p.uniqueTokenIds param.uniqueTokenIds
  let uniqueTokenCounts ← safeConcatRows p.uniqueTokenCounts param.uniqueTokenCounts
  let filterMask ← concatFilterMask p param
  .ok (p.join param selectedTokenIdxes sampleIdxes uniqueTokenIds uniqueTokenCounts filterMask)

end SamplingParameters

end Xllm.Sampling
