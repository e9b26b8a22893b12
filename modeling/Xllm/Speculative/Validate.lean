import Mathlib.Logic.Basic

/-!
# Validating draft tokens

`MTPWorkerImpl::validate` (`core/runtime/mtp_worker_impl.cpp`), with the rejection sampler
(`core/framework/sampling/rejection_sampler.cpp`) and the pruned prefixes
(`core/framework/speculative/adaptive_pruning_helpers.cpp`): the target model has sampled a token
behind every draft token and one more, and each sequence keeps its draft tokens up to the first one
that is rejected.

A tensor of tokens is flat, or a list of rows. Probabilities are not modelled: `Draws` is what they
decide, the outcome of the test of each draft token and the tokens drawn in place of rejected ones,
and for greedy scores the token of the highest one. The fused kernel is modelled by its loop over the
draft tokens of a sequence, for draft tokens of the vocabulary. Log probabilities, embeddings, and the
CHECKs on the shapes of masks and probabilities are left out.
-/

namespace Xllm.Speculative

/-- The CHECKs, and tensors whose shapes do not fit. -/
inductive ValidateCheck
  | targetTokens
  | draftShape
  | invalidDraftShape
  | doSampleShape
  | prefixLengths
  deriving DecidableEq, Repr

/-- What the probabilities of a batch decide, for each sequence and draft column. -/
structure Draws where
  /-- `uniform_rand < acceptance_probs`. -/
  accepted : Nat → Nat → Bool
  /-- `Sampler::random_sample` of the recovered probabilities. -/
  recovered : Nat → Nat → Int
  /-- `Sampler::greedy_sample` of the target's scores. -/
  greedy : Nat → Nat → Int

structure SamplerPolicy where
  doSample : List Bool
  allRandomSample : Bool
  allGreedySample : Bool

structure ValidateInput where
  policy : SamplerPolicy
  /-- `token_ids` of the proposal, and whether it carries probabilities. -/
  draftTokenIds : List (List Int)
  draftProbs : Bool
  /-- `next_tokens` and `logprobs` of the target's output. -/
  targetNextTokens : List Int
  logprobs : Bool
  numSpeculativeTokens : Nat
  prunedPrefixLengths : Option (List Int)
  invalidDraft : List UInt8
  usesEmbeddedEagle3Draft : Bool
  enableFusedKernel : Bool

/-! ## Tensors -/

/-- `view({rows, cols})`. -/
def view (rows cols : Nat) (flat : List Int) : List (List Int) :=
  (List.range rows).map fun i => (List.range cols).map fun j => flat.getD (i * cols + j) 0

/-- `transpose(0, 1)` of a tensor of this shape. -/
def transpose (rows cols : Nat) (t : List (List Int)) : List (List Int) :=
  (List.range cols).map fun j => (List.range rows).map fun i => (t.getD i []).getD j 0

/-! ## The rejection sampler -/

/-- The mask of a row up to its first rejected token: `argmax` gives the first of equal values, and
the column that is added is never accepted. -/
def buildAcceptedMask (accepted : List Bool) : List Bool :=
  let firstRejected := (accepted ++ [false]).findIdx (fun a => !a)
  (List.range (accepted.length + 1)).map fun index => decide (index ≤ firstRejected)

def maskOutAfterFirstReject (accepted : List Bool) (acceptedTokenIds : List Int) : List Int :=
  List.zipWith (fun keep token => if keep then token else -1) (buildAcceptedMask accepted)
    acceptedTokenIds

def finalizeRandomSample (accepted : List Bool) (recoveredTokenIds draftTokenIds : List Int)
    (bonusTokenId : Int) : List Int :=
  let combined := List.zipWith (fun (a : Bool) (tokens : Int × Int) => if a then tokens.1 else tokens.2)
    accepted (List.zip draftTokenIds recoveredTokenIds)
  maskOutAfterFirstReject accepted (combined ++ [bonusTokenId])

def greedySampleFromTokenIds (draftTokenIds targetTokenIds : List Int) (bonusTokenId : Int) :
    List Int :=
  let accepted := List.zipWith (fun target draft => decide (target = draft)) targetTokenIds
    draftTokenIds
  maskOutAfterFirstReject accepted (targetTokenIds ++ [bonusTokenId])

/-- `rejection_sample_kernel`: the row is filled with -1, and the loop stops at the first rejected
token. -/
def rejectionSampleKernel (bonusTokenId : Int) : List Bool → List Int → List Int → List Int
  | accepted :: as, recovered :: rs, draft :: ds =>
    if accepted then draft :: rejectionSampleKernel bonusTokenId as rs ds
    else recovered :: List.replicate (ds.length + 1) (-1)
  | _, _, _ => [bonusTokenId]

/-- `RejectionSampler::forward` for one sequence. -/
def rejectionSample (policy : SamplerPolicy) (useFusedKernel : Bool) (draws : Draws) (seq : Nat)
    (draftTokenIds : List Int) (bonusTokenId : Int) : List Int :=
  let columns := List.range draftTokenIds.length
  let accepted := columns.map (draws.accepted seq)
  let recovered := columns.map (draws.recovered seq)
  let greedy := greedySampleFromTokenIds draftTokenIds (columns.map (draws.greedy seq)) bonusTokenId
  let random :=
    if useFusedKernel then rejectionSampleKernel bonusTokenId accepted recovered draftTokenIds
    else finalizeRandomSample accepted recovered draftTokenIds bonusTokenId
  if policy.allGreedySample then greedy
  else if policy.allRandomSample then random
  else if policy.doSample.getD seq false then random
  else greedy

/-! ## Invalid drafts and pruned prefixes -/

def invalidRow (x : ValidateInput) (seq : Nat) : List UInt8 :=
  (List.range x.numSpeculativeTokens).map fun draftIdx =>
    x.invalidDraft.getD (seq * x.numSpeculativeTokens + draftIdx) 0

/-- `validation_draft_token_ids`: the target's token takes the place of an invalid draft token. -/
def validationDraft (flags : List UInt8) (targetTokenIds draftTokenIds : List Int) : List Int :=
  List.zipWith (fun (flag : UInt8) (tokens : Int × Int) => if flag ≠ 0 then tokens.1 else tokens.2)
    flags (List.zip targetTokenIds draftTokenIds)

/-- From the first invalid draft column on, the row is the target's token and -1. -/
def patchInvalid (flags : List UInt8) (targetTokenIds outputRow : List Int) : List Int :=
  match flags.findIdx? (fun flag => flag ≠ 0) with
  | none => outputRow
  | some firstInvalid =>
    (outputRow.set firstInvalid (targetTokenIds.getD firstInvalid 0)).take (firstInvalid + 1) ++
      List.replicate (outputRow.length - firstInvalid - 1) (-1)

def clampPrefixLength (numSpeculativeTokens : Nat) (prefixLength : Int) : Nat :=
  (min (max prefixLength 0) numSpeculativeTokens).toNat

/-- `build_pruned_prefix_masks` and `apply_pruned_prefix_lengths` for one sequence. -/
def applyPrunedPrefixLength (numSpeculativeTokens : Nat) (prefixLength : Int)
    (targetTokenIds nextTokens : List Int) : List Int :=
  let length := clampPrefixLength numSpeculativeTokens prefixLength
  (List.range (numSpeculativeTokens + 1)).map fun position =>
    let keep := decide (position ≤ length)
    let cut := decide (position = length ∧ length < numSpeculativeTokens)
    let token := if cut then targetTokenIds.getD position 0 else nextTokens.getD position 0
    if keep then token else -1

/-! ## `validate` -/

namespace ValidateInput

variable (x : ValidateInput)

def numValTokens : Nat := x.numSpeculativeTokens + 1

def batchSize : Nat := x.targetNextTokens.length / x.numValTokens

/-- `target_next_tokens`, in row-major order in both layouts. -/
def rowMajorTokens : List Int :=
  if x.usesEmbeddedEagle3Draft then
    (transpose x.numValTokens x.batchSize
      (view x.numValTokens x.batchSize x.targetNextTokens)).flatten
  else x.targetNextTokens

/-- `bonus_token_ids`. -/
def bonusTokenId (seq : Nat) : Int :=
  x.rowMajorTokens.getD (x.numValTokens - 1 + seq * x.numValTokens) 0

/-- `target_sampled_tokens` of the invalid drafts and `target_next_tokens_view` of the pruned
prefixes: the target's output as it is, viewed row by row. -/
def targetSampledTokens (seq : Nat) : List Int :=
  (view x.batchSize x.numValTokens x.targetNextTokens).getD seq []

/-- The sampled tokens are compared with the draft tokens, without probabilities. -/
def comparesTokenIds : Bool :=
  !x.usesEmbeddedEagle3Draft && x.policy.allGreedySample && !x.logprobs

/-- Draft probabilities are dense where the fused kernel is used. -/
def useFusedKernel : Bool := x.draftProbs && x.enableFusedKernel && !x.logprobs

/-- The draft tokens that are tested. -/
def testedDraft (seq : Nat) : List Int :=
  let draft := x.draftTokenIds.getD seq []
  if x.invalidDraft = [] then draft
  else validationDraft (invalidRow x seq) (x.targetSampledTokens seq) draft

def sampledRow (draws : Draws) (seq : Nat) : List Int :=
  if x.comparesTokenIds then
    greedySampleFromTokenIds (x.draftTokenIds.getD seq [])
      (((view x.batchSize x.numValTokens x.rowMajorTokens).getD seq []).take (x.numValTokens - 1))
      (x.bonusTokenId seq)
  else
    let outputRow :=
      rejectionSample x.policy x.useFusedKernel draws seq (x.testedDraft seq) (x.bonusTokenId seq)
    if x.invalidDraft = [] then outputRow
    else patchInvalid (invalidRow x seq) (x.targetSampledTokens seq) outputRow

end ValidateInput

/-- The rows of `next_tokens`. -/
def validate (x : ValidateInput) (draws : Draws) : Except ValidateCheck (List (List Int)) :=
  if x.targetNextTokens.length % x.numValTokens ≠ 0 then .error .targetTokens
  else if x.draftTokenIds.length ≠ x.batchSize ∨
      ¬ x.draftTokenIds.all (fun row => row.length = x.numSpeculativeTokens) then
    .error .draftShape
  else if ¬ x.comparesTokenIds ∧ x.invalidDraft ≠ [] ∧
      x.invalidDraft.length ≠ x.batchSize * x.numSpeculativeTokens then
    .error .invalidDraftShape
  else if ¬ x.comparesTokenIds ∧ x.policy.doSample.length ≠ x.batchSize then
    .error .doSampleShape
  else
    let nextTokens := (List.range x.batchSize).map (x.sampledRow draws)
    match x.prunedPrefixLengths with
    | none => .ok nextTokens
    | some prefixLengths =>
      if prefixLengths.length ≠ x.batchSize then .error .prefixLengths
      else
        .ok ((List.range x.batchSize).map fun seq =>
          applyPrunedPrefixLength x.numSpeculativeTokens (prefixLengths.getD seq 0)
            (x.targetSampledTokens seq) (nextTokens.getD seq []))

end Xllm.Speculative
