import Mathlib

/-!
# Choosing pruned prefix lengths

`AdaptiveSpeculativeController::select_pruned_prefix_lengths`
(`core/framework/speculative/adaptive_speculative_controller.cpp`): every draft position of every
sequence is a candidate, the likeliest path first, and a candidate is taken when it raises the
estimated throughput by more than the minimal gain.

Times and probabilities are exact rationals, so the guards against values that are not finite do
nothing. The tensor of selected probabilities is its rows, the flat buffer of path probabilities one
row for each sequence.
-/

namespace Xllm.Speculative

/-- The CHECKs. -/
inductive PruneCheck
  | batchSize
  | speculativeTokens
  deriving DecidableEq, Repr

/-- `selected_probs_by_step`, a tensor `[batch, speculative_tokens]`. -/
structure SelectedProbs where
  numSpeculativeTokens : Nat
  rows : List (List ℚ)
  rectangular : ∀ row ∈ rows, row.length = numSpeculativeTokens

structure ValidateTimePredictor where
  interceptMs : ℚ
  queryTokenMs : ℚ
  queryPrefixMs : ℚ

/-- The arguments, with `min_gain_` of the controller and the registry's predictor. -/
structure PruneInput where
  minGain : ℚ
  predictor : Option ValidateTimePredictor
  selectedProbs : SelectedProbs
  fullDraftTimeMs : ℚ
  perSeqKvLens : List ℚ

structure PruneCandidate where
  seqId : Nat
  prefixLen : Nat
  pathProb : ℚ
  deriving DecidableEq

/-- The comparator of the sort. -/
def PruneCandidate.before (lhs rhs : PruneCandidate) : Bool :=
  if lhs.pathProb ≠ rhs.pathProb then decide (lhs.pathProb > rhs.pathProb)
  else if lhs.prefixLen ≠ rhs.prefixLen then decide (lhs.prefixLen < rhs.prefixLen)
  else decide (lhs.seqId < rhs.seqId)

/-- The order the sort leaves the candidates in. -/
def PruneCandidate.NotAfter (lhs rhs : PruneCandidate) : Prop := ¬ rhs.before lhs

instance : DecidableRel PruneCandidate.NotAfter :=
  fun lhs rhs => inferInstanceAs (Decidable (¬ rhs.before lhs))

/-- `std::clamp(value, 0.0, 1.0)`. -/
def clampProb (value : ℚ) : ℚ := min (max value 0) 1

/-- The loop over one row, with the path probability it carries. -/
def pathProbsFrom (pathProb : ℚ) : List ℚ → List ℚ
  | [] => []
  | stepProb :: rest =>
    clampProb (pathProb * stepProb) :: pathProbsFrom (clampProb (pathProb * stepProb)) rest

/-- The candidates of one row. -/
def rowCandidates (seqId : Nat) (pathProbs : List ℚ) : List PruneCandidate :=
  pathProbs.mapIdx fun tokenIdx pathProb => ⟨seqId, tokenIdx + 1, pathProb⟩

/-- The lower bound of both terms of the divisor. -/
def timeFloor : ℚ := 1 / 1000000

/-- The variables of the loop over the candidates. -/
structure PruneState where
  prefixLengths : List Nat
  expectedAccepted : ℚ
  validateTimeRaw : ℚ
  currentScore : ℚ

namespace PruneInput

variable (x : PruneInput)

def batchSize : Nat := x.selectedProbs.rows.length

def numSpeculativeTokens : Nat := x.selectedProbs.numSpeculativeTokens

/-- `path_probs`, row by row. -/
def pathProbs : List (List ℚ) :=
  x.selectedProbs.rows.map fun row => pathProbsFrom 1 (row.map clampProb)

def candidates : List PruneCandidate := (x.pathProbs.mapIdx rowCandidates).flatten

def sortedCandidates : List PruneCandidate :=
  x.candidates.insertionSort PruneCandidate.NotAfter

/-- `kv_i`. -/
def kvLen (seqId : Nat) : ℚ := x.perSeqKvLens.getD seqId 0

def scoreOf (accepted vtimeRaw : ℚ) : ℚ :=
  (x.batchSize + accepted) / (max x.fullDraftTimeMs timeFloor + max vtimeRaw timeFloor)

/-- The validate time with no draft token; the fallback is 1. -/
def initialValidateTime : ℚ :=
  match x.predictor with
  | none => 1
  | some predictor =>
    (List.range x.batchSize).foldl
      (fun time seqId =>
        time + (predictor.queryTokenMs * 1 + predictor.queryPrefixMs * 1 * x.kvLen seqId))
      predictor.interceptMs

def initialState : PruneState where
  prefixLengths := List.replicate x.batchSize 0
  expectedAccepted := 0
  validateTimeRaw := x.initialValidateTime
  currentScore := x.scoreOf 0 x.initialValidateTime

/-- `candidate_expected_accepted`: the inner loop over the positions the prefix grows by. -/
def candidateExpectedAccepted (s : PruneState) (candidate : PruneCandidate) : ℚ :=
  (((x.pathProbs.getD candidate.seqId []).take candidate.prefixLen).drop
    (s.prefixLengths.getD candidate.seqId 0)).foldl (· + ·) s.expectedAccepted

/-- `candidate_validate_time_raw`. -/
def candidateValidateTimeRaw (s : PruneState) (candidate : PruneCandidate) : ℚ :=
  let deltaQ : ℚ := ((candidate.prefixLen - s.prefixLengths.getD candidate.seqId 0 : Nat) : ℚ)
  match x.predictor with
  | none => s.validateTimeRaw
  | some predictor =>
    s.validateTimeRaw + predictor.queryTokenMs * deltaQ +
      predictor.queryPrefixMs * deltaQ * x.kvLen candidate.seqId

def considerCandidate (s : PruneState) (candidate : PruneCandidate) : PruneState :=
  if candidate.prefixLen ≤ s.prefixLengths.getD candidate.seqId 0 then s
  else
    let nextScore :=
      x.scoreOf (x.candidateExpectedAccepted s candidate) (x.candidateValidateTimeRaw s candidate)
    if nextScore > s.currentScore * (1 + max x.minGain 0) then
      { prefixLengths := s.prefixLengths.set candidate.seqId candidate.prefixLen
        expectedAccepted := x.candidateExpectedAccepted s candidate
        validateTimeRaw := x.candidateValidateTimeRaw s candidate
        currentScore := nextScore }
    else s

def greedyState : PruneState := x.sortedCandidates.foldl x.considerCandidate x.initialState

end PruneInput

def selectPrunedPrefixLengths (x : PruneInput) : Except PruneCheck (List Nat) :=
  if x.batchSize = 0 then .error .batchSize
  else if x.numSpeculativeTokens = 0 then .error .speculativeTokens
  else .ok x.greedyState.prefixLengths

end Xllm.Speculative
