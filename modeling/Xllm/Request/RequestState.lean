import Xllm.Request.StoppingChecker

/-!
# Request state

What a request carries through the schedulers (`core/framework/request/request_state.h`,
`core/framework/sampling/sampling_params.h`) and the status a failed one ends with
(`core/common/types.h`). Floating point values are only copied: they are values of a type `F`. The
JSON grammar is a value of a type `G`. Callbacks, the embedding and multimodal inputs of other
kinds of requests and the bookkeeping of the schedulers are left out.
-/

namespace Xllm.Request

inductive StatusCode
  | ok
  | cancelled
  | unknown
  | invalidArgument
  | deadlineExceeded
  | resourceExhausted
  | unavailable
  deriving DecidableEq, Repr

inductive FailureReason
  | unspecified
  | invalidParameter
  | modelNotFound
  | promptTooLong
  | temporaryOverload
  | concurrencyLimitReached
  | unauthenticated
  | permissionDenied
  deriving DecidableEq, Repr

structure Status where
  code : StatusCode
  message : String := ""
  reason : FailureReason := .unspecified
  param : Option String := none
  deriving DecidableEq, Repr

/-- Also the values of `proto::Priority`. -/
inductive RequestPriority
  | default
  | high
  | normal
  | low
  deriving DecidableEq, Repr

structure SchedulerParam where
  offline : Bool := false
  ttltSloMs : Int32 := Int32.maxValue
  ttftSloMs : Int32 := Int32.maxValue
  tpotSloMs : Int32 := Int32.maxValue
  tpotPriorityWeight : Int32 := 1
  ttftPriorityWeight : Int32 := 1
  ttltPriorityWeight : Int32 := 1
  priorityWeight : Int32 := 1
  priority : RequestPriority := .normal
  deriving DecidableEq, Repr

structure RequestSamplingParam (F : Type) where
  frequencyPenalty : F
  presencePenalty : F
  repetitionPenalty : F
  temperature : F
  topP : F
  topK : Int64 := -1
  logprobs : Bool := false
  topLogprobs : Int64 := 0
  doSample : Bool := false
  isEmbeddings : Bool := false
  jsonObject : Bool := false
  beamWidth : Int32 := 0
  numReturnSequences : Int32 := 0
  deriving DecidableEq, Repr

namespace RequestSamplingParam

variable {F : Type}

/-- `enable_beam_search`: a search needs the log probabilities of as many candidates as it is
wide. -/
def enableBeamSearch (p : RequestSamplingParam F) (width : Int32) : RequestSamplingParam F :=
  if 1 < width then
    { p with beamWidth := width, logprobs := true, topLogprobs := max p.topLogprobs width.toInt64 }
  else { p with beamWidth := width }

def topLogprobsVocabError (p : RequestSamplingParam F) (vocabSize : Int64) : Option String :=
  if !p.logprobs || vocabSize ≤ 0 || p.topLogprobs ≤ vocabSize then none
  else
    let error :=
      if 1 < p.beamWidth && p.topLogprobs = p.beamWidth.toInt64 then
        "beam_width (" ++ toString p.beamWidth ++ ")"
      else "top_logprobs (" ++ toString p.topLogprobs ++ ")"
    some (error ++ " must not exceed the model vocabulary size (" ++ toString vocabSize ++ ")")

end RequestSamplingParam

structure SampleSlot where
  requestId : String
  sampleId : Nat := 0
  tokenPosition : Nat := 0
  deriving DecidableEq, Repr

/-- A request state. Its constructor stops the program unless `n <= best_of`. -/
structure RequestState (F G : Type) where
  prompt : String
  promptTokens : List Int
  samplingParam : RequestSamplingParam F
  schedulerParam : SchedulerParam
  stoppingChecker : StoppingChecker
  seqCapacity : Nat
  n : Nat
  bestOf : Nat
  logprobs : Bool
  stream : Bool
  echo : Bool
  skipSpecialTokens : Bool
  enableScheduleOverlap : Bool
  decodeAddress : String := ""
  includeStopStrInOutput : Bool := false
  sampleSlots : List SampleSlot := []
  jsonObjectGrammar : Option G := none
  jsonReasoningEnabled : Bool := false
  n_le_bestOf : n ≤ bestOf
  deriving DecidableEq

end Xllm.Request
