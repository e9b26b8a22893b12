import Xllm.Request.LLMRequestFactory

/-!
# A request on its way to the decode instance

`DisaggPDScheduler::dispatch_requests` (`core/scheduler/disagg_pd_scheduler.cpp`) copies a request field
by field into a `DisaggRequest` (`proto/disagg_pd.proto`), and `DisaggPDServiceImpl::generate_request`
(`core/distributed_runtime/disagg_pd_service_impl.cpp`) builds a request from one. What is not copied
is read as the default of the wire format: `requestSurvivesHandoff_iff` says which requests that
leaves as they were.
-/

namespace Xllm.Scheduler.Disagg

open Xllm.Lib
open Xllm.Request

variable {F G : Type}

structure Request (F G : Type) where
  requestId : String
  xRequestId : String
  xRequestTime : String
  serviceRequestId : String
  sourceXserviceAddr : String
  pdReservationId : String
  state : RequestState F G
  deriving DecidableEq

/-- The message. Scalar fields that are not set are zero, false or empty; `optional` fields say
whether they are set. -/
structure DisaggRequest (F : Type) where
  reqId : String
  serviceReqId : String
  tokensNum : Int64
  prompt : String
  stream : Bool
  xRequestId : String
  xRequestTime : String
  maxTokens : Int32
  maxContextLen : Int32
  seqCapacity : Int32
  ignoreEos : Bool
  eosTokenId : Int
  stopTokenIds : List Int
  stopSequences : List (List Int)
  n : Int32
  bestOf : Int32
  frequencyPenalty : F
  presencePenalty : F
  repetitionPenalty : F
  temperature : F
  topP : F
  topK : Int64
  logprobs : Bool
  topLogprobs : Int64
  isEmbeddings : Bool
  echo : Bool
  skipSpecialTokens : Bool
  promptTokens : List Int
  offline : Bool := false
  ttltSloMs : Option Int32 := none
  priority : Option RequestPriority := none
  ttftSloMs : Option Int32 := none
  tpotSloMs : Option Int32 := none
  tpotPriorityWeight : Option Int32 := none
  ttftPriorityWeight : Option Int32 := none
  ttltPriorityWeight : Option Int32 := none
  priorityWeight : Option Int32 := none
  sourceXserviceAddr : String
  includeStopStrInOutput : Bool
  jsonObject : Bool
  jsonReasoningEnabled : Bool
  reservationId : String

namespace DisaggPDScheduler

/-- The message `dispatch_requests` fills for a request. -/
def disaggRequest (request : Request F G) : DisaggRequest F :=
  let state := request.state
  { reqId := request.requestId
    reservationId := request.pdReservationId
    serviceReqId := request.serviceRequestId
    sourceXserviceAddr := request.sourceXserviceAddr
    tokensNum := Int64.ofNat state.promptTokens.length
    prompt := state.prompt
    promptTokens := state.promptTokens
    stream := state.stream
    xRequestId := request.xRequestId
    xRequestTime := request.xRequestTime
    seqCapacity := int32OfSize state.seqCapacity
    maxTokens := int32OfSize state.stoppingChecker.maxGeneratedTokens
    maxContextLen := int32OfSize state.stoppingChecker.maxContextLen
    ignoreEos := state.stoppingChecker.ignoreEos
    eosTokenId := state.stoppingChecker.eosToken
    stopTokenIds := state.stoppingChecker.stopTokens
    stopSequences := state.stoppingChecker.stopSequences
    n := int32OfSize state.n
    bestOf := int32OfSize state.bestOf
    frequencyPenalty := state.samplingParam.frequencyPenalty
    presencePenalty := state.samplingParam.presencePenalty
    repetitionPenalty := state.samplingParam.repetitionPenalty
    temperature := state.samplingParam.temperature
    topP := state.samplingParam.topP
    topK := state.samplingParam.topK
    logprobs := state.samplingParam.logprobs
    topLogprobs := state.samplingParam.topLogprobs
    isEmbeddings := state.samplingParam.isEmbeddings
    echo := state.echo
    skipSpecialTokens := state.skipSpecialTokens
    includeStopStrInOutput := state.includeStopStrInOutput
    jsonObject := state.samplingParam.jsonObject
    jsonReasoningEnabled := state.jsonReasoningEnabled }

end DisaggPDScheduler

/-- Why the decode instance builds no request. -/
inductive GenerateError
  | prefixCacheDisabled
  | jsonObjectGrammar (error : String)
  | bestOfLessThanN
  deriving DecidableEq, Repr

namespace DisaggPDServiceImpl

def samplingParam (req : DisaggRequest F) : RequestSamplingParam F :=
  { frequencyPenalty := req.frequencyPenalty
    presencePenalty := req.presencePenalty
    repetitionPenalty := req.repetitionPenalty
    temperature := req.temperature
    topP := req.topP
    topK := req.topK
    logprobs := req.logprobs
    topLogprobs := req.topLogprobs
    isEmbeddings := req.isEmbeddings
    jsonObject := req.jsonObject }

def schedulerParam (req : DisaggRequest F) : SchedulerParam :=
  let priority := req.priority.getD .default
  if req.offline then { offline := true, priority }
  else
    { offline := false
      priority
      ttftSloMs := req.ttftSloMs.getD 0
      tpotSloMs := req.tpotSloMs.getD 0
      ttltSloMs := req.ttltSloMs.getD 0
      tpotPriorityWeight := req.tpotPriorityWeight.getD 0
      ttftPriorityWeight := req.ttftPriorityWeight.getD 0
      ttltPriorityWeight := req.ttltPriorityWeight.getD 0
      priorityWeight := req.priorityWeight.getD 0 }

def stoppingChecker (req : DisaggRequest F) : StoppingChecker :=
  { maxGeneratedTokens := sizeOfInt32 req.maxTokens
    maxContextLen := sizeOfInt32 req.maxContextLen
    eosToken := req.eosTokenId
    ignoreEos := req.ignoreEos
    stopTokens := req.stopTokenIds
    stopSequences := req.stopSequences }

/-- The grammar fields. An instance that does not constrain JSON takes the request without. -/
def jsonSettings (config : FactoryConfig G) (req : DisaggRequest F) :
    Except GenerateError (Option G × Bool) :=
  if req.jsonObject && config.enableJsonObjectOutput then
    match config.jsonObjectGrammar req.jsonReasoningEnabled with
    | .error grammarError => .error (.jsonObjectGrammar grammarError)
    | .ok grammar => .ok (some grammar, req.jsonReasoningEnabled)
  else .ok (none, false)

def generateRequest (config : FactoryConfig G) (enablePrefixCache : Bool)
    (req : DisaggRequest F) : Except GenerateError (Request F G) :=
  if 1 < req.bestOf && !enablePrefixCache then .error .prefixCacheDisabled
  else if h : sizeOfInt32 req.n ≤ sizeOfInt32 req.bestOf then do
    let (grammar, reasoningEnabled) ← jsonSettings config req
    .ok
      { requestId := req.reqId
        xRequestId := req.xRequestId
        xRequestTime := req.xRequestTime
        serviceRequestId := req.serviceReqId
        sourceXserviceAddr := req.sourceXserviceAddr
        pdReservationId := req.reservationId
        state :=
          { prompt := req.prompt
            promptTokens := req.promptTokens
            samplingParam := samplingParam req
            schedulerParam := schedulerParam req
            stoppingChecker := stoppingChecker req
            seqCapacity := sizeOfInt32 req.seqCapacity
            n := sizeOfInt32 req.n
            bestOf := sizeOfInt32 req.bestOf
            logprobs := req.logprobs
            stream := req.stream
            echo := req.echo
            skipSpecialTokens := req.skipSpecialTokens
            enableScheduleOverlap := config.enableScheduleOverlap
            includeStopStrInOutput := req.includeStopStrInOutput
            jsonObjectGrammar := grammar
            jsonReasoningEnabled := reasoningEnabled
            n_le_bestOf := h } }
  else .error .bestOfLessThanN

end DisaggPDServiceImpl

end Xllm.Scheduler.Disagg
