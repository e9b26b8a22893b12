import Xllm.Lib.Run
import Xllm.Scheduler.ResponseSequence

/-!
# The response processor

`AsyncResponseProcessor` (`core/scheduler/async_response_processor.cpp`) turns the notifications of the
scheduler into tasks. Every request has a response thread of its own choosing, which runs the tasks
of its queue in order. Without batched responses such a task calls the client back itself. With them,
and for a request of the service, the tasks of one notification each fill one output, and a task of the
single RPC thread waits for them all and sends them together. A failure is always sent by the
response thread.

`Processor.step` is one atomic step: an append of tokens, a notification, a cancellation, the next
task of a response thread or of the RPC thread. An output that an RPC task will send is a slot, which
is empty until its task has run, and then holds an output or none.
-/

namespace Xllm.Scheduler.Response

open Xllm.Lib
open Xllm.Request (Status StatusCode)

/-- A task of a response thread. The batched ones fill a slot. -/
inductive Task where
  | stream (request : Nat) (indexes : List Nat)
  | completed (request : Nat)
  | failed (request : Nat) (status : Status)
  | batchedStream (request : Nat) (indexes : List Nat) (slot : Nat)
  | batchedCompleted (request : Nat) (slot : Nat)

def Task.request : Task → Nat
  | .stream request _ | .completed request | .failed request _ | .batchedStream request _ _
  | .batchedCompleted request _ => request

/-- A task of the RPC thread, with the requests and the slots of its outputs. -/
structure RpcTask where
  stream : Bool
  entries : List (Nat × Nat)

/-- The processor with its clients. -/
structure State (D : Type) where
  requests : Nat → Request D
  responseQueues : Nat → List Task
  nextThread : Nat
  rpcQueue : List RpcTask
  slots : Nat → Option (Option RequestOutput)
  nextSlot : Nat
  cancelQueue : List Nat
  /-- What the callbacks of a request have received, in order. -/
  received : Nat → List RequestOutput

/-- What the scheduler, the threads and the clients do. The clients' answers come with the tasks that
call them. -/
inductive Action where
  | append (request index : Nat) (token : Int) (finish : Option (String × Nat))
  | commit (request index : Nat) (tokens : List Int) (finish : Option (String × Nat))
  | fail (request : Nat) (status : Status)
  | cancel (request : Nat)
  | notifyStream (requests : List Nat)
  | notifyCompleted (requests : List Nat)
  | notifyFailed (request : Nat) (status : Status)
  | respond (thread : Nat) (goesOn : Bool)
  | rpc (goOn : Nat → Bool)

/-- `AsyncResponseProcessor`, with the tokenizer it draws with. -/
structure Processor (D : Type) where
  tokenizer : Detokenizer D
  numResponseThreads : Nat
  numResponseThreads_pos : 0 < numResponseThreads
  enableBatchResponse : Bool

/-- Nothing is left to do. -/
def State.Idle {D : Type} (s : State D) : Prop :=
  (∀ thread, s.responseQueues thread = []) ∧ s.rpcQueue = []

namespace Processor

variable {D : Type} (p : Processor D)

def updateRequest (s : State D) (request : Nat) (req : Request D) : State D :=
  { s with requests := Function.update s.requests request req }

/-- The output function of a request is called. -/
def outputFunc (s : State D) (request : Nat) (output : RequestOutput) : State D :=
  { s with received := Function.update s.received request (s.received request ++ [output]) }

/-- `cancel_request_`. -/
def cancelRequest (s : State D) (request : Nat) : State D :=
  { s with cancelQueue := s.cancelQueue ++ [request] }

def batched (s : State D) (request : Nat) : Bool :=
  p.enableBatchResponse && (s.requests request).serviceRequestId ≠ ""

/-- `schedule` for the first task of a request, `schedule_with_tid` for the later ones. -/
def schedule (s : State D) (request : Nat) (task : Task) : State D :=
  match (s.requests request).responseThreadId with
  | some thread =>
    { s with
      responseQueues :=
        Function.update s.responseQueues thread (s.responseQueues thread ++ [task]) }
  | none =>
    { s with
      requests := Function.update s.requests request
        { s.requests request with responseThreadId := some s.nextThread }
      responseQueues :=
        Function.update s.responseQueues s.nextThread (s.responseQueues s.nextThread ++ [task])
      nextThread := (s.nextThread + 1) % p.numResponseThreads }

/-! ## Notifications -/

/-- `process_stream_request`. -/
def processStreamRequest (s : State D) (request : Nat) : Except ResponseCheck (State D) :=
  let req := s.requests request
  if !req.stream then .error .notStreaming
  else
    let s := updateRequest s request req.closeFinished
    if req.sequences.all Sequence.closed then .ok s
    else .ok (p.schedule s request (.stream request req.streamIndexes))

/-- One turn of the loop of `batch_process_stream_requests`: the task fills the next slot. -/
def batchStreamRequest (turn : State D × List (Nat × Nat)) (request : Nat) :
    Except ResponseCheck (State D × List (Nat × Nat)) :=
  let req := turn.1.requests request
  if !req.stream then .error .notStreaming
  else
    let slot := turn.1.nextSlot
    let s := updateRequest { turn.1 with nextSlot := slot + 1 } request req.closeFinished
    .ok (p.schedule s request (.batchedStream request req.streamIndexes slot),
      turn.2 ++ [(request, slot)])

/-- `process_completed_request`, for a terminal response. -/
def processCompletedRequest (s : State D) (request : Nat) : State D :=
  let s := updateRequest s request { s.requests request with terminalRequested := true }
  p.schedule s request (.completed request)

/-- One turn of the loop of `batch_process_completed_requests`, for terminal responses. -/
def batchCompletedRequest (turn : State D × List (Nat × Nat)) (request : Nat) :
    State D × List (Nat × Nat) :=
  let slot := turn.1.nextSlot
  let s := updateRequest { turn.1 with nextSlot := slot + 1 } request
    { turn.1.requests request with terminalRequested := true }
  (p.schedule s request (.batchedCompleted request slot), turn.2 ++ [(request, slot)])

/-- The RPC task of a notification is scheduled, unless no request was batched. -/
def scheduleRpc (stream : Bool) (turn : State D × List (Nat × Nat)) : State D :=
  if turn.2 = [] then turn.1
  else { turn.1 with rpcQueue := turn.1.rpcQueue ++ [{ stream, entries := turn.2 }] }

/-- `process_stream_requests`. -/
def processStreamRequests (s : State D) (requests : List Nat) : Except ResponseCheck (State D) := do
  let single := requests.filter fun request => !p.batched s request
  let service := requests.filter fun request => p.batched s request
  let s ← single.foldlM p.processStreamRequest s
  let turn ← service.foldlM p.batchStreamRequest (s, [])
  return scheduleRpc true turn

/-- `process_completed_requests`, for terminal responses. -/
def processCompletedRequests (s : State D) (requests : List Nat) : State D :=
  let single := requests.filter fun request => !p.batched s request
  let service := requests.filter fun request => p.batched s request
  let s := single.foldl p.processCompletedRequest s
  scheduleRpc false (service.foldl p.batchCompletedRequest (s, []))

/-- `process_failed_request`, with a response. -/
def processFailedRequest (s : State D) (request : Nat) (status : Status) : State D :=
  let s := updateRequest s request { s.requests request with terminalRequested := true }
  p.schedule s request (.failed request status)

/-! ## Tasks -/

/-- `prepare_completed_output`, for a terminal response: the output, if it has claimed the
outcome. -/
def prepareCompletedOutput (requestId : Nat) (req : Request D) :
    Option RequestOutput × Request D :=
  if req.hasTerminalOutcome then (none, req)
  else
    let output := req.generateOutput p.tokenizer requestId
    let claimed := req.claimTerminalOutcome output.status
    if claimed.1 then (some output, claimed.2) else (none, claimed.2)

/-- The response of `process_failed_request`, if it has claimed the outcome. -/
def prepareFailedOutput (requestId : Nat) (req : Request D) (status : Status) :
    Option RequestOutput × Request D :=
  let claimed := req.claimTerminalOutcome (some status)
  if claimed.1 then
    (some
      { requestId
        serviceRequestId := req.serviceRequestId
        targetXserviceAddr := req.sourceXserviceAddr
        status := some status }, claimed.2)
  else (none, claimed.2)

def answer (s : State D) (request : Nat) : Option RequestOutput → State D
  | none => s
  | some output => outputFunc s request output

def fillSlot (s : State D) (slot : Nat) (output : Option RequestOutput) : State D :=
  { s with slots := Function.update s.slots slot (some output) }

def runTask (s : State D) (goesOn : Bool) : Task → Except ResponseCheck (State D)
  | .stream request indexes => do
    let drawn ← (s.requests request).drawStream p.tokenizer indexes
    let s := updateRequest s request drawn.2
    let s := outputFunc s request { requestId := request, outputs := drawn.1 }
    return if goesOn then s else cancelRequest s request
  | .completed request =>
    let prepared := p.prepareCompletedOutput request (s.requests request)
    .ok (answer (updateRequest s request prepared.2) request prepared.1)
  | .failed request status =>
    let prepared := prepareFailedOutput request (s.requests request) status
    .ok (answer (updateRequest s request prepared.2) request prepared.1)
  | .batchedStream request indexes slot => do
    let req := s.requests request
    let drawn ← req.drawStream p.tokenizer indexes
    let onPrefill := indexes.any fun index => req.sequences[index]?.any fun seq =>
      seq.tokens.length - seq.numPromptTokens == 1
    let output : RequestOutput :=
      { requestId := request
        serviceRequestId := req.serviceRequestId
        targetXserviceAddr := req.sourceXserviceAddr
        outputs := drawn.1
        finishedOnPrefillInstance := onPrefill }
    return fillSlot (updateRequest s request drawn.2) slot (some output)
  | .batchedCompleted request slot =>
    let prepared := p.prepareCompletedOutput request (s.requests request)
    .ok (fillSlot (updateRequest s request prepared.2) slot prepared.1)

def respond (s : State D) (thread : Nat) (goesOn : Bool) : Except ResponseCheck (State D) :=
  match s.responseQueues thread with
  | [] => .error .queueEmpty
  | task :: tasks =>
    p.runTask { s with responseQueues := Function.update s.responseQueues thread tasks } goesOn task

/-- The callback of the service takes the outputs of a notification, each for its client. -/
def sendOutputs (s : State D) : List (Nat × Nat) → State D
  | [] => s
  | (request, slot) :: entries => sendOutputs (answer s request (s.slots slot).join) entries

/-- The requests whose clients have stopped. -/
def cancelStopped (s : State D) (goOn : Nat → Bool) (entries : List (Nat × Nat)) : State D :=
  { s with
    cancelQueue := s.cancelQueue ++
      (entries.zipIdx.filter fun (_, i) => !goOn i).map fun (entry, _) => entry.1 }

/-- The next task of the RPC thread, which waits for the counter of its outputs. -/
def rpc (s : State D) (goOn : Nat → Bool) : Except ResponseCheck (State D) :=
  match s.rpcQueue with
  | [] => .error .queueEmpty
  | task :: tasks =>
    if task.entries.all fun (_, slot) => (s.slots slot).isSome then
      let s := sendOutputs { s with rpcQueue := tasks } task.entries
      -- what the callback answers to completed requests is not looked at
      .ok (if task.stream then cancelStopped s goOn task.entries else s)
    else
      .error .counterWaits

/-! ## Steps -/

/-- The scheduler changes a sequence of a request that has not failed. -/
def updateSequence (s : State D) (request index : Nat)
    (f : Sequence D → Except ResponseCheck (Sequence D)) : Except ResponseCheck (State D) :=
  let req := s.requests request
  if req.errorStatus.isSome then .error .finishedSequence
  else
    match req.sequences[index]? with
    | none => .error .outOfRange
    | some seq => do
      let seq ← f seq
      return updateRequest s request { req with sequences := req.sequences.set index seq }

def step (s : State D) : Action → Except ResponseCheck (State D)
  | .append request index token finish =>
    updateSequence s request index fun seq => seq.appendToken token finish
  | .commit request index tokens finish =>
    updateSequence s request index fun seq => seq.updateLastStepTokens tokens finish
  | .fail request status =>
    let req := s.requests request
    -- the first failure of a request is kept
    .ok (updateRequest s request
      { req with errorStatus := req.errorStatus.orElse fun _ => some status })
  | .cancel request =>
    .ok (updateRequest { s with cancelQueue := s.cancelQueue.erase request } request
      { s.requests request with cancelled := true })
  | .notifyStream requests => p.processStreamRequests s requests
  | .notifyCompleted requests => .ok (p.processCompletedRequests s requests)
  | .notifyFailed request status => .ok (p.processFailedRequest s request status)
  | .respond thread goesOn => p.respond s thread goesOn
  | .rpc goOn => rpc s goOn

end Processor

end Xllm.Scheduler.Response
