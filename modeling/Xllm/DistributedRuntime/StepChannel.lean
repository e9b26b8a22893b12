import Mathlib.Logic.Function.Basic
import Xllm.DistributedRuntime.ForwardSharedMemory
import Xllm.Lib.Run

/-!
# A step of the engine over its workers' channels

`LLMEngine::step` schedules one task on the thread of every worker's channel and waits for all
their promises. The channel of a worker on the engine's host is a `ShmChannel`: the driver's, the
first of its DP group, writes the input into the segment that the workers of the group share, and
each channel waits for the output segment of its own worker. A driver whose input does not fit
falls back to the RPC, for this step and for good. Every other worker has a `CommChannel`, which
always uses the RPC. On the host each worker has a polling thread
(`WorkerService::create_polling_shm_thread`), and every worker answers RPCs.

`Deployment.step` lets one party take one atomic step: the engine, the thread of a channel, the
polling thread of a worker, or the RPC with the worker behind it. An iteration of a waiting loop
that finds nothing new is no step.
-/

namespace Xllm.DistributedRuntime

/-- What the channels and the workers of an engine are built from. The worker of a rank is
`forward`: the output that its `step` computes on an input after all that it has executed. -/
structure Deployment (Input Output : Type) where
  dpSize : Nat
  dpLocalSize : Nat
  dpLocalSize_pos : 0 < dpLocalSize
  /-- The worker has the engine's address, and shared memory is enabled. -/
  onHost : Nat → Bool
  inputShmSize : Nat
  outputShmSize : Nat
  inputPayloadSize : Input → Nat
  rawOutputPayloadSize : Output → Nat
  forward : Nat → List (Input × Output) → Input → Output

/-- Where the thread of a channel stands in `execute_model_async`. -/
inductive ChannelPhase (Input : Type) where
  | idle
  | inputWrite (input : Input)
  | inputPublish
  | outputWait
  | outputRead

inductive PollingPhase (Input Output : Type) where
  | inputWait
  | inputRead
  | step (input : Input)
  | outputWrite (output : Output)
  | outputPublish
  | aborted

/-- The `ExecuteModel` RPC of a worker: none, a request on its way, a reply on its way. -/
inductive RpcPhase (Input Output : Type) where
  | none
  | request (input : Input)
  | reply (output : Output)

/-- A worker with its channel and its output segment, with the versions that the managers on both
sides saw or wrote last. `returned` is what the promises of the channel were given and `history`
what the worker has executed, both in their order. -/
structure Lane (V Input Output : Type) where
  tasks : List Input
  channel : ChannelPhase Input
  enableShm : Bool
  inputWritten : V
  outputSeen : V
  returned : List Output
  rpc : RpcPhase Input Output
  polling : PollingPhase Input Output
  inputSeen : V
  outputWritten : V
  output : Segment V Output
  history : List (Input × Output)

/-- Where the engine stands in `LLMEngine::step`. -/
inductive EnginePhase where
  | idle
  | scheduling (workerRank : Nat)
  | collecting

structure State (V Input Output : Type) where
  stepNo : Nat
  engine : EnginePhase
  lanes : Nat → Lane V Input Output
  inputs : Nat → Segment V Input

inductive Party where
  | engine
  | channel (workerRank : Nat)
  | polling (workerRank : Nat)
  | rpc (workerRank : Nat)

inductive Blocked where
  | nothingToDo
  | waiting
  | unwritten

namespace Deployment

variable {V Input Output : Type} (d : Deployment Input Output)

/-- `worker_clients_num_`. -/
def workerClientsNum : Nat := d.dpSize * d.dpLocalSize

/-- `worker_rank / dp_local_size_`. -/
def dpRank (workerRank : Nat) : Nat := workerRank / d.dpLocalSize

/-- The rank with `r % dp_local_tp_size == 0` of a DP group. -/
def driver (dpRank : Nat) : Nat := dpRank * d.dpLocalSize

def IsDriver (workerRank : Nat) : Prop := workerRank % d.dpLocalSize = 0

instance (workerRank : Nat) : Decidable (d.IsDriver workerRank) :=
  inferInstanceAs (Decidable (_ = 0))

/-- The check of `input_write`. -/
def InputFits (input : Input) : Prop :=
  inputTotalSize (d.inputPayloadSize input) ≤ d.inputShmSize

instance (input : Input) : Decidable (d.InputFits input) := inferInstanceAs (Decidable (_ ≤ _))

/-- The check of `raw_output_write`. -/
def RawOutputFits (output : Output) : Prop :=
  rawOutputTotalSize (d.rawOutputPayloadSize output) ≤ d.outputShmSize

instance (output : Output) : Decidable (d.RawOutputFits output) :=
  inferInstanceAs (Decidable (_ ≤ _))

def newLane [OfNat V 0] (workerRank : Nat) : Lane V Input Output where
  tasks := []
  channel := .idle
  enableShm := d.onHost workerRank
  inputWritten := 0
  outputSeen := 0
  returned := []
  rpc := .none
  polling := .inputWait
  inputSeen := 0
  outputWritten := 0
  output := .zeroed
  history := []

def start [OfNat V 0] : State V Input Output where
  stepNo := 0
  engine := .idle
  lanes := d.newLane
  inputs := fun _ => .zeroed

/-- The thread of a channel: `execute_model_async` of `ShmChannel`, and of `CommChannel` where
shared memory is not enabled. -/
def channelStep [DecidableEq V] [Add V] [OfNat V 1] (workerRank : Nat) (seg : Segment V Input)
    (lane : Lane V Input Output) : Except Blocked (Segment V Input × Lane V Input Output) :=
  match lane.channel with
  | .idle =>
    match lane.tasks with
    | [] => .error .nothingToDo
    | input :: tasks =>
      if lane.enableShm then
        -- only the driver's channel has an `input_shm_manager_`
        if d.IsDriver workerRank then
          .ok (seg, { lane with tasks := tasks, channel := .inputWrite input })
        else
          .ok (seg, { lane with tasks := tasks, channel := .outputWait })
      else
        .ok (seg, { lane with tasks := tasks, rpc := .request input })
  | .inputWrite input =>
    if d.InputFits input then
      .ok (seg.serialize input, { lane with channel := .inputPublish })
    else
      -- "write failed, fallback to brpc"
      .ok (seg, { lane with enableShm := false, channel := .idle, rpc := .request input })
  | .inputPublish =>
    .ok (seg.publish lane.inputWritten,
      { lane with inputWritten := lane.inputWritten + 1, channel := .outputWait })
  | .outputWait =>
    if lane.output.Fresh lane.outputSeen then
      .ok (seg, { lane with outputSeen := lane.output.version, channel := .outputRead })
    else
      .error .waiting
  | .outputRead =>
    match lane.output.payload with
    | none => .error .unwritten
    | some output =>
      .ok (seg, { lane with returned := lane.returned ++ [output], channel := .idle })

/-- The polling thread of a worker on the host. -/
def pollingStep [DecidableEq V] [Add V] [OfNat V 1] (workerRank : Nat) (seg : Segment V Input)
    (lane : Lane V Input Output) : Except Blocked (Lane V Input Output) :=
  match lane.polling with
  | .inputWait =>
    if seg.Fresh lane.inputSeen then
      .ok { lane with inputSeen := seg.version, polling := .inputRead }
    else
      .error .waiting
  | .inputRead =>
    match seg.payload with
    | none => .error .unwritten
    | some input => .ok { lane with polling := .step input }
  | .step input =>
    let output := d.forward workerRank lane.history input
    .ok { lane with history := lane.history ++ [(input, output)], polling := .outputWrite output }
  | .outputWrite output =>
    if d.RawOutputFits output then
      .ok { lane with output := lane.output.serialize output, polling := .outputPublish }
    else
      -- "Worker output shared memory write failed."
      .ok { lane with polling := .aborted }
  | .outputPublish =>
    .ok { lane with
      output := lane.output.publish lane.outputWritten
      outputWritten := lane.outputWritten + 1
      polling := .inputWait }
  | .aborted => .error .nothingToDo

/-- The RPC: the worker runs the step, and its output reaches the promise. -/
def rpcStep (workerRank : Nat) (lane : Lane V Input Output) :
    Except Blocked (Lane V Input Output) :=
  match lane.rpc with
  | .none => .error .nothingToDo
  | .request input =>
    let output := d.forward workerRank lane.history input
    .ok { lane with history := lane.history ++ [(input, output)], rpc := .reply output }
  | .reply output => .ok { lane with returned := lane.returned ++ [output], rpc := .none }

/-- The engine: `step` is called with the next forward inputs, schedules the task of one worker
after the other, and returns when every future of this step has its value. -/
def engineStep (steps : List (Nat → Input)) (s : State V Input Output) :
    Except Blocked (State V Input Output) :=
  match s.engine with
  | .idle =>
    if s.stepNo < steps.length then .ok { s with engine := .scheduling 0 }
    else .error .nothingToDo
  | .scheduling workerRank =>
    if workerRank < d.workerClientsNum then
      match steps[s.stepNo]? with
      | none => .error .nothingToDo
      | some forwardInputs =>
        let lane := s.lanes workerRank
        .ok { s with
          engine := .scheduling (workerRank + 1)
          lanes := Function.update s.lanes workerRank
            { lane with tasks := lane.tasks ++ [forwardInputs (d.dpRank workerRank)] } }
    else
      .ok { s with engine := .collecting }
  | .collecting =>
    if ∀ r < d.workerClientsNum, (s.lanes r).returned.length = s.stepNo + 1 then
      .ok { s with stepNo := s.stepNo + 1, engine := .idle }
    else
      .error .waiting

/-- One atomic step of one party. -/
def step [DecidableEq V] [Add V] [OfNat V 1] (steps : List (Nat → Input))
    (s : State V Input Output) : Party → Except Blocked (State V Input Output)
  | .engine => d.engineStep steps s
  | .channel r =>
    if r < d.workerClientsNum then do
      let next ← d.channelStep r (s.inputs (d.dpRank r)) (s.lanes r)
      return { s with
        inputs := Function.update s.inputs (d.dpRank r) next.1
        lanes := Function.update s.lanes r next.2 }
    else
      .error .nothingToDo
  | .polling r =>
    -- `prepare_shm` gives a worker its managers only on the host
    if r < d.workerClientsNum ∧ d.onHost r then do
      let lane ← d.pollingStep r (s.inputs (d.dpRank r)) (s.lanes r)
      return { s with lanes := Function.update s.lanes r lane }
    else
      .error .nothingToDo
  | .rpc r =>
    if r < d.workerClientsNum then do
      let lane ← d.rpcStep r (s.lanes r)
      return { s with lanes := Function.update s.lanes r lane }
    else
      .error .nothingToDo

end Deployment

/-- The engine has returned from its last step. -/
def State.Finished {V Input Output : Type} (steps : List (Nat → Input))
    (s : State V Input Output) : Prop :=
  s.engine = .idle ∧ s.stepNo = steps.length

end Xllm.DistributedRuntime
