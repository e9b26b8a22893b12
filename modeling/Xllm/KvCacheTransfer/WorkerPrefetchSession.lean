import Xllm.KvCacheTransfer.PrefetchResult
import Xllm.Lib.Run
import Xllm.Lib.Tally

/-!
# The prefetch session of a worker

`core/distributed_runtime/worker_prefetch_session.cpp`: a worker fetches the units of one request batch
by batch, writes the hits of every batch to a stream, and goes on to the next batch, or closes the
stream, when it is told to.

Five entry points and the tasks of a pool run at the same time. What a thread does under the mutex is
one step, and so is each callback (`get`, `write`, `close`); between two steps of a thread anything may
happen. A thread is a *call*, and `Label.resume` is its next step, with what the callback answers.
`log` is history that no section reads.

The statistics and their clocks, what the report contains and the references that keep the session
alive are not modelled.
-/

namespace Xllm.Framework

open Xllm.Lib

/-- The byte of a control message, if it is one of the enumeration. -/
def PrefetchControl.ofByte (byte : UInt8) : Option PrefetchControl :=
  if byte = 0 then some .continue else if byte = 1 then some .stop else none

/-- What a session is made of; `hasNonGated` is that bit of the units. -/
structure SessionConfig where
  request : StoragePrefetchRequest
  hasNonGated : Nat → Bool := fun _ => false
  batchSize : Nat
  statsPool : Bool := true
  request_valid : request.valid = true
  batchSize_pos : 0 < batchSize

/-! ## The result of a batch -/

/-- The hits of the units, in their order: the gated blocks of a unit come before the others. -/
def unitHits (hasNonGated : Nat → Bool) : Nat → List PrefetchUnit → List UInt8 → List (Bool × Bool)
  | _, [], _ => []
  | index, unit :: units, hits =>
    let gated := hits.take unit.gatedBlocks.length
    let hits := hits.drop unit.gatedBlocks.length
    let nonGated := hits.take unit.nonGatedBlocks.length
    let gatedHit := gated.all (· ≠ 0)
    let nonGatedHit :=
      if hasNonGated index then unit.nonGatedBlocks ≠ [] && nonGated.all (· ≠ 0) else true
    (gatedHit, nonGatedHit) ::
      unitHits hasNonGated (index + 1) units (hits.drop unit.nonGatedBlocks.length)

/-- What is written to the stream: a byte for each unit of the batch, and zeros. -/
structure BatchFrame where
  gatedHits : List UInt8
  nonGatedHits : List UInt8
  deriving DecidableEq, Repr

namespace SessionConfig

variable (cfg : SessionConfig)

def batchCount : Nat := cfg.request.batchCount cfg.batchSize

def batchUnits (batchIndex : Nat) : Except PrefetchCheck (List PrefetchUnit) := do
  let unitBegin ← cfg.request.batchUnitBegin batchIndex cfg.batchSize
  let unitCount ← cfg.request.batchUnitCount batchIndex cfg.batchSize
  .ok ((cfg.request.units.drop unitBegin).take unitCount)

def transferCount (units : List PrefetchUnit) : Nat :=
  (units.map fun unit => unit.gatedBlocks.length + unit.nonGatedBlocks.length).sum

/-- The bytes of one of the two vectors. -/
def padded (hits : List Bool) : List UInt8 :=
  hits.map (fun hit => if hit then 1 else 0) ++ List.replicate (cfg.batchSize - hits.length) 0

/-- Whether every gated unit hit, and the frame; there is none when `get` answers for another number
of transfers. -/
def batchResult (batchIndex : Nat) (units : List PrefetchUnit) (transferHits : List UInt8) :
    Bool × Option BatchFrame :=
  if transferHits.length = transferCount units then
    let hits := unitHits cfg.hasNonGated (batchIndex * cfg.batchSize) units transferHits
    (hits.all (·.1), some ⟨cfg.padded (hits.map (·.1)), cfg.padded (hits.map (·.2))⟩)
  else (false, none)

end SessionConfig

/-! ## The session -/

/-- `State`. -/
inductive SessionState
  | created
  | runningBatch
  | waitingDecision
  | completed
  | failed
  | closed
  deriving DecidableEq, Repr

/-- Who finishes the session. -/
inductive Finisher
  | batch
  | stream
  | shutdown
  deriving DecidableEq, Repr

/-- Where a thread is between two steps. -/
inductive SessionCall
  /-- `schedule_batch` is about to take the mutex. -/
  | scheduling
  /-- `run_batch` is in the pool. -/
  | queued
  | fetching (batchIndex : Nat) (units : List PrefetchUnit)
  | fetched (batchIndex : Nat) (units : List PrefetchUnit) (transferHits : List UInt8)
  | writing (batchIndex : Nat) (frame : BatchFrame) (closeAfterResult : Bool)
  /-- `finish` is about to take the mutex. -/
  | finishing (streamId : Option Nat) (failed : Bool) (finisher : Finisher)
  | closing (streamId : Option Nat) (finisher : Finisher)
  /-- `finish` is about to take the mutex again. -/
  | closed (finisher : Finisher)
  /-- `shutdown` waits until the stream is closed. -/
  | waiting
  deriving DecidableEq, Repr

inductive SessionEvent
  | fetch (batchIndex : Nat) (units : List PrefetchUnit) (transferHits : List UInt8)
  /-- A fetched batch was gated to its end, or was not. -/
  | gated (batchIndex : Nat) (complete : Bool)
  /-- A CONTINUE moved on to this batch. -/
  | continued (batchIndex : Nat)
  | write (batchIndex : Nat) (frame : BatchFrame) (ok : Bool)
  | close (streamId : Option Nat)
  | report
  deriving DecidableEq, Repr

structure WorkerPrefetchSession where
  streamId : Option Nat := none
  batchIndex : Nat := 0
  lastBatchGateComplete : Bool := false
  stopAfterBatch : Bool := false
  batchRunning : Bool := false
  finished : Bool := false
  failed : Bool := false
  streamClosed : Bool := false
  reportScheduled : Bool := false
  state : SessionState := .created
  calls : Table Nat SessionCall := ∅
  shutdownReturned : Bool := false
  log : List SessionEvent := []

namespace WorkerPrefetchSession

def goOn (s : WorkerPrefetchSession) (id : Nat) (call : SessionCall) : WorkerPrefetchSession :=
  { s with calls := s.calls.insert id call }

def endCall (s : WorkerPrefetchSession) (id : Nat) : WorkerPrefetchSession :=
  { s with calls := s.calls.erase id }

def record (s : WorkerPrefetchSession) (event : SessionEvent) : WorkerPrefetchSession :=
  { s with log := s.log ++ [event] }

/-! ### Sections -/

def start (s : WorkerPrefetchSession) (id streamId : Nat) : WorkerPrefetchSession :=
  if s.finished ∨ s.state ≠ .created then s
  else { s with streamId := some streamId, state := .runningBatch }.goOn id .scheduling

/-- `shutdown` up to `finish`. -/
def shutdown (s : WorkerPrefetchSession) (id : Nat) : WorkerPrefetchSession :=
  s.goOn id (.finishing s.streamId true .shutdown)

/-- `on_received_messages` up to `schedule_batch` or `finish`, and what it is going to return. -/
def onReceivedMessages (cfg : SessionConfig) (s : WorkerPrefetchSession) (id streamId : Nat)
    (messages : List (List UInt8)) : WorkerPrefetchSession × Int :=
  match messages with
  | [[controlByte]] =>
    let control := PrefetchControl.ofByte controlByte
    let failure := (s.goOn id (.finishing (some streamId) true .stream),
      if control ≠ some .stop then -1 else 0)
    if s.finished then (s, 0)
    else if s.state = .runningBatch ∧ control = some .stop then ({ s with stopAfterBatch := true }, 0)
    else if s.state ≠ .waitingDecision then failure
    else if control = some .stop then (s.goOn id (.finishing (some streamId) false .stream), 0)
    else if control = some .continue ∧ s.lastBatchGateComplete ∧
        s.batchIndex + 1 < cfg.batchCount then
      (({ s with batchIndex := s.batchIndex + 1, state := .runningBatch }.record
        (.continued (s.batchIndex + 1))).goOn id .scheduling, 0)
    else failure
  | _ => (s.goOn id (.finishing (some streamId) true .stream), -1)

/-- `report_ready`. -/
def reportReady (cfg : SessionConfig) (s : WorkerPrefetchSession) : WorkerPrefetchSession :=
  if cfg.statsPool = false ∨ s.streamClosed = false ∨ s.batchRunning ∨ s.reportScheduled then s
  else { s with reportScheduled := true }.record .report

def onClosed (cfg : SessionConfig) (s : WorkerPrefetchSession) : WorkerPrefetchSession :=
  let s := if s.finished then s else { s with finished := true, failed := true }
  { s with state := .closed, streamClosed := true }.reportReady cfg

/-- The second section of `run_batch`. -/
def batchFetched (cfg : SessionConfig) (s : WorkerPrefetchSession) (id batchIndex : Nat)
    (units : List PrefetchUnit) (transferHits : List UInt8) : WorkerPrefetchSession :=
  let s := { s with batchRunning := false }
  if s.finished then (s.reportReady cfg).endCall id
  else
    let (gateComplete, frame) := cfg.batchResult batchIndex units transferHits
    let closeAfterResult := s.stopAfterBatch
    let s := { s with
      lastBatchGateComplete := gateComplete
      state := if closeAfterResult then .completed else .waitingDecision }.record
        (.gated batchIndex gateComplete)
    match frame with
    | none => s.goOn id (.finishing s.streamId true .batch)
    | some frame => s.goOn id (.writing batchIndex frame closeAfterResult)

/-- What the caller of `finish` does when it returns. -/
def finishReturns (s : WorkerPrefetchSession) (id : Nat) : Finisher → WorkerPrefetchSession
  | .shutdown => s.goOn id .waiting
  | _ => s.endCall id

/-! ### Steps -/

inductive Answer
  | nothing
  | hits (transferHits : List UInt8)
  | status (code : Int)

/-- Why a label is not taken: the state does not allow it, or a CHECK fails. -/
inductive SessionError
  | notEnabled
  | check (check : PrefetchCheck)
  deriving DecidableEq, Repr

def resume (cfg : SessionConfig) (s : WorkerPrefetchSession) (id : Nat) :
    SessionCall → Answer → Except SessionError WorkerPrefetchSession
  | .scheduling, .nothing =>
    .ok (if s.finished ∨ s.state ≠ .runningBatch then s.endCall id else s.goOn id .queued)
  | .queued, .nothing =>
    if s.finished ∨ s.state ≠ .runningBatch then .ok (s.endCall id)
    else
      match cfg.batchUnits s.batchIndex with
      | .error check => .error (.check check)
      | .ok units => .ok ({ s with batchRunning := true }.goOn id (.fetching s.batchIndex units))
  | .fetching batchIndex units, .hits transferHits =>
    .ok ((s.record (.fetch batchIndex units transferHits)).goOn id
      (.fetched batchIndex units transferHits))
  | .fetched batchIndex units transferHits, .nothing =>
    .ok (s.batchFetched cfg id batchIndex units transferHits)
  | .writing batchIndex frame closeAfterResult, .status code =>
    let s := s.record (.write batchIndex frame (code = 0))
    .ok (if code ≠ 0 then s.goOn id (.finishing s.streamId true .batch)
      else if closeAfterResult then s.goOn id (.finishing s.streamId false .batch)
      else s.endCall id)
  | .finishing streamId failed finisher, .nothing =>
    .ok (if s.finished then s.finishReturns id finisher
      else { s with
        finished := true
        failed
        state := if failed then .failed else .completed }.goOn id (.closing streamId finisher))
  | .closing streamId finisher, .nothing =>
    .ok ((s.record (.close streamId)).goOn id (.closed finisher))
  | .closed finisher, .nothing =>
    .ok (({ s with streamClosed := true }.reportReady cfg).finishReturns id finisher)
  | .waiting, .nothing =>
    if s.streamClosed then .ok ({ s with shutdownReturned := true }.endCall id)
    else .error .notEnabled
  | _, _ => .error .notEnabled

inductive Label
  | start (id streamId : Nat)
  | shutdown (id : Nat)
  | onReceivedMessages (id streamId : Nat) (messages : List (List UInt8))
  | onIdleTimeout (id streamId : Nat)
  | onFailed (id streamId : Nat)
  | onClosed
  /-- The next step of a thread. -/
  | resume (id : Nat) (answer : Answer)

def beginCall (s : WorkerPrefetchSession) (id : Nat) (next : WorkerPrefetchSession) :
    Except SessionError WorkerPrefetchSession :=
  if s.calls.lookup id = none then .ok next else .error .notEnabled

def step (cfg : SessionConfig) (s : WorkerPrefetchSession) :
    Label → Except SessionError WorkerPrefetchSession
  | .start id streamId => s.beginCall id (s.start id streamId)
  | .shutdown id => s.beginCall id (s.shutdown id)
  | .onReceivedMessages id streamId messages =>
    s.beginCall id (s.onReceivedMessages cfg id streamId messages).1
  | .onIdleTimeout id streamId | .onFailed id streamId =>
    s.beginCall id (s.goOn id (.finishing (some streamId) true .stream))
  | .onClosed => .ok (s.onClosed cfg)
  | .resume id answer =>
    match s.calls.lookup id with
    | none => .error .notEnabled
    | some call => s.resume cfg id call answer

end WorkerPrefetchSession

end Xllm.Framework
