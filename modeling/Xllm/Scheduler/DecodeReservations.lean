import Xllm.KvCacheTransfer.PushBlocks
import Xllm.Lib.Run
import Xllm.Lib.Tally

/-!
# The reservations of a decode instance

`DisaggPDScheduler` (`core/scheduler/disagg_pd_scheduler.cpp`), decode side. A request that a prefill
instance announces gets its blocks and waits, registered under its id and its prefill instance, until
the first generation takes it. A release, an unlinked prefill instance or a cancellation may come at
any time, and a release may come before the announcement, which is why it leaves a tombstone.

Every function here holds `received_request_map_mutex_` for one or two sections and does the rest
without it. A function is a *call* that moves on by steps: its first section begins it, and
`Label.resume` is the next piece of it, with what the engine or the queue answers. Times are
nanoseconds.

A request object is a number, and `Config.requests` has the fields that never change. Objects are
shared pointers: the registry and the calls in flight hold references, and so does the scheduler of an
object that was pushed to `request_queue_`, until it is done with it (`Label.finish`). When the last
reference goes, the destructor frees the blocks. `seen`, `released`, `enqueued` and `submitted` are
history that no section reads.
-/

namespace Xllm.Scheduler

open Xllm.Lib Xllm.Framework

/-- One minute of `absl::Duration`. -/
def minute : Nat := 60 * 10 ^ 9

/-- `kCancellationTombstoneTtl`. -/
def kCancellationTombstoneTtl : Nat := 5 * minute

/-- `kCancellationPruneInterval`. -/
def kCancellationPruneInterval : Nat := minute

/-! ## Requests -/

/-- What the handoff reads of a sequence; a block that is not valid has no id. -/
structure Sequence where
  embeddingBlockId : Int := -1
  linearStateSlotId : Int := -1
  blocks : BlockType → List (Option Nat) := fun _ => []

/-- The fields of a request that never change; `sequence` is its first, which may be null. -/
structure Request where
  requestId : String
  pdReservationId : String := ""
  serviceRequestId : String := ""
  sourceXserviceAddr : String := ""
  sequence : Option Sequence := none

structure Config where
  requests : Nat → Request
  numSpeculativeTokens : Int := 0
  isDecode : Bool := true
  enablePdOoc : Bool := false

/-- `reservation_key`. -/
def reservationKey (reqId reservationId : String) : String := reqId ++ "\x00" ++ reservationId

def Request.key (r : Request) : String := reservationKey r.requestId r.pdReservationId

/-! ## Restoring the KV cache -/

/-- The first generation of a request, as far as it decides whether the request can be decoded. -/
structure FirstGeneration where
  tokenId : Int
  mtpBootstrapEmbedding : Bool := false
  kvCacheTransferMode : String := "PUSH"
  sourceMappings : List KVTransferMapping := []

inductive RestoreError
  | noSequence
  | bootstrapSlot
  | bootstrapToken
  | bootstrapEmbedding
  | unknownGroup
  | sizeMismatch
  | pullFailed
  deriving DecidableEq, Repr

/-- The local ids of a group: a slot, or the valid blocks, of which a sliding window has its last. -/
def Sequence.localIds (sequence : Sequence) (blockType : BlockType) (numRemote : Nat) : List Nat :=
  if blockType = .linear ∨ blockType = .embedding then
    let localId := if blockType = .linear then sequence.linearStateSlotId
      else sequence.embeddingBlockId
    if 0 ≤ localId then [localId.toNat] else []
  else
    let blocks := sequence.blocks blockType
    let localBegin := if blockType = .swa ∧ numRemote < blocks.length then blocks.length - numRemote
      else 0
    (blocks.drop localBegin).filterMap id

/-- One turn of the loop over the source mappings. -/
def pullMapping (sequence : Sequence) (mapping : KVTransferMapping) :
    Except RestoreError KVTransferMapping :=
  match blockTypeFromCacheGroupId mapping.groupId with
  | none => .error .unknownGroup
  | some blockType =>
    let localIds := mapping.localIds ++ sequence.localIds blockType mapping.remoteIds.length
    if localIds.length = mapping.remoteIds.length then .ok { mapping with localIds }
    else .error .sizeMismatch

/-- What `decode_recv_first_generation` does between taking the request and pushing it: `pulled` is the
answer of `pull_kv_blocks`. -/
def restore (cfg : Config) (r : Request) (gen : FirstGeneration) (pulled : Bool) :
    Except RestoreError (List KVTransferMapping) :=
  match r.sequence with
  | none => .error .noSequence
  | some sequence =>
    if 0 < cfg.numSpeculativeTokens ∧ sequence.embeddingBlockId < 0 then .error .bootstrapSlot
    else if 0 < cfg.numSpeculativeTokens ∧ (gen.tokenId < 0 ∨ 2 ^ 31 - 1 < gen.tokenId) then
      .error .bootstrapToken
    else if 0 < cfg.numSpeculativeTokens ∧ ¬ gen.mtpBootstrapEmbedding then
      .error .bootstrapEmbedding
    else if gen.kvCacheTransferMode = "PULL" then do
      let mappings ← gen.sourceMappings.mapM (pullMapping sequence)
      if pulled then .ok mappings else .error .pullFailed
    else .ok gen.sourceMappings

/-! ## The registry -/

/-- `DecodeCancellationEntry`. -/
structure DecodeCancellationEntry where
  request : Nat
  ready : Bool := false
  cancelRequested : Bool := false

/-- Where a call is between two sections; every call holds one request. -/
inductive Call
  /-- `decode_schedule` has registered the request, and its caller answers the prefill instance. -/
  | scheduled (r : Nat)
  /-- `decode_recv_first_generation` has taken the request. -/
  | preparing (r : Nat) (gen : FirstGeneration)
  | writing (r : Nat)
  | pushed (r : Nat) (enqueued : Bool)
  /-- The blocks are about to be freed, by `reset` or `deallocate`. -/
  | releasing (r : Nat)
  /-- `cancel_request` is about to submit. -/
  | submitting (r : Nat)

def Call.request : Call → Nat
  | scheduled r | preparing r _ | writing r | pushed r _ | releasing r | submitting r => r

/-- `dropped` has the requests that left the registry unfinished while a caller still has a
reference. -/
structure World where
  receivedRequestMap : Table String Nat
  requestToInstanceMap : Table String String
  instanceToReceivedRequestsMap : Table String (List String)
  decodeCancellationEntries : Table String DecodeCancellationEntry
  cancelledReservations : Table String Nat
  nextCancellationPrune : Nat
  calls : Table Nat Call
  now : Nat
  dropped : List Nat
  finished : List Nat
  seen : List Nat
  released : List Nat
  enqueued : List Nat
  submitted : List Nat

namespace World

def init : World where
  receivedRequestMap := ∅
  requestToInstanceMap := ∅
  instanceToReceivedRequestsMap := ∅
  decodeCancellationEntries := ∅
  cancelledReservations := ∅
  nextCancellationPrune := 0
  calls := ∅
  now := 0
  dropped := []
  finished := []
  seen := []
  released := []
  enqueued := []
  submitted := []

/-! ### References -/

/-- A call has a reference. -/
def called (w : World) (r : Nat) : Bool := anyEntry (fun _ call => call.request == r) w.calls

/-- `received_request_map_` has one. -/
def registered (w : World) (r : Nat) : Bool := anyEntry (fun _ r' => r' == r) w.receivedRequestMap

/-- `std::weak_ptr::expired`. -/
def expired (w : World) (r : Nat) : Bool :=
  !w.called r && !w.registered r && (!decide (r ∈ w.enqueued) || decide (r ∈ w.finished))

/-- The blocks of the request are freed. -/
def release (w : World) (r : Nat) : World := { w with released := r :: w.released }

/-- The registry gives up its reference. -/
def dropRef (w : World) (r : Nat) : World :=
  if w.called r then { w with dropped := r :: w.dropped } else w.release r

def goOn (w : World) (id : Nat) (call : Call) : World := { w with calls := w.calls.insert id call }

def endCall (w : World) (id : Nat) (r : Nat) : World :=
  let w := { w with calls := w.calls.erase id }
  if r ∈ w.dropped ∧ ¬ w.called r then { w with dropped := w.dropped.erase r }.release r else w

/-! ### Sections -/

/-- `take_waiting_request`, of a request that is there. -/
def takeWaitingRequest (w : World) (reqId : String) : World :=
  { w with
    receivedRequestMap := w.receivedRequestMap.erase reqId
    requestToInstanceMap := w.requestToInstanceMap.erase reqId
    instanceToReceivedRequestsMap :=
      match w.requestToInstanceMap.lookup reqId with
      | none => w.instanceToReceivedRequestsMap
      | some name =>
        match w.instanceToReceivedRequestsMap.lookup name with
        | none => w.instanceToReceivedRequestsMap
        | some reqIds =>
          let rest := reqIds.filter fun other => other ≠ reqId
          put w.instanceToReceivedRequestsMap name (if rest = [] then none else some rest) }

/-- `prune_cancelled_reservations`. -/
def pruneCancelledReservations (w : World) (now : Nat) : World :=
  if now < w.nextCancellationPrune then w
  else
    { w with
      decodeCancellationEntries :=
        keepEntries (fun _ entry => !w.expired entry.request) w.decodeCancellationEntries
      cancelledReservations := keepEntries (fun _ expiry => decide (now < expiry))
        w.cancelledReservations
      nextCancellationPrune := now + kCancellationPruneInterval }

def isCancelledReservation (w : World) (r : Request) : Bool :=
  (w.cancelledReservations.lookup r.key).isSome

/-- Another request of this id is around. -/
def isDuplicate (w : World) (reqId : String) : Bool :=
  match w.decodeCancellationEntries.lookup reqId with
  | some entry => !w.expired entry.request
  | none => false

/-- The insertion into the maps. -/
def register (cfg : Config) (w : World) (r : Nat) (name : String) : World :=
  let reqId := (cfg.requests r).requestId
  let reqIds := (w.instanceToReceivedRequestsMap.lookup name).getD []
  { w with
    receivedRequestMap := w.receivedRequestMap.insert reqId r
    decodeCancellationEntries := w.decodeCancellationEntries.insert reqId { request := r }
    instanceToReceivedRequestsMap :=
      w.instanceToReceivedRequestsMap.insert name (reqIds.insert reqId)
    requestToInstanceMap := w.requestToInstanceMap.insert reqId name }

def decodeSchedule (cfg : Config) (w : World) (id r : Nat) (name : String) (now : Nat) :
    Bool × World :=
  let w := w.pruneCancelledReservations now
  let w := { w with seen := r :: w.seen }
  if w.isCancelledReservation (cfg.requests r) ∨ w.isDuplicate (cfg.requests r).requestId then
    (false, w.goOn id (.releasing r))
  else (true, (w.register cfg r name).goOn id (.scheduled r))

/-- The first section of `decode_recv_first_generation`. -/
def recvFirstGeneration (w : World) (id : Nat) (reqId : String) (gen : FirstGeneration) :
    Bool × World :=
  match w.receivedRequestMap.lookup reqId with
  | none => (false, w)
  | some r => (true, (w.takeWaitingRequest reqId).goOn id (.preparing r gen))

def releaseReservation (cfg : Config) (w : World) (id : Nat) (reqId reservationId : String)
    (now : Nat) : Bool × World :=
  if reqId = "" ∨ reservationId = "" then (false, w)
  else
    let w := w.pruneCancelledReservations now
    let w := { w with
      cancelledReservations := w.cancelledReservations.insert (reservationKey reqId reservationId)
        (now + kCancellationTombstoneTtl) }
    match w.receivedRequestMap.lookup reqId with
    | none => (false, w)
    | some r =>
      if (cfg.requests r).pdReservationId ≠ reservationId then (false, w)
      else
        let w := w.takeWaitingRequest reqId
        (true, { w with
          decodeCancellationEntries := w.decodeCancellationEntries.erase reqId }.goOn id
            (.releasing r))

/-- `CancelRequestResponse::Result`. -/
inductive CancelResult
  | invalidArgument
  | notSupported
  | notFound
  | alreadyFinished
  | notReady
  | accepted
  deriving DecidableEq, Repr

structure Cancellation where
  reqId : String
  serviceReqId : String
  sourceXserviceAddr : String

/-- `terminal` is what `has_terminal_outcome` says. -/
def cancelRequest (cfg : Config) (w : World) (id : Nat) (cancellation : Cancellation)
    (terminal : Bool) : CancelResult × World :=
  if cancellation.reqId = "" ∨ cancellation.serviceReqId = "" ∨
      cancellation.sourceXserviceAddr = "" then (.invalidArgument, w)
  else if cfg.isDecode = false ∨ cfg.enablePdOoc then (.notSupported, w)
  else
    match w.decodeCancellationEntries.lookup cancellation.reqId with
    | none => (.notFound, w)
    | some entry =>
      if w.expired entry.request then
        (.notFound, { w with
          decodeCancellationEntries := w.decodeCancellationEntries.erase cancellation.reqId })
      else if (cfg.requests entry.request).serviceRequestId ≠ cancellation.serviceReqId ∨
          (cfg.requests entry.request).sourceXserviceAddr ≠ cancellation.sourceXserviceAddr then
        (.notFound, w)
      else if terminal then (.alreadyFinished, w)
      else if entry.ready = false then (.notReady, w)
      else if entry.cancelRequested then (.accepted, w)
      else
        (.accepted, { w with
          decodeCancellationEntries := w.decodeCancellationEntries.insert cancellation.reqId
            { entry with cancelRequested := true } }.goOn id (.submitting entry.request))

/-- One turn of the loop in `unlink_instance`. -/
def unlinkRequest (w : World) (reqId : String) : World :=
  let w' := { w with
    receivedRequestMap := w.receivedRequestMap.erase reqId
    requestToInstanceMap := w.requestToInstanceMap.erase reqId
    decodeCancellationEntries := w.decodeCancellationEntries.erase reqId }
  match w.receivedRequestMap.lookup reqId with
  | none => w'
  | some r => w'.dropRef r

/-- The section of `unlink_instance`. -/
def unlinkInstance (w : World) (name : String) : World :=
  match w.instanceToReceivedRequestsMap.lookup name with
  | none => w
  | some reqIds =>
    let w := reqIds.foldl unlinkRequest w
    { w with
      instanceToReceivedRequestsMap := w.instanceToReceivedRequestsMap.erase name }

/-- The last section of `decode_recv_first_generation`. -/
def publish (cfg : Config) (w : World) (id r : Nat) (enqueued : Bool) : World :=
  let reqId := (cfg.requests r).requestId
  if ¬ enqueued then
    { w with decodeCancellationEntries := w.decodeCancellationEntries.erase reqId }.goOn id
      (.releasing r)
  else
    match w.decodeCancellationEntries.lookup reqId with
    | none => w.endCall id r
    | some entry =>
      { w with
        decodeCancellationEntries := w.decodeCancellationEntries.insert reqId
          { entry with ready := true } }.endCall id r

/-! ### Steps -/

def resume (cfg : Config) (w : World) (id : Nat) (answer : Bool) : Call → World
  | .scheduled r => w.endCall id r
  | .preparing r gen =>
    match restore cfg (cfg.requests r) gen answer with
    | .ok _ => w.goOn id (.writing r)
    | .error _ => (w.release r).endCall id r
  | .writing r =>
    if answer then { w with enqueued := r :: w.enqueued }.goOn id (.pushed r true)
    else w.goOn id (.pushed r false)
  | .pushed r enqueued => w.publish cfg id r enqueued
  | .releasing r => (w.release r).endCall id r
  | .submitting r => { w with submitted := r :: w.submitted }.endCall id r

end World

inductive Label
  | decodeSchedule (id r : Nat) (name : String) (now : Nat)
  | recvFirstGeneration (id : Nat) (reqId : String) (gen : FirstGeneration) (now : Nat)
  | releaseReservation (id : Nat) (reqId reservationId : String) (now : Nat)
  | cancelRequest (id : Nat) (cancellation : World.Cancellation) (terminal : Bool) (now : Nat)
  | unlinkInstance (name : String) (now : Nat)
  /-- The next piece of a call runs. -/
  | resume (id : Nat) (answer : Bool) (now : Nat)
  /-- The scheduler is done with a request. -/
  | finish (r now : Nat)

def Label.now : Label → Nat
  | decodeSchedule _ _ _ now | recvFirstGeneration _ _ _ now | releaseReservation _ _ _ now
  | cancelRequest _ _ _ now | unlinkInstance _ now | resume _ _ now | finish _ now => now

/-- Why a label is not taken: time would run backwards, or it is not one the state allows. -/
inductive StepError
  | clock
  | notEnabled
  deriving DecidableEq, Repr

namespace World

/-- A call that begins is new, and so is the object of an announcement. -/
def Enabled (w : World) : Label → Prop
  | .decodeSchedule id r _ _ => w.calls.lookup id = none ∧ r ∉ w.seen
  | .recvFirstGeneration id _ _ _ | .releaseReservation id _ _ _ | .cancelRequest id _ _ _ =>
    w.calls.lookup id = none
  | .unlinkInstance _ _ => True
  | .resume id _ _ => (w.calls.lookup id).isSome = true
  | .finish r _ => r ∈ w.enqueued

instance (w : World) (label : Label) : Decidable (w.Enabled label) := by
  cases label <;> unfold Enabled <;> infer_instance

/-- One section, or the next piece of a call. -/
def act (cfg : Config) (w : World) : Label → World
  | .decodeSchedule id r name now => (w.decodeSchedule cfg id r name now).2
  | .recvFirstGeneration id reqId gen _ => (w.recvFirstGeneration id reqId gen).2
  | .releaseReservation id reqId reservationId now =>
    (w.releaseReservation cfg id reqId reservationId now).2
  | .cancelRequest id cancellation terminal _ =>
    (w.cancelRequest cfg id cancellation terminal).2
  | .unlinkInstance name _ => w.unlinkInstance name
  | .resume id answer _ =>
    match w.calls.lookup id with
    | none => w
    | some call => w.resume cfg id answer call
  | .finish r _ => { w with finished := r :: w.finished }

/-- The same at its time, which is not before the last. -/
def step (cfg : Config) (w : World) (label : Label) : Except StepError World :=
  if label.now < w.now then .error .clock
  else if w.Enabled label then .ok ({ w with now := label.now }.act cfg label)
  else .error .notEnabled

end World

end Xllm.Scheduler
