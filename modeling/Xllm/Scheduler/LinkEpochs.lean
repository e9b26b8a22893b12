import Xllm.Lib.Run
import Xllm.Request.RequestState

/-!
# Links, unlinks and queued requests

A prefill instance stamps a request with the epoch of the link to its decode instance, and before
the request is scheduled checks the stamp (`core/scheduler/disagg_pd_scheduler.cpp`). Links and
unlinks run in threads of their own. Each takes `linked_instances_mutex_` for its long operation,
an unlink only after it has published, and what concerns the epochs is done under
`decode_availability_mutex_`; a step below is what is done under that mutex at once.

The answers of `link_cluster` and `unlink_cluster` are those of the step that ends the operation.
The cleanup of received requests and `linked_instance_`, which nothing reads, are left out.
-/

namespace Xllm.Scheduler.LinkEpochs

open Xllm.Lib Xllm.Request

inductive InstanceRole
  | default
  | prefill
  | decode
  | mix
  | invalid
  deriving DecidableEq, Repr

structure Options where
  enablePdOoc : Bool
  instanceRole : InstanceRole

/-- What the check reads of a request. -/
structure QueuedRequest where
  decodeAddress : String
  pdReservationId : String := ""
  cancelled : Bool := false
  hasTerminalOutcome : Bool := false
  decodeLinkEpoch : UInt64 := 0
  deriving DecidableEq

/-- Who holds `linked_instances_mutex_`: a link, which may have read the epoch, or an unlink. -/
inductive Holder
  | linking (instanceName : String) (observedEpoch : Option UInt64)
  | unlinking (instanceName : String)
  deriving DecidableEq

structure State (Id : Type) where
  decodeLinkEpochs : String → Option UInt64
  unlinkedInstances : Finset String
  /-- An instance without an entry has zero. -/
  pendingUnlinks : String → Nat
  /-- Unlinks that have published and not yet taken `linked_instances_mutex_`. -/
  waitingUnlinks : String → Nat
  linkedInstancesMutex : Option Holder
  requests : Id → QueuedRequest

/-- A step that cannot be taken yet, or a `CHECK` that fails. -/
inductive Stop
  | blocked
  | checkFailed
  deriving DecidableEq, Repr

inductive Event (Id : Type)
  /-- `dispatch_requests` stamps a request. -/
  | stamp (request : Id)
  /-- What else happens to a request. -/
  | update (request : Id) (pdReservationId : String) (cancelled hasTerminalOutcome : Bool)
  | lockForLink (instanceName : String)
  | observe (instanceName : String)
  | finishLink (instanceName : String) (linked : Bool)
  | publishUnlink (instanceName : String)
  | lockForUnlink (instanceName : String)
  | finishUnlink (instanceName : String) (unlinked : Bool)
  deriving DecidableEq

variable {Id : Type} [DecidableEq Id]

namespace State

def start (decodeAddress : Id → String) : State Id where
  decodeLinkEpochs := fun _ => none
  unlinkedInstances := ∅
  pendingUnlinks := fun _ => 0
  waitingUnlinks := fun _ => 0
  linkedInstancesMutex := none
  requests := fun request => { decodeAddress := decodeAddress request }

/-- The value of `decode_link_epochs_[instance_name]`. -/
def epoch (s : State Id) (instanceName : String) : UInt64 :=
  (s.decodeLinkEpochs instanceName).getD 0

/-- `decode_link_epochs_[instance_name]` makes an entry. -/
def setEpoch (s : State Id) (instanceName : String) (value : UInt64) : State Id :=
  { s with decodeLinkEpochs := Function.update s.decodeLinkEpochs instanceName (some value) }

def stampRequest (s : State Id) (request : Id) : State Id :=
  let selectedInstance := (s.requests request).decodeAddress
  let s := s.setEpoch selectedInstance (s.epoch selectedInstance)
  { s with
    requests := Function.update s.requests request
      { s.requests request with decodeLinkEpoch := s.epoch selectedInstance } }

def updateRequest (s : State Id) (request : Id) (pdReservationId : String)
    (cancelled hasTerminalOutcome : Bool) : State Id :=
  { s with
    requests := Function.update s.requests request
      { s.requests request with
        pdReservationId := pdReservationId
        cancelled := cancelled
        hasTerminalOutcome := hasTerminalOutcome } }

/-- The end of `link_instance`. -/
def endLink (s : State Id) (instanceName : String) (observedEpoch : UInt64) (linked : Bool) :
    State Id :=
  let s := { s with linkedInstancesMutex := none }
  if linked = false then s
  else if s.epoch instanceName = observedEpoch ∧ s.pendingUnlinks instanceName = 0 then
    { s.setEpoch instanceName (s.epoch instanceName) with
      unlinkedInstances := s.unlinkedInstances.erase instanceName }
  else s.setEpoch instanceName (s.epoch instanceName)

/-- The start of `unlink_instance`. -/
def publish (s : State Id) (instanceName : String) : State Id :=
  { s.setEpoch instanceName (s.epoch instanceName + 1) with
    unlinkedInstances := insert instanceName s.unlinkedInstances
    pendingUnlinks :=
      Function.update s.pendingUnlinks instanceName (s.pendingUnlinks instanceName + 1)
    waitingUnlinks :=
      Function.update s.waitingUnlinks instanceName (s.waitingUnlinks instanceName + 1) }

/-- Its end, whatever `unlink_cluster` says. -/
def endUnlink (s : State Id) (instanceName : String) : State Id :=
  { s with
    linkedInstancesMutex := none
    pendingUnlinks :=
      Function.update s.pendingUnlinks instanceName (s.pendingUnlinks instanceName - 1) }

def step (s : State Id) : Event Id → Except Stop (State Id)
  | .stamp request =>
    if (s.requests request).decodeAddress = "" then .error .blocked
    else .ok (s.stampRequest request)
  | .update request pdReservationId cancelled hasTerminalOutcome =>
    .ok (s.updateRequest request pdReservationId cancelled hasTerminalOutcome)
  | .lockForLink instanceName =>
    if s.linkedInstancesMutex = none then
      .ok { s with linkedInstancesMutex := some (.linking instanceName none) }
    else .error .blocked
  | .observe instanceName =>
    if s.linkedInstancesMutex = some (.linking instanceName none) then
      .ok { s.setEpoch instanceName (s.epoch instanceName) with
        linkedInstancesMutex := some (.linking instanceName (some (s.epoch instanceName))) }
    else .error .blocked
  | .finishLink instanceName linked =>
    match s.linkedInstancesMutex with
    | some (.linking holder (some observedEpoch)) =>
      if holder = instanceName then .ok (s.endLink instanceName observedEpoch linked)
      else .error .blocked
    | _ => .error .blocked
  | .publishUnlink instanceName => .ok (s.publish instanceName)
  | .lockForUnlink instanceName =>
    if s.linkedInstancesMutex = none ∧ 0 < s.waitingUnlinks instanceName then
      .ok { s with
        linkedInstancesMutex := some (.unlinking instanceName)
        waitingUnlinks :=
          Function.update s.waitingUnlinks instanceName (s.waitingUnlinks instanceName - 1) }
    else .error .blocked
  | .finishUnlink instanceName _ =>
    if s.linkedInstancesMutex ≠ some (.unlinking instanceName) then .error .blocked
    -- `CHECK(it != pending_unlinks_.end())`
    else if s.pendingUnlinks instanceName = 0 then .error .checkFailed
    else .ok (s.endUnlink instanceName)

end State

/-! ## The check -/

/-- Only a request of the normal prefill queue that holds a reservation is looked at. -/
def Exempt (options : Options) (request : QueuedRequest) : Prop :=
  options.enablePdOoc = true ∨ options.instanceRole = .decode ∨ request.cancelled = true ∨
    request.hasTerminalOutcome = true ∨ request.decodeAddress = "" ∨ request.pdReservationId = ""

instance (options : Options) (request : QueuedRequest) : Decidable (Exempt options request) := by
  unfold Exempt
  infer_instance

/-- The stamp is not older than the epoch; an instance without an epoch accepts every stamp. -/
def stampHolds (decodeLinkEpoch : UInt64) : Option UInt64 → Bool
  | none => true
  | some epoch => decodeLinkEpoch ≥ epoch

/-- `none` where it returns false, and else what the request fails with. -/
def rejectQueuedRequest (options : Options) (s : State Id) (request : Id) : Option Status :=
  let queued := s.requests request
  if Exempt options queued then none
  else if queued.decodeAddress ∉ s.unlinkedInstances ∧
      stampHolds queued.decodeLinkEpoch (s.decodeLinkEpochs queued.decodeAddress) then none
  else some {
    code := .unavailable
    message := "Decode instance unlinked before Prefill KV transfer" }

end Xllm.Scheduler.LinkEpochs
