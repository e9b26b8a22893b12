import Xllm.Scheduler.ReservationRegistry

/-!
# Handing a request from prefill to decode

One request between a prefill instance and a decode instance: `dispatch_requests`,
`prefill_send_first_generation` and `release_failed_request` of `DisaggPDScheduler` on one side, the
service of `core/distributed_runtime/disagg_pd_service_impl.cpp` over the reservations of the decode
instance (`World`) on the other.

A message that was sent is delivered any number of times, at any time, or never. The prefill instance
waits for one call at a time, which either fails, whatever the decode instance has done with it, or
returns what some copy of it was answered. The decode instance goes on with its calls, serves other
requests, unlinks prefill instances and prunes as it likes (`Label.background`), and has blocks for the
request or not (`Admission`).
-/

namespace Xllm.Scheduler

open Xllm.Lib

/-! ## The prefill instance -/

/-- What a request is known by on both sides; both ids are generated. -/
structure Identity where
  reqId : String
  reservationId : String
  reqId_ne : reqId ≠ ""
  reservationId_ne : reservationId ≠ ""

inductive Phase
  /-- In the dispatch queue, at first or put back. -/
  | queued
  /-- Waiting for `AddNewRequests`. -/
  | adding
  /-- Allocated on the decode side, in prefill. -/
  | dispatched
  /-- Waiting for `FirstGeneration`. -/
  | handing
  /-- The decode instance owns the request. -/
  | done
  /-- Given up. -/
  | ended
  deriving DecidableEq, Repr

/-- A copy of `AddNewRequests` that was delivered: of which attempt, how it is answered, and the call
that has to return first. -/
structure Added where
  attempt : Nat
  statusCode : Nat
  call : Option Nat
  deriving DecidableEq, Repr

/-- A copy of `FirstGeneration` that was delivered: its call, and the object it took. -/
structure Handed where
  call : Nat
  request : Option Nat
  deriving DecidableEq, Repr

/-- `added`, `handed` and `releasedAt` are the copies that were delivered, the last with the time of
the last one. -/
structure Handoff where
  phase : Phase := .queued
  attempt : Nat := 0
  decodeRpcAddress : Bool := false
  reportedFailed : Bool := false
  releaseSent : Bool := false
  generation : Option FirstGeneration := none
  decode : World := .init
  added : List Added := []
  handed : List Handed := []
  releasedAt : Option Nat := none

namespace Handoff

/-- `kDecodeAddNewPromptTooLongStatusCode`. -/
def kDecodeAddNewPromptTooLongStatusCode : Nat := 413

def isPermanentRejection (statusCode : Nat) : Bool :=
  statusCode == kDecodeAddNewPromptTooLongStatusCode

/-- `release_failed_request`: a release is sent to the peer that accepted the request. -/
def releaseFailedRequest (s : Handoff) : Handoff :=
  if s.decodeRpcAddress then { s with decodeRpcAddress := false, releaseSent := true } else s

def giveUp (s : Handoff) (report : Bool) : Handoff :=
  { s with phase := .ended, reportedFailed := s.reportedFailed || report }

/-- `dispatch_requests` up to the call, if it gets there. -/
def dispatch (s : Handoff) : Handoff :=
  { s with phase := .adding, attempt := s.attempt + 1 }

/-- The call failed: the decode instance may have allocated blocks all the same. -/
def addFails (s : Handoff) : Handoff :=
  ({ s with decodeRpcAddress := true }.releaseFailedRequest).giveUp true

/-- The call was answered; `cancelled` is what `discard_cancelled_dispatch_request` finds. -/
def addReplies (s : Handoff) (statusCode : Nat) (cancelled : Bool) : Handoff :=
  if statusCode ≠ 200 then
    if cancelled then s.releaseFailedRequest.giveUp true
    else if isPermanentRejection statusCode then s.giveUp true
    else { s with phase := .queued }
  else
    let s := { s with decodeRpcAddress := true }
    if cancelled then s.releaseFailedRequest.giveUp true else { s with phase := .dispatched }

/-- `fail_handoff_request`: the client of a request that does not stream has its answer. -/
def failHandoffRequest (s : Handoff) (stream : Bool) : Handoff :=
  s.releaseFailedRequest.giveUp stream

/-- The first generation was accepted. -/
def handedOver (s : Handoff) : Handoff := { s with phase := .done, decodeRpcAddress := false }

/-! ## The decode instance -/

/-- What `generate_request` and `try_admit` make of a request. -/
inductive Admission
  | malformed
  | permanentlyRejected
  | retryLater
  | admitted
  deriving DecidableEq, Repr

/-- `decode_recv_new_requests` for one request, as object `r`: what it answers, and the world. -/
def decodeRecvNewRequests (cfg : Config) (w : World) (id r : Nat) (name : String) (now : Nat)
    (admission : Admission) : Option (Nat × Option Nat × World) :=
  match admission with
  | .malformed => some (500, none, w)
  | .permanentlyRejected => some (kDecodeAddNewPromptTooLongStatusCode, none, w)
  | .retryLater => some (404, none, w)
  | .admitted =>
    match w.step cfg (.decodeSchedule id r name now) with
    | .error _ => none
    | .ok w' =>
      some (if ({ w with now := now }.decodeSchedule cfg id r name now).1 then 200 else 500, some id, w')

/-- What a copy of `FirstGeneration` is answered, once its call has returned. -/
def answer (w : World) (h : Handed) : Option Bool :=
  match h.request with
  | none => some false
  | some r => if w.calls.lookup h.call = none then some (decide (r ∈ w.enqueued)) else none

/-! ## Steps -/

inductive Step
  | dispatch
  | dispatchFails
  | addFails
  | addReplies (added : Added) (cancelled : Bool)
  /-- The request finishes, is cancelled or rejected in the queue or in prefill. -/
  | leavesPrefill (report : Bool)
  /-- `FirstGeneration` is sent. -/
  | handOver (gen : FirstGeneration)
  /-- There is no embedding to send with it. -/
  | handOverFails
  | firstFails
  | firstReplies (handed : Handed)
  | deliverAdd (attempt id r : Nat) (name : String) (now : Nat) (admission : Admission)
  | deliverFirst (id now : Nat)
  | deliverRelease (id now : Nat)
  | background (label : Label)

def concerns (cfg : Config) (i : Identity) : Label → Bool
  | .decodeSchedule _ r _ _ => (cfg.requests r).requestId == i.reqId
  | .recvFirstGeneration _ reqId _ _ => reqId == i.reqId
  | .releaseReservation _ reqId _ _ => reqId == i.reqId
  | _ => false

def step (cfg : Config) (i : Identity) (stream : Bool) (s : Handoff) :
    Step → Except StepError Handoff
  | .dispatch => if s.phase = .queued then .ok s.dispatch else .error .notEnabled
  | .dispatchFails =>
    if s.phase = .queued then .ok (s.releaseFailedRequest.giveUp true) else .error .notEnabled
  | .addFails => if s.phase = .adding then .ok s.addFails else .error .notEnabled
  | .addReplies added cancelled =>
    if s.phase = .adding ∧ added ∈ s.added ∧ added.attempt = s.attempt ∧
        (∀ id, added.call = some id → s.decode.calls.lookup id = none) then
      .ok (s.addReplies added.statusCode cancelled)
    else .error .notEnabled
  | .leavesPrefill report =>
    if s.phase = .dispatched then .ok (s.releaseFailedRequest.giveUp report)
    else .error .notEnabled
  | .handOver gen =>
    if s.phase = .dispatched then .ok { s with phase := .handing, generation := some gen }
    else .error .notEnabled
  | .handOverFails =>
    if s.phase = .dispatched then .ok (s.failHandoffRequest stream) else .error .notEnabled
  | .firstFails =>
    if s.phase = .handing then .ok (s.failHandoffRequest stream) else .error .notEnabled
  | .firstReplies handed =>
    if s.phase = .handing ∧ handed ∈ s.handed then
      match answer s.decode handed with
      | none => .error .notEnabled
      | some true => .ok s.handedOver
      | some false => .ok (s.failHandoffRequest stream)
    else .error .notEnabled
  | .deliverAdd attempt id r name now admission =>
    if 1 ≤ attempt ∧ attempt ≤ s.attempt ∧ (cfg.requests r).HasIdentity i.reqId i.reservationId then
      match decodeRecvNewRequests cfg s.decode id r name now admission with
      | none => .error .notEnabled
      | some (statusCode, call, w) =>
        .ok { s with decode := w, added := ⟨attempt, statusCode, call⟩ :: s.added }
    else .error .notEnabled
  | .deliverFirst id now =>
    match s.generation with
    | none => .error .notEnabled
    | some gen => do
      let w ← s.decode.step cfg (.recvFirstGeneration id i.reqId gen now)
      return { s with
        decode := w
        handed := ⟨id, s.decode.receivedRequestMap.lookup i.reqId⟩ :: s.handed }
  | .deliverRelease id now =>
    if s.releaseSent then do
      let w ← s.decode.step cfg (.releaseReservation id i.reqId i.reservationId now)
      return { s with decode := w, releasedAt := some now }
    else .error .notEnabled
  | .background label =>
    if concerns cfg i label then .error .notEnabled
    else do
      let w ← s.decode.step cfg label
      return { s with decode := w }

end Handoff

end Xllm.Scheduler
