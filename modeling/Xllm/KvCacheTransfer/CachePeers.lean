import Xllm.KvCacheTransfer.ReshardPlanner
import Xllm.Lib.Run
import Xllm.Lib.Tally

/-!
# Sessions and cache peers of a transfer engine

`MooncakeTransferEngineCore` (`core/framework/kv_cache_transfer/mooncake_transfer_engine.cpp`): a handle
of the transfer engine is open for an address as long as somebody has a session with it, and a cache
peer is linked with a plan and a session, or with neither.

Each function takes the mutex once, but for `set_cache_peer`, which lets go of it while it makes the
plan and then looks at everything again. What `openSegment` returns and whether a remote call succeeds
are arguments. `opens` is history that no function reads.
-/

namespace Xllm.Framework

open Xllm.Lib

inductive CachePeerMode
  | active
  | planOnly
  | absent
  deriving DecidableEq, Repr

inductive StatusCode
  | invalidArgument
  | unavailable
  deriving DecidableEq, Repr

/-- `Status`; an error has a message. -/
abbrev PeerStatus := Except (StatusCode × String) Unit

structure SessionInfo where
  handle : Int
  refCount : Nat
  deriving DecidableEq, Repr

structure CachePeerLink where
  destinationIncarnation : String
  destinationLayoutGeneration : Nat
  mode : CachePeerMode
  plan : Option ReshardPlanTemplate
  holdsSession : Bool
  deriving DecidableEq

/-- `opens` is how many sessions were opened with an address and are to be closed. -/
structure MooncakeTransferEngineCore where
  handles : Table String SessionInfo := ∅
  localCacheLayout : Option WorkerCacheLayoutManifest := none
  cachePeerLinks : Table String CachePeerLink := ∅
  opens : String → Nat := fun _ => 0

/-! ## Plans -/

def checkActivePlanRequirement (plan : Option ReshardPlanTemplate) (mode : CachePeerMode)
    (requireOutgoingPlan : Bool) : PeerStatus :=
  if mode = .active ∧ requireOutgoingPlan ∧ plan.all (·.regions = []) then
    .error (.invalidArgument, "active cache peer requires a non-empty plan")
  else .ok ()

def linksCpPeerAsReceiver (receiver peer : ParallelCoordinates) : Prop :=
  receiver.cpSize = 1 ∧ 1 < peer.cpSize

instance (receiver peer : ParallelCoordinates) : Decidable (linksCpPeerAsReceiver receiver peer) :=
  inferInstanceAs (Decidable (_ ∧ _))

/-- `mismatched_fields` of `same_instance_layout`. -/
def mismatchedFields (source destination : WorkerCacheLayoutManifest) : List String :=
  (if source.schemaVersion ≠ destination.schemaVersion then ["schema_version"] else []) ++
  (if source.fingerprint ≠ destination.fingerprint then ["fingerprint"] else []) ++
  (if source.backend ≠ destination.backend then ["backend"] else []) ++
  (if source.layoutFamily ≠ destination.layoutFamily then ["layout_family"] else [])

/-- A plan without regions. -/
def ReshardPlanTemplate.empty : ReshardPlanTemplate := ⟨"", 0, "", 0, {}, {}, "", []⟩

/-- What `set_cache_peer` does without the mutex. -/
def buildPeerPlan (cpIndexWriteMode : Int) (localManifest peer : WorkerCacheLayoutManifest)
    (mode : CachePeerMode) : Except (StatusCode × String) (Option ReshardPlanTemplate) :=
  if mode ≠ .active then .ok none
  else if linksCpPeerAsReceiver localManifest.coordinates peer.coordinates then
    if mismatchedFields localManifest peer ≠ [] then
      .error (.invalidArgument, "cp1 receiver cache peer is layout-incompatible: mismatched " ++
        ", ".intercalate (mismatchedFields localManifest peer))
    else .ok (some .empty)
  else
    match buildOutgoingPlan localManifest peer true cpIndexWriteMode with
    | .error message => .error (.invalidArgument, message)
    | .ok plan => .ok (some plan)

namespace MooncakeTransferEngineCore

/-! ## Sessions -/

/-- `acquire_session_locked`: `segment` is what `openSegment` returns, if there is an engine. -/
def acquireSession (core : MooncakeTransferEngineCore) (addr : String) (segment : Option Int) :
    Bool × MooncakeTransferEngineCore :=
  match core.handles.lookup addr with
  | some info =>
    (true, { core with
      handles := core.handles.insert addr { info with refCount := info.refCount + 1 } })
  | none =>
    match segment with
    | none => (false, core)
    | some handle =>
      if handle = -1 then (false, core)
      else (true, { core with handles := core.handles.insert addr ⟨handle, 1⟩ })

/-- `release_session_locked`. -/
def releaseSession (core : MooncakeTransferEngineCore) (addr : String) :
    MooncakeTransferEngineCore :=
  match core.handles.lookup addr with
  | none => core
  | some info =>
    if 0 < info.refCount - 1 then
      { core with handles := core.handles.insert addr { info with refCount := info.refCount - 1 } }
    else { core with handles := core.handles.erase addr }

/-- `open_session`: `opened` is whether the remote OpenSession succeeds. -/
def openSession (core : MooncakeTransferEngineCore) (clusterId : Nat) (addr : String)
    (incrementExisting opened : Bool) (segment : Option Int) : Bool × MooncakeTransferEngineCore :=
  match core.handles.lookup addr with
  | some info =>
    if incrementExisting then
      (true, { core with
        handles := core.handles.insert addr { info with refCount := info.refCount + 1 } })
    else (true, core)
  | none =>
    if clusterId ≠ 0 ∧ opened = false then (false, core) else core.acquireSession addr segment

/-- `close_session`: `closed` is whether the remote CloseSession succeeds. -/
def closeSession (core : MooncakeTransferEngineCore) (clusterId : Nat) (addr : String)
    (closed : Bool) : Bool × MooncakeTransferEngineCore :=
  match core.handles.lookup addr with
  | none => (if clusterId ≠ 0 then closed else true, core)
  | some info =>
    if 0 < info.refCount - 1 then
      (true, { core with
        handles := core.handles.insert addr { info with refCount := info.refCount - 1 } })
    else
      (if clusterId ≠ 0 then closed else true, { core with handles := core.handles.erase addr })

/-! ## Layouts and peers -/

def setLocalCacheLayout (core : MooncakeTransferEngineCore) (manifest : WorkerCacheLayoutManifest) :
    PeerStatus × MooncakeTransferEngineCore :=
  match validateWorkerCacheLayout manifest with
  | .error message => (.error (.invalidArgument, message), core)
  | .ok _ =>
    if core.cachePeerLinks.keys ≠ [] then
      (.error (.unavailable, "cache layout cannot change while cache peers are linked"), core)
    else if core.localCacheLayout.any fun old => old.incarnationId = manifest.incarnationId ∧
        manifest.layoutGeneration ≤ old.layoutGeneration then
      (.error (.invalidArgument, "cache layout generation must increase monotonically"), core)
    else (.ok (), { core with localCacheLayout := some manifest })

/-- The link is with this very layout. -/
def identityMatches (link : CachePeerLink) (peer : WorkerCacheLayoutManifest) : Prop :=
  link.destinationIncarnation = peer.incarnationId ∧
    link.destinationLayoutGeneration = peer.layoutGeneration

instance (link : CachePeerLink) (peer : WorkerCacheLayoutManifest) :
    Decidable (identityMatches link peer) := inferInstanceAs (Decidable (_ ∧ _))

def unlinkPeer (core : MooncakeTransferEngineCore) (peer : WorkerCacheLayoutManifest) :
    MooncakeTransferEngineCore :=
  match core.cachePeerLinks.lookup peer.addr with
  | none => core
  | some link =>
    if identityMatches link peer then
      let core := if link.holdsSession then core.releaseSession peer.addr else core
      { core with cachePeerLinks := core.cachePeerLinks.erase peer.addr }
    else core

/-- What is returned when the peer is linked already; `set_cache_peer` asks before and after it makes
the plan. -/
def knownPeer (core : MooncakeTransferEngineCore) (peer : WorkerCacheLayoutManifest)
    (mode : CachePeerMode) (requireOutgoingPlan : Bool) : Option PeerStatus :=
  match core.cachePeerLinks.lookup peer.addr with
  | none => none
  | some link =>
    if identityMatches link peer then
      if link.mode = mode then some (checkActivePlanRequirement link.plan mode requireOutgoingPlan)
      else some (.error (.invalidArgument, "cache peer mode change requires unlink"))
    else if link.destinationIncarnation = peer.incarnationId ∧
        peer.layoutGeneration < link.destinationLayoutGeneration then
      some (.error (.invalidArgument, "peer cache layout generation is stale"))
    else none

/-- The second section of `set_cache_peer`. -/
def commitPeer (core : MooncakeTransferEngineCore) (localManifest peer : WorkerCacheLayoutManifest)
    (mode : CachePeerMode) (requireOutgoingPlan : Bool) (plan : Option ReshardPlanTemplate)
    (segment : Option Int) : PeerStatus × MooncakeTransferEngineCore :=
  if core.localCacheLayout.all fun current =>
      current.incarnationId ≠ localManifest.incarnationId ∨
        current.layoutGeneration ≠ localManifest.layoutGeneration then
    (.error (.unavailable, "local cache layout changed during plan construction"), core)
  else
    match core.knownPeer peer mode requireOutgoingPlan with
    | some status => (status, core)
    | none =>
      let holdsSession := decide (mode = .active)
      let (acquired, held) := if holdsSession then core.acquireSession peer.addr segment
        else (true, core)
      if acquired = false then
        (.error (.unavailable, "failed to open cache peer data session"), core)
      else
        let link : CachePeerLink :=
          { destinationIncarnation := peer.incarnationId
            destinationLayoutGeneration := peer.layoutGeneration
            mode
            plan
            holdsSession }
        let held := if (core.cachePeerLinks.lookup peer.addr).any (·.holdsSession) then
            held.releaseSession peer.addr
          else held
        (.ok (), { held with cachePeerLinks := held.cachePeerLinks.insert peer.addr link })

def setCachePeer (cpIndexWriteMode : Int) (core : MooncakeTransferEngineCore)
    (peer : WorkerCacheLayoutManifest) (mode : CachePeerMode) (requireOutgoingPlan : Bool)
    (segment : Option Int) : PeerStatus × MooncakeTransferEngineCore :=
  match validateWorkerCacheLayout peer with
  | .error message => (.error (.invalidArgument, message), core)
  | .ok _ =>
    if mode = .absent then (.ok (), core.unlinkPeer peer)
    else
      match core.knownPeer peer mode requireOutgoingPlan, core.localCacheLayout with
      | some status, _ => (status, core)
      | none, none => (.error (.unavailable, "local cache layout is not registered"), core)
      | none, some localManifest =>
        match buildPeerPlan cpIndexWriteMode localManifest peer mode with
        | .error e => (.error e, core)
        | .ok plan =>
          match checkActivePlanRequirement plan mode requireOutgoingPlan with
          | .error e => (.error e, core)
          | .ok _ => core.commitPeer localManifest peer mode requireOutgoingPlan plan segment

/-! ## Calls -/

inductive Call
  | setLocalCacheLayout (manifest : WorkerCacheLayoutManifest)
  | setCachePeer (peer : WorkerCacheLayoutManifest) (mode : CachePeerMode)
    (requireOutgoingPlan : Bool) (segment : Option Int)
  | openSession (clusterId : Nat) (addr : String) (incrementExisting opened : Bool)
    (segment : Option Int)
  | closeSession (clusterId : Nat) (addr : String) (closed : Bool)

/-- One call; a session that was not opened is not closed. An open that only finds a session, because
it was not to increment it, opens none. -/
def step (cpIndexWriteMode : Int) (core : MooncakeTransferEngineCore) :
    Call → Except Unit MooncakeTransferEngineCore
  | .setLocalCacheLayout manifest => .ok (core.setLocalCacheLayout manifest).2
  | .setCachePeer peer mode requireOutgoingPlan segment =>
    .ok (core.setCachePeer cpIndexWriteMode peer mode requireOutgoingPlan segment).2
  | .openSession clusterId addr incrementExisting opened segment =>
    let (ok, next) := core.openSession clusterId addr incrementExisting opened segment
    if ok ∧ (incrementExisting ∨ core.handles.lookup addr = none) then
      .ok { next with opens := Function.update next.opens addr (next.opens addr + 1) }
    else .ok next
  | .closeSession clusterId addr closed =>
    if 0 < core.opens addr then
      let (_, next) := core.closeSession clusterId addr closed
      .ok { next with opens := Function.update next.opens addr (next.opens addr - 1) }
    else .error ()

end MooncakeTransferEngineCore

end Xllm.Framework
