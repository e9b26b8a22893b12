import Xllm.KvCacheTransfer.CachePeers
import Xllm.KvCacheTransfer.ReshardSelection

/-!
# Linking a worker with the workers of an instance

`MooncakeTransferEngine::link_sessions`
(`core/framework/kv_cache_transfer/mooncake_transfer_engine.cpp`): the layouts of all remote
workers are fetched, the sources among them are selected, and then each pair is linked, the remote
side first. When a request or a local link fails, every pair is unlinked again.

A request to a remote worker is lost, or handled there without an answer coming back, or handled and
answered. What becomes of the requests, and what `openSegment` returns, are arguments.
-/

namespace Xllm.Framework

open Xllm.Lib

inductive Delivery
  | lost
  | unanswered
  | answered
  deriving DecidableEq, Repr

/-- What the network makes of the requests to one remote worker, and what `openSegment` returns
there and here. -/
structure Network where
  /-- GetCacheLayoutManifest is answered. -/
  fetched : Bool := true
  linked : Delivery := .answered
  rolledBack : Delivery := .answered
  remoteSegment : Option Int := none
  localSegment : Option Int := none
  deriving DecidableEq, Repr

structure LocalCachePeer where
  localManifest : WorkerCacheLayoutManifest
  remoteManifest : WorkerCacheLayoutManifest
  deriving DecidableEq, Repr

/-- A local worker, whose engine is `core`, and the remote workers, by their cluster. The write
modes are read from the environment of a process. -/
structure Workers where
  core : MooncakeTransferEngineCore := {}
  writeMode : Int := 0
  cachePeers : Table String LocalCachePeer := ∅
  remotes : Nat → MooncakeTransferEngineCore := fun _ => {}
  remoteWriteModes : Nat → Int := fun _ => 0

structure Pair where
  clusterId : Nat
  remoteAddr : String
  manifest : WorkerCacheLayoutManifest
  mode : CachePeerMode
  network : Network
  deriving DecidableEq, Repr

namespace Workers

variable (workers : Workers)

/-- `fetch_cache_layout`; a layout is checked when it is read from a message. -/
def fetchCacheLayout (clusterId : Nat) (remoteAddr : String) (network : Network) :
    Option WorkerCacheLayoutManifest :=
  if network.fetched = false then none
  else
    match (workers.remotes clusterId).localCacheLayout with
    | none => none
    | some manifest =>
      match validateWorkerCacheLayout manifest with
      | .error _ => none
      | .ok _ =>
        if manifest.addr ≠ remoteAddr ∨ manifest.clusterId ≠ clusterId then none
        else some manifest

/-- `set_remote_peer`, with `SetCachePeer` of the remote worker. -/
def setRemotePeer (clusterId : Nat) (manifest : WorkerCacheLayoutManifest) (mode : CachePeerMode)
    (delivery : Delivery) (segment : Option Int) : Bool × Workers :=
  if delivery = .lost then (false, workers)
  else
    let (status, next) := (workers.remotes clusterId).setCachePeer
      (workers.remoteWriteModes clusterId) manifest mode true segment
    (decide (delivery = .answered) && status.isOk,
      { workers with remotes := Function.update workers.remotes clusterId next })

/-- `set_local_peer`. -/
def setLocalPeer (manifest : WorkerCacheLayoutManifest) (mode : CachePeerMode)
    (segment : Option Int) : Bool × Workers :=
  let (status, next) := workers.core.setCachePeer workers.writeMode manifest mode false segment
  (status.isOk, { workers with core := next })

def fetchCacheLayouts : List (Nat × String × Network) → Option (List WorkerCacheLayoutManifest)
  | [] => some []
  | (clusterId, remoteAddr, network) :: endpoints => do
    let manifest ← workers.fetchCacheLayout clusterId remoteAddr network
    let manifests ← fetchCacheLayouts endpoints
    return manifest :: manifests

/-- The pairs with their modes: a source that was selected is ACTIVE. -/
def pairsOf (endpoints : List (Nat × String × Network))
    (manifests : List WorkerCacheLayoutManifest) (selected : List Nat) : List Pair :=
  (endpoints.zip manifests).zipIdx.map fun ((endpoint, manifest), index) =>
    { clusterId := endpoint.1
      remoteAddr := endpoint.2.1
      manifest
      mode := if index ∈ selected then .active else .planOnly
      network := endpoint.2.2 }

/-- What `link_sessions` does before it links anything: the local layout, and the pairs. -/
def pairsToLink (clusterIds : List Nat) (remoteAddrs : List String) (network : Nat → Network) :
    Option (WorkerCacheLayoutManifest × List Pair) :=
  if clusterIds.length ≠ remoteAddrs.length ∨ clusterIds = [] then none
  else
    match workers.core.localCacheLayout with
    | none => none
    | some localManifest =>
      let endpoints := (clusterIds.zip remoteAddrs).zipIdx.map
        fun ((clusterId, remoteAddr), index) => (clusterId, remoteAddr, network index)
      match workers.fetchCacheLayouts endpoints with
      | none => none
      | some manifests =>
        match selectSources manifests localManifest with
        | (.error _, _) => none
        | (.ok _, selected) => some (localManifest, pairsOf endpoints manifests selected)

/-- One turn of the loop that links the pairs, the remote side first. -/
def linkPair (localManifest : WorkerCacheLayoutManifest) (pair : Pair) : Bool × Workers :=
  let (linked, workers) := workers.setRemotePeer pair.clusterId localManifest pair.mode
    pair.network.linked pair.network.remoteSegment
  if linked = false then (false, workers)
  else workers.setLocalPeer pair.manifest pair.mode pair.network.localSegment

def linkPairs (localManifest : WorkerCacheLayoutManifest) : List Pair → Workers → Bool × Workers
  | [], workers => (true, workers)
  | pair :: pairs, workers =>
    let (linked, workers) := workers.linkPair localManifest pair
    if linked = false then (false, workers) else linkPairs localManifest pairs workers

def unlinkPair (localManifest : WorkerCacheLayoutManifest) (pair : Pair) : Workers :=
  let (_, workers) := workers.setRemotePeer pair.clusterId localManifest .absent
    pair.network.rolledBack none
  (workers.setLocalPeer pair.manifest .absent none).2

def rollBack (localManifest : WorkerCacheLayoutManifest) : List Pair → Workers → Workers
  | [], workers => workers
  | pair :: pairs, workers =>
    rollBack localManifest pairs (workers.unlinkPair localManifest pair)

def recordPeers (localManifest : WorkerCacheLayoutManifest) :
    List Pair → Table String LocalCachePeer → Table String LocalCachePeer
  | [], cachePeers => cachePeers
  | pair :: pairs, cachePeers =>
    recordPeers localManifest pairs
      (cachePeers.insert pair.remoteAddr ⟨localManifest, pair.manifest⟩)

/-- `network` is what becomes of the requests to the remote worker of each index. -/
def linkSessions (clusterIds : List Nat) (remoteAddrs : List String) (network : Nat → Network) :
    Bool × Workers :=
  match workers.pairsToLink clusterIds remoteAddrs network with
  | none => (false, workers)
  | some (localManifest, pairs) =>
    let (linked, next) := linkPairs localManifest pairs workers
    if linked = false then (false, rollBack localManifest pairs next)
    else (true, { next with cachePeers := recordPeers localManifest pairs next.cachePeers })

end Workers

end Xllm.Framework
