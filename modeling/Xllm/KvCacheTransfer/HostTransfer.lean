import Xllm.KvCacheTransfer.HostLayout

/-!
# The basic transfer of host blocks

`basic_transfer.cpp` of `core/framework/kv_cache_transfer/host_transfer`, and the checks of
`transfer.cpp` around a load and an offload. The basic transfer copies block by block, range by
range; a load records an event after the copies of a range, and one after those of the draft
caches.

The copies of one stream are made in the order of submission. What the copy engine and the
synchronizer answer is a `StreamEnv`. `none` is a transfer that has returned `false`, or a check
that has failed. A `log` records the blocks that were copied and the events that were recorded.
-/


namespace Xllm.Framework

open Xllm.Lib

inductive TransferEvent
  | copied (copy : TensorCopy)
  | recorded (index : Nat)
  deriving DecidableEq, Repr

/-- Whether a submission, a layer event or a slot's event succeeds after what has happened. -/
structure StreamEnv where
  submit : List TransferEvent → Bool
  recordStream : List TransferEvent → Bool
  recordEvent : List TransferEvent → Bool

structure LoadState where
  device : DeviceMemory
  log : List TransferEvent := []

/-- `record_stream`. -/
def recordStream (env : StreamEnv) (index : Nat) (s : LoadState) : Option LoadState :=
  if env.recordStream s.log then some { s with log := s.log ++ [.recorded index] } else none

/-! ## The basic transfer -/

section

variable (layout : HostKVLayout)

def planMapping (range : LayerRange) (mapping : HostKVMapping) : Option (List TensorCopy) :=
  let group := layout.group mapping.groupId
  ((group.layers.filter range.contains).mapM fun layer =>
    (getDeviceTransferTensors layer mapping.checkpointRow).map fun tensors =>
      (tensors.filter fun entry => (group.hostRoles.lookup entry.1).isSome).map
        (tensorCopy mapping layer)).map List.flatten

def buildPlan (mappings : List HostKVMapping) (range : LayerRange) : Option (List TensorCopy) :=
  (mappings.mapM (planMapping layout range)).map List.flatten

variable (env : StreamEnv)

/-- `submit_h2d` of a plan, unless it is empty. -/
def submitPlan (host : HostMemory) (plan : List TensorCopy) (s : LoadState) : Option LoadState :=
  if plan.isEmpty then some s
  else if env.submit s.log then
    some { device := writes TensorCopy.deviceCell (loadBytes host) plan s.device
           log := s.log ++ plan.map .copied }
  else none

/-- `BasicHostKVTransfer::Impl::load`. -/
def basicLoadImpl (ranges : List LayerRange) (host : HostMemory) (request : HostKVRequest)
    (s : LoadState) : Option LoadState := do
  let s ← ranges.zipIdx.foldlM (fun s entry => do
    let plan ← buildPlan layout request.targetMappings entry.1
    let s ← submitPlan env host plan s
    recordStream env entry.2 s) s
  let s ← ranges.foldlM (fun s range => do
    let plan ← buildPlan layout request.draftMappings range
    submitPlan env host plan s) s
  if request.draftMappings = [] then some s else recordStream env ranges.length s

structure OffloadState where
  host : HostMemory
  log : List TransferEvent := []

/-- `copy_d2h` of a plan, unless it is empty. -/
def copyPlan (device : DeviceMemory) (plan : List TensorCopy) (s : OffloadState) :
    Option OffloadState :=
  if plan.isEmpty then some s
  else if env.submit s.log then
    some { host := writes TensorCopy.hostSlot (offloadBytes device) plan s.host
           log := s.log ++ plan.map .copied }
  else none

def offloadMappings (ranges : List LayerRange) (device : DeviceMemory)
    (mappings : List HostKVMapping) (s : OffloadState) : Option OffloadState :=
  ranges.foldlM (fun s range => do
    let plan ← buildPlan layout mappings range
    copyPlan env device plan s) s

/-- `BasicHostKVTransfer::Impl::offload`. -/
def basicOffloadImpl (ranges : List LayerRange) (device : DeviceMemory) (request : HostKVRequest)
    (s : OffloadState) : Option OffloadState := do
  let s ← offloadMappings layout env ranges device request.targetMappings s
  offloadMappings layout env ranges device request.draftMappings s

/-- `HostKVTransfer::load`, with the load of a transfer that has one event for each range. -/
def hostLoad {State : Type} (layerCopyBatches : Nat) (request : HostKVRequest)
    (handle : HostKVLoadHandle) (loadImpl : Option State) : Option State :=
  if layout.validRequest request true ∧
      validHandle (layout.ranges layerCopyBatches).length
        (getLayersPerEvent layout.numLayers layerCopyBatches) request handle then loadImpl
  else none

/-- `HostKVTransfer::offload`. -/
def hostOffload {State : Type} (request : HostKVRequest) (offloadImpl : Option State) :
    Option State :=
  if layout.validRequest request false then offloadImpl else none

end

end Xllm.Framework
