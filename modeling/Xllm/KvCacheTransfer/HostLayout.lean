import Xllm.Block.Leaf
import Xllm.KvCacheTransfer.CacheLayoutBuilder
import Xllm.Lib.Writes

/-!
# Host cache layouts, requests and copies

`layout.cpp`, `transfer.cpp` and `transfer_utils.cpp` of
`core/framework/kv_cache_transfer/host_transfer`. The layers of a group share host tensors of shape
`[blocks, layer slots, block]`, one for each role, and each layer has a device tensor of shape
`[blocks, block]` for each of its roles.

Every role of every layer has a device tensor of its own. For each of its blocks the cache holds a
row of bytes, and a tensor is a view of the rows: of a linear attention cache it shows the rows of
one checkpoint. The constructor's checks are fields of a layout; those on devices, on overflow and
on dtype alignment, which only refuse further layouts, are left out.
-/

namespace Xllm.Framework

open Xllm.Lib

/-! ## Tensors -/

/-- Block `b` of the tensor is `blockBytes` bytes, from `offset` on, of what the cache holds for
`b`. -/
structure DeviceRoleTensor where
  blockCount : Int
  offset : Nat := 0
  blockBytes : Nat
  deriving DecidableEq, Repr

structure HostRoleTensor where
  blockCount : Int
  layerSlots : Nat
  blockBytes : Nat
  deriving DecidableEq, Repr

/-- `LinearAttentionKVCacheImpl`: the history rows of the convolution and the checkpoints of the
state. -/
structure LinearAttentionKVCache where
  blockCount : Int
  convHistoryRows : Nat
  convRowBytes : Nat
  checkpointStride : Nat
  ssmRowBytes : Nat
  deriving DecidableEq, Repr

def kCommittedConvRows : Nat := 3

/-- `BlockTypeTensorMap`. -/
abbrev BlockTypeTensorMap := List (KVCacheTensorRole × DeviceRoleTensor)

/-- `get_block_type_tensors`: `none` when a check fails. -/
def LinearAttentionKVCache.getBlockTypeTensors (cache : LinearAttentionKVCache)
    (checkpointRow : Nat) : Option BlockTypeTensorMap :=
  if kCommittedConvRows ≤ cache.convHistoryRows ∧
      checkpointRow ≤ cache.convHistoryRows - kCommittedConvRows ∧
      checkpointRow < cache.checkpointStride then
    some [(.CONV, { blockCount := cache.blockCount
                    offset := checkpointRow * cache.convRowBytes
                    blockBytes := kCommittedConvRows * cache.convRowBytes }),
          (.SSM, { blockCount := cache.blockCount
                   offset := checkpointRow * cache.ssmRowBytes
                   blockBytes := cache.ssmRowBytes })]
  else none

/-! ## Layouts -/

structure HostKVLayerLayout where
  absoluteLayerId : Nat
  groupLayerSlot : Nat
  deviceRoles : BlockTypeTensorMap
  deviceCache : Option LinearAttentionKVCache := none
  blockType : BlockType := .kv
  deriving DecidableEq, Repr

/-- Only the caches of a LINEAR layout look at the checkpoint row. -/
def getDeviceTransferTensors (layer : HostKVLayerLayout) (checkpointRow : Nat) :
    Option BlockTypeTensorMap :=
  match layer.deviceCache with
  | none => some layer.deviceRoles
  | some cache =>
    if layer.blockType ≠ .linear then some layer.deviceRoles
    else cache.getBlockTypeTensors checkpointRow

structure HostKVGroupLayout where
  groupId : Int := -1
  hostRoles : List (KVCacheTensorRole × HostRoleTensor) := []
  layers : List HostKVLayerLayout := []
  deriving DecidableEq, Repr

/-- `active_roles` of some layers, in the order of the roles. -/
def activeRoles (layers : List HostKVLayerLayout) : List KVCacheTensorRole :=
  (layers.flatMap fun layer => layer.deviceRoles.map Prod.fst).dedup.insertionSort
    fun role role' => role.value ≤ role'.value

/-- `block_bytes`: those of the first layer that has the role. -/
def HostKVGroupLayout.blockBytes (group : HostKVGroupLayout) (role : KVCacheTensorRole) : Nat :=
  ((group.layers.findSome? (·.deviceRoles.lookup role)).map (·.blockBytes)).getD 0

/-- `host_block_count`. -/
def HostKVGroupLayout.hostBlockCount (group : HostKVGroupLayout) : Int :=
  (group.hostRoles.head?.map (·.2.blockCount)).getD 0

/-- `device_block_count`. -/
def HostKVGroupLayout.deviceBlockCount (group : HostKVGroupLayout) : Int :=
  ((group.layers.head?.bind (·.deviceRoles.head?)).map (·.2.blockCount)).getD 0

/-- What the constructor checks of a group whose layers it has sorted. `linear` is how the layers
of a cache are made: their device tensors are those of its first checkpoint. -/
structure GroupChecked (numLayers : Nat) (group : HostKVGroupLayout) : Prop where
  layers_ne_nil : group.layers ≠ []
  layerIds : (group.layers.map (·.absoluteLayerId)).Pairwise (· < ·)
  layerBound : ∀ layer ∈ group.layers, layer.absoluteLayerId < numLayers
  slots : (group.layers.map (·.groupLayerSlot)).Nodup
  hostRoles : (group.hostRoles.map Prod.fst).Nodup
  hostBlocks : ∀ entry ∈ group.hostRoles, entry.2.blockCount = group.hostBlockCount
  deviceRoles : ∀ layer ∈ group.layers,
    layer.deviceRoles ≠ [] ∧ (layer.deviceRoles.map Prod.fst).Nodup
  deviceBlocks : ∀ layer ∈ group.layers, ∀ entry ∈ layer.deviceRoles,
    entry.2.blockCount = group.deviceBlockCount
  active : ∀ layer ∈ group.layers, ∀ entry ∈ layer.deviceRoles, 0 < entry.2.blockBytes ∧
    ∃ host, group.hostRoles.lookup entry.1 = some host ∧ host.blockBytes = entry.2.blockBytes ∧
      ∀ other ∈ group.layers, other.groupLayerSlot < host.layerSlots
  linear : ∀ layer ∈ group.layers, ∀ cache, layer.deviceCache = some cache →
    layer.blockType = .linear → cache.getBlockTypeTensors 0 = some layer.deviceRoles

/-- A layout that was constructed: its groups are sorted, and all checks have passed. -/
structure HostKVLayout where
  numLayers : Nat
  groups : List HostKVGroupLayout
  numLayers_pos : 0 < numLayers
  groupIds : (groups.map (·.groupId)).Pairwise (· < ·)
  checked : ∀ group ∈ groups, GroupChecked numLayers group

def HostKVLayout.findGroup (layout : HostKVLayout) (groupId : Int) : Option HostKVGroupLayout :=
  layout.groups.find? (·.groupId = groupId)

def HostKVLayout.group (layout : HostKVLayout) (groupId : Int) : HostKVGroupLayout :=
  (layout.findGroup groupId).getD {}

/-! ## Requests -/

structure HostKVMapping where
  groupId : Int
  hostBlockId : Int
  deviceBlockId : Int
  checkpointRow : Nat := 0
  deriving DecidableEq, Repr

structure HostKVRequest where
  targetMappings : List HostKVMapping
  draftMappings : List HostKVMapping := []
  deriving DecidableEq, Repr

/-- The block that a mapping writes. -/
def HostKVMapping.destination (isLoad : Bool) (mapping : HostKVMapping) : Int × Int :=
  (mapping.groupId, if isLoad then mapping.deviceBlockId else mapping.hostBlockId)

/-- `validate_mappings`, from the destinations seen before. -/
def HostKVLayout.validateMappings (layout : HostKVLayout) (isLoad : Bool) :
    List (Int × Int) → List HostKVMapping → Option (List (Int × Int))
  | destinations, [] => some destinations
  | destinations, mapping :: mappings =>
    if (layout.findGroup mapping.groupId).isNone ∨ mapping.hostBlockId < 0 ∨
        (layout.group mapping.groupId).hostBlockCount ≤ mapping.hostBlockId ∨
        mapping.deviceBlockId < 0 ∨
        (layout.group mapping.groupId).deviceBlockCount ≤ mapping.deviceBlockId then none
    else if mapping.destination isLoad ∈ destinations then none
    else validateMappings layout isLoad (mapping.destination isLoad :: destinations) mappings

def HostKVLayout.validRequest (layout : HostKVLayout) (request : HostKVRequest) (isLoad : Bool) :
    Bool :=
  if request.targetMappings = [] ∧ request.draftMappings = [] then false
  else
    match layout.validateMappings isLoad [] request.targetMappings with
    | none => false
    | some destinations =>
      (layout.validateMappings isLoad destinations request.draftMappings).isSome

/-- `synchronizerSize` is `none` where there is no synchronizer. -/
structure HostKVLoadHandle where
  synchronizerSize : Option Nat
  layersPerEvent : Nat
  deriving DecidableEq, Repr

/-- `valid_handle` of a transfer with these events. -/
def validHandle (loadEventCount layersPerEvent : Nat) (request : HostKVRequest)
    (handle : HostKVLoadHandle) : Bool :=
  handle.synchronizerSize =
      some (loadEventCount + if request.draftMappings = [] then 0 else 1) ∧
    handle.layersPerEvent = layersPerEvent

/-! ## Layer ranges and groups of mappings -/

/-- The layers from `beginLayer` on and before `endLayer`. -/
structure LayerRange where
  beginLayer : Nat
  endLayer : Nat
  deriving DecidableEq, Repr

def LayerRange.contains (range : LayerRange) (layer : HostKVLayerLayout) : Bool :=
  range.beginLayer ≤ layer.absoluteLayerId ∧ layer.absoluteLayerId < range.endLayer

def getLayersPerEvent (numLayers requestedBatches : Nat) : Nat :=
  max (if requestedBatches = 0 then numLayers else numLayers / requestedBatches) 1

/-- The loop over the layers in steps of `layersPerEvent`. -/
def buildLayerRanges (numLayers layersPerEvent : Nat) : List LayerRange :=
  (List.range ((numLayers + layersPerEvent - 1) / layersPerEvent)).map fun i =>
    { beginLayer := i * layersPerEvent
      endLayer := min (i * layersPerEvent + layersPerEvent) numLayers }

/-- The ranges of a transfer. -/
def HostKVLayout.ranges (layout : HostKVLayout) (layerCopyBatches : Nat) : List LayerRange :=
  buildLayerRanges layout.numLayers (getLayersPerEvent layout.numLayers layerCopyBatches)

/-- `GroupedHostKVMappings`: the mappings by group, in the order of the groups. -/
abbrev GroupedHostKVMappings := List (Int × List HostKVMapping)

/-- `grouped[mapping.group_id].emplace_back(mapping)`. -/
def addMapping (mapping : HostKVMapping) : GroupedHostKVMappings → GroupedHostKVMappings
  | [] => [(mapping.groupId, [mapping])]
  | (groupId, mappings) :: rest =>
    if mapping.groupId < groupId then
      (mapping.groupId, [mapping]) :: (groupId, mappings) :: rest
    else if mapping.groupId = groupId then (groupId, mappings ++ [mapping]) :: rest
    else (groupId, mappings) :: addMapping mapping rest

def groupMappings (mappings : List HostKVMapping) : GroupedHostKVMappings :=
  mappings.foldl (fun grouped mapping => addMapping mapping grouped) []

/-! ## Memory and copies -/

abbrev CacheBytes := Nat → UInt8

/-- What a role of a layer holds for a block. -/
structure DeviceCell where
  groupId : Int
  absoluteLayerId : Nat
  role : KVCacheTensorRole
  deviceBlockId : Int
  deriving DecidableEq, Repr

/-- A layer slot of a host block. -/
structure HostSlot where
  groupId : Int
  role : KVCacheTensorRole
  hostBlockId : Int
  groupLayerSlot : Nat
  deriving DecidableEq, Repr

abbrev DeviceMemory := DeviceCell → CacheBytes

abbrev HostMemory := HostSlot → CacheBytes

/-- One block of one tensor, to be copied between the device and the host. -/
structure TensorCopy where
  deviceCell : DeviceCell
  hostSlot : HostSlot
  offset : Nat
  blockBytes : Nat
  deriving DecidableEq, Repr

def tensorCopy (mapping : HostKVMapping) (layer : HostKVLayerLayout)
    (entry : KVCacheTensorRole × DeviceRoleTensor) : TensorCopy :=
  { deviceCell := ⟨mapping.groupId, layer.absoluteLayerId, entry.1, mapping.deviceBlockId⟩
    hostSlot := ⟨mapping.groupId, entry.1, mapping.hostBlockId, layer.groupLayerSlot⟩
    offset := entry.2.offset
    blockBytes := entry.2.blockBytes }

/-- What a load makes of the bytes at the destination of a copy. -/
def loadBytes (host : HostMemory) (copy : TensorCopy) (bytes : CacheBytes) : CacheBytes :=
  blit bytes copy.offset (host copy.hostSlot) 0 copy.blockBytes

/-- What an offload makes of them. -/
def offloadBytes (device : DeviceMemory) (copy : TensorCopy) (bytes : CacheBytes) : CacheBytes :=
  blit bytes 0 (device copy.deviceCell) copy.offset copy.blockBytes

end Xllm.Framework
