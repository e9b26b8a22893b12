import Xllm.KvCacheTransfer.HostTransfer

/-!
# The compact load

`compact_load_executor.cpp` of `core/framework/kv_cache_transfer/host_transfer`. The layer slots
of a range are contiguous on the host. They are copied into a staging buffer, as many mappings at
a time as fit, and the buffer is scattered over the layers. There are two staging slots, used in
turn; what they hold from earlier loads is part of the state.
-/

namespace Xllm.Framework

open Xllm.Lib

structure RangeState where
  slotBegin : Nat := 0
  slotEnd : Nat := 0
  activeRoles : List KVCacheTensorRole := []
  deriving DecidableEq, Repr

/-- `init_range`: the slots of the layers must be contiguous. -/
def initRange (group : HostKVGroupLayout) (range : LayerRange) : Option RangeState :=
  match group.layers.filter range.contains with
  | [] => some {}
  | first :: rest =>
    let slotEnd := ((first :: rest).getLast (List.cons_ne_nil _ _)).groupLayerSlot + 1
    if (first :: rest).map (·.groupLayerSlot) =
          List.range' first.groupLayerSlot (first :: rest).length ∧
        first.groupLayerSlot + (first :: rest).length = slotEnd then
      some { slotBegin := first.groupLayerSlot
             slotEnd
             activeRoles := activeRoles (first :: rest) }
    else none

/-- The largest span of bytes that a range has of a block. -/
def maxSpanBytes (group : HostKVGroupLayout) (ranges : List RangeState) : Nat :=
  (ranges.flatMap fun range => range.activeRoles.map fun role =>
    (range.slotEnd - range.slotBegin) * group.blockBytes role).foldl max 0

structure LoadGroupState where
  layout : HostKVGroupLayout := {}
  ranges : List RangeState := []
  blocksPerChunk : Nat := 0
  deriving DecidableEq, Repr

/-- `init_group`. -/
def initLoadGroup (layerRanges : List LayerRange) (targetBytes : Nat) (group : HostKVGroupLayout) :
    Option LoadGroupState := do
  let ranges ← layerRanges.mapM (initRange group)
  if maxSpanBytes group ranges = 0 then none
  else
    some { layout := group
           ranges
           blocksPerChunk := max (targetBytes / maxSpanBytes group ranges) 1 }

/-- `CompactLoadExecutor`, constructed. -/
structure CompactLoadExecutor where
  layerRanges : List LayerRange
  groups : List LoadGroupState

def CompactLoadExecutor.init (layout : HostKVLayout) (layerCopyBatches targetBytes : Nat) :
    Option CompactLoadExecutor :=
  if targetBytes = 0 then none
  else do
    let layerRanges := layout.ranges layerCopyBatches
    let groups ← layout.groups.mapM (initLoadGroup layerRanges targetBytes)
    some { layerRanges, groups }

/-- `groups_.at(group_id)`. -/
def CompactLoadExecutor.group (executor : CompactLoadExecutor) (groupId : Int) : LoadGroupState :=
  (executor.groups.find? (·.layout.groupId = groupId)).getD {}

/-- One of the two staging slots: the rows of a group and role by mapping and layer, and the device
blocks of the mappings on either side. -/
structure LoadSlot where
  staging : Int → KVCacheTensorRole → Nat → Nat → CacheBytes
  hostIndices : Nat → Int
  deviceIndices : Nat → Int

structure CompactLoadState extends LoadState where
  slots : Nat → LoadSlot
  nextSlotIndex : Nat := 0

/-- `fill_indices`. -/
def LoadSlot.fillIndices (slot : LoadSlot) (mappings : List HostKVMapping) : LoadSlot :=
  { slot with
    hostIndices := fun i => (mappings[i]?.map (·.deviceBlockId)).getD (slot.hostIndices i) }

/-- `enqueue_h2d`: every active role of the range comes with all its layer slots. -/
def LoadSlot.enqueueH2d (slot : LoadSlot) (host : HostMemory) (groupId : Int) (range : RangeState)
    (mappings : List HostKVMapping) : LoadSlot :=
  { slot with
    staging := fun id role i layer =>
      match mappings[i]? with
      | none => slot.staging id role i layer
      | some mapping =>
        if id = groupId ∧ role ∈ range.activeRoles ∧ layer < range.slotEnd - range.slotBegin then
          host ⟨groupId, role, mapping.hostBlockId, range.slotBegin + layer⟩
        else slot.staging id role i layer
    deviceIndices := fun i =>
      if i < mappings.length then slot.hostIndices i else slot.deviceIndices i }

/-- A row of the staging buffer, and where it goes. -/
structure ScatterRow where
  role : KVCacheTensorRole
  index : Nat
  stagingLayer : Nat
  copy : TensorCopy
  deriving DecidableEq, Repr

/-- The rows that `scatter` writes, layer by layer and role by role. -/
def scatterRows (group : HostKVGroupLayout) (layerRange : LayerRange) (range : RangeState)
    (mappings : List HostKVMapping) : List ScatterRow :=
  (group.layers.filter layerRange.contains).flatMap fun layer =>
    layer.deviceRoles.flatMap fun entry =>
      mappings.zipIdx.map fun indexed =>
        { role := entry.1
          index := indexed.2
          stagingLayer := layer.groupLayerSlot - range.slotBegin
          copy := tensorCopy indexed.1 layer entry }

/-- `index_copy_` puts a row where the device indices say. -/
def ScatterRow.target (slot : LoadSlot) (row : ScatterRow) : DeviceCell :=
  { row.copy.deviceCell with deviceBlockId := slot.deviceIndices row.index }

def ScatterRow.bytes (slot : LoadSlot) (groupId : Int) (row : ScatterRow) (bytes : CacheBytes) :
    CacheBytes :=
  blit bytes row.copy.offset (slot.staging groupId row.role row.index row.stagingLayer) 0
    row.copy.blockBytes

section

variable (env : StreamEnv) (host : HostMemory)

/-- One chunk of `submit_range`. -/
def submitChunk (group : LoadGroupState) (layerRange : LayerRange) (range : RangeState)
    (s : CompactLoadState) (mappings : List HostKVMapping) : Option CompactLoadState :=
  let groupId := group.layout.groupId
  let filled := (s.slots s.nextSlotIndex).fillIndices mappings
  let slot := filled.enqueueH2d host groupId range mappings
  let rows := scatterRows group.layout layerRange range mappings
  let log := s.log ++ rows.map fun row => .copied { row.copy with deviceCell := row.target slot }
  if ¬ env.submit s.log then none
  else if ¬ env.recordEvent log then none
  else
    some { device := writes (ScatterRow.target slot) (ScatterRow.bytes slot groupId) rows s.device
           log
           slots := Function.update s.slots s.nextSlotIndex slot
           nextSlotIndex := (s.nextSlotIndex + 1) % 2 }

/-- The pieces of a list, `size` elements each: the loop over its offsets. -/
def tilesOf {α : Type} (size : Nat) (xs : List α) : List (List α) :=
  (List.range ((xs.length + size - 1) / size)).map fun i => (xs.drop (i * size)).take size

/-- `submit_range`. -/
def submitRange (group : LoadGroupState) (layerRange : LayerRange) (rangeIndex : Nat)
    (mappings : List HostKVMapping) (s : CompactLoadState) : Option CompactLoadState :=
  let range := group.ranges.getD rangeIndex {}
  if range.slotBegin = range.slotEnd then some s
  else
    (tilesOf group.blocksPerChunk mappings).foldlM (submitChunk env host group layerRange range) s

def submitGroups (executor : CompactLoadExecutor) (mappings : List HostKVMapping)
    (layerRange : LayerRange) (rangeIndex : Nat) (s : CompactLoadState) :
    Option CompactLoadState :=
  (groupMappings mappings).foldlM (fun s entry =>
    submitRange env host (executor.group entry.1) layerRange rangeIndex entry.2 s) s

def recordCompact (index : Nat) (s : CompactLoadState) : Option CompactLoadState :=
  (recordStream env index s.toLoadState).map fun load => { s with toLoadState := load }

/-- `CompactLoadExecutor::execute`. -/
def CompactLoadExecutor.execute (executor : CompactLoadExecutor) (request : HostKVRequest)
    (s : CompactLoadState) : Option CompactLoadState := do
  let s ← executor.layerRanges.zipIdx.foldlM (fun s entry => do
    let s ← submitGroups env host executor request.targetMappings entry.1 entry.2 s
    recordCompact env entry.2 s) s
  let s ← executor.layerRanges.zipIdx.foldlM (fun s entry =>
    submitGroups env host executor request.draftMappings entry.1 entry.2 s) s
  if request.draftMappings = [] then some s
  else recordCompact env executor.layerRanges.length s

end

end Xllm.Framework
