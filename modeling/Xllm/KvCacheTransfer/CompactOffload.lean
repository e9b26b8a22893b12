import Xllm.KvCacheTransfer.CompactLoad

/-!
# The compact offload

`compact_offload_executor.cpp` of `core/framework/kv_cache_transfer/host_transfer`. The mappings
of a group are sorted, those of one checkpoint row are cut into tiles, and a tile is packed into a
slot, mapping by mapping, with the bytes of every role for all layer slots; then it is copied to
the host role by role.

One stream packs and one copies. A tile is copied after it is packed, and a slot is packed again
only when the copy of the tile before in it has completed; beyond these events the streams run as
they like (`OffloadStep`).
-/

namespace Xllm.Framework

open Xllm.Lib

/-- Where a layer stands in the packed bytes of a mapping. -/
structure OffloadSource where
  destinationOffset : Nat
  layer : HostKVLayerLayout
  deriving DecidableEq, Repr

/-- The bytes of a role, those of all layer slots, in the packed bytes of a mapping. -/
structure OffloadRole where
  role : KVCacheTensorRole
  host : HostRoleTensor
  sources : List OffloadSource
  blockBytes : Nat
  packedOffset : Nat
  paddedBytes : Nat
  deriving DecidableEq, Repr

structure OffloadGroupState where
  groupId : Int := -1
  roles : List OffloadRole := []
  packedBytes : Nat := 0
  blocksPerTile : Nat := 0
  deriving DecidableEq, Repr

/-- `append_role`. -/
def appendRole (layoutGroup : HostKVGroupLayout) (group : OffloadGroupState)
    (role : KVCacheTensorRole) : Option OffloadGroupState := do
  let host ← layoutGroup.hostRoles.lookup role
  let blockBytes := layoutGroup.blockBytes role
  let paddedBytes := host.layerSlots * host.blockBytes
  let layers := layoutGroup.layers.filter fun layer => (layer.deviceRoles.lookup role).isSome
  let sources : List OffloadSource := layers.map fun layer =>
    { destinationOffset := group.packedBytes + layer.groupLayerSlot * blockBytes, layer }
  let offsets := (sources.map (·.destinationOffset)).insertionSort (· ≤ ·)
  if ¬ (∀ source ∈ sources,
      source.destinationOffset + blockBytes ≤ group.packedBytes + paddedBytes) then none
  else if sources = [] then none
  else if ¬ offsets.IsChain (fun a b => a + blockBytes ≤ b) then none
  else
    some { group with
      roles := group.roles ++
        [{ role, host, sources, blockBytes, packedOffset := group.packedBytes, paddedBytes }]
      packedBytes := group.packedBytes + paddedBytes }

/-- `make_group`, and the size of its tiles. -/
def makeOffloadGroup (targetBytes : Nat) (layoutGroup : HostKVGroupLayout) :
    Option OffloadGroupState := do
  let group ← (activeRoles layoutGroup.layers).foldlM (appendRole layoutGroup)
    { groupId := layoutGroup.groupId }
  if group.roles = [] ∨ group.packedBytes = 0 then none
  else some { group with blocksPerTile := max 1 (targetBytes / group.packedBytes) }

def kCompactD2HSlotAlignment : Nat := 512

def alignedSlotBytes (bytes : Nat) : Nat :=
  (bytes + kCompactD2HSlotAlignment - 1) / kCompactD2HSlotAlignment * kCompactD2HSlotAlignment

/-- `CompactOffloadExecutor`, constructed. -/
structure CompactOffloadExecutor where
  groups : List OffloadGroupState
  slotBytes : Nat

def CompactOffloadExecutor.init (layout : HostKVLayout) (targetBytes : Nat) :
    Option CompactOffloadExecutor :=
  if targetBytes = 0 then none
  else do
    let groups ← layout.groups.mapM (makeOffloadGroup targetBytes)
    some { groups
           slotBytes := alignedSlotBytes
            ((groups.map fun group => group.blocksPerTile * group.packedBytes).foldl max 0) }

/-- `groups_.at(group_id)`. -/
def CompactOffloadExecutor.group (executor : CompactOffloadExecutor) (groupId : Int) :
    OffloadGroupState :=
  (executor.groups.find? (·.groupId = groupId)).getD {}

/-- `mapping_less`. -/
def mappingLess (lhs rhs : HostKVMapping) : Bool :=
  if lhs.checkpointRow ≠ rhs.checkpointRow then lhs.checkpointRow < rhs.checkpointRow
  else if lhs.deviceBlockId ≠ rhs.deviceBlockId then lhs.deviceBlockId < rhs.deviceBlockId
  else lhs.hostBlockId < rhs.hostBlockId

structure OffloadTile where
  group : OffloadGroupState
  mappings : List HostKVMapping
  checkpointRow : Nat
  deriving DecidableEq, Repr

def offloadStages (mappings : List HostKVMapping) : List (List HostKVMapping) :=
  (mappings.insertionSort fun a b => ¬ mappingLess b a).splitBy fun a b =>
    a.checkpointRow == b.checkpointRow

def groupTiles (group : OffloadGroupState) (mappings : List HostKVMapping) : List OffloadTile :=
  (offloadStages mappings).flatMap fun stage =>
    (tilesOf group.blocksPerTile stage).map fun tile =>
      { group, mappings := tile, checkpointRow := (stage.head?.map (·.checkpointRow)).getD 0 }

/-- The tiles that `execute` submits. -/
def CompactOffloadExecutor.tiles (executor : CompactOffloadExecutor) (request : HostKVRequest) :
    List OffloadTile :=
  let requestGroups := request.draftMappings.foldl
    (fun grouped mapping => addMapping mapping grouped) (groupMappings request.targetMappings)
  requestGroups.flatMap fun entry => groupTiles (executor.group entry.1) entry.2

structure OffloadSlot where
  packed : CacheBytes
  lastGroupId : Int

/-- A device tensor that `pack_blocks` reads, with its place in the packed bytes of a mapping. -/
structure PackSource where
  layer : HostKVLayerLayout
  entry : KVCacheTensorRole × DeviceRoleTensor
  destinationOffset : Nat
  blockBytes : Nat

/-- The sources of `pack_blocks`. -/
def packSources (group : OffloadGroupState) (checkpointRow : Nat) : Option (List PackSource) :=
  (group.roles.flatMap fun role => role.sources.map fun source => (role, source)).mapM fun entry =>
    (getDeviceTransferTensors entry.2.layer checkpointRow).bind fun tensors =>
      (tensors.lookup entry.1.role).map fun tensor =>
        { layer := entry.2.layer
          entry := (entry.1.role, tensor)
          destinationOffset := entry.2.destinationOffset
          blockBytes := entry.1.blockBytes }

/-- `pack_cache_blocks`: block `i` of every source goes to its place in row `i`. -/
def packBlits (device : DeviceMemory) (tile : OffloadTile) (sources : List PackSource) :
    List (Blit UInt8) :=
  sources.flatMap fun source => tile.mappings.zipIdx.map fun indexed =>
    { target := indexed.2 * tile.group.packedBytes + source.destinationOffset
      src := device ⟨tile.group.groupId, source.layer.absoluteLayerId, source.entry.1,
        indexed.1.deviceBlockId⟩
      start := source.entry.2.offset
      size := source.blockBytes }

/-- A layer slot of a role of a mapping, as `submit_d2h` copies it with all others of the role. -/
structure D2hRow where
  hostSlot : HostSlot
  start : Nat
  size : Nat
  deriving DecidableEq, Repr

def D2hRow.bytes (packed : CacheBytes) (row : D2hRow) (bytes : CacheBytes) : CacheBytes :=
  blit bytes 0 packed row.start row.size

def d2hRows (tile : OffloadTile) : List D2hRow :=
  tile.mappings.zipIdx.flatMap fun indexed =>
    tile.group.roles.flatMap fun role =>
      (List.range role.host.layerSlots).map fun slot =>
        { hostSlot := ⟨tile.group.groupId, role.role, indexed.1.hostBlockId, slot⟩
          start := indexed.2 * tile.group.packedBytes + role.packedOffset +
            slot * role.host.blockBytes
          size := role.host.blockBytes }

def tileCopies (tile : OffloadTile) (sources : List PackSource) : List TensorCopy :=
  sources.flatMap fun source => tile.mappings.map fun mapping =>
    tensorCopy mapping source.layer source.entry

/-- An offload under way: the first `packedTiles` tiles are packed and the first `copiedTiles`
copied. -/
structure CompactOffloadState extends OffloadState where
  slots : Nat → OffloadSlot
  packedTiles : Nat := 0
  copiedTiles : Nat := 0

section

variable (executor : CompactOffloadExecutor) (device : DeviceMemory) (tiles : List OffloadTile)
  (nextSlotIndex : Nat)

def slotOf (tile : Nat) : Nat := (nextSlotIndex + tile) % 2

/-- `submit` packs the tile; the slot is cleared when it held another group. -/
def packTile (s : CompactOffloadState) (tile : OffloadTile) (sources : List PackSource) :
    CompactOffloadState :=
  let slot := s.slots (slotOf nextSlotIndex s.packedTiles)
  let packed := if slot.lastGroupId ≠ tile.group.groupId then fun _ => 0 else slot.packed
  { s with
    slots := Function.update s.slots (slotOf nextSlotIndex s.packedTiles)
      { packed := blits (packBlits device tile sources) packed
        lastGroupId := tile.group.groupId }
    log := s.log ++ (tileCopies tile sources).map .copied
    packedTiles := s.packedTiles + 1 }

/-- `submit_d2h`. -/
def copyTile (s : CompactOffloadState) (tile : OffloadTile) : CompactOffloadState :=
  { s with
    host := writes D2hRow.hostSlot
      (D2hRow.bytes (s.slots (slotOf nextSlotIndex s.copiedTiles)).packed) (d2hRows tile) s.host
    copiedTiles := s.copiedTiles + 1 }

/-- What the two streams may do next. -/
inductive OffloadStep : CompactOffloadState → CompactOffloadState → Prop
  /-- The tile fits into the slot, and the copy of the tile before it in the slot has completed. -/
  | pack {s : CompactOffloadState} {tile : OffloadTile} {sources : List PackSource}
      (htile : tiles[s.packedTiles]? = some tile) (hslot : s.packedTiles < s.copiedTiles + 2)
      (hfits : tile.mappings.length * tile.group.packedBytes ≤ executor.slotBytes)
      (hsources : packSources tile.group tile.checkpointRow = some sources) :
      OffloadStep s (packTile device nextSlotIndex s tile sources)
  /-- The tile is packed. -/
  | copy {s : CompactOffloadState} {tile : OffloadTile} (htile : tiles[s.copiedTiles]? = some tile)
      (hpacked : s.copiedTiles < s.packedTiles) :
      OffloadStep s (copyTile nextSlotIndex s tile)

end

/-- `execute` returns when all its tiles are copied. -/
def CompactOffloadExecutor.Executes (executor : CompactOffloadExecutor) (device : DeviceMemory)
    (nextSlotIndex : Nat) (request : HostKVRequest) (s s' : CompactOffloadState) : Prop :=
  Relation.ReflTransGen (OffloadStep executor device (executor.tiles request) nextSlotIndex)
    { s with packedTiles := 0, copiedTiles := 0 } s' ∧
  s'.copiedTiles = (executor.tiles request).length

end Xllm.Framework
