import Xllm.KvCacheTransfer.OffloadGroups

/-!
# A tile of the compact offload

A packed slot holds every block of the tile, whatever it held before (`packed_holds`), and on the
slots of active layers the copy of such a slot does what the copies of the tile's mappings do one
by one (`d2hRows_writes`). The other layer slots of a role come along as they are.
-/

namespace Xllm.Framework

open Xllm.Lib List

/-- The mappings of a tile are of one group and one checkpoint row. -/
structure OffloadTileOf (layout : HostKVLayout) (tile : OffloadTile) : Prop where
  group : layout.group tile.group.groupId ∈ layout.groups
  state : OffloadGroupOf (layout.group tile.group.groupId) tile.group
  groupIds : ∀ mapping ∈ tile.mappings, mapping.groupId = tile.group.groupId
  checkpointRows : ∀ mapping ∈ tile.mappings, mapping.checkpointRow = tile.checkpointRow
  hostBlocks : (tile.mappings.map (·.hostBlockId)).Nodup
  rows : ∀ layer ∈ (layout.group tile.group.groupId).layers,
    (getDeviceTransferTensors layer tile.checkpointRow).isSome

def HostSlot.Active (layout : HostKVLayout) (slot : HostSlot) : Prop :=
  ∃ layer ∈ (layout.group slot.groupId).layers, layer.groupLayerSlot = slot.groupLayerSlot ∧
    ∃ entry ∈ layer.deviceRoles, entry.1 = slot.role

namespace OffloadTileOf

variable {layout : HostKVLayout} {tile : OffloadTile} {sources : List PackSource}

/-! ## Copies -/

theorem tileCopies_perm (h : OffloadTileOf layout tile)
    (hsources : packSources tile.group tile.checkpointRow = some sources) :
    (tileCopies tile sources).Perm (expectedCopies layout tile.mappings) := by
  have hchecked := layout.checked _ h.group
  have hpairs := packSources_perm hchecked h.state hsources
  refine (flatMap_map_swap_perm sources tile.mappings
    fun source mapping => tensorCopy mapping source.layer source.entry).trans ?_
  apply List.Perm.flatMap_left
  intro mapping hmapping
  have hcopies := hpairs.map fun pair => tensorCopy mapping pair.1 pair.2
  rw [map_map, map_flatMap] at hcopies
  refine hcopies.trans (List.Perm.of_eq ?_)
  rw [h.groupIds mapping hmapping]
  apply flatMap_congr
  intro layer _
  unfold layerCopies
  rw [h.checkpointRows mapping hmapping, map_map]
  rfl

theorem admitted (h : OffloadTileOf layout tile) {mapping : HostKVMapping}
    (hmapping : mapping ∈ tile.mappings) : Admitted layout mapping := by
  have hid := h.groupIds mapping hmapping
  refine ⟨?_, ?_⟩
  · rw [hid]
    exact ⟨h.group, h.state.groupId.symm⟩
  · rw [hid, h.checkpointRows mapping hmapping]
    exact h.rows

theorem tileCopies_nodup (h : OffloadTileOf layout tile)
    (hsources : packSources tile.group tile.checkpointRow = some sources) :
    ((tileCopies tile sources).map (·.hostSlot)).Nodup := by
  have hperm := (h.tileCopies_perm hsources).map (·.hostSlot)
  apply hperm.nodup_iff.mpr
  apply expectedCopies_hostSlots fun mapping hmapping => h.admitted hmapping
  apply List.Nodup.of_map Prod.snd
  rw [map_map]
  exact h.hostBlocks

/-! ## Packing -/

/-- Every block of the tile is in the packed bytes. -/
def Holds (device : DeviceMemory) (tile : OffloadTile) (sources : List PackSource)
    (packed : CacheBytes) : Prop :=
  ∀ source ∈ sources, ∀ indexed ∈ tile.mappings.zipIdx, ∀ k < source.blockBytes,
    packed (indexed.2 * tile.group.packedBytes + source.destinationOffset + k) =
      device ⟨tile.group.groupId, source.layer.absoluteLayerId, source.entry.1,
        indexed.1.deviceBlockId⟩ (source.entry.2.offset + k)

/-- Places inside different rows of a size are apart. -/
theorem rows_apart {i j rowBytes a size b : Nat} (hij : i < j) (ha : a + size ≤ rowBytes) :
    i * rowBytes + a + size ≤ j * rowBytes + b := by
  have hle := Nat.mul_le_mul_right rowBytes hij
  rw [Nat.succ_mul] at hle
  omega

theorem packBlits_apart (h : OffloadTileOf layout tile)
    (hsources : packSources tile.group tile.checkpointRow = some sources) (device : DeviceMemory) :
    (packBlits device tile sources).Pairwise Blit.Apart := by
  have hchecked := layout.checked _ h.group
  have hinside : ∀ source ∈ sources,
      source.destinationOffset + source.blockBytes ≤ tile.group.packedBytes := by
    intro source hsource
    obtain ⟨role, hpacks⟩ := mem_packSources hchecked h.state hsources hsource
    exact hpacks.inside h.state
  have hindices : tile.mappings.zipIdx.Pairwise fun indexed later => indexed.2 < later.2 := by
    have hlt : (tile.mappings.zipIdx.map Prod.snd).Pairwise (· < ·) := by
      rw [zipIdx_map_snd]
      exact pairwise_lt_range'
    exact pairwise_map.mp hlt
  apply pairwise_flatMap.mpr
  constructor
  · intro source hsource
    apply pairwise_map.mpr
    apply hindices.imp
    intro indexed later hlt
    exact Or.inl (rows_apart hlt (hinside source hsource))
  · apply (packSources_apart hchecked h.state hsources).imp_of_mem
    intro source other hsource hother hapart b hb b' hb'
    obtain ⟨indexed, _, rfl⟩ := mem_map.mp hb
    obtain ⟨indexed', _, rfl⟩ := mem_map.mp hb'
    unfold Blit.Apart
    dsimp only
    rcases Nat.lt_trichotomy indexed.2 indexed'.2 with hlt | heq | hlt
    · exact Or.inl (rows_apart hlt (hinside source hsource))
    · rw [heq]
      omega
    · exact Or.inr (rows_apart hlt (hinside other hother))

theorem packed_holds (h : OffloadTileOf layout tile)
    (hsources : packSources tile.group tile.checkpointRow = some sources) (device : DeviceMemory)
    (packed : CacheBytes) :
    Holds device tile sources (blits (packBlits device tile sources) packed) := by
  intro source hsource indexed hindexed k hk
  have hblit : { target := indexed.2 * tile.group.packedBytes + source.destinationOffset
                 src := device ⟨tile.group.groupId, source.layer.absoluteLayerId, source.entry.1,
                   indexed.1.deviceBlockId⟩
                 start := source.entry.2.offset
                 size := source.blockBytes } ∈ packBlits device tile sources := by
    exact mem_flatMap.mpr ⟨source, hsource, mem_map.mpr ⟨indexed, hindexed, rfl⟩⟩
  exact blits_inside (h.packBlits_apart hsources device) hblit hk packed

/-! ## Copying to the host -/

theorem d2hRows_nodup (h : OffloadTileOf layout tile) :
    ((d2hRows tile).map (·.hostSlot)).Nodup := by
  have hnames : (tile.group.roles.map (·.role)).Nodup := by
    rw [h.state.names]
    exact (perm_insertionSort _ _).nodup_iff.mpr (nodup_dedup _)
  have hblocks : (tile.mappings.zipIdx.map fun indexed => indexed.1.hostBlockId).Nodup := by
    have hfirst : (tile.mappings.zipIdx.map fun indexed => indexed.1.hostBlockId) =
        (tile.mappings.zipIdx.map Prod.fst).map (·.hostBlockId) := by
      rw [map_map]
      rfl
    rw [hfirst, zipIdx_map_fst]
    exact h.hostBlocks
  unfold d2hRows
  rw [map_flatMap]
  refine nodup_flatMap_of_key HostSlot.hostBlockId hblocks ?_ ?_
  · intro indexed _ slot hslot
    obtain ⟨row, hrow, rfl⟩ := mem_map.mp hslot
    obtain ⟨role, _, hrow⟩ := mem_flatMap.mp hrow
    obtain ⟨layerSlot, _, rfl⟩ := mem_map.mp hrow
    rfl
  · intro indexed _
    rw [map_flatMap]
    refine nodup_flatMap_of_key HostSlot.role hnames ?_ ?_
    · intro role _ slot hslot
      obtain ⟨row, hrow, rfl⟩ := mem_map.mp hslot
      obtain ⟨layerSlot, _, rfl⟩ := mem_map.mp hrow
      rfl
    · intro role _
      rw [map_map]
      apply List.Nodup.of_map HostSlot.groupLayerSlot
      rw [map_map]
      have hid : HostSlot.groupLayerSlot ∘ (·.hostSlot) ∘ (fun slot => ({
          hostSlot := ⟨tile.group.groupId, role.role, indexed.1.hostBlockId, slot⟩
          start := indexed.2 * tile.group.packedBytes + role.packedOffset +
            slot * role.host.blockBytes
          size := role.host.blockBytes } : D2hRow)) = id := rfl
      rw [hid, map_id]
      exact nodup_range

theorem mem_d2hRows {row : D2hRow} : row ∈ d2hRows tile ↔
    ∃ indexed ∈ tile.mappings.zipIdx, ∃ role ∈ tile.group.roles, ∃ slot < role.host.layerSlots,
      row = { hostSlot := ⟨tile.group.groupId, role.role, indexed.1.hostBlockId, slot⟩
              start := indexed.2 * tile.group.packedBytes + role.packedOffset +
                slot * role.host.blockBytes
              size := role.host.blockBytes } := by
  unfold d2hRows
  simp only [mem_flatMap, mem_map, mem_range]
  constructor
  · intro hrow
    obtain ⟨indexed, hindexed, role, hrole, slot, hslot, heq⟩ := hrow
    exact ⟨indexed, hindexed, role, hrole, slot, hslot, heq.symm⟩
  · intro hrow
    obtain ⟨indexed, hindexed, role, hrole, slot, hslot, heq⟩ := hrow
    exact ⟨indexed, hindexed, role, hrole, slot, hslot, heq.symm⟩

theorem d2hRow_of_copy (h : OffloadTileOf layout tile)
    (hsources : packSources tile.group tile.checkpointRow = some sources) {device : DeviceMemory}
    {packed : CacheBytes} (hholds : Holds device tile sources packed) {copy : TensorCopy}
    (hcopy : copy ∈ tileCopies tile sources) :
    ∃ row ∈ d2hRows tile, row.hostSlot = copy.hostSlot ∧
      row.bytes packed = offloadBytes device copy := by
  obtain ⟨source, hsource, hcopy⟩ := mem_flatMap.mp hcopy
  obtain ⟨mapping, hmapping, rfl⟩ := mem_map.mp hcopy
  obtain ⟨i, hi⟩ := mem_iff_getElem?.mp hmapping
  have hindexed : (mapping, i) ∈ tile.mappings.zipIdx := mem_zipIdx_iff_getElem?.mpr hi
  obtain ⟨role, hpacks⟩ := mem_packSources (layout.checked _ h.group) h.state hsources hsource
  refine ⟨_, mem_d2hRows.mpr ⟨_, hindexed, role, hpacks.known, _, hpacks.slot, rfl⟩, ?_, ?_⟩
  · unfold tensorCopy
    rw [h.groupIds mapping hmapping, hpacks.name]
  · funext bytes a
    unfold D2hRow.bytes offloadBytes tensorCopy blit
    dsimp only
    rw [hpacks.entryBytes, h.groupIds mapping hmapping]
    split
    next hin =>
      have hbyte := hholds source hsource _ hindexed a (by rw [hpacks.blockBytes]; omega)
      rw [hpacks.destinationOffset] at hbyte
      rw [Nat.sub_zero, ← hbyte, Nat.add_assoc (i * _)]
    · rfl

theorem copy_of_d2hRow (h : OffloadTileOf layout tile)
    (hsources : packSources tile.group tile.checkpointRow = some sources) {row : D2hRow}
    (hrow : row ∈ d2hRows tile) (hactive : row.hostSlot.Active layout) :
    ∃ copy ∈ tileCopies tile sources, copy.hostSlot = row.hostSlot := by
  obtain ⟨indexed, hindexed, role, _, slot, _, rfl⟩ := mem_d2hRows.mp hrow
  obtain ⟨layer, hlayer, hslot, registered, hregistered, hname⟩ := hactive
  have hchecked := layout.checked _ h.group
  have hmapping := mem_of_getElem? (mem_zipIdx_iff_getElem?.mp hindexed)
  obtain ⟨tensors, htensors⟩ := Option.isSome_iff_exists.mp (h.rows layer hlayer)
  have hsame := congrArg (List.map Prod.fst) (transferTensors_roles hchecked hlayer htensors)
  rw [map_map, map_map] at hsame
  have hmem : registered.1 ∈ tensors.map Prod.fst := by
    have hnames : tensors.map Prod.fst = layer.deviceRoles.map Prod.fst := hsame
    rw [hnames]
    exact mem_map_of_mem hregistered
  obtain ⟨entry, hentry, hentryName⟩ := mem_map.mp hmem
  have hentry' : entry ∈ transferTensors layer tile.checkpointRow := by
    unfold transferTensors
    rw [htensors]
    exact hentry
  obtain ⟨source, hsource, rfl, rfl⟩ := exists_packSource hchecked h.state hsources hlayer hentry'
  refine ⟨tensorCopy indexed.1 source.layer source.entry, ?_, ?_⟩
  · exact mem_flatMap.mpr ⟨source, hsource, mem_map_of_mem hmapping⟩
  · unfold tensorCopy
    rw [h.groupIds _ hmapping, hentryName, hname, hslot]

/-- On the slots of active layers the rows of the tile do what its copies do. -/
theorem d2hRows_writes (h : OffloadTileOf layout tile)
    (hsources : packSources tile.group tile.checkpointRow = some sources) {device : DeviceMemory}
    {packed : CacheBytes} (hholds : Holds device tile sources packed) (host : HostMemory)
    {slot : HostSlot} (hactive : slot.Active layout) :
    writes D2hRow.hostSlot (D2hRow.bytes packed) (d2hRows tile) host slot =
      writes TensorCopy.hostSlot (offloadBytes device) (tileCopies tile sources) host slot := by
  by_cases hslot : ∃ copy ∈ tileCopies tile sources, copy.hostSlot = slot
  · obtain ⟨copy, hcopy, rfl⟩ := hslot
    obtain ⟨row, hrow, hsame, hbytes⟩ := h.d2hRow_of_copy hsources hholds hcopy
    rw [writes_of_mem (h.tileCopies_nodup hsources) hcopy, ← hsame,
      writes_of_mem h.d2hRows_nodup hrow, hbytes]
  · have hnone : ∀ copy ∈ tileCopies tile sources, copy.hostSlot ≠ slot :=
      fun copy hcopy heq => hslot ⟨copy, hcopy, heq⟩
    have hnoRow : ∀ row ∈ d2hRows tile, row.hostSlot ≠ slot := by
      intro row hrow heq
      rw [← heq] at hactive
      obtain ⟨copy, hcopy, hsame⟩ := h.copy_of_d2hRow hsources hrow hactive
      exact hnone copy hcopy (hsame.trans heq)
    rw [writes_of_not_mem hnone, writes_of_not_mem hnoRow]

end OffloadTileOf

end Xllm.Framework
