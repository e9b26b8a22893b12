import Xllm.KvCacheTransfer.CompactOffload
import Xllm.KvCacheTransfer.HostCopies
import Xllm.Lib.Yields

/-!
# The packed bytes of a mapping

The constructor of the compact offload places the roles of a group one after the other, each with
room for all layer slots (`makeOffloadGroup_spec`). A tile is packed from one source for each layer
and tensor (`packSources_perm`), and no two of them have a place in common
(`packSources_apart`).
-/

namespace Xllm.Framework

open Xllm.Lib List

/-! ## Roles -/

/-- A role of the group, with its host tensor and the layers that have it. -/
structure OffloadRoleOf (group : HostKVGroupLayout) (role : OffloadRole) : Prop where
  host : group.hostRoles.lookup role.role = some role.host
  blockBytes : role.blockBytes = group.blockBytes role.role
  paddedBytes : role.paddedBytes = role.host.layerSlots * role.host.blockBytes
  sources : role.sources = (group.layers.filter fun layer =>
      (layer.deviceRoles.lookup role.role).isSome).map fun layer =>
    { destinationOffset := role.packedOffset + layer.groupLayerSlot * role.blockBytes, layer }

/-- Some roles of a group, one after the other in its packed bytes. -/
structure OffloadRolesOf (group : HostKVGroupLayout) (names : List KVCacheTensorRole)
    (state : OffloadGroupState) : Prop where
  groupId : state.groupId = group.groupId
  names : state.roles.map (·.role) = names
  roles : ∀ role ∈ state.roles, OffloadRoleOf group role
  placed : state.roles.Pairwise fun role later =>
    role.packedOffset + role.paddedBytes ≤ later.packedOffset
  inside : ∀ role ∈ state.roles, role.packedOffset + role.paddedBytes ≤ state.packedBytes

variable {group : HostKVGroupLayout} {state : OffloadGroupState}

theorem appendRole_spec {names : List KVCacheTensorRole}
    {state' : OffloadGroupState} {role : KVCacheTensorRole}
    (h : OffloadRolesOf group names state) (happend : appendRole group state role = some state') :
    OffloadRolesOf group (names ++ [role]) state' := by
  obtain ⟨host, hhost, happend⟩ := Option.bind_eq_some_iff.mp happend
  dsimp only at happend
  split at happend
  · cases happend
  split at happend
  · cases happend
  split at happend
  · cases happend
  cases happend
  refine ⟨h.groupId, ?_, ?_, ?_, ?_⟩
  · rw [map_append, h.names]
    rfl
  · intro other hother
    cases mem_append.mp hother with
    | inl hother => exact h.roles other hother
    | inr hother =>
      rw [mem_singleton.mp hother]
      exact ⟨hhost, rfl, rfl, rfl⟩
  · apply pairwise_append.mpr
    refine ⟨h.placed, pairwise_singleton _ _, ?_⟩
    intro before hbefore other hother
    rw [mem_singleton.mp hother]
    exact h.inside before hbefore
  · intro other hother
    cases mem_append.mp hother with
    | inl hother => exact Nat.le_trans (h.inside other hother) (Nat.le_add_right _ _)
    | inr hother =>
      rw [mem_singleton.mp hother]

/-- What the executor holds for a group of the layout. -/
structure OffloadGroupOf (group : HostKVGroupLayout) (state : OffloadGroupState) : Prop extends
    OffloadRolesOf group (activeRoles group.layers) state where
  blocksPerTile : 0 < state.blocksPerTile

theorem makeOffloadGroup_spec {targetBytes : Nat}
    (h : makeOffloadGroup targetBytes group = some state) :
    OffloadGroupOf group state := by
  obtain ⟨roles, hroles, h⟩ := Option.bind_eq_some_iff.mp h
  have hfold : Yields False (OffloadRolesOf group (activeRoles group.layers))
      ((activeRoles group.layers).foldlM (appendRole group) { groupId := group.groupId }) := by
    apply Yields.foldlM (I := OffloadRolesOf group)
    · intro visited role state _ hstate
      exact ⟨fun state' hstate' => appendRole_spec hstate hstate', fun hok => absurd hok id⟩
    · refine ⟨rfl, rfl, ?_, List.Pairwise.nil, ?_⟩
      · exact fun role hrole => nomatch hrole
      · exact fun role hrole => nomatch hrole
  have hspec := hfold.sound roles hroles
  split at h
  · cases h
  cases h
  exact ⟨⟨hspec.groupId, hspec.names, hspec.roles, hspec.placed, hspec.inside⟩,
    Nat.lt_of_lt_of_le Nat.one_pos (Nat.le_max_left _ _)⟩

/-! ## Sources -/

section

variable {numLayers : Nat} {group : HostKVGroupLayout} {state : OffloadGroupState}
  {checkpointRow : Nat} {sources : List PackSource}

variable {layer : HostKVLayerLayout} {entry : KVCacheTensorRole × DeviceRoleTensor}

theorem host_of_registered (hchecked : GroupChecked numLayers group) (hlayer : layer ∈ group.layers)
    (hentry : entry ∈ layer.deviceRoles) :
    ∃ host, group.hostRoles.lookup entry.1 = some host ∧
      host.blockBytes = entry.2.blockBytes ∧ group.blockBytes entry.1 = host.blockBytes ∧
      layer.groupLayerSlot < host.layerSlots := by
  obtain ⟨_, host, hhost, hbytes, hslots⟩ := hchecked.active layer hlayer entry hentry
  refine ⟨host, hhost, hbytes, ?_, hslots layer hlayer⟩
  unfold HostKVGroupLayout.blockBytes
  cases hfirst : group.layers.findSome? (·.deviceRoles.lookup entry.1) with
  | none =>
    have hnone := List.findSome?_eq_none_iff.mp hfirst layer hlayer
    rw [lookup_of_mem_nodup (hchecked.deviceRoles layer hlayer).2 hentry] at hnone
    cases hnone
  | some tensor =>
    obtain ⟨other, hother, htensor⟩ := List.exists_of_findSome?_eq_some hfirst
    have hmem : (entry.1, tensor) ∈ other.deviceRoles := by
      obtain ⟨before, after, heq, _⟩ := lookup_eq_some_iff.mp htensor
      rw [heq]
      exact mem_append_right _ mem_cons_self
    obtain ⟨_, host', hhost', hbytes', _⟩ := hchecked.active other hother _ hmem
    rw [hhost] at hhost'
    cases hhost'
    exact hbytes'.symm

/-- The source packs a tensor of a layer into the place of its role and layer slot. -/
structure Packs (group : HostKVGroupLayout) (state : OffloadGroupState) (checkpointRow : Nat)
    (source : PackSource) (role : OffloadRole) : Prop where
  known : role ∈ state.roles
  layer : source.layer ∈ group.layers
  entry : source.entry ∈ transferTensors source.layer checkpointRow
  name : source.entry.1 = role.role
  destinationOffset : source.destinationOffset =
    role.packedOffset + source.layer.groupLayerSlot * role.host.blockBytes
  blockBytes : source.blockBytes = role.host.blockBytes
  entryBytes : source.entry.2.blockBytes = role.host.blockBytes
  slot : source.layer.groupLayerSlot < role.host.layerSlots

variable {role : OffloadRole}

theorem mem_roleSources (hstate : OffloadGroupOf group state)
    (hrole : role ∈ state.roles) {source : OffloadSource} :
    source ∈ role.sources ↔ source.layer ∈ group.layers ∧
      (source.layer.deviceRoles.lookup role.role).isSome ∧
      source.destinationOffset =
        role.packedOffset + source.layer.groupLayerSlot * role.blockBytes := by
  rw [(hstate.roles role hrole).sources, mem_map]
  constructor
  · intro h
    obtain ⟨layer, hlayer, rfl⟩ := h
    obtain ⟨hmem, hhas⟩ := mem_filter.mp hlayer
    exact ⟨hmem, hhas, rfl⟩
  · intro h
    obtain ⟨hmem, hhas, hoffset⟩ := h
    refine ⟨source.layer, mem_filter.mpr ⟨hmem, hhas⟩, ?_⟩
    rw [← hoffset]

variable {source : PackSource}

theorem mem_packSources (hchecked : GroupChecked numLayers group)
    (hstate : OffloadGroupOf group state)
    (hsources : packSources state checkpointRow = some sources) (h : source ∈ sources) :
    ∃ role, Packs group state checkpointRow source role := by
  obtain ⟨pair, hpair, hsource⟩ := mem_of_mapM hsources h
  obtain ⟨role, hrole, hpair⟩ := mem_flatMap.mp hpair
  obtain ⟨place, hplace, rfl⟩ := mem_map.mp hpair
  obtain ⟨hlayer, _, hoffset⟩ := (mem_roleSources hstate hrole).mp hplace
  obtain ⟨tensors, htensors, hsource⟩ := Option.bind_eq_some_iff.mp hsource
  obtain ⟨tensor, htensor, rfl⟩ := Option.map_eq_some_iff.mp hsource
  obtain ⟨before, after, heq, _⟩ := lookup_eq_some_iff.mp htensor
  have hentry : (role.role, tensor) ∈ tensors := by
    rw [heq]
    exact mem_append_right _ mem_cons_self
  obtain ⟨registered, hregistered, hname, hbytes⟩ :=
    registered_of_mem_transferTensors hchecked hlayer htensors hentry
  obtain ⟨host, hhost, hhostBytes, hgroupBytes, hslot⟩ :=
    host_of_registered hchecked hlayer hregistered
  have hspec := hstate.roles role hrole
  rw [hname] at hhost hgroupBytes
  rw [hspec.host] at hhost
  cases hhost
  have hroleBytes : role.blockBytes = role.host.blockBytes := hspec.blockBytes.trans hgroupBytes
  refine ⟨role, hrole, hlayer, ?_, rfl, ?_, hroleBytes, ?_, hslot⟩
  · unfold transferTensors
    rw [htensors]
    exact hentry
  · rw [← hroleBytes]
    exact hoffset
  · exact (hhostBytes.trans hbytes).symm

/-- Every tensor of every layer has its source. -/
theorem exists_packSource (hchecked : GroupChecked numLayers group)
    (hstate : OffloadGroupOf group state)
    (hsources : packSources state checkpointRow = some sources) (hlayer : layer ∈ group.layers)
    (hentry : entry ∈ transferTensors layer checkpointRow) :
    ∃ source ∈ sources, source.layer = layer ∧ source.entry = entry := by
  unfold transferTensors at hentry
  cases htensors : getDeviceTransferTensors layer checkpointRow with
  | none =>
    rw [htensors] at hentry
    exact nomatch hentry
  | some tensors =>
    rw [htensors, Option.getD_some] at hentry
    obtain ⟨registered, hregistered, hname, _⟩ :=
      registered_of_mem_transferTensors hchecked hlayer htensors hentry
    have hactive : entry.1 ∈ state.roles.map (·.role) := by
      rw [hstate.names]
      unfold activeRoles
      rw [mem_insertionSort, mem_dedup, ← hname]
      exact mem_flatMap.mpr ⟨layer, hlayer, mem_map_of_mem hregistered⟩
    obtain ⟨role, hrole, hroleName⟩ := mem_map.mp hactive
    have hhas : (layer.deviceRoles.lookup role.role).isSome := by
      rw [hroleName, ← hname, lookup_of_mem_nodup (hchecked.deviceRoles layer hlayer).2 hregistered]
      rfl
    have hplace : ⟨role.packedOffset + layer.groupLayerSlot * role.blockBytes, layer⟩ ∈
        role.sources := (mem_roleSources hstate hrole).mpr ⟨hlayer, hhas, rfl⟩
    obtain ⟨source, hsource, hmade⟩ := exists_mem_of_mapM_some hsources
      (mem_flatMap.mpr ⟨role, hrole, mem_map_of_mem hplace⟩)
    refine ⟨source, hsource, ?_⟩
    rw [htensors, Option.bind_some, hroleName,
      lookup_of_mem_nodup (transferTensors_nodup hchecked hlayer htensors) hentry] at hmade
    cases hmade
    exact ⟨rfl, rfl⟩

theorem packSources_nodup (hchecked : GroupChecked numLayers group)
    (hstate : OffloadGroupOf group state)
    (hsources : packSources state checkpointRow = some sources) :
    (sources.map fun source => (source.layer.groupLayerSlot, source.entry.1)).Nodup := by
  have hkeys : (sources.map fun source => (source.layer.groupLayerSlot, source.entry.1)) =
      (state.roles.flatMap fun role => role.sources.map fun source => (role, source)).map
        fun pair => (pair.2.layer.groupLayerSlot, pair.1.role) := by
    apply map_of_mapM hsources
    intro pair _ source hsource
    obtain ⟨tensors, _, hsource⟩ := Option.bind_eq_some_iff.mp hsource
    obtain ⟨tensor, _, rfl⟩ := Option.map_eq_some_iff.mp hsource
    rfl
  rw [hkeys, map_flatMap]
  have hnames : (state.roles.map (·.role)).Nodup := by
    rw [hstate.names]
    exact (perm_insertionSort _ _).nodup_iff.mpr (nodup_dedup _)
  refine nodup_flatMap_of_key Prod.snd hnames ?_ ?_
  · intro role _ key hkey
    obtain ⟨pair, hpair, rfl⟩ := mem_map.mp hkey
    obtain ⟨place, _, rfl⟩ := mem_map.mp hpair
    rfl
  · intro role hrole
    rw [map_map, (hstate.roles role hrole).sources, map_map]
    apply List.Nodup.of_map Prod.fst
    rw [map_map]
    exact (hchecked.slots.sublist (filter_sublist.map _))

theorem packSources_isSome (hchecked : GroupChecked numLayers group)
    (hstate : OffloadGroupOf group state)
    (hrows : ∀ layer ∈ group.layers, (getDeviceTransferTensors layer checkpointRow).isSome) :
    (packSources state checkpointRow).isSome := by
  apply mapM_isSome
  intro pair hpair
  obtain ⟨role, hrole, hpair⟩ := mem_flatMap.mp hpair
  obtain ⟨place, hplace, rfl⟩ := mem_map.mp hpair
  obtain ⟨hlayer, hhas, _⟩ := (mem_roleSources hstate hrole).mp hplace
  obtain ⟨tensors, htensors⟩ := Option.isSome_iff_exists.mp (hrows place.layer hlayer)
  have hsame := congrArg (List.map Prod.fst) (transferTensors_roles hchecked hlayer htensors)
  rw [map_map, map_map] at hsame
  obtain ⟨registered, hregistered, hname⟩ := lookup_isSome_iff.mp hhas
  have hmem : registered.1 ∈ tensors.map Prod.fst := by
    have hnames : tensors.map Prod.fst = place.layer.deviceRoles.map Prod.fst := hsame
    rw [hnames]
    exact mem_map_of_mem hregistered
  obtain ⟨entry, hentry, heq⟩ := mem_map.mp hmem
  have hfound : (tensors.lookup role.role).isSome := by
    apply lookup_isSome_iff.mpr
    refine ⟨entry, hentry, ?_⟩
    rw [heq]
    exact hname
  rw [htensors, Option.bind_some, Option.isSome_map]
  exact hfound

theorem packSources_perm (hchecked : GroupChecked numLayers group)
    (hstate : OffloadGroupOf group state)
    (hsources : packSources state checkpointRow = some sources) :
    (sources.map fun source => (source.layer, source.entry)).Perm
      (group.layers.flatMap fun layer =>
        (transferTensors layer checkpointRow).map fun entry => (layer, entry)) := by
  have hnodup : (sources.map fun source => (source.layer, source.entry)).Nodup := by
    apply List.Nodup.of_map fun pair => (pair.1.groupLayerSlot, pair.2.1)
    rw [map_map]
    exact packSources_nodup hchecked hstate hsources
  have hnodup' : (group.layers.flatMap fun layer =>
      (transferTensors layer checkpointRow).map fun entry => (layer, entry)).Nodup := by
    refine nodup_flatMap_of_key (fun pair => pair.1.groupLayerSlot) hchecked.slots ?_ ?_
    · intro layer _ pair hpair
      obtain ⟨entry, _, rfl⟩ := mem_map.mp hpair
      rfl
    · intro layer hlayer
      apply List.Nodup.of_map fun pair => pair.2.1
      rw [map_map]
      unfold transferTensors
      cases htensors : getDeviceTransferTensors layer checkpointRow with
      | none => exact nodup_nil
      | some tensors => exact transferTensors_nodup hchecked hlayer htensors
  apply (perm_ext_iff_of_nodup hnodup hnodup').mpr
  intro pair
  constructor
  · intro h
    obtain ⟨source, hsource, rfl⟩ := mem_map.mp h
    obtain ⟨role, hpacks⟩ := mem_packSources hchecked hstate hsources hsource
    exact mem_flatMap.mpr ⟨source.layer, hpacks.layer, mem_map_of_mem hpacks.entry⟩
  · intro h
    obtain ⟨layer, hlayer, h⟩ := mem_flatMap.mp h
    obtain ⟨entry, hentry, rfl⟩ := mem_map.mp h
    obtain ⟨source, hsource, rfl, rfl⟩ :=
      exists_packSource hchecked hstate hsources hlayer hentry
    exact mem_map.mpr ⟨source, hsource, rfl⟩

/-! ## Places -/

theorem Packs.within (hstate : OffloadGroupOf group state)
    (h : Packs group state checkpointRow source role) :
    role.packedOffset ≤ source.destinationOffset ∧
      source.destinationOffset + source.blockBytes ≤ role.packedOffset + role.paddedBytes := by
  have hslots := Nat.mul_le_mul_right role.host.blockBytes h.slot
  rw [h.destinationOffset, h.blockBytes, (hstate.roles role h.known).paddedBytes]
  rw [Nat.succ_mul] at hslots
  omega

theorem Packs.inside (hstate : OffloadGroupOf group state)
    (h : Packs group state checkpointRow source role) :
    source.destinationOffset + source.blockBytes ≤ state.packedBytes :=
  Nat.le_trans (h.within hstate).2 (hstate.inside role h.known)

theorem packSources_apart (hchecked : GroupChecked numLayers group)
    (hstate : OffloadGroupOf group state)
    (hsources : packSources state checkpointRow = some sources) :
    sources.Pairwise fun source other =>
      source.destinationOffset + source.blockBytes ≤ other.destinationOffset ∨
      other.destinationOffset + other.blockBytes ≤ source.destinationOffset := by
  have hkeys := pairwise_map.mp (packSources_nodup hchecked hstate hsources)
  have hplaced : state.roles.Pairwise fun role other =>
      role.packedOffset + role.paddedBytes ≤ other.packedOffset ∨
      other.packedOffset + other.paddedBytes ≤ role.packedOffset :=
    hstate.placed.imp fun hle => Or.inl hle
  apply hkeys.imp_of_mem
  intro source other hsource hother hne
  obtain ⟨role, hpacks⟩ := mem_packSources hchecked hstate hsources hsource
  obtain ⟨role', hpacks'⟩ := mem_packSources hchecked hstate hsources hother
  by_cases hrole : role = role'
  · -- two layers of one role
    have hslot : source.layer.groupLayerSlot ≠ other.layer.groupLayerSlot := by
      intro heq
      apply hne
      rw [heq, hpacks.name, hpacks'.name, hrole]
    rw [hpacks.destinationOffset, hpacks'.destinationOffset, hpacks.blockBytes,
      hpacks'.blockBytes, ← hrole]
    cases Nat.lt_or_gt_of_ne hslot with
    | inl hlt =>
      have hle := Nat.mul_le_mul_right role.host.blockBytes hlt
      rw [Nat.succ_mul] at hle
      omega
    | inr hlt =>
      have hle := Nat.mul_le_mul_right role.host.blockBytes hlt
      rw [Nat.succ_mul] at hle
      omega
  · have hsymm : Std.Symm fun role other : OffloadRole =>
        role.packedOffset + role.paddedBytes ≤ other.packedOffset ∨
        other.packedOffset + other.paddedBytes ≤ role.packedOffset := ⟨fun _ _ h => h.symm⟩
    have hapart := hplaced.forall hpacks.known hpacks'.known hrole
    have hwithin := hpacks.within hstate
    have hwithin' := hpacks'.within hstate
    omega

end

end Xllm.Framework
