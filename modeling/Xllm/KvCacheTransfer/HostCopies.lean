import Xllm.KvCacheTransfer.HostTransfer
import Xllm.Lib.Traversal

/-!
# The copies that a request asks for

One copy for each mapping, layer and tensor (`expectedCopies`). The layer ranges divide the
layers, so the copies of all ranges are these (`rangeCopies_perm`), and in a valid request no two
of them have a destination in common.
-/

namespace Xllm.Framework

open Xllm.Lib List

abbrev HostKVRequest.mappings (request : HostKVRequest) : List HostKVMapping :=
  request.targetMappings ++ request.draftMappings

/-! ## Expected copies -/

/-- The tensors of a layer, none when a check fails. -/
def transferTensors (layer : HostKVLayerLayout) (checkpointRow : Nat) : BlockTypeTensorMap :=
  (getDeviceTransferTensors layer checkpointRow).getD []

def layerCopies (mapping : HostKVMapping) (layer : HostKVLayerLayout) : List TensorCopy :=
  (transferTensors layer mapping.checkpointRow).map (tensorCopy mapping layer)

section

variable (layout : HostKVLayout)

/-- One copy for each mapping, layer and tensor. -/
def expectedCopies (mappings : List HostKVMapping) : List TensorCopy :=
  mappings.flatMap fun mapping =>
    (layout.group mapping.groupId).layers.flatMap (layerCopies mapping)

def rangeCopies (mappings : List HostKVMapping) (range : LayerRange) : List TensorCopy :=
  mappings.flatMap fun mapping =>
    ((layout.group mapping.groupId).layers.filter range.contains).flatMap (layerCopies mapping)

/-- The group of the mapping is known, and the caches of its layers have the checkpoint row. -/
structure Admitted (mapping : HostKVMapping) : Prop where
  group : layout.group mapping.groupId ∈ layout.groups ∧
    (layout.group mapping.groupId).groupId = mapping.groupId
  rows : ∀ layer ∈ (layout.group mapping.groupId).layers,
    (getDeviceTransferTensors layer mapping.checkpointRow).isSome

end

variable {layout : HostKVLayout} {mapping : HostKVMapping} {mappings : List HostKVMapping}

theorem HostKVLayout.group_of_find {layout : HostKVLayout} {groupId : Int}
    (h : (layout.findGroup groupId).isSome) :
    layout.group groupId ∈ layout.groups ∧ (layout.group groupId).groupId = groupId := by
  obtain ⟨group, hfind⟩ := Option.isSome_iff_exists.mp h
  have hgroup : layout.group groupId = group := by
    unfold HostKVLayout.group
    rw [hfind]
    rfl
  rw [hgroup]
  exact ⟨List.mem_of_find?_eq_some hfind, by simpa using List.find?_some hfind⟩

variable {group : HostKVGroupLayout}

theorem HostKVLayout.group_of_mem {layout : HostKVLayout}
    (h : group ∈ layout.groups) : layout.group group.groupId = group := by
  have hsome : (layout.findGroup group.groupId).isSome := by
    unfold HostKVLayout.findGroup
    rw [List.find?_isSome]
    exact ⟨group, h, decide_eq_true rfl⟩
  obtain ⟨hmem, hid⟩ := layout.group_of_find hsome
  have hnodup : (layout.groups.map (·.groupId)).Nodup :=
    layout.groupIds.imp fun hlt => Int.ne_of_lt hlt
  exact inj_on_of_nodup_map hnodup hmem h hid

variable {layer : HostKVLayerLayout}

theorem tensorCopy_mem_expectedCopies (hmapping : mapping ∈ mappings)
    (hlayer : layer ∈ (layout.group mapping.groupId).layers)
    {entry : KVCacheTensorRole × DeviceRoleTensor}
    (hentry : entry ∈ transferTensors layer mapping.checkpointRow) :
    tensorCopy mapping layer entry ∈ expectedCopies layout mappings := by
  apply mem_flatMap.mpr
  refine ⟨mapping, hmapping, mem_flatMap.mpr ⟨layer, hlayer, ?_⟩⟩
  exact mem_map_of_mem hentry

/-! ## The tensors of a checkpoint -/

/-- The tensors of every checkpoint have the roles and the sizes of those that are registered. -/
theorem transferTensors_roles {numLayers : Nat} (hchecked : GroupChecked numLayers group)
    (hlayer : layer ∈ group.layers) {checkpointRow : Nat} {tensors : BlockTypeTensorMap}
    (h : getDeviceTransferTensors layer checkpointRow = some tensors) :
    tensors.map (fun entry => (entry.1, entry.2.blockBytes)) =
      layer.deviceRoles.map fun entry => (entry.1, entry.2.blockBytes) := by
  unfold getDeviceTransferTensors at h
  cases hcache : layer.deviceCache with
  | none =>
    rw [hcache] at h
    cases h
    rfl
  | some cache =>
    rw [hcache] at h
    dsimp only at h
    split at h
    · cases h
      rfl
    next hlinear =>
    have hfirst := hchecked.linear layer hlayer cache hcache (not_not.mp hlinear)
    unfold LinearAttentionKVCache.getBlockTypeTensors at h hfirst
    split at h
    · cases h
      split at hfirst
      · rw [← Option.some.inj hfirst]
        rfl
      · cases hfirst
    · cases h

theorem getDeviceTransferTensors_zero {numLayers : Nat} (hchecked : GroupChecked numLayers group)
    (hlayer : layer ∈ group.layers) :
    getDeviceTransferTensors layer 0 = some layer.deviceRoles := by
  unfold getDeviceTransferTensors
  cases hcache : layer.deviceCache with
  | none => rfl
  | some cache =>
    dsimp only
    split
    · rfl
    next hlinear => exact hchecked.linear layer hlayer cache hcache (not_not.mp hlinear)

section

variable {numLayers : Nat} {group : HostKVGroupLayout} {layer : HostKVLayerLayout}
  {checkpointRow : Nat} {tensors : BlockTypeTensorMap}

theorem transferTensors_nodup (hchecked : GroupChecked numLayers group)
    (hlayer : layer ∈ group.layers)
    (h : getDeviceTransferTensors layer checkpointRow = some tensors) :
    (tensors.map Prod.fst).Nodup := by
  have hroles := congrArg (List.map Prod.fst) (transferTensors_roles hchecked hlayer h)
  rw [map_map, map_map] at hroles
  have hsame : tensors.map Prod.fst = layer.deviceRoles.map Prod.fst := hroles
  rw [hsame]
  exact (hchecked.deviceRoles layer hlayer).2

theorem registered_of_mem_transferTensors (hchecked : GroupChecked numLayers group)
    (hlayer : layer ∈ group.layers)
    (h : getDeviceTransferTensors layer checkpointRow = some tensors)
    {entry : KVCacheTensorRole × DeviceRoleTensor} (hentry : entry ∈ tensors) :
    ∃ registered ∈ layer.deviceRoles,
      registered.1 = entry.1 ∧ registered.2.blockBytes = entry.2.blockBytes := by
  have hmem : (entry.1, entry.2.blockBytes) ∈
      tensors.map fun entry => (entry.1, entry.2.blockBytes) := mem_map_of_mem hentry
  rw [transferTensors_roles hchecked hlayer h] at hmem
  obtain ⟨registered, hregistered, heq⟩ := mem_map.mp hmem
  obtain ⟨hrole, hbytes⟩ := Prod.mk.inj heq
  exact ⟨registered, hregistered, hrole, hbytes⟩

end

/-! ## The plan of the basic transfer -/

theorem planMapping_eq (hadmitted : Admitted layout mapping) (range : LayerRange) :
    planMapping layout range mapping =
      some (((layout.group mapping.groupId).layers.filter range.contains).flatMap
        (layerCopies mapping)) := by
  have hchecked := layout.checked _ hadmitted.group.1
  unfold planMapping
  dsimp only
  have hlayers : ((layout.group mapping.groupId).layers.filter range.contains).mapM
      (fun layer => (getDeviceTransferTensors layer mapping.checkpointRow).map fun tensors =>
        (tensors.filter fun entry =>
          ((layout.group mapping.groupId).hostRoles.lookup entry.1).isSome).map
            (tensorCopy mapping layer)) =
      some (((layout.group mapping.groupId).layers.filter range.contains).map
        (layerCopies mapping)) := by
    apply mapM_eq_some
    intro layer hlayer
    have hmem := (mem_filter.mp hlayer).1
    obtain ⟨tensors, htensors⟩ := Option.isSome_iff_exists.mp (hadmitted.rows layer hmem)
    unfold layerCopies transferTensors
    rw [htensors, Option.map_some, Option.getD_some]
    congr 2
    apply filter_eq_self.mpr
    -- every role of a layer has its host tensor
    intro entry hentry
    obtain ⟨registered, hregistered, hrole, _⟩ :=
      registered_of_mem_transferTensors hchecked hmem htensors hentry
    obtain ⟨_, host, hhost, _⟩ := hchecked.active layer hmem registered hregistered
    rw [← hrole, hhost]
    rfl
  rw [hlayers, Option.map_some, flatMap_def]

theorem buildPlan_eq (hadmitted : ∀ mapping ∈ mappings, Admitted layout mapping)
    (range : LayerRange) :
    buildPlan layout mappings range = some (rangeCopies layout mappings range) := by
  unfold buildPlan rangeCopies
  rw [mapM_eq_some fun mapping hmapping => planMapping_eq (hadmitted mapping hmapping) range,
    Option.map_some, flatMap_def]

/-! ## Ranges -/

theorem getLayersPerEvent_pos (numLayers requestedBatches : Nat) :
    0 < getLayersPerEvent numLayers requestedBatches := by
  unfold getLayersPerEvent
  omega

section

variable {numLayers layersPerEvent : Nat}

theorem mem_buildLayerRanges {range : LayerRange} :
    range ∈ buildLayerRanges numLayers layersPerEvent ↔
      ∃ i < (numLayers + layersPerEvent - 1) / layersPerEvent,
        range = ⟨i * layersPerEvent, min (i * layersPerEvent + layersPerEvent) numLayers⟩ := by
  unfold buildLayerRanges
  rw [mem_map]
  constructor
  · intro h
    obtain ⟨i, hi, heq⟩ := h
    exact ⟨i, mem_range.mp hi, heq.symm⟩
  · intro h
    obtain ⟨i, hi, heq⟩ := h
    exact ⟨i, mem_range.mpr hi, heq.symm⟩

theorem buildLayerRanges_nodup (hpos : 0 < layersPerEvent) :
    (buildLayerRanges numLayers layersPerEvent).Nodup := by
  apply nodup_range.map
  intro i i' heq
  have hbegin := congrArg LayerRange.beginLayer heq
  exact Nat.eq_of_mul_eq_mul_right hpos hbegin

/-- A layer is in one range. -/
theorem range_of_layer (hpos : 0 < layersPerEvent) {layer : HostKVLayerLayout}
    (hlayer : layer.absoluteLayerId < numLayers) :
    ∃ range ∈ buildLayerRanges numLayers layersPerEvent, range.contains layer = true ∧
      ∀ range' ∈ buildLayerRanges numLayers layersPerEvent,
        range'.contains layer = true → range' = range := by
  have hdiv := Nat.div_add_mod layer.absoluteLayerId layersPerEvent
  have hmod := Nat.mod_lt layer.absoluteLayerId hpos
  rw [Nat.mul_comm] at hdiv
  refine ⟨⟨layer.absoluteLayerId / layersPerEvent * layersPerEvent,
    min (layer.absoluteLayerId / layersPerEvent * layersPerEvent + layersPerEvent) numLayers⟩,
    ?_, ?_, ?_⟩
  · apply mem_buildLayerRanges.mpr
    refine ⟨layer.absoluteLayerId / layersPerEvent, ?_, rfl⟩
    apply (Nat.div_lt_iff_lt_mul hpos).mpr
    have hceil := Nat.div_add_mod (numLayers + layersPerEvent - 1) layersPerEvent
    have hrest := Nat.mod_lt (numLayers + layersPerEvent - 1) hpos
    rw [Nat.mul_comm] at hceil
    omega
  · unfold LayerRange.contains
    rw [decide_eq_true_eq]
    dsimp only
    omega
  · intro range' hrange' hcontains
    obtain ⟨i, _, rfl⟩ := mem_buildLayerRanges.mp hrange'
    unfold LayerRange.contains at hcontains
    rw [decide_eq_true_eq] at hcontains
    dsimp only at hcontains
    have hi : layer.absoluteLayerId / layersPerEvent = i := by
      apply Nat.div_eq_of_lt_le
      · exact hcontains.1
      · rw [Nat.succ_mul]
        omega
    rw [hi]

end

theorem ranges_layers_perm (hgroup : group ∈ layout.groups) (layerCopyBatches : Nat) :
    ((layout.ranges layerCopyBatches).flatMap fun range =>
      group.layers.filter range.contains).Perm group.layers := by
  have hpos := getLayersPerEvent_pos layout.numLayers layerCopyBatches
  apply flatMap_filter_perm (buildLayerRanges_nodup hpos)
  intro layer hlayer
  exact range_of_layer hpos ((layout.checked group hgroup).layerBound layer hlayer)

theorem rangeCopies_perm (hadmitted : ∀ mapping ∈ mappings, Admitted layout mapping)
    (layerCopyBatches : Nat) :
    ((layout.ranges layerCopyBatches).flatMap (rangeCopies layout mappings)).Perm
      (expectedCopies layout mappings) := by
  have hswap := flatMap_swap_perm (layout.ranges layerCopyBatches) mappings
    fun range mapping => ((layout.group mapping.groupId).layers.filter range.contains).flatMap
      (layerCopies mapping)
  refine hswap.trans ?_
  apply List.Perm.flatMap_left
  intro mapping hmapping
  rw [← flatMap_assoc]
  exact (ranges_layers_perm (hadmitted mapping hmapping).group.1 layerCopyBatches).flatMap_right _

/-! ## Destinations -/

/-- Copies are at distinct places when a place tells the destination of the mapping, the layer and
the role. -/
theorem expectedCopies_nodup {κ : Type} (place : TensorCopy → κ) (isLoad : Bool)
    (layerKey : HostKVLayerLayout → Nat) (destinationOf : κ → Int × Int) (layerOf : κ → Nat)
    (roleOf : κ → KVCacheTensorRole) (hplace : ∀ mapping layer entry,
      destinationOf (place (tensorCopy mapping layer entry)) = mapping.destination isLoad ∧
      layerOf (place (tensorCopy mapping layer entry)) = layerKey layer ∧
      roleOf (place (tensorCopy mapping layer entry)) = entry.1)
    (hlayers : ∀ group ∈ layout.groups, (group.layers.map layerKey).Nodup)
    (hadmitted : ∀ mapping ∈ mappings, Admitted layout mapping)
    (hdestinations : (mappings.map (·.destination isLoad)).Nodup) :
    ((expectedCopies layout mappings).map place).Nodup := by
  unfold expectedCopies
  rw [map_flatMap]
  refine nodup_flatMap_of_key destinationOf hdestinations ?_ ?_
  · intro mapping _ cell hcell
    obtain ⟨copy, hcopy, rfl⟩ := mem_map.mp hcell
    obtain ⟨layer, _, hcopy⟩ := mem_flatMap.mp hcopy
    obtain ⟨entry, _, rfl⟩ := mem_map.mp hcopy
    exact (hplace mapping layer entry).1
  · intro mapping hmapping
    have hgroup := (hadmitted mapping hmapping).group.1
    rw [map_flatMap]
    refine nodup_flatMap_of_key layerOf (hlayers _ hgroup) ?_ ?_
    · intro layer _ cell hcell
      obtain ⟨copy, hcopy, rfl⟩ := mem_map.mp hcell
      obtain ⟨entry, _, rfl⟩ := mem_map.mp hcopy
      exact (hplace mapping layer entry).2.1
    · intro layer hlayer
      obtain ⟨tensors, htensors⟩ :=
        Option.isSome_iff_exists.mp ((hadmitted mapping hmapping).rows layer hlayer)
      have hroles := transferTensors_nodup (layout.checked _ hgroup) hlayer htensors
      unfold layerCopies transferTensors
      rw [htensors, Option.getD_some, map_map]
      apply List.Nodup.of_map roleOf
      rw [map_map]
      have hrole : roleOf ∘ place ∘ tensorCopy mapping layer = Prod.fst := by
        funext entry
        exact (hplace mapping layer entry).2.2
      rw [hrole]
      exact hroles

/-- No two copies of a load write the same tensor of a layer for the same block. -/
theorem expectedCopies_deviceCells (hadmitted : ∀ mapping ∈ mappings, Admitted layout mapping)
    (hdestinations : (mappings.map (·.destination true)).Nodup) :
    ((expectedCopies layout mappings).map (·.deviceCell)).Nodup := by
  refine expectedCopies_nodup (·.deviceCell) true (·.absoluteLayerId)
    (fun cell => (cell.groupId, cell.deviceBlockId)) (·.absoluteLayerId) (·.role) ?_ ?_ hadmitted
    hdestinations
  · exact fun mapping layer entry => ⟨rfl, rfl, rfl⟩
  · exact fun group hgroup => (layout.checked group hgroup).layerIds.imp fun hlt => Nat.ne_of_lt hlt

/-- No two copies of an offload write the same slot of a host block. -/
theorem expectedCopies_hostSlots (hadmitted : ∀ mapping ∈ mappings, Admitted layout mapping)
    (hdestinations : (mappings.map (·.destination false)).Nodup) :
    ((expectedCopies layout mappings).map (·.hostSlot)).Nodup := by
  refine expectedCopies_nodup (·.hostSlot) false (·.groupLayerSlot)
    (fun slot => (slot.groupId, slot.hostBlockId)) (·.groupLayerSlot) (·.role) ?_ ?_ hadmitted
    hdestinations
  · exact fun mapping layer entry => ⟨rfl, rfl, rfl⟩
  · exact fun group hgroup => (layout.checked group hgroup).slots

/-! ## Valid requests -/

theorem validateMappings_spec {isLoad : Bool} {destinations destinations' : List (Int × Int)}
    (h : layout.validateMappings isLoad destinations mappings = some destinations') :
    (∀ mapping ∈ mappings, (layout.findGroup mapping.groupId).isSome) ∧
    destinations' = (mappings.map (·.destination isLoad)).reverse ++ destinations ∧
    (destinations.Nodup → destinations'.Nodup) := by
  induction mappings generalizing destinations with
  | nil =>
    cases h
    exact ⟨nofun, rfl, fun hnodup => hnodup⟩
  | cons mapping mappings ih =>
    unfold HostKVLayout.validateMappings at h
    split at h
    · cases h
    next hknown =>
    split at h
    · cases h
    next hfresh =>
    obtain ⟨hgroups, hdestinations, hnodup⟩ := ih h
    refine ⟨?_, ?_, fun hn => hnodup (nodup_cons.mpr ⟨hfresh, hn⟩)⟩
    · intro mapping' hmapping'
      cases mem_cons.mp hmapping' with
      | inl heq =>
        rw [heq]
        have hnone := (not_or.mp hknown).1
        exact Option.isSome_iff_ne_none.mpr fun heq => hnone (Option.isNone_iff_eq_none.mpr heq)
      | inr hmapping' => exact hgroups mapping' hmapping'
    · rw [hdestinations, map_cons, reverse_cons, List.append_assoc]
      rfl

theorem validRequest_spec {request : HostKVRequest} {isLoad : Bool}
    (h : layout.validRequest request isLoad = true) :
    (∀ mapping ∈ request.mappings, (layout.findGroup mapping.groupId).isSome) ∧
    (request.mappings.map (·.destination isLoad)).Nodup := by
  unfold HostKVLayout.validRequest at h
  split at h
  · cases h
  cases htarget : layout.validateMappings isLoad [] request.targetMappings with
  | none =>
    rw [htarget] at h
    cases h
  | some destinations =>
    rw [htarget] at h
    obtain ⟨destinations', hdraft⟩ := Option.isSome_iff_exists.mp h
    obtain ⟨htargetGroups, htargetDestinations, htargetNodup⟩ := validateMappings_spec htarget
    obtain ⟨hdraftGroups, hdraftDestinations, hdraftNodup⟩ := validateMappings_spec hdraft
    refine ⟨fun mapping hmapping => ?_, ?_⟩
    · cases mem_append.mp hmapping with
      | inl hmapping => exact htargetGroups mapping hmapping
      | inr hmapping => exact hdraftGroups mapping hmapping
    · have hnodup := hdraftNodup (htargetNodup nodup_nil)
      rw [hdraftDestinations, htargetDestinations, append_nil, ← reverse_append,
        nodup_reverse] at hnodup
      rw [map_append]
      exact hnodup

/-! ## Mappings by group -/

theorem addMapping_perm (mapping : HostKVMapping) (grouped : GroupedHostKVMappings) :
    ((addMapping mapping grouped).flatMap Prod.snd).Perm
      (grouped.flatMap Prod.snd ++ [mapping]) := by
  induction grouped with
  | nil => exact List.Perm.refl _
  | cons entry rest ih =>
    unfold addMapping
    split
    · exact perm_append_comm
    split
    · rw [flatMap_cons, flatMap_cons, List.append_assoc, List.append_assoc]
      exact perm_append_comm.append_left entry.2
    · rw [flatMap_cons, flatMap_cons, List.append_assoc]
      exact ih.append_left entry.2

variable {grouped : GroupedHostKVMappings}

/-- What holds of an entry of one mapping, and is kept by another mapping of its group. -/
theorem mem_addMapping {P : Int × List HostKVMapping → Prop} {mapping : HostKVMapping}
    (hnew : P (mapping.groupId, [mapping])) (hmore : ∀ mappings, P (mapping.groupId, mappings) →
      P (mapping.groupId, mappings ++ [mapping]))
    (h : ∀ entry ∈ grouped, P entry) : ∀ entry ∈ addMapping mapping grouped, P entry := by
  induction grouped with
  | nil =>
    intro entry hentry
    rw [mem_singleton.mp hentry]
    exact hnew
  | cons head rest ih =>
    have hhead := h head mem_cons_self
    have hrest := ih fun entry hentry => h entry (mem_cons_of_mem _ hentry)
    unfold addMapping
    intro entry hentry
    split at hentry
    · cases mem_cons.mp hentry with
      | inl heq =>
        rw [heq]
        exact hnew
      | inr hentry => exact h entry hentry
    split at hentry
    next hsame =>
      cases mem_cons.mp hentry with
      | inl heq =>
        rw [heq, ← hsame]
        apply hmore
        rw [hsame]
        exact hhead
      | inr hentry => exact h entry (mem_cons_of_mem _ hentry)
    · cases mem_cons.mp hentry with
      | inl heq =>
        rw [heq]
        exact hhead
      | inr hentry => exact hrest entry hentry

/-- The groups of some mappings have all of them, each under its group, and none is empty. -/
structure Grouped (mappings : List HostKVMapping) (grouped : GroupedHostKVMappings) : Prop where
  perm : (grouped.flatMap Prod.snd).Perm mappings
  nonempty : ∀ entry ∈ grouped, entry.2 ≠ []
  groupIds : ∀ entry ∈ grouped, ∀ mapping ∈ entry.2, mapping.groupId = entry.1

/-- The group of an entry is one of the layout. -/
theorem Grouped.group_of_mem (h : Grouped mappings grouped)
    (hadmitted : ∀ mapping ∈ mappings, Admitted layout mapping) {entry : Int × List HostKVMapping}
    (hentry : entry ∈ grouped) :
    layout.group entry.1 ∈ layout.groups ∧ (layout.group entry.1).groupId = entry.1 := by
  obtain ⟨mapping, hmapping⟩ := exists_mem_of_ne_nil _ (h.nonempty entry hentry)
  have hmem : mapping ∈ mappings :=
    h.perm.mem_iff.mp (mem_flatMap.mpr ⟨entry, hentry, hmapping⟩)
  rw [← h.groupIds entry hentry mapping hmapping]
  exact (hadmitted mapping hmem).group

theorem Grouped.foldl (h : Grouped mappings grouped)
    (more : List HostKVMapping) : Grouped (mappings ++ more)
      (more.foldl (fun grouped mapping => addMapping mapping grouped) grouped) := by
  induction more generalizing mappings grouped with
  | nil =>
    rw [append_nil]
    exact h
  | cons mapping more ih =>
    rw [append_cons]
    apply ih
    refine ⟨(addMapping_perm mapping grouped).trans (h.perm.append_right _), ?_, ?_⟩
    · apply mem_addMapping (P := fun entry => entry.2 ≠ []) (cons_ne_nil _ _) _ h.nonempty
      intro mappings _
      exact append_ne_nil_of_right_ne_nil _ (cons_ne_nil _ _)
    · apply mem_addMapping (P := fun entry => ∀ other ∈ entry.2, other.groupId = entry.1) _ _
        h.groupIds
      · intro other hother
        rw [mem_singleton.mp hother]
      · intro mappings hmappings other hother
        cases mem_append.mp hother with
        | inl hother => exact hmappings other hother
        | inr hother => rw [mem_singleton.mp hother]

theorem groupMappings_grouped (mappings : List HostKVMapping) :
    Grouped mappings (groupMappings mappings) := by
  have hempty : Grouped [] [] := ⟨List.Perm.refl _, nofun,
    nofun⟩
  exact hempty.foldl mappings

end Xllm.Framework
