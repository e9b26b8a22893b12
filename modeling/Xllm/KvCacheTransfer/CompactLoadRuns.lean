import Xllm.KvCacheTransfer.LoadRuns
import Xllm.Lib.Segments

/-!
# The compact load copies what is expected

Its tiles make up the mappings of a group and its groups make up the request, so in a range it
makes the copies that the basic load makes when the tensors of a mapping are the registered ones
(`compactCopies_perm`).
-/

namespace Xllm.Framework

open Xllm.Lib List

/-! ## The executor -/

theorem flatten_tilesOf {α : Type} {size : Nat} (hsize : 0 < size) (xs : List α) :
    (tilesOf size xs).flatten = xs := by
  unfold tilesOf
  rw [← flatMap_def, flatMap_slices, take_of_length_le]
  have hdiv := Nat.div_add_mod (xs.length + size - 1) size
  have hmod := Nat.mod_lt (xs.length + size - 1) hsize
  rw [Nat.mul_comm] at hdiv
  omega

theorem mem_tilesOf {α : Type} {size : Nat} (hsize : 0 < size) {xs tile : List α}
    (htile : tile ∈ tilesOf size xs) {x : α} (hx : x ∈ tile) : x ∈ xs := by
  have hflatten := flatten_tilesOf hsize xs
  rw [← hflatten]
  exact mem_flatten.mpr ⟨tile, htile, hx⟩

variable {layout : HostKVLayout} {layerCopyBatches targetBytes : Nat}
  {executor : CompactLoadExecutor}

/-- `groups_.at(group_id)` is what the constructor made of the group. -/
theorem find_group_made {σ : Type} {make : HostKVGroupLayout → Option σ} {idOf : σ → Int}
    {states : List σ} (hstates : layout.groups.mapM make = some states)
    (hid : ∀ group state, make group = some state → idOf state = group.groupId)
    {group : HostKVGroupLayout} (hgroup : group ∈ layout.groups) :
    ∃ state ∈ states, make group = some state ∧
      states.find? (fun state => idOf state = group.groupId) = some state := by
  obtain ⟨state, hstate, hmade⟩ := exists_mem_of_mapM_some hstates hgroup
  cases hfind : states.find? (fun state => idOf state = group.groupId) with
  | none =>
    have hnot := List.find?_eq_none.mp hfind state hstate
    rw [decide_eq_true_eq] at hnot
    exact absurd (hid group state hmade) hnot
  | some found =>
    have hmem := List.mem_of_find?_eq_some hfind
    obtain ⟨group', hgroup', hmade'⟩ := mem_of_mapM hstates hmem
    have hfound : idOf found = group.groupId := by simpa using List.find?_some hfind
    -- groups are told apart by their ids
    have hsame : group' = group := by
      rw [← layout.group_of_mem hgroup', ← layout.group_of_mem hgroup, ← hfound,
        hid group' found hmade']
    exact ⟨found, hmem, hsame ▸ hmade', rfl⟩

/-- What the executor holds for a group of the layout. -/
structure LoadGroupOf (layerRanges : List LayerRange) (group : HostKVGroupLayout)
    (state : LoadGroupState) : Prop where
  layout : state.layout = group
  ranges : ∀ i range, layerRanges[i]? = some range →
    initRange group range = some (state.ranges.getD i {})
  blocksPerChunk : 0 < state.blocksPerChunk

theorem initLoadGroup_spec {layerRanges : List LayerRange} {group : HostKVGroupLayout}
    {state : LoadGroupState} (h : initLoadGroup layerRanges targetBytes group = some state) :
    LoadGroupOf layerRanges group state := by
  obtain ⟨ranges, hranges, h⟩ := Option.bind_eq_some_iff.mp h
  split at h
  · cases h
  cases h
  refine ⟨rfl, fun i range hrange => ?_, by dsimp only; omega⟩
  have hget := getElem?_of_mapM hranges i
  rw [hrange, Option.bind_some] at hget
  rw [List.getD_eq_getElem?_getD, hget]
  obtain ⟨state, _, hstate⟩ := exists_mem_of_mapM_some hranges (mem_of_getElem? hrange)
  rw [hstate]
  rfl

theorem CompactLoadExecutor.init_spec
    (h : CompactLoadExecutor.init layout layerCopyBatches targetBytes = some executor) :
    executor.layerRanges = layout.ranges layerCopyBatches ∧
    ∀ group ∈ layout.groups,
      LoadGroupOf (layout.ranges layerCopyBatches) group (executor.group group.groupId) := by
  unfold CompactLoadExecutor.init at h
  split at h
  · cases h
  obtain ⟨groups, hgroups, h⟩ := Option.bind_eq_some_iff.mp h
  cases h
  refine ⟨rfl, fun group hgroup => ?_⟩
  obtain ⟨state, _, hmade, hfind⟩ := find_group_made hgroups
    (fun _ _ hmade => congrArg _ (initLoadGroup_spec hmade).layout) hgroup
  unfold CompactLoadExecutor.group
  rw [hfind]
  exact initLoadGroup_spec hmade

/-! ## A range of the compact load -/

/-- The copies of a group in a range, tile by tile. -/
def groupCopies (executor : CompactLoadExecutor) (range : LayerRange)
    (entry : Int × List HostKVMapping) : List TensorCopy :=
  (tilesOf (executor.group entry.1).blocksPerChunk entry.2).flatMap
    (chunkCopies (executor.group entry.1).layout range)

def compactCopies (executor : CompactLoadExecutor) (mappings : List HostKVMapping)
    (range : LayerRange) : List TensorCopy :=
  (groupMappings mappings).flatMap (groupCopies executor range)

section

variable {host : HostMemory} {env : StreamEnv}

theorem submitRange_spec {group : HostKVGroupLayout} {state : LoadGroupState}
    {layerRanges : List LayerRange} (hstate : LoadGroupOf layerRanges group state)
    {layerRange : LayerRange} {rangeIndex : Nat}
    (hrange : layerRanges[rangeIndex]? = some layerRange) {mappings : List HostKVMapping}
    (hgroups : ∀ mapping ∈ mappings, mapping.groupId = group.groupId) (s : CompactLoadState) :
    Yields env.Smooth (fun s' => s'.toLoadState = s.toLoadState.after host
        (((tilesOf state.blocksPerChunk mappings).flatMap
          (chunkCopies state.layout layerRange)).map .copied))
      (submitRange env host state layerRange rangeIndex mappings s) := by
  have hinit := hstate.ranges rangeIndex layerRange hrange
  rw [← hstate.layout] at hinit hgroups
  unfold submitRange
  dsimp only
  split
  · next hempty =>
    -- no layer has a slot in an empty window
    have hlayers : state.layout.layers.filter layerRange.contains = [] := by
      apply eq_nil_iff_forall_not_mem.mpr
      intro layer hlayer
      have hslots := (initRange_covers hinit).slots layer hlayer
      omega
    have hnone : (tilesOf state.blocksPerChunk mappings).flatMap
        (chunkCopies state.layout layerRange) = [] := by
      apply flatMap_eq_nil_iff.mpr
      intro tile _
      unfold chunkCopies
      rw [hlayers]
      rfl
    rw [hnone]
    exact .some (s.toLoadState.after_nil).symm
  · rw [map_flatMap]
    apply foldlM_after
    intro tile htile s'
    apply submitChunk_spec hinit
    intro mapping hmapping
    exact hgroups mapping (mem_tilesOf hstate.blocksPerChunk htile hmapping)

variable {mappings : List HostKVMapping}

theorem recordCompact_spec (index : Nat) (s : CompactLoadState) :
    Yields env.Smooth (fun s' => s'.toLoadState = s.toLoadState.after host [.recorded index])
      (recordCompact env index s) := by
  unfold recordCompact
  rw [Option.map_eq_bind]
  apply (recordStream_spec index s.toLoadState).bind
  intro s' hs'
  exact .some hs'

theorem submitGroups_spec
    (hinit : CompactLoadExecutor.init layout layerCopyBatches targetBytes = some executor)
    (hadmitted : ∀ mapping ∈ mappings, Admitted layout mapping)
    {layerRange : LayerRange} {rangeIndex : Nat}
    (hrange : executor.layerRanges[rangeIndex]? = some layerRange) (s : CompactLoadState) :
    Yields env.Smooth (fun s' => s'.toLoadState = s.toLoadState.after host
        ((compactCopies executor mappings layerRange).map .copied))
      (submitGroups env host executor mappings layerRange rangeIndex s) := by
  obtain ⟨hranges, hgroupStates⟩ := CompactLoadExecutor.init_spec hinit
  rw [hranges] at hrange
  have hgrouped := groupMappings_grouped mappings
  unfold submitGroups compactCopies
  rw [map_flatMap]
  apply foldlM_after
  intro entry hentry s'
  obtain ⟨hgroup, hid⟩ := hgrouped.group_of_mem hadmitted hentry
  have hstate := hgroupStates _ hgroup
  rw [hid] at hstate
  apply submitRange_spec hstate hrange
  intro other hother
  rw [hid]
  exact hgrouped.groupIds entry hentry other hother

/-- The compact load makes its copies range by range, with their events, and then those of the
draft caches. -/
theorem CompactLoadExecutor.execute_spec {request : HostKVRequest}
    (hinit : CompactLoadExecutor.init layout layerCopyBatches targetBytes = some executor)
    (hadmitted : ∀ mapping ∈ request.mappings, Admitted layout mapping) (s : CompactLoadState) :
    Yields env.Smooth (fun s' => s'.toLoadState = s.toLoadState.after host
        (loadLog (compactCopies executor) (layout.ranges layerCopyBatches) request))
      (executor.execute env host request s) := by
  have hranges := (CompactLoadExecutor.init_spec hinit).1
  have hgroups := fun mappings hmappings entry (hentry : entry ∈ executor.layerRanges.zipIdx) =>
    @submitGroups_spec layout layerCopyBatches targetBytes executor host env mappings hinit
      hmappings entry.1 entry.2 (mem_zipIdx_iff_getElem?.mp hentry)
  unfold CompactLoadExecutor.execute loadLog
  rw [← hranges]
  have htargets := @foldlM_after host _ _ env.Smooth CompactLoadState.toLoadState (fun s entry => do
    let s ← submitGroups env host executor request.targetMappings entry.1 entry.2 s
    recordCompact env entry.2 s) (rangeEvents (compactCopies executor request.targetMappings))
    executor.layerRanges.zipIdx (fun entry hentry s => by
      apply (hgroups request.targetMappings (fun mapping hmapping =>
        hadmitted mapping (mem_append_left _ hmapping)) entry hentry s).bind
      intro s' hs'
      apply (recordCompact_spec entry.2 s').imp
      intro s'' hs''
      rw [hs'', hs', ← LoadState.after_append]
      rfl) s
  apply htargets.bind
  intro s₁ hs₁
  have hdrafts := @foldlM_after host _ _ env.Smooth CompactLoadState.toLoadState (fun s entry =>
    submitGroups env host executor request.draftMappings entry.1 entry.2 s)
    (fun entry => (compactCopies executor request.draftMappings entry.1).map .copied)
    executor.layerRanges.zipIdx (fun entry hentry s => by
      apply hgroups request.draftMappings
      · exact fun mapping hmapping => hadmitted mapping (mem_append_right _ hmapping)
      · exact hentry) s₁
  apply hdrafts.bind
  intro s₂ hs₂
  have hdraftLog : (executor.layerRanges.zipIdx.flatMap fun entry =>
      (compactCopies executor request.draftMappings entry.1).map TransferEvent.copied) =
      (executor.layerRanges.flatMap (compactCopies executor request.draftMappings)).map
        .copied := by
    have hfirst : (executor.layerRanges.zipIdx.flatMap fun entry =>
        compactCopies executor request.draftMappings entry.1) =
        (executor.layerRanges.zipIdx.map Prod.fst).flatMap
          (compactCopies executor request.draftMappings) := by
      rw [flatMap_map]
    rw [← map_flatMap, hfirst, zipIdx_map_fst]
  rw [hdraftLog] at hs₂
  by_cases hempty : request.draftMappings = []
  · rw [if_pos hempty, if_pos hempty, append_nil]
    apply Yields.some
    rw [hs₂, hs₁, ← LoadState.after_append]
  · rw [if_neg hempty, if_neg hempty]
    apply (recordCompact_spec _ s₂).imp
    intro s' hs'
    rw [hs', hs₂, hs₁, ← LoadState.after_append, ← LoadState.after_append, List.append_assoc]

end

/-! ## The copies -/

/-- The mapping of the first checkpoint row. -/
def HostKVMapping.firstRow (mapping : HostKVMapping) : HostKVMapping :=
  { mapping with checkpointRow := 0 }

theorem layerCopies_firstRow {numLayers : Nat} {group : HostKVGroupLayout}
    (hchecked : GroupChecked numLayers group) {layer : HostKVLayerLayout}
    (hlayer : layer ∈ group.layers) (mapping : HostKVMapping) :
    layerCopies mapping.firstRow layer = layer.deviceRoles.map (tensorCopy mapping layer) := by
  unfold layerCopies transferTensors HostKVMapping.firstRow
  rw [getDeviceTransferTensors_zero hchecked hlayer]
  rfl

theorem chunkCopies_perm {numLayers : Nat} {group : HostKVGroupLayout}
    (hchecked : GroupChecked numLayers group) (range : LayerRange) (mappings : List HostKVMapping) :
    (chunkCopies group range mappings).Perm (mappings.flatMap fun mapping =>
      (group.layers.filter range.contains).flatMap (layerCopies mapping.firstRow)) := by
  have hroles : ∀ layer ∈ group.layers.filter range.contains,
      (layer.deviceRoles.flatMap fun entry =>
        mappings.map fun mapping => tensorCopy mapping layer entry).Perm
      (mappings.flatMap fun mapping => layerCopies mapping.firstRow layer) := by
    intro layer hlayer
    have hcopies : (mappings.flatMap fun mapping => layerCopies mapping.firstRow layer) =
        mappings.flatMap fun mapping => layer.deviceRoles.map (tensorCopy mapping layer) := by
      congr 1
      funext mapping
      exact layerCopies_firstRow hchecked (mem_filter.mp hlayer).1 mapping
    rw [hcopies]
    exact flatMap_map_swap_perm layer.deviceRoles mappings
      fun entry mapping => tensorCopy mapping layer entry
  refine (List.Perm.flatMap_left _ hroles).trans ?_
  exact flatMap_swap_perm _ mappings fun layer mapping => layerCopies mapping.firstRow layer

theorem compactCopies_perm
    (hinit : CompactLoadExecutor.init layout layerCopyBatches targetBytes = some executor)
    {mappings : List HostKVMapping} (hadmitted : ∀ mapping ∈ mappings, Admitted layout mapping)
    (range : LayerRange) : (compactCopies executor mappings range).Perm
      (rangeCopies layout (mappings.map HostKVMapping.firstRow) range) := by
  have hgroupStates := (CompactLoadExecutor.init_spec hinit).2
  have hgrouped := groupMappings_grouped mappings
  have hentries : ∀ entry ∈ groupMappings mappings,
      (groupCopies executor range entry).Perm (entry.2.flatMap fun mapping =>
        ((layout.group mapping.groupId).layers.filter range.contains).flatMap
          (layerCopies mapping.firstRow)) := by
    intro entry hentry
    obtain ⟨hgroup, hid⟩ := hgrouped.group_of_mem hadmitted hentry
    have hstate := hgroupStates _ hgroup
    rw [hid] at hstate
    have hmappings : (entry.2.flatMap fun mapping =>
        ((layout.group mapping.groupId).layers.filter range.contains).flatMap
          (layerCopies mapping.firstRow)) =
        entry.2.flatMap fun mapping =>
          ((layout.group entry.1).layers.filter range.contains).flatMap
            (layerCopies mapping.firstRow) := by
      apply flatMap_congr
      intro mapping hmapping
      rw [hgrouped.groupIds entry hentry mapping hmapping]
    have htiles := flatten_tilesOf hstate.blocksPerChunk entry.2
    rw [hmappings, ← htiles, flatten_eq_flatMap, flatMap_assoc]
    apply List.Perm.flatMap_left
    intro tile _
    rw [hstate.layout]
    exact chunkCopies_perm (layout.checked _ hgroup) range tile
  unfold compactCopies rangeCopies
  refine (List.Perm.flatMap_left _ hentries).trans ?_
  rw [flatMap_map, ← flatMap_assoc]
  exact hgrouped.perm.flatMap_right _

end Xllm.Framework
