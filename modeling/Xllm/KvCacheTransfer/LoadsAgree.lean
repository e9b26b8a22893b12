import Xllm.KvCacheTransfer.LoadAgreement

/-!
# When the two loads agree

The basic load writes the checkpoint row that a mapping names, the compact load the first one. So
the device holds the same after both exactly for the requests whose mappings name the first row
wherever a cache has checkpoints (`firstRow_of_loadsAgree`). Both copy the draft mappings when the
events of all layer ranges are recorded, under an event of their own (`LoadInOrder`); so what was
asked of the events of the ranges (`LoadDone`) holds of either load exactly when a request has no
draft mappings (`loadDone_iff`), and the loads agree and are done when both conditions hold
(`loadsAgree_iff`).
-/

namespace Xllm.Framework

open Xllm.Lib List

variable {layout : HostKVLayout} {request : HostKVRequest} {layerCopyBatches targetBytes : Nat}

/-! ## A load that is done -/

/-- Each expected copy is made once, and the event of a range comes after all copies into its
layers. -/
structure LoadDone (layout : HostKVLayout) (layerCopyBatches : Nat) (request : HostKVRequest)
    (log : List TransferEvent) : Prop where
  once : (copiesIn log).Perm (expectedCopies layout request.mappings)
  layerEvents : ∀ i range, (layout.ranges layerCopyBatches)[i]? = some range →
    RecordedAfter log i fun copy => copy.into range

/-- Each expected copy is made once. The event of a range comes after the copies of the target
mappings into its layers, the draft event after everything. -/
structure LoadInOrder (layout : HostKVLayout) (layerCopyBatches : Nat) (request : HostKVRequest)
    (log : List TransferEvent) : Prop where
  once : (copiesIn log).Perm (expectedCopies layout request.mappings)
  targetEvents : ∀ i range, (layout.ranges layerCopyBatches)[i]? = some range →
    RecordedAfter log i fun copy => copy.into range ∧ copy.loads request.targetMappings
  draftEvent : request.draftMappings ≠ [] →
    RecordedAfter log (layout.ranges layerCopyBatches).length fun _ => True

theorem exists_rangeCopy {mappings : List HostKVMapping} {mapping : HostKVMapping}
    (hmapping : mapping ∈ mappings) (hadmitted : Admitted layout mapping) :
    ∃ range ∈ layout.ranges layerCopyBatches, ∃ copy, copy ∈ rangeCopies layout mappings range := by
  have hgroup := hadmitted.group.1
  have hchecked := layout.checked _ hgroup
  obtain ⟨layer, hlayer⟩ := exists_mem_of_ne_nil _ hchecked.layers_ne_nil
  obtain ⟨tensors, htensors⟩ := Option.isSome_iff_exists.mp (hadmitted.rows layer hlayer)
  have htensors_ne : tensors ≠ [] := by
    intro hnil
    have hroles := transferTensors_roles hchecked hlayer htensors
    rw [hnil] at hroles
    exact (hchecked.deviceRoles layer hlayer).1 (map_eq_nil_iff.mp hroles.symm)
  obtain ⟨entry, hentry⟩ := exists_mem_of_ne_nil _ htensors_ne
  obtain ⟨range, hrange, hcontains, _⟩ :=
    range_of_layer (getLayersPerEvent_pos layout.numLayers layerCopyBatches)
      (hchecked.layerBound layer hlayer)
  refine ⟨range, hrange, tensorCopy mapping layer entry, ?_⟩
  apply mem_flatMap.mpr
  refine ⟨mapping, hmapping, mem_flatMap.mpr ⟨layer, ?_, ?_⟩⟩
  · exact mem_filter.mpr ⟨hlayer, hcontains⟩
  · unfold layerCopies transferTensors
    rw [htensors]
    exact mem_map_of_mem hentry

section

variable {copies : List HostKVMapping → LayerRange → List TensorCopy}

theorem target_into (h : CopiesAs layout request id copies) (range : LayerRange) :
    ∀ copy ∈ copies request.targetMappings range, copy.into range := by
  intro copy hcopy
  exact (mem_rangeCopies ((h.target range).mem_iff.mp hcopy)).1

theorem loadInOrder_of_copies (h : CopiesAs layout request id copies)
    (hdestinations : (request.mappings.map (·.destination true)).Nodup) :
    LoadInOrder layout layerCopyBatches request
      (loadLog copies (layout.ranges layerCopyBatches) request) := by
  have hdisjoint : ∀ copy ∈ (layout.ranges layerCopyBatches).flatMap (copies request.draftMappings),
      ¬ copy.loads request.targetMappings := by
    intro copy hcopy hloads
    obtain ⟨range, _, hcopy⟩ := mem_flatMap.mp hcopy
    have hdraft := (mem_rangeCopies ((h.draft range).mem_iff.mp hcopy)).2
    rw [map_id] at hdraft
    rw [map_append] at hdestinations
    exact disjoint_of_nodup_append hdestinations hloads hdraft
  refine ⟨?_, ?_, draftRecordedAfter_loadLog⟩
  · have hcopies := @loadLog_copies layout request layerCopyBatches id copies h
    rw [map_id] at hcopies
    exact hcopies
  · intro i range hi
    apply recordedAfter_loadLog (ranges_pairwise layout layerCopyBatches) (target_into h) hi
    · exact fun copy hkind => hkind.1
    · exact fun copy hcopy hkind => hdisjoint copy hcopy hkind.2

/-- The copies of a draft mapping come after the events of the layers that they go into, whatever
the row. -/
theorem loadDone_iff (h : CopiesAs layout request id copies) :
    LoadDone layout layerCopyBatches request
        (loadLog copies (layout.ranges layerCopyBatches) request) ↔
      request.draftMappings = [] := by
  constructor
  · intro hdone
    by_contra hne
    obtain ⟨mapping, hmapping⟩ := exists_mem_of_ne_nil _ hne
    have hadmitted := h.admitted mapping (mem_append_right _ hmapping)
    obtain ⟨range, hrange, copy, hcopy⟩ :=
      @exists_rangeCopy layout layerCopyBatches request.draftMappings mapping hmapping hadmitted
    obtain ⟨i, hi⟩ := mem_iff_getElem?.mp hrange
    have hinto := (mem_rangeCopies hcopy).1
    have hdraft := h.draft range
    rw [map_id] at hdraft
    have hmem : copy ∈ (layout.ranges layerCopyBatches).flatMap (copies request.draftMappings) :=
      mem_flatMap.mpr ⟨range, hrange, hdraft.mem_iff.mpr hcopy⟩
    exact not_recordedAfter_loadLog hi hmem hinto (hdone.layerEvents i range hi)
  · intro hnil
    constructor
    · have hcopies := @loadLog_copies layout request layerCopyBatches id copies h
      rw [map_id] at hcopies
      exact hcopies
    · intro i range hi
      apply recordedAfter_loadLog (ranges_pairwise layout layerCopyBatches) (target_into h) hi
      · exact fun copy hkind => hkind
      · intro copy hcopy
        obtain ⟨range', _, hcopy⟩ := mem_flatMap.mp hcopy
        have hnone := (h.draft range').mem_iff.mp hcopy
        rw [hnil] at hnone
        exact nomatch hnone

end

/-! ## Agreement -/

/-- Where a cache has checkpoints, the mapping names the first row. -/
def LoadsFirstRow (layout : HostKVLayout) (mapping : HostKVMapping) : Prop :=
  ∀ layer ∈ (layout.group mapping.groupId).layers,
    layer.deviceCache.isSome → layer.blockType = .linear → mapping.checkpointRow = 0

/-- The two loads of a request, from the same device and whatever the staging slots hold: both
return when nothing fails, and when they do the device holds the same and both logs are as
wanted. -/
def LoadsAgree (layout : HostKVLayout) (layerCopyBatches : Nat) (executor : CompactLoadExecutor)
    (request : HostKVRequest) (handle : HostKVLoadHandle) (done : List TransferEvent → Prop) :
    Prop :=
  ∀ (env : StreamEnv) (host : HostMemory) (device : DeviceMemory) (slots : Nat → LoadSlot)
    (nextSlotIndex : Nat),
    let basic := hostLoad layout layerCopyBatches request handle
      (basicLoadImpl layout env (layout.ranges layerCopyBatches) host request { device })
    let compact := hostLoad layout layerCopyBatches request handle
      (executor.execute env host request { device, slots, nextSlotIndex })
    (env.Smooth → basic.isSome ∧ compact.isSome) ∧
    ∀ s s', basic = some s → compact = some s' →
      s'.device = s.device ∧ done s.log ∧ done s'.log

section

variable {mapping : HostKVMapping} {mappings : List HostKVMapping}

theorem admitted_firstRow (h : Admitted layout mapping) : Admitted layout mapping.firstRow := by
  refine ⟨h.group, fun layer hlayer => ?_⟩
  have hzero := getDeviceTransferTensors_zero (layout.checked _ h.group.1) hlayer
  exact Option.isSome_iff_exists.mpr ⟨_, hzero⟩

theorem layerCopies_of_loadsFirstRow (h : LoadsFirstRow layout mapping) {layer : HostKVLayerLayout}
    (hlayer : layer ∈ (layout.group mapping.groupId).layers) :
    layerCopies mapping.firstRow layer = layerCopies mapping layer := by
  have htensors : getDeviceTransferTensors layer 0 =
      getDeviceTransferTensors layer mapping.checkpointRow := by
    have hfirst := h layer hlayer
    unfold getDeviceTransferTensors
    cases hcache : layer.deviceCache with
    | none => rfl
    | some cache =>
      dsimp only
      split
      · rfl
      next hlinear =>
      rw [hcache] at hfirst
      rw [hfirst rfl (not_not.mp hlinear)]
  unfold layerCopies transferTensors HostKVMapping.firstRow
  rw [htensors]
  rfl

theorem rangeCopies_firstRow (h : ∀ mapping ∈ mappings, LoadsFirstRow layout mapping)
    (range : LayerRange) : rangeCopies layout (mappings.map HostKVMapping.firstRow) range =
      rangeCopies layout mappings range := by
  unfold rangeCopies
  rw [flatMap_map]
  apply flatMap_congr
  intro mapping hmapping
  apply flatMap_congr
  intro layer hlayer
  exact layerCopies_of_loadsFirstRow (h mapping hmapping) (mem_filter.mp hlayer).1

end

/-- The convolution rows of a checkpoint. -/
def convTensor (cache : LinearAttentionKVCache) (checkpointRow : Nat) :
    KVCacheTensorRole × DeviceRoleTensor :=
  (.CONV, { blockCount := cache.blockCount
            offset := checkpointRow * cache.convRowBytes
            blockBytes := kCommittedConvRows * cache.convRowBytes })

theorem convTensor_mem {layer : HostKVLayerLayout} {cache : LinearAttentionKVCache}
    (hcache : layer.deviceCache = some cache) (hlinear : layer.blockType = .linear)
    {checkpointRow : Nat} (hrow : (getDeviceTransferTensors layer checkpointRow).isSome) :
    convTensor cache checkpointRow ∈ transferTensors layer checkpointRow := by
  obtain ⟨tensors, htensors⟩ := Option.isSome_iff_exists.mp hrow
  unfold transferTensors
  rw [htensors, Option.getD_some]
  unfold getDeviceTransferTensors at htensors
  rw [hcache] at htensors
  dsimp only at htensors
  rw [if_neg (not_not.mpr hlinear)] at htensors
  unfold LinearAttentionKVCache.getBlockTypeTensors at htensors
  split at htensors
  · cases htensors
    exact mem_cons_self
  · cases htensors

section

variable {executor : CompactLoadExecutor}
  (hinit : CompactLoadExecutor.init layout layerCopyBatches targetBytes = some executor)
  (hadmitted : ∀ mapping ∈ request.mappings, Admitted layout mapping)

include hadmitted

theorem basic_copiesAs : CopiesAs layout request id (rangeCopies layout) := by
  refine ⟨hadmitted, fun range => ?_, fun range => ?_⟩
  · rw [map_id]
  · rw [map_id]

include hinit

theorem compact_copiesAs :
    CopiesAs layout request HostKVMapping.firstRow (compactCopies executor) := by
  refine ⟨fun mapping hmapping => admitted_firstRow (hadmitted mapping hmapping), ?_, ?_⟩
  · apply compactCopies_perm hinit
    exact fun mapping hmapping => hadmitted mapping (mem_append_left _ hmapping)
  · apply compactCopies_perm hinit
    exact fun mapping hmapping => hadmitted mapping (mem_append_right _ hmapping)

theorem compact_copiesAs_of_firstRow
    (hfirst : ∀ mapping ∈ request.mappings, LoadsFirstRow layout mapping) :
    CopiesAs layout request id (compactCopies executor) := by
  have hcopies := compact_copiesAs hinit hadmitted
  have htarget := @rangeCopies_firstRow layout request.targetMappings
    fun mapping hmapping => hfirst mapping (mem_append_left _ hmapping)
  have hdraft := @rangeCopies_firstRow layout request.draftMappings
    fun mapping hmapping => hfirst mapping (mem_append_right _ hmapping)
  refine ⟨hadmitted, fun range => ?_, fun range => ?_⟩
  · rw [map_id, ← htarget range]
    exact hcopies.target range
  · rw [map_id, ← hdraft range]
    exact hcopies.draft range

variable {handle : HostKVLoadHandle}

theorem loads_spec (hrequest : layout.validRequest request true = true)
    (hhandle : validHandle (layout.ranges layerCopyBatches).length
      (getLayersPerEvent layout.numLayers layerCopyBatches) request handle = true)
    (env : StreamEnv) (host : HostMemory) (device : DeviceMemory) (slots : Nat → LoadSlot)
    (nextSlotIndex : Nat) :
    Yields env.Smooth (fun s => s = LoadState.after host { device }
        (loadLog (rangeCopies layout) (layout.ranges layerCopyBatches) request))
      (hostLoad layout layerCopyBatches request handle
        (basicLoadImpl layout env (layout.ranges layerCopyBatches) host request { device })) ∧
    Yields env.Smooth (fun s => s.toLoadState = LoadState.after host { device }
        (loadLog (compactCopies executor) (layout.ranges layerCopyBatches) request))
      (hostLoad layout layerCopyBatches request handle
        (executor.execute env host request { device, slots, nextSlotIndex })) := by
  unfold hostLoad
  rw [if_pos ⟨hrequest, hhandle⟩, if_pos ⟨hrequest, hhandle⟩]
  exact ⟨basicLoadImpl_spec hadmitted _ _, CompactLoadExecutor.execute_spec hinit hadmitted
    { device, slots, nextSlotIndex }⟩

theorem loadsAgree_of_firstRow (hrequest : layout.validRequest request true = true)
    (hhandle : validHandle (layout.ranges layerCopyBatches).length
      (getLayersPerEvent layout.numLayers layerCopyBatches) request handle = true)
    (hfirst : ∀ mapping ∈ request.mappings, LoadsFirstRow layout mapping)
    {done : List TransferEvent → Prop}
    (hdone : ∀ copies, CopiesAs layout request id copies →
      done (loadLog copies (layout.ranges layerCopyBatches) request)) :
    LoadsAgree layout layerCopyBatches executor request handle done := by
  intro env host device slots nextSlotIndex
  obtain ⟨hbasic, hcompact⟩ :=
    loads_spec hinit hadmitted hrequest hhandle env host device slots nextSlotIndex
  have hdestinations := (validRequest_spec hrequest).2
  have hbasicCopies := @basic_copiesAs layout request hadmitted
  have hcompactCopies := compact_copiesAs_of_firstRow hinit hadmitted hfirst
  constructor
  · intro hsmooth
    obtain ⟨s, hs⟩ := hbasic.returns hsmooth
    obtain ⟨s', hs'⟩ := hcompact.returns hsmooth
    exact ⟨Option.isSome_iff_exists.mpr ⟨s, hs⟩, Option.isSome_iff_exists.mpr ⟨s', hs'⟩⟩
  · intro s s' hs hs'
    have hstate := hbasic.sound s hs
    have hstate' := hcompact.sound s' hs'
    have hsame : ∀ mapping : HostKVMapping, (id mapping).destination true =
      mapping.destination true := fun mapping => rfl
    rw [hstate', hstate]
    refine ⟨?_, ?_, ?_⟩
    · rw [loadLog_device hbasicCopies hdestinations hsame,
        loadLog_device hcompactCopies hdestinations hsame]
    · exact hdone _ hbasicCopies
    · exact hdone _ hcompactCopies

/-- A load that names another row of a cache: the last byte of the convolution rows differs. -/
theorem firstRow_of_loadsAgree (hrequest : layout.validRequest request true = true)
    (hhandle : validHandle (layout.ranges layerCopyBatches).length
      (getLayersPerEvent layout.numLayers layerCopyBatches) request handle = true)
    {done : List TransferEvent → Prop}
    (hagree : LoadsAgree layout layerCopyBatches executor request handle done) :
    ∀ mapping ∈ request.mappings, LoadsFirstRow layout mapping := by
  intro mapping hmapping layer hlayer hcache hlinear
  by_contra hrow
  -- the host holds ones, the device zeros
  let env : StreamEnv := ⟨fun _ => true, fun _ => true, fun _ => true⟩
  have hsmooth : env.Smooth := ⟨fun _ => rfl, fun _ => rfl, fun _ => rfl⟩
  let host : HostMemory := fun _ _ => 1
  let device : DeviceMemory := fun _ _ => 0
  let slots : Nat → LoadSlot := fun _ => ⟨fun _ _ _ _ _ => 0, fun _ => 0, fun _ => 0⟩
  obtain ⟨hbasic, hcompact⟩ := loads_spec hinit hadmitted hrequest hhandle env host device slots 0
  obtain ⟨s, hs⟩ := hbasic.returns hsmooth
  obtain ⟨s', hs'⟩ := hcompact.returns hsmooth
  have hdevice := ((hagree env host device slots 0).2 s s' hs hs').1
  have hdestinations := (validRequest_spec hrequest).2
  obtain ⟨cache, hcache⟩ := Option.isSome_iff_exists.mp hcache
  have hchecked := layout.checked _ (hadmitted mapping hmapping).group.1
  have hzero := getDeviceTransferTensors_zero hchecked hlayer
  have hfirst := convTensor_mem hcache hlinear (Option.isSome_iff_exists.mpr ⟨_, hzero⟩)
  have hnamed := convTensor_mem hcache hlinear ((hadmitted mapping hmapping).rows layer hlayer)
  have hsame : ∀ mapping : HostKVMapping, mapping.firstRow.destination true =
    mapping.destination true := fun mapping => rfl
  have hcell := @loadLog_cell layout request layerCopyBatches id _ (basic_copiesAs hadmitted)
    hdestinations (fun _ => rfl) host { device } _
    (tensorCopy_mem_expectedCopies (mem_map_of_mem hmapping) hlayer hnamed)
  have hcell' := @loadLog_cell layout request layerCopyBatches HostKVMapping.firstRow _
    (compact_copiesAs hinit hadmitted) hdestinations hsame host { device } _
    (tensorCopy_mem_expectedCopies (mem_map_of_mem hmapping) hlayer hfirst)
  rw [← hbasic.sound s hs] at hcell
  rw [← hcompact.sound s' hs', hdevice] at hcell'
  -- the last byte of the row that the mapping names
  have hbytes : 0 < kCommittedConvRows * cache.convRowBytes := by
    have hregistered : convTensor cache 0 ∈ layer.deviceRoles := by
      unfold transferTensors at hfirst
      rw [hzero] at hfirst
      exact hfirst
    exact (hchecked.active layer hlayer _ hregistered).1
  have hbyte := congrFun (hcell.symm.trans hcell')
    (mapping.checkpointRow * cache.convRowBytes + (kCommittedConvRows * cache.convRowBytes - 1))
  unfold loadBytes tensorCopy convTensor at hbyte
  dsimp only at hbyte
  have hpos := Nat.pos_of_mul_pos_left hbytes
  have hnext := Nat.mul_le_mul_right cache.convRowBytes (Nat.pos_of_ne_zero hrow)
  rw [blit_inside _ _ _ _ (Nat.sub_lt hbytes Nat.one_pos), blit_outside _ _ _ (by omega)] at hbyte
  cases hbyte

/-- A load of draft mappings: their copies come after the events of the ranges. -/
theorem noDrafts_of_loadsAgree (hrequest : layout.validRequest request true = true)
    (hhandle : validHandle (layout.ranges layerCopyBatches).length
      (getLayersPerEvent layout.numLayers layerCopyBatches) request handle = true)
    (hagree : LoadsAgree layout layerCopyBatches executor request handle
      (LoadDone layout layerCopyBatches request)) :
    request.draftMappings = [] := by
  let env : StreamEnv := ⟨fun _ => true, fun _ => true, fun _ => true⟩
  have hsmooth : env.Smooth := ⟨fun _ => rfl, fun _ => rfl, fun _ => rfl⟩
  let slots : Nat → LoadSlot := fun _ => ⟨fun _ _ _ _ _ => 0, fun _ => 0, fun _ => 0⟩
  obtain ⟨hbasic, hcompact⟩ :=
    loads_spec hinit hadmitted hrequest hhandle env (fun _ _ => 0) (fun _ _ => 0) slots 0
  obtain ⟨s, hs⟩ := hbasic.returns hsmooth
  obtain ⟨s', hs'⟩ := hcompact.returns hsmooth
  have hlog := ((hagree env (fun _ _ => 0) (fun _ _ => 0) slots 0).2 s s' hs hs').2.1
  rw [hbasic.sound s hs] at hlog
  exact (loadDone_iff (basic_copiesAs hadmitted)).mp hlog

theorem loadsAgree_iff (hrequest : layout.validRequest request true = true)
    (hhandle : validHandle (layout.ranges layerCopyBatches).length
      (getLayersPerEvent layout.numLayers layerCopyBatches) request handle = true) :
    LoadsAgree layout layerCopyBatches executor request handle
        (LoadDone layout layerCopyBatches request) ↔
      request.draftMappings = [] ∧ ∀ mapping ∈ request.mappings, LoadsFirstRow layout mapping := by
  constructor
  · intro hagree
    exact ⟨noDrafts_of_loadsAgree hinit hadmitted hrequest hhandle hagree,
      firstRow_of_loadsAgree hinit hadmitted hrequest hhandle hagree⟩
  · intro hloads
    apply loadsAgree_of_firstRow hinit hadmitted hrequest hhandle hloads.2
    exact fun copies hcopies => (loadDone_iff hcopies).mpr hloads.1

theorem loadsAgree_inOrder_iff (hrequest : layout.validRequest request true = true)
    (hhandle : validHandle (layout.ranges layerCopyBatches).length
      (getLayersPerEvent layout.numLayers layerCopyBatches) request handle = true) :
    LoadsAgree layout layerCopyBatches executor request handle
        (LoadInOrder layout layerCopyBatches request) ↔
      ∀ mapping ∈ request.mappings, LoadsFirstRow layout mapping := by
  constructor
  · exact firstRow_of_loadsAgree hinit hadmitted hrequest hhandle
  · intro hfirst
    apply loadsAgree_of_firstRow hinit hadmitted hrequest hhandle hfirst
    exact fun copies hcopies => loadInOrder_of_copies hcopies (validRequest_spec hrequest).2

end

end Xllm.Framework
