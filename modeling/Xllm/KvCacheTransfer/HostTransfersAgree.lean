import Xllm.KvCacheTransfer.LoadsAgree
import Xllm.KvCacheTransfer.OffloadRuns

/-!
# The compact transfer and the basic one

Offloads agree on every valid request, in whatever order the two streams of the compact offload
run: the slots of active layers hold the same, and each block is copied once. Loads agree, and
record the event of a layer range after all copies into it, on the requests without draft mappings
that name the first checkpoint row, and only on these (`compact_transfer_agrees_iff`). The compact
load scatters into the tensors that the layout has registered, which show the first row, where the
basic load looks up those of the row that a mapping names; and both copy draft mappings last, under
an event of their own.
-/

namespace Xllm.Framework

open Xllm.Lib List

variable {layout : HostKVLayout} {request : HostKVRequest} {layerCopyBatches targetBytes : Nat}

/-! ## The basic offload -/

def OffloadState.after (device : DeviceMemory) (s : OffloadState) (copies : List TensorCopy) :
    OffloadState :=
  { host := writes TensorCopy.hostSlot (offloadBytes device) copies s.host
    log := s.log ++ copies.map .copied }

section

variable {device : DeviceMemory} {env : StreamEnv}

theorem OffloadState.after_nil (s : OffloadState) : s.after device [] = s := by
  unfold OffloadState.after
  rw [map_nil, append_nil]
  rfl

theorem OffloadState.after_append (s : OffloadState) (copies copies' : List TensorCopy) :
    s.after device (copies ++ copies') = (s.after device copies).after device copies' := by
  unfold OffloadState.after
  rw [writes_append, map_append, List.append_assoc]

theorem copyPlan_spec (plan : List TensorCopy) (s : OffloadState) :
    Yields env.Smooth (fun s' => s' = s.after device plan) (copyPlan env device plan s) := by
  unfold copyPlan
  split
  next hempty =>
    rw [List.isEmpty_iff.mp hempty]
    exact .some (s.after_nil).symm
  · apply Yields.check fun hsmooth => hsmooth.submit _
    intro _
    exact .some rfl

theorem offloadMappings_spec {mappings : List HostKVMapping}
    (hadmitted : ∀ mapping ∈ mappings, Admitted layout mapping) (ranges : List LayerRange)
    (s : OffloadState) :
    Yields env.Smooth
      (fun s' => s' = s.after device (ranges.flatMap (rangeCopies layout mappings)))
      (offloadMappings layout env ranges device mappings s) := by
  apply Yields.foldlM (I := fun visited s' =>
    s' = s.after device (visited.flatMap (rangeCopies layout mappings)))
  · intro visited range s' _ hs'
    rw [buildPlan_eq hadmitted, Option.bind_eq_bind, Option.bind_some]
    apply (copyPlan_spec _ s').imp
    intro s'' hs''
    rw [hs'', hs', ← OffloadState.after_append, flatMap_append, flatMap_singleton]
  · exact (s.after_nil).symm

theorem basicOffloadImpl_spec (hadmitted : ∀ mapping ∈ request.mappings, Admitted layout mapping)
    (ranges : List LayerRange) (s : OffloadState) :
    Yields env.Smooth
      (fun s' => s' = s.after device (ranges.flatMap (rangeCopies layout request.targetMappings) ++
        ranges.flatMap (rangeCopies layout request.draftMappings)))
      (basicOffloadImpl layout env ranges device request s) := by
  have htarget := @offloadMappings_spec layout device env request.targetMappings
    (fun mapping hmapping => hadmitted mapping (mem_append_left _ hmapping)) ranges s
  apply htarget.bind
  intro s₁ hs₁
  have hdraft := @offloadMappings_spec layout device env request.draftMappings
    (fun mapping hmapping => hadmitted mapping (mem_append_right _ hmapping)) ranges s₁
  apply hdraft.imp
  intro s₂ hs₂
  rw [hs₂, hs₁, ← OffloadState.after_append]

end

/-! ## Offloads -/

/-- The two offloads of a request, from the same host and whatever the slots hold. The basic one
returns when nothing fails, a run of the compact one can always go on to its end, and in the end
the host holds the same for the active layers and each expected copy has been made once. -/
def OffloadsAgree (layout : HostKVLayout) (layerCopyBatches : Nat)
    (executor : CompactOffloadExecutor) (request : HostKVRequest) : Prop :=
  ∀ (env : StreamEnv) (device : DeviceMemory) (host : HostMemory) (slots : Nat → OffloadSlot)
    (nextSlotIndex : Nat),
    let basic := hostOffload layout request
      (basicOffloadImpl layout env (layout.ranges layerCopyBatches) device request { host })
    (env.Smooth → basic.isSome) ∧
    (∀ s, Relation.ReflTransGen
        (OffloadStep executor device (executor.tiles request) nextSlotIndex) { host, slots } s →
      ∃ s', Relation.ReflTransGen
          (OffloadStep executor device (executor.tiles request) nextSlotIndex) s s' ∧
        s'.copiedTiles = (executor.tiles request).length) ∧
    ∀ s s', basic = some s →
      executor.Executes device nextSlotIndex request { host, slots } s' →
      (∀ slot : HostSlot, slot.Active layout → s'.host slot = s.host slot) ∧
      (copiesIn s.log).Perm (expectedCopies layout request.mappings) ∧
      (copiesIn s'.log).Perm (expectedCopies layout request.mappings)

section

variable {executor : CompactOffloadExecutor}
  (hinit : CompactOffloadExecutor.init layout targetBytes = some executor)
  (hadmitted : ∀ mapping ∈ request.mappings, Admitted layout mapping)

include hinit hadmitted

theorem tiles_copies_perm (hdestinations : (request.mappings.map (·.destination false)).Nodup) :
    ((executor.tiles request).flatMap (·.copies)).Perm
      (expectedCopies layout request.mappings) := by
  have htiles : ∀ tile ∈ executor.tiles request,
      tile.copies.Perm (expectedCopies layout tile.mappings) := by
    intro tile htile
    obtain ⟨htileOf, _⟩ := tile_of_mem hinit hadmitted hdestinations htile
    obtain ⟨sources, hsources⟩ := Option.isSome_iff_exists.mp
      (packSources_isSome (layout.checked _ htileOf.group) htileOf.state htileOf.rows)
    rw [OffloadTile.copies_of_sources hsources]
    exact htileOf.tileCopies_perm hsources
  refine (List.Perm.flatMap_left _ htiles).trans ?_
  unfold expectedCopies
  rw [← flatMap_assoc]
  exact (tiles_mappings_perm hinit hadmitted).flatMap_right _

theorem offloadsAgree (hrequest : layout.validRequest request false = true) :
    OffloadsAgree layout layerCopyBatches executor request := by
  intro env device host slots nextSlotIndex
  have hdestinations := (validRequest_spec hrequest).2
  have htiles := fun tile htile =>
    @tile_of_mem layout request targetBytes executor hinit hadmitted hdestinations tile htile
  have hcopies := tiles_copies_perm hinit hadmitted hdestinations
  have hbasic := @basicOffloadImpl_spec layout request device env hadmitted
    (layout.ranges layerCopyBatches) { host }
  have hranges : ((layout.ranges layerCopyBatches).flatMap
        (rangeCopies layout request.targetMappings) ++ (layout.ranges layerCopyBatches).flatMap
        (rangeCopies layout request.draftMappings)).Perm
      (expectedCopies layout request.mappings) := by
    have htarget := @rangeCopies_perm layout request.targetMappings
      (fun mapping hmapping => hadmitted mapping (mem_append_left _ hmapping)) layerCopyBatches
    have hdraft := @rangeCopies_perm layout request.draftMappings
      (fun mapping hmapping => hadmitted mapping (mem_append_right _ hmapping))
      layerCopyBatches
    have happend : expectedCopies layout request.mappings =
        expectedCopies layout request.targetMappings ++
          expectedCopies layout request.draftMappings := flatMap_append
    rw [happend]
    exact htarget.append hdraft
  have hstart := offloadInv_start layout device (executor.tiles request) nextSlotIndex
    { host, slots }
  unfold hostOffload
  rw [if_pos hrequest]
  refine ⟨?_, ?_, ?_⟩
  · intro hsmooth
    obtain ⟨s, hs⟩ := hbasic.returns hsmooth
    exact Option.isSome_iff_exists.mpr ⟨s, hs⟩
  · intro s hrun
    exact exists_run htiles (hstart.run (fun tile htile => (htiles tile htile).1) hrun)
  · intro s s' hs hexecutes
    obtain ⟨hrun, hdone⟩ := hexecutes
    have hinv := hstart.run (fun tile htile => (htiles tile htile).1) hrun
    have hpacked : s'.packedTiles = (executor.tiles request).length :=
      Nat.le_antisymm hinv.packed (hdone ▸ hinv.copied)
    have hhost := hinv.host
    have hlog := hinv.log
    rw [hdone, take_length] at hhost
    rw [hpacked, take_length] at hlog
    rw [hbasic.sound s hs]
    refine ⟨?_, ?_, ?_⟩
    · intro slot hactive
      -- no two copies write one slot, so their order does not matter
      have hnodup := expectedCopies_hostSlots hadmitted hdestinations
      have hsame := hcopies.trans hranges.symm
      rw [hhost slot hactive]
      exact congrFun (writes_perm hsame ((hcopies.map _).nodup_iff.mpr hnodup) _) slot
    · show (copiesIn (_ ++ List.map _ _)).Perm _
      rw [copiesIn_append, copiesIn_copied]
      exact hranges
    · rw [hlog]
      exact hcopies

end

/-! ## The transfers -/

theorem admitted_of_validRequest {isLoad : Bool}
    (hrequest : layout.validRequest request isLoad = true)
    (hrows : ∀ mapping ∈ request.mappings, ∀ layer ∈ (layout.group mapping.groupId).layers,
      (getDeviceTransferTensors layer mapping.checkpointRow).isSome) :
    ∀ mapping ∈ request.mappings, Admitted layout mapping := by
  intro mapping hmapping
  have hknown := (validRequest_spec hrequest).1 mapping hmapping
  exact ⟨layout.group_of_find hknown, hrows mapping hmapping⟩

/-- For every layout that both executors accept and every request whose rows the caches have: the
loads agree and are done if and only if there are no draft mappings and the mappings name the
first row wherever a cache has checkpoints. Draft mappings apart, only the row counts: the loads
then agree with the draft copies after the events of the ranges. Offloads always agree. -/
theorem compact_transfer_agrees_iff {loadTargetBytes offloadTargetBytes : Nat}
    {loadExecutor : CompactLoadExecutor} {offloadExecutor : CompactOffloadExecutor}
    (hload : CompactLoadExecutor.init layout layerCopyBatches loadTargetBytes = some loadExecutor)
    (hoffload : CompactOffloadExecutor.init layout offloadTargetBytes = some offloadExecutor)
    (hrows : ∀ mapping ∈ request.mappings, ∀ layer ∈ (layout.group mapping.groupId).layers,
      (getDeviceTransferTensors layer mapping.checkpointRow).isSome) :
    (∀ handle, layout.validRequest request true = true →
      validHandle (layout.ranges layerCopyBatches).length
        (getLayersPerEvent layout.numLayers layerCopyBatches) request handle = true →
      (LoadsAgree layout layerCopyBatches loadExecutor request handle
          (LoadDone layout layerCopyBatches request) ↔
        request.draftMappings = [] ∧
          ∀ mapping ∈ request.mappings, LoadsFirstRow layout mapping) ∧
      (LoadsAgree layout layerCopyBatches loadExecutor request handle
          (LoadInOrder layout layerCopyBatches request) ↔
        ∀ mapping ∈ request.mappings, LoadsFirstRow layout mapping)) ∧
    (layout.validRequest request false = true →
      OffloadsAgree layout layerCopyBatches offloadExecutor request) := by
  have hadmitted : ∀ {isLoad : Bool}, layout.validRequest request isLoad = true →
      ∀ mapping ∈ request.mappings, Admitted layout mapping :=
    fun hrequest => admitted_of_validRequest hrequest hrows
  constructor
  · intro handle hrequest hhandle
    exact ⟨loadsAgree_iff hload (hadmitted hrequest) hrequest hhandle,
      loadsAgree_inOrder_iff hload (hadmitted hrequest) hrequest hhandle⟩
  · intro hrequest
    exact offloadsAgree hoffload (hadmitted hrequest) hrequest

/-! ## A cache with checkpoints -/

/-- A cache of four blocks with four checkpoints each. -/
def checkpointCache : LinearAttentionKVCache :=
  { blockCount := 4, convHistoryRows := 6, convRowBytes := 2, checkpointStride := 4
    ssmRowBytes := 2 }

def checkpointLayer : HostKVLayerLayout :=
  { absoluteLayerId := 0
    groupLayerSlot := 0
    deviceRoles := (checkpointCache.getBlockTypeTensors 0).getD []
    deviceCache := some checkpointCache
    blockType := .linear }

def checkpointGroup : HostKVGroupLayout :=
  { groupId := 11
    hostRoles := [(.CONV, { blockCount := 4, layerSlots := 1, blockBytes := 6 }),
                  (.SSM, { blockCount := 4, layerSlots := 1, blockBytes := 2 })]
    layers := [checkpointLayer] }

theorem checkpointGroup_checked : GroupChecked 1 checkpointGroup := by
  refine ⟨by decide, by decide, by decide, by decide, by decide, by decide, by decide, by decide,
    ?_, ?_⟩
  · intro layer hlayer entry hentry
    cases mem_singleton.mp hlayer
    have hentry' : entry = (.CONV, { blockCount := 4, blockBytes := 6 }) ∨
        entry = (.SSM, { blockCount := 4, blockBytes := 2 }) := by
      simpa [checkpointLayer, checkpointCache, LinearAttentionKVCache.getBlockTypeTensors,
        kCommittedConvRows] using hentry
    cases hentry' with
    | inl heq => exact heq ▸ ⟨by decide, _, rfl, rfl, by decide⟩
    | inr heq => exact heq ▸ ⟨by decide, _, rfl, rfl, by decide⟩
  · intro layer hlayer cache hcache _
    cases mem_singleton.mp hlayer
    cases hcache
    rfl

def checkpointLayout : HostKVLayout :=
  { numLayers := 1
    groups := [checkpointGroup]
    numLayers_pos := Nat.one_pos
    groupIds := pairwise_singleton _ _
    checked := fun _ h => mem_singleton.mp h ▸ checkpointGroup_checked }

/-- Host block 2 is loaded into row 1 of block 0. -/
def checkpointRequest : HostKVRequest :=
  { targetMappings := [⟨11, 2, 0, 1⟩] }

theorem compact_transfer_agrees_iff_checkpoint :
    ∃ loadExecutor offloadExecutor,
      CompactLoadExecutor.init checkpointLayout 1 8 = some loadExecutor ∧
      CompactOffloadExecutor.init checkpointLayout 8 = some offloadExecutor ∧
      LoadsAgree checkpointLayout 1 loadExecutor
        { targetMappings := [⟨11, 2, 0, 0⟩, ⟨11, 1, 3, 0⟩] } ⟨some 1, 1⟩
        (LoadDone checkpointLayout 1 { targetMappings := [⟨11, 2, 0, 0⟩, ⟨11, 1, 3, 0⟩] }) ∧
      OffloadsAgree checkpointLayout 1 offloadExecutor
        { targetMappings := [⟨11, 2, 0, 0⟩, ⟨11, 1, 3, 0⟩] } := by
  have hagree := fun loadExecutor offloadExecutor hload hoffload =>
    @compact_transfer_agrees_iff checkpointLayout
      { targetMappings := [⟨11, 2, 0, 0⟩, ⟨11, 1, 3, 0⟩] } 1 8 8 loadExecutor offloadExecutor
      hload hoffload (by decide)
  have h := hagree _ _ rfl rfl
  refine ⟨_, _, rfl, rfl, (h.1 _ (by decide) (by decide)).1.mpr ⟨rfl, ?_⟩, h.2 (by decide)⟩
  have hrows : ∀ mapping ∈ HostKVRequest.mappings
      { targetMappings := [⟨11, 2, 0, 0⟩, ⟨11, 1, 3, 0⟩] }, mapping.checkpointRow = 0 := by decide
  exact fun mapping hmapping _ _ _ _ => hrows mapping hmapping

/-- The last byte of the rows that the mapping names stays as it was. -/
theorem compact_load_writes_first_row :
    ∃ executor, CompactLoadExecutor.init checkpointLayout 1 8 = some executor ∧
      checkpointLayout.validRequest checkpointRequest true = true ∧
      validHandle 1 1 checkpointRequest ⟨some 1, 1⟩ = true ∧
      (∀ mapping ∈ checkpointRequest.mappings,
        ∀ layer ∈ (checkpointLayout.group mapping.groupId).layers,
          (getDeviceTransferTensors layer mapping.checkpointRow).isSome) ∧
      ¬ LoadsAgree checkpointLayout 1 executor checkpointRequest ⟨some 1, 1⟩
        (LoadDone checkpointLayout 1 checkpointRequest) := by
  refine ⟨_, rfl, by decide, by decide, by decide, ?_⟩
  intro hagree
  have hdevice := ((hagree ⟨fun _ => true, fun _ => true, fun _ => true⟩ (fun _ _ => 1)
    (fun _ _ => 0) (fun _ => ⟨fun _ _ _ _ _ => 0, fun _ => 0, fun _ => 0⟩) 0).2 _ _ rfl rfl).1
  have hbyte := congrFun (congrFun hdevice ⟨11, 0, .CONV, 0⟩) 7
  exact absurd hbyte (by decide)

end Xllm.Framework
