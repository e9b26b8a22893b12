import Xllm.KvCacheTransfer.CompactLoad
import Xllm.KvCacheTransfer.HostCopies
import Xllm.Lib.Yields

/-!
# What a load does, either way

Both loads make some copies for each layer range and record its event, and then the copies of the
draft mappings and their event (`loadLog`); the device holds what the copies in the log make of
it. A chunk of the compact load comes to the copies of its mappings (`submitChunk_spec`): whatever
a staging slot held, a row that is scattered is the layer slot of the mapping's host block.
-/

namespace Xllm.Framework

open Xllm.Lib List

/-! ## Logs -/

/-- The copies of a log. -/
def copiesIn (log : List TransferEvent) : List TensorCopy :=
  log.filterMap fun event =>
    match event with
    | .copied copy => some copy
    | .recorded _ => none

@[simp] theorem copiesIn_append (log log' : List TransferEvent) :
    copiesIn (log ++ log') = copiesIn log ++ copiesIn log' := filterMap_append

@[simp] theorem copiesIn_copied (copies : List TensorCopy) :
    copiesIn (copies.map .copied) = copies := by
  unfold copiesIn
  rw [filterMap_map]
  exact filterMap_some

@[simp] theorem copiesIn_recorded (index : Nat) : copiesIn [.recorded index] = [] := rfl

/-- The state when some more has happened. -/
def LoadState.after (host : HostMemory) (s : LoadState) (events : List TransferEvent) : LoadState :=
  { device := writes TensorCopy.deviceCell (loadBytes host) (copiesIn events) s.device
    log := s.log ++ events }

section

variable {host : HostMemory}

theorem LoadState.after_nil (s : LoadState) : s.after host [] = s := by
  unfold LoadState.after
  rw [append_nil]
  rfl

theorem LoadState.after_append (s : LoadState) (events events' : List TransferEvent) :
    s.after host (events ++ events') = (s.after host events).after host events' := by
  unfold LoadState.after
  rw [copiesIn_append, writes_append, List.append_assoc]

/-- The copies of a range and its event. -/
def rangeEvents (copies : LayerRange → List TensorCopy) (entry : LayerRange × Nat) :
    List TransferEvent :=
  (copies entry.1).map .copied ++ [.recorded entry.2]

/-- What a load logs that makes these copies for some mappings in a range. -/
def loadLog (copies : List HostKVMapping → LayerRange → List TensorCopy) (ranges : List LayerRange)
    (request : HostKVRequest) : List TransferEvent :=
  ranges.zipIdx.flatMap (rangeEvents (copies request.targetMappings)) ++
    (ranges.flatMap (copies request.draftMappings)).map .copied ++
    if request.draftMappings = [] then [] else [.recorded ranges.length]

/-- Every answer is yes. -/
structure StreamEnv.Smooth (env : StreamEnv) : Prop where
  submit : ∀ log, env.submit log = true
  recordStream : ∀ log, env.recordStream log = true
  recordEvent : ∀ log, env.recordEvent log = true

variable {env : StreamEnv}

theorem recordStream_spec (index : Nat) (s : LoadState) :
    Yields env.Smooth (fun s' => s' = s.after host [.recorded index])
      (recordStream env index s) := by
  apply Yields.check fun hsmooth => hsmooth.recordStream _
  intro _
  exact .some rfl

theorem foldlM_after {σ α : Type} {ok : Prop} {load : σ → LoadState} {f : σ → α → Option σ}
    {events : α → List TransferEvent} {xs : List α} (step : ∀ x ∈ xs, ∀ s,
      Yields ok (fun s' => load s' = (load s).after host (events x)) (f s x)) (s : σ) :
    Yields ok (fun s' => load s' = (load s).after host (xs.flatMap events)) (xs.foldlM f s) := by
  apply Yields.foldlM (I := fun visited s' => load s' =
    (load s).after host (visited.flatMap events))
  · intro visited x s' hx hs'
    apply (step x hx s').imp
    intro s'' hs''
    rw [hs'', hs', ← LoadState.after_append, flatMap_append, flatMap_singleton]
  · exact ((load s).after_nil).symm

/-! ## The basic load -/

theorem submitPlan_spec (plan : List TensorCopy) (s : LoadState) :
    Yields env.Smooth (fun s' => s' = s.after host (plan.map .copied))
      (submitPlan env host plan s) := by
  unfold submitPlan
  split
  · next hempty =>
    rw [List.isEmpty_iff.mp hempty]
    exact .some (s.after_nil).symm
  · apply Yields.check fun hsmooth => hsmooth.submit _
    intro _
    apply Yields.some
    unfold LoadState.after
    rw [copiesIn_copied]

theorem basicLoadImpl_spec {layout : HostKVLayout} {request : HostKVRequest}
    (hadmitted : ∀ mapping ∈ request.mappings, Admitted layout mapping)
    (ranges : List LayerRange) (s : LoadState) :
    Yields env.Smooth
      (fun s' => s' = s.after host (loadLog (rangeCopies layout) ranges request))
      (basicLoadImpl layout env ranges host request s) := by
  have htarget := fun range => @buildPlan_eq layout request.targetMappings
    (fun mapping hmapping => hadmitted mapping (mem_append_left _ hmapping)) range
  have hdraft := fun range => @buildPlan_eq layout request.draftMappings
    (fun mapping hmapping => hadmitted mapping (mem_append_right _ hmapping)) range
  unfold basicLoadImpl loadLog
  have htargets := @foldlM_after host _ _ env.Smooth id (fun s entry => do
    let plan ← buildPlan layout request.targetMappings entry.1
    let s ← submitPlan env host plan s
    recordStream env entry.2 s) (rangeEvents (rangeCopies layout request.targetMappings))
    ranges.zipIdx (fun entry _ s => by
      rw [htarget, Option.bind_eq_bind, Option.bind_some]
      apply (submitPlan_spec _ s).bind
      intro s' hs'
      apply (recordStream_spec entry.2 s').imp
      intro s'' hs''
      rw [id, id, hs'', hs', ← LoadState.after_append]
      rfl) s
  apply htargets.bind
  intro s₁ hs₁
  have hdrafts := @foldlM_after host _ _ env.Smooth id (fun s range => do
    let plan ← buildPlan layout request.draftMappings range
    submitPlan env host plan s)
    (fun range => (rangeCopies layout request.draftMappings range).map .copied) ranges
    (fun range _ s => by
      rw [hdraft, Option.bind_eq_bind, Option.bind_some]
      exact submitPlan_spec _ s) s₁
  apply hdrafts.bind
  intro s₂ hs₂
  rw [map_flatMap]
  change s₁ = s.after host _ at hs₁
  change s₂ = s₁.after host _ at hs₂
  by_cases hempty : request.draftMappings = []
  · rw [if_pos hempty, if_pos hempty, append_nil]
    apply Yields.some
    rw [hs₂, hs₁, ← LoadState.after_append]
  · rw [if_neg hempty, if_neg hempty]
    apply (recordStream_spec _ s₂).imp
    intro s' hs'
    rw [hs', hs₂, hs₁, ← LoadState.after_append, ← LoadState.after_append, List.append_assoc]

/-! ## A chunk of the compact load -/

section

variable {group : HostKVGroupLayout} {layerRange : LayerRange} {range : RangeState}
  {mappings : List HostKVMapping}

theorem mem_activeRoles {layers : List HostKVLayerLayout} {role : KVCacheTensorRole} :
    role ∈ activeRoles layers ↔ ∃ layer ∈ layers, ∃ entry ∈ layer.deviceRoles, entry.1 = role := by
  unfold activeRoles
  rw [mem_insertionSort, mem_dedup, mem_flatMap]
  simp only [mem_map]

/-- The slots of a range are those of its layers, and its roles are theirs. -/
structure RangeCovers (layers : List HostKVLayerLayout) (range : RangeState) : Prop where
  slots : ∀ layer ∈ layers,
    range.slotBegin ≤ layer.groupLayerSlot ∧ layer.groupLayerSlot < range.slotEnd
  roles : ∀ layer ∈ layers, ∀ entry ∈ layer.deviceRoles, entry.1 ∈ range.activeRoles

theorem initRange_covers (h : initRange group layerRange = some range) :
    RangeCovers (group.layers.filter layerRange.contains) range := by
  unfold initRange at h
  split at h
  next hlayers =>
    rw [hlayers]
    exact ⟨nofun,
      nofun⟩
  next first rest hlayers =>
    rw [hlayers]
    dsimp only at h
    split at h
    next hcontiguous =>
      cases h
      refine ⟨fun layer hlayer => ?_, fun layer hlayer entry hentry => ?_⟩
      · have hslot : layer.groupLayerSlot ∈ (first :: rest).map (·.groupLayerSlot) :=
          mem_map_of_mem hlayer
        rw [hcontiguous.1, List.mem_range'_1] at hslot
        dsimp only
        omega
      · exact mem_activeRoles.mpr ⟨layer, hlayer, entry, hentry, rfl⟩
    · cases h

/-- The copies of a chunk, layer by layer and role by role. -/
def chunkCopies (group : HostKVGroupLayout) (layerRange : LayerRange)
    (mappings : List HostKVMapping) : List TensorCopy :=
  (group.layers.filter layerRange.contains).flatMap fun layer =>
    layer.deviceRoles.flatMap fun entry =>
      mappings.map fun mapping => tensorCopy mapping layer entry

theorem scatterRows_copies : (scatterRows group layerRange range mappings).map (·.copy) =
    chunkCopies group layerRange mappings := by
  unfold scatterRows chunkCopies
  rw [map_flatMap]
  congr 1
  funext layer
  rw [map_flatMap]
  congr 1
  funext entry
  have hfirst : (mappings.zipIdx.map fun indexed => tensorCopy indexed.1 layer entry) =
      (mappings.zipIdx.map Prod.fst).map fun mapping => tensorCopy mapping layer entry := by
    rw [map_map]
    rfl
  rw [map_map]
  refine Eq.trans hfirst ?_
  rw [zipIdx_map_fst]

theorem scatterRow_of_staged (hcovers : RangeCovers (group.layers.filter layerRange.contains) range)
    (hgroups : ∀ mapping ∈ mappings, mapping.groupId = group.groupId) (slot : LoadSlot)
    {row : ScatterRow} (hrow : row ∈ scatterRows group layerRange range mappings) :
    row.target ((slot.fillIndices mappings).enqueueH2d host group.groupId range mappings) =
        row.copy.deviceCell ∧
      row.bytes ((slot.fillIndices mappings).enqueueH2d host group.groupId range mappings)
        group.groupId = loadBytes host row.copy := by
  obtain ⟨layer, hlayer, hrow⟩ := mem_flatMap.mp hrow
  obtain ⟨entry, hentry, hrow⟩ := mem_flatMap.mp hrow
  obtain ⟨indexed, hindexed, rfl⟩ := mem_map.mp hrow
  have hmapping : mappings[indexed.2]? = some indexed.1 :=
    mem_zipIdx_iff_getElem?.mp hindexed
  obtain ⟨hlt, _⟩ := List.getElem?_eq_some_iff.mp hmapping
  obtain ⟨hbegin, hend⟩ := hcovers.slots layer hlayer
  have hgroup := hgroups indexed.1 (mem_of_getElem? hmapping)
  constructor
  · unfold ScatterRow.target LoadSlot.enqueueH2d LoadSlot.fillIndices tensorCopy
    dsimp only
    rw [if_pos hlt, hmapping]
    rfl
  · unfold ScatterRow.bytes LoadSlot.enqueueH2d loadBytes
    dsimp only
    rw [hmapping]
    dsimp only
    rw [if_pos ⟨rfl, hcovers.roles layer hlayer entry hentry, by omega⟩,
      Nat.add_sub_cancel' hbegin, ← hgroup]
    rfl

theorem submitChunk_spec {group : LoadGroupState}
    (hrange : initRange group.layout layerRange = some range)
    (hgroups : ∀ mapping ∈ mappings, mapping.groupId = group.layout.groupId)
    (s : CompactLoadState) :
    Yields env.Smooth (fun s' => s'.toLoadState = s.toLoadState.after host
        ((chunkCopies group.layout layerRange mappings).map .copied))
      (submitChunk env host group layerRange range s mappings) := by
  have hrows := fun row hrow => @scatterRow_of_staged host group.layout layerRange range mappings
    (initRange_covers hrange) hgroups (s.slots s.nextSlotIndex) row hrow
  unfold submitChunk
  dsimp only
  split
  next hsubmit => exact ⟨fun _ hs => (by cases hs), fun hok => absurd (hok.submit _) hsubmit⟩
  split
  next hevent => exact ⟨fun _ hs => (by cases hs), fun hok => absurd (hok.recordEvent _) hevent⟩
  apply Yields.some
  unfold LoadState.after
  rw [copiesIn_copied, ← @scatterRows_copies group.layout layerRange range mappings]
  refine congrArg₂ LoadState.mk (writes_map hrows s.device) (congrArg (s.log ++ ·) ?_)
  rw [map_map]
  apply map_congr_left
  intro row hrow
  rw [(hrows row hrow).1]
  rfl

end

end

end Xllm.Framework
