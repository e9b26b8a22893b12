import Xllm.KvCacheTransfer.CompactLoadRuns

/-!
# Two loads with the same copies

What follows from the log of a load (`loadLog`) and from the copies that it makes in each range:
every expected copy is made once (`loadLog_copies`), the event of a range comes after the copies
into its layers (`recordedAfter_loadLog`), and two loads with the same copies leave the same bytes
on the device (`loadLog_device`).
-/

namespace Xllm.Framework

open Xllm.Lib List

/-! ## The copies of a log -/

theorem copiesIn_flatMap {α : Type} (xs : List α) (events : α → List TransferEvent) :
    copiesIn (xs.flatMap events) = xs.flatMap fun x => copiesIn (events x) := by
  unfold copiesIn
  rw [filterMap_flatMap]

theorem copiesIn_loadLog (copies : List HostKVMapping → LayerRange → List TensorCopy)
    (ranges : List LayerRange) (request : HostKVRequest) :
    copiesIn (loadLog copies ranges request) =
      ranges.flatMap (copies request.targetMappings) ++
        ranges.flatMap (copies request.draftMappings) := by
  have hranges : (fun entry => copiesIn (rangeEvents (copies request.targetMappings) entry)) =
      fun entry : LayerRange × Nat => copies request.targetMappings entry.1 := by
    funext entry
    unfold rangeEvents
    rw [copiesIn_append, copiesIn_copied, copiesIn_recorded, append_nil]
  have hfirst : (ranges.zipIdx.flatMap fun entry => copies request.targetMappings entry.1) =
      (ranges.zipIdx.map Prod.fst).flatMap (copies request.targetMappings) := by
    rw [flatMap_map]
  unfold loadLog
  rw [copiesIn_append, copiesIn_append, copiesIn_flatMap, hranges, hfirst, zipIdx_map_fst,
    copiesIn_copied]
  split
  · exact append_nil _
  · exact append_nil _

variable {layout : HostKVLayout} {request : HostKVRequest} {layerCopyBatches : Nat}

/-- In each range the load makes the copies of the mappings, up to what `view` makes of them. -/
structure CopiesAs (layout : HostKVLayout) (request : HostKVRequest)
    (view : HostKVMapping → HostKVMapping)
    (copies : List HostKVMapping → LayerRange → List TensorCopy) : Prop where
  admitted : ∀ mapping ∈ request.mappings, Admitted layout (view mapping)
  target : ∀ range, (copies request.targetMappings range).Perm
    (rangeCopies layout (request.targetMappings.map view) range)
  draft : ∀ range, (copies request.draftMappings range).Perm
    (rangeCopies layout (request.draftMappings.map view) range)

section

variable {view : HostKVMapping → HostKVMapping}
  {copies : List HostKVMapping → LayerRange → List TensorCopy}

theorem flatMap_copies_perm {mappings : List HostKVMapping}
    (hadmitted : ∀ mapping ∈ mappings, Admitted layout (view mapping))
    (hcopies : ∀ range, (copies mappings range).Perm
      (rangeCopies layout (mappings.map view) range)) :
    ((layout.ranges layerCopyBatches).flatMap (copies mappings)).Perm
      (expectedCopies layout (mappings.map view)) := by
  refine (List.Perm.flatMap_left _ fun range _ => hcopies range).trans ?_
  apply rangeCopies_perm
  intro mapping hmapping
  obtain ⟨original, horiginal, rfl⟩ := mem_map.mp hmapping
  exact hadmitted original horiginal

theorem loadLog_copies (h : CopiesAs layout request view copies) :
    (copiesIn (loadLog copies (layout.ranges layerCopyBatches) request)).Perm
      (expectedCopies layout (request.mappings.map view)) := by
  have htarget := @flatMap_copies_perm layout layerCopyBatches view copies request.targetMappings
    (fun mapping hmapping => h.admitted mapping (mem_append_left _ hmapping)) h.target
  have hdraft := @flatMap_copies_perm layout layerCopyBatches view copies request.draftMappings
    (fun mapping hmapping => h.admitted mapping (mem_append_right _ hmapping)) h.draft
  rw [copiesIn_loadLog]
  unfold expectedCopies at htarget hdraft ⊢
  rw [map_append, flatMap_append]
  exact htarget.append hdraft

section

variable (h : CopiesAs layout request view copies)
  (hdestinations : (request.mappings.map (·.destination true)).Nodup)
  (hview : ∀ mapping, (view mapping).destination true = mapping.destination true)

include h hdestinations hview

theorem expectedCopies_view_nodup :
    ((expectedCopies layout (request.mappings.map view)).map (·.deviceCell)).Nodup := by
  apply expectedCopies_deviceCells
  · intro mapping hmapping
    obtain ⟨original, horiginal, rfl⟩ := mem_map.mp hmapping
    exact h.admitted original horiginal
  · have hsame : (·.destination true) ∘ view = (·.destination true) := funext hview
    rw [map_map, hsame]
    exact hdestinations

theorem loadLog_device (host : HostMemory) (s : LoadState) :
    (s.after host (loadLog copies (layout.ranges layerCopyBatches) request)).device =
      writes TensorCopy.deviceCell (loadBytes host)
        (expectedCopies layout (request.mappings.map view)) s.device := by
  have hnodup := expectedCopies_view_nodup h hdestinations hview
  have hperm := @loadLog_copies layout request layerCopyBatches view copies h
  exact (writes_perm hperm.symm hnodup s.device).symm

theorem loadLog_cell (host : HostMemory) (s : LoadState) {copy : TensorCopy}
    (hcopy : copy ∈ expectedCopies layout (request.mappings.map view)) :
    (s.after host (loadLog copies (layout.ranges layerCopyBatches) request)).device
      copy.deviceCell = loadBytes host copy (s.device copy.deviceCell) := by
  have hnodup := expectedCopies_view_nodup h hdestinations hview
  rw [loadLog_device h hdestinations hview]
  exact writes_of_mem hnodup hcopy s.device

end

end

/-! ## The order of copies and events -/

def TensorCopy.into (copy : TensorCopy) (range : LayerRange) : Prop :=
  range.beginLayer ≤ copy.deviceCell.absoluteLayerId ∧
    copy.deviceCell.absoluteLayerId < range.endLayer

/-- The copy loads a block of one of the mappings. -/
def TensorCopy.loads (copy : TensorCopy) (mappings : List HostKVMapping) : Prop :=
  (copy.deviceCell.groupId, copy.deviceCell.deviceBlockId) ∈ mappings.map (·.destination true)

/-- The event is recorded, and no copy of the kind comes after it. -/
structure RecordedAfter (log : List TransferEvent) (index : Nat) (kind : TensorCopy → Prop) :
    Prop where
  recorded : .recorded index ∈ log
  order : log.Pairwise fun event later =>
    event = .recorded index → ∀ copy, later = .copied copy → ¬ kind copy

theorem mem_rangeCopies {mappings : List HostKVMapping} {range : LayerRange} {copy : TensorCopy}
    (h : copy ∈ rangeCopies layout mappings range) : copy.into range ∧ copy.loads mappings := by
  obtain ⟨mapping, hmapping, h⟩ := mem_flatMap.mp h
  obtain ⟨layer, hlayer, h⟩ := mem_flatMap.mp h
  obtain ⟨entry, _, rfl⟩ := mem_map.mp h
  have hcontains := (mem_filter.mp hlayer).2
  unfold LayerRange.contains at hcontains
  rw [decide_eq_true_eq] at hcontains
  exact ⟨hcontains, mem_map.mpr ⟨mapping, hmapping, rfl⟩⟩

theorem ranges_pairwise (layout : HostKVLayout) (layerCopyBatches : Nat) :
    (layout.ranges layerCopyBatches).Pairwise fun range later =>
      range.endLayer ≤ later.beginLayer := by
  unfold HostKVLayout.ranges buildLayerRanges
  rw [pairwise_map]
  apply pairwise_lt_range.imp
  intro i j hij
  have hle := Nat.mul_le_mul_right (getLayersPerEvent layout.numLayers layerCopyBatches) hij
  rw [Nat.succ_mul] at hle
  exact Nat.le_trans (Nat.min_le_left _ _) hle

section

variable {copies : List HostKVMapping → LayerRange → List TensorCopy} {ranges : List LayerRange}

variable {mappings : List HostKVMapping} {entry : LayerRange × Nat} {index : Nat}

theorem mem_rangeEvents_recorded (h : .recorded index ∈ rangeEvents (copies mappings) entry) :
    index = entry.2 := by
  cases mem_append.mp h with
  | inl h =>
    obtain ⟨copy, _, heq⟩ := mem_map.mp h
    cases heq
  | inr h =>
    have heq := mem_singleton.mp h
    cases heq
    rfl

variable {copy : TensorCopy}

theorem mem_rangeEvents_copied (h : .copied copy ∈ rangeEvents (copies mappings) entry) :
    copy ∈ copies mappings entry.1 := by
  cases mem_append.mp h with
  | inl h =>
    obtain ⟨copy', hcopy', heq⟩ := mem_map.mp h
    cases heq
    exact hcopy'
  | inr h => cases mem_singleton.mp h

theorem not_mem_copied_recorded {cs : List TensorCopy} :
    TransferEvent.recorded index ∉ cs.map TransferEvent.copied := by
  intro h
  obtain ⟨copy, _, heq⟩ := mem_map.mp h
  cases heq

variable {i : Nat} {range : LayerRange} {kind : TensorCopy → Prop}

/-- The event of a range comes after the copies of a kind into its layers, when the draft mappings
have no such copy. -/
theorem recordedAfter_loadLog
    (hranges : ranges.Pairwise fun range later => range.endLayer ≤ later.beginLayer)
    (hinto : ∀ range, ∀ copy ∈ copies request.targetMappings range, copy.into range)
    (hi : ranges[i]? = some range) (hkind : ∀ copy, kind copy → copy.into range)
    (hdraft : ∀ copy ∈ ranges.flatMap (copies request.draftMappings), ¬ kind copy) :
    RecordedAfter (loadLog copies ranges request) i kind := by
  have hentry : (range, i) ∈ ranges.zipIdx := mem_zipIdx_iff_getElem?.mpr hi
  constructor
  · unfold loadLog
    rw [List.append_assoc]
    apply mem_append_left
    apply mem_flatMap.mpr
    exact ⟨_, hentry, mem_append_right _ mem_cons_self⟩
  · unfold loadLog
    rw [List.append_assoc]
    apply pairwise_append.mpr
    refine ⟨?_, ?_, ?_⟩
    · apply pairwise_flatMap.mpr
      constructor
      · -- a range's event is the last of its events
        intro entry _
        apply pairwise_append.mpr
        refine ⟨?_, pairwise_singleton _ _, ?_⟩
        · apply pairwise_of_forall_mem_list
          intro event hevent later _ heq
          rw [heq] at hevent
          exact absurd hevent not_mem_copied_recorded
        · intro event hevent later _ heq
          rw [heq] at hevent
          exact absurd hevent not_mem_copied_recorded
      · -- later ranges have other layers
        have hzip : ranges.zipIdx.Pairwise fun entry later =>
            entry.1.endLayer ≤ later.1.beginLayer := by
          rw [← zipIdx_map_fst 0 ranges, pairwise_map] at hranges
          exact hranges
        apply hzip.imp_of_mem
        intro entry later hmem _ hle event hevent event' hevent' heq copy heq' hcopy
        rw [heq] at hevent
        rw [heq'] at hevent'
        have hsame := mem_zipIdx_iff_getElem?.mp hmem
        rw [← mem_rangeEvents_recorded hevent, hi] at hsame
        have hin := hkind copy hcopy
        have hin' := hinto later.1 copy (mem_rangeEvents_copied hevent')
        rw [Option.some.inj hsame] at hin
        have hlt := Nat.lt_of_lt_of_le hin.2 (Nat.le_trans hle hin'.1)
        exact Nat.lt_irrefl _ hlt
    · apply pairwise_append.mpr
      refine ⟨?_, ?_, ?_⟩
      · apply pairwise_of_forall_mem_list
        intro event hevent later _ heq
        rw [heq] at hevent
        exact absurd hevent not_mem_copied_recorded
      · split
        · exact List.Pairwise.nil
        · exact pairwise_singleton _ _
      · intro event hevent later _ heq
        rw [heq] at hevent
        exact absurd hevent not_mem_copied_recorded
    · intro event _ later hlater _ copy heq
      rw [heq] at hlater
      cases mem_append.mp hlater with
      | inl hlater =>
        obtain ⟨copy', hcopy', hsame⟩ := mem_map.mp hlater
        cases hsame
        exact hdraft copy hcopy'
      | inr hlater =>
        split at hlater
        · cases hlater
        · cases mem_singleton.mp hlater

/-- The draft event comes after all copies. -/
theorem draftRecordedAfter_loadLog (hdraft : request.draftMappings ≠ []) :
    RecordedAfter (loadLog copies ranges request) ranges.length fun _ => True := by
  unfold loadLog
  rw [if_neg hdraft]
  constructor
  · exact mem_append_right _ mem_cons_self
  · have hbefore : .recorded ranges.length ∉
        ranges.zipIdx.flatMap (rangeEvents (copies request.targetMappings)) ++
          (ranges.flatMap (copies request.draftMappings)).map .copied := by
      intro hmem
      cases mem_append.mp hmem with
      | inl hmem =>
        obtain ⟨entry, hentry, hmem⟩ := mem_flatMap.mp hmem
        have hlt := snd_lt_of_mem_zipIdx hentry
        rw [← mem_rangeEvents_recorded hmem] at hlt
        exact absurd hlt (by simp)
      | inr hmem => exact not_mem_copied_recorded hmem
    apply pairwise_append.mpr
    refine ⟨?_, pairwise_singleton _ _, ?_⟩
    · apply pairwise_of_forall_mem_list
      intro event hevent later _ heq
      rw [heq] at hevent
      exact absurd hevent hbefore
    · intro event hevent later _ heq
      rw [heq] at hevent
      exact absurd hevent hbefore

/-- A copy of a draft mapping comes after the events of all ranges. -/
theorem not_recordedAfter_loadLog (hi : ranges[i]? = some range)
    (hcopy : copy ∈ ranges.flatMap (copies request.draftMappings)) (hkind : kind copy) :
    ¬ RecordedAfter (loadLog copies ranges request) i kind := by
  intro h
  have horder := h.order
  unfold loadLog at horder
  rw [List.append_assoc] at horder
  have hacross := (pairwise_append.mp horder).2.2
  refine hacross (.recorded i) ?_ (.copied copy) ?_ rfl copy rfl hkind
  · apply mem_flatMap.mpr
    exact ⟨(range, i), mem_zipIdx_iff_getElem?.mpr hi,
      mem_append_right _ mem_cons_self⟩
  · exact mem_append_left _ (mem_map_of_mem hcopy)

end

end Xllm.Framework
