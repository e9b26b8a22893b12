import Xllm.KvCacheTransfer.XTensorPush

/-!
# The offsets that a destination has gathered

The ids of a destination are the pairs that the rank takes of its requests (`takenPairs`), the
offsets are those of all blocks of the requests that name offsets for the layer (`listedBlocks`),
and there are offsets for as many layers as the first of these requests has
(`mergeKvBlocks_gathers`).
-/

namespace Xllm.Framework

open List

/-! ## Merging offsets -/

def layerK (layerOffsets : List XTensorLayerOffsets) (layer : Nat) : List Nat :=
  (layerOffsets[layer]?.map (·.kOffsets)).getD []

def layerV (layerOffsets : List XTensorLayerOffsets) (layer : Nat) : List Nat :=
  (layerOffsets[layer]?.map (·.vOffsets)).getD []

theorem appendLayerOffsets_getElem? (targets sources : List XTensorLayerOffsets) (layer : Nat) :
    (appendLayerOffsets targets sources)[layer]? = targets[layer]?.map fun target =>
      { kOffsets := target.kOffsets ++ layerK sources layer
        vOffsets := target.vOffsets ++ layerV sources layer } := by
  unfold layerK layerV
  induction targets generalizing sources layer with
  | nil =>
    cases sources with
    | nil => rfl
    | cons source sources => rfl
  | cons target targets ih =>
    cases sources with
    | nil => simp [appendLayerOffsets]
    | cons source sources =>
      cases layer with
      | zero => rfl
      | succ layer =>
        exact ih sources layer

variable {merged : List XTensorLayerOffsets}

theorem mergeXtensorOffsets_getElem? (hmerged : merged ≠ [])
    (layerOffsets : List XTensorLayerOffsets) (layer : Nat) :
    (mergeXtensorOffsets merged layerOffsets)[layer]? = merged[layer]?.map fun target =>
      { kOffsets := target.kOffsets ++ layerK layerOffsets layer
        vOffsets := target.vOffsets ++ layerV layerOffsets layer } := by
  unfold mergeXtensorOffsets
  by_cases hempty : layerOffsets = []
  · rw [if_pos hempty, hempty]
    simp [layerK, layerV]
  · rw [if_neg hempty, if_neg hmerged]
    exact appendLayerOffsets_getElem? merged layerOffsets layer

theorem mergeXtensorOffsets_ne_nil (hmerged : merged ≠ [])
    (layerOffsets : List XTensorLayerOffsets) : mergeXtensorOffsets merged layerOffsets ≠ [] := by
  intro hnil
  have hfirst := mergeXtensorOffsets_getElem? hmerged layerOffsets 0
  cases merged with
  | nil => exact hmerged rfl
  | cons target targets =>
    rw [hnil] at hfirst
    cases hfirst

theorem foldl_mergeXtensorOffsets_getElem?
    (hmerged : merged ≠ []) (offsets : List (List XTensorLayerOffsets)) (layer : Nat) :
    (offsets.foldl mergeXtensorOffsets merged)[layer]? = merged[layer]?.map fun target =>
      { kOffsets := target.kOffsets ++ offsets.flatMap (layerK · layer)
        vOffsets := target.vOffsets ++ offsets.flatMap (layerV · layer) } := by
  induction offsets generalizing merged with
  | nil => simp
  | cons layerOffsets offsets ih =>
    rw [foldl_cons, ih (mergeXtensorOffsets_ne_nil hmerged layerOffsets),
      mergeXtensorOffsets_getElem? hmerged, Option.map_map]
    congr 1
    funext target
    simp [List.append_assoc]

/-- How many layers the first request with offsets has. -/
def layerCount (offsets : List (List XTensorLayerOffsets)) : Nat :=
  ((offsets.find? (· ≠ [])).getD []).length

theorem mergedOffsets_getElem? (offsets : List (List XTensorLayerOffsets)) (layer : Nat) :
    (offsets.foldl mergeXtensorOffsets [])[layer]? =
      if layer < layerCount offsets then
        some { kOffsets := offsets.flatMap (layerK · layer)
               vOffsets := offsets.flatMap (layerV · layer) }
      else none := by
  unfold layerCount
  induction offsets with
  | nil => rfl
  | cons layerOffsets offsets ih =>
    rw [foldl_cons]
    by_cases hempty : layerOffsets = []
    · have hmerge : mergeXtensorOffsets [] layerOffsets = [] := if_pos hempty
      rw [hmerge, ih, hempty, List.find?_cons_of_neg (by simp)]
      simp [layerK, layerV]
    · have hmerge : mergeXtensorOffsets [] layerOffsets = layerOffsets := by
        unfold mergeXtensorOffsets
        rw [if_neg hempty, if_pos rfl]
      rw [hmerge, foldl_mergeXtensorOffsets_getElem? hempty,
        List.find?_cons_of_pos (by simpa using hempty)]
      by_cases hlayer : layer < layerOffsets.length
      · simp [layerK, layerV, hlayer]
      · simp [hlayer]

/-! ## What arrives at a destination -/

section

variable (kvSplitRank kvSplitSize : Nat) (infos : List TransferKVInfo)

/-- The requests that the filter keeps, as they came. -/
def keptInfos : List TransferKVInfo :=
  infos.filter fun info => kvSplitSize ≤ 1 || keepsPart (rankPart kvSplitRank kvSplitSize info)

/-- The requests that are merged for a destination, one after the other. -/
def arrivingAt (key : String) : List TransferKVInfo :=
  ((arrivals (keptInfos kvSplitRank kvSplitSize infos)).filter (arrivalKey · = key)).map Prod.fst

/-- The remote blocks of a request. -/
def kvRemoteIds (info : TransferKVInfo) : List Nat :=
  ((info.mappings.find? (·.groupId = kvCacheGroupId)).map (·.remoteIds)).getD []

/-- The pairs that the rank writes at a destination. -/
def takenPairs (key : String) : List (Nat × Nat) :=
  (arrivingAt kvSplitRank kvSplitSize infos key).flatMap fun info =>
    rankPairs kvSplitRank kvSplitSize info kvCacheGroupId

/-- The remote blocks of these. -/
def takenBlocks (key : String) : List Nat :=
  (takenPairs kvSplitRank kvSplitSize infos key).map Prod.snd

/-- The remote blocks whose offsets are gathered for a destination in a layer. -/
def listedBlocks (key : String) (layer : Nat) : List Nat :=
  (arrivingAt kvSplitRank kvSplitSize infos key).flatMap fun info =>
    if layer < info.dstXtensorLayerOffsets.length then kvRemoteIds info else []

/-- How many layers have offsets at a destination. -/
def listedLayers (key : String) : Nat :=
  layerCount ((arrivingAt kvSplitRank kvSplitSize infos key).map (·.dstXtensorLayerOffsets))

end

/-- The offsets of the blocks of a destination: no two blocks have an offset in common. -/
structure BlockOffsets where
  k : String → Nat → Nat → Nat
  v : String → Nat → Nat → Nat
  k_injective : ∀ key layer, Function.Injective (k key layer)
  v_injective : ∀ key layer, Function.Injective (v key layer)

/-- The offsets of a request, where present, are those of its remote blocks in order. -/
def OffsetsListed (offsets : BlockOffsets) (infos : List TransferKVInfo) : Prop :=
  ∀ info ∈ infos, ∀ dstRank ∈ destinationRanks info, ∀ layer layerOffsets,
    info.dstXtensorLayerOffsets[layer]? = some layerOffsets →
    layerOffsets.kOffsets = (kvRemoteIds info).map (offsets.k (arrivalKey (info, dstRank)) layer) ∧
    layerOffsets.vOffsets = (kvRemoteIds info).map (offsets.v (arrivalKey (info, dstRank)) layer)

variable {kvSplitRank kvSplitSize : Nat} {infos : List TransferKVInfo}

variable {info : TransferKVInfo} {dstRank : Nat}

theorem mem_arrivals :
    (info, dstRank) ∈ arrivals infos ↔ info ∈ infos ∧ dstRank ∈ destinationRanks info := by
  unfold arrivals
  simp

theorem arrivals_rankParts :
    arrivals (rankParts kvSplitRank kvSplitSize infos) =
      (arrivals (keptInfos kvSplitRank kvSplitSize infos)).map fun arrival =>
        (rankPart kvSplitRank kvSplitSize arrival.1, arrival.2) := by
  have hparts : rankParts kvSplitRank kvSplitSize infos =
      (keptInfos kvSplitRank kvSplitSize infos).map (rankPart kvSplitRank kvSplitSize) := by
    unfold rankParts keptInfos
    rw [filter_map]
    rfl
  unfold arrivals
  rw [hparts, flatMap_map, map_flatMap]
  congr 1
  funext info
  rw [destinationRanks_rankPart, map_map]
  rfl

theorem arrivalKey_rankPart (arrival : TransferKVInfo × Nat) :
    arrivalKey (rankPart kvSplitRank kvSplitSize arrival.1, arrival.2) = arrivalKey arrival := by
  unfold arrivalKey
  rw [destinationOf_rankPart]

theorem flatMap_arrivals {β : Type} (key : String) (f : TransferKVInfo → List β) :
    ((arrivals (rankParts kvSplitRank kvSplitSize infos)).flatMap fun arrival =>
      if arrivalKey arrival = key then f arrival.1 else []) =
    (arrivingAt kvSplitRank kvSplitSize infos key).flatMap fun info =>
      f (rankPart kvSplitRank kvSplitSize info) := by
  unfold arrivingAt
  rw [arrivals_rankParts, flatMap_map, flatMap_map]
  induction arrivals (keptInfos kvSplitRank kvSplitSize infos) with
  | nil => rfl
  | cons arrival rest ih =>
    rw [flatMap_cons, ih, arrivalKey_rankPart]
    by_cases hkey : arrivalKey arrival = key
    · rw [if_pos hkey, filter_cons_of_pos (by simpa using hkey), flatMap_cons]
    · rw [if_neg hkey, filter_cons_of_neg (by simpa using hkey), nil_append]

/-- By induction on the arrivals to come, for any that were merged before. -/
theorem mergeKvBlocks_offsets {parts : List TransferKVInfo}
    (haligned : ∀ info ∈ parts, Aligned info.mappings) :
    ∀ entry ∈ mergeKvBlocks parts, entry.2.dstXtensorLayerOffsets =
      (((arrivals parts).filter (arrivalKey · = entry.1)).map
        (·.1.dstXtensorLayerOffsets)).foldl mergeXtensorOffsets [] := by
  have hfrom : ∀ (todo done : List (TransferKVInfo × Nat)) (merged : MergedKvInfos),
      (∀ arrival ∈ todo, Aligned arrival.1.mappings) → MergeSpec done merged →
      (∀ entry ∈ merged, entry.2.dstXtensorLayerOffsets =
        ((done.filter (arrivalKey · = entry.1)).map (·.1.dstXtensorLayerOffsets)).foldl
          mergeXtensorOffsets []) →
      ∀ entry ∈ todo.foldl (fun merged arrival => mergeKvInfo merged arrival.1 arrival.2) merged,
        entry.2.dstXtensorLayerOffsets =
          (((done ++ todo).filter (arrivalKey · = entry.1)).map
            (·.1.dstXtensorLayerOffsets)).foldl mergeXtensorOffsets [] := by
    intro todo
    induction todo with
    | nil =>
      intro done merged _ _ h
      rw [append_nil]
      exact h
    | cons arrival todo ih =>
      intro done merged hsizes hspec h
      have hstep := mergeKvInfo_spec hspec arrival (hsizes arrival mem_cons_self)
      rw [append_cons]
      refine ih (done ++ [arrival]) _ (fun a ha => hsizes a (mem_cons_of_mem _ ha)) hstep ?_
      intro entry hentry
      rw [filter_append]
      obtain ⟨hold, hne⟩ | ⟨kvInfo, hold, rfl⟩ | ⟨hnew, rfl⟩ := mem_mergeInto hspec.keys hentry
      · have hother : [arrival].filter (arrivalKey · = entry.1) = [] :=
          filter_cons_of_neg (by simpa using fun heq => hne heq.symm)
        rw [hother, append_nil]
        exact h entry hold
      · have hself : [arrival].filter (arrivalKey · = arrivalKey arrival) = [arrival] := by simp
        show mergeXtensorOffsets kvInfo.dstXtensorLayerOffsets _ = _
        rw [h _ hold]
        show _ = ((List.filter _ done ++ [arrival].filter (arrivalKey · = arrivalKey arrival)).map
          _).foldl mergeXtensorOffsets []
        rw [hself, map_append, foldl_append]
        rfl
      · have hself : [arrival].filter (arrivalKey · = arrivalKey arrival) = [arrival] := by simp
        have hnone : done.filter (arrivalKey · = arrivalKey arrival) = [] := by
          rw [filter_eq_nil_iff]
          intro arrival' hdone hkey
          have harrived := hspec.arrived arrival' hdone
          rw [of_decide_eq_true hkey] at harrived
          exact hnew harrived
        show mergeXtensorOffsets [] _ = ((done.filter (arrivalKey · = arrivalKey arrival) ++
          [arrival].filter (arrivalKey · = arrivalKey arrival)).map _).foldl mergeXtensorOffsets []
        rw [hself, hnone]
        rfl
  rw [mergeKvBlocks_eq]
  refine hfrom (arrivals parts) [] [] ?_ ⟨nodup_nil, nofun,
    nofun⟩ nofun
  intro arrival hmem
  obtain ⟨hinfo, _⟩ := mem_arrivals.mp hmem
  exact haligned arrival.1 hinfo

/-! ## The entry of a destination -/

theorem groupPairs_of_find? {mappings : List KVTransferMapping} (h : Aligned mappings)
    {mapping : KVTransferMapping} {groupId : Int}
    (hfind : mappings.find? (·.groupId = groupId) = some mapping) :
    groupPairs mappings groupId = mapping.localIds.zip mapping.remoteIds := by
  have hgroup : mapping.groupId = groupId := by simpa using List.find?_some hfind
  obtain ⟨before, after, rfl, hbefore⟩ := List.find?_eq_some_iff_append.mp hfind |>.2
  have hgroups := h.groups
  rw [map_append, map_cons, nodup_append, nodup_cons] at hgroups
  have hfront : groupPairs before groupId = [] := by
    apply groupPairs_eq_nil
    intro hmem
    obtain ⟨mapping', hmapping', heq⟩ := mem_map.mp hmem
    exact absurd heq (by simpa using hbefore mapping' hmapping')
  have hback : groupPairs after groupId = [] := by
    apply groupPairs_eq_nil
    rw [← hgroup]
    exact hgroups.2.1.1
  have happend : groupPairs (before ++ mapping :: after) groupId =
      groupPairs before groupId ++ groupPairs (mapping :: after) groupId := by
    unfold groupPairs
    rw [flatMap_append]
  rw [happend, hfront, groupPairs_cons, hback, if_pos hgroup, append_nil, nil_append]

/-- What the entry of a destination holds: the blocks that are taken, and the offsets of those that
are listed. -/
structure EntryGathers (kvSplitRank kvSplitSize : Nat) (infos : List TransferKVInfo)
    (offsets : BlockOffsets) (key : String) (kvInfo : KVCacheInfo) : Prop where
  aligned : Aligned kvInfo.mappings
  missing : kvInfo.mappings.find? (·.groupId = kvCacheGroupId) = none →
    takenPairs kvSplitRank kvSplitSize infos key = []
  taken : ∀ mapping, kvInfo.mappings.find? (·.groupId = kvCacheGroupId) = some mapping →
    mapping.localIds.length = mapping.remoteIds.length ∧
    mapping.localIds.zip mapping.remoteIds = takenPairs kvSplitRank kvSplitSize infos key
  listed : ∀ layer, kvInfo.dstXtensorLayerOffsets[layer]? =
    if layer < listedLayers kvSplitRank kvSplitSize infos key then
      some { kOffsets := (listedBlocks kvSplitRank kvSplitSize infos key layer).map
                (offsets.k key layer)
             vOffsets := (listedBlocks kvSplitRank kvSplitSize infos key layer).map
                (offsets.v key layer) }
    else none

theorem rankPart_dstXtensorLayerOffsets (info : TransferKVInfo) :
    (rankPart kvSplitRank kvSplitSize info).dstXtensorLayerOffsets =
      info.dstXtensorLayerOffsets := by
  unfold rankPart
  split
  · rfl
  · rfl

variable {offsets : BlockOffsets}

theorem layer_of_listed (hlisted : OffsetsListed offsets infos)
    (hinfo : info ∈ infos)
    (hdst : dstRank ∈ destinationRanks info) (layer : Nat) :
    layerK info.dstXtensorLayerOffsets layer =
      (if layer < info.dstXtensorLayerOffsets.length then kvRemoteIds info else []).map
        (offsets.k (arrivalKey (info, dstRank)) layer) ∧
    layerV info.dstXtensorLayerOffsets layer =
      (if layer < info.dstXtensorLayerOffsets.length then kvRemoteIds info else []).map
        (offsets.v (arrivalKey (info, dstRank)) layer) := by
  unfold layerK layerV
  by_cases hlayer : layer < info.dstXtensorLayerOffsets.length
  · have hsome := List.getElem?_eq_getElem hlayer
    obtain ⟨hk, hv⟩ := hlisted info hinfo dstRank hdst layer _ hsome
    rw [hsome, if_pos hlayer]
    exact ⟨hk, hv⟩
  · rw [List.getElem?_eq_none (by omega), if_neg hlayer]
    exact ⟨rfl, rfl⟩

/-- The pairs and the offsets of an entry are those of the infos that arrive under its key, in
order. -/
theorem mergeKvBlocks_gathers (hr : kvSplitRank < kvSplitSize)
    (hvalid : validateTransferMappings infos kvSplitSize = true)
    (hlisted : OffsetsListed offsets infos) :
    ∀ entry ∈ mergeKvBlocks (rankParts kvSplitRank kvSplitSize infos),
      EntryGathers kvSplitRank kvSplitSize infos offsets entry.1 entry.2 := by
  intro entry hentry
  have haligned := @rankParts_aligned infos kvSplitRank kvSplitSize hvalid
  have hspec := (mergeKvBlocks_spec haligned).entries entry hentry
  have hpairs : groupPairs entry.2.mappings kvCacheGroupId =
      takenPairs kvSplitRank kvSplitSize infos entry.1 := by
    rw [hspec.pairs, flatMap_arrivals entry.1 fun info => groupPairs info.mappings kvCacheGroupId]
    congr 1
    funext info
    rw [rankPart_pairs hr]
  refine ⟨hspec.aligned, fun hnone => ?_, fun mapping hsome => ?_, fun layer => ?_⟩
  · rw [← hpairs, groupPairs_eq_nil]
    intro hmem
    obtain ⟨mapping, hmapping, heq⟩ := mem_map.mp hmem
    exact absurd heq (by simpa using List.find?_eq_none.mp hnone mapping hmapping)
  · have hsizes := hspec.aligned.sizes mapping (List.mem_of_find?_eq_some hsome)
    refine ⟨hsizes, ?_⟩
    rw [← hpairs, groupPairs_of_find? hspec.aligned hsome]
  · have hoffsets : ((arrivals (rankParts kvSplitRank kvSplitSize infos)).filter
        (arrivalKey · = entry.1)).map (·.1.dstXtensorLayerOffsets) =
          (arrivingAt kvSplitRank kvSplitSize infos entry.1).map (·.dstXtensorLayerOffsets) := by
      unfold arrivingAt
      rw [arrivals_rankParts, filter_map, map_map, map_map]
      congr 1
      · funext arrival
        exact rankPart_dstXtensorLayerOffsets arrival.1
      · congr 1
        funext arrival
        exact congrArg (fun key => decide (key = entry.1)) (arrivalKey_rankPart arrival)
    -- each info lists the offsets of its own blocks
    have hlayer : ∀ info ∈ arrivingAt kvSplitRank kvSplitSize infos entry.1,
        layerK info.dstXtensorLayerOffsets layer =
          (if layer < info.dstXtensorLayerOffsets.length then kvRemoteIds info else []).map
            (offsets.k entry.1 layer) ∧
        layerV info.dstXtensorLayerOffsets layer =
          (if layer < info.dstXtensorLayerOffsets.length then kvRemoteIds info else []).map
            (offsets.v entry.1 layer) := by
      intro info hinfo
      obtain ⟨arrival, harrival, rfl⟩ := mem_map.mp hinfo
      obtain ⟨hmem, hkey⟩ := mem_filter.mp harrival
      obtain ⟨hkept, hdst⟩ := mem_arrivals.mp hmem
      have hlayers := layer_of_listed hlisted (mem_filter.mp hkept).1 hdst layer
      rw [← of_decide_eq_true hkey]
      exact hlayers
    rw [mergeKvBlocks_offsets haligned entry hentry, hoffsets, mergedOffsets_getElem?]
    unfold listedLayers listedBlocks
    have hk : ((arrivingAt kvSplitRank kvSplitSize infos entry.1).map
        (·.dstXtensorLayerOffsets)).flatMap (layerK · layer) =
          ((arrivingAt kvSplitRank kvSplitSize infos entry.1).flatMap fun info =>
            if layer < info.dstXtensorLayerOffsets.length then kvRemoteIds info else []).map
              (offsets.k entry.1 layer) := by
      rw [flatMap_map, map_flatMap]
      exact flatMap_congr fun info hinfo => (hlayer info hinfo).1
    have hv : ((arrivingAt kvSplitRank kvSplitSize infos entry.1).map
        (·.dstXtensorLayerOffsets)).flatMap (layerV · layer) =
          ((arrivingAt kvSplitRank kvSplitSize infos entry.1).flatMap fun info =>
            if layer < info.dstXtensorLayerOffsets.length then kvRemoteIds info else []).map
              (offsets.v entry.1 layer) := by
      rw [flatMap_map, map_flatMap]
      exact flatMap_congr fun info hinfo => (hlayer info hinfo).2
    rw [hk, hv]

end Xllm.Framework
