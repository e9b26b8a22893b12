import Xllm.KvCacheTransfer.XTensorRun

/-!
# Offsets and blocks stay paired, or the destination is reported

A block is bound at the offset that stands at its index, and only where there are enough offsets
(`LayerGathered.enough`). So all offsets are right exactly when the blocks that the rank takes are
the first of those whose offsets were gathered (`PairsUp`): what is bound is then paired, and
where everything succeeds nothing else keeps a destination from being bound.
-/

namespace Xllm.Framework

open List

/-! ## What a push should do -/

/-- There are offsets for as many blocks as the rank takes. -/
def Enough (kvSplitRank kvSplitSize : Nat) (infos : List TransferKVInfo) (key : String)
    (layer : Nat) : Prop :=
  layer < listedLayers kvSplitRank kvSplitSize infos key ∧
    (takenBlocks kvSplitRank kvSplitSize infos key).length ≤
      (listedBlocks kvSplitRank kvSplitSize infos key layer).length

/-- Where a destination has enough offsets, the blocks that are taken are the first of the listed.
-/
def PairsUp (kvSplitRank kvSplitSize : Nat) (infos : List TransferKVInfo) (numLayers : Nat) :
    Prop :=
  ∀ key, ∀ layer < numLayers, (∀ l ≤ layer, Enough kvSplitRank kvSplitSize infos key l) →
    takenBlocks kvSplitRank kvSplitSize infos key <+:
      listedBlocks kvSplitRank kvSplitSize infos key layer

/-- The ids of a mapping are the pairs that the rank takes, and its offsets are those of their
blocks, here and at the destination. -/
structure PairedAt {Region : Type} (env : XTensorEnv Region) (offsets : BlockOffsets)
    (pairs : List (Nat × Nat)) (layer : Nat) (key : String) (mapping : ExplicitResourceMapping) :
    Prop where
  localIds : mapping.localIds = pairs.map Prod.fst
  remoteIds : mapping.remoteIds = pairs.map Prod.snd
  keys : mapping.role = .KEY →
    mapping.localOffsets = mapping.localIds.map
      (fun block => (env.getGlobalOffsetsForBlock layer block).1) ∧
    mapping.remoteOffsets = mapping.remoteIds.map (offsets.k key layer)
  values : mapping.role = .VALUE →
    mapping.localOffsets = mapping.localIds.map
      (fun block => (env.getGlobalOffsetsForBlock layer block).2) ∧
    mapping.remoteOffsets = mapping.remoteIds.map (offsets.v key layer)

/-- A batch that is refused is reported whole. Otherwise whatever is bound has the offsets of its
blocks, and a destination with blocks that is not bound on every layer is reported. -/
structure PairedOrFailed {Region : Type} (env : XTensorEnv Region) (offsets : BlockOffsets)
    (srcCpIndexWriteMode : Int) (modelId : String) (numLayers : Nat)
    (infos : List TransferKVInfo) (kvSplitRank kvSplitSize : Nat) : Prop where
  refused : mergeForPush srcCpIndexWriteMode infos kvSplitRank kvSplitSize = none →
    ∀ info ∈ infos, Reported (pushXtensorKvBlocksAsync env srcCpIndexWriteMode modelId numLayers
      infos kvSplitRank kvSplitSize).1 info.requestId
  paired : ∀ layer key mappings,
    (layer, key, mappings) ∈ (pushXtensorKvBlocksAsync env srcCpIndexWriteMode modelId numLayers
      infos kvSplitRank kvSplitSize).2 →
    ∀ mapping ∈ mappings,
      PairedAt env offsets (takenPairs kvSplitRank kvSplitSize infos key) layer key mapping
  loud : ∀ merged, mergeForPush srcCpIndexWriteMode infos kvSplitRank kvSplitSize = some merged →
    ∀ entry ∈ merged, takenPairs kvSplitRank kvSplitSize infos entry.1 = [] ∨
      (∀ layer < numLayers, ∃ mappings, (layer, entry.1, mappings) ∈
        (pushXtensorKvBlocksAsync env srcCpIndexWriteMode modelId numLayers infos kvSplitRank
          kvSplitSize).2) ∨
      ⟨entry.2.requestIds, .failed⟩ ∈ (pushXtensorKvBlocksAsync env srcCpIndexWriteMode modelId
        numLayers infos kvSplitRank kvSplitSize).1

/-! ## What is bound -/

section

variable {Region : Type} {env : XTensorEnv Region} {offsets : BlockOffsets}
  {kvSplitRank kvSplitSize numLayers layer : Nat} {infos : List TransferKVInfo}
  {merged : MergedKvInfos} {key : String} {kvInfo : KVCacheInfo}

theorem EntryGathers.ids (h : EntryGathers kvSplitRank kvSplitSize infos offsets key kvInfo)
    {mapping : KVTransferMapping}
    (hfind : kvInfo.mappings.find? (·.groupId = kvCacheGroupId) = some mapping) :
    mapping.localIds = (takenPairs kvSplitRank kvSplitSize infos key).map Prod.fst ∧
    mapping.remoteIds = (takenPairs kvSplitRank kvSplitSize infos key).map Prod.snd := by
  obtain ⟨hsizes, hpairs⟩ := h.taken mapping hfind
  rw [← hpairs, map_fst_zip (by omega), map_snd_zip (by omega)]
  exact ⟨rfl, rfl⟩

theorem EntryGathers.gathered (h : EntryGathers kvSplitRank kvSplitSize infos offsets key kvInfo)
    {mapping : KVTransferMapping}
    (hfind : kvInfo.mappings.find? (·.groupId = kvCacheGroupId) = some mapping)
    (hblocks : mapping.localIds ≠ []) {copies : List BlockCopy}
    (hcopies : gatherOffsets env layer kvInfo.dstXtensorLayerOffsets[layer]? mapping.localIds 0 =
      some copies) :
    Enough kvSplitRank kvSplitSize infos key layer ∧
    copies.map (·.dstK) = ((listedBlocks kvSplitRank kvSplitSize infos key layer).take
      (takenBlocks kvSplitRank kvSplitSize infos key).length).map (offsets.k key layer) ∧
    copies.map (·.dstV) = ((listedBlocks kvSplitRank kvSplitSize infos key layer).take
      (takenBlocks kvSplitRank kvSplitSize infos key).length).map (offsets.v key layer) := by
  obtain ⟨_, _, hdst⟩ := gatherOffsets_spec hcopies
  obtain ⟨layerOffsets, hlayer, hlength, hdstK, hdstV⟩ := hdst hblocks
  have hcount : mapping.localIds.length =
      (takenBlocks kvSplitRank kvSplitSize infos key).length := by
    rw [(h.ids hfind).1]
    unfold takenBlocks
    rw [length_map, length_map]
  rw [h.listed layer] at hlayer
  split at hlayer
  · next hlt =>
    cases hlayer
    rw [Nat.zero_add, length_map, hcount] at hlength
    rw [hcount, List.drop_zero, ← map_take] at hdstK hdstV
    exact ⟨⟨hlt, hlength⟩, hdstK, hdstV⟩
  · cases hlayer

variable {mappings : List ExplicitResourceMapping}

theorem LayerGathered.entry (h : LayerGathered env merged layer key mappings) :
    (key, (merged.lookup key).getD {}) ∈ merged := by
  obtain ⟨mapping, _, hfind, _⟩ := h
  cases hlookup : merged.lookup key with
  | none =>
    rw [hlookup] at hfind
    cases hfind
  | some kvInfo =>
    obtain ⟨before, after, rfl, _⟩ := lookup_eq_some_iff.mp hlookup
    exact mem_append_right _ mem_cons_self

theorem LayerGathered.enough (h : LayerGathered env merged layer key mappings)
    (hentry : EntryGathers kvSplitRank kvSplitSize infos offsets key
      ((merged.lookup key).getD {})) :
    Enough kvSplitRank kvSplitSize infos key layer := by
  obtain ⟨mapping, copies, hfind, hblocks, _, hcopies, _⟩ := h
  exact (hentry.gathered hfind hblocks hcopies).1

theorem LayerGathered.not_skipped
    (h : LayerGathered env merged layer key mappings) : ¬ Skipped merged key := by
  intro hskipped
  obtain ⟨mapping, copies, hfind, hblocks, _⟩ := h
  obtain ⟨mapping', hfind', hempty, _⟩ := hskipped
  rw [hfind] at hfind'
  cases hfind'
  exact hblocks hempty

/-- With the taken blocks first in the list, the offsets are those of the blocks. -/
theorem LayerGathered.pairedAt (h : LayerGathered env merged layer key mappings)
    (hentry : EntryGathers kvSplitRank kvSplitSize infos offsets key ((merged.lookup key).getD {}))
    (hbegin : takenBlocks kvSplitRank kvSplitSize infos key <+:
      listedBlocks kvSplitRank kvSplitSize infos key layer) :
    ∀ mapping ∈ mappings,
      PairedAt env offsets (takenPairs kvSplitRank kvSplitSize infos key) layer key mapping := by
  obtain ⟨mapping, copies, hfind, hblocks, _, hcopies, rfl⟩ := h
  obtain ⟨hlocal, hremote⟩ := hentry.ids hfind
  obtain ⟨hsrcK, hsrcV, _⟩ := gatherOffsets_spec hcopies
  obtain ⟨_, hdstK, hdstV⟩ := hentry.gathered hfind hblocks hcopies
  rw [← prefix_iff_eq_take.mp hbegin] at hdstK hdstV
  have hblocksK : copies.map (·.dstK) = mapping.remoteIds.map (offsets.k key layer) := by
    rw [hdstK, hremote]
    rfl
  have hblocksV : copies.map (·.dstV) = mapping.remoteIds.map (offsets.v key layer) := by
    rw [hdstV, hremote]
    rfl
  intro explicit hmem
  cases mem_cons.mp hmem with
  | inl hkeys =>
    rw [hkeys]
    exact ⟨hlocal, hremote, fun _ => ⟨hsrcK, hblocksK⟩, fun hrole => by cases hrole⟩
  | inr hvalues =>
    rw [mem_singleton.mp hvalues]
    exact ⟨hlocal, hremote, fun hrole => (by cases hrole), fun _ => ⟨hsrcV, hblocksV⟩⟩

end

/-! ## Where the pairing holds -/

section

variable {srcCpIndexWriteMode : Int} {modelId : String} {numLayers kvSplitRank kvSplitSize : Nat}
  {infos : List TransferKVInfo} {offsets : BlockOffsets} {merged : MergedKvInfos}

variable {Region : Type}

theorem pushXtensorKvBlocksAsync_eq (env : XTensorEnv Region)
    (hmerge : mergeForPush srcCpIndexWriteMode infos kvSplitRank kvSplitSize = some merged) :
    pushXtensorKvBlocksAsync env srcCpIndexWriteMode modelId numLayers infos kvSplitRank
        kvSplitSize =
      if merged = [] then ([], [])
      else pushXtensorKvBlocks env modelId numLayers merged kvSplitRank kvSplitSize := by
  unfold pushXtensorKvBlocksAsync
  rw [hmerge]
  cases merged with
  | nil => rfl
  | cons entry merged => rfl

/-- The order in which the destinations are visited. -/
def visited {Region : Type} (env : XTensorEnv Region) (merged : MergedKvInfos)
    (kvSplitRank kvSplitSize : Nat) : List String :=
  if kvSplitSize > 1 then rotateDstRank (env.walk (merged.map Prod.fst)) kvSplitRank
  else env.walk (merged.map Prod.fst)

variable {env : XTensorEnv Region}

theorem mem_visited (hwalk : ∀ keys, (env.walk keys).Perm keys) {entry : String × KVCacheInfo}
    (hentry : entry ∈ merged) : entry.1 ∈ visited env merged kvSplitRank kvSplitSize := by
  have hkey := (hwalk (merged.map Prod.fst)).mem_iff.mpr (mem_map_of_mem hentry)
  unfold visited
  split
  · exact mem_rotateDstRank hkey kvSplitRank
  · exact hkey

theorem mem_failed_results {keys failedKeys : List String} (hnodup : (merged.map Prod.fst).Nodup)
    {entry : String × KVCacheInfo} (hentry : entry ∈ merged) (hkey : entry.1 ∈ keys)
    (hfailed : entry.1 ∈ failedKeys) :
    (⟨entry.2.requestIds, .failed⟩ : KVTransferTaskResult) ∈
      (keys.filter (· ∈ failedKeys)).map fun key =>
        ⟨((merged.lookup key).getD {}).requestIds, .failed⟩ := by
  apply mem_map.mpr
  refine ⟨entry.1, mem_filter.mpr ⟨hkey, decide_eq_true hfailed⟩, ?_⟩
  rw [lookup_of_mem hnodup hentry]
  rfl

theorem pairedOrFailed_of_refused (env : XTensorEnv Region)
    (h : ¬ Accepted srcCpIndexWriteMode infos kvSplitSize) :
    PairedOrFailed env offsets srcCpIndexWriteMode modelId numLayers infos kvSplitRank
      kvSplitSize := by
  have hmerge := @mergeForPush_eq_none srcCpIndexWriteMode infos kvSplitRank kvSplitSize h
  have hrun : pushXtensorKvBlocksAsync env srcCpIndexWriteMode modelId numLayers infos kvSplitRank
      kvSplitSize = (failedTasksForRequests infos, []) := by
    unfold pushXtensorKvBlocksAsync
    rw [hmerge]
  refine ⟨fun _ info hinfo => ?_, fun layer key mappings hmem => ?_, fun merged hmerged => ?_⟩
  · rw [hrun]
    exact reported_of_refused hinfo
  · rw [hrun] at hmem
    exact nomatch hmem
  · rw [hmerge] at hmerged
    cases hmerged

theorem pairedOrFailed_of_no_model (hwalk : ∀ keys, (env.walk keys).Perm keys)
    (haccepted : Accepted srcCpIndexWriteMode infos kvSplitSize) :
    PairedOrFailed env offsets srcCpIndexWriteMode "" numLayers infos kvSplitRank kvSplitSize := by
  have hmerge := @mergeForPush_eq_some srcCpIndexWriteMode infos kvSplitRank kvSplitSize haccepted
  have hspec := mergeKvBlocks_spec (@rankParts_aligned infos kvSplitRank kvSplitSize haccepted.2)
  have hrun := @pushXtensorKvBlocksAsync_eq _ "" numLayers _ _ _ _ _ env hmerge
  refine ⟨fun hnone => ?_, fun layer key mappings hmem => ?_, fun merged hmerged entry hentry => ?_⟩
  · rw [hmerge] at hnone
    cases hnone
  · rw [hrun] at hmem
    unfold pushXtensorKvBlocks at hmem
    split at hmem
    · exact nomatch hmem
    · exact nomatch hmem
  · rw [hmerge] at hmerged
    cases hmerged
    right
    right
    rw [hrun, if_neg (ne_nil_of_mem hentry)]
    unfold pushXtensorKvBlocks
    apply mem_map.mpr
    refine ⟨entry.1, (hwalk _).mem_iff.mpr (mem_map_of_mem hentry), ?_⟩
    rw [lookup_of_mem hspec.keys hentry]
    rfl

/-- Where the taken blocks are first in the lists, whatever the engine answers, offsets are right or
the destination is reported. -/
theorem pairedOrFailed_of_pairsUp
    (hwalk : ∀ keys, (env.walk keys).Perm keys) (hr : kvSplitRank < kvSplitSize)
    (hlisted : OffsetsListed offsets infos) (hmodel : modelId ≠ "")
    (haccepted : Accepted srcCpIndexWriteMode infos kvSplitSize)
    (hpairs : PairsUp kvSplitRank kvSplitSize infos numLayers) :
    PairedOrFailed env offsets srcCpIndexWriteMode modelId numLayers infos kvSplitRank
      kvSplitSize := by
  have hmerge := @mergeForPush_eq_some srcCpIndexWriteMode infos kvSplitRank kvSplitSize haccepted
  have hspec := mergeKvBlocks_spec (@rankParts_aligned infos kvSplitRank kvSplitSize haccepted.2)
  have hgathers := mergeKvBlocks_gathers hr haccepted.2 hlisted
  have hrun := @pushXtensorKvBlocksAsync_eq _ modelId numLayers _ _ _ _ _ env hmerge
  generalize mergeKvBlocks (rankParts kvSplitRank kvSplitSize infos) = merged at *
  have hinv := pushXtensorLayers_inv env merged (visited env merged kvSplitRank kvSplitSize)
    numLayers
  have hbound := pushXtensorLayers_bound_lt env merged (visited env merged kvSplitRank kvSplitSize)
    numLayers
  unfold pushXtensorKvBlocks at hrun
  rw [if_neg hmodel] at hrun
  refine ⟨fun hnone => ?_, fun layer key mappings hmem => ?_,
    fun merged' hmerged entry hentry => ?_⟩
  · rw [hmerge] at hnone
    cases hnone
  · rw [hrun] at hmem
    split at hmem
    · exact nomatch hmem
    · obtain ⟨hgathered, hbefore⟩ := hinv.sound layer key mappings hmem
      have hentry := hgathers _ hgathered.entry
      refine hgathered.pairedAt hentry (hpairs key layer (hbound _ hmem) fun l hl => ?_)
      -- every layer up to this one was gathered, so it has enough offsets
      cases Nat.lt_succ_iff_lt_or_eq.mp (Nat.lt_succ_of_le hl) with
      | inr heq =>
        rw [heq]
        exact hgathered.enough hentry
      | inl hlt =>
        obtain hskipped | ⟨mappings', hgathered'⟩ := hbefore l hlt
        · exact absurd hskipped hgathered.not_skipped
        · exact hgathered'.enough hentry
  · rw [hmerge] at hmerged
    cases hmerged
    rw [hrun, if_neg (ne_nil_of_mem hentry)]
    have hkey := @mem_visited kvSplitRank kvSplitSize _ _ env hwalk entry hentry
    obtain hfailed | hsettled := hinv.settled entry.1 hkey
    · exact Or.inr (Or.inr (mem_failed_results hspec.keys hentry hkey hfailed))
    · by_cases hskipped : Skipped merged entry.1
      · left
        obtain ⟨mapping, hfind, hempty, _⟩ := hskipped
        rw [lookup_of_mem hspec.keys hentry] at hfind
        have hpairsEmpty := ((hgathers entry hentry).taken mapping hfind).2
        rw [hempty, zip_nil_left] at hpairsEmpty
        exact hpairsEmpty.symm
      · right
        left
        intro layer hlayer
        obtain ⟨mappings, _, hmem⟩ := (hsettled layer hlayer).resolve_left hskipped
        exact ⟨mappings, hmem⟩

def smoothXTensorEnv : XTensorEnv Unit :=
  { synchronizeLayer := fun _ => true
    getGlobalOffsetsForBlock := fun _ _ => (0, 0)
    bindOutgoingRegionsExplicit := fun _ _ _ => some [()]
    moveMemoryRegions := fun _ _ _ => true
    walk := id }

section

variable {s : XTensorPushState} {key : String} {layer : Nat}

theorem smoothXTensorEnv_key
    (hentry : EntryGathers kvSplitRank kvSplitSize infos offsets key ((merged.lookup key).getD {}))
    (hpairs : takenPairs kvSplitRank kvSplitSize infos key ≠ [])
    (henough : Enough kvSplitRank kvSplitSize infos key layer) (hfresh : key ∉ s.failedKeys) :
    key ∉ (pushXtensorKey smoothXTensorEnv merged layer s key).failedKeys := by
  unfold pushXtensorKey
  rw [if_neg hfresh]
  dsimp only
  cases hfind : ((merged.lookup key).getD {}).mappings.find? (·.groupId = kvCacheGroupId) with
  | none => exact absurd (hentry.missing hfind) hpairs
  | some mapping =>
    have hids := hentry.ids hfind
    have hcount : mapping.localIds.length =
        (takenBlocks kvSplitRank kvSplitSize infos key).length := by
      unfold takenBlocks
      rw [hids.1, length_map, length_map]
    have hblocks : mapping.localIds ≠ [] := by
      rw [hids.1]
      exact fun hnil => hpairs (map_eq_nil_iff.mp hnil)
    have hlist := henough.2
    have hvalid : (0 : Nat) ≠ invalidOffset := by decide
    have hsource : ∀ block, (smoothXTensorEnv.getGlobalOffsetsForBlock layer block).1 ≠
        invalidOffset ∧ (smoothXTensorEnv.getGlobalOffsetsForBlock layer block).2 ≠
          invalidOffset := by
      intro block
      exact ⟨hvalid, hvalid⟩
    obtain ⟨copies, hcopies⟩ := @gatherOffsets_isSome _ smoothXTensorEnv layer
      { kOffsets := (listedBlocks kvSplitRank kvSplitSize infos key layer).map
          (offsets.k key layer)
        vOffsets := (listedBlocks kvSplitRank kvSplitSize infos key layer).map
          (offsets.v key layer) } mapping.localIds 0 hsource
      (by rw [length_map]; omega) (by rw [length_map]; omega)
    dsimp only
    rw [if_neg (not_not.mpr (hentry.taken mapping hfind).1), if_neg hblocks,
      hentry.listed layer, if_pos henough.1, hcopies]
    exact hfresh

theorem smoothXTensorEnv_keys {todo : List String}
    (hentry : EntryGathers kvSplitRank kvSplitSize infos offsets key ((merged.lookup key).getD {}))
    (hpairs : takenPairs kvSplitRank kvSplitSize infos key ≠ [])
    (henough : Enough kvSplitRank kvSplitSize infos key layer) (hfresh : key ∉ s.failedKeys) :
    key ∉ (todo.foldl (pushXtensorKey smoothXTensorEnv merged layer) s).failedKeys := by
  induction todo generalizing s with
  | nil => exact hfresh
  | cons other todo ih =>
    apply ih
    by_cases hkey : other = key
    · rw [hkey]
      exact smoothXTensorEnv_key hentry hpairs henough hfresh
    · intro hfailed
      have hstep := @pushXtensorKey_spec _ smoothXTensorEnv merged layer other s
      obtain hold | hsame := hstep.others key hfailed
      · exact hfresh hold
      · exact hkey hsame.symm

theorem smoothXTensorEnv_layers {keys : List String}
    (hentry : EntryGathers kvSplitRank kvSplitSize infos offsets key ((merged.lookup key).getD {}))
    (hpairs : takenPairs kvSplitRank kvSplitSize infos key ≠ [])
    (henough : ∀ l < layer, Enough kvSplitRank kvSplitSize infos key l) :
    key ∉ (pushXtensorLayers smoothXTensorEnv merged keys layer).failedKeys := by
  induction layer with
  | zero => exact not_mem_nil
  | succ layer ih =>
    rw [pushXtensorLayers_succ]
    apply smoothXTensorEnv_keys hentry hpairs (henough layer (Nat.lt_succ_self layer))
    exact ih fun l hl => henough l (Nat.lt_succ_of_lt hl)

end

theorem mem_merged_of_takenPairs
    (hspec : MergeSpec (arrivals (rankParts kvSplitRank kvSplitSize infos)) merged) {key : String}
    (hpairs : takenPairs kvSplitRank kvSplitSize infos key ≠ []) :
    (key, (merged.lookup key).getD {}) ∈ merged := by
  obtain ⟨pair, hpair⟩ := exists_mem_of_ne_nil _ hpairs
  obtain ⟨info, hinfo, _⟩ := mem_flatMap.mp hpair
  obtain ⟨arrival, harrival, _⟩ := mem_map.mp hinfo
  obtain ⟨hmem, hkey⟩ := mem_filter.mp harrival
  have hpart : (rankPart kvSplitRank kvSplitSize arrival.1, arrival.2) ∈
      arrivals (rankParts kvSplitRank kvSplitSize infos) := by
    rw [arrivals_rankParts]
    exact mem_map_of_mem hmem
  have harrived := hspec.arrived _ hpart
  rw [arrivalKey_rankPart, of_decide_eq_true hkey] at harrived
  obtain ⟨entry, hentry, rfl⟩ := mem_map.mp harrived
  rw [lookup_of_mem hspec.keys hentry]
  exact hentry

/-- Where everything succeeds, enough offsets are bound, and they are right only if the taken blocks
are first in the lists. -/
theorem pairsUp_of_pairedOrFailed (hr : kvSplitRank < kvSplitSize)
    (hlisted : OffsetsListed offsets infos) (hmodel : modelId ≠ "")
    (haccepted : Accepted srcCpIndexWriteMode infos kvSplitSize)
    (h : PairedOrFailed smoothXTensorEnv offsets srcCpIndexWriteMode modelId numLayers infos
      kvSplitRank kvSplitSize) :
    PairsUp kvSplitRank kvSplitSize infos numLayers := by
  intro key layer hlayer henough
  by_cases hpairs : takenPairs kvSplitRank kvSplitSize infos key = []
  · unfold takenBlocks
    rw [hpairs]
    exact List.nil_prefix
  have hmerge := @mergeForPush_eq_some srcCpIndexWriteMode infos kvSplitRank kvSplitSize haccepted
  have hspec := mergeKvBlocks_spec (@rankParts_aligned infos kvSplitRank kvSplitSize haccepted.2)
  have hmem := mem_merged_of_takenPairs hspec hpairs
  have hentry := mergeKvBlocks_gathers hr haccepted.2 hlisted _ hmem
  have hrun := @pushXtensorKvBlocksAsync_eq _ modelId numLayers _ _ _ _ _ smoothXTensorEnv hmerge
  rw [if_neg (ne_nil_of_mem hmem)] at hrun
  generalize mergeKvBlocks (rankParts kvSplitRank kvSplitSize infos) = merged at *
  have hkey := @mem_visited kvSplitRank kvSplitSize _ _ smoothXTensorEnv
    (fun keys => List.Perm.refl keys) _ hmem
  have hinv := pushXtensorLayers_inv smoothXTensorEnv merged
    (visited smoothXTensorEnv merged kvSplitRank kvSplitSize) (layer + 1)
  have hfresh := @smoothXTensorEnv_layers _ _ _ _ _ _ (layer + 1)
    (visited smoothXTensorEnv merged kvSplitRank kvSplitSize) hentry hpairs
    fun l hl => henough l (Nat.lt_succ_iff.mp hl)
  have hsettled := (hinv.settled key hkey).resolve_left hfresh layer (Nat.lt_succ_self layer)
  cases hsettled with
  | inl hskipped =>
    obtain ⟨mapping, hfind, hempty, _⟩ := hskipped
    have hpairsEmpty := (hentry.taken mapping hfind).2
    rw [hempty, zip_nil_left] at hpairsEmpty
    exact absurd hpairsEmpty.symm hpairs
  | inr hbound =>
    obtain ⟨mappings, hgathered, hmemBound⟩ := hbound
    have hfinal : (layer, key, mappings) ∈ (pushXtensorKvBlocksAsync smoothXTensorEnv
        srcCpIndexWriteMode modelId numLayers infos kvSplitRank kvSplitSize).2 := by
      rw [hrun]
      unfold pushXtensorKvBlocks
      rw [if_neg hmodel]
      exact (pushXtensorLayers_grows smoothXTensorEnv merged
        (visited smoothXTensorEnv merged kvSplitRank kvSplitSize) hlayer).bound _ hmemBound
    have hpaired := h.paired layer key mappings hfinal
    obtain ⟨mapping, copies, hfind, hblocks, _, hcopies, rfl⟩ := hgathered
    obtain ⟨_, hdstK, _⟩ := hentry.gathered hfind hblocks hcopies
    have hkeys := (hpaired _ mem_cons_self).keys rfl
    have hsame : ((listedBlocks kvSplitRank kvSplitSize infos key layer).take
        (takenBlocks kvSplitRank kvSplitSize infos key).length).map (offsets.k key layer) =
          (takenBlocks kvSplitRank kvSplitSize infos key).map (offsets.k key layer) := by
      rw [← hdstK]
      refine hkeys.2.trans ?_
      rw [(hentry.ids hfind).2]
      rfl
    -- no two blocks share an offset
    have hblocksSame := (map_injective_iff.mpr (offsets.k_injective key layer)) hsame
    exact prefix_iff_eq_take.mpr hblocksSame.symm

end

/-- In XTensor mode offsets and blocks are paired or the destination is reported, for all answers
of the engine: exactly when there is no model, the batch is refused, or the taken blocks are first
in the lists. -/
theorem xtensor_paired_iff (srcCpIndexWriteMode : Int) (modelId : String) (numLayers : Nat)
    {kvSplitRank kvSplitSize : Nat} (hr : kvSplitRank < kvSplitSize) {infos : List TransferKVInfo}
    {offsets : BlockOffsets} (hlisted : OffsetsListed offsets infos) :
    (∀ (Region : Type) (env : XTensorEnv Region), (∀ keys, (env.walk keys).Perm keys) →
      PairedOrFailed env offsets srcCpIndexWriteMode modelId numLayers infos kvSplitRank
        kvSplitSize) ↔
    modelId = "" ∨ ¬ Accepted srcCpIndexWriteMode infos kvSplitSize ∨
      PairsUp kvSplitRank kvSplitSize infos numLayers := by
  by_cases haccepted : Accepted srcCpIndexWriteMode infos kvSplitSize
  · constructor
    · intro h
      by_cases hmodel : modelId = ""
      · exact Or.inl hmodel
      · exact Or.inr (Or.inr (pairsUp_of_pairedOrFailed hr hlisted hmodel haccepted
          (h Unit smoothXTensorEnv fun keys => List.Perm.refl keys)))
    · intro h Region env hwalk
      by_cases hmodel : modelId = ""
      · rw [hmodel]
        exact pairedOrFailed_of_no_model hwalk haccepted
      · have hpairs := (h.resolve_left hmodel).resolve_left (not_not.mpr haccepted)
        exact pairedOrFailed_of_pairsUp hwalk hr hlisted hmodel haccepted hpairs
  · constructor
    · intro _
      exact Or.inr (Or.inl haccepted)
    · intro _ Region env _
      exact pairedOrFailed_of_refused env haccepted

/-- Offsets that are distinct by their block. -/
def spacedOffsets : BlockOffsets where
  k _ _ block := 100 * block
  v _ _ block := 100 * block + 50
  k_injective := fun _ _ block block' (h : 100 * block = 100 * block') => by omega
  v_injective := fun _ _ block block' (h : 100 * block + 50 = 100 * block' + 50) => by omega

/-- A request of four remote blocks with the offsets of all of them. -/
def stridedInfo : TransferKVInfo :=
  { requestId := "request"
    remoteInstanceInfo := { clusterIds := [1], addrs := ["a"] }
    mappings := [{ localIds := [4, 5], remoteIds := [10, 11, 12, 13] }]
    dstXtensorLayerOffsets :=
      [{ kOffsets := [1000, 1100, 1200, 1300], vOffsets := [1050, 1150, 1250, 1350] }] }

theorem stridedInfo_listed : OffsetsListed spacedOffsets [stridedInfo] := by
  intro info hinfo dstRank _ layer layerOffsets hlayer
  rw [mem_singleton.mp hinfo] at hlayer ⊢
  cases layer with
  | zero =>
    cases hlayer
    exact ⟨rfl, rfl⟩
  | succ layer => cases hlayer

/-- On the first rank of two. -/
theorem xtensor_paired_iff_two :
    (∀ (Region : Type) (env : XTensorEnv Region), (∀ keys, (env.walk keys).Perm keys) →
      PairedOrFailed env spacedOffsets 0 "model" 1 [stridedInfo] 0 2) ↔
    ("model" = "" ∨ ¬ Accepted 0 [stridedInfo] 2 ∨ PairsUp 0 2 [stridedInfo] 1) :=
  xtensor_paired_iff 0 "model" 1 Nat.zero_lt_two stridedInfo_listed

/-- The first rank of two takes blocks 10 and 12, and writes the latter at the offset of block 11.
-/
theorem strided_block_takes_foreign_offset :
    OffsetsListed spacedOffsets [stridedInfo] ∧
    pushXtensorKvBlocksAsync smoothXTensorEnv 0 "model" 1 [stridedInfo] 0 2 =
      ([], [(0, "1_a", [⟨0, .KEY, [4, 5], [10, 12], [0, 0], [1000, 1100]⟩,
        ⟨0, .VALUE, [4, 5], [10, 12], [0, 0], [1050, 1150]⟩])]) ∧
    ¬ PairedOrFailed smoothXTensorEnv spacedOffsets 0 "model" 1 [stridedInfo] 0 2 := by
  have hrun : pushXtensorKvBlocksAsync smoothXTensorEnv 0 "model" 1 [stridedInfo] 0 2 =
      ([], [(0, "1_a", [⟨0, .KEY, [4, 5], [10, 12], [0, 0], [1000, 1100]⟩,
        ⟨0, .VALUE, [4, 5], [10, 12], [0, 0], [1050, 1150]⟩])]) := by
    decide +kernel
  refine ⟨stridedInfo_listed, hrun, fun h => ?_⟩
  have hpaired := h.paired 0 "1_a" _ (by rw [hrun]; exact mem_singleton.mpr rfl) _
    mem_cons_self
  have hoffsets := (hpaired.keys rfl).2
  exact absurd hoffsets (by decide)

end Xllm.Framework
