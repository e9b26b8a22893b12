import Xllm.KvCacheTransfer.PushMerge

/-!
# A push is exact, and loud where it can be

The pairs of a rank are the positions that are the rank modulo the split size, and the merge attaches
them to every worker of the destination's DP group and to no other (`ExactPush`). A destination that
is not reported has been written on every layer (`pushLayers_settled`), so a request is lost silently
only when it never gets to a destination: the merge drops a request whose destination topology is
invalid.
-/

namespace Xllm.Framework

open List

/-! ## What a push should do -/

/-- The pairs of a cache group that a destination gets. -/
def sentTo (merged : MergedKvInfos) (clusterId : Nat) (addr : String) (groupId : Int) :
    List (Nat × Nat) :=
  merged.flatMap fun entry =>
    if (entry.2.dstClusterId, entry.2.dstAddr) = (clusterId, addr) then
      groupPairs entry.2.mappings groupId
    else []

structure ExactPush (kvSplitRank kvSplitSize : Nat) (infos : List TransferKVInfo)
    (merged : MergedKvInfos) : Prop where
  /-- Every position has its pair. -/
  complete : ∀ info ∈ infos, ∀ mapping ∈ info.mappings, ∀ position < mapping.remoteIds.length,
    ∃ pair, pairAt kvSplitSize info mapping position = some pair
  oneToOne : ∀ info ∈ infos, ∀ mapping ∈ info.mappings,
    interleaved kvSplitSize info mapping = false →
    mapping.localIds.length = mapping.remoteIds.length
  /-- A destination gets, request by request, the pairs of the rank. -/
  sent : ∀ clusterId addr groupId, sentTo merged clusterId addr groupId =
    infos.flatMap fun info => (destinationRanks info).flatMap fun dstRank =>
      if destinationOf info dstRank = (clusterId, addr) then
        rankPairs kvSplitRank kvSplitSize info groupId
      else []

def HasPair (kvSplitRank kvSplitSize : Nat) (info : TransferKVInfo) : Prop :=
  ∃ groupId, rankPairs kvSplitRank kvSplitSize info groupId ≠ []

/-- Some layer of a request's pairs was not written: it has no layout, no destination, or a destination
where the layer is missing. -/
def Unwritten (layout : BufLayout) (written : List (Nat × String)) (info : TransferKVInfo) : Prop :=
  layout.registered = false ∨ ∃ layer < layout.numLayers, destinationRanks info = [] ∨
    ∃ dstRank ∈ destinationRanks info, (layer, arrivalKey (info, dstRank)) ∉ written

def Reported (results : List KVTransferTaskResult) (requestId : String) : Prop :=
  ∃ result ∈ results, result.errorCode = .failed ∧ requestId ∈ result.requestIds

/-- The layer was synchronised and every region of it moved. -/
def LayerWritten {Region : Type} (env : PushEnv Region) (merged : MergedKvInfos)
    (layer : Nat) (key : String) : Prop :=
  env.synchronizeLayer layer = true ∧
  ∃ regions, env.bindOutgoingRegions ((merged.lookup key).getD {}).dstAddr
      ((merged.lookup key).getD {}).mappings layer = some regions ∧
    (regions = [] ∨
      env.moveMemoryRegions layer ((merged.lookup key).getD {}).dstAddr regions = true)

/-- One rank's push: a refused batch is reported whole; otherwise the pairs are exact, and a request
with a pair that was not written on some layer is reported. -/
structure PushHolds {Region : Type} (env : PushEnv Region) (srcCpIndexWriteMode : Int)
    (layout : BufLayout) (infos : List TransferKVInfo) (kvSplitRank kvSplitSize : Nat) : Prop where
  refused : mergeForPush srcCpIndexWriteMode infos kvSplitRank kvSplitSize = none →
    ∃ results written, pushKvBlocksAsync env srcCpIndexWriteMode layout infos kvSplitRank
        kvSplitSize = .ok (results, written) ∧
      ∀ info ∈ infos, Reported results info.requestId
  exact : ∀ merged, mergeForPush srcCpIndexWriteMode infos kvSplitRank kvSplitSize = some merged →
    ExactPush kvSplitRank kvSplitSize infos merged
  stopped : ∀ message, pushKvBlocksAsync env srcCpIndexWriteMode layout infos kvSplitRank
      kvSplitSize = .error message → ∀ info ∈ infos, ¬ HasPair kvSplitRank kvSplitSize info
  loud : ∀ merged results written,
    mergeForPush srcCpIndexWriteMode infos kvSplitRank kvSplitSize = some merged →
    pushKvBlocksAsync env srcCpIndexWriteMode layout infos kvSplitRank kvSplitSize =
      .ok (results, written) →
    (∀ layer key, (layer, key) ∈ written → LayerWritten env merged layer key) ∧
    ∀ info ∈ infos, HasPair kvSplitRank kvSplitSize info → Unwritten layout written info →
      Reported results info.requestId

/-! ## The batch that is merged -/

/-- The checks let the batch through. -/
def Accepted (srcCpIndexWriteMode : Int) (infos : List TransferKVInfo) (kvSplitSize : Nat) : Prop :=
  validateKvSplitWidthPlan srcCpIndexWriteMode infos kvSplitSize = true ∧
  validateTransferMappings infos kvSplitSize = true

/-- The requests that are merged. -/
def rankParts (kvSplitRank kvSplitSize : Nat) (infos : List TransferKVInfo) : List TransferKVInfo :=
  (infos.map (rankPart kvSplitRank kvSplitSize)).filter fun info =>
    kvSplitSize ≤ 1 || keepsPart info

section

variable {srcCpIndexWriteMode : Int} {infos : List TransferKVInfo} {kvSplitRank kvSplitSize : Nat}

theorem rankParts_eq : (if kvSplitSize > 1 then
    filterKvSplitInfos kvSplitRank kvSplitSize infos else infos) =
    rankParts kvSplitRank kvSplitSize infos := by
  unfold rankParts
  by_cases hsplit : 1 < kvSplitSize
  · have hkeep : (fun info : TransferKVInfo => decide (kvSplitSize ≤ 1) || keepsPart info) =
        keepsPart := by
      funext info
      rw [decide_eq_false (by omega), Bool.false_or]
    rw [if_pos hsplit, filterKvSplitInfos_eq hsplit, hkeep]
  · have hkeep : (fun info : TransferKVInfo => decide (kvSplitSize ≤ 1) || keepsPart info) =
        fun _ => true := by
      funext info
      rw [decide_eq_true (by omega), Bool.true_or]
    have hpart : rankPart kvSplitRank kvSplitSize = id := by
      funext info
      exact if_neg fun h => hsplit h.1
    rw [if_neg hsplit, hkeep, hpart, map_id, filter_true]

theorem validateMappings_of_accepted (h : validateTransferMappings infos kvSplitSize = true)
    {info : TransferKVInfo} (hmem : info ∈ infos) :
    validateMappings kvSplitSize info.rankLocalMapping [] info.mappings = true := by
  have hinfo := all_eq_true.mp h info hmem
  split at hinfo
  · cases hinfo
  · exact hinfo

theorem rankParts_aligned (h : validateTransferMappings infos kvSplitSize = true) :
    ∀ info ∈ rankParts kvSplitRank kvSplitSize infos, Aligned info.mappings := by
  intro info hmem
  obtain ⟨info', hinfo', rfl⟩ := mem_map.mp (mem_filter.mp hmem).1
  exact rankPart_aligned (validateMappings_of_accepted h hinfo')

theorem mergeForPush_eq_some (h : Accepted srcCpIndexWriteMode infos kvSplitSize) :
    mergeForPush srcCpIndexWriteMode infos kvSplitRank kvSplitSize =
      some (mergeKvBlocks (rankParts kvSplitRank kvSplitSize infos)) := by
  have hagain : validateTransferMappings (rankParts kvSplitRank kvSplitSize infos) 1 = true := by
    refine all_eq_true.mpr fun info hmem => ?_
    exact validateMappings_of_aligned (rankParts_aligned h.2 info hmem)
      nofun
  unfold mergeForPush
  rw [if_neg (not_not.mpr h.1), if_neg (not_not.mpr h.2), rankParts_eq]
  dsimp only
  split
  · rename_i hnone
    rw [hnone.2]
    rfl
  · rfl

theorem mergeForPush_eq_none (h : ¬ Accepted srcCpIndexWriteMode infos kvSplitSize) :
    mergeForPush srcCpIndexWriteMode infos kvSplitRank kvSplitSize = none := by
  unfold mergeForPush
  by_cases hplan : validateKvSplitWidthPlan srcCpIndexWriteMode infos kvSplitSize = true
  · rw [if_neg (not_not.mpr hplan), if_pos fun hmappings => h ⟨hplan, hmappings⟩]
  · rw [if_pos hplan]

theorem destinationRanks_rankPart (info : TransferKVInfo) :
    destinationRanks (rankPart kvSplitRank kvSplitSize info) = destinationRanks info := by
  unfold rankPart
  split <;> rfl

theorem destinationOf_rankPart (info : TransferKVInfo) (dstRank : Nat) :
    destinationOf (rankPart kvSplitRank kvSplitSize info) dstRank = destinationOf info dstRank := by
  unfold destinationOf
  rw [rankPart_remoteInstanceInfo]

theorem mem_arrivals_of_hasPair (hr : kvSplitRank < kvSplitSize) {info : TransferKVInfo}
    (hmem : info ∈ infos) (hpair : HasPair kvSplitRank kvSplitSize info) {dstRank : Nat}
    (hdst : dstRank ∈ destinationRanks info) :
    (rankPart kvSplitRank kvSplitSize info, dstRank) ∈
      arrivals (rankParts kvSplitRank kvSplitSize infos) := by
  have hkeeps : keepsPart (rankPart kvSplitRank kvSplitSize info) = true := by
    by_contra hdrop
    obtain ⟨groupId, hne⟩ := hpair
    refine hne ?_
    rw [← rankPart_pairs hr]
    exact groupPairs_of_not_keepsPart (Bool.eq_false_iff.mpr hdrop) groupId
  refine mem_flatMap.mpr ⟨rankPart kvSplitRank kvSplitSize info, ?_, ?_⟩
  · refine mem_filter.mpr ⟨mem_map_of_mem hmem, ?_⟩
    rw [hkeeps, Bool.or_true]
  · rw [destinationRanks_rankPart]
    exact mem_map_of_mem hdst

/-! ## Exactness -/

theorem flatMap_eq_of_unique {α β κ : Type} {f : α → List β} {key : α → κ} {xs : List α}
    (hkeys : (xs.map key).Nodup) {x : α} (hx : x ∈ xs)
    (h : ∀ y ∈ xs, key y ≠ key x → f y = []) : xs.flatMap f = f x := by
  induction xs with
  | nil => exact nomatch hx
  | cons y ys ih =>
    obtain ⟨hhead, htail⟩ := nodup_cons.mp hkeys
    rw [flatMap_cons]
    rcases mem_cons.mp hx with rfl | hx
    · have hrest : ys.flatMap f = [] := by
        rw [flatMap_eq_nil_iff]
        intro y hy
        refine h y (mem_cons_of_mem _ hy) fun heq => hhead ?_
        rw [← heq]
        exact mem_map_of_mem hy
      rw [hrest, append_nil]
    · have hne : key y ≠ key x := fun heq => hhead (by
        rw [heq]
        exact mem_map_of_mem hx)
      rw [h y mem_cons_self hne, nil_append]
      exact ih htail hx fun z hz => h z (mem_cons_of_mem _ hz)

theorem sentTo_eq {done : List (TransferKVInfo × Nat)} {merged : MergedKvInfos}
    (h : MergeSpec done merged) (clusterId : Nat) (addr : String) (groupId : Int) :
    sentTo merged clusterId addr groupId =
      done.flatMap fun arrival =>
        if destinationOf arrival.1 arrival.2 = (clusterId, addr) then
          groupPairs arrival.1.mappings groupId
        else [] := by
  have hkey : ∀ (clusterId' : Nat) (addr' : String),
      getMergeKey clusterId' addr' = getMergeKey clusterId addr ↔
        (clusterId', addr') = (clusterId, addr) := by
    intro clusterId' addr'
    constructor
    · intro heq
      obtain ⟨rfl, rfl⟩ := getMergeKey_injective heq
      rfl
    · intro heq
      cases heq
      rfl
  have harrivals : (done.flatMap fun arrival =>
      if destinationOf arrival.1 arrival.2 = (clusterId, addr) then
        groupPairs arrival.1.mappings groupId else []) =
      done.flatMap fun arrival =>
        if arrivalKey arrival = getMergeKey clusterId addr then
          groupPairs arrival.1.mappings groupId else [] := by
    congr 1
    funext arrival
    exact if_congr (hkey _ _).symm rfl rfl
  rw [harrivals]
  unfold sentTo
  by_cases hmem : getMergeKey clusterId addr ∈ merged.map Prod.fst
  · obtain ⟨entry, hentry, hentryKey⟩ := mem_map.mp hmem
    have hspec := h.entries entry hentry
    have hsame : (entry.2.dstClusterId, entry.2.dstAddr) = (clusterId, addr) :=
      (hkey _ _).mp (hspec.destination.symm.trans hentryKey)
    rw [flatMap_eq_of_unique h.keys hentry, if_pos hsame, hspec.pairs, hentryKey]
    intro other hother hne
    refine if_neg fun heq => hne ?_
    rw [hentryKey, (h.entries other hother).destination]
    exact (hkey _ _).mpr heq
  · rw [no_pairs_of_key_absent h hmem, flatMap_eq_nil_iff]
    intro entry hentry
    refine if_neg fun heq => hmem ?_
    rw [← (hkey _ _).mpr heq, ← (h.entries entry hentry).destination]
    exact mem_map_of_mem hentry

theorem exactPush_of_accepted (hr : kvSplitRank < kvSplitSize)
    (h : validateTransferMappings infos kvSplitSize = true) :
    ExactPush kvSplitRank kvSplitSize infos
      (mergeKvBlocks (rankParts kvSplitRank kvSplitSize infos)) := by
  have hsizes : ∀ info ∈ infos, ∀ mapping ∈ info.mappings,
      validateMappingSizes kvSplitSize info.rankLocalMapping mapping = true :=
    fun info hmem => (validateMappings_groups (validateMappings_of_accepted h hmem)).2.2
  have honeToOne : ∀ info ∈ infos, ∀ mapping ∈ info.mappings,
      interleaved kvSplitSize info mapping = false →
      mapping.localIds.length = mapping.remoteIds.length := by
    intro info hinfo mapping hmapping hplain
    have hmappingSizes := hsizes info hinfo mapping hmapping
    unfold validateMappingSizes at hmappingSizes
    rw [if_pos] at hmappingSizes
    · exact of_decide_eq_true hmappingSizes
    · rintro ⟨hsplit, hlocal, hgroup⟩
      unfold interleaved at hplain
      simp [hsplit, hlocal, hgroup] at hplain
  refine ⟨?_, honeToOne, ?_⟩
  · intro info hinfo mapping hmapping position hposition
    unfold pairAt
    cases hinterleaved : interleaved kvSplitSize info mapping with
    | false =>
      have hlocal : position < mapping.localIds.length := by
        rw [honeToOne info hinfo mapping hmapping hinterleaved]
        exact hposition
      rw [if_neg (by simp)]
      dsimp only
      rw [List.getElem?_eq_getElem hlocal, List.getElem?_eq_getElem hposition]
      exact ⟨_, rfl⟩
    | true =>
      obtain ⟨hleft, hgroup⟩ := Bool.and_eq_true_iff.mp hinterleaved
      obtain ⟨hsplit, hnotLocal⟩ := Bool.and_eq_true_iff.mp hleft
      have hmappingSizes := hsizes info hinfo mapping hmapping
      unfold validateMappingSizes at hmappingSizes
      rw [if_neg] at hmappingSizes
      · -- the remote list is at most `kv_split_size` times as long as the local one
        have hlocal : position / kvSplitSize < mapping.localIds.length := by
          rw [Nat.div_lt_iff_lt_mul (by omega)]
          split at hmappingSizes
          · have := of_decide_eq_true hmappingSizes
            omega
          · split at hmappingSizes
            · cases hmappingSizes
            · have := of_decide_eq_true hmappingSizes
              omega
        rw [if_pos rfl]
        dsimp only
        rw [List.getElem?_eq_getElem hlocal, List.getElem?_eq_getElem hposition]
        exact ⟨_, rfl⟩
      · refine not_not.mpr ⟨of_decide_eq_true hsplit, ?_, hgroup⟩
        intro hlocal
        rw [hlocal] at hnotLocal
        cases hnotLocal
  · intro clusterId addr groupId
    rw [sentTo_eq (mergeKvBlocks_spec (rankParts_aligned h))]
    unfold arrivals
    rw [flatMap_assoc]
    have hpart : ∀ info : TransferKVInfo,
        (((destinationRanks (rankPart kvSplitRank kvSplitSize info)).map fun dstRank =>
          (rankPart kvSplitRank kvSplitSize info, dstRank)).flatMap fun arrival =>
            if destinationOf arrival.1 arrival.2 = (clusterId, addr) then
              groupPairs arrival.1.mappings groupId else []) =
        (destinationRanks info).flatMap fun dstRank =>
          if destinationOf info dstRank = (clusterId, addr) then
            rankPairs kvSplitRank kvSplitSize info groupId else [] := by
      intro info
      rw [flatMap_map, destinationRanks_rankPart]
      congr 1
      funext dstRank
      rw [destinationOf_rankPart, rankPart_pairs hr]
    unfold rankParts
    clear h hsizes honeToOne
    induction infos with
    | nil => rfl
    | cons info infos ih =>
      rw [map_cons, filter_cons, flatMap_cons]
      by_cases hkeeps : (decide (kvSplitSize ≤ 1) ||
          keepsPart (rankPart kvSplitRank kvSplitSize info)) = true
      · rw [if_pos hkeeps, flatMap_cons, hpart, ih]
      · have hdrop : keepsPart (rankPart kvSplitRank kvSplitSize info) = false := by
          rw [Bool.not_eq_true, Bool.or_eq_false_iff] at hkeeps
          exact hkeeps.2
        have hnone : ((destinationRanks info).flatMap fun dstRank =>
            if destinationOf info dstRank = (clusterId, addr) then
              rankPairs kvSplitRank kvSplitSize info groupId else []) = [] := by
          rw [flatMap_eq_nil_iff]
          intro dstRank _
          rw [← rankPart_pairs hr, groupPairs_of_not_keepsPart hdrop, ite_self]
        rw [if_neg hkeeps, hnone, nil_append, ih]

end

/-! ## The push loop -/

section

variable {Region : Type} (env : PushEnv Region) (merged : MergedKvInfos)

/-- One destination of a layer: nothing is forgotten, and the destination is settled. -/
structure PushKeySpec (layer : Nat) (key : String) (s s' : PushState) : Prop where
  failed : ∀ other ∈ s.failedKeys, other ∈ s'.failedKeys
  written : ∀ entry ∈ s.written, entry ∈ s'.written
  settled : key ∈ s'.failedKeys ∨ (layer, key) ∈ s'.written
  sound : ∀ entry ∈ s'.written, entry ∈ s.written ∨ LayerWritten env merged entry.1 entry.2

theorem pushKey_spec {layer : Nat} (hsync : env.synchronizeLayer layer = true) (key : String)
    (s : PushState) : PushKeySpec env merged layer key s (pushKey env merged layer s key) := by
  have hfails : PushKeySpec env merged layer key s
      { s with failedKeys := s.failedKeys ++ [key] } :=
    ⟨fun other h => mem_append_left _ h, fun entry h => h,
      .inl (mem_append_right _ (mem_singleton_self _)), fun entry h => .inl h⟩
  have hwrites : LayerWritten env merged layer key → PushKeySpec env merged layer key s
      { s with written := s.written ++ [(layer, key)] } := by
    intro hlayer
    refine ⟨fun other h => h, fun entry h => mem_append_left _ h,
      .inr (mem_append_right _ (mem_singleton_self _)), fun entry h => ?_⟩
    rcases mem_append.mp h with hold | hnew
    · exact .inl hold
    · obtain rfl := mem_singleton.mp hnew
      exact .inr hlayer
  unfold pushKey
  by_cases hfailed : key ∈ s.failedKeys
  · rw [if_pos hfailed]
    exact ⟨fun other h => h, fun entry h => h, .inl hfailed, fun entry h => .inl h⟩
  · rw [if_neg hfailed]
    dsimp only
    cases hbind : env.bindOutgoingRegions ((merged.lookup key).getD {}).dstAddr
        ((merged.lookup key).getD {}).mappings layer with
    | none => exact hfails
    | some regions =>
      cases regions with
      | nil => exact hwrites ⟨hsync, [], hbind, .inl rfl⟩
      | cons region regions =>
        dsimp only
        by_cases hmove : env.moveMemoryRegions layer ((merged.lookup key).getD {}).dstAddr
            (region :: regions) = true
        · rw [if_pos hmove]
          exact hwrites ⟨hsync, region :: regions, hbind, .inr hmove⟩
        · rw [if_neg hmove]
          exact hfails

/-- One layer: every destination is settled. -/
structure PushLayerSpec (layer : Nat) (keys : List String) (s s' : PushState) : Prop where
  failed : ∀ other ∈ s.failedKeys, other ∈ s'.failedKeys
  written : ∀ entry ∈ s.written, entry ∈ s'.written
  settled : ∀ key ∈ keys, key ∈ s'.failedKeys ∨ (layer, key) ∈ s'.written
  sound : ∀ entry ∈ s'.written, entry ∈ s.written ∨ LayerWritten env merged entry.1 entry.2

theorem pushLayer_spec (layer : Nat) (keys : List String) (s : PushState) :
    PushLayerSpec env merged layer keys s (pushLayer env merged keys s layer) := by
  unfold pushLayer
  by_cases hsync : env.synchronizeLayer layer = true
  · rw [if_neg (not_not.mpr hsync)]
    induction keys generalizing s with
    | nil => exact ⟨fun _ h => h, fun _ h => h, nofun, fun _ h => .inl h⟩
    | cons key keys ih =>
      have hstep := pushKey_spec env merged hsync key s
      have hrest := ih (pushKey env merged layer s key)
      refine ⟨fun other h => hrest.failed other (hstep.failed other h),
        fun entry h => hrest.written entry (hstep.written entry h), ?_, ?_⟩
      · intro key' hkey'
        rcases mem_cons.mp hkey' with rfl | htail
        · rcases hstep.settled with hfailed | hwritten
          · exact .inl (hrest.failed key' hfailed)
          · exact .inr (hrest.written _ hwritten)
        · exact hrest.settled key' htail
      · intro entry h
        rcases hrest.sound entry h with hstepped | hlayer
        · exact hstep.sound entry hstepped
        · exact .inr hlayer
  · rw [if_pos hsync]
    exact ⟨fun _ h => mem_append_left _ h, fun _ h => h,
      fun _ h => .inl (mem_append_right _ h), fun _ h => .inl h⟩

theorem pushLayers_settled (keys : List String) (numLayers : Nat) :
    let s := (List.range numLayers).foldl (pushLayer env merged keys) {}
    (∀ key ∈ keys, key ∈ s.failedKeys ∨ ∀ layer < numLayers, (layer, key) ∈ s.written) ∧
    ∀ entry ∈ s.written, LayerWritten env merged entry.1 entry.2 := by
  induction numLayers with
  | zero => exact ⟨fun _ _ => .inr nofun, nofun⟩
  | succ numLayers ih =>
    obtain ⟨hsettled, hsound⟩ := ih
    rw [range_succ, foldl_append, foldl_cons, foldl_nil]
    have hlayer := pushLayer_spec env merged numLayers keys
      ((List.range numLayers).foldl (pushLayer env merged keys) {})
    refine ⟨?_, ?_⟩
    · intro key hkey
      rcases hsettled key hkey with hfailed | hwritten
      · exact .inl (hlayer.failed key hfailed)
      · rcases hlayer.settled key hkey with hfailed | hnow
        · exact .inl hfailed
        · refine .inr fun layer hlt => ?_
          rcases Nat.lt_succ_iff_lt_or_eq.mp hlt with hbefore | rfl
          · exact hlayer.written _ (hwritten layer hbefore)
          · exact hnow
    · intro entry h
      rcases hlayer.sound entry h with hbefore | hnow
      · exact hsound entry hbefore
      · exact hnow

end

theorem mem_rotateDstRank {keys : List String} {key : String} (h : key ∈ keys) (kvSplitRank : Nat) :
    key ∈ rotateDstRank keys kvSplitRank := by
  let sortedKeys := keys.insertionSort fun a b => ¬ b < a
  have hlength : sortedKeys.length = keys.length := length_insertionSort _ _
  have hsorted : key ∈ sortedKeys := (mem_insertionSort _).mpr h
  obtain ⟨j, hj, hget⟩ := mem_iff_getElem.mp hsorted
  -- the index that the rotation takes to `j`
  refine mem_map.mpr ⟨(j + (sortedKeys.length - kvSplitRank % sortedKeys.length)) %
    sortedKeys.length, mem_range.mpr ?_, ?_⟩
  · rw [← hlength]
    exact Nat.mod_lt _ (by omega)
  · have hmod := Nat.mod_lt kvSplitRank (show 0 < sortedKeys.length by omega)
    have hdivMod := Nat.div_add_mod kvSplitRank sortedKeys.length
    have hindex : ((j + (sortedKeys.length - kvSplitRank % sortedKeys.length)) %
        sortedKeys.length + kvSplitRank) % sortedKeys.length = j := by
      rw [Nat.mod_add_mod]
      have hsum : j + (sortedKeys.length - kvSplitRank % sortedKeys.length) + kvSplitRank =
          j + sortedKeys.length * (kvSplitRank / sortedKeys.length + 1) := by
        rw [Nat.mul_succ]
        omega
      rw [hsum, Nat.add_mul_mod_self_left, Nat.mod_eq_of_lt hj]
    rw [hindex, List.getD_eq_getElem?_getD, List.getElem?_eq_getElem hj, hget]
    rfl

/-! ## Where a push is loud -/

section

variable {srcCpIndexWriteMode : Int} {layout : BufLayout} {infos : List TransferKVInfo}
  {kvSplitRank kvSplitSize : Nat}

/-- What the batch of a rank has to satisfy. -/
def PushCondition (srcCpIndexWriteMode : Int) (layout : BufLayout) (infos : List TransferKVInfo)
    (kvSplitRank kvSplitSize : Nat) : Prop :=
  ¬ Accepted srcCpIndexWriteMode infos kvSplitSize ∨
  (layout.registered = true ∧ layout.numLayers = 0) ∨
  ∀ info ∈ infos, HasPair kvSplitRank kvSplitSize info →
    info.validTopology ∧ layout.registered = true

theorem destinationRanks_pos {info : TransferKVInfo} (h : info.validTopology) :
    ∃ dstRank, dstRank ∈ destinationRanks info := by
  have hvalid := h
  obtain ⟨hdp, hworld, hmod, hrank, hlt, -⟩ := h
  refine ⟨info.dpRank.toNat * info.dstTpSize, ?_⟩
  unfold destinationRanks
  rw [if_pos hvalid, List.mem_range'_1]
  have hpos : 0 < info.dstTpSize := by
    refine Nat.div_pos ?_ (by omega)
    refine Nat.le_of_dvd hworld (Int.natCast_dvd_natCast.mp ?_)
    rw [Int.toNat_of_nonneg (by omega)]
    exact Int.dvd_of_emod_eq_zero hmod
  omega

theorem mem_uniqueTransferRequestIds {info : TransferKVInfo} (hmem : info ∈ infos) :
    info.requestId ∈ uniqueTransferRequestIds infos := by
  have hfrom : ∀ (todo : List TransferKVInfo) (seen : List String),
      (∀ x ∈ seen, x ∈ todo.foldl (fun requestIds info =>
        if info.requestId ∈ requestIds then requestIds else requestIds ++ [info.requestId]) seen) ∧
      ∀ info ∈ todo, info.requestId ∈ todo.foldl (fun requestIds info =>
        if info.requestId ∈ requestIds then requestIds else requestIds ++ [info.requestId]) seen := by
    intro todo
    induction todo with
    | nil => exact fun seen => ⟨fun _ h => h, nofun⟩
    | cons head todo ih =>
      intro seen
      obtain ⟨hseen, htodo⟩ := ih
        (if head.requestId ∈ seen then seen else seen ++ [head.requestId])
      refine ⟨fun x hx => hseen x ?_, fun info hinfo => ?_⟩
      · split
        · exact hx
        · exact mem_append_left _ hx
      · rcases mem_cons.mp hinfo with rfl | htail
        · refine hseen _ ?_
          split
          · rename_i hold
            exact hold
          · exact mem_append_right _ (mem_singleton_self _)
        · exact htodo info htail
  exact (hfrom infos []).2 info hmem

theorem reported_of_refused {info : TransferKVInfo} (hmem : info ∈ infos) :
    Reported (failedTasksForRequests infos) info.requestId := by
  have hid := mem_uniqueTransferRequestIds hmem
  unfold failedTasksForRequests
  rw [if_neg fun hnone => by rw [hnone] at hid; exact nomatch hid]
  exact ⟨_, mem_singleton_self _, rfl, hid⟩

theorem lookup_of_mem {merged : MergedKvInfos} (hkeys : (merged.map Prod.fst).Nodup)
    {entry : String × KVCacheInfo} (hmem : entry ∈ merged) :
    merged.lookup entry.1 = some entry.2 := by
  induction merged with
  | nil => exact nomatch hmem
  | cons head merged ih =>
    obtain ⟨hhead, htail⟩ := nodup_cons.mp hkeys
    rcases mem_cons.mp hmem with rfl | hmem
    · rw [lookup_cons, beq_self_eq_true]
    · have hne : (entry.1 == head.1) = false := by
        refine beq_false_of_ne fun heq => hhead ?_
        rw [← heq]
        exact mem_map_of_mem hmem
      rw [lookup_cons, hne]
      exact ih htail hmem

theorem pushKvBlocksAsync_eq {Region : Type} (env : PushEnv Region) {merged : MergedKvInfos}
    (hmerge : mergeForPush srcCpIndexWriteMode infos kvSplitRank kvSplitSize = some merged) :
    pushKvBlocksAsync env srcCpIndexWriteMode layout infos kvSplitRank kvSplitSize =
      if merged = [] then .ok ([], [])
      else pushKvBlocks env layout merged kvSplitRank kvSplitSize := by
  unfold pushKvBlocksAsync
  rw [hmerge]
  cases merged with
  | nil => rfl
  | cons entry merged => rfl

theorem pushKvBlocks_spec {Region : Type} (env : PushEnv Region)
    (hwalk : ∀ keys, (env.walk keys).Perm keys) {merged : MergedKvInfos}
    (hkeys : (merged.map Prod.fst).Nodup) {results : List KVTransferTaskResult}
    {written : List (Nat × String)}
    (h : pushKvBlocks env layout merged kvSplitRank kvSplitSize = .ok (results, written)) :
    layout.registered = true ∧
    (∀ layer key, (layer, key) ∈ written → LayerWritten env merged layer key) ∧
    ∀ entry ∈ merged, ∀ layer < layout.numLayers, (layer, entry.1) ∉ written →
      ∀ requestId ∈ entry.2.requestIds, Reported results requestId := by
  unfold pushKvBlocks at h
  by_cases hregistered : layout.registered = true
  · rw [if_neg (not_not.mpr hregistered)] at h
    dsimp only at h
    generalize hwalked : (if kvSplitSize > 1 then
      rotateDstRank (env.walk (merged.map Prod.fst)) kvSplitRank
      else env.walk (merged.map Prod.fst)) = keys at h
    have hmem : ∀ key ∈ merged.map Prod.fst, key ∈ keys := by
      intro key hkey
      have hwalkedKey := (hwalk (merged.map Prod.fst)).mem_iff.mpr hkey
      rw [← hwalked]
      split
      · exact mem_rotateDstRank hwalkedKey kvSplitRank
      · exact hwalkedKey
    obtain ⟨hsettled, hsound⟩ := pushLayers_settled env merged keys layout.numLayers
    obtain ⟨rfl, rfl⟩ := Prod.mk.inj (Except.ok.inj h)
    refine ⟨hregistered, fun layer key hwritten => hsound (layer, key) hwritten, ?_⟩
    intro entry hentry layer hlt hmissing requestId hrequest
    have hkey := hmem entry.1 (mem_map_of_mem hentry)
    rcases hsettled entry.1 hkey with hfailed | hall
    · refine ⟨_, mem_map.mpr ⟨entry.1, mem_filter.mpr ⟨hkey, ?_⟩, rfl⟩, rfl, ?_⟩
      · exact decide_eq_true hfailed
      · rw [lookup_of_mem hkeys hentry]
        exact hrequest
    · exact absurd (hall layer hlt) hmissing
  · rw [if_pos hregistered] at h
    cases h

/-- A batch that meets the condition is pushed loudly, whatever the engine answers. -/
theorem pushHolds_of_condition {Region : Type} (env : PushEnv Region)
    (hwalk : ∀ keys, (env.walk keys).Perm keys) (hr : kvSplitRank < kvSplitSize)
    (h : PushCondition srcCpIndexWriteMode layout infos kvSplitRank kvSplitSize) :
    PushHolds env srcCpIndexWriteMode layout infos kvSplitRank kvSplitSize := by
  by_cases haccepted : Accepted srcCpIndexWriteMode infos kvSplitSize
  · have hmerge := @mergeForPush_eq_some srcCpIndexWriteMode infos kvSplitRank kvSplitSize haccepted
    have hspec := mergeKvBlocks_spec (@rankParts_aligned infos kvSplitRank kvSplitSize haccepted.2)
    have hrun := @pushKvBlocksAsync_eq _ layout _ _ _ _ env _ hmerge
    have hcondition := h.resolve_left (not_not.mpr haccepted)
    -- a request with a pair and a valid destination has an entry in the map
    have hentry : ∀ info ∈ infos, HasPair kvSplitRank kvSplitSize info →
        ∀ dstRank ∈ destinationRanks info,
        ∃ entry ∈ mergeKvBlocks (rankParts kvSplitRank kvSplitSize infos),
          entry.1 = arrivalKey (info, dstRank) ∧ info.requestId ∈ entry.2.requestIds := by
      intro info hinfo hpair dstRank hdst
      have harrival := mem_arrivals_of_hasPair hr hinfo hpair hdst
      obtain ⟨entry, hentry, hkey⟩ := mem_map.mp (hspec.arrived _ harrival)
      have hsame : arrivalKey (rankPart kvSplitRank kvSplitSize info, dstRank) =
          arrivalKey (info, dstRank) := by
        unfold arrivalKey
        rw [destinationOf_rankPart]
      have hrequest := (hspec.entries entry hentry).requests _ harrival hkey.symm
      rw [rankPart_requestId] at hrequest
      exact ⟨entry, hentry, hkey.trans hsame, hrequest⟩
    refine ⟨fun hnone => ?_, fun merged hmerged => ?_, fun message hstop info hinfo hpair => ?_,
      fun merged results written hmerged hok => ?_⟩
    · rw [hmerge] at hnone
      cases hnone
    · rw [hmerge] at hmerged
      cases hmerged
      exact exactPush_of_accepted hr haccepted.2
    · rw [hrun] at hstop
      split at hstop
      · cases hstop
      · have hregistered : layout.registered = true := by
          rcases hcondition with hempty | hall
          · exact hempty.1
          · exact (hall info hinfo hpair).2
        unfold pushKvBlocks at hstop
        rw [if_neg (not_not.mpr hregistered)] at hstop
        cases hstop
    · rw [hmerge] at hmerged
      cases hmerged
      rw [hrun] at hok
      split at hok
      · rename_i hempty
        cases hok
        refine ⟨nofun, fun info hinfo hpair hunwritten => ?_⟩
        rcases hcondition with hlayers | hall
        · rcases hunwritten with hregistered | ⟨layer, hlt, -⟩
          · rw [hlayers.1] at hregistered
            cases hregistered
          · rw [hlayers.2] at hlt
            exact absurd hlt (Nat.not_lt_zero _)
        · obtain ⟨dstRank, hdst⟩ := destinationRanks_pos (hall info hinfo hpair).1
          obtain ⟨entry, hmem, -⟩ := hentry info hinfo hpair dstRank hdst
          rw [hempty] at hmem
          exact nomatch hmem
      · obtain ⟨hregistered, hsound, hloud⟩ := pushKvBlocks_spec env hwalk hspec.keys hok
        refine ⟨hsound, fun info hinfo hpair hunwritten => ?_⟩
        rcases hunwritten with hmissing | ⟨layer, hlt, hnone | ⟨dstRank, hdst, hwritten⟩⟩
        · rw [hregistered] at hmissing
          cases hmissing
        · rcases hcondition with hlayers | hall
          · rw [hlayers.2] at hlt
            exact absurd hlt (Nat.not_lt_zero _)
          · obtain ⟨dstRank, hdst⟩ := destinationRanks_pos (hall info hinfo hpair).1
            rw [hnone] at hdst
            exact nomatch hdst
        · obtain ⟨entry, hmem, hkey, hrequest⟩ := hentry info hinfo hpair dstRank hdst
          rw [← hkey] at hwritten
          exact hloud entry hmem layer hlt hwritten info.requestId hrequest
  · have hmerge := @mergeForPush_eq_none srcCpIndexWriteMode infos kvSplitRank kvSplitSize haccepted
    have hrun : pushKvBlocksAsync env srcCpIndexWriteMode layout infos kvSplitRank kvSplitSize =
        .ok (failedTasksForRequests infos, []) := by
      unfold pushKvBlocksAsync
      rw [hmerge]
    refine ⟨fun _ => ⟨_, _, hrun, fun info hinfo => reported_of_refused hinfo⟩,
      fun merged hmerged => ?_, fun message hstop => ?_, fun merged results written hmerged => ?_⟩
    · rw [hmerge] at hmerged
      cases hmerged
    · rw [hrun] at hstop
      cases hstop
    · rw [hmerge] at hmerged
      cases hmerged

def smoothEnv : PushEnv Unit :=
  { synchronizeLayer := fun _ => true
    bindOutgoingRegions := fun _ _ _ => some []
    moveMemoryRegions := fun _ _ _ => true
    walk := id }

theorem smoothEnv_reports_nothing {merged : MergedKvInfos} (hregistered : layout.registered = true) :
    ∃ written, pushKvBlocks smoothEnv layout merged kvSplitRank kvSplitSize = .ok ([], written) := by
  have hlayers : ∀ (keys : List String) (numLayers : Nat),
      ((List.range numLayers).foldl (pushLayer smoothEnv merged keys) {}).failedKeys = [] := by
    intro keys numLayers
    induction numLayers with
    | zero => rfl
    | succ numLayers ih =>
      rw [range_succ, foldl_append, foldl_cons, foldl_nil]
      generalize (List.range numLayers).foldl (pushLayer smoothEnv merged keys) {} = s at ih ⊢
      show (keys.foldl (pushKey smoothEnv merged numLayers) s).failedKeys = []
      induction keys generalizing s with
      | nil => exact ih
      | cons key keys ihKeys =>
        refine ihKeys _ ?_
        show (if key ∈ s.failedKeys then s
          else { s with written := s.written ++ [(numLayers, key)] }).failedKeys = []
        split
        · exact ih
        · exact ih
  unfold pushKvBlocks
  rw [if_neg (not_not.mpr hregistered)]
  dsimp only
  rw [hlayers]
  refine ⟨_, congrArg Except.ok (Prod.ext ?_ rfl)⟩
  rw [map_eq_nil_iff, filter_eq_nil_iff]
  intro key _
  simp

/-- A batch that does not meet it is pushed silently when everything else succeeds. -/
theorem condition_of_pushHolds
    (h : PushHolds smoothEnv srcCpIndexWriteMode layout infos kvSplitRank kvSplitSize) :
    PushCondition srcCpIndexWriteMode layout infos kvSplitRank kvSplitSize := by
  by_contra hnot
  obtain ⟨haccepted, hrest⟩ := not_or.mp hnot
  obtain ⟨hlayers, hinfos⟩ := not_or.mp hrest
  have hmerge := @mergeForPush_eq_some srcCpIndexWriteMode infos kvSplitRank kvSplitSize
    (not_not.mp haccepted)
  have hrun := @pushKvBlocksAsync_eq _ layout _ _ _ _ smoothEnv _ hmerge
  refine hinfos fun info hinfo hpair => ?_
  have hsilent : ∀ written, pushKvBlocksAsync smoothEnv srcCpIndexWriteMode layout infos kvSplitRank
      kvSplitSize = .ok ([], written) → ¬ Unwritten layout written info := by
    intro written hok hunwritten
    obtain ⟨result, hmem, -⟩ := (h.loud _ _ _ hmerge hok).2 info hinfo hpair hunwritten
    exact nomatch hmem
  cases hregistered : layout.registered with
  | false =>
    exfalso
    split at hrun
    · exact hsilent _ hrun (.inl hregistered)
    · have hstop : pushKvBlocks smoothEnv layout
          (mergeKvBlocks (rankParts kvSplitRank kvSplitSize infos)) kvSplitRank kvSplitSize =
          .error "KV cache is not registered." := by
        unfold pushKvBlocks
        rw [hregistered, if_pos (by simp)]
      exact h.stopped _ (hrun.trans hstop) info hinfo hpair
  | true =>
    refine ⟨?_, rfl⟩
    by_contra hvalid
    have hdestinations : destinationRanks info = [] := if_neg hvalid
    have hpos : 0 < layout.numLayers :=
      Nat.pos_of_ne_zero fun hzero => hlayers ⟨hregistered, hzero⟩
    split at hrun
    · exact hsilent _ hrun (.inr ⟨0, hpos, .inl hdestinations⟩)
    · obtain ⟨written, hok⟩ := @smoothEnv_reports_nothing layout kvSplitRank kvSplitSize
        (mergeKvBlocks (rankParts kvSplitRank kvSplitSize infos)) hregistered
      exact hsilent _ (hrun.trans hok) (.inr ⟨0, hpos, .inl hdestinations⟩)

end

/-- The ranks of a KV split push exactly, and report whatever was not written, for all answers of the
engine: exactly when each rank's batch meets the condition. -/
theorem kv_push_exact_and_loud_iff (srcCpIndexWriteMode : Int) (kvSplitSize : Nat)
    (layout : Nat → BufLayout) (infos : Nat → List TransferKVInfo) :
    (∀ kvSplitRank < kvSplitSize, ∀ (Region : Type) (env : PushEnv Region),
      (∀ keys, (env.walk keys).Perm keys) →
      PushHolds env srcCpIndexWriteMode (layout kvSplitRank) (infos kvSplitRank) kvSplitRank
        kvSplitSize) ↔
    ∀ kvSplitRank < kvSplitSize, PushCondition srcCpIndexWriteMode (layout kvSplitRank)
      (infos kvSplitRank) kvSplitRank kvSplitSize := by
  constructor
  · intro h kvSplitRank hr
    exact condition_of_pushHolds (h kvSplitRank hr Unit smoothEnv fun keys => List.Perm.refl keys)
  · intro h kvSplitRank hr Region env hwalk
    exact pushHolds_of_condition env hwalk hr (h kvSplitRank hr)

/-- A request for an instance of three workers that declares two DP groups. -/
def misroutedInfo : TransferKVInfo :=
  { requestId := "request"
    remoteInstanceInfo := { clusterIds := [1, 2, 3], addrs := ["a", "b", "c"], dpSize := 2 }
    mappings := [{ localIds := [4], remoteIds := [7] }] }

/-- The block is sent nowhere, and nothing is reported although nothing failed. -/
theorem misrouted_request_is_dropped :
    pushKvBlocksAsync smoothEnv 0 ⟨true, 1⟩ [misroutedInfo] 0 1 = .ok ([], []) ∧
    rankPairs 0 1 misroutedInfo 0 = [(4, 7)] ∧
    ¬ PushHolds smoothEnv 0 ⟨true, 1⟩ [misroutedInfo] 0 1 := by
  have hrun : pushKvBlocksAsync smoothEnv 0 ⟨true, 1⟩ [misroutedInfo] 0 1 = .ok ([], []) := by
    decide +kernel
  have hmerge : mergeForPush 0 [misroutedInfo] 0 1 = some [] := by decide +kernel
  have hpairs : rankPairs 0 1 misroutedInfo 0 = [(4, 7)] := by decide +kernel
  refine ⟨hrun, hpairs, fun h => ?_⟩
  have hpair : HasPair 0 1 misroutedInfo := ⟨0, by rw [hpairs]; exact cons_ne_nil _ _⟩
  have hunwritten : Unwritten ⟨true, 1⟩ [] misroutedInfo :=
    .inr ⟨0, Nat.zero_lt_one, .inl (by decide +kernel)⟩
  obtain ⟨result, hmem, -⟩ := (h.loud _ _ _ hmerge hrun).2 misroutedInfo
    (mem_singleton_self _) hpair hunwritten
  exact nomatch hmem

end Xllm.Framework
