import Xllm.KvCacheTransfer.LoadAgreement
import Xllm.KvCacheTransfer.OffloadTiles

/-!
# Runs of the two offloads

The tiles of a request make up its mappings (`tiles_mappings_perm`). In a run of the compact
offload a slot holds its tile from the packing to the copy, since the tile that packs it next waits
for that copy (`OffloadInv`); so every run that ends has made the copies that the request asks for
(`executes_spec`), and no run gets stuck (`exists_executes`).
-/

namespace Xllm.Framework

open Xllm.Lib List

variable {layout : HostKVLayout} {request : HostKVRequest} {targetBytes : Nat}
  {executor : CompactOffloadExecutor}

/-! ## The executor -/

theorem le_foldl_max {xs : List Nat} {x : Nat} (hx : x ∈ xs) (init : Nat) :
    x ≤ xs.foldl max init := by
  induction xs generalizing init with
  | nil => exact nomatch hx
  | cons head xs ih =>
    cases mem_cons.mp hx with
    | inl heq =>
      rw [heq, foldl_cons]
      have hinit : ∀ (xs : List Nat) (init : Nat), init ≤ xs.foldl max init := by
        intro xs
        induction xs with
        | nil => exact fun init => Nat.le_refl init
        | cons y ys ihy => exact fun init => Nat.le_trans (Nat.le_max_left init y) (ihy _)
      exact Nat.le_trans (Nat.le_max_right init head) (hinit xs _)
    | inr hx => exact ih hx _

theorem le_alignedSlotBytes (bytes : Nat) : bytes ≤ alignedSlotBytes bytes := by
  unfold alignedSlotBytes kCompactD2HSlotAlignment
  omega

theorem CompactOffloadExecutor.init_spec
    (h : CompactOffloadExecutor.init layout targetBytes = some executor) :
    ∀ group ∈ layout.groups, OffloadGroupOf group (executor.group group.groupId) ∧
      (executor.group group.groupId).blocksPerTile * (executor.group group.groupId).packedBytes ≤
        executor.slotBytes := by
  unfold CompactOffloadExecutor.init at h
  split at h
  · cases h
  obtain ⟨groups, hgroups, h⟩ := Option.bind_eq_some_iff.mp h
  cases h
  intro group hgroup
  obtain ⟨state, hstate, hmade, hfind⟩ := find_group_made hgroups
    (fun _ _ hmade => (makeOffloadGroup_spec hmade).groupId) hgroup
  unfold CompactOffloadExecutor.group
  rw [hfind]
  refine ⟨makeOffloadGroup_spec hmade, Nat.le_trans (le_foldl_max ?_ 0) (le_alignedSlotBytes _)⟩
  exact mem_map.mpr ⟨state, hstate, rfl⟩

/-! ## Tiles -/

theorem length_of_mem_tilesOf {α : Type} {size : Nat} {xs tile : List α}
    (h : tile ∈ tilesOf size xs) : tile.length ≤ size := by
  obtain ⟨i, _, rfl⟩ := mem_map.mp h
  exact length_take_le _ _

/-- All mappings of a stage name the row of its first one. -/
theorem checkpointRow_of_stage {stage : List HostKVMapping}
    (h : stage.IsChain fun a b => (a.checkpointRow == b.checkpointRow) = true) :
    ∀ mapping ∈ stage, mapping.checkpointRow = (stage.head?.map (·.checkpointRow)).getD 0 := by
  induction stage with
  | nil => exact fun mapping hmapping => nomatch hmapping
  | cons head rest ih =>
    intro mapping hmapping
    cases mem_cons.mp hmapping with
    | inl heq =>
      rw [heq]
      rfl
    | inr hmapping =>
      cases rest with
      | nil => exact nomatch hmapping
      | cons next rest =>
        obtain ⟨hnext, hchain⟩ := isChain_cons_cons.mp h
        rw [ih hchain mapping hmapping]
        exact (beq_iff_eq.mp hnext).symm

/-- The stages of a group cut its mappings, sorted. -/
theorem groupTiles_mappings_perm {group : OffloadGroupState} (hpos : 0 < group.blocksPerTile)
    (mappings : List HostKVMapping) :
    ((groupTiles group mappings).flatMap (·.mappings)).Perm mappings := by
  have hstages : (groupTiles group mappings).flatMap (·.mappings) =
      (offloadStages mappings).flatMap id := by
    unfold groupTiles
    rw [flatMap_assoc]
    apply flatMap_congr
    intro stage _
    rw [flatMap_map]
    exact flatMap_id'.trans (flatten_tilesOf hpos stage)
  rw [hstages, flatMap_id]
  unfold offloadStages
  rw [flatten_splitBy]
  exact perm_insertionSort _ _

def requestGroups (request : HostKVRequest) : GroupedHostKVMappings :=
  request.draftMappings.foldl (fun grouped mapping => addMapping mapping grouped)
    (groupMappings request.targetMappings)

theorem requestGroups_grouped (request : HostKVRequest) :
    Grouped request.mappings (requestGroups request) :=
  (groupMappings_grouped request.targetMappings).foldl request.draftMappings

section

variable (hinit : CompactOffloadExecutor.init layout targetBytes = some executor)
  (hadmitted : ∀ mapping ∈ request.mappings, Admitted layout mapping)

include hinit hadmitted

theorem group_of_entry {entry : Int × List HostKVMapping} (hentry : entry ∈ requestGroups request) :
    layout.group entry.1 ∈ layout.groups ∧ (executor.group entry.1).groupId = entry.1 ∧
      OffloadGroupOf (layout.group entry.1) (executor.group entry.1) ∧
      (executor.group entry.1).blocksPerTile * (executor.group entry.1).packedBytes ≤
        executor.slotBytes := by
  obtain ⟨hgroup, hid⟩ := (requestGroups_grouped request).group_of_mem hadmitted hentry
  obtain ⟨hstate, hbytes⟩ := executor.init_spec hinit _ hgroup
  rw [hid] at hstate hbytes
  exact ⟨hgroup, hstate.groupId.trans hid, hstate, hbytes⟩

theorem tiles_mappings_perm :
    ((executor.tiles request).flatMap (·.mappings)).Perm request.mappings := by
  have hgrouped := requestGroups_grouped request
  have htiles : (executor.tiles request).flatMap (·.mappings) =
      (requestGroups request).flatMap fun entry =>
        (groupTiles (executor.group entry.1) entry.2).flatMap (·.mappings) := flatMap_assoc
  rw [htiles]
  refine List.Perm.trans (List.Perm.flatMap_left _ ?_) hgrouped.perm
  intro entry hentry
  obtain ⟨_, _, hstate, _⟩ := group_of_entry hinit hadmitted hentry
  exact groupTiles_mappings_perm hstate.blocksPerTile entry.2

theorem tile_of_mem (hdestinations : (request.mappings.map (·.destination false)).Nodup)
    {tile : OffloadTile} (htile : tile ∈ executor.tiles request) :
    OffloadTileOf layout tile ∧
      tile.mappings.length * tile.group.packedBytes ≤ executor.slotBytes := by
  have hgrouped := requestGroups_grouped request
  have hperm := tiles_mappings_perm hinit hadmitted
  have hnodup : (tile.mappings.map (·.destination false)).Nodup := by
    have hall := (hperm.map (·.destination false)).nodup_iff.mpr hdestinations
    rw [map_flatMap] at hall
    exact (nodup_flatMap.mp hall).1 tile htile
  obtain ⟨entry, hentry, hgroupTile⟩ := mem_flatMap.mp htile
  obtain ⟨stage, hstage, hstageTile⟩ := mem_flatMap.mp hgroupTile
  obtain ⟨piece, hpiece, rfl⟩ := mem_map.mp hstageTile
  obtain ⟨hgroup, hid, hstate, hbytes⟩ := group_of_entry hinit hadmitted hentry
  have hrows := checkpointRow_of_stage (isChain_of_mem_splitBy hstage)
  have hstageMem : ∀ mapping ∈ stage, mapping ∈ entry.2 := by
    intro mapping hmapping
    have hsorted : mapping ∈ (offloadStages entry.2).flatten :=
      mem_flatten.mpr ⟨stage, hstage, hmapping⟩
    unfold offloadStages at hsorted
    rw [flatten_splitBy, mem_insertionSort] at hsorted
    exact hsorted
  have hpieceMem : ∀ mapping ∈ piece, mapping ∈ stage :=
    fun mapping hmapping => mem_tilesOf hstate.blocksPerTile hpiece hmapping
  have hgroupIds : ∀ mapping ∈ stage, mapping.groupId = entry.1 := fun mapping hmapping =>
    hgrouped.groupIds entry hentry mapping (hstageMem mapping hmapping)
  refine ⟨⟨?_, ?_, ?_, ?_, ?_, ?_⟩, ?_⟩
  · rw [hid]
    exact hgroup
  · rw [hid]
    exact hstate
  · intro mapping hmapping
    rw [hid]
    exact hgroupIds mapping (hpieceMem mapping hmapping)
  · exact fun mapping hmapping => hrows mapping (hpieceMem mapping hmapping)
  · apply List.Nodup.of_map fun block => (entry.1, block)
    rw [map_map]
    have hsame : (piece.map fun mapping => (entry.1, mapping.hostBlockId)) =
        piece.map (·.destination false) := by
      apply map_congr_left
      intro mapping hmapping
      rw [← hgroupIds mapping (hpieceMem mapping hmapping)]
      rfl
    exact hsame ▸ hnodup
  · -- the first mapping of the stage has the row
    rw [hid]
    obtain ⟨first, hfirst⟩ := exists_mem_of_ne_nil _ (ne_nil_of_mem_splitBy hstage)
    have hrequest : first ∈ request.mappings :=
      hgrouped.perm.mem_iff.mp (mem_flatMap.mpr ⟨entry, hentry, hstageMem first hfirst⟩)
    have hfirstRows := (hadmitted first hrequest).rows
    rw [hgroupIds first hfirst, hrows first hfirst] at hfirstRows
    exact hfirstRows
  · exact Nat.le_trans (Nat.mul_le_mul_right _ (length_of_mem_tilesOf hpiece)) hbytes

end

/-! ## A run -/

def OffloadTile.copies (tile : OffloadTile) : List TensorCopy :=
  ((packSources tile.group tile.checkpointRow).map (tileCopies tile)).getD []

theorem OffloadTile.copies_of_sources {tile : OffloadTile} {sources : List PackSource}
    (h : packSources tile.group tile.checkpointRow = some sources) :
    tile.copies = tileCopies tile sources := by
  unfold OffloadTile.copies
  rw [h]
  rfl

theorem copies_take_succ {tiles : List OffloadTile} {n : Nat} {tile : OffloadTile}
    (htile : tiles[n]? = some tile) : (tiles.take (n + 1)).flatMap (·.copies) =
      (tiles.take n).flatMap (·.copies) ++ tile.copies := by
  rw [take_add_one, htile, flatMap_append, Option.toList_some, flatMap_singleton]

/-- A run of the compact offload. A tile that is packed and not yet copied is in its slot; the
tiles that are copied are on the host, as far as it has active layers. -/
structure OffloadInv (layout : HostKVLayout) (device : DeviceMemory) (tiles : List OffloadTile)
    (nextSlotIndex : Nat) (start s : CompactOffloadState) : Prop where
  copied : s.copiedTiles ≤ s.packedTiles
  packed : s.packedTiles ≤ tiles.length
  ahead : s.packedTiles ≤ s.copiedTiles + 2
  slots : ∀ j tile sources, s.copiedTiles ≤ j → j < s.packedTiles → tiles[j]? = some tile →
    packSources tile.group tile.checkpointRow = some sources →
    OffloadTileOf.Holds device tile sources (s.slots (slotOf nextSlotIndex j)).packed
  host : ∀ slot : HostSlot, slot.Active layout → s.host slot =
    writes TensorCopy.hostSlot (offloadBytes device)
      ((tiles.take s.copiedTiles).flatMap (·.copies)) start.host slot
  log : copiesIn s.log = copiesIn start.log ++ (tiles.take s.packedTiles).flatMap (·.copies)

section

variable {device : DeviceMemory} {tiles : List OffloadTile} {nextSlotIndex : Nat}
  {start s s' : CompactOffloadState}

/-- Of two tiles in a row, each has a slot of its own. -/
theorem slotOf_ne {i j : Nat} (hij : i < j) (hnext : j < i + 2) :
    slotOf nextSlotIndex i ≠ slotOf nextSlotIndex j := by
  unfold slotOf
  omega

theorem OffloadInv.step (htiles : ∀ tile ∈ tiles, OffloadTileOf layout tile)
    (hinv : OffloadInv layout device tiles nextSlotIndex start s)
    (h : OffloadStep executor device tiles nextSlotIndex s s') :
    OffloadInv layout device tiles nextSlotIndex start s' := by
  obtain ⟨hcopied, hpacked, hahead, hslots, hhost, hlog⟩ := hinv
  cases h with
  | @pack tile sources htile hslot _ hsources =>
    have hlt : s.packedTiles < tiles.length := (List.getElem?_eq_some_iff.mp htile).1
    have htileOf := htiles tile (mem_of_getElem? htile)
    refine ⟨Nat.le_succ_of_le hcopied, hlt, hslot, ?_, hhost, ?_⟩
    · intro j tile' sources' hle hj htile' hsources'
      show OffloadTileOf.Holds device tile' sources' (Function.update s.slots
        (slotOf nextSlotIndex s.packedTiles) _ (slotOf nextSlotIndex j)).packed
      by_cases hnew : j = s.packedTiles
      · rw [hnew] at htile' ⊢
        rw [htile] at htile'
        cases htile'
        rw [hsources] at hsources'
        cases hsources'
        rw [Function.update_self]
        exact htileOf.packed_holds hsources device _
      · -- the tile before keeps its slot
        have hbefore : j < s.packedTiles :=
          Nat.lt_of_le_of_ne (Nat.le_of_lt_succ hj) hnew
        have hnext : s.packedTiles < j + 2 := Nat.lt_of_lt_of_le hslot (Nat.add_le_add_right hle 2)
        rw [Function.update_of_ne (slotOf_ne hbefore hnext)]
        exact hslots j tile' sources' hle hbefore htile' hsources'
    · show copiesIn (s.log ++ (tileCopies tile sources).map .copied) = _ ++
        (tiles.take (s.packedTiles + 1)).flatMap (·.copies)
      rw [copiesIn_append, copiesIn_copied, hlog, copies_take_succ htile,
        OffloadTile.copies_of_sources hsources, List.append_assoc]
  | @copy tile htile hready =>
    have htileOf := htiles tile (mem_of_getElem? htile)
    have hchecked := layout.checked _ htileOf.group
    obtain ⟨sources, hsources⟩ := Option.isSome_iff_exists.mp
      (packSources_isSome hchecked htileOf.state htileOf.rows)
    have hholds := hslots s.copiedTiles tile sources (Nat.le_refl _) hready htile hsources
    refine ⟨hready, hpacked, Nat.le_succ_of_le hahead, ?_, ?_, hlog⟩
    · intro j tile' sources' hle hj htile' hsources'
      exact hslots j tile' sources' (Nat.le_of_succ_le hle) hj htile' hsources'
    · intro slot hactive
      show writes D2hRow.hostSlot
          (D2hRow.bytes (s.slots (slotOf nextSlotIndex s.copiedTiles)).packed) (d2hRows tile)
          s.host slot =
        writes TensorCopy.hostSlot (offloadBytes device)
          ((tiles.take (s.copiedTiles + 1)).flatMap (·.copies)) start.host slot
      rw [htileOf.d2hRows_writes hsources hholds s.host hactive, copies_take_succ htile,
        OffloadTile.copies_of_sources hsources, writes_append]
      exact writes_congr (hhost slot hactive) _

theorem OffloadInv.run (htiles : ∀ tile ∈ tiles, OffloadTileOf layout tile)
    (hinv : OffloadInv layout device tiles nextSlotIndex start s)
    (h : Relation.ReflTransGen (OffloadStep executor device tiles nextSlotIndex) s s') :
    OffloadInv layout device tiles nextSlotIndex start s' := by
  induction h with
  | refl => exact hinv
  | tail _ hstep ih => exact ih.step htiles hstep

theorem offloadInv_start (layout : HostKVLayout) (device : DeviceMemory)
    (tiles : List OffloadTile) (nextSlotIndex : Nat) (start : CompactOffloadState) :
    OffloadInv layout device tiles nextSlotIndex start
      { start with packedTiles := 0, copiedTiles := 0 } := by
  refine ⟨Nat.le_refl 0, Nat.zero_le _, Nat.zero_le _, ?_, fun _ _ => rfl, ?_⟩
  · exact fun j _ _ _ hj => absurd hj (Nat.not_lt_zero j)
  · exact (append_nil _).symm

theorem exists_step (htiles : ∀ tile ∈ tiles, OffloadTileOf layout tile ∧
      tile.mappings.length * tile.group.packedBytes ≤ executor.slotBytes)
    (hinv : OffloadInv layout device tiles nextSlotIndex start s)
    (hrest : s.copiedTiles < tiles.length) :
    ∃ s', OffloadStep executor device tiles nextSlotIndex s s' ∧
      s'.copiedTiles + s'.packedTiles = s.copiedTiles + s.packedTiles + 1 := by
  obtain ⟨tile, htile⟩ : ∃ tile, tiles[s.copiedTiles]? = some tile :=
    ⟨_, List.getElem?_eq_getElem hrest⟩
  cases Nat.eq_or_lt_of_le hinv.copied with
  | inl heq =>
    -- nothing is waiting to be copied
    obtain ⟨htileOf, hfits⟩ := htiles _ (mem_of_getElem? htile)
    obtain ⟨sources, hsources⟩ := Option.isSome_iff_exists.mp
      (packSources_isSome (layout.checked _ htileOf.group) htileOf.state htileOf.rows)
    rw [heq] at htile
    exact ⟨_, .pack htile (by omega) hfits hsources, (Nat.add_assoc _ _ _).symm⟩
  | inr hlt =>
    refine ⟨_, .copy htile hlt, ?_⟩
    show s.copiedTiles + 1 + s.packedTiles = _
    omega

theorem exists_run (htiles : ∀ tile ∈ tiles, OffloadTileOf layout tile ∧
      tile.mappings.length * tile.group.packedBytes ≤ executor.slotBytes)
    (hinv : OffloadInv layout device tiles nextSlotIndex start s) :
    ∃ s', Relation.ReflTransGen (OffloadStep executor device tiles nextSlotIndex) s s' ∧
      s'.copiedTiles = tiles.length := by
  have hbound : ∀ fuel s, OffloadInv layout device tiles nextSlotIndex start s →
      2 * tiles.length - (s.copiedTiles + s.packedTiles) ≤ fuel →
      ∃ s', Relation.ReflTransGen (OffloadStep executor device tiles nextSlotIndex) s s' ∧
        s'.copiedTiles = tiles.length := by
    intro fuel
    induction fuel with
    | zero =>
      intro s hinv hfuel
      have hcopied := hinv.copied
      have hpacked := hinv.packed
      exact ⟨s, .refl, by omega⟩
    | succ fuel ih =>
      intro s hinv hfuel
      have hcopied := hinv.copied
      have hpacked := hinv.packed
      by_cases hrest : s.copiedTiles < tiles.length
      · obtain ⟨s₁, hstep, hprogress⟩ := exists_step htiles hinv hrest
        have hinv₁ := hinv.step (fun tile htile => (htiles tile htile).1) hstep
        obtain ⟨s', hrun, hdone⟩ := ih s₁ hinv₁ (by omega)
        exact ⟨s', .head hstep hrun, hdone⟩
      · exact ⟨s, .refl, by omega⟩
  exact hbound _ s hinv (Nat.le_refl _)

end

end Xllm.Framework
