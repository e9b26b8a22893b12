import Xllm.KvCacheTransfer.HeadRegions

/-!
# Resharding key and value heads

The sources are the tensor-parallel ranks of one instance and the destination is one rank of
another, with its own tensor-parallel size. `reshard_lossless` says that the plans of the sources
together write every byte of the destination's resource exactly once, and that each byte of a head
comes from the byte of the same global head, token and offset of the rank that owns the head.

The plans' writes are, tensor by tensor, the overlaps of regions (`planWrites_perm`). Read region by
region of the destination they are the bytes that the head's owner holds (`collapse_cell`), and the
regions of the destination are its physical bytes (`ValidTensor.perm_physical`).
-/

namespace Xllm.Framework

open Xllm.Lib List

/-- The ranks of a source instance, a destination, and the plans between them. -/
structure ReshardLink (globalHeads tokens bytesPerHead tpSize : Nat) (mode : Int)
    (source : Nat → WorkerCacheLayoutManifest) (sourceLayout : Nat → HeadLayout)
    (destination : WorkerCacheLayoutManifest) (destinationLayout : HeadLayout)
    (plan : Nat → ReshardPlanTemplate) : Prop where
  ranks : 0 < tpSize
  sourceHeads : ∀ s < tpSize, CarriesHeads globalHeads tokens bytesPerHead (source s) (sourceLayout s)
  rank : ∀ s < tpSize, (source s).coordinates.tpRank = s
  size : ∀ s < tpSize, (source s).coordinates.tpSize = tpSize
  destinationHeads : CarriesHeads globalHeads tokens bytesPerHead destination destinationLayout
  sameTensor : ∀ s < tpSize,
    tensorKey (sourceLayout s).tensor = tensorKey destinationLayout.tensor
  /-- The plans are filtered by the declared owner: a source whose KV split spans all ranks writes
  everything it holds, which is the same for a single rank only. -/
  declared : ∀ s < tpSize, kvSplitSpansCpAndTp (source s).coordinates → tpSize = 1
  plans : ∀ s < tpSize, buildOutgoingPlan (source s) destination false mode = .ok (plan s)

section

variable {globalHeads tokens bytesPerHead tpSize : Nat} {mode : Int}
  {source : Nat → WorkerCacheLayoutManifest} {sourceLayout : Nat → HeadLayout}
  {destination : WorkerCacheLayoutManifest} {destinationLayout : HeadLayout}
  {plan : Nat → ReshardPlanTemplate}

theorem role_eq_of_value {role role' : KVCacheTensorRole} (h : role = .KEY ∨ role = .VALUE)
    (h' : role' = .KEY ∨ role' = .VALUE) (hvalue : role.value = role'.value) : role = role' := by
  rcases h with rfl | rfl <;> rcases h' with rfl | rfl
  · rfl
  · exact absurd hvalue (by decide)
  · exact absurd hvalue (by decide)
  · rfl

theorem CarriesHeads.not_indexRole
    (h : CarriesHeads globalHeads tokens bytesPerHead destination destinationLayout) :
    ¬ IndexRole destinationLayout.key.role := by
  show ¬ IndexRole destinationLayout.tensor.role
  rw [h.roleValue]
  rcases h.role with hrole | hrole
  · rw [hrole]
    rintro (h | h)
    · exact absurd h (by decide)
    · exact absurd h (by decide)
  · rw [hrole]
    rintro (h | h)
    · exact absurd h (by decide)
    · exact absurd h (by decide)

namespace ReshardLink

variable (h : ReshardLink globalHeads tokens bytesPerHead tpSize mode source sourceLayout destination
  destinationLayout plan)
include h

theorem key_eq {s : Nat} (hs : s < tpSize) : (sourceLayout s).key = destinationLayout.key := by
  have hkey := h.sameTensor s hs
  injection hkey with hnamespace hkey
  injection hkey with hlayer hkey
  injection hkey with hrole hgroup
  have hsource := h.sourceHeads s hs
  have hroles : (sourceLayout s).cacheTensor.role = destinationLayout.cacheTensor.role := by
    refine role_eq_of_value hsource.role h.destinationHeads.role ?_
    rw [← hsource.roleValue, ← h.destinationHeads.roleValue, hrole]
  rw [HeadLayout.key, HeadLayout.key, hnamespace, hlayer, hrole, hgroup, hroles]

theorem writes_source {s : Nat} (hs : s < tpSize) :
    (planWrites destinationLayout.key (plan s)).Perm
      ((expandTensor (sourceLayout s).tensor (sourceWriters (source s).coordinates) s).flatMap
        fun l => (expandTensor destinationLayout.tensor SpanWriters.everything
            destination.coordinates.tpRank).flatMap
          fun r => if overlaps l r then atomWrites s (planOverlap l r).region else []) := by
  obtain ⟨hvalid, hvalid', -⟩ := validLayouts_of_buildOutgoingPlan (h.plans s hs)
  have hsource := h.sourceHeads s hs
  have hperm := planWrites_perm (h.plans s hs) h.destinationHeads.not_indexRole
  have hrank : destination.coordinates.tpRank = (destination.coordinates.tpRank.toNat : Int) :=
    (Int.toNat_of_nonneg hvalid'.tpRank).symm
  have hsize : destination.coordinates.tpSize = (destination.coordinates.tpSize.toNat : Int) :=
    (Int.toNat_of_nonneg (le_of_lt hvalid'.tpSize)).symm
  have hleft : (expandManifest (source s) (sourceWriters (source s).coordinates)).filter
      (logicalTensorKey · = destinationLayout.key) =
        expandTensor (sourceLayout s).tensor (sourceWriters (source s).coordinates) s := by
    rw [← h.key_eq hs, ← h.rank s hs]
    exact filter_expandManifest hvalid hsource.mem
      (hsource.logicalTensor_eq (h.rank s hs) (h.size s hs)) _
  have hright : (expandManifest destination SpanWriters.everything).filter
      (logicalTensorKey · = destinationLayout.key) =
        expandTensor destinationLayout.tensor SpanWriters.everything
          destination.coordinates.tpRank :=
    filter_expandManifest hvalid' h.destinationHeads.mem
      (h.destinationHeads.logicalTensor_eq hrank hsize) _
  simp only [Bool.false_eq_true, if_false] at hperm
  rw [hleft, hright, h.rank s hs] at hperm
  refine hperm.trans (List.Perm.of_eq (flatMap_congr fun l _ => ?_))
  generalize expandTensor destinationLayout.tensor _ _ = regions
  induction regions with
  | nil => rfl
  | cons r regions ih =>
    rw [filter_cons, flatMap_cons, ← ih]
    split
    · rw [flatMap_cons]
    · rw [nil_append]

theorem placement {s : Nat} (hs : s < tpSize) :
    Placement globalHeads (sourceLayout s).heads s tpSize ((sourceLayout s).firstHead globalHeads)
      ((sourceLayout s).replicas globalHeads) :=
  ((h.sourceHeads s hs).spans_eq (h.rank s hs) (h.size s hs)).2.1

theorem destination_lt (hvalid : ValidLayout destination) {head : Nat}
    (hhead : head < destinationLayout.heads) :
    destinationLayout.firstHead globalHeads + head < globalHeads := by
  obtain ⟨hrank, hplace, -⟩ := h.destinationHeads.spans_eq
    (Int.toNat_of_nonneg hvalid.tpRank).symm (Int.toNat_of_nonneg (le_of_lt hvalid.tpSize)).symm
  exact hplace.lt hrank hhead

theorem bytesPerHead_pos (hvalid : ValidLayout destination) {head : Nat}
    (hhead : head < destinationLayout.heads) : 0 < bytesPerHead := by
  obtain ⟨-, -, hspans⟩ := h.destinationHeads.spans_eq
    (Int.toNat_of_nonneg hvalid.tpRank).symm (Int.toNat_of_nonneg (le_of_lt hvalid.tpSize)).symm
  refine (hvalid.tensors _ h.destinationHeads.mem).bytes
    (CarriesHeads.span destinationLayout globalHeads bytesPerHead head) ?_
  rw [hspans]
  exact mem_map_of_mem (mem_range.mpr hhead)

/-- Of all sources only the owner of a head has a region that meets the destination's region of the
head's token, and it has one. -/
theorem collapse_cell (hvalid : ValidLayout destination) {head token : Nat}
    (hhead : head < destinationLayout.heads) (htoken : token < tokens) :
    ∃ s < tpSize, ∃ k < (sourceLayout s).heads,
      (sourceLayout s).firstHead globalHeads + k =
          destinationLayout.firstHead globalHeads + head ∧
        ((List.range tpSize).flatMap fun s' =>
          (expandTensor (sourceLayout s').tensor (sourceWriters (source s').coordinates) s').flatMap
            fun l => if overlaps l (destinationLayout.cell globalHeads bytesPerHead head token) then
                atomWrites s' (planOverlap l
                  (destinationLayout.cell globalHeads bytesPerHead head token)).region
              else []) =
          (List.range bytesPerHead).map fun byte => ⟨s, (sourceLayout s).byteOf k token byte,
            destinationLayout.byteOf head token byte⟩ := by
  have hbytes := h.bytesPerHead_pos hvalid hhead
  have hlt := h.destination_lt hvalid hhead
  obtain ⟨s, hs, k, hk, heq, hown⟩ := owner_exists (fun s hs => h.placement hs) h.ranks hlt
  refine ⟨s, hs, k, hk, heq, ?_⟩
  have hexpand (s' : Nat) (hs' : s' < tpSize) :=
    (h.sourceHeads s' hs').expand_declared (h.rank s' hs') (h.size s' hs') (h.declared s' hs')
  have hmeets (s' : Nat) (hs' : s' < tpSize) {k' token' : Nat}
      (hk' : k' < (sourceLayout s').heads) :=
    @overlaps_cell globalHeads k' token' token (sourceLayout s') destinationLayout bytesPerHead head
      hbytes ((h.placement hs').lt hs' hk') hlt
  rw [flatMap_eq_single nodup_range (mem_range.mpr hs) fun s' hs' hne => ?_]
  · -- of the owner's regions only the one of the head and the token
    rw [hexpand s hs, flatMap_assoc,
      flatMap_eq_single (nodup_range.filter _) (mem_filter.mpr
        ⟨mem_range.mpr hk, decide_eq_true hown⟩) fun k' hk' hne => ?_]
    · rw [flatMap_map, flatMap_eq_single nodup_range (mem_range.mpr htoken)
        fun token' _ hne => ?_]
      · rw [if_pos ((hmeets s hs hk).mpr ⟨heq, rfl⟩)]
        exact atomWrites_cell s heq
      · exact if_neg fun hmeet => hne ((hmeets s hs hk).mp hmeet).2
    · have hk' := mem_range.mp (mem_filter.mp hk').1
      refine flatMap_eq_nil_iff.mpr fun l hl => ?_
      obtain ⟨token', -, rfl⟩ := mem_map.mp hl
      refine if_neg fun hmeet => hne ?_
      have := ((hmeets s hs hk').mp hmeet).1
      omega
  · -- another rank holds the head as a replica at most
    have hs' := mem_range.mp hs'
    rw [hexpand s' hs']
    refine flatMap_eq_nil_iff.mpr fun l hl => ?_
    obtain ⟨k', hk', hl⟩ := mem_flatMap.mp hl
    obtain ⟨hk', hown'⟩ := mem_filter.mp hk'
    obtain ⟨token', -, rfl⟩ := mem_map.mp hl
    refine if_neg fun hmeet => hne ?_
    have hsame := ((hmeets s' hs' (mem_range.mp hk')).mp hmeet).1
    exact (owner_unique (fun s hs => h.placement hs) hs' hs (mem_range.mp hk') hk
      (hsame.trans heq.symm) (of_decide_eq_true hown') hown).1

theorem writes_perm :
    ((List.range tpSize).flatMap fun s => planWrites destinationLayout.key (plan s)).Perm
      ((expandTensor destinationLayout.tensor SpanWriters.everything
          destination.coordinates.tpRank).flatMap fun r => (List.range tpSize).flatMap fun s =>
          (expandTensor (sourceLayout s).tensor (sourceWriters (source s).coordinates) s).flatMap
            fun l => if overlaps l r then atomWrites s (planOverlap l r).region else []) := by
  refine (List.Perm.flatMap_left _ fun s hs => ?_).trans (flatMap_swap_perm _ _ _)
  exact (h.writes_source (mem_range.mp hs)).trans (flatMap_swap_perm _ _ _)

end ReshardLink

/-- **Resharding is lossless.** The sources' plans together write every byte of the destination's
resource exactly once, and the byte of a head, token and offset is read from the byte of the same
global head, token and offset at the source it comes from. -/
theorem reshard_lossless
    (h : ReshardLink globalHeads tokens bytesPerHead tpSize mode source sourceLayout destination
      destinationLayout plan) :
    (((List.range tpSize).flatMap fun s => planWrites destinationLayout.key (plan s)).map
        (·.remoteByte)).Perm ((List.range destinationLayout.tensor.resourceStrideBytes).map
          (destinationLayout.tensor.storageOffsetBytes + ·)) ∧
      ∀ head < destinationLayout.heads, ∀ token < tokens, ∀ byte < bytesPerHead,
        ∃ s < tpSize, ∃ k < (sourceLayout s).heads,
          (sourceLayout s).firstHead globalHeads + k =
              destinationLayout.firstHead globalHeads + head ∧
            ⟨s, (sourceLayout s).byteOf k token byte, destinationLayout.byteOf head token byte⟩ ∈
              (List.range tpSize).flatMap fun s => planWrites destinationLayout.key (plan s) := by
  have hvalid := (validLayouts_of_buildOutgoingPlan (h.plans 0 h.ranks)).2.1
  have hrank := (Int.toNat_of_nonneg hvalid.tpRank).symm
  have hsize := (Int.toNat_of_nonneg (le_of_lt hvalid.tpSize)).symm
  have hregions := h.destinationHeads.expand_everything hrank hsize destination.coordinates.tpRank
  have hperm := h.writes_perm
  refine ⟨?_, fun head hhead token htoken byte hbyte => ?_⟩
  · -- what arrives, region by region, is the region
    refine (hperm.map _).trans ?_
    have hvalidTensor := hvalid.tensors _ h.destinationHeads.mem
    have hphysical := hvalidTensor.perm_physical.map (destinationLayout.tensor.storageOffsetBytes + ·)
    rw [← flatMap_expandSpan destinationLayout.tensor destinationLayout.tensor.shard.spans,
      ← expandTensor_everything _ destination.coordinates.tpRank] at hphysical
    refine (List.Perm.of_eq ?_).trans hphysical
    rw [map_flatMap, map_flatMap]
    refine flatMap_congr fun r hr => ?_
    rw [hregions] at hr
    obtain ⟨head, hhead, hr⟩ := mem_flatMap.mp hr
    obtain ⟨token, htoken, rfl⟩ := mem_map.mp hr
    obtain ⟨s, -, k, -, -, hcollapse⟩ :=
      h.collapse_cell hvalid (mem_range.mp hhead) (mem_range.mp htoken)
    rw [hcollapse, map_map, List.range'_eq_map_range, map_map]
    refine map_congr_left fun byte _ => ?_
    show destinationLayout.byteOf head token byte = _ + (head * _ + token * _ + byte)
    rw [HeadLayout.byteOf]
    omega
  · obtain ⟨s, hs, k, hk, heq, hcollapse⟩ := h.collapse_cell hvalid hhead htoken
    refine ⟨s, hs, k, hk, heq, hperm.mem_iff.mpr (mem_flatMap.mpr
      ⟨destinationLayout.cell globalHeads bytesPerHead head token, ?_, ?_⟩)⟩
    · rw [hregions]
      exact mem_flatMap.mpr ⟨head, mem_range.mpr hhead,
        mem_map_of_mem (mem_range.mpr htoken)⟩
    · rw [hcollapse]
      exact mem_map.mpr ⟨byte, mem_range.mpr hbyte, rfl⟩

end

/-! ## An instance -/

/-- A block of two tokens, one head of two bytes a rank. -/
def smallTensor : Tensor := { shape := [1, 2, 1, 2], elementSize := 1 }

/-- Two heads, on the ranks of an instance of size `tpSize`. -/
def smallLayout (tpSize tpRank : Nat) : HeadLayout :=
  let context : CacheTensorLayoutContext := { tpRank := tpRank, tpSize := tpSize }
  { context := context
    pages := 1
    cacheTensor := ⟨.KEY, smallTensor⟩
    tensor := {
      elementBytes := 1
      shape := [1, 2, 1, 2]
      stride := [4, 2, 2, 1]
      contiguous := true
      resourceCount := 1
      resourceStrideBytes := 4
      bufferBytes := 4
      blockTokenCapacity := 2
      shard :=
        match describeAttentionHeads context 2 1 ⟨.KEY, smallTensor⟩ with
        | .ok shard => shard
        | .error _ => {} } }

def smallManifest (tpSize tpRank : Nat) : WorkerCacheLayoutManifest :=
  { incarnationId := "incarnation"
    layoutGeneration := 1
    fingerprint := "fingerprint"
    backend := "backend"
    layoutFamily := "family"
    addr := "addr"
    coordinates := { tpRank := tpRank, tpSize := tpSize }
    tensors := [(smallLayout tpSize tpRank).tensor] }

/-- The plan from a source rank to a destination rank, of two and of four. -/
def smallPlan (tpRank : Nat) : ReshardPlanTemplate :=
  match buildOutgoingPlan (smallManifest 2 tpRank) (smallManifest 4 3) false 1 with
  | .ok plan => plan
  | .error _ => ⟨"", 0, "", 0, {}, {}, "", []⟩

theorem smallCarries {tpSize tpRank : Nat}
    (h : ((describeAttentionHeads { tpRank := tpRank, tpSize := tpSize } 2 1
      ⟨.KEY, smallTensor⟩).isOk) = true) :
    CarriesHeads 2 2 2 (smallManifest tpSize tpRank) (smallLayout tpSize tpRank) where
  mem := mem_singleton.mpr rfl
  role := Or.inl rfl
  roleValue := rfl
  spans := by
    show describeAttentionHeads { tpRank := tpRank, tpSize := tpSize } 2 1 ⟨.KEY, smallTensor⟩ =
      .ok (match describeAttentionHeads { tpRank := tpRank, tpSize := tpSize } 2 1
        ⟨.KEY, smallTensor⟩ with
        | .ok shard => shard
        | .error _ => {})
    cases hd : describeAttentionHeads { tpRank := tpRank, tpSize := tpSize } 2 1
        ⟨.KEY, smallTensor⟩ with
    | ok shard => rfl
    | error e =>
      rw [hd] at h
      cases h
  tpRank := rfl
  tpSize := rfl
  tokens := rfl
  bytesPerHead := by
    show headBytes [2] 1 = .ok 2
    simp [headBytes, uint64Max]

theorem smallPlan_ok {tpRank : Nat}
    (h : (buildOutgoingPlan (smallManifest 2 tpRank) (smallManifest 4 3) false 1).isOk = true) :
    buildOutgoingPlan (smallManifest 2 tpRank) (smallManifest 4 3) false 1 =
      .ok (smallPlan tpRank) := by
  rw [smallPlan]
  cases hp : buildOutgoingPlan (smallManifest 2 tpRank) (smallManifest 4 3) false 1 with
  | ok plan => rfl
  | error e =>
    rw [hp] at h
    cases h

/-- Two ranks with a head each, and the last of four ranks that hold the heads twice. -/
theorem smallLink : ReshardLink 2 2 2 2 1 (smallManifest 2) (smallLayout 2) (smallManifest 4 3)
    (smallLayout 4 3) smallPlan where
  ranks := by decide
  sourceHeads := by
    intro s hs
    interval_cases s
    · exact smallCarries (by decide +kernel)
    · exact smallCarries (by decide +kernel)
  rank := fun _ _ => rfl
  size := fun _ _ => rfl
  destinationHeads := smallCarries (by decide +kernel)
  sameTensor := fun _ _ => rfl
  declared := by
    intro s hs h
    exact absurd h (by show ¬ (1 : Int) = 1 * 2; decide)
  plans := by
    intro s hs
    interval_cases s
    · exact smallPlan_ok (by decide +kernel)
    · exact smallPlan_ok (by decide +kernel)

theorem reshard_lossless_small :
    (((List.range 2).flatMap fun s => planWrites (smallLayout 4 3).key (smallPlan s)).map
      (·.remoteByte)).Perm ((List.range 4).map (0 + ·)) :=
  (reshard_lossless smallLink).1

end Xllm.Framework
