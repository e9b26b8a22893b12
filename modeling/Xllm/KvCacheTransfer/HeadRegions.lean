import Xllm.KvCacheTransfer.PlanWrites

/-!
# The regions of attention heads

What the checks of a manifest give (`ValidTensor`), and what a manifest holds whose tensor carries
the spans of `describeAttentionHeads`: for every head of the rank and every token one region, at the
place of the head among all heads (`expand_carriesHeads`). `owner_exists` and `owner_unique` say that
of the ranks of one instance exactly one owns a head, in both regimes of the placement.
-/

namespace Xllm.Framework

open Xllm.Lib List

/-! ## Valid manifests -/

/-- What the checks of a tensor give. -/
structure ValidTensor (tensor : CacheTensorManifest) : Prop where
  bytes : ∀ span ∈ tensor.shard.spans, 0 < span.bytesPerRegion
  coverage : validatePhysicalCoverage tensor = .ok ()

variable {tensor : CacheTensorManifest} {u : Unit}

theorem bytes_of_validateSpans {tpSize : Int}
    {spans : List LogicalSpan} (h : validateSpans tpSize tensor spans = .ok u) :
    ∀ span ∈ spans, 0 < span.bytesPerRegion := by
  induction spans with
  | nil => exact nofun
  | cons span spans ih =>
    obtain ⟨_, -, h⟩ := bind_eq_ok.mp h
    obtain ⟨_, hspan, h⟩ := bind_eq_ok.mp h
    obtain ⟨_, hset, -⟩ := bind_eq_ok.mp hspan
    rw [rejectIf_eq_ok] at hset
    intro other hother
    rcases mem_cons.mp hother with rfl | hother
    · omega
    · exact ih h other hother

variable {seen : SeenTensors}

theorem validTensor_of_validateTensor {tpSize : Int}
    {seen' : SeenTensors} (h : validateTensor tpSize tensor seen = .ok seen') :
    ValidTensor tensor ∧ tensorKey tensor ∉ seen.tensorKeys ∧
      seen'.tensorKeys = tensorKey tensor :: seen.tensorKeys := by
  obtain ⟨_, -, h⟩ := bind_eq_ok.mp h
  obtain ⟨_, hkey, h⟩ := bind_eq_ok.mp h
  iterate 5 obtain ⟨_, -, h⟩ := bind_eq_ok.mp h
  obtain ⟨_, hspans, h⟩ := bind_eq_ok.mp h
  obtain ⟨_, hcoverage, h⟩ := bind_eq_ok.mp h
  cases h
  exact ⟨⟨bytes_of_validateSpans hspans, hcoverage⟩, rejectIf_eq_ok.mp hkey, rfl⟩

theorem valid_of_validateTensors {tpSize : Int} {tensors : List CacheTensorManifest}
    (h : validateTensors tpSize tensors seen = .ok u) :
    (∀ tensor ∈ tensors, ValidTensor tensor ∧ tensorKey tensor ∉ seen.tensorKeys) ∧
      (tensors.map tensorKey).Nodup := by
  induction tensors generalizing seen with
  | nil => exact ⟨nofun, nodup_nil⟩
  | cons tensor tensors ih =>
    obtain ⟨seen', htensor, h⟩ := bind_eq_ok.mp h
    obtain ⟨hvalid, hnew, hseen⟩ := validTensor_of_validateTensor htensor
    obtain ⟨hrest, hnodup⟩ := ih h
    refine ⟨fun other hother => ?_, ?_⟩
    · rcases mem_cons.mp hother with rfl | hother
      · exact ⟨hvalid, hnew⟩
      · obtain ⟨hv, hn⟩ := hrest other hother
        rw [hseen, mem_cons, not_or] at hn
        exact ⟨hv, hn.2⟩
    · rw [map_cons, nodup_cons]
      refine ⟨fun hmem => ?_, hnodup⟩
      obtain ⟨other, hother, hkey⟩ := mem_map.mp hmem
      refine (hrest other hother).2 ?_
      rw [hseen, hkey]
      exact mem_cons_self ..

/-- What the checks of a manifest give. -/
structure ValidLayout (manifest : WorkerCacheLayoutManifest) : Prop where
  tpRank : 0 ≤ manifest.coordinates.tpRank
  tpSize : 0 < manifest.coordinates.tpSize
  tensors : ∀ tensor ∈ manifest.tensors, ValidTensor tensor
  keys : (manifest.tensors.map tensorKey).Nodup

variable {manifest : WorkerCacheLayoutManifest}

theorem validLayout_of_validate
    (h : validateWorkerCacheLayout manifest = .ok u) : ValidLayout manifest := by
  obtain ⟨_, -, h⟩ := bind_eq_ok.mp h
  obtain ⟨_, -, h⟩ := bind_eq_ok.mp h
  obtain ⟨_, hcoordinates, h⟩ := bind_eq_ok.mp h
  obtain ⟨_, -, h⟩ := bind_eq_ok.mp h
  obtain ⟨_, hsizes, hranks⟩ := bind_eq_ok.mp hcoordinates
  rw [rejectIf_eq_ok] at hsizes hranks
  obtain ⟨htensors, hkeys⟩ := valid_of_validateTensors h
  exact ⟨by omega, by omega, fun tensor ht => (htensors tensor ht).1, hkeys⟩

theorem labelled_eq_ok {label : String} {status : Except String Unit}
    (h : labelled label status = .ok u) : status = .ok () := by
  cases status with
  | ok _ => rfl
  | error e => exact nomatch h

theorem validLayouts_of_buildOutgoingPlan {source destination : WorkerCacheLayoutManifest}
    {includeReplicas : Bool} {mode : Int} {plan : ReshardPlanTemplate}
    (h : buildOutgoingPlan source destination includeReplicas mode = .ok plan) :
    ValidLayout source ∧ ValidLayout destination ∧ plan.sourceCoordinates = source.coordinates := by
  obtain ⟨_, hcompatible, h⟩ := bind_eq_ok.mp h
  obtain ⟨candidates, -, h⟩ := bind_eq_ok.mp h
  obtain ⟨regions, -, h⟩ := bind_eq_ok.mp h
  cases h
  obtain ⟨_, hsource, hcompatible⟩ := bind_eq_ok.mp hcompatible
  obtain ⟨_, hdestination, -⟩ := bind_eq_ok.mp hcompatible
  exact ⟨validLayout_of_validate (labelled_eq_ok hsource),
    validLayout_of_validate (labelled_eq_ok hdestination), rfl⟩

/-! ## Physical bytes -/

theorem coverPhysical_range {intervals : List (Nat × Nat)} {cursor stop : Nat}
    (hordered : ∀ interval ∈ intervals, interval.1 ≤ interval.2)
    (h : coverPhysical intervals cursor = .ok stop) :
    cursor ≤ stop ∧ intervals.flatMap (fun interval =>
      List.range' interval.1 (interval.2 - interval.1)) = List.range' cursor (stop - cursor) := by
  induction intervals generalizing cursor with
  | nil =>
    cases h
    exact ⟨Nat.le_refl _, by simp⟩
  | cons interval intervals ih =>
    obtain ⟨_, hnot, h⟩ := bind_eq_ok.mp h
    obtain ⟨_, hgap, h⟩ := bind_eq_ok.mp h
    rw [rejectIf_eq_ok] at hnot hgap
    have hbegin : interval.1 = cursor := by omega
    have hle := hordered interval (mem_cons_self ..)
    obtain ⟨hstop, hrange⟩ := ih (fun i hi => hordered i (mem_cons_of_mem _ hi)) h
    refine ⟨by omega, ?_⟩
    rw [flatMap_cons, hrange, hbegin]
    have hsplit : stop - cursor = (interval.2 - cursor) + (stop - interval.2) := by omega
    have hmiddle : interval.2 = cursor + (interval.2 - cursor) := by omega
    rw [hsplit]
    conv_lhs => rw [hmiddle]
    rw [Nat.add_sub_cancel_left, List.range'_append_1, ← hmiddle]

/-- The physical bytes of the regions of a valid tensor are those of the resource, each once. -/
theorem ValidTensor.perm_physical (h : ValidTensor tensor) :
    ((tensor.shard.spans.flatMap physicalIntervals).flatMap fun interval =>
      List.range' interval.1 (interval.2 - interval.1)).Perm
      (List.range tensor.resourceStrideBytes) := by
  have hcoverage := h.coverage
  obtain ⟨counted, -, hcoverage⟩ := bind_eq_ok.mp hcoverage
  obtain ⟨_, -, hcoverage⟩ := bind_eq_ok.mp hcoverage
  obtain ⟨stop, hcover, hcoverage⟩ := bind_eq_ok.mp hcoverage
  rw [rejectIf_eq_ok, not_not] at hcoverage
  have hperm := perm_insertionSort pairLe (tensor.shard.spans.flatMap physicalIntervals)
  have hordered : ∀ interval ∈ (tensor.shard.spans.flatMap physicalIntervals).insertionSort pairLe,
      interval.1 ≤ interval.2 := by
    intro interval hinterval
    obtain ⟨span, -, hspan⟩ := mem_flatMap.mp (hperm.mem_iff.mp hinterval)
    obtain ⟨i, -, rfl⟩ := mem_map.mp hspan
    exact Nat.le_add_right _ _
  obtain ⟨_, hrange⟩ := coverPhysical_range hordered hcover
  refine (hperm.symm.flatMap_right _).trans ?_
  rw [hrange, hcoverage, Nat.sub_zero, range_eq_range']

theorem flatMap_expandSpan (tensor : CacheTensorManifest) (spans : List LogicalSpan) :
    ((spans.flatMap (expandSpan tensor)).flatMap fun region =>
      List.range' region.physicalOffset region.length) =
    (spans.flatMap physicalIntervals).flatMap fun interval =>
      List.range' interval.1 (interval.2 - interval.1) := by
  rw [flatMap_assoc, flatMap_assoc]
  refine flatMap_congr fun span _ => ?_
  rw [expandSpan, physicalIntervals, flatMap_map, flatMap_map]
  refine flatMap_congr fun i _ => ?_
  simp only [Nat.add_sub_cancel_left]

/-! ## The regions of one tensor -/

theorem expandTensor_everything (tensor : CacheTensorManifest) (tpRank : Int) :
    expandTensor tensor SpanWriters.everything tpRank =
      tensor.shard.spans.flatMap (expandSpan tensor) := by
  rw [expandTensor, filter_eq_self.mpr]
  intro span _
  simp [SpanWriters.writes, SpanWriters.everything]

theorem mem_expandTensor {writers : SpanWriters} {tpRank : Int}
    {region : AtomicLogicalRegion} (h : region ∈ expandTensor tensor writers tpRank) :
    ∃ span ∈ tensor.shard.spans, ∃ i < span.repeatCount,
      writers.writes tensor span tpRank = true ∧ region ∈ expandSpan tensor span ∧
        region.tensor = tensor ∧ logicalTensorKey region = ⟨tensor.cacheNamespace, tensor.layerId,
          tensor.role, tensor.groupId, span.logicalTensor⟩ := by
  obtain ⟨span, hspan, hregion⟩ := mem_flatMap.mp h
  obtain ⟨hmem, hwrites⟩ := mem_filter.mp hspan
  obtain ⟨i, hi, heq⟩ := mem_map.mp hregion
  exact ⟨span, hmem, i, mem_range.mp hi, hwrites, hregion, by rw [← heq], by rw [← heq]; rfl⟩

theorem filter_expandManifest (hvalid : ValidLayout manifest)
    (hmem : tensor ∈ manifest.tensors) {name : String}
    (hname : ∀ span ∈ tensor.shard.spans, span.logicalTensor = name) (writers : SpanWriters) :
    (expandManifest manifest writers).filter (logicalTensorKey · =
        ⟨tensor.cacheNamespace, tensor.layerId, tensor.role, tensor.groupId, name⟩) =
      expandTensor tensor writers manifest.coordinates.tpRank := by
  rw [expandManifest, filter_flatMap,
    flatMap_eq_single (hvalid.keys.of_map _) hmem fun other hother hne => ?_]
  · refine filter_eq_self.mpr fun region hregion => ?_
    obtain ⟨span, hspan, -, -, -, -, -, hkey⟩ := mem_expandTensor hregion
    rw [decide_eq_true_eq, hkey, hname span hspan]
  · refine filter_eq_nil_iff.mpr fun region hregion heq => hne ?_
    obtain ⟨span, -, -, -, -, -, -, hkey⟩ := mem_expandTensor hregion
    rw [decide_eq_true_eq, hkey] at heq
    refine inj_on_of_nodup_map hvalid.keys hother hmem ?_
    rw [tensorKey, tensorKey]
    injection heq with h1 h2 h3 h4 h5
    rw [h1, h2, h3, h4]

/-! ## Head placement -/

/-- The two regimes of the placement: heads split over the ranks, or ranks over the heads. -/
inductive Placement (globalHeads localHeads tpRank tpSize : Nat) : Nat → Nat → Prop
  | split (hheads : globalHeads = tpSize * localHeads) (hlocal : 0 < localHeads) :
      Placement globalHeads localHeads tpRank tpSize (tpRank * localHeads) 1
  | replicated {replicas : Nat} (hranks : tpSize = globalHeads * replicas) (hreplicas : 1 < replicas)
      (hlocal : localHeads = 1) :
      Placement globalHeads localHeads tpRank tpSize (tpRank / replicas) replicas

variable {globalHeads localHeads tpRank tpSize : Nat}

theorem placement_of_getHeadPlacement {first replicas : Int}
    (h : getHeadPlacement globalHeads localHeads tpRank tpSize = .ok (first, replicas)) :
    tpRank < tpSize ∧ ∃ first' replicas' : Nat, first = first' ∧ replicas = replicas' ∧
      Placement globalHeads localHeads tpRank tpSize first' replicas' := by
  rw [getHeadPlacement] at h
  split at h
  · cases h
  rename_i hvalid
  simp only [not_or, not_le, not_lt] at hvalid
  refine ⟨by omega, ?_⟩
  split at h
  · split at h
    · cases h
    · rename_i hle heven
      cases h
      simp only [not_or, not_not] at heven
      obtain ⟨hmod, hcount⟩ := heven
      refine ⟨tpRank * localHeads, 1, by push_cast; rfl, rfl, .split ?_ (by omega)⟩
      have hdiv := Int.mul_ediv_add_emod (globalHeads : Int) tpSize
      rw [hmod, ← hcount, Int.add_zero] at hdiv
      exact_mod_cast hdiv.symm
  · split at h
    · cases h
    · rename_i hle heven
      cases h
      simp only [not_or, not_not] at heven
      obtain ⟨hmod, hone⟩ := heven
      have hdiv : tpSize = globalHeads * (tpSize / globalHeads) := by
        have := Int.mul_ediv_add_emod (tpSize : Int) globalHeads
        rw [hmod, Int.add_zero] at this
        exact_mod_cast this.symm
      refine ⟨tpRank / (tpSize / globalHeads), tpSize / globalHeads, by push_cast; rfl,
        by push_cast; rfl, .replicated hdiv ?_ (by exact_mod_cast hone)⟩
      -- more ranks than heads
      by_contra hfew
      have hsmall : tpSize / globalHeads ≤ 1 := by omega
      have := Nat.mul_le_mul_left globalHeads hsmall
      omega

/-- The rank owns its local head: it is the only holder, or the lowest one. -/
def Owns (tpRank first replicas localHead : Nat) : Prop :=
  1 < replicas → tpRank = (first + localHead) * replicas

instance (tpRank first replicas localHead : Nat) :
    Decidable (Owns tpRank first replicas localHead) :=
  inferInstanceAs (Decidable (_ → _))

theorem Placement.lt {first replicas localHead : Nat}
    (h : Placement globalHeads localHeads tpRank tpSize first replicas) (hrank : tpRank < tpSize)
    (hlocal : localHead < localHeads) : first + localHead < globalHeads := by
  cases h with
  | split hheads _ =>
    have := Nat.mul_le_mul_right localHeads (Nat.succ_le_of_lt hrank)
    rw [Nat.succ_mul] at this
    omega
  | replicated hranks hreplicas hone =>
    have : tpRank / replicas < globalHeads := by
      rw [Nat.div_lt_iff_lt_mul (by omega)]
      omega
    omega

theorem regimes_exclude {replicas : Nat}
    (hheads : globalHeads = tpSize * localHeads) (hlocal : 0 < localHeads)
    (hranks : tpSize = globalHeads * replicas) (hreplicas : 1 < replicas) (hsize : 0 < tpSize) :
    False := by
  have hle := Nat.mul_le_mul_left globalHeads hreplicas
  have hle' := Nat.le_mul_of_pos_right tpSize hlocal
  omega

variable {first : Nat → Nat} {head : Nat}

theorem owner_exists {localHeads replicas : Nat → Nat}
    (h : ∀ s < tpSize, Placement globalHeads (localHeads s) s tpSize (first s) (replicas s))
    (hsize : 0 < tpSize) (hhead : head < globalHeads) :
    ∃ s < tpSize, ∃ localHead < localHeads s,
      first s + localHead = head ∧ Owns s (first s) (replicas s) localHead := by
  have hzero := h 0 hsize
  generalize hfirst : first 0 = f at hzero
  generalize hlocals : localHeads 0 = l at hzero
  generalize hreplicas : replicas 0 = r at hzero
  cases hzero with
  | split hheads hlocal =>
    -- the head's rank in the split
    have hs : head / l < tpSize := by
      rw [Nat.div_lt_iff_lt_mul hlocal]
      omega
    have hplace := h _ hs
    generalize hfirst' : first (head / l) = f' at hplace
    generalize hlocals' : localHeads (head / l) = l' at hplace
    generalize hreplicas' : replicas (head / l) = r' at hplace
    cases hplace with
    | split hheads' _ =>
      have hll : l' = l := Nat.eq_of_mul_eq_mul_left hsize (hheads'.symm.trans hheads)
      refine ⟨head / l, hs, head % l, ?_, ?_, ?_⟩
      · rw [hlocals', hll]
        exact Nat.mod_lt _ hlocal
      · rw [hfirst', hll, Nat.mul_comm, Nat.div_add_mod]
      · rw [hreplicas']
        exact fun hlt => absurd hlt (Nat.lt_irrefl 1)
    | replicated hranks hmany _ =>
      exact (regimes_exclude hheads hlocal hranks hmany hsize).elim
  | @replicated _ hranks hmany hone =>
    have hs : head * r < tpSize := by
      rw [hranks]
      exact Nat.mul_lt_mul_of_pos_right hhead (by omega)
    have hplace := h _ hs
    generalize hfirst' : first (head * r) = f' at hplace
    generalize hlocals' : localHeads (head * r) = l' at hplace
    generalize hreplicas' : replicas (head * r) = r' at hplace
    cases hplace with
    | split hheads' hlocal' =>
      exact (regimes_exclude hheads' hlocal' hranks hmany hsize).elim
    | replicated hranks' hmany' hone' =>
      have hrr : r' = r :=
        Nat.eq_of_mul_eq_mul_left (by omega) (hranks'.symm.trans hranks)
      refine ⟨head * r, hs, 0, by omega, ?_, ?_⟩
      · rw [hfirst', hrr, Nat.mul_div_cancel _ (by omega), Nat.add_zero]
      · intro _
        rw [hfirst', hreplicas', hrr, Nat.mul_div_cancel _ (by omega), Nat.add_zero]

theorem owner_unique {localHeads replicas : Nat → Nat}
    (h : ∀ s < tpSize, Placement globalHeads (localHeads s) s tpSize (first s) (replicas s))
    {s s' k k' : Nat} (hs : s < tpSize) (hs' : s' < tpSize) (hk : k < localHeads s)
    (hk' : k' < localHeads s') (heq : first s + k = first s' + k')
    (hown : Owns s (first s) (replicas s) k) (hown' : Owns s' (first s') (replicas s') k') :
    s = s' ∧ k = k' := by
  have hplace := h s hs
  have hplace' := h s' hs'
  have hsize : 0 < tpSize := by omega
  generalize first s = f at *
  generalize first s' = f' at *
  generalize localHeads s = l at *
  generalize localHeads s' = l' at *
  generalize replicas s = r at *
  generalize replicas s' = r' at *
  cases hplace with
  | split hheads hlocal =>
    cases hplace' with
    | split hheads' hlocal' =>
      have hll : l' = l :=
        Nat.eq_of_mul_eq_mul_left hsize (hheads'.symm.trans hheads)
      subst hll
      have hdiv (a b : Nat) (hb : b < l') : (a * l' + b) / l' = a := by
        rw [Nat.add_comm, Nat.add_mul_div_right _ _ hlocal, Nat.div_eq_of_lt hb, Nat.zero_add]
      have hss : s = s' := by rw [← hdiv s k hk, heq, hdiv s' k' hk']
      subst hss
      exact ⟨rfl, by omega⟩
    | replicated hranks hmany _ =>
      exact (regimes_exclude hheads hlocal hranks hmany hsize).elim
  | replicated hranks hmany hone =>
    cases hplace' with
    | split hheads' hlocal' =>
      exact (regimes_exclude hheads' hlocal' hranks hmany hsize).elim
    | replicated hranks' hmany' hone' =>
      have hpos : 0 < globalHeads := Nat.pos_of_ne_zero (by rintro rfl; omega)
      have hrr : r' = r := Nat.eq_of_mul_eq_mul_left hpos (hranks'.symm.trans hranks)
      subst hrr
      have hss : s = s' := by rw [hown hmany, hown' hmany', heq]
      exact ⟨hss, by omega⟩

/-! ## Heads of a manifest -/

/-- A cache tensor as a producer describes it and as its manifest carries it. -/
structure HeadLayout where
  context : CacheTensorLayoutContext
  pages : Int
  cacheTensor : KVCacheTensor
  tensor : CacheTensorManifest

namespace HeadLayout

def heads (layout : HeadLayout) : Nat :=
  layout.cacheTensor.tensor.size (headAxis layout.context)

def tokens (layout : HeadLayout) : Nat :=
  layout.cacheTensor.tensor.size (tokenAxis layout.context) * layout.pages.toNat

def headStride (layout : HeadLayout) : Nat :=
  tensorStrideBytes layout.cacheTensor.tensor (headAxis layout.context)

def tokenStride (layout : HeadLayout) : Nat :=
  tensorStrideBytes layout.cacheTensor.tensor (tokenAxis layout.context)

def firstHead (layout : HeadLayout) (globalHeads : Nat) : Nat :=
  match getHeadPlacement globalHeads layout.heads layout.context.tpRank layout.context.tpSize with
  | .ok (first, _) => first.toNat
  | .error _ => 0

def replicas (layout : HeadLayout) (globalHeads : Nat) : Nat :=
  match getHeadPlacement globalHeads layout.heads layout.context.tpRank layout.context.tpSize with
  | .ok (_, replicas) => replicas.toNat
  | .error _ => 0

/-- The byte of a head's token in a resource: where the tensor holds it. -/
def byteOf (layout : HeadLayout) (head token byte : Nat) : Nat :=
  layout.tensor.storageOffsetBytes + head * layout.headStride + token * layout.tokenStride + byte

def key (layout : HeadLayout) : LogicalTensorKey :=
  ⟨layout.tensor.cacheNamespace, layout.tensor.layerId, layout.tensor.role, layout.tensor.groupId,
    layout.cacheTensor.role.toText⟩

/-- The region of a head's token. -/
def cell (layout : HeadLayout) (globalHeads bytesPerHead head token : Nat) : AtomicLogicalRegion :=
  { cacheNamespace := layout.tensor.cacheNamespace
    layerId := layout.tensor.layerId
    role := layout.tensor.role
    groupId := layout.tensor.groupId
    logicalTensor := layout.cacheTensor.role.toText
    logicalOffset := (layout.firstHead globalHeads + head) * bytesPerHead +
      token * (globalHeads * bytesPerHead)
    physicalOffset := head * layout.headStride + token * layout.tokenStride
    length := bytesPerHead
    tensor := layout.tensor }

end HeadLayout

/-- The manifest carries the spans that the builder gives a key or value tensor: `globalHeads` heads
of `bytesPerHead` bytes a token, `tokens` tokens a resource. -/
structure CarriesHeads (globalHeads tokens bytesPerHead : Nat)
    (manifest : WorkerCacheLayoutManifest) (layout : HeadLayout) : Prop where
  mem : layout.tensor ∈ manifest.tensors
  role : layout.cacheTensor.role = .KEY ∨ layout.cacheTensor.role = .VALUE
  roleValue : layout.tensor.role = layout.cacheTensor.role.value
  spans : describeAttentionHeads layout.context globalHeads layout.pages layout.cacheTensor =
    .ok layout.tensor.shard
  tpRank : layout.context.tpRank = manifest.coordinates.tpRank
  tpSize : layout.context.tpSize = manifest.coordinates.tpSize
  tokens : layout.tokens = tokens
  bytesPerHead : headBytes (layout.cacheTensor.tensor.shape.drop (innerBegin layout.context))
    layout.cacheTensor.tensor.elementSize = .ok bytesPerHead

namespace CarriesHeads

variable {globalHeads tokens bytesPerHead : Nat} {manifest : WorkerCacheLayoutManifest}
  {layout : HeadLayout}

def span (layout : HeadLayout) (globalHeads bytesPerHead head : Nat) : LogicalSpan :=
  { logicalTensor := layout.cacheTensor.role.toText
    logicalOffsetBytes := (layout.firstHead globalHeads + head) * bytesPerHead
    physicalOffsetBytes := head * layout.headStride
    bytesPerRegion := bytesPerHead
    repeatCount := layout.tokens
    logicalStrideBytes := globalHeads * bytesPerHead
    physicalStrideBytes := layout.tokenStride
    ownerTpRank :=
      if 1 < layout.replicas globalHeads then
        (layout.firstHead globalHeads + head : Nat) * layout.replicas globalHeads
      else layout.context.tpRank }

variable {tpRank tpSize : Nat}

theorem spans_eq (h : CarriesHeads globalHeads tokens bytesPerHead manifest layout)
    (hrank : manifest.coordinates.tpRank = tpRank) (hsize : manifest.coordinates.tpSize = tpSize) :
    tpRank < tpSize ∧ Placement globalHeads layout.heads tpRank tpSize
        (layout.firstHead globalHeads) (layout.replicas globalHeads) ∧
      layout.tensor.shard.spans =
        (List.range layout.heads).map (span layout globalHeads bytesPerHead) := by
  have hspans := h.spans
  iterate 3 obtain ⟨_, -, hspans⟩ := bind_eq_ok.mp hspans
  obtain ⟨⟨first, replicas⟩, hplace, hspans⟩ := bind_eq_ok.mp hspans
  obtain ⟨bytes, hbytes, hspans⟩ := bind_eq_ok.mp hspans
  obtain ⟨_, -, hspans⟩ := bind_eq_ok.mp hspans
  rw [h.bytesPerHead] at hbytes
  cases hbytes
  have hplace' : getHeadPlacement globalHeads layout.heads layout.context.tpRank
      layout.context.tpSize = .ok (first, replicas) := hplace
  have hfirst : layout.firstHead globalHeads = first.toNat := by
    rw [HeadLayout.firstHead, hplace']
  have hreplicas : layout.replicas globalHeads = replicas.toNat := by
    rw [HeadLayout.replicas, hplace']
  rw [h.tpRank, h.tpSize, hrank, hsize] at hplace'
  obtain ⟨hlt, first', replicas', rfl, rfl, hplacement⟩ := placement_of_getHeadPlacement hplace'
  refine ⟨hlt, by rw [hfirst, hreplicas]; exact hplacement, ?_⟩
  have hshard := Except.ok.inj hspans
  rw [← hshard]
  refine map_congr_left fun head _ => ?_
  rw [span, hfirst, hreplicas]
  have hcast : ((first' : Int) + (head : Int)).toNat = first' + head := by omega
  have hmany : ((replicas' : Int) > 1) ↔ 1 < replicas' := by omega
  simp only [hcast, hmany, Int.toNat_natCast, Int.natCast_add]
  rfl

theorem writes_span (hsize : manifest.coordinates.tpSize = tpSize)
    (hrank : layout.context.tpRank = tpRank)
    (hdeclared : kvSplitSpansCpAndTp manifest.coordinates → tpSize = 1)
    (hplace : Placement globalHeads layout.heads tpRank tpSize (layout.firstHead globalHeads)
      (layout.replicas globalHeads)) (head : Nat) :
    (sourceWriters manifest.coordinates).writes layout.tensor
        (span layout globalHeads bytesPerHead head) tpRank =
      decide (Owns tpRank (layout.firstHead globalHeads) (layout.replicas globalHeads) head) := by
  rw [sourceWriters]
  split
  · -- a single rank owns all it holds
    rename_i hspans
    have hone := hdeclared hspans
    have howns : Owns tpRank (layout.firstHead globalHeads) (layout.replicas globalHeads) head := by
      intro hmany
      generalize layout.firstHead globalHeads = f at hplace
      generalize layout.replicas globalHeads = r at hplace hmany
      cases hplace with
      | split _ _ => exact absurd hmany (Nat.lt_irrefl 1)
      | replicated hranks _ _ =>
        rw [hone] at hranks
        have := Nat.eq_one_of_mul_eq_one_left hranks.symm
        omega
    rw [decide_eq_true howns]
    rfl
  · show decide ((tpRank : Int) = (if 1 < layout.replicas globalHeads then _ else _)) = _
    refine decide_eq_decide.mpr ?_
    split
    · rename_i hmany
      refine ⟨fun heq _ => by exact_mod_cast heq, fun h => by exact_mod_cast h hmany⟩
    · rename_i hfew
      exact ⟨fun _ hmany => absurd hmany hfew, fun _ => hrank.symm⟩

theorem expand_declared (h : CarriesHeads globalHeads tokens bytesPerHead manifest layout)
    (hrank : manifest.coordinates.tpRank = tpRank) (hsize : manifest.coordinates.tpSize = tpSize)
    (hdeclared : kvSplitSpansCpAndTp manifest.coordinates → tpSize = 1) :
    expandTensor layout.tensor (sourceWriters manifest.coordinates) tpRank =
      ((List.range layout.heads).filter fun head =>
        Owns tpRank (layout.firstHead globalHeads) (layout.replicas globalHeads) head).flatMap
      fun head => (List.range tokens).map (layout.cell globalHeads bytesPerHead head) := by
  obtain ⟨-, hplace, hspans⟩ := h.spans_eq hrank hsize
  have hcontext : layout.context.tpRank = tpRank := h.tpRank.trans hrank
  rw [expandTensor, hspans, filter_map, flatMap_map, ← h.tokens]
  refine congrArg₂ _ rfl (filter_congr fun head _ => ?_)
  exact writes_span hsize hcontext hdeclared hplace head

theorem expand_everything (h : CarriesHeads globalHeads tokens bytesPerHead manifest layout)
    (hrank : manifest.coordinates.tpRank = tpRank)
    (hsize : manifest.coordinates.tpSize = tpSize) (rank : Int) :
    expandTensor layout.tensor SpanWriters.everything rank =
      (List.range layout.heads).flatMap
        fun head => (List.range tokens).map (layout.cell globalHeads bytesPerHead head) := by
  obtain ⟨-, -, hspans⟩ := h.spans_eq hrank hsize
  rw [expandTensor_everything, hspans, flatMap_map, ← h.tokens]
  rfl

theorem logicalTensor_eq (h : CarriesHeads globalHeads tokens bytesPerHead manifest layout)
    (hrank : manifest.coordinates.tpRank = tpRank) (hsize : manifest.coordinates.tpSize = tpSize) :
    ∀ s ∈ layout.tensor.shard.spans, s.logicalTensor = layout.cacheTensor.role.toText := by
  obtain ⟨-, -, hspans⟩ := h.spans_eq hrank hsize
  intro s hs
  rw [hspans] at hs
  obtain ⟨head, -, rfl⟩ := mem_map.mp hs
  rfl

end CarriesHeads

/-! ## Shared bytes -/

variable {token token' : Nat}

theorem overlap_iff {bytes a b : Nat} (hbytes : 0 < bytes)
    (ha : a < globalHeads) (hb : b < globalHeads) :
    a * bytes + token * (globalHeads * bytes) <
          b * bytes + token' * (globalHeads * bytes) + bytes ∧
        b * bytes + token' * (globalHeads * bytes) <
          a * bytes + token * (globalHeads * bytes) + bytes ↔
      a = b ∧ token = token' := by
  have hfactor (c t : Nat) :
      c * bytes + t * (globalHeads * bytes) = (c + globalHeads * t) * bytes := by ring
  rw [hfactor, hfactor]
  constructor
  · rintro ⟨hlt, hlt'⟩
    rw [← Nat.succ_mul, Nat.mul_lt_mul_right hbytes] at hlt hlt'
    have heq : a + globalHeads * token = b + globalHeads * token' := by omega
    have hmod := congrArg (· % globalHeads) heq
    simp only [Nat.add_mul_mod_self_left, Nat.mod_eq_of_lt ha, Nat.mod_eq_of_lt hb] at hmod
    subst hmod
    exact ⟨rfl, Nat.eq_of_mul_eq_mul_left (by omega) (Nat.add_left_cancel heq)⟩
  · rintro ⟨rfl, rfl⟩
    omega

variable {source destination : HeadLayout} {bytesPerHead head' : Nat}

/-- Regions of heads overlap only where they are the same head and token. -/
theorem overlaps_cell (hbytes : 0 < bytesPerHead)
    (hhead : source.firstHead globalHeads + head < globalHeads)
    (hhead' : destination.firstHead globalHeads + head' < globalHeads) :
    overlaps (source.cell globalHeads bytesPerHead head token)
        (destination.cell globalHeads bytesPerHead head' token') = true ↔
      source.firstHead globalHeads + head = destination.firstHead globalHeads + head' ∧
        token = token' := by
  rw [overlaps, decide_eq_true_iff]
  exact overlap_iff hbytes hhead hhead'

theorem atomWrites_planOverlap {source destination : AtomicLogicalRegion} (tpRank : Int)
    (hoffset : source.logicalOffset = destination.logicalOffset)
    (hlength : source.length = destination.length) :
    atomWrites tpRank (planOverlap source destination).region =
      (List.range destination.length).map fun byte =>
        ⟨tpRank, source.tensor.storageOffsetBytes + source.physicalOffset + byte,
          destination.tensor.storageOffsetBytes + destination.physicalOffset + byte⟩ := by
  simp only [atomWrites, planOverlap, logicalEnd, hoffset, hlength, Nat.max_self, Nat.min_self,
    Nat.add_sub_cancel_left, Nat.add_sub_cancel]

theorem byteOf_eq (layout : HeadLayout) (globalHeads bytesPerHead head token byte : Nat) :
    (layout.cell globalHeads bytesPerHead head token).tensor.storageOffsetBytes +
        (layout.cell globalHeads bytesPerHead head token).physicalOffset + byte =
      layout.byteOf head token byte := by
  simp only [HeadLayout.cell, HeadLayout.byteOf, Nat.add_assoc]

theorem atomWrites_cell (tpRank : Int)
    (heq : source.firstHead globalHeads + head = destination.firstHead globalHeads + head') :
    atomWrites tpRank (planOverlap (source.cell globalHeads bytesPerHead head token)
        (destination.cell globalHeads bytesPerHead head' token)).region =
      (List.range bytesPerHead).map fun byte =>
        ⟨tpRank, source.byteOf head token byte, destination.byteOf head' token byte⟩ := by
  rw [atomWrites_planOverlap]
  · refine map_congr_left fun byte _ => ?_
    rw [byteOf_eq, byteOf_eq]
  · show _ * _ + _ = _ * _ + _
    rw [heq]
  · rfl

end Xllm.Framework
