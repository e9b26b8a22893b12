import Xllm.KvCache.KVCacheShape

/-!
# Shapes that are sent

Every step of the constructor keeps what the message relies on: no shape is empty and the two
caches of linear attention come together. So a shape arrives with all its fields but two, and as it
was exactly when these two have their defaults (`received_construct_iff`).
-/

namespace Xllm.Framework.KVCacheShape

open Xllm.Lib List

variable {platform : Platform} {kvCacheCap : KVCacheCapacity} {modelArgs : ModelArgs}
  {worldSize : Int} {shape shape' shape'' : KVCacheShape}

/-! ## What may be sent -/

/-- The shapes that the message leaves out where they are absent. -/
def optionalShapes (shape : KVCacheShape) : List (Option (List Int)) :=
  [shape.kpoolTailShape, shape.valueCacheShape, shape.indexCacheShape, shape.indexCacheScaleShape,
    shape.convCacheShape, shape.ssmCacheShape]

def Filled (shape : KVCacheShape) : Prop := some [] ∉ shape.optionalShapes

/-- There is no state cache without a convolution cache. -/
def Linear (shape : KVCacheShape) : Prop :=
  shape.convCacheShape = none → shape.ssmCacheShape = none

theorem filled_iff : shape.Filled ↔ shape.kpoolTailShape ≠ some [] ∧
    shape.valueCacheShape ≠ some [] ∧ shape.indexCacheShape ≠ some [] ∧
    shape.indexCacheScaleShape ≠ some [] ∧ shape.convCacheShape ≠ some [] ∧
    shape.ssmCacheShape ≠ some [] := by
  unfold Filled optionalShapes
  simp only [mem_cons, not_or, not_mem_nil, not_false_iff, and_true, ne_eq, eq_comm]

/-- What a step of the constructor keeps. -/
structure Kept (shape shape' : KVCacheShape) : Prop where
  pages : shape'.replicatedBlockPages = shape.replicatedBlockPages
  pool : shape'.dsv41Pool = shape.dsv41Pool
  keyed : shape.keyCacheShape.isSome → shape'.keyCacheShape.isSome
  filled : shape.Filled → shape'.Filled
  linear : shape.Linear → shape'.Linear

namespace Kept

theorem refl (shape : KVCacheShape) : Kept shape shape := ⟨rfl, rfl, id, id, id⟩

theorem trans (h : Kept shape shape') (h' : Kept shape' shape'') : Kept shape shape'' where
  pages := h'.pages.trans h.pages
  pool := h'.pool.trans h.pool
  keyed := fun hkeyed => h'.keyed (h.keyed hkeyed)
  filled := fun hfilled => h'.filled (h.filled hfilled)
  linear := fun hlinear => h'.linear (h.linear hlinear)

end Kept

/-! ## The steps -/

theorem attentionShape_length {cache : List Int}
    (h : attentionShape kvCacheCap modelArgs worldSize = .ok cache) : cache.length = 4 := by
  obtain ⟨localKvHeadCount, _, h⟩ := bind_eq_ok.mp h
  cases h
  rfl

theorem mlaShape_ne_nil (elements : Int) :
    mlaShape platform kvCacheCap modelArgs elements ≠ [] := by
  unfold mlaShape
  split
  · exact cons_ne_nil _ _
  · exact cons_ne_nil _ _

theorem initKeyCacheShape_kept
    (h : initKeyCacheShape platform kvCacheCap modelArgs worldSize shape = .ok shape') :
    Kept shape shape' ∧ shape'.keyCacheShape.isSome := by
  unfold initKeyCacheShape at h
  split at h
  · cases h
    exact ⟨⟨rfl, rfl, fun _ => rfl, id, id⟩, rfl⟩
  · obtain ⟨cache, _, h⟩ := bind_eq_ok.mp h
    cases h
    exact ⟨⟨rfl, rfl, fun _ => rfl, id, id⟩, rfl⟩

theorem kept_valueCacheShape {cache : Option (List Int)} (hcache : cache ≠ some []) :
    Kept shape { shape with valueCacheShape := cache } := by
  refine ⟨rfl, rfl, id, fun h => ?_, id⟩
  obtain ⟨htail, _, hrest⟩ := filled_iff.mp h
  exact filled_iff.mpr ⟨htail, hcache, hrest⟩

theorem initValueCacheShape_kept
    (h : initValueCacheShape platform kvCacheCap modelArgs worldSize shape = .ok shape') :
    Kept shape shape' := by
  unfold initValueCacheShape at h
  split at h
  · split at h
    · cases h
      exact kept_valueCacheShape (by exact nofun)
    · cases h
      exact kept_valueCacheShape fun heq => mlaShape_ne_nil _ (Option.some.inj heq)
  · obtain ⟨cache, hcache, h⟩ := bind_eq_ok.mp h
    cases h
    refine kept_valueCacheShape fun heq => ?_
    have hlength := attentionShape_length hcache
    rw [Option.some.inj heq] at hlength
    exact absurd hlength (by decide)

theorem initMlaPackedC8Shape_kept
    (h : initMlaPackedC8Shape kvCacheCap modelArgs shape = .ok shape') :
    Kept shape shape' ∧ shape'.keyCacheShape.isSome := by
  obtain ⟨_, h⟩ := check_bind_eq_ok.mp h
  cases h
  refine ⟨⟨rfl, rfl, fun _ => rfl, fun hfilled => ?_, id⟩, rfl⟩
  obtain ⟨htail, _, hrest⟩ := filled_iff.mp hfilled
  exact filled_iff.mpr ⟨htail, by exact nofun, hrest⟩

theorem initMainShapes_kept
    (h : initMainShapes platform kvCacheCap modelArgs worldSize shape = .ok shape') :
    Kept shape shape' ∧ shape'.keyCacheShape.isSome := by
  unfold initMainShapes at h
  split at h
  · exact initMlaPackedC8Shape_kept h
  · obtain ⟨keyed, hkey, hvalue⟩ := bind_eq_ok.mp h
    obtain ⟨hkept, hisSome⟩ := initKeyCacheShape_kept hkey
    have hkept' := initValueCacheShape_kept hvalue
    exact ⟨hkept.trans hkept', hkept'.keyed hisSome⟩

theorem kept_indexCacheShape {cache : List Int} (hcache : cache ≠ []) :
    Kept shape { shape with indexCacheShape := some cache } := by
  refine ⟨rfl, rfl, id, fun h => ?_, id⟩
  obtain ⟨htail, hvalue, _, hrest⟩ := filled_iff.mp h
  exact filled_iff.mpr ⟨htail, hvalue, fun heq => hcache (Option.some.inj heq), hrest⟩

theorem initIndexCacheShape_kept
    (h : initIndexCacheShape platform kvCacheCap modelArgs shape = .ok shape') :
    Kept shape shape' := by
  unfold initIndexCacheShape at h
  split at h
  · obtain ⟨_, h⟩ := check_bind_eq_ok.mp h
    cases h
    exact kept_indexCacheShape (cons_ne_nil _ _)
  · cases h
    exact kept_indexCacheShape (cons_ne_nil _ _)

theorem initKpoolTailShape_kept (h : initKpoolTailShape kvCacheCap modelArgs shape = .ok shape') :
    Kept shape shape' := by
  unfold initKpoolTailShape at h
  split at h
  · obtain ⟨_, h⟩ := check_bind_eq_ok.mp h
    cases h
    refine ⟨rfl, rfl, id, fun hfilled => ?_, id⟩
    exact filled_iff.mpr ⟨by exact nofun, (filled_iff.mp hfilled).2⟩
  · cases h
    exact Kept.refl shape

theorem initIndexShapes_kept
    (h : initIndexShapes platform kvCacheCap modelArgs shape = .ok shape') :
    Kept shape shape' := by
  unfold initIndexShapes at h
  split at h
  · obtain ⟨indexed, hindex, htail⟩ := bind_eq_ok.mp h
    exact (initIndexCacheShape_kept hindex).trans (initKpoolTailShape_kept htail)
  · cases h
    exact Kept.refl shape

theorem initLinearShapes_kept
    (h : initLinearShapes platform kvCacheCap modelArgs worldSize shape = .ok shape') :
    Kept shape shape' := by
  unfold initLinearShapes at h
  split at h
  · obtain ⟨convolved, hconv, hssm⟩ := bind_eq_ok.mp h
    have hconvKept : Kept shape convolved ∧ convolved.convCacheShape.isSome := by
      have hkept : ∀ cache : List Int, cache ≠ [] →
          Kept shape { shape with convCacheShape := some cache } := by
        intro cache hcache
        refine ⟨rfl, rfl, id, fun hfilled => ?_, fun _ => by exact nofun⟩
        obtain ⟨htail, hvalue, hindex, hscale, _, hrest⟩ := filled_iff.mp hfilled
        exact filled_iff.mpr ⟨htail, hvalue, hindex, hscale,
          fun heq => hcache (Option.some.inj heq), hrest⟩
      obtain ⟨_, _, hconv⟩ := bind_eq_ok.mp hconv
      obtain ⟨_, _, hconv⟩ := bind_eq_ok.mp hconv
      split at hconv
      · cases hconv
        exact ⟨hkept _ (cons_ne_nil _ _), rfl⟩
      · cases hconv
        exact ⟨hkept _ (cons_ne_nil _ _), rfl⟩
    obtain ⟨hkept, hisSome⟩ := hconvKept
    refine hkept.trans ?_
    have hssmKept : ∀ cache : List Int, cache ≠ [] →
        Kept convolved { convolved with ssmCacheShape := some cache } := by
      intro cache hcache
      refine ⟨rfl, rfl, id, fun hfilled => ?_, fun _ hnone => ?_⟩
      · obtain ⟨htail, hvalue, hindex, hscale, hconv, _⟩ := filled_iff.mp hfilled
        exact filled_iff.mpr ⟨htail, hvalue, hindex, hscale, hconv,
          fun heq => hcache (Option.some.inj heq)⟩
      · exact absurd hnone (Option.isSome_iff_ne_none.mp hisSome)
    obtain ⟨_, _, hssm⟩ := bind_eq_ok.mp hssm
    split at hssm
    · cases hssm
      exact hssmKept _ (cons_ne_nil _ _)
    · cases hssm
      exact hssmKept _ (cons_ne_nil _ _)
  · cases h
    exact Kept.refl shape

theorem transposeDim1And2_eq_nil {cache : List Int} :
    transposeDim1And2 cache = [] ↔ cache = [] := by
  match cache with
  | [] | [_] | [_, _] => exact Iff.rfl
  | _ :: _ :: _ :: _ => exact ⟨nofun, nofun⟩

theorem applyDeviceLayout_kept (h : applyDeviceLayout platform modelArgs shape = .ok shape') :
    Kept shape shape' := by
  have htranspose : Kept shape (transposeLayout platform shape) := by
    have hmap : ∀ cache : Option (List Int), cache ≠ some [] →
        cache.map transposeDim1And2 ≠ some [] := by
      intro cache hcache heq
      obtain ⟨axes, haxes, hnil⟩ := Option.map_eq_some_iff.mp heq
      rw [haxes, transposeDim1And2_eq_nil.mp hnil] at hcache
      exact hcache rfl
    unfold transposeLayout
    split
    · refine ⟨rfl, rfl, fun hkeyed => ?_, fun hfilled => ?_, id⟩
      · exact Option.isSome_map.trans hkeyed
      · obtain ⟨htail, hvalue, hindex, hrest⟩ := filled_iff.mp hfilled
        exact filled_iff.mpr ⟨htail, hmap _ hvalue, hmap _ hindex, hrest⟩
    · exact Kept.refl shape
  refine htranspose.trans ?_
  unfold applyDeviceLayout joinMlaLayout at h
  split at h
  · split at h
    · cases h
    · obtain ⟨_, h⟩ := check_bind_eq_ok.mp h
      cases h
      refine ⟨rfl, rfl, fun _ => rfl, fun hfilled => ?_, id⟩
      obtain ⟨htail, _, hrest⟩ := filled_iff.mp hfilled
      exact filled_iff.mpr ⟨htail, by exact nofun, hrest⟩
  · cases h
    exact Kept.refl _

theorem initScaleShape_kept (h : initScaleShape kvCacheCap modelArgs shape = .ok shape') :
    Kept shape shape' := by
  unfold initScaleShape at h
  split at h
  · unfold initIndexCacheScaleShape at h
    split at h
    · cases h
    next cache _ =>
      obtain ⟨hlength, h⟩ := check_bind_eq_ok.mp h
      cases h
      refine ⟨rfl, rfl, id, fun hfilled => ?_, id⟩
      obtain ⟨htail, hvalue, hindex, _, hrest⟩ := filled_iff.mp hfilled
      refine filled_iff.mpr ⟨htail, hvalue, hindex, fun heq => ?_, hrest⟩
      have htaken : (cache.take 3).length = 3 := by
        rw [length_take, hlength]
        rfl
      rw [Option.some.inj heq] at htaken
      exact absurd htaken (by decide)
  · cases h
    exact Kept.refl shape

/-! ## What is constructed -/

structure Constructed (kvCacheCap : KVCacheCapacity) (modelArgs : ModelArgs)
    (shape : KVCacheShape) : Prop where
  pages : shape.replicatedBlockPages = max kvCacheCap.replicatedBlockPages 1
  pool : shape.dsv41Pool = isDeepseekV41ModelType modelArgs.modelType
  keyed : shape.keyCacheShape.isSome
  filled : shape.Filled
  linear : shape.Linear

theorem constructed_of_construct
    (h : construct platform kvCacheCap modelArgs worldSize = .ok shape) :
    Constructed kvCacheCap modelArgs shape := by
  obtain ⟨_, h⟩ := check_bind_eq_ok.mp h
  obtain ⟨_, h⟩ := check_bind_eq_ok.mp h
  obtain ⟨replicated, hreplicated, h⟩ := bind_eq_ok.mp h
  obtain ⟨_, hreplicated⟩ := check_bind_eq_ok.mp hreplicated
  cases hreplicated
  split at h
  · cases h
    unfold initDsv4PoolShape
    dsimp only
    split
    next hv41 => exact ⟨rfl, rfl, rfl, by exact nofun, fun _ => rfl⟩
    · exact ⟨rfl, rfl, rfl, by exact nofun, fun _ => rfl⟩
  next hnotV4 =>
    obtain ⟨main, hmain, h⟩ := bind_eq_ok.mp h
    obtain ⟨indexed, hindexed, h⟩ := bind_eq_ok.mp h
    obtain ⟨convolved, hlinear, h⟩ := bind_eq_ok.mp h
    obtain ⟨laid, hlaid, h⟩ := bind_eq_ok.mp h
    obtain ⟨hmainKept, hkeyed⟩ := initMainShapes_kept hmain
    have hlater := (initIndexShapes_kept hindexed).trans ((initLinearShapes_kept hlinear).trans
      ((applyDeviceLayout_kept hlaid).trans (initScaleShape_kept h)))
    have hkept := hmainKept.trans hlater
    refine ⟨hkept.pages, hkept.pool.trans ?_, hlater.keyed hkeyed, hkept.filled (by exact nofun),
      hkept.linear fun _ => rfl⟩
    cases hv41 : isDeepseekV41ModelType modelArgs.modelType with
    | false => rfl
    | true => exact absurd (isDeepseekV4ModelType_of_v41 hv41) hnotV4

/-! ## What is received -/

theorem fromRepeated_orEmpty {cache : Option (List Int)} (h : cache ≠ some []) :
    fromRepeated (orEmpty cache) = cache := by
  cases cache with
  | none => rfl
  | some cache =>
    have hpos : 0 < cache.length := length_pos_iff.mpr fun heq => h (by rw [heq])
    exact if_pos hpos

theorem kpoolLayoutOf_toInt32 (layout : KPoolCacheLayout) :
    kpoolLayoutOf layout.toInt32 = .ok layout := by
  cases layout with
  | packed => rfl
  | compressedWithTail => rfl

/-- The message lacks two fields. -/
theorem received_of_constructed (h : Constructed kvCacheCap modelArgs shape) :
    shape.received = .ok { shape with replicatedBlockPages := 1, dsv41Pool := false } := by
  obtain ⟨key, hkey⟩ := Option.isSome_iff_exists.mp h.keyed
  obtain ⟨htail, hvalue, hindex, hscale, hconv, hssm⟩ := filled_iff.mp h.filled
  have hssmSent : fromRepeated (if shape.convCacheShape.isSome then orEmpty shape.ssmCacheShape
      else []) = shape.ssmCacheShape := by
    cases hconvCache : shape.convCacheShape with
    | none =>
      rw [h.linear hconvCache]
      rfl
    | some _ => exact fromRepeated_orEmpty hssm
  have hkind : (if decide (shape.shapeKind = .groupedPool) = true then ShapeKind.groupedPool
      else .normal) = shape.shapeKind := by
    cases shape.shapeKind with
    | normal => rfl
    | groupedPool => rfl
  unfold received toProto
  rw [hkey]
  show fromProto _ = _
  unfold fromProto
  rw [kpoolLayoutOf_toInt32, ok_bind, fromRepeated_orEmpty htail, fromRepeated_orEmpty hvalue,
    fromRepeated_orEmpty hindex, fromRepeated_orEmpty hscale, fromRepeated_orEmpty hconv, hssmSent,
    hkind, ← hkey]
  rfl

/-- Whatever a shape is constructed from, all its fields but two are received, and all of them
exactly when the pool is not replicated and not one of V4.1. -/
theorem received_construct_iff (platform : Platform) (kvCacheCap : KVCacheCapacity)
    (modelArgs : ModelArgs) (worldSize : Int) (shape : KVCacheShape)
    (h : construct platform kvCacheCap modelArgs worldSize = .ok shape) :
    shape.received = .ok { shape with replicatedBlockPages := 1, dsv41Pool := false } ∧
    (shape.received = .ok shape ↔
      kvCacheCap.replicatedBlockPages ≤ 1 ∧ modelArgs.modelType ≠ "deepseek_v41") := by
  have hconstructed := constructed_of_construct h
  have hreceived := received_of_constructed hconstructed
  have hsame : KVCacheShape.mk shape.kpoolLayout 1 shape.kpoolTailShape shape.shapeKind false
      shape.keyCacheShape shape.valueCacheShape shape.indexCacheShape shape.indexCacheScaleShape
      shape.convCacheShape shape.ssmCacheShape = shape ↔
      shape.replicatedBlockPages = 1 ∧ shape.dsv41Pool = false := by
    constructor
    · intro heq
      rw [← heq]
      exact ⟨rfl, rfl⟩
    · rintro ⟨hpages, hpool⟩
      cases shape
      cases hpages
      cases hpool
      rfl
  refine ⟨hreceived, ?_⟩
  rw [hreceived, Except.ok.injEq, hsame, hconstructed.pages, hconstructed.pool]
  unfold isDeepseekV41ModelType
  rw [beq_eq_false_iff_ne]
  exact and_congr_left' (by omega)

/-- An MLA model with an indexer and linear attention: all but the grouped pool. -/
def hybridArgs : ModelArgs :=
  { modelType := "glm5_next", nHeads := 8, enableMla := true, kvLoraRank := 512,
    qkRopeHeadDim := 64, indexNHeads := 2, indexHeadDim := 64, linearConvKernelDim := 4,
    linearKeyHeadDim := 64, linearValueHeadDim := 64, linearNumKeyHeads := 4,
    linearNumValueHeads := 4, layerTypes := ["linear_attention", "full_attention"] }

def hybridCapacity : KVCacheCapacity :=
  { nBlocks := 8, blockSize := 16, enableIndexerCacheQuant := true, numLinearStateBlocks := 3 }

def cudaPlatform : Platform :=
  { useNpu := false, useMlu := false, useIlu := false, useDcu := false, useMusa := false,
    requiresDsaIndexerCacheReplication := false, kvSplitSizeEffective := 1,
    enablePrefixCache := true }

def hybridShape : KVCacheShape :=
  { keyCacheShape := some [8, 16, 1, 512]
    valueCacheShape := some [8, 16, 1, 64]
    indexCacheShape := some [8, 16, 1, 64]
    indexCacheScaleShape := some [8, 16, 1]
    convCacheShape := some [3, 3, 384]
    ssmCacheShape := some [3, 2, 64, 64] }

theorem hybridShape_received :
    construct cudaPlatform hybridCapacity hybridArgs 2 = .ok hybridShape ∧
      hybridShape.received = .ok hybridShape := by
  have hconstruct : construct cudaPlatform hybridCapacity hybridArgs 2 = .ok hybridShape := by
    decide
  exact ⟨hconstruct, (received_construct_iff cudaPlatform hybridCapacity hybridArgs 2 hybridShape
    hconstruct).2.mpr (by decide)⟩

/-- A drafter with two pages for a block. -/
def drafterArgs : ModelArgs := { modelType := "qwen3", nHeads := 8, headDim := 128 }

def drafterCapacity : KVCacheCapacity :=
  { nBlocks := 8, blockSize := 16, replicatedBlockPages := 2 }

def drafterShape : KVCacheShape :=
  { replicatedBlockPages := 2
    keyCacheShape := some [8, 16, 4, 128]
    valueCacheShape := some [8, 16, 4, 128] }

def v41Capacity : KVCacheCapacity :=
  { nBlocks := 8, blockSize := 16, swaCount := 5, c2Count := 4, c1Count := 3 }

def v41Shape : KVCacheShape :=
  { shapeKind := .groupedPool, dsv41Pool := true, keyCacheShape := some [5, 4, 3] }

/-- The drafter's shape is received with one page for a block, so that its host rows differ, and the
pool of V4.1 is received as one of V4. -/
theorem drafterShape_not_received :
    construct cudaPlatform drafterCapacity drafterArgs 2 = .ok drafterShape ∧
      drafterShape.received = .ok { drafterShape with replicatedBlockPages := 1 } ∧
      drafterShape.hostRows drafterShape.keyCacheShape = .ok (some [4, 32, 4, 128]) ∧
      hostRows { drafterShape with replicatedBlockPages := 1 } drafterShape.keyCacheShape =
        .ok (some [8, 16, 4, 128]) ∧
      construct cudaPlatform v41Capacity { modelType := "deepseek_v41" } 2 = .ok v41Shape ∧
      v41Shape.received = .ok { v41Shape with dsv41Pool := false } ∧
      { v41Shape with dsv41Pool := false } ≠ v41Shape := by
  decide

end Xllm.Framework.KVCacheShape
