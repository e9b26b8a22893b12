import Mathlib.Data.List.Infix
import Xllm.Lib.Outcome

/-!
# The shape of a cache

`core/framework/kv_cache/kv_cache_shape.cpp`: how a shape is built from a capacity and a model's
arguments, and its two conversions, `to_proto` and `from_proto`. The engine sends the message to
its remote workers, which allocate from what they read there.

A failed `CHECK` is an error with its message. What the build and the platform fix is a `Platform`.
Integers are unbounded: their width matters to nothing below.
-/

namespace Xllm.Framework

open Xllm.Lib

/-! ## What a shape is built from -/

/-- Which `USE_…` are defined, what the platform and the configuration say. -/
structure Platform where
  useNpu : Bool
  useMlu : Bool
  useIlu : Bool
  useDcu : Bool
  useMusa : Bool
  requiresDsaIndexerCacheReplication : Bool
  kvSplitSizeEffective : Int
  enablePrefixCache : Bool

inductive KPoolCacheLayout
  | packed
  | compressedWithTail
  deriving DecidableEq, Repr

/-- The value of the enumerator. -/
def KPoolCacheLayout.toInt32 : KPoolCacheLayout → Int
  | .packed => 0
  | .compressedWithTail => 1

/-- `KVCacheCapacity`, where a shape reads it. -/
structure KVCacheCapacity where
  nBlocks : Int
  blockSize : Int
  replicatedBlockPages : Int := 1
  kpoolLayout : KPoolCacheLayout := .packed
  kpoolTailLen : Int := 0
  enableIndexerCacheQuant : Bool := false
  enableMlaKvCacheQuant : Bool := false
  linearConvStateLen : Int := 0
  linearSsmCheckpointStride : Int := 1
  numLinearStateBlocks : Int := 0
  swaCount : Int := 0
  c4Count : Int := 0
  c128Count : Int := 0
  c2Count : Int := 0
  c1Count : Int := 0

/-- `ModelArgs`, where a shape reads it. -/
structure ModelArgs where
  modelType : String
  nHeads : Int := 0
  nKvHeads : Option Int := none
  headDim : Int := 0
  enableMla : Bool := false
  qkRopeHeadDim : Int := 0
  kvLoraRank : Int := 0
  indexHeadDim : Int := 0
  indexNHeads : Int := 0
  indexKpool : Int := 1
  indexKpoolCompress : Bool := false
  fullAttentionInterval : Int := 0
  linearConvKernelDim : Int := 0
  linearKeyHeadDim : Int := 0
  linearValueHeadDim : Int := 0
  linearNumKeyHeads : Int := 0
  linearNumValueHeads : Int := 0
  layerTypes : List String := []

/-! ### Model types -/

/-- `model_type.find("mtp")` finds something. -/
def hasMtpModelTypeMarker (modelType : String) : Bool :=
  "mtp".toList <:+: modelType.toList

def startsWithModelType (modelType targetModelType : String) : Bool :=
  targetModelType.toList.isPrefixOf modelType.toList

def isTargetMtpModelType (modelType targetModelType : String) : Bool :=
  startsWithModelType modelType targetModelType && hasMtpModelTypeMarker modelType

def isDeepseekV4DSparkModelType (modelType : String) : Bool :=
  modelType == "deepseek_v4_dspark" || modelType == "deepseek_v41_dspark"

def isDeepseekV41ModelType (modelType : String) : Bool := modelType == "deepseek_v41"

def isDeepseekV4ModelType (modelType : String) : Bool :=
  modelType == "deepseek_v4" || isDeepseekV4DSparkModelType modelType ||
    isDeepseekV41ModelType modelType || isTargetMtpModelType modelType "deepseek_v4"

theorem isDeepseekV4ModelType_of_v41 {modelType : String}
    (h : isDeepseekV41ModelType modelType = true) : isDeepseekV4ModelType modelType = true := by
  unfold isDeepseekV4ModelType
  rw [h, Bool.or_true, Bool.true_or]

def hasLinearAttentionLayers (modelArgs : ModelArgs) : Bool :=
  if modelArgs.layerTypes ≠ [] then
    modelArgs.layerTypes.any fun layerType =>
      layerType != "full_attention" && layerType != "attention" &&
        layerType != "deepseek_sparse_attention"
  else modelArgs.fullAttentionInterval > 1

def useNpuNzKvCacheLayout (platform : Platform) (modelType : String) : Bool :=
  (modelType == "deepseek_v3" || modelType == "deepseek_v3_mtp") && platform.enablePrefixCache

/-! ## The shape -/

inductive ShapeKind
  | normal
  | groupedPool
  deriving DecidableEq, Repr

structure KVCacheShape where
  kpoolLayout : KPoolCacheLayout := .packed
  replicatedBlockPages : Int := 1
  kpoolTailShape : Option (List Int) := none
  shapeKind : ShapeKind := .normal
  /-- The counts of a grouped pool are those of V4.1. -/
  dsv41Pool : Bool := false
  keyCacheShape : Option (List Int) := none
  valueCacheShape : Option (List Int) := none
  indexCacheShape : Option (List Int) := none
  indexCacheScaleShape : Option (List Int) := none
  convCacheShape : Option (List Int) := none
  ssmCacheShape : Option (List Int) := none
  deriving DecidableEq

def kNzAlignment : Int := 16

/-- `util::ceil_div` by a positive divisor. -/
def ceilDiv (value divisor : Int) : Int :=
  value.tdiv divisor + if value.tmod divisor ≠ 0 then 1 else 0

def getLocalHeadCount (totalHeadCount worldSize : Int) : Except String Int := do
  check (0 < worldSize) "world_size must be positive."
  return max 1 (totalHeadCount.tdiv worldSize)

/-- `std::swap((*shape)[1], (*shape)[2])`, where there are two such axes. -/
def transposeDim1And2 : List Int → List Int
  | first :: second :: third :: rest => first :: third :: second :: rest
  | shape => shape

def indexerPagesPerBlock (platform : Platform) : Int :=
  if platform.requiresDsaIndexerCacheReplication = false then 1
  else max platform.kvSplitSizeEffective 1

namespace KVCacheShape

variable (platform : Platform) (kvCacheCap : KVCacheCapacity) (modelArgs : ModelArgs)
  (worldSize : Int)

def initDsv4PoolShape (shape : KVCacheShape) : KVCacheShape :=
  let shape := { shape with
    shapeKind := .groupedPool
    dsv41Pool := isDeepseekV41ModelType modelArgs.modelType }
  if shape.dsv41Pool then
    { shape with
      keyCacheShape := some [kvCacheCap.swaCount, kvCacheCap.c2Count, kvCacheCap.c1Count] }
  else
    { shape with
      keyCacheShape := some [kvCacheCap.swaCount, kvCacheCap.c4Count, kvCacheCap.c128Count] }

/-- What a key and a value cache without MLA have in common. -/
def attentionShape : Except String (List Int) := do
  let totalKvHeadCount := modelArgs.nKvHeads.getD modelArgs.nHeads
  let localKvHeadCount ← getLocalHeadCount totalKvHeadCount worldSize
  return [kvCacheCap.nBlocks, kvCacheCap.blockSize, localKvHeadCount, modelArgs.headDim]

/-- An MLA cache of so many elements per token. -/
def mlaShape (elements : Int) : List Int :=
  if platform.useNpu ∧ useNpuNzKvCacheLayout platform modelArgs.modelType then
    [kvCacheCap.nBlocks, ceilDiv elements kNzAlignment, kvCacheCap.blockSize, kNzAlignment]
  else [kvCacheCap.nBlocks, kvCacheCap.blockSize, 1, elements]

def initKeyCacheShape (shape : KVCacheShape) : Except String KVCacheShape := do
  if modelArgs.enableMla then
    return { shape with
      keyCacheShape := some (mlaShape platform kvCacheCap modelArgs modelArgs.kvLoraRank) }
  else
    return { shape with keyCacheShape := some (← attentionShape kvCacheCap modelArgs worldSize) }

def initValueCacheShape (shape : KVCacheShape) : Except String KVCacheShape := do
  if modelArgs.enableMla then
    if modelArgs.qkRopeHeadDim = 0 then
      return { shape with valueCacheShape := none }
    else
      return { shape with
        valueCacheShape := some (mlaShape platform kvCacheCap modelArgs modelArgs.qkRopeHeadDim) }
  else
    return { shape with valueCacheShape := some (← attentionShape kvCacheCap modelArgs worldSize) }

/-- `MlaPackedC8Layout`. -/
def kTileSize : Int := 128
def kRopeElementBytes : Int := 2
def kScaleElementBytes : Int := 4

def initMlaPackedC8Shape (shape : KVCacheShape) : Except String KVCacheShape := do
  let nopeBytes := modelArgs.kvLoraRank
  let ropeBytes := kRopeElementBytes * modelArgs.qkRopeHeadDim
  check (nopeBytes.tmod kTileSize = 0)
    s!"kv_lora_rank must be a multiple of the SFA C8 tile size ({kTileSize})."
  let scaleBytes := kScaleElementBytes * nopeBytes.tdiv kTileSize
  let packedHeadDim := nopeBytes + ropeBytes + scaleBytes
  let packed := [kvCacheCap.nBlocks, kvCacheCap.blockSize, 1, packedHeadDim]
  return { shape with keyCacheShape := some packed, valueCacheShape := some packed }

def initIndexCacheShape (shape : KVCacheShape) : Except String KVCacheShape := do
  let indexBlockCount := kvCacheCap.nBlocks * indexerPagesPerBlock platform
  if shape.kpoolLayout = .compressedWithTail ∧ modelArgs.indexKpoolCompress then
    check (kvCacheCap.blockSize.tmod modelArgs.indexKpool = 0)
      "KPool cache block_size must be divisible by index_kpool."
    return { shape with
      indexCacheShape := some [indexBlockCount,
        kvCacheCap.blockSize.tdiv modelArgs.indexKpool, 1, modelArgs.indexHeadDim] }
  else
    let cacheHeadDim :=
      if modelArgs.indexKpoolCompress then modelArgs.indexHeadDim * 2 + 1
      else modelArgs.indexHeadDim
    return { shape with
      indexCacheShape := some [indexBlockCount, kvCacheCap.blockSize, 1, cacheHeadDim] }

/-- The tail next to a compressed index cache. -/
def initKpoolTailShape (shape : KVCacheShape) : Except String KVCacheShape := do
  if modelArgs.indexKpoolCompress ∧ shape.kpoolLayout = .compressedWithTail then
    check (0 < kvCacheCap.numLinearStateBlocks) "kv_cache_cap.num_linear_state_blocks() > 0"
    return { shape with
      kpoolTailShape := some [kvCacheCap.numLinearStateBlocks, 2,
        max modelArgs.indexKpool kvCacheCap.kpoolTailLen, modelArgs.indexHeadDim] }
  else return shape

def initIndexCacheScaleShape (shape : KVCacheShape) : Except String KVCacheShape := do
  match shape.indexCacheShape with
  | none => throw "index_cache_shape must be initialized before index cache scale."
  | some indexCacheShape =>
    check (indexCacheShape.length = 4)
      "index_cache_shape must be [blocks, heads, block_size, head_dim]."
    return { shape with indexCacheScaleShape := some (indexCacheShape.take 3) }

def convStateLen : Int :=
  if kvCacheCap.linearConvStateLen > 0 then kvCacheCap.linearConvStateLen
  else modelArgs.linearConvKernelDim - 1

def initConvCacheShape (shape : KVCacheShape) : Except String KVCacheShape := do
  let localLinearKHeadCount ← getLocalHeadCount modelArgs.linearNumKeyHeads worldSize
  let localLinearVHeadCount ← getLocalHeadCount modelArgs.linearNumValueHeads worldSize
  let convStateLen := convStateLen kvCacheCap modelArgs
  if platform.useMusa then
    return { shape with
      convCacheShape := some [kvCacheCap.numLinearStateBlocks,
        modelArgs.linearKeyHeadDim * localLinearKHeadCount * 2 +
          modelArgs.linearValueHeadDim * localLinearVHeadCount, convStateLen] }
  else
    -- the last factor is the key head's dimension here
    return { shape with
      convCacheShape := some [kvCacheCap.numLinearStateBlocks, convStateLen,
        modelArgs.linearKeyHeadDim * localLinearKHeadCount * 2 +
          modelArgs.linearKeyHeadDim * localLinearVHeadCount] }

def initSsmCacheShape (shape : KVCacheShape) : Except String KVCacheShape := do
  let localLinearVHeadCount ← getLocalHeadCount modelArgs.linearNumValueHeads worldSize
  let checkpointStride := max kvCacheCap.linearSsmCheckpointStride 1
  if platform.useMusa then
    return { shape with
      ssmCacheShape := some [kvCacheCap.numLinearStateBlocks * checkpointStride,
        localLinearVHeadCount, modelArgs.linearValueHeadDim, modelArgs.linearKeyHeadDim] }
  else
    return { shape with
      ssmCacheShape := some [kvCacheCap.numLinearStateBlocks * checkpointStride,
        localLinearVHeadCount, modelArgs.linearKeyHeadDim, modelArgs.linearValueHeadDim] }

/-- The first part of `apply_device_layout`, on MLU and ILU. -/
def transposeLayout (shape : KVCacheShape) : KVCacheShape :=
  if platform.useMlu ∨ platform.useIlu then
    { shape with
      keyCacheShape := shape.keyCacheShape.map transposeDim1And2
      valueCacheShape := shape.valueCacheShape.map transposeDim1And2
      indexCacheShape := shape.indexCacheShape.map transposeDim1And2 }
  else shape

/-- The second, on MLU and DCU: one tensor holds both parts of an MLA cache. -/
def joinMlaLayout (shape : KVCacheShape) : Except String KVCacheShape := do
  if (platform.useMlu ∨ platform.useDcu) ∧ modelArgs.enableMla then
    match shape.keyCacheShape with
    | none => throw "key_cache_shape is not initialized."
    | some keyCacheShape =>
      check (4 ≤ keyCacheShape.length) "invalid mla key_cache_shape."
      return { shape with
        keyCacheShape := some (keyCacheShape.set 3 (modelArgs.kvLoraRank + modelArgs.qkRopeHeadDim))
        valueCacheShape := none }
  else return shape

def applyDeviceLayout (shape : KVCacheShape) : Except String KVCacheShape :=
  joinMlaLayout platform modelArgs (transposeLayout platform shape)

/-! ### The constructor -/

/-- `replicated_block_pages_`, checked against the blocks. -/
def initReplicatedBlockPages : Except String KVCacheShape := do
  let replicatedBlockPages := max kvCacheCap.replicatedBlockPages 1
  check (replicatedBlockPages > 1 → kvCacheCap.nBlocks.tmod replicatedBlockPages = 0)
    s!"A replicated cache pool must own a whole number of logical blocks: n_blocks={
      kvCacheCap.nBlocks}, replicated_block_pages={replicatedBlockPages}"
  return { replicatedBlockPages := replicatedBlockPages }

/-- The key and the value cache. -/
def initMainShapes (shape : KVCacheShape) : Except String KVCacheShape :=
  if kvCacheCap.enableMlaKvCacheQuant then initMlaPackedC8Shape kvCacheCap modelArgs shape
  else do
    let shape ← initKeyCacheShape platform kvCacheCap modelArgs worldSize shape
    initValueCacheShape platform kvCacheCap modelArgs worldSize shape

def initIndexShapes (shape : KVCacheShape) : Except String KVCacheShape :=
  if modelArgs.indexNHeads > 0 then do
    let shape ← initIndexCacheShape platform kvCacheCap modelArgs shape
    initKpoolTailShape kvCacheCap modelArgs shape
  else return shape

def initLinearShapes (shape : KVCacheShape) : Except String KVCacheShape :=
  if hasLinearAttentionLayers modelArgs then do
    let shape ← initConvCacheShape platform kvCacheCap modelArgs worldSize shape
    initSsmCacheShape platform kvCacheCap modelArgs worldSize shape
  else return shape

def initScaleShape (shape : KVCacheShape) : Except String KVCacheShape :=
  if modelArgs.indexNHeads > 0 ∧ kvCacheCap.enableIndexerCacheQuant then
    initIndexCacheScaleShape shape
  else return shape

def construct : Except String KVCacheShape := do
  check (0 < worldSize) "world_size must be positive."
  check (0 < kvCacheCap.blockSize) "block_size must be positive."
  let shape ← initReplicatedBlockPages kvCacheCap
  if isDeepseekV4ModelType modelArgs.modelType then
    return initDsv4PoolShape kvCacheCap modelArgs shape
  else
    let shape ← initMainShapes platform kvCacheCap modelArgs worldSize { shape with
      kpoolLayout := if modelArgs.indexKpoolCompress then kvCacheCap.kpoolLayout else .packed }
    let shape ← initIndexShapes platform kvCacheCap modelArgs shape
    let shape ← initLinearShapes platform kvCacheCap modelArgs worldSize shape
    let shape ← applyDeviceLayout platform modelArgs shape
    initScaleShape kvCacheCap modelArgs shape

end KVCacheShape

/-! ## The message -/

/-- `proto::KVCacheShape`. A repeated field that was not set is empty. -/
structure KVCacheShapeProto where
  keyCacheShape : List Int := []
  valueCacheShape : List Int := []
  indexCacheShape : List Int := []
  convCacheShape : List Int := []
  ssmCacheShape : List Int := []
  indexCacheScaleShape : List Int := []
  groupedCacheLayout : Bool := false
  kpoolLayout : Int := 0
  kpoolTailShape : List Int := []
  deriving DecidableEq

namespace KVCacheShape

/-- An accessor of a shape that may be absent, `empty_shape()` then. -/
def orEmpty (shape : Option (List Int)) : List Int := shape.getD []

def toProto (shape : KVCacheShape) : Except String KVCacheShapeProto := do
  match shape.keyCacheShape with
  | none => throw "key_cache_shape is not initialized."
  | some keyCacheShape =>
    return {
      groupedCacheLayout := shape.shapeKind = .groupedPool
      kpoolLayout := shape.kpoolLayout.toInt32
      kpoolTailShape := orEmpty shape.kpoolTailShape
      keyCacheShape := keyCacheShape
      valueCacheShape := orEmpty shape.valueCacheShape
      indexCacheShape := orEmpty shape.indexCacheShape
      indexCacheScaleShape := orEmpty shape.indexCacheScaleShape
      convCacheShape := orEmpty shape.convCacheShape
      ssmCacheShape := if shape.convCacheShape.isSome then orEmpty shape.ssmCacheShape else [] }

/-- A repeated field is taken when it has elements. -/
def fromRepeated (field : List Int) : Option (List Int) :=
  if field.length > 0 then some field else none

def kpoolLayoutOf (value : Int) : Except String KPoolCacheLayout :=
  if value = KPoolCacheLayout.packed.toInt32 then .ok .packed
  else if value = KPoolCacheLayout.compressedWithTail.toInt32 then .ok .compressedWithTail
  else .error s!"unknown kpool_layout={value}"

/-- What it does not set stays as in the default shape. -/
def fromProto (protoShape : KVCacheShapeProto) : Except String KVCacheShape := do
  let kpoolLayout ← kpoolLayoutOf protoShape.kpoolLayout
  return {
    kpoolLayout := kpoolLayout
    kpoolTailShape := fromRepeated protoShape.kpoolTailShape
    shapeKind := if protoShape.groupedCacheLayout then .groupedPool else .normal
    keyCacheShape := some protoShape.keyCacheShape
    valueCacheShape := fromRepeated protoShape.valueCacheShape
    indexCacheShape := fromRepeated protoShape.indexCacheShape
    indexCacheScaleShape := fromRepeated protoShape.indexCacheScaleShape
    convCacheShape := fromRepeated protoShape.convCacheShape
    ssmCacheShape := fromRepeated protoShape.ssmCacheShape }

/-- What a remote worker allocates from. -/
def received (shape : KVCacheShape) : Except String KVCacheShape :=
  shape.toProto >>= fromProto

/-! ## Block geometry -/

/-- `fold_shape_for_host_transfer` of a key or a value cache: `replicated_block_pages` rows become
one. -/
def foldShapeForHostTransfer (shape : List Int) (replicatedBlockPages : Int) :
    Except String (List Int) := do
  let pages := max replicatedBlockPages 1
  if pages ≤ 1 then return shape
  else
    match shape with
    | rows :: tokens :: rest =>
      check (rows.tmod pages = 0) "cache shape rows must be divisible by pages-per-block"
      return rows.tdiv pages :: tokens * pages :: rest
    | _ => throw "a folded cache shape needs at least [rows, tokens]"

/-- The rows of a block in the host's key and value caches. -/
def hostRows (shape : KVCacheShape) (cache : Option (List Int)) :
    Except String (Option (List Int)) :=
  match cache with
  | none => .ok none
  | some cache => some <$> foldShapeForHostTransfer cache shape.replicatedBlockPages

end KVCacheShape

end Xllm.Framework
