import Xllm.KvCacheTransfer.CacheLayout

/-!
# The spans of attention heads

`get_head_placement` and `describe_attention_heads` of
`core/framework/kv_cache/cache_layout_builder.cpp`: which KV heads a tensor-parallel rank holds, and
the spans that say where its cache tensor holds them. There are two regimes. With at least as many
heads as ranks the heads are split over the ranks; with fewer, each head is on several ranks and the
lowest of them owns it.

A tensor is its sizes and its element size. Its strides are those of a contiguous tensor, the only
kind the builder describes.
-/

namespace Xllm.Framework

/-! ## Data -/

inductive KVCacheTensorRole where
  | KEY | VALUE | INDEX | CONV | SSM | INDEX_SCALE | KEY_SCALE | VALUE_SCALE | WINDOW | CACHE_SCALE
  | KV_STATE | SCORE_STATE | INDEX_KV_STATE | INDEX_SCORE_STATE | SWA | COMPRESS_STATE
  | COMPRESS_INDEX_STATE | KPOOL_TAIL
  deriving DecidableEq, Repr

namespace KVCacheTensorRole

def value : KVCacheTensorRole → Int
  | KEY => 0
  | VALUE => 1
  | INDEX => 2
  | CONV => 3
  | SSM => 4
  | INDEX_SCALE => 5
  | KEY_SCALE => 6
  | VALUE_SCALE => 7
  | WINDOW => 8
  | CACHE_SCALE => 9
  | KV_STATE => 10
  | SCORE_STATE => 11
  | INDEX_KV_STATE => 12
  | INDEX_SCORE_STATE => 13
  | SWA => 14
  | COMPRESS_STATE => 15
  | COMPRESS_INDEX_STATE => 16
  | KPOOL_TAIL => 17

/-- `to_string`. -/
def toText : KVCacheTensorRole → String
  | KEY => "key"
  | VALUE => "value"
  | INDEX => "index"
  | CONV => "conv"
  | SSM => "ssm"
  | INDEX_SCALE => "index_scale"
  | KEY_SCALE => "key_scale"
  | VALUE_SCALE => "value_scale"
  | WINDOW => "window"
  | CACHE_SCALE => "cache_scale"
  | KV_STATE => "kv_state"
  | SCORE_STATE => "score_state"
  | INDEX_KV_STATE => "index_kv_state"
  | INDEX_SCORE_STATE => "index_score_state"
  | SWA => "swa"
  | COMPRESS_STATE => "compress_state"
  | COMPRESS_INDEX_STATE => "compress_index_state"
  | KPOOL_TAIL => "kpool_tail"

end KVCacheTensorRole

/-- A tensor, as far as a layout reads it. -/
structure Tensor where
  shape : List Nat
  elementSize : Nat
  isContiguous : Bool := true
  deriving DecidableEq, Repr

/-- The stride of an axis of a contiguous tensor: the elements of the axes inside it. -/
def Tensor.stride (tensor : Tensor) (dim : Nat) : Nat :=
  (tensor.shape.drop (dim + 1)).prod

structure KVCacheTensor where
  role : KVCacheTensorRole
  tensor : Tensor
  deriving DecidableEq, Repr

structure CacheTensorLayoutContext where
  tpRank : Int := 0
  tpSize : Int := 1
  blockTokenCapacity : Int := 0
  headMajorLayout : Bool := false
  deriving DecidableEq, Repr

/-! ## Head placement -/

def getHeadPlacement (globalHeadCount localHeadCount tpRank tpSize : Int) :
    Except String (Int × Int) :=
  if globalHeadCount ≤ 0 ∨ localHeadCount ≤ 0 ∨ tpSize ≤ 0 ∨ tpRank < 0 ∨ tpRank ≥ tpSize then
    .error "invalid TP head placement"
  else if globalHeadCount ≥ tpSize then
    if globalHeadCount % tpSize ≠ 0 ∨ localHeadCount ≠ globalHeadCount / tpSize then
      .error "global head count is not evenly sharded by TP"
    else .ok (tpRank * localHeadCount, 1)
  else if tpSize % globalHeadCount ≠ 0 ∨ localHeadCount ≠ 1 then
    .error "KV-head replication requires TP to be a multiple of heads"
  else .ok (tpRank / (tpSize / globalHeadCount), tpSize / globalHeadCount)

/-! ## Attention heads -/

def tensorStrideBytes (tensor : Tensor) (dim : Nat) : Nat :=
  tensor.stride dim * tensor.elementSize

def headBytes : List Nat → Nat → Except String Nat
  | [], bytesPerHead => .ok bytesPerHead
  | size :: inner, bytesPerHead =>
    if bytesPerHead ≠ 0 ∧ size > uint64Max / bytesPerHead then
      .error "cache tensor head byte size overflow"
    else headBytes inner (bytesPerHead * size)

def headAxis (context : CacheTensorLayoutContext) : Nat :=
  if context.headMajorLayout then 1 else 2

def tokenAxis (context : CacheTensorLayoutContext) : Nat :=
  if context.headMajorLayout then 2 else 1

def Tensor.size (tensor : Tensor) (dim : Nat) : Nat :=
  tensor.shape.getD dim 0

def innerBegin (context : CacheTensorLayoutContext) : Nat :=
  max (headAxis context) (tokenAxis context) + 1

def describeAttentionHeads (context : CacheTensorLayoutContext) (globalHeadCount : Int)
    (replicatedBlockPages : Int) (cacheTensor : KVCacheTensor) :
    Except String LogicalShardDescriptor := do
  let tensor := cacheTensor.tensor
  rejectIf (¬ tensor.isContiguous ∨ tensor.shape.length < 3 ∨ tensor.shape.length > 4)
    "head-sharded cache tensor must be contiguous and 3D/4D"
  rejectIf (headAxis context ≥ tensor.shape.length ∨ tokenAxis context ≥ tensor.shape.length)
    "cache tensor does not contain head and token axes"
  rejectIf (context.blockTokenCapacity > 0 ∧
    (tensor.size (tokenAxis context) : Int) ≠ context.blockTokenCapacity)
    "cache tensor token capacity differs from producer metadata"
  let localHeadCount := tensor.size (headAxis context)
  let (firstGlobalHead, replicaCount) ←
    getHeadPlacement globalHeadCount localHeadCount context.tpRank context.tpSize
  let bytesPerHead ← headBytes (tensor.shape.drop (innerBegin context)) tensor.elementSize
  rejectIf (replicatedBlockPages < 1) "cache replicated pages per block must be positive"
  let replicated := replicaCount > 1
  let tokenCount := tensor.size (tokenAxis context) * replicatedBlockPages.toNat
  return {
    kind := if replicated then LogicalShardKind.REPLICATED else LogicalShardKind.SHARDED
    resourceScope := CacheResourceScope.BLOCK
    spans := (List.range localHeadCount).map fun (localHead : Nat) =>
      let globalHead := firstGlobalHead + localHead
      { logicalTensor := cacheTensor.role.toText
        logicalOffsetBytes := globalHead.toNat * bytesPerHead
        physicalOffsetBytes := localHead * tensorStrideBytes tensor (headAxis context)
        bytesPerRegion := bytesPerHead
        repeatCount := tokenCount
        logicalStrideBytes := globalHeadCount.toNat * bytesPerHead
        physicalStrideBytes := tensorStrideBytes tensor (tokenAxis context)
        ownerTpRank := if replicated then globalHead * replicaCount else context.tpRank } }

end Xllm.Framework
