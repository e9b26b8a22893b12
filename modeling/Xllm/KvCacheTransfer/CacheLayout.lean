import Mathlib

/-!
# Cache layout manifests

`core/framework/kv_cache_transfer/cache_layout.h` and the checks of `cache_layout.cpp`. A worker
publishes a manifest of its cache tensors. Of every tensor it says which bytes of one resource (a
block or a sequence slot) hold which logical bytes, as spans that repeat with two strides, and which
tensor-parallel rank owns a span.

A `uint64_t` is a natural number; the checks that no sum or product leaves its range are the
source's. Signed fields are integers. A status is `Except String Unit`, and the enumerations, which
a manifest read from the wire may hold out of range, are their numbers.
-/

namespace Xllm.Framework

/-! ## Data -/

structure ParallelCoordinates where
  dpRank : Int := 0
  dpSize : Int := 1
  tpRank : Int := 0
  tpSize : Int := 1
  cpRank : Int := 0
  cpSize : Int := 1
  kvSplitRank : Int := 0
  kvSplitSize : Int := 1
  deriving DecidableEq, Repr

/-- `repeatCount` regions of logical bytes, and where a resource holds them. -/
structure LogicalSpan where
  logicalTensor : String
  logicalOffsetBytes : Nat := 0
  physicalOffsetBytes : Nat := 0
  bytesPerRegion : Nat := 0
  repeatCount : Nat := 1
  logicalStrideBytes : Nat := 0
  physicalStrideBytes : Nat := 0
  ownerTpRank : Int := 0
  deriving DecidableEq, Repr

/-- The numbers of `LogicalShardKind`. -/
def LogicalShardKind.REPLICATED : Int := 0
def LogicalShardKind.SHARDED : Int := 1
def LogicalShardKind.COMPOSITE : Int := 2

/-- The numbers of `CacheResourceScope`. -/
def CacheResourceScope.BLOCK : Int := 0
def CacheResourceScope.SEQUENCE : Int := 1

/-- The numbers of `CacheNamespace`. -/
def CacheNamespace.MAIN : Int := 0
def CacheNamespace.SPEC_DRAFT : Int := 1

structure LogicalShardDescriptor where
  kind : Int := LogicalShardKind.REPLICATED
  resourceScope : Int := CacheResourceScope.BLOCK
  spans : List LogicalSpan := []
  deriving DecidableEq, Repr

structure CacheTensorManifest where
  cacheNamespace : Int := CacheNamespace.MAIN
  layerId : Int := 0
  role : Int := 0
  groupId : Int := 0
  mooncakeBufferId : Int := 0
  scalarType : Int := 0
  elementBytes : Nat := 0
  shape : List Int := []
  stride : List Int := []
  storageOffsetBytes : Nat := 0
  contiguous : Bool := false
  resourceCount : Nat := 0
  physicalRowsPerResource : Nat := 1
  resourceStrideBytes : Nat := 0
  bufferBytes : Nat := 0
  blockTokenCapacity : Nat := 0
  explicitResourceOffsets : Bool := false
  shard : LogicalShardDescriptor := {}
  deriving DecidableEq, Repr

def kCacheLayoutSchemaVersion : Nat := 1

structure WorkerCacheLayoutManifest where
  schemaVersion : Nat := kCacheLayoutSchemaVersion
  incarnationId : String := ""
  layoutGeneration : Nat := 0
  fingerprint : String := ""
  backend : String := ""
  layoutFamily : String := ""
  clusterId : Nat := 0
  addr : String := ""
  coordinates : ParallelCoordinates := {}
  tensors : List CacheTensorManifest := []
  deriving DecidableEq, Repr

/-! ## Checks -/

/-- `if (bad) return invalid(message)`. -/
def rejectIf (bad : Prop) [Decidable bad] (message : String) : Except String Unit :=
  if bad then .error message else .ok ()

@[simp] theorem rejectIf_eq_ok {bad : Prop} [Decidable bad] {message : String} {u : Unit} :
    rejectIf bad message = .ok u ↔ ¬ bad := by
  rw [rejectIf]
  split
  · rename_i h
    simp [h]
  · rename_i h
    simp [h]

def uint64Max : Nat := 2 ^ 64 - 1

def addOverflows (lhs rhs : Nat) : Prop := rhs > uint64Max - lhs

def multiplyOverflows (lhs rhs : Nat) : Prop := lhs ≠ 0 ∧ rhs > uint64Max / lhs

instance (lhs rhs : Nat) : Decidable (addOverflows lhs rhs) :=
  inferInstanceAs (Decidable (rhs > _))

instance (lhs rhs : Nat) : Decidable (multiplyOverflows lhs rhs) :=
  inferInstanceAs (Decidable (_ ∧ _))

def validateCoordinates (coordinates : ParallelCoordinates) : Except String Unit := do
  rejectIf (coordinates.dpSize ≤ 0 ∨ coordinates.tpSize ≤ 0 ∨ coordinates.cpSize ≤ 0 ∨
    coordinates.kvSplitSize ≤ 0) "parallel sizes must be positive"
  rejectIf (coordinates.dpRank < 0 ∨ coordinates.dpRank ≥ coordinates.dpSize ∨
    coordinates.tpRank < 0 ∨ coordinates.tpRank ≥ coordinates.tpSize ∨
    coordinates.cpRank < 0 ∨ coordinates.cpRank ≥ coordinates.cpSize ∨
    coordinates.kvSplitRank < 0 ∨ coordinates.kvSplitRank ≥ coordinates.kvSplitSize)
    "parallel rank is outside its declared size"

def validateSpan (span : LogicalSpan) (tensor : CacheTensorManifest) : Except String Unit := do
  rejectIf (span.logicalTensor = "" ∨ span.bytesPerRegion = 0 ∨ span.repeatCount = 0)
    "logical span identity, length, and repeat must be set"
  rejectIf (span.ownerTpRank < 0) "logical span owner TP rank must be non-negative"
  let repeatDelta := span.repeatCount - 1
  rejectIf (multiplyOverflows repeatDelta span.physicalStrideBytes)
    "logical span physical stride overflows"
  let physicalTail := repeatDelta * span.physicalStrideBytes
  rejectIf (addOverflows span.physicalOffsetBytes physicalTail ∨
    addOverflows (span.physicalOffsetBytes + physicalTail) span.bytesPerRegion ∨
    span.physicalOffsetBytes + physicalTail + span.bytesPerRegion > tensor.resourceStrideBytes)
    "logical span exceeds its cache resource"
  rejectIf (multiplyOverflows repeatDelta span.logicalStrideBytes)
    "logical span canonical stride overflows"
  let logicalTail := repeatDelta * span.logicalStrideBytes
  rejectIf (addOverflows span.logicalOffsetBytes logicalTail ∨
    addOverflows (span.logicalOffsetBytes + logicalTail) span.bytesPerRegion)
    "logical span canonical range overflows"

def kMaxExpandedRegions : Nat := 2 ^ 20

/-- The first loop of `validate_physical_coverage`: the number of regions and of mapped bytes. -/
def countRegions : List LogicalSpan → Nat → Nat → Except String (Nat × Nat)
  | [], regionCount, mappedBytes => .ok (regionCount, mappedBytes)
  | span :: spans, regionCount, mappedBytes => do
    rejectIf (span.repeatCount > kMaxExpandedRegions - regionCount ∨
      multiplyOverflows span.repeatCount span.bytesPerRegion ∨
      addOverflows mappedBytes (span.repeatCount * span.bytesPerRegion))
      "logical shard physical coverage is too large"
    countRegions spans (regionCount + span.repeatCount)
      (mappedBytes + span.repeatCount * span.bytesPerRegion)

/-- The order of `std::pair`. -/
def pairLe (lhs rhs : Nat × Nat) : Prop :=
  lhs.1 < rhs.1 ∨ lhs.1 = rhs.1 ∧ lhs.2 ≤ rhs.2

instance : DecidableRel pairLe := fun _ _ => inferInstanceAs (Decidable (_ ∨ _))

def physicalIntervals (span : LogicalSpan) : List (Nat × Nat) :=
  (List.range span.repeatCount).map fun repeatIndex =>
    (span.physicalOffsetBytes + repeatIndex * span.physicalStrideBytes,
      span.physicalOffsetBytes + repeatIndex * span.physicalStrideBytes + span.bytesPerRegion)

/-- The second loop: each interval begins where the one before it ends. -/
def coverPhysical : List (Nat × Nat) → Nat → Except String Nat
  | [], cursor => .ok cursor
  | interval :: intervals, cursor => do
    rejectIf (interval.1 < cursor) "logical shard maps overlapping physical bytes"
    rejectIf (interval.1 > cursor) "logical shard does not describe all physical bytes"
    coverPhysical intervals interval.2

def validatePhysicalCoverage (tensor : CacheTensorManifest) : Except String Unit := do
  let counted ← countRegions tensor.shard.spans 0 0
  rejectIf (counted.2 ≠ tensor.resourceStrideBytes)
    "logical shard does not describe all physical bytes"
  let intervals := (tensor.shard.spans.flatMap physicalIntervals).insertionSort pairLe
  let cursor ← coverPhysical intervals 0
  rejectIf (cursor ≠ tensor.resourceStrideBytes)
    "logical shard does not describe all physical bytes"

/-- The loop over the axes, innermost first, with the stride a contiguous tensor has there; the
number of elements at its end. -/
def contiguousElements : List (Int × Int) → Nat → Except String Nat
  | [], expectedStride => .ok expectedStride
  | (dim, stride) :: axes, expectedStride => do
    rejectIf (dim ≠ 1 ∧ stride.toNat ≠ expectedStride) "cache tensor strides are not contiguous"
    rejectIf (multiplyOverflows expectedStride dim.toNat) "cache tensor element count overflows"
    contiguousElements axes (expectedStride * dim.toNat)

def validateContiguousShape (tensor : CacheTensorManifest) : Except String Unit := do
  rejectIf (tensor.physicalRowsPerResource = 0 ∨
    multiplyOverflows tensor.resourceCount tensor.physicalRowsPerResource ∨
    (tensor.shape.headD 0).toNat ≠ tensor.resourceCount * tensor.physicalRowsPerResource)
    "cache tensor resource geometry differs from shape[0]"
  let elements ← contiguousElements (tensor.shape.zip tensor.stride).reverse 1
  rejectIf (multiplyOverflows elements tensor.elementBytes) "cache tensor byte size overflows"
  rejectIf (multiplyOverflows tensor.resourceCount tensor.resourceStrideBytes ∨
    tensor.resourceCount * tensor.resourceStrideBytes ≠ elements * tensor.elementBytes)
    "cache tensor resource geometry differs from its shape"
  let rowStride := (tensor.stride.headD 0).toNat
  rejectIf (multiplyOverflows rowStride tensor.elementBytes ∨
    multiplyOverflows (rowStride * tensor.elementBytes) tensor.physicalRowsPerResource ∨
    rowStride * tensor.elementBytes * tensor.physicalRowsPerResource ≠ tensor.resourceStrideBytes)
    "cache tensor resource stride differs from physical rows"

/-- What the loop over the tensors has seen. -/
structure SeenTensors where
  bufferSizes : List (Int × Nat) := []
  tensorKeys : List (Int × Int × Int × Int) := []

def tensorKey (tensor : CacheTensorManifest) : Int × Int × Int × Int :=
  (tensor.cacheNamespace, tensor.layerId, tensor.role, tensor.groupId)

def validateSpans (tpSize : Int) (tensor : CacheTensorManifest) :
    List LogicalSpan → Except String Unit
  | [] => .ok ()
  | span :: spans => do
    rejectIf (span.ownerTpRank ≥ tpSize) "logical span owner is outside source TP size"
    validateSpan span tensor
    validateSpans tpSize tensor spans

/-- One pass of the loop over the tensors. -/
def validateTensor (tpSize : Int) (tensor : CacheTensorManifest) (seen : SeenTensors) :
    Except String SeenTensors := do
  rejectIf (tensor.cacheNamespace < CacheNamespace.MAIN ∨
    tensor.cacheNamespace > CacheNamespace.SPEC_DRAFT ∨ tensor.layerId < 0 ∨
    tensor.mooncakeBufferId < 0 ∨ tensor.elementBytes = 0 ∨ tensor.shape = [] ∨
    tensor.shape.length ≠ tensor.stride.length ∨ ¬ tensor.contiguous ∨ tensor.resourceCount = 0 ∨
    tensor.physicalRowsPerResource = 0 ∨ tensor.resourceStrideBytes = 0 ∨ tensor.bufferBytes = 0 ∨
    tensor.shard.spans = []) "cache tensor manifest is incomplete"
  rejectIf (tensorKey tensor ∈ seen.tensorKeys)
    "cache tensor manifest contains a duplicate tensor key"
  rejectIf ((∃ dim ∈ tensor.shape, dim ≤ 0) ∨ ∃ stride ∈ tensor.stride, stride ≤ 0)
    "cache tensor shape and stride must be positive"
  validateContiguousShape tensor
  let recorded := seen.bufferSizes.lookup tensor.mooncakeBufferId
  rejectIf (recorded ≠ none ∧ recorded ≠ some tensor.bufferBytes)
    "cache tensor records disagree on shared buffer size"
  rejectIf (multiplyOverflows tensor.resourceCount tensor.resourceStrideBytes ∨
    addOverflows tensor.storageOffsetBytes (tensor.resourceCount * tensor.resourceStrideBytes) ∨
    tensor.storageOffsetBytes + tensor.resourceCount * tensor.resourceStrideBytes >
      tensor.bufferBytes) "cache tensor resources exceed its registered buffer"
  rejectIf (tensor.shard.kind < LogicalShardKind.REPLICATED ∨
    tensor.shard.kind > LogicalShardKind.COMPOSITE ∨
    tensor.shard.resourceScope < CacheResourceScope.BLOCK ∨
    tensor.shard.resourceScope > CacheResourceScope.SEQUENCE)
    "cache tensor contains an unknown shard enum value"
  validateSpans tpSize tensor tensor.shard.spans
  validatePhysicalCoverage tensor
  return { bufferSizes := (tensor.mooncakeBufferId, tensor.bufferBytes) :: seen.bufferSizes
           tensorKeys := tensorKey tensor :: seen.tensorKeys }

def validateTensors (tpSize : Int) :
    List CacheTensorManifest → SeenTensors → Except String Unit
  | [], _ => .ok ()
  | tensor :: tensors, seen => do
    let seen ← validateTensor tpSize tensor seen
    validateTensors tpSize tensors seen

def validateWorkerCacheLayout (manifest : WorkerCacheLayoutManifest) : Except String Unit := do
  rejectIf (manifest.schemaVersion ≠ kCacheLayoutSchemaVersion)
    "unsupported cache layout schema version"
  rejectIf (manifest.incarnationId = "" ∨ manifest.layoutGeneration = 0 ∨
    manifest.fingerprint = "" ∨ manifest.backend = "" ∨ manifest.layoutFamily = "" ∨
    manifest.addr = "") "cache layout identity and compatibility fields are required"
  validateCoordinates manifest.coordinates
  rejectIf (manifest.tensors = []) "cache layout must contain at least one tensor"
  validateTensors manifest.coordinates.tpSize manifest.tensors {}

end Xllm.Framework
