import Xllm.KvCacheTransfer.CacheLayoutBuilder
import Xllm.KvCacheTransfer.PushBlocks

/-!
# The reshard planner

`core/framework/kv_cache_transfer/reshard_planner.cpp`: the manifests of the source workers and of
one destination worker are expanded into regions of logical bytes; `selectSources` decides which
sources the destination links to, and `buildOutgoingPlan` what one source writes.

A `std::map` of regions is a list of its keys, in their order, with their regions. The binding of a
plan to the resources of a request is not modelled.
-/

namespace Xllm.Framework

/-! ## Regions -/

structure LogicalTensorKey where
  cacheNamespace : Int
  layerId : Int
  role : Int
  groupId : Int
  logicalTensor : String
  deriving DecidableEq, Repr

structure AtomicLogicalRegion where
  cacheNamespace : Int
  layerId : Int
  role : Int
  groupId : Int
  logicalTensor : String
  logicalOffset : Nat
  physicalOffset : Nat
  length : Nat
  tensor : CacheTensorManifest
  deriving DecidableEq

abbrev RegionGroup := List AtomicLogicalRegion

abbrev RegionGroups := List (LogicalTensorKey × RegionGroup)

abbrev CoverageKey := Int × Int

def logicalTensorKey (region : AtomicLogicalRegion) : LogicalTensorKey :=
  ⟨region.cacheNamespace, region.layerId, region.role, region.groupId, region.logicalTensor⟩

def logicalEnd (region : AtomicLogicalRegion) : Nat :=
  region.logicalOffset + region.length

/-! ## Compatibility -/

def sameInstanceLayout (source destination : WorkerCacheLayoutManifest) : Prop :=
  source.schemaVersion = destination.schemaVersion ∧ source.fingerprint = destination.fingerprint ∧
    source.backend = destination.backend ∧ source.layoutFamily = destination.layoutFamily

def samePartition (source destination : ParallelCoordinates) : Prop :=
  source.cpSize = destination.cpSize ∧ source.cpRank = destination.cpRank ∧
    source.kvSplitSize = destination.kvSplitSize ∧ source.kvSplitRank = destination.kvSplitRank

def samePartitionSizes (source destination : ParallelCoordinates) : Prop :=
  source.cpSize = destination.cpSize ∧ source.kvSplitSize = destination.kvSplitSize

def kvSplitSpansCpAndTp (coordinates : ParallelCoordinates) : Prop :=
  coordinates.kvSplitSize = coordinates.cpSize * coordinates.tpSize

instance (source destination : WorkerCacheLayoutManifest) :
    Decidable (sameInstanceLayout source destination) :=
  inferInstanceAs (Decidable (_ ∧ _))

instance (source destination : ParallelCoordinates) :
    Decidable (samePartition source destination) :=
  inferInstanceAs (Decidable (_ ∧ _))

instance (source destination : ParallelCoordinates) :
    Decidable (samePartitionSizes source destination) :=
  inferInstanceAs (Decidable (_ ∧ _))

instance (coordinates : ParallelCoordinates) : Decidable (kvSplitSpansCpAndTp coordinates) :=
  inferInstanceAs (Decidable (_ = _))

def supportsKvSplitTopology (coordinates : ParallelCoordinates) : Prop :=
  coordinates.cpSize % coordinates.kvSplitSize = 0 ∨ kvSplitSpansCpAndTp coordinates

instance (coordinates : ParallelCoordinates) : Decidable (supportsKvSplitTopology coordinates) :=
  inferInstanceAs (Decidable (_ ∨ _))

def supportsPartitionLayout (source destination : ParallelCoordinates) : Prop :=
  samePartitionSizes source destination ∨
    destination.cpSize = 1 ∧ destination.cpRank = 0 ∧
      (destination.kvSplitSize = 1 ∨
        supportsKvSplitTopology source ∧ source.kvSplitSize = destination.kvSplitSize)

instance (source destination : ParallelCoordinates) :
    Decidable (supportsPartitionLayout source destination) :=
  inferInstanceAs (Decidable (_ ∨ _))

def supportsPartitionPair (source destination : ParallelCoordinates) : Prop :=
  if samePartitionSizes source destination then samePartition source destination
  else supportsPartitionLayout source destination ∧
    (destination.kvSplitSize = 1 ∨ source.kvSplitRank = destination.kvSplitRank)

instance (source destination : ParallelCoordinates) :
    Decidable (supportsPartitionPair source destination) :=
  inferInstanceAs (Decidable (if samePartitionSizes source destination then
      samePartition source destination
    else supportsPartitionLayout source destination ∧
      (destination.kvSplitSize = 1 ∨ source.kvSplitRank = destination.kvSplitRank)))

/-- A status with its message put behind `label`. -/
def labelled (label : String) (status : Except String Unit) : Except String Unit :=
  status.mapError (label ++ ·)

def validateCompatibility (source destination : WorkerCacheLayoutManifest) :
    Except String Unit := do
  labelled "invalid source layout: " (validateWorkerCacheLayout source)
  labelled "invalid destination layout: " (validateWorkerCacheLayout destination)
  rejectIf (¬ sameInstanceLayout source destination)
    "source and destination cache layouts are incompatible"
  rejectIf (¬ supportsPartitionPair source.coordinates destination.coordinates)
    "source and destination CP/KV-split partitions are unsupported"

/-! ## Writers -/

structure SpanOwnerKey where
  cacheNamespace : Int
  layerId : Int
  role : Int
  groupId : Int
  logicalTensor : String
  logicalOffset : Nat
  deriving DecidableEq, Repr

def spanOwnerKey (tensor : CacheTensorManifest) (span : LogicalSpan) : SpanOwnerKey :=
  ⟨tensor.cacheNamespace, tensor.layerId, tensor.role, tensor.groupId, span.logicalTensor,
    span.logicalOffsetBytes⟩

def manifestSpans (manifest : WorkerCacheLayoutManifest) : List (SpanOwnerKey × Int) :=
  manifest.tensors.flatMap fun tensor =>
    tensor.shard.spans.map fun span => (spanOwnerKey tensor span, span.ownerTpRank)

structure SpanWriters where
  byDeclaration : Bool := false
  resolved : List (SpanOwnerKey × Int) := []
  deriving DecidableEq, Repr

namespace SpanWriters

def everything : SpanWriters := {}

def declared : SpanWriters := { byDeclaration := true }

structure SpanHolders where
  declaredOwner : Option Int := none
  conflicting : Bool := false
  lowestTpRank : Int := -1

/-- One holder of a span more, and the owner it declares. -/
def SpanHolders.add (entry : SpanHolders) (holder : Int × Int) : SpanHolders :=
  let lowest :=
    if entry.lowestTpRank < 0 then holder.1 else min entry.lowestTpRank holder.1
  if holder.2 < 0 then { entry with lowestTpRank := lowest, conflicting := true }
  else
    match entry.declaredOwner with
    | none => { entry with lowestTpRank := lowest, declaredOwner := some holder.2 }
    | some owner =>
      if owner ≠ holder.2 then { entry with lowestTpRank := lowest, conflicting := true }
      else { entry with lowestTpRank := lowest }

/-- The lowest rank of the candidates that holds a span, where their declarations agree. -/
def lowestOf (sources : List WorkerCacheLayoutManifest) (candidates : List Nat) : SpanWriters :=
  let spans := candidates.flatMap fun index =>
    let source := sources.getD index {}
    (manifestSpans source).map fun span => (span.1, source.coordinates.tpRank, span.2)
  { byDeclaration := true
    resolved := (spans.map (·.1)).dedup.filterMap fun key =>
      let entry := ((spans.filter (·.1 = key)).map (·.2)).foldl SpanHolders.add {}
      if entry.conflicting then none else some (key, entry.lowestTpRank) }

def writes (writers : SpanWriters) (tensor : CacheTensorManifest) (span : LogicalSpan)
    (tpRank : Int) : Bool :=
  if ¬ writers.byDeclaration then true
  else tpRank = ((writers.resolved.lookup (spanOwnerKey tensor span)).getD span.ownerTpRank)

end SpanWriters

def sourceWriters (coordinates : ParallelCoordinates) : SpanWriters :=
  if kvSplitSpansCpAndTp coordinates then SpanWriters.everything else SpanWriters.declared

/-! ## Expansion -/

def expandSpan (tensor : CacheTensorManifest) (span : LogicalSpan) : List AtomicLogicalRegion :=
  (List.range span.repeatCount).map fun repeatIndex =>
    { cacheNamespace := tensor.cacheNamespace
      layerId := tensor.layerId
      role := tensor.role
      groupId := tensor.groupId
      logicalTensor := span.logicalTensor
      logicalOffset := span.logicalOffsetBytes + repeatIndex * span.logicalStrideBytes
      physicalOffset := span.physicalOffsetBytes + repeatIndex * span.physicalStrideBytes
      length := span.bytesPerRegion
      tensor := tensor }

def expandTensor (tensor : CacheTensorManifest) (writers : SpanWriters) (tpRank : Int) :
    List AtomicLogicalRegion :=
  (tensor.shard.spans.filter (writers.writes tensor · tpRank)).flatMap (expandSpan tensor)

def expandManifest (manifest : WorkerCacheLayoutManifest) (writers : SpanWriters) :
    List AtomicLogicalRegion :=
  manifest.tensors.flatMap (expandTensor · writers manifest.coordinates.tpRank)

/-- The order of `LogicalTensorKey`. -/
def keyLe (lhs rhs : LogicalTensorKey) : Prop :=
  ((compare lhs.cacheNamespace rhs.cacheNamespace).then ((compare lhs.layerId rhs.layerId).then
      ((compare lhs.role rhs.role).then ((compare lhs.groupId rhs.groupId).then
          (compare lhs.logicalTensor rhs.logicalTensor))))).isLE = true

instance : DecidableRel keyLe := fun _ _ => inferInstanceAs (Decidable (_ = true))

/-- The order of the regions of a group: by logical offset, length and physical offset. -/
def regionLe (lhs rhs : AtomicLogicalRegion) : Prop :=
  lhs.logicalOffset < rhs.logicalOffset ∨ lhs.logicalOffset = rhs.logicalOffset ∧
    (lhs.length < rhs.length ∨ lhs.length = rhs.length ∧ lhs.physicalOffset ≤ rhs.physicalOffset)

instance : DecidableRel regionLe := fun _ _ => inferInstanceAs (Decidable (_ ∨ _))

/-- The group of `key`, sorted. -/
def regionGroup (regions : List AtomicLogicalRegion) (key : LogicalTensorKey) : RegionGroup :=
  (regions.filter (logicalTensorKey · = key)).insertionSort regionLe

def groupRegions (regions : List AtomicLogicalRegion) : RegionGroups :=
  ((regions.map logicalTensorKey).dedup.insertionSort keyLe).map fun key =>
    (key, regionGroup regions key)

/-! ## Overlaps -/

section Visit

variable {σ : Type} (visitor : σ → AtomicLogicalRegion → AtomicLogicalRegion → Except String σ)

/-- The inner loop: the regions on the right that overlap `left`. -/
def visitRight (left : AtomicLogicalRegion) : RegionGroup → σ → Except String σ
  | [], state => .ok state
  | right :: rest, state =>
    if right.logicalOffset ≥ logicalEnd left then .ok state
    else if logicalEnd right ≤ left.logicalOffset then visitRight left rest state
    else do
      let state ← visitor state left right
      visitRight left rest state

/-- The outer loop; the list on the right starts at `right_begin`. -/
def visitOverlaps : RegionGroup → RegionGroup → σ → Except String σ
  | [], _, state => .ok state
  | left :: rest, right, state => do
    let right := right.dropWhile (logicalEnd · ≤ left.logicalOffset)
    let state ← visitRight visitor left right state
    visitOverlaps rest right state

end Visit

def validateTensorPair (source destination : AtomicLogicalRegion) : Except String Unit :=
  rejectIf (source.tensor.scalarType ≠ destination.tensor.scalarType ∨
    source.tensor.elementBytes ≠ destination.tensor.elementBytes ∨
    source.tensor.blockTokenCapacity ≠ destination.tensor.blockTokenCapacity ∨
    source.tensor.shard.resourceScope ≠ destination.tensor.shard.resourceScope ∨
    source.tensor.explicitResourceOffsets ≠ destination.tensor.explicitResourceOffsets)
    "matching logical tensors have incompatible dtype or resource semantics"

/-! ## Plans -/

structure StridedRegionTemplate where
  cacheNamespace : Int
  layerId : Int
  role : Int
  groupId : Int
  logicalTensor : String
  localBufferId : Nat
  remoteBufferId : Nat
  localOffsetInResource : Nat
  remoteOffsetInResource : Nat
  bytesPerRegion : Nat
  repeatCount : Nat := 1
  localStride : Nat := 0
  remoteStride : Nat := 0
  localResourceCount : Nat
  remoteResourceCount : Nat
  localResourceStride : Nat
  remoteResourceStride : Nat
  localBufferBytes : Nat
  remoteBufferBytes : Nat
  localExplicitResourceOffsets : Bool
  remoteExplicitResourceOffsets : Bool
  deriving DecidableEq, Repr

structure PlannedAtomicRegion where
  logicalOffset : Nat
  region : StridedRegionTemplate
  deriving DecidableEq, Repr

structure ReshardPlanTemplate where
  sourceIncarnation : String
  sourceLayoutGeneration : Nat
  destinationIncarnation : String
  destinationLayoutGeneration : Nat
  sourceCoordinates : ParallelCoordinates
  destinationCoordinates : ParallelCoordinates
  destinationAddr : String
  regions : List StridedRegionTemplate
  deriving DecidableEq, Repr

/-- The fields that the regions of one repeat share. -/
def sameTemplateKey (lhs rhs : StridedRegionTemplate) : Prop :=
  { lhs with
    localOffsetInResource := rhs.localOffsetInResource
    remoteOffsetInResource := rhs.remoteOffsetInResource
    repeatCount := rhs.repeatCount
    localStride := rhs.localStride
    remoteStride := rhs.remoteStride } = rhs

instance (lhs rhs : StridedRegionTemplate) : Decidable (sameTemplateKey lhs rhs) :=
  inferInstanceAs (Decidable (_ = _))

def plannedLe (lhs rhs : PlannedAtomicRegion) : Prop :=
  ((compare lhs.region.cacheNamespace rhs.region.cacheNamespace).then
    ((compare lhs.region.layerId rhs.region.layerId).then
      ((compare lhs.region.role rhs.region.role).then
        ((compare lhs.region.groupId rhs.region.groupId).then
          ((compare lhs.region.logicalTensor rhs.region.logicalTensor).then
            ((compare lhs.region.localBufferId rhs.region.localBufferId).then
              ((compare lhs.region.remoteBufferId rhs.region.remoteBufferId).then
                (compare lhs.logicalOffset rhs.logicalOffset)))))))).isLE = true

instance : DecidableRel plannedLe := fun _ _ => inferInstanceAs (Decidable (_ = true))

/-- One pass of the loop of `compact_planned_regions`. The output is kept last region first, each
with the logical offset it ends with. A difference of offsets that would be negative is 0 here and
wraps around there; neither is the stride of a repeat, which is positive. -/
def compactStep (output : List (StridedRegionTemplate × Nat)) (candidate : PlannedAtomicRegion) :
    List (StridedRegionTemplate × Nat) :=
  match output with
  | [] => [(candidate.region, candidate.logicalOffset)]
  | (previous, previousLogical) :: rest =>
    if ¬ sameTemplateKey previous candidate.region then
      (candidate.region, candidate.logicalOffset) :: output
    else if candidate.logicalOffset ≤ previousLogical ∨
        candidate.region.localOffsetInResource ≤ previous.localOffsetInResource ∨
        candidate.region.remoteOffsetInResource ≤ previous.remoteOffsetInResource then
      (candidate.region, candidate.logicalOffset) :: output
    else
      let localStride := candidate.region.localOffsetInResource -
        (previous.localOffsetInResource + (previous.repeatCount - 1) * previous.localStride)
      let remoteStride := candidate.region.remoteOffsetInResource -
        (previous.remoteOffsetInResource + (previous.repeatCount - 1) * previous.remoteStride)
      let logicalStride := candidate.logicalOffset - previousLogical
      let canStartRepeat := previous.repeatCount = 1
      let sameRepeat := previous.repeatCount > 1 ∧ localStride = previous.localStride ∧
        remoteStride = previous.remoteStride
      if ¬ canStartRepeat ∧ ¬ sameRepeat ∨ logicalStride = 0 then
        (candidate.region, candidate.logicalOffset) :: output
      else
        ({ previous with
            localStride := if canStartRepeat then localStride else previous.localStride
            remoteStride := if canStartRepeat then remoteStride else previous.remoteStride
            repeatCount := previous.repeatCount + 1 }, candidate.logicalOffset) :: rest

def compactPlannedRegions (candidates : List PlannedAtomicRegion) : List StridedRegionTemplate :=
  (((candidates.insertionSort plannedLe).foldl compactStep []).map (·.1)).reverse

/-- The visitor of `build_outgoing_plan`: the bytes two regions share. -/
def planOverlap (source destination : AtomicLogicalRegion) : PlannedAtomicRegion :=
  let logicalBegin := max source.logicalOffset destination.logicalOffset
  let overlapEnd := min (logicalEnd source) (logicalEnd destination)
  { logicalOffset := logicalBegin
    region := {
      cacheNamespace := source.cacheNamespace
      layerId := source.layerId
      role := source.role
      groupId := source.groupId
      logicalTensor := source.logicalTensor
      localBufferId := source.tensor.mooncakeBufferId.toNat
      remoteBufferId := destination.tensor.mooncakeBufferId.toNat
      localOffsetInResource := source.tensor.storageOffsetBytes + source.physicalOffset +
        logicalBegin - source.logicalOffset
      remoteOffsetInResource := destination.tensor.storageOffsetBytes +
        destination.physicalOffset + logicalBegin - destination.logicalOffset
      bytesPerRegion := overlapEnd - logicalBegin
      localResourceCount := source.tensor.resourceCount
      remoteResourceCount := destination.tensor.resourceCount
      localResourceStride := source.tensor.resourceStrideBytes
      remoteResourceStride := destination.tensor.resourceStrideBytes
      localBufferBytes := source.tensor.bufferBytes
      remoteBufferBytes := destination.tensor.bufferBytes
      localExplicitResourceOffsets := source.tensor.explicitResourceOffsets
      remoteExplicitResourceOffsets := destination.tensor.explicitResourceOffsets } }

def visitPlan (candidates : List PlannedAtomicRegion) (source destination : AtomicLogicalRegion) :
    Except String (List PlannedAtomicRegion) := do
  validateTensorPair source destination
  return candidates ++ [planOverlap source destination]

def planGroups (destinationGroups : RegionGroups) :
    RegionGroups → List PlannedAtomicRegion → Except String (List PlannedAtomicRegion)
  | [], candidates => .ok candidates
  | (key, sources) :: rest, candidates =>
    match destinationGroups.lookup key with
    | none => planGroups destinationGroups rest candidates
    | some destinations => do
      let candidates ← visitOverlaps visitPlan sources destinations candidates
      planGroups destinationGroups rest candidates

/-- The page of a replicated index that a source of a collapsing transfer ships. -/
def selectIndexPage (kvSplitRank : Int) (region : StridedRegionTemplate) :
    Except String StridedRegionTemplate :=
  let indexRole := region.role = KVCacheTensorRole.INDEX.value ∨
    region.role = KVCacheTensorRole.INDEX_SCALE.value
  let widthCollapse := region.localResourceStride > region.remoteResourceStride
  if ¬ indexRole ∨ ¬ widthCollapse then .ok region
  else
    let shift := kvSplitRank.toNat * region.bytesPerRegion
    if shift ≥ region.localResourceStride ∨
        region.localOffsetInResource + region.bytesPerRegion + shift >
          region.localResourceStride then
      .error ("replicated index page selection runs past the source resource: kv_split_rank=" ++
        toString kvSplitRank)
    else .ok { region with localOffsetInResource := region.localOffsetInResource + shift }

def selectReplicatedIndexSourcePage (source : WorkerCacheLayoutManifest)
    (sourceCpIndexWriteMode : Int) (regions : List StridedRegionTemplate) :
    Except String (List StridedRegionTemplate) :=
  if sourceCpIndexWriteMode = kCpIndexWriteModeSharded then .ok regions
  else if source.coordinates.kvSplitRank ≤ 0 then .ok regions
  else regions.mapM (selectIndexPage source.coordinates.kvSplitRank)

def buildOutgoingPlan (source destination : WorkerCacheLayoutManifest)
    (includeReplicas : Bool) (sourceCpIndexWriteMode : Int) :
    Except String ReshardPlanTemplate := do
  validateCompatibility source destination
  let sourceRegions := expandManifest source
    (if includeReplicas then SpanWriters.everything else sourceWriters source.coordinates)
  let destinationRegions := expandManifest destination SpanWriters.everything
  let candidates ← planGroups (groupRegions destinationRegions) (groupRegions sourceRegions) []
  let regions ← selectReplicatedIndexSourcePage source sourceCpIndexWriteMode
    (compactPlannedRegions candidates)
  return {
    sourceIncarnation := source.incarnationId
    sourceLayoutGeneration := source.layoutGeneration
    destinationIncarnation := destination.incarnationId
    destinationLayoutGeneration := destination.layoutGeneration
    sourceCoordinates := source.coordinates
    destinationCoordinates := destination.coordinates
    destinationAddr := destination.addr
    regions := regions }

end Xllm.Framework
