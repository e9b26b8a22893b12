import Xllm.Lib.Outcome
import Xllm.Lib.Sweep
import Xllm.KvCacheTransfer.ReshardPlanner

/-!
# Source selection

`ReshardPlanner::select_sources` of `core/framework/kv_cache_transfer/reshard_planner.cpp`: which of
the source workers a destination links to. With equal partition sizes these are the workers of the
destination's own partition, with the lowest rank resolved as the writer of a replicated span;
otherwise the CP ranks of a KV split collapse, and the lowest of them writes. The writers of each
group are then checked to cover every logical byte of the destination exactly once.

`selectSources` returns its status and the list of selected indices, which it clears first.
-/

namespace Xllm.Framework

open Xllm.Lib

/-! ## Coverage -/

def isLinearStateRole (role : Int) : Prop :=
  role = KVCacheTensorRole.CONV.value ∨ role = KVCacheTensorRole.SSM.value ∨
    role = KVCacheTensorRole.KPOOL_TAIL.value

instance (role : Int) : Decidable (isLinearStateRole role) :=
  inferInstanceAs (Decidable (_ ∨ _))

/-- `compact_linear_source`. -/
def compactLinearSource (role : Int) (sources : RegionGroup) : Prop :=
  isLinearStateRole role ∧ ∀ source ∈ sources, source.tensor.physicalRowsPerResource = 1

instance (role : Int) (sources : RegionGroup) : Decidable (compactLinearSource role sources) :=
  inferInstanceAs (Decidable (_ ∧ _))

/-- The destination's shape is expanded against one source. -/
def expandedAgainst (role : Int) (destination source : AtomicLogicalRegion) : Prop :=
  if role = KVCacheTensorRole.CONV.value then
    destination.tensor.shape.length > 1 ∧ source.tensor.shape.length > 1 ∧
      destination.tensor.shape.getD 1 0 > source.tensor.shape.getD 1 0
  else if role = KVCacheTensorRole.KPOOL_TAIL.value then
    destination.tensor.shape.length > 2 ∧ source.tensor.shape.length > 2 ∧
      destination.tensor.shape.getD 2 0 > source.tensor.shape.getD 2 0 ∧
      logicalEnd destination > logicalEnd source
  else destination.tensor.physicalRowsPerResource > source.tensor.physicalRowsPerResource

instance (role : Int) (destination source : AtomicLogicalRegion) :
    Decidable (expandedAgainst role destination source) :=
  inferInstanceAs (Decidable (if role = KVCacheTensorRole.CONV.value then
      destination.tensor.shape.length > 1 ∧ source.tensor.shape.length > 1 ∧
        destination.tensor.shape.getD 1 0 > source.tensor.shape.getD 1 0
    else if role = KVCacheTensorRole.KPOOL_TAIL.value then
      destination.tensor.shape.length > 2 ∧ source.tensor.shape.length > 2 ∧
        destination.tensor.shape.getD 2 0 > source.tensor.shape.getD 2 0 ∧
        logicalEnd destination > logicalEnd source
    else destination.tensor.physicalRowsPerResource > source.tensor.physicalRowsPerResource))

/-- `expanded_shape`. -/
def expandedShape (role : Int) (sources : RegionGroup) (destination : AtomicLogicalRegion) : Prop :=
  compactLinearSource role sources ∧
    ∀ source ∈ sources, expandedAgainst role destination source

instance (role : Int) (sources : RegionGroup) (destination : AtomicLogicalRegion) :
    Decidable (expandedShape role sources destination) :=
  inferInstanceAs (Decidable (_ ∧ _))

def sourceCoverageEnd (sources : RegionGroup) : Nat :=
  sources.foldl (fun stop source => max stop (logicalEnd source)) 0

/-- The logical bytes of a region. -/
def logicalInterval (region : AtomicLogicalRegion) : Nat × Nat :=
  (region.logicalOffset, logicalEnd region)

/-- One stretch of the destination, from `cursor` to `next`, with the number of its writers. -/
def checkStretch (expanded : Bool) (coverageEnd cursor next : Nat) (writers : Int) :
    Except String Unit :=
  if next > cursor ∧ writers ≠ 1 then
    if expanded ∧ writers = 0 ∧ cursor ≥ coverageEnd then .ok ()
    else if writers = 0 then .error "destination logical bytes have no source writer"
    else .error "destination logical bytes have multiple writers"
  else .ok ()

/-- The loop over one destination region, up to `stop`, with the points that are still to come. -/
def checkDestination (expanded : Bool) (coverageEnd stop : Nat) :
    List (Nat × Int) → Nat → Int → Except String Unit
  | [], cursor, writers =>
    if cursor < stop then checkStretch expanded coverageEnd cursor stop writers else .ok ()
  | point :: rest, cursor, writers =>
    if cursor < stop then do
      let next := min stop point.1
      checkStretch expanded coverageEnd cursor next writers
      if next < stop then checkDestination expanded coverageEnd stop rest next point.2 else .ok ()
    else .ok ()

def checkDestinations (role : Int) (sources : RegionGroup) (points : List (Nat × Int)) :
    RegionGroup → Except String Unit
  | [] => .ok ()
  | destination :: rest => do
    checkDestination (expandedShape role sources destination) (sourceCoverageEnd sources)
      (logicalEnd destination) (points.dropWhile (·.1 ≤ destination.logicalOffset))
      destination.logicalOffset (levelBefore points 0 destination.logicalOffset)
    checkDestinations role sources points rest

def checkGroups (sourceGroups : RegionGroups) : RegionGroups → Except String Unit
  | [] => .ok ()
  | (key, destinations) :: rest =>
    match sourceGroups.lookup key with
    | none => .error "destination logical bytes have no source writer"
    | some sources => do
      visitOverlaps (fun _ source destination => validateTensorPair source destination) sources
        destinations ()
      checkDestinations key.role sources (coverage (sources.map logicalInterval)) destinations
      checkGroups sourceGroups rest

def validateCoverageForSources (sourceRegions : List AtomicLogicalRegion)
    (destinationGroups : RegionGroups) : Except String Unit :=
  checkGroups (groupRegions sourceRegions) destinationGroups

/-! ## The source instance -/

def rankTuple (coordinates : ParallelCoordinates) : Int × Int × Int :=
  (coordinates.dpRank, coordinates.cpRank, coordinates.tpRank)

def checkSources (reference : WorkerCacheLayoutManifest) :
    List WorkerCacheLayoutManifest → List (Int × Int × Int) → Except String Unit
  | [], _ => .ok ()
  | source :: rest, rankTuples => do
    labelled "invalid source layout: " (validateWorkerCacheLayout source)
    let coordinates := source.coordinates
    let expected := reference.coordinates
    rejectIf (source.schemaVersion ≠ reference.schemaVersion ∨
      source.layoutGeneration ≠ reference.layoutGeneration ∨
      source.fingerprint ≠ reference.fingerprint ∨ source.backend ≠ reference.backend ∨
      source.layoutFamily ≠ reference.layoutFamily ∨ coordinates.dpSize ≠ expected.dpSize ∨
      coordinates.tpSize ≠ expected.tpSize ∨ coordinates.cpSize ≠ expected.cpSize ∨
      coordinates.kvSplitSize ≠ expected.kvSplitSize)
      "source worker manifests disagree on instance layout"
    rejectIf (rankTuple coordinates ∈ rankTuples)
      "source worker manifest set contains a duplicate rank"
    checkSources reference rest (rankTuple coordinates :: rankTuples)

def validateSourceInstance (sources : List WorkerCacheLayoutManifest)
    (destination : WorkerCacheLayoutManifest) : Except String Unit := do
  rejectIf (sources = []) "source layout set is empty"
  let reference := sources.headD {}
  labelled "invalid source layout: " (validateWorkerCacheLayout reference)
  rejectIf (¬ sameInstanceLayout reference destination)
    "source and destination instance layouts are incompatible"
  rejectIf (¬ supportsPartitionLayout reference.coordinates destination.coordinates)
    ("source CP/KV-split partitions can only collapse into a CP1 destination with either " ++
      "KV-split1 or the matching KV-split size")
  let expected := reference.coordinates
  rejectIf (¬ samePartitionSizes expected destination.coordinates ∧
    ¬ supportsKvSplitTopology expected)
    ("source cp_size must be divisible by kv_split_size, or kv_split_size must equal " ++
      "cp_size * tp_size")
  rejectIf (multiplyOverflows expected.dpSize.toNat expected.cpSize.toNat ∨
    multiplyOverflows (expected.dpSize.toNat * expected.cpSize.toNat) expected.tpSize.toNat)
    "source parallel topology size overflows"
  rejectIf (expected.dpSize.toNat * expected.cpSize.toNat * expected.tpSize.toNat ≠ sources.length)
    "source worker manifest set is incomplete"
  checkSources reference sources []

theorem checkSources_of_validateSourceInstance {sources : List WorkerCacheLayoutManifest}
    {destination : WorkerCacheLayoutManifest} {u : Unit}
    (h : validateSourceInstance sources destination = .ok u) :
    checkSources (sources.headD {}) sources [] = .ok u := by
  iterate 7 obtain ⟨_, -, h⟩ := bind_eq_ok.mp h
  exact h

/-! ## Writers -/

/-- Some region that the source writes meets a region of the destination. -/
def hasLogicalOverlap (source : WorkerCacheLayoutManifest) (destinationGroups : RegionGroups)
    (writers : SpanWriters) : Bool :=
  (groupRegions (expandManifest source writers)).any fun group =>
    match destinationGroups.lookup group.1 with
    | none => false
    | some destinations => group.2.any fun source => destinations.any fun destination =>
        source.logicalOffset < logicalEnd destination ∧
          destination.logicalOffset < logicalEnd source

structure Selection where
  writers : List Nat := []
  requiredGroups : List CoverageKey := []
  deriving DecidableEq, Repr

/-- The CP ranks of one DP rank agree on their KV-split rank. -/
def checkCpKvRanks : List WorkerCacheLayoutManifest → List ((Int × Int) × Int) →
    Except String Unit
  | [], _ => .ok ()
  | source :: rest, seen =>
    let coordinates := source.coordinates
    let cpKey := (coordinates.dpRank, coordinates.cpRank)
    match seen.lookup cpKey with
    | none => checkCpKvRanks rest ((cpKey, coordinates.kvSplitRank) :: seen)
    | some kvSplitRank =>
      if kvSplitRank ≠ coordinates.kvSplitRank then
        .error "source CP partition disagrees on KV-split rank"
      else checkCpKvRanks rest seen

/-- The check, where a KV split does not span CP and TP. -/
def checkCpPartitions (sources : List WorkerCacheLayoutManifest) : Except String Unit :=
  if kvSplitSpansCpAndTp (sources.headD {}).coordinates then .ok () else checkCpKvRanks sources []

def coverageKeyLe (lhs rhs : CoverageKey) : Prop :=
  lhs.1 < rhs.1 ∨ lhs.1 = rhs.1 ∧ lhs.2 ≤ rhs.2

instance : DecidableRel coverageKeyLe := fun _ _ => inferInstanceAs (Decidable (_ ∨ _))

/-- The keys of a `std::set` or `std::map`. -/
def coverageKeys (keys : List CoverageKey) : List CoverageKey :=
  keys.dedup.insertionSort coverageKeyLe

/-- The group of a source when partitions collapse. -/
def collapsedGroup (source : WorkerCacheLayoutManifest) : CoverageKey :=
  (source.coordinates.dpRank, source.coordinates.kvSplitRank)

def groupMembers (sources : List WorkerCacheLayoutManifest) (group : CoverageKey) : List Nat :=
  (List.range sources.length).filter fun index => collapsedGroup (sources.getD index {}) = group

def cpRankAt (sources : List WorkerCacheLayoutManifest) (index : Nat) : Int :=
  (sources.getD index {}).coordinates.cpRank

/-- `cp_workers.begin()->second`: the sources of the group's lowest CP rank. -/
def lowestCpWorkers (sources : List WorkerCacheLayoutManifest) (group : CoverageKey) : List Nat :=
  (groupMembers sources group).filter fun index =>
    ∀ other ∈ groupMembers sources group, cpRankAt sources index ≤ cpRankAt sources other

def collapseGroups (sources : List WorkerCacheLayoutManifest)
    (destination : WorkerCacheLayoutManifest) (destinationGroups : RegionGroups)
    (writers : SpanWriters) (expectedCpCount : Nat) :
    List CoverageKey → Selection → Except String Selection
  | [], selection => .ok selection
  | group :: rest, selection =>
    if destination.coordinates.kvSplitSize > 1 ∧
        group.2 ≠ destination.coordinates.kvSplitRank then
      collapseGroups sources destination destinationGroups writers expectedCpCount rest selection
    else if (((groupMembers sources group).map (cpRankAt sources)).dedup).length ≠
        expectedCpCount then
      .error "CP replica group has an unexpected partition count"
    else
      collapseGroups sources destination destinationGroups writers expectedCpCount rest
        { writers := selection.writers ++ (lowestCpWorkers sources group).filter fun index =>
            hasLogicalOverlap (sources.getD index {}) destinationGroups writers
          requiredGroups := selection.requiredGroups ++ [group] }

def selectCollapsedWriters (sources : List WorkerCacheLayoutManifest)
    (destination : WorkerCacheLayoutManifest) (destinationGroups : RegionGroups) :
    Except String Selection := do
  checkCpPartitions sources
  let front := (sources.headD {}).coordinates
  let expectedCpCount :=
    if kvSplitSpansCpAndTp front then 1 else (front.cpSize / front.kvSplitSize).toNat
  collapseGroups sources destination destinationGroups (sourceWriters front) expectedCpCount
    (coverageKeys (sources.map collapsedGroup)) {}

def collapsePartitions (sources : List WorkerCacheLayoutManifest)
    (destination : WorkerCacheLayoutManifest) : Prop :=
  ¬ samePartitionSizes (sources.headD {}).coordinates destination.coordinates

instance (sources : List WorkerCacheLayoutManifest) (destination : WorkerCacheLayoutManifest) :
    Decidable (collapsePartitions sources destination) :=
  inferInstanceAs (Decidable (¬ _))

def homogeneousCandidates (sources : List WorkerCacheLayoutManifest)
    (destination : WorkerCacheLayoutManifest) : List Nat :=
  (List.range sources.length).filter fun index =>
    samePartition (sources.getD index {}).coordinates destination.coordinates

def selectHomogeneousWriters (sources : List WorkerCacheLayoutManifest)
    (destination : WorkerCacheLayoutManifest) (destinationGroups : RegionGroups) : Selection :=
  let candidates := homogeneousCandidates sources destination
  { writers := candidates.filter fun index =>
      hasLogicalOverlap (sources.getD index {}) destinationGroups
        (SpanWriters.lowestOf sources candidates)
    requiredGroups := coverageKeys
      (candidates.map fun index => ((sources.getD index {}).coordinates.dpRank, 0)) }

def selectPartitionWriters (sources : List WorkerCacheLayoutManifest)
    (destination : WorkerCacheLayoutManifest) (destinationGroups : RegionGroups) :
    Except String Selection :=
  if collapsePartitions sources destination then
    selectCollapsedWriters sources destination destinationGroups
  else .ok (selectHomogeneousWriters sources destination destinationGroups)

/-- The rule by which a source's regions are expanded for the coverage check. -/
def writersOf (sources : List WorkerCacheLayoutManifest)
    (destination : WorkerCacheLayoutManifest) (index : Nat) : SpanWriters :=
  if collapsePartitions sources destination then
    sourceWriters (sources.getD index {}).coordinates
  else SpanWriters.lowestOf sources (homogeneousCandidates sources destination)

/-- The group whose coverage a source counts for. -/
def groupOf (sources : List WorkerCacheLayoutManifest) (destination : WorkerCacheLayoutManifest)
    (index : Nat) : CoverageKey :=
  ((sources.getD index {}).coordinates.dpRank, if collapsePartitions sources destination then
      (sources.getD index {}).coordinates.kvSplitRank
    else 0)

/-- `writer_regions[group]`. -/
def writerRegions (sources : List WorkerCacheLayoutManifest)
    (destination : WorkerCacheLayoutManifest) (writers : List Nat) (group : CoverageKey) :
    List AtomicLogicalRegion :=
  (writers.filter (groupOf sources destination · = group)).flatMap fun index =>
    expandManifest (sources.getD index {}) (writersOf sources destination index)

def groupLabel (group : CoverageKey) : String :=
  "source DP rank " ++ toString group.1 ++ ", KV-split rank " ++ toString group.2 ++
    " cannot cover destination: "

def validateWriterCoverage (sources : List WorkerCacheLayoutManifest)
    (destination : WorkerCacheLayoutManifest) (destinationGroups : RegionGroups)
    (writers : List Nat) : List CoverageKey → Except String Unit
  | [] => .ok ()
  | group :: rest => do
    rejectIf (group ∉ writers.map (groupOf sources destination))
      (groupLabel group ++ "destination logical bytes have no source writer")
    labelled (groupLabel group)
      (validateCoverageForSources (writerRegions sources destination writers group)
        destinationGroups)
    validateWriterCoverage sources destination destinationGroups writers rest

def checkCompatibility (sources : List WorkerCacheLayoutManifest)
    (destination : WorkerCacheLayoutManifest) : List Nat → Except String Unit
  | [] => .ok ()
  | index :: rest => do
    validateCompatibility (sources.getD index {}) destination
    checkCompatibility sources destination rest

/-- What `selectSources` selects, before the list is handed out. -/
def selectWriters (sources : List WorkerCacheLayoutManifest)
    (destination : WorkerCacheLayoutManifest) : Except String (List Nat) := do
  labelled "invalid destination layout: " (validateWorkerCacheLayout destination)
  rejectIf (sources = []) "source layout set is empty"
  validateSourceInstance sources destination
  let destinationGroups := groupRegions (expandManifest destination SpanWriters.everything)
  let selection ← selectPartitionWriters sources destination destinationGroups
  checkCompatibility sources destination selection.writers
  validateWriterCoverage sources destination destinationGroups selection.writers
    selection.requiredGroups
  return selection.writers

def selectSources (sources : List WorkerCacheLayoutManifest)
    (destination : WorkerCacheLayoutManifest) : Except String Unit × List Nat :=
  match selectWriters sources destination with
  | .ok writers => (.ok (), writers)
  | .error error => (.error error, [])

end Xllm.Framework
