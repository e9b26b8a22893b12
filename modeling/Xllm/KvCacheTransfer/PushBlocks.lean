import Mathlib
import Xllm.Block.Leaf

/-!
# Pushing KV blocks to the destinations

`KVCacheTransfer::push_kv_blocks_async` of `core/framework/kv_cache_transfer/kv_cache_transfer.cpp` with
the merge and the push of `mooncake_kv_cache_transfer.cpp`. A batch names for each request the local
and remote ids of every cache group. The batch is checked, cut down to this rank's part of the KV split,
merged by destination and written layer by layer.

What the engine and the synchronizer answer is `PushEnv`, and so is the order in which the hash map of
destinations is walked. What is only logged is not modelled.
`written` records the layers of a destination that were written: it is the effect of a push, next to
the results that it returns.
-/

namespace Xllm.Framework

/-! ## The batch -/

structure KVTransferMapping where
  groupId : Int := 0
  localIds : List Nat
  remoteIds : List Nat
  deriving DecidableEq, Repr

/-- `InstanceInfo`, as far as a push reads it. -/
structure InstanceInfo where
  clusterIds : List Nat
  addrs : List String
  dpSize : Int := 1
  kvSplitSize : Int := 1
  cpIndexWriteMode : Int := 0
  deriving DecidableEq, Repr

/-- The offsets of the destination's blocks in a layer, of XTensor mode. -/
structure XTensorLayerOffsets where
  kOffsets : List Nat
  vOffsets : List Nat
  deriving DecidableEq, Repr

structure TransferKVInfo where
  requestId : String
  rankLocalMapping : Bool := false
  dpRank : Int := 0
  remoteInstanceInfo : InstanceInfo
  mappings : List KVTransferMapping
  dstXtensorLayerOffsets : List XTensorLayerOffsets := []
  deriving DecidableEq, Repr

structure KVCacheInfo where
  dstClusterId : Nat := 0
  dstAddr : String := ""
  mappings : List KVTransferMapping := []
  requestIds : List String := []
  dstXtensorLayerOffsets : List XTensorLayerOffsets := []
  deriving DecidableEq, Repr

inductive KVTransferErrorCode
  | none
  | failed
  deriving DecidableEq, Repr

structure KVTransferTaskResult where
  requestIds : List String
  errorCode : KVTransferErrorCode := .none
  deriving DecidableEq, Repr

def uniqueTransferRequestIds (transferKvInfos : List TransferKVInfo) : List String :=
  transferKvInfos.foldl (fun requestIds info =>
    if info.requestId ∈ requestIds then requestIds else requestIds ++ [info.requestId]) []

def failedTasksForRequests (transferKvInfos : List TransferKVInfo) : List KVTransferTaskResult :=
  let requestIds := uniqueTransferRequestIds transferKvInfos
  if requestIds = [] then [] else [⟨requestIds, .failed⟩]

/-! ## The checks -/

/-- `block_type_from_cache_group_id`. -/
def blockTypeFromCacheGroupId (groupId : Int) : Option BlockType :=
  if groupId = 0 then some .kv
  else if groupId = 1 then some .swa
  else if groupId = 2 then some .c4
  else if groupId = 3 then some .c128
  else if groupId = 4 then some .embedding
  else if groupId = 5 then some .linear
  else if groupId = 6 then some .c1
  else if groupId = 7 then some .c2
  else none

def isKvSplitCacheBlockType : BlockType → Bool
  | .kv | .swa | .c1 | .c2 | .c4 | .c128 => true
  | .embedding | .linear => false

/-- A group whose logical blocks are widened by the KV split. -/
def isKvSplitGroup (groupId : Int) : Bool :=
  match blockTypeFromCacheGroupId groupId with
  | some blockType => isKvSplitCacheBlockType blockType
  | none => false

inductive KvSplitWidthPlan
  | rankLocal
  | strided
  | unreconcilable
  deriving DecidableEq, Repr

def kCpIndexWriteModeSharded : Int := 2

def planKvSplitWidths (srcKvSplitSize dstKvSplitSize srcCpIndexWriteMode dstCpIndexWriteMode : Int) :
    KvSplitWidthPlan :=
  if srcKvSplitSize < 1 then .unreconcilable
  else if dstKvSplitSize < 1 then
    if srcKvSplitSize = 1 then .rankLocal else .unreconcilable
  else if srcKvSplitSize = dstKvSplitSize then
    if srcKvSplitSize > 1 ∧ (srcCpIndexWriteMode = kCpIndexWriteModeSharded ∨
        dstCpIndexWriteMode = kCpIndexWriteModeSharded) then .unreconcilable
    else .rankLocal
  else if dstKvSplitSize = 1 then .strided
  else .unreconcilable

/-- `validate_kv_split_width_plan`; `srcCpIndexWriteMode` is the declared mode of this process. -/
def validateKvSplitWidthPlan (srcCpIndexWriteMode : Int) (transferKvInfos : List TransferKVInfo)
    (srcKvSplitSize : Nat) : Bool :=
  transferKvInfos.all fun info =>
    let plan := planKvSplitWidths srcKvSplitSize info.remoteInstanceInfo.kvSplitSize
      srcCpIndexWriteMode info.remoteInstanceInfo.cpIndexWriteMode
    plan ≠ .unreconcilable && !(info.rankLocalMapping && plan ≠ .rankLocal)

def validateMappingSizes (kvSplitSize : Nat) (rankLocalMapping : Bool)
    (mapping : KVTransferMapping) : Bool :=
  if ¬ (kvSplitSize > 1 ∧ ¬ rankLocalMapping ∧ isKvSplitGroup mapping.groupId) then
    mapping.localIds.length = mapping.remoteIds.length
  else if mapping.localIds.length = 0 then mapping.remoteIds.length = 0
  else if mapping.localIds.length > (2 ^ 64 - 1) / kvSplitSize then false
  else
    let maxRemoteCount := mapping.localIds.length * kvSplitSize
    let minRemoteCount := maxRemoteCount - kvSplitSize + 1
    minRemoteCount ≤ mapping.remoteIds.length ∧ mapping.remoteIds.length ≤ maxRemoteCount

/-- `validate_transfer_mappings` of one request, from the group ids seen before. -/
def validateMappings (kvSplitSize : Nat) (rankLocalMapping : Bool) :
    List Int → List KVTransferMapping → Bool
  | _, [] => true
  | groupIds, mapping :: mappings =>
    if mapping.groupId ∈ groupIds then false
    else if ¬ validateMappingSizes kvSplitSize rankLocalMapping mapping then false
    else validateMappings kvSplitSize rankLocalMapping (mapping.groupId :: groupIds) mappings

def validateTransferMappings (transferKvInfos : List TransferKVInfo) (kvSplitSize : Nat) : Bool :=
  transferKvInfos.all fun info =>
    if kvSplitSize < 1 then false
    else validateMappings kvSplitSize info.rankLocalMapping [] info.mappings

/-! ## This rank's part -/

/-- The remote ids of the local ones from `k` on: every `kv_split_size`-th, until the list ends. -/
def stridedRemoteIds (kvSplitRank kvSplitSize : Nat) (remoteIds : List Nat) :
    Nat → Nat → List Nat
  | 0, _ => []
  | localCount + 1, k =>
    match remoteIds[kvSplitRank + k * kvSplitSize]? with
    | none => []
    | some remoteId =>
      remoteId :: stridedRemoteIds kvSplitRank kvSplitSize remoteIds localCount (k + 1)

def filterMapping (kvSplitRank kvSplitSize : Nat) (mapping : KVTransferMapping) :
    KVTransferMapping :=
  if ¬ isKvSplitGroup mapping.groupId then mapping
  else
    let remoteIds := stridedRemoteIds kvSplitRank kvSplitSize mapping.remoteIds
      mapping.localIds.length 0
    { mapping with
      localIds := mapping.localIds.take remoteIds.length
      remoteIds := remoteIds }

def filterKvSplitInfos (kvSplitRank kvSplitSize : Nat) (kvInfos : List TransferKVInfo) :
    List TransferKVInfo :=
  kvInfos.filterMap fun kvInfo =>
    if kvInfo.rankLocalMapping then some kvInfo
    else
      let filtered := { kvInfo with
        mappings := kvInfo.mappings.map (filterMapping kvSplitRank kvSplitSize) }
      if filtered.mappings.any fun mapping => mapping.localIds ≠ [] && mapping.remoteIds ≠ [] then
        some filtered
      else none

/-! ## The merge by destination -/

def getMergeKey (dstClusterId : Nat) (dstAddr : String) : String :=
  Nat.repr dstClusterId ++ "_" ++ dstAddr

def appendMapping (dst : List KVTransferMapping) (srcMapping : KVTransferMapping) :
    List KVTransferMapping :=
  match dst with
  | [] => [srcMapping]
  | mapping :: rest =>
    if mapping.groupId = srcMapping.groupId then
      { mapping with
        localIds := mapping.localIds ++ srcMapping.localIds
        remoteIds := mapping.remoteIds ++ srcMapping.remoteIds } :: rest
    else mapping :: appendMapping rest srcMapping

def appendMappings (dst src : List KVTransferMapping) : List KVTransferMapping :=
  src.foldl appendMapping dst

def appendUniqueRequestId (requestIds : List String) (requestId : String) : List String :=
  if requestId ∈ requestIds then requestIds else requestIds ++ [requestId]

abbrev MergedKvInfos := List (String × KVCacheInfo)

def appendLayerOffsets : List XTensorLayerOffsets → List XTensorLayerOffsets →
    List XTensorLayerOffsets
  | target :: targets, source :: sources =>
    { kOffsets := target.kOffsets ++ source.kOffsets
      vOffsets := target.vOffsets ++ source.vOffsets } :: appendLayerOffsets targets sources
  | targets, _ => targets

def mergeXtensorOffsets (mergedLayerOffsets layerOffsets : List XTensorLayerOffsets) :
    List XTensorLayerOffsets :=
  if layerOffsets = [] then mergedLayerOffsets
  else if mergedLayerOffsets = [] then layerOffsets
  else appendLayerOffsets mergedLayerOffsets layerOffsets

def KVCacheInfo.append (kvInfo : KVCacheInfo) (info : TransferKVInfo) : KVCacheInfo :=
  { kvInfo with
    mappings := appendMappings kvInfo.mappings info.mappings
    requestIds := appendUniqueRequestId kvInfo.requestIds info.requestId
    dstXtensorLayerOffsets :=
      mergeXtensorOffsets kvInfo.dstXtensorLayerOffsets info.dstXtensorLayerOffsets }

def mergeInto (key : String) (fresh : KVCacheInfo) (info : TransferKVInfo) :
    MergedKvInfos → MergedKvInfos
  | [] => [(key, fresh.append info)]
  | entry :: rest =>
    if entry.1 = key then (key, entry.2.append info) :: rest
    else entry :: mergeInto key fresh info rest

def mergeKvInfo (mergedKvInfos : MergedKvInfos) (info : TransferKVInfo) (dstRank : Nat) :
    MergedKvInfos :=
  let dstClusterId := info.remoteInstanceInfo.clusterIds.getD dstRank 0
  let dstAddr := info.remoteInstanceInfo.addrs.getD dstRank ""
  mergeInto (getMergeKey dstClusterId dstAddr) { dstClusterId, dstAddr } info mergedKvInfos

/-- What `merge_kv_blocks` asks of a destination. -/
def TransferKVInfo.validTopology (info : TransferKVInfo) : Prop :=
  0 < info.remoteInstanceInfo.dpSize ∧ 0 < info.remoteInstanceInfo.clusterIds.length ∧
  (info.remoteInstanceInfo.clusterIds.length : Int) % info.remoteInstanceInfo.dpSize = 0 ∧
  0 ≤ info.dpRank ∧ info.dpRank < info.remoteInstanceInfo.dpSize ∧
  info.remoteInstanceInfo.addrs.length = info.remoteInstanceInfo.clusterIds.length

instance (info : TransferKVInfo) : Decidable info.validTopology := by
  unfold TransferKVInfo.validTopology
  infer_instance

/-- `dst_tp_size`. -/
def TransferKVInfo.dstTpSize (info : TransferKVInfo) : Nat :=
  info.remoteInstanceInfo.clusterIds.length / info.remoteInstanceInfo.dpSize.toNat

def mergeKvBlocks (transferKvInfos : List TransferKVInfo) : MergedKvInfos :=
  transferKvInfos.foldl (fun mergedKvInfos info => if ¬ info.validTopology then mergedKvInfos
    else
      (List.range' (info.dpRank.toNat * info.dstTpSize) info.dstTpSize).foldl
        (fun mergedKvInfos dstRank => mergeKvInfo mergedKvInfos info dstRank) mergedKvInfos) []

/-! ## The push -/

structure BufLayout where
  registered : Bool
  numLayers : Nat
  deriving DecidableEq, Repr

structure PushEnv (Region : Type) where
  synchronizeLayer : Nat → Bool
  bindOutgoingRegions : String → List KVTransferMapping → Nat → Option (List Region)
  moveMemoryRegions : Nat → String → List Region → Bool
  walk : List String → List String

structure PushState where
  failedKeys : List String := []
  written : List (Nat × String) := []
  deriving DecidableEq, Repr

def rotateDstRank (keys : List String) (kvSplitRank : Nat) : List String :=
  let sortedKeys := keys.insertionSort fun a b => ¬ b < a
  (List.range keys.length).map fun i => sortedKeys.getD ((i + kvSplitRank) % sortedKeys.length) ""

section

variable {Region : Type} (env : PushEnv Region)

/-- One destination of a layer. The keys are those of the map, so `at` finds its entry. -/
def pushKey (mergedKvInfos : MergedKvInfos) (layerIndex : Nat) (s : PushState) (key : String) :
    PushState :=
  if key ∈ s.failedKeys then s
  else
    let kvInfo := (mergedKvInfos.lookup key).getD {}
    match env.bindOutgoingRegions kvInfo.dstAddr kvInfo.mappings layerIndex with
    | none => { s with failedKeys := s.failedKeys ++ [key] }
    | some [] => { s with written := s.written ++ [(layerIndex, key)] }
    | some (region :: regions) =>
      if env.moveMemoryRegions layerIndex kvInfo.dstAddr (region :: regions) then
        { s with written := s.written ++ [(layerIndex, key)] }
      else { s with failedKeys := s.failedKeys ++ [key] }

def pushLayer (mergedKvInfos : MergedKvInfos) (keys : List String) (s : PushState)
    (layerIndex : Nat) : PushState :=
  if ¬ env.synchronizeLayer layerIndex then { s with failedKeys := s.failedKeys ++ keys }
  else keys.foldl (pushKey env mergedKvInfos layerIndex) s

/-- `push_kv_blocks`, and what it wrote. -/
def pushKvBlocks (layout : BufLayout) (mergedKvInfos : MergedKvInfos)
    (kvSplitRank kvSplitSize : Nat) :
    Except String (List KVTransferTaskResult × List (Nat × String)) :=
  if ¬ layout.registered then .error "KV cache is not registered."
  else
    let walked := env.walk (mergedKvInfos.map Prod.fst)
    let keys := if kvSplitSize > 1 then rotateDstRank walked kvSplitRank else walked
    let s := (List.range layout.numLayers).foldl (pushLayer env mergedKvInfos keys) {}
    let failed := keys.filter (· ∈ s.failedKeys)
    .ok (failed.map fun key =>
      ⟨((mergedKvInfos.lookup key).getD {}).requestIds, .failed⟩, s.written)

/-- `push_kv_blocks_async` up to the merge: `none` when the batch is refused. -/
def mergeForPush (srcCpIndexWriteMode : Int) (transferKvInfos : List TransferKVInfo)
    (kvSplitRank kvSplitSize : Nat) : Option MergedKvInfos :=
  if ¬ validateKvSplitWidthPlan srcCpIndexWriteMode transferKvInfos kvSplitSize then none
  else if ¬ validateTransferMappings transferKvInfos kvSplitSize then none
  else
    let kvInfos := if kvSplitSize > 1 then
      filterKvSplitInfos kvSplitRank kvSplitSize transferKvInfos else transferKvInfos
    if kvSplitSize > 1 ∧ kvInfos = [] then some []
    else if ¬ validateTransferMappings kvInfos 1 then none
    else some (mergeKvBlocks kvInfos)

def pushKvBlocksAsync (srcCpIndexWriteMode : Int) (layout : BufLayout)
    (transferKvInfos : List TransferKVInfo) (kvSplitRank kvSplitSize : Nat) :
    Except String (List KVTransferTaskResult × List (Nat × String)) :=
  match mergeForPush srcCpIndexWriteMode transferKvInfos kvSplitRank kvSplitSize with
  | none => .ok (failedTasksForRequests transferKvInfos, [])
  | some [] => .ok ([], [])
  | some (entry :: mergedKvInfos) =>
    pushKvBlocks env layout (entry :: mergedKvInfos) kvSplitRank kvSplitSize

end

end Xllm.Framework
