import Xllm.KvCacheTransfer.CacheLayoutBuilder
import Xllm.KvCacheTransfer.PushExact

/-!
# Pushing KV blocks in XTensor mode

`MooncakeKVCacheTransferXTensor::push_kv_blocks_impl` of
`core/framework/kv_cache_transfer/mooncake_kv_cache_transfer.cpp`. A destination names an offset for
the keys and one for the values of each of its blocks, layer by layer, and the blocks of a batch are
written at the offsets that the merge has gathered for their destination.

`bound` records the mappings that the engine has turned into byte regions: what is written to a
destination comes from these. A merged map that is empty is not pushed.
-/

namespace Xllm.Framework

/-- `cache_group_id(BlockType::KV)`. -/
def kvCacheGroupId : Int := 0

/-- `UINT64_MAX`. -/
def invalidOffset : Nat := 2 ^ 64 - 1

structure ExplicitResourceMapping where
  groupId : Int
  role : KVCacheTensorRole
  localIds : List Nat
  remoteIds : List Nat
  localOffsets : List Nat
  remoteOffsets : List Nat
  deriving DecidableEq, Repr

/-- The offsets of one block, here and at the destination. -/
structure BlockCopy where
  srcK : Nat
  srcV : Nat
  dstK : Nat
  dstV : Nat
  deriving DecidableEq, Repr

/-- What the allocator, the synchronizer and the engine answer, and the order of a walk over the
hash map. -/
structure XTensorEnv (Region : Type) where
  synchronizeLayer : Nat → Bool
  getGlobalOffsetsForBlock : Nat → Nat → Nat × Nat
  bindOutgoingRegionsExplicit : String → List ExplicitResourceMapping → Nat → Option (List Region)
  moveMemoryRegions : Nat → String → List Region → Bool
  walk : List String → List String

structure XTensorPushState where
  failedKeys : List String := []
  bound : List (Nat × String × List ExplicitResourceMapping) := []
  deriving DecidableEq, Repr

section

variable {Region : Type} (env : XTensorEnv Region)

/-- The loop over the blocks, from index `i` on: `none` at the first offset that is missing. -/
def gatherOffsets (layerIndex : Nat) (layerOffsets : Option XTensorLayerOffsets) :
    List Nat → Nat → Option (List BlockCopy)
  | [], _ => some []
  | block :: blocks, i =>
    let (srcK, srcV) := env.getGlobalOffsetsForBlock layerIndex block
    if srcK = invalidOffset ∨ srcV = invalidOffset then none
    else
      match layerOffsets with
      | none => none
      | some offsets =>
        match offsets.kOffsets[i]?, offsets.vOffsets[i]? with
        | some dstK, some dstV =>
          (gatherOffsets layerIndex layerOffsets blocks (i + 1)).map
            fun copies => { srcK, srcV, dstK, dstV } :: copies
        | _, _ => none

/-- `key_mapping` and `value_mapping`. -/
def explicitMappings (mapping : KVTransferMapping) (copies : List BlockCopy) :
    List ExplicitResourceMapping :=
  [{ groupId := mapping.groupId
     role := .KEY
     localIds := mapping.localIds
     remoteIds := mapping.remoteIds
     localOffsets := copies.map (·.srcK)
     remoteOffsets := copies.map (·.dstK) },
   { groupId := mapping.groupId
     role := .VALUE
     localIds := mapping.localIds
     remoteIds := mapping.remoteIds
     localOffsets := copies.map (·.srcV)
     remoteOffsets := copies.map (·.dstV) }]

def XTensorPushState.fail (s : XTensorPushState) (key : String) : XTensorPushState :=
  { s with failedKeys := s.failedKeys ++ [key] }

def pushXtensorKey (mergedKvInfos : MergedKvInfos) (layerIndex : Nat) (s : XTensorPushState)
    (key : String) : XTensorPushState :=
  if key ∈ s.failedKeys then s
  else
    let kvInfo := (mergedKvInfos.lookup key).getD {}
    match kvInfo.mappings.find? (·.groupId = kvCacheGroupId) with
    | none => s.fail key
    | some mapping =>
      if mapping.localIds.length ≠ mapping.remoteIds.length then s.fail key
      else if mapping.localIds = [] then s
      else
        match gatherOffsets env layerIndex kvInfo.dstXtensorLayerOffsets[layerIndex]?
            mapping.localIds 0 with
        | none => s.fail key
        | some copies =>
          match env.bindOutgoingRegionsExplicit kvInfo.dstAddr (explicitMappings mapping copies)
              layerIndex with
          | none => s.fail key
          | some regions =>
            let s := { s with
              bound := s.bound ++ [(layerIndex, key, explicitMappings mapping copies)] }
            if regions.isEmpty || env.moveMemoryRegions layerIndex kvInfo.dstAddr regions then s
            else s.fail key

def pushXtensorLayer (mergedKvInfos : MergedKvInfos) (keys : List String) (s : XTensorPushState)
    (layerIndex : Nat) : XTensorPushState :=
  if ¬ env.synchronizeLayer layerIndex then { s with failedKeys := s.failedKeys ++ keys }
  else keys.foldl (pushXtensorKey env mergedKvInfos layerIndex) s

def pushXtensorLayers (mergedKvInfos : MergedKvInfos) (keys : List String) (numLayers : Nat) :
    XTensorPushState :=
  (List.range numLayers).foldl (pushXtensorLayer env mergedKvInfos keys) {}

/-- The results, and the mappings that were bound. -/
abbrev XTensorPushed :=
  List KVTransferTaskResult × List (Nat × String × List ExplicitResourceMapping)

def pushXtensorKvBlocks (modelId : String) (numLayers : Nat) (mergedKvInfos : MergedKvInfos)
    (kvSplitRank kvSplitSize : Nat) : XTensorPushed :=
  if modelId = "" then
    ((env.walk (mergedKvInfos.map Prod.fst)).map fun key =>
      ⟨((mergedKvInfos.lookup key).getD {}).requestIds, .failed⟩, [])
  else
    let walked := env.walk (mergedKvInfos.map Prod.fst)
    let keys := if kvSplitSize > 1 then rotateDstRank walked kvSplitRank else walked
    let s := pushXtensorLayers env mergedKvInfos keys numLayers
    ((keys.filter (· ∈ s.failedKeys)).map fun key =>
      ⟨((mergedKvInfos.lookup key).getD {}).requestIds, .failed⟩, s.bound)

/-- `push_kv_blocks_async` in XTensor mode. -/
def pushXtensorKvBlocksAsync (srcCpIndexWriteMode : Int) (modelId : String) (numLayers : Nat)
    (transferKvInfos : List TransferKVInfo) (kvSplitRank kvSplitSize : Nat) : XTensorPushed :=
  match mergeForPush srcCpIndexWriteMode transferKvInfos kvSplitRank kvSplitSize with
  | none => (failedTasksForRequests transferKvInfos, [])
  | some [] => ([], [])
  | some (entry :: mergedKvInfos) =>
    pushXtensorKvBlocks env modelId numLayers (entry :: mergedKvInfos) kvSplitRank kvSplitSize

end

end Xllm.Framework
