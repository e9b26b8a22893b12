import Xllm.Block.Leaf
import Xllm.Lib.Framing
import Xllm.Lib.Outcome

/-!
# The shared store of cache blocks

`KVCacheStore` (`core/framework/kv_cache_transfer/kv_cache_store.cpp`), up to the index of its entries:
for each cache of a rank the prefix of its keys, and whether the rank writes them.

Sizes and ranks are natural numbers; the checks admit no others, and the products stay below the size
of the domain. A text is a list of characters that stand for its bytes. The hash of a schema, which is
third-party code, and the backend are left open.
-/

namespace Xllm.Framework

open Xllm.Lib Xllm.Lib.Framing

def BlockType.number : BlockType → Nat
  | kv => 0
  | swa => 1
  | c4 => 2
  | c128 => 3
  | embedding => 4
  | linear => 5
  | c1 => 6
  | c2 => 7

inductive StoreTpLayout
  | tpReplicated
  | tpSharded
  deriving DecidableEq, Repr

/-- The checks of `KVCacheStore`. -/
inductive StoreCheck
  | modelId
  | tpSize
  | tpRank
  | cpSize
  | cpRank
  | fullDomain
  | fullDomainDivides
  | tpDomain
  | splitSize
  | splitRank
  | splitDivides
  | noIndex
  | noEntries
  | noCache
  | keyComponent
  | duplicateHandle
  | duplicateComponent
  | noTensors
  | badTensor
  | hostBlocks
  deriving DecidableEq, Repr

structure HostTensor where
  role : Nat
  dtype : Nat
  sizes : List Nat
  isContiguous : Bool := true
  deriving DecidableEq, Repr

/-- `HostCacheStoreEntry`, with the tensors that its cache has for the block type, if there is a
cache. -/
structure HostCacheStoreEntry where
  cacheHandle : Nat
  keyComponent : List Char
  cache : Option (List HostTensor)
  enableMla : Option Bool
  isTarget : Bool
  deriving DecidableEq, Repr

/-- `HostCacheStoreIndex`, a map from block types. -/
structure HostCacheStoreIndex where
  groups : List (BlockType × List HostCacheStoreEntry)
  distinct : (groups.map Prod.fst).Nodup

/-- `KVCacheStoreInitConfig`, without the addresses of the backend. -/
structure KVCacheStoreInitConfig where
  modelId : List Char
  tpRank : Nat := 0
  tpSize : Nat := 1
  cpRank : Nat := 0
  cpSize : Nat := 1
  kvSplitFullDomainSize : Nat := 1
  kvSplitSize : Nat := 1
  kvSplitRank : Nat := 0
  cpIndexWriteMode : Nat := 1
  enableMla : Bool := false
  deriving DecidableEq, Repr

/-- `StoreEntry`. -/
structure StoreEntry where
  cacheHandle : Nat
  keyComponent : List Char
  schemaHash : List Char
  blockType : BlockType
  keyPrefix : List Char
  isPutOwner : Bool
  deriving DecidableEq, Repr

namespace KVCacheStore

variable (hashString : List Char → List Char) (config : KVCacheStoreInitConfig)

/-- `resolve_tp_layout`. -/
def resolveTpLayout (blockType : BlockType) (enableMla : Bool) : StoreTpLayout :=
  if enableMla && blockType == .kv then .tpReplicated else .tpSharded

/-- `is_put_owner`. -/
def isPutOwner (tpLayout : StoreTpLayout) (isSplitCache : Bool) : Bool :=
  let domainSize := config.kvSplitFullDomainSize
  let workersPerCp := domainSize / config.cpSize
  let rank := config.cpRank * workersPerCp + config.tpRank % workersPerCp
  let tpGroupSize := domainSize /
    (if config.enableMla then config.cpSize else max config.cpSize config.kvSplitSize)
  if !isSplitCache then rank < tpGroupSize
  else
    let ranksPerSplit := domainSize / config.kvSplitSize
    let ownerCount := if tpLayout = .tpReplicated then 1 else tpGroupSize
    rank % ranksPerSplit < ownerCount

/-- What a tensor adds to a schema. -/
def tensorSchema (tensor : HostTensor) : List Char :=
  ",role=".toList ++ decimal tensor.role ++ ",dtype=".toList ++ decimal tensor.dtype ++
    ",shape=".toList ++ tensor.sizes.tail.flatMap fun size => decimal size ++ ['x']

/-- `build_schema_hash`. -/
def buildSchemaHash (blockType : BlockType) (tensors : List HostTensor)
    (tpLayout : StoreTpLayout) : Except StoreCheck (List Char) := do
  check (tensors ≠ []) .noTensors
  check (∀ tensor ∈ tensors, tensor.sizes ≠ [] ∧ tensor.isContiguous = true) .badTensor
  check (∀ tensor ∈ tensors, tensor.sizes.head? = (tensors.headD ⟨0, 0, [], true⟩).sizes.head?)
    .hostBlocks
  let tp := if tpLayout = .tpReplicated then "parallel=mla".toList
    else "tp=".toList ++ decimal config.tpSize
  return hashString (tp ++ "|type=".toList ++ decimal blockType.number ++
    "|cp_index_write_mode=".toList ++ decimal config.cpIndexWriteMode ++
    tensors.flatMap tensorSchema)

/-- `build_key_prefix`. -/
def buildKeyPrefix (keyComponent : List Char) (blockType : BlockType) (schemaHash : List Char)
    (tpLayout : StoreTpLayout) (isSplitCache : Bool) : List Char :=
  "xllm-kv-v3:".toList ++ (field config.modelId ++ (field keyComponent ++
    ((if tpLayout = .tpReplicated then "mla:".toList
      else number config.tpSize ++ number config.tpRank) ++
    (number config.kvSplitSize ++ (number (if isSplitCache then config.kvSplitRank else 0) ++
      (number blockType.number ++ schemaHash))))))

/-- The turn of `initialize_store_index` for an entry. -/
def storeEntry (blockType : BlockType) (entry : HostCacheStoreEntry) :
    Except StoreCheck StoreEntry := do
  match entry.cache with
  | none => .error .noCache
  | some tensors =>
    check (entry.keyComponent ≠ []) .keyComponent
    let tpLayout := resolveTpLayout blockType (entry.enableMla.getD config.enableMla)
    let isSplitCache := entry.isTarget && blockType != .linear
    let schemaHash ← buildSchemaHash hashString config blockType tensors tpLayout
    return {
      cacheHandle := entry.cacheHandle
      keyComponent := entry.keyComponent
      schemaHash := schemaHash
      blockType := blockType
      keyPrefix := buildKeyPrefix config entry.keyComponent blockType schemaHash tpLayout isSplitCache
      isPutOwner := isPutOwner config tpLayout isSplitCache }

/-- The entries of a block type, each with a handle and a key component of its own. -/
def storeEntries (group : BlockType × List HostCacheStoreEntry) :
    Except StoreCheck (List StoreEntry) := do
  check (group.2 ≠ []) .noEntries
  check (group.2.map HostCacheStoreEntry.cacheHandle).Nodup .duplicateHandle
  check (group.2.map HostCacheStoreEntry.keyComponent).Nodup .duplicateComponent
  group.2.mapM (storeEntry hashString config group.1)

/-- `initialize_store_index`: all entries, in the order of the block types. -/
def initializeStoreIndex (storeIndex : HostCacheStoreIndex) :
    Except StoreCheck (List StoreEntry) := do
  check (storeIndex.groups ≠ []) .noIndex
  let entries ← storeIndex.groups.mapM (storeEntries hashString config)
  return entries.flatten

/-- The checks of `init`. -/
def checkConfig : Except StoreCheck Unit := do
  check (config.modelId ≠ []) .modelId
  check (0 < config.tpSize) .tpSize
  check (config.tpRank < config.tpSize) .tpRank
  check (0 < config.cpSize) .cpSize
  check (config.cpRank < config.cpSize) .cpRank
  check (config.cpSize ≤ config.kvSplitFullDomainSize) .fullDomain
  check (config.kvSplitFullDomainSize % config.cpSize = 0) .fullDomainDivides
  check (config.tpSize = config.kvSplitFullDomainSize / config.cpSize ∨
    config.tpSize = config.kvSplitFullDomainSize) .tpDomain
  check (1 ≤ config.kvSplitSize) .splitSize
  check (config.kvSplitRank < config.kvSplitSize) .splitRank
  check (config.cpSize % config.kvSplitSize = 0 ∨
    config.kvSplitSize = config.kvSplitFullDomainSize) .splitDivides

/-- `init`, up to the backend. -/
def init (storeIndex : HostCacheStoreIndex) : Except StoreCheck (List StoreEntry) := do
  checkConfig config
  initializeStoreIndex hashString config storeIndex

end KVCacheStore

end Xllm.Framework
