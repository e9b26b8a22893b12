import Mathlib.Data.Finset.Card
import Mathlib.Data.List.AList
import Xllm.PrefixCache.BlockHasher

/-!
# Blocks and the leaf that owns them

`core/framework/block/block.{h,cpp}` and the state of `block_manager_impl.h` and
`prefix_cache.h`. A `Block` is an *alias*: an id and a pointer to a reference counter that all
aliases of one physical block share. Copying and destroying aliases calls back into the manager,
and `free` calls into the prefix cache, so the whole leaf, its cache and the heap of counters are
one state, `Leaf`, and every C++ operation is a function on it.

A counter address that has been deleted reads 0 here; no live alias points at one. Counters and
sizes are unbounded (a counter is one per alias in memory). A cache node is represented by the
block it holds: its links are the order of `lruLst`, and `last_access_time` is never read.
-/

namespace Xllm.Framework

inductive BlockType
  | kv
  | swa
  | c4
  | c128
  | embedding
  | linear
  | c1
  | c2
  deriving DecidableEq, Repr

/-- AUTOMATIC publishes a completed block during allocation, EXPLICIT waits for `cache`. -/
inductive PrefixCachePublishMode
  | automatic
  | explicit
  deriving DecidableEq, Repr

/-- `BlockManager::Options`, as far as the modelled managers read them. -/
structure Options where
  numBlocks : Nat := 0
  blockSize : Nat := 0
  enablePrefixCache : Bool := true
  hasherType : BlockHasherType := .text
  blockType : BlockType := .kv
  swaBlocksPerSeq : Nat := 0
  preserveDecodeCheckpoint : Bool := false
  enableScheduleOverlap : Bool := false
  numSpeculativeTokens : Nat := 0
  instanceIsDecode : Bool := false
  prefixCachePublishMode : PrefixCachePublishMode := .automatic
  deriving DecidableEq, Repr

/-- One alias of a physical block. `id = none` is the source's `-1`, `refCount` is the address of
the shared counter, `manager` the address of the owning manager. -/
structure Block (Key : Type) where
  id : Option Nat
  size : Nat
  refCount : Option Nat
  manager : Option Nat
  hashValue : Key
  deriving DecidableEq, Repr

variable {Key : Type}

/-- `Block()`. The hash bytes of the source are uninitialised; no reader looks at them before a
caller stamps them. -/
def Block.empty [Inhabited Key] : Block Key :=
  { id := none, size := 0, refCount := none, manager := none, hashValue := default }

/-- What a move leaves behind: everything but the hash bytes is reset. -/
def Block.movedFrom (b : Block Key) : Block Key :=
  { b with id := none, size := 0, refCount := none, manager := none }

def Block.isValid (b : Block Key) : Bool := b.id.isSome

def Block.setHashValue (b : Block Key) (hashValue : Key) : Block Key := { b with hashValue }

structure PrefixCache (Key : Type) where
  /-- `lru_lst_`, oldest node first. -/
  lruLst : List (Block Key) := []
  cachedBlocks : AList (fun _ : Key => Block Key) := ∅
  blocksById : Finset (Option Nat) := ∅
  numBlocks : Nat := 0
  numEvictable : Nat := 0

structure Leaf (Key : Type) where
  options : Options
  /-- The address of this manager. -/
  self : Nat := 0
  blockAllocator : Option Nat := none
  numFreeBlocks : Nat
  freeBlocks : List Nat
  usageAccountedIds : List Bool
  paddingBlock : Block Key
  prefixCache : PrefixCache Key := {}
  /-- The heap of shared counters, and the next unused address. -/
  refCounts : Nat → Nat := fun _ => 0
  nextRefCount : Nat := 0

/-! ## Block -/

/-- `Block::ref_count`. -/
def Leaf.refCount (s : Leaf Key) (b : Block Key) : Nat :=
  match b.refCount with
  | none => 0
  | some a => s.refCounts a

/-- `Block::is_shared`. -/
def Leaf.isShared (s : Leaf Key) (b : Block Key) : Bool := decide (1 < s.refCount b)

def Leaf.incRefCount (s : Leaf Key) (b : Block Key) : Leaf Key :=
  match b.refCount, b.manager with
  | some a, some _ => { s with refCounts := Function.update s.refCounts a (s.refCounts a + 1) }
  | _, _ => s

/-- The counter goes down; the last alias deletes it and forgets its address. -/
def Leaf.decRefCount (s : Leaf Key) (b : Block Key) : Leaf Key × Block Key :=
  match b.refCount, b.manager with
  | some a, some _ =>
    let previous := s.refCounts a
    let s := { s with refCounts := Function.update s.refCounts a (previous - 1) }
    if previous = 1 then (s, { b with refCount := none }) else (s, b)
  | _, _ => (s, b)

/-- Copy construction: a manager-less alias does not share the counter. -/
def Leaf.copyBlock (s : Leaf Key) (other : Block Key) : Leaf Key × Block Key :=
  let b := { other with refCount := if other.manager.isNone then none else other.refCount }
  (s.incRefCount b, b)

/-! ## The registry, as `free` sees it -/

/-- `PrefixCache::update_evictable`: whether the id is resident, counting it as evictable when one
alias is left. -/
def Leaf.updateEvictable (s : Leaf Key) (b : Block Key) : Leaf Key × Bool :=
  if b.id = none then (s, false)
  else
    let resident := decide (b.id ∈ s.prefixCache.blocksById)
    if resident ∧ s.refCount b = 1 then
      ({ s with prefixCache :=
          { s.prefixCache with numEvictable := s.prefixCache.numEvictable + 1 } }, resident)
    else (s, resident)

/-- `PrefixCache::release_evictable_slot`: saturates at zero. -/
def Leaf.releaseEvictableSlot (s : Leaf Key) : Leaf Key :=
  if s.prefixCache.numEvictable = 0 then s
  else { s with prefixCache :=
          { s.prefixCache with numEvictable := s.prefixCache.numEvictable - 1 } }

/-! ## free -/

def Leaf.markUsed (s : Leaf Key) (blockId : Nat) : Except Fatal (Leaf Key) :=
  match s.usageAccountedIds[blockId]? with
  | none => .error .idOutOfRange
  | some true => .error (.usageAccountedRepeatedly blockId)
  | some false => .ok { s with usageAccountedIds := s.usageAccountedIds.set blockId true }

def Leaf.clearUsed (s : Leaf Key) (blockId : Nat) : Except Fatal (Leaf Key) :=
  match s.usageAccountedIds[blockId]? with
  | none => .error .idOutOfRange
  | some false => .error (.freedTwice blockId)
  | some true => .ok { s with usageAccountedIds := s.usageAccountedIds.set blockId false }

/-- The id goes to the first slot behind the live part of the free list. -/
def Leaf.pushFree (s : Leaf Key) (blockId : Nat) : Except Fatal (Leaf Key) :=
  if s.numFreeBlocks < s.freeBlocks.length then
    .ok { s with
      numFreeBlocks := s.numFreeBlocks + 1
      freeBlocks := s.freeBlocks.set s.numFreeBlocks blockId }
  else .error .freeListFull

/-- The end of `free`: an id without an alias goes back to the free list. -/
def Leaf.recycle (s : Leaf Key) (b : Block Key) : Except Fatal (Leaf Key) :=
  if s.refCount b = 0 then
    match b.id with
    | none => .error .idOutOfRange
    | some blockId => s.clearUsed blockId >>= fun s => s.pushFree blockId
  else .ok s

/-- `BlockManagerImpl::free`. -/
def Leaf.free (s : Leaf Key) (block : Block Key) : Except Fatal (Leaf Key) :=
  if block.id = some 0 then .error .freePadding
  else
    let (s, block) := s.decRefCount block
    if s.options.enablePrefixCache then
      let (s, inPrefixCache) := s.updateEvictable block
      if inPrefixCache ∧ s.refCount block = 0 then
        .error (.residentWithRefcountZero (block.id.getD 0))
      else s.recycle block
    else s.recycle block

/-- `Block::release`, run by the destructor: only a managed alias enters `free`. -/
def Leaf.release (s : Leaf Key) (b : Block Key) : Except Fatal (Leaf Key) :=
  match b.refCount, b.manager with
  | some _, some _ => s.free b
  | _, _ => .ok s

end Xllm.Framework
