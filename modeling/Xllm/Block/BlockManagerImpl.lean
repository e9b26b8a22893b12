import Mathlib
import Xllm.PrefixCache.PrefixCache

/-!
# `BlockManagerImpl`

`core/framework/block/block_manager_impl.cpp`: one leaf's allocation, its prefix-cache entry points
and its counters.
-/

namespace Xllm.Framework

variable {Key : Type} [DecidableEq Key]

/-! ## Allocation -/

/-- One turn of `allocate`'s loop: the top of the free list becomes a block with a new counter. -/
def Leaf.takeBlock [Inhabited Key] (s : Leaf Key) : Except Fatal (Leaf Key × Block Key) :=
  match s.freeBlocks[s.numFreeBlocks - 1]? with
  | none => .error .outOfBounds
  | some blockId => do
    let s ← { s with numFreeBlocks := s.numFreeBlocks - 1 }.markUsed blockId
    .ok ({ s with
        refCounts := Function.update s.refCounts s.nextRefCount 1
        nextRefCount := s.nextRefCount + 1 },
      { id := some blockId, size := s.options.blockSize, refCount := some s.nextRefCount,
        manager := some s.self, hashValue := default })

def allocateLoop [Inhabited Key] : Nat → Leaf Key → Except Fatal (Leaf Key × List (Block Key))
  | 0, s => .ok (s, [])
  | n + 1, s => do
    let (s, b) ← s.takeBlock
    let (s, bs) ← allocateLoop n s
    .ok (s, b :: bs)

/-- `has_enough_blocks`; its parameter is a `uint32_t`. -/
def Leaf.hasEnoughBlocks (s : Leaf Key) (numBlocks : Nat) : Except Fatal (Leaf Key × Bool) :=
  if numBlocks ≤ s.numFreeBlocks then .ok (s, true)
  else if ¬ s.options.enablePrefixCache then .ok (s, false)
  else do
    let nBlocksToEvict := numBlocks - s.numFreeBlocks
    let (s, nBlocksEvicted) ← s.evict nBlocksToEvict
    if nBlocksEvicted < nBlocksToEvict then .ok (s, false)
    else .ok (s, decide (numBlocks ≤ s.numFreeBlocks))

/-- `allocate`: the `size_t` count is narrowed to 32 bits on its way into `has_enough_blocks`. -/
def Leaf.allocate [Inhabited Key] (s : Leaf Key) (numBlocks : Nat) :
    Except Fatal (Leaf Key × List (Block Key)) := do
  let (s, enough) ← s.hasEnoughBlocks (numBlocks % 2 ^ 32)
  if ¬ enough then .ok (s, [])
  else if s.numFreeBlocks < numBlocks then .error .notEnoughBlocks
  else allocateLoop numBlocks s

/-- The constructor: a full free list, then id 0 is taken for padding and loses its manager. -/
def Leaf.init [Inhabited Key] (options : Options) (self : Nat := 0) : Except Fatal (Leaf Key) :=
  if options.numBlocks = 0 then .error .noBlocks
  else if options.blockSize = 0 then .error .blockSizeNotPositive
  else do
    let s : Leaf Key :=
      { options, self
        numFreeBlocks := options.numBlocks
        freeBlocks := (List.range options.numBlocks).map (fun i => options.numBlocks - i - 1)
        usageAccountedIds := List.replicate options.numBlocks false
        paddingBlock := Block.empty }
    let (s, padding) ← s.allocate 1
    match padding with
    | [b] =>
      if b.id = some 0 then .ok { s with paddingBlock := { b with manager := none } }
      else .error .paddingBlockId
    | _ => .error .paddingBlockId

/-! ## Counters -/

def Leaf.numTotalBlocks (s : Leaf Key) : Nat := s.freeBlocks.length - 1

def Leaf.numEvictableBlocks (s : Leaf Key) : Nat :=
  if s.options.enablePrefixCache then s.prefixCache.numEvictable else 0

def Leaf.numUsedBlocks (s : Leaf Key) : Nat :=
  let total := s.numTotalBlocks
  let notHeld := s.numFreeBlocks + s.numEvictableBlocks
  if notHeld < total then total - notHeld else 0

/-! ## The prefix cache's entry points -/

section

variable (xxh3 : HashInput Key → Key)

/-- `allocate_shared`: SWA and LINEAR ignore a shared prefix, LINEAR drops the last token. -/
def Leaf.allocateShared [Inhabited Key] (s : Leaf Key) (tokenIds : List Int)
    (existedSharedBlocks : List (Block Key)) (mmItems : List (MMItem Key))
    (blockHashes : List Key) : Except Fatal (Leaf Key × List (Block Key)) :=
  if ¬ s.options.enablePrefixCache ∨ s.options.blockSize = 0 then .ok (s, [])
  else if s.options.blockType = .linear ∧ tokenIds = [] then .ok (s, [])
  else
    let linear := decide (s.options.blockType = .linear)
    let ignoreExisted := linear || decide (s.options.blockType = .swa)
    let matchTokens := if linear then tokenIds.take (tokenIds.length - 1) else tokenIds
    let existed := if ignoreExisted then [] else existedSharedBlocks
    s.matchPrefix xxh3 matchTokens existed mmItems blockHashes

/-- `check_owned`: every valid block belongs to this leaf or to the wrapper that allocates. -/
def Leaf.checkOwned (s : Leaf Key) : List (Block Key) → Except Fatal Unit
  | [] => .ok ()
  | b :: bs =>
    if b.isValid ∧ ¬ (b.manager = some s.self ∨ b.manager = s.blockAllocator) then
      .error (.notOwned b.id)
    else s.checkOwned bs

/-- `cache` with tokens: the leaf and the stamped vector. -/
def Leaf.cacheTokens (s : Leaf Key) (tokenIds : List Int) (blocks : List (Block Key))
    (existedNum : Nat) (mmItems : List (MMItem Key)) (blockHashes : List Key) :
    Except Fatal (Leaf Key × List (Block Key)) :=
  if s.options.enablePrefixCache then do
    s.checkOwned blocks
    let (s, blocks, _) ← s.insertTokens xxh3 tokenIds blocks existedNum mmItems blockHashes
    .ok (s, blocks)
  else .ok (s, blocks)

end

/-- `cache` of stamped blocks. -/
def Leaf.cacheStamped (s : Leaf Key) (blocks : List (Block Key)) : Except Fatal (Leaf Key) :=
  if s.options.enablePrefixCache then do
    s.checkOwned blocks
    let (s, _) ← s.insertStamped blocks
    .ok s
  else .ok s

def Leaf.resetPrefixCache (s : Leaf Key) : Except Fatal (Leaf Key) :=
  if s.options.enablePrefixCache then
    if s.prefixCache.numBlocks = s.prefixCache.cachedBlocks.entries.length then do
      let (s, _) ← s.evict s.prefixCache.numBlocks
      .ok s
    else .error .blockNum
  else .ok s

end Xllm.Framework
