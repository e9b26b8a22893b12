import Xllm.Block.Leaf

/-!
# `PrefixCache` and `LinearStatePrefixCache`

`core/framework/prefix_cache/{prefix_cache,linear_state_prefix_cache}.{h,cpp}`. Both caches share
one registry and one LRU list. `match` copies the blocks of resident keys and relinks their nodes;
`insert` registers blocks under their keys; `evict` deletes unshared nodes from the old end. The
solid cache stops a match at the first miss and trusts its caller that no inserted block is a
placeholder; the gap-tolerant one (LINEAR, SWA) walks on over misses and skips placeholders.

The keys of one call are computed before its loop: they depend on the tokens and hashes only, and
the loop never reads them back.
-/

namespace Xllm.Framework

variable {Key : Type} [DecidableEq Key]

/-- `create_prefix_cache`: LINEAR and SWA leaves get the gap-tolerant cache. -/
def Options.gapTolerant (o : Options) : Bool :=
  o.blockType = .linear ∨ o.blockType = .swa

/-! ## The loops' state -/

def Leaf.setLru (s : Leaf Key) (lruLst : List (Block Key)) : Leaf Key :=
  { s with prefixCache := { s.prefixCache with lruLst } }

/-- The leaf, the blocks collected so far, and the nodes unlinked from the LRU list. -/
structure Working (Key : Type) where
  leaf : Leaf Key
  blocks : List (Block Key) := []
  nodeList : List (Block Key) := []

/-- `remove_node`: unlink from whichever list the node is on. -/
def Working.removeNode (w : Working Key) (node : Block Key) : Working Key :=
  { w with
    leaf := w.leaf.setLru (w.leaf.prefixCache.lruLst.erase node)
    nodeList := w.nodeList.erase node }

def Working.pushFront (w : Working Key) (node : Block Key) : Working Key :=
  { w with nodeList := node :: w.nodeList }

/-- The last loop of `match` and `insert`: the unlinked nodes become the newest. -/
def Working.flush (w : Working Key) : Leaf Key :=
  w.leaf.setLru (w.leaf.prefixCache.lruLst ++ w.nodeList)

/-! ## match -/

/-- `claim_matched_block`: a hit on an unshared node takes it out of the evictable set. -/
def Leaf.claimMatchedBlock (s : Leaf Key) (node : Block Key) : Leaf Key :=
  if node.isValid ∧ s.refCount node = 1 then s.releaseEvictableSlot else s

/-- Look up one block by its key: on a hit, copy it and move its node to the working list. -/
def matchBlock (w : Working Key) (key : Key) : Option (Working Key) :=
  match w.leaf.prefixCache.cachedBlocks.lookup key with
  | none => none
  | some node =>
    let (s, b) := (w.leaf.claimMatchedBlock node).copyBlock node
    some (({ w with leaf := s, blocks := w.blocks ++ [b] }.removeNode node).pushFront node)

/-- The solid walk stops at the first miss. -/
def matchLoop : List Key → Working Key → Working Key
  | [], w => w
  | key :: keys, w =>
    match matchBlock w key with
    | none => w
    | some w => matchLoop keys w

/-- The gap-tolerant walk records a placeholder for a miss, and the last hit. -/
def probeLoop [Inhabited Key] : List Key → Nat → Option Nat → Working Key → Option Nat × Working Key
  | [], _, lastHitIdx, w => (lastHitIdx, w)
  | key :: keys, b, lastHitIdx, w =>
    match matchBlock w key with
    | none => probeLoop keys (b + 1) lastHitIdx { w with blocks := w.blocks ++ [Block.empty] }
    | some w => probeLoop keys (b + 1) (some b) w

/-- `has_any_hit ? last_hit_idx + 1 : start_block`. -/
def keepBlocks (lastHitIdx : Option Nat) (startBlock : Nat) : Nat :=
  match lastHitIdx with
  | some b => b + 1
  | none => startBlock

def Leaf.copyBlocks (s : Leaf Key) : List (Block Key) → Leaf Key × List (Block Key)
  | [] => (s, [])
  | other :: others =>
    let (s, b) := s.copyBlock other
    let (s, bs) := s.copyBlocks others
    (s, b :: bs)

section

variable (xxh3 : HashInput Key → Key)

/-- The keys of blocks `startBlock .. nBlocks`: the precomputed ones when they cover all matchable
blocks, otherwise the chain that continues from the last shared block. -/
def matchKeys (o : Options) (tokenIds : List Int) (existed : List (Block Key))
    (mmItems : List (MMItem Key)) (blockHashes : List Key) (startBlock nBlocks : Nat) :
    Except Fatal (List Key) :=
  if nBlocks ≤ blockHashes.length then
    .ok ((blockHashes.drop startBlock).take (nBlocks - startBlock))
  else
    hashChain xxh3 o.blockSize tokenIds (nBlocks - startBlock)
      (BlockHasher.create o.hasherType mmItems (startBlock * o.blockSize)) startBlock
      (if startBlock = 0 then none else existed.getLast?.map Block.hashValue)

/-- `match` of both caches. -/
def Leaf.matchPrefix [Inhabited Key] (s : Leaf Key) (tokenIds : List Int)
    (existed : List (Block Key)) (mmItems : List (MMItem Key)) (blockHashes : List Key) :
    Except Fatal (Leaf Key × List (Block Key)) :=
  let nBlocks := numHashBlocks s.options.hasherType tokenIds.length s.options.blockSize
  if nBlocks = 0 then .ok (s, [])
  else do
    let startBlock := min existed.length nBlocks
    let keys ← matchKeys xxh3 s.options tokenIds existed mmItems blockHashes startBlock nBlocks
    let (s, blocks) := s.copyBlocks (existed.take startBlock)
    if s.options.gapTolerant then
      let (lastHitIdx, w) := probeLoop keys startBlock none { leaf := s, blocks }
      -- trailing placeholders are trimmed; they own nothing
      .ok (w.flush, w.blocks.take (keepBlocks lastHitIdx startBlock))
    else
      let w := matchLoop keys { leaf := s, blocks }
      .ok (w.flush, w.blocks)

/-! ## insert -/

/-- `blocks_by_id_` and `cached_blocks_` describe the same residents. -/
def Leaf.checkCachedBlockCount (s : Leaf Key) : Except Fatal Unit :=
  if s.prefixCache.blocksById.card = s.prefixCache.cachedBlocks.entries.length then .ok ()
  else .error .cachedBlockCount

/-- A new node: a copy of `block`, registered under `key`. -/
def Working.newNode (w : Working Key) (key : Key) (block : Block Key) : Working Key :=
  let (s, node) := w.leaf.copyBlock block
  { w with
    leaf := { s with prefixCache :=
      { s.prefixCache with
        cachedBlocks := s.prefixCache.cachedBlocks.insert key node
        blocksById := insert node.id s.prefixCache.blocksById
        numBlocks := s.prefixCache.numBlocks + 1 } } }.pushFront node

/-- One block of an insert: a resident key is refreshed, a new one must bring a new block. -/
def insertBlock (w : Working Key) (key : Key) (block : Block Key) : Except Fatal (Working Key) :=
  match w.leaf.prefixCache.cachedBlocks.lookup key with
  | some node => .ok ((w.removeNode node).pushFront node)
  | none =>
    if block.id ∈ w.leaf.prefixCache.blocksById then .error (.duplicateBlockId block.id)
    else .ok (w.newNode key block)

/-- The loop of `insert` over blocks and their keys; `w.blocks` collects the stamped vector. -/
def insertLoop (gapTolerant : Bool) : List (Key × Block Key) → Working Key →
    Except Fatal (Working Key)
  | [], w => .ok w
  | (key, block) :: rest, w =>
    if gapTolerant ∧ ¬ block.isValid then
      insertLoop gapTolerant rest { w with blocks := w.blocks ++ [block] }
    else do
      let block := block.setHashValue key
      let w ← insertBlock { w with blocks := w.blocks ++ [block] } key block
      insertLoop gapTolerant rest w

/-- The keys of blocks `existedNum .. nBlocks`. The solid cache seeds the chain from the block
before them; the gap-tolerant one, where that block may be a placeholder, from token 0. -/
def insertKeys (o : Options) (tokenIds : List Int) (blocks : List (Block Key))
    (existedNum : Nat) (mmItems : List (MMItem Key)) (blockHashes : List Key) (nBlocks : Nat) :
    Except Fatal (List Key) :=
  if nBlocks ≤ blockHashes.length then
    .ok ((blockHashes.drop existedNum).take (nBlocks - existedNum))
  else if o.gapTolerant then do
    let keys ← hashChain xxh3 o.blockSize tokenIds nBlocks
      (BlockHasher.create o.hasherType mmItems 0) 0 none
    .ok (keys.drop existedNum)
  else
    hashChain xxh3 o.blockSize tokenIds (nBlocks - existedNum)
      (BlockHasher.create o.hasherType mmItems (existedNum * o.blockSize)) existedNum
      (if existedNum = 0 then none else (blocks[existedNum - 1]?).map Block.hashValue)

/-- `insert` with tokens, of both caches: the leaf, the stamped vector and the token span. -/
def Leaf.insertTokens (s : Leaf Key) (tokenIds : List Int) (blocks : List (Block Key))
    (existedNum : Nat) (mmItems : List (MMItem Key)) (blockHashes : List Key) :
    Except Fatal (Leaf Key × List (Block Key) × Nat) := do
  s.checkCachedBlockCount
  let nBlocks :=
    min (numHashBlocks s.options.hasherType tokenIds.length s.options.blockSize) blocks.length
  if nBlocks ≤ existedNum then .ok (s, blocks, nBlocks * s.options.blockSize)
  else do
    let keys ← insertKeys xxh3 s.options tokenIds blocks existedNum mmItems blockHashes nBlocks
    let w ← insertLoop s.options.gapTolerant
      (keys.zip ((blocks.drop existedNum).take (nBlocks - existedNum)))
      { leaf := s, blocks := blocks.take existedNum }
    let s' := w.flush
    s'.checkCachedBlockCount
    .ok (s', w.blocks ++ blocks.drop nBlocks, nBlocks * s.options.blockSize)

end

/-- `insert` of already stamped blocks. -/
def insertStampedLoop : List (Block Key) → Working Key → Except Fatal (Working Key)
  | [], w => .ok w
  | block :: rest, w =>
    if ¬ block.isValid then insertStampedLoop rest w
    else do
      let w ← insertBlock w block.hashValue block
      insertStampedLoop rest w

def Leaf.insertStamped (s : Leaf Key) (blocks : List (Block Key)) :
    Except Fatal (Leaf Key × Nat) := do
  s.checkCachedBlockCount
  let w ← insertStampedLoop blocks { leaf := s }
  let s' := w.flush
  s'.checkCachedBlockCount
  .ok (s', blocks.length * s.options.blockSize)

/-! ## evict -/

/-- The registry's part of evicting an unshared node. -/
def Leaf.unregister (s : Leaf Key) (node : Block Key) : Leaf Key :=
  let s := (s.setLru (s.prefixCache.lruLst.erase node)).releaseEvictableSlot
  { s with prefixCache :=
    { s.prefixCache with
      blocksById := s.prefixCache.blocksById.erase node.id
      cachedBlocks := s.prefixCache.cachedBlocks.erase node.hashValue } }

/-- `delete del_node` runs the block's destructor, and so `free`. -/
def Leaf.evictNode (s : Leaf Key) (node : Block Key) : Except Fatal (Leaf Key) := do
  let s ← (s.unregister node).release node
  .ok { s with prefixCache :=
    { s.prefixCache with numBlocks := s.prefixCache.numBlocks - 1 } }

/-- The walk from the old end; `nodes` is the rest of the list in front of `iter_node`'s end. -/
def evictLoop (nBlocks : Nat) : List (Block Key) → Nat → Leaf Key → Except Fatal (Leaf Key × Nat)
  | [], evictCount, s => .ok (s, evictCount)
  | node :: nodes, evictCount, s =>
    if nBlocks ≤ evictCount then .ok (s, evictCount)
    else if s.isShared node then evictLoop nBlocks nodes evictCount s
    else do
      let s ← s.evictNode node
      evictLoop nBlocks nodes (evictCount + 1) s

def Leaf.evict (s : Leaf Key) (nBlocks : Nat) : Except Fatal (Leaf Key × Nat) := do
  s.checkCachedBlockCount
  if s.prefixCache.numBlocks = 0 ∨ s.prefixCache.lruLst = [] then .ok (s, 0)
  else do
    let (s, evictCount) ← evictLoop nBlocks s.prefixCache.lruLst 0 s
    s.checkCachedBlockCount
    .ok (s, evictCount)

end Xllm.Framework
