import Mathlib.Logic.Basic

/-!
# Failed CHECKs

A failed `CHECK` ends the process. Every function of the block and prefix-cache models that can
reach one returns `Except Fatal _`, with one constructor per CHECK, so a statement can say which of
them a run can and cannot hit.
-/

namespace Xllm.Framework

inductive Fatal
  /-- The constructor: no blocks, no block size, or a padding block other than 0. -/
  | noBlocks
  | blockSizeNotPositive
  | paddingBlockId
  /-- `allocate`: an id came off the free list while its usage bit was set. -/
  | usageAccountedRepeatedly (id : Nat)
  /-- `free`: the last alias of an id was dropped while its usage bit was clear. -/
  | freedTwice (id : Nat)
  /-- `free`: an id is registered in the prefix cache with no alias left. -/
  | residentWithRefcountZero (id : Nat)
  /-- `free` of the padding block. -/
  | freePadding
  /-- `free`: the free list has no room. -/
  | freeListFull
  /-- `mark_used` / `clear_used`: the id is not one of the leaf's. -/
  | idOutOfRange
  /-- `allocate`: enough blocks were promised but are not there. -/
  | notEnoughBlocks
  /-- `PrefixCache::insert`: a block is registered under another hash. -/
  | duplicateBlockId (id : Option Nat)
  /-- `check_owned`: a block of another leaf. -/
  | notOwned (id : Option Nat)
  /-- `check_cached_block_count`. -/
  | cachedBlockCount
  /-- `PrefixCache::num_blocks`. -/
  | blockNum
  /-- `Slice::slice`: the range is not inside the slice. -/
  | sliceRange
  /-- `MtpBlockHasher::compute`: the lookahead token is missing. -/
  | missingLookahead
  /-- `LinearStateBlockManager`: no usable slot, more than two LINEAR blocks, an unset front. -/
  | noLinearSlot
  | tooManyLinearBlocks
  | invalidLinearBlock
  /-- `mount_composite_shared`: the sequence already holds blocks of the type. -/
  | mountOverBlocks
  /-- An access outside a vector; no CHECK guards it in the source. -/
  | outOfBounds
  deriving DecidableEq, Repr

end Xllm.Framework
