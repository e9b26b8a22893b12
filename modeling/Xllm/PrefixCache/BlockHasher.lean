import Xllm.Block.Fatal

/-!
# Chained block hashes

`core/framework/prefix_cache/block_hasher.{h,cpp}`. A block's key digests the key of the block
before it and the block's own tokens; a multimodal block also digests the keys of the items that
overlap it, and the MTP variants read one token past the block. `XXH3` is a library function: it is
a parameter `xxh3` here, over the two shapes of input the source gives it.

Token ids are `int32_t` in the source and only ever hashed; token indices and item positions are
non-negative and unbounded here.
-/

namespace Xllm.Framework

inductive BlockHasherType
  | text
  | mm
  | mtpText
  | mtpMm
  deriving DecidableEq, Repr

/-- What one XXH3 digest is taken over: a parent key and tokens (`xxh3_128bits_hash`), or a text
digest and the keys of multimodal items (the second digest of `mm_xxh3_128bits_hash`). -/
inductive HashInput (Key : Type)
  | tokens (preHashValue : Option Key) (tokenIds : List Int)
  | mm (hashValue : Key) (mmHashValues : List Key)
  deriving DecidableEq

/-- One multimodal item: where its tokens are, and the key of its content. -/
structure MMItem (Key : Type) where
  offset : Nat
  length : Nat
  key : Key
  deriving DecidableEq

def blockHashLookahead : BlockHasherType → Nat
  | .mtpText | .mtpMm => 1
  | .text | .mm => 0

/-- Number of complete blocks whose token dependencies are available. -/
def numHashBlocks (type : BlockHasherType) (numTokens blockSize : Nat) : Nat :=
  let lookahead := blockHashLookahead type
  if blockSize = 0 ∨ numTokens ≤ lookahead then 0 else (numTokens - lookahead) / blockSize

/-- A hasher: its type, the items it digests, and the first item that may still overlap. -/
structure BlockHasher (Key : Type) where
  type : BlockHasherType
  mmItems : List (MMItem Key)
  nextItemIdx : Nat

section

variable {Key : Type} (xxh3 : HashInput Key → Key)

def xxh3128bitsHash (preHashValue : Option Key) (tokenIds : List Int) : Key :=
  xxh3 (.tokens preHashValue tokenIds)

def mmXxh3128bitsHash (mmHashValues : List Key) (preHashValue : Option Key)
    (tokenIds : List Int) : Key :=
  let hashValue := xxh3128bitsHash xxh3 preHashValue tokenIds
  match mmHashValues with
  | [] => hashValue
  | _ :: _ => xxh3 (.mm hashValue mmHashValues)

/-- The first item that ends after `startTokenIdx`. -/
def findOverlappingMmIdx (mmItems : List (MMItem Key)) (startTokenIdx : Nat) : Nat :=
  mmItems.findIdx (fun item => startTokenIdx < item.offset + item.length)

def BlockHasher.create (type : BlockHasherType) (mmItems : List (MMItem Key))
    (startTokenIdx : Nat) : BlockHasher Key :=
  { type, mmItems, nextItemIdx := findOverlappingMmIdx mmItems startTokenIdx }

/-- The loop of `get_block_mm_hash_values` over the items from `itemIdx` on. An item is retired
(`nextItemIdx` moves past it) only when the block starts behind it. -/
def blockMmHashValuesLoop (startTokenIdx endTokenIdx : Nat) :
    List (MMItem Key) → Nat → Nat → List Key → Nat × List Key
  | [], _, nextItemIdx, mmHashValues => (nextItemIdx, mmHashValues)
  | item :: items, itemIdx, nextItemIdx, mmHashValues =>
    if endTokenIdx ≤ item.offset then (nextItemIdx, mmHashValues)
    else if item.offset + item.length ≤ startTokenIdx then
      blockMmHashValuesLoop startTokenIdx endTokenIdx items (itemIdx + 1) (itemIdx + 1) mmHashValues
    else if endTokenIdx < item.offset + item.length then
      (nextItemIdx, mmHashValues ++ [item.key])
    else
      blockMmHashValuesLoop startTokenIdx endTokenIdx items (itemIdx + 1) nextItemIdx
        (mmHashValues ++ [item.key])

def BlockHasher.getBlockMmHashValues (hasher : BlockHasher Key)
    (startTokenIdx endTokenIdx : Nat) : BlockHasher Key × List Key :=
  let (nextItemIdx, mmHashValues) := blockMmHashValuesLoop startTokenIdx endTokenIdx
    (hasher.mmItems.drop hasher.nextItemIdx) hasher.nextItemIdx hasher.nextItemIdx []
  ({ hasher with nextItemIdx }, mmHashValues)

/-- `token_ids.slice(start, end)`. -/
def sliceTokens (tokenIds : List Int) (startTokenIdx endTokenIdx : Nat) :
    Except Fatal (List Int) :=
  if startTokenIdx ≤ endTokenIdx ∧ endTokenIdx ≤ tokenIds.length then
    .ok ((tokenIds.drop startTokenIdx).take (endTokenIdx - startTokenIdx))
  else .error .sliceRange

/-- `TextBlockHasher::compute` and `MMBlockHasher::compute`; `mm` picks between them. -/
def BlockHasher.computeBase (hasher : BlockHasher Key) (mm : Bool) (tokenIds : List Int)
    (startTokenIdx endTokenIdx : Nat) (preHashValue : Option Key) :
    Except Fatal (BlockHasher Key × Key) := do
  let blockTokenIds ← sliceTokens tokenIds startTokenIdx endTokenIdx
  if mm then
    let (hasher, mmHashValues) := hasher.getBlockMmHashValues startTokenIdx endTokenIdx
    .ok (hasher, mmXxh3128bitsHash xxh3 mmHashValues preHashValue blockTokenIds)
  else .ok (hasher, xxh3128bitsHash xxh3 preHashValue blockTokenIds)

def BlockHasher.compute (hasher : BlockHasher Key) (tokenIds : List Int)
    (startTokenIdx endTokenIdx : Nat) (preHashValue : Option Key) :
    Except Fatal (BlockHasher Key × Key) :=
  match hasher.type with
  | .text => hasher.computeBase xxh3 false tokenIds startTokenIdx endTokenIdx preHashValue
  | .mm => hasher.computeBase xxh3 true tokenIds startTokenIdx endTokenIdx preHashValue
  | .mtpText =>
    if endTokenIdx < tokenIds.length then
      hasher.computeBase xxh3 false tokenIds startTokenIdx (endTokenIdx + 1) preHashValue
    else .error .missingLookahead
  | .mtpMm =>
    if endTokenIdx < tokenIds.length then
      hasher.computeBase xxh3 true tokenIds startTokenIdx (endTokenIdx + 1) preHashValue
    else .error .missingLookahead

/-- The chain of keys of `count` blocks from block `b` on, after the parent key `preHashValue`. -/
def hashChain (blockSize : Nat) (tokenIds : List Int) :
    Nat → BlockHasher Key → Nat → Option Key → Except Fatal (List Key)
  | 0, _, _, _ => .ok []
  | count + 1, hasher, b, preHashValue => do
    let (hasher, key) ←
      hasher.compute xxh3 tokenIds (b * blockSize) (b * blockSize + blockSize) preHashValue
    let keys ← hashChain blockSize tokenIds count hasher (b + 1) (some key)
    .ok (key :: keys)

/-- `extend_prefix_hashes`: the hashes already present stay; the chain resumes from the last. -/
def extendPrefixHashes (type : BlockHasherType) (mmItems : List (MMItem Key))
    (tokenIds : List Int) (blockSize boundaryBlocks : Nat) (hashes : List Key) :
    Except Fatal (List Key) :=
  let boundaryBlocks := min boundaryBlocks (numHashBlocks type tokenIds.length blockSize)
  if blockSize = 0 ∨ boundaryBlocks ≤ hashes.length then .ok hashes
  else do
    let startBlock := hashes.length
    let hasher := BlockHasher.create type mmItems (startBlock * blockSize)
    let keys ← hashChain xxh3 blockSize tokenIds (boundaryBlocks - startBlock) hasher startBlock
      hashes.getLast?
    .ok (hashes ++ keys)

end

end Xllm.Framework
