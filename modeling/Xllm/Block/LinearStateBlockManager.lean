import Xllm.Block.Residency

/-!
# `LinearStateBlockManager`

`core/framework/block/linear_state_block_manager.cpp`: the leaf that hands recurrent-state slots to
sequences. A sequence holds at most two LINEAR blocks. The batch builder reads the state at the
second to last one and writes it at the last one (`append_linear_state_row`), so the roles of the
two are their positions: prefill erases from the front, decode swaps, a prefix hit mounts one block,
and a failed allocation leaves what there is.

`LinearSequence` is what the leaf reads and writes of a `Sequence` and its HBM `KVCacheState`. The
KV leaf beside it is not modelled: how many KV blocks a probe found is an input of `mountLinear`,
which is the part of `allocate_shared_for_sequence` that concerns this leaf.
-/

namespace Xllm.Framework

variable {Key : Type} [DecidableEq Key] [Inhabited Key]

/-- `tokenIds` is `hash_tokens`, the committed tokens; `numPromptTokens` is the length that
`stage` compares with. `scheduled` says that the last growth succeeded, so that the batch builder
may export the sequence's slots. -/
structure LinearSequence (Key : Type) where
  tokenIds : List Int
  mmItems : List (MMItem Key)
  numPromptTokens : Nat
  isGraphWarmup : Bool
  linearBlocks : List (Block Key) := []
  kvCacheTokensNum : Nat := 0
  blockHashes : List Key := []
  prefixCacheMatched : Bool := false
  scheduled : Bool := false

/-- `Sequence::kv_cache_tokens_num`: the longest of the HBM, host and restored prefixes. -/
def LinearSequence.cachedTokens (seq : LinearSequence Key) (restoreTokens : Nat) : Nat :=
  max seq.kvCacheTokensNum restoreTokens

def LinearSequence.isPrefillStage (seq : LinearSequence Key) (restoreTokens : Nat) : Bool :=
  seq.cachedTokens restoreTokens < seq.numPromptTokens

/-! ## Checkpoints -/

/-- Its CHECKs hold at both call sites: the stride is positive and the range is not reversed. -/
def crossesCheckpoint (first last checkpointStride : Nat) : Bool :=
  first / checkpointStride ≠ last / checkpointStride

/-- `last_decode_step_checkpoint_row`. -/
def lastDecodeStepCheckpointRow (cachedTokens acceptedLength checkpointStride : Nat) :
    Option Nat :=
  if cachedTokens ≤ acceptedLength + 1 then none
  else if crossesCheckpoint (cachedTokens - acceptedLength - 1) cachedTokens checkpointStride then
    some acceptedLength
  else none

/-! ## Slots -/

def Leaf.initLinear (options : Options) (self : Nat) : Except Fatal (Leaf Key) := do
  let s ← Leaf.init { options with blockType := .linear } self
  if options.numBlocks ≤ 1 then .error .noLinearSlot else .ok s

/-- The destructors of a vector of blocks. -/
def Leaf.releaseAll (s : Leaf Key) : List (Block Key) → Except Fatal (Leaf Key)
  | [] => .ok s
  | b :: bs => do
    let s ← s.release b
    s.releaseAll bs

/-- `blocks->erase(blocks->begin())` of a vector of two. -/
def Leaf.eraseFront (s : Leaf Key) (blocks : List (Block Key)) :
    Except Fatal (Leaf Key × List (Block Key)) :=
  match blocks with
  | [front, back] => do
    let s ← s.release front
    .ok (s, [back])
  | blocks => .ok (s, blocks)

/-- The first branch of `allocate_prefill`: a restored prefix that is longer than the HBM cache starts
over with two new slots. -/
def Leaf.allocateRestored (s : Leaf Key) (seq : LinearSequence Key) :
    Except Fatal (Leaf Key × LinearSequence Key × Option (List (Block Key))) := do
  let s ← s.releaseAll seq.linearBlocks
  let seq := { seq with linearBlocks := [] }
  let (s, allocated) ← s.allocate 2
  if allocated.length ≠ 2 then do
    let s ← s.releaseAll allocated
    .ok (s, seq, none)
  else .ok (s, seq, some allocated)

section

variable (xxh3 : HashInput Key → Key)

/-- `Sequence::update_block_hashes`. -/
def LinearSequence.updateBlockHashes (seq : LinearSequence Key) (o : Options) :
    Except Fatal (LinearSequence Key) := do
  let blockHashes ← extendPrefixHashes xxh3 o.hasherType seq.mmItems seq.tokenIds o.blockSize
    (numHashBlocks o.hasherType seq.tokenIds.length o.blockSize) seq.blockHashes
  .ok { seq with blockHashes }

/-- The end of `allocate_prefill`: the block that remains is the completed read source, and is
published when the cached tokens end at a checkpoint. -/
def Leaf.publishCompleted (s : Leaf Key) (seq : LinearSequence Key) (cachedTokens : Nat) :
    Except Fatal (Leaf Key × LinearSequence Key) :=
  match seq.linearBlocks with
  | [] => .ok (s, seq)
  | front :: rest =>
    let stride := s.options.blockSize
    if s.options.prefixCachePublishMode = .automatic ∧ ¬ seq.isGraphWarmup ∧
        s.options.enablePrefixCache ∧ 0 < stride ∧ cachedTokens % stride = 0 ∧
        0 < cachedTokens / stride then do
      let seq ← seq.updateBlockHashes xxh3 s.options
      if ¬ front.isValid then .error .invalidLinearBlock
      else
        match seq.blockHashes[cachedTokens / stride - 1]? with
        | none => .error .outOfBounds
        | some key => do
          let front := front.setHashValue key
          let (s, _) ← s.insertStamped [front]
          .ok (s, { seq with linearBlocks := front :: rest })
    else .ok (s, seq)

/-- The end of `allocate_prefill`: one new slot is the next write target, and without one the sequence
goes on in place. -/
def Leaf.growPrefill (s : Leaf Key) (seq : LinearSequence Key) (cachedTokens : Nat) :
    Except Fatal (Leaf Key × LinearSequence Key × Option (List (Block Key))) := do
  let (s, allocated) ← s.allocate 1
  if allocated = [] then
    if seq.linearBlocks = [] then .ok (s, seq, none) else .ok (s, seq, some [])
  else do
    let (s, seq) ← s.publishCompleted xxh3 seq cachedTokens
    .ok (s, seq, some allocated)

def Leaf.allocatePrefill (s : Leaf Key) (seq : LinearSequence Key) (restoreTokens : Nat) :
    Except Fatal (Leaf Key × LinearSequence Key × Option (List (Block Key))) :=
  if 2 < seq.linearBlocks.length then .error .tooManyLinearBlocks
  else if seq.kvCacheTokensNum < seq.cachedTokens restoreTokens then s.allocateRestored seq
  else do
    let (s, linearBlocks) ← s.eraseFront seq.linearBlocks
    s.growPrefill xxh3 { seq with linearBlocks } (seq.cachedTokens restoreTokens)

end

/-- The end of `allocate_decode`: a sequence with a live slot asks for another one only when the
next step crosses a checkpoint, and does without when there is none. -/
def Leaf.growDecode (s : Leaf Key) (seq : LinearSequence Key) :
    Except Fatal (Leaf Key × LinearSequence Key × Option (List (Block Key))) :=
  if seq.linearBlocks = [] then do
    let (s, allocated) ← s.allocate 1
    .ok (s, seq, if allocated = [] then none else some allocated)
  else
    let predictedTokens := seq.kvCacheTokensNum + s.options.numSpeculativeTokens + 1
    if ¬ crossesCheckpoint seq.kvCacheTokensNum predictedTokens s.options.blockSize then
      .ok (s, seq, some [])
    else do
      let (s, allocated) ← s.allocate 1
      .ok (s, seq, some allocated)

/-- `allocate_decode`. Two slots alternate their roles until a checkpoint is confirmed. -/
def Leaf.allocateDecode (s : Leaf Key) (seq : LinearSequence Key) (acceptedLength : Nat) :
    Except Fatal (Leaf Key × LinearSequence Key × Option (List (Block Key))) :=
  match seq.linearBlocks with
  | _ :: _ :: _ :: _ => .error .tooManyLinearBlocks
  | [front, back] =>
    let completedCheckpoint := (lastDecodeStepCheckpointRow seq.kvCacheTokensNum acceptedLength
      s.options.blockSize).isSome
    if completedCheckpoint then
      if s.options.preserveDecodeCheckpoint then
        if s.options.enableScheduleOverlap then .ok (s, seq, some [])
        else .ok (s, { seq with linearBlocks := [back, front] }, some [])
      else do
        let s ← s.release front
        s.growDecode { seq with linearBlocks := [back] }
    else .ok (s, { seq with linearBlocks := [back, front] }, some [])
  | _ => s.growDecode seq

/-! ## Prefix hits -/

/-- The loop of `trim_flat_kv_linear`: the longest KV prefix whose end has a LINEAR checkpoint. -/
def safeCountLoop (kvBlockSize linearBlockSize : Nat) (linear : List (Block Key)) : Nat → Nat
  | 0 => 0
  | safeCount + 1 =>
    let safeHitTokens := (safeCount + 1) * kvBlockSize
    if safeHitTokens % linearBlockSize = 0 ∧
        (linear[safeHitTokens / linearBlockSize - 1]?).any Block.isValid then safeCount + 1
    else safeCountLoop kvBlockSize linearBlockSize linear safeCount

def trimFlatKvLinear (kvBlocks kvBlockSize linearBlockSize : Nat) (linear : List (Block Key)) :
    Nat :=
  if 0 < kvBlockSize ∧ 0 < linearBlockSize then
    safeCountLoop kvBlockSize linearBlockSize linear
      (min kvBlocks (linear.length * linearBlockSize / kvBlockSize))
  else 0

section

variable (xxh3 : HashInput Key → Key)

def Leaf.allocateForSequence (s : Leaf Key) (seq : LinearSequence Key)
    (restoreTokens acceptedLength : Nat) :
    Except Fatal (Leaf Key × LinearSequence Key × Option (List (Block Key))) :=
  if seq.isPrefillStage restoreTokens then s.allocatePrefill xxh3 seq restoreTokens
  else s.allocateDecode seq acceptedLength

/-- `allocate_shared_for_sequence` under FLAT_KV_LINEAR, for a sequence without KV blocks of its
own: probe, keep the deepest checkpoint at the end of the KV hit, drop the rest, mount. The KV leaf
found `kvBlocks` blocks; a sequence in decode does not probe this leaf. -/
def Leaf.mountLinear (s : Leaf Key) (seq : LinearSequence Key)
    (restoreTokens kvBlocks kvBlockSize : Nat) :
    Except Fatal (Leaf Key × LinearSequence Key) :=
  if seq.prefixCacheMatched then .ok (s, seq)
  else if ¬ seq.isPrefillStage restoreTokens ∨ ¬ s.options.enablePrefixCache then
    .ok (s, { seq with prefixCacheMatched := true })
  else do
    let seq ← seq.updateBlockHashes xxh3 s.options
    let (s, linear) ← s.allocateShared xxh3 seq.tokenIds [] seq.mmItems seq.blockHashes
    let safeHitTokens :=
      trimFlatKvLinear kvBlocks kvBlockSize s.options.blockSize linear * kvBlockSize
    let seq := { seq with prefixCacheMatched := true }
    if safeHitTokens = 0 then do
      let s ← s.releaseAll linear
      .ok (s, seq)
    else
      let sourceIndex := safeHitTokens / s.options.blockSize - 1
      match linear[sourceIndex]? with
      | none => .error .outOfBounds
      | some source => do
        let s ← s.releaseAll (linear.eraseIdx sourceIndex)
        if seq.linearBlocks ≠ [] then .error .mountOverBlocks
        else .ok (s, { seq with linearBlocks := [source], kvCacheTokensNum := safeHitTokens })

/-! ## The leaf and its sequences -/

/-- `retained` are further aliases of slots, such as those of steps in flight. -/
structure LinearWorld (Key : Type) where
  leaf : Leaf Key
  seqs : List (LinearSequence Key) := []
  retained : List (Block Key) := []

/-- `allocate` is one growth of a sequence: `committed` says whether the other leaves could grow
too (if not, the composite drops the new blocks), `cachedAfter` is the cached length when the
sequence is looked at next. -/
inductive LinearOp (Key : Type)
  | arrive (tokenIds : List Int) (mmItems : List (MMItem Key)) (numPromptTokens : Nat)
      (isGraphWarmup : Bool)
  | append (i : Nat) (tokenIds : List Int)
  | mount (i restoreTokens kvBlocks kvBlockSize : Nat)
  | allocate (i restoreTokens acceptedLength : Nat) (committed : Bool) (cachedAfter : Nat)
  | deallocate (i numPromptTokens : Nat)
  | retain (i j : Nat)
  | drop (k : Nat)
  | evict (nBlocks : Nat)
  | resetPrefixCache

def LinearWorld.step (w : LinearWorld Key) : LinearOp Key → Except Fatal (LinearWorld Key)
  | .arrive tokenIds mmItems numPromptTokens isGraphWarmup =>
    .ok { w with seqs := w.seqs ++ [{ tokenIds, mmItems, numPromptTokens, isGraphWarmup }] }
  | .append i tokenIds =>
    match w.seqs[i]? with
    | none => .error .outOfBounds
    | some seq =>
      .ok { w with seqs := w.seqs.set i { seq with tokenIds := seq.tokenIds ++ tokenIds } }
  | .mount i restoreTokens kvBlocks kvBlockSize =>
    match w.seqs[i]? with
    | none => .error .outOfBounds
    | some seq => do
      let (s, seq) ← w.leaf.mountLinear xxh3 seq restoreTokens kvBlocks kvBlockSize
      .ok { w with leaf := s, seqs := w.seqs.set i seq }
  | .allocate i restoreTokens acceptedLength committed cachedAfter =>
    match w.seqs[i]? with
    | none => .error .outOfBounds
    | some seq => do
      let (s, seq, grown) ← w.leaf.allocateForSequence xxh3 seq restoreTokens acceptedLength
      match grown, committed with
      | some blocks, true =>
        .ok { w with
          leaf := s
          seqs := w.seqs.set i { seq with
            linearBlocks := seq.linearBlocks ++ blocks
            scheduled := true
            kvCacheTokensNum := cachedAfter } }
      | some blocks, false => do
        let s ← s.releaseAll blocks
        .ok { w with leaf := s, seqs := w.seqs.set i { seq with scheduled := false } }
      | none, _ => .ok { w with leaf := s, seqs := w.seqs.set i { seq with scheduled := false } }
  | .deallocate i numPromptTokens =>
    match w.seqs[i]? with
    | none => .error .outOfBounds
    | some seq => do
      let s ← w.leaf.releaseAll seq.linearBlocks
      .ok { w with
        leaf := s
        seqs := w.seqs.set i { seq with
          linearBlocks := []
          kvCacheTokensNum := 0
          prefixCacheMatched := false
          scheduled := false
          numPromptTokens } }
  | .retain i j =>
    match (w.seqs[i]?).bind fun seq => seq.linearBlocks[j]? with
    | none => .error .outOfBounds
    | some b =>
      let (s, b) := w.leaf.copyBlock b
      .ok { w with leaf := s, retained := w.retained ++ [b] }
  | .drop k =>
    match w.retained[k]? with
    | none => .error .outOfBounds
    | some b => do
      let s ← w.leaf.release b
      .ok { w with leaf := s, retained := w.retained.eraseIdx k }
  | .evict nBlocks => do
    let (s, _) ← w.leaf.evict nBlocks
    .ok { w with leaf := s }
  | .resetPrefixCache => do
    let s ← w.leaf.resetPrefixCache
    .ok { w with leaf := s }

end

/-! ## What the batch builder exports -/

/-- `linear_state_ids`: the block a step writes. -/
def LinearSequence.writeSlot (seq : LinearSequence Key) : Option (Block Key) :=
  seq.linearBlocks.getLast?

/-- Every sequence that may run writes a valid block that no other request can hit. -/
def LinearWorld.WritesPrivate (w : LinearWorld Key) : Prop :=
  ∀ seq ∈ w.seqs, seq.scheduled = true →
    ∃ b, seq.writeSlot = some b ∧ b.isValid = true ∧ ¬ w.leaf.Resident b

end Xllm.Framework
