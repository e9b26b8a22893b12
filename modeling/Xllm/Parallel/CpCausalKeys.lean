import Xllm.Parallel.CpPlanLoops
import Xllm.Parallel.CpAttention

/-!
# The keys that a context-parallel rank attends to

A key is named by its sequence and its token: a token of the prefix, or one of the batch, padding
tokens included. `prefixSlice` is what a KV-split rank holds of the prefixes, and `gatheredKeys` what
the context-parallel ranks hold of the batch. Put in order and selected by the gather indices of a
chunk, they are sequence by sequence the prefix and the tokens up to the chunk's last one
(`SeesCausalKeys`).

The keys of the batch are in order once `kv_reorder_indices` has moved them (`kvReorder_keys`).
-/

namespace Xllm.Parallel

open Xllm.Lib List

/-- A sequence of a prefill batch: how many tokens it brings, and how many it has in the cache. -/
structure CpSequence where
  queryTokens : Nat
  prefixTokens : Nat
  deriving Repr, DecidableEq

inductive KeyRow
  | history (sequence token : Nat)
  | current (sequence token : Nat)
  | padding
  deriving Repr, DecidableEq

/-! ## The rows of the keys -/

/-- The tokens of the prefixes on a KV-split rank: of each logical block, the part of this rank. -/
def prefixSlice (kvSplitSize blockSize : Nat) (prefixTokenCounts : List Nat) (kvSplitRank : Nat) :
    List KeyRow :=
  prefixRankRows kvSplitSize blockSize .padding
    (fun sequence block offset => .history sequence
      (block * (blockSize * kvSplitSize) + kvSplitRank * blockSize + offset))
    prefixTokenCounts

/-- A sequence's rows on a rank: its chunks `r` and `2 * cp_size - 1 - r`. -/
def chunkRows (cpSize r sequence queryTokens : Nat) : List KeyRow :=
  let chunk := chunkLength cpSize queryTokens
  (List.range chunk).map (fun j => .current sequence (r * chunk + j)) ++
    (List.range chunk).map (fun j => .current sequence ((cpSize * 2 - 1 - r) * chunk + j))

def localKeyRows (cpSize r : Nat) (seqs : List CpSequence) : List KeyRow :=
  (seqs.mapIdx fun sequence s => chunkRows cpSize r sequence s.queryTokens).flatten

/-- The keys of the batch, rank by rank. -/
def gatheredKeys (cpSize : Nat) (seqs : List CpSequence) : List KeyRow :=
  (List.range cpSize).flatMap fun r => localKeyRows cpSize r seqs

/-- The keys of a layer: the prefix slices and behind them the keys of the batch, in order. -/
def attentionKeys (cpSize kvSplitSize blockSize : Nat) (havePrefixSlots : Bool)
    (seqs : List CpSequence) (kvReorderIndices : List Nat) : Option (List KeyRow) :=
  (indexSelect (gatheredKeys cpSize seqs) kvReorderIndices).map fun current =>
    (if havePrefixSlots then
      (List.range kvSplitSize).flatMap
        (prefixSlice kvSplitSize blockSize (seqs.map (·.prefixTokens)))
    else []) ++ current

/-! ## What a rank should see -/

/-- The indices select, sequence by sequence, the prefix and the tokens before `upTo`, each once, and
the segments have the lengths whose sums are `cuSeqLens`. -/
def SeesCausalKeys (keys : List KeyRow) (indices : List Nat) (cuSeqLens : List Int)
    (seqs : List CpSequence) (upTo : CpSequence → Nat) : Prop :=
  ∃ segments : List (List KeyRow), indexSelect keys indices = some segments.flatten ∧
    segments.length = seqs.length ∧
    cumsumFrom 0 (segments.map fun segment => (segment.length : Int)) = cuSeqLens ∧
    ∀ (i : Nat) (s : CpSequence) (segment : List KeyRow), seqs[i]? = some s →
      segments[i]? = some segment →
      segment.Nodup ∧ ∀ row : KeyRow, row ∈ segment ↔
        (∃ t < s.prefixTokens, row = .history i t) ∨ ∃ t < upTo s, row = .current i t

/-- The tokens up to the last one of the rank's first chunk, and of its second. -/
def firstChunkEnd (cpSize r : Nat) (s : CpSequence) : Nat :=
  (r + 1) * chunkLength cpSize s.queryTokens

def secondChunkEnd (cpSize r : Nat) (s : CpSequence) : Nat :=
  (cpSize * 2 - r) * chunkLength cpSize s.queryTokens

structure CausalAttention (cpSize kvSplitSize blockSize : Nat) (havePrefixSlots : Bool)
    (seqs : List CpSequence) (r localTokenNum : Nat) (attention : CpAttentionMeta) : Prop where
  keys : ∃ keys, attentionKeys cpSize kvSplitSize blockSize havePrefixSlots seqs
      attention.kvReorderIndices = some keys ∧
    SeesCausalKeys keys attention.prevKvGatherIndices attention.prevKeyCuSeqLens seqs
      (firstChunkEnd cpSize r) ∧
    SeesCausalKeys keys attention.nextKvGatherIndices attention.nextKeyCuSeqLens seqs
      (secondChunkEnd cpSize r)
  /-- The outputs of the two chunks are put back in the order of the rank's rows. -/
  reorder : ∀ {α : Type} (rows : List α), rows.length = localTokenNum →
    ∃ balanced, indexSelect rows attention.queryBalanceIndices = some balanced ∧
      indexSelect balanced attention.attentionOutputReorderIndices = some rows

/-! ## The input of a batch -/

def queryLengths (seqs : List CpSequence) : List Int := seqs.map fun s => (s.queryTokens : Int)

/-- The positions start right after the prefix. -/
def batchPositions (seqs : List CpSequence) : List Int :=
  seqs.flatMap fun s => (List.range s.queryTokens).map fun t => ((s.prefixTokens + t : Nat) : Int)

/-- The attention metadata that `NpuCpPlan::build` gives rank `r`, but for the cache slots of the
prefix, which come from the block tables. -/
def attentionMeta (cpSize kvSplitSize blockSize : Nat) (havePrefixSlots : Bool)
    (seqs : List CpSequence) (r : Nat) : Except String CpAttentionMeta :=
  let shardMeta := buildInputShardMeta cpSize r (queryLengths seqs) (batchPositions seqs)
  buildAttentionTensorMeta cpSize shardMeta.localPaddedTokenCount shardMeta.localPositionIds
    shardMeta.localPaddedSeqLens havePrefixSlots (seqs.map (·.prefixTokens)) blockSize kvSplitSize

/-! ## Ranges -/

theorem range_flatMap_chunks {α : Type} (f : Nat → α) (chunks chunk : Nat) :
    (List.range chunks).flatMap (fun c => (List.range chunk).map fun j => f (c * chunk + j)) =
      (List.range (chunks * chunk)).map f := by
  induction chunks with
  | zero => rw [Nat.zero_mul]; rfl
  | succ chunks ih =>
    rw [range_succ, flatMap_append, ih, flatMap_singleton, Nat.succ_mul,
      range_add, map_append, map_map]
    rfl

theorem gatherIdxPerChunk_eq (cpSize inputIdsSize reqChunkLen reqOffset : Nat) :
    gatherIdxPerChunk cpSize inputIdsSize reqChunkLen reqOffset =
      (List.range (cpSize * 2)).map fun c =>
        if c < cpSize then List.range' (c * inputIdsSize + reqOffset) reqChunkLen
        else List.range' ((cpSize * 2 - 1 - c) * inputIdsSize + reqOffset + reqChunkLen)
          reqChunkLen := by
  let written := fun (ranks c : Nat) =>
    if c < ranks then List.range' (c * inputIdsSize + reqOffset) reqChunkLen
    else if cpSize * 2 - 1 - c < ranks then
      List.range' ((cpSize * 2 - 1 - c) * inputIdsSize + reqOffset + reqChunkLen) reqChunkLen
    else []
  have loop : ∀ ranks ≤ cpSize, (List.range ranks).foldl (fun gather cpRankId =>
      let rankOffset := cpRankId * inputIdsSize
      (gather.set cpRankId (List.range' (rankOffset + reqOffset) reqChunkLen)).set
        (cpSize * 2 - 1 - cpRankId) (List.range' (rankOffset + reqOffset + reqChunkLen) reqChunkLen))
      (List.replicate (cpSize * 2) []) = (List.range (cpSize * 2)).map (written ranks) := by
    intro ranks
    induction ranks with
    | zero =>
      intro _
      exact ext_getElem (by simp) fun c _ _ => by simp [written]
    | succ ranks ih =>
      intro hle
      rw [range_succ, foldl_append, ih (by omega), foldl_cons, foldl_nil]
      refine ext_getElem (by simp) fun c hc _ => ?_
      simp only [getElem_set, getElem_map, getElem_range, written]
      -- The rank writes its two chunks; the others are as the ranks before it left them.
      by_cases hlast : cpSize * 2 - 1 - ranks = c
      · grind
      · grind
  unfold gatherIdxPerChunk
  rw [loop cpSize (Nat.le_refl _)]
  apply map_congr_left
  intro c hc
  have hlt := mem_range.mp hc
  simp only [written]
  by_cases hfirst : c < cpSize
  · rw [if_pos hfirst, if_pos hfirst]
  · rw [if_neg hfirst, if_neg hfirst, if_pos (by omega)]

/-! ## The keys of the batch, in order -/

section

variable {cpSize : Nat} {seqs : List CpSequence}

/-- A sequence's rows on a rank. -/
def localWidth (cpSize : Nat) (s : CpSequence) : Nat := 2 * chunkLength cpSize s.queryTokens

/-- The keys of the batch, sequence by sequence and token by token. -/
def currentKeys (cpSize : Nat) (seqs : List CpSequence) : List KeyRow :=
  (seqs.mapIdx fun i s =>
    (List.range (cpSize * 2 * chunkLength cpSize s.queryTokens)).map (KeyRow.current i)).flatten

theorem chunkRows_length (cpSize r i q : Nat) :
    (chunkRows cpSize r i q).length = 2 * chunkLength cpSize q := by
  unfold chunkRows
  rw [length_append, length_map, length_map, length_range]
  omega

theorem localKeyRows_length (cpSize r : Nat) (seqs : List CpSequence) :
    (localKeyRows cpSize r seqs).length = (seqs.map (localWidth cpSize)).sum :=
  length_flatten_mapIdx fun i s _ => chunkRows_length cpSize r i s.queryTokens

theorem gatheredKeys_getElem? {r i k : Nat} {s : CpSequence} (hr : r < cpSize)
    (hi : seqs[i]? = some s) (hk : k < localWidth cpSize s) :
    (gatheredKeys cpSize seqs)[r * (seqs.map (localWidth cpSize)).sum +
      (offsetOf (localWidth cpSize) seqs i + k)]? = (chunkRows cpSize r i s.queryTokens)[k]? := by
  have hle := @offsetOf_add_le _ (localWidth cpSize) seqs _ _ hi
  have hrow : ((List.range cpSize).map fun r => localKeyRows cpSize r seqs)[r]? =
      some (localKeyRows cpSize r seqs) := by
    rw [List.getElem?_map, List.getElem?_range hr]
    rfl
  unfold gatheredKeys
  rw [flatMap_def, getElem?_flatten_of_length (by omega), hrow, Option.bind_some]
  · exact getElem?_flatten_mapIdx (fun i s _ => chunkRows_length cpSize r i s.queryTokens) hi hk
  · intro row hmem
    obtain ⟨b, -, rfl⟩ := mem_map.mp hmem
    exact localKeyRows_length cpSize b seqs

/-- `kv_reorder_indices` puts the gathered keys in order. -/
theorem kvReorder_keys :
    indexSelect (gatheredKeys cpSize seqs)
      (generateKvReorderIndices cpSize (seqs.map (localWidth cpSize)).sum
        ((seqs.map (localWidth cpSize)).map (· / 2))) = some (currentKeys cpSize seqs) := by
  have hchunks : (seqs.map (localWidth cpSize)).map (· / 2) =
      seqs.map fun s => chunkLength cpSize s.queryTokens := by
    rw [map_map]
    apply map_congr_left
    intro s _
    show 2 * chunkLength cpSize s.queryTokens / 2 = _
    omega
  unfold generateKvReorderIndices currentKeys
  rw [hchunks, withOffsets_map, withOffsets_eq]
  refine indexSelect_flatten_mapIdx fun i s hi => ?_
  rw [gatherIdxPerChunk_eq, ← flatMap_def, ← range_flatMap_chunks (KeyRow.current i)]
  have hoffset : offsetOf (fun s => chunkLength cpSize s.queryTokens * 2) seqs i =
      offsetOf (localWidth cpSize) seqs i := by
    congr 1
    funext s
    exact Nat.mul_comm _ _
  rw [hoffset, Nat.zero_add]
  refine indexSelect_flatMap_range fun c hc => ?_
  by_cases hfirst : c < cpSize
  · rw [if_pos hfirst]
    refine indexSelect_range' fun k hk => ?_
    rw [Nat.add_assoc, gatheredKeys_getElem? hfirst hi (by unfold localWidth; omega)]
    unfold chunkRows
    rw [List.getElem?_append_left (by rw [length_map, length_range]; exact hk),
      List.getElem?_map, List.getElem?_range hk]
    rfl
  · rw [if_neg hfirst]
    refine indexSelect_range' fun k hk => ?_
    rw [Nat.add_assoc, Nat.add_assoc, gatheredKeys_getElem? (by omega) hi (by
      unfold localWidth
      omega)]
    unfold chunkRows
    rw [List.getElem?_append_right (by rw [length_map, length_range]; omega),
      length_map, length_range, Nat.add_sub_cancel_left, List.getElem?_map,
      List.getElem?_range hk]
    have hback : cpSize * 2 - 1 - (cpSize * 2 - 1 - c) = c := by omega
    rw [hback]
    rfl

end

end Xllm.Parallel
