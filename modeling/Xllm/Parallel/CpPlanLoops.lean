import Xllm.Parallel.CpPlan

/-!
# The loops of the context-parallel plan, in closed form

`buildInputShardMeta` and `buildOutputMergeMeta` are folds over accumulators. Each fold is a
recursion on the list of query lengths that carries two offsets: the first global token of the
next sequence (`tok`) and the first local row of the next sequence (`loc`). This file states those
recursions and shows that the folds append exactly them, so that the layout argument
(`CpPlanLossless`) never meets an accumulator.
-/

namespace Xllm.Parallel

open Xllm.Lib

/-! ## Chunks cover a sequence -/

theorem chunkLength_mul (cpSize q : Nat) (hcp : 0 < cpSize) :
    chunkLength cpSize q * (cpSize * 2) = paddedLength cpSize q := by
  unfold chunkLength paddedLength
  rw [Nat.mul_div_cancel _ (by omega)]

theorem le_paddedLength (cpSize q : Nat) (hcp : 0 < cpSize) : q ≤ paddedLength cpSize q := by
  unfold paddedLength
  have h := Nat.lt_div_mul_add (a := q + cpSize * 2 - 1) (b := cpSize * 2) (by omega)
  omega

theorem le_chunkLength_mul (cpSize q : Nat) (hcp : 0 < cpSize) :
    q ≤ chunkLength cpSize q * (cpSize * 2) := by
  rw [chunkLength_mul cpSize q hcp]
  exact le_paddedLength cpSize q hcp

theorem chunkLength_pos {cpSize q t : Nat} (hcp : 0 < cpSize) (ht : t < q) :
    0 < chunkLength cpSize q := by
  have h := le_chunkLength_mul cpSize q hcp
  rcases Nat.eq_zero_or_pos (chunkLength cpSize q) with h0 | h0
  · rw [h0] at h; omega
  · exact h0

/-! ## One sequence -/

/-- The rows of chunk `c` that hold a real token. -/
def ownedRows (q chunk c : Nat) : List Nat :=
  (List.range chunk).filter (fun j => decide (c * chunk + j < q))

@[simp] theorem mem_ownedRows {q chunk c j : Nat} :
    j ∈ ownedRows q chunk c ↔ j < chunk ∧ c * chunk + j < q := by
  simp [ownedRows]

theorem nodup_ownedRows (q chunk c : Nat) : (ownedRows q chunk c).Nodup :=
  List.Nodup.filter _ List.nodup_range

/-- The (global row, local row) pairs of one sequence on rank `r`. -/
def seqPairs (cpSize r q tok loc : Nat) : List (Nat × Nat) :=
  let chunk := chunkLength cpSize q
  (ownedRows q chunk r).map (fun j => (tok + (r * chunk + j), loc + (0 + j))) ++
    (ownedRows q chunk (cpSize * 2 - 1 - r)).map
      (fun j => (tok + ((cpSize * 2 - 1 - r) * chunk + j), loc + (chunk + j)))

/-- The positions of one sequence's padded rows on rank `r`. -/
def seqPositions (cpSize r q : Nat) (posStart : Int) : List Int :=
  let chunk := chunkLength cpSize q
  (List.range chunk).map (fun j => posStart + (r * chunk + j : Nat)) ++
    (List.range chunk).map (fun j => posStart + ((cpSize * 2 - 1 - r) * chunk + j : Nat))

/-! ## All sequences -/

def pairsFrom (cpSize r : Nat) : Nat → Nat → List Int → List (Nat × Nat)
  | _, _, [] => []
  | tok, loc, len :: lens =>
    seqPairs cpSize r len.toNat tok loc ++
      pairsFrom cpSize r (tok + len.toNat) (loc + 2 * chunkLength cpSize len.toNat) lens

def positionsFrom (cpSize r : Nat) (positions : List Int) : Nat → List Int → List Int
  | _, [] => []
  | tok, len :: lens =>
    seqPositions cpSize r len.toNat (seqPosStart positions tok) ++
      positionsFrom cpSize r positions (tok + len.toNat) lens

/-- The (rank, local row) every token ends up in, in global order. -/
def ownersFrom (cpSize : Nat) : Nat → List Int → List (Nat × Nat)
  | _, [] => []
  | loc, len :: lens =>
    (List.range len.toNat).map (fun t => ((ownerRow cpSize (chunkLength cpSize len.toNat) t).1,
          loc + (ownerRow cpSize (chunkLength cpSize len.toNat) t).2)) ++
      ownersFrom cpSize (loc + 2 * chunkLength cpSize len.toNat) lens

/-- Padded rows per rank. -/
def paddedRows (cpSize : Nat) (lens : List Int) : Nat :=
  (lens.map (fun len => 2 * chunkLength cpSize len.toNat)).sum

@[simp] theorem paddedRows_nil (cpSize : Nat) : paddedRows cpSize [] = 0 := rfl

@[simp] theorem paddedRows_cons (cpSize : Nat) (len : Int) (lens : List Int) :
    paddedRows cpSize (len :: lens) =
      2 * chunkLength cpSize len.toNat + paddedRows cpSize lens := by
  simp [paddedRows]

@[simp] theorem globalTokenCount_nil : globalTokenCount [] = 0 := rfl

@[simp] theorem globalTokenCount_cons (len : Int) (lens : List Int) :
    globalTokenCount (len :: lens) = len.toNat + globalTokenCount lens := by
  simp [globalTokenCount]

/-! ## The folds append the recursions -/

theorem shardChunk_eq (q chunk c rowBase : Nat) (posStart : Int) (s : ShardLoop) :
    shardChunk q chunk c rowBase posStart s =
      { s with
        virtualPosVec := s.virtualPosVec ++
          (List.range chunk).map (fun j => posStart + (c * chunk + j : Nat))
        sourceVec := s.sourceVec ++
          (ownedRows q chunk c).map (fun j => s.seqTokenOffset + (c * chunk + j))
        destVec := s.destVec ++
          (ownedRows q chunk c).map (fun j => s.localOffset + (rowBase + j))
        localRealTokenCount := s.localRealTokenCount + (ownedRows q chunk c).length
        localRealLen := s.localRealLen + (ownedRows q chunk c).length } := by
  have go : ∀ (js : List Nat) (s : ShardLoop),
      js.foldl (shardRow q chunk c rowBase posStart) s =
        { s with
          virtualPosVec := s.virtualPosVec ++
            js.map (fun j => posStart + (c * chunk + j : Nat))
          sourceVec := s.sourceVec ++ (js.filter (fun j => decide (c * chunk + j < q))).map
            (fun j => s.seqTokenOffset + (c * chunk + j))
          destVec := s.destVec ++ (js.filter (fun j => decide (c * chunk + j < q))).map
            (fun j => s.localOffset + (rowBase + j))
          localRealTokenCount := s.localRealTokenCount +
            (js.filter (fun j => decide (c * chunk + j < q))).length
          localRealLen := s.localRealLen +
            (js.filter (fun j => decide (c * chunk + j < q))).length } := by
    intro js
    induction js with
    | nil => intro s; simp
    | cons j js ih =>
      intro s
      rw [List.foldl_cons, ih]
      by_cases h : c * chunk + j < q
      · simp [shardRow, h, Nat.add_assoc, Nat.add_comm 1]
      · simp [shardRow, h]
  exact go (List.range chunk) s

theorem shardSequence_eq (cpSize r : Nat) (positions : List Int) (s : ShardLoop) (len : Int) :
    shardSequence cpSize r positions s len =
      { s with
        globalRealTokenCount := s.globalRealTokenCount + len.toNat
        localPaddedTokenCount := s.localPaddedTokenCount + 2 * chunkLength cpSize len.toNat
        localRealTokenCount := s.localRealTokenCount +
          (seqPairs cpSize r len.toNat s.seqTokenOffset s.localOffset).length
        sourceVec := s.sourceVec ++
          (seqPairs cpSize r len.toNat s.seqTokenOffset s.localOffset).map Prod.fst
        destVec := s.destVec ++
          (seqPairs cpSize r len.toNat s.seqTokenOffset s.localOffset).map Prod.snd
        virtualPosVec := s.virtualPosVec ++
          seqPositions cpSize r len.toNat (seqPosStart positions s.seqTokenOffset)
        localQSeqLens := s.localQSeqLens ++
          [(seqPairs cpSize r len.toNat s.seqTokenOffset s.localOffset).length]
        localPaddedSeqLens := s.localPaddedSeqLens ++ [2 * chunkLength cpSize len.toNat]
        localRealLen := (seqPairs cpSize r len.toNat s.seqTokenOffset s.localOffset).length
        seqTokenOffset := s.seqTokenOffset + len.toNat
        localOffset := s.localOffset + 2 * chunkLength cpSize len.toNat } := by
  simp [shardSequence, shardChunk_eq, seqPairs, seqPositions, Function.comp_def, Nat.add_assoc]

/-- What the whole fold leaves in the accumulators it reports. -/
structure ShardLoopSpec (cpSize r : Nat) (positions : List Int) (lens : List Int)
    (s s' : ShardLoop) : Prop where
  globalReal : s'.globalRealTokenCount = s.globalRealTokenCount + globalTokenCount lens
  localPadded : s'.localPaddedTokenCount = s.localPaddedTokenCount + paddedRows cpSize lens
  paddedLens : s'.localPaddedSeqLens =
    s.localPaddedSeqLens ++ lens.map (fun len => 2 * chunkLength cpSize len.toNat)
  source : s'.sourceVec =
    s.sourceVec ++ (pairsFrom cpSize r s.seqTokenOffset s.localOffset lens).map Prod.fst
  dest : s'.destVec =
    s.destVec ++ (pairsFrom cpSize r s.seqTokenOffset s.localOffset lens).map Prod.snd
  positions : s'.virtualPosVec =
    s.virtualPosVec ++ positionsFrom cpSize r positions s.seqTokenOffset lens

theorem shardLoop_spec (cpSize r : Nat) (positions : List Int) :
    ∀ (lens : List Int) (s : ShardLoop),
      ShardLoopSpec cpSize r positions lens s
        (lens.foldl (shardSequence cpSize r positions) s) := by
  intro lens
  induction lens with
  | nil => intro s; constructor <;> simp [pairsFrom, positionsFrom]
  | cons len lens ih =>
    intro s
    have h := ih (shardSequence cpSize r positions s len)
    rw [List.foldl_cons]
    constructor
    · rw [h.globalReal, shardSequence_eq]; simp [Nat.add_assoc]
    · rw [h.localPadded, shardSequence_eq]; simp [Nat.add_assoc]
    · rw [h.paddedLens, shardSequence_eq]; simp
    · rw [h.source, shardSequence_eq]; simp [pairsFrom]
    · rw [h.dest, shardSequence_eq]; simp [pairsFrom]
    · rw [h.positions, shardSequence_eq]; simp [positionsFrom]

theorem mergeLoop_restoreVec (cpSize n : Nat) :
    ∀ (lens : List Int) (m : MergeLoop),
      (lens.foldl (mergeSequence cpSize n) m).restoreVec =
        m.restoreVec ++ (ownersFrom cpSize m.gatherSeqOffset lens).map (fun o => o.1 * n + o.2) := by
  intro lens
  induction lens with
  | nil => intro m; simp [ownersFrom]
  | cons len lens ih =>
    intro m
    rw [List.foldl_cons, ih]
    simp [mergeSequence, ownersFrom, Function.comp_def, Nat.add_assoc]

theorem mergeLoop_globalPadded (cpSize n : Nat) :
    ∀ (lens : List Int) (m : MergeLoop),
      (lens.foldl (mergeSequence cpSize n) m).globalPaddedTokenCount =
        m.globalPaddedTokenCount + cpSize * paddedRows cpSize lens := by
  intro lens
  induction lens with
  | nil => intro m; simp
  | cons len lens ih =>
    intro m
    have hpad : paddedLength cpSize len.toNat =
        cpSize * (2 * chunkLength cpSize len.toNat) := by
      rcases Nat.eq_zero_or_pos cpSize with rfl | hcp
      · simp [paddedLength]
      · rw [← chunkLength_mul cpSize _ hcp, Nat.mul_comm, Nat.mul_assoc]
    rw [List.foldl_cons, ih, paddedRows_cons, Nat.mul_add]
    simp [mergeSequence, hpad, Nat.add_assoc]

theorem paddedRows_eq_zero (cpSize : Nat) {lens : List Int} (h : globalTokenCount lens = 0) :
    paddedRows cpSize lens = 0 := by
  induction lens with
  | nil => rfl
  | cons len lens ih =>
    rw [globalTokenCount_cons] at h
    have hlen : len.toNat = 0 := by omega
    have hchunk : chunkLength cpSize 0 = 0 := by
      unfold chunkLength paddedLength
      rcases Nat.eq_zero_or_pos cpSize with rfl | hcp
      · simp
      · have hround : (0 + cpSize * 2 - 1) / (cpSize * 2) = 0 := Nat.div_eq_of_lt (by omega)
        rw [hround, Nat.zero_mul, Nat.zero_div]
    rw [paddedRows_cons, hlen, hchunk, ih (by omega)]

end Xllm.Parallel
