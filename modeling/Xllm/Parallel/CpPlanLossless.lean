import Xllm.Parallel.CpPlanLoops
import Xllm.Parallel.NpuCpPlan

/-!
# Sharding and merging are inverse layouts

The sharder enumerates, per rank, the chunks it owns; the merger divides token indices by the
chunk length. Both describe one assignment of tokens to (rank, row) pairs, `ownersFrom`, and this
file proves it:

1. within one sequence, the pairs `seqPairs` of rank `r` are exactly the tokens `ownerRow` sends
   to `r` (`mem_seqPairs`);
2. over the batch, a rank's pairs are exactly the entries of `ownersFrom` with that rank
   (`mem_pairsFrom`), and no destination row is used twice (`nodup_pairsFrom_dest`);
3. so scattering and then gathering through the owners returns every row to its place.

`Lossless` collects what the layout promises, `build_isOk_iff` says for which batches
`NpuCpPlan.build` returns, and `cpPlan_lossless` is the result for every plan it returns.
-/

namespace Xllm.Parallel

open Xllm.Lib List

universe u

/-! ## Owners within one sequence -/

variable {cpSize : Nat}

variable {chunk c j : Nat}

theorem ownerRow_first (hj : j < chunk) (hc : c < cpSize) :
    ownerRow cpSize chunk (c * chunk + j) = (c, j) := by
  have hdiv : (c * chunk + j) / chunk = c := by
    rw [Nat.mul_comm, Nat.mul_add_div (by omega), Nat.div_eq_of_lt hj, Nat.add_zero]
  have hmod : (c * chunk + j) % chunk = j := by
    rw [Nat.mul_comm, Nat.mul_add_mod, Nat.mod_eq_of_lt hj]
  simp [ownerRow, hdiv, hmod, hc]

theorem ownerRow_second (hj : j < chunk) (hc : cpSize ≤ c) :
    ownerRow cpSize chunk (c * chunk + j) = (cpSize * 2 - 1 - c, chunk + j) := by
  have hdiv : (c * chunk + j) / chunk = c := by
    rw [Nat.mul_comm, Nat.mul_add_div (by omega), Nat.div_eq_of_lt hj, Nat.add_zero]
  have hmod : (c * chunk + j) % chunk = j := by
    rw [Nat.mul_comm, Nat.mul_add_mod, Nat.mod_eq_of_lt hj]
  simp [ownerRow, hdiv, hmod, Nat.not_lt.mpr hc]

variable {q t : Nat}

theorem chunk_index_lt (hcp : 0 < cpSize) (ht : t < q) :
    t / chunkLength cpSize q < cpSize * 2 := by
  have hpos := chunkLength_pos hcp ht
  have hle := le_chunkLength_mul cpSize q hcp
  rw [Nat.div_lt_iff_lt_mul hpos, Nat.mul_comm]
  omega

theorem ownerRow_bounds (hcp : 0 < cpSize) (ht : t < q) :
    (ownerRow cpSize (chunkLength cpSize q) t).1 < cpSize ∧
      (ownerRow cpSize (chunkLength cpSize q) t).2 < 2 * chunkLength cpSize q := by
  have hk := Nat.mod_lt t (chunkLength_pos hcp ht)
  unfold ownerRow
  dsimp only
  split <;> constructor <;> dsimp only <;> omega

variable {r loc : Nat}

variable {tok g d : Nat}

/-- The sharder's pairs are the tokens the merger finds on the rank. -/
theorem mem_seqPairs (hr : r < cpSize) :
    (g, d) ∈ seqPairs cpSize r q tok loc ↔
      ∃ t < q, g = tok + t ∧ ownerRow cpSize (chunkLength cpSize q) t = (r, d - loc) ∧ loc ≤ d := by
  unfold seqPairs
  simp only [mem_append, mem_map, mem_ownedRows, Prod.mk.injEq]
  constructor
  · rintro (⟨j, ⟨hj, hq⟩, rfl, rfl⟩ | ⟨j, ⟨hj, hq⟩, rfl, rfl⟩)
    · refine ⟨_, hq, rfl, ?_, by omega⟩
      rw [ownerRow_first hj hr]
      simp
    · refine ⟨_, hq, rfl, ?_, by omega⟩
      rw [ownerRow_second hj (by omega)]
      simp only [Nat.add_sub_cancel_left, Prod.mk.injEq, and_true]
      omega
  · rintro ⟨t, ht, rfl, ho, hd⟩
    have hcp : 0 < cpSize := by omega
    have hc := chunk_index_lt hcp ht
    have hk := Nat.mod_lt t (chunkLength_pos hcp ht)
    have hsplit := Nat.div_add_mod' t (chunkLength cpSize q)
    rcases Nat.lt_or_ge (t / chunkLength cpSize q) cpSize with hfirst | hsecond
    · left
      rw [← hsplit, ownerRow_first hk hfirst, Prod.mk.injEq] at ho
      refine ⟨t % chunkLength cpSize q, ⟨hk, ?_⟩, ?_, by omega⟩
      · rw [← ho.1, hsplit]; exact ht
      · rw [← ho.1, hsplit]
    · right
      rw [← hsplit, ownerRow_second hk hsecond, Prod.mk.injEq] at ho
      have hchunk : cpSize * 2 - 1 - r = t / chunkLength cpSize q := by omega
      refine ⟨t % chunkLength cpSize q, ⟨hk, ?_⟩, ?_, by omega⟩
      · rw [hchunk, hsplit]; exact ht
      · rw [hchunk, hsplit]

theorem seqPairs_dest_range :
    ∀ d ∈ (seqPairs cpSize r q tok loc).map Prod.snd,
      loc ≤ d ∧ d < loc + 2 * chunkLength cpSize q := by
  intro d hd
  simp only [seqPairs, map_append, map_map, mem_append, mem_map,
    Function.comp_apply, mem_ownedRows] at hd
  rcases hd with ⟨j, ⟨hj, -⟩, rfl⟩ | ⟨j, ⟨hj, -⟩, rfl⟩ <;> omega

theorem nodup_seqPairs_dest (cpSize r q tok loc : Nat) :
    ((seqPairs cpSize r q tok loc).map Prod.snd).Nodup := by
  simp only [seqPairs, map_append, map_map]
  refine List.Nodup.append ?_ ?_ ?_
  · exact List.Nodup.map (fun a b h => by simpa using h) (nodup_ownedRows _ _ _)
  · exact List.Nodup.map (fun a b h => by simpa using h) (nodup_ownedRows _ _ _)
  · -- the first chunk fills rows below `chunk`, the second the rows from `chunk` on
    intro d hd hd'
    simp only [mem_map, Function.comp_apply, mem_ownedRows] at hd hd'
    omega

/-! ## Owners over the batch -/

@[simp] theorem length_ownersFrom (cpSize : Nat) :
    ∀ (lens : List Int) (loc : Nat),
      (ownersFrom cpSize loc lens).length = globalTokenCount lens := by
  intro lens
  induction lens with
  | nil => intro loc; rfl
  | cons len lens ih => intro loc; simp [ownersFrom, ih]

theorem getElem?_ownersFrom_cons {k : Nat} {len : Int} {lens : List Int} :
    (ownersFrom cpSize loc (len :: lens))[k]? =
      if k < len.toNat then
        some ((ownerRow cpSize (chunkLength cpSize len.toNat) k).1,
          loc + (ownerRow cpSize (chunkLength cpSize len.toNat) k).2)
      else (ownersFrom cpSize (loc + 2 * chunkLength cpSize len.toNat) lens)[k - len.toNat]? := by
  rw [ownersFrom]
  split
  · rename_i hk
    rw [List.getElem?_append_left (by simpa using hk)]
    simp [hk]
  · rename_i hk
    rw [List.getElem?_append_right (by simpa using hk)]
    simp

theorem ownersFrom_bounds (hcp : 0 < cpSize) :
    ∀ (lens : List Int) (loc : Nat), ∀ o ∈ ownersFrom cpSize loc lens,
      o.1 < cpSize ∧ loc ≤ o.2 ∧ o.2 < loc + paddedRows cpSize lens := by
  intro lens
  induction lens with
  | nil => intro loc o ho; exact nomatch ho
  | cons len lens ih =>
    intro loc o ho
    rw [paddedRows_cons]
    rcases mem_append.mp ho with ho | ho
    · obtain ⟨t, ht, rfl⟩ := mem_map.mp ho
      have hb := ownerRow_bounds hcp (mem_range.mp ht)
      refine ⟨hb.1, ?_, ?_⟩ <;> dsimp only <;> omega
    · have hb := ih _ o ho
      refine ⟨hb.1, ?_, ?_⟩ <;> omega

theorem mem_pairsFrom (hr : r < cpSize) :
    ∀ (lens : List Int) (tok loc g d : Nat),
      (g, d) ∈ pairsFrom cpSize r tok loc lens ↔
        ∃ k, g = tok + k ∧ (ownersFrom cpSize loc lens)[k]? = some (r, d) := by
  intro lens
  induction lens with
  | nil => intro tok loc g d; simp [pairsFrom, ownersFrom]
  | cons len lens ih =>
    intro tok loc g d
    unfold pairsFrom
    rw [mem_append, mem_seqPairs hr, ih]
    simp only [getElem?_ownersFrom_cons]
    constructor
    · rintro (⟨t, ht, rfl, ho, hd⟩ | ⟨k, rfl, ho⟩)
      · refine ⟨t, rfl, ?_⟩
        rw [if_pos ht, ho]
        simp only [Option.some.injEq, Prod.mk.injEq, true_and]
        omega
      · refine ⟨len.toNat + k, by omega, ?_⟩
        rw [if_neg (by omega), Nat.add_sub_cancel_left]
        exact ho
    · rintro ⟨k, rfl, ho⟩
      split at ho
      · rename_i hk
        simp only [Option.some.injEq, Prod.mk.injEq] at ho
        exact Or.inl ⟨k, hk, rfl, Prod.ext ho.1 (by dsimp only; omega), by omega⟩
      · exact Or.inr ⟨k - len.toNat, by omega, ho⟩

theorem pairsFrom_dest_range :
    ∀ (lens : List Int) (tok loc : Nat), ∀ d ∈ (pairsFrom cpSize r tok loc lens).map Prod.snd,
      loc ≤ d ∧ d < loc + paddedRows cpSize lens := by
  intro lens
  induction lens with
  | nil => intro tok loc d hd; exact nomatch hd
  | cons len lens ih =>
    intro tok loc d hd
    simp only [pairsFrom, map_append, mem_append] at hd
    rw [paddedRows_cons]
    rcases hd with hd | hd
    · have := seqPairs_dest_range d hd
      omega
    · have := ih _ _ d hd
      omega

theorem nodup_pairsFrom_dest (cpSize r : Nat) :
    ∀ (lens : List Int) (tok loc : Nat),
      ((pairsFrom cpSize r tok loc lens).map Prod.snd).Nodup := by
  intro lens
  induction lens with
  | nil => intro tok loc; simp [pairsFrom]
  | cons len lens ih =>
    intro tok loc
    simp only [pairsFrom, map_append]
    refine List.Nodup.append (nodup_seqPairs_dest ..) (ih _ _) ?_
    intro d hd hd'
    have h := seqPairs_dest_range d hd
    have h' := pairsFrom_dest_range _ _ _ d hd'
    omega

/-- No token is scattered twice by one rank: the owner list is a function of the token. -/
theorem nodup_pairsFrom_source (hr : r < cpSize) (lens : List Int)
    (tok loc : Nat) : ((pairsFrom cpSize r tok loc lens).map Prod.fst).Nodup := by
  refine List.Nodup.map_on ?_ (List.Nodup.of_map _ (nodup_pairsFrom_dest cpSize r lens tok loc))
  rintro ⟨g, d⟩ hx ⟨g', d'⟩ hy (rfl : g = g')
  obtain ⟨k, hk, ho⟩ := (mem_pairsFrom hr lens tok loc g d).mp hx
  obtain ⟨k', hk', ho'⟩ := (mem_pairsFrom hr lens tok loc g d').mp hy
  obtain rfl : k = k' := by omega
  rw [ho] at ho'
  simp only [Option.some.injEq, Prod.mk.injEq, true_and] at ho'
  rw [ho']

/-! ## Positions -/

theorem length_seqPositions (cpSize r q : Nat) (posStart : Int) :
    (seqPositions cpSize r q posStart).length = 2 * chunkLength cpSize q := by
  simp [seqPositions, Nat.two_mul]

@[simp] theorem length_positionsFrom (cpSize r : Nat) (positions : List Int) :
    ∀ (lens : List Int) (tok : Nat),
      (positionsFrom cpSize r positions tok lens).length = paddedRows cpSize lens := by
  intro lens
  induction lens with
  | nil => intro tok; rfl
  | cons len lens ih => intro tok; simp [positionsFrom, ih, length_seqPositions]

theorem seqPositions_at_owner (hcp : 0 < cpSize) (ht : t < q) (posStart : Int) :
    (seqPositions cpSize (ownerRow cpSize (chunkLength cpSize q) t).1 q posStart)[
        (ownerRow cpSize (chunkLength cpSize q) t).2]? = some (posStart + (t : Nat)) := by
  have hc := chunk_index_lt hcp ht
  have hk := Nat.mod_lt t (chunkLength_pos hcp ht)
  have hsplit := Nat.div_add_mod' t (chunkLength cpSize q)
  unfold seqPositions
  rcases Nat.lt_or_ge (t / chunkLength cpSize q) cpSize with hfirst | hsecond
  · have ho := ownerRow_first hk hfirst
    rw [hsplit] at ho
    rw [ho]
    rw [List.getElem?_append_left (by simpa using hk), List.getElem?_map, List.getElem?_range hk]
    rw [Option.map_some, hsplit]
  · have ho := ownerRow_second hk hsecond
    rw [hsplit] at ho
    rw [ho]
    have hchunk : cpSize * 2 - 1 - (cpSize * 2 - 1 - t / chunkLength cpSize q) =
        t / chunkLength cpSize q := by omega
    rw [List.getElem?_append_right (by simp), hchunk]
    simp only [length_map, length_range, Nat.add_sub_cancel_left]
    rw [List.getElem?_map, List.getElem?_range hk, Option.map_some, hsplit]

theorem owner_and_position (hcp : 0 < cpSize) (positions : List Int)
    (len : Int) (suf : List Int) (ht : t < len.toNat) :
    ∀ (pre : List Int) (tok loc : Nat), ∃ o : Nat × Nat,
      (ownersFrom cpSize loc (pre ++ len :: suf))[globalTokenCount pre + t]? = some (o.1, loc + o.2) ∧
      (positionsFrom cpSize o.1 positions tok (pre ++ len :: suf))[o.2]? =
        some (seqPosStart positions (tok + globalTokenCount pre) + (t : Nat)) := by
  intro pre
  induction pre with
  | nil =>
    intro tok loc
    have hb := ownerRow_bounds hcp ht
    refine ⟨ownerRow cpSize (chunkLength cpSize len.toNat) t, ?_, ?_⟩
    · simp only [globalTokenCount_nil, Nat.zero_add, nil_append, getElem?_ownersFrom_cons,
        if_pos ht]
    · simp only [nil_append, positionsFrom, globalTokenCount_nil, Nat.add_zero]
      rw [List.getElem?_append_left (by rw [length_seqPositions]; exact hb.2)]
      exact seqPositions_at_owner hcp ht _
  | cons first pre ih =>
    intro tok loc
    obtain ⟨o, ho, hp⟩ := ih (tok + first.toNat) (loc + 2 * chunkLength cpSize first.toNat)
    refine ⟨(o.1, 2 * chunkLength cpSize first.toNat + o.2), ?_, ?_⟩
    · rw [cons_append, getElem?_ownersFrom_cons, if_neg (by simp; omega)]
      have hidx : globalTokenCount (first :: pre) + t - first.toNat = globalTokenCount pre + t := by
        simp; omega
      rw [hidx, ho]
      simp [Nat.add_assoc]
    · simp only [cons_append, positionsFrom]
      rw [List.getElem?_append_right (by rw [length_seqPositions]; omega), length_seqPositions,
        Nat.add_sub_cancel_left, hp]
      simp [Nat.add_assoc]

/-! ## The rows of a plan -/

variable {input : CpPlanInput}

section Plan

variable (input : CpPlanInput) (cpSize r : Nat)

theorem rowPlan_shard : ShardLoopSpec cpSize r input.positionIds input.qSeqLens {}
    (shardLoop cpSize r input.positionIds input.qSeqLens) :=
  shardLoop_spec cpSize r input.positionIds input.qSeqLens {}

theorem rowPlan_globalReal : (rowPlan input cpSize r).inputShardMeta.globalRealTokenCount =
    globalTokenCount input.qSeqLens := by
  exact (rowPlan_shard input cpSize r).globalReal.trans (by simp)

theorem rowPlan_localPadded : (rowPlan input cpSize r).inputShardMeta.localPaddedTokenCount =
    paddedRows cpSize input.qSeqLens := by
  exact (rowPlan_shard input cpSize r).localPadded.trans (by simp)

theorem rowPlan_paddedLens : (rowPlan input cpSize r).inputShardMeta.localPaddedSeqLens =
    input.qSeqLens.map (fun len => 2 * chunkLength cpSize len.toNat) := by
  exact (rowPlan_shard input cpSize r).paddedLens.trans (by simp)

theorem rowPlan_source : (rowPlan input cpSize r).inputShardMeta.inputSourceIndices =
    (pairsFrom cpSize r 0 0 input.qSeqLens).map Prod.fst := by
  exact (rowPlan_shard input cpSize r).source.trans (by simp)

theorem rowPlan_dest : (rowPlan input cpSize r).inputShardMeta.inputDestinationIndices =
    (pairsFrom cpSize r 0 0 input.qSeqLens).map Prod.snd := by
  exact (rowPlan_shard input cpSize r).dest.trans (by simp)

theorem rowPlan_positions : (rowPlan input cpSize r).inputShardMeta.localPositionIds =
    positionsFrom cpSize r input.positionIds 0 input.qSeqLens := by
  exact (rowPlan_shard input cpSize r).positions.trans (by simp)

theorem rowPlan_restore : (rowPlan input cpSize r).outputMergeMeta.outputRestoreIndices =
    (ownersFrom cpSize 0 input.qSeqLens).map
      (fun o => o.1 * paddedRows cpSize input.qSeqLens + o.2) := by
  rw [← rowPlan_localPadded input cpSize r]
  exact mergeLoop_restoreVec cpSize _ input.qSeqLens {}

theorem rowPlan_globalPadded : (rowPlan input cpSize r).outputMergeMeta.globalPaddedTokenCount =
    cpSize * paddedRows cpSize input.qSeqLens := by
  rcases Nat.eq_zero_or_pos cpSize with rfl | hcp
  · have h := mergeLoop_globalPadded 0 (rowPlan input 0 r).inputShardMeta.localPaddedTokenCount
      input.qSeqLens {}
    simpa [rowPlan, buildOutputMergeMeta, mergeLoop] using h
  · exact (mergeLoop_globalPadded cpSize _ input.qSeqLens {}).trans (by simp)

end Plan

/-! ## The result -/

/-- Global row `g` is scattered to local row `d`. -/
def CpRowPlan.Owns (plan : CpRowPlan) (g d : Nat) : Prop :=
  ∃ i : Nat, plan.inputShardMeta.inputSourceIndices[i]? = some g ∧
    plan.inputShardMeta.inputDestinationIndices[i]? = some d

theorem owns_rowPlan (hr : r < cpSize) :
    (rowPlan input cpSize r).Owns g d ↔
      (ownersFrom cpSize 0 input.qSeqLens)[g]? = some (r, d) := by
  have hpairs := mem_pairsFrom hr input.qSeqLens 0 0 g d
  unfold CpRowPlan.Owns
  rw [rowPlan_source, rowPlan_dest]
  constructor
  · rintro ⟨i, hs, hd⟩
    rw [List.getElem?_map, Option.map_eq_some_iff] at hs hd
    obtain ⟨p, hp, rfl⟩ := hs
    obtain ⟨p', hp', rfl⟩ := hd
    obtain rfl : p = p' := by rw [hp] at hp'; exact Option.some.inj hp'
    obtain ⟨k, hk, ho⟩ := hpairs.mp (mem_of_getElem? hp)
    rw [hk, Nat.zero_add]
    exact ho
  · intro ho
    obtain ⟨i, hi⟩ := mem_iff_getElem?.mp (hpairs.mpr ⟨g, by omega, ho⟩)
    exact ⟨i, by rw [List.getElem?_map, hi]; rfl, by rw [List.getElem?_map, hi]; rfl⟩

/-- What the plans of all ranks promise about one global batch. -/
structure Lossless {α : Type u} (cpSize : Nat) (lens positions : List Int) (zero : α)
    (hidden : List α) (plan : Nat → CpRowPlan) : Prop where
  /-- All ranks agree on the padded layout. -/
  samePadding : ∀ r < cpSize, ∀ r' < cpSize,
    (plan r).inputShardMeta.localPaddedTokenCount =
        (plan r').inputShardMeta.localPaddedTokenCount ∧
      (plan r).inputShardMeta.localPaddedSeqLens = (plan r').inputShardMeta.localPaddedSeqLens
  /-- Every global row has one owner and one destination row there. -/
  owned : ∀ g < globalTokenCount lens, ∃! o : Nat × Nat, o.1 < cpSize ∧ (plan o.1).Owns g o.2
  /-- No rank reads a global row or writes a local row twice. -/
  scatteredOnce : ∀ r < cpSize, (plan r).inputShardMeta.inputSourceIndices.Nodup ∧
    (plan r).inputShardMeta.inputDestinationIndices.Nodup
  /-- Token `t` of a sequence keeps the position `first position + t`. -/
  position : ∀ (pre : List Int) (len : Int) (suf : List Int) (t : Nat),
    lens = pre ++ len :: suf → t < len.toNat →
    ∀ r < cpSize, ∀ d, (plan r).Owns (globalTokenCount pre + t) d →
      ∃ first, positions[globalTokenCount pre]? = some first ∧
        (plan r).inputShardMeta.localPositionIds[d]? = some (first + (t : Nat))
  /-- Every index is in range. -/
  inBounds : ∀ r < cpSize,
    (∀ g ∈ (plan r).inputShardMeta.inputSourceIndices, g < globalTokenCount lens) ∧
    (∀ d ∈ (plan r).inputShardMeta.inputDestinationIndices,
      d < (plan r).inputShardMeta.localPaddedTokenCount) ∧
    (plan r).inputShardMeta.localPositionIds.length =
      (plan r).inputShardMeta.localPaddedTokenCount ∧
    (plan r).outputMergeMeta.globalPaddedTokenCount =
      cpSize * (plan r).inputShardMeta.localPaddedTokenCount ∧
    ∀ i ∈ (plan r).outputMergeMeta.outputRestoreIndices,
      i < (plan r).outputMergeMeta.globalPaddedTokenCount
  /-- Sharding on every rank, gathering in rank order and merging restores the matrix. -/
  merged : ∃ localHidden : Nat → List α,
    (∀ r < cpSize, (plan r).shardModelInput zero hidden positions =
      some (localHidden r, (plan r).inputShardMeta.localPositionIds)) ∧
    ∀ r < cpSize, (plan r).mergeModelOutput (localHidden r)
      ((List.range cpSize).map localHidden).flatten = some hidden

/-- It is about the rows of the ranks that there are. -/
theorem Lossless.congr {α : Type u} {cpSize : Nat} {lens positions : List Int} {zero : α}
    {hidden : List α} {plan plan' : Nat → CpRowPlan}
    (h : Lossless cpSize lens positions zero hidden plan)
    (heq : ∀ r < cpSize, plan' r = plan r) :
    Lossless cpSize lens positions zero hidden plan' where
  samePadding r hr r' hr' := by
    rw [heq r hr, heq r' hr']
    exact h.samePadding r hr r' hr'
  owned g hg := by
    obtain ⟨o, ⟨ho, howns⟩, hunique⟩ := h.owned g hg
    refine ⟨o, ⟨ho, by rwa [heq o.1 ho]⟩, fun o' ho' => hunique o' ⟨ho'.1, ?_⟩⟩
    rw [← heq o'.1 ho'.1]
    exact ho'.2
  scatteredOnce r hr := by
    rw [heq r hr]
    exact h.scatteredOnce r hr
  position pre len suf t hlens ht r hr := by
    rw [heq r hr]
    exact h.position pre len suf t hlens ht r hr
  inBounds r hr := by
    rw [heq r hr]
    exact h.inBounds r hr
  merged := by
    obtain ⟨localHidden, hsharded, hmerged⟩ := h.merged
    refine ⟨localHidden, fun r hr => ?_, fun r hr => ?_⟩
    · rw [heq r hr]
      exact hsharded r hr
    · rw [heq r hr]
      exact hmerged r hr

section Result

variable {input : CpPlanInput} {cpSize : Nat}

theorem rowPlan_owned (hcp : 0 < cpSize) {g : Nat} (hg : g < globalTokenCount input.qSeqLens) :
    ∃! o : Nat × Nat, o.1 < cpSize ∧ (rowPlan input cpSize o.1).Owns g o.2 := by
  have hlen : g < (ownersFrom cpSize 0 input.qSeqLens).length := by simpa using hg
  have hget := List.getElem?_eq_getElem hlen
  have hbounds := ownersFrom_bounds hcp input.qSeqLens 0 _ (getElem_mem hlen)
  refine ⟨(ownersFrom cpSize 0 input.qSeqLens)[g], ⟨hbounds.1, ?_⟩, ?_⟩
  · exact (owns_rowPlan hbounds.1).mpr hget
  · rintro ⟨r, d⟩ ⟨hr, ho⟩
    rw [(owns_rowPlan hr).mp ho] at hget
    exact Option.some.inj hget

variable {r : Nat}

theorem rowPlan_position (hcp : 0 < cpSize)
    (hpos : input.positionIds.length = globalTokenCount input.qSeqLens)
    {pre suf : List Int} {len : Int} {t : Nat} (hlens : input.qSeqLens = pre ++ len :: suf)
    (ht : t < len.toNat) (hr : r < cpSize) {d : Nat}
    (ho : (rowPlan input cpSize r).Owns (globalTokenCount pre + t) d) :
    ∃ first, input.positionIds[globalTokenCount pre]? = some first ∧
      (rowPlan input cpSize r).inputShardMeta.localPositionIds[d]? = some (first + (t : Nat)) := by
  have hlt : globalTokenCount pre < input.positionIds.length := by
    rw [hpos, hlens]
    simp [globalTokenCount]
    omega
  obtain ⟨o, hown, hp⟩ := owner_and_position hcp input.positionIds len suf ht pre 0 0
  rw [owns_rowPlan hr, hlens, hown] at ho
  simp only [Nat.zero_add, Option.some.injEq, Prod.mk.injEq] at ho
  obtain ⟨rfl, rfl⟩ := ho
  refine ⟨input.positionIds[globalTokenCount pre], List.getElem?_eq_getElem hlt, ?_⟩
  rw [rowPlan_positions, hlens, hp, Nat.zero_add, seqPosStart, List.getElem?_eq_getElem hlt]
  rfl

theorem rowPlan_source_lt (hr : r < cpSize) :
    ∀ g ∈ (rowPlan input cpSize r).inputShardMeta.inputSourceIndices,
      g < globalTokenCount input.qSeqLens := by
  intro g hg
  rw [rowPlan_source] at hg
  obtain ⟨⟨g, d⟩, hp, rfl⟩ := mem_map.mp hg
  obtain ⟨k, hk, ho⟩ := (mem_pairsFrom hr _ _ _ _ _).mp hp
  have hlt := (List.getElem?_eq_some_iff.mp ho).1
  rw [length_ownersFrom] at hlt
  omega

theorem rowPlan_dest_lt (r : Nat) :
    ∀ d ∈ (rowPlan input cpSize r).inputShardMeta.inputDestinationIndices,
      d < (rowPlan input cpSize r).inputShardMeta.localPaddedTokenCount := by
  intro d hd
  rw [rowPlan_dest] at hd
  rw [rowPlan_localPadded]
  have := pairsFrom_dest_range _ _ _ d hd
  omega

theorem rowPlan_restore_lt (hcp : 0 < cpSize) (r : Nat) :
    ∀ i ∈ (rowPlan input cpSize r).outputMergeMeta.outputRestoreIndices,
      i < (rowPlan input cpSize r).outputMergeMeta.globalPaddedTokenCount := by
  intro i hi
  rw [rowPlan_restore] at hi
  obtain ⟨o, ho, rfl⟩ := mem_map.mp hi
  have hb := ownersFrom_bounds hcp _ _ o ho
  rw [rowPlan_globalPadded]
  calc o.1 * paddedRows cpSize input.qSeqLens + o.2
      < o.1 * paddedRows cpSize input.qSeqLens + paddedRows cpSize input.qSeqLens := by omega
    _ = (o.1 + 1) * paddedRows cpSize input.qSeqLens := by rw [Nat.succ_mul]
    _ ≤ cpSize * paddedRows cpSize input.qSeqLens := Nat.mul_le_mul_right _ hb.1

variable {α : Type u} {hidden : List α}

/-- The sharded rows of one rank: every owned row holds the global row it was scattered from. -/
theorem rowPlan_shardModelInput (zero : α)
    (hr : r < cpSize) (hhidden : hidden.length = globalTokenCount input.qSeqLens)
    (hpos : input.positionIds.length = globalTokenCount input.qSeqLens) :
    ∃ rows : List α,
      (rowPlan input cpSize r).shardModelInput zero hidden input.positionIds =
        some (rows, (rowPlan input cpSize r).inputShardMeta.localPositionIds) ∧
      rows.length = paddedRows cpSize input.qSeqLens ∧
      ∀ g d, (rowPlan input cpSize r).Owns g d → rows[d]? = hidden[g]? := by
  rcases Nat.eq_zero_or_pos (globalTokenCount input.qSeqLens) with hzero | hsome
  · have hpadded := paddedRows_eq_zero cpSize hzero
    refine ⟨[], ?_, by simp [hpadded], ?_⟩
    · unfold CpRowPlan.shardModelInput
      rw [if_neg (by simp [rowPlan]), if_pos (by rw [rowPlan_globalReal, hzero]),
        if_pos (by rw [rowPlan_localPadded, hpadded])]
    · intro g d ho
      rw [owns_rowPlan hr] at ho
      have hlt := (List.getElem?_eq_some_iff.mp ho).1
      rw [length_ownersFrom, hzero] at hlt
      exact absurd hlt (by omega)
  · have hsource := @rowPlan_source_lt input cpSize r hr
    obtain ⟨picked, hselect⟩ := Option.isSome_iff_exists.mp
      (indexSelect_isSome_iff.mpr fun g hg => hhidden ▸ hsource g hg)
    obtain ⟨hlen, hget⟩ := getElem?_of_indexSelect hselect
    have hputLen : (rowPlan input cpSize r).inputShardMeta.inputDestinationIndices.length =
        picked.length := by
      rw [← hlen, rowPlan_source, rowPlan_dest, length_map, length_map]
    have hkeys : ((rowPlan input cpSize r).inputShardMeta.inputDestinationIndices.zip picked).map
        Prod.fst = (rowPlan input cpSize r).inputShardMeta.inputDestinationIndices :=
      map_fst_zip hputLen.le
    have hput : (indexPutPairs (List.replicate (paddedRows cpSize input.qSeqLens) zero)
        ((rowPlan input cpSize r).inputShardMeta.inputDestinationIndices.zip picked)).isSome := by
      refine indexPutPairs_isSome fun w hw => ?_
      rw [length_replicate, ← rowPlan_localPadded input cpSize r]
      exact rowPlan_dest_lt r _ (hkeys ▸ mem_map_of_mem hw)
    obtain ⟨rows, hrows⟩ := Option.isSome_iff_exists.mp hput
    refine ⟨rows, ?_, ?_, ?_⟩
    · unfold CpRowPlan.shardModelInput
      rw [if_neg (by simp [rowPlan]), if_neg (by rw [rowPlan_globalReal]; omega),
        if_neg (by rw [rowPlan_globalReal, hhidden]; simp),
        if_neg (by rw [rowPlan_globalReal, hpos]; simp), hselect]
      simp only [Option.bind_eq_bind, Option.bind_some, indexPut, if_pos hputLen,
        rowPlan_localPadded, hrows]
      rfl
    · rw [length_of_indexPutPairs hrows, length_replicate]
    · rintro g d ⟨i, hs, hd⟩
      have hi := hlen ▸ (List.getElem?_eq_some_iff.mp hs).1
      have hpick := List.getElem?_eq_getElem hi
      rw [hget i g _ hs hpick]
      refine getElem?_indexPutPairs_of_mem hrows ?_
        (mem_iff_getElem?.mpr ⟨i, List.getElem?_zip_eq_some.mpr ⟨hd, hpick⟩⟩)
      rw [hkeys, rowPlan_dest]
      exact nodup_pairsFrom_dest ..

/-- Reading the gathered rows at the restore indices gives back the global matrix. -/
theorem rowPlan_mergeModelOutput (hcp : 0 < cpSize)
    (hhidden : hidden.length = globalTokenCount input.qSeqLens) {localHidden : Nat → List α}
    (hlen : ∀ r < cpSize, (localHidden r).length = paddedRows cpSize input.qSeqLens)
    (hrow : ∀ r < cpSize, ∀ g d, (rowPlan input cpSize r).Owns g d →
      (localHidden r)[d]? = hidden[g]?) (hr : r < cpSize) :
    (rowPlan input cpSize r).mergeModelOutput (localHidden r)
      ((List.range cpSize).map localHidden).flatten = some hidden := by
  have hread : ∀ (g : Nat) (o : Nat × Nat), (ownersFrom cpSize 0 input.qSeqLens)[g]? = some o →
      ((List.range cpSize).map localHidden).flatten[
        o.1 * paddedRows cpSize input.qSeqLens + o.2]? = hidden[g]? := by
    intro g o ho
    have hb := ownersFrom_bounds hcp _ _ _ (mem_of_getElem? ho)
    rw [getElem?_flatten_of_length (by omega)]
    · rw [List.getElem?_map, List.getElem?_range hb.1]
      exact hrow _ hb.1 g _ ((owns_rowPlan hb.1).mpr ho)
    · intro xs hxs
      obtain ⟨r', hr', rfl⟩ := mem_map.mp hxs
      exact hlen r' (mem_range.mp hr')
  unfold CpRowPlan.mergeModelOutput
  rw [if_neg (by simp [rowPlan]), if_neg (by rw [rowPlan_localPadded, hlen r hr]; simp),
    rowPlan_restore]
  refine indexSelect_eq_of_getElem? (by simp [hhidden]) fun g hg => ?_
  have hg' : g < (ownersFrom cpSize 0 input.qSeqLens).length := by
    rw [length_ownersFrom, ← hhidden]; exact hg
  have ho := List.getElem?_eq_getElem hg'
  refine ⟨_, ?_, hread g _ ho⟩
  rw [List.getElem?_map, ho]
  rfl

theorem rowPlan_lossless (zero : α) (hcp : 0 < cpSize)
    (hpositions : input.positionIds.length = globalTokenCount input.qSeqLens)
    (hhidden : hidden.length = globalTokenCount input.qSeqLens) :
    Lossless cpSize input.qSeqLens input.positionIds zero hidden (rowPlan input cpSize) := by
  constructor
  case samePadding =>
    intro r _ r' _
    simp only [rowPlan_localPadded, rowPlan_paddedLens, and_self]
  case owned => exact fun g hg => rowPlan_owned hcp hg
  case scatteredOnce =>
    intro r hr
    rw [rowPlan_source, rowPlan_dest]
    exact ⟨nodup_pairsFrom_source hr .., nodup_pairsFrom_dest ..⟩
  case position =>
    intro pre len suf t hlens ht r hr d ho
    exact rowPlan_position hcp hpositions hlens ht hr ho
  case inBounds =>
    intro r hr
    refine ⟨rowPlan_source_lt hr, rowPlan_dest_lt r, ?_, ?_, rowPlan_restore_lt hcp r⟩
    · rw [rowPlan_positions, rowPlan_localPadded, length_positionsFrom]
    · rw [rowPlan_globalPadded, rowPlan_localPadded]
  case merged =>
    have hshard : ∀ r, ∃ rows : List α, r < cpSize →
        (rowPlan input cpSize r).shardModelInput zero hidden input.positionIds =
            some (rows, (rowPlan input cpSize r).inputShardMeta.localPositionIds) ∧
          rows.length = paddedRows cpSize input.qSeqLens ∧
          ∀ g d, (rowPlan input cpSize r).Owns g d → rows[d]? = hidden[g]? := by
      intro r
      by_cases hr : r < cpSize
      · obtain ⟨rows, h⟩ := rowPlan_shardModelInput zero hr hhidden hpositions
        exact ⟨rows, fun _ => h⟩
      · exact ⟨[], fun h => absurd h hr⟩
    choose localHidden hrows using hshard
    refine ⟨localHidden, fun r hr => (hrows r hr).1, fun r hr => ?_⟩
    exact rowPlan_mergeModelOutput hcp hhidden (fun r hr => (hrows r hr).2.1)
      (fun r hr => (hrows r hr).2.2) hr

end Result

/-! ## What `build` returns -/

/-- The CHECKs of `build` that do not depend on the rank, and a position to read. -/
structure Buildable (input : CpPlanInput) (config : CpPlanConfig) : Prop where
  cpSize : 1 < config.cpSize
  kvSplit : 0 ≤ config.kvSplitRank ∧ config.kvSplitRank < config.kvSplitSize
  blockSize : 0 < config.blockSize
  prefixCounts : input.hasPrefixSlots → input.qSeqLens.length = input.prefixTokenCounts.length
  lens : ∀ len ∈ input.qSeqLens, 0 ≤ len
  positions : input.positionIds.length = globalTokenCount input.qSeqLens
  dvd : config.cpSize.toNat % config.kvSplitSize.toNat = 0
  tokens : input.qSeqLens = [] ∨ 0 < globalTokenCount input.qSeqLens
  tables : input.TablesFit config.blockSize.toNat config.kvSplitSize.toNat
  ep : config.EpReady

section Build

variable {config : CpPlanConfig}

theorem build_eq_ok {plan : NpuCpPlan} (h : NpuCpPlan.build input config = .ok plan) :
    plan.toCpRowPlan = rowPlan input config.cpSize.toNat config.cpRank.toNat := by
  unfold NpuCpPlan.build at h
  simp only [check_bind_eq_ok] at h
  obtain ⟨-, -, -, -, -, -, -, -, h⟩ := h
  obtain ⟨attention, -, h⟩ := bind_eq_ok.mp h
  obtain ⟨ep, -, h⟩ := bind_eq_ok.mp h
  cases h
  rfl

theorem paddedRows_pos_iff (hcp : 0 < cpSize) {lens : List Int} :
    0 < paddedRows cpSize lens ↔ 0 < globalTokenCount lens := by
  constructor
  · intro hpos
    refine Nat.pos_of_ne_zero fun hzero => ?_
    rw [paddedRows_eq_zero cpSize hzero] at hpos
    exact absurd hpos (Nat.lt_irrefl 0)
  · intro hpos
    rw [← length_ownersFrom cpSize lens 0] at hpos
    have hb := ownersFrom_bounds hcp lens 0 _ (List.getElem_mem hpos)
    omega

theorem build_isOk_iff (hr : r < config.cpSize.toNat) :
    (∃ plan, NpuCpPlan.build input { config with cpRank := r } = .ok plan) ↔
      Buildable input config := by
  have hcp : 0 < config.cpSize.toNat := Nat.zero_lt_of_lt hr
  -- the rows have positions to read where the batch has tokens
  have hlength : (rowPlan input config.cpSize.toNat r).inputShardMeta.localPositionIds.length =
      (rowPlan input config.cpSize.toNat r).inputShardMeta.localPaddedSeqLens.sum := by
    rw [rowPlan_positions, length_positionsFrom, rowPlan_paddedLens, paddedRows]
  have htokens : (rowPlan input config.cpSize.toNat r).inputShardMeta.localPaddedSeqLens = [] ∨
      0 < (rowPlan input config.cpSize.toNat r).inputShardMeta.localPaddedSeqLens.sum ↔
        input.qSeqLens = [] ∨ 0 < globalTokenCount input.qSeqLens := by
    rw [rowPlan_paddedLens, map_eq_nil_iff]
    exact or_congr_right (paddedRows_pos_iff hcp)
  have hsizes (h : input.hasPrefixSlots = true →
      input.qSeqLens.length = input.prefixTokenCounts.length) : input.hasPrefixSlots = true →
        (rowPlan input config.cpSize.toNat r).inputShardMeta.localPaddedSeqLens.length =
          input.prefixTokenCounts.length := by
    rw [rowPlan_paddedLens, length_map]
    exact h
  unfold NpuCpPlan.build
  simp only [check_bind_eq_ok, Int.toNat_natCast]
  constructor
  · rintro ⟨plan, hcpSize, -, hkv, hkvRank, hblock, hprefix, hlens, hpositions, h⟩
    obtain ⟨attention, hattention, h⟩ := bind_eq_ok.mp h
    obtain ⟨ep, hep, -⟩ := bind_eq_ok.mp h
    obtain ⟨⟨hdvd, hsome⟩, htables⟩ :=
      (buildAttentionMeta_isOk_iff hlength (hsizes hprefix)).mp ⟨attention, hattention⟩
    exact ⟨hcpSize, hkvRank, hblock, hprefix, hlens, hpositions, hdvd, htokens.mp hsome, htables,
      buildCpEpMeta_isOk_iff.mp ⟨ep, hep⟩⟩
  · intro h
    obtain ⟨attention, hattention⟩ :=
      (buildAttentionMeta_isOk_iff hlength (hsizes h.prefixCounts)).mpr
        ⟨⟨h.dvd, htokens.mpr h.tokens⟩, h.tables⟩
    obtain ⟨ep, hep⟩ := (@buildCpEpMeta_isOk_iff
      (rowPlan input config.cpSize.toNat r).inputShardMeta.localPaddedTokenCount
      { config with cpRank := r }).mpr h.ep
    refine ⟨{ rowPlan input config.cpSize.toNat r with
      attentionMeta := attention, cpEpMeta := ep }, h.cpSize, ⟨by omega, by omega⟩,
      Int.lt_of_le_of_lt h.kvSplit.1 h.kvSplit.2, h.kvSplit, h.blockSize, h.prefixCounts, h.lens,
      h.positions, ?_⟩
    rw [hattention, ok_bind, hep]
    rfl

end Build

end Xllm.Parallel
