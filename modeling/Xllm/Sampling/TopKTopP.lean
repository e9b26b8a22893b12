import Xllm.Sampling.SamplingParameters

/-!
# The top-k and top-p filters of a batch

`apply_top_k_top_p` (`core/framework/sampling/logits_utils.cpp`) in a build without a vendor kernel.
The tensors are those of `SamplingParameters::init`, so whether a filter runs at all is up to the
whole batch. With both tensors nothing is left of the branch that would filter by both.

Logits are rational, `none` is minus infinity, and a row is kept as its logits with their tokens,
which is what `scatter_` puts back. The source filters by both tensors one after the other; without
a vendor kernel that code is reached with at most one of them.
-/

namespace Xllm.Sampling

open SamplingParameters Xllm.Request List

/-- `softmax`, by what is used of it. -/
structure Softmax where
  weights : List ℚ → List ℚ
  length_weights : ∀ row, (weights row).length = row.length
  nonneg : ∀ row, ∀ w ∈ weights row, 0 ≤ w
  sum_weights : ∀ row, row ≠ [] → (weights row).sum = 1

/-- The logits of a request. -/
structure LogitsRow where
  logits : List ℚ
  param : RequestSamplingParam ℚ
  ne_nil : logits ≠ []
  size : logits.length < 2 ^ 63
  topP_mem : 0 ≤ param.topP ∧ param.topP ≤ 1

def applyTemperatures (logits : List (List ℚ)) (temperatures : List ℚ) : List (List ℚ) :=
  zipWith (fun row t => row.map (· / if t = 0 then 1 else t)) logits temperatures

/-- `logits.sort(-1, descending)` of one row. -/
def sortDescending (row : List ℚ) : List (ℚ × Nat) :=
  row.zipIdx.insertionSort fun a b => b.1 ≤ a.1

def maskTopK (sorted : List (ℚ × Nat)) (topK : Int64) : List (Option ℚ × Nat) :=
  let processedTopK := if topK ≤ 0 then Int64.maxValue else topK
  sorted.mapIdx fun i e => (if processedTopK.toInt ≤ i then none else some e.1, e.2)

def maskTopP (softmax : Softmax) (sorted : List (ℚ × Nat)) (topP : ℚ) : List (Option ℚ × Nat) :=
  let probs := softmax.weights (sorted.map Prod.fst)
  sorted.mapIdx fun i e =>
    (if topP < (probs.take (i + 1)).sum - probs.getD i 0 then none else some e.1, e.2)

def unfiltered (row : List ℚ) : List (Option ℚ × Nat) := row.zipIdx.map fun e => (some e.1, e.2)

def applyTopKTopP (softmax : Softmax) (logits : List (List ℚ)) (temperatures : Option (List ℚ))
    (topK : Option (List Int64)) (topP : Option (List ℚ)) : List (List (Option ℚ × Nat)) :=
  let logits := (temperatures.map (applyTemperatures logits)).getD logits
  match topK, topP with
  | none, none => logits.map unfiltered
  -- the branches of the vendor kernels are not compiled
  | some _, some _ => logits.map unfiltered
  | some topK, none => zipWith (fun row => maskTopK (sortDescending row)) logits topK
  | none, some topP => zipWith (fun row => maskTopP softmax (sortDescending row)) logits topP

/-- The logits of a batch behind the filters, with the tensors that `init` makes. -/
def filterBatch (softmax : Softmax) (batch : List LogitsRow) : List (List (Option ℚ × Nat)) :=
  let params := batch.map LogitsRow.param
  applyTopKTopP softmax (batch.map LogitsRow.logits)
    (definedIf (needsTemperature params) (params.map (·.temperature)))
    (definedIf (needsTopK params) (params.map (·.topK)))
    (definedIf (needsTopP params) (params.map (·.topP)))

namespace LogitsRow

def scaled (row : LogitsRow) : List ℚ :=
  row.logits.map (· / if row.param.temperature = 0 then 1 else row.param.temperature)

/-- The tokens by their logits, the largest first. -/
def ranked (row : LogitsRow) : List (ℚ × Nat) := sortDescending row.scaled

def InTopK (row : LogitsRow) (rank : Nat) : Prop :=
  row.param.topK ≤ 0 ∨ (rank : Int) < row.param.topK.toInt

def weights (softmax : Softmax) (row : LogitsRow) : List ℚ :=
  softmax.weights (row.ranked.map Prod.fst)

/-- The weights of the top-k. -/
def topWeights (softmax : Softmax) (row : LogitsRow) : List ℚ :=
  if row.param.topK ≤ 0 then row.weights softmax
  else (row.weights softmax).take row.param.topK.toInt.toNat

def InTopP (softmax : Softmax) (row : LogitsRow) (rank : Nat) : Prop :=
  row.param.topP = 1 ∨ ((row.topWeights softmax).take rank).sum / (row.topWeights softmax).sum ≤
    row.param.topP

/-- What the request asks for: a token of the top-k, before which the others of it weigh at most
`top_p`. -/
def Kept (softmax : Softmax) (row : LogitsRow) (token : Nat) : Prop :=
  ∃ rank x, row.ranked[rank]? = some (x, token) ∧ row.InTopK rank ∧ row.InTopP softmax rank

/-- A row has been filtered as its own request asks for. -/
def Filtered (softmax : Softmax) (row : LogitsRow) (out : List (Option ℚ × Nat)) : Prop :=
  (∃ x token, (some x, token) ∈ out) ∧
    ∀ token, (∃ x, (some x, token) ∈ out) ↔ row.Kept softmax token

/-- The filters of the request let every token through. -/
def Unconstrained (softmax : Softmax) (row : LogitsRow) : Prop :=
  (row.param.topK ≤ 0 ∨ (row.logits.length : Int) ≤ row.param.topK.toInt) ∧
    (row.param.topP = 1 ∨
      ∀ rank < row.logits.length, ((row.weights softmax).take rank).sum ≤ row.param.topP)

/-- `filterBatch` on one row. -/
def filter (softmax : Softmax) (hasTopK hasTopP : Bool) (row : LogitsRow) :
    List (Option ℚ × Nat) :=
  match hasTopK, hasTopP with
  | true, false => maskTopK row.ranked row.param.topK
  | false, true => maskTopP softmax row.ranked row.param.topP
  | _, _ => unfiltered row.scaled

/-! ## Ranks -/

variable {softmax : Softmax} {row : LogitsRow} {rank token : Nat}

theorem perm_ranked (row : LogitsRow) : row.ranked.Perm row.scaled.zipIdx := perm_insertionSort _ _

theorem length_ranked (row : LogitsRow) : row.ranked.length = row.logits.length := by
  rw [row.perm_ranked.length_eq, length_zipIdx, scaled, length_map]

theorem mem_unfiltered : (∃ x, (some x, token) ∈ unfiltered row.scaled) ↔
    ∃ (rank : Nat) (x : ℚ), row.ranked[rank]? = some (x, token) := by
  constructor
  · rintro ⟨x, h⟩
    obtain ⟨e, he, heq⟩ := mem_map.mp h
    cases heq
    obtain ⟨rank, hrank⟩ := mem_iff_getElem?.mp (row.perm_ranked.mem_iff.mpr he)
    exact ⟨rank, e.1, hrank⟩
  · rintro ⟨rank, x, h⟩
    exact ⟨x, mem_map.mpr ⟨_, row.perm_ranked.mem_iff.mp (mem_of_getElem? h), rfl⟩⟩

theorem mem_masked {sorted : List (ℚ × Nat)} {masked : Nat → Prop} [DecidablePred masked] :
    (∃ x, (some x, token) ∈ sorted.mapIdx fun i e =>
      (if masked i then none else some e.1, e.2)) ↔
      ∃ (rank : Nat) (x : ℚ), sorted[rank]? = some (x, token) ∧ ¬ masked rank := by
  constructor
  · rintro ⟨x, h⟩
    obtain ⟨rank, hrank, heq⟩ := mem_mapIdx.mp h
    split at heq
    · cases heq
    · next hkept =>
      cases heq
      exact ⟨rank, _, getElem?_eq_getElem hrank, hkept⟩
  · rintro ⟨rank, x, h, hkept⟩
    obtain ⟨hrank, heq⟩ := List.getElem?_eq_some_iff.mp h
    refine ⟨x, mem_mapIdx.mpr ⟨rank, hrank, ?_⟩⟩
    rw [if_neg hkept, heq]

/-- A token has one rank. -/
theorem rank_unique {other : Nat} {x y : ℚ} (h : row.ranked[rank]? = some (x, token))
    (hother : row.ranked[other]? = some (y, token)) : rank = other := by
  have hnodup : (row.ranked.map Prod.snd).Nodup := by
    rw [(row.perm_ranked.map _).nodup_iff, zipIdx_map_snd]
    exact nodup_range'
  have hlt := (List.getElem?_eq_some_iff.mp h).1
  refine (List.getElem?_inj (by rwa [length_map]) hnodup).mp ?_
  rw [getElem?_map, getElem?_map, h, hother]
  rfl

theorem exists_rank (h : rank < row.logits.length) :
    ∃ x token, row.ranked[rank]? = some (x, token) := by
  rw [← row.length_ranked] at h
  exact ⟨_, _, getElem?_eq_getElem h⟩

theorem rank_lt {x : ℚ} (h : row.ranked[rank]? = some (x, token)) : rank < row.logits.length :=
  row.length_ranked ▸ (List.getElem?_eq_some_iff.mp h).1

/-! ## Weights -/

theorem length_weights (softmax : Softmax) (row : LogitsRow) :
    (row.weights softmax).length = row.logits.length := by
  rw [weights, softmax.length_weights, length_map, length_ranked]

theorem sum_weights (softmax : Softmax) (row : LogitsRow) : (row.weights softmax).sum = 1 := by
  refine softmax.sum_weights _ fun hnil => ?_
  have := congrArg length hnil
  rw [length_map, length_ranked] at this
  exact row.ne_nil (length_eq_zero_iff.mp this)

theorem inTopK_zero (row : LogitsRow) : row.InTopK 0 := by
  unfold InTopK
  rw [or_iff_not_imp_left, Int64.le_iff_toInt_le]
  exact fun h => by simpa using h

theorem inTopP_zero (softmax : Softmax) (row : LogitsRow) : row.InTopP softmax 0 := by
  right
  rw [take_zero, sum_nil, zero_div]
  exact row.topP_mem.1

/-- With the whole vocabulary in the top-k, the weights are those of the row. -/
theorem inTopP_of_all (h : row.param.topK ≤ 0 ∨ (row.logits.length : Int) ≤ row.param.topK.toInt) :
    row.InTopP softmax rank ↔
      row.param.topP = 1 ∨ ((row.weights softmax).take rank).sum ≤ row.param.topP := by
  have htop : row.topWeights softmax = row.weights softmax := by
    unfold topWeights
    split
    · rfl
    · refine take_of_length_le ?_
      have hall := h.resolve_left ‹_›
      rw [length_weights]
      omega
  rw [InTopP, htop, sum_weights, div_one]

theorem unconstrained_iff : row.Unconstrained softmax ↔
    ∀ rank < row.logits.length, row.InTopK rank ∧ row.InTopP softmax rank := by
  constructor
  · rintro ⟨htopK, htopP⟩ rank hrank
    refine ⟨htopK.imp_right (by omega), (inTopP_of_all htopK).mpr ?_⟩
    exact htopP.imp_right fun h => h rank hrank
  · intro h
    have hpos := length_pos_iff.mpr row.ne_nil
    have htopK : row.param.topK ≤ 0 ∨ (row.logits.length : Int) ≤ row.param.topK.toInt :=
      (h (row.logits.length - 1) (by omega)).1.imp_right (by omega)
    refine ⟨htopK, or_iff_not_imp_left.mpr fun hne rank hrank => ?_⟩
    exact ((inTopP_of_all htopK).mp (h rank hrank).2).resolve_left hne

/-! ## Filtering -/

theorem filtered_of_iff {out : List (Option ℚ × Nat)}
    (h : ∀ token, (∃ x, (some x, token) ∈ out) ↔ row.Kept softmax token) :
    row.Filtered softmax out := by
  obtain ⟨x, token, hfirst⟩ := exists_rank (length_pos_iff.mpr row.ne_nil)
  obtain ⟨y, hy⟩ := (h token).mpr ⟨0, x, hfirst, row.inTopK_zero, row.inTopP_zero softmax⟩
  exact ⟨⟨y, token, hy⟩, h⟩

theorem filtered_unfiltered_iff :
    row.Filtered softmax (unfiltered row.scaled) ↔ row.Unconstrained softmax := by
  rw [unconstrained_iff]
  constructor
  · rintro ⟨-, h⟩ rank hrank
    obtain ⟨x, token, hx⟩ := exists_rank hrank
    obtain ⟨other, y, hy, hkept⟩ := (h token).mp (mem_unfiltered.mpr ⟨rank, x, hx⟩)
    rwa [rank_unique hx hy]
  · intro h
    refine filtered_of_iff fun token => mem_unfiltered.trans ?_
    exact ⟨fun ⟨rank, x, hx⟩ => ⟨rank, x, hx, h rank (rank_lt hx)⟩,
      fun ⟨rank, x, hx, _⟩ => ⟨rank, x, hx⟩⟩

theorem filtered_maskTopK (h : row.param.topP = 1) :
    row.Filtered softmax (maskTopK row.ranked row.param.topK) := by
  refine filtered_of_iff fun token => mem_masked.trans ?_
  refine exists_congr fun rank => exists_congr fun x => and_congr_right fun hx => ?_
  have hlt := rank_lt hx
  have hsize := row.size
  rw [and_iff_left (show row.InTopP softmax rank from .inl h), InTopK]
  split
  · next hk =>
    refine iff_of_true (fun hle => ?_) (.inl hk)
    have : Int64.maxValue.toInt = 2 ^ 63 - 1 := rfl
    omega
  · next hk => rw [or_iff_right hk, not_le]

theorem filtered_maskTopP (h : row.param.topK ≤ 0) :
    row.Filtered softmax (maskTopP softmax row.ranked row.param.topP) := by
  refine filtered_of_iff fun token => mem_masked.trans ?_
  refine exists_congr fun rank => exists_congr fun x => and_congr_right fun hx => ?_
  have hlt : rank < (row.weights softmax).length := by
    rw [length_weights]
    exact rank_lt hx
  rw [and_iff_right (show row.InTopK rank from .inl h), inTopP_of_all (.inl h)]
  change ¬ row.param.topP < ((row.weights softmax).take (rank + 1)).sum -
    (row.weights softmax).getD rank 0 ↔ _
  rw [take_add_one, getElem?_eq_getElem hlt, Option.toList_some, sum_append, sum_singleton,
    getD_eq_getElem?_getD, getElem?_eq_getElem hlt, Option.getD_some, add_sub_cancel_right, not_lt]
  refine (or_iff_right_of_imp fun hone => ?_).symm
  -- the weights before a token are not more than all of them
  rw [hone, ← sum_weights softmax row]
  exact (take_sublist _ _).sum_le_sum fun w hw => softmax.nonneg _ w hw

theorem filtered_filter_iff {batch : List LogitsRow} (hrow : row ∈ batch) :
    row.Filtered softmax (row.filter softmax (needsTopK (batch.map param))
      (needsTopP (batch.map param))) ↔ (needsTopK (batch.map param) = true →
        needsTopP (batch.map param) = true → row.Unconstrained softmax) := by
  have htopK : needsTopK (batch.map param) = false → row.param.topK ≤ 0 := by
    rw [needsTopK, any_eq_false]
    exact fun h => by simpa using h _ (mem_map_of_mem hrow)
  have htopP : needsTopP (batch.map param) = false → row.param.topP = 1 := by
    rw [needsTopP, any_eq_false]
    exact fun h => by simpa using h _ (mem_map_of_mem hrow)
  unfold filter
  cases hk : needsTopK (batch.map param) with
  | true =>
    cases hp : needsTopP (batch.map param) with
    | true => simpa using filtered_unfiltered_iff
    | false => exact iff_of_true (filtered_maskTopK (htopP hp)) (fun _ => nofun)
  | false =>
    refine iff_of_true ?_ nofun
    cases hp : needsTopP (batch.map param) with
    | true => exact filtered_maskTopP (htopK hk)
    | false => exact filtered_unfiltered_iff.mpr ⟨.inl (htopK hk), .inl (htopP hp)⟩

end LogitsRow

/-! ## The batch -/

variable {softmax : Softmax} {batch : List LogitsRow}

theorem filterBatch_eq : filterBatch softmax batch = batch.map fun row =>
    row.filter softmax (needsTopK (batch.map LogitsRow.param))
      (needsTopP (batch.map LogitsRow.param)) := by
  have hscaled : ((definedIf (needsTemperature (batch.map LogitsRow.param))
      ((batch.map LogitsRow.param).map (·.temperature))).map
        (applyTemperatures (batch.map LogitsRow.logits))).getD (batch.map LogitsRow.logits) =
      batch.map LogitsRow.scaled := by
    unfold definedIf
    split
    · simp [applyTemperatures, zipWith_map, zipWith_self, LogitsRow.scaled]
    · next h =>
      refine map_congr_left fun row hrow => ?_
      have hone : (if row.param.temperature = 0 then 1 else row.param.temperature) = 1 := by
        simp only [needsTemperature, any_map, any_eq_true, not_exists, not_and, Function.comp_apply,
          decide_eq_true_eq] at h
        grind
      rw [LogitsRow.scaled, hone]
      simp
  unfold filterBatch applyTopKTopP
  dsimp only
  rw [hscaled]
  cases hk : needsTopK (batch.map LogitsRow.param) <;>
    cases hp : needsTopP (batch.map LogitsRow.param) <;>
    simp [definedIf, LogitsRow.filter, zipWith_map, zipWith_self, LogitsRow.ranked]

/-- Every row is filtered as its request asks for exactly when not both tensors are made, or no
request of the batch cuts a token. -/
theorem filterBatch_filters_iff :
    Forall₂ (LogitsRow.Filtered softmax) batch (filterBatch softmax batch) ↔
      (needsTopK (batch.map LogitsRow.param) = true →
        needsTopP (batch.map LogitsRow.param) = true →
        ∀ row ∈ batch, row.Unconstrained softmax) := by
  rw [filterBatch_eq, forall₂_map_right_iff, forall₂_same]
  exact ⟨fun h hk hp row hrow => (LogitsRow.filtered_filter_iff hrow).mp (h row hrow) hk hp,
    fun h row hrow => (LogitsRow.filtered_filter_iff hrow).mpr fun hk hp => h hk hp row hrow⟩

/-- Equal weights, as equal logits have. -/
def evenSoftmax : Softmax where
  weights row := row.map fun _ => (row.length : ℚ)⁻¹
  length_weights _ := length_map _
  nonneg row w hw := by
    obtain ⟨_, -, rfl⟩ := mem_map.mp hw
    exact inv_nonneg.mpr (Nat.cast_nonneg _)
  sum_weights row h := by
    rw [map_const', sum_replicate, nsmul_eq_mul]
    exact mul_inv_cancel₀ (Nat.cast_ne_zero.mpr (length_pos_iff.mpr h).ne')

/-- Of two equal logits the request wants one. -/
def topOneRow : LogitsRow where
  logits := [0, 0]
  param := { frequencyPenalty := 0, presencePenalty := 0, repetitionPenalty := 1, temperature := 0
             topP := 2⁻¹, topK := 1 }
  ne_nil := by decide
  size := by decide
  topP_mem := by decide +kernel

/-- A request with a top-k and a top-p gets neither. -/
theorem not_filterBatch_filters : ¬ Forall₂ (LogitsRow.Filtered evenSoftmax) [topOneRow]
    (filterBatch evenSoftmax [topOneRow]) := by
  rw [filterBatch_eq, forall₂_map_right_iff, forall₂_same]
  intro h
  have := ((LogitsRow.filtered_filter_iff mem_cons_self).mp (h topOneRow mem_cons_self)
    (by decide +kernel) (by decide +kernel)).1
  revert this
  decide

end Xllm.Sampling
