import Xllm.Lib.RatioGreedy
import Xllm.Lib.Tally
import Xllm.Speculative.AdaptivePruning

/-!
# What a vector of prefix lengths is worth

The loop over the candidates keeps running sums. `Tracks` says that they are what the vector of prefix
lengths is worth (`expectedTokens`, `validateTime`, `score`), so that every candidate taken is a step
from one vector to a better one (`Raises`), and the result is at least as good as no draft token at all.
-/

namespace Xllm.Speculative

open Xllm.Lib List

/-! ## Path probabilities -/

theorem clampProb_eq {p : ℚ} (h : 0 ≤ p ∧ p ≤ 1) : clampProb p = p := by
  unfold clampProb
  rw [max_eq_left h.1, min_eq_left h.2]

variable {row : List ℚ}

theorem clampProb_row (h : ∀ p ∈ row, 0 ≤ p ∧ p ≤ 1) : row.map clampProb = row := by
  have : ∀ p ∈ row, clampProb p = id p := fun p hp => clampProb_eq (h p hp)
  rw [map_congr_left this, map_id]

theorem pathProbsFrom_eq (h : ∀ p ∈ row, 0 ≤ p ∧ p ≤ 1) {p : ℚ} (hp : 0 ≤ p ∧ p ≤ 1) :
    pathProbsFrom p row = (range row.length).map fun j => p * (row.take (j + 1)).prod := by
  induction row generalizing p with
  | nil => rfl
  | cons q row ih =>
    have hq := h q mem_cons_self
    have hpq : 0 ≤ p * q ∧ p * q ≤ 1 :=
      ⟨mul_nonneg hp.1 hq.1, mul_le_one₀ hp.2 hq.1 hq.2⟩
    rw [pathProbsFrom, clampProb_eq hpq, ih (fun r hr => h r (mem_cons_of_mem _ hr)) hpq,
      length_cons, range_succ_eq_map, map_cons, map_map]
    simp [mul_assoc, Function.comp_def]

theorem prod_take_nonneg (h : ∀ p ∈ row, 0 ≤ p ∧ p ≤ 1) (n : Nat) :
    0 ≤ (row.take n).prod :=
  prod_induction (fun q => 0 ≤ q) (fun _ _ => mul_nonneg) zero_le_one
    fun p hp => (h p (mem_of_mem_take hp)).1

theorem prod_take_antitone (h : ∀ p ∈ row, 0 ≤ p ∧ p ≤ 1) {m n : Nat} (hmn : m ≤ n) :
    (row.take n).prod ≤ (row.take m).prod := by
  induction n, hmn using Nat.le_induction with
  | base => exact le_refl _
  | succ n _ ih =>
    refine le_trans ?_ ih
    rw [take_add_one]
    cases hn : row[n]? with
    | none => simp
    | some p =>
      rw [Option.toList_some, prod_append, prod_singleton]
      exact mul_le_of_le_one_right (prod_take_nonneg h n) (h p (mem_of_getElem? hn)).2

theorem foldl_add_stretch (l : List ℚ) (e : ℚ) {m n : Nat} (hmn : m ≤ n) :
    ((l.take n).drop m).foldl (· + ·) e + (l.take m).sum = e + (l.take n).sum := by
  have hsum : ((l.take n).drop m).foldl (· + ·) e = e + ((l.take n).drop m).sum := by
    rw [sum_eq_foldl, ← @foldl_assoc ℚ (· + ·), add_zero]
  rw [hsum, ← sum_take_add_sum_drop (l.take n) m, take_take, min_eq_left hmn]
  ring

theorem sum_take_range {n N : Nat} (f : Nat → ℚ) (h : n ≤ N) :
    (((range N).map f).take n).sum = ∑ j ∈ Finset.range n, f j := by
  rw [← map_take, take_range, min_eq_left h]
  rfl

namespace PruneInput

variable (x : PruneInput)

/-! ## What a vector of prefix lengths is worth -/

/-- What the controller is promised about its arguments; the first two are its CHECKs. -/
structure Valid : Prop where
  batch : 0 < x.batchSize
  tokens : 0 < x.numSpeculativeTokens
  probs : ∀ row ∈ x.selectedProbs.rows, ∀ p ∈ row, 0 ≤ p ∧ p ≤ 1
  draftTime : 0 ≤ x.fullDraftTimeMs
  predictor : ∀ p ∈ x.predictor, 0 < p.interceptMs ∧ 0 ≤ p.queryTokenMs ∧ 0 ≤ p.queryPrefixMs
  kvLens : ∀ kv ∈ x.perSeqKvLens, 0 ≤ kv

/-- One length for each sequence, at most the draft tokens there are. -/
structure PrefixLengths (lengths : List Nat) : Prop where
  length : lengths.length = x.batchSize
  le : ∀ n ∈ lengths, n ≤ x.numSpeculativeTokens

/-- The probability that the draft tokens of a sequence up to position `j` are all accepted. -/
def path (i j : Nat) : ℚ := ((x.selectedProbs.rows.getD i []).take (j + 1)).prod

def expectedTokens (lengths : List Nat) : ℚ :=
  ∑ i ∈ Finset.range x.batchSize, ∑ j ∈ Finset.range (lengths.getD i 0), x.path i j

def validateTime (lengths : List Nat) : ℚ :=
  match x.predictor with
  | none => 1
  | some predictor =>
    predictor.interceptMs + ∑ i ∈ Finset.range x.batchSize,
      (predictor.queryTokenMs * (lengths.getD i 0 + 1) +
        predictor.queryPrefixMs * (lengths.getD i 0 + 1) * x.kvLen i)

/-- The throughput a vector is estimated at, both times taken to be at least `timeFloor`. -/
def score (lengths : List Nat) : ℚ := x.scoreOf (x.expectedTokens lengths) (x.validateTime lengths)

/-- The same without a lower bound of the times. -/
def ratio (lengths : List Nat) : ℚ :=
  (x.batchSize + x.expectedTokens lengths) / (x.fullDraftTimeMs + x.validateTime lengths)

/-- What one more draft token of a sequence costs. -/
def marginalCost (i : Nat) : ℚ :=
  match x.predictor with
  | none => 0
  | some predictor => predictor.queryTokenMs + predictor.queryPrefixMs * x.kvLen i

def UniformCost : Prop :=
  ∀ i < x.batchSize, ∀ j < x.batchSize, x.marginalCost i = x.marginalCost j

/-- One sequence gets a longer prefix, and the score rises by more than the minimal gain. -/
def Raises (lengths lengths' : List Nat) : Prop :=
  ∃ i n, i < x.batchSize ∧ lengths.getD i 0 < n ∧ n ≤ x.numSpeculativeTokens ∧
    lengths' = lengths.set i n ∧ x.score lengths * (1 + max x.minGain 0) < x.score lengths'

variable {x}

variable {i : Nat}

theorem row_mem (hi : i < x.batchSize) :
    x.selectedProbs.rows.getD i [] ∈ x.selectedProbs.rows := by
  rw [List.getD_eq_getElem?_getD, List.getElem?_eq_getElem hi]
  exact getElem_mem hi

theorem row_length (hi : i < x.batchSize) :
    (x.selectedProbs.rows.getD i []).length = x.numSpeculativeTokens :=
  x.selectedProbs.rectangular _ (row_mem hi)

theorem pathProbs_getD (hx : x.Valid) (hi : i < x.batchSize) :
    x.pathProbs.getD i [] = (range x.numSpeculativeTokens).map (x.path i) := by
  have hrow := hx.probs _ (row_mem hi)
  have hget : x.selectedProbs.rows[i]? = some (x.selectedProbs.rows.getD i []) := by
    rw [List.getD_eq_getElem?_getD, List.getElem?_eq_getElem hi, Option.getD_some]
  rw [pathProbs, List.getD_eq_getElem?_getD, List.getElem?_map, hget, Option.map_some,
    Option.getD_some, clampProb_row hrow, pathProbsFrom_eq hrow (by norm_num), row_length hi]
  exact map_congr_left fun j _ => one_mul _

theorem path_nonneg (hx : x.Valid) (hi : i < x.batchSize) (j : Nat) : 0 ≤ x.path i j :=
  prod_take_nonneg (hx.probs _ (row_mem hi)) _

theorem path_antitone (hx : x.Valid) (hi : i < x.batchSize) {j k : Nat} (hjk : j ≤ k) :
    x.path i k ≤ x.path i j :=
  prod_take_antitone (hx.probs _ (row_mem hi)) (Nat.succ_le_succ hjk)

theorem expectedTokens_nonneg (hx : x.Valid) (lengths : List Nat) : 0 ≤ x.expectedTokens lengths :=
  Finset.sum_nonneg fun _ hi =>
    Finset.sum_nonneg fun j _ => path_nonneg hx (Finset.mem_range.mp hi) j

theorem kvLen_nonneg (hx : x.Valid) (i : Nat) : 0 ≤ x.kvLen i := by
  rw [kvLen, List.getD_eq_getElem?_getD]
  cases hi : x.perSeqKvLens[i]? with
  | none => exact le_refl 0
  | some kv => exact hx.kvLens kv (mem_of_getElem? hi)

theorem marginalCost_nonneg (hx : x.Valid) (i : Nat) : 0 ≤ x.marginalCost i := by
  unfold marginalCost
  cases hp : x.predictor with
  | none => exact le_refl 0
  | some predictor =>
    obtain ⟨-, htoken, hprefix⟩ := hx.predictor predictor hp
    exact add_nonneg htoken (mul_nonneg hprefix (kvLen_nonneg hx i))

theorem foldl_add_range (f : Nat → ℚ) (e : ℚ) (n : Nat) :
    (List.range n).foldl (fun time i => time + f i) e = e + ∑ i ∈ Finset.range n, f i := by
  induction n with
  | zero => simp
  | succ n ih =>
    rw [range_succ, foldl_append, ih, Finset.sum_range_succ, ← add_assoc]
    rfl

/-- The validate time grows by the marginal cost of every draft token. -/
theorem validateTime_eq (lengths : List Nat) :
    x.validateTime lengths = x.initialValidateTime +
      ∑ i ∈ Finset.range x.batchSize, x.marginalCost i * lengths.getD i 0 := by
  unfold validateTime initialValidateTime marginalCost
  cases x.predictor with
  | none => simp
  | some predictor =>
    simp only
    rw [foldl_add_range, add_assoc, ← Finset.sum_add_distrib]
    congr 1
    refine Finset.sum_congr rfl fun i _ => ?_
    ring

theorem getD_replicate_zero (n i : Nat) : (List.replicate n 0).getD i 0 = 0 := by
  rw [List.getD_eq_getElem?_getD, List.getElem?_replicate]
  split <;> rfl

theorem initialValidateTime_eq : x.initialValidateTime = x.validateTime (List.replicate x.batchSize 0) := by
  rw [validateTime_eq, Finset.sum_eq_zero, add_zero]
  intro i hi
  rw [getD_replicate_zero, Nat.cast_zero, mul_zero]

theorem expectedTokens_zero : x.expectedTokens (List.replicate x.batchSize 0) = 0 := by
  refine Finset.sum_eq_zero fun i hi => ?_
  rw [getD_replicate_zero, Finset.range_zero, Finset.sum_empty]

theorem divisor_pos (vtime : ℚ) : 0 < max x.fullDraftTimeMs timeFloor + max vtime timeFloor := by
  have hfloor : (0 : ℚ) < timeFloor := by norm_num [timeFloor]
  exact add_pos (lt_max_of_lt_right hfloor) (lt_max_of_lt_right hfloor)

theorem score_nonneg (hx : x.Valid) (lengths : List Nat) : 0 ≤ x.score lengths :=
  div_nonneg (add_nonneg (Nat.cast_nonneg _) (expectedTokens_nonneg hx lengths)) (divisor_pos _).le

variable {lengths : List Nat}

/-- Where the times are at least `timeFloor`, the score is the plain ratio. -/
theorem score_eq_ratio (hdraft : timeFloor ≤ x.fullDraftTimeMs)
    (htime : timeFloor ≤ x.validateTime lengths) : x.score lengths = x.ratio lengths := by
  unfold score scoreOf ratio
  rw [max_eq_left hdraft, max_eq_left htime]

theorem timeFloor_le_validateTime (hx : x.Valid) {predictor : ValidateTimePredictor}
    (hmem : predictor ∈ x.predictor) (h : timeFloor ≤ predictor.interceptMs) (lengths : List Nat) :
    timeFloor ≤ x.validateTime lengths := by
  obtain ⟨-, htoken, hprefix⟩ := hx.predictor predictor hmem
  unfold validateTime
  rw [Option.mem_def.mp hmem]
  refine le_trans h (le_add_of_nonneg_right (Finset.sum_nonneg fun i _ => ?_))
  have hlen : (0 : ℚ) ≤ lengths.getD i 0 + 1 := add_nonneg (Nat.cast_nonneg _) zero_le_one
  exact add_nonneg (mul_nonneg htoken hlen)
    (mul_nonneg (mul_nonneg hprefix hlen) (kvLen_nonneg hx i))

/-! ## Changing one length -/

theorem PrefixLengths.set (h : x.PrefixLengths lengths) {n : Nat}
    (hn : n ≤ x.numSpeculativeTokens) : x.PrefixLengths (lengths.set i n) where
  length := by rw [length_set, h.length]
  le m hm := by
    rcases mem_or_eq_of_mem_set hm with hm | rfl
    · exact h.le m hm
    · exact hn

theorem PrefixLengths.getD_le (h : x.PrefixLengths lengths) (i : Nat) :
    lengths.getD i 0 ≤ x.numSpeculativeTokens := by
  rw [List.getD_eq_getElem?_getD]
  cases hi : lengths[i]? with
  | none => exact Nat.zero_le _
  | some n => exact h.le n (mem_of_getElem? hi)

theorem expectedTokens_set (h : x.PrefixLengths lengths) (hi : i < x.batchSize) (n : Nat) :
    x.expectedTokens (lengths.set i n) + ∑ j ∈ Finset.range (lengths.getD i 0), x.path i j =
      x.expectedTokens lengths + ∑ j ∈ Finset.range n, x.path i j := by
  have := sum_set (fun i n => ∑ j ∈ Finset.range n, x.path i j) lengths 0 (h.length ▸ hi) n
  rwa [h.length] at this

theorem validateTime_set (h : x.PrefixLengths lengths) (hi : i < x.batchSize) (n : Nat) :
    x.validateTime (lengths.set i n) + x.marginalCost i * lengths.getD i 0 =
      x.validateTime lengths + x.marginalCost i * n := by
  have := sum_set (fun i (n : Nat) => x.marginalCost i * n) lengths 0 (h.length ▸ hi) n
  rw [h.length] at this
  rw [validateTime_eq, validateTime_eq, add_assoc, this, add_assoc]

/-! ## The loop -/

variable (x) in
/-- The running sums are what the vector is worth. -/
structure Tracks (s : PruneState) : Prop where
  lengths : x.PrefixLengths s.prefixLengths
  expected : s.expectedAccepted = x.expectedTokens s.prefixLengths
  time : s.validateTimeRaw = x.validateTime s.prefixLengths
  score : s.currentScore = x.score s.prefixLengths

theorem Tracks.initial : x.Tracks x.initialState where
  lengths := ⟨length_replicate, fun n hn => by
    rw [eq_of_mem_replicate hn]; exact Nat.zero_le _⟩
  expected := expectedTokens_zero.symm
  time := initialValidateTime_eq
  score := by
    unfold PruneInput.score
    rw [initialState, expectedTokens_zero, ← initialValidateTime_eq]

variable {s : PruneState} {c : PruneCandidate}

theorem candidateExpectedAccepted_eq (hx : x.Valid) (h : x.Tracks s)
    (hseq : c.seqId < x.batchSize) (hlen : c.prefixLen ≤ x.numSpeculativeTokens)
    (hlt : s.prefixLengths.getD c.seqId 0 < c.prefixLen) :
    x.candidateExpectedAccepted s c =
      x.expectedTokens (s.prefixLengths.set c.seqId c.prefixLen) := by
  have hstretch := foldl_add_stretch (x.pathProbs.getD c.seqId []) s.expectedAccepted hlt.le
  rw [pathProbs_getD hx hseq, sum_take_range _ (h.lengths.getD_le _), sum_take_range _ hlen,
    ← pathProbs_getD hx hseq, h.expected, ← expectedTokens_set h.lengths hseq] at hstretch
  unfold candidateExpectedAccepted
  rw [h.expected]
  exact add_right_cancel hstretch

theorem candidateValidateTimeRaw_eq (h : x.Tracks s)
    (hseq : c.seqId < x.batchSize) (hlt : s.prefixLengths.getD c.seqId 0 < c.prefixLen) :
    x.candidateValidateTimeRaw s c = x.validateTime (s.prefixLengths.set c.seqId c.prefixLen) := by
  have hset := validateTime_set h.lengths hseq c.prefixLen
  unfold marginalCost at hset
  unfold candidateValidateTimeRaw
  rw [Nat.cast_sub hlt.le, h.time]
  cases hp : x.predictor with
  | none =>
    rw [hp] at hset
    simp only [zero_mul, add_zero] at hset
    exact hset.symm
  | some predictor =>
    rw [hp] at hset
    linarith

theorem considerCandidate_cases (hx : x.Valid) (h : x.Tracks s)
    (hseq : c.seqId < x.batchSize) (hlen : c.prefixLen ≤ x.numSpeculativeTokens) :
    (x.considerCandidate s c = s ∧ (c.prefixLen ≤ s.prefixLengths.getD c.seqId 0 ∨
      x.score (s.prefixLengths.set c.seqId c.prefixLen) ≤
        x.score s.prefixLengths * (1 + max x.minGain 0))) ∨
    (x.Tracks (x.considerCandidate s c) ∧ s.prefixLengths.getD c.seqId 0 < c.prefixLen ∧
      (x.considerCandidate s c).prefixLengths = s.prefixLengths.set c.seqId c.prefixLen ∧
      x.score s.prefixLengths * (1 + max x.minGain 0) <
        x.score (s.prefixLengths.set c.seqId c.prefixLen)) := by
  by_cases hle : c.prefixLen ≤ s.prefixLengths.getD c.seqId 0
  · refine Or.inl ⟨?_, Or.inl hle⟩
    unfold considerCandidate
    rw [if_pos hle]
  have hlt : s.prefixLengths.getD c.seqId 0 < c.prefixLen := Nat.lt_of_not_le hle
  have hscore : x.scoreOf (x.candidateExpectedAccepted s c) (x.candidateValidateTimeRaw s c) =
      x.score (s.prefixLengths.set c.seqId c.prefixLen) := by
    rw [candidateExpectedAccepted_eq hx h hseq hlen hlt, candidateValidateTimeRaw_eq h hseq hlt]
    rfl
  unfold considerCandidate
  rw [if_neg hle, hscore, h.score]
  by_cases hgain : x.score s.prefixLengths * (1 + max x.minGain 0) <
      x.score (s.prefixLengths.set c.seqId c.prefixLen)
  · rw [if_pos hgain]
    exact Or.inr ⟨⟨h.lengths.set hlen, candidateExpectedAccepted_eq hx h hseq hlen hlt,
      candidateValidateTimeRaw_eq h hseq hlt, rfl⟩, hlt, rfl, hgain⟩
  · rw [if_neg hgain]
    exact Or.inl ⟨rfl, Or.inr (not_lt.mp hgain)⟩

theorem Tracks.foldl (hx : x.Valid) {cs : List PruneCandidate}
    (hcs : ∀ c ∈ cs, c.seqId < x.batchSize ∧ c.prefixLen ≤ x.numSpeculativeTokens)
    (h : x.Tracks s) :
    x.Tracks (cs.foldl x.considerCandidate s) ∧
      Relation.ReflTransGen x.Raises s.prefixLengths
        (cs.foldl x.considerCandidate s).prefixLengths := by
  induction cs generalizing s with
  | nil => exact ⟨h, .refl⟩
  | cons c cs ih =>
    have hc := hcs c mem_cons_self
    have hrest := fun d hd => hcs d (mem_cons_of_mem _ hd)
    rw [foldl_cons]
    rcases considerCandidate_cases hx h hc.1 hc.2 with ⟨hsame, -⟩ | ⟨htracks, hlt, hset, hgain⟩
    · rw [hsame]
      exact ih hrest h
    · obtain ⟨hend, hsteps⟩ := ih hrest htracks
      refine ⟨hend, .head ?_ hsteps⟩
      rw [hset]
      exact ⟨c.seqId, c.prefixLen, hc.1, hlt, hc.2, rfl, hgain⟩

theorem score_le_of_raises (hx : x.Valid) {lengths' : List Nat}
    (h : Relation.ReflTransGen x.Raises lengths lengths') : x.score lengths ≤ x.score lengths' := by
  induction h with
  | refl => exact le_refl _
  | tail _ hstep ih =>
    obtain ⟨-, -, -, -, -, -, hgain⟩ := hstep
    have hfactor : 1 ≤ 1 + max x.minGain 0 := le_add_of_nonneg_right (le_max_right _ _)
    exact le_trans ih (le_trans (le_mul_of_one_le_right (score_nonneg hx _) hfactor) hgain.le)

end PruneInput

end Xllm.Speculative
