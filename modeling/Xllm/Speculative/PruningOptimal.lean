import Xllm.Lib.Segments
import Xllm.Speculative.PruningScore

/-!
# The pruned prefix lengths are the best ones

When a token costs the same in every sequence, only the number of tokens decides the time. The sorted
candidates respect the order of the positions of a sequence, so as long as all are taken, the vector is
the one of the first candidates (`lengthsOf`), and it gains the most that this number of tokens can gain
(`expectedTokens_le`). Once a candidate is not taken, no later one is (`foldl_of_rejected`), though it
may jump over positions that were passed by: it gains at most what the rejected one would have gained
for each of its positions.
-/

namespace Xllm.Speculative

open Xllm.Lib List

/-! ## The order of the candidates -/

namespace PruneCandidate

theorem notAfter_iff {lhs rhs : PruneCandidate} :
    NotAfter lhs rhs ↔ rhs.pathProb < lhs.pathProb ∨ (lhs.pathProb = rhs.pathProb ∧
      (lhs.prefixLen < rhs.prefixLen ∨ (lhs.prefixLen = rhs.prefixLen ∧ lhs.seqId ≤ rhs.seqId))) := by
  unfold NotAfter before
  rcases lt_trichotomy lhs.pathProb rhs.pathProb with hprob | hprob | hprob
  · simp [hprob.ne', hprob, hprob.ne, not_lt.mpr hprob.le]
  · rcases lt_trichotomy lhs.prefixLen rhs.prefixLen with hlen | hlen | hlen
    · simp [hprob, hlen, hlen.ne', hlen.le]
    · simp [hprob, hlen]
    · simp [hprob, hlen, hlen.ne', hlen.ne, not_lt.mpr hlen.le]
  · simp [hprob, hprob.ne, hprob.le]

/-- The order is that of the probabilities downwards, then of the lengths and the sequences. -/
def key (c : PruneCandidate) : ℚᵒᵈ ×ₗ ℕ ×ₗ ℕ :=
  toLex (OrderDual.toDual c.pathProb, toLex (c.prefixLen, c.seqId))

theorem notAfter_key {lhs rhs : PruneCandidate} : NotAfter lhs rhs ↔ lhs.key ≤ rhs.key := by
  rw [notAfter_iff, key, key, Prod.Lex.toLex_le_toLex, Prod.Lex.toLex_le_toLex]
  rfl

instance : Std.Total NotAfter where
  total _ _ := (le_total _ _).imp notAfter_key.mpr notAfter_key.mpr

instance : IsTrans PruneCandidate NotAfter where
  trans _ _ _ hab hbc := notAfter_key.mpr ((notAfter_key.mp hab).trans (notAfter_key.mp hbc))

instance : Std.Antisymm NotAfter where
  antisymm a b hab hba := by
    have := le_antisymm (notAfter_key.mp hab) (notAfter_key.mp hba)
    cases a
    cases b
    simp_all [key]

end PruneCandidate

theorem rowCandidates_seqId {seqId : Nat} {pathProbs : List ℚ} {c : PruneCandidate}
    (h : c ∈ rowCandidates seqId pathProbs) : c.seqId = seqId := by
  obtain ⟨j, hj, rfl⟩ := mem_mapIdx.mp h
  rfl

namespace PruneInput

variable {x : PruneInput}

variable (x) in
/-- The candidates of one sequence, in the order of their positions. -/
def candidatesOf (i : Nat) : List PruneCandidate := rowCandidates i (x.pathProbs.getD i [])

variable {i : Nat}

theorem candidatesOf_eq (hx : x.Valid) (hi : i < x.batchSize) :
    x.candidatesOf i = (range x.numSpeculativeTokens).map fun j => ⟨i, j + 1, x.path i j⟩ := by
  rw [candidatesOf, rowCandidates, pathProbs_getD hx hi]
  exact ext_getElem (by simp) fun j _ _ => by simp

theorem candidatesOf_length (hx : x.Valid) (hi : i < x.batchSize) :
    (x.candidatesOf i).length = x.numSpeculativeTokens := by
  rw [candidatesOf_eq hx hi, length_map, length_range]

theorem candidatesOf_take (hx : x.Valid) (hi : i < x.batchSize) {n : Nat}
    (hn : n ≤ x.numSpeculativeTokens) :
    (x.candidatesOf i).take n = (x.candidatesOf i).filter fun c => c.prefixLen ≤ n := by
  have hpos := Nat.add_sub_cancel' hn
  rw [candidatesOf_eq hx hi, ← hpos, range_add, map_append, filter_append,
    filter_eq_self.mpr (by simp), filter_eq_nil_iff.mpr (by simp), append_nil,
    take_left' (by simp)]

theorem candidatesOf_pairwise (hx : x.Valid) (hi : i < x.batchSize) :
    (x.candidatesOf i).Pairwise PruneCandidate.NotAfter := by
  rw [candidatesOf_eq hx hi, pairwise_map]
  refine pairwise_lt_range.imp fun {j k} hjk => PruneCandidate.notAfter_iff.mpr ?_
  rcases (path_antitone hx hi hjk.le).lt_or_eq with hlt | heq
  · exact Or.inl hlt
  · exact Or.inr ⟨heq.symm, Or.inl (Nat.succ_lt_succ hjk)⟩

theorem candidates_filter (hi : i < x.batchSize) :
    x.candidates.filter (fun c => c.seqId = i) = x.candidatesOf i := by
  have hlt : i < x.pathProbs.length := by
    rw [pathProbs, length_map]
    exact hi
  have hkey : ∀ k b, ∀ c ∈ rowCandidates k b, c.seqId = 0 + k := fun k b c hc => by
    rw [rowCandidates_seqId hc, Nat.zero_add]
  have := filter_flatten_mapIdx hkey x.pathProbs i
  rw [Nat.zero_add] at this
  rw [candidates, this, candidatesOf, List.getD_eq_getElem?_getD, List.getElem?_eq_getElem hlt]
  rfl

/-- The sort leaves the candidates of a sequence in the order of their positions. -/
theorem sortedCandidates_filter (hx : x.Valid) (hi : i < x.batchSize) :
    x.sortedCandidates.filter (fun c => c.seqId = i) = x.candidatesOf i := by
  have hsorted : x.sortedCandidates.Pairwise PruneCandidate.NotAfter :=
    pairwise_insertionSort _ _
  refine List.Perm.eq_of_pairwise' (r := PruneCandidate.NotAfter) (hsorted.filter _)
    (candidatesOf_pairwise hx hi) ?_
  rw [← candidates_filter hi]
  exact (perm_insertionSort _ _).filter _

theorem sortedCandidates_pathProb :
    x.sortedCandidates.Pairwise fun b c => c.pathProb ≤ b.pathProb := by
  have hsorted : x.sortedCandidates.Pairwise PruneCandidate.NotAfter :=
    pairwise_insertionSort _ _
  refine hsorted.imp fun {b c} h => ?_
  rcases PruneCandidate.notAfter_iff.mp h with hlt | ⟨heq, -⟩
  · exact hlt.le
  · exact heq.ge

variable {c : PruneCandidate}

theorem mem_sortedCandidates (hc : c ∈ x.sortedCandidates) :
    c.seqId < x.batchSize ∧ c ∈ x.candidatesOf c.seqId := by
  have hmem : c ∈ x.candidates := (mem_insertionSort _).mp hc
  obtain ⟨row, hrow, hcrow⟩ := mem_flatten.mp hmem
  obtain ⟨i, hi, rfl⟩ := mem_mapIdx.mp hrow
  have hseq : c.seqId = i := rowCandidates_seqId hcrow
  rw [pathProbs, length_map] at hi
  subst hseq
  refine ⟨hi, ?_⟩
  rw [← candidates_filter hi]
  exact mem_filter.mpr ⟨hmem, decide_eq_true rfl⟩

theorem mem_candidatesOf (hx : x.Valid) (hi : i < x.batchSize) (hc : c ∈ x.candidatesOf i) :
    0 < c.prefixLen ∧ c.prefixLen ≤ x.numSpeculativeTokens ∧
      c.pathProb = x.path i (c.prefixLen - 1) := by
  rw [candidatesOf_eq hx hi] at hc
  obtain ⟨j, hj, rfl⟩ := mem_map.mp hc
  exact ⟨Nat.succ_pos j, mem_range.mp hj, rfl⟩

/-! ## The first candidates -/

variable (x) in
/-- The prefix lengths when these candidates are taken. -/
def lengthsOf (taken : List PruneCandidate) : List Nat :=
  (List.range x.batchSize).map fun i => (taken.filter fun c => c.seqId = i).length

variable (x) in
def totalTokens (lengths : List Nat) : Nat := ∑ i ∈ Finset.range x.batchSize, lengths.getD i 0

theorem lengthsOf_getD (taken : List PruneCandidate) (hi : i < x.batchSize) :
    (x.lengthsOf taken).getD i 0 = (taken.filter fun c => c.seqId = i).length := by
  simp [lengthsOf, hi]

theorem lengthsOf_nil : x.lengthsOf [] = List.replicate x.batchSize 0 := by
  unfold lengthsOf
  simp

section

variable {taken rest : List PruneCandidate}

variable {i : Nat}

theorem taken_filter (hx : x.Valid) (h : taken ++ rest = x.sortedCandidates)
    (hi : i < x.batchSize) :
    taken.filter (fun c => c.seqId = i) = (x.candidatesOf i).take ((x.lengthsOf taken).getD i 0) ∧
      rest.filter (fun c => c.seqId = i) = (x.candidatesOf i).drop ((x.lengthsOf taken).getD i 0) := by
  have hall := sortedCandidates_filter hx hi
  rw [← h, filter_append] at hall
  rw [lengthsOf_getD taken hi, ← hall]
  exact ⟨(take_left' rfl).symm, (drop_left' rfl).symm⟩

theorem lengthsOf_le (hx : x.Valid) (h : taken ++ rest = x.sortedCandidates)
    (hi : i < x.batchSize) : (x.lengthsOf taken).getD i 0 ≤ x.numSpeculativeTokens := by
  have hall := sortedCandidates_filter hx hi
  have hlen := congrArg List.length hall
  rw [← h, filter_append, length_append, candidatesOf_length hx hi] at hlen
  rw [lengthsOf_getD taken hi]
  omega

theorem lengthsOf_prefixLengths (hx : x.Valid) (h : taken ++ rest = x.sortedCandidates) :
    x.PrefixLengths (x.lengthsOf taken) where
  length := by rw [lengthsOf, length_map, length_range]
  le n hn := by
    obtain ⟨i, hi, rfl⟩ := mem_map.mp hn
    have hi' := mem_range.mp hi
    rw [← lengthsOf_getD taken hi']
    exact lengthsOf_le hx h hi'

variable {c : PruneCandidate}

theorem next_prefixLen (hx : x.Valid)
    (h : taken ++ c :: rest = x.sortedCandidates) (hseq : c.seqId < x.batchSize) :
    c.prefixLen = (x.lengthsOf taken).getD c.seqId 0 + 1 := by
  have hdrop := (taken_filter hx h hseq).2
  rw [filter_cons_of_pos (by simp), candidatesOf_eq hx hseq] at hdrop
  have hget := congrArg (fun l => l[0]?) hdrop
  simp only [List.getElem?_cons_zero, List.getElem?_drop, Nat.add_zero, List.getElem?_map] at hget
  obtain ⟨j, hj, hnext⟩ := Option.map_eq_some_iff.mp hget.symm
  obtain ⟨_, rfl⟩ := List.getElem?_eq_some_iff.mp hj
  rw [getElem_range] at hnext
  exact (congrArg PruneCandidate.prefixLen hnext).symm

theorem lengthsOf_snoc (hx : x.Valid)
    (h : taken ++ c :: rest = x.sortedCandidates) (hseq : c.seqId < x.batchSize) :
    x.lengthsOf (taken ++ [c]) = (x.lengthsOf taken).set c.seqId c.prefixLen := by
  have hnext := next_prefixLen hx h hseq
  rw [lengthsOf_getD taken hseq] at hnext
  refine ext_getElem (by simp [lengthsOf]) fun i hi _ => ?_
  by_cases hc : c.seqId = i
  · subst hc
    simp [lengthsOf, hnext]
  · simp [lengthsOf, hc]

theorem candidatesOf_gain (hx : x.Valid) {n : Nat} (hi : i < x.batchSize)
    (hn : n ≤ x.numSpeculativeTokens) :
    (((x.candidatesOf i).take n).map PruneCandidate.pathProb).sum =
      ∑ j ∈ Finset.range n, x.path i j := by
  rw [candidatesOf_eq hx hi, ← map_take, map_map, take_range, min_eq_left hn]
  rfl

theorem selection_gain (hx : x.Valid) {l : List PruneCandidate} {lengths : List Nat}
    (hl : ∀ c ∈ l, c.seqId < x.batchSize) (hlengths : x.PrefixLengths lengths)
    (h : ∀ i < x.batchSize,
      l.filter (fun c => c.seqId = i) = (x.candidatesOf i).take (lengths.getD i 0)) :
    (l.map PruneCandidate.pathProb).sum = x.expectedTokens lengths ∧
      l.length = x.totalTokens lengths := by
  constructor
  · rw [← sum_classes hl PruneCandidate.pathProb]
    refine Finset.sum_congr rfl fun i hi => ?_
    rw [h i (Finset.mem_range.mp hi),
      candidatesOf_gain hx (Finset.mem_range.mp hi) (hlengths.getD_le i)]
  · have hone : (l.map fun _ => 1).sum = l.length := by simp
    rw [← hone, ← sum_classes hl fun _ => 1]
    refine Finset.sum_congr rfl fun i hi => ?_
    rw [h i (Finset.mem_range.mp hi), map_const', sum_replicate, length_take,
      candidatesOf_length hx (Finset.mem_range.mp hi), min_eq_left (hlengths.getD_le i)]
    simp

theorem taken_gain (hx : x.Valid) (h : taken ++ rest = x.sortedCandidates) :
    (taken.map PruneCandidate.pathProb).sum = x.expectedTokens (x.lengthsOf taken) ∧
      taken.length = x.totalTokens (x.lengthsOf taken) :=
  selection_gain hx
    (fun _ hc => (mem_sortedCandidates (h ▸ mem_append_left rest hc)).1)
    (lengthsOf_prefixLengths hx h) fun _ hi => (taken_filter hx h hi).1

end

variable {lengths : List Nat}

/-- No vector gains more than as many of the first candidates. -/
theorem expectedTokens_le (hx : x.Valid) (h : x.PrefixLengths lengths) :
    x.totalTokens lengths ≤ x.sortedCandidates.length ∧ x.expectedTokens lengths ≤
      x.expectedTokens (x.lengthsOf (x.sortedCandidates.take (x.totalTokens lengths))) := by
  have hselected : ∀ i < x.batchSize,
      (x.sortedCandidates.filter fun c => c.prefixLen ≤ lengths.getD c.seqId 0).filter
        (fun c => c.seqId = i) = (x.candidatesOf i).take (lengths.getD i 0) := by
    intro i hi
    rw [candidatesOf_take hx hi (h.getD_le i), filter_filter, ← sortedCandidates_filter hx hi,
      filter_filter]
    refine filter_congr fun c _ => ?_
    by_cases hc : c.seqId = i
    · simp [hc]
    · simp [hc]
  obtain ⟨hgain, hlength⟩ := selection_gain hx
    (fun c hc => (mem_sortedCandidates (mem_of_mem_filter hc)).1) h hselected
  have hsub : (x.sortedCandidates.filter fun c =>
      c.prefixLen ≤ lengths.getD c.seqId 0).Sublist x.sortedCandidates := filter_sublist
  have hbest := sum_sublist_le_sum_take hsub sortedCandidates_pathProb
  rw [hgain, hlength, (taken_gain hx (take_append_drop _ x.sortedCandidates)).1] at hbest
  exact ⟨hlength ▸ hsub.length_le, hbest⟩

/-! ## Uniform costs -/

section

variable (x) in
/-- The estimated time of so many draft tokens, when each costs the same. -/
def uniformTime (tokens : Nat) : ℚ :=
  max x.fullDraftTimeMs timeFloor +
    max (x.initialValidateTime + tokens * x.marginalCost 0) timeFloor

theorem score_of_uniform (hx : x.Valid) (hu : x.UniformCost) (lengths : List Nat) :
    x.score lengths =
      (x.batchSize + x.expectedTokens lengths) / x.uniformTime (x.totalTokens lengths) := by
  have hcost : ∑ i ∈ Finset.range x.batchSize, x.marginalCost i * (lengths.getD i 0 : ℚ) =
      x.totalTokens lengths * x.marginalCost 0 := by
    rw [totalTokens, Nat.cast_sum, Finset.sum_mul]
    refine Finset.sum_congr rfl fun i hi => ?_
    rw [hu i (Finset.mem_range.mp hi) 0 hx.batch, mul_comm]
  unfold score scoreOf uniformTime
  rw [validateTime_eq, hcost]

variable {n : Nat}

/-- The next candidate was rejected after so many tokens, so no vector with more tokens scores more,
as long as each of its tokens gains no more than the candidate. -/
theorem score_le_of_stopped (hx : x.Valid) (hu : x.UniformCost) {lengths lengths' : List Nat} {p : ℚ}
    (stopped : (x.batchSize + x.expectedTokens lengths + p) /
      x.uniformTime (x.totalTokens lengths + 1) ≤ x.score lengths)
    (hgain : x.expectedTokens lengths' ≤ x.expectedTokens lengths + n * p)
    (htokens : x.totalTokens lengths' = x.totalTokens lengths + n) :
    x.score lengths' ≤ x.score lengths := by
  have hcost := floored_steps_le (x.initialValidateTime +
    x.totalTokens lengths * x.marginalCost 0) timeFloor (marginalCost_nonneg hx 0) n
  rw [score_of_uniform hx hu lengths] at stopped ⊢
  rw [score_of_uniform hx hu lengths', htokens]
  have hsplit : (x.batchSize : ℚ) + x.expectedTokens lengths' =
      x.batchSize + x.expectedTokens lengths +
        (x.expectedTokens lengths' - x.expectedTokens lengths) := by ring
  rw [hsplit]
  refine ratio_le_of_stopped (n := n)
    (add_nonneg (Nat.cast_nonneg _) (expectedTokens_nonneg hx lengths)) (divisor_pos _)
    (divisor_pos _) (divisor_pos _) stopped (by linarith) ?_
  unfold uniformTime
  push_cast
  rw [add_sub_add_left_eq_sub, add_sub_add_left_eq_sub, add_mul, add_mul, one_mul, ← add_assoc,
    ← add_assoc]
  exact hcost

variable {taken rest : List PruneCandidate} {c : PruneCandidate}

/-- Candidates behind a rejected one gain no more. -/
theorem pathProb_le_of_sorted (h : taken ++ c :: rest = x.sortedCandidates) :
    ∀ d ∈ c :: rest, d.pathProb ≤ c.pathProb := by
  have hsorted := sortedCandidates_pathProb (x := x)
  rw [← h] at hsorted
  intro d hd
  rcases mem_cons.mp hd with rfl | hd
  · exact le_refl _
  · exact (pairwise_cons.mp (pairwise_append.mp hsorted).2.1).1 d hd

variable {i : Nat}

/-- A later candidate jumps over positions that were passed by, and gains for each of them no more than
the rejected candidate would have gained. -/
theorem jump_gain (hx : x.Valid) (h : taken ++ c :: rest = x.sortedCandidates)
    (hi : i < x.batchSize) (hn : n ≤ x.numSpeculativeTokens)
    (hlt : (x.lengthsOf taken).getD i 0 ≤ n) :
    x.expectedTokens ((x.lengthsOf taken).set i n) ≤ x.expectedTokens (x.lengthsOf taken) +
      (n - (x.lengthsOf taken).getD i 0 : Nat) * c.pathProb := by
  have hset := expectedTokens_set (lengthsOf_prefixLengths hx h) hi n
  have hjump : ∑ j ∈ Finset.Ico ((x.lengthsOf taken).getD i 0) n, x.path i j ≤
      (n - (x.lengthsOf taken).getD i 0 : Nat) * c.pathProb := by
    rw [← Nat.card_Ico, ← nsmul_eq_mul]
    refine Finset.sum_le_card_nsmul _ _ _ fun j hj => ?_
    obtain ⟨hjl, hjn⟩ := Finset.mem_Ico.mp hj
    have hmem : (⟨i, j + 1, x.path i j⟩ : PruneCandidate) ∈ (c :: rest).filter (fun d => d.seqId = i) := by
      rw [(taken_filter hx h hi).2, candidatesOf_eq hx hi, ← map_drop, range_eq_range',
        drop_range']
      exact mem_map.mpr ⟨j, mem_range'_1.mpr (by omega), rfl⟩
    exact pathProb_le_of_sorted h _ (mem_of_mem_filter hmem)
  rw [← Finset.sum_range_add_sum_Ico _ hlt, ← add_assoc, add_right_comm] at hset
  rw [add_right_cancel hset]
  exact add_le_add (le_refl _) hjump

theorem jump_tokens (hx : x.Valid) (h : taken ++ c :: rest = x.sortedCandidates)
    (hi : i < x.batchSize) (hlt : (x.lengthsOf taken).getD i 0 ≤ n) :
    x.totalTokens ((x.lengthsOf taken).set i n) = x.totalTokens (x.lengthsOf taken) +
      (n - (x.lengthsOf taken).getD i 0) := by
  have hlength := (lengthsOf_prefixLengths hx h).length
  have := sum_set (fun _ (n : Nat) => n) (x.lengthsOf taken) 0 (hlength ▸ hi) n
  rw [hlength] at this
  unfold totalTokens
  omega

theorem next_gain (hx : x.Valid) (h : taken ++ c :: rest = x.sortedCandidates) :
    x.expectedTokens (x.lengthsOf (taken ++ [c])) =
        x.expectedTokens (x.lengthsOf taken) + c.pathProb ∧
      x.totalTokens (x.lengthsOf (taken ++ [c])) = x.totalTokens (x.lengthsOf taken) + 1 := by
  have hnext : (taken ++ [c]) ++ rest = x.sortedCandidates := by
    rw [List.append_assoc, singleton_append, h]
  obtain ⟨hgain, hlength⟩ := taken_gain hx h
  obtain ⟨hgain', hlength'⟩ := taken_gain hx hnext
  rw [← hgain, ← hgain', ← hlength, ← hlength']
  simp

theorem stopped_of_rejected (hx : x.Valid) (hu : x.UniformCost)
    (h : taken ++ c :: rest = x.sortedCandidates)
    (hrejected : x.score (x.lengthsOf (taken ++ [c])) ≤ x.score (x.lengthsOf taken)) :
    (x.batchSize + x.expectedTokens (x.lengthsOf taken) + c.pathProb) /
      x.uniformTime (x.totalTokens (x.lengthsOf taken) + 1) ≤ x.score (x.lengthsOf taken) := by
  obtain ⟨hgain, htokens⟩ := next_gain hx h
  rw [score_of_uniform hx hu (x.lengthsOf (taken ++ [c])), hgain, htokens, ← add_assoc] at hrejected
  exact hrejected

/-- More of the first candidates do not score more. -/
theorem score_take_le (hx : x.Valid) (hu : x.UniformCost) (h : taken ++ c :: rest = x.sortedCandidates)
    (hrejected : x.score (x.lengthsOf (taken ++ [c])) ≤ x.score (x.lengthsOf taken)) {m : Nat}
    (hm : taken.length ≤ m) (hle : m ≤ x.sortedCandidates.length) :
    x.score (x.lengthsOf (x.sortedCandidates.take m)) ≤ x.score (x.lengthsOf taken) := by
  obtain ⟨hgain, hlength⟩ := taken_gain hx h
  obtain ⟨hgain', hlength'⟩ := taken_gain hx (take_append_drop m x.sortedCandidates)
  rw [length_take, min_eq_left hle] at hlength'
  refine score_le_of_stopped hx hu (stopped_of_rejected hx hu h hrejected) (n := m - taken.length) ?_
    (by omega)
  have hsplit : x.sortedCandidates.take m = taken ++ (c :: rest).take (m - taken.length) := by
    rw [← h, List.take_append, take_of_length_le hm]
  have hcount : ((c :: rest).take (m - taken.length)).length = m - taken.length := by
    rw [length_take, min_eq_left]
    have := congrArg List.length h
    rw [length_append] at this
    omega
  rw [← hgain', ← hgain, hsplit, map_append, sum_append]
  refine add_le_add (le_refl _) ?_
  have hsum := sum_le_card_nsmul (((c :: rest).take (m - taken.length)).map
    PruneCandidate.pathProb) c.pathProb fun p hp => by
      obtain ⟨d, hd, rfl⟩ := mem_map.mp hp
      exact pathProb_le_of_sorted h d (mem_of_mem_take hd)
  rwa [length_map, hcount, nsmul_eq_mul] at hsum

theorem foldl_of_rejected (hx : x.Valid) (hu : x.UniformCost) (hgain : x.minGain = 0)
    (h : taken ++ c :: rest = x.sortedCandidates)
    (hrejected : x.score (x.lengthsOf (taken ++ [c])) ≤ x.score (x.lengthsOf taken)) {s : PruneState}
    (hs : x.Tracks s) (hlengths : s.prefixLengths = x.lengthsOf taken) :
    ∀ later : List PruneCandidate, (∀ d ∈ later, d ∈ rest) → later.foldl x.considerCandidate s = s := by
  intro later
  induction later with
  | nil => exact fun _ => rfl
  | cons d later ih =>
    intro hlater
    have hd : d ∈ x.sortedCandidates := by
      rw [← h]
      exact mem_append_right _ (mem_cons_of_mem _ (hlater d mem_cons_self))
    obtain ⟨hseq, hof⟩ := mem_sortedCandidates hd
    obtain ⟨-, hlen, -⟩ := mem_candidatesOf hx hseq hof
    rcases considerCandidate_cases hx hs hseq hlen with ⟨hsame, -⟩ | ⟨-, hlt, -, hraises⟩
    · rw [foldl_cons, hsame]
      exact ih fun e he => hlater e (mem_cons_of_mem _ he)
    · rw [hlengths] at hlt hraises
      rw [hgain, max_self, add_zero, mul_one] at hraises
      have hjump := score_le_of_stopped hx hu (stopped_of_rejected hx hu h hrejected)
        (jump_gain hx h hseq hlen hlt.le) (jump_tokens hx h hseq hlt.le)
      exact absurd hraises (not_lt.mpr hjump)

/-- From a state with the first candidates, each of which was worth taking, the loop ends with a vector
that no number of first candidates beats. -/
theorem foldl_optimal (hx : x.Valid) (hu : x.UniformCost) (hgain : x.minGain = 0) :
    ∀ (rest taken : List PruneCandidate) (s : PruneState), taken ++ rest = x.sortedCandidates →
      x.Tracks s → s.prefixLengths = x.lengthsOf taken →
      (∀ m ≤ taken.length,
        x.score (x.lengthsOf (x.sortedCandidates.take m)) ≤ x.score (x.lengthsOf taken)) →
      ∀ m ≤ x.sortedCandidates.length, x.score (x.lengthsOf (x.sortedCandidates.take m)) ≤
        x.score (rest.foldl x.considerCandidate s).prefixLengths := by
  intro rest
  induction rest with
  | nil =>
    intro taken s h _ hlengths hbest m hm
    rw [append_nil] at h
    rw [foldl_nil, hlengths]
    exact hbest m (h ▸ hm)
  | cons c rest ih =>
    intro taken s h hs hlengths hbest m hm
    have hc : c ∈ x.sortedCandidates := h ▸ mem_append_right _ mem_cons_self
    obtain ⟨hseq, hof⟩ := mem_sortedCandidates hc
    obtain ⟨-, hlen, -⟩ := mem_candidatesOf hx hseq hof
    have hsnoc := lengthsOf_snoc hx h hseq
    have hnext : (taken ++ [c]) ++ rest = x.sortedCandidates := by
      rw [List.append_assoc, singleton_append, h]
    rw [foldl_cons]
    rcases considerCandidate_cases hx hs hseq hlen with ⟨hsame, hwhy⟩ | ⟨htracks, -, hset, hraises⟩
    · -- Rejected: the position is the next one of its sequence, so the score did not rise.
      have hrejected : x.score (x.lengthsOf (taken ++ [c])) ≤ x.score (x.lengthsOf taken) := by
        rcases hwhy with hle | hle
        · rw [hlengths, next_prefixLen hx h hseq] at hle
          exact absurd hle (Nat.not_succ_le_self _)
        · rwa [hlengths, hgain, max_self, add_zero, mul_one, ← hsnoc] at hle
      rw [hsame, foldl_of_rejected hx hu hgain h hrejected hs hlengths rest fun _ hd => hd, hlengths]
      rcases Nat.le_total m taken.length with hmt | hmt
      · exact hbest m hmt
      · exact score_take_le hx hu h hrejected hmt hm
    · -- Taken: the first candidates with this one are better than all fewer ones.
      rw [hlengths, ← hsnoc] at hset hraises
      refine ih (taken ++ [c]) _ hnext htracks hset ?_ m hm
      rw [hgain, max_self, add_zero, mul_one] at hraises
      intro k hk
      rw [length_append, length_singleton] at hk
      rcases Nat.lt_or_eq_of_le hk with hlt | rfl
      · exact le_trans (hbest k (Nat.le_of_lt_succ hlt)) hraises.le
      · rw [← hnext, take_left' (by simp)]

end

/-! ## The result -/

theorem greedyState_optimal (hx : x.Valid) (hu : x.UniformCost) (hgain : x.minGain = 0)
    (h : x.PrefixLengths lengths) :
    x.score lengths ≤ x.score x.greedyState.prefixLengths := by
  obtain ⟨hle, hbest⟩ := expectedTokens_le hx h
  have hfirst : x.score lengths ≤
      x.score (x.lengthsOf (x.sortedCandidates.take (x.totalTokens lengths))) := by
    have htokens := (taken_gain hx
      (take_append_drop (x.totalTokens lengths) x.sortedCandidates)).2
    rw [length_take, min_eq_left hle] at htokens
    rw [score_of_uniform hx hu lengths, score_of_uniform hx hu (x.lengthsOf _), ← htokens]
    exact div_le_div_of_nonneg_right (add_le_add (le_refl _) hbest) (divisor_pos _).le
  refine le_trans hfirst (foldl_optimal hx hu hgain x.sortedCandidates [] x.initialState rfl
    Tracks.initial lengthsOf_nil.symm (fun m hm => ?_) _ hle)
  rw [Nat.le_zero.mp hm]
  exact le_refl _

end PruneInput

/-- `select_pruned_prefix_lengths` returns one length for each sequence, at most the draft tokens there
are; they are reached from no draft token at all by steps that each raise the score by more than the
factor `1 + min_gain`; and when tokens cost the same in every sequence and any gain is enough, no vector
scores more. The score is the plain ratio wherever the times are at least `timeFloor`. -/
theorem selectPrunedPrefixLengths_optimal (x : PruneInput) (hx : x.Valid) :
    ∃ lengths, selectPrunedPrefixLengths x = .ok lengths ∧ x.PrefixLengths lengths ∧
      x.score (List.replicate x.batchSize 0) ≤ x.score lengths ∧
      Relation.ReflTransGen x.Raises (List.replicate x.batchSize 0) lengths ∧
      (x.minGain = 0 → x.UniformCost →
        ∀ lengths', x.PrefixLengths lengths' → x.score lengths' ≤ x.score lengths) ∧
      ((∃ predictor ∈ x.predictor, timeFloor ≤ predictor.interceptMs) →
        timeFloor ≤ x.fullDraftTimeMs → ∀ lengths', x.score lengths' = x.ratio lengths') := by
  have hcandidates : ∀ c ∈ x.sortedCandidates,
      c.seqId < x.batchSize ∧ c.prefixLen ≤ x.numSpeculativeTokens := by
    intro c hc
    obtain ⟨hseq, hof⟩ := PruneInput.mem_sortedCandidates hc
    exact ⟨hseq, (PruneInput.mem_candidatesOf hx hseq hof).2.1⟩
  obtain ⟨htracks, hsteps⟩ := PruneInput.Tracks.initial.foldl hx hcandidates
  refine ⟨x.greedyState.prefixLengths, ?_, htracks.lengths, PruneInput.score_le_of_raises hx hsteps,
    hsteps, fun hgain hu lengths' h => PruneInput.greedyState_optimal hx hu hgain h, ?_⟩
  · unfold selectPrunedPrefixLengths
    rw [if_neg hx.batch.ne', if_neg hx.tokens.ne']
  · rintro ⟨predictor, hmem, hintercept⟩ hdraft lengths'
    exact PruneInput.score_eq_ratio hdraft (PruneInput.timeFloor_le_validateTime hx hmem hintercept _)

/-- Two sequences with two draft tokens each. -/
def twoSequences : PruneInput where
  minGain := 0
  predictor := some ⟨1, 1, 0⟩
  selectedProbs := ⟨2, [[1 / 2, 1 / 2], [9 / 10, 4 / 5]], by simp⟩
  fullDraftTimeMs := 1
  perSeqKvLens := [12, 7]

theorem twoSequences_valid : twoSequences.Valid where
  batch := by decide
  tokens := by decide
  probs := by norm_num [twoSequences]
  draftTime := by norm_num [twoSequences]
  predictor := by norm_num [twoSequences]
  kvLens := by norm_num [twoSequences]

/-- The attention prefix is free, so tokens cost the same in both sequences. -/
theorem selectPrunedPrefixLengths_optimal_two :
    ∃ lengths, selectPrunedPrefixLengths twoSequences = .ok lengths ∧
      ∀ lengths', twoSequences.PrefixLengths lengths' →
        twoSequences.ratio lengths' ≤ twoSequences.ratio lengths := by
  obtain ⟨lengths, hok, -, -, -, hbest, hratio⟩ :=
    selectPrunedPrefixLengths_optimal twoSequences twoSequences_valid
  have huniform : twoSequences.UniformCost := by
    intro i _ j _
    simp [PruneInput.marginalCost, twoSequences]
  have hplain := hratio ⟨_, rfl, by norm_num [timeFloor]⟩ (by norm_num [timeFloor, twoSequences])
  refine ⟨lengths, hok, fun lengths' h => ?_⟩
  rw [← hplain, ← hplain]
  exact hbest rfl huniform lengths' h

/-- One sequence with one draft token, which is nearly worth its cost. -/
def nearlyWorth : PruneInput where
  minGain := 0
  predictor := some ⟨1, 1, 0⟩
  selectedProbs := ⟨1, [[4999999 / 10000000]], by simp⟩
  fullDraftTimeMs := 0
  perSeqKvLens := []

theorem nearlyWorth_valid : nearlyWorth.Valid where
  batch := by decide
  tokens := by decide
  probs := by norm_num [nearlyWorth]
  draftTime := le_refl 0
  predictor := by norm_num [nearlyWorth]
  kvLens := by simp [nearlyWorth]

/-- The lower bound of the draft time makes the token look worth its cost, and the plain ratio falls. -/
theorem floored_time_lowers_ratio :
    nearlyWorth.Valid ∧ selectPrunedPrefixLengths nearlyWorth = .ok [1] ∧
      nearlyWorth.ratio [1] < nearlyWorth.ratio [0] := by
  have hclamp : ∀ p : ℚ, 0 ≤ p ∧ p ≤ 1 → clampProb p = p := fun p => clampProb_eq
  refine ⟨nearlyWorth_valid, ?_, ?_⟩
  · norm_num [selectPrunedPrefixLengths, PruneInput.batchSize, PruneInput.numSpeculativeTokens,
      PruneInput.greedyState, PruneInput.sortedCandidates, PruneInput.candidates,
      PruneInput.pathProbs, pathProbsFrom, rowCandidates, PruneInput.considerCandidate,
      PruneInput.candidateExpectedAccepted, PruneInput.candidateValidateTimeRaw,
      PruneInput.initialState, PruneInput.initialValidateTime, PruneInput.scoreOf,
      PruneInput.kvLen, timeFloor, nearlyWorth, hclamp]
  · norm_num [PruneInput.ratio, PruneInput.expectedTokens, PruneInput.validateTime,
      PruneInput.path, PruneInput.batchSize, PruneInput.kvLen, nearlyWorth]

end Xllm.Speculative
