import Xllm.Lib.Rows
import Xllm.Speculative.Validate

/-!
# What a validated row keeps

Three columns cut the row of a sequence: the first draft token that is rejected, the first that is
invalid, and the pruned length. `expectedRow` keeps the draft tokens before all of them and one token
more. `validate` makes its edits one after the other without looking at the earlier ones, so its rows
are the expected ones exactly when the later edits lie before the earlier ones
(`keepsCleanPrefix`): a target token written behind a rejected draft token stays in the row.

Every edit is read column by column (`sampledAt`, `patchedAt`, `prunedAt`); the comparison of the edits
is then about three numbers.
-/

namespace Xllm.Speculative

open Xllm.Lib List

/-! ## Columns -/

/-- A row cut at column `r`: what it keeps, its last token, and -1. -/
def sampledAt (r : Nat) (kept : Nat → Int) (last : Int) (c : Nat) : Int :=
  if c < r then kept c else if c = r then last else -1

/-- A row cut at its first invalid draft column. -/
def patchedAt (n j : Nat) (target row : Nat → Int) (c : Nat) : Int :=
  if j < n then (if c < j then row c else if c = j then target c else -1) else row c

/-- A row cut at its pruned length. -/
def prunedAt (n p : Nat) (target row : Nat → Int) (c : Nat) : Int :=
  if c ≤ p then (if c = p ∧ p < n then target c else row c) else -1

section

variable {n r j p : Nat} {draft kept target own : Nat → Int} {last : Int}

/-- The three cuts agree with the first of them exactly when none writes behind an earlier one. -/
theorem cuts_eq_iff (hr : r ≤ n) (hj : j ≤ n) (hp : p ≤ n) (hkept : ∀ c < j, kept c = draft c)
    (htarget : ∀ c, 0 ≤ target c) (hbonus : r = n → last = own n) :
    (∀ c < n + 1, prunedAt n p target (patchedAt n j target (sampledAt r kept last)) c =
        sampledAt (min r (min j p)) draft (if r < min j p then last else own (min j p)) c) ↔
      (p < n → p ≤ r ∧ p ≤ j) ∧ (p = n → j < n → j ≤ r) ∧
        (min j p < n → target (min j p) = own (min j p)) := by
  constructor
  · intro h
    have hbehind : ∀ c ≤ n, min r (min j p) < c →
        prunedAt n p target (patchedAt n j target (sampledAt r kept last)) c = -1 := by
      intro c hc hlt
      rw [h c (by omega)]
      unfold sampledAt
      rw [if_neg (by omega), if_neg (by omega)]
    have hpruned : p < n → p ≤ r ∧ p ≤ j := by
      intro hpn
      by_contra hnot
      have hwritten := hbehind p hp (by omega)
      unfold prunedAt at hwritten
      have := htarget p
      omega
    have hpatched : p = n → j < n → j ≤ r := by
      intro hpn hjn
      by_contra hnot
      have hwritten := hbehind j hj (by omega)
      unfold prunedAt patchedAt at hwritten
      have := htarget j
      omega
    refine ⟨hpruned, hpatched, fun hm => ?_⟩
    have hlast := h (min j p) (by omega)
    have hk : min r (min j p) = min j p := by omega
    rw [hk, if_neg (by omega)] at hlast
    unfold prunedAt patchedAt sampledAt at hlast
    rw [if_neg (Nat.lt_irrefl _), if_pos rfl] at hlast
    by_cases hpn : p < n
    · rw [Nat.min_eq_right (hpruned hpn).2] at hlast ⊢
      rwa [if_pos (Nat.le_refl p), if_pos ⟨rfl, hpn⟩] at hlast
    · have hjn : j < n := by omega
      rw [Nat.min_eq_left (by omega)] at hlast ⊢
      rwa [if_pos (by omega), if_neg (by omega), if_pos hjn, if_neg (Nat.lt_irrefl j),
        if_pos rfl] at hlast
  · rintro ⟨hpruned, hpatched, hown⟩ c hc
    unfold prunedAt patchedAt sampledAt
    grind

theorem cuts_eq_iff_of_no_patch (hr : r ≤ n) (hj : j ≤ n) (hp : p ≤ n)
    (hkept : ∀ c < r, own c = draft c) (hown : ∀ c, 0 ≤ own c) :
    (∀ c < n + 1, prunedAt n p own (sampledAt r own (own r)) c =
        sampledAt (min r (min j p)) draft (if r < min j p then own r else own (min j p)) c) ↔
      (p < n → p ≤ r) ∧ min r p ≤ j := by
  constructor
  · intro h
    have hbehind : ∀ c ≤ n, min r (min j p) < c →
        prunedAt n p own (sampledAt r own (own r)) c = -1 := by
      intro c hc hlt
      rw [h c (by omega)]
      unfold sampledAt
      rw [if_neg (by omega), if_neg (by omega)]
    have hpruned : p < n → p ≤ r := by
      intro hpn
      by_contra hnot
      have hwritten := hbehind p hp (by omega)
      unfold prunedAt at hwritten
      have := hown p
      omega
    refine ⟨hpruned, ?_⟩
    by_contra hnot
    -- the column behind the invalid one is still a token of the target
    have hwritten := hbehind (j + 1) (by omega) (by omega)
    unfold prunedAt sampledAt at hwritten
    grind
  · rintro ⟨hpruned, hmin⟩ c hc
    unfold prunedAt sampledAt
    grind

end

/-! ## Rows -/

section

variable {n : Nat}

/-- A row of `n` columns, column by column. -/
theorem eq_map_getD {row : List Int} (h : row.length = n) :
    row = (List.range n).map fun c => row.getD c 0 := by
  refine ext_getElem (by rw [length_map, length_range, h]) fun c hc _ => ?_
  rw [getElem_map, getElem_range, List.getD_eq_getElem?_getD, List.getElem?_eq_getElem hc]
  rfl

theorem map_range_inj {f g : Nat → Int} :
    (List.range n).map f = (List.range n).map g ↔ ∀ c < n, f c = g c := by
  simp only [map_inj_left, mem_range]

theorem zipWith_range {α β γ : Type} (g : α → β → γ) (f : Nat → α) (h : Nat → β) :
    List.zipWith g ((List.range n).map f) ((List.range n).map h) =
      (List.range n).map fun c => g (f c) (h c) := by
  rw [zipWith_map, zipWith_self]

theorem map_range_succ {α : Type} (f : Nat → α) (n : Nat) :
    (List.range (n + 1)).map f = f 0 :: (List.range n).map (f ∘ Nat.succ) := by
  rw [range_succ_eq_map, map_cons, map_map]

theorem getD_map_range {α : Type} {c : Nat} (f : Nat → α) (default : α) (h : c < n) :
    ((List.range n).map f).getD c default = f c := by
  rw [List.getD_eq_getElem?_getD, List.getElem?_map, List.getElem?_range h]
  rfl

/-- The first draft column that fails its test. -/
def firstFailed (n : Nat) (test : Nat → Bool) : Nat :=
  ((List.range n).map test).findIdx (fun a => !a)

theorem firstFailed_le (n : Nat) (test : Nat → Bool) : firstFailed n test ≤ n := by
  have h : firstFailed n test ≤ ((List.range n).map test).length := findIdx_le_length
  rw [length_map, length_range] at h
  exact h

theorem test_of_lt_firstFailed {c : Nat} {test : Nat → Bool} (h : c < firstFailed n test) :
    test c = true := by
  have hfalse := not_of_lt_findIdx h
  simpa using hfalse

theorem test_firstFailed {test : Nat → Bool} (h : firstFailed n test < n) :
    test (firstFailed n test) = false := by
  have hlt : firstFailed n test < ((List.range n).map test).length := by
    rw [length_map, length_range]
    exact h
  have hget : (!((List.range n).map test)[firstFailed n test]) = true := findIdx_getElem
  rw [getElem_map, getElem_range, Bool.not_eq_true'] at hget
  exact hget

theorem firstFailed_succ (n : Nat) (test : Nat → Bool) :
    firstFailed (n + 1) test = if test 0 then firstFailed n (test ∘ Nat.succ) + 1 else 0 := by
  unfold firstFailed
  rw [map_range_succ, findIdx_cons]
  cases test 0 <;> rfl

theorem firstFailed_congr {test test' : Nat → Bool} (h : ∀ c < n, test c = test' c) :
    firstFailed n test = firstFailed n test' := by
  unfold firstFailed
  congr 1
  exact map_congr_left fun c hc => h c (mem_range.mp hc)

/-! ## Each edit by columns -/

/-- The tokens and the bonus token, masked behind the first failed column. -/
theorem maskOut_eq (test : Nat → Bool) {tokens kept : Nat → Int} (bonus : Int)
    (hkept : ∀ c < firstFailed n test, tokens c = kept c) :
    maskOutAfterFirstReject ((List.range n).map test) ((List.range n).map tokens ++ [bonus]) =
      (List.range (n + 1)).map (sampledAt (firstFailed n test) kept
        (if firstFailed n test < n then tokens (firstFailed n test) else bonus)) := by
  have hle := firstFailed_le n test
  have hlength : ((List.range n).map test).length = n := by
    rw [length_map, length_range]
  have hfirst : ((List.range n).map test ++ [false]).findIdx (fun a => !a) = firstFailed n test := by
    rw [findIdx_append]
    unfold firstFailed at hle ⊢
    split
    · rfl
    · rw [hlength, findIdx_singleton]
      simp only [Bool.not_false, if_true]
      omega
  have hbonus : (List.range n).map tokens ++ [bonus] =
      (List.range (n + 1)).map fun c => if c < n then tokens c else bonus := by
    rw [range_succ, map_append, map_singleton, if_neg (Nat.lt_irrefl n)]
    congr 1
    exact map_range_inj.mpr fun c hc => (if_pos hc).symm
  unfold maskOutAfterFirstReject buildAcceptedMask
  rw [hfirst, hlength, hbonus, zipWith_range]
  refine map_range_inj.mpr fun c hc => ?_
  unfold sampledAt
  simp only [decide_eq_true_eq]
  rcases Nat.lt_trichotomy c (firstFailed n test) with hlt | heq | hgt
  · rw [if_pos (Nat.le_of_lt hlt), if_pos hlt, if_pos (by omega), hkept c hlt]
  · rw [if_pos (Nat.le_of_eq heq), ← heq, if_neg (Nat.lt_irrefl c), if_pos rfl]
  · rw [if_neg (by omega), if_neg (by omega), if_neg (by omega)]

theorem greedySample_eq {draft target kept : Nat → Int} {test : Nat → Bool} (bonus : Int)
    (htest : ∀ c < n, decide (target c = draft c) = test c)
    (hkept : ∀ c < firstFailed n test, target c = kept c) :
    greedySampleFromTokenIds ((List.range n).map draft) ((List.range n).map target) bonus =
      (List.range (n + 1)).map (sampledAt (firstFailed n test) kept
        (if firstFailed n test < n then target (firstFailed n test) else bonus)) := by
  rw [← firstFailed_congr htest] at hkept ⊢
  unfold greedySampleFromTokenIds
  rw [zipWith_range]
  exact maskOut_eq _ bonus hkept

theorem finalizeRandomSample_eq (test : Nat → Bool) (recovered draft : Nat → Int) (bonus : Int) :
    finalizeRandomSample ((List.range n).map test) ((List.range n).map recovered)
        ((List.range n).map draft) bonus =
      (List.range (n + 1)).map (sampledAt (firstFailed n test) draft
        (if firstFailed n test < n then recovered (firstFailed n test) else bonus)) := by
  unfold finalizeRandomSample List.zip
  rw [zipWith_range, zipWith_range]
  rw [maskOut_eq test bonus fun c hc => if_pos (test_of_lt_firstFailed hc)]
  split
  · rename_i hlt
    rw [test_firstFailed hlt]
    rfl
  · rfl

theorem rejectionSampleKernel_eq (test : Nat → Bool) (recovered draft : Nat → Int) (bonus : Int) :
    rejectionSampleKernel bonus ((List.range n).map test) ((List.range n).map recovered)
        ((List.range n).map draft) =
      (List.range (n + 1)).map (sampledAt (firstFailed n test) draft
        (if firstFailed n test < n then recovered (firstFailed n test) else bonus)) := by
  induction n generalizing test recovered draft with
  | zero => rfl
  | succ n ih =>
    rw [map_range_succ test, map_range_succ recovered, map_range_succ draft, firstFailed_succ,
      map_range_succ (sampledAt _ _ _)]
    unfold rejectionSampleKernel
    cases htest : test 0 with
    | true =>
      rw [if_pos rfl, if_pos rfl, ih]
      congr 1
      refine map_range_inj.mpr fun c _ => ?_
      unfold sampledAt
      simp only [Function.comp_apply, Nat.succ_eq_add_one, Nat.add_lt_add_iff_right,
        Nat.add_right_cancel_iff]
    | false =>
      rw [if_neg (by decide), if_neg (by decide), length_map, length_range]
      congr 1
      exact (eq_replicate_iff.mpr ⟨by rw [length_map, length_range], fun token hmem => by
        obtain ⟨c, -, rfl⟩ := mem_map.mp hmem
        rfl⟩).symm

theorem cut_row {k : Nat} (kept : Nat → Int) (last : Int) (hk : k ≤ n) :
    (List.range k).map kept ++ last :: List.replicate (n - k) (-1) =
      (List.range (n + 1)).map (sampledAt k kept last) := by
  refine ext_getElem (by simp; omega) fun c hc _ => ?_
  rw [getElem_map, getElem_range, getElem_append]
  unfold sampledAt
  split
  · rename_i hlt
    rw [length_map, length_range] at hlt
    rw [getElem_map, getElem_range, if_pos hlt]
  · rename_i hge
    simp only [length_map, length_range] at hge ⊢
    rw [if_neg hge, getElem_cons]
    split
    · rw [if_pos (by omega)]
    · rw [getElem_replicate, if_neg (by omega)]

theorem patchInvalid_eq {flags : List UInt8} (target : List Int) (row : Nat → Int)
    (hflags : flags.length = n) :
    patchInvalid flags target ((List.range (n + 1)).map row) =
      (List.range (n + 1)).map
        (patchedAt n (flags.findIdx fun flag => flag ≠ 0) (fun c => target.getD c 0) row) := by
  unfold patchInvalid
  cases hfind : flags.findIdx? (fun flag => flag ≠ 0) with
  | none =>
    rw [List.findIdx?_eq_none_iff_findIdx_eq.mp hfind]
    refine map_range_inj.mpr fun c _ => ?_
    unfold patchedAt
    rw [if_neg (by omega)]
  | some first =>
    obtain ⟨hlt, hfirst⟩ := List.findIdx?_eq_some_iff_findIdx_eq.mp hfind
    rw [hfirst]
    refine ext_getElem (by simp; omega) fun c hc _ => ?_
    rw [getElem_map, getElem_range, getElem_append]
    unfold patchedAt
    rw [if_pos (by omega)]
    split
    · rename_i hle
      rw [length_take, length_set] at hle
      rw [getElem_take, getElem_set, getElem_map, getElem_range]
      split
      · rename_i heq
        rw [if_neg (by omega), if_pos heq.symm, heq]
      · rw [if_pos (by omega)]
    · rename_i hgt
      rw [length_take, length_set, length_map, length_range] at hgt
      rw [getElem_replicate, if_neg (by omega), if_neg (by omega)]

theorem applyPrunedPrefixLength_eq (prefixLength : Int) (target : List Int) (row : Nat → Int) :
    applyPrunedPrefixLength n prefixLength target ((List.range (n + 1)).map row) =
      (List.range (n + 1)).map
        (prunedAt n (clampPrefixLength n prefixLength) (fun c => target.getD c 0) row) := by
  refine map_range_inj.mpr fun c hc => ?_
  rw [getD_map_range _ 0 hc]
  unfold prunedAt
  simp only [decide_eq_true_eq]

end

/-! ## The three cuts of a row -/

namespace ValidateInput

variable (x : ValidateInput)

/-- The token that the target sampled for this sequence and column. -/
def ownToken (seq c : Nat) : Int :=
  if x.usesEmbeddedEagle3Draft then x.targetNextTokens.getD (c * x.batchSize + seq) 0
  else x.targetNextTokens.getD (seq * x.numValTokens + c) 0

def draftToken (seq c : Nat) : Int := (x.draftTokenIds.getD seq []).getD c 0

/-- The sequence is tested by probabilities. -/
def testsProbabilities (seq : Nat) : Bool :=
  !x.comparesTokenIds && !x.policy.allGreedySample &&
    (x.policy.allRandomSample || x.policy.doSample.getD seq false)

/-- The outcome of the test of a draft token. -/
def passesTest (draws : Draws) (seq c : Nat) : Bool :=
  if x.comparesTokenIds then decide (x.ownToken seq c = x.draftToken seq c)
  else if x.testsProbabilities seq then draws.accepted seq c
  else decide (draws.greedy seq c = (x.testedDraft seq).getD c 0)

/-- The token that takes the place of a rejected draft token. -/
def replacement (draws : Draws) (seq c : Nat) : Int :=
  if x.comparesTokenIds then x.ownToken seq c
  else if x.testsProbabilities seq then draws.recovered seq c
  else draws.greedy seq c

/-- The first rejected draft column; the number of draft tokens if there is none, also below. -/
def firstRejected (draws : Draws) (seq : Nat) : Nat :=
  firstFailed x.numSpeculativeTokens (x.passesTest draws seq)

def firstInvalid (seq : Nat) : Nat := (invalidRow x seq).findIdx (fun flag => flag ≠ 0)

def prunedLength (seq : Nat) : Nat :=
  match x.prunedPrefixLengths with
  | none => x.numSpeculativeTokens
  | some prefixLengths =>
    clampPrefixLength x.numSpeculativeTokens (prefixLengths.getD seq 0)

/-- The draft tokens before all three cuts, and one token more. -/
def expectedRow (draws : Draws) (seq : Nat) : List Int :=
  let r := x.firstRejected draws seq
  let m := min (x.firstInvalid seq) (x.prunedLength seq)
  let kept := min r m
  (x.draftTokenIds.getD seq []).take kept ++
    (if r < m then x.replacement draws seq r else x.ownToken seq m) ::
      List.replicate (x.numSpeculativeTokens - kept) (-1)

/-- No edit writes behind an earlier one, and the target's tokens are read where they are. -/
def keepsCleanPrefix (draws : Draws) (seq : Nat) : Prop :=
  let n := x.numSpeculativeTokens
  let r := x.firstRejected draws seq
  let j := x.firstInvalid seq
  let p := x.prunedLength seq
  if x.comparesTokenIds then (p < n → p ≤ r) ∧ min r p ≤ j
  else
    (p < n → p ≤ r ∧ p ≤ j) ∧ (p = n → j < n → j ≤ r) ∧
      (min j p < n → (x.targetSampledTokens seq).getD (min j p) 0 = x.ownToken seq (min j p))

end ValidateInput

/-- A non-empty run of tokens, and then -1. -/
def CleanRow (row : List Int) : Prop :=
  ∃ (tokens : List Int) (dropped : Nat), tokens ≠ [] ∧ (∀ token ∈ tokens, 0 ≤ token) ∧
    row = tokens ++ List.replicate dropped (-1)

/-! ## The target's tokens -/

section

variable {x : ValidateInput} {draws : Draws} {seq : Nat}

theorem view_row {rows cols i : Nat} (flat : List Int) (hi : i < rows) :
    (view rows cols flat).getD i [] = (List.range cols).map fun j => flat.getD (i * cols + j) 0 := by
  unfold view
  rw [getD_map_range _ _ hi]

theorem rowMajorTokens_getD (hseq : seq < x.batchSize) {c : Nat} (hc : c < x.numValTokens) :
    x.rowMajorTokens.getD (seq * x.numValTokens + c) 0 = x.ownToken seq c := by
  unfold ValidateInput.rowMajorTokens ValidateInput.ownToken
  by_cases hlayout : x.usesEmbeddedEagle3Draft = true
  · rw [if_pos hlayout, if_pos hlayout, List.getD_eq_getElem?_getD, getElem?_flatten_of_length hc]
    · unfold transpose
      rw [List.getElem?_map, List.getElem?_range hseq, Option.map_some, Option.bind_some,
        List.getElem?_map, List.getElem?_range hc, Option.map_some, Option.getD_some,
        view_row _ hc, getD_map_range _ _ hseq]
    · intro row hrow
      obtain ⟨b, -, rfl⟩ := mem_map.mp hrow
      rw [length_map, length_range]
  · rw [if_neg hlayout, if_neg hlayout]

theorem bonusTokenId_eq (hseq : seq < x.batchSize) :
    x.bonusTokenId seq = x.ownToken seq x.numSpeculativeTokens := by
  have hc : x.numSpeculativeTokens < x.numValTokens := Nat.lt_succ_self _
  rw [← rowMajorTokens_getD hseq hc]
  unfold ValidateInput.bonusTokenId
  congr 1
  unfold ValidateInput.numValTokens
  omega

theorem targetSampledTokens_eq (hseq : seq < x.batchSize) :
    x.targetSampledTokens seq = (List.range x.numValTokens).map fun c =>
      x.targetNextTokens.getD (seq * x.numValTokens + c) 0 :=
  view_row _ hseq

theorem getD_nonneg {tokens : List Int} (h : ∀ token ∈ tokens, 0 ≤ token) (i : Nat) :
    0 ≤ tokens.getD i 0 := by
  rw [List.getD_eq_getElem?_getD]
  cases hget : tokens[i]? with
  | none => exact Int.le_refl 0
  | some token => exact h token (mem_of_getElem? hget)

theorem ownToken_nonneg (h : ∀ token ∈ x.targetNextTokens, 0 ≤ token) (seq c : Nat) :
    0 ≤ x.ownToken seq c := by
  unfold ValidateInput.ownToken
  split
  · exact getD_nonneg h _
  · exact getD_nonneg h _

theorem targetSampledTokens_nonneg (h : ∀ token ∈ x.targetNextTokens, 0 ≤ token)
    (hseq : seq < x.batchSize) (c : Nat) : 0 ≤ (x.targetSampledTokens seq).getD c 0 := by
  refine getD_nonneg (fun token hmem => ?_) c
  rw [targetSampledTokens_eq hseq] at hmem
  obtain ⟨j, -, rfl⟩ := mem_map.mp hmem
  exact getD_nonneg h _

/-! ## The draft tokens that are tested -/

theorem invalidRow_length (x : ValidateInput) (seq : Nat) :
    (invalidRow x seq).length = x.numSpeculativeTokens := by
  unfold invalidRow
  rw [length_map, length_range]

theorem firstInvalid_le (x : ValidateInput) (seq : Nat) :
    x.firstInvalid seq ≤ x.numSpeculativeTokens := by
  have h : x.firstInvalid seq ≤ (invalidRow x seq).length := findIdx_le_length
  rwa [invalidRow_length] at h

theorem firstInvalid_of_nil (h : x.invalidDraft = []) (seq : Nat) :
    x.firstInvalid seq = x.numSpeculativeTokens := by
  unfold ValidateInput.firstInvalid
  rw [← invalidRow_length x seq, findIdx_eq_length]
  intro flag hmem
  obtain ⟨c, -, rfl⟩ := mem_map.mp hmem
  simp [h]

/-- The last token of a row that is cut at its first rejected token. -/
def ValidateInput.lastToken (x : ValidateInput) (draws : Draws) (seq : Nat) : Int :=
  if x.firstRejected draws seq < x.numSpeculativeTokens then
    x.replacement draws seq (x.firstRejected draws seq)
  else x.ownToken seq x.numSpeculativeTokens

variable (hseq : seq < x.batchSize)
  (hdraft : (x.draftTokenIds.getD seq []).length = x.numSpeculativeTokens)
include hseq hdraft

theorem testedDraft_length : (x.testedDraft seq).length = x.numSpeculativeTokens := by
  unfold ValidateInput.testedDraft
  split
  · exact hdraft
  · unfold validationDraft
    rw [length_zipWith, length_zip, invalidRow_length, targetSampledTokens_eq hseq, length_map,
      length_range, hdraft]
    unfold ValidateInput.numValTokens
    omega

/-- Before the first invalid column the draft tokens themselves are tested. -/
theorem testedDraft_getD {c : Nat} (hc : c < x.firstInvalid seq) :
    (x.testedDraft seq).getD c 0 = x.draftToken seq c := by
  have hcn : c < x.numSpeculativeTokens := Nat.lt_of_lt_of_le hc (firstInvalid_le x seq)
  have hlength := testedDraft_length hseq hdraft
  unfold ValidateInput.draftToken
  unfold ValidateInput.testedDraft at hlength ⊢
  dsimp only at hlength ⊢
  split
  · rfl
  · rename_i hflags
    rw [if_neg hflags] at hlength
    generalize x.draftTokenIds.getD seq [] = draft at hdraft hlength
    have hlt : c < (invalidRow x seq).length := by
      rw [invalidRow_length]
      exact hcn
    have hzero : ¬ (invalidRow x seq)[c] ≠ 0 := by simpa using not_of_lt_findIdx hc
    unfold validationDraft at hlength ⊢
    rw [List.getD_eq_getElem?_getD, List.getD_eq_getElem?_getD, List.getElem?_eq_getElem (by omega),
      List.getElem?_eq_getElem (by omega), getElem_zipWith, if_neg hzero, getElem_zip]

/-! ## The row before pruning -/

theorem sampledRow_of_comparesTokenIds (hpath : x.comparesTokenIds = true) :
    x.sampledRow draws seq = (List.range (x.numSpeculativeTokens + 1)).map
      (sampledAt (x.firstRejected draws seq) (x.ownToken seq)
        (x.ownToken seq (x.firstRejected draws seq))) := by
  have htarget : ((view x.batchSize x.numValTokens x.rowMajorTokens).getD seq []).take
      (x.numValTokens - 1) = (List.range x.numSpeculativeTokens).map (x.ownToken seq) := by
    have hcount : min (x.numValTokens - 1) x.numValTokens = x.numSpeculativeTokens := by
      unfold ValidateInput.numValTokens
      omega
    rw [view_row _ hseq, ← map_take, take_range, hcount]
    exact map_range_inj.mpr fun c hc => rowMajorTokens_getD hseq (Nat.lt_succ_of_lt hc)
  have htest : ∀ c < x.numSpeculativeTokens,
      decide (x.ownToken seq c = (x.draftTokenIds.getD seq []).getD c 0) =
        x.passesTest draws seq c := by
    intro c _
    unfold ValidateInput.passesTest
    rw [if_pos hpath]
    rfl
  unfold ValidateInput.sampledRow
  rw [if_pos hpath, htarget, eq_map_getD hdraft, greedySample_eq _ htest fun _ _ => rfl,
    bonusTokenId_eq hseq]
  have hle := firstFailed_le x.numSpeculativeTokens (x.passesTest draws seq)
  congr 2
  show _ = x.ownToken seq (firstFailed x.numSpeculativeTokens (x.passesTest draws seq))
  split
  · rfl
  · exact congrArg _ (by omega)

theorem rejectionSample_eq (hpath : ¬ x.comparesTokenIds = true) :
    rejectionSample x.policy x.useFusedKernel draws seq (x.testedDraft seq) (x.bonusTokenId seq) =
      (List.range (x.numSpeculativeTokens + 1)).map
        (sampledAt (x.firstRejected draws seq) (fun c => (x.testedDraft seq).getD c 0)
          (x.lastToken draws seq)) := by
  have htested := testedDraft_length hseq hdraft
  have hpasses : ∀ c, x.passesTest draws seq c = if x.testsProbabilities seq then
      draws.accepted seq c else decide (draws.greedy seq c = (x.testedDraft seq).getD c 0) := by
    intro c
    unfold ValidateInput.passesTest
    rw [if_neg hpath]
  unfold rejectionSample ValidateInput.lastToken ValidateInput.replacement
  rw [if_neg hpath, htested, bonusTokenId_eq hseq]
  generalize hdrafted : x.testedDraft seq = drafted at htested hpasses
  cases hrandom : x.testsProbabilities seq with
  | true =>
    rw [hrandom] at hpasses
    have hfirst : x.firstRejected draws seq =
        firstFailed x.numSpeculativeTokens (draws.accepted seq) :=
      firstFailed_congr fun c _ => hpasses c
    unfold ValidateInput.testsProbabilities at hrandom
    rw [Bool.and_eq_true, Bool.and_eq_true, Bool.or_eq_true, Bool.not_eq_true',
      Bool.not_eq_true'] at hrandom
    obtain ⟨⟨-, hgreedy⟩, hmode⟩ := hrandom
    rw [hgreedy, if_neg Bool.false_ne_true, if_pos rfl, hfirst]
    have hrandomRow : ∀ row : List Int, (if x.policy.allRandomSample = true then row else
        if x.policy.doSample.getD seq false = true then row else
          greedySampleFromTokenIds drafted ((List.range x.numSpeculativeTokens).map
            (draws.greedy seq)) (x.ownToken seq x.numSpeculativeTokens)) = row := by
      intro row
      by_cases hall : x.policy.allRandomSample = true
      · rw [if_pos hall]
      · rw [if_neg hall, if_pos (hmode.resolve_left hall)]
    rw [hrandomRow]
    have hrow := eq_map_getD htested
    split
    · exact (congrArg _ hrow).trans (rejectionSampleKernel_eq _ _ _ _)
    · exact (congrArg (finalizeRandomSample _ _ · _) hrow).trans
        (finalizeRandomSample_eq _ _ _ _)
  | false =>
    rw [hrandom] at hpasses
    unfold ValidateInput.testsProbabilities at hrandom
    rw [Bool.eq_false_iff.mpr hpath, Bool.not_false, Bool.true_and] at hrandom
    have hgreedyRow : ∀ random row : List Int, (if x.policy.allGreedySample = true then row else
        if x.policy.allRandomSample = true then random else
          if x.policy.doSample.getD seq false = true then random else row) = row := by
      intro random row
      cases hgreedy : x.policy.allGreedySample with
      | true => rfl
      | false =>
        rw [hgreedy, Bool.not_false, Bool.true_and, Bool.or_eq_false_iff] at hrandom
        rw [hrandom.1, hrandom.2]
        rfl
    rw [hgreedyRow]
    refine (congrArg (greedySampleFromTokenIds · _ _) (eq_map_getD htested)).trans ?_
    refine greedySample_eq _ (fun c _ => (hpasses c).symm) fun c hc => ?_
    -- an accepted token of the target is the draft token
    have hpass := test_of_lt_firstFailed hc
    rw [hpasses] at hpass
    exact of_decide_eq_true hpass

/-- Where probabilities are looked at, the row is cut at its first rejected column and then patched at
its first invalid one. -/
theorem sampledRow_of_probabilities (hpath : ¬ x.comparesTokenIds = true) :
    x.sampledRow draws seq = (List.range (x.numSpeculativeTokens + 1)).map
      (patchedAt x.numSpeculativeTokens (x.firstInvalid seq)
        (fun c => (x.targetSampledTokens seq).getD c 0)
        (sampledAt (x.firstRejected draws seq) (fun c => (x.testedDraft seq).getD c 0)
          (x.lastToken draws seq))) := by
  unfold ValidateInput.sampledRow
  rw [if_neg hpath]
  rw [rejectionSample_eq hseq hdraft hpath]
  by_cases hnil : x.invalidDraft = []
  · rw [if_pos hnil, firstInvalid_of_nil hnil]
    refine map_range_inj.mpr fun c _ => ?_
    unfold patchedAt
    rw [if_neg (Nat.lt_irrefl _)]
  · rw [if_neg hnil]
    exact patchInvalid_eq _ _ (invalidRow_length x seq)

omit hseq in
theorem expectedRow_eq :
    let r := x.firstRejected draws seq
    let m := min (x.firstInvalid seq) (x.prunedLength seq)
    x.expectedRow draws seq = (List.range (x.numSpeculativeTokens + 1)).map
      (sampledAt (min r m) (x.draftToken seq)
        (if r < m then x.replacement draws seq r else x.ownToken seq m)) := by
  intro r m
  have hj := firstInvalid_le x seq
  have hkept : min r m ≤ x.numSpeculativeTokens := by omega
  show (x.draftTokenIds.getD seq []).take (min r m) ++ _ :: List.replicate _ (-1) = _
  rw [eq_map_getD hdraft, ← map_take, take_range, Nat.min_eq_left hkept]
  exact cut_row _ _ hkept

omit hseq hdraft

/-! ## The rows of `validate` -/

theorem prunedLength_le (x : ValidateInput) (seq : Nat) :
    x.prunedLength seq ≤ x.numSpeculativeTokens := by
  unfold ValidateInput.prunedLength
  split
  · exact Nat.le_refl _
  · unfold clampPrefixLength
    omega

/-- Every row is its sampled row, cut at the pruned length. -/
theorem validate_rows {rows : List (List Int)} (h : validate x draws = .ok rows) :
    rows.length = x.batchSize ∧
      (∀ seq < x.batchSize, (x.draftTokenIds.getD seq []).length = x.numSpeculativeTokens) ∧
      ∀ seq < x.batchSize, ∀ row : Nat → Int,
        x.sampledRow draws seq = (List.range (x.numSpeculativeTokens + 1)).map row →
          rows.getD seq [] = (List.range (x.numSpeculativeTokens + 1)).map
            (prunedAt x.numSpeculativeTokens (x.prunedLength seq)
              (fun c => (x.targetSampledTokens seq).getD c 0) row) := by
  unfold validate at h
  split at h
  · cases h
  split at h
  · cases h
  rename_i hshape
  rw [not_or, not_not, not_not, all_eq_true] at hshape
  obtain ⟨hbatch, hrows⟩ := hshape
  have hdraft : ∀ seq < x.batchSize,
      (x.draftTokenIds.getD seq []).length = x.numSpeculativeTokens := by
    intro seq hseq
    rw [List.getD_eq_getElem?_getD, List.getElem?_eq_getElem (by omega)]
    exact decide_eq_true_eq.mp (hrows _ (getElem_mem _))
  split at h
  · cases h
  split at h
  · cases h
  cases hpruning : x.prunedPrefixLengths with
  | none =>
    rw [hpruning] at h
    cases h
    refine ⟨by rw [length_map, length_range], hdraft, fun seq hseq row hrow => ?_⟩
    have hpruned : x.prunedLength seq = x.numSpeculativeTokens := by
      unfold ValidateInput.prunedLength
      rw [hpruning]
    rw [getD_map_range _ [] hseq, hrow, hpruned]
    refine map_range_inj.mpr fun c hc => ?_
    unfold prunedAt
    rw [if_pos (by omega), if_neg (by omega)]
  | some prefixLengths =>
    rw [hpruning] at h
    dsimp only at h
    split at h
    · cases h
    cases h
    refine ⟨by rw [length_map, length_range], hdraft, fun seq hseq row hrow => ?_⟩
    have hpruned : x.prunedLength seq =
        clampPrefixLength x.numSpeculativeTokens (prefixLengths.getD seq 0) := by
      unfold ValidateInput.prunedLength
      rw [hpruning]
    rw [getD_map_range _ [] hseq, getD_map_range _ [] hseq, hrow, hpruned]
    exact applyPrunedPrefixLength_eq _ _ _

/-- The tokens of the proposal and of the target's output, and those drawn, are not negative. -/
structure NonNegativeTokens (x : ValidateInput) (draws : Draws) : Prop where
  draft : ∀ row ∈ x.draftTokenIds, ∀ token ∈ row, 0 ≤ token
  target : ∀ token ∈ x.targetNextTokens, 0 ≤ token
  recovered : ∀ seq c, 0 ≤ draws.recovered seq c
  greedy : ∀ seq c, 0 ≤ draws.greedy seq c

theorem expectedRow_clean (htokens : NonNegativeTokens x draws) :
    CleanRow (x.expectedRow draws seq) := by
  unfold ValidateInput.expectedRow
  dsimp only
  generalize hm : min (x.firstInvalid seq) (x.prunedLength seq) = m
  generalize hlast : (if x.firstRejected draws seq < m then
    x.replacement draws seq (x.firstRejected draws seq) else x.ownToken seq m) = last
  have hnonneg : 0 ≤ last := by
    rw [← hlast]
    split
    · unfold ValidateInput.replacement
      split
      · exact ownToken_nonneg htokens.target _ _
      · split
        · exact htokens.recovered _ _
        · exact htokens.greedy _ _
    · exact ownToken_nonneg htokens.target _ _
  generalize min (x.firstRejected draws seq) m = kept
  refine ⟨(x.draftTokenIds.getD seq []).take kept ++ [last], x.numSpeculativeTokens - kept,
    by simp, fun token hmem => ?_, ?_⟩
  · rcases mem_append.mp hmem with hkept | hlastToken
    · have hrow := mem_of_mem_take hkept
      rw [List.getD_eq_getElem?_getD] at hrow
      cases hget : x.draftTokenIds[seq]? with
      | none =>
        rw [hget] at hrow
        cases hrow
      | some row =>
        rw [hget] at hrow
        exact htokens.draft row (mem_of_getElem? hget) token hrow
    · rw [mem_singleton.mp hlastToken]
      exact hnonneg
  · rw [List.append_assoc]
    rfl

/-- A row of `validate` is a clean prefix with the three cuts exactly when no edit writes behind an
earlier one. -/
theorem validate_clean_prefix (x : ValidateInput) (draws : Draws) (rows : List (List Int))
    (htokens : NonNegativeTokens x draws) (h : validate x draws = .ok rows) :
    rows.length = x.batchSize ∧ ∀ seq < x.batchSize,
      (CleanRow (rows.getD seq []) ∧ rows.getD seq [] = x.expectedRow draws seq ↔
        x.keepsCleanPrefix draws seq) := by
  obtain ⟨hlength, hdraft, hrows⟩ := validate_rows h
  refine ⟨hlength, fun seq hseq => ?_⟩
  have hr : x.firstRejected draws seq ≤ x.numSpeculativeTokens := firstFailed_le _ _
  have hj := firstInvalid_le x seq
  have hp := prunedLength_le x seq
  have hclean : CleanRow (rows.getD seq []) ∧ rows.getD seq [] = x.expectedRow draws seq ↔
      rows.getD seq [] = x.expectedRow draws seq := by
    refine ⟨And.right, fun heq => ⟨?_, heq⟩⟩
    rw [heq]
    exact expectedRow_clean htokens
  rw [hclean, expectedRow_eq (hdraft seq hseq)]
  unfold ValidateInput.keepsCleanPrefix
  by_cases hpath : x.comparesTokenIds = true
  · have hlayout : ¬ x.usesEmbeddedEagle3Draft = true := by
      intro hembedded
      unfold ValidateInput.comparesTokenIds at hpath
      rw [hembedded] at hpath
      cases hpath
    have hkept : ∀ c < x.firstRejected draws seq, x.ownToken seq c = x.draftToken seq c := by
      intro c hc
      have hpass := test_of_lt_firstFailed hc
      unfold ValidateInput.passesTest at hpass
      rwa [if_pos hpath, decide_eq_true_eq] at hpass
    have hreplacement : x.replacement draws seq (x.firstRejected draws seq) =
        x.ownToken seq (x.firstRejected draws seq) := by
      unfold ValidateInput.replacement
      rw [if_pos hpath]
    rw [if_pos hpath, hreplacement,
      hrows seq hseq _ (sampledRow_of_comparesTokenIds hseq (hdraft seq hseq) hpath),
      ← cuts_eq_iff_of_no_patch hr hj hp hkept (ownToken_nonneg htokens.target seq), map_range_inj]
    refine forall₂_congr fun c hc => ?_
    have hown : (x.targetSampledTokens seq).getD c 0 = x.ownToken seq c := by
      unfold ValidateInput.ownToken
      rw [if_neg hlayout, targetSampledTokens_eq hseq]
      exact getD_map_range _ _ hc
    unfold prunedAt
    dsimp only
    rw [hown]
  · have hkept : ∀ c < x.firstInvalid seq,
        (x.testedDraft seq).getD c 0 = x.draftToken seq c :=
      fun c hc => testedDraft_getD hseq (hdraft seq hseq) hc
    have hbonus : x.firstRejected draws seq = x.numSpeculativeTokens →
        x.lastToken draws seq = x.ownToken seq x.numSpeculativeTokens := by
      intro hall
      unfold ValidateInput.lastToken
      rw [if_neg (by omega)]
    have hlast : (if x.firstRejected draws seq < min (x.firstInvalid seq) (x.prunedLength seq) then
          x.replacement draws seq (x.firstRejected draws seq)
        else x.ownToken seq (min (x.firstInvalid seq) (x.prunedLength seq))) =
        if x.firstRejected draws seq < min (x.firstInvalid seq) (x.prunedLength seq) then
          x.lastToken draws seq
        else x.ownToken seq (min (x.firstInvalid seq) (x.prunedLength seq)) := by
      split
      · unfold ValidateInput.lastToken
        rw [if_pos (by omega)]
      · rfl
    rw [if_neg hpath, hlast,
      hrows seq hseq _ (sampledRow_of_probabilities hseq (hdraft seq hseq) hpath),
      ← cuts_eq_iff hr hj hp hkept (targetSampledTokens_nonneg htokens.target hseq) hbonus,
      map_range_inj]

/-- A batch of one sequence with two draft tokens, both of them rejected, and a pruned length of one:
token ids are compared. -/
def rejectedThenPruned (prefixLength : Int) : ValidateInput where
  policy := { doSample := [false], allRandomSample := false, allGreedySample := true }
  draftTokenIds := [[5, 6]]
  draftProbs := false
  targetNextTokens := [7, 8, 9]
  logprobs := false
  numSpeculativeTokens := 2
  prunedPrefixLengths := some [prefixLength]
  invalidDraft := []
  usesEmbeddedEagle3Draft := false
  enableFusedKernel := false

def noDraws : Draws where
  accepted _ _ := false
  recovered _ _ := 0
  greedy _ _ := 0

theorem rejectedThenPruned_nonneg (prefixLength : Int) :
    NonNegativeTokens (rejectedThenPruned prefixLength) noDraws where
  draft := fun row hrow => by
    rw [mem_singleton.mp hrow]
    decide
  target := show ∀ token ∈ [(7 : Int), 8, 9], 0 ≤ token by decide
  recovered := fun _ _ => Int.le_refl 0
  greedy := fun _ _ => Int.le_refl 0

/-- The pruned length lies before the rejected column. -/
theorem validate_clean_prefix_pruned_first :
    validate (rejectedThenPruned 0) noDraws = .ok [[7, -1, -1]] ∧
      (CleanRow [7, -1, -1] ∧ [7, -1, -1] = (rejectedThenPruned 0).expectedRow noDraws 0 ↔
        (rejectedThenPruned 0).keepsCleanPrefix noDraws 0) := by
  have hok : validate (rejectedThenPruned 0) noDraws = .ok [[7, -1, -1]] := by decide +kernel
  have hclean := validate_clean_prefix (rejectedThenPruned 0) noDraws _
    (rejectedThenPruned_nonneg 0) hok
  exact ⟨hok, hclean.2 0 (by decide)⟩

/-- The first draft token is rejected, and the target's token at the pruned length stays behind it. -/
theorem pruning_resurrects_token :
    NonNegativeTokens (rejectedThenPruned 1) noDraws ∧
      validate (rejectedThenPruned 1) noDraws = .ok [[7, 8, -1]] ∧
      (rejectedThenPruned 1).firstRejected noDraws 0 = 0 ∧
      (rejectedThenPruned 1).expectedRow noDraws 0 = [7, -1, -1] :=
  ⟨rejectedThenPruned_nonneg 1, by decide +kernel, by decide +kernel, by decide +kernel⟩

end

end Xllm.Speculative
