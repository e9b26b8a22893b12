import Xllm.Request.Sequence

/-!
# Where the tokens of a sequence stand

`Layout` says what the buffer and the counters of a sequence hold when `committed` tokens were
committed behind the prompt and the placeholders `fakes` are outstanding, at most two of them. Each call
is specified by the layout it leads to.
-/

namespace Xllm.Request

open Xllm.Lib List

variable {J : Type}

/-- What the factory promises the sequences of a request whose steps overlap. -/
structure Roomy (p : SequenceParams J) (prompt : List Int) : Prop where
  overlap : p.enableScheduleOverlap = true
  maxGeneratedTokens_pos : 0 < p.stoppingChecker.maxGeneratedTokens
  maxGeneratedTokens_lt : p.stoppingChecker.maxGeneratedTokens < 2 ^ 32
  capacity : prompt.length + p.stoppingChecker.maxGeneratedTokens + 2 ≤ p.seqCapacity
  notFinished : ∃ matched, p.stoppingChecker.check prompt prompt.length = .ok (.none, matched)

structure Layout (p : SequenceParams J) (prompt committed fakes : List Int) (s : Sequence J) :
    Prop where
  length_tokens : s.tokens.length = p.seqCapacity
  tokens : ∃ rest, s.tokens = (prompt ++ committed) ++ (fakes ++ rest)
  numPromptTokens : s.numPromptTokens = prompt.length
  volatileNumPromptTokens : s.volatileNumPromptTokens = prompt.length
  numTokens : s.numTokens = prompt.length + committed.length + fakes.length
  curGeneratedTokenIdx : s.curGeneratedTokenIdx = prompt.length + committed.length
  kvStart : committed = [] → fakes = [] → s.kvState.kvCacheTokensNum = prompt.length
  kvRun : committed ≠ [] ∨ fakes ≠ [] → s.kvState.kvCacheTokensNum + 1 = s.numTokens
  kvRoom : 0 < s.kvState.currentMaxTokensCapacity
  prompt_ne : prompt ≠ []
  committed_nonneg : ∀ t ∈ committed, 0 ≤ t
  fakes_neg : ∀ f ∈ fakes, f < 0
  fakes_le : fakes.length ≤ 2

/-- No finish was found, and none is to be expected from the flags alone. -/
structure Running (s : Sequence J) : Prop where
  errorStatus : s.errorStatus = none
  finished : s.finished = false

/-- The sequence with other finish flags. -/
def Sequence.withFinish (s : Sequence J) (invalidated : Bool) (finished : Bool)
    (reason : FinishReason) (matched : Nat) : Sequence J :=
  { s with
    finishStatusInvalidated := invalidated
    finished := finished
    finishReason := reason
    matchedStopTokenCount := matched }

namespace Layout

variable {p : SequenceParams J} {prompt committed fakes : List Int} {s : Sequence J}

theorem withFinish (h : Layout p prompt committed fakes s) (invalidated finished : Bool)
    (reason : FinishReason) (matched : Nat) :
    Layout p prompt committed fakes (s.withFinish invalidated finished reason matched) :=
  { h with }

theorem validTokens (h : Layout p prompt committed fakes s) :
    s.validTokens = (prompt ++ committed) ++ fakes := by
  obtain ⟨rest, htokens⟩ := h.tokens
  have hlen : s.numTokens = ((prompt ++ committed) ++ fakes).length := by
    rw [h.numTokens, length_append, length_append]
  rw [Sequence.validTokens, htokens, ← List.append_assoc, hlen, take_left]

theorem firstFake (h : Layout p prompt committed fakes s) {f : Int} {fs : List Int}
    (hfakes : fakes = f :: fs) : s.tokens[s.curGeneratedTokenIdx]? = some f := by
  obtain ⟨rest, htokens⟩ := h.tokens
  have hcur : s.curGeneratedTokenIdx = (prompt ++ committed).length := by
    rw [h.curGeneratedTokenIdx, length_append]
  rw [htokens, hcur, List.getElem?_append_right (Nat.le_refl _), Nat.sub_self, hfakes]
  rfl

theorem promptTokens_pos (h : Layout p prompt committed fakes s) : 0 < prompt.length :=
  length_pos_iff.mpr h.prompt_ne

theorem promptTokens_le_kv (h : Layout p prompt committed fakes s) :
    prompt.length ≤ s.kvState.kvCacheTokensNum := by
  by_cases hstart : committed = [] ∧ fakes = []
  · rw [h.kvStart hstart.1 hstart.2]
  · have hrun := h.kvRun (by
      by_contra hnone
      rw [not_or, not_not, not_not] at hnone
      exact hstart hnone)
    have hpos : 0 < committed.length + fakes.length := by
      rw [← length_append, length_pos_iff]
      intro hnil
      exact hstart (append_eq_nil_iff.mp hnil)
    rw [h.numTokens] at hrun
    omega

/-! ## Appending a placeholder -/

theorem appendToken (h : Layout p prompt committed fakes s) (hrun : Running s)
    (hroom : s.numTokens < p.seqCapacity) (hfakes : fakes.length < 2) {f : Int} (hf : f < 0) :
    ∃ s', s.appendToken p f = .ok s' ∧ Layout p prompt committed (fakes ++ [f]) s' ∧ Running s' ∧
      s'.finishStatusInvalidated = true := by
  obtain ⟨rest, htokens⟩ := h.tokens
  have hlen : s.numTokens = ((prompt ++ committed) ++ fakes).length := by
    rw [h.numTokens, length_append, length_append]
  have hlength := h.length_tokens
  have hkv := h.promptTokens_le_kv
  have hpos := h.promptTokens_pos
  have hgrammar : s.tryCommitJsonObjectToken p "generated token" f = (true, s) := by
    rw [Sequence.tryCommitJsonObjectToken]
    split
    · rfl
    · rw [if_pos hf]
  have hstage : s.isChunkedPrefillStage = false := by
    rw [Sequence.isChunkedPrefillStage, h.volatileNumPromptTokens, h.numPromptTokens, Nat.max_self,
      Bool.and_eq_false_iff]
    exact Or.inl (decide_eq_false (Nat.not_lt.mpr hkv))
  -- The buffer is longer than its valid part, so something stands where the placeholder goes.
  obtain ⟨r, rest', hrest⟩ : ∃ r rest', rest = r :: rest' := by
    cases rest with
    | cons r rest' => exact ⟨r, rest', rfl⟩
    | nil =>
      rw [htokens, append_nil] at hlength
      rw [length_append, length_append] at hlength
      rw [h.numTokens] at hroom
      omega
  refine ⟨{ s with
      tokens := s.tokens.set s.numTokens f
      numTokens := s.numTokens + 1
      kvState := { s.kvState with kvCacheTokensNum := s.numTokens }
      finishStatusInvalidated := true }, ?_, ?_, ⟨hrun.errorStatus, hrun.finished⟩, rfl⟩
  · rw [Sequence.appendToken, if_neg (by omega), if_neg (by simp [hrun.errorStatus, hrun.finished]),
      if_neg (by rw [hstage]; simp; omega), hgrammar]
    simp only [Sequence.writeToken, if_pos (hlength ▸ hroom)]
    rfl
  · exact
      { length_tokens := by simpa using hlength
        tokens := ⟨rest', by
          rw [htokens, hrest, hlen, ← List.append_assoc (prompt ++ committed) fakes (r :: rest'),
            set_append_right _ _ (Nat.le_refl _), Nat.sub_self, set_cons_zero]
          simp⟩
        numPromptTokens := h.numPromptTokens
        volatileNumPromptTokens := h.volatileNumPromptTokens
        numTokens := by
          simp only [h.numTokens, length_append, length_cons, length_nil]
          omega
        curGeneratedTokenIdx := h.curGeneratedTokenIdx
        kvStart := fun _ hnil => absurd hnil (by simp)
        kvRun := fun _ => rfl
        kvRoom := h.kvRoom
        prompt_ne := h.prompt_ne
        committed_nonneg := h.committed_nonneg
        fakes_neg := fun g hg => by
          rcases mem_append.mp hg with hg | hg
          · exact h.fakes_neg g hg
          · rw [mem_singleton.mp hg]
            exact hf
        fakes_le := by
          rw [length_append, length_singleton]
          omega }

/-! ## Committing a token

The first token of a step is written over the first placeholder. Each further one has the tokens from
there on shifted by one before it is written. -/

/-- What the grammar makes of a token: it goes on, or the request has failed. -/
theorem tryCommit_cases (p : SequenceParams J) (s : Sequence J) (source : String) (t : Int) :
    (∃ state, s.tryCommitJsonObjectToken p source t = (true, { s with jsonObjectState := state })) ∨
      ∃ status, s.tryCommitJsonObjectToken p source t = (false, s.fail status) := by
  rw [Sequence.tryCommitJsonObjectToken]
  split
  · exact Or.inl ⟨s.jsonObjectState, rfl⟩
  split
  · exact Or.inl ⟨s.jsonObjectState, rfl⟩
  split
  · exact Or.inl ⟨_, rfl⟩
  · exact Or.inr ⟨_, rfl⟩

theorem withJson (h : Layout p prompt committed fakes s) (state : Option J) :
    Layout p prompt committed fakes { s with jsonObjectState := state } :=
  { h with }

theorem fail (h : Layout p prompt committed fakes s) (status : Status) :
    Layout p prompt committed fakes (s.fail status) :=
  { h with }

theorem exists_tail (h : Layout p prompt committed fakes s) (roomy : Roomy p prompt)
    (hmax : committed.length < p.stoppingChecker.maxGeneratedTokens) :
    ∃ a b c tail, s.tokens = (prompt ++ committed) ++ a :: b :: c :: tail ∧
      ∃ rest, fakes ++ rest = a :: b :: c :: tail := by
  obtain ⟨rest, htokens⟩ := h.tokens
  have hlen : 3 ≤ (fakes ++ rest).length := by
    have hlength := h.length_tokens
    have hcapacity := roomy.capacity
    rw [htokens, length_append] at hlength
    have hbase : (prompt ++ committed).length = prompt.length + committed.length :=
      length_append
    omega
  match htail : fakes ++ rest with
  | a :: b :: c :: tail => exact ⟨a, b, c, tail, by rw [htokens, htail], rest, htail⟩
  | [] => rw [htail] at hlen; exact absurd hlen (by decide)
  | [a] => rw [htail] at hlen; exact nomatch hlen
  | [a, b] => rw [htail] at hlen; exact nomatch hlen

theorem fakes_shift {fakes rest tail : List Int} {a b c : Int} (hle : fakes.length ≤ 2)
    (h : fakes ++ rest = a :: b :: c :: tail) : ∃ rest', a :: b :: tail = fakes ++ rest' := by
  match fakes with
  | [] => exact ⟨a :: b :: tail, rfl⟩
  | [f] =>
    injection h with hf hrest
    exact ⟨b :: tail, by rw [hf]; rfl⟩
  | [f, g] =>
    injection h with hf hrest
    injection hrest with hg hrest
    exact ⟨tail, by rw [hf, hg]; rfl⟩
  | _ :: _ :: _ :: _ => exact nomatch hle

theorem insertGap_eq {s : Sequence J} {base tail : List Int} {a b c : Int}
    (htokens : s.tokens = base ++ a :: b :: c :: tail) (hcur : s.curGeneratedTokenIdx = base.length)
    (hkv : s.kvState.kvCacheTokensNum + 1 ≤ s.kvState.currentMaxTokensCapacity) :
    s.insertGap = .ok
      { s with
        tokens := base ++ a :: a :: b :: tail
        numTokens := s.numTokens + 1
        kvState := { s.kvState with kvCacheTokensNum := s.kvState.kvCacheTokensNum + 1 } } := by
  have hsecond : s.tokens[base.length + 1]? = some b := by
    rw [htokens, List.getElem?_append_right (Nat.le_add_right _ _), Nat.add_sub_cancel_left]
    rfl
  have hwrite : s.tokens.set (base.length + 2) b = base ++ a :: b :: b :: tail := by
    rw [htokens, set_append_right _ _ (Nat.le_add_right _ _), Nat.add_sub_cancel_left]
    rfl
  have hlength : s.tokens.length = base.length + (tail.length + 3) := by
    rw [htokens, length_append]
    rfl
  have hfirst : (base ++ a :: b :: b :: tail)[base.length]? = some a := by
    rw [List.getElem?_append_right (Nat.le_refl _), Nat.sub_self]
    rfl
  have hlast : (base ++ a :: b :: b :: tail).set (base.length + 1) a =
      base ++ a :: a :: b :: tail := by
    rw [set_append_right _ _ (Nat.le_add_right _ _), Nat.add_sub_cancel_left]
    rfl
  rw [Sequence.insertGap, if_neg (Nat.not_lt.mpr hkv)]
  simp only [Sequence.readToken, Sequence.writeToken, hcur, hsecond, ok_bind]
  rw [if_pos (by omega)]
  simp only [ok_bind, hwrite, hfirst, hlast, length_append, length_cons]
  rw [if_pos (by omega)]

/-- A token was committed at an offset: from the second on, the sequence and its cache grow. -/
structure Taken (p : SequenceParams J) (prompt committed fakes : List Int) (numTokens kv : Nat)
    (t : Int) (offset : Nat) (s' : Sequence J) : Prop where
  layout : Layout p prompt (committed ++ [t]) (if offset = 0 then fakes.tail else fakes) s'
  running : Running s'
  invalidated : s'.finishStatusInvalidated = true
  acceptedLength : s'.acceptedLength = offset
  numTokens_eq : s'.numTokens = numTokens + (if offset = 0 then 0 else 1)
  kv_eq : s'.kvState.kvCacheTokensNum = kv + (if offset = 0 then 0 else 1)

/-- What committing a token at an offset leads to. -/
inductive Commits (p : SequenceParams J) (prompt committed fakes : List Int) (s : Sequence J)
    (t : Int) (offset : Nat) (s' : Sequence J) : Prop
  | rejected (status : Status) (eq : s' = s.fail status)
  | taken (h : Taken p prompt committed fakes s.numTokens s.kvState.kvCacheTokensNum t offset s')

theorem commit_first (h : Layout p prompt committed fakes s) (hrun : Running s) {t : Int}
    (ht : 0 ≤ t) (hfakes : fakes ≠ []) :
    ∃ s', s.writeToken s.curGeneratedTokenIdx t = .ok s' ∧
      Taken p prompt committed fakes s.numTokens s.kvState.kvCacheTokensNum t 0
        { s' with
          curGeneratedTokenIdx := s'.curGeneratedTokenIdx + 1
          acceptedLength := 0
          finishStatusInvalidated := true } := by
  obtain ⟨f, fs, rfl⟩ := exists_cons_of_ne_nil hfakes
  obtain ⟨rest, htokens⟩ := h.tokens
  have hcur : s.curGeneratedTokenIdx = (prompt ++ committed).length := by
    rw [h.curGeneratedTokenIdx, length_append]
  have hlt : s.curGeneratedTokenIdx < s.tokens.length := by
    rw [hcur, htokens]
    simp only [length_append, length_cons]
    omega
  have hkv := h.kvRun (Or.inr hfakes)
  refine ⟨{ s with tokens := s.tokens.set s.curGeneratedTokenIdx t },
    by rw [Sequence.writeToken, if_pos hlt], ?_, ⟨hrun.errorStatus, hrun.finished⟩, rfl, rfl, rfl,
    rfl⟩
  rw [if_pos rfl]
  exact
    { length_tokens := by simpa using h.length_tokens
      tokens := ⟨rest, by
        rw [htokens, hcur, set_append_right _ _ (Nat.le_refl _), Nat.sub_self]
        simp⟩
      numPromptTokens := h.numPromptTokens
      volatileNumPromptTokens := h.volatileNumPromptTokens
      numTokens := by
        simp only [h.numTokens, length_append, length_cons, length_nil,
          tail_cons]
        omega
      curGeneratedTokenIdx := by
        simp only [h.curGeneratedTokenIdx, length_append, length_singleton]
        omega
      kvStart := fun hnil => absurd hnil (by simp)
      kvRun := fun _ => hkv
      kvRoom := h.kvRoom
      prompt_ne := h.prompt_ne
      committed_nonneg := fun u hu => by
        rcases mem_append.mp hu with hu | hu
        · exact h.committed_nonneg u hu
        · rw [mem_singleton.mp hu]
          exact ht
      fakes_neg := fun g hg => h.fakes_neg g (mem_cons_of_mem _ hg)
      fakes_le := Nat.le_trans (Nat.le_succ _) h.fakes_le }

/-- A token is committed before the fake ones: the gap shifts them, and the token fills it. -/
theorem commit_more (h : Layout p prompt committed fakes s) (hrun : Running s)
    (roomy : Roomy p prompt) (hmax : committed.length < p.stoppingChecker.maxGeneratedTokens)
    {t : Int} (ht : 0 ≤ t) {offset : Nat} (hoffset : 0 < offset)
    (hany : committed ≠ [] ∨ fakes ≠ []) :
    Outcome (fun e => e = .kvCapacity)
      (fun gapped => ∃ s', gapped.writeToken gapped.curGeneratedTokenIdx t = .ok s' ∧
        Taken p prompt committed fakes s.numTokens s.kvState.kvCacheTokensNum t offset
          { s' with
            curGeneratedTokenIdx := s'.curGeneratedTokenIdx + 1
            acceptedLength := offset
            finishStatusInvalidated := true })
      s.insertGap := by
  by_cases hkv : s.kvState.kvCacheTokensNum + 1 ≤ s.kvState.currentMaxTokensCapacity
  · obtain ⟨a, b, c, tail, htokens, rest, hrest⟩ := h.exists_tail roomy hmax
    obtain ⟨rest', hrest'⟩ := fakes_shift h.fakes_le hrest
    have hcur : s.curGeneratedTokenIdx = (prompt ++ committed).length := by
      rw [h.curGeneratedTokenIdx, length_append]
    have hkvRun := h.kvRun hany
    have hne : offset ≠ 0 := Nat.ne_of_gt hoffset
    have hlength : ((prompt ++ committed) ++ a :: a :: b :: tail).length = p.seqCapacity := by
      rw [← h.length_tokens, htokens]
      simp
    rw [insertGap_eq htokens hcur hkv, Outcome.ok_iff]
    refine ⟨{ s with
        tokens := (prompt ++ committed) ++ t :: a :: b :: tail
        numTokens := s.numTokens + 1
        kvState := { s.kvState with kvCacheTokensNum := s.kvState.kvCacheTokensNum + 1 } }, ?_,
      ?_, ⟨hrun.errorStatus, hrun.finished⟩, rfl, rfl, by rw [if_neg hne], by rw [if_neg hne]⟩
    · rw [Sequence.writeToken]
      simp only [hcur]
      rw [if_pos (by simp), set_append_right _ _ (Nat.le_refl _), Nat.sub_self,
        set_cons_zero]
    · rw [if_neg hne]
      exact
        { length_tokens := by
            rw [← hlength]
            simp
          tokens := ⟨rest', by
            rw [hrest']
            simp⟩
          numPromptTokens := h.numPromptTokens
          volatileNumPromptTokens := h.volatileNumPromptTokens
          numTokens := by
            simp only [h.numTokens, length_append, length_singleton]
            omega
          curGeneratedTokenIdx := by
            simp only [h.curGeneratedTokenIdx, length_append, length_singleton]
            omega
          kvStart := fun hnil => absurd hnil (by simp)
          kvRun := fun _ => congrArg (· + 1) hkvRun
          kvRoom := h.kvRoom
          prompt_ne := h.prompt_ne
          committed_nonneg := fun u hu => by
            rcases mem_append.mp hu with hu | hu
            · exact h.committed_nonneg u hu
            · rw [mem_singleton.mp hu]
              exact ht
          fakes_neg := h.fakes_neg
          fakes_le := h.fakes_le }
  · rw [Sequence.insertGap, if_pos (by omega)]
    rfl

/-- `update_last_step_token`: the only CHECK that can fire is the one on the room of the cache. -/
theorem updateLastStepToken (h : Layout p prompt committed fakes s) (hrun : Running s)
    (roomy : Roomy p prompt) (hmax : committed.length < p.stoppingChecker.maxGeneratedTokens)
    {t : Int} (ht : 0 ≤ t) {offset : Nat} (hfirst : offset = 0 → fakes ≠ [])
    (hany : committed ≠ [] ∨ fakes ≠ []) :
    Outcome (fun e => e = .kvCapacity) (Commits p prompt committed fakes s t offset)
      (s.updateLastStepToken p t offset) := by
  have hroom : ¬ s.kvState.currentMaxTokensCapacity = 0 := Nat.ne_of_gt h.kvRoom
  rw [Sequence.updateLastStepToken, if_neg (by simp [roomy.overlap]),
    if_neg (by simp [hrun.errorStatus]), if_neg (by simp [hroom])]
  rcases tryCommit_cases p s "accepted MTP token" t with ⟨state, hgrammar⟩ | ⟨status, hgrammar⟩
  · rw [hgrammar]
    have hjson := h.withJson state
    have hrunJson : Running { s with jsonObjectState := state } := ⟨hrun.errorStatus, hrun.finished⟩
    by_cases hoffset : 0 < offset
    · simp only [if_pos hoffset]
      refine (hjson.commit_more hrunJson roomy hmax ht hoffset hany).bind fun gapped hgapped => ?_
      obtain ⟨s', hwrite, htaken⟩ := hgapped
      rw [hwrite, ok_bind, Outcome.ok_iff]
      exact .taken htaken
    · obtain rfl : offset = 0 := Nat.eq_zero_of_not_pos hoffset
      obtain ⟨s', hwrite, htaken⟩ := hjson.commit_first hrunJson ht (hfirst rfl)
      simp only [if_neg hoffset, ok_bind, hwrite]
      exact .taken htaken
  · rw [hgrammar]
    exact .rejected status rfl

end Layout

end Xllm.Request
