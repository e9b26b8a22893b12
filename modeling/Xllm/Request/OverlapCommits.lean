import Xllm.Lib.Run
import Xllm.Request.LLMRequestFactory
import Xllm.Request.SequenceLayout
import Xllm.Speculative.AcceptedRows

/-!
# Overlapped commits rebuild the sequence

Placeholders are appended when steps are scheduled and replaced when they have run, one or two steps
later. `Overlap` follows a sequence through such calls with what a reader would write down: the tokens
that were committed, and the placeholders that are outstanding. In every run the buffer is the prompt,
then the one, then the other (`overlappedCommits_rebuild`).
-/

namespace Xllm.Request

open Xllm.Lib List
open Xllm.Speculative (AcceptedBatch AcceptedRow TokenWithOffset resolveTokenWithPositionOffset)

variable {J : Type}

inductive Call
  | append (token : Int)
  | update (token : Int) (tokenOffset : Nat)
  | finished
  | allocate (tokens : Nat)
  deriving DecidableEq, Repr

/-- A sequence, what was committed to it, the placeholders that are outstanding, and the offset at
which the row that is being committed goes on. -/
structure Overlap (J : Type) where
  sequence : Sequence J
  committed : List Int := []
  fakes : List Int := []
  nextOffset : Nat := 0

namespace Overlap

/-- The sequence has failed, or was found finished. -/
def stopped (s : Sequence J) : Bool :=
  s.errorStatus.isSome || s.finished

/-- What is written down when a token was committed. A token that the grammar rejects fails the
request; it is not committed. -/
def afterCommit (o : Overlap J) (token : Int) (tokenOffset : Nat) (s : Sequence J) : Overlap J :=
  if s.errorStatus.isSome then { o with sequence := s, nextOffset := 0 }
  else
    { sequence := s
      committed := o.committed ++ [token]
      fakes := if tokenOffset = 0 then o.fakes.tail else o.fakes
      nextOffset := tokenOffset + 1 }

def step (p : SequenceParams J) (o : Overlap J) : Call → Except SequenceCheck (Overlap J)
  | .append token => do
    let s ← Batch.appendFakeToken p o.sequence token
    .ok { o with sequence := s, fakes := o.fakes ++ [token], nextOffset := 0 }
  | .update token tokenOffset => do
    let (_, s) ← Batch.commitToken p o.sequence token tokenOffset
    .ok (o.afterCommit token tokenOffset s)
  | .finished => do
    let (_, s) ← o.sequence.isFinished p
    .ok { o with sequence := s }
  | .allocate tokens =>
    let kv := o.sequence.kvState
    .ok
      { o with
        sequence :=
          { o.sequence with
            kvState :=
              { kv with currentMaxTokensCapacity := kv.currentMaxTokensCapacity + tokens } } }

/-- The calls take turns: a placeholder is appended while at most one is outstanding, a row is
committed from offset 0 on when one is, and goes on without a gap to at most
`num_speculative_tokens + 1` tokens. Once the sequence is finished there are no more. -/
def Alternates (numSpeculativeTokens : Nat) (o : Overlap J) : Call → Prop
  | .append token => token < 0 ∧ o.fakes.length < 2 ∧ stopped o.sequence = false
  | .update token tokenOffset =>
    0 ≤ token ∧ stopped o.sequence = false ∧
      ((tokenOffset = 0 ∧ o.fakes ≠ []) ∨
        (0 < tokenOffset ∧ tokenOffset = o.nextOffset ∧ tokenOffset ≤ numSpeculativeTokens))
  | .finished => True
  | .allocate _ => True

instance (numSpeculativeTokens : Nat) (o : Overlap J) (call : Call) :
    Decidable (Alternates numSpeculativeTokens o call) :=
  match call with
  | .append token =>
    inferInstanceAs (Decidable (token < 0 ∧ o.fakes.length < 2 ∧ stopped o.sequence = false))
  | .update token tokenOffset =>
    inferInstanceAs (Decidable (0 ≤ token ∧ stopped o.sequence = false ∧
      ((tokenOffset = 0 ∧ o.fakes ≠ []) ∨
        (0 < tokenOffset ∧ tokenOffset = o.nextOffset ∧ tokenOffset ≤ numSpeculativeTokens))))
  | .finished => inferInstanceAs (Decidable True)
  | .allocate _ => inferInstanceAs (Decidable True)

/-- The checker has let the prompt and these tokens pass. -/
def Passed (p : SequenceParams J) (prompt committed : List Int) : Prop :=
  ∃ matched, p.stoppingChecker.check (prompt ++ committed) prompt.length = .ok (.none, matched)

structure Inv (p : SequenceParams J) (prompt : List Int) (o : Overlap J) : Prop where
  layout : Layout p prompt o.committed o.fakes o.sequence
  committed_le : o.committed.length ≤ p.stoppingChecker.maxGeneratedTokens
  passed : stopped o.sequence = false → Passed p prompt o.committed
  invalidated : o.sequence.finishStatusInvalidated = true → stopped o.sequence = false
  nextOffset : 0 < o.nextOffset → o.committed ≠ []

variable {s : Sequence J}

theorem running_of (h : stopped s = false) : Running s := by
  rw [stopped, Bool.or_eq_false_iff] at h
  exact ⟨by simpa using h.1, h.2⟩

theorem stopped_of (h : Running s) : stopped s = false := by
  rw [stopped, h.errorStatus, h.finished]
  rfl

/-! ## The finish check -/

section Finished

variable {p : SequenceParams J} {prompt committed fakes : List Int} {s : Sequence J}

theorem Passed.lt (h : Passed p prompt committed) (roomy : Roomy p prompt)
    (hnonneg : ∀ t ∈ committed, 0 ≤ t) (hlt : committed.length < 2 ^ 64) :
    committed.length < p.stoppingChecker.maxGeneratedTokens := by
  rcases eq_nil_or_concat committed with rfl | ⟨init, t, rfl⟩
  · exact roomy.maxGeneratedTokens_pos
  · obtain ⟨matched, hcheck⟩ := h
    have ht : 0 ≤ t := hnonneg t (by simp)
    rw [concat_eq_append] at hcheck hlt ⊢
    rw [← List.append_assoc, StoppingChecker.check_of_last ht] at hcheck
    have hgenerated := (StoppingChecker.of_checkCommitted_none hcheck).2.1
      roomy.maxGeneratedTokens_pos
    rwa [List.append_assoc, length_append, subSize_add hlt] at hgenerated

theorem exists_check (p : SequenceParams J) (prompt committed : List Int) {t : Int} (ht : 0 ≤ t) :
    ∃ reason, p.stoppingChecker.check (prompt ++ (committed ++ [t])) prompt.length = .ok reason := by
  rw [← List.append_assoc, StoppingChecker.check_of_last ht]
  exact StoppingChecker.exists_checkCommitted (by simp) t

theorem isFinished_of_check (h : Layout p prompt committed fakes s) (hrun : Running s)
    (hinvalidated : s.finishStatusInvalidated = true) {reason : FinishReason} {matched : Nat}
    (hcheck : p.stoppingChecker.check (prompt ++ committed) prompt.length = .ok (reason, matched)) :
    s.isFinished p = .ok (decide (reason ≠ .none), s.withFinish false (decide (reason ≠ .none))
        (if reason = .none then s.finishReason else reason) matched) := by
  have hne : prompt ++ committed ≠ [] := fun hnil =>
    h.prompt_ne (append_eq_nil_iff.mp hnil).1
  rw [Sequence.isFinished, if_neg (by simp [hrun.errorStatus]), if_neg (by simp [hinvalidated]),
    h.validTokens, StoppingChecker.check_append hne h.fakes_neg, h.numPromptTokens, hcheck]
  by_cases hreason : reason = .none
  · simp [hreason, Sequence.withFinish, hrun.finished, h.numPromptTokens]
  · simp [hreason, Sequence.withFinish, h.numPromptTokens]

theorem isFinished_of_passed (h : Layout p prompt committed fakes s) (hrun : Running s)
    (hpassed : Passed p prompt committed) :
    ∃ s', s.isFinished p = .ok (false, s') ∧ Layout p prompt committed fakes s' ∧ Running s' ∧
      s'.numTokens = s.numTokens ∧
      s'.kvState.kvCacheTokensNum = s.kvState.kvCacheTokensNum := by
  obtain ⟨matched, hcheck⟩ := hpassed
  by_cases hinvalidated : s.finishStatusInvalidated = true
  · refine ⟨_, isFinished_of_check h hrun hinvalidated hcheck, h.withFinish _ _ _ _, ?_, rfl, rfl⟩
    exact ⟨hrun.errorStatus, rfl⟩
  · refine ⟨s, ?_, h, hrun, rfl, rfl⟩
    rw [Sequence.isFinished, if_neg (by simp [hrun.errorStatus]), if_pos (by simpa using hinvalidated),
      hrun.finished]

end Finished

/-! ## One call -/

/-- How a call changes the two counters, given what it committed. -/
def Grows (o : Overlap J) (call : Call) (o' : Overlap J) : Prop :=
  match call with
  | .update token tokenOffset =>
    (o'.committed = o.committed ∧ o'.sequence.numTokens = o.sequence.numTokens ∧
        o'.sequence.kvState.kvCacheTokensNum = o.sequence.kvState.kvCacheTokensNum) ∨
      (o'.committed = o.committed ++ [token] ∧
        o'.sequence.numTokens = o.sequence.numTokens + (if tokenOffset = 0 then 0 else 1) ∧
        o'.sequence.kvState.kvCacheTokensNum =
          o.sequence.kvState.kvCacheTokensNum + (if tokenOffset = 0 then 0 else 1))
  | _ => o'.committed = o.committed

section Step

variable {p : SequenceParams J} {prompt : List Int} {o : Overlap J}

theorem Inv.committed_lt (h : Inv p prompt o) (roomy : Roomy p prompt)
    (hrun : stopped o.sequence = false) :
    o.committed.length < p.stoppingChecker.maxGeneratedTokens := by
  have hle := h.committed_le
  have hmax := roomy.maxGeneratedTokens_lt
  exact (h.passed hrun).lt roomy h.layout.committed_nonneg (by omega)

variable {token : Int}

theorem Inv.append (h : Inv p prompt o) (roomy : Roomy p prompt) (ht : token < 0)
    (hfakes : o.fakes.length < 2) (hrun : stopped o.sequence = false) :
    ∃ o', step p o (.append token) = .ok o' ∧ Inv p prompt o' ∧ o'.committed = o.committed := by
  obtain ⟨s, hfinished, hlayout, hrunning, -, -⟩ :=
    isFinished_of_passed h.layout (running_of hrun) (h.passed hrun)
  have hlt := h.committed_lt roomy hrun
  have hroom : s.numTokens < p.seqCapacity := by
    have hcapacity := roomy.capacity
    rw [hlayout.numTokens]
    omega
  obtain ⟨s', happend, hlayout', hrunning', hinvalidated⟩ :=
    hlayout.appendToken hrunning hroom hfakes ht
  refine ⟨{ o with sequence := s', fakes := o.fakes ++ [token], nextOffset := 0 }, ?_, ?_, rfl⟩
  · rw [step, Batch.appendFakeToken, hfinished, ok_bind]
    simp only [happend]
    rfl
  · exact
      { layout := hlayout'
        committed_le := h.committed_le
        passed := fun _ => h.passed hrun
        invalidated := fun _ => stopped_of hrunning'
        nextOffset := nofun }

variable {tokenOffset : Nat} {s : Sequence J}

/-- After a token was taken, the sequence is looked at: it goes on exactly when the checker lets it
pass. -/
theorem Inv.taken (h : Inv p prompt o) (roomy : Roomy p prompt)
    (hrun : stopped o.sequence = false) (ht : 0 ≤ token)
    (htaken : Layout.Taken p prompt o.committed o.fakes o.sequence.numTokens
      o.sequence.kvState.kvCacheTokensNum token tokenOffset s) :
    ∃ finished s', s.isFinished p = .ok (finished, s') ∧ s'.errorStatus = none ∧
      s'.numTokens = s.numTokens ∧
      s'.kvState.kvCacheTokensNum = s.kvState.kvCacheTokensNum ∧
      stopped s' = finished ∧
      Inv p prompt
        { sequence := s'
          committed := o.committed ++ [token]
          fakes := if tokenOffset = 0 then o.fakes.tail else o.fakes
          nextOffset := tokenOffset + 1 } := by
  obtain ⟨⟨reason, matched⟩, hcheck⟩ :=
    exists_check p prompt o.committed ht
  have hfinished := isFinished_of_check htaken.layout htaken.running htaken.invalidated hcheck
  have hstopped : ∀ reason' matched' finished,
      stopped (s.withFinish false finished reason' matched') = finished := by
    intro reason' matched' finished
    rw [stopped, Sequence.withFinish]
    simp [htaken.running.errorStatus]
  refine ⟨_, _, hfinished, htaken.running.errorStatus, rfl, rfl, hstopped _ _ _, ?_⟩
  exact
    { layout := htaken.layout.withFinish _ _ _ _
      committed_le := by
        have hlt := h.committed_lt roomy hrun
        simp only [length_append, length_singleton]
        omega
      passed := fun hpassed => by
        rw [hstopped, decide_eq_false_iff_not, not_not] at hpassed
        exact ⟨matched, by rw [hcheck, hpassed]⟩
      invalidated := nofun
      nextOffset := fun _ => by simp }

@[simp] theorem afterCommit_sequence (o : Overlap J) (token : Int) (tokenOffset : Nat)
    (s : Sequence J) : (o.afterCommit token tokenOffset s).sequence = s := by
  rw [afterCommit]
  split <;> rfl

theorem afterCommit_of_none (o : Overlap J) (token : Int) (tokenOffset : Nat)
    (h : s.errorStatus = none) : o.afterCommit token tokenOffset s =
      { sequence := s
        committed := o.committed ++ [token]
        fakes := if tokenOffset = 0 then o.fakes.tail else o.fakes
        nextOffset := tokenOffset + 1 } := by
  rw [afterCommit, if_neg (by simp [h])]

theorem Inv.commitToken (h : Inv p prompt o) (roomy : Roomy p prompt)
    (ht : 0 ≤ token) (hrun : stopped o.sequence = false)
    (hoffset : (tokenOffset = 0 ∧ o.fakes ≠ []) ∨ (0 < tokenOffset ∧ tokenOffset = o.nextOffset)) :
    Outcome (fun e => e = .kvCapacity)
      (fun r => stopped r.2 = r.1 ∧ Inv p prompt (o.afterCommit token tokenOffset r.2) ∧
        Grows o (.update token tokenOffset) (o.afterCommit token tokenOffset r.2))
      (Batch.commitToken p o.sequence token tokenOffset) := by
  have hfirst : tokenOffset = 0 → o.fakes ≠ [] := by
    intro hzero
    rcases hoffset with ⟨-, hne⟩ | ⟨hpos, -⟩
    · exact hne
    · omega
  have hany : o.committed ≠ [] ∨ o.fakes ≠ [] := by
    rcases hoffset with ⟨-, hne⟩ | ⟨hpos, heq⟩
    · exact Or.inr hne
    · exact Or.inl (h.nextOffset (heq ▸ hpos))
  have hcommits := h.layout.updateLastStepToken (running_of hrun) roomy (h.committed_lt roomy hrun)
    ht hfirst hany
  refine hcommits.bind fun s hs => ?_
  cases hs with
  | rejected status eq =>
    -- The request has failed: the tokens stay as they are, and nothing more is committed.
    have herror : s.errorStatus.isSome = true := by
      rw [eq, Sequence.fail, (running_of hrun).errorStatus]
      rfl
    rw [Sequence.isFinished, if_pos herror, Outcome.ok_iff, afterCommit, if_pos herror, eq]
    refine ⟨by simp [stopped, Sequence.fail], ?_, Or.inl ⟨rfl, rfl, rfl⟩⟩
    exact
      { layout := h.layout.fail status
        committed_le := h.committed_le
        passed := fun hnot => absurd hnot (by simp [stopped, Sequence.fail])
        invalidated := nofun
        nextOffset := nofun }
  | taken htaken =>
    obtain ⟨finished, s', hfinished, herror, hnum, hkv, hstopped, hinv⟩ :=
      h.taken roomy hrun ht htaken
    rw [hfinished, Outcome.ok_iff, o.afterCommit_of_none token tokenOffset herror]
    refine ⟨hstopped, hinv, Or.inr ⟨rfl, ?_, ?_⟩⟩
    · rw [hnum, htaken.numTokens_eq]
    · rw [hkv, htaken.kv_eq]

theorem Inv.finished (h : Inv p prompt o) :
    ∃ o', step p o .finished = .ok o' ∧ Inv p prompt o' ∧ o'.committed = o.committed := by
  by_cases hrun : stopped o.sequence = false
  · obtain ⟨s, hfinished, hlayout, hrunning, -, -⟩ :=
      isFinished_of_passed h.layout (running_of hrun) (h.passed hrun)
    refine ⟨{ o with sequence := s }, by rw [step, hfinished]; rfl, ?_, rfl⟩
    exact
      { layout := hlayout
        committed_le := h.committed_le
        passed := fun _ => h.passed hrun
        invalidated := fun _ => stopped_of hrunning
        nextOffset := h.nextOffset }
  · -- The answer of a stopped sequence is kept.
    have hkept : ∃ finished, o.sequence.isFinished p = .ok (finished, o.sequence) := by
      rw [Sequence.isFinished]
      split
      · exact ⟨true, rfl⟩
      · rw [if_pos]
        · exact ⟨_, rfl⟩
        · by_contra hinvalidated
          exact hrun (h.invalidated (by simpa using hinvalidated))
    obtain ⟨finished, hfinished⟩ := hkept
    exact ⟨o, by rw [step, hfinished]; rfl, h, rfl⟩

theorem Inv.allocate (h : Inv p prompt o) (tokens : Nat) :
    ∃ o', step p o (.allocate tokens) = .ok o' ∧ Inv p prompt o' ∧ o'.committed = o.committed :=
  ⟨_, rfl,
    { layout := { h.layout with kvRoom := Nat.lt_of_lt_of_le h.layout.kvRoom (Nat.le_add_right _ _) }
      committed_le := h.committed_le
      passed := h.passed
      invalidated := h.invalidated
      nextOffset := h.nextOffset }, rfl⟩

/-- One call, taken in turn: only the room of the cache can stop it. -/
theorem Inv.step (h : Inv p prompt o) (roomy : Roomy p prompt) {numSpeculativeTokens : Nat}
    {call : Call} (hcall : Alternates numSpeculativeTokens o call) :
    Outcome (fun e => e = .kvCapacity) (fun o' => Inv p prompt o' ∧ Grows o call o')
      (Overlap.step p o call) := by
  cases call with
  | append token =>
    obtain ⟨ht, hfakes, hrun⟩ := hcall
    obtain ⟨o', hstep, hinv, hcommitted⟩ := h.append roomy ht hfakes hrun
    rw [hstep]
    exact ⟨hinv, hcommitted⟩
  | update token tokenOffset =>
    obtain ⟨ht, hrun, hoffset⟩ := hcall
    have hcommit := h.commitToken roomy ht hrun (hoffset.imp_right fun hnext => ⟨hnext.1, hnext.2.1⟩)
    exact hcommit.bind fun r hr => hr.2
  | finished =>
    obtain ⟨o', hstep, hinv, hcommitted⟩ := h.finished
    rw [hstep]
    exact ⟨hinv, hcommitted⟩
  | allocate tokens =>
    obtain ⟨o', hstep, hinv, hcommitted⟩ := h.allocate tokens
    rw [hstep]
    exact ⟨hinv, hcommitted⟩

end Step

/-! ## A row of tokens -/

/-- What the loop over a row does: calls in turn, that commit the tokens of the row until the sequence
stops. -/
structure CommitsRow (p : SequenceParams J) (numSpeculativeTokens : Nat) (o : Overlap J)
    (tokens : List Int) (first : Bool) (taken : Nat) (o' : Overlap J) : Prop where
  run : ∃ calls, ReachesWith (step p) (Alternates numSpeculativeTokens) o calls o'
  taken_le : taken ≤ tokens.length
  committed : o'.committed = o.committed ++ tokens.take taken
  complete : stopped o'.sequence = false → taken = tokens.length
  numTokens : o'.sequence.numTokens + (if first = true ∧ 0 < taken then 1 else 0) =
    o.sequence.numTokens + taken

section Row

variable {p : SequenceParams J} {prompt : List Int} {numSpeculativeTokens : Nat}

variable {o : Overlap J}

theorem CommitsRow.of_call {o' : Overlap J} {token : Int} {tokenOffset : Nat} (rest : List Int)
    (hcall : Alternates numSpeculativeTokens o (.update token tokenOffset))
    (hstep : step p o (.update token tokenOffset) = .ok o')
    (hgrows : Grows o (.update token tokenOffset) o') (hend : stopped o'.sequence = true ∨ rest = [])
    (htaken : stopped o'.sequence = false → o'.committed = o.committed ++ [token]) :
    ∃ taken, CommitsRow p numSpeculativeTokens o (token :: rest) (decide (tokenOffset = 0)) taken o' := by
  have hrun : ∃ calls, ReachesWith (step p) (Alternates numSpeculativeTokens) o calls o' :=
    ⟨_, .single hcall hstep⟩
  rcases hgrows with ⟨hcommitted, hnum, -⟩ | ⟨hcommitted, hnum, -⟩
  · refine ⟨0, hrun, Nat.zero_le _, ?_, fun hnot => ?_, ?_⟩
    · rw [hcommitted, take_zero, append_nil]
    · have := htaken hnot
      rw [hcommitted] at this
      exact absurd this (by simp)
    · rw [hnum, if_neg (by simp)]
  · refine ⟨1, hrun, by simp, hcommitted, fun hnot => ?_, ?_⟩
    · rcases hend with hstopped | rfl
      · exact absurd hnot (by simp [hstopped])
      · rfl
    · rw [hnum]
      by_cases hzero : tokenOffset = 0 <;> simp [hzero]

theorem commitTokens_run (numSpeculativeTokens : Nat) (roomy : Roomy p prompt) (n : Nat) :
    ∀ (tokens : List Int) (o : Overlap J) (idx : Nat) (s' : Sequence J), Inv p prompt o →
      stopped o.sequence = false → tokens ≠ [] → (∀ t ∈ tokens, 0 ≤ t) →
      ((idx = 0 ∧ o.fakes ≠ []) ∨ (0 < idx ∧ idx = o.nextOffset)) →
      idx + tokens.length ≤ numSpeculativeTokens + 1 →
      Batch.commitTokens p o.sequence idx (tokens ++ List.replicate n (-1)) = .ok s' →
      ∃ taken o', o'.sequence = s' ∧
        CommitsRow p numSpeculativeTokens o tokens (decide (idx = 0)) taken o' := by
  intro tokens
  induction tokens with
  | nil => intro o idx s' _ _ hne; exact absurd rfl hne
  | cons token rest ih =>
    intro o idx s' hinv hrun _ hnonneg hoffset hle hcommit
    have ht := hnonneg token mem_cons_self
    have hspec := hinv.commitToken roomy ht hrun hoffset
    rw [length_cons] at hle
    have hcall : Alternates numSpeculativeTokens o (.update token idx) :=
      ⟨ht, hrun, hoffset.imp_right fun hnext => ⟨hnext.1, hnext.2, by omega⟩⟩
    rw [cons_append, Batch.commitTokens, if_neg (Int.not_lt.mpr ht), bind_eq_ok] at hcommit
    obtain ⟨⟨finished, s⟩, htoken, hcommit⟩ := hcommit
    obtain ⟨hstopped, hinv', hgrows⟩ := hspec.of_ok htoken
    simp only at hstopped hinv' hgrows hcommit
    have hstep : step p o (.update token idx) = .ok (o.afterCommit token idx s) := by
      rw [step, htoken]
      rfl
    have hgoes : stopped s = false →
        o.afterCommit token idx s = ⟨s, o.committed ++ [token],
          if idx = 0 then o.fakes.tail else o.fakes, idx + 1⟩ := fun hnot =>
      o.afterCommit_of_none token idx (running_of hnot).errorStatus
    have hseq : (o.afterCommit token idx s).sequence = s := o.afterCommit_sequence token idx s
    have htaken : stopped (o.afterCommit token idx s).sequence = false →
        (o.afterCommit token idx s).committed = o.committed ++ [token] := by
      intro hnot
      rw [hseq] at hnot
      rw [hgoes hnot]
    cases hfinished : finished with
    | true =>
      rw [hfinished] at hstopped hcommit
      obtain ⟨taken, hrow⟩ := CommitsRow.of_call rest hcall hstep hgrows
        (Or.inl (by rw [hseq]; exact hstopped)) htaken
      exact ⟨taken, _, hseq.trans (Except.ok.inj hcommit), hrow⟩
    | false =>
      rw [hfinished] at hstopped hcommit
      simp only [Bool.false_eq_true, if_false] at hcommit
      by_cases hrest : rest = []
      · -- The row is over, or goes on with -1.
        subst hrest
        have hs' : s = s' := by
          cases n with
          | zero => exact Except.ok.inj hcommit
          | succ n =>
            exact Except.ok.inj hcommit
        obtain ⟨taken, hrow⟩ := CommitsRow.of_call [] hcall hstep hgrows (Or.inr rfl)
          htaken
        exact ⟨taken, _, hseq.trans hs', hrow⟩
      · have hrun' : stopped (o.afterCommit token idx s).sequence = false := by
          rw [hseq]
          exact hstopped
        obtain ⟨taken, o', ho', hrow⟩ := ih (o.afterCommit token idx s) (idx + 1) s' hinv' hrun' hrest
          (fun t hmem => hnonneg t (mem_cons_of_mem _ hmem))
          (Or.inr ⟨Nat.succ_pos _, by rw [hgoes hstopped]⟩) (by omega) (by rw [hseq]; exact hcommit)
        refine ⟨taken + 1, o', ho', ?_⟩
        obtain ⟨calls, hcalls⟩ := hrow.run
        have hnum := hrow.numTokens
        have hnum' : (o.afterCommit token idx s).sequence.numTokens =
            o.sequence.numTokens + (if idx = 0 then 0 else 1) := by
          rcases hgrows with ⟨hcommitted, -, -⟩ | ⟨-, hnum', -⟩
          · rw [htaken hrun'] at hcommitted
            exact absurd hcommitted (by simp)
          · exact hnum'
        exact
          { run := ⟨_, (ReachesWith.single hcall hstep).trans hcalls⟩
            taken_le := by
              exact Nat.succ_le_succ hrow.taken_le
            committed := by
              rw [hrow.committed, htaken hrun', take_succ_cons, List.append_assoc]
              rfl
            complete := fun hnot => by rw [hrow.complete hnot, length_cons]
            numTokens := by
              rw [hnum', if_neg (by simp)] at hnum
              by_cases hzero : idx = 0
              · simp [hzero] at hnum ⊢
                omega
              · simp [hzero] at hnum ⊢
                omega }

theorem commitRow_run (roomy : Roomy p prompt) (h : Inv p prompt o)
    (hrun : stopped o.sequence = false) (hfakes : o.fakes ≠ []) {tokens row : List Int}
    (hrow : AcceptedRow (numSpeculativeTokens + 1) tokens row) {s' : Sequence J}
    (hcommit : Batch.commitRow p o.sequence row = .ok s') :
    ∃ taken o', o'.sequence = s' ∧ CommitsRow p numSpeculativeTokens o tokens true taken o' := by
  obtain ⟨s, hfinished, hlayout, hrunning, hnum, -⟩ :=
    isFinished_of_passed h.layout (running_of hrun) (h.passed hrun)
  have hinv : Inv p prompt { o with sequence := s } :=
    { layout := hlayout
      committed_le := h.committed_le
      passed := fun _ => h.passed hrun
      invalidated := fun _ => stopped_of hrunning
      nextOffset := h.nextOffset }
  have hlook : step p o .finished = .ok { o with sequence := s } := by
    rw [step, hfinished]
    rfl
  rw [Batch.commitRow, if_neg (by simp [(running_of hrun).errorStatus]), hfinished, ok_bind,
    hrow.row_eq] at hcommit
  obtain ⟨taken, o', ho', hloop⟩ := commitTokens_run numSpeculativeTokens roomy _
    tokens { o with sequence := s } 0 s' hinv (stopped_of hrunning) hrow.nonempty
    (fun t ht => (hrow.token t ht).1) (Or.inl ⟨rfl, hfakes⟩)
    (by have := hrow.length_le; omega) hcommit
  obtain ⟨calls, hcalls⟩ := hloop.run
  refine ⟨taken, o', ho', ?_⟩
  exact
    { run := ⟨_, (ReachesWith.single trivial hlook).trans hcalls⟩
      taken_le := hloop.taken_le
      committed := hloop.committed
      complete := hloop.complete
      numTokens := by
        have hloopNum := hloop.numTokens
        rwa [hnum] at hloopNum }

end Row

/-! ## Every run -/

/-- The sequence reads as what was written down about it. -/
structure Rebuilt (prompt : List Int) (o : Overlap J) : Prop where
  tokens : o.sequence.validTokens = prompt ++ o.committed ++ o.fakes
  numTokens : o.sequence.numTokens = prompt.length + o.committed.length + o.fakes.length
  numTokens_le : o.sequence.numTokens ≤ o.sequence.tokens.length
  kvCacheTokensNum : o.committed ≠ [] ∨ o.fakes ≠ [] →
    o.sequence.kvState.kvCacheTokensNum + 1 = o.sequence.numTokens
  curGeneratedTokenIdx : o.sequence.curGeneratedTokenIdx = prompt.length + o.committed.length
  firstFake : ∀ f fs, o.fakes = f :: fs →
    o.sequence.tokens[o.sequence.curGeneratedTokenIdx]? = some f

variable {p : SequenceParams J} {prompt : List Int}

theorem Inv.rebuilt {o : Overlap J} (h : Inv p prompt o) : Rebuilt prompt o where
  tokens := h.layout.validTokens
  numTokens := h.layout.numTokens
  numTokens_le := by
    obtain ⟨rest, htokens⟩ := h.layout.tokens
    rw [h.layout.numTokens, htokens]
    simp only [length_append]
    omega
  kvCacheTokensNum := h.layout.kvRun
  curGeneratedTokenIdx := h.layout.curGeneratedTokenIdx
  firstFake := fun _ _ hfakes => h.layout.firstFake hfakes

/-- The sequence of a created request, as its sequences are built. -/
def sequenceParams {F G : Type} (state : RequestState F G) (acceptToken : J → Int → Option J) :
    SequenceParams J :=
  { seqCapacity := state.seqCapacity
    enableScheduleOverlap := state.enableScheduleOverlap
    stoppingChecker := state.stoppingChecker
    acceptToken := acceptToken }

section Created

variable {F G : Type} {config : FactoryConfig G} {sp : RequestParams F} {state : RequestState F G}

theorem maxGeneratedTokens_eq (h : LLMRequestFactory.Created config sp state) :
    state.stoppingChecker.maxGeneratedTokens = sp.effectiveMaxTokens.toNat := by
  have hchecker := h.stoppingChecker
  rw [LLMRequestFactory.buildStoppingChecker] at hchecker
  split at hchecker
  · cases hchecker
  · injection hchecker with hchecker
    rw [← hchecker]

theorem seqCapacity_eq (h : LLMRequestFactory.Created config sp state)
    (hoverlap : config.enableScheduleOverlap = true) :
    state.seqCapacity = state.promptTokens.length + state.stoppingChecker.maxGeneratedTokens +
      2 * config.numSpeculativeTokens.val + 2 := by
  rw [h.seqCapacity, maxGeneratedTokens_eq h, LLMRequestFactory.capacity, if_pos hoverlap]
  omega

theorem roomy_of_created (h : LLMRequestFactory.Created config sp state)
    (hoverlap : config.enableScheduleOverlap = true) (htask : config.taskType = .generate)
    (acceptToken : J → Int → Option J) :
    Roomy (sequenceParams state acceptToken) state.promptTokens where
  overlap := h.enableScheduleOverlap.trans hoverlap
  maxGeneratedTokens_pos := (maxGeneratedTokens_eq h) ▸ sp.effectiveMaxTokens_pos
  maxGeneratedTokens_lt := (maxGeneratedTokens_eq h) ▸ sp.effectiveMaxTokens.toNat_lt
  capacity := by
    have hcapacity := seqCapacity_eq h hoverlap
    simp only [sequenceParams]
    omega
  notFinished := h.notFinished htask

end Created

/-- A sequence whose prompt is in the cache starts with nothing committed and nothing
outstanding. -/
theorem Inv.start (roomy : Roomy p prompt)
    {kvCapacity : Nat} (hkv : prompt.length ≤ kvCapacity) (json : Option J) :
    ∃ s, Sequence.create p prompt ⟨prompt.length, kvCapacity⟩ json = .ok s ∧
      Inv p prompt { sequence := s } := by
  have hne : prompt ≠ [] := by
    intro hnil
    obtain ⟨matched, hcheck⟩ := roomy.notFinished
    rw [hnil, StoppingChecker.check, if_pos rfl] at hcheck
    cases hcheck
  have hlt : ¬ p.seqCapacity ≤ prompt.length := by
    have := roomy.capacity
    omega
  have hpos : 0 < prompt.length := length_pos_iff.mpr hne
  refine ⟨_, by rw [Sequence.create, if_neg hne, if_neg hlt], ?_⟩
  exact
    { layout :=
        { length_tokens := by
            simp only [length_append, length_replicate]
            omega
          tokens := ⟨_, by rw [append_nil, nil_append]⟩
          numPromptTokens := rfl
          volatileNumPromptTokens := rfl
          numTokens := rfl
          curGeneratedTokenIdx := rfl
          kvStart := fun _ _ => rfl
          kvRun := fun h => by simp at h
          kvRoom := Nat.lt_of_lt_of_le hpos hkv
          prompt_ne := hne
          committed_nonneg := fun t ht => by cases ht
          fakes_neg := fun f hf => by cases hf
          fakes_le := Nat.zero_le _ }
      committed_le := Nat.zero_le _
      passed := fun _ => by
        obtain ⟨matched, hcheck⟩ := roomy.notFinished
        exact ⟨matched, by rw [append_nil]; exact hcheck⟩
      invalidated := fun _ => rfl
      nextOffset := fun h => (by cases h) }

/-- In every run of a created request's sequence the buffer is rebuilt. Only the room of the cache
can stop a call, so no index leaves the buffer; the sequence and its cache grow by one for every token
behind the first of a row; and a row that is committed to its end has grown the sequence by the
position offset the worker reads off it. -/
theorem overlappedCommits_rebuild {F G : Type} {config : FactoryConfig G} {prompt : String}
    {promptTokens : Option TokenVector} {sp : RequestParams F}
    {mode : Option ChatTemplateGenerationMode} {state : RequestState F G}
    (hcreate : LLMRequestFactory.create config prompt promptTokens sp mode = .ok state)
    (hoverlap : config.enableScheduleOverlap = true) (htask : config.taskType = .generate)
    (acceptToken : J → Int → Option J) (json : Option J) {kvCapacity : Nat}
    (hkv : state.promptTokens.length ≤ kvCapacity) :
    state.seqCapacity = state.promptTokens.length + state.stoppingChecker.maxGeneratedTokens +
        2 * config.numSpeculativeTokens.val + 2 ∧
      ∃ s, Sequence.create (sequenceParams state acceptToken) state.promptTokens
          ⟨state.promptTokens.length, kvCapacity⟩ json = .ok s ∧
        ∀ calls o,
          ReachesWith (step (sequenceParams state acceptToken))
            (Alternates config.numSpeculativeTokens.val) { sequence := s } calls o →
          Rebuilt state.promptTokens o ∧
            (∀ call, Alternates config.numSpeculativeTokens.val o call →
              Outcome (fun e => e = .kvCapacity) (Grows o call)
                (step (sequenceParams state acceptToken) o call)) ∧
            ∀ (E : Type) (batch : AcceptedBatch E) (i : Nat) (tokens row : List Int)
              (s' : Sequence J),
              batch.numSpeculativeTokens = config.numSpeculativeTokens.val →
              batch.rows[i]? = some row →
              AcceptedRow (config.numSpeculativeTokens.val + 1) tokens row →
              stopped o.sequence = false → o.fakes ≠ [] →
              Batch.commitRow (sequenceParams state acceptToken) o.sequence row = .ok s' →
              ∃ taken o' resolved, o'.sequence = s' ∧
                CommitsRow (sequenceParams state acceptToken) config.numSpeculativeTokens.val o
                  tokens true taken o' ∧
                resolveTokenWithPositionOffset (-(i + 1 : Nat)) batch.rows.flatten
                  (config.numSpeculativeTokens.val + 1) = .ok resolved ∧
                resolved.positionOffset = tokens.length - 1 ∧
                (taken = tokens.length →
                  (s'.numTokens : Int) = o.sequence.numTokens + resolved.positionOffset) := by
  have hcreated := LLMRequestFactory.created hcreate
  have roomy := roomy_of_created hcreated hoverlap htask acceptToken
  refine ⟨seqCapacity_eq hcreated hoverlap, ?_⟩
  obtain ⟨s, hs, hstart⟩ := Inv.start roomy hkv json
  refine ⟨s, hs, fun calls o hrun => ?_⟩
  have hinv : Inv (sequenceParams state acceptToken) state.promptTokens o :=
    hrun.invariant (fun _ _ _ hI hcall hstep => (hI.step roomy hcall).of_ok hstep |>.1) hstart
  refine ⟨hinv.rebuilt, fun call hcall => (hinv.step roomy hcall).imp fun _ h => h.2, ?_⟩
  intro E batch i tokens row s' hbatch hrow haccepted hnot hfakes hcommit
  obtain ⟨taken, o', ho', hcommits⟩ := commitRow_run roomy hinv hnot hfakes haccepted hcommit
  have haccepted' : AcceptedRow (batch.numSpeculativeTokens + 1) tokens row := by
    rw [hbatch]
    exact haccepted
  have hpos := haccepted.length_pos
  refine ⟨taken, o', ⟨tokens.getLast haccepted.nonempty, (tokens.length - 1 : Nat)⟩, ho', hcommits,
    ?_, by simp only; omega, fun htaken => ?_⟩
  · have hresolve := Speculative.resolve_spec batch hrow haccepted'
    simpa only [hbatch] using hresolve
  have hnum := hcommits.numTokens
  rw [ho', htaken, if_pos ⟨rfl, hpos⟩] at hnum
  simp only
  omega

local instance neZero_int32 : NeZero (2 ^ 31) := ⟨by decide⟩

/-- An instance that speculates on two tokens, and a request for five. -/
def specConfig : FactoryConfig Unit :=
  { LLMRequestFactory.plainConfig with numSpeculativeTokens := 2 }

def fiveTokens : RequestParams UInt32 :=
  { LLMRequestFactory.plainParams with maxTokens := 5 }

def fiveTokensState : RequestState UInt32 Unit :=
  LLMRequestFactory.plainState specConfig fiveTokens (by decide)

def fiveTokensParams : SequenceParams Unit :=
  sequenceParams fiveTokensState fun _ _ => none

/-- Two steps are outstanding when the first is found to have three tokens. -/
theorem overlappedCommits_three :
    ∃ (s : Sequence Unit) (o : Overlap Unit),
      ReachesWith (step fiveTokensParams) (Alternates 2) { sequence := s }
          [.append (-1), .append (-2), .update 7 0, .update 8 1, .update 9 2] o ∧
        Rebuilt fiveTokensState.promptTokens o ∧ o.committed = [7, 8, 9] ∧ o.fakes = [-2] := by
  have hcreate : LLMRequestFactory.create specConfig "" (some LLMRequestFactory.plainPrompt) fiveTokens
      none = .ok fiveTokensState := by decide +kernel
  obtain ⟨-, s, hs, hruns⟩ := overlappedCommits_rebuild hcreate rfl rfl (fun _ _ => none)
    (none : Option Unit) (by decide : fiveTokensState.promptTokens.length ≤ 64)
  have hstart : Sequence.create fiveTokensParams fiveTokensState.promptTokens ⟨1, 64⟩ none =
      .ok s := hs
  have hrun : ∃ o, ReachesWith (step fiveTokensParams) (Alternates 2) { sequence := s }
        [.append (-1), .append (-2), .update 7 0, .update 8 1, .update 9 2] o ∧
      decide (o.committed = [7, 8, 9] ∧ o.fakes = [-2]) = true := by
    cases hstart
    exact ReachesWith.of_check _ _ _ (by decide +kernel)
  obtain ⟨o, run, ho⟩ := hrun
  obtain ⟨hcommitted, hfakes⟩ := of_decide_eq_true ho
  exact ⟨s, o, run, (hruns _ o run).1, hcommitted, hfakes⟩

end Overlap

end Xllm.Request
