import Xllm.Lib.Trim
import Xllm.Scheduler.AsyncResponseProcessor

/-!
# The journey of a request's responses

Seen from one request, the queues of the processor are a line of tasks that are still to run and a
`pipeline` of outputs: those its client has received, and behind them those that wait for the RPC
thread. A task that runs leaves the line and may add an output to the pipeline; sending an output
changes nothing. `Journey` is the invariant of this view, with one lemma for each thing that can
happen to the request.
-/

namespace Xllm.Scheduler.Response

open Xllm.Lib List
open Xllm.Request (Status StatusCode)

variable {D : Type}

/-! ## Tasks -/

namespace Task

def isStream : Task → Bool
  | .stream _ _ | .batchedStream _ _ _ => true
  | _ => false

def isCompleted : Task → Bool
  | .completed _ | .batchedCompleted _ _ => true
  | _ => false

def indexes : Task → List Nat
  | .stream _ indexes | .batchedStream _ indexes _ => indexes
  | _ => []

def slot? : Task → Option Nat
  | .batchedStream _ _ slot | .batchedCompleted _ slot => some slot
  | _ => none

variable {task : Task}

theorem indexes_eq_nil (h : task.isStream = false) : task.indexes = [] := by
  cases task <;> first | rfl | cases h

theorem isCompleted_eq_false (h : task.isStream = true) :
    task.isCompleted = false := by
  cases task <;> first | rfl | cases h

end Task

/-! ## What the client of a request relies on -/

def RequestOutput.isTerminal (output : RequestOutput) : Bool :=
  output.finished || output.cancelled ||
    output.status.any fun status => decide (status.code ≠ .ok)

/-- The token ids that outputs give a sequence, in order. -/
def deltaTokens (outputs : List RequestOutput) (index : Nat) : List Int :=
  outputs.flatMap fun output =>
    (output.outputs.filter fun out => decide (out.index = index)).flatMap SequenceOutput.tokenIds

theorem deltaTokens_append (outputs outputs' : List RequestOutput) (index : Nat) :
    deltaTokens (outputs ++ outputs') index =
      deltaTokens outputs index ++ deltaTokens outputs' index :=
  flatMap_append

namespace Sequence

/-- The tokens that have been streamed. -/
def streamedTokens (seq : Sequence D) : List Int :=
  (seq.validTokens.take seq.streamOutputTokenOffset).drop seq.streamStart

/-- All tokens that are to be streamed. -/
def committedTokens (seq : Sequence D) : List Int := seq.validTokens.drop seq.streamStart

theorem streamedTokens_of_drained {seq : Sequence D}
    (h : seq.streamOutputTokenOffset = seq.numValidTokens) :
    seq.streamedTokens = seq.committedTokens := by
  unfold streamedTokens committedTokens
  rw [h, numValidTokens, take_length]

theorem streamedTokens_isPrefix (seq : Sequence D) :
    seq.streamedTokens <+: seq.committedTokens := by
  exact List.IsPrefix.drop (List.take_prefix _ _) _

end Sequence

namespace Request

/-- The request has an outcome for a terminal response to claim: it failed, it was cancelled, or it
is finished and, if it streams, a notification has seen the end of each sequence. -/
def Ended (req : Request D) : Prop :=
  req.cancelled = true ∨ req.errorStatus.isSome = true ∨
    (req.finished = true ∧ (req.stream = true → ∀ seq ∈ req.sequences, seq.closed = true))

end Request

/-- The invariant of a request with its line of tasks and its pipeline of outputs. -/
structure Journey (req : Request D) (tasks : List Task) (pipeline : List RequestOutput) :
    Prop where
  index : ∀ (i : Nat) (seq : Sequence D), req.sequences[i]? = some seq → seq.index = i
  offset : ∀ seq ∈ req.sequences, seq.numPromptTokens ≤ seq.tokens.length ∧
    seq.streamStart ≤ seq.streamOutputTokenOffset ∧
    seq.streamOutputTokenOffset ≤ seq.numValidTokens
  ordered : tasks.Pairwise fun task later => later.isStream = true → task.isStream = true
  terminal : ∀ task ∈ tasks, task.isStream = false → req.terminalRequested = true
  kind : ∀ output ∈ pipeline, output.isTerminal = output.status.isSome
  running : req.terminalOutcome = .none → ∀ output ∈ pipeline, output.isTerminal = false
  isOver : req.terminalOutcome ≠ .none → req.terminalRequested = true ∧
    (∀ task ∈ tasks, task.isStream = false) ∧ ∃ deltas last, pipeline = deltas ++ [last] ∧
      last.isTerminal = true ∧ ∀ output ∈ deltas, output.isTerminal = false
  requested : req.terminalRequested = true →
    req.terminalOutcome ≠ .none ∨ ∃ task ∈ tasks, task.isStream = false
  ended : ∀ task ∈ tasks, task.isCompleted = true → req.Ended
  failed : ∀ request status, Task.failed request status ∈ tasks → status.code ≠ .ok
  error : ∀ status, req.errorStatus = some status → status.code ≠ .ok
  notOnerec : ∀ task ∈ tasks, task.isStream = true → ∀ seq ∈ req.sequences,
    seq.isOnerecModel = false
  tokens : req.stream = true → ∀ (i : Nat) (seq : Sequence D), req.sequences[i]? = some seq →
    deltaTokens pipeline i = seq.streamedTokens
  closed : ∀ (i : Nat) (seq : Sequence D), req.sequences[i]? = some seq → seq.closed = true →
    req.sequenceFinished seq = true ∧
      (seq.streamOutputTokenOffset = seq.numValidTokens ∨ ∃ task ∈ tasks, i ∈ task.indexes)
  success : ∀ output ∈ pipeline, ∀ status, output.status = some status → status.code = .ok →
    req.stream = true → ∀ seq ∈ req.sequences,
      seq.finished = true ∧ seq.streamOutputTokenOffset = seq.numValidTokens

/-! ## The tokens of a sequence -/

/-- What appends leave alone, and what they may only extend. -/
structure Sequence.Grows (seq seq' : Sequence D) : Prop where
  index : seq'.index = seq.index
  numPromptTokens : seq'.numPromptTokens = seq.numPromptTokens
  echo : seq'.echo = seq.echo
  isOnerecModel : seq'.isOnerecModel = seq.isOnerecModel
  offset : seq'.streamOutputTokenOffset = seq.streamOutputTokenOffset
  closed : seq'.closed = seq.closed
  length : seq.numPromptTokens ≤ seq'.tokens.length
  validTokens : seq.validTokens <+: seq'.validTokens
  finished : seq.finished = true → seq' = seq

namespace Sequence

variable {seq seq' : Sequence D}

variable {tokens : List Int}

theorem validTokens_prefix_append (hprompt : seq.numPromptTokens ≤ seq.tokens.length)
    (htokens : seq'.tokens = seq.tokens ++ tokens)
    (hsame : seq'.numPromptTokens = seq.numPromptTokens) :
    seq.validTokens <+: seq'.validTokens := by
  unfold validTokens
  rw [htokens, hsame, take_append_of_le_length hprompt, drop_append_of_le_length hprompt]
  exact (prefix_append_right_inj _).mpr (rdropWhile_prefix_append _ _ _)

theorem numPromptTokens_le (hprompt : seq.numPromptTokens ≤ seq.tokens.length) :
    seq.numPromptTokens ≤ seq.numValidTokens := by
  unfold numValidTokens validTokens
  rw [length_append, length_take]
  omega

theorem validTokens_idem (hprompt : seq.numPromptTokens ≤ seq.tokens.length) :
    { seq with tokens := seq.validTokens }.validTokens = seq.validTokens := by
  have htake : (seq.tokens.take seq.numPromptTokens).length = seq.numPromptTokens := by
    rw [length_take]
    omega
  have hself : seq.validTokens = seq.tokens.take seq.numPromptTokens ++
      (seq.tokens.drop seq.numPromptTokens).rdropWhile fun token => decide (token < 0) := rfl
  show seq.validTokens.take seq.numPromptTokens ++
    (seq.validTokens.drop seq.numPromptTokens).rdropWhile _ = seq.validTokens
  rw [hself, take_left' htake, drop_left' htake, rdropWhile_idempotent]

theorem appendToken_grows {token : Int} {finish : Option (String × Nat)}
    (hprompt : seq.numPromptTokens ≤ seq.tokens.length)
    (h : seq.appendToken token finish = .ok seq') : seq.Grows seq' := by
  unfold appendToken at h
  split at h
  · cases h
  · next hopen =>
    have hlength : seq.numPromptTokens ≤ (seq.tokens ++ [token]).length := by
      rw [length_append]
      exact Nat.le_add_right_of_le hprompt
    have hgrows : ∀ seq'' : Sequence D, seq''.tokens = seq.tokens ++ [token] →
        seq''.numPromptTokens = seq.numPromptTokens → seq.validTokens <+: seq''.validTokens :=
      fun _ => validTokens_prefix_append hprompt
    cases finish with
    | none =>
      cases h
      exact ⟨rfl, rfl, rfl, rfl, rfl, rfl, hlength, hgrows _ rfl rfl,
        fun hfinished => absurd hfinished hopen⟩
    | some finish =>
      cases h
      exact ⟨rfl, rfl, rfl, rfl, rfl, rfl, hlength, hgrows _ rfl rfl,
        fun hfinished => absurd hfinished hopen⟩

theorem updateLastStepTokens_grows {finish : Option (String × Nat)}
    (hprompt : seq.numPromptTokens ≤ seq.tokens.length)
    (h : seq.updateLastStepTokens tokens finish = .ok seq') : seq.Grows seq' := by
  unfold updateLastStepTokens at h
  split at h
  · cases h
    exact ⟨rfl, rfl, rfl, rfl, rfl, rfl, hprompt, prefix_rfl, fun _ => rfl⟩
  · next hopen =>
    split at h
    · cases h
    · have hvalid := numPromptTokens_le hprompt
      have hlength : seq.numPromptTokens ≤ (seq.validTokens ++ tokens ++
          seq.tokens.drop (seq.numValidTokens + 1)).length := by
        rw [length_append, length_append]
        exact Nat.le_add_right_of_le (Nat.le_add_right_of_le hvalid)
      have hgrows : ∀ seq'' : Sequence D, seq''.tokens = seq.validTokens ++ tokens ++
          seq.tokens.drop (seq.numValidTokens + 1) →
          seq''.numPromptTokens = seq.numPromptTokens →
          seq.validTokens <+: seq''.validTokens := by
        intro seq'' htokens hsame
        rw [List.append_assoc] at htokens
        have hidem := validTokens_idem hprompt
        rw [← hidem]
        refine validTokens_prefix_append hvalid htokens hsame
      cases finish with
      | none =>
        cases h
        exact ⟨rfl, rfl, rfl, rfl, rfl, rfl, hlength, hgrows _ rfl rfl,
          fun hfinished => absurd hfinished hopen⟩
      | some finish =>
        cases h
        exact ⟨rfl, rfl, rfl, rfl, rfl, rfl, hlength, hgrows _ rfl rfl,
          fun hfinished => absurd hfinished hopen⟩

/-- A sequence whose tokens up to an offset have been drawn. -/
def drawnTo (seq : Sequence D) (decoder : D) (offset : Nat) : Sequence D :=
  { seq with decoder := decoder, streamOutputTokenOffset := offset }

@[simp] theorem drawnTo_offset (decoder : D) (offset : Nat) :
    (seq.drawnTo decoder offset).streamOutputTokenOffset = offset := rfl

@[simp] theorem drawnTo_validTokens (decoder : D) (offset : Nat) :
    (seq.drawnTo decoder offset).validTokens = seq.validTokens := rfl

theorem generateStreamingOutput_spec {tokenizer : Detokenizer D} {output : Option SequenceOutput}
    (honerec : seq.isOnerecModel = false) (h : seq.generateStreamingOutput tokenizer = .ok (output, seq')) :
    (∃ decoder, seq' = seq.drawnTo decoder seq.numValidTokens) ∧
      output.toList.flatMap SequenceOutput.tokenIds =
        seq.validTokens.drop seq.streamOutputTokenOffset ∧
      ∀ out ∈ output.toList, out.index = seq.index := by
  unfold generateStreamingOutput at h
  dsimp only at h
  rw [if_neg (by rw [honerec]; exact nofun), bind_eq_ok] at h
  obtain ⟨count, -, h⟩ := h
  split at h
  · next hnone =>
    cases h
    have hsame : ∀ decoder : D,
        { seq with decoder := decoder } = seq.drawnTo decoder seq.numValidTokens := by
      intro decoder
      rw [← hnone.2]
      rfl
    refine ⟨⟨_, hsame _⟩, ?_, ?_⟩
    · have : seq.validTokens.length ≤ seq.streamOutputTokenOffset := hnone.2.ge
      rw [drop_eq_nil_of_le this]
      rfl
    · intro out hout
      cases hout
  · cases h
    refine ⟨⟨_, rfl⟩, ?_, ?_⟩
    · simp
    · intro out hout
      rw [Option.toList_some, mem_singleton] at hout
      rw [hout]

end Sequence

/-! ## Drawing deltas -/

/-- The token ids of a delta for a sequence. -/
def outputTokens (outputs : List SequenceOutput) (index : Nat) : List Int :=
  (outputs.filter fun out => decide (out.index = index)).flatMap SequenceOutput.tokenIds

theorem outputTokens_append (outputs outputs' : List SequenceOutput) (index : Nat) :
    outputTokens (outputs ++ outputs') index =
      outputTokens outputs index ++ outputTokens outputs' index := by
  unfold outputTokens
  rw [filter_append, flatMap_append]

theorem deltaTokens_concat (outputs : List RequestOutput) (output : RequestOutput) (index : Nat) :
    deltaTokens (outputs ++ [output]) index =
      deltaTokens outputs index ++ outputTokens output.outputs index := by
  rw [deltaTokens_append]
  unfold deltaTokens
  rw [flatMap_singleton]
  rfl

/-- A sequence after some of its tokens have been drawn. -/
def Sequence.Drawn (seq seq' : Sequence D) : Prop :=
  ∃ decoder offset, seq' = seq.drawnTo decoder offset ∧
    seq.streamOutputTokenOffset ≤ offset ∧ offset ≤ seq.numValidTokens

/-- What drawing the deltas of a notification does to each sequence, and what it draws. -/
structure Request.Draws (req req' : Request D) (indexes : List Nat)
    (outputs : List SequenceOutput) : Prop where
  rest : req' = { req with sequences := req'.sequences }
  length : req'.sequences.length = req.sequences.length
  drawn : ∀ (i : Nat) (seq seq' : Sequence D), req.sequences[i]? = some seq →
    req'.sequences[i]? = some seq' → seq.Drawn seq' ∧
      (i ∈ indexes → seq'.streamOutputTokenOffset = seq.numValidTokens) ∧
      outputTokens outputs i =
        (seq.validTokens.take seq'.streamOutputTokenOffset).drop seq.streamOutputTokenOffset

theorem drop_take_append {l : List Int} {a b c : Nat} (hab : a ≤ b) (hbc : b ≤ c) :
    (l.take b).drop a ++ (l.take c).drop b = (l.take c).drop a := by
  have hsplit : (l.take c).take b = l.take b := by
    rw [take_take, min_eq_left hbc]
  have hrest : (l.take c).drop a = ((l.take c).take b).drop a ++ (l.take c).drop b := by
    have := congrArg (List.drop a) (take_append_drop b (l.take c)).symm
    rw [this]
    by_cases hlen : b ≤ (l.take c).length
    · rw [drop_append_of_le_length (by rw [length_take]; omega)]
    · rw [drop_eq_nil_of_le (i := b) (by omega), append_nil, append_nil]
  rw [hrest, hsplit]

theorem Request.drawStream_spec {tokenizer : Detokenizer D} {indexes : List Nat}
    {req req' : Request D} {outputs : List SequenceOutput}
    (hindex : ∀ (i : Nat) (seq : Sequence D), req.sequences[i]? = some seq → seq.index = i)
    (honerec : ∀ seq ∈ req.sequences, seq.isOnerecModel = false)
    (hoffset : ∀ seq ∈ req.sequences, seq.streamOutputTokenOffset ≤ seq.numValidTokens)
    (h : req.drawStream tokenizer indexes = .ok (outputs, req')) :
    req.Draws req' indexes outputs := by
  induction indexes generalizing req outputs with
  | nil =>
    cases h
    refine ⟨rfl, rfl, ?_⟩
    intro i seq seq' hseq hseq'
    rw [hseq, Option.some.injEq] at hseq'
    subst hseq'
    refine ⟨⟨seq.decoder, seq.streamOutputTokenOffset, rfl, le_rfl,
      hoffset seq (mem_of_getElem? hseq)⟩, nofun, ?_⟩
    rw [drop_eq_nil_of_le (by rw [length_take]; exact min_le_left _ _)]
    rfl
  | cons index indexes ih =>
    unfold drawStream at h
    cases hget : req.sequences[index]? with
    | none => rw [hget] at h; cases h
    | some seq =>
      rw [hget] at h
      obtain ⟨⟨output, drawn⟩, hdraw, h⟩ := bind_eq_ok.mp h
      rw [bind_eq_ok] at h
      obtain ⟨⟨rest, final⟩, hrest, h⟩ := h
      cases h
      have hmem := mem_of_getElem? hget
      obtain ⟨⟨decoder, rfl⟩, htokens, hout⟩ :=
        Sequence.generateStreamingOutput_spec (honerec seq hmem) hdraw
      have hlt : index < req.sequences.length := (List.getElem?_eq_some_iff.mp hget).1
      -- the other indexes are drawn from the sequences that this one left
      have hnext : ∀ (i : Nat) (other : Sequence D),
          (req.sequences.set index (seq.drawnTo decoder seq.numValidTokens))[i]? = some other →
          other.index = i ∧ other.isOnerecModel = false ∧
            other.streamOutputTokenOffset ≤ other.numValidTokens := by
        intro i other hother
        by_cases hi : i = index
        · subst hi
          rw [List.getElem?_set_self hlt, Option.some.injEq] at hother
          subst hother
          exact ⟨hindex i seq hget, honerec seq hmem, le_rfl⟩
        · rw [List.getElem?_set_ne (Ne.symm hi)] at hother
          have hmem' := mem_of_getElem? hother
          exact ⟨hindex i other hother, honerec other hmem', hoffset other hmem'⟩
      have hspec := ih (fun i other hother => (hnext i other hother).1)
        (fun other hother => by
          obtain ⟨i, hi⟩ := List.getElem?_of_mem hother
          exact (hnext i other hi).2.1)
        (fun other hother => by
          obtain ⟨i, hi⟩ := List.getElem?_of_mem hother
          exact (hnext i other hi).2.2) hrest
      refine ⟨hspec.rest, hspec.length.trans (length_set ..), ?_⟩
      intro i first last hfirst hlast
      rw [outputTokens_append]
      by_cases hi : i = index
      · subst hi
        rw [hget, Option.some.injEq] at hfirst
        subst hfirst
        obtain ⟨⟨decoder', offset, heq, hge, hle⟩, -, hmore⟩ :=
          hspec.drawn i _ last (List.getElem?_set_self hlt) hlast
        have hend : offset = seq.numValidTokens := le_antisymm hle hge
        have hlastOffset : last.streamOutputTokenOffset = seq.numValidTokens := by
          rw [heq, Sequence.drawnTo_offset, hend]
        refine ⟨⟨decoder', offset, heq, hend ▸ hoffset seq hmem, hle⟩, fun _ => hlastOffset, ?_⟩
        have hall : outputTokens output.toList i =
            seq.validTokens.drop seq.streamOutputTokenOffset := by
          unfold outputTokens
          rw [filter_eq_self.mpr fun out ho => decide_eq_true
            ((hout out ho).trans (hindex i seq hget))]
          exact htokens
        rw [hall, hmore, hlastOffset, Sequence.drawnTo_offset, Sequence.drawnTo_validTokens,
          Sequence.numValidTokens, take_length, drop_length, append_nil]
      · have hfirst' : (req.sequences.set index
            (seq.drawnTo decoder seq.numValidTokens))[i]? = some first := by
          rw [List.getElem?_set_ne (Ne.symm hi)]
          exact hfirst
        obtain ⟨hdrawn, hin, hmore⟩ := hspec.drawn i first last hfirst' hlast
        refine ⟨hdrawn, fun hmem' => hin ?_, ?_⟩
        · rcases mem_cons.mp hmem' with heq | hmem'
          · exact absurd heq hi
          · exact hmem'
        · have hnone : outputTokens output.toList i = [] := by
            unfold outputTokens
            rw [filter_eq_nil_iff.mpr]
            · rfl
            · intro out ho
              rw [decide_eq_true_eq, hout out ho, hindex index seq hget]
              exact Ne.symm hi
          rw [hnone, nil_append]
          exact hmore

/-! ## What can happen to a request -/

namespace Request

variable {req : Request D}

variable {sequences : List (Sequence D)}

theorem finished_of_sequences (hlength : sequences.length = req.sequences.length)
    (hfinished : ∀ seq' ∈ sequences, ∃ seq ∈ req.sequences,
      seq.finished = true → seq'.finished = true)
    (h : req.finished = true) : { req with sequences := sequences }.finished = true := by
  unfold finished at h ⊢
  rw [Bool.or_eq_true, Bool.and_eq_true, all_eq_true] at h ⊢
  refine h.imp_right fun ⟨hbest, hall⟩ => ⟨?_, fun seq' hseq' => ?_⟩
  · exact hlength ▸ hbest
  · obtain ⟨seq, hseq, hkeep⟩ := hfinished seq' hseq'
    exact hkeep (hall seq hseq)

theorem Ended.of_sequences (h : req.Ended) (hlength : sequences.length = req.sequences.length)
    (hkeep : ∀ seq' ∈ sequences, ∃ seq ∈ req.sequences,
      (seq.finished = true → seq'.finished = true) ∧ (seq.closed = true → seq'.closed = true)) :
    { req with sequences := sequences }.Ended := by
  refine h.imp_right fun h => h.imp_right fun ⟨hfinished, hclosed⟩ => ⟨?_, fun hstream => ?_⟩
  · refine finished_of_sequences hlength (fun seq' hseq' => ?_) hfinished
    obtain ⟨seq, hseq, hkept, -⟩ := hkeep seq' hseq'
    exact ⟨seq, hseq, hkept⟩
  · intro seq' hseq'
    obtain ⟨seq, hseq, -, hkept⟩ := hkeep seq' hseq'
    exact hkept (hclosed hstream seq hseq)

end Request

namespace Journey

variable {req : Request D} {tasks : List Task} {pipeline : List RequestOutput}

variable {seq seq' : Sequence D}

theorem streamedTokens_of_grows (hgrows : seq.Grows seq')
    (hoffset : seq.streamOutputTokenOffset ≤ seq.numValidTokens) :
    seq'.streamedTokens = seq.streamedTokens := by
  obtain ⟨rest, hrest⟩ := hgrows.validTokens
  unfold Sequence.streamedTokens Sequence.streamStart
  rw [hgrows.offset, hgrows.echo, hgrows.numPromptTokens, ← hrest,
    take_append_of_le_length hoffset]

theorem updateSequence (h : Journey req tasks pipeline) {index : Nat}
    (hget : req.sequences[index]? = some seq) (hgrows : seq.Grows seq')
    (herror : req.errorStatus = none) :
    Journey { req with sequences := req.sequences.set index seq' } tasks pipeline := by
  have hlt : index < req.sequences.length := (List.getElem?_eq_some_iff.mp hget).1
  -- every sequence grew, all but one by nothing
  have hall : ∀ (i : Nat) (other : Sequence D),
      (req.sequences.set index seq')[i]? = some other →
      ∃ first, req.sequences[i]? = some first ∧ (other = first ∨ first.Grows other) := by
    intro i other hother
    by_cases hi : i = index
    · subst hi
      rw [List.getElem?_set_self hlt, Option.some.injEq] at hother
      exact ⟨seq, hget, Or.inr (hother ▸ hgrows)⟩
    · rw [List.getElem?_set_ne (Ne.symm hi)] at hother
      exact ⟨other, hother, Or.inl rfl⟩
  have hmemAll : ∀ other ∈ req.sequences.set index seq',
      ∃ first ∈ req.sequences, other = first ∨ first.Grows other := by
    intro other hother
    obtain ⟨i, hi⟩ := List.getElem?_of_mem hother
    obtain ⟨first, hfirst, hsame⟩ := hall i other hi
    exact ⟨first, mem_of_getElem? hfirst, hsame⟩
  refine { h with
    index := fun i other hother => ?_
    offset := fun other hother => ?_
    ended := fun task htask hcompleted => ?_
    notOnerec := fun task htask hstream other hother => ?_
    tokens := fun hstream i other hother => ?_
    closed := fun i other hother hclosed => ?_
    success := fun output houtput status hstatus hok hstream other hother => ?_ }
  · obtain ⟨first, hfirst, rfl | hg⟩ := hall i other hother
    · exact h.index i _ hfirst
    · rw [hg.index]
      exact h.index i first hfirst
  · obtain ⟨first, hfirst, rfl | hg⟩ := hmemAll other hother
    · exact h.offset _ hfirst
    · obtain ⟨hprompt, hstart, hvalid⟩ := h.offset first hfirst
      refine ⟨hg.numPromptTokens ▸ hg.length, ?_, ?_⟩
      · unfold Sequence.streamStart
        rw [hg.echo, hg.numPromptTokens, hg.offset]
        exact hstart
      · rw [hg.offset]
        exact hvalid.trans hg.validTokens.length_le
  · refine (h.ended task htask hcompleted).of_sequences (length_set ..) fun other hother => ?_
    obtain ⟨first, hfirst, rfl | hg⟩ := hmemAll other hother
    · exact ⟨_, hfirst, id, id⟩
    · refine ⟨first, hfirst, fun hfinished => ?_, fun hclosed => hg.closed.trans hclosed⟩
      rw [hg.finished hfinished]
      exact hfinished
  · obtain ⟨first, hfirst, rfl | hg⟩ := hmemAll other hother
    · exact h.notOnerec task htask hstream _ hfirst
    · rw [hg.isOnerecModel]
      exact h.notOnerec task htask hstream first hfirst
  · obtain ⟨first, hfirst, rfl | hg⟩ := hall i other hother
    · exact h.tokens hstream i _ hfirst
    · rw [streamedTokens_of_grows hg (h.offset first (mem_of_getElem? hfirst)).2.2]
      exact h.tokens hstream i first hfirst
  · obtain ⟨first, hfirst, rfl | hg⟩ := hall i other hother
    · exact h.closed i _ hfirst hclosed
    · have hold := h.closed i first hfirst (hg.closed.symm.trans hclosed)
      -- a closed sequence is finished, and takes no more tokens
      have hfinished : first.finished = true := by
        have := hold.1
        unfold Request.sequenceFinished at this
        rw [herror] at this
        exact this
      rw [hg.finished hfinished]
      exact hold
  · obtain ⟨first, hfirst, rfl | hg⟩ := hmemAll other hother
    · exact h.success output houtput status hstatus hok hstream _ hfirst
    · have hold := h.success output houtput status hstatus hok hstream first hfirst
      rw [hg.finished hold.1]
      exact hold

variable {status : Status}

theorem fail (h : Journey req tasks pipeline) (hstatus : status.code ≠ .ok) :
    Journey { req with errorStatus := req.errorStatus.orElse fun _ => some status }
      tasks pipeline := by
  have hsome : (req.errorStatus.orElse fun _ => some status).isSome = true := by
    cases req.errorStatus <;> rfl
  refine { h with
    ended := fun _ _ _ => Or.inr (Or.inl hsome)
    error := fun kept hkept => ?_
    closed := fun i seq hseq hclosed => ⟨?_, (h.closed i seq hseq hclosed).2⟩ }
  · cases herror : req.errorStatus with
    | none =>
      rw [herror] at hkept
      cases hkept
      exact hstatus
    | some first =>
      rw [herror] at hkept
      exact h.error kept (herror.trans hkept)
  · unfold Request.sequenceFinished
    rw [hsome]
    rfl

theorem cancel (h : Journey req tasks pipeline) :
    Journey { req with cancelled := true } tasks pipeline :=
  { h with ended := fun _ _ _ => Or.inl rfl }

theorem withThread (h : Journey req tasks pipeline) (thread : Option Nat) :
    Journey { req with responseThreadId := thread } tasks pipeline :=
  { h with ended := h.ended }

variable {task : Task}

theorem ordered_concat
    (h : tasks.Pairwise fun task later => later.isStream = true → task.isStream = true)
    (hlast : task.isStream = true → ∀ earlier ∈ tasks, earlier.isStream = true) :
    (tasks ++ [task]).Pairwise fun task later => later.isStream = true → task.isStream = true := by
  rw [pairwise_append]
  refine ⟨h, pairwise_singleton _ _, fun earlier hearlier later hlater hstream => ?_⟩
  rw [mem_singleton] at hlater
  subst hlater
  exact hlast hstream earlier hearlier

theorem closeFinished_of_closed (hclosed : req.sequences.all Sequence.closed = true) :
    req.closeFinished = req := by
  have hsame : (req.sequences.map fun seq =>
      if !seq.closed && req.sequenceFinished seq then { seq with closed := true } else seq) =
      req.sequences := by
    rw [all_eq_true] at hclosed
    refine (map_congr_left fun seq hseq => ?_).trans (map_id _)
    rw [hclosed seq hseq]
    rfl
  unfold Request.closeFinished
  rw [hsame]

variable {i : Nat}

theorem closeFinished_get (h : req.closeFinished.sequences[i]? = some seq') :
    ∃ seq, req.sequences[i]? = some seq ∧ (seq' = seq ∨ seq.closed = false ∧
      req.sequenceFinished seq = true ∧ seq' = { seq with closed := true }) := by
  unfold Request.closeFinished at h
  rw [List.getElem?_map, Option.map_eq_some_iff] at h
  obtain ⟨seq, hseq, hsame⟩ := h
  refine ⟨seq, hseq, ?_⟩
  split at hsame
  · next hclose =>
    rw [Bool.and_eq_true, Bool.not_eq_true'] at hclose
    exact Or.inr ⟨hclose.1, hclose.2, hsame.symm⟩
  · exact Or.inl hsame.symm

theorem mem_streamIndexes (hget : req.sequences[i]? = some seq)
    (hopen : seq.closed = false) (hfinished : req.sequenceFinished seq = true) :
    i ∈ req.streamIndexes := by
  refine mem_map.mpr ⟨(seq, i), mem_filter.mpr ⟨?_, ?_⟩, rfl⟩
  · rw [mem_zipIdx_iff_getElem?]
    exact hget
  · show (!seq.closed && (seq.hasNewTokensGenerated || req.sequenceFinished seq)) = true
    rw [hopen, hfinished, Bool.or_true]
    rfl

/-- A delta joins the queue and closes the sequences that it is the last one of. -/
theorem notifyStream (h : Journey req tasks pipeline) (hrequested : req.terminalRequested = false)
    (honerec : ∀ seq ∈ req.sequences, seq.isOnerecModel = false) (hstream : task.isStream = true)
    (hindexes : task.indexes = req.streamIndexes) :
    Journey req.closeFinished (tasks ++ [task]) pipeline := by
  have hnot : req.terminalRequested ≠ true := by
    rw [hrequested]
    exact nofun
  have hdeltas : ∀ earlier ∈ tasks, earlier.isStream = true := by
    intro earlier hearlier
    by_contra hterminal
    rw [Bool.not_eq_true] at hterminal
    exact hnot (h.terminal earlier hearlier hterminal)
  have hrunning : req.terminalOutcome = .none := by
    by_contra hover
    exact hnot (h.isOver hover).1
  have hlength : req.closeFinished.sequences.length = req.sequences.length := length_map _
  have hmemAll : ∀ seq' ∈ req.closeFinished.sequences, ∃ seq ∈ req.sequences, seq' = seq ∨
      seq' = { seq with closed := true } := by
    intro seq' hseq'
    obtain ⟨i, hi⟩ := List.getElem?_of_mem hseq'
    obtain ⟨seq, hseq, hsame⟩ := closeFinished_get hi
    exact ⟨seq, mem_of_getElem? hseq, hsame.imp_right fun hsame => hsame.2.2⟩
  refine {
    index := fun i seq' hseq' => ?_
    offset := fun seq' hseq' => ?_
    ordered := ordered_concat h.ordered fun _ => hdeltas
    terminal := fun other hother hterminal => ?_
    kind := h.kind
    running := h.running
    isOver := fun hover => absurd hrunning hover
    requested := fun hreq => absurd hreq hnot
    ended := fun other hother hcompleted => ?_
    failed := fun request status hother => ?_
    error := h.error
    notOnerec := fun _ _ _ seq' hseq' => ?_
    tokens := fun hstream i seq' hseq' => ?_
    closed := fun i seq' hseq' hclosed => ?_
    success := fun output houtput status hstatus hok hstream' seq' hseq' => ?_ }
  · obtain ⟨seq, hseq, rfl | ⟨-, -, rfl⟩⟩ := closeFinished_get hseq'
    · exact h.index i _ hseq
    · exact h.index i seq hseq
  · obtain ⟨seq, hseq, rfl | rfl⟩ := hmemAll seq' hseq'
    · exact h.offset _ hseq
    · exact h.offset seq hseq
  · rcases mem_append.mp hother with hother | hother
    · exact h.terminal other hother hterminal
    · rw [mem_singleton] at hother
      subst hother
      rw [hstream] at hterminal
      cases hterminal
  · rcases mem_append.mp hother with hother | hother
    · refine (h.ended other hother hcompleted).of_sequences hlength fun seq' hseq' => ?_
      obtain ⟨seq, hseq, rfl | rfl⟩ := hmemAll seq' hseq'
      · exact ⟨_, hseq, id, id⟩
      · exact ⟨seq, hseq, id, fun _ => rfl⟩
    · rw [mem_singleton] at hother
      rw [hother, Task.isCompleted_eq_false hstream] at hcompleted
      cases hcompleted
  · rcases mem_append.mp hother with hother | hother
    · exact h.failed request status hother
    · rw [mem_singleton] at hother
      rw [← hother] at hstream
      cases hstream
  · obtain ⟨seq, hseq, rfl | rfl⟩ := hmemAll seq' hseq'
    · exact honerec _ hseq
    · exact honerec seq hseq
  · obtain ⟨seq, hseq, rfl | ⟨-, -, rfl⟩⟩ := closeFinished_get hseq'
    · exact h.tokens hstream i _ hseq
    · exact h.tokens hstream i seq hseq
  · obtain ⟨seq, hseq, rfl | ⟨hopen, hfinished, rfl⟩⟩ := closeFinished_get hseq'
    · obtain ⟨hfinished, hdrained | ⟨other, hother, hi⟩⟩ := h.closed i _ hseq hclosed
      · exact ⟨hfinished, Or.inl hdrained⟩
      · exact ⟨hfinished, Or.inr ⟨other, mem_append_left _ hother, hi⟩⟩
    · refine ⟨hfinished, Or.inr ⟨task, mem_append_right _ (mem_singleton_self _), ?_⟩⟩
      rw [hindexes]
      exact mem_streamIndexes hseq hopen hfinished
  · have hrun := h.running hrunning output houtput
    rw [h.kind output houtput, hstatus] at hrun
    cases hrun

theorem notifyTerminal (h : Journey req tasks pipeline)
    (hterminal : task.isStream = false) (hended : task.isCompleted = true → req.Ended)
    (hfailed : ∀ request status, task = .failed request status → status.code ≠ .ok) :
    Journey { req with terminalRequested := true } (tasks ++ [task]) pipeline := by
  refine { h with
    ordered := ordered_concat h.ordered fun hstream => ?_
    terminal := fun _ _ _ => rfl
    isOver := fun hover => ?_
    requested := fun _ => Or.inr ⟨task, mem_append_right _ (mem_singleton_self _),
      hterminal⟩
    ended := fun other hother hcompleted => ?_
    failed := fun request status hother => ?_
    notOnerec := fun other hother hstream => ?_
    closed := fun i seq hseq hclosed => ?_ }
  · rw [hterminal] at hstream
    cases hstream
  · obtain ⟨-, htasks, hpipeline⟩ := h.isOver hover
    refine ⟨rfl, fun other hother => ?_, hpipeline⟩
    rcases mem_append.mp hother with hother | hother
    · exact htasks other hother
    · rw [mem_singleton] at hother
      rw [hother]
      exact hterminal
  · rcases mem_append.mp hother with hother | hother
    · exact h.ended other hother hcompleted
    · rw [mem_singleton] at hother
      exact hended (hother ▸ hcompleted)
  · rcases mem_append.mp hother with hother | hother
    · exact h.failed request status hother
    · rw [mem_singleton] at hother
      exact hfailed request status hother.symm
  · rcases mem_append.mp hother with hother | hother
    · exact h.notOnerec other hother hstream
    · rw [mem_singleton] at hother
      rw [hother, hterminal] at hstream
      cases hstream
  · obtain ⟨hfinished, hdrained | ⟨other, hother, hi⟩⟩ := h.closed i seq hseq hclosed
    · exact ⟨hfinished, Or.inl hdrained⟩
    · exact ⟨hfinished, Or.inr ⟨other, mem_append_left _ hother, hi⟩⟩

variable {output : RequestOutput}

/-- The oldest delta is drawn: its tokens move from what is owed to the pipeline. -/
theorem draw {req' : Request D}
    (h : Journey req (task :: tasks) pipeline) (hstream : task.isStream = true)
    (hdraws : req.Draws req' task.indexes output.outputs) (hdelta : output.status = none)
    (hopen : output.isTerminal = false) : Journey req' tasks (pipeline ++ [output]) := by
  obtain ⟨hrest, hlength, hdrawn⟩ := hdraws
  have hrunning : req.terminalOutcome = .none := by
    by_contra hover
    have := (h.isOver hover).2.1 task mem_cons_self
    rw [hstream] at this
    cases this
  have hget : ∀ (i : Nat) (seq' : Sequence D), req'.sequences[i]? = some seq' →
      ∃ seq, req.sequences[i]? = some seq := by
    intro i seq' hseq'
    have hlt := (List.getElem?_eq_some_iff.mp hseq').1
    rw [hlength] at hlt
    exact ⟨_, List.getElem?_eq_getElem hlt⟩
  have hmemAll : ∀ seq' ∈ req'.sequences, ∃ seq ∈ req.sequences, seq.Drawn seq' := by
    intro seq' hseq'
    obtain ⟨i, hi⟩ := List.getElem?_of_mem hseq'
    obtain ⟨seq, hseq⟩ := hget i seq' hi
    exact ⟨seq, mem_of_getElem? hseq, (hdrawn i seq seq' hseq hi).1⟩
  have hkind : ∀ other ∈ pipeline ++ [output],
      other.isTerminal = other.status.isSome ∧ other.isTerminal = false := by
    intro other hother
    rcases mem_append.mp hother with hother | hother
    · exact ⟨h.kind other hother, h.running hrunning other hother⟩
    · rw [mem_singleton] at hother
      rw [hother, hopen, hdelta]
      exact ⟨rfl, rfl⟩
  rw [hrest]
  refine {
    index := fun i seq' hseq' => ?_
    offset := fun seq' hseq' => ?_
    ordered := (pairwise_cons.mp h.ordered).2
    terminal := fun other hother => h.terminal other (mem_cons_of_mem _ hother)
    kind := fun other hother => (hkind other hother).1
    running := fun _ other hother => (hkind other hother).2
    isOver := fun hover => absurd hrunning hover
    requested := fun hreq => ?_
    ended := fun other hother hcompleted => ?_
    failed := fun request status hother => h.failed request status (mem_cons_of_mem _ hother)
    error := h.error
    notOnerec := fun other hother hother' seq' hseq' => ?_
    tokens := fun hstreams i seq' hseq' => ?_
    closed := fun i seq' hseq' hclosed => ?_
    success := fun other hother status hstatus => ?_ }
  · obtain ⟨seq, hseq⟩ := hget i seq' hseq'
    obtain ⟨⟨decoder, offset, rfl, -⟩, -⟩ := hdrawn i seq seq' hseq hseq'
    exact h.index i seq hseq
  · obtain ⟨seq, hseq, decoder, offset, rfl, hge, hle⟩ := hmemAll seq' hseq'
    obtain ⟨hprompt, hstart, -⟩ := h.offset seq hseq
    exact ⟨hprompt, hstart.trans hge, hle⟩
  · rcases h.requested hreq with hover | ⟨other, hother, hterminal⟩
    · exact absurd hrunning hover
    · rcases mem_cons.mp hother with heq | hother
      · rw [heq, hstream] at hterminal
        cases hterminal
      · exact Or.inr ⟨other, hother, hterminal⟩
  · refine (h.ended other (mem_cons_of_mem _ hother) hcompleted).of_sequences hlength ?_
    intro seq' hseq'
    obtain ⟨seq, hseq, decoder, offset, rfl, -⟩ := hmemAll seq' hseq'
    exact ⟨seq, hseq, id, id⟩
  · obtain ⟨seq, hseq, decoder, offset, rfl, -⟩ := hmemAll seq' hseq'
    exact h.notOnerec other (mem_cons_of_mem _ hother) hother' seq hseq
  · obtain ⟨seq, hseq⟩ := hget i seq' hseq'
    obtain ⟨⟨decoder, offset, rfl, hge, -⟩, -, htokens⟩ := hdrawn i seq seq' hseq hseq'
    rw [deltaTokens_concat, h.tokens hstreams i seq hseq, htokens]
    exact drop_take_append (h.offset seq (mem_of_getElem? hseq)).2.1 hge
  · obtain ⟨seq, hseq⟩ := hget i seq' hseq'
    obtain ⟨⟨decoder, offset, rfl, hge, hle⟩, hin, -⟩ := hdrawn i seq seq' hseq hseq'
    obtain ⟨hfinished, hdrained | ⟨other, hother, hi⟩⟩ := h.closed i seq hseq hclosed
    · exact ⟨hfinished, Or.inl (le_antisymm hle (hdrained ▸ hge))⟩
    · rcases mem_cons.mp hother with heq | hother
      · exact ⟨hfinished, Or.inl (hin (heq ▸ hi))⟩
      · exact ⟨hfinished, Or.inr ⟨other, hother, hi⟩⟩
  · obtain ⟨hsome, hnone⟩ := hkind other hother
    rw [hsome, hstatus] at hnone
    cases hnone

theorem discard (h : Journey req (task :: tasks) pipeline)
    (hover : req.terminalOutcome ≠ .none) : Journey req tasks pipeline := by
  have htask := (h.isOver hover).2.1 task mem_cons_self
  refine { h with
    ordered := (pairwise_cons.mp h.ordered).2
    terminal := fun other hother => h.terminal other (mem_cons_of_mem _ hother)
    isOver := fun _ => ?_
    requested := fun _ => Or.inl hover
    ended := fun other hother => h.ended other (mem_cons_of_mem _ hother)
    failed := fun request status hother => h.failed request status (mem_cons_of_mem _ hother)
    notOnerec := fun other hother => h.notOnerec other (mem_cons_of_mem _ hother)
    closed := fun i seq hseq hclosed => ?_ }
  · obtain ⟨hrequested, htasks, hpipeline⟩ := h.isOver hover
    exact ⟨hrequested, fun other hother => htasks other (mem_cons_of_mem _ hother), hpipeline⟩
  · obtain ⟨hfinished, hdrained | ⟨other, hother, hi⟩⟩ := h.closed i seq hseq hclosed
    · exact ⟨hfinished, Or.inl hdrained⟩
    · rcases mem_cons.mp hother with heq | hother
      · rw [heq, Task.indexes_eq_nil htask] at hi
        cases hi
      · exact ⟨hfinished, Or.inr ⟨other, hother, hi⟩⟩

/-- The terminal task runs: no delta is behind it, so what was closed has been drawn. -/
theorem finish (h : Journey req (task :: tasks) pipeline)
    (htask : task.isStream = false) {outcome : TerminalOutcome} (houtcome : outcome ≠ .none)
    (hopen : req.terminalOutcome = .none)
    (hterminal : output.isTerminal = true) (hstatus : output.status.isSome = true)
    (hno : req.stream = true → ∀ i, outputTokens output.outputs i = [])
    (hsuccess : ∀ status, output.status = some status → status.code = .ok → req.stream = true →
      ∀ seq ∈ req.sequences, seq.finished = true ∧ seq.closed = true) :
    Journey { req with terminalOutcome := outcome } tasks (pipeline ++ [output]) := by
  have hlater : ∀ other ∈ tasks, other.isStream = false := by
    intro other hother
    by_contra hstream
    rw [Bool.not_eq_false] at hstream
    have := (pairwise_cons.mp h.ordered).1 other hother hstream
    rw [htask] at this
    cases this
  have hclosed : ∀ (i : Nat) (seq : Sequence D), req.sequences[i]? = some seq →
      seq.closed = true → req.sequenceFinished seq = true ∧
        seq.streamOutputTokenOffset = seq.numValidTokens := by
    intro i seq hseq hclosed
    obtain ⟨hfinished, hdrained | ⟨other, hother, hi⟩⟩ := h.closed i seq hseq hclosed
    · exact ⟨hfinished, hdrained⟩
    · have hnone : other.isStream = false := by
        rcases mem_cons.mp hother with heq | hother
        · rw [heq]
          exact htask
        · exact hlater other hother
      rw [Task.indexes_eq_nil hnone] at hi
      cases hi
  refine { h with
    ordered := (pairwise_cons.mp h.ordered).2
    terminal := fun other hother => h.terminal other (mem_cons_of_mem _ hother)
    kind := fun other hother => ?_
    running := fun hrunning => absurd hrunning houtcome
    isOver := fun _ => ⟨h.terminal task mem_cons_self htask, hlater, pipeline, output, rfl,
      hterminal, h.running hopen⟩
    requested := fun _ => Or.inl houtcome
    ended := fun other hother => h.ended other (mem_cons_of_mem _ hother)
    failed := fun request status hother => h.failed request status (mem_cons_of_mem _ hother)
    notOnerec := fun other hother => h.notOnerec other (mem_cons_of_mem _ hother)
    tokens := fun hstream i seq hseq => ?_
    closed := fun i seq hseq hseqClosed =>
      ⟨(hclosed i seq hseq hseqClosed).1, Or.inl (hclosed i seq hseq hseqClosed).2⟩
    success := fun other hother status hstatus' hok hstream seq hseq => ?_ }
  · rcases mem_append.mp hother with hother | hother
    · exact h.kind other hother
    · rw [mem_singleton] at hother
      rw [hother, hterminal, hstatus]
  · rw [deltaTokens_concat, hno hstream i, append_nil]
    exact h.tokens hstream i seq hseq
  · rcases mem_append.mp hother with hother | hother
    · have := h.running hopen other hother
      rw [h.kind other hother, hstatus'] at this
      cases this
    · rw [mem_singleton] at hother
      rw [hother] at hstatus'
      obtain ⟨hfinished, hseqClosed⟩ := hsuccess status hstatus' hok hstream seq hseq
      obtain ⟨i, hi⟩ := List.getElem?_of_mem hseq
      exact ⟨hfinished, (hclosed i seq hi hseqClosed).2⟩

theorem outcomeFor_failed (hstatus : status.code ≠ .ok) :
    req.outcomeFor (some status) ≠ .none := by
  unfold Request.outcomeFor
  dsimp only
  rw [if_pos hstatus]
  split
  · exact nofun
  · exact nofun

variable {requestId : Nat}

theorem runFailed {request : Nat} (h : Journey req (.failed request status :: tasks) pipeline) :
    Journey (Processor.prepareFailedOutput requestId req status).2 tasks
      (pipeline ++ (Processor.prepareFailedOutput requestId req status).1.toList) := by
  have hcode := h.failed request status mem_cons_self
  have houtcome : req.outcomeFor (some status) ≠ .none := outcomeFor_failed hcode
  unfold Processor.prepareFailedOutput Request.claimTerminalOutcome
  rw [if_neg houtcome]
  by_cases hopen : req.terminalOutcome = .none
  · rw [if_pos hopen]
    have hterminal : decide (status.code ≠ .ok) = true := decide_eq_true hcode
    refine h.finish rfl houtcome hopen hterminal rfl (fun _ _ => rfl) ?_
    intro kept hkept hok
    cases hkept
    exact absurd hok hcode
  · rw [if_neg hopen]
    rw [if_neg (by exact nofun), Option.toList_none, append_nil]
    exact h.discard hopen

/-- The terminal output by how the request ended: an error, a cancellation, or every sequence
done. -/
theorem generateOutput_spec (tokenizer : Detokenizer D) (requestId : Nat) (hended : req.Ended)
    (herror : ∀ status, req.errorStatus = some status → status.code ≠ .ok) :
    (req.generateOutput tokenizer requestId).isTerminal = true ∧
      (req.generateOutput tokenizer requestId).status.isSome = true ∧
      req.outcomeFor (req.generateOutput tokenizer requestId).status ≠ .none ∧
      (req.stream = true →
        ∀ i, outputTokens (req.generateOutput tokenizer requestId).outputs i = []) ∧
      ∀ status, (req.generateOutput tokenizer requestId).status = some status →
        status.code = .ok → req.stream = true →
        ∀ seq ∈ req.sequences, seq.finished = true ∧ seq.closed = true := by
  unfold Request.generateOutput
  cases hstatus : req.errorStatus with
  | some status =>
    refine ⟨?_, rfl, outcomeFor_failed (herror status hstatus), fun _ _ => rfl, ?_⟩
    · show (req.finished || req.cancelled || decide (status.code ≠ .ok)) = true
      rw [decide_eq_true (herror status hstatus), Bool.or_true]
    intro kept hkept hok
    cases hkept
    exact absurd hok (herror status hstatus)
  | none =>
    dsimp only
    by_cases hcancelled : req.cancelled = true
    · rw [if_pos hcancelled]
      refine ⟨?_, rfl, outcomeFor_failed (by exact nofun), fun _ _ => rfl, ?_⟩
      · show (req.finished || req.cancelled || true) = true
        rw [Bool.or_true]
      intro kept hkept hok
      cases hkept
      cases hok
    · rw [if_neg hcancelled]
      have hdone : req.finished = true ∧
          (req.stream = true → ∀ seq ∈ req.sequences, seq.closed = true) := by
        rcases hended with hended | hended | hended
        · exact absurd hended hcancelled
        · rw [hstatus] at hended
          cases hended
        · exact hended
      refine ⟨?_, rfl, ?_, fun hstream i => ?_, fun _ _ _ hstream seq hseq => ?_⟩
      · rw [hdone.1]
        rfl
      · unfold Request.outcomeFor
        dsimp only
        rw [if_neg (by exact fun hne => hne rfl), if_neg hcancelled, if_pos hdone.1]
        exact nofun
      · rw [if_pos hstream]
        unfold outputTokens
        rw [flatMap_eq_nil_iff]
        intro out hout
        obtain ⟨seq, -, rfl⟩ := mem_map.mp (mem_filter.mp hout).1
        rfl
      · refine ⟨?_, hdone.2 hstream seq hseq⟩
        have hfinished := hdone.1
        unfold Request.finished at hfinished
        rw [hstatus, Option.isSome_none, Bool.false_or, Bool.and_eq_true, all_eq_true]
          at hfinished
        exact hfinished.2 seq hseq

theorem runCompleted {p : Processor D}
    (h : Journey req (task :: tasks) pipeline) (htask : task.isCompleted = true) :
    Journey (p.prepareCompletedOutput requestId req).2 tasks
      (pipeline ++ (p.prepareCompletedOutput requestId req).1.toList) := by
  have hterminal : task.isStream = false := by
    by_contra hstream
    rw [Bool.not_eq_false] at hstream
    rw [Task.isCompleted_eq_false hstream] at htask
    cases htask
  unfold Processor.prepareCompletedOutput Request.hasTerminalOutcome
  by_cases hopen : req.terminalOutcome = .none
  · obtain ⟨hterminal', hsome, houtcome, hno, hsuccess⟩ := generateOutput_spec p.tokenizer requestId
      (h.ended task mem_cons_self htask) h.error
    rw [if_neg (by rw [hopen]; exact nofun)]
    unfold Request.claimTerminalOutcome
    dsimp only
    rw [if_neg houtcome, if_pos hopen]
    exact h.finish hterminal houtcome hopen hterminal' hsome hno hsuccess
  · rw [if_pos (by exact decide_eq_true hopen), Option.toList_none, append_nil]
    exact h.discard hopen

end Journey

end Xllm.Scheduler.Response
