import Xllm.Scheduler.ResponseRuns

/-!
# What the clients receive

The scheduler keeps its side: it streams a request only before its terminal notifications, and
completes one that has ended. Then a request's client gets one terminal response at the end, and
before it the tokens in order, over every run in which no failure overtakes a delta. One that does
ends the request while tokens of it still wait for the RPC thread, which then sends them.
-/

namespace Xllm.Scheduler.Response

open Xllm.Lib List
open Xllm.Request (Status StatusCode)

variable {D : Type} {p : Processor D} {s s' : State D}

/-! ## Runs -/

/-- A sequence that nothing has been streamed of. -/
def Sequence.Fresh (seq : Sequence D) : Prop :=
  seq.numPromptTokens ≤ seq.tokens.length ∧ seq.streamOutputTokenOffset = seq.streamStart ∧
    seq.closed = false

/-- A request that no notification has named. -/
structure Request.Fresh (req : Request D) : Prop where
  index : ∀ (i : Nat) (seq : Sequence D), req.sequences[i]? = some seq → seq.index = i
  sequences : ∀ seq ∈ req.sequences, seq.Fresh
  outcome : req.terminalOutcome = .none
  terminalRequested : req.terminalRequested = false
  error : ∀ status, req.errorStatus = some status → status.code ≠ .ok

/-- The processor before its first notification. -/
structure Start (s : State D) : Prop where
  responseQueues : ∀ thread, s.responseQueues thread = []
  rpcQueue : s.rpcQueue = []
  slots : ∀ slot, s.slots slot = none
  received : ∀ request, s.received request = []
  requests : ∀ request, (s.requests request).Fresh

/-- What the scheduler promises: deltas come before the terminal responses, a completed request has
ended, and a failure is none that says ok. -/
def Scheduled (s : State D) : Action → Prop
  | .fail _ status => status.code ≠ .ok
  | .notifyStream requests => ∀ request ∈ requests, (s.requests request).Streams
  | .notifyCompleted requests => ∀ request ∈ requests, (s.requests request).Ended
  | .notifyFailed _ status => status.code ≠ .ok
  | _ => True

instance (req : Request D) : Decidable req.Streams :=
  inferInstanceAs (Decidable (_ ∧ ∀ seq ∈ req.sequences, _))

instance (req : Request D) : Decidable req.Ended :=
  inferInstanceAs (Decidable (_ ∨ _ ∨ (_ ∧ (_ → ∀ seq ∈ req.sequences, seq.closed = true))))

instance (s : State D) : DecidablePred (Scheduled s)
  | .append .. | .commit .. | .cancel .. | .respond .. | .rpc .. => isTrue trivial
  | .fail _ status | .notifyFailed _ status => inferInstanceAs (Decidable (status.code ≠ .ok))
  | .notifyStream requests =>
    inferInstanceAs (Decidable (∀ request ∈ requests, (s.requests request).Streams))
  | .notifyCompleted requests =>
    inferInstanceAs (Decidable (∀ request ∈ requests, (s.requests request).Ended))

theorem Request.Fresh.journey {req : Request D} (h : req.Fresh) : Journey req [] [] where
  index := h.index
  offset seq hseq := by
    obtain ⟨hprompt, hoffset, -⟩ := h.sequences seq hseq
    refine ⟨hprompt, hoffset.ge, ?_⟩
    rw [hoffset]
    unfold Sequence.streamStart
    split
    · exact Nat.zero_le _
    · exact Sequence.numPromptTokens_le hprompt
  ordered := List.Pairwise.nil
  terminal _ htask := nomatch htask
  kind _ houtput := nomatch houtput
  running _ _ houtput := nomatch houtput
  isOver hover := absurd h.outcome hover
  requested hrequested := by
    rw [h.terminalRequested] at hrequested
    cases hrequested
  ended _ htask := nomatch htask
  failed _ _ htask := nomatch htask
  error := h.error
  notOnerec _ htask := nomatch htask
  tokens _ i seq hseq := by
    obtain ⟨-, hoffset, -⟩ := h.sequences seq (mem_of_getElem? hseq)
    unfold Sequence.streamedTokens
    rw [hoffset, drop_eq_nil_of_le (length_take_le _ _)]
    rfl
  closed i seq hseq hclosed := by
    obtain ⟨-, -, hopen⟩ := h.sequences seq (mem_of_getElem? hseq)
    rw [hopen] at hclosed
    cases hclosed
  success _ houtput := nomatch houtput

theorem Start.inv (h : Start s) : Inv p s [] := by
  have htasks : ∀ request, s.tasksOf request = [] := by
    intro request
    unfold State.tasksOf
    cases (s.requests request).responseThreadId with
    | none => rfl
    | some thread =>
      dsimp only
      rw [h.responseQueues]
      rfl
  have hentries : s.entriesOf [] = [] := by
    unfold State.entriesOf
    rw [h.rpcQueue]
    rfl
  have hslots : ∀ request, s.slotsOf [] request = [] := by
    intro request
    unfold State.slotsOf
    rw [hentries]
    rfl
  have hwaiting : ∀ request, s.waitingOf request = [] := by
    intro request
    unfold State.waitingOf
    rw [htasks]
    rfl
  refine ⟨{
    threads := fun thread task htask => ?_
    order := fun request => ⟨[], ?_, nofun⟩
    empty := fun request slot hslot => h.slots slot
    distinct := ?_
    allocated := fun entry hentry => ?_
    fresh := fun slot _ => h.slots slot
    batched := fun entry hentry => ?_
    single := fun thread task htask => ?_ }, fun request => ?_⟩
  · rw [h.responseQueues] at htask
    cases htask
  · rw [hslots, hwaiting]
    rfl
  · rw [hentries]
    exact nodup_nil
  · rw [hentries] at hentry
    cases hentry
  · rw [hentries] at hentry
    cases hentry
  · rw [h.responseQueues] at htask
    cases htask
  · have hpipeline : s.pipelineOf [] request = [] := by
      unfold State.pipelineOf
      rw [h.received, hslots]
      rfl
    rw [htasks, hpipeline]
    exact (h.requests request).journey

theorem Inv.updateSequence (h : Inv p s []) {request index : Nat}
    {f : Sequence D → Except ResponseCheck (Sequence D)}
    (hgrows : ∀ seq seq' : Sequence D, seq.numPromptTokens ≤ seq.tokens.length →
      f seq = .ok seq' → seq.Grows seq')
    (hstep : Processor.updateSequence s request index f = .ok s') : Inv p s' [] := by
  unfold Processor.updateSequence at hstep
  dsimp only at hstep
  split at hstep
  · cases hstep
  · next hopen =>
    cases hget : (s.requests request).sequences[index]? with
    | none => rw [hget] at hstep; cases hstep
    | some seq =>
      rw [hget] at hstep
      obtain ⟨seq', hseq', hstep⟩ := bind_eq_ok.mp hstep
      cases hstep
      have hjourney := h.journey request
      have hprompt := (hjourney.offset seq (mem_of_getElem? hget)).1
      have herror : (s.requests request).errorStatus = none := by
        rw [Bool.not_eq_true] at hopen
        exact Option.isSome_eq_false_iff.mp hopen |> Option.isNone_iff_eq_none.mp
      exact h.updateRequest ⟨rfl, rfl⟩
        (hjourney.updateSequence hget (hgrows seq seq' hprompt hseq') herror)

theorem Inv.step (h : Inv p s []) {action : Action} (hscheduled : Scheduled s action)
    (hovertaken : NotOvertaken s action) (hstep : p.step s action = .ok s') : Inv p s' [] := by
  cases action with
  | append request index token finish =>
    exact h.updateSequence (fun _ _ => Sequence.appendToken_grows) hstep
  | commit request index tokens finish =>
    exact h.updateSequence (fun _ _ => Sequence.updateLastStepTokens_grows) hstep
  | fail request status =>
    cases hstep
    exact h.updateRequest ⟨rfl, rfl⟩ ((h.journey request).fail hscheduled)
  | cancel request =>
    cases hstep
    exact (h.withCancelQueue _).updateRequest ⟨rfl, rfl⟩ (h.journey request).cancel
  | notifyStream requests => exact h.processStreamRequests hscheduled hstep
  | notifyCompleted requests =>
    cases hstep
    exact h.processCompletedRequests hscheduled
  | notifyFailed request status =>
    cases hstep
    exact h.processFailedRequest hscheduled
  | respond thread goesOn => exact h.respond hovertaken hstep
  | rpc goOn => exact h.rpc hstep

theorem inv_of_reaches {actions : List Action} (hstart : Start s)
    (run : ReachesWith p.step (fun s action => Scheduled s action ∧ NotOvertaken s action)
      s actions s') : Inv p s' [] :=
  run.invariant (I := fun s => Inv p s []) (fun _ _ _ h hok hstep => h.step hok.1 hok.2 hstep)
    hstart.inv

/-! ## Delivery -/

/-- What the client of a request has received, in a state of a run. -/
structure Delivered (s : State D) (request : Nat) : Prop where
  /-- Nothing comes after a terminal response, which so is the only one. -/
  last : ∀ output ∈ (s.received request).dropLast, output.isTerminal = false
  /-- When nothing is left to do, a request with a terminal notification has had its response. -/
  ends : s.Idle → (s.requests request).terminalRequested = true →
    ∃ deltas output, s.received request = deltas ++ [output] ∧ output.isTerminal = true ∧
      ∀ delta ∈ deltas, delta.isTerminal = false
  /-- The deltas of a sequence are its tokens, in order. -/
  deltas : (s.requests request).stream = true → ∀ (i : Nat) (seq : Sequence D),
    (s.requests request).sequences[i]? = some seq →
    deltaTokens (s.received request) i <+: seq.committedTokens
  /-- A request that ended successfully has had all of them. -/
  whole : ∀ output ∈ s.received request, ∀ status, output.status = some status →
    status.code = .ok → (s.requests request).stream = true → ∀ (i : Nat) (seq : Sequence D),
    (s.requests request).sequences[i]? = some seq →
    deltaTokens (s.received request) i = seq.committedTokens

/-- The outputs that are sent first have the first tokens. -/
theorem deltaTokens_isPrefix {outputs outputs' : List RequestOutput} (h : outputs <+: outputs')
    (index : Nat) : deltaTokens outputs index <+: deltaTokens outputs' index := by
  obtain ⟨rest, rfl⟩ := h
  rw [deltaTokens_append]
  exact prefix_append _ _

theorem Journey.dropLast {req : Request D} {tasks : List Task} {pipeline : List RequestOutput}
    (h : Journey req tasks pipeline) : ∀ output ∈ pipeline.dropLast, output.isTerminal = false := by
  intro output houtput
  by_cases hopen : req.terminalOutcome = .none
  · exact h.running hopen output (mem_of_mem_dropLast houtput)
  · obtain ⟨-, -, deltas, last, hpipeline, -, hdeltas⟩ := h.isOver hopen
    rw [hpipeline, dropLast_concat] at houtput
    exact hdeltas output houtput

/-- With the invariant, the clients have received what they should. -/
theorem Inv.delivered (h : Inv p s []) (request : Nat) : Delivered s request := by
  have hjourney := h.journey request
  have hreceived : s.received request <+: s.pipelineOf [] request := prefix_append _ _
  refine ⟨fun output houtput => ?_, fun hidle hrequested => ?_, fun hstream i seq hseq => ?_,
    fun output houtput status hstatus hok hstream i seq hseq => ?_⟩
  · apply hjourney.dropLast output
    unfold State.pipelineOf
    by_cases hwaiting : State.outputsIn s.slots (s.slotsOf [] request) = []
    · rw [hwaiting, append_nil]
      exact houtput
    · rw [dropLast_append_of_ne_nil hwaiting]
      exact mem_append_left _ (mem_of_mem_dropLast houtput)
  · -- no task is left that could claim the outcome, so one has
    have htasks : s.tasksOf request = [] := by
      unfold State.tasksOf
      cases (s.requests request).responseThreadId with
      | none => rfl
      | some thread =>
        dsimp only
        rw [hidle.1]
        rfl
    have hslots : s.slotsOf [] request = [] := by
      unfold State.slotsOf State.entriesOf
      rw [hidle.2]
      rfl
    have hpipeline : s.pipelineOf [] request = s.received request := by
      unfold State.pipelineOf
      rw [hslots]
      exact append_nil _
    rw [htasks, hpipeline] at hjourney
    rcases hjourney.requested hrequested with hover | ⟨task, htask, -⟩
    · exact (hjourney.isOver hover).2.2
    · cases htask
  · have htokens := hjourney.tokens hstream i seq hseq
    have hdeltas := deltaTokens_isPrefix hreceived i
    rw [htokens] at hdeltas
    exact hdeltas.trans seq.streamedTokens_isPrefix
  · have htokens := hjourney.tokens hstream i seq hseq
    have hmem : output ∈ s.pipelineOf [] request := hreceived.subset houtput
    have hdrained := (hjourney.success output hmem status hstatus hok hstream seq
      (mem_of_getElem? hseq)).2
    rw [Sequence.streamedTokens_of_drained hdrained] at htokens
    rw [← htokens]
    -- nothing waits behind a terminal response
    have hover : (s.requests request).terminalOutcome ≠ .none := by
      intro hopen
      have hterminal := hjourney.running hopen output hmem
      rw [hjourney.kind output hmem, hstatus] at hterminal
      cases hterminal
    obtain ⟨-, -, deltas, last, hpipeline, hlast, hdeltas⟩ := hjourney.isOver hover
    have hwaiting : State.outputsIn s.slots (s.slotsOf [] request) = [] := by
      by_contra hne
      have hsplit : s.received request <+: (s.pipelineOf [] request).dropLast := by
        unfold State.pipelineOf
        rw [dropLast_append_of_ne_nil hne]
        exact prefix_append _ _
      rw [hpipeline, dropLast_concat] at hsplit
      have hterminal := hdeltas output (hsplit.subset houtput)
      rw [hjourney.kind output hmem, hstatus] at hterminal
      cases hterminal
    unfold State.pipelineOf
    rw [hwaiting, append_nil]

/-- Over every run of a scheduler that keeps its side, in which no failure overtakes a delta, every
client has received what it should. -/
theorem received_of_notOvertaken {actions : List Action} (hstart : Start s)
    (run : ReachesWith p.step (fun s action => Scheduled s action ∧ NotOvertaken s action)
      s actions s') (request : Nat) : Delivered s' request :=
  (inv_of_reaches hstart run).delivered request

/-! ## A request of the service -/

/-- One response thread, and batched responses. -/
def batchedProcessor : Processor Unit where
  tokenizer :=
    { outputOffset := fun _ => 0
      decode := fun decoder _ => ("text", decoder)
      wholeOutputs := fun _ => [] }
  numResponseThreads := 1
  numResponseThreads_pos := Nat.one_pos
  enableBatchResponse := true

/-- A streaming request with a prompt of one token. -/
def streamingRequest : Request Unit where
  stream := true
  serviceRequestId := "service"
  sourceXserviceAddr := ""
  numPromptTokens := 1
  numPrefixCacheTokens := 0
  sequences :=
    [{ index := 0
       tokens := [5]
       numPromptTokens := 1
       echo := false
       isOnerecModel := false
       includeStopStrInOutput := false
       maxStopSequenceTokenCount := 0
       matchedStopTokenCount := 0
       decoder := ()
       streamOutputTokenOffset := 1
       finished := false
       finishReason := none
       closed := false }]
  bestOf := 1
  cancelled := false
  errorStatus := none
  terminalOutcome := .none
  responseThreadId := none
  terminalRequested := false

/-- All requests are such. -/
def streamingStart : State Unit where
  requests _ := streamingRequest
  responseQueues _ := []
  nextThread := 0
  rpcQueue := []
  slots _ := none
  nextSlot := 0
  cancelQueue := []
  received _ := []

theorem streamingStart_start : Start streamingStart where
  responseQueues _ := rfl
  rpcQueue := rfl
  slots _ := rfl
  received _ := rfl
  requests _ := by
    refine ⟨fun i seq hseq => ?_, fun seq hseq => ?_, rfl, rfl, fun status hstatus => ?_⟩
    · cases i with
      | zero => cases hseq; rfl
      | succ i => cases hseq
    · rw [mem_singleton.mp hseq]
      exact ⟨le_rfl, rfl, rfl⟩
    · cases hstatus

/-- Two tokens, each with its delta, and then the end. -/
theorem received_two_deltas : ∃ s' : State Unit, Delivered s' 0 ∧
    (deltaTokens (s'.received 0) 0 = [7, 8] ∧ (s'.received 0).length = 3) := by
  obtain ⟨s', run, hend⟩ : ∃ s', ReachesWith batchedProcessor.step
      (fun s action => Scheduled s action ∧ NotOvertaken s action) streamingStart
      [.append 0 0 7 none, .notifyStream [0], .respond 0 true,
        .append 0 0 8 (some ("stop", 0)), .notifyStream [0], .rpc fun _ => true,
        .notifyCompleted [0], .respond 0 true, .respond 0 true, .rpc fun _ => true,
        .rpc fun _ => true] s' ∧
      decide (deltaTokens (s'.received 0) 0 = [7, 8] ∧ (s'.received 0).length = 3) = true :=
    ReachesWith.of_check _ _ _ (by decide +kernel)
  exact ⟨s', received_of_notOvertaken streamingStart_start run 0, of_decide_eq_true hend⟩

/-- A failure that overtakes a delta: the client gets the delta after the terminal response. -/
theorem failure_overtakes_delta : Start streamingStart ∧ ∃ actions s',
    ReachesWith batchedProcessor.step Scheduled streamingStart actions s' ∧
      (s'.responseQueues 0 = [] ∧ s'.rpcQueue = [] ∧
        (s'.received 0).map RequestOutput.isTerminal = [true, false]) ∧ ¬Delivered s' 0 := by
  obtain ⟨s', run, hend⟩ : ∃ s', ReachesWith batchedProcessor.step Scheduled streamingStart
      [.append 0 0 7 none, .notifyStream [0], .notifyFailed 0 { code := .unavailable },
        .respond 0 true, .respond 0 true, .rpc fun _ => true] s' ∧
      decide ((s'.responseQueues 0).isEmpty = true ∧ s'.rpcQueue.isEmpty = true ∧
        (s'.received 0).map RequestOutput.isTerminal = [true, false]) = true :=
    ReachesWith.of_check _ _ _ (by decide +kernel)
  obtain ⟨hqueue, hrpc, hreceived⟩ := of_decide_eq_true hend
  rw [List.isEmpty_iff] at hqueue hrpc
  refine ⟨streamingStart_start, _, s', run, ⟨hqueue, hrpc, hreceived⟩, fun hdelivered => ?_⟩
  -- the terminal response is not the last
  have hlast : ∀ output ∈ ((s'.received 0).map RequestOutput.isTerminal).dropLast,
      output = false := by
    intro terminal hterminal
    rw [← map_dropLast] at hterminal
    obtain ⟨output, houtput, rfl⟩ := mem_map.mp hterminal
    exact hdelivered.last output houtput
  rw [hreceived] at hlast
  cases hlast true mem_cons_self

end Xllm.Scheduler.Response
