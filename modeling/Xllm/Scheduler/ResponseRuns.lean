import Xllm.Scheduler.ResponseQueues

/-!
# The steps of the response processor keep the invariant

A notification is a loop over its requests, each of which gets a task, and for the batched ones an
entry in the RPC task that is scheduled at the end. A response thread runs the first task of its
queue, and the RPC thread sends the outputs of its first task. Only a failure gets past the outputs
that wait for the RPC thread.
-/

namespace Xllm.Scheduler.Response

open Xllm.Lib List Function
open Xllm.Request (Status StatusCode)

variable {D : Type} {p : Processor D} {s s' : State D} {building : List (Nat × Nat)}

/-! ## Notifications -/

variable {task : Task}

theorem Task.Fits.of_single (hslot : task.slot? = none)
    (h : (∃ status, task = .failed task.request status) ∨ p.batched s task.request = false) :
    task.Fits p s s.nextSlot := by
  refine ⟨le_rfl, fun slot hsome => ?_, fun _ => h⟩
  rw [hslot] at hsome
  cases hsome

theorem Task.Fits.of_batched (hslot : task.slot? = some s.nextSlot)
    (h : p.batched s task.request = true) : task.Fits p s (s.nextSlot + 1) := by
  refine ⟨Nat.le_succ _, fun slot hsome => ?_, fun hnone => ?_⟩
  · rw [hslot, Option.some.injEq] at hsome
    exact ⟨hsome.symm, Nat.lt_succ_self _, h⟩
  · rw [hslot] at hnone
    cases hnone

theorem Inv.withRpcQueue (h : Inv p s building) {queue : List RpcTask}
    (hentries : queue.flatMap RpcTask.entries = s.entriesOf building) :
    Inv p { s with rpcQueue := queue } [] := by
  have hsame : { s with rpcQueue := queue }.entriesOf [] = s.entriesOf building := by
    unfold State.entriesOf
    rw [append_nil, hentries]
    rfl
  have hslots : ∀ request,
      { s with rpcQueue := queue }.slotsOf [] request = s.slotsOf building request := by
    intro request
    unfold State.slotsOf
    rw [hsame]
  refine ⟨{ threads := h.plumbed.threads
            order := fun request => hslots request ▸ h.plumbed.order request
            empty := h.plumbed.empty
            distinct := hsame ▸ h.plumbed.distinct
            allocated := hsame ▸ h.plumbed.allocated
            fresh := h.plumbed.fresh
            batched := hsame ▸ h.plumbed.batched
            single := h.plumbed.single }, fun request => ?_⟩
  have hpipeline : { s with rpcQueue := queue }.pipelineOf [] request =
      s.pipelineOf building request := by
    unfold State.pipelineOf
    rw [hslots]
  rw [hpipeline]
  exact h.journey request

theorem Inv.scheduleRpc {turn : State D × List (Nat × Nat)} (h : Inv p turn.1 turn.2)
    (stream : Bool) : Inv p (Processor.scheduleRpc stream turn) [] := by
  unfold Processor.scheduleRpc
  split
  · next hnone =>
    rw [← hnone]
    exact h
  · apply h.withRpcQueue
    rw [flatMap_append, flatMap_singleton]
    rfl

/-- The loop of a notification, whose requests were all `ready` when it began. -/
structure Notifying (p : Processor D) (first : State D) (ready : Request D → Prop)
    (requests : List Nat) (turn : State D × List (Nat × Nat)) : Prop where
  inv : Inv p turn.1 turn.2
  ready : ∀ request ∈ requests, ready (turn.1.requests request)
  batched : ∀ request, p.batched turn.1 request = p.batched first request

section Notifying

variable {first : State D} {ready : Request D → Prop} {requests : List Nat}
  {current : State D × List (Nat × Nat)}

theorem Notifying.start (h : Inv p s []) (hready : ∀ request ∈ requests, ready (s.requests request)) :
    Notifying p s ready requests (s, []) :=
  ⟨h, hready, fun _ => rfl⟩

theorem Notifying.turn (h : Notifying p first ready requests current) {task : Task}
    {nextSlot : Nat} {req : Request D} (hfits : task.Fits p current.1 nextSlot)
    (hroute : SameRoute (current.1.requests task.request) req)
    (hready : ∀ thread, ready { req with responseThreadId := thread })
    (hjourney : Journey req (current.1.tasksOf task.request ++ [task])
      (current.1.pipelineOf current.2 task.request)) :
    Notifying p first ready requests
      (p.schedule (Processor.updateRequest { current.1 with nextSlot := nextSlot } task.request req)
        task.request task, current.2 ++ task.entries) := by
  obtain ⟨thread, nextThread, -, heq⟩ :=
    schedule_eq p { current.1 with nextSlot := nextSlot } task.request req task
  refine ⟨h.inv.notify hfits hroute hjourney, fun request hrequest => ?_, fun request => ?_⟩
  · rw [heq]
    by_cases hself : request = task.request
    · subst hself
      rw [withTask_request_self]
      exact hready _
    · rw [withTask_request_ne hself]
      exact h.ready request hrequest
  · rw [heq, ← h.batched request]
    exact batched_withTask (s := { current.1 with nextSlot := nextSlot }) hroute request

end Notifying

/-! ### Stream notifications -/

def Request.Streams (req : Request D) : Prop :=
  req.terminalRequested = false ∧ ∀ seq ∈ req.sequences, seq.isOnerecModel = false

theorem Request.Streams.closeFinished {req : Request D} (h : req.Streams) (thread : Option Nat) :
    { req.closeFinished with responseThreadId := thread }.Streams := by
  refine ⟨h.1, fun seq' hseq' => ?_⟩
  obtain ⟨i, hi⟩ := List.getElem?_of_mem hseq'
  obtain ⟨seq, hseq, rfl | ⟨-, -, rfl⟩⟩ := Journey.closeFinished_get hi
  · exact h.2 _ (mem_of_getElem? hseq)
  · exact h.2 seq (mem_of_getElem? hseq)

section Stream

variable {requests : List Nat} {request : Nat}

variable {first : State D}

theorem Notifying.stream (h : Notifying p first Request.Streams requests (s, []))
    (hrequest : request ∈ requests) (hsingle : p.batched first request = false)
    (hstep : p.processStreamRequest s request = .ok s') :
    Notifying p first Request.Streams requests (s', []) := by
  unfold Processor.processStreamRequest at hstep
  dsimp only at hstep
  split at hstep
  · cases hstep
  · split at hstep
    · next hclosed =>
      cases hstep
      rw [Journey.closeFinished_of_closed hclosed]
      unfold Processor.updateRequest
      rw [update_eq_self]
      exact h
    · cases hstep
      have hready := h.ready request hrequest
      have hjourney : Journey (s.requests request).closeFinished
          (s.tasksOf request ++ [.stream request (s.requests request).streamIndexes])
          (s.pipelineOf [] request) :=
        (h.inv.journey request).notifyStream hready.1 hready.2 rfl rfl
      have hfits : (Task.stream request (s.requests request).streamIndexes).Fits p s s.nextSlot :=
        .of_single rfl (Or.inr ((h.batched request).trans hsingle))
      exact h.turn hfits ⟨rfl, rfl⟩ hready.closeFinished hjourney

theorem Notifying.batchStream {turn turn' : State D × List (Nat × Nat)}
    (h : Notifying p first Request.Streams requests turn)
    (hrequest : request ∈ requests) (hbatched : p.batched first request = true)
    (hstep : p.batchStreamRequest turn request = .ok turn') :
    Notifying p first Request.Streams requests turn' := by
  unfold Processor.batchStreamRequest at hstep
  dsimp only at hstep
  split at hstep
  · cases hstep
  · cases hstep
    have hready := h.ready request hrequest
    have hjourney : Journey (turn.1.requests request).closeFinished
        (turn.1.tasksOf request ++
          [.batchedStream request (turn.1.requests request).streamIndexes turn.1.nextSlot])
        (turn.1.pipelineOf turn.2 request) :=
      (h.inv.journey request).notifyStream hready.1 hready.2 rfl rfl
    have hfits : (Task.batchedStream request (turn.1.requests request).streamIndexes
        turn.1.nextSlot).Fits p turn.1 (turn.1.nextSlot + 1) :=
      .of_batched rfl ((h.batched request).trans hbatched)
    exact h.turn hfits ⟨rfl, rfl⟩ hready.closeFinished hjourney

theorem Inv.processStreamRequests (h : Inv p s [])
    (hready : ∀ request ∈ requests, (s.requests request).Streams)
    (hstep : p.processStreamRequests s requests = .ok s') : Inv p s' [] := by
  unfold Processor.processStreamRequests at hstep
  obtain ⟨single, hsingle, hstep⟩ := bind_eq_ok.mp hstep
  rw [bind_eq_ok] at hstep
  obtain ⟨turn, hservice, hstep⟩ := hstep
  cases hstep
  have hfirst : Notifying p s Request.Streams requests (single, []) := by
    refine foldlM_keeps (I := fun t => Notifying p s Request.Streams requests (t, []))
      (fun request hrequest t t' ht hturn => ?_) hsingle (.start h hready)
    rw [mem_filter, Bool.not_eq_true'] at hrequest
    exact ht.stream hrequest.1 hrequest.2 hturn
  have hall : Notifying p s Request.Streams requests turn := by
    refine foldlM_keeps (fun request hrequest t t' ht hturn => ?_) hservice hfirst
    rw [mem_filter] at hrequest
    exact ht.batchStream hrequest.1 hrequest.2 hturn
  exact hall.inv.scheduleRpc true

end Stream

/-! ### Terminal notifications -/

section Terminal

variable {requests : List Nat} {request : Nat}

theorem Request.Ended.notified {req : Request D} (h : req.Ended) (thread : Option Nat) :
    { req with terminalRequested := true, responseThreadId := thread }.Ended := h

variable {first : State D}

theorem Notifying.completed (h : Notifying p first Request.Ended requests (s, []))
    (hrequest : request ∈ requests) (hsingle : p.batched first request = false) :
    Notifying p first Request.Ended requests (p.processCompletedRequest s request, []) := by
  have hended := h.ready request hrequest
  have hjourney : Journey { s.requests request with terminalRequested := true }
      (s.tasksOf request ++ [.completed request]) (s.pipelineOf [] request) :=
    (h.inv.journey request).notifyTerminal rfl (fun _ => hended) nofun
  have hfits : (Task.completed request).Fits p s s.nextSlot :=
    .of_single rfl (Or.inr ((h.batched request).trans hsingle))
  exact h.turn hfits ⟨rfl, rfl⟩ hended.notified hjourney

theorem Notifying.batchCompleted {turn : State D × List (Nat × Nat)}
    (h : Notifying p first Request.Ended requests turn)
    (hrequest : request ∈ requests) (hbatched : p.batched first request = true) :
    Notifying p first Request.Ended requests (p.batchCompletedRequest turn request) := by
  have hended := h.ready request hrequest
  have hjourney : Journey { turn.1.requests request with terminalRequested := true }
      (turn.1.tasksOf request ++ [.batchedCompleted request turn.1.nextSlot])
      (turn.1.pipelineOf turn.2 request) :=
    (h.inv.journey request).notifyTerminal rfl (fun _ => hended) nofun
  have hfits : (Task.batchedCompleted request turn.1.nextSlot).Fits p turn.1
      (turn.1.nextSlot + 1) :=
    .of_batched rfl ((h.batched request).trans hbatched)
  exact h.turn hfits ⟨rfl, rfl⟩ hended.notified hjourney

theorem Inv.processCompletedRequests (h : Inv p s [])
    (hended : ∀ request ∈ requests, (s.requests request).Ended) :
    Inv p (p.processCompletedRequests s requests) [] := by
  unfold Processor.processCompletedRequests
  have hfirst : Notifying p s Request.Ended requests
      ((requests.filter fun request => !p.batched s request).foldl p.processCompletedRequest s,
        []) := by
    refine List.foldlRecOn (motive := fun t => Notifying p s Request.Ended requests (t, [])) _ _
      (.start h hended) (fun t ht request hrequest => ?_)
    rw [mem_filter, Bool.not_eq_true'] at hrequest
    exact ht.completed hrequest.1 hrequest.2
  apply Inv.scheduleRpc
  have hall : Notifying p s Request.Ended requests _ :=
    List.foldlRecOn (motive := fun t => Notifying p s Request.Ended requests t)
      (requests.filter fun request => p.batched s request) p.batchCompletedRequest hfirst
      (fun t ht request hrequest => by
        rw [mem_filter] at hrequest
        exact ht.batchCompleted hrequest.1 hrequest.2)
  exact hall.inv

theorem Inv.processFailedRequest (h : Inv p s []) {status : Status} (hstatus : status.code ≠ .ok) :
    Inv p (p.processFailedRequest s request status) [] := by
  have hjourney : Journey { s.requests request with terminalRequested := true }
      (s.tasksOf request ++ [.failed request status]) (s.pipelineOf [] request) := by
    refine (h.journey request).notifyTerminal rfl nofun fun request' status' heq => ?_
    cases heq
    exact hstatus
  have hfits : (Task.failed request status).Fits p s s.nextSlot :=
    .of_single rfl (Or.inl ⟨status, rfl⟩)
  exact h.notify hfits ⟨rfl, rfl⟩ hjourney

end Terminal

/-! ## Tasks -/

/-- What a task makes of its request: the output it has, if any, and the request behind it. -/
inductive Runs (p : Processor D) (task : Task) (req : Request D) :
    Option RequestOutput → Request D → Prop
  | stream {output : RequestOutput} {req' : Request D} (isStream : task.isStream = true)
      (delta : output.status = none) (notTerminal : output.isTerminal = false)
      (draw : req.drawStream p.tokenizer task.indexes = .ok (output.outputs, req')) :
      Runs p task req (some output) req'
  | completed (isCompleted : task.isCompleted = true) :
      Runs p task req (p.prepareCompletedOutput task.request req).1
        (p.prepareCompletedOutput task.request req).2
  | failed {status : Status} (heq : task = .failed task.request status) :
      Runs p task req (Processor.prepareFailedOutput task.request req status).1
        (Processor.prepareFailedOutput task.request req status).2

section Runs

variable {task : Task} {req req' : Request D} {output : Option RequestOutput}

theorem claimTerminalOutcome_route (req : Request D) (status : Option Status) :
    SameRoute req (req.claimTerminalOutcome status).2 := by
  unfold Request.claimTerminalOutcome
  dsimp only
  split
  · exact ⟨rfl, rfl⟩
  · split
    · exact ⟨rfl, rfl⟩
    · exact ⟨rfl, rfl⟩

theorem Runs.failed_late {request : Nat} {status : Status} (hruns : Runs p task req output req')
    (htask : task = .failed request status) (hover : req.terminalOutcome ≠ .none) :
    output = none := by
  cases hruns with
  | stream isStream => rw [htask] at isStream; cases isStream
  | completed isCompleted => rw [htask] at isCompleted; cases isCompleted
  | failed =>
    unfold Processor.prepareFailedOutput Request.claimTerminalOutcome
    dsimp only
    rw [if_neg hover, ite_self, if_neg (by exact nofun)]

variable {tasks : List Task} {pipeline : List RequestOutput}

theorem Runs.journey
    (h : Journey req (task :: tasks) pipeline) (hruns : Runs p task req output req') :
    Journey req' tasks (pipeline ++ output.toList) := by
  cases hruns with
  | stream isStream delta notTerminal draw =>
    have hdraws := Request.drawStream_spec h.index
      (h.notOnerec task mem_cons_self isStream) (fun seq hseq => (h.offset seq hseq).2.2) draw
    exact h.draw isStream hdraws delta notTerminal
  | completed isCompleted => exact h.runCompleted isCompleted
  | failed heq =>
    rw [heq] at h
    exact h.runFailed

theorem Runs.route
    (h : Journey req (task :: tasks) pipeline) (hruns : Runs p task req output req') :
    SameRoute req req' := by
  cases hruns with
  | stream isStream delta notTerminal draw =>
    have hdraws := Request.drawStream_spec h.index
      (h.notOnerec task mem_cons_self isStream) (fun seq hseq => (h.offset seq hseq).2.2) draw
    rw [hdraws.rest]
    exact ⟨rfl, rfl⟩
  | completed isCompleted =>
    unfold Processor.prepareCompletedOutput
    split
    · exact ⟨rfl, rfl⟩
    · dsimp only
      split
      · exact claimTerminalOutcome_route req _
      · exact claimTerminalOutcome_route req _
  | failed heq =>
    unfold Processor.prepareFailedOutput
    dsimp only
    split
    · exact claimTerminalOutcome_route req _
    · exact claimTerminalOutcome_route req _

end Runs

/-- The outputs that a task hands to the client itself. -/
def Task.sent (task : Task) (output : Option RequestOutput) : List RequestOutput :=
  match task.slot? with
  | none => output.toList
  | some _ => []

/-- The slots after a task. -/
def Task.fill (task : Task) (slots : Nat → Option (Option RequestOutput))
    (output : Option RequestOutput) : Nat → Option (Option RequestOutput) :=
  match task.slot? with
  | none => slots
  | some slot => Function.update slots slot (some output)

/-- A task has run: it has left its queue, its request has changed, and its output is with the
client or in its slot. -/
def State.ran (s : State D) (thread : Nat) (rest : List Task) (task : Task) (req : Request D)
    (output : Option RequestOutput) : State D :=
  { s with
    requests := Function.update s.requests task.request req
    responseQueues := Function.update s.responseQueues thread rest
    slots := task.fill s.slots output
    received :=
      Function.update s.received task.request (s.received task.request ++ task.sent output) }

theorem answer_eq (s : State D) (request : Nat) (output : Option RequestOutput) :
    Processor.answer s request output =
      { s with
        received := Function.update s.received request (s.received request ++ output.toList) } := by
  cases output with
  | some output => rfl
  | none =>
    rw [Option.toList_none, append_nil, update_eq_self]
    rfl

theorem fillSlot_eq (s : State D) (request slot : Nat) (output : Option RequestOutput) :
    Processor.fillSlot s slot output =
      { s with
        slots := Function.update s.slots slot (some output)
        received := Function.update s.received request (s.received request ++ []) } := by
  rw [append_nil, update_eq_self]
  rfl

variable {thread : Nat} {goesOn : Bool}

theorem respond_cases (h : p.respond s thread goesOn = .ok s') :
    ∃ task rest output req cancelQueue, s.responseQueues thread = task :: rest ∧
      Runs p task (s.requests task.request) output req ∧
      s' = { s.ran thread rest task req output with cancelQueue := cancelQueue } := by
  unfold Processor.respond at h
  cases hqueue : s.responseQueues thread with
  | nil => rw [hqueue] at h; cases h
  | cons task rest =>
    rw [hqueue] at h
    cases task with
    | stream request indexes =>
      obtain ⟨⟨outputs, req⟩, hdraw, h⟩ := bind_eq_ok.mp h
      cases h
      cases goesOn with
      | true =>
        exact ⟨_, rest, some { requestId := request, outputs := outputs }, req, s.cancelQueue, rfl,
          .stream rfl rfl rfl hdraw, rfl⟩
      | false =>
        exact ⟨_, rest, some { requestId := request, outputs := outputs }, req,
          s.cancelQueue ++ [request], rfl, .stream rfl rfl rfl hdraw, rfl⟩
    | completed request =>
      cases h
      rw [answer_eq]
      exact ⟨_, rest, _, _, s.cancelQueue, rfl, .completed rfl, rfl⟩
    | failed request status =>
      cases h
      rw [answer_eq]
      exact ⟨_, rest, _, _, s.cancelQueue, rfl, .failed rfl, rfl⟩
    | batchedStream request indexes slot =>
      obtain ⟨⟨outputs, req⟩, hdraw, h⟩ := bind_eq_ok.mp h
      cases h
      rw [fillSlot_eq _ request]
      refine ⟨_, rest, some _, req, s.cancelQueue, rfl, ?_, rfl⟩
      exact .stream rfl rfl rfl hdraw
    | batchedCompleted request slot =>
      cases h
      rw [fillSlot_eq _ request]
      exact ⟨_, rest, _, _, s.cancelQueue, rfl, .completed rfl, rfl⟩

section Ran

variable {thread : Nat} {rest : List Task} {task : Task} {req : Request D}
  {output : Option RequestOutput}

theorem ran_slotsOf (request : Nat) :
    (s.ran thread rest task req output).slotsOf building request =
      s.slotsOf building request := by
  rfl

theorem ran_route (hroute : SameRoute (s.requests task.request) req) (request : Nat) :
    SameRoute (s.requests request) ((s.ran thread rest task req output).requests request) := by
  exact updateRequest_route hroute request

variable (hqueue : s.responseQueues thread = task :: rest)

include hqueue

theorem mem_of_ran {thread' : Nat} {task' : Task}
    (h : task' ∈ (s.ran thread rest task req output).responseQueues thread') :
    task' ∈ s.responseQueues thread' := by
  unfold State.ran at h
  dsimp only at h
  by_cases heq : thread' = thread
  · subst heq
    rw [update_self] at h
    rw [hqueue]
    exact mem_cons_of_mem _ h
  · rw [update_of_ne heq] at h
    exact h

theorem tasksOf_ran_self (h : Plumbed p s building)
    (hroute : SameRoute (s.requests task.request) req) :
    s.tasksOf task.request =
      task :: (s.ran thread rest task req output).tasksOf task.request := by
  have hthread : (s.requests task.request).responseThreadId = some thread := by
    apply h.threads
    rw [hqueue]
    exact mem_cons_self
  have hrest : (s.ran thread rest task req output).responseQueues thread = rest :=
    update_self ..
  unfold State.tasksOf
  rw [(ran_route hroute task.request).1, hthread]
  dsimp only
  rw [hrest, hqueue, filter_cons, if_pos (decide_eq_true rfl)]

theorem tasksOf_ran_ne (hroute : SameRoute (s.requests task.request) req) {other : Nat}
    (hne : other ≠ task.request) :
    (s.ran thread rest task req output).tasksOf other = s.tasksOf other := by
  unfold State.tasksOf
  rw [(ran_route hroute other).1]
  cases (s.requests other).responseThreadId with
  | none => rfl
  | some thread' =>
    show List.filter _ (Function.update s.responseQueues thread rest thread') =
      List.filter _ (s.responseQueues thread')
    by_cases heq : thread' = thread
    · subst heq
      rw [update_self, hqueue, filter_cons, if_neg]
      rw [decide_eq_true_eq]
      exact Ne.symm hne
    · rw [update_of_ne heq]

theorem waitingOf_ran (h : Plumbed p s building)
    (hroute : SameRoute (s.requests task.request) req) (request : Nat) :
    s.waitingOf request = (if task.request = request then task.slot?.toList else []) ++
      (s.ran thread rest task req output).waitingOf request := by
  unfold State.waitingOf
  by_cases heq : task.request = request
  · subst heq
    rw [tasksOf_ran_self hqueue h hroute, if_pos rfl]
    cases hslot : task.slot? with
    | none => rw [filterMap_cons_none hslot]; rfl
    | some slot => rw [filterMap_cons_some hslot]; rfl
  · rw [tasksOf_ran_ne hqueue hroute (Ne.symm heq), if_neg heq]
    rfl

end Ran

/-! ### The queues after a task -/

section

variable {thread : Nat} {rest : List Task} {task : Task} {req : Request D}
  {output : Option RequestOutput}

variable {slots : Nat → Option (Option RequestOutput)} {slot : Nat}

theorem fill_of_ne (h : task.slot? ≠ some slot) : task.fill slots output slot = slots slot := by
  unfold Task.fill
  cases hslot : task.slot? with
  | none => rfl
  | some other =>
    apply update_of_ne
    intro hsame
    rw [hslot, hsame] at h
    exact h rfl

theorem fill_self (h : task.slot? = some slot) : task.fill slots output slot = some output := by
  unfold Task.fill
  rw [h]
  exact update_self ..

theorem fill_ne_none (h : slots slot ≠ none) : task.fill slots output slot ≠ none := by
  by_cases heq : task.slot? = some slot
  · rw [fill_self heq]
    exact nofun
  · rw [fill_of_ne heq]
    exact h

theorem Plumbed.slot_of_task (h : Plumbed p s building)
    (hqueue : s.responseQueues thread = task :: rest) (hslot : task.slot? = some slot) :
    slot ∈ s.waitingOf task.request := by
  have hwaiting : s.waitingOf task.request =
      (if task.request = task.request then task.slot?.toList else []) ++
        (s.ran thread rest task (s.requests task.request) none).waitingOf task.request :=
    waitingOf_ran hqueue h ⟨rfl, rfl⟩ task.request
  rw [hwaiting, if_pos rfl, hslot]
  exact mem_append_left _ (mem_singleton_self _)

theorem Plumbed.ran (h : Plumbed p s building) (hqueue : s.responseQueues thread = task :: rest)
    (hroute : SameRoute (s.requests task.request) req) :
    Plumbed p (s.ran thread rest task req output) building := by
  have hall : ∀ request, SameRoute (s.requests request)
      ((s.ran thread rest task req output).requests request) := fun request =>
    ran_route hroute request
  have hwaiting : ∀ request,
      s.waitingOf request = (if task.request = request then task.slot?.toList else []) ++
        (s.ran thread rest task req output).waitingOf request := fun request =>
    waitingOf_ran hqueue h hroute request
  have hsub : ∀ request, ∀ slot ∈ (s.ran thread rest task req output).waitingOf request,
      slot ∈ s.waitingOf request ∧ task.slot? ≠ some slot := by
    intro request slot hslot
    have hmem : slot ∈ s.waitingOf request := by
      rw [hwaiting]
      exact mem_append_right _ hslot
    refine ⟨hmem, fun hsame => ?_⟩
    have hin := h.waiting_mem (h.slot_of_task hqueue hsame)
    have heq := h.request_eq hin (h.waiting_mem hmem)
    -- the slot would stand twice in the line of its request
    obtain ⟨done, hdone, -⟩ := h.order request
    have hnodup := h.slotsOf_nodup request
    rw [hdone, hwaiting, if_pos heq, hsame] at hnodup
    have := (nodup_append'.mp hnodup).2.1
    exact (nodup_append'.mp this).2.2 (mem_singleton_self slot) hslot
  refine {
    threads := fun thread' task' htask' => ?_
    order := fun request => ?_
    empty := fun request slot hslot => ?_
    distinct := h.distinct
    allocated := h.allocated
    fresh := fun slot hslot => ?_
    batched := fun entry hentry => ?_
    single := fun thread' task' htask' hnone => ?_ }
  · rw [(hall task'.request).1]
    exact h.threads thread' task' (mem_of_ran hqueue htask')
  · obtain ⟨done, hdone, hfilled⟩ := h.order request
    refine ⟨done ++ if task.request = request then task.slot?.toList else [], ?_, ?_⟩
    · rw [ran_slotsOf, hdone, hwaiting, List.append_assoc]
    · intro slot hslot
      rcases mem_append.mp hslot with hold | hnew
      · exact fill_ne_none (hfilled slot hold)
      · split at hnew
        · show task.fill s.slots output slot ≠ none
          rw [fill_self (Option.mem_toList.mp hnew)]
          exact nofun
        · cases hnew
  · obtain ⟨hmem, hne⟩ := hsub request slot hslot
    exact (fill_of_ne hne).trans (h.empty request slot hmem)
  · refine (fill_of_ne fun hsame => ?_).trans (h.fresh slot hslot)
    have hin := mem_slotsOf.mp (h.waiting_mem (h.slot_of_task hqueue hsame))
    have := h.allocated _ hin
    exact absurd this (not_lt.mpr hslot)
  · rw [batched_congr (hall entry.1).2]
    exact h.batched entry hentry
  · rw [batched_congr (hall task'.request).2]
    exact h.single thread' task' (mem_of_ran hqueue htask') hnone

theorem outputsIn_fill {done behind : List Nat} (hnodup : (done ++ slot :: behind).Nodup)
    (hempty : ∀ other ∈ slot :: behind, slots other = none) :
    State.outputsIn (Function.update slots slot (some output)) (done ++ slot :: behind) =
      State.outputsIn slots (done ++ slot :: behind) ++ output.toList := by
  obtain ⟨-, hbehind, hapart⟩ := nodup_append'.mp hnodup
  have hdone : State.outputsIn (Function.update slots slot (some output)) done =
      State.outputsIn slots done := by
    apply outputsIn_congr
    intro other hother
    apply update_of_ne
    intro heq
    exact hapart hother (heq ▸ mem_cons_self)
  have hnone : State.outputsIn slots (slot :: behind) = [] := by
    apply outputsIn_eq_nil
    intro other hother
    rw [hempty other hother]
    rfl
  have hrest : State.outputsIn (Function.update slots slot (some output)) behind = [] := by
    apply outputsIn_eq_nil
    intro other hother
    have hne : other ≠ slot := fun heq => (nodup_cons.mp hbehind).1 (heq ▸ hother)
    rw [update_of_ne hne, hempty other (mem_cons_of_mem _ hother)]
    rfl
  have hslot : State.outputsIn (Function.update slots slot (some output)) [slot] =
      output.toList := outputsIn_singleton (update_self ..)
  rw [outputsIn_append, outputsIn_append, hdone, hnone, append_nil,
    ← singleton_append (x := slot), outputsIn_append, hslot, hrest, append_nil]

/-- The pipeline of a task's request gets its output, provided that nothing waits for the RPC thread
that the task gets past. -/
theorem Plumbed.pipelineOf_ran (h : Plumbed p s building)
    (hqueue : s.responseQueues thread = task :: rest) (hclear : task.slot? = none → output ≠ none →
      State.outputsIn s.slots (s.slotsOf building task.request) = []) (request : Nat) :
    (s.ran thread rest task req output).pipelineOf building request =
      s.pipelineOf building request ++ if task.request = request then output.toList else [] := by
  have hreceived : (s.ran thread rest task req output).received request =
      s.received request ++ if task.request = request then task.sent output else [] := by
    show Function.update s.received task.request _ request = _
    by_cases heq : task.request = request
    · subst heq
      rw [update_self, if_pos rfl]
    · rw [update_of_ne (Ne.symm heq), if_neg heq, append_nil]
  unfold State.pipelineOf
  rw [hreceived, ran_slotsOf]
  show _ ++ State.outputsIn (task.fill s.slots output) _ = _
  unfold Task.sent Task.fill
  cases hslot : task.slot? with
  | none =>
    by_cases heq : task.request = request
    · subst heq
      rw [if_pos rfl]
      by_cases hnone : output = none
      · rw [hnone, Option.toList_none, append_nil, append_nil]
      · rw [hclear hslot hnone, append_nil, append_nil]
    · rw [if_neg heq, append_nil, append_nil]
  | some slot =>
    rw [ite_self, append_nil, List.append_assoc]
    congr 1
    by_cases heq : task.request = request
    · subst heq
      obtain ⟨done, hdone, -⟩ := h.order task.request
      have hwaiting : s.waitingOf task.request =
          (if task.request = task.request then task.slot?.toList else []) ++
            (s.ran thread rest task (s.requests task.request) output).waitingOf task.request :=
        waitingOf_ran hqueue h ⟨rfl, rfl⟩ task.request
      rw [if_pos rfl, hslot, Option.toList_some, singleton_append] at hwaiting
      rw [if_pos rfl, hdone, hwaiting]
      apply outputsIn_fill
      · rw [← hwaiting, ← hdone]
        exact h.slotsOf_nodup task.request
      · rw [← hwaiting]
        exact h.empty task.request
    · rw [if_neg heq, append_nil]
      apply outputsIn_congr
      intro other hother
      apply update_of_ne
      intro hsame
      rw [hsame] at hother
      exact heq (h.request_eq (h.waiting_mem (h.slot_of_task hqueue hslot)) hother)

end

/-! ## The steps of the threads -/

theorem Inv.withCancelQueue (h : Inv p s building) (cancelQueue : List Nat) :
    Inv p { s with cancelQueue := cancelQueue } building :=
  ⟨{ threads := h.plumbed.threads
     order := h.plumbed.order
     empty := h.plumbed.empty
     distinct := h.plumbed.distinct
     allocated := h.plumbed.allocated
     fresh := h.plumbed.fresh
     batched := h.plumbed.batched
     single := h.plumbed.single }, h.journey⟩

/-- No failure that claims the outcome gets past a delta: when its task runs, no output of its
request waits for the RPC thread. -/
def NotOvertaken (s : State D) : Action → Prop
  | .respond thread _ =>
    match (s.responseQueues thread).head? with
    | some (.failed request _) =>
      (s.requests request).terminalOutcome = .none → ∀ task ∈ s.rpcQueue,
        ∀ entry ∈ task.entries, entry.1 = request → (s.slots entry.2).join = none
    | _ => True
  | _ => True

instance (s : State D) : DecidablePred (NotOvertaken s)
  | .append .. | .commit .. | .fail .. | .cancel .. | .notifyStream .. | .notifyCompleted ..
  | .notifyFailed .. | .rpc .. => isTrue trivial
  | .respond thread _ =>
    match h : (s.responseQueues thread).head? with
    | some (.failed request _) =>
      decidable_of_iff ((s.requests request).terminalOutcome = .none → ∀ task ∈ s.rpcQueue,
        ∀ entry ∈ task.entries, entry.1 = request → (s.slots entry.2).join = none)
        (by unfold NotOvertaken; dsimp only; rw [h])
    | some (.stream _ _) | some (.completed _) | some (.batchedStream _ _ _)
    | some (.batchedCompleted _ _) | none =>
      isTrue (by unfold NotOvertaken; dsimp only; rw [h]; exact trivial)

/-- A response thread runs its oldest task. What its request is still owed by a batch is none, or
the task is not the one that ends the request. -/
theorem Inv.respond (h : Inv p s []) (hovertaken : NotOvertaken s (.respond thread goesOn))
    (hstep : p.respond s thread goesOn = .ok s') : Inv p s' [] := by
  obtain ⟨task, rest, output, req, cancelQueue, hqueue, hruns, rfl⟩ := respond_cases hstep
  apply Inv.withCancelQueue
  have htasks : s.tasksOf task.request =
      task :: (s.ran thread rest task (s.requests task.request) none).tasksOf task.request :=
    tasksOf_ran_self hqueue h.plumbed ⟨rfl, rfl⟩
  have hjourney := h.journey task.request
  rw [htasks] at hjourney
  have hroute := hruns.route hjourney
  -- an output that goes past the batches overtakes nothing
  have hclear : task.slot? = none → output ≠ none →
      State.outputsIn s.slots (s.slotsOf [] task.request) = [] := by
    intro hslot hsome
    have hhead : task ∈ s.responseQueues thread := by
      rw [hqueue]
      exact mem_cons_self
    rcases h.plumbed.single thread task hhead hslot with ⟨status, hfailed⟩ | hsingle
    · have hopen : (s.requests task.request).terminalOutcome = .none := by
        by_contra hover
        exact hsome (hruns.failed_late hfailed hover)
      apply outputsIn_eq_nil
      intro slot hslot
      have hentry := mem_slotsOf.mp hslot
      unfold State.entriesOf at hentry
      rw [append_nil] at hentry
      obtain ⟨rpc, hrpc, hmem⟩ := mem_flatMap.mp hentry
      unfold NotOvertaken at hovertaken
      dsimp only at hovertaken
      rw [hqueue, List.head?_cons, hfailed] at hovertaken
      exact hovertaken hopen rpc hrpc _ hmem rfl
    · rw [h.plumbed.slotsOf_eq_nil hsingle]
      rfl
  refine ⟨h.plumbed.ran hqueue hroute, fun request => ?_⟩
  rw [h.plumbed.pipelineOf_ran hqueue hclear]
  by_cases heq : task.request = request
  · subst heq
    have hself : (s.ran thread rest task req output).requests task.request = req :=
      update_self ..
    have hsame : (s.ran thread rest task req output).tasksOf task.request =
        (s.ran thread rest task (s.requests task.request) none).tasksOf task.request := by
      have hran : s.tasksOf task.request =
          task :: (s.ran thread rest task req output).tasksOf task.request :=
        tasksOf_ran_self hqueue h.plumbed hroute
      rw [htasks] at hran
      exact (List.cons.inj hran).2.symm
    rw [hself, hsame, if_pos rfl]
    exact hruns.journey hjourney
  · have hother : (s.ran thread rest task req output).requests request = s.requests request :=
      update_of_ne (Ne.symm heq) ..
    rw [hother, tasksOf_ran_ne hqueue hroute (Ne.symm heq), if_neg heq, append_nil]
    exact h.journey request

theorem outputsIn_join (slots : Nat → Option (Option RequestOutput)) (slot : Nat) :
    State.outputsIn slots [slot] = (slots slot).join.toList := by
  cases hslot : slots slot with
  | none =>
    apply outputsIn_eq_nil
    intro other hother
    rw [mem_singleton.mp hother, hslot]
    rfl
  | some output => exact outputsIn_singleton hslot

theorem sendOutputs_eq (s : State D) (entries : List (Nat × Nat)) :
    Processor.sendOutputs s entries =
      { s with
        received := fun request => s.received request ++ State.outputsIn s.slots
          ((entries.filter fun entry => decide (entry.1 = request)).map Prod.snd) } := by
  induction entries generalizing s with
  | nil =>
    have hsame : (fun request => s.received request ++ []) = s.received :=
      funext fun request => append_nil _
    show s = { s with received := fun request => s.received request ++ [] }
    rw [hsame]
  | cons entry entries ih =>
    obtain ⟨request, slot⟩ := entry
    unfold Processor.sendOutputs
    rw [ih, answer_eq]
    dsimp only
    congr 1
    funext other
    by_cases heq : request = other
    · subst heq
      rw [update_self, filter_cons, if_pos (decide_eq_true rfl), map_cons,
        ← singleton_append, outputsIn_append, outputsIn_join, List.append_assoc]
    · rw [update_of_ne (Ne.symm heq), filter_cons,
        if_neg (by rw [decide_eq_true_eq]; exact heq)]

theorem Inv.rpc (h : Inv p s []) {goOn : Nat → Bool} (hstep : Processor.rpc s goOn = .ok s') :
    Inv p s' [] := by
  unfold Processor.rpc at hstep
  cases hqueue : s.rpcQueue with
  | nil => rw [hqueue] at hstep; cases hstep
  | cons task tasks =>
    rw [hqueue] at hstep
    dsimp only at hstep
    split at hstep
    · next hready =>
      rw [all_eq_true] at hready
      have hsent : Inv p (Processor.sendOutputs { s with rpcQueue := tasks } task.entries) [] := by
        rw [sendOutputs_eq]
        have hentries : s.entriesOf [] =
            task.entries ++ { s with rpcQueue := tasks }.entriesOf [] := by
          unfold State.entriesOf
          rw [hqueue, flatMap_cons, List.append_assoc]
        have hslots : ∀ request, s.slotsOf [] request =
            (task.entries.filter fun entry => decide (entry.1 = request)).map Prod.snd ++
              { s with rpcQueue := tasks }.slotsOf [] request := by
          intro request
          unfold State.slotsOf
          rw [hentries, filter_append, map_append]
        refine ⟨{
          threads := h.plumbed.threads
          order := fun request => ?_
          empty := h.plumbed.empty
          distinct := ?_
          allocated := fun entry hentry => ?_
          fresh := h.plumbed.fresh
          batched := fun entry hentry => ?_
          single := h.plumbed.single }, fun request => ?_⟩
        · obtain ⟨done, hdone, hfilled⟩ := h.plumbed.order request
          rw [hslots] at hdone
          -- what is sent has been filled, so nothing that waits is among it
          rcases append_eq_append_iff.mp hdone with ⟨rest, hrest, hbehind⟩ |
            ⟨late, hlate, hwaiting⟩
          · refine ⟨rest, hbehind, fun slot hslot => hfilled slot ?_⟩
            rw [hrest]
            exact mem_append_right _ hslot
          · have hnil : late = [] := by
              rw [eq_nil_iff_forall_not_mem]
              intro slot hslot
              have hempty := h.plumbed.empty request slot (by
                rw [hwaiting]
                exact mem_append_left _ hslot)
              have hmem : slot ∈
                  (task.entries.filter fun entry => decide (entry.1 = request)).map Prod.snd := by
                rw [hlate]
                exact mem_append_right _ hslot
              obtain ⟨entry, hentry, rfl⟩ := mem_map.mp hmem
              have := hready entry (mem_filter.mp hentry).1
              rw [hempty] at this
              cases this
            refine ⟨[], ?_, nofun⟩
            rw [hnil] at hwaiting
            exact hwaiting.symm
        · have := h.plumbed.distinct
          rw [hentries, map_append] at this
          exact (nodup_append'.mp this).2.1
        · apply h.plumbed.allocated
          rw [hentries]
          exact mem_append_right _ hentry
        · refine h.plumbed.batched entry ?_
          rw [hentries]
          exact mem_append_right _ hentry
        · have hjourney := h.journey request
          unfold State.pipelineOf at hjourney
          rw [hslots, outputsIn_append, ← List.append_assoc] at hjourney
          exact hjourney
      split at hstep
      · cases hstep
        exact hsent.withCancelQueue _
      · cases hstep
        exact hsent
    · cases hstep

end Xllm.Scheduler.Response
