import Xllm.Scheduler.ResponseJourney

/-!
# The queues of the response processor

What connects the queues to the journeys of single requests. The tasks of a request are all in the
queue of its response thread, in the order of their notifications. Its slots in the RPC queue are in
that order too: the slots of tasks that have run come first, and behind them those of the tasks that
are still to run. So the outputs of a request that wait for the RPC thread are sent in the order in
which they were drawn.
-/

namespace Xllm.Scheduler.Response

open Xllm.Lib List Function
open Xllm.Request (Status StatusCode)

variable {D : Type}

namespace State

/-- The tasks of a request that are still to run. -/
def tasksOf (s : State D) (request : Nat) : List Task :=
  match (s.requests request).responseThreadId with
  | none => []
  | some thread => (s.responseQueues thread).filter fun task => decide (task.request = request)

/-- What the RPC thread is to send, with the entries of a notification whose RPC task has not been
scheduled yet. -/
def entriesOf (s : State D) (building : List (Nat × Nat)) : List (Nat × Nat) :=
  s.rpcQueue.flatMap RpcTask.entries ++ building

/-- The slots of a request, in the order in which they are sent. -/
def slotsOf (s : State D) (building : List (Nat × Nat)) (request : Nat) : List Nat :=
  ((s.entriesOf building).filter fun entry => decide (entry.1 = request)).map Prod.snd

/-- The outputs that fill slots. -/
def outputsIn (slots : Nat → Option (Option RequestOutput)) (order : List Nat) :
    List RequestOutput :=
  (order.filterMap slots).reduceOption

/-- What the client of a request has received, and behind it what waits for the RPC thread. -/
def pipelineOf (s : State D) (building : List (Nat × Nat)) (request : Nat) :
    List RequestOutput :=
  s.received request ++ outputsIn s.slots (s.slotsOf building request)

/-- The slots that tasks are still to fill. -/
def waitingOf (s : State D) (request : Nat) : List Nat :=
  (s.tasksOf request).filterMap Task.slot?

end State

/-- The queues, while the entries in `building` have no RPC task yet. -/
structure Plumbed (p : Processor D) (s : State D) (building : List (Nat × Nat)) : Prop where
  threads : ∀ thread, ∀ task ∈ s.responseQueues thread,
    (s.requests task.request).responseThreadId = some thread
  order : ∀ request, ∃ done, s.slotsOf building request = done ++ s.waitingOf request ∧
    ∀ slot ∈ done, s.slots slot ≠ none
  empty : ∀ request, ∀ slot ∈ s.waitingOf request, s.slots slot = none
  distinct : ((s.entriesOf building).map Prod.snd).Nodup
  allocated : ∀ entry ∈ s.entriesOf building, entry.2 < s.nextSlot
  fresh : ∀ slot, s.nextSlot ≤ slot → s.slots slot = none
  batched : ∀ entry ∈ s.entriesOf building, p.batched s entry.1 = true
  single : ∀ thread, ∀ task ∈ s.responseQueues thread, task.slot? = none →
    (∃ status, task = .failed task.request status) ∨ p.batched s task.request = false

structure Inv (p : Processor D) (s : State D) (building : List (Nat × Nat)) : Prop where
  plumbed : Plumbed p s building
  journey : ∀ request,
    Journey (s.requests request) (s.tasksOf request) (s.pipelineOf building request)

variable {p : Processor D} {s : State D} {building : List (Nat × Nat)}

/-! ## Slots -/

theorem outputsIn_append (slots : Nat → Option (Option RequestOutput)) (order order' : List Nat) :
    State.outputsIn slots (order ++ order') =
      State.outputsIn slots order ++ State.outputsIn slots order' := by
  unfold State.outputsIn
  rw [filterMap_append, reduceOption_append]

variable {slots : Nat → Option (Option RequestOutput)} {order : List Nat}

theorem outputsIn_eq_nil
    (h : ∀ slot ∈ order, (slots slot).join = none) : State.outputsIn slots order = [] := by
  induction order with
  | nil => rfl
  | cons slot order ih =>
    have hrest := ih fun other hother => h other (mem_cons_of_mem _ hother)
    have hslot := h slot mem_cons_self
    rw [← singleton_append, outputsIn_append, hrest, append_nil]
    unfold State.outputsIn
    cases hget : slots slot with
    | none => rw [filterMap_cons_none hget]; rfl
    | some output =>
      rw [hget] at hslot
      rw [filterMap_cons_some hget]
      have : output = none := hslot
      rw [this]
      rfl

theorem outputsIn_congr {slots' : Nat → Option (Option RequestOutput)}
    (h : ∀ slot ∈ order, slots' slot = slots slot) :
    State.outputsIn slots' order = State.outputsIn slots order := by
  unfold State.outputsIn
  rw [filterMap_congr h]

variable {slot : Nat}

theorem outputsIn_singleton {output : Option RequestOutput} (h : slots slot = some output) :
    State.outputsIn slots [slot] = output.toList := by
  unfold State.outputsIn
  rw [filterMap_cons_some h]
  cases output <;> rfl

variable {request : Nat}

theorem mem_slotsOf :
    slot ∈ s.slotsOf building request ↔ (request, slot) ∈ s.entriesOf building := by
  constructor
  · intro h
    obtain ⟨⟨r, x⟩, hmem, rfl⟩ := mem_map.mp h
    obtain ⟨hmem, hr⟩ := mem_filter.mp hmem
    have hr : r = request := of_decide_eq_true hr
    rw [← hr]
    exact hmem
  · intro h
    exact mem_map.mpr ⟨_, mem_filter.mpr ⟨h, decide_eq_true rfl⟩, rfl⟩

namespace Plumbed

theorem slotsOf_nodup (h : Plumbed p s building) (request : Nat) :
    (s.slotsOf building request).Nodup :=
  h.distinct.sublist (filter_sublist.map _)

variable {request slot : Nat}

theorem request_eq (h : Plumbed p s building) {request' : Nat}
    (hslot : slot ∈ s.slotsOf building request) (hslot' : slot ∈ s.slotsOf building request') :
    request = request' := by
  rw [mem_slotsOf] at hslot hslot'
  have := inj_on_of_nodup_map h.distinct hslot hslot' rfl
  exact congrArg Prod.fst this

theorem waiting_mem (h : Plumbed p s building)
    (hslot : slot ∈ s.waitingOf request) : slot ∈ s.slotsOf building request := by
  obtain ⟨done, hdone, -⟩ := h.order request
  rw [hdone]
  exact mem_append_right _ hslot

theorem slotsOf_eq_nil (h : Plumbed p s building)
    (hsingle : p.batched s request = false) : s.slotsOf building request = [] := by
  rw [eq_nil_iff_forall_not_mem]
  intro slot hslot
  have := h.batched _ (mem_slotsOf.mp hslot)
  rw [hsingle] at this
  cases this

end Plumbed

/-! ## A request changes -/

def SameRoute (req req' : Request D) : Prop :=
  req'.responseThreadId = req.responseThreadId ∧ req'.serviceRequestId = req.serviceRequestId

variable {s' : State D}

theorem tasksOf_congr
    (hthread : (s'.requests request).responseThreadId = (s.requests request).responseThreadId)
    (hqueues : s'.responseQueues = s.responseQueues) : s'.tasksOf request = s.tasksOf request := by
  unfold State.tasksOf
  rw [hthread, hqueues]

variable {req : Request D}

theorem updateRequest_route (hroute : SameRoute (s.requests request) req) (other : Nat) :
    SameRoute (s.requests other) ((Processor.updateRequest s request req).requests other) := by
  unfold Processor.updateRequest
  dsimp only
  by_cases heq : other = request
  · rw [heq, update_self]
    exact hroute
  · rw [update_of_ne heq]
    exact ⟨rfl, rfl⟩

theorem batched_congr
    (hservice : (s'.requests request).serviceRequestId = (s.requests request).serviceRequestId) :
    p.batched s' request = p.batched s request := by
  unfold Processor.batched
  rw [hservice]

theorem Plumbed.updateRequest (h : Plumbed p s building)
    (hroute : SameRoute (s.requests request) req) :
    Plumbed p (Processor.updateRequest s request req) building := by
  have hall := updateRequest_route hroute
  have htasks : ∀ other, (Processor.updateRequest s request req).tasksOf other = s.tasksOf other :=
    fun other => tasksOf_congr (hall other).1 rfl
  have hbatched : ∀ other,
      p.batched (Processor.updateRequest s request req) other = p.batched s other :=
    fun other => batched_congr (hall other).2
  refine {
    threads := fun thread task htask => ?_
    order := fun other => ?_
    empty := fun other => ?_
    distinct := h.distinct
    allocated := h.allocated
    fresh := h.fresh
    batched := fun entry hentry => ?_
    single := fun thread task htask hslot => ?_ }
  · rw [(hall task.request).1]
    exact h.threads thread task htask
  · unfold State.waitingOf
    rw [htasks other]
    exact h.order other
  · unfold State.waitingOf
    rw [htasks other]
    exact h.empty other
  · rw [hbatched]
    exact h.batched entry hentry
  · rw [hbatched]
    exact h.single thread task htask hslot

theorem Inv.updateRequest (h : Inv p s building) (hroute : SameRoute (s.requests request) req)
    (hjourney : Journey req (s.tasksOf request) (s.pipelineOf building request)) :
    Inv p (Processor.updateRequest s request req) building := by
  refine ⟨h.plumbed.updateRequest hroute, fun other => ?_⟩
  rw [tasksOf_congr (updateRequest_route hroute other).1 rfl]
  show Journey (Function.update s.requests request req other) _ (s.pipelineOf building other)
  by_cases heq : other = request
  · rw [heq, update_self]
    exact hjourney
  · rw [update_of_ne heq]
    exact h.journey other

/-! ## A notification -/

/-- A request changes and gets a task, in the queue of a thread. -/
def State.withTask (s : State D) (request : Nat) (req : Request D) (task : Task)
    (thread nextThread : Nat) : State D :=
  { s with
    requests := Function.update s.requests request { req with responseThreadId := some thread }
    responseQueues :=
      Function.update s.responseQueues thread (s.responseQueues thread ++ [task])
    nextThread := nextThread }

theorem schedule_eq (p : Processor D) (s : State D) (request : Nat) (req : Request D)
    (task : Task) :
    ∃ thread nextThread,
      (req.responseThreadId = none ∨ req.responseThreadId = some thread) ∧
        p.schedule (Processor.updateRequest s request req) request task =
          s.withTask request req task thread nextThread := by
  have hself : (Processor.updateRequest s request req).requests request = req :=
    update_self ..
  unfold Processor.schedule
  rw [hself]
  cases hthread : req.responseThreadId with
  | some thread =>
    refine ⟨thread, s.nextThread, Or.inr rfl, ?_⟩
    have hsame : { req with responseThreadId := some thread } = req := by
      rw [← hthread]
    unfold State.withTask
    rw [hsame]
    rfl
  | none =>
    refine ⟨s.nextThread, (s.nextThread + 1) % p.numResponseThreads, Or.inl rfl, ?_⟩
    unfold State.withTask Processor.updateRequest
    rw [update_idem]

section WithTask

variable {request thread nextThread : Nat} {req : Request D} {task : Task}

theorem withTask_request_self :
    (s.withTask request req task thread nextThread).requests request =
      { req with responseThreadId := some thread } :=
  update_self ..

variable {other : Nat}

theorem withTask_request_ne (hne : other ≠ request) :
    (s.withTask request req task thread nextThread).requests other = s.requests other :=
  update_of_ne hne ..

theorem mem_withTask {thread' : Nat} {task' : Task}
    (h : task' ∈ (s.withTask request req task thread nextThread).responseQueues thread') :
    task' ∈ s.responseQueues thread' ∨ (thread' = thread ∧ task' = task) := by
  unfold State.withTask at h
  dsimp only at h
  by_cases heq : thread' = thread
  · subst heq
    rw [update_self, mem_append, mem_singleton] at h
    exact h.imp_right fun h => ⟨rfl, h⟩
  · rw [update_of_ne heq] at h
    exact Or.inl h

theorem batched_withTask (hroute : SameRoute (s.requests request) req) (other : Nat) :
    p.batched (s.withTask request req task thread nextThread) other = p.batched s other := by
  apply batched_congr
  by_cases heq : other = request
  · subst heq
    rw [withTask_request_self]
    exact hroute.2
  · rw [withTask_request_ne heq]

theorem tasksOf_withTask_self (hthreads : ∀ thread, ∀ task ∈ s.responseQueues thread,
      (s.requests task.request).responseThreadId = some thread)
    (hroute : SameRoute (s.requests request) req)
    (hthread : req.responseThreadId = none ∨ req.responseThreadId = some thread)
    (hrequest : task.request = request) :
    (s.withTask request req task thread nextThread).tasksOf request =
      s.tasksOf request ++ [task] := by
  have hqueue : (s.withTask request req task thread nextThread).responseQueues thread =
      s.responseQueues thread ++ [task] := update_self ..
  unfold State.tasksOf
  rw [withTask_request_self]
  dsimp only
  rw [hqueue, filter_append, filter_singleton, decide_eq_true hrequest, cond_true]
  congr 1
  rw [hroute.1] at hthread
  obtain hnone | hsome := hthread
  · -- a request without a thread has no tasks
    rw [hnone]
    rw [filter_eq_nil_iff]
    intro earlier hearlier heq
    have := hthreads thread earlier hearlier
    rw [of_decide_eq_true heq, hnone] at this
    cases this
  · rw [hsome]

theorem tasksOf_withTask_ne (hne : other ≠ request) (hrequest : task.request = request) :
    (s.withTask request req task thread nextThread).tasksOf other = s.tasksOf other := by
  unfold State.tasksOf
  rw [withTask_request_ne hne]
  cases (s.requests other).responseThreadId with
  | none => rfl
  | some thread' =>
    show List.filter _ (Function.update s.responseQueues thread _ thread') = _
    by_cases heq : thread' = thread
    · subst heq
      have hlast : ¬task.request = other := fun heq => hne (heq.symm.trans hrequest)
      rw [update_self, filter_append, filter_singleton,
        decide_eq_false hlast, cond_false, append_nil]
    · rw [update_of_ne heq]

end WithTask

theorem entriesOf_append (s : State D) (building more : List (Nat × Nat)) :
    s.entriesOf (building ++ more) = s.entriesOf building ++ more := by
  unfold State.entriesOf
  rw [List.append_assoc]

theorem slotsOf_append (s : State D) (building more : List (Nat × Nat)) (request : Nat) :
    s.slotsOf (building ++ more) request = s.slotsOf building request ++
      (more.filter fun entry => decide (entry.1 = request)).map Prod.snd := by
  unfold State.slotsOf
  rw [entriesOf_append, filter_append, map_append]

/-- The entry of a task for the RPC thread. -/
def Task.entries (task : Task) : List (Nat × Nat) :=
  task.slot?.toList.map fun slot => (task.request, slot)

theorem Task.slotsOf_entries (task : Task) (request : Nat) :
    (task.entries.filter fun entry => decide (entry.1 = request)).map Prod.snd =
      if task.request = request then task.slot?.toList else [] := by
  unfold Task.entries
  cases hslot : task.slot? with
  | none =>
    rw [Option.toList_none, map_nil, filter_nil, map_nil, ite_self]
  | some slot =>
    rw [Option.toList_some, map_singleton, filter_singleton]
    by_cases heq : task.request = request
    · rw [if_pos heq]
      rw [decide_eq_true heq, cond_true, map_singleton]
    · rw [if_neg heq]
      rw [decide_eq_false heq, cond_false, map_nil]

/-- What a new task must bring along. A batched one fills the next slot. -/
structure Task.Fits (task : Task) (p : Processor D) (s : State D) (nextSlot : Nat) : Prop where
  next : s.nextSlot ≤ nextSlot
  slot : ∀ slot, task.slot? = some slot →
    slot = s.nextSlot ∧ s.nextSlot < nextSlot ∧ p.batched s task.request = true
  single : task.slot? = none →
    (∃ status, task = .failed task.request status) ∨ p.batched s task.request = false

section Notify

variable {nextSlot thread nextThread : Nat} {req : Request D} {task : Task}

theorem slotsOf_notify (task : Task) (request : Nat) :
    s.slotsOf (building ++ task.entries) request = s.slotsOf building request ++
      if task.request = request then task.slot?.toList else [] := by
  rw [slotsOf_append, task.slotsOf_entries]

theorem waitingOf_withTask (h : Plumbed p s building)
    (hroute : SameRoute (s.requests task.request) req)
    (hthread : req.responseThreadId = none ∨ req.responseThreadId = some thread) (request : Nat) :
    (s.withTask task.request req task thread nextThread).waitingOf request =
      s.waitingOf request ++ if task.request = request then task.slot?.toList else [] := by
  unfold State.waitingOf
  by_cases heq : task.request = request
  · subst heq
    rw [tasksOf_withTask_self h.threads hroute hthread rfl, filterMap_append, if_pos rfl]
    cases hslot : task.slot? with
    | none => rw [filterMap_cons_none hslot]; rfl
    | some slot => rw [filterMap_cons_some hslot]; rfl
  · rw [tasksOf_withTask_ne (Ne.symm heq) rfl, if_neg heq, append_nil]

/-- A new task with the next slot goes behind the tasks of its request. -/
theorem Plumbed.withTask (h : Plumbed p s building) (hfits : task.Fits p s nextSlot)
    (hroute : SameRoute (s.requests task.request) req)
    (hthread : req.responseThreadId = none ∨ req.responseThreadId = some thread) :
    Plumbed p ({ s with nextSlot := nextSlot }.withTask task.request req task thread nextThread)
      (building ++ task.entries) := by
  have hbatched : ∀ request,
      p.batched ({ s with nextSlot := nextSlot }.withTask task.request req task thread nextThread)
        request = p.batched s request :=
    fun request => batched_withTask (s := { s with nextSlot := nextSlot }) hroute request
  have hwaiting : ∀ request,
      (s.withTask task.request req task thread nextThread).waitingOf request =
        s.waitingOf request ++ if task.request = request then task.slot?.toList else [] :=
    fun request => waitingOf_withTask h hroute hthread request
  have hentry : ∀ entry ∈ task.entries, task.slot? = some entry.2 ∧ entry.1 = task.request := by
    intro entry hentry
    obtain ⟨slot, hslot, rfl⟩ := mem_map.mp hentry
    exact ⟨Option.mem_toList.mp hslot, rfl⟩
  refine {
    threads := fun thread' task' htask' => ?_
    order := fun request => ?_
    empty := fun request slot hslot => ?_
    distinct := ?_
    allocated := fun entry hmem => ?_
    fresh := fun slot hslot => h.fresh slot (hfits.next.trans hslot)
    batched := fun entry hmem => ?_
    single := fun thread' task' htask' hnone => ?_ }
  · rcases mem_withTask htask' with hold | ⟨rfl, rfl⟩
    · have hsome := h.threads thread' task' hold
      by_cases heq : task'.request = task.request
      · rw [heq, withTask_request_self]
        rw [heq, ← hroute.1] at hsome
        rw [hsome] at hthread
        exact (hthread.resolve_left nofun).symm
      · rw [withTask_request_ne heq]
        exact hsome
    · rw [withTask_request_self]
  · obtain ⟨done, hdone, hfilled⟩ := h.order request
    refine ⟨done, ?_, hfilled⟩
    show s.slotsOf (building ++ task.entries) request =
      done ++ (s.withTask task.request req task thread nextThread).waitingOf request
    rw [slotsOf_notify, hwaiting, hdone, List.append_assoc]
  · have hmem : slot ∈ s.waitingOf request ++ _ := (hwaiting request) ▸ hslot
    rcases mem_append.mp hmem with hold | hnew
    · exact h.empty request slot hold
    · split at hnew
      · obtain ⟨rfl, -⟩ := hfits.slot slot (Option.mem_toList.mp hnew)
        exact h.fresh _ le_rfl
      · cases hnew
  · rw [entriesOf_append, map_append, nodup_append']
    refine ⟨h.distinct, ?_, ?_⟩
    · unfold Task.entries
      cases task.slot? with
      | none => exact nodup_nil
      | some slot => exact nodup_singleton _
    · -- slots are given out in increasing order
      intro slot hold hnew
      obtain ⟨entry, hmem, rfl⟩ := mem_map.mp hold
      obtain ⟨entry', hmem', heq⟩ := mem_map.mp hnew
      have hlt := h.allocated entry hmem
      obtain ⟨hslot, -⟩ := hfits.slot entry'.2 (hentry entry' hmem').1
      omega
  · rcases mem_append.mp (entriesOf_append s building task.entries ▸ hmem) with hold | hnew
    · exact (h.allocated entry hold).trans_le hfits.next
    · obtain ⟨hslot, hlt, -⟩ := hfits.slot entry.2 (hentry entry hnew).1
      rw [hslot]
      exact hlt
  · rw [hbatched]
    rcases mem_append.mp (entriesOf_append s building task.entries ▸ hmem) with hold | hnew
    · exact h.batched entry hold
    · obtain ⟨hslot, heq⟩ := hentry entry hnew
      rw [heq]
      exact (hfits.slot entry.2 hslot).2.2
  · rw [hbatched]
    rcases mem_withTask htask' with hold | ⟨rfl, rfl⟩
    · exact h.single thread' task' hold hnone
    · exact hfits.single hnone

theorem Inv.notify (h : Inv p s building) (hfits : task.Fits p s nextSlot)
    (hroute : SameRoute (s.requests task.request) req)
    (hjourney : Journey req (s.tasksOf task.request ++ [task])
      (s.pipelineOf building task.request)) :
    Inv p (p.schedule (Processor.updateRequest { s with nextSlot := nextSlot } task.request req)
      task.request task) (building ++ task.entries) := by
  obtain ⟨thread, nextThread, hthread, heq⟩ :=
    schedule_eq p { s with nextSlot := nextSlot } task.request req task
  rw [heq]
  refine ⟨h.plumbed.withTask hfits hroute hthread, fun request => ?_⟩
  have hpipeline :
      ({ s with nextSlot := nextSlot }.withTask task.request req task thread nextThread).pipelineOf
        (building ++ task.entries) request = s.pipelineOf building request := by
    show s.received request ++ State.outputsIn s.slots
      (s.slotsOf (building ++ task.entries) request) = _
    have hnone : State.outputsIn s.slots
        (if task.request = request then task.slot?.toList else []) = [] := by
      apply outputsIn_eq_nil
      intro slot hslot
      split at hslot
      · obtain ⟨rfl, -⟩ := hfits.slot slot (Option.mem_toList.mp hslot)
        rw [h.plumbed.fresh _ le_rfl]
        rfl
      · cases hslot
    rw [slotsOf_notify, outputsIn_append, hnone, append_nil]
    rfl
  rw [hpipeline]
  by_cases hself : request = task.request
  · subst hself
    rw [withTask_request_self]
    have htasks :
        ({ s with nextSlot := nextSlot }.withTask task.request req task thread
          nextThread).tasksOf task.request = s.tasksOf task.request ++ [task] :=
      tasksOf_withTask_self (s := { s with nextSlot := nextSlot }) h.plumbed.threads hroute
        hthread rfl
    rw [htasks]
    exact hjourney.withThread (some thread)
  · rw [withTask_request_ne hself]
    have htasks :
        ({ s with nextSlot := nextSlot }.withTask task.request req task thread
          nextThread).tasksOf request = s.tasksOf request :=
      tasksOf_withTask_ne (s := { s with nextSlot := nextSlot }) hself rfl
    rw [htasks]
    exact h.journey request

end Notify

end Xllm.Scheduler.Response
