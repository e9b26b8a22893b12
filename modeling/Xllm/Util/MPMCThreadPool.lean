import Xllm.Lib.Run
import Xllm.Lib.Tally

/-!
# The shared-queue thread pool

`MPMCThreadPool` (`core/util/threadpool.cpp`): `schedule` puts a task in the global queue and then
signals the semaphore of every worker, one after the other. A worker drains the queue, looks at
`stopped_` and waits for its semaphore. Every queue operation, signal, wait, load, store and task
is one step. Tasks are numbered in the order in which they are put in, the queue may hand out any
of its tasks, and a call of `schedule` begins with its `enqueue`, before the destructor.

The destructor sets `stopped_` and signals nobody. It is served if, when it begins, every worker
that has passed its stop check has a signal left or coming.
-/

namespace Xllm.Util

open Xllm.Lib Function

/-- Where a worker is in `internal_loop`; `leaving` in the drain after the stop check. -/
inductive Worker
  | draining (leaving : Bool)
  | running (task : Nat) (leaving : Bool)
  | checking
  | waiting
  | exited
  deriving DecidableEq, Repr

namespace Worker

/-- What a worker has in hand of a task. -/
def runs (task : Nat) : Worker → Nat
  | running task' _ => if task' = task then 1 else 0
  | _ => 0

/-- It has found the queue empty. -/
def idle : Worker → Bool
  | checking | waiting => true
  | _ => false

/-- It has seen the stop, or is gone. -/
def leaves : Worker → Bool
  | draining leaving => leaving
  | running _ leaving => leaving
  | exited => true
  | _ => false

end Worker

structure MPMCThreadPool where
  workers : Nat → Worker
  sems : Nat → Nat
  globalQueue : List Nat
  /-- The calls of `schedule` so far. -/
  scheduled : Nat
  /-- How many workers the call that scheduled a task has signalled. -/
  signalled : Nat → Nat
  ran : List Nat
  stopped : Bool

inductive Label
  | enqueue
  | signal (task : Nat)
  /-- Worker `i` takes its next step; a drain takes the task at `position` of the queue. -/
  | work (i position : Nat)
  | destroy
  deriving DecidableEq, Repr

namespace MPMCThreadPool

def init : MPMCThreadPool where
  workers _ := .draining false
  sems _ := 0
  globalQueue := []
  scheduled := 0
  signalled _ := 0
  ran := []
  stopped := false

def goes (s : MPMCThreadPool) (i : Nat) (worker : Worker) : MPMCThreadPool :=
  { s with workers := Function.update s.workers i worker }

/-- `internal_loop` of worker `i`. -/
def work (s : MPMCThreadPool) (i position : Nat) : Except Unit MPMCThreadPool :=
  match s.workers i with
  | .draining leaving =>
    if s.globalQueue = [] then .ok (s.goes i (if leaving then .exited else .checking))
    else
      match s.globalQueue[position]? with
      | none => .error ()
      | some task =>
        .ok ({ s with globalQueue := s.globalQueue.eraseIdx position }.goes i
          (.running task leaving))
  | .running task leaving => .ok ({ s with ran := task :: s.ran }.goes i (.draining leaving))
  | .checking => .ok (s.goes i (if s.stopped then .draining true else .waiting))
  | .waiting =>
    if s.sems i = 0 then .error ()
    else .ok ({ s with sems := Function.update s.sems i (s.sems i - 1) }.goes i (.draining false))
  | .exited => .error ()

def step (numThreads : Nat) (s : MPMCThreadPool) : Label → Except Unit MPMCThreadPool
  | .enqueue =>
    if s.stopped then .error ()
    else
      .ok { s with
        globalQueue := s.globalQueue ++ [s.scheduled]
        scheduled := s.scheduled + 1 }
  | .signal task =>
    let i := s.signalled task
    if task < s.scheduled ∧ i < numThreads then
      .ok { s with
        sems := Function.update s.sems i (s.sems i + 1)
        signalled := Function.update s.signalled task (i + 1) }
    else .error ()
  | .work i position => if i < numThreads then s.work i position else .error ()
  | .destroy => if s.stopped then .error () else .ok { s with stopped := true }

/-- Some call of `schedule` is going to signal worker `i`. -/
def Coming (s : MPMCThreadPool) (i : Nat) : Prop := ∃ task < s.scheduled, s.signalled task ≤ i

/-- There is a worker for a task, and the destructor finds every worker that has passed its stop
check with a signal left or coming. -/
def Timely (numThreads : Nat) (s : MPMCThreadPool) : Label → Prop
  | .enqueue => 0 < numThreads
  | .destroy => ∀ i < numThreads, s.workers i = .waiting → 0 < s.sems i ∨ s.Coming i
  | _ => True

/-- There is a worker for a task. -/
def Staffed (numThreads : Nat) (_ : MPMCThreadPool) (label : Label) : Prop :=
  label = .enqueue → 0 < numThreads

/-- No task is run twice, no task waits for workers that all sleep, no worker is left behind by
the destructor, and when all workers are gone every task has been run. -/
structure Served (numThreads : Nat) (s : MPMCThreadPool) : Prop where
  once : ∀ task, s.ran.count task ≤ 1
  awake : s.globalQueue ≠ [] → (∀ i < numThreads, s.workers i = .waiting ∧ s.sems i = 0) →
    ∃ task < s.scheduled, s.signalled task < numThreads
  joins : s.stopped = true → (∀ task < s.scheduled, s.signalled task = numThreads) →
    (∀ i < numThreads, s.workers i = .exited) ∨
      ∃ i < numThreads, ∃ position s', s.step numThreads (.work i position) = .ok s'
  allRun : (∀ i < numThreads, s.workers i = .exited) →
    ∀ task < s.scheduled, s.ran.count task = 1

/-! ## The invariant -/

section

variable {n i task : Nat} {joins : Prop} {s s' : MPMCThreadPool}

def inHand (n : Nat) (s : MPMCThreadPool) (task : Nat) : Nat :=
  ∑ i ∈ Finset.range n, (s.workers i).runs task

/-- `joins` says whether the destructor has found every worker with a signal left or coming. -/
structure Inv (n : Nat) (joins : Prop) (s : MPMCThreadPool) : Prop where
  signals : ∀ task, s.signalled task ≤ n ∧ (s.scheduled ≤ task → s.signalled task = 0)
  counted : ∀ task, s.globalQueue.count task + s.ran.count task + s.inHand n task =
    if task < s.scheduled then 1 else 0
  woken : ∀ i < n, (s.workers i).idle = true →
    ∀ task ∈ s.globalQueue, 0 < s.sems i ∨ s.signalled task ≤ i
  leaves : ∀ i < n, (s.workers i).leaves = true → s.stopped = true
  drained : ∀ i < n, s.workers i = .exited → s.globalQueue = []
  released : joins → s.stopped = true → ∀ i < n, s.workers i = .waiting → 0 < s.sems i ∨ s.Coming i
  staffed : 0 < s.scheduled → 0 < n

theorem Inv.init (n : Nat) (joins : Prop) : Inv n joins .init where
  signals _ := ⟨Nat.zero_le n, fun _ => rfl⟩
  counted task := by simp [MPMCThreadPool.init, inHand, Worker.runs]
  woken _ _ h := nomatch h
  leaves _ _ h := nomatch h
  drained _ _ h := nomatch h
  released _ h := nomatch h
  staffed h := nomatch h

theorem goes_self (s : MPMCThreadPool) (i : Nat) (worker : Worker) :
    (s.goes i worker).workers i = worker := update_self ..

theorem goes_ne {j : Nat} (s : MPMCThreadPool) (worker : Worker) (h : j ≠ i) :
    (s.goes i worker).workers j = s.workers j := update_of_ne h ..

theorem inHand_goes (s : MPMCThreadPool) (worker : Worker) (task : Nat) (hi : i < n) :
    (s.goes i worker).inHand n task + (s.workers i).runs task =
      s.inHand n task + worker.runs task :=
  sum_update n (fun _ worker => Worker.runs task worker) s.workers hi worker

/-- What holds of every worker, after one has moved. -/
theorem forall_goes {P : Nat → Worker → Prop} {worker : Worker}
    (h : ∀ j < n, j ≠ i → P j (s.workers j)) (hi : P i worker) :
    ∀ j < n, P j ((s.goes i worker).workers j) := by
  intro j hj
  by_cases hji : j = i
  · rw [hji, goes_self]
    exact hi
  · rw [goes_ne s worker hji]
    exact h j hj hji

theorem Inv.enqueue (h : Inv n joins s) (hn : 0 < n) (hopen : s.stopped = false) :
    Inv n joins { s with
      globalQueue := s.globalQueue ++ [s.scheduled]
      scheduled := s.scheduled + 1 } where
  signals task := ⟨(h.signals task).1, fun hle => (h.signals task).2 (Nat.le_of_succ_le hle)⟩
  counted task := by
    have hcounted := h.counted task
    show (s.globalQueue ++ [s.scheduled]).count task + s.ran.count task + s.inHand n task =
      if task < s.scheduled + 1 then 1 else 0
    rw [List.count_append, List.count_singleton]
    by_cases heq : s.scheduled = task
    · simp only [heq, beq_self_eq_true, if_true] at hcounted ⊢
      simp only [lt_irrefl, if_false] at hcounted
      simp only [Nat.lt_succ_self, if_true]
      omega
    · have hiff : task < s.scheduled + 1 ↔ task < s.scheduled := by omega
      rw [if_neg (by simpa using heq), Nat.add_zero, hcounted]
      simp only [hiff]
  woken i hi hidle task htask := by
    rcases List.mem_append.mp htask with htask | htask
    · exact h.woken i hi hidle task htask
    · rw [List.mem_singleton.mp htask, (h.signals s.scheduled).2 (Nat.le_refl _)]
      exact Or.inr (Nat.zero_le i)
  leaves := h.leaves
  drained i hi hexited := by
    have hstopped := h.leaves i hi (by rw [hexited]; rfl)
    exact nomatch hstopped.symm.trans hopen
  released _ hstopped := nomatch hstopped.symm.trans hopen
  staffed _ := hn

theorem Inv.signal (h : Inv n joins s) (htask : task < s.scheduled) (hi : s.signalled task < n) :
    Inv n joins { s with
      sems := Function.update s.sems (s.signalled task) (s.sems (s.signalled task) + 1)
      signalled := Function.update s.signalled task (s.signalled task + 1) } := by
  -- a worker has its signal, or the call has not reached it
  have hkept : ∀ i task', 0 < s.sems i ∨ s.signalled task' ≤ i →
      0 < Function.update s.sems (s.signalled task) (s.sems (s.signalled task) + 1) i ∨
        Function.update s.signalled task (s.signalled task + 1) task' ≤ i := by
    intro i task' hold
    by_cases hself : i = s.signalled task
    · rw [hself, update_self]
      exact Or.inl (Nat.succ_pos _)
    · rw [update_of_ne hself]
      by_cases heq : task' = task
      · rw [heq, update_self]
        rw [heq] at hold
        omega
      · rw [update_of_ne heq]
        exact hold
  refine ⟨fun task' => ?_, h.counted, fun i hi hidle task' hmem =>
    hkept i task' (h.woken i hi hidle task' hmem), h.leaves, h.drained,
    fun hjoins hstopped i hi hwaiting => ?_, h.staffed⟩
  · by_cases heq : task' = task
    · rw [heq]
      dsimp only
      rw [update_self]
      exact ⟨hi, fun hle => absurd htask (by omega)⟩
    · dsimp only
      rw [update_of_ne heq]
      exact h.signals task'
  · rcases h.released hjoins hstopped i hi hwaiting with hsem | ⟨task', htask', hle⟩
    · exact (hkept i task (Or.inl hsem)).imp id fun hle => ⟨task, htask, hle⟩
    · exact (hkept i task' (Or.inr hle)).imp id fun hle => ⟨task', htask', hle⟩

/-- A worker moves on, with a queue from which at most one task is gone and with its own semaphore
at most. -/
theorem Inv.goes (h : Inv n joins s) (hi : i < n) {worker : Worker} {queue ran : List Nat}
    {sems : Nat → Nat} (hqueue : ∀ task ∈ queue, task ∈ s.globalQueue)
    (hsems : ∀ j, j ≠ i → sems j = s.sems j)
    (hcounted : ∀ task, queue.count task + ran.count task + worker.runs task =
      s.globalQueue.count task + s.ran.count task + (s.workers i).runs task)
    (hidle : worker.idle = true → queue = [] ∨ (s.workers i).idle = true ∧ sems i = s.sems i)
    (hleaves : worker.leaves = true → s.stopped = true) (hexited : worker = .exited → queue = [])
    (hwaiting : worker = .waiting → s.stopped = false) :
    Inv n joins ({ s with globalQueue := queue, ran, sems }.goes i worker) where
  signals := h.signals
  counted task := by
    have hhand := inHand_goes { s with globalQueue := queue, ran, sems } worker task hi
    have hold := h.counted task
    have hmoved := hcounted task
    show queue.count task + ran.count task + _ = if task < s.scheduled then 1 else 0
    have hsame : ({ s with globalQueue := queue, ran, sems } : MPMCThreadPool).inHand n task =
        s.inHand n task := rfl
    dsimp only at hhand
    omega
  woken := by
    refine forall_goes (P := fun j worker => worker.idle = true → ∀ task ∈ queue,
      0 < sems j ∨ s.signalled task ≤ j) (fun j hj hne hidle task hmem => ?_)
      fun hworker task hmem => ?_
    · rw [hsems j hne]
      exact h.woken j hj hidle task (hqueue task hmem)
    · rcases hidle hworker with hnil | ⟨hold, hsem⟩
      · rw [hnil] at hmem
        cases hmem
      · rw [hsem]
        exact h.woken i hi hold task (hqueue task hmem)
  leaves := forall_goes (P := fun _ worker => worker.leaves = true → s.stopped = true)
    (fun j hj _ => h.leaves j hj) hleaves
  drained := forall_goes (P := fun _ worker => worker = .exited → queue = [])
    (fun j hj _ hgone => List.eq_nil_iff_forall_not_mem.mpr fun task hmem => by
      have hmem := hqueue task hmem
      rw [h.drained j hj hgone] at hmem
      cases hmem) hexited
  released hjoins hstopped := forall_goes
    (P := fun j worker => worker = .waiting → 0 < sems j ∨ s.Coming j)
    (fun j hj hne hwaits => by
      rw [hsems j hne]
      exact h.released hjoins hstopped j hj hwaits)
    fun hworker => nomatch hstopped.symm.trans (hwaiting hworker)
  staffed := h.staffed

/-- By the state of the worker. It parks only when it has seen its queue empty and the pool not
stopped. -/
theorem Inv.work (h : Inv n joins s) (hi : i < n) {position : Nat} (hok : s.work i position = .ok s') :
    Inv n joins s' := by
  cases hworker : s.workers i with
  | draining leaving =>
    rw [MPMCThreadPool.work, hworker] at hok
    dsimp only at hok
    have hstopped : leaving = true → s.stopped = true := fun hleaving =>
      h.leaves i hi (by rw [hworker]; exact hleaving)
    split at hok
    · next hnil =>
      cases hok
      refine h.goes hi (fun _ hmem => hmem) (fun _ _ => rfl) (fun task => ?_)
        (fun _ => Or.inl hnil) ?_ (fun _ => hnil) ?_
      · cases leaving <;> simp [hworker, Worker.runs]
      · cases leaving with
        | false => exact nofun
        | true => exact fun _ => hstopped rfl
      · cases leaving <;> exact nofun
    · split at hok
      · cases hok
      · next task htask =>
        cases hok
        obtain ⟨hlt, heq⟩ := List.getElem?_eq_some_iff.mp htask
        refine h.goes hi (fun _ => List.mem_of_mem_eraseIdx) (fun _ _ => rfl) (fun task' => ?_)
          nofun hstopped nofun nofun
        have hperm := (List.getElem_cons_eraseIdx_perm hlt).count_eq task'
        rw [List.count_cons, heq] at hperm
        simp only [hworker, Worker.runs, beq_iff_eq] at hperm ⊢
        omega
  | running task leaving =>
    rw [MPMCThreadPool.work, hworker] at hok
    cases hok
    refine h.goes hi (fun _ hmem => hmem) (fun _ _ => rfl) (fun task' => ?_) nofun
      (fun hleaving => h.leaves i hi (by rw [hworker]; exact hleaving)) nofun nofun
    simp only [hworker, Worker.runs, List.count_cons, beq_iff_eq]
    omega
  | checking =>
    rw [MPMCThreadPool.work, hworker] at hok
    cases hok
    have hidle : (s.workers i).idle = true := by rw [hworker]; rfl
    cases hstopped : s.stopped with
    | true =>
      exact h.goes hi (fun _ hmem => hmem) (fun _ _ => rfl)
        (fun task => by simp [hworker, Worker.runs]) nofun (fun _ => hstopped) nofun nofun
    | false =>
      exact h.goes hi (fun _ hmem => hmem) (fun _ _ => rfl)
        (fun task => by simp [hworker, Worker.runs]) (fun _ => Or.inr ⟨hidle, rfl⟩) nofun nofun
        fun _ => hstopped
  | waiting =>
    rw [MPMCThreadPool.work, hworker] at hok
    dsimp only at hok
    split at hok
    · cases hok
    · cases hok
      exact h.goes hi (fun _ hmem => hmem) (fun _ hne => update_of_ne hne ..)
        (fun task => by simp [hworker, Worker.runs]) nofun nofun nofun nofun
  | exited =>
    rw [MPMCThreadPool.work, hworker] at hok
    cases hok

theorem Inv.step (h : Inv n joins s) {label : Label} (hstaffed : Staffed n s label)
    (htimely : joins → Timely n s label) (hstep : s.step n label = .ok s') :
    Inv n joins s' := by
  cases label with
  | enqueue =>
    unfold MPMCThreadPool.step at hstep
    dsimp only at hstep
    split at hstep
    · cases hstep
    · next hopen =>
      cases hstep
      exact h.enqueue (hstaffed rfl) (by simpa using hopen)
  | signal task =>
    unfold MPMCThreadPool.step at hstep
    dsimp only at hstep
    split at hstep
    · next hgo =>
      cases hstep
      exact h.signal hgo.1 hgo.2
    · cases hstep
  | work i position =>
    unfold MPMCThreadPool.step at hstep
    dsimp only at hstep
    split at hstep
    · next hi => exact h.work hi hstep
    · cases hstep
  | destroy =>
    unfold MPMCThreadPool.step at hstep
    dsimp only at hstep
    split at hstep
    · cases hstep
    · cases hstep
      exact ⟨h.signals, h.counted, h.woken, fun _ _ _ => rfl, h.drained,
        fun hjoins _ => htimely hjoins, h.staffed⟩

/-- A worker that is not gone takes a step, unless it waits for a signal. -/
theorem exists_work (s : MPMCThreadPool) (hgone : s.workers i ≠ .exited)
    (hwaits : s.workers i = .waiting → 0 < s.sems i) :
    ∃ position s', s.work i position = .ok s' := by
  unfold MPMCThreadPool.work
  cases hworker : s.workers i with
  | draining leaving =>
    cases hqueue : s.globalQueue with
    | nil => exact ⟨0, _, rfl⟩
    | cons task queue => exact ⟨0, _, rfl⟩
  | running task leaving => exact ⟨0, _, rfl⟩
  | checking => exact ⟨0, _, rfl⟩
  | waiting => exact ⟨0, _, if_neg (Nat.ne_of_gt (hwaits hworker))⟩
  | exited => exact absurd hworker hgone

/-- While a task is in the queue and all workers sleep, its call still has to signal. -/
theorem Inv.awake (h : Inv n joins s) (hqueue : s.globalQueue ≠ [])
    (hasleep : ∀ i < n, s.workers i = .waiting ∧ s.sems i = 0) :
    ∃ task < s.scheduled, s.signalled task < n := by
  obtain ⟨task, hmem⟩ := List.exists_mem_of_ne_nil _ hqueue
  have hcounted := h.counted task
  have hpos := List.count_pos_iff.mpr hmem
  have htask : task < s.scheduled := by
    by_contra hnot
    rw [if_neg hnot] at hcounted
    omega
  have hn := h.staffed (by omega)
  obtain ⟨hwaiting, hsem⟩ := hasleep 0 hn
  have hwoken := h.woken 0 hn (by rw [hwaiting]; rfl) task hmem
  exact ⟨task, htask, by omega⟩

theorem Inv.served (h : Inv n True s) : Served n s where
  once task := by
    have := h.counted task
    split at this <;> omega
  awake := h.awake
  joins hstopped hdone := by
    by_cases hgone : ∀ i < n, s.workers i = .exited
    · exact Or.inl hgone
    · obtain ⟨i, hi, hworker⟩ : ∃ i < n, s.workers i ≠ .exited := by
        simpa only [not_forall, exists_prop] using hgone
      obtain ⟨position, s', hok⟩ := exists_work s hworker fun hwaiting => by
        rcases h.released trivial hstopped i hi hwaiting with hsem | ⟨task, htask, hle⟩
        · exact hsem
        · rw [hdone task htask] at hle
          omega
      exact Or.inr ⟨i, hi, position, s', (if_pos hi).trans hok⟩
  allRun hgone task htask := by
    have hn := h.staffed (by omega)
    have hcounted := h.counted task
    have hhand : s.inHand n task = 0 := by
      refine Finset.sum_eq_zero fun i hi => ?_
      rw [hgone i (Finset.mem_range.mp hi)]
      rfl
    rw [h.drained 0 hn (hgone 0 hn), hhand, if_pos htask] at hcounted
    simpa using hcounted

theorem Timely.staffed {label : Label} (h : Timely n s label) : Staffed n s label := by
  intro henqueue
  rw [henqueue] at h
  exact h

/-- In every run of the pool whose steps are timely every state is served. -/
theorem served_of_run {labels : List Label}
    (run : ReachesWith (MPMCThreadPool.step n) (Timely n) .init labels s) : Served n s :=
  (run.invariant (I := Inv n True) (fun _ _ _ h htimely hstep =>
    h.step htimely.staffed (fun _ => htimely) hstep) (.init n True)).served

instance (n : Nat) (s : MPMCThreadPool) (label : Label) : Decidable (Timely n s label) := by
  cases label <;> unfold Timely Coming <;> infer_instance

/-- A task is scheduled and signalled, and the pool is destroyed before its worker looks. -/
def timelyRun : List Label :=
  [.enqueue, .signal 0, .destroy, .work 0 0, .work 0 0, .work 0 0, .work 0 0, .work 0 0]

theorem served_timelyRun : ∃ s, ReachesWith (MPMCThreadPool.step 1) (Timely 1) .init timelyRun s ∧
    Served 1 s ∧ s.ran = [0] := by
  have hrun : ∃ s, ReachesWith (MPMCThreadPool.step 1) (Timely 1) .init timelyRun s ∧
      decide (s.ran = [0]) = true := ReachesWith.of_check _ _ _ (by decide)
  obtain ⟨s, run, hran⟩ := hrun
  exact ⟨s, run, served_of_run run, of_decide_eq_true hran⟩

/-- The only worker waits when the pool is destroyed, and nobody signals it. -/
theorem not_served_waiting :
    ¬ ∀ labels s, Reaches (MPMCThreadPool.step 1) .init labels s → Served 1 s := by
  intro h
  have hserved := h [.work 0 0, .work 0 0, .destroy] _ (.of_foldlM rfl)
  rcases hserved.joins rfl (fun task htask => absurd htask (Nat.not_lt_zero task)) with
    hgone | ⟨i, hi, position, s', hstep⟩
  · exact absurd (hgone 0 (by decide)) (by decide)
  · obtain rfl : i = 0 := by omega
    cases hstep

/-- When every call of `schedule` has signalled and no worker can go on, every task has been run,
whenever the pool was destroyed. -/
theorem run_at_rest {labels : List Label}
    (run : ReachesWith (MPMCThreadPool.step n) (Staffed n) .init labels s)
    (hsignalled : ∀ task < s.scheduled, s.signalled task = n)
    (hrest : ∀ i < n, ∀ position s', s.work i position ≠ .ok s') :
    s.globalQueue = [] ∧ ∀ task < s.scheduled, s.ran.count task = 1 := by
  have h : Inv n False s :=
    run.invariant (fun _ _ _ h hstaffed hstep => h.step hstaffed False.elim hstep) (.init n False)
  have hworkers : ∀ i < n, s.workers i = .exited ∨ s.workers i = .waiting ∧ s.sems i = 0 := by
    intro i hi
    by_contra hnot
    obtain ⟨position, s', hok⟩ := exists_work s (fun hgone => hnot (Or.inl hgone)) fun hwaits =>
      Nat.pos_of_ne_zero fun hsem => hnot (Or.inr ⟨hwaits, hsem⟩)
    exact hrest i hi position s' hok
  have hempty : s.globalQueue = [] := by
    by_cases hgone : ∃ i < n, s.workers i = .exited
    · obtain ⟨i, hi, hexited⟩ := hgone
      exact h.drained i hi hexited
    · by_contra hne
      obtain ⟨task, htask, hlt⟩ := h.awake hne fun i hi =>
        (hworkers i hi).resolve_left fun hexited => hgone ⟨i, hi, hexited⟩
      exact absurd (hsignalled task htask) (Nat.ne_of_lt hlt)
  refine ⟨hempty, fun task htask => ?_⟩
  have hhand : s.inHand n task = 0 := by
    refine Finset.sum_eq_zero fun i hi => ?_
    rcases hworkers i (Finset.mem_range.mp hi) with hw | ⟨hw, -⟩
    · rw [hw]
      rfl
    · rw [hw]
      rfl
  have hcounted := h.counted task
  rw [hempty, hhand, if_pos htask] at hcounted
  simpa using hcounted

/-- A task is run, and the pool is destroyed when its worker waits for the next one. -/
def waitingRun : List Label :=
  [.enqueue, .signal 0, .work 0 0, .work 0 0, .work 0 0, .work 0 0, .work 0 0, .work 0 0,
    .work 0 0, .destroy]

theorem run_at_rest_waitingRun : ∃ s,
    ReachesWith (MPMCThreadPool.step 1) (Staffed 1) .init waitingRun s ∧ s.ran.count 0 = 1 := by
  obtain ⟨s, run, hend⟩ : ∃ s, Reaches (MPMCThreadPool.step 1) .init waitingRun s ∧
      decide (s.scheduled = 1 ∧ s.signalled 0 = 1 ∧ s.workers 0 = .waiting ∧ s.sems 0 = 0) =
        true := ReachesWith.of_check _ _ _ (by decide)
  obtain ⟨hscheduled, hsignalled, hwaiting, hsem⟩ := of_decide_eq_true hend
  have hrun : ReachesWith (MPMCThreadPool.step 1) (Staffed 1) .init waitingRun s :=
    run.mono fun _ _ _ _ => Nat.one_pos
  refine ⟨s, hrun, (run_at_rest hrun (fun task htask => ?_) fun i hi position s' hok => ?_).2 0
    (by omega)⟩
  · obtain rfl : task = 0 := by omega
    exact hsignalled
  · obtain rfl : i = 0 := by omega
    rw [work, hwaiting] at hok
    dsimp only at hok
    rw [if_pos hsem] at hok
    cases hok

end

end MPMCThreadPool

end Xllm.Util
