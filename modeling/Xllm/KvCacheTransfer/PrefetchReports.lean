import Xllm.KvCacheTransfer.PrefetchResult
import Xllm.Lib.Rows

/-!
# What the prefetch workers have reported

`PrefetchRun` is a `PrefetchResult` with the calls made on it, their answers, and the summaries the
callback got. What the workers have reported is read off the calls: the batches of a worker are the
reports that were answered (`reports`), and the byte of a unit is the one at its place in the batch it
belongs to, or zero (`unitRow`).

`Aggregating` says that the result remembers exactly this. It is stated over the trace, not over the
order in which the streams of the workers take turns.
-/

namespace Xllm.Framework

open Xllm.Lib List

/-- The three calls of the workers' streams. -/
inductive PrefetchCall
  | recordBatchResult (workerIndex : Nat) (gatedHits nonGatedHits : List UInt8)
      (elapsed stopRequested : Bool)
  | markWorkerFailed
  | markWorkerEnded (workerIndex : Nat)
  deriving DecidableEq

/-- The calls so far, each with its answer. -/
abbrev PrefetchTrace := List (PrefetchCall × Option PrefetchControl)

/-- A result, the calls made on it, and the summaries its callback got. -/
structure PrefetchRun where
  result : PrefetchResult
  trace : PrefetchTrace := []
  delivered : List PrefetchSummary := []

namespace PrefetchRun

def step (run : PrefetchRun) (call : PrefetchCall) : Except PrefetchCheck PrefetchRun :=
  match call with
  | .recordBatchResult workerIndex gatedHits nonGatedHits elapsed stopRequested => do
    let (result, answer) ←
      run.result.recordBatchResult workerIndex gatedHits nonGatedHits elapsed stopRequested
    .ok { run with result, trace := run.trace ++ [(call, answer)] }
  | .markWorkerFailed =>
    .ok { run with result := run.result.markWorkerFailed, trace := run.trace ++ [(call, none)] }
  | .markWorkerEnded workerIndex => do
    let (result, fired) ← run.result.markWorkerEnded workerIndex
    .ok
      { result
        trace := run.trace ++ [(call, none)]
        delivered := run.delivered ++ fired.toList }

end PrefetchRun

/-! ## What the calls say

A report that was refused has no answer and counts for nothing. The batches of a worker are the reports
that were answered, in their order, and its closing batch is the one answered with `stop`. -/

namespace PrefetchTrace

/-- The batch that a call adds to those of a worker. -/
def report (workerIndex : Nat) :
    PrefetchCall × Option PrefetchControl → Option (List UInt8 × List UInt8)
  | (.recordBatchResult w gatedHits nonGatedHits _ _, some _) =>
    if w = workerIndex then some (gatedHits, nonGatedHits) else none
  | _ => none

def reports (trace : PrefetchTrace) (workerIndex : Nat) : List (List UInt8 × List UInt8) :=
  trace.filterMap (report workerIndex)

def Closed (trace : PrefetchTrace) (workerIndex : Nat) : Prop :=
  ∃ gatedHits nonGatedHits elapsed stopRequested,
    (.recordBatchResult workerIndex gatedHits nonGatedHits elapsed stopRequested, some .stop) ∈ trace

def Ended (trace : PrefetchTrace) (workerIndex : Nat) : Prop :=
  (.markWorkerEnded workerIndex, none) ∈ trace

/-- The worker ended before its closing batch. -/
def EndedEarly (trace : PrefetchTrace) (workerIndex : Nat) : Prop :=
  ∃ before since, trace = before ++ (.markWorkerEnded workerIndex, none) :: since ∧
    ¬ Closed before workerIndex

/-- Some worker failed, or ended before its closing batch. -/
def Failed (trace : PrefetchTrace) (workerCount : Nat) : Prop :=
  (.markWorkerFailed, none) ∈ trace ∨ ∃ w < workerCount, EndedEarly trace w

def AllEnded (trace : PrefetchTrace) (workerCount : Nat) : Prop :=
  ∀ w < workerCount, Ended trace w

end PrefetchTrace

/-- The byte of a unit in the batch it belongs to; a unit of no batch is a miss. -/
def unitByte (batchSize : Nat) (batches : List (List UInt8)) (u : Nat) : UInt8 :=
  ((batches[u / batchSize]?).bind (·[u % batchSize]?)).getD 0

/-- What batches say about the units of a request. -/
def unitRow (unitCount batchSize : Nat) (batches : List (List UInt8)) : List UInt8 :=
  (List.range unitCount).map (unitByte batchSize batches)

/-! ## Rows

A batch is copied to the places of its units; the last one may be longer than what is left of them. -/

section

variable {unitCount batchSize : Nat} {batches : List (List UInt8)} {bytes : List UInt8}

theorem unitRow_getElem? (u : Nat) (h : u < unitCount) :
    (unitRow unitCount batchSize batches)[u]? = some (unitByte batchSize batches u) := by
  unfold unitRow
  rw [List.getElem?_map, List.getElem?_range h]
  rfl

theorem unitRow_length : (unitRow unitCount batchSize batches).length = unitCount := by
  unfold unitRow
  rw [length_map, length_range]

theorem lt_unitCount_of_lt_batchCount {request : StoragePrefetchRequest} {k : Nat}
    (hsize : 0 < batchSize) (h : k < request.batchCount batchSize) :
    k * batchSize < request.unitCount := by
  have hmul := (Nat.le_div_iff_mul_le hsize).mp (Nat.succ_le_of_lt h)
  rw [Nat.succ_mul] at hmul
  omega

/-- The batches one after the other, cut or filled up with misses. -/
theorem unitRow_eq (hsize : 0 < batchSize) (hsizes : ∀ batch ∈ batches, batch.length = batchSize) :
    unitRow unitCount batchSize batches =
      (batches.flatten ++ List.replicate unitCount 0).take unitCount := by
  refine ext_getElem? fun u => ?_
  by_cases hu : u < unitCount
  · have hunit : unitByte batchSize batches u = (batches.flatten[u]?).getD 0 := by
      have hget := getElem?_flatten_of_length (r := u / batchSize) (Nat.mod_lt u hsize) hsizes
      rw [Nat.div_add_mod'] at hget
      rw [hget]
      rfl
    rw [unitRow_getElem? u hu, List.getElem?_take_of_lt hu, List.getElem?_append, hunit]
    split
    · rw [List.getElem?_eq_getElem ‹_›, Option.getD_some]
    · rw [List.getElem?_eq_none (Nat.le_of_not_lt ‹_›), List.getElem?_replicate_of_lt (by omega)]
      rfl
  · rw [List.getElem?_eq_none (by rw [unitRow_length]; omega), List.getElem?_eq_none (by simp; omega)]

/-- Copying a batch to its place adds it to the batches. -/
theorem copyInto_unitRow (hsize : 0 < batchSize) (hlength : bytes.length = batchSize)
    (hsizes : ∀ batch ∈ batches, batch.length = batchSize)
    (hbegin : batches.length * batchSize < unitCount) :
    PrefetchResult.copyInto (unitRow unitCount batchSize batches)
        (bytes.take (min batchSize (unitCount - batches.length * batchSize)))
        (batches.length * batchSize) =
      unitRow unitCount batchSize (batches ++ [bytes]) := by
  have hsizes' : ∀ batch ∈ batches ++ [bytes], batch.length = batchSize := by
    simpa [or_imp, forall_and] using ⟨hsizes, hlength⟩
  have hflat := length_flatten_of_length hsizes
  rw [unitRow_eq hsize hsizes, unitRow_eq hsize hsizes', PrefetchResult.copyInto, flatten_append,
    flatten_singleton, ← hflat]
  rw [← hflat] at hbegin
  generalize batches.flatten = front at hbegin ⊢
  simp only [take_append, drop_append, take_take, take_replicate, drop_replicate, drop_take,
    length_take, hlength, List.append_assoc]
  simp (disch := omega) only [take_of_length_le (l := front), drop_eq_nil_of_le, take_nil, nil_append,
    Nat.sub_eq_zero_of_le, Nat.zero_min, replicate_zero]
  congr 2
  · exact take_eq_take_iff.mpr (by omega)
  · congr 1
    omega

end

/-! ## One more call -/

namespace PrefetchTrace

variable {trace : PrefetchTrace} {call : PrefetchCall} {answer : Option PrefetchControl}
  {w workerCount : Nat}

theorem reports_snoc (trace : PrefetchTrace) (event : PrefetchCall × Option PrefetchControl) :
    reports (trace ++ [event]) w = reports trace w ++ (report w event).toList := by
  unfold reports
  cases hreport : report w event <;> simp [hreport]

theorem closed_snoc (event : PrefetchCall × Option PrefetchControl) :
    Closed (trace ++ [event]) w ↔ Closed trace w ∨
      ∃ gatedHits nonGatedHits elapsed stopRequested,
        event = (.recordBatchResult w gatedHits nonGatedHits elapsed stopRequested, some .stop) := by
  constructor
  · rintro ⟨g, n, e, s, hmem⟩
    rcases mem_append.mp hmem with hmem | hmem
    · exact Or.inl ⟨g, n, e, s, hmem⟩
    · exact Or.inr ⟨g, n, e, s, (mem_singleton.mp hmem).symm⟩
  · rintro (⟨g, n, e, s, hmem⟩ | ⟨g, n, e, s, rfl⟩)
    · exact ⟨g, n, e, s, mem_append.mpr (Or.inl hmem)⟩
    · exact ⟨g, n, e, s, mem_append.mpr (Or.inr mem_cons_self)⟩

theorem ended_snoc (event : PrefetchCall × Option PrefetchControl) :
    Ended (trace ++ [event]) w ↔ Ended trace w ∨ event = (.markWorkerEnded w, none) := by
  unfold Ended
  rw [mem_append, mem_singleton]
  exact or_congr_right eq_comm

theorem endedEarly_snoc (event : PrefetchCall × Option PrefetchControl) :
    EndedEarly (trace ++ [event]) w ↔
      EndedEarly trace w ∨ (event = (.markWorkerEnded w, none) ∧ ¬ Closed trace w) := by
  constructor
  · rintro ⟨before, since, htrace, hopen⟩
    rcases eq_nil_or_concat since with rfl | ⟨since, last, rfl⟩
    · have hlast := append_inj' htrace rfl
      refine Or.inr ⟨?_, ?_⟩
      · exact singleton_inj.mp hlast.2
      · rw [hlast.1]
        exact hopen
    · rw [concat_eq_append, ← cons_append, ← List.append_assoc] at htrace
      exact Or.inl ⟨before, since, (append_inj' htrace rfl).1, hopen⟩
  · rintro (⟨before, since, rfl, hopen⟩ | ⟨rfl, hopen⟩)
    · exact ⟨before, since ++ [event], by rw [List.append_assoc, cons_append], hopen⟩
    · exact ⟨trace, [], rfl, hopen⟩

theorem failed_snoc (event : PrefetchCall × Option PrefetchControl) :
    Failed (trace ++ [event]) workerCount ↔
      Failed trace workerCount ∨ event = (.markWorkerFailed, none) ∨
        ∃ w < workerCount, event = (.markWorkerEnded w, none) ∧ ¬ Closed trace w := by
  unfold Failed
  rw [mem_append, mem_singleton]
  constructor
  · rintro ((hmem | hlast) | ⟨w, hw, hearly⟩)
    · exact Or.inl (Or.inl hmem)
    · exact Or.inr (Or.inl hlast.symm)
    · rcases (endedEarly_snoc event).mp hearly with hearly | hlast
      · exact Or.inl (Or.inr ⟨w, hw, hearly⟩)
      · exact Or.inr (Or.inr ⟨w, hw, hlast⟩)
  · rintro ((hmem | ⟨w, hw, hearly⟩) | hlast | ⟨w, hw, hlast⟩)
    · exact Or.inl (Or.inl hmem)
    · exact Or.inr ⟨w, hw, (endedEarly_snoc event).mpr (Or.inl hearly)⟩
    · exact Or.inl (Or.inr hlast.symm)
    · exact Or.inr ⟨w, hw, (endedEarly_snoc event).mpr (Or.inr hlast)⟩

end PrefetchTrace

/-! ## The invariant

What a worker has is read off the trace alone, so a call of another worker leaves it
(`WorkerProgress.Remembers.frame`). -/

open PrefetchTrace

/-- What one worker's progress remembers of the calls. -/
structure WorkerProgress.Remembers (worker : WorkerProgress) (request : StoragePrefetchRequest)
    (batchSize : Nat) (trace : PrefetchTrace) (w : Nat) : Prop where
  sizes : ∀ batch ∈ reports trace w, batch.1.length = batchSize ∧ batch.2.length = batchSize
  index : worker.batchIndex < request.batchCount batchSize
  waiting : worker.state = .waitingResult →
    (reports trace w).length = worker.batchIndex ∧ ¬ Closed trace w
  closing : worker.state = .waitingClose → Closed trace w
  ended : worker.state = .ended ↔ Ended trace w
  early : worker.state = .ended → Closed trace w ∨ EndedEarly trace w
  gated : worker.gatedHits =
    unitRow request.unitCount batchSize ((reports trace w).map Prod.fst)
  nonGated : worker.nonGatedHits =
    unitRow request.unitCount batchSize ((reports trace w).map Prod.snd)

/-- The workers that have not ended. -/
def PrefetchResult.unended (workers : List WorkerProgress) : Nat :=
  workers.countP (·.state ≠ .ended)

/-- The result remembers what the calls say. -/
structure Aggregating (workerCount : Nat) (request : StoragePrefetchRequest) (batchSize : Nat)
    (run : PrefetchRun) : Prop where
  sameRequest : run.result.request = request
  sameSize : run.result.batchSize = batchSize
  length : run.result.workers.length = workerCount
  worker : ∀ (w : Nat) (progress : WorkerProgress), run.result.workers[w]? = some progress →
    progress.Remembers request batchSize run.trace w
  remaining : run.result.remainingWorkers = PrefetchResult.unended run.result.workers
  failed : run.result.failed = true ↔ Failed run.trace workerCount
  done : run.result.done = true ↔ run.result.remainingWorkers ≠ 0
  delivered : run.delivered.length = if run.result.remainingWorkers = 0 then 1 else 0

section

variable {request : StoragePrefetchRequest} {batchSize : Nat} {trace : PrefetchTrace}
  {worker : WorkerProgress} {w : Nat}

/-- A call that reports nothing for the worker and does not end it. -/
theorem WorkerProgress.Remembers.frame (h : worker.Remembers request batchSize trace w)
    {event : PrefetchCall × Option PrefetchControl} (hreport : report w event = none)
    (hend : event ≠ (.markWorkerEnded w, none)) :
    worker.Remembers request batchSize (trace ++ [event]) w := by
  have hreports : reports (trace ++ [event]) w = reports trace w := by
    rw [reports_snoc, hreport]
    simp
  have hclosed : Closed (trace ++ [event]) w ↔ Closed trace w := by
    rw [closed_snoc]
    refine or_iff_left ?_
    rintro ⟨g, n, e, s, rfl⟩
    exact absurd hreport (by simp [report])
  have hended : Ended (trace ++ [event]) w ↔ Ended trace w := by
    rw [ended_snoc]
    exact or_iff_left hend
  refine ⟨?_, h.index, ?_, ?_, ?_, ?_, ?_, ?_⟩
  · rw [hreports]
    exact h.sizes
  · rw [hreports, hclosed]
    exact h.waiting
  · rw [hclosed]
    exact h.closing
  · rw [hended]
    exact h.ended
  · rw [hclosed, endedEarly_snoc]
    exact fun hs => (h.early hs).imp_right Or.inl
  · rw [hreports]
    exact h.gated
  · rw [hreports]
    exact h.nonGated

theorem WorkerProgress.Remembers.end (h : worker.Remembers request batchSize trace w) :
    WorkerProgress.Remembers { worker with state := .ended } request batchSize
      (trace ++ [(.markWorkerEnded w, none)]) w := by
  have hreports : reports (trace ++ [(.markWorkerEnded w, none)]) w = reports trace w := by
    rw [reports_snoc]
    simp [report]
  refine ⟨?_, h.index, nofun, nofun, ?_,
    fun _ => ?_, ?_, ?_⟩
  · rw [hreports]
    exact h.sizes
  · rw [ended_snoc]
    exact iff_of_true rfl (Or.inr rfl)
  · rw [closed_snoc, endedEarly_snoc]
    by_cases hclosed : Closed trace w
    · exact Or.inl (Or.inl hclosed)
    · exact Or.inr (Or.inr ⟨rfl, hclosed⟩)
  · rw [hreports]
    exact h.gated
  · rw [hreports]
    exact h.nonGated

/-- An answered report: the next batch is in its place. -/
theorem WorkerProgress.Remembers.record (h : worker.Remembers request batchSize trace w)
    (hsize : 0 < batchSize) (hwaiting : worker.state = .waitingResult)
    {gatedHits nonGatedHits : List UInt8} (hgated : gatedHits.length = batchSize)
    (hnonGated : nonGatedHits.length = batchSize) (elapsed stopRequested : Bool)
    {goesOn : Bool} (hnext : goesOn = true → worker.batchIndex + 1 < request.batchCount batchSize) :
    WorkerProgress.Remembers
      { worker with
        gatedHits := PrefetchResult.copyInto worker.gatedHits
          (gatedHits.take (min batchSize (request.unitCount - worker.batchIndex * batchSize)))
          (worker.batchIndex * batchSize)
        nonGatedHits := PrefetchResult.copyInto worker.nonGatedHits
          (nonGatedHits.take (min batchSize (request.unitCount - worker.batchIndex * batchSize)))
          (worker.batchIndex * batchSize)
        batchIndex := if goesOn then worker.batchIndex + 1 else worker.batchIndex
        state := if goesOn then .waitingResult else .waitingClose }
      request batchSize
      (trace ++ [(.recordBatchResult w gatedHits nonGatedHits elapsed stopRequested,
        some (if goesOn then .continue else .stop))]) w := by
  obtain ⟨hlength, hopen⟩ := h.waiting hwaiting
  have hbegin := lt_unitCount_of_lt_batchCount hsize h.index
  have hnotEnded : ¬ Ended trace w := by
    rw [← h.ended, hwaiting]
    simp
  have hreports : reports (trace ++ [(.recordBatchResult w gatedHits nonGatedHits elapsed
      stopRequested, some (if goesOn then .continue else .stop))]) w =
        reports trace w ++ [(gatedHits, nonGatedHits)] := by
    rw [reports_snoc]
    simp [report]
  have hclosed : Closed (trace ++ [(.recordBatchResult w gatedHits nonGatedHits elapsed
      stopRequested, some (if goesOn then .continue else .stop))]) w ↔ goesOn = false := by
    rw [closed_snoc, or_iff_right hopen]
    cases goesOn with
    | true => simp
    | false => simp
  have hended : ¬ Ended (trace ++ [(.recordBatchResult w gatedHits nonGatedHits elapsed
      stopRequested, some (if goesOn then .continue else .stop))]) w := by
    rw [ended_snoc]
    rintro (hend | hend)
    · exact hnotEnded hend
    · cases hend
  have hrow : ∀ (bytes : List UInt8) (batches : List (List UInt8)), bytes.length = batchSize →
      (∀ batch ∈ batches, batch.length = batchSize) → batches.length = worker.batchIndex →
      PrefetchResult.copyInto (unitRow request.unitCount batchSize batches)
          (bytes.take (min batchSize (request.unitCount - worker.batchIndex * batchSize)))
          (worker.batchIndex * batchSize) =
        unitRow request.unitCount batchSize (batches ++ [bytes]) := by
    intro bytes batches hbytes hsizes hbatches
    rw [← hbatches] at hbegin ⊢
    exact copyInto_unitRow hsize hbytes hsizes hbegin
  refine ⟨?_, ?_, ?_, ?_, ?_, ?_, ?_, ?_⟩
  · rw [hreports]
    intro batch hbatch
    rcases mem_append.mp hbatch with hbatch | hbatch
    · exact h.sizes batch hbatch
    · rw [mem_singleton.mp hbatch]
      exact ⟨hgated, hnonGated⟩
  · cases goesOn with
    | true => exact hnext rfl
    | false => exact h.index
  · rw [hclosed, hreports, length_append, hlength]
    cases goesOn with
    | true => exact fun _ => ⟨rfl, by simp⟩
    | false => exact nofun
  · rw [hclosed]
    cases goesOn with
    | true => exact nofun
    | false => exact fun _ => rfl
  · refine iff_of_false ?_ hended
    cases goesOn <;> simp
  · cases goesOn <;> simp
  · rw [hreports, map_append, h.gated]
    exact hrow _ _ hgated (forall_mem_map.mpr fun batch hbatch => (h.sizes batch hbatch).1)
      (by rw [length_map, hlength])
  · rw [hreports, map_append, h.nonGated]
    exact hrow _ _ hnonGated (forall_mem_map.mpr fun batch hbatch => (h.sizes batch hbatch).2)
      (by rw [length_map, hlength])

end

/-! ## At the start, and after a call

A call changes the result and adds an event; what the other workers have stays (`worker_set`). -/

namespace Aggregating

variable {workerCount : Nat} {request : StoragePrefetchRequest} {batchSize : Nat}
  {run run' : PrefetchRun}

variable {result : PrefetchResult}

theorem initial {timeoutMs : Int}
    (hmake : PrefetchResult.make workerCount request batchSize timeoutMs = .ok result) :
    (0 < workerCount ∧ 0 < batchSize ∧ request.units ≠ []) ∧
      Aggregating workerCount request batchSize { result } := by
  unfold PrefetchResult.make at hmake
  split at hmake
  · cases hmake
  split at hmake
  · cases hmake
  split at hmake
  · cases hmake
  split at hmake
  · cases hmake
  rename_i hcount hsize hvalid _
  cases hmake
  have hunits : request.units ≠ [] := by
    intro hnil
    exact hvalid (by simp [StoragePrefetchRequest.valid, hnil])
  have hpos : 0 < request.unitCount := length_pos_iff.mpr hunits
  have hbatch : 0 < request.batchCount batchSize := by
    exact Nat.div_pos (by omega) (Nat.pos_of_ne_zero hsize)
  have hrow : List.replicate request.unitCount (0 : UInt8) =
      unitRow request.unitCount batchSize [] := by
    apply ext_getElem?
    intro u
    by_cases hu : u < request.unitCount
    · rw [unitRow_getElem? u hu, List.getElem?_replicate_of_lt hu]
      rfl
    · rw [List.getElem?_eq_none (by simpa using hu), List.getElem?_eq_none (by
        rw [unitRow_length]
        omega)]
  refine ⟨⟨Nat.pos_of_ne_zero hcount, Nat.pos_of_ne_zero hsize, hunits⟩, rfl, rfl, by simp,
    fun w progress hget => ?_, ?_, ?_, by simpa using hcount, ?_⟩
  · have hworker := eq_of_mem_replicate (mem_of_getElem? hget)
    subst hworker
    exact ⟨by simp [reports], hbatch, fun _ => ⟨rfl, by simp [Closed]⟩, nofun,
      by simp [Ended], nofun, hrow, hrow⟩
  · simp [PrefetchResult.unended, countP_replicate]
  · simp [Failed, EndedEarly]
  · rw [if_neg (by exact hcount)]
    rfl

variable {w : Nat}

theorem worker_of_lt (h : Aggregating workerCount request batchSize run)
    (hw : w < workerCount) : ∃ worker, run.result.workers[w]? = some worker := by
  rw [← h.length] at hw
  exact ⟨_, List.getElem?_eq_getElem hw⟩

variable {worker : WorkerProgress}

theorem lt_of_worker (h : Aggregating workerCount request batchSize run)
    (hget : run.result.workers[w]? = some worker) : w < workerCount := by
  rw [← h.length]
  exact (List.getElem?_eq_some_iff.mp hget).1

theorem remaining_eq_zero_iff (h : Aggregating workerCount request batchSize run) :
    run.result.remainingWorkers = 0 ↔ AllEnded run.trace workerCount := by
  rw [h.remaining]
  unfold PrefetchResult.unended AllEnded
  rw [countP_eq_zero]
  constructor
  · intro hall w hw
    obtain ⟨worker, hget⟩ := h.worker_of_lt hw
    have hstate := hall worker (mem_of_getElem? hget)
    exact (h.worker w worker hget).ended.mp (by simpa using hstate)
  · intro hall worker hmem
    obtain ⟨w, hget⟩ := mem_iff_getElem?.mp hmem
    have hended := (h.worker w worker hget).ended.mpr (hall w (h.lt_of_worker hget))
    simp [hended]

variable {event : PrefetchCall × Option PrefetchControl}

/-- A call after which every worker is as it was. -/
theorem keep (h : Aggregating workerCount request batchSize run)
    (hworkers : result.workers = run.result.workers)
    (hremaining : result.remainingWorkers = run.result.remainingWorkers)
    (hrequest : result.request = run.result.request)
    (hsize : result.batchSize = run.result.batchSize) (hdone : result.done = run.result.done)
    (hreport : ∀ w, report w event = none) (hend : ∀ w, event ≠ (.markWorkerEnded w, none))
    (hfailed : result.failed = true ↔
      run.result.failed = true ∨ event = (.markWorkerFailed, none)) :
    Aggregating workerCount request batchSize
      { run with result, trace := run.trace ++ [event] } := by
  refine ⟨hrequest.trans h.sameRequest, hsize.trans h.sameSize, ?_, fun w worker hget => ?_, ?_, ?_,
    ?_, ?_⟩
  · rw [hworkers]
    exact h.length
  · rw [hworkers] at hget
    exact (h.worker w worker hget).frame (hreport w) (hend w)
  · rw [hworkers, hremaining]
    exact h.remaining
  · rw [hfailed, h.failed, failed_snoc]
    refine or_congr_right (or_iff_left ?_).symm
    rintro ⟨w, -, heq, -⟩
    exact hend w heq
  · rw [hdone, hremaining]
    exact h.done
  · rw [hremaining]
    exact h.delivered

theorem markWorkerFailed (h : Aggregating workerCount request batchSize run) :
    Aggregating workerCount request batchSize
      { run with
        result := run.result.markWorkerFailed
        trace := run.trace ++ [(.markWorkerFailed, none)] } :=
  h.keep rfl rfl rfl rfl rfl (fun _ => rfl) (fun _ => by simp)
    (iff_of_true rfl (Or.inr rfl))

/-- A call of one worker. -/
theorem worker_set (h : Aggregating workerCount request batchSize run)
    (hw : w < workerCount) (hnew : worker.Remembers request batchSize (run.trace ++ [event]) w)
    (hothers : ∀ v, v ≠ w → report v event = none ∧ event ≠ (.markWorkerEnded v, none)) :
    ∀ (v : Nat) (progress : WorkerProgress),
      (run.result.workers.set w worker)[v]? = some progress →
      progress.Remembers request batchSize (run.trace ++ [event]) v := by
  intro v progress hget
  by_cases hsame : w = v
  · subst hsame
    rw [List.getElem?_set_self (by rw [h.length]; exact hw), Option.some.injEq] at hget
    rw [← hget]
    exact hnew
  · rw [List.getElem?_set_ne hsame] at hget
    obtain ⟨hreport, hend⟩ := hothers v (Ne.symm hsame)
    exact (h.worker v progress hget).frame hreport hend

theorem unended_set {workers : List WorkerProgress} (worker' : WorkerProgress)
    (hget : workers[w]? = some worker) (hstate : worker.state ≠ .ended) :
    PrefetchResult.unended workers = PrefetchResult.unended (workers.set w worker') +
      if worker'.state = .ended then 1 else 0 := by
  obtain ⟨hlt, rfl⟩ := List.getElem?_eq_some_iff.mp hget
  have hpos : 0 < PrefetchResult.unended workers :=
    countP_pos_iff.mpr ⟨_, getElem_mem hlt, by simp [hstate]⟩
  unfold PrefetchResult.unended at hpos ⊢
  rw [countP_set hlt, decide_eq_true hstate, if_pos rfl]
  split <;> simp_all

end Aggregating

end Xllm.Framework
