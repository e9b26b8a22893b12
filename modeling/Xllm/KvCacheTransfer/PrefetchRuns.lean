import Mathlib
import Xllm.KvCacheTransfer.PrefetchReports
import Xllm.Lib.Run

/-!
# Prefetch aggregation over any order of calls

The result remembers what the workers have reported (`Aggregating`), for any order of the calls, and
**`prefetch_aggregation`** says what the callback gets of it and when.

Sums of bytes wrap, so the summary is read as numbers of workers only below 256 workers and with
reports of 0 and 1. With 256 workers the number of ranks is the byte 0, and a unit that every worker
misses counts as hit by all of them (`no_worker_hits_and_all_count`).
-/

namespace Xllm.Framework

open Xllm.Lib List PrefetchTrace

/-! ## Steps

Each call keeps `Aggregating`. Only the call that ends the last worker brings `remaining_workers` to
zero, and only it fires the callback. -/

namespace Aggregating

variable {workerCount : Nat} {request : StoragePrefetchRequest} {batchSize : Nat}
  {run run' : PrefetchRun}
variable {result : PrefetchResult} {w : Nat} {worker : WorkerProgress}
  {event : PrefetchCall × Option PrefetchControl}

/-- A report is answered only if the worker waits for one, is in range and has whole batches. -/
theorem recordBatchResult (h : Aggregating workerCount request batchSize run)
    (hsize : 0 < batchSize) (w : Nat) (gatedHits nonGatedHits : List UInt8)
    (elapsed stopRequested : Bool) :
    ∃ result answer,
      run.result.recordBatchResult w gatedHits nonGatedHits elapsed stopRequested =
        .ok (result, answer) ∧
      (answer ≠ none → ¬ Closed run.trace w ∧ ¬ Ended run.trace w) ∧
      Aggregating workerCount request batchSize
        { run with
          result
          trace := run.trace ++ [(.recordBatchResult w gatedHits nonGatedHits elapsed stopRequested,
            answer)] } := by
  have hrefuse : Aggregating workerCount request batchSize
      { run with
        result := { run.result with continuePrefetch := false }
        trace := run.trace ++ [(.recordBatchResult w gatedHits nonGatedHits elapsed stopRequested,
          none)] } :=
    h.keep rfl rfl rfl rfl rfl (fun _ => rfl) (fun _ => by simp)
      (or_iff_left (by simp)).symm
  unfold PrefetchResult.recordBatchResult
  cases hget : run.result.workers[w]? with
  | none => exact ⟨_, none, rfl, fun hne => absurd rfl hne, hrefuse⟩
  | some worker =>
    dsimp only
    split
    · exact ⟨_, none, rfl, fun hne => absurd rfl hne, hrefuse⟩
    rename_i hok
    simp only [ne_eq, not_or, not_not, Nat.not_le, h.sameSize] at hok
    obtain ⟨hwaiting, hindex, hgated, hnonGated⟩ := hok
    have hold := h.worker w worker hget
    have hw := h.lt_of_worker hget
    have hbegin : run.result.request.batchUnitBegin worker.batchIndex run.result.batchSize =
        .ok (worker.batchIndex * batchSize) := by
      unfold StoragePrefetchRequest.batchUnitBegin
      rw [h.sameRequest, h.sameSize, if_pos hold.index]
    have hcount : run.result.request.batchUnitCount worker.batchIndex run.result.batchSize =
        .ok (min batchSize (request.unitCount - worker.batchIndex * batchSize)) := by
      unfold StoragePrefetchRequest.batchUnitCount
      rw [hbegin, h.sameRequest, h.sameSize]
      rfl
    rw [hbegin, hcount]
    simp only [bind, Except.bind]
    generalize hcontinue : PrefetchResult.shouldContinuePrefetch _ _ _ _ _ = decision
    obtain ⟨result, goesOn⟩ := decision
    have hframe : result.workers = run.result.workers ∧ result.request = run.result.request ∧
        result.batchSize = run.result.batchSize ∧ result.failed = run.result.failed ∧
        result.done = run.result.done ∧
        result.remainingWorkers = run.result.remainingWorkers := by
      cases hcontinue
      exact ⟨rfl, rfl, rfl, rfl, rfl, rfl⟩
    have hnext : goesOn = true → worker.batchIndex + 1 < request.batchCount batchSize := by
      intro hgo
      have hbatch : run.result.batchCount = request.batchCount batchSize := by
        unfold PrefetchResult.batchCount
        rw [h.sameRequest, h.sameSize]
      cases hcontinue
      rw [Bool.and_eq_true, Bool.and_eq_true, decide_eq_true_eq, hbatch] at hgo
      exact hgo.1.2
    have hopen : ¬ Closed run.trace w ∧ ¬ Ended run.trace w := by
      refine ⟨(hold.waiting hwaiting).2, ?_⟩
      rw [← hold.ended, hwaiting]
      simp
    have hnew := hold.record hsize hwaiting hgated hnonGated elapsed stopRequested hnext
    -- both answers set the worker and leave the counts, as a report ends no worker
    have hset : ∀ (worker' : WorkerProgress) (answer : PrefetchControl),
        worker'.state ≠ .ended →
        worker'.Remembers request batchSize (run.trace ++ [(.recordBatchResult w gatedHits
          nonGatedHits elapsed stopRequested, some answer)]) w →
        Aggregating workerCount request batchSize
          { run with
            result := { result with workers := result.workers.set w worker' }
            trace := run.trace ++ [(.recordBatchResult w gatedHits nonGatedHits elapsed
              stopRequested, some answer)] } := by
      intro worker' answer hstate hremembers
      obtain ⟨hworkers, hrequest, hbatchSize, hfailed, hdone, hremaining⟩ := hframe
      refine ⟨hrequest.trans h.sameRequest, hbatchSize.trans h.sameSize, ?_, ?_, ?_, ?_, ?_, ?_⟩
      · rw [hworkers, length_set]
        exact h.length
      · rw [hworkers]
        refine h.worker_set hw hremembers fun v hv => ⟨?_, by simp⟩
        simp [report, Ne.symm hv]
      · rw [hremaining, h.remaining, hworkers, unended_set _ hget (by simp [hwaiting]), if_neg hstate,
          Nat.add_zero]
      · rw [hfailed, h.failed, failed_snoc]
        simp
      · rw [hdone, hremaining]
        exact h.done
      · rw [hremaining]
        exact h.delivered
    cases goesOn with
    | true =>
      refine ⟨_, some .continue, rfl, fun _ => hopen, hset _ _ ?_ ?_⟩
      · simp [hwaiting]
      · simp only [if_true, ← hwaiting] at hnew
        exact hnew
    | false =>
      refine ⟨_, some .stop, rfl, fun _ => hopen, hset _ _ (by simp) ?_⟩
      exact hnew

/-- The end of a worker, the first time and again. -/
theorem markWorkerEnded (h : Aggregating workerCount request batchSize run) (hw : w < workerCount) :
    ∃ result fired, run.result.markWorkerEnded w = .ok (result, fired) ∧
      (fired = if run.result.remainingWorkers ≠ 0 ∧ result.remainingWorkers = 0 then
        some result.summary else none) ∧
      Aggregating workerCount request batchSize
        { result
          trace := run.trace ++ [(.markWorkerEnded w, none)]
          delivered := run.delivered ++ fired.toList } := by
  obtain ⟨worker, hget⟩ := h.worker_of_lt hw
  have hold := h.worker w worker hget
  have hend : WorkerProgress.Remembers { worker with state := .ended } request batchSize
      (run.trace ++ [(.markWorkerEnded w, none)]) w := hold.end
  have hothers : ∀ v, v ≠ w →
      report v ((.markWorkerEnded w, none) : PrefetchCall × Option PrefetchControl) = none ∧
      ((.markWorkerEnded w, none) : PrefetchCall × Option PrefetchControl) ≠
        (.markWorkerEnded v, none) :=
    fun v hv => ⟨rfl, by simpa using Ne.symm hv⟩
  have hfailed : Failed (run.trace ++ [(.markWorkerEnded w, none)]) workerCount ↔
      Failed run.trace workerCount ∨ ¬ Closed run.trace w := by
    rw [failed_snoc]
    refine or_congr_right ⟨?_, fun hopen => Or.inr ⟨w, hw, rfl, hopen⟩⟩
    rintro (heq | ⟨v, -, heq, hopen⟩)
    · cases heq
    · simp only [Prod.mk.injEq, PrefetchCall.markWorkerEnded.injEq, and_true] at heq
      rw [heq]
      exact hopen
  unfold PrefetchResult.markWorkerEnded
  rw [hget]
  dsimp only
  by_cases hstate : worker.state = .ended
  · -- a repeated end changes nothing
    rw [if_pos hstate]
    have hsame : ({ worker with state := .ended } : WorkerProgress) = worker := by
      cases worker
      cases hstate
      rfl
    rw [hsame] at hend
    refine ⟨_, none, rfl, ?_, h.sameRequest, h.sameSize, h.length, fun v progress hv => ?_,
      h.remaining, ?_, h.done, ?_⟩
    · rw [if_neg (by rintro ⟨hne, hzero⟩; exact hne hzero)]
    · by_cases hsameWorker : v = w
      · subst hsameWorker
        rw [hget, Option.some.injEq] at hv
        rw [← hv]
        exact hend
      · obtain ⟨hreport, hne⟩ := hothers v hsameWorker
        exact (h.worker v progress hv).frame hreport hne
    · rw [hfailed, h.failed]
      refine (or_iff_left_of_imp fun hopen => ?_).symm
      exact Or.inr ⟨w, hw, (hold.early hstate).resolve_left hopen⟩
    · rw [Option.toList_none, append_nil]
      exact h.delivered
  rw [if_neg hstate]
  have hunended := unended_set { worker with state := .ended } hget hstate
  rw [if_pos rfl, ← h.remaining] at hunended
  -- the flag that an early end raises
  generalize hflag : (if worker.state ≠ .waitingClose then run.result.markWorkerFailed
    else run.result) = flagged
  have hframe : flagged.workers = run.result.workers ∧ flagged.request = run.result.request ∧
      flagged.batchSize = run.result.batchSize ∧ flagged.done = run.result.done ∧
      flagged.remainingWorkers = run.result.remainingWorkers ∧
      (flagged.failed = true ↔ Failed (run.trace ++ [(.markWorkerEnded w, none)]) workerCount) := by
    rw [hfailed, ← h.failed, ← hflag]
    by_cases hclose : worker.state = .waitingClose
    · rw [if_neg (not_not.mpr hclose)]
      exact ⟨rfl, rfl, rfl, rfl, rfl, (or_iff_left (not_not.mpr (hold.closing hclose))).symm⟩
    · rw [if_pos hclose]
      have hwaiting : worker.state = .waitingResult := by
        cases hs : worker.state with
        | waitingResult => rfl
        | waitingClose => exact absurd hs hclose
        | ended => exact absurd hs hstate
      exact ⟨rfl, rfl, rfl, rfl, rfl, iff_of_true rfl (Or.inr (hold.waiting hwaiting).2)⟩
  obtain ⟨hworkers, hrequest, hbatchSize, hdone, hremaining, hfail⟩ := hframe
  have hleft : run.result.remainingWorkers ≠ 0 := by
    rw [hunended]
    exact Nat.succ_ne_zero _
  have hcount : flagged.remainingWorkers - 1 =
      PrefetchResult.unended (flagged.workers.set w { worker with state := .ended }) := by
    rw [hremaining, hunended, hworkers]
    rfl
  have hdoneTrue : run.result.done = true := h.done.mpr hleft
  have hnoneYet : run.delivered = [] := by
    rw [← length_eq_zero_iff, h.delivered, if_neg hleft]
  rw [if_neg (by rw [hremaining]; exact hleft)]
  by_cases hlast : flagged.remainingWorkers - 1 = 0
  · rw [if_pos hlast]
    refine ⟨_, _, rfl, ?_, hrequest.trans h.sameRequest, hbatchSize.trans h.sameSize, ?_, ?_, ?_,
      hfail, ?_, ?_⟩
    · rw [hdone, hdoneTrue, if_pos rfl]
      exact (if_pos ⟨hleft, hlast⟩).symm
    · rw [length_set, hworkers]
      exact h.length
    · rw [hworkers]
      exact h.worker_set hw hend hothers
    · exact hcount
    · exact iff_of_false (by simp) (not_not.mpr hlast)
    · rw [if_pos hlast, hdone, hdoneTrue, if_pos rfl, hnoneYet]
      rfl
  · rw [if_neg hlast]
    refine ⟨_, _, rfl, ?_, hrequest.trans h.sameRequest, hbatchSize.trans h.sameSize, ?_, ?_, ?_,
      hfail, ?_, ?_⟩
    · rw [if_neg fun hzero => hlast hzero.2]
    · rw [length_set, hworkers]
      exact h.length
    · rw [hworkers]
      exact h.worker_set hw hend hothers
    · exact hcount
    · rw [hdone, hdoneTrue]
      exact iff_of_true rfl hlast
    · rw [if_neg hlast, hnoneYet]
      rfl

theorem step (h : Aggregating workerCount request batchSize run) (hsize : 0 < batchSize)
    {call : PrefetchCall} (hcall : ∀ w, call = .markWorkerEnded w → w < workerCount) :
    ∃ run', run.step call = .ok run' ∧ Aggregating workerCount request batchSize run' := by
  cases call with
  | recordBatchResult w gatedHits nonGatedHits elapsed stopRequested =>
    obtain ⟨result, answer, hrecord, -, hnew⟩ :=
      h.recordBatchResult hsize w gatedHits nonGatedHits elapsed stopRequested
    refine ⟨_, ?_, hnew⟩
    unfold PrefetchRun.step
    dsimp only
    rw [hrecord]
    rfl
  | markWorkerFailed => exact ⟨_, rfl, h.markWorkerFailed⟩
  | markWorkerEnded w =>
    obtain ⟨result, fired, hmark, -, hnew⟩ := h.markWorkerEnded (hcall w rfl)
    refine ⟨_, ?_, hnew⟩
    unfold PrefetchRun.step
    dsimp only
    rw [hmark]
    rfl

end Aggregating

/-! ## Sums of bytes

A sum of bytes wraps at 256. Below 256 rows of zeros and ones it is the number of ones. -/

section

variable {unitCount : Nat} {rows : List (List UInt8)}

variable {u : Nat}

/-- By induction on the rows, for any row to start from. -/
theorem sumRows_eq (hrows : ∀ row ∈ rows, row.length = unitCount) :
    PrefetchResult.sumRows unitCount rows =
      (List.range unitCount).map fun u => (rows.map (·.getD u 0)).foldl (· + ·) 0 := by
  have hgo : ∀ f : Nat → UInt8, rows.foldl (List.zipWith (· + ·)) ((List.range unitCount).map f) =
      (List.range unitCount).map fun u => (rows.map (·.getD u 0)).foldl (· + ·) (f u) := by
    induction rows with
    | nil => exact fun f => rfl
    | cons row rows ih =>
      intro f
      have hrow := hrows row mem_cons_self
      have hadd : List.zipWith (· + ·) ((List.range unitCount).map f) row =
          (List.range unitCount).map fun u => f u + row.getD u 0 :=
        ext_getElem (by simp [hrow]) fun u _ hu => by
          rw [length_map, length_range] at hu
          simp [hrow, hu]
      rw [foldl_cons, hadd]
      exact ih (fun r hr => hrows r (mem_cons_of_mem _ hr)) _
  have hzero := hgo fun _ => 0
  rw [map_const', length_range] at hzero
  exact hzero

theorem foldl_add_toNat (bytes : List UInt8) : ∀ sum : UInt8, (∀ b ∈ bytes, b ≤ 1) →
    sum.toNat + bytes.length < 256 →
    (bytes.foldl (· + ·) sum).toNat = sum.toNat + bytes.countP (· ≠ 0) := by
  induction bytes with
  | nil => exact fun sum _ _ => by simp
  | cons b bytes ih =>
    intro sum hall hfits
    rw [length_cons] at hfits
    have hb : b.toNat ≤ 1 := hall b mem_cons_self
    have hsum : (sum + b).toNat = sum.toNat + b.toNat := by
      rw [UInt8.toNat_add]
      exact Nat.mod_eq_of_lt (by omega)
    have hcount : countP (· ≠ 0) (b :: bytes) = b.toNat + countP (· ≠ 0) bytes := by
      rw [countP_cons, Nat.add_comm]
      split <;> simp_all [← UInt8.toNat_inj]
      omega
    rw [foldl_cons, ih _ (fun x hx => hall x (mem_cons_of_mem _ hx)) (by omega), hsum, hcount,
      Nat.add_assoc]

theorem sumRows_eq_iff (hrows : ∀ row ∈ rows, row.length = unitCount)
    (hu : u < unitCount) (hcount : rows.length < 256) (hbits : ∀ row ∈ rows, row.getD u 0 ≤ 1) :
    (PrefetchResult.sumRows unitCount rows)[u]? = some (UInt8.ofNat rows.length) ↔
      ∀ row ∈ rows, row.getD u 0 ≠ 0 := by
  have hsum := foldl_add_toNat (rows.map (·.getD u 0)) 0 (by
    intro b hb
    obtain ⟨row, hrow, rfl⟩ := mem_map.mp hb
    exact hbits row hrow) (by
    rw [length_map]
    exact lt_of_eq_of_lt (Nat.zero_add _) hcount)
  have hzero : (0 : UInt8).toNat = 0 := rfl
  have hlength : (rows.map (·.getD u 0)).length = rows.length := length_map _
  rw [sumRows_eq hrows, List.getElem?_map, List.getElem?_range hu, Option.map_some,
    Option.some.injEq, ← UInt8.toNat_inj, hsum, hzero, Nat.zero_add,
    UInt8.toNat_ofNat_of_lt' hcount, ← hlength, countP_eq_length]
  simp

end

/-! ## The aggregate -/

section

variable {workerCount batchSize : Nat} {request : StoragePrefetchRequest} {timeoutMs : Int}
  {result : PrefetchResult} {calls : List PrefetchCall} {run : PrefetchRun}

theorem reaches_aggregating
    (hmake : PrefetchResult.make workerCount request batchSize timeoutMs = .ok result)
    (hrun : Reaches PrefetchRun.step { result } calls run) :
    Aggregating workerCount request batchSize run := by
  obtain ⟨⟨-, hsize, -⟩, hinit⟩ := Aggregating.initial hmake
  refine hrun.invariant (fun s call s' hs _ hstep => ?_) hinit
  have hcall : ∀ w, call = .markWorkerEnded w → w < workerCount := by
    rintro w rfl
    unfold PrefetchRun.step PrefetchResult.markWorkerEnded at hstep
    cases hget : s.result.workers[w]? with
    | some worker => exact hs.lt_of_worker hget
    | none =>
      dsimp only at hstep
      rw [hget] at hstep
      cases hstep
  obtain ⟨t, ht, hnew⟩ := hs.step hsize hcall
  rw [hstep] at ht
  cases ht
  exact hnew

/-- A row of sums, of the gated or of the other hits. -/
theorem Aggregating.sums (h : Aggregating workerCount request batchSize run)
    (row : WorkerProgress → List UInt8) (part : List UInt8 × List UInt8 → List UInt8)
    (hrow : ∀ (w : Nat) (worker : WorkerProgress), run.result.workers[w]? = some worker →
      row worker = unitRow request.unitCount batchSize ((reports run.trace w).map part)) :
    (PrefetchResult.sumRows request.unitCount (run.result.workers.map row)).length =
        request.unitCount ∧
      (workerCount < 256 → (∀ w < workerCount, ∀ u < request.unitCount,
          unitByte batchSize ((reports run.trace w).map part) u ≤ 1) → ∀ u < request.unitCount,
          ((PrefetchResult.sumRows request.unitCount (run.result.workers.map row))[u]? =
              some (UInt8.ofNat workerCount) ↔
            ∀ w < workerCount, unitByte batchSize ((reports run.trace w).map part) u ≠ 0)) := by
  have hrows : ∀ bytes ∈ run.result.workers.map row, ∃ w < workerCount,
      bytes = unitRow request.unitCount batchSize ((reports run.trace w).map part) := by
    intro bytes hmem
    obtain ⟨worker, hworker, rfl⟩ := mem_map.mp hmem
    obtain ⟨w, hget⟩ := mem_iff_getElem?.mp hworker
    exact ⟨w, h.lt_of_worker hget, hrow w worker hget⟩
  have hbyte : ∀ (batches : List (List UInt8)) (u : Nat), u < request.unitCount →
      (unitRow request.unitCount batchSize batches).getD u 0 = unitByte batchSize batches u := by
    intro batches u hu
    rw [List.getD_eq_getElem?_getD, unitRow_getElem? u hu]
    rfl
  have hlength : ∀ bytes ∈ run.result.workers.map row, bytes.length = request.unitCount := by
    intro bytes hmem
    obtain ⟨w, -, rfl⟩ := hrows bytes hmem
    exact unitRow_length
  refine ⟨by rw [sumRows_eq hlength, length_map, length_range], fun hfits hbits u hu => ?_⟩
  have hiff := sumRows_eq_iff hlength hu (by rw [length_map, h.length]; exact hfits) (by
    intro bytes hmem
    obtain ⟨w, hw, rfl⟩ := hrows bytes hmem
    rw [hbyte _ u hu]
    exact hbits w hw u hu)
  rw [length_map, h.length] at hiff
  rw [hiff]
  constructor
  · intro hall w hw
    obtain ⟨worker, hget⟩ := h.worker_of_lt hw
    have hhit := hall _ (mem_map_of_mem (mem_of_getElem? hget))
    rw [hrow w worker hget, hbyte _ u hu] at hhit
    exact hhit
  · intro hall bytes hmem
    obtain ⟨w, hw, rfl⟩ := hrows bytes hmem
    rw [hbyte _ u hu]
    exact hall w hw

theorem Aggregating.summary (h : Aggregating workerCount request batchSize run)
    (hunits : request.units ≠ []) :
    ((run.result.summary.gatedHits = [] ↔ Failed run.trace workerCount) ∧
      (run.result.summary.nonGatedHits = [] ↔ Failed run.trace workerCount)) ∧
    (¬ Failed run.trace workerCount → workerCount < 256 →
      (∀ w < workerCount, ∀ u < request.unitCount,
        unitByte batchSize ((reports run.trace w).map Prod.fst) u ≤ 1 ∧
        unitByte batchSize ((reports run.trace w).map Prod.snd) u ≤ 1) →
      run.result.summary.rankCount.toNat = workerCount ∧ ∀ u < request.unitCount,
        (run.result.summary.gatedHits[u]? = some run.result.summary.rankCount ↔
          ∀ w < workerCount, unitByte batchSize ((reports run.trace w).map Prod.fst) u ≠ 0) ∧
        (run.result.summary.nonGatedHits[u]? = some run.result.summary.rankCount ↔
          ∀ w < workerCount, unitByte batchSize ((reports run.trace w).map Prod.snd) u ≠ 0)) := by
  have hpos : 0 < request.unitCount := length_pos_iff.mpr hunits
  obtain ⟨hgated, hgatedHits⟩ := h.sums (·.gatedHits) Prod.fst
    fun w worker hget => (h.worker w worker hget).gated
  obtain ⟨hnonGated, hnonGatedHits⟩ := h.sums (·.nonGatedHits) Prod.snd
    fun w worker hget => (h.worker w worker hget).nonGated
  have hne : ∀ sums : List UInt8, sums.length = request.unitCount → sums ≠ [] := by
    rintro sums hlength rfl
    exact absurd hlength (Nat.ne_of_lt hpos)
  unfold PrefetchResult.summary
  rw [h.sameRequest, h.length]
  by_cases hfailed : run.result.failed = true
  · rw [if_pos hfailed]
    have htrace := h.failed.mp hfailed
    exact ⟨⟨iff_of_true rfl htrace, iff_of_true rfl htrace⟩, fun hnot => absurd htrace hnot⟩
  · rw [if_neg hfailed]
    have htrace : ¬ Failed run.trace workerCount := fun hf => hfailed (h.failed.mpr hf)
    refine ⟨⟨iff_of_false (hne _ hgated) htrace, iff_of_false (hne _ hnonGated) htrace⟩,
      fun _ hfits hbits => ⟨UInt8.toNat_ofNat_of_lt' hfits, fun u hu => ⟨?_, ?_⟩⟩⟩
    · exact hgatedHits hfits (fun w hw u hu => (hbits w hw u hu).1) u hu
    · exact hnonGatedHits hfits (fun w hw u hu => (hbits w hw u hu).2) u hu

/-- The callback is called once, by the call that ends the last worker. It gets no hits exactly when
some worker failed or ended before its closing batch; otherwise, with fewer than 256 workers that
report 0 or 1, a unit counts as a hit exactly when every worker reported one. Batches keep their own
units, and a worker told to stop reports nothing more. -/
theorem prefetch_aggregation
    (hmake : PrefetchResult.make workerCount request batchSize timeoutMs = .ok result)
    (hrun : Reaches PrefetchRun.step { result } calls run) :
    (∀ call, (∀ w, call = .markWorkerEnded w → w < workerCount) →
      ∃ run', run.step call = .ok run') ∧
    (AllEnded run.trace workerCount → run.delivered.length = 1) ∧
    (¬ AllEnded run.trace workerCount → run.delivered = []) ∧
    (∀ w < workerCount, ∃ worker, run.result.workers[w]? = some worker ∧ worker.gatedHits =
        unitRow request.unitCount batchSize ((reports run.trace w).map Prod.fst) ∧
      worker.nonGatedHits =
        unitRow request.unitCount batchSize ((reports run.trace w).map Prod.snd)) ∧
    (∀ w gatedHits nonGatedHits elapsed stopRequested result answer,
      run.result.recordBatchResult w gatedHits nonGatedHits elapsed stopRequested =
        .ok (result, answer) → Closed run.trace w ∨ Ended run.trace w → answer = none) ∧
    ∀ w run' summary, run.step (.markWorkerEnded w) = .ok run' →
      run'.delivered = run.delivered ++ [summary] →
      (¬ AllEnded run.trace workerCount ∧ AllEnded run'.trace workerCount) ∧
      (summary.gatedHits = [] ↔ Failed run'.trace workerCount) ∧
      (summary.nonGatedHits = [] ↔ Failed run'.trace workerCount) ∧
      (¬ Failed run'.trace workerCount → workerCount < 256 →
        (∀ w < workerCount, ∀ u < request.unitCount,
          unitByte batchSize ((reports run'.trace w).map Prod.fst) u ≤ 1 ∧
          unitByte batchSize ((reports run'.trace w).map Prod.snd) u ≤ 1) →
        summary.rankCount.toNat = workerCount ∧ ∀ u < request.unitCount,
          (summary.gatedHits[u]? = some summary.rankCount ↔
            ∀ w < workerCount, unitByte batchSize ((reports run'.trace w).map Prod.fst) u ≠ 0) ∧
          (summary.nonGatedHits[u]? = some summary.rankCount ↔ ∀ w < workerCount,
              unitByte batchSize ((reports run'.trace w).map Prod.snd) u ≠ 0)) := by
  have h := reaches_aggregating hmake hrun
  obtain ⟨⟨-, hsize, hunits⟩, -⟩ := Aggregating.initial hmake
  refine ⟨fun call hcall => ?_, fun hall => ?_, fun hsome => ?_, fun w hw => ?_, ?_, ?_⟩
  · obtain ⟨run', hstep, -⟩ := h.step hsize hcall
    exact ⟨run', hstep⟩
  · rw [h.delivered, if_pos (h.remaining_eq_zero_iff.mpr hall)]
  · rw [← length_eq_zero_iff, h.delivered,
      if_neg fun hzero => hsome (h.remaining_eq_zero_iff.mp hzero)]
  · obtain ⟨worker, hget⟩ := h.worker_of_lt hw
    exact ⟨worker, hget, (h.worker w worker hget).gated, (h.worker w worker hget).nonGated⟩
  · intro w gatedHits nonGatedHits elapsed stopRequested result' answer hrecord hover
    obtain ⟨result'', answer', hrecord', hopen, -⟩ :=
      h.recordBatchResult hsize w gatedHits nonGatedHits elapsed stopRequested
    rw [hrecord] at hrecord'
    cases hrecord'
    by_contra hne
    obtain ⟨hclosed, hended⟩ := hopen hne
    exact hover.elim hclosed hended
  · intro w run' summary hstep hdelivered
    have hw : w < workerCount := by
      unfold PrefetchRun.step PrefetchResult.markWorkerEnded at hstep
      cases hget : run.result.workers[w]? with
      | some worker => exact h.lt_of_worker hget
      | none =>
        dsimp only at hstep
        rw [hget] at hstep
        cases hstep
    obtain ⟨result', fired, hmark, hfired, hnew⟩ := h.markWorkerEnded hw
    unfold PrefetchRun.step at hstep
    dsimp only at hstep
    rw [hmark] at hstep
    cases hstep
    have hsome : fired = some summary := by
      have hlist := append_cancel_left hdelivered
      cases fired with
      | none => exact nomatch hlist
      | some s =>
        rw [Option.toList_some, singleton_inj] at hlist
        rw [hlist]
    rw [hsome] at hfired
    split at hfired
    · rename_i hlast
      have hsummary := hnew.summary hunits
      rw [Option.some.inj hfired]
      refine ⟨⟨?_, ?_⟩, hsummary.1.1, hsummary.1.2, hsummary.2⟩
      · rw [← h.remaining_eq_zero_iff]
        exact hlast.1
      · exact hnew.remaining_eq_zero_iff.mp hlast.2
    · cases hfired

end

/-- Two workers, three units in batches of two; the second worker misses the last unit. -/
theorem prefetch_aggregation_two_workers :
    let request : StoragePrefetchRequest := { units := List.replicate 3 { gatedBlocks := [.g2h] } }
    ∃ result run run' summary, PrefetchResult.make 2 request 2 (-1) = .ok result ∧
      Reaches PrefetchRun.step { result }
        [.recordBatchResult 0 [1, 1] [1, 0] false false, .recordBatchResult 1 [1, 1] [1, 1] false false,
          .recordBatchResult 1 [0, 0] [0, 0] false false, .recordBatchResult 0 [1, 0] [1, 0] false false,
          .markWorkerEnded 0] run ∧
      run.step (.markWorkerEnded 1) = .ok run' ∧ run'.delivered = run.delivered ++ [summary] ∧
      summary.rankCount.toNat = 2 ∧
      (summary.gatedHits[2]? = some summary.rankCount ↔
        ∀ w < 2, unitByte 2 ((reports run'.trace w).map Prod.fst) 2 ≠ 0) := by
  intro request
  obtain ⟨result, hmake⟩ : ∃ result, PrefetchResult.make 2 request 2 (-1) = .ok result := ⟨_, rfl⟩
  -- what the run computes, as a test of the state before the last call
  have hcomputed : ∃ run, Reaches PrefetchRun.step { result }
      [.recordBatchResult 0 [1, 1] [1, 0] false false,
        .recordBatchResult 1 [1, 1] [1, 1] false false,
        .recordBatchResult 1 [0, 0] [0, 0] false false,
        .recordBatchResult 0 [1, 0] [1, 0] false false, .markWorkerEnded 0] run ∧
      (match run.step (.markWorkerEnded 1) with
      | .ok run' => run.delivered.isEmpty && run'.delivered.length == 1 && !run'.result.failed &&
          (List.range 2).all fun w => (List.range 3).all fun u =>
            decide (unitByte 2 ((reports run'.trace w).map Prod.fst) u ≤ 1) &&
            decide (unitByte 2 ((reports run'.trace w).map Prod.snd) u ≤ 1)
      | .error _ => false) = true := by
    cases hmake
    exact ReachesWith.of_check _ _ _ (by decide +kernel)
  obtain ⟨run, hrun, hcheck⟩ := hcomputed
  cases hstep : run.step (.markWorkerEnded 1) with
  | error e => rw [hstep] at hcheck; exact nomatch hcheck
  | ok run' =>
    rw [hstep] at hcheck
    simp only [Bool.and_eq_true, all_eq_true, mem_range, decide_eq_true_eq,
      List.isEmpty_iff, beq_iff_eq, Bool.not_eq_true'] at hcheck
    obtain ⟨⟨⟨hempty, hone⟩, hfailed⟩, hbits⟩ := hcheck
    obtain ⟨summary, hsummary⟩ := length_eq_one_iff.mp hone
    have hdelivered : run'.delivered = run.delivered ++ [summary] := by
      rw [hempty, hsummary]
      rfl
    have hagg := reaches_aggregating hmake (.snoc hrun trivial hstep)
    have htrace : ¬ Failed run'.trace 2 := by
      rw [← hagg.failed, hfailed]
      simp
    obtain ⟨-, -, -, hhits⟩ :=
      (prefetch_aggregation hmake hrun).2.2.2.2.2 1 run' summary hstep hdelivered
    obtain ⟨hcount, hunits⟩ := hhits htrace (by decide) hbits
    exact ⟨result, run, run', summary, hmake, hrun, hstep, hdelivered, hcount,
      (hunits 2 (by decide)).1⟩

/-- One summary was delivered, it counts not 256 workers, and no worker hit the only unit. -/
def allMissed (run : PrefetchRun) : Bool :=
  match run.delivered with
  | [summary] => !run.result.failed && summary.rankCount.toNat != 256 &&
      decide (summary.gatedHits[0]? = some summary.rankCount) &&
      run.result.workers.all fun worker => decide (worker.gatedHits[0]? = some 0)
  | _ => false

/-- 256 workers that all miss the only unit: their number does not fit a byte, and the sum of the
misses is what the number became. -/
theorem no_worker_hits_and_all_count :
    let request : StoragePrefetchRequest := { units := [{ gatedBlocks := [.g2h] }] }
    ∃ result run summary calls, PrefetchResult.make 256 request 1 (-1) = .ok result ∧
      Reaches PrefetchRun.step { result } calls run ∧ run.delivered = [summary] ∧
      run.result.failed = false ∧ summary.rankCount.toNat ≠ 256 ∧
      summary.gatedHits[0]? = some summary.rankCount ∧
      ∀ w < 256, unitByte 1 ((reports run.trace w).map Prod.fst) 0 = 0 := by
  intro request
  obtain ⟨result, hmake⟩ : ∃ result, PrefetchResult.make 256 request 1 (-1) = .ok result := ⟨_, rfl⟩
  have hcomputed : ∃ run, Reaches PrefetchRun.step { result }
      ((List.range 256).map (fun w => .recordBatchResult w [0] [0] false false) ++
        (List.range 256).map .markWorkerEnded) run ∧
      allMissed run = true := by
    cases hmake
    exact ReachesWith.of_check _ _ _ (by decide +kernel)
  obtain ⟨run, hrun, hcheck⟩ := hcomputed
  have hagg := reaches_aggregating hmake hrun
  unfold allMissed at hcheck
  split at hcheck
  · rename_i summary hsummary
    simp only [Bool.and_eq_true, all_eq_true, decide_eq_true_eq, Bool.not_eq_true',
      bne_iff_ne] at hcheck
    obtain ⟨⟨⟨hfailed, hcount⟩, hhits⟩, hrows⟩ := hcheck
    refine ⟨result, run, summary, _, hmake, hrun, hsummary, hfailed, hcount, hhits, fun w hw => ?_⟩
    obtain ⟨worker, hget⟩ := hagg.worker_of_lt hw
    have hrow := hrows worker (mem_of_getElem? hget)
    have hone : 0 < request.unitCount := Nat.one_pos
    rw [(hagg.worker w worker hget).gated, unitRow_getElem? 0 hone] at hrow
    exact Option.some.inj hrow
  · cases hcheck

end Xllm.Framework
