import Mathlib.Logic.Basic

/-!
# Aggregating the prefetch results of the workers of a DP rank

`core/framework/kv_cache_transfer/prefetch_result.h`: every worker fetches the units of one request
batch by batch and reports two bytes for each unit. `PrefetchResult` records the reports, answers
whether the worker is to go on, and when the last worker has ended adds the bytes up over the workers
and hands the sums to the caller.

Each public function is one critical section. The clock and the caller's stop predicate are arguments
of `shouldContinuePrefetch`: whether the timeout has elapsed, and what the predicate answers. A failed
CHECK is an error; the latency and the request id in the summary are not modelled.
-/

namespace Xllm.Framework

inductive PrefetchControl
  | continue
  | stop
  deriving DecidableEq, Repr

inductive TransferType
  | g2h
  | h2d
  | d2g
  | g2d
  | d2h2g
  deriving DecidableEq, Repr

structure PrefetchUnit where
  gatedBlocks : List TransferType
  nonGatedBlocks : List TransferType := []
  deriving DecidableEq, Repr

def PrefetchUnit.valid (unit : PrefetchUnit) : Bool :=
  unit.gatedBlocks ≠ [] && unit.gatedBlocks.all (· = .g2h) && unit.nonGatedBlocks.all (· = .g2h)

structure StoragePrefetchRequest where
  units : List PrefetchUnit
  deriving DecidableEq, Repr

inductive PrefetchStopReason
  | complete
  | miss
  | timeout
  | cancelled
  | workerFailed
  deriving DecidableEq, Repr

structure PrefetchSummary where
  rankCount : UInt8 := 0
  gatedHits : List UInt8 := []
  nonGatedHits : List UInt8 := []
  stopReason : PrefetchStopReason := .complete
  deriving DecidableEq, Repr

inductive PrefetchCheck
  | workerCount
  | batchSize
  | request
  | timeoutMs
  | workerIndex
  | batchIndex
  | remainingWorkers
  deriving DecidableEq, Repr

inductive WorkerState
  | waitingResult
  | waitingClose
  | ended
  deriving DecidableEq, Repr

structure WorkerProgress where
  batchIndex : Nat := 0
  state : WorkerState := .waitingResult
  gatedHits : List UInt8
  nonGatedHits : List UInt8
  deriving DecidableEq, Repr

/-- `done` says whether `done_` still holds the callback. -/
structure PrefetchResult where
  workers : List WorkerProgress
  remainingWorkers : Nat
  request : StoragePrefetchRequest
  batchSize : Nat
  timeoutMs : Int
  done : Bool := true
  failed : Bool := false
  stopReason : PrefetchStopReason := .complete
  continuePrefetch : Bool := true
  deriving DecidableEq, Repr

/-! ## Batches of a request -/

namespace StoragePrefetchRequest

variable (request : StoragePrefetchRequest)

def valid : Bool := request.units ≠ [] && request.units.all PrefetchUnit.valid

def unitCount : Nat := request.units.length

def batchCount (batchSize : Nat) : Nat := (request.unitCount + batchSize - 1) / batchSize

def batchUnitBegin (batchIndex batchSize : Nat) : Except PrefetchCheck Nat :=
  if batchIndex < request.batchCount batchSize then .ok (batchIndex * batchSize)
  else .error .batchIndex

def batchUnitCount (batchIndex batchSize : Nat) : Except PrefetchCheck Nat := do
  let unitBegin ← request.batchUnitBegin batchIndex batchSize
  .ok (min batchSize (request.unitCount - unitBegin))

end StoragePrefetchRequest

namespace PrefetchResult

def make (workerCount : Nat) (request : StoragePrefetchRequest) (batchSize : Nat)
    (timeoutMs : Int) : Except PrefetchCheck PrefetchResult :=
  if workerCount = 0 then .error .workerCount
  else if batchSize = 0 then .error .batchSize
  else if ¬ request.valid then .error .request
  else if timeoutMs ≠ -1 ∧ timeoutMs ≤ 0 then .error .timeoutMs
  else
    let zeros := List.replicate request.unitCount 0
    .ok
      { workers := List.replicate workerCount { gatedHits := zeros, nonGatedHits := zeros }
        remainingWorkers := workerCount
        request
        batchSize
        timeoutMs }

def batchCount (r : PrefetchResult) : Nat := r.request.batchCount r.batchSize

def markWorkerFailed (r : PrefetchResult) : PrefetchResult :=
  { r with failed := true, continuePrefetch := false }

/-! ## Recording a batch -/

/-- `std::copy` of these bytes to a position inside a row. -/
def copyInto (row bytes : List UInt8) (position : Nat) : List UInt8 :=
  row.take position ++ bytes ++ row.drop (position + bytes.length)

/-- The result afterwards, and whether the worker is to fetch its next batch. -/
def shouldContinuePrefetch (r : PrefetchResult) (gatedComplete hasNextBatch : Bool)
    (elapsed stopRequested : Bool) : PrefetchResult × Bool :=
  let timedOut := decide (0 < r.timeoutMs) && elapsed
  let continuePrefetch :=
    if !gatedComplete || timedOut || stopRequested then false else r.continuePrefetch
  let stopReason :=
    if r.stopReason = .complete then
      if !gatedComplete then .miss
      else if hasNextBatch && timedOut then .timeout
      else if hasNextBatch && stopRequested then .cancelled
      else r.stopReason
    else r.stopReason
  ({ r with continuePrefetch, stopReason }, gatedComplete && hasNextBatch && continuePrefetch)

def recordBatchResult (r : PrefetchResult) (workerIndex : Nat) (gatedHits nonGatedHits : List UInt8)
    (elapsed stopRequested : Bool) :
    Except PrefetchCheck (PrefetchResult × Option PrefetchControl) :=
  match r.workers[workerIndex]? with
  | none => .ok ({ r with continuePrefetch := false }, none)
  | some worker =>
    if worker.state ≠ .waitingResult ∨ r.batchCount ≤ worker.batchIndex ∨
        gatedHits.length ≠ r.batchSize ∨ nonGatedHits.length ≠ r.batchSize then
      .ok ({ r with continuePrefetch := false }, none)
    else do
      let unitBegin ← r.request.batchUnitBegin worker.batchIndex r.batchSize
      let count ← r.request.batchUnitCount worker.batchIndex r.batchSize
      let worker :=
        { worker with
          gatedHits := copyInto worker.gatedHits (gatedHits.take count) unitBegin
          nonGatedHits := copyInto worker.nonGatedHits (nonGatedHits.take count) unitBegin }
      let gatedComplete := (gatedHits.take count).all (· ≠ 0)
      let hasNextBatch := decide (worker.batchIndex + 1 < r.batchCount)
      let (r, goesOn) := r.shouldContinuePrefetch gatedComplete hasNextBatch elapsed stopRequested
      if goesOn then
        let worker := { worker with batchIndex := worker.batchIndex + 1 }
        .ok ({ r with workers := r.workers.set workerIndex worker }, some .continue)
      else
        let worker := { worker with state := .waitingClose }
        .ok ({ r with workers := r.workers.set workerIndex worker }, some .stop)

/-! ## The end of a worker -/

/-- One vector of the summary: the workers' rows added up in bytes. -/
def sumRows (unitCount : Nat) (rows : List (List UInt8)) : List UInt8 :=
  rows.foldl (fun sums row => List.zipWith (· + ·) sums row) (List.replicate unitCount 0)

def summary (r : PrefetchResult) : PrefetchSummary :=
  if r.failed then { stopReason := .workerFailed }
  else
    { rankCount := UInt8.ofNat r.workers.length
      gatedHits := sumRows r.request.unitCount (r.workers.map (·.gatedHits))
      nonGatedHits := sumRows r.request.unitCount (r.workers.map (·.nonGatedHits))
      stopReason := r.stopReason }

/-- The result afterwards, and the summary if the callback is called. -/
def markWorkerEnded (r : PrefetchResult) (workerIndex : Nat) :
    Except PrefetchCheck (PrefetchResult × Option PrefetchSummary) :=
  match r.workers[workerIndex]? with
  | none => .error .workerIndex
  | some worker =>
    if worker.state = .ended then .ok (r, none)
    else
      let r := if worker.state ≠ .waitingClose then r.markWorkerFailed else r
      if r.remainingWorkers = 0 then .error .remainingWorkers
      else
        let r :=
          { r with
            workers := r.workers.set workerIndex { worker with state := .ended }
            remainingWorkers := r.remainingWorkers - 1 }
        if r.remainingWorkers = 0 then
          .ok ({ r with done := false }, if r.done then some r.summary else none)
        else .ok (r, none)

end PrefetchResult

end Xllm.Framework
