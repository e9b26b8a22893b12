import Xllm.Lib.Run
import Xllm.Lib.Tally

/-!
# The page allocator

`PageAllocator` (`core/framework/xtensor/page_allocator.cpp`). Every model has virtual pages for each
of its DP groups; a mapped virtual page takes `phy_pages_per_virt_page` physical pages on every worker
of its group, and `worker_pages_used_` counts what is taken on a worker, for KV pages and for weights.

No function holds the mutex while it talks to the workers. A function is therefore a *call* with local
variables, which moves on by steps of three kinds: it begins with its first mutex-held section, a
broadcast it is waiting for returns (`Label.broadcast`, with the workers' answer), or it enters its next
mutex-held section (`Label.resume`). Any number of calls are in flight, one table entry each. The
preallocation worker is a call as well; its wake-up flag is left out, so it may collect at any time, and
it takes the models in any order. Copies of `phy_pages_per_virt_page` in local variables are the field,
which a registered model keeps.

Three values are history that no step reads: the pages callers have been given (`System.given`), the
weight pages of a model that were consumed and not released (`ModelState.weightPagesHeld`), and whether
some release found less than it had to release (`WorkerPages.underflow`).
-/

namespace Xllm.XTensor

open Xllm.Lib

/-- `MIN_RESERVED_PAGES`. -/
def minReservedPages : Nat := 8

/-- `MAX_RESERVED_PAGES`. -/
def maxReservedPages : Nat := 32

structure Config where
  dpSize : Nat
  maxWorldSize : Nat
  numTotalPhyPages : Nat

inductive PageError
  | check
  | divisionByZero
  | notEnabled
  deriving DecidableEq, Repr

/-! ## Workers -/

structure WorkerPages where
  used : Nat → Nat
  underflow : Bool

namespace WorkerPages

/-- `get_min_free_pages_in_range`. -/
def minFreePagesInRange (cfg : Config) (p : WorkerPages) (range : Nat × Nat) : Nat :=
  (List.range' range.1 (range.2 - range.1)).foldl
    (fun minFree w => min minFree (cfg.numTotalPhyPages - p.used w)) cfg.numTotalPhyPages

def consume (p : WorkerPages) (range : Nat × Nat) (n : Nat) : WorkerPages :=
  { p with used := fun w => if range.1 ≤ w ∧ w < range.2 then p.used w + n else p.used w }

/-- A worker that has less than is released is left with nothing. -/
def release (p : WorkerPages) (range : Nat × Nat) (n : Nat) : WorkerPages where
  used w :=
    if range.1 ≤ w ∧ w < range.2 then (if n ≤ p.used w then p.used w - n else 0) else p.used w
  underflow := p.underflow ||
    (List.range' range.1 (range.2 - range.1)).any fun w => decide (p.used w < n)

end WorkerPages

/-! ## Models -/

structure DpGroupPages where
  numFreeVirtPages : Nat
  freeVirtPageList : List Nat
  reservedVirtPageList : List Nat
  allocatedVirtPageList : List Nat

/-- The pages of a group that are mapped, as `sleep_model` and `wakeup_model` collect them. -/
def DpGroupPages.mapped (g : DpGroupPages) : List Nat :=
  g.reservedVirtPageList ++ g.allocatedVirtPageList

structure ModelState where
  numTotalVirtPages : Nat
  phyPagesPerVirtPage : Nat
  weightPagesAllocated : Nat := 0
  isSleeping : Bool := false
  pendingMapOps : Nat := 0
  dpGroupPages : Nat → DpGroupPages
  modelTpSize : Nat := 0
  modelWorldSize : Nat := 0
  weightPagesHeld : Nat := 0

namespace ModelState

/-- `get_dp_group_worker_range`: the first worker and the one after the last. -/
def dpGroupWorkerRange (cfg : Config) (st : ModelState) (dpRank : Nat) : Nat × Nat :=
  let tpSize := if 0 < st.modelTpSize then st.modelTpSize else 1
  (dpRank * tpSize, min (dpRank * tpSize + tpSize) cfg.maxWorldSize)

def weightWorkerRange (cfg : Config) (st : ModelState) : Nat × Nat :=
  let worldSize := if 0 < st.modelWorldSize then st.modelWorldSize else cfg.maxWorldSize
  (0, min worldSize cfg.maxWorldSize)

def setGroup (st : ModelState) (dpRank : Nat) (g : DpGroupPages) : ModelState :=
  { st with dpGroupPages := Function.update st.dpGroupPages dpRank g }

def mappedGroups (cfg : Config) (st : ModelState) : List (Nat × List Nat) :=
  ((List.range cfg.dpSize).map fun dpRank => (dpRank, (st.dpGroupPages dpRank).mapped)).filter
    fun group => group.2 ≠ []

/-- What a registered model starts with. -/
def registered (cfg : Config) (numLayers : Nat) : ModelState where
  numTotalVirtPages := cfg.numTotalPhyPages / numLayers / 2
  phyPagesPerVirtPage := 2 * numLayers
  dpGroupPages _ :=
    { numFreeVirtPages := cfg.numTotalPhyPages / numLayers / 2
      freeVirtPageList := List.range (cfg.numTotalPhyPages / numLayers / 2)
      reservedVirtPageList := []
      allocatedVirtPageList := [] }

end ModelState

/-- `consume_phy_pages_for_dp`, which checks what `has_enough_phy_pages_for_dp` checks. -/
def consumePhyPagesForDp (cfg : Config) (p : WorkerPages) (st : ModelState) (dpRank n : Nat) :
    Option WorkerPages :=
  let range := st.dpGroupWorkerRange cfg dpRank
  if p.minFreePagesInRange cfg range < n then none else some (p.consume range n)

/-- `release_phy_pages_for_dp`, of the physical pages of `numVirtPages` virtual pages. -/
def releasePhyPagesForDp (cfg : Config) (p : WorkerPages) (st : ModelState)
    (dpRank numVirtPages : Nat) : WorkerPages :=
  p.release (st.dpGroupWorkerRange cfg dpRank) (numVirtPages * st.phyPagesPerVirtPage)

/-! ## Calls in flight -/

/-- Where a call is between two mutex-held sections, with the local variables it still needs. -/
inductive Call (ModelId : Type)
  /-- `alloc_kv_cache_page` on the slow path, mapping its page. -/
  | allocMapping (m : ModelId) (dpRank page : Nat)
  | allocMapped (m : ModelId) (dpRank page : Nat) (mapSuccess : Bool)
  /-- The page is mapped and not yet tracked as allocated. -/
  | allocTracking (m : ModelId) (dpRank page : Nat)
  /-- `free_kv_cache_pages` or `trim_kv_cache`; they go on alike. -/
  | unmapping (m : ModelId) (dpRank : Nat) (pages : List Nat)
  | unmapped (m : ModelId) (dpRank : Nat) (pages : List Nat) (unmapSuccess : Bool)
  /-- `prealloc_worker`, before the next entry of `model_dp_pages_to_reserve`. -/
  | preallocNext (todo : List (ModelId × Nat × List Nat))
  | preallocMapping (m : ModelId) (dpRank : Nat) (pages : List Nat)
      (todo : List (ModelId × Nat × List Nat))
  | preallocMapped (m : ModelId) (dpRank : Nat) (pages : List Nat) (mapSuccess : Bool)
      (todo : List (ModelId × Nat × List Nat))
  /-- `alloc_weight_pages` and `free_weight_pages`. -/
  | weightsAllocating (m : ModelId) (n : Nat)
  | weightsFreeing (m : ModelId) (n : Nat)
  | weightsFreed (m : ModelId) (n : Nat)
  /-- `sleep_model`, waiting for the pending map operations. -/
  | sleepWaiting (m : ModelId) (skipWeightRelease : Bool)
  | sleepFreeingWeights (m : ModelId) (n : Nat) (groups : List (Nat × List Nat))
  | sleepFreedWeights (m : ModelId) (n : Nat) (groups : List (Nat × List Nat))
  | sleepUnmapping (m : ModelId) (done : List ((Nat × List Nat) × Bool))
      (groups : List (Nat × List Nat))
  /-- `wakeup_model`, mapping its groups and then allocating its weights. -/
  | wakeMapping (m : ModelId) (groups : List (Nat × List Nat)) (weightPages : Nat)
  | wakeMapped (m : ModelId)

structure System (ModelId : Type) where
  workerPages : WorkerPages
  modelStates : Table ModelId ModelState
  calls : Table Nat (Call ModelId)
  given : ModelId → Nat → List Nat

variable {ModelId : Type} [DecidableEq ModelId]

/-- A section's outcome for one model and one call: the call goes on as `next`, or has ended. -/
def System.commit (s : System ModelId) (m : ModelId) (st : ModelState) (p : WorkerPages) (id : Nat)
    (next : Option (Call ModelId)) : System ModelId :=
  { s with
    workerPages := p
    modelStates := s.modelStates.insert m st
    calls := put s.calls id next }

def System.goOn (s : System ModelId) (id : Nat) (next : Option (Call ModelId)) : System ModelId :=
  { s with calls := put s.calls id next }

def System.give (s : System ModelId) (m : ModelId) (dpRank page : Nat) : System ModelId :=
  { s with
    given := Function.update s.given m
      (Function.update (s.given m) dpRank (page :: s.given m dpRank)) }

def System.takeBack (s : System ModelId) (m : ModelId) (dpRank : Nat) (pages : List Nat) :
    System ModelId :=
  { s with
    given := Function.update s.given m
      (Function.update (s.given m) dpRank ((s.given m dpRank).filter fun page => page ∉ pages)) }

/-! ## `alloc_kv_cache_page` -/

/-- A throw leaves everything as it is. `has_enough_phy_pages_for_dp` has just succeeded when the
pages are consumed, so the source's rollback and its wait are not reached. -/
def allocKvCachePage (cfg : Config) (s : System ModelId) (id : Nat) (m : ModelId) (dpRank : Nat)
    (st : ModelState) : Except PageError (System ModelId) :=
  let g := st.dpGroupPages dpRank
  if st.isSleeping then .error .check
  else
    match g.reservedVirtPageList, g.freeVirtPageList with
    | page :: rest, _ =>
      let g' := { g with
        reservedVirtPageList := rest
        numFreeVirtPages := g.numFreeVirtPages - 1
        allocatedVirtPageList := g.allocatedVirtPageList.insert page }
      .ok ((s.commit m (st.setGroup dpRank g') s.workerPages id none).give m dpRank page)
    | [], [] => .ok s
    | [], page :: rest =>
      match consumePhyPagesForDp cfg s.workerPages st dpRank st.phyPagesPerVirtPage with
      | none => .ok s
      | some p =>
        let g' := { g with
          freeVirtPageList := rest
          numFreeVirtPages := g.numFreeVirtPages - 1 }
        let st' := { st.setGroup dpRank g' with pendingMapOps := st.pendingMapOps + 1 }
        .ok (s.commit m st' p id (some (.allocMapping m dpRank page)))

def allocMapped (cfg : Config) (s : System ModelId) (id : Nat) (m : ModelId) (dpRank page : Nat)
    (mapSuccess : Bool) (st : ModelState) : System ModelId :=
  let st := { st with pendingMapOps := st.pendingMapOps - 1 }
  let g := st.dpGroupPages dpRank
  if mapSuccess then s.commit m st s.workerPages id (some (.allocTracking m dpRank page))
  else
    let g' := { g with
      freeVirtPageList := page :: g.freeVirtPageList
      numFreeVirtPages := g.numFreeVirtPages + 1 }
    s.commit m (st.setGroup dpRank g') (releasePhyPagesForDp cfg s.workerPages st dpRank 1) id none

def allocTracking (s : System ModelId) (id : Nat) (m : ModelId) (dpRank page : Nat)
    (st : ModelState) : System ModelId :=
  let g := st.dpGroupPages dpRank
  let g' := { g with allocatedVirtPageList := g.allocatedVirtPageList.insert page }
  (s.commit m (st.setGroup dpRank g') s.workerPages id none).give m dpRank page

/-! ## `free_kv_cache_pages` and `trim_kv_cache` -/

/-- What is left of `max_reserved_pages_`, a `size_t` subtraction. -/
def numToReserve (reserved : Nat) : Nat :=
  (maxReservedPages + 2 ^ 64 - reserved % 2 ^ 64) % 2 ^ 64

def unmapCall (m : ModelId) (dpRank : Nat) (pages : List Nat) : Option (Call ModelId) :=
  if pages = [] then none else some (.unmapping m dpRank pages)

def freeKvCachePages (s : System ModelId) (id : Nat) (m : ModelId) (dpRank : Nat)
    (pages : List Nat) (st : ModelState) : System ModelId :=
  let g := st.dpGroupPages dpRank
  let kept := if st.isSleeping then 0
    else min (numToReserve g.reservedVirtPageList.length) pages.length
  let g' := { g with
    allocatedVirtPageList := g.allocatedVirtPageList.filter fun page => page ∉ pages
    numFreeVirtPages := g.numFreeVirtPages + pages.length
    reservedVirtPageList := g.reservedVirtPageList ++ pages.take kept }
  (s.commit m (st.setGroup dpRank g') s.workerPages id
    (unmapCall m dpRank (pages.drop kept))).takeBack m dpRank pages

def trimKvCache (s : System ModelId) (id : Nat) (m : ModelId) (dpRank : Nat) (st : ModelState) :
    System ModelId :=
  let g := st.dpGroupPages dpRank
  s.commit m (st.setGroup dpRank { g with reservedVirtPageList := [] }) s.workerPages id
    (unmapCall m dpRank g.reservedVirtPageList)

/-- The second section of both: pages that could not be unmapped go to the reserved list. -/
def unmapped (cfg : Config) (s : System ModelId) (id : Nat) (m : ModelId) (dpRank : Nat)
    (pages : List Nat) (unmapSuccess : Bool) (st : ModelState) : System ModelId :=
  let g := st.dpGroupPages dpRank
  if unmapSuccess then
    let g' := { g with freeVirtPageList := g.freeVirtPageList ++ pages }
    s.commit m (st.setGroup dpRank g')
      (releasePhyPagesForDp cfg s.workerPages st dpRank pages.length) id none
  else
    let g' := { g with reservedVirtPageList := g.reservedVirtPageList ++ pages }
    s.commit m (st.setGroup dpRank g') s.workerPages id none

/-! ## Weights -/

def allocWeightPages (cfg : Config) (s : System ModelId) (id : Nat) (m : ModelId) (n : Nat)
    (st : ModelState) : System ModelId :=
  let range := st.weightWorkerRange cfg
  if s.workerPages.minFreePagesInRange cfg range < n then s
  else
    let st' := { st with
      weightPagesAllocated := n
      weightPagesHeld := st.weightPagesHeld + n }
    s.commit m st' (s.workerPages.consume range n) id (some (.weightsAllocating m n))

/-- The section of `free_weight_pages`; `weight_pages_allocated` is kept for the wakeup. -/
def weightsFreed (cfg : Config) (s : System ModelId) (id : Nat) (m : ModelId) (n : Nat)
    (st : ModelState) : System ModelId :=
  s.commit m { st with weightPagesHeld := st.weightPagesHeld - n }
    (s.workerPages.release (st.weightWorkerRange cfg) n) id none

/-! ## `sleep_model` -/

/-- What `sleep_model` does under the mutex once nothing is pending. The weights it is going to
release are no longer the model's from here on. -/
def fallAsleep (cfg : Config) (s : System ModelId) (id : Nat) (m : ModelId)
    (skipWeightRelease : Bool) (st : ModelState) : System ModelId :=
  let groups := st.mappedGroups cfg
  let weightPages := st.weightPagesAllocated
  let next := if ¬ skipWeightRelease ∧ 0 < weightPages
    then Call.sleepFreeingWeights m weightPages groups else .sleepUnmapping m [] groups
  s.commit m { st with isSleeping := true, weightPagesHeld := 0 } s.workerPages id (some next)

def sleepModel (cfg : Config) (s : System ModelId) (id : Nat) (m : ModelId)
    (skipWeightRelease : Bool) (st : ModelState) : System ModelId :=
  if st.isSleeping then s
  else if 0 < st.pendingMapOps then s.goOn id (some (.sleepWaiting m skipWeightRelease))
  else fallAsleep cfg s id m skipWeightRelease st

/-- The wait returns with the mutex held; only the pending operations are looked at again. -/
def sleepWaiting (cfg : Config) (s : System ModelId) (id : Nat) (m : ModelId)
    (skipWeightRelease : Bool) (st : ModelState) : System ModelId :=
  if 0 < st.pendingMapOps then s else fallAsleep cfg s id m skipWeightRelease st

/-- The section of the `free_weight_pages` that `sleep_model` calls. -/
def sleepFreedWeights (cfg : Config) (s : System ModelId) (id : Nat) (m : ModelId) (n : Nat)
    (groups : List (Nat × List Nat)) (st : ModelState) : System ModelId :=
  s.commit m st (s.workerPages.release (st.weightWorkerRange cfg) n) id
    (some (.sleepUnmapping m [] groups))

/-- Groups whose unmap failed stay counted. -/
def releaseGroups (cfg : Config) (st : ModelState) (p : WorkerPages)
    (done : List ((Nat × List Nat) × Bool)) : WorkerPages :=
  done.foldl (fun p entry =>
    if entry.2 then releasePhyPagesForDp cfg p st entry.1.1 entry.1.2.length else p) p

def sleepUnmapped (cfg : Config) (s : System ModelId) (id : Nat) (m : ModelId)
    (done : List ((Nat × List Nat) × Bool)) (st : ModelState) : System ModelId :=
  s.commit m st (releaseGroups cfg st s.workerPages done) id none

/-! ## `wakeup_model` -/

/-- `pages_to_consume_per_worker`. -/
def pagesToConsume (cfg : Config) (st : ModelState) (w : Nat) : Nat :=
  ((st.mappedGroups cfg).map fun group => let range := st.dpGroupWorkerRange cfg group.1
    if range.1 ≤ w ∧ w < range.2 then group.2.length * st.phyPagesPerVirtPage else 0).sum +
  if w < (st.weightWorkerRange cfg).2 then st.weightPagesAllocated else 0

def wakeNext (m : ModelId) (groups : List (Nat × List Nat)) (weightPages : Nat) : Call ModelId :=
  if groups = [] ∧ weightPages = 0 then .wakeMapped m else .wakeMapping m groups weightPages

def wakeupModel (cfg : Config) (s : System ModelId) (id : Nat) (m : ModelId) (st : ModelState) :
    System ModelId :=
  let enough := (List.range cfg.maxWorldSize).all fun w =>
    decide (pagesToConsume cfg st w ≤ cfg.numTotalPhyPages - s.workerPages.used w)
  if ¬ st.isSleeping ∨ ¬ enough then s
  else
    let used w := if w < cfg.maxWorldSize then s.workerPages.used w + pagesToConsume cfg st w
      else s.workerPages.used w
    s.commit m { st with weightPagesHeld := st.weightPagesHeld + st.weightPagesAllocated }
      { s.workerPages with used } id
      (some (wakeNext m (st.mappedGroups cfg) st.weightPagesAllocated))

/-- The model is awake again. -/
def wakeMapped (s : System ModelId) (id : Nat) (m : ModelId) (st : ModelState) : System ModelId :=
  s.commit m { st with isSleeping := false } s.workerPages id none

/-! ## `prealloc_worker` -/

/-- One turn of the loop over models and groups: pages for the group are moved to the worker's
list. -/
def reserveForGroup (cfg : Config) (id : Nat) (s : System ModelId) (group : ModelId × Nat) :
    System ModelId :=
  let (m, dpRank) := group
  match s.modelStates.lookup m, s.calls.lookup id with
  | some st, some (.preallocNext todo) =>
    let g := st.dpGroupPages dpRank
    let toReserve := min (min (minReservedPages - g.reservedVirtPageList.length)
      g.freeVirtPageList.length)
      (s.workerPages.minFreePagesInRange cfg (st.dpGroupWorkerRange cfg dpRank) /
        st.phyPagesPerVirtPage)
    if st.isSleeping ∨ toReserve = 0 then s
    else
      let pages := g.freeVirtPageList.take toReserve
      match consumePhyPagesForDp cfg s.workerPages st dpRank
          (pages.length * st.phyPagesPerVirtPage) with
      | none => s
      | some p =>
        let g' := { g with freeVirtPageList := g.freeVirtPageList.drop toReserve }
        s.commit m (st.setGroup dpRank g') p id (some (.preallocNext (todo ++ [(m, dpRank, pages)])))
  | _, _ => s

/-- The worker goes on with its list, or is done. -/
def preallocCall (todo : List (ModelId × Nat × List Nat)) : Option (Call ModelId) :=
  if todo = [] then none else some (.preallocNext todo)

/-- The first section: `order` is the order in which the models are met. -/
def preallocCollect (cfg : Config) (s : System ModelId) (id : Nat) (order : List ModelId) :
    System ModelId :=
  let groups := order.flatMap fun m => (List.range cfg.dpSize).map fun dpRank => (m, dpRank)
  let s' := groups.foldl (reserveForGroup cfg id) (s.goOn id (some (.preallocNext [])))
  match s'.calls.lookup id with
  | some (.preallocNext []) => s'.goOn id none
  | _ => s'

def returnPages (g : DpGroupPages) (pages : List Nat) : DpGroupPages :=
  { g with freeVirtPageList := pages ++ g.freeVirtPageList }

def preallocNext (cfg : Config) (s : System ModelId) (id : Nat) (m : ModelId) (dpRank : Nat)
    (pages : List Nat) (todo : List (ModelId × Nat × List Nat)) (st : ModelState) :
    System ModelId :=
  if st.isSleeping then
    s.commit m (st.setGroup dpRank (returnPages (st.dpGroupPages dpRank) pages))
      (releasePhyPagesForDp cfg s.workerPages st dpRank pages.length) id (preallocCall todo)
  else
    s.commit m { st with pendingMapOps := st.pendingMapOps + 1 } s.workerPages id
      (some (.preallocMapping m dpRank pages todo))

/-- In the last case the model went to sleep: the pages are released and are in no list any more. -/
def preallocMapped (cfg : Config) (s : System ModelId) (id : Nat) (m : ModelId) (dpRank : Nat)
    (pages : List Nat) (mapSuccess : Bool) (todo : List (ModelId × Nat × List Nat))
    (st : ModelState) : System ModelId :=
  let st := { st with pendingMapOps := st.pendingMapOps - 1 }
  let g := st.dpGroupPages dpRank
  let released := releasePhyPagesForDp cfg s.workerPages st dpRank pages.length
  if ¬ mapSuccess then
    s.commit m (st.setGroup dpRank (returnPages g pages)) released id (preallocCall todo)
  else if ¬ st.isSleeping then
    let g' := { g with reservedVirtPageList := g.reservedVirtPageList ++ pages }
    s.commit m (st.setGroup dpRank g') s.workerPages id (preallocCall todo)
  else s.commit m st released id (preallocCall todo)

/-! ## Steps -/

inductive Label (ModelId : Type)
  | registerModel (m : ModelId) (numLayers : Nat)
  | setModelParallelStrategy (m : ModelId) (dpSize tpSize : Nat)
  | setWeightPagesCount (m : ModelId) (n : Nat)
  | allocKvCachePage (id : Nat) (m : ModelId) (dpRank : Nat)
  | freeKvCachePages (id : Nat) (m : ModelId) (dpRank : Nat) (pages : List Nat)
  | trimKvCache (id : Nat) (m : ModelId) (dpRank : Nat)
  | allocWeightPages (id : Nat) (m : ModelId) (n : Nat)
  | freeWeightPages (id : Nat) (m : ModelId) (n : Nat)
  | sleepModel (id : Nat) (m : ModelId) (skipWeightRelease : Bool)
  | wakeupModel (id : Nat) (m : ModelId)
  | preallocCollect (id : Nat) (order : List ModelId)
  /-- The broadcast that call `id` waits for returns. -/
  | broadcast (id : Nat) (success : Bool)
  /-- Call `id` enters its next mutex-held section. -/
  | resume (id : Nat)

/-- Where a broadcast leads its call; `none` when it is not waiting for one. -/
def Call.returned (success : Bool) : Call ModelId → Option (Option (Call ModelId))
  | .allocMapping m dpRank page => some (some (.allocMapped m dpRank page success))
  | .unmapping m dpRank pages => some (some (.unmapped m dpRank pages success))
  | .preallocMapping m dpRank pages todo =>
    some (some (.preallocMapped m dpRank pages success todo))
  | .weightsAllocating _ _ => some none
  | .weightsFreeing m n => some (if success then some (.weightsFreed m n) else none)
  | .sleepFreeingWeights m n groups =>
    some (if success then some (.sleepFreedWeights m n groups) else none)
  | .sleepUnmapping m done (group :: groups) =>
    some (some (.sleepUnmapping m (done ++ [(group, success)]) groups))
  | .wakeMapping m (_ :: groups) weightPages =>
    some (if success then some (wakeNext m groups weightPages) else none)
  | .wakeMapping m [] _ => some (if success then some (.wakeMapped m) else none)
  | _ => none

namespace System

/-- `get_model_state`. -/
def getModelState (s : System ModelId) (m : ModelId) : Except PageError ModelState :=
  match s.modelStates.lookup m with
  | some st => .ok st
  | none => .error .check

def fresh (s : System ModelId) (id : Nat) : Except PageError Unit :=
  if s.calls.lookup id = none then .ok () else .error .notEnabled

def checkRank (cfg : Config) (dpRank : Nat) : Except PageError Unit :=
  if dpRank < cfg.dpSize then .ok () else .error .check

def resume (cfg : Config) (s : System ModelId) (id : Nat) :
    Call ModelId → Except PageError (System ModelId)
  | .allocMapped m dpRank page mapSuccess => do
    return allocMapped cfg s id m dpRank page mapSuccess (← s.getModelState m)
  | .allocTracking m dpRank page => do
    return allocTracking s id m dpRank page (← s.getModelState m)
  | .unmapped m dpRank pages unmapSuccess => do
    return XTensor.unmapped cfg s id m dpRank pages unmapSuccess (← s.getModelState m)
  | .preallocNext ((m, dpRank, pages) :: todo) => do
    return preallocNext cfg s id m dpRank pages todo (← s.getModelState m)
  | .preallocMapped m dpRank pages mapSuccess todo => do
    return preallocMapped cfg s id m dpRank pages mapSuccess todo (← s.getModelState m)
  | .weightsFreed m n => do return weightsFreed cfg s id m n (← s.getModelState m)
  | .sleepWaiting m skipWeightRelease => do
    return sleepWaiting cfg s id m skipWeightRelease (← s.getModelState m)
  | .sleepFreedWeights m n groups => do
    return sleepFreedWeights cfg s id m n groups (← s.getModelState m)
  | .sleepUnmapping m done [] => do return sleepUnmapped cfg s id m done (← s.getModelState m)
  | .wakeMapped m => do return wakeMapped s id m (← s.getModelState m)
  | _ => .error .notEnabled

/-- One mutex-held section, or the return of one broadcast. -/
def step (cfg : Config) (s : System ModelId) : Label ModelId → Except PageError (System ModelId)
  | .registerModel m numLayers =>
    if numLayers = 0 then .error .divisionByZero
    else if (s.modelStates.lookup m).isSome then .ok s
    else .ok { s with modelStates := s.modelStates.insert m (.registered cfg numLayers) }
  | .setModelParallelStrategy m dpSize tpSize =>
    match s.modelStates.lookup m with
    | none => .ok s
    | some st =>
      .ok { s with
        modelStates := s.modelStates.insert m
          { st with modelTpSize := tpSize, modelWorldSize := dpSize * tpSize } }
  | .setWeightPagesCount m n => do
    let st ← s.getModelState m
    return { s with modelStates := s.modelStates.insert m { st with weightPagesAllocated := n } }
  | .allocKvCachePage id m dpRank => do
    s.fresh id
    checkRank cfg dpRank
    let st ← s.getModelState m
    allocKvCachePage cfg s id m dpRank st
  | .freeKvCachePages id m dpRank pages => do
    s.fresh id
    checkRank cfg dpRank
    let st ← s.getModelState m
    return freeKvCachePages s id m dpRank pages st
  | .trimKvCache id m dpRank => do
    s.fresh id
    checkRank cfg dpRank
    let st ← s.getModelState m
    return trimKvCache s id m dpRank st
  | .allocWeightPages id m n => do
    s.fresh id
    let st ← s.getModelState m
    return allocWeightPages cfg s id m n st
  | .freeWeightPages id m n => do
    s.fresh id
    return s.goOn id (some (.weightsFreeing m n))
  | .sleepModel id m skipWeightRelease => do
    s.fresh id
    match s.modelStates.lookup m with
    | none => return s
    | some st => return sleepModel cfg s id m skipWeightRelease st
  | .wakeupModel id m => do
    s.fresh id
    match s.modelStates.lookup m with
    | none => return s
    | some st => return wakeupModel cfg s id m st
  | .preallocCollect id order => do
    s.fresh id
    if order.Perm s.modelStates.keys then return preallocCollect cfg s id order
    else .error .notEnabled
  | .broadcast id success =>
    match (s.calls.lookup id).bind (Call.returned success) with
    | none => .error .notEnabled
    | some next => .ok (s.goOn id next)
  | .resume id =>
    match s.calls.lookup id with
    | none => .error .notEnabled
    | some call => s.resume cfg id call

end System

/-- `init`. -/
def System.init : System ModelId where
  workerPages := { used := fun _ => 0, underflow := false }
  modelStates := ∅
  calls := ∅
  given _ _ := []

end Xllm.XTensor
