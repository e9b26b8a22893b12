import Xllm.XTensor.PageMoves
import Xllm.XTensor.PagePartition

/-!
# The physical pages of a worker

`worker_pages_used_` is the sum of what the models have on the worker and what calls in flight still
owe it: a call that has taken a page and not entered it in a list, or has taken pages out of a list and
not released them yet. A sleeping model has nothing there, from the moment it is put to sleep (what is
still counted then is owed by the `sleep_model` call) until a wakeup has taken its pages again
(`System.backed`).

```
used w = Σ models (weights + mapped pages, if backed) + Σ calls (what the call owes)
```

The sections of `PageAllocator` keep this sum only when they meet the model in the right state, which the
code does not check everywhere. **`Calm` says which state that is.** `Accounted` is the invariant that
such sections keep.
-/

namespace Xllm.XTensor

open Xllm.Lib List Function

variable {ModelId : Type} [DecidableEq ModelId]

/-! ## Who has what on a worker -/

/-- The physical pages one virtual page of a group takes on worker `w`. -/
def dpUnit (cfg : Config) (st : ModelState) (dpRank w : Nat) : Nat :=
  if (st.dpGroupWorkerRange cfg dpRank).1 ≤ w ∧ w < (st.dpGroupWorkerRange cfg dpRank).2
  then st.phyPagesPerVirtPage else 0

/-- One on the workers that hold the weights. -/
def weightUnit (cfg : Config) (st : ModelState) (w : Nat) : Nat :=
  if w < (st.weightWorkerRange cfg).2 then 1 else 0

/-- What a model has on a worker; its lists count when they are backed by physical pages. -/
def modelPages (cfg : Config) (backed : Bool) (st : ModelState) (w : Nat) : Nat :=
  weightUnit cfg st w * st.weightPagesHeld +
    if backed then
      ∑ dpRank ∈ Finset.range cfg.dpSize,
        dpUnit cfg st dpRank w * (st.dpGroupPages dpRank).mapped.length
    else 0

namespace Call

/-- The virtual pages a call has taken and not given back, by group. -/
def owed : Call ModelId → List (ModelId × Nat × Nat)
  | sleepFreeingWeights m _ groups => groups.map fun g => (m, g.1, g.2.length)
  | sleepFreedWeights m _ groups => groups.map fun g => (m, g.1, g.2.length)
  | sleepUnmapping m done groups =>
    (done.map fun g => (m, g.1.1, g.1.2.length)) ++ groups.map fun g => (m, g.1, g.2.length)
  | call => call.groups.map fun g => (g.1, g.2.1, g.2.2.length)

/-- The weight pages it will release. -/
def owedWeights : Call ModelId → Option (ModelId × Nat)
  | sleepFreeingWeights m n _ => some (m, n)
  | sleepFreedWeights m n _ => some (m, n)
  | _ => none

/-- The model a wakeup is in flight for. -/
def wakes : Call ModelId → Option ModelId
  | wakeMapping m _ _ => some m
  | wakeMapped m => some m
  | _ => none

/-- The broadcasts a call remembers succeeded. -/
def succeeded : Call ModelId → Bool
  | allocMapped _ _ _ mapSuccess => mapSuccess
  | unmapped _ _ _ unmapSuccess => unmapSuccess
  | preallocMapped _ _ _ mapSuccess _ => mapSuccess
  | sleepUnmapping _ done _ => done.all Prod.snd
  | _ => true

/-- The models a call works for. -/
def models : Call ModelId → List ModelId
  | allocMapping m _ _ => [m]
  | allocMapped m _ _ _ => [m]
  | allocTracking m _ _ => [m]
  | unmapping m _ _ => [m]
  | unmapped m _ _ _ => [m]
  | preallocNext todo => todo.map Prod.fst
  | preallocMapping m _ _ todo => m :: todo.map Prod.fst
  | preallocMapped m _ _ _ todo => m :: todo.map Prod.fst
  | weightsAllocating m _ => [m]
  | weightsFreeing m _ => [m]
  | weightsFreed m _ => [m]
  | sleepWaiting m _ => [m]
  | sleepFreeingWeights m _ _ => [m]
  | sleepFreedWeights m _ _ => [m]
  | sleepUnmapping m _ _ => [m]
  | wakeMapping m _ _ => [m]
  | wakeMapped m => [m]

/-- What a call owes a worker, where `unit` and `weights` are the models' units there. -/
def owedPages (unit : ModelId → Nat → Nat) (weights : ModelId → Nat) (call : Call ModelId) : Nat :=
  (call.owed.map fun g => unit g.1 g.2.1 * g.2.2).sum +
    call.owedWeights.elim 0 fun g => weights g.1 * g.2

end Call

namespace System

/-- A wakeup of the model is in flight. -/
def waking (s : System ModelId) (m : ModelId) : Bool :=
  s.calls.entries.any fun entry => decide (entry.2.wakes = some m)

/-- The mapped pages of the model are counted: it is awake, or a wakeup has taken them. -/
def backed (s : System ModelId) (m : ModelId) : Bool := !(s.stateOf m).isSleeping || s.waking m

/-- No call works for the model. -/
def quiescent (s : System ModelId) (m : ModelId) : Bool :=
  s.calls.entries.all fun entry => decide (m ∉ entry.2.models)

/-- The unit of a group of the model on worker `w`. -/
def unit (cfg : Config) (s : System ModelId) (w : Nat) (m : ModelId) (dpRank : Nat) : Nat :=
  dpUnit cfg (s.stateOf m) dpRank w

def weights (cfg : Config) (s : System ModelId) (w : Nat) (m : ModelId) : Nat :=
  weightUnit cfg (s.stateOf m) w

/-- Everything that is taken on a worker. -/
def takenPages (cfg : Config) (s : System ModelId) (w : Nat) : Nat :=
  tally (fun m st => modelPages cfg (s.backed m) st w) s.modelStates +
    tally (ofCall (Call.owedPages (s.unit cfg w) (s.weights cfg w))) s.calls

end System

variable {s : System ModelId} {m : ModelId}

theorem waking_iff :
    s.waking m = true ↔ ∃ id call, s.calls.lookup id = some call ∧ call.wakes = some m := by
  rw [System.waking, any_eq_true]
  constructor
  · rintro ⟨⟨id, call⟩, hmem, hwakes⟩
    exact ⟨id, call, mem_entries_iff.mp hmem, of_decide_eq_true hwakes⟩
  · rintro ⟨id, call, hid, hwakes⟩
    exact ⟨⟨id, call⟩, mem_entries_iff.mpr hid, decide_eq_true hwakes⟩

theorem quiescent_iff :
    s.quiescent m = true ↔ ∀ id call, s.calls.lookup id = some call → m ∉ call.models := by
  rw [System.quiescent, all_eq_true]
  constructor
  · intro h id call hid
    exact of_decide_eq_true (h ⟨id, call⟩ (mem_entries_iff.mpr hid))
  · rintro h ⟨id, call⟩ hmem
    exact decide_eq_true (h id call (mem_entries_iff.mp hmem))

variable {call : Call ModelId}

omit [DecidableEq ModelId] in
theorem Call.wakes_mem_models (h : call.wakes = some m) :
    m ∈ call.models := by
  cases call with
  | wakeMapping m' groups weightPages => cases h; exact mem_singleton_self m
  | wakeMapped m' => cases h; exact mem_singleton_self m
  | _ => exact nomatch h

omit [DecidableEq ModelId] in
theorem Call.groups_mem_models {g : ModelId × Nat × List Nat}
    (h : g ∈ call.groups) : g.1 ∈ call.models := by
  have hcons : ∀ {m : ModelId} {dpRank : Nat} {pages : List Nat}
      {todo : List (ModelId × Nat × List Nat)}, g ∈ (m, dpRank, pages) :: todo →
      g.1 ∈ m :: todo.map Prod.fst := by
    intro m dpRank pages todo hmem
    rcases mem_cons.mp hmem with rfl | hmem
    · exact mem_cons_self
    · exact mem_cons_of_mem _ (mem_map_of_mem hmem)
  cases call with
  | preallocNext todo => exact mem_map_of_mem h
  | preallocMapping m dpRank pages todo => exact hcons h
  | preallocMapped m dpRank pages mapSuccess todo => exact hcons h
  | allocMapping m dpRank page => exact hcons h
  | allocMapped m dpRank page mapSuccess => exact hcons h
  | allocTracking m dpRank page => exact hcons h
  | unmapping m dpRank pages => exact hcons h
  | unmapped m dpRank pages unmapSuccess => exact hcons h
  | _ => exact nomatch h

omit [DecidableEq ModelId] in
theorem Call.owed_mem_models {g : ModelId × Nat × Nat} (h : g ∈ call.owed) :
    g.1 ∈ call.models := by
  have hgroups : g ∈ call.groups.map (fun g => (g.1, g.2.1, g.2.2.length)) →
      g.1 ∈ call.models := by
    intro hmem
    obtain ⟨group, hgroup, rfl⟩ := mem_map.mp hmem
    exact groups_mem_models hgroup
  cases call with
  | sleepFreeingWeights m n groups =>
    obtain ⟨entry, -, rfl⟩ := mem_map.mp h
    exact mem_singleton_self m
  | sleepFreedWeights m n groups =>
    obtain ⟨entry, -, rfl⟩ := mem_map.mp h
    exact mem_singleton_self m
  | sleepUnmapping m done groups =>
    rcases mem_append.mp h with h | h
    · obtain ⟨entry, -, rfl⟩ := mem_map.mp h
      exact mem_singleton_self m
    · obtain ⟨entry, -, rfl⟩ := mem_map.mp h
      exact mem_singleton_self m
  | _ => exact hgroups h

omit [DecidableEq ModelId] in
theorem Call.owedWeights_mem_models {g : ModelId × Nat}
    (h : call.owedWeights = some g) : g.1 ∈ call.models := by
  cases call with
  | sleepFreeingWeights m n groups => cases h; exact mem_singleton_self m
  | sleepFreedWeights m n groups => cases h; exact mem_singleton_self m
  | _ => exact nomatch h

/-! ## Consuming and releasing

`consume` and `release` add to and take from every worker of a range. A release of more than is counted
stops at zero and is remembered in `underflow`; each spec lemma asks that it does not happen. -/

variable {p : WorkerPages} {n : Nat}

/-- Nothing is lost when all of the range has what is released. -/
theorem release_spec {range : Nat × Nat} {taken : Nat → Nat}
    (htaken : ∀ w, taken w = if range.1 ≤ w ∧ w < range.2 then n else 0)
    (h : ∀ w, taken w ≤ p.used w) :
    (p.release range n).underflow = p.underflow ∧
      ∀ w, (p.release range n).used w + taken w = p.used w := by
  refine ⟨?_, fun w => ?_⟩
  · have hnone : ((List.range' range.1 (range.2 - range.1)).any fun w => decide (p.used w < n)) =
        false := by
      rw [any_eq_false]
      intro w hw
      rw [List.mem_range'_1] at hw
      have := h w
      rw [htaken, if_pos ⟨hw.1, by omega⟩] at this
      simpa using this
    show (p.underflow || _) = p.underflow
    rw [hnone, Bool.or_false]
  · have hle := h w
    rw [htaken] at hle ⊢
    by_cases hw : range.1 ≤ w ∧ w < range.2
    · rw [if_pos hw] at hle
      simp only [WorkerPages.release, if_pos hw, if_pos hle]
      omega
    · simp only [WorkerPages.release, if_neg hw, Nat.add_zero]

theorem consume_spec (p : WorkerPages) (range : Nat × Nat) (n w : Nat) :
    (p.consume range n).used w = p.used w + if range.1 ≤ w ∧ w < range.2 then n else 0 := by
  unfold WorkerPages.consume
  dsimp only
  split <;> rfl

variable {cfg : Config} {st : ModelState} {dpRank : Nat}

theorem dpUnit_mul (cfg : Config) (st : ModelState) (dpRank w n : Nat) :
    dpUnit cfg st dpRank w * n =
      if (st.dpGroupWorkerRange cfg dpRank).1 ≤ w ∧ w < (st.dpGroupWorkerRange cfg dpRank).2
      then n * st.phyPagesPerVirtPage else 0 := by
  unfold dpUnit
  split
  · exact Nat.mul_comm ..
  · exact Nat.zero_mul _

theorem weightUnit_mul (cfg : Config) (st : ModelState) (w n : Nat) : weightUnit cfg st w * n =
    if (st.weightWorkerRange cfg).1 ≤ w ∧ w < (st.weightWorkerRange cfg).2 then n else 0 := by
  have hzero : (st.weightWorkerRange cfg).1 ≤ w := Nat.zero_le w
  simp only [weightUnit, hzero, true_and]
  split
  · exact Nat.one_mul n
  · exact Nat.zero_mul n

theorem releasePhyPagesForDp_spec (h : ∀ w, dpUnit cfg st dpRank w * n ≤ p.used w) :
    (releasePhyPagesForDp cfg p st dpRank n).underflow = p.underflow ∧
      ∀ w, (releasePhyPagesForDp cfg p st dpRank n).used w + dpUnit cfg st dpRank w * n =
        p.used w :=
  release_spec (fun w => dpUnit_mul cfg st dpRank w n) h

theorem releaseWeights_spec (h : ∀ w, weightUnit cfg st w * n ≤ p.used w) :
    (p.release (st.weightWorkerRange cfg) n).underflow = p.underflow ∧
      ∀ w, (p.release (st.weightWorkerRange cfg) n).used w + weightUnit cfg st w * n =
        p.used w :=
  release_spec (fun w => weightUnit_mul cfg st w n) h

theorem consumePhyPagesForDp_spec {p' : WorkerPages}
    (h : consumePhyPagesForDp cfg p st dpRank (n * st.phyPagesPerVirtPage) = some p') :
    p'.underflow = p.underflow ∧ ∀ w, p'.used w = p.used w + dpUnit cfg st dpRank w * n := by
  unfold consumePhyPagesForDp at h
  dsimp only at h
  split at h
  · cases h
  · cases h
    refine ⟨rfl, fun w => ?_⟩
    rw [consume_spec, dpUnit_mul]

theorem consumeWeights_spec (cfg : Config) (p : WorkerPages) (st : ModelState) (n w : Nat) :
    (p.consume (st.weightWorkerRange cfg) n).used w = p.used w + weightUnit cfg st w * n := by
  rw [consume_spec, weightUnit_mul]

theorem releaseGroups_spec
    {done : List ((Nat × List Nat) × Bool)} (hdone : done.all Prod.snd = true)
    (h : ∀ w, (done.map fun g => dpUnit cfg st g.1.1 w * g.1.2.length).sum ≤ p.used w) :
    (releaseGroups cfg st p done).underflow = p.underflow ∧
      ∀ w, (releaseGroups cfg st p done).used w +
        (done.map fun g => dpUnit cfg st g.1.1 w * g.1.2.length).sum = p.used w := by
  induction done generalizing p with
  | nil => exact ⟨rfl, fun w => rfl⟩
  | cons entry done ih =>
    simp only [all_cons, Bool.and_eq_true] at hdone
    simp only [map_cons, sum_cons] at h ⊢
    obtain ⟨hunder, hused⟩ := releasePhyPagesForDp_spec (p := p) (n := entry.1.2.length) fun w =>
      le_trans (Nat.le_add_right _ _) (h w)
    obtain ⟨hunder', hused'⟩ := ih hdone.2
      (p := releasePhyPagesForDp cfg p st entry.1.1 entry.1.2.length) fun w => by
        have := h w
        have := hused w
        omega
    have hfold : releaseGroups cfg st p (entry :: done) =
        releaseGroups cfg st (releasePhyPagesForDp cfg p st entry.1.1 entry.1.2.length) done := by
      simp only [releaseGroups, foldl_cons, hdone.1, if_true]
    rw [hfold]
    refine ⟨hunder'.trans hunder, fun w => ?_⟩
    have := hused w
    have := hused' w
    omega

/-- What `wakeup_model` takes is what `sleep_model` gave back. -/
theorem mappedGroups_sum (cfg : Config) (st : ModelState) (f : Nat → Nat) :
    ((st.mappedGroups cfg).map fun g => f g.1 * g.2.length).sum =
      ∑ dpRank ∈ Finset.range cfg.dpSize, f dpRank * (st.dpGroupPages dpRank).mapped.length := by
  have hfilter : ∀ groups : List (Nat × List Nat),
      ((groups.filter fun group => decide (group.2 ≠ [])).map fun g => f g.1 * g.2.length).sum =
        (groups.map fun g => f g.1 * g.2.length).sum := by
    intro groups
    induction groups with
    | nil => rfl
    | cons g groups ih =>
      rw [filter_cons]
      split
      · rw [map_cons, map_cons, sum_cons, sum_cons, ih]
      · next hnil =>
        have hnil : g.2 = [] := by simpa using hnil
        rw [map_cons, sum_cons, ih, hnil, length_nil, Nat.mul_zero, Nat.zero_add]
  rw [ModelState.mappedGroups, hfilter, map_map]
  rfl

/-- What a wakeup consumes is what the model had before it slept. -/
theorem pagesToConsume_eq (cfg : Config) (st : ModelState) (w : Nat) :
    pagesToConsume cfg st w = weightUnit cfg st w * st.weightPagesAllocated +
      ∑ dpRank ∈ Finset.range cfg.dpSize,
        dpUnit cfg st dpRank w * (st.dpGroupPages dpRank).mapped.length := by
  have hzero : (st.weightWorkerRange cfg).1 ≤ w := Nat.zero_le w
  rw [pagesToConsume, weightUnit_mul, ← mappedGroups_sum cfg st fun dpRank => dpUnit cfg st dpRank w]
  simp only [hzero, true_and, dpUnit_mul]
  exact Nat.add_comm ..

/-! ## The states a section has to meet

A section reads the model again after the lock was free, and another call may have changed it. The
source checks some of what it relies on (`pending_map_ops`, `is_sleeping`) and not the rest: that a
freed page is not one a `sleep_model` has released, that a tracked page belongs to a model that is still
awake, that weights are given back once. -/

/-- What `sleep_model` puts to sleep has the weights it is going to release, and is not asleep. -/
def MaySleep (st : ModelState) (skipWeightRelease : Bool) : Prop :=
  st.isSleeping = false ∧
    st.weightPagesHeld = if skipWeightRelease then 0 else st.weightPagesAllocated

instance (st : ModelState) (skipWeightRelease : Bool) :
    Decidable (MaySleep st skipWeightRelease) := by
  unfold MaySleep
  infer_instance

/-- The state of the model suits the section that is about to run. -/
def Calm (cfg : Config) (s : System ModelId) : Label ModelId → Prop
  | .setModelParallelStrategy m _ _ =>
    s.quiescent m = true ∧ (s.stateOf m).weightPagesHeld = 0 ∧
      ∀ dpRank < cfg.dpSize, ((s.stateOf m).dpGroupPages dpRank).mapped = []
  | .freeKvCachePages _ m _ pages => pages = [] ∨ s.backed m = true
  | .trimKvCache _ m dpRank =>
    ((s.stateOf m).dpGroupPages dpRank).reservedVirtPageList = [] ∨ s.backed m = true
  | .allocWeightPages _ m n => n = 0 ∨ s.backed m = true
  | .sleepModel _ m skipWeightRelease =>
    (s.stateOf m).isSleeping = true ∨ 0 < (s.stateOf m).pendingMapOps ∨
      MaySleep (s.stateOf m) skipWeightRelease
  | .wakeupModel _ m => s.waking m = false
  | .resume id =>
    match s.calls.lookup id with
    | some (.allocTracking m _ _) => s.backed m = true
    | some (.sleepWaiting m skipWeightRelease) =>
      0 < (s.stateOf m).pendingMapOps ∨ MaySleep (s.stateOf m) skipWeightRelease
    | some (.weightsFreed m n) => n ≤ (s.stateOf m).weightPagesHeld
    | _ => True
  | _ => True

instance (cfg : Config) (s : System ModelId) (label : Label ModelId) :
    Decidable (Calm cfg s label) :=
  match label with
  | .registerModel .. | .setModelParallelStrategy .. | .setWeightPagesCount ..
  | .allocKvCachePage .. | .freeKvCachePages .. | .trimKvCache .. | .allocWeightPages ..
  | .freeWeightPages .. | .sleepModel .. | .wakeupModel .. | .preallocCollect ..
  | .broadcast .. => by
    unfold Calm
    infer_instance
  | .resume id => by
    unfold Calm
    dsimp only
    split <;> infer_instance

/-- A broadcast that fails. -/
def Label.succeeds : Label ModelId → Bool
  | .broadcast _ success => success
  | _ => true

/-! ## The invariant

`used` is the accounting; the other clauses are what the sections need to keep it. -/

/-- Every worker's count is what is taken there. -/
structure Accounted (cfg : Config) (s : System ModelId) : Prop where
  used : ∀ w, s.workerPages.used w = s.takenPages cfg w
  underflow : s.workerPages.underflow = false
  wakingAsleep : ∀ m, s.waking m = true → (s.stateOf m).isSleeping = true
  wakesOnce : ∀ id id' call call' m, s.calls.lookup id = some call →
    s.calls.lookup id' = some call' → call.wakes = some m → call'.wakes = some m → id = id'
  unbacked : ∀ m, s.backed m = false → (s.stateOf m).weightPagesHeld = 0
  succeeded : ∀ id call, s.calls.lookup id = some call → call.succeeded = true
  ranks : ∀ id call, s.calls.lookup id = some call → ∀ g ∈ call.owed, g.2.1 < cfg.dpSize

theorem Accounted.init (cfg : Config) : Accounted cfg (System.init : System ModelId) where
  used _ := rfl
  underflow := rfl
  wakingAsleep m h := nomatch h
  wakesOnce id _ call _ _ h := nomatch h
  unbacked _ _ := rfl
  succeeded _ _ h := nomatch h
  ranks _ _ h := nomatch h

variable {id : Nat}

/-- What a call will release is counted, so its release does not underflow. -/
theorem Accounted.owed_le (h : Accounted cfg s) (hid : s.calls.lookup id = some call) (w : Nat) :
    call.owedPages (s.unit cfg w) (s.weights cfg w) ≤ s.workerPages.used w := by
  have hle := weigh_le_tally (ofCall (Call.owedPages (s.unit cfg w) (s.weights cfg w))) s.calls id
  rw [hid, weigh_some] at hle
  rw [h.used, System.takenPages]
  exact le_trans hle (Nat.le_add_left _ _)

theorem Accounted.model_le (h : Accounted cfg s)
    (hst : s.modelStates.lookup m = some st) (w : Nat) :
    modelPages cfg (s.backed m) st w ≤ s.workerPages.used w := by
  have hle := weigh_le_tally (fun m st => modelPages cfg (s.backed m) st w) s.modelStates m
  rw [hst, weigh_some] at hle
  rw [h.used, System.takenPages]
  exact le_trans hle (Nat.le_add_right _ _)

end Xllm.XTensor
