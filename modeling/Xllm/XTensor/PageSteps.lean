import Xllm.XTensor.PageAllocator

/-!
# What a step of the allocator is

A step does nothing, changes the state of a model outside the calls, begins a call by its first section,
answers a broadcast, or is the next section of a call. `Stepped` has one constructor for each of these,
with what the step has checked; an invariant of the steps is proved by cases on it.
-/

namespace Xllm.XTensor

open Xllm.Lib

variable {ModelId : Type} [DecidableEq ModelId]

theorem getModelState_eq_ok {s : System ModelId} {m : ModelId} {st : ModelState}
    (h : s.getModelState m = .ok st) : s.modelStates.lookup m = some st := by
  unfold System.getModelState at h
  split at h
  · next st' hst =>
    cases h
    exact hst
  · cases h

omit [DecidableEq ModelId] in
theorem fresh_eq_ok {s : System ModelId} {id : Nat} {u : Unit} (h : s.fresh id = .ok u) :
    s.calls.lookup id = none := by
  unfold System.fresh at h
  split at h
  · next hnone => exact hnone
  · cases h

theorem checkRank_eq_ok {cfg : Config} {dpRank : Nat} {u : Unit}
    (h : System.checkRank cfg dpRank = .ok u) : dpRank < cfg.dpSize := by
  unfold System.checkRank at h
  split at h
  · next hdp => exact hdp
  · cases h

inductive Stepped (cfg : Config) (s : System ModelId) : Label ModelId → System ModelId → Prop
  | idle (label : Label ModelId) : Stepped cfg s label s
  | registerModel {m : ModelId} (numLayers : Nat) (hm : s.modelStates.lookup m = none) :
      Stepped cfg s (.registerModel m numLayers)
        { s with modelStates := s.modelStates.insert m (.registered cfg numLayers) }
  | setModelParallelStrategy {m : ModelId} {st : ModelState} (dpSize tpSize : Nat)
      (hst : s.modelStates.lookup m = some st) :
      Stepped cfg s (.setModelParallelStrategy m dpSize tpSize)
        { s with
          modelStates := s.modelStates.insert m
            { st with modelTpSize := tpSize, modelWorldSize := dpSize * tpSize } }
  | setWeightPagesCount {m : ModelId} {st : ModelState} (n : Nat)
      (hst : s.modelStates.lookup m = some st) :
      Stepped cfg s (.setWeightPagesCount m n)
        { s with modelStates := s.modelStates.insert m { st with weightPagesAllocated := n } }
  | allocKvCachePage {id : Nat} {m : ModelId} {dpRank : Nat} {st : ModelState}
      {s' : System ModelId} (hid : s.calls.lookup id = none) (hdp : dpRank < cfg.dpSize)
      (hst : s.modelStates.lookup m = some st)
      (hok : allocKvCachePage cfg s id m dpRank st = .ok s') :
      Stepped cfg s (.allocKvCachePage id m dpRank) s'
  | freeKvCachePages {id : Nat} {m : ModelId} {dpRank : Nat} {st : ModelState} (pages : List Nat)
      (hid : s.calls.lookup id = none) (hdp : dpRank < cfg.dpSize)
      (hst : s.modelStates.lookup m = some st) :
      Stepped cfg s (.freeKvCachePages id m dpRank pages) (freeKvCachePages s id m dpRank pages st)
  | trimKvCache {id : Nat} {m : ModelId} {dpRank : Nat} {st : ModelState}
      (hid : s.calls.lookup id = none) (hdp : dpRank < cfg.dpSize)
      (hst : s.modelStates.lookup m = some st) :
      Stepped cfg s (.trimKvCache id m dpRank) (trimKvCache s id m dpRank st)
  | allocWeightPages {id : Nat} {m : ModelId} {st : ModelState} (n : Nat)
      (hid : s.calls.lookup id = none) (hst : s.modelStates.lookup m = some st) :
      Stepped cfg s (.allocWeightPages id m n) (allocWeightPages cfg s id m n st)
  | freeWeightPages {id : Nat} (m : ModelId) (n : Nat) (hid : s.calls.lookup id = none) :
      Stepped cfg s (.freeWeightPages id m n) (s.goOn id (some (.weightsFreeing m n)))
  | beginSleep {id : Nat} (m : ModelId) (skipWeightRelease : Bool)
      (hid : s.calls.lookup id = none) :
      Stepped cfg s (.sleepModel id m skipWeightRelease)
        (s.goOn id (some (.sleepWaiting m skipWeightRelease)))
  | sleepModel {id : Nat} {m : ModelId} {st : ModelState} (skipWeightRelease : Bool)
      (hid : s.calls.lookup id = none) (hst : s.modelStates.lookup m = some st)
      (hawake : ¬ st.isSleeping = true) (hpending : ¬ 0 < st.pendingMapOps) :
      Stepped cfg s (.sleepModel id m skipWeightRelease)
        (fallAsleep cfg s id m skipWeightRelease st)
  | wakeupModel {id : Nat} {m : ModelId} {st : ModelState} (hid : s.calls.lookup id = none)
      (hst : s.modelStates.lookup m = some st) :
      Stepped cfg s (.wakeupModel id m) (wakeupModel cfg s id m st)
  | preallocCollect {id : Nat} (order : List ModelId) (hid : s.calls.lookup id = none) :
      Stepped cfg s (.preallocCollect id order) (preallocCollect cfg s id order)
  | broadcast {id : Nat} {success : Bool} {call : Call ModelId} {next : Option (Call ModelId)}
      (hid : s.calls.lookup id = some call) (hnext : call.returned success = some next) :
      Stepped cfg s (.broadcast id success) (s.goOn id next)
  | allocMapped {id : Nat} {m : ModelId} {dpRank page : Nat} {mapSuccess : Bool} {st : ModelState}
      (hid : s.calls.lookup id = some (.allocMapped m dpRank page mapSuccess))
      (hst : s.modelStates.lookup m = some st) :
      Stepped cfg s (.resume id) (allocMapped cfg s id m dpRank page mapSuccess st)
  | allocTracking {id : Nat} {m : ModelId} {dpRank page : Nat} {st : ModelState}
      (hid : s.calls.lookup id = some (.allocTracking m dpRank page))
      (hst : s.modelStates.lookup m = some st) :
      Stepped cfg s (.resume id) (allocTracking s id m dpRank page st)
  | unmapped {id : Nat} {m : ModelId} {dpRank : Nat} {pages : List Nat} {unmapSuccess : Bool}
      {st : ModelState} (hid : s.calls.lookup id = some (.unmapped m dpRank pages unmapSuccess))
      (hst : s.modelStates.lookup m = some st) :
      Stepped cfg s (.resume id) (unmapped cfg s id m dpRank pages unmapSuccess st)
  | preallocNext {id : Nat} {m : ModelId} {dpRank : Nat} {pages : List Nat}
      {todo : List (ModelId × Nat × List Nat)} {st : ModelState}
      (hid : s.calls.lookup id = some (.preallocNext ((m, dpRank, pages) :: todo)))
      (hst : s.modelStates.lookup m = some st) :
      Stepped cfg s (.resume id) (preallocNext cfg s id m dpRank pages todo st)
  | preallocMapped {id : Nat} {m : ModelId} {dpRank : Nat} {pages : List Nat} {mapSuccess : Bool}
      {todo : List (ModelId × Nat × List Nat)} {st : ModelState}
      (hid : s.calls.lookup id = some (.preallocMapped m dpRank pages mapSuccess todo))
      (hst : s.modelStates.lookup m = some st) :
      Stepped cfg s (.resume id) (preallocMapped cfg s id m dpRank pages mapSuccess todo st)
  | weightsFreed {id : Nat} {m : ModelId} {n : Nat} {st : ModelState}
      (hid : s.calls.lookup id = some (.weightsFreed m n))
      (hst : s.modelStates.lookup m = some st) :
      Stepped cfg s (.resume id) (weightsFreed cfg s id m n st)
  | sleepWaiting {id : Nat} {m : ModelId} {skipWeightRelease : Bool} {st : ModelState}
      (hid : s.calls.lookup id = some (.sleepWaiting m skipWeightRelease))
      (hst : s.modelStates.lookup m = some st) (hpending : ¬ 0 < st.pendingMapOps) :
      Stepped cfg s (.resume id) (fallAsleep cfg s id m skipWeightRelease st)
  | sleepFreedWeights {id : Nat} {m : ModelId} {n : Nat} {groups : List (Nat × List Nat)}
      {st : ModelState} (hid : s.calls.lookup id = some (.sleepFreedWeights m n groups))
      (hst : s.modelStates.lookup m = some st) :
      Stepped cfg s (.resume id) (sleepFreedWeights cfg s id m n groups st)
  | sleepUnmapped {id : Nat} {m : ModelId} {done : List ((Nat × List Nat) × Bool)}
      {st : ModelState} (hid : s.calls.lookup id = some (.sleepUnmapping m done []))
      (hst : s.modelStates.lookup m = some st) :
      Stepped cfg s (.resume id) (sleepUnmapped cfg s id m done st)
  | wakeMapped {id : Nat} {m : ModelId} {st : ModelState}
      (hid : s.calls.lookup id = some (.wakeMapped m)) (hst : s.modelStates.lookup m = some st) :
      Stepped cfg s (.resume id) (wakeMapped s id m st)

theorem Stepped.of_resume {cfg : Config} {s s' : System ModelId} {id : Nat} {call : Call ModelId}
    (hid : s.calls.lookup id = some call) (hok : s.resume cfg id call = .ok s') :
    Stepped cfg s (.resume id) s' := by
  unfold System.resume at hok
  split at hok
  case h_11 => cases hok
  all_goals
    obtain ⟨st, hst, heq⟩ := bind_eq_ok.mp hok
    have hst := getModelState_eq_ok hst
    cases heq
  · exact .allocMapped hid hst
  · exact .allocTracking hid hst
  · exact .unmapped hid hst
  · exact .preallocNext hid hst
  · exact .preallocMapped hid hst
  · exact .weightsFreed hid hst
  · unfold XTensor.sleepWaiting
    split
    · exact .idle _
    · next hpending => exact .sleepWaiting hid hst hpending
  · exact .sleepFreedWeights hid hst
  · exact .sleepUnmapped hid hst
  · exact .wakeMapped hid hst

theorem step_cases {cfg : Config} {s s' : System ModelId} {label : Label ModelId}
    (hstep : s.step cfg label = .ok s') : Stepped cfg s label s' := by
  cases label with
  | registerModel m numLayers =>
    unfold System.step at hstep
    dsimp only at hstep
    split at hstep
    · cases hstep
    split at hstep
    · cases hstep
      exact .idle _
    · next hm =>
      cases hstep
      exact .registerModel numLayers (by simpa using hm)
  | setModelParallelStrategy m dpSize tpSize =>
    unfold System.step at hstep
    dsimp only at hstep
    split at hstep
    · cases hstep
      exact .idle _
    · next hst =>
      cases hstep
      exact .setModelParallelStrategy dpSize tpSize hst
  | setWeightPagesCount m n =>
    obtain ⟨st, hst, heq⟩ := bind_eq_ok.mp hstep
    cases heq
    exact .setWeightPagesCount n (getModelState_eq_ok hst)
  | allocKvCachePage id m dpRank =>
    obtain ⟨_, hid, hstep⟩ := bind_eq_ok.mp hstep
    obtain ⟨_, hdp, hstep⟩ := bind_eq_ok.mp hstep
    obtain ⟨st, hst, hok⟩ := bind_eq_ok.mp hstep
    exact .allocKvCachePage (fresh_eq_ok hid) (checkRank_eq_ok hdp) (getModelState_eq_ok hst) hok
  | freeKvCachePages id m dpRank pages =>
    obtain ⟨_, hid, hstep⟩ := bind_eq_ok.mp hstep
    obtain ⟨_, hdp, hstep⟩ := bind_eq_ok.mp hstep
    obtain ⟨st, hst, heq⟩ := bind_eq_ok.mp hstep
    cases heq
    exact .freeKvCachePages pages (fresh_eq_ok hid) (checkRank_eq_ok hdp) (getModelState_eq_ok hst)
  | trimKvCache id m dpRank =>
    obtain ⟨_, hid, hstep⟩ := bind_eq_ok.mp hstep
    obtain ⟨_, hdp, hstep⟩ := bind_eq_ok.mp hstep
    obtain ⟨st, hst, heq⟩ := bind_eq_ok.mp hstep
    cases heq
    exact .trimKvCache (fresh_eq_ok hid) (checkRank_eq_ok hdp) (getModelState_eq_ok hst)
  | allocWeightPages id m n =>
    obtain ⟨_, hid, hstep⟩ := bind_eq_ok.mp hstep
    obtain ⟨st, hst, heq⟩ := bind_eq_ok.mp hstep
    cases heq
    exact .allocWeightPages n (fresh_eq_ok hid) (getModelState_eq_ok hst)
  | freeWeightPages id m n =>
    obtain ⟨_, hid, heq⟩ := bind_eq_ok.mp hstep
    cases heq
    exact .freeWeightPages m n (fresh_eq_ok hid)
  | sleepModel id m skipWeightRelease =>
    obtain ⟨_, hid, hstep⟩ := bind_eq_ok.mp hstep
    have hid := fresh_eq_ok hid
    split at hstep
    · cases hstep
      exact .idle _
    · next hst =>
      cases hstep
      unfold XTensor.sleepModel
      split
      · exact .idle _
      · next hawake =>
        split
        · exact .beginSleep m skipWeightRelease hid
        · next hpending => exact .sleepModel skipWeightRelease hid hst hawake hpending
  | wakeupModel id m =>
    obtain ⟨_, hid, hstep⟩ := bind_eq_ok.mp hstep
    split at hstep
    · cases hstep
      exact .idle _
    · next hst =>
      cases hstep
      exact .wakeupModel (fresh_eq_ok hid) hst
  | preallocCollect id order =>
    obtain ⟨_, hid, hstep⟩ := bind_eq_ok.mp hstep
    split at hstep
    · cases hstep
      exact .preallocCollect order (fresh_eq_ok hid)
    · cases hstep
  | broadcast id success =>
    unfold System.step at hstep
    dsimp only at hstep
    split at hstep
    · cases hstep
    · next next hnext =>
      cases hstep
      obtain ⟨call, hid, hreturned⟩ := Option.bind_eq_some_iff.mp hnext
      exact .broadcast hid hreturned
  | resume id =>
    unfold System.step at hstep
    dsimp only at hstep
    split at hstep
    · cases hstep
    · next call hid => exact .of_resume hid hstep

/-- What the turns of the preallocation worker's loop keep is kept by its first section. -/
theorem preallocCollect_induction {cfg : Config} {s : System ModelId} {id : Nat}
    {P : System ModelId → Prop} (order : List ModelId)
    (hbegin : P (s.goOn id (some (.preallocNext []))))
    (hturn : ∀ s group, group.2 < cfg.dpSize → P s → P (reserveForGroup cfg id s group))
    (hend : ∀ s : System ModelId, s.calls.lookup id = some (.preallocNext []) → P s →
      P (s.goOn id none)) :
    P (preallocCollect cfg s id order) := by
  have hloop : ∀ (groups : List (ModelId × Nat)) (s : System ModelId),
      (∀ group ∈ groups, group.2 < cfg.dpSize) → P s →
      P (groups.foldl (reserveForGroup cfg id) s) := by
    intro groups
    induction groups with
    | nil => exact fun _ _ h => h
    | cons group groups ih =>
      intro s hranks h
      exact ih _ (fun g hg => hranks g (List.mem_cons_of_mem _ hg))
        (hturn s group (hranks group List.mem_cons_self) h)
  have hranks : ∀ group ∈ order.flatMap fun m =>
      (List.range cfg.dpSize).map fun dpRank => (m, dpRank), group.2 < cfg.dpSize := by
    intro group hgroup
    obtain ⟨m, -, hgroup⟩ := List.mem_flatMap.mp hgroup
    obtain ⟨dpRank, hdp, rfl⟩ := List.mem_map.mp hgroup
    exact List.mem_range.mp hdp
  unfold preallocCollect
  dsimp only
  split
  · next hdone => exact hend _ hdone (hloop _ _ hranks hbegin)
  · exact hloop _ _ hranks hbegin

end Xllm.XTensor
