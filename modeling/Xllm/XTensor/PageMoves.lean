import Xllm.XTensor.PageSteps

/-!
# What every step does

Whatever state its model is in, a section leaves no more pages booked on a worker than there are
(`WorkerPages.Within`), and a call that has pages of a model that falls asleep works for a registered
one (`SleepersRegistered`).
-/

namespace Xllm.XTensor

open Xllm.Lib

variable {ModelId : Type} [DecidableEq ModelId]

/-! ## Never more than there is -/

def WorkerPages.Within (cfg : Config) (p : WorkerPages) : Prop :=
  ∀ w, p.used w ≤ cfg.numTotalPhyPages

variable {cfg : Config} {p : WorkerPages}

theorem WorkerPages.Within.release (h : p.Within cfg)
    (range : Nat × Nat) (n : Nat) : (p.release range n).Within cfg := by
  intro w
  have := h w
  simp only [WorkerPages.release]
  split
  · split <;> omega
  · exact this

theorem minFreePagesInRange_le (cfg : Config) (p : WorkerPages) (range : Nat × Nat) :
    p.minFreePagesInRange cfg range ≤ cfg.numTotalPhyPages ∧
      ∀ w, range.1 ≤ w → w < range.2 →
        p.minFreePagesInRange cfg range ≤ cfg.numTotalPhyPages - p.used w := by
  have hfold : ∀ (workers : List Nat) (start : Nat),
      workers.foldl (fun minFree w => min minFree (cfg.numTotalPhyPages - p.used w)) start ≤ start ∧
        ∀ w ∈ workers, workers.foldl (fun minFree w => min minFree (cfg.numTotalPhyPages - p.used w))
          start ≤ cfg.numTotalPhyPages - p.used w := by
    intro workers
    induction workers with
    | nil => exact fun start => ⟨le_refl _, fun w hw => nomatch hw⟩
    | cons w workers ih =>
      intro start
      obtain ⟨hstart, hmem⟩ := ih (min start (cfg.numTotalPhyPages - p.used w))
      refine ⟨le_trans hstart (Nat.min_le_left _ _), fun w' hw' => ?_⟩
      rcases List.mem_cons.mp hw' with rfl | hw'
      · exact le_trans hstart (Nat.min_le_right _ _)
      · exact hmem w' hw'
  obtain ⟨hstart, hmem⟩ := hfold (List.range' range.1 (range.2 - range.1)) cfg.numTotalPhyPages
  refine ⟨hstart, fun w hlo hhi => hmem w ?_⟩
  rw [List.mem_range'_1]
  omega

theorem WorkerPages.Within.consume (h : p.Within cfg)
    {range : Nat × Nat} {n : Nat} (hn : n ≤ p.minFreePagesInRange cfg range) :
    (p.consume range n).Within cfg := by
  intro w
  have hw := h w
  simp only [WorkerPages.consume]
  split
  · next hrange =>
    have := (minFreePagesInRange_le cfg p range).2 w hrange.1 hrange.2
    omega
  · exact hw

theorem WorkerPages.Within.consumeForDp {p' : WorkerPages} (h : p.Within cfg)
    {st : ModelState} {dpRank n : Nat} (hp' : consumePhyPagesForDp cfg p st dpRank n = some p') :
    p'.Within cfg := by
  unfold consumePhyPagesForDp at hp'
  dsimp only at hp'
  split at hp'
  · cases hp'
  · next hn =>
    cases hp'
    exact h.consume (by omega)

theorem WorkerPages.Within.releaseGroups {st : ModelState}
    {done : List ((Nat × List Nat) × Bool)} (h : p.Within cfg) :
    (releaseGroups cfg st p done).Within cfg := by
  unfold XTensor.releaseGroups
  induction done generalizing p with
  | nil => exact h
  | cons entry done ih =>
    rw [List.foldl_cons]
    apply ih
    split
    · exact h.release _ _
    · exact h

variable {s : System ModelId}

theorem Within.wakeupModel (h : s.workerPages.Within cfg)
    (id : Nat) (m : ModelId) (st : ModelState) :
    (wakeupModel cfg s id m st).workerPages.Within cfg := by
  unfold XTensor.wakeupModel
  dsimp only
  split
  · exact h
  next hgo =>
  have henough : ∀ w < cfg.maxWorldSize,
      pagesToConsume cfg st w ≤ cfg.numTotalPhyPages - s.workerPages.used w := by
    have hall := Decidable.of_not_not fun hn => hgo (Or.inr hn)
    intro w hw
    exact of_decide_eq_true (List.all_eq_true.mp hall w (List.mem_range.mpr hw))
  intro w
  have hw := h w
  show (if w < cfg.maxWorldSize then _ else _) ≤ _
  split
  · next hlt =>
    have := henough w hlt
    omega
  · exact hw

/-! ## Models that are put to sleep -/

namespace Call

/-- The model a `sleep_model` call has pages of. -/
def sleeper : Call ModelId → Option ModelId
  | sleepFreeingWeights m _ _ => some m
  | sleepFreedWeights m _ _ => some m
  | sleepUnmapping m _ _ => some m
  | _ => none

end Call

/-- They are registered. -/
def SleepersRegistered (s : System ModelId) : Prop :=
  ∀ id call, s.calls.lookup id = some call →
    ∀ m, call.sleeper = some m → (s.modelStates.lookup m).isSome = true

variable {s' : System ModelId}

omit [DecidableEq ModelId] in
theorem forall_calls_put {id : Nat}
    {next : Option (Call ModelId)} {P : Call ModelId → Prop} (hcalls : s'.calls = put s.calls id next)
    (hold : ∀ id' call, s.calls.lookup id' = some call → P call)
    (hnext : ∀ call, next = some call → P call) (id' : Nat) (call : Call ModelId)
    (hid' : s'.calls.lookup id' = some call) : P call := by
  rw [hcalls] at hid'
  by_cases heq : id' = id
  · subst heq
    rw [lookup_put_self] at hid'
    exact hnext call hid'
  · rw [lookup_put_ne _ _ heq] at hid'
    exact hold id' call hid'

omit [DecidableEq ModelId] in
theorem preallocCall_sleeper (todo : List (ModelId × Nat × List Nat)) :
    (preallocCall todo).bind Call.sleeper = none := by
  unfold preallocCall
  split <;> rfl

omit [DecidableEq ModelId] in
theorem unmapCall_sleeper (m : ModelId) (dpRank : Nat) (pages : List Nat) :
    (unmapCall m dpRank pages).bind Call.sleeper = none := by
  unfold unmapCall
  split <;> rfl

omit [DecidableEq ModelId] in
theorem wakeNext_sleeper (m : ModelId) (groups : List (Nat × List Nat)) (weightPages : Nat) :
    (wakeNext m groups weightPages).sleeper = none := by
  unfold wakeNext
  split <;> rfl

omit [DecidableEq ModelId] in
theorem returned_sleeper {call : Call ModelId} {success : Bool} {next : Option (Call ModelId)}
    (h : call.returned success = some next) {m : ModelId} (hm : next.bind Call.sleeper = some m) :
    call.sleeper = some m := by
  unfold Call.returned at h
  split at h <;> cases h <;> try exact hm
  · cases success <;> exact nomatch hm
  · cases success
    · cases hm
    · exact hm
  · cases success
    · cases hm
    · exact absurd hm (by simp [wakeNext_sleeper])
  · cases success <;> exact nomatch hm

/-! ## Every step -/

structure Moved (cfg : Config) (s s' : System ModelId) : Prop where
  within : s.workerPages.Within cfg → s'.workerPages.Within cfg
  sleepers : SleepersRegistered s → SleepersRegistered s'

theorem Moved.refl (cfg : Config) (s : System ModelId) : Moved cfg s s := ⟨id, id⟩

theorem Moved.trans {s₁ s₂ s₃ : System ModelId} (h : Moved cfg s₁ s₂)
    (h' : Moved cfg s₂ s₃) : Moved cfg s₁ s₃ :=
  ⟨fun hs => h'.within (h.within hs), fun hs => h'.sleepers (h.sleepers hs)⟩

theorem Moved.ofSection (id : Nat) (next : Option (Call ModelId)) {m : ModelId} {st' : ModelState}
    (hmodels : s'.modelStates = s.modelStates.insert m st')
    (hcalls : s'.calls = put s.calls id next)
    (hnext : ∀ m', next.bind Call.sleeper = some m' → m' = m)
    (hwithin : s.workerPages.Within cfg → s'.workerPages.Within cfg) : Moved cfg s s' := by
  refine ⟨hwithin, fun h => ?_⟩
  have hgrow : ∀ m', (s.modelStates.lookup m').isSome = true →
      (s'.modelStates.lookup m').isSome = true := by
    intro m' hm'
    rw [hmodels, lookup_insert_eq]
    split
    · rfl
    · exact hm'
  refine @forall_calls_put ModelId s s' id next (fun call => ∀ m', call.sleeper = some m' →
    (s'.modelStates.lookup m').isSome = true) hcalls ?_ ?_
  · intro id' call hid' m' hm'
    exact hgrow m' (h id' call hid' m' hm')
  · intro call hcall m' hm'
    have heq : m' = m := hnext m' (by rw [hcall]; exact hm')
    rw [hmodels, lookup_insert_eq, if_pos heq]
    rfl

theorem Moved.setModel (cfg : Config) (s : System ModelId) (m : ModelId) (st' : ModelState) :
    Moved cfg s { s with modelStates := s.modelStates.insert m st' } := by
  refine ⟨id, fun h id call hid m' hm' => ?_⟩
  rw [lookup_insert_eq]
  split
  · rfl
  · exact h id call hid m' hm'

theorem Moved.goOn (cfg : Config) (s : System ModelId) (id : Nat) (next : Option (Call ModelId))
    (hnext : ∀ m, next.bind Call.sleeper = some m →
      (s.calls.lookup id).bind Call.sleeper = some m) :
    Moved cfg s (s.goOn id next) := by
  refine ⟨fun h => h, fun h => ?_⟩
  refine @forall_calls_put ModelId s (s.goOn id next) id next (fun call => ∀ m,
    call.sleeper = some m → (s.modelStates.lookup m).isSome = true) rfl h ?_
  intro call hcall m hm
  obtain ⟨old, hid, hold⟩ := Option.bind_eq_some_iff.mp (hnext m (by rw [hcall]; exact hm))
  exact h id old hid m hold

theorem Moved.fallAsleep (cfg : Config) (s : System ModelId) (id : Nat) (m : ModelId)
    (skipWeightRelease : Bool) (st : ModelState) :
    Moved cfg s (fallAsleep cfg s id m skipWeightRelease st) := by
  unfold XTensor.fallAsleep
  dsimp only
  split
  · exact .ofSection id (some (.sleepFreeingWeights m _ _)) rfl rfl
      (fun m' hm' => (Option.some.inj hm').symm) fun h => h
  · exact .ofSection id (some (.sleepUnmapping m [] _)) rfl rfl
      (fun m' hm' => (Option.some.inj hm').symm) fun h => h

theorem Moved.reserveForGroup (cfg : Config) (s : System ModelId) (id : Nat)
    (group : ModelId × Nat) : Moved cfg s (reserveForGroup cfg id s group) := by
  unfold XTensor.reserveForGroup
  split
  dsimp only
  split
  · split
    · exact .refl cfg s
    · split
      · exact .refl cfg s
      · next hconsume =>
        exact .ofSection id (some (.preallocNext _)) rfl rfl (nofun) fun h => h.consumeForDp hconsume
  · exact .refl cfg s

/-- Each section is a move of one call and one model. -/
theorem step_moved {label : Label ModelId}
    (hstep : s.step cfg label = .ok s') : Moved cfg s s' := by
  have hprealloc : ∀ (todo : List (ModelId × Nat × List Nat)) (m m' : ModelId),
      (preallocCall todo).bind Call.sleeper = some m' → m' = m := by
    intro todo m m' hm'
    rw [preallocCall_sleeper] at hm'
    cases hm'
  have hunmap : ∀ (m : ModelId) (dpRank : Nat) (pages : List Nat) (m' : ModelId),
      (unmapCall m dpRank pages).bind Call.sleeper = some m' → m' = m := by
    intro m dpRank pages m' hm'
    rw [unmapCall_sleeper] at hm'
    cases hm'
  cases step_cases hstep with
  | idle => exact .refl cfg s
  | registerModel numLayers hm => exact .setModel ..
  | setModelParallelStrategy dpSize tpSize hst => exact .setModel ..
  | setWeightPagesCount n hst => exact .setModel ..
  | @allocKvCachePage id m dpRank st _ hid hdp hst hok =>
    unfold allocKvCachePage at hok
    dsimp only at hok
    split at hok
    · cases hok
    split at hok
    · cases hok
      exact .ofSection id none rfl rfl nofun fun h => h
    · cases hok
      exact .refl cfg s
    · split at hok
      · cases hok
        exact .refl cfg s
      · next hconsume =>
        cases hok
        exact .ofSection id (some (.allocMapping m dpRank _)) rfl rfl (nofun)
          fun h => h.consumeForDp hconsume
  | @freeKvCachePages id m dpRank st pages hid hdp hst =>
    exact .ofSection id (unmapCall m dpRank _) rfl rfl (hunmap m dpRank _) fun h => h
  | @trimKvCache id m dpRank st hid hdp hst =>
    exact .ofSection id (unmapCall m dpRank _) rfl rfl (hunmap m dpRank _) fun h => h
  | @allocWeightPages id m st n hid hst =>
    unfold allocWeightPages
    dsimp only
    split
    · exact .refl cfg s
    · next hn =>
      exact .ofSection id (some (.weightsAllocating m n)) rfl rfl (nofun) fun h => h.consume (by omega)
  | @freeWeightPages id m n hid => exact .goOn cfg s id _ nofun
  | @beginSleep id m skipWeightRelease hid => exact .goOn cfg s id _ nofun
  | sleepModel skipWeightRelease hid hst hawake hpending => exact .fallAsleep ..
  | @wakeupModel id m st hid hst =>
    have hwithin := fun h : s.workerPages.Within cfg => Within.wakeupModel h id m st
    unfold wakeupModel at hwithin ⊢
    dsimp only at hwithin ⊢
    split
    · exact .refl cfg s
    · next hgo =>
      rw [if_neg hgo] at hwithin
      refine .ofSection id (some (wakeNext m _ _)) rfl rfl (fun m' hm' => ?_) hwithin
      rw [Option.bind_some, wakeNext_sleeper] at hm'
      cases hm'
  | @preallocCollect id order hid =>
    refine @preallocCollect_induction _ _ cfg s id (Moved cfg s) order (.goOn cfg s id _ nofun) ?_ ?_
    · exact fun s' group _ h => h.trans (.reserveForGroup cfg s' id group)
    · exact fun s' _ h => h.trans (.goOn cfg s' id none nofun)
  | @broadcast id success call next hid hnext =>
    refine .goOn cfg s id next fun m hm => ?_
    rw [hid]
    exact returned_sleeper hnext hm
  | @allocMapped id m dpRank page mapSuccess st hid hst =>
    unfold allocMapped
    split
    · exact .ofSection id (some (.allocTracking m dpRank page)) rfl rfl (nofun) fun h => h
    · exact .ofSection id none rfl rfl nofun fun h => h.release _ _
  | @allocTracking id m dpRank page st hid hst =>
    exact .ofSection id none rfl rfl nofun fun h => h
  | @unmapped id m dpRank pages unmapSuccess st hid hst =>
    unfold unmapped
    split
    · exact .ofSection id none rfl rfl nofun fun h => h.release _ _
    · exact .ofSection id none rfl rfl nofun fun h => h
  | @preallocNext id m dpRank pages todo st hid hst =>
    unfold preallocNext
    split
    · exact .ofSection id _ rfl rfl (hprealloc todo m) fun h => h.release _ _
    · exact .ofSection id (some (.preallocMapping m dpRank pages todo)) rfl rfl (nofun) fun h => h
  | @preallocMapped id m dpRank pages mapSuccess todo st hid hst =>
    unfold preallocMapped
    dsimp only
    split
    · exact .ofSection id _ rfl rfl (hprealloc todo m) fun h => h.release _ _
    · split
      · exact .ofSection id _ rfl rfl (hprealloc todo m) fun h => h
      · exact .ofSection id _ rfl rfl (hprealloc todo m) fun h => h.release _ _
  | @weightsFreed id m n st hid hst =>
    exact .ofSection id none rfl rfl nofun fun h => h.release _ _
  | sleepWaiting hid hst hpending => exact .fallAsleep ..
  | @sleepFreedWeights id m n groups st hid hst =>
    exact .ofSection id (some (.sleepUnmapping m [] groups)) rfl rfl
      (fun m' hm' => (Option.some.inj hm').symm) fun h => h.release _ _
  | @sleepUnmapped id m done st hid hst =>
    exact .ofSection id none rfl rfl nofun fun h => h.releaseGroups
  | @wakeMapped id m st hid hst => exact .ofSection id none rfl rfl nofun fun h => h

end Xllm.XTensor
