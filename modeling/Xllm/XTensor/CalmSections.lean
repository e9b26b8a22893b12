import Xllm.XTensor.SectionMoves

/-!
# The sections, one by one

Each section that meets its model in the state `Calm` asks for keeps `Accounted`. Where a section asks for
no state the source has checked it, or the invariant gives it: a call that owes pages is one that the
count covers (`Accounted.owed_le`), and a model for which an operation is pending is awake.
-/

namespace Xllm.XTensor

open Xllm.Lib List Function

variable {ModelId : Type} [DecidableEq ModelId] {s : System ModelId} {m : ModelId}
  {call : Call ModelId} {p : WorkerPages} {n : Nat} {cfg : Config} {st : ModelState} {dpRank : Nat}
  {id : Nat} {next : Option (Call ModelId)}

section

variable {cfg : Config} {s : System ModelId} (h : Accounted cfg s) {m : ModelId} {id : Nat}
  {st : ModelState} (hst : s.modelStates.lookup m = some st)

include h hst

theorem Accounted.held_zero (hb : s.backed m = false) : st.weightPagesHeld = 0 := by
  have := h.unbacked m hb
  rwa [stateOf_eq hst] at this

variable {s' : System ModelId} {dpRank : Nat}

/-- A reserved page goes to the caller, or a free one is counted and owed by the call that maps it. -/
theorem Accounted.allocKvCachePage (hp : Partitioned s)
    (hid : s.calls.lookup id = none) (hdp : dpRank < cfg.dpSize)
    (hok : allocKvCachePage cfg s id m dpRank st = .ok s') : Accounted cfg s' := by
  unfold XTensor.allocKvCachePage at hok
  dsimp only at hok
  split at hok
  · cases hok
  cases hreserved : (st.dpGroupPages dpRank).reservedVirtPageList with
  | cons page rest =>
    rw [hreserved] at hok
    cases hok
    have hnot : page ∉ (st.dpGroupPages dpRank).allocatedVirtPageList :=
      hp.reserved_notMem hst (by rw [hreserved]; exact mem_cons_self)
    refine h.moveOwed st.pendingMapOps hst hid (.ended rfl) rfl rfl h.underflow ?_ fun w => rfl
    simp only [DpGroupPages.mapped, hreserved, length_append, length_cons, insert_of_not_mem hnot]
    omega
  | nil =>
    cases hfree : (st.dpGroupPages dpRank).freeVirtPageList with
    | nil =>
      rw [hreserved, hfree] at hok
      cases hok
      exact h
    | cons page rest =>
      rw [hreserved, hfree] at hok
      dsimp only at hok
      split at hok
      · cases hok
        exact h
      · next p hconsume =>
        cases hok
        rw [← Nat.one_mul st.phyPagesPerVirtPage] at hconsume
        obtain ⟨hunder, hused⟩ := consumePhyPagesForDp_spec hconsume
        refine h.moveOwed (st.pendingMapOps + 1) hst hid
          (.on (.allocMapping m dpRank page) rfl ⟨rfl, fun g hg => ?_⟩) rfl rfl
          (hunder.trans h.underflow) ?_ fun w => ?_
        · rw [mem_singleton.mp hg]
          exact hdp
        · simp only [DpGroupPages.mapped, hreserved]
        · rw [owed_none, owed_some, owedPages_single rfl rfl, unit_eq hst]
          exact hused w

theorem Accounted.allocMapped {page : Nat} {mapSuccess : Bool}
    (hid : s.calls.lookup id = some (.allocMapped m dpRank page mapSuccess)) :
    Accounted cfg (allocMapped cfg s id m dpRank page mapSuccess st) := by
  have hsuccess : mapSuccess = true := h.succeeded id _ hid
  rw [hsuccess]
  exact h.keepLists hst hid (.on (.allocTracking m dpRank page) rfl ⟨rfl, (h.ranks id _ hid :)⟩)
    ⟨rfl, rfl, rfl⟩ rfl rfl rfl h.underflow fun w => rfl

/-- The call stops owing the page as it enters the list of a model that is counted. -/
theorem Accounted.allocTracking (hp : Partitioned s) {page : Nat}
    (hid : s.calls.lookup id = some (.allocTracking m dpRank page)) (hbacked : s.backed m = true) :
    Accounted cfg (allocTracking s id m dpRank page st) := by
  have hnot := hp.tracking_notMem hst hid
  have hdp : dpRank < cfg.dpSize := h.ranks id _ hid _ (mem_singleton_self _)
  refine h.moveGroup st.pendingMapOps hst hid (.ended rfl) rfl rfl h.underflow (Or.inl hdp) fun w => ?_
  rw [owed_none, owed_some, owedPages_single rfl rfl, unit_eq hst, hbacked]
  simp only [if_true, DpGroupPages.mapped, length_append, insert_of_not_mem hnot,
    length_cons, length_nil, Nat.mul_add]
  show s.workerPages.used w + _ + _ = _
  omega

variable {pages : List Nat}

/-- Pages go from the lists of a group to a call that unmaps them. -/
theorem Accounted.startUnmap {g' : DpGroupPages} (hmodels : s'.modelStates =
      s.modelStates.insert m ({ st with pendingMapOps := st.pendingMapOps }.setGroup dpRank g'))
    (hcalls : s'.calls = put s.calls id (unmapCall m dpRank pages))
    (hworkers : s'.workerPages = s.workerPages) (hid : s.calls.lookup id = none)
    (hdp : dpRank < cfg.dpSize)
    (hmapped : g'.mapped.length + pages.length = (st.dpGroupPages dpRank).mapped.length)
    (hcalm : pages = [] ∨ s.backed m = true) : Accounted cfg s' := by
  have hnext : Goes cfg none (unmapCall m dpRank pages) ∧
      ∀ w, s.owed cfg w (unmapCall m dpRank pages) = dpUnit cfg st dpRank w * pages.length := by
    rcases heldGroups_unmapCall m dpRank pages with ⟨hcall, hnil⟩ | hcall
    · rw [hcall, hnil]
      exact ⟨.ended rfl, fun w => rfl⟩
    · rw [hcall]
      refine ⟨.on _ rfl ⟨rfl, fun g hg => ?_⟩, fun w => ?_⟩
      · rw [mem_singleton.mp hg]
        exact hdp
      · rw [owed_some, owedPages_single rfl rfl, unit_eq hst]
  refine h.moveGroup st.pendingMapOps hst hid hnext.1 hmodels hcalls
    (by rw [hworkers]; exact h.underflow) (Or.inl hdp) fun w => ?_
  rw [hnext.2, owed_none, hworkers, ← hmapped]
  rcases hcalm with rfl | hbacked
  · rfl
  · rw [hbacked]
    simp only [if_true, Nat.mul_add]
    omega

theorem Accounted.freeKvCachePages (hp : Partitioned s)
    (hid : s.calls.lookup id = none) (hdp : dpRank < cfg.dpSize) (hnodup : pages.Nodup)
    (hmine : ∀ page ∈ pages, page ∈ s.given m dpRank) (hcalm : pages = [] ∨ s.backed m = true) :
    Accounted cfg (freeKvCachePages s id m dpRank pages st) := by
  have hperm : ((st.dpGroupPages dpRank).allocatedVirtPageList.filter (fun page => page ∉ pages) ++
      pages).Perm (st.dpGroupPages dpRank).allocatedVirtPageList := by
    rw [perm_iff_count]
    intro page
    rw [count_append]
    exact hp.freed hst hnodup hmine page
  have hlength := hperm.length_eq
  rw [length_append] at hlength
  unfold XTensor.freeKvCachePages
  dsimp only
  generalize (if st.isSleeping = true then 0
    else min (numToReserve (st.dpGroupPages dpRank).reservedVirtPageList.length) pages.length) = kept
  have hsplit : (pages.take kept).length + (pages.drop kept).length = pages.length := by
    rw [← length_append, take_append_drop]
  refine @Accounted.startUnmap ModelId _ cfg s h m id st hst _ dpRank (pages.drop kept) _ rfl rfl rfl
    hid hdp ?_ ?_
  · simp only [DpGroupPages.mapped, length_append]
    omega
  · rcases hcalm with rfl | hbacked
    · exact Or.inl drop_nil
    · exact Or.inr hbacked

theorem Accounted.trimKvCache (hid : s.calls.lookup id = none) (hdp : dpRank < cfg.dpSize)
    (hcalm : (st.dpGroupPages dpRank).reservedVirtPageList = [] ∨ s.backed m = true) :
    Accounted cfg (trimKvCache s id m dpRank st) := by
  refine @Accounted.startUnmap ModelId _ cfg s h m id st hst _ dpRank
    (st.dpGroupPages dpRank).reservedVirtPageList _ rfl rfl rfl hid hdp ?_ hcalm
  simp only [DpGroupPages.mapped, length_append, length_nil]
  omega

theorem Accounted.unmapped {unmapSuccess : Bool}
    (hid : s.calls.lookup id = some (.unmapped m dpRank pages unmapSuccess)) :
    Accounted cfg (unmapped cfg s id m dpRank pages unmapSuccess st) := by
  have hsuccess : unmapSuccess = true := h.succeeded id _ hid
  have howed : ∀ w, (Call.unmapped m dpRank pages unmapSuccess).owedPages (s.unit cfg w)
      (s.weights cfg w) = dpUnit cfg st dpRank w * pages.length := by
    intro w
    rw [owedPages_single rfl rfl, unit_eq hst]
  obtain ⟨hunder, hused⟩ := releasePhyPagesForDp_spec fun w => by
    rw [← howed]
    exact h.owed_le hid w
  rw [hsuccess]
  refine h.moveOwed st.pendingMapOps hst hid (.ended rfl) rfl rfl (hunder.trans h.underflow) rfl
    fun w => ?_
  rw [owed_none, owed_some, howed]
  exact hused w

variable {n : Nat}

theorem Accounted.allocWeightPages (hid : s.calls.lookup id = none)
    (hcalm : n = 0 ∨ s.backed m = true) : Accounted cfg (allocWeightPages cfg s id m n st) := by
  unfold XTensor.allocWeightPages
  dsimp only
  split
  · exact h
  · refine h.moveAwake hst hid (.on (.weightsAllocating m n) rfl ⟨rfl, nofun⟩) rfl rfl
      ⟨rfl, rfl, rfl⟩ rfl h.underflow (fun hb => ?_) fun w => ?_
    · rcases hcalm with rfl | hbacked
      · rw [h.held_zero hst hb]
      · cases hbacked.symm.trans hb
    · have hused := consumeWeights_spec cfg s.workerPages st n w
      have hmodel : modelPages cfg (s.backed m) { st with
          weightPagesAllocated := n, weightPagesHeld := st.weightPagesHeld + n } w =
          modelPages cfg (s.backed m) st w + weightUnit cfg st w * n := by
        have hunits : SameUnits st { st with
          weightPagesAllocated := n, weightPagesHeld := st.weightPagesHeld + n } := ⟨rfl, rfl, rfl⟩
        simp only [modelPages, hunits.weightUnit, hunits.dpUnit, Nat.mul_add]
        omega
      show (s.workerPages.consume (st.weightWorkerRange cfg) n).used w + _ + 0 = _ + 0
      omega

theorem Accounted.weightsFreed (hid : s.calls.lookup id = some (.weightsFreed m n))
    (hcalm : n ≤ st.weightPagesHeld) : Accounted cfg (weightsFreed cfg s id m n st) := by
  have hmodel : ∀ w, modelPages cfg (s.backed m)
      { st with weightPagesHeld := st.weightPagesHeld - n } w + weightUnit cfg st w * n =
      modelPages cfg (s.backed m) st w := by
    intro w
    have hunits : SameUnits st { st with weightPagesHeld := st.weightPagesHeld - n } :=
      ⟨rfl, rfl, rfl⟩
    have hsplit : weightUnit cfg st w * (st.weightPagesHeld - n) + weightUnit cfg st w * n =
        weightUnit cfg st w * st.weightPagesHeld := by
      rw [← Nat.mul_add, Nat.sub_add_cancel hcalm]
    simp only [modelPages, hunits.weightUnit, hunits.dpUnit]
    omega
  obtain ⟨hunder, hused⟩ := @releaseWeights_spec s.workerPages n cfg st fun w => by
    have := h.model_le hst w
    have := hmodel w
    omega
  refine h.moveAwake hst hid (.ended rfl) rfl rfl ⟨rfl, rfl, rfl⟩ rfl (hunder.trans h.underflow)
    (fun hb => ?_) fun w => ?_
  · rw [h.held_zero hst hb, Nat.zero_sub]
  · have := hmodel w
    have := hused w
    show (s.workerPages.release (st.weightWorkerRange cfg) n).used w + _ + 0 = _ + 0
    omega

theorem Accounted.sleepFreedWeights {groups : List (Nat × List Nat)}
    (hid : s.calls.lookup id = some (.sleepFreedWeights m n groups)) :
    Accounted cfg (sleepFreedWeights cfg s id m n groups st) := by
  have howed : ∀ w, (Call.sleepFreedWeights m n groups).owedPages (s.unit cfg w) (s.weights cfg w) =
      (Call.sleepUnmapping m [] groups).owedPages (s.unit cfg w) (s.weights cfg w) +
        weightUnit cfg st w * n := by
    intro w
    rw [← weights_eq hst]
    rfl
  obtain ⟨hunder, hused⟩ := @releaseWeights_spec s.workerPages n cfg st fun w => by
    have := h.owed_le hid w
    have := howed w
    omega
  refine h.keepLists hst hid (.on (.sleepUnmapping m [] groups) rfl ⟨rfl, (h.ranks id _ hid :)⟩)
    ⟨rfl, rfl, rfl⟩ rfl rfl rfl (hunder.trans h.underflow) fun w => ?_
  have := hused w
  rw [owed_some, owed_some, howed]
  omega

theorem Accounted.sleepUnmapped {done : List ((Nat × List Nat) × Bool)}
    (hid : s.calls.lookup id = some (.sleepUnmapping m done [])) :
    Accounted cfg (sleepUnmapped cfg s id m done st) := by
  have howed : ∀ w, (Call.sleepUnmapping m done []).owedPages (s.unit cfg w) (s.weights cfg w) =
      (done.map fun g => dpUnit cfg st g.1.1 w * g.1.2.length).sum := by
    intro w
    have hmap : (Call.sleepUnmapping m done []).owed =
        done.map fun g => (m, g.1.1, g.1.2.length) := by
      simp [Call.owed]
    rw [Call.owedPages, hmap, map_map]
    simp only [comp_def, unit_eq hst]
    rfl
  obtain ⟨hunder, hused⟩ := releaseGroups_spec (h.succeeded id _ hid) fun w => by
    rw [← howed]
    exact h.owed_le hid w
  refine h.keepLists hst hid (.ended rfl) ⟨rfl, rfl, rfl⟩ rfl rfl rfl (hunder.trans h.underflow)
    fun w => ?_
  rw [owed_some, owed_none, howed]
  exact hused w

/-- All the model has, weights and mapped pages, becomes owed by the call. -/
theorem Accounted.fallAsleep {skipWeightRelease : Bool} {old : Option (Call ModelId)}
    (hid : s.calls.lookup id = old) (hwakes : old.bind Call.wakes = none)
    (hold : ∀ w, s.owed cfg w old = 0) (hcalm : MaySleep st skipWeightRelease) :
    Accounted cfg (fallAsleep cfg s id m skipWeightRelease st) := by
  obtain ⟨hawake, hheld⟩ := hcalm
  unfold XTensor.fallAsleep
  dsimp only
  generalize hnext : (if ¬skipWeightRelease = true ∧ 0 < st.weightPagesAllocated
    then Call.sleepFreeingWeights m st.weightPagesAllocated (st.mappedGroups cfg)
    else Call.sleepUnmapping m [] (st.mappedGroups cfg)) = next
  have hnextWakes : next.wakes = none := by
    rw [← hnext]
    split <;> rfl
  have hnextOwed : next.owed = (st.mappedGroups cfg).map fun g => (m, g.1, g.2.length) := by
    rw [← hnext]
    split <;> rfl
  have hnextWeights : ∀ w, next.owedWeights.elim 0 (fun g => s.weights cfg w g.1 * g.2) =
      weightUnit cfg st w * st.weightPagesHeld := by
    intro w
    rw [← hnext, hheld]
    cases skipWeightRelease with
    | true => rfl
    | false =>
      by_cases hpos : 0 < st.weightPagesAllocated
      · simp [hpos, Call.owedWeights, weights_eq hst]
      · have hzero : st.weightPagesAllocated = 0 := by omega
        simp [hzero, Call.owedWeights]
  have hbefore : s.backed m = true := by
    rw [System.backed, stateOf_eq hst, hawake]
    rfl
  have hwaking : (s.commit m { st with isSleeping := true, weightPagesHeld := 0 } s.workerPages id
      (some next)).waking m = false := by
    rw [@waking_same ModelId _ s _ id (some next) rfl m (by rw [hid, hwakes, ← hnextWakes]; rfl)]
    cases hw : s.waking m with
    | false => rfl
    | true =>
      have := h.wakingAsleep m hw
      rw [stateOf_eq hst, hawake] at this
      cases this
  refine h.move (some next) false hst hid rfl rfl ⟨rfl, rfl, rfl⟩ (fun m' _ => ?_) (fun hm => ?_)
    (fun _ => rfl) (by rw [hwaking]; rfl) h.underflow (fun _ => rfl) (fun call hcall => ?_) fun w => ?_
  · rw [hwakes]
    exact Iff.of_eq (congrArg (· = some m') hnextWakes)
  · rw [Option.bind_some, hnextWakes] at hm
    cases hm
  · cases hcall
    refine ⟨?_, fun g hg => ?_⟩
    · rw [← hnext]
      split <;> rfl
    · rw [hnextOwed] at hg
      obtain ⟨group, hgroup, rfl⟩ := mem_map.mp hg
      obtain ⟨dpRank, hdp, rfl⟩ := mem_map.mp (mem_filter.mp hgroup).1
      exact mem_range.mp hdp
  · -- the mapped lists of the groups are what the call remembers
    have hsum := mappedGroups_sum cfg st fun dpRank => dpUnit cfg st dpRank w
    have hgroups : (next.owed.map fun g => s.unit cfg w g.1 g.2.1 * g.2.2).sum =
        ∑ dpRank ∈ Finset.range cfg.dpSize,
          dpUnit cfg st dpRank w * (st.dpGroupPages dpRank).mapped.length := by
      rw [← hsum, hnextOwed, map_map]
      simp only [comp_def, unit_eq hst]
    rw [hbefore, hold, owed_some, Call.owedPages, hgroups, hnextWeights]
    simp only [modelPages, if_true]
    show s.workerPages.used w + _ + 0 = _
    simp
    omega

omit h hst in
theorem units_zero (cfg : Config) (st : ModelState) {w : Nat} (hw : cfg.maxWorldSize ≤ w) :
    weightUnit cfg st w = 0 ∧ ∀ dpRank, dpUnit cfg st dpRank w = 0 := by
  refine ⟨if_neg ?_, fun dpRank => if_neg ?_⟩
  · have : (st.weightWorkerRange cfg).2 ≤ cfg.maxWorldSize := Nat.min_le_right _ _
    omega
  · have : (st.dpGroupWorkerRange cfg dpRank).2 ≤ cfg.maxWorldSize := Nat.min_le_right _ _
    omega

omit [DecidableEq ModelId] h hst in
theorem wakeNext_facts (m : ModelId) (groups : List (Nat × List Nat)) (weightPages : Nat) :
    (wakeNext m groups weightPages).wakes = some m ∧ (wakeNext m groups weightPages).owed = [] ∧
      (wakeNext m groups weightPages).owedWeights = none ∧
      (wakeNext m groups weightPages).succeeded = true := by
  unfold wakeNext
  split <;> exact ⟨rfl, rfl, rfl, rfl⟩

/-- A wakeup counts the pages of a model that has nothing counted: `Calm` rules a second wakeup out. -/
theorem Accounted.wakeupModel (hid : s.calls.lookup id = none) (hcalm : s.waking m = false) :
    Accounted cfg (wakeupModel cfg s id m st) := by
  unfold XTensor.wakeupModel
  dsimp only
  split
  · exact h
  next hgo =>
  have hasleep : st.isSleeping = true := by
    cases hs : st.isSleeping with
    | true => rfl
    | false => exact absurd (Or.inl (by simp [hs])) hgo
  have hunbacked : s.backed m = false := by
    rw [System.backed, stateOf_eq hst, hasleep, hcalm]
    rfl
  have hheld := h.held_zero hst hunbacked
  obtain ⟨hwakes, howed, howedWeights, hsucceeded⟩ :=
    wakeNext_facts m (st.mappedGroups cfg) st.weightPagesAllocated
  refine h.move (some (wakeNext m (st.mappedGroups cfg) st.weightPagesAllocated)) true hst hid rfl rfl
    ⟨rfl, rfl, rfl⟩ (fun m' hne => ?_) (fun _ => Or.inr hcalm) (fun _ => hasleep) ?_ h.underflow
    (fun hfalse => by cases hfalse) (fun call hcall => ?_) fun w => ?_
  · rw [Option.bind_some, hwakes]
    simp [hne.symm]
  · rw [(@waking_put ModelId _ s _ id (some _) rfl m).mpr (Or.inl hwakes), Bool.or_true]
  · cases hcall
    refine ⟨hsucceeded, fun g hg => ?_⟩
    rw [howed] at hg
    cases hg
  · have hused : (if w < cfg.maxWorldSize then s.workerPages.used w + pagesToConsume cfg st w
        else s.workerPages.used w) = s.workerPages.used w + pagesToConsume cfg st w := by
      split
      · rfl
      · next hw =>
        obtain ⟨hweight, hdp⟩ := units_zero cfg st (Nat.le_of_not_lt hw)
        rw [pagesToConsume_eq, hweight]
        simp [hdp]
    have hunits : SameUnits st { st with
        weightPagesHeld := st.weightPagesHeld + st.weightPagesAllocated } := ⟨rfl, rfl, rfl⟩
    rw [hunbacked, owed_none, owed_some, Call.owedPages, howed, howedWeights]
    simp only [modelPages, hunits.weightUnit, hunits.dpUnit, if_true]
    rw [hheld]
    show (if w < cfg.maxWorldSize then _ else _) + _ + _ = _
    rw [hused, pagesToConsume_eq]
    simp

theorem Accounted.wakeMapped (hid : s.calls.lookup id = some (.wakeMapped m)) :
    Accounted cfg (wakeMapped s id m st) := by
  have hbefore : s.backed m = true := by
    rw [System.backed, (waking_split s id m).mpr (Or.inl (by rw [hid]; rfl)), Bool.or_true]
  refine h.move none true hst hid rfl rfl ⟨rfl, rfl, rfl⟩ (fun m' hne => ⟨fun hnone => ?_, fun hm => ?_⟩)
    (fun hnone => ?_) (fun hw => ?_) rfl h.underflow (fun hfalse => ?_) (fun call hnone => ?_) fun w => ?_
  · cases hnone
  · exact absurd (Option.some.inj hm).symm hne
  · cases hnone
  · -- no other wakeup of the model is in flight
    rcases (@waking_put ModelId _ s _ id none rfl m).mp hw with hnone | ⟨id', call, hne, hid', hwakes⟩
    · cases hnone
    · exact absurd (h.wakesOnce id' id call _ m hid' hid hwakes rfl) hne
  · cases hfalse
  · cases hnone
  · have hsame : modelPages cfg true { st with isSleeping := false } w = modelPages cfg true st w :=
      modelPages_congr ⟨rfl, rfl, rfl⟩ rfl rfl w
    rw [hbefore, hsame]
    rfl

omit [DecidableEq ModelId] h hst in
theorem preallocCall_facts (todo : List (ModelId × Nat × List Nat)) :
    (preallocCall todo).bind Call.wakes = none ∧
      (∀ unit weights, weigh (ofCall (Call.owedPages unit weights)) 0 (preallocCall todo) =
        (todo.map fun g => unit g.1 g.2.1 * g.2.2.length).sum) ∧
      ∀ call, preallocCall todo = some call →
        call.succeeded = true ∧ call.owed = todo.map fun g => (g.1, g.2.1, g.2.2.length) := by
  unfold preallocCall
  split
  · next hnil =>
    subst hnil
    exact ⟨rfl, fun _ _ => rfl, nofun⟩
  · refine ⟨rfl, fun unit weights => ?_, fun call hcall => ?_⟩
    · simp [Call.owedPages, Call.owed, Call.groups, Call.owedWeights, comp_def]
    · cases hcall
      exact ⟨rfl, rfl⟩

variable {todo : List (ModelId × Nat × List Nat)}

/-- A preallocation goes on with the rest of its groups and owes its first one no more. -/
theorem Accounted.goesPrealloc {old : Call ModelId} (hid : s.calls.lookup id = some old)
    (hgroups : old.owed = ((m, dpRank, pages) :: todo).map fun g => (g.1, g.2.1, g.2.2.length))
    (hweights : old.owedWeights = none) (hwakes : old.wakes = none) :
    Goes cfg (some old) (preallocCall todo) ∧
      ∀ w, s.owed cfg w (some old) =
        dpUnit cfg st dpRank w * pages.length + s.owed cfg w (preallocCall todo) := by
  obtain ⟨hnextWakes, hnextOwed, hnext⟩ := preallocCall_facts todo
  refine ⟨⟨hnextWakes.trans hwakes.symm, fun call hcall => ?_⟩, fun w => ?_⟩
  · obtain ⟨hsucceeded, howed⟩ := hnext call hcall
    refine ⟨hsucceeded, fun g hg => h.ranks id old hid g ?_⟩
    rw [howed] at hg
    rw [hgroups]
    exact mem_cons_of_mem _ hg
  · rw [System.owed, System.owed, hnextOwed]
    simp [Call.owedPages, hgroups, hweights, unit_eq hst, comp_def]

/-- The first group of a preallocation is given back: its pages are released and free again. -/
theorem Accounted.releaseHead {pending : Nat} {old : Call ModelId}
    (hid : s.calls.lookup id = some old)
    (hgroups : old.owed = ((m, dpRank, pages) :: todo).map fun g => (g.1, g.2.1, g.2.2.length))
    (hweights : old.owedWeights = none) (hwakes : old.wakes = none)
    (hmodels : s'.modelStates = s.modelStates.insert m ({ st with pendingMapOps := pending }.setGroup
      dpRank (returnPages (st.dpGroupPages dpRank) pages)))
    (hcalls : s'.calls = put s.calls id (preallocCall todo))
    (hworkers : s'.workerPages = releasePhyPagesForDp cfg s.workerPages st dpRank pages.length) :
    Accounted cfg s' := by
  obtain ⟨hgoes, howed⟩ := h.goesPrealloc hst hid hgroups hweights hwakes
  obtain ⟨hunder, hused⟩ := releasePhyPagesForDp_spec fun w => by
    have hle := h.owed_le hid w
    rw [← owed_some, howed] at hle
    exact le_trans (Nat.le_add_right _ _) hle
  refine h.moveOwed pending hst hid hgoes hmodels hcalls
    (by rw [hworkers, hunder]; exact h.underflow) rfl fun w => ?_
  have := hused w
  rw [hworkers, howed]
  omega

theorem Accounted.preallocNext
    (hid : s.calls.lookup id = some (.preallocNext ((m, dpRank, pages) :: todo))) :
    Accounted cfg (preallocNext cfg s id m dpRank pages todo st) := by
  unfold XTensor.preallocNext
  split
  · exact @Accounted.releaseHead ModelId _ cfg s h m id st hst _ dpRank pages todo st.pendingMapOps _
      hid rfl rfl rfl rfl rfl rfl
  · exact h.keepLists hst hid (.on (.preallocMapping m dpRank pages todo) rfl
      ⟨rfl, (h.ranks id _ hid :)⟩) ⟨rfl, rfl, rfl⟩ rfl rfl rfl h.underflow fun w => rfl

/-- A model with a mapping pending is awake, so the reserved pages are counted where they arrive. -/
theorem Accounted.preallocMapped (hp : Partitioned s) {mapSuccess : Bool}
    (hid : s.calls.lookup id = some (.preallocMapped m dpRank pages mapSuccess todo)) :
    Accounted cfg (preallocMapped cfg s id m dpRank pages mapSuccess todo st) := by
  have hsuccess : mapSuccess = true := h.succeeded id _ hid
  obtain ⟨-, hawake⟩ := hp.pending_pos hst hid rfl
  have hbacked : s.backed m = true := by
    rw [System.backed, stateOf_eq hst, hawake]
    rfl
  have hdp : dpRank < cfg.dpSize :=
    h.ranks id _ hid (m, dpRank, pages.length) mem_cons_self
  obtain ⟨hgoes, howed⟩ :=
    @Accounted.goesPrealloc ModelId _ cfg s h m id st hst dpRank pages todo _ hid rfl rfl rfl
  unfold XTensor.preallocMapped
  rw [if_neg (by simp [hsuccess]), if_pos (by simp [hawake])]
  refine h.moveGroup (st.pendingMapOps - 1) hst hid hgoes rfl rfl h.underflow (Or.inl hdp) fun w => ?_
  rw [howed, hbacked]
  simp only [if_true, DpGroupPages.mapped, length_append, Nat.mul_add]
  show s.workerPages.used w + _ + _ = _
  omega

end

/-- One round of the loop over the groups: the pages to reserve are counted and owed. -/
theorem Accounted.reserveForGroup (h : Accounted cfg s)
    (id : Nat) (group : ModelId × Nat) (hdp : group.2 < cfg.dpSize) :
    Accounted cfg (reserveForGroup cfg id s group) := by
  obtain ⟨m, dpRank⟩ := group
  unfold XTensor.reserveForGroup
  dsimp only
  split
  next st todo hst hid =>
    generalize min (min (minReservedPages - (st.dpGroupPages dpRank).reservedVirtPageList.length)
      (st.dpGroupPages dpRank).freeVirtPageList.length)
      (s.workerPages.minFreePagesInRange cfg (st.dpGroupWorkerRange cfg dpRank) /
        st.phyPagesPerVirtPage) = toReserve
    split
    · exact h
    · split
      · exact h
      · next p hconsume =>
        obtain ⟨hunder, hused⟩ := consumePhyPagesForDp_spec hconsume
        refine h.moveOwed st.pendingMapOps hst hid (.on (.preallocNext (todo ++
          [(m, dpRank, (st.dpGroupPages dpRank).freeVirtPageList.take toReserve)])) rfl
          ⟨rfl, fun g hg => ?_⟩) rfl rfl (hunder.trans h.underflow) rfl fun w => ?_
        · simp only [Call.owed, Call.groups, map_append, map_cons, map_nil,
            mem_append, mem_singleton] at hg
          rcases hg with hg | rfl
          · exact h.ranks id _ hid g hg
          · exact hdp
        · have := hused w
          rw [owed_some, owed_some]
          simp [Call.owedPages, Call.owed, Call.groups, Call.owedWeights, unit_eq hst, comp_def]
          show p.used w + _ = _
          simp only [length_take] at this
          omega
  next => exact h

theorem Accounted.begin (h : Accounted cfg s)
    (hid : s.calls.lookup id = none) (hwakes : call.wakes = none)
    (howed : call.owed = [] ∧ call.owedWeights = none) (hsucceeded : call.succeeded = true) :
    Accounted cfg (s.goOn id (some call)) := by
  refine h.goOn hid (.on call hwakes ⟨hsucceeded, fun g hg => ?_⟩) fun w => ?_
  · rw [howed.1] at hg
    cases hg
  · rw [owed_some, owed_none, Call.owedPages, howed.1, howed.2]
    rfl

theorem Accounted.preallocCollect (h : Accounted cfg s)
    (hid : s.calls.lookup id = none) (order : List ModelId) :
    Accounted cfg (preallocCollect cfg s id order) :=
  preallocCollect_induction order (h.begin hid rfl ⟨rfl, rfl⟩ rfl)
    (fun s group hdp h => h.reserveForGroup id group hdp)
    fun s hdone h => h.goOn hdone (.ended rfl) fun w => rfl

theorem Accounted.broadcast (h : Accounted cfg s) (hid : s.calls.lookup id = some call)
    (hnext : call.returned true = some next) : Accounted cfg (s.goOn id next) := by
  have hsucceeded := h.succeeded id call hid
  have hranks := h.ranks id call hid
  -- what the call owes is the same list
  have hsame : next.bind Call.wakes = call.wakes ∧
      (next.elim [] Call.owed = call.owed ∧ next.bind Call.owedWeights = call.owedWeights) ∧
      ∀ call', next = some call' → call'.succeeded = true := by
    unfold Call.returned at hnext
    split at hnext <;> cases hnext
    case h_7 m done g groups =>
      refine ⟨rfl, ⟨?_, rfl⟩, fun call' hcall' => ?_⟩
      · simp [Call.owed]
      · cases hcall'
        simpa [Call.succeeded] using hsucceeded
    case h_8 m g groups weightPages =>
      obtain ⟨hwakes, howed, hweights, hsucc⟩ := wakeNext_facts m groups weightPages
      refine ⟨hwakes, ⟨howed, hweights⟩, fun call' hcall' => ?_⟩
      cases hcall'
      exact hsucc
    all_goals
      refine ⟨rfl, ⟨rfl, rfl⟩, fun call' hcall' => ?_⟩
      cases hcall'
      try rfl
  obtain ⟨hwakes, ⟨howed, hweights⟩, hsucc⟩ := hsame
  refine h.goOn hid ⟨hwakes, fun call' hcall' => ⟨hsucc call' hcall', ?_⟩⟩ fun w => ?_
  · rw [hcall'] at howed
    intro g hg
    exact hranks g (by rw [← howed]; exact hg)
  · rw [owed_some, Call.owedPages, ← howed, ← hweights]
    cases next <;> rfl

end Xllm.XTensor
