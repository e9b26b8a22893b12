import Xllm.XTensor.CalmSections

/-!
# Page accounting over whole runs

The virtual pages of a group are partitioned, and `num_free_virt_pages` is right, in every state of
every run. `worker_pages_used_` is right as long as sections meet their model in the states `Calm`
describes. The run `freeWhileAsleep` shows what goes wrong otherwise: a page that is freed while its
model sleeps was released by `sleep_model` already, and is released again at the expense of a model that
is awake.
-/

namespace Xllm.XTensor

open Xllm.Lib List Function

section

variable {ModelId : Type} [DecidableEq ModelId] {s s' : System ModelId} {m : ModelId}
  {call : Call ModelId} {cfg : Config} {st st' : ModelState} {dpRank id : Nat}

/-! ## Every step -/

omit [DecidableEq ModelId] in
theorem Call.owed_eq_groups (h : call.sleeper = none) :
    call.owed = call.groups.map (fun g => (g.1, g.2.1, g.2.2.length)) ∧ call.owedWeights = none := by
  cases call with
  | sleepFreeingWeights m n groups => exact nomatch h
  | sleepFreedWeights m n groups => exact nomatch h
  | sleepUnmapping m done groups => exact nomatch h
  | _ => exact ⟨rfl, rfl⟩

omit [DecidableEq ModelId] in
theorem Call.owed_sleeper (h : call.sleeper = some m) :
    call.models = [m] := by
  cases call with
  | sleepFreeingWeights m' n groups => cases h; rfl
  | sleepFreedWeights m' n groups => cases h; rfl
  | sleepUnmapping m' done groups => cases h; rfl
  | _ => exact nomatch h

theorem groupSum_eq_zero {f : List Nat → Nat}
    {groups : List (ModelId × Nat × List Nat)} (h : groupSum f m dpRank groups = 0)
    {g : ModelId × Nat × List Nat} (hg : g ∈ groups) (hm : g.1 = m) (hd : g.2.1 = dpRank) :
    f g.2.2 = 0 := by
  induction groups with
  | nil => exact nomatch hg
  | cons g' groups ih =>
    rw [groupSum_cons] at h
    rcases mem_cons.mp hg with rfl | hg
    · rw [if_pos ⟨hm, hd⟩] at h
      omega
    · exact ih (by omega) hg

/-- A model that is not registered has no pages in any call. -/
theorem absent_owed (hp : Partitioned s) (hs : SleepersRegistered s)
    (hm : s.modelStates.lookup m = none) (hid : s.calls.lookup id = some call) :
    (∀ g ∈ call.owed, g.1 = m → g.2.2 = 0) ∧ ∀ g, call.owedWeights = some g → g.1 ≠ m := by
  cases hsleeper : call.sleeper with
  | some m' =>
    have hne : m' ≠ m := by
      intro heq
      have := hs id call hid m' hsleeper
      rw [heq, hm] at this
      cases this
    have hmodels := Call.owed_sleeper hsleeper
    refine ⟨fun g hg hgm => ?_, fun g hg hgm => ?_⟩
    · have := Call.owed_mem_models hg
      rw [hmodels, mem_singleton, hgm] at this
      exact absurd this.symm hne
    · have := Call.owedWeights_mem_models hg
      rw [hmodels, mem_singleton, hgm] at this
      exact absurd this.symm hne
  | none =>
    obtain ⟨howed, hweights⟩ := Call.owed_eq_groups hsleeper
    have habsent : s.stateOf m = .absent := by
      rw [System.stateOf, hm, Option.getD_none]
    refine ⟨fun g hg hgm => ?_, fun g hg => by cases hweights.symm.trans hg⟩
    rw [howed] at hg
    obtain ⟨group, hgroup, rfl⟩ := mem_map.mp hg
    have hnone : ∀ page, group.2.2.count page = 0 := by
      intro page
      have hpages := hp.pages m group.2.1 page
      have hle := weigh_le_tally (ofCall (Call.countPage m group.2.1 page)) s.calls id
      rw [habsent] at hpages
      simp only [ModelState.absent, Nat.not_lt_zero, if_false] at hpages
      rw [hid, weigh_some] at hle
      have hzero : groupSum (List.count page) m group.2.1 call.groups = 0 := by
        show Call.countPage m group.2.1 page call = 0
        have hle : Call.countPage m group.2.1 page call ≤ _ := hle
        omega
      exact groupSum_eq_zero hzero hgroup hgm rfl
    have hnil : group.2.2 = [] := by
      apply eq_nil_iff_forall_not_mem.mpr
      intro page hpage
      have := count_pos_iff.mpr hpage
      have := hnone page
      omega
    show group.2.2.length = 0
    rw [hnil, length_nil]

/-- The state of every call and model fits, and the counts are right. -/
structure Sound (cfg : Config) (s : System ModelId) : Prop where
  partitioned : Partitioned s
  sleepers : SleepersRegistered s
  accounted : Accounted cfg s

theorem Accounted.registerModel (h : Sound cfg s)
    (hm : s.modelStates.lookup m = none) (numLayers : Nat) :
    Accounted cfg { s with modelStates := s.modelStates.insert m (.registered cfg numLayers) } := by
  refine h.accounted.withModel (fun id call hid => ?_) (fun w => ?_) ?_ fun _ => rfl
  · obtain ⟨hgroups, hweights⟩ := absent_owed h.partitioned h.sleepers hm hid
    exact ⟨fun g hg hgm => Or.inl (hgroups g hg hgm), fun g hg hgm => absurd hgm (hweights g hg)⟩
  · rw [hm, weigh_none]
    simp [modelPages, ModelState.registered, DpGroupPages.mapped]
  · rw [System.stateOf, hm]
    rfl

/-- The units change, and so the model must have nothing counted. -/
theorem Accounted.setModelParallelStrategy (h : Accounted cfg s)
    (hst : s.modelStates.lookup m = some st) (hquiet : s.quiescent m = true)
    (hheld : st.weightPagesHeld = 0)
    (hlists : ∀ dpRank < cfg.dpSize, (st.dpGroupPages dpRank).mapped = [])
    (hgroups : st'.dpGroupPages = st.dpGroupPages) (hheld' : st'.weightPagesHeld = 0)
    (hsleeping : st'.isSleeping = st.isSleeping) :
    Accounted cfg { s with modelStates := s.modelStates.insert m st' } := by
  have hzero : ∀ (st : ModelState), st.weightPagesHeld = 0 →
      (∀ dpRank < cfg.dpSize, (st.dpGroupPages dpRank).mapped = []) → ∀ w,
      modelPages cfg (s.backed m) st w = 0 := by
    intro st hheld hlists w
    have hsum : ∑ dpRank ∈ Finset.range cfg.dpSize,
        dpUnit cfg st dpRank w * (st.dpGroupPages dpRank).mapped.length = 0 := by
      apply Finset.sum_eq_zero
      intro dpRank hdp
      rw [hlists dpRank (Finset.mem_range.mp hdp), length_nil, Nat.mul_zero]
    rw [modelPages, hheld, hsum, Nat.mul_zero]
    cases s.backed m <;> rfl
  have hnone := quiescent_iff.mp hquiet
  refine h.withModel (fun id call hid => ⟨fun g hg hgm => ?_, fun g hg hgm => ?_⟩) (fun w => ?_) ?_
    fun _ => hheld'
  · exact absurd (hgm ▸ Call.owed_mem_models hg) (hnone id call hid)
  · exact absurd (hgm ▸ Call.owedWeights_mem_models hg) (hnone id call hid)
  · rw [hst, weigh_some, hzero st hheld hlists w, hzero st' hheld' (by rw [hgroups]; exact hlists) w]
  · rw [hsleeping, stateOf_eq hst]

/-- By cases on what the step does, each case the lemma of its section. -/
theorem Accounted.step (h : Sound cfg s)
    {label : Label ModelId} (hmine : Disciplined s label) (hcalm : Calm cfg s label)
    (hsucceeds : label.succeeds = true) (hstep : s.step cfg label = .ok s') : Accounted cfg s' := by
  have hp := h.partitioned
  have ha := h.accounted
  unfold Calm at hcalm
  cases step_cases hstep with
  | idle => exact ha
  | registerModel numLayers hm => exact .registerModel h hm numLayers
  | setModelParallelStrategy dpSize tpSize hst =>
    obtain ⟨hquiet, hheld, hlists⟩ := hcalm
    rw [stateOf_eq hst] at hheld hlists
    exact ha.setModelParallelStrategy hst hquiet hheld hlists rfl hheld rfl
  | @setWeightPagesCount m st n hst =>
    have hunits : SameUnits (s.stateOf m) { st with weightPagesAllocated := n } := by
      rw [stateOf_eq hst]
      exact ⟨rfl, rfl, rfl⟩
    refine ha.withModel (fun id call hid => ⟨fun g _ _ => Or.inr hunits, fun g _ _ => hunits⟩)
      (fun w => ?_) ?_ fun hb => ?_
    · rw [hst, weigh_some]
      exact modelPages_congr ⟨rfl, rfl, rfl⟩ rfl rfl w
    · rw [stateOf_eq hst]
    · have hzero : st.weightPagesHeld = 0 := ha.held_zero hst hb
      exact hzero
  | allocKvCachePage hid hdp hst hok => exact ha.allocKvCachePage hst hp hid hdp hok
  | freeKvCachePages pages hid hdp hst =>
    exact ha.freeKvCachePages hst hp hid hdp hmine.1 hmine.2 hcalm
  | trimKvCache hid hdp hst =>
    dsimp only at hcalm
    rw [stateOf_eq hst] at hcalm
    exact ha.trimKvCache hst hid hdp hcalm
  | allocWeightPages n hid hst => exact ha.allocWeightPages hst hid hcalm
  | freeWeightPages m n hid => exact ha.begin hid rfl ⟨rfl, rfl⟩ rfl
  | beginSleep m skipWeightRelease hid => exact ha.begin hid rfl ⟨rfl, rfl⟩ rfl
  | sleepModel skipWeightRelease hid hst hawake hpending =>
    dsimp only at hcalm
    rw [stateOf_eq hst] at hcalm
    exact ha.fallAsleep hst hid rfl (fun w => rfl) ((hcalm.resolve_left hawake).resolve_left hpending)
  | wakeupModel hid hst => exact ha.wakeupModel hst hid hcalm
  | preallocCollect order hid => exact ha.preallocCollect hid order
  | broadcast hid hnext =>
    cases hsucceeds
    exact ha.broadcast hid hnext
  | allocMapped hid hst => exact ha.allocMapped hst hid
  | allocTracking hid hst =>
    dsimp only at hcalm
    rw [hid] at hcalm
    exact ha.allocTracking hst hp hid hcalm
  | unmapped hid hst => exact ha.unmapped hst hid
  | preallocNext hid hst => exact ha.preallocNext hst hid
  | preallocMapped hid hst => exact ha.preallocMapped hst hp hid
  | weightsFreed hid hst =>
    dsimp only at hcalm
    rw [hid] at hcalm
    dsimp only at hcalm
    rw [stateOf_eq hst] at hcalm
    exact ha.weightsFreed hst hid hcalm
  | sleepWaiting hid hst hpending =>
    dsimp only at hcalm
    rw [hid] at hcalm
    dsimp only at hcalm
    rw [stateOf_eq hst] at hcalm
    exact ha.fallAsleep hst hid rfl (fun w => rfl) (hcalm.resolve_left hpending)
  | sleepFreedWeights hid hst => exact ha.sleepFreedWeights hst hid
  | sleepUnmapped hid hst => exact ha.sleepUnmapped hst hid
  | wakeMapped hid hst => exact ha.wakeMapped hst hid

theorem Sound.init (cfg : Config) : Sound cfg (System.init : System ModelId) where
  partitioned := .init
  sleepers id call h := nomatch h
  accounted := .init cfg

theorem Sound.step (h : Sound cfg s) {label : Label ModelId}
    (hmine : Disciplined s label) (hcalm : Calm cfg s label) (hsucceeds : label.succeeds = true)
    (hstep : s.step cfg label = .ok s') : Sound cfg s' where
  partitioned := h.partitioned.step s label s' hmine hstep
  sleepers := (step_moved hstep).sleepers h.sleepers
  accounted := .step h hmine hcalm hsucceeds hstep

end

variable {ModelId : Type} [DecidableEq ModelId]

/-! ## Exact accounting -/

/-- The pages of a group are in its three lists, and the free ones are counted. -/
structure GroupExact (st : ModelState) (g : DpGroupPages) : Prop where
  partition : (g.freeVirtPageList ++ g.reservedVirtPageList ++ g.allocatedVirtPageList).Perm
    (List.range st.numTotalVirtPages)
  numFree : g.numFreeVirtPages = g.freeVirtPageList.length + g.reservedVirtPageList.length

/-- The weights of the awake models, and the pages of their groups, on one worker. -/
def System.awakePages (cfg : Config) (s : System ModelId) (w : Nat) : Nat :=
  tally (fun _ st => if st.isSleeping then 0 else modelPages cfg true st w) s.modelStates

/-- The model has weights or a group on the worker. -/
def ModelState.Covers (cfg : Config) (st : ModelState) (w : Nat) : Prop :=
  w < (st.weightWorkerRange cfg).2 ∨ ∃ dpRank < cfg.dpSize,
    (st.dpGroupWorkerRange cfg dpRank).1 ≤ w ∧ w < (st.dpGroupWorkerRange cfg dpRank).2

theorem Partitioned.groupExact {s : System ModelId} (h : Partitioned s) {m : ModelId}
    {st : ModelState} (hst : s.modelStates.lookup m = some st) (hquiet : s.quiescent m = true)
    (dpRank : Nat) : GroupExact st (st.dpGroupPages dpRank) := by
  have hgroups : ∀ (f : List Nat → Nat) id call, s.calls.lookup id = some call →
      ∀ groups : List (ModelId × Nat × List Nat), (∀ g ∈ groups, g ∈ call.groups) →
        groupSum f m dpRank groups = 0 := by
    intro f id call hid groups
    induction groups with
    | nil => exact fun _ => rfl
    | cons g groups ih =>
      intro hsub
      have hne : ¬ (g.1 = m ∧ g.2.1 = dpRank) := by
        rintro ⟨hm, -⟩
        have hmodel := Call.groups_mem_models (hsub g mem_cons_self)
        rw [hm] at hmodel
        exact quiescent_iff.mp hquiet id call hid hmodel
      rw [groupSum_cons, if_neg hne, ih fun g' hg' => hsub g' (mem_cons_of_mem _ hg')]
  have hpool : ∀ (call : Call ModelId), ∀ g ∈ call.poolGroups, g ∈ call.groups := by
    intro call g hg
    cases call <;> first | exact hg | exact nomatch hg
  have hpages := fun page => h.pages m dpRank page
  have hfree := h.numFree m dpRank
  rw [stateOf_eq hst] at hfree
  have hpoolZero : tally (ofCall (Call.poolSize m dpRank)) s.calls = 0 :=
    tally_eq_zero fun id call hid => hgroups List.length id call hid call.poolGroups (hpool call)
  have hcountZero : ∀ page, tally (ofCall (Call.countPage m dpRank page)) s.calls = 0 := fun page =>
    tally_eq_zero fun id call hid =>
      hgroups (List.count page) id call hid call.groups fun g hg => hg
  rw [hpoolZero] at hfree
  refine ⟨?_, hfree⟩
  rw [perm_iff_count]
  intro page
  have hpage := hpages page
  rw [stateOf_eq hst, hcountZero page, DpGroupPages.countPage, DpGroupPages.mapped,
    count_append] at hpage
  rw [count_append, count_append]
  have hrange : (List.range st.numTotalVirtPages).count page =
      if page < st.numTotalVirtPages then 1 else 0 := by
    split
    · next hlt => exact count_eq_one_of_mem nodup_range (mem_range.mpr hlt)
    · next hge => exact count_eq_zero_of_not_mem fun hmem => hge (mem_range.mp hmem)
  omega

theorem units_eq_zero {cfg : Config} {st : ModelState} {w : Nat} (h : ¬ st.Covers cfg w) :
    weightUnit cfg st w = 0 ∧ ∀ dpRank < cfg.dpSize, dpUnit cfg st dpRank w = 0 := by
  refine ⟨if_neg fun hw => h (Or.inl hw), fun dpRank hdp => if_neg fun hw => ?_⟩
  exact h (Or.inr ⟨dpRank, hdp, hw⟩)

/-- With no call in flight for the models of a worker, what is taken on it is the awake models'. -/
theorem Sound.used_eq_awakePages {cfg : Config} {s : System ModelId} (h : Sound cfg s)
    {w : Nat} (hquiet : ∀ m st, s.modelStates.lookup m = some st → st.Covers cfg w →
      s.quiescent m = true) : s.workerPages.used w = s.awakePages cfg w := by
  have hcalls : tally (ofCall (Call.owedPages (s.unit cfg w) (s.weights cfg w))) s.calls = 0 := by
    apply tally_eq_zero
    intro id call hid
    -- a registered model the call works for is not on this worker
    have hzero : ∀ m ∈ call.models, ∀ st, s.modelStates.lookup m = some st →
        s.weights cfg w m = 0 ∧ ∀ dpRank < cfg.dpSize, s.unit cfg w m dpRank = 0 := by
      intro m hm st hst
      have hnot : ¬ st.Covers cfg w := by
        intro hcovers
        exact quiescent_iff.mp (hquiet m st hst hcovers) id call hid hm
      obtain ⟨hweight, hunit⟩ := units_eq_zero hnot
      rw [weights_eq hst]
      refine ⟨hweight, fun dpRank hdp => ?_⟩
      rw [unit_eq hst]
      exact hunit dpRank hdp
    have habsent : ∀ m, s.modelStates.lookup m = none → _ := fun m hm =>
      absent_owed h.partitioned h.sleepers hm hid
    have hgroups : (call.owed.map fun g => s.unit cfg w g.1 g.2.1 * g.2.2).sum = 0 := by
      apply sum_eq_zero
      intro n hn
      obtain ⟨g, hg, rfl⟩ := mem_map.mp hn
      cases hst : s.modelStates.lookup g.1 with
      | none => rw [(habsent g.1 hst).1 g hg rfl, Nat.mul_zero]
      | some st =>
        have hunit := (hzero g.1 (Call.owed_mem_models hg) st hst).2 g.2.1
          (h.accounted.ranks id call hid g hg)
        rw [hunit, Nat.zero_mul]
    show Call.owedPages (s.unit cfg w) (s.weights cfg w) call = 0
    rw [Call.owedPages, hgroups]
    cases how : call.owedWeights with
    | none => rfl
    | some g =>
      cases hst : s.modelStates.lookup g.1 with
      | none => exact absurd rfl ((habsent g.1 hst).2 g how)
      | some st =>
        have hweight := (hzero g.1 (Call.owedWeights_mem_models how) st hst).1
        simp only [Option.elim, hweight, Nat.zero_mul]
  rw [h.accounted.used, System.takenPages, hcalls, Nat.add_zero, System.awakePages]
  apply tally_congr
  intro m st hst
  by_cases hcovers : st.Covers cfg w
  · have hnone := quiescent_iff.mp (hquiet m st hst hcovers)
    have hwaking : s.waking m = false := by
      cases hw : s.waking m with
      | false => rfl
      | true =>
        obtain ⟨id, call, hid, hwakes⟩ := waking_iff.mp hw
        exact absurd (Call.wakes_mem_models hwakes) (hnone id call hid)
    have hbacked : s.backed m = !st.isSleeping := by
      rw [System.backed, stateOf_eq hst, hwaking, Bool.or_false]
    rw [hbacked]
    cases hsleep : st.isSleeping with
    | false => rfl
    | true =>
      have hheld : st.weightPagesHeld = 0 := h.accounted.held_zero hst (by rw [hbacked, hsleep]; rfl)
      rw [modelPages, hheld, Nat.mul_zero]
      rfl
  · obtain ⟨hweight, hunit⟩ := units_eq_zero hcovers
    have hzero : ∀ backed, modelPages cfg backed st w = 0 := by
      intro backed
      have hsum : ∑ dpRank ∈ Finset.range cfg.dpSize,
          dpUnit cfg st dpRank w * (st.dpGroupPages dpRank).mapped.length = 0 := by
        apply Finset.sum_eq_zero
        intro dpRank hdp
        rw [hunit dpRank (Finset.mem_range.mp hdp), Nat.zero_mul]
      rw [modelPages, hweight, hsum, Nat.zero_mul]
      cases backed <;> rfl
    rw [hzero, hzero]
    split <;> rfl

/-- A run whose callers free what they were given keeps the books of every quiescent model exact,
and books no more than there is. When its sections also meet their models in the right states and no
broadcast has failed, what is booked on a worker is what the awake models have there, and nothing has
underflowed. -/
theorem page_accounting_exact {cfg : Config} {labels : List (Label ModelId)} {s : System ModelId}
    (run : ReachesWith (System.step cfg) Disciplined .init labels s) :
    (∀ m st, s.modelStates.lookup m = some st → s.quiescent m = true →
      ∀ dpRank, GroupExact st (st.dpGroupPages dpRank)) ∧
    (∀ w, s.workerPages.used w ≤ cfg.numTotalPhyPages) ∧
    (ReachesWith (System.step cfg) (fun s label => Disciplined s label ∧ Calm cfg s label) .init
        labels s → (∀ label ∈ labels, label.succeeds = true) → s.workerPages.underflow = false ∧
      ∀ w, (∀ m st, s.modelStates.lookup m = some st → st.Covers cfg w → s.quiescent m = true) →
        s.workerPages.used w = s.awakePages cfg w) := by
  have hpartitioned : Partitioned s := run.invariant Partitioned.step .init
  have hwithin : s.workerPages.Within cfg :=
    run.invariant (I := fun s => s.workerPages.Within cfg)
      (fun s label s' h _ hstep => (step_moved hstep).within h) fun w => Nat.zero_le _
  refine ⟨fun m st hst hquiet dpRank => hpartitioned.groupExact hst hquiet dpRank, hwithin,
    fun calm hsucceeds => ?_⟩
  have hsound : Sound cfg s := by
    refine (calm.withInputs hsucceeds).invariant ?_ (.init cfg)
    rintro s label s' h ⟨⟨hmine, hcalm⟩, hsucceeds⟩ hstep
    exact h.step hmine hcalm hsucceeds hstep
  exact ⟨hsound.accounted.underflow, fun w hquiet => hsound.used_eq_awakePages hquiet⟩


/-! ## A page freed while its model sleeps -/

/-- A caller takes a page of group 0 by the slow path, and every broadcast succeeds. -/
def takePage (id m : Nat) : List (Label Nat) :=
  [.allocKvCachePage id m 0, .broadcast id true, .resume id, .resume id]

/-- Models 0 and 1 have a page each. Model 0 goes to sleep, and then its page is freed: the page is
neither mapped nor counted any more, and is unmapped and released again. -/
def freeWhileAsleep : List (Label Nat) :=
  [.registerModel 0 1, .registerModel 1 1] ++ takePage 0 0 ++ takePage 0 1 ++
    [.sleepModel 0 0 false, .broadcast 0 true, .resume 0,
      .freeKvCachePages 0 0 0 [0], .broadcast 0 true, .resume 0]

/-- Model 1 is awake and has its page, and the books say that nothing is taken. -/
theorem freeWhileAsleep_undercounts : ∃ s,
    ReachesWith (System.step ⟨1, 1, 100⟩) Disciplined (.init : System Nat) freeWhileAsleep s ∧
      (∀ label ∈ freeWhileAsleep, label.succeeds = true) ∧
      s.quiescent 0 = true ∧ s.quiescent 1 = true ∧
      s.workerPages.used 0 = 0 ∧ s.awakePages ⟨1, 1, 100⟩ 0 = 2 := by
  have hrun : ∃ s, ReachesWith (System.step ⟨1, 1, 100⟩) Disciplined (.init : System Nat)
      freeWhileAsleep s ∧ (s.quiescent 0 && s.quiescent 1 && s.workerPages.used 0 == 0 &&
        s.awakePages ⟨1, 1, 100⟩ 0 == 2) = true :=
    ReachesWith.of_check (fun s : System Nat => s.quiescent 0 && s.quiescent 1 &&
      s.workerPages.used 0 == 0 && s.awakePages ⟨1, 1, 100⟩ 0 == 2) _ _ (by decide +kernel)
  obtain ⟨s, run, hend⟩ := hrun
  simp only [Bool.and_eq_true, beq_iff_eq] at hend
  obtain ⟨⟨⟨h0, h1⟩, hused⟩, hawake⟩ := hend
  exact ⟨s, run, by decide, h0, h1, hused, hawake⟩

/-- The same page freed once its model is awake again. -/
def freeAfterWaking : List (Label Nat) :=
  [.registerModel 0 1, .registerModel 1 1] ++ takePage 0 0 ++ takePage 0 1 ++
    [.sleepModel 0 0 false, .broadcast 0 true, .resume 0,
      .wakeupModel 0 0, .broadcast 0 true, .resume 0, .freeKvCachePages 0 0 0 [0]]

/-- The exact accounting of that run. -/
theorem freeAfterWaking_accounting : ∃ s,
    ReachesWith (System.step ⟨1, 1, 100⟩) Disciplined (.init : System Nat) freeAfterWaking s ∧
      s.workerPages.used 0 = 4 ∧ s.workerPages.used 0 = s.awakePages ⟨1, 1, 100⟩ 0 := by
  have hrun : ∃ s, ReachesWith (System.step ⟨1, 1, 100⟩)
      (fun s label => Disciplined s label ∧ Calm ⟨1, 1, 100⟩ s label) (.init : System Nat)
      freeAfterWaking s ∧
        (s.modelStates.keys.all s.quiescent && s.workerPages.used 0 == 4) = true :=
    ReachesWith.of_check (fun s : System Nat => s.modelStates.keys.all s.quiescent &&
      s.workerPages.used 0 == 4) _ _ (by decide +kernel)
  obtain ⟨s, run, hend⟩ := hrun
  simp only [Bool.and_eq_true, beq_iff_eq, all_eq_true] at hend
  obtain ⟨hquiet, hused⟩ := hend
  have disciplined := run.mono fun _ _ h => h.1
  obtain ⟨-, -, hexact⟩ := page_accounting_exact disciplined
  refine ⟨s, disciplined, hused, (hexact run (by decide)).2 0 fun m st hst _ => hquiet m ?_⟩
  exact AList.mem_keys.mpr (AList.lookup_isSome.mp (Option.isSome_of_mem hst))

end Xllm.XTensor
