import Xllm.XTensor.PhysicalPages

/-!
# How a section moves pages

A section takes pages from one place of the sum in `Accounted` to another: out of the count into the
call, out of the call into a list of the model, and back. The lemmas here say what is to be shown of
such a move, from the most general one (`Accounted.move`, where the section may also wake its model or
put it to sleep) to the ones most sections need (`moveGroup`, `moveOwed`, `keepLists`, `goOn`).
-/

namespace Xllm.XTensor

open Xllm.Lib List Function

variable {ModelId : Type} [DecidableEq ModelId] {s : System ModelId} {m : ModelId}
  {call : Call ModelId} {p : WorkerPages} {n : Nat} {cfg : Config} {st : ModelState} {dpRank : Nat}
  {id : Nat}

/-! ## One section

`Accounted.move` is about a section of one call for one model. Its hypothesis `hused` is the equation
between what goes out of the model, the call and the count and what goes in; the other models and calls
are not touched. -/

/-- The units of a model come from these fields. -/
structure SameUnits (st st' : ModelState) : Prop where
  phyPages : st'.phyPagesPerVirtPage = st.phyPagesPerVirtPage
  tpSize : st'.modelTpSize = st.modelTpSize
  worldSize : st'.modelWorldSize = st.modelWorldSize

variable {st' : ModelState}

theorem SameUnits.dpUnit (h : SameUnits st st')
    (dpRank w : Nat) : dpUnit cfg st' dpRank w = dpUnit cfg st dpRank w := by
  have hrange : st'.dpGroupWorkerRange cfg dpRank = st.dpGroupWorkerRange cfg dpRank := by
    unfold ModelState.dpGroupWorkerRange
    rw [h.tpSize]
  unfold XTensor.dpUnit
  rw [hrange, h.phyPages]

theorem SameUnits.weightUnit (h : SameUnits st st') (w : Nat) :
    weightUnit cfg st' w = weightUnit cfg st w := by
  have hrange : st'.weightWorkerRange cfg = st.weightWorkerRange cfg := by
    unfold ModelState.weightWorkerRange
    rw [h.worldSize]
  unfold XTensor.weightUnit
  rw [hrange]

section

variable {s s' : System ModelId} {id : Nat} {next : Option (Call ModelId)}

theorem waking_split (s : System ModelId) (id : Nat) (m : ModelId) :
    s.waking m = true ↔ (s.calls.lookup id).bind Call.wakes = some m ∨
      ∃ id' call, id' ≠ id ∧ s.calls.lookup id' = some call ∧ call.wakes = some m := by
  rw [waking_iff]
  constructor
  · rintro ⟨id', call, hid', hwakes⟩
    by_cases heq : id' = id
    · subst heq
      rw [hid']
      exact Or.inl hwakes
    · exact Or.inr ⟨id', call, heq, hid', hwakes⟩
  · rintro (hold | ⟨id', call, -, hid', hwakes⟩)
    · obtain ⟨call, hcall, hwakes⟩ := Option.bind_eq_some_iff.mp hold
      exact ⟨id, call, hcall, hwakes⟩
    · exact ⟨id', call, hid', hwakes⟩

theorem waking_put (hcalls : s'.calls = put s.calls id next) (m : ModelId) :
    s'.waking m = true ↔ next.bind Call.wakes = some m ∨
      ∃ id' call, id' ≠ id ∧ s.calls.lookup id' = some call ∧ call.wakes = some m := by
  rw [waking_split s' id, hcalls, lookup_put_self]
  apply or_congr Iff.rfl
  constructor
  · rintro ⟨id', call, hne, hid', hwakes⟩
    exact ⟨id', call, hne, by rwa [lookup_put_ne _ _ hne] at hid', hwakes⟩
  · rintro ⟨id', call, hne, hid', hwakes⟩
    exact ⟨id', call, hne, by rwa [lookup_put_ne _ _ hne], hwakes⟩

theorem waking_same (hcalls : s'.calls = put s.calls id next) {m : ModelId}
    (hwakes : next.bind Call.wakes = some m ↔ (s.calls.lookup id).bind Call.wakes = some m) :
    s'.waking m = s.waking m := by
  rw [Bool.eq_iff_iff, waking_put hcalls, waking_split s id, hwakes]

/-- A call that starts to wake a model finds no other wakeup of it. -/
theorem wakesOnce_put (hcalls : s'.calls = put s.calls id next)
    (honce : ∀ id₁ id₂ call₁ call₂ m, s.calls.lookup id₁ = some call₁ →
      s.calls.lookup id₂ = some call₂ → call₁.wakes = some m → call₂.wakes = some m → id₁ = id₂)
    (hnext : ∀ m, next.bind Call.wakes = some m →
      (s.calls.lookup id).bind Call.wakes = some m ∨ s.waking m = false)
    (id₁ id₂ : Nat) (call₁ call₂ : Call ModelId) (m : ModelId)
    (h₁ : s'.calls.lookup id₁ = some call₁) (h₂ : s'.calls.lookup id₂ = some call₂)
    (hw₁ : call₁.wakes = some m) (hw₂ : call₂.wakes = some m) : id₁ = id₂ := by
  -- another call cannot wake what the one that moved on wakes
  have hother : ∀ {id' : Nat} {call : Call ModelId}, id' ≠ id → s.calls.lookup id' = some call →
      call.wakes = some m → next.bind Call.wakes = some m → False := by
    intro id' call hne hid' hwakes hmoved
    rcases hnext m hmoved with hold | hnone
    · obtain ⟨old, hold, hw⟩ := Option.bind_eq_some_iff.mp hold
      exact hne (honce _ _ _ _ m hid' hold hwakes hw)
    · exact absurd (waking_iff.mpr ⟨id', call, hid', hwakes⟩) (by simp [hnone])
  rw [hcalls] at h₁ h₂
  by_cases heq₁ : id₁ = id <;> by_cases heq₂ : id₂ = id
  · exact heq₁.trans heq₂.symm
  · subst heq₁
    rw [lookup_put_self] at h₁
    rw [lookup_put_ne _ _ heq₂] at h₂
    exact (hother heq₂ h₂ hw₂ (by rw [h₁]; exact hw₁)).elim
  · subst heq₂
    rw [lookup_put_self] at h₂
    rw [lookup_put_ne _ _ heq₁] at h₁
    exact (hother heq₁ h₁ hw₁ (by rw [h₂]; exact hw₂)).elim
  · rw [lookup_put_ne _ _ heq₁] at h₁
    rw [lookup_put_ne _ _ heq₂] at h₂
    exact honce _ _ _ _ m h₁ h₂ hw₁ hw₂

end

/-- What a call owes a worker, if there is one. -/
def System.owed (cfg : Config) (s : System ModelId) (w : Nat) (call : Option (Call ModelId)) :
    Nat := weigh (ofCall (Call.owedPages (s.unit cfg w) (s.weights cfg w))) 0 call

@[simp] theorem owed_none (cfg : Config) (s : System ModelId) (w : Nat) :
    s.owed cfg w none = 0 := rfl

theorem owed_some (cfg : Config) (s : System ModelId) (w : Nat) (call : Call ModelId) :
    s.owed cfg w (some call) = call.owedPages (s.unit cfg w) (s.weights cfg w) := rfl

/-- What is known of every call. -/
def Call.Fits (cfg : Config) (call : Call ModelId) : Prop :=
  call.succeeded = true ∧ ∀ g ∈ call.owed, g.2.1 < cfg.dpSize

variable {s' : System ModelId} {old : Option (Call ModelId)}

/-- A section of one call for one model: what the model has, what the call owes and what is
counted move together. The section may wake its model or put it to sleep. -/
theorem Accounted.move (h : Accounted cfg s)
    (next : Option (Call ModelId)) (backed : Bool) (hst : s.modelStates.lookup m = some st)
    (hid : s.calls.lookup id = old) (hmodels : s'.modelStates = s.modelStates.insert m st')
    (hcalls : s'.calls = put s.calls id next) (hunits : SameUnits st st')
    (hothers : ∀ m', m' ≠ m → (next.bind Call.wakes = some m' ↔ old.bind Call.wakes = some m'))
    (honce : next.bind Call.wakes = some m → old.bind Call.wakes = some m ∨ s.waking m = false)
    (hasleep : s'.waking m = true → st'.isSleeping = true)
    (hbacked : (!st'.isSleeping || s'.waking m) = backed)
    (hunder : s'.workerPages.underflow = false) (hheld : backed = false → st'.weightPagesHeld = 0)
    (hnext : ∀ call, next = some call → call.Fits cfg)
    (hused : ∀ w, s'.workerPages.used w + modelPages cfg (s.backed m) st w + s.owed cfg w old =
      s.workerPages.used w + modelPages cfg backed st' w + s.owed cfg w next) :
    Accounted cfg s' := by
  have hstate : ∀ m', s'.stateOf m' = if m' = m then st' else s.stateOf m' := by
    intro m'
    rw [← stateOf_insert s m m' st', System.stateOf, System.stateOf, hmodels]
  have hwakingOther : ∀ m', m' ≠ m → s'.waking m' = s.waking m' := fun m' hne =>
    waking_same hcalls (by rw [hid]; exact hothers m' hne)
  have hbackedOther : ∀ m', m' ≠ m → s'.backed m' = s.backed m' := by
    intro m' hne
    rw [System.backed, System.backed, hstate, if_neg hne, hwakingOther m' hne]
  have hbackedSelf : s'.backed m = backed := by
    rw [System.backed, hstate, if_pos rfl]
    exact hbacked
  have hunit : ∀ w, s'.unit cfg w = s.unit cfg w := by
    intro w
    funext m' dpRank
    simp only [System.unit]
    rw [hstate]
    split
    · next heq => rw [heq, stateOf_eq hst, hunits.dpUnit]
    · rfl
  have hweights : ∀ w, s'.weights cfg w = s.weights cfg w := by
    intro w
    funext m'
    simp only [System.weights]
    rw [hstate]
    split
    · next heq => rw [heq, stateOf_eq hst, hunits.weightUnit]
    · rfl
  refine ⟨fun w => ?_, hunder, fun m' hw => ?_, wakesOnce_put hcalls h.wakesOnce fun m' hm' => ?_,
    fun m' hb => ?_, forall_calls_put hcalls h.succeeded fun call hcall => (hnext call hcall).1,
    forall_calls_put hcalls h.ranks fun call hcall => (hnext call hcall).2⟩
  · -- one entry changes in each of the two sums
    have hmodelTally := @tally_put_congr _ _ _ (fun m st => modelPages cfg (s.backed m) st w)
      (fun m st => modelPages cfg (s'.backed m) st w) s.modelStates m (some st')
      fun m' st'' hne _ => by rw [hbackedOther m' hne]
    have hcallTally := tally_put_ofCall (Call.owedPages (s.unit cfg w) (s.weights cfg w)) s.calls
      id next
    rw [hst, weigh_some, weigh_some, hbackedSelf] at hmodelTally
    rw [hid] at hcallTally
    have hold := h.used w
    have hmove := hused w
    unfold System.owed at hmove
    rw [System.takenPages] at hold ⊢
    rw [hmodels, hcalls, hunit, hweights]
    show _ = tally _ (put s.modelStates m (some st')) + _
    omega
  · rw [hstate]
    split
    · next heq =>
      rw [heq] at hw
      exact hasleep hw
    · next hne =>
      rw [hwakingOther m' hne] at hw
      exact h.wakingAsleep m' hw
  · rw [hid]
    by_cases heq : m' = m
    · rw [heq] at hm' ⊢
      exact honce hm'
    · exact Or.inl ((hothers m' heq).mp hm')
  · rw [hstate]
    split
    · next heq =>
      rw [heq, hbackedSelf] at hb
      exact hheld hb
    · next hne =>
      rw [hbackedOther m' hne] at hb
      exact h.unbacked m' hb

/-- The call goes on and wakes what it woke. -/
structure Goes (cfg : Config) (old next : Option (Call ModelId)) : Prop where
  wakes : next.bind Call.wakes = old.bind Call.wakes
  fits : ∀ call, next = some call → call.Fits cfg

omit [DecidableEq ModelId] in
theorem Goes.ended (h : old.bind Call.wakes = none) :
    Goes cfg old none := ⟨h.symm, fun _ hcall => nomatch hcall⟩

omit [DecidableEq ModelId] in
theorem Goes.on (call : Call ModelId)
    (h : call.wakes = old.bind Call.wakes) (hfits : call.Fits cfg) : Goes cfg old (some call) :=
  ⟨h, fun _ hcall => by cases hcall; exact hfits⟩

variable {next : Option (Call ModelId)}

/-- A section that neither wakes a model nor puts it to sleep. -/
theorem Accounted.moveAwake (h : Accounted cfg s)
    (hst : s.modelStates.lookup m = some st) (hid : s.calls.lookup id = old)
    (hgoes : Goes cfg old next) (hmodels : s'.modelStates = s.modelStates.insert m st')
    (hcalls : s'.calls = put s.calls id next) (hunits : SameUnits st st')
    (hsleeping : st'.isSleeping = st.isSleeping) (hunder : s'.workerPages.underflow = false)
    (hheld : s.backed m = false → st'.weightPagesHeld = 0)
    (hused : ∀ w, s'.workerPages.used w + modelPages cfg (s.backed m) st w + s.owed cfg w old =
      s.workerPages.used w + modelPages cfg (s.backed m) st' w + s.owed cfg w next) :
    Accounted cfg s' := by
  have hwaking : s'.waking m = s.waking m := waking_same hcalls (by rw [hgoes.wakes, hid])
  refine h.move next (s.backed m) hst hid hmodels hcalls hunits (fun m' _ => by rw [hgoes.wakes])
    (fun hm => Or.inl (hgoes.wakes ▸ hm)) (fun hw => ?_) ?_ hunder hheld hgoes.fits hused
  · rw [hwaking] at hw
    rw [hsleeping, ← stateOf_eq hst]
    exact h.wakingAsleep m hw
  · rw [hsleeping, hwaking, System.backed, stateOf_eq hst]

/-! ## Moves within one group -/

theorem unit_eq (hst : s.modelStates.lookup m = some st) (w dpRank : Nat) :
    s.unit cfg w m dpRank = dpUnit cfg st dpRank w := by
  rw [System.unit, stateOf_eq hst]

theorem weights_eq (hst : s.modelStates.lookup m = some st) (w : Nat) :
    s.weights cfg w m = weightUnit cfg st w := by
  rw [System.weights, stateOf_eq hst]

/-- Replacing a group changes the pages of the model by those of the group. -/
theorem modelPages_setGroup (cfg : Config) (backed : Bool) (st : ModelState) (dpRank w : Nat)
    (g' : DpGroupPages)
    (hdp : dpRank < cfg.dpSize ∨ g'.mapped.length = (st.dpGroupPages dpRank).mapped.length) :
    modelPages cfg backed (st.setGroup dpRank g') w +
        (if backed then dpUnit cfg st dpRank w * (st.dpGroupPages dpRank).mapped.length else 0) =
      modelPages cfg backed st w +
        if backed then dpUnit cfg st dpRank w * g'.mapped.length else 0 := by
  cases backed with
  | false => rfl
  | true =>
    have hsum : (∑ d ∈ Finset.range cfg.dpSize,
          dpUnit cfg st d w * ((st.setGroup dpRank g').dpGroupPages d).mapped.length) +
          dpUnit cfg st dpRank w * (st.dpGroupPages dpRank).mapped.length =
        (∑ d ∈ Finset.range cfg.dpSize, dpUnit cfg st d w * (st.dpGroupPages d).mapped.length) +
          dpUnit cfg st dpRank w * g'.mapped.length := by
      rcases hdp with hdp | hlength
      · exact sum_update cfg.dpSize (fun d g => dpUnit cfg st d w * g.mapped.length)
          st.dpGroupPages hdp g'
      · rw [hlength]
        congr 1
        refine Finset.sum_congr rfl fun d _ => ?_
        by_cases hd : d = dpRank
        · rw [hd, setGroup_self, hlength]
        · rw [setGroup_ne _ _ hd]
    have hunits : SameUnits st (st.setGroup dpRank g') := ⟨rfl, rfl, rfl⟩
    simp only [modelPages, if_true, hunits.weightUnit, hunits.dpUnit]
    show weightUnit cfg st w * st.weightPagesHeld + _ + _ = _
    omega

theorem modelPages_congr {backed : Bool}
    (hunits : SameUnits st st') (hlists : st'.dpGroupPages = st.dpGroupPages)
    (hheld : st'.weightPagesHeld = st.weightPagesHeld) (w : Nat) :
    modelPages cfg backed st' w = modelPages cfg backed st w := by
  simp only [modelPages, hunits.weightUnit, hunits.dpUnit, hlists, hheld]

omit [DecidableEq ModelId] in
theorem owedPages_single (howed : call.owed = [(m, dpRank, n)]) (hweights : call.owedWeights = none)
    (unit : ModelId → Nat → Nat) (weights : ModelId → Nat) :
    call.owedPages unit weights = unit m dpRank * n := by
  simp [Call.owedPages, howed, hweights]

/-- A section that changes one group of its model. -/
theorem Accounted.moveGroup (h : Accounted cfg s) (pending : Nat)
    {g' : DpGroupPages} (hst : s.modelStates.lookup m = some st)
    (hid : s.calls.lookup id = old) (hgoes : Goes cfg old next) (hmodels : s'.modelStates =
      s.modelStates.insert m ({ st with pendingMapOps := pending }.setGroup dpRank g'))
    (hcalls : s'.calls = put s.calls id next) (hunder : s'.workerPages.underflow = false)
    (hdp : dpRank < cfg.dpSize ∨ g'.mapped.length = (st.dpGroupPages dpRank).mapped.length)
    (hused : ∀ w, s'.workerPages.used w +
        (if s.backed m then dpUnit cfg st dpRank w * (st.dpGroupPages dpRank).mapped.length else 0) +
        s.owed cfg w old =
      s.workerPages.used w + (if s.backed m then dpUnit cfg st dpRank w * g'.mapped.length else 0) +
        s.owed cfg w next) :
    Accounted cfg s' := by
  refine h.moveAwake hst hid hgoes hmodels hcalls ⟨rfl, rfl, rfl⟩ rfl hunder (fun hb => ?_) fun w => ?_
  · have := h.unbacked m hb
    rwa [stateOf_eq hst] at this
  · have hmodel := modelPages_setGroup cfg (s.backed m) { st with pendingMapOps := pending } dpRank w
      g' hdp
    have hsame : modelPages cfg (s.backed m) { st with pendingMapOps := pending } w =
        modelPages cfg (s.backed m) st w := modelPages_congr ⟨rfl, rfl, rfl⟩ rfl rfl w
    have hmove := hused w
    have hunit : dpUnit cfg { st with pendingMapOps := pending } dpRank w = dpUnit cfg st dpRank w :=
      rfl
    rw [hsame, hunit] at hmodel
    dsimp only at hmodel
    omega

/-- The mapped pages stay as many, so what is counted goes to or from the call. -/
theorem Accounted.moveOwed (h : Accounted cfg s) (pending : Nat)
    {g' : DpGroupPages} (hst : s.modelStates.lookup m = some st)
    (hid : s.calls.lookup id = old) (hgoes : Goes cfg old next) (hmodels : s'.modelStates =
      s.modelStates.insert m ({ st with pendingMapOps := pending }.setGroup dpRank g'))
    (hcalls : s'.calls = put s.calls id next) (hunder : s'.workerPages.underflow = false)
    (hlength : g'.mapped.length = (st.dpGroupPages dpRank).mapped.length)
    (hused : ∀ w, s'.workerPages.used w + s.owed cfg w old =
      s.workerPages.used w + s.owed cfg w next) :
    Accounted cfg s' := by
  refine h.moveGroup pending hst hid hgoes hmodels hcalls hunder (Or.inr hlength) fun w => ?_
  have := hused w
  rw [hlength]
  omega

/-- A section that leaves the lists and the weights of its model alone. -/
theorem Accounted.keepLists (h : Accounted cfg s)
    (hst : s.modelStates.lookup m = some st) (hid : s.calls.lookup id = old)
    (hgoes : Goes cfg old next) (hunits : SameUnits st st')
    (hlists : st'.dpGroupPages = st.dpGroupPages) (hsleeping : st'.isSleeping = st.isSleeping)
    (hheld : st'.weightPagesHeld = st.weightPagesHeld) (hunder : p.underflow = false)
    (hused : ∀ w, p.used w + s.owed cfg w old = s.workerPages.used w + s.owed cfg w next) :
    Accounted cfg (s.commit m st' p id next) := by
  refine h.moveAwake hst hid hgoes rfl rfl hunits hsleeping hunder (fun hb => ?_) fun w => ?_
  · have := h.unbacked m hb
    rw [stateOf_eq hst] at this
    rw [hheld, this]
  · have hmove := hused w
    rw [modelPages_congr hunits hlists hheld]
    show p.used w + _ + _ = _
    omega

/-- A section that touches no model. -/
theorem Accounted.goOn (h : Accounted cfg s)
    (hid : s.calls.lookup id = old) (hgoes : Goes cfg old next)
    (howed : ∀ w, s.owed cfg w next = s.owed cfg w old) : Accounted cfg (s.goOn id next) := by
  have hcalls : (s.goOn id next).calls = put s.calls id next := rfl
  have hwaking : ∀ m, (s.goOn id next).waking m = s.waking m := fun m =>
    waking_same hcalls (by rw [hgoes.wakes, hid])
  have hbacked : ∀ m, (s.goOn id next).backed m = s.backed m := by
    intro m
    rw [System.backed, System.backed, hwaking]
    rfl
  refine ⟨fun w => ?_, h.underflow, fun m => ?_,
    wakesOnce_put hcalls h.wakesOnce fun m hm => Or.inl (by rw [hid, ← hgoes.wakes]; exact hm),
    fun m => ?_, forall_calls_put hcalls h.succeeded fun call hcall => (hgoes.fits call hcall).1,
    forall_calls_put hcalls h.ranks fun call hcall => (hgoes.fits call hcall).2⟩
  · have hput := tally_put_ofCall (Call.owedPages (s.unit cfg w) (s.weights cfg w)) s.calls id next
    have hmodels : tally (fun m st => modelPages cfg ((s.goOn id next).backed m) st w)
        s.modelStates = tally (fun m st => modelPages cfg (s.backed m) st w) s.modelStates := by
      apply tally_congr
      intro m st _
      rw [hbacked]
    have hold := h.used w
    have hsame := howed w
    unfold System.owed at hsame
    rw [hid] at hput
    rw [System.takenPages] at hold ⊢
    show s.workerPages.used w =
      tally (fun m st => modelPages cfg ((s.goOn id next).backed m) st w) s.modelStates +
        tally (ofCall (Call.owedPages (s.unit cfg w) (s.weights cfg w))) (put s.calls id next)
    omega
  · rw [hwaking]
    exact h.wakingAsleep m
  · rw [hbacked]
    exact h.unbacked m

/-! ## Changing a model outside its sections

Registration and configuration change a model while calls for it may be in flight. The units of what
they owe must stay. -/

theorem Accounted.withModel (h : Accounted cfg s)
    (howed : ∀ id call, s.calls.lookup id = some call →
      (∀ g ∈ call.owed, g.1 = m → g.2.2 = 0 ∨ SameUnits (s.stateOf m) st') ∧
      ∀ g, call.owedWeights = some g → g.1 = m → SameUnits (s.stateOf m) st')
    (hmodel : ∀ w, modelPages cfg (s.backed m) st' w =
      weigh (fun m st => modelPages cfg (s.backed m) st w) m (s.modelStates.lookup m))
    (hsleeping : st'.isSleeping = (s.stateOf m).isSleeping)
    (hheld : s.backed m = false → st'.weightPagesHeld = 0) :
    Accounted cfg { s with modelStates := s.modelStates.insert m st' } := by
  generalize hs' : ({ s with modelStates := s.modelStates.insert m st' } : System ModelId) = s'
  have hmodels : s'.modelStates = s.modelStates.insert m st' := by
    rw [← hs']
  have hcalls : s'.calls = s.calls := by
    rw [← hs']
  have hworkers : s'.workerPages = s.workerPages := by
    rw [← hs']
  have hstate : ∀ m', s'.stateOf m' = if m' = m then st' else s.stateOf m' := by
    intro m'
    rw [← stateOf_insert s m m', hs']
  have hwaking : ∀ m', s'.waking m' = s.waking m' := by
    intro m'
    rw [System.waking, System.waking, hcalls]
  have hasleep : ∀ m', (s'.stateOf m').isSleeping = (s.stateOf m').isSleeping := by
    intro m'
    rw [hstate]
    split
    · next heq => rw [heq, hsleeping]
    · rfl
  have hbacked : ∀ m', s'.backed m' = s.backed m' := by
    intro m'
    rw [System.backed, System.backed, hasleep, hwaking]
  have hunit : ∀ w m' dpRank n, (m' = m → n = 0 ∨ SameUnits (s.stateOf m) st') →
      s'.unit cfg w m' dpRank * n = s.unit cfg w m' dpRank * n := by
    intro w m' dpRank n hn
    simp only [System.unit]
    rw [hstate]
    split
    · next heq =>
      rcases hn heq with rfl | hsame
      · rfl
      · rw [hsame.dpUnit, heq]
    · rfl
  have hcallPages : ∀ w id call, s.calls.lookup id = some call →
      call.owedPages (s'.unit cfg w) (s'.weights cfg w) =
        call.owedPages (s.unit cfg w) (s.weights cfg w) := by
    intro w id call hid
    obtain ⟨hgroups, hweights⟩ := howed id call hid
    have hsum : call.owed.map (fun g => s'.unit cfg w g.1 g.2.1 * g.2.2) =
        call.owed.map (fun g => s.unit cfg w g.1 g.2.1 * g.2.2) :=
      map_congr_left fun g hg => hunit w g.1 g.2.1 g.2.2 (hgroups g hg)
    rw [Call.owedPages, Call.owedPages, hsum]
    cases how : call.owedWeights with
    | none => rfl
    | some g =>
      have hsame : s'.weights cfg w g.1 = s.weights cfg w g.1 := by
        simp only [System.weights]
        rw [hstate]
        split
        · next heq => rw [(hweights g how heq).weightUnit, heq]
        · rfl
      simp only [Option.elim, hsame]
  refine ⟨fun w => ?_, ?_, fun m' hw => ?_, ?_, fun m' hb => ?_, ?_, ?_⟩
  · have hold := h.used w
    have hput := @tally_put_congr _ _ _ (fun m st => modelPages cfg (s.backed m) st w)
      (fun m st => modelPages cfg (s'.backed m) st w) s.modelStates m (some st')
      fun m' st'' _ _ => by rw [hbacked]
    have hcallTally : tally (ofCall (Call.owedPages (s'.unit cfg w) (s'.weights cfg w))) s.calls =
        tally (ofCall (Call.owedPages (s.unit cfg w) (s.weights cfg w))) s.calls :=
      tally_congr fun id call hid => hcallPages w id call hid
    have hw := hmodel w
    rw [System.takenPages] at hold ⊢
    rw [hworkers, hmodels, hcalls, hcallTally]
    rw [weigh_some, hbacked] at hput
    show _ = tally _ (put s.modelStates m (some st')) + _
    omega
  · rw [hworkers]
    exact h.underflow
  · rw [hasleep]
    rw [hwaking] at hw
    exact h.wakingAsleep m' hw
  · rw [hcalls]
    exact h.wakesOnce
  · rw [hbacked] at hb
    rw [hstate]
    split
    · next heq =>
      rw [heq] at hb
      exact hheld hb
    · exact h.unbacked m' hb
  · rw [hcalls]
    exact h.succeeded
  · rw [hcalls]
    exact h.ranks

end Xllm.XTensor
