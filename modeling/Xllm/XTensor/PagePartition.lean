import Xllm.XTensor.PageSteps

/-!
# The virtual pages of a group

A call that holds virtual pages holds them in no list of the model, so in a state with calls in flight the
pages of a group are partitioned into the three lists *and* what the calls hold. `Partitioned` says this
page by page (each id below `num_total_virt_pages` is counted once), says the same of
`num_free_virt_pages`, and counts the pending map operations, which is what keeps a model from
falling asleep while a page of it is being mapped. It is kept by every step, whatever the broadcasts
answer, as long as callers free pages they were given (`Disciplined`).
-/

namespace Xllm.XTensor

open Xllm.Lib List Function

variable {ModelId : Type} [DecidableEq ModelId]

/-! ## What calls hold -/

/-- `f` of the pages a list of groups has for one group, added up. -/
def groupSum (f : List Nat → Nat) (m : ModelId) (dpRank : Nat)
    (groups : List (ModelId × Nat × List Nat)) : Nat :=
  (groups.map fun g => if g.1 = m ∧ g.2.1 = dpRank then f g.2.2 else 0).sum

section

variable (f : List Nat → Nat) (m : ModelId) (dpRank : Nat)

@[simp] theorem groupSum_nil : groupSum f m dpRank [] = 0 := rfl

@[simp] theorem groupSum_cons (g : ModelId × Nat × List Nat)
    (groups : List (ModelId × Nat × List Nat)) :
    groupSum f m dpRank (g :: groups) =
      (if g.1 = m ∧ g.2.1 = dpRank then f g.2.2 else 0) + groupSum f m dpRank groups := by
  simp [groupSum]

@[simp] theorem groupSum_append (groups groups' : List (ModelId × Nat × List Nat)) :
    groupSum f m dpRank (groups ++ groups') =
      groupSum f m dpRank groups + groupSum f m dpRank groups' := by
  simp [groupSum]

end

namespace Call

def groups : Call ModelId → List (ModelId × Nat × List Nat)
  | allocMapping m dpRank page => [(m, dpRank, [page])]
  | allocMapped m dpRank page _ => [(m, dpRank, [page])]
  | allocTracking m dpRank page => [(m, dpRank, [page])]
  | unmapping m dpRank pages => [(m, dpRank, pages)]
  | unmapped m dpRank pages _ => [(m, dpRank, pages)]
  | preallocNext todo => todo
  | preallocMapping m dpRank pages todo => (m, dpRank, pages) :: todo
  | preallocMapped m dpRank pages _ todo => (m, dpRank, pages) :: todo
  | _ => []

/-- Those of them that `num_free_virt_pages` counts. -/
def poolGroups : Call ModelId → List (ModelId × Nat × List Nat)
  | allocMapping _ _ _ => []
  | allocMapped _ _ _ _ => []
  | allocTracking _ _ _ => []
  | c => c.groups

/-- The model a page is being mapped for under `pending_map_ops`. -/
def pendingFor : Call ModelId → Option ModelId
  | allocMapping m _ _ => some m
  | allocMapped m _ _ _ => some m
  | preallocMapping m _ _ _ => some m
  | preallocMapped m _ _ _ _ => some m
  | _ => none

def countPage (m : ModelId) (dpRank page : Nat) (c : Call ModelId) : Nat :=
  groupSum (List.count page) m dpRank c.groups

def poolSize (m : ModelId) (dpRank : Nat) (c : Call ModelId) : Nat :=
  groupSum List.length m dpRank c.poolGroups

def pendingOps (m : ModelId) (c : Call ModelId) : Nat := if c.pendingFor = some m then 1 else 0

end Call

/-- A number of calls each weighs the same wherever it is in the table. -/
abbrev ofCall (f : Call ModelId → Nat) : Nat → Call ModelId → Nat := fun _ c => f c

/-! ## The invariant -/

/-- A model that is not registered has no pages. -/
def ModelState.absent : ModelState where
  numTotalVirtPages := 0
  phyPagesPerVirtPage := 0
  dpGroupPages _ :=
    { numFreeVirtPages := 0
      freeVirtPageList := []
      reservedVirtPageList := []
      allocatedVirtPageList := [] }

def System.stateOf (s : System ModelId) (m : ModelId) : ModelState :=
  (s.modelStates.lookup m).getD .absent

def DpGroupPages.countPage (g : DpGroupPages) (page : Nat) : Nat :=
  g.freeVirtPageList.count page + g.mapped.count page

def DpGroupPages.poolSize (g : DpGroupPages) : Nat :=
  g.freeVirtPageList.length + g.reservedVirtPageList.length

structure Partitioned (s : System ModelId) : Prop where
  pages : ∀ m dpRank page,
    ((s.stateOf m).dpGroupPages dpRank).countPage page +
        tally (ofCall (Call.countPage m dpRank page)) s.calls =
      if page < (s.stateOf m).numTotalVirtPages then 1 else 0
  numFree : ∀ m dpRank,
    ((s.stateOf m).dpGroupPages dpRank).numFreeVirtPages =
      ((s.stateOf m).dpGroupPages dpRank).poolSize +
        tally (ofCall (Call.poolSize m dpRank)) s.calls
  pending : ∀ m, (s.stateOf m).pendingMapOps = tally (ofCall (Call.pendingOps m)) s.calls
  awake : ∀ m, (s.stateOf m).isSleeping = true → (s.stateOf m).pendingMapOps = 0
  given : ∀ m dpRank page,
    page ∈ ((s.stateOf m).dpGroupPages dpRank).allocatedVirtPageList ↔ page ∈ s.given m dpRank

variable {s : System ModelId} {m : ModelId} {st : ModelState}

theorem stateOf_eq (h : s.modelStates.lookup m = some st) : s.stateOf m = st := by
  rw [System.stateOf, h, Option.getD_some]

theorem stateOf_insert (s : System ModelId) (m m' : ModelId) (st : ModelState) :
    System.stateOf { s with modelStates := s.modelStates.insert m st } m' =
      if m' = m then st else s.stateOf m' := by
  rw [System.stateOf, lookup_insert_eq, System.stateOf]
  split <;> rfl

theorem Partitioned.awake_of (h : Partitioned s) (hst : s.modelStates.lookup m = some st) :
    st.isSleeping = true → st.pendingMapOps = 0 := by
  have hawake := h.awake m
  rwa [stateOf_eq hst] at hawake

theorem Partitioned.given_iff (h : Partitioned s) (hst : s.modelStates.lookup m = some st)
    (dpRank page : Nat) :
    page ∈ (st.dpGroupPages dpRank).allocatedVirtPageList ↔ page ∈ s.given m dpRank := by
  have hgiven := h.given m dpRank page
  rwa [stateOf_eq hst] at hgiven

theorem Partitioned.init : Partitioned (System.init : System ModelId) where
  pages _ _ page := rfl
  numFree _ _ := rfl
  pending _ := rfl
  awake _ h := nomatch h
  given _ _ _ := Iff.rfl

/-! ## One group, one call -/

/-- What a section may do: the group `(m, dpRank)` becomes `g'`, the call `old` becomes `next`, and
together they have the pages they had. -/
structure GroupMove (m : ModelId) (dpRank : Nat) (g g' : DpGroupPages)
    (old next : Option (Call ModelId)) : Prop where
  pages : ∀ page,
    g'.countPage page + weigh (ofCall (Call.countPage m dpRank page)) 0 next =
      g.countPage page + weigh (ofCall (Call.countPage m dpRank page)) 0 old
  numFree :
    g'.numFreeVirtPages + g.poolSize + weigh (ofCall (Call.poolSize m dpRank)) 0 old =
      g.numFreeVirtPages + g'.poolSize + weigh (ofCall (Call.poolSize m dpRank)) 0 next
  elsewhere : ∀ m' dpRank', ¬ (m = m' ∧ dpRank = dpRank') →
    (∀ page, weigh (ofCall (Call.countPage m' dpRank' page)) 0 next =
      weigh (ofCall (Call.countPage m' dpRank' page)) 0 old) ∧
    weigh (ofCall (Call.poolSize m' dpRank')) 0 next =
      weigh (ofCall (Call.poolSize m' dpRank')) 0 old

/-- What happens to the pending operations beside it. -/
structure PendingMove (m : ModelId) (st st' : ModelState) (old next : Option (Call ModelId)) :
    Prop where
  own : st'.pendingMapOps + weigh (ofCall (Call.pendingOps m)) 0 old =
    st.pendingMapOps + weigh (ofCall (Call.pendingOps m)) 0 next
  elsewhere : ∀ m', m' ≠ m →
    weigh (ofCall (Call.pendingOps m')) 0 next = weigh (ofCall (Call.pendingOps m')) 0 old
  awake : st'.isSleeping = true → st'.pendingMapOps = 0

variable {st' : ModelState} {old next : Option (Call ModelId)}

theorem pendingOps_eq_zero {call : Option (Call ModelId)} (h : call.bind Call.pendingFor = none)
    (m : ModelId) : weigh (ofCall (Call.pendingOps m)) 0 call = 0 := by
  cases call with
  | none => rfl
  | some c => exact if_neg (by rw [show c.pendingFor = none from h]; simp)

theorem PendingMove.of_none (hpending : st'.pendingMapOps = st.pendingMapOps)
    (hawake : st'.isSleeping = true → st'.pendingMapOps = 0)
    (hold : old.bind Call.pendingFor = none) (hnext : next.bind Call.pendingFor = none) :
    PendingMove m st st' old next where
  own := by rw [hpending, pendingOps_eq_zero hold, pendingOps_eq_zero hnext]
  elsewhere m' _ := by rw [pendingOps_eq_zero hold, pendingOps_eq_zero hnext]
  awake := hawake

theorem tally_put_ofCall (f : Call ModelId → Nat) (calls : Table Nat (Call ModelId)) (id : Nat)
    (next : Option (Call ModelId)) :
    tally (ofCall f) (put calls id next) + weigh (ofCall f) 0 (calls.lookup id) =
      tally (ofCall f) calls + weigh (ofCall f) 0 next := tally_put (ofCall f) calls id next

variable {dpRank id : Nat}

theorem Partitioned.move {s' : System ModelId} (h : Partitioned s)
    (hst : s.modelStates.lookup m = some st) (hid : s.calls.lookup id = old)
    (hmodels : s'.modelStates = s.modelStates.insert m st')
    (hcalls : s'.calls = put s.calls id next)
    (htotal : st'.numTotalVirtPages = st.numTotalVirtPages)
    (hrest : ∀ d, d ≠ dpRank → st'.dpGroupPages d = st.dpGroupPages d)
    (hgroup : GroupMove m dpRank (st.dpGroupPages dpRank) (st'.dpGroupPages dpRank) old next)
    (hpending : PendingMove m st st' old next)
    (hgiven : ∀ d page, page ∈ (st'.dpGroupPages d).allocatedVirtPageList ↔ page ∈ s'.given m d)
    (hothers : ∀ m', m' ≠ m → s'.given m' = s.given m') : Partitioned s' := by
  subst hid
  have hstate : ∀ m', s'.stateOf m' = if m' = m then st' else s.stateOf m' := by
    intro m'
    rw [← stateOf_insert s m m' st', System.stateOf, System.stateOf, hmodels]
  have hself : s'.stateOf m = st' := by rw [hstate, if_pos rfl]
  have hother : ∀ m', m' ≠ m → s'.stateOf m' = s.stateOf m' := fun m' hne => by
    rw [hstate, if_neg hne]
  have hold : s.stateOf m = st := stateOf_eq hst
  -- what the calls hold for a group the section does not touch
  have hkeep : ∀ f : Call ModelId → Nat,
      weigh (ofCall f) 0 next = weigh (ofCall f) 0 (s.calls.lookup id) →
      tally (ofCall f) s'.calls = tally (ofCall f) s.calls := by
    intro f hf
    have := tally_put_ofCall f s.calls id next
    rw [hcalls]
    omega
  refine ⟨fun m' d page => ?_, fun m' d => ?_, fun m' => ?_, fun m' => ?_, fun m' d page => ?_⟩
  · have hinv := h.pages m' d page
    by_cases hm : m = m' ∧ dpRank = d
    · obtain ⟨rfl, rfl⟩ := hm
      have hmove := hgroup.pages page
      have hput := tally_put_ofCall (Call.countPage m dpRank page) s.calls id next
      rw [hold] at hinv
      rw [hself, hcalls, htotal]
      omega
    · rw [hkeep _ ((hgroup.elsewhere m' d hm).1 page)]
      by_cases hmm : m' = m
      · subst hmm
        rw [hold] at hinv
        rw [hself, htotal, hrest d fun hd => hm ⟨rfl, hd.symm⟩]
        exact hinv
      · rw [hother m' hmm]
        exact hinv
  · have hinv := h.numFree m' d
    by_cases hm : m = m' ∧ dpRank = d
    · obtain ⟨rfl, rfl⟩ := hm
      have hmove := hgroup.numFree
      have hput := tally_put_ofCall (Call.poolSize m dpRank) s.calls id next
      rw [hold] at hinv
      rw [hself, hcalls]
      omega
    · rw [hkeep _ (hgroup.elsewhere m' d hm).2]
      by_cases hmm : m' = m
      · subst hmm
        rw [hold] at hinv
        rw [hself, hrest d fun hd => hm ⟨rfl, hd.symm⟩]
        exact hinv
      · rw [hother m' hmm]
        exact hinv
  · have hinv := h.pending m'
    by_cases hmm : m' = m
    · subst hmm
      have hmove := hpending.own
      have hput := tally_put_ofCall (Call.pendingOps m') s.calls id next
      rw [hold] at hinv
      rw [hself, hcalls]
      omega
    · rw [hkeep _ (hpending.elsewhere m' hmm), hother m' hmm]
      exact hinv
  · by_cases hmm : m' = m
    · subst hmm
      rw [hself]
      exact hpending.awake
    · rw [hother m' hmm]
      exact h.awake m'
  · by_cases hmm : m' = m
    · subst hmm
      rw [hself]
      exact hgiven d page
    · rw [hother m' hmm, hothers m' hmm]
      exact h.given m' d page

/-! ## Sections that move no page -/

/-- What a call that may have ended holds. -/
def heldGroups (call : Option (Call ModelId)) : List (ModelId × Nat × List Nat) :=
  call.elim [] Call.groups

def heldPool (call : Option (Call ModelId)) : List (ModelId × Nat × List Nat) :=
  call.elim [] Call.poolGroups

theorem weigh_countPage (m : ModelId) (dpRank page : Nat) (call : Option (Call ModelId)) :
    weigh (ofCall (Call.countPage m dpRank page)) 0 call =
      groupSum (List.count page) m dpRank (heldGroups call) := by
  cases call <;> rfl

theorem weigh_poolSize (m : ModelId) (dpRank : Nat) (call : Option (Call ModelId)) :
    weigh (ofCall (Call.poolSize m dpRank)) 0 call =
      groupSum List.length m dpRank (heldPool call) := by
  cases call <;> rfl

variable {g : DpGroupPages}

theorem GroupMove.same (hgroups : heldGroups next = heldGroups old)
    (hpool : heldPool next = heldPool old) : GroupMove m dpRank g g old next where
  pages page := by rw [weigh_countPage, weigh_countPage, hgroups]
  numFree := by rw [weigh_poolSize, weigh_poolSize, hpool]
  elsewhere m' d _ := by
    refine ⟨fun page => ?_, ?_⟩
    · rw [weigh_countPage, weigh_countPage, hgroups]
    · rw [weigh_poolSize, weigh_poolSize, hpool]

theorem Partitioned.goOn (h : Partitioned s) (hid : s.calls.lookup id = old)
    (hgroups : heldGroups next = heldGroups old) (hpool : heldPool next = heldPool old)
    (hpending : next.bind Call.pendingFor = old.bind Call.pendingFor) :
    Partitioned (s.goOn id next) := by
  subst hid
  have hkeep : ∀ f : Call ModelId → Nat,
      weigh (ofCall f) 0 next = weigh (ofCall f) 0 (s.calls.lookup id) →
      tally (ofCall f) (s.goOn id next).calls = tally (ofCall f) s.calls := by
    intro f hf
    have hput := tally_put_ofCall f s.calls id next
    show tally (ofCall f) (put s.calls id next) = _
    omega
  refine ⟨fun m d page => ?_, fun m d => ?_, fun m => ?_, h.awake, h.given⟩
  · rw [hkeep _ (by rw [weigh_countPage, weigh_countPage, hgroups])]
    exact h.pages m d page
  · rw [hkeep _ (by rw [weigh_poolSize, weigh_poolSize, hpool])]
    exact h.numFree m d
  · have hweigh : ∀ call : Option (Call ModelId), weigh (ofCall (Call.pendingOps m)) 0 call =
        if call.bind Call.pendingFor = some m then 1 else 0 := by
      intro call
      cases call <;> rfl
    rw [hkeep _ (by rw [hweigh, hweigh, hpending])]
    exact h.pending m

theorem PendingMove.over {old : Call ModelId}
    (hpos : 0 < st.pendingMapOps) (hawake : st.isSleeping = false)
    (hold : old.pendingFor = some m) (hnext : next.bind Call.pendingFor = none) :
    PendingMove m st { st with pendingMapOps := st.pendingMapOps - 1 } (some old) next where
  own := by
    have hone : weigh (ofCall (Call.pendingOps m)) 0 (some old) = 1 := if_pos hold
    rw [hone, pendingOps_eq_zero hnext]
    show st.pendingMapOps - 1 + 1 = st.pendingMapOps
    omega
  elsewhere m' hne := by
    have hzero : weigh (ofCall (Call.pendingOps m')) 0 (some old) = 0 := if_neg (by simp [hold, hne.symm])
    rw [hzero, pendingOps_eq_zero hnext]
  awake hsleep := nomatch hawake.symm.trans hsleep

variable {p : WorkerPages}

theorem Partitioned.keepLists (h : Partitioned s) (hst : s.modelStates.lookup m = some st)
    (hid : s.calls.lookup id = old) (hlists : st'.dpGroupPages = st.dpGroupPages)
    (htotal : st'.numTotalVirtPages = st.numTotalVirtPages)
    (hpending : PendingMove m st st' old next) (hgroups : heldGroups next = heldGroups old)
    (hpool : heldPool next = heldPool old) : Partitioned (s.commit m st' p id next) := by
  refine @Partitioned.move ModelId _ s m st st' old next 0 id _ h hst hid rfl rfl htotal
    (fun d _ => by rw [hlists]) ?_ hpending (fun d page => ?_) (fun _ _ => rfl)
  · rw [hlists]
    exact .same hgroups hpool
  · rw [hlists]
    exact h.given_iff hst d page

/-- A call that holds no page and maps none. -/
def Call.Idle (call : Option (Call ModelId)) : Prop :=
  heldGroups call = [] ∧ heldPool call = [] ∧ call.bind Call.pendingFor = none

theorem Partitioned.quiet (h : Partitioned s) (hst : s.modelStates.lookup m = some st)
    (hid : s.calls.lookup id = old) (hlists : st'.dpGroupPages = st.dpGroupPages)
    (htotal : st'.numTotalVirtPages = st.numTotalVirtPages)
    (hpending : st'.pendingMapOps = st.pendingMapOps)
    (hawake : st'.isSleeping = true → st.isSleeping = true ∨ st'.pendingMapOps = 0)
    (hold : Call.Idle old) (hnext : Call.Idle next) :
    Partitioned (s.commit m st' p id next) := by
  have hzero : st'.isSleeping = true → st'.pendingMapOps = 0 := by
    intro hsleep
    rcases hawake hsleep with hasleep | hzero
    · rw [hpending, h.awake_of hst hasleep]
    · exact hzero
  exact h.keepLists hst hid hlists htotal (.of_none hpending hzero hold.2.2 hnext.2.2)
    (hnext.1.trans hold.1.symm) (hnext.2.1.trans hold.2.1.symm)

/-! ## Sections that move pages -/

@[simp] theorem setGroup_self (st : ModelState) (dpRank : Nat) (g : DpGroupPages) :
    (st.setGroup dpRank g).dpGroupPages dpRank = g := update_self ..

theorem setGroup_ne (st : ModelState) {d : Nat} (g : DpGroupPages) (h : d ≠ dpRank) :
    (st.setGroup dpRank g).dpGroupPages d = st.dpGroupPages d := update_of_ne h ..

variable {g' : DpGroupPages} {pages : List Nat}

theorem Partitioned.moveGroup (h : Partitioned s) (pending : Nat)
    (hst : s.modelStates.lookup m = some st) (hid : s.calls.lookup id = old)
    (hgroup : GroupMove m dpRank (st.dpGroupPages dpRank) g' old next)
    (hpending : PendingMove m st { st with pendingMapOps := pending } old next)
    (hgiven : ∀ page, page ∈ g'.allocatedVirtPageList ↔ page ∈ pages) :
    Partitioned { s.commit m ({ st with pendingMapOps := pending }.setGroup dpRank g') p id next with
      given := Function.update s.given m (Function.update (s.given m) dpRank pages) } := by
  refine h.move hst hid rfl rfl rfl (fun d hd => setGroup_ne _ _ hd) (by rw [setGroup_self]; exact hgroup)
    ⟨hpending.own, hpending.elsewhere, hpending.awake⟩ (fun d page => ?_)
    fun m' hne => update_of_ne hne ..
  show page ∈ _ ↔ page ∈ Function.update s.given m (Function.update (s.given m) dpRank pages) m d
  rw [update_self]
  by_cases hd : d = dpRank
  · subst hd
    rw [setGroup_self, update_self]
    exact hgiven page
  · rw [setGroup_ne _ _ hd, update_of_ne hd]
    exact h.given_iff hst d page

theorem Partitioned.moveFree (h : Partitioned s) (pending : Nat)
    (hst : s.modelStates.lookup m = some st) (hid : s.calls.lookup id = old)
    (hgroup : GroupMove m dpRank (st.dpGroupPages dpRank) g' old next)
    (hpending : PendingMove m st { st with pendingMapOps := pending } old next)
    (hallocated : g'.allocatedVirtPageList = (st.dpGroupPages dpRank).allocatedVirtPageList) :
    Partitioned
      (s.commit m ({ st with pendingMapOps := pending }.setGroup dpRank g') p id next) := by
  have hgiven : ∀ page, page ∈ g'.allocatedVirtPageList ↔ page ∈ s.given m dpRank := by
    intro page
    rw [hallocated]
    exact h.given_iff hst dpRank page
  have hmove := h.moveGroup (p := p) pending hst hid hgroup hpending hgiven
  rwa [update_eq_self, update_eq_self] at hmove

theorem Partitioned.once (h : Partitioned s)
    (hst : s.modelStates.lookup m = some st) (dpRank id page : Nat) :
    (st.dpGroupPages dpRank).countPage page +
      weigh (ofCall (Call.countPage m dpRank page)) 0 (s.calls.lookup id) ≤ 1 := by
  have hpages := h.pages m dpRank page
  have hle := weigh_le_tally (ofCall (Call.countPage m dpRank page)) s.calls id
  have hid : weigh (ofCall (Call.countPage m dpRank page)) id (s.calls.lookup id) =
      weigh (ofCall (Call.countPage m dpRank page)) 0 (s.calls.lookup id) := rfl
  rw [stateOf_eq hst] at hpages
  split at hpages <;> omega

theorem countPage_eq (g : DpGroupPages) (page : Nat) :
    g.countPage page = g.freeVirtPageList.count page + (g.reservedVirtPageList.count page +
      g.allocatedVirtPageList.count page) := by
  rw [DpGroupPages.countPage, DpGroupPages.mapped, count_append]

/-- A page that is somewhere else is not in the allocated list. -/
theorem Partitioned.notMem_allocated (h : Partitioned s)
    (hst : s.modelStates.lookup m = some st) (dpRank id page : Nat)
    (helse : 0 < (st.dpGroupPages dpRank).reservedVirtPageList.count page +
      weigh (ofCall (Call.countPage m dpRank page)) 0 (s.calls.lookup id)) :
    page ∉ (st.dpGroupPages dpRank).allocatedVirtPageList := by
  intro hmem
  have honce := h.once hst dpRank id page
  have hpos := count_pos_iff.mpr hmem
  rw [countPage_eq] at honce
  omega

variable {page : Nat}

/-- The page of a slow allocation is in no list. -/
theorem Partitioned.tracking_notMem (h : Partitioned s) (hst : s.modelStates.lookup m = some st)
    (hid : s.calls.lookup id = some (.allocTracking m dpRank page)) :
    page ∉ (st.dpGroupPages dpRank).allocatedVirtPageList := by
  refine h.notMem_allocated hst dpRank id page ?_
  rw [hid]
  simp [Call.countPage, Call.groups]

theorem Partitioned.reserved_notMem (h : Partitioned s) (hst : s.modelStates.lookup m = some st)
    (hreserved : page ∈ (st.dpGroupPages dpRank).reservedVirtPageList) :
    page ∉ (st.dpGroupPages dpRank).allocatedVirtPageList := by
  refine h.notMem_allocated hst dpRank 0 page ?_
  have := count_pos_iff.mpr hreserved
  omega

theorem Partitioned.pending_pos (h : Partitioned s)
    (hst : s.modelStates.lookup m = some st) {call : Call ModelId}
    (hid : s.calls.lookup id = some call) (hpending : call.pendingFor = some m) :
    0 < st.pendingMapOps ∧ st.isSleeping = false := by
  have hcount := h.pending m
  rw [stateOf_eq hst] at hcount
  have hle := weigh_le_tally (ofCall (Call.pendingOps m)) s.calls id
  have hone : weigh (ofCall (Call.pendingOps m)) id (s.calls.lookup id) = 1 := by
    rw [hid, weigh_some]
    exact if_pos hpending
  have hpos : 0 < st.pendingMapOps := by omega
  refine ⟨hpos, ?_⟩
  cases hsleep : st.isSleeping with
  | false => rfl
  | true =>
    have := h.awake_of hst hsleep
    omega

variable {cfg : Config}

theorem Partitioned.allocKvCachePage {s' : System ModelId} (h : Partitioned s)
    (hst : s.modelStates.lookup m = some st) (hid : s.calls.lookup id = none)
    (hok : allocKvCachePage cfg s id m dpRank st = .ok s') : Partitioned s' := by
  have hgiven := h.given_iff hst dpRank
  unfold XTensor.allocKvCachePage at hok
  dsimp only at hok
  split at hok
  · cases hok
  next hawake =>
  cases hreserved : (st.dpGroupPages dpRank).reservedVirtPageList with
  | cons page rest =>
    -- the page is mapped already and is handed out at once
    rw [hreserved] at hok
    cases hok
    have hnot : page ∉ (st.dpGroupPages dpRank).allocatedVirtPageList :=
      h.reserved_notMem hst (by rw [hreserved]; exact mem_cons_self)
    refine h.moveGroup st.pendingMapOps hst hid ⟨fun p => ?_, ?_, fun m' d _ => ⟨fun _ => rfl, rfl⟩⟩
      (.of_none rfl (fun hsleep => absurd hsleep hawake) rfl rfl) fun p => ?_
    · rw [countPage_eq, countPage_eq, hreserved, insert_of_not_mem hnot]
      simp only [count_cons, weigh_none]
      omega
    · have hfree := h.numFree m dpRank
      rw [stateOf_eq hst, DpGroupPages.poolSize, hreserved, length_cons] at hfree
      rw [DpGroupPages.poolSize, DpGroupPages.poolSize, hreserved, length_cons]
      simp only [weigh_none]
      omega
    · rw [mem_insert_iff, hgiven, mem_cons]
      exact Iff.rfl
  | nil =>
    cases hfree : (st.dpGroupPages dpRank).freeVirtPageList with
    | nil =>
      rw [hreserved, hfree] at hok
      cases hok
      exact h
    | cons page rest =>
      rw [hreserved, hfree] at hok
      dsimp only at hok
      split at hok
      · cases hok
        exact h
      · cases hok
        have hnum := h.numFree m dpRank
        rw [stateOf_eq hst, DpGroupPages.poolSize, hreserved, hfree, length_cons] at hnum
        refine h.moveFree (st.pendingMapOps + 1) hst hid
          ⟨fun p => ?_, ?_, fun m' d hne => ?_⟩
          ⟨?_, fun m' hne => ?_, fun hsleep => absurd hsleep hawake⟩ rfl
        · rw [countPage_eq, countPage_eq, hreserved, hfree]
          simp only [count_cons, weigh_none, weigh_some, Call.countPage, Call.groups,
            groupSum_cons, groupSum_nil, and_self, if_true, count_nil]
          omega
        · rw [DpGroupPages.poolSize, DpGroupPages.poolSize, hreserved, hfree, length_cons]
          simp only [weigh_none, weigh_some, Call.poolSize, Call.poolGroups, groupSum_nil]
          omega
        · simp [Call.countPage, Call.groups, Call.poolSize, Call.poolGroups, hne]
        · simp [Call.pendingOps, Call.pendingFor]
        · simp [Call.pendingOps, Call.pendingFor, hne.symm]

theorem elsewhere_of_single (hold : heldGroups old = [(m, dpRank, pages)] ∨ heldGroups old = [])
    (hnext : heldGroups next = [(m, dpRank, pages)] ∨ heldGroups next = [])
    (hpool : heldPool old = heldGroups old ∨ heldPool old = [])
    (hpool' : heldPool next = heldGroups next ∨ heldPool next = []) (m' : ModelId) (d : Nat)
    (hne : ¬ (m = m' ∧ dpRank = d)) :
    (∀ page, weigh (ofCall (Call.countPage m' d page)) 0 next =
      weigh (ofCall (Call.countPage m' d page)) 0 old) ∧
    weigh (ofCall (Call.poolSize m' d)) 0 next = weigh (ofCall (Call.poolSize m' d)) 0 old := by
  have hzero : ∀ (f : List Nat → Nat) (groups : List (ModelId × Nat × List Nat)),
      groups = [(m, dpRank, pages)] ∨ groups = [] → groupSum f m' d groups = 0 := by
    rintro f groups (rfl | rfl)
    · simp [hne]
    · rfl
  have hpoolZero : ∀ call : Option (Call ModelId),
      heldGroups call = [(m, dpRank, pages)] ∨ heldGroups call = [] →
      heldPool call = heldGroups call ∨ heldPool call = [] →
      groupSum List.length m' d (heldPool call) = 0 := by
    intro call hcall hpool
    refine hzero _ _ ?_
    rcases hpool with hpool | hpool
    · rw [hpool]
      exact hcall
    · exact Or.inr hpool
  refine ⟨fun page => ?_, ?_⟩
  · rw [weigh_countPage, weigh_countPage, hzero _ _ hold, hzero _ _ hnext]
  · rw [weigh_poolSize, weigh_poolSize, hpoolZero _ hold hpool, hpoolZero _ hnext hpool']

theorem Partitioned.allocMapped (h : Partitioned s) {mapSuccess : Bool}
    (hst : s.modelStates.lookup m = some st)
    (hid : s.calls.lookup id = some (.allocMapped m dpRank page mapSuccess)) :
    Partitioned (allocMapped cfg s id m dpRank page mapSuccess st) := by
  obtain ⟨hpos, hawake⟩ := h.pending_pos hst hid rfl
  unfold XTensor.allocMapped
  split
  · exact h.keepLists hst hid rfl rfl (.over hpos hawake rfl rfl) rfl rfl
  · refine h.moveFree _ hst hid ⟨fun p => ?_, ?_,
      elsewhere_of_single (Or.inl rfl) (Or.inr rfl) (Or.inr rfl) (Or.inr rfl)⟩
      (.over hpos hawake rfl rfl) rfl
    · rw [countPage_eq, countPage_eq]
      simp only [weigh_none, weigh_some, ofCall, Call.countPage, Call.groups, groupSum_cons,
        groupSum_nil, and_self, if_true, count_cons, count_nil]
      omega
    · simp only [weigh_none, weigh_some, ofCall, Call.poolSize, Call.poolGroups, groupSum_nil,
        DpGroupPages.poolSize, length_cons]
      omega

theorem Partitioned.allocTracking (h : Partitioned s) (hst : s.modelStates.lookup m = some st)
    (hid : s.calls.lookup id = some (.allocTracking m dpRank page)) :
    Partitioned (allocTracking s id m dpRank page st) := by
  have hgiven := h.given_iff hst dpRank
  have hawake := h.awake_of hst
  have hnot := h.tracking_notMem hst hid
  refine h.moveGroup st.pendingMapOps hst hid ⟨fun p => ?_, ?_,
    elsewhere_of_single (Or.inl rfl) (Or.inr rfl) (Or.inr rfl) (Or.inr rfl)⟩
    (.of_none rfl hawake rfl rfl) fun p => ?_
  · rw [countPage_eq, countPage_eq, insert_of_not_mem hnot]
    simp only [weigh_none, weigh_some, ofCall, Call.countPage, Call.groups, groupSum_cons,
      groupSum_nil, and_self, if_true, count_cons, count_nil]
    omega
  · simp [Call.poolSize, Call.poolGroups, DpGroupPages.poolSize]
  · rw [mem_insert_iff, hgiven, mem_cons]
    exact Iff.rfl

/-! ### Freeing, trimming and unmapping -/

theorem heldGroups_unmapCall (m : ModelId) (dpRank : Nat) (pages : List Nat) :
    (unmapCall m dpRank pages = none ∧ pages = []) ∨
      unmapCall m dpRank pages = some (.unmapping m dpRank pages) := by
  unfold unmapCall
  split
  · next hnil => exact Or.inl ⟨rfl, hnil⟩
  · exact Or.inr rfl

theorem weigh_unmapCall (m : ModelId) (dpRank : Nat) (pages : List Nat) :
    (∀ page, weigh (ofCall (Call.countPage m dpRank page)) 0 (unmapCall m dpRank pages) =
      pages.count page) ∧
    weigh (ofCall (Call.poolSize m dpRank)) 0 (unmapCall m dpRank pages) = pages.length := by
  rcases heldGroups_unmapCall m dpRank pages with ⟨hcall, rfl⟩ | hcall
  · exact ⟨fun _ => rfl, rfl⟩
  · rw [hcall]
    simp [Call.countPage, Call.poolSize, Call.groups, Call.poolGroups]

/-- A call that begins to unmap pages: the group has lost them, or keeps them counted as free. -/
theorem GroupMove.unmap (hpages : ∀ page, g'.countPage page + pages.count page = g.countPage page)
    (hfree : g'.numFreeVirtPages + g.poolSize = g.numFreeVirtPages + g'.poolSize + pages.length) :
    GroupMove m dpRank g g' none (unmapCall m dpRank pages) where
  pages page := by
    rw [(weigh_unmapCall m dpRank pages).1, hpages, weigh_none, Nat.add_zero]
  numFree := by
    rw [(weigh_unmapCall m dpRank pages).2, hfree, weigh_none, Nat.add_zero]
  elsewhere := by
    rcases heldGroups_unmapCall m dpRank pages with ⟨hcall, rfl⟩ | hcall
    · exact fun _ _ _ => ⟨fun _ => rfl, rfl⟩
    · rw [hcall]
      exact elsewhere_of_single (Or.inr rfl) (Or.inl rfl) (Or.inr rfl) (Or.inl rfl)

theorem PendingMove.unmap (h : Partitioned s)
    (hst : s.modelStates.lookup m = some st) (pages : List Nat) :
    PendingMove m st { st with pendingMapOps := st.pendingMapOps } none
      (unmapCall m dpRank pages) := by
  have hawake := h.awake_of hst
  refine .of_none rfl hawake rfl ?_
  rcases heldGroups_unmapCall m dpRank pages with ⟨hcall, -⟩ | hcall
  · rw [hcall, Option.bind_none]
  · rw [hcall]
    rfl

theorem count_filter_notMem (pages allocated : List Nat) (page : Nat) :
    (allocated.filter fun page => page ∉ pages).count page =
      if page ∈ pages then 0 else allocated.count page := by
  split
  · next hmem =>
    refine count_eq_zero_of_not_mem fun hin => ?_
    simpa [hmem] using (mem_filter.mp hin).2
  · next hmem => exact count_filter (by simpa using hmem)

/-- The pages a caller frees are in the allocated list, each once. -/
theorem Partitioned.freed (h : Partitioned s) (hst : s.modelStates.lookup m = some st)
    (hnodup : pages.Nodup) (hmine : ∀ page ∈ pages, page ∈ s.given m dpRank) (page : Nat) :
    ((st.dpGroupPages dpRank).allocatedVirtPageList.filter fun page => page ∉ pages).count page +
        pages.count page =
      (st.dpGroupPages dpRank).allocatedVirtPageList.count page := by
  have hgiven := h.given_iff hst dpRank
  have honce := h.once hst dpRank 0 page
  rw [countPage_eq] at honce
  rw [count_filter_notMem]
  by_cases hmem : page ∈ pages
  · have hin := count_pos_iff.mpr ((hgiven page).mpr (hmine page hmem))
    rw [count_eq_one_of_mem hnodup hmem, if_pos hmem]
    omega
  · rw [count_eq_zero_of_not_mem hmem, if_neg hmem, Nat.add_zero]

theorem Partitioned.freeKvCachePages (h : Partitioned s)
    (hst : s.modelStates.lookup m = some st) (hid : s.calls.lookup id = none)
    (hnodup : pages.Nodup) (hmine : ∀ page ∈ pages, page ∈ s.given m dpRank) :
    Partitioned (freeKvCachePages s id m dpRank pages st) := by
  have hgiven := h.given_iff hst dpRank
  have hcount := h.freed hst hnodup hmine
  unfold XTensor.freeKvCachePages
  dsimp only
  generalize (if st.isSleeping = true then 0
    else min (numToReserve (st.dpGroupPages dpRank).reservedVirtPageList.length) pages.length) = kept
  have hsplit : ∀ page, (pages.take kept).count page + (pages.drop kept).count page =
      pages.count page := by
    intro page
    rw [← count_append, take_append_drop]
  have hlength : (pages.take kept).length + (pages.drop kept).length = pages.length := by
    rw [← length_append, take_append_drop]
  refine h.moveGroup st.pendingMapOps hst hid (.unmap (fun page => ?_) ?_) (.unmap h hst _)
    fun page => ?_
  · have hkept := hcount page
    have := hsplit page
    rw [countPage_eq, countPage_eq]
    dsimp only
    rw [count_append]
    omega
  · simp only [DpGroupPages.poolSize, length_append]
    omega
  · show _ ↔ page ∈ (s.given m dpRank).filter fun page => page ∉ pages
    rw [mem_filter, mem_filter, hgiven]

theorem Partitioned.trimKvCache (h : Partitioned s) (hst : s.modelStates.lookup m = some st)
    (hid : s.calls.lookup id = none) : Partitioned (trimKvCache s id m dpRank st) := by
  refine h.moveFree st.pendingMapOps hst hid (.unmap (fun page => ?_) ?_) (.unmap h hst _) rfl
  · rw [countPage_eq, countPage_eq]
    simp only [count_nil]
    omega
  · simp only [DpGroupPages.poolSize, length_nil]
    omega

theorem Partitioned.unmapped (h : Partitioned s) {unmapSuccess : Bool}
    (hst : s.modelStates.lookup m = some st)
    (hid : s.calls.lookup id = some (.unmapped m dpRank pages unmapSuccess)) :
    Partitioned (unmapped cfg s id m dpRank pages unmapSuccess st) := by
  have hawake := h.awake_of hst
  have hpending : PendingMove m st { st with pendingMapOps := st.pendingMapOps }
      (some (.unmapped m dpRank pages unmapSuccess)) none :=
    .of_none rfl hawake rfl rfl
  -- the pages go to one list or the other
  have hgroup : ∀ g' : DpGroupPages,
      (∀ page, g'.countPage page = (st.dpGroupPages dpRank).countPage page + pages.count page) →
      g'.numFreeVirtPages = (st.dpGroupPages dpRank).numFreeVirtPages →
      g'.poolSize = (st.dpGroupPages dpRank).poolSize + pages.length →
      GroupMove m dpRank (st.dpGroupPages dpRank) g'
        (some (.unmapped m dpRank pages unmapSuccess)) none := by
    intro g' hpages hfree hpool
    refine ⟨fun page => ?_, ?_, elsewhere_of_single (Or.inl rfl) (Or.inr rfl) (Or.inl rfl)
      (Or.inr rfl)⟩
    · rw [hpages]
      simp [Call.countPage, Call.groups]
    · simp [Call.poolSize, Call.poolGroups, Call.groups]
      omega
  unfold XTensor.unmapped
  split
  · refine h.moveFree st.pendingMapOps hst hid (hgroup _ (fun page => ?_) rfl ?_) hpending rfl
    · simp only [countPage_eq, count_append]
      omega
    · simp only [DpGroupPages.poolSize, length_append]
      omega
  · refine h.moveFree st.pendingMapOps hst hid (hgroup _ (fun page => ?_) rfl ?_) hpending rfl
    · simp only [countPage_eq, count_append]
      omega
    · simp only [DpGroupPages.poolSize, length_append]
      omega

/-! ### The preallocation worker -/

theorem heldGroups_preallocCall (todo : List (ModelId × Nat × List Nat)) :
    heldGroups (preallocCall todo) = todo ∧ heldPool (preallocCall todo) = todo ∧
      (preallocCall todo).bind Call.pendingFor = none := by
  unfold preallocCall
  split
  · next hnil =>
    subst hnil
    exact ⟨rfl, rfl, rfl⟩
  · exact ⟨rfl, rfl, rfl⟩

variable {todo : List (ModelId × Nat × List Nat)}

theorem GroupMove.handBack (hold : heldGroups old = (m, dpRank, pages) :: todo)
    (holdPool : heldPool old = (m, dpRank, pages) :: todo) (hnext : heldGroups next = todo)
    (hnextPool : heldPool next = todo)
    (hpages : ∀ page, g'.countPage page = g.countPage page + pages.count page)
    (hfree : g'.numFreeVirtPages = g.numFreeVirtPages)
    (hpool : g'.poolSize = g.poolSize + pages.length) : GroupMove m dpRank g g' old next where
  pages page := by
    rw [weigh_countPage, weigh_countPage, hold, hnext, hpages, groupSum_cons]
    simp only [and_self, if_true]
    omega
  numFree := by
    rw [weigh_poolSize, weigh_poolSize, holdPool, hnextPool, hfree, hpool, groupSum_cons]
    simp only [and_self, if_true]
    omega
  elsewhere m' d hne := by
    refine ⟨fun page => ?_, ?_⟩
    · rw [weigh_countPage, weigh_countPage, hold, hnext, groupSum_cons, if_neg hne, Nat.zero_add]
    · rw [weigh_poolSize, weigh_poolSize, holdPool, hnextPool, groupSum_cons, if_neg hne,
        Nat.zero_add]

theorem returnPages_counts (g : DpGroupPages) (pages : List Nat) :
    (∀ page, (returnPages g pages).countPage page = g.countPage page + pages.count page) ∧
      (returnPages g pages).poolSize = g.poolSize + pages.length := by
  refine ⟨fun page => ?_, ?_⟩
  · simp only [returnPages, countPage_eq, count_append]
    omega
  · simp only [returnPages, DpGroupPages.poolSize, length_append]
    omega

theorem Partitioned.reserveForGroup (h : Partitioned s)
    (id : Nat) (group : ModelId × Nat) : Partitioned (reserveForGroup cfg id s group) := by
  obtain ⟨m, dpRank⟩ := group
  unfold XTensor.reserveForGroup
  dsimp only
  split
  next st todo hst hid =>
    generalize min (min (minReservedPages - (st.dpGroupPages dpRank).reservedVirtPageList.length)
      (st.dpGroupPages dpRank).freeVirtPageList.length)
      (s.workerPages.minFreePagesInRange cfg (st.dpGroupWorkerRange cfg dpRank) /
        st.phyPagesPerVirtPage) = toReserve
    split
    · exact h
    · next hawake =>
      split
      · exact h
      · have hcount : ∀ page, ((st.dpGroupPages dpRank).freeVirtPageList.take toReserve).count page +
            ((st.dpGroupPages dpRank).freeVirtPageList.drop toReserve).count page =
            (st.dpGroupPages dpRank).freeVirtPageList.count page := by
          intro page
          rw [← count_append, take_append_drop]
        have hlength : ((st.dpGroupPages dpRank).freeVirtPageList.take toReserve).length +
            ((st.dpGroupPages dpRank).freeVirtPageList.drop toReserve).length =
            (st.dpGroupPages dpRank).freeVirtPageList.length := by
          rw [← length_append, take_append_drop]
        refine h.moveFree st.pendingMapOps hst hid
          ⟨fun page => ?_, ?_, fun m' d hne => ⟨fun page => ?_, ?_⟩⟩
          (.of_none rfl (fun hsleep => absurd (Or.inl hsleep) hawake) rfl rfl) rfl
        · have := hcount page
          rw [weigh_countPage, weigh_countPage]
          simp only [heldGroups, Option.elim, Call.groups, groupSum_append, groupSum_cons,
            groupSum_nil, and_self, if_true, countPage_eq]
          omega
        · rw [weigh_poolSize, weigh_poolSize]
          simp only [heldPool, Option.elim, Call.poolGroups, Call.groups, groupSum_append,
            groupSum_cons, groupSum_nil, and_self, if_true, DpGroupPages.poolSize]
          omega
        · rw [weigh_countPage, weigh_countPage]
          simp [heldGroups, Call.groups, hne]
        · rw [weigh_poolSize, weigh_poolSize]
          simp [heldPool, Call.poolGroups, Call.groups, hne]
  next => exact h

theorem Partitioned.goOnIdle (h : Partitioned s) (hid : s.calls.lookup id = old)
    (hold : Call.Idle old) (hnext : Call.Idle next) : Partitioned (s.goOn id next) :=
  h.goOn hid (hnext.1.trans hold.1.symm) (hnext.2.1.trans hold.2.1.symm)
    (hnext.2.2.trans hold.2.2.symm)

theorem Partitioned.preallocCollect (h : Partitioned s)
    (hid : s.calls.lookup id = none) (order : List ModelId) :
    Partitioned (preallocCollect cfg s id order) := by
  apply preallocCollect_induction order
  · exact h.goOnIdle hid ⟨rfl, rfl, rfl⟩ ⟨rfl, rfl, rfl⟩
  · exact fun s group _ h => h.reserveForGroup id group
  · exact fun s hdone h => h.goOnIdle hdone ⟨rfl, rfl, rfl⟩ ⟨rfl, rfl, rfl⟩

theorem Partitioned.preallocNext (h : Partitioned s) (hst : s.modelStates.lookup m = some st)
    (hid : s.calls.lookup id = some (.preallocNext ((m, dpRank, pages) :: todo))) :
    Partitioned (preallocNext cfg s id m dpRank pages todo st) := by
  have hawake := h.awake_of hst
  obtain ⟨hgroups, hpool, hpending⟩ := heldGroups_preallocCall todo
  obtain ⟨hreturn, hreturnPool⟩ := returnPages_counts (st.dpGroupPages dpRank) pages
  unfold XTensor.preallocNext
  split
  · exact h.moveFree st.pendingMapOps hst hid
      (.handBack rfl rfl hgroups hpool hreturn rfl hreturnPool) (.of_none rfl hawake rfl hpending) rfl
  · next hsleep =>
    refine h.keepLists hst hid rfl rfl ⟨?_, fun m' hne => ?_, fun hs => absurd hs hsleep⟩ rfl rfl
    · simp [Call.pendingOps, Call.pendingFor]
    · simp [Call.pendingOps, Call.pendingFor, hne.symm]

/-- The pages are never dropped: a model does not fall asleep while its pages are being mapped. -/
theorem Partitioned.preallocMapped (h : Partitioned s) {mapSuccess : Bool}
    (hst : s.modelStates.lookup m = some st)
    (hid : s.calls.lookup id = some (.preallocMapped m dpRank pages mapSuccess todo)) :
    Partitioned (preallocMapped cfg s id m dpRank pages mapSuccess todo st) := by
  obtain ⟨hpos, hawake⟩ := h.pending_pos hst hid rfl
  obtain ⟨hgroups, hpool, hpending⟩ := heldGroups_preallocCall todo
  obtain ⟨hreturn, hreturnPool⟩ := returnPages_counts (st.dpGroupPages dpRank) pages
  have hover : PendingMove m st { st with pendingMapOps := st.pendingMapOps - 1 }
      (some (.preallocMapped m dpRank pages mapSuccess todo)) (preallocCall todo) :=
    .over hpos hawake rfl hpending
  unfold XTensor.preallocMapped
  dsimp only
  split
  · exact h.moveFree _ hst hid (.handBack rfl rfl hgroups hpool hreturn rfl hreturnPool) hover rfl
  · split
    · refine h.moveFree _ hst hid (.handBack rfl rfl hgroups hpool (fun page => ?_) rfl ?_) hover rfl
      · simp only [countPage_eq, count_append]
        omega
      · simp only [DpGroupPages.poolSize, length_append]
        omega
    · next hsleep => exact absurd hawake (by simpa using hsleep)

/-! ## Every step -/

/-- Callers free pages they were given, each once. -/
def Disciplined (s : System ModelId) : Label ModelId → Prop
  | .freeKvCachePages _ m dpRank pages => pages.Nodup ∧ ∀ page ∈ pages, page ∈ s.given m dpRank
  | _ => True

instance (s : System ModelId) (label : Label ModelId) : Decidable (Disciplined s label) := by
  cases label <;> unfold Disciplined <;> infer_instance

theorem Partitioned.fallAsleep (h : Partitioned s) {skipWeightRelease : Bool}
    (hst : s.modelStates.lookup m = some st) (hid : s.calls.lookup id = old) (hold : Call.Idle old)
    (hpending : ¬ 0 < st.pendingMapOps) :
    Partitioned (fallAsleep cfg s id m skipWeightRelease st) := by
  refine h.quiet hst hid rfl rfl rfl (fun _ => Or.inr (Nat.eq_zero_of_not_pos hpending)) hold ?_
  split <;> exact ⟨rfl, rfl, rfl⟩

/-- Registering a model makes all its pages free, and replacing other fields moves no page. -/
theorem Partitioned.withModel (h : Partitioned s)
    (hpages : ∀ dpRank page, (st'.dpGroupPages dpRank).countPage page +
        (if page < (s.stateOf m).numTotalVirtPages then 1 else 0) =
      ((s.stateOf m).dpGroupPages dpRank).countPage page +
        if page < st'.numTotalVirtPages then 1 else 0)
    (hfree : ∀ dpRank, (st'.dpGroupPages dpRank).numFreeVirtPages +
        ((s.stateOf m).dpGroupPages dpRank).poolSize =
      ((s.stateOf m).dpGroupPages dpRank).numFreeVirtPages + (st'.dpGroupPages dpRank).poolSize)
    (hpending : st'.pendingMapOps = (s.stateOf m).pendingMapOps)
    (hawake : st'.isSleeping = true → st'.pendingMapOps = 0)
    (hallocated : ∀ dpRank, (st'.dpGroupPages dpRank).allocatedVirtPageList =
      ((s.stateOf m).dpGroupPages dpRank).allocatedVirtPageList) :
    Partitioned { s with modelStates := s.modelStates.insert m st' } := by
  have hself : System.stateOf { s with modelStates := s.modelStates.insert m st' } m = st' := by
    rw [stateOf_insert, if_pos rfl]
  have hother : ∀ m', m' ≠ m →
      System.stateOf { s with modelStates := s.modelStates.insert m st' } m' = s.stateOf m' := by
    intro m' hne
    rw [stateOf_insert, if_neg hne]
  refine ⟨fun m' d page => ?_, fun m' d => ?_, fun m' => ?_, fun m' => ?_, fun m' d page => ?_⟩
  · have hinv := h.pages m' d page
    by_cases hm : m' = m
    · subst hm
      have := hpages d page
      rw [hself]
      dsimp only
      omega
    · rw [hother m' hm]
      exact hinv
  · have hinv := h.numFree m' d
    by_cases hm : m' = m
    · subst hm
      have := hfree d
      rw [hself]
      dsimp only
      omega
    · rw [hother m' hm]
      exact hinv
  · by_cases hm : m' = m
    · subst hm
      rw [hself, hpending]
      exact h.pending m'
    · rw [hother m' hm]
      exact h.pending m'
  · by_cases hm : m' = m
    · subst hm
      rw [hself]
      exact hawake
    · rw [hother m' hm]
      exact h.awake m'
  · by_cases hm : m' = m
    · subst hm
      rw [hself, hallocated]
      exact h.given m' d page
    · rw [hother m' hm]
      exact h.given m' d page

theorem registered_countPage (cfg : Config) (numLayers dpRank page : Nat) :
    ((ModelState.registered cfg numLayers).dpGroupPages dpRank).countPage page =
      if page < (ModelState.registered cfg numLayers).numTotalVirtPages then 1 else 0 := by
  split
  · next h => exact count_eq_one_of_mem nodup_range (mem_range.mpr h)
  · next h => exact count_eq_zero_of_not_mem fun hmem => h (mem_range.mp hmem)

theorem Partitioned.registerModel (h : Partitioned s)
    (hm : s.modelStates.lookup m = none) (numLayers : Nat) :
    Partitioned { s with modelStates := s.modelStates.insert m (.registered cfg numLayers) } := by
  have habsent : s.stateOf m = .absent := by
    rw [System.stateOf, hm, Option.getD_none]
  refine h.withModel (fun d page => ?_) (fun d => ?_) ?_ (fun _ => rfl) fun d => ?_
  · rw [registered_countPage, habsent]
    simp [ModelState.absent, countPage_eq]
  · rw [habsent]
    simp [ModelState.absent, ModelState.registered, DpGroupPages.poolSize]
  · rw [habsent]
    rfl
  · rw [habsent]
    rfl

theorem Partitioned.setFields (h : Partitioned s) (hst : s.modelStates.lookup m = some st)
    (hlists : st'.dpGroupPages = st.dpGroupPages)
    (htotal : st'.numTotalVirtPages = st.numTotalVirtPages)
    (hpending : st'.pendingMapOps = st.pendingMapOps) (hsleep : st'.isSleeping = st.isSleeping) :
    Partitioned { s with modelStates := s.modelStates.insert m st' } := by
  have hstate := stateOf_eq hst
  refine h.withModel (fun d page => ?_) (fun d => ?_) ?_ ?_ fun d => ?_
  · rw [hstate, hlists, htotal]
  · rw [hstate, hlists]
  · rw [hstate, hpending]
  · rw [hsleep, hpending]
    exact h.awake_of hst
  · rw [hstate, hlists]

omit [DecidableEq ModelId] in
theorem heldGroups_wakeNext (m : ModelId) (groups : List (Nat × List Nat)) (weightPages : Nat) :
    Call.Idle (some (wakeNext m groups weightPages)) := by
  unfold wakeNext
  split <;> exact ⟨rfl, rfl, rfl⟩

theorem Partitioned.broadcast (h : Partitioned s) {success : Bool}
    {call : Call ModelId} (hid : s.calls.lookup id = some call)
    (hnext : call.returned success = some next) : Partitioned (s.goOn id next) := by
  have hwake : ∀ (m : ModelId) groups weightPages,
      Call.Idle (if success = true then some (wakeNext m groups weightPages) else none) := by
    intro m groups weightPages
    split
    · exact heldGroups_wakeNext m groups weightPages
    · exact ⟨rfl, rfl, rfl⟩
  unfold Call.returned at hnext
  split at hnext <;> cases hnext
  case h_7 => exact h.goOnIdle hid ⟨rfl, rfl, rfl⟩ ⟨rfl, rfl, rfl⟩
  case h_8 => exact h.goOnIdle hid ⟨rfl, rfl, rfl⟩ (hwake _ _ _)
  all_goals first
    | exact h.goOn hid rfl rfl rfl
    | exact h.goOnIdle hid ⟨rfl, rfl, rfl⟩ (by split <;> exact ⟨rfl, rfl, rfl⟩)

theorem Partitioned.step (s : System ModelId) (label : Label ModelId)
    (s' : System ModelId) (h : Partitioned s) (hmine : Disciplined s label)
    (hstep : s.step cfg label = .ok s') : Partitioned s' := by
  cases step_cases hstep with
  | idle => exact h
  | registerModel numLayers hm => exact h.registerModel hm numLayers
  | setModelParallelStrategy dpSize tpSize hst => exact h.setFields hst rfl rfl rfl rfl
  | setWeightPagesCount n hst => exact h.setFields hst rfl rfl rfl rfl
  | allocKvCachePage hid hdp hst hok => exact h.allocKvCachePage hst hid hok
  | freeKvCachePages pages hid hdp hst => exact h.freeKvCachePages hst hid hmine.1 hmine.2
  | trimKvCache hid hdp hst => exact h.trimKvCache hst hid
  | allocWeightPages n hid hst =>
    unfold allocWeightPages
    dsimp only
    split
    · exact h
    · exact h.quiet hst hid rfl rfl rfl Or.inl ⟨rfl, rfl, rfl⟩ ⟨rfl, rfl, rfl⟩
  | freeWeightPages m n hid => exact h.goOnIdle hid ⟨rfl, rfl, rfl⟩ ⟨rfl, rfl, rfl⟩
  | beginSleep m skipWeightRelease hid => exact h.goOnIdle hid ⟨rfl, rfl, rfl⟩ ⟨rfl, rfl, rfl⟩
  | sleepModel skipWeightRelease hid hst hawake hpending =>
    exact h.fallAsleep hst hid ⟨rfl, rfl, rfl⟩ hpending
  | wakeupModel hid hst =>
    unfold wakeupModel
    dsimp only
    split
    · exact h
    · exact h.quiet hst hid rfl rfl rfl Or.inl ⟨rfl, rfl, rfl⟩ (heldGroups_wakeNext ..)
  | preallocCollect order hid => exact h.preallocCollect hid order
  | broadcast hid hnext => exact h.broadcast hid hnext
  | allocMapped hid hst => exact h.allocMapped hst hid
  | allocTracking hid hst => exact h.allocTracking hst hid
  | unmapped hid hst => exact h.unmapped hst hid
  | preallocNext hid hst => exact h.preallocNext hst hid
  | preallocMapped hid hst => exact h.preallocMapped hst hid
  | weightsFreed hid hst =>
    exact h.quiet hst hid rfl rfl rfl Or.inl ⟨rfl, rfl, rfl⟩ ⟨rfl, rfl, rfl⟩
  | sleepWaiting hid hst hpending =>
    exact h.fallAsleep hst hid ⟨rfl, rfl, rfl⟩ hpending
  | sleepFreedWeights hid hst =>
    exact h.quiet hst hid rfl rfl rfl Or.inl ⟨rfl, rfl, rfl⟩ ⟨rfl, rfl, rfl⟩
  | sleepUnmapped hid hst =>
    exact h.quiet hst hid rfl rfl rfl Or.inl ⟨rfl, rfl, rfl⟩ ⟨rfl, rfl, rfl⟩
  | wakeMapped hid hst =>
    exact h.quiet hst hid rfl rfl rfl nofun ⟨rfl, rfl, rfl⟩ ⟨rfl, rfl, rfl⟩

end Xllm.XTensor
