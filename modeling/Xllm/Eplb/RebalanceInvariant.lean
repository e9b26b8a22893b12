import Xllm.Eplb.RebalanceSteps

/-!
# The invariant of the rounds

`Rounds` has four parts. `SlotOrder` says where the layers are: the awaiting one is before the pending
one, which is before the active one, and the layers behind the active one are idle. `Copies` relates
the three placements of a layer, those of the policy, of the manager and of the workers. `Attempt` ties
the tokens to the history. `Counts` is the accounting.

A layer is in at most one slot, because the slots are ordered; so a step that empties a slot takes one
layer out of flight and no other (`inFlight_of_left`), and the three counts of that layer move together
(`settled_of_left`).
-/

namespace Xllm.Framework

open Xllm.Lib List Function

/-- The slots hold layers in the order in which the round takes them: a layer is enabled, active,
pending and awaited in turn, and the layers of a round go through in increasing order. -/
structure SlotOrder (m : EplbManager) : Prop where
  policy : m.policy.layerNum = m.layerNum
  enabled : ∀ layer, m.enableUpdateVec layer = true → layer < m.layerNum
  active : ∀ active, m.activeLayerId = some active → m.enableUpdateVec active = true
  later : ∀ active layer, m.activeLayerId = some active → active < layer →
    m.layerStates layer = .idle
  pending : ∀ pending, m.pendingActivationLayerId = some pending →
    pending < m.layerNum ∧ ∀ active, m.activeLayerId = some active → pending < active
  awaiting : ∀ awaiting, m.activationAwaitingLoadSampleLayerId = some awaiting →
    awaiting < m.layerNum ∧ (∀ active, m.activeLayerId = some active → awaiting < active) ∧
      ∀ pending, m.pendingActivationLayerId = some pending → awaiting < pending

/-! ## A layer moves through the slots

`complete_prepare` moves the active layer to the pending slot, which loses the layer that is there:
the slot has to be empty for the layers of the round to be the same afterwards. -/

section

variable {m : EplbManager} {layer : Nat}

theorem inRound_iff : m.inRound layer = true ↔
    (∃ active, m.activeLayerId = some active ∧ active ≤ layer ∧ m.enableUpdateVec layer = true) ∨
      m.pendingActivationLayerId = some layer ∨
      m.activationAwaitingLoadSampleLayerId = some layer := by
  unfold EplbManager.inRound
  rw [Bool.or_eq_true, Bool.or_eq_true, decide_eq_true_eq, decide_eq_true_eq, or_assoc,
    Option.any_eq_true]
  constructor
  · rintro (⟨active, hactive, h⟩ | h)
    · rw [Bool.and_eq_true, decide_eq_true_eq] at h
      exact .inl ⟨active, hactive, h⟩
    · exact .inr h
  · rintro (⟨active, hactive, h⟩ | h)
    · refine .inl ⟨active, hactive, ?_⟩
      rw [Bool.and_eq_true, decide_eq_true_eq]
      exact h
    · exact .inr h

theorem SlotOrder.inRound_active (h : SlotOrder m) (hactive : m.activeLayerId = some layer) :
    m.inRound layer = true :=
  inRound_iff.mpr (.inl ⟨layer, hactive, Nat.le_refl _, h.active layer hactive⟩)

/-- The layers at or behind the next enabled one are the enabled layers from `start` on. -/
theorem findNextTrue_iff {enableUpdateVec : Nat → Bool} {start : Nat}
    (h : ∀ layer, enableUpdateVec layer = true → layer < m.layerNum) :
    (∃ active, m.findNextTrue enableUpdateVec start = some active ∧ active ≤ layer ∧
        enableUpdateVec layer = true) ↔ start ≤ layer ∧ enableUpdateVec layer = true := by
  constructor
  · rintro ⟨active, hnext, hle, hvec⟩
    exact ⟨Nat.le_trans (findNextTrue_some hnext).1 hle, hvec⟩
  · rintro ⟨hstart, hvec⟩
    cases hnext : m.findNextTrue enableUpdateVec start with
    | none =>
      rw [findNextTrue_none hnext hstart (h layer hvec)] at hvec
      cases hvec
    | some active =>
      refine ⟨active, rfl, Nat.le_of_not_lt fun hlt => ?_, hvec⟩
      rw [(findNextTrue_some hnext).2.2.2 layer hstart hlt] at hvec
      cases hvec

variable {active : Nat}

theorem inRound_completePrepare (h : SlotOrder m) (hactive : m.activeLayerId = some active)
    (hpending : m.pendingActivationLayerId = none) :
    (m.completePrepare active).inRound layer = true ↔ m.inRound layer = true := by
  have hnext := @findNextTrue_iff m layer _ (active + 1) h.enabled
  rw [inRound_iff, inRound_iff]
  unfold EplbManager.completePrepare
  rw [hnext, hpending, hactive]
  have henabled := h.active active hactive
  constructor
  · rintro (⟨hle, hvec⟩ | heq | hawait)
    · exact .inl ⟨active, rfl, by omega, hvec⟩
    · cases heq
      exact .inl ⟨_, rfl, Nat.le_refl _, henabled⟩
    · exact .inr (.inr hawait)
  · rintro (⟨a, ha, hle, hvec⟩ | heq | hawait)
    · cases ha
      by_cases heq : active = layer
      · exact .inr (.inl (congrArg some heq))
      · exact .inl ⟨by omega, hvec⟩
    · cases heq
    · exact .inr (.inr hawait)

theorem slots_completePrepare (h : SlotOrder m) (hactive : m.activeLayerId = some active) :
    SlotOrder (m.completePrepare active) where
  policy := h.policy
  enabled := h.enabled
  active := fun next hnext => (findNextTrue_some hnext).2.2.1
  later := fun next l hnext hlt => by
    have hstart := (findNextTrue_some hnext).1
    show Function.update m.layerStates active .ready l = _
    rw [update_of_ne (by omega)]
    exact h.later active l hactive (by omega)
  pending := fun pending hpending => by
    cases hpending
    refine ⟨h.enabled _ (h.active _ hactive), fun next hnext => ?_⟩
    exact (findNextTrue_some hnext).1
  awaiting := fun awaiting hawaiting => by
    obtain ⟨hlt, hbefore, -⟩ := h.awaiting awaiting hawaiting
    have hless := hbefore active hactive
    refine ⟨hlt, fun next hnext => ?_, fun pending hpending => ?_⟩
    · have := (findNextTrue_some hnext).1
      omega
    · cases hpending
      exact hless

variable {m' : EplbManager} {timedOut : Nat}

/-- A timeout takes the active layer out and leaves the other layers where they are. -/
theorem inRound_abort (h : SlotOrder m)
    (hactive : m.activeLayerId = some timedOut) (habort : m.abortActivePrepare timedOut = .ok m') :
    m'.inRound layer = true ↔ m.inRound layer = true ∧ layer ≠ timedOut := by
  obtain ⟨policy, -, rfl⟩ := abortActivePrepare_cases habort
  have hbound : ∀ l, Function.update m.enableUpdateVec timedOut false l = true →
      l < m.layerNum := by
    intro l hl
    by_cases heq : l = timedOut
    · rw [heq, update_self] at hl
      cases hl
    · rw [update_of_ne heq] at hl
      exact h.enabled l hl
  have hnext := @findNextTrue_iff m layer _ (timedOut + 1) hbound
  rw [inRound_iff, inRound_iff]
  rw [hnext, hactive]
  constructor
  · rintro (⟨hle, hvec⟩ | hpending | hawaiting)
    · rw [update_of_ne (by omega)] at hvec
      exact ⟨.inl ⟨timedOut, rfl, by omega, hvec⟩, by omega⟩
    · have := (h.pending layer hpending).2 timedOut hactive
      exact ⟨.inr (.inl hpending), by omega⟩
    · have := (h.awaiting layer hawaiting).2.1 timedOut hactive
      exact ⟨.inr (.inr hawaiting), by omega⟩
  · rintro ⟨⟨a, ha, hle, hvec⟩ | hrest, hne⟩
    · cases ha
      refine .inl ⟨by omega, ?_⟩
      rwa [update_of_ne hne]
    · exact .inr hrest

theorem slots_abort (h : SlotOrder m)
    (hactive : m.activeLayerId = some timedOut) (habort : m.abortActivePrepare timedOut = .ok m') :
    SlotOrder m' := by
  obtain ⟨policy, hpolicy, rfl⟩ := abortActivePrepare_cases habort
  refine ⟨?_, fun l hl => ?_, fun next hnext => (findNextTrue_some hnext).2.2.1,
    fun next l hnext hlt => ?_, fun pending hpending => ?_, fun awaiting hawaiting => ?_⟩
  · exact (abortLayer_spec hpolicy).1.trans h.policy
  · by_cases heq : l = timedOut
    · rw [heq]
      exact h.enabled _ (h.active _ hactive)
    · have hl : Function.update m.enableUpdateVec timedOut false l = true := hl
      rw [update_of_ne heq] at hl
      exact h.enabled l hl
  · have hstart := (findNextTrue_some hnext).1
    show Function.update m.layerStates timedOut .idle l = _
    rw [update_of_ne (by omega)]
    exact h.later timedOut l hactive (by omega)
  · obtain ⟨hlt, hbefore⟩ := h.pending pending hpending
    refine ⟨hlt, fun next hnext => ?_⟩
    have := (findNextTrue_some hnext).1
    have := hbefore timedOut hactive
    omega
  · obtain ⟨hlt, hbefore, hless⟩ := h.awaiting awaiting hawaiting
    refine ⟨hlt, fun next hnext => ?_, hless⟩
    have := (findNextTrue_some hnext).1
    have := hbefore timedOut hactive
    omega

end

/-! ## Copies, tokens and counts -/

/-- The policy has a rollback to the active placement for the layers in flight, and agrees with it on
the others. -/
structure Copies (w : EplbSystem) : Prop where
  settled : ∀ layer, w.inFlight layer = false →
    w.manager.policy.prevLayerAssignment layer = w.manager.policy.expertDistribution layer ∧
      w.manager.policy.expertDistribution layer = w.manager.activeExpertDistribution layer
  staged : ∀ layer, w.inFlight layer = true →
    w.manager.policy.prevLayerAssignment layer = w.manager.policy.expertDistribution layer ∧
      w.manager.policy.rollbackStates layer =
        some ⟨w.manager.activeExpertDistribution layer, w.manager.activeExpertDistribution layer⟩
  published : ∀ layer, w.manager.inRound layer = true →
    w.manager.expertDistribution layer = w.manager.policy.expertDistribution layer ∧
      w.manager.cachedExpertIds layer = w.manager.policy.expertDistribution layer

/-- The token of the active layer is its latest one, and the pending layer was reported by every
device. -/
structure Attempt (m : EplbManager) (history : List EplbEvent) : Prop where
  next : 0 < m.nextPrepareToken
  fresh : m.activePrepareToken < m.nextPrepareToken
  recorded : ∀ device, m.preparedTokens device < m.nextPrepareToken
  none : m.activeLayerId = none → m.activePrepareToken = -1
  active : ∀ active, m.activeLayerId = some active →
    (m.layerStates active = .idle ∧ m.activePrepareToken = -1) ∨
      (m.layerStates active = .preparing ∧ 0 < m.activePrepareToken ∧
        Offered history active m.activePrepareToken (m.policy.expertDistribution active)
          (fun device => m.preparedTokens device = m.activePrepareToken))
  pending : ∀ pending, m.pendingActivationLayerId = some pending →
    Offered history pending m.pendingActivationToken (m.policy.expertDistribution pending)
      (· < m.deviceNum)

/-- The two accounts of `SoundRounds`. -/
structure Counts (w : EplbSystem) : Prop where
  settled : ∀ layer, w.history.count (.enabled layer) =
    w.history.count (.activated layer) + w.history.count (.aborted layer) +
      (w.inFlight layer).toNat
  unacknowledged : w.history.countP isIssued = w.history.countP isActivated +
    w.manager.activationAwaitingLoadSampleLayerId.isSome.toNat

/-- The invariant of the runs that lose no pending layer. -/
structure Rounds (w : EplbSystem) : Prop where
  slots : SlotOrder w.manager
  /-- Where the policy plans, no layer is in a slot. -/
  quiet : w.thread.phase.plans = true → w.manager.roundInProgress = false
  plan : ∀ generation sampleCount newDistribution newUpdateVec layer,
    w.thread.phase = .evaluated generation sampleCount (some (newDistribution, newUpdateVec)) →
    newUpdateVec layer = true →
      layer < w.manager.layerNum ∧
        newDistribution layer = w.manager.policy.expertDistribution layer
  copies : Copies w
  attempt : Attempt w.manager w.history
  counts : Counts w

section

variable {history : List EplbEvent} {layer : Nat} {token : Int} {expertIds : List Int}
  {devices devices' : Nat → Prop}

theorem Offered.append {events : List EplbEvent} (h : Offered history layer token expertIds devices)
    (hevents : ∀ token' expertIds', .prepared layer token' expertIds' ∉ events) :
    Offered (events ++ history) layer token expertIds devices := by
  obtain ⟨later, earlier, rfl, hlatest, hreported⟩ := h
  refine ⟨events ++ later, earlier, (List.append_assoc ..).symm, fun t ids hmem => ?_,
    fun device hdevice => ?_⟩
  · rcases mem_append.mp hmem with hnew | hold
    · exact hevents t ids hnew
    · exact hlatest t ids hold
  · obtain ⟨prepareTokens, hmem, hget⟩ := hreported device hdevice
    exact ⟨prepareTokens, mem_append_right _ hmem, hget⟩

theorem Offered.cons {event : EplbEvent} (h : Offered history layer token expertIds devices)
    (hevent : ∀ token' expertIds', event ≠ .prepared layer token' expertIds') :
    Offered (event :: history) layer token expertIds devices := by
  have happend := @Offered.append history layer token expertIds devices [event] h
  refine happend fun token' expertIds' hmem => ?_
  exact hevent token' expertIds' (mem_singleton.mp hmem).symm

theorem Offered.mono (h : Offered history layer token expertIds devices)
    (hdevices : ∀ device, devices' device → devices device) :
    Offered history layer token expertIds devices' := by
  obtain ⟨later, earlier, hhistory, hlatest, hreported⟩ := h
  exact ⟨later, earlier, hhistory, hlatest, fun device hdevice =>
    hreported device (hdevices device hdevice)⟩

/-- A report adds the devices that name the token. -/
theorem Offered.report {prepareTokens : List Int} (h : Offered history layer token expertIds devices) :
    Offered (.reported prepareTokens :: history) layer token expertIds
      (fun device => devices device ∨ prepareTokens[device]? = some token) := by
  obtain ⟨later, earlier, rfl, hlatest, hreported⟩ := h
  refine ⟨.reported prepareTokens :: later, earlier, rfl, fun t ids hmem => ?_, fun device hdevice => ?_⟩
  · rcases mem_cons.mp hmem with hnew | hold
    · cases hnew
    · exact hlatest t ids hold
  · rcases hdevice with hold | hnew
    · obtain ⟨tokens, hmem, hget⟩ := hreported device hold
      exact ⟨tokens, mem_cons_of_mem _ hmem, hget⟩
    · exact ⟨prepareTokens, mem_cons_self, hnew⟩

end

section

variable {w w' : EplbSystem}

theorem inFlight_congr
    (hround : ∀ layer, w'.manager.inRound layer = true ↔ w.manager.inRound layer = true)
    (hplanned : w'.thread.phase.planned = w.thread.phase.planned) (layer : Nat) :
    w'.inFlight layer = w.inFlight layer := by
  unfold EplbSystem.inFlight
  rw [hplanned, Bool.eq_iff_iff.mpr (hround layer)]

theorem Copies.congr (h : Copies w)
    (hround : ∀ layer, w'.manager.inRound layer = true ↔ w.manager.inRound layer = true)
    (hplanned : w'.thread.phase.planned = w.thread.phase.planned)
    (hpolicy : w'.manager.policy = w.manager.policy)
    (hactive : w'.manager.activeExpertDistribution = w.manager.activeExpertDistribution)
    (hexpert : w'.manager.expertDistribution = w.manager.expertDistribution)
    (hcached : w'.manager.cachedExpertIds = w.manager.cachedExpertIds) : Copies w' := by
  have hflight := inFlight_congr hround hplanned
  refine ⟨fun layer hsettled => ?_, fun layer hstaged => ?_, fun layer hpublished => ?_⟩
  · rw [hpolicy, hactive]
    exact h.settled layer (hflight layer ▸ hsettled)
  · rw [hpolicy, hactive]
    exact h.staged layer (hflight layer ▸ hstaged)
  · rw [hpolicy, hexpert, hcached]
    exact h.published layer ((hround layer).mp hpublished)

/-- Events that settle no layer leave its counts alone. -/
theorem Counts.append (h : Counts w) (events : List EplbEvent)
    (hhistory : w'.history = events ++ w.history)
    (hnone : ∀ layer, .enabled layer ∉ events ∧ .activated layer ∉ events ∧ .aborted layer ∉ events)
    (hflight : ∀ layer, w'.inFlight layer = w.inFlight layer) (hissued : events.countP isIssued +
        w.manager.activationAwaitingLoadSampleLayerId.isSome.toNat =
      w'.manager.activationAwaitingLoadSampleLayerId.isSome.toNat) : Counts w' := by
  refine ⟨fun layer => ?_, ?_⟩
  · obtain ⟨henabled, hactivated, haborted⟩ := hnone layer
    rw [hhistory, count_append, count_append, count_append,
      count_eq_zero.mpr henabled, count_eq_zero.mpr hactivated,
      count_eq_zero.mpr haborted, hflight, Nat.zero_add, Nat.zero_add, Nat.zero_add]
    exact h.settled layer
  · have hactivated : events.countP isActivated = 0 := by
      rw [countP_eq_zero]
      intro event hmem hactivated
      cases event with
      | activated layer => exact (hnone layer).2.1 hmem
      | _ => cases hactivated
    have := h.unacknowledged
    rw [hhistory, countP_append, countP_append, hactivated]
    omega

theorem Attempt.append {m : EplbManager} {history : List EplbEvent} (h : Attempt m history)
    {events : List EplbEvent}
    (hevents : ∀ layer token expertIds, .prepared layer token expertIds ∉ events) :
    Attempt m (events ++ history) := by
  refine ⟨h.next, h.fresh, h.recorded, h.none, fun active hactive => ?_, fun pending hpending => ?_⟩
  · rcases h.active active hactive with hidle | ⟨hpreparing, hpos, hoffered⟩
    · exact .inl hidle
    · exact .inr ⟨hpreparing, hpos, hoffered.append (hevents active)⟩
  · exact (h.pending pending hpending).append (hevents pending)

end

/-! ## A layer leaves the slots

While a layer is in a slot the policy does not plan and the rebalance thread holds no plan, so being
in flight is being in a slot. -/

section

variable {w : EplbSystem} {layer : Nat}

theorem roundInProgress_eq_false {m : EplbManager} (h : m.roundInProgress = false) :
    m.activeLayerId = none ∧ m.pendingActivationLayerId = none ∧
      m.activationAwaitingLoadSampleLayerId = none := by
  unfold EplbManager.roundInProgress at h
  rw [Bool.or_eq_false_iff, Bool.or_eq_false_iff, Option.isSome_eq_false_iff,
    Option.isSome_eq_false_iff, Option.isSome_eq_false_iff, Option.isNone_iff_eq_none,
    Option.isNone_iff_eq_none, Option.isNone_iff_eq_none] at h
  exact ⟨h.1.1, h.1.2, h.2⟩

theorem inRound_false_of_quiet (h : w.manager.roundInProgress = false) (layer : Nat) :
    w.manager.inRound layer = false := by
  obtain ⟨hactive, hpending, hawaiting⟩ := roundInProgress_eq_false h
  unfold EplbManager.inRound
  rw [hactive, hpending, hawaiting]
  rfl

theorem not_plans (h : Rounds w) (hround : w.manager.inRound layer = true) :
    w.thread.phase.plans = false := by
  cases hplans : w.thread.phase.plans with
  | false => rfl
  | true =>
    rw [inRound_false_of_quiet (h.quiet hplans) layer] at hround
    cases hround

theorem planned_eq_false (h : Rounds w) (hround : w.manager.inRound layer = true)
    (other : Nat) : w.thread.phase.planned other = false := by
  cases hphase : w.thread.phase with
  | waiting => rfl
  | grabbed => rfl
  | evaluated generation sampleCount result =>
    cases result with
    | none => rfl
    | some result =>
      have hplans := not_plans h hround
      rw [hphase] at hplans
      cases hplans

theorem absurd_of_not_plans (hplans : w.thread.phase.plans = false) (P : Prop) :
    w.thread.phase.plans = true → P := by
  intro htrue
  rw [hplans] at htrue
  cases htrue

theorem inFlight_of_inRound (hround : w.manager.inRound layer = true) : w.inFlight layer = true := by
  unfold EplbSystem.inFlight
  rw [hround, Bool.or_true]

variable {left : Nat}

theorem inFlight_of_left (h : Rounds w) {m : EplbManager} (hleft : w.manager.inRound left = true)
    (hround : ∀ layer, m.inRound layer = true ↔ w.manager.inRound layer = true ∧ layer ≠ left)
    (history : List EplbEvent) (layer : Nat) :
    EplbSystem.inFlight { manager := m, thread := w.thread, history } layer =
      (w.inFlight layer && decide (layer ≠ left)) := by
  unfold EplbSystem.inFlight
  rw [planned_eq_false h hleft layer, Bool.false_or, Bool.false_or, Bool.eq_iff_iff,
    Bool.and_eq_true, decide_eq_true_eq]
  exact hround layer

/-- The count of the layer that leaves goes up by one as its flight ends; the others stay. -/
theorem settled_of_left (h : Rounds w) {event : EplbEvent} (hleft : w.manager.inRound left = true)
    (hevent : event = .activated left ∨ event = .aborted left) (layer : Nat) :
    (event :: w.history).count (.enabled layer) =
      (event :: w.history).count (.activated layer) + (event :: w.history).count (.aborted layer) +
        (w.inFlight layer && decide (layer ≠ left)).toNat := by
  have hcount := h.counts.settled layer
  have hflight := inFlight_of_inRound hleft
  by_cases heq : layer = left
  · subst heq
    rw [hflight] at hcount
    rcases hevent with rfl | rfl
    · rw [count_cons_of_ne (by simp), count_cons_self, count_cons_of_ne (by simp)]
      simp only [ne_eq, not_true_eq_false, decide_false, Bool.and_false, Bool.toNat_false]
      rw [Bool.toNat_true] at hcount
      omega
    · rw [count_cons_of_ne (by simp), count_cons_of_ne (by simp), count_cons_self]
      simp only [ne_eq, not_true_eq_false, decide_false, Bool.and_false, Bool.toNat_false]
      rw [Bool.toNat_true] at hcount
      omega
  · have hne : ∀ e : EplbEvent, e = .enabled layer ∨ e = .activated layer ∨ e = .aborted layer →
        event ≠ e := by
      rintro e (rfl | rfl | rfl)
      · rcases hevent with rfl | rfl <;> simp
      · rcases hevent with rfl | rfl <;> simp [Ne.symm heq]
      · rcases hevent with rfl | rfl <;> simp [Ne.symm heq]
    rw [count_cons_of_ne (hne _ (.inl rfl)), count_cons_of_ne (hne _ (.inr (.inl rfl))),
      count_cons_of_ne (hne _ (.inr (.inr rfl))), decide_eq_true heq, Bool.and_true]
    exact hcount

end

/-! ## Steps that leave the slots alone -/

section
variable {w : EplbSystem} {thread : RebalanceThread} {m : EplbManager}

/-- No clause is about the load queue or the sample count. -/
theorem Rounds.bookkeeping (h : Rounds w) (queue : List Nat) (sampleCount : Nat) :
    Rounds { w with
      manager :=
        { w.manager with expertLoadQueue := queue, physicalLoadSampleCount := sampleCount } } :=
  ⟨{ h.slots with }, h.quiet, h.plan, { h.copies with },
    { h.attempt with }, { h.counts with }⟩
/-- The phase may change as long as it holds no new plan. -/
theorem Rounds.rephase (h : Rounds w) (hplanned : thread.phase.planned = w.thread.phase.planned)
    (hquiet : thread.phase.plans = true → w.manager.roundInProgress = false)
    (hplan : ∀ generation sampleCount result,
      thread.phase ≠ .evaluated generation sampleCount (some result)) :
    Rounds { w with thread } :=
  ⟨h.slots, hquiet, fun _ _ _ _ _ hphase => absurd hphase (hplan _ _ _),
    h.copies.congr (fun _ => Iff.rfl) hplanned rfl rfl rfl rfl, h.attempt,
    h.counts.append [] rfl (by simp) (inFlight_congr (fun _ => Iff.rfl) hplanned) (Nat.zero_add _)⟩
theorem Rounds.grab (h : Rounds w) (hgrab : w.manager.grab w.thread = (m, thread)) :
    Rounds { w with manager := m, thread } := by
  unfold EplbManager.grab at hgrab
  cases hphase : w.thread.phase with
  | waiting =>
    rw [hphase] at hgrab
    dsimp only at hgrab
    split at hgrab
    · cases hgrab
      exact h
    · cases hgrab
      refine (h.bookkeeping [] w.manager.physicalLoadSampleCount).rephase ?_ (fun hplans => ?_) nofun
      · rw [hphase]
        rfl
      · exact (Bool.not_eq_true' _).mp hplans
  | grabbed =>
    rw [hphase] at hgrab
    cases hgrab
    exact h
  | evaluated =>
    rw [hphase] at hgrab
    cases hgrab
    exact h

theorem Rounds.setPreparedTokens (h : Rounds w) {prepareTokens : List Int}
    (hset : w.manager.setPreparedTokens prepareTokens = .ok m) :
    Rounds { w with manager := m, history := .reported prepareTokens :: w.history } := by
  unfold EplbManager.setPreparedTokens at hset
  split at hset
  · cases hset
  cases hset
  refine ⟨{ h.slots with }, h.quiet, h.plan, { h.copies with },
    ⟨h.attempt.next, h.attempt.fresh, fun device => ?_, h.attempt.none, fun active hactive => ?_,
      fun pending hpending => (h.attempt.pending pending hpending).cons (by simp)⟩,
    h.counts.append [.reported prepareTokens] rfl (by simp) (fun _ => rfl) (Nat.zero_add _)⟩
  · dsimp only
    split
    · exact h.attempt.fresh
    · exact h.attempt.recorded device
  · rcases h.attempt.active active hactive with hidle | ⟨hpreparing, hpos, hoffered⟩
    · exact .inl hidle
    · refine .inr ⟨hpreparing, hpos, hoffered.report.mono fun device hdevice => ?_⟩
      by_cases hnamed : prepareTokens[device]? = some w.manager.activePrepareToken
      · exact .inr hnamed
      · dsimp only at hdevice
        rw [if_neg hnamed] at hdevice
        exact .inl hdevice

end

end Xllm.Framework
