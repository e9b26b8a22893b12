import Xllm.Eplb.RebalanceInvariant

/-!
# Rounds of expert rebalancing

A layer of a round passes through the slots of the manager: it is enabled, active, pending, and awaits
its acknowledgement; on the way it may be given up. Each step of the system keeps `Rounds`, and
**`rebalance_rounds`** says what that gives: in the runs in which no layer becomes ready while another
one is pending, every enabled layer is activated or given up once, and the copies of the placement
agree.

The condition is needed. With three layers and a late acknowledgement a layer is lost, and the policy
goes on with a placement that no worker has (`pending_activation_overwritten`).
-/

namespace Xllm.Framework

open Xllm.Lib List Function

/-! ## Steps that move a layer

The acknowledgement and a timeout take the layer out of its slot; issuing, dispatching and completing
move it to the next one. -/

section

variable {w : EplbSystem}

theorem Rounds.acknowledge (h : Rounds w) {activated : Nat}
    (hawait : w.manager.activationAwaitingLoadSampleLayerId = some activated) :
    Rounds { w with
      manager := w.manager.acknowledged activated
      history := .activated activated :: w.history } := by
  have hleft : w.manager.inRound activated = true := inRound_iff.mpr (.inr (.inr hawait))
  have hplans := not_plans h hleft
  obtain ⟨-, hbefore, hless⟩ := h.slots.awaiting activated hawait
  -- the acknowledged layer leaves, and by the order of the slots it is in no other one
  have hround : ∀ layer, (w.manager.acknowledged activated).inRound layer = true ↔
      w.manager.inRound layer = true ∧ layer ≠ activated := by
    intro layer
    rw [inRound_iff, inRound_iff, hawait]
    unfold EplbManager.acknowledged
    constructor
    · rintro (⟨active, hactive, hle, hvec⟩ | hpending | hnone)
      · have := hbefore active hactive
        exact ⟨.inl ⟨active, hactive, hle, hvec⟩, by omega⟩
      · have := hless layer hpending
        exact ⟨.inr (.inl hpending), by omega⟩
      · cases hnone
    · rintro ⟨hactive | hpending | hsome, hne⟩
      · exact .inl hactive
      · exact .inr (.inl hpending)
      · exact absurd (Option.some.inj hsome).symm hne
  have hattempt : Attempt w.manager (.activated activated :: w.history) :=
    @Attempt.append _ _ h.attempt [.activated activated] (by simp)
  have hflight := inFlight_of_left h hleft hround (.activated activated :: w.history)
  refine ⟨{ h.slots with awaiting := nofun }, absurd_of_not_plans hplans _, h.plan,
    ⟨fun layer hsettled => ?_, fun layer hstaged => ?_, fun layer hpublished => ?_⟩,
    { hattempt with }, ⟨fun layer => ?_, ?_⟩⟩
  · rw [hflight layer] at hsettled
    by_cases heq : layer = activated
    · -- the placement that is now active is the planned one
      subst heq
      obtain ⟨hexpert, -⟩ := h.copies.published layer hleft
      refine ⟨(h.copies.staged layer (inFlight_of_inRound hleft)).1, ?_⟩
      show w.manager.policy.expertDistribution layer = Function.update
        w.manager.activeExpertDistribution layer (w.manager.expertDistribution layer) layer
      rw [update_self]
      exact hexpert.symm
    · rw [decide_eq_true heq, Bool.and_true] at hsettled
      obtain ⟨hprev, hactive⟩ := h.copies.settled layer hsettled
      exact ⟨hprev, hactive.trans (update_of_ne heq ..).symm⟩
  · rw [hflight layer, Bool.and_eq_true, decide_eq_true_eq] at hstaged
    obtain ⟨hstaged, hne⟩ := hstaged
    obtain ⟨hprev, hrollback⟩ := h.copies.staged layer hstaged
    refine ⟨hprev, ?_⟩
    show Function.update w.manager.policy.rollbackStates activated none layer =
      some ⟨Function.update w.manager.activeExpertDistribution activated
          (w.manager.expertDistribution activated) layer,
        Function.update w.manager.activeExpertDistribution activated
          (w.manager.expertDistribution activated) layer⟩
    rw [update_of_ne hne, update_of_ne hne]
    exact hrollback
  · exact h.copies.published layer ((hround layer).mp hpublished).1
  · rw [hflight layer]
    exact settled_of_left h hleft (.inl rfl) layer
  · have hcount := h.counts.unacknowledged
    rw [hawait] at hcount
    rw [countP_cons_of_neg (by simp [isIssued]), countP_cons_of_pos rfl]
    exact hcount

variable {m : EplbManager} {info : EplbInfo}

theorem Rounds.issueActivation (h : Rounds w) (hissue : w.manager.issueActivation = .ok (m, info)) :
    Rounds { w with manager := m, history := info.events ++ w.history } := by
  rcases issueActivation_cases hissue with ⟨rfl, rfl, -⟩ |
    ⟨layer, hawait, hpending, hpos, rfl, rfl⟩
  · exact h
  -- the layer goes from one slot to the next
  have hround : ∀ other, (w.manager.issued layer).inRound other = true ↔
      w.manager.inRound other = true := by
    intro other
    rw [inRound_iff, inRound_iff, hawait, hpending]
    unfold EplbManager.issued
    constructor
    · rintro (hactive | hnone | hsome)
      · exact .inl hactive
      · cases hnone
      · exact .inr (.inl hsome)
    · rintro (hactive | hsome | hnone)
      · exact .inl hactive
      · exact .inr (.inr hsome)
      · cases hnone
  have hplans := not_plans h (inRound_iff.mpr (.inr (.inl hpending)))
  obtain ⟨hlt, hbefore⟩ := h.slots.pending layer hpending
  have hattempt := @Attempt.append _ _ h.attempt [.issued layer w.manager.pendingActivationToken]
    (by simp)
  refine ⟨{ h.slots with pending := nofun, awaiting := fun awaiting hsome => ?_ },
    absurd_of_not_plans hplans _, h.plan, h.copies.congr hround rfl rfl rfl rfl rfl,
    { hattempt with pending := nofun },
    h.counts.append [.issued layer w.manager.pendingActivationToken] rfl (by simp)
      (inFlight_congr hround rfl) ?_⟩
  · cases hsome
    exact ⟨hlt, hbefore, nofun⟩
  · rw [hawait]
    rfl

theorem Rounds.dispatchPrepare (h : Rounds w) {info' : EplbInfo}
    (hdispatch : w.manager.dispatchPrepare info = .ok (m, info'))
    (hinfo : info.prepareLayerId = none) :
    info'.updateLayerId = info.updateLayerId ∧ info'.activationToken = info.activationToken ∧
      ∃ events, info'.events = events ++ info.events ∧
        Rounds { w with manager := m, history := events ++ w.history } := by
  rcases dispatchPrepare_cases hdispatch with ⟨rfl, rfl⟩ |
    ⟨active, hactive, hidle, hnext, rfl, rfl⟩
  · exact ⟨rfl, rfl, [], rfl, h⟩
  refine ⟨rfl, rfl, [.prepared active w.manager.nextPrepareToken (w.manager.cachedExpertIds active)],
    ?_, ?_⟩
  · unfold EplbInfo.events
    rw [hinfo]
    rfl
  have hleft := h.slots.inRound_active hactive
  refine ⟨{ h.slots with later := fun a layer ha hlt => ?_ }, h.quiet, h.plan, { h.copies with },
    ⟨Int.lt_trans hnext (Int.lt_succ _), Int.lt_succ _,
      fun device => Int.lt_trans (h.attempt.recorded device) (Int.lt_succ _),
      fun hnone => ?_, fun a ha => ?_, fun pending hpending => ?_⟩,
    h.counts.append [.prepared active w.manager.nextPrepareToken (w.manager.cachedExpertIds active)]
      rfl (by simp) (fun _ => rfl) (Nat.zero_add _)⟩
  · have heq : a = active := Option.some.inj (ha.symm.trans hactive)
    show Function.update w.manager.layerStates active .preparing layer = _
    rw [update_of_ne (by omega)]
    exact h.slots.later a layer ha hlt
  · exact nomatch hnone.symm.trans hactive
  · have heq : a = active := Option.some.inj (ha.symm.trans hactive)
    subst heq
    refine .inr ⟨update_self .., hnext, [], w.history, ?_, by simp, fun device hdevice => ?_⟩
    · rw [(h.copies.published a hleft).2]
      rfl
    · -- the token is new, so no device has reported it
      have hrecorded := h.attempt.recorded device
      have hdevice : w.manager.preparedTokens device = w.manager.nextPrepareToken := hdevice
      omega
  · -- what is handed out is not the pending layer, which is before the active one
    have hlt := (h.slots.pending pending hpending).2 active hactive
    refine (h.attempt.pending pending hpending).append fun token expertIds hmem => ?_
    have heq := mem_singleton.mp hmem
    injection heq with heq
    omega

theorem Rounds.completePrepare (h : Rounds w) {active : Nat}
    (hactive : w.manager.activeLayerId = some active) (htoken : w.manager.activePrepareToken ≠ -1)
    (hall : w.manager.allPrepared = true) (hpending : w.manager.pendingActivationLayerId = none) :
    Rounds { w with manager := w.manager.completePrepare active } := by
  have hround : ∀ other, (w.manager.completePrepare active).inRound other = true ↔
      w.manager.inRound other = true := fun _ => inRound_completePrepare h.slots hactive hpending
  have hleft := h.slots.inRound_active hactive
  have hplans := not_plans h hleft
  refine ⟨slots_completePrepare h.slots hactive, absurd_of_not_plans hplans _, h.plan,
    h.copies.congr hround rfl rfl rfl rfl rfl,
    ⟨h.attempt.next, ?_, h.attempt.recorded, fun _ => rfl, fun next hnext => .inl ⟨?_, rfl⟩,
      fun pending hsome => ?_⟩,
    h.counts.append [] rfl (by simp) (inFlight_congr hround rfl) (Nat.zero_add _)⟩
  · have := h.attempt.next
    show (-1 : Int) < w.manager.nextPrepareToken
    omega
  · have hstart := (findNextTrue_some hnext).1
    show Function.update w.manager.layerStates active .ready next = _
    rw [update_of_ne (by omega)]
    exact h.slots.later active next hactive (by omega)
  · -- every device has the token of the layer that becomes pending
    cases hsome
    rcases h.attempt.active active hactive with ⟨-, hnone⟩ | ⟨-, -, hoffered⟩
    · exact absurd hnone htoken
    · refine hoffered.mono fun device hdevice => ?_
      exact decide_eq_true_eq.mp (all_eq_true.mp hall device (mem_range.mpr hdevice))

theorem Rounds.abortActivePrepare (h : Rounds w) {timedOut : Nat}
    (hactive : w.manager.activeLayerId = some timedOut)
    (habort : w.manager.abortActivePrepare timedOut = .ok m) :
    Rounds { w with manager := m, history := .aborted timedOut :: w.history } := by
  have hround := fun other => @inRound_abort _ other _ _ h.slots hactive habort
  have hslots := slots_abort h.slots hactive habort
  have hleft := h.slots.inRound_active hactive
  have hplans := not_plans h hleft
  have hflight := inFlight_of_left h hleft hround (.aborted timedOut :: w.history)
  obtain ⟨policy, hpolicy, rfl⟩ := abortActivePrepare_cases habort
  obtain ⟨-, hrolled, hother⟩ := abortLayer_spec hpolicy
  have hstaged := h.copies.staged timedOut (inFlight_of_inRound hleft)
  refine ⟨hslots, absurd_of_not_plans hplans _, fun _ _ _ _ _ hphase => ?_,
    ⟨fun layer hsettled => ?_, fun layer hflying => ?_, fun layer hpublished => ?_⟩,
    ⟨h.attempt.next, ?_, fun device => ?_, fun _ => rfl, fun next hnext => .inl ⟨?_, rfl⟩,
      fun pending hpending => ?_⟩, ⟨fun layer => ?_, ?_⟩⟩
  · rw [hphase] at hplans
    cases hplans
  · rw [hflight layer] at hsettled
    by_cases heq : layer = timedOut
    · -- the rollback is to the active placement
      subst heq
      obtain ⟨hexp, hprev⟩ := hrolled _ hstaged.2
      exact ⟨hprev.trans hexp.symm, hexp⟩
    · rw [decide_eq_true heq, Bool.and_true] at hsettled
      obtain ⟨hprev, hexp, -⟩ := hother layer heq
      rw [hprev, hexp]
      exact h.copies.settled layer hsettled
  · rw [hflight layer, Bool.and_eq_true, decide_eq_true_eq] at hflying
    obtain ⟨hflying, hne⟩ := hflying
    obtain ⟨hprev, hexp, hrollback⟩ := hother layer hne
    rw [hprev, hexp, hrollback]
    exact h.copies.staged layer hflying
  · obtain ⟨hpublished, hne⟩ := (hround layer).mp hpublished
    rw [(hother layer hne).2.1]
    exact h.copies.published layer hpublished
  · have := h.attempt.next
    show (-1 : Int) < w.manager.nextPrepareToken
    omega
  · have := h.attempt.next
    show (-1 : Int) < w.manager.nextPrepareToken
    omega
  · have hstart := (findNextTrue_some hnext).1
    show Function.update w.manager.layerStates timedOut .idle next = _
    rw [update_of_ne (by omega)]
    exact h.slots.later timedOut next hactive (by omega)
  · have hlt := (h.slots.pending pending hpending).2 timedOut hactive
    rw [(hother pending (by omega)).2.1]
    exact (h.attempt.pending pending hpending).cons (by simp)
  · rw [hflight layer]
    exact settled_of_left h hleft (.inr rfl) layer
  · exact h.counts.unacknowledged

end

/-! ## A round begins

`evaluate` plans and `publish` fills the slots. Nothing is in flight before the plan
(`Rounds.quiet`), so a layer is in flight afterwards if and only if it was enabled. -/

section

variable {w : EplbSystem} {m : EplbManager} {thread : RebalanceThread} {intervalElapsed : Bool}
  {proposal : Proposal}

theorem Rounds.evaluate (h : Rounds w)
    (hevaluate : w.manager.evaluate w.thread intervalElapsed proposal = .ok (m, thread)) :
    Rounds
      { manager := m, thread
        history := planEvents m.layerNum w.thread.phase thread.phase ++ w.history } := by
  rcases evaluate_cases hevaluate with ⟨rfl, rfl, hphase⟩ |
    ⟨hgrabbed, rfl, generation, sampleCount, hphase⟩ |
    ⟨hgrabbed, hplans, policy, enableUpdateVec, generation, sampleCount, hplan, rfl, hphase⟩
  · rw [planEvents_eq, hphase]
    exact h
  · -- the policy does not run
    have hplanned : thread.phase.planned = w.thread.phase.planned := by
      rw [hphase, planned_of_isGrabbed hgrabbed]
      rfl
    have hevents : planEvents w.manager.layerNum w.thread.phase thread.phase = [] := by
      rw [planEvents_eq, if_pos hgrabbed, hplanned, planned_of_isGrabbed hgrabbed, filter_false]
      rfl
    rw [hevents]
    refine h.rephase hplanned (fun htrue => ?_) fun _ _ _ hsome => ?_
    · rw [hphase] at htrue
      cases htrue
    · cases hphase.symm.trans hsome
  · -- the policy plans while no layer is in a slot
    have hquiet := h.quiet hplans
    obtain ⟨hactive, hpending, hawaiting⟩ := roundInProgress_eq_false hquiet
    obtain ⟨hnum, hbound, hreplanned⟩ := rebalanceExperts_spec hplan
    rw [h.slots.policy] at hbound
    have hbefore : ∀ layer, w.inFlight layer = false := by
      intro layer
      unfold EplbSystem.inFlight
      rw [planned_of_isGrabbed hgrabbed, inRound_false_of_quiet hquiet layer]
      rfl
    have hafter : ∀ history layer, EplbSystem.inFlight
        { manager := { w.manager with policy }, thread, history } layer =
          enableUpdateVec layer := by
      intro history layer
      unfold EplbSystem.inFlight
      rw [hphase]
      show (enableUpdateVec layer || w.manager.inRound layer) = enableUpdateVec layer
      rw [inRound_false_of_quiet hquiet layer, Bool.or_false]
    refine ⟨{ h.slots with policy := hnum.trans h.slots.policy }, fun _ => hquiet,
      fun _ _ newDistribution newUpdateVec layer hsome hvec => ?_,
      ⟨fun layer hsettled => ?_, fun layer hstaged => ?_, fun layer hpublished => ?_⟩,
      ⟨h.attempt.next, h.attempt.fresh, h.attempt.recorded, h.attempt.none, fun active hsome => ?_,
        fun pending hsome => ?_⟩, ⟨fun layer => ?_, ?_⟩⟩
    · have heq := hphase.symm.trans hsome
      injection heq with _ _ heq
      cases heq
      exact ⟨hbound layer hvec, rfl⟩
    · rw [hafter] at hsettled
      rcases hreplanned layer with ⟨-, hprev, hexp, -⟩ | ⟨htrue, -⟩
      · rw [hprev, hexp]
        exact h.copies.settled layer (hbefore layer)
      · rw [hsettled] at htrue
        cases htrue
    · -- a planned layer was settled, so its rollback is to the active placement
      rw [hafter] at hstaged
      rcases hreplanned layer with ⟨hfalse, -⟩ | ⟨-, hprev, hrollback⟩
      · rw [hstaged] at hfalse
        cases hfalse
      · obtain ⟨hold, hsame⟩ := h.copies.settled layer (hbefore layer)
        rw [hold, hsame] at hrollback
        exact ⟨hprev, hrollback⟩
    · have hpublished : w.manager.inRound layer = true := hpublished
      rw [inRound_false_of_quiet hquiet layer] at hpublished
      cases hpublished
    · exact nomatch hactive.symm.trans hsome
    · exact nomatch hpending.symm.trans hsome
    · have hcount := h.counts.settled layer
      have hnone : ∀ event, (∀ l, event ≠ EplbEvent.enabled l) →
          (planEvents w.manager.layerNum w.thread.phase thread.phase).count event = 0 := by
        intro event hne
        rw [count_eq_zero]
        intro hmem
        obtain ⟨l, heq⟩ := mem_planEvents hmem
        exact hne l heq
      have hvec : thread.phase.planned = enableUpdateVec := by
        rw [hphase]
        rfl
      -- one enabled event for each planned layer, and nothing else
      rw [hafter, count_append, count_append, count_append, hnone (.activated layer) (by simp),
        hnone (.aborted layer) (by simp), planEvents_eq, if_pos hgrabbed, hvec,
        count_enabled (hbound layer)]
      rw [hbefore layer] at hcount
      rw [hcount, Bool.toNat_false]
      omega
    · have hcount := h.counts.unacknowledged
      have hnone : ∀ p : EplbEvent → Bool, (∀ l, p (.enabled l) = false) →
          (planEvents w.manager.layerNum w.thread.phase thread.phase).countP p = 0 := by
        intro p hp
        rw [countP_eq_zero]
        intro event hmem
        obtain ⟨l, rfl⟩ := mem_planEvents hmem
        rw [hp l]
        exact Bool.false_ne_true
      rw [countP_append, countP_append, hnone _ (fun _ => rfl), hnone _ (fun _ => rfl),
        Nat.zero_add, Nat.zero_add]
      exact hcount

theorem Rounds.startRound (h : Rounds w) {newDistribution : Nat → List Int}
    {newUpdateVec : Nat → Bool} {generation sampleCount : Nat} (hphase : w.thread.phase =
      .evaluated generation sampleCount (some (newDistribution, newUpdateVec))) :
    Rounds { w with
      manager := w.manager.startRound newDistribution newUpdateVec
      thread := { w.thread with phase := .waiting } } := by
  have hquiet := h.quiet (by rw [hphase]; rfl)
  obtain ⟨hactive, -, hawaiting⟩ := roundInProgress_eq_false hquiet
  have hplan := fun layer => h.plan _ _ _ _ layer hphase
  have hbound : ∀ layer, newUpdateVec layer = true → layer < w.manager.layerNum :=
    fun layer hvec => (hplan layer hvec).1
  have hround : ∀ layer,
      (w.manager.startRound newDistribution newUpdateVec).inRound layer = newUpdateVec layer := by
    intro layer
    have hnext := @findNextTrue_iff w.manager layer _ 0 hbound
    rw [Bool.eq_iff_iff, inRound_iff]
    unfold EplbManager.startRound
    dsimp only
    rw [hnext, hawaiting]
    simp
  have hflight : ∀ history layer, EplbSystem.inFlight
      { manager := w.manager.startRound newDistribution newUpdateVec
        thread := { w.thread with phase := .waiting }
        history } layer = w.inFlight layer := by
    intro history layer
    unfold EplbSystem.inFlight
    rw [hphase, inRound_false_of_quiet hquiet layer, Bool.or_false]
    exact hround layer
  refine ⟨⟨h.slots.policy, hbound, fun active hnext => (findNextTrue_some hnext).2.2.1,
      fun _ _ _ _ => rfl, nofun,
      fun awaiting hsome => nomatch hawaiting.symm.trans hsome⟩, nofun, nofun,
    ⟨fun layer hsettled => ?_, fun layer hstaged => ?_, fun layer hpublished => ?_⟩,
    ⟨h.attempt.next, h.attempt.fresh, h.attempt.recorded, fun _ => h.attempt.none hactive,
      fun active _ => .inl ⟨rfl, h.attempt.none hactive⟩, nofun⟩,
    ⟨fun layer => ?_, h.counts.unacknowledged⟩⟩
  · rw [hflight] at hsettled
    exact h.copies.settled layer hsettled
  · rw [hflight] at hstaged
    exact h.copies.staged layer hstaged
  · have hvec : newUpdateVec layer = true := (hround layer).symm.trans hpublished
    obtain ⟨-, hdistribution⟩ := hplan layer hvec
    unfold EplbManager.startRound
    dsimp only
    rw [if_pos hvec, if_pos (.inl hvec)]
    exact ⟨hdistribution, hdistribution⟩
  · rw [hflight]
    exact h.counts.settled layer

theorem Rounds.publish (h : Rounds w)
    (hpublish : w.manager.publish w.thread = (m, thread)) :
    Rounds { w with manager := m, thread } := by
  unfold EplbManager.publish at hpublish
  cases hphase : w.thread.phase with
  | waiting =>
    rw [hphase] at hpublish
    cases hpublish
    exact h
  | grabbed =>
    rw [hphase] at hpublish
    cases hpublish
    exact h
  | evaluated generation sampleCount result =>
    rw [hphase] at hpublish
    dsimp only at hpublish
    -- the sample count is written back only if the placement has not changed since
    generalize hcounted : (if w.manager.activeDistributionGeneration = generation then
      { w.manager with physicalLoadSampleCount := sampleCount } else w.manager) = counted at hpublish
    have hrounds : Rounds { w with manager := counted } := by
      rw [← hcounted]
      split
      · exact h.bookkeeping w.manager.expertLoadQueue sampleCount
      · exact h
    cases result with
    | some result =>
      cases hpublish
      exact hrounds.startRound hphase
    | none =>
      cases hpublish
      refine hrounds.rephase ?_ nofun nofun
      show _ = w.thread.phase.planned
      rw [hphase]
      rfl

/-! ## Runs -/

theorem Rounds.start (layerNum deviceNum expertsNum redundantExpertsNum : Nat) :
    Rounds (.make layerNum deviceNum expertsNum redundantExpertsNum) :=
  ⟨⟨rfl, nofun, nofun, nofun, nofun, nofun⟩, fun _ => rfl, nofun,
    ⟨fun _ _ => ⟨rfl, rfl⟩, fun _ hflying => absurd hflying (by
        simp [EplbSystem.inFlight, EplbSystem.make, RebalancePhase.planned, EplbManager.inRound,
          EplbManager.make]), fun _ _ => ⟨rfl, rfl⟩⟩,
    ⟨Int.one_pos, show (-1 : Int) < 1 by decide, fun _ => show (-1 : Int) < 1 by decide,
      fun _ => rfl,
      nofun,
      nofun⟩, ⟨fun _ => rfl, rfl⟩⟩

theorem Rounds.getEplbInfo (h : Rounds w) {allowEplbCommand : Bool}
    {info : EplbInfo} (hget : w.manager.getEplbInfo allowEplbCommand = .ok (m, info)) :
    Rounds { w with manager := m, history := info.events ++ w.history } := by
  unfold EplbManager.getEplbInfo at hget
  cases allowEplbCommand with
  | false =>
    cases hget
    exact h
  | true =>
    rw [if_pos rfl, bind_eq_ok] at hget
    obtain ⟨⟨issued, sent⟩, hissue, hdispatch⟩ := hget
    have hnone : sent.prepareLayerId = none := by
      rcases issueActivation_cases hissue with ⟨-, rfl, -⟩ | ⟨_, _, _, _, rfl, _⟩
      · rfl
      · rfl
    obtain ⟨-, -, events, heq, hrounds⟩ :=
      (h.issueActivation hissue).dispatchPrepare hdispatch hnone
    rw [heq, List.append_assoc]
    exact hrounds

theorem Rounds.step (h : Rounds w) {w' : EplbSystem} {i : EplbInput} (hkeeps : w.keepsPending i)
    (hstep : w.step i = .ok w') : Rounds w' := by
  cases i with
  | updateExpertLoad expertLoadCount completedActivationToken =>
    obtain ⟨⟨m, acknowledged⟩, hload, hrest⟩ := bind_eq_ok.mp hstep
    cases hrest
    rcases updateExpertLoad_cases hload with ⟨rfl, rfl⟩ | ⟨activated, rfl, hawait, rfl⟩
    · exact h.bookkeeping _ w.manager.physicalLoadSampleCount
    · exact (h.bookkeeping _ w.manager.physicalLoadSampleCount).acknowledge hawait
  | getEplbInfo allowEplbCommand =>
    obtain ⟨⟨m, info⟩, hget, hrest⟩ := bind_eq_ok.mp hstep
    cases hrest
    exact h.getEplbInfo hget
  | setPreparedTokens prepareTokens =>
    obtain ⟨m, hset, hrest⟩ := bind_eq_ok.mp hstep
    cases hrest
    exact h.setPreparedTokens hset
  | managerIteration outputTimedOut prepareTimedOut =>
    obtain ⟨⟨m, iteration⟩, hiterate, hrest⟩ := bind_eq_ok.mp hstep
    cases hrest
    rcases managerIteration_cases hiterate with ⟨rfl, rfl⟩ |
      ⟨active, hactive, htoken, ⟨hall, rfl, rfl⟩ | ⟨habort, rfl⟩⟩
    · exact h
    · exact h.completePrepare hactive htoken hall (hkeeps (by rw [hactive]; simp) htoken hall)
    · exact h.abortActivePrepare hactive habort
  | grab =>
    cases hstep
    exact h.grab rfl
  | evaluate intervalElapsed proposal =>
    obtain ⟨⟨m, thread⟩, hevaluate, hrest⟩ := bind_eq_ok.mp hstep
    cases hrest
    exact h.evaluate hevaluate
  | publish =>
    cases hstep
    exact h.publish rfl

theorem Rounds.pending_kept (h : Rounds w) {i : EplbInput} {w' : EplbSystem} {layer : Nat}
    (hkeeps : w.keepsPending i) (hstep : w.step i = .ok w')
    (hpending : w.manager.pendingActivationLayerId = some layer) :
    w'.manager.pendingActivationLayerId = some layer ∧
        w'.manager.pendingActivationToken = w.manager.pendingActivationToken ∨
      ∃ info, w.manager.getEplbInfo true = .ok (w'.manager, info) ∧
        info.updateLayerId = some layer ∧
        info.activationToken = w.manager.pendingActivationToken := by
  cases i with
  | updateExpertLoad =>
    obtain ⟨⟨m, acknowledged⟩, hload, hrest⟩ := bind_eq_ok.mp hstep
    cases hrest
    rcases updateExpertLoad_cases hload with ⟨-, rfl⟩ | ⟨_, -, -, rfl⟩
    · exact .inl ⟨hpending, rfl⟩
    · exact .inl ⟨hpending, rfl⟩
  | getEplbInfo =>
    obtain ⟨⟨m, info⟩, hget, hrest⟩ := bind_eq_ok.mp hstep
    cases hrest
    rcases getEplbInfo_activation hget with ⟨-, hkept, htoken⟩ | ⟨rfl, hissued, htoken⟩
    · exact .inl ⟨hkept.trans hpending, htoken⟩
    · exact .inr ⟨info, hget, hissued.trans hpending, htoken⟩
  | setPreparedTokens prepareTokens =>
    obtain ⟨m, hset, hrest⟩ := bind_eq_ok.mp hstep
    cases hrest
    unfold EplbManager.setPreparedTokens at hset
    split at hset
    · cases hset
    · cases hset
      exact .inl ⟨hpending, rfl⟩
  | managerIteration =>
    obtain ⟨⟨m, iteration⟩, hiterate, hrest⟩ := bind_eq_ok.mp hstep
    cases hrest
    rcases managerIteration_cases hiterate with ⟨rfl, -⟩ |
      ⟨active, hactive, htoken, ⟨hall, -, -⟩ | ⟨habort, -⟩⟩
    · exact .inl ⟨hpending, rfl⟩
    · -- the slot is free when a layer becomes ready
      have hfree := hkeeps (by rw [hactive]; simp) htoken hall
      exact nomatch hfree.symm.trans hpending
    · obtain ⟨policy, -, rfl⟩ := abortActivePrepare_cases habort
      exact .inl ⟨hpending, rfl⟩
  | grab =>
    have hsame := grab_pending w.manager w.thread
    cases hstep
    exact .inl ⟨hsame.1.trans hpending, hsame.2⟩
  | evaluate =>
    obtain ⟨⟨m, thread⟩, hevaluate, hrest⟩ := bind_eq_ok.mp hstep
    cases hrest
    rcases evaluate_cases hevaluate with ⟨rfl, -, -⟩ | ⟨-, rfl, -⟩ | ⟨-, -, _, _, _, _, -, rfl, -⟩
    · exact .inl ⟨hpending, rfl⟩
    · exact .inl ⟨hpending, rfl⟩
    · exact .inl ⟨hpending, rfl⟩
  | publish =>
    -- a round is not published over a pending layer
    have hsame := publish_pending w.manager (not_plans h (inRound_iff.mpr (.inr (.inl hpending))))
    cases hstep
    exact .inl ⟨hsame.1.trans hpending, hsame.2⟩

theorem Rounds.sound (h : Rounds w) : SoundRounds w where
  settled := h.counts.settled
  pending_kept := fun _ _ _ hkeeps hstep hpending => h.pending_kept hkeeps hstep hpending
  issued := fun allowEplbCommand m info layer hget hupdate => by
    rcases getEplbInfo_activation hget with ⟨hnone, -, -⟩ | ⟨-, hissued, htoken⟩
    · exact nomatch hnone.symm.trans hupdate
    · rw [htoken]
      exact h.attempt.pending layer (hissued.symm.trans hupdate)
  unacknowledged := h.counts.unacknowledged
  planned := fun intervalElapsed proposal w' layer hstep hgrabbed hplanned => by
    obtain ⟨⟨m, thread⟩, hevaluate, hrest⟩ := bind_eq_ok.mp hstep
    cases hrest
    rcases evaluate_cases hevaluate with ⟨-, -, hnot⟩ | ⟨-, -, _, _, hphase⟩ | ⟨-, hplans, -⟩
    · rw [hgrabbed] at hnot
      cases hnot
    · have hplanned : thread.phase.hasPlanned = true := hplanned
      rw [hphase] at hplanned
      cases hplanned
    · unfold EplbSystem.inFlight
      rw [planned_of_isGrabbed hgrabbed, inRound_false_of_quiet (h.quiet hplans) layer]
      rfl
  copies := h.copies.settled

end

/-- Runs of the manager of a model with these dimensions that lose no pending layer. -/
theorem rebalance_rounds (layerNum deviceNum expertsNum redundantExpertsNum : Nat)
    (is : List EplbInput) (w : EplbSystem)
    (run : ReachesWith EplbSystem.step EplbSystem.keepsPending
      (.make layerNum deviceNum expertsNum redundantExpertsNum) is w) : SoundRounds w := by
  have hrounds : Rounds w := run.invariant
    (fun _ _ _ h hkeeps hstep => h.step hkeeps hstep) (.start _ _ _ _)
  exact hrounds.sound

/-! ## Three layers -/

def reversedPlans : Proposal where
  planLayer _ previous := previous.reverse
  beneficial _ := true

/-- A round begins, and its first layer is reported by both devices. -/
def firstLayerReady : List EplbInput :=
  [.updateExpertLoad 2 (-1), .grab, .evaluate true reversedPlans, .publish,
    .getEplbInfo true, .setPreparedTokens [1, 1], .managerIteration false false]

/-- The second layer becomes ready when the first one has been acknowledged. -/
theorem rebalance_rounds_two_layers :
    ∃ w, ReachesWith EplbSystem.step EplbSystem.keepsPending (.make 3 2 2 0)
        (firstLayerReady ++ [.getEplbInfo true, .setPreparedTokens [2, 2], .updateExpertLoad 2 1,
          .managerIteration false false]) w ∧
      (w.manager.pendingActivationLayerId = some 1 ∧ w.inFlight 0 = false) ∧ SoundRounds w := by
  obtain ⟨w, run, hcheck⟩ := @ReachesWith.of_check _ _ _ EplbSystem.step EplbSystem.keepsPending _
    (fun w => decide (w.manager.pendingActivationLayerId = some 1 ∧ w.inFlight 0 = false))
    (.make 3 2 2 0)
    (firstLayerReady ++ [.getEplbInfo true, .setPreparedTokens [2, 2], .updateExpertLoad 2 1,
      .managerIteration false false]) (by decide +kernel)
  exact ⟨w, run, decide_eq_true_eq.mp hcheck, rebalance_rounds 3 2 2 0 _ w run⟩

/-- The acknowledgement of the first layer is late. The third layer becomes ready while the second
one is pending, and the second is neither activated nor given up; its placement in the policy is not
the active one. -/
theorem pending_activation_overwritten :
    ∃ w, Reaches EplbSystem.step (.make 3 2 2 0)
        (firstLayerReady ++ [.getEplbInfo true, .setPreparedTokens [2, 2],
          .managerIteration false false, .getEplbInfo true, .setPreparedTokens [3, 3],
          .managerIteration false false, .updateExpertLoad 2 1, .getEplbInfo true,
          .updateExpertLoad 2 3]) w ∧
      w.manager.roundInProgress = false ∧ (∀ layer ∈ List.range 3, w.inFlight layer = false) ∧
      EplbEvent.enabled 1 ∈ w.history ∧ EplbEvent.activated 1 ∉ w.history ∧
      EplbEvent.aborted 1 ∉ w.history ∧
      w.manager.policy.expertDistribution 1 ≠ w.manager.activeExpertDistribution 1 := by
  obtain ⟨w, run, hcheck⟩ := @ReachesWith.of_check _ _ _ EplbSystem.step (fun _ _ => True) _
    (fun w => decide (w.manager.roundInProgress = false ∧
      (∀ layer ∈ List.range 3, w.inFlight layer = false) ∧
      EplbEvent.enabled 1 ∈ w.history ∧ EplbEvent.activated 1 ∉ w.history ∧
      EplbEvent.aborted 1 ∉ w.history ∧
      w.manager.policy.expertDistribution 1 ≠ w.manager.activeExpertDistribution 1))
    (.make 3 2 2 0)
    (firstLayerReady ++ [.getEplbInfo true, .setPreparedTokens [2, 2],
      .managerIteration false false, .getEplbInfo true, .setPreparedTokens [3, 3],
      .managerIteration false false, .updateExpertLoad 2 1, .getEplbInfo true,
      .updateExpertLoad 2 3]) (by decide +kernel)
  exact ⟨w, run, decide_eq_true_eq.mp hcheck⟩

end Xllm.Framework
