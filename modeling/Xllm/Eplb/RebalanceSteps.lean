import Xllm.Lib.Run
import Xllm.Eplb.RebalanceSystem

/-!
# What the critical sections can do

One lemma for each function of the manager and of the policy, with all that its result can be. The
proofs about runs take a step apart by these lemmas and do not unfold the functions again.

Of a layer the policy keeps the placement, the one before it, and a rollback. A plan replaces all three
or none (`Replanned`); giving a layer up restores the rollback and leaves the other layers alone
(`abortLayer_spec`).
-/

namespace Xllm.Framework

open Xllm.Lib List Function

/-! ## The next enabled layer -/

section

variable {m : EplbManager} {enableUpdateVec : Nat → Bool} {start layer : Nat}

/-- The answer is the first enabled layer from `start` on. -/
theorem findNextTrue_some {active : Nat} (h : m.findNextTrue enableUpdateVec start = some active) :
    start ≤ active ∧ active < m.layerNum ∧ enableUpdateVec active = true ∧
      ∀ layer, start ≤ layer → layer < active → enableUpdateVec layer = false := by
  obtain ⟨htrue, i, hi, hget, hbefore⟩ := List.find?_eq_some_iff_getElem.mp h
  rw [length_drop, length_range] at hi
  rw [getElem_drop, getElem_range] at hget
  refine ⟨by omega, by omega, htrue, fun layer hstart hlt => ?_⟩
  have hnot := hbefore (layer - start) (by omega)
  rw [getElem_drop, getElem_range, Nat.add_sub_cancel' hstart] at hnot
  simpa using hnot

theorem findNextTrue_none (h : m.findNextTrue enableUpdateVec start = none) (hstart : start ≤ layer)
    (hlt : layer < m.layerNum) : enableUpdateVec layer = false := by
  unfold EplbManager.findNextTrue at h
  rw [List.find?_eq_none] at h
  have hmem : layer ∈ (List.range m.layerNum).drop start := by
    rw [mem_iff_getElem]
    refine ⟨layer - start, by rw [length_drop, length_range]; omega, ?_⟩
    rw [getElem_drop, getElem_range]
    omega
  simpa using h layer hmem

end

/-! ## What a step can do -/

namespace EplbManager

/-- The awaited layer was acknowledged: its rollback is dropped and its placement becomes active. -/
def acknowledged (m : EplbManager) (activated : Nat) : EplbManager :=
  { m with
    policy :=
      { m.policy with
        rollbackStates := Function.update m.policy.rollbackStates activated none }
    activeExpertDistribution := Function.update m.activeExpertDistribution activated
      (m.expertDistribution activated)
    activeDistributionGeneration := m.activeDistributionGeneration + 1
    physicalLoadSampleCount := 0
    activationAwaitingLoadSampleLayerId := none
    activationAwaitingCompletionToken := -1 }

/-- The pending layer was sent to the workers and is awaited. -/
def issued (m : EplbManager) (layer : Nat) : EplbManager :=
  { m with
    activationAwaitingLoadSampleLayerId := some layer
    activationAwaitingCompletionToken := m.pendingActivationToken
    pendingActivationLayerId := none
    pendingActivationToken := -1 }

/-- The active layer was handed out under the next token. -/
def dispatched (m : EplbManager) (active : Nat) : EplbManager :=
  { m with
    activePrepareToken := m.nextPrepareToken
    nextPrepareToken := m.nextPrepareToken + 1
    prepareDispatchStart := true
    prepareObservationStart := false
    layerStates := Function.update m.layerStates active .preparing }

end EplbManager

section

variable {m m' : EplbManager}

theorem updateExpertLoad_cases {count : Nat} {token : Int} {acknowledged : Option Nat}
    (h : m.updateExpertLoad count token = .ok (m', acknowledged)) :
    (acknowledged = none ∧
      m' = { m with expertLoadQueue := m.expertLoadQueue ++ [m.activeDistributionGeneration] }) ∨
    ∃ activated, acknowledged = some activated ∧
      m.activationAwaitingLoadSampleLayerId = some activated ∧
      m' = EplbManager.acknowledged
        { m with expertLoadQueue := m.expertLoadQueue ++ [m.activeDistributionGeneration] }
        activated := by
  unfold EplbManager.updateExpertLoad at h
  split at h
  · cases h
  cases hawait : m.activationAwaitingLoadSampleLayerId with
  | none =>
    rw [hawait] at h
    cases h
    exact .inl ⟨rfl, rfl⟩
  | some activated =>
    rw [hawait] at h
    dsimp only at h
    split at h
    · rw [bind_eq_ok] at h
      obtain ⟨policy, hcommit, hrest⟩ := h
      unfold EplbPolicy.commitLayer at hcommit
      split at hcommit
      · cases hcommit
        cases hrest
        exact .inr ⟨activated, rfl, rfl, rfl⟩
      · cases hcommit
    · cases h
      exact .inl ⟨rfl, rfl⟩

variable {info : EplbInfo}

theorem issueActivation_cases (h : m.issueActivation = .ok (m', info)) :
    (m' = m ∧ info = {} ∧ (m.activationAwaitingLoadSampleLayerId = none →
        m.pendingActivationLayerId = none)) ∨
    ∃ layer, m.activationAwaitingLoadSampleLayerId = none ∧
      m.pendingActivationLayerId = some layer ∧ 0 < m.pendingActivationToken ∧
      info = { updateLayerId := some layer, activationToken := m.pendingActivationToken } ∧
      m' = m.issued layer := by
  unfold EplbManager.issueActivation at h
  cases hawait : m.activationAwaitingLoadSampleLayerId with
  | some awaiting =>
    rw [hawait, if_neg (by simp)] at h
    cases h
    exact .inl ⟨rfl, rfl, nofun⟩
  | none =>
    rw [hawait, if_pos rfl] at h
    cases hpending : m.pendingActivationLayerId with
    | none =>
      rw [hpending] at h
      cases h
      exact .inl ⟨rfl, rfl, fun _ => rfl⟩
    | some layer =>
      rw [hpending] at h
      split at h
      · cases h
      · cases h
        exact .inr ⟨layer, rfl, rfl, by omega, rfl, rfl⟩

theorem dispatchPrepare_cases {info' : EplbInfo} (h : m.dispatchPrepare info = .ok (m', info')) :
    (m' = m ∧ info' = info) ∨
    ∃ active, m.activeLayerId = some active ∧ m.layerStates active = .idle ∧
      0 < m.nextPrepareToken ∧
      info' =
        { info with
          prepareLayerId := some active
          prepareToken := m.nextPrepareToken
          expertIds := m.cachedExpertIds active } ∧
      m' = m.dispatched active := by
  unfold EplbManager.dispatchPrepare at h
  cases hactive : m.activeLayerId with
  | none =>
    rw [hactive] at h
    cases h
    exact .inl ⟨rfl, rfl⟩
  | some active =>
    rw [hactive] at h
    dsimp only at h
    split at h
    · cases h
      exact .inl ⟨rfl, rfl⟩
    rename_i hidle
    split at h
    · cases h
    rename_i htoken
    cases h
    refine .inr ⟨active, rfl, not_not.mp hidle, by omega, rfl, ?_⟩
    rw [EplbManager.dispatched, hactive]

theorem abortActivePrepare_cases {layer : Nat} (h : m.abortActivePrepare layer = .ok m') :
    ∃ policy, m.policy.abortLayer layer = .ok policy ∧
      m' =
        { m with
          policy
          enableUpdateVec := Function.update m.enableUpdateVec layer false
          layerStates := Function.update m.layerStates layer .idle
          activePrepareToken := -1
          prepareDispatchStart := false
          prepareObservationStart := false
          preparedTokens := fun _ => -1
          activeLayerId :=
            m.findNextTrue (Function.update m.enableUpdateVec layer false) (layer + 1) } := by
  obtain ⟨policy, habort, hrest⟩ := bind_eq_ok.mp h
  cases hrest
  exact ⟨policy, habort, rfl⟩

theorem managerIteration_cases {outputTimedOut prepareTimedOut : Bool}
    {iteration : EplbManager.Iteration}
    (h : m.managerIteration outputTimedOut prepareTimedOut = .ok (m', iteration)) :
    (m' = m ∧ iteration = .waited) ∨
    ∃ active, m.activeLayerId = some active ∧ m.activePrepareToken ≠ -1 ∧
      ((m.allPrepared = true ∧ m' = m.completePrepare active ∧ iteration = .completed active) ∨
        m.abortActivePrepare active = .ok m' ∧ iteration = .timedOut active) := by
  unfold EplbManager.managerIteration at h
  cases hactive : m.activeLayerId with
  | none =>
    rw [hactive] at h
    cases h
    exact .inl ⟨rfl, rfl⟩
  | some active =>
    rw [hactive] at h
    dsimp only at h
    split at h
    · cases h
      exact .inl ⟨rfl, rfl⟩
    rename_i htoken
    split at h
    · rename_i hall
      cases h
      exact .inr ⟨active, rfl, htoken, .inl ⟨hall, rfl, rfl⟩⟩
    -- which of the two timeouts counts does not matter here
    generalize (if m.prepareObservationStart then prepareTimedOut
      else m.prepareDispatchStart && outputTimedOut) = timedOut at h
    split at h
    · rw [bind_eq_ok] at h
      obtain ⟨m'', habort, hrest⟩ := h
      cases hrest
      exact .inr ⟨active, rfl, htoken, .inr ⟨habort, rfl⟩⟩
    · cases h
      exact .inl ⟨rfl, rfl⟩

end

/-! ## The rebalance thread

A plan needs the slots to have been empty when the loads were grabbed. `evaluate` runs outside the
lock, so what it says about the slots is what `grab` saw. -/

/-- The policy may run, or has run and its round is not published. -/
def RebalancePhase.plans : RebalancePhase → Bool
  | .grabbed _ _ _ roundInProgress => !roundInProgress
  | .evaluated _ _ (some _) => true
  | _ => false

section

variable {w : EplbSystem} {m : EplbManager} {layerNum : Nat}

theorem count_enabled {layer : Nat} {planned : Nat → Bool}
    (h : planned layer = true → layer < layerNum) :
    (((List.range layerNum).filter planned).map EplbEvent.enabled).count (.enabled layer) =
      (planned layer).toNat := by
  have hinjective : Function.Injective EplbEvent.enabled := by
    intro a b heq
    injection heq
  rw [count_map_of_injective _ _ hinjective]
  cases hplanned : planned layer with
  | true =>
    rw [count_filter hplanned, count_range, if_pos (h hplanned)]
    rfl
  | false =>
    refine count_eq_zero.mpr fun hmem => ?_
    rw [mem_filter, hplanned] at hmem
    exact nomatch hmem.2

variable {before after : RebalancePhase}

theorem mem_planEvents {event : EplbEvent}
    (h : event ∈ planEvents layerNum before after) : ∃ layer, event = .enabled layer := by
  unfold planEvents at h
  split at h
  · obtain ⟨layer, -, rfl⟩ := mem_map.mp h
    exact ⟨layer, rfl⟩
  · cases h

variable {thread : RebalanceThread} {intervalElapsed : Bool} {proposal : Proposal}

/-- No loads were grabbed; or the policy is not asked; or it plans. -/
theorem evaluate_cases
    (h : w.manager.evaluate w.thread intervalElapsed proposal = .ok (m, thread)) :
    (m = w.manager ∧ thread = w.thread ∧ w.thread.phase.isGrabbed = false) ∨
    (w.thread.phase.isGrabbed = true ∧ m = w.manager ∧
      ∃ generation sampleCount, thread.phase = .evaluated generation sampleCount none) ∨
    (w.thread.phase.isGrabbed = true ∧ w.thread.phase.plans = true ∧
      ∃ policy enableUpdateVec generation sampleCount,
        w.manager.policy.rebalanceExperts proposal = .ok (policy, enableUpdateVec) ∧
        m = { w.manager with policy } ∧ thread.phase =
          .evaluated generation sampleCount (some (policy.expertDistribution, enableUpdateVec))) := by
  unfold EplbManager.evaluate at h
  cases hphase : w.thread.phase with
  | waiting =>
    rw [hphase] at h
    cases h
    exact .inl ⟨rfl, rfl, rfl⟩
  | evaluated =>
    rw [hphase] at h
    cases h
    exact .inl ⟨rfl, rfl, rfl⟩
  | grabbed nextBatch generation sampleCount roundInProgress =>
    rw [hphase] at h
    dsimp only at h
    split at h
    · -- the loads suffice, the interval is over and no round was in progress
      rename_i hready
      obtain ⟨⟨policy, enableUpdateVec⟩, hplan, hrest⟩ := bind_eq_ok.mp h
      cases hrest
      refine .inr (.inr ⟨rfl, ?_, policy, enableUpdateVec, generation, _, hplan, rfl, rfl⟩)
      rw [Bool.and_eq_true, Bool.and_eq_true] at hready
      exact hready.1.1
    · cases h
      exact .inr (.inl ⟨rfl, rfl, generation, _, rfl⟩)

theorem planned_of_isGrabbed {phase : RebalancePhase} (h : phase.isGrabbed = true) :
    phase.planned = fun _ => false := by
  cases phase with
  | waiting => exact nomatch h
  | grabbed => rfl
  | evaluated => exact nomatch h

theorem planEvents_eq :
    planEvents layerNum before after =
      if before.isGrabbed then ((List.range layerNum).filter after.planned).map .enabled else [] := by
  cases before <;> rfl

/-- A message either leaves the pending slot alone or activates what is in it. -/
theorem getEplbInfo_activation {allowEplbCommand : Bool} {info : EplbInfo}
    (hget : w.manager.getEplbInfo allowEplbCommand = .ok (m, info)) :
    (info.updateLayerId = none ∧ m.pendingActivationLayerId = w.manager.pendingActivationLayerId ∧
      m.pendingActivationToken = w.manager.pendingActivationToken) ∨
    (allowEplbCommand = true ∧ info.updateLayerId = w.manager.pendingActivationLayerId ∧
      info.activationToken = w.manager.pendingActivationToken) := by
  unfold EplbManager.getEplbInfo at hget
  cases allowEplbCommand with
  | false =>
    cases hget
    exact .inl ⟨rfl, rfl, rfl⟩
  | true =>
    rw [if_pos rfl, bind_eq_ok] at hget
    obtain ⟨⟨issued, sent⟩, hissue, hdispatch⟩ := hget
    rcases issueActivation_cases hissue with ⟨rfl, rfl, -⟩ | ⟨layer, -, hpending, -, rfl, rfl⟩
    · rcases dispatchPrepare_cases hdispatch with ⟨rfl, rfl⟩ | ⟨_, _, _, _, rfl, rfl⟩
      · exact .inl ⟨rfl, rfl, rfl⟩
      · exact .inl ⟨rfl, rfl, rfl⟩
    · rcases dispatchPrepare_cases hdispatch with ⟨rfl, rfl⟩ | ⟨_, _, _, _, rfl, rfl⟩
      · exact .inr ⟨rfl, hpending.symm, rfl⟩
      · exact .inr ⟨rfl, hpending.symm, rfl⟩

theorem grab_pending (m : EplbManager) (thread : RebalanceThread) :
    (m.grab thread).1.pendingActivationLayerId = m.pendingActivationLayerId ∧
      (m.grab thread).1.pendingActivationToken = m.pendingActivationToken := by
  unfold EplbManager.grab
  split
  · split <;> exact ⟨rfl, rfl⟩
  · exact ⟨rfl, rfl⟩

theorem publish_pending (m : EplbManager) {thread : RebalanceThread}
    (h : thread.phase.plans = false) :
    (m.publish thread).1.pendingActivationLayerId = m.pendingActivationLayerId ∧
      (m.publish thread).1.pendingActivationToken = m.pendingActivationToken := by
  unfold EplbManager.publish
  cases hphase : thread.phase with
  | waiting => exact ⟨rfl, rfl⟩
  | grabbed => exact ⟨rfl, rfl⟩
  | evaluated generation sampleCount result =>
    cases result with
    | none =>
      dsimp only
      split <;> exact ⟨rfl, rfl⟩
    | some result =>
      rw [hphase] at h
      cases h

end

/-! ## The policy -/

section

variable {policy policy' : EplbPolicy} {proposal : Proposal} {enableUpdateVec : Nat → Bool}

/-- Nothing happens to a layer. -/
def Kept (policy policy' : EplbPolicy) (layer : Nat) : Prop :=
  policy'.prevLayerAssignment layer = policy.prevLayerAssignment layer ∧
    policy'.expertDistribution layer = policy.expertDistribution layer ∧
    policy'.rollbackStates layer = policy.rollbackStates layer

/-- What a policy does to a layer: nothing, or a new plan whose rollback is the old one. -/
def Replanned (policy policy' : EplbPolicy) (enabled : Bool) (layer : Nat) : Prop :=
  (enabled = false ∧ policy'.prevLayerAssignment layer = policy.prevLayerAssignment layer ∧
      policy'.expertDistribution layer = policy.expertDistribution layer ∧
      policy'.rollbackStates layer = policy.rollbackStates layer) ∨
    (enabled = true ∧ policy'.prevLayerAssignment layer = policy'.expertDistribution layer ∧
      policy'.rollbackStates layer =
        some ⟨policy.expertDistribution layer, policy.prevLayerAssignment layer⟩)

variable {layer : Nat}

theorem rebalanceLayer_spec {acc acc' : EplbPolicy × (Nat → Bool)}
    (hfresh : acc.2 layer = false) (h : EplbPolicy.rebalanceLayer proposal acc layer = .ok acc') :
    acc'.1.layerNum = acc.1.layerNum ∧ Replanned acc.1 acc'.1 (acc'.2 layer) layer ∧
      ∀ other, other ≠ layer → acc'.2 other = acc.2 other ∧ Kept acc.1 acc'.1 other := by
  have hsame : acc.1.layerNum = acc.1.layerNum ∧ Replanned acc.1 acc.1 (acc.2 layer) layer ∧
      ∀ other, other ≠ layer → acc.2 other = acc.2 other ∧ Kept acc.1 acc.1 other :=
    ⟨rfl, .inl ⟨hfresh, rfl, rfl, rfl⟩, fun _ _ => ⟨rfl, rfl, rfl, rfl⟩⟩
  unfold EplbPolicy.rebalanceLayer at h
  dsimp only at h
  split at h
  · cases h
    exact hsame
  split at h
  · cases h
  split at h
  · cases h
    exact hsame
  cases h
  refine ⟨rfl, .inr ⟨?_, ?_, ?_⟩, fun other hne => ⟨?_, ?_, ?_, ?_⟩⟩
  · exact update_self ..
  · show Function.update _ _ _ _ = Function.update _ _ _ _
    rw [update_self, update_self]
  · exact update_self ..
  all_goals exact update_of_ne hne ..

/-- Over the loop, by induction on the layers done: each layer is replanned at its own iteration and
kept at the others. -/
theorem rebalanceExperts_spec (h : policy.rebalanceExperts proposal = .ok (policy', enableUpdateVec)) :
    policy'.layerNum = policy.layerNum ∧
      (∀ layer, enableUpdateVec layer = true → layer < policy.layerNum) ∧
      ∀ layer, Replanned policy policy' (enableUpdateVec layer) layer := by
  have loop : ∀ (n : Nat) (acc : EplbPolicy × (Nat → Bool)),
      (List.range n).foldlM (EplbPolicy.rebalanceLayer proposal) (policy, fun _ => false) =
        .ok acc →
      acc.1.layerNum = policy.layerNum ∧ (∀ layer, acc.2 layer = true → layer < n) ∧
        ∀ layer, Replanned policy acc.1 (acc.2 layer) layer := by
    intro n
    induction n with
    | zero =>
      intro acc hacc
      cases hacc
      exact ⟨rfl, nofun, fun _ => .inl ⟨rfl, rfl, rfl, rfl⟩⟩
    | succ n ih =>
      intro acc hacc
      rw [range_succ, foldlM_append, bind_eq_ok] at hacc
      obtain ⟨before, hbefore, hlast⟩ := hacc
      rw [foldlM_cons, bind_eq_ok] at hlast
      obtain ⟨after, hlayer, hdone⟩ := hlast
      cases hdone
      obtain ⟨hnum, hbound, hreplanned⟩ := ih before hbefore
      have hfresh : before.2 n = false := by
        cases hn : before.2 n with
        | false => rfl
        | true => exact absurd (hbound n hn) (Nat.lt_irrefl n)
      obtain ⟨hnum', hnew, hother⟩ := rebalanceLayer_spec hfresh hlayer
      refine ⟨hnum'.trans hnum, fun layer henabled => ?_, fun layer => ?_⟩
      · by_cases heq : layer = n
        · omega
        · rw [(hother layer heq).1] at henabled
          have := hbound layer henabled
          omega
      · by_cases heq : layer = n
        · -- before its own iteration the layer is as it was at the start
          subst heq
          rcases hreplanned layer with ⟨-, hprev, hexp, hroll⟩ | ⟨henabled, -, -⟩
          · unfold Replanned at hnew ⊢
            rw [← hprev, ← hexp, ← hroll]
            exact hnew
          · rw [hfresh] at henabled
            cases henabled
        · obtain ⟨hvec, hprev, hexp, hroll⟩ := hother layer heq
          have := hreplanned layer
          unfold Replanned at this ⊢
          rwa [hvec, hprev, hexp, hroll]
  exact loop policy.layerNum (policy', enableUpdateVec) h

theorem abortLayer_spec (h : policy.abortLayer layer = .ok policy') :
    policy'.layerNum = policy.layerNum ∧
      (∀ rollback, policy.rollbackStates layer = some rollback →
        policy'.expertDistribution layer = rollback.expertDistribution ∧
        policy'.prevLayerAssignment layer = rollback.prevAssignment) ∧
      ∀ other, other ≠ layer → Kept policy policy' other := by
  unfold EplbPolicy.abortLayer at h
  split at h
  · cases hroll : policy.rollbackStates layer with
    | none =>
      rw [hroll] at h
      cases h
      exact ⟨rfl, nofun, fun _ _ => ⟨rfl, rfl, rfl⟩⟩
    | some rollback =>
      rw [hroll] at h
      cases h
      refine ⟨rfl, fun _ hsome => ?_, fun other hne => ⟨?_, ?_, ?_⟩⟩
      · cases hsome
        exact ⟨update_self .., update_self ..⟩
      · exact update_of_ne hne ..
      · exact update_of_ne hne ..
      · exact update_of_ne hne ..
  · cases h

end

end Xllm.Framework
