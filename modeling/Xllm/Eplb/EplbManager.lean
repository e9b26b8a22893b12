import Mathlib

/-!
# Rebalancing experts

`EplbManager` (`core/framework/eplb/eplb_manager.cpp`) with the bookkeeping of its policy
(`EplbPolicyBase` in `core/framework/eplb/eplb_policy.cpp`). A round begins when the policy plans new
placements for some layers. Each layer is handed to the devices (prepare), and when every device has
loaded its experts the next `get_eplb_info` tells the devices to use them (activation); the output of
that step acknowledges it. A layer whose prepare takes too long is given up.

A function that takes the mutex is one critical section, and so is an iteration of the manager loop;
the rebalance loop takes the mutex twice. What is indexed by layer or device is a function of it, and
a layer's placement is the flat list of its experts, device by device. Layer ids are optional where
the source has -1. The clock is an argument: whether a deadline has passed. Loads are not modelled but
for the number of samples: `Proposal` is what they decide, for each layer the plan of the policy and
whether its peak load is enough of an improvement.
-/

namespace Xllm.Framework

inductive EplbCheck
  | packSize
  | layerId
  | expertLoadCount
  | prepareTokenCount
  | activationToken
  | prepareTokenSpace
  deriving DecidableEq, Repr

/-! ## The policy -/

structure LayerRollbackState where
  expertDistribution : List Int
  prevAssignment : List Int
  deriving DecidableEq, Repr

/-- What the loads of a round decide. -/
structure Proposal where
  /-- `plan_layer`, of the layer and its previous assignment. -/
  planLayer : Nat → List Int → List Int
  /-- `improvement_ratio` is positive and not below the configured minimum. -/
  beneficial : Nat → Bool

structure EplbPolicy where
  layerNum : Nat
  /-- `device_num_ * device_experts_num_`. -/
  layerStride : Nat
  expertDistribution : Nat → List Int
  prevLayerAssignment : Nat → List Int
  rollbackStates : Nat → Option LayerRollbackState

namespace EplbPolicy

def make (layerNum layerStride : Nat) (currentDistribution : Nat → List Int) : EplbPolicy where
  layerNum
  layerStride
  expertDistribution := currentDistribution
  prevLayerAssignment := currentDistribution
  rollbackStates _ := none

/-- The loop body of `rebalance_experts`. -/
def rebalanceLayer (proposal : Proposal) (acc : EplbPolicy × (Nat → Bool)) (layer : Nat) :
    Except EplbCheck (EplbPolicy × (Nat → Bool)) :=
  let (policy, enableUpdateVec) := acc
  let previous := policy.prevLayerAssignment layer
  let balanced := proposal.planLayer layer previous
  if balanced = [] then .ok acc
  else if balanced.length ≠ policy.layerStride then .error .packSize
  else if balanced = previous ∨ previous ≠ [] ∧ ¬ proposal.beneficial layer then .ok acc
  else
    let rollback := { expertDistribution := policy.expertDistribution layer, prevAssignment := previous }
    .ok ({ policy with
            rollbackStates := Function.update policy.rollbackStates layer (some rollback)
            prevLayerAssignment := Function.update policy.prevLayerAssignment layer balanced
            expertDistribution := Function.update policy.expertDistribution layer balanced },
      Function.update enableUpdateVec layer true)

/-- The policy afterwards, and the layers it has planned anew. -/
def rebalanceExperts (policy : EplbPolicy) (proposal : Proposal) :
    Except EplbCheck (EplbPolicy × (Nat → Bool)) :=
  (List.range policy.layerNum).foldlM (rebalanceLayer proposal) (policy, fun _ => false)

def commitLayer (policy : EplbPolicy) (layerId : Nat) : Except EplbCheck EplbPolicy :=
  if layerId < policy.layerNum then
    .ok { policy with rollbackStates := Function.update policy.rollbackStates layerId none }
  else .error .layerId

def abortLayer (policy : EplbPolicy) (layerId : Nat) : Except EplbCheck EplbPolicy :=
  if layerId < policy.layerNum then
    match policy.rollbackStates layerId with
    | none => .ok policy
    | some rollback =>
      .ok { policy with
        expertDistribution :=
          Function.update policy.expertDistribution layerId rollback.expertDistribution
        prevLayerAssignment :=
          Function.update policy.prevLayerAssignment layerId rollback.prevAssignment
        rollbackStates := Function.update policy.rollbackStates layerId none }
  else .error .layerId

end EplbPolicy

/-! ## The manager -/

inductive LayerState
  | idle
  | preparing
  | ready
  deriving DecidableEq, Repr

structure EplbInfo where
  prepareLayerId : Option Nat := none
  prepareToken : Int := -1
  expertIds : List Int := []
  updateLayerId : Option Nat := none
  activationToken : Int := -1
  deriving DecidableEq, Repr

/-- `ThreadSafeData` and the policy. A sample of the queue is the generation it was taken under; of
the two start times of a prepare, whether they are set. -/
structure EplbManager where
  layerNum : Nat
  deviceNum : Nat
  policy : EplbPolicy
  activeExpertDistribution : Nat → List Int
  activeDistributionGeneration : Nat := 0
  physicalLoadSampleCount : Nat := 0
  expertDistribution : Nat → List Int
  cachedExpertIds : Nat → List Int
  enableUpdateVec : Nat → Bool := fun _ => false
  expertLoadQueue : List Nat := []
  layerStates : Nat → LayerState := fun _ => .idle
  preparedTokens : Nat → Int := fun _ => -1
  activePrepareToken : Int := -1
  nextPrepareToken : Int := 1
  prepareDispatchStart : Bool := false
  prepareObservationStart : Bool := false
  activeLayerId : Option Nat := none
  pendingActivationLayerId : Option Nat := none
  pendingActivationToken : Int := -1
  activationAwaitingLoadSampleLayerId : Option Nat := none
  activationAwaitingCompletionToken : Int := -1

namespace EplbManager

/-- The first placement of every layer: each device has its share of the experts, and the last of
them in its redundant slots. -/
def initialPlacement (deviceNum deviceExpertsNum redundantExpertsNum : Nat) : List Int :=
  let deviceRouteExpertsNum := deviceExpertsNum - redundantExpertsNum
  (List.range deviceNum).flatMap fun device =>
    let base := device * deviceRouteExpertsNum
    (List.range deviceExpertsNum).map fun expert =>
      if deviceRouteExpertsNum ≤ expert then ((base + deviceRouteExpertsNum : Nat) : Int) - 1
      else ((base + expert : Nat) : Int)

def make (layerNum deviceNum expertsNum redundantExpertsNum : Nat) : EplbManager :=
  let deviceExpertsNum := expertsNum / deviceNum + redundantExpertsNum
  let distribution := fun _ => initialPlacement deviceNum deviceExpertsNum redundantExpertsNum
  { layerNum
    deviceNum
    policy := .make layerNum (deviceNum * deviceExpertsNum) distribution
    activeExpertDistribution := distribution
    expertDistribution := distribution
    cachedExpertIds := distribution }

/-- The manager afterwards, and the layer whose activation is acknowledged. -/
def updateExpertLoad (m : EplbManager) (expertLoadCount : Nat) (completedActivationToken : Int) :
    Except EplbCheck (EplbManager × Option Nat) :=
  if expertLoadCount ≠ m.deviceNum then .error .expertLoadCount
  else
    let m := { m with expertLoadQueue := m.expertLoadQueue ++ [m.activeDistributionGeneration] }
    match m.activationAwaitingLoadSampleLayerId with
    | none => .ok (m, none)
    | some activatedLayer =>
      if completedActivationToken = m.activationAwaitingCompletionToken then do
        let policy ← m.policy.commitLayer activatedLayer
        .ok ({ m with
                policy
                activeExpertDistribution := Function.update m.activeExpertDistribution activatedLayer
                  (m.expertDistribution activatedLayer)
                activeDistributionGeneration := m.activeDistributionGeneration + 1
                physicalLoadSampleCount := 0
                activationAwaitingLoadSampleLayerId := none
                activationAwaitingCompletionToken := -1 }, some activatedLayer)
      else .ok (m, none)

/-- The first part of `get_eplb_info`: a pending activation is sent unless one is unacknowledged. -/
def issueActivation (m : EplbManager) : Except EplbCheck (EplbManager × EplbInfo) :=
  let updateLayerId :=
    if m.activationAwaitingLoadSampleLayerId = none then m.pendingActivationLayerId else none
  match updateLayerId with
  | none => .ok (m, {})
  | some layer =>
    if m.pendingActivationToken ≤ 0 then .error .activationToken
    else
      .ok ({ m with
              activationAwaitingLoadSampleLayerId := some layer
              activationAwaitingCompletionToken := m.pendingActivationToken
              pendingActivationLayerId := none
              pendingActivationToken := -1 },
        { updateLayerId := some layer, activationToken := m.pendingActivationToken })

def dispatchPrepare (m : EplbManager) (info : EplbInfo) : Except EplbCheck (EplbManager × EplbInfo) :=
  match m.activeLayerId with
  | none => .ok (m, info)
  | some active =>
    if m.layerStates active ≠ .idle then .ok (m, info)
    else if m.nextPrepareToken ≤ 0 ∨ 2 ^ 63 - 1 ≤ m.nextPrepareToken then .error .prepareTokenSpace
    else
      .ok ({ m with
              activePrepareToken := m.nextPrepareToken
              nextPrepareToken := m.nextPrepareToken + 1
              prepareDispatchStart := true
              prepareObservationStart := false
              layerStates := Function.update m.layerStates active .preparing },
        { info with
            prepareLayerId := some active
            prepareToken := m.nextPrepareToken
            expertIds := m.cachedExpertIds active })

def getEplbInfo (m : EplbManager) (allowEplbCommand : Bool) :
    Except EplbCheck (EplbManager × EplbInfo) :=
  if allowEplbCommand then do
    let (m, info) ← m.issueActivation
    m.dispatchPrepare info
  else .ok (m, {})

def setPreparedTokens (m : EplbManager) (prepareTokens : List Int) : Except EplbCheck EplbManager :=
  if prepareTokens.length ≠ m.deviceNum then .error .prepareTokenCount
  else
    .ok { m with
      prepareObservationStart := m.prepareObservationStart || m.activePrepareToken ≠ -1
      preparedTokens := fun device =>
        if prepareTokens[device]? = some m.activePrepareToken then m.activePrepareToken
        else m.preparedTokens device }

/-! ## The manager loop -/

/-- `find_next_true`, over the layers. -/
def findNextTrue (m : EplbManager) (enableUpdateVec : Nat → Bool) (startPos : Nat) : Option Nat :=
  ((List.range m.layerNum).drop startPos).find? enableUpdateVec

def allPrepared (m : EplbManager) : Bool :=
  (List.range m.deviceNum).all fun device => m.preparedTokens device = m.activePrepareToken

/-- What an iteration counts: `heartbeat_layers_completed` and `heartbeat_layers_timed_out`. -/
inductive Iteration
  | waited
  | completed (layer : Nat)
  | timedOut (layer : Nat)
  deriving DecidableEq, Repr

def completePrepare (m : EplbManager) (active : Nat) : EplbManager :=
  { m with
    layerStates := Function.update m.layerStates active .ready
    pendingActivationLayerId := some active
    pendingActivationToken := m.activePrepareToken
    activePrepareToken := -1
    prepareDispatchStart := false
    prepareObservationStart := false
    activeLayerId := m.findNextTrue m.enableUpdateVec (active + 1) }

def abortActivePrepare (m : EplbManager) (timedOutLayer : Nat) : Except EplbCheck EplbManager := do
  let policy ← m.policy.abortLayer timedOutLayer
  let enableUpdateVec := Function.update m.enableUpdateVec timedOutLayer false
  .ok { m with
    policy
    enableUpdateVec
    layerStates := Function.update m.layerStates timedOutLayer .idle
    activePrepareToken := -1
    prepareDispatchStart := false
    prepareObservationStart := false
    preparedTokens := fun _ => -1
    activeLayerId := m.findNextTrue enableUpdateVec (timedOutLayer + 1) }

/-- An iteration of the manager loop. The arguments say whether the two timeouts have passed. -/
def managerIteration (m : EplbManager) (outputTimedOut prepareTimedOut : Bool) :
    Except EplbCheck (EplbManager × Iteration) :=
  match m.activeLayerId with
  | none => .ok (m, .waited)
  | some active =>
    if m.activePrepareToken = -1 then .ok (m, .waited)
    else if m.allPrepared then .ok (m.completePrepare active, .completed active)
    else
      let timedOut :=
        if m.prepareObservationStart then prepareTimedOut else m.prepareDispatchStart && outputTimedOut
      if timedOut then do
        let m ← m.abortActivePrepare active
        .ok (m, .timedOut active)
      else .ok (m, .waited)

end EplbManager

/-! ## The rebalance loop -/

inductive RebalancePhase
  | waiting
  | grabbed (nextBatch : List Nat) (physicalLoadGeneration physicalLoadSampleCount : Nat)
      (roundInProgress : Bool)
  | evaluated (physicalLoadGeneration physicalLoadSampleCount : Nat)
      (result : Option ((Nat → List Int) × (Nat → Bool)))

/-- The local variables of `rebalance_experts_loop`. -/
structure RebalanceThread where
  phase : RebalancePhase := .waiting
  rebalanceDeadline : Bool := false
  deadlineGeneration : Option Nat := none

namespace EplbManager

def roundInProgress (m : EplbManager) : Bool :=
  m.activeLayerId.isSome || m.pendingActivationLayerId.isSome ||
    m.activationAwaitingLoadSampleLayerId.isSome

/-- Phase 1, once there is data or a deadline to wait for. -/
def grab (m : EplbManager) (thread : RebalanceThread) : EplbManager × RebalanceThread :=
  match thread.phase with
  | .waiting =>
    if m.expertLoadQueue = [] ∧ ¬ thread.rebalanceDeadline then (m, thread)
    else
      ({ m with expertLoadQueue := [] },
        { thread with
          phase := .grabbed m.expertLoadQueue m.activeDistributionGeneration m.physicalLoadSampleCount
            m.roundInProgress })
  | _ => (m, thread)

/-- Phases 2 and 3, without the mutex. `intervalElapsed`: the deadline has passed. -/
def evaluate (m : EplbManager) (thread : RebalanceThread) (intervalElapsed : Bool)
    (proposal : Proposal) : Except EplbCheck (EplbManager × RebalanceThread) :=
  match thread.phase with
  | .grabbed nextBatch generation sampleCount roundInProgress =>
    let sampleCount := sampleCount + nextBatch.count generation
    let rebalanceDeadline :=
      (thread.rebalanceDeadline && thread.deadlineGeneration = some generation) ||
        decide (0 < sampleCount)
    let elapsed := rebalanceDeadline && intervalElapsed
    let thread :=
      { thread with
        rebalanceDeadline := rebalanceDeadline && !elapsed
        deadlineGeneration := some generation }
    if !roundInProgress && decide (0 < sampleCount) && elapsed then do
      let (policy, enableUpdateVec) ← m.policy.rebalanceExperts proposal
      .ok ({ m with policy },
        { thread with
          phase := .evaluated generation sampleCount
            (some (policy.expertDistribution, enableUpdateVec)) })
    else .ok (m, { thread with phase := .evaluated generation sampleCount none })
  | _ => .ok (m, thread)

def startRound (m : EplbManager) (newDistribution : Nat → List Int) (newUpdateVec : Nat → Bool) :
    EplbManager :=
  let expertDistribution := fun layer =>
    if newUpdateVec layer then newDistribution layer else m.expertDistribution layer
  { m with
    expertDistribution
    enableUpdateVec := newUpdateVec
    layerStates := fun _ => .idle
    pendingActivationLayerId := none
    activeLayerId := m.findNextTrue newUpdateVec 0
    -- no listed layer means every layer
    cachedExpertIds := fun layer =>
      if newUpdateVec layer ∨ ¬ (List.range m.layerNum).any newUpdateVec then
        expertDistribution layer
      else m.cachedExpertIds layer }

def publish (m : EplbManager) (thread : RebalanceThread) : EplbManager × RebalanceThread :=
  match thread.phase with
  | .evaluated generation sampleCount result =>
    let m :=
      if m.activeDistributionGeneration = generation then
        { m with physicalLoadSampleCount := sampleCount }
      else m
    let m :=
      match result with
      | none => m
      | some (newDistribution, newUpdateVec) => m.startRound newDistribution newUpdateVec
    (m, { thread with phase := .waiting })
  | _ => (m, thread)

end EplbManager

end Xllm.Framework
