import Xllm.Eplb.EplbManager

/-!
# The rebalance loop as a system

`EplbSystem` is the manager with its rebalance thread and the history of what happened to the layers.
The threads of the source take turns in critical sections; `step` is one of them, with what the engine
and the clock say to it, so that an interleaving of the threads is a list of inputs.

The history is not part of the program. It says when a layer was enabled, handed out, reported,
activated and given up. `SoundRounds` is about it:

```
#enabled layer = #activated layer + #aborted layer + (1 if the layer is in flight)
```

Nothing in the manager keeps a layer that becomes ready from overwriting a pending one. `keepsPending`
is the condition that it does not, on the state before a step and the step's input.
-/

namespace Xllm.Framework

/-- What happens to the layers of a round. -/
inductive EplbEvent
  | enabled (layer : Nat)
  | prepared (layer : Nat) (token : Int) (expertIds : List Int)
  | reported (prepareTokens : List Int)
  | issued (layer : Nat) (token : Int)
  | activated (layer : Nat)
  | aborted (layer : Nat)
  deriving DecidableEq, Repr

/-- The critical sections, with what the engine and the clock say. -/
inductive EplbInput
  | updateExpertLoad (expertLoadCount : Nat) (completedActivationToken : Int)
  | getEplbInfo (allowEplbCommand : Bool)
  | setPreparedTokens (prepareTokens : List Int)
  | managerIteration (outputTimedOut prepareTimedOut : Bool)
  | grab
  | evaluate (intervalElapsed : Bool) (proposal : Proposal)
  | publish

/-- The manager, its rebalance thread, and the events so far, the latest first. -/
structure EplbSystem where
  manager : EplbManager
  thread : RebalanceThread := {}
  history : List EplbEvent := []

/-- The events of `get_eplb_info`. -/
def EplbInfo.events (info : EplbInfo) : List EplbEvent :=
  (info.prepareLayerId.map fun layer => .prepared layer info.prepareToken info.expertIds).toList ++
    (info.updateLayerId.map fun layer => .issued layer info.activationToken).toList

/-- An iteration of the manager loop shows only when it gives a layer up. -/
def EplbManager.Iteration.events : EplbManager.Iteration → List EplbEvent
  | .timedOut layer => [.aborted layer]
  | _ => []

/-- The layers that have been planned and not published. -/
def RebalancePhase.planned : RebalancePhase → Nat → Bool
  | .evaluated _ _ (some (_, newUpdateVec)) => newUpdateVec
  | _ => fun _ => false

/-- The loads have been taken and the policy has not been asked. -/
def RebalancePhase.isGrabbed : RebalancePhase → Bool
  | .grabbed _ _ _ _ => true
  | _ => false

/-- The policy has run, whether or not it enabled a layer. -/
def RebalancePhase.hasPlanned : RebalancePhase → Bool
  | .evaluated _ _ (some _) => true
  | _ => false

/-- The layers that a phase of the rebalance loop has planned. -/
def planEvents (layerNum : Nat) : RebalancePhase → RebalancePhase → List EplbEvent
  | .grabbed _ _ _ _, after => ((List.range layerNum).filter after.planned).map .enabled
  | _, _ => []

namespace EplbSystem

def make (layerNum deviceNum expertsNum redundantExpertsNum : Nat) : EplbSystem where
  manager := .make layerNum deviceNum expertsNum redundantExpertsNum

/-- One critical section. A failed `CHECK` ends the run. -/
def step (w : EplbSystem) : EplbInput → Except EplbCheck EplbSystem
  | .updateExpertLoad expertLoadCount completedActivationToken => do
    let (m, activated) ← w.manager.updateExpertLoad expertLoadCount completedActivationToken
    .ok { w with manager := m, history := (activated.map .activated).toList ++ w.history }
  | .getEplbInfo allowEplbCommand => do
    let (m, info) ← w.manager.getEplbInfo allowEplbCommand
    .ok { w with manager := m, history := info.events ++ w.history }
  | .setPreparedTokens prepareTokens => do
    let m ← w.manager.setPreparedTokens prepareTokens
    .ok { w with manager := m, history := .reported prepareTokens :: w.history }
  | .managerIteration outputTimedOut prepareTimedOut => do
    let (m, iteration) ← w.manager.managerIteration outputTimedOut prepareTimedOut
    .ok { w with manager := m, history := iteration.events ++ w.history }
  | .grab =>
    let (m, thread) := w.manager.grab w.thread
    .ok { w with manager := m, thread }
  | .evaluate intervalElapsed proposal => do
    let (m, thread) ← w.manager.evaluate w.thread intervalElapsed proposal
    .ok { manager := m, thread
          history := planEvents m.layerNum w.thread.phase thread.phase ++ w.history }
  | .publish =>
    let (m, thread) := w.manager.publish w.thread
    .ok { w with manager := m, thread }

/-- No layer becomes ready while another one is pending. -/
def keepsPending (w : EplbSystem) : EplbInput → Prop
  | .managerIteration _ _ =>
    w.manager.activeLayerId ≠ none → w.manager.activePrepareToken ≠ -1 →
      w.manager.allPrepared = true → w.manager.pendingActivationLayerId = none
  | _ => True

instance (w : EplbSystem) : (i : EplbInput) → Decidable (w.keepsPending i)
  | .managerIteration _ _ => by unfold keepsPending; infer_instance
  | .updateExpertLoad _ _ | .getEplbInfo _ | .setPreparedTokens _ | .grab | .evaluate _ _
  | .publish => isTrue trivial

end EplbSystem

/-! ## Layers in flight

A layer is in flight from the plan to the acknowledgement. Between `evaluate` and `publish` it is
only in the plan of the rebalance thread (`RebalancePhase.planned`); afterwards it is in the vector of
enabled layers at or behind the active one, or in one of the two later slots. -/

namespace EplbManager

/-- The layer is in one of the slots, or enabled and still to come. -/
def inRound (m : EplbManager) (layer : Nat) : Bool :=
  m.activeLayerId.any (fun active => decide (active ≤ layer) && m.enableUpdateVec layer) ||
    decide (m.pendingActivationLayerId = some layer) ||
    decide (m.activationAwaitingLoadSampleLayerId = some layer)

end EplbManager

namespace EplbSystem

/-- The layer is planned, or in a slot. -/
def inFlight (w : EplbSystem) (layer : Nat) : Bool :=
  w.thread.phase.planned layer || w.manager.inRound layer

end EplbSystem

/-- The layer's latest prepare: its token and experts, and the devices that have reported it since. -/
def Offered (history : List EplbEvent) (layer : Nat) (token : Int) (expertIds : List Int)
    (devices : Nat → Prop) : Prop :=
  ∃ later earlier, history = later ++ .prepared layer token expertIds :: earlier ∧
    (∀ token' expertIds', .prepared layer token' expertIds' ∉ later) ∧
    ∀ device, devices device →
      ∃ prepareTokens, .reported prepareTokens ∈ later ∧ prepareTokens[device]? = some token

def isIssued : EplbEvent → Bool
  | .issued _ _ => true
  | _ => false

def isActivated : EplbEvent → Bool
  | .activated _ => true
  | _ => false

/-- What holds in every state of a run that loses no pending layer. -/
structure SoundRounds (w : EplbSystem) : Prop where
  /-- A layer that was enabled is in flight, activated or given up, once for each time. -/
  settled : ∀ layer, w.history.count (.enabled layer) =
    w.history.count (.activated layer) + w.history.count (.aborted layer) +
      (w.inFlight layer).toNat
  /-- A pending layer stays pending until its activation is issued. -/
  pending_kept : ∀ i w' layer, w.keepsPending i → w.step i = .ok w' →
    w.manager.pendingActivationLayerId = some layer →
      w'.manager.pendingActivationLayerId = some layer ∧
          w'.manager.pendingActivationToken = w.manager.pendingActivationToken ∨
        ∃ info, w.manager.getEplbInfo true = .ok (w'.manager, info) ∧
          info.updateLayerId = some layer ∧
          info.activationToken = w.manager.pendingActivationToken
  /-- An activation is issued when every device has reported the token under which the experts of the
  present plan were handed out. -/
  issued : ∀ allowEplbCommand m info layer,
    w.manager.getEplbInfo allowEplbCommand = .ok (m, info) → info.updateLayerId = some layer →
      Offered w.history layer info.activationToken (w.manager.policy.expertDistribution layer)
        (· < w.manager.deviceNum)
  /-- At most one activation is unacknowledged. -/
  unacknowledged : w.history.countP isIssued = w.history.countP isActivated +
    w.manager.activationAwaitingLoadSampleLayerId.isSome.toNat
  /-- The policy plans when nothing is in flight. -/
  planned : ∀ intervalElapsed proposal w' layer,
    w.step (.evaluate intervalElapsed proposal) = .ok w' → w.thread.phase.isGrabbed = true →
      w'.thread.phase.hasPlanned = true → w.inFlight layer = false
  /-- The copies of the placement agree on a layer that is not in flight. -/
  copies : ∀ layer, w.inFlight layer = false →
    w.manager.policy.prevLayerAssignment layer = w.manager.policy.expertDistribution layer ∧
      w.manager.policy.expertDistribution layer = w.manager.activeExpertDistribution layer

end Xllm.Framework
