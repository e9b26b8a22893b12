import Xllm.DistributedRuntime.StepChannelInv

/-!
# The invariant of the step channels over runs

One lemma for each party says that its step keeps the invariant: the engine only schedules and
collects, a channel may change the input segment of its group, the polling thread and the RPC
change their own lane.
-/

namespace Xllm.DistributedRuntime

open Xllm.Lib Function

variable {Input Output : Type} {d : Deployment Input Output} {steps : List (Nat → Input)}

namespace Deployment

variable {s s' : State Nat Input Output}

/-! ## The start -/

theorem LaneInv.start (r : Nat) :
    d.LaneInv steps r 0 0 (0 : Nat) (d.newLane r) where
  begun := le_rfl
  accounted := rfl
  queued := nofun
  executed := fun j e he => by cases he
  returned := List.nil_prefix
  shm := fun hhost => {
    onHost := hhost
    noRpc := rfl
    channel := rfl
    polling := ⟨rfl, rfl⟩
    unread := le_rfl
    heard := le_rfl
    outputVersion := rfl
    outputPayload := nofun }
  rpc := fun hoff => {
    channel := rfl
    polling := rfl
    written := le_rfl
    fellBack := fun hhost => nomatch hhost.symm.trans hoff
    rpc := rfl }

theorem DriverInv.start (g : Nat) :
    d.DriverInv steps g (Segment.zeroed (V := Nat)) (d.newLane (d.driver g)) where
  version := rfl
  remote := fun _ => rfl
  gaveUp := fun hhost hoff => nomatch hhost.symm.trans hoff
  fellBack := fun _ => le_rfl
  written := fun _ => rfl
  payload := nofun
  pending := nofun
  fits := fun j _ hj => absurd hj (Nat.not_lt_zero j)

theorem Inv.start : d.Inv steps (d.start (V := Nat)) where
  stepNo := Nat.zero_le _
  engine := trivial
  lanes := fun r _ => LaneInv.start r
  drivers := fun g _ => DriverInv.start g

/-! ## The input segment of a group -/

variable {g : Nat}

theorem Inv.version_le (h : d.Inv steps s) (hg : g < d.dpSize) :
    (s.inputs g).version ≤ s.stepNo + 1 := by
  have hlane := h.lanes _ (driver_lt hg)
  have hdriver := h.drivers g hg
  have hscheduled := s.scheduled_le (d.driver g)
  have haccounted := hlane.accounted
  cases hshm : (s.lanes (d.driver g)).enableShm with
  | false =>
    have := hdriver.fellBack hshm
    omega
  | true =>
    have hwritten := hdriver.written hshm
    cases hphase : (s.lanes (d.driver g)).channel <;> rw [hphase] at hwritten haccounted <;>
      dsimp only [ChannelPhase.busy] at hwritten haccounted <;> omega

theorem Inv.payload (h : d.Inv steps s) (hg : g < d.dpSize)
    (hversion : (s.inputs g).version = s.stepNo + 1) :
    (s.inputs g).payload = dispatched steps g s.stepNo := by
  have hlane := h.lanes _ (driver_lt hg)
  have hdriver := h.drivers g hg
  have hscheduled := s.scheduled_le (d.driver g)
  refine hdriver.payload ?_ _ hversion
  -- a driver that is about to publish has not yet written the input of this step
  intro hphase
  have hshm := hlane.enableShm_of_channel (by rw [hphase]; exact nofun)
  have hwritten := hdriver.written hshm
  rw [hphase] at hwritten
  have := (hlane.returned_of_busy hscheduled (by rw [hphase]; rfl)).1
  omega

/-! ## The engine -/

variable {r : Nat} {lane : Lane Nat Input Output}

theorem LaneInv.schedule {stepNo version : Nat} {input : Input}
    (h : d.LaneInv steps r stepNo stepNo version lane)
    (hinput : dispatched steps (d.dpRank r) stepNo = some input) :
    d.LaneInv steps r stepNo (stepNo + 1) version
      { lane with tasks := lane.tasks ++ [input] } := by
  have hbegun := h.begun
  have haccounted := h.accounted
  have hreturned : lane.returned.length = stepNo := by omega
  have htasks : lane.tasks = [] := List.eq_nil_of_length_eq_zero (by omega)
  refine { h with
    accounted := ?_
    queued := fun x hx => ?_
    shm := fun hshm => { h.shm hshm with }
    rpc := fun hoff => { h.rpc hoff with } }
  · show lane.returned.length + (lane.tasks ++ [input]).length + lane.channel.busy +
      lane.rpc.busy = stepNo + 1
    rw [List.length_append, List.length_singleton]
    omega
  · rw [htasks, List.nil_append, List.mem_singleton] at hx
    rw [hx, hreturned]
    exact hinput

/-- The engine schedules the workers in order; only the one it schedules has its lane changed. -/
theorem Inv.engineStep (h : d.Inv steps s) (hstep : d.engineStep steps s = .ok s') :
    d.Inv steps s' := by
  have hengine := h.engine
  unfold Deployment.engineStep at hstep
  cases hphase : s.engine with
  | idle =>
    rw [hphase] at hstep
    dsimp only at hstep
    split at hstep
    · next hlt =>
      cases hstep
      refine { h with engine := ⟨hlt, Nat.zero_le _⟩, lanes := fun r hr => ?_ }
      have hlane := h.lanes r hr
      have hsame : s.scheduled r = s.stepNo := by
        unfold State.scheduled
        rw [hphase]
      rw [hsame] at hlane
      exact hlane
    · cases hstep
  | scheduling workerRank =>
    rw [hphase] at hstep hengine
    dsimp only at hstep hengine
    obtain ⟨hlt, hrank⟩ := hengine
    have hscheduled : ∀ r, s.scheduled r =
        if r < workerRank then s.stepNo + 1 else s.stepNo := by
      intro r
      unfold State.scheduled
      rw [hphase]
    split at hstep
    · next hworker =>
      rw [List.getElem?_eq_getElem hlt] at hstep
      cases hstep
      refine { h with engine := ⟨hlt, hworker⟩, lanes := fun r hr => ?_, drivers := fun g hg => ?_ }
      · have hlane := h.lanes r hr
        rw [hscheduled] at hlane
        by_cases heq : r = workerRank
        · subst heq
          rw [if_neg (lt_irrefl r)] at hlane
          have hinput : dispatched steps (d.dpRank r) s.stepNo =
              some (steps[s.stepNo] (d.dpRank r)) := by
            unfold dispatched
            rw [List.getElem?_eq_getElem hlt]
            rfl
          have hgiven := hlane.schedule hinput
          dsimp only
          rw [update_self]
          convert hgiven using 1
          exact if_pos (Nat.lt_succ_self r)
        · dsimp only
          rw [update_of_ne heq]
          convert hlane using 1
          show (if r < workerRank + 1 then _ else _) = _
          have : r < workerRank + 1 ↔ r < workerRank := by omega
          simp only [this]
      · have hdriver := h.drivers g hg
        dsimp only
        by_cases heq : d.driver g = workerRank
        · rw [heq, update_self]
          rw [heq] at hdriver
          exact hdriver.frame rfl rfl rfl le_rfl fun _ => rfl
        · rw [update_of_ne heq]
          exact hdriver
    · next hworker =>
      cases hstep
      refine { h with engine := hlt, lanes := fun r hr => ?_ }
      have hlane := h.lanes r hr
      rw [hscheduled, if_pos (by omega)] at hlane
      exact hlane
  | collecting =>
    rw [hphase] at hstep hengine
    dsimp only at hstep hengine
    split at hstep
    · next hall =>
      cases hstep
      refine { h with stepNo := hengine, engine := trivial, lanes := fun r hr => ?_ }
      have hlane := h.lanes r hr
      have hsame : s.scheduled r = s.stepNo + 1 := by
        unfold State.scheduled
        rw [hphase]
      rw [hsame] at hlane
      exact { hlane with begun := (hall r hr).ge }
    · cases hstep

/-! ## The workers and their channels -/

theorem Inv.channelStep (h : d.Inv steps s) (hr : r < d.workerClientsNum) {seg : Segment Nat Input}
    (hstep : d.channelStep r (s.inputs (d.dpRank r)) (s.lanes r) = .ok (seg, lane)) :
    d.Inv steps { s with
      inputs := Function.update s.inputs (d.dpRank r) seg
      lanes := Function.update s.lanes r lane } := by
  have hg := dpRank_lt hr
  have hdriver := h.drivers _ hg
  have hkept : ChannelKept d steps r s.stepNo (s.scheduled r) (s.inputs (d.dpRank r))
      (s.lanes r) := by
    refine ⟨h.lanes r hr, fun hdrv => ?_⟩
    rwa [hdrv.driver_dpRank] at hdriver
  obtain ⟨⟨hlane, hsegment⟩, hle, hseg⟩ :=
    hkept.step (s.scheduled_le r) (h.version_le hg) hstep
  refine { h with lanes := fun r' hr' => ?_, drivers := fun g hg' => ?_ }
  · dsimp only
    by_cases heq : r' = r
    · rw [heq, update_self, update_self]
      exact hlane
    · rw [update_of_ne heq]
      by_cases hrank : d.dpRank r' = d.dpRank r
      · rw [hrank, update_self]
        have hother := h.lanes r' hr'
        rw [hrank] at hother
        refine hother.mono hle fun hoff hhost => ?_
        rcases hseg with hsame | hdrv
        · rw [hsame]
        · -- the driver of the group is the only lane on the host that falls back
          have hdrv' := ((hother.rpc hoff).fellBack hhost).1
          rw [← hdrv'.driver_dpRank, hrank, hdrv.driver_dpRank] at heq
          exact absurd rfl heq
      · rw [update_of_ne hrank]
        exact h.lanes r' hr'
  · dsimp only
    by_cases hdrv : d.driver g = r
    · have hrank : d.dpRank r = g := by rw [← hdrv, dpRank_driver]
      rw [hdrv, hrank, update_self, update_self]
      have := hsegment (hdrv ▸ isDriver_driver g)
      rwa [hrank] at this
    · rw [update_of_ne hdrv]
      by_cases hrank : g = d.dpRank r
      · rw [hrank, update_self]
        rcases hseg with hsame | hdrv'
        · rw [hsame]
          exact hdriver
        · rw [hrank, hdrv'.driver_dpRank] at hdrv
          exact absurd rfl hdrv
      · rw [update_of_ne hrank]
        exact h.drivers g hg'

theorem Inv.updateLane (h : d.Inv steps s)
    (hlane : d.LaneInv steps r s.stepNo (s.scheduled r) (s.inputs (d.dpRank r)).version lane)
    (hdriver : ∀ g < d.dpSize, d.driver g = r → d.DriverInv steps g (s.inputs g) lane) :
    d.Inv steps { s with lanes := Function.update s.lanes r lane } := by
  refine { h with lanes := fun r' hr' => ?_, drivers := fun g hg => ?_ }
  · dsimp only
    by_cases heq : r' = r
    · rw [heq, update_self]
      exact hlane
    · rw [update_of_ne heq]
      exact h.lanes r' hr'
  · dsimp only
    by_cases heq : d.driver g = r
    · rw [heq, update_self]
      exact hdriver g hg heq
    · rw [update_of_ne heq]
      exact h.drivers g hg

theorem Inv.step (h : d.Inv steps s) (hout : ∀ r history input,
    d.RawOutputFits (d.forward r history input)) {party : Party}
    (hstep : d.step steps s party = .ok s') : d.Inv steps s' := by
  cases party with
  | engine => exact h.engineStep hstep
  | channel r =>
    unfold Deployment.step at hstep
    dsimp only at hstep
    split at hstep
    · next hr =>
      obtain ⟨⟨seg, lane⟩, hnext, hstep⟩ := bind_eq_ok.mp hstep
      cases hstep
      exact h.channelStep hr hnext
    · cases hstep
  | polling r =>
    unfold Deployment.step at hstep
    dsimp only at hstep
    split at hstep
    · next hr =>
      obtain ⟨lane, hnext, hstep⟩ := bind_eq_ok.mp hstep
      cases hstep
      have hg := dpRank_lt hr.1
      obtain ⟨hchannel, hshm, hwritten, hreturned⟩ := pollingStep_frame hnext
      refine h.updateLane ((h.lanes r hr.1).pollingStep hr.2 (hout r) (h.version_le hg)
        (h.payload hg) hnext) fun g hg' heq => ?_
      have hdriver := h.drivers g hg'
      rw [heq] at hdriver
      exact hdriver.frame hchannel hshm hwritten (by rw [hreturned]) fun _ => by rw [hreturned]
    · cases hstep
  | rpc r =>
    unfold Deployment.step at hstep
    dsimp only at hstep
    split at hstep
    · next hr =>
      obtain ⟨lane, hnext, hstep⟩ := bind_eq_ok.mp hstep
      cases hstep
      obtain ⟨hlane, hoff, hchannel, hshm, hwritten, hle⟩ :=
        (h.lanes r hr).rpcStep (s.scheduled_le r) hnext
      refine h.updateLane hlane fun g hg' heq => ?_
      have hdriver := h.drivers g hg'
      rw [heq] at hdriver
      exact hdriver.frame hchannel hshm hwritten hle fun hon =>
        nomatch hon.symm.trans hoff
    · cases hstep

end Deployment

end Xllm.DistributedRuntime
