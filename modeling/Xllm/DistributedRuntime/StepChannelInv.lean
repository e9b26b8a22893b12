import Mathlib.Data.List.Infix
import Xllm.DistributedRuntime.StepChannel

/-!
# What the channels and the workers agree on

With versions that never wrap around, a version number is a count: of the inputs written to a
segment, of those a worker has seen, of the outputs it has written, of those its channel has seen.
The invariant compares these counts with the number of steps whose output a lane has returned. It
needs no condition on the inputs: a group in which the driver fell back stops, but it stops in
step.

`LaneInv` is about a channel and its worker and reads the input segment of the group only through
its version. `DriverInv` ties that segment to the channel that writes it.
-/

namespace Xllm.DistributedRuntime

variable {Input Output : Type}

/-- One while the thread of a channel runs a task. -/
def ChannelPhase.busy : ChannelPhase Input → Nat
  | .idle => 0
  | _ => 1

/-- One while an RPC is on its way. -/
def RpcPhase.busy : RpcPhase Input Output → Nat
  | .none => 0
  | _ => 1

@[simp] theorem ChannelPhase.busy_idle : (ChannelPhase.idle : ChannelPhase Input).busy = 0 := rfl

@[simp] theorem RpcPhase.busy_none : (RpcPhase.none : RpcPhase Input Output).busy = 0 := rfl

theorem RpcPhase.eq_none_of_busy {rpc : RpcPhase Input Output} (h : rpc.busy = 0) :
    rpc = .none := by
  cases rpc with
  | none => rfl
  | request _ => cases h
  | reply _ => cases h

/-- The input that a DP group is given in a step. -/
def dispatched (steps : List (Nat → Input)) (dpRank stepNo : Nat) : Option Input :=
  steps[stepNo]?.map fun forwardInputs => forwardInputs dpRank

namespace Deployment

variable (d : Deployment Input Output) (steps : List (Nat → Input))

/-- The thread of a channel that uses shared memory. -/
def ChannelInv (r : Nat) (lane : Lane Nat Input Output) : Prop :=
  match lane.channel with
  | .idle | .outputWait => lane.outputSeen = lane.returned.length
  | .inputWrite input => d.IsDriver r ∧ lane.outputSeen = lane.returned.length ∧
      dispatched steps (d.dpRank r) lane.returned.length = some input
  | .inputPublish => d.IsDriver r ∧ lane.outputSeen = lane.returned.length
  | .outputRead => lane.outputSeen = lane.returned.length + 1 ∧
      lane.outputWritten = lane.returned.length + 1

/-- The polling thread of a worker whose channel uses shared memory. -/
def PollingInv (r : Nat) (lane : Lane Nat Input Output) : Prop :=
  match lane.polling with
  | .inputWait => lane.inputSeen = lane.outputWritten ∧ lane.history.length = lane.outputWritten
  | .inputRead =>
      lane.inputSeen = lane.outputWritten + 1 ∧ lane.history.length = lane.outputWritten
  | .step input =>
      lane.inputSeen = lane.outputWritten + 1 ∧ lane.history.length = lane.outputWritten ∧
        dispatched steps (d.dpRank r) lane.outputWritten = some input
  | .outputWrite output =>
      lane.inputSeen = lane.outputWritten + 1 ∧ lane.history.length = lane.outputWritten + 1 ∧
        lane.history[lane.outputWritten]?.map Prod.snd = some output ∧ d.RawOutputFits output
  | .outputPublish =>
      lane.inputSeen = lane.outputWritten + 1 ∧ lane.history.length = lane.outputWritten + 1 ∧
        lane.output.payload = lane.history[lane.outputWritten]?.map Prod.snd
  | .aborted => False

/-- A lane whose channel uses shared memory. -/
structure ShmInv (r version : Nat) (lane : Lane Nat Input Output) : Prop where
  onHost : d.onHost r = true
  noRpc : lane.rpc = .none
  channel : d.ChannelInv steps r lane
  polling : d.PollingInv steps r lane
  unread : lane.inputSeen ≤ version
  heard : lane.outputSeen ≤ lane.outputWritten
  outputVersion : lane.output.version = lane.outputWritten
  outputPayload : lane.polling ≠ .outputPublish → ∀ j, lane.outputWritten = j + 1 →
    lane.output.payload = lane.history[j]?.map Prod.snd

/-- A lane whose channel uses the RPC, from the start or since its input did not fit. -/
structure RpcInv (r version : Nat) (lane : Lane Nat Input Output) : Prop where
  channel : lane.channel = .idle
  polling : lane.polling = .inputWait
  written : lane.outputWritten ≤ lane.returned.length
  fellBack : d.onHost r = true → d.IsDriver r ∧ lane.inputSeen = version
  rpc : match lane.rpc with
    | .none => lane.history.length = lane.returned.length
    | .request input => lane.history.length = lane.returned.length ∧
        dispatched steps (d.dpRank r) lane.returned.length = some input
    | .reply output => lane.history.length = lane.returned.length + 1 ∧
        lane.history[lane.returned.length]?.map Prod.snd = some output

/-- A lane to which `scheduled` tasks were given, while the engine has finished `stepNo` steps and
the input segment of the group has this version. -/
structure LaneInv (r stepNo scheduled version : Nat) (lane : Lane Nat Input Output) : Prop where
  begun : stepNo ≤ lane.returned.length
  accounted : lane.returned.length + lane.tasks.length + lane.channel.busy + lane.rpc.busy =
    scheduled
  queued : ∀ input ∈ lane.tasks, dispatched steps (d.dpRank r) lane.returned.length = some input
  executed : ∀ j e, lane.history[j]? = some e → dispatched steps (d.dpRank r) j = some e.1
  returned : lane.returned <+: lane.history.map Prod.snd
  shm : lane.enableShm = true → d.ShmInv steps r version lane
  rpc : lane.enableShm = false → d.RpcInv steps r version lane

/-- The input segment of a group and the channel of its driver. -/
structure DriverInv (g : Nat) (seg : Segment Nat Input) (lane : Lane Nat Input Output) : Prop where
  version : seg.version = lane.inputWritten
  remote : d.onHost (d.driver g) = false → seg.version = 0
  gaveUp : d.onHost (d.driver g) = true → lane.enableShm = false →
    ∃ j input, dispatched steps g j = some input ∧ ¬ d.InputFits input
  fellBack : lane.enableShm = false → seg.version ≤ lane.returned.length
  written : lane.enableShm = true → match lane.channel with
    | .outputWait | .outputRead => seg.version = lane.returned.length + 1
    | _ => seg.version = lane.returned.length
  payload : lane.channel ≠ .inputPublish → ∀ j, seg.version = j + 1 →
    seg.payload = dispatched steps g j
  pending : lane.channel = .inputPublish → seg.payload = dispatched steps g seg.version ∧
    ∀ input, dispatched steps g seg.version = some input → d.InputFits input
  fits : ∀ j input, j < seg.version → dispatched steps g j = some input → d.InputFits input

end Deployment

namespace State

variable {V : Type}

def scheduled (s : State V Input Output) (r : Nat) : Nat :=
  match s.engine with
  | .idle => s.stepNo
  | .scheduling workerRank => if r < workerRank then s.stepNo + 1 else s.stepNo
  | .collecting => s.stepNo + 1

theorem scheduled_le (s : State V Input Output) (r : Nat) : s.scheduled r ≤ s.stepNo + 1 := by
  unfold scheduled
  split
  · omega
  · split <;> omega
  · omega

end State

namespace Deployment

variable (d : Deployment Input Output) (steps : List (Nat → Input))

structure Inv (s : State Nat Input Output) : Prop where
  stepNo : s.stepNo ≤ steps.length
  engine : match s.engine with
    | .idle => True
    | .scheduling workerRank => s.stepNo < steps.length ∧ workerRank ≤ d.workerClientsNum
    | .collecting => s.stepNo < steps.length
  lanes : ∀ r < d.workerClientsNum,
    d.LaneInv steps r s.stepNo (s.scheduled r) (s.inputs (d.dpRank r)).version (s.lanes r)
  drivers : ∀ g < d.dpSize, d.DriverInv steps g (s.inputs g) (s.lanes (d.driver g))

variable {d steps}

/-! ## Ranks -/

theorem dpRank_lt {r : Nat} (hr : r < d.workerClientsNum) : d.dpRank r < d.dpSize :=
  Nat.div_lt_of_lt_mul (by rwa [Nat.mul_comm])

theorem driver_lt {g : Nat} (hg : g < d.dpSize) : d.driver g < d.workerClientsNum :=
  Nat.mul_lt_mul_of_pos_right hg d.dpLocalSize_pos

theorem dpRank_driver (g : Nat) : d.dpRank (d.driver g) = g :=
  Nat.mul_div_cancel g d.dpLocalSize_pos

theorem isDriver_driver (g : Nat) : d.IsDriver (d.driver g) :=
  Nat.mul_mod_left g d.dpLocalSize

theorem IsDriver.driver_dpRank {r : Nat} (h : d.IsDriver r) : d.driver (d.dpRank r) = r :=
  Nat.div_mul_cancel (Nat.dvd_of_mod_eq_zero h)

/-! ## A lane by itself -/

section

variable {r stepNo scheduled version : Nat} {lane : Lane Nat Input Output}

/-- While its channel runs the task of a step, a lane has returned the steps before. -/
theorem LaneInv.returned_of_busy (h : d.LaneInv steps r stepNo scheduled version lane)
    (hscheduled : scheduled ≤ stepNo + 1) (hbusy : lane.channel.busy = 1) :
    lane.returned.length = stepNo ∧ lane.tasks = [] := by
  have hbegun := h.begun
  have haccounted := h.accounted
  exact ⟨by omega, List.eq_nil_of_length_eq_zero (by omega)⟩

theorem ShmInv.returned_le (h : d.ShmInv steps r version lane) :
    lane.returned.length ≤ lane.outputSeen := by
  have hchannel := h.channel
  unfold ChannelInv at hchannel
  cases hphase : lane.channel <;> rw [hphase] at hchannel <;> dsimp only at hchannel <;> omega

theorem ShmInv.written_le (h : d.ShmInv steps r version lane) :
    lane.outputWritten ≤ lane.inputSeen := by
  have hpolling := h.polling
  unfold PollingInv at hpolling
  cases hphase : lane.polling <;> rw [hphase] at hpolling <;> dsimp only at hpolling <;> omega

theorem ShmInv.executed_le (h : d.ShmInv steps r version lane) :
    lane.outputWritten ≤ lane.history.length := by
  have hpolling := h.polling
  unfold PollingInv at hpolling
  cases hphase : lane.polling <;> rw [hphase] at hpolling <;> dsimp only at hpolling <;> omega

theorem LaneInv.counts (h : d.LaneInv steps r stepNo scheduled version lane)
    (hshm : lane.enableShm = true) :
    stepNo ≤ lane.returned.length ∧ lane.returned.length ≤ lane.outputSeen ∧
      lane.outputSeen ≤ lane.outputWritten ∧ lane.outputWritten ≤ lane.inputSeen ∧
      lane.inputSeen ≤ version :=
  ⟨h.begun, (h.shm hshm).returned_le, (h.shm hshm).heard, (h.shm hshm).written_le,
    (h.shm hshm).unread⟩

theorem ShmInv.inputWait (h : d.ShmInv steps r version lane)
    (hseen : lane.inputSeen = lane.outputWritten) :
    lane.polling = .inputWait ∧ lane.history.length = lane.outputWritten := by
  have hpolling := h.polling
  unfold PollingInv at hpolling
  cases hphase : lane.polling <;> rw [hphase] at hpolling <;> dsimp only at hpolling
  case inputWait => exact ⟨rfl, hpolling.2⟩
  all_goals omega

/-- A new version of the input segment is no concern of a lane until it reads it. -/
theorem LaneInv.mono {version' : Nat} (h : d.LaneInv steps r stepNo scheduled version lane)
    (hle : version ≤ version') (hrpc : lane.enableShm = false → d.onHost r = true →
      version' = version) : d.LaneInv steps r stepNo scheduled version' lane := by
  refine { h with shm := ?_, rpc := ?_ }
  · intro hshm
    exact { h.shm hshm with unread := (h.shm hshm).unread.trans hle }
  · intro hoff
    refine { h.rpc hoff with fellBack := ?_ }
    intro hhost
    rw [hrpc hoff hhost]
    exact (h.rpc hoff).fellBack hhost

variable {output : Output}

theorem returned_append (hreturned : lane.returned <+: lane.history.map Prod.snd)
    (houtput : lane.history[lane.returned.length]?.map Prod.snd = some output) :
    lane.returned ++ [output] <+: lane.history.map Prod.snd := by
  obtain ⟨rest, hrest⟩ := hreturned
  have hget : (lane.history.map Prod.snd)[lane.returned.length]? = some output := by
    rw [List.getElem?_map]
    exact houtput
  rw [← hrest, List.getElem?_append_right le_rfl, Nat.sub_self] at hget
  cases rest with
  | nil => exact nomatch hget
  | cons o rest =>
    rw [List.getElem?_cons_zero, Option.some.injEq] at hget
    refine ⟨rest, ?_⟩
    rw [← hrest, List.append_assoc, hget]
    rfl

variable {input : Input}

theorem executed_append
    (hexecuted : ∀ j e, lane.history[j]? = some e → dispatched steps (d.dpRank r) j = some e.1)
    (hinput : dispatched steps (d.dpRank r) lane.history.length = some input) :
    ∀ j e, (lane.history ++ [(input, output)])[j]? = some e →
      dispatched steps (d.dpRank r) j = some e.1 := by
  intro j e hj
  rcases Nat.lt_or_ge j lane.history.length with hlt | hge
  · rw [List.getElem?_append_left hlt] at hj
    exact hexecuted j e hj
  · rw [List.getElem?_append_right hge] at hj
    have hzero : j - lane.history.length = 0 := by
      by_contra hne
      rw [List.getElem?_eq_none (by simp only [List.length_singleton]; omega)] at hj
      cases hj
    rw [hzero, List.getElem?_cons_zero, Option.some.injEq] at hj
    have hj' : j = lane.history.length := by omega
    rw [hj', ← hj]
    exact hinput

/-! ## The polling thread of a worker -/

variable {lane' : Lane Nat Input Output}

theorem LaneInv.enableShm_of_pollingStep {seg : Segment Nat Input}
    (h : d.LaneInv steps r stepNo scheduled seg.version lane)
    (hhost : d.onHost r = true) (hstep : d.pollingStep r seg lane = .ok lane') :
    lane.enableShm = true := by
  by_contra hoff
  rw [Bool.not_eq_true] at hoff
  have hrpc := h.rpc hoff
  unfold Deployment.pollingStep at hstep
  rw [hrpc.polling] at hstep
  rw [if_neg (fun hfresh => hfresh (hrpc.fellBack hhost).2.symm)] at hstep
  cases hstep

/-- The worker's polling loop, by its phase. -/
theorem LaneInv.pollingStep {seg : Segment Nat Input}
    (h : d.LaneInv steps r stepNo scheduled seg.version lane) (hhost : d.onHost r = true)
    (hout : ∀ history input, d.RawOutputFits (d.forward r history input))
    (hversion : seg.version ≤ stepNo + 1) (hpayload : seg.version = stepNo + 1 →
      seg.payload = dispatched steps (d.dpRank r) stepNo)
    (hstep : d.pollingStep r seg lane = .ok lane') :
    d.LaneInv steps r stepNo scheduled seg.version lane' := by
  have hshm := h.enableShm_of_pollingStep hhost hstep
  have hinv := h.shm hshm
  have hrpc (hoff : lane.enableShm = false) : d.RpcInv steps r seg.version lane' :=
    nomatch hshm.symm.trans hoff
  obtain ⟨hbegun, hseen, hheard, hwritten, hunread⟩ := h.counts hshm
  have hpolling := hinv.polling
  unfold PollingInv at hpolling
  unfold Deployment.pollingStep at hstep
  cases hphase : lane.polling with
  | inputWait =>
    rw [hphase] at hpolling hstep
    dsimp only at hpolling hstep
    split at hstep
    · next hfresh =>
      cases hstep
      have hne : seg.version ≠ lane.inputSeen := hfresh
      refine { h with shm := fun _ => ?_, rpc := hrpc }
      · refine { hinv with polling := ?_, unread := le_rfl, outputPayload := ?_ }
        · have hnow : seg.version = lane.outputWritten + 1 := by omega
          exact ⟨hnow, hpolling.2⟩
        · intro _
          exact hinv.outputPayload (by rw [hphase]; exact nofun)
    · cases hstep
  | inputRead =>
    rw [hphase] at hpolling hstep
    have hstepNo : lane.outputWritten = stepNo := by omega
    rw [hpayload (by omega), ← hstepNo] at hstep
    cases hinput : dispatched steps (d.dpRank r) lane.outputWritten with
    | none => rw [hinput] at hstep; exact nomatch hstep
    | some input =>
      rw [hinput] at hstep
      cases hstep
      refine { h with shm := fun _ => ?_, rpc := hrpc }
      · refine { hinv with polling := ⟨hpolling.1, hpolling.2, hinput⟩, outputPayload := ?_ }
        intro _
        exact hinv.outputPayload (by rw [hphase]; exact nofun)
  | step input =>
    rw [hphase] at hpolling hstep
    obtain ⟨hsaw, hlength, hinput⟩ := hpolling
    cases hstep
    refine { h with executed := ?_, returned := ?_, shm := fun _ => ?_, rpc := hrpc }
    · exact executed_append h.executed (by rw [hlength]; exact hinput)
    · rw [List.map_append]
      exact h.returned.trans (List.prefix_append _ _)
    · refine { hinv with polling := ⟨hsaw, ?_, ?_, hout _ _⟩, outputPayload := ?_ }
      · simp [hlength]
      · simp [← hlength]
      · intro _ j hj
        -- what was published before is an earlier output
        have hlt : j < lane.history.length := hlength.trans hj ▸ Nat.lt_succ_self j
        rw [hinv.outputPayload (by rw [hphase]; exact nofun) j hj, List.getElem?_append_left hlt]
  | outputWrite output =>
    rw [hphase] at hpolling hstep
    dsimp only at hpolling hstep
    obtain ⟨hsaw, hlength, houtput, hfits⟩ := hpolling
    rw [if_pos hfits] at hstep
    cases hstep
    refine { h with shm := fun _ => ?_, rpc := hrpc }
    · refine { hinv with
        polling := ⟨hsaw, hlength, houtput.symm⟩
        outputVersion := hinv.outputVersion
        outputPayload := fun hne => absurd rfl hne }
  | outputPublish =>
    rw [hphase] at hpolling hstep
    obtain ⟨hsaw, hlength, houtput⟩ := hpolling
    cases hstep
    refine { h with shm := fun _ => ?_, rpc := hrpc }
    · refine { hinv with
        channel := ?_
        polling := ⟨hsaw, hlength⟩
        heard := Nat.le_succ_of_le hheard
        outputVersion := rfl
        outputPayload := ?_ }
      · have hchannel := hinv.channel
        unfold ChannelInv at hchannel ⊢
        cases hch : lane.channel <;> rw [hch] at hchannel <;> dsimp only at hchannel ⊢
        case outputRead => omega
        all_goals exact hchannel
      · intro _ j hj
        rw [← Nat.succ_injective hj]
        exact houtput
  | aborted =>
    rw [hphase] at hpolling
    exact absurd hpolling id

/-! ## The RPC -/

/-- The fallback: the worker runs the step on the request and replies. -/
theorem LaneInv.rpcStep
    (h : d.LaneInv steps r stepNo scheduled version lane) (hscheduled : scheduled ≤ stepNo + 1)
    (hstep : d.rpcStep r lane = .ok lane') :
    d.LaneInv steps r stepNo scheduled version lane' ∧ lane.enableShm = false ∧
      lane'.channel = lane.channel ∧ lane'.enableShm = lane.enableShm ∧
      lane'.inputWritten = lane.inputWritten ∧
      lane.returned.length ≤ lane'.returned.length := by
  have hoff : lane.enableShm = false := by
    by_contra hshm
    rw [Bool.not_eq_false] at hshm
    unfold Deployment.rpcStep at hstep
    rw [(h.shm hshm).noRpc] at hstep
    cases hstep
  have hinv := h.rpc hoff
  have hrpc := hinv.rpc
  have haccounted := h.accounted
  unfold Deployment.rpcStep at hstep
  cases hphase : lane.rpc with
  | none => rw [hphase] at hstep; exact nomatch hstep
  | request input =>
    rw [hphase] at hrpc hstep haccounted
    cases hstep
    refine ⟨?_, hoff, rfl, rfl, rfl, le_rfl⟩
    refine { h with
      accounted := haccounted
      executed := executed_append h.executed (by rw [hrpc.1]; exact hrpc.2)
      returned := ?_
      shm := fun hshm => nomatch hshm.symm.trans hoff
      rpc := fun _ => { hinv with rpc := ⟨?_, ?_⟩ } }
    · rw [List.map_append]
      exact h.returned.trans (List.prefix_append _ _)
    · simp [hrpc.1]
    · simp [← hrpc.1]
  | reply output =>
    rw [hphase] at hrpc hstep haccounted
    cases hstep
    have hlength : (lane.returned ++ [output]).length = lane.returned.length + 1 := by simp
    have hone : lane.returned.length + lane.tasks.length + lane.channel.busy + 1 = scheduled :=
      haccounted
    have htasks : lane.tasks = [] := by
      have hbegun := h.begun
      exact List.eq_nil_of_length_eq_zero (by omega)
    refine ⟨?_, hoff, rfl, rfl, rfl, by rw [hlength]; omega⟩
    refine { h with
      begun := by rw [hlength]; exact Nat.le_succ_of_le h.begun
      accounted := ?_
      queued := ?_
      returned := returned_append h.returned hrpc.2
      shm := fun hshm => nomatch hshm.symm.trans hoff
      rpc := fun _ => { hinv with written := ?_, rpc := ?_ } }
    · show (lane.returned ++ [output]).length + lane.tasks.length + lane.channel.busy + 0 = _
      omega
    · intro input hinput
      rw [htasks] at hinput
      cases hinput
    · rw [hlength]
      exact Nat.le_succ_of_le hinv.written
    · rw [hlength]
      exact hrpc.1

/-! ## The thread of a channel -/

theorem LaneInv.enableShm_of_channel (h : d.LaneInv steps r stepNo scheduled version lane)
    (hbusy : lane.channel ≠ .idle) : lane.enableShm = true := by
  by_contra hoff
  rw [Bool.not_eq_true] at hoff
  exact hbusy (h.rpc hoff).channel

variable {seg : Segment Nat Input}

/-- A channel and, where it is the driver's, the segment it writes. -/
structure ChannelKept (d : Deployment Input Output) (steps : List (Nat → Input))
    (r stepNo scheduled : Nat) (seg : Segment Nat Input) (lane : Lane Nat Input Output) :
    Prop where
  inStep : d.LaneInv steps r stepNo scheduled seg.version lane
  segment : d.IsDriver r → d.DriverInv steps (d.dpRank r) seg lane

/-- A channel that runs a task uses shared memory. -/
theorem ChannelKept.busy {phase : ChannelPhase Input}
    (h : ChannelKept d steps r stepNo scheduled seg lane) (hphase : lane.channel = phase)
    (hbusy : phase ≠ .idle) :
    lane.enableShm = true ∧ d.ShmInv steps r seg.version lane ∧
      lane.returned.length + lane.tasks.length + 1 + lane.rpc.busy = scheduled ∧
      d.ChannelInv steps r { lane with channel := phase } := by
  subst hphase
  have hshm := h.inStep.enableShm_of_channel hbusy
  refine ⟨hshm, h.inStep.shm hshm, ?_, (h.inStep.shm hshm).channel⟩
  rw [← h.inStep.accounted]
  cases hphase : lane.channel with
  | idle => exact absurd hphase hbusy
  | _ => rfl

/-- What the driver has written, by the phase of its channel. -/
theorem DriverInv.version_at {g : Nat} (h : d.DriverInv steps g seg lane)
    (hshm : lane.enableShm = true) {phase : ChannelPhase Input} :
    lane.channel = phase → match phase with
      | .outputWait | .outputRead => seg.version = lane.returned.length + 1
      | _ => seg.version = lane.returned.length := by
  rintro rfl
  exact h.written hshm

/-- An idle channel takes the input of its queue; by the counts there is no second one. -/
theorem ChannelKept.begin {tasks : List Input}
    (h : ChannelKept d steps r stepNo scheduled seg lane) (hscheduled : scheduled ≤ stepNo + 1)
    (hphase : lane.channel = .idle) (htasks : lane.tasks = input :: tasks) :
    (lane.enableShm = true → d.IsDriver r → ChannelKept d steps r stepNo scheduled seg
      { lane with tasks := tasks, channel := .inputWrite input }) ∧
    (lane.enableShm = true → ¬ d.IsDriver r → ChannelKept d steps r stepNo scheduled seg
      { lane with tasks := tasks, channel := .outputWait }) ∧
    (lane.enableShm = false → ChannelKept d steps r stepNo scheduled seg
      { lane with tasks := tasks, rpc := .request input }) := by
  obtain ⟨hlane, hdriver⟩ := h
  have hbegun := hlane.begun
  have haccounted := hlane.accounted
  rw [hphase, htasks, List.length_cons, ChannelPhase.busy_idle] at haccounted
  have hnil : tasks = [] := List.eq_nil_of_length_eq_zero (by omega)
  have hqueued : dispatched steps (d.dpRank r) lane.returned.length = some input :=
    hlane.queued input (by rw [htasks]; exact List.mem_cons_self)
  have hnone : ∀ x ∈ tasks,
      dispatched steps (d.dpRank r) lane.returned.length = some x := by
    intro x hx
    rw [hnil] at hx
    cases hx
  have hidle : lane.channel ≠ .inputPublish := by rw [hphase]; exact nofun
  refine ⟨fun hshm hdrv => ?_, fun hshm hdrv => ?_, fun hoff => ?_⟩
  · have hinv := hlane.shm hshm
    have hchannel := hinv.channel
    unfold ChannelInv at hchannel
    rw [hphase] at hchannel
    refine ⟨{ hlane with
      accounted := ?_, queued := hnone
      shm := fun _ => { hinv with channel := ⟨hdrv, hchannel, hqueued⟩ }
      rpc := fun hoff => nomatch hshm.symm.trans hoff }, fun _ => ?_⟩
    · show lane.returned.length + tasks.length + 1 + lane.rpc.busy = scheduled
      omega
    · have hseg := hdriver hdrv
      refine { hseg with
        written := ?_, payload := fun _ => hseg.payload hidle, pending := fun hne => by cases hne }
      exact fun _ => hseg.version_at hshm hphase
  · have hinv := hlane.shm hshm
    have hchannel := hinv.channel
    unfold ChannelInv at hchannel
    rw [hphase] at hchannel
    refine ⟨{ hlane with
      accounted := ?_, queued := hnone
      shm := fun _ => { hinv with channel := hchannel }
      rpc := fun hoff => nomatch hshm.symm.trans hoff }, fun hdrv' => absurd hdrv' hdrv⟩
    show lane.returned.length + tasks.length + 1 + lane.rpc.busy = scheduled
    omega
  · have hinv := hlane.rpc hoff
    have hrpc := hinv.rpc
    have hfree : lane.rpc = .none := RpcPhase.eq_none_of_busy (by omega)
    rw [hfree] at hrpc haccounted
    refine ⟨{ hlane with
      accounted := ?_, queued := hnone
      shm := fun hshm => nomatch hshm.symm.trans hoff
      rpc := fun _ => { hinv with rpc := ⟨hrpc, hqueued⟩ } }, fun hdrv => ?_⟩
    · show lane.returned.length + tasks.length + lane.channel.busy + 1 = scheduled
      rw [hphase, ChannelPhase.busy_idle]
      omega
    · exact { hdriver hdrv with }

theorem ChannelKept.inputWrite (h : ChannelKept d steps r stepNo scheduled seg lane)
    (hphase : lane.channel = .inputWrite input) :
    (d.InputFits input → ChannelKept d steps r stepNo scheduled (seg.serialize input)
      { lane with channel := .inputPublish }) ∧
    (¬ d.InputFits input → ChannelKept d steps r stepNo scheduled seg
      { lane with enableShm := false, channel := .idle, rpc := .request input }) := by
  obtain ⟨hshm, hinv, haccounted, hdrv, hseen, hinput⟩ := h.busy hphase nofun
  dsimp only at hseen
  obtain ⟨hlane, hdriver⟩ := h
  have hseg := hdriver hdrv
  have hwritten : seg.version = lane.returned.length := hseg.version_at hshm hphase
  refine ⟨fun hfits => ⟨{ hlane with
      accounted := haccounted
      shm := fun _ => { hinv with channel := ⟨hdrv, hseen⟩ }
      rpc := fun hoff => nomatch hshm.symm.trans hoff }, fun _ => ?_⟩,
    fun hfits => ⟨?_, fun _ => ?_⟩⟩
  · refine { hseg with
      written := fun _ => hwritten
      payload := fun hne => absurd rfl hne
      pending := fun _ => ⟨?_, ?_⟩ }
    · rw [Segment.serialize_version, hwritten, hinput]
      rfl
    · intro input' hinput'
      rw [Segment.serialize_version, hwritten, hinput, Option.some.injEq] at hinput'
      rw [← hinput']
      exact hfits
  · -- the worker has seen every input written and waits for one that will not come
    obtain ⟨hbegun, -, hheard, hworker, hunread⟩ := hlane.counts hshm
    have hwait := hinv.inputWait (by omega)
    refine { hlane with
      accounted := ?_
      shm := fun hon => by cases hon
      rpc := fun _ => ⟨rfl, hwait.1, ?_, fun _ => ⟨hdrv, ?_⟩, ⟨?_, hinput⟩⟩ }
    · show lane.returned.length + lane.tasks.length + 0 + 1 = scheduled
      rw [hinv.noRpc, RpcPhase.busy_none] at haccounted
      omega
    · show lane.outputWritten ≤ lane.returned.length
      omega
    · show lane.inputSeen = seg.version
      omega
    · show lane.history.length = lane.returned.length
      omega
  · refine { hseg with
      gaveUp := fun _ _ => ⟨lane.returned.length, input, ?_, hfits⟩
      fellBack := fun _ => hwritten.le
      written := fun hon => by cases hon
      payload := fun _ => hseg.payload (by rw [hphase]; exact nofun)
      pending := fun hne => by cases hne }
    exact hinput

theorem ChannelKept.inputPublish (h : ChannelKept d steps r stepNo scheduled seg lane)
    (hphase : lane.channel = .inputPublish) :
    ChannelKept d steps r stepNo scheduled (seg.publish lane.inputWritten)
      { lane with inputWritten := lane.inputWritten + 1, channel := .outputWait } := by
  obtain ⟨hshm, hinv, haccounted, hdrv, hseen⟩ := h.busy hphase nofun
  obtain ⟨hlane, hdriver⟩ := h
  have hseg := hdriver hdrv
  have hversion : seg.version = lane.inputWritten := hseg.version
  have hwritten : seg.version = lane.returned.length := hseg.version_at hshm hphase
  obtain ⟨hpayload, hfits⟩ := hseg.pending hphase
  refine ⟨{ hlane with
      accounted := haccounted
      shm := fun _ => { hinv with channel := hseen, unread := ?_ }
      rpc := fun hoff => nomatch hshm.symm.trans hoff }, fun _ => ?_⟩
  · have := hinv.unread
    exact Nat.le_succ_of_le (hversion ▸ this)
  · refine { hseg with
      version := rfl
      remote := fun hoff => ?_
      fellBack := fun hoff => nomatch hshm.symm.trans hoff
      written := fun _ => ?_
      payload := fun _ j hj => ?_
      pending := fun hne => by cases hne
      fits := fun j input hj hinput => ?_ }
    · rw [hdrv.driver_dpRank, hinv.onHost] at hoff
      cases hoff
    · show lane.inputWritten + 1 = lane.returned.length + 1
      omega
    · rw [Segment.publish_payload, hpayload, hversion, Nat.succ_injective hj]
    · rcases Nat.lt_succ_iff_lt_or_eq.mp hj with hlt | heq
      · exact hseg.fits j input (by omega) hinput
      · exact hfits input (by rw [hversion, ← heq]; exact hinput)

theorem ChannelKept.outputWait (h : ChannelKept d steps r stepNo scheduled seg lane)
    (hversion : seg.version ≤ stepNo + 1) (hphase : lane.channel = .outputWait)
    (hfresh : lane.output.Fresh lane.outputSeen) :
    ChannelKept d steps r stepNo scheduled seg
      { lane with outputSeen := lane.output.version, channel := .outputRead } := by
  obtain ⟨hshm, hinv, haccounted, hchannel⟩ := h.busy hphase nofun
  obtain ⟨hlane, hdriver⟩ := h
  obtain ⟨hbegun, -, hheard, hworker, hunread⟩ := hlane.counts hshm
  have hseen : lane.outputSeen = lane.returned.length := hchannel
  have hne : lane.output.version ≠ lane.outputSeen := hfresh
  have hout := hinv.outputVersion
  have hnow : lane.outputWritten = lane.returned.length + 1 := by omega
  refine ⟨{ hlane with
      accounted := haccounted
      shm := fun _ => { hinv with channel := ⟨hout.trans hnow, hnow⟩, heard := hout.le }
      rpc := fun hoff => nomatch hshm.symm.trans hoff }, fun hdrv => ?_⟩
  have hseg := hdriver hdrv
  exact { hseg with
    written := fun _ => hseg.version_at hshm hphase
    payload := fun _ => hseg.payload (by rw [hphase]; exact nofun)
    pending := fun hne => by cases hne }

theorem ChannelKept.outputRead (h : ChannelKept d steps r stepNo scheduled seg lane)
    (hscheduled : scheduled ≤ stepNo + 1) (hversion : seg.version ≤ stepNo + 1)
    (hphase : lane.channel = .outputRead) (houtput : lane.output.payload = some output) :
    ChannelKept d steps r stepNo scheduled seg
      { lane with returned := lane.returned ++ [output], channel := .idle } := by
  obtain ⟨hshm, hinv, haccounted, hseen, hnow⟩ := h.busy hphase nofun
  dsimp only at hseen hnow
  obtain ⟨hlane, hdriver⟩ := h
  obtain ⟨hbegun, -, hheard, hworker, hunread⟩ := hlane.counts hshm
  obtain ⟨hreturned, htasks⟩ := hlane.returned_of_busy hscheduled (by rw [hphase]; rfl)
  have hlength : (lane.returned ++ [output]).length = lane.returned.length + 1 := by simp
  have hwriting : lane.polling ≠ .outputPublish := by
    intro hp
    have hpolling := hinv.polling
    unfold PollingInv at hpolling
    rw [hp] at hpolling
    omega
  have hlast : lane.history[lane.returned.length]?.map Prod.snd = some output := by
    rw [← hinv.outputPayload hwriting _ hnow]
    exact houtput
  refine ⟨{ hlane with
      begun := by rw [hlength]; exact Nat.le_succ_of_le hbegun
      accounted := ?_
      queued := fun x hx => ?_
      returned := returned_append hlane.returned hlast
      shm := fun _ => { hinv with channel := hseen.trans hlength.symm }
      rpc := fun hoff => nomatch hshm.symm.trans hoff }, fun hdrv => ?_⟩
  · show (lane.returned ++ [output]).length + lane.tasks.length + 0 + lane.rpc.busy = scheduled
    omega
  · rw [htasks] at hx
    cases hx
  · have hseg := hdriver hdrv
    exact { hseg with
      fellBack := fun hoff => nomatch hshm.symm.trans hoff
      written := fun _ => (hseg.version_at hshm hphase).trans hlength.symm
      payload := fun _ => hseg.payload (by rw [hphase]; exact nofun)
      pending := fun hne => by cases hne }

/-- By the phase of the channel; only a driver writes the segment. -/
theorem ChannelKept.step {seg' : Segment Nat Input}
    (h : ChannelKept d steps r stepNo scheduled seg lane) (hscheduled : scheduled ≤ stepNo + 1)
    (hversion : seg.version ≤ stepNo + 1) (hstep : d.channelStep r seg lane = .ok (seg', lane')) :
    ChannelKept d steps r stepNo scheduled seg' lane' ∧ seg.version ≤ seg'.version ∧
      (seg' = seg ∨ d.IsDriver r) := by
  unfold Deployment.channelStep at hstep
  cases hphase : lane.channel with
  | idle =>
    rw [hphase] at hstep
    cases htasks : lane.tasks with
    | nil => rw [htasks] at hstep; cases hstep
    | cons input tasks =>
      rw [htasks] at hstep
      dsimp only at hstep
      obtain ⟨hdrv, hother, hoff⟩ := h.begin hscheduled hphase htasks
      split at hstep
      · next hshm =>
        split at hstep
        · next hdriver =>
          cases hstep
          exact ⟨hdrv hshm hdriver, le_rfl, Or.inl rfl⟩
        · next hdriver =>
          cases hstep
          exact ⟨hother hshm hdriver, le_rfl, Or.inl rfl⟩
      · next hshm =>
        cases hstep
        have hrequest := hoff (by simpa using hshm)
        rw [hphase] at hrequest
        exact ⟨hrequest, le_rfl, Or.inl rfl⟩
  | inputWrite input =>
    rw [hphase] at hstep
    dsimp only at hstep
    obtain ⟨-, -, -, hdrv, -⟩ := h.busy hphase nofun
    obtain ⟨hwrites, hfalls⟩ := h.inputWrite hphase
    split at hstep
    · next hfits =>
      cases hstep
      exact ⟨hwrites hfits, le_rfl, Or.inr hdrv⟩
    · next hfits =>
      cases hstep
      exact ⟨hfalls hfits, le_rfl, Or.inl rfl⟩
  | inputPublish =>
    rw [hphase] at hstep
    obtain ⟨-, -, -, hdrv, -⟩ := h.busy hphase nofun
    cases hstep
    refine ⟨h.inputPublish hphase, ?_, Or.inr hdrv⟩
    rw [Segment.publish_version, (h.segment hdrv).version]
    exact Nat.le_succ _
  | outputWait =>
    rw [hphase] at hstep
    dsimp only at hstep
    split at hstep
    · next hfresh =>
      cases hstep
      exact ⟨h.outputWait hversion hphase hfresh, le_rfl, Or.inl rfl⟩
    · cases hstep
  | outputRead =>
    rw [hphase] at hstep
    cases houtput : lane.output.payload with
    | none => rw [houtput] at hstep; cases hstep
    | some output =>
      rw [houtput] at hstep
      cases hstep
      exact ⟨h.outputRead hscheduled hversion hphase houtput, le_rfl, Or.inl rfl⟩

theorem DriverInv.frame {g : Nat}
    (h : d.DriverInv steps g seg lane) (hchannel : lane'.channel = lane.channel)
    (hshm : lane'.enableShm = lane.enableShm) (hwritten : lane'.inputWritten = lane.inputWritten)
    (hle : lane.returned.length ≤ lane'.returned.length)
    (heq : lane.enableShm = true → lane'.returned.length = lane.returned.length) :
    d.DriverInv steps g seg lane' := by
  refine { h with
    version := h.version.trans hwritten.symm
    gaveUp := fun hhost hoff => h.gaveUp hhost (hshm.symm.trans hoff)
    fellBack := fun hoff => (h.fellBack (hshm.symm.trans hoff)).trans hle
    written := fun hon => ?_
    payload := fun hne => h.payload (by rwa [← hchannel])
    pending := fun hpublish => h.pending (hchannel.symm.trans hpublish) }
  have hon' := hshm.symm.trans hon
  have := h.written hon'
  rw [hchannel, heq hon']
  exact this

theorem pollingStep_frame (hstep : d.pollingStep r seg lane = .ok lane') :
    lane'.channel = lane.channel ∧ lane'.enableShm = lane.enableShm ∧
      lane'.inputWritten = lane.inputWritten ∧ lane'.returned = lane.returned := by
  unfold Deployment.pollingStep at hstep
  split at hstep
  · split at hstep <;> cases hstep
    exact ⟨rfl, rfl, rfl, rfl⟩
  · split at hstep <;> cases hstep
    exact ⟨rfl, rfl, rfl, rfl⟩
  · cases hstep
    exact ⟨rfl, rfl, rfl, rfl⟩
  · split at hstep <;> cases hstep
    · exact ⟨rfl, rfl, rfl, rfl⟩
    · exact ⟨rfl, rfl, rfl, rfl⟩
  · cases hstep
    exact ⟨rfl, rfl, rfl, rfl⟩
  · cases hstep

end

end Deployment

end Xllm.DistributedRuntime
