import Mathlib.Algebra.Order.BigOperators.Group.Finset
import Xllm.DistributedRuntime.StepChannelProgress
import Xllm.DistributedRuntime.StepChannelVersions

/-!
# The step channels stay in step

`inStep_iff_mailboxSuffices`: all reachable states are `InStep` if and only if the driver of every
group that shares its input segment with other workers on the host writes every input, which it
does as long as they fit. For the other direction every run is carried on until no party can
move. It does end, since each step raises a measure of the work done, and where an input did not
fit it ends before the step is finished.
-/

namespace Xllm.DistributedRuntime

open Xllm.Lib Function

variable {Input Output : Type}

/-! ## Work done -/

/-- How far the thread of a channel is with a task. -/
def ChannelPhase.stage : ChannelPhase Input → Nat
  | .idle => 0
  | .inputWrite _ => 1
  | .inputPublish => 2
  | .outputWait => 3
  | .outputRead => 4

/-- How far an RPC is with a task. -/
def RpcPhase.stage : RpcPhase Input Output → Nat
  | .none => 0
  | .request _ => 2
  | .reply _ => 3

/-- How far a polling thread is with an input. -/
def PollingPhase.stage : PollingPhase Input Output → Nat
  | .inputWait => 0
  | .inputRead => 1
  | .step _ => 2
  | .outputWrite _ => 3
  | .outputPublish => 4
  | .aborted => 4

def Lane.work (lane : Lane Nat Input Output) : Nat :=
  5 * lane.returned.length + lane.channel.stage + lane.rpc.stage +
    (5 * lane.outputWritten + lane.polling.stage)

namespace Deployment

variable {d : Deployment Input Output} {steps : List (Nat → Input)}
  {s s' : State Nat Input Output}

def engineWork (d : Deployment Input Output) (s : State Nat Input Output) : Nat :=
  (d.workerClientsNum + 3) * s.stepNo +
    match s.engine with
    | .idle => 0
    | .scheduling workerRank => workerRank + 1
    | .collecting => d.workerClientsNum + 2

def work (d : Deployment Input Output) (s : State Nat Input Output) : Nat :=
  d.engineWork s + ∑ r ∈ Finset.range d.workerClientsNum, (s.lanes r).work

variable {r : Nat} {lane : Lane Nat Input Output}

theorem work_lt_of_lane (hr : r < d.workerClientsNum)
    {inputs : Nat → Segment Nat Input} (hlt : (s.lanes r).work < lane.work) :
    d.work s < d.work { s with inputs := inputs, lanes := Function.update s.lanes r lane } := by
  unfold work
  refine Nat.add_lt_add_left ?_ _
  refine Finset.sum_lt_sum (fun r' _ => ?_) ⟨r, Finset.mem_range.mpr hr, ?_⟩
  · dsimp only
    by_cases heq : r' = r
    · rw [heq, update_self]
      exact hlt.le
    · rw [update_of_ne heq]
  · dsimp only
    rw [update_self]
    exact hlt

variable {stepNo scheduled : Nat}

theorem LaneInv.rpc_none {version : Nat}
    (h : d.LaneInv steps r stepNo scheduled version lane) (hscheduled : scheduled ≤ stepNo + 1)
    (htask : 1 ≤ lane.tasks.length + lane.channel.busy) : lane.rpc = .none := by
  have hbegun := h.begun
  have haccounted := h.accounted
  exact RpcPhase.eq_none_of_busy (by omega)

variable {lane' : Lane Nat Input Output}

/-- Every phase is a stage further; the fallback is counted as its own stages. -/
theorem LaneInv.channelStep_work {seg seg' : Segment Nat Input}
    (h : d.LaneInv steps r stepNo scheduled seg.version lane) (hscheduled : scheduled ≤ stepNo + 1)
    (hstep : d.channelStep r seg lane = .ok (seg', lane')) : lane.work < lane'.work := by
  unfold channelStep at hstep
  unfold Lane.work
  cases hphase : lane.channel with
  | idle =>
    rw [hphase] at hstep
    cases htasks : lane.tasks with
    | nil => rw [htasks] at hstep; cases hstep
    | cons input tasks =>
      have hfree := h.rpc_none hscheduled (by rw [htasks, List.length_cons]; omega)
      rw [htasks] at hstep
      dsimp only at hstep
      split at hstep
      · split at hstep <;> cases hstep <;> dsimp only [ChannelPhase.stage] <;> omega
      · cases hstep
        rw [hfree]
        dsimp only [ChannelPhase.stage, RpcPhase.stage]
        omega
  | inputWrite input =>
    have hfree := h.rpc_none hscheduled (by rw [hphase]; exact Nat.le_add_left 1 _)
    rw [hphase] at hstep
    dsimp only at hstep
    split at hstep
    · cases hstep
      dsimp only [ChannelPhase.stage]
      omega
    · cases hstep
      rw [hfree]
      dsimp only [ChannelPhase.stage, RpcPhase.stage]
      omega
  | inputPublish =>
    rw [hphase] at hstep
    cases hstep
    dsimp only [ChannelPhase.stage]
    omega
  | outputWait =>
    rw [hphase] at hstep
    dsimp only at hstep
    split at hstep <;> cases hstep
    dsimp only [ChannelPhase.stage]
    omega
  | outputRead =>
    rw [hphase] at hstep
    dsimp only at hstep
    split at hstep <;> cases hstep
    rw [List.length_append, List.length_singleton]
    dsimp only [ChannelPhase.stage]
    omega

theorem pollingStep_work {seg : Segment Nat Input}
    (hstep : d.pollingStep r seg lane = .ok lane') : lane.work < lane'.work := by
  unfold pollingStep at hstep
  unfold Lane.work
  cases hphase : lane.polling with
  | inputWait =>
    rw [hphase] at hstep
    dsimp only at hstep
    split at hstep <;> cases hstep
    dsimp only [PollingPhase.stage]
    omega
  | inputRead =>
    rw [hphase] at hstep
    dsimp only at hstep
    split at hstep <;> cases hstep
    dsimp only [PollingPhase.stage]
    omega
  | step input =>
    rw [hphase] at hstep
    cases hstep
    dsimp only [PollingPhase.stage]
    omega
  | outputWrite output =>
    rw [hphase] at hstep
    dsimp only at hstep
    split at hstep <;> cases hstep <;> dsimp only [PollingPhase.stage] <;> omega
  | outputPublish =>
    rw [hphase] at hstep
    cases hstep
    dsimp only [PollingPhase.stage]
    omega
  | aborted =>
    rw [hphase] at hstep
    cases hstep

theorem rpcStep_work (hstep : d.rpcStep r lane = .ok lane') : lane.work < lane'.work := by
  unfold rpcStep at hstep
  unfold Lane.work
  cases hphase : lane.rpc with
  | none =>
    rw [hphase] at hstep
    cases hstep
  | request input =>
    rw [hphase] at hstep
    cases hstep
    dsimp only [RpcPhase.stage]
    omega
  | reply output =>
    rw [hphase] at hstep
    cases hstep
    rw [List.length_append, List.length_singleton]
    dsimp only [RpcPhase.stage]
    omega

/-- Scheduling and collecting are counted by the workers scheduled and the steps done. -/
theorem Inv.engineStep_work (h : d.Inv steps s) (hstep : d.engineStep steps s = .ok s') : d.work s < d.work s' := by
  have hlanes : ∀ r, (s'.lanes r).work = (s.lanes r).work := by
    intro r
    unfold Deployment.engineStep at hstep
    split at hstep
    · split at hstep <;> cases hstep
      rfl
    · split at hstep
      · split at hstep <;> cases hstep
        next workerRank _ _ _ _ _ =>
        dsimp only
        by_cases heq : r = workerRank
        · rw [heq, update_self]
          rfl
        · rw [update_of_ne heq]
      · cases hstep
        rfl
    · split at hstep <;> cases hstep
      rfl
  have hengine : d.engineWork s < d.engineWork s' := by
    unfold Deployment.engineStep at hstep
    unfold engineWork
    cases hphase : s.engine with
    | idle =>
      rw [hphase] at hstep
      dsimp only at hstep
      split at hstep <;> cases hstep
      dsimp only
      omega
    | scheduling workerRank =>
      rw [hphase] at hstep
      dsimp only at hstep
      split at hstep
      · split at hstep <;> cases hstep
        dsimp only
        omega
      · have hrank := h.engine
        rw [hphase] at hrank
        cases hstep
        dsimp only
        omega
    | collecting =>
      rw [hphase] at hstep
      dsimp only at hstep
      split at hstep <;> cases hstep
      dsimp only
      rw [Nat.mul_succ]
      omega
  unfold work
  rw [Finset.sum_congr rfl fun r _ => hlanes r]
  exact Nat.add_lt_add_right hengine _

theorem Inv.step_work (h : d.Inv steps s) {party : Party} (hstep : d.step steps s party = .ok s') :
    d.work s < d.work s' := by
  cases party with
  | engine => exact h.engineStep_work hstep
  | channel r =>
    unfold Deployment.step at hstep
    dsimp only at hstep
    split at hstep
    · next hr =>
      obtain ⟨⟨seg, lane⟩, hnext, hstep⟩ := bind_eq_ok.mp hstep
      cases hstep
      exact work_lt_of_lane hr ((h.lanes r hr).channelStep_work (s.scheduled_le r) hnext)
    · cases hstep
  | polling r =>
    unfold Deployment.step at hstep
    dsimp only at hstep
    split at hstep
    · next hr =>
      obtain ⟨lane, hnext, hstep⟩ := bind_eq_ok.mp hstep
      cases hstep
      exact work_lt_of_lane hr.1 (pollingStep_work hnext)
    · cases hstep
  | rpc r =>
    unfold Deployment.step at hstep
    dsimp only at hstep
    split at hstep
    · next hr =>
      obtain ⟨lane, hnext, hstep⟩ := bind_eq_ok.mp hstep
      cases hstep
      exact work_lt_of_lane hr (rpcStep_work hnext)
    · cases hstep

theorem LaneInv.work_le {version : Nat}
    (h : d.LaneInv steps r stepNo scheduled version lane) (hscheduled : scheduled ≤ stepNo + 1)
    (hversion : version ≤ stepNo + 1) : lane.work ≤ 10 * stepNo + 21 := by
  have haccounted := h.accounted
  have hwritten : lane.outputWritten ≤ stepNo + 1 := by
    cases hshm : lane.enableShm with
    | true =>
      obtain ⟨-, -, -, hworker, hunread⟩ := h.counts hshm
      omega
    | false =>
      have := (h.rpc hshm).written
      omega
  have hchannel : lane.channel.stage ≤ 4 := by
    cases lane.channel <;> simp only [ChannelPhase.stage] <;> omega
  have hrpc : lane.rpc.stage ≤ 3 := by
    cases lane.rpc <;> simp only [RpcPhase.stage] <;> omega
  have hpolling : lane.polling.stage ≤ 4 := by
    cases lane.polling <;> simp only [PollingPhase.stage] <;> omega
  unfold Lane.work
  omega

theorem Inv.work_le (h : d.Inv steps s) :
    d.work s ≤ (d.workerClientsNum + 3) * (steps.length + 1) +
      d.workerClientsNum * (10 * steps.length + 21) := by
  have hstepNo := h.stepNo
  have hengine : d.engineWork s ≤ (d.workerClientsNum + 3) * (steps.length + 1) := by
    have hmul : (d.workerClientsNum + 3) * s.stepNo ≤ (d.workerClientsNum + 3) * steps.length :=
      Nat.mul_le_mul_left _ hstepNo
    have hphase : (match s.engine with
        | .idle => 0
        | .scheduling workerRank => workerRank + 1
        | .collecting => d.workerClientsNum + 2) ≤ d.workerClientsNum + 3 := by
      have := h.engine
      cases hphase : s.engine <;> rw [hphase] at this <;> dsimp only at this ⊢ <;> omega
    exact Nat.add_le_add hmul hphase
  have hlanes : ∑ r ∈ Finset.range d.workerClientsNum, (s.lanes r).work ≤
      d.workerClientsNum * (10 * steps.length + 21) := by
    refine (Finset.sum_le_card_nsmul _ _ (10 * steps.length + 21) fun r hr => ?_).trans ?_
    · rw [Finset.mem_range] at hr
      have := (h.lanes r hr).work_le (s.scheduled_le r) (h.version_le (dpRank_lt hr))
      omega
    · rw [Finset.card_range]
      exact le_rfl
  exact Nat.add_le_add hengine hlanes

/-! ## Exactly when the step channels stay in step -/

/-- Safety holds in every run; with it, whatever can move can move with `uint64_t` versions. -/
theorem Inv.inStep_map (h : d.Inv steps s)
    (hmoves : ¬ s.Finished steps → ∃ party s', d.step steps s party = .ok s') :
    d.InStep steps (s.map wrap) where
  executed := fun r hr => (h.lanes r hr).executed_of_dispatched
  returned := fun r hr => (h.lanes r hr).returned
  collected := fun hidle r hr => by
    have hlane := h.lanes r hr
    have hscheduled : s.scheduled r = s.stepNo := by
      unfold State.scheduled
      rw [show s.engine = .idle from hidle]
    rw [hscheduled] at hlane
    exact hlane.history_length (h.version_le_of_idle hidle (dpRank_lt hr))
  inputsRead := fun g hg input hphase r hr hrank hhost => by
    obtain ⟨hwait, hseen⟩ := h.inputsRead hg hphase hr hrank hhost
    exact ⟨hwait, congrArg wrap hseen⟩
  outputsRead := fun r hr output hphase => by
    obtain ⟨hread, hseen⟩ := h.outputsRead hr hphase
    exact ⟨hread, congrArg wrap hseen⟩
  neverAborts := fun r hr => h.neverAborts hr
  neverStuck := fun hunfinished => by
    obtain ⟨party, s', hstep⟩ := hmoves hunfinished
    refine ⟨party, s'.map wrap, ?_⟩
    rw [step_map h, hstep]
    rfl

/-- When the last step is finished, every input of a shared segment was written. -/
theorem Inv.mailboxSuffices (h : d.Inv steps s) (hfinished : s.Finished steps) :
    d.MailboxSuffices steps := by
  intro g hg hshared forwardInputs hmem
  obtain ⟨r, hr, hrank, hdriver, hhost⟩ := hshared
  have hlane := h.lanes r hr
  have hseg := h.drivers g hg
  rw [hrank] at hlane
  have hshm : (s.lanes r).enableShm = true := by
    by_contra hoff
    rw [Bool.not_eq_true] at hoff
    exact hdriver ((hlane.rpc hoff).fellBack hhost).1
  obtain ⟨hbegun, hseen, hheard, hworker, hunread⟩ := hlane.counts hshm
  rw [hfinished.2] at hbegun
  obtain ⟨j, hj, rfl⟩ := List.mem_iff_getElem.mp hmem
  refine ⟨?_, hseg.fits j _ (by omega) ?_⟩
  · by_contra hoff
    rw [Bool.not_eq_true] at hoff
    have := hseg.remote hoff
    omega
  · unfold dispatched
    rw [List.getElem?_eq_getElem hj]
    rfl

/-- The channels stay in step in every run exactly when the driver of every input segment that is
shared on the host is on the host too, and every input dispatched to its group fits. -/
theorem inStep_iff_mailboxSuffices
    (hout : ∀ r history input, d.RawOutputFits (d.forward r history input)) :
    (∀ parties s, Reaches (d.step steps) (d.start (V := UInt64)) parties s → d.InStep steps s) ↔
      d.MailboxSuffices steps := by
  constructor
  · intro hall
    -- carried on until no party can move, a run has finished its last step
    have hstart : d.Inv steps d.start := Inv.start
    obtain ⟨parties, t, run, hfinal⟩ : ∃ parties t, Reaches (d.step steps) d.start parties t ∧
        ∀ party t', True → d.step steps t party ≠ .ok t' :=
      ReachesWith.exists_final (fun _ _ _ h _ hstep => Inv.step h hout hstep) d.work
        (fun _ h => Inv.work_le h) (fun _ _ _ h _ hstep => Inv.step_work h hstep) hstart
    have h := Inv.of_run hout run
    refine h.mailboxSuffices ?_
    by_contra hunfinished
    obtain ⟨party, s', hstep⟩ := (hall parties _ (run_map hout run)).neverStuck hunfinished
    rw [step_map h] at hstep
    cases hnext : d.step steps t party with
    | error e =>
      rw [hnext] at hstep
      cases hstep
    | ok t' => exact hfinal party t' trivial hnext
  · intro hsuffices parties s run
    obtain ⟨t, hrun, rfl⟩ := run_of_wrapped hout run
    have h := Inv.of_run hout hrun
    exact h.inStep_map (h.neverStuck hsuffices)

def threeOnHost : Deployment Nat Nat where
  dpSize := 2
  dpLocalSize := 2
  dpLocalSize_pos := by decide
  onHost := fun r => decide (r < 3)
  inputShmSize := 64
  outputShmSize := 32
  inputPayloadSize := id
  rawOutputPayloadSize := id
  forward := fun _ _ input => input % 10

/-- The last group has no other worker on the host: its driver may fall back. -/
theorem threeOnHost_inStep :
    (∀ parties s,
      Reaches (threeOnHost.step [fun _ => 40, fun dpRank => if dpRank = 0 then 48 else 1000])
        (threeOnHost.start (V := UInt64)) parties s →
      threeOnHost.InStep [fun _ => 40, fun dpRank => if dpRank = 0 then 48 else 1000] s) ∧
    threeOnHost.MailboxSuffices [fun _ => 40, fun dpRank => if dpRank = 0 then 48 else 1000] := by
  have hsuffices : threeOnHost.MailboxSuffices
      [fun _ => 40, fun dpRank => if dpRank = 0 then 48 else 1000] := by
    have hgroups : ∀ g < 2, (∃ r < 4, threeOnHost.dpRank r = g ∧ ¬ threeOnHost.IsDriver r ∧
        threeOnHost.onHost r = true) → g = 0 := by decide
    intro g hg hshared forwardInputs hmem
    rw [hgroups g hg hshared]
    rcases List.mem_pair.mp hmem with rfl | rfl
    · decide
    · decide
  refine ⟨(inStep_iff_mailboxSuffices fun _ _ input => ?_).mpr hsuffices, hsuffices⟩
  show 8 + input % 10 ≤ 32
  omega

def fallbackRun : List Party :=
  List.replicate 6 .engine ++ [.channel 0, .channel 0, .rpc 0, .rpc 0, .channel 1] ++
    [.channel 2, .channel 2, .rpc 2, .rpc 2, .channel 3, .rpc 3, .rpc 3]

/-- No party of four workers can move. -/
def stuck (steps : List (Nat → Nat)) (s : State UInt64 Nat Nat) : Bool :=
  s.stepNo == 0 && !(threeOnHost.step steps s .engine).isOk && (List.range 4).all fun r =>
    !(threeOnHost.step steps s (.channel r)).isOk && !(threeOnHost.step steps s (.polling r)).isOk &&
      !(threeOnHost.step steps s (.rpc r)).isOk

/-- Two workers on the host and an input that does not fit: the driver takes the RPC and the other
channel waits for good. -/
theorem fallback_hangs : ¬ ∀ parties s,
    Reaches (threeOnHost.step [fun _ => 1000]) (threeOnHost.start (V := UInt64)) parties s →
    threeOnHost.InStep [fun _ => 1000] s := by
  intro hall
  obtain ⟨s, run, hstuck⟩ : ∃ s, Reaches (threeOnHost.step [fun _ => 1000])
      (threeOnHost.start (V := UInt64)) fallbackRun s ∧ stuck [fun _ => 1000] s = true :=
    ReachesWith.of_check (stuck [fun _ => 1000]) _ fallbackRun (by decide +kernel)
  simp only [stuck, Bool.and_eq_true, Bool.not_eq_true', List.all_eq_true, List.mem_range,
    beq_iff_eq] at hstuck
  obtain ⟨⟨hstepNo, hengine⟩, hworkers⟩ := hstuck
  have hunfinished : ¬ s.Finished [fun _ => 1000] := by
    intro hfinished
    rw [State.Finished, hstepNo] at hfinished
    exact absurd hfinished.2 (by decide)
  obtain ⟨party, s', hstep⟩ := (hall _ s run).neverStuck hunfinished
  have hranks : ∀ r, r < 4 ↔ r < threeOnHost.workerClientsNum := fun _ => Iff.rfl
  cases party with
  | engine =>
    rw [hstep] at hengine
    cases hengine
  | channel r =>
    by_cases hr : r < 4
    · have := (hworkers r hr).1.1
      rw [hstep] at this
      cases this
    · unfold step at hstep
      rw [hranks] at hr
      dsimp only at hstep
      rw [if_neg hr] at hstep
      cases hstep
  | polling r =>
    by_cases hr : r < 4
    · have := (hworkers r hr).1.2
      rw [hstep] at this
      cases this
    · unfold step at hstep
      dsimp only at hstep
      rw [if_neg fun h => hr h.1] at hstep
      cases hstep
  | rpc r =>
    by_cases hr : r < 4
    · have := (hworkers r hr).2
      rw [hstep] at this
      cases this
    · unfold step at hstep
      rw [hranks] at hr
      dsimp only at hstep
      rw [if_neg hr] at hstep
      cases hstep

/-! ## What the engine is given -/

section

variable (d : Deployment Input Output) (r : Nat)

/-- The worker of a rank executes inputs one after the other. -/
def executeAll (inputs : List Input) : List (Input × Output) :=
  inputs.foldl (fun history input => history ++ [(input, d.forward r history input)]) []

def Sequential (lane : Lane UInt64 Input Output) : Prop :=
  lane.history = d.executeAll r (lane.history.map Prod.fst)

end

variable {d : Deployment Input Output} {steps : List (Nat → Input)} {r : Nat}

theorem Sequential.append {lane lane' : Lane UInt64 Input Output} {input : Input}
    (h : d.Sequential r lane)
    (hnext : lane'.history = lane.history ++ [(input, d.forward r lane.history input)]) :
    d.Sequential r lane' := by
  unfold Sequential executeAll at h ⊢
  rw [hnext, List.map_append, List.foldl_append, ← h]
  rfl

theorem Sequential.step {s s' : State UInt64 Input Output} {party : Party}
    (h : ∀ r, d.Sequential r (s.lanes r)) (hstep : d.step steps s party = .ok s') (r : Nat) :
    d.Sequential r (s'.lanes r) := by
  have hupdate {q : Nat} {lane : Lane UInt64 Input Output} (hlane : d.Sequential q lane) :
      d.Sequential r (Function.update s.lanes q lane r) := by
    by_cases heq : r = q
    · rw [heq, update_self]
      exact hlane
    · rw [update_of_ne heq]
      exact h r
  cases party with
  | engine =>
    change d.engineStep steps s = .ok s' at hstep
    unfold engineStep at hstep
    repeat' split at hstep
    all_goals cases hstep
    all_goals first | exact h r | exact hupdate (h _)
  | channel q | polling q | rpc q =>
    unfold Deployment.step at hstep
    dsimp only at hstep
    split at hstep
    · obtain ⟨next, hnext, hdone⟩ := bind_eq_ok.mp hstep
      cases hdone
      -- whoever moves a lane, it executes one more input or none
      refine hupdate ?_
      first | unfold channelStep at hnext | unfold pollingStep at hnext | unfold rpcStep at hnext
      repeat' split at hnext
      all_goals cases hnext
      all_goals first | exact h q | exact (h q).append rfl
    · cases hstep

theorem length_le_work (hout : ∀ r history input, d.RawOutputFits (d.forward r history input))
    {parties : List Party} {s : State Nat Input Output}
    (run : Reaches (d.step steps) d.start parties s) : parties.length ≤ d.work s := by
  induction run with
  | refl => exact Nat.zero_le _
  | snoc run _ next ih =>
    rw [List.length_append]
    exact ih.trans_lt ((Inv.of_run hout run).step_work next)

/-- Every run ends, where the mailboxes suffice with the last step. Over shared memory or the RPC, a
worker has executed the inputs of the first steps one after the other, and the engine is given just
the outputs of that. -/
theorem outputs_sequential (hout : ∀ r history input, d.RawOutputFits (d.forward r history input))
    (parties : List Party) (s : State UInt64 Input Output)
    (run : Reaches (d.step steps) d.start parties s) :
    parties.length ≤ (d.workerClientsNum + 3) * (steps.length + 1) +
      d.workerClientsNum * (10 * steps.length + 21) ∧
    (d.MailboxSuffices steps → (∀ party s', d.step steps s party ≠ .ok s') → s.Finished steps) ∧
    ∀ r < d.workerClientsNum, (∃ n ≤ steps.length, (s.lanes r).history =
        d.executeAll r ((steps.take n).map fun forwardInputs => forwardInputs (d.dpRank r))) ∧
      (s.Finished steps → (s.lanes r).returned =
        (d.executeAll r (steps.map fun forwardInputs => forwardInputs (d.dpRank r))).map
          Prod.snd) := by
  have hsequential : ∀ r, d.Sequential r (s.lanes r) :=
    run.invariant (fun _ _ _ h _ hstep => Sequential.step h hstep) fun _ => rfl
  obtain ⟨t, hrun, rfl⟩ := run_of_wrapped hout run
  have h := Inv.of_run hout hrun
  refine ⟨(length_le_work hout hrun).trans h.work_le, fun hsuffices hrest => ?_, fun r hr => ?_⟩
  · by_contra hunfinished
    obtain ⟨party, s', hstep⟩ := (h.inStep_map (h.neverStuck hsuffices)).neverStuck hunfinished
    exact hrest party s' hstep
  have hlane := h.lanes r hr
  have hexecuted : ((t.map wrap).lanes r).history.map Prod.fst <+: _ :=
    hlane.executed_of_dispatched
  have hlength := hexecuted.length_le
  have htake := List.prefix_iff_eq_take.mp hexecuted
  rw [List.length_map] at hlength htake
  rw [List.length_map] at hlength
  rw [← List.map_take] at htake
  refine ⟨⟨_, hlength, (hsequential r).trans (congrArg (d.executeAll r) htake)⟩, ?_⟩
  rintro ⟨hidle, hdone⟩
  have hscheduled : t.scheduled r = t.stepNo := by
    unfold State.scheduled
    rw [show t.engine = .idle from hidle]
  rw [hscheduled] at hlane
  obtain ⟨hall, hgiven⟩ := hlane.history_length (h.version_le_of_idle hidle (dpRank_lt hr))
  have hlast : ((t.map wrap).lanes r).history.length = steps.length := hall.trans hdone
  rw [hlast, List.take_length] at htake
  rw [← htake, ← hsequential]
  exact hlane.returned.eq_of_length (hgiven.trans (hall.symm.trans (List.length_map ..).symm))

/-- A driver that falls back. -/
theorem outputs_sequential_fallback :
    ∃ s, Reaches (threeOnHost.step [fun _ => 1000]) (threeOnHost.start (V := UInt64))
        fallbackRun s ∧
      ∃ n ≤ 1, (s.lanes 0).history = threeOnHost.executeAll 0 (([fun _ => 1000].take n).map
        fun forwardInputs => forwardInputs 0) := by
  obtain ⟨s, run⟩ := Reaches.of_isOk (threeOnHost.step [fun _ => 1000])
    (threeOnHost.start (V := UInt64)) fallbackRun (by decide +kernel)
  refine ⟨s, run, ((outputs_sequential (fun _ _ input => ?_) fallbackRun s run).2.2 0 (by decide)).1⟩
  show 8 + input % 10 ≤ 32
  omega

end Deployment

end Xllm.DistributedRuntime
