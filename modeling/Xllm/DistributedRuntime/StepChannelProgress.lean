import Xllm.DistributedRuntime.StepChannelRuns

/-!
# What an engine relies on

`InStep` says what an engine relies on in every state: each worker has executed the inputs
dispatched to its group, in order and once, each channel has returned the outputs of its own
worker, no segment is overwritten before it was read, and some party can move until the last step
is finished. All of it but the last is safety and holds in every run.

For the last, a lane that is late can move unless its worker waits for an input that was not
written (`Inv.lane_moves`). It is the driver that writes it, unless it fell back: where every input
fits, it never does (`Inv.neverStuck`).
-/

namespace Xllm.DistributedRuntime

open Xllm.Lib

variable {V Input Output : Type}

namespace Deployment

variable (d : Deployment Input Output) (steps : List (Nat → Input))

/-- A reader of the input segment of its group has read it and waits for the next input. -/
def InputRead (seg : Segment V Input) (lane : Lane V Input Output) : Prop :=
  lane.polling = .inputWait ∧ lane.inputSeen = seg.version

/-- The channel has read the output segment of its worker. -/
def OutputRead (lane : Lane V Input Output) : Prop :=
  lane.channel ≠ .outputRead ∧ lane.outputSeen = lane.output.version

/-- The step channel neither mixes steps nor hangs. -/
structure InStep [DecidableEq V] [Add V] [OfNat V 1] (s : State V Input Output) : Prop where
  executed : ∀ r < d.workerClientsNum,
    (s.lanes r).history.map Prod.fst <+: steps.map fun forwardInputs => forwardInputs (d.dpRank r)
  returned : ∀ r < d.workerClientsNum,
    (s.lanes r).returned <+: (s.lanes r).history.map Prod.snd
  collected : s.engine = .idle → ∀ r < d.workerClientsNum,
    (s.lanes r).history.length = s.stepNo ∧ (s.lanes r).returned.length = s.stepNo
  inputsRead : ∀ g < d.dpSize, ∀ input, (s.lanes (d.driver g)).channel = .inputWrite input →
    ∀ r < d.workerClientsNum, d.dpRank r = g → d.onHost r = true →
      InputRead (s.inputs g) (s.lanes r)
  outputsRead : ∀ r < d.workerClientsNum, ∀ output,
    (s.lanes r).polling = .outputWrite output → OutputRead (s.lanes r)
  neverAborts : ∀ r < d.workerClientsNum, (s.lanes r).polling ≠ .aborted
  neverStuck : ¬ s.Finished steps → ∃ party s', d.step steps s party = .ok s'

/-- Wherever workers on the host share an input segment with their driver, the driver writes it,
and every input dispatched to the group fits. -/
def MailboxSuffices : Prop :=
  ∀ g < d.dpSize,
    (∃ r < d.workerClientsNum, d.dpRank r = g ∧ ¬ d.IsDriver r ∧ d.onHost r = true) →
    ∀ forwardInputs ∈ steps, d.onHost (d.driver g) = true ∧ d.InputFits (forwardInputs g)

variable {d steps}

/-! ## Safety -/

section

variable {s : State Nat Input Output}

variable {r : Nat} {lane : Lane Nat Input Output}

theorem LaneInv.executed_of_dispatched {stepNo scheduled version : Nat}
    (h : d.LaneInv steps r stepNo scheduled version lane) :
    lane.history.map Prod.fst <+: steps.map fun forwardInputs => forwardInputs (d.dpRank r) := by
  rw [List.prefix_iff_getElem?]
  intro j hj
  rw [List.length_map] at hj
  have hdispatched := h.executed j _ (List.getElem?_eq_getElem hj)
  unfold dispatched at hdispatched
  rw [List.getElem?_map, hdispatched, List.getElem_map]

theorem LaneInv.history_length {stepNo version : Nat}
    (h : d.LaneInv steps r stepNo stepNo version lane) (hversion : version ≤ stepNo) :
    lane.history.length = stepNo ∧ lane.returned.length = stepNo := by
  have hbegun := h.begun
  have haccounted := h.accounted
  have hreturned : lane.returned.length = stepNo := by omega
  refine ⟨?_, hreturned⟩
  cases hshm : lane.enableShm with
  | true =>
    obtain ⟨-, hseen, hheard, hworker, hunread⟩ := h.counts hshm
    exact ((h.shm hshm).inputWait (by omega)).2.trans (by omega)
  | false =>
    have hrpc := (h.rpc hshm).rpc
    have hfree : lane.rpc = .none := RpcPhase.eq_none_of_busy (by omega)
    rw [hfree] at hrpc
    exact hrpc.trans hreturned

variable {g : Nat}

/-- Between two steps every input that was written belongs to a finished step. -/
theorem Inv.version_le_of_idle (h : d.Inv steps s) (hidle : s.engine = .idle)
    (hg : g < d.dpSize) : (s.inputs g).version ≤ s.stepNo := by
  have hlane := h.lanes _ (driver_lt hg)
  have hdriver := h.drivers g hg
  have hscheduled : s.scheduled (d.driver g) = s.stepNo := by
    unfold State.scheduled
    rw [hidle]
  have hbegun := hlane.begun
  have haccounted := hlane.accounted
  have hfree : (s.lanes (d.driver g)).channel = .idle := by
    cases hphase : (s.lanes (d.driver g)).channel with
    | idle => rfl
    | inputWrite _ | inputPublish | outputWait | outputRead =>
      rw [hphase] at haccounted
      dsimp only [ChannelPhase.busy] at haccounted
      omega
  cases hshm : (s.lanes (d.driver g)).enableShm with
  | true =>
    have hwritten := hdriver.written hshm
    rw [hfree] at hwritten
    omega
  | false =>
    have := hdriver.fellBack hshm
    omega

/-- When a driver is about to write, the workers of its group wait for an input. -/
theorem Inv.inputsRead (h : d.Inv steps s) (hg : g < d.dpSize) {input : Input}
    (hphase : (s.lanes (d.driver g)).channel = .inputWrite input)
    (hr : r < d.workerClientsNum) (hrank : d.dpRank r = g) (hhost : d.onHost r = true) :
    InputRead (s.inputs g) (s.lanes r) := by
  have hdriverLane := h.lanes _ (driver_lt hg)
  have hdriverShm := hdriverLane.enableShm_of_channel (by rw [hphase]; exact nofun)
  have hwritten := (h.drivers g hg).written hdriverShm
  rw [hphase] at hwritten
  have hbusy := (hdriverLane.returned_of_busy (s.scheduled_le _) (by rw [hphase]; rfl)).1
  have hlane := h.lanes r hr
  rw [hrank] at hlane
  cases hshm : (s.lanes r).enableShm with
  | true =>
    obtain ⟨hbegun, hseen, hheard, hworker, hunread⟩ := hlane.counts hshm
    exact ⟨((hlane.shm hshm).inputWait (by omega)).1, by omega⟩
  | false =>
    exact ⟨(hlane.rpc hshm).polling, ((hlane.rpc hshm).fellBack hhost).2⟩

/-- When a worker is about to write its output, its channel has read the one before. -/
theorem Inv.outputsRead (h : d.Inv steps s) (hr : r < d.workerClientsNum)
    {output : Output} (hphase : (s.lanes r).polling = .outputWrite output) :
    OutputRead (s.lanes r) := by
  have hlane := h.lanes r hr
  have hversion := h.version_le (dpRank_lt hr)
  cases hshm : (s.lanes r).enableShm with
  | false =>
    have := (hlane.rpc hshm).polling
    rw [hphase] at this
    cases this
  | true =>
    have hinv := hlane.shm hshm
    obtain ⟨hbegun, hseen, hheard, hworker, hunread⟩ := hlane.counts hshm
    have hpolling := hinv.polling
    unfold PollingInv at hpolling
    rw [hphase] at hpolling
    refine ⟨fun hread => ?_, ?_⟩
    · have hchannel := hinv.channel
      unfold ChannelInv at hchannel
      rw [hread] at hchannel
      omega
    · rw [hinv.outputVersion]
      omega

theorem Inv.neverAborts (h : d.Inv steps s) (hr : r < d.workerClientsNum) :
    (s.lanes r).polling ≠ .aborted := by
  intro hphase
  have hlane := h.lanes r hr
  cases hshm : (s.lanes r).enableShm with
  | false =>
    have := (hlane.rpc hshm).polling
    rw [hphase] at this
    cases this
  | true =>
    have hpolling := (hlane.shm hshm).polling
    unfold PollingInv at hpolling
    rw [hphase] at hpolling
    exact hpolling

/-! ## Progress -/

variable {seg : Segment Nat Input}

theorem channel_moves (htask : lane.channel = .idle → lane.tasks ≠ [])
    (hwait : lane.channel = .outputWait → lane.output.version ≠ lane.outputSeen)
    (hread : lane.channel = .outputRead → lane.output.payload ≠ none) :
    ∃ next, d.channelStep r seg lane = .ok next := by
  unfold Deployment.channelStep
  cases hphase : lane.channel with
  | idle =>
    cases htasks : lane.tasks with
    | nil => exact absurd htasks (htask hphase)
    | cons input tasks =>
      dsimp only
      split
      · split
        · exact ⟨_, rfl⟩
        · exact ⟨_, rfl⟩
      · exact ⟨_, rfl⟩
  | inputWrite input =>
    dsimp only
    split
    · exact ⟨_, rfl⟩
    · exact ⟨_, rfl⟩
  | inputPublish => exact ⟨_, rfl⟩
  | outputWait =>
    rw [if_pos (show lane.output.Fresh lane.outputSeen from hwait hphase)]
    exact ⟨_, rfl⟩
  | outputRead =>
    cases hpayload : lane.output.payload with
    | none => exact absurd hpayload (hread hphase)
    | some output => exact ⟨_, rfl⟩

theorem polling_moves (hwait : lane.polling = .inputWait → seg.version ≠ lane.inputSeen)
    (hread : lane.polling = .inputRead → seg.payload ≠ none)
    (habort : lane.polling ≠ .aborted) : ∃ next, d.pollingStep r seg lane = .ok next := by
  unfold Deployment.pollingStep
  cases hphase : lane.polling with
  | inputWait =>
    rw [if_pos (show seg.Fresh lane.inputSeen from hwait hphase)]
    exact ⟨_, rfl⟩
  | inputRead =>
    cases hpayload : seg.payload with
    | none => exact absurd hpayload (hread hphase)
    | some input => exact ⟨_, rfl⟩
  | step input => exact ⟨_, rfl⟩
  | outputWrite output =>
    dsimp only
    split
    · exact ⟨_, rfl⟩
    · exact ⟨_, rfl⟩
  | outputPublish => exact ⟨_, rfl⟩
  | aborted => exact absurd hphase habort

theorem step_channel (hr : r < d.workerClientsNum)
    (h : ∃ next, d.channelStep r (s.inputs (d.dpRank r)) (s.lanes r) = .ok next) :
    ∃ party s', d.step steps s party = .ok s' := by
  obtain ⟨next, hnext⟩ := h
  refine ⟨.channel r, { s with
    inputs := Function.update s.inputs (d.dpRank r) next.1
    lanes := Function.update s.lanes r next.2 }, ?_⟩
  unfold Deployment.step
  dsimp only
  rw [if_pos hr, hnext]
  rfl

theorem step_polling (hr : r < d.workerClientsNum) (hhost : d.onHost r = true)
    (h : ∃ next, d.pollingStep r (s.inputs (d.dpRank r)) (s.lanes r) = .ok next) :
    ∃ party s', d.step steps s party = .ok s' := by
  obtain ⟨next, hnext⟩ := h
  refine ⟨.polling r, { s with lanes := Function.update s.lanes r next }, ?_⟩
  unfold Deployment.step
  dsimp only
  rw [if_pos ⟨hr, hhost⟩, hnext]
  rfl

theorem step_rpc (hr : r < d.workerClientsNum) (h : (s.lanes r).rpc ≠ .none) :
    ∃ party s', d.step steps s party = .ok s' := by
  have hnext : ∃ next, d.rpcStep r (s.lanes r) = .ok next := by
    unfold Deployment.rpcStep
    cases hphase : (s.lanes r).rpc with
    | none => exact absurd hphase h
    | request input => exact ⟨_, rfl⟩
    | reply output => exact ⟨_, rfl⟩
  obtain ⟨next, hnext⟩ := hnext
  refine ⟨.rpc r, { s with lanes := Function.update s.lanes r next }, ?_⟩
  unfold Deployment.step
  dsimp only
  rw [if_pos hr, hnext]
  rfl

theorem Inv.lane_moves (h : d.Inv steps s) (hcollecting : s.engine = .collecting)
    (hr : r < d.workerClientsNum) (hlate : (s.lanes r).returned.length ≠ s.stepNo + 1) :
    (∃ party s', d.step steps s party = .ok s') ∨
      (d.onHost r = true ∧ (s.lanes r).channel = .outputWait ∧
        (s.inputs (d.dpRank r)).version = s.stepNo) := by
  have hlane := h.lanes r hr
  have hg := dpRank_lt hr
  have hversion := h.version_le hg
  have hlt : s.stepNo < steps.length := by
    have := h.engine
    rwa [hcollecting] at this
  have hscheduled : s.scheduled r = s.stepNo + 1 := by
    unfold State.scheduled
    rw [hcollecting]
  have hbegun := hlane.begun
  have haccounted := hlane.accounted
  by_cases hrpc : (s.lanes r).rpc = .none
  case neg => exact Or.inl (step_rpc hr hrpc)
  rw [hrpc, RpcPhase.busy_none] at haccounted
  have htask : (s.lanes r).channel = .idle → (s.lanes r).tasks ≠ [] := by
    intro hidle hnil
    rw [hidle, hnil, ChannelPhase.busy_idle, List.length_nil] at haccounted
    omega
  cases hshm : (s.lanes r).enableShm with
  | false =>
    have hidle := (hlane.rpc hshm).channel
    refine Or.inl (step_channel hr (channel_moves htask ?_ ?_))
    · intro hwait
      rw [hidle] at hwait
      cases hwait
    · intro hread
      rw [hidle] at hread
      cases hread
  | true =>
    have hinv := hlane.shm hshm
    obtain ⟨-, hseen, hheard, hworker, hunread⟩ := hlane.counts hshm
    have hchannel := hinv.channel
    have hpolling := hinv.polling
    unfold ChannelInv at hchannel
    unfold PollingInv at hpolling
    by_cases hwaits : (s.lanes r).channel = .outputWait ∧
        (s.lanes r).output.version = (s.lanes r).outputSeen
    · -- the output of this step is not written yet: it is the worker's turn
      rw [hwaits.1] at hchannel
      have hout := hinv.outputVersion
      by_cases hinput : (s.inputs (d.dpRank r)).version = s.stepNo
      · exact Or.inr ⟨hinv.onHost, hwaits.1, hinput⟩
      · refine Or.inl (step_polling hr hinv.onHost (polling_moves ?_ ?_ (h.neverAborts hr)))
        · intro hphase
          rw [hphase] at hpolling
          omega
        · intro _
          rw [h.payload hg (by omega)]
          unfold dispatched
          rw [List.getElem?_eq_getElem hlt]
          exact nofun
    · refine Or.inl (step_channel hr (channel_moves htask ?_ ?_))
      · intro hwait heq
        exact hwaits ⟨hwait, heq⟩
      · intro hread
        rw [hread] at hchannel
        have hwriting : (s.lanes r).polling ≠ .outputPublish := by
          intro hp
          rw [hp] at hpolling
          omega
        have hexecuted := hinv.executed_le
        rw [hinv.outputPayload hwriting _ hchannel.2, List.getElem?_eq_getElem (by omega)]
        exact nofun

/-- A driver on the host whose inputs all fit keeps using shared memory. -/
theorem DriverInv.enableShm
    (h : d.DriverInv steps g seg lane) (hhost : d.onHost (d.driver g) = true)
    (hfits : ∀ forwardInputs ∈ steps, d.InputFits (forwardInputs g)) :
    lane.enableShm = true := by
  by_contra hoff
  rw [Bool.not_eq_true] at hoff
  obtain ⟨j, input, hinput, hnot⟩ := h.gaveUp hhost hoff
  obtain ⟨forwardInputs, hget, rfl⟩ := Option.map_eq_some_iff.mp hinput
  exact hnot (hfits forwardInputs (List.mem_of_getElem? hget))

/-- Where the mailboxes suffice, some party can move until the last step is finished. -/
theorem Inv.neverStuck (h : d.Inv steps s) (hsuffices : d.MailboxSuffices steps)
    (hunfinished : ¬ s.Finished steps) : ∃ party s', d.step steps s party = .ok s' := by
  have hengine := h.engine
  cases hphase : s.engine with
  | idle =>
    have hlt : s.stepNo < steps.length :=
      lt_of_le_of_ne h.stepNo fun heq => hunfinished ⟨hphase, heq⟩
    refine ⟨.engine, { s with engine := .scheduling 0 }, ?_⟩
    show d.engineStep steps s = _
    unfold Deployment.engineStep
    rw [hphase]
    exact if_pos hlt
  | scheduling workerRank =>
    rw [hphase] at hengine
    have hnext : ∃ s', d.engineStep steps s = .ok s' := by
      unfold Deployment.engineStep
      rw [hphase, List.getElem?_eq_getElem hengine.1]
      dsimp only
      split
      · exact ⟨_, rfl⟩
      · exact ⟨_, rfl⟩
    obtain ⟨s', hnext⟩ := hnext
    exact ⟨.engine, s', hnext⟩
  | collecting =>
    by_cases hall : ∀ r < d.workerClientsNum, (s.lanes r).returned.length = s.stepNo + 1
    · refine ⟨.engine, { s with stepNo := s.stepNo + 1, engine := .idle }, ?_⟩
      show d.engineStep steps s = _
      unfold Deployment.engineStep
      rw [hphase]
      exact if_pos hall
    · push Not at hall
      obtain ⟨r, hr, hlate⟩ := hall
      rcases h.lane_moves hphase hr hlate with hmoves | ⟨hhost, hwait, hversion⟩
      · exact hmoves
      -- the worker waits for its driver, which has not written the input of this step
      have hg := dpRank_lt hr
      have hdrv : d.onHost (d.driver (d.dpRank r)) = true ∧
          (s.lanes (d.driver (d.dpRank r))).enableShm = true := by
        by_cases hdriver : d.IsDriver r
        · rw [hdriver.driver_dpRank]
          exact ⟨hhost, (h.lanes r hr).enableShm_of_channel (by rw [hwait]; exact nofun)⟩
        · have hfits := hsuffices _ hg ⟨r, hr, rfl, hdriver, hhost⟩
          have hne : steps ≠ [] := by
            intro hnil
            rw [hphase] at hengine
            rw [hnil] at hengine
            exact absurd hengine (Nat.not_lt_zero _)
          have hon := (hfits _ (List.head_mem hne)).1
          exact ⟨hon, (h.drivers _ hg).enableShm hon fun f hf => (hfits f hf).2⟩
      have hwritten := (h.drivers _ hg).written hdrv.2
      have hdriverLane := h.lanes _ (driver_lt hg)
      have hbegun := hdriverLane.begun
      have haccounted := hdriverLane.accounted
      by_cases hdone : (s.lanes (d.driver (d.dpRank r))).returned.length = s.stepNo + 1
      · cases hdriverPhase : (s.lanes (d.driver (d.dpRank r))).channel <;>
          rw [hdriverPhase] at hwritten haccounted <;>
          dsimp only [ChannelPhase.busy] at hwritten haccounted <;> omega
      · rcases h.lane_moves hphase (driver_lt hg) hdone with hmoves | ⟨-, hwait', -⟩
        · exact hmoves
        · rw [hwait'] at hwritten
          omega

end

end Deployment

end Xllm.DistributedRuntime
