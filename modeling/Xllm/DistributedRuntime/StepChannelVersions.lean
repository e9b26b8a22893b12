import Xllm.DistributedRuntime.StepChannelRuns

/-!
# Versions that wrap around

The versions of the source are `uint64_t`, and a reader only ever asks whether the version differs
from the one it saw last. Along every run the two are at most one apart, so the answer is the one
that natural numbers would give, and the runs with `UInt64` versions are the images of the runs
with natural numbers.
-/

namespace Xllm.DistributedRuntime

open Xllm.Lib Function

variable {V W Input Output : Type}

def Lane.map (f : V → W) (lane : Lane V Input Output) : Lane W Input Output where
  tasks := lane.tasks
  channel := lane.channel
  enableShm := lane.enableShm
  inputWritten := f lane.inputWritten
  outputSeen := f lane.outputSeen
  returned := lane.returned
  rpc := lane.rpc
  polling := lane.polling
  inputSeen := f lane.inputSeen
  outputWritten := f lane.outputWritten
  output := lane.output.map f
  history := lane.history

def State.map (f : V → W) (s : State V Input Output) : State W Input Output where
  stepNo := s.stepNo
  engine := s.engine
  lanes := fun r => (s.lanes r).map f
  inputs := fun g => (s.inputs g).map f

/-- The `uint64_t` that a count is stored as. -/
abbrev wrap (version : Nat) : UInt64 := UInt64.ofNat version

theorem wrap_inj {m n : Nat} (hle : m ≤ n) (hnear : n ≤ m + 1) : wrap n = wrap m ↔ n = m := by
  refine ⟨fun h => ?_, fun h => by rw [h]⟩
  have := congrArg UInt64.toNat h
  simp only [wrap, UInt64.toNat_ofNat'] at this
  omega

theorem wrap_succ (n : Nat) : wrap (n + 1) = wrap n + 1 := UInt64.ofNat_add n 1

theorem fresh_map {α : Type} {seg : Segment Nat α} {seen : Nat} (hle : seen ≤ seg.version)
    (hnear : seg.version ≤ seen + 1) : (seg.map wrap).Fresh (wrap seen) ↔ seg.Fresh seen :=
  not_congr (wrap_inj hle hnear)

theorem update_map (lanes : Nat → Lane V Input Output) (f : V → W) (r : Nat)
    (lane : Lane V Input Output) : Function.update (fun r => (lanes r).map f) r (lane.map f) =
      fun r' => (Function.update lanes r lane r').map f := by
  funext r'
  by_cases h : r' = r
  · rw [h, update_self, update_self]
  · rw [update_of_ne h, update_of_ne h]

theorem update_inputs_map (inputs : Nat → Segment V Input) (f : V → W) (g : Nat)
    (seg : Segment V Input) : Function.update (fun g => (inputs g).map f) g (seg.map f) =
      fun g' => (Function.update inputs g seg g').map f := by
  funext g'
  by_cases h : g' = g
  · rw [h, update_self, update_self]
  · rw [update_of_ne h, update_of_ne h]

namespace Deployment

variable {d : Deployment Input Output} {steps : List (Nat → Input)}

theorem start_map : (d.start (V := Nat)).map wrap = d.start (V := UInt64) := rfl

theorem engineStep_map (s : State Nat Input Output) :
    d.engineStep steps (s.map wrap) = (d.engineStep steps s).map (State.map wrap) := by
  unfold engineStep
  have hengine : (s.map wrap).engine = s.engine := rfl
  have hstepNo : (s.map wrap).stepNo = s.stepNo := rfl
  rw [hengine, hstepNo]
  cases s.engine with
  | idle =>
    dsimp only
    split <;> rfl
  | scheduling workerRank =>
    dsimp only
    split
    · cases steps[s.stepNo]? with
      | none => rfl
      | some forwardInputs =>
        refine congrArg Except.ok ?_
        unfold State.map
        rw [← update_map]
        rfl
    · rfl
  | collecting =>
    have hreturned : (∀ r < d.workerClientsNum,
        ((s.map wrap).lanes r).returned.length = s.stepNo + 1) ↔
        ∀ r < d.workerClientsNum, (s.lanes r).returned.length = s.stepNo + 1 := Iff.rfl
    by_cases h : ∀ r < d.workerClientsNum, (s.lanes r).returned.length = s.stepNo + 1
    · rw [if_pos h, if_pos (hreturned.mpr h)]
      rfl
    · rw [if_neg h, if_neg (mt hreturned.mp h)]
      rfl

theorem channelStep_map (r : Nat) (seg : Segment Nat Input) (lane : Lane Nat Input Output)
    (hwait : lane.channel = .outputWait → lane.outputSeen ≤ lane.output.version ∧
      lane.output.version ≤ lane.outputSeen + 1) :
    d.channelStep r (seg.map wrap) (lane.map wrap) =
      (d.channelStep r seg lane).map fun next => (next.1.map wrap, next.2.map wrap) := by
  unfold channelStep
  have hchannel : (lane.map wrap).channel = lane.channel := rfl
  rw [hchannel]
  cases hphase : lane.channel with
  | idle =>
    have htasks : (lane.map wrap).tasks = lane.tasks := rfl
    have hshm : (lane.map wrap).enableShm = lane.enableShm := rfl
    rw [htasks, hshm]
    cases lane.tasks with
    | nil => rfl
    | cons input tasks =>
      dsimp only
      split
      · split
        · rfl
        · rfl
      · unfold Lane.map
        rfl
  | inputWrite input =>
    dsimp only
    split
    · rfl
    · rfl
  | inputPublish =>
    unfold Segment.publish Segment.map Lane.map Except.map
    dsimp only
    rw [wrap_succ]
  | outputWait =>
    obtain ⟨hle, hnear⟩ := hwait hphase
    have hfresh : (lane.map wrap).output.Fresh (lane.map wrap).outputSeen ↔
        lane.output.Fresh lane.outputSeen := fresh_map hle hnear
    by_cases h : lane.output.Fresh lane.outputSeen
    · rw [if_pos h, if_pos (hfresh.mpr h)]
      rfl
    · rw [if_neg h, if_neg (mt hfresh.mp h)]
      rfl
  | outputRead =>
    have hpayload : (lane.map wrap).output.payload = lane.output.payload := rfl
    rw [hpayload]
    cases lane.output.payload with
    | none => rfl
    | some output => rfl

theorem pollingStep_map (r : Nat) (seg : Segment Nat Input) (lane : Lane Nat Input Output)
    (hwait : lane.polling = .inputWait → lane.inputSeen ≤ seg.version ∧
      seg.version ≤ lane.inputSeen + 1) :
    d.pollingStep r (seg.map wrap) (lane.map wrap) =
      (d.pollingStep r seg lane).map (Lane.map wrap) := by
  unfold pollingStep
  have hpolling : (lane.map wrap).polling = lane.polling := rfl
  rw [hpolling]
  cases hphase : lane.polling with
  | inputWait =>
    obtain ⟨hle, hnear⟩ := hwait hphase
    have hfresh : (seg.map wrap).Fresh (lane.map wrap).inputSeen ↔
        seg.Fresh lane.inputSeen := fresh_map hle hnear
    by_cases h : seg.Fresh lane.inputSeen
    · rw [if_pos h, if_pos (hfresh.mpr h)]
      rfl
    · rw [if_neg h, if_neg (mt hfresh.mp h)]
      rfl
  | inputRead =>
    have hpayload : (seg.map wrap).payload = seg.payload := rfl
    rw [hpayload]
    cases seg.payload with
    | none => rfl
    | some input => rfl
  | step input => rfl
  | outputWrite output =>
    dsimp only
    split
    · rfl
    · rfl
  | outputPublish =>
    unfold Segment.publish Lane.map Except.map
    dsimp only
    unfold Segment.map
    rw [wrap_succ]
  | aborted => rfl

variable {r : Nat}

theorem rpcStep_map {lane : Lane Nat Input Output} :
    d.rpcStep r (lane.map wrap) = (d.rpcStep r lane).map (Lane.map wrap) := by
  unfold rpcStep
  have hrpc : (lane.map wrap).rpc = lane.rpc := rfl
  rw [hrpc]
  cases lane.rpc with
  | none => rfl
  | request input => rfl
  | reply output => rfl

variable {s : State Nat Input Output}

theorem Inv.output_near (h : d.Inv steps s)
    (hr : r < d.workerClientsNum) (hwait : (s.lanes r).channel = .outputWait) :
    (s.lanes r).outputSeen ≤ (s.lanes r).output.version ∧
      (s.lanes r).output.version ≤ (s.lanes r).outputSeen + 1 := by
  have hlane := h.lanes r hr
  have hshm := hlane.enableShm_of_channel (by rw [hwait]; exact nofun)
  have hversion := h.version_le (dpRank_lt hr)
  obtain ⟨hbegun, hseen, hheard, hworker, hunread⟩ := hlane.counts hshm
  rw [(hlane.shm hshm).outputVersion]
  omega

theorem Inv.input_near (h : d.Inv steps s)
    (hr : r < d.workerClientsNum) (hhost : d.onHost r = true) :
    (s.lanes r).inputSeen ≤ (s.inputs (d.dpRank r)).version ∧
      (s.inputs (d.dpRank r)).version ≤ (s.lanes r).inputSeen + 1 := by
  have hlane := h.lanes r hr
  have hversion := h.version_le (dpRank_lt hr)
  cases hshm : (s.lanes r).enableShm with
  | true =>
    obtain ⟨hbegun, hseen, hheard, hworker, hunread⟩ := hlane.counts hshm
    omega
  | false =>
    have := ((hlane.rpc hshm).fellBack hhost).2
    omega

/-- In a state of a run, a party takes the same step under both readings of the versions. -/
theorem step_map (h : d.Inv steps s) (party : Party) :
    d.step steps (s.map wrap) party = (d.step steps s party).map (State.map wrap) := by
  cases party with
  | engine => exact engineStep_map s
  | channel r =>
    unfold step
    dsimp only
    by_cases hr : r < d.workerClientsNum
    · rw [if_pos hr, if_pos hr]
      have hnext := channelStep_map (d := d) r (s.inputs (d.dpRank r)) (s.lanes r)
        (h.output_near hr)
      rw [show (s.map wrap).inputs (d.dpRank r) = (s.inputs (d.dpRank r)).map wrap from rfl,
        show (s.map wrap).lanes r = (s.lanes r).map wrap from rfl, hnext]
      cases d.channelStep r (s.inputs (d.dpRank r)) (s.lanes r) with
      | error e => rfl
      | ok next =>
        refine congrArg Except.ok ?_
        unfold State.map
        rw [← update_map, ← update_inputs_map]
    · rw [if_neg hr, if_neg hr]
      rfl
  | polling r =>
    unfold step
    dsimp only
    by_cases hr : r < d.workerClientsNum ∧ d.onHost r = true
    · rw [if_pos hr, if_pos hr]
      have hnext := pollingStep_map (d := d) r (s.inputs (d.dpRank r)) (s.lanes r)
        fun _ => h.input_near hr.1 hr.2
      rw [show (s.map wrap).inputs (d.dpRank r) = (s.inputs (d.dpRank r)).map wrap from rfl,
        show (s.map wrap).lanes r = (s.lanes r).map wrap from rfl, hnext]
      cases d.pollingStep r (s.inputs (d.dpRank r)) (s.lanes r) with
      | error e => rfl
      | ok next =>
        refine congrArg Except.ok ?_
        unfold State.map
        rw [← update_map]
    · rw [if_neg hr, if_neg hr]
      rfl
  | rpc r =>
    unfold step
    dsimp only
    by_cases hr : r < d.workerClientsNum
    · rw [if_pos hr, if_pos hr]
      rw [show (s.map wrap).lanes r = (s.lanes r).map wrap from rfl, rpcStep_map]
      cases d.rpcStep r (s.lanes r) with
      | error e => rfl
      | ok next =>
        refine congrArg Except.ok ?_
        unfold State.map
        rw [← update_map]
    · rw [if_neg hr, if_neg hr]
      rfl

/-! ## The runs of the source -/

variable {parties : List Party}

theorem Inv.of_run (hout : ∀ r history input, d.RawOutputFits (d.forward r history input))
    (run : Reaches (d.step steps) d.start parties s) : d.Inv steps s :=
  run.invariant (fun _ _ _ h _ hstep => h.step hout hstep) Inv.start

/-- Every run with counts is a run with `uint64_t` versions. -/
theorem run_map (hout : ∀ r history input, d.RawOutputFits (d.forward r history input))
    (run : Reaches (d.step steps) d.start parties s) :
    Reaches (d.step steps) (d.start (V := UInt64)) parties (s.map wrap) := by
  induction run with
  | refl => exact .refl _
  | snoc run acceptable next ih =>
    refine .snoc ih acceptable ?_
    rw [step_map (Inv.of_run hout run), next]
    rfl

/-- Every run with `uint64_t` versions is the image of a run with counts. -/
theorem run_of_wrapped (hout : ∀ r history input, d.RawOutputFits (d.forward r history input))
    {s : State UInt64 Input Output} (run : Reaches (d.step steps) d.start parties s) :
    ∃ t : State Nat Input Output, Reaches (d.step steps) d.start parties t ∧ s = t.map wrap := by
  induction run with
  | refl => exact ⟨d.start, .refl _, start_map.symm⟩
  | snoc run acceptable next ih =>
    obtain ⟨t, hrun, rfl⟩ := ih
    rw [step_map (Inv.of_run hout hrun)] at next
    cases hnext : d.step steps t _ with
    | error e =>
      rw [hnext] at next
      cases next
    | ok t' =>
      rw [hnext] at next
      cases next
      exact ⟨t', .snoc hrun trivial hnext, rfl⟩

end Deployment

end Xllm.DistributedRuntime
