import Xllm.Lib.Run
import Xllm.Lib.Tally

/-!
# Admission slots

`RateLimiter` (`core/common/rate_limiter.cpp`) counts the requests that hold a slot; a sleeping
model has `kSleeping` there. A request that `is_limited` let in holds its slot through the guard of
the pool task (`llm_master.cpp`), those of the two `LLMRequestFactory::create` and the `Request`,
each dismissed just before the next is installed, and releases it where it ends. The requests of
`handle_batch_request` enter the same pool task without `is_limited`.

A step is one atomic operation of the limiter, or a hand-over of the slot.
-/

namespace Xllm.DistributedRuntime

open Xllm.Lib

def kSleeping : Int := -2 ^ 31

/-- What is handed to `LLMMaster::handle_request`. -/
inductive Input
  | prompt
  | messages
  deriving DecidableEq, Repr

inductive Holder
  | poolTask (input : Input)
  | createFromMessages
  | createFromPrompt
  | request
  deriving DecidableEq, Repr

/-- Who takes the slot over. -/
def Holder.next : Holder → Option Holder
  | poolTask .prompt => some createFromPrompt
  | poolTask .messages => some createFromMessages
  | createFromMessages => some createFromPrompt
  | createFromPrompt => some request
  | request => none

inductive Stage
  /-- `is_limited`, with the value it has read. -/
  | checking (expected : Int) (input : Input)
  | limited
  | holding (admitted : Bool) (holder : Holder)
  | released
  deriving DecidableEq, Repr

/-- The slots of a request that was admitted. -/
def Stage.slots : Stage → Nat
  | holding true _ => 1
  | _ => 0

structure RateLimiter where
  numConcurrentRequests : Int
  stages : Table Nat Stage

inductive Label
  /-- `is_limited` begins: it loads the counter. -/
  | arrive (r : Nat) (input : Input)
  /-- A turn of its loop; the exchange may fail spuriously. -/
  | compareExchange (r : Nat) (spurious : Bool)
  /-- One request of `handle_batch_request`. -/
  | batch (r : Nat) (input : Input)
  /-- The validation, the rendering of the messages or the creation of the request is over. -/
  | proceed (r : Nat) (ok : Bool)
  /-- The scheduler refuses the request, or it is destroyed later. -/
  | destroy (r : Nat)
  | trySetSleeping
  | tryWakeup
  deriving DecidableEq, Repr

namespace RateLimiter

def init : RateLimiter := ⟨0, ∅⟩

def goes (s : RateLimiter) (r : Nat) (stage : Stage) : RateLimiter :=
  { s with stages := s.stages.insert r stage }

/-- `decrease_one_request`, an `int32_t` subtraction. -/
def decreaseOneRequest (s : RateLimiter) (r : Nat) : RateLimiter :=
  { s.goes r .released with numConcurrentRequests := (s.numConcurrentRequests - 1).bmod (2 ^ 32) }

/-- One turn of the loop of `is_limited`. -/
def isLimited (maxConcurrentRequests : Int32) (s : RateLimiter) (r : Nat) (expected : Int)
    (input : Input) (spurious : Bool) : RateLimiter :=
  if expected = kSleeping then s.goes r .limited
  else if 0 < maxConcurrentRequests.toInt ∧ maxConcurrentRequests.toInt ≤ expected then
    s.goes r .limited
  else if s.numConcurrentRequests = expected ∧ spurious = false then
    { s.goes r (.holding true (.poolTask input)) with
      numConcurrentRequests := (expected + 1).bmod (2 ^ 32) }
  else s.goes r (.checking s.numConcurrentRequests input)

/-- `try_set_sleeping`, with its answer. -/
def trySetSleeping (s : RateLimiter) : Bool × RateLimiter :=
  if s.numConcurrentRequests = 0 then (true, { s with numConcurrentRequests := kSleeping })
  else (false, s)

def tryWakeup (s : RateLimiter) : Bool × RateLimiter :=
  if s.numConcurrentRequests = kSleeping then (true, { s with numConcurrentRequests := 0 })
  else (false, s)

def step (maxConcurrentRequests : Int32) (s : RateLimiter) : Label → Except Unit RateLimiter
  | .arrive r input =>
    if s.stages.lookup r = none then .ok (s.goes r (.checking s.numConcurrentRequests input))
    else .error ()
  | .compareExchange r spurious =>
    match s.stages.lookup r with
    | some (.checking expected input) =>
      .ok (s.isLimited maxConcurrentRequests r expected input spurious)
    | _ => .error ()
  | .batch r input =>
    if s.stages.lookup r = none then .ok (s.goes r (.holding false (.poolTask input)))
    else .error ()
  | .proceed r ok =>
    match s.stages.lookup r with
    | some (.holding admitted holder) =>
      match holder.next with
      | some next => .ok (if ok then s.goes r (.holding admitted next) else s.decreaseOneRequest r)
      | none => .error ()
    | _ => .error ()
  | .destroy r =>
    match s.stages.lookup r with
    | some (.holding _ .request) => .ok (s.decreaseOneRequest r)
    | _ => .error ()
  | .trySetSleeping => .ok s.trySetSleeping.2
  | .tryWakeup => .ok s.tryWakeup.2

/-- Admissions that are not released yet. -/
def unreleased (s : RateLimiter) : Nat := tally (fun _ stage => stage.slots) s.stages

/-- Nothing enters by `handle_batch_request`, and no more than `2 ^ 31 - 1` requests are
admitted. -/
def Guarded (maxConcurrentRequests : Int32) (s : RateLimiter) : Label → Prop
  | .batch _ _ => False
  | .compareExchange _ _ =>
    0 < maxConcurrentRequests.toInt ∨ s.numConcurrentRequests < 2 ^ 31 - 1
  | _ => True

instance (maxConcurrentRequests : Int32) (s : RateLimiter) (label : Label) :
    Decidable (Guarded maxConcurrentRequests s label) := by
  cases label <;> unfold Guarded <;> infer_instance

/-- The counter is what is admitted unless the model sleeps, and while it sleeps no step that
releases a slot is taken. -/
structure Lawful (maxConcurrentRequests : Int32) (s : RateLimiter) : Prop where
  nonneg : s.numConcurrentRequests ≠ kSleeping → 0 ≤ s.numConcurrentRequests
  exact : s.numConcurrentRequests ≠ kSleeping → s.numConcurrentRequests = s.unreleased
  limit : 0 < maxConcurrentRequests.toInt →
    s.numConcurrentRequests ≤ maxConcurrentRequests.toInt
  sleepsFree : s.trySetSleeping.1 = true → s.unreleased = 0
  keepsAsleep : s.numConcurrentRequests = kSleeping → ∀ r,
    s.step maxConcurrentRequests (.proceed r false) = .error () ∧
      s.step maxConcurrentRequests (.destroy r) = .error ()

/-! ## The invariant -/

section

variable {maxConcurrentRequests : Int32} {s s' : RateLimiter} {r : Nat} {stage : Stage}

structure Inv (maxConcurrentRequests : Int32) (s : RateLimiter) : Prop where
  counter : s.numConcurrentRequests = s.unreleased ∨
    s.numConcurrentRequests = kSleeping ∧ s.unreleased = 0
  admitted : ∀ r admitted holder, s.stages.lookup r = some (.holding admitted holder) →
    admitted = true
  limit : 0 < maxConcurrentRequests.toInt → s.unreleased ≤ maxConcurrentRequests.toInt
  small : (s.unreleased : Int) < 2 ^ 31

theorem Inv.init (maxConcurrentRequests : Int32) : Inv maxConcurrentRequests .init where
  counter := Or.inl rfl
  admitted _ _ _ h := nomatch h
  limit h := h.le
  small := by decide

theorem kSleeping_eq : kSleeping = -2147483648 := rfl

/-- Asleep or not, the counter tells what is admitted. -/
theorem Inv.counter_eq (h : Inv maxConcurrentRequests s)
    (hawake : s.numConcurrentRequests ≠ kSleeping ∨ 0 < s.unreleased) :
    s.numConcurrentRequests = s.unreleased := by
  rcases h.counter with hcounter | ⟨hsleeps, hnone⟩
  · exact hcounter
  · rcases hawake with hawake | hsome
    · exact absurd hsleeps hawake
    · omega

theorem unreleased_goes (s : RateLimiter) (r : Nat) (stage : Stage) :
    (s.goes r stage).unreleased + (s.stages.lookup r).elim 0 Stage.slots =
      s.unreleased + stage.slots :=
  tally_put (fun _ stage => Stage.slots stage) s.stages r (some stage)

/-- A request that has a slot is counted. -/
theorem unreleased_pos (h : s.stages.lookup r = some stage) (hslot : stage.slots = 1) :
    0 < s.unreleased := by
  have hle := weigh_le_tally (fun _ stage => Stage.slots stage) s.stages r
  rw [h, weigh_some, hslot] at hle
  exact hle

/-- A request goes on with the slots it had. -/
theorem Inv.goes (h : Inv maxConcurrentRequests s)
    (hslots : (s.stages.lookup r).elim 0 Stage.slots = stage.slots)
    (hadmitted : ∀ admitted holder, stage = .holding admitted holder → admitted = true) :
    Inv maxConcurrentRequests (s.goes r stage) := by
  have hsame : (s.goes r stage).unreleased = s.unreleased := by
    have := unreleased_goes s r stage
    omega
  refine ⟨by rw [hsame]; exact h.counter, fun r' admitted holder hr' => ?_,
    by rw [hsame]; exact h.limit, by rw [hsame]; exact h.small⟩
  rw [RateLimiter.goes, lookup_insert_eq] at hr'
  split at hr'
  · exact hadmitted admitted holder (Option.some.inj hr')
  · exact h.admitted r' admitted holder hr'

theorem Inv.decreaseOneRequest (h : Inv maxConcurrentRequests s) {admitted : Bool}
    {holder : Holder} (hr : s.stages.lookup r = some (.holding admitted holder)) :
    Inv maxConcurrentRequests (s.decreaseOneRequest r) := by
  obtain rfl := h.admitted r admitted holder hr
  have hpos := unreleased_pos hr rfl
  have hcounter := h.counter_eq (Or.inr hpos)
  have hgoes := unreleased_goes s r .released
  rw [hr, Option.elim_some] at hgoes
  have hless : (s.decreaseOneRequest r).unreleased + 1 = s.unreleased := hgoes
  have hsmall := h.small
  have hsub : (s.numConcurrentRequests - 1).bmod (2 ^ 32) = s.numConcurrentRequests - 1 := by
    rw [Int.bmod_def]
    omega
  refine ⟨Or.inl ?_, fun r' admitted holder hr' => ?_, fun hmax => ?_, by omega⟩
  · show (s.numConcurrentRequests - 1).bmod (2 ^ 32) = _
    omega
  · have hr' : (s.stages.insert r .released).lookup r' = some (.holding admitted holder) := hr'
    rw [lookup_insert_eq] at hr'
    split at hr'
    · cases hr'
    · exact h.admitted r' admitted holder hr'
  · have := h.limit hmax
    omega

theorem Inv.isLimited (h : Inv maxConcurrentRequests s) {expected : Int} {input : Input}
    {spurious : Bool} (hr : s.stages.lookup r = some (.checking expected input))
    (hguarded : 0 < maxConcurrentRequests.toInt ∨ s.numConcurrentRequests < 2 ^ 31 - 1) :
    Inv maxConcurrentRequests (s.isLimited maxConcurrentRequests r expected input spurious) := by
  have hzero : (s.stages.lookup r).elim 0 Stage.slots = 0 := by rw [hr]; rfl
  unfold RateLimiter.isLimited
  split
  · exact h.goes hzero nofun
  next hawake =>
  split
  · exact h.goes hzero nofun
  next hroom =>
  split
  · next hsame =>
    obtain ⟨rfl, -⟩ := hsame
    have hcounter := h.counter_eq (Or.inl hawake)
    have hgoes := unreleased_goes s r (.holding true (.poolTask input))
    rw [hzero] at hgoes
    have hmore : (s.goes r (.holding true (.poolTask input))).unreleased = s.unreleased + 1 := hgoes
    have hmaxLt := maxConcurrentRequests.toInt_lt
    have hadd : (s.numConcurrentRequests + 1).bmod (2 ^ 32) = s.numConcurrentRequests + 1 := by
      rw [Int.bmod_def]
      omega
    refine ⟨Or.inl ?_, fun r' admitted holder hr' => ?_, fun hmax => ?_, ?_⟩
    · show (s.numConcurrentRequests + 1).bmod (2 ^ 32) =
        ((s.goes r (.holding true (.poolTask input))).unreleased : Int)
      omega
    · have hr' : (s.stages.insert r (.holding true (.poolTask input))).lookup r' =
        some (.holding admitted holder) := hr'
      rw [lookup_insert_eq] at hr'
      split at hr'
      · cases hr'
        rfl
      · exact h.admitted r' admitted holder hr'
    · show ((s.goes r (.holding true (.poolTask input))).unreleased : Int) ≤ _
      omega
    · show ((s.goes r (.holding true (.poolTask input))).unreleased : Int) < _
      omega
  · exact h.goes hzero nofun

/-- No batch request is answered here (`Guarded`), so every release has its admission. -/
theorem Inv.step (h : Inv maxConcurrentRequests s) {label : Label}
    (hguarded : Guarded maxConcurrentRequests s label)
    (hstep : s.step maxConcurrentRequests label = .ok s') : Inv maxConcurrentRequests s' := by
  cases label with
  | arrive r input =>
    unfold RateLimiter.step at hstep
    dsimp only at hstep
    split at hstep
    · next hr =>
      cases hstep
      exact h.goes (by rw [hr]; rfl) nofun
    · cases hstep
  | compareExchange r spurious =>
    unfold RateLimiter.step at hstep
    dsimp only at hstep
    split at hstep
    · next hr =>
      cases hstep
      exact h.isLimited hr hguarded
    · cases hstep
  | batch r input => exact hguarded.elim
  | proceed r ok =>
    unfold RateLimiter.step at hstep
    dsimp only at hstep
    split at hstep
    · next admitted holder hr =>
      split at hstep
      · cases hstep
        split
        · obtain rfl := h.admitted r admitted holder hr
          exact h.goes (by rw [hr]; rfl) fun _ _ heq => by cases heq; rfl
        · exact h.decreaseOneRequest hr
      · cases hstep
    · cases hstep
  | destroy r =>
    unfold RateLimiter.step at hstep
    dsimp only at hstep
    split at hstep
    · next hr =>
      cases hstep
      exact h.decreaseOneRequest hr
    · cases hstep
  | trySetSleeping =>
    cases hstep
    unfold RateLimiter.trySetSleeping
    split
    · next hzero =>
      have hcounter := h.counter_eq (Or.inl (by rw [hzero, kSleeping_eq]; decide))
      exact ⟨Or.inr ⟨rfl, by show s.unreleased = 0; omega⟩, h.admitted, h.limit, h.small⟩
    · exact h
  | tryWakeup =>
    cases hstep
    unfold RateLimiter.tryWakeup
    split
    · next hsleeps =>
      have hnone : s.unreleased = 0 := by
        have := h.counter
        rw [hsleeps, kSleeping_eq] at this
        omega
      exact ⟨Or.inl (by show (0 : Int) = s.unreleased; omega), h.admitted, h.limit, h.small⟩
    · exact h

theorem Inv.lawful (h : Inv maxConcurrentRequests s) : Lawful maxConcurrentRequests s where
  nonneg hawake := by
    have := h.counter_eq (Or.inl hawake)
    omega
  exact hawake := h.counter_eq (Or.inl hawake)
  limit hmax := by
    have hlimit := h.limit hmax
    rcases h.counter with hcounter | ⟨hsleeps, -⟩
    · omega
    · rw [hsleeps, kSleeping_eq]
      omega
  sleepsFree hanswer := by
    have hzero : s.numConcurrentRequests = 0 := by
      by_contra hne
      simp [RateLimiter.trySetSleeping, hne] at hanswer
    have := h.counter_eq (Or.inl (by rw [hzero, kSleeping_eq]; decide))
    omega
  keepsAsleep hsleeps r := by
    have hnone : s.unreleased = 0 := by
      have := h.counter
      rw [hsleeps, kSleeping_eq] at this
      omega
    -- nobody has a slot to release
    have hfree : ∀ admitted holder, s.stages.lookup r ≠ some (.holding admitted holder) := by
      intro admitted holder hr
      obtain rfl := h.admitted r admitted holder hr
      have := unreleased_pos hr rfl
      omega
    unfold RateLimiter.step
    dsimp only
    constructor
    · split
      · next hr => exact absurd hr (hfree _ _)
      · rfl
    · split
      · next hr => exact absurd hr (hfree _ _)
      · rfl

/-- In every run in which nothing enters by `handle_batch_request` every state is lawful. -/
theorem lawful_of_run {labels : List Label} (run : ReachesWith (RateLimiter.step
    maxConcurrentRequests) (Guarded maxConcurrentRequests) .init labels s) :
    Lawful maxConcurrentRequests s :=
  (run.invariant (I := Inv maxConcurrentRequests)
    (fun _ _ _ h hguarded hstep => h.step hguarded hstep) (.init _)).lawful

/-- One request lives and ends, one fails its validation, and the model sleeps. -/
def guardedRun : List Label :=
  [.arrive 0 .messages, .compareExchange 0 false, .arrive 1 .prompt, .compareExchange 1 false,
    .trySetSleeping, .proceed 0 true, .proceed 0 true, .proceed 0 true, .proceed 1 false,
    .destroy 0, .trySetSleeping]

theorem lawful_guardedRun : ∃ s, ReachesWith (RateLimiter.step 2) (Guarded 2) .init guardedRun s ∧
    Lawful 2 s ∧ s.numConcurrentRequests = kSleeping := by
  have hrun : ∃ s, ReachesWith (RateLimiter.step 2) (Guarded 2) .init guardedRun s ∧
      decide (s.numConcurrentRequests = kSleeping) = true := ReachesWith.of_check _ _ _ (by decide)
  obtain ⟨s, run, hsleeps⟩ := hrun
  exact ⟨s, run, lawful_of_run run, of_decide_eq_true hsleeps⟩

/-- A request of a batch that fails its validation releases a slot nobody took. -/
theorem not_lawful_batch :
    ¬ ∀ labels s, Reaches (RateLimiter.step 2) .init labels s → Lawful 2 s := by
  intro h
  have hlawful := h [.batch 0 .prompt, .proceed 0 false] _ (.of_foldlM rfl)
  exact absurd (hlawful.nonneg (by decide)) (by decide)

end

end RateLimiter

end Xllm.DistributedRuntime
