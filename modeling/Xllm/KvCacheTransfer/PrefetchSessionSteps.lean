import Xllm.KvCacheTransfer.WorkerPrefetchSession

/-!
# What a step of a prefetch session does

`Move` has a constructor for everything a step of the session can do, with what is known where it does
it. Every invariant of a session is proved over it. The order of the batches is one of them: at any time
there is at most one thread that is to fetch a batch, and it is to fetch the current one.
-/

namespace Xllm.Framework

open Xllm.Lib List

/-! ## Kinds of threads -/

/-- The thread is going to fetch a batch, or has fetched one and not said so. -/
def SessionCall.driving : SessionCall → Bool
  | scheduling | queued | fetching _ _ | fetched _ _ _ => true
  | _ => false

/-- The thread is between the two sections of `run_batch`. -/
def SessionCall.running : SessionCall → Bool
  | fetching _ _ | fetched _ _ _ => true
  | _ => false

/-- A batch has been fetched, and its result is not written, or it has failed and the session does not
know; or the session was told to stop and does not know either. -/
def SessionCall.settling : SessionCall → Bool
  | writing _ _ _ => true
  | finishing _ failed finisher => !failed || finisher == .batch
  | _ => false

theorem SessionCall.driving_of_running {call : SessionCall} (h : call.running = true) :
    call.driving = true := by
  cases call with
  | fetching => rfl
  | fetched => rfl
  | _ => exact nomatch h

namespace WorkerPrefetchSession

/-- A thread goes on, or ends; `events` is what it did. -/
def goes (s : WorkerPrefetchSession) (id : Nat) (next : Option SessionCall)
    (events : List SessionEvent) : WorkerPrefetchSession :=
  { s with
    calls := put s.calls id next
    log := s.log ++ events }

variable {cfg : SessionConfig} {s s' : WorkerPrefetchSession} {id : Nat}

theorem goOn_eq (s : WorkerPrefetchSession) (id : Nat) (call : SessionCall) :
    s.goOn id call = s.goes id (some call) [] := by
  unfold goes
  rw [append_nil]
  rfl

theorem endCall_eq (s : WorkerPrefetchSession) (id : Nat) :
    s.endCall id = s.goes id none [] := by
  unfold goes
  rw [append_nil]
  rfl

theorem finishReturns_eq (s : WorkerPrefetchSession) (id : Nat) (finisher : Finisher) :
    ∃ next, s.finishReturns id finisher = s.goes id next [] ∧
      (next = none ∨ next = some .waiting) := by
  cases finisher with
  | shutdown => exact ⟨some .waiting, goOn_eq s id _, Or.inr rfl⟩
  | batch | stream => exact ⟨none, endCall_eq s id, Or.inl rfl⟩

/-- What a thread does that is not to fetch a batch, or no longer is. -/
inductive Onward (quiet : Prop) (s : WorkerPrefetchSession) (id : Nat) :
    Option SessionCall → List SessionEvent → Prop
  | stops {streamId : Option Nat} (hid : s.calls.lookup id = none) (hquiet : quiet)
      (hfinished : s.finished = false) (hstate : s.state = .waitingDecision) :
      Onward quiet s id (some (.finishing streamId false .stream)) []
  | fails {streamId : Option Nat} {finisher : Finisher} (hid : s.calls.lookup id = none)
      (hfinisher : finisher ≠ .batch) :
      Onward quiet s id (some (.finishing streamId true finisher)) []
  | lapses (hid : s.calls.lookup id = some .scheduling ∨ s.calls.lookup id = some .queued) :
      Onward quiet s id none []
  | writes {batchIndex : Nat} {frame : BatchFrame} {closeAfterResult ok : Bool}
      {next : Option SessionCall}
      (hid : s.calls.lookup id = some (.writing batchIndex frame closeAfterResult))
      (hnext : ok = false ∧ next = some (.finishing s.streamId true .batch) ∨
        ok = true ∧ closeAfterResult = true ∧ next = some (.finishing s.streamId false .batch) ∨
        ok = true ∧ closeAfterResult = false ∧ next = none) :
      Onward quiet s id next [.write batchIndex frame ok]
  | returns {streamId : Option Nat} {failed : Bool} {finisher : Finisher}
      {next : Option SessionCall}
      (hid : s.calls.lookup id = some (.finishing streamId failed finisher))
      (hfinished : s.finished = true) (hnext : next = none ∨ next = some .waiting) :
      Onward quiet s id next []
  | closes {streamId : Option Nat} {finisher : Finisher}
      (hid : s.calls.lookup id = some (.closing streamId finisher)) :
      Onward quiet s id (some (.closed finisher)) [.close streamId]

/-- What a step does; `quiet` is known wherever a control message is followed. -/
inductive Move (cfg : SessionConfig) (quiet : Prop) (s : WorkerPrefetchSession) :
    WorkerPrefetchSession → Prop
  | stays : Move cfg quiet s s
  | stopsLater : Move cfg quiet s { s with stopAfterBatch := true }
  | closesRemotely : Move cfg quiet s (s.onClosed cfg)
  | onward {id : Nat} {next : Option SessionCall} {events : List SessionEvent}
      (h : Onward quiet s id next events) : Move cfg quiet s (s.goes id next events)
  | starts {id streamId : Nat} (hid : s.calls.lookup id = none) (hfinished : s.finished = false)
      (hstate : s.state = .created) :
      Move cfg quiet s
        ({ s with streamId := some streamId, state := .runningBatch }.goes id (some .scheduling) [])
  | continues {id : Nat} (hid : s.calls.lookup id = none) (hquiet : quiet)
      (hfinished : s.finished = false) (hstate : s.state = .waitingDecision)
      (hgate : s.lastBatchGateComplete = true) (hnext : s.batchIndex + 1 < cfg.batchCount) :
      Move cfg quiet s
        ({ s with batchIndex := s.batchIndex + 1, state := .runningBatch }.goes id
          (some .scheduling) [.continued (s.batchIndex + 1)])
  | schedules {id : Nat} (hid : s.calls.lookup id = some .scheduling) :
      Move cfg quiet s (s.goes id (some .queued) [])
  | begins {id : Nat} {units : List PrefetchUnit} (hid : s.calls.lookup id = some .queued)
      (hfinished : s.finished = false) (hunits : cfg.batchUnits s.batchIndex = .ok units) :
      Move cfg quiet s
        ({ s with batchRunning := true }.goes id (some (.fetching s.batchIndex units)) [])
  | fetches {id batchIndex : Nat} {units : List PrefetchUnit} {transferHits : List UInt8}
      (hid : s.calls.lookup id = some (.fetching batchIndex units)) :
      Move cfg quiet s (s.goes id (some (.fetched batchIndex units transferHits))
        [.fetch batchIndex units transferHits])
  | fetchedLate {id batchIndex : Nat} {units : List PrefetchUnit} {transferHits : List UInt8}
      (hid : s.calls.lookup id = some (.fetched batchIndex units transferHits))
      (hfinished : s.finished = true) :
      Move cfg quiet s (({ s with batchRunning := false }.reportReady cfg).goes id none [])
  | fetched {id batchIndex : Nat} {units : List PrefetchUnit} {transferHits : List UInt8}
      {next : SessionCall} (hid : s.calls.lookup id = some (.fetched batchIndex units transferHits))
      (hfinished : s.finished = false) (hnext : next = .finishing s.streamId true .batch ∨ ∃ frame,
        (cfg.batchResult batchIndex units transferHits).2 = some frame ∧
          next = .writing batchIndex frame s.stopAfterBatch) :
      Move cfg quiet s
        ({ s with
          batchRunning := false
          lastBatchGateComplete := (cfg.batchResult batchIndex units transferHits).1
          state := if s.stopAfterBatch then .completed else .waitingDecision }.goes id (some next)
            [.gated batchIndex (cfg.batchResult batchIndex units transferHits).1])
  | finishes {id : Nat} {streamId : Option Nat} {failed : Bool} {finisher : Finisher}
      (hid : s.calls.lookup id = some (.finishing streamId failed finisher))
      (hfinished : s.finished = false) :
      Move cfg quiet s
        ({ s with
          finished := true
          failed := failed
          state := if failed then .failed else .completed }.goes id
            (some (.closing streamId finisher)) [])
  | closed {id : Nat} {finisher : Finisher} {next : Option SessionCall}
      (hid : s.calls.lookup id = some (.closed finisher))
      (hnext : next = none ∨ next = some .waiting) :
      Move cfg quiet s (({ s with streamClosed := true }.reportReady cfg).goes id next [])
  | shutdownReturns {id : Nat} (hid : s.calls.lookup id = some .waiting)
      (hclosed : s.streamClosed = true) :
      Move cfg quiet s ({ s with shutdownReturned := true }.goes id none [])

/-- A label that hands over a control message. -/
def Label.isMessage : Label → Bool
  | onReceivedMessages _ _ _ => true
  | _ => false

theorem beginCall_eq_ok {next : WorkerPrefetchSession} (h : s.beginCall id next = .ok s') :
    s.calls.lookup id = none ∧ s' = next := by
  unfold WorkerPrefetchSession.beginCall at h
  split at h
  · next hid => exact ⟨hid, (Except.ok.inj h).symm⟩
  · cases h

variable {quiet : Prop}

variable {streamId : Option Nat}

theorem Move.failing (hid : s.calls.lookup id = none)
    {finisher : Finisher} (hfinisher : finisher ≠ .batch) :
    Move cfg quiet s (s.goOn id (.finishing streamId true finisher)) := by
  rw [goOn_eq]
  exact .onward (.fails hid hfinisher)

theorem Move.of_message (hquiet : quiet) {streamId : Nat} {messages : List (List UInt8)}
    (hid : s.calls.lookup id = none) :
    Move cfg quiet s (s.onReceivedMessages cfg id streamId messages).1 := by
  unfold onReceivedMessages
  split
  · dsimp only
    split
    · exact .stays
    next hfinished =>
    have hfinished : s.finished = false := Bool.eq_false_iff.mpr hfinished
    split
    · exact .stopsLater
    split
    · exact .failing hid (by simp)
    next hstate =>
    have hstate : s.state = .waitingDecision := not_not.mp hstate
    split
    · rw [goOn_eq]
      exact .onward (.stops hid hquiet hfinished hstate)
    split
    · next hnext => exact .continues hid hquiet hfinished hstate hnext.2.1 hnext.2.2
    · exact .failing hid (by simp)
  · exact .failing hid (by simp)

variable {call : SessionCall}

/-- Every piece of a call is one of the moves. -/
theorem Move.of_resume {answer : Answer} (hid : s.calls.lookup id = some call)
    (h : s.resume cfg id call answer = .ok s') : Move cfg quiet s s' := by
  unfold resume at h
  split at h
  · cases h
    rw [goOn_eq, endCall_eq]
    split
    · exact .onward (.lapses (Or.inl hid))
    · exact .schedules hid
  · split at h
    · cases h
      rw [endCall_eq]
      exact .onward (.lapses (Or.inr hid))
    next hgoes =>
    split at h
    · cases h
    next units hunits =>
    cases h
    rw [goOn_eq]
    exact .begins hid (Bool.eq_false_iff.mpr fun hf => hgoes (Or.inl hf)) hunits
  · cases h
    exact .fetches hid
  · next batchIndex units transferHits =>
    cases h
    unfold batchFetched
    dsimp only
    split
    · next hfinished =>
      rw [endCall_eq]
      exact .fetchedLate hid hfinished
    · next hfinished =>
      have hfinished : s.finished = false := Bool.eq_false_iff.mpr hfinished
      split
      · exact .fetched hid hfinished (Or.inl rfl)
      · next frame hframe => exact .fetched hid hfinished (Or.inr ⟨frame, hframe, rfl⟩)
  · next batchIndex frame closeAfterResult code =>
    cases h
    split
    · next hcode =>
      rw [decide_eq_false hcode]
      exact .onward (.writes hid (Or.inl ⟨rfl, rfl⟩))
    next hcode =>
    rw [decide_eq_true (not_not.mp hcode)]
    split
    · next hclose => exact .onward (.writes hid (Or.inr (Or.inl ⟨rfl, hclose, rfl⟩)))
    · next hclose =>
      exact .onward (.writes hid (Or.inr (Or.inr ⟨rfl, Bool.eq_false_iff.mpr hclose, rfl⟩)))
  · next finisher =>
    cases h
    split
    · next hfinished =>
      obtain ⟨next, heq, hnext⟩ := finishReturns_eq s id finisher
      rw [heq]
      exact .onward (.returns hid hfinished hnext)
    · next hfinished =>
      rw [goOn_eq]
      exact .finishes hid (Bool.eq_false_iff.mpr hfinished)
  · cases h
    exact .onward (.closes hid)
  · next finisher =>
    cases h
    obtain ⟨next, heq, hnext⟩ :=
      finishReturns_eq ({ s with streamClosed := true }.reportReady cfg) id finisher
    rw [heq]
    exact .closed hid hnext
  · split at h
    · next hclosed =>
      cases h
      rw [endCall_eq]
      exact .shutdownReturns hid hclosed
    · cases h
  · cases h

theorem Move.of_step {label : Label} (hquiet : label.isMessage = true → quiet)
    (h : s.step cfg label = .ok s') : Move cfg quiet s s' := by
  cases label with
  | start id streamId =>
    obtain ⟨hid, rfl⟩ := beginCall_eq_ok h
    unfold start
    split
    · exact .stays
    · next hgoes =>
      obtain ⟨hfinished, hstate⟩ := not_or.mp hgoes
      rw [goOn_eq]
      exact .starts hid (Bool.eq_false_iff.mpr hfinished) (not_not.mp hstate)
  | shutdown id | onIdleTimeout id streamId | onFailed id streamId =>
    obtain ⟨hid, rfl⟩ := beginCall_eq_ok h
    exact .failing hid (by simp)
  | onReceivedMessages id streamId messages =>
    obtain ⟨hid, rfl⟩ := beginCall_eq_ok h
    exact .of_message (hquiet rfl) hid
  | onClosed =>
    cases h
    exact .closesRemotely
  | resume id answer =>
    unfold WorkerPrefetchSession.step at h
    dsimp only at h
    split at h
    · cases h
    · next call hid => exact .of_resume hid h

/-! ## Kinds of threads before and after a move -/

variable {p : SessionCall → Bool} {t : Table Nat SessionCall} {id' : Nat}
  {next : Option SessionCall}

/-- The calls of `s'` are those of `s` with one set, or dropped. -/
theorem lookup_put_cases (h : (put t id next).lookup id' = some call) :
    (id' = id ∧ next = some call) ∨ (id' ≠ id ∧ t.lookup id' = some call) := by
  by_cases heq : id' = id
  · rw [heq, lookup_put_self] at h
    exact Or.inl ⟨heq, h⟩
  · rw [lookup_put_ne t next heq] at h
    exact Or.inr ⟨heq, h⟩

/-- What is of a kind that the thread does not become was there before. -/
theorem lookup_of_put (hnext : next.any p = false) (h : (put t id next).lookup id' = some call)
    (hp : p call = true) : t.lookup id' = some call := by
  rcases lookup_put_cases h with ⟨-, rfl⟩ | ⟨-, h⟩
  · exact nomatch hp.symm.trans hnext
  · exact h

/-- What is of a kind that the thread was not of stays. -/
theorem lookup_put_of (hold : (t.lookup id).any p = false) (h : t.lookup id' = some call)
    (hp : p call = true) : (put t id next).lookup id' = some call := by
  have hne : id' ≠ id := by
    rintro rfl
    rw [h] at hold
    exact nomatch hp.symm.trans hold
  rw [lookup_put_ne t next hne]
  exact h

/-! ## The order of the batches -/

/-- The batches that were fetched, in this order. -/
def fetches (s : WorkerPrefetchSession) : List Nat :=
  s.log.filterMap fun
    | .fetch batchIndex _ _ => some batchIndex
    | _ => none

/-- What a thread that is to fetch a batch knows. -/
def Placed (cfg : SessionConfig) (s : WorkerPrefetchSession) : SessionCall → Prop
  | .scheduling | .queued => s.fetches = List.range s.batchIndex
  | .fetching batchIndex units =>
    batchIndex = s.batchIndex ∧ s.fetches = List.range batchIndex ∧
      cfg.batchUnits batchIndex = .ok units
  | .fetched batchIndex units transferHits =>
    batchIndex = s.batchIndex ∧ s.fetches = List.range (batchIndex + 1) ∧
      cfg.batchUnits batchIndex = .ok units ∧ .fetch batchIndex units transferHits ∈ s.log
  | _ => True

structure Line (cfg : SessionConfig) (s : WorkerPrefetchSession) : Prop where
  inOrder : ∃ n, s.fetches = List.range n
  bounded : s.batchIndex < cfg.batchCount
  within : ∀ k ∈ s.fetches, k ≤ s.batchIndex
  unique : ∀ {id id' call call'}, s.calls.lookup id = some call → s.calls.lookup id' = some call' →
    call.driving = true → call'.driving = true → id = id'
  running : ∀ {id call}, s.calls.lookup id = some call → call.driving = true →
    s.finished = true ∨ s.state = .runningBatch
  placed : ∀ {id call}, s.calls.lookup id = some call → Placed cfg s call
  created : s.finished = false → s.state = .created → s.fetches = [] ∧ s.batchIndex = 0
  waiting : s.finished = false → s.state = .waitingDecision →
    s.fetches = List.range (s.batchIndex + 1)
  gated : s.finished = false → s.state = .waitingDecision → s.lastBatchGateComplete = true →
    .gated s.batchIndex true ∈ s.log
  continued : ∀ k < s.batchIndex,
    List.Sublist [.gated k true, .continued (k + 1)] s.log
  allowed : ∀ k, k + 1 ∈ s.fetches → ∃ units transferHits,
    List.Sublist [.gated k true, .continued (k + 1), .fetch (k + 1) units transferHits] s.log

theorem fetches_append {events : List SessionEvent} (hlog : s'.log = s.log ++ events)
    (hevents : ∀ k units hits, .fetch k units hits ∉ events) : s'.fetches = s.fetches := by
  unfold fetches
  rw [hlog, filterMap_append, append_right_eq_self, filterMap_eq_nil_iff]
  intro event hevent
  cases event with
  | fetch k units hits => exact absurd hevent (hevents k units hits)
  | _ => rfl

theorem Placed.of_not_driving (h : call.driving = false) : Placed cfg s call := by
  cases call with
  | scheduling | queued | fetching | fetched => cases h
  | _ => trivial

variable {events : List SessionEvent}

theorem Line.logs (h : Line cfg s) (hevents : ∀ k units hits, .fetch k units hits ∉ events) :
    Line cfg { s with log := s.log ++ events } := by
  have hfetches : ({ s with log := s.log ++ events } : WorkerPrefetchSession).fetches = s.fetches :=
    fetches_append rfl hevents
  have hsub : List.Sublist s.log (s.log ++ events) := sublist_append_left _ _
  exact
    { inOrder := hfetches ▸ h.inOrder
      bounded := h.bounded
      within := hfetches ▸ h.within
      unique := h.unique
      running := h.running
      placed := by
        intro id' call hid'
        have hplaced := h.placed hid'
        cases call with
        | scheduling | queued => exact hfetches.trans hplaced
        | fetching => exact ⟨hplaced.1, hfetches.trans hplaced.2.1, hplaced.2.2⟩
        | fetched =>
          obtain ⟨hk, hrange, hunits, hmem⟩ := hplaced
          exact ⟨hk, hfetches.trans hrange, hunits, hsub.subset hmem⟩
        | _ => trivial
      created := hfetches ▸ h.created
      waiting := hfetches ▸ h.waiting
      gated := fun hfinished hwaiting hcomplete =>
        hsub.subset (h.gated hfinished hwaiting hcomplete)
      continued := fun k hk => (h.continued k hk).trans hsub
      allowed := by
        intro k hk
        obtain ⟨units, transferHits, hallowed⟩ := h.allowed k (hfetches ▸ hk)
        exact ⟨units, transferHits, hallowed.trans hsub⟩ }

theorem Line.goes (h : Line cfg s) (hnext : next.any SessionCall.driving = false)
    (hevents : ∀ k units hits, .fetch k units hits ∉ events) :
    Line cfg (s.goes id next events) :=
  Line.logs (s := { s with calls := put s.calls id next })
    { h with
      unique := fun hid hid' hd hd' =>
        h.unique (lookup_of_put hnext hid hd) (lookup_of_put hnext hid' hd') hd hd'
      running := fun hid hd => h.running (lookup_of_put hnext hid hd) hd
      placed := by
        intro id' call hid
        cases hd : call.driving with
        | false => exact .of_not_driving hd
        | true => exact h.placed (lookup_of_put hnext hid hd) } hevents

theorem Line.ended (h : Line cfg s) (finished failed : Bool) (state : SessionState)
    (hfinished : finished = true) :
    Line cfg { s with finished := finished, failed := failed, state := state } := by
  subst hfinished
  exact
    { h with
      running := fun _ _ => Or.inl rfl
      created := nofun
      waiting := nofun
      gated := nofun }

variable {old new : SessionCall}

theorem Line.drive (h : Line cfg s)
    (hid : s.calls.lookup id = some old) (hold : old.driving = true) (hplaced : Placed cfg s new) :
    Line cfg (s.goes id (some new) []) := by
  have hfrom : ∀ {id' call}, (put s.calls id (some new)).lookup id' = some call →
      call.driving = true → ∃ call', s.calls.lookup id' = some call' ∧ call'.driving = true := by
    intro id' call hid' hdriving
    rcases lookup_put_cases hid' with ⟨rfl, -⟩ | ⟨-, hid'⟩
    · exact ⟨old, hid, hold⟩
    · exact ⟨call, hid', hdriving⟩
  refine Line.logs (s := { s with calls := put s.calls id (some new) }) ?_ (by simp)
  exact
    { h with
      unique := by
        intro id₁ id₂ call call' hid₁ hid₂ hd hd'
        obtain ⟨_, hid₁, hd⟩ := hfrom hid₁ hd
        obtain ⟨_, hid₂, hd'⟩ := hfrom hid₂ hd'
        exact h.unique hid₁ hid₂ hd hd'
      running := by
        intro id' call hid' hd
        obtain ⟨_, hid', hd⟩ := hfrom hid' hd
        exact h.running hid' hd
      placed := by
        intro id' call hid'
        rcases lookup_put_cases hid' with ⟨-, heq⟩ | ⟨-, hid'⟩
        · exact (Option.some.inj heq) ▸ hplaced
        · exact h.placed hid' }

theorem reportReady_cases (cfg : SessionConfig) (s : WorkerPrefetchSession) :
    s.reportReady cfg = s ∨
      s.reportReady cfg = { s with reportScheduled := true, log := s.log ++ [.report] } := by
  unfold reportReady
  split
  · exact Or.inl rfl
  · exact Or.inr rfl

theorem Line.reportReady (h : Line cfg s) : Line cfg (s.reportReady cfg) := by
  rcases reportReady_cases cfg s with heq | heq
  · rw [heq]
    exact h
  · rw [heq]
    exact Line.logs (s := { s with reportScheduled := true }) { h with } (by simp)

theorem Line.init (cfg : SessionConfig) : Line cfg {} where
  inOrder := ⟨0, rfl⟩
  bounded := by
    have hunits : 0 < cfg.request.units.length := by
      have hvalid := cfg.request_valid
      unfold StoragePrefetchRequest.valid at hvalid
      simp only [Bool.and_eq_true, decide_eq_true_eq] at hvalid
      exact length_pos_iff.mpr hvalid.1
    have hpos := cfg.batchSize_pos
    unfold SessionConfig.batchCount StoragePrefetchRequest.batchCount StoragePrefetchRequest.unitCount
    exact Nat.div_pos (by omega) hpos
  within _ h := nomatch h
  unique hid := nomatch hid
  running hid := nomatch hid
  placed hid := nomatch hid
  created _ _ := ⟨rfl, rfl⟩
  waiting _ h := nomatch h
  gated _ h := nomatch h
  continued _ h := nomatch h
  allowed _ h := nomatch h

theorem Line.not_driving (h : Line cfg s) (hfinished : s.finished = false)
    (hstate : s.state ≠ .runningBatch)
    (hid : s.calls.lookup id = some call) : call.driving = false := by
  cases hd : call.driving with
  | false => rfl
  | true =>
    rcases h.running hid hd with htrue | hrunning
    · exact nomatch hfinished.symm.trans htrue
    · exact absurd hrunning hstate

theorem Line.alone (h : Line cfg s) (hid : s.calls.lookup id = some old)
    (hold : old.driving = true) (hid' : (put s.calls id next).lookup id' = some call)
    (hd : call.driving = true) : id' = id ∧ next = some call := by
  rcases lookup_put_cases hid' with heq | ⟨hne, hid'⟩
  · exact heq
  · exact absurd (h.unique hid' hid hd hold) hne

theorem Line.drives (h : Line cfg s) {index : Nat}
    (hfinished : s.finished = false) (hstate : s.state ≠ .runningBatch)
    (hplaced : s.fetches = List.range index) (hbounded : index < cfg.batchCount)
    (hevents : ∀ k units hits, .fetch k units hits ∉ events)
    (hcontinued : ∀ k < index, List.Sublist [.gated k true, .continued (k + 1)] (s.log ++ events)) :
    Line cfg ({ s with
      streamId := streamId, batchIndex := index, state := .runningBatch }.goes id
        (some .scheduling) events) := by
  have honly : ∀ {id' call}, (put s.calls id (some .scheduling)).lookup id' = some call →
      call.driving = true → id' = id ∧ call = .scheduling := by
    intro id' call hid' hd
    rcases lookup_put_cases hid' with ⟨heq, hcall⟩ | ⟨-, hid'⟩
    · exact ⟨heq, (Option.some.inj hcall).symm⟩
    · exact nomatch hd.symm.trans (h.not_driving hfinished hstate hid')
  have hlogs := h.logs hevents
  have hfetches : (s.goes id (some .scheduling) events).fetches = s.fetches :=
    fetches_append rfl hevents
  exact
    { inOrder := hlogs.inOrder
      bounded := hbounded
      within := fun k hk => by
        have hk : k ∈ s.fetches := hfetches ▸ hk
        rw [hplaced, mem_range] at hk
        exact hk.le
      unique := fun hid hid' hd hd' => (honly hid hd).1.trans (honly hid' hd').1.symm
      running := fun _ _ => Or.inr rfl
      placed := by
        intro id' call hid'
        cases hd : call.driving with
        | true =>
          rw [(honly hid' hd).2]
          exact hfetches.trans hplaced
        | false => exact .of_not_driving hd
      created := nofun
      waiting := nofun
      gated := nofun
      continued := hcontinued
      allowed := hlogs.allowed }

variable {batchIndex : Nat} {units : List PrefetchUnit} {transferHits : List UInt8}

theorem Line.fetch (h : Line cfg s) (hid : s.calls.lookup id = some (.fetching batchIndex units)) :
    Line cfg (s.goes id (some (.fetched batchIndex units transferHits))
      [.fetch batchIndex units transferHits]) := by
  obtain ⟨hindex, hrange, hunits⟩ := h.placed hid
  have hfetches : (s.goes id (some (.fetched batchIndex units transferHits))
      [.fetch batchIndex units transferHits]).fetches = List.range (batchIndex + 1) := by
    rw [range_succ, ← hrange]
    unfold fetches WorkerPrefetchSession.goes
    rw [filterMap_append]
    rfl
  have hsub : List.Sublist s.log (s.log ++ [.fetch batchIndex units transferHits]) :=
    sublist_append_left _ _
  have hrunning := h.running hid rfl
  -- the session is not waiting while a thread fetches
  have hbusy : s.finished = false → s.state = .runningBatch := by
    intro hgoes
    rcases hrunning with htrue | hrunning
    · exact nomatch hgoes.symm.trans htrue
    · exact hrunning
  exact
    { inOrder := ⟨_, hfetches⟩
      bounded := h.bounded
      within := fun k hk => by
        rw [hfetches, mem_range] at hk
        exact (Nat.lt_succ_iff.mp hk).trans hindex.le
      unique := fun hid₁ hid₂ hd hd' =>
        (h.alone hid rfl hid₁ hd).1.trans (h.alone hid rfl hid₂ hd').1.symm
      running := fun _ _ => hrunning
      placed := by
        intro id' call hid'
        cases hd : call.driving with
        | true =>
          obtain ⟨-, heq⟩ := h.alone hid rfl hid' hd
          cases heq
          exact ⟨hindex, hfetches, hunits, mem_append_right _ mem_cons_self⟩
        | false => exact .of_not_driving hd
      created := fun hgoes hcreated => nomatch (hbusy hgoes).symm.trans hcreated
      waiting := fun hgoes hwaiting => nomatch (hbusy hgoes).symm.trans hwaiting
      gated := fun hgoes hwaiting => nomatch (hbusy hgoes).symm.trans hwaiting
      continued := fun k hk => (h.continued k hk).trans hsub
      allowed := by
        intro k hk
        rw [hfetches, mem_range] at hk
        by_cases hlast : k + 1 = batchIndex
        · have hcontinued := h.continued k (by omega)
          refine ⟨units, transferHits, ?_⟩
          rw [← hlast]
          exact List.Sublist.append hcontinued (List.Sublist.refl _)
        · have hmem : k + 1 ∈ s.fetches := by
            rw [hrange, mem_range]
            omega
          obtain ⟨units', transferHits', hallowed⟩ := h.allowed k hmem
          exact ⟨units', transferHits', hallowed.trans hsub⟩ }

theorem Line.gate (h : Line cfg s) {complete : Bool} {state : SessionState}
    (hid : s.calls.lookup id = some (.fetched batchIndex units transferHits))
    (hnew : new.driving = false) (hstate : state ≠ .created) :
    Line cfg ({ s with
      batchRunning := false, lastBatchGateComplete := complete, state := state }.goes id (some new)
        [.gated batchIndex complete]) := by
  obtain ⟨hindex, hrange, -, -⟩ := h.placed hid
  have hlogs : Line cfg { s with log := s.log ++ [.gated batchIndex complete] } := h.logs (by simp)
  have hfetches : (s.goes id (some new) [.gated batchIndex complete]).fetches = s.fetches :=
    fetches_append rfl (by simp)
  have hnone : ∀ {id' call}, (put s.calls id (some new)).lookup id' = some call →
      call.driving = false := by
    intro id' call hid'
    cases hd : call.driving with
    | false => rfl
    | true =>
      obtain ⟨-, heq⟩ := h.alone hid rfl hid' hd
      cases heq
      exact nomatch hd.symm.trans hnew
  exact
    { inOrder := hlogs.inOrder
      bounded := h.bounded
      within := hlogs.within
      unique := fun hid₁ _ hd _ => nomatch hd.symm.trans (hnone hid₁)
      running := fun hid' hd => nomatch hd.symm.trans (hnone hid')
      placed := fun hid' => .of_not_driving (hnone hid')
      created := fun _ hcreated => absurd hcreated hstate
      waiting := fun _ _ => by
        show (s.goes id (some new) [.gated batchIndex complete]).fetches = _
        rw [hfetches, hrange, hindex]
        rfl
      gated := fun _ _ hcomplete => by
        have hcomplete : complete = true := hcomplete
        rw [hcomplete, hindex]
        exact mem_append_right _ mem_cons_self
      continued := hlogs.continued
      allowed := hlogs.allowed }

/-- Only `starts` and `continues` begin a batch, and they find no other call at it. -/
theorem Line.step (h : Line cfg s) (hmove : Move cfg quiet s s') : Line cfg s' := by
  have hleaves : ∀ {next : Option SessionCall}, next = none ∨ next = some .waiting →
      next.any SessionCall.driving = false := by
    rintro next (rfl | rfl)
    · rfl
    · rfl
  cases hmove with
  | stays => exact h
  | stopsLater => exact { h with }
  | closesRemotely =>
    unfold onClosed
    refine Line.reportReady ?_
    split
    · next hfinished => exact { h.ended _ s.failed .closed hfinished with }
    · exact { h.ended _ true .closed rfl with }
  | onward hgoes =>
    cases hgoes with
    | stops | fails | lapses => exact h.goes rfl (by simp)
    | writes hid hnext =>
      refine h.goes ?_ (by simp)
      rcases hnext with ⟨-, rfl⟩ | ⟨-, -, rfl⟩ | ⟨-, -, rfl⟩
      · rfl
      · rfl
      · rfl
    | returns hid hfinished hnext => exact h.goes (hleaves hnext) (by simp)
    | closes => exact h.goes rfl (by simp)
  | starts hid hfinished hstate =>
    obtain ⟨hnil, hzero⟩ := h.created hfinished hstate
    refine h.drives hfinished (by rw [hstate]; simp) ?_ h.bounded (by simp) ?_
    · rw [hnil, hzero]
      rfl
    · rw [append_nil]
      exact h.continued
  | continues hid _ hfinished hstate hgate hnext =>
    refine h.drives hfinished (by rw [hstate]; simp) (h.waiting hfinished hstate) hnext (by simp)
      fun k hk => ?_
    by_cases hlast : k = s.batchIndex
    · rw [hlast]
      exact List.Sublist.append (singleton_sublist.mpr (h.gated hfinished hstate hgate))
        (List.Sublist.refl _)
    · exact (h.continued k (by omega)).trans (sublist_append_left _ _)
  | schedules hid =>
    have hplaced := h.placed hid
    exact h.drive hid rfl hplaced
  | begins hid hfinished hunits =>
    exact Line.drive (s := { s with batchRunning := true }) { h with } hid rfl
      ⟨rfl, h.placed hid, hunits⟩
  | fetches hid => exact h.fetch hid
  | fetchedLate =>
    have hready := Line.reportReady (s := { s with batchRunning := false }) { h with }
    exact hready.goes rfl (by simp)
  | fetched hid hfinished hnext =>
    refine h.gate hid ?_ ?_
    · rcases hnext with rfl | ⟨frame, -, rfl⟩
      · rfl
      · rfl
    · split
      · simp
      · simp
  | finishes hid hfinished => exact (h.ended _ _ _ rfl).goes rfl (by simp)
  | closed hid hnext =>
    have hready := Line.reportReady (s := { s with streamClosed := true }) { h with }
    exact hready.goes (hleaves hnext) (by simp)
  | shutdownReturns =>
    exact Line.goes (s := { s with shutdownReturned := true }) { h with } rfl (by simp)

end WorkerPrefetchSession

end Xllm.Framework
