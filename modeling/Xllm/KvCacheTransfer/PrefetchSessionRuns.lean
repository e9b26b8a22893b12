import Xllm.KvCacheTransfer.PrefetchSessionSteps

/-!
# Whole runs of a prefetch session

Whatever the order of the steps, a session closes its stream once, reports once and last, and writes
each batch once. Whether a session that did not fail has written the results of all its batches depends
on the control messages: a STOP may come when a result is not written yet.
-/

namespace Xllm.Framework

open Xllm.Lib WorkerPrefetchSession List

variable {cfg : SessionConfig}

/-! ## Closing and reporting

The stream may close from either side. Closings are counted over the log and the calls that are to
close, so that a step moves a closing or leaves it. -/

def SessionCall.closings : SessionCall → Nat
  | closing _ _ => 1
  | _ => 0

/-- The first section of `finish` is behind the thread. -/
def SessionCall.pastFinish : SessionCall → Bool
  | closing _ _ | closed _ | waiting => true
  | _ => false

def SessionEvent.isClose : SessionEvent → Bool
  | close _ => true
  | _ => false

/-- The event writes the result of the batch. -/
def SessionEvent.writes (batchIndex : Nat) : SessionEvent → Bool
  | write k _ _ => k == batchIndex
  | _ => false

def SessionCall.writings (batchIndex : Nat) : SessionCall → Nat
  | writing k _ _ => if k = batchIndex then 1 else 0
  | _ => 0

namespace WorkerPrefetchSession

/-- How often the session has closed the stream. -/
def closes (s : WorkerPrefetchSession) : Nat := s.log.countP SessionEvent.isClose

/-- How often the stream was closed, or is about to be. -/
def closings (s : WorkerPrefetchSession) : Nat :=
  s.closes + tally (fun _ call => call.closings) s.calls

def reports (s : WorkerPrefetchSession) : Nat := s.log.count .report

structure Closing (cfg : SessionConfig) (s : WorkerPrefetchSession) : Prop where
  batchRunning : s.batchRunning = true ↔
    ∃ id call, s.calls.lookup id = some call ∧ call.running = true
  closedFinished : s.streamClosed = true → s.finished = true
  pastFinish : ∀ {id call}, s.calls.lookup id = some call → call.pastFinish = true →
    s.finished = true
  closes : s.closings ≤ if s.finished then 1 else 0
  reports : s.reports = if s.reportScheduled then 1 else 0
  report : s.reportScheduled = (cfg.statsPool && s.streamClosed && !s.batchRunning)
  returned : s.shutdownReturned = true → s.streamClosed = true

theorem Closing.init (cfg : SessionConfig) : Closing cfg {} where
  batchRunning := by
    constructor
    · intro h
      exact nomatch h
    · rintro ⟨id, call, hid, -⟩
      exact nomatch hid
  closedFinished h := nomatch h
  pastFinish hid := nomatch hid
  closes := Nat.zero_le _
  reports := by simp [WorkerPrefetchSession.reports]
  report := by simp
  returned h := nomatch h

variable {s : WorkerPrefetchSession}

theorem Closing.ready
    (hrunning : s.batchRunning = true ↔
      ∃ id call, s.calls.lookup id = some call ∧ call.running = true)
    (hclosed : s.streamClosed = true → s.finished = true)
    (hpast : ∀ {id call}, s.calls.lookup id = some call → call.pastFinish = true →
      s.finished = true) (hcloses : s.closings ≤ if s.finished then 1 else 0)
    (hreports : s.reports = if s.reportScheduled then 1 else 0)
    (hreport : s.reportScheduled = true →
      (cfg.statsPool && s.streamClosed && !s.batchRunning) = true)
    (hreturned : s.shutdownReturned = true → s.streamClosed = true) :
    Closing cfg (s.reportReady cfg) := by
  unfold WorkerPrefetchSession.reportReady
  split
  · next hnot =>
    refine ⟨hrunning, hclosed, hpast, hcloses, hreports, ?_, hreturned⟩
    cases hscheduled : s.reportScheduled with
    | true => exact (hreport hscheduled).symm
    | false =>
      rw [hscheduled] at hnot
      rcases hnot with hpool | hopen | hrunning | habs
      · rw [hpool]
        rfl
      · rw [hopen]
        simp
      · rw [hrunning]
        simp
      · exact nomatch habs
  · next hready =>
    simp only [not_or, Bool.not_eq_false, Bool.not_eq_true] at hready
    obtain ⟨hpool, hopen, hidle, hscheduled⟩ := hready
    rw [hscheduled] at hreports
    refine ⟨hrunning, hclosed, hpast, ?_, ?_, ?_, hreturned⟩
    · show (s.log ++ [SessionEvent.report]).countP SessionEvent.isClose + _ ≤ _
      rw [countP_append]
      exact hcloses
    · show (s.log ++ [SessionEvent.report]).count .report = 1
      rw [count_append]
      exact congrArg (· + 1) hreports
    · rw [hpool, hopen, hidle]
      rfl

variable {s' : WorkerPrefetchSession} {events : List SessionEvent} {id : Nat}
  {next : Option SessionCall}

variable {t : Table Nat SessionCall}

theorem running_put
    (hrunning : next.any SessionCall.running = (t.lookup id).any SessionCall.running) :
    (∃ id' call, t.lookup id' = some call ∧ call.running = true) ↔
      ∃ id' call, (put t id next).lookup id' = some call ∧ call.running = true := by
  constructor
  · rintro ⟨id', call, hid', hr⟩
    by_cases heq : id' = id
    · rw [← heq, hid'] at hrunning
      obtain ⟨call', hnext, hr'⟩ := (Option.any_eq_true _ _).mp (hrunning.trans hr)
      exact ⟨id, call', (lookup_put_self t id next).trans hnext, hr'⟩
    · exact ⟨id', call, (lookup_put_ne _ _ heq).trans hid', hr⟩
  · rintro ⟨id', call, hid', hr⟩
    rcases lookup_put_cases hid' with ⟨-, rfl⟩ | ⟨-, hid'⟩
    · obtain ⟨call', hold, hr'⟩ := (Option.any_eq_true _ _).mp (hrunning.symm.trans hr)
      exact ⟨id, call', hold, hr'⟩
    · exact ⟨id', call, hid', hr⟩

theorem closings_goes {t : WorkerPrefetchSession} {n : Nat} (hcalls : t.calls = s.calls)
    (hlog : t.log = s.log) (hle : s.closings + (events.countP SessionEvent.isClose +
        weigh (fun _ call => SessionCall.closings call) id next) ≤
      n + weigh (fun _ call => SessionCall.closings call) id (s.calls.lookup id)) :
    (t.goes id next events).closings ≤ n := by
  have htally := tally_put (fun _ call => SessionCall.closings call) s.calls id next
  have hcount : (t.goes id next events).closings =
      s.closes + events.countP SessionEvent.isClose +
        tally (fun _ call => SessionCall.closings call) (put s.calls id next) := by
    rw [closings, closes, goes, hcalls, hlog, countP_append]
    rfl
  unfold closings at hle
  omega

theorem reports_goes (hevents : .report ∉ events) :
    (s.goes id next events).reports = s.reports := by
  have hcount : (s.goes id next events).reports = s.reports + events.count .report :=
    count_append
  rw [hcount, count_eq_zero.mpr hevents, Nat.add_zero]

variable {finished : Bool} {call : SessionCall}

theorem pastFinish_put
    (hold : ∀ {id call}, t.lookup id = some call → call.pastFinish = true → finished = true)
    (hnext : next.any SessionCall.pastFinish = true → finished = true) {id' : Nat}
    (hid' : (put t id next).lookup id' = some call)
    (hp : call.pastFinish = true) : finished = true := by
  rcases lookup_put_cases hid' with ⟨-, rfl⟩ | ⟨-, hid'⟩
  · exact hnext hp
  · exact hold hid' hp

theorem Closing.goes (h : Closing cfg s) {old : Option SessionCall} (hid : s.calls.lookup id = old)
    (hrunning : next.any SessionCall.running = old.any SessionCall.running)
    (hcloses : events.countP SessionEvent.isClose +
      weigh (fun _ call => SessionCall.closings call) id next ≤
        weigh (fun _ call => SessionCall.closings call) id old)
    (hpast : next.any SessionCall.pastFinish = true → s.finished = true)
    (hevents : .report ∉ events) : Closing cfg (s.goes id next events) :=
  { h with
    batchRunning := h.batchRunning.trans (running_put (by rw [hid]; exact hrunning))
    pastFinish := pastFinish_put h.pastFinish hpast
    closes := closings_goes rfl rfl (by rw [hid]; exact Nat.add_le_add h.closes hcloses)
    reports := (reports_goes hevents).trans h.reports }

variable {gate : Bool} {state : SessionState}

theorem Closing.batchDone (h : Closing cfg s) (hline : Line cfg s)
    {old : SessionCall} (hid : s.calls.lookup id = some old)
    (hold : old.driving = true) (hrunning : next.any SessionCall.running = false)
    (hclosings : weigh (fun _ call => SessionCall.closings call) id next = 0)
    (hpast : next.any SessionCall.pastFinish = false)
    (hcloses : events.countP SessionEvent.isClose = 0) (hevents : .report ∉ events) :
    Closing cfg (({ s with
      batchRunning := false, lastBatchGateComplete := gate, state := state }.goes id next
        events).reportReady cfg) := by
  refine .ready ⟨nofun, ?_⟩ h.closedFinished (pastFinish_put h.pastFinish ?_) ?_
    ((reports_goes hevents).trans h.reports) (fun hyes => ?_) h.returned
  · rintro ⟨id', call, hid', hr⟩
    obtain ⟨-, heq⟩ := hline.alone hid hold hid' (SessionCall.driving_of_running hr)
    rw [heq] at hrunning
    exact nomatch hr.symm.trans hrunning
  · rw [hpast]
    exact nofun
  · refine closings_goes rfl rfl ?_
    rw [hcloses, hclosings]
    exact h.closes.trans (Nat.le_add_right _ _)
  · have hready := h.report.symm.trans hyes
    simp only [Bool.and_eq_true] at hready
    rw [hready.1.1, hready.1.2]
    rfl

variable {failed : Bool}

theorem Closing.streamCloses (h : Closing cfg s) (hfinished : finished = true) :
    Closing cfg ({ s with
      finished := finished, failed := failed, state := state, streamClosed := true }.reportReady
        cfg) := by
  subst hfinished
  refine .ready h.batchRunning (fun _ => rfl) (fun _ _ => rfl) ?_ h.reports (fun hyes => ?_)
    fun _ => rfl
  · refine h.closes.trans ?_
    split
    · exact le_refl _
    · exact Nat.zero_le _
  · have hready := h.report.symm.trans hyes
    simp only [Bool.and_eq_true] at hready ⊢
    exact ⟨⟨hready.1.1, trivial⟩, hready.2⟩

theorem reportReady_goes (s : WorkerPrefetchSession) :
    (s.reportReady cfg).goes id next [] = (s.goes id next []).reportReady cfg := by
  unfold WorkerPrefetchSession.reportReady WorkerPrefetchSession.goes
  split
  · rfl
  · rw [append_nil, append_nil]
    rfl

theorem Closing.of_ready (h : Closing cfg (s.reportReady cfg)) (hopen : s.streamClosed = false) :
    Closing cfg s := by
  have hsame : s.reportReady cfg = s := if_pos (Or.inr (Or.inl hopen))
  rw [hsame] at h
  exact h

theorem Closing.open_of_not_finished (h : Closing cfg s) (hfinished : s.finished = false) :
    s.streamClosed = false := by
  cases hclosed : s.streamClosed with
  | false => rfl
  | true => exact nomatch hfinished.symm.trans (h.closedFinished hclosed)

theorem reportReady_lookup (hid : s.calls.lookup id = some call) :
    (s.reportReady cfg).calls.lookup id = some call := by
  rcases reportReady_cases cfg s with heq | heq
  · rw [heq]
    exact hid
  · rw [heq]
    exact hid

variable {quiet : Prop}

/-- By cases on what the step does. Only `finishes` adds a closing, and it finds none. -/
theorem Closing.step (h : Closing cfg s) (hline : Line cfg s)
    (hmove : Move cfg quiet s s') : Closing cfg s' := by
  cases hmove with
  | stays => exact h
  | stopsLater => exact { h with }
  | closesRemotely =>
    unfold WorkerPrefetchSession.onClosed
    split
    · next hfinished => exact h.streamCloses hfinished
    · exact h.streamCloses rfl
  | onward hgoes =>
    cases hgoes with
    | stops hid | fails hid => exact h.goes hid rfl (Nat.zero_le _) nofun (by simp)
    | lapses hid =>
      rcases hid with hid | hid
      · exact h.goes hid rfl (Nat.zero_le _) nofun (by simp)
      · exact h.goes hid rfl (Nat.zero_le _) nofun (by simp)
    | writes hid hnext =>
      rcases hnext with ⟨-, rfl⟩ | ⟨-, -, rfl⟩ | ⟨-, -, rfl⟩
      · exact h.goes hid rfl (Nat.zero_le _) nofun (by simp)
      · exact h.goes hid rfl (Nat.zero_le _) nofun (by simp)
      · exact h.goes hid rfl (Nat.zero_le _) nofun (by simp)
    | returns hid hfinished hnext =>
      rcases hnext with rfl | rfl
      · exact h.goes hid rfl (Nat.zero_le _) nofun (by simp)
      · exact h.goes hid rfl (Nat.zero_le _) (fun _ => hfinished) (by simp)
    | closes hid =>
      exact h.goes hid rfl (le_refl 1) (fun _ => h.pastFinish hid rfl) (by simp)
  | starts hid =>
    exact Closing.goes { h with } hid rfl (Nat.zero_le _) nofun (by simp)
  | continues hid =>
    exact Closing.goes { h with } hid rfl (Nat.zero_le _) nofun (by simp)
  | schedules hid => exact h.goes hid rfl (Nat.zero_le _) nofun (by simp)
  | begins hid hfinished hunits =>
    rename_i id units
    exact
      { h with
        batchRunning := ⟨fun _ => ⟨id, _, lookup_put_self s.calls id (some _), rfl⟩, fun _ => rfl⟩
        pastFinish := pastFinish_put h.pastFinish (by simp [SessionCall.pastFinish])
        closes := closings_goes rfl rfl (by rw [hid]; exact h.closes)
        reports := (reports_goes (by simp)).trans h.reports
        report := by
          show s.reportScheduled = (cfg.statsPool && s.streamClosed && !true)
          rw [h.report, h.open_of_not_finished hfinished]
          simp }
  | fetches hid =>
    exact h.goes hid rfl (Nat.zero_le _) nofun (by simp)
  | fetchedLate hid =>
    rw [reportReady_goes]
    exact h.batchDone hline hid rfl rfl rfl rfl rfl (by simp)
  | fetched hid hfinished hnext =>
    refine .of_ready ?_ (h.open_of_not_finished hfinished)
    rcases hnext with rfl | ⟨frame, -, rfl⟩
    · exact h.batchDone hline hid rfl rfl rfl rfl rfl (by simp)
    · exact h.batchDone hline hid rfl rfl rfl rfl rfl (by simp)
  | finishes hid hfinished =>
    have hbefore := h.closes
    rw [hfinished] at hbefore
    exact
      { h with
        batchRunning := h.batchRunning.trans (running_put (by rw [hid]; rfl))
        closedFinished := fun _ => rfl
        pastFinish := fun _ _ => rfl
        closes := closings_goes rfl rfl (by rw [hid]; exact Nat.succ_le_succ hbefore)
        reports := (reports_goes (by simp)).trans h.reports }
  | @closed id _ _ hid hnext =>
    have hfinished := h.pastFinish hid rfl
    have hclosing : Closing cfg ({ s with streamClosed := true }.reportReady cfg) :=
      h.streamCloses hfinished
    have hid : ({ s with streamClosed := true }.reportReady cfg).calls.lookup id = some _ :=
      reportReady_lookup hid
    rcases hnext with rfl | rfl
    · exact hclosing.goes hid rfl (Nat.zero_le _) nofun (by simp)
    · exact hclosing.goes hid rfl (Nat.zero_le _) (fun _ => hclosing.pastFinish hid rfl) (by simp)
  | shutdownReturns hid hclosed =>
    exact Closing.goes (s := { s with shutdownReturned := true })
      { h with returned := fun _ => hclosed } hid rfl (Nat.zero_le _) nofun (by simp)

/-! ## One result for each batch

A batch is fetched once, and its result is counted from the gate to the write: in the log when
written, in the call that writes it before. -/

/-- How often the result of the batch was written, or is about to be. -/
def results (s : WorkerPrefetchSession) (batchIndex : Nat) : Nat :=
  s.log.countP (SessionEvent.writes batchIndex) +
    tally (fun _ call => call.writings batchIndex) s.calls

/-- The frame is the result of this batch, from what `get` answered for it. -/
def Own (cfg : SessionConfig) (s : WorkerPrefetchSession) (batchIndex : Nat) (frame : BatchFrame) :
    Prop :=
  ∃ units transferHits, .fetch batchIndex units transferHits ∈ s.log ∧
    cfg.batchUnits batchIndex = .ok units ∧
    (cfg.batchResult batchIndex units transferHits).2 = some frame

structure Results (cfg : SessionConfig) (s : WorkerPrefetchSession) : Prop where
  once : ∀ k, s.results k ≤ 1
  future : ∀ k, s.batchIndex < k → s.results k = 0
  driving : ∀ {id call}, s.calls.lookup id = some call → call.driving = true →
    s.results s.batchIndex = 0
  created : s.finished = false → s.state = .created → s.results s.batchIndex = 0
  writing : ∀ {id k frame closes}, s.calls.lookup id = some (.writing k frame closes) →
    Own cfg s k frame
  written : ∀ {k frame ok}, .write k frame ok ∈ s.log → Own cfg s k frame

theorem Results.init (cfg : SessionConfig) : Results cfg {} where
  once k := by simp [results, tally_empty]
  future k _ := by simp [results, tally_empty]
  driving hid := nomatch hid
  created _ _ := by simp [results, tally_empty]
  writing hid := nomatch hid
  written h := nomatch h

variable {k : Nat} {frame : BatchFrame}

theorem Own.mono (h : Own cfg s k frame) (hsub : s.log ⊆ s'.log) : Own cfg s' k frame := by
  obtain ⟨units, transferHits, hmem, hrest⟩ := h
  exact ⟨units, transferHits, hsub hmem, hrest⟩

theorem Results.goes (h : Results cfg s) {old : Option SessionCall} (hid : s.calls.lookup id = old)
    (hevents : ∀ k, events.countP (SessionEvent.writes k) =
      weigh (fun _ call => SessionCall.writings k call) id old)
    (hnext : ∀ k, weigh (fun _ call => SessionCall.writings k call) id next = 0)
    (hdriving : next.any SessionCall.driving = true → s.results s.batchIndex = 0)
    (hown : ∀ {k frame ok}, .write k frame ok ∈ events → Own cfg s k frame) :
    Results cfg (s.goes id next events) := by
  have hresults : ∀ k, (s.goes id next events).results k = s.results k := by
    intro k
    have htally := tally_put (fun _ call => SessionCall.writings k call) s.calls id next
    have hevents := hevents k
    have hnext := hnext k
    rw [hid] at htally
    unfold results WorkerPrefetchSession.goes
    rw [countP_append]
    dsimp only
    omega
  have hsub : s.log ⊆ s.log ++ events := subset_append_left _ _
  exact
    { once := fun k => hresults k ▸ h.once k
      future := fun k hk => (hresults k).trans (h.future k hk)
      driving := by
        intro id' call hid' hd
        refine (hresults _).trans ?_
        rcases lookup_put_cases hid' with ⟨-, rfl⟩ | ⟨-, hid'⟩
        · exact hdriving hd
        · exact h.driving hid' hd
      created := fun hf hc => (hresults _).trans (h.created hf hc)
      writing := by
        intro id' k frame closes hid'
        rcases lookup_put_cases hid' with ⟨-, rfl⟩ | ⟨-, hid'⟩
        · exact absurd (hnext k) (by simp [SessionCall.writings])
        · exact (h.writing hid').mono hsub
      written := by
        intro k frame ok hmem
        rcases mem_append.mp hmem with hmem | hmem
        · exact (h.written hmem).mono hsub
        · exact (hown hmem).mono hsub }

variable {batchIndex : Nat}

variable {units : List PrefetchUnit} {transferHits : List UInt8}

/-- A fetched batch becomes a result to write, the first one for its index. -/
theorem Results.makes (h : Results cfg s) (hline : Line cfg s) {close complete : Bool}
    (hid : s.calls.lookup id = some (.fetched batchIndex units transferHits))
    (hframe : (cfg.batchResult batchIndex units transferHits).2 = some frame)
    (hstate : state ≠ .created) :
    Results cfg ({ s with
      batchRunning := false, lastBatchGateComplete := complete, state := state }.goes id
        (some (.writing batchIndex frame close)) [.gated batchIndex complete]) := by
  obtain ⟨hindex, -, hunits, hmem⟩ := hline.placed hid
  have hzero := h.driving hid rfl
  generalize ht : ({ s with
    batchRunning := false, lastBatchGateComplete := complete, state := state } :
      WorkerPrefetchSession).goes id (some (.writing batchIndex frame close))
        [.gated batchIndex complete] = t
  have hcalls : t.calls = put s.calls id (some (.writing batchIndex frame close)) := by
    rw [← ht]
    rfl
  have hlog : t.log = s.log ++ [.gated batchIndex complete] := by
    rw [← ht]
    rfl
  have hresults : ∀ k, t.results k = s.results k + if batchIndex = k then 1 else 0 := by
    intro k
    have htally := tally_put (fun _ call => SessionCall.writings k call) s.calls id
      (some (.writing batchIndex frame close))
    rw [hid, weigh_some, weigh_some] at htally
    have hold : SessionCall.writings k (.fetched batchIndex units transferHits) = 0 := rfl
    have hnew : SessionCall.writings k (.writing batchIndex frame close) =
        if batchIndex = k then 1 else 0 := rfl
    have hevent : [SessionEvent.gated batchIndex complete].countP (SessionEvent.writes k) = 0 := rfl
    unfold results
    rw [hcalls, hlog, countP_append]
    omega
  have hsub : s.log ⊆ t.log := by
    rw [hlog]
    exact subset_append_left _ _
  have hbatch : t.batchIndex = s.batchIndex := by rw [← ht]; rfl
  exact
    { once := by
        intro k
        rw [hresults]
        split
        · next heq => rw [← heq, hindex, hzero]
        · exact h.once k
      future := by
        intro k hk
        rw [hresults, if_neg (by omega)]
        exact h.future k (hbatch ▸ hk)
      driving := by
        intro id' call hid' hd
        rw [hcalls] at hid'
        obtain ⟨-, heq⟩ := hline.alone hid rfl hid' hd
        cases heq
        cases hd
      created := fun _ hc => by
        rw [← ht] at hc
        exact absurd hc hstate
      writing := by
        intro id' k frame' closes hid'
        rw [hcalls] at hid'
        rcases lookup_put_cases hid' with ⟨-, hc⟩ | ⟨-, hid'⟩
        · cases hc
          exact ⟨units, transferHits, hsub hmem, hunits, hframe⟩
        · exact (h.writing hid').mono hsub
      written := by
        intro k frame' ok hmem'
        rw [hlog] at hmem'
        rcases mem_append.mp hmem' with hmem' | hmem'
        · exact (h.written hmem').mono hsub
        · exact nomatch hmem' }

theorem Results.moveOn (h : Results cfg s) :
    Results cfg { s with batchIndex := s.batchIndex + 1, state := .runningBatch } :=
  { h with
    future := fun k hk => h.future k (Nat.lt_of_succ_lt hk)
    driving := fun _ _ => h.future _ (Nat.lt_succ_self _)
    created := nofun }

theorem Results.reportReady (h : Results cfg s) : Results cfg (s.reportReady cfg) := by
  rcases reportReady_cases cfg s with heq | heq
  · rw [heq]
    exact h
  · rw [heq]
    have hresults : ∀ k, (s.log ++ [SessionEvent.report]).countP (SessionEvent.writes k) +
        tally (fun _ call => call.writings k) s.calls = s.results k := by
      intro k
      rw [countP_append]
      rfl
    have hsub : s.log ⊆ s.log ++ [.report] := subset_append_left _ _
    exact
      { once := fun k => (hresults k).trans_le (h.once k)
        future := fun k hk => (hresults k).trans (h.future k hk)
        driving := fun hid hd => (hresults _).trans (h.driving hid hd)
        created := fun hf hc => (hresults _).trans (h.created hf hc)
        writing := fun hid => (h.writing hid).mono hsub
        written := fun hmem => by
          rcases mem_append.mp hmem with hmem | hmem
          · exact (h.written hmem).mono hsub
          · exact nomatch hmem }

theorem Results.step (h : Results cfg s) (hline : Line cfg s)
    (hmove : Move cfg quiet s s') : Results cfg s' := by
  -- a thread that has no result ends, or waits
  have hleaves : ∀ {t : WorkerPrefetchSession} {id : Nat} {old : SessionCall}
      {next : Option SessionCall}, Results cfg t → t.calls.lookup id = some old →
      (∀ k, old.writings k = 0) → next = none ∨ next = some .waiting →
        Results cfg (t.goes id next []) := by
    intro t id old next ht hid hold hnext
    rcases hnext with rfl | rfl
    · exact ht.goes hid (fun k => (hold k).symm) (fun _ => rfl) nofun (by simp)
    · exact ht.goes hid (fun k => (hold k).symm) (fun _ => rfl) nofun (by simp)
  cases hmove with
  | stays => exact h
  | stopsLater => exact { h with }
  | closesRemotely =>
    unfold onClosed
    refine Results.reportReady ?_
    split
    · exact { h with created := nofun }
    · exact { h with created := nofun }
  | @onward id next _ hgoes =>
    cases hgoes with
    | stops hid | fails hid =>
      exact h.goes hid (fun _ => rfl) (fun _ => rfl) nofun (by simp)
    | lapses hid =>
      rcases hid with hid | hid
      · exact hleaves h hid (fun _ => rfl) (Or.inl rfl)
      · exact hleaves h hid (fun _ => rfl) (Or.inl rfl)
    | writes hid hnext =>
      rename_i batchIndex frame _ _
      have hnext : (∀ k, weigh (fun _ call => SessionCall.writings k call) id next = 0) ∧
          next.any SessionCall.driving = false := by
        rcases hnext with ⟨-, rfl⟩ | ⟨-, -, rfl⟩ | ⟨-, -, rfl⟩
        · exact ⟨fun _ => rfl, rfl⟩
        · exact ⟨fun _ => rfl, rfl⟩
        · exact ⟨fun _ => rfl, rfl⟩
      -- the event takes the place of the thread
      refine h.goes hid (fun k => ?_) hnext.1 (by rw [hnext.2]; exact nofun) fun hmem => ?_
      · by_cases heq : batchIndex = k
        · simp [SessionEvent.writes, SessionCall.writings, heq]
        · simp [SessionEvent.writes, SessionCall.writings, heq]
      · obtain ⟨rfl, rfl, rfl⟩ := SessionEvent.write.inj (mem_singleton.mp hmem)
        exact h.writing hid
    | returns hid hfinished hnext => exact hleaves h hid (fun _ => rfl) hnext
    | closes hid => exact h.goes hid (fun _ => rfl) (fun _ => rfl) nofun (by simp)
  | starts hid hfinished hstate =>
    exact Results.goes { h with created := nofun } hid (fun _ => rfl) (fun _ => rfl)
      (fun _ => h.created hfinished hstate) (by simp)
  | continues hid =>
    exact h.moveOn.goes hid (fun _ => rfl) (fun _ => rfl)
      (fun _ => h.future _ (Nat.lt_succ_self _)) (by simp)
  | schedules hid =>
    exact h.goes hid (fun _ => rfl) (fun _ => rfl) (fun _ => h.driving hid rfl) (by simp)
  | begins hid =>
    exact Results.goes { h with } hid (fun _ => rfl) (fun _ => rfl)
      (fun _ => h.driving hid rfl) (by simp)
  | fetches hid =>
    exact h.goes hid (fun _ => rfl) (fun _ => rfl) (fun _ => h.driving hid rfl) (by simp)
  | fetchedLate hid =>
    have hready : Results cfg ({ s with batchRunning := false }.reportReady cfg) :=
      .reportReady { h with }
    exact hleaves hready (reportReady_lookup hid) (fun _ => rfl) (Or.inl rfl)
  | fetched hid hfinished hnext =>
    have hstate : (if s.stopAfterBatch then SessionState.completed else .waitingDecision) ≠
        .created := by
      split
      · simp
      · simp
    rcases hnext with rfl | ⟨frame, hframe, rfl⟩
    · exact Results.goes { h with created := fun _ hc => absurd hc hstate }
        hid (fun _ => rfl) (fun _ => rfl) nofun (by simp)
    · exact h.makes hline hid hframe hstate
  | finishes hid =>
    exact Results.goes { h with created := nofun } hid (fun _ => rfl) (fun _ => rfl) nofun
      (by simp)
  | closed hid hnext =>
    have hready : Results cfg ({ s with streamClosed := true }.reportReady cfg) :=
      .reportReady { h with }
    exact hleaves hready (reportReady_lookup hid) (fun _ => rfl) hnext
  | shutdownReturns hid =>
    exact Results.goes { h with } hid (fun _ => rfl) (fun _ => rfl) nofun (by simp)

/-! ## What a session that did not fail has written -/

/-- The result of the batch was written. -/
def Settled (s : WorkerPrefetchSession) (batchIndex : Nat) : Prop :=
  ∃ frame, .write batchIndex frame true ∈ s.log

/-- In a run in which no control message is followed while a thread settles a result. -/
structure Written (s : WorkerPrefetchSession) : Prop where
  earlier : s.finished = false → ∀ k < s.batchIndex, Settled s k
  waiting : s.finished = false → s.state = .waitingDecision →
    Settled s s.batchIndex ∨ ∃ id call, s.calls.lookup id = some call ∧ call.settling = true
  writing : s.finished = false → ∀ {id k frame close},
    s.calls.lookup id = some (.writing k frame close) →
      k = s.batchIndex ∧ (close = true → s.state = .completed)
  stopping : s.finished = false → ∀ {id streamId finisher},
    s.calls.lookup id = some (.finishing streamId false finisher) →
      (s.state = .waitingDecision ∨ s.state = .completed) ∧ Settled s s.batchIndex
  ended : s.finished = true → s.failed = false → (∀ k ∈ s.fetches, Settled s k) ∧
    ∀ id k units, s.calls.lookup id ≠ some (.fetching k units)

/-- No thread settles a result while the session waits for a decision. -/
def Quiet (s : WorkerPrefetchSession) : Prop :=
  s.state = .waitingDecision → anyEntry (fun _ call => call.settling) s.calls = false

instance (s : WorkerPrefetchSession) : Decidable s.Quiet :=
  inferInstanceAs (Decidable (_ → _))

theorem Quiet.not_settling (h : s.Quiet) (hstate : s.state = .waitingDecision)
    (hid : s.calls.lookup id = some call) : call.settling = false := by
  cases hs : call.settling with
  | false => rfl
  | true => exact nomatch (anyEntry_iff.mpr ⟨id, call, hid, hs⟩).symm.trans (h hstate)

theorem Written.init : Written {} where
  earlier _ k hk := nomatch hk
  waiting _ h := nomatch h
  writing _ {_ _ _ _} hid := nomatch hid
  stopping _ {_ _ _} hid := nomatch hid
  ended h := nomatch h

theorem Settled.mono (h : Settled s k) (hsub : s.log ⊆ s'.log) : Settled s' k := by
  obtain ⟨frame, hmem⟩ := h
  exact ⟨frame, hsub hmem⟩

theorem fetches_goes (hevents : ∀ k units hits, .fetch k units hits ∉ events) :
    (s.goes id next events).fetches = s.fetches := fetches_append rfl hevents

theorem Written.goes (h : Written s) {old : Option SessionCall} (hid : s.calls.lookup id = old)
    (hold : s.finished = false → old.any SessionCall.settling = false)
    (hnext : next.any SessionCall.settling = false)
    (hends : s.finished = true → (∀ k units, next ≠ some (.fetching k units)) ∧
      (s.failed = false → ∀ k units hits, .fetch k units hits ∉ events)) :
    Written (s.goes id next events) := by
  have hsub : s.log ⊆ s.log ++ events := subset_append_left _ _
  exact
    { earlier := fun hf k hk => (h.earlier hf k hk).mono hsub
      waiting := by
        intro hf hw
        rcases h.waiting hf hw with hsettled | ⟨id', call, hid', hs⟩
        · exact Or.inl (hsettled.mono hsub)
        · exact Or.inr ⟨id', call, lookup_put_of (by rw [hid]; exact hold hf) hid' hs, hs⟩
      writing := fun hf _ _ _ _ hid' => h.writing hf (lookup_of_put hnext hid' rfl)
      stopping := fun hf _ _ _ hid' =>
        let ⟨hs, hsettled⟩ := h.stopping hf (lookup_of_put hnext hid' rfl)
        ⟨hs, hsettled.mono hsub⟩
      ended := by
        intro hf hfail
        obtain ⟨hall, hnone⟩ := h.ended hf hfail
        obtain ⟨hidle, hevents⟩ := hends hf
        refine ⟨fun k hk => (hall k (fetches_goes (hevents hfail) ▸ hk)).mono hsub,
          fun id' k units hid' => ?_⟩
        rcases lookup_put_cases hid' with ⟨-, hc⟩ | ⟨-, hid'⟩
        · exact hidle k units hc
        · exact hnone id' k units hid' }

theorem Written.ends (h : Written s) (finished failed : Bool) (state : SessionState)
    (hfinished : finished = true) (hended : failed = false → s.finished = true ∧ s.failed = false) :
    Written { s with finished := finished, failed := failed, state := state } where
  earlier hf := nomatch hf.symm.trans hfinished
  waiting hf := nomatch hf.symm.trans hfinished
  writing hf := nomatch hf.symm.trans hfinished
  stopping hf := nomatch hf.symm.trans hfinished
  ended _ hfail := h.ended (hended hfail).1 (hended hfail).2

theorem Written.reportReady (h : Written s) : Written (s.reportReady cfg) := by
  rcases reportReady_cases cfg s with heq | heq
  · rw [heq]
    exact h
  · have hsub : s.log ⊆ s.log ++ [.report] := subset_append_left _ _
    have hfetches : ({ s with reportScheduled := true, log := s.log ++ [.report] } :
        WorkerPrefetchSession).fetches = s.fetches := fetches_append rfl (by simp)
    rw [heq]
    exact
      { earlier := fun hf k hk => (h.earlier hf k hk).mono hsub
        waiting := fun hf hw => (h.waiting hf hw).imp_left (·.mono hsub)
        writing := h.writing
        stopping := fun hf _ _ _ hid => (h.stopping hf hid).imp_right (·.mono hsub)
        ended := fun hf hfail =>
          let ⟨hall, hnone⟩ := h.ended hf hfail
          ⟨fun k hk => (hall k (hfetches ▸ hk)).mono hsub, hnone⟩ }

theorem Written.fetched (h : Written s) (hline : Line cfg s) {new : SessionCall}
    (hid : s.calls.lookup id = some (.fetched batchIndex units transferHits))
    (hfinished : s.finished = false) (hnew : new = .finishing s.streamId true .batch ∨
      ∃ frame, new = .writing batchIndex frame s.stopAfterBatch) :
    Written ({ s with
      batchRunning := false
      lastBatchGateComplete := gate
      state := if s.stopAfterBatch then .completed else .waitingDecision }.goes id (some new)
        events) := by
  have hsub : s.log ⊆ s.log ++ events := subset_append_left _ _
  -- a thread fetches, so the session is running the batch
  have hrunning : s.state = .runningBatch := by
    rcases hline.running hid rfl with htrue | hrunning
    · exact nomatch hfinished.symm.trans htrue
    · exact hrunning
  exact
    { earlier := fun _ k hk => (h.earlier hfinished k hk).mono hsub
      waiting := by
        intro _ _
        refine Or.inr ⟨id, new, lookup_put_self _ _ _, ?_⟩
        rcases hnew with rfl | ⟨frame, rfl⟩
        · rfl
        · rfl
      writing := by
        intro _ id' k frame close hid'
        rcases lookup_put_cases hid' with ⟨-, hc⟩ | ⟨-, hid'⟩
        · rcases hnew with rfl | ⟨frame', rfl⟩
          · cases hc
          · obtain ⟨rfl, -, rfl⟩ := SessionCall.writing.inj (Option.some.inj hc)
            exact ⟨(hline.placed hid).1, fun hclose => if_pos hclose⟩
        · obtain ⟨hk, hclose⟩ := h.writing hfinished hid'
          exact ⟨hk, fun hc => nomatch hrunning.symm.trans (hclose hc)⟩
      stopping := by
        intro _ id' streamId finisher hid'
        rcases lookup_put_cases hid' with ⟨-, hc⟩ | ⟨-, hid'⟩
        · rcases hnew with rfl | ⟨frame, rfl⟩
          · cases hc
          · cases hc
        · obtain ⟨hs, -⟩ := h.stopping hfinished hid'
          rw [hrunning] at hs
          exact nomatch hs
      ended := fun hf => nomatch hfinished.symm.trans hf }

theorem Written.writes (h : Written s) {closeAfterResult ok : Bool}
    (hid : s.calls.lookup id = some (.writing batchIndex frame closeAfterResult))
    (hnext : ok = false ∧ next = some (.finishing s.streamId true .batch) ∨
      ok = true ∧ closeAfterResult = true ∧ next = some (.finishing s.streamId false .batch) ∨
      ok = true ∧ closeAfterResult = false ∧ next = none) :
    Written (s.goes id next [.write batchIndex frame ok]) := by
  have hsub : s.log ⊆ s.log ++ [.write batchIndex frame ok] := subset_append_left _ _
  have hsettled : ok = true → Settled (s.goes id next [.write batchIndex frame ok]) batchIndex :=
    fun hok => ⟨frame, hok ▸ mem_append_right _ mem_cons_self⟩
  exact
    { earlier := fun hf k hk => (h.earlier hf k hk).mono hsub
      waiting := by
        intro hf hw
        obtain ⟨hk, -⟩ := h.writing hf hid
        rcases hnext with ⟨-, rfl⟩ | ⟨hok, -⟩ | ⟨hok, -⟩
        · exact Or.inr ⟨id, _, lookup_put_self _ _ _, rfl⟩
        · exact Or.inl (hk ▸ hsettled hok)
        · exact Or.inl (hk ▸ hsettled hok)
      writing := by
        intro hf id' k frame' close hid'
        rcases lookup_put_cases hid' with ⟨-, hc⟩ | ⟨-, hid'⟩
        · rcases hnext with ⟨-, rfl⟩ | ⟨-, -, rfl⟩ | ⟨-, -, rfl⟩
          · cases hc
          · cases hc
          · cases hc
        · exact h.writing hf hid'
      stopping := by
        intro hf id' streamId finisher hid'
        rcases lookup_put_cases hid' with ⟨-, hc⟩ | ⟨-, hid'⟩
        · obtain ⟨hk, hclose⟩ := h.writing hf hid
          rcases hnext with ⟨-, rfl⟩ | ⟨hok, hcloses, -⟩ | ⟨-, -, rfl⟩
          · cases hc
          · exact ⟨Or.inr (hclose hcloses), hk ▸ hsettled hok⟩
          · cases hc
        · exact (h.stopping hf hid').imp_right (·.mono hsub)
      ended := by
        intro hf hfail
        obtain ⟨hall, hnone⟩ := h.ended hf hfail
        have hfetches : (s.goes id next [.write batchIndex frame ok]).fetches = s.fetches :=
          fetches_goes (by simp)
        refine ⟨fun k hk => (hall k (hfetches ▸ hk)).mono hsub, fun id' k units hid' => ?_⟩
        rcases lookup_put_cases hid' with ⟨-, hc⟩ | ⟨-, hid'⟩
        · rcases hnext with ⟨-, rfl⟩ | ⟨-, -, rfl⟩ | ⟨-, -, rfl⟩
          · cases hc
          · cases hc
          · cases hc
        · exact hnone id' k units hid' }

theorem Written.finishes (h : Written s) (hline : Line cfg s) {streamId : Option Nat}
    {finisher : Finisher} (hid : s.calls.lookup id = some (.finishing streamId failed finisher))
    (hfinished : s.finished = false) :
    Written ({ s with finished := true, failed := failed, state := state }.goes id
      (some (.closing streamId finisher)) []) where
  earlier hf := nomatch hf
  waiting hf := nomatch hf
  writing hf := nomatch hf
  stopping hf := nomatch hf
  ended _ hfail := by
    have hfail : failed = false := hfail
    rw [hfail] at hid
    obtain ⟨hstate, hsettled⟩ := h.stopping hfinished hid
    have hsub : s.log ⊆ s.log ++ [] := subset_append_left _ _
    refine ⟨fun k hk => ?_, fun id' k units hid' => ?_⟩
    · rw [fetches_goes (by simp)] at hk
      have hle := hline.within k hk
      by_cases heq : k = s.batchIndex
      · rw [heq]
        exact hsettled.mono hsub
      · exact (h.earlier hfinished k (by omega)).mono hsub
    · -- a thread that fetches would be running the batch
      rcases lookup_put_cases hid' with ⟨-, hc⟩ | ⟨-, hid'⟩
      · cases hc
      · have hnot := hline.not_driving hfinished
          (by rcases hstate with hstate | hstate <;> rw [hstate] <;> simp) hid'
        exact nomatch hnot

theorem Written.current (h : Written s) (hquiet : s.Quiet) (hfinished : s.finished = false)
    (hstate : s.state = .waitingDecision) : Settled s s.batchIndex := by
  rcases h.waiting hfinished hstate with hsettled | ⟨id', call, hid', hs⟩
  · exact hsettled
  · exact nomatch hs.symm.trans (hquiet.not_settling hstate hid')

theorem Written.moveOn (h : Written s) (hquiet : s.Quiet) (hfinished : s.finished = false)
    (hstate : s.state = .waitingDecision) :
    Written { s with batchIndex := s.batchIndex + 1, state := .runningBatch } where
  earlier _ k hk := by
    by_cases heq : k = s.batchIndex
    · exact heq ▸ h.current hquiet hfinished hstate
    · exact h.earlier hfinished k (by dsimp only at hk; omega)
  waiting _ := nofun
  writing _ _ _ _ _ hid' :=
    nomatch hquiet.not_settling hstate hid'
  stopping _ _ _ _ hid' :=
    nomatch hquiet.not_settling hstate hid'
  ended hf := nomatch hfinished.symm.trans hf

theorem Written.step (h : Written s) (hline : Line cfg s)
    (hmove : Move cfg s.Quiet s s') : Written s' := by
  have hleaves : ∀ {t : WorkerPrefetchSession} {id : Nat} {old : SessionCall}
      {next : Option SessionCall}, Written t → t.calls.lookup id = some old →
      (t.finished = false → old.settling = false) → next = none ∨ next = some .waiting →
        Written (t.goes id next []) := by
    intro t id old next ht hid hold hnext
    rcases hnext with rfl | rfl
    · exact ht.goes hid hold rfl fun _ => ⟨by simp, by simp⟩
    · exact ht.goes hid hold rfl fun _ => ⟨by simp, by simp⟩
  cases hmove with
  | stays => exact h
  | stopsLater => exact { h with }
  | closesRemotely =>
    unfold onClosed
    refine Written.reportReady ?_
    split
    · next hfinished =>
      exact { h.ends _ s.failed .closed hfinished fun hfail => ⟨hfinished, hfail⟩ with }
    · exact { h.ends _ true .closed rfl nofun with }
  | @onward id next _ hgoes =>
    cases hgoes with
    | stops hid hquiet hfinished hstate =>
      rw [← goOn_eq]
      exact
        { h with
          waiting := fun _ _ => Or.inl (h.current hquiet hfinished hstate)
          writing := by
            intro hf id' k frame close hid'
            have hid' : (put s.calls id (some (.finishing _ false .stream))).lookup id' =
                some (.writing k frame close) := hid'
            rcases lookup_put_cases hid' with ⟨-, hc⟩ | ⟨-, hid'⟩
            · cases hc
            · exact h.writing hf hid'
          stopping := fun _ _ _ _ _ => ⟨Or.inl hstate, h.current hquiet hfinished hstate⟩
          ended := fun hf => nomatch hfinished.symm.trans hf }
    | fails hid hfinisher =>
      refine h.goes hid (fun _ => rfl) ?_ fun _ => ⟨by simp, by simp⟩
      simpa [SessionCall.settling] using hfinisher
    | lapses hid =>
      rcases hid with hid | hid
      · exact hleaves h hid (fun _ => rfl) (Or.inl rfl)
      · exact hleaves h hid (fun _ => rfl) (Or.inl rfl)
    | writes hid hnext => exact h.writes hid hnext
    | returns hid hfinished hnext =>
      exact hleaves h hid (fun hf => nomatch hf.symm.trans hfinished) hnext
    | closes hid =>
      exact h.goes hid (fun _ => rfl) rfl fun _ => ⟨by simp, by simp⟩
  | starts hid hfinished hstate =>
    -- nothing was to close the session after a result
    refine Written.goes (s := { s with streamId := some _, state := .runningBatch }) ?_
      hid (fun _ => rfl) rfl fun _ => ⟨by simp, by simp⟩
    exact
      { h with
        waiting := fun _ => nofun
        writing := fun hf _ _ _ _ hid' =>
          (h.writing hf hid').imp_right fun hclose hc =>
            absurd (hstate.symm.trans (hclose hc)) (by simp)
        stopping := by
          intro hf id' streamId finisher hid'
          obtain ⟨hs, -⟩ := h.stopping hf hid'
          rw [hstate] at hs
          exact nomatch hs }
  | continues hid hquiet hfinished hstate =>
    exact (h.moveOn hquiet hfinished hstate).goes hid (fun _ => rfl) rfl
      fun _ => ⟨by simp, by simp⟩
  | schedules hid => exact h.goes hid (fun _ => rfl) rfl fun _ => ⟨by simp, by simp⟩
  | begins hid hfinished =>
    exact Written.goes { h with } hid (fun _ => rfl) rfl
      fun hf => nomatch hfinished.symm.trans hf
  | fetches hid =>
    exact h.goes hid (fun _ => rfl) rfl fun hf =>
      ⟨by simp, fun hfail => absurd hid ((h.ended hf hfail).2 _ _ _)⟩
  | fetchedLate hid hfinished =>
    have hready : Written ({ s with batchRunning := false }.reportReady cfg) :=
      .reportReady { h with }
    exact hleaves hready (reportReady_lookup hid) (fun _ => rfl) (Or.inl rfl)
  | fetched hid hfinished hnext =>
    exact h.fetched hline hid hfinished (hnext.imp_right fun ⟨frame, _, heq⟩ => ⟨frame, heq⟩)
  | finishes hid hfinished => exact h.finishes hline hid hfinished
  | closed hid hnext =>
    have hready : Written ({ s with streamClosed := true }.reportReady cfg) :=
      .reportReady { h with }
    exact hleaves hready (reportReady_lookup hid) (fun _ => rfl) hnext
  | shutdownReturns hid =>
    exact hleaves (t := { s with shutdownReturned := true }) { h with } hid (fun _ => rfl)
      (Or.inl rfl)

/-! ## Whole runs -/

theorem padded_spec (cfg : SessionConfig) (hits : List Bool) {j : Nat} (hj : hits.length ≤ j) :
    (cfg.padded hits).getD j 0 = 0 := by
  unfold SessionConfig.padded
  rw [List.getD_eq_getElem?_getD, List.getElem?_append_right (by rw [length_map]; exact hj),
    List.getElem?_replicate]
  split
  · rfl
  · rfl

theorem unitHits_length (hasNonGated : Nat → Bool) :
    ∀ (units : List PrefetchUnit) (index : Nat) (hits : List UInt8),
      (unitHits hasNonGated index units hits).length = units.length := by
  intro units
  induction units with
  | nil => exact fun _ _ => rfl
  | cons unit units ih =>
    intro index hits
    exact congrArg (· + 1) (ih _ _)

/-- What holds in every state of every run. -/
structure SessionSafe (cfg : SessionConfig) (s : WorkerPrefetchSession) : Prop where
  inOrder : ∃ n, s.fetches = List.range n
  allowed : ∀ k, k + 1 ∈ s.fetches → ∃ units transferHits,
    List.Sublist [.gated k true, .continued (k + 1), .fetch (k + 1) units transferHits] s.log
  writtenOnce : ∀ k, s.log.countP (SessionEvent.writes k) ≤ 1
  ownUnits : ∀ k frame ok, .write k frame ok ∈ s.log → ∃ units transferHits,
    .fetch k units transferHits ∈ s.log ∧ cfg.batchUnits k = .ok units ∧
    (cfg.batchResult k units transferHits).2 = some frame ∧
    ∀ j, units.length ≤ j → frame.gatedHits.getD j 0 = 0 ∧ frame.nonGatedHits.getD j 0 = 0
  closedOnce : s.closes ≤ 1
  reportedOnce : s.reports ≤ 1
  reportedLast : .report ∈ s.log → s.streamClosed = true ∧
    ∀ id call, s.calls.lookup id = some call → call.running = false
  returned : s.shutdownReturned = true → s.streamClosed = true ∧
    (cfg.statsPool = true → .report ∉ s.log →
      ∃ id call, s.calls.lookup id = some call ∧ call.running = true)

theorem Own.padded
    (h : Own cfg s k frame) : ∃ units transferHits, .fetch k units transferHits ∈ s.log ∧
      cfg.batchUnits k = .ok units ∧ (cfg.batchResult k units transferHits).2 = some frame ∧
      ∀ j, units.length ≤ j → frame.gatedHits.getD j 0 = 0 ∧ frame.nonGatedHits.getD j 0 = 0 := by
  obtain ⟨units, transferHits, hmem, hunits, hframe⟩ := h
  refine ⟨units, transferHits, hmem, hunits, hframe, fun j hj => ?_⟩
  unfold SessionConfig.batchResult at hframe
  split at hframe
  · cases hframe
    have hlength := unitHits_length cfg.hasNonGated units (k * cfg.batchSize) transferHits
    exact ⟨padded_spec cfg _ (by rw [length_map, hlength]; exact hj),
      padded_spec cfg _ (by rw [length_map, hlength]; exact hj)⟩
  · exact nomatch hframe

theorem sessionSafe (hline : Line cfg s) (hclosing : Closing cfg s)
    (hresults : Results cfg s) : SessionSafe cfg s where
  inOrder := hline.inOrder
  allowed := hline.allowed
  writtenOnce k := (Nat.le_add_right _ _).trans (hresults.once k)
  ownUnits _ _ _ hmem := (hresults.written hmem).padded
  closedOnce := by
    have hcloses := (Nat.le_add_right _ _).trans hclosing.closes
    split at hcloses
    · omega
    · omega
  reportedOnce := by
    rw [hclosing.reports]
    split
    · exact le_refl _
    · exact Nat.zero_le _
  reportedLast hmem := by
    have hpos : 0 < s.reports := count_pos_iff.mpr hmem
    have hscheduled : s.reportScheduled = true := by
      cases hs : s.reportScheduled with
      | true => rfl
      | false =>
        rw [hclosing.reports, hs] at hpos
        exact nomatch hpos
    have hreport := hclosing.report.symm.trans hscheduled
    simp only [Bool.and_eq_true, Bool.not_eq_true'] at hreport
    refine ⟨hreport.1.2, fun id call hid => ?_⟩
    cases hr : call.running with
    | false => rfl
    | true =>
      have hrunning := hclosing.batchRunning.mpr ⟨id, call, hid, hr⟩
      exact nomatch hreport.2.symm.trans hrunning
  returned hreturned := by
    have hclosed := hclosing.returned hreturned
    refine ⟨hclosed, fun hpool hnot => hclosing.batchRunning.mp ?_⟩
    cases hr : s.batchRunning with
    | true => rfl
    | false =>
      have hscheduled := hclosing.report
      rw [hpool, hclosed, hr] at hscheduled
      have hcount := hclosing.reports
      rw [hscheduled] at hcount
      have hone : s.log.count SessionEvent.report = 1 := hcount
      exact absurd (count_pos_iff.mp (by omega)) hnot

/-- In every state of every run the session is safe; and where no control message is followed while a
result is not written, a session that ended without a failure has written the result of every batch it
fetched. -/
theorem worker_prefetch_session {labels : List Label} {s : WorkerPrefetchSession}
    (run : Reaches (step cfg) {} labels s) :
    SessionSafe cfg s ∧
    (ReachesWith (step cfg) (fun t label => label.isMessage = true → t.Quiet) {} labels s →
      s.finished = true → s.failed = false → ∀ k ∈ s.fetches, Settled s k) := by
  have hall : Line cfg s ∧ Closing cfg s ∧ Results cfg s := by
    refine run.invariant (I := fun t => Line cfg t ∧ Closing cfg t ∧ Results cfg t)
      (fun t label t' h _ hstep => ?_) ⟨.init cfg, .init cfg, .init cfg⟩
    obtain ⟨hline, hclosing, hresults⟩ := h
    have hmove : Move cfg True t t' := .of_step (fun _ => trivial) hstep
    exact ⟨hline.step hmove, hclosing.step hline hmove, hresults.step hline hmove⟩
  obtain ⟨hline, hclosing, hresults⟩ := hall
  refine ⟨sessionSafe hline hclosing hresults, fun quietRun hfinished hfailed => ?_⟩
  have hwritten : Line cfg s ∧ Written s := by
    refine quietRun.invariant (I := fun t => Line cfg t ∧ Written t)
      (fun t label t' h hquiet hstep => ?_) ⟨.init cfg, .init⟩
    have hmove : Move cfg t.Quiet t t' := .of_step hquiet hstep
    exact ⟨h.1.step hmove, h.2.step h.1 hmove⟩
  exact (hwritten.2.ended hfinished hfailed).1

/-- Two units with one block each, a batch for each. -/
def twoBatches : SessionConfig where
  request := ⟨[{ gatedBlocks := [.g2h] }, { gatedBlocks := [.g2h] }]⟩
  batchSize := 1
  request_valid := by decide
  batchSize_pos := by decide

/-- The first batch is fetched, written, and followed by a CONTINUE; a STOP comes while the second is
fetched. -/
def stoppedInTime : List Label :=
  [.start 0 7, .resume 0 .nothing, .resume 0 .nothing, .resume 0 (.hits [1]), .resume 0 .nothing,
    .resume 0 (.status 0), .onReceivedMessages 0 7 [[0]], .resume 0 .nothing, .resume 0 .nothing,
    .onReceivedMessages 1 7 [[1]], .resume 0 (.hits [1]), .resume 0 .nothing, .resume 0 (.status 0),
    .resume 0 .nothing, .resume 0 .nothing, .resume 0 .nothing]

/-- Both results are written, and the report is scheduled. -/
theorem stoppedInTime_safe : ∃ s, Reaches (step twoBatches) {} stoppedInTime s ∧
    SessionSafe twoBatches s ∧ s.fetches = [0, 1] ∧ s.reports = 1 ∧ ∀ k ∈ s.fetches, Settled s k := by
  have hrun : ∃ s, ReachesWith (step twoBatches) (fun t label => label.isMessage = true → t.Quiet) {}
      stoppedInTime s ∧ decide (s.finished = true ∧ s.failed = false ∧ s.fetches = [0, 1] ∧
        s.reports = 1) = true :=
    ReachesWith.of_check (fun s : WorkerPrefetchSession => decide (s.finished = true ∧
      s.failed = false ∧ s.fetches = [0, 1] ∧ s.reports = 1)) _ _ (by decide +kernel)
  obtain ⟨s, quietRun, hend⟩ := hrun
  obtain ⟨hfinished, hfailed, hfetches, hreports⟩ := of_decide_eq_true hend
  have run : Reaches (step twoBatches) {} stoppedInTime s := quietRun.mono fun _ _ _ => trivial
  obtain ⟨hsafe, hsettled⟩ := worker_prefetch_session run
  exact ⟨s, run, hsafe, hfetches, hreports, hsettled quietRun hfinished hfailed⟩

/-- `shutdown` returns while a batch is fetched. -/
def shutDownEarly : List Label :=
  [.start 0 7, .resume 0 .nothing, .resume 0 .nothing, .shutdown 1, .resume 1 .nothing,
    .resume 1 .nothing, .resume 1 .nothing, .resume 1 .nothing]

/-- `get` returns. -/
def thenFetched : List Label := [.resume 0 (.hits [1]), .resume 0 .nothing]

/-- The report is scheduled after `shutdown` has returned, by the batch that was running. -/
theorem report_after_shutdown : ∃ s s', Reaches (step twoBatches) {} shutDownEarly s ∧
    s.shutdownReturned = true ∧ .report ∉ s.log ∧ Reaches (step twoBatches) s thenFetched s' ∧
    .report ∈ s'.log := by
  have hrun : ∃ s, Reaches (step twoBatches) {} shutDownEarly s ∧
      (decide (s.shutdownReturned = true ∧ SessionEvent.report ∉ s.log) &&
        (thenFetched.foldlM (fun s i => if True then (step twoBatches s i).toOption else none) s).any
          fun s' => decide (SessionEvent.report ∈ s'.log)) = true :=
    ReachesWith.of_check (fun s : WorkerPrefetchSession =>
      decide (s.shutdownReturned = true ∧ SessionEvent.report ∉ s.log) &&
        (thenFetched.foldlM (fun s i => if True then (step twoBatches s i).toOption else none) s).any
          fun s' => decide (SessionEvent.report ∈ s'.log)) _ _ (by decide +kernel)
  obtain ⟨s, run, hend⟩ := hrun
  rw [Bool.and_eq_true] at hend
  obtain ⟨hreturned, hnot⟩ := of_decide_eq_true hend.1
  have hlater : ∃ s', Reaches (step twoBatches) s thenFetched s' ∧
      decide (SessionEvent.report ∈ s'.log) = true := ReachesWith.of_check _ _ _ hend.2
  obtain ⟨s', later, hmem⟩ := hlater
  exact ⟨s, s', run, hreturned, hnot, later, of_decide_eq_true hmem⟩

end WorkerPrefetchSession

end Xllm.Framework
