import Xllm.Scheduler.LinkEpochs

/-!
# Requests that pass the check

What the epochs, the counts and the set of unlinked instances say of the run so far. An instance
leaves the set only by a link that began when every published unlink of it had finished
(`Relinked`), and a stamp is current as long as no unlink has been published since.
-/

namespace Xllm.Scheduler.LinkEpochs

open Xllm.Lib Xllm.Request List Function

variable {Id : Type} [DecidableEq Id]

/-! ## What a run says -/

def published (instanceName : String) (trace : List (Event Id)) : Nat :=
  trace.count (.publishUnlink instanceName)

def finishesUnlink (instanceName : String) : Event Id → Bool
  | .finishUnlink finished _ => finished = instanceName
  | _ => false

def finished (instanceName : String) (trace : List (Event Id)) : Nat :=
  trace.countP (finishesUnlink instanceName)

def finishesLink (instanceName : String) : Event Id → Bool
  | .finishLink finished _ => finished = instanceName
  | _ => false

/-- The last stamp of a request. -/
def LastStamp (trace : List (Event Id)) (request : Id) (before after : List (Event Id)) : Prop :=
  trace = before ++ .stamp request :: after ∧ .stamp request ∉ after

/-- A link that started after `before` and has completed with success before `after`. -/
def CompletedLink (trace : List (Event Id)) (instanceName : String)
    (before during after : List (Event Id)) : Prop :=
  trace = before ++ .lockForLink instanceName ::
      (during ++ .finishLink instanceName true :: after) ∧
    ∀ event ∈ during, finishesLink instanceName event = false

/-- Some link that started after the last published unlink has completed. -/
def LinkedSince (trace : List (Event Id)) (instanceName : String) : Prop :=
  ∃ before during after, CompletedLink trace instanceName before during after ∧
    .publishUnlink instanceName ∉ during ∧ .publishUnlink instanceName ∉ after

/-- Some such link had started when every published unlink had finished. -/
def Relinked (trace : List (Event Id)) (instanceName : String) : Prop :=
  ∃ before during after, CompletedLink trace instanceName before during after ∧
    finished instanceName before = published instanceName before ∧
    .publishUnlink instanceName ∉ during ∧ .publishUnlink instanceName ∉ after

section

variable {trace : List (Event Id)} {event : Event Id} {instanceName : String}

theorem published_snoc : published instanceName (trace ++ [event]) =
    published instanceName trace + if event = .publishUnlink instanceName then 1 else 0 := by
  unfold published
  rw [count_append, count_singleton]
  congr 1
  exact if_congr beq_iff_eq rfl rfl

omit [DecidableEq Id] in
theorem finished_snoc : finished instanceName (trace ++ [event]) =
    finished instanceName trace + if finishesUnlink instanceName event then 1 else 0 := by
  unfold finished
  rw [countP_append, countP_singleton]

theorem published_eq_zero : published instanceName trace = 0 ↔
    .publishUnlink instanceName ∉ trace := count_eq_zero

/-- A link during which an instance stays settled. -/
def Linking (trace : List (Event Id)) (instanceName : String) : Prop :=
  ∃ before during, trace = before ++ .lockForLink instanceName :: during ∧
    (∀ event ∈ during, finishesLink instanceName event = false) ∧
    finished instanceName before = published instanceName before ∧
    .publishUnlink instanceName ∉ during

/-- The last event completes the link, or the link was complete before it. -/
theorem relinked_snoc_iff : Relinked (trace ++ [event]) instanceName ↔
    event = .finishLink instanceName true ∧ Linking trace instanceName ∨
      event ≠ .publishUnlink instanceName ∧ Relinked trace instanceName := by
  constructor
  · rintro ⟨before, during, after, ⟨htrace, hduring⟩, hsettled, hmid, hafter⟩
    obtain rfl | ⟨rest, last, rfl⟩ := after.eq_nil_or_concat'
    · rw [← cons_append, ← List.append_assoc] at htrace
      obtain ⟨hbegin, hlast⟩ := append_inj' htrace rfl
      exact Or.inl ⟨singleton_inj.mp hlast, before, during, hbegin, hduring, hsettled, hmid⟩
    · have hsplit : before ++ Event.lockForLink instanceName ::
          (during ++ Event.finishLink instanceName true :: (rest ++ [last])) =
          (before ++ Event.lockForLink instanceName ::
            (during ++ Event.finishLink instanceName true :: rest)) ++ [last] := by
        simp only [List.append_assoc, cons_append]
      rw [hsplit] at htrace
      obtain ⟨hbegin, hlast⟩ := append_inj' htrace rfl
      rw [singleton_inj.mp hlast]
      refine Or.inr ⟨fun heq => hafter ?_, before, during, rest, ⟨hbegin, hduring⟩, hsettled, hmid,
        fun h => hafter (mem_append_left _ h)⟩
      rw [heq]
      exact mem_append_right _ mem_cons_self
  · rintro (⟨rfl, before, during, htrace, hduring, hsettled, hmid⟩ |
      ⟨hpublish, before, during, after, ⟨htrace, hduring⟩, hsettled, hmid, hafter⟩)
    · refine ⟨before, during, [], ⟨?_, hduring⟩, hsettled, hmid, not_mem_nil⟩
      rw [htrace, List.append_assoc, cons_append]
    · refine ⟨before, during, after ++ [event], ⟨?_, hduring⟩, hsettled, hmid, fun hmem => ?_⟩
      · rw [htrace]
        simp only [List.append_assoc, cons_append]
      · rcases mem_append.mp hmem with hmem | hmem
        · exact hafter hmem
        · exact hpublish (mem_singleton.mp hmem).symm

theorem relinked_snoc (hpublish : event ≠ .publishUnlink instanceName)
    (hfinish : event ≠ .finishLink instanceName true) :
    Relinked (trace ++ [event]) instanceName ↔ Relinked trace instanceName := by
  rw [relinked_snoc_iff, or_iff_right fun h => hfinish h.1, and_iff_right hpublish]

theorem not_relinked_publish :
    ¬ Relinked (trace ++ [.publishUnlink instanceName]) instanceName := by
  rw [relinked_snoc_iff]
  rintro (⟨heq, _⟩ | ⟨hne, _⟩)
  · cases heq
  · exact hne rfl

end

/-! ## The invariant

Each field of the state is a function of the run so far: a count of events, or whether the last
event of a kind came after another. -/

/-- What the state says of the run. -/
structure Inv (decodeAddress : Id → String) (trace : List (Event Id)) (s : State Id) : Prop where
  epochs : ∀ name, s.epoch name = UInt64.ofNat (published name trace)
  pending : ∀ name, s.pendingUnlinks name + finished name trace = published name trace
  waiting : ∀ name, s.pendingUnlinks name = s.waitingUnlinks name +
    if s.linkedInstancesMutex = some (.unlinking name) then 1 else 0
  unlinked : ∀ name, name ∉ s.unlinkedInstances ↔
    .publishUnlink name ∉ trace ∨ Relinked trace name
  linking : ∀ name observed, s.linkedInstancesMutex = some (.linking name observed) →
    ∃ before during, trace = before ++ .lockForLink name :: during ∧
      (∀ event ∈ during, finishesLink name event = false) ∧ finished name during = 0 ∧
      finished name before ≤ published name before ∧
      (.publishUnlink name ∉ during → ∀ epoch, observed = some epoch →
        epoch = UInt64.ofNat (published name before))
  address : ∀ request, (s.requests request).decodeAddress = decodeAddress request
  stamped : ∀ request before after, LastStamp trace request before after →
    (s.requests request).decodeLinkEpoch =
      UInt64.ofNat (published (decodeAddress request) before)

theorem inv_start (decodeAddress : Id → String) :
    Inv decodeAddress [] (State.start decodeAddress) where
  epochs := fun _ => rfl
  pending := fun _ => rfl
  waiting := fun _ => rfl
  unlinked := fun name => ⟨fun _ => Or.inl not_mem_nil, fun _ => Finset.notMem_empty name⟩
  linking := by exact nofun
  address := fun _ => rfl
  stamped := by
    intro request before after h
    exact absurd h.1 (by simp)

/-! ## The steps

One lemma for each event. A clause about an instance the event does not name follows by the lemmas
about one more event. -/

omit [DecidableEq Id] in
theorem lastStamp_snoc {trace before after : List (Event Id)} {event : Event Id} {request : Id} :
    LastStamp (trace ++ [event]) request before after ↔
      (event = .stamp request ∧ before = trace ∧ after = []) ∨
      (event ≠ .stamp request ∧ ∃ rest, after = rest ++ [event] ∧
        LastStamp trace request before rest) := by
  constructor
  · rintro ⟨htrace, hlast⟩
    obtain rfl | ⟨rest, last, rfl⟩ := after.eq_nil_or_concat'
    · obtain ⟨htrace, hevent⟩ := append_inj' htrace rfl
      exact Or.inl ⟨singleton_inj.mp hevent, htrace.symm, rfl⟩
    · rw [← cons_append, ← List.append_assoc] at htrace
      obtain ⟨hbegin, hevent⟩ := append_inj' htrace rfl
      cases hevent
      refine Or.inr ⟨?_, rest, rfl, hbegin, fun h => hlast (mem_append_left _ h)⟩
      intro heq
      exact hlast (heq ▸ mem_append_right _ mem_cons_self)
  · rintro (⟨rfl, rfl, rfl⟩ | ⟨hne, rest, rfl, rfl, hlast⟩)
    · exact ⟨rfl, not_mem_nil⟩
    · refine ⟨by simp only [List.append_assoc, cons_append], fun hmem => ?_⟩
      rcases mem_append.mp hmem with hmem | hmem
      · exact hlast hmem
      · exact hne (mem_singleton.mp hmem).symm

/-- An event that ends nothing and publishes nothing. -/
structure Quiet (event : Event Id) : Prop where
  publish : ∀ name, event ≠ .publishUnlink name
  finishUnlink : ∀ name, finishesUnlink name event = false
  finishLink : ∀ name, finishesLink name event = false

section

variable {decodeAddress : Id → String} {trace : List (Event Id)} {s s' : State Id}
  {event : Event Id}

theorem Quiet.published (h : Quiet event) (name : String) :
    published name (trace ++ [event]) = published name trace := by
  rw [published_snoc, if_neg (h.publish name), Nat.add_zero]

omit [DecidableEq Id] in
theorem Quiet.finished (h : Quiet event) (name : String) :
    finished name (trace ++ [event]) = finished name trace := by
  rw [finished_snoc, h.finishUnlink name]
  rfl

variable {name : String}

omit [DecidableEq Id] in
theorem publish_notMem_snoc (h : event ≠ .publishUnlink name) :
    .publishUnlink name ∉ trace ++ [event] ↔ .publishUnlink name ∉ trace := by
  rw [mem_append, mem_singleton, or_iff_left h.symm]

theorem Quiet.unlinked (h : Quiet event) (name : String) :
    .publishUnlink name ∉ trace ++ [event] ∨ Relinked (trace ++ [event]) name ↔
      .publishUnlink name ∉ trace ∨ Relinked trace name := by
  have hfinish : event ≠ .finishLink name true := by
    rintro rfl
    have hends := h.finishLink name
    rw [finishesLink, decide_eq_false_iff_not] at hends
    exact hends rfl
  rw [publish_notMem_snoc (h.publish name), relinked_snoc (h.publish name) hfinish]

theorem Inv.linking_snoc (h : Inv decodeAddress trace s)
    {observed : Option UInt64} (hmutex : s.linkedInstancesMutex = some (.linking name observed))
    (hunlink : finishesUnlink name event = false) (hlink : finishesLink name event = false) :
    ∃ before during, trace ++ [event] = before ++ .lockForLink name :: during ∧
      (∀ event ∈ during, finishesLink name event = false) ∧ finished name during = 0 ∧
      finished name before ≤ published name before ∧
      (.publishUnlink name ∉ during → ∀ epoch, observed = some epoch →
        epoch = UInt64.ofNat (published name before)) := by
  obtain ⟨before, during, htrace, hends, hfinished, hle, hobserved⟩ :=
    h.linking name observed hmutex
  refine ⟨before, during ++ [event], ?_, ?_, ?_, hle, fun hmem => hobserved fun hmem' =>
    hmem (mem_append_left _ hmem')⟩
  · rw [htrace, List.append_assoc, cons_append]
  · intro other hmem
    rcases mem_append.mp hmem with hmem | hmem
    · exact hends other hmem
    · rw [mem_singleton.mp hmem]
      exact hlink
  · rw [finished_snoc, hfinished, hunlink]
    rfl

theorem Inv.stamped_snoc (h : Inv decodeAddress trace s) {request : Id}
    (hne : event ≠ .stamp request) {before after : List (Event Id)}
    (hlast : LastStamp (trace ++ [event]) request before after) :
    (s.requests request).decodeLinkEpoch =
      UInt64.ofNat (published (decodeAddress request) before) := by
  rcases lastStamp_snoc.mp hlast with ⟨heq, _⟩ | ⟨_, rest, _, hrest⟩
  · exact absurd heq hne
  · exact h.stamped request before rest hrest

theorem Inv.step_stamp (h : Inv decodeAddress trace s) (request : Id) :
    Inv decodeAddress (trace ++ [.stamp request]) (s.stampRequest request) := by
  have hquiet : Quiet (.stamp request : Event Id) := ⟨nofun, fun _ => rfl, fun _ => rfl⟩
  have hepoch : ∀ name, (s.stampRequest request).epoch name = s.epoch name := by
    intro name
    unfold State.stampRequest State.setEpoch State.epoch
    dsimp only
    by_cases hname : name = (s.requests request).decodeAddress
    · rw [hname, update_self]
      rfl
    · rw [update_of_ne hname]
  constructor
  · intro name
    rw [hquiet.published, hepoch]
    exact h.epochs name
  · intro name
    rw [hquiet.published, hquiet.finished]
    exact h.pending name
  · exact h.waiting
  · intro name
    rw [hquiet.unlinked]
    exact h.unlinked name
  · exact fun name observed hmutex => h.linking_snoc hmutex rfl rfl
  · intro other
    by_cases hother : other = request
    · subst hother
      show (Function.update s.requests other _ other).decodeAddress = _
      rw [update_self]
      exact h.address other
    · show (Function.update s.requests request _ other).decodeAddress = _
      rw [update_of_ne hother]
      exact h.address other
  · intro other before after hlast
    by_cases hother : other = request
    · subst hother
      show (Function.update s.requests other _ other).decodeLinkEpoch = _
      rw [update_self]
      rcases lastStamp_snoc.mp hlast with ⟨_, rfl, _⟩ | ⟨hne, _⟩
      · have hself := hepoch (s.requests other).decodeAddress
        rw [h.epochs, h.address] at hself
        rw [← hself]
        unfold State.stampRequest State.setEpoch State.epoch
        rw [h.address]
      · exact absurd rfl hne
    · show (Function.update s.requests request _ other).decodeLinkEpoch = _
      rw [update_of_ne hother]
      exact h.stamped_snoc (fun heq => hother (Event.stamp.inj heq).symm) hlast

theorem Inv.step_update (h : Inv decodeAddress trace s) (request : Id) (pdReservationId : String)
    (cancelled hasTerminalOutcome : Bool) :
    Inv decodeAddress (trace ++ [.update request pdReservationId cancelled hasTerminalOutcome])
      (s.updateRequest request pdReservationId cancelled hasTerminalOutcome) := by
  have hquiet : Quiet (.update request pdReservationId cancelled hasTerminalOutcome : Event Id) :=
    ⟨nofun, fun _ => rfl, fun _ => rfl⟩
  have hrequest : ∀ other,
      ((s.updateRequest request pdReservationId cancelled hasTerminalOutcome).requests
        other).decodeAddress = (s.requests other).decodeAddress ∧
      ((s.updateRequest request pdReservationId cancelled hasTerminalOutcome).requests
        other).decodeLinkEpoch = (s.requests other).decodeLinkEpoch := by
    intro other
    unfold State.updateRequest
    dsimp only
    by_cases hother : other = request
    · rw [hother, update_self]
      exact ⟨rfl, rfl⟩
    · rw [update_of_ne hother]
      exact ⟨rfl, rfl⟩
  constructor
  · intro name
    rw [hquiet.published]
    exact h.epochs name
  · intro name
    rw [hquiet.published, hquiet.finished]
    exact h.pending name
  · exact h.waiting
  · intro name
    rw [hquiet.unlinked]
    exact h.unlinked name
  · exact fun name observed hmutex => h.linking_snoc hmutex rfl rfl
  · intro other
    rw [(hrequest other).1]
    exact h.address other
  · intro other before after hlast
    rw [(hrequest other).2]
    exact h.stamped_snoc (by exact nofun) hlast

theorem Inv.step_lockForLink (h : Inv decodeAddress trace s)
    (hfree : s.linkedInstancesMutex = none) :
    Inv decodeAddress (trace ++ [.lockForLink name])
      { s with linkedInstancesMutex := some (.linking name none) } := by
  have hquiet : Quiet (.lockForLink name : Event Id) := ⟨nofun, fun _ => rfl, fun _ => rfl⟩
  constructor
  · intro other
    rw [hquiet.published]
    exact h.epochs other
  · intro other
    rw [hquiet.published, hquiet.finished]
    exact h.pending other
  · intro other
    have hwaiting := h.waiting other
    rw [hfree] at hwaiting
    exact hwaiting
  · intro other
    rw [hquiet.unlinked]
    exact h.unlinked other
  · intro other observed hmutex
    cases hmutex
    have hpending := h.pending name
    exact ⟨trace, [], rfl, nofun, rfl, by omega,
      fun _ epoch hnone => absurd hnone (by exact nofun)⟩
  · exact h.address
  · exact fun request before after hlast => h.stamped_snoc (by exact nofun) hlast

omit [DecidableEq Id] in
theorem epoch_setEpoch_self (s : State Id) (name other : String) :
    (s.setEpoch name (s.epoch name)).epoch other = s.epoch other := by
  unfold State.setEpoch State.epoch
  dsimp only
  by_cases hother : other = name
  · rw [hother, update_self]
    rfl
  · rw [update_of_ne hother]

theorem Inv.step_observe (h : Inv decodeAddress trace s)
    (hmutex : s.linkedInstancesMutex = some (.linking name none)) :
    Inv decodeAddress (trace ++ [.observe name])
      { s.setEpoch name (s.epoch name) with
        linkedInstancesMutex := some (.linking name (some (s.epoch name))) } := by
  have hquiet : Quiet (.observe name : Event Id) := ⟨nofun, fun _ => rfl, fun _ => rfl⟩
  constructor
  · intro other
    rw [hquiet.published]
    exact (epoch_setEpoch_self s name other).trans (h.epochs other)
  · intro other
    rw [hquiet.published, hquiet.finished]
    exact h.pending other
  · intro other
    have hwaiting := h.waiting other
    rw [hmutex] at hwaiting
    exact hwaiting
  · intro other
    rw [hquiet.unlinked]
    exact h.unlinked other
  · intro other observed hheld
    cases hheld
    obtain ⟨before, during, htrace, hends, hfinished, hle, _⟩ :=
      @Inv.linking_snoc Id _ decodeAddress trace s (.observe name) name h none hmutex rfl rfl
    refine ⟨before, during, htrace, hends, hfinished, hle, fun hnone epoch hepoch => ?_⟩
    -- nothing has been published since the link started
    rw [← Option.some.inj hepoch, h.epochs, ← hquiet.published, htrace]
    unfold published
    have hne : (.lockForLink name : Event Id) ≠ .publishUnlink name := nofun
    rw [count_append, count_cons_of_ne hne, count_eq_zero.mpr hnone]
    rfl
  · exact h.address
  · exact fun request before after hlast => h.stamped_snoc (by exact nofun) hlast

/-- A published unlink advances the epoch of its instance, waits, and marks it unlinked. -/
theorem Inv.step_publish (h : Inv decodeAddress trace s) (name : String) :
    Inv decodeAddress (trace ++ [.publishUnlink name]) (s.publish name) := by
  have hpublished : ∀ other, published other (trace ++ [.publishUnlink name]) =
      published other trace + if other = name then 1 else 0 := by
    intro other
    rw [published_snoc]
    congr 1
    exact if_congr ⟨fun heq => (Event.publishUnlink.inj heq).symm, fun heq => heq ▸ rfl⟩ rfl rfl
  have hfinished : ∀ other, finished other (trace ++ [.publishUnlink name]) =
      finished other trace := by
    intro other
    rw [finished_snoc]
    rfl
  constructor
  · intro other
    rw [hpublished]
    unfold State.publish State.setEpoch State.epoch
    dsimp only
    by_cases hother : other = name
    · rw [hother, update_self, if_pos rfl, UInt64.ofNat_add]
      exact congrArg (· + 1) (h.epochs name)
    · rw [update_of_ne hother, if_neg hother]
      exact h.epochs other
  · intro other
    rw [hpublished, hfinished]
    have hpending := h.pending other
    show Function.update s.pendingUnlinks name _ other + _ = _
    by_cases hother : other = name
    · rw [hother, update_self, if_pos rfl]
      rw [hother] at hpending
      omega
    · rw [update_of_ne hother, if_neg hother]
      exact hpending
  · intro other
    have hwaiting := h.waiting other
    show Function.update s.pendingUnlinks name _ other =
      Function.update s.waitingUnlinks name _ other +
        if s.linkedInstancesMutex = some (.unlinking other) then 1 else 0
    by_cases hother : other = name
    · subst hother
      rw [update_self, update_self]
      omega
    · rw [update_of_ne hother, update_of_ne hother]
      exact hwaiting
  · intro other
    show other ∉ insert name s.unlinkedInstances ↔ _
    by_cases hother : other = name
    · subst hother
      refine ⟨fun hnot => absurd (Finset.mem_insert_self other _) hnot, ?_⟩
      rintro (hnone | hrelinked)
      · exact absurd (mem_append_right _ mem_cons_self) hnone
      · exact absurd hrelinked not_relinked_publish
    · have hne : (.publishUnlink name : Event Id) ≠ .publishUnlink other :=
        fun heq => hother (Event.publishUnlink.inj heq).symm
      rw [publish_notMem_snoc hne, relinked_snoc hne nofun, ← h.unlinked, Finset.mem_insert,
        or_iff_right hother]
  · exact fun other observed hmutex => h.linking_snoc hmutex rfl rfl
  · exact h.address
  · exact fun request before after hlast => h.stamped_snoc (by exact nofun) hlast

theorem Inv.step_lockForUnlink (h : Inv decodeAddress trace s)
    (hfree : s.linkedInstancesMutex = none) (hwaits : 0 < s.waitingUnlinks name) :
    Inv decodeAddress (trace ++ [.lockForUnlink name])
      { s with
        linkedInstancesMutex := some (.unlinking name)
        waitingUnlinks :=
          Function.update s.waitingUnlinks name (s.waitingUnlinks name - 1) } := by
  have hquiet : Quiet (.lockForUnlink name : Event Id) := ⟨nofun, fun _ => rfl, fun _ => rfl⟩
  constructor
  · intro other
    rw [hquiet.published]
    exact h.epochs other
  · intro other
    rw [hquiet.published, hquiet.finished]
    exact h.pending other
  · intro other
    have hwaiting := h.waiting other
    rw [hfree, if_neg nofun] at hwaiting
    dsimp only
    by_cases hother : other = name
    · rw [hother, update_self, if_pos rfl]
      rw [hother] at hwaiting
      omega
    · rw [update_of_ne hother, if_neg fun heq => hother (by cases heq; rfl)]
      exact hwaiting
  · intro other
    rw [hquiet.unlinked]
    exact h.unlinked other
  · exact nofun
  · exact h.address
  · exact fun request before after hlast => h.stamped_snoc (by exact nofun) hlast

theorem Inv.step_finishUnlink (h : Inv decodeAddress trace s) {unlinked : Bool}
    (hmutex : s.linkedInstancesMutex = some (.unlinking name)) :
    Inv decodeAddress (trace ++ [.finishUnlink name unlinked]) (s.endUnlink name) := by
  have hpublished : ∀ other, published other (trace ++ [.finishUnlink name unlinked]) =
      published other trace := by
    intro other
    rw [published_snoc, if_neg nofun]
    rfl
  have hheld := h.waiting name
  rw [hmutex, if_pos rfl] at hheld
  constructor
  · intro other
    rw [hpublished]
    exact h.epochs other
  · intro other
    have hpending := h.pending other
    rw [hpublished, finished_snoc]
    show Function.update s.pendingUnlinks name _ other + _ = _
    by_cases hother : other = name
    · subst hother
      rw [update_self, finishesUnlink, if_pos (decide_eq_true rfl)]
      omega
    · rw [update_of_ne hother, finishesUnlink,
        if_neg fun heq => hother (of_decide_eq_true heq).symm]
      exact hpending
  · intro other
    have hwaiting := h.waiting other
    rw [hmutex] at hwaiting
    show Function.update s.pendingUnlinks name _ other = s.waitingUnlinks other + 0
    by_cases hother : other = name
    · rw [hother, update_self]
      omega
    · rw [if_neg fun heq => hother (by cases heq; rfl)] at hwaiting
      rw [update_of_ne hother]
      exact hwaiting
  · intro other
    have hne : (.finishUnlink name unlinked : Event Id) ≠ .publishUnlink other := nofun
    rw [publish_notMem_snoc hne, relinked_snoc hne nofun]
    exact h.unlinked other
  · exact nofun
  · exact h.address
  · exact fun request before after hlast => h.stamped_snoc (by exact nofun) hlast

/-- The link that ends is one during which the instance stayed settled exactly when the epoch has
not moved and no unlink is pending. -/
theorem Inv.linking_iff (h : Inv decodeAddress trace s) {observedEpoch : UInt64}
    (hmutex : s.linkedInstancesMutex = some (.linking name (some observedEpoch))) :
    Linking trace name ↔ s.epoch name = observedEpoch ∧ s.pendingUnlinks name = 0 := by
  obtain ⟨before, during, htrace, hends, hfinished, hle, hobserved⟩ :=
    h.linking name (some observedEpoch) hmutex
  have hpending := h.pending name
  have hne : (.lockForLink name : Event Id) ≠ .publishUnlink name := nofun
  have hpublishedSplit : ∀ before during : List (Event Id),
      published name (before ++ .lockForLink name :: during) =
        published name before + published name during := by
    intro before during
    unfold published
    rw [count_append, count_cons_of_ne hne]
  have hfinishedSplit : ∀ before during : List (Event Id),
      finished name (before ++ .lockForLink name :: during) =
        finished name before + finished name during := by
    intro before during
    unfold finished
    rw [countP_append, countP_cons_of_neg Bool.false_ne_true]
  have hpublishedNow := hpublishedSplit before during
  have hfinishedNow := hfinishedSplit before during
  rw [← htrace] at hpublishedNow hfinishedNow
  constructor
  · rintro ⟨before', during', htrace', _, hsettled, hnone⟩
    have hpublished' := hpublishedSplit before' during'
    have hfinished' := hfinishedSplit before' during'
    rw [← htrace'] at hpublished' hfinished'
    rw [published_eq_zero.mpr hnone] at hpublished'
    have hduring : published name during = 0 := by omega
    refine ⟨?_, by omega⟩
    rw [hobserved (published_eq_zero.mp hduring) observedEpoch rfl, h.epochs]
    congr 1
    omega
  · rintro ⟨_, hzero⟩
    have hduring : published name during = 0 := by omega
    exact ⟨before, during, htrace, hends, by omega, published_eq_zero.mp hduring⟩

/-- The link takes its instance out of the unlinked ones unless an unlink was published since it
began. -/
theorem Inv.step_finishLink (h : Inv decodeAddress trace s) {observedEpoch : UInt64} {linked : Bool}
    (hmutex : s.linkedInstancesMutex = some (.linking name (some observedEpoch))) :
    Inv decodeAddress (trace ++ [.finishLink name linked])
      (s.endLink name observedEpoch linked) := by
  have hpublished : ∀ other, published other (trace ++ [.finishLink name linked]) =
      published other trace := by
    intro other
    rw [published_snoc, if_neg nofun]
    rfl
  -- all but the set of unlinked instances stays
  have hsame : (s.endLink name observedEpoch linked).pendingUnlinks = s.pendingUnlinks ∧
      (s.endLink name observedEpoch linked).waitingUnlinks = s.waitingUnlinks ∧
      (s.endLink name observedEpoch linked).linkedInstancesMutex = none ∧
      (s.endLink name observedEpoch linked).requests = s.requests ∧
      ∀ other, (s.endLink name observedEpoch linked).epoch other = s.epoch other := by
    unfold State.endLink
    dsimp only
    split
    · exact ⟨rfl, rfl, rfl, rfl, fun _ => rfl⟩
    · split
      · exact ⟨rfl, rfl, rfl, rfl, epoch_setEpoch_self s name⟩
      · exact ⟨rfl, rfl, rfl, rfl, epoch_setEpoch_self s name⟩
  obtain ⟨hpending, hwaiting, hfree, hrequests, hepoch⟩ := hsame
  constructor
  · intro other
    rw [hpublished, hepoch]
    exact h.epochs other
  · intro other
    rw [hpublished, finished_snoc, hpending]
    exact h.pending other
  · intro other
    have hheld := h.waiting other
    rw [hmutex] at hheld
    rw [hpending, hwaiting, hfree]
    exact hheld
  · intro other
    have hne : (.finishLink name linked : Event Id) ≠ .publishUnlink other := nofun
    rw [publish_notMem_snoc hne]
    by_cases hdone : linked = true ∧ other = name
    · obtain ⟨rfl, rfl⟩ := hdone
      rw [relinked_snoc_iff, and_iff_right rfl, and_iff_right hne, h.linking_iff hmutex,
        or_left_comm, ← h.unlinked, or_comm]
      unfold State.endLink
      rw [if_neg nofun]
      split
      next hadmits =>
        exact ⟨fun _ => Or.inr hadmits, fun _ => Finset.notMem_erase other _⟩
      next hrefuses => exact ⟨Or.inl, fun hor => hor.resolve_right hrefuses⟩
    · have hfinish : (.finishLink name linked : Event Id) ≠ .finishLink other true := by
        intro heq
        cases heq
        exact hdone ⟨rfl, rfl⟩
      rw [relinked_snoc hne hfinish, ← h.unlinked]
      unfold State.endLink
      dsimp only
      split
      · exact Iff.rfl
      next hlinked =>
        split
        · have hother : other ≠ name := fun heq => hdone ⟨Bool.not_eq_false _ ▸ hlinked, heq⟩
          rw [Finset.mem_erase, and_iff_right hother]
        · exact Iff.rfl
  · intro other observed hheld
    rw [hfree] at hheld
    cases hheld
  · intro request
    rw [hrequests]
    exact h.address request
  · intro request before after hlast
    rw [hrequests]
    exact h.stamped_snoc (by exact nofun) hlast

end

/-! ## Runs -/

theorem Inv.step {decodeAddress : Id → String} {trace : List (Event Id)} {s s' : State Id}
    {event : Event Id} (h : Inv decodeAddress trace s) (hstep : s.step event = .ok s') :
    Inv decodeAddress (trace ++ [event]) s' := by
  unfold State.step at hstep
  cases event with
  | stamp request =>
    dsimp only at hstep
    split at hstep
    · cases hstep
    · cases hstep
      exact h.step_stamp request
  | update request pdReservationId cancelled hasTerminalOutcome =>
    cases hstep
    exact h.step_update request pdReservationId cancelled hasTerminalOutcome
  | lockForLink name =>
    dsimp only at hstep
    split at hstep
    next hfree =>
      cases hstep
      exact h.step_lockForLink hfree
    · cases hstep
  | observe name =>
    dsimp only at hstep
    split at hstep
    next hmutex =>
      cases hstep
      exact h.step_observe hmutex
    · cases hstep
  | finishLink name linked =>
    dsimp only at hstep
    split at hstep
    next holder observedEpoch hmutex =>
      split at hstep
      next heq =>
        cases hstep
        exact h.step_finishLink (heq ▸ hmutex)
      · cases hstep
    · cases hstep
  | publishUnlink name =>
    cases hstep
    exact h.step_publish name
  | lockForUnlink name =>
    dsimp only at hstep
    split at hstep
    next hready =>
      cases hstep
      exact h.step_lockForUnlink hready.1 hready.2
    · cases hstep
  | finishUnlink name unlinked =>
    dsimp only at hstep
    split at hstep
    · cases hstep
    next hmutex =>
      split at hstep
      · cases hstep
      · cases hstep
        exact h.step_finishUnlink (not_not.mp hmutex)

section

variable {decodeAddress : Id → String} {trace : List (Event Id)} {s : State Id}

theorem inv_of_run (run : Reaches State.step (State.start decodeAddress) trace s) :
    Inv decodeAddress trace s := by
  induction run with
  | refl => exact inv_start decodeAddress
  | snoc _ _ next ih => exact ih.step next

/-- No run comes to the `CHECK` of an unlink that is not pending. -/
theorem step_ne_checkFailed (run : Reaches State.step (State.start decodeAddress) trace s)
    (event : Event Id) : s.step event ≠ .error .checkFailed := by
  intro hstep
  unfold State.step at hstep
  cases event with
  | finishUnlink name unlinked =>
    dsimp only at hstep
    split at hstep
    · cases hstep
    next hmutex =>
      have hwaiting := (inv_of_run run).waiting name
      rw [if_pos (not_not.mp hmutex)] at hwaiting
      rw [if_neg (by omega)] at hstep
      cases hstep
  | finishLink name linked =>
    dsimp only at hstep
    split at hstep
    · split at hstep
      · cases hstep
      · cases hstep
    · cases hstep
  | update => cases hstep
  | publishUnlink => cases hstep
  | stamp | lockForLink | observe | lockForUnlink =>
    dsimp only at hstep
    split at hstep
    · cases hstep
    · cases hstep

variable {request : Id} {before after : List (Event Id)}

theorem stampHolds_iff (h : Inv decodeAddress trace s)
    (hlast : LastStamp trace request before after) :
    stampHolds (s.requests request).decodeLinkEpoch
        (s.decodeLinkEpochs (decodeAddress request)) = true ↔
      published (decodeAddress request) trace % 2 ^ 64 ≤
        published (decodeAddress request) before % 2 ^ 64 := by
  have hstamped := h.stamped request before after hlast
  have hepoch := h.epochs (decodeAddress request)
  unfold State.epoch at hepoch
  have hcounts := congrArg UInt64.toNat hepoch
  rw [UInt64.toNat_ofNat'] at hcounts
  unfold stampHolds
  cases hentry : s.decodeLinkEpochs (decodeAddress request) with
  | none =>
    rw [hentry] at hcounts
    rw [← hcounts]
    exact ⟨fun _ => Nat.zero_le _, fun _ => rfl⟩
  | some epoch =>
    rw [hentry] at hcounts
    rw [decide_eq_true_iff, ge_iff_le, UInt64.le_iff_toNat_le, hstamped, UInt64.toNat_ofNat',
      ← hcounts]
    rfl

/-- What passes the check, the epochs having 64 bits. -/
theorem rejectQueuedRequest_eq_none_iff (options : Options)
    (run : Reaches State.step (State.start decodeAddress) trace s)
    (hlast : LastStamp trace request before after) :
    rejectQueuedRequest options s request = none ↔ Exempt options (s.requests request) ∨
      published (decodeAddress request) trace % 2 ^ 64 ≤
          published (decodeAddress request) before % 2 ^ 64 ∧
        (.publishUnlink (decodeAddress request) ∉ trace ∨
          Relinked trace (decodeAddress request)) := by
  have h := inv_of_run run
  unfold rejectQueuedRequest
  dsimp only
  rw [h.address]
  split
  next hexempt => exact ⟨fun _ => Or.inl hexempt, fun _ => rfl⟩
  next hchecked =>
    rw [or_iff_right hchecked, ← stampHolds_iff h hlast, ← h.unlinked]
    split
    next hpasses => exact ⟨fun _ => hpasses.symm, fun _ => rfl⟩
    next hfails => exact ⟨nofun, fun hpasses => absurd hpasses.symm hfails⟩

/-- With fewer than 2^64 unlinks the epochs count them. -/
theorem published_mod_le_iff {instanceName : String} (hlast : LastStamp trace request before after)
    (hcount : published instanceName trace < 2 ^ 64) :
    published instanceName trace % 2 ^ 64 ≤ published instanceName before % 2 ^ 64 ↔
      .publishUnlink instanceName ∉ after := by
  have hsplit : published instanceName trace =
      published instanceName before + published instanceName after := by
    have hne : (.stamp request : Event Id) ≠ .publishUnlink instanceName := nofun
    rw [hlast.1]
    unfold published
    rw [count_append, count_cons_of_ne hne]
  rw [← published_eq_zero, Nat.mod_eq_of_lt hcount, Nat.mod_eq_of_lt (by omega)]
  omega

end

/-- In every run, a stamped request passes the check when it is exempt, or when no unlink of its
instance has been published since the stamp (as far as 64 bits tell) and the instance was never
unlinked or is linked again since its unlinks had finished. -/
theorem queued_request_passes_iff (options : Options) (decodeAddress : Id → String)
    (trace : List (Event Id)) (s : State Id)
    (run : Reaches State.step (State.start decodeAddress) trace s) (request : Id)
    (before after : List (Event Id)) (hlast : LastStamp trace request before after) :
    (rejectQueuedRequest options s request = none ↔ Exempt options (s.requests request) ∨
      published (decodeAddress request) trace % 2 ^ 64 ≤
          published (decodeAddress request) before % 2 ^ 64 ∧
        (.publishUnlink (decodeAddress request) ∉ trace ∨ Relinked trace (decodeAddress request))) ∧
    (published (decodeAddress request) trace < 2 ^ 64 →
      (rejectQueuedRequest options s request = none ↔ Exempt options (s.requests request) ∨
        .publishUnlink (decodeAddress request) ∉ after ∧
          (.publishUnlink (decodeAddress request) ∉ trace ∨
            Relinked trace (decodeAddress request)))) := by
  have hpasses := rejectQueuedRequest_eq_none_iff options run hlast
  refine ⟨hpasses, fun hcount => ?_⟩
  rw [hpasses, published_mod_le_iff hlast hcount]

/-- An unlink that finishes, a link after it, and a stamp. -/
def relinkRun : List (Event Unit) :=
  [.update () "reservation" false false, .publishUnlink "decode", .lockForUnlink "decode",
    .finishUnlink "decode" true, .lockForLink "decode", .observe "decode",
    .finishLink "decode" true, .stamp ()]

def prefillOptions : Options := { enablePdOoc := false, instanceRole := .prefill }

theorem relinkRun_passes :
    ∃ s, Reaches State.step (State.start fun _ : Unit => "decode") relinkRun s ∧
      ¬ Exempt prefillOptions (s.requests ()) ∧
      rejectQueuedRequest prefillOptions s () = none := by
  have hrun : ∃ s, Reaches State.step (State.start fun _ : Unit => "decode") relinkRun s ∧
      decide (¬ Exempt prefillOptions (s.requests ())) = true :=
    ReachesWith.of_check (fun s : State Unit => decide (¬ Exempt prefillOptions (s.requests ())))
      _ _ (by decide +kernel)
  obtain ⟨s, run, hchecked⟩ := hrun
  refine ⟨s, run, of_decide_eq_true hchecked, ?_⟩
  have hlast : LastStamp relinkRun () relinkRun.dropLast [] := ⟨rfl, not_mem_nil⟩
  refine ((queued_request_passes_iff prefillOptions (fun _ => "decode") relinkRun s run ()
    relinkRun.dropLast [] hlast).2 (by decide)).mpr (Or.inr ⟨not_mem_nil, Or.inr ?_⟩)
  exact ⟨relinkRun.take 4, [.observe "decode"], [.stamp ()], ⟨rfl, by decide⟩, rfl, by decide,
    by decide⟩

/-! ### Where the check differs from the last publication -/

/-- A link that overtakes an unlink which has published. -/
def overtakingRun : List (Event Unit) :=
  [.update () "reservation" false false, .publishUnlink "decode", .lockForLink "decode",
    .observe "decode", .finishLink "decode" true, .stamp ()]

def unlinkRun : List (Event Unit) :=
  [.publishUnlink "decode", .lockForUnlink "decode", .finishUnlink "decode" true]

def linkRun : List (Event Unit) :=
  [.lockForLink "decode", .observe "decode", .finishLink "decode" true]

/-- A stamp before so many unlinks, each of which finishes before the next. -/
def manyUnlinksRun (n : Nat) : List (Event Unit) :=
  [.update () "reservation" false false, .stamp ()] ++ (List.replicate n unlinkRun).flatten

theorem published_manyUnlinksRun (n : Nat) : published "decode" (manyUnlinksRun n) = n := by
  unfold published manyUnlinksRun
  rw [count_append, count_flatten, map_replicate, sum_replicate_nat]
  show 0 + n * 1 = n
  omega

theorem finished_manyUnlinksRun (n : Nat) : finished "decode" (manyUnlinksRun n) = n := by
  unfold finished manyUnlinksRun
  rw [countP_append, countP_flatten, map_replicate, sum_replicate_nat]
  show 0 + n * 1 = n
  omega

theorem manyUnlinksRun_reaches (n : Nat) :
    ∃ s, Reaches State.step (State.start fun _ : Unit => "decode") (manyUnlinksRun n) s ∧
      s.linkedInstancesMutex = none ∧ ¬ Exempt prefillOptions (s.requests ()) := by
  induction n with
  | zero => exact ⟨_, .of_foldlM rfl, rfl, by decide⟩
  | succ n ih =>
    obtain ⟨s, run, hfree, hchecked⟩ := ih
    have hpublish : s.step (.publishUnlink "decode") = .ok (s.publish "decode") := rfl
    have hwaits : (s.publish "decode").waitingUnlinks "decode" = s.waitingUnlinks "decode" + 1 :=
      update_self "decode" _ s.waitingUnlinks
    have hpends : (s.publish "decode").pendingUnlinks "decode" = s.pendingUnlinks "decode" + 1 :=
      update_self "decode" _ s.pendingUnlinks
    obtain ⟨locked, hlock, hheld, hkept, hrequests⟩ : ∃ locked : State Unit,
        (s.publish "decode").step (.lockForUnlink "decode") = .ok locked ∧
        locked.linkedInstancesMutex = some (.unlinking "decode") ∧
        locked.pendingUnlinks "decode" = s.pendingUnlinks "decode" + 1 ∧
        locked.requests = s.requests :=
      ⟨_, if_pos ⟨hfree, hwaits ▸ Nat.succ_pos _⟩, rfl, hpends, rfl⟩
    have hfinish : locked.step (.finishUnlink "decode" true) = .ok (locked.endUnlink "decode") := by
      unfold State.step
      dsimp only
      rw [if_neg (not_not.mpr hheld), if_neg (by omega)]
    refine ⟨locked.endUnlink "decode", ?_, rfl, ?_⟩
    · have hrun : manyUnlinksRun (n + 1) = manyUnlinksRun n ++ unlinkRun := by
        unfold manyUnlinksRun
        rw [replicate_succ', flatten_append, List.append_assoc, flatten_singleton]
      rw [hrun]
      exact run.trans (.snoc (.snoc (.single trivial hpublish) trivial hlock) trivial hfinish)
    · show ¬ Exempt prefillOptions (locked.requests ())
      rw [hrequests]
      exact hchecked

/-- The epoch of 64 bits is at the stamp again after 2^64 unlinks. -/
theorem manyUnlinksRun_passes {n : Nat} (hn : n % 2 ^ 64 = 0) :
    ∃ s, Reaches State.step (State.start fun _ : Unit => "decode")
        (manyUnlinksRun n ++ linkRun) s ∧
      ¬ Exempt prefillOptions (s.requests ()) ∧
      rejectQueuedRequest prefillOptions s () = none := by
  obtain ⟨s, run, hfree, hchecked⟩ := manyUnlinksRun_reaches n
  obtain ⟨locked, hlock, hheld, hlockedRequests⟩ : ∃ locked : State Unit,
      s.step (.lockForLink "decode") = .ok locked ∧
      locked.linkedInstancesMutex = some (.linking "decode" none) ∧
      locked.requests = s.requests := ⟨_, if_pos hfree, rfl, rfl⟩
  obtain ⟨observing, hobserve, hobserved, hrequests⟩ : ∃ observing : State Unit,
      locked.step (.observe "decode") = .ok observing ∧
      observing.linkedInstancesMutex = some (.linking "decode" (some (locked.epoch "decode"))) ∧
      observing.requests = locked.requests := ⟨_, if_pos hheld, rfl, rfl⟩
  have hfinish : observing.step (.finishLink "decode" true) =
      .ok (observing.endLink "decode" (locked.epoch "decode") true) := by
    unfold State.step
    dsimp only
    rw [hobserved]
    exact if_pos rfl
  have hlinked : Reaches State.step (State.start fun _ : Unit => "decode")
      (manyUnlinksRun n ++ linkRun)
      (observing.endLink "decode" (locked.epoch "decode") true) :=
    run.trans (.snoc (.snoc (.single trivial hlock) trivial hobserve) trivial hfinish)
  refine ⟨_, hlinked, ?_, ?_⟩
  · have hsame : (observing.endLink "decode" (locked.epoch "decode") true).requests =
        s.requests := by
      rw [← hlockedRequests, ← hrequests]
      unfold State.endLink
      dsimp only
      rw [if_neg nofun]
      split
      · rfl
      · rfl
    rw [hsame]
    exact hchecked
  · have hlast : LastStamp (manyUnlinksRun n ++ linkRun) ()
        [.update () "reservation" false false]
        ((List.replicate n unlinkRun).flatten ++ linkRun) := by
      refine ⟨rfl, fun hmem => ?_⟩
      rcases mem_append.mp hmem with hmem | hmem
      · obtain ⟨run, hrun, hmem⟩ := mem_flatten.mp hmem
        rw [(mem_replicate.mp hrun).2] at hmem
        exact absurd hmem (by decide)
      · exact absurd hmem (by decide)
    refine (rejectQueuedRequest_eq_none_iff prefillOptions hlinked hlast).mpr (Or.inr ⟨?_, Or.inr
      ⟨manyUnlinksRun n, [.observe "decode"], [], ⟨rfl, by decide⟩, ?_, by decide,
        not_mem_nil⟩⟩)
    · have hcount : published "decode" (manyUnlinksRun n ++ linkRun) = n := by
        have happend : published "decode" (manyUnlinksRun n ++ linkRun) =
            published "decode" (manyUnlinksRun n) + published "decode" linkRun :=
          count_append
        rw [happend, published_manyUnlinksRun]
        rfl
      rw [hcount, hn]
      exact Nat.zero_le _
    · rw [finished_manyUnlinksRun, published_manyUnlinksRun]

/-- A link that starts and completes after the last publication does not let the instance in while
the unlink waits for it; and a stamp 2^64 unlinks old passes. -/
theorem overtakingRun_rejected :
    (∃ s, Reaches State.step (State.start fun _ : Unit => "decode") overtakingRun s ∧
      LastStamp overtakingRun () overtakingRun.dropLast [] ∧
      LinkedSince overtakingRun "decode" ∧ ¬ Exempt prefillOptions (s.requests ()) ∧
      rejectQueuedRequest prefillOptions s () ≠ none) ∧
    ∃ n s, Reaches State.step (State.start fun _ : Unit => "decode")
        (manyUnlinksRun n ++ linkRun) s ∧
      .publishUnlink "decode" ∈ (List.replicate n unlinkRun).flatten ++ linkRun ∧
      ¬ Exempt prefillOptions (s.requests ()) ∧
      rejectQueuedRequest prefillOptions s () = none := by
  constructor
  · have hrun : ∃ s, Reaches State.step (State.start fun _ : Unit => "decode") overtakingRun s ∧
        decide (¬ Exempt prefillOptions (s.requests ()) ∧
          rejectQueuedRequest prefillOptions s () ≠ none) = true :=
      ReachesWith.of_check (fun s : State Unit => decide (¬ Exempt prefillOptions (s.requests ()) ∧
        rejectQueuedRequest prefillOptions s () ≠ none)) _ _ (by decide +kernel)
    obtain ⟨s, run, hchecked⟩ := hrun
    obtain ⟨hqueued, hrejected⟩ := of_decide_eq_true hchecked
    refine ⟨s, run, ⟨rfl, not_mem_nil⟩, ?_, hqueued, hrejected⟩
    exact ⟨overtakingRun.take 2, [.observe "decode"], [.stamp ()], ⟨rfl, by decide⟩, by decide,
      by decide⟩
  · obtain ⟨s, run, hqueued, hpasses⟩ := manyUnlinksRun_passes (Nat.mod_self (2 ^ 64))
    refine ⟨2 ^ 64, s, run,
      mem_append_left _ (mem_flatten.mpr ⟨unlinkRun, ?_, by decide⟩), hqueued, hpasses⟩
    exact mem_replicate.mpr ⟨(Nat.two_pow_pos 64).ne', rfl⟩

/-! ### What the published unlinks leave behind -/

/-- No unlink comes to its `CHECK`, the published unlinks are pending or have finished, and an
instance is let in unless an unlink was published that no link has answered. -/
theorem unlinks_accounted {decodeAddress : Id → String} {trace : List (Event Id)} {s : State Id}
    (run : Reaches State.step (State.start decodeAddress) trace s) (name : String) :
    (∀ event, s.step event ≠ .error .checkFailed) ∧
      s.pendingUnlinks name + finished name trace = published name trace ∧
      (name ∉ s.unlinkedInstances ↔ .publishUnlink name ∉ trace ∨ Relinked trace name) :=
  ⟨step_ne_checkFailed run, (inv_of_run run).pending name, (inv_of_run run).unlinked name⟩

theorem unlinks_accounted_overtaking : ∃ s,
    Reaches State.step (State.start fun _ : Unit => "decode") overtakingRun s ∧
      s.pendingUnlinks "decode" + finished "decode" overtakingRun =
        published "decode" overtakingRun := by
  obtain ⟨s, run⟩ := Reaches.of_isOk State.step (State.start fun _ : Unit => "decode")
    overtakingRun (by decide +kernel)
  exact ⟨s, run, (unlinks_accounted run "decode").2.1⟩

end Xllm.Scheduler.LinkEpochs
