import Xllm.Scheduler.ReservationLedger

/-!
# The maps of the registry and the ledger, step by step

`OneRelation` says that the three maps of the registry describe one set of pairs of a request and its
instance. `Ledger` accounts for every object. Neither is kept without the other: an instance is unlinked
by the third map and its objects are released by the first, and a request registers under an id that the
ledger knows to be free.
-/

namespace Xllm.Scheduler

open Xllm.Lib Xllm.Framework List

/-! ## One relation

The source writes the three maps in separate statements. A pair enters them in `register` and leaves in
`takeWaitingRequest`, which also drops an instance whose last request it takes. -/

/-- The two maps over request ids have the same keys, the third is the inverse of the second, and no
instance is left with nothing. -/
structure OneRelation (w : World) : Prop where
  keys : ∀ q, (w.requestToInstanceMap.lookup q).isSome = (w.receivedRequestMap.lookup q).isSome
  inverse : ∀ q name, w.requestToInstanceMap.lookup q = some name ↔
    ∃ reqIds, w.instanceToReceivedRequestsMap.lookup name = some reqIds ∧ q ∈ reqIds
  nonempty : ∀ name reqIds, w.instanceToReceivedRequestsMap.lookup name = some reqIds → reqIds ≠ []
  nodup : ∀ name reqIds, w.instanceToReceivedRequestsMap.lookup name = some reqIds → reqIds.Nodup

theorem OneRelation.init : OneRelation .init where
  keys _ := rfl
  inverse q name := by simp [World.init]
  nonempty _ _ h := nomatch h
  nodup _ _ h := nomatch h

variable {w w' : World}

theorem OneRelation.congr (h : OneRelation w)
    (hreceived : w'.receivedRequestMap = w.receivedRequestMap)
    (hinstance : w'.requestToInstanceMap = w.requestToInstanceMap)
    (hrequests : w'.instanceToReceivedRequestsMap = w.instanceToReceivedRequestsMap) :
    OneRelation w' where
  keys := by rw [hreceived, hinstance]; exact h.keys
  inverse := by rw [hinstance, hrequests]; exact h.inverse
  nonempty := by rw [hrequests]; exact h.nonempty
  nodup := by rw [hrequests]; exact h.nodup

/-- The instances of `w'` have the requests they had, without one. -/
theorem takeWaitingRequest_lookup (h : OneRelation w) (q name : String) (reqIds : List String) :
    (w.takeWaitingRequest q).instanceToReceivedRequestsMap.lookup name = some reqIds ↔
      reqIds ≠ [] ∧ ∃ old, w.instanceToReceivedRequestsMap.lookup name = some old ∧
        reqIds = old.filter fun other => other ≠ q := by
  have hstay : ∀ old, w.instanceToReceivedRequestsMap.lookup name = some old → q ∉ old →
      old.filter (fun other => other ≠ q) = old := by
    intro old _ hq
    apply filter_eq_self.mpr
    intro other hother
    simp only [ne_eq, decide_not, Bool.not_eq_true', decide_eq_false_iff_not]
    intro heq
    exact hq (heq ▸ hother)
  -- an instance that does not have the request keeps its set
  have helse : (∀ old, w.instanceToReceivedRequestsMap.lookup name = some old → q ∉ old) →
      (w.instanceToReceivedRequestsMap.lookup name = some reqIds ↔
        reqIds ≠ [] ∧ ∃ old, w.instanceToReceivedRequestsMap.lookup name = some old ∧
          reqIds = old.filter fun other => other ≠ q) := by
    intro hq
    constructor
    · intro hname
      exact ⟨h.nonempty name reqIds hname, reqIds, hname,
        (hstay reqIds hname (hq reqIds hname)).symm⟩
    · rintro ⟨-, old, hname, heq⟩
      rw [heq, hstay old hname (hq old hname)]
      exact hname
  unfold World.takeWaitingRequest
  cases howner : w.requestToInstanceMap.lookup q with
  | none =>
    apply helse
    intro old hname hmem
    have := (h.inverse q name).mpr ⟨old, hname, hmem⟩
    rw [howner] at this
    cases this
  | some owner =>
    obtain ⟨old, hold, hmem⟩ := (h.inverse q owner).mp howner
    dsimp only
    rw [hold]
    by_cases hname : name = owner
    · rw [hname, lookup_put_self, hold]
      constructor
      · intro hrest
        split at hrest
        · cases hrest
        · next hne =>
          rw [Option.some_inj] at hrest
          rw [← hrest]
          exact ⟨hne, old, rfl, rfl⟩
      · rintro ⟨hne, old', heq', heq⟩
        rw [Option.some_inj] at heq'
        rw [← heq'] at heq
        rw [← heq, if_neg hne]
    · rw [lookup_put_ne w.instanceToReceivedRequestsMap _ hname]
      apply helse
      intro old' hold' hmem'
      have := (h.inverse q name).mpr ⟨old', hold', hmem'⟩
      rw [howner, Option.some_inj] at this
      exact hname this.symm

theorem OneRelation.takeWaitingRequest (h : OneRelation w) (q : String) :
    OneRelation (w.takeWaitingRequest q) where
  keys q' := by
    show ((w.requestToInstanceMap.erase q).lookup q').isSome =
      ((w.receivedRequestMap.erase q).lookup q').isSome
    by_cases heq : q' = q
    · rw [heq, AList.lookup_erase, AList.lookup_erase]
      rfl
    · rw [AList.lookup_erase_ne heq, AList.lookup_erase_ne heq]
      exact h.keys q'
  inverse q' name := by
    show (w.requestToInstanceMap.erase q).lookup q' = some name ↔ _
    simp only [takeWaitingRequest_lookup h]
    rw [lookup_erase_eq_some, h.inverse]
    constructor
    · rintro ⟨hne, old, hname, hmem⟩
      have hmem' : q' ∈ old.filter fun other => other ≠ q :=
        mem_filter.mpr ⟨hmem, by simpa using hne⟩
      exact ⟨_, ⟨ne_nil_of_mem hmem', old, hname, rfl⟩, hmem'⟩
    · rintro ⟨reqIds, ⟨-, old, hname, rfl⟩, hmem⟩
      obtain ⟨hmem, hne⟩ := mem_filter.mp hmem
      exact ⟨by simpa using hne, old, hname, hmem⟩
  nonempty name reqIds hname := ((takeWaitingRequest_lookup h q name reqIds).mp hname).1
  nodup name reqIds hname := by
    obtain ⟨-, old, hold, rfl⟩ := (takeWaitingRequest_lookup h q name reqIds).mp hname
    exact (h.nodup name old hold).filter _

variable {cfg : Config} {r : Nat}

/-- A new request joins the set of its instance, or starts one. -/
theorem OneRelation.register (h : OneRelation w)
    (name : String) (hfree : w.receivedRequestMap.lookup (cfg.requests r).requestId = none) :
    OneRelation (w.register cfg r name) := by
  generalize hq : (cfg.requests r).requestId = q at *
  have hnone : w.requestToInstanceMap.lookup q = none := by
    have := h.keys q
    rw [hfree] at this
    exact Option.isNone_iff_eq_none.mp (Option.isSome_eq_false_iff.mp this)
  have hnew : ∀ name reqIds, w.instanceToReceivedRequestsMap.lookup name = some reqIds →
      q ∉ reqIds := by
    intro name reqIds hname hmem
    have := (h.inverse q name).mpr ⟨reqIds, hname, hmem⟩
    rw [hnone] at this
    cases this
  have hinstance : (w.register cfg r name).requestToInstanceMap =
      w.requestToInstanceMap.insert q name := by rw [← hq]; rfl
  have hreceived : (w.register cfg r name).receivedRequestMap = w.receivedRequestMap.insert q r := by
    rw [← hq]; rfl
  have hrequests : (w.register cfg r name).instanceToReceivedRequestsMap =
      w.instanceToReceivedRequestsMap.insert name
        (((w.instanceToReceivedRequestsMap.lookup name).getD []).insert q) := by rw [← hq]; rfl
  have hlookup : ∀ name' reqIds, (w.register cfg r name).instanceToReceivedRequestsMap.lookup name' =
      some reqIds → (name' = name ∧
        reqIds = ((w.instanceToReceivedRequestsMap.lookup name).getD []).insert q) ∨
      (name' ≠ name ∧ w.instanceToReceivedRequestsMap.lookup name' = some reqIds) := by
    intro name' reqIds hname'
    rw [hrequests, lookup_insert_eq] at hname'
    split at hname'
    · next heq => exact Or.inl ⟨heq, (Option.some.inj hname').symm⟩
    · next hne => exact Or.inr ⟨hne, hname'⟩
  exact
    { keys := by
        intro q'
        rw [hinstance, hreceived, lookup_insert_eq, lookup_insert_eq]
        split
        · rfl
        · exact h.keys q'
      inverse := by
        intro q' name'
        rw [hinstance, lookup_insert_eq, hrequests]
        constructor
        · intro hq'
          rw [lookup_insert_eq]
          split at hq'
          · next heq =>
            rw [Option.some_inj] at hq'
            rw [if_pos hq'.symm]
            exact ⟨_, rfl, mem_insert_iff.mpr (Or.inl heq)⟩
          · obtain ⟨reqIds, hname', hmem⟩ := (h.inverse q' name').mp hq'
            split
            · next heq =>
              rw [heq] at hname'
              rw [hname', Option.getD_some]
              exact ⟨_, rfl, mem_insert_of_mem hmem⟩
            · exact ⟨reqIds, hname', hmem⟩
        · rintro ⟨reqIds, hname', hmem⟩
          rw [← hrequests] at hname'
          rcases hlookup name' reqIds hname' with ⟨heq, hreqIds⟩ | ⟨hne, hold⟩
          · rw [hreqIds] at hmem
            split
            · rw [heq]
            · next hne =>
              have hmem := (mem_insert_iff.mp hmem).resolve_left hne
              cases hold : w.instanceToReceivedRequestsMap.lookup name with
              | none =>
                rw [hold] at hmem
                cases hmem
              | some old =>
                rw [hold] at hmem
                exact (h.inverse q' name').mpr ⟨old, heq ▸ hold, hmem⟩
          · split
            · next heq => exact absurd (heq ▸ hmem) (hnew name' reqIds hold)
            · exact (h.inverse q' name').mpr ⟨reqIds, hold, hmem⟩
      nonempty := by
        intro name' reqIds hname'
        rcases hlookup name' reqIds hname' with ⟨-, hreqIds⟩ | ⟨-, hold⟩
        · rw [hreqIds]
          exact ne_nil_of_mem mem_insert_self
        · exact h.nonempty name' reqIds hold
      nodup := by
        intro name' reqIds hname'
        rcases hlookup name' reqIds hname' with ⟨-, hreqIds⟩ | ⟨-, hold⟩
        · rw [hreqIds]
          apply List.Nodup.insert
          cases hold : w.instanceToReceivedRequestsMap.lookup name with
          | none => exact nodup_nil
          | some old => exact h.nodup name old hold
        · exact h.nodup name' reqIds hold }

/-! ## Unlinking an instance

All the requests of an instance leave at once. The loop erases them from the first two maps and the
instance is erased after it, so the relation holds again only at the end. -/

theorem unlinkRequest_spec (w : World) (q : String) :
    (w.unlinkRequest q).receivedRequestMap = w.receivedRequestMap.erase q ∧
    (w.unlinkRequest q).requestToInstanceMap = w.requestToInstanceMap.erase q ∧
    (w.unlinkRequest q).instanceToReceivedRequestsMap = w.instanceToReceivedRequestsMap ∧
    (w.unlinkRequest q).cancelledReservations = w.cancelledReservations ∧
    (w.unlinkRequest q).calls = w.calls ∧ (w.unlinkRequest q).now = w.now ∧
    (w.unlinkRequest q).enqueued = w.enqueued := by
  unfold World.unlinkRequest
  dsimp only
  split
  · exact ⟨rfl, rfl, rfl, rfl, rfl, rfl, rfl⟩
  · unfold World.dropRef
    split <;> exact ⟨rfl, rfl, rfl, rfl, rfl, rfl, rfl⟩

theorem unlinkLoop_spec (reqIds : List String) :
    ∀ w : World, (∀ q, (reqIds.foldl World.unlinkRequest w).receivedRequestMap.lookup q =
        if q ∈ reqIds then none else w.receivedRequestMap.lookup q) ∧
      (∀ q, (reqIds.foldl World.unlinkRequest w).requestToInstanceMap.lookup q =
        if q ∈ reqIds then none else w.requestToInstanceMap.lookup q) ∧
      (reqIds.foldl World.unlinkRequest w).instanceToReceivedRequestsMap =
        w.instanceToReceivedRequestsMap ∧
      (reqIds.foldl World.unlinkRequest w).cancelledReservations = w.cancelledReservations ∧
      (reqIds.foldl World.unlinkRequest w).calls = w.calls ∧
      (reqIds.foldl World.unlinkRequest w).now = w.now ∧
      (reqIds.foldl World.unlinkRequest w).enqueued = w.enqueued := by
  induction reqIds with
  | nil => intro w; simp
  | cons q₀ reqIds ih =>
    intro w
    obtain ⟨hreceived, hinstance, hrequests, htombs, hcalls, hnow, henqueued⟩ :=
      unlinkRequest_spec w q₀
    obtain ⟨ihreceived, ihinstance, ihrequests, ihtombs, ihcalls, ihnow, ihenqueued⟩ :=
      ih (w.unlinkRequest q₀)
    have herase : ∀ {α : Type} (t : Table String α) q,
        (if q ∈ reqIds then none else (t.erase q₀).lookup q) =
          if q ∈ q₀ :: reqIds then none else t.lookup q := by
      intro α t q
      by_cases hmem : q ∈ reqIds
      · rw [if_pos hmem, if_pos (mem_cons_of_mem q₀ hmem)]
      · rw [if_neg hmem]
        by_cases heq : q = q₀
        · rw [heq, AList.lookup_erase, if_pos mem_cons_self]
        · rw [AList.lookup_erase_ne heq, if_neg (by simp [heq, hmem])]
    rw [foldl_cons]
    refine ⟨fun q => ?_, fun q => ?_, ihrequests.trans hrequests, ihtombs.trans htombs,
      ihcalls.trans hcalls, ihnow.trans hnow, ihenqueued.trans henqueued⟩
    · rw [ihreceived, hreceived]
      exact herase _ q
    · rw [ihinstance, hinstance]
      exact herase _ q

theorem OneRelation.unlinkInstance (h : OneRelation w) (name : String) :
    OneRelation (w.unlinkInstance name) := by
  unfold World.unlinkInstance
  split
  · exact h
  next reqIds hname =>
  obtain ⟨hreceived, hinstance, hrequests, -⟩ := unlinkLoop_spec reqIds w
  have hsub : ∀ name' old, (w.instanceToReceivedRequestsMap.erase name).lookup name' = some old →
      name' ≠ name ∧ w.instanceToReceivedRequestsMap.lookup name' = some old := fun name' old =>
    lookup_erase_eq_some.mp
  exact
    { keys := by
        intro q
        rw [hinstance, hreceived]
        split
        · rfl
        · exact h.keys q
      inverse := by
        intro q name'
        show (reqIds.foldl World.unlinkRequest w).requestToInstanceMap.lookup q = some name' ↔
          ∃ old, ((reqIds.foldl World.unlinkRequest w).instanceToReceivedRequestsMap.erase
            name).lookup name' = some old ∧ q ∈ old
        rw [hinstance, hrequests]
        constructor
        · intro hq
          split at hq
          · cases hq
          · next hnot =>
            obtain ⟨old, hold, hmem⟩ := (h.inverse q name').mp hq
            refine ⟨old, lookup_erase_eq_some.mpr ⟨fun heq => hnot ?_, hold⟩, hmem⟩
            rw [heq, hname, Option.some_inj] at hold
            exact hold ▸ hmem
        · rintro ⟨old, hold, hmem⟩
          obtain ⟨hne, hold⟩ := hsub name' old hold
          have hq := (h.inverse q name').mpr ⟨old, hold, hmem⟩
          rw [if_neg, hq]
          intro hmem'
          have hq' := (h.inverse q name).mpr ⟨reqIds, hname, hmem'⟩
          rw [hq, Option.some_inj] at hq'
          exact hne hq'
      nonempty := by
        intro name' old hold
        have hold : ((reqIds.foldl World.unlinkRequest w).instanceToReceivedRequestsMap.erase
          name).lookup name' = some old := hold
        rw [hrequests] at hold
        exact h.nonempty name' old (hsub name' old hold).2
      nodup := by
        intro name' old hold
        have hold : ((reqIds.foldl World.unlinkRequest w).instanceToReceivedRequestsMap.erase
          name).lookup name' = some old := hold
        rw [hrequests] at hold
        exact h.nodup name' old (hsub name' old hold).2 }

theorem Ledger.unlinkLoop (reqIds : List String) (hnodup : reqIds.Nodup) :
    ∀ w : World, Ledger cfg w → (∀ q ∈ reqIds, (w.receivedRequestMap.lookup q).isSome = true) →
      Ledger cfg (reqIds.foldl World.unlinkRequest w) := by
  induction reqIds with
  | nil => exact fun w h _ => h
  | cons q₀ reqIds ih =>
    intro w h hwaiting
    obtain ⟨hnot, hnodup⟩ := nodup_cons.mp hnodup
    apply ih hnodup _ (h.unlinkRequest (hwaiting q₀ mem_cons_self))
    intro q hq
    have hne : q ≠ q₀ := fun heq => hnot (heq ▸ hq)
    rw [(unlinkRequest_spec w q₀).1, AList.lookup_erase_ne hne]
    exact hwaiting q (mem_cons_of_mem q₀ hq)

theorem Ledger.unlinkInstance (h : Ledger cfg w) (hr : OneRelation w)
    (name : String) : Ledger cfg (w.unlinkInstance name) := by
  unfold World.unlinkInstance
  split
  · exact h
  · next reqIds hname =>
    have hloop := Ledger.unlinkLoop reqIds (hr.nodup name reqIds hname) w h fun q hq => by
      rw [← hr.keys, (hr.inverse q name).mpr ⟨reqIds, hname, hq⟩]
      rfl
    exact ⟨hloop.once, hloop.named, hloop.held, hloop.entryNamed, hloop.entrySeen, hloop.waiting,
      hloop.taken, hloop.claimedOnce, hloop.unclaimed, hloop.unseen⟩

/-! ## Every step

The ledger accounts for every object that was seen. An object under a call is in that call alone
(`Ledger.owning_unique`), which is why two calls cannot end it twice. -/

variable {id : Nat} {call : Call}

theorem Ledger.owning_unique (h : Ledger cfg w) {id' : Nat}
    {call' : Call} (hid : w.calls.lookup id = some call)
    (hid' : w.calls.lookup id' = some call') (howning : call.owning = true)
    (howning' : call'.owning = true) (hsame : call'.request = call.request) : id' = id := by
  by_contra hne
  have hone := (h.owes_pos hid howning).1
  have herase := tally_erase (fun _ c => Call.owes call.request c) w.calls id
  have hle := weigh_le_tally (fun _ c => Call.owes call.request c) (w.calls.erase id) id'
  rw [AList.lookup_erase_ne hne, hid', weigh_some, Call.owes, if_pos ⟨howning', hsame⟩] at hle
  rw [hid, weigh_some, Call.owes, if_pos ⟨howning, rfl⟩] at herase
  rw [World.owes] at hone
  omega

variable {label : Label}

theorem step_eq_ok :
    w.step cfg label = .ok w' ↔ w.now ≤ label.now ∧ w.Enabled label ∧
      w' = { w with now := label.now }.act cfg label := by
  unfold World.step
  split
  · next hclock =>
    simp only [reduceCtorEq, false_iff, not_and]
    omega
  next hclock =>
  split
  · next henabled =>
    simp only [Except.ok.injEq, henabled, true_and, eq_comm]
    exact ⟨fun h => ⟨by omega, h⟩, fun h => h.2⟩
  · next henabled => simp [henabled]

/-- The outcome of a push: the entry is erased for an object that comes back, or marked ready. -/
theorem Ledger.publish (h : Ledger cfg w) {enqueued : Bool}
    (hid : w.calls.lookup id = some (.pushed r enqueued)) :
    Ledger cfg (w.publish cfg id r enqueued) := by
  cases enqueued with
  | false =>
    have hgoOn : Ledger cfg (w.goOn id (.releasing r)) :=
      h.goOn hid rfl rfl (by simp [Call.taking]) fun _ => rfl
    have hwaiting := h.not_waiting_of_taking hid rfl
    refine hgoOn.eraseEntry hwaiting fun id' call hid' htaken heq => ?_
    by_cases hsame : id' = id
    · have hnow : (w.goOn id (.releasing r)).calls.lookup id = some (.releasing r) :=
        AList.lookup_insert w.calls
      rw [hsame, hnow, Option.some_inj] at hid'
      rw [← hid'] at htaken
      cases htaken
    · -- another call under this id would be restoring the same object
      have hold : w.calls.lookup id' = some call := (AList.lookup_insert_ne hsame).symm.trans hid'
      obtain ⟨e, he, her⟩ := h.taken id _ hid rfl
      obtain ⟨e', he', her'⟩ := h.taken id' call hold htaken
      rw [heq, show (cfg.requests r).requestId = (cfg.requests
        (Call.pushed r false).request).requestId from rfl, he, Option.some_inj] at he'
      have hrequest : call.request = (Call.pushed r false).request := by rw [← her', ← he', her]
      exact hsame (h.owning_unique hid hold rfl (Call.owning_of_taking htaken) hrequest)
  | true =>
    unfold World.publish
    rw [if_neg (by simp)]
    split
    · exact h.endCall hid rfl fun _ => rfl
    · next e he =>
      have hentry := h.setEntry { e with ready := true } he rfl fun hfalse => hfalse
      exact hentry.endCall hid rfl fun _ => rfl

/-- A waiting object is taken and owed by the call that releases it. -/
theorem Ledger.releaseReservation (h : Ledger cfg w)
    (hid : w.calls.lookup id = none) (reqId reservationId : String) (now : Nat) :
    Ledger cfg (w.releaseReservation cfg id reqId reservationId now).2 := by
  unfold World.releaseReservation
  split
  · exact h
  dsimp only
  have hprune := h.prune now
  have hid : (w.pruneCancelledReservations now).calls.lookup id = none := by
    unfold World.pruneCancelledReservations
    split <;> exact hid
  generalize w.pruneCancelledReservations now = w₁ at *
  split
  · exact { hprune with }
  next r hr =>
  split
  · exact { hprune with }
  · generalize htomb : ({ w₁ with
      cancelledReservations := w₁.cancelledReservations.insert (reservationKey reqId reservationId)
        (now + kCancellationTombstoneTtl) } : World) = w₂ at *
    have hr : w₂.receivedRequestMap.lookup reqId = some r := by rw [← htomb]; exact hr
    have h₂ : Ledger cfg w₂ := by
      rw [← htomb]
      exact { hprune with }
    have hid₂ : w₂.calls.lookup id = none := by rw [← htomb]; exact hid
    have htake : Ledger cfg ((w₂.takeWaitingRequest reqId).goOn id (.releasing r)) :=
      h₂.take hid₂ hr rfl rfl fun _ => rfl
    refine htake.eraseEntry (q := reqId) (AList.lookup_erase reqId _) fun id' call hid' htaken heq => ?_
    by_cases hsame : id' = id
    · have hnow : ((w₂.takeWaitingRequest reqId).goOn id (.releasing r)).calls.lookup id =
          some (.releasing r) := AList.lookup_insert w₂.calls
      rw [hsame, hnow, Option.some_inj] at hid'
      rw [← hid'] at htaken
      cases htaken
    · have hold : w₂.calls.lookup id' = some call := (AList.lookup_insert_ne hsame).symm.trans hid'
      have hnone := h₂.not_waiting_of_taking hold htaken
      rw [heq, hr] at hnone
      cases hnone

/-- Only an entry of an object that is gone expires; a live one is claimed once. -/
theorem Ledger.cancelRequest (h : Ledger cfg w)
    (hid : w.calls.lookup id = none) (cancellation : World.Cancellation) (terminal : Bool) :
    Ledger cfg (w.cancelRequest cfg id cancellation terminal).2 := by
  unfold World.cancelRequest
  split
  · exact h
  split
  · exact h
  split
  · exact h
  next e he =>
  split
  · next hexpired =>
    refine h.eraseEntry ?_ fun id call hcall htaken heq => ?_
    · cases hq : w.receivedRequestMap.lookup cancellation.reqId with
      | none => rfl
      | some r =>
        obtain ⟨e', he', her⟩ := h.waiting _ r hq
        rw [he, Option.some_inj] at he'
        rw [he', her, not_expired_of_registered hq] at hexpired
        cases hexpired
    · obtain ⟨e', he', her⟩ := h.taken id call hcall htaken
      rw [heq, he, Option.some_inj] at he'
      rw [he', her, not_expired_of_called hcall] at hexpired
      cases hexpired
  split
  · exact h
  split
  · exact h
  split
  · exact h
  split
  · exact h
  · next hcancel => exact h.claim hid he (by simpa using hcancel)

theorem Ledger.decodeSchedule (h : Ledger cfg w)
    (hid : w.calls.lookup id = none) (hr : r ∉ w.seen) (name : String) (now : Nat) :
    Ledger cfg (w.decodeSchedule cfg id r name now).2 := by
  unfold World.decodeSchedule
  dsimp only
  have hprune := h.prune now
  have hid : (w.pruneCancelledReservations now).calls.lookup id = none := by
    unfold World.pruneCancelledReservations
    split <;> exact hid
  have hr : r ∉ (w.pruneCancelledReservations now).seen := by
    unfold World.pruneCancelledReservations
    split <;> exact hr
  generalize w.pruneCancelledReservations now = w₁ at *
  split
  · exact hprune.refuse hid hr
  · next hfree =>
    rw [not_or] at hfree
    exact hprune.register hid hr (Bool.not_eq_true _ ▸ hfree.2)

theorem Ledger.resume (h : Ledger cfg w) (hid : w.calls.lookup id = some call) (answer : Bool) :
    Ledger cfg (w.resume cfg id answer call) := by
  cases call with
  | scheduled r => exact h.endCall hid rfl fun _ => rfl
  | preparing r gen =>
    unfold World.resume
    dsimp only
    split
    · exact h.goOn hid rfl rfl (fun _ => rfl) fun _ => rfl
    · exact h.releaseEnd hid rfl fun _ => rfl
  | writing r =>
    unfold World.resume
    dsimp only
    split
    · exact h.enqueue hid
    · exact h.goOn hid rfl rfl (fun _ => rfl) fun _ => rfl
  | pushed r enqueued => exact h.publish hid
  | releasing r => exact h.releaseEnd hid rfl fun _ => rfl
  | submitting r => exact h.submit hid

theorem Ledger.step (h : Ledger cfg w) (hr : OneRelation w)
    (hstep : w.step cfg label = .ok w') : Ledger cfg w' := by
  obtain ⟨-, henabled, rfl⟩ := step_eq_ok.mp hstep
  have h : Ledger cfg { w with now := label.now } := { h with }
  have hr : OneRelation { w with now := label.now } := { hr with }
  have henabled : ({ w with now := label.now } : World).Enabled label := henabled
  generalize ({ w with now := label.now } : World) = w₁ at *
  cases label with
  | decodeSchedule id r name now =>
    exact h.decodeSchedule henabled.1 henabled.2 name now
  | recvFirstGeneration id reqId gen now =>
    unfold World.act World.recvFirstGeneration
    dsimp only
    split
    · exact h
    · next r hq =>
      exact h.take henabled hq rfl rfl fun _ => rfl
  | releaseReservation id reqId reservationId now =>
    exact h.releaseReservation henabled reqId reservationId now
  | cancelRequest id cancellation terminal now =>
    exact h.cancelRequest henabled cancellation terminal
  | unlinkInstance name now =>
    exact h.unlinkInstance hr name
  | resume id answer now =>
    unfold World.act
    dsimp only
    split
    · exact h
    · next call hid =>
      exact h.resume hid answer
  | finish r now =>
    exact { h with }

end Xllm.Scheduler
