import Xllm.Scheduler.DecodeReservations

/-!
# What becomes of every reservation

Every request object that `decode_schedule` has seen is in one place: it waits in the registry, a call
in flight is going to end it, it has been pushed to the queue, its blocks have been freed, or the
registry dropped it while a caller still had a reference. `Ledger` says so by counting the places
(`World.account`), and that the cancellation entries are those of the requests that wait or are being
restored; a step changes the places of at most one object, except that an unlinked instance gives up one
object per turn of its loop.
-/

namespace Xllm.Scheduler

open Xllm.Lib Xllm.Framework List

/-! ## Places -/

/-- The first generation has taken the request, and has not pushed it yet. -/
def Call.taking : Call → Bool
  | preparing _ _ | writing _ | pushed _ false => true
  | _ => false

/-- The call is going to end the request. -/
def Call.owning : Call → Bool
  | releasing _ => true
  | call => call.taking

def Call.owes (r : Nat) (call : Call) : Nat := if call.owning ∧ call.request = r then 1 else 0

/-- The call is going to submit a cancellation. -/
def Call.claims (r : Nat) : Call → Nat
  | submitting r' => if r' = r then 1 else 0
  | _ => 0

namespace World

/-- How often the registry has the object. -/
def waits (w : World) (r : Nat) : Nat :=
  tally (fun _ r' => if r' = r then 1 else 0) w.receivedRequestMap

def owes (w : World) (r : Nat) : Nat := tally (fun _ call => Call.owes r call) w.calls

/-- In how many places the object is. -/
def account (w : World) (r : Nat) : Nat :=
  w.waits r + w.owes r + w.enqueued.count r + w.released.count r + w.dropped.count r

/-- How many cancellations of the object have been submitted or are going to be. -/
def claims (w : World) (r : Nat) : Nat :=
  w.submitted.count r + tally (fun _ call => Call.claims r call) w.calls

end World

structure Ledger (cfg : Config) (w : World) : Prop where
  once : ∀ r, w.account r = if r ∈ w.seen then 1 else 0
  named : ∀ q r, w.receivedRequestMap.lookup q = some r → (cfg.requests r).requestId = q
  held : ∀ r ∈ w.dropped, w.called r = true
  entryNamed : ∀ q e, w.decodeCancellationEntries.lookup q = some e →
    (cfg.requests e.request).requestId = q
  entrySeen : ∀ q e, w.decodeCancellationEntries.lookup q = some e → e.request ∈ w.seen
  waiting : ∀ q r, w.receivedRequestMap.lookup q = some r →
    ∃ e, w.decodeCancellationEntries.lookup q = some e ∧ e.request = r
  taken : ∀ id call, w.calls.lookup id = some call → call.taking = true →
    ∃ e, w.decodeCancellationEntries.lookup (cfg.requests call.request).requestId = some e ∧
      e.request = call.request
  claimedOnce : ∀ r, w.claims r ≤ 1
  unclaimed : ∀ q e, w.decodeCancellationEntries.lookup q = some e → e.cancelRequested = false →
    w.claims e.request = 0
  unseen : ∀ r, r ∉ w.seen → w.claims r = 0

theorem Ledger.init (cfg : Config) : Ledger cfg .init where
  once _ := rfl
  named _ _ h := nomatch h
  held _ h := nomatch h
  entryNamed _ _ h := nomatch h
  entrySeen _ _ h := nomatch h
  waiting _ _ h := nomatch h
  taken _ _ h := nomatch h
  claimedOnce _ := Nat.zero_le _
  unclaimed _ _ h := nomatch h
  unseen _ _ := rfl

/-! ## References -/

variable {w : World} {r : Nat}

theorem called_iff :
    w.called r = true ↔ ∃ id call, w.calls.lookup id = some call ∧ call.request = r := by
  simp only [World.called, anyEntry_iff, beq_iff_eq]

theorem registered_iff :
    w.registered r = true ↔ ∃ q, w.receivedRequestMap.lookup q = some r := by
  simp [World.registered, anyEntry_iff]

theorem expired_spec (h : w.expired r = true) :
    w.called r = false ∧ w.registered r = false := by
  rw [World.expired, Bool.and_eq_true, Bool.and_eq_true, Bool.not_eq_true', Bool.not_eq_true'] at h
  exact h.1

variable {id : Nat} {call : Call}

theorem not_expired_of_called
    (h : w.calls.lookup id = some call) : w.expired call.request = false := by
  cases hexpired : w.expired call.request with
  | false => rfl
  | true =>
    have hcalled : w.called call.request = true := called_iff.mpr ⟨id, call, h, rfl⟩
    exact absurd hcalled (by rw [(expired_spec hexpired).1]; simp)

variable {q : String}

theorem not_expired_of_registered
    (h : w.receivedRequestMap.lookup q = some r) : w.expired r = false := by
  cases hexpired : w.expired r with
  | false => rfl
  | true =>
    have hregistered : w.registered r = true := registered_iff.mpr ⟨q, h⟩
    exact absurd hregistered (by rw [(expired_spec hexpired).2]; simp)

variable {cfg : Config}

/-! ## Where a request is -/

/-- A request that waits is nowhere else. -/
theorem Ledger.waits_pos (h : Ledger cfg w) (hq : w.receivedRequestMap.lookup q = some r) :
    w.waits r = 1 ∧ w.owes r = 0 ∧ w.dropped.count r = 0 := by
  have hle := weigh_le_tally (fun _ r' => if r' = r then 1 else 0) w.receivedRequestMap q
  rw [hq, weigh_some, if_pos rfl] at hle
  have hle : 1 ≤ w.waits r := hle
  have honce := h.once r
  rw [World.account] at honce
  split at honce <;> omega

/-- So is a request that a call is going to end. -/
theorem Ledger.owes_pos (h : Ledger cfg w)
    (hid : w.calls.lookup id = some call) (howning : call.owning = true) :
    w.owes call.request = 1 ∧ w.waits call.request = 0 ∧ w.dropped.count call.request = 0 := by
  have hle := weigh_le_tally (fun _ c => Call.owes call.request c) w.calls id
  rw [hid, weigh_some, Call.owes, if_pos ⟨howning, rfl⟩] at hle
  have hle : 1 ≤ w.owes call.request := hle
  have honce := h.once call.request
  rw [World.account] at honce
  split at honce <;> omega

theorem Call.owning_of_taking (h : call.taking = true) : call.owning = true := by
  cases call with
  | releasing r => rfl
  | _ => exact h

/-- The request a call has taken does not wait under its id any more, and neither does another. -/
theorem Ledger.not_waiting_of_taking (h : Ledger cfg w)
    (hid : w.calls.lookup id = some call) (htaking : call.taking = true) :
    w.receivedRequestMap.lookup (cfg.requests call.request).requestId = none := by
  cases hq : w.receivedRequestMap.lookup (cfg.requests call.request).requestId with
  | none => rfl
  | some r =>
    obtain ⟨e, he, her⟩ := h.waiting _ r hq
    obtain ⟨e', he', her'⟩ := h.taken id call hid htaking
    rw [he, Option.some_inj] at he'
    rw [← he', her] at her'
    have howes := h.owes_pos hid (Call.owning_of_taking htaking)
    rw [← her'] at howes
    have hwaits := h.waits_pos hq
    omega

/-! ## Objects on their way -/

/-- The ledger in the middle of a step: the objects in `hand` are in no place, and the cancellations
in `claimed` are with no call. -/
structure Books (cfg : Config) (w : World) (hand claimed : List Nat) : Prop where
  once : ∀ r, w.account r + hand.count r = if r ∈ w.seen then 1 else 0
  named : ∀ q r, w.receivedRequestMap.lookup q = some r → (cfg.requests r).requestId = q
  held : ∀ r ∈ w.dropped, w.called r = true
  entryNamed : ∀ q e, w.decodeCancellationEntries.lookup q = some e →
    (cfg.requests e.request).requestId = q
  entrySeen : ∀ q e, w.decodeCancellationEntries.lookup q = some e → e.request ∈ w.seen
  waiting : ∀ q r, w.receivedRequestMap.lookup q = some r →
    ∃ e, w.decodeCancellationEntries.lookup q = some e ∧ e.request = r
  taken : ∀ id call, w.calls.lookup id = some call → call.taking = true →
    ∃ e, w.decodeCancellationEntries.lookup (cfg.requests call.request).requestId = some e ∧
      e.request = call.request
  claimedOnce : ∀ r, w.claims r + claimed.count r ≤ 1
  unclaimed : ∀ q e, w.decodeCancellationEntries.lookup q = some e → e.cancelRequested = false →
    w.claims e.request + claimed.count e.request = 0
  unseen : ∀ r, r ∉ w.seen → w.claims r + claimed.count r = 0

theorem Ledger.books (h : Ledger cfg w) : Books cfg w [] [] := { h with }

theorem Books.ledger (h : Books cfg w [] []) : Ledger cfg w := { h with }

variable {hand hand' claimed claimed' : List Nat} {next : Option Call}

/-- Calls that keep their objects keep the references. -/
theorem called_put (hsame : ∀ call, w.calls.lookup id = some call → call.request = r →
      ∃ call', next = some call' ∧ call'.request = r) (h : w.called r = true) :
    World.called { w with calls := put w.calls id next } r = true := by
  obtain ⟨id', call, hid', hr⟩ := called_iff.mp h
  refine called_iff.mpr ?_
  by_cases hid : id' = id
  · obtain ⟨call', hnext, hr'⟩ := hsame call (hid ▸ hid') hr
    exact ⟨id, call', (lookup_put_self w.calls id next).trans hnext, hr'⟩
  · exact ⟨id', call, (lookup_put_ne w.calls next hid).trans hid', hr⟩

/-- A call goes on or returns; what it was going to do is in hand, or was. -/
theorem Books.move (h : Books cfg w hand claimed) (next : Option Call)
    (hhand : ∀ r, hand'.count r + weigh (fun _ call => Call.owes r call) id next =
      hand.count r + weigh (fun _ call => Call.owes r call) id (w.calls.lookup id))
    (hclaimed : ∀ r, claimed'.count r + weigh (fun _ call => Call.claims r call) id next =
      claimed.count r + weigh (fun _ call => Call.claims r call) id (w.calls.lookup id))
    (hheld : ∀ r ∈ w.dropped, World.called { w with calls := put w.calls id next } r = true)
    (htaken : ∀ call, next = some call → call.taking = true →
      ∃ e, w.decodeCancellationEntries.lookup (cfg.requests call.request).requestId = some e ∧
        e.request = call.request) :
    Books cfg { w with calls := put w.calls id next } hand' claimed' := by
  have hclaims : ∀ r, World.claims { w with calls := put w.calls id next } r + claimed'.count r =
      w.claims r + claimed.count r := by
    intro r
    have hput := tally_put (fun _ call => Call.claims r call) w.calls id next
    have hclaimed := hclaimed r
    unfold World.claims
    dsimp only
    omega
  exact
    { h with
      once := by
        intro r
        have howes := tally_put (fun _ call => Call.owes r call) w.calls id next
        have hhand := hhand r
        have honce := h.once r
        unfold World.account World.owes at honce ⊢
        rw [← honce]
        show w.waits r + tally _ (put w.calls id next) + w.enqueued.count r + w.released.count r +
          w.dropped.count r + _ = _
        omega
      held := hheld
      taken := by
        intro id' call hid' htaking
        by_cases hid : id' = id
        · exact htaken call ((lookup_put_self w.calls id next).symm.trans (hid ▸ hid')) htaking
        · exact h.taken id' call ((lookup_put_ne w.calls next hid).symm.trans hid') htaking
      claimedOnce := fun r => (hclaims r).trans_le (h.claimedOnce r)
      unclaimed := fun q e hq hcancel => (hclaims e.request).trans (h.unclaimed q e hq hcancel)
      unseen := fun r hr => (hclaims r).trans (h.unseen r hr) }

theorem Books.begin (h : Books cfg w hand claimed) {call : Call} (hid : w.calls.lookup id = none)
    (hhand : ∀ r, hand'.count r + Call.owes r call = hand.count r)
    (hclaimed : ∀ r, claimed'.count r + Call.claims r call = claimed.count r)
    (htaken : call.taking = true →
      ∃ e, w.decodeCancellationEntries.lookup (cfg.requests call.request).requestId = some e ∧
        e.request = call.request) : Books cfg (w.goOn id call) hand' claimed' := by
  refine h.move (some call) (fun r => ?_) (fun r => ?_) (fun r hr => ?_) fun call' hcall => ?_
  · rw [hid]
    exact hhand r
  · rw [hid]
    exact hclaimed r
  · refine called_put (fun call' hcall => ?_) (h.held r hr)
    exact nomatch hid.symm.trans hcall
  · cases hcall
    exact htaken

/-- Objects in hand go to a list, or from one to another. -/
theorem Books.place (h : Books cfg w hand claimed) {enqueued released dropped : List Nat}
    (hplace : ∀ r, enqueued.count r + released.count r + dropped.count r + hand'.count r =
      w.enqueued.count r + w.released.count r + w.dropped.count r + hand.count r)
    (hheld : ∀ r ∈ dropped, w.called r = true) :
    Books cfg { w with enqueued := enqueued, released := released, dropped := dropped } hand'
      claimed :=
  { h with
    once := by
      intro r
      have hplace := hplace r
      have honce := h.once r
      unfold World.account at honce ⊢
      show w.waits r + w.owes r + _ + _ + _ + _ = _
      dsimp only
      omega
    held := hheld }

theorem Books.release (h : Books cfg w (r :: hand) claimed) :
    Books cfg (w.release r) hand claimed := by
  refine h.place (fun r' => ?_) h.held
  rw [count_cons, count_cons]
  omega

theorem Books.dropped_le (h : Books cfg w hand claimed) (r : Nat) : w.dropped.count r ≤ 1 := by
  have honce := h.once r
  rw [World.account] at honce
  split at honce <;> omega

theorem Books.submit (h : Books cfg w hand (r :: claimed)) :
    Books cfg { w with submitted := r :: w.submitted } hand claimed := by
  have hclaims : ∀ r', World.claims { w with submitted := r :: w.submitted } r' + claimed.count r' =
      w.claims r' + (r :: claimed).count r' := by
    intro r'
    unfold World.claims
    dsimp only
    rw [count_cons, count_cons]
    omega
  exact
    { h with
      claimedOnce := fun r => (hclaims r).trans_le (h.claimedOnce r)
      unclaimed := fun q e hq hcancel => (hclaims e.request).trans (h.unclaimed q e hq hcancel)
      unseen := fun r hr => (hclaims r).trans (h.unseen r hr) }

/-- A call returns. The object whose last reference it was is freed. -/
theorem Books.endCall (h : Books cfg w hand claimed) (hid : w.calls.lookup id = some call)
    (hhand : ∀ r, hand'.count r = hand.count r + Call.owes r call)
    (hclaimed : ∀ r, claimed'.count r = claimed.count r + Call.claims r call) :
    Books cfg (w.endCall id call.request) hand' claimed' := by
  -- what another call has is still called
  have hother : ∀ r, call.request ≠ r → w.called r = true →
      World.called { w with calls := w.calls.erase id } r = true := by
    intro r hne hcalled
    show World.called { w with calls := put w.calls id none } r = true
    refine called_put (fun call' hcall hr => ?_) hcalled
    cases hid.symm.trans hcall
    exact absurd hr hne
  unfold World.endCall
  dsimp only
  split
  · next hdrop =>
    have hpos : 0 < w.dropped.count call.request := count_pos_iff.mpr hdrop.1
    have hplaced : Books cfg
        { w with
          released := call.request :: w.released
          dropped := w.dropped.erase call.request } hand claimed := by
      refine h.place (fun r => ?_) fun r hr => h.held r (mem_of_mem_erase hr)
      rw [count_cons, count_erase]
      by_cases heq : call.request = r
      · rw [heq] at hpos ⊢
        simp only [beq_self_eq_true, if_true]
        omega
      · rw [if_neg (by simpa using heq)]
        omega
    refine hplaced.move none (fun r => ?_) (fun r => ?_) (fun r hr => ?_) (by simp)
    · rw [hid]
      exact hhand r
    · rw [hid]
      exact hclaimed r
    · refine hother r ?_ (h.held r (mem_of_mem_erase hr))
      rintro rfl
      have hcount : 0 < (w.dropped.erase call.request).count call.request :=
        count_pos_iff.mpr hr
      have hle := h.dropped_le call.request
      rw [count_erase_self] at hcount
      omega
  · next hkeep =>
    refine h.move none (fun r => ?_) (fun r => ?_) (fun r hr => ?_) (by simp)
    · rw [hid]
      exact hhand r
    · rw [hid]
      exact hclaimed r
    · by_cases heq : call.request = r
      · subst heq
        exact not_not.mp fun hnot => hkeep ⟨hr, hnot⟩
      · exact hother r heq (h.held r hr)

theorem endCall_release (w : World) (id r : Nat) :
    (w.release r).endCall id r = (w.endCall id r).release r := by
  unfold World.endCall
  by_cases hdrop : r ∈ w.dropped ∧ ¬ World.called { w with calls := w.calls.erase id } r
  · rw [if_pos hdrop]
    exact if_pos hdrop
  · rw [if_neg hdrop]
    exact if_neg hdrop

theorem endCall_submit (w : World) (id r : Nat) :
    { w with submitted := r :: w.submitted }.endCall id r =
      { w.endCall id r with submitted := r :: (w.endCall id r).submitted } := by
  unfold World.endCall
  by_cases hdrop : r ∈ w.dropped ∧ ¬ World.called { w with calls := w.calls.erase id } r
  · rw [if_pos hdrop]
    exact if_pos hdrop
  · rw [if_neg hdrop]
    exact if_neg hdrop

/-! ## One call goes on -/

section Resume

variable {cfg : Config} {w : World} (h : Ledger cfg w) {id r : Nat}
include h

theorem Ledger.goOn {old next : Call} (hid : w.calls.lookup id = some old)
    (hrequest : next.request = old.request) (howning : next.owning = old.owning)
    (htaking : next.taking = true → old.taking = true)
    (hclaims : ∀ r, Call.claims r next = Call.claims r old) : Ledger cfg (w.goOn id next) := by
  refine (h.books.move (some next) (fun r => ?_) (fun r => ?_) (fun r hr => ?_) ?_).ledger
  · rw [hid, weigh_some, weigh_some, Call.owes, Call.owes, hrequest, howning]
  · rw [hid, weigh_some, weigh_some, hclaims]
  · refine called_put (fun call hcall hr => ⟨next, rfl, ?_⟩) (h.held r hr)
    cases hid.symm.trans hcall
    exact hrequest.trans hr
  · intro call hcall htaken
    cases hcall
    obtain ⟨e, he, her⟩ := h.taken id old hid (htaking htaken)
    rw [hrequest]
    exact ⟨e, he, her⟩

theorem Ledger.endCall {call : Call} (hid : w.calls.lookup id = some call)
    (howning : call.owning = false) (hclaims : ∀ r, Call.claims r call = 0) :
    Ledger cfg (w.endCall id call.request) := by
  refine (h.books.endCall hid (fun r => ?_) fun r => ?_).ledger
  · rw [Call.owes, howning]
    rfl
  · rw [hclaims]
    rfl

/-- A call frees the blocks of its request and returns. -/
theorem Ledger.releaseEnd {call : Call} (hid : w.calls.lookup id = some call)
    (howning : call.owning = true) (hclaims : ∀ r, Call.claims r call = 0) :
    Ledger cfg ((w.release call.request).endCall id call.request) := by
  rw [endCall_release]
  refine (Books.release (h.books.endCall hid (fun r => ?_) fun r => ?_)).ledger
  · rw [Call.owes, howning, count_cons]
    simp
  · rw [hclaims]
    rfl

theorem Ledger.enqueue (hid : w.calls.lookup id = some (.writing r)) :
    Ledger cfg ({ w with enqueued := r :: w.enqueued }.goOn id (.pushed r true)) := by
  have hinHand : Books cfg (w.goOn id (.pushed r true)) [r] [] := by
    refine h.books.move (some (.pushed r true)) (fun r' => ?_) (fun r' => ?_) (fun r' hr' => ?_) ?_
    · rw [hid, count_cons]
      simp [Call.owes, Call.owning, Call.taking, Call.request]
    · rw [hid]
      rfl
    · refine called_put (fun call hcall hr => ⟨_, rfl, ?_⟩) (h.held r' hr')
      cases hid.symm.trans hcall
      exact hr
    · intro call hcall htaken
      cases hcall
      cases htaken
  refine (hinHand.place (fun r' => ?_) hinHand.held).ledger
  show _ + w.released.count r' + w.dropped.count r' + _ =
    w.enqueued.count r' + w.released.count r' + w.dropped.count r' + _
  rw [count_cons, count_singleton, count_nil]
  omega

theorem Ledger.submit (hid : w.calls.lookup id = some (.submitting r)) :
    Ledger cfg ({ w with submitted := r :: w.submitted }.endCall id r) := by
  rw [endCall_submit]
  refine (Books.submit (h.books.endCall hid (fun r' => ?_) fun r' => ?_)).ledger
  · simp [Call.owes, Call.owning, Call.taking]
  · rw [count_cons, Call.claims]
    simp

end Resume

/-! ## Entries -/

/-- Nobody waits or is being restored under an id: its entry may go. -/
theorem Ledger.eraseEntry (h : Ledger cfg w) (hwaiting : w.receivedRequestMap.lookup q = none)
    (htaking : ∀ id call, w.calls.lookup id = some call → call.taking = true →
      (cfg.requests call.request).requestId ≠ q) :
    Ledger cfg { w with decodeCancellationEntries := w.decodeCancellationEntries.erase q } := by
  have hsub : ∀ q' e, (w.decodeCancellationEntries.erase q).lookup q' = some e →
      w.decodeCancellationEntries.lookup q' = some e := fun q' e hq' =>
    (lookup_erase_eq_some.mp hq').2
  exact
    { once := h.once
      named := h.named
      held := h.held
      entryNamed := fun q' e hq' => h.entryNamed q' e (hsub q' e hq')
      entrySeen := fun q' e hq' => h.entrySeen q' e (hsub q' e hq')
      waiting := by
        intro q' r hq'
        have hne : q' ≠ q := by
          intro heq
          rw [heq] at hq'
          exact nomatch hwaiting.symm.trans hq'
        obtain ⟨e, he, her⟩ := h.waiting q' r hq'
        exact ⟨e, (AList.lookup_erase_ne hne).trans he, her⟩
      taken := by
        intro id call hid htaken
        obtain ⟨e, he, her⟩ := h.taken id call hid htaken
        exact ⟨e, (AList.lookup_erase_ne (htaking id call hid htaken)).trans he, her⟩
      claimedOnce := h.claimedOnce
      unclaimed := fun q' e hq' => h.unclaimed q' e (hsub q' e hq')
      unseen := h.unseen }

/-- An entry is replaced by one for the same object that is no less cancelled. -/
theorem Ledger.setEntry (h : Ledger cfg w)
    {e : DecodeCancellationEntry} (e' : DecodeCancellationEntry)
    (hq : w.decodeCancellationEntries.lookup q = some e) (hrequest : e'.request = e.request)
    (hcancel : e'.cancelRequested = false → e.cancelRequested = false) :
    Ledger cfg
      { w with decodeCancellationEntries := w.decodeCancellationEntries.insert q e' } := by
  have hback : ∀ q' e₁, (w.decodeCancellationEntries.insert q e').lookup q' = some e₁ →
      ∃ e₀, w.decodeCancellationEntries.lookup q' = some e₀ ∧ e₁.request = e₀.request ∧
        (e₁.cancelRequested = false → e₀.cancelRequested = false) := by
    intro q' e₁ hq'
    rw [lookup_insert_eq] at hq'
    split at hq'
    · next heq =>
      cases hq'
      exact ⟨e, heq ▸ hq, hrequest, hcancel⟩
    · exact ⟨e₁, hq', rfl, id⟩
  have hforth : ∀ q' e₀, w.decodeCancellationEntries.lookup q' = some e₀ →
      ∃ e₁, (w.decodeCancellationEntries.insert q e').lookup q' = some e₁ ∧
        e₁.request = e₀.request := by
    intro q' e₀ hq'
    rw [lookup_insert_eq]
    split
    · next heq =>
      rw [heq, hq, Option.some_inj] at hq'
      exact ⟨e', rfl, hq' ▸ hrequest⟩
    · exact ⟨e₀, hq', rfl⟩
  exact
    { once := h.once
      named := h.named
      held := h.held
      entryNamed := by
        intro q' e₁ hq'
        obtain ⟨e₀, he₀, hsame, -⟩ := hback q' e₁ hq'
        rw [hsame]
        exact h.entryNamed q' e₀ he₀
      entrySeen := by
        intro q' e₁ hq'
        obtain ⟨e₀, he₀, hsame, -⟩ := hback q' e₁ hq'
        rw [hsame]
        exact h.entrySeen q' e₀ he₀
      waiting := by
        intro q' r hq'
        obtain ⟨e₀, he₀, her⟩ := h.waiting q' r hq'
        obtain ⟨e₁, he₁, hsame⟩ := hforth q' e₀ he₀
        exact ⟨e₁, he₁, hsame.trans her⟩
      taken := by
        intro id call hid htaken
        obtain ⟨e₀, he₀, her⟩ := h.taken id call hid htaken
        obtain ⟨e₁, he₁, hsame⟩ := hforth _ e₀ he₀
        exact ⟨e₁, he₁, hsame.trans her⟩
      claimedOnce := h.claimedOnce
      unclaimed := by
        intro q' e₁ hq' hfalse
        obtain ⟨e₀, he₀, hsame, hless⟩ := hback q' e₁ hq'
        rw [hsame]
        exact h.unclaimed q' e₀ he₀ (hless hfalse)
      unseen := h.unseen }

/-- Pruning drops the entries of expired objects only. -/
theorem Ledger.prune (h : Ledger cfg w) (now : Nat) :
    Ledger cfg (w.pruneCancelledReservations now) := by
  unfold World.pruneCancelledReservations
  split
  · exact h
  have hlookup : ∀ q, (keepEntries (fun _ entry => !w.expired entry.request)
      w.decodeCancellationEntries).lookup q = (w.decodeCancellationEntries.lookup q).filter
        fun entry => !w.expired entry.request :=
    lookup_keepEntries _ w.decodeCancellationEntries
  have hsub : ∀ q e, (keepEntries (fun _ entry => !w.expired entry.request)
      w.decodeCancellationEntries).lookup q = some e →
      w.decodeCancellationEntries.lookup q = some e := by
    intro q e hq
    rw [hlookup, Option.filter_eq_some_iff] at hq
    exact hq.1
  have hkeep : ∀ q e, w.decodeCancellationEntries.lookup q = some e →
      w.expired e.request = false → (keepEntries (fun _ entry => !w.expired entry.request)
      w.decodeCancellationEntries).lookup q = some e := by
    intro q e hq halive
    rw [hlookup, Option.filter_eq_some_iff]
    exact ⟨hq, by rw [halive]; rfl⟩
  exact
    { once := h.once
      named := h.named
      held := h.held
      entryNamed := fun q e hq => h.entryNamed q e (hsub q e hq)
      entrySeen := fun q e hq => h.entrySeen q e (hsub q e hq)
      waiting := by
        intro q r hq
        obtain ⟨e, he, her⟩ := h.waiting q r hq
        exact ⟨e, hkeep q e he (her ▸ not_expired_of_registered hq), her⟩
      taken := by
        intro id call hid htaken
        obtain ⟨e, he, her⟩ := h.taken id call hid htaken
        exact ⟨e, hkeep _ e he (her ▸ not_expired_of_called hid), her⟩
      claimedOnce := h.claimedOnce
      unclaimed := fun q e hq => h.unclaimed q e (hsub q e hq)
      unseen := h.unseen }

/-- A cancellation is claimed: its entry says so from here on. -/
theorem Ledger.claim (h : Ledger cfg w)
    (hid : w.calls.lookup id = none) {e : DecodeCancellationEntry}
    (hq : w.decodeCancellationEntries.lookup q = some e) (hcancel : e.cancelRequested = false) :
    Ledger cfg ({ w with
      decodeCancellationEntries := w.decodeCancellationEntries.insert q
        { e with cancelRequested := true } }.goOn id (.submitting e.request)) := by
  have hentry := h.setEntry { e with cancelRequested := true } hq rfl (by simp)
  have hzero : w.claims e.request = 0 := h.unclaimed q e hq hcancel
  have hone : ∀ r, r ≠ e.request → [e.request].count r = 0 := fun r hne =>
    count_eq_zero.mpr (by simpa using hne)
  have hclaimed : Books cfg { w with
      decodeCancellationEntries := w.decodeCancellationEntries.insert q
        { e with cancelRequested := true } } [] [e.request] :=
    { hentry.books with
      claimedOnce := by
        intro r
        by_cases heq : r = e.request
        · rw [heq, count_singleton_self]
          exact Nat.succ_le_succ hzero.le
        · rw [hone r heq]
          exact h.claimedOnce r
      unclaimed := by
        intro q' e' hq' hfalse
        rw [hone, hentry.unclaimed q' e' hq' hfalse]
        -- an entry for the object that was claimed is the one that is cancelled
        intro heq
        have hname' := hentry.entryNamed q' e' hq'
        rw [heq, h.entryNamed q e hq] at hname'
        rw [← hname', AList.lookup_insert, Option.some_inj] at hq'
        rw [← hq'] at hfalse
        cases hfalse
      unseen := by
        intro r hr
        rw [hone, hentry.unseen r hr]
        rintro rfl
        exact hr (h.entrySeen q e hq) }
  refine (hclaimed.begin hid (fun _ => rfl) (fun r => ?_) (by simp [Call.taking])).ledger
  rw [count_cons, Call.claims]
  simp

/-! ## The registry -/

theorem Ledger.unregister (h : Ledger cfg w) (hq : w.receivedRequestMap.lookup q = some r) :
    Books cfg { w with receivedRequestMap := w.receivedRequestMap.erase q } [r] [] := by
  have hsub : ∀ q' r', (w.receivedRequestMap.erase q).lookup q' = some r' →
      w.receivedRequestMap.lookup q' = some r' := fun q' r' hq' =>
    (lookup_erase_eq_some.mp hq').2
  exact
    { h.books with
      once := by
        intro r'
        have hwaits := tally_erase (fun _ r => if r = r' then 1 else 0) w.receivedRequestMap q
        rw [hq, weigh_some] at hwaits
        rw [← h.once r', World.account, World.account, World.waits, World.waits, ← hwaits,
          count_singleton]
        show _ + w.owes r' + _ + _ + _ + _ = _
        simp only [beq_iff_eq]
        omega
      named := fun q' r' hq' => h.named q' r' (hsub q' r' hq')
      waiting := fun q' r' hq' => h.waiting q' r' (hsub q' r' hq') }

theorem Ledger.take (h : Ledger cfg w) {next : Call} (hid : w.calls.lookup id = none)
    (hq : w.receivedRequestMap.lookup q = some r) (hrequest : next.request = r)
    (howning : next.owning = true) (hclaims : ∀ r, Call.claims r next = 0) :
    Ledger cfg ((w.takeWaitingRequest q).goOn id next) := by
  have hout : Books cfg (w.takeWaitingRequest q) [r] [] := { h.unregister hq with }
  refine (hout.begin hid (fun r' => ?_) (fun r' => ?_) fun _ => ?_).ledger
  · rw [Call.owes, howning, hrequest, count_singleton]
    simp
  · rw [hclaims]
    rfl
  · rw [hrequest, h.named q r hq]
    exact h.waiting q r hq

theorem Books.dropRef (h : Books cfg w (r :: hand) claimed) :
    Books cfg (w.dropRef r) hand claimed := by
  unfold World.dropRef
  split
  · next hcalled =>
    refine h.place (fun r' => ?_) fun r' hr' => ?_
    · rw [count_cons, count_cons]
      omega
    · rcases mem_cons.mp hr' with rfl | hr'
      · exact hcalled
      · exact h.held r' hr'
  · exact h.release

theorem dropRef_eraseEntry (w : World) (q : String) (r : Nat) :
    { w.dropRef r with
      decodeCancellationEntries := (w.dropRef r).decodeCancellationEntries.erase q } =
    World.dropRef { w with decodeCancellationEntries := w.decodeCancellationEntries.erase q } r := by
  unfold World.dropRef
  by_cases hcalled : w.called r = true
  · rw [if_pos hcalled]
    exact (if_pos hcalled).symm
  · rw [if_neg hcalled]
    exact (if_neg hcalled).symm

theorem Ledger.giveUp (h : Ledger cfg w) (hq : w.receivedRequestMap.lookup q = some r) :
    Ledger cfg (World.dropRef { w with
      receivedRequestMap := w.receivedRequestMap.erase q
      requestToInstanceMap := w.requestToInstanceMap.erase q
      decodeCancellationEntries := w.decodeCancellationEntries.erase q } r) := by
  have hout : Books cfg { w with
      receivedRequestMap := w.receivedRequestMap.erase q
      requestToInstanceMap := w.requestToInstanceMap.erase q } [r] [] := { h.unregister hq with }
  have hcalls : (World.dropRef { w with
        receivedRequestMap := w.receivedRequestMap.erase q
        requestToInstanceMap := w.requestToInstanceMap.erase q } r).calls = w.calls ∧
      (World.dropRef { w with
        receivedRequestMap := w.receivedRequestMap.erase q
        requestToInstanceMap := w.requestToInstanceMap.erase q } r).receivedRequestMap =
          w.receivedRequestMap.erase q := by
    unfold World.dropRef
    split
    · exact ⟨rfl, rfl⟩
    · exact ⟨rfl, rfl⟩
  have hgone := hout.dropRef.ledger.eraseEntry (q := q)
    (by rw [hcalls.2]; exact AList.lookup_erase q _) fun id call hid htaken heq => by
      have hnone := h.not_waiting_of_taking (hcalls.1 ▸ hid) htaken
      rw [heq, hq] at hnone
      cases hnone
  rw [dropRef_eraseEntry] at hgone
  exact hgone

theorem Ledger.unlinkRequest (h : Ledger cfg w)
    (hq : (w.receivedRequestMap.lookup q).isSome = true) : Ledger cfg (w.unlinkRequest q) := by
  unfold World.unlinkRequest
  split
  · next hnone => exact absurd hq (by rw [hnone]; simp)
  · next hsome => exact h.giveUp hsome

theorem Ledger.see (h : Ledger cfg w) (hr : r ∉ w.seen) :
    Books cfg { w with seen := r :: w.seen } [r] [] :=
  { h.books with
    once := by
      intro r'
      have honce : w.account r' = _ := h.once r'
      show w.account r' + _ = if r' ∈ r :: w.seen then 1 else 0
      rw [honce, count_singleton]
      by_cases heq : r = r'
      · subst heq
        simp [hr]
      · have hne : r' ≠ r := fun h => heq h.symm
        simp [heq, hne]
    entrySeen := fun q e hq => mem_cons_of_mem r (h.entrySeen q e hq)
    unseen := fun r' hr' => h.unseen r' fun hmem => hr' (mem_cons_of_mem r hmem) }

/-- Under an id that is no duplicate, nobody waits and nobody is being restored. -/
theorem Ledger.free_of_not_duplicate (h : Ledger cfg w)
    (hnew : w.isDuplicate q = false) : w.receivedRequestMap.lookup q = none ∧
      ∀ id call, w.calls.lookup id = some call → call.taking = true →
        (cfg.requests call.request).requestId ≠ q := by
  have hgone : ∀ e, w.decodeCancellationEntries.lookup q = some e → w.expired e.request = true := by
    intro e he
    rw [World.isDuplicate, he] at hnew
    simpa using hnew
  constructor
  · cases hq : w.receivedRequestMap.lookup q with
    | none => rfl
    | some r =>
      obtain ⟨e, he, her⟩ := h.waiting q r hq
      have hexpired := hgone e he
      rw [her, not_expired_of_registered hq] at hexpired
      cases hexpired
  · intro id call hcall htaken heq
    obtain ⟨e, he, her⟩ := h.taken id call hcall htaken
    rw [heq] at he
    have hexpired := hgone e he
    rw [her, not_expired_of_called hcall] at hexpired
    cases hexpired

/-- A request whose id nobody holds is registered. -/
theorem Ledger.register (h : Ledger cfg w) {name : String}
    (hid : w.calls.lookup id = none) (hr : r ∉ w.seen)
    (hnew : w.isDuplicate (cfg.requests r).requestId = false) :
    Ledger cfg ((World.register cfg { w with seen := r :: w.seen } r name).goOn id
      (.scheduled r)) := by
  obtain ⟨hfree, htaking⟩ := h.free_of_not_duplicate hnew
  have hsee := h.see hr
  have hentry : ∀ q e, (w.decodeCancellationEntries.insert (cfg.requests r).requestId
      { request := r }).lookup q = some e →
        (q = (cfg.requests r).requestId ∧ e = { request := r }) ∨
          w.decodeCancellationEntries.lookup q = some e := by
    intro q e hq
    rw [lookup_insert_eq] at hq
    split at hq
    · next heq =>
      cases hq
      exact Or.inl ⟨heq, rfl⟩
    · exact Or.inr hq
  have hregister : Books cfg (World.register cfg { w with seen := r :: w.seen } r name) [] [] :=
    { hsee with
      once := by
        intro r'
        have hwaits := tally_put (fun _ r => if r = r' then 1 else 0) w.receivedRequestMap
          (cfg.requests r).requestId (some r)
        rw [hfree, weigh_none, weigh_some] at hwaits
        have hwaits : World.waits (World.register cfg { w with seen := r :: w.seen } r name) r' + 0 =
            w.waits r' + if r = r' then 1 else 0 := hwaits
        have honce : w.account r' + [r].count r' = _ := hsee.once r'
        rw [count_singleton] at honce
        refine Eq.trans ?_ honce
        rw [World.account, World.account]
        show _ + w.owes r' + w.enqueued.count r' + w.released.count r' + w.dropped.count r' + 0 = _
        simp only [beq_iff_eq]
        omega
      named := by
        intro q r' hq
        have hq : (w.receivedRequestMap.insert (cfg.requests r).requestId r).lookup q = some r' := hq
        rw [lookup_insert_eq] at hq
        split at hq
        · next heq =>
          cases hq
          exact heq.symm
        · exact h.named q r' hq
      entryNamed := by
        intro q e hq
        rcases hentry q e hq with ⟨heq, he⟩ | hold
        · rw [he, heq]
        · exact h.entryNamed q e hold
      entrySeen := by
        intro q e hq
        rcases hentry q e hq with ⟨heq, he⟩ | hold
        · rw [he]
          exact mem_cons_self
        · exact hsee.entrySeen q e hold
      waiting := by
        intro q r' hq
        have hq : (w.receivedRequestMap.insert (cfg.requests r).requestId r).lookup q = some r' := hq
        show ∃ e, (w.decodeCancellationEntries.insert _ _).lookup q = some e ∧ _
        rw [lookup_insert_eq] at hq ⊢
        split at hq
        · next heq =>
          cases hq
          exact ⟨{ request := r }, if_pos heq, rfl⟩
        · next hne =>
          rw [if_neg hne]
          exact h.waiting q r' hq
      taken := by
        intro id' call hid' htaken
        show ∃ e, (w.decodeCancellationEntries.insert _ _).lookup _ = some e ∧ _
        rw [lookup_insert_eq, if_neg (htaking id' call hid' htaken)]
        exact h.taken id' call hid' htaken
      unclaimed := by
        intro q e hq hfalse
        rcases hentry q e hq with ⟨-, he⟩ | hold
        · rw [he]
          exact h.unseen r hr
        · exact h.unclaimed q e hold hfalse }
  exact (hregister.begin hid (fun _ => rfl) (fun _ => rfl) (by simp [Call.taking])).ledger

theorem Ledger.refuse (h : Ledger cfg w) (hid : w.calls.lookup id = none) (hr : r ∉ w.seen) :
    Ledger cfg { w with seen := r :: w.seen, calls := w.calls.insert id (.releasing r) } := by
  refine ((h.see hr).begin hid (fun r' => ?_) (fun _ => rfl) (by simp [Call.taking])).ledger
  rw [Call.owes, count_singleton]
  simp [Call.owning, Call.request]

end Xllm.Scheduler
