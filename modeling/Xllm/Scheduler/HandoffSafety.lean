import Xllm.Scheduler.Handoff

/-!
# When a handoff neither forks nor strands its request

A lost reply of `FirstGeneration` forks the request: the decode instance decodes it, and the prefill
instance fails it. A second copy of `AddNewRequests` strands it when its reply is the one that is
read: the copy is refused as a duplicate of the reservation that the first has made, and the prefill
instance puts the request back. `Orderly` is what a run has to keep to: copies come in time, and the
prefill side takes for a failure only what has failed, or has not arrived, on the other side with all
its copies.
-/

namespace Xllm.Scheduler

open Xllm.Lib Handoff List

/-- The object is one of the request. -/
def Identity.Names (i : Identity) (cfg : Config) (r : Nat) : Prop :=
  (cfg.requests r).HasIdentity i.reqId i.reservationId

instance (i : Identity) (cfg : Config) (r : Nat) : Decidable (i.Names cfg r) :=
  inferInstanceAs (Decidable (Request.HasIdentity _ _ _))

/-- The decode instance has no reservation for the request and does not decode it, and what it had for
it is freed when no call has it any more. -/
def Idle (cfg : Config) (i : Identity) (w : World) : Prop :=
  ∀ r, i.Names cfg r → w.registered r = false ∧ ¬ w.Taken r ∧
    (w.called r = false → r ∈ w.seen → r ∈ w.released)

structure NeitherForksNorStrands (cfg : Config) (i : Identity) (s : Handoff) : Prop where
  noFork : s.reportedFailed = true → ∀ r, i.Names cfg r → r ∉ s.decode.enqueued
  released : s.phase = .ended → s.releasedAt.isSome = true → Idle cfg i s.decode
  requeued : s.phase = .queued → Idle cfg i s.decode
  once : (s.decode.enqueued.filter fun r => decide (i.Names cfg r)).length ≤ 1

/-- A message may be delivered in this state, a reply may be read, and a call may fail in it. -/
def Orderly (i : Identity) (s : Handoff) : Step → Prop
  | .deliverAdd attempt _ _ _ now admission =>
    match s.phase with
    | .queued => admission ≠ .admitted
    | .adding => attempt = s.attempt ∨ admission ≠ .admitted
    | .ended => admission = .admitted → ∀ t ∈ s.releasedAt, now < t + kCancellationTombstoneTtl
    | _ => True
  | .addReplies added _ =>
    added.statusCode ≠ 200 → ∀ a ∈ s.added, a.attempt = s.attempt → a.statusCode ≠ 200
  | .deliverFirst _ _ =>
    (s.phase = .handing ∧ ∀ h ∈ s.handed, h.request = none) ∨
      s.decode.receivedRequestMap.lookup i.reqId = none
  | .firstReplies handed =>
    answer s.decode handed = some false → ∀ h ∈ s.handed, answer s.decode h = some false
  | .firstFails => ∀ h ∈ s.handed, answer s.decode h = some false
  | _ => True

instance (i : Identity) (s : Handoff) (step : Step) : Decidable (Orderly i s step) := by
  cases step <;> unfold Orderly <;> try infer_instance
  dsimp only
  split <;> infer_instance

/-! ## The invariant -/

structure Tidy (cfg : Config) (i : Identity) (s : Handoff) : Prop where
  ledger : Ledger cfg s.decode
  relation : OneRelation s.decode
  queued : s.phase = .queued → ∀ r, i.Names cfg r → s.decode.registered r = false
  adding : s.phase = .adding → ∀ r, i.Names cfg r → s.decode.registered r = true →
    ∃ a ∈ s.added, a.attempt = s.attempt ∧ a.statusCode = 200
  early : s.phase = .queued ∨ s.phase = .adding ∨ s.phase = .dispatched →
    s.generation = none ∧ s.handed = []
  takenBy : ∀ id r, i.Names cfg r → s.decode.TakenBy id r → ⟨id, some r⟩ ∈ s.handed
  queue : ∀ r ∈ s.decode.enqueued, i.Names cfg r → ∃ id, ⟨id, some r⟩ ∈ s.handed
  handedOnce : ∀ h ∈ s.handed, ∀ h' ∈ s.handed, h.request.isSome = true →
    h'.request.isSome = true → h = h'
  ended : s.phase = .ended → ∀ r, i.Names cfg r → ¬ s.decode.Taken r
  reported : s.reportedFailed = true → s.phase = .ended
  releaseSent : s.releaseSent = true → s.phase = .ended
  releasedAt : ∀ t ∈ s.releasedAt, s.phase = .ended ∧
    (∀ r, i.Names cfg r → s.decode.registered r = false) ∧ t ≤ s.decode.now ∧
    (s.decode.now < t + kCancellationTombstoneTtl → ∃ expiry,
      s.decode.cancelledReservations.lookup (reservationKey i.reqId i.reservationId) = some expiry ∧
        t + kCancellationTombstoneTtl ≤ expiry)

theorem Tidy.init (cfg : Config) (i : Identity) : Tidy cfg i {} where
  ledger := .init cfg
  relation := .init
  queued _ _ _ := rfl
  adding h := nomatch h
  early _ := ⟨rfl, rfl⟩
  takenBy id r _ h := by
    obtain ⟨call, hid, -⟩ := h
    exact nomatch hid
  queue _ h := nomatch h
  handedOnce _ h := nomatch h
  ended h := nomatch h
  reported h := nomatch h
  releaseSent h := nomatch h
  releasedAt _ h := nomatch h

variable {cfg : Config} {i : Identity} {s : Handoff} {r : Nat}

theorem Tidy.not_taken (h : Tidy cfg i s)
    (hhanded : ∀ x ∈ s.handed, x.request = none) (hr : i.Names cfg r) :
    ¬ s.decode.Taken r := by
  rintro (hmem | ⟨id, htaken⟩)
  · obtain ⟨id, hid⟩ := h.queue r hmem hr
    exact nomatch hhanded _ hid
  · exact nomatch hhanded _ (h.takenBy id r hr htaken)

theorem Tidy.not_taken_failed (h : Tidy cfg i s)
    (hfailed : ∀ x ∈ s.handed, answer s.decode x = some false) :
    ∀ r, i.Names cfg r → ¬ s.decode.Taken r := by
  have hanswer : ∀ {id r}, ⟨id, some r⟩ ∈ s.handed →
      s.decode.calls.lookup id = none ∧ r ∉ s.decode.enqueued := by
    intro id r hid
    have := hfailed _ hid
    unfold answer at this
    dsimp only at this
    split at this
    · next hreturned => exact ⟨hreturned, of_decide_eq_false (Option.some.inj this)⟩
    · exact nomatch this
  rintro r hr (hmem | ⟨id, htaken⟩)
  · obtain ⟨id, hid⟩ := h.queue r hmem hr
    exact (hanswer hid).2 hmem
  · have hreturned := (hanswer (h.takenBy id r hr htaken)).1
    obtain ⟨call, hcall, -⟩ := htaken
    exact nomatch hreturned.symm.trans hcall

variable {w : World}

theorem Ledger.idle (h : Ledger cfg w) (hregistered : ∀ r, i.Names cfg r → w.registered r = false)
    (htaken : ∀ r, i.Names cfg r → ¬ w.Taken r) : Idle cfg i w := by
  intro r hr
  refine ⟨hregistered r hr, htaken r hr, fun hcalled hseen => ?_⟩
  have hended := (h.endsOnce r).ended hseen (hregistered r hr) hcalled
  have hzero : w.enqueued.count r = 0 :=
    count_eq_zero.mpr fun hmem => htaken r hr (Or.inl hmem)
  exact count_pos_iff.mp (by omega)

theorem length_filter_le_one {p : Nat → Bool} (l : List Nat) (hcount : ∀ a, l.count a ≤ 1)
    (hsame : ∀ a ∈ l, ∀ b ∈ l, p a = true → p b = true → a = b) : (l.filter p).length ≤ 1 := by
  have hnodup : (l.filter p).Nodup := (nodup_iff_count_le_one.mpr hcount).filter _
  rcases hl : l.filter p with - | ⟨a, - | ⟨b, rest⟩⟩
  · simp
  · simp
  · have ha := mem_filter.mp (hl ▸ mem_cons_self : a ∈ l.filter p)
    have hb := mem_filter.mp
      (hl ▸ mem_cons_of_mem a mem_cons_self : b ∈ l.filter p)
    rw [hl, hsame a ha.1 b hb.1 ha.2 hb.2] at hnodup
    exact absurd hnodup (by simp)

/-- What the invariant is for. -/
theorem Tidy.safe (h : Tidy cfg i s) :
    NeitherForksNorStrands cfg i s where
  noFork hreported r hr hmem := h.ended (h.reported hreported) r hr (Or.inl hmem)
  released hover hreleased := by
    obtain ⟨t, ht⟩ := Option.isSome_iff_exists.mp hreleased
    exact h.ledger.idle (h.releasedAt t ht).2.1 (h.ended hover)
  requeued hqueued := by
    refine h.ledger.idle (h.queued hqueued) fun r hr => h.not_taken (fun x hx => ?_) hr
    rw [(h.early (Or.inl hqueued)).2] at hx
    exact nomatch hx
  once := by
    refine length_filter_le_one _ (fun r => ?_) fun r hr r' hr' hname hname' => ?_
    · have := (h.ledger.endsOnce r).atMost
      omega
    · obtain ⟨id, hid⟩ := h.queue r hr (of_decide_eq_true hname)
      obtain ⟨id', hid'⟩ := h.queue r' hr' (of_decide_eq_true hname')
      have hsame := h.handedOnce _ hid _ hid' rfl rfl
      cases hsame
      rfl

/-! ## What a step of the decode instance does to the request -/

theorem Identity.Names.key (h : i.Names cfg r) :
    (cfg.requests r).key = reservationKey i.reqId i.reservationId := by
  rw [Request.key, h.1, h.2]

variable {w' : World} {label : Label}

theorem step_registered (hstep : w.step cfg label = .ok w') (h : w'.registered r = true) :
    w.registered r = true ∨ (∃ id name now, label = .decodeSchedule id r name now) ∧
      ∀ expiry, w.cancelledReservations.lookup (cfg.requests r).key = some expiry →
        expiry ≤ w'.now := by
  obtain ⟨q, hq⟩ := registered_iff.mp h
  rcases step_waiting hstep hq with hold | hnew
  · exact Or.inl (registered_iff.mpr ⟨q, hold⟩)
  · exact Or.inr hnew

/-- The step takes no object of the request, and a tombstone of it lasts. -/
structure Spares (cfg : Config) (i : Identity) (w w' : World) : Prop where
  ledger : Ledger cfg w'
  relation : OneRelation w'
  now : w.now ≤ w'.now
  takenBy : ∀ id r, i.Names cfg r → w'.TakenBy id r → w.TakenBy id r
  queue : ∀ r ∈ w'.enqueued, r ∈ w.enqueued ∨ ∃ id, w.TakenBy id r
  tombstone : ∀ key expiry, w.cancelledReservations.lookup key = some expiry → w'.now < expiry →
    ∃ expiry', w'.cancelledReservations.lookup key = some expiry' ∧
      (expiry' = expiry ∨ expiry' = w'.now + kCancellationTombstoneTtl)

theorem Spares.refl (h : Ledger cfg w) (hr : OneRelation w) : Spares cfg i w w where
  ledger := h
  relation := hr
  now := le_refl _
  takenBy _ _ _ ht := ht
  queue _ hmem := Or.inl hmem
  tombstone _ expiry hkey _ := ⟨expiry, hkey, Or.inl rfl⟩

theorem Spares.of_step (h : Ledger cfg w) (hr : OneRelation w) (hstep : w.step cfg label = .ok w')
    (hother : ∀ id q gen now, label = .recvFirstGeneration id q gen now → q = i.reqId →
      w.receivedRequestMap.lookup q = none) : Spares cfg i w w' where
  ledger := h.step hr hstep
  relation := hr.step h hstep
  now := by
    obtain ⟨hle, hnow⟩ := step_now hstep
    exact hnow ▸ hle
  takenBy id r hname htaken := by
    rcases (step_taking hstep).1 id r htaken with hold | ⟨q, gen, now, hlabel, hq⟩
    · exact hold
    · have := hother id q gen now hlabel ((h.named q r hq).symm.trans hname.1)
      exact nomatch hq.symm.trans this
  queue := (step_taking hstep).2
  tombstone _ _ hkey hlive := step_tombstone hstep hkey hlive

theorem Spares.taken (h : Spares cfg i w w')
    (hr : i.Names cfg r) (htaken : w'.Taken r) : w.Taken r := by
  rcases htaken with hmem | ⟨id, hid⟩
  · exact h.queue r hmem
  · exact Or.inr ⟨id, h.takenBy id r hr hid⟩

theorem Spares.barred (h : Spares cfg i w w') {t : Nat} {key : String} (ht : t ≤ w.now)
    (hbar : w.now < t + kCancellationTombstoneTtl → ∃ expiry,
      w.cancelledReservations.lookup key = some expiry ∧ t + kCancellationTombstoneTtl ≤ expiry)
    (hlive : w'.now < t + kCancellationTombstoneTtl) : ∃ expiry,
      w'.cancelledReservations.lookup key = some expiry ∧
        t + kCancellationTombstoneTtl ≤ expiry := by
  have hnow := h.now
  obtain ⟨expiry, hkey, hexpiry⟩ := hbar (by omega)
  obtain ⟨expiry', hkey', hnew⟩ := h.tombstone key expiry hkey (by omega)
  exact ⟨expiry', hkey', by omega⟩

theorem Tidy.spared (h : Tidy cfg i s) (hspares : Spares cfg i s.decode w)
    (hregistered : ∀ r, i.Names cfg r → w.registered r = true → s.decode.registered r = true) :
    Tidy cfg i { s with decode := w } := by
  have hnone : (∀ r, i.Names cfg r → s.decode.registered r = false) →
      ∀ r, i.Names cfg r → w.registered r = false := by
    intro hfree r hr
    cases hreg : w.registered r with
    | false => rfl
    | true => exact ((hregistered r hr hreg).symm.trans (hfree r hr))
  exact
    { ledger := hspares.ledger
      relation := hspares.relation
      queued := fun hphase => hnone (h.queued hphase)
      adding := fun hphase r hr hreg => h.adding hphase r hr (hregistered r hr hreg)
      early := h.early
      takenBy := fun id r hr htaken => h.takenBy id r hr (hspares.takenBy id r hr htaken)
      queue := by
        intro r hmem hr
        rcases hspares.queue r hmem with hold | ⟨id, hid⟩
        · exact h.queue r hold hr
        · exact ⟨id, h.takenBy id r hr hid⟩
      handedOnce := h.handedOnce
      ended := fun hphase r hr htaken => h.ended hphase r hr (hspares.taken hr htaken)
      reported := h.reported
      releaseSent := h.releaseSent
      releasedAt := by
        intro t ht
        obtain ⟨hphase, hfree, hle, hbar⟩ := h.releasedAt t ht
        exact ⟨hphase, hnone hfree, hle.trans hspares.now, hspares.barred hle hbar⟩ }

variable {id : Nat} {name : String} {now : Nat}

theorem decodeSchedule_refused (h : (w.decodeSchedule cfg id r name now).1 = false) :
    (w.decodeSchedule cfg id r name now).2.receivedRequestMap = w.receivedRequestMap := by
  unfold World.decodeSchedule at h ⊢
  dsimp only at h ⊢
  split at h
  · next hrefused =>
    rw [if_pos hrefused]
    exact (prune_maps w now).1
  · exact nomatch h

variable {admission : Admission} {statusCode : Nat} {call : Option Nat}

theorem decodeRecvNewRequests_spec (h : Ledger cfg w) (hr : OneRelation w)
    (hadd : decodeRecvNewRequests cfg w id r name now admission = some (statusCode, call, w')) :
    Spares cfg i w w' ∧ ∀ r', i.Names cfg r' → w'.registered r' = true →
      w.registered r' = true ∨ admission = .admitted ∧ statusCode = 200 ∧ w.now ≤ now ∧
        ∀ expiry, w.cancelledReservations.lookup (reservationKey i.reqId i.reservationId) =
          some expiry → expiry ≤ now := by
  unfold decodeRecvNewRequests at hadd
  cases admission with
  | admitted =>
    dsimp only at hadd
    split at hadd
    · exact nomatch hadd
    next w₁ hstep =>
    obtain ⟨hcode, hadd⟩ := Prod.mk.inj (Option.some.inj hadd)
    obtain ⟨-, rfl⟩ := Prod.mk.inj hadd
    obtain ⟨hle, hnow⟩ := step_now hstep
    have hnow : w₁.now = now := hnow
    refine ⟨.of_step h hr hstep nofun, ?_⟩
    intro r' hname' hreg
    rcases step_registered hstep hreg with hold | ⟨-, hfree⟩
    · exact Or.inl hold
    · rw [hname'.key] at hfree
      split at hcode
      · exact Or.inr ⟨rfl, hcode.symm, hle, hnow ▸ hfree⟩
      · next hrefused =>
        have hsame := decodeSchedule_refused (Bool.eq_false_iff.mpr hrefused)
        obtain ⟨-, -, rfl⟩ := step_eq_ok.mp hstep
        obtain ⟨q, hq⟩ := registered_iff.mp hreg
        have hq : (({ w with now := now } : World).decodeSchedule cfg id r name
          now).2.receivedRequestMap.lookup q = some r' := hq
        rw [hsame] at hq
        exact Or.inl (registered_iff.mpr ⟨q, hq⟩)
  | malformed | permanentlyRejected | retryLater =>
    obtain ⟨-, hadd⟩ := Prod.mk.inj (Option.some.inj hadd)
    obtain ⟨-, rfl⟩ := Prod.mk.inj hadd
    exact ⟨.refl h hr, fun _ _ hreg => Or.inl hreg⟩

variable {attempt : Nat}

/-- An admitted request is answered to the attempt that asked, and none is admitted after its
release. -/
theorem Tidy.deliverAdd (h : Tidy cfg i s)
    (horderly : Orderly i s (.deliverAdd attempt id r name now admission))
    (hadd : decodeRecvNewRequests cfg s.decode id r name now admission =
      some (statusCode, call, w)) :
    Tidy cfg i { s with decode := w, added := ⟨attempt, statusCode, call⟩ :: s.added } := by
  obtain ⟨hspares, hregistered⟩ := decodeRecvNewRequests_spec (i := i) h.ledger h.relation hadd
  unfold Orderly at horderly
  exact
    { ledger := hspares.ledger
      relation := hspares.relation
      queued := by
        intro hphase r' hr'
        rw [hphase] at horderly
        cases hreg : w.registered r' with
        | false => rfl
        | true =>
          rcases hregistered r' hr' hreg with hold | ⟨hadmitted, -⟩
          · exact hold.symm.trans (h.queued hphase r' hr')
          · exact absurd hadmitted horderly
      adding := by
        intro hphase r' hr' hreg
        rw [hphase] at horderly
        dsimp only at horderly
        rcases hregistered r' hr' hreg with hold | ⟨hadmitted, hcode, -⟩
        · obtain ⟨a, ha, hsame⟩ := h.adding hphase r' hr' hold
          exact ⟨a, mem_cons_of_mem _ ha, hsame⟩
        · exact ⟨_, mem_cons_self, horderly.resolve_right (not_not.mpr hadmitted), hcode⟩
      early := h.early
      takenBy := fun id r hr htaken => h.takenBy id r hr (hspares.takenBy id r hr htaken)
      queue := fun r hmem hr => by
        rcases hspares.queue r hmem with hold | ⟨id, hid⟩
        · exact h.queue r hold hr
        · exact ⟨id, h.takenBy id r hr hid⟩
      handedOnce := h.handedOnce
      ended := fun hphase r hr htaken => h.ended hphase r hr (hspares.taken hr htaken)
      reported := h.reported
      releaseSent := h.releaseSent
      releasedAt := by
        intro t ht
        obtain ⟨hphase, hfree, hle, hbar⟩ := h.releasedAt t ht
        refine ⟨hphase, fun r' hr' => ?_, hle.trans hspares.now, hspares.barred hle hbar⟩
        cases hreg : w.registered r' with
        | false => rfl
        | true =>
          rcases hregistered r' hr' hreg with hold | ⟨hadmitted, -, hle', hexpired⟩
          · exact hold.symm.trans (hfree r' hr')
          · rw [hphase] at horderly
            have hlive := horderly hadmitted t ht
            obtain ⟨expiry, hkey, hexpiry⟩ := hbar (by omega)
            have := hexpired expiry hkey
            omega }

variable {handed : Handed}

theorem Tidy.findsNothing (h : Tidy cfg i s) (hnone : handed.request = none)
    (hearly : ¬ (s.phase = .queued ∨ s.phase = .adding ∨ s.phase = .dispatched)) :
    Tidy cfg i { s with handed := handed :: s.handed } :=
  { ledger := h.ledger
    relation := h.relation
    queued := h.queued
    adding := h.adding
    early := fun he => absurd he hearly
    takenBy := fun id r hr htaken => mem_cons_of_mem _ (h.takenBy id r hr htaken)
    queue := fun r hmem hr => by
      obtain ⟨id, hid⟩ := h.queue r hmem hr
      exact ⟨id, mem_cons_of_mem _ hid⟩
    handedOnce := by
      intro x hx x' hx' hsome hsome'
      rcases mem_cons.mp hx with rfl | hx
      · exact nomatch hnone ▸ hsome
      rcases mem_cons.mp hx' with rfl | hx'
      · exact nomatch hnone ▸ hsome'
      exact h.handedOnce x hx x' hx' hsome hsome'
    ended := h.ended
    reported := h.reported
    releaseSent := h.releaseSent
    releasedAt := h.releasedAt }

variable {gen : FirstGeneration}

theorem Tidy.firstCopy (h : Tidy cfg i s) (hphase : s.phase = .handing)
    (hhanded : ∀ x ∈ s.handed, x.request = none)
    (hstep : s.decode.step cfg (.recvFirstGeneration id i.reqId gen now) = .ok w) :
    Tidy cfg i { s with
      decode := w
      handed := ⟨id, s.decode.receivedRequestMap.lookup i.reqId⟩ :: s.handed } := by
  have hfresh : ∀ r, i.Names cfg r → ¬ s.decode.Taken r := fun r hr => h.not_taken hhanded hr
  obtain ⟨htaking, hqueue⟩ := step_taking hstep
  have hother : ∀ {phase : Phase}, phase ≠ .handing → s.phase ≠ phase := fun hne heq =>
    hne (heq.symm.trans hphase)
  exact
    { ledger := h.ledger.step h.relation hstep
      relation := h.relation.step h.ledger hstep
      queued := fun hp => absurd hp (hother (by simp))
      adding := fun hp => absurd hp (hother (by simp))
      early := fun hp => by
        rcases hp with hp | hp | hp
        · exact absurd hp (hother (by simp))
        · exact absurd hp (hother (by simp))
        · exact absurd hp (hother (by simp))
      takenBy := by
        intro id' r hr htaken
        rcases htaking id' r htaken with hold | ⟨q, gen', now', hlabel, hq⟩
        · exact absurd (Or.inr ⟨id', hold⟩) (hfresh r hr)
        · obtain ⟨rfl, rfl, -, -⟩ := Label.recvFirstGeneration.inj hlabel
          rw [hq]
          exact mem_cons_self
      queue := fun r hmem hr => absurd (hqueue r hmem) (hfresh r hr)
      handedOnce := by
        intro x hx x' hx' hsome hsome'
        rcases mem_cons.mp hx with rfl | hx
        · rcases mem_cons.mp hx' with rfl | hx'
          · rfl
          · exact nomatch hhanded x' hx' ▸ hsome'
        · exact nomatch hhanded x hx ▸ hsome
      ended := fun hp => absurd hp (hother (by simp))
      reported := h.reported
      releaseSent := h.releaseSent
      releasedAt := fun t ht => absurd (h.releasedAt t ht).1 (hother (by simp)) }

theorem Tidy.deliverFirst (h : Tidy cfg i s)
    (horderly : Orderly i s (.deliverFirst id now)) (hgen : s.generation = some gen)
    (hstep : s.decode.step cfg (.recvFirstGeneration id i.reqId gen now) = .ok w) :
    Tidy cfg i { s with
      decode := w
      handed := ⟨id, s.decode.receivedRequestMap.lookup i.reqId⟩ :: s.handed } := by
  rcases horderly with ⟨hphase, hhanded⟩ | hnone
  · exact h.firstCopy hphase hhanded hstep
  · have hspares : Spares cfg i s.decode w :=
      .of_step h.ledger h.relation hstep fun _ _ _ _ _ hq => hq ▸ hnone
    have hspared := h.spared hspares fun r _ hreg => by
      rcases step_registered hstep hreg with hold | ⟨⟨_, _, _, hlabel⟩, -⟩
      · exact hold
      · exact nomatch hlabel
    refine hspared.findsNothing hnone fun hearly => ?_
    rw [(hspared.early hearly).1] at hgen
    exact nomatch hgen

theorem Tidy.deliverRelease (h : Tidy cfg i s) (hphase : s.phase = .ended)
    (hstep : s.decode.step cfg (.releaseReservation id i.reqId i.reservationId now) = .ok w) :
    Tidy cfg i { s with decode := w, releasedAt := some now } := by
  have hspares : Spares cfg i s.decode w :=
    .of_step h.ledger h.relation hstep nofun
  have hbarred := Barred.release h.ledger i.reqId_ne i.reservationId_ne hstep
  have hnow : w.now = now := (step_now hstep).2
  have hspared := h.spared hspares fun r _ hreg => by
    rcases step_registered hstep hreg with hold | ⟨⟨_, _, _, hlabel⟩, -⟩
    · exact hold
    · exact nomatch hlabel
  exact
    { hspared with
      releasedAt := by
        intro t ht
        cases ht
        refine ⟨hphase, fun r hr => ?_, le_of_eq hnow.symm, hbarred.tombstone⟩
        cases hreg : w.registered r with
        | false => rfl
        | true =>
          obtain ⟨q, hq⟩ := registered_iff.mp hreg
          have hlive : w.now < now + kCancellationTombstoneTtl := by
            rw [hnow, kCancellationTombstoneTtl, minute]
            omega
          exact absurd hr (hbarred.waiting hlive q r hq) }

theorem Tidy.background (h : Tidy cfg i s) (hother : concerns cfg i label = false)
    (hstep : s.decode.step cfg label = .ok w) : Tidy cfg i { s with decode := w } := by
  have hspares : Spares cfg i s.decode w := by
    apply Spares.of_step h.ledger h.relation hstep
    rintro id q gen now rfl hq
    rw [concerns, hq] at hother
    exact absurd hother (by simp)
  refine h.spared hspares fun r hr hreg => ?_
  obtain ⟨q, hq⟩ := registered_iff.mp hreg
  rcases step_waiting hstep hq with hold | ⟨⟨id, name, now, rfl⟩, -⟩
  · exact registered_iff.mpr ⟨q, hold⟩
  · rw [concerns, hr.1] at hother
    exact absurd hother (by simp)

/-! ## What a step of the prefill instance does -/

theorem Tidy.givesUp (h : Tidy cfg i s)
    (hfree : ∀ r, i.Names cfg r → ¬ s.decode.Taken r) (sent report : Bool) :
    Tidy cfg i { s with
      phase := .ended
      reportedFailed := s.reportedFailed || report
      releaseSent := sent } where
  ledger := h.ledger
  relation := h.relation
  queued hp := nomatch hp
  adding hp := nomatch hp
  early hp := nomatch hp
  takenBy := h.takenBy
  queue := h.queue
  handedOnce := h.handedOnce
  ended _ := hfree
  reported _ := rfl
  releaseSent _ := rfl
  releasedAt t ht := ⟨rfl, (h.releasedAt t ht).2⟩

theorem Tidy.address (h : Tidy cfg i s)
    (address : Bool) : Tidy cfg i { s with decodeRpcAddress := address } := { h with }

theorem Tidy.failed (h : Tidy cfg i s)
    (hfree : ∀ r, i.Names cfg r → ¬ s.decode.Taken r) (report : Bool) :
    Tidy cfg i (s.releaseFailedRequest.giveUp report) := by
  unfold Handoff.releaseFailedRequest
  split
  · exact (h.givesUp hfree true report).address false
  · exact h.givesUp hfree s.releaseSent report

theorem Tidy.not_taken_early (h : Tidy cfg i s)
    (hearly : s.phase = .queued ∨ s.phase = .adding ∨ s.phase = .dispatched) :
    ∀ r, i.Names cfg r → ¬ s.decode.Taken r := by
  intro r hr
  refine h.not_taken (fun x hx => ?_) hr
  rw [(h.early hearly).2] at hx
  exact nomatch hx

theorem Tidy.goesOn (h : Tidy cfg i s) {phase : Phase}
    {generation : Option FirstGeneration} (hphase : s.phase ≠ .ended) (hover : phase ≠ .ended)
    (hfree : phase = .queued ∨ phase = .adding → ∀ r, i.Names cfg r →
      s.decode.registered r = false)
    (hearly : phase = .queued ∨ phase = .adding ∨ phase = .dispatched →
      generation = none ∧ s.handed = []) :
    Tidy cfg i { s with phase := phase, attempt := attempt, generation := generation } where
  ledger := h.ledger
  relation := h.relation
  queued hp := hfree (Or.inl hp)
  adding hp r hr hreg := nomatch hreg.symm.trans (hfree (Or.inr hp) r hr)
  early := hearly
  takenBy := h.takenBy
  queue := h.queue
  handedOnce := h.handedOnce
  ended hp := absurd hp hover
  reported hr := absurd (h.reported hr) hphase
  releaseSent hr := absurd (h.releaseSent hr) hphase
  releasedAt t ht := absurd (h.releasedAt t ht).1 hphase

theorem Tidy.addReplies (h : Tidy cfg i s) {added : Added} {cancelled : Bool}
    (horderly : Orderly i s (.addReplies added cancelled)) (hphase : s.phase = .adding) :
    Tidy cfg i (s.addReplies added.statusCode cancelled) := by
  have hfree := h.not_taken_early (Or.inr (Or.inl hphase))
  have hearly := h.early (Or.inr (Or.inl hphase))
  have hnotOver : s.phase ≠ .ended := by rw [hphase]; simp
  unfold Handoff.addReplies
  split
  · next hrefused =>
    split
    · exact h.failed hfree true
    split
    · exact h.givesUp hfree s.releaseSent true
    · -- whoever is registered was accepted in a copy of this attempt
      refine h.goesOn hnotOver (by simp) (fun _ r hr => ?_) fun _ => hearly
      cases hreg : s.decode.registered r with
      | false => rfl
      | true =>
        obtain ⟨a, ha, hlast, hcode⟩ := h.adding hphase r hr hreg
        exact absurd hcode (horderly hrefused a ha hlast)
  · split
    · exact (h.address true).failed hfree true
    · exact (h.address true).goesOn hnotOver (by simp) (by simp) fun _ => hearly

variable {s' : Handoff} {stream : Bool}

theorem Tidy.firstReplies (h : Tidy cfg i s) (horderly : Orderly i s (.firstReplies handed))
    (hphase : s.phase = .handing) (hmem : handed ∈ s.handed)
    (hstep : Handoff.step cfg i stream s (.firstReplies handed) = .ok s') : Tidy cfg i s' := by
  unfold Handoff.step at hstep
  dsimp only at hstep
  rw [if_pos ⟨hphase, hmem⟩] at hstep
  split at hstep
  · exact nomatch hstep
  · cases hstep
    have hnotOver : s.phase ≠ .ended := by rw [hphase]; simp
    have hdone : Tidy cfg i { s with phase := .done } :=
      h.goesOn hnotOver (by simp) (by simp) (by simp)
    exact hdone.address false
  · next hanswer =>
    cases hstep
    exact h.failed (h.not_taken_failed (horderly hanswer)) stream

theorem Tidy.step {step : Step} (h : Tidy cfg i s) (horderly : Orderly i s step)
    (hstep : Handoff.step cfg i stream s step = .ok s') : Tidy cfg i s' := by
  -- every step is enabled in some phase only
  have hguard : ∀ {p : Prop} [Decidable p] {t : Handoff},
      (if p then (.ok t : Except StepError Handoff) else .error .notEnabled) = .ok s' →
        p ∧ t = s' := by
    intro p _ t hif
    split at hif
    · next hp => exact ⟨hp, Except.ok.inj hif⟩
    · exact nomatch hif
  cases step with
  | dispatch =>
    obtain ⟨hphase, rfl⟩ := hguard hstep
    have hearly := h.early (Or.inl hphase)
    exact h.goesOn (by rw [hphase]; simp) (by simp) (fun _ => h.queued hphase) fun _ => hearly
  | dispatchFails =>
    obtain ⟨hphase, rfl⟩ := hguard hstep
    exact h.failed (h.not_taken_early (Or.inl hphase)) true
  | addFails =>
    obtain ⟨hphase, rfl⟩ := hguard hstep
    exact (h.address true).failed (h.not_taken_early (Or.inr (Or.inl hphase))) true
  | addReplies added cancelled =>
    obtain ⟨⟨hphase, -⟩, rfl⟩ := hguard hstep
    exact h.addReplies horderly hphase
  | leavesPrefill report =>
    obtain ⟨hphase, rfl⟩ := hguard hstep
    exact h.failed (h.not_taken_early (Or.inr (Or.inr hphase))) report
  | handOver gen =>
    obtain ⟨hphase, rfl⟩ := hguard hstep
    exact h.goesOn (by rw [hphase]; simp) (by simp) (by simp) (by simp)
  | handOverFails =>
    obtain ⟨hphase, rfl⟩ := hguard hstep
    exact h.failed (h.not_taken_early (Or.inr (Or.inr hphase))) stream
  | firstFails =>
    obtain ⟨-, rfl⟩ := hguard hstep
    exact h.failed (h.not_taken_failed horderly) stream
  | firstReplies handed =>
    by_cases hwaits : s.phase = .handing ∧ handed ∈ s.handed
    · exact h.firstReplies horderly hwaits.1 hwaits.2 hstep
    · unfold Handoff.step at hstep
      dsimp only at hstep
      rw [if_neg hwaits] at hstep
      exact nomatch hstep
  | deliverAdd attempt id r name now admission =>
    unfold Handoff.step at hstep
    dsimp only at hstep
    split at hstep
    · split at hstep
      · exact nomatch hstep
      · next hadd =>
        cases hstep
        exact h.deliverAdd horderly hadd
    · exact nomatch hstep
  | deliverFirst id now =>
    unfold Handoff.step at hstep
    dsimp only at hstep
    split at hstep
    · exact nomatch hstep
    · next gen hgen =>
      obtain ⟨w, hw, hstep⟩ := bind_eq_ok.mp hstep
      cases hstep
      exact h.deliverFirst horderly hgen hw
  | deliverRelease id now =>
    unfold Handoff.step at hstep
    dsimp only at hstep
    split at hstep
    · next hsent =>
      obtain ⟨w, hw, hstep⟩ := bind_eq_ok.mp hstep
      cases hstep
      exact h.deliverRelease (h.releaseSent hsent) hw
    · exact nomatch hstep
  | background label =>
    unfold Handoff.step at hstep
    dsimp only at hstep
    split at hstep
    · exact nomatch hstep
    · next hother =>
      obtain ⟨w, hw, hstep⟩ := bind_eq_ok.mp hstep
      cases hstep
      exact h.background (Bool.eq_false_iff.mpr hother) hw

/-! ## Whole runs -/

/-- Over every run that is orderly, whatever else is lost, late or delivered again and whatever the
decode instance does meanwhile. -/
theorem handoff_of_orderly {cfg : Config} {i : Identity} {stream : Bool} {steps : List Step}
    {s : Handoff} (run : ReachesWith (Handoff.step cfg i stream) (Orderly i) {} steps s) :
    NeitherForksNorStrands cfg i s := by
  have htidy : Tidy cfg i s :=
    run.invariant (fun _ _ _ h horderly hstep => h.step horderly hstep) (.init cfg i)
  exact htidy.safe

/-- A decode instance that knows one request. -/
def oneRequest : Config where
  requests _ := { requestId := "request", pdReservationId := "first", sequence := some {} }

def Identity.first : Identity := ⟨"request", "first", by decide, by decide⟩

/-- The request is admitted and handed over, and the decode instance pushes it. -/
def untilPushed : List Step :=
  [.dispatch, .deliverAdd 1 0 0 "prefill" 0 .admitted, .background (.resume 0 true 1),
    .addReplies ⟨1, 200, some 0⟩ false, .handOver { tokenId := 7 }, .deliverFirst 1 2,
    .background (.resume 1 true 3), .background (.resume 1 true 4), .background (.resume 1 true 4)]

/-- The reply comes, and a last copy of the first generation finds nothing. -/
theorem untilPushed_safe : ∃ s,
    ReachesWith (Handoff.step oneRequest .first true) (Orderly .first) {}
      (untilPushed ++ [.firstReplies ⟨1, some 0⟩, .deliverFirst 2 5]) s ∧
    s.phase = .done ∧ s.decode.enqueued = [0] ∧ NeitherForksNorStrands oneRequest .first s := by
  have hrun : ∃ s, ReachesWith (Handoff.step oneRequest .first true) (Orderly .first) {}
      (untilPushed ++ [.firstReplies ⟨1, some 0⟩, .deliverFirst 2 5]) s ∧
      decide (s.phase = .done ∧ s.decode.enqueued = [0]) = true :=
    ReachesWith.of_check (fun s : Handoff => decide (s.phase = .done ∧ s.decode.enqueued = [0]))
      _ _ (by decide +kernel)
  obtain ⟨s, run, hend⟩ := hrun
  obtain ⟨hphase, henqueued⟩ := of_decide_eq_true hend
  exact ⟨s, run, hphase, henqueued, handoff_of_orderly run⟩

/-- `AddNewRequests` comes twice, and the answer to the second copy is the one that arrives. -/
def secondCopy : List Step :=
  [.dispatch, .deliverAdd 1 0 0 "prefill" 0 .admitted, .background (.resume 0 true 1),
    .deliverAdd 1 1 1 "prefill" 1 .admitted, .background (.resume 1 true 2),
    .addReplies ⟨1, 500, some 1⟩ false]

/-- A lost reply of `FirstGeneration` forks the request: it is decoded and reported as failed. A second
copy of `AddNewRequests` strands it: it waits to be dispatched again while the decode instance holds a
reservation for it. -/
theorem lost_reply_forks_retry_strands :
    (∃ s, Reaches (Handoff.step oneRequest .first true) {} (untilPushed ++ [.firstFails]) s ∧
      ¬ NeitherForksNorStrands oneRequest .first s) ∧
    ∃ s, Reaches (Handoff.step oneRequest .first true) {} secondCopy s ∧
      ¬ NeitherForksNorStrands oneRequest .first s := by
  constructor
  · have hrun : ∃ s, Reaches (Handoff.step oneRequest .first true) {} (untilPushed ++ [.firstFails]) s ∧
        decide (s.reportedFailed = true ∧ 0 ∈ s.decode.enqueued) = true :=
      ReachesWith.of_check
        (fun s : Handoff => decide (s.reportedFailed = true ∧ 0 ∈ s.decode.enqueued)) _ _
        (by decide +kernel)
    obtain ⟨s, run, hend⟩ := hrun
    obtain ⟨hreported, hmem⟩ := of_decide_eq_true hend
    exact ⟨s, run, fun h => h.noFork hreported 0 ⟨rfl, rfl⟩ hmem⟩
  · have hrun : ∃ s, Reaches (Handoff.step oneRequest .first true) {} secondCopy s ∧
        decide (s.phase = .queued ∧ s.decode.registered 0 = true) = true :=
      ReachesWith.of_check
        (fun s : Handoff => decide (s.phase = .queued ∧ s.decode.registered 0 = true)) _ _
        (by decide +kernel)
    obtain ⟨s, run, hend⟩ := hrun
    obtain ⟨hphase, hregistered⟩ := of_decide_eq_true hend
    refine ⟨s, run, fun h => ?_⟩
    have hidle := (h.requeued hphase 0 ⟨rfl, rfl⟩).1
    exact nomatch hregistered.symm.trans hidle

end Xllm.Scheduler
