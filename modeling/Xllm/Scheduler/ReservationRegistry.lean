import Xllm.Scheduler.RegistryRelation

/-!
# The registry over whole runs

The three maps of the registry describe one set of pairs in every state of every run, every object ends
once, a tombstone keeps a released identity out for as long as it lasts, and a request is cancelled at
most once (**`reservation_registry`**). The sections of the calls may be taken in any order.

The first two and the last are invariants. The third is about two moments of a run, the release and a
later state, and has an invariant of its own that starts at the release (`Barred`).
-/

namespace Xllm.Scheduler

open Xllm.Lib Xllm.Framework List

variable {w w' : World} {cfg : Config} {r id : Nat} {call : Call} {label : Label}

/-! ## What a step does

A section does one thing to the registry (`Turns`), and then its call goes on without touching it
(`Leaves`). Whatever is true of a step is read off its turn: what it lets in, what it takes out, which
tombstones it prunes. -/

/-- A call has taken the object, and has not pushed it yet. -/
def World.TakenBy (w : World) (id r : Nat) : Prop :=
  ∃ call, w.calls.lookup id = some call ∧ call.taking = true ∧ call.request = r

/-- The first generation has taken the object. -/
def World.Taken (w : World) (r : Nat) : Prop := r ∈ w.enqueued ∨ ∃ id, w.TakenBy id r

/-- Nothing is taken between the two worlds; what is taken may be pushed. -/
structure TakesNothing (w w' : World) : Prop where
  calls : ∀ id r, w'.TakenBy id r → w.TakenBy id r
  queue : ∀ r ∈ w'.enqueued, r ∈ w.enqueued ∨ ∃ id, w.TakenBy id r

theorem TakesNothing.taken (h : TakesNothing w w') (hr : w'.Taken r) :
    w.Taken r := by
  rcases hr with hmem | ⟨id, hid⟩
  · exact h.queue r hmem
  · exact Or.inr ⟨id, h.calls id r hid⟩

theorem TakesNothing.of_same (hcalls : w'.calls = w.calls)
    (henqueued : w'.enqueued = w.enqueued) : TakesNothing w w' where
  calls id r h := by
    rw [World.TakenBy, hcalls] at h
    exact h
  queue r hr := Or.inl (henqueued ▸ hr)

theorem TakesNothing.of_put (w w' : World) (id : Nat) (next : Option Call)
    (hcalls : w'.calls = put w.calls id next) (henqueued : w'.enqueued = w.enqueued)
    (hnext : ∀ call, next = some call → call.taking = true → w.TakenBy id call.request) :
    TakesNothing w w' where
  calls id' r h := by
    obtain ⟨call, hid', htaking, hr⟩ := h
    rw [hcalls] at hid'
    by_cases heq : id' = id
    · rw [heq, lookup_put_self] at hid'
      rw [heq, ← hr]
      exact hnext call hid' htaking
    · rw [lookup_put_ne w.calls next heq] at hid'
      exact ⟨call, hid', htaking, hr⟩
  queue r hr := Or.inl (henqueued ▸ hr)

/-- Nothing is taken, and the registry, its tombstones and the clock are as they were. -/
structure Leaves (w w' : World) : Prop extends TakesNothing w w' where
  received : w'.receivedRequestMap = w.receivedRequestMap
  instances : w'.requestToInstanceMap = w.requestToInstanceMap
  requests : w'.instanceToReceivedRequestsMap = w.instanceToReceivedRequestsMap
  tombstones : w'.cancelledReservations = w.cancelledReservations
  now : w'.now = w.now

theorem Leaves.refl (w : World) : Leaves w w := ⟨.of_same rfl rfl, rfl, rfl, rfl, rfl, rfl⟩

theorem Leaves.trans {w₁ : World} (h : Leaves w w₁) (h' : Leaves w₁ w') : Leaves w w' where
  calls id r hr := h.calls id r (h'.calls id r hr)
  queue r hr := h.taken (h'.queue r hr)
  received := h'.received.trans h.received
  instances := h'.instances.trans h.instances
  requests := h'.requests.trans h.requests
  tombstones := h'.tombstones.trans h.tombstones
  now := h'.now.trans h.now

/-- A call goes on to a piece that has not taken more. -/
theorem Leaves.goOn (w : World) (id : Nat) (next : Call)
    (hnext : next.taking = true → w.TakenBy id next.request) : Leaves w (w.goOn id next) := by
  refine ⟨.of_put w _ id (some next) rfl rfl ?_, rfl, rfl, rfl, rfl, rfl⟩
  rintro call ⟨⟩
  exact hnext

theorem Leaves.endCall (w : World) (id r : Nat) : Leaves w (w.endCall id r) := by
  unfold World.endCall
  dsimp only
  split
  · exact ⟨.of_put w _ id none rfl rfl (by simp), rfl, rfl, rfl, rfl, rfl⟩
  · exact ⟨.of_put w _ id none rfl rfl (by simp), rfl, rfl, rfl, rfl, rfl⟩

theorem Leaves.releaseEnd (w : World) (id r : Nat) : Leaves w ((w.release r).endCall id r) := by
  have hrelease : Leaves w (w.release r) := ⟨.of_same rfl rfl, rfl, rfl, rfl, rfl, rfl⟩
  exact hrelease.trans (.endCall _ id r)

theorem Leaves.resume (answer : Bool)
    (hid : w.calls.lookup id = some call) : Leaves w (w.resume cfg id answer call) := by
  cases call with
  | scheduled r => exact .endCall w id r
  | preparing r gen =>
    unfold World.resume
    dsimp only
    split
    · exact .goOn w id (.writing r) fun _ => ⟨_, hid, rfl, rfl⟩
    · exact .releaseEnd w id r
  | writing r =>
    unfold World.resume
    dsimp only
    split
    · -- the object that is pushed was taken
      refine ⟨⟨fun id' r' h => ?_, fun r' hr' => ?_⟩, rfl, rfl, rfl, rfl, rfl⟩
      · obtain ⟨call, hid', htaking, hr⟩ := h
        by_cases heq : id' = id
        · rw [heq, World.goOn, AList.lookup_insert, Option.some_inj] at hid'
          rw [← hid'] at htaking
          cases htaking
        · rw [World.goOn, AList.lookup_insert_ne heq] at hid'
          exact ⟨call, hid', htaking, hr⟩
      · rcases mem_cons.mp hr' with rfl | hmem
        · exact Or.inr ⟨id, _, hid, rfl, rfl⟩
        · exact Or.inl hmem
    · exact .goOn w id (.pushed r false) fun _ => ⟨_, hid, rfl, rfl⟩
  | pushed r enqueued =>
    have hentries : ∀ entries, Leaves w { w with decodeCancellationEntries := entries } :=
      fun _ => ⟨.of_same rfl rfl, rfl, rfl, rfl, rfl, rfl⟩
    unfold World.resume World.publish
    dsimp only
    split
    · exact (hentries _).trans (.goOn _ id (.releasing r) nofun)
    · split
      · exact .endCall w id r
      · exact (hentries _).trans (.endCall _ id r)
  | releasing r => exact .releaseEnd w id r
  | submitting r =>
    have hsubmit : Leaves w { w with submitted := r :: w.submitted } :=
      ⟨.of_same rfl rfl, rfl, rfl, rfl, rfl, rfl⟩
    exact hsubmit.trans (.endCall _ id r)

theorem Leaves.cancelRequest (cfg : Config) (w : World) (id : Nat)
    (cancellation : World.Cancellation) (terminal : Bool) :
    Leaves w (w.cancelRequest cfg id cancellation terminal).2 := by
  have hentries : ∀ entries, Leaves w { w with decodeCancellationEntries := entries } :=
    fun _ => ⟨.of_same rfl rfl, rfl, rfl, rfl, rfl, rfl⟩
  unfold World.cancelRequest
  split
  · exact .refl w
  split
  · exact .refl w
  split
  · exact .refl w
  next e _ =>
  split
  · exact hentries _
  split
  · exact .refl w
  split
  · exact .refl w
  split
  · exact .refl w
  split
  · exact .refl w
  · exact (hentries _).trans (.goOn _ id (.submitting e.request) nofun)

theorem prune_maps (w : World) (now : Nat) :
    (w.pruneCancelledReservations now).receivedRequestMap = w.receivedRequestMap ∧
    (w.pruneCancelledReservations now).requestToInstanceMap = w.requestToInstanceMap ∧
    (w.pruneCancelledReservations now).instanceToReceivedRequestsMap =
      w.instanceToReceivedRequestsMap ∧
    TakesNothing w (w.pruneCancelledReservations now) ∧
    (w.pruneCancelledReservations now).now = w.now := by
  unfold World.pruneCancelledReservations
  split <;> exact ⟨rfl, rfl, rfl, .of_same rfl rfl, rfl⟩

variable {key : String} {expiry now : Nat}

/-- Only what has expired is pruned. -/
theorem lookup_prune
    (hkey : w.cancelledReservations.lookup key = some expiry) (hlive : now < expiry) :
    (w.pruneCancelledReservations now).cancelledReservations.lookup key = some expiry := by
  unfold World.pruneCancelledReservations
  split
  · exact hkey
  · rw [lookup_keepEntries, hkey, Option.filter_eq_some_iff]
    exact ⟨rfl, decide_eq_true hlive⟩

theorem unlinkInstance_maps (w : World) (name : String) :
    (∀ q r, (w.unlinkInstance name).receivedRequestMap.lookup q = some r →
      w.receivedRequestMap.lookup q = some r) ∧
    (w.unlinkInstance name).cancelledReservations = w.cancelledReservations ∧
    TakesNothing w (w.unlinkInstance name) ∧ (w.unlinkInstance name).now = w.now := by
  unfold World.unlinkInstance
  split
  · exact ⟨fun _ _ h => h, rfl, .of_same rfl rfl, rfl⟩
  · next reqIds _ =>
    obtain ⟨hreceived, -, -, htombs, hcalls, hnow, henqueued⟩ := unlinkLoop_spec reqIds w
    refine ⟨fun q r hq => ?_, htombs, .of_same hcalls henqueued, hnow⟩
    have hq := (hreceived q).symm.trans hq
    split at hq
    · cases hq
    · exact hq

/-- A tombstone for the identity. -/
def World.bar (w : World) (reqId reservationId : String) (now : Nat) : World :=
  { w with
    cancelledReservations := w.cancelledReservations.insert (reservationKey reqId reservationId)
      (now + kCancellationTombstoneTtl) }

/-- What a label makes of the registry before its call goes on. -/
inductive Turns (cfg : Config) (w : World) : Label → World → Prop
  | same (label : Label) : Turns cfg w label w
  | prune (label : Label) : Turns cfg w label (w.pruneCancelledReservations label.now)
  | announce (id r : Nat) (name : String) (now : Nat)
      (new : ¬ ((w.pruneCancelledReservations now).isCancelledReservation (cfg.requests r) ∨
        (w.pruneCancelledReservations now).isDuplicate (cfg.requests r).requestId)) :
      Turns cfg w (.decodeSchedule id r name now)
        ((w.pruneCancelledReservations now).register cfg r name)
  | take (id : Nat) (q : String) (gen : FirstGeneration) (now r : Nat)
      (waits : w.receivedRequestMap.lookup q = some r) :
      Turns cfg w (.recvFirstGeneration id q gen now)
        ((w.takeWaitingRequest q).goOn id (.preparing r gen))
  | bar (id : Nat) (q reservationId : String) (now : Nat) :
      Turns cfg w (.releaseReservation id q reservationId now)
        ((w.pruneCancelledReservations now).bar q reservationId now)
  | release (id : Nat) (q reservationId : String) (now : Nat) :
      Turns cfg w (.releaseReservation id q reservationId now)
        (((w.pruneCancelledReservations now).bar q reservationId now).takeWaitingRequest q)
  | unlink (name : String) (now : Nat) :
      Turns cfg w (.unlinkInstance name now) (w.unlinkInstance name)

/-- Every step takes one turn, and goes on from there. -/
theorem step_turns (hstep : w.step cfg label = .ok w') : w.now ≤ label.now ∧
    ∃ w₁, Turns cfg { w with now := label.now } label w₁ ∧ Leaves w₁ w' := by
  obtain ⟨hle, -, rfl⟩ := step_eq_ok.mp hstep
  refine ⟨hle, ?_⟩
  generalize ({ w with now := label.now } : World) = w
  have hkept : ∀ {w₁ w₂ : World} {id : Nat} {next : Call}, Turns cfg w label w₁ →
      Leaves w₁ w₂ → next.taking = false →
      ∃ w₁, Turns cfg w label w₁ ∧ Leaves w₁ (w₂.goOn id next) := by
    intro w₁ w₂ id next hturn hleaves hnext
    exact ⟨w₁, hturn, hleaves.trans (.goOn w₂ id next fun h => by simp [hnext] at h)⟩
  have hseen : ∀ (w₁ : World) seen, Leaves w₁ { w₁ with seen := seen } :=
    fun _ _ => ⟨.of_same rfl rfl, rfl, rfl, rfl, rfl, rfl⟩
  cases label with
  | decodeSchedule id r name now =>
    unfold World.act World.decodeSchedule
    dsimp only
    split
    · exact hkept (.prune _) (hseen _ _) rfl
    · next hnew => exact hkept (.announce id r name now hnew) (hseen _ _) rfl
  | recvFirstGeneration id q gen now =>
    unfold World.act World.recvFirstGeneration
    dsimp only
    split
    · exact ⟨w, .same _, .refl w⟩
    · next r hq => exact ⟨_, .take id q gen now r hq, .refl _⟩
  | releaseReservation id q reservationId now =>
    unfold World.act World.releaseReservation
    dsimp only
    split
    · exact ⟨w, .same _, .refl w⟩
    split
    · exact ⟨_, .bar id q reservationId now, .refl _⟩
    split
    · exact ⟨_, .bar id q reservationId now, .refl _⟩
    · exact hkept (.release id q reservationId now)
        ⟨.of_same rfl rfl, rfl, rfl, rfl, rfl, rfl⟩ rfl
  | cancelRequest id cancellation terminal now =>
    exact ⟨w, .same _, .cancelRequest cfg w id cancellation terminal⟩
  | unlinkInstance name now => exact ⟨_, .unlink name now, .refl _⟩
  | resume id answer now =>
    unfold World.act
    dsimp only
    split
    · exact ⟨w, .same _, .refl w⟩
    · next call hid => exact ⟨w, .same _, .resume answer hid⟩
  | finish r now =>
    exact ⟨w, .same _, ⟨.of_same rfl rfl, rfl, rfl, rfl, rfl, rfl⟩⟩

theorem OneRelation.step (h : Ledger cfg w) (hr : OneRelation w)
    (hstep : w.step cfg label = .ok w') : OneRelation w' := by
  obtain ⟨-, w₁, hturn, hleaves⟩ := step_turns hstep
  refine OneRelation.congr ?_ hleaves.received hleaves.instances hleaves.requests
  have h : Ledger cfg { w with now := label.now } := { h with }
  have hr : OneRelation { w with now := label.now } := { hr with }
  generalize ({ w with now := label.now } : World) = w at *
  have hpruned : ∀ now, OneRelation (w.pruneCancelledReservations now) := by
    intro now
    obtain ⟨hreceived, hinstance, hrequests, -⟩ := prune_maps w now
    exact hr.congr hreceived hinstance hrequests
  have hbarred : ∀ now q reservationId,
      OneRelation ((w.pruneCancelledReservations now).bar q reservationId now) :=
    fun now _ _ => (hpruned now).congr rfl rfl rfl
  cases hturn with
  | same => exact hr
  | prune => exact hpruned _
  | announce id r name now hnew =>
    rw [not_or] at hnew
    have hfree := (h.prune now).free_of_not_duplicate (Bool.not_eq_true _ ▸ hnew.2)
    exact (hpruned now).register name hfree.1
  | take id q => exact (hr.takeWaitingRequest q).congr rfl rfl rfl
  | bar id q reservationId now => exact hbarred now q reservationId
  | release id q reservationId now => exact (hbarred now q reservationId).takeWaitingRequest q
  | unlink name => exact hr.unlinkInstance name

theorem ledger_of_run {labels : List Label}
    (run : Reaches (World.step cfg) .init labels w) : Ledger cfg w ∧ OneRelation w :=
  run.invariant (I := fun w => Ledger cfg w ∧ OneRelation w)
    (fun _ _ _ h _ hstep => ⟨h.1.step h.2 hstep, h.2.step h.1 hstep⟩) ⟨.init cfg, .init⟩

theorem step_now (hstep : w.step cfg label = .ok w') : w.now ≤ label.now ∧ w'.now = label.now := by
  obtain ⟨hle, w₁, hturn, hleaves⟩ := step_turns hstep
  refine ⟨hle, hleaves.now.trans ?_⟩
  cases hturn with
  | same | take => rfl
  | prune | announce | bar | release => exact (prune_maps _ _).2.2.2.2
  | unlink name now => exact (unlinkInstance_maps _ name).2.2.2

/-- A tombstone that has not expired stays, or is renewed. -/
theorem step_tombstone (hstep : w.step cfg label = .ok w')
    (hkey : w.cancelledReservations.lookup key = some expiry) (hlive : w'.now < expiry) :
    ∃ expiry', w'.cancelledReservations.lookup key = some expiry' ∧
      (expiry' = expiry ∨ expiry' = w'.now + kCancellationTombstoneTtl) := by
  rw [(step_now hstep).2] at hlive ⊢
  obtain ⟨-, w₁, hturn, hleaves⟩ := step_turns hstep
  rw [hleaves.tombstones]
  have hkey : ({ w with now := label.now } : World).cancelledReservations.lookup key =
      some expiry := hkey
  generalize ({ w with now := label.now } : World) = w at *
  have hpruned := lookup_prune hkey hlive
  have hbarred : ∀ q reservationId, ∃ expiry', ((w.pruneCancelledReservations label.now).bar q
      reservationId label.now).cancelledReservations.lookup key = some expiry' ∧
        (expiry' = expiry ∨ expiry' = label.now + kCancellationTombstoneTtl) := by
    -- the same identity is released again, or another one
    intro q reservationId
    unfold World.bar
    rw [lookup_insert_eq]
    split
    · exact ⟨_, rfl, Or.inr rfl⟩
    · exact ⟨expiry, hpruned, Or.inl rfl⟩
  cases hturn with
  | same | take => exact ⟨expiry, hkey, Or.inl rfl⟩
  | prune | announce => exact ⟨expiry, hpruned, Or.inl rfl⟩
  | bar id q reservationId | release id q reservationId => exact hbarred q reservationId
  | unlink name =>
    rw [(unlinkInstance_maps w name).2.1]
    exact ⟨expiry, hkey, Or.inl rfl⟩

/-- What waits after a step waited before, or has just been announced, with an identity that has no
tombstone that is still good. -/
theorem step_waiting (hstep : w.step cfg label = .ok w') {q : String}
    (hq : w'.receivedRequestMap.lookup q = some r) :
    w.receivedRequestMap.lookup q = some r ∨
      (∃ id name now, label = .decodeSchedule id r name now) ∧
      ∀ expiry, w.cancelledReservations.lookup (cfg.requests r).key = some expiry →
        expiry ≤ w'.now := by
  rw [(step_now hstep).2]
  obtain ⟨-, w₁, hturn, hleaves⟩ := step_turns hstep
  rw [hleaves.received] at hq
  have hpruned := (prune_maps { w with now := label.now } label.now).1
  cases hturn with
  | same => exact Or.inl hq
  | prune | bar => exact Or.inl (hpruned ▸ hq)
  | announce id r' name now hnew =>
    rw [not_or] at hnew
    unfold World.register at hq
    rw [lookup_insert_eq] at hq
    split at hq
    · -- the request that is registered has passed the check
      rw [Option.some_inj] at hq
      rw [hq] at hnew
      refine Or.inr ⟨⟨id, name, now, by rw [hq]⟩, fun expiry hexpiry => ?_⟩
      by_contra hlive
      apply hnew.1
      have hkept := lookup_prune (w := { w with now := now }) hexpiry (not_le.mp hlive)
      exact Option.isSome_of_eq_some hkept
    · exact Or.inl (hpruned ▸ hq)
  | take => exact Or.inl (lookup_erase_eq_some.mp hq).2
  | release => exact Or.inl (hpruned ▸ (lookup_erase_eq_some.mp hq).2)
  | unlink name now =>
    exact Or.inl ((unlinkInstance_maps { w with now := now } name).1 q r hq)

/-- What a step takes waited before it, and only a first generation takes. -/
theorem step_taking (hstep : w.step cfg label = .ok w') :
    (∀ id r, w'.TakenBy id r → w.TakenBy id r ∨ ∃ q gen now,
      label = .recvFirstGeneration id q gen now ∧ w.receivedRequestMap.lookup q = some r) ∧
    ∀ r ∈ w'.enqueued, r ∈ w.enqueued ∨ ∃ id, w.TakenBy id r := by
  obtain ⟨-, w₁, hturn, hleaves⟩ := step_turns hstep
  -- the turns that take nothing
  have hnothing : TakesNothing w w₁ →
      (∀ id r, w'.TakenBy id r → w.TakenBy id r ∨ ∃ q gen now,
        label = .recvFirstGeneration id q gen now ∧ w.receivedRequestMap.lookup q = some r) ∧
      ∀ r ∈ w'.enqueued, r ∈ w.enqueued ∨ ∃ id, w.TakenBy id r :=
    fun h => ⟨fun id r hr => Or.inl (h.calls id r (hleaves.calls id r hr)),
      fun r hr => h.taken (hleaves.queue r hr)⟩
  have hpruned := (prune_maps { w with now := label.now } label.now).2.2.2.1
  cases hturn with
  | same => exact hnothing (.of_same rfl rfl)
  | prune | announce | bar | release => exact hnothing ⟨hpruned.calls, hpruned.queue⟩
  | unlink name now =>
    have hunlink := (unlinkInstance_maps { w with now := now } name).2.2.1
    exact hnothing ⟨hunlink.calls, hunlink.queue⟩
  | take id q gen now r hq =>
    -- this label does nothing more
    obtain ⟨-, -, rfl⟩ := step_eq_ok.mp hstep
    unfold World.act World.recvFirstGeneration
    dsimp only [Label.now]
    rw [hq]
    refine ⟨fun id' r' ⟨call, hid', htaking, hcall⟩ => ?_, fun r' hr' => Or.inl hr'⟩
    by_cases heq : id' = id
    · have hnew : (w.calls.insert id (.preparing r gen)).lookup id = some call := heq ▸ hid'
      rw [AList.lookup_insert, Option.some_inj] at hnew
      rw [heq, ← hcall, ← hnew]
      exact Or.inr ⟨q, gen, now, rfl, hq⟩
    · exact Or.inl ⟨call, (AList.lookup_insert_ne heq).symm.trans hid', htaking, hcall⟩

theorem step_taken (hstep : w.step cfg label = .ok w') (h : w'.Taken r) :
    w.Taken r ∨ ∃ q, w.receivedRequestMap.lookup q = some r := by
  obtain ⟨hcalls, hqueue⟩ := step_taking hstep
  rcases h with hmem | ⟨id, hid⟩
  · exact Or.inl (hqueue r hmem)
  · rcases hcalls id r hid with hold | ⟨q, -, -, -, hq⟩
    · exact Or.inl (Or.inr ⟨id, hold⟩)
    · exact Or.inr ⟨q, hq⟩

/-! ## Whole runs

The tombstone of a released identity outlives every step before its time is up, and nothing is announced
past it. So what has the identity later was taken before the release. -/

/-- What a release names: the request id and the reservation. -/
def Request.HasIdentity (request : Request) (reqId reservationId : String) : Prop :=
  request.requestId = reqId ∧ request.pdReservationId = reservationId

instance (request : Request) (reqId reservationId : String) :
    Decidable (request.HasIdentity reqId reservationId) := inferInstanceAs (Decidable (_ ∧ _))

/-- An identity released in `w₀` at `start` is kept out as long as its tombstone lasts. -/
structure Barred (cfg : Config) (w₀ : World) (reqId reservationId : String) (start : Nat)
    (w : World) : Prop where
  started : start ≤ w.now
  tombstone : w.now < start + kCancellationTombstoneTtl →
    ∃ expiry, w.cancelledReservations.lookup (reservationKey reqId reservationId) = some expiry ∧
      start + kCancellationTombstoneTtl ≤ expiry
  waiting : w.now < start + kCancellationTombstoneTtl → ∀ q r,
    w.receivedRequestMap.lookup q = some r → ¬ (cfg.requests r).HasIdentity reqId reservationId
  taken : w.now < start + kCancellationTombstoneTtl → ∀ r, w.Taken r →
    (cfg.requests r).HasIdentity reqId reservationId → w₀.Taken r

variable {reqId reservationId : String}

/-- Each clause is about a step that begins before the tombstone expires. -/
theorem Barred.step {w₀ : World} {start : Nat} (h : Barred cfg w₀ reqId reservationId start w)
    (hstep : w.step cfg label = .ok w') : Barred cfg w₀ reqId reservationId start w' := by
  obtain ⟨hmono, hnow⟩ := step_now hstep
  have hstarted := h.started
  have hearlier : w'.now < start + kCancellationTombstoneTtl →
      w.now < start + kCancellationTombstoneTtl := fun hlive => by omega
  exact
    { started := by omega
      tombstone := by
        intro hlive
        obtain ⟨expiry, hkey, hexpiry⟩ := h.tombstone (hearlier hlive)
        obtain ⟨expiry', hkey', hnew⟩ := step_tombstone hstep hkey (by omega)
        exact ⟨expiry', hkey', by omega⟩
      waiting := by
        intro hlive q r hq hidentity
        rcases step_waiting hstep hq with hold | ⟨-, hfree⟩
        · exact h.waiting (hearlier hlive) q r hold hidentity
        · obtain ⟨expiry, hkey, hexpiry⟩ := h.tombstone (hearlier hlive)
          have := hfree expiry (by rw [Request.key, hidentity.1, hidentity.2]; exact hkey)
          omega
      taken := by
        intro hlive r htaken hidentity
        rcases step_taken hstep htaken with hold | ⟨q, hq⟩
        · exact h.taken (hearlier hlive) r hold hidentity
        · exact absurd hidentity (h.waiting (hearlier hlive) q r hq) }

/-- The release itself leaves a tombstone and nobody waiting under the identity. -/
theorem Barred.release
    (h : Ledger cfg w) (hreqId : reqId ≠ "") (hreservationId : reservationId ≠ "")
    (hstep : w.step cfg (.releaseReservation id reqId reservationId now) = .ok w') :
    Barred cfg w reqId reservationId now w' := by
  have hnow : w'.now = now := (step_now hstep).2
  have htaken : ∀ r, w'.Taken r → w.Taken r := by
    obtain ⟨hcalls, hqueue⟩ := step_taking hstep
    rintro r (hmem | ⟨id', hid'⟩)
    · exact hqueue r hmem
    · exact Or.inr ⟨id', (hcalls id' r hid').resolve_right nofun⟩
  obtain ⟨-, -, rfl⟩ := step_eq_ok.mp hstep
  have h : Ledger cfg { w with now := now } := { h with }
  have hact : ∀ w₁ : World, w₁.act cfg (.releaseReservation id reqId reservationId now) =
      (w₁.releaseReservation cfg id reqId reservationId now).2 := fun _ => rfl
  simp only [Label.now, hact] at hnow htaken ⊢
  generalize ({ w with now := now } : World) = w₁ at *
  have hpruned := (prune_maps w₁ now).1
  refine ⟨le_of_eq hnow.symm, fun _ => ?_, fun _ q r hq hidentity => ?_,
    fun _ r hr _ => htaken r hr⟩
  · refine ⟨now + kCancellationTombstoneTtl, ?_, le_refl _⟩
    unfold World.releaseReservation
    rw [if_neg (by simp [hreqId, hreservationId])]
    dsimp only
    split
    · exact AList.lookup_insert _
    split <;> exact AList.lookup_insert _
  · unfold World.releaseReservation at hq
    rw [if_neg (by simp [hreqId, hreservationId])] at hq
    dsimp only at hq
    -- whoever has the identity waited under its id before
    have hwaited : w₁.receivedRequestMap.lookup q = some r →
        w₁.receivedRequestMap.lookup reqId = some r := by
      intro hold
      rw [← hidentity.1, h.named q r hold]
      exact hold
    split at hq
    · next hnone =>
      rw [hpruned] at hq hnone
      exact nomatch (hwaited hq).symm.trans hnone
    next r' hr' =>
    rw [hpruned] at hr'
    split at hq
    · next hother =>
      rw [hpruned] at hq
      have hsame := Option.some.inj ((hwaited hq).symm.trans hr')
      exact hother (hsame ▸ hidentity.2)
    · have hq : ((w₁.pruneCancelledReservations now).receivedRequestMap.erase reqId).lookup q =
          some r := hq
      rw [hpruned, lookup_erase_eq_some] at hq
      exact hq.1 ((h.named q r hq.2).symm.trans hidentity.1)

/-- Where an object that was seen is in the end. -/
structure EndsOnce (w : World) (r : Nat) : Prop where
  atMost : w.enqueued.count r + w.released.count r ≤ 1
  ended : r ∈ w.seen → w.registered r = false → w.called r = false →
    w.enqueued.count r + w.released.count r = 1

theorem Ledger.endsOnce (h : Ledger cfg w) (r : Nat) : EndsOnce w r := by
  have honce := h.once r
  rw [World.account] at honce
  refine ⟨by split at honce <;> omega, fun hseen hregistered hcalled => ?_⟩
  rw [if_pos hseen] at honce
  have hwaits : w.waits r = 0 := by
    apply tally_eq_zero
    intro q r' hq
    rw [if_neg]
    intro heq
    rw [registered_iff.mpr ⟨q, heq ▸ hq⟩] at hregistered
    cases hregistered
  have howes : w.owes r = 0 := by
    apply tally_eq_zero
    intro id call hid
    rw [Call.owes, if_neg]
    rintro ⟨-, heq⟩
    rw [called_iff.mpr ⟨id, call, hid, heq⟩] at hcalled
    cases hcalled
  have hdropped : w.dropped.count r = 0 := by
    rw [count_eq_zero]
    intro hmem
    rw [h.held r hmem] at hcalled
    cases hcalled
  omega

/-- In every state of every run, whatever order the sections are taken in: the three maps are one
relation, every object ends once, a released identity is kept out as long as its tombstone lasts unless
it was taken before, and a request is cancelled at most once. -/
theorem reservation_registry {cfg : Config} {labels : List Label} {w : World}
    (run : Reaches (World.step cfg) .init labels w) :
    OneRelation w ∧ (∀ r, EndsOnce w r) ∧
    (∀ {id reqId reservationId start w₁ later w₂}, reqId ≠ "" → reservationId ≠ "" →
      w.step cfg (.releaseReservation id reqId reservationId start) = .ok w₁ →
      Reaches (World.step cfg) w₁ later w₂ → w₂.now < start + kCancellationTombstoneTtl →
      ∀ r, (cfg.requests r).HasIdentity reqId reservationId →
        w₂.registered r = false ∧ (r ∈ w₂.enqueued → w.Taken r)) ∧
    ∀ r, w.submitted.count r ≤ 1 := by
  obtain ⟨hledger, hrelation⟩ := ledger_of_run run
  refine ⟨hrelation, hledger.endsOnce, ?_, fun r => ?_⟩
  · intro id reqId reservationId start w₁ later w₂ hreqId hreservationId hrelease hlater hlive r
      hidentity
    have hbarred : Barred cfg w reqId reservationId start w₂ :=
      hlater.invariant (fun _ _ _ h _ hstep => h.step hstep)
        (.release hledger hreqId hreservationId hrelease)
    refine ⟨?_, fun hmem => hbarred.taken hlive r (Or.inl hmem) hidentity⟩
    cases hregistered : w₂.registered r with
    | false => rfl
    | true =>
      obtain ⟨q, hq⟩ := registered_iff.mp hregistered
      exact absurd hidentity (hbarred.waiting hlive q r hq)
  · have := hledger.claimedOnce r
    rw [World.claims] at this
    omega

/-- A request is announced, handed over and pushed, and then its reservation is released. -/
def handedOver : List Label :=
  [.decodeSchedule 0 0 "prefill" 0, .resume 0 true 1,
    .recvFirstGeneration 1 "request" { tokenId := 7 } 2, .resume 1 true 2, .resume 1 true 3,
    .resume 1 true 3, .releaseReservation 2 "request" "first" 4]

/-- The request that was handed over ends by being pushed, and the registry is empty. -/
theorem handedOver_ends : ∃ w,
    Reaches (World.step { requests := fun _ =>
      { requestId := "request", pdReservationId := "first", sequence := some {} } }) .init
        handedOver w ∧ OneRelation w ∧ w.enqueued = [0] ∧ w.released.count 0 = 0 := by
  have hrun : ∃ w, Reaches (World.step { requests := fun _ =>
      { requestId := "request", pdReservationId := "first", sequence := some {} } }) .init
        handedOver w ∧ decide (w.enqueued = [0]) = true :=
    ReachesWith.of_check (fun w : World => decide (w.enqueued = [0])) _ _ (by decide +kernel)
  obtain ⟨w, run, henqueued⟩ := hrun
  have henqueued := of_decide_eq_true henqueued
  obtain ⟨hrelation, hends, -⟩ := reservation_registry run
  have hatMost := (hends 0).atMost
  rw [henqueued, count_singleton_self] at hatMost
  exact ⟨w, run, hrelation, henqueued, by omega⟩

end Xllm.Scheduler
