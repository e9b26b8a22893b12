import Xllm.KvCacheTransfer.LinkSessions
import Xllm.KvCacheTransfer.ReshardLossless

/-!
# What linking a pair changes

`set_cache_peer` changes the link of one address only (`OnlyAt`), its status depends on that
address only (`setCachePeer_status_congr`), and a success leaves the link that was asked for
(`LinkedAs`). The loops of `link_sessions` inherit this (`Frame`).
-/

namespace Xllm.Framework

open Xllm.Lib

namespace MooncakeTransferEngineCore

variable {core next : MooncakeTransferEngineCore} {addr : String}

/-! ## One engine -/

/-- Only the link and the handle of an address differ. -/
structure OnlyAt (core next : MooncakeTransferEngineCore) (addr : String) : Prop where
  localCacheLayout : next.localCacheLayout = core.localCacheLayout
  links : ∀ other, other ≠ addr →
    next.cachePeerLinks.lookup other = core.cachePeerLinks.lookup other
  handles : ∀ other, other ≠ addr → next.handles.lookup other = core.handles.lookup other

theorem OnlyAt.refl (core : MooncakeTransferEngineCore) (addr : String) : OnlyAt core core addr :=
  ⟨rfl, fun _ _ => rfl, fun _ _ => rfl⟩

theorem OnlyAt.trans {last : MooncakeTransferEngineCore} (h : OnlyAt core next addr)
    (h' : OnlyAt next last addr) : OnlyAt core last addr where
  localCacheLayout := h'.localCacheLayout.trans h.localCacheLayout
  links other hother := (h'.links other hother).trans (h.links other hother)
  handles other hother := (h'.handles other hother).trans (h.handles other hother)

theorem OnlyAt.withLink (h : OnlyAt core next addr) (link : CachePeerLink) :
    OnlyAt core { next with cachePeerLinks := next.cachePeerLinks.insert addr link } addr where
  localCacheLayout := h.localCacheLayout
  links other hother := by
    rw [AList.lookup_insert_ne hother]
    exact h.links other hother
  handles := h.handles

theorem OnlyAt.withoutLink (h : OnlyAt core next addr) :
    OnlyAt core { next with cachePeerLinks := next.cachePeerLinks.erase addr } addr where
  localCacheLayout := h.localCacheLayout
  links other hother := by
    rw [AList.lookup_erase_ne hother]
    exact h.links other hother
  handles := h.handles

theorem acquireSession_onlyAt (core : MooncakeTransferEngineCore) (addr : String)
    (segment : Option Int) : OnlyAt core (core.acquireSession addr segment).2 addr ∧
      (core.acquireSession addr segment).2.cachePeerLinks = core.cachePeerLinks := by
  unfold acquireSession
  split
  · exact ⟨⟨rfl, fun _ _ => rfl, fun _ hother => AList.lookup_insert_ne hother⟩, rfl⟩
  split
  · exact ⟨.refl core addr, rfl⟩
  split
  · exact ⟨.refl core addr, rfl⟩
  · exact ⟨⟨rfl, fun _ _ => rfl, fun _ hother => AList.lookup_insert_ne hother⟩, rfl⟩

theorem releaseSession_onlyAt (core : MooncakeTransferEngineCore) (addr : String) :
    OnlyAt core (core.releaseSession addr) addr ∧
      (core.releaseSession addr).cachePeerLinks = core.cachePeerLinks := by
  unfold releaseSession
  split
  · exact ⟨.refl core addr, rfl⟩
  split
  · exact ⟨⟨rfl, fun _ _ => rfl, fun _ hother => AList.lookup_insert_ne hother⟩, rfl⟩
  · exact ⟨⟨rfl, fun _ _ => rfl, fun _ hother => AList.lookup_erase_ne hother⟩, rfl⟩

/-- The engine is linked with this very layout, in this mode. -/
def LinkedAs (core : MooncakeTransferEngineCore) (peer : WorkerCacheLayoutManifest)
    (mode : CachePeerMode) : Prop :=
  ∃ link, core.cachePeerLinks.lookup peer.addr = some link ∧ identityMatches link peer ∧
    link.mode = mode

theorem unlinkPeer_spec (core : MooncakeTransferEngineCore) (peer : WorkerCacheLayoutManifest) :
    OnlyAt core (core.unlinkPeer peer) peer.addr ∧
    (core.unlinkPeer peer).cachePeerLinks.lookup peer.addr =
      (core.cachePeerLinks.lookup peer.addr).filter fun link => ¬ identityMatches link peer := by
  unfold unlinkPeer
  cases hlink : core.cachePeerLinks.lookup peer.addr with
  | none => exact ⟨.refl core peer.addr, hlink⟩
  | some link =>
    dsimp only
    by_cases hmatches : identityMatches link peer
    · have hdropped : (some link).filter (fun link => ¬ identityMatches link peer) = none := by
        simp [hmatches]
      rw [if_pos hmatches, hdropped]
      obtain ⟨honly, hlinks⟩ := releaseSession_onlyAt core peer.addr
      split
      · exact ⟨honly.withoutLink, AList.lookup_erase _ _⟩
      · exact ⟨(OnlyAt.refl core peer.addr).withoutLink, AList.lookup_erase _ _⟩
    · have hkept : (some link).filter (fun link => ¬ identityMatches link peer) = some link := by
        simp [hmatches]
      rw [if_neg hmatches, hkept]
      exact ⟨.refl core peer.addr, hlink⟩

variable {peer : WorkerCacheLayoutManifest} {mode : CachePeerMode} {requireOutgoingPlan : Bool}

theorem knownPeer_ok (hknown : core.knownPeer peer mode requireOutgoingPlan = some (.ok ())) :
    LinkedAs core peer mode := by
  unfold knownPeer at hknown
  cases hlink : core.cachePeerLinks.lookup peer.addr with
  | none =>
    rw [hlink] at hknown
    cases hknown
  | some link =>
    rw [hlink] at hknown
    dsimp only at hknown
    split at hknown
    · next hmatches =>
      split at hknown
      · next hmode => exact ⟨link, hlink, hmatches, hmode⟩
      · cases hknown
    · split at hknown
      · cases hknown
      · cases hknown

variable {segment : Option Int}

variable {status : PeerStatus}

/-- The second section changes the address of the peer only, and nothing when it fails. -/
theorem commitPeer_at {localManifest : WorkerCacheLayoutManifest}
    {plan : Option ReshardPlanTemplate}
    (hcommit : core.commitPeer localManifest peer mode requireOutgoingPlan plan segment =
      (status, next)) :
    OnlyAt core next peer.addr ∧ (status = .ok () → LinkedAs next peer mode) ∧
      (status ≠ .ok () → next = core) := by
  unfold commitPeer at hcommit
  split at hcommit
  · obtain ⟨rfl, rfl⟩ := Prod.mk.inj hcommit
    exact ⟨.refl core peer.addr, fun hok => (by cases hok), fun _ => rfl⟩
  split at hcommit
  · next status' hknown =>
    obtain ⟨rfl, rfl⟩ := Prod.mk.inj hcommit
    refine ⟨.refl core peer.addr, fun hok => ?_, fun _ => rfl⟩
    rw [hok] at hknown
    exact knownPeer_ok hknown
  have hreleased (held : MooncakeTransferEngineCore) (honly : OnlyAt core held peer.addr) :
      OnlyAt core (if (core.cachePeerLinks.lookup peer.addr).any (·.holdsSession) then
        held.releaseSession peer.addr else held) peer.addr := by
    split
    · exact honly.trans (releaseSession_onlyAt held peer.addr).1
    · exact honly
  by_cases hactive : mode = .active
  · rcases hacquire : core.acquireSession peer.addr segment with ⟨acquired, held⟩
    have honly := (acquireSession_onlyAt core peer.addr segment).1
    rw [hacquire] at honly
    simp only [hactive, decide_true, if_true, hacquire] at hcommit
    split at hcommit
    · obtain ⟨rfl, rfl⟩ := Prod.mk.inj hcommit
      exact ⟨.refl core peer.addr, fun hok => (by cases hok), fun _ => rfl⟩
    · obtain ⟨rfl, rfl⟩ := Prod.mk.inj hcommit
      exact ⟨(hreleased held honly).withLink _,
        fun _ => ⟨_, AList.lookup_insert _, ⟨rfl, rfl⟩, hactive.symm⟩,
        fun hfailed => absurd rfl hfailed⟩
  · simp only [hactive, decide_false, Bool.false_eq_true, if_false, Bool.true_eq_false] at hcommit
    obtain ⟨rfl, rfl⟩ := Prod.mk.inj hcommit
    exact ⟨(hreleased core (.refl core peer.addr)).withLink _,
      fun _ => ⟨_, AList.lookup_insert _, ⟨rfl, rfl⟩, rfl⟩, fun hfailed => absurd rfl hfailed⟩

variable {cpIndexWriteMode : Int}

theorem setCachePeer_at (hmode : mode ≠ .absent)
    (hset : core.setCachePeer cpIndexWriteMode peer mode requireOutgoingPlan segment =
      (status, next)) :
    OnlyAt core next peer.addr ∧ (status = .ok () → LinkedAs next peer mode) ∧
      (status ≠ .ok () → next = core) := by
  have hfailed (error : StatusCode × String) (hset : (.error error, core) = (status, next)) :
      OnlyAt core next peer.addr ∧ (status = .ok () → LinkedAs next peer mode) ∧
        (status ≠ .ok () → next = core) := by
    obtain ⟨rfl, rfl⟩ := Prod.mk.inj hset
    exact ⟨.refl core peer.addr, fun hok => (by cases hok), fun _ => rfl⟩
  unfold setCachePeer at hset
  split at hset
  · exact hfailed _ hset
  rw [if_neg hmode] at hset
  split at hset
  · next status' _ hknown =>
    obtain ⟨rfl, rfl⟩ := Prod.mk.inj hset
    refine ⟨.refl core peer.addr, fun hok => ?_, fun _ => rfl⟩
    rw [hok] at hknown
    exact knownPeer_ok hknown
  · exact hfailed _ hset
  split at hset
  · exact hfailed _ hset
  split at hset
  · exact hfailed _ hset
  · exact commitPeer_at hset

theorem setCachePeer_absent (hvalid : validateWorkerCacheLayout peer = .ok ()) :
    core.setCachePeer cpIndexWriteMode peer .absent requireOutgoingPlan segment =
      (.ok (), core.unlinkPeer peer) := by
  unfold setCachePeer
  rw [hvalid]
  rfl

/-- The status depends on the layout, the link and the handle of the peer only. -/
theorem setCachePeer_status_congr {other : MooncakeTransferEngineCore}
    (hlayout : other.localCacheLayout = core.localCacheLayout)
    (hlink : other.cachePeerLinks.lookup peer.addr = core.cachePeerLinks.lookup peer.addr)
    (hhandle : other.handles.lookup peer.addr = core.handles.lookup peer.addr) :
    (other.setCachePeer cpIndexWriteMode peer mode requireOutgoingPlan segment).1 =
      (core.setCachePeer cpIndexWriteMode peer mode requireOutgoingPlan segment).1 := by
  have hknown : other.knownPeer peer mode requireOutgoingPlan =
      core.knownPeer peer mode requireOutgoingPlan := by
    unfold knownPeer
    rw [hlink]
  have hacquired : (other.acquireSession peer.addr segment).1 =
      (core.acquireSession peer.addr segment).1 := by
    unfold acquireSession
    rw [hhandle]
    split
    · rfl
    split
    · rfl
    split
    · rfl
    · rfl
  have hcommit (localManifest : WorkerCacheLayoutManifest) (plan : Option ReshardPlanTemplate) :
      (other.commitPeer localManifest peer mode requireOutgoingPlan plan segment).1 =
        (core.commitPeer localManifest peer mode requireOutgoingPlan plan segment).1 := by
    unfold commitPeer
    rw [hlayout, hknown, hlink]
    split
    · rfl
    split
    · rfl
    by_cases hactive : mode = .active
    · simp only [hactive, decide_true, if_true]
      rw [hacquired]
      split
      · rfl
      · rfl
    · simp only [hactive, decide_false, Bool.false_eq_true, if_false, Bool.true_eq_false]
  unfold setCachePeer
  rw [hknown, hlayout]
  split
  · rfl
  split
  · rfl
  split
  · rfl
  · rfl
  split
  · rfl
  split
  · rfl
  · exact hcommit _ _

theorem setCachePeer_onlyAt (core : MooncakeTransferEngineCore) (cpIndexWriteMode : Int)
    (peer : WorkerCacheLayoutManifest) (mode : CachePeerMode) (requireOutgoingPlan : Bool)
    (segment : Option Int) : OnlyAt core
      (core.setCachePeer cpIndexWriteMode peer mode requireOutgoingPlan segment).2 peer.addr := by
  by_cases hmode : mode = .absent
  · rw [hmode]
    unfold setCachePeer
    split
    · exact .refl core peer.addr
    · exact (unlinkPeer_spec core peer).1
  · exact (setCachePeer_at hmode rfl).1

end MooncakeTransferEngineCore

/-! ## A turn of the loops -/

namespace Workers

open MooncakeTransferEngineCore

variable {workers next : Workers} {localManifest : WorkerCacheLayoutManifest} {pair : Pair}

/-- What linking and unlinking pairs with a local address leaves alone. -/
structure Frame (workers next : Workers) (localAddr : String) (pairs : List Pair) : Prop where
  writeMode : next.writeMode = workers.writeMode
  remoteWriteModes : next.remoteWriteModes = workers.remoteWriteModes
  cachePeers : next.cachePeers = workers.cachePeers
  remotes : ∀ clusterId, (∀ pair ∈ pairs, pair.clusterId ≠ clusterId) →
    next.remotes clusterId = workers.remotes clusterId
  remoteLinks : ∀ clusterId addr, addr ≠ localAddr →
    (next.remotes clusterId).cachePeerLinks.lookup addr =
      (workers.remotes clusterId).cachePeerLinks.lookup addr
  localCacheLayout : next.core.localCacheLayout = workers.core.localCacheLayout
  links : ∀ addr, (∀ pair ∈ pairs, pair.manifest.addr ≠ addr) →
    next.core.cachePeerLinks.lookup addr = workers.core.cachePeerLinks.lookup addr
  handles : ∀ addr, (∀ pair ∈ pairs, pair.manifest.addr ≠ addr) →
    next.core.handles.lookup addr = workers.core.handles.lookup addr

theorem Frame.refl (workers : Workers) (localAddr : String) (pairs : List Pair) :
    Frame workers workers localAddr pairs :=
  ⟨rfl, rfl, rfl, fun _ _ => rfl, fun _ _ _ => rfl, rfl, fun _ _ => rfl, fun _ _ => rfl⟩

variable {localAddr : String} {pairs pairs' : List Pair}

theorem Frame.trans {last : Workers}
    (h : Frame workers next localAddr pairs) (h' : Frame next last localAddr pairs') :
    Frame workers last localAddr (pairs ++ pairs') where
  writeMode := h'.writeMode.trans h.writeMode
  remoteWriteModes := h'.remoteWriteModes.trans h.remoteWriteModes
  cachePeers := h'.cachePeers.trans h.cachePeers
  remotes clusterId hother :=
    (h'.remotes clusterId fun p hp => hother p (List.mem_append_right _ hp)).trans
      (h.remotes clusterId fun p hp => hother p (List.mem_append_left _ hp))
  remoteLinks clusterId addr hother :=
    (h'.remoteLinks clusterId addr hother).trans (h.remoteLinks clusterId addr hother)
  localCacheLayout := h'.localCacheLayout.trans h.localCacheLayout
  links addr hother :=
    (h'.links addr fun p hp => hother p (List.mem_append_right _ hp)).trans
      (h.links addr fun p hp => hother p (List.mem_append_left _ hp))
  handles addr hother :=
    (h'.handles addr fun p hp => hother p (List.mem_append_right _ hp)).trans
      (h.handles addr fun p hp => hother p (List.mem_append_left _ hp))

theorem Frame.mono (h : Frame workers next localAddr pairs) (hsub : ∀ pair ∈ pairs, pair ∈ pairs') :
    Frame workers next localAddr pairs' where
  writeMode := h.writeMode
  remoteWriteModes := h.remoteWriteModes
  cachePeers := h.cachePeers
  remotes clusterId hother := h.remotes clusterId fun p hp => hother p (hsub p hp)
  remoteLinks := h.remoteLinks
  localCacheLayout := h.localCacheLayout
  links addr hother := h.links addr fun p hp => hother p (hsub p hp)
  handles addr hother := h.handles addr fun p hp => hother p (hsub p hp)

theorem setRemotePeer_frame (workers : Workers) (pair : Pair)
    (localManifest : WorkerCacheLayoutManifest) (mode : CachePeerMode) (delivery : Delivery)
    (segment : Option Int) : Frame workers
      (workers.setRemotePeer pair.clusterId localManifest mode delivery segment).2
        localManifest.addr [pair] := by
  unfold setRemotePeer
  split
  · exact .refl _ _ _
  have honly := setCachePeer_onlyAt (workers.remotes pair.clusterId)
    (workers.remoteWriteModes pair.clusterId) localManifest mode true segment
  refine ⟨rfl, rfl, rfl, fun clusterId hother => ?_, fun clusterId addr haddr => ?_, rfl,
    fun _ _ => rfl, fun _ _ => rfl⟩
  · have hne : clusterId ≠ pair.clusterId := (hother pair (List.mem_singleton.mpr rfl)).symm
    exact Function.update_of_ne hne _ _
  · dsimp only
    by_cases heq : clusterId = pair.clusterId
    · rw [heq, Function.update_self]
      exact honly.links addr haddr
    · rw [Function.update_of_ne heq]

theorem setLocalPeer_frame (workers : Workers) (pair : Pair) (localAddr : String)
    (mode : CachePeerMode) (segment : Option Int) : Frame workers
      (workers.setLocalPeer pair.manifest mode segment).2 localAddr [pair] := by
  have honly := setCachePeer_onlyAt workers.core workers.writeMode pair.manifest mode false segment
  refine ⟨rfl, rfl, rfl, fun _ _ => rfl, fun _ _ _ => rfl, honly.localCacheLayout,
    fun addr hother => ?_, fun addr hother => ?_⟩
  · exact honly.links addr (hother pair (List.mem_singleton.mpr rfl)).symm
  · exact honly.handles addr (hother pair (List.mem_singleton.mpr rfl)).symm

end Workers

end Xllm.Framework
