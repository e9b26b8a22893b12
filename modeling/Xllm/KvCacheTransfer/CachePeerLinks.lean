import Xllm.KvCacheTransfer.CachePeers
import Xllm.KvCacheTransfer.ReshardLossless

/-!
# Links and sessions stay consistent

The reference count of a handle is what `opens` and the link of its address say (`Consistent`), after
every call.
-/

namespace Xllm.Framework

open Xllm.Lib

namespace MooncakeTransferEngineCore

variable {core next : MooncakeTransferEngineCore} {addr : String}

/-! ## Counting references

An open or a link of an address is one reference to its handle; a call adds or drops at most one,
and the handle closes with the last (`Recounts`). -/

/-- The reference count of the handle of an address, and zero when there is none. -/
def refs (core : MooncakeTransferEngineCore) (addr : String) : Nat :=
  (core.handles.lookup addr).elim 0 (·.refCount)

/-- One when the link of the address holds a session. -/
def holds (core : MooncakeTransferEngineCore) (addr : String) : Nat :=
  if (core.cachePeerLinks.lookup addr).any (·.holdsSession) then 1 else 0

/-- Every handle in the table is open, and somebody has a session with it. -/
def HandlesOpen (core : MooncakeTransferEngineCore) : Prop :=
  ∀ addr info, core.handles.lookup addr = some info → 0 < info.refCount ∧ info.handle ≠ -1

structure Consistent (core : MooncakeTransferEngineCore) : Prop where
  counted : ∀ addr, core.refs addr = core.opens addr + core.holds addr
  handlesOpen : core.HandlesOpen
  modes : ∀ addr link, core.cachePeerLinks.lookup addr = some link →
    link.holdsSession = decide (link.mode = .active)

theorem Consistent.init : Consistent {} where
  counted _ := rfl
  handlesOpen _ _ h := nomatch h
  modes _ _ h := nomatch h

/-- What a change of the references of one address leaves alone, and what it makes of them. -/
structure Recounts (core next : MooncakeTransferEngineCore) (addr : String) (count : Nat) :
    Prop where
  refs : ∀ other, next.refs other = if other = addr then count else core.refs other
  handlesOpen : next.HandlesOpen
  localCacheLayout : next.localCacheLayout = core.localCacheLayout
  cachePeerLinks : next.cachePeerLinks = core.cachePeerLinks
  opens : next.opens = core.opens

theorem Recounts.of_put (h : core.HandlesOpen) (entry : Option SessionInfo)
    (hentry : ∀ info, entry = some info → 0 < info.refCount ∧ info.handle ≠ -1) :
    Recounts core { core with handles := put core.handles addr entry } addr
      (entry.elim 0 (·.refCount)) where
  refs other := by
    show (AList.lookup other (put core.handles addr entry)).elim 0 (·.refCount) = _
    split
    · next heq => rw [heq, lookup_put_self]
    · next hne =>
      rw [lookup_put_ne core.handles entry hne]
      rfl
  handlesOpen other info hinfo := by
    by_cases heq : other = addr
    · rw [heq, lookup_put_self] at hinfo
      exact hentry info hinfo
    · rw [lookup_put_ne core.handles entry heq] at hinfo
      exact h other info hinfo
  localCacheLayout := rfl
  cachePeerLinks := rfl
  opens := rfl

theorem refs_of_none (hnone : core.handles.lookup addr = none) : core.refs addr = 0 := by
  unfold refs
  rw [hnone]
  rfl

theorem refs_of_some {info : SessionInfo} (hinfo : core.handles.lookup addr = some info) :
    core.refs addr = info.refCount := by
  unfold refs
  rw [hinfo]
  rfl

theorem Recounts.increment (h : core.HandlesOpen) {info : SessionInfo}
    (hinfo : core.handles.lookup addr = some info) :
    Recounts core { core with
      handles := core.handles.insert addr { info with refCount := info.refCount + 1 } } addr
        (core.refs addr + 1) := by
  have hopen := h addr info hinfo
  rw [refs_of_some hinfo]
  refine Recounts.of_put h (some { info with refCount := info.refCount + 1 }) fun new hnew => ?_
  cases hnew
  exact ⟨Nat.succ_pos _, hopen.2⟩

variable {segment : Option Int}

theorem acquireSession_spec (h : core.HandlesOpen) {ok : Bool}
    (hacquire : core.acquireSession addr segment = (ok, next)) :
    (ok = true → Recounts core next addr (core.refs addr + 1)) ∧ (ok = false → next = core) := by
  unfold acquireSession at hacquire
  split at hacquire
  · next info hinfo =>
    obtain ⟨rfl, rfl⟩ := Prod.mk.inj hacquire
    exact ⟨fun _ => .increment h hinfo, nofun⟩
  next hnone =>
  split at hacquire
  · obtain ⟨rfl, rfl⟩ := Prod.mk.inj hacquire
    exact ⟨nofun, fun _ => rfl⟩
  split at hacquire
  · obtain ⟨rfl, rfl⟩ := Prod.mk.inj hacquire
    exact ⟨nofun, fun _ => rfl⟩
  next handle hhandle =>
  obtain ⟨rfl, rfl⟩ := Prod.mk.inj hacquire
  refine ⟨fun _ => ?_, nofun⟩
  rw [refs_of_none hnone]
  refine Recounts.of_put h (some ⟨handle, 1⟩) fun new hnew => ?_
  cases hnew
  exact ⟨Nat.one_pos, hhandle⟩

theorem releaseSession_spec (h : core.HandlesOpen) (addr : String) :
    Recounts core (core.releaseSession addr) addr (core.refs addr - 1) := by
  unfold releaseSession
  split
  · next hnone =>
    refine ⟨fun other => ?_, h, rfl, rfl, rfl⟩
    split
    · next heq => rw [heq, refs_of_none hnone]
    · rfl
  next info hinfo =>
  have hopen := h addr info hinfo
  rw [refs_of_some hinfo]
  split
  · next hleft =>
    refine Recounts.of_put h (some { info with refCount := info.refCount - 1 }) fun new hnew => ?_
    cases hnew
    exact ⟨hleft, hopen.2⟩
  · next hlast =>
    have hzero : info.refCount - 1 = 0 := by omega
    rw [hzero]
    exact Recounts.of_put h none fun new hnew => nomatch hnew

theorem closeSession_core (clusterId : Nat) (addr : String) (closed : Bool) :
    (core.closeSession clusterId addr closed).2 = core.releaseSession addr := by
  unfold closeSession releaseSession
  split
  · rfl
  · split
    · rfl
    · rfl

theorem openSession_spec (h : core.HandlesOpen) {clusterId : Nat}
    {incrementExisting opened ok : Bool}
    (hopen : core.openSession clusterId addr incrementExisting opened segment = (ok, next)) :
    (ok = true ∧ (incrementExisting = true ∨ core.handles.lookup addr = none) →
      Recounts core next addr (core.refs addr + 1)) ∧
    (¬ (ok = true ∧ (incrementExisting = true ∨ core.handles.lookup addr = none)) →
      next = core) := by
  unfold openSession at hopen
  split at hopen
  · next info hinfo =>
    split at hopen
    · next hincrement =>
      obtain ⟨rfl, rfl⟩ := Prod.mk.inj hopen
      exact ⟨fun _ => .increment h hinfo, fun hnot => absurd ⟨rfl, Or.inl hincrement⟩ hnot⟩
    · next hincrement =>
      obtain ⟨rfl, rfl⟩ := Prod.mk.inj hopen
      refine ⟨fun ⟨_, hyes⟩ => ?_, fun _ => rfl⟩
      rcases hyes with hyes | hyes
      · exact absurd hyes hincrement
      · exact nomatch hinfo.symm.trans hyes
  · next hnone =>
    split at hopen
    · obtain ⟨rfl, rfl⟩ := Prod.mk.inj hopen
      exact ⟨fun ⟨habs, _⟩ => (nomatch habs), fun _ => rfl⟩
    · obtain ⟨hyes, hno⟩ := acquireSession_spec h hopen
      refine ⟨fun hok => hyes hok.1, fun hnot => hno ?_⟩
      cases ok with
      | true => exact absurd ⟨rfl, Or.inr hnone⟩ hnot
      | false => rfl

/-! ## Each call -/

variable {count : Nat}

theorem Consistent.recount (h : core.Consistent) {opens : Nat}
    (hrecounts : Recounts core next addr count) (hcount : count = opens + core.holds addr) :
    Consistent { next with opens := Function.update next.opens addr opens } where
  counted other := by
    have hholds : next.holds other = core.holds other := by
      unfold holds
      rw [hrecounts.cachePeerLinks]
    show next.refs other = Function.update next.opens addr opens other + next.holds other
    rw [hrecounts.refs, hholds, hrecounts.opens]
    split
    · next heq => rw [heq, Function.update_self, hcount]
    · next hne =>
      rw [Function.update_of_ne hne]
      exact h.counted other
  handlesOpen := hrecounts.handlesOpen
  modes := by
    rw [hrecounts.cachePeerLinks]
    exact h.modes

theorem Consistent.relink (h : core.Consistent) (entry : Option CachePeerLink)
    (hrecounts : Recounts core next addr count)
    (hcount : count = core.opens addr + if entry.any (·.holdsSession) then 1 else 0)
    (hentry : ∀ link, entry = some link → link.holdsSession = decide (link.mode = .active)) :
    Consistent { next with cachePeerLinks := put next.cachePeerLinks addr entry } where
  counted other := by
    show next.refs other = next.opens other +
      if ((put next.cachePeerLinks addr entry).lookup other).any (·.holdsSession) then 1 else 0
    rw [hrecounts.refs, hrecounts.opens, hrecounts.cachePeerLinks]
    split
    · next heq => rw [heq, lookup_put_self, hcount]
    · next hne =>
      rw [lookup_put_ne core.cachePeerLinks entry hne]
      exact h.counted other
  handlesOpen := hrecounts.handlesOpen
  modes other link hlink := by
    rw [hrecounts.cachePeerLinks] at hlink
    by_cases heq : other = addr
    · rw [heq, lookup_put_self] at hlink
      exact hentry link hlink
    · rw [lookup_put_ne core.cachePeerLinks entry heq] at hlink
      exact h.modes other link hlink

theorem Recounts.refl (h : core.HandlesOpen) (addr : String) :
    Recounts core core addr (core.refs addr) := by
  refine ⟨fun other => ?_, h, rfl, rfl, rfl⟩
  split
  · next heq => rw [heq]
  · rfl

theorem Recounts.trans {mid : MooncakeTransferEngineCore} {count' : Nat}
    (h : Recounts core mid addr count) (h' : Recounts mid next addr count') :
    Recounts core next addr count' where
  refs other := by
    rw [h'.refs, h.refs]
    split
    · rfl
    · rfl
  handlesOpen := h'.handlesOpen
  localCacheLayout := h'.localCacheLayout.trans h.localCacheLayout
  cachePeerLinks := h'.cachePeerLinks.trans h.cachePeerLinks
  opens := h'.opens.trans h.opens

theorem unlinkPeer_consistent (h : core.Consistent) (peer : WorkerCacheLayoutManifest) :
    (core.unlinkPeer peer).Consistent := by
  unfold unlinkPeer
  split
  · exact h
  next link hlink =>
  split
  · have hcounted := h.counted peer.addr
    unfold holds at hcounted
    rw [hlink] at hcounted
    split
    · next hholds =>
      refine h.relink none (releaseSession_spec h.handlesOpen peer.addr) ?_
        fun link hlink => nomatch hlink
      simp only [Option.any_some, hholds, if_true] at hcounted
      simp only [Option.any_none, Bool.false_eq_true, if_false]
      omega
    · next hholds =>
      refine h.relink none (Recounts.refl h.handlesOpen peer.addr) ?_
        fun link hlink => nomatch hlink
      simp only [Option.any_some, hholds] at hcounted
      simpa using hcounted
  · exact h

/-- The link of an address and the references of its handle are replaced. -/
structure Replaced (core next : MooncakeTransferEngineCore) (addr : String) (count : Nat)
    (link : CachePeerLink) : Prop where
  recounts : ∃ held, Recounts core held addr (core.opens addr + count) ∧
    next = { held with cachePeerLinks := put held.cachePeerLinks addr (some link) }

theorem Recounts.settle {held : MooncakeTransferEngineCore}
    (hheld : Recounts core held addr (core.refs addr + count)) (h : core.Consistent)
    (link : CachePeerLink) :
    Replaced core
      { (if (core.cachePeerLinks.lookup addr).any (·.holdsSession) then held.releaseSession addr
          else held) with
        cachePeerLinks := (if (core.cachePeerLinks.lookup addr).any (·.holdsSession) then
          held.releaseSession addr else held).cachePeerLinks.insert addr link }
      addr count link := by
  have hcounted := h.counted addr
  unfold holds at hcounted
  split
  · next hold =>
    rw [if_pos hold] at hcounted
    have hrefs := hheld.refs addr
    rw [if_pos rfl] at hrefs
    have hsettled := hheld.trans (releaseSession_spec hheld.handlesOpen addr)
    rw [hrefs, hcounted, Nat.add_right_comm, Nat.add_sub_cancel] at hsettled
    exact ⟨_, hsettled, rfl⟩
  · next hold =>
    rw [if_neg hold] at hcounted
    rw [hcounted] at hheld
    exact ⟨_, hheld, rfl⟩

/-- The link that `set_cache_peer` makes. -/
def linkOf (peer : WorkerCacheLayoutManifest) (mode : CachePeerMode)
    (plan : Option ReshardPlanTemplate) : CachePeerLink where
  destinationIncarnation := peer.incarnationId
  destinationLayoutGeneration := peer.layoutGeneration
  mode := mode
  plan := plan
  holdsSession := decide (mode = .active)

/-- The peer is linked anew: its link, its session and the references of its handle. -/
structure Relinks (core next : MooncakeTransferEngineCore) (peer : WorkerCacheLayoutManifest)
    (mode : CachePeerMode) (requireOutgoingPlan : Bool) : Prop where
  unknown : core.knownPeer peer mode requireOutgoingPlan = none
  link : ∃ plan, Replaced core next peer.addr (if mode = .active then 1 else 0)
    (linkOf peer mode plan)

variable {peer : WorkerCacheLayoutManifest} {mode : CachePeerMode} {requireOutgoingPlan : Bool}

theorem commitPeer_spec (h : core.Consistent) {localManifest : WorkerCacheLayoutManifest}
    {plan : Option ReshardPlanTemplate} {status : PeerStatus}
    (hcommit : core.commitPeer localManifest peer mode requireOutgoingPlan plan segment =
      (status, next)) :
    next = core ∨ status = .ok () ∧ Relinks core next peer mode requireOutgoingPlan := by
  unfold commitPeer at hcommit
  split at hcommit
  · exact Or.inl (Prod.mk.inj hcommit).2.symm
  split at hcommit
  · exact Or.inl (Prod.mk.inj hcommit).2.symm
  next hunknown =>
  have hlink : ∀ holdsSession, decide (mode = .active) = holdsSession →
      linkOf peer mode plan = ⟨peer.incarnationId, peer.layoutGeneration, mode, plan, holdsSession⟩ :=
    fun _ heq => heq ▸ rfl
  by_cases hactive : mode = .active
  · rcases hacquire : core.acquireSession peer.addr segment with ⟨acquired, held⟩
    have hlink := hlink _ (decide_eq_true hactive)
    simp only [hactive, decide_true, if_true, hacquire] at hcommit
    obtain ⟨hyes, hno⟩ := acquireSession_spec h.handlesOpen hacquire
    split at hcommit
    · exact Or.inl (Prod.mk.inj hcommit).2.symm
    next hacquired =>
    obtain ⟨rfl, rfl⟩ := Prod.mk.inj hcommit
    refine Or.inr ⟨rfl, hunknown, plan, ?_⟩
    rw [if_pos hactive, hlink, hactive]
    exact (hyes (by simpa using hacquired)).settle h _
  · have hlink := hlink _ (decide_eq_false hactive)
    simp only [hactive, decide_false, Bool.false_eq_true, if_false, Bool.true_eq_false] at hcommit
    obtain ⟨rfl, rfl⟩ := Prod.mk.inj hcommit
    refine Or.inr ⟨rfl, hunknown, plan, ?_⟩
    rw [if_neg hactive, hlink]
    exact (Recounts.refl h.handlesOpen peer.addr).settle h _

variable {cpIndexWriteMode : Int}

theorem setCachePeer_cases (h : core.Consistent) {status : PeerStatus}
    (hset : core.setCachePeer cpIndexWriteMode peer mode requireOutgoingPlan segment =
      (status, next)) :
    next = core ∨ (status = .ok () ∧ mode = .absent ∧ next = core.unlinkPeer peer) ∨
      (status = .ok () ∧ mode ≠ .absent ∧ Relinks core next peer mode requireOutgoingPlan) := by
  unfold setCachePeer at hset
  split at hset
  · exact Or.inl (Prod.mk.inj hset).2.symm
  split at hset
  · next habsent =>
    obtain ⟨rfl, rfl⟩ := Prod.mk.inj hset
    exact Or.inr (Or.inl ⟨rfl, habsent, rfl⟩)
  next hpresent =>
  split at hset
  · exact Or.inl (Prod.mk.inj hset).2.symm
  · exact Or.inl (Prod.mk.inj hset).2.symm
  split at hset
  · exact Or.inl (Prod.mk.inj hset).2.symm
  split at hset
  · exact Or.inl (Prod.mk.inj hset).2.symm
  · rcases commitPeer_spec h hset with hsame | ⟨hok, hrelinks⟩
    · exact Or.inl hsame
    · exact Or.inr (Or.inr ⟨hok, hpresent, hrelinks⟩)

theorem Relinks.consistent (h : core.Consistent)
    (hrelinks : Relinks core next peer mode requireOutgoingPlan) : next.Consistent := by
  obtain ⟨plan, held, hrecounts, rfl⟩ := hrelinks.link
  refine h.relink (some (linkOf peer mode plan)) hrecounts ?_ fun link hlink => ?_
  · have hholds : (linkOf peer mode plan).holdsSession = true ↔ mode = .active :=
      decide_eq_true_iff
    simp only [Option.any_some, hholds]
  · cases hlink
    rfl

/-- By the call: the handles open and the links counted move together. -/
theorem Consistent.of_step (h : core.Consistent) {call : Call}
    (hstep : step cpIndexWriteMode core call = .ok next) : next.Consistent := by
  cases call with
  | setLocalCacheLayout manifest =>
    cases hstep
    have hsame : ∀ layout, Consistent { core with localCacheLayout := layout } :=
      fun _ => ⟨h.counted, h.handlesOpen, h.modes⟩
    unfold setLocalCacheLayout
    split
    · exact h
    split
    · exact h
    split
    · exact h
    · exact hsame _
  | setCachePeer peer mode requireOutgoingPlan segment =>
    cases hstep
    rcases hset : core.setCachePeer cpIndexWriteMode peer mode requireOutgoingPlan segment
      with ⟨status, next⟩
    rcases setCachePeer_cases h hset with hsame | ⟨-, -, hunlinked⟩ | ⟨-, -, hrelinks⟩
    · exact hsame ▸ h
    · exact hunlinked ▸ unlinkPeer_consistent h peer
    · exact hrelinks.consistent h
  | openSession clusterId addr incrementExisting opened segment =>
    rcases hopen : core.openSession clusterId addr incrementExisting opened segment with ⟨ok, mid⟩
    obtain ⟨hyes, hno⟩ := openSession_spec h.handlesOpen hopen
    simp only [step, hopen] at hstep
    split at hstep
    · next hcounts =>
      cases hstep
      have hrecounts := hyes hcounts
      refine h.recount hrecounts ?_
      rw [hrecounts.opens, h.counted, Nat.add_right_comm]
    · next hcounts =>
      cases hstep
      exact hno hcounts ▸ h
  | closeSession clusterId addr closed =>
    rcases hclose : core.closeSession clusterId addr closed with ⟨ok, mid⟩
    simp only [step, hclose] at hstep
    split at hstep
    · next hopened =>
      cases hstep
      have hrecounts := releaseSession_spec h.handlesOpen addr
      rw [← closeSession_core clusterId addr closed, hclose] at hrecounts
      refine h.recount hrecounts ?_
      rw [hrecounts.opens, h.counted]
      omega
    · cases hstep

/-! ## Generations

Generations are compared within one incarnation. A link never goes back to an older layout there,
and the local layout is replaced by a later one only. -/

/-- What one call may make of links and of the local layout. -/
structure Moves (core next : MooncakeTransferEngineCore) : Prop where
  /-- A link gives way to no older layout of the same incarnation. -/
  links : ∀ addr link link', core.cachePeerLinks.lookup addr = some link →
    next.cachePeerLinks.lookup addr = some link' →
    link'.destinationIncarnation = link.destinationIncarnation →
    link.destinationLayoutGeneration ≤ link'.destinationLayoutGeneration
  /-- The local layout is replaced when nobody is linked, and within an incarnation by a later one. -/
  layout : next.localCacheLayout = core.localCacheLayout ∨ core.cachePeerLinks.keys = [] ∧
    ∃ new, next.localCacheLayout = some new ∧ ∀ old, core.localCacheLayout = some old →
      old.incarnationId = new.incarnationId → old.layoutGeneration < new.layoutGeneration

theorem Moves.of_same (hlinks : next.cachePeerLinks = core.cachePeerLinks)
    (hlayout : next.localCacheLayout = core.localCacheLayout) : Moves core next where
  links addr link link' hold hnew _ := by
    rw [hlinks, hold] at hnew
    cases hnew
    exact Nat.le_refl _
  layout := Or.inl hlayout

theorem Moves.of_put {held : MooncakeTransferEngineCore} (entry : Option CachePeerLink)
    (hrecounts : Recounts core held addr count)
    (hentry : ∀ link link', core.cachePeerLinks.lookup addr = some link → entry = some link' →
      link'.destinationIncarnation = link.destinationIncarnation →
      link.destinationLayoutGeneration ≤ link'.destinationLayoutGeneration) :
    Moves core { held with cachePeerLinks := put held.cachePeerLinks addr entry } where
  links other link link' hold hnew hincarnation := by
    rw [hrecounts.cachePeerLinks] at hnew
    by_cases heq : other = addr
    · rw [heq] at hold hnew
      rw [lookup_put_self] at hnew
      exact hentry link link' hold hnew hincarnation
    · rw [lookup_put_ne core.cachePeerLinks entry heq, hold] at hnew
      cases hnew
      exact Nat.le_refl _
  layout := Or.inl hrecounts.localCacheLayout

theorem Relinks.moves (hrelinks : Relinks core next peer mode requireOutgoingPlan) :
    Moves core next := by
  obtain ⟨plan, held, hrecounts, rfl⟩ := hrelinks.link
  refine Moves.of_put (some (linkOf peer mode plan)) hrecounts fun link link' hlink hlink' hincarnation => ?_
  cases hlink'
  have hunknown := hrelinks.unknown
  simp only [knownPeer, hlink] at hunknown
  split at hunknown
  · split at hunknown
    · cases hunknown
    · cases hunknown
  split at hunknown
  · cases hunknown
  · next hstale => exact Nat.le_of_not_lt fun hlt => hstale ⟨hincarnation.symm, hlt⟩

theorem unlinkPeer_moves (h : core.Consistent) (peer : WorkerCacheLayoutManifest) :
    Moves core (core.unlinkPeer peer) := by
  unfold unlinkPeer
  split
  · exact .of_same rfl rfl
  split
  · split
    · exact .of_put none (releaseSession_spec h.handlesOpen peer.addr)
        fun _ _ _ habs => absurd habs (by simp)
    · exact .of_put none (Recounts.refl h.handlesOpen peer.addr)
        fun _ _ _ habs => absurd habs (by simp)
  · exact .of_same rfl rfl

theorem setLocalCacheLayout_moves (core : MooncakeTransferEngineCore)
    (manifest : WorkerCacheLayoutManifest) : Moves core (core.setLocalCacheLayout manifest).2 := by
  unfold setLocalCacheLayout
  split
  · exact .of_same rfl rfl
  split
  · exact .of_same rfl rfl
  next hlinked =>
  split
  · exact .of_same rfl rfl
  next hlater =>
  refine ⟨(Moves.of_same (rfl : core.cachePeerLinks = core.cachePeerLinks)
    rfl).links, Or.inr ⟨Classical.not_not.mp hlinked, manifest, rfl, fun old hold hsame => ?_⟩⟩
  rw [hold] at hlater
  refine Nat.lt_of_not_le fun hle => hlater ?_
  simpa using ⟨hsame, hle⟩

theorem Moves.of_step (h : core.Consistent) {call : Call}
    (hstep : step cpIndexWriteMode core call = .ok next) : Moves core next := by
  cases call with
  | setLocalCacheLayout manifest =>
    cases hstep
    exact setLocalCacheLayout_moves core manifest
  | setCachePeer peer mode requireOutgoingPlan segment =>
    cases hstep
    rcases hset : core.setCachePeer cpIndexWriteMode peer mode requireOutgoingPlan segment
      with ⟨status, next⟩
    rcases setCachePeer_cases h hset with hsame | ⟨-, -, hunlinked⟩ | ⟨-, -, hrelinks⟩
    · exact .of_same (hsame ▸ rfl) (hsame ▸ rfl)
    · exact hunlinked ▸ unlinkPeer_moves h peer
    · exact hrelinks.moves
  | openSession clusterId addr incrementExisting opened segment =>
    rcases hopen : core.openSession clusterId addr incrementExisting opened segment with ⟨ok, mid⟩
    obtain ⟨hyes, hno⟩ := openSession_spec h.handlesOpen hopen
    simp only [step, hopen] at hstep
    split at hstep
    · next hcounts =>
      cases hstep
      exact .of_same (hyes hcounts).cachePeerLinks (hyes hcounts).localCacheLayout
    · next hcounts =>
      cases hstep
      exact .of_same (hno hcounts ▸ rfl) (hno hcounts ▸ rfl)
  | closeSession clusterId addr closed =>
    rcases hclose : core.closeSession clusterId addr closed with ⟨ok, mid⟩
    simp only [step, hclose] at hstep
    split at hstep
    · cases hstep
      have hrecounts := releaseSession_spec h.handlesOpen addr
      rw [← closeSession_core clusterId addr closed, hclose] at hrecounts
      exact .of_same hrecounts.cachePeerLinks hrecounts.localCacheLayout
    · cases hstep

/-! ## Every run -/

/-- What holds of the engine, and of the next call, after any sequence of calls. -/
structure PeersSafe (cpIndexWriteMode : Int) (core : MooncakeTransferEngineCore) : Prop where
  /-- A handle has a reference for each open session, and one for the link that holds it. -/
  counted : ∀ addr, core.refs addr = core.opens addr + core.holds addr
  /-- An active peer has an open handle. -/
  active : ∀ addr link, core.cachePeerLinks.lookup addr = some link → link.mode = .active →
    ∃ info, core.handles.lookup addr = some info ∧ 0 < info.refCount ∧ info.handle ≠ -1
  /-- A `set_cache_peer` that fails changes nothing. -/
  failed : ∀ peer mode requireOutgoingPlan segment status next,
    core.setCachePeer cpIndexWriteMode peer mode requireOutgoingPlan segment = (status, next) →
    status ≠ .ok () → next = core
  /-- ABSENT changes nothing when the link is not with this layout. -/
  absent : ∀ peer requireOutgoingPlan segment,
    (∀ link, core.cachePeerLinks.lookup peer.addr = some link → ¬ identityMatches link peer) →
    (core.setCachePeer cpIndexWriteMode peer .absent requireOutgoingPlan segment).2 = core
  moves : ∀ call next, step cpIndexWriteMode core call = .ok next → Moves core next

theorem Consistent.active (h : core.Consistent) {link : CachePeerLink}
    (hlink : core.cachePeerLinks.lookup addr = some link) (hactive : link.mode = .active) :
    ∃ info, core.handles.lookup addr = some info ∧ 0 < info.refCount ∧ info.handle ≠ -1 := by
  have hholds : core.holds addr = 1 := by
    unfold holds
    rw [hlink, Option.any_some, h.modes addr link hlink, decide_eq_true hactive, if_pos rfl]
  have hcounted := h.counted addr
  cases hinfo : core.handles.lookup addr with
  | none =>
    rw [refs_of_none hinfo, hholds] at hcounted
    cases hcounted
  | some info => exact ⟨info, rfl, h.handlesOpen addr info hinfo⟩

theorem unlinkPeer_of_not_matches
    (hno : ∀ link, core.cachePeerLinks.lookup peer.addr = some link →
      ¬ identityMatches link peer) : core.unlinkPeer peer = core := by
  unfold unlinkPeer
  split
  · rfl
  · next link hlink => rw [if_neg (hno link hlink)]

/-- After any sequence of calls of `set_local_cache_layout`, `set_cache_peer`, `open_session` and
matching `close_session`. -/
theorem cache_peers {cpIndexWriteMode : Int} {calls : List Call}
    (run : Reaches (step cpIndexWriteMode) {} calls core) : PeersSafe cpIndexWriteMode core := by
  have h : core.Consistent := run.invariant (fun _ _ _ h _ hstep => h.of_step hstep) .init
  refine ⟨h.counted, fun _ _ => h.active, ?_, ?_, fun _ _ hstep => .of_step h hstep⟩
  · intro peer mode requireOutgoingPlan segment status next hset hfailed
    rcases setCachePeer_cases h hset with hsame | ⟨hok, -⟩ | ⟨hok, -⟩
    · exact hsame
    · exact absurd hok hfailed
    · exact absurd hok hfailed
  · intro peer requireOutgoingPlan segment hno
    unfold setCachePeer
    split
    · rfl
    · exact unlinkPeer_of_not_matches hno

/-- A peer worker, of another process. -/
def peerManifest : WorkerCacheLayoutManifest :=
  { smallManifest 4 1 with incarnationId := "peer", addr := "peer" }

/-- Two sessions with a peer and an active link; then one session is closed, and the remote does not
answer. -/
theorem cache_peers_linked : ∃ core, PeersSafe 1 core ∧
    (core.refs "peer" = 2 ∧ core.opens "peer" = 1 ∧ core.holds "peer" = 1) := by
  have hrun : ∃ core, Reaches (step 1) {} [.setLocalCacheLayout (smallManifest 2 0),
      .openSession 1 "peer" true true (some 5), .setCachePeer peerManifest .active true none,
      .openSession 1 "peer" true true none, .closeSession 1 "peer" false] core ∧
      decide (core.refs "peer" = 2 ∧ core.opens "peer" = 1 ∧ core.holds "peer" = 1) = true :=
    ReachesWith.of_check (fun core : MooncakeTransferEngineCore => decide (core.refs "peer" = 2 ∧
      core.opens "peer" = 1 ∧ core.holds "peer" = 1)) _ _ (by decide +kernel)
  obtain ⟨core, run, hcounts⟩ := hrun
  exact ⟨core, cache_peers run, of_decide_eq_true hcounts⟩

/-- A worker that is started again begins with an older generation, and its layout is taken. -/
theorem restart_lowers_generation : ∃ core next,
    Reaches (step 1) {} [.setLocalCacheLayout { smallManifest 2 0 with layoutGeneration := 2 }] core ∧
    step 1 core (.setLocalCacheLayout { smallManifest 2 0 with incarnationId := "restarted" }) =
      .ok next ∧
    ∃ old new, core.localCacheLayout = some old ∧ next.localCacheLayout = some new ∧
      new.layoutGeneration < old.layoutGeneration := by
  refine ⟨_, _, .snoc (.refl _) trivial rfl, rfl, { smallManifest 2 0 with layoutGeneration := 2 },
    { smallManifest 2 0 with incarnationId := "restarted" }, ?_, ?_, by decide⟩
  · rfl
  · rfl

end MooncakeTransferEngineCore

end Xllm.Framework
