import Xllm.KvCacheTransfer.LinkFrames

/-!
# The loops of `link_sessions`

The loop goes through if and only if every pair can be linked (`linkPairs_iff`). The rollback does
not know which links were there before the call: it drops every link with the layouts of the call,
and a link with another layout is gone once the loop has replaced it (`LosesLink`). Apart from
that a call that fails and is rolled back changes no link (`rollBack_sameLinks_iff`).
-/

namespace Xllm.Framework

open Xllm.Lib List

namespace Workers

open MooncakeTransferEngineCore

variable {workers next : Workers} {localManifest : WorkerCacheLayoutManifest} {pair : Pair}

/-! ## One pair -/

/-- The request to link the pair reaches the remote worker, and is accepted there. -/
def Accepted (workers : Workers) (localManifest : WorkerCacheLayoutManifest) (pair : Pair) : Prop :=
  pair.network.linked ≠ .lost ∧
    ((workers.remotes pair.clusterId).setCachePeer (workers.remoteWriteModes pair.clusterId)
      localManifest pair.mode true pair.network.remoteSegment).1 = .ok ()

/-- The pair is linked on both sides, and the answer of the remote worker arrives. -/
def Linkable (workers : Workers) (localManifest : WorkerCacheLayoutManifest) (pair : Pair) : Prop :=
  pair.network.linked = .answered ∧ workers.Accepted localManifest pair ∧
    (workers.core.setCachePeer workers.writeMode pair.manifest pair.mode false
      pair.network.localSegment).1 = .ok ()

theorem isOk_iff {status : PeerStatus} : status.isOk = true ↔ status = .ok () := by
  cases status with
  | ok u => exact iff_of_true rfl rfl
  | error e => exact iff_of_false (by simp [Except.isOk, Except.toBool]) (by simp)

/-- A turn of the loop that links the pairs. -/
structure Turn (workers next : Workers) (localManifest : WorkerCacheLayoutManifest) (pair : Pair)
    (linked : Bool) : Prop where
  frame : Frame workers next localManifest.addr [pair]
  linked_iff : linked = true ↔ workers.Linkable localManifest pair
  accepted : workers.Accepted localManifest pair →
    LinkedAs (next.remotes pair.clusterId) localManifest pair.mode
  refused : ¬ workers.Accepted localManifest pair →
    next.remotes pair.clusterId = workers.remotes pair.clusterId
  both : workers.Linkable localManifest pair → LinkedAs next.core pair.manifest pair.mode
  neither : ¬ workers.Linkable localManifest pair → next.core = workers.core

/-- One pair: a lost request changes nothing, then the remote side, then the local one. -/
theorem linkPair_spec (hmode : pair.mode ≠ .absent) :
    Turn workers (workers.linkPair localManifest pair).2 localManifest pair
      (workers.linkPair localManifest pair).1 := by
  have hremote := setRemotePeer_frame workers pair localManifest pair.mode pair.network.linked
    pair.network.remoteSegment
  rcases hset : (workers.remotes pair.clusterId).setCachePeer
    (workers.remoteWriteModes pair.clusterId) localManifest pair.mode true
      pair.network.remoteSegment with ⟨status, remote⟩
  obtain ⟨_, hok, hfailed⟩ := setCachePeer_at hmode hset
  unfold linkPair
  unfold setRemotePeer at hremote ⊢
  by_cases hlost : pair.network.linked = .lost
  · have hnot : ¬ workers.Accepted localManifest pair := fun h => h.1 hlost
    have hneither : ¬ workers.Linkable localManifest pair := fun h => hnot h.2.1
    rw [if_pos hlost]
    exact ⟨.refl _ _ _, iff_of_false (by simp) hneither, fun h => absurd h hnot, fun _ => rfl,
      fun h => absurd h hneither, fun _ => rfl⟩
  rw [if_neg hlost] at hremote ⊢
  rw [hset] at hremote ⊢
  dsimp only at hremote ⊢
  have haccepted : workers.Accepted localManifest pair ↔ status = .ok () := by
    unfold Accepted
    rw [hset]
    exact and_iff_right hlost
  have hself : ({ workers with remotes := Function.update workers.remotes pair.clusterId remote } :
      Workers).remotes pair.clusterId = remote := Function.update_self _ _ _
  split
  · next hanswer =>
    have hneither : ¬ workers.Linkable localManifest pair := by
      intro h
      have hstatus := isOk_iff.mpr (haccepted.mp h.2.1)
      rw [h.1, hstatus] at hanswer
      cases hanswer
    refine ⟨hremote, iff_of_false (by simp) hneither, fun h => ?_, fun h => ?_,
      fun h => absurd h hneither, fun _ => rfl⟩
    · rw [hself]
      exact hok (haccepted.mp h)
    · rw [hself]
      exact hfailed fun hstatus => h (haccepted.mpr hstatus)
  next hanswer =>
  rw [Bool.not_eq_false, Bool.and_eq_true, decide_eq_true_iff, isOk_iff] at hanswer
  obtain ⟨hanswered, hstatus⟩ := hanswer
  have hlocal := setLocalPeer_frame
    { workers with remotes := Function.update workers.remotes pair.clusterId remote } pair
    localManifest.addr pair.mode pair.network.localSegment
  rcases hset' : workers.core.setCachePeer workers.writeMode pair.manifest pair.mode false
    pair.network.localSegment with ⟨status', core⟩
  obtain ⟨_, hok', hfailed'⟩ := setCachePeer_at hmode hset'
  have hlinkable : workers.Linkable localManifest pair ↔ status' = .ok () := by
    unfold Linkable
    rw [hset']
    exact ⟨fun h => h.2.2, fun h => ⟨hanswered, haccepted.mpr hstatus, h⟩⟩
  unfold setLocalPeer at hlocal ⊢
  rw [hset'] at hlocal ⊢
  refine ⟨(hremote.trans hlocal).mono (by simp), ?_, fun _ => ?_, fun h => ?_, fun h => ?_,
    fun h => ?_⟩
  · rw [hlinkable]
    exact isOk_iff
  · show LinkedAs (Function.update workers.remotes pair.clusterId remote pair.clusterId) _ _
    rw [Function.update_self]
    exact hok hstatus
  · exact absurd (haccepted.mpr hstatus) h
  · exact hok' (hlinkable.mp h)
  · exact hfailed' fun hstatus' => h (hlinkable.mpr hstatus')

/-- Two pairs with different workers. -/
def Apart (p q : Pair) : Prop := p.clusterId ≠ q.clusterId ∧ p.manifest.addr ≠ q.manifest.addr

variable {localAddr : String} {pairs : List Pair}

theorem Frame.accepted_iff
    (h : Frame workers next localAddr pairs) (hapart : ∀ q ∈ pairs, Apart q pair) :
    next.Accepted localManifest pair ↔ workers.Accepted localManifest pair := by
  unfold Accepted
  rw [h.remotes pair.clusterId fun q hq => (hapart q hq).1, h.remoteWriteModes]

theorem Frame.linkable_iff
    (h : Frame workers next localAddr pairs) (hapart : ∀ q ∈ pairs, Apart q pair) :
    next.Linkable localManifest pair ↔ workers.Linkable localManifest pair := by
  unfold Linkable
  rw [h.accepted_iff hapart, h.writeMode, setCachePeer_status_congr h.localCacheLayout
    (h.links _ fun q hq => (hapart q hq).2) (h.handles _ fun q hq => (hapart q hq).2)]

theorem unlinkPair_spec (hlocal : validateWorkerCacheLayout localManifest = .ok ())
    (hremote : validateWorkerCacheLayout pair.manifest = .ok ())
    (hdelivered : pair.network.rolledBack ≠ .lost) :
    ((workers.unlinkPair localManifest pair).remotes pair.clusterId).cachePeerLinks.lookup
        localManifest.addr =
      ((workers.remotes pair.clusterId).cachePeerLinks.lookup localManifest.addr).filter
        (fun link => ¬ identityMatches link localManifest) ∧
    (workers.unlinkPair localManifest pair).core.cachePeerLinks.lookup pair.manifest.addr =
      (workers.core.cachePeerLinks.lookup pair.manifest.addr).filter
        (fun link => ¬ identityMatches link pair.manifest) := by
  unfold unlinkPair setRemotePeer setLocalPeer
  rw [if_neg hdelivered, setCachePeer_absent hlocal]
  dsimp only
  rw [setCachePeer_absent hremote]
  rw [Function.update_self]
  exact ⟨(unlinkPeer_spec _ localManifest).2, (unlinkPeer_spec _ pair.manifest).2⟩

theorem unlinkPair_frame (workers : Workers) (localManifest : WorkerCacheLayoutManifest)
    (pair : Pair) :
    Frame workers (workers.unlinkPair localManifest pair) localManifest.addr [pair] := by
  have hremote :=
    setRemotePeer_frame workers pair localManifest .absent pair.network.rolledBack none
  have hlocal := setLocalPeer_frame (workers.setRemotePeer pair.clusterId localManifest .absent
    pair.network.rolledBack none).2 pair localManifest.addr .absent none
  exact (hremote.trans hlocal).mono (by simp)

/-! ## The loops -/

variable {pairs before after : List Pair}

theorem linkPairs_frame (hmodes : ∀ p ∈ pairs, p.mode ≠ .absent) :
    Frame workers (linkPairs localManifest pairs workers).2 localManifest.addr pairs := by
  induction pairs generalizing workers with
  | nil => exact .refl _ _ _
  | cons pair pairs ih =>
    have hturn := @linkPair_spec workers localManifest pair (hmodes pair mem_cons_self)
    rw [linkPairs]
    dsimp only
    split
    · exact hturn.frame.mono fun p hp => mem_cons.mpr (Or.inl (mem_singleton.mp hp))
    · exact hturn.frame.trans (ih fun p hp => hmodes p (mem_cons_of_mem _ hp))

theorem rollBack_frame (workers : Workers) (localManifest : WorkerCacheLayoutManifest)
    (pairs : List Pair) :
    Frame workers (rollBack localManifest pairs workers) localManifest.addr pairs := by
  induction pairs generalizing workers with
  | nil => exact .refl _ _ _
  | cons pair pairs ih => exact (unlinkPair_frame workers localManifest pair).trans (ih _)

theorem linkPairs_iff (hmodes : ∀ p ∈ pairs, p.mode ≠ .absent) (hapart : pairs.Pairwise Apart) :
    (linkPairs localManifest pairs workers).1 = true ↔
      ∀ p ∈ pairs, workers.Linkable localManifest p := by
  induction pairs generalizing workers with
  | nil => exact iff_of_true rfl fun p hp => by cases hp
  | cons pair pairs ih =>
    have hturn := @linkPair_spec workers localManifest pair (hmodes pair mem_cons_self)
    obtain ⟨hfirst, hapart⟩ := pairwise_cons.mp hapart
    rw [linkPairs, forall_mem_cons]
    dsimp only
    split
    · next hfailed =>
      refine iff_of_false (by simp) fun h => ?_
      rw [hturn.linked_iff.mpr h.1] at hfailed
      cases hfailed
    · next hlinked =>
      rw [Bool.not_eq_false] at hlinked
      rw [ih (fun p hp => hmodes p (mem_cons_of_mem _ hp)) hapart]
      have hpair := hturn.linked_iff.mp hlinked
      constructor
      · intro h
        refine ⟨hpair, fun p hp => (hturn.frame.linkable_iff fun q hq => ?_).mp (h p hp)⟩
        rw [mem_singleton.mp hq]
        exact hfirst p hp
      · intro h p hp
        refine (hturn.frame.linkable_iff fun q hq => ?_).mpr (h.2 p hp)
        rw [mem_singleton.mp hq]
        exact hfirst p hp

/-- What the loop has done to a pair when it ends. -/
structure After (workers next : Workers) (localManifest : WorkerCacheLayoutManifest)
    (before : List Pair) (pair : Pair) : Prop where
  accepted : (∀ p ∈ before, workers.Linkable localManifest p) →
    workers.Accepted localManifest pair →
      LinkedAs (next.remotes pair.clusterId) localManifest pair.mode
  refused : ¬ ((∀ p ∈ before, workers.Linkable localManifest p) ∧
    workers.Accepted localManifest pair) →
      next.remotes pair.clusterId = workers.remotes pair.clusterId
  both : (∀ p ∈ before, workers.Linkable localManifest p) →
    workers.Linkable localManifest pair → LinkedAs next.core pair.manifest pair.mode
  neither : ¬ ((∀ p ∈ before, workers.Linkable localManifest p) ∧
    workers.Linkable localManifest pair) →
      next.core.cachePeerLinks.lookup pair.manifest.addr =
        workers.core.cachePeerLinks.lookup pair.manifest.addr

variable {mode : CachePeerMode}

theorem linkedAs_of_frame (h : Frame workers next localAddr after)
    (hapart : ∀ q ∈ after, Apart pair q) (hlinked : LinkedAs workers.core pair.manifest mode) :
    LinkedAs next.core pair.manifest mode := by
  unfold LinkedAs at hlinked ⊢
  rw [h.links _ fun q hq => (hapart q hq).2.symm]
  exact hlinked

/-- By induction on the pairs before; pairs that are apart do not change each other's links. -/
theorem linkPairs_after (hmodes : ∀ p ∈ before ++ pair :: after, p.mode ≠ .absent)
    (hapart : (before ++ pair :: after).Pairwise Apart) :
    After workers (linkPairs localManifest (before ++ pair :: after) workers).2 localManifest before
      pair := by
  induction before generalizing workers with
  | nil =>
    have hturn := @linkPair_spec workers localManifest pair (hmodes pair mem_cons_self)
    have hrest := (pairwise_cons.mp hapart).1
    rw [nil_append, linkPairs]
    dsimp only
    split
    · next hfailed =>
      have hnot : ¬ workers.Linkable localManifest pair := by
        intro h
        rw [hturn.linked_iff.mpr h] at hfailed
        cases hfailed
      refine ⟨fun _ => hturn.accepted, fun h => hturn.refused fun hyes => ?_, fun _ => hturn.both,
        fun _ => by rw [hturn.neither hnot]⟩
      exact h ⟨fun p hp => (by cases hp), hyes⟩
    · next hlinked =>
      rw [Bool.not_eq_false] at hlinked
      have hpair := hturn.linked_iff.mp hlinked
      have hframe := @linkPairs_frame (workers.linkPair localManifest pair).2 localManifest after
        fun p hp => hmodes p (mem_cons_of_mem _ hp)
      have hremote := hframe.remotes pair.clusterId fun q hq => (hrest q hq).1.symm
      refine ⟨fun _ h => ?_, fun h => ?_, fun _ h => ?_, fun h => ?_⟩
      · rw [hremote]
        exact hturn.accepted h
      · exact absurd ⟨fun p hp => (by cases hp), hpair.2.1⟩ h
      · exact linkedAs_of_frame hframe hrest (hturn.both h)
      · exact absurd ⟨fun p hp => (by cases hp), hpair⟩ h
  | cons first before ih =>
    have hturn := @linkPair_spec workers localManifest first (hmodes first mem_cons_self)
    obtain ⟨hfirst, hapart⟩ := pairwise_cons.mp hapart
    have hmem : pair ∈ before ++ pair :: after := mem_append_right _ mem_cons_self
    have hpairApart : ∀ q ∈ [first], Apart q pair := by
      intro q hq
      rw [mem_singleton.mp hq]
      exact hfirst pair hmem
    have hlink := hturn.frame.links pair.manifest.addr fun q hq => (hpairApart q hq).2
    have hremote := hturn.frame.remotes pair.clusterId fun q hq => (hpairApart q hq).1
    rw [cons_append, linkPairs]
    dsimp only
    split
    · next hfailed =>
      have hnot : ¬ ∀ p ∈ first :: before, workers.Linkable localManifest p := by
        intro h
        rw [hturn.linked_iff.mpr (h first mem_cons_self)] at hfailed
        cases hfailed
      exact ⟨fun h => absurd h hnot, fun _ => hremote, fun h => absurd h hnot, fun _ => hlink⟩
    · next hlinked =>
      rw [Bool.not_eq_false] at hlinked
      have hpair := hturn.linked_iff.mp hlinked
      have hafter := @ih (workers.linkPair localManifest first).2
        (fun p hp => hmodes p (mem_cons_of_mem _ hp)) hapart
      have hbefore : (∀ p ∈ before,
          (workers.linkPair localManifest first).2.Linkable localManifest p) ↔
            ∀ p ∈ first :: before, workers.Linkable localManifest p := by
        rw [forall_mem_cons, and_iff_right hpair]
        refine forall₂_congr fun p hp => hturn.frame.linkable_iff fun q hq => ?_
        rw [mem_singleton.mp hq]
        exact hfirst p (mem_append_left _ hp)
      have haccepted : (workers.linkPair localManifest first).2.Accepted localManifest pair ↔
          workers.Accepted localManifest pair := hturn.frame.accepted_iff hpairApart
      have hlinkable : (workers.linkPair localManifest first).2.Linkable localManifest pair ↔
          workers.Linkable localManifest pair := hturn.frame.linkable_iff hpairApart
      refine ⟨fun h h' => ?_, fun h => ?_, fun h h' => ?_, fun h => ?_⟩
      · exact hafter.accepted (hbefore.mpr h) (haccepted.mpr h')
      · rw [hafter.refused, hremote]
        rw [hbefore, haccepted]
        exact h
      · exact hafter.both (hbefore.mpr h) (hlinkable.mpr h')
      · rw [hafter.neither, hlink]
        rw [hbefore, hlinkable]
        exact h

theorem rollBack_after (hlocal : validateWorkerCacheLayout localManifest = .ok ())
    (hremote : validateWorkerCacheLayout pair.manifest = .ok ())
    (hdelivered : pair.network.rolledBack ≠ .lost)
    (hapart : (before ++ pair :: after).Pairwise Apart) :
    ((rollBack localManifest (before ++ pair :: after) workers).remotes
        pair.clusterId).cachePeerLinks.lookup localManifest.addr =
      ((workers.remotes pair.clusterId).cachePeerLinks.lookup localManifest.addr).filter
        (fun link => ¬ identityMatches link localManifest) ∧
    (rollBack localManifest (before ++ pair :: after) workers).core.cachePeerLinks.lookup
        pair.manifest.addr =
      (workers.core.cachePeerLinks.lookup pair.manifest.addr).filter
        (fun link => ¬ identityMatches link pair.manifest) := by
  induction before generalizing workers with
  | nil =>
    have hrest := (pairwise_cons.mp hapart).1
    have hframe := rollBack_frame (workers.unlinkPair localManifest pair) localManifest after
    rw [nil_append, rollBack, hframe.remotes _ fun q hq => (hrest q hq).1.symm,
      hframe.links _ fun q hq => (hrest q hq).2.symm]
    exact unlinkPair_spec hlocal hremote hdelivered
  | cons first before ih =>
    obtain ⟨hfirst, hapart⟩ := pairwise_cons.mp hapart
    have hpair := hfirst pair (mem_append_right _ mem_cons_self)
    have hframe := unlinkPair_frame workers localManifest first
    have hafter := @ih (workers.unlinkPair localManifest first) hapart
    rw [hframe.remotes _ fun q hq => (mem_singleton.mp hq ▸ hpair).1,
      hframe.links _ fun q hq => (mem_singleton.mp hq ▸ hpair).2] at hafter
    exact hafter

/-! ## The links of a failed call -/

/-- No link is new, none is gone, and the record of the peers is the same. -/
structure SameLinks (workers next : Workers) : Prop where
  remotes : ∀ clusterId addr, (next.remotes clusterId).cachePeerLinks.lookup addr =
    (workers.remotes clusterId).cachePeerLinks.lookup addr
  core : ∀ addr, next.core.cachePeerLinks.lookup addr = workers.core.cachePeerLinks.lookup addr
  cachePeers : next.cachePeers = workers.cachePeers

/-- Some side of a pair was linked before the call: with the layout of the call, or with another one
that the loop replaces before it fails. -/
def LosesLink (workers : Workers) (localManifest : WorkerCacheLayoutManifest) (pairs : List Pair) :
    Prop :=
  ∃ before pair after, pairs = before ++ pair :: after ∧
    ((∃ link,
        (workers.remotes pair.clusterId).cachePeerLinks.lookup localManifest.addr = some link ∧
        (identityMatches link localManifest ∨ (∀ p ∈ before, workers.Linkable localManifest p) ∧
            workers.Accepted localManifest pair)) ∨
      ∃ link, workers.core.cachePeerLinks.lookup pair.manifest.addr = some link ∧
        (identityMatches link pair.manifest ∨ (∀ p ∈ before, workers.Linkable localManifest p) ∧
            workers.Linkable localManifest pair))

variable {peer : WorkerCacheLayoutManifest}

/-- A link that the loop may have replaced, and that the rollback drops if it is with the layout. -/
theorem filter_eq_iff {old linked : Option CachePeerLink} {replaced : Prop}
    (hreplaced : replaced → ∃ link, linked = some link ∧ identityMatches link peer)
    (hkept : ¬ replaced → linked = old) :
    linked.filter (fun link => ¬ identityMatches link peer) = old ↔
      ¬ ∃ link, old = some link ∧ (identityMatches link peer ∨ replaced) := by
  by_cases h : replaced
  · obtain ⟨link, hlink, hmatches⟩ := hreplaced h
    have hdropped : (some link).filter (fun link => ¬ identityMatches link peer) = none := by
      simp [hmatches]
    rw [hlink, hdropped]
    cases old with
    | none => exact iff_of_true rfl fun hold => by obtain ⟨_, hold, _⟩ := hold; cases hold
    | some link' => exact iff_of_false (by simp) fun hno => hno ⟨link', rfl, Or.inr h⟩
  · rw [hkept h]
    cases old with
    | none => exact iff_of_true rfl fun hold => by obtain ⟨_, hold, _⟩ := hold; cases hold
    | some link =>
      by_cases hmatches : identityMatches link peer
      · exact iff_of_false (by simp [hmatches]) fun hno => hno ⟨link, rfl, Or.inl hmatches⟩
      · refine iff_of_true (by simp [hmatches]) fun hold => ?_
        obtain ⟨link', hlink', hlost⟩ := hold
        cases hlink'
        exact hlost.elim hmatches h

theorem exists_link {core : MooncakeTransferEngineCore} (h : LinkedAs core peer mode) :
    ∃ link, core.cachePeerLinks.lookup peer.addr = some link ∧ identityMatches link peer := by
  obtain ⟨link, hlink, hmatches, _⟩ := h
  exact ⟨link, hlink, hmatches⟩

/-- What is needed of the pairs: layouts that are valid, and workers that are not the same. -/
structure PairsValid (localManifest : WorkerCacheLayoutManifest) (pairs : List Pair) : Prop where
  localManifest : validateWorkerCacheLayout localManifest = .ok ()
  manifests : ∀ p ∈ pairs, validateWorkerCacheLayout p.manifest = .ok ()
  addrs : ∀ p ∈ pairs, p.manifest.addr = p.remoteAddr
  modes : ∀ p ∈ pairs, p.mode ≠ .absent
  apart : pairs.Pairwise Apart

theorem rollBack_pair (h : PairsValid localManifest (before ++ pair :: after))
    (hdelivered : pair.network.rolledBack ≠ .lost) :
    ((((rollBack localManifest (before ++ pair :: after)
        (linkPairs localManifest (before ++ pair :: after) workers).2).remotes
          pair.clusterId).cachePeerLinks.lookup localManifest.addr =
        (workers.remotes pair.clusterId).cachePeerLinks.lookup localManifest.addr) ↔ ¬ ∃ link,
        (workers.remotes pair.clusterId).cachePeerLinks.lookup localManifest.addr = some link ∧
        (identityMatches link localManifest ∨ (∀ p ∈ before, workers.Linkable localManifest p) ∧
            workers.Accepted localManifest pair)) ∧
    (((rollBack localManifest (before ++ pair :: after)
        (linkPairs localManifest (before ++ pair :: after) workers).2).core.cachePeerLinks.lookup
          pair.manifest.addr = workers.core.cachePeerLinks.lookup pair.manifest.addr) ↔
      ¬ ∃ link, workers.core.cachePeerLinks.lookup pair.manifest.addr = some link ∧
        (identityMatches link pair.manifest ∨ (∀ p ∈ before, workers.Linkable localManifest p) ∧
            workers.Linkable localManifest pair)) := by
  have hmem : pair ∈ before ++ pair :: after := mem_append_right _ mem_cons_self
  have hafter := @linkPairs_after workers localManifest pair before after h.modes h.apart
  obtain ⟨hremote, hlocal⟩ := @rollBack_after
    (linkPairs localManifest (before ++ pair :: after) workers).2 localManifest pair before after
    h.localManifest (h.manifests pair hmem) hdelivered h.apart
  rw [hremote, hlocal]
  constructor
  · refine filter_eq_iff (fun hyes => ?_) (fun hno => ?_)
    · exact exists_link (hafter.accepted hyes.1 hyes.2)
    · rw [hafter.refused hno]
  · refine filter_eq_iff (fun hyes => ?_) (fun hno => ?_)
    · exact exists_link (hafter.both hyes.1 hyes.2)
    · exact hafter.neither hno

/-- A call that failed and was rolled back has changed no link if and only if it loses none. -/
theorem rollBack_sameLinks_iff (h : PairsValid localManifest pairs)
    (hdelivered : ∀ p ∈ pairs, p.network.rolledBack ≠ .lost) :
    SameLinks workers (rollBack localManifest pairs (linkPairs localManifest pairs workers).2) ↔
      ¬ LosesLink workers localManifest pairs := by
  constructor
  · intro hsame hloses
    obtain ⟨before, pair, after, rfl, hloses⟩ := hloses
    have hmem : pair ∈ before ++ pair :: after := mem_append_right _ mem_cons_self
    obtain ⟨hremote, hlocal⟩ := @rollBack_pair workers localManifest pair before after h
      (hdelivered pair hmem)
    cases hloses with
    | inl hloses => exact hremote.mp (hsame.remotes _ _) hloses
    | inr hloses => exact hlocal.mp (hsame.core _) hloses
  · intro hkeeps
    have hframe : Frame workers
        (rollBack localManifest pairs (linkPairs localManifest pairs workers).2)
        localManifest.addr pairs :=
      ((linkPairs_frame h.modes).trans (rollBack_frame _ localManifest pairs)).mono (by simp)
    refine ⟨fun clusterId addr => ?_, fun addr => ?_, hframe.cachePeers⟩
    · by_cases haddr : addr = localManifest.addr
      · by_cases hpair : ∃ pair ∈ pairs, pair.clusterId = clusterId
        · obtain ⟨pair, hmem, rfl⟩ := hpair
          have hpairDelivered := hdelivered pair hmem
          obtain ⟨before, after, rfl⟩ := append_of_mem hmem
          rw [haddr]
          refine (rollBack_pair h hpairDelivered).1.mpr fun hloses => ?_
          exact hkeeps ⟨before, pair, after, rfl, Or.inl hloses⟩
        · rw [hframe.remotes clusterId fun pair hmem heq => hpair ⟨pair, hmem, heq⟩]
      · exact hframe.remoteLinks clusterId addr haddr
    · by_cases hpair : ∃ pair ∈ pairs, pair.manifest.addr = addr
      · obtain ⟨pair, hmem, rfl⟩ := hpair
        have hpairDelivered := hdelivered pair hmem
        obtain ⟨before, after, rfl⟩ := append_of_mem hmem
        refine (rollBack_pair h hpairDelivered).2.mpr fun hloses => ?_
        exact hkeeps ⟨before, pair, after, rfl, Or.inr hloses⟩
      · exact hframe.links addr fun pair hmem heq => hpair ⟨pair, hmem, heq⟩

end Workers

end Xllm.Framework
