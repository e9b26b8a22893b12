import Xllm.KvCacheTransfer.LinkAllOrNothing

/-!
# Linking is all or nothing, but for links that were there

`link_sessions` as a whole: a success leaves every pair linked on both sides, ACTIVE for the
selected sources and PLAN_ONLY for the others. A failure that is rolled back leaves all links as
they were, unless it loses one that was there before (`linkSessions_allOrNothing_iff`).
-/

namespace Xllm.Framework

open Xllm.Lib List

namespace Workers

open MooncakeTransferEngineCore

variable {workers : Workers} {localManifest : WorkerCacheLayoutManifest} {pairs : List Pair}

/-! ## What is known before the loops -/

variable {u : Unit}

theorem checkSources_distinct {reference : WorkerCacheLayoutManifest}
    {rest : List WorkerCacheLayoutManifest} {seen : List (Int × Int × Int)}
    (h : checkSources reference rest seen = .ok u) :
    (∀ source ∈ rest, validateWorkerCacheLayout source = .ok () ∧
      rankTuple source.coordinates ∉ seen) ∧
    rest.Pairwise fun p q => rankTuple p.coordinates ≠ rankTuple q.coordinates := by
  induction rest generalizing seen with
  | nil => exact ⟨nofun, List.Pairwise.nil⟩
  | cons source rest ih =>
    obtain ⟨_, hvalid, h⟩ := bind_eq_ok.mp h
    obtain ⟨_, _, h⟩ := bind_eq_ok.mp h
    obtain ⟨_, hnew, h⟩ := bind_eq_ok.mp h
    rw [rejectIf_eq_ok] at hnew
    obtain ⟨hrest, hdistinct⟩ := ih h
    constructor
    · intro other hother
      cases mem_cons.mp hother with
      | inl heq => exact heq ▸ ⟨labelled_eq_ok hvalid, hnew⟩
      | inr hother =>
        obtain ⟨hvalid, hnew⟩ := hrest other hother
        exact ⟨hvalid, fun hseen => hnew (mem_cons_of_mem _ hseen)⟩
    · refine pairwise_cons.mpr ⟨fun other hother heq => ?_, hdistinct⟩
      have hnew := (hrest other hother).2
      rw [← heq] at hnew
      exact hnew mem_cons_self

variable {selected : List Nat}

theorem selectSources_distinct {sources : List WorkerCacheLayoutManifest}
    {destination : WorkerCacheLayoutManifest}
    (h : selectSources sources destination = (.ok u, selected)) :
    validateWorkerCacheLayout destination = .ok () ∧
    (∀ source ∈ sources, validateWorkerCacheLayout source = .ok ()) ∧
    sources.Pairwise fun p q => rankTuple p.coordinates ≠ rankTuple q.coordinates := by
  unfold selectSources at h
  cases hselect : selectWriters sources destination with
  | error e =>
    rw [hselect] at h
    cases h
  | ok writers =>
    obtain ⟨_, hvalid, hselect⟩ := bind_eq_ok.mp hselect
    obtain ⟨_, _, hselect⟩ := bind_eq_ok.mp hselect
    obtain ⟨_, hinstance, _⟩ := bind_eq_ok.mp hselect
    obtain ⟨hsources, hdistinct⟩ :=
      checkSources_distinct (checkSources_of_validateSourceInstance hinstance)
    exact ⟨labelled_eq_ok hvalid, fun source hsource => (hsources source hsource).1, hdistinct⟩

theorem fetchCacheLayout_eq_some {clusterId : Nat} {remoteAddr : String} {network : Network}
    {manifest : WorkerCacheLayoutManifest}
    (h : workers.fetchCacheLayout clusterId remoteAddr network = some manifest) :
    (workers.remotes clusterId).localCacheLayout = some manifest ∧ manifest.addr = remoteAddr := by
  unfold fetchCacheLayout at h
  split at h
  · cases h
  split at h
  · cases h
  next found hfound =>
  split at h
  · cases h
  split at h
  · cases h
  next hmatches =>
  cases h
  rw [not_or, not_not] at hmatches
  exact ⟨hfound, hmatches.1⟩

variable {endpoints : List (Nat × String × Network)} {manifests : List WorkerCacheLayoutManifest}

theorem fetchCacheLayouts_eq_some (h : workers.fetchCacheLayouts endpoints = some manifests) :
    List.Forall₂ (fun endpoint manifest =>
      (workers.remotes endpoint.1).localCacheLayout = some manifest ∧
        manifest.addr = endpoint.2.1) endpoints manifests := by
  induction endpoints generalizing manifests with
  | nil =>
    cases h
    exact List.Forall₂.nil
  | cons endpoint endpoints ih =>
    obtain ⟨manifest, hmanifest, h⟩ := Option.bind_eq_some_iff.mp h
    obtain ⟨rest, hrest, h⟩ := Option.bind_eq_some_iff.mp h
    cases h
    exact List.Forall₂.cons (fetchCacheLayout_eq_some hmanifest) (ih hrest)

/-- An address is that of one worker. -/
def AddressesDistinct (workers : Workers) : Prop :=
  ∀ clusterId clusterId' manifest manifest',
    (workers.remotes clusterId).localCacheLayout = some manifest →
    (workers.remotes clusterId').localCacheLayout = some manifest' →
    manifest.addr = manifest'.addr → clusterId = clusterId'

theorem length_pairsOf (endpoints : List (Nat × String × Network))
    (manifests : List WorkerCacheLayoutManifest) (selected : List Nat) :
    (pairsOf endpoints manifests selected).length = min endpoints.length manifests.length := by
  unfold pairsOf
  rw [length_map, length_zipIdx, length_zip]

theorem getElem_pairsOf {index : Nat}
    (hendpoint : index < endpoints.length) (hmanifest : index < manifests.length)
    (h : index < (pairsOf endpoints manifests selected).length) :
    (pairsOf endpoints manifests selected)[index] =
      { clusterId := endpoints[index].1
        remoteAddr := endpoints[index].2.1
        manifest := manifests[index]
        mode := if index ∈ selected then .active else .planOnly
        network := endpoints[index].2.2 } := by
  simp [pairsOf]

/-- The pairs are the endpoints with their layouts; the modes are what the selection says. -/
structure Prepared (workers : Workers) (clusterIds : List Nat) (remoteAddrs : List String)
    (network : Nat → Network) (localManifest : WorkerCacheLayoutManifest) (pairs : List Pair) :
    Prop where
  lengths : clusterIds.length = remoteAddrs.length
  localCacheLayout : workers.core.localCacheLayout = some localManifest
  selection : ∃ manifests u selected,
    selectSources manifests localManifest = (.ok u, selected) ∧
    workers.fetchCacheLayouts ((clusterIds.zip remoteAddrs).zipIdx.map
      fun ((clusterId, remoteAddr), index) => (clusterId, remoteAddr, network index)) =
        some manifests ∧
    pairs = pairsOf ((clusterIds.zip remoteAddrs).zipIdx.map
      fun ((clusterId, remoteAddr), index) => (clusterId, remoteAddr, network index))
        manifests selected

variable {clusterIds : List Nat} {remoteAddrs : List String} {network : Nat → Network}

theorem pairsToLink_prepared
    (h : workers.pairsToLink clusterIds remoteAddrs network = some (localManifest, pairs)) :
    Prepared workers clusterIds remoteAddrs network localManifest pairs := by
  unfold pairsToLink at h
  split at h
  · cases h
  next hlengths =>
  rw [not_or, not_not] at hlengths
  split at h
  · cases h
  next manifest hlocal =>
  dsimp only at h
  split at h
  · cases h
  next manifests hfetched =>
  split at h
  · cases h
  next u selected hselected =>
  cases h
  exact ⟨hlengths.1, hlocal, manifests, u, selected, hselected, hfetched, rfl⟩

theorem Prepared.valid (haddr : workers.AddressesDistinct)
    (h : Prepared workers clusterIds remoteAddrs network localManifest pairs) :
    PairsValid localManifest pairs ∧
      ∀ pair ∈ pairs, ∃ index, index < clusterIds.length ∧ pair.network = network index := by
  obtain ⟨manifests, u, selected, hselected, hfetched, rfl⟩ := h.selection
  obtain ⟨hlocal, hvalid, hdistinct⟩ := selectSources_distinct hselected
  have hfetched := fetchCacheLayouts_eq_some hfetched
  generalize hendpoints : (clusterIds.zip remoteAddrs).zipIdx.map
    (fun ((clusterId, remoteAddr), index) => (clusterId, remoteAddr, network index)) = endpoints
    at hfetched ⊢
  have hlength : endpoints.length = clusterIds.length := by
    rw [← hendpoints, length_map, length_zipIdx, length_zip, ← h.lengths,
      Nat.min_self]
  have hat (index : Nat) (hindex : index < (pairsOf endpoints manifests selected).length) :
      ∃ (hendpoint : index < endpoints.length) (hmanifest : index < manifests.length),
        (workers.remotes endpoints[index].1).localCacheLayout = some manifests[index] ∧
        manifests[index].addr = endpoints[index].2.1 ∧
        endpoints[index].2.2 = network index := by
    rw [length_pairsOf] at hindex
    have hendpoint : index < endpoints.length := by omega
    have hmanifest : index < manifests.length := by omega
    obtain ⟨hlayout, haddr⟩ := hfetched.get hendpoint hmanifest
    refine ⟨hendpoint, hmanifest, hlayout, haddr, ?_⟩
    simp [← hendpoints]
  refine ⟨⟨hlocal, ?_, ?_, ?_, ?_⟩, ?_⟩
  · intro pair hpair
    obtain ⟨index, hindex, rfl⟩ := getElem_of_mem hpair
    obtain ⟨hendpoint, hmanifest, _⟩ := hat index hindex
    rw [getElem_pairsOf hendpoint hmanifest]
    exact hvalid _ (getElem_mem hmanifest)
  · intro pair hpair
    obtain ⟨index, hindex, rfl⟩ := getElem_of_mem hpair
    obtain ⟨hendpoint, hmanifest, _, haddr, _⟩ := hat index hindex
    rw [getElem_pairsOf hendpoint hmanifest]
    exact haddr
  · intro pair hpair
    obtain ⟨index, hindex, rfl⟩ := getElem_of_mem hpair
    obtain ⟨hendpoint, hmanifest, _⟩ := hat index hindex
    rw [getElem_pairsOf hendpoint hmanifest]
    dsimp only
    split
    · decide
    · decide
  · -- one layout would be at two indices, whose ranks differ
    refine pairwise_iff_getElem.mpr fun i j hi hj hlt => ?_
    obtain ⟨hendpoint, hmanifest, hlayout, _⟩ := hat i hi
    obtain ⟨hendpoint', hmanifest', hlayout', _⟩ := hat j hj
    have hranks := pairwise_iff_getElem.mp hdistinct i j hmanifest hmanifest' hlt
    have hclusters : endpoints[i].1 ≠ endpoints[j].1 := by
      intro heq
      rw [heq, hlayout'] at hlayout
      exact hranks (by rw [Option.some.inj hlayout])
    rw [getElem_pairsOf hendpoint hmanifest, getElem_pairsOf hendpoint' hmanifest']
    exact ⟨hclusters, fun heq => hclusters (haddr _ _ _ _ hlayout hlayout' heq)⟩
  · intro pair hpair
    obtain ⟨index, hindex, rfl⟩ := getElem_of_mem hpair
    obtain ⟨hendpoint, hmanifest, _, _, hnetwork⟩ := hat index hindex
    rw [getElem_pairsOf hendpoint hmanifest]
    exact ⟨index, by omega, hnetwork⟩

/-! ## The call

The loops stop at the first pair that fails, and the rollback undoes the pairs before it and that
one. What it undoes may have been there before the call. -/

variable {cachePeers : Table String LocalCachePeer}

theorem lookup_recordPeers_of_not_mem {addr : String} (h : ∀ pair ∈ pairs, pair.remoteAddr ≠ addr) :
    (recordPeers localManifest pairs cachePeers).lookup addr = cachePeers.lookup addr := by
  induction pairs generalizing cachePeers with
  | nil => rfl
  | cons pair pairs ih =>
    rw [recordPeers, ih fun p hp => h p (mem_cons_of_mem _ hp)]
    exact AList.lookup_insert_ne (h pair mem_cons_self).symm

theorem lookup_recordPeers
    (haddrs : ∀ p ∈ pairs, p.manifest.addr = p.remoteAddr) (hapart : pairs.Pairwise Apart) :
    ∀ pair ∈ pairs, (recordPeers localManifest pairs cachePeers).lookup pair.remoteAddr =
      some ⟨localManifest, pair.manifest⟩ := by
  induction pairs generalizing cachePeers with
  | nil => exact fun _ hp => absurd hp not_mem_nil
  | cons first pairs ih =>
    obtain ⟨hfirst, hapart⟩ := pairwise_cons.mp hapart
    have hrest : ∀ p ∈ pairs, p.manifest.addr = p.remoteAddr :=
      fun p hp => haddrs p (mem_cons_of_mem _ hp)
    intro pair hpair
    rw [recordPeers]
    cases mem_cons.mp hpair with
    | inl heq =>
      rw [heq, lookup_recordPeers_of_not_mem]
      · exact AList.lookup_insert _
      · intro p hp heq'
        rw [← hrest p hp, ← haddrs first mem_cons_self] at heq'
        exact (hfirst p hp).2 heq'.symm
    | inr hpair => exact ih hrest hapart pair hpair

/-- Linking is all or nothing: a success leaves every pair linked on both sides in its mode, and
recorded. A failure changes no link when all requests of the rollback arrive. -/
structure AllOrNothing (workers : Workers) (clusterIds : List Nat) (remoteAddrs : List String)
    (network : Nat → Network) : Prop where
  all : (workers.linkSessions clusterIds remoteAddrs network).1 = true →
    ∃ localManifest pairs,
      workers.pairsToLink clusterIds remoteAddrs network = some (localManifest, pairs) ∧
      ∀ pair ∈ pairs,
        LinkedAs ((workers.linkSessions clusterIds remoteAddrs network).2.remotes pair.clusterId)
          localManifest pair.mode ∧
        LinkedAs (workers.linkSessions clusterIds remoteAddrs network).2.core pair.manifest
          pair.mode ∧
        (workers.linkSessions clusterIds remoteAddrs network).2.cachePeers.lookup pair.remoteAddr =
          some ⟨localManifest, pair.manifest⟩
  nothing : (workers.linkSessions clusterIds remoteAddrs network).1 = false →
    (∀ index, index < clusterIds.length → (network index).rolledBack ≠ .lost) →
    SameLinks workers (workers.linkSessions clusterIds remoteAddrs network).2

/-- Linking is all or nothing unless the call fails at some pair, is rolled back, and some side of
a pair was linked before: with the layout of the call, or with another one that the loop has
replaced. -/
theorem linkSessions_allOrNothing_iff (haddr : workers.AddressesDistinct) (clusterIds : List Nat)
    (remoteAddrs : List String) (network : Nat → Network) :
    AllOrNothing workers clusterIds remoteAddrs network ↔
      ¬ ((∀ index, index < clusterIds.length → (network index).rolledBack ≠ .lost) ∧
        ∃ localManifest pairs,
          workers.pairsToLink clusterIds remoteAddrs network = some (localManifest, pairs) ∧
          (∃ pair ∈ pairs, ¬ workers.Linkable localManifest pair) ∧
          LosesLink workers localManifest pairs) := by
  cases hpairs : workers.pairsToLink clusterIds remoteAddrs network with
  | none =>
    have hrun : workers.linkSessions clusterIds remoteAddrs network = (false, workers) := by
      unfold linkSessions
      rw [hpairs]
    refine iff_of_true ⟨fun h => ?_, fun _ _ => ?_⟩ fun h => ?_
    · rw [hrun] at h
      cases h
    · rw [hrun]
      exact ⟨fun _ _ => rfl, fun _ => rfl, rfl⟩
    · obtain ⟨_, _, _, hsome, _⟩ := h
      cases hsome
  | some prepared =>
    obtain ⟨localManifest, pairs⟩ := prepared
    obtain ⟨hvalid, hnetwork⟩ := (pairsToLink_prepared hpairs).valid haddr
    have hiff := @linkPairs_iff workers localManifest pairs hvalid.modes hvalid.apart
    cases hlinked : (linkPairs localManifest pairs workers).1 with
    | true =>
      rw [hlinked] at hiff
      have hall := hiff.mp rfl
      have hrun : workers.linkSessions clusterIds remoteAddrs network =
          (true, { (linkPairs localManifest pairs workers).2 with
            cachePeers := recordPeers localManifest pairs
              (linkPairs localManifest pairs workers).2.cachePeers }) := by
        unfold linkSessions
        rw [hpairs]
        dsimp only
        rw [if_neg (by rw [hlinked]; decide)]
      refine iff_of_true ⟨fun _ => ⟨localManifest, pairs, hpairs, fun pair hpair => ?_⟩,
        fun h => ?_⟩ fun h => ?_
      · rw [hrun]
        refine ⟨?_, ?_, lookup_recordPeers hvalid.addrs hvalid.apart pair hpair⟩
        · obtain ⟨before, after, rfl⟩ := append_of_mem hpair
          exact (linkPairs_after hvalid.modes hvalid.apart).accepted
            (fun p hp => hall p (mem_append_left _ hp)) (hall pair hpair).2.1
        · obtain ⟨before, after, rfl⟩ := append_of_mem hpair
          exact (linkPairs_after hvalid.modes hvalid.apart).both
            (fun p hp => hall p (mem_append_left _ hp)) (hall pair hpair)
      · rw [hrun] at h
        cases h
      · obtain ⟨_, _, _, hsome, ⟨pair, hpair, hnot⟩, _⟩ := h
        cases hsome
        exact hnot (hall pair hpair)
    | false =>
      have hnotAll : ∃ pair ∈ pairs, ¬ workers.Linkable localManifest pair := by
        by_contra hnone
        push Not at hnone
        rw [hiff.mpr hnone] at hlinked
        cases hlinked
      have hrun : workers.linkSessions clusterIds remoteAddrs network =
          (false, rollBack localManifest pairs (linkPairs localManifest pairs workers).2) := by
        unfold linkSessions
        rw [hpairs]
        dsimp only
        rw [if_pos hlinked]
      have hdelivered (h : ∀ index, index < clusterIds.length →
          (network index).rolledBack ≠ .lost) : ∀ p ∈ pairs, p.network.rolledBack ≠ .lost := by
        intro p hp
        obtain ⟨index, hindex, heq⟩ := hnetwork p hp
        rw [heq]
        exact h index hindex
      constructor
      · intro hatomic hloses
        obtain ⟨hrolledBack, _, _, hsome, _, hloses⟩ := hloses
        cases hsome
        have hsame := hatomic.nothing (by rw [hrun]) hrolledBack
        rw [hrun] at hsame
        exact (rollBack_sameLinks_iff hvalid (hdelivered hrolledBack)).mp hsame hloses
      · intro hkeeps
        refine ⟨fun h => ?_, fun _ hrolledBack => ?_⟩
        · rw [hrun] at h
          cases h
        · rw [hrun]
          refine (rollBack_sameLinks_iff hvalid (hdelivered hrolledBack)).mpr fun hloses => ?_
          exact hkeeps ⟨hrolledBack, localManifest, pairs, rfl, hnotAll, hloses⟩

/-! ## Two remote workers -/

def localLayout : WorkerCacheLayoutManifest :=
  { smallManifest 2 0 with incarnationId := "local", addr := "local" }

def remoteLayout (clusterId : Nat) (addr : String) (tpRank : Nat) : WorkerCacheLayoutManifest :=
  { smallManifest 2 tpRank with incarnationId := addr, clusterId := clusterId, addr := addr }

/-- The workers of clusters 1 and 2, before anything is linked. -/
def freshWorkers : Workers where
  core := { localCacheLayout := some localLayout }
  remotes clusterId :=
    if clusterId = 1 then { localCacheLayout := some (remoteLayout 1 "first" 0) }
    else if clusterId = 2 then { localCacheLayout := some (remoteLayout 2 "second" 1) }
    else {}

def goodNetwork : Network := { remoteSegment := some 5, localSegment := some 6 }

def linkedWorkers : Workers :=
  (freshWorkers.linkSessions [1, 2] ["first", "second"] fun _ => goodNetwork).2

theorem freshWorkers_addressesDistinct : freshWorkers.AddressesDistinct := by
  have hlayout (clusterId : Nat) (manifest : WorkerCacheLayoutManifest)
      (h : (freshWorkers.remotes clusterId).localCacheLayout = some manifest) :
      clusterId = 1 ∧ manifest.addr = "first" ∨ clusterId = 2 ∧ manifest.addr = "second" := by
    unfold freshWorkers at h
    dsimp only at h
    split at h
    · next heq =>
      cases h
      exact Or.inl ⟨heq, rfl⟩
    split at h
    · next heq =>
      cases h
      exact Or.inr ⟨heq, rfl⟩
    · cases h
  intro clusterId clusterId' manifest manifest' h h' haddr
  obtain ⟨hcluster, hname⟩ | ⟨hcluster, hname⟩ := hlayout clusterId manifest h
  · obtain ⟨hcluster', _⟩ | ⟨_, hname'⟩ := hlayout clusterId' manifest' h'
    · rw [hcluster, hcluster']
    · rw [hname, hname'] at haddr
      exact absurd haddr (by decide)
  · obtain ⟨_, hname'⟩ | ⟨hcluster', _⟩ := hlayout clusterId' manifest' h'
    · rw [hname, hname'] at haddr
      exact absurd haddr (by decide)
    · rw [hcluster, hcluster']

/-- They are linked for the first time: whatever the network does, that is all or nothing, and
with a good network it succeeds. -/
theorem linkSessions_allOrNothing_iff_fresh :
    (∀ network, AllOrNothing freshWorkers [1, 2] ["first", "second"] network) ∧
    (freshWorkers.linkSessions [1, 2] ["first", "second"] fun _ => goodNetwork).1 = true := by
  refine ⟨fun network => ?_, by decide +kernel⟩
  refine (linkSessions_allOrNothing_iff freshWorkers_addressesDistinct _ _ network).mpr fun h => ?_
  obtain ⟨_, localManifest, pairs, _, _, before, pair, after, _, hloses⟩ := h
  have hremote : (freshWorkers.remotes pair.clusterId).cachePeerLinks = ∅ := by
    unfold freshWorkers
    dsimp only
    split
    · rfl
    split
    · rfl
    · rfl
  obtain ⟨link, hlink, _⟩ | ⟨link, hlink, _⟩ := hloses
  · rw [hremote] at hlink
    cases hlink
  · cases hlink

def lossyNetwork (index : Nat) : Network :=
  if index = 1 then { goodNetwork with linked := .lost } else goodNetwork

/-- They are linked again, and the request to the second worker is lost: both workers are unlinked,
on both sides, though the record of the peers still has them. -/
theorem relink_loses_links :
    ¬ AllOrNothing linkedWorkers [1, 2] ["first", "second"] lossyNetwork := by
  intro h
  have hfailed : (linkedWorkers.linkSessions [1, 2] ["first", "second"] lossyNetwork).1 =
      false := by
    decide +kernel
  have hsame := h.nothing hfailed fun index _ => by
    unfold lossyNetwork
    split
    · decide
    · decide
  have hlink := hsame.core "second"
  have hbefore : (linkedWorkers.core.cachePeerLinks.lookup "second").isSome = true := by
    decide +kernel
  have hafter : ((linkedWorkers.linkSessions [1, 2] ["first", "second"]
      lossyNetwork).2.core.cachePeerLinks.lookup "second").isSome = false := by
    decide +kernel
  rw [hlink, hbefore] at hafter
  cases hafter

end Workers

end Xllm.Framework
