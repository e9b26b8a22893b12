import Xllm.Block.Ownership
import Xllm.PrefixCache.Registry

/-!
# The leaf's invariant, and what each step does to it

`Conserved s ext` is the conservation invariant: the handles of a leaf are those outside the cache
(`ext`) and those of the cache's nodes, they own the blocks (`Owned`), and the registry is in order
(`Registered`). `Accounted s` adds the accounting of evictable residents: every node holds a block,
and `numEvictable` is the number of nodes whose counter is 1.

The two are kept apart because conservation survives a caller that hands a placeholder to the solid
cache and the accounting does not. `Sound acc` is both, the second only under `acc`.

One lemma per primitive step says how the external handles change: dropping an external alias,
copying one, claiming a resident, registering a new node, evicting one, and taking a free block.
-/

namespace Xllm.Framework

open Xllm.Lib List Function

variable {Key : Type}

def Leaf.handles (s : Leaf Key) (ext : List Handle) : List Handle :=
  ext ++ s.prefixCache.lruLst.map Block.handle

structure Conserved [DecidableEq Key] (s : Leaf Key) (ext : List Handle) : Prop where
  owned : Owned s (s.handles ext)
  registered : Registered s.prefixCache
  disabled : s.options.enablePrefixCache = false → s.prefixCache.lruLst = []

/-- The nodes whose block has no alias outside the cache. -/
def soleOwners (refCounts : Nat → Nat) (nodes : List (Block Key)) : Nat :=
  nodes.countP (fun node => (node.refCount.elim 0 refCounts) = 1)

structure Accounted (s : Leaf Key) : Prop where
  valid : ∀ node ∈ s.prefixCache.lruLst, node.isValid
  evictable : s.prefixCache.numEvictable = soleOwners s.refCounts s.prefixCache.lruLst

structure Sound [DecidableEq Key] (acc : Prop) (s : Leaf Key) (ext : List Handle) : Prop where
  conserved : Conserved s ext
  accounted : acc → Accounted s

theorem Leaf.refCount_eq (s : Leaf Key) (b : Block Key) :
    s.refCount b = b.refCount.elim 0 s.refCounts := by
  unfold Leaf.refCount
  cases b.refCount <;> rfl

/-! ## Counting sole owners -/

theorem soleOwners_perm (refCounts : Nat → Nat) {l l' : List (Block Key)} (p : l.Perm l') :
    soleOwners refCounts l = soleOwners refCounts l' := p.countP_eq _

theorem soleOwners_cons (refCounts : Nat → Nat) (node : Block Key) (l : List (Block Key)) :
    soleOwners refCounts (node :: l) =
      soleOwners refCounts l + if node.refCount.elim 0 refCounts = 1 then 1 else 0 := by
  simp [soleOwners, countP_cons]

theorem soleOwners_update_of_not_mem {refCounts : Nat → Nat} {nodes : List (Block Key)} {a v : Nat}
    (h : ∀ node ∈ nodes, node.refCount ≠ some a) :
    soleOwners (Function.update refCounts a v) nodes = soleOwners refCounts nodes := by
  refine countP_congr fun node hn => ?_
  have hne := h node hn
  have hcell : node.refCount.elim 0 (Function.update refCounts a v) =
      node.refCount.elim 0 refCounts := by
    cases hrc : node.refCount with
    | none => rfl
    | some b =>
      have hba : b ≠ a := fun e => hne (by rw [hrc, e])
      simp only [Option.elim_some, update_of_ne hba]
  rw [hcell]

/-- The counter of exactly one node moves: that node alone can enter or leave the count. -/
theorem soleOwners_update_of_mem (refCounts : Nat → Nat) {a : Nat} (v : Nat) :
    ∀ {nodes : List (Block Key)} {node : Block Key}, node ∈ nodes → node.refCount = some a →
      (∀ n ∈ nodes, n.refCount = some a → n = node) → nodes.Nodup →
      soleOwners (Function.update refCounts a v) nodes + (if refCounts a = 1 then 1 else 0) =
        soleOwners refCounts nodes + if v = 1 then 1 else 0 := by
  intro nodes
  induction nodes with
  | nil => intro node hn; exact nomatch hn
  | cons n nodes ih =>
    intro node hn hrc huniq hnodup
    rw [soleOwners_cons, soleOwners_cons]
    by_cases hne : n = node
    · subst hne
      have hrest : ∀ m ∈ nodes, m.refCount ≠ some a := by
        intro m hm he
        have := huniq m (mem_cons_of_mem _ hm) he
        subst this
        exact (nodup_cons.mp hnodup).1 hm
      have hcell : ∀ f : Nat → Nat, n.refCount.elim 0 f = f a := fun f => by rw [hrc]; rfl
      rw [soleOwners_update_of_not_mem hrest, hcell, hcell, update_self]
      omega
    · have hn' : node ∈ nodes := by
        rcases mem_cons.mp hn with rfl | hn'
        · exact absurd rfl hne
        · exact hn'
      have hna : n.refCount ≠ some a := fun e => hne (huniq n mem_cons_self e)
      have hsame : n.refCount.elim 0 (Function.update refCounts a v) =
          n.refCount.elim 0 refCounts := by
        cases hb : n.refCount with
        | none => rfl
        | some b =>
          have hba : b ≠ a := fun e => hna (by rw [hb, e])
          simp only [Option.elim_some, update_of_ne hba]
      rw [hsame]
      have := ih hn' hrc (fun m hm => huniq m (mem_cons_of_mem _ hm))
        (nodup_cons.mp hnodup).2
      omega

section Steps

variable [DecidableEq Key] {s : Leaf Key} {ext : List Handle} {acc : Prop}

namespace Conserved

theorem perm (h : Conserved s ext) {ext' : List Handle} (p : ext.Perm ext') : Conserved s ext' :=
  ⟨h.owned.perm (p.append_right _), h.registered, h.disabled⟩

theorem relink (h : Conserved s ext) {l : List (Block Key)} (p : s.prefixCache.lruLst.Perm l) :
    Conserved (s.setLru l) ext where
  owned := (h.owned.setPrefixCache _).perm ((p.map Block.handle).append_left _)
  registered := h.registered.relink p
  disabled := fun hd => by
    have := h.disabled hd
    rw [this] at p
    exact nil_perm.mp p

theorem cons_null (h : Conserved s ext) : Conserved s (.null :: ext) :=
  ⟨h.owned.cons_null, h.registered, h.disabled⟩

theorem of_cons_null (h : Conserved s (.null :: ext)) : Conserved s ext :=
  ⟨h.owned.of_cons_null, h.registered, h.disabled⟩

theorem node_mem (_ : Conserved s ext) {node : Block Key} (hn : node ∈ s.prefixCache.lruLst) :
    node.handle ∈ s.handles ext :=
  mem_append.mpr (Or.inr (mem_map_of_mem hn))

theorem ext_mem (_ : Conserved s ext) {x : Handle} (hx : x ∈ ext) : x ∈ s.handles ext :=
  mem_append.mpr (Or.inl hx)

theorem node_unique (h : Conserved s ext) {n n' : Block Key} (hn : n ∈ s.prefixCache.lruLst)
    (hn' : n' ∈ s.prefixCache.lruLst) (he : n.refCount = n'.refCount) : n = n' :=
  h.registered.eq_of_id hn hn'
    ((h.owned.sameBlock _ (h.node_mem hn) _ (h.node_mem hn')).mpr he)

theorem node_managed (h : Conserved s ext) {node : Block Key}
    (hn : node ∈ s.prefixCache.lruLst) (hv : node.isValid) :
    ∃ i a, node.handle = s.managed i a := by
  rcases h.owned.shape _ (h.node_mem hn) with hnull | ⟨i, a, hm, -⟩
  · have : node.id = none := congrArg Handle.id hnull
    rw [Block.isValid, this] at hv
    cases hv
  · exact ⟨i, a, hm⟩

/-- An id is registered exactly when a node holds it; the node's cell is the handle's. -/
theorem resident_node (h : Conserved s ext) {i a : Nat} (hm : s.managed i a ∈ s.handles ext)
    (hr : some i ∈ s.prefixCache.blocksById) :
    ∃ node ∈ s.prefixCache.lruLst, node.handle = s.managed i a := by
  obtain ⟨node, hn, hid⟩ := (h.registered.byId _).mp hr
  have hrc : node.refCount = some a :=
    (h.owned.sameBlock _ (h.node_mem hn) _ hm).mp hid
  rcases h.owned.shape _ (h.node_mem hn) with hnull | ⟨j, b, hj, -⟩
  · exact absurd (congrArg Handle.id hnull) (by simp [Block.handle, Handle.null, hid])
  · refine ⟨node, hn, ?_⟩
    have h1 : node.id = some j := congrArg Handle.id hj
    have h2 : node.refCount = some b := congrArg Handle.refCount hj
    rw [hid, Option.some.injEq] at h1
    rw [hrc, Option.some.injEq] at h2
    rw [hj, h1, h2]

end Conserved

namespace Accounted

omit [DecidableEq Key] in
theorem relink (h : Accounted s) {l : List (Block Key)} (p : s.prefixCache.lruLst.Perm l) :
    Accounted (s.setLru l) where
  valid := fun node hn => h.valid node (p.mem_iff.mpr hn)
  evictable := h.evictable.trans (soleOwners_perm _ p)

end Accounted

namespace Sound

theorem perm (h : Sound acc s ext) {ext' : List Handle} (p : ext.Perm ext') : Sound acc s ext' :=
  ⟨h.conserved.perm p, h.accounted⟩

theorem relink (h : Sound acc s ext) {l : List (Block Key)} (p : s.prefixCache.lruLst.Perm l) :
    Sound acc (s.setLru l) ext :=
  ⟨h.conserved.relink p, fun ha => (h.accounted ha).relink p⟩

theorem cons_null (h : Sound acc s ext) : Sound acc s (.null :: ext) :=
  ⟨h.conserved.cons_null, h.accounted⟩

theorem of_cons_null (h : Sound acc s (.null :: ext)) : Sound acc s ext :=
  ⟨h.conserved.of_cons_null, h.accounted⟩

end Sound

/-! ## Dropping an external alias -/

theorem Conserved.free {i a : Nat} {b : Block Key} (h : Conserved s (s.managed i a :: ext))
    (hb : b.handle = s.managed i a) :
    ∃ s', s.free b = .ok s' ∧ Conserved s' ext ∧ s.Dropped s' i a ∧
      (Accounted s → Accounted s') := by
  have howned : Owned s (s.managed i a :: s.handles ext) := h.owned
  have hmem : s.managed i a ∈ s.handles (s.managed i a :: ext) := h.ext_mem mem_cons_self
  have hresident : some i ∈ s.prefixCache.blocksById →
      ∃ node ∈ s.prefixCache.lruLst, node.handle = s.managed i a := h.resident_node hmem
  obtain ⟨s', hrun, howned', hdrop⟩ := free_spec howned hb
    (by
      intro hr
      obtain ⟨node, hn, he⟩ := hresident hr
      exact ⟨_, h.node_mem hn |> fun hm => mem_append.mpr
        (Or.inr (mem_map_of_mem hn)), by rw [he]; rfl⟩)
    (by
      intro hd hr
      obtain ⟨node, hn, -⟩ := hresident hr
      rw [h.disabled hd] at hn
      exact nomatch hn)
  have hlru : s'.prefixCache.lruLst = s.prefixCache.lruLst := by rw [hdrop.prefixCache]
  refine ⟨s', hrun, ⟨?_, ?_, ?_⟩, hdrop, fun hacc => ⟨?_, ?_⟩⟩
  · unfold Leaf.handles at howned' ⊢
    rw [hlru]
    exact howned'
  · rw [hdrop.prefixCache]
    exact h.registered.setNumEvictable _
  · rw [hdrop.frame.options, hlru]
    exact h.disabled
  · rw [hlru]
    exact hacc.valid
  · rw [hlru, hdrop.prefixCache, hdrop.refCounts]
    rw [hacc.evictable]
    by_cases hr : some i ∈ s.prefixCache.blocksById
    · obtain ⟨node, hn, he⟩ := hresident hr
      have hrc : node.refCount = some a := congrArg Handle.refCount he
      have htwo : 2 ≤ s.refCounts a := h.owned.counted.two_le rfl
        ⟨node.handle, mem_append.mpr (Or.inr (mem_map_of_mem hn)), hrc⟩
      have hcount := soleOwners_update_of_mem s.refCounts (s.refCounts a - 1) hn hrc
        (fun n hn' hn'a => h.node_unique hn' hn (hn'a.trans hrc.symm)) h.registered.nodup
      rw [if_neg (by omega)] at hcount
      simp only [hr, true_and]
      omega
    · rw [if_neg (fun hh => hr hh.1), Nat.add_zero, soleOwners_update_of_not_mem]
      intro node hn hrc
      refine hr ((h.registered.byId _).mpr ⟨node, hn, ?_⟩)
      exact (h.owned.sameBlock _ (h.node_mem hn) _ hmem).mpr hrc

theorem Sound.release {b : Block Key} (h : Sound acc s (b.handle :: ext)) :
    ∃ s', s.release b = .ok s' ∧ Sound acc s' ext ∧ s.Frame s' ∧
      s'.prefixCache.lruLst = s.prefixCache.lruLst ∧
      s'.prefixCache.cachedBlocks = s.prefixCache.cachedBlocks := by
  rcases h.conserved.owned.shape b.handle (h.conserved.ext_mem mem_cons_self) with
    hnull | ⟨i, a, hm, -⟩
  · have hrun : s.release b = .ok s := by
      have : b.refCount = none := congrArg Handle.refCount hnull
      unfold Leaf.release
      rw [this]
    rw [hnull] at h
    exact ⟨s, hrun, h.of_cons_null, .refl s, rfl, rfl⟩
  · have hrun : s.release b = s.free b := by
      have h1 : b.refCount = some a := congrArg Handle.refCount hm
      have h2 : b.manager = some s.self := congrArg Handle.manager hm
      unfold Leaf.release
      rw [h1, h2]
    rw [hm] at h
    obtain ⟨s', hfree, hcons, hdrop, hacc⟩ := h.conserved.free hm
    exact ⟨s', hrun.trans hfree, ⟨hcons, fun ha => hacc (h.accounted ha)⟩, hdrop.frame,
      by rw [hdrop.prefixCache], by rw [hdrop.prefixCache]⟩

/-! ## Copying -/

theorem Sound.copyBlock {b : Block Key} (h : Sound acc s ext) (hb : b.handle ∈ ext) :
    (s.copyBlock b).2 = b ∧ Sound acc (s.copyBlock b).1 (b.handle :: ext) ∧
      s.Frame (s.copyBlock b).1 ∧ (s.copyBlock b).1.prefixCache = s.prefixCache := by
  obtain ⟨hblock, howned, hframe, hcache⟩ :=
    copyBlock_spec h.conserved.owned (h.conserved.ext_mem hb)
  refine ⟨hblock, ⟨⟨?_, ?_, ?_⟩, fun ha => ?_⟩, hframe, hcache⟩
  · unfold Leaf.handles at howned ⊢
    rw [hcache]
    exact howned
  · rw [hcache]; exact h.conserved.registered
  · rw [hframe.options, hcache]; exact h.conserved.disabled
  · have hacc := h.accounted ha
    refine ⟨by rw [hcache]; exact hacc.valid, ?_⟩
    rw [hcache, hacc.evictable]
    rcases h.conserved.owned.shape _ (h.conserved.ext_mem hb) with hnull | ⟨i, a, hm, -⟩
    · rw [copyBlock_null hnull]
    · rw [copyBlock_managed hm]
      dsimp only
      by_cases hnode : ∃ node ∈ s.prefixCache.lruLst, node.refCount = some a
      · obtain ⟨node, hn, hrc⟩ := hnode
        have htwo : 2 ≤ s.refCounts a := by
          obtain ⟨l, r, hlr⟩ := append_of_mem hb
          have hperm : (s.handles ext).Perm
              (b.handle :: (l ++ r ++ s.prefixCache.lruLst.map Block.handle)) := by
            rw [hlr]
            exact perm_middle.append_right _
          refine (h.conserved.owned.counted.perm hperm).two_le (congrArg Handle.refCount hm)
            ⟨node.handle, ?_, hrc⟩
          exact mem_append.mpr (Or.inr (mem_map_of_mem hn))
        have hcount := soleOwners_update_of_mem s.refCounts (s.refCounts a + 1) hn hrc
          (fun n hn' hn'a => h.conserved.node_unique hn' hn (hn'a.trans hrc.symm))
          h.conserved.registered.nodup
        rw [if_neg (by omega), if_neg (by omega)] at hcount
        omega
      · rw [soleOwners_update_of_not_mem]
        intro node hn hrc
        exact hnode ⟨node, hn, hrc⟩

omit [DecidableEq Key] in
theorem releaseEvictableSlot_eq (s : Leaf Key) :
    s.releaseEvictableSlot = { s with prefixCache :=
      { s.prefixCache with numEvictable := s.prefixCache.numEvictable - 1 } } := by
  unfold Leaf.releaseEvictableSlot
  by_cases hzero : s.prefixCache.numEvictable = 0
  · have hsame : s.prefixCache.numEvictable - 1 = s.prefixCache.numEvictable := by omega
    rw [if_pos hzero, hsame]
  · rw [if_neg hzero]

theorem Sound.claimCopy {node : Block Key} (h : Sound acc s ext)
    (hn : node ∈ s.prefixCache.lruLst) :
    ∃ s', (s.claimMatchedBlock node).copyBlock node = (s', node) ∧
      Sound acc s' (node.handle :: ext) ∧ s.Frame s' ∧
      s'.prefixCache =
        { s.prefixCache with numEvictable := s'.prefixCache.numEvictable } := by
  have hmem := h.conserved.node_mem hn
  rcases h.conserved.owned.shape _ hmem with hnull | ⟨i, a, hm, -⟩
  · have hinvalid : ¬ (node.isValid ∧ s.refCount node = 1) := by
      have : node.id = none := congrArg Handle.id hnull
      simp [Block.isValid, this]
    unfold Leaf.claimMatchedBlock
    rw [if_neg hinvalid, copyBlock_null hnull, hnull]
    exact ⟨s, rfl, h.cons_null, .refl s, rfl⟩
  · have hid : node.id = some i := congrArg Handle.id hm
    have hrc : node.refCount = some a := congrArg Handle.refCount hm
    have hcount : s.refCount node = s.refCounts a := by rw [Leaf.refCount_eq, hrc]; rfl
    have hclaim : s.claimMatchedBlock node = { s with prefixCache := { s.prefixCache with
        numEvictable := s.prefixCache.numEvictable - if s.refCounts a = 1 then 1 else 0 } } := by
      unfold Leaf.claimMatchedBlock
      rw [hcount]
      by_cases h1 : s.refCounts a = 1
      · rw [if_pos ⟨by rw [Block.isValid, hid]; rfl, h1⟩, releaseEvictableSlot_eq, if_pos h1]
      · rw [if_neg (fun hh => h1 hh.2), if_neg h1, Nat.sub_zero]
    have hcopy : ∀ c, ({ s with prefixCache := c } : Leaf Key).copyBlock node =
        ({ s with
            prefixCache := c
            refCounts := Function.update s.refCounts a (s.refCounts a + 1) }, node) :=
      fun c => copyBlock_managed hm
    rw [hclaim, hcopy, hm]
    refine ⟨_, rfl, ⟨⟨?_, ?_, ?_⟩, fun ha => ⟨(h.accounted ha).valid, ?_⟩⟩, ⟨rfl, rfl, rfl⟩, rfl⟩
    · exact (h.conserved.owned.copy (hm ▸ hmem)).setPrefixCache _
    · exact h.conserved.registered.setNumEvictable _
    · exact h.conserved.disabled
    · dsimp only
      have hpos : 0 < s.refCounts a := h.conserved.owned.refCount_pos hmem hrc
      have hmoved := soleOwners_update_of_mem s.refCounts (s.refCounts a + 1) hn hrc
        (fun n hn' hn'a => h.conserved.node_unique hn' hn (hn'a.trans hrc.symm))
        h.conserved.registered.nodup
      rw [if_neg (by omega : ¬ s.refCounts a + 1 = 1)] at hmoved
      rw [(h.accounted ha).evictable]
      omega

/-! ## Registering and evicting a node -/

theorem Sound.addNode {block : Block Key} (h : Sound acc s ext)
    (hen : s.options.enablePrefixCache = true) (hb : block.handle ∈ ext)
    (hkey : s.prefixCache.cachedBlocks.lookup block.hashValue = none)
    (hid : block.id ∉ s.prefixCache.blocksById) (hvalid : acc → block.isValid) :
    Sound acc { (s.copyBlock block).1 with prefixCache := { s.prefixCache with
      lruLst := block :: s.prefixCache.lruLst
      cachedBlocks := s.prefixCache.cachedBlocks.insert block.hashValue block
      blocksById := insert block.id s.prefixCache.blocksById
      numBlocks := s.prefixCache.numBlocks + 1 } } ext := by
  obtain ⟨-, hcopy, hframe, hcache⟩ := h.copyBlock hb
  refine ⟨⟨?_, h.conserved.registered.add hkey hid, ?_⟩, fun ha => ⟨?_, ?_⟩⟩
  · have howned := hcopy.conserved.owned
    unfold Leaf.handles at howned ⊢
    rw [hcache] at howned
    exact (howned.setPrefixCache _).perm perm_middle.symm
  · intro hd
    exact absurd (hframe.options ▸ hd) (by rw [hen]; simp)
  · intro node hn
    rcases mem_cons.mp hn with rfl | hn
    · exact hvalid ha
    · exact (h.accounted ha).valid node hn
  · dsimp only
    -- the caller's alias keeps the counter of the new node above one
    have hmany : ¬ block.refCount.elim 0 (s.copyBlock block).1.refCounts = 1 := by
      rcases h.conserved.owned.shape _ (h.conserved.ext_mem hb) with hnull | ⟨i, a, hm, -⟩
      · have : block.refCount = none := congrArg Handle.refCount hnull
        rw [this]
        simp
      · have hrc : block.refCount = some a := congrArg Handle.refCount hm
        have hpos := h.conserved.owned.refCount_pos (h.conserved.ext_mem hb) hrc
        rw [hrc, copyBlock_managed hm]
        simp only [Option.elim_some, update_self]
        omega
    have hev := (hcopy.accounted ha).evictable
    rw [hcache] at hev
    rw [soleOwners_cons, if_neg hmany, Nat.add_zero, hev]

theorem unregister_eq (s : Leaf Key) (node : Block Key) :
    s.unregister node = { s with prefixCache :=
      { s.prefixCache with
        lruLst := s.prefixCache.lruLst.erase node
        cachedBlocks := s.prefixCache.cachedBlocks.erase node.hashValue
        blocksById := s.prefixCache.blocksById.erase node.id
        numEvictable := s.prefixCache.numEvictable - 1 } } := by
  simp only [Leaf.unregister, releaseEvictableSlot_eq, Leaf.setLru]

/-- What evicting a node leaves behind. -/
structure Leaf.Evicted (s s' : Leaf Key) (node : Block Key) : Prop where
  frame : s.Frame s'
  lruLst : s'.prefixCache.lruLst = s.prefixCache.lruLst.erase node
  refCount : ∀ n ∈ s.prefixCache.lruLst.erase node, s'.refCount n = s.refCount n
  numFree : s'.numFreeBlocks = s.numFreeBlocks + if node.isValid then 1 else 0

/-- A node that only the cache holds is evicted and its block freed. -/
theorem Sound.evictNode {node : Block Key} (h : Sound acc s ext)
    (hn : node ∈ s.prefixCache.lruLst) (hshared : s.isShared node = false) :
    ∃ s', s.evictNode node = .ok s' ∧ Sound acc s' ext ∧ s.Evicted s' node := by
  have hmem := h.conserved.node_mem hn
  have hreg := h.conserved.registered.remove hn
  have hdisabled : s.options.enablePrefixCache = false →
      s.prefixCache.lruLst.erase node = [] := by
    intro hd
    rw [h.conserved.disabled hd]
    rfl
  have hnodup := h.conserved.registered.nodup
  have hlocal : (s.prefixCache.lruLst.map Block.handle).Perm
      (node.handle :: (s.prefixCache.lruLst.erase node).map Block.handle) :=
    (perm_cons_erase hn).map Block.handle
  have hperm : (s.handles ext).Perm
      (node.handle :: (ext ++ (s.prefixCache.lruLst.erase node).map Block.handle)) :=
    (hlocal.append_left ext).trans perm_middle
  have hother : ∀ {a : Nat}, node.refCount = some a →
      ∀ n ∈ s.prefixCache.lruLst.erase node, n.refCount ≠ some a := by
    intro a hrc n hn' hn'a
    have hn'' := (hnodup.mem_erase_iff.mp hn')
    exact hn''.1 (h.conserved.node_unique hn''.2 hn (hn'a.trans hrc.symm))
  unfold Leaf.evictNode
  rw [unregister_eq]
  rcases h.conserved.owned.shape _ hmem with hnull | ⟨i, a, hm, -⟩
  · have hrc : node.refCount = none := congrArg Handle.refCount hnull
    have hid : node.id = none := congrArg Handle.id hnull
    have hrun : ∀ t : Leaf Key, t.release node = .ok t := fun t => by
      unfold Leaf.release
      rw [hrc]
    rw [hrun]
    refine ⟨_, rfl, ⟨⟨?_, hreg.setNumEvictable _, hdisabled⟩, fun ha => ?_⟩,
      ⟨rfl, rfl, rfl⟩, rfl, fun n _ => rfl, by simp [Block.isValid, hid]⟩
    · rw [hnull] at hperm
      exact ((h.conserved.owned.perm hperm).of_cons_null).setPrefixCache _
    · have := (h.accounted ha).valid node hn
      rw [Block.isValid, hid] at this
      cases this
  · have hrc : node.refCount = some a := congrArg Handle.refCount hm
    have hid : node.id = some i := congrArg Handle.id hm
    have hmgr : node.manager = some s.self := congrArg Handle.manager hm
    -- the cache is the only owner
    have hone : s.refCounts a = 1 := by
      have hpos := h.conserved.owned.refCount_pos hmem hrc
      have hle : s.refCount node ≤ 1 := by simpa [Leaf.isShared] using hshared
      rw [Leaf.refCount_eq, hrc] at hle
      simp only [Option.elim_some] at hle
      omega
    have hrun : ∀ c, ({ s with prefixCache := c } : Leaf Key).release node =
        ({ s with prefixCache := c } : Leaf Key).free node := fun c => by
      unfold Leaf.release
      rw [hrc, hmgr]
    rw [hm] at hperm
    have hnotres : some i ∉ s.prefixCache.blocksById.erase node.id := by
      rw [hid]
      exact Finset.notMem_erase _ _
    rw [hrun]
    obtain ⟨s', hfree, howned, hdrop⟩ := free_spec
      (s := { s with prefixCache :=
        { s.prefixCache with
          lruLst := s.prefixCache.lruLst.erase node
          cachedBlocks := s.prefixCache.cachedBlocks.erase node.hashValue
          blocksById := s.prefixCache.blocksById.erase node.id
          numEvictable := s.prefixCache.numEvictable - 1 } })
      ((h.conserved.owned.perm hperm).setPrefixCache _) hm
      (fun hr => absurd hr hnotres) (fun _ => hnotres)
    have hcache := hdrop.prefixCache
    rw [if_neg (fun hh => hnotres hh.1), Nat.add_zero] at hcache
    rw [hfree]
    refine ⟨_, rfl, ⟨⟨?_, ?_, ?_⟩, fun ha => ⟨?_, ?_⟩⟩, ?_, ?_, ?_, ?_⟩
    · have := howned.setPrefixCache (c := { s'.prefixCache with
        numBlocks := s'.prefixCache.numBlocks - 1 })
      rw [hcache] at this ⊢
      exact this
    · rw [hcache]
      exact hreg.setNumEvictable _
    · rw [hdrop.frame.options, hcache]
      exact hdisabled
    · rw [hcache]
      exact fun n hn' => (h.accounted ha).valid n (mem_of_mem_erase hn')
    · rw [hcache, hdrop.refCounts]
      have hsole := soleOwners_perm s.refCounts (perm_cons_erase hn)
      rw [soleOwners_cons, hrc] at hsole
      simp only [Option.elim_some, hone, if_true] at hsole
      rw [soleOwners_update_of_not_mem (hother hrc), (h.accounted ha).evictable, hsole,
        Nat.add_sub_cancel]
    · exact ⟨hdrop.frame.options, hdrop.frame.self, hdrop.frame.blockAllocator⟩
    · rw [hcache]
    · intro n hn'
      rw [Leaf.refCount_eq, Leaf.refCount_eq]
      rw [hdrop.refCounts]
      cases hnb : n.refCount with
      | none => rfl
      | some b =>
        have hba : b ≠ a := fun e => hother hrc n hn' (by rw [hnb, e])
        simp only [Option.elim_some, update_of_ne hba]
    · have hfreed := hdrop.numFree
      rw [hfreed, hone, Block.isValid, hid]
      rfl

/-! ## Taking a free block -/

theorem Sound.takeBlock [Inhabited Key] (h : Sound acc s ext) (hfree : 0 < s.numFreeBlocks) :
    ∃ (s' : Leaf Key) (b : Block Key) (i : Nat), s.takeBlock = .ok (s', b) ∧
      b.id = some i ∧ 0 < i ∧ b.size = s.options.blockSize ∧ b.manager = some s.self ∧
      (∀ x ∈ s.handles ext, x.id ≠ some i) ∧
      Sound acc s' (b.handle :: ext) ∧ s.Frame s' ∧ s'.prefixCache = s.prefixCache ∧
      s'.numFreeBlocks = s.numFreeBlocks - 1 := by
  obtain ⟨s', b, i, hrun, hm, howned, hframe, hcache, hnum, hcounts, hsize, hpos, -, hnone⟩ :=
    takeBlock_spec h.conserved.owned hfree
  refine ⟨s', b, i, hrun, congrArg Handle.id hm, hpos, hsize, congrArg Handle.manager hm, hnone,
    ⟨⟨?_, ?_, ?_⟩, fun ha => ⟨?_, ?_⟩⟩, hframe, hcache, hnum⟩
  · unfold Leaf.handles at howned ⊢
    rw [hcache]
    exact howned
  · rw [hcache]; exact h.conserved.registered
  · rw [hframe.options, hcache]; exact h.conserved.disabled
  · rw [hcache]; exact (h.accounted ha).valid
  · rw [hcache, hcounts, soleOwners_update_of_not_mem, (h.accounted ha).evictable]
    intro node hn hrc
    rcases h.conserved.owned.shape _ (h.conserved.node_mem hn) with hnull | ⟨j, c, hj, -, -, hlt⟩
    · have : node.refCount = none := congrArg Handle.refCount hnull
      rw [hrc] at this
      cases this
    · have : node.refCount = some c := congrArg Handle.refCount hj
      rw [hrc, Option.some.injEq] at this
      omega

end Steps

end Xllm.Framework
