import Xllm.Block.Conserved

/-!
# What match, insert and evict do to the invariant

Each loop of the prefix cache is followed through its flushed state: the working list appended to
the LRU list is a relinking of the list the loop started from, so every turn is one primitive step
on a leaf that satisfies the invariant.

The match lemmas also say what is returned: `residentRun` is the longest run of resident keys,
`residentProbe` the answer for each key on its own.
-/

namespace Xllm.Framework

open Xllm.Lib List

variable {Key : Type} [DecidableEq Key] {ext : List Handle} {acc : Prop}

/-! ## Relinking commutes with everything else -/

omit [DecidableEq Key] in
@[simp] theorem Leaf.setLru_lruLst (s : Leaf Key) (l : List (Block Key)) :
    (s.setLru l).prefixCache.lruLst = l := rfl

omit [DecidableEq Key] in
@[simp] theorem Leaf.setLru_setLru (s : Leaf Key) (l l' : List (Block Key)) :
    (s.setLru l).setLru l' = s.setLru l' := rfl

omit [DecidableEq Key] in
theorem Leaf.setLru_claimMatchedBlock (s : Leaf Key) (l : List (Block Key)) (node : Block Key) :
    (s.setLru l).claimMatchedBlock node = (s.claimMatchedBlock node).setLru l := by
  have hcount : (s.setLru l).refCount node = s.refCount node := rfl
  unfold Leaf.claimMatchedBlock
  rw [hcount]
  split
  · rw [releaseEvictableSlot_eq, releaseEvictableSlot_eq]
    rfl
  · rfl

omit [DecidableEq Key] in
theorem Leaf.setLru_copyBlock (s : Leaf Key) (l : List (Block Key)) (b : Block Key) :
    (s.setLru l).copyBlock b = ((s.copyBlock b).1.setLru l, (s.copyBlock b).2) := by
  unfold Leaf.copyBlock Leaf.incRefCount
  dsimp only
  split <;> rfl

/-! ## match -/

section Match

/-- The nodes of the longest run of resident keys. -/
def residentRun (cachedBlocks : AList (fun _ : Key => Block Key)) : List Key → List (Block Key)
  | [] => []
  | key :: keys =>
    match cachedBlocks.lookup key with
    | none => []
    | some node => node :: residentRun cachedBlocks keys

/-- For each key its node, or a placeholder. -/
def residentProbe [Inhabited Key] (cachedBlocks : AList (fun _ : Key => Block Key))
    (keys : List Key) : List (Block Key) :=
  keys.map (fun key => (cachedBlocks.lookup key).getD Block.empty)

theorem matchBlock_hit {w : Working Key} {key : Key} {node : Block Key}
    (hkey : w.leaf.prefixCache.cachedBlocks.lookup key = some node)
    (hsound : Sound acc w.flush ext) :
    ∃ w', matchBlock w key = some w' ∧ w'.blocks = w.blocks ++ [node] ∧
      Sound acc w'.flush (node.handle :: ext) ∧ w.leaf.Frame w'.leaf ∧
      w'.leaf.prefixCache.cachedBlocks = w.leaf.prefixCache.cachedBlocks := by
  have hnode : node ∈ w.flush.prefixCache.lruLst :=
    ((hsound.conserved.registered.lookup key node).mp hkey).1
  obtain ⟨s', hrun, hs', hframe, hcache⟩ := hsound.claimCopy hnode
  -- the same claim and copy on the unflushed leaf
  have hflush : w.flush = w.leaf.setLru (w.leaf.prefixCache.lruLst ++ w.nodeList) := rfl
  rw [hflush, Leaf.setLru_claimMatchedBlock, Leaf.setLru_copyBlock, Prod.mk.injEq] at hrun
  obtain ⟨hleaf, hcopy⟩ := hrun
  generalize ht : (w.leaf.claimMatchedBlock node).copyBlock node = t at hleaf hcopy
  obtain ⟨t, b⟩ := t
  subst hcopy
  have hlru : t.prefixCache.lruLst = w.leaf.prefixCache.lruLst := by
    have h1 : t = ((w.leaf.claimMatchedBlock b).copyBlock b).1 := by rw [ht]
    rw [h1]
    unfold Leaf.copyBlock Leaf.incRefCount Leaf.claimMatchedBlock
    rw [releaseEvictableSlot_eq]
    dsimp only
    split <;> split <;> rfl
  refine ⟨({ w with leaf := t, blocks := w.blocks ++ [b] }.removeNode b).pushFront b, ?_, rfl,
    ?_, ?_, ?_⟩
  · unfold matchBlock
    rw [hkey]
    dsimp only
    rw [ht]
  · have hperm : s'.prefixCache.lruLst.Perm
        (w.leaf.prefixCache.lruLst.erase b ++ b :: w.nodeList.erase b) := by
      rw [hcache]
      exact (erase_append_cons_perm hsound.conserved.registered.nodup hnode).symm
    have hrelinked := hs'.relink hperm
    rw [← hleaf, Leaf.setLru_setLru, ← hlru] at hrelinked
    exact hrelinked
  · rw [← hleaf] at hframe
    exact ⟨hframe.options, hframe.self, hframe.blockAllocator⟩
  · rw [← hleaf] at hcache
    have hcached := congrArg PrefixCache.cachedBlocks hcache
    exact hcached

theorem matchLoop_spec : ∀ (keys : List Key) (w : Working Key) (ext : List Handle),
    Sound acc w.flush ext →
      (matchLoop keys w).blocks =
        w.blocks ++ residentRun w.leaf.prefixCache.cachedBlocks keys ∧
      Sound acc (matchLoop keys w).flush
        ((residentRun w.leaf.prefixCache.cachedBlocks keys).map Block.handle ++ ext) ∧
      w.leaf.Frame (matchLoop keys w).leaf ∧
      (matchLoop keys w).leaf.prefixCache.cachedBlocks = w.leaf.prefixCache.cachedBlocks := by
  intro keys
  induction keys with
  | nil => intro w ext h; exact ⟨by simp [matchLoop, residentRun], h, .refl _, rfl⟩
  | cons key keys ih =>
    intro w ext h
    unfold matchLoop residentRun
    cases hkey : w.leaf.prefixCache.cachedBlocks.lookup key with
    | none =>
      have hmiss : matchBlock w key = none := by unfold matchBlock; rw [hkey]
      rw [hmiss]
      exact ⟨by simp, h, .refl _, rfl⟩
    | some node =>
      obtain ⟨w', hhit, hblocks, hsound, hframe, hcached⟩ := matchBlock_hit hkey h
      obtain ⟨ihblocks, ihsound, ihframe, ihcached⟩ := ih w' (node.handle :: ext) hsound
      rw [hhit]
      rw [hcached] at ihblocks ihsound ihcached
      refine ⟨?_, ihsound.perm perm_middle, hframe.trans ihframe, ihcached⟩
      rw [ihblocks, hblocks, List.append_assoc]
      rfl

/-- The last resident key of a probe, as an index counted from `b`. -/
def lastResident (cachedBlocks : AList (fun _ : Key => Block Key)) :
    List Key → Nat → Option Nat → Option Nat
  | [], _, last => last
  | key :: keys, b, last =>
    lastResident cachedBlocks keys (b + 1)
      (if (cachedBlocks.lookup key).isSome then some b else last)

theorem lastResident_spec (cachedBlocks : AList (fun _ : Key => Block Key)) :
    ∀ (keys : List Key) (b : Nat) (last : Option Nat),
      (lastResident cachedBlocks keys b last = last ∧
        ∀ key ∈ keys, cachedBlocks.lookup key = none) ∨
      ∃ j key, lastResident cachedBlocks keys b last = some (b + j) ∧ keys[j]? = some key ∧
        (cachedBlocks.lookup key).isSome ∧
        ∀ key' ∈ keys.drop (j + 1), cachedBlocks.lookup key' = none := by
  intro keys
  induction keys with
  | nil => intro b last; exact Or.inl ⟨rfl, by simp⟩
  | cons key keys ih =>
    intro b last
    unfold lastResident
    rcases ih (b + 1) (if (cachedBlocks.lookup key).isSome then some b else last) with
      ⟨hlast, hnone⟩ | ⟨j, key', hlast, hget, hsome, hnone⟩
    · rw [hlast]
      by_cases hkey : (cachedBlocks.lookup key).isSome
      · rw [if_pos hkey]
        exact Or.inr ⟨0, key, rfl, rfl, hkey, hnone⟩
      · rw [if_neg hkey]
        refine Or.inl ⟨rfl, fun k hk => ?_⟩
        rcases mem_cons.mp hk with rfl | hk
        · exact Option.not_isSome_iff_eq_none.mp hkey
        · exact hnone k hk
    · right
      refine ⟨j + 1, key', ?_, hget, hsome, hnone⟩
      rw [hlast, Nat.add_assoc, Nat.add_comm 1]

theorem probeLoop_spec [Inhabited Key] : ∀ (keys : List Key) (b : Nat) (last : Option Nat)
    (w : Working Key) (ext : List Handle), Sound acc w.flush ext →
      (probeLoop keys b last w).1 = lastResident w.leaf.prefixCache.cachedBlocks keys b last ∧
      (probeLoop keys b last w).2.blocks =
        w.blocks ++ residentProbe w.leaf.prefixCache.cachedBlocks keys ∧
      Sound acc (probeLoop keys b last w).2.flush
        ((residentProbe w.leaf.prefixCache.cachedBlocks keys).map Block.handle ++ ext) ∧
      w.leaf.Frame (probeLoop keys b last w).2.leaf ∧
      (probeLoop keys b last w).2.leaf.prefixCache.cachedBlocks =
        w.leaf.prefixCache.cachedBlocks := by
  intro keys
  induction keys with
  | nil =>
    intro b last w ext h
    exact ⟨rfl, by simp [probeLoop, residentProbe], h, .refl _, rfl⟩
  | cons key keys ih =>
    intro b last w ext h
    unfold probeLoop
    cases hkey : w.leaf.prefixCache.cachedBlocks.lookup key with
    | none =>
      have hmiss : matchBlock w key = none := by unfold matchBlock; rw [hkey]
      rw [hmiss]
      obtain ⟨ihlast, ihblocks, ihsound, ihframe, ihcached⟩ :=
        ih (b + 1) last { w with blocks := w.blocks ++ [Block.empty] } ext h
      refine ⟨?_, ?_, ?_, ihframe, ihcached⟩
      · rw [ihlast]
        simp [lastResident, hkey]
      · rw [ihblocks]
        simp [residentProbe, hkey]
      · simp only [residentProbe, map_cons, hkey, Option.getD_none, Block.handle_empty,
          cons_append]
        exact ihsound.cons_null
    | some node =>
      obtain ⟨w', hhit, hblocks, hsound, hframe, hcached⟩ := matchBlock_hit hkey h
      obtain ⟨ihlast, ihblocks, ihsound, ihframe, ihcached⟩ :=
        ih (b + 1) (some b) w' (node.handle :: ext) hsound
      rw [hhit]
      rw [hcached] at ihlast ihblocks ihsound ihcached
      refine ⟨?_, ?_, ?_, hframe.trans ihframe, ihcached⟩
      · rw [ihlast]
        simp [lastResident, hkey]
      · rw [ihblocks, hblocks]
        simp [residentProbe, hkey]
      · simp only [residentProbe, map_cons, hkey, Option.getD_some, cons_append]
        exact ihsound.perm perm_middle

theorem copyBlocks_spec : ∀ (others : List (Block Key)) (s : Leaf Key) (ext : List Handle),
    Sound acc s ext → (∀ b ∈ others, b.handle ∈ ext) →
      (s.copyBlocks others).2 = others ∧
      Sound acc (s.copyBlocks others).1 (others.map Block.handle ++ ext) ∧
      s.Frame (s.copyBlocks others).1 ∧
      (s.copyBlocks others).1.prefixCache = s.prefixCache := by
  intro others
  induction others with
  | nil => intro s ext h _; exact ⟨rfl, h, .refl s, rfl⟩
  | cons b others ih =>
    intro s ext h hmem
    obtain ⟨hb, hsound, hframe, hcache⟩ := h.copyBlock (hmem b mem_cons_self)
    obtain ⟨ihb, ihsound, ihframe, ihcache⟩ := ih (s.copyBlock b).1 (b.handle :: ext) hsound
      (fun x hx => mem_cons_of_mem _ (hmem x (mem_cons_of_mem _ hx)))
    unfold Leaf.copyBlocks
    dsimp only
    refine ⟨?_, ihsound.perm perm_middle, hframe.trans ihframe, ihcache.trans hcache⟩
    rw [ihb, hb]

end Match

/-! ## insert -/

section Insert

/-- Every node that was not in the cache before satisfies `P`. -/
def Leaf.Adds (s s' : Leaf Key) (P : Block Key → Prop) : Prop :=
  ∀ node ∈ s'.prefixCache.lruLst, node ∈ s.prefixCache.lruLst ∨ P node

variable {s s' : Leaf Key} {P : Block Key → Prop}

omit [DecidableEq Key] in
theorem Leaf.Adds.of_subset
    (h : ∀ node ∈ s'.prefixCache.lruLst, node ∈ s.prefixCache.lruLst) : s.Adds s' P :=
  fun node hn => Or.inl (h node hn)

omit [DecidableEq Key] in
theorem Leaf.Adds.imp {Q : Block Key → Prop} (h : s.Adds s' P)
    (hPQ : ∀ node, P node → Q node) : s.Adds s' Q :=
  fun node hn => (h node hn).imp_right (hPQ node)

omit [DecidableEq Key] in
theorem Leaf.Adds.trans {s'' : Leaf Key} (h : s.Adds s' P) (h' : s'.Adds s'' P) : s.Adds s'' P :=
  fun node hn => (h' node hn).elim (h node) Or.inr

/-- What inserting one stamped block does to the nodes. -/
structure Leaf.Inserted (s s' : Leaf Key) (block : Block Key) : Prop where
  kept : ∀ node ∈ s.prefixCache.lruLst, node ∈ s'.prefixCache.lruLst
  added : s.Adds s' (fun node => node = block ∧
    ∀ n ∈ s.prefixCache.lruLst, n.hashValue ≠ block.hashValue)
  found : ∃ node ∈ s'.prefixCache.lruLst, node.hashValue = block.hashValue

variable {w : Working Key} {block : Block Key} {key : Key}

/-- One block of an insert. The only CHECK that can stop it is the one on duplicate ids. -/
theorem insertBlock_spec (h : Sound acc w.flush ext)
    (hen : w.leaf.options.enablePrefixCache = true) (hb : block.handle ∈ ext)
    (hkey : block.hashValue = key) (hvalid : acc → block.isValid) :
    Outcome (fun e => e = .duplicateBlockId block.id)
      (fun w' => Sound acc w'.flush ext ∧ w.leaf.Frame w'.leaf ∧ w'.blocks = w.blocks ∧
        w.flush.Inserted w'.flush block) (insertBlock w key block) := by
  subst hkey
  unfold insertBlock
  cases hlookup : w.leaf.prefixCache.cachedBlocks.lookup block.hashValue with
  | some node =>
    obtain ⟨hnode, hhash⟩ := (h.conserved.registered.lookup _ node).mp hlookup
    have hperm := erase_append_cons_perm h.conserved.registered.nodup hnode
    refine ⟨h.relink hperm.symm, ⟨rfl, rfl, rfl⟩, rfl, fun n hn => hperm.mem_iff.mpr hn,
      .of_subset fun n hn => hperm.mem_iff.mp hn, node, hperm.mem_iff.mpr hnode, hhash⟩
  | none =>
    dsimp only
    split
    · exact rfl
    · rename_i hid
      obtain ⟨hcopy, hsound, hframe, hcache⟩ := h.copyBlock hb
      have hadded := h.addNode hen hb hlookup hid hvalid
      have hflush : w.flush = w.leaf.setLru (w.leaf.prefixCache.lruLst ++ w.nodeList) := rfl
      rw [hflush, Leaf.setLru_copyBlock] at hcopy hframe hcache
      dsimp only at hcopy hframe
      have hleafcache : (w.leaf.copyBlock block).1.prefixCache = w.leaf.prefixCache := by
        unfold Leaf.copyBlock Leaf.incRefCount
        dsimp only
        split <;> rfl
      refine ⟨?_, ⟨hframe.options, hframe.self, hframe.blockAllocator⟩, rfl, ?_⟩
      · have hrelinked := hadded.relink (l := w.leaf.prefixCache.lruLst ++ block :: w.nodeList)
          perm_middle.symm
        simp only [Working.flush, Working.newNode, Working.pushFront, hcopy, hleafcache]
        rw [hflush, Leaf.setLru_copyBlock] at hrelinked
        exact hrelinked
      · have hlru : ((w.newNode block.hashValue block).flush).prefixCache.lruLst =
            w.leaf.prefixCache.lruLst ++ block :: w.nodeList := by
          simp only [Working.flush, Working.newNode, Working.pushFront, hcopy, hleafcache,
            Leaf.setLru_lruLst]
        constructor
        case kept =>
          intro node hn
          rw [hlru]
          exact perm_middle.mem_iff.mpr (mem_cons_of_mem _ hn)
        case added =>
          intro node hn
          rw [hlru] at hn
          rcases mem_cons.mp (perm_middle.mem_iff.mp hn) with rfl | hold
          · refine Or.inr ⟨rfl, fun n hn' he => ?_⟩
            have hfound := (h.conserved.registered.lookup _ n).mpr ⟨hn', he⟩
            have hmiss : w.flush.prefixCache.cachedBlocks.lookup node.hashValue = none := hlookup
            rw [hmiss] at hfound
            cases hfound
          · exact Or.inl hold
        case found =>
          refine ⟨block, ?_, rfl⟩
          rw [hlru]
          exact perm_middle.mem_iff.mpr mem_cons_self

/-- The handles of an inserted vector never change; its elements are only stamped. -/
theorem insertLoop_spec (gapTolerant : Bool) :
    ∀ (pairs : List (Key × Block Key)) (w : Working Key), Sound acc w.flush ext →
      w.leaf.options.enablePrefixCache = true → (∀ p ∈ pairs, p.2.handle ∈ ext) →
      (acc → gapTolerant = false → ∀ p ∈ pairs, p.2.isValid) →
      Outcome (fun e => ∃ id, e = .duplicateBlockId id)
        (fun w' => Sound acc w'.flush ext ∧ w.leaf.Frame w'.leaf ∧ w'.blocks.map Block.handle =
            w.blocks.map Block.handle ++ pairs.map (fun p => p.2.handle) ∧
          w.flush.Adds w'.flush (fun node => ∃ p ∈ pairs, node = p.2.setHashValue p.1))
        (insertLoop gapTolerant pairs w) := by
  intro pairs
  induction pairs with
  | nil => intro w h _ _ _; exact ⟨h, .refl _, by simp, .of_subset fun _ hn => hn⟩
  | cons pair pairs ih =>
    obtain ⟨key, block⟩ := pair
    intro w h hen hmem hvalid
    have hrest : ∀ p ∈ pairs, p.2.handle ∈ ext :=
      fun p hp => hmem p (mem_cons_of_mem _ hp)
    have hrestValid : acc → gapTolerant = false → ∀ p ∈ pairs, p.2.isValid :=
      fun ha hg p hp => hvalid ha hg p (mem_cons_of_mem _ hp)
    unfold insertLoop
    split
    · refine (ih { w with blocks := w.blocks ++ [block] } h hen hrest hrestValid).imp ?_
      rintro w' ⟨hs, hf, hbs, hadds⟩
      refine ⟨hs, hf, by rw [hbs]; simp, hadds.imp ?_⟩
      rintro node ⟨p, hp, rfl⟩
      exact ⟨p, mem_cons_of_mem _ hp, rfl⟩
    · rename_i hskip
      have hb : (block.setHashValue key).handle ∈ ext := hmem _ mem_cons_self
      have hv : acc → (block.setHashValue key).isValid := by
        intro ha
        cases hg : gapTolerant with
        | false => exact hvalid ha hg _ mem_cons_self
        | true =>
          rw [hg] at hskip
          change block.isValid = true
          simpa using hskip
      refine Outcome.bind (P := fun w' => Sound acc w'.flush ext ∧ w.leaf.Frame w'.leaf ∧
        w'.blocks = w.blocks ++ [block.setHashValue key] ∧
        w.flush.Adds w'.flush (fun node => node = block.setHashValue key)) ?_ ?_
      · exact (insertBlock_spec (w := { w with blocks := w.blocks ++ [block.setHashValue key] })
          h hen hb rfl hv).mono (fun e he => ⟨_, he⟩)
          (fun w' hw' => ⟨hw'.1, hw'.2.1, hw'.2.2.1, hw'.2.2.2.added.imp fun node hn => hn.1⟩)
      · rintro w' ⟨hs, hf, hbs, hadds⟩
        refine (ih w' hs (hf.options ▸ hen) hrest hrestValid).imp ?_
        rintro w'' ⟨hs', hf', hbs', hadds'⟩
        refine ⟨hs', hf.trans hf', by rw [hbs', hbs]; simp, ?_⟩
        refine (hadds.imp ?_).trans (hadds'.imp ?_)
        · rintro node rfl
          exact ⟨(key, block), mem_cons_self, rfl⟩
        · rintro node ⟨p, hp, rfl⟩
          exact ⟨p, mem_cons_of_mem _ hp, rfl⟩

theorem insertStampedLoop_spec :
    ∀ (blocks : List (Block Key)) (w : Working Key), Sound acc w.flush ext →
      w.leaf.options.enablePrefixCache = true → (∀ b ∈ blocks, b.handle ∈ ext) →
      Outcome (fun e => ∃ id, e = .duplicateBlockId id)
        (fun w' => Sound acc w'.flush ext ∧ w.leaf.Frame w'.leaf ∧
          w.flush.Adds w'.flush (fun node => node ∈ blocks ∧ node.isValid))
        (insertStampedLoop blocks w) := by
  intro blocks
  induction blocks with
  | nil => intro w h _ _; exact ⟨h, .refl _, .of_subset fun _ hn => hn⟩
  | cons block blocks ih =>
    intro w h hen hmem
    have hrest : ∀ b ∈ blocks, b.handle ∈ ext := fun b hb => hmem b (mem_cons_of_mem _ hb)
    unfold insertStampedLoop
    split
    · refine (ih w h hen hrest).imp ?_
      rintro w' ⟨hs, hf, hadds⟩
      exact ⟨hs, hf, hadds.imp fun node hn => ⟨mem_cons_of_mem _ hn.1, hn.2⟩⟩
    · rename_i hskip
      have hvalid : block.isValid = true := by simpa using hskip
      refine Outcome.bind (P := fun w' => Sound acc w'.flush ext ∧ w.leaf.Frame w'.leaf ∧
        w.flush.Adds w'.flush (fun node => node = block)) ?_ ?_
      · exact (insertBlock_spec h hen (hmem _ mem_cons_self) rfl
          (fun _ => hvalid)).mono (fun e he => ⟨_, he⟩)
          (fun w' hw' => ⟨hw'.1, hw'.2.1, hw'.2.2.2.added.imp fun node hn => hn.1⟩)
      · rintro w' ⟨hs, hf, hadds⟩
        refine (ih w' hs (hf.options ▸ hen) hrest).imp ?_
        rintro w'' ⟨hs', hf', hadds'⟩
        refine ⟨hs', hf.trans hf', (hadds.imp ?_).trans (hadds'.imp ?_)⟩
        · rintro node rfl
          exact ⟨mem_cons_self, hvalid⟩
        · exact fun node hn => ⟨mem_cons_of_mem _ hn.1, hn.2⟩

end Insert

/-! ## evict -/

section Evict

/-- The nodes an eviction may take. -/
def Leaf.unshared (s : Leaf Key) (nodes : List (Block Key)) : Nat :=
  nodes.countP (fun node => s.isShared node = false)

/-- What an eviction of `evicted` entries leaves behind. -/
structure Leaf.Shrunk (s s' : Leaf Key) (evicted : Nat) : Prop where
  frame : s.Frame s'
  sublist : s'.prefixCache.lruLst.Sublist s.prefixCache.lruLst
  length : s'.prefixCache.lruLst.length + evicted = s.prefixCache.lruLst.length
  keepsShared : ∀ node ∈ s.prefixCache.lruLst, s.isShared node = true →
    node ∈ s'.prefixCache.lruLst
  numFree : (∀ node ∈ s.prefixCache.lruLst, node.isValid) →
    s'.numFreeBlocks = s.numFreeBlocks + evicted

omit [DecidableEq Key] in
theorem Leaf.Shrunk.refl (s : Leaf Key) : s.Shrunk s 0 :=
  ⟨.refl s, List.Sublist.refl _, rfl, fun _ h _ => h, fun _ => rfl⟩

/-- The walk takes unshared nodes from the old end until it has enough. -/
theorem evictLoop_spec (nBlocks : Nat) :
    ∀ (nodes : List (Block Key)) (evictCount : Nat) (s : Leaf Key), Sound acc s ext →
      nodes.Nodup → (∀ n ∈ nodes, n ∈ s.prefixCache.lruLst) →
      ∃ s' evicted, evictLoop nBlocks nodes evictCount s = .ok (s', evictCount + evicted) ∧
        evicted = min (nBlocks - evictCount) (s.unshared nodes) ∧ Sound acc s' ext ∧
        s.Shrunk s' evicted := by
  intro nodes
  induction nodes with
  | nil => intro c s h _ _; exact ⟨s, 0, rfl, by simp [Leaf.unshared], h, .refl s⟩
  | cons node nodes ih =>
    intro c s h hnodup hmem
    have hnode := hmem node mem_cons_self
    have hcons : s.unshared (node :: nodes) =
        s.unshared nodes + if s.isShared node = false then 1 else 0 := by
      simp [Leaf.unshared, countP_cons]
    unfold evictLoop
    by_cases henough : nBlocks ≤ c
    · rw [if_pos henough]
      exact ⟨s, 0, rfl, by omega, h, .refl s⟩
    · rw [if_neg henough]
      cases hshared : s.isShared node with
      | true =>
        obtain ⟨s', evicted, hrun, hev, hs', hshrunk⟩ := ih c s h (nodup_cons.mp hnodup).2
          (fun n hn => hmem n (mem_cons_of_mem _ hn))
        refine ⟨s', evicted, hrun, ?_, hs', hshrunk⟩
        rw [hev, hcons, hshared]
        rfl
      | false =>
        obtain ⟨s₁, hrun₁, hs₁, hevicted⟩ := h.evictNode hnode hshared
        have hlive : ∀ n ∈ nodes, n ∈ s.prefixCache.lruLst.erase node := by
          intro n hn
          refine (h.conserved.registered.nodup.mem_erase_iff).mpr
            ⟨?_, hmem n (mem_cons_of_mem _ hn)⟩
          rintro rfl
          exact (nodup_cons.mp hnodup).1 hn
        obtain ⟨s', evicted, hrun, hev, hs', hshrunk⟩ := ih (c + 1) s₁ hs₁
          (nodup_cons.mp hnodup).2 (fun n hn => by rw [hevicted.lruLst]; exact hlive n hn)
        have hsame : s₁.unshared nodes = s.unshared nodes := by
          refine countP_congr fun n hn => ?_
          unfold Leaf.isShared
          rw [hevicted.refCount n (hlive n hn)]
        refine ⟨s', evicted + 1, ?_, ?_, hs', ?_⟩
        · rw [hrun₁]
          refine hrun.trans ?_
          rw [Nat.add_assoc, Nat.add_comm 1]
        · rw [hev, hcons, hshared, hsame, if_pos rfl]
          omega
        · have hlen : (s.prefixCache.lruLst.erase node).length + 1 = s.prefixCache.lruLst.length :=
            length_erase_add_one hnode
          refine ⟨hevicted.frame.trans hshrunk.frame, ?_, ?_, ?_, ?_⟩
          · have := hshrunk.sublist
            rw [hevicted.lruLst] at this
            exact this.trans erase_sublist
          · have := hshrunk.length
            rw [hevicted.lruLst] at this
            omega
          · intro n hn hsn
            have hne : n ≠ node := by
              rintro rfl
              rw [hsn] at hshared
              cases hshared
            have hn₁ : n ∈ s.prefixCache.lruLst.erase node :=
              (h.conserved.registered.nodup.mem_erase_iff).mpr ⟨hne, hn⟩
            refine hshrunk.keepsShared n (by rw [hevicted.lruLst]; exact hn₁) ?_
            unfold Leaf.isShared at hsn ⊢
            rw [hevicted.refCount n hn₁]
            exact hsn
          · intro hvalid
            have hfree := hshrunk.numFree (fun n hn => hvalid n (by
              rw [hevicted.lruLst] at hn
              exact mem_of_mem_erase hn))
            rw [hfree, hevicted.numFree, if_pos (hvalid node hnode)]
            omega

variable {s : Leaf Key}

theorem Sound.checkCachedBlockCount (h : Sound acc s ext) :
    s.checkCachedBlockCount = .ok () := by
  unfold Leaf.checkCachedBlockCount
  rw [if_pos h.conserved.registered.card]

theorem evict_spec (h : Sound acc s ext) (nBlocks : Nat) :
    ∃ s' evicted, s.evict nBlocks = .ok (s', evicted) ∧
      evicted = min nBlocks (s.unshared s.prefixCache.lruLst) ∧ Sound acc s' ext ∧
      s.Shrunk s' evicted := by
  unfold Leaf.evict
  rw [h.checkCachedBlockCount]
  by_cases hempty : s.prefixCache.numBlocks = 0 ∨ s.prefixCache.lruLst = []
  · have hnil : s.prefixCache.lruLst = [] := by
      rcases hempty with h0 | hnil
      · rw [h.conserved.registered.numBlocks] at h0
        exact length_eq_zero_iff.mp h0
      · exact hnil
    refine ⟨s, 0, ?_, by rw [hnil]; simp [Leaf.unshared], h, .refl s⟩
    simp only [bind, Except.bind, if_pos hempty]
  · obtain ⟨s', evicted, hrun, hev, hs', hshrunk⟩ := evictLoop_spec nBlocks
      s.prefixCache.lruLst 0 s h h.conserved.registered.nodup (fun n hn => hn)
    refine ⟨s', evicted, ?_, by rw [hev, Nat.sub_zero], hs', hshrunk⟩
    rw [Nat.zero_add] at hrun
    simp only [bind, Except.bind, if_neg hempty, hrun, hs'.checkCachedBlockCount]

theorem Sound.unshared_eq (h : Sound True s ext) :
    s.unshared s.prefixCache.lruLst = s.prefixCache.numEvictable := by
  rw [(h.accounted trivial).evictable]
  refine countP_congr fun node hn => ?_
  obtain ⟨i, a, hm⟩ := h.conserved.node_managed hn ((h.accounted trivial).valid node hn)
  have hrc : node.refCount = some a := congrArg Handle.refCount hm
  have hpos := h.conserved.owned.refCount_pos (h.conserved.node_mem hn) hrc
  have hcount : s.refCount node = s.refCounts a := by rw [Leaf.refCount_eq, hrc]; rfl
  have hcell : node.refCount.elim 0 s.refCounts = s.refCounts a := by rw [hrc]; rfl
  rw [hcell, decide_eq_true_eq, decide_eq_true_eq]
  unfold Leaf.isShared
  rw [hcount, decide_eq_false_iff_not]
  omega

end Evict

end Xllm.Framework
