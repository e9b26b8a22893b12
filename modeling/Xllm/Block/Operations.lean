import Xllm.PrefixCache.HashChain
import Xllm.PrefixCache.Walks

/-!
# The operations of a leaf keep its invariant

One lemma per entry point of `BlockManagerImpl`: which CHECKs can stop it, what it does to the
handles outside the cache, and what it returns.
-/

namespace Xllm.Framework

open Xllm.Lib List

variable {Key : Type} [DecidableEq Key] [Inhabited Key] {ext : List Handle} {acc : Prop}
  {s : Leaf Key}

/-! ## allocate

Blocks come off the end of the free list one by one. When there are too few, nodes of the cache that
nobody else holds are evicted first. -/

/-- New blocks: no id among them, or among them and the aliases outside the cache, repeats. -/
structure Fresh (blocks : List (Block Key)) (ext : List Handle) : Prop where
  valid : ∀ b ∈ blocks, ∃ i, b.id = some i ∧ 0 < i
  nodup : (blocks.map Block.id).Nodup
  unheld : ∀ b ∈ blocks, ∀ x ∈ ext, x.id ≠ b.id

/-- The blocks are different, as each one is held when the next is taken. -/
theorem allocateLoop_spec : ∀ (n : Nat) (s : Leaf Key) (ext : List Handle), Sound acc s ext →
    n ≤ s.numFreeBlocks →
    ∃ s' blocks, allocateLoop n s = .ok (s', blocks) ∧ blocks.length = n ∧
      Fresh blocks (s.handles ext) ∧ (∀ b ∈ blocks, b.manager = some s.self) ∧
      (∀ b ∈ blocks, b.size = s.options.blockSize) ∧
      Sound acc s' (blocks.map Block.handle ++ ext) ∧
      s.Frame s' ∧ s'.prefixCache = s.prefixCache ∧ s'.numFreeBlocks = s.numFreeBlocks - n := by
  intro n
  induction n with
  | zero =>
    intro s ext h _
    exact ⟨s, [], rfl, rfl, ⟨by simp, nodup_nil, by simp⟩, by simp, by simp, h, .refl s, rfl,
      rfl⟩
  | succ n ih =>
    intro s ext h hn
    obtain ⟨s₁, b, i, hrun, hid, hpos, hsize, hmgr, hnone, hs₁, hframe, hcache, hfree⟩ :=
      h.takeBlock (by omega)
    obtain ⟨s', blocks, hrest, hlen, hfresh, hmgrs, hsizes, hs', hframe', hcache', hfree'⟩ :=
      ih s₁ (b.handle :: ext) hs₁ (by rw [hfree]; omega)
    have hhandles : s₁.handles (b.handle :: ext) = b.handle :: s.handles ext := by
      unfold Leaf.handles
      rw [hcache]
      rfl
    rw [hhandles] at hfresh
    refine ⟨s', b :: blocks, ?_, by rw [length_cons, hlen], ?_, ?_, ?_, ?_,
      hframe.trans hframe', hcache'.trans hcache, by rw [hfree', hfree]; omega⟩
    · unfold allocateLoop
      rw [hrun]
      simp only [bind, Except.bind, hrest]
    · constructor
      case valid =>
        intro c hc
        rcases mem_cons.mp hc with rfl | hc
        · exact ⟨i, hid, hpos⟩
        · exact hfresh.valid c hc
      case nodup =>
        rw [map_cons, nodup_cons]
        refine ⟨fun hm => ?_, hfresh.nodup⟩
        obtain ⟨c, hc, hce⟩ := mem_map.mp hm
        exact hfresh.unheld c hc b.handle mem_cons_self hce.symm
      case unheld =>
        intro c hc x hx
        rcases mem_cons.mp hc with rfl | hc
        · rw [hid]
          exact hnone x hx
        · exact hfresh.unheld c hc x (mem_cons_of_mem _ hx)
    · intro c hc
      rcases mem_cons.mp hc with rfl | hc
      · exact hmgr
      · rw [hmgrs c hc, hframe.self]
    · intro c hc
      rcases mem_cons.mp hc with rfl | hc
      · exact hsize
      · rw [hsizes c hc, hframe.options]
    · exact hs'.perm (perm_middle.trans (List.Perm.refl _))

theorem hasEnoughBlocks_spec (h : Sound acc s ext) (n : Nat) :
    ∃ s' enough evicted, s.hasEnoughBlocks n = .ok (s', enough) ∧ Sound acc s' ext ∧
      s.Shrunk s' evicted ∧ (enough = true → n ≤ s'.numFreeBlocks) ∧
      (n ≤ s.numFreeBlocks → enough = true ∧ s' = s) ∧
      (s.numFreeBlocks < n → s.options.enablePrefixCache = true →
        evicted = min (n - s.numFreeBlocks) (s.unshared s.prefixCache.lruLst) ∧
        (enough = true ↔ n - s.numFreeBlocks ≤ evicted ∧ n ≤ s'.numFreeBlocks)) ∧
      (s.numFreeBlocks < n → s.options.enablePrefixCache = false → enough = false) := by
  unfold Leaf.hasEnoughBlocks
  by_cases hfree : n ≤ s.numFreeBlocks
  · rw [if_pos hfree]
    exact ⟨s, true, 0, rfl, h, .refl s, fun _ => hfree, fun _ => ⟨rfl, rfl⟩,
      fun hlt => absurd hfree (by omega), fun hlt => absurd hfree (by omega)⟩
  · rw [if_neg hfree]
    by_cases hen : s.options.enablePrefixCache = true
    · rw [if_neg (by simpa using hen)]
      obtain ⟨s', evicted, hrun, hev, hs', hshrunk⟩ := evict_spec h (n - s.numFreeBlocks)
      by_cases hshort : evicted < n - s.numFreeBlocks
      · refine ⟨s', false, evicted, ?_, hs', hshrunk, by simp, fun hle => absurd hle hfree,
          fun _ _ => ⟨hev, ?_⟩, fun _ hd => absurd hen (by rw [hd]; simp)⟩
        · simp only [bind, Except.bind, hrun, if_pos hshort]
        · constructor
          · intro hf; exact nomatch hf
          · rintro ⟨hle, -⟩; omega
      · refine ⟨s', decide (n ≤ s'.numFreeBlocks), evicted, ?_, hs', hshrunk, by simp,
          fun hle => absurd hle hfree, fun _ _ => ⟨hev, ?_⟩,
          fun _ hd => absurd hen (by rw [hd]; simp)⟩
        · simp only [bind, Except.bind, hrun, if_neg hshort]
        · rw [decide_eq_true_eq]
          constructor
          · intro hle; exact ⟨by omega, hle⟩
          · exact fun hh => hh.2
    · rw [if_pos (by simpa using hen)]
      exact ⟨s, false, 0, rfl, h, .refl s, by simp, fun hle => absurd hle hfree,
        fun _ he => absurd he hen, fun _ _ => rfl⟩

/-- What a successful `allocate` leaves: a shrunk cache and the returned blocks. -/
structure Allocated (s s' : Leaf Key) (ext : List Handle) (blocks : List (Block Key)) : Prop where
  frame : s.Frame s'
  fresh : Fresh blocks ext
  unregistered : ∀ b ∈ blocks, b.id ∉ s'.prefixCache.blocksById
  size : ∀ b ∈ blocks, b.size = s.options.blockSize
  manager : ∀ b ∈ blocks, b.manager = some s.self
  sublist : s'.prefixCache.lruLst.Sublist s.prefixCache.lruLst
  keepsShared : ∀ node ∈ s.prefixCache.lruLst, s.isShared node = true →
    node ∈ s'.prefixCache.lruLst

theorem Fresh.nil (ext : List Handle) : Fresh ([] : List (Block Key)) ext :=
  ⟨by simp, nodup_nil, by simp⟩

/-- `allocate` returns all the blocks it was asked for or none; the only CHECK it can hit is the
one behind the narrowed count. -/
theorem allocate_spec (h : Sound acc s ext) (n : Nat) :
    Outcome (fun e => e = .notEnoughBlocks ∧ 2 ^ 32 ≤ n)
      (fun r => Sound acc r.1 (r.2.map Block.handle ++ ext) ∧ Allocated s r.1 ext r.2 ∧
        (r.2.length = n ∨ r.2 = [])) (s.allocate n) := by
  obtain ⟨s₁, enough, evicted, hrun, hs₁, hshrunk, henough, -, -, -⟩ :=
    hasEnoughBlocks_spec h (n % 2 ^ 32)
  unfold Leaf.allocate
  rw [hrun]
  simp only [bind, Except.bind]
  cases enough with
  | false =>
    exact ⟨hs₁, ⟨hshrunk.frame, .nil _, by simp, by simp, by simp, hshrunk.sublist,
      hshrunk.keepsShared⟩, Or.inr rfl⟩
  | true =>
    have hle := henough rfl
    by_cases hshort : s₁.numFreeBlocks < n
    · rw [if_pos hshort]
      refine ⟨rfl, ?_⟩
      by_contra hsmall
      omega
    · rw [if_neg hshort]
      obtain ⟨s', blocks, hloop, hlen, hfresh, hmgr, hsize, hs', hframe, hcache, -⟩ :=
        allocateLoop_spec n s₁ ext hs₁ (by omega)
      rw [hloop]
      refine ⟨hs', ⟨hshrunk.frame.trans hframe, ?_, ?_, ?_, ?_, ?_, ?_⟩, Or.inl hlen⟩
      · exact ⟨hfresh.valid, hfresh.nodup, fun b hb x hx =>
          hfresh.unheld b hb x (hs₁.conserved.ext_mem hx)⟩
      · intro b hb hreg
        rw [hcache, hs₁.conserved.registered.byId] at hreg
        obtain ⟨node, hn, hid⟩ := hreg
        exact hfresh.unheld b hb _ (hs₁.conserved.node_mem hn) hid
      · intro b hb
        rw [hsize b hb, hshrunk.frame.options]
      · intro b hb
        rw [hmgr b hb, hshrunk.frame.self]
      · rw [hcache]; exact hshrunk.sublist
      · rw [hcache]; exact hshrunk.keepsShared

/-! ## match

The handles a caller passes in are copied, then the walk adds handles of cached blocks; the null
ones it leaves behind a gap are dropped at the end. -/

section Cache

variable (xxh3 : HashInput Key → Key)

variable {o : Options} {tokenIds : List Int} {startBlock nBlocks : Nat}

theorem matchKeys_ok (existed : List (Block Key))
    (mmItems : List (MMItem Key)) (blockHashes : List Key)
    (hn : nBlocks ≤ numHashBlocks o.hasherType tokenIds.length o.blockSize)
    (hstart : startBlock ≤ nBlocks) :
    ∃ keys, matchKeys xxh3 o tokenIds existed mmItems blockHashes startBlock nBlocks = .ok keys ∧
      keys.length = nBlocks - startBlock := by
  unfold matchKeys
  split
  · exact ⟨_, rfl, by simp; omega⟩
  · refine hashChain_ok xxh3 _ _ _ _ _ _ ?_
    rcases Nat.eq_zero_or_pos (nBlocks - startBlock) with h0 | hpos
    · exact Or.inl h0
    · right
      have := numHashBlocks_le hn (by omega)
      have hsum : startBlock + (nBlocks - startBlock) = nBlocks := by omega
      rw [hsum]
      exact this

/-- The blocks a match returns: the shared prefix, then the residents. -/
def matchedBlocks (o : Options) (cachedBlocks : AList (fun _ : Key => Block Key))
    (existed : List (Block Key)) (keys : List Key) (startBlock : Nat) : List (Block Key) :=
  if o.gapTolerant then
    (existed.take startBlock ++ residentProbe cachedBlocks keys).take
      (keepBlocks (lastResident cachedBlocks keys startBlock none) startBlock)
  else existed.take startBlock ++ residentRun cachedBlocks keys

omit [Inhabited Key] in
theorem Sound.drop_nulls (ext : List Handle) : ∀ (l : List Handle), (∀ x ∈ l, x = .null) →
    Sound acc s (l ++ ext) → Sound acc s ext := by
  intro l
  induction l with
  | nil => intro _ h; exact h
  | cons x l ih =>
    intro hnull h
    have hx : x = .null := hnull x mem_cons_self
    subst hx
    exact ih (fun y hy => hnull y (mem_cons_of_mem _ hy)) h.of_cons_null

variable {existed : List (Block Key)}

/-- What the gap-tolerant match trims are placeholders. -/
theorem matchedBlocks_trimmed (cachedBlocks : AList (fun _ : Key => Block Key))
    (hstart : startBlock ≤ existed.length) (keys : List Key) :
    ∀ b ∈ (existed.take startBlock ++ residentProbe cachedBlocks keys).drop
      (keepBlocks (lastResident cachedBlocks keys startBlock none) startBlock), b = Block.empty := by
  have hlen : (existed.take startBlock).length = startBlock := by
    rw [length_take]; omega
  have hempty : ∀ {ks : List Key}, (∀ key ∈ ks, cachedBlocks.lookup key = none) →
      ∀ b ∈ residentProbe cachedBlocks ks, b = Block.empty := by
    intro ks hks b hb
    obtain ⟨key, hkey, rfl⟩ := mem_map.mp hb
    rw [hks key hkey]
    rfl
  rcases lastResident_spec cachedBlocks keys startBlock none with
    ⟨hlast, hnone⟩ | ⟨j, -, hlast, -, -, hnone⟩
  · rw [hlast]
    unfold keepBlocks
    dsimp only
    rw [drop_append_of_le_length (by omega), drop_of_length_le (by omega),
      nil_append]
    exact hempty hnone
  · rw [hlast]
    unfold keepBlocks
    dsimp only
    have hsum : startBlock + j + 1 = (existed.take startBlock).length + (j + 1) := by omega
    rw [hsum, drop_append, drop_of_length_le (by omega), nil_append,
      Nat.add_sub_cancel_left]
    unfold residentProbe
    rw [← map_drop]
    exact hempty hnone

/-- What a match returned, and the leaf it left. -/
structure Matched (s s' : Leaf Key) (tokenIds : List Int) (existed : List (Block Key))
    (mmItems : List (MMItem Key)) (blockHashes : List Key) (blocks : List (Block Key)) : Prop where
  frame : s.Frame s'
  cachedBlocks : s'.prefixCache.cachedBlocks = s.prefixCache.cachedBlocks
  empty : numHashBlocks s.options.hasherType tokenIds.length s.options.blockSize = 0 → blocks = []
  found : ∀ n, numHashBlocks s.options.hasherType tokenIds.length s.options.blockSize = n →
    0 < n → ∃ keys,
      matchKeys xxh3 s.options tokenIds existed mmItems blockHashes (min existed.length n) n =
        .ok keys ∧
      blocks = matchedBlocks s.options s.prefixCache.cachedBlocks existed keys
        (min existed.length n)

/-- The handles of the existing blocks are copied first. The walk adds those of the cached blocks, and
with gaps allowed the null ones behind the last hit are dropped again. -/
theorem matchPrefix_spec (h : Sound acc s ext) (tokenIds : List Int)
    (existed : List (Block Key)) (hex : ∀ b ∈ existed, b.handle ∈ ext)
    (mmItems : List (MMItem Key)) (blockHashes : List Key) :
    ∃ s' blocks, s.matchPrefix xxh3 tokenIds existed mmItems blockHashes = .ok (s', blocks) ∧
      Sound acc s' (blocks.map Block.handle ++ ext) ∧
      Matched xxh3 s s' tokenIds existed mmItems blockHashes blocks := by
  unfold Leaf.matchPrefix
  dsimp only
  by_cases hzero : numHashBlocks s.options.hasherType tokenIds.length s.options.blockSize = 0
  · rw [if_pos hzero]
    exact ⟨s, [], rfl, h, ⟨.refl s, rfl, fun _ => rfl, fun n hn hpos => absurd hzero (by omega)⟩⟩
  · rw [if_neg hzero]
    generalize hn : numHashBlocks s.options.hasherType tokenIds.length s.options.blockSize = n
      at hzero
    obtain ⟨keys, hkeys, -⟩ := matchKeys_ok xxh3 (o := s.options) existed mmItems blockHashes
      (Nat.le_of_eq hn.symm) (Nat.min_le_right existed.length n)
    obtain ⟨hcopied, hs₁, hframe₁, hcache₁⟩ := copyBlocks_spec
      (existed.take (min existed.length n)) s ext h
      (fun b hb => hex b (mem_of_mem_take hb))
    rcases ht : s.copyBlocks (existed.take (min existed.length n)) with ⟨s₁, copied⟩
    rw [ht] at hcopied hs₁ hframe₁ hcache₁
    subst hcopied
    have hflush : ({ leaf := s₁, blocks := existed.take (min existed.length n) } :
        Working Key).flush = s₁ := by
      simp only [Working.flush, append_nil]
      rfl
    rw [hkeys]
    simp only [bind, Except.bind]
    by_cases hgap : s.options.gapTolerant
    · rw [if_pos (by rw [hframe₁.options]; exact hgap)]
      obtain ⟨hlast, hblocks, hs₂, hframe₂, hcached₂⟩ := probeLoop_spec keys
        (min existed.length n) none
        { leaf := s₁, blocks := existed.take (min existed.length n) } _ (hflush.symm ▸ hs₁)
      rw [hcache₁] at hlast hblocks hs₂ hcached₂
      refine ⟨_, _, rfl, ?_, ⟨(hframe₁.trans hframe₂).trans ⟨rfl, rfl, rfl⟩, hcached₂,
        fun h0 => absurd (hn.symm.trans h0) hzero, ?_⟩⟩
      · rw [hblocks, hlast]
        refine Sound.drop_nulls _ (((existed.take (min existed.length n) ++
          residentProbe s.prefixCache.cachedBlocks keys).drop
            (keepBlocks (lastResident s.prefixCache.cachedBlocks keys (min existed.length n) none)
              (min existed.length n))).map Block.handle) ?_ ?_
        · intro x hx
          obtain ⟨b, hb, rfl⟩ := mem_map.mp hx
          rw [matchedBlocks_trimmed _ (Nat.min_le_left _ _) _ b hb]
          rfl
        · refine hs₂.perm ?_
          rw [← List.append_assoc, ← List.append_assoc, ← map_append, ← map_append]
          refine List.Perm.append_right ext (List.Perm.map Block.handle ?_)
          refine perm_append_comm.trans ?_
          exact (List.Perm.of_eq (take_append_drop _ _).symm).trans perm_append_comm
      · rintro m hm -
        obtain rfl : n = m := hn.symm.trans hm
        refine ⟨keys, hkeys, ?_⟩
        unfold matchedBlocks
        rw [if_pos hgap, hblocks, hlast]
    · rw [if_neg (by rw [hframe₁.options]; exact hgap)]
      obtain ⟨hblocks, hs₂, hframe₂, hcached₂⟩ := matchLoop_spec keys
        { leaf := s₁, blocks := existed.take (min existed.length n) } _ (hflush.symm ▸ hs₁)
      rw [hcache₁] at hblocks hs₂ hcached₂
      refine ⟨_, _, rfl, ?_, ⟨(hframe₁.trans hframe₂).trans ⟨rfl, rfl, rfl⟩, hcached₂,
        fun h0 => absurd (hn.symm.trans h0) hzero, ?_⟩⟩
      · rw [hblocks, map_append, List.append_assoc]
        exact hs₂.perm (perm_append_comm_assoc _ _ _)
      · rintro m hm -
        obtain rfl : n = m := hn.symm.trans hm
        refine ⟨keys, hkeys, ?_⟩
        unfold matchedBlocks
        rw [if_neg hgap, hblocks]

/-! ## The remaining entry points -/

/-- The blocks an `allocate_shared` passes on as a shared prefix. -/
theorem allocateShared_spec (h : Sound acc s ext) (tokenIds : List Int)
    (hex : ∀ b ∈ existed, b.handle ∈ ext) (mmItems : List (MMItem Key)) (blockHashes : List Key) :
    ∃ s' blocks, s.allocateShared xxh3 tokenIds existed mmItems blockHashes = .ok (s', blocks) ∧
      Sound acc s' (blocks.map Block.handle ++ ext) ∧ s.Frame s' ∧
      s'.prefixCache.cachedBlocks = s.prefixCache.cachedBlocks := by
  unfold Leaf.allocateShared
  split
  · exact ⟨s, [], rfl, h, .refl s, rfl⟩
  split
  · exact ⟨s, [], rfl, h, .refl s, rfl⟩
  obtain ⟨s', blocks, hrun, hs', hm⟩ := matchPrefix_spec xxh3 h
    (if decide (s.options.blockType = .linear) = true then tokenIds.take (tokenIds.length - 1)
      else tokenIds)
    (if (decide (s.options.blockType = .linear) || decide (s.options.blockType = .swa)) = true
      then [] else existed)
    (by
      intro b hb
      split at hb
      · cases hb
      · exact hex b hb) mmItems blockHashes
  exact ⟨s', blocks, hrun, hs', hm.frame, hm.cachedBlocks⟩

/-- The CHECKs a `cache` can hit: both are about the blocks it was given. -/
def CacheFatal (e : Fatal) : Prop :=
  (∃ id, e = .duplicateBlockId id) ∨ (∃ id, e = .notOwned id)

omit [Inhabited Key] [DecidableEq Key] in
theorem checkOwned_spec (s : Leaf Key) :
    ∀ blocks : List (Block Key), Outcome CacheFatal (fun _ => True) (s.checkOwned blocks) := by
  intro blocks
  induction blocks with
  | nil => exact trivial
  | cons b blocks ih =>
    unfold Leaf.checkOwned
    split
    · exact Or.inr ⟨_, rfl⟩
    · exact ih

omit [Inhabited Key] [DecidableEq Key] in
theorem insertKeys_ok (blocks : List (Block Key))
    (mmItems : List (MMItem Key)) (blockHashes : List Key) {existedNum : Nat}
    (hn : nBlocks ≤ numHashBlocks o.hasherType tokenIds.length o.blockSize)
    (hlt : existedNum < nBlocks) :
    ∃ keys, insertKeys xxh3 o tokenIds blocks existedNum mmItems blockHashes nBlocks = .ok keys ∧
      keys.length = nBlocks - existedNum := by
  have hroom := numHashBlocks_le hn (by omega)
  unfold insertKeys
  split
  · exact ⟨_, rfl, by simp; omega⟩
  split
  · obtain ⟨keys, hrun, hlen⟩ := hashChain_ok xxh3 o.blockSize tokenIds nBlocks
      (BlockHasher.create o.hasherType mmItems 0) 0 none (Or.inr (by rw [Nat.zero_add]; exact hroom))
    refine ⟨keys.drop existedNum, ?_, by rw [length_drop, hlen]⟩
    rw [hrun]
    rfl
  · refine hashChain_ok xxh3 _ _ _ _ _ _ (Or.inr ?_)
    have hsum : existedNum + (nBlocks - existedNum) = nBlocks := by omega
    rw [hsum]
    exact hroom

/-- Number of blocks an `insert` with tokens looks at. -/
def Leaf.insertBound (s : Leaf Key) (tokenIds : List Int) (blocks : List (Block Key)) : Nat :=
  min (numHashBlocks s.options.hasherType tokenIds.length s.options.blockSize) blocks.length

/-- The node is one of the blocks of an `insert` with tokens, stamped with that block's key. -/
def Leaf.Stamps (s : Leaf Key) (tokenIds : List Int) (blocks : List (Block Key))
    (existedNum : Nat) (mmItems : List (MMItem Key)) (blockHashes : List Key)
    (node : Block Key) : Prop :=
  ∃ keys j key b,
    existedNum + j < s.insertBound tokenIds blocks ∧
    insertKeys xxh3 s.options tokenIds blocks existedNum mmItems blockHashes
      (s.insertBound tokenIds blocks) = .ok keys ∧
    keys[j]? = some key ∧ blocks[existedNum + j]? = some b ∧ node = b.setHashValue key

variable {blocks : List (Block Key)}

omit [Inhabited Key] in
/-- `insert` with tokens keeps the vector's handles; a solid cache must not be given a
placeholder for the accounting to stay exact. -/
theorem insertTokens_spec (h : Sound acc s ext) (hen : s.options.enablePrefixCache = true)
    (tokenIds : List Int) (hmem : ∀ b ∈ blocks, b.handle ∈ ext)
    (hvalid : acc → s.options.gapTolerant = false → ∀ b ∈ blocks, b.isValid)
    (existedNum : Nat) (mmItems : List (MMItem Key)) (blockHashes : List Key) :
    Outcome (fun e => ∃ id, e = .duplicateBlockId id) (fun r => Sound acc r.1 ext ∧ s.Frame r.1 ∧
        r.2.1.map Block.handle = blocks.map Block.handle ∧
        s.Adds r.1 (s.Stamps xxh3 tokenIds blocks existedNum mmItems blockHashes))
      (s.insertTokens xxh3 tokenIds blocks existedNum mmItems blockHashes) := by
  unfold Leaf.insertTokens
  rw [h.checkCachedBlockCount]
  simp only [bind, Except.bind]
  generalize hn : min (numHashBlocks s.options.hasherType tokenIds.length s.options.blockSize)
    blocks.length = n
  have hbound : s.insertBound tokenIds blocks = n := hn
  split
  · exact ⟨h, .refl s, rfl, .of_subset fun _ hn => hn⟩
  · obtain ⟨keys, hkeys, hlen⟩ := insertKeys_ok xxh3 (o := s.options) blocks mmItems blockHashes
      (by rw [← hn]; exact Nat.min_le_left _ _) (by omega : existedNum < n)
    rw [hkeys]
    dsimp only
    have hpairs : ∀ p ∈ keys.zip ((blocks.drop existedNum).take (n - existedNum)),
        p.2 ∈ blocks := by
      rintro ⟨k, b⟩ hp
      exact mem_of_mem_drop (mem_of_mem_take (of_mem_zip hp).2)
    have hloop := insertLoop_spec s.options.gapTolerant
      (keys.zip ((blocks.drop existedNum).take (n - existedNum)))
      { leaf := s, blocks := blocks.take existedNum }
      (by
        have hflush : ({ leaf := s, blocks := blocks.take existedNum } : Working Key).flush = s := by
          simp only [Working.flush, append_nil]
          rfl
        rw [hflush]
        exact h)
      hen (fun p hp => hmem _ (hpairs p hp)) (fun ha hg p hp => hvalid ha hg _ (hpairs p hp))
    generalize hw : insertLoop s.options.gapTolerant
      (keys.zip ((blocks.drop existedNum).take (n - existedNum)))
      { leaf := s, blocks := blocks.take existedNum } = r at hloop
    cases r with
    | error e => exact hloop
    | ok w =>
      obtain ⟨hs', hf, hbs, hadds⟩ := hloop
      dsimp only
      rw [hs'.checkCachedBlockCount]
      refine ⟨hs', hf.trans ⟨rfl, rfl, rfl⟩, ?_, ?_⟩
      case refine_2 =>
        intro node hnode
        have hflush : ({ leaf := s, blocks := blocks.take existedNum } :
            Working Key).flush.prefixCache.lruLst = s.prefixCache.lruLst := by
          simp only [Working.flush, append_nil]
          rfl
        rcases hadds node hnode with hold | ⟨p, hp, rfl⟩
        · exact Or.inl (hflush ▸ hold)
        · right
          obtain ⟨j, hj⟩ := mem_iff_getElem?.mp hp
          obtain ⟨hkey, hblock⟩ := List.getElem?_zip_eq_some.mp hj
          have hlt' : j < n - existedNum := by
            have := (List.getElem?_eq_some_iff.mp hkey).1
            omega
          rw [List.getElem?_take_of_lt hlt', List.getElem?_drop] at hblock
          refine ⟨keys, j, p.1, p.2, by omega, ?_, hkey, hblock, rfl⟩
          rw [hbound]
          exact hkeys
      rw [map_append, hbs]
      have hsnd : (keys.zip ((blocks.drop existedNum).take (n - existedNum))).map
          (fun p => p.2.handle) =
          ((blocks.drop existedNum).take (n - existedNum)).map Block.handle := by
        have hzip : (keys.zip ((blocks.drop existedNum).take (n - existedNum))).map Prod.snd =
            (blocks.drop existedNum).take (n - existedNum) := by
          refine map_snd_zip ?_
          rw [length_take, length_drop, hlen]
          omega
        calc _ = ((keys.zip ((blocks.drop existedNum).take (n - existedNum))).map
                  Prod.snd).map Block.handle := by rw [map_map]; rfl
          _ = _ := by rw [hzip]
      have hparts : blocks.take existedNum ++ (blocks.drop existedNum).take (n - existedNum) ++
          blocks.drop n = blocks := by
        rw [← take_add, Nat.add_sub_cancel' (by omega), take_append_drop]
      rw [hsnd, ← map_append, ← map_append, hparts]

omit [Inhabited Key] in
theorem insertStamped_spec (h : Sound acc s ext) (hen : s.options.enablePrefixCache = true)
    (hmem : ∀ b ∈ blocks, b.handle ∈ ext) :
    Outcome (fun e => ∃ id, e = .duplicateBlockId id) (fun r => Sound acc r.1 ext ∧ s.Frame r.1 ∧
        s.Adds r.1 (fun node => node ∈ blocks ∧ node.isValid)) (s.insertStamped blocks) := by
  unfold Leaf.insertStamped
  rw [h.checkCachedBlockCount]
  simp only [bind, Except.bind]
  have hloop := insertStampedLoop_spec blocks { leaf := s }
    (by
      have hflush : ({ leaf := s } : Working Key).flush = s := by
        simp only [Working.flush, append_nil]
        rfl
      rw [hflush]
      exact h)
    hen hmem
  cases hw : insertStampedLoop blocks { leaf := s } with
  | error e =>
    rw [hw] at hloop
    exact hloop
  | ok w =>
    rw [hw] at hloop
    obtain ⟨hs', hf, hadds⟩ := hloop
    dsimp only
    rw [hs'.checkCachedBlockCount]
    refine ⟨hs', hf.trans ⟨rfl, rfl, rfl⟩, fun node hnode => ?_⟩
    refine (hadds node hnode).imp_left fun hold => ?_
    simp only [Working.flush, append_nil] at hold
    exact hold

omit [Inhabited Key] in
theorem cacheTokens_spec (h : Sound acc s ext) (tokenIds : List Int)
    (hmem : ∀ b ∈ blocks, b.handle ∈ ext)
    (hvalid : acc → s.options.gapTolerant = false → ∀ b ∈ blocks, b.isValid)
    (existedNum : Nat) (mmItems : List (MMItem Key)) (blockHashes : List Key) :
    Outcome CacheFatal
      (fun r => Sound acc r.1 ext ∧ s.Frame r.1 ∧ r.2.map Block.handle = blocks.map Block.handle ∧
        s.Adds r.1 (s.Stamps xxh3 tokenIds blocks existedNum mmItems blockHashes))
      (s.cacheTokens xxh3 tokenIds blocks existedNum mmItems blockHashes) := by
  unfold Leaf.cacheTokens
  by_cases hen : s.options.enablePrefixCache = true
  · rw [if_pos hen]
    refine (checkOwned_spec s blocks).bind fun _ _ => ?_
    refine Outcome.bind (P := fun r => Sound acc r.1 ext ∧ s.Frame r.1 ∧
      r.2.1.map Block.handle = blocks.map Block.handle ∧
      s.Adds r.1 (s.Stamps xxh3 tokenIds blocks existedNum mmItems blockHashes)) ?_
      (by rintro ⟨s', bs, n⟩ hr; exact hr)
    exact (insertTokens_spec xxh3 h hen tokenIds hmem hvalid existedNum mmItems
      blockHashes).mono (fun e he => Or.inl he) (fun r hr => hr)
  · rw [if_neg hen]
    exact ⟨h, .refl s, rfl, .of_subset fun _ hn => hn⟩

end Cache

omit [Inhabited Key] in
theorem cacheStamped_spec (h : Sound acc s ext) {blocks : List (Block Key)}
    (hmem : ∀ b ∈ blocks, b.handle ∈ ext) :
    Outcome CacheFatal (fun s' => Sound acc s' ext ∧ s.Frame s' ∧
      s.Adds s' (fun node => node ∈ blocks ∧ node.isValid)) (s.cacheStamped blocks) := by
  unfold Leaf.cacheStamped
  by_cases hen : s.options.enablePrefixCache = true
  · rw [if_pos hen]
    refine (checkOwned_spec s blocks).bind fun _ _ => ?_
    refine Outcome.bind (P := fun r => Sound acc r.1 ext ∧ s.Frame r.1 ∧
      s.Adds r.1 (fun node => node ∈ blocks ∧ node.isValid)) ?_ (by rintro ⟨s', n⟩ hr; exact hr)
    exact (insertStamped_spec h hen hmem).mono (fun e he => Or.inl he) (fun r hr => hr)
  · rw [if_neg hen]
    exact ⟨h, .refl s, .of_subset fun _ hn => hn⟩

omit [Inhabited Key] in
theorem resetPrefixCache_spec (h : Sound acc s ext) :
    ∃ s', s.resetPrefixCache = .ok s' ∧ Sound acc s' ext ∧ s.Frame s' ∧
      s'.prefixCache.lruLst.Sublist s.prefixCache.lruLst ∧
      ∀ node ∈ s.prefixCache.lruLst, s.isShared node = true → node ∈ s'.prefixCache.lruLst := by
  unfold Leaf.resetPrefixCache
  by_cases hen : s.options.enablePrefixCache = true
  · rw [if_pos hen, if_pos (by
      rw [h.conserved.registered.numBlocks, h.conserved.registered.entries])]
    obtain ⟨s', evicted, hrun, -, hs', hshrunk⟩ := evict_spec h s.prefixCache.numBlocks
    exact ⟨s', by simp only [bind, Except.bind, hrun], hs', hshrunk.frame, hshrunk.sublist,
      hshrunk.keepsShared⟩
  · rw [if_neg hen]
    exact ⟨s, rfl, h, .refl s, List.Sublist.refl _, fun _ hn _ => hn⟩

/-! ## The constructor -/

/-- The leaf after the constructor: every id but 0 is free. -/
def Leaf.initial (options : Options) (self : Nat) : Leaf Key :=
  { options, self
    numFreeBlocks := options.numBlocks - 1
    freeBlocks := (List.range options.numBlocks).map (fun i => options.numBlocks - i - 1)
    usageAccountedIds := (List.replicate options.numBlocks false).set 0 true
    paddingBlock := { id := some 0, size := options.blockSize, refCount := some 0, manager := none,
                      hashValue := default }
    refCounts := Function.update (fun _ => 0) 0 1
    nextRefCount := 1 }

theorem init_eq (options : Options) (self : Nat) (hn : 0 < options.numBlocks)
    (hb : 0 < options.blockSize) :
    (Leaf.init options self : Except Fatal (Leaf Key)) = .ok (Leaf.initial options self) := by
  have hlt : options.numBlocks - 1 < options.numBlocks := by omega
  have htop : ((List.range options.numBlocks).map (fun i => options.numBlocks - i - 1))[
      options.numBlocks - 1]? = some 0 := by
    rw [List.getElem?_map, List.getElem?_range hlt]
    simp only [Option.map_some, Option.some.injEq]
    omega
  have hunused : (List.replicate options.numBlocks false)[0]? = some false := by
    rw [List.getElem?_replicate, if_pos hn]
  have hone : 1 % 2 ^ 32 = 1 := rfl
  unfold Leaf.init
  rw [if_neg (by omega), if_neg (by omega)]
  simp only [Leaf.allocate, Leaf.hasEnoughBlocks, hone, if_pos (Nat.succ_le_of_lt hn), bind,
    Except.bind, not_true_eq_false, if_false, if_neg (Nat.not_lt.mpr (Nat.succ_le_of_lt hn)),
    allocateLoop, Leaf.takeBlock, htop, Leaf.markUsed, hunused, if_true]
  rfl

variable {options : Options}

theorem init_inv {self : Nat} (hinit : Leaf.init options self = .ok s) :
    0 < options.numBlocks ∧ 0 < options.blockSize ∧ s = Leaf.initial options self := by
  have hpos : 0 < options.numBlocks ∧ 0 < options.blockSize := by
    unfold Leaf.init at hinit
    split at hinit
    · cases hinit
    split at hinit
    · cases hinit
    · omega
  rw [init_eq options self hpos.1 hpos.2, Except.ok.injEq] at hinit
  exact ⟨hpos.1, hpos.2, hinit.symm⟩

omit [DecidableEq Key] in
theorem initial_owned (self : Nat) (hn : 0 < options.numBlocks) :
    Owned (Leaf.initial options self : Leaf Key) [] := by
  have htake : ((List.range options.numBlocks).map (fun i => options.numBlocks - i - 1)).take
      (options.numBlocks - 1) =
      (List.range (options.numBlocks - 1)).map (fun i => options.numBlocks - i - 1) := by
    rw [← map_take, take_range, Nat.min_eq_left (Nat.sub_le _ _)]
  constructor
  case shape => intro h hh; exact nomatch hh
  case counted => intro h hh; exact nomatch hh
  case sameBlock => intro h hh; exact nomatch hh
  case numBlocks_pos => exact hn
  case freeLength => simp [Leaf.initial]
  case usageLength => simp [Leaf.initial]
  case numFree_le => exact Nat.sub_le _ _
  case freeNodup =>
    simp only [Leaf.initial, htake]
    refine List.Nodup.map_on ?_ nodup_range
    intro x hx y hy he
    have := mem_range.mp hy
    omega
  case mem_free =>
    intro i
    simp only [Leaf.initial, htake, mem_map, mem_range]
    constructor
    · rintro ⟨j, hj, rfl⟩
      exact ⟨by omega, by omega, by simp⟩
    · rintro ⟨h0, hlt, -⟩
      exact ⟨options.numBlocks - 1 - i, by omega, by omega⟩
  case usage =>
    intro i
    by_cases h0 : 0 = i
    · subst h0
      simp [Leaf.initial, hn]
    · simp only [Leaf.initial, List.getElem?_set_ne h0, List.getElem?_replicate]
      constructor
      · intro he
        split at he
        · cases he
        · cases he
      · rintro (h | ⟨x, hx, -⟩)
        · exact absurd h.symm h0
        · cases hx

theorem initial_sound (self : Nat) (hn : 0 < options.numBlocks) :
    Sound acc (Leaf.initial options self : Leaf Key) [] :=
  ⟨⟨initial_owned self hn, .empty, fun _ => rfl⟩, fun _ => ⟨by simp [Leaf.initial], rfl⟩⟩

end Xllm.Framework
