import Xllm.Block.World

/-!
# Physical blocks are conserved, and the evictable count is exact

Over every run of a leaf from its constructor:

* the ids of a leaf are split between the free list and the aliases, no id is handed out while an
  alias to it is alive, and the CHECKs that guard this never fire (`leaf_conservation`);
* the evictable count is the number of residents no alias outside the cache shares, so the
  counters derived from it are exact (`evictable_accounting`). `allocate` delivers exactly when
  enough blocks are free or evictable, except that a count of 2^32 or more is narrowed on its way
  into `has_enough_blocks`: `allocate_exact_iff` says for which counts that matters.
-/

namespace Xllm.Framework

open Xllm.Lib List

variable {Key : Type} [DecidableEq Key] [Inhabited Key]

/-- Some alias still names the id: a caller's or a cache node's. -/
def World.Names (w : World Key) (id : Nat) : Prop :=
  (∃ b ∈ w.live, b.id = some id) ∨ ∃ node ∈ w.leaf.prefixCache.lruLst, node.id = some id

structure World.Partitioned (w : World Key) : Prop where
  freeDistinct : (w.leaf.freeBlocks.take w.leaf.numFreeBlocks).Nodup
  freeCount : (w.leaf.freeBlocks.take w.leaf.numFreeBlocks).length = w.leaf.numFreeBlocks
  split : ∀ id, 1 ≤ id ∧ id < w.leaf.options.numBlocks ↔
    (id ∈ w.leaf.freeBlocks.take w.leaf.numFreeBlocks ∨ w.Names id)
  disjoint : ∀ id ∈ w.leaf.freeBlocks.take w.leaf.numFreeBlocks, ¬ w.Names id
  usageLength : w.leaf.usageAccountedIds.length = w.leaf.options.numBlocks
  usage : ∀ id, w.leaf.usageAccountedIds[id]? = some true ↔ id = 0 ∨ w.Names id

/-- The three CHECKs that would report a lost or doubled block. -/
def Fatal.Accounting (e : Fatal) : Prop :=
  (∃ id, e = .usageAccountedRepeatedly id) ∨ (∃ id, e = .freedTwice id) ∨
    ∃ id, e = .residentWithRefcountZero id

section

variable (xxh3 : HashInput Key → Key)

omit [Inhabited Key] [DecidableEq Key] in
theorem names_iff {w : World Key} {id : Nat} :
    w.Names id ↔ ∃ x ∈ w.leaf.handles (w.live.map Block.handle), x.id = some id := by
  constructor
  · rintro (⟨b, hb, hid⟩ | ⟨node, hn, hid⟩)
    · exact ⟨b.handle, mem_append.mpr (Or.inl (mem_map_of_mem hb)), hid⟩
    · exact ⟨node.handle, mem_append.mpr (Or.inr (mem_map_of_mem hn)), hid⟩
  · rintro ⟨x, hx, hid⟩
    rcases mem_append.mp hx with hx | hx
    · obtain ⟨b, hb, rfl⟩ := mem_map.mp hx
      exact Or.inl ⟨b, hb, hid⟩
    · obtain ⟨node, hn, rfl⟩ := mem_map.mp hx
      exact Or.inr ⟨node, hn, hid⟩

omit [Inhabited Key] in
theorem partitioned_of_sound {acc : Prop} {w : World Key} (h : w.Sound acc) :
    w.Partitioned where
  freeDistinct := h.conserved.owned.freeNodup
  freeCount := h.conserved.owned.length_free
  split := by
    intro id
    rw [h.conserved.owned.mem_free, names_iff]
    constructor
    · rintro ⟨h1, hlt⟩
      by_cases hnamed : ∃ x ∈ w.leaf.handles (w.live.map Block.handle), x.id = some id
      · exact Or.inr hnamed
      · push Not at hnamed
        exact Or.inl ⟨h1, hlt, hnamed⟩
    · rintro (⟨h1, hlt, -⟩ | ⟨x, hx, hid⟩)
      · exact ⟨h1, hlt⟩
      · rcases h.conserved.owned.shape x hx with rfl | ⟨i, a, rfl, h0, hlt, -⟩
        · cases hid
        · obtain rfl : i = id := Option.some.inj hid
          exact ⟨h0, hlt⟩
  disjoint := by
    intro id hid hnamed
    obtain ⟨x, hx, he⟩ := names_iff.mp hnamed
    exact ((h.conserved.owned.mem_free id).mp hid).2.2 x hx he
  usageLength := h.conserved.owned.usageLength
  usage := by
    intro id
    rw [h.conserved.owned.usage, names_iff]

/-- In every reachable world of a leaf, prefix cache on or off: the ids are split between the free
list and the aliases, the ids `allocate` hands out are distinct and have no other alias, and no
operation can hit one of the accounting CHECKs. -/
theorem leaf_conservation (options : Options) (self : Nat) (s : Leaf Key)
    (hinit : Leaf.init options self = .ok s) (ops : List (Op Key)) (w : World Key)
    (run : Reaches (World.step xxh3) { leaf := s } ops w) :
    w.Partitioned ∧
      (∀ n w', w.step xxh3 (.allocate n) = .ok w' → ∃ new, w'.live = w.live ++ new ∧
        (new.map Block.id).Nodup ∧ ∀ b ∈ new, (∃ id, b.id = some id ∧ 1 ≤ id) ∧
          (∀ b' ∈ w.live, b'.id ≠ b.id) ∧ ∀ node ∈ w'.leaf.prefixCache.lruLst, node.id ≠ b.id) ∧
      ∀ op e, w.step xxh3 op = .error e → ¬ e.Accounting := by
  have hsound : w.Sound False :=
    (World.Kept.of_run xxh3 hinit (fun _ _ _ _ hf => absurd hf (by simp)) run).sound
  refine ⟨partitioned_of_sound hsound, ?_, ?_⟩
  · intro n w' hstep
    obtain ⟨⟨s', new⟩, halloc, hw'⟩ := bind_eq_ok.mp hstep
    obtain ⟨hs', hnew, -⟩ := (allocate_spec hsound n).of_ok halloc
    obtain rfl : { leaf := s', live := w.live ++ new } = w' := Except.ok.inj hw'
    refine ⟨new, rfl, hnew.fresh.nodup, fun b hb => ⟨hnew.fresh.valid b hb, ?_, ?_⟩⟩
    · exact fun b' hb' => hnew.fresh.unheld b hb b'.handle (mem_map_of_mem hb')
    · intro node hn he
      exact hnew.unregistered b hb ((hs'.conserved.registered.byId _).mpr ⟨node, hn, he⟩)
  · intro op e hstep hacc
    have hreach := (World.step_spec xxh3 hsound op (nofun)).of_error hstep
    rcases hreach with rfl | (⟨id, rfl⟩ | ⟨id, rfl⟩) | rfl <;>
      rcases hacc with ⟨id', he⟩ | ⟨id', he⟩ | ⟨id', he⟩ <;> exact nomatch he

end

/-- Two blocks are taken, one is copied, published and dropped by its callers. -/
theorem leaf_conservation_published :
    ∃ s : Leaf Nat, Leaf.init { numBlocks := 4, blockSize := 2 } 0 = .ok s ∧
      ∃ w : World Nat, Reaches (World.step (fun _ => 0)) { leaf := s }
        [.allocate 2, .copyConstruct 0, .setHashValue 0 7, .cacheStamped [0], .destroy 2,
          .destroy 0] w ∧ w.Partitioned := by
  have hinit : Leaf.init { numBlocks := 4, blockSize := 2 } 0 =
      .ok (Leaf.initial { numBlocks := 4, blockSize := 2 } 0 : Leaf Nat) :=
    init_eq _ 0 (by decide) (by decide)
  obtain ⟨w, run⟩ := Reaches.of_isOk (World.step (fun _ => (0 : Nat)))
    { leaf := Leaf.initial { numBlocks := 4, blockSize := 2 } 0 }
    [.allocate 2, .copyConstruct 0, .setHashValue 0 7, .cacheStamped [0], .destroy 2, .destroy 0]
    (by decide)
  exact ⟨_, hinit, w, run, (leaf_conservation (fun _ => 0) _ 0 _ hinit _ w run).1⟩

/-! ## The evictable count -/

/-- The residents that no alias outside the cache shares. -/
def Leaf.evictableNodes (s : Leaf Key) : List (Block Key) :=
  s.prefixCache.lruLst.filter (fun node => s.refCount node = 1)

def World.heldIds (w : World Key) : Finset Nat := (w.live.filterMap Block.id).toFinset

/-- What the counters of a world promise. -/
structure World.Exact (w : World Key) : Prop where
  evictable : w.leaf.prefixCache.numEvictable = w.leaf.evictableNodes.length
  used : w.leaf.numUsedBlocks = w.heldIds.card
  evict : ∀ k, ∃ s', w.leaf.evict k = .ok (s', min k w.leaf.prefixCache.numEvictable) ∧
    s'.prefixCache.lruLst.length + min k w.leaf.prefixCache.numEvictable =
      w.leaf.prefixCache.lruLst.length

/-- `allocate n` returns `n` distinct blocks when that many are free or evictable, and none
otherwise. -/
def Leaf.AllocateExact (s : Leaf Key) (n : Nat) : Prop :=
  if n ≤ s.numFreeBlocks + s.numEvictableBlocks then
    ∃ s' blocks, s.allocate n = .ok (s', blocks) ∧ blocks.length = n ∧
      (blocks.map Block.id).Nodup ∧ ∀ b ∈ blocks, b.isValid
  else ∃ s', s.allocate n = .ok (s', [])

section

variable {w : World Key}

omit [Inhabited Key] [DecidableEq Key] in
theorem evictableNodes_length (s : Leaf Key) :
    s.evictableNodes.length = soleOwners s.refCounts s.prefixCache.lruLst := by
  unfold Leaf.evictableNodes soleOwners
  rw [countP_eq_length_filter]
  congr 1
  refine filter_congr fun node _ => ?_
  rw [Leaf.refCount_eq]

omit [Inhabited Key] in
/-- A node counts alone exactly when no alias outside the cache holds its id. -/
theorem sole_iff (h : w.Sound True) {node : Block Key} (hn : node ∈ w.leaf.prefixCache.lruLst) :
    w.leaf.refCount node = 1 ↔ ∀ b ∈ w.live, b.id ≠ node.id := by
  obtain ⟨i, a, hm⟩ := h.conserved.node_managed hn ((h.accounted trivial).valid node hn)
  have hrc : node.refCount = some a := congrArg Handle.refCount hm
  have hcount : w.leaf.refCount node = w.leaf.refCounts a := by rw [Leaf.refCount_eq, hrc]; rfl
  have hmem := h.conserved.node_mem hn
  have hperm : (w.leaf.handles (w.live.map Block.handle)).Perm
      (node.handle :: (w.live.map Block.handle ++
        (w.leaf.prefixCache.lruLst.erase node).map Block.handle)) :=
    (((perm_cons_erase hn).map Block.handle).append_left _).trans perm_middle
  have hpos := h.conserved.owned.refCount_pos hmem hrc
  have hzero := (h.conserved.owned.counted.perm hperm).drop_zero hrc
  constructor
  · intro hone b hb hid
    have hbmem : b.handle ∈ w.leaf.handles (w.live.map Block.handle) :=
      h.conserved.ext_mem (mem_map_of_mem hb)
    have hsame := (h.conserved.owned.sameBlock _ hbmem _ hmem).mp hid
    refine hzero.mp (by omega) b.handle ?_ (hsame.trans hrc)
    exact mem_append.mpr (Or.inl (mem_map_of_mem hb))
  · intro hall
    have hnone : w.leaf.refCounts a - 1 = 0 := by
      refine hzero.mpr fun x hx hxa => ?_
      rcases mem_append.mp hx with hx | hx
      · obtain ⟨b, hb, rfl⟩ := mem_map.mp hx
        have hbmem := h.conserved.ext_mem (mem_map_of_mem (f := Block.handle) hb)
        exact hall b hb ((h.conserved.owned.sameBlock _ hbmem _ hmem).mpr (hxa.trans hrc.symm))
      · obtain ⟨n, hn', rfl⟩ := mem_map.mp hx
        have hn'' := h.conserved.registered.nodup.mem_erase_iff.mp hn'
        exact hn''.1 (h.conserved.node_unique hn''.2 hn (hxa.trans hrc.symm))
    omega

omit [Inhabited Key] in
/-- The ids split three ways: free, held outside the cache, held by the cache alone. -/
theorem three_way_split (h : w.Sound True) :
    w.leaf.numFreeBlocks + (w.heldIds.card + w.leaf.evictableNodes.length) =
      w.leaf.options.numBlocks - 1 := by
  have hpart := partitioned_of_sound h
  have hnodeId : ∀ node ∈ w.leaf.evictableNodes, ∃ i, node.id = some i := by
    intro node hn
    have hvalid := (h.accounted trivial).valid node (mem_of_mem_filter hn)
    exact Option.isSome_iff_exists.mp hvalid
  have hsole : (w.leaf.evictableNodes.map (fun node => node.id.getD 0)).Nodup := by
    refine List.Nodup.map_on ?_ (h.conserved.registered.nodup.filter _)
    intro x hx y hy he
    obtain ⟨i, hi⟩ := hnodeId x hx
    obtain ⟨j, hj⟩ := hnodeId y hy
    rw [hi, hj] at he
    refine h.conserved.registered.eq_of_id (mem_of_mem_filter hx)
      (mem_of_mem_filter hy) ?_
    rw [hi, hj]
    exact congrArg some he
  have hsoleIff : ∀ id, id ∈ (w.leaf.evictableNodes.map (fun node => node.id.getD 0)).toFinset ↔
      ∃ node ∈ w.leaf.prefixCache.lruLst, w.leaf.refCount node = 1 ∧ node.id = some id := by
    intro id
    rw [mem_toFinset, mem_map]
    constructor
    · rintro ⟨node, hn, rfl⟩
      obtain ⟨i, hi⟩ := hnodeId node hn
      have hf := mem_filter.mp hn
      exact ⟨node, hf.1, by simpa using hf.2, by rw [hi]; rfl⟩
    · rintro ⟨node, hn, hone, hid⟩
      exact ⟨node, mem_filter.mpr ⟨hn, by simpa using hone⟩, by rw [hid]; rfl⟩
  have hheldIff : ∀ id, id ∈ w.heldIds ↔ ∃ b ∈ w.live, b.id = some id := by
    intro id
    unfold World.heldIds
    rw [mem_toFinset, mem_filterMap]
  have hdisjoint : Disjoint w.heldIds
      (w.leaf.evictableNodes.map (fun node => node.id.getD 0)).toFinset := by
    rw [Finset.disjoint_left]
    intro id hheld hs
    obtain ⟨b, hb, hbid⟩ := (hheldIff id).mp hheld
    obtain ⟨node, hn, hone, hid⟩ := (hsoleIff id).mp hs
    exact (sole_iff h hn).mp hone b hb (hbid.trans hid.symm)
  have hnamed : ∀ id, id ∈ w.heldIds ∪
      (w.leaf.evictableNodes.map (fun node => node.id.getD 0)).toFinset ↔ w.Names id := by
    intro id
    rw [Finset.mem_union, hheldIff, hsoleIff]
    constructor
    · rintro (hb | ⟨node, hn, -, hid⟩)
      · exact Or.inl hb
      · exact Or.inr ⟨node, hn, hid⟩
    · rintro (hb | ⟨node, hn, hid⟩)
      · exact Or.inl hb
      · by_cases hheld : ∃ b ∈ w.live, b.id = some id
        · exact Or.inl hheld
        · refine Or.inr ⟨node, hn, (sole_iff h hn).mpr fun b hb he => ?_, hid⟩
          exact hheld ⟨b, hb, he.trans hid⟩
  have hfreeDisjoint : Disjoint (w.leaf.freeBlocks.take w.leaf.numFreeBlocks).toFinset
      (w.heldIds ∪ (w.leaf.evictableNodes.map (fun node => node.id.getD 0)).toFinset) := by
    rw [Finset.disjoint_left]
    intro id hf hn
    exact hpart.disjoint id (mem_toFinset.mp hf) ((hnamed id).mp hn)
  have hall : (w.leaf.freeBlocks.take w.leaf.numFreeBlocks).toFinset ∪
      (w.heldIds ∪ (w.leaf.evictableNodes.map (fun node => node.id.getD 0)).toFinset) =
      Finset.Ico 1 w.leaf.options.numBlocks := by
    ext id
    rw [Finset.mem_union, mem_toFinset, hnamed, ← hpart.split, Finset.mem_Ico]
  calc w.leaf.numFreeBlocks + (w.heldIds.card + w.leaf.evictableNodes.length)
      = (w.leaf.freeBlocks.take w.leaf.numFreeBlocks).toFinset.card +
          (w.heldIds.card +
            (w.leaf.evictableNodes.map (fun node => node.id.getD 0)).toFinset.card) := by
        rw [toFinset_card_of_nodup hpart.freeDistinct, hpart.freeCount,
          toFinset_card_of_nodup hsole, length_map]
    _ = (Finset.Ico 1 w.leaf.options.numBlocks).card := by
        rw [← Finset.card_union_of_disjoint hdisjoint,
          ← Finset.card_union_of_disjoint hfreeDisjoint, hall]
    _ = w.leaf.options.numBlocks - 1 := Nat.card_Ico _ _

omit [Inhabited Key] in
theorem evictable_eq (h : w.Sound True) :
    w.leaf.numEvictableBlocks = w.leaf.prefixCache.numEvictable ∧
      w.leaf.prefixCache.numEvictable = w.leaf.evictableNodes.length := by
  have hcount : w.leaf.prefixCache.numEvictable = w.leaf.evictableNodes.length := by
    rw [evictableNodes_length]
    exact (h.accounted trivial).evictable
  refine ⟨?_, hcount⟩
  unfold Leaf.numEvictableBlocks
  split
  · rfl
  · rename_i hd
    rw [hcount, Leaf.evictableNodes, h.conserved.disabled (by simpa using hd)]
    rfl

omit [Inhabited Key] in
theorem exact_of_sound (h : w.Sound True) : w.Exact where
  evictable := (evictable_eq h).2
  used := by
    have hsplit := three_way_split h
    have hev := evictable_eq h
    have hlen := h.conserved.owned.freeLength
    unfold Leaf.numUsedBlocks Leaf.numTotalBlocks
    dsimp only
    split <;> omega
  evict := by
    intro k
    obtain ⟨s', evicted, hrun, hev, -, hshrunk⟩ := evict_spec h k
    rw [Framework.Sound.unshared_eq h] at hev
    subst hev
    exact ⟨s', hrun, hshrunk.length⟩

theorem hasEnoughBlocks_exact (h : w.Sound True) (m : Nat) :
    ∃ s' enough, w.leaf.hasEnoughBlocks m = .ok (s', enough) ∧
      Framework.Sound True s' (w.live.map Block.handle) ∧ w.leaf.Frame s' ∧
      (enough = true ↔ m ≤ w.leaf.numFreeBlocks + w.leaf.numEvictableBlocks) ∧
      (enough = true → m ≤ s'.numFreeBlocks) := by
  obtain ⟨s', enough, evicted, hrun, hs', hshrunk, henough, hfree, hevict, hdisabled⟩ :=
    hasEnoughBlocks_spec h m
  refine ⟨s', enough, hrun, hs', hshrunk.frame, ?_, henough⟩
  rcases Nat.lt_or_ge w.leaf.numFreeBlocks m with hlt | hle
  · cases hen : w.leaf.options.enablePrefixCache with
    | true =>
      obtain ⟨hev, hiff⟩ := hevict hlt hen
      rw [Framework.Sound.unshared_eq h, ← (evictable_eq h).1] at hev
      have hgrown := hshrunk.numFree (h.accounted trivial).valid
      rw [hiff]
      omega
    | false =>
      have hzero : w.leaf.numEvictableBlocks = 0 := by
        unfold Leaf.numEvictableBlocks
        rw [if_neg (by rw [hen]; simp)]
      rw [hdisabled hlt hen]
      constructor
      · intro hf; exact nomatch hf
      · intro hle; omega
  · exact ⟨fun _ => by omega, fun _ => (hfree hle).1⟩

theorem allocate_eq {s s₁ : Leaf Key} {n : Nat} {enough : Bool}
    (hrun : s.hasEnoughBlocks (n % 2 ^ 32) = .ok (s₁, enough)) :
    s.allocate n =
      if enough = true then
        if s₁.numFreeBlocks < n then .error .notEnoughBlocks else allocateLoop n s₁
      else .ok (s₁, []) := by
  unfold Leaf.allocate
  rw [hrun]
  cases enough <;> rfl

theorem allocateExact_of_lt (h : w.Sound True) {n : Nat} (hsmall : n < 2 ^ 32) :
    w.leaf.AllocateExact n := by
  obtain ⟨s₁, enough, hrun, hs₁, -, hiff, hroom⟩ := hasEnoughBlocks_exact h (n % 2 ^ 32)
  unfold Leaf.AllocateExact
  rw [allocate_eq hrun]
  rw [Nat.mod_eq_of_lt hsmall] at hiff hroom
  by_cases hafford : n ≤ w.leaf.numFreeBlocks + w.leaf.numEvictableBlocks
  · have htrue := hiff.mpr hafford
    have := hroom htrue
    obtain ⟨s', blocks, hloop, hlen, hfresh, -⟩ := allocateLoop_spec n s₁ _ hs₁ (hroom htrue)
    rw [if_pos hafford, if_pos htrue, if_neg (by omega)]
    refine ⟨s', blocks, hloop, hlen, hfresh.nodup, fun b hb => ?_⟩
    obtain ⟨i, hi, -⟩ := hfresh.valid b hb
    rw [Block.isValid, hi]
    rfl
  · have hfalse : ¬ enough = true := fun he => hafford (hiff.mp he)
    rw [if_neg hafford, if_neg hfalse]
    exact ⟨s₁, rfl⟩

/-- `allocate` is exact for a count exactly when narrowing it does not make it look affordable. -/
theorem allocateExact_iff (h : w.Sound True) (hwidth : w.leaf.options.numBlocks < 2 ^ 32)
    (n : Nat) : w.leaf.AllocateExact n ↔
      n < 2 ^ 32 ∨ w.leaf.numFreeBlocks + w.leaf.numEvictableBlocks < n % 2 ^ 32 := by
  by_cases hsmall : n < 2 ^ 32
  · exact ⟨fun _ => Or.inl hsmall, fun _ => allocateExact_of_lt h hsmall⟩
  · have hsplit := three_way_split h
    have hev := evictable_eq h
    obtain ⟨s₁, enough, hrun, hs₁, hframe, hiff, hroom⟩ := hasEnoughBlocks_exact h (n % 2 ^ 32)
    have hbound : s₁.numFreeBlocks ≤ w.leaf.options.numBlocks := by
      rw [← hframe.options]
      exact hs₁.conserved.owned.numFree_le
    have hbig : ¬ n ≤ w.leaf.numFreeBlocks + w.leaf.numEvictableBlocks := by omega
    unfold Leaf.AllocateExact
    rw [allocate_eq hrun, if_neg hbig]
    by_cases hlooks : n % 2 ^ 32 ≤ w.leaf.numFreeBlocks + w.leaf.numEvictableBlocks
    · rw [if_pos (hiff.mpr hlooks), if_pos (by omega)]
      constructor
      · rintro ⟨s', he⟩; exact nomatch he
      · intro hc; omega
    · have hfalse : ¬ enough = true := fun he => hlooks (hiff.mp he)
      rw [if_neg hfalse]
      exact ⟨fun _ => Or.inr (by omega), fun _ => ⟨s₁, rfl⟩⟩

end

/-- In every world reached by a run that gives a solid cache no placeholders, the counters are
exact, and `allocate n` is exact if and only if `n` fits in 32 bits or its low 32 bits ask for more
than there is. `num_blocks` is a `uint32_t`. -/
theorem evictable_accounting (xxh3 : HashInput Key → Key) (options : Options)
    (hwidth : options.numBlocks < 2 ^ 32) (self : Nat) (s : Leaf Key)
    (hinit : Leaf.init options self = .ok s) (ops : List (Op Key)) (w : World Key)
    (run : ReachesWith (World.step xxh3) (fun w op => w.SolidInsert op) { leaf := s } ops w) :
    w.Exact ∧ ∀ n, w.leaf.AllocateExact n ↔
      n < 2 ^ 32 ∨ w.leaf.numFreeBlocks + w.leaf.numEvictableBlocks < n % 2 ^ 32 := by
  obtain ⟨hsound, hoptions⟩ :=
    World.Kept.of_run xxh3 hinit (fun _ _ _ hok _ => hok) run
  exact ⟨exact_of_sound hsound, allocateExact_iff hsound (by rw [hoptions]; exact hwidth)⟩

/-- One block is still held, one is free, and the published one, whose caller is gone, counts as
evictable: three blocks are one too many. -/
theorem evictable_accounting_published :
    ∃ s : Leaf Nat, Leaf.init { numBlocks := 4, blockSize := 2 } 0 = .ok s ∧
      ∃ w : World Nat, ReachesWith (World.step (fun _ => 0)) (fun w op => w.SolidInsert op)
        { leaf := s } [.allocate 2, .setHashValue 0 7, .cacheStamped [0], .destroy 0] w ∧ w.Exact ∧
        w.leaf.AllocateExact 3 := by
  have hinit : Leaf.init { numBlocks := 4, blockSize := 2 } 0 =
      .ok (Leaf.initial { numBlocks := 4, blockSize := 2 } 0 : Leaf Nat) :=
    init_eq _ 0 (by decide) (by decide)
  obtain ⟨w, run⟩ := Reaches.of_isOk (World.step (fun _ => (0 : Nat)))
    { leaf := Leaf.initial { numBlocks := 4, blockSize := 2 } 0 }
    [.allocate 2, .setHashValue 0 7, .cacheStamped [0], .destroy 0] (by decide)
  have solid : ReachesWith (World.step (fun _ => 0)) (fun w op => w.SolidInsert op) _ _ w :=
      run.acceptable (by
    intro op hop t
    simp only [mem_cons, not_mem_nil, or_false] at hop
    rcases hop with rfl | rfl | rfl | rfl <;> trivial)
  have hexact := evictable_accounting (fun _ => 0) _ (by decide) 0 _ hinit _ w solid
  exact ⟨_, hinit, w, solid, hexact.1, (hexact.2 3).mpr (Or.inl (by decide))⟩

/-- A count of `2 ^ 32` passes `has_enough_blocks` as 0 and trips the CHECK behind it, although a
fresh leaf of four blocks should return none. -/
theorem allocate_narrowed :
    ∃ s : Leaf Nat, Leaf.init { numBlocks := 4, blockSize := 2 } 0 = .ok s ∧
      ReachesWith (World.step (fun _ => 0)) (fun w op => w.SolidInsert op) { leaf := s } []
        { leaf := s } ∧
      s.allocate (2 ^ 32) = .error .notEnoughBlocks ∧ ¬ s.AllocateExact (2 ^ 32) := by
  have hinit : Leaf.init { numBlocks := 4, blockSize := 2 } 0 =
      .ok (Leaf.initial { numBlocks := 4, blockSize := 2 } 0 : Leaf Nat) :=
    init_eq _ 0 (by decide) (by decide)
  have hrun : (Leaf.initial { numBlocks := 4, blockSize := 2 } 0 : Leaf Nat).allocate (2 ^ 32) =
      .error .notEnoughBlocks := rfl
  refine ⟨_, hinit, .refl _, hrun, ?_⟩
  rintro ⟨s', he⟩
  cases he

end Xllm.Framework
