import Xllm.Block.BlockManagerImpl
import Xllm.Lib.RefCount
import Xllm.Lib.Outcome

/-!
# Ownership of physical blocks

What an alias owns is in three of its fields, its `Handle`. `Owned s hs` says that `hs` are *all*
the handles there are, and ties the four records of ownership together: every counter is the number
of handles that name it, a counter belongs to one id, the live part of the free list holds exactly
the ids without a handle, and a usage bit is set exactly on the others.

The prefix cache appears nowhere in `Owned`: its nodes are handles like any other. Each primitive
operation on a block (copy, free, taking one off the free list) has one lemma that says what it does
to the handles and what it leaves alone.
-/

namespace Xllm.Framework

open Xllm.Lib List

/-- The part of an alias that owns something. -/
structure Handle where
  id : Option Nat
  refCount : Option Nat
  manager : Option Nat
  deriving DecidableEq, Repr

def Handle.null : Handle := ⟨none, none, none⟩

variable {Key : Type}

def Block.handle (b : Block Key) : Handle := ⟨b.id, b.refCount, b.manager⟩

@[simp] theorem Block.handle_setHashValue (b : Block Key) (k : Key) :
    (b.setHashValue k).handle = b.handle := rfl

@[simp] theorem Block.handle_empty [Inhabited Key] :
    (Block.empty : Block Key).handle = .null := rfl

/-- A handle on block `i` of leaf `s` that counts in cell `a`. -/
def Leaf.managed (s : Leaf Key) (i a : Nat) : Handle := ⟨some i, some a, some s.self⟩

structure Owned (s : Leaf Key) (hs : List Handle) : Prop where
  /-- A handle is null or names an id other than padding and a counter of the heap. -/
  shape : ∀ h ∈ hs, h = .null ∨
    ∃ i a, h = s.managed i a ∧ 0 < i ∧ i < s.options.numBlocks ∧ a < s.nextRefCount
  counted : RefCounted Handle.refCount s.refCounts hs
  sameBlock : ∀ h ∈ hs, ∀ h' ∈ hs, h.id = h'.id ↔ h.refCount = h'.refCount
  numBlocks_pos : 0 < s.options.numBlocks
  freeLength : s.freeBlocks.length = s.options.numBlocks
  usageLength : s.usageAccountedIds.length = s.options.numBlocks
  numFree_le : s.numFreeBlocks ≤ s.options.numBlocks
  freeNodup : (s.freeBlocks.take s.numFreeBlocks).Nodup
  mem_free : ∀ i, i ∈ s.freeBlocks.take s.numFreeBlocks ↔
    0 < i ∧ i < s.options.numBlocks ∧ ∀ h ∈ hs, h.id ≠ some i
  usage : ∀ i, s.usageAccountedIds[i]? = some true ↔ i = 0 ∨ ∃ h ∈ hs, h.id = some i

/-- The fields no operation on blocks ever writes. -/
structure Leaf.Frame (s s' : Leaf Key) : Prop where
  options : s'.options = s.options
  self : s'.self = s.self
  blockAllocator : s'.blockAllocator = s.blockAllocator

@[refl] theorem Leaf.Frame.refl (s : Leaf Key) : s.Frame s := ⟨rfl, rfl, rfl⟩

theorem Leaf.Frame.trans {s s' s'' : Leaf Key} (h : s.Frame s') (h' : s'.Frame s'') :
    s.Frame s'' :=
  ⟨h'.options.trans h.options, h'.self.trans h.self, h'.blockAllocator.trans h.blockAllocator⟩

namespace Owned

variable {s : Leaf Key} {hs hs' : List Handle}

theorem perm (h : Owned s hs) (p : hs.Perm hs') : Owned s hs' :=
  { h with
    shape := fun x hx => h.shape x (p.mem_iff.mpr hx)
    counted := h.counted.perm p
    sameBlock := fun x hx y hy => h.sameBlock x (p.mem_iff.mpr hx) y (p.mem_iff.mpr hy)
    mem_free := fun i => by
      rw [h.mem_free]
      simp only [p.mem_iff]
    usage := fun i => by
      rw [h.usage]
      simp only [p.mem_iff] }

theorem setPrefixCache (h : Owned s hs) (c : PrefixCache Key) :
    Owned { s with prefixCache := c } hs :=
  ⟨h.shape, h.counted, h.sameBlock, h.numBlocks_pos, h.freeLength, h.usageLength, h.numFree_le,
    h.freeNodup, h.mem_free, h.usage⟩

theorem cons_null (h : Owned s hs) : Owned s (.null :: hs) :=
  { h with
    shape := by
      intro x hx
      rcases mem_cons.mp hx with rfl | hx
      · exact Or.inl rfl
      · exact h.shape x hx
    counted := h.counted.cons_null rfl
    sameBlock := by
      have hnull : ∀ x ∈ hs, (Handle.null.id = x.id ↔ Handle.null.refCount = x.refCount) := by
        intro x hx
        rcases h.shape x hx with rfl | ⟨i, a, rfl, -⟩
        · exact ⟨fun _ => rfl, fun _ => rfl⟩
        · exact ⟨nofun,
            nofun⟩
      intro x hx y hy
      rcases mem_cons.mp hx with rfl | hx <;> rcases mem_cons.mp hy with rfl | hy
      · exact ⟨fun _ => rfl, fun _ => rfl⟩
      · exact hnull y hy
      · exact ⟨fun e => ((hnull x hx).mp e.symm).symm, fun e => ((hnull x hx).mpr e.symm).symm⟩
      · exact h.sameBlock x hx y hy
    mem_free := fun i => by rw [h.mem_free]; simp [Handle.null]
    usage := fun i => by rw [h.usage]; simp [Handle.null] }

theorem of_cons_null (h : Owned s (.null :: hs)) : Owned s hs :=
  { h with
    shape := fun x hx => h.shape x (mem_cons_of_mem _ hx)
    counted := h.counted.of_cons_null rfl
    sameBlock := fun x hx y hy =>
      h.sameBlock x (mem_cons_of_mem _ hx) y (mem_cons_of_mem _ hy)
    mem_free := fun i => by rw [h.mem_free]; simp [Handle.null]
    usage := fun i => by rw [h.usage]; simp [Handle.null] }

theorem refCount_pos (h : Owned s hs) {x : Handle} (hx : x ∈ hs) {a : Nat}
    (ha : x.refCount = some a) : 0 < s.refCounts a := by
  rw [h.counted x hx a ha]
  exact handleCount_pos hx ha

theorem length_free (h : Owned s hs) :
    (s.freeBlocks.take s.numFreeBlocks).length = s.numFreeBlocks := by
  rw [length_take, h.freeLength]
  exact Nat.min_eq_left h.numFree_le

end Owned

/-! ## Two facts about the free list as a stack -/

theorem take_set_succ {α : Type} (l : List α) {n : Nat} (x : α) (hn : n < l.length) :
    (l.set n x).take (n + 1) = l.take n ++ [x] := by
  rw [take_add_one, List.getElem?_set_self hn, take_set_of_le (Nat.le_refl n)]
  rfl

theorem length_le_of_nodup_pos {l : List Nat} {n : Nat} (hl : l.Nodup)
    (h : ∀ x ∈ l, 0 < x ∧ x < n) : l.length ≤ n - 1 := by
  have hsub : l ⊆ List.range' 1 (n - 1) := by
    intro x hx
    have := h x hx
    rw [List.mem_range'_1]
    omega
  have := (subperm_of_subset hl hsub).length_le
  rwa [length_range'] at this

/-! ## Copy -/

section Copy

variable {s : Leaf Key} {hs : List Handle} {b : Block Key}

theorem copyBlock_null (h : b.handle = .null) : s.copyBlock b = (s, b) := by
  obtain ⟨id, size, refCount, manager, hash⟩ := b
  obtain ⟨rfl, rfl, rfl⟩ := h
  rfl

theorem copyBlock_managed {i a : Nat} (h : b.handle = s.managed i a) :
    s.copyBlock b =
      ({ s with refCounts := Function.update s.refCounts a (s.refCounts a + 1) }, b) := by
  obtain ⟨id, size, refCount, manager, hash⟩ := b
  obtain ⟨rfl, rfl, rfl⟩ := h
  rfl

theorem Owned.copy (h : Owned s hs) {i a : Nat} (hm : s.managed i a ∈ hs) :
    Owned { s with refCounts := Function.update s.refCounts a (s.refCounts a + 1) }
      (s.managed i a :: hs) :=
  { h with
    shape := by
      intro x hx
      rcases mem_cons.mp hx with rfl | hx
      · exact h.shape _ hm
      · exact h.shape x hx
    counted := h.counted.copy ⟨_, hm, rfl⟩ rfl
    sameBlock := by
      intro x hx y hy
      have hx' : x ∈ hs := by
        rcases mem_cons.mp hx with rfl | hx
        · exact hm
        · exact hx
      have hy' : y ∈ hs := by
        rcases mem_cons.mp hy with rfl | hy
        · exact hm
        · exact hy
      exact h.sameBlock x hx' y hy'
    mem_free := by
      intro j
      rw [h.mem_free]
      constructor
      · rintro ⟨h0, hn, hall⟩
        refine ⟨h0, hn, fun x hx => ?_⟩
        rcases mem_cons.mp hx with rfl | hx
        · exact hall _ hm
        · exact hall x hx
      · rintro ⟨h0, hn, hall⟩
        exact ⟨h0, hn, fun x hx => hall x (mem_cons_of_mem _ hx)⟩
    usage := by
      intro j
      rw [h.usage]
      constructor
      · rintro (h0 | ⟨x, hx, hj⟩)
        · exact Or.inl h0
        · exact Or.inr ⟨x, mem_cons_of_mem _ hx, hj⟩
      · rintro (h0 | ⟨x, hx, hj⟩)
        · exact Or.inl h0
        · rcases mem_cons.mp hx with rfl | hx
          · exact Or.inr ⟨_, hm, hj⟩
          · exact Or.inr ⟨x, hx, hj⟩ }

theorem copyBlock_spec (h : Owned s hs) (hb : b.handle ∈ hs) :
    (s.copyBlock b).2 = b ∧ Owned (s.copyBlock b).1 (b.handle :: hs) ∧
      s.Frame (s.copyBlock b).1 ∧ (s.copyBlock b).1.prefixCache = s.prefixCache := by
  rcases h.shape _ hb with hnull | ⟨i, a, hm, -⟩
  · rw [copyBlock_null hnull, hnull]
    exact ⟨rfl, h.cons_null, .refl s, rfl⟩
  · rw [copyBlock_managed hm, hm]
    exact ⟨rfl, h.copy (hm ▸ hb), ⟨rfl, rfl, rfl⟩, rfl⟩

end Copy

/-! ## Free -/

section Free

variable {s : Leaf Key} {hs : List Handle} {b : Block Key} {i a : Nat}

/-- The last handle of a block goes and the block becomes free. -/
theorem Owned.drop_last (h : Owned s (s.managed i a :: hs)) (hlast : s.refCounts a - 1 = 0) :
    ∃ s', ({ s with refCounts := Function.update s.refCounts a (s.refCounts a - 1) }.clearUsed i
        >>= fun s => s.pushFree i) = .ok s' ∧ Owned s' hs ∧ s.Frame s' ∧
      s'.prefixCache = s.prefixCache ∧ s'.numFreeBlocks = s.numFreeBlocks + 1 ∧
      s'.refCounts = Function.update s.refCounts a (s.refCounts a - 1) ∧
      s'.nextRefCount = s.nextRefCount := by
  have hgone : ∀ x ∈ hs, x.refCount ≠ some a := (h.counted.drop_zero rfl).mp hlast
  have hid : ∀ x ∈ hs, x.id ≠ some i := by
    intro x hx hxi
    have := (h.sameBlock _ mem_cons_self x (mem_cons_of_mem _ hx)).mp hxi.symm
    exact hgone x hx this.symm
  obtain ⟨hpos, hlt⟩ : 0 < i ∧ i < s.options.numBlocks := by
    rcases h.shape _ mem_cons_self with hnull | ⟨i', a', he, hp, hl, -⟩
    · cases hnull
    · obtain ⟨rfl, -⟩ := he
      exact ⟨hp, hl⟩
  have hused : s.usageAccountedIds[i]? = some true :=
    (h.usage i).mpr (Or.inr ⟨_, mem_cons_self, rfl⟩)
  have hnotfree : i ∉ s.freeBlocks.take s.numFreeBlocks := by
    intro hm
    exact ((h.mem_free i).mp hm).2.2 _ mem_cons_self rfl
  -- the block is not among the free ones, so there is room for it
  have hroom : s.numFreeBlocks < s.freeBlocks.length := by
    have hnodup : (i :: s.freeBlocks.take s.numFreeBlocks).Nodup :=
      nodup_cons.mpr ⟨hnotfree, h.freeNodup⟩
    have hle := length_le_of_nodup_pos hnodup (n := s.options.numBlocks) (by
      intro x hx
      rcases mem_cons.mp hx with rfl | hx
      · exact ⟨hpos, hlt⟩
      · exact ⟨((h.mem_free x).mp hx).1, ((h.mem_free x).mp hx).2.1⟩)
    rw [length_cons, h.length_free] at hle
    rw [h.freeLength]
    omega
  refine ⟨{ s with
      refCounts := Function.update s.refCounts a (s.refCounts a - 1)
      usageAccountedIds := s.usageAccountedIds.set i false
      numFreeBlocks := s.numFreeBlocks + 1
      freeBlocks := s.freeBlocks.set s.numFreeBlocks i }, ?_, ?_, ⟨rfl, rfl, rfl⟩, rfl, rfl, rfl,
    rfl⟩
  · simp only [Leaf.clearUsed, hused, Leaf.pushFree, bind, Except.bind, if_pos hroom]
  · constructor
    case shape => exact fun x hx => h.shape x (mem_cons_of_mem _ hx)
    case counted => exact h.counted.drop rfl
    case sameBlock =>
      exact fun x hx y hy =>
        h.sameBlock x (mem_cons_of_mem _ hx) y (mem_cons_of_mem _ hy)
    case numBlocks_pos => exact h.numBlocks_pos
    case freeLength => exact (length_set ..).trans h.freeLength
    case usageLength => exact (length_set ..).trans h.usageLength
    case numFree_le => rw [← h.freeLength]; exact hroom
    case freeNodup =>
      rw [take_set_succ _ _ hroom, nodup_append]
      refine ⟨h.freeNodup, nodup_singleton i, ?_⟩
      intro x hx y hy
      rw [mem_singleton] at hy
      rintro rfl
      exact hnotfree (hy ▸ hx)
    case mem_free =>
      intro j
      rw [take_set_succ _ _ hroom, mem_append, h.mem_free, mem_singleton]
      constructor
      · rintro (⟨h0, hn, hall⟩ | rfl)
        · exact ⟨h0, hn, fun x hx => hall x (mem_cons_of_mem _ hx)⟩
        · exact ⟨hpos, hlt, hid⟩
      · rintro ⟨h0, hn, hall⟩
        by_cases hji : j = i
        · exact Or.inr hji
        · refine Or.inl ⟨h0, hn, fun x hx => ?_⟩
          rcases mem_cons.mp hx with rfl | hx
          · simpa [Leaf.managed] using fun e => hji e.symm
          · exact hall x hx
    case usage =>
      intro j
      by_cases hji : i = j
      · subst hji
        rw [List.getElem?_set_self (by rw [h.usageLength]; exact hlt)]
        constructor
        · intro hf; exact nomatch hf
        · rintro (rfl | ⟨x, hx, hj⟩)
          · cases hpos
          · exact absurd hj (hid x hx)
      · rw [List.getElem?_set_ne hji, h.usage]
        constructor
        · rintro (h0 | ⟨x, hx, hj⟩)
          · exact Or.inl h0
          · rcases mem_cons.mp hx with rfl | hx
            · exact absurd (Option.some.inj hj) hji
            · exact Or.inr ⟨x, hx, hj⟩
        · rintro (h0 | ⟨x, hx, hj⟩)
          · exact Or.inl h0
          · exact Or.inr ⟨x, mem_cons_of_mem _ hx, hj⟩

theorem Owned.drop_shared (h : Owned s (s.managed i a :: hs)) (hmore : s.refCounts a - 1 ≠ 0) :
    Owned { s with refCounts := Function.update s.refCounts a (s.refCounts a - 1) } hs := by
  have hstill : ∃ x ∈ hs, x.refCount = some a := by
    by_contra hnone
    push Not at hnone
    exact hmore ((h.counted.drop_zero rfl).mpr hnone)
  obtain ⟨x, hx, hxa⟩ := hstill
  have hxi : x.id = some i :=
    ((h.sameBlock _ mem_cons_self x (mem_cons_of_mem _ hx)).mpr hxa.symm).symm
  constructor
  case shape => exact fun y hy => h.shape y (mem_cons_of_mem _ hy)
  case counted => exact h.counted.drop rfl
  case sameBlock =>
    exact fun y hy z hz =>
      h.sameBlock y (mem_cons_of_mem _ hy) z (mem_cons_of_mem _ hz)
  case numBlocks_pos => exact h.numBlocks_pos
  case freeLength => exact h.freeLength
  case usageLength => exact h.usageLength
  case numFree_le => exact h.numFree_le
  case freeNodup => exact h.freeNodup
  case mem_free =>
    intro j
    rw [h.mem_free]
    constructor
    · rintro ⟨h0, hn, hall⟩
      exact ⟨h0, hn, fun y hy => hall y (mem_cons_of_mem _ hy)⟩
    · rintro ⟨h0, hn, hall⟩
      refine ⟨h0, hn, fun y hy => ?_⟩
      rcases mem_cons.mp hy with rfl | hy
      · rw [show (s.managed i a).id = x.id from hxi.symm]
        exact hall x hx
      · exact hall y hy
  case usage =>
    intro j
    rw [h.usage]
    constructor
    · rintro (h0 | ⟨y, hy, hj⟩)
      · exact Or.inl h0
      · rcases mem_cons.mp hy with rfl | hy
        · exact Or.inr ⟨x, hx, hxi.trans hj⟩
        · exact Or.inr ⟨y, hy, hj⟩
    · rintro (h0 | ⟨y, hy, hj⟩)
      · exact Or.inl h0
      · exact Or.inr ⟨y, mem_cons_of_mem _ hy, hj⟩

theorem decRefCount_managed (hb : b.handle = s.managed i a) :
    (s.decRefCount b).1 =
        { s with refCounts := Function.update s.refCounts a (s.refCounts a - 1) } ∧
      (s.decRefCount b).2.id = some i ∧
      (s.decRefCount b).1.refCount (s.decRefCount b).2 = s.refCounts a - 1 := by
  obtain ⟨id, size, refCount, manager, hash⟩ := b
  obtain ⟨rfl, rfl, rfl⟩ := hb
  unfold Leaf.decRefCount
  dsimp only
  split
  · rename_i h1
    exact ⟨rfl, rfl, by simp [Leaf.refCount, h1]⟩
  · exact ⟨rfl, rfl, by simp [Leaf.refCount]⟩

/-- What dropping a handle on block `i` does to the rest of the leaf. -/
structure Leaf.Dropped (s s' : Leaf Key) (i a : Nat) : Prop where
  frame : s.Frame s'
  refCounts : s'.refCounts = Function.update s.refCounts a (s.refCounts a - 1)
  nextRefCount : s'.nextRefCount = s.nextRefCount
  prefixCache : s'.prefixCache = { s.prefixCache with
    numEvictable := s.prefixCache.numEvictable +
      if some i ∈ s.prefixCache.blocksById ∧ s.refCounts a - 1 = 1 then 1 else 0 }
  numFree : s'.numFreeBlocks = s.numFreeBlocks + if s.refCounts a - 1 = 0 then 1 else 0

/-- `recycle` after the counter went down, in a leaf whose cache may have been touched. -/
theorem recycle_spec {c : PrefixCache Key} {b' : Block Key}
    (h : Owned s (s.managed i a :: hs)) (hid : b'.id = some i)
    (hcount : ({ s with refCounts := Function.update s.refCounts a (s.refCounts a - 1) }).refCount
      b' = s.refCounts a - 1) :
    ∃ s', ({ s with
        refCounts := Function.update s.refCounts a (s.refCounts a - 1)
        prefixCache := c }).recycle b' = .ok s' ∧ Owned s' hs ∧ s.Frame s' ∧
      s'.prefixCache = c ∧ s'.nextRefCount = s.nextRefCount ∧
      s'.refCounts = Function.update s.refCounts a (s.refCounts a - 1) ∧
      s'.numFreeBlocks = s.numFreeBlocks + if s.refCounts a - 1 = 0 then 1 else 0 := by
  have hcount' : ({ s with
      refCounts := Function.update s.refCounts a (s.refCounts a - 1)
      prefixCache := c }).refCount b' = s.refCounts a - 1 := hcount
  unfold Leaf.recycle
  rw [hcount', hid]
  by_cases hlast : s.refCounts a - 1 = 0
  · rw [if_pos hlast, if_pos hlast]
    have hc : Owned { s with prefixCache := c } (s.managed i a :: hs) := h.setPrefixCache c
    obtain ⟨s', hrun, howned, hframe, hcache, hfree, hrc, hnext⟩ :=
      Owned.drop_last (s := { s with prefixCache := c }) hc hlast
    exact ⟨s', hrun, howned, ⟨hframe.options, hframe.self, hframe.blockAllocator⟩, hcache, hnext,
      hrc, hfree⟩
  · rw [if_neg hlast, if_neg hlast]
    exact ⟨_, rfl, (h.drop_shared hlast).setPrefixCache c, ⟨rfl, rfl, rfl⟩, rfl, rfl, rfl, rfl⟩

theorem updateEvictable_eq {s : Leaf Key} {b : Block Key} {i : Nat} (hid : b.id = some i) :
    s.updateEvictable b =
      ({ s with prefixCache := { s.prefixCache with
          numEvictable := s.prefixCache.numEvictable +
            if some i ∈ s.prefixCache.blocksById ∧ s.refCount b = 1 then 1 else 0 } },
        decide (some i ∈ s.prefixCache.blocksById)) := by
  unfold Leaf.updateEvictable
  rw [if_neg (by rw [hid]; simp), hid]
  by_cases hev : some i ∈ s.prefixCache.blocksById ∧ s.refCount b = 1
  · rw [if_pos (by simpa using hev), if_pos hev]
  · rw [if_neg (by simpa using hev), if_neg hev]
    rfl

/-- `free` on an alias of block `i`: none of its CHECKs fires, provided a registered id always has
a handle left besides the one being dropped. -/
theorem free_spec (h : Owned s (s.managed i a :: hs)) (hb : b.handle = s.managed i a)
    (hres : some i ∈ s.prefixCache.blocksById → ∃ x ∈ hs, x.id = some i)
    (hdis : s.options.enablePrefixCache = false → some i ∉ s.prefixCache.blocksById) :
    ∃ s', s.free b = .ok s' ∧ Owned s' hs ∧ s.Dropped s' i a := by
  obtain ⟨hstate, hid, hcount⟩ := decRefCount_managed hb
  have hpos : 0 < i := by
    rcases h.shape _ mem_cons_self with hnull | ⟨i', a', he, hp, -⟩
    · cases hnull
    · simp only [Leaf.managed, Handle.mk.injEq, Option.some.injEq] at he
      rw [he.1]; exact hp
  have hbid : b.id = some i := congrArg Handle.id hb
  have hresident : some i ∈ s.prefixCache.blocksById → s.refCounts a - 1 ≠ 0 := by
    intro hr hzero
    obtain ⟨x, hx, hxi⟩ := hres hr
    have := (h.sameBlock _ mem_cons_self x (mem_cons_of_mem _ hx)).mp hxi.symm
    exact (h.counted.drop_zero rfl).mp hzero x hx this.symm
  unfold Leaf.free
  rw [if_neg (by rw [hbid]; simpa using Nat.pos_iff_ne_zero.mp hpos)]
  rcases hdec : s.decRefCount b with ⟨s₁, b₁⟩
  rw [hdec] at hstate hid hcount
  dsimp only at hstate hid hcount ⊢
  subst hstate
  by_cases hen : s.options.enablePrefixCache
  · rw [if_pos hen, updateEvictable_eq hid, hcount]
    rw [if_neg (by
      rintro ⟨hr, hz⟩
      exact hresident (by simpa using hr) (hcount.symm.trans hz))]
    obtain ⟨s', hrun, howned, hframe, hcache, hnext, hrc, hfree⟩ := recycle_spec h hid hcount
    exact ⟨s', hrun, howned, hframe, hrc, hnext, hcache, hfree⟩
  · rw [if_neg hen]
    obtain ⟨s', hrun, howned, hframe, hcache, hnext, hrc, hfree⟩ :=
      recycle_spec (c := s.prefixCache) h hid hcount
    refine ⟨s', hrun, howned, hframe, hrc, hnext, ?_, hfree⟩
    have hnot := hdis (by simpa using hen)
    rw [hcache, if_neg (fun hr => hnot hr.1), Nat.add_zero]

end Free

/-! ## Taking a block off the free list -/

section Take

variable [Inhabited Key] {s : Leaf Key} {hs : List Handle}

/-- The last free block goes to a new handle with a counter of its own. -/
theorem takeBlock_spec (h : Owned s hs) (hfree : 0 < s.numFreeBlocks) :
    ∃ (s' : Leaf Key) (b : Block Key) (i : Nat), s.takeBlock = .ok (s', b) ∧
      b.handle = s.managed i s.nextRefCount ∧ Owned s' (b.handle :: hs) ∧ s.Frame s' ∧
      s'.prefixCache = s.prefixCache ∧ s'.numFreeBlocks = s.numFreeBlocks - 1 ∧
      s'.refCounts = Function.update s.refCounts s.nextRefCount 1 ∧
      b.size = s.options.blockSize ∧ 0 < i ∧ i < s.options.numBlocks ∧
      ∀ x ∈ hs, x.id ≠ some i := by
  have hlt : s.numFreeBlocks - 1 < s.freeBlocks.length := by
    rw [h.freeLength]
    have := h.numFree_le
    omega
  have hsplit : s.freeBlocks.take s.numFreeBlocks =
      s.freeBlocks.take (s.numFreeBlocks - 1) ++ [s.freeBlocks[s.numFreeBlocks - 1]] := by
    have := take_add_one (l := s.freeBlocks) (i := s.numFreeBlocks - 1)
    rw [Nat.sub_add_cancel hfree, List.getElem?_eq_getElem hlt] at this
    exact this
  generalize hi : s.freeBlocks[s.numFreeBlocks - 1] = i at hsplit
  have hmem : i ∈ s.freeBlocks.take s.numFreeBlocks := by rw [hsplit]; simp
  obtain ⟨hpos, hbound, hnone⟩ := (h.mem_free i).mp hmem
  have hnodup := h.freeNodup
  rw [hsplit, nodup_append] at hnodup
  -- a free block is no handle's, so the CHECK that it is unused passes
  have hunused : s.usageAccountedIds[i]? = some false := by
    have hlen : i < s.usageAccountedIds.length := by rw [h.usageLength]; exact hbound
    rw [List.getElem?_eq_getElem hlen]
    cases hv : s.usageAccountedIds[i] with
    | false => rfl
    | true =>
      rcases (h.usage i).mp (by rw [List.getElem?_eq_getElem hlen, hv]) with h0 | ⟨x, hx, hxi⟩
      · exact absurd hpos (by rw [h0]; simp)
      · exact absurd hxi (hnone x hx)
  have hfresh : ∀ x ∈ hs, x.refCount ≠ some s.nextRefCount := by
    intro x hx hxa
    rcases h.shape x hx with rfl | ⟨j, a, rfl, -, -, ha⟩
    · cases hxa
    · exact absurd (Option.some.inj hxa) (Nat.ne_of_lt ha)
  refine ⟨{ s with
      numFreeBlocks := s.numFreeBlocks - 1
      usageAccountedIds := s.usageAccountedIds.set i true
      refCounts := Function.update s.refCounts s.nextRefCount 1
      nextRefCount := s.nextRefCount + 1 },
    { id := some i, size := s.options.blockSize, refCount := some s.nextRefCount,
      manager := some s.self, hashValue := default }, i, ?_, rfl, ?_, ⟨rfl, rfl, rfl⟩, rfl, rfl,
    rfl, rfl, hpos, hbound, hnone⟩
  · simp only [Leaf.takeBlock, List.getElem?_eq_getElem hlt, hi, Leaf.markUsed, hunused, bind,
      Except.bind]
  · constructor
    case shape =>
      intro x hx
      rcases mem_cons.mp hx with rfl | hx
      · exact Or.inr ⟨i, s.nextRefCount, rfl, hpos, hbound, Nat.lt_succ_self _⟩
      · rcases h.shape x hx with rfl | ⟨j, a, rfl, h0, hn, ha⟩
        · exact Or.inl rfl
        · exact Or.inr ⟨j, a, rfl, h0, hn, Nat.lt_succ_of_lt ha⟩
    case counted => exact h.counted.fresh hfresh rfl
    case sameBlock =>
      intro x hx y hy
      rcases mem_cons.mp hx with rfl | hx <;> rcases mem_cons.mp hy with rfl | hy
      · exact ⟨fun _ => rfl, fun _ => rfl⟩
      · exact ⟨fun e => absurd e.symm (hnone y hy), fun e => absurd e.symm (hfresh y hy)⟩
      · exact ⟨fun e => absurd e (hnone x hx), fun e => absurd e (hfresh x hx)⟩
      · exact h.sameBlock x hx y hy
    case numBlocks_pos => exact h.numBlocks_pos
    case freeLength => exact h.freeLength
    case usageLength => exact (length_set ..).trans h.usageLength
    case numFree_le => exact Nat.le_trans (Nat.sub_le _ _) h.numFree_le
    case freeNodup => exact hnodup.1
    case mem_free =>
      intro j
      have hj := h.mem_free j
      rw [hsplit, mem_append, mem_singleton] at hj
      constructor
      · intro hm
        obtain ⟨h0, hn, hall⟩ := hj.mp (Or.inl hm)
        refine ⟨h0, hn, fun x hx => ?_⟩
        rcases mem_cons.mp hx with rfl | hx
        · intro e
          exact hnodup.2.2 j hm i (mem_singleton.mpr rfl) (Option.some.inj e).symm
        · exact hall x hx
      · rintro ⟨h0, hn, hall⟩
        rcases hj.mpr ⟨h0, hn, fun x hx => hall x (mem_cons_of_mem _ hx)⟩ with hm | hji
        · exact hm
        · exact absurd (by rw [hji]; rfl) (hall _ mem_cons_self)
    case usage =>
      intro j
      by_cases hji : i = j
      · subst hji
        rw [List.getElem?_set_self (by rw [h.usageLength]; exact hbound)]
        exact ⟨fun _ => Or.inr ⟨_, mem_cons_self, rfl⟩, fun _ => rfl⟩
      · rw [List.getElem?_set_ne hji, h.usage]
        constructor
        · rintro (h0 | ⟨x, hx, hxj⟩)
          · exact Or.inl h0
          · exact Or.inr ⟨x, mem_cons_of_mem _ hx, hxj⟩
        · rintro (h0 | ⟨x, hx, hxj⟩)
          · exact Or.inl h0
          · rcases mem_cons.mp hx with rfl | hx
            · exact absurd (Option.some.inj hxj) hji
            · exact Or.inr ⟨x, hx, hxj⟩

end Take

end Xllm.Framework
