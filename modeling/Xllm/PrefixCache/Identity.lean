import Mathlib
import Xllm.PrefixCache.HashChain

/-!
# What a block's key stands for

`Content` is what a caller presents to a prefix cache: token ids, and the multimodal items among
them. Block `i` of a content covers a slice of its tokens (one more for the MTP hashers) and the
items that overlap that slice; its chain key digests both with the key of block `i - 1`. This file
states that on its own (`Content.chainKey`), and shows

* the hashers compute it: a hasher walks the items once, left to right, wherever it starts
  (`hashChain_walked`), and for items placed left to right it collects exactly the overlapping ones
  for every block (`hashChain_spec`);
* a key identifies the whole prefix when the digest of one block is injective: contents that agree
  on the key of a block agree on its index and on everything up to its end (`chainKey_samePrefix`).
-/

namespace Xllm.Framework

open Xllm.Lib List

variable {Key : Type}

/-! ## Contents -/

/-- The types whose hasher reads the multimodal items. -/
def BlockHasherType.readsItems : BlockHasherType → Bool
  | .mm | .mtpMm => true
  | .text | .mtpText => false

/-- The item overlaps the token positions from `startTokenIdx` up to `endTokenIdx`. -/
def MMItem.overlaps (item : MMItem Key) (startTokenIdx endTokenIdx : Nat) : Bool :=
  item.offset < endTokenIdx ∧ startTokenIdx < item.offset + item.length

/-- Items as `find_mm_spans` places them: left to right over disjoint positions. -/
def Placed (mmItems : List (MMItem Key)) : Prop :=
  mmItems.Pairwise fun a b => a.offset + a.length ≤ b.offset

/-- Items listed in the order in which they end. -/
def EndsInOrder (mmItems : List (MMItem Key)) : Prop :=
  mmItems.Pairwise fun a b => a.offset + a.length ≤ b.offset + b.length

theorem Placed.endsInOrder {mmItems : List (MMItem Key)} (h : Placed mmItems) :
    EndsInOrder mmItems :=
  h.imp fun hle => Nat.le_trans hle (Nat.le_add_right _ _)

structure Content (Key : Type) where
  tokenIds : List Int
  mmItems : List (MMItem Key)

namespace Content

/-- The items a hasher of this type reads. -/
def items (type : BlockHasherType) (c : Content Key) : List (MMItem Key) :=
  if type.readsItems then c.mmItems else []

def Placed (type : BlockHasherType) (c : Content Key) : Prop := Framework.Placed (c.items type)

/-- The keys of the items that overlap a range of token positions, in order. -/
def overlapping (type : BlockHasherType) (c : Content Key) (startTokenIdx endTokenIdx : Nat) :
    List Key :=
  ((c.items type).filter fun item => item.overlaps startTokenIdx endTokenIdx).map MMItem.key

/-- The token positions block `i` depends on end here. -/
def endOf (type : BlockHasherType) (blockSize i : Nat) : Nat :=
  i * blockSize + blockSize + blockHashLookahead type

def coveredTokens (type : BlockHasherType) (blockSize : Nat) (c : Content Key) (i : Nat) :
    List Int :=
  (c.tokenIds.drop (i * blockSize)).take (blockSize + blockHashLookahead type)

def coveredKeys (type : BlockHasherType) (blockSize : Nat) (c : Content Key) (i : Nat) :
    List Key :=
  c.overlapping type (i * blockSize) (endOf type blockSize i)

/-- Number of blocks a content has keys for. -/
def numBlocks (type : BlockHasherType) (blockSize : Nat) (c : Content Key) : Nat :=
  numHashBlocks type c.tokenIds.length blockSize

end Content

/-! ## The chain -/

section Chain

variable (xxh3 : HashInput Key → Key) (type : BlockHasherType) (blockSize : Nat)

/-- The key of block `i`: the digest of what it covers and of the key before it. -/
def Content.chainKey (c : Content Key) : Nat → Key
  | 0 => mmXxh3128bitsHash xxh3 (c.coveredKeys type blockSize 0) none
      (c.coveredTokens type blockSize 0)
  | i + 1 => mmXxh3128bitsHash xxh3 (c.coveredKeys type blockSize (i + 1))
      (some (c.chainKey i)) (c.coveredTokens type blockSize (i + 1))

/-- The key before block `i`. -/
def Content.parentKey (c : Content Key) : Nat → Option Key
  | 0 => none
  | i + 1 => some (c.chainKey xxh3 type blockSize i)

theorem Content.chainKey_eq (c : Content Key) (i : Nat) :
    c.chainKey xxh3 type blockSize i =
      mmXxh3128bitsHash xxh3 (c.coveredKeys type blockSize i)
        (c.parentKey xxh3 type blockSize i) (c.coveredTokens type blockSize i) := by
  cases i with
  | zero => rfl
  | succ i => rfl

/-- Hashes that are the content's chain keys, from block 0 on. -/
def Content.Chained (c : Content Key) (hashes : List Key) : Prop :=
  ∀ i key, hashes[i]? = some key → key = c.chainKey xxh3 type blockSize i

/-- The chain keys of `count` blocks from block `b` on. -/
def Content.chainKeys (c : Content Key) (b count : Nat) : List Key :=
  (List.range' b count).map (c.chainKey xxh3 type blockSize)

theorem Content.length_chainKeys (c : Content Key) (b count : Nat) :
    (c.chainKeys xxh3 type blockSize b count).length = count := by
  simp [Content.chainKeys]

theorem Content.getElem?_chainKeys (c : Content Key) {b count j : Nat} {key : Key} :
    (c.chainKeys xxh3 type blockSize b count)[j]? = some key ↔
      j < count ∧ key = c.chainKey xxh3 type blockSize (b + j) := by
  unfold Content.chainKeys
  rw [List.getElem?_map, Option.map_eq_some_iff]
  constructor
  · rintro ⟨i, hi, rfl⟩
    obtain ⟨hlt, rfl⟩ := List.getElem?_eq_some_iff.mp hi
    rw [length_range'] at hlt
    exact ⟨hlt, by rw [getElem_range', Nat.one_mul]⟩
  · rintro ⟨hlt, rfl⟩
    refine ⟨b + j, ?_, rfl⟩
    rw [List.getElem?_range' hlt, Nat.one_mul]

/-- A slice of a chained list that covers it is the list of chain keys. -/
theorem Content.Chained.slice {c : Content Key} {hashes : List Key}
    (h : c.Chained xxh3 type blockSize hashes) {b n : Nat} (hlen : n ≤ hashes.length) (hb : b ≤ n) :
    (hashes.drop b).take (n - b) = c.chainKeys xxh3 type blockSize b (n - b) := by
  refine ext_getElem? fun j => ?_
  by_cases hj : j < n - b
  · rw [List.getElem?_take_of_lt hj, List.getElem?_drop]
    have hlt : b + j < hashes.length := by omega
    have hkey := h (b + j) hashes[b + j] (List.getElem?_eq_getElem hlt)
    rw [List.getElem?_eq_getElem hlt, hkey]
    exact ((c.getElem?_chainKeys xxh3 type blockSize).mpr ⟨hj, rfl⟩).symm
  · rw [List.getElem?_eq_none (by rw [length_take, length_drop]; omega),
      List.getElem?_eq_none (by rw [c.length_chainKeys]; omega)]

end Chain

/-! ## The walk over the items -/

section Walk

variable {mmItems : List (MMItem Key)} {startTokenIdx endTokenIdx : Nat}

theorem filter_overlaps_nil {items : List (MMItem Key)}
    (h : ∀ item ∈ items, endTokenIdx ≤ item.offset) :
    items.filter (fun item => item.overlaps startTokenIdx endTokenIdx) = [] := by
  rw [filter_eq_nil_iff]
  intro item hitem
  have := h item hitem
  simp only [MMItem.overlaps, decide_eq_true_eq]
  omega

theorem blockMmHashValuesLoop_keys (startTokenIdx endTokenIdx : Nat) :
    ∀ (items : List (MMItem Key)) (itemIdx nextItemIdx : Nat) (mmHashValues : List Key),
      Placed items →
      (blockMmHashValuesLoop startTokenIdx endTokenIdx items itemIdx nextItemIdx mmHashValues).2 =
        mmHashValues ++
          (items.filter fun item => item.overlaps startTokenIdx endTokenIdx).map MMItem.key := by
  intro items
  induction items with
  | nil => intro itemIdx nextItemIdx mmHashValues _; simp [blockMmHashValuesLoop]
  | cons item items ih =>
    intro itemIdx nextItemIdx mmHashValues hplaced
    obtain ⟨hhead, htail⟩ := pairwise_cons.mp hplaced
    unfold blockMmHashValuesLoop
    by_cases hbehind : endTokenIdx ≤ item.offset
    · have hnone : (item :: items).filter
          (fun item => item.overlaps startTokenIdx endTokenIdx) = [] := by
        refine filter_overlaps_nil fun x hx => ?_
        rcases mem_cons.mp hx with rfl | hx
        · exact hbehind
        · have := hhead x hx
          omega
      rw [if_pos hbehind, hnone, map_nil, append_nil]
    · rw [if_neg hbehind]
      by_cases hpassed : item.offset + item.length ≤ startTokenIdx
      · have hout : ¬ (item.overlaps startTokenIdx endTokenIdx = true) := by
          simp only [MMItem.overlaps, decide_eq_true_eq]
          omega
        rw [if_pos hpassed, ih _ _ _ htail, filter_cons, if_neg hout]
      · have hin : item.overlaps startTokenIdx endTokenIdx = true := by
          simp only [MMItem.overlaps, decide_eq_true_eq]
          omega
        rw [if_neg hpassed, filter_cons, if_pos hin, map_cons]
        by_cases hlast : endTokenIdx < item.offset + item.length
        · have hnone : items.filter
              (fun item => item.overlaps startTokenIdx endTokenIdx) = [] := by
            refine filter_overlaps_nil fun x hx => ?_
            have := hhead x hx
            omega
          rw [if_pos hlast, hnone, map_nil]
        · rw [if_neg hlast, ih _ _ _ htail, List.append_assoc]
          rfl

/-- Every item in front of the cursor ended before the block. -/
def RetiredBefore (mmItems : List (MMItem Key)) (nextItemIdx startTokenIdx : Nat) : Prop :=
  ∀ j item, j < nextItemIdx → mmItems[j]? = some item → item.offset + item.length ≤ startTokenIdx

theorem RetiredBefore.mono {nextItemIdx startTokenIdx' : Nat}
    (h : RetiredBefore mmItems nextItemIdx startTokenIdx) (hle : startTokenIdx ≤ startTokenIdx') :
    RetiredBefore mmItems nextItemIdx startTokenIdx' :=
  fun j item hj hitem => Nat.le_trans (h j item hj hitem) hle

theorem RetiredBefore.succ {nextItemIdx : Nat} {item : MMItem Key}
    (h : RetiredBefore mmItems nextItemIdx startTokenIdx) (hitem : mmItems[nextItemIdx]? = some item)
    (hend : item.offset + item.length ≤ startTokenIdx) :
    RetiredBefore mmItems (nextItemIdx + 1) startTokenIdx := by
  intro j x hj hx
  rcases Nat.lt_or_eq_of_le (Nat.le_of_lt_succ hj) with hlt | rfl
  · exact h j x hlt hx
  · obtain rfl := Option.some.inj (hitem.symm.trans hx)
    exact hend

/-- What a walk has passed stays passed, by either measure: it ended inside or before the block,
and, for items in the order of their ends, before it. -/
theorem blockMmHashValuesLoop_retired {limit : Nat} (hle : startTokenIdx ≤ limit)
    (hlimit : endTokenIdx ≤ limit ∨ EndsInOrder mmItems) :
    ∀ (items : List (MMItem Key)) (itemIdx nextItemIdx : Nat) (mmHashValues : List Key),
      mmItems.drop itemIdx = items →
      (endTokenIdx ≤ limit → RetiredBefore mmItems itemIdx limit) →
      RetiredBefore mmItems nextItemIdx limit →
      RetiredBefore mmItems
        (blockMmHashValuesLoop startTokenIdx endTokenIdx items itemIdx nextItemIdx
          mmHashValues).1 limit := by
  intro items
  induction items with
  | nil => intro itemIdx nextItemIdx mmHashValues _ _ h; exact h
  | cons item items ih =>
    intro itemIdx nextItemIdx mmHashValues hdrop hpassed h
    have hitem : mmItems[itemIdx]? = some item := by
      rw [← Nat.add_zero itemIdx, ← List.getElem?_drop, hdrop]
      rfl
    have hrest : mmItems.drop (itemIdx + 1) = items := by
      rw [← drop_drop, hdrop]
      rfl
    unfold blockMmHashValuesLoop
    split
    · exact h
    · split
      · rename_i hended
        have hend : item.offset + item.length ≤ limit := Nat.le_trans hended hle
        have hnext : RetiredBefore mmItems (itemIdx + 1) limit := by
          rcases hlimit with hlimit | hordered
          · exact (hpassed hlimit).succ hitem hend
          · refine RetiredBefore.succ (fun j x hj hx => ?_) hitem hend
            obtain ⟨hj', rfl⟩ := List.getElem?_eq_some_iff.mp hx
            obtain ⟨hi', rfl⟩ := List.getElem?_eq_some_iff.mp hitem
            exact Nat.le_trans (pairwise_iff_getElem.mp hordered j itemIdx hj' hi' hj) hend
        exact ih _ _ _ hrest (fun _ => hnext) hnext
      · split
        · exact h
        · exact ih _ _ _ hrest (fun hwide => (hpassed hwide).succ hitem (by omega)) h

/-- Items that ended before the block add nothing, and the keys collected do not depend on how the
items are numbered. -/
theorem blockMmHashValuesLoop_skip (hlt : startTokenIdx < endTokenIdx) (items : List (MMItem Key)) :
    ∀ (front : List (MMItem Key)) (i j n m : Nat) (mmHashValues : List Key),
      (∀ item ∈ front, item.offset + item.length ≤ startTokenIdx) →
      (blockMmHashValuesLoop startTokenIdx endTokenIdx (front ++ items) i n mmHashValues).2 =
        (blockMmHashValuesLoop startTokenIdx endTokenIdx items j m mmHashValues).2 := by
  have renumber : ∀ (items : List (MMItem Key)) (i j n m : Nat) (mmHashValues : List Key),
      (blockMmHashValuesLoop startTokenIdx endTokenIdx items i n mmHashValues).2 =
        (blockMmHashValuesLoop startTokenIdx endTokenIdx items j m mmHashValues).2 := by
    intro items
    induction items with
    | nil => intros; rfl
    | cons item items ih =>
      intro i j n m mmHashValues
      simp only [blockMmHashValuesLoop]
      split
      · rfl
      · split
        · apply ih
        · split
          · rfl
          · apply ih
  intro front
  induction front with
  | nil => intro i j n m mmHashValues _; apply renumber
  | cons item front ih =>
    intro i j n m mmHashValues hfront
    have hended := hfront item mem_cons_self
    rw [cons_append, blockMmHashValuesLoop, if_neg (by omega), if_pos hended]
    exact ih _ _ _ _ _ fun x hx => hfront x (mem_cons_of_mem _ hx)

theorem findOverlappingMmIdx_retired (mmItems : List (MMItem Key)) (startTokenIdx : Nat) :
    RetiredBefore mmItems (findOverlappingMmIdx mmItems startTokenIdx) startTokenIdx := by
  intro j item hj hitem
  obtain ⟨hlt, rfl⟩ := List.getElem?_eq_some_iff.mp hitem
  have := not_of_lt_findIdx hj
  simp only [decide_eq_false_iff_not] at this
  omega

/-- The keys that a walk over all the items collects. -/
def Content.walkedKeys (type : BlockHasherType) (c : Content Key)
    (startTokenIdx endTokenIdx : Nat) : List Key :=
  (blockMmHashValuesLoop startTokenIdx endTokenIdx (c.items type) 0 0 []).2

/-- For items placed left to right these are the keys of the overlapping ones. -/
theorem Content.walkedKeys_eq {type : BlockHasherType} {c : Content Key} (hplaced : c.Placed type)
    (startTokenIdx endTokenIdx : Nat) :
    c.walkedKeys type startTokenIdx endTokenIdx =
      c.overlapping type startTokenIdx endTokenIdx :=
  blockMmHashValuesLoop_keys startTokenIdx endTokenIdx _ 0 0 [] hplaced

/-- `get_block_mm_hash_values` collects them, wherever its cursor is. -/
theorem getBlockMmHashValues_snd (hlt : startTokenIdx < endTokenIdx) {hasher : BlockHasher Key}
    (hretired : RetiredBefore hasher.mmItems hasher.nextItemIdx startTokenIdx) :
    (hasher.getBlockMmHashValues startTokenIdx endTokenIdx).2 =
      (blockMmHashValuesLoop startTokenIdx endTokenIdx hasher.mmItems 0 0 []).2 := by
  have hskip := blockMmHashValuesLoop_skip hlt (hasher.mmItems.drop hasher.nextItemIdx)
    (hasher.mmItems.take hasher.nextItemIdx) 0 hasher.nextItemIdx 0 hasher.nextItemIdx []
    fun item hitem => by
      obtain ⟨j, hj⟩ := mem_iff_getElem?.mp hitem
      rw [List.getElem?_take] at hj
      split at hj
      · exact hretired j item (by assumption) hj
      · cases hj
  rw [take_append_drop] at hskip
  exact hskip.symm

end Walk

/-! ## The hashers compute the chain -/

section Compute

variable (xxh3 : HashInput Key → Key)

/-- Only the MTP hashers, which read one token of the next block, ask for an order of the items. -/
def Restartable (type : BlockHasherType) (mmItems : List (MMItem Key)) : Prop :=
  type = .mtpMm → EndsInOrder mmItems

/-- A hasher ready for the block at `startTokenIdx`: the items it holds are the content's, and the
ones in front of its cursor ended before the block. -/
structure HasherAt (type : BlockHasherType) (c : Content Key) (startTokenIdx : Nat)
    (hasher : BlockHasher Key) : Prop where
  type_eq : hasher.type = type
  mmItems : hasher.mmItems = c.mmItems
  retired : type.readsItems = true →
    RetiredBefore c.mmItems hasher.nextItemIdx startTokenIdx

theorem create_hasherAt (type : BlockHasherType) (c : Content Key) (startTokenIdx : Nat) :
    HasherAt type c startTokenIdx (BlockHasher.create type c.mmItems startTokenIdx) :=
  ⟨rfl, rfl, fun _ => findOverlappingMmIdx_retired _ _⟩

variable {type : BlockHasherType} {c : Content Key} {hasher : BlockHasher Key}

theorem Content.Placed.restartable (h : c.Placed type) : Restartable type c.mmItems := by
  rintro rfl
  exact Framework.Placed.endsInOrder h

/-- After a block a hasher is ready for the next one. -/
theorem HasherAt.next {blockSize start : Nat} (h : HasherAt type c start hasher)
    (hordered : Restartable type c.mmItems) :
    HasherAt type c (start + blockSize) (hasher.getBlockMmHashValues start
      (start + blockSize + blockHashLookahead type)).1 := by
  refine ⟨h.type_eq, h.mmItems, fun hreads => ?_⟩
  have hretired := (h.retired hreads).mono (Nat.le_add_right start blockSize)
  show RetiredBefore c.mmItems (blockMmHashValuesLoop _ _ (hasher.mmItems.drop _) _ _ _).1 _
  rw [h.mmItems]
  refine blockMmHashValuesLoop_retired (Nat.le_add_right start blockSize) ?_ _ _ _ [] rfl
    (fun _ => hretired) hretired
  cases type with
  | text => cases hreads
  | mtpText => cases hreads
  | mm => exact .inl (Nat.le_refl _)
  | mtpMm => exact .inr (hordered rfl)

/-- The key of block `i`, as the hashers compute it. -/
def Content.walkedKey (type : BlockHasherType) (blockSize : Nat) (c : Content Key) : Nat → Key
  | 0 => mmXxh3128bitsHash xxh3 (c.walkedKeys type (0 * blockSize) (endOf type blockSize 0)) none
      (c.coveredTokens type blockSize 0)
  | i + 1 =>
    mmXxh3128bitsHash xxh3
      (c.walkedKeys type ((i + 1) * blockSize) (endOf type blockSize (i + 1)))
      (some (c.walkedKey type blockSize i)) (c.coveredTokens type blockSize (i + 1))

def Content.walkedParent (type : BlockHasherType) (blockSize : Nat) (c : Content Key) :
    Nat → Option Key
  | 0 => none
  | i + 1 => some (c.walkedKey xxh3 type blockSize i)

theorem Content.walkedKey_eq (c : Content Key) (blockSize i : Nat) :
    c.walkedKey xxh3 type blockSize i =
      mmXxh3128bitsHash xxh3 (c.walkedKeys type (i * blockSize) (endOf type blockSize i))
        (c.walkedParent xxh3 type blockSize i) (c.coveredTokens type blockSize i) := by
  cases i with
  | zero => rfl
  | succ i => rfl

theorem Content.walkedKey_placed (hplaced : c.Placed type) (blockSize i : Nat) :
    c.walkedKey xxh3 type blockSize i = c.chainKey xxh3 type blockSize i := by
  induction i with
  | zero =>
    rw [walkedKey, walkedKeys_eq hplaced]
    rfl
  | succ i ih =>
    rw [walkedKey, walkedKeys_eq hplaced, ih]
    rfl

/-- `compute` digests what the block covers, under every hasher type. -/
theorem compute_spec {blockSize i : Nat} (hpos : 0 < blockSize)
    (h : HasherAt type c (i * blockSize) hasher) (hordered : Restartable type c.mmItems)
    (pre : Option Key) (hlen : Content.endOf type blockSize i ≤ c.tokenIds.length) :
    ∃ hasher', hasher.compute xxh3 c.tokenIds (i * blockSize) (i * blockSize + blockSize) pre =
        .ok (hasher', mmXxh3128bitsHash xxh3
          (c.walkedKeys type (i * blockSize) (Content.endOf type blockSize i)) pre
          (c.coveredTokens type blockSize i)) ∧
      HasherAt type c ((i + 1) * blockSize) hasher' := by
  have hmono := Nat.le_add_right (i * blockSize) blockSize
  have hslice : sliceTokens c.tokenIds (i * blockSize) (Content.endOf type blockSize i) =
      .ok (c.coveredTokens type blockSize i) := by
    rw [sliceTokens_ok (by unfold Content.endOf; omega) hlen]
    unfold Content.coveredTokens Content.endOf
    congr 2
    omega
  have hbase : ∀ mm, mm = type.readsItems →
      ∃ hasher', hasher.computeBase xxh3 mm c.tokenIds (i * blockSize)
          (Content.endOf type blockSize i) pre =
        .ok (hasher', mmXxh3128bitsHash xxh3
          (c.walkedKeys type (i * blockSize) (Content.endOf type blockSize i)) pre
          (c.coveredTokens type blockSize i)) ∧
        HasherAt type c ((i + 1) * blockSize) hasher' := by
    intro mm hmm
    unfold BlockHasher.computeBase Content.walkedKeys Content.items
    rw [hslice, ← hmm, Nat.succ_mul]
    cases mm with
    | false => exact ⟨hasher, rfl, h.type_eq, h.mmItems, fun hreads =>
        (h.retired hreads).mono hmono⟩
    | true =>
      refine ⟨_, ?_, h.next hordered⟩
      have hretired := h.retired hmm.symm
      rw [← h.mmItems] at hretired
      have hkeys := getBlockMmHashValues_snd
        (by unfold Content.endOf; omega : i * blockSize < Content.endOf type blockSize i) hretired
      rw [h.mmItems] at hkeys
      rw [if_pos rfl, ← hkeys]
      rfl
  unfold BlockHasher.compute
  rw [h.type_eq]
  -- the MTP hashers ask for the lookahead token first, which `hlen` provides
  cases type with
  | text => exact hbase false rfl
  | mm => exact hbase true rfl
  | mtpText =>
    dsimp only
    rw [if_pos (by exact hlen)]
    exact hbase false rfl
  | mtpMm =>
    dsimp only
    rw [if_pos (by exact hlen)]
    exact hbase true rfl

/-- The chain from block `b` on is the content's, from any hasher that is ready for the block. -/
theorem hashChain_walked {blockSize : Nat} (hordered : Restartable type c.mmItems) :
    ∀ (count b : Nat) (hasher : BlockHasher Key), HasherAt type c (b * blockSize) hasher →
      b + count ≤ c.numBlocks type blockSize →
      hashChain xxh3 blockSize c.tokenIds count hasher b (c.walkedParent xxh3 type blockSize b) =
        .ok ((range' b count).map (c.walkedKey xxh3 type blockSize)) := by
  intro count
  induction count with
  | zero => intro b hasher _ _; rfl
  | succ count ih =>
    intro b hasher h hn
    have hend : Content.endOf type blockSize b ≤ c.tokenIds.length := by
      have := numHashBlocks_le (Nat.le_trans (by omega : b + 1 ≤ b + (count + 1)) hn)
        (Nat.succ_pos b)
      rw [Nat.succ_mul] at this
      exact this
    have hpos : 0 < blockSize := by
      rcases Nat.eq_zero_or_pos blockSize with rfl | hpos
      · simp only [Content.numBlocks, numHashBlocks, true_or, if_true] at hn
        omega
      · exact hpos
    obtain ⟨hasher', hrun, hat⟩ := compute_spec xxh3 hpos h hordered
      (c.walkedParent xxh3 type blockSize b) hend
    have hrest := ih (b + 1) hasher' hat (by omega)
    rw [← Content.walkedKey_eq] at hrun
    unfold hashChain
    rw [hrun]
    simp only [bind, Except.bind]
    have hparent : c.walkedParent xxh3 type blockSize (b + 1) =
        some (c.walkedKey xxh3 type blockSize b) := rfl
    rw [← hparent, hrest]
    rfl

/-- For items placed left to right the chain keys are the ones of the overlapping items. -/
theorem hashChain_spec (blockSize : Nat) (hplaced : c.Placed type) (count b : Nat)
    (hasher : BlockHasher Key) (h : HasherAt type c (b * blockSize) hasher)
    (hn : b + count ≤ c.numBlocks type blockSize) :
    hashChain xxh3 blockSize c.tokenIds count hasher b (c.parentKey xxh3 type blockSize b) =
      .ok (c.chainKeys xxh3 type blockSize b count) := by
  have hrun := hashChain_walked xxh3 hplaced.restartable count b hasher h hn
  have hkey : c.walkedKey xxh3 type blockSize = c.chainKey xxh3 type blockSize :=
    funext (Content.walkedKey_placed xxh3 hplaced blockSize)
  have hparent : c.walkedParent xxh3 type blockSize b = c.parentKey xxh3 type blockSize b := by
    cases b with
    | zero => rfl
    | succ b => exact congrArg some (congrFun hkey b)
  rwa [hparent, hkey] at hrun

end Compute

/-! ## A key identifies a prefix -/

section Identity

/-- The digest of one block is injective in everything it is taken over. -/
def ChainedHashInjective (xxh3 : HashInput Key → Key) : Prop :=
  ∀ mmHashValues mmHashValues' pre pre' tokenIds tokenIds',
    mmXxh3128bitsHash xxh3 mmHashValues pre tokenIds =
      mmXxh3128bitsHash xxh3 mmHashValues' pre' tokenIds' →
    mmHashValues = mmHashValues' ∧ pre = pre' ∧ tokenIds = tokenIds'

/-- Two contents agree up to the end of block `i`: on the tokens (with the lookahead), and block by
block on the keys of the overlapping items. -/
structure SamePrefix (type : BlockHasherType) (blockSize : Nat) (c c' : Content Key) (i : Nat) :
    Prop where
  tokens : c.tokenIds.take (Content.endOf type blockSize i) =
    c'.tokenIds.take (Content.endOf type blockSize i)
  keys : ∀ k ≤ i, c.coveredKeys type blockSize k = c'.coveredKeys type blockSize k

variable {xxh3 : HashInput Key → Key} {type : BlockHasherType} {blockSize : Nat}

variable {c c' : Content Key} {i : Nat}

/-- Equal keys are keys of the same block, and of blocks that cover the same at every depth. -/
theorem chainKey_inj (hinj : ChainedHashInjective xxh3) :
    ∀ {i j : Nat}, c.chainKey xxh3 type blockSize i = c'.chainKey xxh3 type blockSize j →
      i = j ∧ ∀ k ≤ i, c.coveredTokens type blockSize k = c'.coveredTokens type blockSize k ∧
        c.coveredKeys type blockSize k = c'.coveredKeys type blockSize k := by
  intro i
  induction i with
  | zero =>
    intro j h
    rw [Content.chainKey_eq, Content.chainKey_eq] at h
    obtain ⟨hkeys, hpre, htokens⟩ := hinj _ _ _ _ _ _ h
    cases j with
    | zero =>
      refine ⟨rfl, fun k hk => ?_⟩
      obtain rfl : k = 0 := Nat.le_zero.mp hk
      exact ⟨htokens, hkeys⟩
    | succ j => exact nomatch hpre
  | succ i ih =>
    intro j h
    rw [Content.chainKey_eq, Content.chainKey_eq] at h
    obtain ⟨hkeys, hpre, htokens⟩ := hinj _ _ _ _ _ _ h
    cases j with
    | zero => exact nomatch hpre
    | succ j =>
      obtain ⟨rfl, hbelow⟩ := ih (Option.some.inj hpre)
      refine ⟨rfl, fun k hk => ?_⟩
      rcases Nat.lt_or_eq_of_le hk with hlt | rfl
      · exact hbelow k (Nat.le_of_lt_succ hlt)
      · exact ⟨htokens, hkeys⟩

/-- Tokens that agree slice by slice agree up to the end of the last slice. -/
theorem take_eq_of_covered : ∀ {i : Nat},
    (∀ k ≤ i, c.coveredTokens type blockSize k = c'.coveredTokens type blockSize k) →
      c.tokenIds.take (Content.endOf type blockSize i) =
        c'.tokenIds.take (Content.endOf type blockSize i) := by
  have hsplit : ∀ (l : List Int) (i : Nat), l.take (Content.endOf type blockSize i) =
      l.take (i * blockSize) ++
        (l.drop (i * blockSize)).take (blockSize + blockHashLookahead type) := by
    intro l i
    unfold Content.endOf
    rw [Nat.add_assoc, take_add]
  intro i
  induction i with
  | zero =>
    intro h
    have h0 : (c.tokenIds.drop (0 * blockSize)).take (blockSize + blockHashLookahead type) =
        (c'.tokenIds.drop (0 * blockSize)).take (blockSize + blockHashLookahead type) :=
      h 0 (Nat.le_refl 0)
    rw [hsplit, hsplit, h0, Nat.zero_mul, take_zero, take_zero]
  | succ i ih =>
    intro h
    have hslice : (c.tokenIds.drop ((i + 1) * blockSize)).take
          (blockSize + blockHashLookahead type) =
        (c'.tokenIds.drop ((i + 1) * blockSize)).take (blockSize + blockHashLookahead type) :=
      h (i + 1) (Nat.le_refl _)
    have hbelow := congrArg (List.take ((i + 1) * blockSize))
      (ih fun k hk => h k (Nat.le_succ_of_le hk))
    have hmin : min ((i + 1) * blockSize) (Content.endOf type blockSize i) =
        (i + 1) * blockSize := by
      unfold Content.endOf
      rw [Nat.succ_mul]
      omega
    rw [take_take, take_take, hmin] at hbelow
    rw [hsplit, hsplit, hslice, hbelow]

/-- A key found under another content is a key of the same block of the same prefix. -/
theorem chainKey_samePrefix (hinj : ChainedHashInjective xxh3) {j : Nat}
    (h : c.chainKey xxh3 type blockSize i = c'.chainKey xxh3 type blockSize j) :
    i = j ∧ SamePrefix type blockSize c c' i := by
  obtain ⟨hij, hcovered⟩ := chainKey_inj hinj h
  exact ⟨hij, take_eq_of_covered fun k hk => (hcovered k hk).1, fun k hk => (hcovered k hk).2⟩

end Identity

end Xllm.Framework
