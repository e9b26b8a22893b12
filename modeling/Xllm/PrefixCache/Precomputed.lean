import Xllm.Block.Operations
import Xllm.PrefixCache.Identity

/-!
# Chains that are extended, and precomputed

`extend_prefix_hashes` resumes a chain where the hashes at hand end, and the caches resume it behind
the blocks at hand. Wherever it is resumed, it is the one list of the first hashes of the content
(`Content.walked`).

`match` and `insert` take hashes that were computed before, and compute the chain themselves where the
hashes do not reach. Both give the same keys (`matchKeys_precomputed`, `insertKeys_precomputed`), and
nothing else of the two functions looks at the hashes.
-/

namespace Xllm.Framework

open Xllm.Lib List

variable {Key : Type} (xxh3 : HashInput Key → Key)

/-- A digest that spells out what it is taken over. -/
def spellOut : HashInput (List Int) → List Int
  | .tokens preHashValue tokenIds => preHashValue.getD [] ++ tokenIds
  | .mm hashValue mmHashValues => hashValue ++ mmHashValues.flatten

/-! ## The first hashes of a content -/

section Walked

variable (type : BlockHasherType)

/-- The first `n` hashes, as the hashers compute them. -/
def Content.walked (c : Content Key) (blockSize n : Nat) : List Key :=
  (List.range n).map (c.walkedKey xxh3 type blockSize)

/-- The hashes of a content, extended to one boundary after another. -/
def Content.extendAll (c : Content Key) (blockSize : Nat) (boundaries : List Nat) :
    Except Fatal (List Key) :=
  boundaries.foldlM (fun hashes boundaryBlocks => extendPrefixHashes xxh3 type c.mmItems c.tokenIds
    blockSize boundaryBlocks hashes) []

variable {type} {c : Content Key} {blockSize : Nat} {n : Nat}

namespace Content

@[simp] theorem length_walked : (c.walked xxh3 type blockSize n).length = n := by
  simp [walked]

theorem take_walked {m : Nat} (hm : m ≤ n) :
    (c.walked xxh3 type blockSize n).take m = c.walked xxh3 type blockSize m := by
  rw [walked, ← map_take, take_range, Nat.min_eq_left hm, walked]

theorem getElem?_walked {b : Nat} (hb : b < n) :
    (c.walked xxh3 type blockSize n)[b]? = some (c.walkedKey xxh3 type blockSize b) := by
  simp [walked, hb]

theorem getLast?_walked :
    (c.walked xxh3 type blockSize n).getLast? = c.walkedParent xxh3 type blockSize n := by
  cases n with
  | zero => rfl
  | succ n => simp [walked, walkedParent, range_succ]

/-- Each hash digests what its block covers and the hash before it. -/
theorem walked_entry {b : Nat} {key : Key}
    (hkey : (c.walked xxh3 type blockSize n)[b]? = some key) :
    key = mmXxh3128bitsHash xxh3 (c.walkedKeys type (b * blockSize) (endOf type blockSize b))
      (if b = 0 then none else (c.walked xxh3 type blockSize n)[b - 1]?)
      (c.coveredTokens type blockSize b) := by
  have hb : b < n := by simpa using (List.getElem?_eq_some_iff.mp hkey).1
  rw [getElem?_walked xxh3 hb] at hkey
  rw [← Option.some.inj hkey, walkedKey_eq]
  congr 1
  cases b with
  | zero => rfl
  | succ b => exact (getElem?_walked xxh3 (Nat.lt_of_succ_lt hb)).symm

/-- The chain that resumes at block `b`. -/
theorem hashChain_drop (hordered : Restartable type c.mmItems) {b : Nat} (hb : b ≤ n)
    (hn : n ≤ c.numBlocks type blockSize) :
    hashChain xxh3 blockSize c.tokenIds (n - b)
        (BlockHasher.create type c.mmItems (b * blockSize)) b
        (c.walkedParent xxh3 type blockSize b) =
      .ok ((c.walked xxh3 type blockSize n).drop b) := by
  rw [hashChain_walked xxh3 hordered _ b _ (create_hasherAt type c _) (by omega), walked,
    range_eq_range', ← map_drop, drop_range', Nat.zero_add, Nat.mul_one]

/-- The chain from scratch. -/
theorem hashChain_zero (hordered : Restartable type c.mmItems)
    (hn : n ≤ c.numBlocks type blockSize) :
    hashChain xxh3 blockSize c.tokenIds n (BlockHasher.create type c.mmItems 0) 0 none =
      .ok (c.walked xxh3 type blockSize n) := by
  have hrun := hashChain_drop xxh3 hordered (Nat.zero_le n) hn
  rwa [Nat.zero_mul] at hrun

/-- `extend_prefix_hashes` goes on as far as it can. -/
theorem extendPrefixHashes_walked (hordered : Restartable type c.mmItems)
    (hn : n ≤ c.numBlocks type blockSize) (boundaryBlocks : Nat) :
    extendPrefixHashes xxh3 type c.mmItems c.tokenIds blockSize boundaryBlocks
        (c.walked xxh3 type blockSize n) =
      .ok (c.walked xxh3 type blockSize
        (max n (min boundaryBlocks (c.numBlocks type blockSize)))) := by
  unfold extendPrefixHashes
  rw [length_walked, getLast?_walked]
  show (if blockSize = 0 ∨ min boundaryBlocks (c.numBlocks type blockSize) ≤ n then _ else _) = _
  generalize hm : min boundaryBlocks (c.numBlocks type blockSize) = m
  have hzero : blockSize = 0 → m = 0 := by
    rintro rfl
    simp only [numBlocks, numHashBlocks, true_or, if_true] at hm
    omega
  by_cases hdone : blockSize = 0 ∨ m ≤ n
  · rw [if_pos hdone, Nat.max_eq_left (by omega)]
  · have hmax : max n m = m := by omega
    rw [if_neg hdone, hmax]
    have hle : m ≤ c.numBlocks type blockSize := by omega
    have hrun := hashChain_drop xxh3 hordered (by omega : n ≤ m) hle
    rw [show numHashBlocks type c.tokenIds.length blockSize = c.numBlocks type blockSize from rfl, hm]
    dsimp only
    rw [hrun, ← take_walked xxh3 (by omega : n ≤ m)]
    exact congrArg Except.ok (take_append_drop n _)

/-- Any number of extensions give the first hashes, and all of them once asked for. -/
theorem extendAll_walked (hordered : Restartable type c.mmItems) (boundaries : List Nat) :
    ∃ n ≤ c.numBlocks type blockSize, c.extendAll xxh3 type blockSize boundaries =
        .ok (c.walked xxh3 type blockSize n) ∧
      (c.numBlocks type blockSize ∈ boundaries → n = c.numBlocks type blockSize) := by
  induction boundaries using reverseRecOn with
  | nil => exact ⟨0, Nat.zero_le _, rfl, by simp⟩
  | append_singleton boundaries boundaryBlocks ih =>
    obtain ⟨n, hn, hrun, hall⟩ := ih
    refine ⟨max n (min boundaryBlocks (c.numBlocks type blockSize)), by omega, ?_, fun hmem => ?_⟩
    · unfold extendAll at hrun ⊢
      rw [foldlM_append, hrun, ok_bind, foldlM_cons,
        extendPrefixHashes_walked xxh3 hordered hn boundaryBlocks]
      rfl
    · rcases mem_append.mp hmem with hmem | hmem
      · have := hall hmem
        omega
      · have := mem_singleton.mp hmem
        omega

end Content

end Walked

/-! ## Precomputed hashes -/

/-- The last of `i` shared blocks is stamped with the last hash of their chain. -/
def CarriesChainHash (o : Options) (tokenIds : List Int) (mmItems : List (MMItem Key))
    (b : Option (Block Key)) (i : Nat) : Prop :=
  0 < i → i ≤ numHashBlocks o.hasherType tokenIds.length o.blockSize →
    ∀ chain, extendPrefixHashes xxh3 o.hasherType mmItems tokenIds o.blockSize i [] = .ok chain →
      b.map Block.hashValue = chain.getLast?

variable {o : Options} {tokenIds : List Int} {mmItems : List (MMItem Key)}

section

variable (hordered : Restartable o.hasherType mmItems) {n startBlock nBlocks : Nat}
  (hn : n ≤ Content.numBlocks o.hasherType o.blockSize { tokenIds, mmItems })

include hordered hn

/-- The chain that resumes behind the shared blocks is the slice of the precomputed one. -/
theorem hashChain_resumed (hcover : nBlocks ≤ n) (hlt : startBlock < nBlocks)
    {b : Option (Block Key)} (hb : CarriesChainHash xxh3 o tokenIds mmItems b startBlock) :
    hashChain xxh3 o.blockSize tokenIds (nBlocks - startBlock)
        (BlockHasher.create o.hasherType mmItems (startBlock * o.blockSize)) startBlock
        (if startBlock = 0 then none else b.map Block.hashValue) =
      .ok (((Content.walked xxh3 o.hasherType { tokenIds, mmItems } o.blockSize n).drop
        startBlock).take (nBlocks - startBlock)) := by
  have hstart : startBlock ≤ Content.numBlocks o.hasherType o.blockSize { tokenIds, mmItems } := by
    omega
  have hseed : (if startBlock = 0 then none else b.map Block.hashValue) =
      Content.walkedParent xxh3 o.hasherType o.blockSize { tokenIds, mmItems } startBlock := by
    rcases Nat.eq_zero_or_pos startBlock with rfl | hpos
    · rfl
    have hchain := Content.extendPrefixHashes_walked (c := { tokenIds, mmItems }) xxh3 hordered
      (Nat.zero_le (Content.numBlocks o.hasherType o.blockSize _)) startBlock
    rw [Nat.zero_max, Nat.min_eq_left hstart] at hchain
    rw [if_neg (by omega), hb hpos hstart _ hchain, Content.getLast?_walked]
  rw [hseed, ← List.drop_take, Content.take_walked xxh3 hcover]
  exact Content.hashChain_drop (c := { tokenIds, mmItems }) xxh3 hordered (Nat.le_of_lt hlt)
    (Nat.le_trans hcover hn)

theorem matchKeys_precomputed {existed : List (Block Key)} (hpos : 0 < nBlocks)
    (hb : CarriesChainHash xxh3 o tokenIds mmItems existed.getLast? existed.length) :
    matchKeys xxh3 o tokenIds existed mmItems
        (Content.walked xxh3 o.hasherType { tokenIds, mmItems } o.blockSize n)
        (min existed.length nBlocks) nBlocks =
      matchKeys xxh3 o tokenIds existed mmItems [] (min existed.length nBlocks) nBlocks := by
  unfold matchKeys
  rw [if_neg (Nat.not_le.mpr hpos : ¬ nBlocks ≤ ([] : List Key).length), Content.length_walked]
  split
  · rename_i hcover
    rcases Nat.lt_or_ge existed.length nBlocks with hlt | hge
    · rw [Nat.min_eq_left (Nat.le_of_lt hlt), hashChain_resumed xxh3 hordered hn hcover hlt hb]
    · rw [Nat.min_eq_right hge, Nat.sub_self, take_zero]
      rfl
  · rfl

theorem insertKeys_precomputed {blocks : List (Block Key)} {existedNum : Nat}
    (hlt : existedNum < nBlocks)
    (hb : o.gapTolerant = false →
      CarriesChainHash xxh3 o tokenIds mmItems blocks[existedNum - 1]? existedNum) :
    insertKeys xxh3 o tokenIds blocks existedNum mmItems
        (Content.walked xxh3 o.hasherType { tokenIds, mmItems } o.blockSize n) nBlocks =
      insertKeys xxh3 o tokenIds blocks existedNum mmItems [] nBlocks := by
  unfold insertKeys
  rw [if_neg (Nat.not_le.mpr (Nat.zero_lt_of_lt hlt) : ¬ nBlocks ≤ ([] : List Key).length),
    Content.length_walked]
  split
  · rename_i hcover
    split
    · -- the gap-tolerant cache walks the chain from token 0
      have hrun := Content.hashChain_zero (c := { tokenIds, mmItems }) xxh3 hordered
        (Nat.le_trans hcover hn)
      rw [hrun, ← List.drop_take, Content.take_walked xxh3 hcover]
      rfl
    · rename_i hsolid
      rw [hashChain_resumed xxh3 hordered hn hcover hlt (hb (by simpa using hsolid))]
  · rfl

end

variable [DecidableEq Key] [Inhabited Key]

/-- `match` and `insert` of both caches do the same with the hashes that `extend_prefix_hashes`
computes as with none: they return the same blocks, stamp the same hashes, and leave the same cache
in the same order. The items have to be listed in the order of their ends for the MTP hasher. -/
theorem precomputed_agrees (s : Leaf Key) (tokenIds : List Int) (mmItems : List (MMItem Key))
    (hordered : Restartable s.options.hasherType mmItems) (boundaries : List Nat)
    (blockHashes : List Key)
    (hhashes : Content.extendAll xxh3 s.options.hasherType { tokenIds, mmItems } s.options.blockSize
      boundaries = .ok blockHashes) :
    (∀ existed : List (Block Key),
      CarriesChainHash xxh3 s.options tokenIds mmItems existed.getLast? existed.length →
      s.matchPrefix xxh3 tokenIds existed mmItems blockHashes =
        s.matchPrefix xxh3 tokenIds existed mmItems []) ∧
    ∀ (blocks : List (Block Key)) (existedNum : Nat),
      (s.options.gapTolerant = false →
        CarriesChainHash xxh3 s.options tokenIds mmItems blocks[existedNum - 1]? existedNum) →
      s.insertTokens xxh3 tokenIds blocks existedNum mmItems blockHashes =
        s.insertTokens xxh3 tokenIds blocks existedNum mmItems [] := by
  obtain ⟨n, hn, hrun, -⟩ := Content.extendAll_walked (c := { tokenIds, mmItems }) xxh3 hordered
    boundaries
  obtain rfl := Except.ok.inj (hhashes.symm.trans hrun)
  constructor
  · intro existed hb
    unfold Leaf.matchPrefix
    dsimp only
    split
    · rfl
    · rename_i hpos
      rw [matchKeys_precomputed xxh3 hordered hn (Nat.pos_of_ne_zero hpos) hb]
  · intro blocks existedNum hb
    unfold Leaf.insertTokens
    dsimp only
    congr 1
    funext _
    split
    · rfl
    · rename_i hlt
      rw [insertKeys_precomputed xxh3 hordered hn (Nat.lt_of_not_le hlt) hb]

/-! ## Items out of order -/

def mtpMmOptions : Options := { numBlocks := 4, blockSize := 2, hasherType := .mtpMm }

def stampedBlock (id : Nat) (hashValue : List Int) : Block (List Int) :=
  { id := some id, size := 2, refCount := some id, manager := some 0, hashValue }

/-- One image over the first three tokens. -/
theorem precomputed_agrees_oneImage :
    (Leaf.initial mtpMmOptions 0).matchPrefix spellOut [5, 5, 5, 1, 2]
        [stampedBlock 1 [5, 5, 5, 9]] [⟨0, 3, [9]⟩] [[5, 5, 5, 9], [5, 5, 5, 9, 5, 1, 2, 9]] =
      (Leaf.initial mtpMmOptions 0).matchPrefix spellOut [5, 5, 5, 1, 2]
        [stampedBlock 1 [5, 5, 5, 9]] [⟨0, 3, [9]⟩] [] :=
  (precomputed_agrees spellOut (Leaf.initial mtpMmOptions 0) [5, 5, 5, 1, 2] [⟨0, 3, [9]⟩]
    (fun _ => pairwise_singleton _ _) [1, 7] _ (by decide)).1 _ fun _ _ chain hchain => by
      cases hchain.symm.trans
        (by decide : _ = (.ok [[5, 5, 5, 9]] : Except Fatal (List (List Int))))
      rfl

/-- An item that two merged image runs leave at its default span `(0, 0)` makes the walk pass the
image before it, whose last token the next block looks ahead to. -/
theorem precomputed_disagrees :
    Content.extendAll spellOut .mtpMm ⟨[5, 5, 5, 1, 2], [⟨0, 3, [9]⟩, ⟨0, 0, [8]⟩]⟩ 2 [2] =
        .ok [[5, 5, 5, 9], [5, 5, 5, 9, 5, 1, 2]] ∧
      CarriesChainHash spellOut mtpMmOptions [5, 5, 5, 1, 2] [⟨0, 3, [9]⟩, ⟨0, 0, [8]⟩]
        (some (stampedBlock 1 [5, 5, 5, 9])) 1 ∧
      ((Leaf.initial mtpMmOptions 0).insertTokens spellOut [5, 5, 5, 1, 2]
          [stampedBlock 1 [5, 5, 5, 9], stampedBlock 2 []] 1 [⟨0, 3, [9]⟩, ⟨0, 0, [8]⟩]
          [[5, 5, 5, 9], [5, 5, 5, 9, 5, 1, 2]]).map (·.2.1.map Block.hashValue) =
        .ok [[5, 5, 5, 9], [5, 5, 5, 9, 5, 1, 2]] ∧
      ((Leaf.initial mtpMmOptions 0).insertTokens spellOut [5, 5, 5, 1, 2]
          [stampedBlock 1 [5, 5, 5, 9], stampedBlock 2 []] 1 [⟨0, 3, [9]⟩, ⟨0, 0, [8]⟩]
          []).map (·.2.1.map Block.hashValue) =
        .ok [[5, 5, 5, 9], [5, 5, 5, 9, 5, 1, 2, 9]] := by
  refine ⟨by decide, fun _ _ chain hchain => ?_, by decide, by decide⟩
  cases hchain.symm.trans (by decide : _ = (.ok [[5, 5, 5, 9]] : Except Fatal (List (List Int))))
  rfl

/-! ## Chains extended in steps -/

/-- Extended to any boundaries, one after the other, a chain is the one computed at once; each hash
digests what its block covers and the hash before it. -/
theorem extended_in_steps (type : BlockHasherType) (c : Content Key) (blockSize : Nat)
    (hordered : Restartable type c.mmItems) (boundaries : List Nat) :
    ∃ n ≤ c.numBlocks type blockSize, ∃ hashes,
      c.extendAll xxh3 type blockSize boundaries = .ok hashes ∧
      hashChain xxh3 blockSize c.tokenIds n (BlockHasher.create type c.mmItems 0) 0 none =
        .ok hashes ∧
      (c.numBlocks type blockSize ∈ boundaries → n = c.numBlocks type blockSize) ∧
      ∀ b key, hashes[b]? = some key →
        key = mmXxh3128bitsHash xxh3
          (c.walkedKeys type (b * blockSize) (Content.endOf type blockSize b))
          (if b = 0 then none else hashes[b - 1]?) (c.coveredTokens type blockSize b) := by
  obtain ⟨n, hn, hrun, hall⟩ := Content.extendAll_walked xxh3 hordered boundaries
  exact ⟨n, hn, _, hrun, Content.hashChain_zero xxh3 hordered hn, hall,
    fun b key hkey => Content.walked_entry xxh3 hkey⟩

theorem extended_in_steps_oneImage : ∃ n ≤ 2, ∃ hashes,
    Content.extendAll spellOut .mtpMm ⟨[5, 5, 5, 1, 2], [⟨0, 3, [9]⟩]⟩ 2 [1, 2] = .ok hashes ∧
      hashChain spellOut 2 [5, 5, 5, 1, 2] n (BlockHasher.create .mtpMm [⟨0, 3, [9]⟩] 0) 0 none =
        .ok hashes := by
  obtain ⟨n, hn, hashes, hrun, hchain, -⟩ := extended_in_steps spellOut .mtpMm
    ⟨[5, 5, 5, 1, 2], [⟨0, 3, [9]⟩]⟩ 2 (fun _ => pairwise_singleton _ _) [1, 2]
  exact ⟨n, hn, hashes, hrun, hchain⟩

end Xllm.Framework
