import Xllm.Block.World
import Xllm.PrefixCache.Identity

/-!
# A match serves the blocks of the prefix it was asked for

A prefix cache never sees the tokens of its residents, only their keys. This file relates the two
over whole runs: whenever a node is resident, some insert of the run put it there for block `i` of
some content, with that content's chain key, and it has been resident since
(`node_inserted_since`). With `PrefixCache.Identity` this is what makes a hit safe
(`match_sound_and_deep`): the block at index `i` was inserted for a content that agrees with the
query up to the end of block `i`. The same theorem says how far a match reaches, for the solid and
for the gap-tolerant cache.

A caller of `insert` owes the cache chain keys (`World.Chained`): precomputed hashes that are the
content's, and stamps that are chain keys where the hashes are missing. The items of a content lie
left to right over disjoint positions. Without this the keys of a block depend on where the hasher
started, and a match behind a shared prefix misses what one from the start finds
(`match_behind_shared_misses`).
-/

namespace Xllm.Framework

open Xllm.Lib List

variable {Key : Type} [DecidableEq Key] [Inhabited Key]

section

variable (xxh3 : HashInput Key → Key)

/-! ## Keys under the options of a leaf -/

def Options.keyOf (o : Options) (c : Content Key) (i : Nat) : Key :=
  c.chainKey xxh3 o.hasherType o.blockSize i

/-- The hash of a stamped block that a chain may resume from. -/
def SeededBy (o : Options) (c : Content Key) (b : Option (Block Key)) (i : Nat) : Prop :=
  b.map Block.hashValue = some (o.keyOf xxh3 c i)

variable {o : Options} {c : Content Key}

omit [DecidableEq Key] [Inhabited Key] in
theorem SeededBy.parentKey {b : Option (Block Key)} {i : Nat}
    (h : 0 < i → SeededBy xxh3 o c b (i - 1)) :
    (if i = 0 then none else b.map Block.hashValue) =
      c.parentKey xxh3 o.hasherType o.blockSize i := by
  cases i with
  | zero => rfl
  | succ i =>
    rw [if_neg (Nat.succ_ne_zero i), h (Nat.succ_pos i)]
    rfl

variable {blockHashes : List Key} {nBlocks : Nat}

omit [DecidableEq Key] [Inhabited Key] in
theorem matchKeys_spec (hplaced : c.Placed o.hasherType)
    (hhashes : c.Chained xxh3 o.hasherType o.blockSize blockHashes)
    {existed : List (Block Key)} {startBlock : Nat}
    (hn : nBlocks ≤ c.numBlocks o.hasherType o.blockSize) (hstart : startBlock ≤ nBlocks)
    (hseed : blockHashes.length < nBlocks → startBlock < nBlocks → 0 < startBlock →
      SeededBy xxh3 o c existed.getLast? (startBlock - 1)) :
    matchKeys xxh3 o c.tokenIds existed c.mmItems blockHashes startBlock nBlocks =
      .ok (c.chainKeys xxh3 o.hasherType o.blockSize startBlock (nBlocks - startBlock)) := by
  unfold matchKeys
  split
  · rename_i hcover
    rw [hhashes.slice xxh3 _ _ hcover hstart]
  · by_cases hnone : startBlock = nBlocks
    · subst hnone
      rw [Nat.sub_self]
      rfl
    · rw [SeededBy.parentKey xxh3 (hseed (by omega) (by omega))]
      exact hashChain_spec xxh3 o.blockSize hplaced (nBlocks - startBlock) startBlock _
        (create_hasherAt o.hasherType c _) (by omega)

omit [DecidableEq Key] [Inhabited Key] in
theorem insertKeys_spec (hplaced : c.Placed o.hasherType)
    (hhashes : c.Chained xxh3 o.hasherType o.blockSize blockHashes)
    {blocks : List (Block Key)} {existedNum : Nat}
    (hn : nBlocks ≤ c.numBlocks o.hasherType o.blockSize) (hlt : existedNum < nBlocks)
    (hseed : blockHashes.length < nBlocks → o.gapTolerant = false → 0 < existedNum →
      SeededBy xxh3 o c blocks[existedNum - 1]? (existedNum - 1)) :
    insertKeys xxh3 o c.tokenIds blocks existedNum c.mmItems blockHashes nBlocks =
      .ok (c.chainKeys xxh3 o.hasherType o.blockSize existedNum (nBlocks - existedNum)) := by
  unfold insertKeys
  split
  · rename_i hcover
    rw [hhashes.slice xxh3 _ _ hcover (Nat.le_of_lt hlt)]
  · split
    · -- the gap-tolerant cache walks the chain from token 0
      have hat : HasherAt o.hasherType c (0 * o.blockSize)
          (BlockHasher.create o.hasherType c.mmItems 0) := by
        rw [Nat.zero_mul]
        exact create_hasherAt o.hasherType c 0
      have hrun := hashChain_spec xxh3 o.blockSize hplaced nBlocks 0 _ hat (by omega)
      have hparent : c.parentKey xxh3 o.hasherType o.blockSize 0 = none := rfl
      rw [hparent] at hrun
      rw [hrun]
      simp only [bind, Except.bind, Content.chainKeys, ← map_drop, drop_range',
        Nat.zero_add, Nat.mul_one]
    · rename_i hsolid
      rw [SeededBy.parentKey xxh3 (hseed (by omega) (by simpa using hsolid))]
      exact hashChain_spec xxh3 o.blockSize hplaced (nBlocks - existedNum) existedNum _
        (create_hasherAt o.hasherType c _) (by omega)

/-! ## What a run inserted -/

/-- What a caller of an insert owes the cache. The stamp in front of the inserted blocks is read
only when the hashes do not cover them, and only by the solid cache. -/
def World.Chained (w : World Key) : Op Key → Prop
  | .cacheTokens tokenIds blocks existedNum mmItems blockHashes =>
    let c : Content Key := { tokenIds, mmItems }
    c.Placed w.leaf.options.hasherType ∧
      c.Chained xxh3 w.leaf.options.hasherType w.leaf.options.blockSize blockHashes ∧
      (blockHashes.length < min (c.numBlocks w.leaf.options.hasherType w.leaf.options.blockSize)
          blocks.length → w.leaf.options.gapTolerant = false → 0 < existedNum →
        ∀ a, blocks[existedNum - 1]? = some a →
          SeededBy xxh3 w.leaf.options c w.live[a]? (existedNum - 1))
  | .cacheStamped blocks =>
    ∀ a ∈ blocks, ∀ b, w.live[a]? = some b → b.isValid →
      ∃ c i, b.hashValue = w.leaf.options.keyOf xxh3 c i
  | _ => True

/-- The operation inserts `node` for block `i` of the content, stamped with that block's key. -/
def World.InsertsFor (w : World Key) (op : Op Key) (node : Block Key) (c : Content Key)
    (i : Nat) : Prop :=
  node.hashValue = w.leaf.options.keyOf xxh3 c i ∧
    match op with
    | .cacheTokens tokenIds blocks existedNum mmItems _ =>
      c = { tokenIds, mmItems } ∧ existedNum ≤ i ∧
        i < c.numBlocks w.leaf.options.hasherType w.leaf.options.blockSize ∧
        ∃ a b, blocks[i]? = some a ∧ w.live[a]? = some b ∧ node.handle = b.handle
    | .cacheStamped blocks => node.isValid ∧ ∃ a ∈ blocks, w.live[a]? = some node
    | _ => False

variable {w : World Key} {node : Block Key}

omit [DecidableEq Key] [Inhabited Key] in
theorem World.Chained.insertsFor {op : Op Key}
    (hchained : w.Chained xxh3 op) (h : w.Inserts xxh3 op node) :
    ∃ c i, w.InsertsFor xxh3 op node c i := by
  cases op with
  | cacheTokens tokenIds blocks existedNum mmItems blockHashes =>
    obtain ⟨chosen, hsel, keys, j, key, b, hj, hkeys, hkey, hb, rfl⟩ := h
    obtain ⟨hplaced, hhashes, hseed⟩ := hchained
    obtain ⟨hlen, hget⟩ := getElem?_of_indexSelect hsel
    have hbound : w.leaf.insertBound tokenIds chosen =
        min (({ tokenIds, mmItems } : Content Key).numBlocks w.leaf.options.hasherType
          w.leaf.options.blockSize) blocks.length := by
      rw [hlen]
      rfl
    generalize hn : w.leaf.insertBound tokenIds chosen = n at hj hkeys hbound
    have hspec : insertKeys xxh3 w.leaf.options tokenIds chosen existedNum mmItems blockHashes n =
        .ok (({ tokenIds, mmItems } : Content Key).chainKeys xxh3 w.leaf.options.hasherType
          w.leaf.options.blockSize existedNum (n - existedNum)) := by
      refine insertKeys_spec xxh3 hplaced hhashes (by rw [hbound]; exact Nat.min_le_left _ _)
        (by omega) ?_
      intro hcover hsolid hpos
      have hlt : existedNum - 1 < blocks.length := by omega
      have hlt' : existedNum - 1 < chosen.length := by omega
      have hlive := hget (existedNum - 1) blocks[existedNum - 1] chosen[existedNum - 1]
        (List.getElem?_eq_getElem hlt) (List.getElem?_eq_getElem hlt')
      have hstamp := hseed (hbound ▸ hcover) hsolid hpos _ (List.getElem?_eq_getElem hlt)
      rw [hlive] at hstamp
      rw [List.getElem?_eq_getElem hlt']
      exact hstamp
    rw [hspec, Except.ok.injEq] at hkeys
    subst hkeys
    obtain ⟨-, rfl⟩ := (Content.getElem?_chainKeys xxh3 _ _ _).mp hkey
    have hlt : existedNum + j < blocks.length := by omega
    refine ⟨{ tokenIds, mmItems }, existedNum + j, rfl, rfl, by omega, by omega,
      blocks[existedNum + j], b, List.getElem?_eq_getElem hlt, ?_, rfl⟩
    exact hget _ _ _ (List.getElem?_eq_getElem hlt) hb
  | cacheStamped blocks =>
    obtain ⟨chosen, hsel, hnode, hvalid⟩ := h
    obtain ⟨a, ha, hlive⟩ := mem_of_indexSelect hsel node hnode
    obtain ⟨c, i, hkey⟩ := hchained a ha node hlive hvalid
    exact ⟨c, i, hkey, hvalid, a, ha, hlive⟩
  | _ => exact absurd h (by simp [World.Inserts])

/-- Runs whose callers hand chain keys to the cache. -/
abbrev ChainedRun (s : Leaf Key) (ops : List (Op Key)) (w : World Key) : Prop :=
  ReachesWith (World.step xxh3) (fun w op => w.Chained xxh3 op) { leaf := s } ops w

/-- An insert of the run put `node` into the cache for block `i` of `c`, and it has been resident
since. -/
def InsertedSince (s : Leaf Key) (ops : List (Op Key)) (w : World Key) (node : Block Key)
    (c : Content Key) (i : Nat) : Prop :=
  ReachesSince (World.step xxh3) (fun w op => w.Chained xxh3 op)
    (fun w op => w.InsertsFor xxh3 op node c i) (fun w => node ∈ w.leaf.prefixCache.lruLst)
    { leaf := s } ops w

/-- Every resident was inserted for a block of a content, under that block's key. -/
theorem node_inserted_since {options : Options} {self : Nat} {s : Leaf Key}
    (hinit : Leaf.init options self = .ok s) {ops : List (Op Key)}
    (run : ChainedRun xxh3 s ops w) (hnode : node ∈ w.leaf.prefixCache.lruLst) :
    ∃ c i, node.hashValue = options.keyOf xxh3 c i ∧ InsertedSince xxh3 s ops w node c i := by
  have hempty : s.prefixCache.lruLst = [] := by
    obtain ⟨-, -, rfl⟩ := init_inv hinit
    rfl
  have hsince := run.since (I := World.Kept False options)
    (K := fun (node : Block Key) w => node ∈ w.leaf.prefixCache.lruLst)
    (E := fun node w op => ∃ p : Content Key × Nat, w.InsertsFor xxh3 op node p.1 p.2)
    (fun w op _ h _ hstep => h.step xxh3 (fun hf => absurd hf (by simp)) hstep)
    (by
      intro w op w' h hchained hstep node hn
      obtain ⟨-, -, hadds⟩ :=
        (World.step_spec xxh3 h.sound op (fun hf => absurd hf (by simp))).of_ok hstep
      refine (hadds node hn).imp_right fun hins => ?_
      obtain ⟨c, i, hfor⟩ := hchained.insertsFor xxh3 hins
      exact ⟨(c, i), hfor⟩)
    (.initial hinit) (fun node hn => absurd hn (by simp [hempty])) hnode
  obtain ⟨⟨c, i⟩, hsince⟩ := hsince.of_exists
  obtain ⟨is, t, op, hrun, -, hfor⟩ := hsince.exists_event
  have hkept : t.Kept False options :=
    World.Kept.of_run xxh3 hinit (fun _ _ _ _ hf => absurd hf (by simp)) hrun
  refine ⟨c, i, ?_, hsince⟩
  rw [← hkept.options]
  exact hfor.1

/-! ## How far a match reaches -/

omit xxh3 [Inhabited Key] in
/-- A key some node is stamped with. -/
def Leaf.ResidentKey (s : Leaf Key) (key : Key) : Prop :=
  ∃ node ∈ s.prefixCache.lruLst, node.hashValue = key

/-- The blocks of the keys from `start` on, as long as they are resident. -/
structure LongestRun (s : Leaf Key) (keyAt : Nat → Key) (start n : Nat)
    (found : List (Block Key)) : Prop where
  bound : start + found.length ≤ n
  resident : ∀ j b, found[j]? = some b →
    b ∈ s.prefixCache.lruLst ∧ b.hashValue = keyAt (start + j)
  maximal : start + found.length < n → ¬ s.ResidentKey (keyAt (start + found.length))

/-- For the keys from `start` on, the block of each or a placeholder, up to the deepest resident
one. -/
structure DeepestProbe (s : Leaf Key) (keyAt : Nat → Key) (start n : Nat)
    (found : List (Block Key)) : Prop where
  bound : start + found.length ≤ n
  resident : ∀ j b, found[j]? = some b →
    (b.isValid = true ↔ s.ResidentKey (keyAt (start + j))) ∧
      (b.isValid = true → b ∈ s.prefixCache.lruLst ∧ b.hashValue = keyAt (start + j))
  endsAtHit : ∀ b, found.getLast? = some b → b.isValid = true
  deepest : ∀ i, start + found.length ≤ i → i < n → ¬ s.ResidentKey (keyAt i)

end

section Reach

variable {c : PrefixCache Key} {key : Key}

variable {s : Leaf Key}

omit [Inhabited Key] in
theorem Registered.resident_iff (h : Registered s.prefixCache) :
    s.ResidentKey key ↔ ∃ node, s.prefixCache.cachedBlocks.lookup key = some node := by
  constructor
  · rintro ⟨node, hn, hkey⟩
    exact ⟨node, (h.lookup key node).mpr ⟨hn, hkey⟩⟩
  · rintro ⟨node, hlookup⟩
    obtain ⟨hn, hkey⟩ := (h.lookup key node).mp hlookup
    exact ⟨node, hn, hkey⟩

omit [Inhabited Key] in
theorem residentRun_spec (cachedBlocks : AList (fun _ : Key => Block Key)) :
    ∀ keys : List Key, (residentRun cachedBlocks keys).length ≤ keys.length ∧
      (∀ (j : Nat) (b : Block Key), (residentRun cachedBlocks keys)[j]? = some b →
        ∃ key : Key, keys[j]? = some key ∧ cachedBlocks.lookup key = some b) ∧
      ∀ key : Key, keys[(residentRun cachedBlocks keys).length]? = some key →
        cachedBlocks.lookup key = none := by
  intro keys
  induction keys with
  | nil => exact ⟨Nat.le_refl _, fun j b h => (by cases h), by simp⟩
  | cons key keys ih =>
    unfold residentRun
    cases hkey : cachedBlocks.lookup key with
    | none =>
      refine ⟨Nat.zero_le _, fun j b h => (by cases h), fun key' h => ?_⟩
      obtain rfl : key = key' := by simpa using h
      exact hkey
    | some node =>
      obtain ⟨hlen, hget, hmiss⟩ := ih
      refine ⟨Nat.succ_le_succ hlen, ?_, fun key' h => hmiss key' h⟩
      intro j b h
      cases j with
      | zero =>
        obtain rfl : node = b := by simpa using h
        exact ⟨key, rfl, hkey⟩
      | succ j => exact hget j b h

variable (xxh3 : HashInput Key → Key)

variable {start n : Nat}

omit [Inhabited Key] in
/-- The solid walk over a content's chain keys is the longest run of residents. -/
theorem residentRun_longest (h : Registered s.prefixCache) (q : Content Key) (hstart : start ≤ n) :
    LongestRun s (s.options.keyOf xxh3 q) start n (residentRun s.prefixCache.cachedBlocks
      (q.chainKeys xxh3 s.options.hasherType s.options.blockSize start (n - start))) := by
  obtain ⟨hlen, hget, hmiss⟩ := residentRun_spec s.prefixCache.cachedBlocks
    (q.chainKeys xxh3 s.options.hasherType s.options.blockSize start (n - start))
  generalize residentRun s.prefixCache.cachedBlocks _ = found at hlen hget hmiss ⊢
  rw [Content.length_chainKeys] at hlen
  constructor
  case bound => omega
  case resident =>
    intro j b hj
    obtain ⟨key, hkey, hlookup⟩ := hget j b hj
    obtain ⟨-, rfl⟩ := (Content.getElem?_chainKeys xxh3 _ _ _).mp hkey
    exact (h.lookup _ b).mp hlookup
  case maximal =>
    intro hlt hres
    have hnone := hmiss _ ((Content.getElem?_chainKeys xxh3 _ _ _).mpr ⟨by omega, rfl⟩)
    obtain ⟨node, hlookup⟩ := h.resident_iff.mp hres
    rw [show s.options.keyOf xxh3 q = q.chainKey xxh3 s.options.hasherType s.options.blockSize
      from rfl, hnone] at hlookup
    cases hlookup

/-- The gap-tolerant walk answers for every position up to the deepest resident one. -/
theorem residentProbe_deepest (h : Registered s.prefixCache)
    (hvalid : ∀ node ∈ s.prefixCache.lruLst, node.isValid = true) (q : Content Key)
    (hstart : start ≤ n) {existed : List (Block Key)} (hlen : existed.length = start) :
    ∃ found, (existed ++ residentProbe s.prefixCache.cachedBlocks
        (q.chainKeys xxh3 s.options.hasherType s.options.blockSize start (n - start))).take
          (keepBlocks (lastResident s.prefixCache.cachedBlocks
            (q.chainKeys xxh3 s.options.hasherType s.options.blockSize start (n - start)) start
            none) start) = existed ++ found ∧
      DeepestProbe s (s.options.keyOf xxh3 q) start n found := by
  generalize hkeys : q.chainKeys xxh3 s.options.hasherType s.options.blockSize start (n - start) =
    keys
  have hget : ∀ {j : Nat} {key : Key}, keys[j]? = some key ↔
      j < n - start ∧ key = s.options.keyOf xxh3 q (start + j) := by
    intro j key
    rw [← hkeys]
    exact Content.getElem?_chainKeys xxh3 _ _ _
  have hklen : keys.length = n - start := by rw [← hkeys, Content.length_chainKeys]
  -- what one position of the probe says
  have hpos : ∀ j b, (residentProbe s.prefixCache.cachedBlocks keys)[j]? = some b →
      (b.isValid = true ↔ s.ResidentKey (s.options.keyOf xxh3 q (start + j))) ∧
        (b.isValid = true →
          b ∈ s.prefixCache.lruLst ∧ b.hashValue = s.options.keyOf xxh3 q (start + j)) := by
    intro j b hj
    unfold residentProbe at hj
    rw [List.getElem?_map, Option.map_eq_some_iff] at hj
    obtain ⟨key, hkey, rfl⟩ := hj
    obtain ⟨-, rfl⟩ := hget.mp hkey
    cases hlookup : s.prefixCache.cachedBlocks.lookup (s.options.keyOf xxh3 q (start + j)) with
    | none =>
      refine ⟨⟨nofun, fun hres => ?_⟩,
        nofun⟩
      obtain ⟨node, hnode⟩ := h.resident_iff.mp hres
      rw [hlookup] at hnode
      cases hnode
    | some node =>
      have hnode := (h.lookup _ node).mp hlookup
      exact ⟨⟨fun _ => ⟨node, hnode⟩, fun _ => hvalid node hnode.1⟩, fun _ => hnode⟩
  have hmiss : ∀ {key : Key}, s.prefixCache.cachedBlocks.lookup key = none →
      ¬ s.ResidentKey key := by
    intro key hnone hres
    obtain ⟨node, hnode⟩ := h.resident_iff.mp hres
    rw [hnone] at hnode
    cases hnode
  rcases lastResident_spec s.prefixCache.cachedBlocks keys start none with
    ⟨hlast, hnone⟩ | ⟨j, key, hlast, hkey, hsome, hnone⟩
  · refine ⟨[], ?_, ?_⟩
    · rw [hlast]
      unfold keepBlocks
      rw [append_nil, take_append_of_le_length (Nat.le_of_eq hlen.symm),
        take_of_length_le (Nat.le_of_eq hlen)]
    · constructor
      case bound => exact hstart
      case resident => intro j b hj; exact nomatch hj
      case endsAtHit => intro b hb; exact nomatch hb
      case deepest =>
        intro i hi hn
        have hidx : start + (i - start) = i := by omega
        have hki : keys[i - start]? = some (s.options.keyOf xxh3 q i) :=
          hget.mpr ⟨by omega, by rw [hidx]⟩
        exact hmiss (hnone _ (mem_of_getElem? hki))
  · obtain ⟨hj, rfl⟩ := hget.mp hkey
    have hplen : (residentProbe s.prefixCache.cachedBlocks keys).length = n - start := by
      unfold residentProbe
      rw [length_map, hklen]
    have hflen : ((residentProbe s.prefixCache.cachedBlocks keys).take (j + 1)).length = j + 1 := by
      rw [length_take, hplen]
      omega
    refine ⟨(residentProbe s.prefixCache.cachedBlocks keys).take (j + 1), ?_, ?_⟩
    · rw [hlast]
      unfold keepBlocks
      dsimp only
      have hsum : start + j + 1 = existed.length + (j + 1) := by omega
      rw [hsum, take_length_add_append]
    · constructor
      case bound => omega
      case resident =>
        intro k b hk
        rw [List.getElem?_take] at hk
        split at hk
        · exact hpos k b hk
        · cases hk
      case endsAtHit =>
        intro b hb
        rw [List.getLast?_eq_getElem?, hflen, Nat.add_sub_cancel,
          List.getElem?_take_of_lt (Nat.lt_succ_self j)] at hb
        refine (hpos j b hb).1.mpr (h.resident_iff.mpr ?_)
        exact Option.isSome_iff_exists.mp hsome
      case deepest =>
        intro i hi hn
        have hidx : start + (i - start) = i := by omega
        have hki : keys[i - start]? = some (s.options.keyOf xxh3 q i) :=
          hget.mpr ⟨by omega, by rw [hidx]⟩
        have hdrop : (keys.drop (j + 1))[i - start - (j + 1)]? =
            some (s.options.keyOf xxh3 q i) := by
          have hsum : j + 1 + (i - start - (j + 1)) = i - start := by omega
          rw [List.getElem?_drop, hsum, hki]
        exact hmiss (hnone _ (mem_of_getElem? hdrop))

end Reach

/-! ## What a match serves -/

section

variable (xxh3 : HashInput Key → Key)

/-- `b` may stand for block `i` of the query: it was inserted for block `i` of a content that agrees
with the query up to the end of that block, and has been resident since. -/
def Served (options : Options) (s : Leaf Key) (ops : List (Op Key)) (w : World Key)
    (q : Content Key) (b : Block Key) (i : Nat) : Prop :=
  Content.endOf options.hasherType options.blockSize i ≤ q.tokenIds.length ∧
    ∃ c, InsertedSince xxh3 s ops w b c i ∧
      SamePrefix options.hasherType options.blockSize c q i

theorem served_of_resident (hinj : ChainedHashInjective xxh3) {options : Options} {self : Nat}
    {s : Leaf Key} (hinit : Leaf.init options self = .ok s) {ops : List (Op Key)} {w : World Key}
    (run : ChainedRun xxh3 s ops w) {q : Content Key} {b : Block Key} {i : Nat}
    (hi : i < q.numBlocks options.hasherType options.blockSize)
    (hnode : b ∈ w.leaf.prefixCache.lruLst) (hkey : b.hashValue = options.keyOf xxh3 q i) :
    Served xxh3 options s ops w q b i := by
  obtain ⟨c, j, hcj, hsince⟩ := node_inserted_since xxh3 hinit run hnode
  have hsame : options.keyOf xxh3 c j = options.keyOf xxh3 q i := hcj.symm.trans hkey
  obtain ⟨rfl, hprefix⟩ := chainKey_samePrefix hinj hsame
  refine ⟨?_, c, hsince, hprefix⟩
  have := numHashBlocks_le (Nat.succ_le_of_lt hi) (Nat.succ_pos j)
  rw [Nat.succ_mul] at this
  exact this

/-- In every world reached by a run whose inserts carry chain keys, for every query and shared
prefix: a match succeeds; every valid block it returns serves the query at its index (the shared
ones if they did before); after the shared prefix the solid cache returns the longest run of
residents, and the gap-tolerant one an answer for each position up to the deepest resident. -/
theorem match_sound_and_deep (hinj : ChainedHashInjective xxh3) (options : Options) (self : Nat)
    (s : Leaf Key) (hinit : Leaf.init options self = .ok s) (ops : List (Op Key)) (w : World Key)
    (run : ChainedRun xxh3 s ops w) (q : Content Key) (hplaced : q.Placed options.hasherType)
    (existed : List (Block Key)) (hexisted : ∀ b ∈ existed, b ∈ w.live) (blockHashes : List Key)
    (hhashes : q.Chained xxh3 options.hasherType options.blockSize blockHashes)
    (hseed : blockHashes.length < q.numBlocks options.hasherType options.blockSize →
      existed.length < q.numBlocks options.hasherType options.blockSize → 0 < existed.length →
        SeededBy xxh3 options q existed.getLast? (existed.length - 1)) :
    ∃ s' blocks found,
      w.leaf.matchPrefix xxh3 q.tokenIds existed q.mmItems blockHashes = .ok (s', blocks) ∧
      blocks = existed.take (q.numBlocks options.hasherType options.blockSize) ++ found ∧
      (∀ i b, blocks[i]? = some b → b.isValid = true →
        (i < existed.length → Served xxh3 options s ops w q b i) →
          Served xxh3 options s ops w q b i) ∧
      (options.gapTolerant = false → LongestRun w.leaf (options.keyOf xxh3 q)
        (min existed.length (q.numBlocks options.hasherType options.blockSize))
        (q.numBlocks options.hasherType options.blockSize) found) ∧
      (options.gapTolerant = true → DeepestProbe w.leaf (options.keyOf xxh3 q)
        (min existed.length (q.numBlocks options.hasherType options.blockSize))
        (q.numBlocks options.hasherType options.blockSize) found) := by
  -- placeholders can only enter a solid cache, so a gap-tolerant one holds valid nodes
  have hkept : w.Kept (options.gapTolerant = true) options := by
    refine World.Kept.of_run xxh3 hinit (fun w op h _ hgap => ?_) run
    cases op with
    | cacheTokens tokenIds blocks existedNum mmItems blockHashes =>
      intro hsolid
      rw [h.options, hgap] at hsolid
      cases hsolid
    | _ => trivial
  have hregistered := hkept.sound.conserved.registered
  have hoptions := hkept.options
  obtain ⟨s', blocks, hrun, -, hm⟩ := matchPrefix_spec xxh3 hkept.sound q.tokenIds existed
    (fun b hb => mem_map_of_mem (hexisted b hb)) q.mmItems blockHashes
  generalize hn : q.numBlocks options.hasherType options.blockSize = n at *
  have hnum : numHashBlocks w.leaf.options.hasherType q.tokenIds.length
      w.leaf.options.blockSize = n := by
    rw [hoptions]
    exact hn
  have htake : existed.take n = existed.take (min existed.length n) := by
    rw [take_eq_take_iff]
    omega
  have htakelen : (existed.take n).length = min existed.length n := by
    rw [length_take, Nat.min_comm]
  obtain ⟨found, hblocks, hsolid, hgap⟩ : ∃ found, blocks = existed.take n ++ found ∧
      (options.gapTolerant = false →
        LongestRun w.leaf (options.keyOf xxh3 q) (min existed.length n) n found) ∧
      (options.gapTolerant = true →
        DeepestProbe w.leaf (options.keyOf xxh3 q) (min existed.length n) n found) := by
    rcases Nat.eq_zero_or_pos n with rfl | hpos
    · refine ⟨[], by rw [hm.empty hnum]; rfl, fun _ => ?_, fun _ => ?_⟩
      · exact ⟨Nat.min_le_right _ _, fun j b hj => (nomatch hj),
          nofun⟩
      · exact ⟨Nat.min_le_right _ _, fun j b hj => (nomatch hj),
          fun b hb => (nomatch hb), fun i _ hlt => nomatch hlt⟩
    · obtain ⟨keys, hkeys, hfound⟩ := hm.found n hnum hpos
      have hspec : matchKeys xxh3 options q.tokenIds existed q.mmItems blockHashes
          (min existed.length n) n = .ok (q.chainKeys xxh3 options.hasherType options.blockSize
            (min existed.length n) (n - min existed.length n)) := by
        refine matchKeys_spec xxh3 hplaced hhashes (Nat.le_of_eq hn.symm)
          (Nat.min_le_right existed.length n) ?_
        intro hcover hlt h0
        have hmin : min existed.length n = existed.length := by omega
        rw [hmin] at h0 ⊢
        exact hseed hcover (by omega) h0
      rw [hoptions, hspec, Except.ok.injEq] at hkeys
      subst hkeys
      unfold matchedBlocks at hfound
      rw [hoptions] at hfound
      cases hg : options.gapTolerant with
      | false =>
        rw [hg, if_neg (by simp), ← htake] at hfound
        refine ⟨_, hfound, fun _ => ?_, nofun⟩
        rw [← hoptions]
        exact residentRun_longest xxh3 hregistered q (Nat.min_le_right _ _)
      | true =>
        have hvalid := (hkept.sound.accounted hg).valid
        obtain ⟨found, hsplit, hdeep⟩ := residentProbe_deepest xxh3 hregistered hvalid q
          (Nat.min_le_right existed.length n) htakelen
        rw [hg, if_pos rfl, ← htake, ← hoptions, hsplit] at hfound
        refine ⟨found, hfound, nofun, fun _ => ?_⟩
        rw [← hoptions]
        exact hdeep
  refine ⟨s', blocks, found, hrun, hblocks, ?_, hsolid, hgap⟩
  intro i b hi hvalid hshared
  by_cases hlt : i < min existed.length n
  · exact hshared (by omega)
  · rw [hblocks, List.getElem?_append_right (by omega), htakelen] at hi
    have hidx : min existed.length n + (i - min existed.length n) = i := by omega
    have hlen := (List.getElem?_eq_some_iff.mp hi).1
    cases hg : options.gapTolerant with
    | false =>
      have hres := (hsolid hg).resident _ b hi
      have hbound := (hsolid hg).bound
      rw [hidx] at hres
      exact served_of_resident xxh3 hinj hinit run (by omega) hres.1 hres.2
    | true =>
      have hres := ((hgap hg).resident _ b hi).2 hvalid
      have hbound := (hgap hg).bound
      rw [hidx] at hres
      exact served_of_resident xxh3 hinj hinit run (by omega) hres.1 hres.2

end

/-! ## An injective digest -/

/-- A digest that forgets nothing. -/
def encodeHashInput : HashInput Nat → Nat
  | .tokens preHashValue tokenIds =>
    Encodable.encode (Sum.inl (preHashValue, tokenIds) : (Option Nat × List Int) ⊕ (Nat × List Nat))
  | .mm hashValue mmHashValues =>
    Encodable.encode (Sum.inr (hashValue, mmHashValues) : (Option Nat × List Int) ⊕ (Nat × List Nat))

theorem encodeHashInput_injective : ChainedHashInjective encodeHashInput := by
  intro keys keys' pre pre' tokenIds tokenIds' h
  cases keys with
  | nil =>
    cases keys' with
    | nil =>
      have := Encodable.encode_injective h
      simp only [Sum.inl.injEq, Prod.mk.injEq] at this
      exact ⟨rfl, this⟩
    | cons key' keys' => exact nomatch Encodable.encode_injective h
  | cons key keys =>
    cases keys' with
    | nil => exact nomatch Encodable.encode_injective h
    | cons key' keys' =>
      have hmm := Encodable.encode_injective h
      simp only [Sum.inr.injEq, Prod.mk.injEq] at hmm
      have htext := Encodable.encode_injective hmm.1
      simp only [Sum.inl.injEq, Prod.mk.injEq] at htext
      exact ⟨hmm.2, htext⟩

/-- One block is inserted for two tokens, and a query that goes on after them finds it. -/
theorem match_sound_and_deep_hit :
    ∃ s : Leaf Nat, Leaf.init { numBlocks := 4, blockSize := 2 } 0 = .ok s ∧
      ∃ w, ChainedRun encodeHashInput s [.allocate 1, .cacheTokens [1, 2] [0] 0 [] []] w ∧
        ∃ s' blocks, w.leaf.matchPrefix encodeHashInput [1, 2, 3, 4] [] [] [] = .ok (s', blocks) ∧
          (∀ i b, blocks[i]? = some b → b.isValid = true →
            Served encodeHashInput { numBlocks := 4, blockSize := 2 } s
              [.allocate 1, .cacheTokens [1, 2] [0] 0 [] []] w
              { tokenIds := [1, 2, 3, 4], mmItems := [] } b i) ∧
          LongestRun w.leaf (Options.keyOf encodeHashInput { numBlocks := 4, blockSize := 2 }
            { tokenIds := [1, 2, 3, 4], mmItems := [] }) 0 2 blocks := by
  have hinit : Leaf.init { numBlocks := 4, blockSize := 2 } 0 =
      .ok (Leaf.initial { numBlocks := 4, blockSize := 2 } 0 : Leaf Nat) :=
    init_eq _ 0 (by decide) (by decide)
  obtain ⟨w, run⟩ := Reaches.of_isOk (World.step encodeHashInput)
    { leaf := Leaf.initial { numBlocks := 4, blockSize := 2 } 0 }
    [.allocate 1, .cacheTokens [1, 2] [0] 0 [] []] rfl
  have noItems : ∀ type : BlockHasherType, ∀ tokenIds : List Int,
      ({ tokenIds, mmItems := [] } : Content Nat).Placed type := by
    intro type tokenIds
    unfold Content.Placed Content.items
    split <;> exact List.Pairwise.nil
  have chained : ChainedRun encodeHashInput _ _ w := run.acceptable (by
    intro op hop t
    simp only [mem_cons, not_mem_nil, or_false] at hop
    rcases hop with rfl | rfl
    · trivial
    · exact ⟨noItems _ _, fun i key h => (nomatch h), nofun⟩)
  obtain ⟨s', blocks, found, hrun, hblocks, hserved, hsolid, -⟩ :=
    match_sound_and_deep encodeHashInput encodeHashInput_injective _ 0 _ hinit _ w chained
      { tokenIds := [1, 2, 3, 4], mmItems := [] } (noItems _ _) [] (by simp) []
      (fun i key h => nomatch h) (nofun)
  obtain rfl : blocks = found := hblocks
  exact ⟨_, hinit, w, chained, s', blocks, hrun,
    fun i b hi hv => hserved i b hi hv (nofun), hsolid rfl⟩

/-! ## Items that touch -/

def touchingOptions : Options := { numBlocks := 4, blockSize := 4, hasherType := .mtpMm }

/-- Two images that touch: `find_mm_spans` leaves the span (0, 0) to the second. -/
def touchingItems : List (MMItem Nat) := [⟨0, 5, 7⟩, ⟨0, 0, 8⟩]

/-- Two blocks are allocated and inserted for a content with these items. -/
def touchingOps : List (Op Nat) :=
  [.allocate 2, .cacheTokens (replicate 9 1) [0, 1] 0 touchingItems []]

/-- A match of the inserted content returns both blocks, and one that starts behind the first of them
misses the second: the hasher made for block 1 finds the item that reaches into it, and the one that
walked over block 0 has passed it together with the empty span. -/
theorem match_behind_shared_misses :
    ∃ s : Leaf Nat, Leaf.init touchingOptions 0 = .ok s ∧
      ∃ w b₀ b₁, Reaches (World.step encodeHashInput) { leaf := s } touchingOps w ∧
        w.live = [b₀, b₁] ∧
        (w.leaf.matchPrefix encodeHashInput (replicate 9 1) [] touchingItems []).map Prod.snd =
          .ok [b₀, b₁] ∧
        (w.leaf.matchPrefix encodeHashInput (replicate 9 1) [b₀] touchingItems []).map Prod.snd =
          .ok [b₀] := by
  refine ⟨_, init_eq touchingOptions 0 (by decide) (by decide), ?_⟩
  have hcheck : (touchingOps.foldlM (World.step encodeHashInput)
      { leaf := Leaf.initial touchingOptions 0 }).map (fun w => decide
        ((w.leaf.matchPrefix encodeHashInput (replicate 9 1) [] touchingItems []).map Prod.snd =
            .ok w.live ∧
          (w.leaf.matchPrefix encodeHashInput (replicate 9 1) (w.live.take 1) touchingItems []).map
            Prod.snd = .ok (w.live.take 1) ∧ w.live.length = 2)) = .ok true := by
    decide +kernel
  generalize hrun : touchingOps.foldlM (World.step encodeHashInput) _ = result at hcheck
  cases result with
  | error failure => exact nomatch hcheck
  | ok w =>
    obtain ⟨hboth, hfirst, hlive⟩ := of_decide_eq_true (Except.ok.inj hcheck)
    obtain ⟨b₀, b₁, hlive⟩ := length_eq_two.mp hlive
    rw [hlive] at hboth hfirst
    exact ⟨w, b₀, b₁, .of_foldlM hrun, hlive, hboth, hfirst⟩

end Xllm.Framework
