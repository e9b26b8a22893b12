import Xllm.Block.LinearStateBlockManager

/-!
# What one growth does to a sequence's slots

The role of a slot is its position, so the invariant of a sequence (`SlotInv`) is about positions:
of two slots the back one is private, and a single resident slot belongs to a sequence that has not
run since it was mounted or published, and stands for the checkpoint the sequence is at.

`Leaf.SlotSafe` says, of the state before a growth, that the growth does not turn a resident slot
into the write slot. One growth keeps the invariant when it is safe, and its write slot is private
exactly when it is (`allocateForSequence_spec`); whether safe or not, it never publishes a block
that is registered under another key.
-/

namespace Xllm.Framework

open Xllm.Lib List

variable {Key : Type} [DecidableEq Key]

/-! ## The invariant of a sequence -/

/-- The block is registered under the key of the last checkpoint of the cached tokens. -/
def Leaf.Anchored (s : Leaf Key) (seq : LinearSequence Key) (b : Block Key) : Prop :=
  ∃ node ∈ s.prefixCache.lruLst, node.id = b.id ∧
    seq.blockHashes[seq.kvCacheTokensNum / s.options.blockSize - 1]? = some node.hashValue

structure SlotInv (s : Leaf Key) (seq : LinearSequence Key) : Prop where
  length : seq.linearBlocks.length ≤ 2
  valid : ∀ b ∈ seq.linearBlocks, b.isValid = true
  running : seq.scheduled = true → seq.linearBlocks ≠ []
  back : ∀ f b, seq.linearBlocks = [f, b] → ¬ s.Resident b
  single : ∀ b, seq.linearBlocks = [b] → s.Resident b →
    seq.scheduled = false ∧ s.Anchored seq b

/-- Decode swaps the two slots: no checkpoint was completed, or the completed one has to come to
the front for the offload. -/
def Leaf.swapsSlots (s : Leaf Key) (seq : LinearSequence Key) (acceptedLength : Nat) : Prop :=
  (lastDecodeStepCheckpointRow seq.kvCacheTokensNum acceptedLength
    s.options.blockSize).isSome = true →
      s.options.preserveDecodeCheckpoint = true ∧ s.options.enableScheduleOverlap = false

/-- The next decode step may cross a checkpoint. -/
def Leaf.predictsCheckpoint (s : Leaf Key) (seq : LinearSequence Key) : Prop :=
  crossesCheckpoint seq.kvCacheTokensNum
    (seq.kvCacheTokensNum + s.options.numSpeculativeTokens + 1) s.options.blockSize = true

def Leaf.canSupply (s : Leaf Key) : Prop := 0 < s.numFreeBlocks + s.numEvictableBlocks

/-- A growth from this state does not write a resident slot: a single resident slot is followed by a
new one, and no swap brings a resident slot to the back. -/
def Leaf.SlotSafe (s : Leaf Key) (seq : LinearSequence Key) (restoreTokens acceptedLength : Nat) :
    Prop :=
  if seq.isPrefillStage restoreTokens = true then
    ∀ b, seq.linearBlocks = [b] → s.Resident b → restoreTokens ≤ seq.kvCacheTokensNum →
      s.canSupply
  else
    (∀ b, seq.linearBlocks = [b] → s.Resident b → s.predictsCheckpoint seq ∧ s.canSupply) ∧
      ∀ f b, seq.linearBlocks = [f, b] → s.swapsSlots seq acceptedLength → ¬ s.Resident f

theorem SlotInv.nil (s : Leaf Key) {seq : LinearSequence Key} (h : seq.linearBlocks = [])
    (hidle : seq.scheduled = false) : SlotInv s seq := by
  constructor
  case running => intro hs; rw [hidle] at hs; exact nomatch hs
  case length => rw [h]; simp
  case valid => intro b hb; rw [h] at hb; exact nomatch hb
  case back => intro f b hb; rw [h] at hb; exact nomatch hb
  case single => intro b hb; rw [h] at hb; exact nomatch hb

variable {s s' : Leaf Key} {seq seq' : LinearSequence Key} {ext ext' : List Handle} {acc acc' : Prop}
  {P : Block Key → Prop} {live : List (Block Key)}

variable {e e' : List Handle}

theorem SlotInv.evolve (h : SlotInv s seq) (he : s.Evolves s' ext P)
    (hs : Sound acc s e) (hs' : Sound acc' s' e') (hmem : ∀ b ∈ seq.linearBlocks, b.handle ∈ ext)
    (hnew : ∀ b ∈ seq.linearBlocks, ¬ s.Resident b → ∀ node, P node → node.id ≠ b.id) :
    SlotInv s' seq := by
  have hback : ∀ b ∈ seq.linearBlocks, s'.Resident b → s.Resident b := by
    intro b hb hr
    by_contra hn
    exact he.not_resident hs hs' (hnew b hb hn) hn hr
  refine ⟨h.length, h.valid, h.running, fun f b hfb hr => ?_, fun b hb hr => ?_⟩
  · exact h.back f b hfb (hback b (by rw [hfb]; simp) hr)
  · have hbmem : b ∈ seq.linearBlocks := by rw [hb]; simp
    obtain ⟨hsched, node, hn, hid, hhash⟩ := h.single b hb (hback b hbmem hr)
    refine ⟨hsched, node, he.kept node hn ⟨b.handle, hmem b hbmem, hid.symm⟩, hid, ?_⟩
    rw [he.frame.options]
    exact hhash

/-! ## Results of a growth -/

/-- What a growth leaves of a sequence's slots: those it kept, and new blocks nobody else has. -/
structure Slots (s s' : Leaf Key) (seq seq' : LinearSequence Key) (grown live : List (Block Key)) :
    Prop where
  sound : Sound True s' (grown.map Block.handle ++
    (seq'.linearBlocks.map Block.handle ++ live.map Block.handle))
  evolves : s.Evolves s' (seq'.linearBlocks.map Block.handle ++ live.map Block.handle)
    (fun node => ∃ b ∈ seq.linearBlocks, node.handle = b.handle)
  subperm : (seq'.linearBlocks.map Block.handle).Subperm (seq.linearBlocks.map Block.handle)
  fresh : Fresh grown (seq'.linearBlocks.map Block.handle ++ live.map Block.handle)
  unregistered : ∀ b ∈ grown, ¬ s'.Resident b

/-- The write slot after a growth that succeeded is private exactly when the growth was safe. -/
structure Writes (s' : Leaf Key) (seq' : LinearSequence Key) (grown : List (Block Key))
    (safe : Prop) : Prop where
  length : (seq'.linearBlocks ++ grown).length ≤ 2
  last : ∃ b, (seq'.linearBlocks ++ grown).getLast? = some b ∧ b.isValid = true ∧
    (¬ s'.Resident b ↔ safe)

/-- The specification of a growth; `none` is a refusal. -/
structure Grew (s : Leaf Key) (seq : LinearSequence Key) (safe : Prop) (live : List (Block Key))
    (r : Leaf Key × LinearSequence Key × Option (List (Block Key))) : Prop where
  slots : Slots s r.1 seq r.2.1 (r.2.2.getD []) live
  rest : safe → SlotInv r.1 { r.2.1 with scheduled := false }
  writes : ∀ grown, r.2.2 = some grown → Writes r.1 r.2.1 grown safe

/-! ## Releasing and publishing -/

theorem Sound.releaseAll_evolves : ∀ {blocks : List (Block Key)} {s : Leaf Key},
    Sound acc s (blocks.map Block.handle ++ ext) →
    ∃ s', s.releaseAll blocks = .ok s' ∧ Sound acc s' ext ∧ ∀ ext', s.Evolves s' ext' P := by
  intro blocks
  induction blocks with
  | nil =>
    intro s h
    exact ⟨s, rfl, h, fun _ => .refl s _ _⟩
  | cons b blocks ih =>
    intro s h
    obtain ⟨s₁, hrun, hs₁, hevolves⟩ := Sound.release_evolves (P := P) h
    obtain ⟨s', hrest, hs', hevolves'⟩ := ih hs₁
    refine ⟨s', ?_, hs', fun ext' => (hevolves ext').trans (hevolves' ext')⟩
    unfold Leaf.releaseAll
    rw [hrun]
    exact hrest

section

variable (xxh3 : HashInput Key → Key)

omit [DecidableEq Key] in
theorem LinearSequence.updateBlockHashes_ok (seq : LinearSequence Key) (o : Options) :
    ∃ keys, seq.updateBlockHashes xxh3 o =
        .ok { seq with blockHashes := seq.blockHashes ++ keys } ∧
      (0 < o.blockSize → numHashBlocks o.hasherType seq.tokenIds.length o.blockSize ≤
        (seq.blockHashes ++ keys).length) := by
  obtain ⟨keys, hrun, hcover⟩ := extendPrefixHashes_ok xxh3 o.hasherType seq.mmItems seq.tokenIds
    o.blockSize (numHashBlocks o.hasherType seq.tokenIds.length o.blockSize) seq.blockHashes
  rw [Nat.min_self] at hcover
  refine ⟨keys, ?_, hcover⟩
  unfold LinearSequence.updateBlockHashes
  rw [hrun]
  rfl

variable {b : Block Key}

omit [DecidableEq Key] in
theorem Leaf.Anchored.append (h : s.Anchored seq b) (keys : List Key) :
    s.Anchored { seq with blockHashes := seq.blockHashes ++ keys } b := by
  obtain ⟨node, hn, hid, hhash⟩ := h
  refine ⟨node, hn, hid, ?_⟩
  obtain ⟨hi, -⟩ := List.getElem?_eq_some_iff.mp hhash
  rw [List.getElem?_append_left hi]
  exact hhash

/-- A sequence with a single slot that stands for its checkpoint if it is resident. -/
structure Settled (s : Leaf Key) (seq : LinearSequence Key) (b : Block Key) : Prop where
  blocks : seq.linearBlocks = [b]
  valid : b.isValid = true
  anchored : s.Resident b → s.Anchored seq b

omit [DecidableEq Key] in
theorem Settled.slotInv (h : Settled s seq b) :
    SlotInv s { seq with scheduled := false } := by
  constructor
  case length => dsimp only; rw [h.blocks]; simp
  case valid =>
    intro x hx
    rw [h.blocks, mem_singleton] at hx
    rw [hx]
    exact h.valid
  case running => intro hs; exact nomatch hs
  case back => intro f x hx; dsimp only at hx; rw [h.blocks] at hx; exact nomatch hx
  case single =>
    intro x hx hr
    rw [h.blocks, List.cons.injEq] at hx
    rw [← hx.1] at hr ⊢
    exact ⟨rfl, h.anchored hr⟩

/-- What publishing leaves: the same slot, stamped, and at most this slot as a new resident. -/
structure Published (s s' : Leaf Key) (seq seq' : LinearSequence Key) (b : Block Key)
    (ext : List Handle) : Prop where
  sound : Sound True s' ext
  evolves : s.Evolves s' ext (fun node => node.handle = b.handle)
  settled : ∃ b', Settled s' seq' b' ∧ b'.handle = b.handle

variable [Inhabited Key]

/-- Publishing the read source succeeds whenever the sequence has a key for its checkpoint: a source
that is resident already is resident under this key. -/
theorem publishCompleted_spec (h : Sound True s ext) (hset : Settled s seq b)
    (hb : b.handle ∈ ext) :
    Outcome (fun e => e = .outOfBounds) (fun r => Published s r.1 seq r.2 b ext)
      (s.publishCompleted xxh3 seq seq.kvCacheTokensNum) := by
  unfold Leaf.publishCompleted
  rw [hset.blocks]
  dsimp only
  split
  · rename_i hpub
    obtain ⟨-, -, hen, -, -, -⟩ := hpub
    obtain ⟨keys, hkeys, -⟩ := seq.updateBlockHashes_ok xxh3 s.options
    rw [hkeys]
    simp only [bind, Except.bind]
    rw [if_neg (by rw [hset.valid]; simp)]
    cases hkey : (seq.blockHashes ++ keys)[seq.kvCacheTokensNum / s.options.blockSize - 1]? with
    | none => exact rfl
    | some key =>
      -- an earlier publication of this block used the same checkpoint, hence the same key
      have hsame : s.Resident (b.setHashValue key) →
          ∃ node ∈ s.prefixCache.lruLst, node.hashValue = (b.setHashValue key).hashValue := by
        intro hr
        obtain ⟨node, hn, -, hhash⟩ := (hset.anchored hr).append keys
        rw [hkey, Option.some.injEq] at hhash
        exact ⟨node, hn, hhash.symm⟩
      obtain ⟨s', n, hrun, hs', hevolves, hnew⟩ :=
        h.insertOne_evolves (b := b.setHashValue key) hen hb hset.valid hsame
      dsimp only
      rw [hrun]
      refine ⟨hs', (hevolves ext).mono (fun x hx => hx) (fun node hn => by rw [hn]; rfl),
        b.setHashValue key, ⟨rfl, hset.valid, fun hr => ?_⟩, rfl⟩
      by_cases hold : s.Resident b
      · obtain ⟨node, hn, hid, hhash⟩ := (hset.anchored hold).append keys
        refine ⟨node, (hevolves [b.handle]).kept node hn ⟨b.handle, by simp, hid.symm⟩, hid, ?_⟩
        rw [(hevolves []).frame.options]
        exact hhash
      · refine ⟨b.setHashValue key, hnew hold hr, rfl, ?_⟩
        rw [(hevolves []).frame.options]
        exact hkey
  · exact ⟨h, .refl s _ _, b, hset, rfl⟩

end

/-! ## Growth -/

variable {b : Block Key}

omit [DecidableEq Key] in
theorem Settled.last (h : Settled s seq b) (grown : List (Block Key)) :
    grown = [] → (seq.linearBlocks ++ grown).getLast? = some b := by
  intro hg
  rw [hg, h.blocks]
  rfl

omit [DecidableEq Key] in
theorem Settled.forall_iff {Q : Prop} (h : Settled s seq b) :
    (∀ x, seq.linearBlocks = [x] → s.Resident x → Q) ↔ (s.Resident b → Q) := by
  constructor
  · intro hall
    exact hall b h.blocks
  · intro hq x hx
    rw [h.blocks, List.cons.injEq] at hx
    rw [← hx.1]
    exact hq

theorem Settled.evolve (h : Settled s seq b) (he : s.Evolves s' ext P)
    (hs : Sound acc s e) (hs' : Sound acc' s' e') (hb : b.handle ∈ ext)
    (hnew : ∀ node, P node → node.id ≠ b.id) : Settled s' seq b := by
  refine ⟨h.blocks, h.valid, fun hr => ?_⟩
  by_cases hold : s.Resident b
  · obtain ⟨node, hn, hid, hhash⟩ := h.anchored hold
    refine ⟨node, he.kept node hn ⟨b.handle, hb, hid.symm⟩, hid, ?_⟩
    rw [he.frame.options]
    exact hhash
  · exact absurd hr (he.not_resident hs hs' hnew hold)

omit [DecidableEq Key] in
theorem SlotInv.settled (h : SlotInv s seq) (hb : seq.linearBlocks = [b]) :
    Settled s seq b :=
  ⟨hb, h.valid b (by rw [hb]; simp), fun hr => (h.single b hb hr).2⟩

theorem Slots.refl (h : Sound True s (seq.linearBlocks.map Block.handle ++ live.map Block.handle))
    (hperm : seq'.linearBlocks.Perm seq.linearBlocks) : Slots s s seq seq' [] live where
  sound := h.perm ((hperm.map Block.handle).symm.append_right _)
  evolves := .refl s _ _
  subperm := (hperm.map Block.handle).subperm
  fresh := ⟨by simp, nodup_nil, by simp⟩
  unregistered := by simp

variable {safe : Prop}

theorem Grew.after (seq' : LinearSequence Key) {r : Leaf Key × LinearSequence Key × Option (List (Block Key))}
    (he : s.Evolves s' (seq'.linearBlocks.map Block.handle ++ live.map Block.handle)
      (fun _ => False))
    (hsub : (seq'.linearBlocks.map Block.handle).Subperm (seq.linearBlocks.map Block.handle))
    (h : Grew s' seq' safe live r) : Grew s seq safe live r := by
  have hslots := h.slots
  refine ⟨⟨hslots.sound, ?_, hslots.subperm.trans hsub, hslots.fresh, hslots.unregistered⟩,
    h.rest, h.writes⟩
  refine Leaf.Evolves.trans (he.mono (fun x hx => ?_) (fun _ hf => hf.elim))
    (hslots.evolves.mono (fun x hx => hx) ?_)
  · rcases mem_append.mp hx with hx | hx
    · exact mem_append.mpr (Or.inl (hslots.subperm.subset hx))
    · exact mem_append.mpr (Or.inr hx)
  · rintro node ⟨b, hb, hnode⟩
    obtain ⟨b', hb', he'⟩ := mem_map.mp (hsub.subset (mem_map_of_mem hb))
    exact ⟨b', hb', hnode.trans he'.symm⟩

theorem Slots.writes {grown : List (Block Key)}
    (h : Slots s s' seq seq' grown live) (hlen : (seq'.linearBlocks ++ grown).length ≤ 2)
    (hne : grown ≠ []) (hsafe : safe) : Writes s' seq' grown safe := by
  refine ⟨hlen, grown.getLast hne, ?_, ?_, ?_⟩
  · rw [List.getLast?_append_of_ne_nil _ hne, List.getLast?_eq_some_getLast hne]
  · obtain ⟨i, hi, -⟩ := h.fresh.valid _ (getLast_mem hne)
    unfold Block.isValid
    rw [hi]
    rfl
  · exact iff_of_true (h.unregistered _ (getLast_mem hne)) hsafe

section

variable [Inhabited Key]

theorem allocate_slots (seq : LinearSequence Key)
    (h : Sound True s (seq.linearBlocks.map Block.handle ++ live.map Block.handle)) {n : Nat}
    (hn : n < 2 ^ 32) :
    ∃ s' grown, s.allocate n = .ok (s', grown) ∧ Slots s s' seq seq grown live ∧
      s.Evolves s' (seq.linearBlocks.map Block.handle ++ live.map Block.handle) (fun _ => False) ∧
      ((n ≤ s.numFreeBlocks + s.numEvictableBlocks ∧ grown.length = n) ∨
        (s.numFreeBlocks + s.numEvictableBlocks < n ∧ grown = [])) := by
  obtain ⟨s', grown, hrun, hs', hevolves, hfresh, hunreg, hcount⟩ :=
    h.allocate_evolves (P := fun _ => False) hn (map_append :
      (seq.linearBlocks ++ live).map Block.handle = _)
  exact ⟨s', grown, hrun,
    ⟨hs', hevolves.mono (fun x hx => hx) (fun _ hf => hf.elim), List.Subperm.refl _, hfresh,
      hunreg⟩, hevolves, hcount⟩

variable {b : Block Key}

theorem Settled.resident_iff (hset : Settled s seq b) {e e' : List Handle}
    (hs : Sound True s e) (hs' : Sound True s' e')
    (he : s.Evolves s' (seq.linearBlocks.map Block.handle ++ live.map Block.handle)
      (fun _ => False)) : s'.Resident b ↔ s.Resident b := by
  have hb : b.handle ∈ seq.linearBlocks.map Block.handle ++ live.map Block.handle := by
    rw [hset.blocks]
    simp
  constructor
  · intro hr
    by_contra hn
    exact he.not_resident hs hs' (fun _ hf => hf.elim) hn hr
  · exact fun hr => he.resident hs hs' hb hr

/-- The end of `allocate_decode` keeps a private single slot, and protects a resident one exactly
when the next step is predicted to cross a checkpoint and the pool can supply a block. -/
theorem growDecode_spec (seq : LinearSequence Key) (live : List (Block Key))
    (h : Sound True s (seq.linearBlocks.map Block.handle ++ live.map Block.handle))
    (hset : seq.linearBlocks = [] ∨ ∃ b, Settled s seq b) :
    ∃ r, s.growDecode seq = .ok r ∧
      Grew s seq (∀ b, seq.linearBlocks = [b] → s.Resident b →
        s.predictsCheckpoint seq ∧ s.canSupply) live r := by
  obtain ⟨s', grown, hrun, hslots, hevolves, hcount⟩ := allocate_slots seq h
    (n := 1) (by omega)
  unfold Leaf.growDecode
  rcases hset with hnil | ⟨b, hset⟩
  case inl =>
    rw [if_pos hnil]
    simp only [bind, Except.bind, hrun]
    refine ⟨_, rfl, ⟨?_, fun _ => .nil s' hnil rfl, ?_⟩⟩
    · split
      · rename_i hg
        rw [hg] at hslots
        exact hslots
      · exact hslots
    · intro blocks hblocks
      split at hblocks
      · exact nomatch hblocks
      · rename_i hne
        rw [Option.some.injEq] at hblocks
        subst hblocks
        refine hslots.writes ?_ hne fun b hb => ?_
        · rcases hcount with ⟨-, hlen⟩ | ⟨-, hg⟩
          · rw [hnil, nil_append, hlen]
            exact Nat.le_succ 1
          · exact absurd hg hne
        · rw [hnil] at hb
          exact nomatch hb
  case inr =>
    have hlength : seq.linearBlocks.length = 1 := by rw [hset.blocks]; rfl
    rw [if_neg (by rw [hset.blocks]; simp)]
    dsimp only
    split
    · -- no checkpoint in sight: the slot is written in place
      rename_i hcross
      refine ⟨_, rfl, ⟨.refl h (List.Perm.refl _), fun _ => hset.slotInv, ?_⟩⟩
      rintro blocks hblocks
      rw [Option.some.injEq] at hblocks
      subst hblocks
      refine ⟨by dsimp only; rw [append_nil, hlength]; exact Nat.le_succ 1, b,
        hset.last [] rfl, hset.valid, ?_⟩
      rw [hset.forall_iff]
      constructor
      · exact fun hnr hr => absurd hr hnr
      · exact fun hsafe hr => hcross (hsafe hr).1
    · rename_i hcross
      rw [not_not] at hcross
      simp only [bind, Except.bind, hrun]
      have hset' : Settled s' seq b :=
        hset.evolve hevolves h hslots.sound (by rw [hset.blocks]; simp) (fun _ hf => hf.elim)
      refine ⟨_, rfl, ⟨hslots, fun _ => hset'.slotInv, ?_⟩⟩
      rintro blocks hblocks
      rw [Option.some.injEq] at hblocks
      subst hblocks
      rcases hcount with ⟨hle, hlen⟩ | ⟨hlt, hg⟩
      · refine hslots.writes ?_ ?_ fun x hx hr => ⟨hcross, Nat.lt_of_lt_of_le Nat.zero_lt_one hle⟩
        · rw [length_append, hlength, hlen]
        · rintro rfl
          exact nomatch hlen
      · -- the pool is exhausted: decode goes on in place
        refine ⟨by dsimp only; rw [hg, append_nil, hlength]; exact Nat.le_succ 1, b,
          hset.last _ hg, hset.valid, ?_⟩
        rw [hset.resident_iff h hslots.sound hevolves, hset.forall_iff]
        constructor
        · exact fun hnr hr => absurd hr hnr
        · intro hsafe hr
          have := (hsafe hr).2
          unfold Leaf.canSupply at this
          omega

variable {f : Block Key}

omit [Inhabited Key] in
theorem releaseFront_spec (hinv : SlotInv s seq)
    (h : Sound True s (seq.linearBlocks.map Block.handle ++ live.map Block.handle))
    (hfb : seq.linearBlocks = [f, b]) :
    ∃ s', s.release f = .ok s' ∧ Sound True s' ([b].map Block.handle ++ live.map Block.handle) ∧
      s.Evolves s' ([b].map Block.handle ++ live.map Block.handle) (fun _ => False) ∧
      ([b].map Block.handle).Subperm (seq.linearBlocks.map Block.handle) ∧
      Settled s' { seq with linearBlocks := [b] } b ∧ ¬ s'.Resident b := by
  have hstart : Sound True s (f.handle :: ([b].map Block.handle ++ live.map Block.handle)) := by
    rw [hfb] at h
    exact h
  obtain ⟨s', hrun, hs', hevolves⟩ := hstart.release_evolves (P := fun _ => False)
  have hprivate : ¬ s'.Resident b :=
    (hevolves []).not_resident h hs' (fun _ hf => hf.elim) (hinv.back f b hfb)
  refine ⟨s', hrun, hs', hevolves _, ?_, ⟨rfl, hinv.valid b (by rw [hfb]; simp),
    fun hr => absurd hr hprivate⟩, hprivate⟩
  rw [hfb]
  exact (sublist_cons_self f.handle [b.handle]).subperm

variable {safe : Prop}

/-- Without a checkpoint to keep in front, the two slots of a decoding sequence change places. -/
theorem swap_spec (hinv : SlotInv s seq)
    (h : Sound True s (seq.linearBlocks.map Block.handle ++ live.map Block.handle))
    (hfb : seq.linearBlocks = [f, b]) (hsafe : safe ↔ ¬ s.Resident f) :
    Grew s seq safe live (s, { seq with linearBlocks := [b, f] }, some []) := by
  have hperm : [b, f].Perm seq.linearBlocks := by
    rw [hfb]
    exact List.Perm.swap f b []
  constructor
  case slots => exact .refl h hperm
  case rest =>
    intro hs
    constructor
    case length => exact Nat.le_refl 2
    case valid => exact fun x hx => hinv.valid x (hperm.subset hx)
    case running => intro hs; exact nomatch hs
    case back =>
      intro x y hxy
      simp only [List.cons.injEq, and_true] at hxy
      rw [← hxy.2]
      exact hsafe.mp hs
    case single => intro x hx; exact nomatch hx
  case writes =>
    intro blocks hblocks
    rw [Option.some.injEq] at hblocks
    subst hblocks
    exact ⟨Nat.le_refl 2, f, rfl, hinv.valid f (by rw [hfb]; simp), hsafe.symm⟩

/-- Decode writes a private slot exactly when it neither continues in place on a resident slot nor
swaps a resident slot to the back. -/
theorem allocateDecode_spec (hinv : SlotInv s seq)
    (h : Sound True s (seq.linearBlocks.map Block.handle ++ live.map Block.handle))
    (acceptedLength : Nat) :
    ∃ r, s.allocateDecode seq acceptedLength = .ok r ∧
      Grew s seq ((∀ b, seq.linearBlocks = [b] → s.Resident b →
          s.predictsCheckpoint seq ∧ s.canSupply) ∧
        ∀ f b, seq.linearBlocks = [f, b] → s.swapsSlots seq acceptedLength → ¬ s.Resident f)
        live r := by
  unfold Leaf.allocateDecode
  split
  · rename_i hblocks
    have := hinv.length
    rw [hblocks] at this
    exact nomatch this
  · rename_i f b hfb
    have hpair : ((∀ x, seq.linearBlocks = [x] → s.Resident x →
          s.predictsCheckpoint seq ∧ s.canSupply) ∧
        ∀ x y, seq.linearBlocks = [x, y] → s.swapsSlots seq acceptedLength → ¬ s.Resident x) ↔
        (s.swapsSlots seq acceptedLength → ¬ s.Resident f) := by
      rw [hfb]
      constructor
      · exact fun hsafe => hsafe.2 f b rfl
      · intro hsafe
        refine ⟨fun x hx => (nomatch hx), fun x y hxy => ?_⟩
        rw [List.cons.injEq] at hxy
        rw [← hxy.1]
        exact hsafe
    rw [hpair]
    by_cases hdone : (lastDecodeStepCheckpointRow seq.kvCacheTokensNum acceptedLength
        s.options.blockSize).isSome = true
    · rw [if_pos hdone]
      by_cases hkeep : s.options.preserveDecodeCheckpoint = true
      · rw [if_pos hkeep]
        by_cases hoverlap : s.options.enableScheduleOverlap = true
        · -- the checkpoint is in front already, and the back slot is private as before
          have hstay : ¬ s.swapsSlots seq acceptedLength := by
            intro hswap
            exact nomatch (hswap hdone).2.symm.trans hoverlap
          rw [if_pos hoverlap]
          refine ⟨_, rfl, ⟨.refl h (List.Perm.refl _), fun _ => ?_, ?_⟩⟩
          · refine ⟨hinv.length, hinv.valid, nofun, hinv.back,
              fun x hx => ?_⟩
            rw [hfb] at hx
            exact nomatch hx
          · intro blocks hblocks
            rw [Option.some.injEq] at hblocks
            subst hblocks
            refine ⟨by rw [append_nil]; exact hinv.length, b, by rw [hfb]; rfl,
              hinv.valid b (by rw [hfb]; simp), ?_⟩
            exact iff_of_true (hinv.back f b hfb) fun hswap => absurd hswap hstay
        · rw [if_neg hoverlap]
          refine ⟨_, rfl, swap_spec hinv h hfb ?_⟩
          exact ⟨fun hs => hs fun _ => ⟨hkeep, Bool.eq_false_iff.mpr hoverlap⟩, fun hn _ => hn⟩
      · -- the completed checkpoint is dropped, and the private slot behind it stays
        rw [if_neg hkeep]
        obtain ⟨s₁, hrun, hs₁, hevolves, hsub, hset, hprivate⟩ := releaseFront_spec hinv h hfb
        obtain ⟨r, hgrow, hgrew⟩ := growDecode_spec { seq with linearBlocks := [b] } live
          hs₁ (Or.inr ⟨b, hset⟩)
        rw [hset.forall_iff] at hgrew
        refine ⟨r, ?_, ?_⟩
        · rw [hrun]
          exact hgrow
        · have hsafe : (s₁.Resident b → s₁.predictsCheckpoint { seq with linearBlocks := [b] } ∧
              s₁.canSupply) ↔ (s.swapsSlots seq acceptedLength → ¬ s.Resident f) :=
            iff_of_true (fun hr => absurd hr hprivate) fun hswap => absurd (hswap hdone).1 hkeep
          rw [hsafe] at hgrew
          exact Grew.after _ hevolves hsub hgrew
    · rw [if_neg hdone]
      refine ⟨_, rfl, swap_spec hinv h hfb ?_⟩
      exact ⟨fun hs => hs fun hd => absurd hd hdone, fun hn _ => hn⟩
  · rename_i hmany hpair
    have hshort : seq.linearBlocks = [] ∨ ∃ b, Settled s seq b := by
      cases hblocks : seq.linearBlocks with
      | nil => exact Or.inl rfl
      | cons x rest =>
        cases rest with
        | nil => exact Or.inr ⟨x, hinv.settled hblocks⟩
        | cons y rest =>
          cases rest with
          | nil => exact absurd hblocks (hpair x y)
          | cons z rest => exact absurd hblocks (hmany x y z rest)
    obtain ⟨r, hgrow, hgrew⟩ := growDecode_spec seq live h hshort
    refine ⟨r, hgrow, ?_⟩
    have htwo : ∀ f b, seq.linearBlocks = [f, b] → s.swapsSlots seq acceptedLength →
        ¬ s.Resident f := fun f b hfb => absurd hfb (hpair f b)
    rwa [and_iff_left htwo]

/-- The slot prefill keeps as its read source, if it keeps one: a single slot as it was, or the
private one of two. -/
theorem eraseFront_spec (hinv : SlotInv s seq)
    (h : Sound True s (seq.linearBlocks.map Block.handle ++ live.map Block.handle)) :
    ∃ s' v, s.eraseFront seq.linearBlocks = .ok (s', v) ∧
      Sound True s' (v.map Block.handle ++ live.map Block.handle) ∧
      s.Evolves s' (v.map Block.handle ++ live.map Block.handle) (fun _ => False) ∧
      (v.map Block.handle).Subperm (seq.linearBlocks.map Block.handle) ∧
      ((v = [] ∧ seq.linearBlocks = []) ∨ ∃ b, Settled s' { seq with linearBlocks := v } b ∧
          ((seq.linearBlocks = [b] ∧ s' = s) ∨
            (∃ f, seq.linearBlocks = [f, b]) ∧ ¬ s'.Resident b)) := by
  have hstay : ∀ v, v = seq.linearBlocks →
      Sound True s (v.map Block.handle ++ live.map Block.handle) ∧
      s.Evolves s (v.map Block.handle ++ live.map Block.handle) (fun _ => False) ∧
      (v.map Block.handle).Subperm (seq.linearBlocks.map Block.handle) := by
    rintro v rfl
    exact ⟨h, .refl s _ _, List.Subperm.refl _⟩
  cases hblocks : seq.linearBlocks with
  | nil =>
    obtain ⟨hs, hevolves, hsub⟩ := hstay [] hblocks.symm
    rw [hblocks] at hsub
    exact ⟨s, [], rfl, hs, hevolves, hsub, Or.inl ⟨rfl, rfl⟩⟩
  | cons x rest =>
    cases rest with
    | nil =>
      obtain ⟨hs, hevolves, hsub⟩ := hstay [x] hblocks.symm
      rw [hblocks] at hsub
      have hset := hinv.settled hblocks
      exact ⟨s, [x], rfl, hs, hevolves, hsub,
        Or.inr ⟨x, ⟨rfl, hset.valid, hset.anchored⟩, Or.inl ⟨rfl, rfl⟩⟩⟩
    | cons y rest =>
      cases rest with
      | nil =>
        obtain ⟨s', hrun, hs', hevolves, hsub, hset, hprivate⟩ := releaseFront_spec hinv h hblocks
        rw [hblocks] at hsub
        refine ⟨s', [y], ?_, hs', hevolves, hsub, Or.inr ⟨y, hset, Or.inr ⟨⟨x, rfl⟩, hprivate⟩⟩⟩
        simp only [Leaf.eraseFront, bind, Except.bind, hrun]
      | cons z rest =>
        have := hinv.length
        rw [hblocks] at this
        exact nomatch this

theorem allocateRestored_spec
    (h : Sound True s (seq.linearBlocks.map Block.handle ++ live.map Block.handle))
    (hsafe : safe) : ∃ r, s.allocateRestored seq = .ok r ∧ Grew s seq safe live r := by
  obtain ⟨s₁, hrun, hs₁, hevolves⟩ := Sound.releaseAll_evolves (P := fun _ => False) h
  obtain ⟨s₂, grown, hrun', hslots, -, hcount⟩ := allocate_slots
    { seq with linearBlocks := [] } hs₁ (n := 2) (by omega)
  unfold Leaf.allocateRestored
  simp only [bind, Except.bind, hrun, hrun']
  rcases hcount with ⟨-, hlen⟩ | ⟨-, rfl⟩
  · rw [if_neg (by rw [hlen]; simp)]
    refine ⟨_, rfl, Grew.after { seq with linearBlocks := [] } (hevolves _)
      nil_subperm ⟨hslots, fun _ => .nil s₂ rfl rfl, ?_⟩⟩
    rintro blocks hblocks
    rw [Option.some.injEq] at hblocks
    subst hblocks
    refine hslots.writes (by dsimp only; rw [nil_append, hlen]) ?_ hsafe
    rintro rfl
    exact nomatch hlen
  · refine ⟨_, rfl, Grew.after { seq with linearBlocks := [] } (hevolves _)
      nil_subperm ⟨hslots, fun _ => .nil s₂ rfl rfl, ?_⟩⟩
    intro blocks hblocks
    exact nomatch hblocks

omit [Inhabited Key] in
theorem Slots.publish {s'' : Leaf Key} {seq'' : LinearSequence Key} {grown : List (Block Key)}
    (h : Slots s s' seq seq' grown live) (hset : Settled s' seq' b)
    (hpub : Published s' s'' seq' seq'' b
      (grown.map Block.handle ++ (seq'.linearBlocks.map Block.handle ++ live.map Block.handle))) :
    Slots s s'' seq seq'' grown live := by
  obtain ⟨hs, hevolves, b', hset', hb'⟩ := hpub
  have hsame : seq''.linearBlocks.map Block.handle = seq'.linearBlocks.map Block.handle := by
    rw [hset.blocks, hset'.blocks, map_singleton, map_singleton, hb']
  have hmem : b.handle ∈ seq'.linearBlocks.map Block.handle := by
    rw [hset.blocks]
    simp
  constructor
  case sound => rw [hsame]; exact hs
  case evolves =>
    rw [hsame]
    refine h.evolves.trans (hevolves.mono
      (fun x hx => mem_append.mpr (Or.inr hx)) fun node hn => ?_)
    obtain ⟨b₀, hb₀, he⟩ := mem_map.mp (h.subperm.subset hmem)
    exact ⟨b₀, hb₀, hn.trans he.symm⟩
  case subperm => rw [hsame]; exact h.subperm
  case fresh => rw [hsame]; exact h.fresh
  case unregistered =>
    intro g hg
    refine hevolves.not_resident h.sound hs (fun node hn hid => ?_) (h.unregistered g hg)
    refine h.fresh.unheld g hg b.handle (mem_append.mpr (Or.inl hmem)) ?_
    rw [← hid]
    exact (congrArg Handle.id hn).symm

variable (xxh3 : HashInput Key → Key)

/-- The end of `allocate_prefill` protects a resident single slot exactly when the pool can supply a
block, and can only stop when the sequence has no key for its checkpoint. -/
theorem growPrefill_spec (seq : LinearSequence Key) (live : List (Block Key))
    (h : Sound True s (seq.linearBlocks.map Block.handle ++ live.map Block.handle))
    (hset : seq.linearBlocks = [] ∨ ∃ b, Settled s seq b) :
    Outcome (fun e => e = .outOfBounds)
      (Grew s seq (∀ b, seq.linearBlocks = [b] → s.Resident b → s.canSupply) live)
      (s.growPrefill xxh3 seq seq.kvCacheTokensNum) := by
  obtain ⟨s', grown, hrun, hslots, hevolves, hcount⟩ := allocate_slots seq h
    (n := 1) (by omega)
  unfold Leaf.growPrefill
  simp only [bind, Except.bind, hrun]
  rcases hset with hnil | ⟨b, hset⟩
  case inl =>
    by_cases hgrown : grown = []
    · subst hgrown
      rw [if_pos rfl, if_pos hnil]
      exact ⟨hslots, fun _ => .nil s' hnil rfl, nofun⟩
    · rw [if_neg hgrown]
      have hpub : s'.publishCompleted xxh3 seq seq.kvCacheTokensNum = .ok (s', seq) := by
        unfold Leaf.publishCompleted
        rw [hnil]
      rw [hpub]
      refine ⟨hslots, fun _ => .nil s' hnil rfl, fun blocks hblocks => ?_⟩
      rw [Option.some.injEq] at hblocks
      subst hblocks
      refine hslots.writes ?_ hgrown fun b hb => absurd hb (by rw [hnil]; simp)
      rcases hcount with ⟨-, hlen⟩ | ⟨-, hg⟩
      · rw [hnil, nil_append, hlen]
        exact Nat.le_succ 1
      · exact absurd hg hgrown
  case inr =>
    have hlength : seq.linearBlocks.length = 1 := by rw [hset.blocks]; rfl
    have hset' : Settled s' seq b :=
      hset.evolve hevolves h hslots.sound (by rw [hset.blocks]; simp) (fun _ hf => hf.elim)
    rw [hset.forall_iff]
    rcases hcount with ⟨hle, hlen⟩ | ⟨hlt, rfl⟩
    · have hgrown : grown ≠ [] := by
        rintro rfl
        exact nomatch hlen
      rw [if_neg hgrown]
      refine Outcome.bind (publishCompleted_spec xxh3 hslots.sound hset' (by
        rw [hset.blocks]; simp)) fun r hr => ?_
      have hslots' := hslots.publish hset' hr
      obtain ⟨b', hkept, -⟩ := hr.settled
      refine ⟨hslots', fun _ => hkept.slotInv, fun blocks hblocks => ?_⟩
      rw [Option.some.injEq] at hblocks
      subst hblocks
      refine hslots'.writes ?_ hgrown fun _ => hle
      rw [hkept.blocks, length_append, hlen]
      exact Nat.le_refl 2
    · -- the pool is exhausted: prefill goes on in place
      rw [if_pos rfl, if_neg (by rw [hset.blocks]; simp)]
      refine ⟨hslots, fun _ => hset'.slotInv, fun blocks hblocks => ?_⟩
      rw [Option.some.injEq] at hblocks
      subst hblocks
      refine ⟨by rw [append_nil, hlength]; exact Nat.le_succ 1, b, hset.last [] rfl,
        hset.valid, ?_⟩
      rw [hset.resident_iff h hslots.sound hevolves]
      refine ⟨fun hnr hr => absurd hr hnr, fun hs hr => ?_⟩
      have := hs hr
      unfold Leaf.canSupply at this
      omega

/-- Prefill writes a private slot unless it goes on in place on a resident one. -/
theorem allocatePrefill_spec (hinv : SlotInv s seq)
    (h : Sound True s (seq.linearBlocks.map Block.handle ++ live.map Block.handle))
    (restoreTokens : Nat) :
    Outcome (fun e => e = .outOfBounds) (Grew s seq (∀ b, seq.linearBlocks = [b] → s.Resident b →
        restoreTokens ≤ seq.kvCacheTokensNum → s.canSupply) live)
      (s.allocatePrefill xxh3 seq restoreTokens) := by
  unfold Leaf.allocatePrefill
  rw [if_neg (Nat.not_lt.mpr hinv.length)]
  by_cases hrestart : seq.kvCacheTokensNum < seq.cachedTokens restoreTokens
  · rw [if_pos hrestart]
    have hmore : ¬ restoreTokens ≤ seq.kvCacheTokensNum := by
      intro hle
      unfold LinearSequence.cachedTokens at hrestart
      rw [Nat.max_eq_left hle] at hrestart
      exact absurd hrestart (Nat.lt_irrefl _)
    have hsafe : ∀ b, seq.linearBlocks = [b] → s.Resident b →
        restoreTokens ≤ seq.kvCacheTokensNum → s.canSupply := fun b _ _ hle => absurd hle hmore
    obtain ⟨r, hrun, hgrew⟩ := allocateRestored_spec h hsafe
    rw [hrun]
    exact hgrew
  · rw [if_neg hrestart]
    have hcached : seq.cachedTokens restoreTokens = seq.kvCacheTokensNum :=
      Nat.le_antisymm (Nat.not_lt.mp hrestart) (Nat.le_max_left _ _)
    have hle : restoreTokens ≤ seq.kvCacheTokensNum := by
      rw [← hcached]
      exact Nat.le_max_right _ _
    obtain ⟨s₁, v, herase, hs₁, hevolves, hsub, hkept⟩ := eraseFront_spec hinv h
    rw [herase, hcached]
    have hgrow := growPrefill_spec xxh3 { seq with linearBlocks := v } live hs₁
      (hkept.imp (fun hnil => hnil.1) fun ⟨b, hset, _⟩ => ⟨b, hset⟩)
    refine Outcome.imp hgrow fun r hr => Grew.after { seq with linearBlocks := v } hevolves hsub ?_
    -- a slot that goes on in place is resident only if it was the single slot
    have hsafe : (∀ b, v = [b] → s₁.Resident b → s₁.canSupply) ↔
        (∀ b, seq.linearBlocks = [b] → s.Resident b → restoreTokens ≤ seq.kvCacheTokensNum →
          s.canSupply) := by
      rcases hkept with ⟨hv, hnil⟩ | ⟨b, hset, ⟨hsingle, hs⟩ | ⟨⟨f, hfb⟩, hprivate⟩⟩
      · rw [hv, hnil]
        exact iff_of_true (fun x hx => nomatch hx) fun x hx => nomatch hx
      · have hv : v = [b] := hset.blocks
        rw [hs, hv, hsingle]
        exact ⟨fun hall x hx hr _ => hall x hx hr, fun hall x hx hr => hall x hx hr hle⟩
      · refine iff_of_true (hset.forall_iff.mpr fun hr => absurd hr hprivate) fun x hx => ?_
        rw [hfb] at hx
        exact nomatch hx
    rw [← hsafe]
    exact hr

/-- One growth keeps the invariant when it is safe, and writes a private slot exactly when it is. -/
theorem allocateForSequence_spec (hinv : SlotInv s seq)
    (h : Sound True s (seq.linearBlocks.map Block.handle ++ live.map Block.handle))
    (restoreTokens acceptedLength : Nat) :
    Outcome (fun e => e = .outOfBounds)
      (Grew s seq (s.SlotSafe seq restoreTokens acceptedLength) live)
      (s.allocateForSequence xxh3 seq restoreTokens acceptedLength) := by
  unfold Leaf.allocateForSequence Leaf.SlotSafe
  by_cases hprefill : seq.isPrefillStage restoreTokens = true
  · rw [if_pos hprefill, if_pos hprefill]
    exact allocatePrefill_spec xxh3 hinv h restoreTokens
  · rw [if_neg hprefill, if_neg hprefill]
    obtain ⟨r, hrun, hgrew⟩ := allocateDecode_spec hinv h acceptedLength
    rw [hrun]
    exact hgrew

end

end Xllm.Framework
