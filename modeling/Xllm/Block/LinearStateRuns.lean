import Xllm.Block.LinearStateSlots
import Xllm.PrefixCache.Soundness

/-!
# Every run of the leaf with its sequences

The slots of all sequences and the further aliases are what the leaf's callers hold. The invariant
(`LinearInv`) is that the leaf is sound for these aliases, that every sequence is well formed
(`SlotInv`), and that two sequences have a block in common only if it is resident. One step keeps
it when a growth in it is safe (`LinearWorld.step_inv`), so in every run whose growths are safe no
sequence writes a block that others can hit (`checkpoint_not_overwritten`).
-/

namespace Xllm.Framework

open Xllm.Lib List

variable {Key : Type} [DecidableEq Key]

/-! ## Committing a growth -/

theorem Grew.commit {s s' : Leaf Key} {seq seq' : LinearSequence Key} {safe : Prop}
    {live grown : List (Block Key)} (h : Grew s seq safe live (s', seq', some grown)) (hs : safe)
    (cachedAfter : Nat) :
    SlotInv s' { seq' with
      linearBlocks := seq'.linearBlocks ++ grown
      scheduled := true
      kvCacheTokensNum := cachedAfter } := by
  obtain ⟨hlen, b, hlast, hv, hprivate⟩ := h.writes grown rfl
  have hlast' : ∀ l x, seq'.linearBlocks ++ grown = l ++ [x] → x = b := by
    intro l x hx
    rw [hx, List.getLast?_append, List.getLast?_singleton, Option.some_or] at hlast
    exact Option.some.inj hlast
  constructor
  case length => exact hlen
  case valid =>
    intro x hx
    rcases mem_append.mp hx with hx | hx
    · exact (h.rest hs).valid x hx
    · obtain ⟨i, hi, -⟩ := h.slots.fresh.valid x hx
      unfold Block.isValid
      rw [hi]
      rfl
  case running =>
    intro _ hnil
    dsimp only at hnil
    rw [hnil] at hlast
    exact nomatch hlast
  case back =>
    intro f x hx
    rw [hlast' [f] x hx]
    exact hprivate.mpr hs
  case single =>
    intro x hx hr
    rw [hlast' [] x hx] at hr
    exact absurd hr (hprivate.mpr hs)

/-! ## Prefix hits -/

omit [DecidableEq Key] in
theorem safeCountLoop_spec (kvBlockSize linearBlockSize : Nat) (linear : List (Block Key)) :
    ∀ safeCount : Nat,
      0 < safeCountLoop kvBlockSize linearBlockSize linear safeCount →
      (linear[safeCountLoop kvBlockSize linearBlockSize linear safeCount * kvBlockSize /
        linearBlockSize - 1]?).any Block.isValid = true := by
  intro safeCount
  induction safeCount with
  | zero => intro h; exact nomatch h
  | succ safeCount ih =>
    unfold safeCountLoop
    dsimp only
    split
    · rename_i hhit
      exact fun _ => hhit.2
    · exact ih

omit [DecidableEq Key] in
theorem trimFlatKvLinear_spec {kvBlocks kvBlockSize linearBlockSize : Nat}
    {linear : List (Block Key)}
    (h : 0 < trimFlatKvLinear kvBlocks kvBlockSize linearBlockSize linear) :
    (linear[trimFlatKvLinear kvBlocks kvBlockSize linearBlockSize linear * kvBlockSize /
      linearBlockSize - 1]?).any Block.isValid = true := by
  unfold trimFlatKvLinear at h ⊢
  split
  · rename_i hpos
    rw [if_pos hpos] at h
    exact safeCountLoop_spec kvBlockSize linearBlockSize linear _ h
  · rename_i hzero
    rw [if_neg hzero] at h
    exact absurd h (Nat.lt_irrefl 0)

section

variable (xxh3 : HashInput Key → Key) [Inhabited Key] {s : Leaf Key} {ext : List Handle}
  {P : Block Key → Prop}

/-- A probe without a shared prefix, of tokens whose keys are known, changes no residents and
returns residents under these keys. -/
theorem Sound.probe_evolves (h : Sound True s ext) (tokenIds : List Int)
    (mmItems : List (MMItem Key)) (blockHashes : List Key) (hcover : 0 < s.options.blockSize →
      numHashBlocks s.options.hasherType tokenIds.length s.options.blockSize ≤ blockHashes.length) :
    ∃ s' blocks, s.allocateShared xxh3 tokenIds [] mmItems blockHashes = .ok (s', blocks) ∧
      Sound True s' (blocks.map Block.handle ++ ext) ∧ (∀ ext', s.Evolves s' ext' P) ∧
      ∀ (j : Nat) (b : Block Key), blocks[j]? = some b → b.isValid = true →
        b ∈ s'.prefixCache.lruLst ∧ blockHashes[j]? = some b.hashValue := by
  unfold Leaf.allocateShared
  dsimp only
  split
  · exact ⟨s, [], rfl, h, fun _ => .refl s _ _, fun j b hb => by cases hb⟩
  have hpos : 0 < s.options.blockSize := by omega
  split
  · exact ⟨s, [], rfl, h, fun _ => .refl s _ _, fun j b hb => by cases hb⟩
  rw [ite_self]
  generalize ht : (if decide (s.options.blockType = .linear) = true then
    tokenIds.take (tokenIds.length - 1) else tokenIds) = tokens
  have hlen : tokens.length ≤ tokenIds.length := by
    rw [← ht]
    split
    · exact length_take_le' _ _
    · exact Nat.le_refl _
  obtain ⟨s', blocks, hrun, hs', hm⟩ := matchPrefix_spec xxh3 h tokens []
    (fun b hb => by cases hb) mmItems blockHashes
  have hregistered := h.conserved.registered
  have hnodes : ∀ node, node ∈ s'.prefixCache.lruLst ↔ node ∈ s.prefixCache.lruLst := by
    intro node
    have hold := hregistered.lookup node.hashValue node
    have hnew := hs'.conserved.registered.lookup node.hashValue node
    rw [hm.cachedBlocks, hold] at hnew
    exact ⟨fun hn => (hnew.mpr ⟨hn, rfl⟩).1, fun hn => (hnew.mp ⟨hn, rfl⟩).1⟩
  refine ⟨s', blocks, hrun, hs', fun _ => ⟨hm.frame, fun node hn _ => (hnodes node).mpr hn,
    .of_subset fun node hn => (hnodes node).mp hn⟩, fun j b hj hv => ?_⟩
  generalize hn : numHashBlocks s.options.hasherType tokens.length s.options.blockSize = n
  rcases Nat.eq_zero_or_pos n with rfl | hnpos
  · rw [hm.empty hn] at hj
    cases hj
  · obtain ⟨keys, hkeys, hfound⟩ := hm.found n hn hnpos
    have hle : n ≤ blockHashes.length := by
      rw [← hn]
      exact Nat.le_trans (numHashBlocks_mono _ hlen _) (hcover hpos)
    unfold matchKeys at hkeys
    rw [if_pos hle, length_nil, Nat.zero_min, List.drop_zero, Except.ok.injEq] at hkeys
    have hlookup : ∃ key, keys[j]? = some key ∧
        s.prefixCache.cachedBlocks.lookup key = some b := by
      rw [hfound, length_nil, Nat.zero_min] at hj
      unfold matchedBlocks at hj
      split at hj
      · rw [take_zero, nil_append, List.getElem?_take] at hj
        split at hj
        · unfold residentProbe at hj
          rw [List.getElem?_map, Option.map_eq_some_iff] at hj
          obtain ⟨key, hkey, hb⟩ := hj
          refine ⟨key, hkey, ?_⟩
          cases hfind : s.prefixCache.cachedBlocks.lookup key with
          | none =>
            rw [hfind] at hb
            rw [← hb] at hv
            cases hv
          | some node =>
            rw [hfind] at hb
            exact congrArg some hb
        · cases hj
      · exact (residentRun_spec s.prefixCache.cachedBlocks keys).2.1 j b hj
    obtain ⟨key, hkey, hfind⟩ := hlookup
    obtain ⟨hnode, rfl⟩ := (hregistered.lookup key b).mp hfind
    refine ⟨(hnodes b).mpr hnode, ?_⟩
    rw [← hkeys, List.getElem?_take] at hkey
    split at hkey
    · exact hkey
    · cases hkey

/-- What a prefix probe leaves of a sequence's slots: the old ones, or one resident checkpoint. -/
structure Mounted (s s' : Leaf Key) (seq seq' : LinearSequence Key) (live : List (Block Key)) :
    Prop where
  sound : Sound True s' (seq'.linearBlocks.map Block.handle ++ live.map Block.handle)
  evolves : ∀ ext', s.Evolves s' ext' (fun _ => False)
  slot : SlotInv s' seq'
  source : seq'.linearBlocks = seq.linearBlocks ∨ ∀ x ∈ seq'.linearBlocks, s'.Resident x

variable {seq : LinearSequence Key}

omit [Inhabited Key] in
theorem SlotInv.append (h : SlotInv s seq) (keys : List Key) (matched : Bool) :
    SlotInv s { seq with blockHashes := seq.blockHashes ++ keys, prefixCacheMatched := matched } :=
  ⟨h.length, h.valid, h.running, h.back, fun b hb hr => by
    obtain ⟨hidle, hanchored⟩ := h.single b hb hr
    exact ⟨hidle, hanchored.append keys⟩⟩

/-- A prefix hit mounts the checkpoint at the end of the hit; the probe stops only when the sequence
has slots of its own. -/
theorem mountLinear_spec {live : List (Block Key)} (hinv : SlotInv s seq)
    (h : Sound True s (seq.linearBlocks.map Block.handle ++ live.map Block.handle))
    (restoreTokens kvBlocks kvBlockSize : Nat) :
    Outcome (fun e => e = .outOfBounds ∨ e = .mountOverBlocks) (fun r => Mounted s r.1 seq r.2 live)
      (s.mountLinear xxh3 seq restoreTokens kvBlocks kvBlockSize) := by
  unfold Leaf.mountLinear
  split
  · exact ⟨h, fun _ => .refl s _ _, hinv, Or.inl rfl⟩
  split
  · exact ⟨h, fun _ => .refl s _ _, ⟨hinv.length, hinv.valid, hinv.running, hinv.back,
      hinv.single⟩, Or.inl rfl⟩
  obtain ⟨keys, hkeys, hcover⟩ := seq.updateBlockHashes_ok xxh3 s.options
  obtain ⟨s₁, linear, hrun, hs₁, hevolves₁, hfound⟩ := h.probe_evolves xxh3 (P := fun _ => False)
    seq.tokenIds seq.mmItems (seq.blockHashes ++ keys) hcover
  have hstride : s₁.options.blockSize = s.options.blockSize := by rw [(hevolves₁ []).frame.options]
  rw [hkeys]
  simp only [bind, Except.bind]
  rw [hrun]
  dsimp only
  rw [hstride]
  generalize htrim : trimFlatKvLinear kvBlocks kvBlockSize s.options.blockSize linear = hit
  by_cases hmiss : hit * kvBlockSize = 0
  · rw [if_pos hmiss]
    obtain ⟨s₂, hrun₂, hs₂, hevolves₂⟩ := Sound.releaseAll_evolves (P := fun _ => False) hs₁
    have hevolves := fun ext' => (hevolves₁ ext').trans (hevolves₂ ext')
    rw [hrun₂]
    have hkept := hinv.evolve (hevolves (seq.linearBlocks.map Block.handle)) h hs₂
      (fun b hb => mem_map_of_mem hb) fun _ _ _ _ hf => hf.elim
    exact ⟨hs₂, hevolves, hkept.append keys true, Or.inl rfl⟩
  · rw [if_neg hmiss]
    cases hsource : linear[hit * kvBlockSize / s.options.blockSize - 1]? with
    | none => exact Or.inl rfl
    | some source =>
      have hhit : 0 < hit := Nat.pos_of_ne_zero fun h0 => hmiss (by rw [h0, Nat.zero_mul])
      have hvalid : source.isValid = true := by
        have hcheckpoint := trimFlatKvLinear_spec (htrim.symm ▸ hhit)
        rw [htrim, hsource] at hcheckpoint
        exact hcheckpoint
      obtain ⟨hnode, hkey⟩ := hfound _ source hsource hvalid
      -- the other probed aliases are dropped, the source keeps its place among the holders
      have hperm : (linear.map Block.handle ++
          (seq.linearBlocks.map Block.handle ++ live.map Block.handle)).Perm
          ((linear.eraseIdx (hit * kvBlockSize / s.options.blockSize - 1)).map Block.handle ++
            (source.handle :: (seq.linearBlocks.map Block.handle ++ live.map Block.handle))) :=
        ((handles_eraseIdx hsource).append_right _).trans perm_middle.symm
      obtain ⟨s₂, hrun₂, hs₂, hevolves₂⟩ :=
        Sound.releaseAll_evolves (P := fun _ => False) (hs₁.perm hperm)
      have hevolves := fun ext' => (hevolves₁ ext').trans (hevolves₂ ext')
      rw [hrun₂]
      dsimp only
      by_cases hempty : seq.linearBlocks = []
      · rw [if_neg (by rw [hempty]; simp)]
        rw [hempty] at hs₂
        have hidle : seq.scheduled = false := by
          by_contra hs
          exact hinv.running (by simpa using hs) hempty
        have hkept : source ∈ s₂.prefixCache.lruLst :=
          (hevolves₂ [source.handle]).kept source hnode ⟨source.handle, by simp, rfl⟩
        have hresident : s₂.Resident source := hs₂.resident_iff.mpr ⟨source, hkept, rfl⟩
        have hset : Settled s₂ { seq with
            linearBlocks := [source]
            kvCacheTokensNum := hit * kvBlockSize
            blockHashes := seq.blockHashes ++ keys
            prefixCacheMatched := true } source := by
          refine ⟨rfl, hvalid, fun _ => ⟨source, hkept, rfl, ?_⟩⟩
          rw [(hevolves []).frame.options]
          exact hkey
        refine ⟨hs₂, hevolves, ?_, Or.inr fun x hx => ?_⟩
        · have := hset.slotInv
          rw [hidle]
          exact this
        · rw [mem_singleton] at hx
          rw [hx]
          exact hresident
      · rw [if_pos hempty]
        exact Or.inr rfl

end

/-! ## The invariant -/

/-- The slots of all sequences. -/
def LinearWorld.slots (w : LinearWorld Key) : List (Block Key) :=
  w.seqs.flatMap LinearSequence.linearBlocks

/-- All aliases but the slots of one sequence. -/
def LinearWorld.others (w : LinearWorld Key) (i : Nat) : List (Block Key) :=
  (w.seqs.eraseIdx i).flatMap LinearSequence.linearBlocks ++ w.retained

/-- Two sequences have a block in common only if it is resident. -/
def LinearWorld.SharesResidents (w : LinearWorld Key) : Prop :=
  ∀ (i j : Nat) (a b : LinearSequence Key), i ≠ j → w.seqs[i]? = some a → w.seqs[j]? = some b →
    ∀ x ∈ a.linearBlocks, ∀ y ∈ b.linearBlocks, x.id = y.id → w.leaf.Resident x

structure LinearInv (w : LinearWorld Key) : Prop where
  sound : Sound True w.leaf ((w.slots ++ w.retained).map Block.handle)
  slot : ∀ seq ∈ w.seqs, SlotInv w.leaf seq
  shares : w.SharesResidents

section

variable {w : LinearWorld Key} {i : Nat} {seq seq' : LinearSequence Key}

omit [DecidableEq Key] in
theorem LinearWorld.slots_perm (h : w.seqs[i]? = some seq) :
    ((w.slots ++ w.retained).map Block.handle).Perm
      (seq.linearBlocks.map Block.handle ++ (w.others i).map Block.handle) := by
  obtain ⟨hi, rfl⟩ := List.getElem?_eq_some_iff.mp h
  rw [← map_append]
  refine List.Perm.map Block.handle ?_
  unfold LinearWorld.slots LinearWorld.others
  rw [← List.append_assoc]
  exact ((getElem_cons_eraseIdx_perm hi).symm.flatMap_right _).append_right _

omit [DecidableEq Key] in
theorem LinearWorld.slots_set_perm (h : w.seqs[i]? = some seq) (seq' : LinearSequence Key) :
    (((w.seqs.set i seq').flatMap LinearSequence.linearBlocks ++ w.retained).map
      Block.handle).Perm (seq'.linearBlocks.map Block.handle ++ (w.others i).map Block.handle) := by
  obtain ⟨hi, -⟩ := List.getElem?_eq_some_iff.mp h
  rw [← map_append]
  refine List.Perm.map Block.handle ?_
  unfold LinearWorld.others
  rw [← List.append_assoc]
  exact ((set_perm_cons_eraseIdx hi seq').flatMap_right _).append_right _

variable {j : Nat} {b : LinearSequence Key} {y : Block Key}

omit [DecidableEq Key] in
theorem LinearWorld.mem_others (hij : i ≠ j)
    (hb : w.seqs[j]? = some b) (hy : y ∈ b.linearBlocks) : y ∈ w.others i := by
  refine mem_append.mpr (Or.inl (mem_flatMap.mpr ⟨b, ?_, hy⟩))
  exact mem_eraseIdx_iff_getElem?.mpr ⟨j, hij.symm, hb⟩

theorem LinearInv.soundAt (h : LinearInv w) (hi : w.seqs[i]? = some seq) :
    Sound True w.leaf (seq.linearBlocks.map Block.handle ++ (w.others i).map Block.handle) :=
  h.sound.perm (LinearWorld.slots_perm hi)

variable {s' : Leaf Key}

/-- One sequence changes. The others keep their slots, as what they share with it is in the
cache. -/
theorem LinearInv.update (h : LinearInv w) (hi : w.seqs[i]? = some seq) {P : Block Key → Prop}
    (hs' : Sound True s' (seq'.linearBlocks.map Block.handle ++ (w.others i).map Block.handle))
    (he : w.leaf.Evolves s' ((w.others i).map Block.handle) P)
    (hP : ∀ node, P node → ∃ b ∈ seq.linearBlocks, node.handle = b.handle) (hslot : SlotInv s' seq')
    (hshares : ∀ x ∈ seq'.linearBlocks, ∀ j b, i ≠ j → w.seqs[j]? = some b →
      ∀ y ∈ b.linearBlocks, x.id = y.id → s'.Resident x) :
    LinearInv { w with leaf := s', seqs := w.seqs.set i seq' } := by
  have hget : ∀ {j : Nat} {a : LinearSequence Key}, (w.seqs.set i seq')[j]? = some a →
      (j = i ∧ a = seq') ∨ (i ≠ j ∧ w.seqs[j]? = some a) := by
    intro j a ha
    rw [List.getElem?_set] at ha
    split at ha
    · rename_i hij
      split at ha
      · exact Or.inl ⟨hij.symm, (Option.some.inj ha).symm⟩
      · exact nomatch ha
    · rename_i hij
      exact Or.inr ⟨hij, ha⟩
  constructor
  case sound => exact hs'.perm (LinearWorld.slots_set_perm hi seq').symm
  case slot =>
    intro a ha
    obtain ⟨j, hj⟩ := mem_iff_getElem?.mp ha
    rcases hget hj with ⟨-, rfl⟩ | ⟨hij, hold⟩
    · exact hslot
    · refine (h.slot a (mem_of_getElem? hold)).evolve he h.sound hs'
        (fun b hb => mem_map_of_mem (LinearWorld.mem_others hij hold hb)) ?_
      intro b hb hnr node hnode hid
      obtain ⟨b', hb', hnode'⟩ := hP node hnode
      have hsame : b'.id = b.id := (congrArg Handle.id hnode').symm.trans hid
      have hr := h.shares i j seq a hij hi hold b' hb' b hb hsame
      unfold Leaf.Resident at hr hnr
      rw [hsame] at hr
      exact hnr hr
  case shares =>
    intro j k a b hjk ha hb x hx y hy hid
    rcases hget ha with ⟨rfl, rfl⟩ | ⟨hij, ha'⟩
    · rcases hget hb with ⟨rfl, -⟩ | ⟨hik, hb'⟩
      · exact absurd rfl hjk
      · exact hshares x hx k b hik hb' y hy hid
    · rcases hget hb with ⟨rfl, rfl⟩ | ⟨hik, hb'⟩
      · have hr := hshares y hy j a hij ha' x hx hid.symm
        unfold Leaf.Resident at hr ⊢
        rw [hid]
        exact hr
      · have hr := h.shares j k a b hjk ha' hb' x hx y hy hid
        exact he.resident h.sound hs'
          (mem_map_of_mem (LinearWorld.mem_others hij ha' hx)) hr

theorem LinearInv.leaf (h : LinearInv w) {retained : List (Block Key)}
    (hs' : Sound True s' ((w.slots ++ retained).map Block.handle))
    (he : w.leaf.Evolves s' (w.slots.map Block.handle) (fun _ => False)) :
    LinearInv { w with leaf := s', retained } := by
  have hmem : ∀ a ∈ w.seqs, ∀ x ∈ a.linearBlocks, x.handle ∈ w.slots.map Block.handle := by
    intro a ha x hx
    exact mem_map_of_mem (mem_flatMap.mpr ⟨a, ha, hx⟩)
  constructor
  case sound => exact hs'
  case slot =>
    intro a ha
    exact (h.slot a ha).evolve he h.sound hs' (hmem a ha) fun _ _ _ _ hf => hf.elim
  case shares =>
    intro j k a b hjk ha hb x hx y hy hid
    exact he.resident h.sound hs' (hmem a (mem_of_getElem? ha) x hx)
      (h.shares j k a b hjk ha hb x hx y hy hid)

theorem LinearInv.arrive (h : LinearInv w) (seq : LinearSequence Key)
    (hempty : seq.linearBlocks = []) (hidle : seq.scheduled = false) :
    LinearInv { w with seqs := w.seqs ++ [seq] } := by
  have hget : ∀ {j : Nat} {a : LinearSequence Key}, (w.seqs ++ [seq])[j]? = some a →
      ∀ {x : Block Key}, x ∈ a.linearBlocks → w.seqs[j]? = some a := by
    intro j a ha x hx
    by_cases hlt : j < w.seqs.length
    · rwa [List.getElem?_append_left hlt] at ha
    · rw [List.getElem?_append_right (Nat.not_lt.mp hlt)] at ha
      have := mem_of_getElem? ha
      rw [mem_singleton] at this
      rw [this, hempty] at hx
      exact nomatch hx
  constructor
  case sound =>
    have hslots : ({ w with seqs := w.seqs ++ [seq] } : LinearWorld Key).slots = w.slots := by
      unfold LinearWorld.slots
      rw [flatMap_append, flatMap_singleton, hempty, append_nil]
    rw [hslots]
    exact h.sound
  case slot =>
    intro a ha
    rcases mem_append.mp ha with ha | ha
    · exact h.slot a ha
    · rw [mem_singleton] at ha
      rw [ha]
      exact .nil _ hempty hidle
  case shares =>
    intro i j a b hij ha hb x hx y hy hid
    exact h.shares i j a b hij (hget ha hx) (hget hb hy) x hx y hy hid

theorem LinearInv.shares_kept (h : LinearInv w) (hi : w.seqs[i]? = some seq) {x : Block Key}
    (hx : x.handle ∈ seq.linearBlocks.map Block.handle)
    (hij : i ≠ j) (hb : w.seqs[j]? = some b) (hy : y ∈ b.linearBlocks)
    (hid : x.id = y.id) : w.leaf.Resident x := by
  obtain ⟨x', hx', hsame⟩ := mem_map.mp hx
  have hid' : x'.id = x.id := congrArg Handle.id hsame
  have hr := h.shares i j seq b hij hi hb x' hx' y hy (hid'.trans hid)
  unfold Leaf.Resident at hr ⊢
  rw [← hid']
  exact hr

end

/-! ## Safe steps -/

/-- Only a growth can be unsafe. -/
def LinearWorld.Safe (w : LinearWorld Key) : LinearOp Key → Prop
  | .allocate i restoreTokens acceptedLength _ _ =>
    ∀ seq, w.seqs[i]? = some seq → w.leaf.SlotSafe seq restoreTokens acceptedLength
  | _ => True

section

variable {α : Type}

instance decidableForallSingle {p : α → Prop} [DecidablePred p] :
    ∀ l : List α, Decidable (∀ b, l = [b] → p b)
  | [] => .isTrue nofun
  | [b] => decidable_of_iff (p b) ⟨fun h _ hb => (List.cons.inj hb).1 ▸ h, fun h => h b rfl⟩
  | _ :: _ :: _ => .isTrue nofun

instance decidableForallPair {p : α → Prop} [DecidablePred p] :
    ∀ l : List α, Decidable (∀ f b, l = [f, b] → p f)
  | [] => .isTrue nofun
  | [_] => .isTrue nofun
  | [f, b] => decidable_of_iff (p f)
      ⟨fun h _ _ hb => (List.cons.inj hb).1 ▸ h, fun h => h f b rfl⟩
  | _ :: _ :: _ :: _ => .isTrue nofun

instance (s : Leaf Key) (b : Block Key) : Decidable (s.Resident b) :=
  inferInstanceAs (Decidable (b.id ∈ s.prefixCache.blocksById))

instance (s : Leaf Key) : Decidable s.canSupply := inferInstanceAs (Decidable (0 < _))

instance (s : Leaf Key) (seq : LinearSequence Key) : Decidable (s.predictsCheckpoint seq) :=
  inferInstanceAs (Decidable (_ = true))

instance (s : Leaf Key) (seq : LinearSequence Key) (acceptedLength : Nat) :
    Decidable (s.swapsSlots seq acceptedLength) :=
  inferInstanceAs (Decidable (_ = true → _ = true ∧ _ = false))

instance (s : Leaf Key) (seq : LinearSequence Key) (restoreTokens acceptedLength : Nat) :
    Decidable (s.SlotSafe seq restoreTokens acceptedLength) :=
  inferInstanceAs (Decidable (if _ = true then
    ∀ b, seq.linearBlocks = [b] → s.Resident b → restoreTokens ≤ seq.kvCacheTokensNum →
      s.canSupply
    else (∀ b, seq.linearBlocks = [b] → s.Resident b → s.predictsCheckpoint seq ∧ s.canSupply) ∧
      ∀ f b, seq.linearBlocks = [f, b] → s.swapsSlots seq acceptedLength → ¬ s.Resident f))

instance (w : LinearWorld Key) : ∀ op : LinearOp Key, Decidable (w.Safe op)
  | .allocate i restoreTokens acceptedLength _ _ =>
    inferInstanceAs (Decidable (∀ seq ∈ w.seqs[i]?,
      w.leaf.SlotSafe seq restoreTokens acceptedLength))
  | .arrive .. | .append .. | .mount .. | .deallocate .. | .retain .. | .drop .. | .evict ..
  | .resetPrefixCache => .isTrue trivial

end

/-! ## One step -/

/-- A vector access past the end, or a prefix hit for a sequence that has slots. -/
def Fatal.OfLinear (e : Fatal) : Prop := e = .outOfBounds ∨ e = .mountOverBlocks

section

variable (xxh3 : HashInput Key → Key) [Inhabited Key] {w : LinearWorld Key}

theorem LinearWorld.allocate_spec (h : LinearInv w) (i restoreTokens acceptedLength : Nat)
    (committed : Bool) (cachedAfter : Nat) :
    Outcome Fatal.OfLinear
      (fun w' => w.Safe (.allocate i restoreTokens acceptedLength committed cachedAfter) →
        LinearInv w')
      (w.step xxh3 (.allocate i restoreTokens acceptedLength committed cachedAfter)) := by
  unfold LinearWorld.step
  dsimp only
  cases hi : w.seqs[i]? with
  | none => exact Or.inl rfl
  | some seq =>
    refine Outcome.bind ((allocateForSequence_spec xxh3 (h.slot seq (mem_of_getElem? hi))
      (h.soundAt hi) restoreTokens acceptedLength).mono (fun e he => Or.inl he) (fun r hr => hr)) ?_
    rintro ⟨s', seq', grown⟩ hgrew
    have hslots := hgrew.slots
    have hothers : w.leaf.Evolves s' ((w.others i).map Block.handle) _ :=
      hslots.evolves.mono (fun x hx => mem_append.mpr (Or.inr hx)) fun _ hn => hn
    -- a slot the sequence kept is resident if others have it
    have hkept : ∀ x ∈ seq'.linearBlocks, ∀ j b, i ≠ j → w.seqs[j]? = some b →
        ∀ y ∈ b.linearBlocks, x.id = y.id → s'.Resident x := by
      intro x hx j b hij hb y hy hid
      have hmem := mem_map_of_mem (f := Block.handle) hx
      exact hslots.evolves.resident h.sound hslots.sound (mem_append.mpr (Or.inl hmem))
        (h.shares_kept hi (hslots.subperm.subset hmem) hij hb hy hid)
    cases grown with
    | none =>
      exact fun hsafe => h.update hi hslots.sound hothers (fun _ hn => hn)
        (hgrew.rest (hsafe seq hi)) hkept
    | some grown =>
      cases committed with
      | false =>
        obtain ⟨s'', hrun, hs'', hevolves⟩ := hslots.sound.releaseAll_evolves (P := fun _ => False)
        dsimp only [Option.getD_some] at hrun ⊢
        rw [hrun]
        refine fun hsafe => h.update hi hs'' (hothers.trans ((hevolves _).mono (fun _ hx => hx)
          fun _ hf => hf.elim)) (fun _ hn => hn) ?_ ?_
        · exact (hgrew.rest (hsafe seq hi)).evolve
            (hevolves (seq'.linearBlocks.map Block.handle)) hslots.sound hs''
            (fun b hb => mem_map_of_mem hb) fun _ _ _ _ hf => hf.elim
        · intro x hx j b hij hb y hy hid
          exact (hevolves [x.handle]).resident hslots.sound hs'' (by simp)
            (hkept x hx j b hij hb y hy hid)
      | true =>
        intro hsafe
        refine h.update hi ?_ hothers (fun _ hn => hn) (hgrew.commit (hsafe seq hi) cachedAfter) ?_
        · refine hslots.sound.perm ?_
          rw [map_append, ← List.append_assoc]
          exact perm_append_comm.append_right _
        · intro x hx j b hij hb y hy hid
          rcases mem_append.mp hx with hx | hx
          · exact hkept x hx j b hij hb y hy hid
          · refine absurd hid.symm (hslots.fresh.unheld x hx y.handle ?_)
            exact mem_append.mpr (Or.inr (mem_map_of_mem
              (LinearWorld.mem_others hij hb hy)))

theorem LinearWorld.mount_spec (h : LinearInv w) (i restoreTokens kvBlocks kvBlockSize : Nat) :
    Outcome Fatal.OfLinear LinearInv
      (w.step xxh3 (.mount i restoreTokens kvBlocks kvBlockSize)) := by
  unfold LinearWorld.step
  dsimp only
  cases hi : w.seqs[i]? with
  | none => exact Or.inl rfl
  | some seq =>
    refine Outcome.bind (mountLinear_spec xxh3 (h.slot seq (mem_of_getElem? hi))
      (h.soundAt hi) restoreTokens kvBlocks kvBlockSize) ?_
    rintro ⟨s', seq'⟩ ⟨hs', hevolves, hslot, hsource⟩
    refine h.update hi hs' (hevolves _) (fun _ hf => hf.elim) hslot ?_
    intro x hx j b hij hb y hy hid
    rcases hsource with hsame | hresident
    · rw [hsame] at hx
      exact (hevolves [x.handle]).resident h.sound hs' (by simp)
        (h.shares_kept hi (mem_map_of_mem hx) hij hb hy hid)
    · exact hresident x hx

/-- Every step keeps the invariant if the growths in it are safe, and safe or not, none publishes a
block under a second key. -/
theorem LinearWorld.step_inv (h : LinearInv w) (op : LinearOp Key) :
    Outcome Fatal.OfLinear (fun w' => w.Safe op → LinearInv w') (w.step xxh3 op) := by
  cases op with
  | allocate i restoreTokens acceptedLength committed cachedAfter =>
    exact w.allocate_spec xxh3 h i restoreTokens acceptedLength committed cachedAfter
  | mount i restoreTokens kvBlocks kvBlockSize =>
    exact (w.mount_spec xxh3 h i restoreTokens kvBlocks kvBlockSize).imp fun _ hw _ => hw
  | arrive tokenIds mmItems numPromptTokens isGraphWarmup =>
    exact fun _ => h.arrive _ rfl rfl
  | append i tokenIds =>
    unfold LinearWorld.step
    dsimp only
    cases hi : w.seqs[i]? with
    | none => exact Or.inl rfl
    | some seq =>
      have hslot := h.slot seq (mem_of_getElem? hi)
      have hs := h.soundAt hi
      refine fun _ => h.update hi hs (.refl _ _ (fun _ => False))
        (fun _ hf => hf.elim) ⟨hslot.length, hslot.valid, hslot.running, hslot.back,
          hslot.single⟩ ?_
      intro x hx j b hij hb y hy hid
      exact h.shares i j seq b hij hi hb x hx y hy hid
  | deallocate i numPromptTokens =>
    unfold LinearWorld.step
    dsimp only
    cases hi : w.seqs[i]? with
    | none => exact Or.inl rfl
    | some seq =>
      obtain ⟨s', hrun, hs', hevolves⟩ :=
        (h.soundAt hi).releaseAll_evolves (P := fun _ => False)
      dsimp only
      rw [hrun]
      exact fun _ => h.update hi hs' (hevolves _) (fun _ hf => hf.elim) (.nil s' rfl rfl)
        fun x hx => nomatch hx
  | retain i j =>
    unfold LinearWorld.step
    dsimp only
    cases hb : (w.seqs[i]?).bind fun seq => seq.linearBlocks[j]? with
    | none => exact Or.inl rfl
    | some b =>
      obtain ⟨seq, hi, hj⟩ := Option.bind_eq_some_iff.mp hb
      have hmem : b ∈ w.slots ++ w.retained := mem_append.mpr (Or.inl
        (mem_flatMap.mpr ⟨seq, mem_of_getElem? hi, mem_of_getElem? hj⟩))
      obtain ⟨hcopy, hs', hframe, hcache⟩ := h.sound.copyBlock (mem_map_of_mem hmem)
      rcases hc : w.leaf.copyBlock b with ⟨s', b'⟩
      rw [hc] at hcopy hs' hframe hcache
      dsimp only at hcopy hs' hframe hcache
      dsimp only
      rw [hc, hcopy]
      refine fun _ => h.leaf (hs'.perm ?_) (.of_prefixCache hframe hcache _ _)
      have hsplit : (w.slots ++ (w.retained ++ [b])).map Block.handle =
          (w.slots ++ w.retained).map Block.handle ++ [b.handle] := by
        rw [← List.append_assoc, map_append]
        rfl
      rw [hsplit]
      exact (perm_append_singleton _ _).symm
  | drop k =>
    unfold LinearWorld.step
    dsimp only
    cases hk : w.retained[k]? with
    | none => exact Or.inl rfl
    | some b =>
      have hperm : ((w.slots ++ w.retained).map Block.handle).Perm
          (b.handle :: (w.slots ++ w.retained.eraseIdx k).map Block.handle) := by
        rw [map_append, map_append]
        exact ((handles_eraseIdx hk).append_left _).trans perm_middle
      obtain ⟨s', hrun, hs', hevolves⟩ :=
        (h.sound.perm hperm).release_evolves (P := fun _ => False)
      dsimp only
      rw [hrun]
      exact fun _ => h.leaf hs' (hevolves _)
  | evict nBlocks =>
    obtain ⟨s', evicted, hrun, -, hs', hshrunk⟩ := evict_spec h.sound nBlocks
    unfold LinearWorld.step
    dsimp only
    rw [hrun]
    exact fun _ => h.leaf hs' ((Leaf.Evolves.of_sublist h.sound hshrunk.frame hshrunk.sublist
      hshrunk.keepsShared).mono (fun x hx => by
        rw [map_append]; exact mem_append.mpr (Or.inl hx)) fun _ hf => hf)
  | resetPrefixCache =>
    obtain ⟨s', hrun, hs', hframe, hsub, hkeep⟩ := resetPrefixCache_spec h.sound
    unfold LinearWorld.step
    rw [hrun]
    exact fun _ => h.leaf hs' ((Leaf.Evolves.of_sublist h.sound hframe hsub hkeep).mono
      (fun x hx => by rw [map_append]; exact mem_append.mpr (Or.inl hx)) fun _ hf => hf)

/-! ## Runs -/

omit [DecidableEq Key] [Inhabited Key] in
/-- In a well-formed world every sequence that may run writes a private slot. -/
theorem LinearInv.writesPrivate [DecidableEq Key] (h : LinearInv w) : w.WritesPrivate := by
  intro seq hseq hrun
  have hslot := h.slot seq hseq
  unfold LinearSequence.writeSlot
  cases hblocks : seq.linearBlocks with
  | nil => exact absurd hblocks (hslot.running hrun)
  | cons f rest =>
    cases rest with
    | nil =>
      refine ⟨f, rfl, hslot.valid f (by rw [hblocks]; simp), fun hr => ?_⟩
      rw [(hslot.single f hblocks hr).1] at hrun
      exact nomatch hrun
    | cons b rest =>
      cases rest with
      | nil => exact ⟨b, rfl, hslot.valid b (by rw [hblocks]; simp), hslot.back f b hblocks⟩
      | cons c rest =>
        have := hslot.length
        rw [hblocks] at this
        exact nomatch this

/-- The write slot of a sequence is one that no other request can hit. -/
def LinearWorld.WriteSlotPrivate (w : LinearWorld Key) (seq : LinearSequence Key) : Prop :=
  ∃ b, seq.writeSlot = some b ∧ b.isValid = true ∧ ¬ w.leaf.Resident b

/-- After a growth that succeeded the write slot is private exactly when the growth was safe. -/
theorem LinearInv.growth_private_iff (h : LinearInv w)
    {i restoreTokens acceptedLength cachedAfter : Nat} {w' : LinearWorld Key}
    {seq seq' : LinearSequence Key} (hi : w.seqs[i]? = some seq)
    (hstep : w.step xxh3 (.allocate i restoreTokens acceptedLength true cachedAfter) = .ok w')
    (hi' : w'.seqs[i]? = some seq') (hrun : seq'.scheduled = true) :
    w'.WriteSlotPrivate seq' ↔ w.leaf.SlotSafe seq restoreTokens acceptedLength := by
  have hlt := (List.getElem?_eq_some_iff.mp hi).1
  unfold LinearWorld.step at hstep
  dsimp only at hstep
  rw [hi] at hstep
  obtain ⟨⟨s', grownSeq, grown⟩, hgrow, hstep⟩ := bind_eq_ok.mp hstep
  have hgrew := (allocateForSequence_spec xxh3 (h.slot seq (mem_of_getElem? hi))
    (h.soundAt hi) restoreTokens acceptedLength).of_ok hgrow
  cases grown with
  | none =>
    cases hstep
    rw [List.getElem?_set_self hlt, Option.some.injEq] at hi'
    rw [← hi'] at hrun
    exact nomatch hrun
  | some grown =>
    cases hstep
    rw [List.getElem?_set_self hlt, Option.some.injEq] at hi'
    obtain ⟨-, b, hlast, hvalid, hprivate⟩ := hgrew.writes grown rfl
    rw [← hprivate, ← hi']
    unfold LinearWorld.WriteSlotPrivate LinearSequence.writeSlot
    rw [hlast]
    constructor
    · rintro ⟨x, hx, -, hr⟩
      rw [Option.some.inj hx]
      exact hr
    · exact fun hr => ⟨b, rfl, hvalid, hr⟩

theorem LinearInv.of_run {options : Options} {self : Nat} {s : Leaf Key}
    (hinit : Leaf.initLinear options self = .ok s) {ops : List (LinearOp Key)}
    (run : ReachesWith (LinearWorld.step xxh3) LinearWorld.Safe { leaf := s } ops w) :
    LinearInv w := by
  refine run.invariant (fun w op w' h hsafe hstep => (w.step_inv xxh3 h op).of_ok hstep hsafe) ?_
  obtain ⟨s', hs', hinit⟩ := bind_eq_ok.mp hinit
  split at hinit
  · exact nomatch hinit
  · rw [Except.ok.injEq] at hinit
    subst hinit
    obtain ⟨hpos, -, rfl⟩ := init_inv hs'
    exact ⟨initial_sound self hpos, fun a ha => (nomatch ha),
      fun i j a b _ ha => nomatch ha⟩

/-- In every run whose growths are all safe, no sequence that may run writes a block that is
resident, and no step publishes a block under a second key. Safety is not more than that needs:
in every world of such a run, the write slot after a growth is private only if the growth was
safe. -/
theorem checkpoint_not_overwritten (options : Options) (self : Nat) (s : Leaf Key)
    (hinit : Leaf.initLinear options self = .ok s) (ops : List (LinearOp Key)) (w : LinearWorld Key)
    (run : ReachesWith (LinearWorld.step xxh3) LinearWorld.Safe { leaf := s } ops w) :
    w.WritesPrivate ∧
      (∀ op id, w.step xxh3 op ≠ .error (.duplicateBlockId id)) ∧
      ∀ i restoreTokens acceptedLength cachedAfter seq w' seq', w.seqs[i]? = some seq →
        w.step xxh3 (.allocate i restoreTokens acceptedLength true cachedAfter) = .ok w' →
        w'.seqs[i]? = some seq' → seq'.scheduled = true →
          (w'.WriteSlotPrivate seq' ↔ w.leaf.SlotSafe seq restoreTokens acceptedLength) := by
  have h := LinearInv.of_run xxh3 hinit run
  refine ⟨h.writesPrivate, fun op id hdup => ?_, ?_⟩
  · rcases (w.step_inv xxh3 h op).of_error hdup with he | he
    · exact nomatch he
    · exact nomatch he
  · intro i restoreTokens acceptedLength cachedAfter seq w' seq' hi hstep hi' hrun
    exact h.growth_private_iff xxh3 hi hstep hi' hrun

end

/-- A chain hash that counts its links. -/
def countLinks : HashInput Nat → Nat
  | .tokens none _ => 0
  | .tokens (some key) _ => key + 1
  | .mm key _ => key

/-- A prompt of three tokens in chunks of two, its publication, and a decode step. -/
theorem checkpoint_not_overwritten_prefill :
    ∃ (s : Leaf Nat) (w : LinearWorld Nat),
      Leaf.initLinear { numBlocks := 4, blockSize := 2 } 0 = .ok s ∧
      ReachesWith (LinearWorld.step countLinks) LinearWorld.Safe { leaf := s }
        [.arrive [1, 2, 3] [] 3 false, .allocate 0 0 0 true 2, .allocate 0 0 0 true 3] w ∧
      w.leaf.prefixCache.numBlocks = 1 ∧ w.WritesPrivate := by
  have hinit : (Leaf.initLinear { numBlocks := 4, blockSize := 2 } 0 :
      Except Fatal (Leaf Nat)) = .ok (Leaf.initial
        { numBlocks := 4, blockSize := 2, blockType := .linear } 0) := rfl
  have hrun : ∃ w : LinearWorld Nat, ReachesWith (LinearWorld.step countLinks) LinearWorld.Safe
      { leaf := Leaf.initial { numBlocks := 4, blockSize := 2, blockType := .linear } 0 }
      [.arrive [1, 2, 3] [] 3 false, .allocate 0 0 0 true 2, .allocate 0 0 0 true 3] w ∧
      decide (w.leaf.prefixCache.numBlocks = 1) = true := ReachesWith.of_check _ _ _ (by decide)
  obtain ⟨w, run, hone⟩ := hrun
  exact ⟨_, w, hinit, run, of_decide_eq_true hone,
    (checkpoint_not_overwritten countLinks _ 0 _ hinit _ w run).1⟩

/-- A sequence has a block at its back that is resident, and may run. -/
def LinearWorld.writesResident (w : LinearWorld Key) : Bool :=
  w.seqs.any fun seq => seq.scheduled && seq.linearBlocks.getLast?.any fun b =>
    decide (w.leaf.Resident b)

theorem LinearWorld.not_writesPrivate {w : LinearWorld Key} (h : w.writesResident = true) :
    ¬ w.WritesPrivate := by
  intro hprivate
  unfold LinearWorld.writesResident at h
  rw [any_eq_true] at h
  obtain ⟨seq, hseq, h⟩ := h
  rw [Bool.and_eq_true] at h
  obtain ⟨b, hb, -, hn⟩ := hprivate seq hseq h.1
  unfold LinearSequence.writeSlot at hb
  rw [hb] at h
  exact hn (of_decide_eq_true h.2)

/-- The statement of safety for every run, without a condition on its growths. -/
def AlwaysPrivate (xxh3 : HashInput Nat → Nat) : Prop :=
  ∀ (options : Options) (self : Nat) (s : Leaf Nat), options.enablePrefixCache = true →
    options.prefixCachePublishMode = .automatic → Leaf.initLinear options self = .ok s →
    ∀ (ops : List (LinearOp Nat)) (w : LinearWorld Nat),
      Reaches (LinearWorld.step xxh3) { leaf := s } ops w →
      w.WritesPrivate ∧ ∀ op id, w.step xxh3 op ≠ .error (.duplicateBlockId id)

/-- Decode swaps a published checkpoint to the back: prefill publishes slot 1 and writes slot 2; the
first decode step completes no checkpoint, swaps the two, and writes the published slot. -/
theorem decode_swap_overwrites : ¬ AlwaysPrivate countLinks := by
  intro h
  have hrun : ∃ w : LinearWorld Nat, Reaches (LinearWorld.step countLinks)
      { leaf := Leaf.initial { numBlocks := 4, blockSize := 2, blockType := .linear } 0 }
      [.arrive [1, 2, 3] [] 3 false, .allocate 0 0 0 true 2, .allocate 0 0 0 true 3,
        .append 0 [4], .allocate 0 0 0 true 4] w ∧
      w.writesResident = true := ReachesWith.of_check _ _ _ (by decide)
  obtain ⟨w, run, hbad⟩ := hrun
  exact w.not_writesPrivate hbad
    (h { numBlocks := 4, blockSize := 2 } 0 _ rfl rfl rfl _ w run).1

end Xllm.Framework
