import Xllm.PrefixCache.BlockHasher
import Xllm.Lib.Outcome

/-!
# Hash chains are defined on every complete block

`num_hash_blocks` counts the blocks whose tokens, lookahead included, are present, so no CHECK of a
hasher fires while a chain stays below it.
-/

namespace Xllm.Framework

open Xllm.Lib

variable {Key : Type} (xxh3 : HashInput Key → Key)

theorem numHashBlocks_le {type : BlockHasherType} {numTokens blockSize n : Nat}
    (hn : n ≤ numHashBlocks type numTokens blockSize) (hpos : 0 < n) :
    n * blockSize + blockHashLookahead type ≤ numTokens := by
  unfold numHashBlocks at hn
  dsimp only at hn
  split at hn
  · omega
  · have := Nat.div_mul_le_self (numTokens - blockHashLookahead type) blockSize
    have := Nat.mul_le_mul_right blockSize hn
    omega

theorem numHashBlocks_mono (type : BlockHasherType) {m n : Nat} (h : m ≤ n) (blockSize : Nat) :
    numHashBlocks type m blockSize ≤ numHashBlocks type n blockSize := by
  unfold numHashBlocks
  dsimp only
  split
  · exact Nat.zero_le _
  · rw [if_neg (by omega)]
    exact Nat.div_le_div_right (by omega)

theorem sliceTokens_ok {tokenIds : List Int} {startTokenIdx endTokenIdx : Nat}
    (hle : startTokenIdx ≤ endTokenIdx) (hlen : endTokenIdx ≤ tokenIds.length) :
    sliceTokens tokenIds startTokenIdx endTokenIdx =
      .ok ((tokenIds.drop startTokenIdx).take (endTokenIdx - startTokenIdx)) := by
  unfold sliceTokens
  rw [if_pos ⟨hle, hlen⟩]

theorem computeBase_ok (hasher : BlockHasher Key) (mm : Bool) {tokenIds : List Int}
    {startTokenIdx endTokenIdx : Nat} (preHashValue : Option Key)
    (hle : startTokenIdx ≤ endTokenIdx) (hlen : endTokenIdx ≤ tokenIds.length) :
    ∃ hasher' key, hasher.computeBase xxh3 mm tokenIds startTokenIdx endTokenIdx preHashValue =
      .ok (hasher', key) ∧ hasher'.type = hasher.type := by
  unfold BlockHasher.computeBase
  rw [sliceTokens_ok hle hlen]
  cases mm with
  | false => exact ⟨_, _, rfl, rfl⟩
  | true => exact ⟨_, _, rfl, rfl⟩

theorem compute_ok (hasher : BlockHasher Key) (tokenIds : List Int)
    (startTokenIdx endTokenIdx : Nat) (preHashValue : Option Key)
    (hle : startTokenIdx ≤ endTokenIdx)
    (hlen : endTokenIdx + blockHashLookahead hasher.type ≤ tokenIds.length) :
    ∃ hasher' key, hasher.compute xxh3 tokenIds startTokenIdx endTokenIdx preHashValue =
      .ok (hasher', key) ∧ hasher'.type = hasher.type := by
  unfold BlockHasher.compute
  cases htype : hasher.type with
  | text =>
    rw [htype] at hlen
    have := computeBase_ok xxh3 hasher false preHashValue hle hlen
    rwa [htype] at this
  | mm =>
    rw [htype] at hlen
    have := computeBase_ok xxh3 hasher true preHashValue hle hlen
    rwa [htype] at this
  | mtpText =>
    rw [htype] at hlen
    have hlt : endTokenIdx + 1 ≤ tokenIds.length := hlen
    have := computeBase_ok xxh3 hasher false preHashValue (Nat.le_succ_of_le hle) hlt
    rw [if_pos (by omega)]
    rwa [htype] at this
  | mtpMm =>
    rw [htype] at hlen
    have hlt : endTokenIdx + 1 ≤ tokenIds.length := hlen
    have := computeBase_ok xxh3 hasher true preHashValue (Nat.le_succ_of_le hle) hlt
    dsimp only
    rw [if_pos (by omega)]
    rwa [htype] at this

theorem hashChain_ok (blockSize : Nat) (tokenIds : List Int) :
    ∀ (count : Nat) (hasher : BlockHasher Key) (b : Nat) (preHashValue : Option Key),
      (count = 0 ∨ (b + count) * blockSize + blockHashLookahead hasher.type ≤ tokenIds.length) →
      ∃ keys, hashChain xxh3 blockSize tokenIds count hasher b preHashValue = .ok keys ∧
        keys.length = count := by
  intro count
  induction count with
  | zero => intro hasher b pre _; exact ⟨[], rfl, rfl⟩
  | succ count ih =>
    intro hasher b pre hlen
    have hroom : (b + (count + 1)) * blockSize + blockHashLookahead hasher.type ≤
        tokenIds.length := by
      rcases hlen with h0 | h
      · cases h0
      · exact h
    have hsplit : (b + (count + 1)) * blockSize =
        b * blockSize + blockSize + count * blockSize := by
      rw [Nat.add_mul, Nat.succ_mul]; omega
    obtain ⟨hasher', key, hrun, htype⟩ := compute_ok xxh3 hasher tokenIds
      (b * blockSize) (b * blockSize + blockSize) pre (by omega) (by omega)
    obtain ⟨keys, hkeys, hkeyslen⟩ := ih hasher' (b + 1) (some key) (by
      right
      rw [htype, Nat.add_assoc, Nat.add_comm 1]
      exact hroom)
    refine ⟨key :: keys, ?_, by rw [List.length_cons, hkeyslen]⟩
    unfold hashChain
    rw [hrun]
    simp only [bind, Except.bind, hkeys]

/-- `extend_prefix_hashes` always succeeds: it appends keys until the boundary is covered. -/
theorem extendPrefixHashes_ok (type : BlockHasherType) (mmItems : List (MMItem Key))
    (tokenIds : List Int) (blockSize boundaryBlocks : Nat) (hashes : List Key) :
    ∃ keys, extendPrefixHashes xxh3 type mmItems tokenIds blockSize boundaryBlocks hashes =
        .ok (hashes ++ keys) ∧
      (0 < blockSize → min boundaryBlocks (numHashBlocks type tokenIds.length blockSize) ≤
          (hashes ++ keys).length) := by
  unfold extendPrefixHashes
  dsimp only
  split
  · refine ⟨[], by rw [List.append_nil], fun hpos => ?_⟩
    rw [List.append_nil]
    omega
  · rename_i hmore
    generalize hn : min boundaryBlocks (numHashBlocks type tokenIds.length blockSize) = n at hmore
    have hroom := numHashBlocks_le (by omega : n ≤ numHashBlocks type tokenIds.length blockSize)
      (by omega)
    obtain ⟨keys, hrun, hlen⟩ := hashChain_ok xxh3 blockSize tokenIds (n - hashes.length)
      (BlockHasher.create type mmItems (hashes.length * blockSize)) hashes.length
      hashes.getLast? (Or.inr (by
        have hsum : hashes.length + (n - hashes.length) = n := by omega
        rw [hsum]
        exact hroom))
    refine ⟨keys, ?_, fun _ => by rw [List.length_append, hlen]; omega⟩
    rw [hrun]
    rfl

end Xllm.Framework
