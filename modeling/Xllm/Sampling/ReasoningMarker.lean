import Xllm.Lib.Follower
import Xllm.Sampling.JsonObjectExact

/-!
# The end of the reasoning phase

In the reasoning phase the matcher follows the end marker with one index (`acceptReasoning`), which on
a mismatch goes back to the first token of the marker only. The phase never ends early, and it ends at
the marker in every run exactly when the marker, wherever it begins again inside itself, goes on so
to its end.
-/

namespace Xllm.Framework.JsonObjectGrammar

open Xllm.Lib JsonObjectGrammarState List

/-- A token of the vocabulary that is no stop token. -/
def Ordinary (g : JsonObjectGrammar) (tokenId : Int) : Prop :=
  (g.tokenPiece? tokenId).isSome = true ∧ tokenId ∉ g.stopTokenIds

/-- Whatever ordinary tokens come, the phase is over as soon as the marker was among them. -/
def EndsAtMarker (g : JsonObjectGrammar) : Prop :=
  ∀ tokenIds, (∀ tokenId ∈ tokenIds, g.Ordinary tokenId) →
    ((g.offerAll (initialState true) tokenIds).reasoningPhase = false ↔
      g.reasoningEndTokenIds <:+: tokenIds)

variable {g : JsonObjectGrammar} {s : JsonObjectGrammarState} {tokenId : Int} {tokenIds : List Int}

/-- In the reasoning phase, at this index of the marker. -/
structure Reasoning (s : JsonObjectGrammarState) (k : Nat) : Prop where
  valid : s.valid = true
  phase : s.reasoningPhase = true
  index : s.reasoningMarkerIndex = k

theorem matching_acceptToken (h : Matching s) : Matching (g.acceptToken s tokenId).1 := by
  by_cases hvalid : s.valid = true
  · rcases haccept : g.acceptToken s tokenId with ⟨t, _ | _⟩
    · rcases acceptToken_rejected h hvalid (by rw [haccept]) with hsame | hdead
      · rw [← haccept, hsame]
        exact h
      · rw [← haccept, hdead]
        exact ⟨h.reasoning, h.root, h.complete, h.typed, h.key, h.unicode, h.literal⟩
    · exact (acceptToken_accepted h hvalid haccept).matching
  · rw [acceptToken_of_invalid (Bool.not_eq_true _ ▸ hvalid)]
    exact h

/-- An ordinary token moves the index as a follower of the marker does. -/
theorem acceptToken_reasoning {k : Nat} (hk : k < g.reasoningEndTokenIds.length)
    (htoken : g.Ordinary tokenId) (h : Reasoning s k) :
    if follow g.reasoningEndTokenIds k tokenId = g.reasoningEndTokenIds.length then
      Matching (g.acceptToken s tokenId).1
    else Reasoning (g.acceptToken s tokenId).1 (follow g.reasoningEndTokenIds k tokenId) := by
  obtain ⟨hpiece, hstop⟩ := htoken
  obtain ⟨piece, hpiece⟩ := Option.isSome_iff_exists.mp hpiece
  have hstep : (g.acceptToken s tokenId).1 = (g.acceptReasoning s tokenId).commit tokenId := by
    unfold acceptToken
    rw [h.valid, hpiece]
    dsimp only
    rw [if_neg hstop, if_pos h.phase]
  rw [hstep]
  unfold acceptReasoning follow
  rw [if_neg (ne_nil_of_length_pos (Nat.zero_lt_of_lt hk)), h.index]
  by_cases hnext : g.reasoningEndTokenIds[k]? = some tokenId
  · rw [if_pos hnext, if_pos hnext]
    by_cases hend : k + 1 = g.reasoningEndTokenIds.length
    · rw [if_pos hend, if_pos hend]
      exact matching_commit (.of_none rfl rfl (fun _ _ => rfl) (by simp) (by simp)) _
    · rw [if_neg hend, if_neg hend]
      exact ⟨h.valid, h.phase, rfl⟩
  · rw [if_neg hnext, if_neg hnext, if_neg]
    · exact ⟨h.valid, h.phase, rfl⟩
    · -- the first token alone is no marker, for then the index was there already
      intro hend
      split at hend
      · next hfirst =>
        obtain rfl : k = 0 := by omega
        exact hnext (head?_eq_getElem? ▸ hfirst)
      · omega

/-- A run of ordinary tokens does what a follower of the marker does. -/
theorem offerAll_spec (hmarker : g.reasoningEndTokenIds ≠ [])
    (htokens : ∀ tokenId ∈ tokenIds, g.Ordinary tokenId) :
    match followFrom g.reasoningEndTokenIds 0 tokenIds with
    | none => Matching (g.offerAll (initialState true) tokenIds)
    | some k => Reasoning (g.offerAll (initialState true) tokenIds) k := by
  induction tokenIds using reverseRecOn with
  | nil => exact ⟨rfl, rfl, rfl⟩
  | append_singleton tokenIds tokenId ih =>
    have ih := ih fun t ht => htokens t (mem_append_left _ ht)
    have hstep : g.offerAll (initialState true) (tokenIds ++ [tokenId]) =
        (g.acceptToken (g.offerAll (initialState true) tokenIds) tokenId).1 := foldl_append
    rw [followFrom_concat, hstep]
    cases hk : followFrom g.reasoningEndTokenIds 0 tokenIds with
    | none =>
      rw [hk] at ih
      exact matching_acceptToken ih
    | some k =>
      rw [hk] at ih
      have hlt := followFrom_spec hmarker tokenIds
      rw [hk] at hlt
      have hnext := acceptToken_reasoning hlt.1 (htokens tokenId mem_concat_self) ih
      rw [Option.bind_some]
      split at hnext
      · next hend =>
        rw [if_pos hend]
        exact hnext
      · next hend =>
        rw [if_neg hend]
        exact hnext

theorem reasoningPhase_iff (hmarker : g.reasoningEndTokenIds ≠ [])
    (htokens : ∀ tokenId ∈ tokenIds, g.Ordinary tokenId) :
    (g.offerAll (initialState true) tokenIds).reasoningPhase = false ↔
      followFrom g.reasoningEndTokenIds 0 tokenIds = none := by
  have hspec := offerAll_spec hmarker htokens
  cases hk : followFrom g.reasoningEndTokenIds 0 tokenIds with
  | none =>
    rw [hk] at hspec
    exact iff_of_true hspec.reasoning rfl
  | some k =>
    rw [hk] at hspec
    rw [hspec.phase]
    exact iff_of_false nofun nofun

/-- The phase ends at every marker exactly if the marker cannot come, or restarts to its end. -/
theorem endsAtMarker_iff (hmarker : g.reasoningEndTokenIds ≠ []) :
    g.EndsAtMarker ↔ (∃ tokenId ∈ g.reasoningEndTokenIds, ¬ g.Ordinary tokenId) ∨
      Restarts g.reasoningEndTokenIds := by
  constructor
  · intro h
    by_contra hnot
    rw [not_or] at hnot
    obtain ⟨hcomes, hrestarts⟩ := hnot
    push Not at hcomes
    obtain ⟨tokenIds, hmem, hinfix, hmissed⟩ := exists_missed hrestarts
    have htokens := fun tokenId htokenId => hcomes tokenId (hmem tokenId htokenId)
    exact hmissed ((reasoningPhase_iff hmarker htokens).mp ((h tokenIds htokens).mpr hinfix))
  · intro h tokenIds htokens
    rw [reasoningPhase_iff hmarker htokens]
    rcases h with ⟨tokenId, hmem, hnot⟩ | hrestarts
    · have habsent : ¬ g.reasoningEndTokenIds <:+: tokenIds := fun hinside =>
        hnot (htokens tokenId (hinside.subset hmem))
      refine iff_of_false (fun hnone => habsent ?_) habsent
      have := followFrom_spec hmarker tokenIds
      rwa [hnone] at this
    · exact followFrom_eq_none_iff hmarker hrestarts tokenIds

/-- A vocabulary of four letters, with an end marker of two equal tokens. -/
def doubledMarker : JsonObjectGrammar where
  tokenPieces := [[ascii 'a'], [ascii 'b'], [ascii 'c'], [ascii 'd']]
  reasoningEndTokenIds := [1, 1]

theorem doubledMarker_endsAtMarker : doubledMarker.EndsAtMarker :=
  (endsAtMarker_iff (by decide)).mpr (.inr fun j h => by
    rcases j with _ | j
    · decide
    · cases h)

/-- The marker 1, 1, 2 is not seen in 1, 1, 1, 2. -/
theorem not_endsAtMarker_overlapping :
    ¬ EndsAtMarker { doubledMarker with reasoningEndTokenIds := [1, 1, 2] } := by
  intro h
  have := (h [1, 1, 1, 2] (by unfold Ordinary; decide)).mpr ⟨[1], [], rfl⟩
  revert this
  decide

end Xllm.Framework.JsonObjectGrammar
