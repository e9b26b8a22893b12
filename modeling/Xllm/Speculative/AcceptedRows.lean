import Mathlib
import Xllm.Lib.Outcome
import Xllm.Speculative.AcceptedState

/-!
# Three readings of an accepted row

The cache scans a row up to its first negative token, the device counts the tokens that are not
negative and gathers, and the input builder goes through a window of the flattened rows. On a row that
is a run of tokens followed by -1 (`AcceptedRow`) all three see the run: `targetState_eq`,
`buildAcceptedState_spec` and `resolve_spec` say what each makes of it.
-/

namespace Xllm.Speculative

open Xllm.Lib List
open EmbeddingCache

/-- A row of accepted tokens: a non-empty run of tokens, and -1. -/
structure AcceptedRow (width : Nat) (tokens row : List Int) : Prop where
  nonempty : tokens ≠ []
  token : ∀ t ∈ tokens, 0 ≤ t ∧ t ≤ maxInt32
  length_le : tokens.length ≤ width
  row_eq : row = tokens ++ List.replicate (width - tokens.length) (-1)

namespace AcceptedRow

variable {width : Nat} {tokens row : List Int}

theorem length_pos (h : AcceptedRow width tokens row) : 0 < tokens.length :=
  length_pos_iff.mpr h.nonempty

theorem length_eq (h : AcceptedRow width tokens row) : row.length = width := by
  rw [h.row_eq, length_append, length_replicate]
  have := h.length_le
  omega

theorem getElem? (h : AcceptedRow width tokens row) {j : Nat} (hj : j < tokens.length) :
    row[j]? = tokens[j]? := by
  rw [h.row_eq, List.getElem?_append_left hj]

theorem countP (h : AcceptedRow width tokens row) :
    (row.countP fun token => 0 ≤ token) = tokens.length := by
  have hrun : (tokens.countP fun token => 0 ≤ token) = tokens.length :=
    countP_eq_length.mpr fun t ht => decide_eq_true (h.token t ht).1
  have hpad : ((List.replicate (width - tokens.length) (-1 : Int)).countP fun token => 0 ≤ token) = 0 :=
    countP_eq_zero.mpr fun t ht => by simp [eq_of_mem_replicate ht]
  rw [h.row_eq, countP_append, hrun, hpad, Nat.add_zero]

end AcceptedRow

/-! ## The three readings of one row -/

variable {tokens : List Int}

theorem scanAccepted_run (hne : tokens ≠ [])
    (h : ∀ t ∈ tokens, 0 ≤ t ∧ t ≤ maxInt32) (s : AcceptedScan) (j n : Nat) :
    scanAccepted s j (tokens ++ List.replicate n (-1)) =
      .ok ⟨s.acceptedLen + tokens.length, tokens.getLast hne, tokens.getLast hne,
        (j + tokens.length - 1 : Nat)⟩ := by
  induction tokens generalizing s j with
  | nil => exact absurd rfl hne
  | cons t tokens ih =>
    obtain ⟨hnonneg, hmax⟩ := h t mem_cons_self
    rw [cons_append, scanAccepted, if_neg (Int.not_lt.mpr hnonneg), if_neg (Int.not_lt.mpr hmax)]
    by_cases hrest : tokens = []
    · subst hrest
      cases n with
      | zero => simp [scanAccepted]
      | succ n => simp [replicate_succ, scanAccepted]
    · rw [ih hrest fun u hu => h u (mem_cons_of_mem _ hu), getLast_cons hrest,
        length_cons]
      congr 2
      · push_cast
        omega
      · omega

theorem foldlM_resolveCandidate_run (hne : tokens ≠ [])
    (h : ∀ t ∈ tokens, 0 ≤ t ∧ t ≤ maxInt32) (r : TokenWithOffset) (n : Nat) :
    (tokens ++ List.replicate n (-1)).foldlM resolveCandidate r =
      .ok ⟨tokens.getLast hne, r.positionOffset + tokens.length⟩ := by
  have hpad : ∀ (n : Nat) (r : TokenWithOffset),
      (List.replicate n (-1)).foldlM resolveCandidate r = .ok r := by
    intro n
    induction n with
    | zero => exact fun _ => rfl
    | succ n ih =>
      intro r
      exact ih r
  induction tokens generalizing r with
  | nil => exact absurd rfl hne
  | cons t tokens ih =>
    obtain ⟨hnonneg, hmax⟩ := h t mem_cons_self
    have hone : resolveCandidate r t = .ok ⟨t, r.positionOffset + 1⟩ := by
      rw [resolveCandidate, if_neg (Int.not_lt.mpr hnonneg), if_neg (Int.not_lt.mpr hmax)]
    rw [cons_append, foldlM_cons, hone]
    by_cases hrest : tokens = []
    · subst hrest
      exact hpad n _
    · have hnext := ih hrest (fun u hu => h u (mem_cons_of_mem _ hu)) ⟨t, r.positionOffset + 1⟩
      rw [getLast_cons hrest, length_cons]
      refine hnext.trans ?_
      congr 2
      push_cast
      omega

variable {α : Type}

theorem getElem?_getLast {l : List α} (hne : l ≠ []) :
    l[l.length - 1]? = some (l.getLast hne) := by
  rw [← List.getLast?_eq_getElem?, List.getLast?_eq_some_getLast hne]

variable {E : Type} {width : Nat} {row : List Int}

theorem targetState_eq {P : Type}
    (h : AcceptedRow width tokens row) (retainReplaySpan : Bool) (requestId : String)
    (embeddings : List E) (numSpeculativeTokens : Nat) :
    targetState (P := P) retainReplaySpan requestId row embeddings numSpeculativeTokens = .ok
      { valid := true
        requestId := requestId
        allDraftAccepted := decide (tokens.length = numSpeculativeTokens + 1)
        tokenId := tokens.getLast h.nonempty
        positionOffset := (tokens.length - 1 : Nat)
        correctionTokenId := tokens.getLast h.nonempty
        correctionPositionOffset := (tokens.length - 1 : Nat)
        replayTokenIds := if retainReplaySpan then tokens else []
        replayEmbeddings := if retainReplaySpan then some (embeddings.take tokens.length) else none
        embedding := embeddings[tokens.length - 1]?
        prevTokenId := if tokens.length - 1 > 0 then tokens.getD (tokens.length - 1 - 1) 0 else -1
        prevEmbedding :=
          if tokens.length - 1 > 0 then embeddings[tokens.length - 1 - 1]? else none } := by
  have hscan := scanAccepted_run h.nonempty h.token {} 0 (width - tokens.length)
  rw [← h.row_eq] at hscan
  have hpos := h.length_pos
  have hle : ¬ ((0 : Int) + tokens.length ≤ 0) := by omega
  have hlen : ((0 : Int) + tokens.length).toNat = tokens.length := by omega
  have htake : row.take tokens.length = tokens := by
    rw [h.row_eq, take_left' rfl]
  have hprev : row.getD (tokens.length - 1 - 1) 0 = tokens.getD (tokens.length - 1 - 1) 0 := by
    rw [List.getD_eq_getElem?_getD, List.getD_eq_getElem?_getD, h.getElem? (by omega)]
  unfold targetState
  rw [hscan]
  show (if (0 : Int) + tokens.length ≤ 0 then _ else _) = _
  rw [if_neg hle]
  simp only [hlen, htake, hprev, Nat.zero_add]

/-! ## A batch on the device -/

/-- A batch of accepted rows with the hidden states that predicted their tokens. -/
structure AcceptedBatch (E : Type) where
  numSpeculativeTokens : Nat
  rows : List (List Int)
  embeddings : List (List E)
  accepted : ∀ row ∈ rows, ∃ tokens, AcceptedRow (numSpeculativeTokens + 1) tokens row
  embeddings_length : embeddings.length = rows.length
  embeddings_width : ∀ e ∈ embeddings, e.length = numSpeculativeTokens + 1

namespace AcceptedBatch

variable {E : Type} (batch : AcceptedBatch E)

def tokenRows : TokenRows where
  width := batch.numSpeculativeTokens + 1
  rows := batch.rows
  rectangular row hrow := by
    obtain ⟨tokens, h⟩ := batch.accepted row hrow
    exact h.length_eq

end AcceptedBatch

theorem gatherSequenceRows_spec {values : List (List α)} {indices : List Int}
    (hlen : values.length = indices.length)
    (h : ∀ (i : Nat) row k, values[i]? = some row → indices[i]? = some k → k.toNat < row.length) :
    ∃ column, gatherSequenceRows values indices = .ok column ∧ column.length = values.length ∧
      ∀ (i : Nat) row k, values[i]? = some row → indices[i]? = some k → column[i]? = row[k.toNat]? := by
  have hzip : ∀ (i : Nat) row k, values[i]? = some row → indices[i]? = some k →
      (values.zip indices)[i]? = some (row, k) := fun i row k hrow hk =>
    List.getElem?_zip_eq_some.mpr ⟨hrow, hk⟩
  have hsome : ∀ entry ∈ values.zip indices, ∃ value, entry.1[entry.2.toNat]? = some value := by
    intro entry hentry
    obtain ⟨i, hi⟩ := mem_iff_getElem?.mp hentry
    obtain ⟨hrow, hk⟩ := List.getElem?_zip_eq_some.mp hi
    exact ⟨_, List.getElem?_eq_getElem (h i _ _ hrow hk)⟩
  obtain ⟨column, hcolumn⟩ : ∃ column, gatherSequenceRows values indices = .ok column := by
    rw [gatherSequenceRows, if_neg (by simpa using hlen)]
    refine exists_mapM_ok fun entry hentry => ?_
    obtain ⟨value, hvalue⟩ := hsome entry hentry
    rw [hvalue]
    exact ⟨_, rfl⟩
  have hmapM := hcolumn
  rw [gatherSequenceRows, if_neg (by simpa using hlen)] at hmapM
  obtain ⟨hlength, hget⟩ := of_mapM_ok hmapM
  refine ⟨column, hcolumn, by rw [hlength, length_zip, hlen, Nat.min_self], ?_⟩
  intro i row k hrow hk
  obtain ⟨value, hvalue, heq⟩ := hget i _ (hzip i row k hrow hk)
  have hlt := h i row k hrow hk
  rw [List.getElem?_eq_getElem hlt] at heq ⊢
  cases heq
  exact hvalue

variable {i : Nat}

theorem acceptedLengths_getElem? {rows : List (List Int)}
    (hrow : rows[i]? = some row) (h : AcceptedRow width tokens row) :
    (acceptedLengths rows)[i]? = some (tokens.length : Int) := by
  rw [acceptedLengths, List.getElem?_map, hrow, Option.map_some, h.countP]

theorem indicesBefore_getElem? {lengths : List Int} {length : Int} (n : Int)
    (h : lengths[i]? = some length) : (indicesBefore lengths n)[i]? = some (max (length - n) 0) := by
  rw [indicesBefore, List.getElem?_map, h, Option.map_some]

theorem whereRows_getElem? {conditions : List Bool} {values others : List α}
    {condition : Bool} {value other : α} (hcondition : conditions[i]? = some condition)
    (hvalue : values[i]? = some value) (hother : others[i]? = some other) :
    (whereRows conditions values others)[i]? = some (if condition then value else other) := by
  have hzip : (values.zip others)[i]? = some (value, other) :=
    List.getElem?_zip_eq_some.mpr ⟨hvalue, hother⟩
  rw [whereRows, List.getElem?_zipWith, hcondition, hzip]

/-- What the accepted state of a batch says about one of its rows. -/
structure RowState {E : Type} (accepted : AcceptedState E) (i : Nat) (tokens : List Int)
    (embeddings : List E) (width : Nat) (placeholder : E) (position kvSeqLen : Int) : Prop where
  acceptedLength : accepted.acceptedLengths[i]? = some (tokens.length : Int)
  allDraftAccepted : accepted.allDraftAccepted[i]? = some (decide (tokens.length = width))
  lastToken : accepted.lastTokens[i]? = tokens[tokens.length - 1]?
  previousToken : 1 < tokens.length → accepted.previousTokens[i]? = tokens[tokens.length - 2]?
  lastEmbedding : accepted.lastEmbeddings[i]? = embeddings[tokens.length - 1]?
  previousEmbedding : accepted.previousEmbeddings[i]? =
    if 1 < tokens.length then embeddings[tokens.length - 2]? else some placeholder
  basePosition : accepted.basePositions[i]? = some (position + tokens.length)
  baseKvSeqLen : accepted.baseKvSeqLens[i]? = some (kvSeqLen + tokens.length)

/-- An index clamped to the run lies in every row and in every list of its hidden states. -/
theorem gatherSequenceRows_before (batch : AcceptedBatch E) {values : List (List α)}
    (hlen : values.length = batch.rows.length)
    (hwidth : ∀ row ∈ values, row.length = batch.numSpeculativeTokens + 1) {n : Int} (hn : 1 ≤ n) :
    ∃ column, gatherSequenceRows values (indicesBefore (acceptedLengths batch.rows) n) = .ok column ∧
      column.length = values.length ∧ ∀ (i : Nat) row k, values[i]? = some row →
        (indicesBefore (acceptedLengths batch.rows) n)[i]? = some k → column[i]? = row[k.toNat]? := by
  refine gatherSequenceRows_spec (by rw [indicesBefore, acceptedLengths, length_map, length_map, hlen])
    fun i row k hrow hk => ?_
  rw [indicesBefore, List.getElem?_map, acceptedLengths, List.getElem?_map] at hk
  obtain ⟨length, hlength, rfl⟩ := Option.map_eq_some_iff.mp hk
  obtain ⟨acceptedRow, haccepted, rfl⟩ := Option.map_eq_some_iff.mp hlength
  obtain ⟨tokens, h⟩ := batch.accepted acceptedRow (mem_of_getElem? haccepted)
  rw [h.countP, hwidth row (mem_of_getElem? hrow)]
  have := h.length_le
  omega

/-- The gathers read the last and the last but one accepted position of every row; in a row of one
token the second is clamped, and `whereRows` replaces what it read. -/
theorem buildAcceptedState_spec (batch : AcceptedBatch E) (placeholder : E)
    {basePositions baseKvSeqLens : List Int} (hpositions : batch.rows.length ≤ basePositions.length)
    (hkv : batch.rows.length ≤ baseKvSeqLens.length) :
    ∃ accepted, buildAcceptedState batch.tokenRows batch.embeddings placeholder basePositions
        baseKvSeqLens = .ok accepted ∧
      ∀ (i : Nat) tokens row embeddings position kvSeqLen, batch.rows[i]? = some row →
        AcceptedRow (batch.numSpeculativeTokens + 1) tokens row →
        batch.embeddings[i]? = some embeddings → basePositions[i]? = some position →
        baseKvSeqLens[i]? = some kvSeqLen →
        RowState accepted i tokens embeddings (batch.numSpeculativeTokens + 1) placeholder position
          kvSeqLen := by
  have hgatherTokens := fun n => gatherSequenceRows_before (n := n) batch rfl fun row hrow => by
    obtain ⟨tokens, h⟩ := batch.accepted row hrow
    exact h.length_eq
  have hgatherEmbeddings := fun n =>
    gatherSequenceRows_before (n := n) batch batch.embeddings_length batch.embeddings_width
  obtain ⟨lastTokens, hlastTokens, -, hlastToken⟩ := hgatherTokens 1 (by omega)
  obtain ⟨previousTokens, hpreviousTokens, -, hpreviousToken⟩ := hgatherTokens 2 (by omega)
  obtain ⟨lastEmbeddings, hlastEmbeddings, -, hlastEmbedding⟩ := hgatherEmbeddings 1 (by omega)
  obtain ⟨previousEmbeddings, hpreviousEmbeddings, -, hpreviousEmbedding⟩ :=
    hgatherEmbeddings 2 (by omega)
  refine ⟨{
      acceptedLengths := acceptedLengths batch.rows
      allDraftAccepted := (acceptedLengths batch.rows).map fun (length : Int) =>
        decide (length = (batch.numSpeculativeTokens + 1 : Nat))
      lastTokens := lastTokens
      previousTokens := whereRows ((acceptedLengths batch.rows).map fun length => decide (1 < length))
        previousTokens lastTokens
      lastEmbeddings := lastEmbeddings
      previousEmbeddings :=
        whereRows ((acceptedLengths batch.rows).map fun length => decide (1 < length))
          previousEmbeddings (List.replicate batch.rows.length placeholder)
      basePositions :=
        List.zipWith (· + ·) (basePositions.take batch.rows.length) (acceptedLengths batch.rows)
      baseKvSeqLens :=
        List.zipWith (· + ·) (baseKvSeqLens.take batch.rows.length) (acceptedLengths batch.rows) },
    ?_, ?_⟩
  · unfold buildAcceptedState buildAcceptedTokenMetadata
    rw [if_neg (show batch.tokenRows.width ≠ 0 from Nat.succ_ne_zero _),
      if_neg (show ¬ basePositions.length < batch.tokenRows.rows.length from Nat.not_lt.mpr hpositions),
      if_neg (show ¬ baseKvSeqLens.length < batch.tokenRows.rows.length from Nat.not_lt.mpr hkv)]
    simp only [AcceptedBatch.tokenRows, hlastTokens, batch.embeddings_length, ne_eq, not_true_eq_false,
      if_false, ok_bind, hpreviousTokens, hlastEmbeddings, hpreviousEmbeddings]
    rfl
  · intro i tokens row embeddings position kvSeqLen hrow h hembeddings hposition hkvSeqLen
    have hpos := h.length_pos
    have hle := h.length_le
    have hi : i < batch.rows.length := (List.getElem?_eq_some_iff.mp hrow).1
    have hlength := acceptedLengths_getElem? hrow h
    have hfirst := indicesBefore_getElem? 1 hlength
    have hsecond := indicesBefore_getElem? 2 hlength
    have hindex1 : (max ((tokens.length : Int) - 1) 0).toNat = tokens.length - 1 := by omega
    have hindex2 : (max ((tokens.length : Int) - 2) 0).toNat = tokens.length - 2 := by omega
    have hlast := hlastToken i row _ hrow hfirst
    rw [hindex1, h.getElem? (by omega)] at hlast
    have hprevious := hpreviousToken i row _ hrow hsecond
    rw [hindex2, h.getElem? (by omega)] at hprevious
    have hlastE := hlastEmbedding i embeddings _ hembeddings hfirst
    rw [hindex1] at hlastE
    have hpreviousE := hpreviousEmbedding i embeddings _ hembeddings hsecond
    rw [hindex2] at hpreviousE
    have hcondition : ((acceptedLengths batch.rows).map fun length => decide (1 < length))[i]? =
        some (decide (1 < (tokens.length : Int))) := by
      rw [List.getElem?_map, hlength, Option.map_some]
    have hplaceholder : (List.replicate batch.rows.length placeholder)[i]? = some placeholder :=
      List.getElem?_replicate_of_lt hi
    have hembedding : tokens.length - 2 < embeddings.length := by
      rw [batch.embeddings_width embeddings (mem_of_getElem? hembeddings)]
      omega
    constructor
    · exact hlength
    · rw [List.getElem?_map, hlength, Option.map_some]
      norm_cast
    · exact hlast
    · intro hmore
      have hcast : decide (1 < (tokens.length : Int)) = true := decide_eq_true (by omega)
      have hprevious' := hprevious.trans (List.getElem?_eq_getElem (by omega))
      have hlast' := hlast.trans (List.getElem?_eq_getElem (by omega))
      rw [whereRows_getElem? hcondition hprevious' hlast', hcast, if_pos rfl,
        List.getElem?_eq_getElem]
    · exact hlastE
    · rw [List.getElem?_eq_getElem hembedding] at hpreviousE
      rw [whereRows_getElem? hcondition hpreviousE hplaceholder]
      by_cases hmore : 1 < tokens.length
      · rw [if_pos hmore, if_pos (decide_eq_true (by omega)), List.getElem?_eq_getElem hembedding]
      · rw [if_neg hmore, if_neg (by simpa using by omega)]
    · rw [List.getElem?_zipWith, List.getElem?_take_of_lt hi, hposition, hlength]
    · rw [List.getElem?_zipWith, List.getElem?_take_of_lt hi, hkvSeqLen, hlength]

/-- A placeholder token finds the last token of its row and how far it lies behind the first. -/
theorem resolve_spec (batch : AcceptedBatch E) (hrow : batch.rows[i]? = some row)
    (h : AcceptedRow (batch.numSpeculativeTokens + 1) tokens row) :
    resolveTokenWithPositionOffset (-(i + 1 : Nat)) batch.rows.flatten
        (batch.numSpeculativeTokens + 1) =
      .ok ⟨tokens.getLast h.nonempty, (tokens.length - 1 : Nat)⟩ := by
  have hwidth : ∀ r ∈ batch.rows, r.length = batch.numSpeculativeTokens + 1 := fun r hr => by
    obtain ⟨ts, hts⟩ := batch.accepted r hr
    exact hts.length_eq
  have hidx : (-(-(i + 1 : Nat) : Int) - 1).toNat = i := by omega
  have hneg : ¬ (0 : Int) ≤ -(i + 1 : Nat) := by omega
  have hwindow := take_drop_flatten_of_length hwidth hrow
  have hlength := length_flatten_of_length hwidth
  have hfits : ¬ batch.rows.flatten.length <
      i * (batch.numSpeculativeTokens + 1) + (batch.numSpeculativeTokens + 1) := by
    rw [hlength, ← Nat.succ_mul]
    exact Nat.not_lt.mpr (Nat.mul_le_mul_right _ (List.getElem?_eq_some_iff.mp hrow).1)
  unfold resolveTokenWithPositionOffset
  rw [if_neg (Nat.succ_ne_zero _), if_neg hneg]
  simp only [hidx]
  have hrun := foldlM_resolveCandidate_run h.nonempty h.token { positionOffset := -1 }
    (batch.numSpeculativeTokens + 1 - tokens.length)
  rw [← h.row_eq] at hrun
  rw [if_neg hfits, hwindow, hrun]
  have hpos := h.length_pos
  congr 2
  show (-1 : Int) + tokens.length = (tokens.length - 1 : Nat)
  omega

end Xllm.Speculative
