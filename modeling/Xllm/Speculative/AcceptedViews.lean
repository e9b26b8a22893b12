import Xllm.Lib.Run
import Xllm.Speculative.AcceptedRows

/-!
# The cache and the other readings agree

What the cache holds for an id is what its last writer left (`lastWriter`), over any history of writes,
clears and reuses of the id: `Backed` is that refinement, kept by every call. A read under the last
writer's request id gives what the accepted state of the batch and the placeholder of the row give; a
read under another one gives the invalid state.
-/

namespace Xllm.Speculative

open Xllm.Lib List
open EmbeddingCache

variable {E P : Type}

/-! ## The last writer of an id -/

/-- Who wrote the context of an id. -/
inductive CacheWriter (E : Type)
  /-- A prefill, or a handoff. -/
  | first (requestId : String)
  /-- A validation that accepted this row. -/
  | accepted (requestId : String) (row : List Int) (embeddings : List E) (numSpeculativeTokens : Nat)

def CacheWriter.requestId : CacheWriter E → String
  | .first requestId => requestId
  | .accepted requestId _ _ _ => requestId

/-- What a call leaves for which id, in order. -/
def CacheWrite.writers : CacheWrite E P → List (Int × Option (CacheWriter E))
  | .prefillTarget x => (List.range x.ids.length).map fun i =>
      (x.ids.getD i 0, some (.first (x.requestIds.getD i "")))
  | .mtpBootstrap x => [(x.id, some (.first x.requestId))]
  | .target x => (List.range x.ids.length).map fun i =>
      (x.ids.getD i 0, some (.accepted (x.requestIds.getD i "") (x.acceptedTokens.getD i [])
        (x.acceptedEmbeddings.getD i []) x.numSpeculativeTokens))
  | .clear ids => ids.map fun id => (id, none)

/-- A handoff leaves the context of its own request alone. -/
def CacheWrite.keeps (w : Int → Option (CacheWriter E)) : CacheWrite E P → Bool
  | .mtpBootstrap x => (w x.id).any fun writer => x.requestId ≠ "" ∧ writer.requestId = x.requestId
  | _ => false

def assignWriters (w : Int → Option (CacheWriter E)) (entries : List (Int × Option (CacheWriter E))) :
    Int → Option (CacheWriter E) :=
  entries.foldl (fun w entry => Function.update w entry.1 entry.2) w

/-- The last writers after one more call. -/
def afterWrite (w : Int → Option (CacheWriter E)) (write : CacheWrite E P) :
    Int → Option (CacheWriter E) :=
  if write.keeps w then w else assignWriters w write.writers

/-- The last writer of every id after a history. -/
def lastWriter (writes : List (CacheWrite E P)) : Int → Option (CacheWriter E) :=
  writes.foldl afterWrite fun _ => none

/-- What is promised about a call: its accepted rows are as wide as the draft tokens and one more, at
most `maxAcceptedTokens`. -/
def CacheWrite.WellFormed (maxAcceptedTokens : Nat) : CacheWrite E P → Prop
  | .target x => x.numSpeculativeTokens + 1 ≤ maxAcceptedTokens ∧
      ∀ row ∈ x.acceptedTokens, ∃ tokens, AcceptedRow (x.numSpeculativeTokens + 1) tokens row
  | _ => True

/-! ## The cache holds what the last writer left -/

/-- The state an id is left in by its last writer. -/
inductive Left (maxAcceptedTokens : Nat) (retainReplaySpan : Bool) :
    Option (CacheWriter E) → DecodeState E P → Prop
  | never : Left maxAcceptedTokens retainReplaySpan none {}
  | first {requestId : String} {token : Int} (embedding : E) (position : Option P) (h : 0 ≤ token) :
      Left maxAcceptedTokens retainReplaySpan (some (.first requestId))
        (firstState retainReplaySpan requestId token embedding position)
  | accepted {requestId : String} {row tokens : List Int} {embeddings : List E}
      {numSpeculativeTokens : Nat} {state : DecodeState E P}
      (h : AcceptedRow (numSpeculativeTokens + 1) tokens row)
      (width : embeddings.length = row.length) (fits : numSpeculativeTokens + 1 ≤ maxAcceptedTokens)
      (written : targetState retainReplaySpan requestId row embeddings numSpeculativeTokens = .ok state) :
      Left maxAcceptedTokens retainReplaySpan
        (some (.accepted requestId row embeddings numSpeculativeTokens)) state

/-- Every id is in the state its last writer left. -/
structure Backed (maxAcceptedTokens totalNums : Nat) (retainReplaySpan : Bool)
    (c : EmbeddingCache E P) (w : Int → Option (CacheWriter E)) : Prop where
  length : c.decodeTails.length = totalNums
  retain : c.retainReplaySpan = retainReplaySpan
  left : ∀ (id : Int) state, 0 ≤ id → c.decodeTails[id.toNat]? = some state →
    Left maxAcceptedTokens retainReplaySpan (w id) state

section

variable {maxAcceptedTokens totalNums : Nat} {retainReplaySpan : Bool} {c c' : EmbeddingCache E P}
  {w : Int → Option (CacheWriter E)}

theorem Backed.init : Backed maxAcceptedTokens totalNums retainReplaySpan
    (EmbeddingCache.init totalNums retainReplaySpan : EmbeddingCache E P) fun _ => none where
  length := length_replicate
  retain := rfl
  left id state _ h := by
    rw [eq_of_mem_replicate (mem_of_getElem? h)]
    exact .never

variable {id : Int} {state : DecodeState E P}

theorem setTail_eq_ok :
    c.setTail id state = .ok c' ↔ (0 ≤ id ∧ id.toNat < c.decodeTails.length) ∧
      c' = { c with decodeTails := c.decodeTails.set id.toNat state } := by
  unfold setTail
  split
  · constructor
    · intro h
      cases h
      exact ⟨‹_›, rfl⟩
    · rintro ⟨-, rfl⟩
      rfl
  · constructor
    · intro h
      cases h
    · rintro ⟨h, -⟩
      exact absurd h ‹_›

variable {writer : Option (CacheWriter E)}

theorem Backed.setTail (h : Backed maxAcceptedTokens totalNums retainReplaySpan c w)
    (hleft : Left maxAcceptedTokens retainReplaySpan writer state)
    (hset : c.setTail id state = .ok c') :
    Backed maxAcceptedTokens totalNums retainReplaySpan c' (Function.update w id writer) := by
  obtain ⟨⟨hid, hlt⟩, rfl⟩ := setTail_eq_ok.mp hset
  refine ⟨by rw [length_set, h.length], h.retain, fun id' state' hid' hget => ?_⟩
  by_cases heq : id' = id
  · subst heq
    rw [List.getElem?_set_self hlt] at hget
    cases hget
    rw [Function.update_self]
    exact hleft
  · have hne : id.toNat ≠ id'.toNat := by omega
    rw [List.getElem?_set_ne hne] at hget
    rw [Function.update_of_ne heq]
    exact h.left id' state' hid' hget

theorem Backed.setTails {entries : List (Int × DecodeState E P)}
    {writers : List (Int × Option (CacheWriter E))}
    (hentries : List.Forall₂ (fun entry writer => entry.1 = writer.1 ∧
      Left maxAcceptedTokens retainReplaySpan writer.2 entry.2) entries writers) :
    ∀ {c : EmbeddingCache E P} {w : Int → Option (CacheWriter E)},
      Backed maxAcceptedTokens totalNums retainReplaySpan c w → c.setTails entries = .ok c' →
      Backed maxAcceptedTokens totalNums retainReplaySpan c' (assignWriters w writers) := by
  induction hentries with
  | nil =>
    intro c w h hset
    cases hset
    exact h
  | @cons entry writer entries writers hone _ ih =>
    intro c w h hset
    obtain ⟨hid, hleft⟩ := hone
    unfold EmbeddingCache.setTails at hset
    rw [foldlM_cons, bind_eq_ok] at hset
    obtain ⟨c₁, hfirst, hrest⟩ := hset
    rw [hid] at hfirst
    exact ih (h.setTail hleft hfirst) hrest

theorem forall₂_of_mapM {β γ ε : Type} {n : Nat} {f : Nat → Except ε β} {g : Nat → γ}
    {R : β → γ → Prop} {bs : List β} (h : (List.range n).mapM f = .ok bs)
    (hR : ∀ i < n, ∀ b, f i = .ok b → R b (g i)) : List.Forall₂ R bs ((List.range n).map g) := by
  obtain ⟨hlen, hget⟩ := of_mapM_ok h
  rw [length_range] at hlen
  rw [forall₂_iff_get]
  refine ⟨by rw [hlen, length_map, length_range], fun i hi hi' => ?_⟩
  have hin : i < n := hlen ▸ hi
  obtain ⟨b, hb, hf⟩ := hget i i (List.getElem?_range hin)
  rw [List.getElem?_eq_getElem hi, Option.some.injEq] at hb
  simp only [get_eq_getElem, getElem_map, getElem_range]
  rw [hb]
  exact hR i hin b hf

variable {x : PrefillContext E P} {i : Nat} {entry : Int × DecodeState E P}

theorem prefillEntry_spec {embeddings : List E} {positions : Option (List P)}
    (h : prefillEntry retainReplaySpan x embeddings positions i = .ok entry) :
    entry.1 = x.ids.getD i 0 ∧ Left maxAcceptedTokens retainReplaySpan
      (some (.first (x.requestIds.getD i ""))) entry.2 := by
  simp only [prefillEntry] at h
  by_cases hneg : x.nextTokens.getD i 0 < 0
  · rw [if_pos hneg] at h
    cases h
  by_cases hmax : maxInt32 < x.nextTokens.getD i 0
  · rw [if_neg hneg, if_pos hmax] at h
    cases h
  rw [if_neg hneg, if_neg hmax] at h
  cases hembedding : embeddings[i]? with
  | none =>
    rw [hembedding] at h
    cases h
  | some embedding =>
    rw [hembedding] at h
    cases h
    exact ⟨rfl, .first _ _ (Int.not_lt.mp hneg)⟩

theorem targetEntry_spec {x : TargetContext E}
    (hfits : x.numSpeculativeTokens + 1 ≤ maxAcceptedTokens)
    (hrow : ∃ tokens, AcceptedRow (x.numSpeculativeTokens + 1) tokens (x.acceptedTokens.getD i []))
    (hwidth : (x.acceptedEmbeddings.getD i []).length = (x.acceptedTokens.getD i []).length)
    (h : targetEntry retainReplaySpan x i = .ok entry) :
    entry.1 = x.ids.getD i 0 ∧ Left maxAcceptedTokens retainReplaySpan
      (some (.accepted (x.requestIds.getD i "") (x.acceptedTokens.getD i [])
        (x.acceptedEmbeddings.getD i []) x.numSpeculativeTokens)) entry.2 := by
  obtain ⟨tokens, haccepted⟩ := hrow
  obtain ⟨state, hstate, h⟩ := bind_eq_ok.mp h
  cases h
  exact ⟨rfl, .accepted haccepted hwidth hfits hstate⟩

theorem Backed.writePrefillTargetContext
    (h : Backed maxAcceptedTokens totalNums retainReplaySpan c w)
    (hwrite : c.writePrefillTargetContext x = .ok c') :
    Backed maxAcceptedTokens totalNums retainReplaySpan c'
      (assignWriters w (CacheWrite.prefillTarget x).writers) := by
  unfold EmbeddingCache.writePrefillTargetContext at hwrite
  split at hwrite
  · cases hwrite
  split at hwrite
  · cases hwrite
  obtain ⟨embeddings, -, hwrite⟩ := bind_eq_ok.mp hwrite
  obtain ⟨positions, -, hwrite⟩ := bind_eq_ok.mp hwrite
  obtain ⟨entries, hentries, hset⟩ := bind_eq_ok.mp hwrite
  rw [h.retain] at hentries
  exact Backed.setTails (forall₂_of_mapM hentries fun i _ entry hentry => prefillEntry_spec hentry)
    h hset

theorem Backed.writeTargetContext (h : Backed maxAcceptedTokens totalNums retainReplaySpan c w)
    {x : TargetContext E} (hx : (CacheWrite.target (P := P) x).WellFormed maxAcceptedTokens)
    (hwrite : c.writeTargetContext x = .ok c') :
    Backed maxAcceptedTokens totalNums retainReplaySpan c'
      (assignWriters w (CacheWrite.target (P := P) x).writers) := by
  obtain ⟨hfits, hrows⟩ := hx
  unfold EmbeddingCache.writeTargetContext at hwrite
  split at hwrite
  · cases hwrite
  rename_i hcount
  split at hwrite
  · cases hwrite
  split at hwrite
  · cases hwrite
  split at hwrite
  · cases hwrite
  rename_i hwidths
  obtain ⟨entries, hentries, hset⟩ := bind_eq_ok.mp hwrite
  rw [h.retain] at hentries
  refine Backed.setTails (forall₂_of_mapM hentries fun i hi entry hentry => ?_) h hset
  have hlt : i < x.acceptedTokens.length := by
    omega
  refine targetEntry_spec hfits (hrows _ ?_) ?_ hentry
  · rw [List.getD_eq_getElem?_getD, List.getElem?_eq_getElem hlt]
    exact getElem_mem hlt
  · have hall := all_eq_true.mp (not_not.mp hwidths) i (mem_range.mpr hi)
    exact of_decide_eq_true hall

theorem Backed.clear (h : Backed maxAcceptedTokens totalNums retainReplaySpan c w) {ids : List Int}
    (hwrite : c.clear ids = .ok c') :
    Backed maxAcceptedTokens totalNums retainReplaySpan c'
      (assignWriters w (CacheWrite.clear (E := E) (P := P) ids).writers) := by
  refine Backed.setTails ?_ h hwrite
  unfold CacheWrite.writers
  rw [forall₂_map_left_iff, forall₂_map_right_iff]
  exact forall₂_same.mpr fun _ _ => ⟨rfl, .never⟩

theorem Left.requestId (h : Left maxAcceptedTokens retainReplaySpan writer state) :
    (writer = none ∧ state.valid = false) ∨
      ∃ w, writer = some w ∧ state.valid = true ∧ state.requestId = w.requestId := by
  cases h with
  | never => exact Or.inl ⟨rfl, rfl⟩
  | first embedding position _ => exact Or.inr ⟨_, rfl, rfl, rfl⟩
  | accepted h _ _ written =>
    rw [targetState_eq h] at written
    cases written
    exact Or.inr ⟨_, rfl, rfl, rfl⟩

theorem getTail_eq_ok :
    c.getTail id = .ok state ↔ 0 ≤ id ∧ c.decodeTails[id.toNat]? = some state := by
  unfold getTail
  split
  · constructor
    · intro h
      cases h
    · rintro ⟨h, -⟩
      omega
  · cases hget : c.decodeTails[id.toNat]? with
    | none => simp
    | some s =>
      simp only [Except.ok.injEq, Option.some.injEq]
      exact ⟨fun h => ⟨by omega, h⟩, fun h => h.2⟩

theorem Backed.writeMtpBootstrapContext
    (h : Backed maxAcceptedTokens totalNums retainReplaySpan c w) {x : BootstrapContext E P}
    (hwrite : c.writeMtpBootstrapContext x = .ok c') :
    Backed maxAcceptedTokens totalNums retainReplaySpan c' (afterWrite w (.mtpBootstrap x)) := by
  unfold EmbeddingCache.writeMtpBootstrapContext at hwrite
  split at hwrite
  · cases hwrite
  rename_i htoken
  obtain ⟨tail, htail, hwrite⟩ := bind_eq_ok.mp hwrite
  obtain ⟨hid, hget⟩ := getTail_eq_ok.mp htail
  have hkeeps : (CacheWrite.mtpBootstrap x).keeps w = true ↔
      tail.valid ∧ x.requestId ≠ "" ∧ tail.requestId = x.requestId := by
    rcases (h.left x.id tail hid hget).requestId with ⟨hnone, hvalid⟩ | ⟨writer, hsome, hvalid, hreq⟩
    · simp [CacheWrite.keeps, hnone, hvalid]
    · simp [CacheWrite.keeps, hsome, hvalid, hreq]
  unfold afterWrite
  by_cases hk : (CacheWrite.mtpBootstrap x).keeps w = true
  · rw [if_pos (hkeeps.mp hk)] at hwrite
    cases hwrite
    rw [if_pos hk]
    exact h
  · rw [if_neg fun hcond => hk (hkeeps.mpr hcond), h.retain] at hwrite
    rw [if_neg hk]
    exact h.setTail (.first x.embedding x.targetPosition (Int.not_lt.mp htoken)) hwrite

theorem Backed.step (h : Backed maxAcceptedTokens totalNums retainReplaySpan c w)
    {write : CacheWrite E P} (hx : write.WellFormed maxAcceptedTokens) (hstep : c.step write = .ok c') :
    Backed maxAcceptedTokens totalNums retainReplaySpan c' (afterWrite w write) := by
  cases write with
  | prefillTarget x => exact h.writePrefillTargetContext hstep
  | mtpBootstrap x => exact h.writeMtpBootstrapContext hstep
  | target x => exact h.writeTargetContext hx hstep
  | clear ids => exact h.clear hstep

theorem Backed.of_run {writes : List (CacheWrite E P)}
    (run : ReachesWith EmbeddingCache.step (fun _ write => write.WellFormed maxAcceptedTokens)
      (EmbeddingCache.init totalNums retainReplaySpan) writes c) :
    Backed maxAcceptedTokens totalNums retainReplaySpan c (lastWriter writes) := by
  induction run with
  | refl => exact Backed.init
  | snoc _ acceptable next ih =>
    rw [lastWriter, foldl_append]
    exact ih.step acceptable next

/-! ## Reading -/

/-- The state of an id that nobody has written to. -/
def invalidState : DecodeState E P := { tokenId := 0 }

/-- A request id that is not the last writer's. -/
def Mismatched (writer : Option (CacheWriter E)) (requestId : Option String) : Prop :=
  ∀ w, writer = some w → ∃ r, requestId = some r ∧ r ≠ w.requestId

/-- No request id, or the last writer's. -/
def Matching (writer : CacheWriter E) (requestId : Option String) : Prop :=
  requestId.all (writer.requestId = ·) = true

theorem Matching.or_mismatched (writer : CacheWriter E) (requestId : Option String) :
    Matching writer requestId ∨ Mismatched (some writer) requestId := by
  cases requestId with
  | none => exact Or.inl rfl
  | some r =>
    by_cases hr : writer.requestId = r
    · exact Or.inl (by simp [Matching, hr])
    · exact Or.inr fun w hw => ⟨r, rfl, by cases hw; exact fun h => hr h.symm⟩

variable {tail : DecodeState E P}

theorem read_mismatched {requestId : Option String} (htail : c.getTail id = .ok tail)
    (hleft : Left maxAcceptedTokens retainReplaySpan writer tail) (h : Mismatched writer requestId)
    {maxAccepted : Int} (hmax : 0 < maxAccepted) :
    c.readDecodeState id requestId = .ok invalidState ∧
      c.readAcceptedPrefixLength maxAccepted id requestId = .ok 1 := by
  unfold readDecodeState readAcceptedPrefixLength
  rw [htail, ok_bind, ok_bind]
  rcases hleft.requestId with ⟨rfl, hvalid⟩ | ⟨w, rfl, hvalid, hreq⟩
  · cases hleft
    refine ⟨by simp [invalidState], ?_⟩
    simp only [Bool.false_eq_true, false_and, if_false]
    rw [if_neg (by omega), if_neg (by omega)]
  · obtain ⟨r, rfl, hne⟩ := h w rfl
    have hne' : ¬ tail.requestId = r := fun heq => hne (heq.symm.trans hreq)
    refine ⟨by simp [hvalid, hne', invalidState], ?_⟩
    simp only [Option.all_some, hne', decide_false, Bool.false_eq_true, and_false, false_and, if_false]
    rw [if_neg (by omega), if_neg (by omega)]

variable {writer : CacheWriter E}

/-- A state that was left by a writer passes the CHECKs of the reads. -/
theorem Left.readable
    (h : Left maxAcceptedTokens retainReplaySpan (some writer) tail) (hmax : 0 < maxAcceptedTokens) :
    0 ≤ tail.tokenId ∧ tail.embedding.isSome ∧
      (0 ≤ tail.prevTokenId → tail.prevEmbedding.isSome) ∧ 0 ≤ tail.correctionTokenId ∧
      0 ≤ tail.correctionPositionOffset ∧
      tail.correctionPositionOffset + 1 ≤ (maxAcceptedTokens : Int) := by
  cases h with
  | first embedding position htoken =>
    refine ⟨htoken, rfl, ?_, Int.le_refl 0, Int.le_refl 0, ?_⟩
    · intro hprev
      cases hprev
    · show (0 : Int) + 1 ≤ maxAcceptedTokens
      omega
  | @accepted requestId row tokens embeddings numSpeculativeTokens _ haccepted hwidth hfits written =>
    rw [targetState_eq haccepted] at written
    cases written
    have hle := haccepted.length_le
    have hlength := haccepted.length_eq
    have hlast := haccepted.token _ (getLast_mem haccepted.nonempty)
    refine ⟨hlast.1, ?_, fun hprev => ?_, hlast.1, Int.natCast_nonneg _, ?_⟩
    · rw [List.getElem?_eq_getElem (by omega)]
      rfl
    · show (if tokens.length - 1 > 0 then embeddings[tokens.length - 1 - 1]? else none).isSome = true
      by_cases hmore : tokens.length - 1 > 0
      · rw [if_pos hmore, List.getElem?_eq_getElem (by omega)]
        rfl
      · simp only [if_neg hmore] at hprev
        exact absurd hprev (by decide)
    · show ((tokens.length - 1 : Nat) : Int) + 1 ≤ maxAcceptedTokens
      omega

/-- Reading under the last writer's request id gives the state it left. -/
theorem read_matching {requestId : Option String} (htail : c.getTail id = .ok tail)
    (hleft : Left maxAcceptedTokens retainReplaySpan (some writer) tail)
    (h : Matching writer requestId) (hmax : 0 < maxAcceptedTokens) :
    c.readDecodeState id requestId = .ok tail ∧
      c.readAcceptedPrefixLength maxAcceptedTokens id requestId =
        .ok (tail.correctionPositionOffset + 1) := by
  obtain ⟨hnone, -⟩ | ⟨w, hw, hvalid, hreq⟩ := hleft.requestId
  · cases hnone
  cases hw
  have hany : requestId.any (fun r => tail.requestId ≠ r) = false := by
    cases requestId with
    | none => rfl
    | some r =>
      have : writer.requestId = r := by simpa [Matching] using h
      simp [hreq, this]
  have hall : requestId.all (fun r => tail.requestId = r) = true := by
    rw [hreq]
    exact h
  obtain ⟨htoken, hembedding, hprev, hcorrection, hoffset, hcapacity⟩ :=
    hleft.readable hmax
  unfold readDecodeState readAcceptedPrefixLength
  rw [htail, ok_bind, ok_bind]
  constructor
  · have hembedding' : ¬ tail.embedding.isNone = true := by
      rw [← Option.not_isSome, hembedding]
      simp
    have hprev' : ¬ (0 ≤ tail.prevTokenId ∧ tail.prevEmbedding.isNone = true) := by
      rintro ⟨hp, hnone⟩
      rw [← Option.not_isSome, hprev hp] at hnone
      cases hnone
    simp only [hany, hvalid, Bool.false_eq_true, and_false, if_false, not_true_eq_false]
    rw [if_neg (Int.not_lt.mpr htoken), if_neg hembedding', if_neg hprev']
  · simp only [hall, hvalid, true_and, and_self, if_true]
    rw [if_neg (Int.not_lt.mpr hcorrection), if_neg (by omega), if_neg (by omega)]

end

/-! ## Agreement -/

/-- The state and the accepted length read from the cache, the accepted state of the batch and the
resolved placeholder say the same about row `i`. -/
structure ViewsAgree (state : DecodeState E P) (length : Int) (accepted : AcceptedState E)
    (resolved : TokenWithOffset) (i : Nat) (position kvSeqLen : Int) : Prop where
  valid : state.valid = true
  lastToken : accepted.lastTokens[i]? = some state.tokenId ∧ resolved.tokenId = state.tokenId
  previousToken : 1 < length → accepted.previousTokens[i]? = some state.prevTokenId
  lastEmbedding : accepted.lastEmbeddings[i]? = state.embedding
  previousEmbedding : 1 < length → accepted.previousEmbeddings[i]? = state.prevEmbedding
  acceptedLength : accepted.acceptedLengths[i]? = some length
  positionOffset : resolved.positionOffset = state.positionOffset ∧ state.positionOffset + 1 = length
  basePosition : accepted.basePositions[i]? = some (position + state.positionOffset + 1)
  baseKvSeqLen : accepted.baseKvSeqLens[i]? = some (kvSeqLen + state.positionOffset + 1)
  allDraftAccepted : accepted.allDraftAccepted[i]? = some state.allDraftAccepted

theorem viewsAgree_of_left {maxAcceptedTokens : Nat} {retainReplaySpan : Bool}
    {batch : AcceptedBatch E} {i : Nat} {row : List Int} {embeddings : List E} {requestId : String}
    {state : DecodeState E P} {accepted : AcceptedState E} {placeholder : E} {position kvSeqLen : Int}
    (hrow : batch.rows[i]? = some row) (hleft : Left maxAcceptedTokens retainReplaySpan
      (some (.accepted requestId row embeddings batch.numSpeculativeTokens)) state)
    (haccepted : ∀ tokens, AcceptedRow (batch.numSpeculativeTokens + 1) tokens row →
      RowState accepted i tokens embeddings (batch.numSpeculativeTokens + 1) placeholder position
        kvSeqLen) :
    ∃ resolved, resolveTokenWithPositionOffset (-(i + 1 : Nat)) batch.rows.flatten
        (batch.numSpeculativeTokens + 1) = .ok resolved ∧
      ViewsAgree state (state.correctionPositionOffset + 1) accepted resolved i position kvSeqLen := by
  cases hleft with
  | @accepted _ _ tokens _ _ _ h hwidth hfits written =>
    rw [targetState_eq h] at written
    cases written
    have hpos := h.length_pos
    have hstate := haccepted tokens h
    have hlen : ((tokens.length - 1 : Nat) : Int) + 1 = tokens.length := by omega
    have htwo : tokens.length - 1 - 1 = tokens.length - 2 := by omega
    refine ⟨_, resolve_spec batch hrow h, ⟨rfl, ⟨?_, rfl⟩, ?_, hstate.lastEmbedding, ?_, ?_,
      ⟨rfl, rfl⟩, ?_, ?_, hstate.allDraftAccepted⟩⟩
    · rw [hstate.lastToken, getElem?_getLast h.nonempty]
    · intro hmore
      have hmore' : tokens.length - 1 > 0 := by
        change 1 < ((tokens.length - 1 : Nat) : Int) + 1 at hmore
        omega
      rw [hstate.previousToken (by omega)]
      simp only [if_pos hmore', htwo]
      rw [List.getD_eq_getElem?_getD, List.getElem?_eq_getElem (by omega)]
      rfl
    · intro hmore
      have hmore' : tokens.length - 1 > 0 := by
        change 1 < ((tokens.length - 1 : Nat) : Int) + 1 at hmore
        omega
      rw [hstate.previousEmbedding, if_pos (by omega)]
      simp only [if_pos hmore', htwo]
    · rw [hstate.acceptedLength, hlen]
    · rw [hstate.basePosition, Int.add_assoc, hlen]
    · rw [hstate.baseKvSeqLen, Int.add_assoc, hlen]

/-- Two draft tokens, the first of which was accepted. -/
def oneAccepted : AcceptedBatch Nat where
  numSpeculativeTokens := 2
  rows := [[5, 6, -1]]
  embeddings := [[50, 60, 70]]
  accepted row hrow := by
    rw [mem_singleton.mp hrow]
    exact ⟨[5, 6], by decide, by decide, by decide, rfl⟩
  embeddings_length := rfl
  embeddings_width := by decide

def oneAcceptedContext : TargetContext Nat where
  ids := [1]
  requestIds := ["a"]
  acceptedTokens := oneAccepted.rows
  acceptedEmbeddings := oneAccepted.embeddings
  numSpeculativeTokens := 2

end Xllm.Speculative
