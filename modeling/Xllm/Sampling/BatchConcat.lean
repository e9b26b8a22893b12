import Xllm.Sampling.SamplingParameters

/-!
# Batches put together

Every request of a batch is sampled, from a hidden row of its own. `SamplingParameters.concat` of
two batches describes the requests of both exactly when nobody is penalized, both batches have the
same tensors, and the second batch samples where the first one does throughout.
-/

namespace Xllm.Sampling

open Xllm.Lib Xllm.Request SamplingParameters List

variable {F : Type} {vocab : Nat}

/-- A request with its unique tokens, as the batch builder lists them, and its filter row. -/
structure SampledRequest (F : Type) (vocab : Nat) where
  param : RequestSamplingParam F
  uniqueTokens : List (Int64 × Int32)
  filterRow : Option (List F)
  filterRow_length : ∀ row, filterRow = some row → row.length = vocab

structure SampledBatch (F : Type) (vocab : Nat) where
  requests : List (SampledRequest F vocab)
  selectedTokenIdxes : List Nat
  hiddenRows : Nat
  vocab_pos : 0 < vocab
  nonempty : requests ≠ []
  selected_length : selectedTokenIdxes.length = requests.length
  selected_lt : ∀ idx ∈ selectedTokenIdxes, idx < hiddenRows
  selected_last : selectedTokenIdxes.getLast? = some (hiddenRows - 1)

namespace SampledBatch

def params (b : SampledBatch F vocab) : List (RequestSamplingParam F) := b.requests.map (·.param)

/-- The requests of both batches, over the hidden rows of both. -/
def append (b b' : SampledBatch F vocab) : SampledBatch F vocab where
  requests := b.requests ++ b'.requests
  selectedTokenIdxes := b.selectedTokenIdxes ++ b'.selectedTokenIdxes.map (b.hiddenRows + ·)
  hiddenRows := b.hiddenRows + b'.hiddenRows
  vocab_pos := b.vocab_pos
  nonempty := by simp [b.nonempty]
  selected_length := by simp [b.selected_length, b'.selected_length]
  selected_lt idx h := by
    rcases mem_append.mp h with h | h
    · have := b.selected_lt idx h
      omega
    · obtain ⟨idx', hmem, rfl⟩ := mem_map.mp h
      have := b'.selected_lt idx' hmem
      omega
  selected_last := by
    have hlast := b'.selected_last
    have hpos : 0 < b'.hiddenRows := by
      have := b'.selected_lt _ (mem_of_getLast? hlast)
      omega
    rw [List.getLast?_append, List.getLast?_map, hlast]
    simp only [Option.map_some, Option.some_or, Option.some_inj]
    omega

variable [DecidableEq F] [Zero F] [One F]

/-- What the batch builder hands to `init`. -/
def init (b : SampledBatch F vocab) : Except SamplingCheck (SamplingParameters F) :=
  SamplingParameters.init b.params b.selectedTokenIdxes (List.range b.requests.length)
    (pad2dVector (b.requests.map fun r => r.uniqueTokens.map Prod.fst) 0)
    (pad2dVector (b.requests.map fun r => r.uniqueTokens.map Prod.snd) 0)
    (b.requests.map fun r => r.uniqueTokens.length) (b.requests.map (·.filterRow))

end SampledBatch

/-- The rows of a tensor mean what these values mean; where it is undefined every row is
neutral. -/
def RowsAre {α β : Type} (tensor : Option (List α)) (meaning : α → β) (neutral : β)
    (rows : List α) : Prop :=
  tensor.elim (List.replicate rows.length neutral) (List.map meaning) = rows.map meaning

variable [DecidableEq F] [Zero F] [One F]

/-- The statistics have one row for each request, with its unique tokens; without statistics nobody
is penalized. -/
def StatisticsAre (p : SamplingParameters F) (b : SampledBatch F vocab) : Prop :=
  match p.uniqueTokenIds, p.uniqueTokenCounts, p.uniqueTokenIdsLens with
  | none, none, none => needsPenalties b.params = false ∧ needsRepetition b.params = false
  | some ids, some counts, some lens =>
    ids.length = b.requests.length ∧ counts.length = b.requests.length ∧
      lens.length = b.requests.length ∧
      (ids.zip (counts.zip lens)).map (fun row => (row.1.zip row.2.1).take row.2.2) =
        b.requests.map (·.uniqueTokens)
  | _, _, _ => False

/-- The parameters say of every row what its request asks for. -/
structure Describes (p : SamplingParameters F) (b : SampledBatch F vocab) : Prop where
  frequency : RowsAre p.frequencyPenalties id 0 (b.params.map (·.frequencyPenalty))
  presence : RowsAre p.presencePenalties id 0 (b.params.map (·.presencePenalty))
  repetition : RowsAre p.repetitionPenalties id 1 (b.params.map (·.repetitionPenalty))
  statistics : StatisticsAre p b
  temperature : RowsAre p.temperatures (fun t => if t = 0 then 1 else t) 1
    (b.params.map (·.temperature))
  topK : RowsAre p.topK (fun k => if 0 < k then some k else none) none (b.params.map (·.topK))
  topP : RowsAre p.topP id 1 (b.params.map (·.topP))
  filter : RowsAre p.filterMask id (List.replicate vocab 0)
    (b.requests.map fun r => r.filterRow.getD (List.replicate vocab 0))
  doSample : p.doSample = b.params.map samples
  selected : p.selectedTokenIdxes = b.selectedTokenIdxes
  sampleIdxes : p.sampleIdxes = List.range b.requests.length
  allRandom : p.allRandomSample = true ↔ ∀ r ∈ b.params, samples r = true
  allGreedy : p.allGreedySample = true ↔ ∀ r ∈ b.params, samples r = false

/-- `init` and `concat` of two batches describe the batch of both, as its own `init` does. -/
def ConcatDescribes (b b' : SampledBatch F vocab) : Prop :=
  (∃ p, (b.append b').init = .ok p ∧ Describes p (b.append b')) ∧
    ∃ p p' q, b.init = .ok p ∧ b'.init = .ok p' ∧ p.concat p' = .ok q ∧ Describes q (b.append b')

/-- The width of the statistics of a batch. -/
def SampledBatch.statisticsWidth (b : SampledBatch F vocab) : Nat :=
  b.requests.foldl (fun size r => max size r.uniqueTokens.length) 0

/-- Nobody is penalized, the batches have the same tensors of one width, and the second samples
where the first one does throughout. -/
structure Alike (b b' : SampledBatch F vocab) : Prop where
  penalties : needsPenalties b.params = false
  penalties' : needsPenalties b'.params = false
  repetition : needsRepetition b.params = needsRepetition b'.params
  statistics : needsRepetition b.params = true → b.statisticsWidth = b'.statisticsWidth
  temperature : needsTemperature b.params = needsTemperature b'.params
  topK : needsTopK b.params = needsTopK b'.params
  topP : needsTopP b.params = needsTopP b'.params
  random : (∀ r ∈ b.params, samples r = true) → ∀ r ∈ b'.params, samples r = true
  greedy : (∀ r ∈ b.params, samples r = false) → ∀ r ∈ b'.params, samples r = false

/-! ## `init` -/

theorem rowsAre_none {α β : Type} {rows : List α} {meaning : α → β} {neutral : β}
    (h : ∀ row ∈ rows, meaning row = neutral) : RowsAre none meaning neutral rows :=
  (map_eq_replicate_iff.mpr h).symm

theorem rowsAre_definedIf {α β : Type} {needed : Bool} {rows : List α} {meaning : α → β}
    {neutral : β} (h : needed = false → ∀ row ∈ rows, meaning row = neutral) :
    RowsAre (definedIf needed rows) meaning neutral rows := by
  cases needed with
  | true => rfl
  | false => exact rowsAre_none (h rfl)

theorem RowsAre.length_eq {α β : Type} {tensor rows : List α} {meaning : α → β} {neutral : β}
    (h : RowsAre (some tensor) meaning neutral rows) : tensor.length = rows.length := by
  simpa using congrArg List.length h

/-- Undefined on one side only, a tensor has too few rows. -/
theorem rowsAre_safeConcat_iff {α β : Type} {needed needed' : Bool} {rows rows' : List α}
    {meaning : α → β} {neutral : β} (hne : rows ≠ []) (hne' : rows' ≠ [])
    (h : needed = false → ∀ row ∈ rows, meaning row = neutral)
    (h' : needed' = false → ∀ row ∈ rows', meaning row = neutral) :
    RowsAre (safeConcat (definedIf needed rows) (definedIf needed' rows')) meaning neutral
      (rows ++ rows') ↔ needed = needed' := by
  have hpos := length_pos_iff.mpr hne
  have hpos' := length_pos_iff.mpr hne'
  cases needed <;> cases needed'
  · refine iff_of_true (rowsAre_none fun row hrow => ?_) rfl
    rcases mem_append.mp hrow with hrow | hrow
    · exact h rfl row hrow
    · exact h' rfl row hrow
  · refine iff_of_false (fun hrows => ?_) nofun
    have hlength := @RowsAre.length_eq _ _ rows' _ _ _ hrows
    rw [length_append] at hlength
    omega
  · refine iff_of_false (fun hrows => ?_) nofun
    have hlength := @RowsAre.length_eq _ _ rows _ _ _ hrows
    rw [length_append] at hlength
    omega
  · exact iff_of_true rfl rfl

theorem le_width {α : Type} (vec : List (List α)) (size : Nat) :
    size ≤ vec.foldl (fun size row => max size row.length) size ∧
      ∀ row ∈ vec, row.length ≤ vec.foldl (fun size row => max size row.length) size := by
  induction vec generalizing size with
  | nil => exact ⟨le_refl size, nofun⟩
  | cons row vec ih =>
    obtain ⟨hsize, hrows⟩ := ih (max size row.length)
    refine ⟨le_trans (le_max_left _ _) hsize, fun row' hrow' => ?_⟩
    rcases mem_cons.mp hrow' with rfl | hmem
    · exact le_trans (le_max_right _ _) hsize
    · exact hrows row' hmem

theorem length_of_mem_pad {α : Type} {vec : List (List α)} {padValue : α} (row : List α)
    (h : row ∈ pad2dVector vec padValue) :
    row.length = vec.foldl (fun size row => max size row.length) 0 := by
  obtain ⟨row, hrow, rfl⟩ := mem_map.mp h
  have := (le_width vec 0).2 row hrow
  rw [length_append, length_replicate]
  omega

theorem create2dTensor_pad {α : Type} (vec : List (List α)) (hne : vec ≠ []) (padValue : α) :
    create2dTensor (pad2dVector vec padValue) = .ok (some (pad2dVector vec padValue)) := by
  have hrows : ∀ row ∈ pad2dVector vec padValue, _ := length_of_mem_pad
  have hpad : pad2dVector vec padValue ≠ [] := by simpa [pad2dVector] using hne
  generalize pad2dVector vec padValue = padded at *
  cases padded with
  | nil => exact absurd rfl hpad
  | cons first rest =>
    refine if_pos fun row hrow => ?_
    rw [hrows row hrow, hrows first mem_cons_self]

namespace SampledBatch

variable (b : SampledBatch F vocab)

/-- The filter rows, with zeros for a request that has none. -/
def filterRows : List (List F) := b.requests.map fun r => r.filterRow.getD (List.replicate vocab 0)

def isFiltered : Bool := b.requests.any (·.filterRow.isSome)

/-- The statistics as the batch builder pads them. -/
def paddedIds : List (List Int64) :=
  pad2dVector (b.requests.map fun r => r.uniqueTokens.map Prod.fst) 0

def paddedCounts : List (List Int32) :=
  pad2dVector (b.requests.map fun r => r.uniqueTokens.map Prod.snd) 0

/-- What `init` makes of the batch. -/
def parameters : SamplingParameters F :=
  gather b.params b.selectedTokenIdxes (List.range b.requests.length)
    (definedIf (needTokenStats b.params) b.paddedIds)
    (definedIf (needTokenStats b.params) b.paddedCounts)
    (b.requests.map (·.uniqueTokens.length)) (definedIf b.isFiltered b.filterRows)
    (b.params.map samples)

omit [DecidableEq F] [One F] in
theorem filterMaskOf_eq :
    filterMaskOf b.requests.length (List.range b.requests.length)
      (b.requests.map (·.filterRow)) = .ok (definedIf b.isFiltered b.filterRows) := by
  have hrows : ∀ row ∈ (b.requests.map (·.filterRow)).filterMap id, row.length = vocab := by
    intro row hrow
    obtain ⟨filterRow, hmem, hrow⟩ := mem_filterMap.mp hrow
    obtain ⟨r, -, rfl⟩ := mem_map.mp hmem
    exact r.filterRow_length row hrow
  unfold filterMaskOf
  split
  · next hnone =>
    have hfiltered : b.isFiltered = false := by
      rw [isFiltered, any_eq_false]
      intro r hr hsome
      obtain ⟨row, hrow⟩ := Option.isSome_iff_exists.mp hsome
      have hmem : row ∈ (b.requests.map (·.filterRow)).filterMap id :=
        mem_filterMap.mpr ⟨_, mem_map_of_mem hr, hrow⟩
      rw [hnone] at hmem
      cases hmem
    rw [hfiltered]
    rfl
  · next first rest hsome =>
    have hfirst : first ∈ (b.requests.map (·.filterRow)).filterMap id :=
      hsome ▸ mem_cons_self
    have hfiltered : b.isFiltered = true := by
      obtain ⟨filterRow, hmem, hrow⟩ := mem_filterMap.mp hfirst
      obtain ⟨r, hr, rfl⟩ := mem_map.mp hmem
      exact any_eq_true.mpr ⟨r, hr, Option.isSome_of_eq_some hrow⟩
    have hrest : ∀ row ∈ rest, row.length = first.length := by
      intro row hrow
      have hmem : row ∈ (b.requests.map (·.filterRow)).filterMap id :=
        hsome ▸ mem_cons_of_mem first hrow
      exact (hrows row hmem).trans (hrows first hfirst).symm
    have hpos : first.length ≠ 0 := by
      have := b.vocab_pos
      rw [hrows first hfirst]
      omega
    rw [check_eq_ok.mpr (length_map _), ok_bind, check_eq_ok.mpr hpos, ok_bind,
      check_eq_ok.mpr hrest, ok_bind]
    simp only [length_map, length_range, if_true, hfiltered, hrows first hfirst,
      map_map]
    rfl

theorem init_eq : b.init = .ok b.parameters := by
  have hne := b.nonempty
  have hsize : b.params.length = b.requests.length := length_map _
  have hpad : ∀ {α : Type} (vec : List (List α)) (padValue : α),
      (pad2dVector vec padValue).length = vec.length := fun _ _ => length_map _
  have hids := create2dTensor_pad (b.requests.map fun r => r.uniqueTokens.map Prod.fst)
    (by simpa using hne) 0
  have hcounts := create2dTensor_pad (b.requests.map fun r => r.uniqueTokens.map Prod.snd)
    (by simpa using hne) 0
  have hsample : (List.range b.requests.length).mapM (fun idx =>
      (rowAt b.params idx).map samples) = .ok (b.params.map samples) := by
    rw [mapM_eq_ok (g := fun idx => ((b.params[idx]?).map samples).getD false)]
    · rw [← hsize]
      congr 1
      apply ext_getElem?
      intro idx
      by_cases hidx : idx < b.params.length
      · simp [hidx]
      · simp [hidx]
    · intro idx hidx
      have hidx : idx < b.params.length := by
        rw [hsize]
        exact mem_range.mp hidx
      simp [rowAt, hidx, Except.map]
  unfold init SamplingParameters.init
  rw [check_eq_ok.mpr (hsize.trans b.selected_length.symm), ok_bind,
    check_eq_ok.mpr (by rw [hsize, length_range]), ok_bind, hsize, filterMaskOf_eq, ok_bind,
    check_eq_ok.mpr (by simp [hpad]), ok_bind, hids, hcounts, hsample]
  unfold parameters
  cases needTokenStats b.params with
  | true => rfl
  | false => rfl

end SampledBatch

/-! ## What the rows mean -/

theorem neutral_of_any {α β γ : Type} {ps : List γ} {needed : γ → Bool} {field : γ → α}
    {meaning : α → β} {neutral : β} (h : ps.any needed = false)
    (hneutral : ∀ p, needed p = false → meaning (field p) = neutral) :
    ∀ row ∈ ps.map field, meaning row = neutral := by
  intro row hrow
  obtain ⟨p, hp, rfl⟩ := mem_map.mp hrow
  rw [any_eq_false] at h
  exact hneutral p (Bool.eq_false_iff.mpr (h p hp))

section

variable {ps : List (RequestSamplingParam F)}

omit [One F]

theorem frequency_neutral (h : needsPenalties ps = false) :
    ∀ row ∈ ps.map (·.frequencyPenalty), id row = 0 :=
  neutral_of_any (Bool.or_eq_false_iff.mp h).1 (by simp)

theorem presence_neutral (h : needsPenalties ps = false) :
    ∀ row ∈ ps.map (·.presencePenalty), id row = 0 :=
  neutral_of_any (Bool.or_eq_false_iff.mp h).2 (by simp)

end

section

variable {ps : List (RequestSamplingParam F)}

omit [Zero F] in
theorem repetition_neutral (h : needsRepetition ps = false) :
    ∀ row ∈ ps.map (·.repetitionPenalty), id row = 1 :=
  neutral_of_any h (by simp)

theorem temperature_neutral (h : needsTemperature ps = false) :
    ∀ row ∈ ps.map (·.temperature), (if row = 0 then 1 else row) = 1 := by
  refine neutral_of_any h fun p hp => ?_
  by_cases hzero : p.temperature = 0
  · rw [if_pos hzero]
  · simpa [hzero] using hp

omit [DecidableEq F] [Zero F] [One F] in
theorem topK_neutral (h : needsTopK ps = false) :
    ∀ row ∈ ps.map (·.topK), (if 0 < row then some row else none) = none :=
  neutral_of_any h fun _ hp => if_neg (of_decide_eq_false hp)

omit [Zero F] in
theorem topP_neutral (h : needsTopP ps = false) : ∀ row ∈ ps.map (·.topP), id row = 1 :=
  neutral_of_any h (by simp)

end

namespace SampledBatch

variable (b b' : SampledBatch F vocab)

omit [DecidableEq F] [One F] in
theorem filter_neutral (h : b.isFiltered = false) :
    ∀ row ∈ b.filterRows, id row = List.replicate vocab 0 :=
  neutral_of_any h fun r hr => by
    rw [Option.isSome_eq_false_iff, Option.isNone_iff_eq_none] at hr
    rw [hr]
    rfl

omit [DecidableEq F] [Zero F] [One F] in
theorem paddedStatistics :
    (b.paddedIds.zip (b.paddedCounts.zip (b.requests.map (·.uniqueTokens.length)))).map
      (fun row => (row.1.zip row.2.1).take row.2.2) = b.requests.map (·.uniqueTokens) := by
  unfold paddedIds paddedCounts pad2dVector
  simp only [map_map, zip_map', Function.comp_def, length_map]
  apply map_congr_left
  intro r _
  rw [zip_append (by simp), zip_map', take_left' (by simp)]
  exact map_id _

theorem describes_parameters : Describes b.parameters b where
  frequency := rowsAre_definedIf frequency_neutral
  presence := rowsAre_definedIf presence_neutral
  repetition := rowsAre_definedIf repetition_neutral
  statistics := by
    unfold StatisticsAre parameters gather
    cases hneeds : needTokenStats b.params with
    | true => exact ⟨by simp [paddedIds, pad2dVector], by simp [paddedCounts, pad2dVector],
        length_map _, b.paddedStatistics⟩
    | false => exact Bool.or_eq_false_iff.mp hneeds
  temperature := rowsAre_definedIf temperature_neutral
  topK := rowsAre_definedIf topK_neutral
  topP := rowsAre_definedIf topP_neutral
  filter := rowsAre_definedIf b.filter_neutral
  doSample := rfl
  selected := rfl
  sampleIdxes := rfl
  allRandom := by simp [parameters, gather]
  allGreedy := by simp [parameters, gather]

/-! ## `concat`

The filter mask is joined with rows of zeros for a batch that has none; the statistics need rows of
one width. -/

/-- What `concat` makes of two batches. -/
def joined : SamplingParameters F :=
  b.parameters.join b'.parameters (b'.selectedTokenIdxes.map (b.hiddenRows + ·))
    ((List.range b'.requests.length).map (b.requests.length + ·))
    (safeConcat b.parameters.uniqueTokenIds b'.parameters.uniqueTokenIds)
    (safeConcat b.parameters.uniqueTokenCounts b'.parameters.uniqueTokenCounts)
    (definedIf (b.isFiltered || b'.isFiltered) (b.filterRows ++ b'.filterRows))

omit [DecidableEq F] [One F] in
theorem head_filterRows : b.filterRows.head?.map List.length = some vocab := by
  have hne := b.nonempty
  unfold filterRows
  cases hrequests : b.requests with
  | nil => exact absurd hrequests hne
  | cons r rest =>
    cases hrow : r.filterRow with
    | none => simp [hrow]
    | some row => simp [hrow, r.filterRow_length row hrow]

theorem concatFilterMask_eq : concatFilterMask b.parameters b'.parameters =
    .ok (definedIf (b.isFiltered || b'.isFiltered) (b.filterRows ++ b'.filterRows)) := by
  have hzeros : ∀ b : SampledBatch F vocab, b.isFiltered = false →
      List.replicate b.requests.length (List.replicate vocab 0) = b.filterRows := by
    intro b hfiltered
    have hrows := (map_eq_replicate_iff.mpr (b.filter_neutral hfiltered)).symm
    rw [map_id] at hrows
    rw [← hrows, filterRows, length_map]
  unfold concatFilterMask parameters gather
  cases hmask : b.isFiltered <;> cases hmask' : b'.isFiltered
  · rfl
  · simp [definedIf, head_filterRows, hzeros b hmask]
  · simp [definedIf, head_filterRows, hzeros b' hmask']
  · simp [definedIf, catRows, head_filterRows, Except.map]

omit [DecidableEq F] [Zero F] [One F] in
theorem head_padded {α : Type} (f : Int64 × Int32 → α) (padValue : α) :
    (pad2dVector (b.requests.map fun r => r.uniqueTokens.map f) padValue).head?.map List.length =
      some b.statisticsWidth := by
  have hne : pad2dVector (b.requests.map fun r => r.uniqueTokens.map f) padValue ≠ [] := by
    simpa [pad2dVector] using b.nonempty
  obtain ⟨row, rest, hrows⟩ := exists_cons_of_ne_nil hne
  have hlength := length_of_mem_pad row (hrows ▸ mem_cons_self)
  rw [hrows, List.head?_cons, Option.map_some, hlength, foldl_map]
  simp only [length_map]
  rfl

omit [DecidableEq F] [Zero F] [One F] in
theorem safeConcatRows_padded {α : Type} (f : Int64 × Int32 → α) (padValue : α)
    (needed needed' : Bool) (rows : Option (List (List α))) :
    safeConcatRows
      (definedIf needed (pad2dVector (b.requests.map fun r => r.uniqueTokens.map f) padValue))
      (definedIf needed' (pad2dVector (b'.requests.map fun r => r.uniqueTokens.map f) padValue)) =
        .ok rows ↔
      (needed = true → needed' = true → b.statisticsWidth = b'.statisticsWidth) ∧
        rows = safeConcat
          (definedIf needed (pad2dVector (b.requests.map fun r => r.uniqueTokens.map f) padValue))
          (definedIf needed'
            (pad2dVector (b'.requests.map fun r => r.uniqueTokens.map f) padValue)) := by
  cases needed <;> cases needed'
  · simp [definedIf, safeConcatRows, safeConcat, eq_comm]
  · simp [definedIf, safeConcatRows, safeConcat, eq_comm]
  · simp [definedIf, safeConcatRows, safeConcat, eq_comm]
  · simp only [definedIf, if_true, safeConcatRows, safeConcat, catRows, head_padded,
      Option.some_inj, true_implies]
    by_cases hwidth : b.statisticsWidth = b'.statisticsWidth
    · simp [hwidth, Except.map, eq_comm]
    · simp [hwidth, Except.map]

theorem concat_eq_ok_iff (q : SamplingParameters F) : b.parameters.concat b'.parameters = .ok q ↔
    (needTokenStats b.params = true → needTokenStats b'.params = true →
      b.statisticsWidth = b'.statisticsWidth) ∧ q = b.joined b' := by
  have hselected : shifted b'.parameters.selectedTokenIdxes b.parameters.selectedTokenIdxes =
      .ok (b'.selectedTokenIdxes.map (b.hiddenRows + ·)) := by
    have hpos := b.selected_lt _ (mem_of_getLast? b.selected_last)
    unfold shifted parameters gather
    rw [b.selected_last]
    refine congrArg Except.ok (map_congr_left fun idx _ => ?_)
    omega
  have hpos := length_pos_iff.mpr b.nonempty
  have hsample : shifted b'.parameters.sampleIdxes b.parameters.sampleIdxes =
      .ok ((List.range b'.requests.length).map (b.requests.length + ·)) := by
    have hlast : (List.range b.requests.length).getLast? = some (b.requests.length - 1) := by
      rw [List.getLast?_range, if_neg (by omega)]
    unfold shifted parameters gather
    rw [hlast]
    refine congrArg Except.ok (map_congr_left fun idx _ => ?_)
    omega
  have hids := b.safeConcatRows_padded b' Prod.fst 0 (needTokenStats b.params)
    (needTokenStats b'.params)
  have hcounts := b.safeConcatRows_padded b' Prod.snd 0 (needTokenStats b.params)
    (needTokenStats b'.params)
  unfold SamplingParameters.concat
  rw [hselected, ok_bind, hsample, ok_bind, bind_eq_ok]
  constructor
  · rintro ⟨ids, hok, h⟩
    obtain ⟨counts, hok', h⟩ := bind_eq_ok.mp h
    rw [concatFilterMask_eq, ok_bind] at h
    obtain ⟨hwidth, rfl⟩ := (hids ids).mp hok
    obtain ⟨-, rfl⟩ := (hcounts counts).mp hok'
    exact ⟨hwidth, (Except.ok.inj h).symm⟩
  · rintro ⟨hwidth, rfl⟩
    refine ⟨_, (hids _).mpr ⟨hwidth, rfl⟩, bind_eq_ok.mpr ⟨_, (hcounts _).mpr ⟨hwidth, rfl⟩, ?_⟩⟩
    rw [concatFilterMask_eq, ok_bind]
    rfl

end SampledBatch

/-! ## Two batches -/

omit [DecidableEq F] [Zero F] [One F] in
theorem params_append (b b' : SampledBatch F vocab) :
    (b.append b').params = b.params ++ b'.params := map_append

/-- A tensor with the rows of the first batch only. -/
theorem rowsAre_left_iff {α β : Type} {needed : Bool} {rows rows' : List α} {meaning : α → β}
    {neutral : β} (hne' : rows' ≠ [])
    (h : needed = false → ∀ row ∈ rows ++ rows', meaning row = neutral) :
    RowsAre (definedIf needed rows) meaning neutral (rows ++ rows') ↔ needed = false := by
  have hpos' := length_pos_iff.mpr hne'
  cases needed with
  | false => exact iff_of_true (rowsAre_none (h rfl)) rfl
  | true =>
    refine iff_of_false (fun hrows => ?_) nofun
    have hlength := @RowsAre.length_eq _ _ rows _ _ _ hrows
    rw [length_append] at hlength
    omega

section

variable (b b' : SampledBatch F vocab)

omit [DecidableEq F] [Zero F] [One F] in
theorem mem_params_append {r : RequestSamplingParam F} :
    r ∈ (b.append b').params ↔ r ∈ b.params ∨ r ∈ b'.params := by
  rw [params_append, mem_append]

omit [DecidableEq F] [Zero F] [One F] in
/-- A tensor that `concat` joins is right when both batches have it, or neither. -/
theorem rowsAre_field_iff {α β : Type} {needs : List (RequestSamplingParam F) → Bool}
    {field : RequestSamplingParam F → α} {meaning : α → β} {neutral : β}
    (hneutral : ∀ {ps}, needs ps = false → ∀ row ∈ ps.map field, meaning row = neutral) :
    RowsAre (safeConcat (definedIf (needs b.params) (b.params.map field))
      (definedIf (needs b'.params) (b'.params.map field))) meaning neutral
        ((b.append b').params.map field) ↔ needs b.params = needs b'.params := by
  have hne : b.params.map field ≠ [] := by simpa [SampledBatch.params] using b.nonempty
  have hne' : b'.params.map field ≠ [] := by simpa [SampledBatch.params] using b'.nonempty
  rw [params_append, map_append]
  exact rowsAre_safeConcat_iff hne hne' hneutral hneutral

theorem Alike.of_describes
    (hwidth : needTokenStats b.params = true → needTokenStats b'.params = true →
      b.statisticsWidth = b'.statisticsWidth)
    (h : Describes (b.joined b') (b.append b')) : Alike b b' := by
  have hpenalties := (rowsAre_field_iff b b' frequency_neutral).mp h.frequency
  have hrepetition := (rowsAre_field_iff b b' repetition_neutral).mp h.repetition
  have hnone : needsPenalties b.params = false := by
    have hpresence := h.presence
    rw [params_append, map_append] at hpresence
    refine (rowsAre_left_iff (by simpa [SampledBatch.params] using b'.nonempty) ?_).mp hpresence
    intro hnone row hrow
    rcases mem_append.mp hrow with hrow | hrow
    · exact presence_neutral hnone row hrow
    · exact presence_neutral (hpenalties ▸ hnone) row hrow
  exact
    { penalties := hnone
      penalties' := hpenalties ▸ hnone
      repetition := hrepetition
      statistics := by
        intro hneeds
        apply hwidth
        · rw [needTokenStats, hneeds, Bool.or_true]
        · rw [needTokenStats, ← hrepetition, hneeds, Bool.or_true]
      temperature := (rowsAre_field_iff b b' temperature_neutral).mp h.temperature
      topK := (rowsAre_field_iff b b' topK_neutral).mp h.topK
      topP := (rowsAre_field_iff b b' topP_neutral).mp h.topP
      random := fun hall r hr => h.allRandom.mp (b.describes_parameters.allRandom.mpr hall) r
        ((mem_params_append b b').mpr (Or.inr hr))
      greedy := fun hnone r hr => h.allGreedy.mp (b.describes_parameters.allGreedy.mpr hnone) r
        ((mem_params_append b b').mpr (Or.inr hr)) }

theorem Alike.statisticsAre (h : Alike b b') : StatisticsAre (b.joined b') (b.append b') := by
  have hneeds : needTokenStats b.params = needsRepetition b.params := by
    rw [needTokenStats, h.penalties, Bool.false_or]
  have hneeds' : needTokenStats b'.params = needsRepetition b.params := by
    rw [needTokenStats, h.penalties', Bool.false_or, h.repetition]
  unfold StatisticsAre SampledBatch.joined SampledBatch.parameters join gather
  rw [hneeds, hneeds', params_append]
  cases hrepetition : needsRepetition b.params with
  | false =>
    have hrepetition' := h.repetition.symm.trans hrepetition
    have hpenalties := Bool.or_eq_false_iff.mp h.penalties
    have hpenalties' := Bool.or_eq_false_iff.mp h.penalties'
    refine ⟨?_, ?_⟩
    · rw [needsPenalties, any_append, any_append, hpenalties.1, hpenalties.2,
        hpenalties'.1, hpenalties'.2]
      rfl
    · rw [needsRepetition, any_append]
      exact Bool.or_eq_false_iff.mpr ⟨hrepetition, hrepetition'⟩
  | true =>
    refine ⟨?_, ?_, ?_, ?_⟩
    · simp [SampledBatch.paddedIds, pad2dVector, SampledBatch.append]
    · simp [SampledBatch.paddedCounts, pad2dVector, SampledBatch.append]
    · rw [length_append, length_map, length_map, SampledBatch.append, length_append]
    · rw [zip_append (by simp [SampledBatch.paddedCounts, pad2dVector]),
        zip_append (by simp [SampledBatch.paddedCounts, SampledBatch.paddedIds, pad2dVector]),
        map_append, b.paddedStatistics, b'.paddedStatistics, SampledBatch.append,
        map_append]

theorem Alike.describes (h : Alike b b') : Describes (b.joined b') (b.append b') where
  frequency := (rowsAre_field_iff b b' frequency_neutral).mpr (h.penalties.trans h.penalties'.symm)
  presence := by
    show RowsAre (definedIf (needsPenalties b.params) _) id 0 _
    rw [h.penalties, params_append, map_append]
    refine rowsAre_none fun row hrow => ?_
    rcases mem_append.mp hrow with hrow | hrow
    · exact presence_neutral h.penalties row hrow
    · exact presence_neutral h.penalties' row hrow
  repetition := (rowsAre_field_iff b b' repetition_neutral).mpr h.repetition
  statistics := h.statisticsAre
  temperature := (rowsAre_field_iff b b' temperature_neutral).mpr h.temperature
  topK := (rowsAre_field_iff b b' topK_neutral).mpr h.topK
  topP := (rowsAre_field_iff b b' topP_neutral).mpr h.topP
  filter := by
    have hfiltered : (b.isFiltered || b'.isFiltered) = (b.append b').isFiltered :=
      any_append.symm
    have hrows : b.filterRows ++ b'.filterRows = (b.append b').filterRows :=
      map_append.symm
    show RowsAre (definedIf (b.isFiltered || b'.isFiltered) (b.filterRows ++ b'.filterRows)) _ _ _
    rw [hfiltered, hrows]
    exact rowsAre_definedIf (b.append b').filter_neutral
  doSample := by
    rw [params_append, map_append]
    rfl
  selected := rfl
  sampleIdxes := by
    show List.range _ ++ (List.range _).map _ = _
    rw [SampledBatch.append, length_append, range_add]
  allRandom := by
    constructor
    · intro hrandom r hr
      have hall := b.describes_parameters.allRandom.mp hrandom
      exact ((mem_params_append b b').mp hr).elim (hall r) (h.random hall r)
    · intro hall
      exact b.describes_parameters.allRandom.mpr fun r hr =>
        hall r ((mem_params_append b b').mpr (Or.inl hr))
  allGreedy := by
    constructor
    · intro hgreedy r hr
      have hnone := b.describes_parameters.allGreedy.mp hgreedy
      exact ((mem_params_append b b').mp hr).elim (hnone r) (h.greedy hnone r)
    · intro hnone
      exact b.describes_parameters.allGreedy.mpr fun r hr =>
        hnone r ((mem_params_append b b').mpr (Or.inl hr))

theorem concatDescribes_iff_joined : ConcatDescribes b b' ↔
    (needTokenStats b.params = true → needTokenStats b'.params = true →
      b.statisticsWidth = b'.statisticsWidth) ∧ Describes (b.joined b') (b.append b') := by
  constructor
  · rintro ⟨-, p, p', q, hp, hp', hq, hdescribes⟩
    rw [b.init_eq, Except.ok.injEq] at hp
    rw [b'.init_eq, Except.ok.injEq] at hp'
    rw [← hp, ← hp', SampledBatch.concat_eq_ok_iff] at hq
    obtain ⟨hwidth, rfl⟩ := hq
    exact ⟨hwidth, hdescribes⟩
  · rintro ⟨hwidth, hdescribes⟩
    exact ⟨⟨_, (b.append b').init_eq, (b.append b').describes_parameters⟩, _, _, _, b.init_eq,
      b'.init_eq, (b.concat_eq_ok_iff b' _).mpr ⟨hwidth, rfl⟩, hdescribes⟩

end

/-- One request with a presence penalty. -/
def penalizedBatch : SampledBatch ℚ 1 where
  requests := [{
    param := { frequencyPenalty := 0, presencePenalty := 1, repetitionPenalty := 1,
               temperature := 1, topP := 1 }
    uniqueTokens := [(0, 1)]
    filterRow := none
    filterRow_length := nofun }]
  selectedTokenIdxes := [0]
  hiddenRows := 1
  vocab_pos := Nat.one_pos
  nonempty := nofun
  selected_length := rfl
  selected_lt := by simp
  selected_last := rfl

end Xllm.Sampling
