import Xllm.KvCacheTransfer.PushBlocks

/-!
# The pairs of a push, from the batch to the destinations

`groupPairs` are the pairs of a cache group. The filter leaves the pairs of this rank
(`filterMapping_pairs`): the remote ids at the positions that are the rank modulo the split size, each
with the local id of its quotient. The merge appends the pairs of every arrival at a destination to
what the destination has (`mergeKvBlocks_spec`), and an entry of the map belongs to one destination,
because the key determines the cluster id and the address.
-/

namespace Xllm.Framework

open List

/-! ## Mappings and their pairs -/

def groupPairs (mappings : List KVTransferMapping) (groupId : Int) : List (Nat × Nat) :=
  mappings.flatMap fun mapping =>
    if mapping.groupId = groupId then mapping.localIds.zip mapping.remoteIds else []

/-- One entry for each group, with as many local ids as remote ones. -/
structure Aligned (mappings : List KVTransferMapping) : Prop where
  groups : (mappings.map (·.groupId)).Nodup
  sizes : ∀ mapping ∈ mappings, mapping.localIds.length = mapping.remoteIds.length

theorem groupPairs_cons (mapping : KVTransferMapping) (mappings : List KVTransferMapping)
    (groupId : Int) : groupPairs (mapping :: mappings) groupId =
      (if mapping.groupId = groupId then mapping.localIds.zip mapping.remoteIds else []) ++
        groupPairs mappings groupId := by
  unfold groupPairs
  rw [flatMap_cons]

variable {mappings : List KVTransferMapping}

theorem groupPairs_eq_nil {groupId : Int}
    (h : groupId ∉ mappings.map (·.groupId)) : groupPairs mappings groupId = [] := by
  unfold groupPairs
  rw [flatMap_eq_nil_iff]
  intro mapping hmem
  refine if_neg fun heq => h ?_
  rw [← heq]
  exact mem_map_of_mem hmem

theorem appendMapping_groups (dst : List KVTransferMapping) (srcMapping : KVTransferMapping) :
    (appendMapping dst srcMapping).map (·.groupId) =
      if srcMapping.groupId ∈ dst.map (·.groupId) then dst.map (·.groupId)
      else dst.map (·.groupId) ++ [srcMapping.groupId] := by
  induction dst with
  | nil => rfl
  | cons mapping dst ih =>
    unfold appendMapping
    by_cases h : mapping.groupId = srcMapping.groupId
    · rw [if_pos h, if_pos (by rw [map_cons, h]; exact mem_cons_self)]
      rfl
    · rw [if_neg h, map_cons, ih, map_cons]
      by_cases hmem : srcMapping.groupId ∈ dst.map (·.groupId)
      · rw [if_pos hmem, if_pos (mem_cons_of_mem _ hmem)]
      · rw [if_neg hmem, if_neg fun hcons => ?_]
        · rfl
        · rcases mem_cons.mp hcons with heq | htail
          · exact h heq.symm
          · exact hmem htail

variable {dst : List KVTransferMapping}

theorem appendMapping_aligned {srcMapping : KVTransferMapping}
    (h : Aligned dst) (hsrc : srcMapping.localIds.length = srcMapping.remoteIds.length) :
    Aligned (appendMapping dst srcMapping) := by
  refine ⟨?_, ?_⟩
  · rw [appendMapping_groups]
    split
    · exact h.groups
    · rename_i hnew
      refine nodup_append.mpr ⟨h.groups, nodup_singleton _, ?_⟩
      rintro a ha b hb rfl
      obtain rfl := mem_singleton.mp hb
      exact hnew ha
  · have hsizes := h.sizes
    clear h
    induction dst with
    | nil =>
      intro mapping hmem
      obtain rfl := mem_singleton.mp hmem
      exact hsrc
    | cons mapping dst ih =>
      unfold appendMapping
      split
      · intro mapping' hmem
        rcases mem_cons.mp hmem with rfl | hmem
        · rw [length_append, length_append, hsrc, hsizes mapping mem_cons_self]
        · exact hsizes mapping' (mem_cons_of_mem _ hmem)
      · intro mapping' hmem
        rcases mem_cons.mp hmem with rfl | hmem
        · exact hsizes mapping' mem_cons_self
        · exact ih (fun m hm => hsizes m (mem_cons_of_mem _ hm)) mapping' hmem

/-- The pairs of the appended mapping come behind those of its group. -/
theorem appendMapping_pairs (h : Aligned dst) (srcMapping : KVTransferMapping) (groupId : Int) :
    groupPairs (appendMapping dst srcMapping) groupId = groupPairs dst groupId ++
      (if srcMapping.groupId = groupId then srcMapping.localIds.zip srcMapping.remoteIds
        else []) := by
  induction dst with
  | nil =>
    show groupPairs [srcMapping] groupId = _
    exact append_nil _
  | cons mapping dst ih =>
    have hgroups := nodup_cons.mp h.groups
    have htail : Aligned dst := ⟨hgroups.2, fun m hm => h.sizes m (mem_cons_of_mem _ hm)⟩
    unfold appendMapping
    by_cases hsame : mapping.groupId = srcMapping.groupId
    · rw [if_pos hsame, groupPairs_cons, groupPairs_cons]
      by_cases hgroup : mapping.groupId = groupId
      · have hnone : groupPairs dst groupId = [] :=
          groupPairs_eq_nil (by rw [← hgroup]; exact hgroups.1)
        rw [if_pos (show mapping.groupId = groupId from hgroup), if_pos hgroup,
          if_pos (hsame.symm.trans hgroup), hnone, append_nil, append_nil]
        exact zip_append (h.sizes mapping mem_cons_self)
      · rw [if_neg (show ¬ mapping.groupId = groupId from hgroup), if_neg hgroup,
          if_neg fun heq => hgroup (hsame.trans heq), append_nil]
    · rw [if_neg hsame, groupPairs_cons, groupPairs_cons, ih htail, List.append_assoc]

theorem appendMappings_spec {src : List KVTransferMapping} (hdst : Aligned dst)
    (hsrc : ∀ mapping ∈ src, mapping.localIds.length = mapping.remoteIds.length) :
    Aligned (appendMappings dst src) ∧
      ∀ groupId, groupPairs (appendMappings dst src) groupId =
        groupPairs dst groupId ++ groupPairs src groupId := by
  unfold appendMappings
  induction src generalizing dst with
  | nil => exact ⟨hdst, fun groupId => (append_nil _).symm⟩
  | cons mapping src ih =>
    obtain ⟨haligned, hpairs⟩ := ih
      (appendMapping_aligned hdst (hsrc mapping mem_cons_self))
      fun m hm => hsrc m (mem_cons_of_mem _ hm)
    refine ⟨haligned, fun groupId => ?_⟩
    rw [foldl_cons, hpairs, appendMapping_pairs hdst, List.append_assoc, ← groupPairs_cons]

/-! ## The checks -/

variable {kvSplitSize : Nat} {rankLocalMapping : Bool} {groupIds : List Int}

theorem validateMappings_groups
    (h : validateMappings kvSplitSize rankLocalMapping groupIds mappings = true) :
    (mappings.map (·.groupId)).Nodup ∧ (∀ groupId ∈ groupIds, groupId ∉ mappings.map (·.groupId)) ∧
      ∀ mapping ∈ mappings, validateMappingSizes kvSplitSize rankLocalMapping mapping = true := by
  induction mappings generalizing groupIds with
  | nil => exact ⟨nodup_nil, fun _ _ => by simp, nofun⟩
  | cons mapping mappings ih =>
    unfold validateMappings at h
    by_cases hseen : mapping.groupId ∈ groupIds
    · rw [if_pos hseen] at h
      cases h
    · rw [if_neg hseen] at h
      by_cases hsizes : validateMappingSizes kvSplitSize rankLocalMapping mapping = true
      · rw [if_neg (not_not.mpr hsizes)] at h
        obtain ⟨hnodup, hfresh, hrest⟩ := ih h
        refine ⟨nodup_cons.mpr ⟨hfresh _ mem_cons_self, hnodup⟩, ?_, ?_⟩
        · intro groupId hmem hcons
          rcases mem_cons.mp hcons with rfl | htail
          · exact hseen hmem
          · exact hfresh groupId (mem_cons_of_mem _ hmem) htail
        · intro m hm
          rcases mem_cons.mp hm with rfl | hm
          · exact hsizes
          · exact hrest m hm
      · rw [if_pos hsizes] at h
        cases h

theorem validateMappings_of_aligned (h : Aligned mappings)
    (hfresh : ∀ groupId ∈ groupIds, groupId ∉ mappings.map (·.groupId)) :
    validateMappings 1 rankLocalMapping groupIds mappings = true := by
  induction mappings generalizing groupIds with
  | nil => rfl
  | cons mapping mappings ih =>
    have hgroups := nodup_cons.mp h.groups
    have hsizes : validateMappingSizes 1 rankLocalMapping mapping = true := by
      unfold validateMappingSizes
      exact decide_eq_true (h.sizes mapping mem_cons_self)
    unfold validateMappings
    rw [if_neg fun hseen => hfresh _ hseen mem_cons_self, if_neg (not_not.mpr hsizes)]
    refine ih ⟨hgroups.2, fun m hm => h.sizes m (mem_cons_of_mem _ hm)⟩ fun g hg hmem => ?_
    rcases mem_cons.mp hg with rfl | hg
    · exact hgroups.1 hmem
    · exact hfresh g hg (mem_cons_of_mem _ hmem)

/-! ## The positions of a rank -/

/-- A mapping whose remote ids are interleaved over the ranks of the KV split. -/
def interleaved (kvSplitSize : Nat) (info : TransferKVInfo) (mapping : KVTransferMapping) : Bool :=
  decide (1 < kvSplitSize) && !info.rankLocalMapping && isKvSplitGroup mapping.groupId

/-- The positions of the remote list that a rank sends. -/
def rankPositions (kvSplitRank kvSplitSize : Nat) (info : TransferKVInfo)
    (mapping : KVTransferMapping) : List Nat :=
  if interleaved kvSplitSize info mapping then
    (List.range mapping.remoteIds.length).filter (· % kvSplitSize = kvSplitRank)
  else List.range mapping.remoteIds.length

/-- The pair of a position: on an interleaved mapping the local id is that of the quotient. -/
def pairAt (kvSplitSize : Nat) (info : TransferKVInfo) (mapping : KVTransferMapping)
    (position : Nat) : Option (Nat × Nat) :=
  let localIndex := if interleaved kvSplitSize info mapping then position / kvSplitSize else position
  match mapping.localIds[localIndex]?, mapping.remoteIds[position]? with
  | some localId, some remoteId => some (localId, remoteId)
  | _, _ => none

/-- The pairs of a cache group that a request has on a rank. -/
def rankPairs (kvSplitRank kvSplitSize : Nat) (info : TransferKVInfo) (groupId : Int) :
    List (Nat × Nat) :=
  info.mappings.flatMap fun mapping =>
    if mapping.groupId = groupId then
      (rankPositions kvSplitRank kvSplitSize info mapping).filterMap (pairAt kvSplitSize info mapping)
    else []

theorem range_filter_mod {r S : Nat} (hr : r < S) (n : Nat) :
    (List.range n).filter (· % S = r) =
      (List.range ((n + S - 1 - r) / S)).map fun k => r + k * S := by
  induction n with
  | zero =>
    have hnone : (0 + S - 1 - r) / S = 0 := Nat.div_eq_of_lt (by omega)
    rw [hnone]
    rfl
  | succ n ih =>
    have hdivMod := Nat.div_add_mod n S
    have hmod := Nat.mod_lt n (show 0 < S by omega)
    rw [range_succ, filter_append, ih]
    by_cases hn : n % S = r
    · have hbefore : (n + S - 1 - r) / S = n / S := by
        have hsplit : n + S - 1 - r = (S - 1) + S * (n / S) := by omega
        rw [hsplit, Nat.add_mul_div_left _ _ (by omega), Nat.div_eq_of_lt (by omega), Nat.zero_add]
      have hafter : (n + 1 + S - 1 - r) / S = n / S + 1 := by
        have hsplit : n + 1 + S - 1 - r = S + S * (n / S) := by omega
        rw [hsplit, Nat.add_mul_div_left _ _ (by omega), Nat.div_self (by omega), Nat.add_comm]
      rw [hbefore, hafter, range_succ, map_append]
      have hlast : r + n / S * S = n := by
        rw [Nat.mul_comm]
        omega
      simp [hn, hlast]
    · have hsame : (n + 1 + S - 1 - r) / S = (n + S - 1 - r) / S := by
        rcases Nat.lt_or_gt_of_ne hn with hlt | hgt
        · have hsplit : n + S - 1 - r = (n % S + S - 1 - r) + S * (n / S) := by omega
          have hsplit' : n + 1 + S - 1 - r = (n % S + S - r) + S * (n / S) := by omega
          have hzero : (n % S + S - 1 - r) / S = 0 := Nat.div_eq_of_lt (by omega)
          have hzero' : (n % S + S - r) / S = 0 := Nat.div_eq_of_lt (by omega)
          rw [hsplit, hsplit', Nat.add_mul_div_left _ _ (by omega),
            Nat.add_mul_div_left _ _ (by omega), hzero, hzero']
        · have hsplit : n + S - 1 - r = (n % S - 1 - r) + S * (n / S + 1) := by
            rw [Nat.mul_succ]
            omega
          have hsplit' : n + 1 + S - 1 - r = (n % S - r) + S * (n / S + 1) := by
            omega
          have hzero : (n % S - 1 - r) / S = 0 := Nat.div_eq_of_lt (by omega)
          have hzero' : (n % S - r) / S = 0 := Nat.div_eq_of_lt (by omega)
          rw [hsplit, hsplit', Nat.add_mul_div_left _ _ (by omega),
            Nat.add_mul_div_left _ _ (by omega), hzero, hzero']
      rw [hsame]
      simp [hn]

theorem filterMap_range_of_none {α : Type} {f : Nat → Option α} {a b : Nat} (hab : a ≤ b)
    (h : ∀ k, a ≤ k → f k = none) : (List.range b).filterMap f = (List.range a).filterMap f := by
  obtain ⟨d, rfl⟩ := Nat.exists_eq_add_of_le hab
  rw [range_add, filterMap_append]
  have hnone : ((List.range d).map (a + ·)).filterMap f = [] := by
    rw [filterMap_eq_nil_iff]
    intro k hk
    obtain ⟨j, -, rfl⟩ := mem_map.mp hk
    exact h _ (Nat.le_add_right a j)
  rw [hnone, append_nil]

theorem zip_eq_filterMap (localIds remoteIds : List Nat) (n : Nat) (hn : remoteIds.length ≤ n) :
    localIds.zip remoteIds = (List.range n).filterMap fun k =>
      match localIds[k]?, remoteIds[k]? with
      | some localId, some remoteId => some (localId, remoteId)
      | _, _ => none := by
  induction remoteIds generalizing localIds n with
  | nil =>
    rw [zip_nil_right, eq_comm, filterMap_eq_nil_iff]
    intro k _
    cases localIds[k]? with
    | none => rfl
    | some localId => rfl
  | cons remoteId remoteIds ih =>
    cases localIds with
    | nil =>
      rw [zip_nil_left, eq_comm, filterMap_eq_nil_iff]
      intro k _
      rfl
    | cons localId localIds =>
      obtain ⟨m, rfl⟩ : ∃ m, n = m + 1 := ⟨n - 1, by rw [length_cons] at hn; omega⟩
      rw [zip_cons_cons, range_succ_eq_map, filterMap_cons, filterMap_map,
        ih localIds m (by rw [length_cons] at hn; omega)]
      rfl

/-- What the filter pairs the local ids with, from the `k`-th on. -/
theorem zip_stridedRemoteIds (kvSplitRank kvSplitSize : Nat) (remoteIds : List Nat)
    (hsplit : 0 < kvSplitSize) (localIds : List Nat) (k : Nat) :
    localIds.zip (stridedRemoteIds kvSplitRank kvSplitSize remoteIds localIds.length k) =
      (List.range localIds.length).filterMap fun j =>
        match localIds[j]?, remoteIds[kvSplitRank + (k + j) * kvSplitSize]? with
        | some localId, some remoteId => some (localId, remoteId)
        | _, _ => none := by
  induction localIds generalizing k with
  | nil => rfl
  | cons localId localIds ih =>
    rw [length_cons, stridedRemoteIds, range_succ_eq_map, filterMap_cons, filterMap_map]
    cases hremote : remoteIds[kvSplitRank + k * kvSplitSize]? with
    | none =>
      -- the list has ended, so it has ended for the later local ids too
      have hlength := List.getElem?_eq_none_iff.mp hremote
      rw [zip_nil_right, List.getElem?_cons_zero]
      refine (filterMap_eq_nil_iff.mpr fun j _ => ?_).symm
      have hend : remoteIds[kvSplitRank + (k + (j + 1)) * kvSplitSize]? = none := by
        refine List.getElem?_eq_none (Nat.le_trans hlength ?_)
        exact Nat.add_le_add_left (Nat.mul_le_mul_right _ (Nat.le_add_right _ _)) _
      rw [Function.comp_apply, Nat.succ_eq_add_one, List.getElem?_cons_succ, hend]
      cases localIds[j]? with
      | none => rfl
      | some localId => rfl
    | some remoteId =>
      rw [Nat.add_zero, zip_cons_cons, ih (k + 1)]
      have hshift : ∀ j, k + 1 + j = k + Nat.succ j := fun j => by omega
      simp only [hshift]
      rfl

theorem filterMapping_pairs {kvSplitRank : Nat} (hr : kvSplitRank < kvSplitSize)
    (hsplit : 1 < kvSplitSize) (info : TransferKVInfo) (hlocal : info.rankLocalMapping = false)
    (mapping : KVTransferMapping) :
    (filterMapping kvSplitRank kvSplitSize mapping).localIds.zip
        (filterMapping kvSplitRank kvSplitSize mapping).remoteIds =
      (rankPositions kvSplitRank kvSplitSize info mapping).filterMap
        (pairAt kvSplitSize info mapping) := by
  unfold filterMapping rankPositions pairAt interleaved
  cases hgroup : isKvSplitGroup mapping.groupId with
  | false =>
    rw [if_pos (by simp), if_neg (by simp), Bool.and_false]
    exact zip_eq_filterMap _ _ _ (Nat.le_refl _)
  | true =>
    rw [if_neg (by simp), hlocal, decide_eq_true hsplit]
    have htake : ∀ (xs ys : List Nat), (xs.take ys.length).zip ys = xs.zip ys := by
      intro xs ys
      induction ys generalizing xs with
      | nil => rw [zip_nil_right, zip_nil_right]
      | cons y ys ih =>
        cases xs with
        | nil => rfl
        | cons x xs =>
          show (x :: xs.take ys.length).zip (y :: ys) = _
          rw [zip_cons_cons, zip_cons_cons, ih]
    rw [htake, zip_stridedRemoteIds _ _ _ (by omega)]
    show _ = (List.filter (· % kvSplitSize = kvSplitRank)
      (List.range mapping.remoteIds.length)).filterMap fun position =>
        match mapping.localIds[position / kvSplitSize]?, mapping.remoteIds[position]? with
        | some localId, some remoteId => some (localId, remoteId)
        | _, _ => none
    rw [range_filter_mod hr, filterMap_map]
    let pair := fun k =>
      match mapping.localIds[k]?, mapping.remoteIds[kvSplitRank + k * kvSplitSize]? with
      | some localId, some remoteId => some (localId, remoteId)
      | _, _ => none
    let count := (mapping.remoteIds.length + kvSplitSize - 1 - kvSplitRank) / kvSplitSize
    have hpair : ((fun position =>
        match mapping.localIds[position / kvSplitSize]?, mapping.remoteIds[position]? with
        | some localId, some remoteId => some (localId, remoteId)
        | _, _ => none) ∘ fun k => kvSplitRank + k * kvSplitSize) = pair := by
      funext k
      have hquotient : (kvSplitRank + k * kvSplitSize) / kvSplitSize = k := by
        rw [Nat.add_mul_div_right _ _ (by omega), Nat.div_eq_of_lt hr, Nat.zero_add]
      show (match mapping.localIds[(kvSplitRank + k * kvSplitSize) / kvSplitSize]?,
          mapping.remoteIds[kvSplitRank + k * kvSplitSize]? with
        | some localId, some remoteId => some (localId, remoteId)
        | _, _ => none) = pair k
      rw [hquotient]
    rw [hpair]
    simp only [Nat.zero_add]
    -- both lists of indices end where there is no pair any more
    have hpastLocal : ∀ k, mapping.localIds.length ≤ k → pair k = none := by
      intro k hk
      show (match mapping.localIds[k]?, mapping.remoteIds[kvSplitRank + k * kvSplitSize]? with
        | some localId, some remoteId => some (localId, remoteId)
        | _, _ => none) = none
      rw [List.getElem?_eq_none hk]
    have hpastRemote : ∀ k, count ≤ k → pair k = none := by
      intro k hk
      have hend : mapping.remoteIds.length ≤ kvSplitRank + k * kvSplitSize := by
        by_contra hlt
        have hle : k + 1 ≤ count := by
          refine (Nat.le_div_iff_mul_le (by omega)).mpr ?_
          rw [Nat.succ_mul]
          omega
        omega
      show (match mapping.localIds[k]?, mapping.remoteIds[kvSplitRank + k * kvSplitSize]? with
        | some localId, some remoteId => some (localId, remoteId)
        | _, _ => none) = none
      rw [List.getElem?_eq_none hend]
      cases mapping.localIds[k]? with
      | none => rfl
      | some localId => rfl
    rw [← filterMap_range_of_none (Nat.le_max_left mapping.localIds.length count) hpastLocal,
      ← filterMap_range_of_none (Nat.le_max_right mapping.localIds.length count) hpastRemote]

/-! ## This rank's part of a request -/

/-- A request as this rank merges it. -/
def rankPart (kvSplitRank kvSplitSize : Nat) (info : TransferKVInfo) : TransferKVInfo :=
  if 1 < kvSplitSize ∧ info.rankLocalMapping = false then
    { info with mappings := info.mappings.map (filterMapping kvSplitRank kvSplitSize) }
  else info

section

variable {kvSplitRank kvSplitSize : Nat}

@[simp] theorem rankPart_requestId (info : TransferKVInfo) :
    (rankPart kvSplitRank kvSplitSize info).requestId = info.requestId := by
  unfold rankPart
  split <;> rfl

@[simp] theorem rankPart_remoteInstanceInfo (info : TransferKVInfo) :
    (rankPart kvSplitRank kvSplitSize info).remoteInstanceInfo = info.remoteInstanceInfo := by
  unfold rankPart
  split <;> rfl

theorem filterMapping_groupId (mapping : KVTransferMapping) :
    (filterMapping kvSplitRank kvSplitSize mapping).groupId = mapping.groupId := by
  unfold filterMapping
  split <;> rfl

variable {info : TransferKVInfo}

theorem rankPairs_of_not_interleaved
    (h : ∀ mapping, interleaved kvSplitSize info mapping = false) (groupId : Int) :
    rankPairs kvSplitRank kvSplitSize info groupId = groupPairs info.mappings groupId := by
  unfold rankPairs groupPairs
  congr 1
  funext mapping
  split
  · unfold rankPositions pairAt
    rw [h mapping]
    exact (zip_eq_filterMap _ _ _ (Nat.le_refl _)).symm
  · rfl

theorem rankPart_pairs (hr : kvSplitRank < kvSplitSize) (info : TransferKVInfo) (groupId : Int) :
    groupPairs (rankPart kvSplitRank kvSplitSize info).mappings groupId =
      rankPairs kvSplitRank kvSplitSize info groupId := by
  unfold rankPart
  by_cases hpart : 1 < kvSplitSize ∧ info.rankLocalMapping = false
  · rw [if_pos hpart]
    unfold groupPairs rankPairs
    rw [flatMap_map]
    congr 1
    funext mapping
    rw [filterMapping_groupId, filterMapping_pairs hr hpart.1 info hpart.2]
  · rw [if_neg hpart, rankPairs_of_not_interleaved]
    intro mapping
    unfold interleaved
    by_cases hsplit : 1 < kvSplitSize
    · have hlocal : info.rankLocalMapping = true := by
        cases hflag : info.rankLocalMapping with
        | true => rfl
        | false => exact absurd ⟨hsplit, hflag⟩ hpart
      rw [hlocal, Bool.not_true, Bool.and_false, Bool.false_and]
    · rw [decide_eq_false hsplit, Bool.false_and, Bool.false_and]

theorem stridedRemoteIds_length (remoteIds : List Nat) (localCount k : Nat) :
    (stridedRemoteIds kvSplitRank kvSplitSize remoteIds localCount k).length ≤ localCount := by
  induction localCount generalizing k with
  | zero => exact Nat.le_refl _
  | succ localCount ih =>
    unfold stridedRemoteIds
    split
    · exact Nat.zero_le _
    · exact Nat.succ_le_succ (ih _)

theorem rankPart_aligned
    (h : validateMappings kvSplitSize info.rankLocalMapping [] info.mappings = true) :
    Aligned (rankPart kvSplitRank kvSplitSize info).mappings := by
  obtain ⟨hgroups, -, hsizes⟩ := validateMappings_groups h
  have hplain : ∀ mapping ∈ info.mappings,
      ¬ (kvSplitSize > 1 ∧ ¬ info.rankLocalMapping ∧ isKvSplitGroup mapping.groupId) →
      mapping.localIds.length = mapping.remoteIds.length := by
    intro mapping hmem hnot
    have hmapping := hsizes mapping hmem
    unfold validateMappingSizes at hmapping
    rw [if_pos hnot] at hmapping
    exact of_decide_eq_true hmapping
  unfold rankPart
  by_cases hpart : 1 < kvSplitSize ∧ info.rankLocalMapping = false
  · rw [if_pos hpart]
    refine ⟨?_, ?_⟩
    · rw [map_map]
      have hsame : ((fun m : KVTransferMapping => m.groupId) ∘
          filterMapping kvSplitRank kvSplitSize) = fun m => m.groupId := by
        funext mapping
        exact filterMapping_groupId mapping
      rw [hsame]
      exact hgroups
    · intro mapping' hmem
      obtain ⟨mapping, hmapping, rfl⟩ := mem_map.mp hmem
      unfold filterMapping
      by_cases hgroup : isKvSplitGroup mapping.groupId
      · rw [if_neg (not_not.mpr hgroup)]
        rw [length_take]
        exact Nat.min_eq_left (stridedRemoteIds_length _ _ _)
      · rw [if_pos hgroup]
        exact hplain mapping hmapping fun hall => hgroup hall.2.2
  · rw [if_neg hpart]
    refine ⟨hgroups, fun mapping hmem => hplain mapping hmem fun hall => hpart ⟨hall.1, ?_⟩⟩
    exact Bool.eq_false_iff.mpr hall.2.1

/-- A request that the filter keeps. -/
def keepsPart (info : TransferKVInfo) : Bool :=
  info.rankLocalMapping ||
    info.mappings.any fun mapping => mapping.localIds ≠ [] && mapping.remoteIds ≠ []

theorem filterKvSplitInfos_eq (hsplit : 1 < kvSplitSize) (infos : List TransferKVInfo) :
    filterKvSplitInfos kvSplitRank kvSplitSize infos =
      (infos.map (rankPart kvSplitRank kvSplitSize)).filter keepsPart := by
  rw [← filterMap_eq_filter, filterMap_map]
  unfold filterKvSplitInfos
  congr 1
  funext info
  have hguard : ∀ part : TransferKVInfo, (Option.guard (fun x => keepsPart x) part) =
      if keepsPart part then some part else none := fun part => rfl
  show _ = Option.guard (fun x => keepsPart x) (rankPart kvSplitRank kvSplitSize info)
  rw [hguard]
  cases hlocal : info.rankLocalMapping with
  | true =>
    have hpart : rankPart kvSplitRank kvSplitSize info = info :=
      if_neg fun h => absurd (hlocal.symm.trans h.2) (by simp)
    have hkeeps : keepsPart info = true := by
      unfold keepsPart
      rw [hlocal, Bool.true_or]
    rw [if_pos rfl, hpart, if_pos hkeeps]
  | false =>
    have hpart : rankPart kvSplitRank kvSplitSize info =
        { info with mappings := info.mappings.map (filterMapping kvSplitRank kvSplitSize) } :=
      if_pos ⟨hsplit, hlocal⟩
    rw [if_neg (by simp), hpart]
    unfold keepsPart
    simp only [hlocal, Bool.false_or]

theorem groupPairs_of_not_keepsPart (h : keepsPart info = false)
    (groupId : Int) : groupPairs info.mappings groupId = [] := by
  obtain ⟨-, hany⟩ := Bool.or_eq_false_iff.mp h
  unfold groupPairs
  rw [flatMap_eq_nil_iff]
  intro mapping hmem
  split
  · have hnone := any_eq_false.mp hany mapping hmem
    by_cases hlocal : mapping.localIds = []
    · rw [hlocal, zip_nil_left]
    · by_cases hremote : mapping.remoteIds = []
      · rw [hremote, zip_nil_right]
      · simp [hlocal, hremote] at hnone
  · rfl

end

/-! ## Arrivals at the destinations -/

/-- The worker of a request's destination: its cluster id and its address. -/
def destinationOf (info : TransferKVInfo) (dstRank : Nat) : Nat × String :=
  (info.remoteInstanceInfo.clusterIds.getD dstRank 0, info.remoteInstanceInfo.addrs.getD dstRank "")

/-- The ranks of the DP group that a request goes to. -/
def destinationRanks (info : TransferKVInfo) : List Nat :=
  if info.validTopology then
    List.range' (info.dpRank.toNat * info.dstTpSize) info.dstTpSize
  else []

def arrivals (infos : List TransferKVInfo) : List (TransferKVInfo × Nat) :=
  infos.flatMap fun info => (destinationRanks info).map fun dstRank => (info, dstRank)

def arrivalKey (arrival : TransferKVInfo × Nat) : String :=
  getMergeKey (destinationOf arrival.1 arrival.2).1 (destinationOf arrival.1 arrival.2).2

theorem mergeKvBlocks_eq (infos : List TransferKVInfo) :
    mergeKvBlocks infos =
      (arrivals infos).foldl (fun merged arrival => mergeKvInfo merged arrival.1 arrival.2) [] := by
  unfold mergeKvBlocks
  generalize ([] : MergedKvInfos) = merged
  induction infos generalizing merged with
  | nil => rfl
  | cons info infos ih =>
    rw [foldl_cons, ih]
    unfold arrivals
    rw [flatMap_cons, foldl_append]
    unfold destinationRanks
    by_cases hvalid : info.validTopology
    · rw [if_neg (not_not.mpr hvalid), if_pos hvalid, foldl_map]
    · rw [if_pos hvalid, if_neg hvalid]
      rfl

theorem getMergeKey_injective {clusterId clusterId' : Nat} {addr addr' : String}
    (h : getMergeKey clusterId addr = getMergeKey clusterId' addr') :
    clusterId = clusterId' ∧ addr = addr' := by
  have hlists : Nat.toDigits 10 clusterId ++ '_' :: addr.toList =
      Nat.toDigits 10 clusterId' ++ '_' :: addr'.toList := by
    have := congrArg String.toList h
    unfold getMergeKey at this
    simpa [String.toList_append, Nat.repr] using this
  have hsplit : ∀ (ds es as bs : List Char), '_' ∉ ds → '_' ∉ es →
      ds ++ '_' :: as = es ++ '_' :: bs → ds = es ∧ as = bs := by
    intro ds
    induction ds with
    | nil =>
      intro es as bs _ hes heq
      cases es with
      | nil => exact ⟨rfl, (List.cons.inj heq).2⟩
      | cons e es =>
        obtain ⟨rfl, -⟩ := List.cons.inj heq
        exact absurd mem_cons_self hes
    | cons d ds ih =>
      intro es as bs hds hes heq
      cases es with
      | nil =>
        obtain ⟨rfl, -⟩ := List.cons.inj heq
        exact absurd mem_cons_self hds
      | cons e es =>
        obtain ⟨rfl, htail⟩ := List.cons.inj heq
        obtain ⟨rfl, rfl⟩ := ih es as bs (fun hd => hds (mem_cons_of_mem _ hd))
          (fun he => hes (mem_cons_of_mem _ he)) htail
        exact ⟨rfl, rfl⟩
  obtain ⟨hdigits, haddr⟩ := hsplit _ _ _ _ Nat.underscore_not_in_toDigits
    Nat.underscore_not_in_toDigits hlists
  refine ⟨?_, String.toList_injective haddr⟩
  have := congrArg (fun digits => Nat.ofDigitChars 10 digits 0) hdigits
  simpa using this

/-! ## The merge -/

/-- What an entry of the map holds when `done` has arrived. -/
structure MergedEntry (done : List (TransferKVInfo × Nat)) (key : String) (kvInfo : KVCacheInfo) :
    Prop where
  destination : key = getMergeKey kvInfo.dstClusterId kvInfo.dstAddr
  arrived : ∃ arrival ∈ done, arrivalKey arrival = key
  aligned : Aligned kvInfo.mappings
  pairs : ∀ groupId, groupPairs kvInfo.mappings groupId =
    done.flatMap fun arrival =>
      if arrivalKey arrival = key then groupPairs arrival.1.mappings groupId else []
  requests : ∀ arrival ∈ done, arrivalKey arrival = key → arrival.1.requestId ∈ kvInfo.requestIds

structure MergeSpec (done : List (TransferKVInfo × Nat)) (merged : MergedKvInfos) : Prop where
  keys : (merged.map Prod.fst).Nodup
  entries : ∀ entry ∈ merged, MergedEntry done entry.1 entry.2
  arrived : ∀ arrival ∈ done, arrivalKey arrival ∈ merged.map Prod.fst

theorem mem_appendUniqueRequestId {requestIds : List String} {requestId x : String} :
    x ∈ appendUniqueRequestId requestIds requestId ↔ x ∈ requestIds ∨ x = requestId := by
  unfold appendUniqueRequestId
  split
  · rename_i hmem
    constructor
    · exact .inl
    · rintro (h | rfl)
      · exact h
      · exact hmem
  · rw [mem_append, mem_singleton]

variable {done : List (TransferKVInfo × Nat)} {merged : MergedKvInfos} {key : String}

theorem no_pairs_of_key_absent
    (h : MergeSpec done merged) (hkey : key ∉ merged.map Prod.fst) (groupId : Int) :
    (done.flatMap fun arrival =>
      if arrivalKey arrival = key then groupPairs arrival.1.mappings groupId else []) = [] := by
  rw [flatMap_eq_nil_iff]
  intro arrival hmem
  refine if_neg fun heq => hkey ?_
  rw [← heq]
  exact h.arrived arrival hmem

theorem mergeInto_keys (key : String) (fresh : KVCacheInfo) (info : TransferKVInfo)
    (merged : MergedKvInfos) : (mergeInto key fresh info merged).map Prod.fst =
      if key ∈ merged.map Prod.fst then merged.map Prod.fst else merged.map Prod.fst ++ [key] := by
  induction merged with
  | nil => rfl
  | cons entry merged ih =>
    unfold mergeInto
    by_cases h : entry.1 = key
    · rw [if_pos h, if_pos (by rw [map_cons, h]; exact mem_cons_self), map_cons,
        map_cons, h]
    · rw [if_neg h, map_cons, ih, map_cons]
      by_cases hmem : key ∈ merged.map Prod.fst
      · rw [if_pos hmem, if_pos (mem_cons_of_mem _ hmem)]
      · have hcons : key ∉ entry.1 :: merged.map Prod.fst := by
          intro hcons
          rcases mem_cons.mp hcons with heq | htail
          · exact h heq.symm
          · exact hmem htail
        rw [if_neg hmem, if_neg hcons]
        rfl

theorem mem_mergeInto {fresh : KVCacheInfo} {info : TransferKVInfo}
    (hkeys : (merged.map Prod.fst).Nodup) {entry : String × KVCacheInfo}
    (h : entry ∈ mergeInto key fresh info merged) :
    (entry ∈ merged ∧ entry.1 ≠ key) ∨
      (∃ kvInfo, (key, kvInfo) ∈ merged ∧ entry = (key, kvInfo.append info)) ∨
      (key ∉ merged.map Prod.fst ∧ entry = (key, fresh.append info)) := by
  induction merged with
  | nil =>
    obtain rfl := mem_singleton.mp h
    exact .inr (.inr ⟨by simp, rfl⟩)
  | cons head merged ih =>
    obtain ⟨hhead, htail⟩ := nodup_cons.mp hkeys
    unfold mergeInto at h
    by_cases hsame : head.1 = key
    · rw [if_pos hsame] at h
      rcases mem_cons.mp h with rfl | hmem
      · refine .inr (.inl ⟨head.2, ?_, rfl⟩)
        rw [← hsame]
        exact mem_cons_self
      · refine .inl ⟨mem_cons_of_mem _ hmem, fun heq => hhead ?_⟩
        rw [hsame, ← heq]
        exact mem_map_of_mem hmem
    · rw [if_neg hsame] at h
      rcases mem_cons.mp h with rfl | hmem
      · exact .inl ⟨mem_cons_self, hsame⟩
      · rcases ih htail hmem with ⟨hold, hne⟩ | ⟨kvInfo, hold, heq⟩ | ⟨hnew, heq⟩
        · exact .inl ⟨mem_cons_of_mem _ hold, hne⟩
        · exact .inr (.inl ⟨kvInfo, mem_cons_of_mem _ hold, heq⟩)
        · refine .inr (.inr ⟨fun hcons => ?_, heq⟩)
          rcases mem_cons.mp hcons with hcons | hcons
          · exact hsame hcons.symm
          · exact hnew hcons

theorem MergedEntry.append
    {kvInfo : KVCacheInfo} {arrival : TransferKVInfo × Nat} (hkey : arrivalKey arrival = key)
    (haligned : Aligned arrival.1.mappings)
    (destination : key = getMergeKey kvInfo.dstClusterId kvInfo.dstAddr)
    (aligned : Aligned kvInfo.mappings) (pairs : ∀ groupId, groupPairs kvInfo.mappings groupId =
      done.flatMap fun arrival =>
        if arrivalKey arrival = key then groupPairs arrival.1.mappings groupId else [])
    (requests : ∀ arrival ∈ done, arrivalKey arrival = key →
      arrival.1.requestId ∈ kvInfo.requestIds) :
    MergedEntry (done ++ [arrival]) key (kvInfo.append arrival.1) := by
  obtain ⟨happended, hboth⟩ := appendMappings_spec aligned haligned.sizes
  refine ⟨destination, ⟨arrival, mem_append_right _ (mem_singleton_self _), hkey⟩,
    happended, fun groupId => ?_, fun arrival' harrival hkey' => ?_⟩
  · rw [flatMap_append, flatMap_singleton, if_pos hkey, ← pairs]
    exact hboth groupId
  · refine mem_appendUniqueRequestId.mpr ?_
    rcases mem_append.mp harrival with hdone | hnow
    · exact .inl (requests arrival' hdone hkey')
    · obtain rfl := mem_singleton.mp hnow
      exact .inr rfl

/-- An arrival joins the entry of its key, or starts one. -/
theorem mergeKvInfo_spec
    (h : MergeSpec done merged) (arrival : TransferKVInfo × Nat) (haligned : Aligned arrival.1.mappings) :
    MergeSpec (done ++ [arrival]) (mergeKvInfo merged arrival.1 arrival.2) := by
  let fresh : KVCacheInfo :=
    { dstClusterId := (destinationOf arrival.1 arrival.2).1
      dstAddr := (destinationOf arrival.1 arrival.2).2 }
  have hmerge : mergeKvInfo merged arrival.1 arrival.2 =
      mergeInto (arrivalKey arrival) fresh arrival.1 merged := rfl
  rw [hmerge]
  have hkeys := mergeInto_keys (arrivalKey arrival) fresh arrival.1 merged
  refine ⟨?_, ?_, ?_⟩
  · rw [hkeys]
    split
    · exact h.keys
    · rename_i hnew
      refine nodup_append.mpr ⟨h.keys, nodup_singleton _, ?_⟩
      rintro a ha b hb rfl
      obtain rfl := mem_singleton.mp hb
      exact hnew ha
  · intro entry hmem
    rcases mem_mergeInto h.keys hmem with ⟨hold, hne⟩ | ⟨kvInfo, hold, rfl⟩ | ⟨hnew, rfl⟩
    · obtain ⟨hdestination, ⟨a, ha, hakey⟩, hentry, hpairs, hrequests⟩ := h.entries entry hold
      refine ⟨hdestination, ⟨a, mem_append_left _ ha, hakey⟩, hentry, fun groupId => ?_, ?_⟩
      · rw [hpairs, flatMap_append, flatMap_singleton, if_neg fun heq => hne heq.symm,
          append_nil]
      · intro arrival' harrival hkey
        rcases mem_append.mp harrival with hdone | hnow
        · exact hrequests arrival' hdone hkey
        · obtain rfl := mem_singleton.mp hnow
          exact absurd hkey.symm hne
    · obtain ⟨hdestination, -, hentry, hpairs, hrequests⟩ := h.entries _ hold
      exact MergedEntry.append rfl haligned hdestination hentry hpairs hrequests
    · have hempty : Aligned fresh.mappings :=
        ⟨nodup_nil, nofun⟩
      have hnone : ∀ arrival' ∈ done, arrivalKey arrival' ≠ arrivalKey arrival :=
        fun arrival' hdone hkey => hnew (hkey ▸ h.arrived arrival' hdone)
      exact MergedEntry.append rfl haligned rfl hempty
        (fun groupId => (no_pairs_of_key_absent h hnew groupId).symm)
        fun arrival' hdone hkey => absurd hkey (hnone arrival' hdone)
  · intro arrival' harrival
    rw [hkeys]
    rcases mem_append.mp harrival with hdone | hnow
    · have hold := h.arrived arrival' hdone
      split
      · exact hold
      · exact mem_append_left _ hold
    · obtain rfl := mem_singleton.mp hnow
      split
      · rename_i hmem
        exact hmem
      · exact mem_append_right _ (mem_singleton_self _)

theorem mergeKvBlocks_spec {infos : List TransferKVInfo}
    (haligned : ∀ info ∈ infos, Aligned info.mappings) :
    MergeSpec (arrivals infos) (mergeKvBlocks infos) := by
  have hfrom : ∀ (todo done : List (TransferKVInfo × Nat)) (merged : MergedKvInfos),
      (∀ arrival ∈ todo, Aligned arrival.1.mappings) → MergeSpec done merged →
      MergeSpec (done ++ todo)
        (todo.foldl (fun merged arrival => mergeKvInfo merged arrival.1 arrival.2) merged) := by
    intro todo
    induction todo with
    | nil =>
      intro done merged _ h
      rw [append_nil]
      exact h
    | cons arrival todo ih =>
      intro done merged hsizes h
      have hstep := mergeKvInfo_spec h arrival (hsizes arrival mem_cons_self)
      have hrest := ih (done ++ [arrival]) _
        (fun a ha => hsizes a (mem_cons_of_mem _ ha)) hstep
      rw [List.append_assoc] at hrest
      exact hrest
  rw [mergeKvBlocks_eq]
  refine hfrom (arrivals infos) [] [] ?_ ⟨nodup_nil, nofun,
    nofun⟩
  intro arrival hmem
  obtain ⟨info, hinfo, hmem⟩ := mem_flatMap.mp hmem
  obtain ⟨dstRank, -, rfl⟩ := mem_map.mp hmem
  exact haligned info hinfo

end Xllm.Framework
