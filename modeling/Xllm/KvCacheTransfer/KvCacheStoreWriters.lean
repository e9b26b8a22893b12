import Xllm.KvCacheTransfer.KvCacheStore

/-!
# The writers of the shared store

The ranks of a DP-local domain put their cache blocks into one store. A rank looks its blocks up under
the same keys under which a rank wrote them, so that a key has to say what the blocks hold
(`keyPrefix_inj`) and somebody has to write it. `writers_of_key` says who does: a key has one writer at
most, and it has one exactly when the card is in the first complete TP group that holds the content.
-/

namespace Xllm.Framework.KVCacheStore

open Xllm.Lib Xllm.Lib.Framing

/-! ## The domain -/

/-- The configuration of a rank of the domain; `base` has the sizes. -/
def rankConfig (base : KVCacheStoreInitConfig) (rank : Nat) : KVCacheStoreInitConfig :=
  { base with
    tpRank := rank % base.tpSize
    cpRank := rank / (base.kvSplitFullDomainSize / base.cpSize)
    kvSplitRank := rank / (base.kvSplitFullDomainSize / base.kvSplitSize) }

/-- The cards that hold a cache completely, between them. -/
def tpGroupSize (base : KVCacheStoreInitConfig) : Nat :=
  base.kvSplitFullDomainSize /
    (if base.enableMla then base.cpSize else max base.cpSize base.kvSplitSize)

def layoutOf (base : KVCacheStoreInitConfig) (blockType : BlockType)
    (entry : HostCacheStoreEntry) : StoreTpLayout :=
  resolveTpLayout blockType (entry.enableMla.getD base.enableMla)

/-- An entry is split over the KV-split ranks. -/
def isSplit (blockType : BlockType) (entry : HostCacheStoreEntry) : Bool :=
  entry.isTarget && blockType != .linear

/-- What a rank holds of an entry. -/
structure StoredContent where
  blockType : BlockType
  entry : HostCacheStoreEntry
  kvShard : Nat
  tpShard : Option Nat
  deriving DecidableEq, Repr

def contentOf (base : KVCacheStoreInitConfig) (rank : Nat) (blockType : BlockType)
    (entry : HostCacheStoreEntry) : StoredContent where
  blockType := blockType
  entry := entry
  kvShard :=
    if isSplit blockType entry then rank / (base.kvSplitFullDomainSize / base.kvSplitSize) else 0
  tpShard := if layoutOf base blockType entry = .tpReplicated then none else some (rank % base.tpSize)

/-- What the checks of the ranks say about the sizes. -/
structure Admitted (base : KVCacheStoreInitConfig) : Prop where
  cpSize : 0 < base.cpSize
  fullDomain : base.cpSize ≤ base.kvSplitFullDomainSize
  divides : base.cpSize ∣ base.kvSplitFullDomainSize
  tpDomain : base.tpSize = base.kvSplitFullDomainSize / base.cpSize ∨
    base.tpSize = base.kvSplitFullDomainSize
  splitSize : 0 < base.kvSplitSize
  split : base.kvSplitSize ∣ base.cpSize ∨ base.kvSplitSize = base.kvSplitFullDomainSize

variable {rank : Nat}

theorem admitted_of_checkConfig {base : KVCacheStoreInitConfig}
    (h : checkConfig (rankConfig base rank) = .ok ()) : Admitted base := by
  unfold checkConfig at h
  simp only [check_bind_eq_ok, check_eq_ok] at h
  obtain ⟨_, _, _, hcp, _, hfull, hdivides, htp, hsplit, _, hlast⟩ := h
  exact {
    cpSize := hcp
    fullDomain := hfull
    divides := Nat.dvd_of_mod_eq_zero hdivides
    tpDomain := htp
    splitSize := hsplit
    split := hlast.imp_left Nat.dvd_of_mod_eq_zero }

namespace Admitted

variable {base : KVCacheStoreInitConfig} (h : Admitted base)

include h

theorem perCp_pos : 0 < base.kvSplitFullDomainSize / base.cpSize :=
  Nat.div_pos h.fullDomain h.cpSize

theorem perCp_dvd_tpSize : base.kvSplitFullDomainSize / base.cpSize ∣ base.tpSize := by
  cases h.tpDomain with
  | inl heq =>
    rewrite [heq]
    exact Nat.dvd_refl _
  | inr heq =>
    rw [heq]
    exact Nat.div_dvd_of_dvd h.divides

theorem splitSize_le : base.kvSplitSize ≤ base.kvSplitFullDomainSize := by
  cases h.split with
  | inl hdvd => exact Nat.le_trans (Nat.le_of_dvd h.cpSize hdvd) h.fullDomain
  | inr heq => exact Nat.le_of_eq heq

theorem perSplit_pos : 0 < base.kvSplitFullDomainSize / base.kvSplitSize :=
  Nat.div_pos h.splitSize_le h.splitSize

theorem perCp_dvd_perSplit (hdvd : base.kvSplitSize ∣ base.cpSize) :
    base.kvSplitFullDomainSize / base.cpSize ∣ base.kvSplitFullDomainSize / base.kvSplitSize := by
  obtain ⟨factor, hfactor⟩ := hdvd
  obtain ⟨perCp, hdomain⟩ := h.divides
  have hcp : base.kvSplitFullDomainSize / base.cpSize = perCp := by
    rw [hdomain]
    exact Nat.mul_div_cancel_left perCp h.cpSize
  have hsplit : base.kvSplitFullDomainSize / base.kvSplitSize = factor * perCp := by
    rw [hdomain, hfactor, Nat.mul_assoc]
    exact Nat.mul_div_cancel_left _ h.splitSize
  rw [hcp, hsplit]
  exact Nat.dvd_mul_left perCp factor

theorem perSplit_eq_one (heq : base.kvSplitSize = base.kvSplitFullDomainSize) :
    base.kvSplitFullDomainSize / base.kvSplitSize = 1 := by
  rw [heq]
  exact Nat.div_self (heq ▸ h.splitSize)

theorem tpGroupSize_eq (hdvd : base.kvSplitSize ∣ base.cpSize) :
    tpGroupSize base = base.kvSplitFullDomainSize / base.cpSize := by
  unfold tpGroupSize
  rw [Nat.max_eq_left (Nat.le_of_dvd h.cpSize hdvd), ite_self]

theorem tpGroupSize_le : tpGroupSize base ≤ base.kvSplitFullDomainSize / base.cpSize := by
  apply Nat.div_le_div_left _ h.cpSize
  split
  · exact Nat.le_refl _
  · exact Nat.le_max_left _ _

theorem tpGroupSize_pos : 0 < tpGroupSize base := by
  unfold tpGroupSize
  split
  · exact h.perCp_pos
  · exact Nat.div_pos (Nat.max_le.mpr ⟨h.fullDomain, h.splitSize_le⟩)
      (Nat.lt_of_lt_of_le h.cpSize (Nat.le_max_left _ _))

theorem perCp_le_tpSize : base.kvSplitFullDomainSize / base.cpSize ≤ base.tpSize := by
  cases h.tpDomain with
  | inl heq => rw [heq]
  | inr heq =>
    rw [heq]
    exact Nat.div_le_self _ _

/-- The owner test recovers the rank in the domain. -/
theorem isPutOwner_iff (rank : Nat) (layout : StoreTpLayout) (split : Bool) :
    isPutOwner (rankConfig base rank) layout split = true ↔
      if split then
        rank % (base.kvSplitFullDomainSize / base.kvSplitSize) <
          (if layout = .tpReplicated then 1 else tpGroupSize base)
      else rank < tpGroupSize base := by
  have hrank : rank / (base.kvSplitFullDomainSize / base.cpSize) *
      (base.kvSplitFullDomainSize / base.cpSize) +
      rank % base.tpSize % (base.kvSplitFullDomainSize / base.cpSize) = rank := by
    rw [Nat.mod_mod_of_dvd _ h.perCp_dvd_tpSize]
    exact Nat.div_add_mod' rank _
  unfold isPutOwner rankConfig
  dsimp only
  rw [hrank]
  cases split with
  | true =>
    simp only [Bool.not_true, Bool.false_eq_true, ↓reduceIte, decide_eq_true_eq]
    rfl
  | false =>
    simp only [Bool.not_false, Bool.false_eq_true, ↓reduceIte, decide_eq_true_eq]
    rfl

end Admitted

variable {hashString : List Char → List Char} {base : KVCacheStoreInitConfig}
  {storeIndex : HostCacheStoreIndex}

/-- A store entry of a rank, and the host cache that it is for. -/
structure Indexed (hashString : List Char → List Char) (base : KVCacheStoreInitConfig)
    (storeIndex : HostCacheStoreIndex) (rank : Nat) (blockType : BlockType)
    (entry : HostCacheStoreEntry) (stored : StoreEntry) : Prop where
  rank_lt : rank < base.kvSplitFullDomainSize
  mem : ∃ entries, (blockType, entries) ∈ storeIndex.groups ∧ entry ∈ entries
  built : storeEntry hashString (rankConfig base rank) blockType entry = .ok stored

/-! ## The key -/

/-- A number does not begin with the mark of a replicated cache. -/
theorem number_ne_mla (n : Nat) (rest tail : List Char) :
    number n ++ rest ≠ "mla:".toList ++ tail := by
  intro heq
  obtain ⟨c, digits, hdigits⟩ := List.exists_cons_of_ne_nil (@Nat.toDigits_ne_nil n 10)
  have hdecimal : decimal n = c :: digits := hdigits
  have hc : c.isDigit := isDigit_of_mem_decimal (hdecimal ▸ List.mem_cons_self)
  rw [number, hdecimal] at heq
  have hm : c = 'm' := (List.cons.inj heq).1
  rw [hm] at hc
  exact absurd hc (by decide)

variable {config : KVCacheStoreInitConfig} {blockType : BlockType}

theorem keyPrefix_inj {config' : KVCacheStoreInitConfig} {component component' : List Char}
    {blockType' : BlockType} {hash hash' : List Char} {layout layout' : StoreTpLayout}
    {split split' : Bool} (h : buildKeyPrefix config component blockType hash layout split =
      buildKeyPrefix config' component' blockType' hash' layout' split') :
    component = component' ∧ blockType = blockType' ∧ layout = layout' ∧
      (layout = .tpSharded → config.tpRank = config'.tpRank) ∧
      (if split then config.kvSplitRank else 0) = (if split' then config'.kvSplitRank else 0) := by
  obtain ⟨_, h⟩ := field_inj (List.append_cancel_left h)
  obtain ⟨hcomponent, h⟩ := field_inj h
  -- The rest behind the layout is a number for each of the split size, the split rank and the type.
  have hrest : ∀ {s s' r r' t t' : Nat} {rest rest' : List Char},
      number s ++ (number r ++ (number t ++ rest)) = number s' ++ (number r' ++ (number t' ++ rest')) →
      r = r' ∧ t = t' := by
    intro s s' r r' t t' rest rest' hrest
    obtain ⟨_, hrest⟩ := number_inj hrest
    obtain ⟨hrank, hrest⟩ := number_inj hrest
    exact ⟨hrank, (number_inj hrest).1⟩
  have htype : ∀ {t t' : BlockType}, t.number = t'.number → t = t' := by
    intro t t' heq
    revert heq
    cases t <;> cases t' <;> decide
  have hsharded : StoreTpLayout.tpSharded ≠ .tpReplicated := by decide
  cases layout with
  | tpReplicated =>
    cases layout' with
    | tpReplicated =>
      obtain ⟨hrank, hnumber⟩ := hrest (List.append_cancel_left h)
      exact ⟨hcomponent, htype hnumber, rfl, nofun, hrank⟩
    | tpSharded =>
      rw [if_pos rfl, if_neg hsharded, List.append_assoc (number config'.tpSize)] at h
      exact absurd h.symm (number_ne_mla _ _ _)
  | tpSharded =>
    cases layout' with
    | tpReplicated =>
      rw [if_pos rfl, if_neg hsharded, List.append_assoc (number config.tpSize)] at h
      exact absurd h (number_ne_mla _ _ _)
    | tpSharded =>
      rw [if_neg hsharded, if_neg hsharded, List.append_assoc (number config.tpSize),
        List.append_assoc (number config'.tpSize)] at h
      obtain ⟨_, h⟩ := number_inj h
      obtain ⟨htp, h⟩ := number_inj h
      obtain ⟨hrank, hnumber⟩ := hrest h
      exact ⟨hcomponent, htype hnumber, rfl, fun _ => htp, hrank⟩

/-! ## The entries -/

variable {entry : HostCacheStoreEntry} {stored : StoreEntry}

theorem storeEntry_spec (h : storeEntry hashString config blockType entry = .ok stored) :
    ∃ tensors hash, entry.cache = some tensors ∧
      buildSchemaHash hashString config blockType tensors
        (resolveTpLayout blockType (entry.enableMla.getD config.enableMla)) = .ok hash ∧
      stored.keyPrefix = buildKeyPrefix config entry.keyComponent blockType hash
        (resolveTpLayout blockType (entry.enableMla.getD config.enableMla))
        (isSplit blockType entry) ∧
      stored.isPutOwner = isPutOwner config
        (resolveTpLayout blockType (entry.enableMla.getD config.enableMla))
        (isSplit blockType entry) := by
  unfold storeEntry at h
  cases hcache : entry.cache with
  | none =>
    rw [hcache] at h
    cases h
  | some tensors =>
    rw [hcache] at h
    rw [check_bind_eq_ok, bind_eq_ok] at h
    obtain ⟨_, hash, hhash, h⟩ := h
    cases h
    exact ⟨tensors, hash, rfl, hhash, rfl, rfl⟩

theorem Indexed.spec (h : Indexed hashString base storeIndex rank blockType entry stored) :
    ∃ tensors hash, entry.cache = some tensors ∧
      buildSchemaHash hashString base blockType tensors (layoutOf base blockType entry) = .ok hash ∧
      stored.keyPrefix = buildKeyPrefix (rankConfig base rank) entry.keyComponent blockType hash
        (layoutOf base blockType entry) (isSplit blockType entry) ∧
      stored.isPutOwner = isPutOwner (rankConfig base rank) (layoutOf base blockType entry)
        (isSplit blockType entry) :=
  storeEntry_spec h.built

variable {entries : List StoreEntry}

theorem entry_unique (hinit : initializeStoreIndex hashString config storeIndex = .ok entries)
    {group group' : List HostCacheStoreEntry} (hgroup : (blockType, group) ∈ storeIndex.groups)
    (hgroup' : (blockType, group') ∈ storeIndex.groups) {entry' : HostCacheStoreEntry}
    (hentry : entry ∈ group) (hentry' : entry' ∈ group')
    (hcomponent : entry.keyComponent = entry'.keyComponent) : entry = entry' := by
  unfold initializeStoreIndex at hinit
  rw [check_bind_eq_ok, bind_eq_ok] at hinit
  obtain ⟨_, groups, hgroups, _⟩ := hinit
  obtain ⟨stored, _, hstored⟩ := exists_mem_of_mapM hgroups hgroup
  unfold storeEntries at hstored
  rw [check_bind_eq_ok, check_bind_eq_ok, check_bind_eq_ok] at hstored
  have hsame : group = group' :=
    congrArg Prod.snd (List.inj_on_of_nodup_map storeIndex.distinct hgroup hgroup' rfl)
  rw [← hsame] at hentry'
  exact List.inj_on_of_nodup_map hstored.2.2.1 hentry hentry' hcomponent

/-! ## The writers -/

/-- The content of a rank has a writer: it is replicated, or its TP rank is one of the first complete
TP group. -/
def IsPublished (base : KVCacheStoreInitConfig) (rank : Nat) (blockType : BlockType)
    (entry : HostCacheStoreEntry) : Prop :=
  layoutOf base blockType entry = .tpReplicated ∨
    if isSplit blockType entry then
      base.tpSize = base.kvSplitFullDomainSize / base.cpSize ∨
        rank % (base.kvSplitFullDomainSize / base.kvSplitSize) < tpGroupSize base
    else rank % base.tpSize < tpGroupSize base

/-- The replicated cache of a draft model. -/
def IsReplicatedDraft (base : KVCacheStoreInitConfig) (blockType : BlockType)
    (entry : HostCacheStoreEntry) : Prop :=
  layoutOf base blockType entry = .tpReplicated ∧ isSplit blockType entry = false

variable {rank' : Nat}

theorem Admitted.writer_unique (h : Admitted base)
    (hrank : rank < base.kvSplitFullDomainSize) (hrank' : rank' < base.kvSplitFullDomainSize)
    (hdraft : ¬ IsReplicatedDraft base blockType entry)
    (hcontent : contentOf base rank blockType entry = contentOf base rank' blockType entry)
    (howner : isPutOwner (rankConfig base rank) (layoutOf base blockType entry)
      (isSplit blockType entry) = true)
    (howner' : isPutOwner (rankConfig base rank') (layoutOf base blockType entry)
      (isSplit blockType entry) = true) : rank = rank' := by
  rw [h.isPutOwner_iff] at howner howner'
  unfold contentOf at hcontent
  rw [StoredContent.mk.injEq] at hcontent
  obtain ⟨-, -, hshard, htp⟩ := hcontent
  have hle := h.tpGroupSize_le
  have htpSize := h.perCp_le_tpSize
  cases hsplit : isSplit blockType entry with
  | true =>
    rw [hsplit, if_pos rfl] at howner howner'
    rw [hsplit, if_pos rfl, if_pos rfl] at hshard
    -- The splits are the same, so that the places in them are to be compared.
    have hplace : rank % (base.kvSplitFullDomainSize / base.kvSplitSize) =
        rank' % (base.kvSplitFullDomainSize / base.kvSplitSize) → rank = rank' := by
      intro hplace
      rw [← Nat.div_add_mod rank (base.kvSplitFullDomainSize / base.kvSplitSize), hshard, hplace]
      exact Nat.div_add_mod rank' _
    by_cases hlayout : layoutOf base blockType entry = .tpReplicated
    · rw [if_pos hlayout] at howner howner'
      exact hplace (by omega)
    · rw [if_neg hlayout] at howner howner'
      rw [if_neg hlayout, if_neg hlayout, Option.some.injEq] at htp
      cases h.tpDomain with
      | inr htpDomain =>
        rw [htpDomain, Nat.mod_eq_of_lt hrank, Nat.mod_eq_of_lt hrank'] at htp
        exact htp
      | inl htpDomain =>
        rw [htpDomain] at htp
        cases h.split with
        | inl hdvd =>
          have hperCp := h.perCp_dvd_perSplit hdvd
          rw [← Nat.mod_mod_of_dvd rank hperCp, ← Nat.mod_mod_of_dvd rank' hperCp,
            Nat.mod_eq_of_lt (Nat.lt_of_lt_of_le howner hle),
            Nat.mod_eq_of_lt (Nat.lt_of_lt_of_le howner' hle)] at htp
          exact hplace htp
        | inr heq =>
          apply hplace
          rw [h.perSplit_eq_one heq, Nat.mod_one, Nat.mod_one]
  | false =>
    rw [hsplit, if_neg (by decide)] at howner howner'
    have hlayout : layoutOf base blockType entry ≠ .tpReplicated := fun heq => hdraft ⟨heq, hsplit⟩
    rw [if_neg hlayout, if_neg hlayout, Option.some.injEq] at htp
    rw [Nat.mod_eq_of_lt (Nat.lt_of_lt_of_le howner (Nat.le_trans hle htpSize)),
      Nat.mod_eq_of_lt (Nat.lt_of_lt_of_le howner' (Nat.le_trans hle htpSize))] at htp
    exact htp

/-- What makes the contents of two ranks equal. -/
theorem contentOf_eq
    (hshard : isSplit blockType entry = true →
      rank / (base.kvSplitFullDomainSize / base.kvSplitSize) =
        rank' / (base.kvSplitFullDomainSize / base.kvSplitSize))
    (htp : layoutOf base blockType entry ≠ .tpReplicated →
      rank % base.tpSize = rank' % base.tpSize) :
    contentOf base rank blockType entry = contentOf base rank' blockType entry := by
  unfold contentOf
  congr 1
  · split
    · rename_i h
      exact hshard h
    · rfl
  · split
    · rfl
    · rename_i h
      rw [htp h]

theorem Admitted.firstCard_spec (h : Admitted base) (hdvd : base.kvSplitSize ∣ base.cpSize)
    (rank : Nat) :
    ∃ card ≤ rank,
      card / (base.kvSplitFullDomainSize / base.kvSplitSize) =
        rank / (base.kvSplitFullDomainSize / base.kvSplitSize) ∧
      card % (base.kvSplitFullDomainSize / base.cpSize) =
        rank % (base.kvSplitFullDomainSize / base.cpSize) ∧
      card % (base.kvSplitFullDomainSize / base.kvSplitSize) < tpGroupSize base := by
  have hperCp := h.perCp_dvd_perSplit hdvd
  rw [h.tpGroupSize_eq hdvd]
  have hpos := h.perCp_pos
  have hsplit := h.perSplit_pos
  generalize base.kvSplitFullDomainSize / base.cpSize = perCp at *
  generalize base.kvSplitFullDomainSize / base.kvSplitSize = perSplit at *
  have hlt : rank % perCp < perSplit :=
    Nat.lt_of_lt_of_le (Nat.mod_lt _ hpos) (Nat.le_of_dvd hsplit hperCp)
  have hle : rank % perCp ≤ rank % perSplit := by
    rw [← Nat.mod_mod_of_dvd rank hperCp]
    exact Nat.mod_le _ _
  refine ⟨perSplit * (rank / perSplit) + rank % perCp, ?_, ?_, ?_, ?_⟩
  · have := Nat.div_add_mod rank perSplit
    omega
  · rw [Nat.mul_add_div hsplit, Nat.div_eq_of_lt hlt, Nat.add_zero]
  · obtain ⟨factor, rfl⟩ := hperCp
    rw [Nat.mul_assoc, Nat.mul_add_mod, Nat.mod_mod]
  · rw [Nat.mul_add_mod, Nat.mod_eq_of_lt hlt]
    exact Nat.mod_lt _ hpos

theorem Admitted.exists_writer_iff (h : Admitted base)
    (hrank : rank < base.kvSplitFullDomainSize) (blockType : BlockType)
    (entry : HostCacheStoreEntry) :
    (∃ writer < base.kvSplitFullDomainSize,
      contentOf base writer blockType entry = contentOf base rank blockType entry ∧
      isPutOwner (rankConfig base writer) (layoutOf base blockType entry)
        (isSplit blockType entry) = true) ↔ IsPublished base rank blockType entry := by
  simp only [h.isPutOwner_iff]
  unfold IsPublished
  have hgroup : tpGroupSize base ≤ base.tpSize := Nat.le_trans h.tpGroupSize_le h.perCp_le_tpSize
  constructor
  · intro ⟨writer, hwriter, hcontent, howner⟩
    by_cases hlayout : layoutOf base blockType entry = .tpReplicated
    · exact .inl hlayout
    right
    unfold contentOf at hcontent
    rw [StoredContent.mk.injEq, if_neg hlayout, if_neg hlayout, Option.some.injEq] at hcontent
    obtain ⟨-, -, -, htp⟩ := hcontent
    rw [if_neg hlayout] at howner
    split
    · rename_i hsplit
      rw [if_pos hsplit] at howner
      cases h.tpDomain with
      | inl htpDomain => exact .inl htpDomain
      | inr htpDomain =>
        rw [htpDomain, Nat.mod_eq_of_lt hwriter, Nat.mod_eq_of_lt hrank] at htp
        exact .inr (htp ▸ howner)
    · rename_i hsplit
      rw [if_neg hsplit] at howner
      rw [← htp, Nat.mod_eq_of_lt (Nat.lt_of_lt_of_le howner hgroup)]
      exact howner
  · intro hpublished
    have hgroupPos := h.tpGroupSize_pos
    have hgroupDomain : tpGroupSize base ≤ base.kvSplitFullDomainSize :=
      Nat.le_trans h.tpGroupSize_le (Nat.div_le_self _ _)
    by_cases hsplit : isSplit blockType entry = true
    · simp only [if_pos hsplit] at hpublished ⊢
      by_cases hlayout : layoutOf base blockType entry = .tpReplicated
      · -- The first card of the split.
        have hpos := h.perSplit_pos
        refine ⟨base.kvSplitFullDomainSize / base.kvSplitSize *
          (rank / (base.kvSplitFullDomainSize / base.kvSplitSize)),
          Nat.lt_of_le_of_lt (Nat.mul_div_le _ _) hrank, contentOf_eq (fun _ => ?_)
          (fun hnot => absurd hlayout hnot), ?_⟩
        · exact Nat.mul_div_cancel_left _ hpos
        · rw [if_pos hlayout, Nat.mul_mod_right]
          exact Nat.one_pos
      · simp only [if_neg hlayout]
        have hwhere := hpublished.resolve_left hlayout
        by_cases hfirst : rank % (base.kvSplitFullDomainSize / base.kvSplitSize) < tpGroupSize base
        · exact ⟨rank, hrank, rfl, hfirst⟩
        · have htpDomain := hwhere.resolve_right hfirst
          cases h.split with
          | inl hdvd =>
            obtain ⟨card, hle, hshard, htp, hplace⟩ := h.firstCard_spec hdvd rank
            exact ⟨card, Nat.lt_of_le_of_lt hle hrank,
              contentOf_eq (fun _ => hshard) (fun _ => htpDomain ▸ htp), hplace⟩
          | inr heq =>
            rw [h.perSplit_eq_one heq, Nat.mod_one] at hfirst
            exact absurd hgroupPos hfirst
    · simp only [if_neg hsplit] at hpublished ⊢
      by_cases hlayout : layoutOf base blockType entry = .tpReplicated
      · exact ⟨0, Nat.lt_of_lt_of_le hgroupPos hgroupDomain,
          contentOf_eq (fun h => absurd h hsplit) (fun h => absurd hlayout h), hgroupPos⟩
      · have hwhere := hpublished.resolve_left hlayout
        refine ⟨rank % base.tpSize, Nat.lt_of_lt_of_le hwhere hgroupDomain,
          contentOf_eq (fun h => absurd h hsplit) (fun _ => Nat.mod_mod _ _), hwhere⟩

/-! ## The keys of the domain -/

theorem exists_stored (hrank : rank < base.kvSplitFullDomainSize)
    (hinit : initializeStoreIndex hashString (rankConfig base rank) storeIndex = .ok entries)
    {hosts : List HostCacheStoreEntry} (hhosts : (blockType, hosts) ∈ storeIndex.groups)
    (hentry : entry ∈ hosts) :
    ∃ stored ∈ entries, Indexed hashString base storeIndex rank blockType entry stored := by
  unfold initializeStoreIndex at hinit
  rw [check_bind_eq_ok, bind_eq_ok] at hinit
  obtain ⟨_, groups, hgroups, heq⟩ := hinit
  cases heq
  obtain ⟨group, hgroup, hbuilt⟩ := exists_mem_of_mapM hgroups hhosts
  unfold storeEntries at hbuilt
  rw [check_bind_eq_ok, check_bind_eq_ok, check_bind_eq_ok] at hbuilt
  obtain ⟨stored, hstored, hbuilt⟩ := exists_mem_of_mapM hbuilt.2.2.2 hentry
  exact ⟨stored, List.mem_flatten.mpr ⟨group, hgroup, hstored⟩, hrank, ⟨hosts, hhosts, hentry⟩,
    hbuilt⟩

theorem Indexed.keyPrefix_eq_iff
    (hinit : initializeStoreIndex hashString config storeIndex = .ok entries)
    {blockType' : BlockType} {entry' : HostCacheStoreEntry} {stored' : StoreEntry}
    (h : Indexed hashString base storeIndex rank blockType entry stored)
    (h' : Indexed hashString base storeIndex rank' blockType' entry' stored') :
    stored.keyPrefix = stored'.keyPrefix ↔
      contentOf base rank blockType entry = contentOf base rank' blockType' entry' := by
  obtain ⟨tensors, hash, hcache, hhash, hkey, _⟩ := h.spec
  obtain ⟨tensors', hash', hcache', hhash', hkey', _⟩ := h'.spec
  constructor
  · intro heq
    rw [hkey, hkey'] at heq
    obtain ⟨hcomponent, htype, _, htp, hsplit⟩ := keyPrefix_inj heq
    obtain ⟨hosts, hhosts, hentry⟩ := h.mem
    obtain ⟨hosts', hhosts', hentry'⟩ := h'.mem
    subst htype
    obtain rfl := entry_unique hinit hhosts hhosts' hentry hentry' hcomponent
    refine contentOf_eq (fun hsplit' => ?_) fun hlayout => ?_
    · rw [if_pos hsplit', if_pos hsplit'] at hsplit
      exact hsplit
    · cases hlayout' : layoutOf base blockType entry with
      | tpReplicated => exact absurd hlayout' hlayout
      | tpSharded => exact htp hlayout'
  · intro hcontent
    unfold contentOf at hcontent
    rw [StoredContent.mk.injEq] at hcontent
    obtain ⟨rfl, rfl, hshard, htp⟩ := hcontent
    rw [hcache, Option.some.injEq] at hcache'
    subst hcache'
    rw [hhash, Except.ok.injEq] at hhash'
    subst hhash'
    rw [hkey, hkey']
    unfold buildKeyPrefix
    cases hlayout : layoutOf base blockType entry with
    | tpReplicated =>
      unfold rankConfig
      rw [hshard, if_pos rfl, if_pos rfl]
    | tpSharded =>
      have hsharded : StoreTpLayout.tpSharded ≠ .tpReplicated := by decide
      rw [hlayout, if_neg hsharded, if_neg hsharded, Option.some.injEq] at htp
      unfold rankConfig
      rw [hshard, htp]

/-- Ranks with one key hold one content, at most one of them writes it, and one does exactly when the
content is published. -/
theorem writers_of_key
    (hinit : ∀ rank < base.kvSplitFullDomainSize,
      ∃ entries, init hashString (rankConfig base rank) storeIndex = .ok entries)
    {rank : Nat} {blockType : BlockType} {entry : HostCacheStoreEntry} {stored : StoreEntry}
    (h : Indexed hashString base storeIndex rank blockType entry stored) :
    (∀ rank' blockType' entry' stored',
      Indexed hashString base storeIndex rank' blockType' entry' stored' →
      stored'.keyPrefix = stored.keyPrefix →
      contentOf base rank' blockType' entry' = contentOf base rank blockType entry) ∧
    (¬ IsReplicatedDraft base blockType entry →
      ∀ rank₁ blockType₁ entry₁ stored₁ rank₂ blockType₂ entry₂ stored₂,
      Indexed hashString base storeIndex rank₁ blockType₁ entry₁ stored₁ →
      Indexed hashString base storeIndex rank₂ blockType₂ entry₂ stored₂ →
      stored₁.keyPrefix = stored.keyPrefix → stored₂.keyPrefix = stored.keyPrefix →
      stored₁.isPutOwner = true → stored₂.isPutOwner = true → rank₁ = rank₂) ∧
    ((∃ rank' blockType' entry' stored',
      Indexed hashString base storeIndex rank' blockType' entry' stored' ∧
      stored'.keyPrefix = stored.keyPrefix ∧ stored'.isPutOwner = true) ↔
      IsPublished base rank blockType entry) := by
  have hindex : ∀ rank < base.kvSplitFullDomainSize, checkConfig (rankConfig base rank) = .ok () ∧
      ∃ entries, initializeStoreIndex hashString (rankConfig base rank) storeIndex = .ok entries := by
    intro rank hrank
    obtain ⟨entries, hentries⟩ := hinit rank hrank
    obtain ⟨_, hcheck, hentries⟩ := bind_eq_ok.mp hentries
    exact ⟨hcheck, entries, hentries⟩
  obtain ⟨hcheck, entries, hentries⟩ := hindex rank h.rank_lt
  have hadmitted := admitted_of_checkConfig hcheck
  have hcontent : ∀ rank' blockType' entry' stored',
      Indexed hashString base storeIndex rank' blockType' entry' stored' →
      stored'.keyPrefix = stored.keyPrefix →
      contentOf base rank' blockType' entry' = contentOf base rank blockType entry :=
    fun _ _ _ _ h' hkey => (h'.keyPrefix_eq_iff hentries h).mp hkey
  refine ⟨hcontent, ?_, ?_⟩
  · intro hdraft rank₁ blockType₁ entry₁ stored₁ rank₂ blockType₂ entry₂ stored₂ h₁ h₂ hkey₁ hkey₂
      howner₁ howner₂
    have hcontent₁ := hcontent _ _ _ _ h₁ hkey₁
    have hcontent₂ := hcontent _ _ _ _ h₂ hkey₂
    obtain ⟨rfl, rfl⟩ : blockType₁ = blockType ∧ entry₁ = entry :=
      ⟨congrArg StoredContent.blockType hcontent₁, congrArg StoredContent.entry hcontent₁⟩
    obtain ⟨rfl, rfl⟩ : blockType₂ = blockType₁ ∧ entry₂ = entry₁ :=
      ⟨congrArg StoredContent.blockType hcontent₂, congrArg StoredContent.entry hcontent₂⟩
    obtain ⟨_, _, _, _, _, hwriter₁⟩ := h₁.spec
    obtain ⟨_, _, _, _, _, hwriter₂⟩ := h₂.spec
    rw [hwriter₁] at howner₁
    rw [hwriter₂] at howner₂
    exact hadmitted.writer_unique h₁.rank_lt h₂.rank_lt hdraft (hcontent₁.trans hcontent₂.symm)
      howner₁ howner₂
  · rw [← hadmitted.exists_writer_iff h.rank_lt]
    constructor
    · intro ⟨rank', blockType', entry', stored', h', hkey, howner⟩
      have hcontent' := hcontent _ _ _ _ h' hkey
      obtain ⟨rfl, rfl⟩ : blockType' = blockType ∧ entry' = entry :=
        ⟨congrArg StoredContent.blockType hcontent', congrArg StoredContent.entry hcontent'⟩
      obtain ⟨_, _, _, _, _, hwriter⟩ := h'.spec
      exact ⟨rank', h'.rank_lt, hcontent', hwriter ▸ howner⟩
    · intro ⟨writer, hwriter, hcontent', howner⟩
      obtain ⟨_, entries', hentries'⟩ := hindex writer hwriter
      obtain ⟨hosts, hhosts, hentry⟩ := h.mem
      obtain ⟨stored', _, h'⟩ := exists_stored hwriter hentries' hhosts hentry
      obtain ⟨_, _, _, _, _, hwriter'⟩ := h'.spec
      exact ⟨writer, blockType, entry, stored', h', (h'.keyPrefix_eq_iff hentries h).mpr hcontent',
        hwriter' ▸ howner⟩

/-- A target cache and the MLA cache of a draft model. -/
def stubIndex : HostCacheStoreIndex where
  groups := [(.kv, [⟨0, ['m'], some [⟨0, 0, [2, 8], true⟩], some false, true⟩,
      ⟨1, ['d'], some [⟨0, 0, [2, 4], true⟩], some true, false⟩])]
  distinct := List.nodup_singleton _

def spanningDomain : KVCacheStoreInitConfig :=
  { modelId := ['q'], tpSize := 2, cpSize := 2, kvSplitFullDomainSize := 2 }

def tpDomain : KVCacheStoreInitConfig :=
  { modelId := ['q'], tpSize := 2, kvSplitFullDomainSize := 2, enableMla := true }

def storesOf (base : KVCacheStoreInitConfig) (rank : Nat) : List StoreEntry :=
  (init id (rankConfig base rank) stubIndex).toOption.getD []

theorem writers_of_key_tp : ∃ stored,
    Indexed id tpDomain stubIndex 1 .kv ⟨0, ['m'], some [⟨0, 0, [2, 8], true⟩], some false, true⟩
      stored ∧
    ∃ rank' blockType' entry' stored',
      Indexed id tpDomain stubIndex rank' blockType' entry' stored' ∧
      stored'.keyPrefix = stored.keyPrefix ∧ stored'.isPutOwner = true := by
  have hinit : ∀ rank < tpDomain.kvSplitFullDomainSize,
      ∃ entries, init id (rankConfig tpDomain rank) stubIndex = .ok entries := by
    intro rank hrank
    match rank, hrank with
    | 0, _ => exact ⟨_, rfl⟩
    | 1, _ => exact ⟨_, rfl⟩
  have hindexed : Indexed id tpDomain stubIndex 1 .kv
      ⟨0, ['m'], some [⟨0, 0, [2, 8], true⟩], some false, true⟩ _ :=
    { rank_lt := by decide
      mem := ⟨_, List.mem_cons_self, List.mem_cons_self⟩
      built := rfl }
  exact ⟨_, hindexed, (writers_of_key hinit hindexed).2.2.mpr (.inr (by decide))⟩

/-- A key that nobody writes, and a key that two ranks write. -/
theorem keys_without_one_writer :
    ((init id (rankConfig spanningDomain 0) stubIndex).isOk = true ∧
      (init id (rankConfig spanningDomain 1) stubIndex).isOk = true ∧
      ∃ stored ∈ storesOf spanningDomain 1,
        ∀ other ∈ storesOf spanningDomain 0 ++ storesOf spanningDomain 1,
          other.keyPrefix = stored.keyPrefix → other.isPutOwner = false) ∧
    (init id (rankConfig tpDomain 0) stubIndex).isOk = true ∧
      (init id (rankConfig tpDomain 1) stubIndex).isOk = true ∧
      ∃ stored ∈ storesOf tpDomain 0, ∃ other ∈ storesOf tpDomain 1,
        other.keyPrefix = stored.keyPrefix ∧ stored.isPutOwner = true ∧ other.isPutOwner = true := by
  decide +kernel

end Xllm.Framework.KVCacheStore
