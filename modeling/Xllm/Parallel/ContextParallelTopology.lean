import Mathlib.Tactic.Ring
import Xllm.Lib.MixedRadix
import Xllm.Lib.Outcome

/-!
# The context-parallel topology of a rank

`ContextParallelTopology` of `core/framework/parallel_state/context_parallel_topology.cpp` and the
ranks that `ParallelArgs` of `parallel_args.h` derives on its own. Every rank builds its object
alone, from its global rank and the sizes. A rank is `tp_rank + tp_size * (pcp_rank + pcp_size *
dp_rank)`, and in the regime where DCP splits a PCP group, `pcp_rank` is `dcp_replica_rank +
pcp_per_dcp * dcp_rank`; so each kind of group is a choice of the digits of a rank that vary in
it, and the lists of the source are the groups of `Lib.MixedRadix`.

After the checks all values are between zero and the world size and are natural numbers here. A
product `dp_size * pcp_size` beyond `int32_t` is undefined in the source; no world size is
divisible by it.
-/

namespace Xllm.Parallel

open Xllm.Lib

/-- The checks of the constructor, in its order. -/
inductive TopologyCheck
  | worldSize
  | dpSize
  | pcpSize
  | negativeRank
  | rankOutsideWorld
  | indivisible
  | dcpSize
  deriving Repr, DecidableEq

structure ContextParallelTopology where
  dpRank : Nat
  tpSize : Nat
  tpRank : Nat
  pcpSize : Nat
  pcpRank : Nat
  dcpSize : Nat
  dcpRank : Nat
  dcpGroupIndex : Nat
  dcpGroupCount : Nat
  pcpGroupRanks : List Nat
  dcpGroupRanks : List Nat
  deriving Repr, DecidableEq

/-- `partitions_pcp`. -/
def PartitionsPcp (pcpSize dcpSize : Nat) : Prop :=
  0 < dcpSize ∧ dcpSize ≤ pcpSize ∧ pcpSize % dcpSize = 0

instance (pcpSize dcpSize : Nat) : Decidable (PartitionsPcp pcpSize dcpSize) :=
  inferInstanceAs (Decidable (_ ∧ _ ∧ _))

/-- `supported_dcp_size`. -/
def SupportedDcpSize (tpSize pcpSize dcpSize : Nat) : Prop :=
  PartitionsPcp pcpSize dcpSize ∨ dcpSize = pcpSize * tpSize

instance (tpSize pcpSize dcpSize : Nat) : Decidable (SupportedDcpSize tpSize pcpSize dcpSize) :=
  inferInstanceAs (Decidable (_ ∨ _))

namespace ContextParallelTopology

/-- What the constructor fills in once its sizes are checked. -/
def layout (globalRank dpSize tpSize pcpSize dcpSize : Nat) : ContextParallelTopology :=
  let dpStride := pcpSize * tpSize
  let dpRank := globalRank / dpStride
  let dpLocalRank := globalRank % dpStride
  let pcpRank := dpLocalRank / tpSize
  let tpRank := dpLocalRank % tpSize
  let dpGroupStart := dpRank * dpStride
  let pcpGroupRanks := (List.range pcpSize).map fun rank => dpGroupStart + rank * tpSize + tpRank
  if PartitionsPcp pcpSize dcpSize then
    let pcpPerDcp := pcpSize / dcpSize
    let dcpReplicaRank := pcpRank % pcpPerDcp
    { dpRank, tpSize, tpRank, pcpSize, pcpRank, dcpSize, pcpGroupRanks
      dcpRank := pcpRank / pcpPerDcp
      dcpGroupIndex := (dpRank * tpSize + tpRank) * pcpPerDcp + dcpReplicaRank
      dcpGroupCount := dpSize * tpSize * pcpPerDcp
      dcpGroupRanks := (List.range dcpSize).map fun ownerRank =>
        let ownerPcpRank := dcpReplicaRank + ownerRank * pcpPerDcp
        dpGroupStart + ownerPcpRank * tpSize + tpRank }
  else
    { dpRank, tpSize, tpRank, pcpSize, pcpRank, dcpSize, pcpGroupRanks
      dcpRank := dpLocalRank
      dcpGroupIndex := dpRank
      dcpGroupCount := dpSize
      dcpGroupRanks := (List.range dpStride).map fun rank => dpGroupStart + rank }

def build (globalRank worldSize dpSize pcpSize dcpSize : Int) :
    Except TopologyCheck ContextParallelTopology := do
  check (0 < worldSize) .worldSize
  check (0 < dpSize) .dpSize
  check (0 < pcpSize) .pcpSize
  check (0 ≤ globalRank) .negativeRank
  check (globalRank < worldSize) .rankOutsideWorld
  check (worldSize % (dpSize * pcpSize) = 0) .indivisible
  let tpSize := worldSize.toNat / (dpSize.toNat * pcpSize.toNat)
  -- A `dcp_size` that is not positive is neither below `pcp_size` nor the stride, as zero is.
  check (SupportedDcpSize tpSize pcpSize.toNat dcpSize.toNat) .dcpSize
  return layout globalRank.toNat dpSize.toNat tpSize pcpSize.toNat dcpSize.toNat

end ContextParallelTopology

/-! ## The ranks of `ParallelArgs` -/

/-- What `cp_rank` and `kv_split_rank` read: the last two are the ranks of `dcp_topology_` and of
`dcp_group_`, where they are set. -/
structure ParallelArgs where
  rank : Int
  worldSize : Int
  dpSize : Int
  cpSize : Int
  kvSplitSize : Int
  dcpTopologyRank : Option Int
  dcpGroupRank : Option Int
  deriving Repr, DecidableEq

namespace ParallelArgs

def cpRank (args : ParallelArgs) : Int :=
  if args.cpSize ≤ 1 then 0
  else
    let tpSz := (args.worldSize.tdiv args.dpSize).tdiv args.cpSize
    (args.rank.tmod (args.cpSize * tpSz)).tdiv tpSz

def kvSplitSizeEffective (args : ParallelArgs) : Int :=
  if 0 < args.kvSplitSize then args.kvSplitSize else args.cpSize

/-- The checks of `kv_split_rank`, in its order. -/
inductive KvSplitCheck
  | worldSize
  | dpSize
  | negativeRank
  | rankOutsideWorld
  | indivisible
  | splitTooLarge
  | splitIndivisible
  deriving Repr, DecidableEq

def kvSplitRank (args : ParallelArgs) : Except KvSplitCheck Int :=
  let kv := args.kvSplitSizeEffective
  if kv ≤ 1 then .ok 0
  else
    match args.dcpTopologyRank, args.dcpGroupRank with
    | some rank, _ => .ok rank
    | none, some rank => .ok rank
    | none, none => do
      check (0 < args.worldSize) .worldSize
      check (0 < args.dpSize) .dpSize
      check (0 ≤ args.rank) .negativeRank
      check (args.rank < args.worldSize) .rankOutsideWorld
      check (args.worldSize.tmod args.dpSize = 0) .indivisible
      let dpLocalSize := args.worldSize.tdiv args.dpSize
      check (kv ≤ dpLocalSize) .splitTooLarge
      check (dpLocalSize.tmod kv = 0) .splitIndivisible
      let dpLocalRank := args.rank.tmod dpLocalSize
      return dpLocalRank.tdiv (dpLocalSize.tdiv kv)

end ParallelArgs

/-! ## The digits of a rank -/

open Xllm.Lib.MixedRadix

namespace ContextParallelTopology

variable {rank dp tp pcp dcp per : Nat}

/-- A PCP group varies `pcp_rank`. -/
def pcpDims (tp pcp dp : Nat) : Dims := [(tp, false), (pcp, true), (dp, false)]

/-- A DCP group that is part of a PCP group varies `dcp_rank`. -/
def partDims (tp per dcp dp : Nat) : Dims := [(tp, false), (per, false), (dcp, true), (dp, false)]

/-- A DCP group that spans the DP domain varies all but `dp_rank`. -/
def spanDims (tp pcp dp : Nat) : Dims := [(tp, true), (pcp, true), (dp, false)]

theorem dpRank_eq (rank tp pcp : Nat) : rank / (pcp * tp) = rank / tp / pcp := by
  rw [Nat.mul_comm, Nat.div_div_eq_div_mul]

theorem pcpRank_eq (rank tp pcp : Nat) : rank % (pcp * tp) / tp = rank / tp % pcp :=
  Nat.mod_mul_left_div_self rank tp pcp

theorem tpRank_eq (rank tp pcp : Nat) : rank % (pcp * tp) % tp = rank % tp :=
  Nat.mod_mul_left_mod rank pcp tp

theorem dpRank_lt (hrank : rank < dp * (pcp * tp)) : rank / tp / pcp < dp := by
  rw [← dpRank_eq]
  rw [Nat.mul_comm dp] at hrank
  exact Nat.div_lt_of_lt_mul hrank

theorem positive_pcpDims (htp : 0 < tp) (hpcp : 0 < pcp) (hdp : 0 < dp) :
    ∀ dim ∈ pcpDims tp pcp dp, 0 < dim.1 := by
  simp [pcpDims, htp, hpcp, hdp]

theorem positive_partDims (htp : 0 < tp) (hper : 0 < per) (hdcp : 0 < dcp) (hdp : 0 < dp) :
    ∀ dim ∈ partDims tp per dcp dp, 0 < dim.1 := by
  simp [partDims, htp, hper, hdcp, hdp]

theorem positive_spanDims (htp : 0 < tp) (hpcp : 0 < pcp) (hdp : 0 < dp) :
    ∀ dim ∈ spanDims tp pcp dp, 0 < dim.1 := by
  simp [spanDims, htp, hpcp, hdp]

theorem volume_pcpDims : volume (pcpDims tp pcp dp) = dp * (pcp * tp) := by
  simp [volume, pcpDims]
  ring

theorem volume_partDims (hper : per * dcp = pcp) :
    volume (partDims tp per dcp dp) = dp * (pcp * tp) := by
  simp [volume, partDims, ← hper]
  ring

theorem volume_spanDims : volume (spanDims tp pcp dp) = dp * (pcp * tp) := by
  simp [volume, spanDims]
  ring

theorem pcpGroupRanks_layout (htp : 0 < tp) (hrank : rank < dp * (pcp * tp)) (dcp : Nat) :
    (layout rank dp tp pcp dcp).pcpGroupRanks =
      groupAt (pcpDims tp pcp dp) (groupOf (pcpDims tp pcp dp) rank) := by
  have hgroup : (layout rank dp tp pcp dcp).pcpGroupRanks =
      (List.range pcp).map fun place =>
        rank / (pcp * tp) * (pcp * tp) + place * tp + rank % (pcp * tp) % tp := by
    unfold layout
    by_cases hpart : PartitionsPcp pcp dcp
    · rw [if_pos hpart]
    · rw [if_neg hpart]
  have hsize : groupSize (pcpDims tp pcp dp) = pcp := by simp [groupSize, pcpDims]
  rw [hgroup, groupAt, hsize]
  apply List.map_congr_left
  intro place hplace
  have hlt : place < pcp := List.mem_range.mp hplace
  rw [dpRank_eq, tpRank_eq]
  simp only [pcpDims, combine, groupOf, Nat.add_mul_mod_self_left, Nat.mod_mod,
    Nat.add_mul_div_left _ _ htp, Nat.div_eq_of_lt (Nat.mod_lt rank htp), Nat.zero_add,
    Nat.mod_eq_of_lt hlt, Nat.mod_eq_of_lt (dpRank_lt hrank), Nat.mul_zero, Nat.add_zero]
  ring

/-! ### DCP groups inside PCP groups -/

theorem pcpPerDcp_mul (hpart : PartitionsPcp pcp dcp) : pcp / dcp * dcp = pcp :=
  Nat.div_mul_cancel (Nat.dvd_of_mod_eq_zero hpart.2.2)

theorem pcpPerDcp_pos (hpart : PartitionsPcp pcp dcp) : 0 < pcp / dcp :=
  Nat.div_pos hpart.2.1 hpart.1

theorem replicaRank_eq (hper : per * dcp = pcp) : rank / tp % pcp % per = rank / tp % per := by
  subst hper
  rw [Nat.mul_comm, Nat.mod_mul_left_mod]

theorem ownerRank_eq (hper : per * dcp = pcp) :
    rank / tp % pcp / per = rank / tp / per % dcp := by
  subst hper
  rw [Nat.mul_comm, Nat.mod_mul_left_div_self]

theorem dcpRank_layout_part (hpart : PartitionsPcp pcp dcp) :
    (layout rank dp tp pcp dcp).dcpRank =
      placeOf (partDims tp (pcp / dcp) dcp dp) rank := by
  have hplace : placeOf (partDims tp (pcp / dcp) dcp dp) rank =
      rank / tp / (pcp / dcp) % dcp := by simp [partDims, placeOf]
  rw [hplace, ← ownerRank_eq (pcpPerDcp_mul hpart), ← pcpRank_eq]
  unfold layout
  rw [if_pos hpart]

theorem dpRank_lt_part (hper : per * dcp = pcp) (hrank : rank < dp * (pcp * tp)) :
    rank / tp / per / dcp < dp := by
  rw [Nat.div_div_eq_div_mul (rank / tp), hper]
  exact dpRank_lt hrank

/-- `dcp_group_ranks_`, where DCP splits a PCP group. -/
theorem dcpGroupRanks_layout_part (htp : 0 < tp) (hpart : PartitionsPcp pcp dcp)
    (hrank : rank < dp * (pcp * tp)) :
    (layout rank dp tp pcp dcp).dcpGroupRanks =
      groupAt (partDims tp (pcp / dcp) dcp dp) (groupOf (partDims tp (pcp / dcp) dcp dp) rank) := by
  have hgroup : (layout rank dp tp pcp dcp).dcpGroupRanks =
      (List.range dcp).map fun place =>
        rank / (pcp * tp) * (pcp * tp) +
            (rank % (pcp * tp) / tp % (pcp / dcp) + place * (pcp / dcp)) * tp +
          rank % (pcp * tp) % tp := by
    unfold layout
    rw [if_pos hpart]
  have hmul := pcpPerDcp_mul hpart
  have hpos := pcpPerDcp_pos hpart
  generalize hdef : pcp / dcp = per at hgroup hmul hpos ⊢
  have hsize : groupSize (partDims tp per dcp dp) = dcp := by simp [groupSize, partDims]
  rw [hgroup, groupAt, hsize]
  apply List.map_congr_left
  intro place hplace
  have hlt : place < dcp := List.mem_range.mp hplace
  have hdp : rank / (pcp * tp) = rank / tp / per / dcp := by
    rw [dpRank_eq, Nat.div_div_eq_div_mul (rank / tp), hmul]
  rw [hdp, tpRank_eq, pcpRank_eq, replicaRank_eq hmul]
  simp only [partDims, combine, groupOf, Nat.add_mul_mod_self_left, Nat.mod_mod,
    Nat.add_mul_div_left _ _ htp, Nat.add_mul_div_left _ _ hpos,
    Nat.div_eq_of_lt (Nat.mod_lt rank htp), Nat.div_eq_of_lt (Nat.mod_lt (rank / tp) hpos),
    Nat.zero_add, Nat.mod_eq_of_lt hlt, Nat.mod_eq_of_lt (dpRank_lt_part hmul hrank), Nat.mul_zero,
    Nat.add_zero]
  rw [← hmul]
  ring

/-- `dcp_group_index_` is the number of the group with its two lowest digits exchanged. -/
theorem dcpGroupIndex_layout_part (htp : 0 < tp) (hpart : PartitionsPcp pcp dcp)
    (hrank : rank < dp * (pcp * tp)) :
    (layout rank dp tp pcp dcp).dcpGroupIndex =
      swapDigits tp (pcp / dcp) (groupOf (partDims tp (pcp / dcp) dcp dp) rank) := by
  have hindex : (layout rank dp tp pcp dcp).dcpGroupIndex =
      (rank / (pcp * tp) * tp + rank % (pcp * tp) % tp) * (pcp / dcp) +
        rank % (pcp * tp) / tp % (pcp / dcp) := by
    unfold layout
    rw [if_pos hpart]
  have hmul := pcpPerDcp_mul hpart
  have hpos := pcpPerDcp_pos hpart
  generalize hdef : pcp / dcp = per at hindex hmul hpos ⊢
  have hdp : rank / (pcp * tp) = rank / tp / per / dcp := by
    rw [dpRank_eq, Nat.div_div_eq_div_mul (rank / tp), hmul]
  rw [hindex, hdp, tpRank_eq, pcpRank_eq, replicaRank_eq hmul]
  simp only [swapDigits, partDims, groupOf, Nat.add_mul_mod_self_left, Nat.mod_mod,
    Nat.add_mul_div_left _ _ htp, Nat.add_mul_div_left _ _ hpos,
    Nat.div_eq_of_lt (Nat.mod_lt rank htp), Nat.div_eq_of_lt (Nat.mod_lt (rank / tp) hpos),
    Nat.zero_add, Nat.mod_eq_of_lt (dpRank_lt_part hmul hrank), Nat.mul_zero, Nat.add_zero]
  ring

/-! ### DCP groups that span the DP domain -/

theorem dcpGroupRanks_layout_span (hpart : ¬ PartitionsPcp pcp dcp)
    (hrank : rank < dp * (pcp * tp)) :
    (layout rank dp tp pcp dcp).dcpGroupRanks =
      groupAt (spanDims tp pcp dp) (groupOf (spanDims tp pcp dp) rank) := by
  have hgroup : (layout rank dp tp pcp dcp).dcpGroupRanks =
      (List.range (pcp * tp)).map fun place => rank / (pcp * tp) * (pcp * tp) + place := by
    unfold layout
    rw [if_neg hpart]
  have hsize : groupSize (spanDims tp pcp dp) = pcp * tp := by
    simp [groupSize, spanDims, Nat.mul_comm]
  rw [hgroup, groupAt, hsize]
  apply List.map_congr_left
  intro place hplace
  have hlt : place / tp < pcp :=
    Nat.div_lt_of_lt_mul (by rw [Nat.mul_comm]; exact List.mem_range.mp hplace)
  rw [dpRank_eq]
  simp only [spanDims, combine, groupOf, Nat.mod_eq_of_lt hlt, Nat.mod_eq_of_lt (dpRank_lt hrank),
    Nat.mul_zero, Nat.add_zero]
  rw [Nat.mul_add, ← Nat.add_assoc, Nat.mod_add_div]
  ring

theorem dcpGroupIndex_layout_span (hpart : ¬ PartitionsPcp pcp dcp)
    (hrank : rank < dp * (pcp * tp)) :
    (layout rank dp tp pcp dcp).dcpGroupIndex = groupOf (spanDims tp pcp dp) rank := by
  have hindex : (layout rank dp tp pcp dcp).dcpGroupIndex = rank / (pcp * tp) := by
    unfold layout
    rw [if_neg hpart]
  rw [hindex, dpRank_eq]
  simp only [spanDims, groupOf, Nat.mod_eq_of_lt (dpRank_lt hrank), Nat.mul_zero, Nat.add_zero]

theorem dcpRank_layout_span (hpart : ¬ PartitionsPcp pcp dcp) :
    (layout rank dp tp pcp dcp).dcpRank = placeOf (spanDims tp pcp dp) rank := by
  have hdcpRank : (layout rank dp tp pcp dcp).dcpRank = rank % (pcp * tp) := by
    unfold layout
    rw [if_neg hpart]
  rw [hdcpRank]
  simp only [spanDims, placeOf, Nat.mul_zero, Nat.add_zero]
  rw [← tpRank_eq rank tp pcp, ← pcpRank_eq, Nat.mod_add_div]

end ContextParallelTopology

/-! ## All ranks together -/

/-- The objects that the ranks of a world build describe one partition of it into PCP groups and
one into DCP groups, and number the latter alike. -/
structure ConsistentTopologies (world pcpSize dcpSize : Nat)
    (topology : Nat → ContextParallelTopology) : Prop where
  pcpGroups : GroupPartition world pcpSize fun rank => (topology rank).pcpGroupRanks
  dcpGroups : GroupPartition world dcpSize fun rank => (topology rank).dcpGroupRanks
  index_eq_iff : ∀ a < world, ∀ b < world,
    (topology a).dcpGroupIndex = (topology b).dcpGroupIndex ↔
      (topology a).dcpGroupRanks = (topology b).dcpGroupRanks
  index_lt : ∀ a < world, ∀ b < world, (topology a).dcpGroupIndex < (topology b).dcpGroupCount
  index_covers : ∀ b < world, ∀ index < (topology b).dcpGroupCount,
    ∃ a < world, (topology a).dcpGroupIndex = index
  own_rank : ∀ a < world, (topology a).dcpGroupRanks[(topology a).dcpRank]? = some a

namespace ContextParallelTopology

variable {dp tp pcp dcp per : Nat}

/-- The DCP half, from the digits that a group varies and a numbering of the groups. -/
theorem consistent_of_dims {world pcpSize dcpSize count : Nat} {dims : Dims} {index back : Nat → Nat}
    {topology : Nat → ContextParallelTopology} (hdims : ∀ dim ∈ dims, 0 < dim.1)
    (hworld : volume dims = world) (hsize : groupSize dims = dcpSize)
    (hpcp : GroupPartition world pcpSize fun rank => (topology rank).pcpGroupRanks)
    (hgroups : ∀ a < world, (topology a).dcpGroupRanks = groupAt dims (groupOf dims a))
    (hindex : ∀ a < world, (topology a).dcpGroupIndex = index (groupOf dims a))
    (hrank : ∀ a < world, (topology a).dcpRank = placeOf dims a)
    (hcount : ∀ a < world, (topology a).dcpGroupCount = count)
    (hindexLt : ∀ group < groupCount dims, index group < count)
    (hbackLt : ∀ i < count, back i < groupCount dims)
    (hback : ∀ group, back (index group) = group) (hforth : ∀ i, index (back i) = i) :
    ConsistentTopologies world pcpSize dcpSize topology where
  pcpGroups := hpcp
  dcpGroups := by
    rw [← hworld] at hgroups ⊢
    rw [← hsize]
    exact (groupPartition_groupAt hdims).congr hgroups
  index_eq_iff a ha b hb := by
    rw [hindex a ha, hindex b hb, hgroups a ha, hgroups b hb]
    rw [groupAt_eq_iff hdims (by rw [hworld]; exact ha)]
    constructor
    · intro heq
      rw [← hback (groupOf dims a), heq, hback]
    · intro heq
      rw [heq]
  index_lt a ha b hb := by
    rw [hindex a ha, hcount b hb]
    exact hindexLt _ (groupOf_lt hdims a)
  index_covers b hb i hi := by
    rw [hcount b hb] at hi
    have hlt : combine dims (back i) 0 < world := by
      rw [← hworld]
      exact combine_lt hdims _ _
    refine ⟨combine dims (back i) 0, hlt, ?_⟩
    rw [hindex _ hlt, groupOf_combine hdims (hbackLt i hi), hforth]
  own_rank a ha := by
    rw [hgroups a ha, hrank a ha, groupAt, List.getElem?_map,
      List.getElem?_range (placeOf_lt hdims a), Option.map_some,
      combine_groupOf hdims (by rw [hworld]; exact ha)]

theorem pcpGroups_layout (htp : 0 < tp) (hpcp : 0 < pcp) (hdp : 0 < dp) (dcp : Nat) :
    GroupPartition (dp * (pcp * tp)) pcp fun rank =>
      (layout rank dp tp pcp dcp).pcpGroupRanks := by
  have hpartition := groupPartition_groupAt (positive_pcpDims htp hpcp hdp)
  have hsize : groupSize (pcpDims tp pcp dp) = pcp := by simp [groupSize, pcpDims]
  rw [volume_pcpDims, hsize] at hpartition
  exact hpartition.congr fun rank hrank => pcpGroupRanks_layout htp hrank dcp

theorem consistent_layout_part (htp : 0 < tp) (hpcp : 0 < pcp) (hdp : 0 < dp)
    (hpart : PartitionsPcp pcp dcp) :
    ConsistentTopologies (dp * (pcp * tp)) pcp dcp fun rank => layout rank dp tp pcp dcp := by
  have hpos := pcpPerDcp_pos hpart
  have hgroupCount : groupCount (partDims tp (pcp / dcp) dcp dp) = tp * (pcp / dcp * dp) := by
    simp [groupCount, partDims]
  refine consistent_of_dims (positive_partDims htp hpos hpart.1 hdp)
    (volume_partDims (pcpPerDcp_mul hpart)) (by simp [groupSize, partDims])
    (pcpGroups_layout htp hpcp hdp dcp)
    (fun rank hrank => dcpGroupRanks_layout_part htp hpart hrank)
    (fun rank hrank => dcpGroupIndex_layout_part htp hpart hrank)
    (fun rank _ => dcpRank_layout_part hpart)
    (fun rank _ => show _ = pcp / dcp * (tp * dp) from ?_) ?_ ?_
    (fun group => swapDigits_swapDigits htp hpos group)
    (fun i => swapDigits_swapDigits hpos htp i)
  · unfold layout
    rw [if_pos hpart]
    ring
  · intro group hgroup
    rw [hgroupCount] at hgroup
    exact swapDigits_lt htp hpos hgroup
  · intro i hi
    rw [hgroupCount]
    exact swapDigits_lt hpos htp hi

theorem consistent_layout_span (htp : 0 < tp) (hpcp : 0 < pcp) (hdp : 0 < dp)
    (hpart : ¬ PartitionsPcp pcp dcp) (hspan : dcp = pcp * tp) :
    ConsistentTopologies (dp * (pcp * tp)) pcp dcp fun rank => layout rank dp tp pcp dcp := by
  have hgroupCount : groupCount (spanDims tp pcp dp) = dp := by simp [groupCount, spanDims]
  -- The number of a group is its index as it is.
  have hid : ∀ group : Nat, id (id group) = group := fun _ => rfl
  refine consistent_of_dims (positive_spanDims htp hpcp hdp) volume_spanDims
    (by simp [groupSize, spanDims, hspan, Nat.mul_comm]) (pcpGroups_layout htp hpcp hdp dcp)
    (fun rank hrank => dcpGroupRanks_layout_span hpart hrank)
    (fun rank hrank => show _ = id _ from dcpGroupIndex_layout_span hpart hrank)
    (fun rank _ => dcpRank_layout_span hpart) (fun rank _ => show _ = dp from ?_) ?_ ?_ hid hid
  · unfold layout
    rw [if_neg hpart]
  · intro group hgroup
    rw [hgroupCount] at hgroup
    exact hgroup
  · intro i hi
    rw [hgroupCount]
    exact hi

theorem consistent_layout (htp : 0 < tp) (hpcp : 0 < pcp) (hdp : 0 < dp)
    (hdcp : SupportedDcpSize tp pcp dcp) :
    ConsistentTopologies (dp * (pcp * tp)) pcp dcp fun rank => layout rank dp tp pcp dcp := by
  by_cases hpart : PartitionsPcp pcp dcp
  · exact consistent_layout_part htp hpcp hdp hpart
  · exact consistent_layout_span htp hpcp hdp hpart (hdcp.resolve_left hpart)

variable {globalRank worldSize dpSize pcpSize dcpSize : Int} {topology : ContextParallelTopology}

theorem build_eq_ok
    :
    build globalRank worldSize dpSize pcpSize dcpSize = .ok topology ↔
      0 < worldSize ∧ 0 < dpSize ∧ 0 < pcpSize ∧ 0 ≤ globalRank ∧ globalRank < worldSize ∧
        worldSize % (dpSize * pcpSize) = 0 ∧
        SupportedDcpSize (worldSize.toNat / (dpSize.toNat * pcpSize.toNat)) pcpSize.toNat
          dcpSize.toNat ∧
        layout globalRank.toNat dpSize.toNat (worldSize.toNat / (dpSize.toNat * pcpSize.toNat))
          pcpSize.toNat dcpSize.toNat = topology := by
  unfold build
  simp only [check_bind_eq_ok, pure, Except.pure, Except.ok.injEq]

/-- Sizes that the constructor accepts, as natural numbers. -/
structure AcceptedSizes (world dp tp pcp dcp : Nat) : Prop where
  tp_pos : 0 < tp
  pcp_pos : 0 < pcp
  dp_pos : 0 < dp
  world_eq : world = dp * (pcp * tp)
  supported : SupportedDcpSize tp pcp dcp

/-- What one rank accepts every rank accepts: no check but the one of the rank depends on it. -/
theorem build_of_ok (hbuild : build globalRank worldSize dpSize pcpSize dcpSize = .ok topology) :
    ∃ tp, AcceptedSizes worldSize.toNat dpSize.toNat tp pcpSize.toNat dcpSize.toNat ∧
      ∀ rank < worldSize.toNat, build rank worldSize dpSize pcpSize dcpSize =
        .ok (layout rank dpSize.toNat tp pcpSize.toNat dcpSize.toNat) := by
  obtain ⟨hworld, hdp, hpcp, _, _, hmod, hdcp, _⟩ := build_eq_ok.mp hbuild
  refine ⟨_, ?_, fun rank hrank => build_eq_ok.mpr
    ⟨hworld, hdp, hpcp, Int.natCast_nonneg rank, by omega, hmod, hdcp, rfl⟩⟩
  have hpos : 0 < dpSize.toNat * pcpSize.toNat := Nat.mul_pos (by omega) (by omega)
  have hdvd : dpSize.toNat * pcpSize.toNat ∣ worldSize.toNat := by
    have hint : ((dpSize.toNat * pcpSize.toNat : Nat) : Int) ∣ (worldSize.toNat : Int) := by
      rw [Int.natCast_mul, Int.toNat_of_nonneg (le_of_lt hdp), Int.toNat_of_nonneg (le_of_lt hpcp),
        Int.toNat_of_nonneg (le_of_lt hworld)]
      exact Int.dvd_of_emod_eq_zero hmod
    exact Int.natCast_dvd_natCast.mp hint
  have heq := Nat.mul_div_cancel' hdvd
  refine ⟨Nat.div_pos (Nat.le_of_dvd (by omega) hdvd) hpos, by omega, by omega, ?_, hdcp⟩
  rw [← Nat.mul_assoc]
  exact heq.symm

end ContextParallelTopology

/-! ## The ranks of `ParallelArgs` agree -/

namespace ParallelArgs

open ContextParallelTopology

variable {world dp tp pcp dcp : Nat}

/-- The arguments of a worker with the sizes of a topology, and no communicator set up. -/
def ofSizes (rank world dp pcp dcp : Nat) : ParallelArgs :=
  { rank, worldSize := world, dpSize := dp, cpSize := pcp, kvSplitSize := dcp
    dcpTopologyRank := none, dcpGroupRank := none }

theorem cpRank_ofSizes (h : AcceptedSizes world dp tp pcp dcp) (rank : Nat) :
    (ofSizes rank world dp pcp dcp).cpRank = (layout rank dp tp pcp dcp).pcpRank := by
  have hpcpRank : (layout rank dp tp pcp dcp).pcpRank = rank % (pcp * tp) / tp := by
    unfold layout
    by_cases hpart : PartitionsPcp pcp dcp
    · rw [if_pos hpart]
    · rw [if_neg hpart]
  have htp : world / dp / pcp = tp := by
    rw [h.world_eq, Nat.mul_div_cancel_left _ h.dp_pos, Nat.mul_div_cancel_left _ h.pcp_pos]
  rw [hpcpRank]
  unfold cpRank ofSizes
  by_cases hone : (pcp : Int) ≤ 1
  · have hpcp : pcp = 1 := by
      have := h.pcp_pos
      omega
    rw [if_pos hone, hpcp, Nat.one_mul, Nat.div_eq_of_lt (Nat.mod_lt rank h.tp_pos)]
    rfl
  · rw [if_neg hone]
    simp only [← Int.ofNat_tdiv, ← Int.ofNat_tmod, ← Int.natCast_mul]
    rw [htp]

theorem dcp_pos (h : AcceptedSizes world dp tp pcp dcp) : 0 < dcp := by
  cases h.supported with
  | inl hpart => exact hpart.1
  | inr hspan =>
    rw [hspan]
    exact Nat.mul_pos h.pcp_pos h.tp_pos

theorem dcp_dvd (h : AcceptedSizes world dp tp pcp dcp) : dcp ∣ pcp * tp := by
  cases h.supported with
  | inl hpart => exact Dvd.dvd.mul_right (Nat.dvd_of_mod_eq_zero hpart.2.2) tp
  | inr hspan =>
    rw [hspan]

/-- In both regimes the owner is the place of a rank among the equal parts of its DP domain. -/
theorem dcpRank_layout (h : AcceptedSizes world dp tp pcp dcp) (rank : Nat) :
    (layout rank dp tp pcp dcp).dcpRank = rank % (pcp * tp) / (pcp * tp / dcp) := by
  unfold layout
  by_cases hpart : PartitionsPcp pcp dcp
  · rw [if_pos hpart]
    have hstride : pcp * tp / dcp = tp * (pcp / dcp) := by
      rw [Nat.mul_comm pcp, Nat.mul_div_assoc _ (Nat.dvd_of_mod_eq_zero hpart.2.2)]
    rw [hstride]
    exact Nat.div_div_eq_div_mul _ _ _
  · rw [if_neg hpart]
    have hspan := h.supported.resolve_left hpart
    rw [← hspan, Nat.div_self (dcp_pos h), Nat.div_one]

theorem kvSplitRank_eq_ok {args : ParallelArgs} {rank : Int}
    (hkv : ¬ args.kvSplitSizeEffective ≤ 1) (htopology : args.dcpTopologyRank = none)
    (hgroup : args.dcpGroupRank = none) :
    args.kvSplitRank = .ok rank ↔
      0 < args.worldSize ∧ 0 < args.dpSize ∧ 0 ≤ args.rank ∧ args.rank < args.worldSize ∧
        args.worldSize.tmod args.dpSize = 0 ∧
        args.kvSplitSizeEffective ≤ args.worldSize.tdiv args.dpSize ∧
        (args.worldSize.tdiv args.dpSize).tmod args.kvSplitSizeEffective = 0 ∧
        (args.rank.tmod (args.worldSize.tdiv args.dpSize)).tdiv
          ((args.worldSize.tdiv args.dpSize).tdiv args.kvSplitSizeEffective) = rank := by
  unfold kvSplitRank
  rw [if_neg hkv, htopology, hgroup]
  simp only [check_bind_eq_ok, pure, Except.pure, Except.ok.injEq]

theorem kvSplitRank_ofSizes (h : AcceptedSizes world dp tp pcp dcp) {rank : Nat}
    (hrank : rank < world) :
    (ofSizes rank world dp pcp dcp).kvSplitRank = .ok (layout rank dp tp pcp dcp).dcpRank := by
  have hdcp := dcp_pos h
  have hstride : 0 < pcp * tp := Nat.mul_pos h.pcp_pos h.tp_pos
  have hlocal : world / dp = pcp * tp := by rw [h.world_eq, Nat.mul_div_cancel_left _ h.dp_pos]
  have hdvd : world % dp = 0 := by rw [h.world_eq, Nat.mul_mod_right]
  have heffective : (ofSizes rank world dp pcp dcp).kvSplitSizeEffective = dcp :=
    if_pos (Int.natCast_pos.mpr hdcp)
  rw [dcpRank_layout h]
  by_cases hone : (dcp : Int) ≤ 1
  · have hdcpOne : dcp = 1 := by omega
    rw [kvSplitRank, heffective, if_pos hone, hdcpOne, Nat.div_one,
      Nat.div_eq_of_lt (Nat.mod_lt rank hstride)]
    rfl
  · have hle : dcp ≤ pcp * tp := Nat.le_of_dvd hstride (dcp_dvd h)
    refine (kvSplitRank_eq_ok (by rw [heffective]; exact hone) rfl rfl).mpr ?_
    rw [heffective]
    simp only [ofSizes, ← Int.ofNat_tdiv, ← Int.ofNat_tmod, hlocal, hdvd,
      Nat.mod_eq_zero_of_dvd (dcp_dvd h)]
    refine ⟨by omega, ?_, by omega, by omega, rfl, by omega, rfl, trivial⟩
    exact Int.natCast_pos.mpr h.dp_pos

end ParallelArgs

end Xllm.Parallel
