import Xllm.Parallel.ContextParallelTopology
import Xllm.Parallel.RankGenerator

/-!
# Ranks that agree on their groups

What every rank works out for itself fits together. The context-parallel objects of all ranks
describe the same groups, a rank is at its own place in its DCP group, and `ParallelArgs` names
the same owner. The groups of `RankGenerator` partition the ranks, one way for each name, and two
ways cross in one rank at most.

`RankGenerator` reads a name as a query, dimensions joined by `-`, and adds an offset only if it
is positive.
-/

namespace Xllm.Parallel

open Xllm.Lib Xllm.Lib.MixedRadix

/-- Every rank builds its topology, they fit together, and `ParallelArgs` with the same sizes and no
communicator derives the same PCP and DCP ranks. -/
structure RanksAgree (worldSize dpSize pcpSize dcpSize : Int)
    (topologies : Nat → ContextParallelTopology) : Prop where
  built : ∀ rank < worldSize.toNat,
    ContextParallelTopology.build rank worldSize dpSize pcpSize dcpSize = .ok (topologies rank)
  consistent : ConsistentTopologies worldSize.toNat pcpSize.toNat dcpSize.toNat topologies
  cpRank : ∀ rank < worldSize.toNat,
    (ParallelArgs.mk rank worldSize dpSize pcpSize dcpSize none none).cpRank =
      (topologies rank).pcpRank
  kvSplitRank : ∀ rank < worldSize.toNat,
    (ParallelArgs.mk rank worldSize dpSize pcpSize dcpSize none none).kvSplitRank =
      .ok (topologies rank).dcpRank

/-- The groups of each name partition the ranks from the offset on, and groups of two names have
one rank in common at most. -/
structure OrthogonalPartitions (worldSize rankOffset : Int) (groupOrder : List (List Char))
    (groups : List Char → List (List Int)) : Prop where
  partition : ∀ name ∈ groupOrder, (groups name).flatten.Perm
    ((List.range worldSize.toNat).map fun rank : Nat => (rank : Int) + rankOffset)
  meet : ∀ name ∈ groupOrder, ∀ name' ∈ groupOrder, name ≠ name' →
    ∀ group ∈ groups name, ∀ group' ∈ groups name', ∀ a b,
      a ∈ group → a ∈ group' → b ∈ group → b ∈ group' → a = b

/-- The mapping that `RankGenerator` returns for the sizes holds such groups. -/
def RankGroupsOrthogonal (worldSize rankOffset : Int) (groupRanks : List Int)
    (groupOrder : List (List Char)) : Prop :=
  ∃ mapping, RankGenerator.getRanksMapping worldSize rankOffset groupRanks groupOrder =
      .ok mapping ∧
    ∃ groups, (∀ name ∈ groupOrder, mapping.groupMapping.lookup name = some (groups name)) ∧
      OrthogonalPartitions worldSize rankOffset groupOrder groups

/-- What one rank accepts, all ranks accept and agree on. -/
theorem ranksAgree_of_build {globalRank worldSize dpSize pcpSize dcpSize : Int}
    {topology : ContextParallelTopology}
    (hbuild : ContextParallelTopology.build globalRank worldSize dpSize pcpSize dcpSize =
      .ok topology) :
    ∃ topologies, RanksAgree worldSize dpSize pcpSize dcpSize topologies := by
  obtain ⟨tp, hsizes, hranks⟩ := ContextParallelTopology.build_of_ok hbuild
  obtain ⟨hworld, hdp, hpcp, _⟩ := ContextParallelTopology.build_eq_ok.mp hbuild
  have hdcp : 0 < dcpSize := by
    have hpos := ParallelArgs.dcp_pos hsizes
    omega
  have hargs : ∀ rank : Nat, ParallelArgs.mk rank worldSize dpSize pcpSize dcpSize none none =
      ParallelArgs.ofSizes rank worldSize.toNat dpSize.toNat pcpSize.toNat dcpSize.toNat := by
    intro rank
    unfold ParallelArgs.ofSizes
    rw [Int.toNat_of_nonneg hworld.le, Int.toNat_of_nonneg hdp.le, Int.toNat_of_nonneg hpcp.le,
      Int.toNat_of_nonneg hdcp.le]
  refine ⟨_, hranks, ?_, fun rank _ => ?_, fun rank hrank => ?_⟩
  · rw [hsizes.world_eq]
    exact ContextParallelTopology.consistent_layout hsizes.tp_pos hsizes.pcp_pos hsizes.dp_pos
      hsizes.supported
  · rw [hargs]
    exact ParallelArgs.cpRank_ofSizes hsizes rank
  · rw [hargs]
    exact ParallelArgs.kvSplitRank_ofSizes hsizes hrank

theorem ints_toNat {groupRanks : List Int} (hpos : ∀ size ∈ groupRanks, 0 < size) :
    RankGenerator.ints (groupRanks.map Int.toNat) = groupRanks := by
  unfold RankGenerator.ints
  rw [List.map_map]
  conv => rhs; rw [← List.map_id groupRanks]
  apply List.map_congr_left
  intro size hsize
  exact Int.toNat_of_nonneg (hpos size hsize).le

theorem orthogonalPartitions_of_prod {rankOffset : Int} {groupRanks : List Int}
    {groupOrder : List (List Char)} (hoffset : 0 ≤ rankOffset) (hranks : groupRanks ≠ [])
    (hlength : groupOrder.length = groupRanks.length) (hpos : ∀ size ∈ groupRanks, 0 < size)
    (hdelimiters : ∀ name ∈ groupOrder, '-' ∉ name) :
    RankGroupsOrthogonal groupRanks.prod rankOffset groupRanks groupOrder := by
  -- The sizes as natural numbers.
  have heq := ints_toNat hpos
  generalize groupRanks.map Int.toNat = sizes at heq
  subst heq
  have hsizes : sizes ≠ [] := by
    intro hnil
    rw [hnil] at hranks
    exact hranks rfl
  have hcount : groupOrder.length = sizes.length := by
    rw [hlength]
    unfold RankGenerator.ints
    rw [List.length_map]
  have hsizePos : ∀ size ∈ sizes, 0 < size := fun size hsize =>
    Int.natCast_pos.mp (hpos size (List.mem_map_of_mem hsize))
  obtain ⟨mapping, hmapping, hnames⟩ :=
    RankGenerator.getRanksMapping_eq hoffset hsizes hcount hsizePos
  rw [RankGenerator.prod_ints]
  refine ⟨mapping, hmapping, RankGenerator.groupsFor rankOffset sizes groupOrder, hnames, ?_, ?_⟩
  · intro name _
    exact RankGenerator.flatten_groupsFor_perm hcount hsizePos name
  · intro name hname name' hname' hne group hgroup group' hgroup' a b ha ha' hb hb'
    exact RankGenerator.eq_of_mem_groupsFor hcount hsizePos hdelimiters hname hname' hne hgroup
      hgroup' ha ha' hb hb'

/-- Parallel topologies are consistent across ranks. -/
theorem topologies_consistent :
    (∀ (globalRank worldSize dpSize pcpSize dcpSize : Int) (topology : ContextParallelTopology),
      ContextParallelTopology.build globalRank worldSize dpSize pcpSize dcpSize = .ok topology →
      ∃ topologies, RanksAgree worldSize dpSize pcpSize dcpSize topologies) ∧
    ∀ (worldSize rankOffset : Int) (groupRanks : List Int) (groupOrder : List (List Char)),
      groupRanks ≠ [] → groupOrder.length = groupRanks.length → (∀ size ∈ groupRanks, 0 < size) →
      groupRanks.prod = worldSize → 0 ≤ rankOffset → (∀ name ∈ groupOrder, '-' ∉ name) →
      RankGroupsOrthogonal worldSize rankOffset groupRanks groupOrder := by
  constructor
  · intro globalRank worldSize dpSize pcpSize dcpSize topology hbuild
    exact ranksAgree_of_build hbuild
  · intro worldSize rankOffset groupRanks groupOrder hranks hlength hpos hprod hoffset hdelimiters
    subst hprod
    exact orthogonalPartitions_of_prod hoffset hranks hlength hpos hdelimiters

/-- Sixteen ranks with DCP inside PCP, and a tensor- and a data-parallel dimension behind eight
ranks. -/
theorem topologies_consistent_sixteen :
    (∃ topologies, RanksAgree 16 2 4 2 topologies) ∧
    RankGroupsOrthogonal 6 8 [2, 3] ["tp".toList, "dp".toList] := by
  constructor
  · exact topologies_consistent.1 5 16 2 4 2
      (ContextParallelTopology.layout 5 2 2 4 2) (by decide)
  · exact topologies_consistent.2 6 8 [2, 3] ["tp".toList, "dp".toList] (by decide) (by decide)
      (by decide) (by decide) (by decide) (by decide)

/-- Sizes with the product of the world alone do not do. A name that ends with the delimiter asks
for the dimension before it, and its groups are those of another name; an offset below zero is not
added; negative sizes leave no groups; and no sizes at all are refused. -/
theorem rankGroups_not_orthogonal :
    ¬ RankGroupsOrthogonal 2 0 [2, 1] ["a".toList, "a-".toList] ∧
    ¬ RankGroupsOrthogonal 2 (-1) [2] ["a".toList] ∧
    ¬ RankGroupsOrthogonal 2 0 [-1, -2] ["a".toList, "b".toList] ∧
    ¬ RankGroupsOrthogonal 1 0 [] [] := by
  refine ⟨?_, ?_, ?_, ?_⟩
  · intro h
    obtain ⟨mapping, hmapping, groups, hgroups, horthogonal⟩ := h
    cases hmapping
    have ha := hgroups "a".toList (by decide)
    have hdash := hgroups "a-".toList (by decide)
    have hga : groups "a".toList = [[0, 1]] := (Option.some.inj ha).symm
    have hgdash : groups "a-".toList = [[0, 1]] := (Option.some.inj hdash).symm
    have hmeet := horthogonal.meet "a".toList (by decide) "a-".toList (by decide) (by decide)
      [0, 1] (by rw [hga]; decide) [0, 1] (by rw [hgdash]; decide) 0 1 (by decide) (by decide)
      (by decide) (by decide)
    exact absurd hmeet (by decide)
  · intro h
    obtain ⟨mapping, hmapping, groups, hgroups, horthogonal⟩ := h
    cases hmapping
    have ha := hgroups "a".toList (by decide)
    have hga : groups "a".toList = [[0, 1]] := (Option.some.inj ha).symm
    have hperm := horthogonal.partition "a".toList (by decide)
    rw [hga] at hperm
    have hmem := hperm.mem_iff.mp (show (1 : Int) ∈ [[0, 1]].flatten by decide)
    exact absurd hmem (by decide)
  · intro h
    obtain ⟨mapping, hmapping, groups, hgroups, horthogonal⟩ := h
    cases hmapping
    have ha := hgroups "a".toList (by decide)
    have hga : groups "a".toList = [] := (Option.some.inj ha).symm
    have hperm := horthogonal.partition "a".toList (by decide)
    rw [hga] at hperm
    exact absurd hperm.length_eq (by decide)
  · intro h
    obtain ⟨mapping, hmapping, _⟩ := h
    cases hmapping

end Xllm.Parallel
