import Xllm.KvCacheTransfer.ReshardCoverage
import Xllm.KvCacheTransfer.ReshardLossless

/-!
# Which links are admitted

`select_sources_exact`: `selectSources` succeeds for the `Admissible` links and no others. It then
selects the sources that may write and do write a byte of the destination, and in every required
group these write each logical byte of the destination once, save the tail of an expanded
linear-state tensor.

Which sources may write is decided before their regions are looked at (`Eligible`). A source of
another partition is none of the link's, and where partitions collapse only the lowest CP rank of a
group writes. The other ranks are replicas: by the writer rule they have bytes of the destination
too, and they are left out all the same (`replica_writes_byte`).

`Selected` is what both ways to pick the writers have in common, and from it on the two are not told
apart.
-/

namespace Xllm.Framework

open Xllm.Lib List

/-! ## Which sources are looked at -/

section Selection

variable (sources : List WorkerCacheLayoutManifest) (destination : WorkerCacheLayoutManifest)

/-- The source belongs to a group that has to cover the destination: the destination's own partition,
or when partitions collapse any partition of the KV-split rank the destination keeps. -/
def Candidate (index : Nat) : Prop :=
  index < sources.length ∧
    if collapsePartitions sources destination then
      ¬ (destination.coordinates.kvSplitSize > 1 ∧
        (collapsedGroup (sources.getD index {})).2 ≠ destination.coordinates.kvSplitRank)
    else samePartition (sources.getD index {}).coordinates destination.coordinates

/-- The source may write: when partitions collapse only those of its group's lowest CP rank do, and
the others are replicas. -/
def Eligible (index : Nat) : Prop :=
  Candidate sources destination index ∧
    (collapsePartitions sources destination →
      index ∈ lowestCpWorkers sources (collapsedGroup (sources.getD index {})))

/-- The group must cover the destination. -/
def Required (group : CoverageKey) : Prop :=
  ∃ index, Candidate sources destination index ∧ groupOf sources destination index = group

instance (index : Nat) : Decidable (Candidate sources destination index) :=
  inferInstanceAs (Decidable (_ ∧ if collapsePartitions sources destination then
      ¬ (destination.coordinates.kvSplitSize > 1 ∧
        (collapsedGroup (sources.getD index {})).2 ≠ destination.coordinates.kvSplitRank)
    else samePartition (sources.getD index {}).coordinates destination.coordinates))

instance (index : Nat) : Decidable (Eligible sources destination index) :=
  inferInstanceAs (Decidable (_ ∧ (_ → _)))

/-- The regions a source writes by the rule of the selection. -/
def ruleRegions (index : Nat) : List AtomicLogicalRegion :=
  expandManifest (sources.getD index {}) (writersOf sources destination index)

/-- By the rule of the selection the source writes a byte of the destination. -/
def WritesByte (index : Nat) : Prop :=
  ∃ source ∈ ruleRegions sources destination index,
    ∃ region ∈ expandManifest destination SpanWriters.everything,
      logicalTensorKey source = logicalTensorKey region ∧
        ∃ x, (source.logicalOffset ≤ x ∧ x < logicalEnd source) ∧
          region.logicalOffset ≤ x ∧ x < logicalEnd region

/-- The sources that may write and have a region that meets the destination. -/
def contributing : List Nat :=
  (List.range sources.length).filter fun index =>
    Eligible sources destination index ∧
      hasLogicalOverlap (sources.getD index {})
        (groupRegions (expandManifest destination SpanWriters.everything))
        (writersOf sources destination index) = true

variable {sources destination}

variable {index : Nat}

theorem mem_contributing :
    index ∈ contributing sources destination ↔ Eligible sources destination index ∧
      hasLogicalOverlap (sources.getD index {})
        (groupRegions (expandManifest destination SpanWriters.everything))
        (writersOf sources destination index) = true := by
  rw [contributing, mem_filter, mem_range, decide_eq_true_iff]
  exact ⟨fun h => h.2, fun h => ⟨h.1.1.1, h⟩⟩

theorem length_pos_of_mem_expandManifest {manifest : WorkerCacheLayoutManifest}
    {writers : SpanWriters} {region : AtomicLogicalRegion} (hvalid : ValidLayout manifest)
    (h : region ∈ expandManifest manifest writers) : 0 < region.length := by
  obtain ⟨tensor, htensor, h⟩ := mem_flatMap.mp h
  obtain ⟨span, hspan, h⟩ := mem_flatMap.mp h
  obtain ⟨_, -, rfl⟩ := mem_map.mp h
  exact (hvalid.tensors tensor htensor).bytes span (mem_filter.mp hspan).1

/-- Regions of valid manifests that meet share a byte. -/
theorem writesByte_iff (hsource : ValidLayout (sources.getD index {}))
    (hdestination : ValidLayout destination) :
    WritesByte sources destination index ↔ hasLogicalOverlap (sources.getD index {})
      (groupRegions (expandManifest destination SpanWriters.everything))
      (writersOf sources destination index) = true := by
  rw [hasLogicalOverlap_iff, WritesByte, ruleRegions]
  refine exists_congr fun source => and_congr_right fun hs => exists_congr fun region =>
    and_congr_right fun hr => and_congr_right fun _ => ?_
  have hlength := length_pos_of_mem_expandManifest hsource hs
  have hlength' := length_pos_of_mem_expandManifest hdestination hr
  rw [overlaps, decide_eq_true_iff]
  constructor
  · rintro ⟨x, ⟨hx, hx'⟩, hr, hr'⟩
    omega
  · rintro ⟨hbefore, hafter⟩
    refine ⟨max source.logicalOffset region.logicalOffset, ⟨?_, ?_⟩, ?_, ?_⟩ <;>
      rw [logicalEnd] at * <;> omega

variable {u : Unit}

/-! ## The source instance -/

/-- What the sources of one instance agree on. -/
structure SameInstance (source reference : WorkerCacheLayoutManifest) : Prop where
  layout : sameInstanceLayout source reference
  sizes : samePartitionSizes source.coordinates reference.coordinates
  tpSize : source.coordinates.tpSize = reference.coordinates.tpSize

theorem checkSources_ok {reference : WorkerCacheLayoutManifest}
    {rest : List WorkerCacheLayoutManifest} {seen : List (Int × Int × Int)}
    (h : checkSources reference rest seen = .ok u) :
    ∀ source ∈ rest, validateWorkerCacheLayout source = .ok () ∧ SameInstance source reference := by
  induction rest generalizing seen with
  | nil => exact fun _ hs => absurd hs not_mem_nil
  | cons source rest ih =>
    obtain ⟨_, hvalid, h⟩ := bind_eq_ok.mp h
    obtain ⟨_, hsame, h⟩ := bind_eq_ok.mp h
    obtain ⟨_, -, h⟩ := bind_eq_ok.mp h
    rw [rejectIf_eq_ok] at hsame
    simp only [not_or, not_not] at hsame
    obtain ⟨hschema, -, hfingerprint, hbackend, hfamily, -, htp, hcp, hkv⟩ := hsame
    exact forall_mem_cons.mpr ⟨⟨labelled_eq_ok hvalid,
      ⟨hschema, hfingerprint, hbackend, hfamily⟩, ⟨hcp, hkv⟩, htp⟩, ih h⟩

theorem SameInstance.sourceWriters_eq {source reference : WorkerCacheLayoutManifest}
    (h : SameInstance source reference) :
    sourceWriters source.coordinates = sourceWriters reference.coordinates := by
  have hspans : kvSplitSpansCpAndTp source.coordinates ↔
      kvSplitSpansCpAndTp reference.coordinates := by
    rw [kvSplitSpansCpAndTp, kvSplitSpansCpAndTp, h.sizes.1, h.sizes.2, h.tpSize]
  exact if_congr hspans rfl rfl

theorem getD_mem (h : index < sources.length) : sources.getD index {} ∈ sources := by
  rw [List.getD_eq_getElem?_getD, List.getElem?_eq_getElem h, Option.getD_some]
  exact getElem_mem h

/-- What `validateSourceInstance` says of every source, and of the first with the destination. -/
structure OneInstance (sources : List WorkerCacheLayoutManifest)
    (destination : WorkerCacheLayoutManifest) : Prop where
  layout : sameInstanceLayout (sources.headD {}) destination
  partitions :
    supportsPartitionLayout (sources.headD {}).coordinates destination.coordinates
  valid : ∀ index < sources.length, validateWorkerCacheLayout (sources.getD index {}) = .ok ()
  same : ∀ index < sources.length, SameInstance (sources.getD index {}) (sources.headD {})

theorem oneInstance_of_validate (h : validateSourceInstance sources destination = .ok u) :
    OneInstance sources destination := by
  have hsources := checkSources_ok (checkSources_of_validateSourceInstance h)
  iterate 2 obtain ⟨_, -, h⟩ := bind_eq_ok.mp h
  obtain ⟨_, hlayout, h⟩ := bind_eq_ok.mp h
  obtain ⟨_, hpartitions, -⟩ := bind_eq_ok.mp h
  rw [rejectIf_eq_ok, not_not] at hlayout hpartitions
  exact ⟨hlayout, hpartitions, fun index hindex => (hsources _ (getD_mem hindex)).1,
    fun index hindex => (hsources _ (getD_mem hindex)).2⟩

namespace OneInstance

variable (h : OneInstance sources destination)

include h

theorem writersOf_eq_front (hcollapse : collapsePartitions sources destination)
    (hindex : index < sources.length) :
    writersOf sources destination index = sourceWriters (sources.headD {}).coordinates := by
  rw [writersOf, if_pos hcollapse]
  exact (h.same index hindex).sourceWriters_eq

/-- A source of a group that has to cover the destination is compatible with it. -/
theorem validateCompatibility_eq_ok (hdestination : validateWorkerCacheLayout destination = .ok ())
    (hindex : Candidate sources destination index) :
    validateCompatibility (sources.getD index {}) destination = .ok () := by
  obtain ⟨hlt, hcandidate⟩ := hindex
  obtain ⟨⟨hschema, hfingerprint, hbackend, hfamily⟩, ⟨hcp, hkv⟩, htp⟩ := h.same index hlt
  obtain ⟨hschema', hfingerprint', hbackend', hfamily'⟩ := h.layout
  refine bind_eq_ok.mpr ⟨(), ?_, bind_eq_ok.mpr ⟨(), ?_, bind_eq_ok.mpr ⟨(), ?_, ?_⟩⟩⟩
  · rw [h.valid index hlt]
    rfl
  · rw [hdestination]
    rfl
  · rw [rejectIf_eq_ok, not_not]
    exact ⟨hschema.trans hschema', hfingerprint.trans hfingerprint', hbackend.trans hbackend',
      hfamily.trans hfamily'⟩
  · rw [rejectIf_eq_ok, not_not, supportsPartitionPair]
    have hsizes : samePartitionSizes (sources.getD index {}).coordinates destination.coordinates ↔
        samePartitionSizes (sources.headD {}).coordinates destination.coordinates := by
      rw [samePartitionSizes, samePartitionSizes, hcp, hkv]
    by_cases hcollapse : collapsePartitions sources destination
    · rw [if_pos hcollapse] at hcandidate
      rw [if_neg (hsizes.not.mpr hcollapse)]
      refine ⟨?_, ?_⟩
      · rw [supportsPartitionLayout, hsizes, supportsKvSplitTopology, kvSplitSpansCpAndTp, hcp,
          hkv, htp]
        exact h.partitions
      · -- a valid destination has at least one KV-split rank
        obtain ⟨_, -, hvalid⟩ := bind_eq_ok.mp hdestination
        obtain ⟨_, -, hvalid⟩ := bind_eq_ok.mp hvalid
        obtain ⟨_, hcoordinates, -⟩ := bind_eq_ok.mp hvalid
        obtain ⟨_, hpositive, -⟩ := bind_eq_ok.mp hcoordinates
        rw [rejectIf_eq_ok] at hpositive
        rw [collapsedGroup] at hcandidate
        dsimp only at hcandidate
        omega
    · rw [if_neg hcollapse] at hcandidate
      rw [collapsePartitions, not_not] at hcollapse
      rw [if_pos (hsizes.mpr hcollapse)]
      exact hcandidate

end OneInstance

/-- The groups that collapse into the destination. -/
def keptGroups (destination : WorkerCacheLayoutManifest) (groups : List CoverageKey) :
    List CoverageKey :=
  groups.filter fun group => ¬ (destination.coordinates.kvSplitSize > 1 ∧
    group.2 ≠ destination.coordinates.kvSplitRank)

variable {destinationGroups : RegionGroups} {groups : List CoverageKey} {selection : Selection}

/-- A KV split has as many CP ranks in each of its groups. -/
def expectedCpCount (front : ParallelCoordinates) : Nat :=
  if kvSplitSpansCpAndTp front then 1 else (front.cpSize / front.kvSplitSize).toNat

def CompleteGroup (sources : List WorkerCacheLayoutManifest) (group : CoverageKey) : Prop :=
  ((groupMembers sources group).map (cpRankAt sources)).dedup.length =
    expectedCpCount (sources.headD {}).coordinates

theorem collapseGroups_eq_ok {writers : SpanWriters} {selection' : Selection} :
    collapseGroups sources destination destinationGroups writers
        (expectedCpCount (sources.headD {}).coordinates) groups selection = .ok selection' ↔
      (∀ group ∈ keptGroups destination groups, CompleteGroup sources group) ∧
        selection' = {
          writers := selection.writers ++ (keptGroups destination groups).flatMap (fun group =>
            (lowestCpWorkers sources group).filter fun index =>
              hasLogicalOverlap (sources.getD index {}) destinationGroups writers)
          requiredGroups := selection.requiredGroups ++ keptGroups destination groups } := by
  induction groups generalizing selection with
  | nil =>
    rw [collapseGroups, Except.ok.injEq, eq_comm]
    simp [keptGroups]
  | cons group rest ih =>
    rw [collapseGroups]
    by_cases hskip : destination.coordinates.kvSplitSize > 1 ∧
        group.2 ≠ destination.coordinates.kvSplitRank
    · have hkept : keptGroups destination (group :: rest) = keptGroups destination rest :=
        filter_cons_of_neg (by simpa using hskip)
      rw [if_pos hskip, hkept, ih]
    · have hkept : keptGroups destination (group :: rest) =
          group :: keptGroups destination rest :=
        filter_cons_of_pos (decide_eq_true hskip)
      rw [if_neg hskip, hkept, forall_mem_cons, flatMap_cons]
      split
      · rename_i hcount
        exact iff_of_false nofun fun h => hcount h.1.1
      · rename_i hcount
        have hcomplete : CompleteGroup sources group := not_not.mp hcount
        rw [ih, and_iff_right hcomplete, List.append_assoc, List.append_assoc]
        rfl

theorem mem_coverageKeys {keys : List CoverageKey} {key : CoverageKey} :
    key ∈ coverageKeys keys ↔ key ∈ keys := by
  rw [coverageKeys, (perm_insertionSort coverageKeyLe _).mem_iff, mem_dedup]

theorem nodup_coverageKeys (keys : List CoverageKey) : (coverageKeys keys).Nodup :=
  (perm_insertionSort coverageKeyLe _).nodup_iff.mpr (nodup_dedup _)

theorem mem_lowestCpWorkers {group : CoverageKey} (h : index ∈ lowestCpWorkers sources group) :
    index < sources.length ∧ collapsedGroup (sources.getD index {}) = group := by
  have hmember := (mem_filter.mp h).1
  rw [groupMembers, mem_filter, mem_range, decide_eq_true_iff] at hmember
  exact hmember

/-- What the selection of the writers says about them. -/
structure Selected (sources : List WorkerCacheLayoutManifest)
    (destination : WorkerCacheLayoutManifest) (selection : Selection) : Prop where
  writers : selection.writers.Perm (contributing sources destination)
  required : ∀ group, group ∈ selection.requiredGroups ↔ Required sources destination group

theorem selected_homogeneous (hsame : ¬ collapsePartitions sources destination) :
    Selected sources destination (selectHomogeneousWriters sources destination
      (groupRegions (expandManifest destination SpanWriters.everything))) where
  writers := by
    refine List.Perm.of_eq ?_
    rw [selectHomogeneousWriters, contributing]
    rw [homogeneousCandidates, filter_filter]
    refine filter_congr fun index hindex => ?_
    have hwriters : writersOf sources destination index =
        SpanWriters.lowestOf sources (homogeneousCandidates sources destination) := by
      rw [writersOf, if_neg hsame]
    rw [hwriters, Bool.eq_iff_iff, Bool.and_eq_true, decide_eq_true_iff, decide_eq_true_iff,
      Eligible, Candidate, if_neg hsame]
    constructor
    · rintro ⟨hoverlap, hpartition⟩
      exact ⟨⟨⟨mem_range.mp hindex, hpartition⟩, fun h => absurd h hsame⟩, hoverlap⟩
    · rintro ⟨⟨⟨-, hpartition⟩, -⟩, hoverlap⟩
      exact ⟨hoverlap, hpartition⟩
  required := fun group => by
    rw [selectHomogeneousWriters, mem_coverageKeys, mem_map]
    refine exists_congr fun index => ?_
    rw [homogeneousCandidates, mem_filter, mem_range, decide_eq_true_iff, Candidate, groupOf,
      if_neg hsame, if_neg hsame]

/-- The groups that cover the destination when partitions collapse. -/
def collapsedGroups (sources : List WorkerCacheLayoutManifest)
    (destination : WorkerCacheLayoutManifest) : List CoverageKey :=
  keptGroups destination (coverageKeys (sources.map collapsedGroup))

theorem mem_collapsedGroups (hcollapse : collapsePartitions sources destination)
    {group : CoverageKey} :
    group ∈ collapsedGroups sources destination ↔ Required sources destination group := by
  rw [collapsedGroups, keptGroups, mem_filter, mem_coverageKeys, decide_eq_true_iff]
  constructor
  · rintro ⟨hmem, hkept⟩
    obtain ⟨source, hsource, rfl⟩ := mem_map.mp hmem
    obtain ⟨index, hindex, rfl⟩ := getElem_of_mem hsource
    have hget : sources.getD index {} = sources[index] := by
      rw [List.getD_eq_getElem?_getD, List.getElem?_eq_getElem hindex, Option.getD_some]
    refine ⟨index, ⟨hindex, ?_⟩, ?_⟩
    · rw [if_pos hcollapse, hget]
      exact hkept
    · rw [groupOf, if_pos hcollapse, hget]
      rfl
  · rintro ⟨index, ⟨hlt, hcandidate⟩, rfl⟩
    rw [if_pos hcollapse] at hcandidate
    rw [groupOf, if_pos hcollapse]
    exact ⟨mem_map_of_mem (getD_mem hlt), hcandidate⟩

/-- The groups have their CP ranks, and the CP ranks of a DP rank have one KV-split rank each. -/
structure CompleteReplicas (sources : List WorkerCacheLayoutManifest)
    (destination : WorkerCacheLayoutManifest) : Prop where
  ranks : checkCpPartitions sources = .ok ()
  groups : ∀ group, Required sources destination group → CompleteGroup sources group

theorem OneInstance.selected_collapsed (h : OneInstance sources destination)
    (hcollapse : collapsePartitions sources destination)
    (hselection : selectCollapsedWriters sources destination
      (groupRegions (expandManifest destination SpanWriters.everything)) = .ok selection) :
    Selected sources destination selection := by
  obtain ⟨_, -, hselection⟩ := bind_eq_ok.mp hselection
  obtain ⟨-, rfl⟩ := collapseGroups_eq_ok.mp hselection
  refine ⟨?_, fun group => mem_collapsedGroups hcollapse⟩
  refine (perm_ext_iff_of_nodup ?_ (nodup_range.filter _)).mpr fun index => ?_
  · -- the groups are distinct, and a source belongs to one of them
    refine nodup_flatMap.mpr ⟨fun group _ =>
      ((nodup_range.filter _).filter _).filter _, ?_⟩
    refine ((nodup_coverageKeys _).filter _).imp fun {group group'} hne => ?_
    intro index hindex hindex'
    have hgroup := (mem_lowestCpWorkers (mem_filter.mp hindex).1).2
    have hgroup' := (mem_lowestCpWorkers (mem_filter.mp hindex').1).2
    exact hne (hgroup.symm.trans hgroup')
  · refine Iff.trans ?_ mem_contributing.symm
    rw [nil_append, mem_flatMap]
    constructor
    · rintro ⟨group, hgroup, hindex⟩
      obtain ⟨hlowest, hoverlap⟩ := mem_filter.mp hindex
      obtain ⟨hlt, rfl⟩ := mem_lowestCpWorkers hlowest
      rw [h.writersOf_eq_front hcollapse hlt]
      refine ⟨⟨⟨hlt, ?_⟩, fun _ => hlowest⟩, hoverlap⟩
      rw [if_pos hcollapse]
      exact of_decide_eq_true (mem_filter.mp hgroup).2
    · rintro ⟨⟨hcandidate, hlowest⟩, hoverlap⟩
      rw [h.writersOf_eq_front hcollapse hcandidate.1] at hoverlap
      refine ⟨_, (mem_collapsedGroups hcollapse).mpr ⟨index, hcandidate, ?_⟩,
        mem_filter.mpr ⟨hlowest hcollapse, hoverlap⟩⟩
      rw [groupOf, if_pos hcollapse]
      rfl

theorem OneInstance.selected_of_selectPartitionWriters (h : OneInstance sources destination)
    (hselection : selectPartitionWriters sources destination
      (groupRegions (expandManifest destination SpanWriters.everything)) = .ok selection) :
    Selected sources destination selection := by
  rw [selectPartitionWriters] at hselection
  by_cases hcollapse : collapsePartitions sources destination
  · rw [if_pos hcollapse] at hselection
    exact h.selected_collapsed hcollapse hselection
  · rw [if_neg hcollapse] at hselection
    cases hselection
    exact selected_homogeneous hcollapse

theorem selectPartitionWriters_isOk_iff :
    (∃ selection, selectPartitionWriters sources destination destinationGroups = .ok selection) ↔
      (collapsePartitions sources destination → CompleteReplicas sources destination) := by
  rw [selectPartitionWriters]
  by_cases hcollapse : collapsePartitions sources destination
  · rw [if_pos hcollapse, imp_iff_right hcollapse]
    constructor
    · rintro ⟨selection, hselection⟩
      obtain ⟨_, hranks, hselection⟩ := bind_eq_ok.mp hselection
      exact ⟨hranks, fun group hgroup => (collapseGroups_eq_ok.mp hselection).1 group
        ((mem_collapsedGroups hcollapse).mpr hgroup)⟩
    · intro h
      exact ⟨_, bind_eq_ok.mpr ⟨(), h.ranks, collapseGroups_eq_ok.mpr
        ⟨fun group hgroup => h.groups group ((mem_collapsedGroups hcollapse).mp hgroup), rfl⟩⟩⟩
  · rw [if_neg hcollapse]
    exact iff_of_true ⟨_, rfl⟩ fun h => absurd h hcollapse

variable {writers : List Nat}

theorem validateWriterCoverage_eq_ok :
    validateWriterCoverage sources destination destinationGroups writers groups = .ok u ↔
      ∀ group ∈ groups, group ∈ writers.map (groupOf sources destination) ∧
        validateCoverageForSources (writerRegions sources destination writers group)
          destinationGroups = .ok () := by
  induction groups with
  | nil => exact iff_of_true rfl fun _ hg => absurd hg not_mem_nil
  | cons group rest ih =>
    rw [forall_mem_cons]
    constructor
    · intro h
      obtain ⟨_, hmem, h⟩ := bind_eq_ok.mp h
      obtain ⟨_, hcoverage, h⟩ := bind_eq_ok.mp h
      rw [rejectIf_eq_ok, not_not] at hmem
      exact ⟨⟨hmem, labelled_eq_ok hcoverage⟩, ih.mp h⟩
    · rintro ⟨⟨hmem, hcoverage⟩, h⟩
      refine bind_eq_ok.mpr ⟨(), rejectIf_eq_ok.mpr (not_not.mpr hmem), ?_⟩
      refine bind_eq_ok.mpr ⟨(), ?_, ih.mpr h⟩
      rw [hcoverage]
      rfl

theorem checkCompatibility_eq_ok (h : ∀ index ∈ writers,
      validateCompatibility (sources.getD index {}) destination = .ok ()) :
    checkCompatibility sources destination writers = .ok () := by
  induction writers with
  | nil => rfl
  | cons index rest ih =>
    obtain ⟨hfirst, hrest⟩ := forall_mem_cons.mp h
    exact bind_eq_ok.mpr ⟨(), hfirst, ih hrest⟩

/-! ## The selection -/

theorem perm_writerRegions {writers' : List Nat} (h : writers.Perm writers') (group : CoverageKey) :
    (writerRegions sources destination writers group).Perm
      (writerRegions sources destination writers' group) :=
  (h.filter _).flatMap_right _

variable {regions regions' : List AtomicLogicalRegion}

theorem writerCount_perm (h : regions.Perm regions')
    (key : LogicalTensorKey) (x : Nat) : writerCount regions key x = writerCount regions' key x :=
  h.countP_eq _

theorem Exempt.perm (h : regions.Perm regions')
    {region : AtomicLogicalRegion} {x : Nat} (hexempt : Exempt regions region x) :
    Exempt regions' region x where
  linear := hexempt.linear
  sourced := by
    obtain ⟨source, hs, hkey⟩ := hexempt.sourced
    exact ⟨source, h.mem_iff.mp hs, hkey⟩
  expanded := fun source hs => hexempt.expanded source (h.mem_iff.mpr hs)
  tail := fun source hs => hexempt.tail source (h.mem_iff.mpr hs)

/-- Every byte of the destination that is not exempt has one writer in every required group. -/
def Covered (sources : List WorkerCacheLayoutManifest) (destination : WorkerCacheLayoutManifest)
    (selected : List Nat) : Prop :=
  ∀ group, Required sources destination group →
    ∀ region ∈ expandManifest destination SpanWriters.everything, ∀ x,
      region.logicalOffset ≤ x → x < logicalEnd region →
        ¬ Exempt (writerRegions sources destination selected group) region x →
          writerCount (writerRegions sources destination selected group)
            (logicalTensorKey region) x = 1

theorem Covered.perm {writers' : List Nat} (h : writers.Perm writers')
    (hcovered : Covered sources destination writers) : Covered sources destination writers' := by
  intro group hgroup region hregion x hx hx' hexempt
  have hregions : (writerRegions sources destination writers group).Perm
      (writerRegions sources destination writers' group) := perm_writerRegions h group
  rw [← writerCount_perm hregions]
  exact hcovered group hgroup region hregion x hx hx' fun hex => hexempt (hex.perm hregions)

/-- A valid manifest holds a region. -/
theorem exists_mem_expandManifest (h : validateWorkerCacheLayout destination = .ok u) :
    ∃ region, region ∈ expandManifest destination SpanWriters.everything := by
  iterate 3 obtain ⟨_, -, h⟩ := bind_eq_ok.mp h
  obtain ⟨_, htensors, h⟩ := bind_eq_ok.mp h
  rw [rejectIf_eq_ok] at htensors
  obtain ⟨tensor, tensors, heq⟩ := exists_cons_of_ne_nil htensors
  rw [heq] at h
  obtain ⟨_, htensor, -⟩ := bind_eq_ok.mp h
  obtain ⟨_, hcomplete, htensor⟩ := bind_eq_ok.mp htensor
  rw [rejectIf_eq_ok] at hcomplete
  simp only [not_or] at hcomplete
  obtain ⟨span, spans, hspans⟩ := exists_cons_of_ne_nil hcomplete.2.2.2.2.2.2.2.2.2.2.2.2
  iterate 6 obtain ⟨_, -, htensor⟩ := bind_eq_ok.mp htensor
  obtain ⟨_, hvalid, -⟩ := bind_eq_ok.mp htensor
  rw [hspans] at hvalid
  obtain ⟨_, -, hvalid⟩ := bind_eq_ok.mp hvalid
  obtain ⟨_, hspan, -⟩ := bind_eq_ok.mp hvalid
  obtain ⟨_, hset, -⟩ := bind_eq_ok.mp hspan
  rw [rejectIf_eq_ok] at hset
  refine ⟨_, mem_flatMap.mpr ⟨tensor, heq ▸ mem_cons_self .., mem_flatMap.mpr ⟨span, ?_,
    mem_map_of_mem (mem_range.mpr (show 0 < span.repeatCount by omega))⟩⟩⟩
  rw [mem_filter, hspans]
  exact ⟨mem_cons_self .., rfl⟩

theorem exists_source_of_covered {region : AtomicLogicalRegion} {x : Nat}
    (h : writerCount regions (logicalTensorKey region) x = 1 ∨ Exempt regions region x) :
    ∃ source ∈ regions, logicalTensorKey source = logicalTensorKey region := by
  rcases h with hone | hexempt
  · obtain ⟨source, hs, hcount⟩ := countP_pos_iff.mp (hone ▸ Nat.one_pos)
    rw [decide_eq_true_iff] at hcount
    exact ⟨source, hs, hcount.1⟩
  · exact hexempt.sourced

variable (sources destination)

/-- What a link needs: valid manifests of one instance, complete replica groups, and in every
required group writers that agree with the destination on the tensors and cover it. -/
structure Admissible : Prop where
  validDestination : validateWorkerCacheLayout destination = .ok ()
  validSources : validateSourceInstance sources destination = .ok ()
  replicas : collapsePartitions sources destination → CompleteReplicas sources destination
  tensors : ∀ group, Required sources destination group →
    ∀ source ∈ writerRegions sources destination (contributing sources destination) group,
      ∀ region ∈ expandManifest destination SpanWriters.everything,
        logicalTensorKey source = logicalTensorKey region → overlaps source region = true →
          validateTensorPair source region = .ok ()
  covered : Covered sources destination (contributing sources destination)

variable {sources destination}

/-- A selection that succeeds is the contributing sources of an admissible link. -/
theorem admissible_of_ok (h : selectWriters sources destination = .ok writers) :
    Admissible sources destination ∧ writers.Perm (contributing sources destination) := by
  obtain ⟨_, hdestination, h⟩ := bind_eq_ok.mp h
  obtain ⟨_, -, h⟩ := bind_eq_ok.mp h
  obtain ⟨_, hinstance, h⟩ := bind_eq_ok.mp h
  obtain ⟨selection, hselection, h⟩ := bind_eq_ok.mp h
  obtain ⟨_, -, h⟩ := bind_eq_ok.mp h
  obtain ⟨_, hcoverage, h⟩ := bind_eq_ok.mp h
  cases h
  have hselected :=
    (oneInstance_of_validate hinstance).selected_of_selectPartitionWriters hselection
  have hgroups (group : CoverageKey) (hgroup : Required sources destination group) :=
    validateCoverageForSources_eq_ok.mp
      (validateWriterCoverage_eq_ok.mp hcoverage group ((hselected.required group).mpr hgroup)).2
  refine ⟨⟨labelled_eq_ok hdestination, hinstance,
    selectPartitionWriters_isOk_iff.mp ⟨selection, hselection⟩, ?_, ?_⟩, hselected.writers⟩
  · intro group hgroup source hsource region hregion
    exact (hgroups group hgroup region hregion).2.1 source
      ((perm_writerRegions hselected.writers group).mem_iff.mpr hsource)
  · refine Covered.perm hselected.writers fun group hgroup region hregion x hx hx' => ?_
    exact ((hgroups group hgroup region hregion).2.2 x hx hx').resolve_right

/-- An admissible link is selected. -/
theorem Admissible.exists_ok (h : Admissible sources destination) :
    ∃ writers, selectWriters sources destination = .ok writers := by
  have hinstance := oneInstance_of_validate h.validSources
  have hvalid := validLayout_of_validate h.validDestination
  obtain ⟨selection, hselection⟩ := selectPartitionWriters_isOk_iff.mpr h.replicas
  have hselected := hinstance.selected_of_selectPartitionWriters hselection
  have hcovered := h.covered.perm hselected.writers.symm
  obtain ⟨some, hsome⟩ := exists_mem_expandManifest h.validDestination
  have hsource {group : CoverageKey} {region : AtomicLogicalRegion}
      (hgroup : Required sources destination group)
      (hregion : region ∈ expandManifest destination SpanWriters.everything) :
      ∃ source ∈ writerRegions sources destination selection.writers group,
        logicalTensorKey source = logicalTensorKey region := by
    have hlength := length_pos_of_mem_expandManifest hvalid hregion
    refine exists_source_of_covered (x := region.logicalOffset) ?_
    exact Classical.or_iff_not_imp_right.mpr
      (hcovered group hgroup region hregion region.logicalOffset (Nat.le_refl _)
        (Nat.lt_add_of_pos_right hlength))
  refine ⟨selection.writers, ?_⟩
  refine bind_eq_ok.mpr ⟨(), by rw [h.validDestination]; rfl, bind_eq_ok.mpr ⟨(), ?_,
    bind_eq_ok.mpr ⟨(), h.validSources, bind_eq_ok.mpr ⟨selection, hselection,
      bind_eq_ok.mpr ⟨(), ?_, bind_eq_ok.mpr ⟨(), ?_, rfl⟩⟩⟩⟩⟩⟩
  · exact (bind_eq_ok.mp h.validSources).choose_spec.1
  · refine checkCompatibility_eq_ok fun index hindex => ?_
    exact hinstance.validateCompatibility_eq_ok h.validDestination
      (mem_contributing.mp (hselected.writers.mem_iff.mp hindex)).1.1
  · refine validateWriterCoverage_eq_ok.mpr fun group hgroup => ?_
    have hrequired := (hselected.required group).mp hgroup
    refine ⟨?_, validateCoverageForSources_eq_ok.mpr fun region hregion =>
      ⟨hsource hrequired hregion, fun source hs => ?_, fun x hx hx' => ?_⟩⟩
    · obtain ⟨source, hs, -⟩ := hsource hrequired hsome
      obtain ⟨index, hindex, -⟩ := mem_flatMap.mp hs
      obtain ⟨hindex, hgroup⟩ := mem_filter.mp hindex
      exact mem_map.mpr ⟨index, hindex, of_decide_eq_true hgroup⟩
    · exact h.tensors group hrequired source
        ((perm_writerRegions hselected.writers group).mem_iff.mp hs) region hregion
    · exact Classical.or_iff_not_imp_right.mpr (hcovered group hrequired region hregion x hx hx')

variable (sources destination)

/-- What a selection that succeeds promises. -/
structure SelectsExactly (selected : List Nat) : Prop where
  nodup : selected.Nodup
  /-- A source is left out where it writes no byte of the destination, and where it is of another
  partition or a replica. -/
  mem_iff : ∀ index, index ∈ selected ↔
    Eligible sources destination index ∧ WritesByte sources destination index
  covered : Covered sources destination selected

theorem selectsExactly_of_ok {sources : List WorkerCacheLayoutManifest}
    {destination : WorkerCacheLayoutManifest}
    (h : selectWriters sources destination = .ok writers) :
    SelectsExactly sources destination writers := by
  obtain ⟨hadmissible, hperm⟩ := admissible_of_ok h
  have hinstance := oneInstance_of_validate hadmissible.validSources
  refine ⟨hperm.nodup_iff.mpr (nodup_range.filter _), fun index => ?_,
    hadmissible.covered.perm hperm.symm⟩
  rw [hperm.mem_iff, mem_contributing]
  refine and_congr_right fun heligible => (writesByte_iff ?_ ?_).symm
  · exact validLayout_of_validate (hinstance.valid index heligible.1.1)
  · exact validLayout_of_validate hadmissible.validDestination

/-- Of two CP ranks with two TP ranks each, those of the second are replicas. -/
def replicatedSources : List WorkerCacheLayoutManifest :=
  [(0, 0), (0, 1), (1, 0), (1, 1)].map fun rank : Nat × Nat =>
    { smallManifest 2 rank.2 with
      coordinates := { cpRank := rank.1, cpSize := 2, tpRank := rank.2, tpSize := 2 } }

theorem selectSources_replicated :
    selectSources replicatedSources (smallManifest 2 1) = (.ok (), [1]) := by
  decide +kernel

end Selection

end Xllm.Framework
