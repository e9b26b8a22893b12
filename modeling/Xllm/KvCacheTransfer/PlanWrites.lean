import Xllm.Lib.Outcome
import Xllm.Lib.Traversal
import Xllm.KvCacheTransfer.ReshardPlanner

/-!
# What a plan writes

A plan is a list of strided regions. Read byte by byte it is the list of the bytes it writes, each
with the byte it is read from; and that is, up to order, one write for every byte that a region of
the source and a region of the destination share (`planWrites_perm`).

Compaction folds regions into repeats, and a repeat read out again is the regions it was made of
(`atoms_compactPlannedRegions`). The two sorted lists of a group are swept with a start that only
moves on, and nothing that overlaps is passed over (`visitOverlaps_eq`). The regions of one logical
tensor are those of its group, and the page selection of the index roles leaves other tensors alone.
-/

namespace Xllm.Framework

open Xllm.Lib List

/-! ## Repeats -/

namespace StridedRegionTemplate

/-- The `i`-th region of a repeat. -/
def atom (t : StridedRegionTemplate) (i : Nat) : StridedRegionTemplate :=
  { t with
    localOffsetInResource := t.localOffsetInResource + i * t.localStride
    remoteOffsetInResource := t.remoteOffsetInResource + i * t.remoteStride
    repeatCount := 1
    localStride := 0
    remoteStride := 0 }

def atoms (t : StridedRegionTemplate) : List StridedRegionTemplate :=
  (List.range t.repeatCount).map t.atom

/-- A repeat moves on. -/
structure Repeats (t : StridedRegionTemplate) : Prop where
  pos : 0 < t.repeatCount
  moves : 1 < t.repeatCount → 0 < t.localStride ∧ 0 < t.remoteStride

/-- A region as it is planned, not yet part of a repeat. -/
structure Single (t : StridedRegionTemplate) : Prop where
  repeatCount : t.repeatCount = 1
  localStride : t.localStride = 0
  remoteStride : t.remoteStride = 0

variable {t : StridedRegionTemplate}

theorem Single.atom_zero (h : t.Single) : t.atom 0 = t := by
  obtain ⟨hcount, hlocal, hremote⟩ := h
  cases t
  simp only at hcount hlocal hremote
  simp [atom, hcount, hlocal, hremote]

theorem Single.atoms (h : t.Single) : t.atoms = [t] := by
  rw [StridedRegionTemplate.atoms, h.repeatCount]
  show [t.atom 0] = [t]
  rw [h.atom_zero]

theorem Single.repeats (h : t.Single) : t.Repeats where
  pos := by rw [h.repeatCount]; exact Nat.one_pos
  moves := by
    intro hlt
    rw [h.repeatCount] at hlt
    exact absurd hlt (Nat.lt_irrefl 1)

/-- A region that differs from a repeat in its place alone, and stands where the next of the repeat
would, is the next of the repeat. -/
theorem atom_eq_of_sameTemplateKey {next : StridedRegionTemplate} {n : Nat}
    (hkey : sameTemplateKey t next) (hsingle : next.Single)
    (hlocal : next.localOffsetInResource = t.localOffsetInResource + n * t.localStride)
    (hremote : next.remoteOffsetInResource = t.remoteOffsetInResource + n * t.remoteStride) :
    t.atom n = next := by
  obtain ⟨hcount, hls, hrs⟩ := hsingle
  rw [atom, ← hlocal, ← hremote]
  rw [sameTemplateKey, hcount, hls, hrs] at hkey
  exact hkey

end StridedRegionTemplate

open StridedRegionTemplate

def outputAtoms (output : List (StridedRegionTemplate × Nat)) : List StridedRegionTemplate :=
  (output.map (·.1)).reverse.flatMap atoms

theorem outputAtoms_cons (entry : StridedRegionTemplate × Nat)
    (output : List (StridedRegionTemplate × Nat)) :
    outputAtoms (entry :: output) = outputAtoms output ++ entry.1.atoms := by
  simp [outputAtoms]

/-- What one pass keeps and adds. -/
structure Compacted (output : List (StridedRegionTemplate × Nat))
    (regions : List StridedRegionTemplate) : Prop where
  repeats : ∀ entry ∈ output, entry.1.Repeats
  atoms : outputAtoms output = regions

variable {regions : List StridedRegionTemplate} {candidate : PlannedAtomicRegion}

theorem Compacted.push {output : List (StridedRegionTemplate × Nat)} (h : Compacted output regions)
    (hsingle : candidate.region.Single) :
    Compacted ((candidate.region, candidate.logicalOffset) :: output)
      (regions ++ [candidate.region]) where
  repeats := by
    intro entry hentry
    rcases mem_cons.mp hentry with rfl | hentry
    · exact hsingle.repeats
    · exact h.repeats entry hentry
  atoms := by
    rw [outputAtoms_cons, h.atoms, hsingle.atoms]

theorem Compacted.prolong {rest : List (StridedRegionTemplate × Nat)}
    {previous longer : StridedRegionTemplate}
    {previousLogical logical : Nat} {candidate : StridedRegionTemplate}
    (h : Compacted ((previous, previousLogical) :: rest) regions) (hlonger : longer.Repeats)
    (hatoms : longer.atoms = previous.atoms ++ [candidate]) :
    Compacted ((longer, logical) :: rest) (regions ++ [candidate]) where
  repeats := by
    intro entry hentry
    rcases mem_cons.mp hentry with rfl | hentry
    · exact hlonger
    · exact h.repeats entry (mem_cons_of_mem _ hentry)
  atoms := by
    rw [← h.atoms, outputAtoms_cons, outputAtoms_cons, List.append_assoc, hatoms]

theorem Compacted.step {output : List (StridedRegionTemplate × Nat)} (h : Compacted output regions)
    (hsingle : candidate.region.Single) :
    Compacted (compactStep output candidate) (regions ++ [candidate.region]) := by
  cases output with
  | nil => exact h.push hsingle
  | cons entry rest =>
    obtain ⟨previous, previousLogical⟩ := entry
    rw [compactStep]
    split
    · exact h.push hsingle
    rename_i hkey
    split
    · exact h.push hsingle
    rename_i hafter
    dsimp only
    split
    · exact h.push hsingle
    rename_i hrepeat
    obtain ⟨hpos, hmoves⟩ := h.repeats _ (mem_cons_self ..)
    rw [not_not] at hkey
    simp only [not_or, not_le] at hafter
    obtain ⟨-, hlt, hlt'⟩ := hafter
    rcases Nat.eq_or_lt_of_le hpos with hone | hmany
    · -- the second region of a repeat: it fixes the strides
      have hone : previous.repeatCount = 1 := hone.symm
      simp only [hone, Nat.sub_self, Nat.zero_mul, Nat.add_zero, if_true]
      have hlocal : candidate.region.localOffsetInResource = previous.localOffsetInResource +
          1 * (candidate.region.localOffsetInResource - previous.localOffsetInResource) := by
        omega
      have hremote : candidate.region.remoteOffsetInResource = previous.remoteOffsetInResource +
          1 * (candidate.region.remoteOffsetInResource - previous.remoteOffsetInResource) := by
        omega
      refine h.prolong ⟨Nat.succ_pos _, fun _ => ⟨Nat.sub_pos_of_lt hlt, Nat.sub_pos_of_lt hlt'⟩⟩ ?_
      rw [StridedRegionTemplate.atoms, StridedRegionTemplate.atoms, hone]
      show [_, _] = [_] ++ [_]
      refine congrArg₂ _ ?_ (congrArg₂ _ ?_ rfl)
      · simp [atom]
      · exact atom_eq_of_sameTemplateKey hkey hsingle hlocal hremote
    · have hmany : 1 < previous.repeatCount := hmany
      have hnot : ¬ previous.repeatCount = 1 := by omega
      simp only [hnot, if_false, not_false_eq_true, true_and, not_or, not_not] at hrepeat ⊢
      have hls : 0 < previous.localStride := (hmoves hmany).1
      have hrs : 0 < previous.remoteStride := (hmoves hmany).2
      have hstep (stride : Nat) : previous.repeatCount * stride =
          (previous.repeatCount - 1) * stride + stride := by
        rw [← Nat.succ_mul]
        congr 1
        omega
      have hnext : previous.atom previous.repeatCount = candidate.region := by
        refine atom_eq_of_sameTemplateKey hkey hsingle ?_ ?_
        · rw [hstep]
          omega
        · rw [hstep]
          omega
      refine h.prolong ⟨Nat.succ_pos _, fun _ => ⟨hls, hrs⟩⟩ ?_
      rw [← hnext]
      show (List.range (previous.repeatCount + 1)).map previous.atom =
        (List.range previous.repeatCount).map previous.atom ++ [previous.atom previous.repeatCount]
      rw [range_succ, map_append]
      rfl

/-- A compacted plan holds the planned regions. -/
theorem atoms_compactPlannedRegions {candidates : List PlannedAtomicRegion}
    (h : ∀ candidate ∈ candidates, candidate.region.Single) :
    (compactPlannedRegions candidates).flatMap atoms =
      (candidates.insertionSort plannedLe).map (·.region) := by
  have hrun (xs : List PlannedAtomicRegion) (hxs : ∀ x ∈ xs, x.region.Single) :
      ∀ (output : List (StridedRegionTemplate × Nat)) (regions : List StridedRegionTemplate),
        Compacted output regions →
          Compacted (xs.foldl compactStep output) (regions ++ xs.map (·.region)) := by
    induction xs with
    | nil =>
      intro output regions hc
      rwa [map_nil, append_nil]
    | cons x xs ih =>
      intro output regions hc
      have := ih (fun y hy => hxs y (mem_cons_of_mem _ hy)) _ _
        (hc.step (hxs x (mem_cons_self ..)))
      rwa [List.append_assoc] at this
  have hsorted : ∀ x ∈ candidates.insertionSort plannedLe, x.region.Single := fun x hx =>
    h x ((perm_insertionSort plannedLe candidates).mem_iff.mp hx)
  exact (hrun _ hsorted [] [] ⟨nofun, rfl⟩).atoms

/-! ## Overlaps -/

def overlaps (left right : AtomicLogicalRegion) : Bool :=
  left.logicalOffset < logicalEnd right ∧ right.logicalOffset < logicalEnd left

def Ascending (group : RegionGroup) : Prop :=
  group.Pairwise (fun l r => l.logicalOffset ≤ r.logicalOffset)

theorem ascending_regionGroup (regions : List AtomicLogicalRegion) (key : LogicalTensorKey) :
    Ascending (regionGroup regions key) := by
  have htotal : Std.Total regionLe := ⟨fun l r => by rw [regionLe, regionLe]; omega⟩
  have htrans : IsTrans _ regionLe := ⟨fun l r t h h' => by rw [regionLe] at *; omega⟩
  have hsorted := pairwise_insertionSort regionLe
    (regions.filter (logicalTensorKey · = key))
  refine hsorted.imp fun {l r} h => ?_
  rw [regionLe] at h
  omega

theorem perm_regionGroup (regions : List AtomicLogicalRegion) (key : LogicalTensorKey) :
    (regionGroup regions key).Perm (regions.filter (logicalTensorKey · = key)) :=
  perm_insertionSort _ _

variable {key : LogicalTensorKey}

theorem logicalTensorKey_of_mem_regionGroup {regions : List AtomicLogicalRegion}
    {region : AtomicLogicalRegion}
    (h : region ∈ regionGroup regions key) : logicalTensorKey region = key := by
  have := ((perm_regionGroup regions key).mem_iff.mp h)
  simpa using (mem_filter.mp this).2

theorem filter_overlaps_dropWhile {left : AtomicLogicalRegion} {bound : Nat}
    (hbound : bound ≤ left.logicalOffset) (right : RegionGroup) :
    (right.dropWhile (logicalEnd · ≤ bound)).filter (overlaps left) =
      right.filter (overlaps left) := by
  induction right with
  | nil => rfl
  | cons region rest ih =>
    rw [dropWhile_cons]
    split
    · rename_i hend
      rw [ih, filter_cons_of_neg]
      simp only [decide_eq_true_eq] at hend
      simp only [overlaps, decide_eq_true_eq]
      omega
    · rfl

variable {state state' : List PlannedAtomicRegion}

theorem visitRight_visitPlan {left : AtomicLogicalRegion} {right : RegionGroup}
    (hright : Ascending right) (h : visitRight visitPlan left right state = .ok state') :
    state' = state ++ (right.filter (overlaps left)).map (planOverlap left) := by
  induction right generalizing state with
  | nil =>
    cases h
    simp
  | cons region rest ih =>
    obtain ⟨hfirst, hrest⟩ := pairwise_cons.mp hright
    rw [visitRight] at h
    split at h
    · -- the rest begins after `left` too
      cases h
      have hnone : (region :: rest).filter (overlaps left) = [] := by
        refine filter_eq_nil_iff.mpr fun r hr => ?_
        simp only [overlaps, decide_eq_true_eq]
        rcases mem_cons.mp hr with rfl | hr
        · omega
        · have := hfirst r hr
          omega
      rw [hnone, map_nil, append_nil]
    · split at h
      · rw [ih hrest h, filter_cons_of_neg]
        simp only [overlaps, decide_eq_true_eq]
        omega
      · obtain ⟨middle, hvisit, h⟩ := bind_eq_ok.mp h
        obtain ⟨-, -, hvisit⟩ := bind_eq_ok.mp hvisit
        cases hvisit
        rw [ih hrest h, filter_cons_of_pos, map_cons, List.append_assoc]
        · rfl
        · simp only [overlaps, decide_eq_true_eq]
          omega

theorem visitOverlaps_eq {left right : RegionGroup}
    (hleft : Ascending left) (hright : Ascending right)
    (h : visitOverlaps visitPlan left right state = .ok state') :
    state' = state ++ left.flatMap fun l => (right.filter (overlaps l)).map (planOverlap l) := by
  induction left generalizing right state with
  | nil =>
    cases h
    simp
  | cons region rest ih =>
    obtain ⟨hfirst, hrest⟩ := pairwise_cons.mp hleft
    obtain ⟨middle, hvisit, h⟩ := bind_eq_ok.mp h
    have hdrop : Ascending (right.dropWhile (logicalEnd · ≤ region.logicalOffset)) :=
      hright.sublist (dropWhile_sublist _)
    rw [ih hrest hdrop h, visitRight_visitPlan hdrop hvisit, flatMap_cons,
      filter_overlaps_dropWhile (Nat.le_refl _), List.append_assoc]
    refine congrArg _ (congrArg _ (flatMap_congr fun l hl => ?_))
    rw [filter_overlaps_dropWhile (hfirst l hl)]

/-! ## Groups -/

def plannedOverlaps (sources destinations : List AtomicLogicalRegion) : List PlannedAtomicRegion :=
  sources.flatMap fun l => (destinations.filter (overlaps l)).map (planOverlap l)

theorem lookup_groupRegions (regions : List AtomicLogicalRegion) (key : LogicalTensorKey) :
    (groupRegions regions).lookup key =
      if key ∈ regions.map logicalTensorKey then some (regionGroup regions key) else none := by
  have hmap (keys : List LogicalTensorKey) :
      (keys.map fun k => (k, regionGroup regions k)).lookup key =
        if key ∈ keys then some (regionGroup regions key) else none := by
    induction keys with
    | nil => rfl
    | cons k keys ih =>
      rw [map_cons, lookup_cons, ih]
      by_cases hk : key = k
      · simp [hk]
      · have hne : (key == k) = false := beq_eq_false_iff_ne.mpr hk
        simp [hne, hk]
  rw [groupRegions, hmap]
  refine if_congr ?_ rfl rfl
  rw [(perm_insertionSort keyLe _).mem_iff, mem_dedup]

theorem regionGroup_eq_nil {regions : List AtomicLogicalRegion}
    (h : key ∉ regions.map logicalTensorKey) : regionGroup regions key = [] := by
  have hnil : regions.filter (logicalTensorKey · = key) = [] := by
    refine filter_eq_nil_iff.mpr fun region hregion hkey => h ?_
    exact mem_map.mpr ⟨region, hregion, by simpa using hkey⟩
  rw [regionGroup, hnil]
  rfl

variable {destinations sources : List AtomicLogicalRegion}

/-- The loop over the groups plans the overlaps of each key. -/
theorem planGroups_eq {keys : List LogicalTensorKey} (h : planGroups (groupRegions destinations)
      (keys.map fun key => (key, regionGroup sources key)) state = .ok state') :
    state' = state ++ keys.flatMap fun key =>
      plannedOverlaps (regionGroup sources key) (regionGroup destinations key) := by
  induction keys generalizing state with
  | nil =>
    cases h
    simp
  | cons key keys ih =>
    rw [map_cons, planGroups, lookup_groupRegions] at h
    by_cases hkey : key ∈ destinations.map logicalTensorKey
    · rw [if_pos hkey] at h
      obtain ⟨middle, hvisit, h⟩ := bind_eq_ok.mp h
      have hleft := ascending_regionGroup sources key
      have hright := ascending_regionGroup destinations key
      rw [ih h, visitOverlaps_eq hleft hright hvisit, flatMap_cons, List.append_assoc]
      rfl
    · rw [if_neg hkey] at h
      rw [ih h, flatMap_cons, regionGroup_eq_nil hkey]
      simp [plannedOverlaps]

def templateKey (t : StridedRegionTemplate) : LogicalTensorKey :=
  ⟨t.cacheNamespace, t.layerId, t.role, t.groupId, t.logicalTensor⟩

theorem single_planOverlap (source destination : AtomicLogicalRegion) :
    (planOverlap source destination).region.Single := ⟨rfl, rfl, rfl⟩

theorem mem_plannedOverlaps (h : candidate ∈ plannedOverlaps sources destinations) :
    ∃ l ∈ sources, ∃ r ∈ destinations, candidate = planOverlap l r := by
  obtain ⟨l, hl, h⟩ := mem_flatMap.mp h
  obtain ⟨r, hr, rfl⟩ := mem_map.mp h
  exact ⟨l, hl, r, (mem_filter.mp hr).1, rfl⟩

/-- Of the planned regions those of one key are the overlaps of its two groups. -/
theorem filter_planGroups {candidates : List PlannedAtomicRegion}
    (h : planGroups (groupRegions destinations) (groupRegions sources) [] = .ok candidates)
    (key : LogicalTensorKey) :
    candidates.filter (templateKey ·.region = key) =
      plannedOverlaps (regionGroup sources key) (regionGroup destinations key) := by
  rw [planGroups_eq h, nil_append, filter_flatMap]
  have hpart (k : LogicalTensorKey) :
      (plannedOverlaps (regionGroup sources k) (regionGroup destinations k)).filter
          (templateKey ·.region = key) =
        if k = key then plannedOverlaps (regionGroup sources k) (regionGroup destinations k)
        else [] := by
    have hkey (candidate : PlannedAtomicRegion) (hc : candidate ∈
        plannedOverlaps (regionGroup sources k) (regionGroup destinations k)) :
        templateKey candidate.region = k := by
      obtain ⟨l, hl, r, -, rfl⟩ := mem_plannedOverlaps hc
      exact logicalTensorKey_of_mem_regionGroup hl
    split
    · rename_i hk
      refine filter_eq_self.mpr fun candidate hc => ?_
      simpa [hk] using hkey candidate hc
    · rename_i hk
      refine filter_eq_nil_iff.mpr fun candidate hc => ?_
      simpa [hkey candidate hc] using hk
  simp only [hpart]
  have hnodup : ((sources.map logicalTensorKey).dedup.insertionSort keyLe).Nodup :=
    (perm_insertionSort keyLe _).nodup_iff.mpr (nodup_dedup _)
  by_cases hmem : key ∈ (sources.map logicalTensorKey).dedup.insertionSort keyLe
  · rw [flatMap_eq_single hnodup hmem fun k _ hne => if_neg hne, if_pos rfl]
  · rw [(perm_insertionSort keyLe _).mem_iff, mem_dedup] at hmem
    rw [regionGroup_eq_nil hmem, flatMap_eq_nil_iff.mpr fun k hk => ?_]
    · rfl
    · rw [(perm_insertionSort keyLe _).mem_iff, mem_dedup] at hk
      exact if_neg fun (heq : k = key) => hmem (heq ▸ hk)

/-! ## Bytes -/

/-- One byte that a transfer writes: the rank it comes from, its place in the resource there, and
its place in the destination's resource. -/
structure WrittenByte where
  tpRank : Int
  localByte : Nat
  remoteByte : Nat
  deriving DecidableEq, Repr

/-- The bytes of one region of a repeat. -/
def atomWrites (tpRank : Int) (t : StridedRegionTemplate) : List WrittenByte :=
  (List.range t.bytesPerRegion).map fun byte =>
    ⟨tpRank, t.localOffsetInResource + byte, t.remoteOffsetInResource + byte⟩

/-- The bytes of a strided region, as the binding of a plan unrolls it. -/
def regionWrites (tpRank : Int) (t : StridedRegionTemplate) : List WrittenByte :=
  (List.range t.repeatCount).flatMap fun i =>
    (List.range t.bytesPerRegion).map fun byte =>
      ⟨tpRank, t.localOffsetInResource + i * t.localStride + byte,
        t.remoteOffsetInResource + i * t.remoteStride + byte⟩

/-- The bytes a plan writes of one logical tensor. -/
def planWrites (key : LogicalTensorKey) (plan : ReshardPlanTemplate) : List WrittenByte :=
  (plan.regions.filter (templateKey · = key)).flatMap
    (regionWrites plan.sourceCoordinates.tpRank)

theorem regionWrites_eq (tpRank : Int) (t : StridedRegionTemplate) :
    regionWrites tpRank t = t.atoms.flatMap (atomWrites tpRank) := by
  rw [StridedRegionTemplate.atoms, flatMap_map]
  rfl

theorem filter_flatMap_atoms (regions : List StridedRegionTemplate) (key : LogicalTensorKey) :
    (regions.filter (templateKey · = key)).flatMap atoms =
      (regions.flatMap atoms).filter (templateKey · = key) := by
  rw [filter_flatMap]
  induction regions with
  | nil => rfl
  | cons t regions ih =>
    have hatoms : t.atoms.filter (templateKey · = key) =
        if templateKey t = key then t.atoms else [] := by
      split
      · rename_i hkey
        refine filter_eq_self.mpr fun a ha => ?_
        obtain ⟨i, -, rfl⟩ := mem_map.mp ha
        exact decide_eq_true (p := templateKey (t.atom i) = key) hkey
      · rename_i hkey
        refine filter_eq_nil_iff.mpr fun a ha => ?_
        obtain ⟨i, -, rfl⟩ := mem_map.mp ha
        exact fun h => hkey (of_decide_eq_true h)
    rw [filter_cons, flatMap_cons, hatoms]
    by_cases hkey : templateKey t = key
    · simp only [hkey, decide_true, if_true, flatMap_cons, ih]
    · simp only [hkey, decide_false, Bool.false_eq_true, if_false, nil_append, ih]

/-- An index tensor. -/
def IndexRole (role : Int) : Prop :=
  role = KVCacheTensorRole.INDEX.value ∨ role = KVCacheTensorRole.INDEX_SCALE.value

theorem selectIndexPage_eq {kvSplitRank : Int} {t t' : StridedRegionTemplate}
    (h : selectIndexPage kvSplitRank t = .ok t') :
    templateKey t' = templateKey t ∧ (¬ IndexRole t.role → t' = t) := by
  rw [selectIndexPage] at h
  dsimp only at h
  split at h
  · cases h
    exact ⟨rfl, fun _ => rfl⟩
  · rename_i hindex
    split at h
    · cases h
    · cases h
      refine ⟨rfl, fun hrole => absurd hrole ?_⟩
      rw [not_or, not_not] at hindex
      exact not_not_intro hindex.1

/-- The page selection leaves the regions of other tensors as they are. -/
theorem filter_selectReplicatedIndexSourcePage {source : WorkerCacheLayoutManifest} {mode : Int}
    {regions' : List StridedRegionTemplate} (hrole : ¬ IndexRole key.role)
    (h : selectReplicatedIndexSourcePage source mode regions = .ok regions') :
    regions'.filter (templateKey · = key) = regions.filter (templateKey · = key) := by
  rw [selectReplicatedIndexSourcePage] at h
  split at h
  · cases h
    rfl
  split at h
  · cases h
    rfl
  · induction regions generalizing regions' with
    | nil =>
      cases h
      rfl
    | cons t regions ih =>
      rw [mapM_cons] at h
      obtain ⟨t', ht, h⟩ := bind_eq_ok.mp h
      obtain ⟨rest, hrest, h⟩ := bind_eq_ok.mp h
      cases h
      obtain ⟨hkey, hsame⟩ := selectIndexPage_eq ht
      rw [filter_cons, filter_cons, hkey, ih hrest]
      split
      · rename_i heq
        rw [hsame]
        have : t.role = key.role := by
          rw [decide_eq_true_eq] at heq
          rw [← heq]
          rfl
        rwa [this]
      · rfl

/-- **The bytes a plan writes of a tensor** are those its regions share with the destination's. -/
theorem planWrites_perm {source destination : WorkerCacheLayoutManifest} {mode : Int}
    {includeReplicas : Bool} {plan : ReshardPlanTemplate}
    (hplan : buildOutgoingPlan source destination includeReplicas mode = .ok plan)
    (hrole : ¬ IndexRole key.role) :
    (planWrites key plan).Perm
      (((expandManifest source (if includeReplicas then SpanWriters.everything
          else sourceWriters source.coordinates)).filter (logicalTensorKey · = key)).flatMap
        fun l => (((expandManifest destination SpanWriters.everything).filter
            (logicalTensorKey · = key)).filter (overlaps l)).flatMap
          fun r => atomWrites source.coordinates.tpRank (planOverlap l r).region) := by
  obtain ⟨-, -, hplan⟩ := bind_eq_ok.mp hplan
  obtain ⟨candidates, hcandidates, hplan⟩ := bind_eq_ok.mp hplan
  obtain ⟨regions, hregions, hplan⟩ := bind_eq_ok.mp hplan
  cases hplan
  have hsingle : ∀ candidate ∈ candidates, candidate.region.Single := by
    intro candidate hc
    have hmem : candidate ∈ candidates.filter (templateKey ·.region = templateKey candidate.region) :=
      mem_filter.mpr ⟨hc, by simp⟩
    rw [filter_planGroups hcandidates] at hmem
    obtain ⟨l, -, r, -, rfl⟩ := mem_plannedOverlaps hmem
    exact single_planOverlap l r
  have hatoms : ((regions.filter (templateKey · = key)).flatMap atoms).Perm
      ((plannedOverlaps (regionGroup (expandManifest source (if includeReplicas then
          SpanWriters.everything else sourceWriters source.coordinates)) key)
        (regionGroup (expandManifest destination SpanWriters.everything) key)).map (·.region)) := by
    rw [filter_selectReplicatedIndexSourcePage hrole hregions, filter_flatMap_atoms,
      atoms_compactPlannedRegions hsingle, filter_map]
    rw [← filter_planGroups hcandidates key]
    exact ((perm_insertionSort plannedLe candidates).filter _).map _
  have hbytes := hatoms.flatMap_right (atomWrites source.coordinates.tpRank)
  rw [planWrites, funext (regionWrites_eq _), ← flatMap_assoc]
  refine hbytes.trans ?_
  rw [plannedOverlaps, flatMap_map, flatMap_assoc]
  simp only [flatMap_map]
  refine List.Perm.flatMap (perm_regionGroup _ key) fun l _ => ?_
  exact ((perm_regionGroup _ key).filter _).flatMap_right _

end Xllm.Framework
