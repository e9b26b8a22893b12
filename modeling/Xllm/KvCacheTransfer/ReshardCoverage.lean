import Xllm.KvCacheTransfer.HeadRegions
import Xllm.KvCacheTransfer.ReshardSelection

/-!
# What the coverage check accepts

`validate_coverage_for_sources` accepts the regions of a destination exactly when every one of them
is of a tensor with a writer, the regions that meet agree on the type of the tensor, and every
logical byte has one writer or is the tail of an expanded linear-state tensor
(`validateCoverageForSources_eq_ok`).

The sweep counts the writers of a byte (`levelAt_coverage`). Its loop over a destination region goes
from point to point and the count changes at the points only, so a stretch is accepted exactly when
its bytes are (`checkDestination_eq_ok`).
-/

namespace Xllm.Framework

open Xllm.Lib List

/-! ## One destination region -/

variable {expanded : Bool} {coverageEnd cursor : Nat} {writers : Int} {u : Unit}

theorem checkStretch_eq_ok {next : Nat} :
    checkStretch expanded coverageEnd cursor next writers = .ok u ↔
      (cursor < next → writers = 1 ∨ expanded = true ∧ writers = 0 ∧ coverageEnd ≤ cursor) := by
  rw [checkStretch]
  split
  · rename_i hother
    rw [imp_iff_right hother.1, or_iff_right hother.2]
    split
    · rename_i hexempt
      exact iff_of_true rfl hexempt
    · rename_i hexempt
      refine iff_of_false ?_ hexempt
      split <;> exact nofun
  · rename_i hone
    rw [not_and, not_not] at hone
    exact iff_of_true rfl fun hlt => Or.inl (hone hlt)

/-- The loop looks at every byte from the cursor on. -/
theorem checkDestination_eq_ok {stop : Nat} {points : List (Nat × Int)}
    (hascending : points.Pairwise (fun l r => l.1 < r.1))
    (hpast : ∀ point ∈ points, cursor < point.1) :
    checkDestination expanded coverageEnd stop points cursor writers = .ok u ↔
      ∀ x, cursor ≤ x → x < stop → levelAt points writers x = 1 ∨
        expanded = true ∧ levelAt points writers x = 0 ∧ coverageEnd ≤ x := by
  induction points generalizing cursor writers with
  | nil =>
    rw [checkDestination]
    by_cases hstop : cursor < stop
    · rw [if_pos hstop, checkStretch_eq_ok, imp_iff_right hstop]
      constructor
      · rintro (hone | ⟨hexpanded, hzero, hend⟩) x hx -
        · exact Or.inl hone
        · exact Or.inr ⟨hexpanded, hzero, by omega⟩
      · exact fun h => h cursor (Nat.le_refl _) hstop
    · rw [if_neg hstop]
      exact iff_of_true rfl fun x hx hx' => absurd hx' (by omega)
  | cons point rest ih =>
    obtain ⟨hfirst, hrest⟩ := pairwise_cons.mp hascending
    have hpoint := hpast point (mem_cons_self ..)
    rw [checkDestination]
    by_cases hstop : cursor < stop
    · rw [if_pos hstop, bind_eq_ok]
      -- a stretch is as its first byte is, and past the next point the loop goes on
      constructor
      · rintro ⟨_, hstretch, h⟩ x hx hx'
        rw [levelAt]
        by_cases hbefore : point.1 ≤ x
        · rw [if_pos hbefore]
          rw [if_pos (by omega), Nat.min_eq_right (by omega)] at h
          exact (ih hrest hfirst).mp h x hbefore hx'
        · rw [if_neg hbefore]
          rcases checkStretch_eq_ok.mp hstretch (by omega) with hone | ⟨hexpanded, hzero, hend⟩
          · exact Or.inl hone
          · exact Or.inr ⟨hexpanded, hzero, by omega⟩
      · intro h
        refine ⟨(), checkStretch_eq_ok.mpr fun _ => ?_, ?_⟩
        · have hcursor := h cursor (Nat.le_refl _) hstop
          rwa [levelAt, if_neg (by omega)] at hcursor
        · split
          · rename_i hnext
            rw [Nat.min_eq_right (by omega)]
            refine (ih hrest hfirst).mpr fun x hx hx' => ?_
            have hlevel := h x (by omega) hx'
            rwa [levelAt, if_pos hx] at hlevel
          · rfl
    · rw [if_neg hstop]
      exact iff_of_true rfl fun x hx hx' => absurd hx' (by omega)

variable {sources : RegionGroup}

/-- The regions that pass are those that are covered. -/
theorem checkDestinations_eq_ok {role : Int} {destinations : RegionGroup} :
    checkDestinations role sources (coverage (sources.map logicalInterval)) destinations = .ok u ↔
      ∀ destination ∈ destinations, ∀ x,
        destination.logicalOffset ≤ x → x < logicalEnd destination →
          coverCount (sources.map logicalInterval) x = 1 ∨
            expandedShape role sources destination ∧
              coverCount (sources.map logicalInterval) x = 0 ∧ sourceCoverageEnd sources ≤ x := by
  have hascending := ascending_coverage (sources.map logicalInterval)
  have hordered : ∀ interval ∈ sources.map logicalInterval, interval.1 ≤ interval.2 := by
    intro interval hinterval
    obtain ⟨source, -, rfl⟩ := mem_map.mp hinterval
    exact Nat.le_add_right _ _
  induction destinations with
  | nil => exact iff_of_true rfl fun _ hd => absurd hd not_mem_nil
  | cons destination rest ih =>
    rw [checkDestinations, bind_eq_ok, forall_mem_cons]
    have hbytes : checkDestination (expandedShape role sources destination)
          (sourceCoverageEnd sources) (logicalEnd destination)
          ((coverage (sources.map logicalInterval)).dropWhile (·.1 ≤ destination.logicalOffset))
          destination.logicalOffset
          (levelBefore (coverage (sources.map logicalInterval)) 0 destination.logicalOffset) =
            .ok () ↔
        ∀ x, destination.logicalOffset ≤ x → x < logicalEnd destination →
          coverCount (sources.map logicalInterval) x = 1 ∨
            expandedShape role sources destination ∧
              coverCount (sources.map logicalInterval) x = 0 ∧ sourceCoverageEnd sources ≤ x := by
      refine (checkDestination_eq_ok (hascending.sublist (dropWhile_sublist _))
        (lt_of_mem_dropWhile hascending)).trans (forall₃_congr fun x hx _ => ?_)
      rw [levelAt_dropWhile _ _ hx, levelAt_coverage hordered, decide_eq_true_iff]
      norm_cast
    exact ⟨fun ⟨_, hfirst, h⟩ => ⟨hbytes.mp hfirst, ih.mp h⟩,
      fun ⟨hfirst, h⟩ => ⟨(), hbytes.mpr hfirst, ih.mpr h⟩⟩

/-! ## Matching tensors -/

section Visit

variable {pair : AtomicLogicalRegion → AtomicLogicalRegion → Except String Unit}

theorem visitRight_eq_ok {left : AtomicLogicalRegion} {right : RegionGroup}
    (hright : Ascending right) :
    visitRight (fun _ => pair) left right () = .ok u ↔
      ∀ r ∈ right, overlaps left r = true → pair left r = .ok () := by
  induction right with
  | nil => exact iff_of_true rfl fun _ hr => absurd hr not_mem_nil
  | cons region rest ih =>
    obtain ⟨hfirst, hrest⟩ := pairwise_cons.mp hright
    rw [visitRight, forall_mem_cons]
    split
    · -- the rest begins after `left` too
      refine iff_of_true rfl ⟨fun hmeet => ?_, fun r hr hmeet => ?_⟩
      · rw [overlaps, decide_eq_true_iff] at hmeet
        omega
      · have := hfirst r hr
        rw [overlaps, decide_eq_true_iff] at hmeet
        omega
    · split
      · rw [ih hrest]
        refine (and_iff_right fun hmeet => ?_).symm
        rw [overlaps, decide_eq_true_iff] at hmeet
        omega
      · have hmeet : overlaps left region = true := by
          rw [overlaps, decide_eq_true_iff]
          omega
        rw [bind_eq_ok, imp_iff_right hmeet]
        constructor
        · rintro ⟨_, hpair, h⟩
          exact ⟨hpair, (ih hrest).mp h⟩
        · rintro ⟨hpair, h⟩
          exact ⟨(), hpair, (ih hrest).mpr h⟩

/-- The loops look at every pair that overlaps, and at no other. -/
theorem visitOverlaps_eq_ok {left right : RegionGroup} (hleft : Ascending left)
    (hright : Ascending right) :
    visitOverlaps (fun _ => pair) left right () = .ok u ↔
      ∀ l ∈ left, ∀ r ∈ right, overlaps l r = true → pair l r = .ok () := by
  induction left generalizing right with
  | nil => exact iff_of_true rfl fun _ hl => absurd hl not_mem_nil
  | cons region rest ih =>
    obtain ⟨hfirst, hrest⟩ := pairwise_cons.mp hleft
    have hdrop : Ascending (right.dropWhile (logicalEnd · ≤ region.logicalOffset)) :=
      hright.sublist (dropWhile_sublist _)
    have hpairs {l : AtomicLogicalRegion} (hl : region.logicalOffset ≤ l.logicalOffset) :
        (∀ r ∈ right.dropWhile (logicalEnd · ≤ region.logicalOffset),
          overlaps l r = true → pair l r = .ok ()) ↔
        ∀ r ∈ right, overlaps l r = true → pair l r = .ok () := by
      have hsame := filter_overlaps_dropWhile hl right
      constructor <;> intro h r hr hmeet
      · exact h r (mem_filter.mp (hsame ▸ mem_filter.mpr ⟨hr, hmeet⟩)).1 hmeet
      · exact h r (mem_filter.mp (hsame ▸ mem_filter.mpr ⟨hr, hmeet⟩)).1 hmeet
    rw [visitOverlaps, bind_eq_ok, forall_mem_cons]
    constructor
    · rintro ⟨_, hvisit, h⟩
      exact ⟨(hpairs (Nat.le_refl _)).mp ((visitRight_eq_ok hdrop).mp hvisit),
        fun l hl => (hpairs (hfirst l hl)).mp ((ih hrest hdrop).mp h l hl)⟩
    · rintro ⟨hvisit, h⟩
      exact ⟨(), (visitRight_eq_ok hdrop).mpr ((hpairs (Nat.le_refl _)).mpr hvisit),
        (ih hrest hdrop).mpr fun l hl => (hpairs (hfirst l hl)).mpr (h l hl)⟩

end Visit

/-! ## All groups -/

/-- The regions of `key` that hold the logical byte `x`. -/
def writerCount (regions : List AtomicLogicalRegion) (key : LogicalTensorKey) (x : Nat) : Nat :=
  regions.countP fun region =>
    logicalTensorKey region = key ∧ region.logicalOffset ≤ x ∧ x < logicalEnd region

/-- The tail of an expanded linear-state tensor, past the end of all its sources. -/
structure Exempt (sources : List AtomicLogicalRegion) (destination : AtomicLogicalRegion) (x : Nat) :
    Prop where
  linear : isLinearStateRole destination.role
  sourced : ∃ source ∈ sources, logicalTensorKey source = logicalTensorKey destination
  expanded : ∀ source ∈ sources, logicalTensorKey source = logicalTensorKey destination →
    source.tensor.physicalRowsPerResource = 1 ∧
      expandedAgainst destination.role destination source
  tail : ∀ source ∈ sources, logicalTensorKey source = logicalTensorKey destination →
    logicalEnd source ≤ x

theorem coverCount_regionGroup (regions : List AtomicLogicalRegion) (key : LogicalTensorKey)
    (x : Nat) :
    coverCount ((regionGroup regions key).map logicalInterval) x = writerCount regions key x := by
  rw [coverCount, countP_map, (perm_regionGroup regions key).countP_eq, countP_filter,
    writerCount]
  refine countP_congr fun region _ => ?_
  rw [Bool.and_eq_true, Function.comp_apply, decide_eq_true_iff, decide_eq_true_iff,
    decide_eq_true_iff]
  exact and_comm

variable {regions : List AtomicLogicalRegion} {region : AtomicLogicalRegion}

theorem mem_regionGroup {key : LogicalTensorKey}
    :
    region ∈ regionGroup regions key ↔ region ∈ regions ∧ logicalTensorKey region = key := by
  rw [(perm_regionGroup regions key).mem_iff, mem_filter, decide_eq_true_eq]

theorem mem_groupRegions {entry : LogicalTensorKey × RegionGroup} :
    entry ∈ groupRegions regions ↔
      entry.1 ∈ regions.map logicalTensorKey ∧ entry.2 = regionGroup regions entry.1 := by
  obtain ⟨key, group⟩ := entry
  rw [groupRegions, mem_map]
  constructor
  · rintro ⟨k, hk, heq⟩
    cases heq
    rw [(perm_insertionSort keyLe _).mem_iff, mem_dedup] at hk
    exact ⟨hk, rfl⟩
  · rintro ⟨hkey, hgroup⟩
    refine ⟨key, ?_, Prod.ext rfl hgroup.symm⟩
    rwa [(perm_insertionSort keyLe _).mem_iff, mem_dedup]

theorem sourceCoverageEnd_le_iff {stop : Nat} :
    sourceCoverageEnd sources ≤ stop ↔ ∀ source ∈ sources, logicalEnd source ≤ stop := by
  have hfold (xs : RegionGroup) (start : Nat) :
      xs.foldl (fun stop source => max stop (logicalEnd source)) start ≤ stop ↔
        start ≤ stop ∧ ∀ x ∈ xs, logicalEnd x ≤ stop := by
    induction xs generalizing start with
    | nil => simp
    | cons y ys ih => rw [foldl_cons, ih, forall_mem_cons, max_le_iff, and_assoc]
  rw [sourceCoverageEnd, hfold, and_iff_right (Nat.zero_le _)]

theorem checkGroups_eq_ok {sourceGroups groups : RegionGroups} :
    checkGroups sourceGroups groups = .ok u ↔
      ∀ entry ∈ groups, ∃ sources, sourceGroups.lookup entry.1 = some sources ∧
        visitOverlaps (fun _ => validateTensorPair) sources entry.2 () = .ok () ∧
        checkDestinations entry.1.role sources (coverage (sources.map logicalInterval)) entry.2 =
          .ok () := by
  induction groups with
  | nil => exact iff_of_true rfl fun _ he => absurd he not_mem_nil
  | cons entry rest ih =>
    obtain ⟨key, destinations⟩ := entry
    rw [checkGroups, forall_mem_cons]
    cases hlookup : sourceGroups.lookup key with
    | none => exact iff_of_false nofun fun h => by simp at h
    | some sources =>
      constructor
      · intro h
        obtain ⟨_, hvisit, h⟩ := bind_eq_ok.mp h
        obtain ⟨_, hcheck, h⟩ := bind_eq_ok.mp h
        exact ⟨⟨sources, rfl, hvisit, hcheck⟩, ih.mp h⟩
      · rintro ⟨⟨_, hsome, hvisit, hcheck⟩, h⟩
        cases hsome
        exact bind_eq_ok.mpr ⟨(), hvisit, bind_eq_ok.mpr ⟨(), hcheck, ih.mpr h⟩⟩

variable {destinations : List AtomicLogicalRegion}

/-- What the sweep of one tensor calls exempt. -/
theorem exempt_iff {sources : List AtomicLogicalRegion} {x : Nat}
    (hsourced : ∃ source ∈ sources, logicalTensorKey source = logicalTensorKey region) :
    Exempt sources region x ↔
      expandedShape region.role (regionGroup sources (logicalTensorKey region)) region ∧
        coverCount ((regionGroup sources (logicalTensorKey region)).map logicalInterval) x = 0 ∧
          sourceCoverageEnd (regionGroup sources (logicalTensorKey region)) ≤ x := by
  constructor
  · intro h
    have htail : ∀ source ∈ regionGroup sources (logicalTensorKey region),
        logicalEnd source ≤ x :=
      fun source hs => h.tail source (mem_regionGroup.mp hs).1 (mem_regionGroup.mp hs).2
    refine ⟨⟨⟨h.linear, fun source hs => ?_⟩, fun source hs => ?_⟩, ?_, ?_⟩
    · exact (h.expanded source (mem_regionGroup.mp hs).1 (mem_regionGroup.mp hs).2).1
    · exact (h.expanded source (mem_regionGroup.mp hs).1 (mem_regionGroup.mp hs).2).2
    · rw [coverCount, countP_eq_zero]
      intro interval hinterval
      obtain ⟨source, hs, rfl⟩ := mem_map.mp hinterval
      have := htail source hs
      show ¬ decide (source.logicalOffset ≤ x ∧ x < logicalEnd source) = true
      rw [decide_eq_true_iff]
      omega
    · exact sourceCoverageEnd_le_iff.mpr htail
  · rintro ⟨⟨⟨hlinear, hrows⟩, hexpanded⟩, -, htail⟩
    refine ⟨hlinear, hsourced, fun source hs hk => ?_, fun source hs hk => ?_⟩
    · have hmem := mem_regionGroup.mpr ⟨hs, hk⟩
      exact ⟨hrows source hmem, hexpanded source hmem⟩
    · exact sourceCoverageEnd_le_iff.mp htail source (mem_regionGroup.mpr ⟨hs, hk⟩)

/-- **What the coverage check accepts**: every region of the destination is of a tensor with a
writer, the regions that share bytes agree on the type of the tensor, and every logical byte has one
writer or is exempt. -/
theorem validateCoverageForSources_eq_ok {sources : List AtomicLogicalRegion} :
    validateCoverageForSources sources (groupRegions destinations) = .ok u ↔
      ∀ region ∈ destinations,
        (∃ source ∈ sources, logicalTensorKey source = logicalTensorKey region) ∧
        (∀ source ∈ sources, logicalTensorKey source = logicalTensorKey region →
          overlaps source region = true → validateTensorPair source region = .ok ()) ∧
        ∀ x, region.logicalOffset ≤ x → x < logicalEnd region →
          writerCount sources (logicalTensorKey region) x = 1 ∨ Exempt sources region x := by
  rw [validateCoverageForSources, checkGroups_eq_ok]
  constructor
  · intro h region hregion
    obtain ⟨group, hlookup, hvisit, hcheck⟩ := h
      (logicalTensorKey region, regionGroup destinations (logicalTensorKey region))
      (mem_groupRegions.mpr ⟨mem_map_of_mem hregion, rfl⟩)
    have hmem := mem_regionGroup.mpr ⟨hregion, rfl⟩
    rw [lookup_groupRegions] at hlookup
    by_cases hkey : logicalTensorKey region ∈ sources.map logicalTensorKey
    · rw [if_pos hkey] at hlookup
      cases hlookup
      refine ⟨mem_map.mp hkey, fun source hs hk => ?_, fun x hx hx' => ?_⟩
      · exact (visitOverlaps_eq_ok (ascending_regionGroup _ _) (ascending_regionGroup _ _)).mp
          hvisit source (mem_regionGroup.mpr ⟨hs, hk⟩) region hmem
      · rw [exempt_iff (mem_map.mp hkey), ← coverCount_regionGroup]
        exact_mod_cast checkDestinations_eq_ok.mp hcheck region hmem x hx hx'
    · rw [if_neg hkey] at hlookup
      cases hlookup
  · rintro h ⟨key, group⟩ hentry
    obtain ⟨hkey, hgroup⟩ := mem_groupRegions.mp hentry
    dsimp only at hkey hgroup ⊢
    subst hgroup
    obtain ⟨region, hregion, rfl⟩ := mem_map.mp hkey
    refine ⟨regionGroup sources (logicalTensorKey region), ?_, ?_, ?_⟩
    · rw [lookup_groupRegions, if_pos (mem_map.mpr (h region hregion).1)]
    · refine (visitOverlaps_eq_ok (ascending_regionGroup _ _) (ascending_regionGroup _ _)).mpr ?_
      intro source hs other hother
      obtain ⟨hother, hkey'⟩ := mem_regionGroup.mp hother
      obtain ⟨hs, hk⟩ := mem_regionGroup.mp hs
      exact (h other hother).2.1 source hs (hk.trans hkey'.symm)
    · refine checkDestinations_eq_ok.mpr fun other hother x hx hx' => ?_
      obtain ⟨hother, hkey'⟩ := mem_regionGroup.mp hother
      have hbyte := (h other hother).2.2 x hx hx'
      have hrole : (logicalTensorKey region).role = other.role := congrArg (·.role) hkey'.symm
      rwa [exempt_iff (h other hother).1, ← coverCount_regionGroup, hkey', ← hrole] at hbyte

/-! ## Overlap -/

theorem hasLogicalOverlap_iff {source : WorkerCacheLayoutManifest} {writers : SpanWriters} :
    hasLogicalOverlap source (groupRegions destinations) writers = true ↔
      ∃ l ∈ expandManifest source writers, ∃ r ∈ destinations,
        logicalTensorKey l = logicalTensorKey r ∧ overlaps l r = true := by
  rw [hasLogicalOverlap, any_eq_true]
  constructor
  · rintro ⟨⟨key, group⟩, hentry, hany⟩
    obtain ⟨-, hgroup⟩ := mem_groupRegions.mp hentry
    dsimp only at hgroup hany
    subst hgroup
    rw [lookup_groupRegions] at hany
    by_cases hkey : key ∈ destinations.map logicalTensorKey
    · rw [if_pos hkey] at hany
      obtain ⟨l, hl, hany⟩ := any_eq_true.mp hany
      obtain ⟨r, hr, hmeet⟩ := any_eq_true.mp hany
      obtain ⟨hl, hlkey⟩ := mem_regionGroup.mp hl
      obtain ⟨hr, hrkey⟩ := mem_regionGroup.mp hr
      refine ⟨l, hl, r, hr, hlkey.trans hrkey.symm, ?_⟩
      rwa [overlaps]
    · rw [if_neg hkey] at hany
      cases hany
  · rintro ⟨l, hl, r, hr, hkey, hmeet⟩
    refine ⟨(logicalTensorKey l, regionGroup (expandManifest source writers) (logicalTensorKey l)),
      mem_groupRegions.mpr ⟨mem_map_of_mem hl, rfl⟩, ?_⟩
    rw [lookup_groupRegions, if_pos (mem_map.mpr ⟨r, hr, hkey.symm⟩)]
    refine any_eq_true.mpr ⟨l, mem_regionGroup.mpr ⟨hl, rfl⟩, any_eq_true.mpr
      ⟨r, mem_regionGroup.mpr ⟨hr, hkey.symm⟩, ?_⟩⟩
    rwa [overlaps] at hmeet

end Xllm.Framework
