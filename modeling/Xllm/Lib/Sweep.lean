import Mathlib

/-!
# Counting intervals by sweeping their ends

An interval `[l, r)` opens at `l` and closes at `r`. Sorted by position these events, added up,
give at every position the number of the intervals that contain it. `accumulate` merges the events of
one position and keeps the running sum; `levelAt` reads the sum at a position, and `levelAt_coverage`
says that it counts intervals.
-/

namespace Xllm.Lib

open List

/-- The number of the intervals that contain `x`. -/
def coverCount (intervals : List (Nat × Nat)) (x : Nat) : Nat :=
  intervals.countP fun interval => interval.1 ≤ x ∧ x < interval.2

def endEvents (intervals : List (Nat × Nat)) : List (Nat × Int) :=
  intervals.flatMap fun interval => [(interval.1, 1), (interval.2, -1)]

/-- The order of the events: by position, closing before opening. -/
def eventLe (lhs rhs : Nat × Int) : Prop :=
  lhs.1 < rhs.1 ∨ lhs.1 = rhs.1 ∧ lhs.2 ≤ rhs.2

instance : DecidableRel eventLe := fun _ _ => inferInstanceAs (Decidable (_ ∨ _))

/-- The sum of the events up to `x`. -/
def eventSum (events : List (Nat × Int)) (x : Nat) : Int :=
  ((events.filter (·.1 ≤ x)).map (·.2)).sum

/-- Sorted events, those of one position merged, with the running sum after each position. -/
def accumulate : List (Nat × Int) → Int → List (Nat × Int)
  | [], _ => []
  | [event], sum => [(event.1, sum + event.2)]
  | event :: next :: rest, sum =>
    if next.1 = event.1 then accumulate (next :: rest) (sum + event.2)
    else (event.1, sum + event.2) :: accumulate (next :: rest) (sum + event.2)

/-- The running sum at `x`: the last one at or before it. -/
def levelAt : List (Nat × Int) → Int → Nat → Int
  | [], base, _ => base
  | point :: rest, base, x => if point.1 ≤ x then levelAt rest point.2 x else base

/-! ## Sums -/

theorem eventSum_cons (event : Nat × Int) (events : List (Nat × Int)) (x : Nat) :
    eventSum (event :: events) x = (if event.1 ≤ x then event.2 else 0) + eventSum events x := by
  rw [eventSum, eventSum, filter_cons]
  by_cases h : event.1 ≤ x
  · simp [h]
  · simp [h]

variable {events : List (Nat × Int)}

theorem eventSum_perm {events' : List (Nat × Int)} (h : events.Perm events') (x : Nat) :
    eventSum events x = eventSum events' x :=
  ((h.filter _).map _).sum_eq

variable {intervals : List (Nat × Nat)}

/-- Up to `x` an interval that contains it has opened, and any other has closed again or is still to
open. -/
theorem eventSum_endEvents (h : ∀ interval ∈ intervals, interval.1 ≤ interval.2) (x : Nat) :
    eventSum (endEvents intervals) x = coverCount intervals x := by
  induction intervals with
  | nil => rfl
  | cons interval intervals ih =>
    have hle := h interval (mem_cons_self ..)
    have hrest := ih fun i hi => h i (mem_cons_of_mem _ hi)
    have hevents : endEvents (interval :: intervals) =
        (interval.1, 1) :: (interval.2, -1) :: endEvents intervals := rfl
    rw [hevents, eventSum_cons, eventSum_cons, hrest, coverCount, coverCount, countP_cons]
    by_cases hopen : interval.1 ≤ x
    · by_cases hclose : interval.2 ≤ x
      · simp [hopen, hclose]
      · simp [hopen, hclose, not_le.mp hclose]
        omega
    · have hclose : ¬ interval.2 ≤ x := by omega
      simp [hopen, hclose]

variable {x : Nat}

theorem eventSum_eq_zero (h : ∀ event ∈ events, x < event.1) :
    eventSum events x = 0 := by
  rw [eventSum, filter_eq_nil_iff.mpr]
  · rfl
  · intro event hevent
    have := h event hevent
    simpa using this

/-! ## Running sums -/

theorem levelAt_accumulate {event : Nat × Int}
    (hsorted : (event :: events).Pairwise (fun l r => l.1 ≤ r.1)) (sum base : Int) (x : Nat) :
    levelAt (accumulate (event :: events) sum) base x =
      if x < event.1 then base else sum + eventSum (event :: events) x := by
  induction events generalizing event sum base with
  | nil =>
    rw [accumulate, levelAt, levelAt, eventSum_cons]
    by_cases h : event.1 ≤ x
    · rw [if_pos h, if_neg (by omega), if_pos h]
      simp [eventSum]
    · rw [if_neg h, if_pos (by omega)]
  | cons next rest ih =>
    obtain ⟨hfirst, hrest⟩ := pairwise_cons.mp hsorted
    rw [accumulate, eventSum_cons]
    by_cases hsame : next.1 = event.1
    · -- the same position: the sum goes on
      rw [if_pos hsame, ih hrest, hsame]
      by_cases h : x < event.1
      · rw [if_pos h, if_pos h]
      · omega
    · rw [if_neg hsame, levelAt, ih hrest]
      by_cases h : event.1 ≤ x
      · by_cases hx : x < next.1
        · rw [if_pos hx, eventSum_eq_zero]
          · omega
          · intro e he
            rcases mem_cons.mp he with rfl | he
            · exact hx
            · exact lt_of_lt_of_le hx ((pairwise_cons.mp hrest).1 e he)
        · omega
      · rw [if_neg h, if_pos (by omega)]

theorem mem_accumulate {sum : Int} {point : Nat × Int}
    (h : point ∈ accumulate events sum) : ∃ event ∈ events, event.1 = point.1 := by
  induction events generalizing sum with
  | nil => exact nomatch h
  | cons event events ih =>
    cases events with
    | nil =>
      rw [accumulate, mem_singleton] at h
      exact ⟨event, mem_cons_self .., by rw [h]⟩
    | cons next rest =>
      have hlift (h' : point ∈ accumulate (next :: rest) (sum + event.2)) :
          ∃ e ∈ event :: next :: rest, e.1 = point.1 := by
        obtain ⟨e, he, heq⟩ := ih h'
        exact ⟨e, mem_cons_of_mem _ he, heq⟩
      rw [accumulate] at h
      split at h
      · exact hlift h
      · rcases mem_cons.mp h with rfl | h
        · exact ⟨event, mem_cons_self .., rfl⟩
        · exact hlift h

theorem ascending_accumulate (hsorted : events.Pairwise (fun l r => l.1 ≤ r.1)) (sum : Int) :
    (accumulate events sum).Pairwise (fun l r => l.1 < r.1) := by
  induction events generalizing sum with
  | nil => exact List.Pairwise.nil
  | cons event events ih =>
    cases events with
    | nil => exact pairwise_singleton ..
    | cons next rest =>
      obtain ⟨hfirst, hrest⟩ := pairwise_cons.mp hsorted
      rw [accumulate]
      split
      · exact ih hrest _
      · refine pairwise_cons.mpr ⟨fun point hpoint => ?_, ih hrest _⟩
        obtain ⟨e, he, heq⟩ := mem_accumulate hpoint
        have hnext := hfirst next (mem_cons_self ..)
        rcases mem_cons.mp he with rfl | he
        · omega
        · have := (pairwise_cons.mp hrest).1 e he
          omega

/-- The points of a list of intervals. -/
def coverage (intervals : List (Nat × Nat)) : List (Nat × Int) :=
  accumulate ((endEvents intervals).insertionSort eventLe) 0

theorem sorted_events (events : List (Nat × Int)) :
    (events.insertionSort eventLe).Pairwise (fun l r => l.1 ≤ r.1) := by
  have htotal : Std.Total eventLe := ⟨fun l r => by rw [eventLe, eventLe]; omega⟩
  have htrans : IsTrans _ eventLe := ⟨fun l r t h h' => by rw [eventLe] at *; omega⟩
  refine (pairwise_insertionSort eventLe events).imp fun {l r} h => ?_
  rw [eventLe] at h
  omega

theorem ascending_coverage (intervals : List (Nat × Nat)) :
    (coverage intervals).Pairwise (fun l r => l.1 < r.1) :=
  ascending_accumulate (sorted_events _) 0

/-- **The running sum counts the intervals.** -/
theorem levelAt_coverage (h : ∀ interval ∈ intervals, interval.1 ≤ interval.2) (x : Nat) :
    levelAt (coverage intervals) 0 x = coverCount intervals x := by
  rw [← eventSum_endEvents h, ← eventSum_perm (perm_insertionSort eventLe _), coverage]
  have hsorted := sorted_events (endEvents intervals)
  generalize (endEvents intervals).insertionSort eventLe = events at hsorted
  cases events with
  | nil => rfl
  | cons event events =>
    rw [levelAt_accumulate hsorted]
    split
    · rename_i hx
      rw [eventSum_eq_zero]
      intro e he
      rcases mem_cons.mp he with rfl | he
      · exact hx
      · exact lt_of_lt_of_le hx ((pairwise_cons.mp hsorted).1 e he)
    · rw [Int.zero_add]

/-! ## Starting in the middle -/

/-- The sum before the first point past `start`. -/
def levelBefore (points : List (Nat × Int)) (base : Int) (start : Nat) : Int :=
  ((points.takeWhile (·.1 ≤ start)).getLast?.map (·.2)).getD base

variable {start : Nat}

theorem levelAt_dropWhile (points : List (Nat × Int)) (base : Int) (h : start ≤ x) :
    levelAt (points.dropWhile (·.1 ≤ start)) (levelBefore points base start) x =
      levelAt points base x := by
  induction points generalizing base with
  | nil => rfl
  | cons point rest ih =>
    rw [dropWhile_cons, levelBefore, takeWhile_cons]
    by_cases hp : point.1 ≤ start
    · rw [if_pos (by simpa using hp), if_pos (by simpa using hp), levelAt, if_pos (by omega),
        ← ih point.2, levelBefore]
      cases rest.takeWhile (·.1 ≤ start) with
      | nil => rfl
      | cons head tail =>
        rw [List.getLast?_cons_cons]
        cases hlast : (head :: tail).getLast? with
        | none => exact nomatch hlast
        | some last => rfl
    · rw [if_neg (by simpa using hp), if_neg (by simpa using hp)]
      rfl

theorem lt_of_mem_dropWhile {points : List (Nat × Int)}
    (hascending : points.Pairwise (fun l r => l.1 < r.1)) :
    ∀ point ∈ points.dropWhile (·.1 ≤ start), start < point.1 := by
  induction points with
  | nil => exact nofun
  | cons first rest ih =>
    obtain ⟨hfirst, hrest⟩ := pairwise_cons.mp hascending
    rw [dropWhile_cons]
    split
    · exact ih hrest
    · rename_i hpast
      intro point hpoint
      have hlt : start < first.1 := by simpa using hpast
      rcases mem_cons.mp hpoint with rfl | hpoint
      · exact hlt
      · exact lt_trans hlt (hfirst point hpoint)

end Xllm.Lib
