import Xllm.Lib.Run
import Xllm.Multimodal.EmbeddingGather

/-!
# Prompts in chunks

Batches take chunks of many prompts, in any sizes, and each chunk begins where the last one of its
prompt ended. Every position after the cached prefix is in exactly one step, and every step gathers the
rows of its positions (`chunked_prefill`).
-/

namespace Xllm.Framework

open Xllm.Lib

universe u

variable {α : Type u} {ι : Type} [DecidableEq ι]

/-- A sequence that waits to be prefilled. -/
structure PromptSequence (α : Type u) where
  mmItems : List (MMDataItem α)
  numPromptTokens : Nat

namespace PromptSequence

/-- How far each sequence is, and the steps so far: how far each sequence was, and how many tokens the
step took of the sequences in its batch. -/
structure Progress (ι : Type) where
  computed : ι → Nat
  steps : List ((ι → Nat) × Table ι Nat) := []

def scheduled (prompts : ι → PromptSequence α) (computed : ι → Nat) (chunks : Table ι Nat) :
    List (ScheduledSequence α) :=
  chunks.entries.map fun chunk =>
    { mmItems := (prompts chunk.1).mmItems
      numPromptTokens := (prompts chunk.1).numPromptTokens
      nKvCacheTokens := computed chunk.1
      qSeqLen := chunk.2 }

def step (cumulative : Bool) (prompts : ι → PromptSequence α) (progress : Progress ι)
    (chunks : Table ι Nat) : Except String (Progress ι) :=
  match prepareEmbeddings cumulative (scheduled prompts progress.computed chunks) with
  | .error e => .error e
  | .ok _ => .ok
    { computed := fun i => progress.computed i + (chunks.lookup i).getD 0
      steps := progress.steps ++ [(progress.computed, chunks)] }

/-- A step has a position of a sequence. -/
def covers (i : ι) (p : Nat) (taken : (ι → Nat) × Table ι Nat) : Bool :=
  (taken.2.lookup i).any fun q => taken.1 i ≤ p ∧ p < taken.1 i + q

variable {cumulative : Bool} {prompts : ι → PromptSequence α} {cached : ι → Nat}
  {progress next : Progress ι} {chunks : Table ι Nat}

/-- The positions that have been computed since the cached prefix were in one step each. -/
def CoveredOnce (cached : ι → Nat) (progress : Progress ι) : Prop :=
  ∀ i, cached i ≤ progress.computed i ∧ ∀ p, progress.steps.countP (covers i p) =
    if cached i ≤ p ∧ p < progress.computed i then 1 else 0

theorem CoveredOnce.init : CoveredOnce cached { computed := cached } := by
  refine fun i => ⟨Nat.le_refl _, fun p => ?_⟩
  rw [if_neg (by simp only; omega)]
  rfl

theorem CoveredOnce.of_step (h : CoveredOnce cached progress)
    (hstep : step cumulative prompts progress chunks = .ok next) : CoveredOnce cached next := by
  unfold step at hstep
  split at hstep
  · cases hstep
  cases hstep
  refine fun i => ⟨(h i).1.trans (Nat.le_add_right _ _), fun p => ?_⟩
  rw [List.countP_append, (h i).2, List.countP_singleton]
  have hle := (h i).1
  show _ = if cached i ≤ p ∧ p < progress.computed i + (chunks.lookup i).getD 0 then 1 else 0
  unfold covers
  cases chunks.lookup i with
  | none => simp
  | some q =>
    simp only [Option.any_some, decide_eq_true_eq, Option.getD_some]
    split
    · rw [if_neg (by omega), if_pos (by omega)]
    · split
      · rw [if_pos (by omega)]
      · rw [if_neg (by omega)]

/-- Every step of a run prepares what its positions are to have, and every position outside of the
cached prefix that has been computed was in exactly one step. -/
theorem chunked_prefill (hmarked : ∀ i, MarkedItems (prompts i).mmItems (prompts i).numPromptTokens)
    {batches : List (Table ι Nat)}
    (run : Reaches (step cumulative prompts) { computed := cached } batches progress) :
    (∀ i p, progress.steps.countP (covers i p) =
      if cached i ≤ p ∧ p < progress.computed i then 1 else 0) ∧
    ∀ chunks, ∃ data,
      prepareEmbeddings cumulative (scheduled prompts progress.computed chunks) = .ok data ∧
      ∀ type, Gathers data (batchRows (scheduled prompts progress.computed chunks) type) type := by
  have hcovered : CoveredOnce cached progress :=
    run.invariant (fun _ _ _ h _ hstep => h.of_step hstep) .init
  refine ⟨fun i => (hcovered i).2, fun chunks => prepare_gathers cumulative fun s hs => ?_⟩
  obtain ⟨chunk, -, rfl⟩ := List.mem_map.mp hs
  exact hmarked chunk.1

/-- An image with a row for each marked token. -/
def imageAt (offset : Nat) (mask : List Bool) (rows : List String) : MMDataItem String where
  type := .image
  state := { tokenPos := ⟨offset, mask.length⟩, mmTokenMask := mask, mmTokenNum := rows.length }
  embedding := rows

theorem imageAt_marked {offset : Nat} {mask : List Bool} {rows : List String} {n : Nat}
    (hrows : rows.length = mask.count true) (hend : offset + mask.length ≤ n) :
    MarkedItem (imageAt offset mask rows) n where
  nonneg := Int.natCast_nonneg offset
  inside := by
    show (offset : Int) + (mask.length : Nat) ≤ (n : Nat)
    omega
  mask := ⟨mask, rfl, rfl, congrArg Int.ofNat hrows⟩
  rows := ⟨rows, rfl, rfl⟩

def twoImages : PromptSequence String where
  mmItems := [imageAt 0 [true, false, true] ["a0", "a1"], imageAt 3 [true, true] ["b0", "b1"]]
  numPromptTokens := 6

theorem twoImages_marked : MarkedItems twoImages.mmItems twoImages.numPromptTokens where
  marked item hitem := by
    rcases List.mem_pair.mp hitem with rfl | rfl
    · exact imageAt_marked rfl (by decide)
    · exact imageAt_marked rfl (by decide)
  ordered := by
    refine List.pairwise_pair.mpr fun _ => ?_
    decide

/-- Two chunks, of which the second begins inside of the first image. -/
theorem chunked_prefill_twoImages : ∃ progress : Progress Unit,
    progress.steps.countP (covers () 2) = 1 ∧
    ∃ data, prepareEmbeddings true (scheduled (fun _ => twoImages) progress.computed
        (AList.singleton () 4)) = .ok data ∧
      Gathers data (batchRows (scheduled (fun _ => twoImages) progress.computed
        (AList.singleton () 4)) .image) .image := by
  have hrun : ∃ progress : Progress Unit, Reaches (step true fun _ => twoImages)
      { computed := fun _ => 0 } [AList.singleton () 2, AList.singleton () 2] progress ∧
      decide (progress.computed () = 4) = true :=
    ReachesWith.of_check (fun progress : Progress Unit => decide (progress.computed () = 4)) _ _
      (by decide +kernel)
  obtain ⟨progress, run, hcomputed⟩ := hrun
  obtain ⟨hcovered, hgathers⟩ := chunked_prefill (fun _ => twoImages_marked) run
  obtain ⟨data, hdata, hall⟩ := hgathers (AList.singleton () 4)
  refine ⟨progress, ?_, data, hdata, hall .image⟩
  rw [hcovered, of_decide_eq_true hcomputed]
  rfl

/-- Items that are not listed in the order of their spans: the rows are not in the order of the
positions. -/
theorem unordered_images : ∃ data,
    prepareEmbeddings true [{ twoImages with
      mmItems := twoImages.mmItems.reverse, nKvCacheTokens := 0, qSeqLen := 6 }] = .ok data ∧
    data.lookup "image|embedding" = some (.rows ["b0", "b1", "a0", "a1"]) ∧
    (batchRows [{ twoImages with
      mmItems := twoImages.mmItems.reverse, nKvCacheTokens := 0, qSeqLen := 6 }] .image).reduceOption =
      ["a0", "a1", "b0", "b1"] := by
  refine ⟨_, rfl, ?_, ?_⟩
  · decide +kernel
  · decide +kernel

end PromptSequence

end Xllm.Framework
