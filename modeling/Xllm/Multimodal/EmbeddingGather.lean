import Xllm.Multimodal.MMVisitor

/-!
# What a step gathers

The row of a position of the prompt is the row of the item whose span has the position, if the mask
marks it (`rowAt`). A step gathers, for each kind of item, the rows of the positions of the flattened
batch in the order of the positions, and a mask of the positions that have one (`prepare_gathers`).
The items of a kind stand in the order of their spans, as the prompt processors leave them.
-/

namespace Xllm.Framework

open Xllm.Lib List Function

universe u

variable {α : Type u}

/-! ## Rows of a prompt -/

/-- The row of a position of the prompt. -/
def MMDataItem.rowAt (item : MMDataItem α) (p : Nat) : Option α :=
  match item.state.mmTokenMask, item.embedding with
  | some bits, some rows =>
    if item.state.tokenPos.offset ≤ p then cell bits rows (p - item.state.tokenPos.offset).toNat
    else none
  | _, _ => none

/-- The row of a position, from the items of a kind. -/
def rowOf (items : List (MMDataItem α)) (type : MMType) (p : Nat) : Option α :=
  items.findSome? fun item => if item.type = type then item.rowAt p else none

/-- An item with a span inside the prompt, a mask of the span and a row for each marked token. -/
structure MarkedItem (item : MMDataItem α) (numPromptTokens : Nat) : Prop where
  nonneg : 0 ≤ item.state.tokenPos.offset
  inside : item.state.tokenPos.offset + item.state.tokenPos.length ≤ numPromptTokens
  mask : ∃ bits, item.state.mmTokenMask = some bits ∧ item.state.tokenPos.length = bits.length ∧
    item.state.mmTokenNum = bits.count true
  rows : ∃ rows, item.embedding = some rows ∧ (rows.length : Int) = item.state.mmTokenNum

structure MarkedItems (items : List (MMDataItem α)) (numPromptTokens : Nat) : Prop where
  marked : ∀ item ∈ items, MarkedItem item numPromptTokens
  /-- The items of one kind stand in the order of their spans, which are disjoint. -/
  ordered : items.Pairwise fun a b => a.type = b.type →
    a.state.tokenPos.offset + a.state.tokenPos.length ≤ b.state.tokenPos.offset

/-- The positions of the flattened batch, and the rows they are to have. -/
def batchRows (batch : List (ScheduledSequence α)) (type : MMType) : List (Option α) :=
  batch.flatMap fun s => (List.range' s.nKvCacheTokens s.qSeqLen).map (rowOf s.mmItems type)

/-- An item in natural numbers. -/
structure SpanOf (item : MMDataItem α) (offset : Nat) (bits : List Bool) (rows : List α) : Prop where
  tokenPos : item.state.tokenPos = ⟨offset, bits.length⟩
  mask : item.state.mmTokenMask = some bits
  tokenNum : item.state.mmTokenNum = rows.length
  embedding : item.embedding = some rows
  count : rows.length = bits.count true

variable {item : MMDataItem α} {n : Nat}

theorem MarkedItem.span (h : MarkedItem item n) :
    ∃ offset bits rows, SpanOf item offset bits rows ∧ offset + bits.length ≤ n := by
  obtain ⟨bits, hmask, hlength, hnum⟩ := h.mask
  obtain ⟨rows, hembedding, hrows⟩ := h.rows
  obtain ⟨offset, hoffset⟩ := Int.eq_ofNat_of_zero_le h.nonneg
  have hinside := h.inside
  refine ⟨offset, bits, rows, ⟨?_, hmask, hrows.symm, hembedding, ?_⟩, by omega⟩
  · rw [← hoffset, ← hlength]
  · exact Int.ofNat.inj (hrows.trans hnum)

variable {item : MMDataItem α} {offset : Nat} {bits : List Bool} {rows : List α}

theorem SpanOf.rowAt (h : SpanOf item offset bits rows) (p : Nat) :
    item.rowAt p = if offset ≤ p then cell bits rows (p - offset) else none := by
  simp only [MMDataItem.rowAt, h.mask, h.embedding, h.tokenPos, Int.ofNat_le]
  split
  · congr 1
    omega
  · rfl

theorem SpanOf.rowAt_add (h : SpanOf item offset bits rows) (i : Nat) :
    item.rowAt (offset + i) = cell bits rows i := by
  rw [h.rowAt, if_pos (Nat.le_add_right _ _), Nat.add_sub_cancel_left]

variable {p : Nat}

theorem SpanOf.rowAt_outside (h : SpanOf item offset bits rows)
    (hp : p < offset ∨ offset + bits.length ≤ p) : item.rowAt p = none := by
  rw [h.rowAt]
  split
  · next hle =>
    unfold cell
    rw [List.getElem?_eq_none (by omega), if_neg (by simp)]
  · rfl

theorem MarkedItem.inside_of_isSome (h : MarkedItem item n)
    (hp : (item.rowAt p).isSome) : item.state.tokenPos.offset ≤ p ∧
      (p : Int) < item.state.tokenPos.offset + item.state.tokenPos.length := by
  obtain ⟨offset, bits, rows, hspan, -⟩ := h.span
  rw [hspan.tokenPos]
  by_contra hout
  rw [hspan.rowAt_outside (by simp only at hout; omega)] at hp
  cases hp

/-! ## The lengths of the batch -/

/-- The visitor was made for this batch. -/
structure ForBatch (v : EncoderEmbeddingGather α) (batch : List (ScheduledSequence α)) : Prop where
  context : v.perSeqContextLens =
    batch.map fun s => Int.ofNat (s.nKvCacheTokens + s.qSeqLen)
  scheduled : v.perSeqScheduledLens = batch.map fun s => Int.ofNat s.qSeqLen
  offsets : ∀ pre s post, batch = pre ++ s :: post →
    v.perSeqScheduledOffsets[pre.length]? = some (Int.ofNat (pre.map (·.qSeqLen)).sum)
  total : v.totalScheduledTokens = Int.ofNat (batch.map (·.qSeqLen)).sum

theorem differences_scanl (lens : List Int) (first : Int) :
    List.zipWith (fun next last => next - last) (lens.scanl (· + ·) first).tail
      (lens.scanl (· + ·) first) = lens := by
  induction lens generalizing first with
  | nil => rfl
  | cons len lens ih =>
    rw [scanl_cons, tail_cons]
    cases lens with
    | nil => simp
    | cons len' lens =>
      have ih := ih (first + len)
      rw [scanl_cons, tail_cons] at ih
      rw [scanl_cons, zipWith_cons_cons, ih, add_sub_cancel_left]

theorem normalize_batchSeqLens (cumulative : Bool) (lens : List Nat) :
    normalizeToPerSeqLens cumulative (batchSeqLens cumulative lens) = lens.map Int.ofNat := by
  cases cumulative with
  | true => exact differences_scanl _ 0
  | false => rfl

theorem foldl_add_ofNat (lens : List Nat) (first : Int) :
    (lens.map Int.ofNat).foldl (· + ·) first = first + Int.ofNat lens.sum := by
  induction lens generalizing first with
  | nil => simp
  | cons len lens ih =>
    rw [map_cons, foldl_cons, ih, sum_cons]
    simp only [Int.ofNat_eq_natCast, Int.natCast_add]
    omega

theorem make_batch (cumulative : Bool) (batch : List (ScheduledSequence α)) :
    ∃ v, EncoderEmbeddingGather.make cumulative
        (batchSeqLens cumulative (batch.map fun s => s.nKvCacheTokens + s.qSeqLen))
        (batchSeqLens cumulative (batch.map (·.qSeqLen))) = .ok v ∧
      ForBatch v batch ∧ (∀ type, v.masks type = none) ∧ v.datas = ∅ := by
  unfold EncoderEmbeddingGather.make
  simp only [normalize_batchSeqLens, length_map, map_map]
  rw [if_neg (by simp), if_neg ?_]
  · refine ⟨_, rfl, ⟨rfl, rfl, ?_, ?_⟩, fun _ => rfl, rfl⟩
    · rintro pre s post rfl
      show ((List.scanl (· + ·) 0 _).dropLast)[pre.length]? = _
      rw [← map_map, List.getElem?_dropLast, if_pos ?_, List.getElem?_scanl, if_pos ?_,
        ← map_take, foldl_add_ofNat, zero_add, ← map_take, take_left' rfl]
      · rw [length_map, length_map, length_append]
        omega
      · rw [length_scanl, length_map, length_map, length_append,
          length_cons]
        omega
    · show (List.map _ batch).sum = _
      rw [← map_map, sum_eq_foldl, foldl_add_ofNat, zero_add]
  · intro habs
    obtain ⟨lens, hmem, hlt⟩ := any_eq_true.mp habs
    rw [zip_map', mem_map] at hmem
    obtain ⟨s, -, rfl⟩ := hmem
    have hlt := of_decide_eq_true hlt
    simp only [Function.comp, Int.ofNat_eq_natCast, Int.natCast_add] at hlt
    omega

/-! ## One item -/

/-- The part of a span of `len` tokens at `offset` that a window of `q` tokens at `kv` has. -/
structure Part (offset len kv q first last : Nat) : Prop where
  le : first ≤ last
  inside : last ≤ len
  after : kv ≤ offset + first
  upTo : offset + last ≤ kv + q
  rest : ∀ p, kv ≤ p → p < kv + q → p < offset + first ∨ offset + last ≤ p →
    p < offset ∨ offset + len ≤ p

/-- The item with the part of its span that is scheduled. -/
def MMDataItem.schedule (item : MMDataItem α) (first last idx : Nat) : MMDataItem α :=
  { item with state := { item.state with scheduleData := ⟨first, last⟩, seqIndex := idx } }

theorem updateMMItemScheduleState_cases (h : SpanOf item offset bits rows) (kv q idx : Nat) :
    (updateMMItemScheduleState kv q idx item = none ∧
      ∀ p, kv ≤ p → p < kv + q → item.rowAt p = none) ∨
    ∃ first last, Part offset bits.length kv q first last ∧
      updateMMItemScheduleState kv q idx item = some (item.schedule first last idx) := by
  unfold updateMMItemScheduleState
  simp only [h.tokenPos]
  split
  · next hbefore => exact Or.inl ⟨rfl, fun p _ _ => h.rowAt_outside (by omega)⟩
  next hbefore =>
  split
  · next hafter => exact Or.inl ⟨rfl, fun p _ _ => h.rowAt_outside (by omega)⟩
  next hafter =>
  refine Or.inr ⟨kv - offset, min (kv + q - offset) bits.length,
    ⟨by omega, by omega, by omega, by omega, fun p _ _ _ => by omega⟩, ?_⟩
  have hstart : max ((kv : Int) - offset) 0 = ((kv - offset : Nat) : Int) := by omega
  have hend : min ((kv : Int) - offset + q) bits.length =
      ((min (kv + q - offset) bits.length : Nat) : Int) := by
    omega
  rw [hstart, hend]
  simp only [MMDataItem.schedule, h.tokenPos]

theorem computeEmbRange_natCast {a b : Nat} (hab : a ≤ b) (hb : b ≤ bits.length) :
    computeEmbRange a b (some bits) =
      ((((bits.take a).count true : Nat) : Int), (((bits.take b).count true : Nat) : Int)) := by
  cases bits with
  | nil =>
    obtain rfl : b = 0 := Nat.le_zero.mp hb
    obtain rfl : a = 0 := Nat.le_zero.mp hab
    rfl
  | cons bit bits =>
    have hslice : ∀ {c : Nat}, c ≤ (bit :: bits).length →
        slice (bit :: bits) 0 c = (bit :: bits).take c := fun hc => by
      have hslice := slice_natCast (Nat.zero_le _) hc
      rwa [List.drop_zero] at hslice
    simp only [computeEmbRange, hslice hb, hslice (hab.trans hb)]

variable {kv q first last : Nat}

theorem SpanOf.slice_rows (h : SpanOf item offset bits rows)
    (hpart : Part offset bits.length kv q first last) :
    slice rows ((bits.take first).count true : Nat) ((bits.take last).count true : Nat) =
      (List.range' kv q).filterMap item.rowAt := by
  have hlast : (bits.take last).count true ≤ rows.length :=
    h.count ▸ (take_sublist _ _).count_le _
  have hrows := drop_take_rows h.count first (last - first)
  rw [Nat.add_sub_cancel' hpart.le] at hrows
  have hwindow : (List.range' kv q).filterMap item.rowAt =
      (List.range' (offset + first) (last - first)).filterMap item.rowAt := by
    have hle := hpart.le
    have hupTo := hpart.upTo
    have hafter := hpart.after
    rw [filterMap_range' (a := offset + first - kv) (b := offset + last - kv) (by omega) (by omega)
      fun p hlow hhigh hout => h.rowAt_outside (hpart.rest p hlow hhigh (by omega)),
      Nat.add_sub_cancel' hafter]
    congr 2
    omega
  rw [slice_natCast (count_take_mono bits hpart.le) hlast, hrows, hwindow,
    ← map_add_range', filterMap_map]
  refine filterMap_congr fun i _ => ?_
  exact (h.rowAt_add _).symm

theorem SpanOf.slice_bits (h : SpanOf item offset bits rows)
    (hpart : Part offset bits.length kv q first last) :
    slice bits first last =
      (List.range' (offset + first) (last - first)).map fun p => (item.rowAt p).isSome := by
  have hbits := map_isSome_cell h.count (a := first) (n := last - first)
    (by rw [Nat.add_sub_cancel' hpart.le]; exact hpart.inside)
  rw [Nat.add_sub_cancel' hpart.le] at hbits
  rw [slice_natCast hpart.le hpart.inside, ← hbits, ← map_add_range', map_map]
  refine map_congr_left fun i _ => ?_
  rw [Function.comp, h.rowAt_add]

/-- The visitor after it has taken in rows and a mask for an item. -/
def EncoderEmbeddingGather.take (v : EncoderEmbeddingGather α) (type : MMType) (mask : List Bool)
    (tensor : List α) : EncoderEmbeddingGather α :=
  { v with
    masks := Function.update v.masks type (some mask)
    datas := v.datas.insert (getEmbeddingKey type)
      ((v.datas.lookup (getEmbeddingKey type)).getD [] ++ [tensor]) }

variable {v : EncoderEmbeddingGather α} {batch : List (ScheduledSequence α)}

theorem ForBatch.take (h : ForBatch v batch) (type : MMType) (mask : List Bool) (tensor : List α) :
    ForBatch (v.take type mask tensor) batch :=
  ⟨h.context, h.scheduled, h.offsets, h.total⟩

/-- The mask of a kind, which is made when it is written first. -/
def EncoderEmbeddingGather.maskOf (v : EncoderEmbeddingGather α) (type : MMType) : List Bool :=
  (v.masks type).getD (List.replicate v.totalScheduledTokens.toNat false)

variable {mask : List Bool}

theorem visit_scheduled {pre post : List (ScheduledSequence α)}
    {s : ScheduledSequence α} (hv : ForBatch v batch) (hbatch : batch = pre ++ s :: post)
    (h : SpanOf item offset bits rows)
    (hpart : Part offset bits.length s.nKvCacheTokens s.qSeqLen first last)
    (hassign : sliceAssign (v.maskOf item.type)
      (((pre.map (·.qSeqLen)).sum + (offset + first - s.nKvCacheTokens) : Nat) : Int)
      (((pre.map (·.qSeqLen)).sum + (offset + last - s.nKvCacheTokens) : Nat) : Int)
      ((List.range' (offset + first) (last - first)).map fun p => (item.rowAt p).isSome) =
        some mask) :
    v.visit (item.schedule first last pre.length) = .ok (true, v.take item.type mask
      ((List.range' s.nKvCacheTokens s.qSeqLen).filterMap item.rowAt)) := by
  have hle := hpart.le
  have hafter := hpart.after
  have hupTo := hpart.upTo
  have hscheduled : v.perSeqScheduledLens[pre.length]? = some (s.qSeqLen : Int) := by
    rw [hv.scheduled, hbatch]
    simp
  have hcontext : v.perSeqContextLens[pre.length]? =
      some ((s.nKvCacheTokens + s.qSeqLen : Nat) : Int) := by
    rw [hv.context, hbatch]
    simp
  have hoffset := hv.offsets pre s post hbatch
  have hrange := computeEmbRange_natCast hpart.le hpart.inside
  generalize hbase : (pre.map (·.qSeqLen)).sum = base at hassign hoffset
  have hstart : (base : Int) + offset - (((s.nKvCacheTokens + s.qSeqLen : Nat) : Int) - s.qSeqLen) +
      first = ((base + (offset + first - s.nKvCacheTokens) : Nat) : Int) := by
    omega
  have hend : (base : Int) + offset - (((s.nKvCacheTokens + s.qSeqLen : Nat) : Int) - s.qSeqLen) +
      last = ((base + (offset + last - s.nKvCacheTokens) : Nat) : Int) := by
    omega
  simp only [EncoderEmbeddingGather.visit, MMDataItem.schedule, h.mask, h.embedding, h.tokenNum,
    h.tokenPos, hrange, Int.toNat_natCast, hscheduled, hcontext, hoffset, Int.ofNat_eq_natCast,
    hstart, hend]
  rw [if_neg (by omega), if_neg (by omega), if_neg (by omega), if_neg (by simp)]
  have hwritten : v.updateMask (item.schedule first last pre.length)
      ((base + (offset + first - s.nKvCacheTokens) : Nat) : Int)
      ((base + (offset + last - s.nKvCacheTokens) : Nat) : Int) = .ok mask := by
    rw [EncoderEmbeddingGather.maskOf] at hassign
    unfold EncoderEmbeddingGather.updateMask
    simp only [MMDataItem.schedule, h.mask]
    rw [h.slice_bits hpart, hassign]
  simp only [MMDataItem.schedule, h.mask, h.embedding, h.tokenNum, h.tokenPos] at hwritten
  rw [hwritten, h.slice_rows hpart]
  rfl

/-! ## One sequence -/

/-- What has been gathered when `cells` are the rows that the positions so far are to have, and `todo`
positions come after them. -/
structure Gathered (v : EncoderEmbeddingGather α) (cells : MMType → List (Option α)) (todo : Nat) :
    Prop where
  mask : ∀ type, v.maskOf type = (cells type).map Option.isSome ++ List.replicate todo false
  rows : ∀ type,
    ((v.datas.lookup (getEmbeddingKey type)).getD []).flatten = (cells type).reduceOption
  both : ∀ type, v.masks type = none ↔ v.datas.lookup (getEmbeddingKey type) = none
  tensors : ∀ key tensors, v.datas.lookup key = some tensors →
    tensors ≠ [] ∧ ∃ type, key = getEmbeddingKey type

variable {v : EncoderEmbeddingGather α} {batch pre post : List (ScheduledSequence α)}
  {s : ScheduledSequence α} {todo : Nat} {before : MMType → List (Option α)}

variable {type : MMType}

theorem getEmbeddingKey_inj {type' : MMType} (h : getEmbeddingKey type = getEmbeddingKey type') :
    type = type' := by
  cases type
  all_goals
    cases type'
    all_goals first | rfl | exact absurd h (by decide)

theorem Gathered.open (h : Gathered v before (s.qSeqLen + todo)) :
    Gathered v (fun type => before type ++
      (List.range' s.nKvCacheTokens s.qSeqLen).map fun _ => none) todo where
  mask type := by
    rw [h.mask, map_append, map_map, List.append_assoc]
    congr 1
    rw [← replicate_append_replicate]
    congr 1
    refine (eq_replicate_iff.mpr ⟨by simp, fun b hb => ?_⟩).symm
    obtain ⟨_, -, rfl⟩ := mem_map.mp hb
    rfl
  rows type := by
    rw [h.rows, reduceOption_append]
    have hnil : ((List.range' s.nKvCacheTokens s.qSeqLen).map
        fun _ => (none : Option α)).reduceOption = [] := by
      rw [List.reduceOption, filterMap_map]
      exact filterMap_eq_nil_iff.mpr fun _ _ => rfl
    rw [hnil, append_nil]
  both := h.both
  tensors := h.tensors

theorem SpanOf.write_bits (hspan : SpanOf item offset bits rows)
    (hpart : Part offset bits.length kv q first last) {f : Nat → Option α}
    (hfree : ∀ p, offset ≤ p → f p = none) {left right : List Bool}
    (hmask : mask = left ++ (List.range' kv q).map (Option.isSome ∘ f) ++ right) :
    sliceAssign mask ((left.length + (offset + first - kv) : Nat) : Int)
      ((left.length + (offset + last - kv) : Nat) : Int)
      ((List.range' (offset + first) (last - first)).map fun p => (item.rowAt p).isSome) =
        some (left ++ (List.range' kv q).map (fun p => ((f p).or (item.rowAt p)).isSome) ++
          right) := by
  have hle := hpart.le
  have hafter := hpart.after
  have hupTo := hpart.upTo
  rw [sliceAssign_middle (by omega) (by rw [length_map, length_range']; omega)
    (by simp; omega) hmask]
  have hmiddle := take_append_map_drop (Option.isSome ∘ f)
    (fun p => (item.rowAt p).isSome) (k := kv) (n := q)
    (a := offset + first - kv) (b := offset + last - kv) (by omega) (by omega)
  rw [Nat.add_sub_cancel' hafter, Nat.add_sub_cancel' (hafter.trans (by omega)),
    Nat.sub_sub_sub_cancel_right hafter, Nat.add_sub_add_left] at hmiddle
  rw [hmiddle]
  congr 3
  refine map_congr_left fun p hp => ?_
  rw [List.mem_range'_1] at hp
  split
  · rw [hfree p (by omega), Option.none_or]
  · rw [hspan.rowAt_outside (hpart.rest p hp.1 hp.2 (by omega)), Option.or_none]
    rfl

@[simp] theorem EncoderEmbeddingGather.take_masks (v : EncoderEmbeddingGather α) (type : MMType)
    (mask : List Bool) (tensor : List α) :
    (v.take type mask tensor).masks = Function.update v.masks type (some mask) := rfl

@[simp] theorem EncoderEmbeddingGather.take_datas (v : EncoderEmbeddingGather α) (type : MMType)
    (mask : List Bool) (tensor : List α) : (v.take type mask tensor).datas =
      v.datas.insert (getEmbeddingKey type)
        ((v.datas.lookup (getEmbeddingKey type)).getD [] ++ [tensor]) := rfl

theorem EncoderEmbeddingGather.maskOf_take (v : EncoderEmbeddingGather α) (type other : MMType)
    (mask : List Bool) (tensor : List α) : (v.take type mask tensor).maskOf other =
      if other = type then mask else v.maskOf other := by
  unfold maskOf
  rw [take_masks]
  split
  · next heq => rw [heq, update_self, Option.getD_some]
  · next heq =>
    rw [update_of_ne heq]
    rfl

variable {v' : EncoderEmbeddingGather α}

theorem EncoderEmbeddingGather.visitAll_singleton (h : v.visit item = .ok (true, v')) :
    v.visitAll [item] = .ok (true, v') := by
  simp only [visitAll, h]

theorem Gathered.take {cells cells' : MMType → List (Option α)} (h : Gathered v cells todo)
    {tensor : List α} (hmask : mask = (cells' type).map Option.isSome ++ List.replicate todo false)
    (hrows : (cells' type).reduceOption = (cells type).reduceOption ++ tensor)
    (hothers : ∀ other, other ≠ type → cells' other = cells other) :
    Gathered (v.take type mask tensor) cells' todo where
  mask other := by
    rw [EncoderEmbeddingGather.maskOf_take]
    split
    · next heq => rw [heq, hmask]
    · next heq =>
      rw [hothers other heq]
      exact h.mask other
  rows other := by
    rw [EncoderEmbeddingGather.take_datas]
    by_cases heq : other = type
    · rw [heq, AList.lookup_insert, Option.getD_some, flatten_append, h.rows, hrows,
        flatten_singleton]
    · rw [AList.lookup_insert_ne fun hkey => heq (getEmbeddingKey_inj hkey), hothers other heq]
      exact h.rows other
  both other := by
    rw [EncoderEmbeddingGather.take_masks, EncoderEmbeddingGather.take_datas]
    by_cases heq : other = type
    · rw [heq, update_self, AList.lookup_insert]
      exact ⟨nofun, nofun⟩
    · rw [update_of_ne heq,
        AList.lookup_insert_ne fun hkey => heq (getEmbeddingKey_inj hkey)]
      exact h.both other
  tensors key tensors htensors := by
    rw [EncoderEmbeddingGather.take_datas, lookup_insert_eq] at htensors
    split at htensors
    · next heq =>
      cases htensors
      exact ⟨append_ne_nil_of_right_ne_nil _ (by simp), type, heq⟩
    · exact h.tensors key tensors htensors

variable {f : MMType → Nat → Option α}

/-- An item is taken in after those with the rows `f`, which all stand before its span. -/
theorem Gathered.takeItem (hv : ForBatch v batch) (hbatch : batch = pre ++ s :: post)
    (hbefore : ∀ type, (before type).length = (pre.map (·.qSeqLen)).sum)
    (h : Gathered v (fun type => before type ++
      (List.range' s.nKvCacheTokens s.qSeqLen).map (f type)) todo)
    (hspan : SpanOf item offset bits rows) (horder : ∀ p, (f item.type p).isSome → p < offset) :
    ∃ v', v.visitAll (updateMMItemScheduleState s.nKvCacheTokens s.qSeqLen pre.length item).toList =
        .ok (true, v') ∧ ForBatch v' batch ∧
      Gathered v' (fun type => before type ++ (List.range' s.nKvCacheTokens s.qSeqLen).map fun p =>
          (f type p).or (if item.type = type then item.rowAt p else none)) todo := by
  rcases updateMMItemScheduleState_cases hspan s.nKvCacheTokens s.qSeqLen pre.length with
    ⟨hnone, hrows⟩ | ⟨first, last, hpart, hsome⟩
  · refine ⟨v, by rw [hnone]; rfl, hv, ?_⟩
    have hsame : ∀ type, (List.range' s.nKvCacheTokens s.qSeqLen).map (fun p =>
        (f type p).or (if item.type = type then item.rowAt p else none)) =
        (List.range' s.nKvCacheTokens s.qSeqLen).map (f type) := fun type => by
      refine map_congr_left fun p hp => ?_
      rw [List.mem_range'_1] at hp
      rw [hrows p hp.1 hp.2, ite_self, Option.or_none]
    simp only [hsame]
    exact h
  -- no row stands in the span already
  have hfree : ∀ p, offset ≤ p → f item.type p = none := fun p hp => by
    cases hf : f item.type p with
    | none => rfl
    | some row => exact absurd (horder p (by rw [hf]; rfl)) (Nat.not_lt_of_le hp)
  have hmask := h.mask item.type
  rw [map_append, map_map] at hmask
  have hwritten := hspan.write_bits hpart hfree hmask
  rw [length_map, hbefore] at hwritten
  have hvisit := visit_scheduled hv hbatch hspan hpart hwritten
  rw [hsome, Option.toList_some]
  refine ⟨_, EncoderEmbeddingGather.visitAll_singleton hvisit, hv.take _ _ _, h.take ?_ ?_ ?_⟩
  · simp only [if_pos, map_append, map_map]
    rfl
  · have hsome : ∀ p, (item.rowAt p).isSome → offset ≤ p := fun p hp => by
      by_contra hlt
      rw [hspan.rowAt_outside (Or.inl (Nat.lt_of_not_le hlt))] at hp
      cases hp
    have horElse := filterMap_orElse (f := f item.type) (g := item.rowAt)
      (pairwise_lt_range' (s := s.nKvCacheTokens) (n := s.qSeqLen))
      (fun x _ y _ hlt hx => hfree y ((hsome x hx).trans hlt.le))
      (fun x _ hx => hfree x (hsome x hx))
    simp only [if_pos, reduceOption_append, List.append_assoc]
    congr 1
    simp only [List.reduceOption, filterMap_map]
    exact horElse
  · intro other hother
    simp only [if_neg (Ne.symm hother), Option.or_none]

variable {items : List (MMDataItem α)}

theorem EncoderEmbeddingGather.visitAll_append (h : v.visitAll items = .ok (true, v'))
    (more : List (MMDataItem α)) : v.visitAll (items ++ more) = v'.visitAll more := by
  induction items generalizing v with
  | nil =>
    cases h
    rfl
  | cons item items ih =>
    simp only [visitAll] at h
    simp only [cons_append, visitAll]
    split at h
    · cases h
    · cases h
    · exact ih h

/-- Without items the positions have no rows. -/
theorem rowOf_nil (type : MMType) (p : Nat) : rowOf ([] : List (MMDataItem α)) type p = none := rfl

theorem rowOf_cons (item : MMDataItem α) (items : List (MMDataItem α)) (type : MMType) (p : Nat) :
    rowOf (item :: items) type p =
      (if item.type = type then item.rowAt p else none).or (rowOf items type p) := by
  unfold rowOf
  rw [List.findSome?_cons]
  split
  · next hsome => rw [hsome, Option.some_or]
  · next hnone => rw [hnone, Option.none_or]

/-- By induction on the items, which are ordered: an item is visited after all that lie before
it. -/
theorem Gathered.takeItems (hbatch : batch = pre ++ s :: post)
    (hbefore : ∀ type, (before type).length = (pre.map (·.qSeqLen)).sum)
    (hitems : MarkedItems items n)
    (horder : ∀ item ∈ items, ∀ p, (f item.type p).isSome →
      (p : Int) < item.state.tokenPos.offset) (hv : ForBatch v batch)
    (h : Gathered v (fun type => before type ++
      (List.range' s.nKvCacheTokens s.qSeqLen).map (f type)) todo) :
    ∃ v', v.visitAll (items.filterMap
        (updateMMItemScheduleState s.nKvCacheTokens s.qSeqLen pre.length)) = .ok (true, v') ∧
      ForBatch v' batch ∧
      Gathered v' (fun type => before type ++
        (List.range' s.nKvCacheTokens s.qSeqLen).map fun p => (f type p).or (rowOf items type p))
        todo := by
  induction items generalizing v f with
  | nil =>
    refine ⟨v, rfl, hv, ?_⟩
    simp only [rowOf_nil, Option.or_none]
    exact h
  | cons item items ih =>
    obtain ⟨hhead, htail⟩ := pairwise_cons.mp hitems.ordered
    have hitem := hitems.marked item mem_cons_self
    obtain ⟨offset, bits, rows, hspan, -⟩ := hitem.span
    have hbeforeItem : ∀ p, (f item.type p).isSome → p < offset := fun p hp => by
      have hlt := horder item mem_cons_self p hp
      rw [hspan.tokenPos] at hlt
      exact Int.ofNat_lt.mp hlt
    obtain ⟨v₁, hvisit, hv₁, h₁⟩ := h.takeItem hv hbatch hbefore hspan hbeforeItem
    have hrest : MarkedItems items n :=
      ⟨fun other hother => hitems.marked other (mem_cons_of_mem _ hother), htail⟩
    have horder₁ : ∀ other ∈ items, ∀ p,
        ((f other.type p).or (if item.type = other.type then item.rowAt p else none)).isSome →
        (p : Int) < other.state.tokenPos.offset := by
      intro other hother p hp
      rw [Option.isSome_or, Bool.or_eq_true] at hp
      rcases hp with hp | hp
      · exact horder other (mem_cons_of_mem _ hother) p hp
      · split at hp
        · next htype =>
          have hend := (hitem.inside_of_isSome hp).2
          exact lt_of_lt_of_le hend (hhead other hother htype)
        · cases hp
    obtain ⟨v', hvisits, hv', h'⟩ := ih hrest horder₁ hv₁ h₁
    refine ⟨v', ?_, hv', ?_⟩
    · have happend := EncoderEmbeddingGather.visitAll_append hvisit (items.filterMap
        (updateMMItemScheduleState s.nKvCacheTokens s.qSeqLen pre.length))
      rw [hvisits] at happend
      rw [← happend, filterMap_cons]
      cases updateMMItemScheduleState s.nKvCacheTokens s.qSeqLen pre.length item with
      | none => rfl
      | some item => rfl
    · simp only [rowOf_cons, ← Option.or_assoc]
      exact h'

/-! ## The batch -/

theorem Gathered.takeSequence (hbatch : batch = pre ++ s :: post)
    (hbefore : ∀ type, (before type).length = (pre.map (·.qSeqLen)).sum)
    (hitems : MarkedItems s.mmItems s.numPromptTokens) (hv : ForBatch v batch)
    (h : Gathered v before (s.qSeqLen + todo)) :
    ∃ v', v.visitAll (processMultiModalInputs s pre.length) = .ok (true, v') ∧
      ForBatch v' batch ∧
      Gathered v' (fun type => before type ++
        (List.range' s.nKvCacheTokens s.qSeqLen).map (rowOf s.mmItems type)) todo := by
  unfold processMultiModalInputs
  split
  · next hdecode =>
    refine ⟨v, rfl, hv, ?_⟩
    have hnone : ∀ type, (List.range' s.nKvCacheTokens s.qSeqLen).map (rowOf s.mmItems type) =
        (List.range' s.nKvCacheTokens s.qSeqLen).map fun _ => none := fun type => by
      refine map_congr_left fun p hp => ?_
      rw [List.mem_range'_1] at hp
      refine List.findSome?_eq_none_iff.mpr fun item hitem => ?_
      obtain ⟨offset, bits, rows, hspan, hinside⟩ := (hitems.marked item hitem).span
      have hpast : s.numPromptTokens ≤ s.nKvCacheTokens := hdecode
      rw [hspan.rowAt_outside (Or.inr (hinside.trans (hpast.trans hp.1))), ite_self]
    simp only [hnone]
    exact h.open
  · have hnothing := h.open.takeItems hbatch hbefore hitems
      (fun item _ p habs => absurd habs (by simp)) hv
    exact hnothing

theorem Gathered.takeBatch (hmarked : ∀ s ∈ batch, MarkedItems s.mmItems s.numPromptTokens)
    (hbatch : batch = pre ++ post) (hv : ForBatch v batch)
    (h : Gathered v (batchRows pre) (post.map (·.qSeqLen)).sum) :
    ∃ v', v.visitAll (((post.zipIdx pre.length).map fun entry =>
        processMultiModalInputs entry.1 entry.2).flatten) = .ok (true, v') ∧
      ForBatch v' batch ∧ Gathered v' (batchRows batch) 0 := by
  induction post generalizing pre v with
  | nil =>
    rw [append_nil] at hbatch
    exact ⟨v, rfl, hv, hbatch ▸ h⟩
  | cons s post ih =>
    have hlength : ∀ type, (batchRows pre type).length = (pre.map (·.qSeqLen)).sum := fun type => by
      simp [batchRows, length_flatMap]
    have hitems := hmarked s (hbatch ▸ mem_append_right _ mem_cons_self)
    obtain ⟨v₁, hvisit, hv₁, h₁⟩ := h.takeSequence hbatch hlength hitems hv
    have hrows : (fun type => batchRows pre type ++
        (List.range' s.nKvCacheTokens s.qSeqLen).map (rowOf s.mmItems type)) =
        batchRows (pre ++ [s]) := by
      funext type
      unfold batchRows
      rw [flatMap_append, flatMap_singleton]
    rw [hrows] at h₁
    have hsplit : batch = pre ++ [s] ++ post := by rw [hbatch, List.append_assoc]; rfl
    obtain ⟨v', hvisits, hv', h'⟩ := ih hsplit hv₁ h₁
    refine ⟨v', ?_, hv', h'⟩
    rw [zipIdx_cons, map_cons, flatten_cons,
      EncoderEmbeddingGather.visitAll_append hvisit, ← hvisits, length_append]
    rfl

/-! ## The data of the step -/

theorem safeConcat_of_ne_nil {tensors : List (List α)} (h : tensors ≠ []) :
    EncoderEmbeddingGather.safeConcat tensors = some tensors.flatten := by
  cases tensors with
  | nil => exact absurd rfl h
  | cons tensor tensors => rfl

theorem concat_entries {entries : List (Sigma fun _ : String => List (List α))}
    (hkeys : entries.NodupKeys) (hne : ∀ e ∈ entries, e.2 ≠ []) (data : MMDict α) :
    ∃ data', entries.foldlM (fun data e => (EncoderEmbeddingGather.safeConcat e.2).map fun tensor =>
        data.insert e.1 (.rows tensor)) data = some data' ∧
      ∀ key, data'.lookup key =
        ((entries.dlookup key).map fun tensors => MMValue.rows tensors.flatten).or
          (data.lookup key) := by
  induction entries generalizing data with
  | nil => exact ⟨data, rfl, fun _ => rfl⟩
  | cons e entries ih =>
    obtain ⟨key₀, tensors₀⟩ := e
    obtain ⟨hfirst, hkeys⟩ := nodupKeys_cons.mp hkeys
    obtain ⟨data', hfold, hlookup⟩ := ih hkeys
      (fun e he => hne e (mem_cons_of_mem _ he)) (data.insert key₀ (.rows tensors₀.flatten))
    refine ⟨data', ?_, fun key => ?_⟩
    · rw [foldlM_cons, safeConcat_of_ne_nil (hne _ mem_cons_self)]
      exact hfold
    · rw [hlookup, lookup_insert_eq]
      split
      · next heq =>
        rw [heq, dlookup_cons_eq, dlookup_eq_none.mpr hfirst]
        rfl
      · next hne => rw [dlookup_cons_ne _ _ hne]

/-- What a step gathers for a kind: nothing when no position has a row, or a mask of the positions of
the flattened batch that have one, and the rows in the order of the positions. -/
def Gathers (data : MMDict α) (rows : List (Option α)) (type : MMType) : Prop :=
  (data.lookup (maskKey type) = none ∧ data.lookup (getEmbeddingKey type) = none ∧
    ∀ row ∈ rows, row = none) ∨
  (data.lookup (maskKey type) = some (.mask (rows.map Option.isSome)) ∧
    data.lookup (getEmbeddingKey type) = some (.rows rows.reduceOption))

theorem lookup_insertMask (masks : MMType → Option (List Bool)) (data : MMDict α) (type : MMType)
    (key : String) :
    (EncoderEmbeddingGather.insertMask masks data type).lookup key =
      if key = maskKey type then ((masks type).map MMValue.mask).or (data.lookup key)
      else data.lookup key := by
  unfold EncoderEmbeddingGather.insertMask
  cases masks type with
  | none => simp
  | some mask =>
    rw [lookup_insert_eq]
    split
    · rfl
    · rfl

theorem maskKey_ne_getEmbeddingKey (type type' : MMType) :
    maskKey type ≠ getEmbeddingKey type' := by
  cases type
  all_goals
    cases type'
    all_goals decide

theorem lookup_insertMasks (data : MMDict α) (masks : MMType → Option (List Bool))
    (hmaskless : ∀ type, data.lookup (maskKey type) = none) (type : MMType) :
    ([MMType.image, .video, .audio].foldl (EncoderEmbeddingGather.insertMask masks) data).lookup
        (maskKey type) = (masks type).map MMValue.mask ∧
      ([MMType.image, .video, .audio].foldl (EncoderEmbeddingGather.insertMask masks) data).lookup
        (getEmbeddingKey type) = data.lookup (getEmbeddingKey type) := by
  simp only [foldl_cons, foldl_nil, lookup_insertMask, hmaskless, Option.or_none]
  constructor
  · cases type
    all_goals simp [maskKey]
  · simp [(maskKey_ne_getEmbeddingKey _ type).symm]

theorem Gathered.finish (h : Gathered v (batchRows batch) 0) :
    ∃ data, v.finish = some data ∧ ∀ type, Gathers data (batchRows batch type) type := by
  obtain ⟨data, hfold, hlookup⟩ := concat_entries v.datas.nodupKeys
    (fun e he => (h.tensors e.1 e.2 (mem_entries_iff.mp he)).1) (∅ : MMDict α)
  have hdatas : ∀ key, data.lookup key =
      (v.datas.lookup key).map fun tensors => MMValue.rows tensors.flatten := fun key => by
    rw [hlookup, AList.lookup_empty, Option.or_none]
    rfl
  have hmaskless : ∀ type, data.lookup (maskKey type) = none := fun type => by
    rw [hdatas, Option.map_eq_none_iff, ← Option.not_isSome_iff_eq_none]
    intro hsome
    obtain ⟨tensors, htensors⟩ := Option.isSome_iff_exists.mp hsome
    obtain ⟨-, other, hkey⟩ := h.tensors _ _ htensors
    exact maskKey_ne_getEmbeddingKey type other hkey
  refine ⟨_, by rw [EncoderEmbeddingGather.finish, hfold]; rfl, fun type => ?_⟩
  obtain ⟨hmasks, hrows⟩ := lookup_insertMasks data v.masks hmaskless type
  unfold Gathers
  rw [hmasks, hrows, hdatas]
  have hgathered := h.rows type
  cases hmask : v.masks type with
  | none =>
    have hlookup := (h.both type).mp hmask
    rw [hlookup] at hgathered ⊢
    refine Or.inl ⟨rfl, rfl, fun row hrow => ?_⟩
    cases row with
    | none => rfl
    | some row =>
      have hmem : row ∈ (batchRows batch type).reduceOption := reduceOption_mem_iff.mpr hrow
      rw [← hgathered] at hmem
      cases hmem
  | some mask =>
    have hmaskOf := h.mask type
    rw [EncoderEmbeddingGather.maskOf, hmask, Option.getD_some, replicate_zero,
      append_nil] at hmaskOf
    cases hdata : v.datas.lookup (getEmbeddingKey type) with
    | none => exact absurd ((h.both type).mpr hdata) (by rw [hmask]; simp)
    | some tensors =>
      rw [hdata, Option.getD_some] at hgathered
      refine Or.inr ⟨?_, ?_⟩
      · rw [Option.map_some, hmaskOf]
      · rw [Option.map_some, hgathered]

/-- A step: no check fires, and for each kind the mask marks exactly the positions of the flattened
batch that have a row, and the rows are theirs, in order. -/
theorem prepare_gathers (cumulative : Bool)
    (hmarked : ∀ s ∈ batch, MarkedItems s.mmItems s.numPromptTokens) :
    ∃ data, prepareEmbeddings cumulative batch = .ok data ∧
      ∀ type, Gathers data (batchRows batch type) type := by
  obtain ⟨v, hmake, hv, hmasks, hdatas⟩ := make_batch cumulative batch
  have hstart : Gathered v (batchRows []) (batch.map (·.qSeqLen)).sum := by
    refine ⟨fun type => ?_, fun type => ?_, fun type => ?_, fun key tensors habs => ?_⟩
    · rw [EncoderEmbeddingGather.maskOf, hmasks, hv.total]
      rfl
    · rw [hdatas]
      rfl
    · rw [hmasks, hdatas]
      exact ⟨fun _ => rfl, fun _ => rfl⟩
    · rw [hdatas] at habs
      cases habs
  obtain ⟨v', hvisits, -, h'⟩ := hstart.takeBatch hmarked (nil_append batch).symm hv
  obtain ⟨data, hfinish, hgathers⟩ := h'.finish
  refine ⟨data, ?_, hgathers⟩
  unfold prepareEmbeddings
  rw [length_nil] at hvisits
  simp only [hmake, hvisits, hfinish]

end Xllm.Framework
