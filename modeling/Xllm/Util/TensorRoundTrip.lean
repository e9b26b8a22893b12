import Xllm.Util.TensorDecoding

/-!
# Tensors that come back

The binary form gives back every tensor, also when other tensors share the payload
(`roundTrip_binary`). The inline form reads two-byte numbers from `data_ptr` as they lie in
memory, on the host, where the other types are made contiguous and copied to the host first; so a
tensor of two-byte numbers comes back exactly when its elements lie there one after the other
(`roundTrip_inline_iff`).
-/

namespace Xllm.Util

open Xllm.Lib List

/-! ## The memory of a tensor -/

variable {sizes : List Nat}

theorem length_elementOffsets {strides : List Nat} (h : strides.length = sizes.length)
    (base : Nat) : (elementOffsets sizes strides base).length = sizes.prod := by
  induction sizes generalizing strides base with
  | nil =>
    cases strides with
    | nil => rfl
    | cons stride strides => cases h
  | cons size sizes ih =>
    cases strides with
    | nil => cases h
    | cons stride strides =>
      have hrest : ∀ base, (elementOffsets sizes strides base).length = sizes.prod :=
        ih (Nat.succ.inj h)
      rw [elementOffsets, length_flatMap, prod_cons]
      simp only [hrest, map_const', length_range, sum_replicate_nat]

theorem length_elementsAt {storage : List UInt8} {elementSize : Nat} {places : List Nat}
    (h : ∀ place ∈ places, (place + 1) * elementSize ≤ storage.length) :
    (elementsAt storage elementSize places).length = places.length * elementSize := by
  induction places with
  | nil => exact (Nat.zero_mul elementSize).symm
  | cons place places ih =>
    have hplace := h place mem_cons_self
    rw [Nat.succ_mul] at hplace
    unfold elementsAt at ih ⊢
    rw [flatMap_cons, length_append, ih fun p hp => h p (mem_cons_of_mem _ hp),
      length_take, length_drop, Nat.min_eq_left (by omega), length_cons,
      Nat.succ_mul, Nat.add_comm]

namespace TorchTensor

variable {t : TorchTensor}

theorem length_contiguous (t : TorchTensor) :
    t.contiguous.length = t.numel * t.dtype.elementSize := by
  unfold contiguous numel
  rw [length_elementsAt t.in_storage, length_elementOffsets t.strides_length]

theorem sizes_pos (hnumel : t.numel ≠ 0) : ∀ size ∈ t.sizes, 0 < size := by
  intro size hsize
  apply Nat.pos_of_ne_zero
  intro hzero
  have hmem : (0 : Nat) ∈ t.sizes := hzero ▸ hsize
  obtain ⟨before, after, heq⟩ := append_of_mem hmem
  apply hnumel
  unfold numel
  rw [heq, prod_append, prod_cons, Nat.zero_mul, Nat.mul_zero]

end TorchTensor

/-! ## Words and truth values -/

variable {n k : Nat} {memory : List UInt8}

theorem flatten_words (hn : 0 < n) (h : memory.length = k * n) :
    (words n memory).flatten = memory ∧ (words n memory).length = k ∧
      ∀ bytes ∈ words n memory, bytes.length = n := by
  have hk : memory.length / n = k := by rw [h, Nat.mul_div_cancel _ hn]
  unfold words
  rw [hk]
  refine ⟨?_, ?_, ?_⟩
  · have hslices := flatMap_slices memory k n
    rw [flatMap_def] at hslices
    rw [hslices, take_of_length_le (Nat.le_of_eq h)]
  · rw [length_map, length_range]
  · intro bytes hbytes
    obtain ⟨i, hi, heq⟩ := mem_map.mp hbytes
    have hi : (i + 1) * n ≤ k * n := Nat.mul_le_mul_right n (mem_range.mp hi)
    rw [Nat.succ_mul] at hi
    rw [← heq, length_take, length_drop]
    omega

theorem map_toWords (hn : 0 < n) (h : memory.length = k * n) :
    (toWords n memory).map Subtype.val = words n memory := by
  obtain ⟨_, _, hwords⟩ := flatten_words hn h
  unfold toWords
  generalize words n memory = bytes at hwords ⊢
  induction bytes with
  | nil => rfl
  | cons word bytes ih =>
    have hword := hwords word mem_cons_self
    rw [filterMap_cons_some (by rw [dif_pos hword]), map_cons,
      ih fun b hb => hwords b (mem_cons_of_mem _ hb)]

theorem wordsOf_eq_ok (hn : 0 < n) (h : memory.length = k * n) (hmax : k ≤ repeatedFieldMax) :
    wordsOf n memory = .ok (toWords n memory) ∧ (toWords n memory).length = k ∧
      (toWords n memory).flatMap Subtype.val = memory := by
  have hk : memory.length / n = k := by rw [h, Nat.mul_div_cancel _ hn]
  obtain ⟨hflatten, hcount, _⟩ := flatten_words hn h
  have hmap := map_toWords hn h
  refine ⟨?_, ?_, ?_⟩
  · unfold wordsOf
    rw [hk, if_pos hmax]
  · have hlength := congrArg List.length hmap
    rw [length_map, hcount] at hlength
    exact hlength
  · rw [flatMap_def, hmap, hflatten]

theorem boolsOf_eq_ok (hbools : ∀ b ∈ memory, b = 0 ∨ b = 1)
    (hmax : memory.length ≤ repeatedFieldMax) :
    ∃ values : List Bool, boolsOf memory = .ok values ∧ values.length = memory.length ∧
      values.flatMap (fun b => [boolByte b]) = memory := by
  refine ⟨memory.map fun b => b != 0, ?_, length_map _, ?_⟩
  · unfold boolsOf
    rw [if_pos hmax]
  · rw [flatMap_map]
    clear hmax
    induction memory with
    | nil => rfl
    | cons b memory ih =>
      rw [flatMap_cons, ih fun c hc => hbools c (mem_cons_of_mem _ hc)]
      cases hbools b mem_cons_self with
      | inl h => rw [h]; rfl
      | inr h => rw [h]; rfl

/-! ## The inline form -/

/-- A tensor that a round trip is asked of: of a supported type, not empty, and of some
rank. -/
structure Serializable (t : TorchTensor) (datatype : Datatype) : Prop where
  supported : torchDatatypeToProto t.dtype = some datatype
  nonempty : t.numel ≠ 0
  rank : t.sizes ≠ []

variable {t : TorchTensor} {datatype : Datatype}

theorem Serializable.scalarType_eq (h : Serializable t datatype) :
    datatype.scalarType = t.dtype := by
  have hsupported := h.supported
  cases hdtype : t.dtype with
  | other size => rw [hdtype] at hsupported; cases hsupported
  | bool | int | long | float | double | byte | half | bfloat16 =>
    rw [hdtype] at hsupported
    cases hsupported
    rfl

theorem find_name (datatype : Datatype) : Datatype.find datatype.name = some datatype := by
  cases datatype <;> decide

theorem name_isEmpty (datatype : Datatype) : datatype.name.isEmpty = false := by
  cases datatype <;> decide

theorem Serializable.shape (h : Serializable t datatype) :
    (t.sizes.map (Nat.cast : Nat → Int)).isEmpty = false ∧
      (∀ dim ∈ t.sizes.map (Nat.cast : Nat → Int), 0 < dim) ∧
      (t.sizes.map (Nat.cast : Nat → Int)).prod = t.numel := by
  refine ⟨?_, ?_, ?_⟩
  · have hrank := h.rank
    cases hsizes : t.sizes with
    | nil => exact absurd hsizes hrank
    | cons size sizes => rfl
  · intro dim hdim
    obtain ⟨size, hsize, heq⟩ := mem_map.mp hdim
    rw [← heq]
    exact Int.natCast_pos.mpr (TorchTensor.sizes_pos h.nonempty size hsize)
  · unfold TorchTensor.numel
    generalize t.sizes = sizes
    induction sizes with
    | nil => rfl
    | cons size sizes ih => rw [map_cons, prod_cons, ih, prod_cons, Int.natCast_mul]

theorem Serializable.numel_le (h : Serializable t datatype) : t.numel ≤ int64Max := by
  have hsize : 1 ≤ t.dtype.elementSize := by
    have hscalar := h.scalarType_eq
    rw [← hscalar]
    cases datatype <;> decide
  exact Nat.le_trans (Nat.le_mul_of_pos_right _ hsize) t.fits

/-- A tensor is encoded inline and decoded to itself. -/
def RoundTripsInline (t : TorchTensor) : Prop :=
  ∃ p, torchToProto t = .ok (some p) ∧ protoToTorch p = .ok (some t.value)

theorem torchToProto_eq (hsupported : torchDatatypeToProto t.dtype = some datatype)
    (hnonempty : t.numel ≠ 0) :
    torchToProto t = (do
      match ← setContents t with
      | none => return none
      | some contents => return some {
          datatype := datatype.name
          shape := t.sizes.map Nat.cast
          contents := some contents }) := by
  unfold torchToProto
  rewrite [if_neg hnonempty, hsupported]
  rfl

/-- What is read back is what was put into the contents. -/
theorem protoToTorch_of_contents (h : Serializable t datatype) {contents : TensorContents}
    (hset : setContents t = .ok (some contents))
    (hdata : contentsData contents datatype = (some memory, t.numel))
    (hlength : memory.length = t.numel * t.dtype.elementSize) :
    ∃ p, torchToProto t = .ok (some p) ∧
      protoToTorch p = .ok (some ⟨t.dtype, t.sizes.map Nat.cast, memory⟩) := by
  obtain ⟨hshape, hpos, hprod⟩ := h.shape
  have hencode := torchToProto_eq h.supported h.nonempty
  rw [hset, ok_bind] at hencode
  have hfront : (positiveFront (t.sizes.map (Nat.cast : Nat → Int))).prod ≤ int64Max := by
    rw [positiveFront_of_pos hpos, hprod]
    exact Int.ofNat_le.mpr h.numel_le
  refine ⟨_, hencode, ?_⟩
  obtain ⟨_, hnot⟩ | ⟨_, memory', hmemory, _, hrun⟩ :=
    @protoToTorch_cases
      { datatype := datatype.name, shape := t.sizes.map Nat.cast, contents := some contents }
      contents datatype (name_isEmpty datatype) hshape rfl (find_name datatype) hfront
  · refine absurd ⟨hpos, memory, ?_, ?_⟩ hnot
    · rw [hdata]
    · rw [hdata]
      exact hprod.symm
  · rw [hdata] at hmemory
    cases hmemory
    rw [hrun, hdata, h.scalarType_eq, take_of_length_le (Nat.le_of_eq hlength)]

theorem roundTripsInline_of_contents (h : Serializable t datatype) {contents : TensorContents}
    (hset : setContents t = .ok (some contents))
    (hdata : contentsData contents datatype = (some memory, t.numel))
    (hlength : memory.length = t.numel * t.dtype.elementSize) :
    RoundTripsInline t ↔ memory = t.contiguous := by
  obtain ⟨p, hencode, hdecode⟩ := protoToTorch_of_contents h hset hdata hlength
  constructor
  · rintro ⟨p', hp', hvalue⟩
    rw [hencode] at hp'
    cases hp'
    rw [hdecode] at hvalue
    exact congrArg Tensor.data (Option.some.inj (Except.ok.inj hvalue))
  · intro heq
    refine ⟨p, hencode, ?_⟩
    rw [hdecode, heq]
    rfl

theorem not_roundTripsInline_of_error (h : Serializable t datatype) {fault : Fault}
    (hset : setContents t = .error fault) : ¬ RoundTripsInline t := by
  intro hround
  obtain ⟨p, hp, _⟩ := hround
  rw [torchToProto_eq h.supported h.nonempty, hset] at hp
  cases hp

/-- The types whose numbers have two bytes. -/
def ScalarType.isTwoByte : ScalarType → Bool
  | .half => true
  | .bfloat16 => true
  | _ => false

/-- The tensors that the inline form keeps: a repeated field can count the elements, and two-byte
numbers lie in the memory of the host from `data_ptr` on, in the order of the elements. -/
structure KeptInline (t : TorchTensor) : Prop where
  count : t.dtype.isTwoByte = false → t.dtype ≠ .byte → t.numel ≤ repeatedFieldMax
  inOrder : t.dtype.isTwoByte = true → t.device = .cpu ∧
    (t.storage.drop (t.storageOffset * 2)).take (t.numel * 2) = t.contiguous

theorem repeatedData_of_nonempty {α : Type} {bytes : α → List UInt8} {values : List α}
    (h : values.length ≠ 0) : repeatedData bytes values = some (values.flatMap bytes) := by
  cases values with
  | nil => exact absurd rfl h
  | cons value values => rfl

/-- A repeated field keeps a tensor if it can count the elements. -/
theorem roundTripsInline_repeated (h : Serializable t datatype) {α : Type}
    {read : Except Fault (List α)} {bytes : α → List UInt8} {put : List α → TensorContents}
    (hset : setContents t = do
      let values ← read
      return some (put values))
    (hdata : ∀ values, contentsData (put values) datatype =
      (repeatedData bytes values, values.length))
    (hread : t.numel ≤ repeatedFieldMax → ∃ values, read = .ok values ∧
      values.length = t.numel ∧ values.flatMap bytes = t.contiguous)
    (hmany : ¬ t.numel ≤ repeatedFieldMax → read = .error .repeatedField) :
    RoundTripsInline t ↔ t.numel ≤ repeatedFieldMax := by
  by_cases hmax : t.numel ≤ repeatedFieldMax
  · obtain ⟨values, hvalues, hcount, hmemory⟩ := hread hmax
    rw [hvalues] at hset
    have hnonempty : values.length ≠ 0 := by
      rw [hcount]
      exact h.nonempty
    have hcontents := hdata values
    rw [repeatedData_of_nonempty hnonempty, hcount, hmemory] at hcontents
    rw [roundTripsInline_of_contents h hset hcontents (TorchTensor.length_contiguous t)]
    exact iff_of_true rfl hmax
  · rw [hmany hmax] at hset
    exact iff_of_false (not_roundTripsInline_of_error h hset) hmax

theorem roundTripsInline_words (h : Serializable t datatype) (hn : 0 < n)
    (hsize : t.dtype.elementSize = n) {put : List (Word n) → TensorContents}
    (hset : setContents t = do
      let values ← wordsOf n t.contiguous
      return some (put values)) (hdata : ∀ values, contentsData (put values) datatype =
      (repeatedData Subtype.val values, values.length)) :
    RoundTripsInline t ↔ t.numel ≤ repeatedFieldMax := by
  have hlength : t.contiguous.length = t.numel * n := by
    rw [TorchTensor.length_contiguous, hsize]
  refine roundTripsInline_repeated h hset hdata
    (fun hmax => ⟨_, wordsOf_eq_ok hn hlength hmax⟩) fun hmax => ?_
  unfold wordsOf
  rw [hlength, Nat.mul_div_cancel _ hn, if_neg hmax]

theorem roundTripsInline_bool (h : Serializable t datatype) (hdtype : t.dtype = .bool) :
    RoundTripsInline t ↔ t.numel ≤ repeatedFieldMax := by
  have hsupported := h.supported
  rw [hdtype] at hsupported
  cases hsupported
  have hlength : t.contiguous.length = t.numel := by
    rw [TorchTensor.length_contiguous, hdtype]
    exact Nat.mul_one _
  have hbools : ∀ b ∈ t.contiguous, b = 0 ∨ b = 1 := by
    have hb := t.bools hdtype
    unfold TorchTensor.contiguous
    rw [hdtype]
    exact hb
  have hset : setContents t = do
      let values ← boolsOf t.contiguous
      return some { boolContents := values } := by
    unfold setContents
    rw [hdtype]
  refine roundTripsInline_repeated h hset (fun values => rfl) (fun hmax => ?_) fun hmax => ?_
  · rw [← hlength] at hmax ⊢
    exact boolsOf_eq_ok hbools hmax
  · unfold boolsOf
    rw [hlength, if_neg hmax]

/-- The read of a two-byte type is not made contiguous, nor brought to the host. -/
theorem setContents_twoByte (htwo : t.dtype.isTwoByte = true) :
    t.dtype.elementSize = 2 ∧ setContents t = do
      let bytes ← t.readFromDataPtr (t.numel * 2)
      return some { bytesContents := bytes } := by
  unfold setContents
  cases hdtype : t.dtype with
  | half | bfloat16 => exact ⟨rfl, rfl⟩
  | bool | int | long | float | double | byte | other size => rw [hdtype] at htwo; cases htwo

theorem contents_twoByte (h : Serializable t datatype) (htwo : t.dtype.isTwoByte = true)
    (hcpu : t.device = .cpu)
    (hmemory : t.numel * 2 ≤ (t.storage.drop (t.storageOffset * 2)).length) :
    setContents t = .ok (some
        { bytesContents := (t.storage.drop (t.storageOffset * 2)).take (t.numel * 2) }) ∧
      contentsData { bytesContents := (t.storage.drop (t.storageOffset * 2)).take (t.numel * 2) }
        datatype = (some ((t.storage.drop (t.storageOffset * 2)).take (t.numel * 2)), t.numel) ∧
      ((t.storage.drop (t.storageOffset * 2)).take (t.numel * 2)).length =
        t.numel * t.dtype.elementSize := by
  obtain ⟨hsize, hset⟩ := setContents_twoByte htwo
  have hhalf : datatype.isHalf = true := by
    have hsupported := h.supported
    cases hdtype : t.dtype with
    | half | bfloat16 => rw [hdtype] at hsupported; cases hsupported; rfl
    | bool | int | long | float | double | byte | other size => rw [hdtype] at htwo; cases htwo
  have hlength : ((t.storage.drop (t.storageOffset * 2)).take (t.numel * 2)).length =
      t.numel * 2 := by
    rw [length_take, Nat.min_eq_left hmemory]
  refine ⟨?_, ?_, by rw [hlength, hsize]⟩
  · rw [hset, TorchTensor.readFromDataPtr, hcpu, hsize]
    unfold readMemory
    rw [if_pos hmemory]
    rfl
  · rw [(contentsData_half hhalf).1, hlength, Nat.mul_div_cancel _ (by decide)]

theorem setContents_twoByte_error (htwo : t.dtype.isTwoByte = true)
    (h : ¬ (t.device = .cpu ∧
      t.numel * 2 ≤ (t.storage.drop (t.storageOffset * 2)).length)) :
    setContents t = .error .outOfBounds := by
  obtain ⟨hsize, hset⟩ := setContents_twoByte htwo
  rw [hset, TorchTensor.readFromDataPtr, hsize]
  cases hdevice : t.device with
  | accelerator => rfl
  | cpu =>
    unfold readMemory
    rw [if_neg fun hmemory => h ⟨hdevice, hmemory⟩]
    rfl

theorem roundTripsInline_twoByte (h : Serializable t datatype) (htwo : t.dtype.isTwoByte = true) :
    RoundTripsInline t ↔ t.device = .cpu ∧
      (t.storage.drop (t.storageOffset * 2)).take (t.numel * 2) = t.contiguous := by
  by_cases hread : t.device = .cpu ∧
      t.numel * 2 ≤ (t.storage.drop (t.storageOffset * 2)).length
  · obtain ⟨hset, hdata, hlength⟩ := contents_twoByte h htwo hread.1 hread.2
    rw [roundTripsInline_of_contents h hset hdata hlength, and_iff_right hread.1]
  · refine iff_of_false
      (not_roundTripsInline_of_error h (setContents_twoByte_error htwo hread)) fun hkept => ?_
    have hlength := congrArg List.length hkept.2
    rw [length_take, TorchTensor.length_contiguous, (setContents_twoByte htwo).1] at hlength
    exact hread ⟨hkept.1, by omega⟩

/-- The inline form gives a tensor back if and only if it is one of those it keeps. -/
theorem roundTrip_inline_iff (h : Serializable t datatype) : RoundTripsInline t ↔ KeptInline t := by
  have hone (htwo : t.dtype.isTwoByte = false) (hbyte : t.dtype ≠ .byte)
      (hround : RoundTripsInline t ↔ t.numel ≤ repeatedFieldMax) :
      RoundTripsInline t ↔ KeptInline t := by
    rw [hround]
    refine ⟨fun hmax => ⟨fun _ _ => hmax, fun h => ?_⟩, fun hkept => hkept.count htwo hbyte⟩
    rw [htwo] at h
    cases h
  have htwo (htwo : t.dtype.isTwoByte = true) : RoundTripsInline t ↔ KeptInline t := by
    rw [roundTripsInline_twoByte h htwo]
    refine ⟨fun hmemory => ⟨fun h => ?_, fun _ => hmemory⟩, fun hkept => hkept.inOrder htwo⟩
    rw [htwo] at h
    cases h
  have hsupported := h.supported
  cases hdtype : t.dtype with
  | other size => rw [hdtype] at hsupported; cases hsupported
  | half => exact htwo (by rw [hdtype]; rfl)
  | bfloat16 => exact htwo (by rw [hdtype]; rfl)
  | bool =>
    exact hone (by rw [hdtype]; rfl) (by rw [hdtype]; decide) (roundTripsInline_bool h hdtype)
  | byte =>
    have hset : setContents t = .ok (some { bytesContents := t.contiguous }) := by
      unfold setContents
      rw [hdtype]
      rfl
    have hlength : t.contiguous.length = t.numel := by
      rw [TorchTensor.length_contiguous, hdtype]
      exact Nat.mul_one _
    have hcontents : contentsData { bytesContents := t.contiguous } datatype =
        (some t.contiguous, t.numel) := by
      rw [hdtype] at hsupported
      cases hsupported
      show (some t.contiguous, t.contiguous.length) = _
      rw [hlength]
    rw [roundTripsInline_of_contents h hset hcontents (TorchTensor.length_contiguous t)]
    refine iff_of_true rfl ⟨fun _ hbyte => absurd hdtype hbyte, fun h => ?_⟩
    rw [hdtype] at h
    cases h
  | int | long | float | double =>
    have hset := setContents.eq_def t
    rw [hdtype] at hsupported hset
    cases hsupported
    exact hone (by rw [hdtype]; rfl) (by rw [hdtype]; decide)
      (roundTripsInline_words h (by decide) (by rw [hdtype]; rfl) hset fun values => rfl)

/-! ## The binary form -/

theorem elementCount_eq {count : Nat} (hpos : 0 < count)
    (hsizes : ∀ size ∈ sizes, 0 < size) (hmax : count * sizes.prod ≤ sizeMax) :
    elementCount (sizes.map (Nat.cast : Nat → Int)) count = .ok (some (count * sizes.prod)) := by
  induction sizes generalizing count with
  | nil => rw [prod_nil, Nat.mul_one]; rfl
  | cons size sizes ih =>
    have hsize := hsizes size mem_cons_self
    have hrest : ∀ s ∈ sizes, 0 < s := fun s hs => hsizes s (mem_cons_of_mem _ hs)
    rw [prod_cons, ← Nat.mul_assoc] at hmax ⊢
    have hprod : 0 < sizes.prod := prod_pos hrest
    have hmul : count * size ≤ sizeMax := Nat.le_trans (Nat.le_mul_of_pos_right _ hprod) hmax
    have hdiv : size ≤ sizeMax / count := by
      rw [Nat.le_div_iff_mul_le hpos, Nat.mul_comm]
      exact hmul
    rw [map_cons, elementCount, Int.toNat_natCast, if_neg (by omega)]
    unfold mulSize
    rw [if_pos hmul, ok_bind, ih (Nat.mul_pos hpos hsize) hrest hmax]

/-- The message that a tensor gets whose bytes start at an offset of the payload. -/
def binaryMessage (t : TorchTensor) (datatype : Datatype) (offset : Nat) : ProtoTensor where
  datatype := datatype.name
  shape := t.sizes.map Nat.cast
  contents := none
  parameters := [("is_binary", { boolParam := some true }),
    ("offset", { int64Param := some offset }),
    ("len", { int64Param := some t.contiguous.length })]

theorem Serializable.elementSize_pos (h : Serializable t datatype) : 0 < t.dtype.elementSize := by
  rw [← h.scalarType_eq]
  cases datatype <;> decide

variable {payload : List UInt8}

theorem torchToProtoBinary_eq (h : Serializable t datatype) (hpayload : payload.length ≤ int64Max) :
    torchToProtoBinary t payload =
      .ok (some (binaryMessage t datatype payload.length, payload ++ t.contiguous)) := by
  have hfits : t.numel * t.dtype.elementSize ≤ int64Max := t.fits
  have hsize : t.numel * t.dtype.elementSize ≤ sizeMax := Nat.le_trans hfits (by decide)
  have hdiv : t.numel ≤ sizeMax / t.dtype.elementSize :=
    (Nat.le_div_iff_mul_le h.elementSize_pos).mpr hsize
  unfold torchToProtoBinary
  rw [if_neg h.nonempty, h.supported]
  dsimp only
  rw [if_neg (by omega)]
  unfold mulSize
  rw [if_pos hsize, ok_bind, if_neg (by omega)]
  unfold binaryMessage
  rw [TorchTensor.length_contiguous]
  rfl

theorem binaryMessage_decoded (h : Serializable t datatype) {offset payloadSize : Nat}
    {copyFn : Nat → Nat → Except Fault (Option (List UInt8))}
    (hinside : offset + t.contiguous.length ≤ payloadSize)
    (hcopy : copyFn offset t.contiguous.length = .ok (some t.contiguous)) :
    binaryProtoToTorch (binaryMessage t datatype offset) payloadSize copyFn =
      .ok (some t.value) := by
  obtain ⟨hshape, hpos, _⟩ := h.shape
  have hlength := TorchTensor.length_contiguous t
  have hfits : t.numel * t.dtype.elementSize ≤ int64Max := t.fits
  have hsize : t.numel * t.dtype.elementSize ≤ sizeMax := Nat.le_trans hfits (by decide)
  have hdiv : t.numel ≤ sizeMax / t.dtype.elementSize :=
    (Nat.le_div_iff_mul_le h.elementSize_pos).mpr hsize
  have hlengthPos : 0 < t.contiguous.length := by
    rw [hlength]
    exact Nat.mul_pos (Nat.pos_of_ne_zero h.nonempty) h.elementSize_pos
  have hcount : elementCount (t.sizes.map (Nat.cast : Nat → Int)) 1 = .ok (some t.numel) := by
    have hnumel : 1 * t.sizes.prod ≤ sizeMax := by
      rw [Nat.one_mul]
      exact Nat.le_trans h.numel_le (by decide)
    rw [elementCount_eq Nat.one_pos (TorchTensor.sizes_pos h.nonempty) hnumel, Nat.one_mul]
    rfl
  have hrange : binaryRange (binaryMessage t datatype offset) =
      some ((offset : Int), (t.contiguous.length : Int)) := rfl
  have hbinary : isBinary (binaryMessage t datatype offset) = true := rfl
  have hname : ¬ ((binaryMessage t datatype offset).datatype.isEmpty = true ∨
      (binaryMessage t datatype offset).shape.isEmpty = true) := by
    intro hempty
    obtain hempty | hempty := hempty
    · exact absurd hempty (by rw [binaryMessage, name_isEmpty]; decide)
    · exact absurd hempty (by rw [binaryMessage, hshape]; decide)
  have hfind : Datatype.find (binaryMessage t datatype offset).datatype = some datatype :=
    find_name datatype
  have hdims : elementCount (binaryMessage t datatype offset).shape 1 = .ok (some t.numel) := hcount
  unfold binaryProtoToTorch
  rw [if_neg (by rw [hbinary]; decide), hrange]
  dsimp only
  rw [if_neg (by omega), Int.toNat_natCast, Int.toNat_natCast, if_neg (by omega), if_neg hname,
    datatypeProtoToTorch, hfind, if_neg (by rw [Option.isNone_some]; decide)]
  rw [ok_bind, hdims, ok_bind]
  dsimp only
  rw [h.scalarType_eq, if_neg (by omega)]
  unfold mulSize
  rw [if_pos hsize, ok_bind, if_neg (by rw [hlength]; omega), hcopy]
  rfl

/-- The tensors that are appended to a payload one after the other. -/
def appendTensors : List TorchTensor → List UInt8 →
    Except Fault (Option (List ProtoTensor × List UInt8))
  | [], payload => .ok (some ([], payload))
  | t :: tensors, payload => do
    match ← torchToProtoBinary t payload with
    | none => return none
    | some (message, payload) =>
      match ← appendTensors tensors payload with
      | none => return none
      | some (messages, payload) => return some (message :: messages, payload)

/-- A message gives the tensor back from a payload, in one string or in blocks. -/
def DecodesTo (payload : List UInt8) (t : TorchTensor) (message : ProtoTensor) : Prop :=
  protoToTorchString message payload = .ok (some t.value) ∧
  ∀ blocks : List (List UInt8), blocks.flatten = payload →
    protoToTorchPayload message blocks = .ok (some t.value)

theorem decodesTo_binaryMessage (h : Serializable t datatype) (before after : List UInt8) :
    DecodesTo (before ++ t.contiguous ++ after) t (binaryMessage t datatype before.length) := by
  have hlength : (before ++ t.contiguous ++ after).length =
      before.length + t.contiguous.length + after.length := by
    rw [length_append, length_append]
  have hcopied : ((before ++ t.contiguous ++ after).drop before.length).take t.contiguous.length =
      t.contiguous := by
    rw [List.append_assoc, drop_left, take_left]
  constructor
  · apply binaryMessage_decoded h (by omega)
    rw [if_pos (by omega), hcopied]
  · intro blocks hblocks
    apply binaryMessage_decoded h (by rw [hblocks]; omega)
    rw [hblocks, if_pos ⟨by omega, by omega⟩, hcopied]

theorem roundTrip_binary {tensors : List TorchTensor}
    (hserializable : ∀ t ∈ tensors, ∃ datatype, Serializable t datatype)
    (hcapacity : payload.length + (tensors.map fun t => t.contiguous.length).sum ≤ int64Max) :
    ∃ messages appended, appendTensors tensors payload =
        .ok (some (messages, payload ++ appended)) ∧
      ∀ after, List.Forall₂ (DecodesTo (payload ++ appended ++ after)) tensors messages := by
  induction tensors generalizing payload with
  | nil =>
    refine ⟨[], [], ?_, fun after => List.Forall₂.nil⟩
    rw [append_nil]
    rfl
  | cons t tensors ih =>
    obtain ⟨datatype, h⟩ := hserializable t mem_cons_self
    rw [map_cons, sum_cons] at hcapacity
    have hrest : (payload ++ t.contiguous).length +
        (tensors.map fun t => t.contiguous.length).sum ≤ int64Max := by
      rw [length_append]
      omega
    obtain ⟨messages, appended, hrun, hdecodes⟩ :=
      ih (fun u hu => hserializable u (mem_cons_of_mem _ hu)) hrest
    refine ⟨binaryMessage t datatype payload.length :: messages, t.contiguous ++ appended, ?_, ?_⟩
    · unfold appendTensors
      rw [torchToProtoBinary_eq h (by omega), ok_bind]
      dsimp only
      rw [hrun, ok_bind, List.append_assoc]
      rfl
    · intro after
      have hhead := decodesTo_binaryMessage h payload (appended ++ after)
      have htail := hdecodes after
      rw [← List.append_assoc] at hhead
      rw [← List.append_assoc]
      exact List.Forall₂.cons hhead htail

/-! ## Both directions -/

/-- A message is decoded exactly or refused if and only if it is in the binary form or has none of
the defects of the inline form. A tensor comes back from the inline form if and only if it is one
of those that form keeps, and from the binary form always, with every other tensor of the payload.
-/
theorem conversions_exact_iff (t : TorchTensor) :
    (∀ message payload,
      ExactOrRefused message (supplied message payload) (protoToTorchString message payload) ↔
        isBinary message = true ∨ ¬ InlineDefect message) ∧
    (∀ message blocks, ExactOrRefused message (supplied message blocks.flatten)
          (protoToTorchPayload message blocks) ↔ isBinary message = true ∨ ¬ InlineDefect message) ∧
    (∀ message, ExactOrRefused message (suppliedInline message) (protoToTorch message) ↔
        ¬ InlineDefect message) ∧
    (∀ datatype, Serializable t datatype → (RoundTripsInline t ↔ KeptInline t)) ∧
    ∀ tensors payload, (∀ t ∈ tensors, ∃ datatype, Serializable t datatype) →
      payload.length + (tensors.map fun t => t.contiguous.length).sum ≤ int64Max →
      ∃ messages appended, appendTensors tensors payload =
          .ok (some (messages, payload ++ appended)) ∧
        ∀ after, List.Forall₂ (DecodesTo (payload ++ appended ++ after)) tensors messages :=
  ⟨exactOrRefused_string, exactOrRefused_payload, exactOrRefused_inline,
    fun _ => roundTrip_inline_iff, fun _ _ => roundTrip_binary⟩

/-- Two brain floats in a row and the same two the other way round. -/
def halvesRow (storage : List UInt8) (h : storage.length = 4) : TorchTensor where
  dtype := .bfloat16
  device := .cpu
  sizes := [2]
  strides := [1]
  storageOffset := 0
  storage := storage
  strides_length := rfl
  in_storage := by
    rw [h]
    decide
  bools := by
    intro hdtype
    cases hdtype
  fits := by decide

/-- Two of them go into one payload and come back, and each comes back inline. -/
theorem conversions_exact_iff_two :
    RoundTripsInline (halvesRow [1, 2, 3, 4] rfl) ∧
    ∃ messages appended,
      appendTensors [halvesRow [1, 2, 3, 4] rfl, halvesRow [5, 6, 7, 8] rfl] [9] =
        .ok (some (messages, [9] ++ appended)) ∧
      ∀ after, List.Forall₂ (DecodesTo ([9] ++ appended ++ after))
        [halvesRow [1, 2, 3, 4] rfl, halvesRow [5, 6, 7, 8] rfl] messages := by
  have hserializable (storage : List UInt8) (h : storage.length = 4) :
      Serializable (halvesRow storage h) .bf16 :=
    ⟨rfl, Nat.succ_ne_zero 1, cons_ne_nil _ _⟩
  obtain ⟨_, _, _, hinline, hbinary⟩ := conversions_exact_iff (halvesRow [1, 2, 3, 4] rfl)
  refine ⟨(hinline _ (hserializable _ rfl)).mpr ⟨fun h => ?_, fun _ => ⟨rfl, rfl⟩⟩,
    hbinary _ _ ?_ (by decide)⟩
  · cases h
  · intro t ht
    obtain rfl | rfl := by simpa using ht
    · exact ⟨.bf16, hserializable _ rfl⟩
    · exact ⟨.bf16, hserializable _ rfl⟩

def unknownDatatype : ProtoTensor where
  datatype := "INT8"
  shape := [1]
  contents := some {}

def wrappingShape : ProtoTensor where
  datatype := "BF16"
  shape := [2 ^ 62, 4]
  contents := some {}

def oddHalves : ProtoTensor where
  datatype := "FP16"
  shape := [1]
  contents := some { bytesContents := [1, 2, 3] }

/-- The transpose of a two by two matrix of brain floats. -/
def transposedHalves : TorchTensor where
  dtype := .bfloat16
  device := .cpu
  sizes := [2, 2]
  strides := [1, 2]
  storageOffset := 0
  storage := [0, 1, 2, 3, 4, 5, 6, 7]
  strides_length := rfl
  in_storage := by decide
  bools := by
    intro hdtype
    cases hdtype
  fits := by decide

/-- The three defects of the inline form, and a tensor that does not come back from it. -/
theorem conversions_inexact :
    protoToTorch unknownDatatype = .error .fatal ∧
    protoToTorch wrappingShape = .error .overflow ∧
    protoToTorch oddHalves = .ok (some ⟨.half, [1], [1, 2]⟩) ∧
    ¬ ExactOrRefused oddHalves (suppliedInline oddHalves) (protoToTorch oddHalves) ∧
    Serializable transposedHalves .bf16 ∧ ¬ RoundTripsInline transposedHalves := by
  have hodd : protoToTorch oddHalves = .ok (some ⟨.half, [1], [1, 2]⟩) := by decide +kernel
  have htransposed : Serializable transposedHalves .bf16 := ⟨rfl, by decide, by decide⟩
  refine ⟨by decide +kernel, by decide +kernel, hodd, fun hexact => ?_, htransposed,
    fun hround => ?_⟩
  · obtain ⟨result, hresult, hexact⟩ := hexact
    cases hresult
    have hdata := (hexact _ rfl).data_eq
    exact absurd hdata (by decide +kernel)
  · have horder := ((roundTrip_inline_iff htransposed).mp hround).inOrder rfl
    exact absurd horder.2 (by decide)

end Xllm.Util
