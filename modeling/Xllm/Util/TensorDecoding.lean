import Xllm.Util.TensorProto

/-!
# What a message decodes to

A message is decoded exactly, or refused, when decoding ends without a fault and a tensor that
comes out has the message's shape, its number of elements, and the bytes that were supplied
(`ExactOrRefused`). The binary form always does that (`exactOrRefused_binary`). The inline form
does unless the message has one of three defects (`InlineDefect`), and then it does not
(`exactOrRefused_inline`).
-/

namespace Xllm.Util

open Xllm.Lib List

/-! ## The products -/

theorem mulInt64_of_le {a b : Int} (ha : 0 < a) (hb : 0 < b) (h : a * b ≤ int64Max) :
    mulInt64 a b = .ok (a * b) := by
  have hpos : 0 < a * b := Int.mul_pos ha hb
  unfold mulInt64
  rw [if_pos ⟨by omega, h⟩]

theorem mulInt64_of_lt {a b : Int} (h : (int64Max : Int) < a * b) :
    mulInt64 a b = .error .overflow := by
  unfold mulInt64
  rw [if_neg fun hle => absurd hle.2 (by omega)]

/-- The dimensions up to the first that is not positive. -/
def positiveFront : List Int → List Int
  | [] => []
  | dim :: shape => if 0 < dim then dim :: positiveFront shape else []

theorem positiveFront_cons_pos {dim : Int} (h : 0 < dim) (shape : List Int) :
    (positiveFront (dim :: shape)).prod = dim * (positiveFront shape).prod := by
  rw [positiveFront, if_pos h, prod_cons]

theorem positiveFront_cons_neg {dim : Int} (h : dim ≤ 0) (shape : List Int) :
    positiveFront (dim :: shape) = [] :=
  if_neg (by omega)

theorem one_le_prod_positiveFront (shape : List Int) : 1 ≤ (positiveFront shape).prod := by
  induction shape with
  | nil => exact Int.le_refl 1
  | cons dim shape ih =>
    by_cases hdim : 0 < dim
    · rw [positiveFront_cons_pos hdim]
      exact Int.mul_pos hdim (by omega)
    · rw [positiveFront_cons_neg (by omega)]
      exact Int.le_refl 1

theorem positiveFront_of_pos {shape : List Int} (h : ∀ dim ∈ shape, 0 < dim) :
    positiveFront shape = shape := by
  induction shape with
  | nil => rfl
  | cons dim shape ih =>
    rw [positiveFront, if_pos (h dim mem_cons_self),
      ih fun d hd => h d (mem_cons_of_mem _ hd)]

theorem totalElements_eq {shape : List Int} {total : Int} (hpos : 0 < total)
    (htotal : total ≤ int64Max) :
    totalElements shape total =
      if total * (positiveFront shape).prod ≤ int64Max then
        .ok (if ∀ dim ∈ shape, 0 < dim then some (total * shape.prod) else none)
      else .error .overflow := by
  induction shape generalizing total with
  | nil =>
    rw [positiveFront, prod_nil, Int.mul_one, if_pos htotal, if_pos (by simp)]
    rfl
  | cons dim shape ih =>
    rw [totalElements]
    by_cases hdim : dim ≤ 0
    · have hnot : ¬ ∀ d ∈ dim :: shape, 0 < d := by
        intro h
        have hlt := h dim mem_cons_self
        omega
      rw [if_pos hdim, positiveFront_cons_neg hdim, prod_nil, Int.mul_one, if_pos htotal,
        if_neg hnot]
    · have hdimPos : 0 < dim := by omega
      have hall : (∀ d ∈ dim :: shape, 0 < d) ↔ ∀ d ∈ shape, 0 < d := by
        rw [forall_mem_cons]
        exact ⟨fun h => h.2, fun h => ⟨hdimPos, h⟩⟩
      have hone := one_le_prod_positiveFront shape
      rw [if_neg hdim, positiveFront_cons_pos hdimPos, ← mul_assoc]
      by_cases hmul : total * dim ≤ int64Max
      · rw [mulInt64_of_le hpos hdimPos hmul, ok_bind, ih (Int.mul_pos hpos hdimPos) hmul]
        simp only [hall, prod_cons, mul_assoc]
      · have hlt : (int64Max : Int) < total * dim := by omega
        have hmore : total * dim * 1 ≤ total * dim * (positiveFront shape).prod :=
          Int.mul_le_mul_of_nonneg_left hone (Int.le_of_lt (Int.mul_pos hpos hdimPos))
        rw [mulInt64_of_lt hlt, if_neg (by omega)]
        rfl

theorem elementCount_spec {shape : List Int} {count : Nat} (hpos : 0 < count)
    (hcount : count ≤ sizeMax) :
    ∃ result, elementCount shape count = .ok result ∧
      ∀ n, result = some n → (n : Int) = count * shape.prod ∧ n ≤ sizeMax := by
  induction shape generalizing count with
  | nil =>
    refine ⟨some count, rfl, fun n hn => ?_⟩
    cases hn
    exact ⟨by rw [prod_nil, Int.mul_one], hcount⟩
  | cons dimension shape ih =>
    rw [elementCount]
    by_cases hbad : dimension ≤ 0 ∨ dimension.toNat > sizeMax / count
    · exact ⟨none, if_pos hbad, fun n hn => by cases hn⟩
    · have hdim : 0 < dimension := by omega
      have hle : dimension.toNat ≤ sizeMax / count := by omega
      have hmul : count * dimension.toNat ≤ sizeMax := by
        rw [Nat.mul_comm]
        exact (Nat.le_div_iff_mul_le hpos).mp hle
      obtain ⟨result, hresult, hcounts⟩ := ih (Nat.mul_pos hpos (by omega)) hmul
      refine ⟨result, ?_, fun n hn => ?_⟩
      · rw [if_neg hbad]
        unfold mulSize
        rw [if_pos hmul, ok_bind, hresult]
      · obtain ⟨heq, hle⟩ := hcounts n hn
        refine ⟨?_, hle⟩
        rw [heq, Int.natCast_mul, Int.toNat_of_nonneg (Int.le_of_lt hdim), prod_cons,
          mul_assoc]

/-! ## The contents -/

/-- The datatypes of two-byte numbers, which the message holds as bytes. -/
def Datatype.isHalf : Datatype → Bool
  | .fp16 => true
  | .bf16 => true
  | _ => false

theorem length_flatMap_words {n : Nat} (values : List (Word n)) :
    (values.flatMap Subtype.val).length = values.length * n := by
  induction values with
  | nil => exact (Nat.zero_mul n).symm
  | cons value values ih =>
    rw [flatMap_cons, length_append, ih, value.property, length_cons, Nat.succ_mul,
      Nat.add_comm]

theorem length_flatMap_bools (values : List Bool) :
    (values.flatMap fun b => [boolByte b]).length = values.length := by
  induction values with
  | nil => rfl
  | cons value values ih =>
    rw [flatMap_cons, length_append, ih, length_singleton, length_cons,
      Nat.add_comm]

theorem repeatedData_eq_some {α : Type} {bytes : α → List UInt8} {values : List α}
    {memory : List UInt8} (h : repeatedData bytes values = some memory) :
    memory = values.flatMap bytes := by
  unfold repeatedData at h
  by_cases hempty : values.isEmpty
  · rw [if_pos hempty] at h
    cases h
  · rw [if_neg hempty] at h
    exact (Option.some.inj h).symm

theorem contentsData_words {contents : TensorContents} {datatype : Datatype}
    (hhalf : datatype.isHalf = false) {memory : List UInt8}
    (h : (contentsData contents datatype).1 = some memory) :
    memory.length = (contentsData contents datatype).2 * datatype.scalarType.elementSize := by
  cases datatype with
  | fp16 => cases hhalf
  | bf16 => cases hhalf
  | bytes =>
    cases h
    exact (Nat.mul_one _).symm
  | bool =>
    rw [repeatedData_eq_some h, length_flatMap_bools]
    exact (Nat.mul_one _).symm
  | int32 => rw [repeatedData_eq_some h, length_flatMap_words]; rfl
  | int64 => rw [repeatedData_eq_some h, length_flatMap_words]; rfl
  | uint32 => rw [repeatedData_eq_some h, length_flatMap_words]; rfl
  | uint64 => rw [repeatedData_eq_some h, length_flatMap_words]; rfl
  | fp32 => rw [repeatedData_eq_some h, length_flatMap_words]; rfl
  | fp64 => rw [repeatedData_eq_some h, length_flatMap_words]; rfl

theorem contentsData_half {contents : TensorContents} {datatype : Datatype}
    (hhalf : datatype.isHalf = true) :
    contentsData contents datatype =
      (some contents.bytesContents, contents.bytesContents.length / 2) ∧
    datatype.scalarType.elementSize = 2 := by
  cases datatype with
  | fp16 => exact ⟨rfl, rfl⟩
  | bf16 => exact ⟨rfl, rfl⟩
  | bool | int32 | int64 | uint32 | uint64 | fp32 | fp64 | bytes => cases hhalf

theorem contentsData_length {contents : TensorContents} {datatype : Datatype} {memory : List UInt8}
    (h : (contentsData contents datatype).1 = some memory) :
    (contentsData contents datatype).2 * datatype.scalarType.elementSize ≤ memory.length ∧
    (memory.length ≠ (contentsData contents datatype).2 * datatype.scalarType.elementSize ↔
      datatype.isHalf = true ∧ contents.bytesContents.length % 2 = 1) := by
  cases hhalf : datatype.isHalf with
  | false =>
    have hlength := contentsData_words hhalf h
    refine ⟨Nat.le_of_eq hlength.symm, fun hne => absurd hlength hne, fun hodd => ?_⟩
    cases hodd.1
  | true =>
    obtain ⟨hdata, hsize⟩ := @contentsData_half contents datatype hhalf
    rw [hdata] at h ⊢
    cases h
    rw [hsize]
    constructor
    · omega
    · constructor
      · intro hne
        exact ⟨rfl, by omega⟩
      · intro hodd
        omega

/-! ## Exact or refused -/

/-- The bytes that a message supplies inline. -/
def suppliedInline (t : ProtoTensor) : List UInt8 :=
  match t.contents, Datatype.find t.datatype with
  | some contents, some datatype => (contentsData contents datatype).1.getD []
  | _, _ => []

/-- The range of the payload that a message describes. -/
def suppliedBinary (t : ProtoTensor) (payload : List UInt8) : List UInt8 :=
  match binaryRange t with
  | some (offset, length) => (payload.drop offset.toNat).take length.toNat
  | none => []

/-- The bytes that come with a message. -/
def supplied (t : ProtoTensor) (payload : List UInt8) : List UInt8 :=
  if isBinary t then suppliedBinary t payload else suppliedInline t

/-- A tensor of the message's shape and datatype, with the product of the dimensions as its number
of elements, and with the bytes that were supplied. -/
structure Exact (t : ProtoTensor) (bytes : List UInt8) (tensor : Tensor) : Prop where
  shape_eq : tensor.shape = t.shape
  dtype_eq : ∃ datatype, Datatype.find t.datatype = some datatype ∧
    tensor.dtype = datatype.scalarType
  length_eq : (tensor.data.length : Int) = t.shape.prod * tensor.dtype.elementSize
  data_eq : tensor.data = bytes

/-- Decoding ends without a fault, and what comes out is exact. -/
def ExactOrRefused (t : ProtoTensor) (bytes : List UInt8) (decoded : Except Fault (Option Tensor)) :
    Prop :=
  ∃ result, decoded = .ok result ∧ ∀ tensor, result = some tensor → Exact t bytes tensor

/-- The messages of the inline form that the code mishandles: an unknown datatype ends the
process, a product of dimensions leaves its type, and the last byte of an odd number of bytes of
two-byte numbers is dropped. -/
structure InlineDefect (t : ProtoTensor) : Prop where
  datatype : t.datatype.isEmpty = false
  shape : t.shape.isEmpty = false
  contents : ∃ contents, t.contents = some contents ∧
    (Datatype.find t.datatype = none ∨ (int64Max : Int) < (positiveFront t.shape).prod ∨
      ∃ datatype, Datatype.find t.datatype = some datatype ∧ datatype.isHalf = true ∧
        (∀ dim ∈ t.shape, 0 < dim) ∧ (contents.bytesContents.length : Int) = 2 * t.shape.prod + 1)

theorem exactOrRefused_none (t : ProtoTensor) (bytes : List UInt8) :
    ExactOrRefused t bytes (.ok none) :=
  ⟨none, rfl, fun _ h => by cases h⟩

theorem not_exactOrRefused_error (t : ProtoTensor) (bytes : List UInt8) (fault : Fault) :
    ¬ ExactOrRefused t bytes (.error fault) := by
  intro h
  obtain ⟨_, h, _⟩ := h
  cases h

theorem protoToTorch_eq {t : ProtoTensor} {contents : TensorContents}
    (hdatatype : t.datatype.isEmpty = false) (hshape : t.shape.isEmpty = false)
    (hcontents : t.contents = some contents) : protoToTorch t = decodeContents t contents := by
  unfold protoToTorch
  rw [hdatatype, hshape, hcontents]
  rfl

theorem protoToTorch_cases {t : ProtoTensor} {contents : TensorContents} {datatype : Datatype}
    (hdatatype : t.datatype.isEmpty = false) (hshape : t.shape.isEmpty = false)
    (hcontents : t.contents = some contents) (hfind : Datatype.find t.datatype = some datatype)
    (hprod : (positiveFront t.shape).prod ≤ int64Max) :
    protoToTorch t = .ok none ∧
        ¬ ((∀ dim ∈ t.shape, 0 < dim) ∧ ∃ memory, (contentsData contents datatype).1 = some memory ∧
            ((contentsData contents datatype).2 : Int) = t.shape.prod) ∨
      (∀ dim ∈ t.shape, 0 < dim) ∧ ∃ memory,
        (contentsData contents datatype).1 = some memory ∧
        ((contentsData contents datatype).2 : Int) = t.shape.prod ∧
        protoToTorch t = .ok (some ⟨datatype.scalarType, t.shape, memory.take
          ((contentsData contents datatype).2 * datatype.scalarType.elementSize)⟩) := by
  have htotal := @totalElements_eq t.shape 1 Int.one_pos (by decide)
  rw [Int.one_mul, Int.one_mul, if_pos hprod] at htotal
  rw [protoToTorch_eq hdatatype hshape hcontents]
  unfold decodeContents
  rw [datatypeProtoToTorch, hfind, ok_bind, htotal, ok_bind]
  by_cases hpos : ∀ dim ∈ t.shape, 0 < dim
  · rw [if_pos hpos]
    have hprodPos : 0 < t.shape.prod := by
      have hone := one_le_prod_positiveFront t.shape
      rw [positiveFront_of_pos hpos] at hone
      omega
    cases hdata : (contentsData contents datatype) with
    | mk memory count =>
      cases memory with
      | none =>
        refine Or.inl ⟨rfl, fun h => ?_⟩
        obtain ⟨_, memory, hmemory, _⟩ := h
        cases hmemory
      | some memory =>
        dsimp only
        by_cases hcount : count ≠ t.shape.prod.toNat
        · rw [if_pos hcount]
          refine Or.inl ⟨rfl, fun h => ?_⟩
          omega
        · rw [if_neg hcount]
          have hcount : count = t.shape.prod.toNat := not_not.mp hcount
          have hlength := @contentsData_length contents datatype memory (by rw [hdata])
          rw [hdata] at hlength
          refine Or.inr ⟨hpos, memory, rfl, by omega, ?_⟩
          unfold readMemory
          rw [← hcount, if_pos hlength.1]
          rfl
  · rw [if_neg hpos]
    exact Or.inl ⟨rfl, fun h => hpos h.1⟩

/-- The inline form is decoded exactly or refused if and only if the message has none of the
defects. -/
theorem exactOrRefused_inline (t : ProtoTensor) :
    ExactOrRefused t (suppliedInline t) (protoToTorch t) ↔ ¬ InlineDefect t := by
  by_cases hdatatype : t.datatype.isEmpty = true
  · have hrun : protoToTorch t = .ok none := if_pos hdatatype
    rw [hrun]
    refine ⟨fun _ hdefect => ?_, fun _ => exactOrRefused_none t _⟩
    rw [hdefect.datatype] at hdatatype
    cases hdatatype
  by_cases hshape : t.shape.isEmpty = true
  · have hrun : protoToTorch t = .ok none := by
      unfold protoToTorch
      rw [if_neg hdatatype, if_pos hshape]
    rw [hrun]
    refine ⟨fun _ hdefect => ?_, fun _ => exactOrRefused_none t _⟩
    rw [hdefect.shape] at hshape
    cases hshape
  cases hcontents : t.contents with
  | none =>
    have hrun : protoToTorch t = .ok none := by
      unfold protoToTorch
      rw [if_neg hdatatype, if_neg hshape, hcontents]
    rw [hrun]
    refine ⟨fun _ hdefect => ?_, fun _ => exactOrRefused_none t _⟩
    obtain ⟨contents, hsome, _⟩ := hdefect.contents
    rw [hcontents] at hsome
    cases hsome
  | some contents =>
    have hdatatype : t.datatype.isEmpty = false := Bool.eq_false_iff.mpr hdatatype
    have hshape : t.shape.isEmpty = false := Bool.eq_false_iff.mpr hshape
    cases hfind : Datatype.find t.datatype with
    | none =>
      have hrun : protoToTorch t = .error .fatal := by
        rw [protoToTorch_eq hdatatype hshape hcontents]
        unfold decodeContents
        rw [datatypeProtoToTorch, hfind]
        rfl
      rw [hrun]
      refine ⟨fun h => absurd h (not_exactOrRefused_error t _ _), fun h => absurd ?_ h⟩
      exact ⟨hdatatype, hshape, contents, hcontents, Or.inl hfind⟩
    | some datatype =>
      by_cases hprod : (positiveFront t.shape).prod ≤ int64Max
      · have hdefect : InlineDefect t ↔ datatype.isHalf = true ∧ (∀ dim ∈ t.shape, 0 < dim) ∧
            (contents.bytesContents.length : Int) = 2 * t.shape.prod + 1 := by
          constructor
          · intro h
            obtain ⟨contents', hcontents', hcases⟩ := h.contents
            rw [hcontents] at hcontents'
            cases hcontents'
            rw [hfind] at hcases
            obtain hnone | hlarge | ⟨datatype', hsome, hodd⟩ := hcases
            · cases hnone
            · omega
            · cases hsome
              exact hodd
          · intro h
            exact ⟨hdatatype, hshape, contents, hcontents, Or.inr (Or.inr ⟨datatype, hfind, h⟩)⟩
        rw [hdefect]
        have hsupplied : suppliedInline t = (contentsData contents datatype).1.getD [] := by
          unfold suppliedInline
          rw [hcontents, hfind]
        obtain ⟨hrun, hnot⟩ | ⟨hpos, memory, hmemory, hcount, hrun⟩ :=
          protoToTorch_cases hdatatype hshape hcontents hfind hprod
        · rw [hrun]
          refine ⟨fun _ hodd => hnot ?_, fun _ => exactOrRefused_none t _⟩
          obtain ⟨hhalf, hpos, hlength⟩ := hodd
          obtain ⟨hdata, _⟩ := @contentsData_half contents datatype hhalf
          rw [hdata]
          exact ⟨hpos, contents.bytesContents, rfl, by dsimp only; omega⟩
        · obtain ⟨hle, hne⟩ := contentsData_length hmemory
          rw [hrun, hsupplied, hmemory, Option.getD_some]
          constructor
          · intro h hodd
            obtain ⟨_, hresult, hexact⟩ := h
            cases hresult
            have hdata := congrArg List.length (hexact _ rfl).data_eq
            rw [length_take, Nat.min_eq_left hle] at hdata
            exact hne.mpr ⟨hodd.1, by omega⟩ hdata.symm
          · intro hodd
            have hlength : memory.length =
                (contentsData contents datatype).2 * datatype.scalarType.elementSize := by
              by_contra hlonger
              obtain ⟨hhalf, hmod⟩ := hne.mp hlonger
              obtain ⟨hdata, _⟩ := @contentsData_half contents datatype hhalf
              rw [hdata] at hcount
              exact hodd ⟨hhalf, hpos, by omega⟩
            rw [← hlength, take_length]
            refine ⟨_, rfl, fun tensor htensor => ?_⟩
            cases htensor
            refine ⟨rfl, ⟨datatype, hfind, rfl⟩, ?_, rfl⟩
            rw [hlength, Int.natCast_mul, hcount]
      · have hrun : protoToTorch t = .error .overflow := by
          have htotal := @totalElements_eq t.shape 1 Int.one_pos (by decide)
          rw [Int.one_mul, if_neg hprod] at htotal
          rw [protoToTorch_eq hdatatype hshape hcontents]
          unfold decodeContents
          rw [datatypeProtoToTorch, hfind, ok_bind, htotal]
          rfl
        rw [hrun]
        refine ⟨fun h => absurd h (not_exactOrRefused_error t _ _), fun h => absurd ?_ h⟩
        exact ⟨hdatatype, hshape, contents, hcontents, Or.inr (Or.inl (by omega))⟩

/-! ## The binary form -/

/-- A message of the binary form is decoded exactly or refused, if the copy of a range that the
payload has gives that range or fails. -/
theorem exactOrRefused_binary {t : ProtoTensor} (hbinary : isBinary t = true) {payload : List UInt8}
    {copyFn : Nat → Nat → Except Fault (Option (List UInt8))}
    (hcopy : ∀ offset length, offset + length ≤ payload.length →
      copyFn offset length = .ok (some ((payload.drop offset).take length))) :
    ExactOrRefused t (suppliedBinary t payload) (binaryProtoToTorch t payload.length copyFn) := by
  unfold binaryProtoToTorch
  rw [if_neg (by rw [hbinary]; decide)]
  cases hrange : binaryRange t with
  | none => exact exactOrRefused_none t _
  | some range =>
    obtain ⟨offset, length⟩ := range
    have hsupplied : suppliedBinary t payload =
        (payload.drop offset.toNat).take length.toNat := by
      unfold suppliedBinary
      rw [hrange]
    dsimp only
    by_cases hsign : offset < 0 ∨ length ≤ 0
    · rw [if_pos hsign]
      exact exactOrRefused_none t _
    by_cases hinside : offset.toNat > payload.length ∨ length.toNat > payload.length - offset.toNat
    · rw [if_neg hsign, if_pos hinside]
      exact exactOrRefused_none t _
    by_cases hfields : t.datatype.isEmpty ∨ t.shape.isEmpty
    · rw [if_neg hsign, if_neg hinside, if_pos hfields]
      exact exactOrRefused_none t _
    rw [if_neg hsign, if_neg hinside, if_neg hfields]
    cases hfind : Datatype.find t.datatype with
    | none => exact exactOrRefused_none t _
    | some datatype =>
      obtain ⟨result, hcount, hcounts⟩ := @elementCount_spec t.shape 1 Nat.one_pos (by decide)
      rw [if_neg (by simp), datatypeProtoToTorch, hfind, ok_bind, hcount, ok_bind]
      cases result with
      | none => exact exactOrRefused_none t _
      | some count =>
        obtain ⟨hprod, hmax⟩ := hcounts count rfl
        rw [Int.natCast_one, Int.one_mul] at hprod
        dsimp only
        by_cases hlarge : count > sizeMax / datatype.scalarType.elementSize
        · rw [if_pos hlarge]
          exact exactOrRefused_none t _
        rw [if_neg hlarge]
        have hsize : 0 < datatype.scalarType.elementSize := by
          cases datatype <;> decide
        have hmul : count * datatype.scalarType.elementSize ≤ sizeMax :=
          (Nat.le_div_iff_mul_le hsize).mp (by omega)
        unfold mulSize
        rw [if_pos hmul, ok_bind]
        by_cases hlength : count * datatype.scalarType.elementSize ≠ length.toNat
        · rw [if_pos hlength]
          exact exactOrRefused_none t _
        have hlength : count * datatype.scalarType.elementSize = length.toNat := not_not.mp hlength
        rw [if_neg (not_not.mpr hlength), hcopy _ _ (by omega), ok_bind, hsupplied]
        refine ⟨_, rfl, fun tensor htensor => ?_⟩
        cases htensor
        refine ⟨rfl, ⟨datatype, hfind, rfl⟩, ?_, rfl⟩
        rw [length_take, length_drop, Nat.min_eq_left (by omega), ← hlength,
          Int.natCast_mul, hprod]

/-- With a payload in one string only the inline form can go wrong. -/
theorem exactOrRefused_string (t : ProtoTensor) (payload : List UInt8) :
    ExactOrRefused t (supplied t payload) (protoToTorchString t payload) ↔
      isBinary t = true ∨ ¬ InlineDefect t := by
  cases hbinary : isBinary t with
  | true =>
    refine ⟨fun _ => Or.inl rfl, fun _ => ?_⟩
    unfold supplied
    rw [if_pos hbinary]
    exact exactOrRefused_binary hbinary fun offset length hinside => if_pos hinside
  | false =>
    have hrun : protoToTorchString t payload = protoToTorch t := if_pos hbinary
    have hsupplied : supplied t payload = suppliedInline t := by
      unfold supplied
      rw [hbinary]
      rfl
    rw [hrun, hsupplied, exactOrRefused_inline]
    simp

/-- And with the blocks of a buffer. -/
theorem exactOrRefused_payload (t : ProtoTensor) (blocks : List (List UInt8)) :
    ExactOrRefused t (supplied t blocks.flatten) (protoToTorchPayload t blocks) ↔
      isBinary t = true ∨ ¬ InlineDefect t := by
  cases hbinary : isBinary t with
  | true =>
    refine ⟨fun _ => Or.inl rfl, fun _ => ?_⟩
    unfold supplied
    rw [if_pos hbinary]
    refine exactOrRefused_binary hbinary fun offset length hinside => if_pos ?_
    exact ⟨by omega, by omega⟩
  | false =>
    have hrun : protoToTorchPayload t blocks = protoToTorch t := if_pos hbinary
    have hsupplied : supplied t blocks.flatten = suppliedInline t := by
      unfold supplied
      rw [hbinary]
      rfl
    rw [hrun, hsupplied, exactOrRefused_inline]
    simp

end Xllm.Util
