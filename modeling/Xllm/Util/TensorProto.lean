import Xllm.Lib.Outcome
import Xllm.Lib.Segments

/-!
# Tensors in protocol messages

`proto_to_torch`, `binary_proto_to_torch` and `torch_to_proto` of `core/util/utils.cpp`. A message
holds a tensor inline, in the field of `TensorContents` for its datatype, or as a range of a
payload that comes with the message, which the parameters `is_binary`, `offset` and `len`
describe.

A machine word is the bytes that hold it in memory, since the code only copies it. What the
language leaves undefined, and what ends the process, is a `Fault`: a product that leaves its
type, a read beyond the memory that was given, a fatal log. An undefined tensor, and the result
false, are `none`.
-/

namespace Xllm.Util

open Xllm.Lib

inductive Fault
  /-- `LOG(FATAL)`. -/
  | fatal
  /-- A product of sizes that its type cannot hold. -/
  | overflow
  /-- A read beyond the memory. -/
  | outOfBounds
  /-- A repeated field of more elements than its `int` size can count. -/
  | repeatedField
  deriving Repr, DecidableEq

def int64Max : Nat := 2 ^ 63 - 1

/-- The largest `size_t`. -/
def sizeMax : Nat := 2 ^ 64 - 1

/-- The largest size of a repeated field. -/
def repeatedFieldMax : Nat := 2 ^ 31 - 1

/-! ## Datatypes -/

/-- The scalar types that have a datatype, and the others by their size. `kInt32` is `kInt` and
`kInt64` is `kLong`. -/
inductive ScalarType
  | bool
  | int
  | long
  | float
  | double
  | byte
  | half
  | bfloat16
  | other (elementSize : Nat)
  deriving Repr, DecidableEq

/-- `torch::elementSize`. -/
def ScalarType.elementSize : ScalarType → Nat
  | .bool => 1
  | .int => 4
  | .long => 8
  | .float => 4
  | .double => 8
  | .byte => 1
  | .half => 2
  | .bfloat16 => 2
  | .other size => size

/-- The keys of `kDatatypeMap`. -/
inductive Datatype
  | bool
  | int32
  | int64
  | uint32
  | uint64
  | fp32
  | fp64
  | bytes
  | fp16
  | bf16
  deriving Repr, DecidableEq

namespace Datatype

def name : Datatype → String
  | .bool => "BOOL"
  | .int32 => "INT32"
  | .int64 => "INT64"
  | .uint32 => "UINT32"
  | .uint64 => "UINT64"
  | .fp32 => "FP32"
  | .fp64 => "FP64"
  | .bytes => "BYTES"
  | .fp16 => "FP16"
  | .bf16 => "BF16"

def all : List Datatype :=
  [.bool, .int32, .int64, .uint32, .uint64, .fp32, .fp64, .bytes, .fp16, .bf16]

def find (name : String) : Option Datatype := all.find? fun datatype => datatype.name = name

def scalarType : Datatype → ScalarType
  | .bool => .bool
  | .int32 => .int
  | .int64 => .long
  | .uint32 => .int
  | .uint64 => .long
  | .fp32 => .float
  | .fp64 => .double
  | .bytes => .byte
  | .fp16 => .half
  | .bf16 => .bfloat16

end Datatype

/-- `datatype_proto_to_torch`, with the datatype itself. -/
def datatypeProtoToTorch (name : String) : Except Fault Datatype :=
  match Datatype.find name with
  | some datatype => .ok datatype
  | none => .error .fatal

/-- `torch_datatype_to_proto`: of two names for a scalar type the map keeps the first. -/
def torchDatatypeToProto : ScalarType → Option Datatype
  | .bool => some .bool
  | .int => some .int32
  | .long => some .int64
  | .float => some .fp32
  | .double => some .fp64
  | .byte => some .bytes
  | .half => some .fp16
  | .bfloat16 => some .bf16
  | .other _ => none

/-! ## Messages -/

/-- A machine word of `n` bytes. -/
abbrev Word (n : Nat) := { bytes : List UInt8 // bytes.length = n }

structure TensorContents where
  boolContents : List Bool := []
  intContents : List (Word 4) := []
  int64Contents : List (Word 8) := []
  uintContents : List (Word 4) := []
  uint64Contents : List (Word 8) := []
  fp32Contents : List (Word 4) := []
  fp64Contents : List (Word 8) := []
  bytesContents : List UInt8 := []
  deriving DecidableEq

structure Parameter where
  boolParam : Option Bool := none
  int64Param : Option Int := none
  deriving DecidableEq

/-- `proto::Tensor`. The fields are 64-bit integers. -/
structure ProtoTensor where
  datatype : String
  shape : List Int
  contents : Option TensorContents
  parameters : List (String × Parameter) := []
  deriving DecidableEq

structure Tensor where
  dtype : ScalarType
  shape : List Int
  data : List UInt8
  deriving DecidableEq

/-! ## Reading the inline form -/

def boolByte (b : Bool) : UInt8 := if b then 1 else 0

/-- `get_data_from_contents` for a repeated field: a null pointer if the field is empty. -/
def repeatedData {α : Type} (bytes : α → List UInt8) (values : List α) : Option (List UInt8) :=
  if values.isEmpty then none else some (values.flatMap bytes)

/-- `data_ptr` and `data_count`. -/
def contentsData (contents : TensorContents) : Datatype → Option (List UInt8) × Nat
  | .bool => (repeatedData (fun b => [boolByte b]) contents.boolContents,
      contents.boolContents.length)
  | .int32 => (repeatedData Subtype.val contents.intContents, contents.intContents.length)
  | .int64 => (repeatedData Subtype.val contents.int64Contents, contents.int64Contents.length)
  | .uint32 => (repeatedData Subtype.val contents.uintContents, contents.uintContents.length)
  | .uint64 => (repeatedData Subtype.val contents.uint64Contents, contents.uint64Contents.length)
  | .fp32 => (repeatedData Subtype.val contents.fp32Contents, contents.fp32Contents.length)
  | .fp64 => (repeatedData Subtype.val contents.fp64Contents, contents.fp64Contents.length)
  | .bf16 => (some contents.bytesContents, contents.bytesContents.length / 2)
  | .fp16 => (some contents.bytesContents, contents.bytesContents.length / 2)
  | .bytes => (some contents.bytesContents, contents.bytesContents.length)

/-- A product in `int64_t`. -/
def mulInt64 (a b : Int) : Except Fault Int :=
  if -(int64Max : Int) - 1 ≤ a * b ∧ a * b ≤ int64Max then .ok (a * b) else .error .overflow

/-- The loop over the shape: `none` at a dimension that is not positive. -/
def totalElements : List Int → Int → Except Fault (Option Int)
  | [], total => .ok (some total)
  | dim :: shape, total =>
    if dim ≤ 0 then .ok none
    else do
      let total ← mulInt64 total dim
      totalElements shape total

/-- A read of as many bytes from the start of a memory. -/
def readMemory (memory : List UInt8) (length : Nat) : Except Fault (List UInt8) :=
  if length ≤ memory.length then .ok (memory.take length) else .error .outOfBounds

/-- `proto_to_torch` of the inline form, once the message is known to have contents. -/
def decodeContents (t : ProtoTensor) (contents : TensorContents) :
    Except Fault (Option Tensor) := do
  let datatype ← datatypeProtoToTorch t.datatype
  match ← totalElements t.shape 1 with
  | none => return none
  | some total =>
    match contentsData contents datatype with
    | (none, _) => return none
    | (some memory, dataCount) =>
      if dataCount ≠ total.toNat then return none
      else do
        -- The clone copies what the shape asks for.
        let data ← readMemory memory (t.shape.prod.toNat * datatype.scalarType.elementSize)
        return some ⟨datatype.scalarType, t.shape, data⟩

/-- `proto_to_torch` of the inline form. -/
def protoToTorch (t : ProtoTensor) : Except Fault (Option Tensor) :=
  if t.datatype.isEmpty then .ok none
  else if t.shape.isEmpty then .ok none
  else match t.contents with
    | none => .ok none
    | some contents => decodeContents t contents

/-! ## Reading the binary form -/

/-- A product in `size_t`. -/
def mulSize (a b : Nat) : Except Fault Nat :=
  if a * b ≤ sizeMax then .ok (a * b) else .error .overflow

/-- The loop over the shape of the binary form. -/
def elementCount : List Int → Nat → Except Fault (Option Nat)
  | [], count => .ok (some count)
  | dimension :: shape, count =>
    if dimension ≤ 0 ∨ dimension.toNat > sizeMax / count then .ok none
    else do
      let count ← mulSize count dimension.toNat
      elementCount shape count

def isBinary (t : ProtoTensor) : Bool :=
  match t.parameters.lookup "is_binary" with
  | some parameter => parameter.boolParam = some true
  | none => false

/-- The parameters `offset` and `len`. -/
def binaryRange (t : ProtoTensor) : Option (Int × Int) :=
  match t.parameters.lookup "offset", t.parameters.lookup "len" with
  | some offset, some len =>
    match offset.int64Param, len.int64Param with
    | some offset, some len => some (offset, len)
    | _, _ => none
  | _, _ => none

/-- `binary_proto_to_torch`, the copy of a range of the payload being `copyFn`. -/
def binaryProtoToTorch (t : ProtoTensor) (payloadSize : Nat)
    (copyFn : Nat → Nat → Except Fault (Option (List UInt8))) : Except Fault (Option Tensor) :=
  if isBinary t = false then protoToTorch t
  else
    match binaryRange t with
    | none => .ok none
    | some (offset, length) =>
      if offset < 0 ∨ length ≤ 0 then .ok none
      else if offset.toNat > payloadSize ∨ length.toNat > payloadSize - offset.toNat then .ok none
      else if t.datatype.isEmpty ∨ t.shape.isEmpty then .ok none
      else if (Datatype.find t.datatype).isNone then .ok none
      else do
        let datatype ← datatypeProtoToTorch t.datatype
        match ← elementCount t.shape 1 with
        | none => return none
        | some count =>
          if count > sizeMax / datatype.scalarType.elementSize then return none
          else do
            let byteCount ← mulSize count datatype.scalarType.elementSize
            if byteCount ≠ length.toNat then return none
            else
              match ← copyFn offset.toNat length.toNat with
              | none => return none
              | some data => return some ⟨datatype.scalarType, t.shape, data⟩

/-- `proto_to_torch` with a payload in one string: `memcpy` reads where it is told to. -/
def protoToTorchString (t : ProtoTensor) (payload : List UInt8) : Except Fault (Option Tensor) :=
  binaryProtoToTorch t payload.length fun offset length =>
    if offset + length ≤ payload.length then .ok (some ((payload.drop offset).take length))
    else .error .outOfBounds

/-- `proto_to_torch` with a `BinaryPayload`, the blocks of a buffer one after the other. -/
def protoToTorchPayload (t : ProtoTensor) (blocks : List (List UInt8)) :
    Except Fault (Option Tensor) :=
  binaryProtoToTorch t blocks.flatten.length fun offset length =>
    if offset ≤ blocks.flatten.length ∧ length ≤ blocks.flatten.length - offset then
      .ok (some ((blocks.flatten.drop offset).take length))
    else .ok none

/-! ## Writing -/

inductive Device
  | cpu
  | accelerator
  deriving Repr, DecidableEq

/-- The places of the elements in the storage, the last dimension fastest. -/
def elementOffsets : List Nat → List Nat → Nat → List Nat
  | size :: sizes, stride :: strides, base =>
    (List.range size).flatMap fun i => elementOffsets sizes strides (base + i * stride)
  | _, _, base => [base]

/-- The bytes of the elements at places of a storage. -/
def elementsAt (storage : List UInt8) (elementSize : Nat) (places : List Nat) : List UInt8 :=
  places.flatMap fun place => (storage.drop (place * elementSize)).take elementSize

/-- A tensor as it is handed to `torch_to_proto`: a view of a storage. A copy of it that is
contiguous has an `int64_t` number of bytes, and an element of a Boolean tensor is zero or one. -/
structure TorchTensor where
  dtype : ScalarType
  device : Device
  sizes : List Nat
  strides : List Nat
  storageOffset : Nat
  storage : List UInt8
  strides_length : strides.length = sizes.length
  in_storage : ∀ place ∈ elementOffsets sizes strides storageOffset,
    (place + 1) * dtype.elementSize ≤ storage.length
  bools : dtype = .bool → ∀ b ∈ elementsAt storage 1 (elementOffsets sizes strides storageOffset),
    b = 0 ∨ b = 1
  fits : sizes.prod * dtype.elementSize ≤ int64Max

namespace TorchTensor

variable (t : TorchTensor)

def numel : Nat := t.sizes.prod

/-- The memory of `contiguous().cpu()`. -/
def contiguous : List UInt8 :=
  elementsAt t.storage t.dtype.elementSize
    (elementOffsets t.sizes t.strides t.storageOffset)

def value : Tensor := ⟨t.dtype, t.sizes.map Nat.cast, t.contiguous⟩

/-- As many bytes from `data_ptr` on, read on the host. -/
def readFromDataPtr (length : Nat) : Except Fault (List UInt8) :=
  match t.device with
  | .accelerator => .error .outOfBounds
  | .cpu => readMemory (t.storage.drop (t.storageOffset * t.dtype.elementSize)) length

end TorchTensor

def words (n : Nat) (memory : List UInt8) : List (List UInt8) :=
  (List.range (memory.length / n)).map fun i => (memory.drop (i * n)).take n

/-- The same, with the length that each of them has. -/
def toWords (n : Nat) (memory : List UInt8) : List (Word n) :=
  (words n memory).filterMap fun bytes => if h : bytes.length = n then some ⟨bytes, h⟩ else none

/-- `set_data_to_contents` for a repeated field of words: each is added as it is. -/
def wordsOf (n : Nat) (memory : List UInt8) : Except Fault (List (Word n)) :=
  if memory.length / n ≤ repeatedFieldMax then .ok (toWords n memory) else .error .repeatedField

def boolsOf (memory : List UInt8) : Except Fault (List Bool) :=
  if memory.length ≤ repeatedFieldMax then .ok (memory.map fun b => b != 0)
  else .error .repeatedField

/-- The switch of `torch_to_proto`. The two-byte types are read from `data_ptr` as they lie there.
-/
def setContents (t : TorchTensor) : Except Fault (Option TensorContents) :=
  match t.dtype with
  | .bool => do
    let values ← boolsOf t.contiguous
    return some { boolContents := values }
  | .int => do
    let values ← wordsOf 4 t.contiguous
    return some { intContents := values }
  | .long => do
    let values ← wordsOf 8 t.contiguous
    return some { int64Contents := values }
  | .float => do
    let values ← wordsOf 4 t.contiguous
    return some { fp32Contents := values }
  | .double => do
    let values ← wordsOf 8 t.contiguous
    return some { fp64Contents := values }
  | .byte => return some { bytesContents := t.contiguous }
  | .bfloat16 => do
    let bytes ← t.readFromDataPtr (t.numel * 2)
    return some { bytesContents := bytes }
  | .half => do
    let bytes ← t.readFromDataPtr (t.numel * 2)
    return some { bytesContents := bytes }
  | .other _ => return none

/-- `torch_to_proto`, inline. Counts that differ are only logged. -/
def torchToProto (t : TorchTensor) : Except Fault (Option ProtoTensor) :=
  if t.numel = 0 then .ok none
  else
    match torchDatatypeToProto t.dtype with
    | none => .ok none
    | some datatype => do
      match ← setContents t with
      | none => return none
      | some contents => return some {
          datatype := datatype.name
          shape := t.sizes.map Nat.cast
          contents := some contents }

/-- `torch_to_proto`, binary: the message and the payload with the tensor's bytes appended. -/
def torchToProtoBinary (t : TorchTensor) (payload : List UInt8) :
    Except Fault (Option (ProtoTensor × List UInt8)) :=
  if t.numel = 0 then .ok none
  else
    match torchDatatypeToProto t.dtype with
    | none => .ok none
    | some datatype =>
      if t.numel > sizeMax / t.dtype.elementSize then .ok none
      else do
        let byteLength ← mulSize t.numel t.dtype.elementSize
        if payload.length > int64Max ∨ byteLength > int64Max then return none
        else return some ({
          datatype := datatype.name
          shape := t.sizes.map Nat.cast
          contents := none
          parameters := [("is_binary", { boolParam := some true }),
            ("offset", { int64Param := some payload.length }),
            ("len", { int64Param := some byteLength })] }, payload ++ t.contiguous)

end Xllm.Util
