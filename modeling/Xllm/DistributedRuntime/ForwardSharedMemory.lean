/-!
# The shared memory segments of a step

`ForwardSharedMemoryManager` (core/runtime/forward_shared_memory_manager) maps a segment of
shared memory: a `ControlMetadata` with a version number, and behind it one serialized input or
output. The side that writes serializes its value, and only then stores `++last_version_` as the
version; a side that reads polls the version until it differs from the one it saw last, and only
then deserializes. Each side has a manager, so a `last_version_`, of its own.

A write is two atomic actions here, the payload and the version, as is a read; the fences of the
source order them. The version is a `uint64_t` that wraps around. The definitions take any type
of versions, so that the same protocol can be run with versions that never do.
-/

namespace Xllm.DistributedRuntime

/-- A mapped segment. The creator zeroes it: until the first write there is no payload. -/
structure Segment (V α : Type) where
  version : V
  payload : Option α

namespace Segment

variable {V α : Type}

def zeroed [OfNat V 0] : Segment V α := { version := 0, payload := none }

/-- The first half of `input_write` and `raw_output_write`: the value is serialized. -/
def serialize (seg : Segment V α) (value : α) : Segment V α := { seg with payload := some value }

/-- The second half: `control_ptr_->version = ++last_version_`, with the new `last_version_`. -/
def publish [Add V] [OfNat V 1] (seg : Segment V α) (lastVersion : V) : Segment V α :=
  { seg with version := lastVersion + 1 }

/-- The waiting loop of `input_read` and `raw_output_read` ends: the version is not the one that
this reader saw last. -/
def Fresh (seg : Segment V α) (lastVersion : V) : Prop := seg.version ≠ lastVersion

instance [DecidableEq V] (seg : Segment V α) (lastVersion : V) :
    Decidable (seg.Fresh lastVersion) :=
  inferInstanceAs (Decidable (seg.version ≠ lastVersion))

/-- The same segment under another reading of its version. -/
def map {W : Type} (f : V → W) (seg : Segment V α) : Segment W α :=
  { version := f seg.version, payload := seg.payload }

@[simp] theorem serialize_version (seg : Segment V α) (value : α) :
    (seg.serialize value).version = seg.version := rfl

@[simp] theorem publish_version [Add V] [OfNat V 1] (seg : Segment V α) (lastVersion : V) :
    (seg.publish lastVersion).version = lastVersion + 1 := rfl

@[simp] theorem publish_payload [Add V] [OfNat V 1] (seg : Segment V α) (lastVersion : V) :
    (seg.publish lastVersion).payload = seg.payload := rfl

end Segment

/-- `sizeof(ControlMetadata)`. -/
def controlMetadataSize : Nat := 8

/-- `type_size<uint64_t>`, the length that `input_write` stores before its payload. -/
def payloadLengthSize : Nat := 8

/-- The `total_size` of `input_write`. -/
def inputTotalSize (payloadSize : Nat) : Nat :=
  controlMetadataSize + payloadLengthSize + payloadSize

/-- The `total_size` of `raw_output_write`. -/
def rawOutputTotalSize (payloadSize : Nat) : Nat := controlMetadataSize + payloadSize

end Xllm.DistributedRuntime
