import Mathlib

/-!
# Sizes and 32-bit integers

A size is a natural number below 2^64. Given to a 32-bit field it loses its upper half, and read back
from there it is sign-extended: `size_int32_iff` says which sizes survive. The other way round a 32-bit
integer that is given to a size survives always.
-/

namespace Xllm.Lib

/-- A size stored in an `int32`. -/
def int32OfSize (n : Nat) : Int32 :=
  Int32.ofNat n

/-- An `int32` read as a size. -/
def sizeOfInt32 (i : Int32) : Nat :=
  (i.toInt % 2 ^ 64).toNat

/-- The difference of two sizes. -/
def subSize (a b : Nat) : Nat :=
  (a + 2 ^ 64 - b) % 2 ^ 64

theorem subSize_add {a b : Nat} (h : b < 2 ^ 64) : subSize (a + b) a = b := by
  rw [subSize, Nat.add_assoc, Nat.add_sub_cancel_left, Nat.add_mod_right, Nat.mod_eq_of_lt h]

/-- `Int.bmod` at 32 bits, written out. -/
private theorem bmod32 (i : Int) :
    i.bmod 4294967296 =
      if i % 4294967296 < 2147483648 then i % 4294967296 else i % 4294967296 - 4294967296 := by
  rfl

theorem size_int32_iff {n : Nat} (h : n < 2 ^ 64 - 2 ^ 31) :
    sizeOfInt32 (int32OfSize n) = n ↔ n < 2 ^ 31 := by
  have hto : (int32OfSize n).toInt = (n : Int).bmod 4294967296 := Int32.toInt_ofNat'
  rw [sizeOfInt32, hto, bmod32]
  split <;> omega

theorem int32_size (i : Int32) : int32OfSize (sizeOfInt32 i) = i := by
  have hlow := i.le_toInt
  have hhigh := i.toInt_lt
  have hto : (int32OfSize (sizeOfInt32 i)).toInt = (sizeOfInt32 i : Int).bmod 4294967296 :=
    Int32.toInt_ofNat'
  apply Int32.toInt_inj.mp
  rw [hto, bmod32, sizeOfInt32]
  split <;> omega

end Xllm.Lib
