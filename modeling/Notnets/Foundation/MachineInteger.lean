import Mathlib.Data.Int.Order.Basic
import Mathlib.Algebra.Order.Ring.Int

/-!
# Fixed-width integers

A C `int` is an integer kept in the range of 32-bit two's complement, and
a C `size_t` is a natural number below `2^64`.  The conversions below
are the ones the compiler inserts; each of them is the identity on the values
that fit.
-/

namespace Notnets
namespace Foundation

def toInt32 (x : Int) : Int :=
  Int.bmod x (2 ^ 32)

def toInt64 (x : Int) : Int :=
  Int.bmod x (2 ^ 64)

/-- Conversion to a 64-bit unsigned integer. -/
def toSizeT (x : Int) : Nat :=
  (x % 2 ^ 64).toNat

def sizeAdd (a b : Nat) : Nat :=
  (a + b) % 2 ^ 64

def sizeSub (a b : Nat) : Nat :=
  (a + (2 ^ 64 - b % 2 ^ 64)) % 2 ^ 64

def sizeMul (a b : Nat) : Nat :=
  (a * b) % 2 ^ 64

theorem toInt32_of_fits {x : Int} (hlow : -2 ^ 31 ≤ x) (hhigh : x < 2 ^ 31) :
    toInt32 x = x := by
  unfold toInt32
  apply Int.bmod_eq_of_le
  · simpa using hlow
  · simpa using hhigh

theorem toInt32_lt (x : Int) : toInt32 x < 2 ^ 31 := by
  have h := Int.bmod_lt (x := x) (m := 2 ^ 32) (by decide)
  unfold toInt32
  lia

theorem toInt32_natCast {n : Nat} (h : n < 2 ^ 31) : toInt32 (n : Int) = n :=
  toInt32_of_fits (by lia) (by lia)

theorem toInt64_natCast {n : Nat} (h : n < 2 ^ 63) : toInt64 (n : Int) = n := by
  unfold toInt64
  apply Int.bmod_eq_of_le
  · lia
  · lia

theorem toSizeT_natCast {n : Nat} (h : n < 2 ^ 64) : toSizeT (n : Int) = n := by
  unfold toSizeT
  lia

theorem sizeAdd_of_fits {a b : Nat} (h : a + b < 2 ^ 64) : sizeAdd a b = a + b :=
  Nat.mod_eq_of_lt h

theorem sizeMul_of_fits {a b : Nat} (h : a * b < 2 ^ 64) : sizeMul a b = a * b :=
  Nat.mod_eq_of_lt h

theorem sizeSub_of_le {a b : Nat} (hle : b ≤ a) (ha : a < 2 ^ 64) :
    sizeSub a b = a - b := by
  unfold sizeSub
  lia

end Foundation
end Notnets
