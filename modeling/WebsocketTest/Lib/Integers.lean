import Mathlib.Tactic.Common

/-!
# Fixed-width integers as numbers

C's `short`, `int` and their unsigned counterparts, as the numbers they stand for. A conversion
is the remainder C prescribes: modulo `2 ^ w` for an unsigned type, and the representative in
`[-2 ^ (w-1), 2 ^ (w-1))` for a signed one (what every two's-complement compiler does). A value is
converted where the C code converts it and nowhere else; between two conversions the
arithmetic is that of `Nat` and `Int`, which is what makes the side conditions `omega`'s.

A signed operation whose result is not of its type has no value in C. `intResult` and `longResult`
give it one that the caller chooses, so that what holds for every choice does not depend on it;
`IsInt` is the question whether there is one.
-/

set_option autoImplicit false

namespace Lib.Integers

/-- Conversion of a natural number to a 32-bit unsigned integer. -/
def u32 (n : Nat) : Nat := n % 4294967296

/-- Conversion of an integer to a 32-bit unsigned integer, as `(unsigned int)z`. -/
def toU32 (z : Int) : Nat := (z % 4294967296).toNat

/-- Conversion of an integer to a 16-bit unsigned integer, as `(unsigned short)z`. -/
def toU16 (z : Int) : Nat := (z % 65536).toNat

/-- Conversion of an integer to a 16-bit signed integer, as `(short)z`. -/
def toS16 (z : Int) : Int := (z + 32768) % 65536 - 32768

/-- Conversion of an integer to a 32-bit signed integer, as `(int)z`. -/
def toS32 (z : Int) : Int := (z + 2147483648) % 4294967296 - 2147483648

/-- Conversion of an integer to a 64-bit unsigned integer, as `(unsigned long long)z`. -/
def toU64 (z : Int) : Nat := (z % 18446744073709551616).toNat

/-- Conversion of an integer to a 64-bit signed integer, as `(long)z`. -/
def toS64 (z : Int) : Int := (z + 9223372036854775808) % 18446744073709551616 - 9223372036854775808

/-- What an `int` can hold. -/
abbrev IsInt (z : Int) : Prop := -2147483648 ≤ z ∧ z < 2147483648

/-- The result of an `int` operation that is `z` over the integers. -/
def intResult (overflowed : Int → Int) (z : Int) : Int :=
  if IsInt z then z else toS32 (overflowed z)

/-- The result of a `long` operation that is `z` over the integers. -/
def longResult (overflowed : Int → Int) (z : Int) : Int :=
  if -9223372036854775808 ≤ z ∧ z < 9223372036854775808 then z else toS64 (overflowed z)

theorem u32_eq {n : Nat} (h : n < 4294967296) : u32 n = n := Nat.mod_eq_of_lt h

theorem toU32_natCast {n : Nat} (h : n < 4294967296) : toU32 n = n := by
  unfold toU32
  omega

theorem toU16_lt (z : Int) : toU16 z < 65536 := by
  unfold toU16
  omega

theorem toS16_eq {z : Int} (h₁ : -32768 ≤ z) (h₂ : z < 32768) : toS16 z = z := by
  unfold toS16
  omega

theorem toS32_eq {z : Int} (h₁ : -2147483648 ≤ z) (h₂ : z < 2147483648) : toS32 z = z := by
  unfold toS32
  omega

theorem toS32_isInt (z : Int) : IsInt (toS32 z) := by
  unfold IsInt toS32
  omega

theorem toU64_eq {z : Int} (h₁ : 0 ≤ z) (h₂ : z < 18446744073709551616) : (toU64 z : Int) = z := by
  unfold toU64
  omega

theorem toU64_of_neg {z : Int} (h₁ : -9223372036854775808 ≤ z) (h₂ : z < 0) :
    (toU64 z : Int) = z + 18446744073709551616 := by
  unfold toU64
  omega

theorem toS64_eq {z : Int} (h₁ : -9223372036854775808 ≤ z) (h₂ : z < 9223372036854775808) :
    toS64 z = z := by
  unfold toS64
  omega

theorem intResult_isInt (overflowed : Int → Int) (z : Int) : IsInt (intResult overflowed z) := by
  unfold intResult
  split
  · assumption
  · exact toS32_isInt _

theorem intResult_eq {overflowed : Int → Int} {z : Int} (h : IsInt z) :
    intResult overflowed z = z := if_pos h

theorem longResult_eq {overflowed : Int → Int} {z : Int} (h₁ : -9223372036854775808 ≤ z)
    (h₂ : z < 9223372036854775808) : longResult overflowed z = z := if_pos ⟨h₁, h₂⟩

end Lib.Integers
