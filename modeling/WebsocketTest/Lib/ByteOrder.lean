import WebsocketTest.Lib.Framing

/-!
# Byte order

A number in memory is a list of bytes, the least significant first on a little-endian host and last
on the wire (`Lib.Framing.beBytes`). `swap w` turns the `w` bytes of a number round, so that a
little-endian store of the swapped number is the wire format (`store_swap`), and a little-endian
load of the wire format, swapped, is the number (`swap_load`). A swap of `a + b` bytes is the swaps
of its two parts, in the other order (`swap_add`).

The width is a parameter, so that `htons`, `htonl` and a hand-written 64-bit swap are one function
at three widths, and none of them needs an argument about its bits. A number that is too large for
its width loses its high bytes first, as it does in a conversion (`beBytes_mod`, `swap_mod`).
-/

set_option autoImplicit false

namespace Lib.ByteOrder

open Lib.Framing

/-- The number that a little-endian host loads from these bytes. -/
def load (bs : List UInt8) : Nat := beNat bs.reverse

/-- The `w` bytes of a number, as a little-endian host stores them. -/
def store (w n : Nat) : List UInt8 := (beBytes w n).reverse

/-- The number with its `w` bytes in the other order. -/
def swap (w n : Nat) : Nat := load (beBytes w n)

theorem beNat_append (xs ys : List UInt8) :
    beNat (xs ++ ys) = beNat xs * 256 ^ ys.length + beNat ys := by
  induction ys using List.reverseRecOn with
  | nil => simp [beNat]
  | append_singleton ys y ih =>
    rw [← List.append_assoc, beNat_append_singleton, ih, beNat_append_singleton,
      List.length_append, List.length_singleton, Nat.pow_succ, Nat.add_mul, Nat.mul_assoc,
      Nat.add_assoc]

/-- The bytes of the high part come first, and the two parts do not mix. -/
theorem beBytes_add (a b n : Nat) :
    beBytes (a + b) n = beBytes a (n / 256 ^ b) ++ beBytes b n := by
  induction b generalizing n with
  | zero => simp [beBytes]
  | succ b ih =>
    rw [← Nat.add_assoc, beBytes, ih, beBytes, Nat.div_div_eq_div_mul, ← Nat.pow_succ',
      List.append_assoc]

/-- Bytes above the width do not matter. -/
theorem beBytes_mod (w n : Nat) : beBytes w (n % 256 ^ w) = beBytes w n := by
  have h := beBytes_beNat (beBytes w n)
  rwa [length_beBytes, beNat_beBytes] at h

theorem store_load (bs : List UInt8) : store bs.length (load bs) = bs := by
  have h := beBytes_beNat bs.reverse
  rw [List.length_reverse] at h
  rw [store, load, h, List.reverse_reverse]

theorem swap_lt (w n : Nat) : swap w n < 256 ^ w := by
  have h := beNat_lt (beBytes w n).reverse
  rwa [List.length_reverse, length_beBytes] at h

/-- **A swapped number is stored in the wire format.** -/
theorem store_swap (w n : Nat) : store w (swap w n) = beBytes w n := by
  have h := store_load (beBytes w n)
  rwa [length_beBytes] at h

/-- **The wire format is loaded as the swapped number.** -/
theorem swap_load (bs : List UInt8) : swap bs.length (load bs) = beNat bs := by
  have h := store_load bs
  rw [store] at h
  rw [swap, load, h]

/-- **The parts of a number are swapped one by one**, and change places. -/
theorem swap_add (a b n : Nat) : swap (a + b) n = swap b n * 256 ^ a + swap a (n / 256 ^ b) := by
  rw [swap, load, beBytes_add, List.reverse_append, beNat_append, List.length_reverse,
    length_beBytes]
  rfl

theorem swap_mod (w n : Nat) : swap w (n % 256 ^ w) = swap w n := by
  rw [swap, beBytes_mod, swap]

theorem swap_one (n : Nat) : swap 1 n = n % 256 := by
  simp [swap, load, beBytes, beNat]

end Lib.ByteOrder
