import WebsocketTest.Lib.ByteOrder
import Mathlib.Data.List.Rotate

/-!
# Words and their bytes

What the operations on a machine word do to its bytes, on a host that stores the least significant
byte first: `xor` goes byte by byte (`load_zipWith_xor`), two words next to each other are one word
put together from a low and a high half (`load_append`), and the low half shifted up beside the
high half shifted down is a rotation of the bytes (`load_rotate`).

A word is a number below a power of 256, and no width is fixed. Programs that work on a word at a
time mean to work on its bytes, and these lemmas are what takes the one to the other.
-/

set_option autoImplicit false

namespace Lib.ByteOrder

open Lib.Framing

@[simp] theorem length_store (w n : Nat) : (store w n).length = w := by simp [store]

theorem load_lt (bs : List UInt8) : load bs < 256 ^ bs.length := by
  have h := beNat_lt bs.reverse
  rwa [List.length_reverse] at h

theorem load_store {w n : Nat} (h : n < 256 ^ w) : load (store w n) = n := by
  rw [load, store, List.reverse_reverse, beNat_beBytes_of_lt h]

/-- Bytes of one length that load the same number are the same. -/
theorem load_inj {xs ys : List UInt8} (hlen : xs.length = ys.length) (h : load xs = load ys) :
    xs = ys := by
  rw [← store_load xs, ← store_load ys, hlen, h]

/-- The bytes that come first are the low ones. -/
theorem load_append (xs ys : List UInt8) :
    load (xs ++ ys) = load xs + 256 ^ xs.length * load ys := by
  rw [load, List.reverse_append, beNat_append, List.length_reverse, load, load, Nat.add_comm,
    Nat.mul_comm]

@[simp] theorem load_singleton (b : UInt8) : load [b] = b.toNat := by simp [load, beNat]

theorem load_cons (b : UInt8) (bs : List UInt8) : load (b :: bs) = b.toNat + 256 * load bs := by
  have h := load_append [b] bs
  rwa [List.singleton_append, load_singleton, List.length_singleton, Nat.pow_one] at h

/-- `xor` does not carry from one byte into the next. -/
theorem xor_byte_add {a b m n : Nat} (ha : a < 256) (hb : b < 256) :
    (a + 256 * m) ^^^ (b + 256 * n) = (a ^^^ b) + 256 * (m ^^^ n) := by
  have hxor : a ^^^ b < 2 ^ 8 := Nat.xor_lt_two_pow ha hb
  apply Nat.eq_of_testBit_eq
  intro i
  rw [Nat.testBit_xor, Nat.add_comm a, Nat.add_comm b, Nat.add_comm (a ^^^ b),
    Nat.testBit_two_pow_mul_add (i := 8) m ha, Nat.testBit_two_pow_mul_add (i := 8) n hb,
    Nat.testBit_two_pow_mul_add (i := 8) _ hxor]
  split <;> simp [Nat.testBit_xor]

/-- **`xor` goes byte by byte**: that of two words is the word of the bytes' `xor`. -/
theorem load_zipWith_xor {xs ys : List UInt8} (h : xs.length = ys.length) :
    load (List.zipWith (· ^^^ ·) xs ys) = load xs ^^^ load ys := by
  induction xs generalizing ys with
  | nil =>
    cases ys with
    | nil => rfl
    | cons y ys => simp at h
  | cons x xs ih =>
    cases ys with
    | nil => simp at h
    | cons y ys =>
      have htail : xs.length = ys.length := by simpa using h
      rw [List.zipWith_cons_cons, load_cons, load_cons, load_cons, ih htail, UInt8.toNat_xor,
        xor_byte_add x.toNat_lt y.toNat_lt]

/-- **A rotation of the bytes**: the high bytes shifted down, and the low ones shifted up beside
    them. -/
theorem load_rotate {bs : List UInt8} {k : Nat} (h : k ≤ bs.length) :
    load (bs.rotate k) =
      load bs / 256 ^ k ||| load bs * 256 ^ (bs.length - k) % 256 ^ bs.length := by
  have hlow : (bs.take k).length = k := List.length_take_of_le h
  have hhigh : (bs.drop k).length = bs.length - k := List.length_drop
  have hsplit : load bs = load (bs.take k) + 256 ^ k * load (bs.drop k) := by
    have happend := load_append (bs.take k) (bs.drop k)
    rwa [List.take_append_drop, hlow] at happend
  have hlt : load (bs.take k) < 256 ^ k := by
    have := load_lt (bs.take k)
    rwa [hlow] at this
  have hlt' : load (bs.drop k) < 2 ^ (8 * (bs.length - k)) := by
    have := load_lt (bs.drop k)
    rwa [hhigh, show (256 : Nat) = 2 ^ 8 from rfl, ← Nat.pow_mul] at this
  have hdown : load bs / 256 ^ k = load (bs.drop k) := by
    rw [hsplit, Nat.add_mul_div_left _ _ (Nat.pow_pos (by omega)), Nat.div_eq_of_lt hlt,
      Nat.zero_add]
  have hup : load bs * 256 ^ (bs.length - k) % 256 ^ bs.length =
      256 ^ (bs.length - k) * load (bs.take k) := by
    have hpow : 256 ^ bs.length = 256 ^ k * 256 ^ (bs.length - k) := by
      rw [← Nat.pow_add, Nat.add_sub_cancel' h]
    rw [hpow, Nat.mul_mod_mul_right, hsplit, Nat.add_mul_mod_self_left, Nat.mod_eq_of_lt hlt,
      Nat.mul_comm]
  rw [hdown, hup, List.rotate_eq_drop_append_take h, load_append, hhigh, Nat.or_comm,
    show (256 : Nat) = 2 ^ 8 from rfl, ← Nat.pow_mul, ← Nat.two_pow_add_eq_or_of_lt hlt',
    Nat.add_comm]

end Lib.ByteOrder
