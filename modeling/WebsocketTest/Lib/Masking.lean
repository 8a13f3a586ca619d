import Mathlib.Algebra.Ring.Periodic
import Mathlib.Tactic.Common

/-!
# Masking with a key stream

Every letter of a text is combined with the letter of a key stream at the same place: `mask`. Where
the combination undoes itself, masking twice with one key is nothing (`mask_mask`). A text may be
masked in parts, each with what is left of the key stream (`mask_append`), and where the key repeats
itself a part of whole periods does not move it (`shift_of_periodic`).

The key stream is a function on the positions, so that a key which is a list used over and over is
one that is periodic, and a key that is rotated to go on in the middle of it is a `shift`. Letters
and key letters may be of different types; only `mask_mask` asks something of their combination.
-/

set_option autoImplicit false

namespace Lib.Masking

universe u v

variable {α : Type u} {κ : Type v} {f : α → κ → α}

/-- `xs` under the key stream `k`: each letter is combined with that of `k` at its place. -/
def mask (f : α → κ → α) (k : Nat → κ) (xs : List α) : List α := xs.mapIdx fun i x => f x (k i)

/-- What is left of a key stream after `n` letters. -/
def shift (n : Nat) (k : Nat → κ) : Nat → κ := fun i => k (n + i)

@[simp] theorem mask_nil (k : Nat → κ) : mask f k ([] : List α) = [] := rfl

@[simp] theorem length_mask (k : Nat → κ) (xs : List α) : (mask f k xs).length = xs.length := by
  simp [mask]

@[simp] theorem shift_zero (k : Nat → κ) : shift 0 k = k := by
  funext i
  rw [shift, Nat.zero_add]

theorem shift_shift (m n : Nat) (k : Nat → κ) : shift m (shift n k) = shift (n + m) k := by
  funext i
  rw [shift, shift, shift, Nat.add_assoc]

theorem mask_cons (k : Nat → κ) (x : α) (xs : List α) :
    mask f k (x :: xs) = f x (k 0) :: mask f (shift 1 k) xs := by
  rw [mask, List.mapIdx_cons, mask]
  simp only [shift, Nat.add_comm 1]

/-- **In parts**: what comes later is masked with what is left of the key stream. -/
theorem mask_append (k : Nat → κ) (xs ys : List α) :
    mask f k (xs ++ ys) = mask f k xs ++ mask f (shift xs.length k) ys := by
  rw [mask, List.mapIdx_append, mask, mask]
  simp only [shift, Nat.add_comm]

/-- **Masking undoes itself** where the combination does. -/
theorem mask_mask (hf : ∀ x c, f (f x c) c = x) (k : Nat → κ) (xs : List α) :
    mask f k (mask f k xs) = xs := by
  apply List.ext_getElem (by simp)
  intro i h₁ h₂
  simp only [mask, List.getElem_mapIdx, hf]

/-- Whole periods of a key stream do not move it. -/
theorem shift_of_periodic {k : Nat → κ} {c : Nat} (hk : Function.Periodic k c) (n : Nat) :
    shift (n * c) k = k := by
  funext i
  rw [shift, Nat.add_comm]
  exact hk.nat_mul n i

/-- Only the letters of the key stream beside the text count. -/
theorem mask_eq_zipWith (k : Nat → κ) {xs : List α} {ks : List κ} (hlen : xs.length ≤ ks.length)
    (h : ∀ i (hi : i < ks.length), ks[i] = k i) : mask f k xs = List.zipWith f xs ks := by
  apply List.ext_getElem
  · simp [hlen]
  · intro i h₁ h₂
    simp [mask, h]

end Lib.Masking
