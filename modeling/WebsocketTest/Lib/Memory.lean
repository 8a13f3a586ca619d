import Mathlib.Tactic.Common
import Mathlib.Data.List.Basic

/-!
# Memory regions

A region is addressed by offset and total: it has a cell at every offset, and it is the program
on top that says which offsets it owns. Keeping the bounds out of the region is deliberate. A
program that computes a wrong offset still has a meaning here (it reads or overwrites whatever
lies there), so "it never leaves its own cells" stays a theorem about the program instead of
being built into the type.

Two operations: `read`, a run of consecutive cells as a list, and `write`, the region after a
list was copied into it. `move` is `memmove`: a `write` of what was `read` before, so an overlap
of the two ranges needs no case of its own.
-/

set_option autoImplicit false

namespace Lib.Memory

universe u

variable {α : Type u}

/-- The `n` cells from offset `p` on. -/
def read (m : Nat → α) (p n : Nat) : List α := (List.range n).map fun i => m (p + i)

/-- The region after the cells `xs` were copied to offset `p`. -/
def write (m : Nat → α) (p : Nat) (xs : List α) : Nat → α :=
  fun i => if p ≤ i then (xs[i - p]?).getD (m i) else m i

/-- `memmove(m + dst, m + src, n)`. -/
def move (m : Nat → α) (dst src n : Nat) : Nat → α := write m dst (read m src n)

/-! ## Reading -/

@[simp] theorem length_read (m : Nat → α) (p n : Nat) : (read m p n).length = n := by
  simp [read]

@[simp] theorem read_zero (m : Nat → α) (p : Nat) : read m p 0 = [] := rfl

theorem getElem_read (m : Nat → α) {p n i : Nat} (hi : i < (read m p n).length) :
    (read m p n)[i] = m (p + i) := by
  simp [read]

theorem read_succ (m : Nat → α) (p n : Nat) : read m p (n + 1) = m p :: read m (p + 1) n := by
  refine List.ext_getElem (by simp) ?_
  intro i h₁ h₂
  cases i with
  | zero => simp [getElem_read]
  | succ i =>
    rw [List.getElem_cons_succ, getElem_read, getElem_read]
    congr 1
    omega

/-- A read splits at any cell inside it. -/
theorem read_add (m : Nat → α) (p a b : Nat) :
    read m p (a + b) = read m p a ++ read m (p + a) b := by
  induction a generalizing p with
  | zero => simp
  | succ a ih =>
    rw [show a + 1 + b = (a + b) + 1 by omega, read_succ, read_succ, ih (p + 1),
      show p + 1 + a = p + (a + 1) by omega, List.cons_append]

theorem take_read (m : Nat → α) {p n k : Nat} (h : k ≤ n) : (read m p n).take k = read m p k := by
  obtain ⟨j, rfl⟩ := Nat.exists_eq_add_of_le h
  rw [read_add, List.take_left' (length_read m p k)]

theorem drop_read (m : Nat → α) {p n k : Nat} (h : k ≤ n) :
    (read m p n).drop k = read m (p + k) (n - k) := by
  obtain ⟨j, rfl⟩ := Nat.exists_eq_add_of_le h
  rw [read_add, List.drop_left' (length_read m p k), Nat.add_sub_cancel_left]

/-! ## Reading what was written

A read meets a write in one of three ways: behind it, in front of it, or inside. Others are put
together from these with `read_add`. -/

theorem write_apply_of_ge (m : Nat → α) {p i : Nat} (xs : List α) (h : p + xs.length ≤ i) :
    write m p xs i = m i := by
  rw [write, List.getElem?_eq_none (by omega)]
  simp

theorem write_apply_of_mem (m : Nat → α) {p i : Nat} (xs : List α) (h : i < xs.length) :
    write m p xs (p + i) = xs[i] := by
  simp [write, h]

/-- What was written is read back, from any cell of it on. -/
theorem read_write_drop (m : Nat → α) (p : Nat) (xs : List α) {a n : Nat}
    (h : a + n ≤ xs.length) : read (write m p xs) (p + a) n = (xs.drop a).take n := by
  refine List.ext_getElem (by simp; omega) ?_
  intro i h₁ h₂
  rw [length_read] at h₁
  rw [getElem_read, show p + a + i = p + (a + i) by omega,
    write_apply_of_mem m xs (show a + i < xs.length by omega)]
  simp

@[simp] theorem read_write_self (m : Nat → α) (p : Nat) (xs : List α) :
    read (write m p xs) p xs.length = xs := by
  simpa using read_write_drop m p xs (a := 0) (n := xs.length) (by omega)

/-- A read that ends where the write begins sees the old cells. -/
theorem read_write_below (m : Nat → α) {p a n : Nat} (xs : List α) (h : a + n ≤ p) :
    read (write m p xs) a n = read m a n := by
  refine List.ext_getElem (by simp) ?_
  intro i h₁ h₂
  rw [length_read] at h₁
  rw [getElem_read, getElem_read, write, if_neg (by omega)]

/-- A read that begins where the write ends sees the old cells too. -/
theorem read_write_above (m : Nat → α) {p a n : Nat} (xs : List α) (h : p + xs.length ≤ a) :
    read (write m p xs) a n = read m a n := by
  refine List.ext_getElem (by simp) ?_
  intro i h₁ h₂
  rw [getElem_read, getElem_read, write_apply_of_ge m xs (by omega)]

/-- Writing behind a run of cells appends to it. -/
theorem read_write_append (m : Nat → α) (a n : Nat) (xs : List α) :
    read (write m (a + n) xs) a (n + xs.length) = read m a n ++ xs := by
  rw [read_add, read_write_below m xs (Nat.le_refl _), read_write_self]

/-- One write behind the other is one write. -/
theorem write_append (m : Nat → α) (p : Nat) (xs ys : List α) :
    write m p (xs ++ ys) = write (write m p xs) (p + xs.length) ys := by
  funext i
  rcases Nat.lt_or_ge i p with h | h
  · rw [write, write, write, if_neg (by omega), if_neg (by omega), if_neg (by omega)]
  rcases Nat.lt_or_ge i (p + xs.length) with h' | h'
  · rw [write, write, write, if_pos h, if_pos h, if_neg (by omega),
      List.getElem?_append_left (by omega)]
  · rw [write, write, write, if_pos h, if_pos h, if_pos h', List.getElem?_append_right (by omega),
      List.getElem?_eq_none (l := xs) (by omega), Option.getD_none,
      show i - p - xs.length = i - (p + xs.length) by omega]

/-- The moved cells are found at their new place, whether or not the ranges overlap. -/
@[simp] theorem read_move (m : Nat → α) (dst src n : Nat) :
    read (move m dst src n) dst n = read m src n := by
  have h := read_write_self m dst (read m src n)
  rwa [length_read] at h

end Lib.Memory
