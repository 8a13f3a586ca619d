import Mathlib.Logic.Function.Basic
import Mathlib.Tactic.Common

/-!
# A heap whose cells can be freed

Objects are allocated at identities that are never used again, so that a pointer kept past its
object's end names nothing rather than something else. `free` is partial: freeing what is not
allocated is for the program on top to make an error of.

A `Heap` carries what its operations keep: nothing is at an identity not yet handed out, a freed
identity stays empty, and none was freed twice.

An allocator that uses an address again would let a stale pointer name another object. What a
program does with that object is undefined all the same, so nothing is lost by telling the two
apart, and "no stale pointer is used" can be said.
-/

set_option autoImplicit false

namespace Lib

universe u

variable {α : Type u}

structure Heap (α : Type u) where
  cell : Nat → Option α
  next : Nat
  freed : List Nat
  fresh : ∀ i, next ≤ i → cell i = none ∧ i ∉ freed
  dead : ∀ i ∈ freed, cell i = none
  once : freed.Nodup

namespace Heap

def empty : Heap α where
  cell := fun _ => none
  next := 0
  freed := []
  fresh _ _ := ⟨rfl, List.not_mem_nil⟩
  dead _ h := absurd h List.not_mem_nil
  once := List.nodup_nil

/-- The new object is at `h.next`. -/
def alloc (h : Heap α) (a : α) : Heap α where
  cell := Function.update h.cell h.next (some a)
  next := h.next + 1
  freed := h.freed
  fresh i hi := by
    rw [Function.update_of_ne (by omega)]
    exact h.fresh i (by omega)
  dead i hi := by
    rw [Function.update_of_ne fun he => (h.fresh i (by omega)).2 hi]
    exact h.dead i hi
  once := h.once

/-- Change an object in place, if it is there. -/
def modify (h : Heap α) (i : Nat) (f : α → α) : Heap α where
  cell := Function.update h.cell i ((h.cell i).map f)
  next := h.next
  freed := h.freed
  fresh j hj := by
    refine ⟨?_, (h.fresh j hj).2⟩
    rw [Function.update_apply]
    split
    · rename_i he
      rw [← he, (h.fresh j hj).1, Option.map_none]
    · exact (h.fresh j hj).1
  dead j hj := by
    rw [Function.update_apply]
    split
    · rename_i he
      rw [← he, h.dead j hj, Option.map_none]
    · exact h.dead j hj
  once := h.once

/-- `none` if there is no such object. -/
def free (h : Heap α) (i : Nat) : Option (Heap α) :=
  if hi : (h.cell i).isSome then
    some {
      cell := Function.update h.cell i none
      next := h.next
      freed := i :: h.freed
      fresh := by
        intro j hj
        have hne : j ≠ i := by
          intro he
          rw [← he, (h.fresh j hj).1] at hi
          cases hi
        rw [Function.update_of_ne hne]
        exact ⟨(h.fresh j hj).1, fun hm => (List.mem_cons.mp hm).elim hne (h.fresh j hj).2⟩
      dead := by
        intro j hj
        rw [Function.update_apply]
        split
        · rfl
        · rename_i hne
          exact h.dead j ((List.mem_cons.mp hj).resolve_left hne)
      once := by
        refine List.nodup_cons.mpr ⟨?_, h.once⟩
        intro hm
        rw [h.dead i hm] at hi
        cases hi }
  else none

variable {h : Heap α} {i : Nat}

theorem cell_modify (f : α → α) :
    (h.modify i f).cell = Function.update h.cell i ((h.cell i).map f) := rfl

@[simp] theorem cell_alloc_self (a : α) : (h.alloc a).cell h.next = some a :=
  Function.update_self ..

@[simp] theorem cell_modify_self (f : α → α) : (h.modify i f).cell i = (h.cell i).map f :=
  Function.update_self ..

theorem cell_next : h.cell h.next = none := (h.fresh h.next (Nat.le_refl _)).1

theorem cell_alloc_of_ne {a : α} (hne : i ≠ h.next) : (h.alloc a).cell i = h.cell i :=
  Function.update_of_ne hne ..

/-- Allocation leaves every object where it is. -/
theorem cell_alloc_of_isSome {a : α} (hi : (h.cell i).isSome) : (h.alloc a).cell i = h.cell i :=
  cell_alloc_of_ne fun he => by
    rw [he, cell_next] at hi
    cases hi

theorem cell_modify_of_ne {j : Nat} {f : α → α} (hne : j ≠ i) :
    (h.modify i f).cell j = h.cell j :=
  Function.update_of_ne hne ..

theorem isSome_modify {j : Nat} {f : α → α} :
    ((h.modify i f).cell j).isSome = (h.cell j).isSome := by
  by_cases hj : j = i
  · rw [hj, cell_modify_self, Option.isSome_map]
  · rw [cell_modify_of_ne hj]

/-- `free` succeeds on an object that is there, and empties its cell. -/
theorem free_cases (h : Heap α) (i : Nat) :
    (h.cell i = none ∧ h.free i = none) ∨ ((h.cell i).isSome ∧
      ∃ h', h.free i = some h' ∧ h'.cell = Function.update h.cell i none) := by
  by_cases hi : (h.cell i).isSome
  · refine .inr ⟨hi, ?_⟩
    unfold free
    rw [dif_pos hi]
    exact ⟨_, rfl, rfl⟩
  · refine .inl ⟨Option.not_isSome_iff_eq_none.mp hi, ?_⟩
    unfold free
    rw [dif_neg hi]

end Heap

end Lib
