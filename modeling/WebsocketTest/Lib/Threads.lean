import Mathlib.Data.Fintype.Basic
import Mathlib.Data.Finset.Card
import Mathlib.Tactic.Common

/-!
# Threads at program points

The state of a pool of threads is where each one stands: a function from threads to program
points. What a synchronisation argument needs of it is only *how many* threads stand in which
places, and one lemma (`count_update`) says how a single thread's move changes such a number. With
it an invariant over unboundedly many threads is linear arithmetic over the counts.

A program with several kinds of places has one count for each, and a move changes all of them by the
same lemma. Which threads they are is lost in a count, and so are two threads at one place that must
not be there together: for that the count has to be bounded.
-/

set_option autoImplicit false

namespace Lib.Threads

universe u v

variable {ι : Type u} {P : Type v} [Fintype ι]

/-- How many threads stand at a point `S` accepts. -/
def count (S : P → Bool) (pc : ι → P) : Nat := (Finset.univ.filter fun i => S (pc i)).card

/-- **One thread's move.** The threads at `S` after thread `i` went to `q` are those before, less
`i` if it was one of them, plus `i` if it is one now. Stated as an equation of sums because a
subtraction on `Nat` would need its own side condition at every use. -/
theorem count_update [DecidableEq ι] (S : P → Bool) (pc : ι → P) (i : ι) (q : P) :
    count S (Function.update pc i q) + (if S (pc i) then 1 else 0) =
      count S pc + (if S q then 1 else 0) := by
  have split : ∀ f : ι → P, count S f =
      ((Finset.univ.erase i).filter fun j => S (f j)).card + (if S (f i) then 1 else 0) := by
    intro f
    unfold count
    rw [← Finset.insert_erase (Finset.mem_univ i), Finset.filter_insert]
    by_cases h : S (f i)
    · rw [if_pos h, if_pos h, Finset.card_insert_of_notMem (by simp)]
      simp
    · rw [if_neg h, if_neg h]
      simp
  have others : (Finset.univ.erase i).filter (fun j => S (Function.update pc i q j)) =
      (Finset.univ.erase i).filter fun j => S (pc j) := by
    refine Finset.filter_congr ?_
    intro j hj
    rw [Function.update_of_ne (Finset.ne_of_mem_erase hj)]
  rw [split pc, split (Function.update pc i q), others, Function.update_self]
  omega

/-- A thread at `S` makes the count positive. -/
theorem count_pos {S : P → Bool} {pc : ι → P} {i : ι} (h : S (pc i) = true) : 0 < count S pc :=
  Finset.card_pos.mpr ⟨i, by simpa using h⟩

theorem count_eq_zero {S : P → Bool} {pc : ι → P} (h : ∀ i, S (pc i) = false) :
    count S pc = 0 := by
  simp [count, h]

end Lib.Threads
