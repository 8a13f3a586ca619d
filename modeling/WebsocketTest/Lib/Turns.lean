import Mathlib.Data.List.Count
import Mathlib.Tactic.Common

/-!
# Taking turns

What is done in turn on `n` places, the `k`-th on place `k % n`, comes back to a place after `n`
times and not before: `le_of_same_place`. And a place that was taken at all was taken within the
last `n` times: `exists_recent`.

`exists_nth` finds the `j`-th of the elements of a list that are counted, from the back.

That a place was taken at some time does not say whether it has been taken since. What one finds
there is what the last time left, and the last time is among the last `n`.
-/

set_option autoImplicit false

namespace Lib.Turns

universe u

variable {α : Type u}

/-- There are as many elements as are counted, each with those that come before it. -/
theorem exists_nth {p : α → Bool} {l : List α} {j : Nat} (h : j < l.countP p) :
    ∃ front a back, l = front ++ a :: back ∧ p a = true ∧ back.countP p = j := by
  induction l with
  | nil => simp at h
  | cons b l ih =>
    rcases Nat.lt_or_ge j (l.countP p) with hlt | hge
    · obtain ⟨front, a, back, rfl, ha, hback⟩ := ih hlt
      exact ⟨b :: front, a, back, rfl, ha, hback⟩
    · cases hb : p b with
      | true =>
        rw [List.countP_cons_of_pos hb] at h
        exact ⟨[], b, l, rfl, hb, by omega⟩
      | false =>
        rw [List.countP_cons_of_neg (by rw [hb]; exact Bool.false_ne_true)] at h
        omega

/-- **The same place** is taken `n` times later, at the earliest. -/
theorem le_of_same_place {n a c : Nat} (h : (a + c) % n = a % n) (hc : 0 < c) : n ≤ c := by
  have hdvd : n ∣ a + c - a := Nat.dvd_of_mod_eq_zero (Nat.sub_mod_eq_zero_of_mod_eq h)
  rw [Nat.add_sub_cancel_left] at hdvd
  exact Nat.le_of_dvd hc hdvd

/-- **A place that was taken** by the `i`-th time was taken within the last `n` of `k` times. -/
theorem exists_recent {n i k : Nat} (hn : 0 < n) (hik : i ≤ k) :
    ∃ j, i ≤ j ∧ j ≤ k ∧ j % n = i % n ∧ k - j < n := by
  have hmod := Nat.mod_lt (k - i) hn
  have hle := Nat.mod_le (k - i) n
  refine ⟨k - (k - i) % n, by omega, by omega, ?_, by omega⟩
  have hsplit : k - (k - i) % n = i + n * ((k - i) / n) := by
    have hdiv := Nat.mod_add_div (k - i) n
    omega
  rw [hsplit, Nat.add_mul_mod_self_left]

end Lib.Turns
