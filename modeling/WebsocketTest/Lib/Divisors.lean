import Mathlib.Algebra.BigOperators.Ring.Finset
import Mathlib.NumberTheory.Divisors

/-!
# Divisors in pairs

The divisors of `n` come in pairs `j`, `n / j`, and one of the two is at most the square root. So
who tries every `j` from 2 up to the root, and takes both, has every proper divisor but 1
(`properDivisor_iff_pair`); and who lists them without repetition has their sum
(`sum_of_properDivisors`). `exists_ofPair_from` and `not_ofPair_of_lt` are the two ends of a loop
over `j`. Numbers are integers here, so that a program's `int`s need no conversion.
-/

set_option autoImplicit false

namespace Lib.Divisors

/-- `d` is a positive divisor of `n` that is smaller than `n`. -/
def ProperDivisor (n d : Int) : Prop := 0 < d ∧ d ∣ n ∧ d < n

/-- `d` or its partner is `j`, a divisor of `n` other than 1 and at most the square root. -/
def OfPair (n d j : Int) : Prop := 2 ≤ j ∧ j * j ≤ n ∧ j ∣ n ∧ (d = j ∨ d = n / j)

variable {n d j : Int}

theorem ProperDivisor.of_mul {k : Int} (hd : 0 < d) (hk : 2 ≤ k) : ProperDivisor (d * k) d := by
  have : d * 2 ≤ d * k := Int.mul_le_mul_of_nonneg_left hk (Int.le_of_lt hd)
  exact ⟨hd, ⟨k, rfl⟩, by omega⟩

/-- The other factor of a proper divisor. -/
theorem ProperDivisor.exists_mul (h : ProperDivisor n d) : ∃ k, 2 ≤ k ∧ n = d * k := by
  obtain ⟨hpos, ⟨k, rfl⟩, hlt⟩ := h
  refine ⟨k, ?_, rfl⟩
  by_contra hk
  have : d * k ≤ d * 1 := Int.mul_le_mul_of_nonneg_left (by omega) (Int.le_of_lt hpos)
  omega

theorem OfPair.properDivisor (h : OfPair n d j) : ProperDivisor n d := by
  obtain ⟨hj, hsq, ⟨k, rfl⟩, hd⟩ := h
  have hk : j ≤ k := Int.le_of_mul_le_mul_left hsq (by omega)
  rcases hd with rfl | rfl
  · exact .of_mul (by omega) (by omega)
  · rw [Int.mul_ediv_cancel_left _ (by omega), Int.mul_comm]
    exact .of_mul (by omega) hj

/-- **Proper divisors come in pairs**, but for 1. -/
theorem properDivisor_iff_pair (h : 2 ≤ n) : ProperDivisor n d ↔ d = 1 ∨ ∃ j, OfPair n d j := by
  constructor
  · intro hd
    obtain ⟨k, hk, rfl⟩ := hd.exists_mul
    have hpos := hd.1
    rcases Int.lt_or_le 1 d with h1 | h1
    · right
      rcases Int.le_total d k with hle | hle
      · exact ⟨d, h1, Int.mul_le_mul_of_nonneg_left hle (by omega), ⟨k, rfl⟩, .inl rfl⟩
      · refine ⟨k, hk, Int.mul_le_mul_of_nonneg_right hle (by omega), ⟨d, Int.mul_comm ..⟩, .inr ?_⟩
        exact (Int.mul_ediv_cancel _ (by omega)).symm
    · exact .inl (by omega)
  · rintro (rfl | ⟨j, hj⟩)
    · exact ⟨Int.one_pos, Int.one_dvd n, h⟩
    · exact hj.properDivisor

/-- The pairs from `i` on are the one of `i` and those behind it. -/
theorem exists_ofPair_from {i : Int} (hi : 2 ≤ i) (hsq : i * i ≤ n) :
    (∃ j, i ≤ j ∧ OfPair n d j) ↔
      (i ∣ n ∧ (d = i ∨ d = n / i)) ∨ ∃ j, i + 1 ≤ j ∧ OfPair n d j := by
  constructor
  · rintro ⟨j, hj, hpair⟩
    rcases Int.lt_or_eq_of_le hj with hlt | rfl
    · exact .inr ⟨j, hlt, hpair⟩
    · exact .inl hpair.2.2
  · rintro (hpair | ⟨j, hj, hpair⟩)
    · exact ⟨i, Int.le_refl i, hi, hsq, hpair⟩
    · exact ⟨j, by omega, hpair⟩

/-- Past the square root there are none. -/
theorem not_ofPair_of_lt {i : Int} (hi : 0 ≤ i) (hsq : n < i * i) (hj : i ≤ j) :
    ¬ OfPair n d j := by
  intro hpair
  have hle : i * i ≤ j * j := Int.mul_le_mul hj hj hi (by omega)
  have := hpair.2.1
  omega

theorem properDivisor_iff_mem :
    ProperDivisor n d ↔ ∃ m ∈ n.toNat.properDivisors, (m : Int) = d := by
  constructor
  · rintro ⟨hpos, hdvd, hlt⟩
    lift d to ℕ using Int.le_of_lt hpos
    lift n to ℕ using by omega
    exact ⟨d, Nat.mem_properDivisors.mpr ⟨by exact_mod_cast hdvd, by exact_mod_cast hlt⟩, rfl⟩
  · rintro ⟨m, hm, rfl⟩
    have hpos := Nat.pos_of_mem_properDivisors hm
    obtain ⟨hdvd, hlt⟩ := Nat.mem_properDivisors.mp hm
    lift n to ℕ using by omega
    exact ⟨by omega, by exact_mod_cast hdvd, by omega⟩

/-- **The sum of a list that has every proper divisor once.** -/
theorem sum_of_properDivisors {l : List Int} (hl : l.Nodup)
    (hmem : ∀ d, d ∈ l ↔ ProperDivisor n d) :
    l.sum = ((∑ d ∈ n.toNat.properDivisors, d : ℕ) : Int) := by
  have hset : l.toFinset = n.toNat.properDivisors.map Nat.castEmbedding := by
    ext d
    simp [hmem, properDivisor_iff_mem]
  calc l.sum = ∑ d ∈ l.toFinset, d := by rw [List.sum_toFinset _ hl, List.map_id']
    _ = ∑ d ∈ n.toNat.properDivisors, (d : Int) := by rw [hset, Finset.sum_map]; rfl
    _ = ((∑ d ∈ n.toNat.properDivisors, d : ℕ) : Int) := (Nat.cast_sum _ _).symm

end Lib.Divisors
