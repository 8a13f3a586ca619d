import WebsocketTest.Lib.Divisors
import WebsocketTest.Lib.Integers
import Mathlib.Tactic.Linarith

/-!
# The test client (`testclient/main.cpp`)

`p` collects the divisors of `num` in a `set<int>`, 1 and every pair up to the square root, prints
them, adds them up and compares. Where an `int` operation has no value, `p` has none.

**`p_iff`** — `p` answers whether `num` is perfect unless `num` is 1, which is put in without being
tried; or so large that the loop squares 46341 before it stops; or its divisors sum to more than an
`int`. The loop is the definition's recursion: it always ends.

The three exceptions are of two kinds. For 1 the answer is wrong. In the other two an `int`
overflows, which has no value in the language, so that nothing can be said of what is printed. A
number can be small enough for the loop and have too large a sum; the condition asks for both.

What is printed is part of the result, in order, since the set is sorted.
-/

set_option autoImplicit false

namespace WebsocketTest

open Lib.Integers Lib.Divisors Std

namespace TestClient

/-- `set<int>`. -/
abbrev IntSet := ExtTreeSet Int compare

/-- The body of the first loop. -/
def insertPair (num i : Int) (s : IntSet) : IntSet :=
  if num.tmod i = 0 then (s.insert i).insert (num.tdiv i) else s

/-- The first loop, from `i` on. -/
def divisorsFrom (num i : Int) (s : IntSet) : Option IntSet :=
  if IsInt (i * i) then
    if i * i ≤ num then
      if IsInt (i + 1) then divisorsFrom num (i + 1) (insertPair num i s) else none
    else some s
  else none
termination_by (num + 1 - i).toNat
decreasing_by
  have : i ≤ i * i := by nlinarith
  omega

/-- `sum += *sit`. -/
def addTo (sum x : Int) : Option Int := if IsInt (sum + x) then some (sum + x) else none

/-- `p`: the lines it prints, and what it returns. -/
def p (num : Int) : Option (List Int × Int) := do
  let s ← divisorsFrom num 2 ((∅ : IntSet).insert 1)
  let sum ← s.toList.foldlM addTo 0
  return (s.toList, if sum = num then 1 else 0)

/-! ## The first loop -/

theorem mem_insert {s : IntSet} {i x : Int} : x ∈ s.insert i ↔ x = i ∨ x ∈ s := by
  rw [ExtTreeSet.mem_insert, LawfulEqCmp.compare_eq_iff_eq, eq_comm]

theorem mem_insertPair {num i x : Int} {s : IntSet} (hnum : 0 ≤ num) :
    x ∈ insertPair num i s ↔ x ∈ s ∨ i ∣ num ∧ (x = i ∨ x = num / i) := by
  unfold insertPair
  simp only [← Int.dvd_iff_tmod_eq_zero, Int.tdiv_eq_ediv_of_nonneg hnum]
  by_cases hdvd : i ∣ num
  · rw [if_pos hdvd, mem_insert, mem_insert]
    constructor
    · rintro (hx | hx | hx)
      · exact .inr ⟨hdvd, .inr hx⟩
      · exact .inr ⟨hdvd, .inl hx⟩
      · exact .inl hx
    · rintro (hx | ⟨-, hx | hx⟩)
      · exact .inr (.inr hx)
      · exact .inr (.inl hx)
      · exact .inl hx
  · simp [hdvd]

/-- Where the squares stay below the limit, the loop adds every pair from `i` on. -/
theorem divisorsFrom_eq_some {num : Int} (hnum : num < 2147395600) (i : Int) (s : IntSet)
    (hi : 2 ≤ i) (hle : i ≤ 46340) :
    ∃ t, divisorsFrom num i s = some t ∧ ∀ x, x ∈ t ↔ x ∈ s ∨ ∃ j, i ≤ j ∧ OfPair num x j := by
  have hpos : 0 ≤ i * i := Int.mul_nonneg (by omega) (by omega)
  have hmax : i * i ≤ 46340 * 46340 := Int.mul_le_mul hle hle (by omega) (by omega)
  rw [divisorsFrom, if_pos (show IsInt (i * i) from ⟨by omega, by omega⟩)]
  by_cases hdo : i * i ≤ num
  · have hnext : i + 1 ≤ 46340 := by nlinarith
    obtain ⟨t, ht, hmem⟩ := divisorsFrom_eq_some hnum (i + 1) (insertPair num i s) (by omega) hnext
    refine ⟨t, by rw [if_pos hdo, if_pos ⟨by omega, by omega⟩, ht], fun x => ?_⟩
    rw [hmem, mem_insertPair (by omega), or_assoc, exists_ofPair_from hi hdo]
  · refine ⟨s, if_neg hdo, fun x => ⟨.inl, ?_⟩⟩
    rintro (hx | ⟨j, hj, hx⟩)
    · exact hx
    · exact absurd hx (not_ofPair_of_lt (by omega) (Int.not_le.mp hdo) hj)
termination_by (46340 - i).toNat

/-- From 46340 squared on, the loop squares 46341. -/
theorem divisorsFrom_eq_none {num : Int} (hnum : 2147395600 ≤ num) (i : Int) (s : IntSet)
    (hi : 2 ≤ i) (hle : i ≤ 46341) : divisorsFrom num i s = none := by
  rw [divisorsFrom]
  rcases Int.lt_or_eq_of_le hle with hlt | rfl
  · have hmax : i * i ≤ 46340 * 46340 :=
      Int.mul_le_mul (by omega) (by omega) (by omega) (by omega)
    have hdo : i * i ≤ num := by omega
    rw [divisorsFrom_eq_none hnum (i + 1) _ (by omega) (by omega)]
    simp [hdo]
  · exact if_neg (by decide)
termination_by (46341 - i).toNat

/-! ## The sum -/

/-- Adding up what is not negative, the last sum is the largest. -/
theorem foldlM_addTo {l : List Int} (hl : ∀ x ∈ l, 0 ≤ x) {acc : Int} (hacc : 0 ≤ acc)
    (hint : acc < 2147483648) :
    l.foldlM addTo acc = if acc + l.sum < 2147483648 then some (acc + l.sum) else none := by
  induction l generalizing acc with
  | nil => simp [hint]
  | cons x l ih =>
    have hx : 0 ≤ x := hl x List.mem_cons_self
    have hrest : 0 ≤ l.sum := List.sum_nonneg fun y hy => hl y (List.mem_cons_of_mem _ hy)
    rw [List.foldlM_cons, List.sum_cons, ← Int.add_assoc]
    by_cases hadd : acc + x < 2147483648
    · have hstep : addTo acc x = some (acc + x) := if_pos ⟨by omega, hadd⟩
      rw [hstep]
      exact ih (fun y hy => hl y (List.mem_cons_of_mem _ hy)) (by omega) hadd
    · have hstep : addTo acc x = none := if_neg fun h => hadd h.2
      rw [hstep, if_neg (by omega)]
      rfl

/-! ## The check -/

/-- The set that the loop starts from and what it comes to. -/
theorem divisorsFrom_two {num : Int} (hnum : num < 2147395600) :
    ∃ s, divisorsFrom num 2 ((∅ : IntSet).insert 1) = some s ∧
      ∀ d, d ∈ s.toList ↔ d = 1 ∨ ∃ j, OfPair num d j := by
  obtain ⟨s, hs, hmem⟩ := divisorsFrom_eq_some hnum 2 ((∅ : IntSet).insert 1) (by decide)
    (by decide)
  refine ⟨s, hs, fun d => ?_⟩
  rw [ExtTreeSet.mem_toList, hmem, mem_insert]
  constructor
  · rintro ((hd | hd) | ⟨j, -, hj⟩)
    · exact .inl hd
    · exact absurd hd ExtTreeSet.not_mem_empty
    · exact .inr ⟨j, hj⟩
  · rintro (hd | ⟨j, hj⟩)
    · exact .inl (.inl hd)
    · exact .inr ⟨j, hj.1, hj⟩

theorem nodup_toList (s : IntSet) : s.toList.Nodup := by
  refine (ExtTreeSet.distinct_toList (t := s)).imp fun h he => h ?_
  exact LawfulEqCmp.compare_eq_iff_eq.mpr he

/-- What `p` does with the set: it prints it in order, and compares its sum. -/
theorem p_of_divisors {num : Int} {s : IntSet}
    (hs : divisorsFrom num 2 ((∅ : IntSet).insert 1) = some s) (hpos : ∀ d ∈ s.toList, 0 ≤ d) :
    p num = if s.toList.sum < 2147483648 then
        some (s.toList, if s.toList.sum = num then 1 else 0)
      else none := by
  unfold p
  rw [hs, Option.bind_eq_bind, Option.bind_some, foldlM_addTo hpos (Int.le_refl 0) (by decide),
    Int.zero_add]
  split <;> rfl

/-- A number that has no pair: 1 is all there is. -/
theorem p_of_le_one {num : Int} (h : num ≤ 1) :
    p num = some ([1], if num = 1 then 1 else 0) := by
  have hs : divisorsFrom num 2 ((∅ : IntSet).insert 1) = some ((∅ : IntSet).insert 1) := by
    rw [divisorsFrom, if_pos (by decide), if_neg (by omega)]
  have hlist : ((∅ : IntSet).insert 1).toList = [1] := by decide
  rw [p_of_divisors hs (by rw [hlist]; decide), hlist]
  simp [eq_comm]

theorem p_one : p 1 = some ([1], 1) := p_of_le_one (Int.le_refl 1)

/-- A number with a proper divisor: all of them are printed, and their sum is compared. -/
theorem p_of_two_le {num : Int} (h : 2 ≤ num) (hnum : num < 2147395600) :
    ∃ out : List Int, (∀ d, d ∈ out ↔ ProperDivisor num d) ∧
      p num = if ∑ d ∈ num.toNat.properDivisors, d < 2147483648 then
          some (out, if ∑ d ∈ num.toNat.properDivisors, d = num.toNat then 1 else 0)
        else none := by
  obtain ⟨s, hs, hmem⟩ := divisorsFrom_two hnum
  have hlist : ∀ d, d ∈ s.toList ↔ ProperDivisor num d := fun d =>
    (hmem d).trans (properDivisor_iff_pair h).symm
  have hsum := sum_of_properDivisors (nodup_toList s) hlist
  refine ⟨s.toList, hlist, ?_⟩
  rw [p_of_divisors hs fun d hd => Int.le_of_lt ((hlist d).mp hd).1, hsum]
  generalize ∑ d ∈ num.toNat.properDivisors, d = sum
  have hlt : (sum : Int) < 2147483648 ↔ sum < 2147483648 := by omega
  have heq : (sum : Int) = num ↔ sum = num.toNat := by omega
  simp only [hlt, heq]

/-- What `main` asks. -/
example : p 28 = some ([1, 2, 4, 7, 14], 1) := by
  have hloop : divisorsFrom 28 2 ((∅ : IntSet).insert 1) = some (insertPair 28 5 (insertPair 28 4
      (insertPair 28 3 (insertPair 28 2 ((∅ : IntSet).insert 1))))) := by
    rw [divisorsFrom, divisorsFrom, divisorsFrom, divisorsFrom, divisorsFrom]
    rfl
  rw [p, hloop]
  decide

theorem p_of_large {num : Int} (hnum : 2147395600 ≤ num) : p num = none := by
  unfold p
  rw [divisorsFrom_eq_none hnum 2 _ (by decide) (by decide)]
  rfl

theorem not_perfect_of_le_one {num : Int} (h : num ≤ 1) : ¬ Nat.Perfect num.toNat := by
  rintro ⟨hsum, hpos⟩
  have hone : num.toNat = 1 := by omega
  rw [hone, Nat.properDivisors_one] at hsum
  cases hsum

theorem sum_properDivisors_of_le_one {num : Int} (h : num ≤ 1) :
    ∑ d ∈ num.toNat.properDivisors, d = 0 := by
  rw [Nat.properDivisors_eq_empty.mpr (by omega), Finset.sum_empty]

/-- **The check is exact unless `num` is 1 or an operation overflows.** -/
theorem p_iff (num : Int) :
    (∃ out ret, p num = some (out, ret) ∧ (ret = 1 ↔ Nat.Perfect num.toNat)) ↔
      num ≠ 1 ∧ num < 2147395600 ∧ ∑ d ∈ num.toNat.properDivisors, d < 2147483648 := by
  rcases Int.lt_or_le 1 num with h | h
  · rcases Int.lt_or_le num 2147395600 with hnum | hnum
    · obtain ⟨out, -, hp⟩ := p_of_two_le h hnum
      rw [hp, Nat.perfect_iff_sum_properDivisors (by omega)]
      constructor
      · rintro ⟨out', ret, hret, -⟩
        refine ⟨by omega, hnum, ?_⟩
        by_contra hsum
        simp [hsum] at hret
      · rintro ⟨-, -, hsum⟩
        refine ⟨out, _, if_pos hsum, ?_⟩
        split <;> simp [*]
    · rw [p_of_large hnum]
      constructor
      · rintro ⟨out, ret, hret, -⟩
        cases hret
      · intro hcond
        omega
  · have hperfect := not_perfect_of_le_one h
    rw [p_of_le_one h, sum_properDivisors_of_le_one h]
    constructor
    · rintro ⟨out, ret, hret, hiff⟩
      refine ⟨?_, by omega, by decide⟩
      rintro rfl
      cases hret
      exact hperfect (hiff.mp rfl)
    · rintro ⟨hne, -, -⟩
      exact ⟨[1], 0, by rw [if_neg hne], by simp [hperfect]⟩

/-- 1 has no smaller divisor, and is taken for perfect. -/
theorem one_taken_for_perfect :
    ¬ ∃ out ret, p 1 = some (out, ret) ∧ (ret = 1 ↔ Nat.Perfect (1 : Int).toNat) := by
  rintro ⟨out, ret, hret, hiff⟩
  rw [p_one] at hret
  cases hret
  exact not_perfect_of_le_one (Int.le_refl 1) (hiff.mp rfl)

end TestClient

end WebsocketTest
