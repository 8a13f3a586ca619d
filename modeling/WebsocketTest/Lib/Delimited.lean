import Mathlib.Tactic.Common

/-!
# Searching for a delimiter of two elements

`cut a b xs` is the first place where `b` follows on `a`: what is in front of it, and what is
behind. More elements at the end do not move it (`cut_append`); and where there was none before,
what is behind it is new (`suffix_of_cut`).

These are what a reader needs that looks for an end of line in what it has so far and comes back
with more. Two elements, because an end of line is two characters, and the second may arrive alone.
With one it would be a `span`.
-/

set_option autoImplicit false

namespace Lib.Delimited

universe u

variable {α : Type u} [DecidableEq α] {a b : α} {xs ys l r : List α}

/-- What is in front of the first `a` that a `b` follows on, and what is behind the two. -/
def cut (a b : α) : List α → Option (List α × List α)
  | [] => none
  | x :: xs =>
    if x = a ∧ xs.head? = some b then some ([], xs.tail)
    else (cut a b xs).map fun p => (x :: p.1, p.2)

theorem cut_cons_self (a b : α) (r : List α) : cut a b (a :: b :: r) = some ([], r) := by
  simp [cut]

/-- Where a delimiter was found, the list is the part in front of it, the delimiter and the part
    behind it. -/
theorem cut_eq (h : cut a b xs = some (l, r)) : xs = l ++ a :: b :: r := by
  induction xs generalizing l with
  | nil => cases h
  | cons x xs ih =>
    rw [cut] at h
    split at h
    · next hx =>
      obtain ⟨rfl, hhead⟩ := hx
      cases xs with
      | nil => cases hhead
      | cons y ys =>
        cases hhead
        cases h
        rfl
    · cases hcut : cut a b xs with
      | none =>
        rw [hcut] at h
        cases h
      | some p =>
        rw [hcut] at h
        cases h
        rw [ih hcut]
        rfl

theorem length_of_cut (h : cut a b xs = some (l, r)) : r.length < xs.length := by
  rw [cut_eq h]
  simp
  omega

/-- **More elements** do not move it. -/
theorem cut_append (h : cut a b xs = some (l, r)) (ys : List α) :
    cut a b (xs ++ ys) = some (l, r ++ ys) := by
  induction xs generalizing l with
  | nil => cases h
  | cons x xs ih =>
    rw [cut] at h
    rw [List.cons_append, cut]
    split at h
    · next hx =>
      cases xs with
      | nil => cases hx.2
      | cons y zs =>
        cases h
        rw [if_pos ⟨hx.1, by simpa using hx.2⟩]
        rfl
    · next hx =>
      cases hcut : cut a b xs with
      | none =>
        rw [hcut] at h
        cases h
      | some p =>
        rw [hcut] at h
        cases h
        rw [if_neg, ih hcut]
        · rfl
        · intro hx'
          apply hx
          cases xs with
          | nil => cases hcut
          | cons y zs => exact ⟨hx'.1, by simpa using hx'.2⟩

theorem isSome_cut (l r : List α) : (cut a b (l ++ a :: b :: r)).isSome = true := by
  induction l with
  | nil => rw [List.nil_append, cut_cons_self, Option.isSome_some]
  | cons x l ih =>
    rw [List.cons_append, cut]
    split
    · rfl
    · rw [Option.isSome_map, ih]

/-- **Behind what has no `a` in it** it is the next. -/
theorem cut_of_not_mem (h : a ∉ l) (r : List α) : cut a b (l ++ a :: b :: r) = some (l, r) := by
  induction l with
  | nil => exact cut_cons_self a b r
  | cons x l ih =>
    have hx : x ≠ a := fun he => h (he ▸ .head _)
    have hl : a ∉ l := fun hmem => h (.tail _ hmem)
    rw [List.cons_append, cut, if_neg fun hc => hx hc.1, ih hl]
    rfl

/-- **What is new** holds what is behind it. -/
theorem suffix_of_cut (hnone : cut a b xs = none) (h : cut a b (xs ++ ys) = some (l, r)) :
    r <:+ ys := by
  rcases List.append_eq_append_iff.mp (cut_eq h) with ⟨zs, -, rfl⟩ | ⟨zs, hxs, hzs⟩
  · exact ⟨zs ++ [a, b], by simp⟩
  · rcases zs with _ | ⟨z, _ | ⟨z', zs⟩⟩
    · exact ⟨[a, b], by simpa using hzs⟩
    · exact ⟨[b], by simpa using (List.cons.inj hzs).2⟩
    · rw [List.cons_append, List.cons_append, List.cons.injEq, List.cons.injEq] at hzs
      have hxs' : xs = l ++ a :: b :: zs := by rw [hxs, hzs.1, hzs.2.1]
      have hsome : (cut a b (l ++ a :: b :: zs)).isSome = true := isSome_cut l zs
      rw [← hxs', hnone] at hsome
      cases hsome

end Lib.Delimited
