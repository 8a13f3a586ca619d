import Mathlib.Tactic.Common

/-!
# Packing without looking ahead

Items are offered to a box in turn. One that fits is put in, one that does not is left out, and
nobody is told. `pack` is what ends up in the box and `answers` says of each item whether it did.

A reader of the box who expects the items in order relies on nothing being left out in the middle.
`NoSkip` is when that is so: everything behind the first item that does not fit is too large as
well. It is decided by the sizes alone, and for items that all take up room it is no stronger than
that the box is as full as some first items of the list would make it
(`noSkip_of_total`).
-/

set_option autoImplicit false

namespace Lib.Packing

universe u

variable {α : Type u} (size : α → Nat)

/-- The items that are put in, where there is `room` left. -/
def pack : Nat → List α → List α
  | _, [] => []
  | room, x :: xs => if size x ≤ room then x :: pack (room - size x) xs else pack room xs

/-- For each item whether it was put in. -/
def answers : Nat → List α → List Bool
  | _, [] => []
  | room, x :: xs =>
    if size x ≤ room then true :: answers (room - size x) xs else false :: answers room xs

/-- The room that items take together. -/
def total : List α → Nat
  | [] => 0
  | x :: xs => size x + total xs

/-- Behind the first item that does not fit, none does. -/
def NoSkip : Nat → List α → Prop
  | _, [] => True
  | room, x :: xs =>
    if size x ≤ room then NoSkip (room - size x) xs else ∀ y ∈ xs, room < size y

variable {size}

section Rules

variable {room : Nat} {x : α} {xs : List α}

@[simp] theorem total_nil : total size ([] : List α) = 0 := rfl

@[simp] theorem total_cons : total size (x :: xs) = size x + total size xs := rfl

theorem pack_of_fits (h : size x ≤ room) :
    pack size room (x :: xs) = x :: pack size (room - size x) xs := if_pos h

theorem pack_of_not_fits (h : ¬ size x ≤ room) :
    pack size room (x :: xs) = pack size room xs := if_neg h

theorem noSkip_of_fits (h : size x ≤ room) :
    NoSkip size room (x :: xs) ↔ NoSkip size (room - size x) xs := by
  rw [NoSkip, if_pos h]

theorem noSkip_of_not_fits (h : ¬ size x ≤ room) :
    NoSkip size room (x :: xs) ↔ ∀ y ∈ xs, room < size y := by
  rw [NoSkip, if_neg h]

end Rules

instance decidableNoSkip : (room : Nat) → (xs : List α) → Decidable (NoSkip size room xs)
  | _, [] => .isTrue trivial
  | room, x :: xs =>
    if h : size x ≤ room then
      @decidable_of_decidable_of_iff _ _ (decidableNoSkip (room - size x) xs)
        (noSkip_of_fits h).symm
    else decidable_of_decidable_of_iff (noSkip_of_not_fits h).symm

/-- The box is never overfull. -/
theorem total_pack_le (room : Nat) (xs : List α) : total size (pack size room xs) ≤ room := by
  induction xs generalizing room with
  | nil => exact Nat.zero_le _
  | cons x xs ih =>
    by_cases hx : size x ≤ room
    · have hrest := ih (room - size x)
      rw [pack_of_fits hx, total_cons]
      omega
    · rw [pack_of_not_fits hx]
      exact ih room

/-- Of items that are all too large nothing is put in. -/
theorem pack_of_large {room : Nat} {xs : List α} (h : ∀ y ∈ xs, room < size y) :
    pack size room xs = [] ∧ ∀ a ∈ answers size room xs, a = false := by
  induction xs with
  | nil => exact ⟨rfl, by simp [answers]⟩
  | cons x xs ih =>
    have hx : ¬ size x ≤ room := Nat.not_le_of_lt (h x List.mem_cons_self)
    obtain ⟨hpack, hans⟩ := ih fun y hy => h y (List.mem_cons_of_mem x hy)
    refine ⟨by rw [pack_of_not_fits hx, hpack], ?_⟩
    intro a ha
    rw [answers, if_neg hx] at ha
    rcases List.mem_cons.mp ha with rfl | ha
    · rfl
    · exact hans a ha

/-- A box that is still empty: none of the items fitted, if each of them takes up room. -/
theorem large_of_total (hpos : ∀ x : α, 0 < size x) {room : Nat} {xs : List α}
    (h : total size (pack size room xs) = 0) : ∀ y ∈ xs, room < size y := by
  induction xs with
  | nil => simp
  | cons x xs ih =>
    by_cases hx : size x ≤ room
    · have := hpos x
      rw [pack_of_fits hx, total_cons] at h
      omega
    · rw [pack_of_not_fits hx] at h
      intro y hy
      rcases List.mem_cons.mp hy with rfl | hy
      · exact Nat.lt_of_not_le hx
      · exact ih h y hy

/-- **Without a skip** the box holds the first items of the list, and the answers are first all yes
    and then all no. -/
theorem pack_of_noSkip {room : Nat} {xs : List α} (h : NoSkip size room xs) :
    (∃ k, pack size room xs = xs.take k) ∧
      (answers size room xs).Pairwise fun a b => a = false → b = false := by
  induction xs generalizing room with
  | nil => exact ⟨⟨0, rfl⟩, List.Pairwise.nil⟩
  | cons x xs ih =>
    by_cases hx : size x ≤ room
    · obtain ⟨⟨k, hk⟩, hans⟩ := ih ((noSkip_of_fits hx).mp h)
      refine ⟨⟨k + 1, by rw [pack_of_fits hx, hk, List.take_succ_cons]⟩, ?_⟩
      rw [answers, if_pos hx]
      exact List.Pairwise.cons (fun _ _ hf => absurd hf (by simp)) hans
    · obtain ⟨hpack, hans⟩ := pack_of_large ((noSkip_of_not_fits hx).mp h)
      refine ⟨⟨0, by rw [pack_of_not_fits hx, hpack, List.take_zero]⟩, ?_⟩
      rw [answers, if_neg hx]
      refine List.Pairwise.cons (fun a ha _ => hans a ha) ?_
      exact List.pairwise_of_forall_mem_list fun _ _ b hb _ => hans b hb

/-- **As full as first items of the list** would make it: then nothing was skipped. The induction is
    on the list; a box that left `x` out has less in it than `x`. -/
theorem noSkip_of_total (hpos : ∀ x : α, 0 < size x) {room k : Nat} {xs : List α}
    (h : total size (pack size room xs) = total size (xs.take k)) : NoSkip size room xs := by
  induction xs generalizing room k with
  | nil => exact trivial
  | cons x xs ih =>
    have hx₀ := hpos x
    by_cases hx : size x ≤ room
    · rw [noSkip_of_fits hx]
      rw [pack_of_fits hx, total_cons] at h
      cases k with
      | zero =>
        rw [List.take_zero, total_nil] at h
        omega
      | succ k =>
        rw [List.take_succ_cons, total_cons] at h
        exact ih (Nat.add_left_cancel h)
    · rw [noSkip_of_not_fits hx]
      rw [pack_of_not_fits hx] at h
      cases k with
      | zero => exact large_of_total hpos h
      | succ k =>
        have hle : total size (pack size room xs) ≤ room := total_pack_le room xs
        rw [List.take_succ_cons, total_cons] at h
        omega

end Lib.Packing
