import WebsocketTest.Lib.Text

/-!
# Positions in a `std::string`

A position is a `size_t`, 64 bits, and `npos` is the highest: what a search returns that finds
nothing. A subtraction wraps. `substr` throws if the position is behind the end, and cuts the count
if that is.

A search is determined by where it stops: `findFirst_split` and `findLast_split` read its result off
a text that is written as what is in front, the character found, and what is behind. With these a
program that computes with positions is brought to one that takes texts apart, search by search, and
its arithmetic to the lengths of the parts.

That a position is not `npos` needs a text of fewer than `2 ^ 63` characters (`Fits`). No
`std::string` holds more, but a `Str` may.
-/

set_option autoImplicit false

namespace Lib.Positions

open Lib.Text

/-! ## The first and the last -/

section Lists

variable {α : Type} {p : α → Bool} {s : List α}

theorem exists_first (h : ∃ c ∈ s, p c = true) :
    ∃ front c back, s = front ++ c :: back ∧ p c = true ∧ ∀ d ∈ front, p d = false := by
  induction s with
  | nil =>
    obtain ⟨c, hc, -⟩ := h
    cases hc
  | cons e s ih =>
    cases he : p e with
    | true => exact ⟨[], e, s, rfl, he, fun d hd => nomatch hd⟩
    | false =>
      obtain ⟨c, hc, hp⟩ := h
      rcases List.mem_cons.mp hc with rfl | hc
      · rw [he] at hp
        cases hp
      · obtain ⟨front, d, back, rfl, hd, hfront⟩ := ih ⟨c, hc, hp⟩
        refine ⟨e :: front, d, back, rfl, hd, ?_⟩
        intro d' hd'
        rcases List.mem_cons.mp hd' with rfl | hd'
        · exact he
        · exact hfront d' hd'

theorem exists_last (h : ∃ c ∈ s, p c = true) :
    ∃ front c back, s = front ++ c :: back ∧ p c = true ∧ ∀ d ∈ back, p d = false := by
  have hrev : ∃ c ∈ s.reverse, p c = true := by
    obtain ⟨c, hc, hp⟩ := h
    exact ⟨c, List.mem_reverse.mpr hc, hp⟩
  obtain ⟨front, c, back, heq, hp, hfront⟩ := exists_first hrev
  refine ⟨back.reverse, c, front.reverse, ?_, hp, fun d hd => hfront d (List.mem_reverse.mp hd)⟩
  rw [← List.reverse_reverse s, heq]
  simp

end Lists

/-! ## Searching -/

def npos : UInt64 := 18446744073709551615

/-- `find_first_of` and `find_first_not_of`. -/
def findFirst (p : Char → Bool) (s : Str) : UInt64 :=
  match s.findIdx? p with
  | none => npos
  | some i => UInt64.ofNat i

/-- `find_last_of` and `find_last_not_of`. -/
def findLast (p : Char → Bool) (s : Str) : UInt64 :=
  match s.reverse.findIdx? p with
  | none => npos
  | some i => UInt64.ofNat (s.length - 1 - i)

/-- `substr`, or its `out_of_range`. -/
def substr (s : Str) (pos n : UInt64) : Option Str :=
  if pos.toNat ≤ s.length then some ((s.drop pos.toNat).take n.toNat) else none

/-- A text that a `std::string` can hold. -/
def Fits (s : Str) : Prop := s.length < 9223372036854775808

section Search

variable {p : Char → Bool} {s : Str}

theorem findFirst_none (h : ∀ c ∈ s, p c = false) : findFirst p s = npos := by
  rw [findFirst, List.findIdx?_eq_none_iff.mpr h]

theorem findLast_none (h : ∀ c ∈ s, p c = false) : findLast p s = npos := by
  rw [findLast, List.findIdx?_eq_none_iff.mpr fun c hc => h c (List.mem_reverse.mp hc)]

theorem findIdx?_split {front back : Str} {c : Char} (hc : p c = true)
    (hfront : ∀ d ∈ front, p d = false) :
    (front ++ c :: back).findIdx? p = some front.length := by
  rw [List.findIdx?_append, List.findIdx?_eq_none_iff.mpr hfront, List.findIdx?_cons, if_pos hc]
  simp

/-- **Where the first one is**: behind what has none in it. -/
theorem findFirst_split {front back : Str} {c : Char} (hc : p c = true)
    (hfront : ∀ d ∈ front, p d = false) :
    findFirst p (front ++ c :: back) = UInt64.ofNat front.length := by
  rw [findFirst, findIdx?_split hc hfront]

/-- **Where the last one is**: in front of what has none in it. -/
theorem findLast_split {front back : Str} {c : Char} (hc : p c = true)
    (hback : ∀ d ∈ back, p d = false) :
    findLast p (front ++ c :: back) = UInt64.ofNat front.length := by
  have hrev : (front ++ c :: back).reverse = back.reverse ++ c :: front.reverse := by simp
  have hback' : ∀ d ∈ back.reverse, p d = false := fun d hd => hback d (List.mem_reverse.mp hd)
  have hpos : (front ++ c :: back).length - 1 - back.reverse.length = front.length := by
    rw [List.length_append, List.length_cons, List.length_reverse]
    omega
  rw [findLast, hrev, findIdx?_split hc hback']
  simp only [hpos]

/-- A position of a text does not wrap when it becomes a `size_t`. -/
theorem toNat_ofNat {i : Nat} (h : i < 9223372036854775808) : (UInt64.ofNat i).toNat = i :=
  UInt64.toNat_ofNat_of_lt' (by rw [UInt64.size]; omega)

/-- A position of a text is not `npos`. -/
theorem ofNat_ne_npos {i : Nat} (h : i < 9223372036854775808) : UInt64.ofNat i ≠ npos := by
  intro he
  have hnat := congrArg UInt64.toNat he
  rw [toNat_ofNat h] at hnat
  rw [hnat] at h
  exact absurd h (by decide)

end Search

section Char

variable {s : Str} {c : Char}

/-- A text is cut at the last `c` in it. -/
theorem split_last (h : c ∈ s) : ∃ front back, s = front ++ c :: back ∧ c ∉ back := by
  obtain ⟨front, d, back, rfl, hd, hback⟩ := exists_last (p := (· = c)) ⟨c, h, by simp⟩
  obtain rfl := of_decide_eq_true hd
  exact ⟨front, back, rfl, fun hm => by simpa using hback _ hm⟩

theorem findFirst_char_split {front : Str} (back : Str) (h : c ∉ front) :
    findFirst (· = c) (front ++ c :: back) = UInt64.ofNat front.length :=
  findFirst_split (decide_eq_true rfl) fun _ hd => decide_eq_false fun he => h (he ▸ hd)

theorem findLast_char_split (front : Str) {back : Str} (h : c ∉ back) :
    findLast (· = c) (front ++ c :: back) = UInt64.ofNat front.length :=
  findLast_split (decide_eq_true rfl) fun _ hd => decide_eq_false fun he => h (he ▸ hd)

/-- A search for the first `c` finds one if there is one. -/
theorem findFirst_char_iff (hs : Fits s) : findFirst (· = c) s ≠ npos ↔ c ∈ s := by
  constructor
  · intro h
    by_contra hno
    exact h (findFirst_none fun d hd => decide_eq_false fun he => hno (he ▸ hd))
  · intro h
    obtain ⟨front, d, back, rfl, hd, hfront⟩ := exists_first (p := (· = c)) ⟨c, h, by simp⟩
    rw [Fits, List.length_append, List.length_cons] at hs
    rw [findFirst_split hd hfront]
    exact ofNat_ne_npos (by omega)

/-- A search for the last `c` finds one if there is one. -/
theorem findLast_char_iff (hs : Fits s) : findLast (· = c) s ≠ npos ↔ c ∈ s := by
  constructor
  · intro h
    by_contra hno
    exact h (findLast_none fun d hd => decide_eq_false fun he => hno (he ▸ hd))
  · intro h
    obtain ⟨front, d, back, rfl, hd, hback⟩ := exists_last (p := (· = c)) ⟨c, h, by simp⟩
    rw [Fits, List.length_append, List.length_cons] at hs
    rw [findLast_split hd hback]
    exact ofNat_ne_npos (by omega)

/-- The first `c` is in front exactly if the text starts with it. -/
theorem findFirst_char_zero_iff (hs : Fits s) : findFirst (· = c) s ≠ 0 ↔ s.head? ≠ some c := by
  rw [not_iff_not]
  constructor
  · intro h
    have hmem : c ∈ s := (findFirst_char_iff hs).mp (by rw [h]; decide)
    obtain ⟨front, d, back, rfl, hd, hfront⟩ := exists_first (p := (· = c)) ⟨c, hmem, by simp⟩
    rw [Fits, List.length_append, List.length_cons] at hs
    rw [findFirst_split hd hfront] at h
    have hnat := congrArg UInt64.toNat h
    rw [toNat_ofNat (by omega)] at hnat
    obtain rfl := List.length_eq_zero_iff.mp hnat
    exact congrArg some (of_decide_eq_true hd)
  · intro h
    cases s with
    | nil => cases h
    | cons d s =>
      cases h
      rw [← List.nil_append (c :: s)]
      exact findFirst_split (by simp) fun _ hd => nomatch hd

end Char

/-! ## Cutting -/

/-- The text from a position, and so many characters of it. -/
theorem substr_split {front mid : Str} (back : Str) {pos n : UInt64}
    (hpos : pos.toNat = front.length) (hn : n.toNat = mid.length) :
    substr (front ++ (mid ++ back)) pos n = some mid := by
  rw [substr, if_pos (by rw [hpos, List.length_append]; omega), hpos, hn, List.drop_left,
    List.take_left]

/-- The text from a position to its end, if the count is beyond that. -/
theorem substr_rest {front rest : Str} {pos n : UInt64} (hpos : pos.toNat = front.length)
    (hn : rest.length ≤ n.toNat) : substr (front ++ rest) pos n = some rest := by
  rw [substr, if_pos (by rw [hpos, List.length_append]; omega), hpos, List.drop_left,
    List.take_of_length_le hn]

theorem substr_npos {s : Str} (hs : Fits s) (n : UInt64) : substr s npos n = none := by
  rw [Fits] at hs
  rw [substr, if_neg]
  have hn : npos.toNat = 18446744073709551615 := by decide
  omega

end Lib.Positions
