import Mathlib.Tactic.Common
import Mathlib.Logic.Function.Basic

/-!
# Pipelined requests

On each of several connections the answers come in the order of the requests, so that all there is
to know about a connection is what it still owes, oldest first. `owed rs` is the state in which the
requests `rs` have been made and not answered, and nothing else: sending adds to it (`send_owed`),
and reading an answer from the connection of the oldest takes that one (`recv_owed`). A connection
that is given up owes nothing (`clear_owed`).

`firstSome` is the first failure of a sequence of attempts, with its place in the sequence.

Which requests are owed is kept for each connection and not in one list, because answers on
different connections have no order. A reader may take them in the order of its requests all the
same, one from the connection that each went to, and that this is right is `recv_owed`.
-/

set_option autoImplicit false

namespace Lib.Pipeline

universe u v

variable {ι : Type u} {α : Type v}

/-- What each connection owes, oldest first. -/
abbrev Owing (ι : Type u) (α : Type v) := ι → List α

/-- Nothing is owed on any connection. -/
def Idle (q : Owing ι α) : Prop := ∀ i, q i = []

variable [DecidableEq ι]

def send (q : Owing ι α) (i : ι) (xs : List α) : Owing ι α := Function.update q i (q i ++ xs)

/-- The request that the next answer on `i` is for, and what is owed after it. -/
def recv (q : Owing ι α) (i : ι) : Option α × Owing ι α :=
  ((q i).head?, Function.update q i (q i).tail)

/-- `i` is given up, or another connection takes its place. -/
def clear (q : Owing ι α) (i : ι) : Owing ι α := Function.update q i []

/-- These requests are owed, each by its connection. -/
def owed (rs : List (ι × α)) : Owing ι α := fun i => (rs.filter (·.1 = i)).map (·.2)

theorem idle_iff {q : Owing ι α} : Idle q ↔ q = owed [] :=
  ⟨fun h => funext h, fun h i => congrFun h i⟩

theorem owed_eq_nil_iff {rs : List (ι × α)} {i : ι} : owed rs i = [] ↔ i ∉ rs.map Prod.fst := by
  rw [owed, List.map_eq_nil_iff, List.filter_eq_nil_iff, List.mem_map]
  constructor
  · rintro h ⟨r, hr, rfl⟩
    exact h r hr (decide_eq_true rfl)
  · intro h r hr hi
    exact h ⟨r, hr, of_decide_eq_true hi⟩

/-- **Nothing is owed** only if all requests were answered. -/
theorem idle_owed {rs : List (ι × α)} : Idle (owed rs) ↔ rs = [] := by
  constructor
  · intro h
    cases rs with
    | nil => rfl
    | cons r rs =>
      have hr := h r.1
      simp [owed] at hr
  · rintro rfl i
    rfl

theorem owed_append (rs ss : List (ι × α)) (j : ι) :
    owed (rs ++ ss) j = owed rs j ++ owed ss j := by
  rw [owed, List.filter_append, List.map_append, owed, owed]

theorem owed_map_self (i : ι) (xs : List α) : owed (xs.map (i, ·)) i = xs := by
  simp [owed, List.filter_map, Function.comp_def]

theorem owed_map_of_ne {i j : ι} (h : j ≠ i) (xs : List α) : owed (xs.map (i, ·)) j = [] := by
  simp [owed, List.filter_map, Function.comp_def, Ne.symm h]

/-- Where each connection has one request at most, it owes that one or nothing. -/
theorem owed_of_nodup {l : List ι} (hl : l.Nodup) (f : ι → α) (i : ι) :
    owed (l.map fun j => (j, f j)) i = if i ∈ l then [f i] else [] := by
  induction l with
  | nil => rfl
  | cons j l ih =>
    rw [List.nodup_cons] at hl
    have hcons : owed ((j :: l).map fun j => (j, f j)) i =
        (if j = i then [f j] else []) ++ owed (l.map fun j => (j, f j)) i := by
      by_cases hj : j = i
      · simp [owed, hj]
      · simp [owed, hj]
    rw [hcons, ih hl.2]
    by_cases hj : j = i
    · subst hj
      simp [hl.1]
    · simp [hj, Ne.symm hj]

theorem send_owed (rs : List (ι × α)) (i : ι) (xs : List α) :
    send (owed rs) i xs = owed (rs ++ xs.map (i, ·)) := by
  funext j
  rw [send, owed_append]
  by_cases hj : j = i
  · subst hj
    rw [Function.update_self, owed_map_self]
  · rw [Function.update_of_ne hj, owed_map_of_ne hj, List.append_nil]

/-- **The next answer** is the one to the oldest request. -/
theorem recv_owed (i : ι) (x : α) (rs : List (ι × α)) :
    recv (owed ((i, x) :: rs)) i = (some x, owed rs) := by
  have hi : owed ((i, x) :: rs) i = x :: owed rs i := by simp [owed]
  refine Prod.ext (by rw [recv, hi, List.head?_cons]) ?_
  funext j
  rw [recv, hi, List.tail_cons]
  by_cases hj : j = i
  · subst hj
    exact Function.update_self _ _ _
  · simp only [Function.update_of_ne hj]
    simp [owed, Ne.symm hj]

theorem clear_owed (rs : List (ι × α)) (i : ι) :
    clear (owed rs) i = owed (rs.filter (·.1 ≠ i)) := by
  funext j
  rw [clear, owed, List.filter_filter]
  by_cases hj : j = i
  · subst hj
    simp
  · rw [Function.update_of_ne hj, owed]
    congr 1
    refine List.filter_congr fun r _ => ?_
    by_cases hr : r.1 = j
    · simp [hr, hj]
    · simp [hr]

/-! ## The first failure -/

variable {ε : Type v}

/-- The first of `f 0`, …, `f (n - 1)` that fails. -/
def firstSome (f : Nat → Option ε) : Nat → Option (Nat × ε)
  | 0 => none
  | n + 1 =>
    match f 0 with
    | some e => some (0, e)
    | none => (firstSome (fun k => f (k + 1)) n).map fun p => (p.1 + 1, p.2)

theorem firstSome_eq_none {f : Nat → Option ε} {n : Nat} (h : firstSome f n = none) :
    ∀ k < n, f k = none := by
  induction n generalizing f with
  | zero => exact fun k hk => absurd hk (Nat.not_lt_zero k)
  | succ n ih =>
    rw [firstSome] at h
    split at h
    · cases h
    · rename_i h₀
      rw [Option.map_eq_none_iff] at h
      intro k hk
      cases k with
      | zero => exact h₀
      | succ k => exact ih h k (Nat.lt_of_succ_lt_succ hk)

theorem firstSome_eq_some {f : Nat → Option ε} {n k : Nat} {e : ε}
    (h : firstSome f n = some (k, e)) : k < n ∧ f k = some e ∧ ∀ j < k, f j = none := by
  induction n generalizing f k with
  | zero => cases h
  | succ n ih =>
    rw [firstSome] at h
    split at h
    · rename_i e₀ h₀
      cases h
      exact ⟨Nat.succ_pos n, h₀, fun j hj => absurd hj (Nat.not_lt_zero j)⟩
    · rename_i h₀
      obtain ⟨⟨k', e'⟩, hk, heq⟩ := Option.map_eq_some_iff.mp h
      cases heq
      obtain ⟨hlt, he, hbefore⟩ := ih hk
      refine ⟨Nat.succ_lt_succ hlt, he, fun j hj => ?_⟩
      cases j with
      | zero => exact h₀
      | succ j => exact hbefore j (Nat.lt_of_succ_lt_succ hj)

end Lib.Pipeline
