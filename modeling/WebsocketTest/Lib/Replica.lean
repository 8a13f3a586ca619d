import Mathlib.Data.Set.Basic

/-!
# A replica kept by deltas

Someone who is told only what came and what went, and keeps a set from it. `Delta` is one such
message, `replay` is what a replica holds after several. A source that remembers a list and reports
the difference to the next one (`diff`) keeps every replica equal to the list it remembers
(`replay_diff`), whatever occurs twice in either list; and it never reports what the replica has
already, or has not (`Exact`).

The replica is a set and the source keeps a list, so that equal means the same elements. The order
of the two differences does not matter to what the replica holds in the end, for no element is in
both.
-/

set_option autoImplicit false

namespace Lib.Replica

universe u

variable {α : Type u}

inductive Delta (α : Type u)
  | add (xs : List α)
  | del (xs : List α)
deriving DecidableEq

def Delta.apply : Delta α → Set α → Set α
  | .add xs, s => s ∪ {x | x ∈ xs}
  | .del xs, s => s \ {x | x ∈ xs}

/-- What a replica holds after these deltas, in order. -/
def replay (ds : List (Delta α)) (s : Set α) : Set α := ds.foldl (fun s d => d.apply s) s

@[simp] theorem replay_nil (s : Set α) : replay [] s = s := rfl

@[simp] theorem replay_cons (d : Delta α) (ds : List (Delta α)) (s : Set α) :
    replay (d :: ds) s = replay ds (d.apply s) := rfl

@[simp] theorem replay_append (ds es : List (Delta α)) (s : Set α) :
    replay (ds ++ es) s = replay es (replay ds s) := List.foldl_append

/-- A delta of nothing need not be sent. -/
theorem apply_add_nil (s : Set α) : (Delta.add []).apply s = s := by
  ext x
  simp [Delta.apply]

theorem apply_del_nil (s : Set α) : (Delta.del []).apply s = s := by
  ext x
  simp [Delta.apply]

/-- What is added was not in `s`, and what is removed was. -/
def Delta.Exact (s : Set α) : Delta α → Prop
  | .add xs => ∀ x ∈ xs, x ∉ s
  | .del xs => ∀ x ∈ xs, x ∈ s

/-! ## Differences of lists -/

variable [DecidableEq α]

/-- What is in `xs` and not in `ys`. -/
def diff (xs ys : List α) : List α := xs.filter (· ∉ ys)

theorem mem_diff {x : α} {xs ys : List α} : x ∈ diff xs ys ↔ x ∈ xs ∧ x ∉ ys := by
  simp [diff]

theorem diff_nil_left (ys : List α) : diff [] ys = [] := rfl

theorem diff_nil_right (xs : List α) : diff xs [] = xs := by simp [diff]

/-- **The two differences lead from the old list to the new one.** -/
theorem replay_diff (old new : List α) :
    replay [.add (diff new old), .del (diff old new)] {x | x ∈ old} = {x | x ∈ new} := by
  ext x
  simp only [replay_cons, replay_nil, Delta.apply, Set.mem_sdiff, Set.mem_union, Set.mem_ofPred_eq,
    mem_diff]
  constructor
  · rintro ⟨hold | ⟨hnew, -⟩, hkept⟩
    · exact Classical.not_not.mp fun hgone => hkept ⟨hold, hgone⟩
    · exact hnew
  · intro hnew
    refine ⟨?_, fun hgone => hgone.2 hnew⟩
    by_cases hold : x ∈ old
    · exact .inl hold
    · exact .inr ⟨hnew, hold⟩

/-- What is said of a change from `old` to `new`: the two differences, those of them that are not
    empty. -/
def changes (old new : List α) : List (Delta α) :=
  (if diff new old = [] then [] else [.add (diff new old)]) ++
    (if diff old new = [] then [] else [.del (diff old new)])

/-- **Leaving an empty difference out changes nothing.** -/
theorem replay_changes (old new : List α) :
    replay (changes old new) {x | x ∈ old} = {x | x ∈ new} := by
  have hadd : ∀ s, replay (if diff new old = [] then [] else [.add (diff new old)]) s =
      (Delta.add (diff new old)).apply s := by
    intro s
    by_cases h : diff new old = []
    · rw [if_pos h, h, apply_add_nil, replay_nil]
    · rw [if_neg h, replay_cons, replay_nil]
  have hdel : ∀ s, replay (if diff old new = [] then [] else [.del (diff old new)]) s =
      (Delta.del (diff old new)).apply s := by
    intro s
    by_cases h : diff old new = []
    · rw [if_pos h, h, apply_del_nil, replay_nil]
    · rw [if_neg h, replay_cons, replay_nil]
  rw [← replay_diff old new, changes, replay_append, hadd, hdel, replay_cons, replay_cons,
    replay_nil]

/-- **Nothing is reported that the replica has already, or has not.** -/
theorem exact_changes {old new : List α} {d : Delta α} (hd : d ∈ changes old new) :
    d.Exact {x | x ∈ old} := by
  rw [changes, List.mem_append] at hd
  rcases hd with hadd | hdel
  · split at hadd
    · cases hadd
    · obtain rfl := List.mem_singleton.mp hadd
      exact fun _ hx => (mem_diff.mp hx).2
  · split at hdel
    · cases hdel
    · obtain rfl := List.mem_singleton.mp hdel
      exact fun _ hx => (mem_diff.mp hx).1

/-- What is reported as gone is not in the new list. -/
theorem gone_of_changes {old new xs : List α} (hd : Delta.del xs ∈ changes old new) {x : α}
    (hx : x ∈ xs) : x ∉ new := by
  rw [changes, List.mem_append] at hd
  rcases hd with hadd | hdel
  · split at hadd
    · cases hadd
    · cases List.mem_singleton.mp hadd
  · split at hdel
    · cases hdel
    · cases List.mem_singleton.mp hdel
      exact (mem_diff.mp hx).2

end Lib.Replica
