import Mathlib.Tactic.Common

/-!
# A sorted map, built again from its list

`Std.ExtTreeMap` is a map that is listed in the order of its keys, and equal to another if the
lookups are. Inserting what it lists, one by one and with a function applied to the values, gives
the map with that function applied (`foldl_insert_map`): what a writer that prints a map and a
reader that inserts what it reads rely on.

`collectFrom` fills a map from a list, and what a key has in the end comes from the elements of that
key alone (`getElem?_collectFrom`).

Where keys that compare as equal are equal, an insertion is a change at one key
(`getElem?_insert_eq`), and what holds of all entries is kept by it (`forall_insert`).
-/

set_option autoImplicit false

namespace Lib.SortedMap

open Std

universe u v

variable {α : Type u} {β : Type v} {cmp : α → α → Ordering} [TransCmp cmp] [LawfulEqCmp cmp]

/-! ## One insertion -/

section Insert

variable {t : ExtTreeMap α β cmp} {k : α} {v : β}

/-- **An insertion** is seen at its key only. -/
theorem getElem?_insert_eq [DecidableEq α] (t : ExtTreeMap α β cmp) (k a : α) (v : β) :
    (t.insert k v)[a]? = if k = a then some v else t[a]? := by
  rw [ExtTreeMap.getElem?_insert]
  by_cases hk : k = a
  · rw [if_pos hk, if_pos (LawfulEqCmp.compare_eq_iff_eq.mpr hk)]
  · rw [if_neg hk, if_neg fun he => hk (LawfulEqCmp.compare_eq_iff_eq.mp he)]

/-- To insert what is there makes no difference. -/
theorem insert_eq_self (h : t[k]? = some v) : t.insert k v = t := by
  refine ExtTreeMap.ext_getElem? fun a => ?_
  rw [ExtTreeMap.getElem?_insert]
  split
  · rename_i he
    rw [← LawfulEqCmp.eq_of_compare he, h]
  · rfl

/-- **What holds of all entries** is kept. -/
theorem forall_insert {P : α → β → Prop} (h : ∀ a b, t[a]? = some b → P a b) (hk : P k v) (a : α)
    (b : β) (hget : (t.insert k v)[a]? = some b) : P a b := by
  rw [ExtTreeMap.getElem?_insert] at hget
  split at hget
  · rename_i he
    obtain rfl := LawfulEqCmp.eq_of_compare he
    cases hget
    exact hk
  · exact h a b hget

end Insert

/-! ## A map filled from a list -/

section Collect

universe w

variable {γ : Type w} [DecidableEq α] (key : γ → α) (add : Option β → γ → β)

/-- The values of `xs`, collected by their keys: what is there so far at the key of a value, and the
    value, make what is there next. -/
def collectFrom (t : ExtTreeMap α β cmp) (xs : List γ) : ExtTreeMap α β cmp :=
  xs.foldl (fun t x => t.insert (key x) (add t[key x]? x)) t

/-- **At a key** only the values of that key count, in their order. -/
theorem getElem?_collectFrom (t : ExtTreeMap α β cmp) (xs : List γ) (k : α) :
    (collectFrom key add t xs)[k]? =
      (xs.filter (key · = k)).foldl (fun b x => some (add b x)) t[k]? := by
  induction xs generalizing t with
  | nil => rfl
  | cons x xs ih =>
    rw [collectFrom, List.foldl_cons, ← collectFrom, ih, getElem?_insert_eq]
    by_cases hk : key x = k
    · rw [if_pos hk, List.filter_cons_of_pos (by simpa using hk), List.foldl_cons, hk]
    · rw [if_neg hk, List.filter_cons_of_neg (by simpa using hk)]

end Collect

/-! ## The whole map -/

variable [BEq α] [LawfulBEqCmp cmp]

/-- **A map is what it lists.** -/
theorem foldl_insert_toList (t : ExtTreeMap α β cmp) :
    t.toList.foldl (fun m p => m.insert p.1 p.2) ∅ = t := by
  rw [← ExtTreeMap.insertMany_list_eq_foldl, ← ExtTreeMap.ofList_eq_insertMany_empty]
  refine ExtTreeMap.ext_getElem? fun k => ?_
  cases hk : t[k]? with
  | some v =>
    exact ExtTreeMap.getElem?_ofList_of_mem ReflCmp.compare_self ExtTreeMap.distinct_keys_toList
      (ExtTreeMap.mem_toList_iff_getElem?_eq_some.mpr hk)
  | none =>
    refine ExtTreeMap.getElem?_ofList_of_contains_eq_false ?_
    rw [ExtTreeMap.map_fst_toList_eq_keys, ExtTreeMap.contains_keys]
    rw [ExtTreeMap.contains_eq_isSome_getElem?, hk]
    rfl

/-- **A map with a function applied to its values** is what it lists with the function applied. -/
theorem foldl_insert_map (f : β → β) (t : ExtTreeMap α β cmp) :
    t.toList.foldl (fun m p => m.insert p.1 (f p.2)) ∅ = t.map fun _ => f := by
  have h := foldl_insert_toList (t.map fun _ => f)
  rw [ExtTreeMap.toList_map, List.foldl_map] at h
  exact h

end Lib.SortedMap
