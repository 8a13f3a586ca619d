import WebsocketTest.Config.RoundTrip

/-!
# `WriteItem`

It sets an item in `m_section` and writes the whole file. The three arguments are printed as they
are, and what they hold is read as structure by the next load: a line feed starts another line, a
`[` a section, an `=` ends the key, a `;` or `#` in front makes a comment, spaces and a carriage
return go.

**`writeItem_iff`** — when the call returns 0 and `close` gets the text into the file, the file
holds the item, and every other item as it was, exactly if the arguments are what a line can be
read as (`NameOk`, `ItemOk`) and the value does not end in a carriage return. That is enough by the
round trip, and it is necessary, because the load that gives the item back could not have read
anything else (`loadFile_loadable`). That `close` succeeds is a hypothesis, since `WriteFile` does
not look: on a full disk the call returns 0 all the same, and the file is any prefix of the text.
-/

set_option autoImplicit false

namespace WebsocketTest

open Lib.Text Lib.SortedMap Std

namespace MagicConfig

/-- What `WriteItem` does to `m_section`. The loop over the items always ends at `end()`, so that
    the assignment behind it is made in any case. -/
def setItem (m : Sections) (sectionName key value : Str) : Sections :=
  match m[sectionName]? with
  | none => m.insert sectionName ((∅ : ConfigType).insert key value)
  | some config =>
    m.insert sectionName ((config.map fun k v => if k = key then value else v).insert key value)

/-- `WriteItem`: what it returns, and the file after it. -/
def writeItem (m : Sections) (sectionName key value : Str) (disk : Disk) (file : Option Str) :
    Int × Option Str :=
  writeFile (setItem m sectionName key value) disk file

/-- `ReadItem`: what it returns, and `itemvalue` after it. -/
def readItem (m : Sections) (sectionName key defaultvalue itemvalue : Str) : Int × Str :=
  match m[sectionName]? with
  | none => (-1, itemvalue)
  | some config =>
    match config[key]? with
    | none => (0, defaultvalue)
    | some v => (0, v)

/-- `m_section[name]`, and the map behind it: a section that is not there is created. -/
def subscript (m : Sections) (name : Str) : ConfigType × Sections :=
  (m[name]?.getD ∅, m.insertIfNew name ∅)

/-- `getSection`: what it returns, `section` after it, and `m_section`. -/
def getSection (m : Sections) (name : Str) (sectionOut : ConfigType) :
    Int × ConfigType × Sections :=
  if name ∈ m then
    let (config, m) := subscript m name
    (0, config, m)
  else (-1, sectionOut, m)

/-- The value of an item, if it is there. -/
def item (m : Sections) (s k : Str) : Option Str := m[s]?.bind (·[k]?)

variable {m : Sections}

theorem item_eq_some {s k v : Str} :
    item m s k = some v ↔ ∃ kv, m[s]? = some kv ∧ kv[k]? = some v :=
  Option.bind_eq_some_iff

/-- `getSection` creates nothing, for the name is looked up before `operator[]` is used on it. -/
theorem getSection_eq (m : Sections) (name : Str) (sectionOut : ConfigType) :
    getSection m name sectionOut =
      match m[name]? with
      | some kv => (0, kv, m)
      | none => (-1, sectionOut, m) := by
  rw [getSection]
  cases hm : m[name]? with
  | none =>
    rw [if_neg]
    rw [ExtTreeMap.mem_iff_isSome_getElem?, hm]
    simp
  | some kv =>
    have hmem : name ∈ m := ExtTreeMap.mem_iff_isSome_getElem?.mpr (by rw [hm]; rfl)
    have hsame : m.insertIfNew name ∅ = m := by
      refine ExtTreeMap.ext_getElem? fun s => ?_
      rw [ExtTreeMap.getElem?_insertIfNew, if_neg]
      rintro ⟨-, hnot⟩
      exact hnot hmem
    rw [if_pos hmem, subscript, hm, hsame]
    rfl

/-- An item is read back, whatever the default is, exactly if it is there. -/
theorem readItem_eq_iff {s k v : Str} :
    (∀ d i, readItem m s k d i = (0, v)) ↔ item m s k = some v := by
  rw [item]
  cases hs : m[s]? with
  | none =>
    simp [readItem, hs]
  | some kv =>
    simp only [readItem, hs, Option.bind_some]
    cases hk : kv[k]? with
    | none =>
      -- one of two defaults is not `v`
      constructor
      · intro h
        have hd := congrArg Prod.snd (h ('x' :: v) [])
        exact absurd (congrArg List.length hd) (by simp)
      · intro h
        cases h
    | some w => simp

/-- The loop over the items makes no difference: what it sets is set again behind it. -/
theorem setItem_eq (m : Sections) (s k v : Str) :
    setItem m s k v = m.insert s ((m[s]?.getD ∅).insert k v) := by
  rw [setItem]
  cases hs : m[s]? with
  | none => rfl
  | some kv =>
    simp only [Option.getD_some]
    congr 1
    refine ExtTreeMap.ext_getElem? fun k' => ?_
    rw [getElem?_insert_eq, getElem?_insert_eq, ExtTreeMap.getElem?_map]
    by_cases hk : k = k'
    · rw [if_pos hk, if_pos hk]
    · rw [if_neg hk, if_neg hk]
      simp [Ne.symm hk]

/-- **`setItem` sets one item**, and leaves every other as it was, in its own section too. -/
theorem item_setItem (m : Sections) (s k v s' k' : Str) :
    item (setItem m s k v) s' k' = if s' = s ∧ k' = k then some v else item m s' k' := by
  rw [setItem_eq, item, getElem?_insert_eq]
  by_cases hs : s = s'
  · subst hs
    rw [if_pos rfl, Option.bind_some, getElem?_insert_eq]
    by_cases hk : k = k'
    · rw [if_pos hk, if_pos ⟨rfl, hk.symm⟩]
    · rw [if_neg hk, if_neg (fun h => hk h.2.symm), item]
      cases m[s]? with
      | none => simp
      | some kv => rfl
  · rw [if_neg hs, if_neg (fun h => hs h.1.symm), item]

theorem setItem_loadable (h : Loadable m) {s k v : Str} (hs : NameOk s) (hkv : ItemOk k v) :
    Loadable (setItem m s k v) := by
  rw [setItem_eq]
  refine h.insert hs (ItemsOk.insert ?_ hkv)
  cases hm : m[s]? with
  | none => exact itemsOk_empty
  | some kv => exact (h s kv hm).2

theorem setItem_noReturn (h : NoReturn m) {s k v : Str} (hv : v.getLast? ≠ some '\r') :
    NoReturn (setItem m s k v) := by
  rw [setItem_eq]
  refine h.insert (forall_insert (fun k' v' hk' => ?_) hv)
  cases hm : m[s]? with
  | none => rw [hm] at hk'; simp at hk'
  | some kv =>
    rw [hm] at hk'
    exact h s kv k' v' hm hk'

/-- There is a section with a name beside the one that was set, or this one has one. -/
theorem setItem_named {s : Str} (hnamed : s ≠ [] ∨ ∃ t ∈ m, t ≠ []) (k v : Str) :
    ¬ OnlyUnnamed (setItem m s k v) := by
  rintro ⟨-, hall⟩
  rw [setItem_eq] at hall
  rcases hnamed with hs | ⟨t, ht, hne⟩
  · exact hs (hall s ExtTreeMap.mem_insert_self)
  · exact hne (hall t (ExtTreeMap.mem_insert.mpr (.inr ht)))

/-! ## What survives a reload

The condition on the arguments is necessary because of this: a map that comes back from a file is
one that a file can be loaded as. -/

/-- A configuration that is the same when it is written and loaded again. -/
def Survives (m : Sections) : Prop := loadFile ∅ (some (closed (written m))) = .ret 0 m

theorem Survives.named (h : Loadable m) (hm : Survives m) : ¬ OnlyUnnamed m := by
  intro hunnamed
  have hempty := (reload_unnamed h hunnamed).symm.trans hm
  obtain ⟨kv, hkv⟩ := hunnamed.1
  rw [← (LoadEnd.ret.inj hempty).2] at hkv
  simp at hkv

theorem Survives.noReturn (h : Loadable m) (hm : Survives m) : NoReturn m := by
  have heq := (reload_loadable h (hm.named h)).symm.trans hm
  exact (rereadAll_eq_iff h).mp (LoadEnd.ret.inj heq).2

/-- If there is a section, one of them has a name. -/
theorem Survives.exists_named (h : Loadable m) (hm : Survives m) (hne : m ≠ ∅) :
    ∃ t ∈ m, t ≠ [] := by
  by_contra hno
  have hall : ∀ t ∈ m, t = [] := fun t ht => by
    by_contra ht'
    exact hno ⟨t, ht, ht'⟩
  cases hnil : m[([] : Str)]? with
  | some kv => exact hm.named h ⟨⟨kv, hnil⟩, hall⟩
  | none =>
    refine hne (ExtTreeMap.ext_getElem? fun t => ?_)
    cases ht : m[t]? with
    | none => simp
    | some kv =>
      have hmem := hall t (ExtTreeMap.mem_iff_isSome_getElem?.mpr (by rw [ht]; rfl))
      rw [hmem, hnil] at ht
      cases ht

/-! ## `WriteItem` changes only its own item -/

/-- The file gives the item back, and every other item as it was. -/
def ChangesOnly (m : Sections) (s k v : Str) (file : Option Str) : Prop :=
  ∃ m', loadFile ∅ file = .ret 0 m' ∧ (∀ d i, readItem m' s k d i = (0, v)) ∧
    ∀ s' k', (s', k') ≠ (s, k) → item m' s' k' = item m s' k'

/-- **When `WriteItem` changes only its own item**: exactly if a line can be read as what it is
    given, and the value does not end in a carriage return. The return of 0 does not say that the
    text is in the file (`writeFile_eq_zero_iff`), which `hflushes` does. -/
theorem writeItem_iff {file : Option Str} (hload : loadFile ∅ file = .ret 0 m)
    (hsurvives : Survives m) {s k v : Str} (hnamed : s ≠ [] ∨ m ≠ ∅) {disk : Disk}
    {file' : Option Str} (hwrite : (writeItem m s k v disk file').1 = 0)
    (hflushes : disk.Flushes (setItem m s k v)) :
    ChangesOnly m s k v (writeItem m s k v disk file').2 ↔
      NameOk s ∧ ItemOk k v ∧ v.getLast? ≠ some '\r' := by
  have hm := loadFile_loadable hload
  have hnamed' : ¬ OnlyUnnamed (setItem m s k v) :=
    setItem_named (hnamed.imp_right (hsurvives.exists_named hm)) k v
  obtain ⟨hopens, hroom⟩ := writeFile_eq_zero_iff.mp hwrite
  rw [writeItem, writeFile_stores ⟨hopens, hroom, hflushes⟩]
  constructor
  · rintro ⟨m', hload', hread, -⟩
    obtain ⟨kv, hs, hk⟩ := item_eq_some.mp (readItem_eq_iff.mp hread)
    -- what was read back is what a line can be read as
    obtain ⟨hname, hitems⟩ := loadFile_loadable hload' s kv hs
    have hitem := hitems k v hk
    refine ⟨hname, hitem, ?_⟩
    have hreload := reload_loadable (setItem_loadable hm hname hitem) hnamed'
    obtain rfl := (LoadEnd.ret.inj (hreload.symm.trans hload')).2
    have hset := (item_setItem m s k v s k).trans (if_pos ⟨rfl, rfl⟩)
    obtain ⟨kv', hs', hk'⟩ := item_eq_some.mp hset
    rw [rereadAll_get, hs', Option.map_some, Option.some.injEq] at hs
    rw [← hs, ExtTreeMap.getElem?_map, hk', Option.map_some, Option.some.injEq] at hk
    exact (reread_eq_iff hitem.value_trimmed.2).mp hk
  · rintro ⟨hname, hitem, hreturn⟩
    have hset := setItem_loadable hm hname hitem
    have heq := (rereadAll_eq_iff hset).mpr (setItem_noReturn (hsurvives.noReturn hm) hreturn)
    refine ⟨setItem m s k v, ?_, ?_, ?_⟩
    · rw [reload_loadable hset hnamed', heq]
    · exact readItem_eq_iff.mpr ((item_setItem m s k v s k).trans (if_pos ⟨rfl, rfl⟩))
    · intro s' k' hne
      rw [item_setItem, if_neg fun he => hne (by rw [he.1, he.2])]

/-- A value is set in an empty configuration. -/
theorem writeItem_iff_first_item :
    ChangesOnly ∅ ['s'] ['k'] ['v'] (writeItem ∅ ['s'] ['k'] ['v'] ⟨true, 2, 8⟩ none).2 ↔
      NameOk ['s'] ∧ ItemOk ['k'] ['v'] ∧ (['v'] : Str).getLast? ≠ some '\r' :=
  have hload : loadFile ∅ (some []) = .ret 0 ∅ := rfl
  writeItem_iff hload rfl (.inl (by decide)) rfl (by decide)

/-- A line feed in the value: the rest of it is read as another item. -/
theorem writeItem_line_feed :
    loadFile ∅ (some []) = .ret 0 ∅ ∧ Survives ∅ ∧
      writeItem ∅ ['s'] ['k'] ['v', '\n', 'a', '=', 'b'] ⟨true, 2, 12⟩ none =
        (0, some "[s]\nk=v\na=b\n".toList) ∧
      ¬ ChangesOnly ∅ ['s'] ['k'] ['v', '\n', 'a', '=', 'b'] (some "[s]\nk=v\na=b\n".toList) := by
  refine ⟨rfl, rfl, rfl, ?_⟩
  rintro ⟨m', hload, hread, -⟩
  have hload' : loadFile ∅ (some "[s]\nk=v\na=b\n".toList) =
      .ret 0 (setItem (oneItem ['s'] ['k'] ['v']) ['s'] ['a'] ['b']) := rfl
  obtain rfl := (LoadEnd.ret.inj (hload.symm.trans hload')).2
  exact absurd (hread [] []) (by decide)

end MagicConfig

end WebsocketTest
