import WebsocketTest.Config.Meaning

/-!
# What a failed call leaves

The calls of a `Magic_Config` on its `m_section` and its file, with what the file system answers as
an input: whether the file is opened, how many writes succeed, and how much of what was handed to
the stream is in the file at the end (`Disk`).

**`failed_leaves`** — nothing is undone. A look-up that fails changes nothing. A load that fails
leaves the sections it had completed in `m_section`, over what was there. A write that fails leaves
the item in `m_section`, and in the file as much of the new configuration as was written, unless
the file was not opened.

A caller that sees -1 cannot tell these apart. For a write the file is opened for output, so that
its old contents are gone before the first `write`; and `m_section` was changed before the file was
opened, so that memory and file disagree from then on, and the next write that succeeds writes the
item which this one could not.

A call that throws is not a failed call here, for it returns nothing. What it leaves is told by the
`LoadEnd` that it ends with.
-/

set_option autoImplicit false

namespace WebsocketTest

open Lib.Text Std

namespace MagicConfig

/-- An object, and the file it is about. -/
structure Configured where
  mSection : Sections
  file : Option Str

/-- `ReadItem`: what it returns, `itemvalue` after it, and `m_section`. -/
def lookupItem (m : Sections) (sectionName key defaultvalue itemvalue : Str) :
    Int × Str × Sections :=
  if sectionName ∈ m then
    let (config, m) := subscript m sectionName
    match config[key]? with
    | none => (0, defaultvalue, m)
    | some v => (0, v, m)
  else (-1, itemvalue, m)

/-- The calls that return 0 or -1; `Init` is `LoadFile`. -/
inductive Call
  | loadFile (opens : Bool)
  | writeItem (sectionName key value : Str) (disk : Disk)
  | readItem (sectionName key defaultvalue itemvalue : Str)
  | getSection (name : Str) (sectionOut : ConfigType)

/-- The file as a load finds it: one that cannot be opened is like one that is not there. -/
def Configured.opened (w : Configured) (opens : Bool) : Option Str := if opens then w.file else none

/-- A call: what it returns, unless it throws, and what it leaves. -/
def Call.run (w : Configured) : Call → Option Int × Configured
  | .loadFile opens =>
    match MagicConfig.loadFile w.mSection (w.opened opens) with
    | .ret r m => (some r, ⟨m, w.file⟩)
    | .outOfRange m => (none, ⟨m, w.file⟩)
  | .writeItem sectionName key value disk =>
    let m := setItem w.mSection sectionName key value
    let (r, file) := writeFile m disk w.file
    (some r, ⟨m, file⟩)
  | .readItem sectionName key defaultvalue itemvalue =>
    let (r, _, m) := lookupItem w.mSection sectionName key defaultvalue itemvalue
    (some r, ⟨m, w.file⟩)
  | .getSection name sectionOut =>
    let (r, _, m) := MagicConfig.getSection w.mSection name sectionOut
    (some r, ⟨m, w.file⟩)

/-! ## The file -/

theorem closed_start {ls ls' : List Str} (h : ls <+: ls') : closed ls <+: closed ls' := by
  obtain ⟨ls'', rfl⟩ := h
  rw [closed, closed, List.map_append, List.flatten_append]
  exact List.prefix_append _ _

/-- **What a failed write leaves in the file**: the start of the new text, if it was opened. -/
theorem writeFile_fails {m : Sections} {disk : Disk} {file : Option Str}
    (h : (writeFile m disk file).1 = -1) :
    if disk.opens then ∃ part, (writeFile m disk file).2 = some part ∧ part <+: closed (written m)
    else (writeFile m disk file).2 = file := by
  split
  · rename_i hopens
    rw [writeFile_eq hopens] at h ⊢
    split at h
    · have hret : (0 : Int) = -1 := h
      exact absurd hret (by decide)
    · rename_i hroom
      rw [if_neg hroom]
      exact ⟨_, rfl, (List.take_prefix _ _).trans (closed_start (List.take_prefix _ _))⟩
  · rename_i hopens
    rw [writeFile, if_neg hopens]

/-! ## `m_section` -/

/-- A look-up does not change `m_section`, although it uses `operator[]`. -/
theorem lookupItem_eq (m : Sections) (s k d i : Str) :
    lookupItem m s k d i = ((readItem m s k d i).1, (readItem m s k d i).2, m) := by
  have hlookup : lookupItem m s k d i =
      match getSection m s ∅ with
      | (r, config, m') =>
        if r = 0 then
          match config[k]? with
          | none => (0, d, m')
          | some v => (0, v, m')
        else (-1, i, m') := by
    rw [lookupItem, getSection]
    split
    · rfl
    · rfl
  rw [hlookup, getSection_eq, readItem]
  cases m[s]? with
  | none => rfl
  | some config =>
    simp only [if_true]
    cases config[k]? with
    | none => rfl
    | some v => rfl

/-- **What a failed load leaves**: the sections completed before the line it fails on. -/
theorem loadFile_fails {m m' : Sections} {file : Option Str}
    (h : loadFile m file = .ret (-1) m') :
    (file = none ∧ m' = m) ∨
      ∃ f front line back, file = some f ∧ fileLines f = front ++ line :: back ∧
        (∀ l ∈ front, Readable l) ∧ Malformed line ∧
        m' = (blocks front).dropLast.foldl store m := by
  cases file with
  | none =>
    cases h
    exact .inl ⟨rfl, rfl⟩
  | some f =>
    rw [loadFile] at h
    rcases loadLines_cases ⟨m, [], false, ∅⟩ (fileLines f) with
      ⟨-, hret⟩ | ⟨front, line, back, hsplit, hfront, ⟨-, hout⟩ | ⟨hmalformed, hret⟩⟩
    · rw [h] at hret
      exact absurd (LoadEnd.ret.inj hret).1 (by decide)
    · rw [h] at hout
      cases hout
    · rw [h] at hret
      refine .inr ⟨f, front, line, back, rfl, hsplit, hfront, hmalformed, ?_⟩
      rw [(LoadEnd.ret.inj hret).2, foldl_readLine]
      cases hlast : (blocks front).getLast? with
      | none =>
        rw [List.getLast?_eq_none_iff.mp hlast]
        rfl
      | some b => rfl

/-- Setting an item makes no difference exactly if it was there. -/
theorem setItem_eq_self_iff {m : Sections} {s k v : Str} :
    setItem m s k v = m ↔ item m s k = some v := by
  constructor
  · intro h
    have hitem := item_setItem m s k v s k
    rwa [h, if_pos ⟨rfl, rfl⟩] at hitem
  · intro h
    obtain ⟨kv, hs, hk⟩ := item_eq_some.mp h
    rw [setItem_eq, hs, Option.getD_some, Lib.SortedMap.insert_eq_self hk]
    exact Lib.SortedMap.insert_eq_self hs

/-! ## A failed call -/

/-- What a failed call leaves, for each of the calls. -/
def Left (w w' : Configured) : Call → Prop
  | .loadFile opens =>
    w'.file = w.file ∧
      ((w.opened opens = none ∧ w'.mSection = w.mSection) ∨
        ∃ f front line back, w.opened opens = some f ∧ fileLines f = front ++ line :: back ∧
          (∀ l ∈ front, Readable l) ∧ Malformed line ∧
          w'.mSection = (blocks front).dropLast.foldl store w.mSection)
  | .writeItem sectionName key value disk =>
    w'.mSection = setItem w.mSection sectionName key value ∧
      (w'.mSection = w.mSection ↔ item w.mSection sectionName key = some value) ∧
      if disk.opens then ∃ part, w'.file = some part ∧ part <+: closed (written w'.mSection)
      else w'.file = w.file
  | .readItem .. => w' = w
  | .getSection .. => w' = w

/-- **What a failed call leaves**, in `m_section` and in the file. -/
theorem failed_leaves {w : Configured} {c : Call} (h : (c.run w).1 = some (-1)) :
    Left w (c.run w).2 c := by
  cases c with
  | loadFile opens =>
    rw [Call.run] at h ⊢
    cases hload : loadFile w.mSection (w.opened opens) with
    | ret r m =>
      rw [hload] at h
      obtain rfl : r = -1 := Option.some.inj h
      exact ⟨rfl, loadFile_fails hload⟩
    | outOfRange m =>
      rw [hload] at h
      cases h
  | writeItem s k v disk =>
    exact ⟨rfl, setItem_eq_self_iff, writeFile_fails (Option.some.inj h)⟩
  | readItem s k d i =>
    rw [Call.run, lookupItem_eq]
    rfl
  | getSection name out =>
    rw [Call.run, getSection_eq]
    cases w.mSection[name]? with
    | none => rfl
    | some kv => rfl

/-- A file that cannot be opened for the write: the item is in `m_section` all the same. -/
theorem failed_leaves_unopened :
    Left ⟨∅, none⟩ ((Call.writeItem ['s'] ['k'] ['v'] ⟨false, 0, 0⟩).run ⟨∅, none⟩).2
      (.writeItem ['s'] ['k'] ['v'] ⟨false, 0, 0⟩) :=
  failed_leaves rfl

/-- The configuration is as it was: in memory, and for a write in the file. -/
def AsItWas (w w' : Configured) : Call → Prop
  | .writeItem .. => w'.mSection = w.mSection ∧ loadFile ∅ w'.file = loadFile ∅ w.file
  | _ => w'.mSection = w.mSection

/-- **Three failures that leave something**: a load of two headers and a bracket, a write to a file
    that cannot be opened, and one to a file that is truncated and cannot be written. -/
theorem failed_not_undone :
    (let w : Configured := ⟨∅, some "[a]\nk=v\n[b]\n[\n".toList⟩
      let c := Call.loadFile true
      (c.run w).1 = some (-1) ∧ ¬ AsItWas w (c.run w).2 c) ∧
    (let w : Configured := ⟨∅, none⟩
      let c := Call.writeItem ['s'] ['k'] ['v'] ⟨false, 0, 0⟩
      (c.run w).1 = some (-1) ∧ ¬ AsItWas w (c.run w).2 c) ∧
    (let w : Configured := ⟨oneItem ['s'] ['k'] ['v'], some "[s]\nk=v\n".toList⟩
      let c := Call.writeItem ['s'] ['k'] ['v'] ⟨true, 0, 0⟩
      (c.run w).1 = some (-1) ∧ ¬ AsItWas w (c.run w).2 c) := by
  refine ⟨⟨rfl, fun h => ?_⟩, ⟨rfl, fun h => ?_⟩, rfl, fun h => ?_⟩
  · have hafter : oneItem ['a'] ['k'] ['v'] = (∅ : Sections) := h
    exact absurd (congrArg ExtTreeMap.toList hafter) (by decide)
  · have hafter : oneItem ['s'] ['k'] ['v'] = (∅ : Sections) := h.1
    exact absurd (congrArg ExtTreeMap.toList hafter) (by decide)
  · have hload : LoadEnd.ret 0 ∅ = LoadEnd.ret 0 (oneItem ['s'] ['k'] ['v']) := h.2
    exact absurd (congrArg ExtTreeMap.toList (LoadEnd.ret.inj hload).2) (by decide)

end MagicConfig

end WebsocketTest
