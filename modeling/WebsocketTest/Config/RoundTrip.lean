import WebsocketTest.Config.Lines
import WebsocketTest.Lib.SortedMap

/-!
# Writing a configuration, and loading it again

`reload_loadable` is the one computation: what `LoadFile` makes of a file that `WriteFile` printed.
The sections come back under their names and the items under their keys, the values as `reread`
leaves them; the loader's accumulators become the map again because it lists each section and each
key once (`Lib.SortedMap.foldl_insert_map`).

One section does not come back. A section is stored by the header after it, whatever its name is,
but at the end of the file only if its name is not empty, so that a section without a name is lost
if it is the only one (`reload_unnamed`).

**`load_written`** — a well-formed configuration is loaded as it was written. **`survives_iff`** — a
configuration that was loaded itself comes back but for what `reread` takes from a value: the same,
exactly if no value ends in a carriage return.

What is said of a file is said of the text that `WriteFile` prints. That this text is in the file
needs a write that succeeds in every part (`Disk.Stores`), and the return value does not tell
whether it did: it is 0 as soon as the file was opened and no `write` failed
(`writeFile_eq_zero_iff`).
-/

set_option autoImplicit false

namespace WebsocketTest

open Lib.Text Std

namespace MagicConfig

/-! ## The file -/

/-- The text of these lines, each with its line feed. -/
def closed (ls : List Str) : Str := (ls.map (· ++ ['\n'])).flatten

/-- Everything that is handed to the stream comes into the file, by `close` at the latest. -/
def Disk.Flushes (disk : Disk) (m : Sections) : Prop := (closed (written m)).length ≤ disk.stored

instance (disk : Disk) (m : Sections) : Decidable (disk.Flushes m) :=
  inferInstanceAs (Decidable (_ ≤ _))

/-- A write that succeeds: the file is opened, no `write` fails, and no `close`. -/
structure Disk.Stores (disk : Disk) (m : Sections) : Prop where
  opens : disk.opens = true
  room : (written m).length ≤ disk.room
  flushes : disk.Flushes m

/-- The text is that of all lines, or that of the lines up to the one that fails. -/
theorem writeLines_eq (ls : List Str) (room : Nat) (text : Str) :
    writeLines ls room text =
      if ls.length ≤ room then (0, text ++ closed ls)
      else (-1, text ++ closed (ls.take (room + 1))) := by
  induction ls generalizing room text with
  | nil =>
    have hnil : text ++ closed [] = text := List.append_nil text
    rw [writeLines, List.length_nil, if_pos (Nat.zero_le room), hnil]
  | cons l ls ih =>
    have hclosed (ls : List Str) : closed (l :: ls) = (l ++ ['\n']) ++ closed ls := rfl
    cases room with
    | zero => simp [writeLines, closed]
    | succ room =>
      rw [writeLines, ih, hclosed, List.take_succ_cons, hclosed, List.length_cons]
      simp only [Nat.add_le_add_iff_right, List.append_assoc]

/-- **What `WriteFile` returns and leaves**, if the file is opened: 0 if every `write` succeeds,
    and of the text what was stored. -/
theorem writeFile_eq {m : Sections} {disk : Disk} (hopens : disk.opens = true)
    (file : Option Str) :
    writeFile m disk file =
      if (written m).length ≤ disk.room then (0, some ((closed (written m)).take disk.stored))
      else (-1, some ((closed ((written m).take (disk.room + 1))).take disk.stored)) := by
  rw [writeFile, if_pos hopens]
  simp only [writeLines_eq, List.nil_append]
  split
  · rfl
  · rfl

/-- **What `WriteFile` writes**, if nothing fails: all of the text. -/
theorem writeFile_stores {m : Sections} {disk : Disk} (h : disk.Stores m) (file : Option Str) :
    writeFile m disk file = (0, some (closed (written m))) := by
  rw [writeFile_eq h.opens, if_pos h.room, List.take_of_length_le h.flushes]

/-- A return of 0 says that the file was opened and no `write` failed, and no more. -/
theorem writeFile_eq_zero_iff {m : Sections} {disk : Disk} {file : Option Str} :
    (writeFile m disk file).1 = 0 ↔ disk.opens = true ∧ (written m).length ≤ disk.room := by
  cases hopens : disk.opens with
  | false => simp [writeFile, hopens]
  | true =>
    rw [writeFile_eq hopens]
    split
    · rename_i hroom
      simp [hroom]
    · rename_i hroom
      simp [hroom]

/-! ## Loading printed lines

Section by section. The header of the next one stores the one before, so that an induction on the
sections has to carry the loader and not only the map. -/

/-- The loader behind the lines of a section. -/
def openSection (st : Loader) (p : Str × ConfigType) : Loader :=
  ⟨st.flushed, p.1, true, p.2.map fun _ => reread⟩

theorem loadLines_items {items : List (Str × Str)} (h : ∀ p ∈ items, ItemOk p.1 p.2) (st : Loader)
    (ls : List Str) :
    loadLines st (items.map (fun p => writtenItem p.1 p.2) ++ ls) =
      loadLines { st with
        keyvalue := items.foldl (fun kv p => kv.insert p.1 (reread p.2)) st.keyvalue } ls := by
  induction items generalizing st with
  | nil => rfl
  | cons p items ih =>
    rw [List.map_cons, List.cons_append, loadLines, loadLine_item st (h p List.mem_cons_self)]
    exact ih (fun q hq => h q (List.mem_cons_of_mem _ hq)) _

/-- **The lines of a section** are read as its header, and its items with their values cut. -/
theorem loadLines_section {p : Str × ConfigType} (hname : NameOk p.1) (hitems : ItemsOk p.2)
    (st : Loader) (ls : List Str) :
    loadLines st (writtenSection p ++ ls) = loadLines (openSection st p) ls := by
  rw [writtenSection, List.cons_append, loadLines, loadLine_header st hname.nul]
  simp only
  rw [loadLines_items fun q hq => hitems q.1 q.2 (ExtTreeMap.mem_toList_iff_getElem?_eq_some.mp hq)]
  simp only [openSection, Lib.SortedMap.foldl_insert_map]

theorem loadLines_sections {ps : List (Str × ConfigType)}
    (h : ∀ p ∈ ps, NameOk p.1 ∧ ItemsOk p.2) (st : Loader) :
    loadLines st (ps.flatMap writtenSection) = loadLines (ps.foldl openSection st) [] := by
  induction ps generalizing st with
  | nil => rfl
  | cons p ps ih =>
    obtain ⟨hname, hitems⟩ := h p List.mem_cons_self
    rw [List.flatMap_cons, loadLines_section hname hitems]
    exact ih (fun q hq => h q (List.mem_cons_of_mem _ hq)) _

theorem flushed_foldl (ps : List (Str × ConfigType)) (st : Loader) :
    (ps.foldl openSection st).flushed =
      ps.foldl (fun m p => m.insert p.1 (p.2.map fun _ => reread)) st.flushed := by
  induction ps generalizing st with
  | nil => rfl
  | cons p ps ih => exact ih _

/-- The one section there is has no name. -/
def OnlyUnnamed (m : Sections) : Prop := (∃ kv, m[([] : Str)]? = some kv) ∧ ∀ s ∈ m, s = []

/-- What comes back of a map: the same names and keys, and the values cut. -/
def rereadAll (m : Sections) : Sections := m.map fun _ kv => kv.map fun _ => reread

variable {m : Sections}

theorem Loadable.section (h : Loadable m) {p : Str × ConfigType} (hp : p ∈ m.toList) :
    NameOk p.1 ∧ ItemsOk p.2 :=
  h p.1 p.2 (ExtTreeMap.mem_toList_iff_getElem?_eq_some.mp hp)

/-- Every printed line is one line, and fits. -/
theorem written_lines (h : Loadable m) {l : Str} (hl : l ∈ written m) :
    '\n' ∉ l ∧ l.length < maxLineLen := by
  obtain ⟨p, hp, hl⟩ := List.mem_flatMap.mp hl
  obtain ⟨hname, hitems⟩ := h.section hp
  rcases List.mem_cons.mp hl with rfl | hl
  · refine ⟨not_mem_writtenHeader (by decide) (by decide) hname.newline, ?_⟩
    · rw [writtenHeader, List.length_append, List.length_cons, List.length_singleton]
      exact hname.short
  · obtain ⟨q, hq, rfl⟩ := List.mem_map.mp hl
    have hitem := hitems q.1 q.2 (ExtTreeMap.mem_toList_iff_getElem?_eq_some.mp hq)
    refine ⟨not_mem_join (by decide) hitem.key_newline hitem.value_newline, ?_⟩
    · have hshort := hitem.short
      rw [writtenItem, List.length_append, List.length_cons]
      omega

theorem fileLines_written (h : Loadable m) : fileLines (closed (written m)) = written m := by
  rw [fileLines, closed, lines_closed fun l hl => (written_lines h hl).1]
  exact List.takeWhile_eq_self_iff.mpr fun l hl => decide_eq_true (written_lines h hl).2

/-- The loader behind the printed lines is the one that is told the sections in their order. -/
theorem loadFile_written (h : Loadable m) :
    loadFile ∅ (some (closed (written m))) =
      loadLines (m.toList.foldl openSection ⟨∅, [], false, ∅⟩) [] := by
  rw [loadFile, fileLines_written h, written]
  exact loadLines_sections (fun p hp => h.section hp) _

/-- The empty name is the first, so that it is the last only if it is the only one. -/
theorem eq_nil_of_unnamed_last {ps : List (Str × ConfigType)} {p : Str × ConfigType}
    (hlast : m.toList = ps ++ [p]) (hp : p.1 = []) : ps = [] := by
  have hord := ExtTreeMap.ordered_keys_toList (t := m)
  rw [hlast, List.pairwise_append] at hord
  cases ps with
  | nil => rfl
  | cons q ps =>
    have hlt := hord.2.2 q List.mem_cons_self p List.mem_cons_self
    rw [hp] at hlt
    cases hq : q.1 with
    | nil => rw [hq] at hlt; cases hlt
    | cons c s => rw [hq] at hlt; cases hlt

theorem onlyUnnamed_iff : OnlyUnnamed m ↔ ∃ kv, m.toList = [([], kv)] := by
  constructor
  · rintro ⟨⟨kv, hkv⟩, hall⟩
    refine ⟨kv, ?_⟩
    rcases List.eq_nil_or_concat m.toList with hnil | ⟨ps, p, hlast⟩
    · rw [← ExtTreeMap.mem_toList_iff_getElem?_eq_some, hnil] at hkv
      cases hkv
    · rw [List.concat_eq_append] at hlast
      have hp : m[p.1]? = some p.2 :=
        ExtTreeMap.mem_toList_iff_getElem?_eq_some.mp (by rw [hlast]; simp)
      have hname : p.1 = [] := hall _ (ExtTreeMap.mem_iff_isSome_getElem?.mpr (by rw [hp]; rfl))
      rw [hname, hkv] at hp
      rw [hlast, eq_nil_of_unnamed_last hlast hname, List.nil_append]
      rw [← hname, Option.some.inj hp]
  · rintro ⟨kv, hlist⟩
    refine ⟨⟨kv, ExtTreeMap.mem_toList_iff_getElem?_eq_some.mp (by rw [hlist]; simp)⟩, ?_⟩
    intro s hs
    obtain ⟨kv', hkv'⟩ := Option.isSome_iff_exists.mp (ExtTreeMap.mem_iff_isSome_getElem?.mp hs)
    rw [← ExtTreeMap.mem_toList_iff_getElem?_eq_some, hlist] at hkv'
    exact congrArg Prod.fst (List.mem_singleton.mp hkv')

/-- **A configuration comes back**, its values cut. -/
theorem reload_loadable (h : Loadable m) (hnamed : ¬ OnlyUnnamed m) :
    loadFile ∅ (some (closed (written m))) = .ret 0 (rereadAll m) := by
  have hflushed := flushed_foldl m.toList ⟨∅, [], false, ∅⟩
  rw [show (⟨∅, [], false, ∅⟩ : Loader).flushed = ∅ from rfl,
    Lib.SortedMap.foldl_insert_map (fun kv : ConfigType => kv.map fun _ => reread) m] at hflushed
  rw [loadFile_written h, loadLines, rereadAll, ← hflushed]
  rcases List.eq_nil_or_concat m.toList with hnil | ⟨ps, p, hlast⟩
  · rw [hnil]
    rfl
  · -- the last section is stored at the end of the file, if it has a name
    rw [List.concat_eq_append] at hlast
    have hname : p.1 ≠ [] := by
      intro hp
      refine hnamed (onlyUnnamed_iff.mpr ⟨p.2, ?_⟩)
      rw [hlast, eq_nil_of_unnamed_last hlast hp, List.nil_append, ← hp]
    rw [hlast, List.foldl_append]
    exact congrArg (LoadEnd.ret 0) (if_pos hname)

/-- **A section without a name is lost**, if it is the only one. -/
theorem reload_unnamed (h : Loadable m) (hunnamed : OnlyUnnamed m) :
    loadFile ∅ (some (closed (written m))) = .ret 0 ∅ := by
  obtain ⟨kv, hlist⟩ := onlyUnnamed_iff.mp hunnamed
  rw [loadFile_written h, hlist]
  rfl

/-! ## What can be loaded -/

theorem loadTrimmed_error {st : Loader} {tmp : Str} {r : Int}
    (h : loadTrimmed st tmp = .error (.ret r m)) : m = st.mSection := by
  rw [loadTrimmed] at h
  split at h
  · split at h
    · cases h
    · cases h
      rfl
  · split at h
    · split at h
      · split at h
        · cases h
        · cases h
      · cases h
    · cases h

theorem loadLine_error {st : Loader} {line : Str} {r : Int}
    (h : loadLine st line = .error (.ret r m)) : m = st.mSection := by
  simp only [loadLine] at h
  split at h
  · cases h
  · split at h
    · cases h
    · split at h
      · cases h
      · exact loadTrimmed_error h

theorem loadLines_loadable {ls : List Str} (hls : ∀ l ∈ ls, '\n' ∉ l ∧ l.length < maxLineLen)
    {st : Loader} (h : Ranged st) {r : Int} (hload : loadLines st ls = .ret r m) :
    Loadable m := by
  induction ls generalizing st with
  | nil =>
    rw [loadLines] at hload
    cases hload
    split
    · exact h.sections.insert h.name h.items
    · exact h.sections
  | cons l ls ih =>
    obtain ⟨hnewline, hshort⟩ := hls l List.mem_cons_self
    rw [loadLines] at hload
    split at hload
    · rename_i e he
      rw [hload] at he
      rw [loadLine_error he]
      exact h.sections
    · rename_i st' hst
      exact ih (fun l' hl' => hls l' (List.mem_cons_of_mem _ hl'))
        (loadLine_ranged h hnewline hshort hst) hload

/-- **What a file is loaded as** could have been printed. -/
theorem loadFile_loadable {file : Option Str} {r : Int} (h : loadFile ∅ file = .ret r m) :
    Loadable m := by
  cases file with
  | none =>
    cases h
    exact loadable_empty
  | some file =>
    refine loadLines_loadable ?_
      ⟨loadable_empty, ⟨by decide, by decide, by decide⟩, itemsOk_empty⟩ h
    intro l hl
    rw [fileLines] at hl
    exact ⟨newline_not_mem_lines ((List.takeWhile_prefix _).mem hl), by
      simpa using List.mem_takeWhile_imp hl⟩

/-! ## What survives

A map that a file was loaded as can be printed, so the two results meet: what a second load makes of
it is told by `reread`. -/

/-- No value ends in a carriage return, which is what a reload would take off. -/
def NoReturn (m : Sections) : Prop :=
  ∀ (s : Str) (kv : ConfigType) (k v : Str), m[s]? = some kv → kv[k]? = some v →
    v.getLast? ≠ some '\r'

theorem NoReturn.insert (h : NoReturn m) {s : Str} {kv : ConfigType}
    (hkv : ∀ k v : Str, kv[k]? = some v → v.getLast? ≠ some '\r') : NoReturn (m.insert s kv) := by
  intro s' kv' k v hs
  exact Lib.SortedMap.forall_insert (fun s' kv' hs' k v => h s' kv' k v hs') hkv s' kv' hs k v

theorem rereadAll_get (m : Sections) (s : Str) :
    (rereadAll m)[s]? = m[s]?.map fun kv => kv.map fun _ => reread := ExtTreeMap.getElem?_map

theorem rereadAll_eq_iff (h : Loadable m) : rereadAll m = m ↔ NoReturn m := by
  constructor
  · intro heq s kv k v hs hk
    have hs' := rereadAll_get m s
    rw [heq, hs, Option.map_some, Option.some.injEq] at hs'
    have hk' : kv[k]? = some (reread v) := by
      rw [hs', ExtTreeMap.getElem?_map, hk]
      rfl
    rw [hk, Option.some.injEq] at hk'
    exact (reread_eq_iff (((h s kv hs).2 k v hk).value_trimmed.2)).mp hk'.symm
  · intro hr
    refine ExtTreeMap.ext_getElem? fun s => ?_
    rw [rereadAll_get]
    cases hs : m[s]? with
    | none => rfl
    | some kv =>
      rw [Option.map_some, Option.some.injEq]
      refine ExtTreeMap.ext_getElem? fun k => ?_
      rw [ExtTreeMap.getElem?_map]
      cases hk : kv[k]? with
      | none => rfl
      | some v =>
        exact congrArg some ((reread_eq_iff (((h s kv hs).2 k v hk).value_trimmed.2)).mpr
          (hr s kv k v hs hk))

/-- A configuration that can be printed: what a line can be read as, with a name for every section
    and no carriage return at the end of a value. -/
structure WellFormed (m : Sections) : Prop where
  loadable : Loadable m
  named : ∀ s ∈ m, s ≠ []
  noReturn : NoReturn m

/-- **Write, then load, is the identity** on well-formed configurations. -/
theorem load_written (h : WellFormed m) {disk : Disk} (hstores : disk.Stores m)
    (file : Option Str) :
    ∃ f, writeFile m disk file = (0, some f) ∧ loadFile ∅ (some f) = .ret 0 m := by
  have hnamed : ¬ OnlyUnnamed m := by
    rintro ⟨⟨kv, hkv⟩, -⟩
    exact h.named [] (ExtTreeMap.mem_iff_isSome_getElem?.mpr (by rw [hkv]; rfl)) rfl
  refine ⟨_, writeFile_stores hstores file, ?_⟩
  rw [reload_loadable h.loadable hnamed, (rereadAll_eq_iff h.loadable).mpr h.noReturn]

def oneItem (s k v : Str) : Sections := (∅ : Sections).insert s ((∅ : ConfigType).insert k v)

/-- One section with one item, and one with none. -/
theorem load_written_two_sections :
    ∃ f, writeFile ((oneItem ['s'] ['k'] ['v']).insert ['t'] ∅) ⟨true, 3, 12⟩ none =
        (0, some f) ∧
      loadFile ∅ (some f) = .ret 0 ((oneItem ['s'] ['k'] ['v']).insert ['t'] ∅) := by
  have hitems : ItemsOk ((∅ : ConfigType).insert ['k'] ['v']) :=
    itemsOk_empty.insert ⟨by decide, by decide, by decide, by decide, by decide, by decide,
      by decide, by decide, by decide, by decide, by decide⟩
  have hloadable : Loadable ((oneItem ['s'] ['k'] ['v']).insert ['t'] ∅) :=
    (loadable_empty.insert ⟨by decide, by decide, by decide⟩ hitems).insert
      ⟨by decide, by decide, by decide⟩ itemsOk_empty
  refine load_written ⟨hloadable, ?_, ?_⟩ ⟨rfl, by decide, by decide⟩ none
  · intro s hs
    rcases ExtTreeMap.mem_insert.mp hs with he | hs
    · exact (LawfulEqCmp.eq_of_compare he) ▸ by decide
    · rcases ExtTreeMap.mem_insert.mp hs with he | hs
      · exact (LawfulEqCmp.eq_of_compare he) ▸ by decide
      · exact absurd hs ExtTreeMap.not_mem_empty
  · refine NoReturn.insert (NoReturn.insert ?_ ?_) ?_
    · intro s kv k v hs
      simp at hs
    · intro k v hk
      rw [ExtTreeMap.getElem?_insert] at hk
      split at hk
      · cases hk
        decide
      · simp at hk
    · intro k v hk
      simp at hk

/-- **What a loaded configuration loses** when it is written and loaded again: each value a carriage
    return at its end, and the spaces before it. It is the same exactly if there are none. -/
theorem survives_iff {file : Option Str} (hload : loadFile ∅ file = .ret 0 m)
    (hnamed : ¬ OnlyUnnamed m) {disk : Disk} (hstores : disk.Stores m) (file' : Option Str) :
    ∃ f, writeFile m disk file' = (0, some f) ∧
      loadFile ∅ (some f) = .ret 0 (rereadAll m) ∧ (rereadAll m = m ↔ NoReturn m) :=
  ⟨_, writeFile_stores hstores file', reload_loadable (loadFile_loadable hload) hnamed,
    rereadAll_eq_iff (loadFile_loadable hload)⟩

theorem survives_iff_one_item :
    ∃ f, writeFile (oneItem ['s'] ['k'] ['v']) ⟨true, 2, 8⟩ none = (0, some f) ∧
      loadFile ∅ (some f) = .ret 0 (rereadAll (oneItem ['s'] ['k'] ['v'])) ∧
      (rereadAll (oneItem ['s'] ['k'] ['v']) = oneItem ['s'] ['k'] ['v'] ↔
        NoReturn (oneItem ['s'] ['k'] ['v'])) :=
  have hload : loadFile ∅ (some "[s]\nk = v".toList) = .ret 0 (oneItem ['s'] ['k'] ['v']) := rfl
  survives_iff hload (fun h => absurd (h.2 ['s'] (by decide)) (by decide))
    ⟨rfl, by decide, by decide⟩ none

/-- Two carriage returns at the end of a line: one is left in the value, and lost by the next
    load. -/
theorem two_returns_lost :
    loadFile ∅ (some "[s]\nk=v\r\r\n".toList) = .ret 0 (oneItem ['s'] ['k'] ['v', '\r']) ∧
      writeFile (oneItem ['s'] ['k'] ['v', '\r']) ⟨true, 2, 9⟩ none =
        (0, some "[s]\nk=v\r\n".toList) ∧
      loadFile ∅ (some "[s]\nk=v\r\n".toList) ≠ .ret 0 (oneItem ['s'] ['k'] ['v', '\r']) := by
  refine ⟨rfl, rfl, fun h => ?_⟩
  have hload : loadFile ∅ (some "[s]\nk=v\r\n".toList) =
      .ret 0 (oneItem ['s'] ['k'] ['v']) := rfl
  rw [hload, LoadEnd.ret.injEq] at h
  exact absurd (congrArg ExtTreeMap.toList h.2) (by decide)

end MagicConfig

end WebsocketTest
