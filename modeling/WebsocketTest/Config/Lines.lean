import WebsocketTest.Config.Load
import WebsocketTest.Lib.SortedMap

/-!
# One line, written and read

What a printed line is read as: a header is read back whatever the name is (`loadLine_header`), an
item with its value cut as `reread` says, for one carriage return is dropped at the end of a line,
and then the spaces (`loadLine_item`).

And what any line can be read as: `loadLine_ranged` — names, keys and values that would do as
arguments of the two. Every `[` starts a header, so none is left in an item; the trimming and the
splitting see to the rest.

The two parts meet. What can be printed and read back is what a line can be read as, and no more
than that, so that `NameOk` and `ItemOk` are no guesses at what a user may write. They are what the
loader produces. The one thing that a line can be read as and is not read back is a value with a
carriage return at its end: the loader drops one, and there may have been two.
-/

set_option autoImplicit false

namespace WebsocketTest

open Lib.Text

namespace MagicConfig

/-- What the name of a section can be. -/
structure NameOk (name : Str) : Prop where
  newline : '\n' ∉ name
  nul : '\x00' ∉ name
  short : name.length + 2 < maxLineLen

/-- What a key and its value can be. -/
structure ItemOk (key value : Str) : Prop where
  key_newline : '\n' ∉ key
  key_nul : '\x00' ∉ key
  key_equals : '=' ∉ key
  key_bracket : '[' ∉ key
  key_trimmed : Trimmed ' ' key
  key_comment : key.head? ≠ some ';' ∧ key.head? ≠ some '#'
  value_newline : '\n' ∉ value
  value_nul : '\x00' ∉ value
  value_bracket : '[' ∉ value
  value_trimmed : Trimmed ' ' value
  short : key.length + 1 + value.length < maxLineLen

/-- A value after it was written and read again. -/
def reread (value : Str) : Str := trimEnd ' ' (dropReturn value)

/-! ## Dropping a carriage return -/

theorem dropReturn_start (s : Str) : dropReturn s <+: s := by
  rw [dropReturn]
  split
  · exact List.dropLast_prefix s
  · exact List.prefix_rfl

theorem dropReturn_eq {s : Str} (h : s.getLast? ≠ some '\r') : dropReturn s = s := if_neg h

/-- A character that is no carriage return keeps what is in front of it. -/
theorem dropReturn_append {d : Char} (hd : d ≠ '\r') (s t : Str) :
    dropReturn (s ++ d :: t) = s ++ d :: dropReturn t := by
  have hlast : (s ++ d :: t).getLast? = (d :: t).getLast? := by
    rw [List.getLast?_append_of_ne_nil _ (List.cons_ne_nil d t)]
  rw [dropReturn, dropReturn, hlast]
  cases t with
  | nil =>
    rw [if_neg (by simpa using hd), if_neg (by simp)]
  | cons e t =>
    rw [List.getLast?_cons_cons, List.dropLast_append_of_ne_nil (List.cons_ne_nil _ _)]
    split
    · rfl
    · rfl

theorem reread_start (value : Str) : reread value <+: value :=
  (trimEnd_start ' ' _).trans (dropReturn_start value)

/-- **A value survives** exactly if there is no carriage return at its end. -/
theorem reread_eq_iff {value : Str} (h : value.getLast? ≠ some ' ') :
    reread value = value ↔ value.getLast? ≠ some '\r' := by
  constructor
  · intro heq hr
    have hlen := (trimEnd_start ' ' (dropReturn value)).length_le
    rw [← reread, heq, dropReturn, if_pos hr, List.length_dropLast] at hlen
    have hne : value ≠ [] := fun h₀ => by rw [h₀] at hr; cases hr
    have hpos := List.length_pos_of_ne_nil hne
    omega
  · intro hr
    rw [reread, dropReturn_eq hr, trimEnd_eq h]

/-! ## Reading a printed line -/

theorem trimString_eq {s : Str} (h : Trimmed ' ' s) : trimString s = some s := by
  rw [trimString]
  split
  · rfl
  · rename_i hne
    rw [if_neg, trim_eq h]
    intro hall
    cases s with
    | nil => exact hne rfl
    | cons c s =>
      have hc := List.all_eq_true.mp hall c List.mem_cons_self
      exact h.1 (congrArg some (of_decide_eq_true hc))

/-- A trimmed line without a carriage return at its end goes straight to the classification. -/
theorem loadLine_eq (st : Loader) {line : Str} (hnul : '\x00' ∉ line) (hne : dropReturn line ≠ [])
    {tmp : Str} (htrim : trimString (dropReturn line) = some tmp) :
    loadLine st line = loadTrimmed st tmp := by
  have hline : line ≠ [] := fun h₀ => by rw [h₀] at hne; exact hne rfl
  rw [loadLine, cString_eq hnul]
  simp only [if_neg hline, if_neg hne, htrim]

theorem not_mem_writtenHeader {c : Char} (hopen : c ≠ '[') (hclose : c ≠ ']') {name : Str}
    (h : c ∉ name) : c ∉ writtenHeader name :=
  not_mem_join hopen List.not_mem_nil (not_mem_join hclose h List.not_mem_nil)

theorem headerName_written (name : Str) : headerName (writtenHeader name) = name := by
  have hrest : ((writtenHeader name).dropWhile (· ≠ '[')).tail = name ++ [']'] := by
    rw [writtenHeader, List.cons_append, List.dropWhile_cons_of_neg (by simp)]
    rfl
  rw [headerName, hrest]
  rw [if_pos (by simp), List.rdropWhile_concat_neg _ _ _ (by simp), List.dropLast_concat]

/-- **A printed header is read back**, and the section before it is stored. -/
theorem loadLine_header (st : Loader) {name : Str} (h : '\x00' ∉ name) :
    loadLine st (writtenHeader name) = .ok ⟨st.flushed, name, true, ∅⟩ := by
  have hnul : '\x00' ∉ writtenHeader name := not_mem_writtenHeader (by decide) (by decide) h
  have hreturn : dropReturn (writtenHeader name) = writtenHeader name := by
    refine dropReturn_eq ?_
    rw [writtenHeader, List.getLast?_concat]
    decide
  have htrim : Trimmed ' ' (writtenHeader name) := by
    refine ⟨by simp [writtenHeader], ?_⟩
    rw [writtenHeader, List.getLast?_concat]
    decide
  rw [loadLine_eq st hnul (by rw [hreturn]; simp [writtenHeader])
    (by rw [hreturn]; exact trimString_eq htrim)]
  rw [loadTrimmed, if_pos (by simp [writtenHeader]), if_pos (by simp [writtenHeader]),
    headerName_written]

theorem reread_trimmed {value : Str} (h : Trimmed ' ' value) : Trimmed ' ' (reread value) :=
  ⟨head?_ne_of_start (reread_start value) h.1, getLast?_trimEnd ' ' _⟩

/-- **A printed item is read back**, with its value cut. -/
theorem loadLine_item (st : Loader) {key value : Str} (h : ItemOk key value) :
    loadLine st (writtenItem key value) =
      .ok { st with keyvalue := st.keyvalue.insert key (reread value) } := by
  have hnul : '\x00' ∉ writtenItem key value := not_mem_join (by decide) h.key_nul h.value_nul
  have hreturn : dropReturn (writtenItem key value) = key ++ '=' :: dropReturn value :=
    dropReturn_append (by decide) key value
  -- what is trimmed off the line is behind the `=`
  have hhead : (key ++ '=' :: dropReturn value).head? ≠ some ' ' :=
    head?_append_ne (by decide) h.key_trimmed.1 _
  have htrim : trimString (dropReturn (writtenItem key value)) =
      some (key ++ '=' :: reread value) := by
    rw [hreturn, trimString, if_neg (by simp), if_neg (by simp), trim, dropWhile_eq hhead,
      trimEnd_append (by decide)]
    rfl
  rw [loadLine_eq st hnul (by rw [hreturn]; simp) htrim]
  have hbracket : '[' ∉ key ++ '=' :: reread value :=
    not_mem_join (by decide) h.key_bracket fun hm => h.value_bracket ((reread_start value).mem hm)
  have hcomment : (key ++ '=' :: reread value).head? ≠ some ';' ∧
      (key ++ '=' :: reread value).head? ≠ some '#' :=
    ⟨head?_append_ne (by decide) h.key_comment.1 _, head?_append_ne (by decide) h.key_comment.2 _⟩
  have hkey : (key ++ '=' :: reread value).takeWhile (· ≠ '=') = key := by
    rw [List.takeWhile_append_of_pos (by
      intro c hc
      simpa using ne_of_mem_of_not_mem hc h.key_equals)]
    simp
  have hvalue : ((key ++ '=' :: reread value).dropWhile (· ≠ '=')).tail = reread value := by
    rw [List.dropWhile_append_of_pos (by
      intro c hc
      simpa using ne_of_mem_of_not_mem hc h.key_equals)]
    simp
  rw [loadTrimmed, if_neg hbracket, if_pos hcomment, if_pos (by simp), hkey, hvalue,
    trimString_eq h.key_trimmed, trimString_eq (reread_trimmed h.value_trimmed)]

/-! ## What a line can be read as

The line itself may hold anything but a line feed, which `getline` has taken. -/

def ItemsOk (keyvalue : ConfigType) : Prop := ∀ k v, keyvalue[k]? = some v → ItemOk k v

/-- What `m_section` can hold after loading: names, keys and values that can be printed. -/
def Loadable (mSection : Sections) : Prop :=
  ∀ s kv, mSection[s]? = some kv → NameOk s ∧ ItemsOk kv

/-- What the variables of `LoadFile` can hold while it is at work: the section and the items it has
    read so far too. -/
structure Ranged (st : Loader) : Prop where
  sections : Loadable st.mSection
  name : NameOk st.sectionName
  items : ItemsOk st.keyvalue

theorem loadable_empty : Loadable ∅ := fun s kv h => by simp at h

theorem itemsOk_empty : ItemsOk ∅ := fun k v h => by simp at h

theorem ItemsOk.insert {kv : ConfigType} (h : ItemsOk kv) {k v : Str} (hkv : ItemOk k v) :
    ItemsOk (kv.insert k v) := Lib.SortedMap.forall_insert h hkv

theorem Loadable.insert {m : Sections} (h : Loadable m) {s : Str} {kv : ConfigType}
    (hs : NameOk s) (hkv : ItemsOk kv) : Loadable (m.insert s kv) :=
  Lib.SortedMap.forall_insert h ⟨hs, hkv⟩

theorem Ranged.flushed {st : Loader} (h : Ranged st) : Loadable st.flushed := by
  rw [Loader.flushed]
  split
  · exact h.sections.insert h.name h.items
  · exact h.sections

/-- A line as the classification sees it. -/
structure LineOk (tmp : Str) : Prop where
  newline : '\n' ∉ tmp
  nul : '\x00' ∉ tmp
  trimmed : Trimmed ' ' tmp
  short : tmp.length < maxLineLen

theorem headerName_ok {tmp : Str} (h : LineOk tmp) (hopen : '[' ∈ tmp) (hclose : ']' ∈ tmp) :
    NameOk (headerName tmp) := by
  have hsplit := split_at hopen
  have hlen := congrArg List.length hsplit
  rw [List.length_append, List.length_cons] at hlen
  have hshort := h.short
  have hsuffix : (tmp.dropWhile (· ≠ '[')).tail <:+ tmp :=
    (List.tail_suffix _).trans (List.dropWhile_suffix _)
  rw [headerName]
  split
  · -- the `]` is behind the `[`
    rename_i hrest
    have hstart := List.rdropWhile_prefix (fun c => decide (c ≠ ']'))
      (tmp.dropWhile (· ≠ '[')).tail
    have hne : (tmp.dropWhile (· ≠ '[')).tail.rdropWhile (· ≠ ']') ≠ [] := by
      intro hnil
      simpa using List.rdropWhile_eq_nil_iff.mp hnil _ hrest
    have hsub := (List.dropLast_prefix _).isInfix.trans (hstart.isInfix.trans hsuffix.isInfix)
    refine ⟨fun hm => h.newline (hsub.mem hm), fun hm => h.nul (hsub.mem hm), ?_⟩
    have hpos := List.length_pos_of_ne_nil hne
    have hle := hstart.length_le
    rw [List.length_dropLast]
    omega
  · -- the `]` is in front of it
    rename_i hrest
    refine ⟨fun hm => h.newline (hsuffix.mem hm), fun hm => h.nul (hsuffix.mem hm), ?_⟩
    have hfront : ']' ∈ tmp.takeWhile (· ≠ '[') := by
      rw [hsplit, List.mem_append, List.mem_cons] at hclose
      rcases hclose with hc | hc | hc
      · exact hc
      · exact absurd hc (by decide)
      · exact absurd hc hrest
    have hpos := List.length_pos_of_mem hfront
    omega

theorem trimString_some {s t : Str} (h : trimString s = some t) : t = trim ' ' s := by
  rw [trimString] at h
  split at h
  · rename_i hnil
    rw [hnil] at h ⊢
    exact (Option.some.inj h).symm
  · split at h
    · cases h
    · exact (Option.some.inj h).symm

theorem item_ok {tmp : Str} (h : LineOk tmp) (hbracket : '[' ∉ tmp)
    (hcomment : tmp.head? ≠ some ';' ∧ tmp.head? ≠ some '#') (hequals : '=' ∈ tmp) :
    ItemOk (trim ' ' (tmp.takeWhile (· ≠ '='))) (trim ' ' (tmp.dropWhile (· ≠ '=')).tail) := by
  have hsplit := split_at hequals
  have hlen := congrArg List.length hsplit
  rw [List.length_append, List.length_cons] at hlen
  have hkey := trim_part ' ' (tmp.takeWhile (· ≠ '='))
  have hvalue := trim_part ' ' (tmp.dropWhile (· ≠ '=')).tail
  have hfront := List.takeWhile_prefix (fun c => decide (c ≠ '=')) (l := tmp)
  have hback : (tmp.dropWhile (· ≠ '=')).tail <:+ tmp :=
    (List.tail_suffix _).trans (List.dropWhile_suffix _)
  have hkey' := hkey.trans hfront.isInfix
  have hvalue' := hvalue.trans hback.isInfix
  have hshort := h.short
  have hkeylen := hkey.length_le
  have hvaluelen := hvalue.length_le
  -- the line starts with no space, so the key starts where the line does
  have hstart : trim ' ' (tmp.takeWhile (· ≠ '=')) <+: tmp := by
    rw [trim, dropWhile_eq (head?_ne_of_start hfront h.trimmed.1)]
    exact (trimEnd_start ' ' _).trans hfront
  exact {
    key_newline := fun hm => h.newline (hkey'.mem hm)
    key_nul := fun hm => h.nul (hkey'.mem hm)
    key_equals := fun hm => not_mem_takeWhile '=' tmp (hkey.mem hm)
    key_bracket := fun hm => hbracket (hkey'.mem hm)
    key_trimmed := trimmed_trim ' ' _
    key_comment := ⟨head?_ne_of_start hstart hcomment.1, head?_ne_of_start hstart hcomment.2⟩
    value_newline := fun hm => h.newline (hvalue'.mem hm)
    value_nul := fun hm => h.nul (hvalue'.mem hm)
    value_bracket := fun hm => hbracket (hvalue'.mem hm)
    value_trimmed := trimmed_trim ' ' _
    short := by omega }

theorem loadTrimmed_ranged {st st' : Loader} (h : Ranged st) {tmp : Str} (htmp : LineOk tmp)
    (hload : loadTrimmed st tmp = .ok st') : Ranged st' := by
  rw [loadTrimmed] at hload
  split at hload
  · rename_i hopen
    split at hload
    · rename_i hclose
      cases hload
      exact ⟨h.flushed, headerName_ok htmp hopen hclose, itemsOk_empty⟩
    · cases hload
  · rename_i hbracket
    split at hload
    · rename_i hcomment
      split at hload
      · rename_i hequals
        split at hload
        · rename_i key value hk hv
          cases hload
          rw [trimString_some hk, trimString_some hv]
          exact ⟨h.sections, h.name, h.items.insert (item_ok htmp hbracket hcomment hequals)⟩
        · cases hload
      · cases hload
        exact h
    · cases hload
      exact h

/-- **Whatever a line is read as** could have been printed. -/
theorem loadLine_ranged {st st' : Loader} (h : Ranged st) {line : Str} (hnewline : '\n' ∉ line)
    (hshort : line.length < maxLineLen) (hload : loadLine st line = .ok st') : Ranged st' := by
  simp only [loadLine] at hload
  split at hload
  · cases hload
    exact h
  · split at hload
    · cases hload
      exact h
    · split at hload
      · cases hload
      · rename_i tmp htrim
        rw [trimString_some htrim] at hload
        have hcut := (trim_part ' ' _).trans (dropReturn_start (cString line)).isInfix
        have hsub := hcut.trans (List.takeWhile_prefix _).isInfix
        have hlen := hsub.length_le
        exact loadTrimmed_ranged h ⟨fun hm => hnewline (hsub.mem hm),
          fun hm => nul_not_mem_cString line (hcut.mem hm), trimmed_trim ' ' _, by omega⟩ hload

end MagicConfig

end WebsocketTest
