import WebsocketTest.Config.Entries
import WebsocketTest.Lib.Positions

/-!
# `LoadFile`, and the positions it cuts at

`LoadFile` and the `TrimString` in it call `substr` five times, with positions that a search
returned. Here are the two with their searches; the rest of the model has what they amount to, and
`loadFile_eq` says that it is the same.

**`returns_iff`** — no `substr` throws, and the call returns 0 or -1, exactly if no line that is
read is made of spaces only. It is the first `substr` that throws, in `TrimString(tmp)`, where a
search for anything but a space finds nothing. The line was not empty, and that is all the code
asks. The other four are in range on what is left: a bracket or an `=` that was found is not behind
the end, and a trimmed line has no part of spaces only at one of its ends.

A position is a `size_t`, and `npos` its largest value, so that every search has two outcomes which
are both numbers. Two of the numbers are not what they look like: `endpos - pos - 1` wraps where the
`]` comes before the `[`, and `npos` stands for nothing found. The first is harmless, for a length
beyond the end means up to the end. The second is what throws.

All of it needs that a line is short against `npos` (`Fits`), which the buffer of `LoadFile` sees
to.
-/

set_option autoImplicit false

namespace WebsocketTest

open Lib.Text Lib.Positions

namespace MagicConfig

/-- The call returns 0 or -1, whatever it leaves in `m_section`. -/
def LoadEnd.Returns (e : LoadEnd) : Prop := ∃ m, e = .ret 0 m ∨ e = .ret (-1) m

/-- The lines that the loop gets to. -/
def reached (file : Str) : List Str := (fileLines file).takeWhile fun line => ¬ Malformed line

namespace Positions

/-! ## The code -/

/-- The call ends where `substr` throws. -/
def orThrow {α : Type} (m : Sections) : Option α → Except LoadEnd α
  | some a => .ok a
  | none => .error (.outOfRange m)

/-- `TrimString`. -/
def trimString (str : Str) : Option Str :=
  if str = [] then some str
  else
    let pos := findFirst (· ≠ ' ') str
    let endpos := findLast (· ≠ ' ') str
    substr str pos (endpos - pos + 1)

/-- The rest of the loop body, after `TrimString(tmp)`. -/
def loadTrimmed (st : Loader) (tmp : Str) : Except LoadEnd Loader :=
  let pos := findFirst (· = '[') tmp
  if pos ≠ npos then
    let endpos := findLast (· = ']') tmp
    if endpos ≠ npos then do
      let name ← orThrow st.flushed (substr tmp (pos + 1) (endpos - pos - 1))
      return ⟨st.flushed, name, true, ∅⟩
    else .error (.ret (-1) st.mSection)
  else
    let compos1 := findFirst (· = ';') tmp
    let compos2 := findFirst (· = '#') tmp
    if compos1 ≠ 0 ∧ compos2 ≠ 0 then
      let keypos := findFirst (· = '=') tmp
      if keypos ≠ npos then do
        let key ← orThrow st.mSection (substr tmp 0 keypos)
        let value ← orThrow st.mSection (substr tmp (keypos + 1) npos)
        let key ← orThrow st.mSection (trimString key)
        let value ← orThrow st.mSection (trimString value)
        return { st with keyvalue := st.keyvalue.insert key value }
      else return st
    else return st

/-- The loop body of `LoadFile`, on a line that `getline` read. -/
def loadLine (st : Loader) (line : Str) : Except LoadEnd Loader :=
  let buf := cString line
  if buf = [] then .ok st
  else
    let tmp := dropReturn buf
    if tmp = [] then .ok st
    else do
      let tmp ← orThrow st.mSection (trimString tmp)
      loadTrimmed st tmp

/-- The loop, and what follows it. -/
def loadLines (st : Loader) : List Str → LoadEnd
  | [] =>
    .ret 0 (if st.sectionName ≠ [] then st.mSection.insert st.sectionName st.keyvalue
      else st.mSection)
  | line :: ls =>
    match loadLine st line with
    | .error e => e
    | .ok st => loadLines st ls

def loadFile (mSection : Sections) : Option Str → LoadEnd
  | none => .ret (-1) mSection
  | some file => loadLines ⟨mSection, [], false, ∅⟩ (fileLines file)

/-! ## What the positions amount to

Each search with the `substr` behind it is one operation on texts. -/

/-- What the last trimming leaves, from the last character that stays. -/
theorem rdropWhile_split {p : Char → Bool} {front back : Str} {c : Char} (hc : p c = false)
    (hback : ∀ d ∈ back, p d = true) : (front ++ c :: back).rdropWhile p = front ++ [c] := by
  have hrev : (front ++ c :: back).reverse = back.reverse ++ c :: front.reverse := by simp
  rw [List.rdropWhile, hrev, List.dropWhile_append_of_pos fun d hd =>
    hback d (List.mem_reverse.mp hd), List.dropWhile_cons_of_neg (by simp [hc])]
  simp

/-- What is between the spaces at the ends, and where the two searches find it. -/
theorem exists_trimmed {s : Str} (h : ∃ c ∈ s, c ≠ ' ') :
    ∃ front mid back, s = front ++ (mid ++ back) ∧ mid ≠ [] ∧ trim ' ' s = mid ∧
      findFirst (· ≠ ' ') s = UInt64.ofNat front.length ∧
      findLast (· ≠ ' ') s = UInt64.ofNat (front.length + mid.length - 1) := by
  obtain ⟨c, hc, hne⟩ := h
  obtain ⟨front, d, rest, rfl, hd, hfront⟩ :=
    exists_first (p := fun c => decide (c ≠ ' ')) ⟨c, hc, decide_eq_true hne⟩
  obtain ⟨mid, e, back, hlast, he, hback⟩ := exists_last (p := fun c => decide (c ≠ ' '))
    (s := d :: rest) ⟨d, List.mem_cons_self, hd⟩
  have hwhole : front ++ d :: rest = (front ++ mid) ++ e :: back := by
    rw [hlast, List.append_assoc]
  refine ⟨front, mid ++ [e], back, ?_, by simp, ?_, findFirst_split hd hfront, ?_⟩
  · rw [hlast, List.append_assoc, List.singleton_append]
  · have hskip : (front ++ d :: rest).dropWhile (· = ' ') = d :: rest := by
      rw [List.dropWhile_append_of_pos fun x hx => by simpa using hfront x hx,
        List.dropWhile_cons_of_neg (by simpa using hd)]
    rw [trim, hskip, hlast, trimEnd]
    exact rdropWhile_split (by simpa using he) fun x hx => by simpa using hback x hx
  · have hpos : front.length + (mid ++ [e]).length - 1 = (front ++ mid).length := by
      rw [List.length_append, List.length_append, List.length_singleton]
      omega
    rw [hpos, hwhole]
    exact findLast_split he hback

/-- **`TrimString`** takes the spaces off both ends, or throws. -/
theorem trimString_eq {s : Str} (hs : Fits s) : trimString s = MagicConfig.trimString s := by
  rw [trimString, MagicConfig.trimString]
  split
  · rfl
  · rename_i hne
    by_cases hall : ∀ c ∈ s, c = ' '
    · have hfirst : findFirst (· ≠ ' ') s = npos :=
        findFirst_none fun c hc => decide_eq_false (not_not.mpr (hall c hc))
      rw [if_pos (List.all_eq_true.mpr fun c hc => decide_eq_true (hall c hc))]
      simp only [hfirst, substr_npos hs]
    · have hsome : ∃ c ∈ s, c ≠ ' ' := by
        by_contra hno
        exact hall fun c hc => by_contra fun hc' => hno ⟨c, hc, hc'⟩
      obtain ⟨front, mid, back, hsplit, hmid, htrim, hfirst, hlast⟩ := exists_trimmed hsome
      rw [if_neg (fun h => hall fun c hc => of_decide_eq_true (List.all_eq_true.mp h c hc)), htrim]
      have hpos := List.length_pos_of_ne_nil hmid
      have hlen := congrArg List.length hsplit
      rw [List.length_append, List.length_append] at hlen
      rw [Fits] at hs
      simp only [hfirst, hlast]
      rw [hsplit]
      refine substr_split back (toNat_ofNat (by omega)) ?_
      rw [UInt64.toNat_add, UInt64.toNat_sub, toNat_ofNat (by omega), toNat_ofNat (by omega),
        UInt64.toNat_one]
      omega

theorem toNat_behind {front : Str} {c : Char} (h : front.length < 9223372036854775807) :
    (UInt64.ofNat front.length + 1).toNat = (front ++ [c]).length := by
  rw [UInt64.toNat_add, toNat_ofNat (by omega), UInt64.toNat_one, List.length_append,
    List.length_singleton]
  omega

/-- The last `]` is behind the first `[`. -/
theorem substr_between {front mid back : Str} (hs : Fits (front ++ '[' :: (mid ++ ']' :: back)))
    (hfront : '[' ∉ front) (hback : ']' ∉ back) :
    let tmp := front ++ '[' :: (mid ++ ']' :: back)
    substr tmp (findFirst (· = '[') tmp + 1)
      (findLast (· = ']') tmp - findFirst (· = '[') tmp - 1) = some mid := by
  intro tmp
  rw [Fits, List.length_append, List.length_cons, List.length_append, List.length_cons] at hs
  have hpos : findFirst (· = '[') tmp = UInt64.ofNat front.length :=
    findFirst_char_split _ hfront
  have hend : findLast (· = ']') tmp = UInt64.ofNat (front ++ '[' :: mid).length := by
    have hwhole : tmp = (front ++ '[' :: mid) ++ ']' :: back := by simp [tmp]
    rw [hwhole]
    exact findLast_char_split _ hback
  have hlen : (front ++ '[' :: mid).length = front.length + mid.length + 1 := by
    rw [List.length_append, List.length_cons]
    omega
  rw [hpos, hend, hlen, show tmp = front ++ ['['] ++ (mid ++ ']' :: back) by simp [tmp]]
  refine substr_split _ (toNat_behind (by omega)) ?_
  rw [UInt64.toNat_sub, UInt64.toNat_sub, toNat_ofNat (by omega), toNat_ofNat (by omega),
    UInt64.toNat_one]
  omega

/-- The last `]` is in front of the first `[`, and the length wraps: what is cut out reaches to the
    end. -/
theorem substr_behind {front rest : Str} (hs : Fits (front ++ '[' :: rest)) (hfront : '[' ∉ front)
    (hclose : ']' ∈ front) (hrest : ']' ∉ rest) :
    let tmp := front ++ '[' :: rest
    substr tmp (findFirst (· = '[') tmp + 1)
      (findLast (· = ']') tmp - findFirst (· = '[') tmp - 1) = some rest := by
  intro tmp
  rw [Fits, List.length_append, List.length_cons] at hs
  have hpos : findFirst (· = '[') tmp = UInt64.ofNat front.length :=
    findFirst_char_split _ hfront
  obtain ⟨before, between, hsplit, hbetween⟩ := split_last hclose
  have hlen := congrArg List.length hsplit
  rw [List.length_append, List.length_cons] at hlen
  have hend : findLast (· = ']') tmp = UInt64.ofNat before.length := by
    have hwhole : tmp = before ++ ']' :: (between ++ '[' :: rest) := by
      simp only [tmp, hsplit, List.append_assoc, List.cons_append]
    rw [hwhole]
    exact findLast_char_split _ (not_mem_join (by decide) hbetween hrest)
  rw [hpos, hend, show tmp = front ++ ['['] ++ rest by simp [tmp]]
  refine substr_rest (toNat_behind (by omega)) ?_
  rw [UInt64.toNat_sub, UInt64.toNat_sub, toNat_ofNat (by omega), toNat_ofNat (by omega),
    UInt64.toNat_one]
  omega

/-- **A header's name** is in range, and is what is between the brackets. -/
theorem substr_header {tmp : Str} (hs : Fits tmp) (hopen : '[' ∈ tmp) (hclose : ']' ∈ tmp) :
    substr tmp (findFirst (· = '[') tmp + 1)
      (findLast (· = ']') tmp - findFirst (· = '[') tmp - 1) = some (headerName tmp) := by
  have hsplit := split_at hopen
  have hfront := not_mem_takeWhile '[' tmp
  rw [headerName]
  generalize tmp.takeWhile (· ≠ '[') = front at hsplit hfront
  generalize (tmp.dropWhile (· ≠ '[')).tail = rest at hsplit
  subst hsplit
  split
  · rename_i hmem
    obtain ⟨mid, back, rfl, hback⟩ := split_last hmem
    have hback' : ∀ c ∈ back, decide (c ≠ ']') = true :=
      fun c hc => decide_eq_true (ne_of_mem_of_not_mem hc hback)
    rw [rdropWhile_split (by simp) hback', List.dropLast_concat]
    exact substr_between hs hfront hback
  · rename_i hmem
    refine substr_behind hs hfront ?_ hmem
    rcases List.mem_append.mp hclose with hm | hm
    · exact hm
    · rcases List.mem_cons.mp hm with he | hm
      · exact absurd he (by decide)
      · exact absurd hm hmem

/-- **A key and a value** are in range: what is in front of the first `=`, and what is behind. -/
theorem substr_item {tmp : Str} (hs : Fits tmp) (hequals : '=' ∈ tmp) :
    substr tmp 0 (findFirst (· = '=') tmp) = some (tmp.takeWhile (· ≠ '=')) ∧
      substr tmp (findFirst (· = '=') tmp + 1) npos = some (tmp.dropWhile (· ≠ '=')).tail := by
  have hsplit := split_at hequals
  have hfront := not_mem_takeWhile '=' tmp
  generalize tmp.takeWhile (· ≠ '=') = front at hsplit hfront ⊢
  generalize (tmp.dropWhile (· ≠ '=')).tail = rest at hsplit ⊢
  subst hsplit
  rw [Fits, List.length_append, List.length_cons] at hs
  have hpos : findFirst (· = '=') (front ++ '=' :: rest) = UInt64.ofNat front.length :=
    findFirst_char_split rest hfront
  rw [hpos]
  constructor
  · rw [← List.nil_append (front ++ '=' :: rest)]
    exact substr_split _ rfl (toNat_ofNat (by omega))
  · rw [List.append_cons]
    refine substr_rest (toNat_behind (by omega)) ?_
    have hn : npos.toNat = 18446744073709551615 := by decide
    omega

/-! ## The model is the same -/

theorem loadTrimmed_eq (st : Loader) {tmp : Str} (hs : Fits tmp) :
    loadTrimmed st tmp = MagicConfig.loadTrimmed st tmp := by
  simp only [loadTrimmed, MagicConfig.loadTrimmed, findFirst_char_iff hs, findLast_char_iff hs,
    findFirst_char_zero_iff hs]
  split
  · rename_i hopen
    split
    · rename_i hclose
      rw [substr_header hs hopen hclose]
      rfl
    · rfl
  · split
    · split
      · rename_i hequals
        obtain ⟨hkey, hvalue⟩ := substr_item hs hequals
        have hlen := congrArg List.length (split_at hequals)
        rw [List.length_append, List.length_cons] at hlen
        rw [Fits] at hs
        rw [hkey, hvalue]
        simp only [orThrow, bind, Except.bind]
        rw [trimString_eq (by rw [Fits]; omega), trimString_eq (by rw [Fits]; omega)]
        cases MagicConfig.trimString (tmp.takeWhile (· ≠ '=')) with
        | none => rfl
        | some key =>
          cases MagicConfig.trimString (tmp.dropWhile (· ≠ '=')).tail with
          | none => rfl
          | some value => rfl
      · rfl
    · rfl

theorem loadLine_eq (st : Loader) {line : Str} (hs : Fits line) :
    loadLine st line = MagicConfig.loadLine st line := by
  simp only [loadLine, MagicConfig.loadLine]
  split
  · rfl
  · split
    · rfl
    · have hfits : Fits (dropReturn (cString line)) := by
        have hle := ((dropReturn_start (cString line)).trans (List.takeWhile_prefix _)).length_le
        rw [Fits] at hs ⊢
        omega
      rw [trimString_eq hfits]
      cases htrim : MagicConfig.trimString (dropReturn (cString line)) with
      | none => rfl
      | some tmp =>
        refine loadTrimmed_eq st ?_
        have hle := (trim_part ' ' (dropReturn (cString line))).length_le
        rw [trimString_some htrim]
        rw [Fits] at hfits ⊢
        omega

theorem loadLines_eq {ls : List Str} (hls : ∀ l ∈ ls, Fits l) (st : Loader) :
    loadLines st ls = MagicConfig.loadLines st ls := by
  induction ls generalizing st with
  | nil => rfl
  | cons l ls ih =>
    rw [loadLines, MagicConfig.loadLines, loadLine_eq st (hls l List.mem_cons_self)]
    cases MagicConfig.loadLine st l with
    | error e => rfl
    | ok st' => exact ih (fun l' hl' => hls l' (List.mem_cons_of_mem l hl')) st'

/-- **`LoadFile`** is what the model without positions says. -/
theorem loadFile_eq (m : Sections) (file : Option Str) :
    loadFile m file = MagicConfig.loadFile m file := by
  cases file with
  | none => rfl
  | some file =>
    refine loadLines_eq (fun l hl => ?_) _
    have hlen : l.length < maxLineLen := by simpa using List.mem_takeWhile_imp hl
    rw [maxLineLen] at hlen
    rw [Fits]
    omega

end Positions

/-! ## When it throws -/

theorem mem_reached {front back : List Str} {line : Str}
    (hfront : ∀ l ∈ front, ¬ Malformed l) (hline : ¬ Malformed line) :
    line ∈ (front ++ line :: back).takeWhile fun l => ¬ Malformed l := by
  rw [List.takeWhile_append_of_pos fun l hl => decide_eq_true (hfront l hl),
    List.takeWhile_cons_of_pos (by simpa using hline)]
  simp

/-- **When `LoadFile` returns**: exactly if there is no blank line among those the loop gets to. -/
theorem returns_iff (m : Sections) (file : Option Str) :
    (Positions.loadFile m file).Returns ↔
      ∀ f, file = some f → ∀ line ∈ reached f, ¬ Blank line := by
  rw [Positions.loadFile_eq]
  cases file with
  | none => exact ⟨fun _ f hf => (nomatch hf), fun _ => ⟨m, .inr rfl⟩⟩
  | some file =>
    simp only [loadFile, Option.some.injEq, forall_eq']
    rcases loadLines_cases ⟨m, [], false, ∅⟩ (fileLines file) with
      ⟨hall, hret⟩ | ⟨front, line, back, hsplit, hfront, ⟨hblank, hout⟩ | ⟨hmalformed, hret⟩⟩
    · rw [hret]
      refine ⟨fun _ line hline => (hall line ?_).1, fun _ => ⟨_, .inl rfl⟩⟩
      exact (List.takeWhile_prefix _).mem hline
    · rw [hout]
      constructor
      · rintro ⟨m', hm' | hm'⟩
        · cases hm'
        · cases hm'
      · intro h
        refine absurd hblank (h line ?_)
        rw [reached, hsplit]
        exact mem_reached (fun l hl => (hfront l hl).2) hblank.not_malformed
    · rw [hret]
      refine ⟨fun _ l hl => ?_, fun _ => ⟨_, .inr rfl⟩⟩
      rw [reached, hsplit, List.takeWhile_append_of_pos fun l hl =>
        decide_eq_true (hfront l hl).2, List.takeWhile_cons_of_neg (by simpa using hmalformed),
        List.append_nil] at hl
      exact (hfront l hl).1

/-- **A line of spaces** makes the call throw. -/
theorem returns_blank_line :
    Positions.loadFile ∅ (some "   \n".toList) = .outOfRange ∅ ∧
      ¬ (Positions.loadFile ∅ (some "   \n".toList)).Returns := by
  have hload : Positions.loadFile ∅ (some "   \n".toList) = .outOfRange ∅ := rfl
  refine ⟨hload, ?_⟩
  rw [hload]
  rintro ⟨m, hm | hm⟩
  · cases hm
  · cases hm

end MagicConfig

end WebsocketTest
