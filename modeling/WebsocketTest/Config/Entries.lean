import WebsocketTest.Config.Lines

/-!
# What the lines of a file are

A line is a header, an item, or nothing that counts: `entry`. Two kinds of lines end the call
instead, those made of spaces only (`Blank`) and those with a bracket that is not closed
(`Malformed`).

**`loadLines_cases`** — the call goes over the lines, up to the first of these two kinds, as
`readLine` says.

`entry` is what a line means, said without the loader's variables: it depends on the line alone, and
what came before it plays no part. The two kinds that end the call have no entry that matters, but
they have one, since `entry` is total. Whoever uses it on all lines of a file has to say which lines
were gone over.
-/

set_option autoImplicit false

namespace WebsocketTest

open Lib.Text

namespace MagicConfig

inductive Entry
  | header (name : Str)
  | item (key value : Str)
  | nothing

/-- The line without its end and the spaces around it; then a bracket that is opened and closed
    makes it a header, and an `=` an item, if it is no comment and has no bracket. A bracket that is
    not closed says nothing: behind a line that does not fit it is never read. -/
def entry (line : Str) : Entry :=
  let tmp := trim ' ' (dropReturn (cString line))
  if '[' ∈ tmp then if ']' ∈ tmp then .header (headerName tmp) else .nothing
  else if (tmp.head? ≠ some ';' ∧ tmp.head? ≠ some '#') ∧ '=' ∈ tmp then
    .item (trim ' ' (tmp.takeWhile (· ≠ '='))) (trim ' ' (tmp.dropWhile (· ≠ '=')).tail)
  else .nothing

/-- A line on which `TrimString(tmp)` throws: there are spaces in it, and nothing else but its end
    of line. -/
def Blank (line : Str) : Prop :=
  let buf := dropReturn (cString line)
  buf ≠ [] ∧ ∀ c ∈ buf, c = ' '

/-- A line on which the call returns -1. -/
def Malformed (line : Str) : Prop := '[' ∈ cString line ∧ ']' ∉ cString line

instance (line : Str) : Decidable (Blank line) := inferInstanceAs (Decidable (_ ∧ _))

instance (line : Str) : Decidable (Malformed line) := inferInstanceAs (Decidable (_ ∧ _))

theorem Blank.not_malformed {line : Str} (h : Blank line) : ¬ Malformed line := by
  rintro ⟨hopen, -⟩
  obtain ⟨front, back, hsplit⟩ := List.append_of_mem hopen
  have hmem : '[' ∈ dropReturn (cString line) := by
    rw [hsplit, dropReturn_append (by decide)]
    simp
  exact absurd (h.2 _ hmem) (by decide)

/-- A line that the call goes over. -/
def Readable (line : Str) : Prop := ¬ Blank line ∧ ¬ Malformed line

/-- The loader behind a line that it goes over, by what the line is. -/
def readLine (st : Loader) (line : Str) : Loader :=
  match entry line with
  | .header name => ⟨st.flushed, name, true, ∅⟩
  | .item key value => { st with keyvalue := st.keyvalue.insert key value }
  | .nothing => st

/-- What is stored at the end of the file. -/
def Loader.finished (st : Loader) : Sections :=
  if st.sectionName ≠ [] then st.mSection.insert st.sectionName st.keyvalue else st.mSection

/-! ## One line

Whether a bracket is in a line can be asked of the line as it is read or as it is trimmed. The
trimming takes spaces, one carriage return and what is behind a NUL. -/

theorem mem_trim {c d : Char} (hd : d ≠ c) {s : Str} : d ∈ trim c s ↔ d ∈ s := by
  refine ⟨(trim_part c s).mem, fun h => ?_⟩
  have hskip : d ∈ s.dropWhile (· = c) := by
    have hwhole := List.takeWhile_append_dropWhile (p := fun x => decide (x = c)) (l := s)
    rw [← hwhole] at h
    rcases List.mem_append.mp h with h | h
    · exact absurd (by simpa using List.mem_takeWhile_imp h) hd
    · exact h
  obtain ⟨front, back, hsplit⟩ := List.append_of_mem hskip
  rw [trim, hsplit, trimEnd_append hd]
  simp

theorem mem_dropReturn {d : Char} (hd : d ≠ '\r') {s : Str} : d ∈ dropReturn s ↔ d ∈ s := by
  refine ⟨(dropReturn_start s).mem, fun h => ?_⟩
  obtain ⟨front, back, rfl⟩ := List.append_of_mem h
  rw [dropReturn_append hd]
  simp

/-- A bracket is seen if it is there. -/
theorem mem_tmp {c : Char} {line : Str} (hc : c ≠ ' ') (hc' : c ≠ '\r') :
    c ∈ trim ' ' (dropReturn (cString line)) ↔ c ∈ cString line :=
  (mem_trim hc).trans (mem_dropReturn hc')

theorem trimString_none {s : Str} : trimString s = none ↔ s ≠ [] ∧ ∀ c ∈ s, c = ' ' := by
  rw [trimString]
  split
  · simp_all
  · rename_i hne
    simp [hne]

/-- A part that starts or ends where a trimmed text does is not made of spaces. -/
theorem trimString_start {s t : Str} (hs : Trimmed ' ' s) (h : t <+: s) :
    trimString t = some (trim ' ' t) := by
  cases htrim : trimString t with
  | some u => rw [trimString_some htrim]
  | none =>
    obtain ⟨hne, hall⟩ := trimString_none.mp htrim
    cases t with
    | nil => exact absurd rfl hne
    | cons c t =>
      exact absurd (congrArg some (hall c List.mem_cons_self)) (head?_ne_of_start h hs.1)

theorem trimString_end {s t : Str} (hs : Trimmed ' ' s) (h : t <:+ s) :
    trimString t = some (trim ' ' t) := by
  cases htrim : trimString t with
  | some u => rw [trimString_some htrim]
  | none =>
    obtain ⟨hne, hall⟩ := trimString_none.mp htrim
    obtain ⟨u, rfl⟩ := h
    have hlast := hs.2
    rw [List.getLast?_append_of_ne_nil _ hne, List.getLast?_eq_some_getLast hne] at hlast
    exact absurd (congrArg some (hall _ (List.getLast_mem hne))) hlast

/-- A line that is neither: the classification is the one of `entry`. -/
theorem loadTrimmed_entry (st : Loader) {line : Str} (h : ¬ Malformed line) :
    loadTrimmed st (trim ' ' (dropReturn (cString line))) = .ok (readLine st line) := by
  have htmp := trimmed_trim ' ' (dropReturn (cString line))
  have hopen : '[' ∈ trim ' ' (dropReturn (cString line)) ↔ '[' ∈ cString line :=
    mem_tmp (by decide) (by decide)
  have hclose : ']' ∈ trim ' ' (dropReturn (cString line)) ↔ ']' ∈ cString line :=
    mem_tmp (by decide) (by decide)
  simp only [readLine, entry]
  generalize trim ' ' (dropReturn (cString line)) = tmp at htmp hopen hclose ⊢
  rw [loadTrimmed]
  split
  · rename_i hmem
    have hmem' : ']' ∈ tmp := by
      by_contra hno
      exact h ⟨hopen.mp hmem, fun hc => hno (hclose.mpr hc)⟩
    rw [if_pos hmem', if_pos hmem']
  · split
    · rename_i hcomment
      split
      · rename_i hequals
        -- the key starts where the line does, and the value ends where it does
        rw [trimString_start htmp (List.takeWhile_prefix _),
          trimString_end htmp ((List.tail_suffix _).trans (List.dropWhile_suffix _)),
          if_pos ⟨hcomment, hequals⟩]
      · rename_i hequals
        rw [if_neg fun hc => hequals hc.2]
    · rename_i hcomment
      rw [if_neg fun hc => hcomment hc.1]

theorem readLine_nothing (st : Loader) {line : Str} (h : dropReturn (cString line) = []) :
    readLine st line = st := by
  simp only [readLine, entry, h]
  rfl

/-- **What a line does**: it is gone over, or ends the call. -/
theorem loadLine_cases (st : Loader) (line : Str) :
    (Readable line ∧ loadLine st line = .ok (readLine st line)) ∨
      (Blank line ∧ loadLine st line = .error (.outOfRange st.mSection)) ∨
      (Malformed line ∧ loadLine st line = .error (.ret (-1) st.mSection)) := by
  by_cases hnil : dropReturn (cString line) = []
  · left
    have hmalformed : ¬ Malformed line := by
      rintro ⟨hopen, -⟩
      rw [← mem_dropReturn (by decide), hnil] at hopen
      cases hopen
    refine ⟨⟨fun hb => hb.1 hnil, hmalformed⟩, ?_⟩
    rw [readLine_nothing st hnil, loadLine]
    simp only [hnil, if_true, ite_self]
  · have hbuf : cString line ≠ [] := fun he => hnil (by rw [he]; rfl)
    cases htrim : trimString (dropReturn (cString line)) with
    | none =>
      refine .inr (.inl ⟨trimString_none.mp htrim, ?_⟩)
      simp only [loadLine, if_neg hbuf, if_neg hnil, htrim]
    | some tmp =>
      obtain rfl := trimString_some htrim
      have hload : loadLine st line = loadTrimmed st (trim ' ' (dropReturn (cString line))) := by
        simp only [loadLine, if_neg hbuf, if_neg hnil, htrim]
      by_cases hmalformed : Malformed line
      · refine .inr (.inr ⟨hmalformed, ?_⟩)
        rw [hload, loadTrimmed, if_pos ((mem_tmp (by decide) (by decide)).mpr hmalformed.1),
          if_neg fun hc => hmalformed.2 ((mem_tmp (by decide) (by decide)).mp hc)]
      · have hblank : ¬ Blank line := fun hb => by
          rw [trimString_none.mpr hb] at htrim
          cases htrim
        exact .inl ⟨⟨hblank, hmalformed⟩, hload.trans (loadTrimmed_entry st hmalformed)⟩

/-! ## All lines -/

/-- **What the lines do**: they are gone over, or the first of them that cannot be ends the call. -/
theorem loadLines_cases (st : Loader) (ls : List Str) :
    ((∀ l ∈ ls, Readable l) ∧ loadLines st ls = .ret 0 (ls.foldl readLine st).finished) ∨
      ∃ front line back, ls = front ++ line :: back ∧ (∀ l ∈ front, Readable l) ∧
        ((Blank line ∧ loadLines st ls = .outOfRange (front.foldl readLine st).mSection) ∨
          (Malformed line ∧
            loadLines st ls = .ret (-1) (front.foldl readLine st).mSection)) := by
  induction ls generalizing st with
  | nil => exact .inl ⟨List.forall_mem_nil _, rfl⟩
  | cons l ls ih =>
    rcases loadLine_cases st l with ⟨hread, hl⟩ | ⟨hblank, hl⟩ | ⟨hmalformed, hl⟩
    · have hload : loadLines st (l :: ls) = loadLines (readLine st l) ls := by
        rw [loadLines, hl]
      have hcons {front : List Str} (hfront : ∀ l ∈ front, Readable l) :
          ∀ l' ∈ l :: front, Readable l' := by
        intro l' hl'
        rcases List.mem_cons.mp hl' with rfl | hl'
        · exact hread
        · exact hfront l' hl'
      rw [hload]
      rcases ih (readLine st l) with ⟨hall, hret⟩ | ⟨front, line, back, rfl, hfront, hend⟩
      · exact .inl ⟨hcons hall, hret⟩
      · exact .inr ⟨l :: front, line, back, rfl, hcons hfront, hend⟩
    · refine .inr ⟨[], l, ls, rfl, List.forall_mem_nil _, .inl ⟨hblank, ?_⟩⟩
      rw [loadLines, hl]
      rfl
    · refine .inr ⟨[], l, ls, rfl, List.forall_mem_nil _, .inr ⟨hmalformed, ?_⟩⟩
      rw [loadLines, hl]
      rfl

end MagicConfig

end WebsocketTest
