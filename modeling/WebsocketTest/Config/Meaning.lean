import WebsocketTest.Config.Entries
import WebsocketTest.Config.Item

/-!
# The meaning of a file

What a file says, without a loader: it is a list of blocks, each a header with the lines up to the
next one (`blocks`), the last block of a name counts (`lastBlock`), and of its lines the items
(`pairs`).

**`loadFile_ret`** is what `LoadFile` leaves when it returns 0: the blocks of the lines it reads,
inserted one after the other, but the last one only if it has a name (`kept`).

**`understood_iff`** — a return of 0 does not mean that the whole file was understood. A line that
does not fit into the buffer ends the loop as the end of the file does, and the section behind the
last header is stored on a condition that no other section is stored on. It is understood exactly
if what is left out so says nothing. "The whole file" are all its lines, those that the loop never
sees among them; one of these with a bracket that is not closed is neither header nor item.
-/

set_option autoImplicit false

namespace WebsocketTest

open Lib.Text Std

namespace MagicConfig

/-! ## Blocks

The lines in front of the first header are in no block. The loader reads items from them and stores
them nowhere. -/

/-- The name in a header, and none in any other line. -/
def Entry.name? : Entry → Option Str
  | .header name => some name
  | _ => none

/-- The name if the line is a header. -/
def header? (line : Str) : Option Str := (entry line).name?

/-- The lines up to the next header. -/
def untilHeader (ls : List Str) : List Str := ls.takeWhile fun l => (header? l).isNone

/-- The headers of a file, each with the lines up to the next one. -/
def blocks : List Str → List (Str × List Str)
  | [] => []
  | l :: ls =>
    match header? l with
    | some name => (name, untilHeader ls) :: blocks ls
    | none => blocks ls

/-- The items read so far, with the one in this line if it is an item. -/
def addItem (kv : ConfigType) (line : Str) : ConfigType :=
  match entry line with
  | .item key value => kv.insert key value
  | _ => kv

/-- The items in some lines; the last one of a key counts. -/
def pairs (ls : List Str) : ConfigType := ls.foldl addItem ∅

/-- The lines of the last block of a name, if there is one. -/
def lastBlock (bs : List (Str × List Str)) (s : Str) : Option (List Str) :=
  (bs.reverse.find? fun b => b.1 = s).map Prod.snd

/-- A section is stored, over what was there under its name. -/
def store (m : Sections) (b : Str × List Str) : Sections := m.insert b.1 (pairs b.2)

/-- All blocks but a last one without a name. -/
def kept (bs : List (Str × List Str)) : List (Str × List Str) :=
  match bs.getLast? with
  | some ([], _) => bs.dropLast
  | _ => bs

theorem exists_block (ls : List Str) (s : Str) :
    (∃ b ∈ blocks ls, b.1 = s) ↔ ∃ l ∈ ls, header? l = some s := by
  induction ls with
  | nil => simp [blocks]
  | cons l ls ih =>
    rw [List.exists_mem_cons_iff, ← ih, blocks]
    cases header? l with
    | none => simp
    | some name => simp

/-- **A header occurs** in the lines exactly if there is a block of its name. -/
theorem lastBlock_isSome (ls : List Str) (s : Str) :
    (lastBlock (blocks ls) s).isSome ↔ ∃ l ∈ ls, header? l = some s := by
  rw [← exists_block, lastBlock, Option.isSome_map, List.find?_isSome]
  simp

/-- **What is stored under a name** is the last block of it. -/
theorem store_foldl (bs : List (Str × List Str)) (m : Sections) (s : Str) :
    (bs.foldl store m)[s]? =
      match lastBlock bs s with
      | some ls => some (pairs ls)
      | none => m[s]? := by
  induction bs using List.reverseRecOn with
  | nil => rfl
  | append_singleton bs b ih =>
    rw [List.foldl_append, List.foldl_cons, List.foldl_nil, store,
      Lib.SortedMap.getElem?_insert_eq, ih]
    by_cases hb : b.1 = s
    · have hlast : lastBlock (bs ++ [b]) s = some b.2 := by
        rw [lastBlock, List.reverse_concat, List.find?_cons_of_pos (by simpa using hb)]
        rfl
      rw [if_pos hb, hlast]
    · have hlast : lastBlock (bs ++ [b]) s = lastBlock bs s := by
        rw [lastBlock, List.reverse_concat, List.find?_cons_of_neg (by simpa using hb)]
        rfl
      rw [if_neg hb, hlast]

/-! ## The loader -/

theorem readLine_header {st : Loader} {l name : Str} (h : header? l = some name) :
    readLine st l = ⟨st.flushed, name, true, ∅⟩ := by
  rw [header?] at h
  rw [readLine]
  cases hentry : entry l with
  | header name' =>
    rw [hentry] at h
    cases h
    rfl
  | item key value => rw [hentry] at h; cases h
  | nothing => rw [hentry] at h; cases h

theorem readLine_other {st : Loader} {l : Str} (h : header? l = none) :
    readLine st l = { st with keyvalue := addItem st.keyvalue l } := by
  rw [header?] at h
  rw [readLine, addItem]
  cases hentry : entry l with
  | header name' => rw [hentry] at h; cases h
  | item key value => rfl
  | nothing => rfl

/-- The loader where the next header is read. -/
def atHeader (st : Loader) (ls : List Str) : Loader :=
  { st with keyvalue := (untilHeader ls).foldl addItem st.keyvalue }

/-- **The loader behind some lines**: the section of the last header, with the items read for it;
    the blocks before it are stored. -/
theorem foldl_readLine (ls : List Str) (st : Loader) :
    ls.foldl readLine st =
      match (blocks ls).getLast? with
      | none => atHeader st ls
      | some (name, body) =>
        ⟨(blocks ls).dropLast.foldl store (atHeader st ls).flushed, name, true, pairs body⟩ := by
  induction ls generalizing st with
  | nil => rfl
  | cons l ls ih =>
    rw [List.foldl_cons, ih]
    cases hheader : header? l with
    | none =>
      have hblocks : blocks (l :: ls) = blocks ls := by rw [blocks, hheader]
      have hat : atHeader (readLine st l) ls = atHeader st (l :: ls) := by
        rw [readLine_other hheader, atHeader, atHeader, untilHeader, untilHeader,
          List.takeWhile_cons_of_pos (by rw [hheader]; rfl), List.foldl_cons]
      rw [hblocks, hat]
    | some name =>
      have hblocks : blocks (l :: ls) = (name, untilHeader ls) :: blocks ls := by
        rw [blocks, hheader]
      have hat : atHeader st (l :: ls) = st := by
        rw [atHeader, untilHeader, List.takeWhile_cons_of_neg (by rw [hheader]; simp)]
        rfl
      have hflushed : (atHeader (readLine st l) ls).flushed =
          store st.flushed (name, untilHeader ls) := by
        rw [readLine_header hheader]
        rfl
      rw [hblocks, hat, hflushed]
      cases hlast : (blocks ls).getLast? with
      | none =>
        rw [List.getLast?_eq_none_iff.mp hlast, readLine_header hheader]
        rfl
      | some b =>
        have hne : blocks ls ≠ [] := fun he => by
          rw [he] at hlast
          cases hlast
        rw [List.getLast?_cons_of_ne_nil hne, hlast, List.dropLast_cons_of_ne_nil hne,
          List.foldl_cons]

/-- The section behind the last header is stored if it has a name. -/
theorem finished_foldl (ls : List Str) (m : Sections) :
    (ls.foldl readLine ⟨m, [], false, ∅⟩).finished = (kept (blocks ls)).foldl store m := by
  rw [foldl_readLine, kept]
  rcases List.eq_nil_or_concat (blocks ls) with hnil | ⟨bs, ⟨name, body⟩, hlast⟩
  · rw [hnil]
    rfl
  · rw [List.concat_eq_append] at hlast
    rw [hlast, List.getLast?_concat, List.dropLast_concat]
    cases name with
    | nil => rfl
    | cons c name =>
      rw [List.foldl_append]
      rfl

/-- **What `LoadFile` leaves** when it returns 0. -/
theorem loadFile_ret {file : Str} {m m' : Sections} (h : loadFile m (some file) = .ret 0 m') :
    m' = (kept (blocks (fileLines file))).foldl store m := by
  rw [loadFile] at h
  rcases loadLines_cases ⟨m, [], false, ∅⟩ (fileLines file) with
    ⟨-, hret⟩ | ⟨front, line, back, -, -, ⟨-, hout⟩ | ⟨-, hret⟩⟩
  · rw [h, finished_foldl] at hret
    exact (LoadEnd.ret.inj hret).2
  · rw [h] at hout
    cases hout
  · rw [h] at hret
    exact absurd (LoadEnd.ret.inj hret).1 (by decide)

/-! ## Was it understood?

The condition is on the file alone. That the call returned 0 is a hypothesis of the result, so that
blank lines and unclosed brackets are not part of it, among the lines that are read. -/

/-- Every section that has a header in the file is returned, with the items of its last block. -/
def Understood (file : Str) (m : Sections) : Prop :=
  ∀ s, (∃ l ∈ lines file, header? l = some s) →
    ∃ body, lastBlock (blocks (lines file)) s = some body ∧
      ∀ out, getSection m s out = (0, pairs body, m)

/-- What `LoadFile` leaves out says nothing: the lines from the first one on that does not fit, and
    the last section of the lines it reads, if that has no name. -/
def NothingLost (file : Str) : Prop :=
  ∀ s body, lastBlock (blocks (lines file)) s = some body →
    ∃ body', lastBlock (kept (blocks (fileLines file))) s = some body' ∧ pairs body' = pairs body

/-- **When a return of 0 means that the whole file was understood.** -/
theorem understood_iff {file : Str} {m : Sections} (hload : loadFile ∅ (some file) = .ret 0 m) :
    Understood file m ↔ NothingLost file := by
  have hget (s : Str) (out kv : ConfigType) : getSection m s out = (0, kv, m) ↔
      ∃ body', lastBlock (kept (blocks (fileLines file))) s = some body' ∧ pairs body' = kv := by
    have hm : m[s]? = (lastBlock (kept (blocks (fileLines file))) s).map pairs := by
      rw [loadFile_ret hload, store_foldl]
      cases lastBlock (kept (blocks (fileLines file))) s with
      | none => simp
      | some body => rfl
    rw [getSection_eq, hm]
    cases lastBlock (kept (blocks (fileLines file))) s with
    | none => simp
    | some body => simp
  constructor
  · intro h s body hbody
    obtain ⟨body', hbody', hout⟩ := h s ((lastBlock_isSome _ s).mp (by rw [hbody]; rfl))
    obtain rfl := Option.some.inj (hbody.symm.trans hbody')
    exact (hget s ∅ _).mp (hout ∅)
  · intro h s hs
    obtain ⟨body, hbody⟩ := Option.isSome_iff_exists.mp ((lastBlock_isSome _ s).mpr hs)
    exact ⟨body, hbody, fun out => (hget s out _).mpr (h s body hbody)⟩

theorem understood_iff_one_section :
    Understood "[s]\nk=v".toList (oneItem ['s'] ['k'] ['v']) ↔ NothingLost "[s]\nk=v".toList :=
  have hload : loadFile ∅ (some "[s]\nk=v".toList) = .ret 0 (oneItem ['s'] ['k'] ['v']) := rfl
  understood_iff hload

theorem header?_none {line : Str} (h : '[' ∉ cString line) : header? line = none := by
  rw [← mem_tmp (by decide) (by decide)] at h
  rw [header?]
  simp only [entry, if_neg h]
  split
  · rfl
  · rfl

section LongLine

variable {long : Str}

/-- A section, a line, and an item behind it. -/
def withLine (long : Str) : List Str := ["[s]".toList, long, "k=v".toList]

theorem lines_withLine (hnewline : '\n' ∉ long) :
    lines (closed (withLine long)) = withLine long := by
  refine lines_closed fun l hl => ?_
  simp only [withLine, List.mem_cons, List.not_mem_nil, or_false] at hl
  rcases hl with rfl | rfl | rfl
  · decide
  · exact hnewline
  · decide

theorem fileLines_withLine (hnewline : '\n' ∉ long) (hlong : maxLineLen ≤ long.length) :
    fileLines (closed (withLine long)) = ["[s]".toList] := by
  rw [fileLines, lines_withLine hnewline, withLine, List.takeWhile_cons_of_pos (by decide),
    List.takeWhile_cons_of_neg (by simpa using hlong)]

theorem blocks_withLine (hopen : '[' ∉ long) :
    blocks (withLine long) = [(['s'], [long, "k=v".toList])] := by
  have hlong : header? long = none :=
    header?_none fun hm => hopen ((List.takeWhile_prefix _).mem hm)
  have hheader : header? "[s]".toList = some ['s'] := by decide
  have hitem : header? "k=v".toList = none := by decide
  simp only [withLine, blocks, hheader, hlong, hitem, untilHeader, List.takeWhile_cons,
    Option.isNone_none, if_true, List.takeWhile_nil]

/-- **What is behind a long line** is lost. -/
theorem lost_behind (hnewline : '\n' ∉ long) (hopen : '[' ∉ long)
    (hlong : maxLineLen ≤ long.length) :
    loadFile ∅ (some (closed (withLine long))) = .ret 0 ((∅ : Sections).insert ['s'] ∅) ∧
      ¬ Understood (closed (withLine long)) ((∅ : Sections).insert ['s'] ∅) := by
  constructor
  · rw [loadFile, fileLines_withLine hnewline hlong]
    rfl
  · intro h
    rw [Understood, lines_withLine hnewline, blocks_withLine hopen] at h
    obtain ⟨body, hbody, hget⟩ := h ['s'] ⟨"[s]".toList, List.mem_cons_self, by decide⟩
    cases hbody
    have hpairs : (pairs [long, "k=v".toList])[['k']]? = some ['v'] := by
      have hitem (kv : ConfigType) : addItem kv "k=v".toList = kv.insert ['k'] ['v'] := rfl
      rw [pairs, List.foldl_cons, List.foldl_cons, List.foldl_nil, hitem]
      exact ExtTreeMap.getElem?_insert_self
    have hsame := congrArg (fun p => p.2.1[(['k'] : Str)]?) (hget ∅)
    simp only [hpairs, getSection_eq, ExtTreeMap.getElem?_insert_self] at hsame
    simp at hsame

end LongLine

/-- **Two files that are not understood**: the only section has no name, and an item comes behind a
    line of 10240 characters. -/
theorem understood_not :
    (loadFile ∅ (some "[]\nk=v\n".toList) = .ret 0 ∅ ∧ ¬ Understood "[]\nk=v\n".toList ∅) ∧
      (loadFile ∅ (some (closed (withLine (List.replicate maxLineLen 'x')))) =
          .ret 0 ((∅ : Sections).insert ['s'] ∅) ∧
        ¬ Understood (closed (withLine (List.replicate maxLineLen 'x')))
          ((∅ : Sections).insert ['s'] ∅)) := by
  constructor
  · refine ⟨rfl, fun h => ?_⟩
    obtain ⟨body, -, hget⟩ := h [] ⟨"[]".toList, by decide, by decide⟩
    have hret : (getSection ∅ [] ∅).1 = 0 := congrArg Prod.fst (hget ∅)
    exact absurd hret (by decide)
  · refine lost_behind ?_ ?_ (Nat.le_of_eq List.length_replicate.symm)
    · exact fun hm => absurd (List.eq_of_mem_replicate hm) (by decide)
    · exact fun hm => absurd (List.eq_of_mem_replicate hm) (by decide)

end MagicConfig

end WebsocketTest
