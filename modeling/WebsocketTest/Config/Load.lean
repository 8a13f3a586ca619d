import WebsocketTest.Lib.Text

/-!
# `Magic_Config`: reading and writing a file

`LoadFile` is a machine over lines. It keeps the section it is in and the items it has read for it,
and stores them in `m_section` only when the next header is seen or the file ends; `WriteFile`
prints `m_section` in the order of the map, and nothing is escaped or checked on the way. A file is
a text, and `std::map` is `Std.ExtTreeMap`, equal to another when the lookups are.

What the file system does is an input: whether a file is there, and for a write the `Disk`. A read
that fails in the middle of a file is not modelled; for `getline` it would be the end of the file.

## Two models of the loader

`LoadFile` finds its way with positions: `find_first_of`, `substr`, and a length that is the
difference of two positions and may wrap. Here it takes texts apart instead, at a character, because
that is what one can reason with. The positions are in `Positions.lean`, and the theorem that the
two are the same is there. It is not a matter of course: a line has to be far shorter than a
position can say.
-/

set_option autoImplicit false

namespace WebsocketTest

open Lib.Text

/-- `MAX_LINE_LEN`. -/
def maxLineLen : Nat := 10240

abbrev ConfigType := Std.ExtTreeMap Str Str

/-- `m_section`. -/
abbrev Sections := Std.ExtTreeMap Str ConfigType

namespace MagicConfig

/-! ## Loading

The order of the tests is the source's. A line with a `[` is a header whatever else is in it, an
`=` or a comment sign included. -/

/-- The variables of `LoadFile`, `m_section` among them. -/
structure Loader where
  mSection : Sections
  sectionName : Str
  getsection : Bool
  keyvalue : ConfigType

/-- How a call of `LoadFile` ends, and the `m_section` it leaves: with a return value, or with the
    `out_of_range` that `TrimString` throws. -/
inductive LoadEnd
  | ret (r : Int) (mSection : Sections)
  | outOfRange (mSection : Sections)

/-- `TrimString`. On a text of nothing but spaces `find_first_not_of` finds nothing, and `substr`
    throws. -/
def trimString (str : Str) : Option Str :=
  if str = [] then some str
  else if str.all (· = ' ') then none
  else some (trim ' ' str)

/-- One carriage return is dropped at the end. -/
def dropReturn (buf : Str) : Str := if buf.getLast? = some '\r' then buf.dropLast else buf

/-- `tmp.substr(pos+1, endpos-pos-1)`, with `pos` the first `[` and `endpos` the last `]`: the text
    between the two, and if the `]` comes first, where the length wraps, all that is behind the
    `[`. -/
def headerName (tmp : Str) : Str :=
  let rest := (tmp.dropWhile (· ≠ '[')).tail
  if ']' ∈ rest then (rest.rdropWhile (· ≠ ']')).dropLast else rest

/-- `if(getsection == 1) m_section[section] = keyvalue`: the section before a header is stored when
    the header is seen. -/
def Loader.flushed (st : Loader) : Sections :=
  if st.getsection then st.mSection.insert st.sectionName st.keyvalue else st.mSection

/-- The rest of the loop body, after `TrimString(tmp)`. -/
def loadTrimmed (st : Loader) (tmp : Str) : Except LoadEnd Loader :=
  if '[' ∈ tmp then
    if ']' ∈ tmp then .ok ⟨st.flushed, headerName tmp, true, ∅⟩
    else .error (.ret (-1) st.mSection)
  else if tmp.head? ≠ some ';' ∧ tmp.head? ≠ some '#' then
    if '=' ∈ tmp then
      match trimString (tmp.takeWhile (· ≠ '=')), trimString (tmp.dropWhile (· ≠ '=')).tail with
      | some key, some value => .ok { st with keyvalue := st.keyvalue.insert key value }
      | _, _ => .error (.outOfRange st.mSection)
    else .ok st
  else .ok st

/-- The loop body of `LoadFile`, on a line that `getline` read. -/
def loadLine (st : Loader) (line : Str) : Except LoadEnd Loader :=
  let buf := cString line
  if buf = [] then .ok st
  else
    let tmp := dropReturn buf
    if tmp = [] then .ok st
    else
      match trimString tmp with
      | none => .error (.outOfRange st.mSection)
      | some tmp => loadTrimmed st tmp

/-- The loop, and what follows it. -/
def loadLines (st : Loader) : List Str → LoadEnd
  | [] =>
    .ret 0 (if st.sectionName ≠ [] then st.mSection.insert st.sectionName st.keyvalue
      else st.mSection)
  | line :: ls =>
    match loadLine st line with
    | .error e => e
    | .ok st => loadLines st ls

/-- The lines the loop sees: a line that does not fit into the buffer makes `getline` fail. -/
def fileLines (file : Str) : List Str := (lines file).takeWhile (·.length < maxLineLen)

/-- `LoadFile`; there may be no file that can be opened. -/
def loadFile (mSection : Sections) : Option Str → LoadEnd
  | none => .ret (-1) mSection
  | some file => loadLines ⟨mSection, [], false, ∅⟩ (fileLines file)

/-! ## Writing

A write is checked where it hands its text to the stream, and nowhere else. What comes into the
file is up to the `Disk`. -/

def writtenItem (key value : Str) : Str := key ++ '=' :: value

def writtenHeader (sectionName : Str) : Str := '[' :: sectionName ++ [']']

/-- The lines of one section. -/
def writtenSection (p : Str × ConfigType) : List Str :=
  writtenHeader p.1 :: p.2.toList.map fun item => writtenItem item.1 item.2

/-- The lines of the file, in the order of the map. -/
def written (mSection : Sections) : List Str := mSection.toList.flatMap writtenSection

/-- What a `WriteFile` meets. The stream has a buffer: a `write` that succeeds has handed its text
    over, and the file gets it then, with a later `write`, with `close`, or not at all. `opens` says
    whether the file is opened, for which it is truncated; `room`, how many of the `write` calls
    succeed; `stored`, how many characters of the text have come into the file when the stream is
    gone. -/
structure Disk where
  opens : Bool
  room : Nat
  stored : Nat

/-- The `outstr.write` calls, up to the first that fails, and the text they hand to the stream. Part
    of what the failing one was given may be in it, so that it counts. -/
def writeLines : List Str → Nat → Str → Int × Str
  | [], _, text => (0, text)
  | line :: _, 0, text => (-1, text ++ (line ++ ['\n']))
  | line :: ls, room + 1, text => writeLines ls room (text ++ (line ++ ['\n']))

/-- `WriteFile`, and the file after it. `close` is not asked whether it could write what was still
    in the buffer, so that the return value says nothing about `stored`. -/
def writeFile (mSection : Sections) (disk : Disk) (file : Option Str) : Int × Option Str :=
  if disk.opens then
    let (r, text) := writeLines (written mSection) disk.room []
    (r, some (text.take disk.stored))
  else (-1, file)

end MagicConfig

end WebsocketTest
