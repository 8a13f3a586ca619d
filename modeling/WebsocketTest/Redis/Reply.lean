import WebsocketTest.Lib.Integers
import WebsocketTest.Redis.Socket

/-!
# The replies of `redis::base_client`

The `recv_…_reply_` functions, byte for byte; `boost::lexical_cast` is the parameter `lexicalCast`.

**`reads_recvGenericReply`** — whatever a server answers, the reader gets it, and takes the bytes of
the answer and no others, however they arrive. Some answers it gets otherwise: an error loses its
first four characters, of whatever kind it is, an integer is cut to an `int`, and a multi-bulk reply
with an element that is no bulk, or with more elements than a vector can have, is given up in the
middle (`unread`).

The lengths are those of the source: `length + 2` wraps as a `long`, and a vector refuses a length
that is negative or above its `max_size`. Whether the machine has the memory for a length that is
accepted is not modelled.

## What a server may send

`Sendable` is all that is asked of a value: its first line has no end of line in it, and the numbers
that the reader converts are `long`s. Of an array only the elements are looked at that the reader
looks at, so that what is deeper may be anything. A server that keeps to the protocol sends nothing
else.

Of `boost::lexical_cast` it is assumed that it reads a printed `long` (`ReadsLongs`), and nothing of
what it makes of other texts: where a server sends such a text, it is still the same bytes that are
taken and the same for every cut, whether it is thrown at or not.
-/

set_option autoImplicit false

namespace WebsocketTest.Redis

open Lib.Text Lib.Outcome Lib.Stream Lib.Resp Lib.Integers

variable {ending : Option Str} {xs : Str}

/-! ## Replies -/

/-- `reply_t`. -/
inductive ReplyT
  | noReply
  | statusCodeReply
  | errorReply
  | intReply
  | bulkReply
  | multiBulkReply
  deriving DecidableEq

/-- `reply_val_t`. -/
inductive ReplyVal
  | str (s : Str)
  | int (z : Int)
  | vec (v : List Str)
  deriving DecidableEq

/-- `reply_data_t`. -/
abbrev ReplyData := ReplyT × ReplyVal

def missingValue : Str := "**nonexistent-key**".toList

/-- `substr(pos)`. -/
def substr (pos : Nat) (s : Str) : Recv Str :=
  if s.length < pos then throw .outOfRange else pure (s.drop pos)

section Replies

variable (lexicalCast : Str → Option Int)

/-- `boost::lexical_cast<long>`. -/
def castLong (s : Str) : Recv Int :=
  match lexicalCast s with
  | some z => pure z
  | none => throw .badLexicalCast

def nextReplyType : Recv ReplyT := do
  match ← program (recvOrThrow 1 true) with
  | '+' :: _ => pure .statusCodeReply
  | '-' :: _ => pure .errorReply
  | ':' :: _ => pure .intReply
  | '$' :: _ => pure .bulkReply
  | '*' :: _ => pure .multiBulkReply
  | _ => throw (.runtime "invalid/unknown rely type from redis server".toList)

def recvSingleLineReply : Recv Str := do
  let line ← readLine
  if line = [] then
    throw (.protocol "empty single line reply".toList)
  else if "-ERR ".toList <+: line then do
    let errorMsg ← substr 5 line
    throw (.protocol (if errorMsg = [] then "unknown error".toList else errorMsg))
  else if line.head? ≠ some '+' then
    throw (.protocol "unexpected prefix for status reply".toList)
  else substr 1 line

def recvOkReply : Recv Unit := do
  if (← recvSingleLineReply) ≠ "OK".toList then
    throw (.protocol "expected OK response".toList)
  else pure ()

/-- `recv_bulk_reply_` with a prefix, which reads the line with the length. -/
def recvBulkHeader (kind : Char) : Recv Int := do
  let line ← readLine
  if line.headD '\x00' ≠ kind then
    throw (.protocol "unexpected prefix for bulk reply".toList)
  else castLong lexicalCast (← substr 1 line)

def recvBulkReply : Recv Str := do
  let length ← recvBulkHeader lexicalCast '$'
  if length = -1 then pure missingValue
  else do
    let realLength := toS64 (length + 2)
    let data ← readN realLength
    if data = [] then
      throw (.protocol "invalid bulk reply data; empty".toList)
    else if (data.length : Int) ≠ realLength then
      throw (.protocol "invalid bulk reply data; data of unexpected length".toList)
    else pure (data.take (data.length - 2))

/-- The loop of `recv_multi_bulk_reply_`. -/
def recvBulkReplies : Nat → Recv (List Str)
  | 0 => pure []
  | n + 1 => do
    let data ← recvBulkReply lexicalCast
    pure (data :: (← recvBulkReplies n))

/-- `max_size()` of a vector of strings, of 32 bytes each. -/
def maxStrings : Int := 288230376151711743

/-- `recv_multi_bulk_reply_`, with `out` as it is afterwards. `reserve` is asked for a `size_t`, of
    which a negative number is a large one. -/
def recvMultiBulkReply (out : List Str) : Recv (Int × List Str) := do
  let length ← recvBulkHeader lexicalCast '*'
  if length = -1 then throw (.key "no such key".toList)
  else if out.length + length < 0 ∨ maxStrings < out.length + length then throw .length
  else do
    let data ← recvBulkReplies lexicalCast length.toNat
    pure (length, out ++ data)

def recvIntReply : Recv Int := do
  let line ← readLine
  if line = [] then throw (.protocol "invalid integer reply; empty".toList)
  else if line.head? ≠ some ':' then
    throw (.protocol "unexpected prefix for integer reply".toList)
  else castLong lexicalCast (← substr 1 line)

/-- `recv_generic_reply_`. A `long` is put into a variant that holds an `int`. -/
def recvGenericReply : Recv ReplyData := do
  match ← nextReplyType with
  | .statusCodeReply => return (.statusCodeReply, .str (← substr 1 (← readLine)))
  | .errorReply => return (.errorReply, .str (← substr 5 (← readLine)))
  | .intReply => return (.intReply, .int (toS32 (← recvIntReply lexicalCast)))
  | .bulkReply => return (.bulkReply, .str (← recvBulkReply lexicalCast))
  | .multiBulkReply => return (.multiBulkReply, .vec (← recvMultiBulkReply lexicalCast []).2)
  | .noReply => return (.noReply, .str [])

end Replies

/-! ## What is received

`received` and `unread` are written from the side of the server: of each value it sends, what the
client has in the end and which of its bytes stay in the socket. Both are short, and the reader is
shown to come to them. -/

/-- A number that a `long` can be. -/
abbrev IsLong (z : Int) : Prop := -9223372036854775808 ≤ z ∧ z < 9223372036854775808

/-- What is relied on of `boost::lexical_cast`: it reads a printed `long`. -/
def ReadsLongs (lexicalCast : Str → Option Int) : Prop :=
  ∀ z, IsLong z → lexicalCast (decimal z) = some z

/-- The first line of a value is a line, and the number in it a `long`. -/
def LineOk : Value → Prop
  | .status text => OneLine text
  | .error text => OneLine text
  | .int z => IsLong z
  | .bulk data => IsLong (data.length + 2)
  | .array elems => IsLong elems.length
  | _ => True

instance : (v : Value) → Decidable (LineOk v)
  | .status text => inferInstanceAs (Decidable (OneLine text))
  | .error text => inferInstanceAs (Decidable (OneLine text))
  | .int z => inferInstanceAs (Decidable (IsLong z))
  | .bulk data => inferInstanceAs (Decidable (IsLong (data.length + 2)))
  | .array elems => inferInstanceAs (Decidable (IsLong elems.length))
  | .nil => .isTrue trivial
  | .nilArray => .isTrue trivial

/-- A value that can be sent, as far down as the reader looks. -/
def Sendable (v : Value) : Prop := LineOk v ∧ ∀ elems, v = .array elems → ∀ e ∈ elems, LineOk e

/-- The elements of a multi-bulk reply, as they are received: each must be a bulk. -/
def receivedElems : List Value → Except Thrown (List Str)
  | [] => .ok []
  | .bulk data :: vs => (receivedElems vs).map (data :: ·)
  | .nil :: vs => (receivedElems vs).map (missingValue :: ·)
  | _ :: _ => .error (.protocol "unexpected prefix for bulk reply".toList)

/-- What is not read of the elements of a multi-bulk reply. -/
def unreadElems : List Value → Str
  | [] => []
  | .bulk _ :: vs => unreadElems vs
  | .nil :: vs => unreadElems vs
  | v :: vs => v.body ++ encodeAll vs

/-- What `recv_generic_reply_` makes of a value. -/
def received : Value → Except Thrown ReplyData
  | .status text => .ok (.statusCodeReply, .str text)
  | .error text =>
    if text.length < 4 then .error .outOfRange else .ok (.errorReply, .str (text.drop 4))
  | .int z => .ok (.intReply, .int (toS32 z))
  | .bulk data => .ok (.bulkReply, .str data)
  | .nil => .ok (.bulkReply, .str missingValue)
  | .array elems =>
    if maxStrings < elems.length then .error .length
    else (receivedElems elems).map fun data => (.multiBulkReply, .vec data)
  | .nilArray => .error (.key "no such key".toList)

/-- What `recv_generic_reply_` leaves of a value in the socket. It is the next reader that finds it
    there. -/
def unread : Value → Str
  | .array elems => if maxStrings < elems.length then encodeAll elems else unreadElems elems
  | _ => []

section Reads

variable {lexicalCast : Str → Option Int} {rest : Str}

/-! ## The readers, one by one -/

theorem reads_substr {pos : Nat} {s : Str} (h : pos ≤ s.length) :
    Reads ending (substr pos s) xs (.ok (s.drop pos)) xs := by
  rw [substr, if_neg (Nat.not_lt.mpr h)]
  exact Comes.pure _

theorem reads_substr_short {pos : Nat} {s : Str} (h : s.length < pos) :
    Reads ending (substr pos s) xs (.error .outOfRange) xs := by
  rw [substr, if_pos h]
  exact Comes.throw _

theorem reads_castLong (hcast : ReadsLongs lexicalCast) {z : Int} (hz : IsLong z) :
    Reads ending (castLong lexicalCast (decimal z)) xs (.ok z) xs := by
  rw [castLong, hcast z hz]
  exact Comes.pure _

theorem reads_bulkHeader (hcast : ReadsLongs lexicalCast) {kind : Char} (hr : kind ≠ '\r')
    (hn : kind ≠ '\n') {z : Int} (hz : IsLong z) :
    Reads ending (recvBulkHeader lexicalCast kind) (line (kind :: decimal z) ++ rest) (.ok z)
      rest := by
  refine (reads_readLine ((oneLine_decimal z).cons hr hn) rest).bind ?_
  rw [if_neg (by simp)]
  exact (reads_substr (Nat.succ_pos _)).bind (reads_castLong hcast hz)

theorem reads_bulkHeader_other {kind c : Char} {l : Str} (hl : OneLine (c :: l)) (hc : c ≠ kind) :
    Reads ending (recvBulkHeader lexicalCast kind) (line (c :: l) ++ rest)
      (.error (.protocol "unexpected prefix for bulk reply".toList)) rest := by
  refine (reads_readLine hl rest).bind ?_
  rw [if_pos (by simpa using hc)]
  exact Comes.throw _

theorem reads_bulkReply (hcast : ReadsLongs lexicalCast) {data : Str}
    (hdata : IsLong (data.length + 2)) :
    Reads ending (recvBulkReply lexicalCast) (bulk data ++ rest) (.ok data) rest := by
  have hlong : IsLong data.length := ⟨by omega, by omega⟩
  rw [bulk, List.append_assoc]
  refine (reads_bulkHeader hcast (by decide) (by decide) hlong).bind ?_
  rw [if_neg (by omega)]
  have hlen : toS64 (data.length + 2 : Int) = (line data).length := by
    rw [toS64_eq hdata.1 hdata.2]
    simp [line]
  refine (reads_readN hlen rest).bind ?_
  rw [if_neg (by simp [line]), if_neg (not_not_intro hlen.symm)]
  have htake : (line data).take ((line data).length - 2) = data := by simp [line]
  rw [htake]
  exact Comes.pure _

theorem reads_bulkReply_nil (hcast : ReadsLongs lexicalCast) :
    Reads ending (recvBulkReply lexicalCast) (encode .nil ++ rest) (.ok missingValue) rest :=
  (reads_bulkHeader hcast (by decide) (by decide) (by decide)).bind (Comes.pure _)

theorem LineOk.oneLine {v : Value} (h : LineOk v) : OneLine v.head :=
  oneLine_head (by rintro t rfl; exact h) (by rintro t rfl; exact h)

/-- An element that is no bulk: its first line is read, and its prefix thrown at. -/
theorem reads_bulkReply_other {v : Value} (hv : LineOk v) (hbulk : ∀ data, v ≠ .bulk data)
    (hnil : v ≠ .nil) :
    Reads ending (recvBulkReply lexicalCast) (encode v ++ rest)
      (.error (.protocol "unexpected prefix for bulk reply".toList)) (v.body ++ rest) := by
  have hl := hv.oneLine
  rw [encode_eq, List.append_assoc]
  cases v with
  | bulk data => exact absurd rfl (hbulk data)
  | nil => exact absurd rfl hnil
  | _ => exact (reads_bulkHeader_other hl (by decide)).bind_error

/-- **The elements**, up to the first that is no bulk. -/
theorem reads_bulkReplies (hcast : ReadsLongs lexicalCast) {vs : List Value}
    (hvs : ∀ v ∈ vs, LineOk v) :
    Reads ending (recvBulkReplies lexicalCast vs.length) (encodeAll vs ++ rest)
      (receivedElems vs) (unreadElems vs ++ rest) := by
  induction vs with
  | nil => exact Comes.pure _
  | cons v vs ih =>
    rw [List.forall_mem_cons] at hvs
    have hrest := ih hvs.2
    rw [List.length_cons, recvBulkReplies, encodeAll, List.append_assoc]
    have hcons {data : Str} (h : Reads ending (recvBulkReply lexicalCast)
        (encode v ++ (encodeAll vs ++ rest)) (.ok data) (encodeAll vs ++ rest)) :
        Reads ending (recvBulkReply lexicalCast >>= fun data => recvBulkReplies lexicalCast
            vs.length >>= fun datas => pure (data :: datas))
          (encode v ++ (encodeAll vs ++ rest)) ((receivedElems vs).map (data :: ·))
          (unreadElems vs ++ rest) := by
      refine h.bind ?_
      cases hgot : receivedElems vs with
      | error e => exact (hgot ▸ hrest).bind_error
      | ok datas => exact (hgot ▸ hrest).bind (Comes.pure _)
    cases v with
    | bulk data => exact hcons (reads_bulkReply hcast hvs.1)
    | nil => exact hcons (reads_bulkReply_nil hcast)
    | _ =>
      rw [unreadElems, List.append_assoc]
      · exact (reads_bulkReply_other hvs.1 (by simp) (by simp)).bind_error
      · simp
      · simp

theorem reads_multiBulkReply (hcast : ReadsLongs lexicalCast) {elems : List Value} (out : List Str)
    (hlen : out.length + elems.length ≤ maxStrings) (helems : ∀ e ∈ elems, LineOk e) :
    Reads ending (recvMultiBulkReply lexicalCast out) (encode (.array elems) ++ rest)
      ((receivedElems elems).map fun data => ((elems.length : Int), out ++ data))
      (unreadElems elems ++ rest) := by
  have hlong : IsLong elems.length := by
    unfold maxStrings at hlen
    omega
  rw [encode_eq, List.append_assoc]
  refine (reads_bulkHeader hcast (by decide) (by decide) hlong).bind ?_
  rw [if_neg (by omega), if_neg (by omega), Int.toNat_natCast]
  have h : Reads ending _ (encodeAll elems ++ rest) _ _ := reads_bulkReplies hcast helems
  cases hgot : receivedElems elems with
  | error e => exact (hgot ▸ h).bind_error
  | ok datas => exact (hgot ▸ h).bind (Comes.pure _)

/-- More elements than a vector can have: `reserve` throws before any of them is read. -/
theorem reads_multiBulkReply_over (hcast : ReadsLongs lexicalCast) {elems : List Value}
    (out : List Str) (hlong : IsLong elems.length)
    (hover : maxStrings < out.length + elems.length) :
    Reads ending (recvMultiBulkReply lexicalCast out) (encode (.array elems) ++ rest)
      (.error .length) (encodeAll elems ++ rest) := by
  rw [encode_eq, List.append_assoc]
  refine (reads_bulkHeader hcast (by decide) (by decide) hlong).bind ?_
  rw [if_neg (by omega), if_pos (.inr hover)]
  exact Comes.throw _

theorem reads_multiBulkReply_nil (hcast : ReadsLongs lexicalCast) (out : List Str) :
    Reads ending (recvMultiBulkReply lexicalCast out) (encode .nilArray ++ rest)
      (.error (.key "no such key".toList)) rest :=
  (reads_bulkHeader hcast (by decide) (by decide) (by decide)).bind (Comes.throw _)

theorem reads_intReply (hcast : ReadsLongs lexicalCast) {z : Int} (hz : IsLong z) :
    Reads ending (recvIntReply lexicalCast) (encode (.int z) ++ rest) (.ok z) rest := by
  refine (reads_readLine ((oneLine_decimal z).cons (by decide) (by decide)) rest).bind ?_
  rw [if_neg (List.cons_ne_nil _ _), if_neg (by simp)]
  exact (reads_substr (Nat.succ_pos _)).bind (reads_castLong hcast hz)

/-- One character is peeked at, and stays where it is. -/
theorem reads_peek {c : Char} {l : Str} :
    Reads ending (program (recvOrThrow 1 true)) (c :: l) (.ok [c]) (c :: l) := by
  rintro s ⟨hs, he⟩
  obtain ⟨got, s', hrun, hpiece, hafter⟩ :=
    recvOrThrow_spec (n := 1) (by decide) true s (by simp [hs])
  have hgot : got = [c] := by
    obtain ⟨more, hmore⟩ := hpiece.start
    rw [hs] at hmore
    cases got with
    | nil => exact absurd rfl hpiece.nonempty
    | cons d got =>
      obtain ⟨rfl, -⟩ := List.cons.inj hmore
      have hnil : got = [] := List.length_eq_zero_iff.mp (Nat.le_zero.mp
        (Nat.le_of_succ_le_succ hpiece.length_le))
      rw [hnil]
  rw [hgot] at hrun
  exact ⟨s', hrun, hafter.input.trans hs, hafter.ending.trans he⟩

theorem reads_status {text : Str} (h : OneLine text) :
    Reads ending readLine (encode (.status text) ++ rest) (.ok ('+' :: text)) rest :=
  reads_readLine (h.cons (by decide) (by decide)) rest

theorem reads_error {text : Str} (h : OneLine text) :
    Reads ending readLine (encode (.error text) ++ rest) (.ok ('-' :: text)) rest :=
  reads_readLine (h.cons (by decide) (by decide)) rest

/-- **Whatever a server answers**, that is what is received, and its bytes are those that are
    taken. -/
theorem reads_recvGenericReply (hcast : ReadsLongs lexicalCast) {v : Value} (hv : Sendable v) :
    Reads ending (recvGenericReply lexicalCast) (encode v ++ rest) (received v)
      (unread v ++ rest) := by
  -- In each case the letter is peeked at first, and the reader of that kind takes the line.
  cases v with
  | status text =>
    have htype : Reads ending nextReplyType (encode (.status text) ++ rest) (.ok .statusCodeReply)
      (encode (.status text) ++ rest) := reads_peek.bind (Comes.pure _)
    exact htype.bind ((reads_status hv.1).bind
      ((reads_substr (Nat.succ_pos _)).bind (Comes.pure _)))
  | error text =>
    have htype : Reads ending nextReplyType (encode (.error text) ++ rest) (.ok .errorReply)
      (encode (.error text) ++ rest) := reads_peek.bind (Comes.pure _)
    refine htype.bind ((reads_error hv.1).bind ?_)
    rw [received]
    split
    · rename_i hshort
      exact (reads_substr_short (Nat.succ_lt_succ hshort)).bind_error
    · rename_i hlong
      exact (reads_substr (Nat.succ_le_succ (Nat.not_lt.mp hlong))).bind (Comes.pure _)
  | int z =>
    have htype : Reads ending nextReplyType (encode (.int z) ++ rest) (.ok .intReply)
      (encode (.int z) ++ rest) := reads_peek.bind (Comes.pure _)
    exact htype.bind ((reads_intReply hcast hv.1).bind (Comes.pure _))
  | bulk data =>
    have htype : Reads ending nextReplyType (encode (.bulk data) ++ rest) (.ok .bulkReply)
      (encode (.bulk data) ++ rest) := reads_peek.bind (Comes.pure _)
    exact htype.bind ((reads_bulkReply hcast hv.1).bind (Comes.pure _))
  | nil =>
    have htype : Reads ending nextReplyType (encode .nil ++ rest) (.ok .bulkReply)
      (encode .nil ++ rest) := reads_peek.bind (Comes.pure _)
    exact htype.bind ((reads_bulkReply_nil hcast).bind (Comes.pure _))
  | array elems =>
    have htype : Reads ending nextReplyType (encode (.array elems) ++ rest) (.ok .multiBulkReply)
      (encode (.array elems) ++ rest) := reads_peek.bind (Comes.pure _)
    refine htype.bind ?_
    have hlen : (([] : List Str).length : Int) + elems.length = elems.length := Int.zero_add _
    rw [received, unread]
    -- too many elements for a vector: `reserve` throws before any of them is read
    by_cases hover : maxStrings < elems.length
    · rw [if_pos hover, if_pos hover]
      exact (reads_multiBulkReply_over hcast [] hv.1 (hlen.symm ▸ hover)).bind_error
    · rw [if_neg hover, if_neg hover]
      have h : Reads ending _ (encode (.array elems) ++ rest) _ _ :=
        reads_multiBulkReply hcast [] (hlen.symm ▸ Int.not_lt.mp hover) (hv.2 elems rfl)
      cases hgot : receivedElems elems with
      | error e =>
        rw [hgot] at h
        exact h.bind_error
      | ok datas =>
        rw [hgot] at h
        exact h.bind (Comes.pure _)
  | nilArray =>
    have htype : Reads ending nextReplyType (encode .nilArray ++ rest) (.ok .multiBulkReply)
      (encode .nilArray ++ rest) := reads_peek.bind (Comes.pure _)
    exact htype.bind (reads_multiBulkReply_nil hcast []).bind_error

end Reads

/-! ## The schedule

Each reader is built from calls whose result does not depend on the pieces, by steps that keep that.
There is no induction on values here, since the bytes need not be those of one. -/

section Schedule

variable (lexicalCast : Str → Option Int)

theorem scheduleless_substr (pos : Nat) (s : Str) : Scheduleless (substr pos s) := by
  rw [substr]
  exact .ite (.throw _) (.pure _)

theorem scheduleless_castLong (s : Str) : Scheduleless (castLong lexicalCast s) := by
  rw [castLong]
  split
  · exact .pure _
  · exact .throw _

theorem scheduleless_peek : Scheduleless (program (recvOrThrow 1 true)) := by
  intro ending xs
  cases xs with
  | nil =>
    refine ⟨.error (lost ending), [], fun s ⟨hs, he⟩ => ?_⟩
    obtain ⟨s', hrun, hs', he'⟩ := recvOrThrow_ended 1 true s hs
    exact ⟨s', he ▸ hrun, hs', he'.trans he⟩
  | cons c l => exact ⟨_, _, reads_peek⟩

theorem scheduleless_nextReplyType : Scheduleless nextReplyType := by
  refine scheduleless_peek.bind fun got => ?_
  split
  · exact .pure _
  · exact .pure _
  · exact .pure _
  · exact .pure _
  · exact .pure _
  · exact .throw _

theorem scheduleless_bulkHeader (kind : Char) :
    Scheduleless (recvBulkHeader lexicalCast kind) :=
  scheduleless_readLine.bind fun _ =>
    .ite (.throw _) ((scheduleless_substr _ _).bind fun _ => scheduleless_castLong _ _)

theorem scheduleless_bulkReply : Scheduleless (recvBulkReply lexicalCast) :=
  (scheduleless_bulkHeader _ _).bind fun _ => .ite (.pure _) <|
    (scheduleless_readN _).bind fun _ => .ite (.throw _) (.ite (.throw _) (.pure _))

theorem scheduleless_bulkReplies (n : Nat) : Scheduleless (recvBulkReplies lexicalCast n) := by
  induction n with
  | zero => exact .pure _
  | succ n ih =>
    exact (scheduleless_bulkReply _).bind fun _ => ih.bind fun _ => .pure _

theorem scheduleless_multiBulkReply (out : List Str) :
    Scheduleless (recvMultiBulkReply lexicalCast out) :=
  (scheduleless_bulkHeader _ _).bind fun _ => .ite (.throw _) <| .ite (.throw _) <|
    (scheduleless_bulkReplies _ _).bind fun _ => .pure _

theorem scheduleless_intReply : Scheduleless (recvIntReply lexicalCast) :=
  scheduleless_readLine.bind fun _ => .ite (.throw _) <| .ite (.throw _) <|
    (scheduleless_substr _ _).bind fun _ => scheduleless_castLong _ _

/-- **How the bytes arrive has no influence** on what a reply is read as, whatever they are. -/
theorem scheduleless_genericReply : Scheduleless (recvGenericReply lexicalCast) := by
  refine scheduleless_nextReplyType.bind fun t => ?_
  cases t with
  | noReply => exact .pure _
  | statusCodeReply | errorReply =>
    exact scheduleless_readLine.bind fun _ => (scheduleless_substr _ _).bind fun _ => .pure _
  | intReply => exact (scheduleless_intReply _).bind fun _ => .pure _
  | bulkReply => exact (scheduleless_bulkReply _).bind fun _ => .pure _
  | multiBulkReply => exact (scheduleless_multiBulkReply _ _).bind fun _ => .pure _

end Schedule

/-! ## A reply on a socket -/

theorem readsLongs_readInt : ReadsLongs readInt := fun z _ => readInt_decimal z

/-- **Every value that a server can send**: what is made of it, and what of it stays in the
    socket. -/
theorem recvGenericReply_received {lexicalCast : Str → Option Int} (hcast : ReadsLongs lexicalCast)
    {v : Value} (hv : Sendable v) (rest : Str) (s : Source Char Str)
    (hs : s.input = encode v ++ rest) :
    ∃ s', (recvGenericReply lexicalCast).run.run s = (received v, s') ∧
      s'.input = unread v ++ rest := by
  obtain ⟨s', hrun, hs', -⟩ := reads_recvGenericReply hcast hv s ⟨hs, rfl⟩
  exact ⟨s', hrun, hs'⟩

/-- A number among the elements of a multi-bulk reply: the reader throws, and the element behind the
    number is what the next reader will take for its reply. -/
theorem recvGenericReply_received_mixed :
    ∃ s', (recvGenericReply readInt).run.run
        ⟨encode (.array [.bulk "a\r\n".toList, .int 7, .bulk "b".toList]) ++ encode (.int 1), 2,
          [.interrupted, .arrived 1, .arrived 0, .interrupted, .arrived 30], none⟩ =
        (.error (.protocol "unexpected prefix for bulk reply".toList), s') ∧
      s'.input = encode (.bulk "b".toList) ++ encode (.int 1) :=
  recvGenericReply_received readsLongs_readInt
    (v := .array [.bulk "a\r\n".toList, .int 7, .bulk "b".toList])
    ⟨by decide, fun elems h e he => by
      cases h
      revert e
      decide⟩ _ _ rfl

/-- **Two sockets that receive the same bytes** give the same reply and keep the same bytes, in
    whatever pieces and with whatever interruptions the bytes arrive: a reply, no reply, or the
    start of one. And the line that `read_line` returns is all of the first line but the characters
    of its end, with the bytes behind it left in the socket: none is lost, and none read twice. -/
theorem recvGenericReply_agree (lexicalCast : Str → Option Int) {s t : Source Char Str}
    (hinput : s.input = t.input) (hending : s.ending = t.ending) :
    (((recvGenericReply lexicalCast).run.run s).1 = ((recvGenericReply lexicalCast).run.run t).1 ∧
      ((recvGenericReply lexicalCast).run.run s).2.input =
        ((recvGenericReply lexicalCast).run.run t).2.input) ∧
    ∀ l rest, s.input = l ++ '\n' :: rest → '\n' ∉ l →
      (readLine.run.run s).1 = .ok (rtrim (l ++ ['\n']) ['\r', '\n']) ∧
        (readLine.run.run s).2.input = rest := by
  refine ⟨(scheduleless_genericReply lexicalCast).agree hinput hending, fun l rest hs hl => ?_⟩
  obtain ⟨s', hrun, hs', -⟩ := reads_readLine_raw hl rest s ⟨hs, rfl⟩
  rw [hrun]
  exact ⟨rfl, hs'⟩

theorem recvGenericReply_agree_broken :
    (((recvGenericReply readInt).run.run ⟨"$5\r\nab".toList, 7, [], none⟩).1 =
        ((recvGenericReply readInt).run.run
          ⟨"$5\r\nab".toList, 0, [.interrupted, .arrived 1, .interrupted], none⟩).1 ∧
      ((recvGenericReply readInt).run.run ⟨"$5\r\nab".toList, 7, [], none⟩).2.input =
        ((recvGenericReply readInt).run.run
          ⟨"$5\r\nab".toList, 0, [.interrupted, .arrived 1, .interrupted], none⟩).2.input) ∧
    ∀ l rest, "$5\r\nab".toList = l ++ '\n' :: rest → '\n' ∉ l →
      (readLine.run.run ⟨"$5\r\nab".toList, 7, [], none⟩).1 =
          .ok (rtrim (l ++ ['\n']) ['\r', '\n']) ∧
        (readLine.run.run ⟨"$5\r\nab".toList, 7, [], none⟩).2.input = rest :=
  recvGenericReply_agree readInt rfl rfl

end WebsocketTest.Redis
