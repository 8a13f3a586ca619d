import WebsocketTest.Buffer

/-!
# `CWorkThread::Process` (`work_thread.cpp`)

A message body is `2(headlen)`, a protobuf header, `2(datalen)` and the data. `Process` reads it
through a `CVBuffer` of its own; every step of that can fail without saying so: the constructor
when the body is empty or too long, `>>` when two bytes are not left, `Jump` when the header is
longer than what is there. What is checked is the header's parse and that the remainder is as long
as the last length read.

`parse` is `ParseFromArray`, any function of the bytes it is given, and `dispatch` everything from
the command lookup on, which sees the parsed header and the data.

**`process_exact_iff`** says for which bodies `Process` does what the format says, whatever its
uninitialised buffer held: those that fit the buffer and whose header ends before the body does,
or whose bytes the header parser refuses.

## What exact means, and for whom

`Exact` says that `Process` accepts a body if and only if the format does, hands on what the format
says, answers -1 otherwise, and reads no cell outside the message. The last is what the buffer's
memory can spoil. `Process` does not look at what its constructor answered, so that a body which was
not taken is not read at all, and what is read in its place is what the buffer happened to hold.

Hence the quantifier over `raw`. For one buffer content a body may be handled by luck; the statement
is about all of them. Of `parse` and `dispatch` nothing is assumed, so that the equivalence holds
whatever protobuf accepts: which bodies are handled is told by `parse`, among them those that end
where their header ends, and are fine as long as the header is refused.
-/

set_option autoImplicit false

namespace WebsocketTest

open Lib.Memory Lib.Integers Lib.Framing

universe u

/-- What `Process` comes to: its value, the bytes `ParseFromArray` was given, the header and data
    that the command lookup goes on with, and the cells read, as first cell and number. -/
structure Processed (Head : Type u) where
  ret : Int
  given : List UInt8
  passed : Option (Head × List UInt8)
  examined : List (Nat × Nat)

/-- The cells an `operator>>` into an `unsigned short` reads. -/
def CVBuffer.shr16Cells (b : CVBuffer) : List (Nat × Nat) :=
  if (b.get 2).1.isSome then [(b.uGetOffset, 2)] else []

namespace CWorkThread

variable {Head : Type u}

/-- `raw` is what the buffer's memory held before it was constructed. -/
def process (parse : List UInt8 → Option Head) (dispatch : Head → List UInt8 → Int)
    (raw : CVBuffer) (body : List UInt8) : Processed Head :=
  let iRecvBuf := CVBuffer.ofBytes raw body
  let (usHeadLen, b₁) := iRecvBuf.shr16
  -- as many bytes as are stated, whether or not they are there
  let given := read b₁.buffer b₁.jumpBuffer usHeadLen
  let examined := iRecvBuf.shr16Cells ++ [(b₁.jumpBuffer, usHeadLen)]
  match parse given with
  | none => ⟨-1, given, none, examined⟩
  | some pbSSHead =>
    let b₂ := b₁.jump usHeadLen
    let (usBodyLen, b₃) := b₂.shr16
    let examined := examined ++ b₂.shr16Cells
    if b₃.remainSize ≠ usBodyLen then ⟨-1, given, none, examined⟩
    else
      let sBuf := read b₃.buffer b₃.jumpBuffer b₃.remainSize.toNat
      ⟨dispatch pbSSHead sBuf, given, some (pbSSHead, sBuf),
        examined ++ [(b₃.jumpBuffer, b₃.remainSize.toNat)]⟩

/-! ## The format -/

/-- A header and data, each behind its length, and nothing else. -/
def encode (header data : List UInt8) : List UInt8 :=
  beBytes 2 header.length ++ header ++ (beBytes 2 data.length ++ data)

/-- The body of a message with this header and this data. -/
def Encodes (body header data : List UInt8) : Prop :=
  body = encode header data ∧ header.length < 65536 ∧ data.length < 65536

/-- The cell range lies in the message: there is no such range if the buffer did not take it. -/
def InMessage (raw : CVBuffer) (body : List UInt8) (cells : Nat × Nat) : Prop :=
  cells.2 = 0 ∨ ((raw.setBuffer body).1 = true ∧ cells.1 + cells.2 ≤ body.length)

/-- `Process` accepts what the format says, hands on what it says, and looks at nothing else. -/
structure Exact (parse : List UInt8 → Option Head) (raw : CVBuffer) (body : List UInt8)
    (r : Processed Head) : Prop where
  sound : ∀ pbSSHead data, r.passed = some (pbSSHead, data) →
    ∃ header, Encodes body header data ∧ parse header = some pbSSHead ∧ r.given = header
  complete : ∀ header data pbSSHead, Encodes body header data → parse header = some pbSSHead →
    r.passed = some (pbSSHead, data)
  rejected : r.passed = none → r.ret = -1
  examined : ∀ cells ∈ r.examined, InMessage raw body cells

/-- The header length a body states. -/
def headLen (body : List UInt8) : Nat := beNat (body.take 2)

/-- The bodies on which `Process` is exact: they fit the buffer, and if they state a header length
    the header ends before the body, or what there is of it is refused. -/
def Handled (parse : List UInt8 → Option Head) (body : List UInt8) : Prop :=
  1 ≤ body.length ∧ body.length ≤ maxCVBufferSize ∧
    (2 ≤ body.length →
      2 + headLen body < body.length ∨
      (2 < body.length ∧ 2 + headLen body = body.length ∧ parse (body.drop 2) = none) ∨
      (body.length = 2 ∧ headLen body ≤ 2 ∧ parse (body.take (headLen body)) = none))

end CWorkThread

/-! ## The buffer's reads -/

namespace CVBuffer

variable {b : CVBuffer}

theorem shr16_of_le (h : b.uGetOffset + 2 ≤ b.uOffset) (hw : b.uOffset < 4294967296) :
    b.shr16 = (beNat (read b.buffer b.uGetOffset 2), { b with uGetOffset := b.uGetOffset + 2 }) ∧
      b.shr16Cells = [(b.uGetOffset, 2)] := by
  have hg : b.get 2 = (some (read b.buffer b.uGetOffset 2),
      { b with uGetOffset := b.uGetOffset + 2 }) := getType_of_le h hw
  refine ⟨?_, ?_⟩
  · rw [shr16, hg]
    simp only [ntohs_hostLoad_read]
  · rw [shr16Cells, hg]
    rfl

theorem shr16_of_gt (h : b.uOffset < b.uGetOffset + 2) (hw : b.uGetOffset + 2 < 4294967296) :
    b.shr16 = (0, b) ∧ b.shr16Cells = [] := by
  have hg : b.get 2 = (none, b) := getType_of_gt h hw
  refine ⟨?_, ?_⟩
  · rw [shr16, hg]
  · rw [shr16Cells, hg]
    rfl

theorem setBuffer_fst {raw : CVBuffer} {body : List UInt8} :
    (raw.setBuffer body).1 = true ↔ 1 ≤ body.length ∧ body.length ≤ maxCVBufferSize := by
  unfold setBuffer
  split
  · simp; omega
  · split
    · simp; omega
    · simp; omega

theorem ofBytes_of_fits {raw : CVBuffer} {body : List UInt8} (h₁ : 1 ≤ body.length)
    (h₂ : body.length ≤ maxCVBufferSize) :
    ofBytes raw body = ⟨write raw.buffer 0 body, body.length, 0⟩ := by
  rw [ofBytes, setBuffer, if_neg (by omega), if_neg (by omega)]

theorem ofBytes_of_not_fits {raw : CVBuffer} {body : List UInt8}
    (h : ¬ (1 ≤ body.length ∧ body.length ≤ maxCVBufferSize)) : ofBytes raw body = raw := by
  unfold ofBytes setBuffer
  split
  · rfl
  · split
    · rfl
    · omega

end CVBuffer

namespace CWorkThread

variable {Head : Type u} {parse : List UInt8 → Option Head} {dispatch : Head → List UInt8 → Int}
  {raw : CVBuffer} {body : List UInt8}

theorem headLen_lt (body : List UInt8) : headLen body < 65536 := by
  have h : beNat (body.take 2) < 256 ^ (body.take 2).length := beNat_lt _
  have hlen : (body.take 2).length ≤ 2 := List.length_take_le _ _
  exact Nat.lt_of_lt_of_le h (Nat.pow_le_pow_right (by decide) hlen)

/-! ## The format is unambiguous

A body has at most one header and one data part, since each stands behind its length. That is what
lets `Exact` speak of *the* header. -/

theorem Encodes.length {header data : List UInt8} (h : Encodes body header data) :
    body.length = 4 + header.length + data.length := by
  rw [h.1, encode]
  simp only [List.length_append, length_beBytes]
  omega

theorem Encodes.headLen {header data : List UInt8} (h : Encodes body header data) :
    CWorkThread.headLen body = header.length := by
  rw [CWorkThread.headLen, h.1, encode, List.append_assoc, List.take_left' (length_beBytes 2 _),
    beNat_beBytes_of_lt (show header.length < 256 ^ 2 from h.2.1)]

theorem Encodes.header {header data : List UInt8} (h : Encodes body header data) :
    (body.drop 2).take header.length = header := by
  rw [h.1, encode, List.append_assoc, List.drop_left' (length_beBytes 2 _), List.take_left' rfl]

theorem Encodes.drop_header {header data : List UInt8} (h : Encodes body header data) :
    body.drop (2 + header.length) = beBytes 2 data.length ++ data := by
  rw [h.1, encode, List.drop_left' (by simp)]

theorem Encodes.header_eq {header data : List UInt8} (h : Encodes body header data) :
    header = (body.drop 2).take (CWorkThread.headLen body) := by
  rw [h.headLen, h.header]

theorem Encodes.dataLen {header data : List UInt8} (h : Encodes body header data) :
    beNat ((body.drop (2 + CWorkThread.headLen body)).take 2) =
      body.length - (4 + CWorkThread.headLen body) := by
  rw [h.headLen, h.drop_header, List.take_left' (length_beBytes 2 _),
    beNat_beBytes_of_lt (show data.length < 256 ^ 2 from h.2.2), h.length]
  omega

theorem Encodes.data_eq {header data : List UInt8} (h : Encodes body header data) :
    data = body.drop (4 + CWorkThread.headLen body) := by
  rw [show 4 + CWorkThread.headLen body = 2 + CWorkThread.headLen body + 2 by omega,
    ← List.drop_drop, h.headLen, h.drop_header, List.drop_left' (length_beBytes 2 _)]

/-- Two bytes, as many as they say, two more, and as many as those say. -/
theorem encodes_of_lengths (hh : 4 + headLen body ≤ body.length)
    (hd : beNat ((body.drop (2 + headLen body)).take 2) = body.length - (4 + headLen body)) :
    Encodes body ((body.drop 2).take (headLen body)) (body.drop (4 + headLen body)) := by
  have hlen : ((body.drop 2).take (headLen body)).length = headLen body := by
    rw [List.length_take, List.length_drop]
    omega
  have hpre : ∀ bs : List UInt8, 2 ≤ bs.length → beBytes 2 (beNat (bs.take 2)) = bs.take 2 := by
    intro bs hbs
    have := beBytes_beNat (bs.take 2)
    rwa [List.length_take_of_le hbs] at this
  have hdata : (body.drop (4 + headLen body)).length = body.length - (4 + headLen body) :=
    List.length_drop
  have h₁ : beNat (body.take 2) < 256 ^ (body.take 2).length := beNat_lt _
  have h₂ := beNat_lt ((body.drop (2 + headLen body)).take 2)
  rw [List.length_take_of_le (by omega)] at h₁
  rw [List.length_take_of_le (by rw [List.length_drop]; omega), hd] at h₂
  refine ⟨?_, by rw [hlen]; exact h₁, by rw [hdata]; exact h₂⟩
  rw [encode, hlen, hdata, ← hd, hpre _ (by rw [List.length_drop]; omega), headLen,
    hpre _ (by omega), ← headLen]
  have hsplit :
      (body.drop 2).take (headLen body) ++ body.drop (2 + headLen body) = body.drop 2 := by
    rw [← List.drop_drop, List.take_append_drop]
  have hrest : (body.drop (2 + headLen body)).take 2 ++ body.drop (4 + headLen body) =
      body.drop (2 + headLen body) := by
    have := List.take_append_drop 2 (body.drop (2 + headLen body))
    rw [List.drop_drop] at this
    rwa [show 4 + headLen body = 2 + headLen body + 2 by omega]
  rw [hrest, List.append_assoc, hsplit, List.take_append_drop]

/-! ## Reading a body, step by step

`Process` is followed from one cursor to the next. The buffer is `bufferAt raw body g` all the
while, with another `g`. -/

/-- The buffer that took `body`, with the cursor at `g`. -/
def bufferAt (raw : CVBuffer) (body : List UInt8) (g : Nat) : CVBuffer :=
  ⟨write raw.buffer 0 body, body.length, g⟩

section

variable (raw body)

theorem read_bufferAt {g p n : Nat}
    (h : p + n ≤ body.length) : read (bufferAt raw body g).buffer p n = (body.drop p).take n := by
  have := read_write_drop raw.buffer 0 body h
  rwa [Nat.zero_add] at this

theorem jumpBuffer_of_lt {g : Nat} (h : g < body.length) : (bufferAt raw body g).jumpBuffer = g :=
  if_pos h

theorem jumpBuffer_of_le {g : Nat} (h : body.length ≤ g) : (bufferAt raw body g).jumpBuffer = 0 :=
  if_neg (show ¬ body.length > g by omega)

theorem jump_of_le {g n : Nat} (h : g + n ≤ body.length) (hw : body.length ≤ 65536) :
    (bufferAt raw body g).jump n = bufferAt raw body (g + n) :=
  CVBuffer.jump_of_le (b := bufferAt raw body g) h (show body.length < 4294967296 by omega)

theorem jump_to_end {g n : Nat} (h : body.length ≤ g + n) (hg : g ≤ body.length)
    (hw : body.length ≤ 65536) (hn : n < 65536) :
    (bufferAt raw body g).jump n = bufferAt raw body body.length := by
  rcases Nat.lt_or_ge body.length (g + n) with hlt | hle
  · exact CVBuffer.jump_of_gt (b := bufferAt raw body g) hlt (show g + n < 4294967296 by omega)
  · rw [jump_of_le raw body hle hw, show g + n = body.length by omega]

theorem shr16_of_le {g : Nat} (h : g + 2 ≤ body.length) (hw : body.length ≤ 65536) :
    (bufferAt raw body g).shr16 = (beNat ((body.drop g).take 2), bufferAt raw body (g + 2)) ∧
      (bufferAt raw body g).shr16Cells = [(g, 2)] := by
  obtain ⟨hs, hc⟩ := CVBuffer.shr16_of_le (b := bufferAt raw body g) h
    (show body.length < 4294967296 by omega)
  refine ⟨?_, hc⟩
  rw [hs, show (bufferAt raw body g).uGetOffset = g from rfl, read_bufferAt raw body h]
  rfl

theorem shr16_of_gt {g : Nat} (h : body.length < g + 2) (hw : g ≤ 65536) :
    (bufferAt raw body g).shr16 = (0, bufferAt raw body g) ∧
      (bufferAt raw body g).shr16Cells = [] :=
  CVBuffer.shr16_of_gt (b := bufferAt raw body g) h (show g + 2 < 4294967296 by omega)

theorem remainSize_bufferAt {g : Nat} (h : g ≤ body.length) (hw : body.length ≤ 65536) :
    (bufferAt raw body g).remainSize = (body.length - g : Nat) := by
  rw [CVBuffer.remainSize_of_le (b := bufferAt raw body g) h
    (show body.length < 2147483648 by omega)]
  simp only [bufferAt]
  omega

end

/-- The remaining bytes, wherever `JumpBuffer` points when there are none. -/
theorem read_rest {g : Nat} (h : g ≤ body.length) :
    read (bufferAt raw body g).buffer (bufferAt raw body g).jumpBuffer (body.length - g) =
      body.drop g := by
  by_cases hlt : g < body.length
  · rw [jumpBuffer_of_lt raw body hlt, read_bufferAt raw body (by omega),
      List.take_of_length_le (Nat.le_of_eq List.length_drop)]
  · rw [show body.length - g = 0 by omega, read_zero, List.drop_of_length_le (by omega)]

/-- What `Process` does when the header is refused. -/
theorem process_of_none {usHeadLen : Nat} {b₁ : CVBuffer}
    (hs : (CVBuffer.ofBytes raw body).shr16 = (usHeadLen, b₁))
    (hp : parse (read b₁.buffer b₁.jumpBuffer usHeadLen) = none) :
    process parse dispatch raw body = ⟨-1, read b₁.buffer b₁.jumpBuffer usHeadLen, none,
      (CVBuffer.ofBytes raw body).shr16Cells ++ [(b₁.jumpBuffer, usHeadLen)]⟩ := by
  simp only [process, hs, hp]

/-- What `Process` does when the header is accepted: it reads the second length, whether or not
    there is one, and compares it with what is left. -/
theorem process_of_some {usHeadLen usBodyLen : Nat} {b₁ b₃ : CVBuffer} {pbSSHead : Head}
    (hs : (CVBuffer.ofBytes raw body).shr16 = (usHeadLen, b₁))
    (hp : parse (read b₁.buffer b₁.jumpBuffer usHeadLen) = some pbSSHead)
    (hs₂ : (b₁.jump usHeadLen).shr16 = (usBodyLen, b₃)) :
    process parse dispatch raw body =
      if b₃.remainSize ≠ usBodyLen then
        ⟨-1, read b₁.buffer b₁.jumpBuffer usHeadLen, none,
          (CVBuffer.ofBytes raw body).shr16Cells ++ [(b₁.jumpBuffer, usHeadLen)] ++
            (b₁.jump usHeadLen).shr16Cells⟩
      else
        ⟨dispatch pbSSHead (read b₃.buffer b₃.jumpBuffer b₃.remainSize.toNat),
          read b₁.buffer b₁.jumpBuffer usHeadLen,
          some (pbSSHead, read b₃.buffer b₃.jumpBuffer b₃.remainSize.toNat),
          (CVBuffer.ofBytes raw body).shr16Cells ++ [(b₁.jumpBuffer, usHeadLen)] ++
            (b₁.jump usHeadLen).shr16Cells ++ [(b₃.jumpBuffer, b₃.remainSize.toNat)]⟩ := by
  simp only [process, hs, hp, hs₂]

/-- The header's cells are examined in any case. -/
theorem examined_header {usHeadLen : Nat} {b₁ : CVBuffer}
    (hs : (CVBuffer.ofBytes raw body).shr16 = (usHeadLen, b₁)) {cells : Nat × Nat}
    (hc : cells ∈ (CVBuffer.ofBytes raw body).shr16Cells ++ [(b₁.jumpBuffer, usHeadLen)]) :
    cells ∈ (process parse dispatch raw body).examined := by
  cases hp : parse (read b₁.buffer b₁.jumpBuffer usHeadLen) with
  | none =>
    rw [process_of_none hs hp]
    exact hc
  | some pbSSHead =>
    rw [process_of_some hs hp (Prod.eta _).symm]
    split
    · exact List.mem_append_left _ hc
    · exact List.mem_append_left _ (List.mem_append_left _ hc)

/-! ## Exactness -/

variable (raw body) in
/-- Before its header a body that fits is read from its first byte. -/
theorem shr16_body (h₂ : 2 ≤ body.length) (hw : body.length ≤ 65536) :
    (CVBuffer.ofBytes raw body).shr16 = (headLen body, bufferAt raw body 2) ∧
      (CVBuffer.ofBytes raw body).shr16Cells = [(0, 2)] := by
  rw [CVBuffer.ofBytes_of_fits (by omega) hw]
  exact shr16_of_le raw body (g := 0) h₂ hw

/-- A refusal is exact if nothing outside the message was read and the format agrees. -/
theorem exact_of_rejected {given : List UInt8} {examined : List (Nat × Nat)}
    (hcells : ∀ cells ∈ examined, InMessage raw body cells)
    (hno : ∀ header data pbSSHead, Encodes body header data → parse header ≠ some pbSSHead) :
    Exact parse raw body ⟨-1, given, none, examined⟩ :=
  ⟨fun _ _ h => (nomatch h),
    fun header data pbSSHead he hp => absurd hp (hno header data pbSSHead he),
    fun _ => rfl, hcells⟩

/-- What is passed is exact if the lengths are those of the format. -/
theorem exact_of_passed {ret : Int} {examined : List (Nat × Nat)} {pbSSHead : Head}
    (hh : 4 + headLen body ≤ body.length)
    (hd : beNat ((body.drop (2 + headLen body)).take 2) = body.length - (4 + headLen body))
    (hp : parse ((body.drop 2).take (headLen body)) = some pbSSHead)
    (hcells : ∀ cells ∈ examined, InMessage raw body cells) :
    Exact parse raw body ⟨ret, (body.drop 2).take (headLen body),
      some (pbSSHead, body.drop (4 + headLen body)), examined⟩ := by
  refine ⟨?_, ?_, (fun h => nomatch h), hcells⟩
  · intro pbSSHead' data hpass
    cases hpass
    exact ⟨_, encodes_of_lengths hh hd, hp, rfl⟩
  · intro header data pbSSHead' he hp'
    rw [he.header_eq, hp] at hp'
    cases hp'
    rw [← he.data_eq]

theorem inMessage_rest {g : Nat} (hset : (raw.setBuffer body).1 = true) (h : g ≤ body.length) :
    InMessage raw body ((bufferAt raw body g).jumpBuffer, body.length - g) := by
  by_cases hlt : g < body.length
  · rw [jumpBuffer_of_lt raw body hlt]
    exact .inr ⟨hset, show g + (body.length - g) ≤ body.length by omega⟩
  · exact .inl (show body.length - g = 0 by omega)

/-- A body whose header ends before it does, and is accepted. -/
theorem exact_of_accepted (hw : body.length ≤ 65536) (hlt : 2 + headLen body < body.length)
    {pbSSHead : Head} (hp : parse ((body.drop 2).take (headLen body)) = some pbSSHead)
    (hcells : ∀ cells ∈ [(0, 2)] ++ [(2, headLen body)], InMessage raw body cells) :
    Exact parse raw body (process parse dispatch raw body) := by
  have hset : (raw.setBuffer body).1 = true := CVBuffer.setBuffer_fst.mpr ⟨by omega, hw⟩
  obtain ⟨hs, hc⟩ := shr16_body raw body (by omega) hw
  have hj := jumpBuffer_of_lt raw body (g := 2) (by omega)
  have hgiven := read_bufferAt raw body (g := 2) (p := 2) (n := headLen body) (by omega)
  have hjump := jump_of_le raw body (g := 2) (n := headLen body) (by omega) hw
  -- Whether there is a data length behind the header decides what the check compares.
  by_cases h₄ : 4 + headLen body ≤ body.length
  · obtain ⟨hs₂, hc₂⟩ := shr16_of_le raw body (g := 2 + headLen body)
      (by omega) hw
    have hg : 2 + headLen body + 2 = 4 + headLen body := by omega
    rw [hg] at hs₂
    have hrem := remainSize_bufferAt raw body (g := 4 + headLen body) h₄ hw
    have hcells₂ : ∀ cells ∈ [(0, 2)] ++ [(2, headLen body)] ++ [(2 + headLen body, 2)],
        InMessage raw body cells := by
      intro cells hmem
      rcases List.mem_append.mp hmem with hmem | hmem
      · exact hcells cells hmem
      · rw [List.mem_singleton.mp hmem]
        exact .inr ⟨hset, show 2 + headLen body + 2 ≤ body.length by omega⟩
    rw [process_of_some hs (by rw [hj, hgiven, hp]) (by rw [hjump, hs₂]), hc, hj, hgiven, hjump,
      hc₂, hrem, Int.toNat_natCast, read_rest h₄]
    split
    · rename_i hne
      refine exact_of_rejected hcells₂ fun header data _ he _ => hne ?_
      rw [he.dataLen]
    · rename_i heq
      refine exact_of_passed h₄ (by omega) hp ?_
      intro cells hmem
      rcases List.mem_append.mp hmem with hmem | hmem
      · exact hcells₂ cells hmem
      · rw [List.mem_singleton.mp hmem]
        exact inMessage_rest hset h₄
  · -- the data length is missing, reads as zero, and something is left
    obtain ⟨hs₂, hc₂⟩ := shr16_of_gt raw body (g := 2 + headLen body)
      (by omega) (by omega)
    have hrem := remainSize_bufferAt raw body (g := 2 + headLen body) (by omega) hw
    rw [process_of_some hs (by rw [hj, hgiven, hp]) (by rw [hjump, hs₂]), hc, hj, hgiven, hjump,
      hc₂, hrem, if_pos (by omega), List.append_nil]
    refine exact_of_rejected hcells ?_
    intro header data pbSSHead he _
    have hlen := he.length
    rw [← he.headLen] at hlen
    omega

/-- A header that is refused, if its bytes are the message's and no format's. -/
theorem exact_of_refused (h₂ : 2 ≤ body.length) (hw : body.length ≤ 65536)
    (hp : parse (read (bufferAt raw body 2).buffer (bufferAt raw body 2).jumpBuffer
      (headLen body)) = none)
    (hcell : InMessage raw body ((bufferAt raw body 2).jumpBuffer, headLen body))
    (hno : ∀ header data pbSSHead, Encodes body header data → parse header ≠ some pbSSHead) :
    Exact parse raw body (process parse dispatch raw body) := by
  obtain ⟨hs, hc⟩ := shr16_body raw body h₂ hw
  rw [process_of_none hs hp, hc]
  refine exact_of_rejected ?_ hno
  intro cells hmem
  simp only [List.singleton_append, List.mem_cons, List.not_mem_nil, or_false] at hmem
  rcases hmem with rfl | rfl
  · exact .inr ⟨CVBuffer.setBuffer_fst.mpr ⟨by omega, hw⟩, show 0 + 2 ≤ body.length by omega⟩
  · exact hcell

/-- A single byte is too short for any length, and something of it is left. -/
theorem exact_of_one_byte (h₁ : body.length = 1) :
    Exact parse raw body (process parse dispatch raw body) := by
  have hno : ∀ header data pbSSHead, Encodes body header data → parse header ≠ some pbSSHead := by
    intro header data pbSSHead he
    have := he.length
    omega
  obtain ⟨hs, hc⟩ := shr16_of_gt raw body (g := 0) (by omega) (by omega)
  have hof : CVBuffer.ofBytes raw body = bufferAt raw body 0 :=
    CVBuffer.ofBytes_of_fits (by omega) (show body.length ≤ 65536 by omega)
  rw [← hof] at hs hc
  have hj := jumpBuffer_of_lt raw body (g := 0) (by omega)
  have hcells : ∀ cells ∈ [((0 : Nat), (0 : Nat))], InMessage raw body cells := by
    intro cells hmem
    rw [List.mem_singleton.mp hmem]
    exact .inl rfl
  cases hp : parse [] with
  | none =>
    rw [process_of_none hs (by rw [read_zero, hp]), hc, hof, hj]
    exact exact_of_rejected hcells hno
  | some pbSSHead =>
    have hjump := jump_of_le raw body (g := 0) (n := 0) (by omega) (by omega)
    have hrem := remainSize_bufferAt raw body (g := 0) (by omega) (by omega)
    rw [hof] at hs hc
    have hs₂ : ((bufferAt raw body 0).jump 0).shr16 = (0, bufferAt raw body 0) := by
      rw [hjump, hs]
    rw [process_of_some (by rw [hof, hs]) (by rw [read_zero, hp]) hs₂, hof, hc, hj, hjump, hc, hrem,
      if_pos (by omega)]
    exact exact_of_rejected hcells hno

/-! ## When `Process` is exact

The two directions of the result, and the buffer content that the second one needs. -/

/-- Whatever was in the buffer's memory, and whichever case of `Handled` it is. -/
theorem exact_of_handled (h : Handled parse body) :
    Exact parse raw body (process parse dispatch raw body) := by
  obtain ⟨h₁, hw, h⟩ := h
  by_cases h₂ : 2 ≤ body.length
  · have hset : (raw.setBuffer body).1 = true := CVBuffer.setBuffer_fst.mpr ⟨h₁, hw⟩
    rcases h h₂ with hlt | ⟨h₃, heq, hp⟩ | ⟨hn, hle, hp⟩
    · have hj := jumpBuffer_of_lt raw body (g := 2) (by omega)
      have hcell : InMessage raw body (2, headLen body) := .inr ⟨hset, Nat.le_of_lt hlt⟩
      cases hp : parse ((body.drop 2).take (headLen body)) with
      | none =>
        refine exact_of_refused h₂ hw ?_ (by rw [hj]; exact hcell) ?_
        · rw [hj, read_bufferAt raw body (by omega), hp]
        · intro header data _ he hs
          rw [he.header_eq, hp] at hs
          cases hs
      | some pbSSHead =>
        refine exact_of_accepted hw hlt hp ?_
        intro cells hmem
        simp only [List.singleton_append, List.mem_cons, List.not_mem_nil, or_false] at hmem
        rcases hmem with rfl | rfl
        · exact .inr ⟨hset, h₂⟩
        · exact hcell
    · have hj := jumpBuffer_of_lt raw body h₃
      refine exact_of_refused h₂ hw ?_ ?_ ?_
      · rw [hj, read_bufferAt raw body (Nat.le_of_eq heq), List.take_of_length_le, hp]
        rw [List.length_drop]
        omega
      · rw [hj]
        exact .inr ⟨hset, (Nat.le_of_eq heq)⟩
      · intro header data _ he _
        have := he.length
        rw [← he.headLen] at this
        omega
    · have hj := jumpBuffer_of_le raw body (Nat.le_of_eq hn)
      refine exact_of_refused h₂ hw ?_ ?_ ?_
      · rw [hj, read_bufferAt raw body (by omega), List.drop_zero, hp]
      · rw [hj]
        exact .inr ⟨hset, show 0 + headLen body ≤ body.length by omega⟩
      · intro header data _ he _
        have := he.length
        omega
  · exact exact_of_one_byte (by omega)

/-- A buffer that took nothing and happens to hold two bytes. -/
def stale : CVBuffer := ⟨fun _ => 0, 2, 0⟩

/-- A body the buffer does not take is not what is read. -/
theorem fits_of_exact (h : Exact parse stale body (process parse dispatch stale body)) :
    1 ≤ body.length ∧ body.length ≤ maxCVBufferSize := by
  by_contra hfit
  have hof : CVBuffer.ofBytes stale body = stale := CVBuffer.ofBytes_of_not_fits hfit
  have hmem : (0, 2) ∈ (process parse dispatch stale body).examined := by
    refine examined_header (Prod.eta _).symm ?_
    rw [hof]
    exact List.mem_append_left _ (List.mem_singleton.mpr rfl)
  rcases h.examined (0, 2) hmem with h₂ | ⟨hset, -⟩
  · exact absurd h₂ (by decide)
  · exact hfit (CVBuffer.setBuffer_fst.mp hset)

/-- A header that ends where the body does must be refused: accepted, it passes the check. -/
theorem refused_of_exact {given : List UInt8} (h₂ : 2 ≤ body.length) (hw : body.length ≤ 65536)
    (hend : body.length ≤ 2 + headLen body)
    (hgiven : read (bufferAt raw body 2).buffer (bufferAt raw body 2).jumpBuffer
      (headLen body) = given)
    (h : Exact parse raw body (process parse dispatch raw body)) : parse given = none := by
  cases hp : parse given with
  | none => rfl
  | some pbSSHead =>
    obtain ⟨hs, -⟩ := shr16_body raw body h₂ hw
    have hlast := jump_to_end raw body hend h₂ hw (headLen_lt body)
    obtain ⟨hs₂, -⟩ := shr16_of_gt raw body (g := body.length) (by omega) hw
    have hrem := remainSize_bufferAt raw body (g := body.length) (Nat.le_refl _) hw
    obtain ⟨header, he, -, -⟩ := h.sound pbSSHead [] (by
      rw [process_of_some hs (by rw [hgiven, hp]) (by rw [hlast, hs₂]), hrem, Nat.sub_self,
        if_neg (by decide)]
      rfl)
    have := he.length
    rw [← he.headLen] at this
    omega

/-- `Process` is exact on no other bodies: the buffer `stale` alone shows it, of those that do
    not fit and of the others. -/
theorem handled_of_exact (h : ∀ raw, Exact parse raw body (process parse dispatch raw body)) :
    Handled parse body := by
  -- One stale buffer is enough: if the body was taken, no other is looked at.
  obtain ⟨h₁, hw⟩ := fits_of_exact (h stale)
  refine ⟨h₁, hw, ?_⟩
  intro h₂
  obtain ⟨hs, -⟩ := shr16_body stale body h₂ hw
  have hcell : InMessage stale body ((bufferAt stale body 2).jumpBuffer, headLen body) :=
    (h stale).examined _ (examined_header hs (List.mem_append_right _ (List.mem_singleton.mpr rfl)))
  by_cases hlt : 2 + headLen body < body.length
  · exact .inl hlt
  -- `JumpBuffer` is behind the length if anything is there, and at the start of the array if not.
  by_cases h₃ : 2 < body.length
  · have hj := jumpBuffer_of_lt stale body h₃
    have heq : 2 + headLen body = body.length := by
      rcases hcell with h₀ | ⟨-, hle⟩
      · simp only at h₀
        omega
      · simp only [hj] at hle
        omega
    refine .inr (.inl ⟨h₃, heq, refused_of_exact h₂ hw (by omega) ?_ (h stale)⟩)
    rw [hj, read_bufferAt stale body (Nat.le_of_eq heq), List.take_of_length_le]
    rw [List.length_drop]
    omega
  · have hj := jumpBuffer_of_le stale body (g := 2) (by omega)
    have hle : headLen body ≤ 2 := by
      rcases hcell with h₀ | ⟨-, hle⟩
      · simp only at h₀
        omega
      · simp only [hj] at hle
        omega
    refine .inr (.inr ⟨by omega, hle, refused_of_exact h₂ hw (by omega) ?_ (h stale)⟩)
    rw [hj, read_bufferAt stale body (by omega), List.drop_zero]

/-- **`Process` is exact on a body, whatever its buffer held before, if and only if it is one of
the handled.** -/
theorem process_exact_iff (parse : List UInt8 → Option Head) (dispatch : Head → List UInt8 → Int)
    (body : List UInt8) :
    (∀ raw, Exact parse raw body (process parse dispatch raw body)) ↔ Handled parse body :=
  ⟨handled_of_exact, fun h _ => exact_of_handled h⟩

/-- A header length and nothing behind it passes both checks: there is no data length. -/
theorem no_data_length_passed :
    ¬ ∀ (parse : List UInt8 → Option Unit) (dispatch : Unit → List UInt8 → Int)
      (raw : CVBuffer) (body : List UInt8),
      Exact parse raw body (process parse dispatch raw body) := by
  intro h
  have hpass :
      (process (fun _ => some ()) (fun _ _ => 0) stale [0, 0]).passed = some ((), []) := rfl
  obtain ⟨header, he, -, -⟩ := (h (fun _ => some ()) (fun _ _ => 0) stale [0, 0]).sound () [] hpass
  have hlen := he.length
  simp only [List.length_cons, List.length_nil] at hlen
  omega

end CWorkThread

end WebsocketTest
