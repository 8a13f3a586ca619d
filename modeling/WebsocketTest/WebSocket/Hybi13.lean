import WebsocketTest.WebSocket.Frame
import WebsocketTest.WebSocket.Utf8

/-!
# Reading frames

`processor::hybi13`, the part that reads. `consume` goes from field to field of a frame, and each
may come in pieces: `bytesNeeded` says how much of the field at hand is missing. `turn` is one time
round its loop.

A data message may come in several frames, with control frames between them, so there are two
messages in the making, `dataMsg` and `controlMsg`, each with its own key and its own validator, and
`currentMsg` says which of them the payload at hand belongs to.

The messages are the ones that the manager in use allocates; permessage-deflate is compiled out in
the configurations in use, and `size_t` has 64 bits, so the paths for a compressed payload and for a
frame that is too large for 32 bits are never taken. What `consume` returns is how far it came; here
it is what is left of the buffer. After an error nothing looks at either.

A header may announce up to 2 ^ 64 - 1 bytes, and nothing bounds that: there is no limit on the size
of a message in this version. For the first frame of a message, room for all of them is reserved at
once, and a string does not grant more than `maxPayload`: the `std::length_error` of `reserve` then
leaves `consume` in the middle of a header. Memory itself is not modelled, so that a `reserve` below
that always succeeds, and neither is the `append` of the payload of a later frame, which could throw
only after as many bytes had come.
-/

set_option autoImplicit false

namespace WebsocketTest.WebSocket

open Lib.Memory

/-! ## Messages in the making -/

/-- The `processor::error` codes of the operations here. -/
inductive Error
  | general
  | invalidPayload
  | invalidArguments
  | invalidOpcode
  | controlTooBig
  | invalidRsvBit
  | fragmentedControl
  | invalidContinuation
  | maskingRequired
  | maskingForbidden
  | nonMinimalEncoding
  | invalidUtf8
  | reservedCloseCode
  | invalidCloseCode
  | reasonRequiresCode
  deriving DecidableEq, Repr

/-- What makes `consume` give up: the code that it puts into `ec`, or the exception of a `reserve`,
    which it does not catch. -/
inductive Failure
  | code (e : Error)
  | lengthError
  deriving DecidableEq, Repr

/-- `message_buffer::message`, as far as a received one is looked at. -/
structure Message where
  opcode : Opcode
  payload : List UInt8 := []
  deriving DecidableEq, Repr

/-- `max_size` of a `std::string`, which is what holds a payload. -/
def maxPayload : Nat := 4611686018427387903

/-- `message(manager, op, size)`: an empty message, with room for `size` bytes. -/
def Message.alloc (op : Opcode) (size : Nat) : Except Failure Message :=
  if maxPayload < size then .error .lengthError else .ok ⟨op, []⟩

/-- `msg_metadata` -/
structure MsgMetadata where
  msgPtr : Option Message := none
  preparedKey : UInt64 := 0
  validator : Validator := {}
  deriving DecidableEq, Repr

/-- `msg_metadata(m, p)` -/
def MsgMetadata.new (m : Message) (p : UInt32) : MsgMetadata where
  msgPtr := some m
  preparedKey := prepareMaskingKey p

/-- The message is a text: its payload goes through the validator. -/
def MsgMetadata.isText (m : MsgMetadata) : Bool := m.msgPtr.any (·.opcode = .text)

/-- A payload without its mask, if it has one, and the key for what comes next. -/
def unmask (isMasked : Bool) (buf : List UInt8) (preparedKey : UInt64) : List UInt8 × UInt64 :=
  if isMasked then wordMaskCirc buf preparedKey else (buf, preparedKey)

/-- What `process_payload_bytes` does to `*m_current_msg`: unmask, append, validate. -/
def MsgMetadata.process (m : MsgMetadata) (isMasked : Bool) (buf : List UInt8) :
    Except Failure MsgMetadata :=
  let unmasked := unmask isMasked buf m.preparedKey
  let msgPtr := m.msgPtr.map fun msg => { msg with payload := msg.payload ++ unmasked.1 }
  if m.isText then
    let decoded := m.validator.decode unmasked.1
    if decoded.1 then .ok ⟨msgPtr, unmasked.2, decoded.2⟩ else .error (.code .invalidUtf8)
  else .ok ⟨msgPtr, unmasked.2, m.validator⟩

/-! ## The processor

`extension` and `fatalError` are states that no transition of this class leads to. They are kept
because the loop of `consume` has branches for them, and the proofs show that it never gets there
(`Waiting` in the module on reading). -/

/-- `hybi13::state` -/
inductive ReadState
  | headerBasic
  | headerExtended
  | extension
  | application
  | ready
  | fatalError
  deriving DecidableEq, Repr

/-- What `m_current_msg` points to. -/
inductive Current
  | data
  | control
  deriving DecidableEq, Repr

/-- `hybi13`, of an endpoint that is a server or not. -/
structure Hybi13 where
  server : Bool
  basicHeader : BasicHeader
  extendedHeader : ExtendedHeader
  bytesNeeded : Nat
  cursor : Nat
  dataMsg : MsgMetadata
  controlMsg : MsgMetadata
  currentMsg : Current
  state : ReadState

/-- `validate_incoming_basic_header` -/
def validateIncomingBasicHeader (h : BasicHeader) (isServer newMsg : Bool) : Option Error :=
  let op := h.getOpcode
  if op.isControl ∧ payloadSizeBasic < h.getBasicSize.toNat then some .controlTooBig
  else if h.getRsv1 then some .invalidRsvBit
  else if h.getRsv2 ∨ h.getRsv3 then some .invalidRsvBit
  else if op.reserved then some .invalidOpcode
  else if op.invalid then some .invalidOpcode
  else if op.isControl ∧ ¬ h.getFin then some .fragmentedControl
  else if newMsg ∧ op = .continuation then some .invalidContinuation
  else if ¬ newMsg ∧ ¬ op.isControl ∧ op ≠ .continuation then some .invalidContinuation
  else if isServer ∧ ¬ h.getMasked then some .maskingRequired
  else if ¬ isServer ∧ h.getMasked then some .maskingForbidden
  else none

/-- `validate_incoming_extended_header` -/
def validateIncomingExtendedHeader (h : BasicHeader) (e : ExtendedHeader) : Option Error :=
  let basicSize := h.getBasicSize
  let payloadSize := getPayloadSize h e
  if basicSize = payloadSizeCode16bit ∧ payloadSize ≤ payloadSizeBasic then some .nonMinimalEncoding
  else if basicSize = payloadSizeCode64bit ∧ payloadSize ≤ payloadSizeExtended then
    some .nonMinimalEncoding
  else none

namespace Hybi13

/-- `reset_headers` -/
def resetHeaders (p : Hybi13) : Hybi13 :=
  { p with
    state := .headerBasic, bytesNeeded := 2, basicHeader := ⟨0, 0⟩, extendedHeader := .empty }

/-- `hybi13(secure, server, manager, rng)` -/
def new (server : Bool) : Hybi13 :=
  resetHeaders ⟨server, ⟨0, 0⟩, .empty, 0, 0, {}, {}, .data, .headerBasic⟩

/-- `*m_current_msg` -/
def current (p : Hybi13) : MsgMetadata :=
  match p.currentMsg with
  | .data => p.dataMsg
  | .control => p.controlMsg

/-- `*m_current_msg = m` -/
def setCurrent (p : Hybi13) (m : MsgMetadata) : Hybi13 :=
  match p.currentMsg with
  | .data => { p with dataMsg := m }
  | .control => { p with controlMsg := m }

/-- `copy_basic_header_bytes`, and what it leaves of `buf`. -/
def copyBasicHeaderBytes (p : Hybi13) (buf : List UInt8) : Hybi13 × List UInt8 :=
  if p.bytesNeeded = 0 then (p, buf)
  else match buf with
    | [] => (p, buf)
    | [b] =>
      if p.bytesNeeded = 2 then
        ({ p with basicHeader := ⟨b, p.basicHeader.b1⟩, bytesNeeded := p.bytesNeeded - 1 }, [])
      else ({ p with basicHeader := ⟨p.basicHeader.b0, b⟩, bytesNeeded := p.bytesNeeded - 1 }, [])
    | b :: c :: rest =>
      if p.bytesNeeded = 2 then
        ({ p with basicHeader := ⟨b, c⟩, bytesNeeded := p.bytesNeeded - 2 }, rest)
      else
        ({ p with basicHeader := ⟨p.basicHeader.b0, b⟩, bytesNeeded := p.bytesNeeded - 1 },
          c :: rest)

/-- `copy_extended_header_bytes` -/
def copyExtendedHeaderBytes (p : Hybi13) (buf : List UInt8) : Hybi13 × List UInt8 :=
  let bytesToRead := min p.bytesNeeded buf.length
  ({ p with
      extendedHeader := ⟨write p.extendedHeader.bytes p.cursor (buf.take bytesToRead)⟩
      cursor := p.cursor + bytesToRead
      bytesNeeded := p.bytesNeeded - bytesToRead },
    buf.drop bytesToRead)

/-- `*m_current_msg` is `m` now, after `len` bytes of the payload. -/
def took (p : Hybi13) (m : MsgMetadata) (len : Nat) : Hybi13 :=
  { p.setCurrent m with bytesNeeded := p.bytesNeeded - len }

/-- `process_payload_bytes(buf, len)`, on the `len` bytes `buf`. -/
def processPayloadBytes (p : Hybi13) (buf : List UInt8) : Except Failure Hybi13 :=
  (p.current.process p.basicHeader.getMasked buf).map fun m => p.took m buf.length

/-- The step from a whole basic header to the rest of the header. -/
def endBasicHeader (p : Hybi13) : Except Failure Hybi13 :=
  match validateIncomingBasicHeader p.basicHeader p.server p.dataMsg.msgPtr.isNone with
  | some e => .error (.code e)
  | none =>
    .ok { p with
      state := .headerExtended
      cursor := 0
      bytesNeeded := p.basicHeader.getHeaderLen - 2 }

/-- What the end of a header sets up for the payload: a new message with room for it, or a new key
    for the message in the making. -/
def beginPayload (p : Hybi13) : Except Failure Hybi13 :=
  let op := p.basicHeader.getOpcode
  let key := getMaskingKey p.basicHeader p.extendedHeader
  let p := { p with
    state := .application
    bytesNeeded := getPayloadSize p.basicHeader p.extendedHeader }
  if op.isControl then
    (Message.alloc op p.bytesNeeded).map fun m =>
      { p with controlMsg := .new m key, currentMsg := .control }
  else if p.dataMsg.msgPtr.isNone then
    (Message.alloc op p.bytesNeeded).map fun m =>
      { p with dataMsg := .new m key, currentMsg := .data }
  else .ok { p with
    dataMsg := { p.dataMsg with preparedKey := prepareMaskingKey key }
    currentMsg := .data }

/-- The step from a whole header to the payload. -/
def endExtendedHeader (p : Hybi13) : Except Failure Hybi13 :=
  match validateIncomingExtendedHeader p.basicHeader p.extendedHeader with
  | some e => .error (.code e)
  | none => p.beginPayload

/-- The step from a whole payload to the message, or to the next frame. -/
def endPayload (p : Hybi13) : Except Failure Hybi13 :=
  if p.basicHeader.getFin then
    if p.basicHeader.getOpcode = .text ∧ ¬ p.current.validator.complete then
      .error (.code .invalidUtf8)
    else .ok { p with state := .ready }
  else .ok p.resetHeaders

/-- Once round the loop of `consume`. Where a field is not yet whole, the `continue` of the source
    is the early result here, and the loop ends because the buffer is used up. -/
def turn (p : Hybi13) (buf : List UInt8) : Except Failure (Hybi13 × List UInt8) :=
  match p.state with
  | .headerBasic =>
    let (p, buf) := p.copyBasicHeaderBytes buf
    if 0 < p.bytesNeeded then .ok (p, buf)
    else p.endBasicHeader.map (·, buf)
  | .headerExtended =>
    let (p, buf) := p.copyExtendedHeaderBytes buf
    if 0 < p.bytesNeeded then .ok (p, buf)
    else p.endExtendedHeader.map (·, buf)
  | .extension => .ok ({ p with state := .application }, buf)
  | .application =>
    let bytesToProcess := min p.bytesNeeded buf.length
    match if 0 < bytesToProcess then p.processPayloadBytes (buf.take bytesToProcess) else .ok p with
    | .error e => .error e
    | .ok p =>
      let buf := buf.drop bytesToProcess
      if 0 < p.bytesNeeded then .ok (p, buf)
      else p.endPayload.map (·, buf)
  | .ready => .error (.code .general)
  | .fatalError => .error (.code .general)

/-- The condition of the loop: no message is ready, and there is something to read, or a field to
    leave that is whole already. An empty payload is such a field, and is left without a byte. -/
def Busy (p : Hybi13) (buf : List UInt8) : Prop :=
  p.state ≠ .ready ∧ p.state ≠ .fatalError ∧ (buf ≠ [] ∨ p.bytesNeeded = 0)

instance (p : Hybi13) (buf : List UInt8) : Decidable (p.Busy buf) :=
  inferInstanceAs (Decidable (_ ∧ _ ∧ _))

/-! ## The turns in one form

`put` is what a turn copies, and `advance` what follows once the field is whole. The three kinds of
field (the two bytes in front, the rest of the header, the payload) are read by three branches of
the loop, which differ in where the bytes go and not in how many are taken. `turn_eq` says so once,
and that a field may come in parts is then proved of `put` alone (`put_append`). -/

/-- The bytes `bs` of the field at hand, no more of them than are missing. -/
def put (p : Hybi13) (bs : List UInt8) : Except Failure Hybi13 :=
  match p.state with
  | .headerBasic => .ok (p.copyBasicHeaderBytes bs).1
  | .headerExtended => .ok (p.copyExtendedHeaderBytes bs).1
  | .application => if bs = [] then .ok p else p.processPayloadBytes bs
  | _ => .ok p

/-- The end of the field at hand. -/
def advance (p : Hybi13) : Except Failure Hybi13 :=
  match p.state with
  | .headerBasic => p.endBasicHeader
  | .headerExtended => p.endExtendedHeader
  | .application => p.endPayload
  | _ => .ok p

/-- A field is at hand. That a basic header has two bytes is said here, since the code writes to
    `b0` or `b1` by how many are missing, and would write to neither where more are. -/
def InField (p : Hybi13) : Prop :=
  p.state = .headerBasic ∧ p.bytesNeeded ≤ 2 ∨ p.state = .headerExtended ∨ p.state = .application

/-- How many more turns may take nothing from the buffer: those that only end a field. It is the
    second half of the measure by which `consume` ends. -/
def rank (p : Hybi13) : Nat :=
  match p.state with
  | .headerBasic => if p.bytesNeeded = 0 then 4 else 0
  | .headerExtended => 3
  | .extension => 3
  | .application => 2
  | .ready => 1
  | .fatalError => 0

section

variable {p p' : Hybi13} {buf buf' bs cs : List UInt8}

@[simp] theorem took_fields (m : MsgMetadata) (n : Nat) :
    (p.took m n).state = p.state ∧ (p.took m n).server = p.server ∧
      (p.took m n).basicHeader = p.basicHeader ∧ (p.took m n).bytesNeeded = p.bytesNeeded - n ∧
      (p.took m n).current = m := by
  unfold took setCurrent current
  cases hc : p.currentMsg <;> simp

@[simp] theorem took_took (m m' : MsgMetadata) (n k : Nat) :
    (p.took m n).took m' k = p.took m' (n + k) := by
  unfold took setCurrent
  cases p.currentMsg <;> simp [Nat.sub_sub]

theorem Message.alloc_eq {op : Opcode} {size : Nat} (h : size ≤ maxPayload) :
    Message.alloc op size = .ok ⟨op, []⟩ := if_neg (Nat.not_lt.mpr h)

theorem map_eq_ok {α β : Type} {x : Except Failure α} {f : α → β} {b : β} :
    x.map f = .ok b ↔ ∃ a, x = .ok a ∧ f a = b := by
  cases x <;> simp [Except.map]

/-- Where there is room, the payload is next, with the size that the header has. Which message it is
    appended to matters only where a message ends. -/
theorem beginPayload_spec (h : p.beginPayload = .ok p') :
    p'.state = .application ∧
      p'.bytesNeeded = getPayloadSize p.basicHeader p.extendedHeader := by
  unfold beginPayload at h
  dsimp only at h
  split_ifs at h
  · obtain ⟨m, -, rfl⟩ := map_eq_ok.mp h
    exact ⟨rfl, rfl⟩
  · obtain ⟨m, -, rfl⟩ := map_eq_ok.mp h
    exact ⟨rfl, rfl⟩
  · cases h
    exact ⟨rfl, rfl⟩

@[simp] theorem state_copyBasicHeaderBytes : (p.copyBasicHeaderBytes buf).1.state = p.state := by
  unfold copyBasicHeaderBytes
  split
  · rfl
  · match buf with
    | [] => rfl
    | [b] => dsimp only; split <;> rfl
    | b :: c :: rest => dsimp only; split <;> rfl

theorem unmask_append (isMasked : Bool) (key : UInt64) :
    unmask isMasked (bs ++ cs) key =
      ((unmask isMasked bs key).1 ++ (unmask isMasked cs (unmask isMasked bs key).2).1,
        (unmask isMasked cs (unmask isMasked bs key).2).2) := by
  cases isMasked with
  | false => rfl
  | true => exact wordMaskCirc_append bs cs key

/-- A payload may be processed in parts: the mask, the validator and the message each take up where
    they left off. -/
theorem process_append (m : MsgMetadata) (isMasked : Bool) :
    m.process isMasked (bs ++ cs) =
      (m.process isMasked bs).bind fun m' => m'.process isMasked cs := by
  have hmap : ∀ u v : List UInt8,
      ((m.msgPtr.map fun msg => { msg with payload := msg.payload ++ u }).map
        fun msg => { msg with payload := msg.payload ++ v }) =
      m.msgPtr.map fun msg => { msg with payload := msg.payload ++ (u ++ v) } := by
    intro u v
    cases m.msgPtr <;> simp
  have htext : ∀ (u : List UInt8) (k : UInt64) (v : Validator),
      (MsgMetadata.mk (m.msgPtr.map fun msg => { msg with payload := msg.payload ++ u })
        k v).isText = m.isText := by
    intro u k v
    simp only [MsgMetadata.isText, Option.any_map]
  unfold MsgMetadata.process
  simp only [unmask_append, Validator.decode_append]
  cases hm : m.isText with
  | false => simp [Except.bind, htext, hm, hmap]
  | true =>
    cases hd : (m.validator.decode (unmask isMasked bs m.preparedKey).1).1 with
    | false => simp [Except.bind, hd]
    | true => simp [Except.bind, htext, hm, hmap]

theorem processPayloadBytes_append (p : Hybi13) (bs cs : List UInt8) :
    p.processPayloadBytes (bs ++ cs) =
      (p.processPayloadBytes bs).bind fun q => q.processPayloadBytes cs := by
  unfold processPayloadBytes
  rw [process_append]
  cases p.current.process p.basicHeader.getMasked bs with
  | error e => rfl
  | ok m => simp [Except.bind, Except.map]

/-- What `put` does to the members that the other turns look at. -/
theorem put_spec (hfield : p.InField) (h : p.put bs = .ok p') (hlen : bs.length ≤ p.bytesNeeded) :
    p'.state = p.state ∧ p'.server = p.server ∧ p'.bytesNeeded = p.bytesNeeded - bs.length := by
  rcases hfield with ⟨hs, hle⟩ | hs | hs
  · rw [put, hs] at h
    cases h
    match bs with
    | [] => simp [copyBasicHeaderBytes]
    | [b] =>
      simp only [copyBasicHeaderBytes]
      split_ifs <;> simp_all
    | b :: c :: rest =>
      simp only [List.length_cons] at hlen
      have hrest : rest = [] := List.eq_nil_of_length_eq_zero (by omega)
      subst hrest
      have htwo : p.bytesNeeded = 2 := by
        simp only [List.length_nil] at hlen
        omega
      simp [copyBasicHeaderBytes, htwo]
  · rw [put, hs] at h
    cases h
    simp only [copyExtendedHeaderBytes, Nat.min_eq_right hlen, hs, and_self]
  · rw [put, hs] at h
    dsimp only at h
    split at h
    · next hnil =>
      cases h
      subst hnil
      simp
    · unfold processPayloadBytes at h
      cases hm : p.current.process p.basicHeader.getMasked bs with
      | error e =>
        rw [hm] at h
        cases h
      | ok m =>
        rw [hm] at h
        cases h
        simp

theorem copyBasicHeaderBytes_eq (h : p.bytesNeeded ≤ 2) :
    p.copyBasicHeaderBytes buf =
      ((p.copyBasicHeaderBytes (buf.take p.bytesNeeded)).1, buf.drop p.bytesNeeded) := by
  have hcases : p.bytesNeeded = 0 ∨ p.bytesNeeded = 1 ∨ p.bytesNeeded = 2 := by omega
  unfold copyBasicHeaderBytes
  rcases hcases with hn | hn | hn <;> simp only [hn] <;> match buf with
  | [] => simp
  | [b] => simp
  | b :: c :: rest => simp

theorem copyExtendedHeaderBytes_eq :
    p.copyExtendedHeaderBytes buf =
      ((p.copyExtendedHeaderBytes (buf.take p.bytesNeeded)).1, buf.drop p.bytesNeeded) := by
  have hlen : min p.bytesNeeded (buf.take p.bytesNeeded).length = min p.bytesNeeded buf.length := by
    rw [List.length_take]
    omega
  simp only [copyExtendedHeaderBytes, hlen, List.take_take,
    ← List.take_eq_take_min (l := buf) (i := p.bytesNeeded),
    ← List.drop_eq_drop_min (l := buf) (i := p.bytesNeeded)]
  rw [Nat.min_right_comm, Nat.min_self, ← List.take_eq_take_min]

theorem put_application (hs : p.state = .application) :
    (if 0 < min p.bytesNeeded buf.length then
        p.processPayloadBytes (buf.take (min p.bytesNeeded buf.length)) else .ok p) =
      p.put (buf.take p.bytesNeeded) := by
  have hnil : buf.take p.bytesNeeded = [] ↔ ¬ 0 < min p.bytesNeeded buf.length := by
    rw [← List.length_eq_zero_iff, List.length_take]
    omega
  rw [← List.take_eq_take_min, put, hs]
  by_cases h : 0 < min p.bytesNeeded buf.length
  · simp [h, hnil]
  · simp [h, hnil.mpr h]

/-- **A turn** takes what is missing of the field, or all there is. -/
theorem turn_eq (hfield : p.InField) :
    p.turn buf = (p.put (buf.take p.bytesNeeded)).bind fun q =>
      if 0 < q.bytesNeeded then .ok (q, buf.drop p.bytesNeeded)
      else q.advance.map (·, buf.drop p.bytesNeeded) := by
  have hstate : ∀ q, p.put (buf.take p.bytesNeeded) = .ok q → q.state = p.state :=
    fun q hq => (put_spec hfield hq (List.length_take_le _ _)).1
  rcases hfield with ⟨hs, hle⟩ | hs | hs
  · have hput : p.put (buf.take p.bytesNeeded) =
        .ok (p.copyBasicHeaderBytes (buf.take p.bytesNeeded)).1 := by rw [put, hs]
    rw [hput, turn, hs, copyBasicHeaderBytes_eq hle]
    simp only [Except.bind, advance, hstate _ hput, hs]
  · have hput : p.put (buf.take p.bytesNeeded) =
        .ok (p.copyExtendedHeaderBytes (buf.take p.bytesNeeded)).1 := by rw [put, hs]
    rw [hput, turn, hs, copyExtendedHeaderBytes_eq]
    simp only [Except.bind, advance, hstate _ hput, hs]
  · rw [turn, hs]
    dsimp only
    rw [put_application hs, ← List.drop_eq_drop_min]
    cases hput : p.put (buf.take p.bytesNeeded) with
    | error e => rfl
    | ok q => simp only [Except.bind, advance, hstate q hput, hs]

theorem copyBasicHeaderBytes_append (hle : p.bytesNeeded ≤ 2)
    (hlen : bs.length + cs.length ≤ p.bytesNeeded) :
    (p.copyBasicHeaderBytes (bs ++ cs)).1 =
      ((p.copyBasicHeaderBytes bs).1.copyBasicHeaderBytes cs).1 := by
  have hnil : ∀ q : Hybi13, (q.copyBasicHeaderBytes []).1 = q := by
    intro q
    unfold copyBasicHeaderBytes
    split <;> rfl
  match bs, cs with
  | [], cs => rw [hnil, List.nil_append]
  | bs, [] => rw [hnil, List.append_nil]
  | [b], c :: cs =>
    simp only [List.length_cons] at hlen
    have htwo : p.bytesNeeded = 2 := by
      simp only [List.length_nil] at hlen
      omega
    have hcs : cs = [] := List.eq_nil_of_length_eq_zero (by omega)
    subst hcs
    simp [copyBasicHeaderBytes, htwo]
  | b :: b' :: bs, c :: cs =>
    simp only [List.length_cons] at hlen
    omega

theorem copyExtendedHeaderBytes_append (hlen : bs.length + cs.length ≤ p.bytesNeeded) :
    (p.copyExtendedHeaderBytes (bs ++ cs)).1 =
      ((p.copyExtendedHeaderBytes bs).1.copyExtendedHeaderBytes cs).1 := by
  have hbs : min p.bytesNeeded bs.length = bs.length := by omega
  have hcs : min (p.bytesNeeded - bs.length) cs.length = cs.length := by omega
  have hall : min p.bytesNeeded (bs.length + cs.length) = bs.length + cs.length := by omega
  have htake : (bs ++ cs).take (bs.length + cs.length) = bs ++ cs := by
    rw [← List.length_append, List.take_length]
  simp only [copyExtendedHeaderBytes, List.length_append, hbs, hcs, hall, htake, List.take_length,
    write_append, Nat.add_assoc, Nat.sub_sub]

/-- **A field may come in parts.** -/
theorem put_append (hfield : p.InField) (hlen : (bs ++ cs).length ≤ p.bytesNeeded) :
    p.put (bs ++ cs) = (p.put bs).bind fun q => q.put cs := by
  rw [List.length_append] at hlen
  -- one case for each field that a byte can be part of
  rcases hfield with ⟨hs, hle⟩ | hs | hs
  · have hput : ∀ (q : Hybi13) (ds : List UInt8), q.state = .headerBasic →
        q.put ds = .ok (q.copyBasicHeaderBytes ds).1 := by
      intro q ds hq
      rw [put, hq]
    rw [hput p _ hs, hput p _ hs, copyBasicHeaderBytes_append hle hlen, Except.bind,
      hput _ _ (by rw [state_copyBasicHeaderBytes, hs])]
  · have hput : ∀ (q : Hybi13) (ds : List UInt8), q.state = .headerExtended →
        q.put ds = .ok (q.copyExtendedHeaderBytes ds).1 := by
      intro q ds hq
      rw [put, hq]
    rw [hput p _ hs, hput p _ hs, copyExtendedHeaderBytes_append hlen, Except.bind,
      hput (p.copyExtendedHeaderBytes bs).1 _ hs]
  · have hput : ∀ (q : Hybi13) (ds : List UInt8), q.state = .application →
        q.put ds = if ds = [] then .ok q else q.processPayloadBytes ds := by
      intro q ds hq
      rw [put, hq]
    rw [hput p _ hs, hput p _ hs]
    by_cases hbs : bs = []
    · subst hbs
      rw [if_pos rfl, Except.bind, List.nil_append, hput p _ hs]
    · rw [if_neg hbs, if_neg (by simp [hbs]), processPayloadBytes_append]
      cases hprocess : p.processPayloadBytes bs with
      | error e => rfl
      | ok q =>
        have hq : q.state = .application := by
          have hput' : p.put bs = .ok q := by rw [hput p _ hs, if_neg hbs, hprocess]
          rw [(put_spec (.inr (.inr hs)) hput' (by omega)).1, hs]
        rw [Except.bind, Except.bind, hput q _ hq]
        split
        · next hcs =>
          subst hcs
          have hwhole := processPayloadBytes_append p bs []
          rw [List.append_nil, hprocess] at hwhole
          exact hwhole.symm
        · rfl

/-! ## The loop ends

A turn that takes nothing from the buffer ends a field, and after at most three such turns in a row
a message is ready or bytes are needed. So the buffer and the rank of the state go down together,
and `consume` is defined by that, with no fuel. -/

theorem length_copyBasicHeaderBytes (h : p.bytesNeeded ≠ 0) (hbuf : buf ≠ []) :
    (p.copyBasicHeaderBytes buf).2.length < buf.length := by
  unfold copyBasicHeaderBytes
  rw [if_neg h]
  match buf, hbuf with
  | [b], _ => dsimp only; split <;> simp
  | b :: c :: rest, _ => dsimp only; split <;> simp

theorem rank_of_advance (hs : p.state = .headerBasic ∧ p.bytesNeeded = 0 ∨
    p.state = .headerExtended ∨ p.state = .application) (h : p.advance = .ok p') :
    p'.rank < p.rank := by
  unfold advance at h
  rcases hs with ⟨hs, hz⟩ | hs | hs
  · rw [hs] at h
    dsimp only [endBasicHeader] at h
    split at h
    · cases h
    · cases h
      simp [rank, hs, hz]
  · rw [hs] at h
    dsimp only [endExtendedHeader] at h
    split at h
    · cases h
    · simp [rank, hs, (beginPayload_spec h).1]
  · rw [hs] at h
    dsimp only [endPayload] at h
    split at h
    · split at h
      · cases h
      · cases h
        simp [rank, hs]
    · cases h
      simp [rank, hs, resetHeaders]

/-- **A turn takes something from the buffer**, or brings the next one closer that does. -/
theorem turn_lt (hbusy : p.Busy buf) (h : p.turn buf = .ok (p', buf')) :
    buf'.length < buf.length ∨ buf' = buf ∧ p'.rank < p.rank := by
  obtain ⟨hready, hfatal, hmore⟩ := hbusy
  by_cases hfield : p.InField
  · rw [turn_eq hfield] at h
    cases hput : p.put (buf.take p.bytesNeeded) with
    | error e =>
      rw [hput] at h
      cases h
    | ok q =>
      obtain ⟨hstate, -, hneed⟩ := put_spec hfield hput (List.length_take_le _ _)
      rw [List.length_take] at hneed
      rw [hput, Except.bind] at h
      have hdrop : buf ≠ [] → p.bytesNeeded ≠ 0 → (buf.drop p.bytesNeeded).length < buf.length := by
        intro hne hz
        have hpos := List.length_pos_iff.mpr hne
        rw [List.length_drop]
        omega
      by_cases hz : p.bytesNeeded = 0
      · right
        rw [if_neg (by omega), hz, List.drop_zero] at h
        cases hadvance : q.advance with
        | error e =>
          rw [hadvance] at h
          cases h
        | ok q' =>
          rw [hadvance] at h
          cases h
          have hrank : q.rank = p.rank := by
            rw [rank, rank, hstate, show q.bytesNeeded = 0 by omega, hz]
          rw [← hrank]
          refine ⟨rfl, rank_of_advance ?_ hadvance⟩
          rw [hstate]
          rcases hfield with ⟨hs, -⟩ | hs | hs
          · exact .inl ⟨hs, by omega⟩
          · exact .inr (.inl hs)
          · exact .inr (.inr hs)
      · left
        have hlt := hdrop (hmore.resolve_right hz) hz
        split at h
        · cases h
          exact hlt
        · cases hadvance : q.advance with
          | error e =>
            rw [hadvance] at h
            cases h
          | ok q' =>
            rw [hadvance] at h
            cases h
            exact hlt
  · unfold turn at h
    cases hs : p.state with
    | headerBasic =>
      -- More than two bytes are missing, so that one or two of them are taken.
      have hz : p.bytesNeeded ≠ 0 := by
        intro hz
        exact hfield (.inl ⟨hs, by omega⟩)
      have hlt := length_copyBasicHeaderBytes hz (hmore.resolve_right hz)
      rw [hs] at h
      dsimp only at h
      left
      split at h
      · cases h
        exact hlt
      · cases hend : (p.copyBasicHeaderBytes buf).1.endBasicHeader with
        | error e =>
          rw [hend] at h
          cases h
        | ok q =>
          rw [hend] at h
          cases h
          exact hlt
    | headerExtended => exact absurd (.inr (.inl hs)) hfield
    | extension =>
      rw [hs] at h
      cases h
      exact .inr ⟨rfl, by simp [rank, hs]⟩
    | application => exact absurd (.inr (.inr hs)) hfield
    | ready => exact absurd hs hready
    | fatalError => exact absurd hs hfatal

end

/-- `consume`, and what it leaves of `buf`. -/
def consume (p : Hybi13) (buf : List UInt8) : Except Failure (Hybi13 × List UInt8) :=
  if _h : p.Busy buf then
    match _hturn : p.turn buf with
    | .error e => .error e
    | .ok (p', buf') => consume p' buf'
  else .ok (p, buf)
termination_by (buf.length, p.rank)
decreasing_by
  rcases turn_lt _h _hturn with hlt | ⟨rfl, hlt⟩
  · exact Prod.Lex.left _ _ hlt
  · exact Prod.Lex.right _ hlt

/-- `ready` -/
def isReady (p : Hybi13) : Bool := p.state = .ready

/-- `get_message` -/
def getMessage (p : Hybi13) : Option Message × Hybi13 :=
  if p.isReady then
    let ret := p.current.msgPtr
    let p := p.setCurrent { p.current with msgPtr := none }
    let p :=
      if ret.any (·.opcode.isControl) then
        { p with controlMsg := { p.controlMsg with msgPtr := none } }
      else { p with dataMsg := { p.dataMsg with msgPtr := none } }
    (ret, p.resetHeaders)
  else (none, p)

end Hybi13

end WebsocketTest.WebSocket
