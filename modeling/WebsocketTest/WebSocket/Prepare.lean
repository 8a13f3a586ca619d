import WebsocketTest.WebSocket.Frames

/-!
# Preparing frames

`processor::hybi13`, the part that writes: what `prepare_data_frame`, `prepare_ping`, `prepare_pong`
and `prepare_close` put into a message buffer is the header and the payload of one frame, masked
with a key from the random number generator where the endpoint is a client. The close codes are
those of `close.hpp`.

**`prepared_is_read`** — the endpoint at the other end reads back what was prepared, whatever the
keys are and however the bytes are cut.

## What has to be asked of a sender

The functions check what they are given, and give an error for most of what could not be read back:
a text that is not UTF-8, a control frame that is too long, a reserved close code. Two things they
do not check, and `Outgoing.Sendable` asks for them. The opcode of a data frame must be one of a
message, because `prepare_data_frame` refuses control opcodes only. And the payload must be one that
a string can hold, which it is in every caller, since it comes in one.

A close reason is not checked to be UTF-8 here, and need not be for the frame to be read: only the
application at the other end looks at it. The module on closing has the stronger condition.
-/

set_option autoImplicit false

namespace WebsocketTest.WebSocket

open Lib.ByteOrder Lib.Framing Lib.Masking Lib.Utf8

/-! ## Close codes -/

namespace Close

/-- `status::blank` -/
def blank : UInt16 := 0

/-- `status::normal` -/
def normal : UInt16 := 1000

/-- `status::protocol_error` -/
def protocolError : UInt16 := 1002

/-- `status::no_status` -/
def noStatus : UInt16 := 1005

/-- `status::abnormal_close` -/
def abnormalClose : UInt16 := 1006

/-- `status::invalid_payload` -/
def invalidPayload : UInt16 := 1007

/-- `status::policy_violation` -/
def policyViolation : UInt16 := 1008

/-- `status::message_too_big` -/
def messageTooBig : UInt16 := 1009

/-- `status::internal_endpoint_error` -/
def internalEndpointError : UInt16 := 1011

/-- `status::tls_handshake` -/
def tlsHandshake : UInt16 := 1015

/-- `status::rsv_start` -/
def rsvStart : UInt16 := 1016

/-- `status::rsv_end` -/
def rsvEnd : UInt16 := 2999

/-- `status::reserved` -/
def reserved (code : UInt16) : Bool :=
  rsvStart ≤ code ∧ code ≤ rsvEnd ∨ code = 1004 ∨ code = 1012 ∨ code = 1013 ∨ code = 1014

/-- `status::invalid_low` -/
def invalidLow : UInt16 := 999

/-- `status::invalid_high` -/
def invalidHigh : UInt16 := 5000

/-- `status::invalid` -/
def invalid (code : UInt16) : Bool :=
  code ≤ invalidLow ∨ invalidHigh ≤ code ∨ code = noStatus ∨ code = abnormalClose ∨
    code = tlsHandshake

/-- `status::terminal` -/
def terminal (code : UInt16) : Bool :=
  code = protocolError ∨ code = invalidPayload ∨ code = policyViolation ∨ code = messageTooBig ∨
    code = internalEndpointError

end Close

/-- The `websocketpp::error` codes of the operations here. -/
inductive ErrorValue
  | general
  | invalidState
  | badCloseCode
  | reservedCloseCode
  | invalidCloseCode
  | invalidUtf8
  | closeHandshakeTimeout
  deriving DecidableEq, Repr

namespace Close

/-- `extract_code`: the code, and the error if there is one. -/
def extractCode : List UInt8 → UInt16 × Option ErrorValue
  | [] => (noStatus, none)
  | [_] => (protocolError, some .badCloseCode)
  | b :: c :: _ =>
    let code := UInt16.ofNat (ntohs (load [b, c]))
    (code, if reserved code then some .reservedCloseCode
      else if invalid code then some .invalidCloseCode else none)

/-- `extract_reason`: the reason, and the error if there is one. -/
def extractReason (payload : List UInt8) : List UInt8 × Option ErrorValue :=
  let reason := if 2 < payload.length then payload.drop 2 else []
  (reason, if validate reason then none else some .invalidUtf8)

/-- The two bytes of `code_converter`, with `htons(code)` in it. -/
def codeBytes (code : UInt16) : List UInt8 := store 2 (ntohs code.toNat)

/-- The payload that `prepare_close` makes. -/
def payload (code : UInt16) (reason : List UInt8) : List UInt8 :=
  if code ≠ noStatus then codeBytes code ++ reason else []

@[simp] theorem length_codeBytes (code : UInt16) : (codeBytes code).length = 2 :=
  length_store 2 _

/-- **A close code is read back**, if it may be sent at all: the others are taken for an error by
    `extract_code`, as they are by the function that prepares the frame. -/
theorem extractCode_payload {code : UInt16} (reason : List UInt8) (hr : reserved code = false)
    (hi : code ≠ noStatus → invalid code = false) :
    extractCode (payload code reason) = (code, none) := by
  unfold payload
  by_cases hcode : code = noStatus
  · rw [if_neg (not_not.mpr hcode), extractCode, hcode]
  · rw [if_pos hcode]
    have hlen : (codeBytes code).length = 2 := length_codeBytes code
    have hnat : ntohs (load (codeBytes code)) = code.toNat := by
      have hswap := swap_load (codeBytes code)
      rw [hlen] at hswap
      rw [ntohs, hswap, codeBytes, ntohs, store_swap, beNat_beBytes_of_lt code.toNat_lt]
    obtain ⟨b, c, hbc⟩ : ∃ b c, codeBytes code = [b, c] := List.length_eq_two.mp hlen
    rw [hbc] at hnat ⊢
    rw [List.cons_append, List.cons_append, extractCode, hnat, UInt16.ofNat_toNat]
    simp [hr, hi hcode]

/-- **A reason is read back**, whatever its bytes are. Without a code there is no room for one. -/
theorem extractReason_payload {code : UInt16} {reason : List UInt8}
    (hreason : code = noStatus → reason = []) :
    (extractReason (payload code reason)).1 = reason := by
  have hlen : (codeBytes code).length = 2 := length_codeBytes code
  unfold payload
  by_cases hcode : code = noStatus
  · rw [if_neg (not_not.mpr hcode), hreason hcode]
    rfl
  · rw [if_pos hcode, extractReason]
    cases reason with
    | nil => simp
    | cons b bs =>
      have hlt : 2 < (codeBytes code ++ b :: bs).length := by simp
      rw [if_pos hlt, List.drop_left' hlen]

end Close

/-! ## The frames

The key comes from the random number generator, and only a client asks for one. It is a parameter
here, so that what is proved holds of every generator. -/

/-- A message buffer with a frame in it, and whether it is the last thing to be written. -/
structure Prepared where
  header : List UInt8
  payload : List UInt8
  terminal : Bool := false
  deriving DecidableEq, Repr

/-- What goes out, the header in front of the payload. -/
def Prepared.bytes (m : Prepared) : List UInt8 := m.header ++ m.payload

/-- The header and the payload, with the key that the generator gives if it is asked. -/
def prepare (isServer : Bool) (key : UInt32) (op : Opcode) (fin : Bool) (i : List UInt8) :
    Prepared :=
  let masked := !isServer
  let h := BasicHeader.new op i.length fin masked
  if masked then ⟨prepareHeader h (.ofSizeKey i.length key), wordMaskExact i key, false⟩
  else ⟨prepareHeader h (.ofSize i.length), i, false⟩

/-- `prepare_data_frame` -/
def prepareDataFrame (isServer : Bool) (key : UInt32) (op : Opcode) (fin : Bool)
    (i : List UInt8) : Except Error Prepared :=
  if op.isControl then .error .invalidOpcode
  else if op = .text ∧ ¬ validate i then .error .invalidPayload
  else .ok (prepare isServer key op fin i)

/-- `prepare_control` -/
def prepareControl (isServer : Bool) (key : UInt32) (op : Opcode) (payload : List UInt8) :
    Except Error Prepared :=
  if ¬ op.isControl then .error .invalidOpcode
  else if payloadSizeBasic < payload.length then .error .controlTooBig
  else .ok (prepare isServer key op true payload)

/-- `prepare_ping` -/
def preparePing (isServer : Bool) (key : UInt32) (payload : List UInt8) : Except Error Prepared :=
  prepareControl isServer key .ping payload

/-- `prepare_pong` -/
def preparePong (isServer : Bool) (key : UInt32) (payload : List UInt8) : Except Error Prepared :=
  prepareControl isServer key .pong payload

/-- `prepare_close` -/
def prepareClose (isServer : Bool) (key : UInt32) (code : UInt16) (reason : List UInt8) :
    Except Error Prepared :=
  if Close.reserved code then .error .reservedCloseCode
  else if Close.invalid code ∧ code ≠ Close.noStatus then .error .invalidCloseCode
  else if code = Close.noStatus ∧ 0 < reason.length then .error .reasonRequiresCode
  else if payloadSizeBasic - 2 < reason.length then .error .controlTooBig
  else prepareControl isServer key .close (Close.payload code reason)

variable {server : Bool} {key : UInt32} {op : Opcode} {fin : Bool} {i : List UInt8} {m : Prepared}

/-- The frame that was prepared, as one of the wire. -/
def frameOf (isServer : Bool) (key : UInt32) (op : Opcode) (fin : Bool) (i : List UInt8) : Frame :=
  ⟨fin, op, if isServer then none else some key, i⟩

/-- **What is prepared is a frame.** -/
theorem bytes_prepare :
    (prepare server key op fin i).bytes = (frameOf server key op fin i).bytes := by
  cases server with
  | true =>
    have hheader := prepareHeader_eq op i.length fin
    simp [prepare, Prepared.bytes, frameOf, Frame.bytes, Frame.header, Frame.extension,
      Frame.maskedPayload, hheader]
  | false =>
    have hheader := prepareHeader_eq_of_masked op i.length fin key
    simp [prepare, Prepared.bytes, frameOf, Frame.bytes, Frame.header, Frame.extension,
      Frame.maskedPayload, hheader, wordMaskExact_eq]

theorem isSome_key_frameOf : (frameOf server key op fin i).key.isSome = !server := by
  cases server <;> rfl

theorem prepareDataFrame_ok (h : prepareDataFrame server key op fin i = .ok m) :
    m = prepare server key op fin i ∧ op.isControl = false ∧
      (op = .text → ∃ cs, i = encode cs) := by
  unfold prepareDataFrame at h
  split at h
  · cases h
  · next hop =>
    split at h
    · cases h
    · next htext =>
      cases h
      refine ⟨rfl, by simpa using hop, fun ht => validate_iff.mp ?_⟩
      by_contra hnot
      exact htext ⟨ht, hnot⟩

theorem prepareControl_ok {payload : List UInt8}
    (h : prepareControl server key op payload = .ok m) :
    m = prepare server key op true payload ∧ payload.length ≤ payloadSizeBasic := by
  unfold prepareControl at h
  split at h
  · cases h
  · split at h
    · cases h
    · next hlen =>
      cases h
      exact ⟨rfl, Nat.not_lt.mp hlen⟩

/-- What may be closed with: no reserved code, no code out of range but the one for none, and no
    reason without a code. -/
theorem prepareClose_ok {code : UInt16} {reason : List UInt8}
    (h : prepareClose server key code reason = .ok m) :
    prepareControl server key .close (Close.payload code reason) = .ok m ∧
      Close.reserved code = false ∧ (code ≠ Close.noStatus → Close.invalid code = false) ∧
      (code = Close.noStatus → reason = []) := by
  unfold prepareClose at h
  split at h
  · cases h
  · next hr =>
    split at h
    · cases h
    · next hi =>
      split at h
      · cases h
      · next hreason =>
        split at h
        · cases h
        · refine ⟨h, by simpa using hr, fun hcode => ?_, fun hcode => ?_⟩
          · by_contra hinv
            exact hi ⟨by simpa using hinv, hcode⟩
          · by_contra hne
            exact hreason ⟨hcode, List.length_pos_iff.mpr hne⟩

/-- A control frame of the one endpoint is a message to the other, whatever else is in the
    making. -/
theorem receive_control {payload : List UInt8} (hop : op = .close ∨ op = .ping ∨ op = .pong)
    (hlen : payload.length ≤ payloadSizeBasic) (a : Option Message) :
    Receive (!server) a (frameOf server key op true payload) [⟨op, payload⟩] a :=
  .control isSome_key_frameOf hop rfl hlen

/-- A data frame that is a whole message is one to the other endpoint, where none is in the making.
    These two are all that is needed of what the other endpoint reads: nothing is sent in parts. -/
theorem receive_data (hop : op = .text ∨ op = .binary) (hlen : i.length ≤ maxPayload)
    (htext : op = .text → ∃ cs, i = encode cs) :
    Receive (!server) none (frameOf server key op true i) [⟨op, i⟩] none := by
  have hlt : i.length < 2 ^ 64 := Nat.lt_of_le_of_lt hlen (by decide)
  refine .last isSome_key_frameOf hlt (.first hop hlen) ?_ rfl htext
  intro ht
  obtain ⟨cs, hcs⟩ := htext ht
  exact ⟨[], cs, by rw [List.append_nil]; exact hcs⟩

/-! ## What an endpoint sends

What was asked for (`Outgoing`), what was prepared for it (`Prepared`) and what should come of it at
the other end (`Outgoing.message`). The models of a connection and of two of them keep the first, so
that nothing there speaks of bytes. -/

/-- What there is to send, as the functions that prepare it are called. -/
inductive Outgoing
  | data (op : Opcode) (payload : List UInt8)
  | ping (payload : List UInt8)
  | pong (payload : List UInt8)
  | close (code : UInt16) (reason : List UInt8)
  deriving DecidableEq, Repr

namespace Outgoing

def prepare (isServer : Bool) (key : UInt32) : Outgoing → Except Error Prepared
  | data op payload => prepareDataFrame isServer key op true payload
  | ping payload => preparePing isServer key payload
  | pong payload => preparePong isServer key payload
  | close code reason => prepareClose isServer key code reason

/-- What the other endpoint should get. -/
def message : Outgoing → Message
  | data op payload => ⟨op, payload⟩
  | ping payload => ⟨.ping, payload⟩
  | pong payload => ⟨.pong, payload⟩
  | close code reason => ⟨.close, Close.payload code reason⟩

/-- The data opcodes are those of the two kinds of messages. A payload is handed to `send` in a
    `std::string`, so that it is no longer than one can be; no function checks its length. -/
def Sendable : Outgoing → Prop
  | data op payload => (op = .text ∨ op = .binary) ∧ payload.length ≤ maxPayload
  | _ => True

/-- **One thing that was sent is one message.** -/
theorem receive {o : Outgoing} (hs : o.Sendable) (h : o.prepare server key = .ok m) :
    ∃ f : Frame, m.bytes = f.bytes ∧ Receive (!server) none f [o.message] none := by
  have hcontrol : ∀ {op payload}, op = .close ∨ op = .ping ∨ op = .pong →
      prepareControl server key op payload = .ok m →
      ∃ f : Frame, m.bytes = f.bytes ∧ Receive (!server) none f [⟨op, payload⟩] none := by
    intro op payload hop hprepare
    obtain ⟨rfl, hlen⟩ := prepareControl_ok hprepare
    exact ⟨_, bytes_prepare, receive_control hop hlen none⟩
  cases o with
  | data op payload =>
    obtain ⟨hop, hlen⟩ := hs
    obtain ⟨rfl, -, htext⟩ := prepareDataFrame_ok h
    exact ⟨_, bytes_prepare, receive_data hop hlen htext⟩
  | ping payload => exact hcontrol (.inr (.inl rfl)) h
  | pong payload => exact hcontrol (.inr (.inr rfl)) h
  | close code reason => exact hcontrol (.inl rfl) (prepareClose_ok h).1

end Outgoing

/-- What was prepared, one after the other, each with a key of its own. -/
inductive PreparedAll (server : Bool) : List Outgoing → List Prepared → Prop
  | nil : PreparedAll server [] []
  | cons {o : Outgoing} {os : List Outgoing} {m : Prepared} {ms : List Prepared} {key : UInt32}
      (hs : o.Sendable) (h : o.prepare server key = .ok m) (tail : PreparedAll server os ms) :
      PreparedAll server (o :: os) (m :: ms)

theorem PreparedAll.receiveAll {os : List Outgoing} {ms : List Prepared}
    (h : PreparedAll server os ms) :
    ∃ fs : List Frame, ms.flatMap Prepared.bytes = fs.flatMap Frame.bytes ∧
      ReceiveAll (!server) none fs (os.map Outgoing.message) none := by
  induction h with
  | nil => exact ⟨[], rfl, .nil⟩
  | cons hs h _ ih =>
    obtain ⟨f, hf, hreceive⟩ := Outgoing.receive hs h
    obtain ⟨fs, hfs, hreceives⟩ := ih
    refine ⟨f :: fs, ?_, .cons hreceive hreceives⟩
    rw [List.flatMap_cons, List.flatMap_cons, hf, hfs]

/-- The other endpoint reads what was prepared, whatever comes behind it. -/
theorem PreparedAll.handleReadFrame {os : List Outgoing} {ms : List Prepared}
    (h : PreparedAll server os ms) :
    ∃ q : Hybi13, q.At (!server) none ∧ ∀ ys,
      (Hybi13.new (!server)).handleReadFrame (ms.flatMap Prepared.bytes ++ ys) =
        (os.map Outgoing.message ++ (q.handleReadFrame ys).1, (q.handleReadFrame ys).2) := by
  obtain ⟨fs, hfs, hreceives⟩ := h.receiveAll
  obtain ⟨q, hq, hread⟩ := Hybi13.handleReadFrame_complete (Hybi13.new_at (!server)) hreceives
  exact ⟨q, hq, fun ys => by rw [hfs, hread]⟩

theorem PreparedAll.mem {os : List Outgoing} {ms : List Prepared} (h : PreparedAll server os ms)
    {o : Outgoing} (hmem : o ∈ os) : o.Sendable ∧ ∃ key m, o.prepare server key = .ok m := by
  induction h with
  | nil => cases hmem
  | cons hs hprepare _ ih =>
    cases hmem with
    | head => exact ⟨hs, _, _, hprepare⟩
    | tail _ hmem => exact ih hmem

theorem PreparedAll.close {os : List Outgoing} {ms : List Prepared} (h : PreparedAll server os ms)
    {code : UInt16} {reason : List UInt8} (hmem : .close code reason ∈ os) :
    Close.extractCode (Close.payload code reason) = (code, none) ∧
      (Close.extractReason (Close.payload code reason)).1 = reason := by
  obtain ⟨-, key, m, hprepare⟩ := h.mem hmem
  obtain ⟨-, hr, hi, hreason⟩ := prepareClose_ok hprepare
  exact ⟨Close.extractCode_payload reason hr hi, Close.extractReason_payload hreason⟩

/-- **What was prepared is read back** by the endpoint at the other end, however the bytes are cut
    and whatever the keys were; and from a close frame, its code and its reason. -/
theorem prepared_is_read {os : List Outgoing} {ms : List Prepared} (h : PreparedAll server os ms)
    {bufs : List (List UInt8)} (hbufs : bufs.flatten = ms.flatMap Prepared.bytes) :
    (∃ q, (Hybi13.new (!server)).readAll bufs = (os.map Outgoing.message, .waiting q)) ∧
      ∀ code reason, .close code reason ∈ os →
        Close.extractCode (Close.payload code reason) = (code, none) ∧
          (Close.extractReason (Close.payload code reason)).1 = reason := by
  refine ⟨?_, fun code reason hmem => h.close hmem⟩
  obtain ⟨q, -, hread⟩ := h.handleReadFrame
  have hall := hread []
  rw [List.append_nil, Hybi13.handleReadFrame_nil, List.append_nil] at hall
  exact ⟨q, by rw [Hybi13.readAll_eq_handleReadFrame (Hybi13.new_waiting _), hbufs, hall]⟩

/-- A text and a close frame of a client, cut in the middle of the first header. -/
theorem prepared_is_read_hi :
    (∃ q, (Hybi13.new true).readAll
        [[0x81], [0x82, 7, 0, 0, 0, 0x4F, 0x69, 0x88, 0x82, 9, 0, 0, 0, 10, 0xE8]] =
        ([⟨.text, [0x48, 0x69]⟩, ⟨.close, Close.payload Close.normal []⟩], .waiting q)) ∧
      ∀ code reason,
        .close code reason ∈ [Outgoing.data .text [0x48, 0x69], .close Close.normal []] →
        Close.extractCode (Close.payload code reason) = (code, none) ∧
          (Close.extractReason (Close.payload code reason)).1 = reason :=
  have h : PreparedAll false [.data .text [0x48, 0x69], .close Close.normal []]
      [prepare false 7 .text true [0x48, 0x69],
        prepare false 9 .close true (Close.payload Close.normal [])] :=
    .cons ⟨.inl rfl, by decide⟩ rfl (.cons trivial rfl .nil)
  prepared_is_read h (by decide)

end WebsocketTest.WebSocket
