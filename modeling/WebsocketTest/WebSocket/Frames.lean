import WebsocketTest.WebSocket.Reading
import WebsocketTest.WebSocket.Wire

/-!
# What a sequence of frames comes to

`Receive` says which frame may follow on which, and what it completes, with the message that is in
the making between two frames. A control frame completes a message of its own and leaves the other
one alone. A text has to begin like UTF-8 at every frame, and is UTF-8 to its end where it is one
frame long: the end of a text in several frames is not looked at, because the frame that ends it is
not a text frame. And the payload of a message's first frame has to be one that a string holds,
since room is made for it before any of it comes; nothing else bounds a length.

**`handleReadFrame_complete`** — the processor reads every such sequence, to the same messages.

## How a frame is read

The relation knows nothing of states and fields. It is related to the processor where one frame ends
and the next begins: `At` says that there the processor is as it was when it was new, but for the
message in the making and its validator. Between two such points a frame is read in four steps, each
with a lemma of its own: the two bytes in front (`consume_basic`), the rest of the header
(`consume_header`), the room for a new message (`afterHeader_inPayload`, or `consume_full` where
there is none), and the payload (`consume_payload`). Each says what happens for any bytes that come
next, so that a frame is read the same in front of others as alone, and the modules that use this
need no step of `consume`.

Only the completeness half is here. That nothing else is read is proved in the module on soundness,
from the same four lemmas.
-/

set_option autoImplicit false

namespace WebsocketTest.WebSocket

open Lib.Utf8 Lib.Memory

/-! ## Which frame may follow on which -/

/-- The payload of a text begins like a text: more bytes could make it one. Of messages of other
    kinds it says nothing. -/
def Message.Begins (m : Message) : Prop :=
  m.opcode = .text → ∃ rest cs, m.payload ++ rest = encode cs

/-- `Extends a f m`: with the data frame `f`, the message `a` in the making becomes `m`. -/
inductive Extends : Option Message → Frame → Message → Prop
  | first {f : Frame} : f.opcode = .text ∨ f.opcode = .binary → f.payload.length ≤ maxPayload →
      Extends none f ⟨f.opcode, f.payload⟩
  | next {m : Message} {f : Frame} : f.opcode = .continuation →
      Extends (some m) f ⟨m.opcode, m.payload ++ f.payload⟩

/-- An endpoint takes the frame `f` where the message `a` is in the making; `msgs` is what that
    completes, and then `a'` is in the making. -/
inductive Receive (server : Bool) : Option Message → Frame → List Message → Option Message → Prop
  | control {a : Option Message} {f : Frame} : f.key.isSome = server →
      f.opcode = .close ∨ f.opcode = .ping ∨ f.opcode = .pong → f.fin = true →
      f.payload.length ≤ payloadSizeBasic →
      Receive server a f [⟨f.opcode, f.payload⟩] a
  | more {a : Option Message} {f : Frame} {m : Message} : f.key.isSome = server →
      f.payload.length < 2 ^ 64 → Extends a f m → m.Begins → f.fin = false →
      Receive server a f [] (some m)
  | last {a : Option Message} {f : Frame} {m : Message} : f.key.isSome = server →
      f.payload.length < 2 ^ 64 → Extends a f m → m.Begins → f.fin = true →
      (f.opcode = .text → ∃ cs, m.payload = encode cs) →
      Receive server a f [m] none

/-- One frame after the other, each where the one before it has left the message in the making. -/
inductive ReceiveAll (server : Bool) :
    Option Message → List Frame → List Message → Option Message → Prop
  | nil {a : Option Message} : ReceiveAll server a [] [] a
  | cons {a a' b : Option Message} {f : Frame} {fs : List Frame} {msgs msgs' : List Message} :
      Receive server a f msgs a' → ReceiveAll server a' fs msgs' b →
      ReceiveAll server a (f :: fs) (msgs ++ msgs') b

/-! ## Headers

The validation of the two bytes in front is a chain of checks, each with its error. What passes all
of them is said once, of a frame's own header. -/

theorem control_iff {op : Opcode} (h : op.reserved = false) :
    op.isControl = true ↔ op = .close ∨ op = .ping ∨ op = .pong := by
  cases op <;> revert h <;> decide

theorem data_iff {op : Opcode} (h : op.reserved = false) :
    op.isControl = false ↔ op = .continuation ∨ op = .text ∨ op = .binary := by
  cases op <;> revert h <;> decide

theorem invalid_eq_false (op : Opcode) : op.invalid = false := by
  cases op <;> decide

/-- One check of a chain of them. -/
theorem check_eq_none {c : Prop} [Decidable c] {e : Error} {next : Option Error} :
    (if c then some e else next) = none ↔ ¬ c ∧ next = none := by
  split <;> simp [*]

theorem rsv_of_validate {h : BasicHeader} {server newMsg : Bool}
    (hv : validateIncomingBasicHeader h server newMsg = none) :
    h.getRsv1 = false ∧ h.getRsv2 = false ∧ h.getRsv3 = false := by
  simp only [validateIncomingBasicHeader, check_eq_none, not_or, Bool.not_eq_true] at hv
  exact ⟨hv.2.1, hv.2.2.1⟩

/-- **The headers that pass**: no reserved opcode, a key exactly where the reader is a server,
    control frames short and whole, and a continuation exactly where there is something to continue.
    -/
theorem validate_header_iff {f : Frame} {server newMsg : Bool} :
    validateIncomingBasicHeader f.header server newMsg = none ↔
      f.opcode.reserved = false ∧ f.key.isSome = server ∧
      (f.opcode.isControl = true → f.payload.length ≤ payloadSizeBasic ∧ f.fin = true) ∧
      (f.opcode.isControl = false → (newMsg = true ↔ f.opcode ≠ .continuation)) := by
  have hsize : payloadSizeBasic < (basicValue f.payload.length).toNat ↔
      ¬ f.payload.length ≤ payloadSizeBasic := by
    constructor
    · intro hlt hle
      rw [Frame.basicValue_toNat hle] at hlt
      omega
    · exact Frame.lt_basicValue_toNat
  have hcontinuation : f.opcode = .continuation → f.opcode.isControl = false := by
    intro h
    rw [h]
    rfl
  simp only [validateIncomingBasicHeader, Frame.header, BasicHeader.getOpcode_new,
    BasicHeader.getBasicSize_new, BasicHeader.getRsv1_new, BasicHeader.getRsv2_new,
    BasicHeader.getRsv3_new, BasicHeader.getFin_new, BasicHeader.getMasked_new, hsize,
    invalid_eq_false, check_eq_none]
  cases hk : f.key.isSome <;> cases hc : f.opcode.isControl <;> cases server <;> grind

namespace Hybi13

variable {p q : Hybi13} {server : Bool} {a a' : Option Message} {xs ys ext pay : List UInt8}

/-! ## Where a frame begins -/

/-- A field that is there whole is put where it belongs and ended, whatever is behind it. -/
theorem consume_whole (h : p.InField) (ys : List UInt8) (hlen : xs.length = p.bytesNeeded) :
    p.consume (xs ++ ys) =
      (p.put xs).bind fun q => q.advance.bind fun r => r.consume ys := by
  have hbusy : p.Busy (xs ++ ys) := by
    apply h.busy
    by_cases hxs : xs = []
    · right
      rw [← hlen, hxs]
      rfl
    · left
      simp [hxs]
  rw [consume_of_busy hbusy, turn_eq h, List.take_left' hlen, List.drop_left' hlen]
  cases hput : p.put xs with
  | error e => rfl
  | ok q =>
    obtain ⟨-, hneed⟩ := h.put hput (Nat.le_of_eq hlen)
    simp only [Except.bind, if_neg (show ¬ 0 < q.bytesNeeded by omega)]
    cases q.advance <;> rfl

/-- Between two frames, with the message `a` in the making. That `a` is no control message is part
    of it, because control messages are whole in one frame. -/
structure At (p : Hybi13) (server : Bool) (a : Option Message) : Prop where
  server : p.server = server
  state : p.state = .headerBasic
  bytesNeeded : p.bytesNeeded = 2
  extendedHeader : p.extendedHeader = .empty
  msgPtr : p.dataMsg.msgPtr = a
  validator : ∀ m, a = some m → m.opcode = .text →
    ({} : Validator).decode m.payload = (true, p.dataMsg.validator)
  data : ∀ m, a = some m → m.opcode.isControl = false

theorem new_at (server : Bool) : (new server).At server none :=
  ⟨rfl, rfl, rfl, rfl, rfl, nofun, nofun⟩

theorem At.inField (h : p.At server a) : p.InField := .inl ⟨h.state, by rw [h.bytesNeeded]⟩

theorem At.waiting (h : p.At server a) : p.Waiting :=
  ⟨h.inField, by rw [h.bytesNeeded]; exact Nat.zero_lt_two⟩

/-- A header was read, and this is where its payload begins, if there is room for it. -/
def afterHeader (p : Hybi13) (h : BasicHeader) (ext : List UInt8) : Except Failure Hybi13 :=
  beginPayload { p with
    basicHeader := h
    extendedHeader := ⟨write ExtendedHeader.empty.bytes 0 ext⟩
    state := .headerExtended
    cursor := ext.length
    bytesNeeded := 0 }

/-- The two bytes in front were read. -/
def afterBasic (p : Hybi13) (h : BasicHeader) : Hybi13 :=
  { p with
    basicHeader := h
    state := .headerExtended
    cursor := 0
    bytesNeeded := h.getHeaderLen - 2 }

/-! ## From the header to the payload -/

/-- **A whole basic header** is validated, and the read stops there if it does not pass. -/
theorem consume_basic (hat : p.At server a) (h : BasicHeader) (ys : List UInt8) :
    p.consume (h.b0 :: h.b1 :: ys) =
      match validateIncomingBasicHeader h server a.isNone with
      | some e => .error (.code e)
      | none => (p.afterBasic h).consume ys := by
  have hput : p.put [h.b0, h.b1] = .ok { p with basicHeader := h, bytesNeeded := 0 } := by
    rw [put, hat.state]
    simp [copyBasicHeaderBytes, hat.bytesNeeded, hat.state]
  have hbasic := consume_whole hat.inField ys
    (show [h.b0, h.b1].length = p.bytesNeeded by rw [hat.bytesNeeded]; rfl)
  rw [hput, Except.bind, advance] at hbasic
  simp only [hat.state, endBasicHeader, hat.server, hat.msgPtr] at hbasic
  rw [show h.b0 :: h.b1 :: ys = [h.b0, h.b1] ++ ys from rfl, hbasic, afterBasic, hat.server]
  cases validateIncomingBasicHeader h server a.isNone <;> rfl

/-- **The rest of the header** is validated as well, and then its payload begins, if there is room.
    -/
theorem consume_header (hat : p.At server a) (h : BasicHeader) (ys : List UInt8)
    (hext : ext.length = h.getHeaderLen - 2)
    (hbasic : validateIncomingBasicHeader h server a.isNone = none) :
    p.consume (h.b0 :: h.b1 :: (ext ++ ys)) =
      match validateIncomingExtendedHeader h ⟨write ExtendedHeader.empty.bytes 0 ext⟩ with
      | some e => .error (.code e)
      | none => (p.afterHeader h ext).bind fun q => q.consume ys := by
  rw [consume_basic hat, hbasic]
  dsimp only
  rw [consume_whole (.inr (.inl rfl)) _ hext, put]
  simp only [afterBasic, copyExtendedHeaderBytes, ← hext, Nat.min_self, Except.bind, advance,
    endExtendedHeader, hat.extendedHeader, Nat.sub_self, Nat.zero_add, afterHeader,
    List.take_length]
  cases validateIncomingExtendedHeader h ⟨write ExtendedHeader.empty.bytes 0 ext⟩ <;> rfl

/-- The message that the payload of `f` is appended to. -/
def base (a : Option Message) (f : Frame) : Message :=
  if f.opcode.isControl then ⟨f.opcode, []⟩ else a.getD ⟨f.opcode, []⟩

/-- The message with the payload of `f` behind what it had. -/
def extended (a : Option Message) (f : Frame) : Message :=
  { base a f with payload := (base a f).payload ++ f.payload }

/-- The validator has seen the message, which is asked of texts alone: the others never go through
    it. -/
def Validated (m : Message) (v : Validator) : Prop :=
  m.opcode = .text → ({} : Validator).decode m.payload = (true, v)

/-- Where the payload of a frame begins: what `consume` has set up for it, and that the message of
    the other kind is as it was. -/
structure InPayload (p q : Hybi13) (a : Option Message) (f : Frame) : Prop where
  server : q.server = p.server
  state : q.state = .application
  basicHeader : q.basicHeader = f.header
  bytesNeeded : q.bytesNeeded = f.payload.length
  currentMsg : q.currentMsg = if f.opcode.isControl then .control else .data
  dataMsg : f.opcode.isControl = true → q.dataMsg = p.dataMsg
  current : ∃ v, q.current = ⟨some (base a f), prepareMaskingKey (f.key.getD 0), v⟩ ∧
    Validated (base a f) v

theorem validated_new (op : Opcode) : Validated ⟨op, []⟩ {} := fun _ => rfl

/-- There is room for the payload of `f`, if a message begins with it. -/
def Room (a : Option Message) (f : Frame) : Prop :=
  f.opcode.isControl = true ∨ a = none → f.payload.length ≤ maxPayload

/-- **The payload begins**, if there is room for it. -/
theorem afterHeader_inPayload (hat : p.At server a) {f : Frame} (h : f.payload.length < 2 ^ 64)
    (hroom : Room a f) :
    ∃ q, p.afterHeader f.header f.extension = .ok q ∧ InPayload p q a f := by
  have hop : f.header.getOpcode = f.opcode := BasicHeader.getOpcode_new
  have hsize : getPayloadSize f.header ⟨write ExtendedHeader.empty.bytes 0 f.extension⟩ =
    f.payload.length := Frame.getPayloadSize_header h
  have hkey : getMaskingKey f.header ⟨write ExtendedHeader.empty.bytes 0 f.extension⟩ =
    f.key.getD 0 := Frame.getMaskingKey_header
  unfold afterHeader beginPayload
  simp only [hop, hsize, hkey, hat.msgPtr]
  by_cases hc : f.opcode.isControl = true
  · rw [if_pos hc, Message.alloc_eq (hroom (.inl hc))]
    refine ⟨_, rfl, rfl, rfl, rfl, rfl, by rw [if_pos hc], fun _ => rfl, {}, ?_, ?_⟩
    · rw [base, if_pos hc]
      rfl
    · rw [base, if_pos hc]
      exact validated_new f.opcode
  · rw [if_neg hc]
    cases ha : a with
    | none =>
      rw [Option.isNone_none, if_pos rfl, Message.alloc_eq (hroom (.inr ha))]
      refine ⟨_, rfl, rfl, rfl, rfl, rfl, by rw [if_neg hc], fun h => absurd h hc, {}, ?_, ?_⟩
      · rw [base, if_neg hc]
        rfl
      · rw [base, if_neg hc]
        exact validated_new f.opcode
    | some m =>
      rw [Option.isNone_some, if_neg Bool.false_ne_true]
      refine ⟨_, rfl, rfl, rfl, rfl, rfl, by rw [if_neg hc], fun h => absurd h hc,
        p.dataMsg.validator, ?_, ?_⟩
      · rw [base, if_neg hc, Option.getD_some, ← ha, ← hat.msgPtr]
        rfl
      · rw [base, if_neg hc, Option.getD_some]
        exact hat.validator m ha

/-- **A header that announces too much** is enough: the exception comes before any of the payload
    does. -/
theorem consume_full (hat : p.At server none) (h : BasicHeader) (ys : List UInt8)
    (hext : ext.length = h.getHeaderLen - 2)
    (hbasic : validateIncomingBasicHeader h server true = none)
    (hextended :
      validateIncomingExtendedHeader h ⟨write ExtendedHeader.empty.bytes 0 ext⟩ = none)
    (hdata : h.getOpcode.isControl = false)
    (hfull : maxPayload < getPayloadSize h ⟨write ExtendedHeader.empty.bytes 0 ext⟩) :
    p.consume (h.b0 :: h.b1 :: (ext ++ ys)) = .error .lengthError := by
  have halloc : Message.alloc h.getOpcode
      (getPayloadSize h ⟨write ExtendedHeader.empty.bytes 0 ext⟩) = .error .lengthError :=
    if_pos hfull
  rw [consume_header hat h ys hext hbasic, hextended]
  simp only [afterHeader, beginPayload, hdata, hat.msgPtr, Option.isNone_none, if_true, halloc]
  rfl

/-- Ten bytes that announce 2 ^ 63 more to a client. -/
example (ys : List UInt8) :
    (new false).consume (0x82 :: 0x7F :: ([0x80, 0, 0, 0, 0, 0, 0, 0] ++ ys)) =
      .error .lengthError :=
  consume_full (new_at false) ⟨0x82, 0x7F⟩ ys rfl (by decide) (by decide) (by decide) (by decide)

/-! ## The payload -/

theorem process_nil (m : MsgMetadata) (isMasked : Bool) : m.process isMasked [] = .ok m := by
  have hunmask : unmask isMasked [] m.preparedKey = ([], m.preparedKey) := by
    cases isMasked with
    | false => rfl
    | true =>
      obtain ⟨hmask, hkey⟩ := wordMaskCirc_eq [] m.preparedKey
      rw [List.length_nil, Lib.Masking.shift_zero] at hkey
      exact Prod.ext hmask (keyStream_inj hkey)
  have hmap : (m.msgPtr.map fun msg => { msg with payload := msg.payload ++ [] }) = m.msgPtr := by
    cases m.msgPtr <;> simp
  simp only [MsgMetadata.process, hunmask, hmap, Validator.decode, if_true]
  cases m.isText <;> rfl

theorem put_payload (hs : p.state = .application) :
    p.put pay =
      (p.current.process p.basicHeader.getMasked pay).map fun m => p.took m pay.length := by
  have htook : p.took p.current 0 = p := by
    obtain ⟨server, h, e, n, c, data, control, cur, state⟩ := p
    cases cur <;> rfl
  rw [put, hs]
  dsimp only
  by_cases hpay : pay = []
  · subst hpay
    rw [if_pos rfl, process_nil]
    exact congrArg Except.ok htook.symm
  · rw [if_neg hpay]
    rfl

/-- The payload comes out from under its mask. -/
theorem unmask_maskedPayload (f : Frame) :
    (unmask f.key.isSome f.maskedPayload (prepareMaskingKey (f.key.getD 0))).1 = f.payload := by
  unfold Frame.maskedPayload unmask
  cases f.key with
  | none => rfl
  | some key =>
    rw [Option.isSome_some, if_pos rfl, Option.getD_some, (wordMaskCirc_eq _ _).1, Option.elim_some,
      masked_masked]

theorem begins_iff {m : Message} :
    m.Begins ↔ (m.opcode = .text → (({} : Validator).decode m.payload).1 = true) := by
  rw [Message.Begins]
  simp only [Validator.decode_iff]

/-- What the payload of a frame does to the message. -/
theorem process_frame {f : Frame} {v : Validator} (hv : Validated (base a f) v) :
    let m : MsgMetadata := ⟨some (base a f), prepareMaskingKey (f.key.getD 0), v⟩
    ((extended a f).Begins → ∃ k v', m.process f.key.isSome f.maskedPayload =
        .ok ⟨some (extended a f), k, v'⟩ ∧ Validated (extended a f) v') ∧
      (¬ (extended a f).Begins →
        m.process f.key.isSome f.maskedPayload = .error (.code .invalidUtf8)) := by
  intro m
  have hop : (extended a f).opcode = (base a f).opcode := rfl
  have hpayload : (extended a f).payload = (base a f).payload ++ f.payload := rfl
  have hunmask := unmask_maskedPayload f
  have hprocess : m.process f.key.isSome f.maskedPayload =
      if (base a f).opcode = .text then
        if (v.decode f.payload).1 then .ok ⟨some (extended a f),
          (unmask f.key.isSome f.maskedPayload (prepareMaskingKey (f.key.getD 0))).2,
          (v.decode f.payload).2⟩
        else .error (.code .invalidUtf8)
      else .ok ⟨some (extended a f),
        (unmask f.key.isSome f.maskedPayload (prepareMaskingKey (f.key.getD 0))).2, v⟩ := by
    simp only [MsgMetadata.process, m, MsgMetadata.isText, Option.any_some, hunmask,
      Option.map_some, decide_eq_true_eq]
    rfl
  rw [hprocess]
  -- Only of a text is the payload looked at, and by then it is unmasked.
  by_cases htext : (base a f).opcode = .text
  · have hdecode : ({} : Validator).decode (extended a f).payload = v.decode f.payload := by
      rw [hpayload, Validator.decode_append, hv htext]
      rfl
    rw [if_pos htext]
    by_cases hok : (v.decode f.payload).1 = true
    · have hbegins : (extended a f).Begins := by
        rw [begins_iff, hdecode]
        exact fun _ => hok
      rw [if_pos hok]
      refine ⟨fun _ => ⟨_, _, rfl, fun _ => ?_⟩, fun h => absurd hbegins h⟩
      rw [hdecode]
      exact Prod.ext hok rfl
    · have hbegins : ¬ (extended a f).Begins := by
        rw [begins_iff, hdecode]
        exact fun h => hok (h htext)
      rw [if_neg hok]
      exact ⟨fun h => absurd h hbegins, fun _ => rfl⟩
  · have hbegins : (extended a f).Begins := fun h => absurd h htext
    rw [if_neg htext]
    exact ⟨fun _ => ⟨_, _, rfl, fun h => absurd h htext⟩, fun h => absurd hbegins h⟩

/-- The payload of a frame was read, and the frame has not been ended yet. -/
structure PastPayload (p q : Hybi13) (a : Option Message) (f : Frame) : Prop where
  server : q.server = p.server
  basicHeader : q.basicHeader = f.header
  dataMsg : f.opcode.isControl = true → q.dataMsg = p.dataMsg
  current : q.current.msgPtr = some (extended a f) ∧
    Validated (extended a f) q.current.validator
  currentMsg : q.currentMsg = if f.opcode.isControl then .control else .data

/-- **The payload is read**, where it goes on like a text or need not. -/
theorem consume_payload {f : Frame} (hq : InPayload p q a f) (hbegins : (extended a f).Begins) :
    ∃ r, PastPayload p r a f ∧
      ∀ ys, q.consume (f.maskedPayload ++ ys) = r.endPayload.bind fun s => s.consume ys := by
  obtain ⟨v, hcurrent, hv⟩ := hq.current
  obtain ⟨k, v', hprocess, hv'⟩ := (process_frame hv).1 hbegins
  have hmasked : q.basicHeader.getMasked = f.key.isSome := by
    rw [hq.basicHeader]
    exact BasicHeader.getMasked_new
  have hput : q.put f.maskedPayload =
      .ok (q.took ⟨some (extended a f), k, v'⟩ f.maskedPayload.length) := by
    rw [put_payload hq.state, hcurrent, hmasked, hprocess]
    rfl
  obtain ⟨hstate, hserver, hheader, -, hcur⟩ :=
    took_fields (p := q) ⟨some (extended a f), k, v'⟩ f.maskedPayload.length
  refine ⟨q.took ⟨some (extended a f), k, v'⟩ f.maskedPayload.length,
    ⟨?_, ?_, ?_, ?_, ?_⟩, ?_⟩
  · rw [hserver, hq.server]
  · rw [hheader, hq.basicHeader]
  · intro hc
    have hcontrol : q.currentMsg = .control := by rw [hq.currentMsg, if_pos hc]
    rw [took, setCurrent, hcontrol]
    exact hq.dataMsg hc
  · rw [hcur]
    exact ⟨rfl, hv'⟩
  · rw [← hq.currentMsg, took, setCurrent]
    cases q.currentMsg <;> rfl
  · intro ys
    rw [consume_whole (.inr (.inr hq.state)) _ (by rw [Frame.length_maskedPayload, hq.bytesNeeded]),
      hput]
    simp only [Except.bind, advance, hstate, hq.state]

/-- **The payload is refused**, where it should go on like a text and does not, before the end of
    the frame is looked at. -/
theorem consume_payload_error {f : Frame} (hq : InPayload p q a f)
    (hbegins : ¬ (extended a f).Begins) (ys : List UInt8) :
    q.consume (f.maskedPayload ++ ys) = .error (.code .invalidUtf8) := by
  obtain ⟨v, hcurrent, hv⟩ := hq.current
  have hmasked : q.basicHeader.getMasked = f.key.isSome := by
    rw [hq.basicHeader]
    exact BasicHeader.getMasked_new
  rw [consume_whole (.inr (.inr hq.state)) _ (by rw [Frame.length_maskedPayload, hq.bytesNeeded]),
    put_payload hq.state, hcurrent, hmasked, (process_frame hv).2 hbegins]
  rfl

section

variable {f : Frame} {r : Hybi13}

/-- A frame that does not end its message leads to the next one. -/
theorem PastPayload.more (hr : PastPayload p r a f) (hat : p.At server a) (hfin : f.fin = false)
    (hdata : f.opcode.isControl = false) (hop : (extended a f).opcode.isControl = false) :
    r.endPayload = .ok r.resetHeaders ∧ r.resetHeaders.At server (some (extended a f)) := by
  have hnot : r.basicHeader.getFin = false := by
    rw [hr.basicHeader]
    exact BasicHeader.getFin_new.trans hfin
  have hcurrent : r.current = r.dataMsg := by
    rw [Hybi13.current, hr.currentMsg, hdata]
    rfl
  have hmsg := hr.current
  rw [hcurrent] at hmsg
  refine ⟨by rw [endPayload, if_neg (by rw [hnot]; exact Bool.false_ne_true)],
    hr.server.trans hat.server, rfl, rfl, rfl, hmsg.1, ?_, ?_⟩
  · intro m hm
    cases hm
    exact hmsg.2
  · intro m hm
    cases hm
    exact hop

/-- What ends a message. The text that is checked to its end is that of a text frame: the last frame
    of a text in several has another opcode, and the check is not made. -/
theorem PastPayload.endPayload_fin (hr : PastPayload p r a f) (hfin : f.fin = true)
    (hop : f.opcode = .text → (extended a f).opcode = .text) :
    ((f.opcode = .text → ∃ cs, (extended a f).payload = encode cs) →
        r.endPayload = .ok { r with state := .ready }) ∧
      (¬ (f.opcode = .text → ∃ cs, (extended a f).payload = encode cs) →
        r.endPayload = .error (.code .invalidUtf8)) := by
  have hfin' : r.basicHeader.getFin = true := by
    rw [hr.basicHeader]
    exact BasicHeader.getFin_new.trans hfin
  have hop' : r.basicHeader.getOpcode = f.opcode := by
    rw [hr.basicHeader]
    exact BasicHeader.getOpcode_new
  have hcomplete : f.opcode = .text →
      (r.current.validator.complete = true ↔ ∃ cs, (extended a f).payload = encode cs) := by
    intro htext
    have hv := hr.current.2 (hop htext)
    rw [← Validator.decode_complete_iff, hv]
    simp
  rw [endPayload, if_pos hfin', hop']
  by_cases htext : f.opcode = .text
  · by_cases hc : r.current.validator.complete = true
    · rw [if_neg (by simp [hc])]
      exact ⟨fun _ => rfl, fun h => absurd (fun _ => (hcomplete htext).mp hc) h⟩
    · rw [if_pos ⟨htext, hc⟩]
      exact ⟨fun h => absurd ((hcomplete htext).mpr (h htext)) hc, fun _ => rfl⟩
  · rw [if_neg (fun h => htext h.1)]
    exact ⟨fun _ => rfl, fun h => absurd (fun h' => absurd h' htext) h⟩

/-- The message that is handed out, and what is in the making then. -/
theorem PastPayload.getMessage (hr : PastPayload p r a f) (hat : p.At server a)
    (hop : (extended a f).opcode.isControl = f.opcode.isControl) :
    ({ r with state := .ready } : Hybi13).getMessage.1 = some (extended a f) ∧
      ({ r with state := .ready } : Hybi13).getMessage.2.At server
        (if f.opcode.isControl then a else none) := by
  have hmsg : ({ r with state := .ready } : Hybi13).current.msgPtr = some (extended a f) :=
    hr.current.1
  have hready : ({ r with state := .ready } : Hybi13).isReady = true := rfl
  rw [Hybi13.getMessage, if_pos hready, hmsg]
  refine ⟨rfl, ?_⟩
  dsimp only
  rw [Option.any_some, hop, setCurrent]
  by_cases hc : f.opcode.isControl = true
  · have hcontrol : r.currentMsg = .control := by rw [hr.currentMsg, if_pos hc]
    rw [if_pos hc, if_pos hc, hcontrol]
    refine ⟨hr.server.trans hat.server, rfl, rfl, rfl, ?_, ?_, hat.data⟩
    · show r.dataMsg.msgPtr = a
      rw [hr.dataMsg hc, hat.msgPtr]
    · intro m hm htext
      rw [hat.validator m hm htext]
      show (true, p.dataMsg.validator) = (true, r.dataMsg.validator)
      rw [hr.dataMsg hc]
  · have hdata : r.currentMsg = .data := by rw [hr.currentMsg, if_neg hc]
    rw [if_neg hc, if_neg hc, hdata]
    exact ⟨hr.server.trans hat.server, rfl, rfl, rfl, rfl, by simp, by simp⟩

/-! ## Whole frames

From here on nothing is said of fields: a frame at a point between two frames leads to the next such
point, with a message or without. -/

theorem validate_extended (h : f.payload.length < 2 ^ 64) :
    validateIncomingExtendedHeader f.header f.extendedHeader = none := by
  have hbasic : f.header.getBasicSize = basicValue f.payload.length := BasicHeader.getBasicSize_new
  simp only [validateIncomingExtendedHeader, check_eq_none, Frame.getPayloadSize_header h, hbasic,
    and_true]
  constructor
  · rintro ⟨hcode, hle⟩
    have hlt := Frame.basicValue_toNat hle
    have hcode' : (basicValue f.payload.length).toNat = 126 := congrArg UInt8.toNat hcode
    have : f.payload.length ≤ 125 := hle
    omega
  · rintro ⟨hcode, hle⟩
    by_cases hbasic : f.payload.length ≤ payloadSizeBasic
    · have hlt := Frame.basicValue_toNat hbasic
      have hcode' : (basicValue f.payload.length).toNat = 127 := congrArg UInt8.toNat hcode
      have : f.payload.length ≤ 125 := hbasic
      omega
    · rw [basicValue, if_neg hbasic, if_pos hle] at hcode
      exact absurd hcode (by decide)

/-- A frame with a header that passes is read up to its payload. -/
theorem consume_frame (hat : p.At server a) (hlt : f.payload.length < 2 ^ 64)
    (hbasic : validateIncomingBasicHeader f.header server a.isNone = none) :
    p.consume (f.bytes ++ ys) = (p.afterHeader f.header f.extension).bind fun q =>
      q.consume (f.maskedPayload ++ ys) := by
  have hext : validateIncomingExtendedHeader f.header
      ⟨write ExtendedHeader.empty.bytes 0 f.extension⟩ = none := validate_extended hlt
  have hbytes : f.bytes ++ ys =
      f.header.b0 :: f.header.b1 :: (f.extension ++ (f.maskedPayload ++ ys)) := by
    simp [Frame.bytes]
  rw [hbytes, consume_header hat f.header _ Frame.length_extension hbasic, hext]

/-- Two processors that go on alike have read alike. -/
theorem handleReadFrame_congr (hp : p.Waiting) (hq : q.Waiting) (hne : xs ≠ [])
    (h : p.consume xs = q.consume ys) : p.handleReadFrame xs = q.handleReadFrame ys := by
  rw [handleReadFrame_eq hp hne, h]
  by_cases hys : ys = []
  · subst hys
    rw [hq.consume_nil, handleReadFrame_nil]
    exact if_neg hq.not_isReady
  · rw [handleReadFrame_eq hq hys]

/-- What a data frame does to the message in the making. -/
theorem extends_spec {m : Message} (h : Extends a f m)
    (ha : ∀ m, a = some m → m.opcode.isControl = false) :
    extended a f = m ∧ m.opcode.isControl = false ∧ f.opcode.isControl = false ∧
      f.opcode.reserved = false ∧ (a.isNone = true ↔ f.opcode ≠ .continuation) ∧
      (f.opcode = .text → m.opcode = .text) ∧ Room a f := by
  cases h with
  | first hop hle =>
    have hcontrol : f.opcode.isControl = false := by rcases hop with h | h <;> rw [h] <;> rfl
    refine ⟨?_, hcontrol, hcontrol, ?_, ?_, fun h => h, fun _ => hle⟩
    · rw [extended, base, hcontrol]
      rfl
    · rcases hop with h | h <;> rw [h] <;> rfl
    · rcases hop with h | h <;> simp [h]
  | @next m f hop =>
    have hcontrol : f.opcode.isControl = false := by rw [hop]; rfl
    refine ⟨?_, ha m rfl, hcontrol, by rw [hop]; rfl, by simp [hop], ?_, by simp [Room, hcontrol]⟩
    · rw [extended, base, hcontrol]
      rfl
    · intro htext
      rw [hop] at htext
      cases htext

theorem validate_extends {m : Message} (h : Extends a f m)
    (ha : ∀ m, a = some m → m.opcode.isControl = false) (hkey : f.key.isSome = server) :
    validateIncomingBasicHeader f.header server a.isNone = none := by
  obtain ⟨-, -, hcontrol, hreserved, hnew, -⟩ := extends_spec h ha
  rw [validate_header_iff]
  refine ⟨hreserved, hkey, fun h => ?_, fun _ => hnew⟩
  rw [hcontrol] at h
  cases h

/-- A frame whose header passes, and that begins like a text or need not, is read to its end. -/
theorem consume_to_end (hat : p.At server a) (hlt : f.payload.length < 2 ^ 64)
    (hbasic : validateIncomingBasicHeader f.header server a.isNone = none) (hroom : Room a f)
    (hbegins : (extended a f).Begins) :
    ∃ r, PastPayload p r a f ∧
      ∀ ys, p.consume (f.bytes ++ ys) = r.endPayload.bind fun s => s.consume ys := by
  obtain ⟨q, hq, hpayload⟩ := afterHeader_inPayload hat hlt hroom
  obtain ⟨r, hr, hconsume⟩ := consume_payload hpayload hbegins
  exact ⟨r, hr, fun ys => by rw [consume_frame hat hlt hbasic, hq, Except.bind, hconsume]⟩

theorem bytes_ne_nil : f.bytes ++ ys ≠ [] := by simp [Frame.bytes]

/-- `consume` has found the message `m` with nothing of `ys` used, and waits for the next frame once
    it is handed out. -/
structure Found (r : Hybi13) (server : Bool) (m : Message) (a : Option Message) : Prop where
  ready : r.isReady = true
  getMessage : r.getMessage.1 = some m
  at_next : r.getMessage.2.At server a

/-- A frame that ends a message hands it out, and what comes behind it is left. -/
theorem consume_last (hat : p.At server a) (hlt : f.payload.length < 2 ^ 64)
    (hbasic : validateIncomingBasicHeader f.header server a.isNone = none) (hroom : Room a f)
    (hbegins : (extended a f).Begins) (hfin : f.fin = true)
    (htext : f.opcode = .text → (extended a f).opcode = .text)
    (hwhole : f.opcode = .text → ∃ cs, (extended a f).payload = encode cs)
    (hop : (extended a f).opcode.isControl = f.opcode.isControl) :
    ∃ r : Hybi13, r.Found server (extended a f) (if f.opcode.isControl then a else none) ∧
      ∀ ys, p.consume (f.bytes ++ ys) = .ok (r, ys) := by
  obtain ⟨r, hr, hconsume⟩ := consume_to_end hat hlt hbasic hroom hbegins
  obtain ⟨hmsg, hnext⟩ := hr.getMessage hat hop
  refine ⟨{ r with state := .ready }, ⟨rfl, hmsg, hnext⟩, fun ys => ?_⟩
  have hstop : ({ r with state := .ready } : Hybi13).consume ys =
      .ok ({ r with state := .ready }, ys) :=
    consume_of_not_busy fun hbusy => hbusy.1 rfl
  rw [hconsume, (hr.endPayload_fin hfin htext).1 hwhole, Except.bind, hstop]

/-- The read goes on behind a message that was found. -/
theorem Found.handleReadFrame {r : Hybi13} {m : Message} (h : r.Found server m a')
    (hat : p.At server a) (hconsume : ∀ ys, p.consume (f.bytes ++ ys) = .ok (r, ys)) :
    ∃ q : Hybi13, q.At server a' ∧ ∀ ys, p.handleReadFrame (f.bytes ++ ys) =
      (m :: (q.handleReadFrame ys).1, (q.handleReadFrame ys).2) := by
  refine ⟨_, h.at_next, fun ys => ?_⟩
  rw [handleReadFrame_eq hat.waiting bytes_ne_nil, hconsume]
  dsimp only
  rw [if_pos h.ready, h.getMessage]
  rfl

/-- A frame that does not end its message leaves it in the making. -/
theorem handleReadFrame_more (hat : p.At server a) (hlt : f.payload.length < 2 ^ 64)
    (hbasic : validateIncomingBasicHeader f.header server a.isNone = none) (hroom : Room a f)
    (hbegins : (extended a f).Begins) (hfin : f.fin = false)
    (hdata : f.opcode.isControl = false) (hop : (extended a f).opcode.isControl = false) :
    ∃ q : Hybi13, q.At server (some (extended a f)) ∧
      ∀ ys, p.handleReadFrame (f.bytes ++ ys) = q.handleReadFrame ys := by
  obtain ⟨r, hr, hconsume⟩ := consume_to_end hat hlt hbasic hroom hbegins
  obtain ⟨hend, hnext⟩ := hr.more hat hfin hdata hop
  refine ⟨r.resetHeaders, hnext, fun ys => ?_⟩
  apply handleReadFrame_congr hat.waiting hnext.waiting bytes_ne_nil
  rw [hconsume, hend]
  rfl

/-- **A message is found** at the end of the frame that completes it. -/
theorem consume_receive (hat : p.At server a) {m : Message} (h : Receive server a f [m] a') :
    ∃ r : Hybi13, r.Found server m a' ∧ ∀ ys, p.consume (f.bytes ++ ys) = .ok (r, ys) := by
  cases h with
  | control hkey hop hfin hle =>
    have hreserved : f.opcode.reserved = false := by
      rcases hop with h | h | h <;> rw [h] <;> rfl
    have hcontrol : f.opcode.isControl = true := (control_iff hreserved).mpr hop
    have hext : extended a f = ⟨f.opcode, f.payload⟩ := by
      rw [extended, base, if_pos hcontrol]
      rfl
    have hnotText : f.opcode ≠ .text := by rcases hop with h | h | h <;> rw [h] <;> decide
    have hbasic : validateIncomingBasicHeader f.header server a.isNone = none := by
      rw [validate_header_iff]
      refine ⟨hreserved, hkey, fun _ => ⟨hle, hfin⟩, fun h => ?_⟩
      rw [hcontrol] at h
      cases h
    obtain ⟨r, hr, hconsume⟩ := consume_last hat (Nat.lt_of_le_of_lt hle (by decide)) hbasic
      (fun _ => Nat.le_trans hle (by decide)) (by rw [hext]; exact fun h => absurd h hnotText)
      hfin (fun h => absurd h hnotText) (fun h => absurd h hnotText) (by rw [hext])
    rw [hext, if_pos hcontrol] at hr
    exact ⟨r, hr, hconsume⟩
  | last hkey hlt hm hbegins hfin hwhole =>
    have hbasic := validate_extends hm hat.data hkey
    obtain ⟨rfl, hop, hcontrol, -, -, htext, hroom⟩ := extends_spec hm hat.data
    obtain ⟨r, hr, hconsume⟩ := consume_last hat hlt hbasic hroom hbegins hfin htext hwhole
      (by rw [hop, hcontrol])
    rw [hcontrol, if_neg Bool.false_ne_true] at hr
    exact ⟨r, hr, hconsume⟩

/-- **One frame** that may follow is read, and makes of the message what it should. -/
theorem handleReadFrame_receive (hat : p.At server a) {msgs : List Message}
    (h : Receive server a f msgs a') :
    ∃ q : Hybi13, q.At server a' ∧ ∀ ys, p.handleReadFrame (f.bytes ++ ys) =
      (msgs ++ (q.handleReadFrame ys).1, (q.handleReadFrame ys).2) := by
  have hfound : ∀ m, Receive server a f [m] a' → ∃ q : Hybi13, q.At server a' ∧
      ∀ ys, p.handleReadFrame (f.bytes ++ ys) =
        ([m] ++ (q.handleReadFrame ys).1, (q.handleReadFrame ys).2) := by
    intro m hm
    obtain ⟨r, hr, hconsume⟩ := consume_receive hat hm
    exact hr.handleReadFrame hat hconsume
  cases h with
  | control hkey hop hfin hle => exact hfound _ (.control hkey hop hfin hle)
  | last hkey hlt hm hbegins hfin hwhole => exact hfound _ (.last hkey hlt hm hbegins hfin hwhole)
  | more hkey hlt hm hbegins hfin =>
    have hbasic := validate_extends hm hat.data hkey
    obtain ⟨rfl, hop, hcontrol, -, -, -, hroom⟩ := extends_spec hm hat.data
    obtain ⟨q, hq, hread⟩ := handleReadFrame_more hat hlt hbasic hroom hbegins hfin hcontrol hop
    exact ⟨q, hq, fun ys => by rw [hread, List.nil_append]⟩

/-- **Many frames**, whatever comes behind them. -/
theorem handleReadFrame_complete (hat : p.At server a) {fs : List Frame} {msgs : List Message}
    (h : ReceiveAll server a fs msgs a') :
    ∃ q : Hybi13, q.At server a' ∧ ∀ ys, p.handleReadFrame (fs.flatMap Frame.bytes ++ ys) =
      (msgs ++ (q.handleReadFrame ys).1, (q.handleReadFrame ys).2) := by
  induction h generalizing p with
  | nil => exact ⟨p, hat, fun ys => rfl⟩
  | cons hf _ ih =>
    obtain ⟨q, hq, hread⟩ := handleReadFrame_receive hat hf
    obtain ⟨r, hr, hreads⟩ := ih hq
    refine ⟨r, hr, fun ys => ?_⟩
    rw [List.flatMap_cons, List.append_assoc, hread, hreads, List.append_assoc]

end

end Hybi13

end WebsocketTest.WebSocket
