import WebsocketTest.WebSocket.Frames

/-!
# Nothing else is read

**`readAll_sound`** — whatever a peer sends, the messages that come out of it are those of
the frames it begins with, each of which could follow on the ones before; where the next one could
not, the read fails. So bytes that were read without an error are such frames, and less than one
frame more.

The induction is on the number of bytes. A whole frame in front is either one that may follow
(`handleReadFrame_receive`) or is refused (`handleReadFrame_refused`); without a whole frame there
is no message (`handleReadFrame_short`).

## What is promised, and what is not

The frames of `readAll_sound` are as many as there can be: no further one that may follow begins the
rest. Without that, an empty list of frames would do for every input. Where the read failed, the
rest may begin with a whole frame, the one that it failed at; which failure it was is not said,
since the order of the checks is the code's own business.

A frame has a length below 2 ^ 64 in these statements, because no other length can be written on the
wire. That is no condition on what a peer sends: a list of bytes is any list of bytes.
-/

set_option autoImplicit false

namespace WebsocketTest.WebSocket

open Lib.Memory Lib.Utf8

namespace Hybi13

variable {p q : Hybi13} {server : Bool} {a : Option Message} {xs ys ext : List UInt8} {f : Frame}

/-! ## Less than a frame -/

/-- A message comes out of a read only where `consume` stops at one. -/
theorem handleReadFrame_of_not_ready (hp : p.Waiting)
    (h : ∀ q rest, p.consume xs = .ok (q, rest) → ¬ q.isReady = true) :
    (p.handleReadFrame xs).1 = [] := by
  by_cases hxs : xs = []
  · rw [hxs, handleReadFrame_nil]
  · rw [handleReadFrame_eq hp hxs]
    cases hconsume : p.consume xs with
    | error e => rfl
    | ok r => simp only [if_neg (h r.1 r.2 hconsume)]

theorem handleReadFrame_of_error (hp : p.Waiting) {e : Failure} (hne : xs ≠ [])
    (h : p.consume xs = .error e) : p.handleReadFrame xs = ([], .failed e) := by
  rw [handleReadFrame_eq hp hne, h]

/-- A field that is not there whole is waited for, and no message is ready while it is. -/
theorem consume_short (h : p.InField) (hlen : xs.length < p.bytesNeeded) {rest : List UInt8}
    (hconsume : p.consume xs = .ok (q, rest)) : ¬ q.isReady = true := by
  have hwaiting : ∀ r : Hybi13, r.InField → 0 < r.bytesNeeded → r.consume [] = .ok (q, rest) →
      ¬ q.isReady = true := by
    intro r hr hpos hnil
    have hr' : r.Waiting := ⟨hr, hpos⟩
    rw [hr'.consume_nil] at hnil
    cases hnil
    exact hr'.not_isReady
  by_cases hxs : xs = []
  · rw [hxs] at hconsume hlen
    exact hwaiting p h hlen hconsume
  · rw [consume_of_busy (h.busy (.inl hxs)), turn_eq h, List.take_of_length_le (Nat.le_of_lt hlen),
      List.drop_eq_nil_of_le (Nat.le_of_lt hlen)] at hconsume
    cases hput : p.put xs with
    | error e =>
      rw [hput] at hconsume
      cases hconsume
    | ok r =>
      obtain ⟨hr, hneed⟩ := h.put hput (Nat.le_of_lt hlen)
      have hpos : 0 < r.bytesNeeded := by omega
      simp only [hput, Except.bind, if_pos hpos] at hconsume
      exact hwaiting r hr hpos hconsume

/-- **Less than a frame** makes no message. -/
theorem handleReadFrame_short (hat : p.At server a)
    (h : ∀ f : Frame, f.payload.length < 2 ^ 64 → ¬ f.bytes <+: xs) :
    (p.handleReadFrame xs).1 = [] := by
  apply handleReadFrame_of_not_ready hat.waiting
  intro q rest hconsume
  match xs with
  | [] => exact consume_short hat.inField (by rw [hat.bytesNeeded]; exact Nat.zero_lt_two) hconsume
  | [b] =>
    exact consume_short hat.inField (by rw [hat.bytesNeeded]; exact Nat.one_lt_two) hconsume
  | b :: c :: xs =>
    let h₀ : BasicHeader := ⟨b, c⟩
    cases hbasic : validateIncomingBasicHeader h₀ server a.isNone with
    | some e =>
      have hfails := consume_basic hat h₀ xs
      rw [hbasic] at hfails
      cases hfails.symm.trans hconsume
    | none =>
      rcases Nat.lt_or_ge xs.length (h₀.getHeaderLen - 2) with hlt | hge
      · have hgoes := consume_basic hat h₀ xs
        rw [hbasic] at hgoes
        dsimp only at hgoes
        rw [hgoes] at hconsume
        exact consume_short (.inr (.inl rfl)) hlt hconsume
      · obtain ⟨ext, ys, rfl, hext⟩ : ∃ ext ys, xs = ext ++ ys ∧ ext.length = h₀.getHeaderLen - 2 :=
          ⟨_, _, (List.take_append_drop _ xs).symm, List.length_take_of_le hge⟩
        have hheader := consume_header hat h₀ ys hext hbasic
        cases hextended : validateIncomingExtendedHeader h₀
            ⟨write ExtendedHeader.empty.bytes 0 ext⟩ with
        | some e =>
          rw [hextended] at hheader
          cases hheader.symm.trans hconsume
        | none =>
          rw [hextended] at hheader
          dsimp only at hheader
          cases hbegin : p.afterHeader h₀ ext with
          | error e =>
            rw [hbegin] at hheader
            cases hheader.symm.trans hconsume
          | ok r =>
            obtain ⟨hstate, hneed⟩ := beginPayload_spec hbegin
            rw [hbegin, Except.bind] at hheader
            rcases Nat.lt_or_ge ys.length r.bytesNeeded with hlt | hge
            · rw [hheader] at hconsume
              exact consume_short (.inr (.inr hstate)) hlt hconsume
            exfalso
            -- The header, the rest of it and as much payload as it says are a frame.
            rw [hneed] at hge
            obtain ⟨h₁, h₂, h₃⟩ := rsv_of_validate hbasic
            simp only [validateIncomingExtendedHeader, check_eq_none, not_and, Nat.not_le,
              and_true] at hextended
            obtain ⟨pay, zs, rfl, hpay⟩ : ∃ pay zs, ys = pay ++ zs ∧ pay.length =
                getPayloadSize h₀ ⟨write ExtendedHeader.empty.bytes 0 ext⟩ :=
              ⟨_, _, (List.take_append_drop _ ys).symm, List.length_take_of_le hge⟩
            obtain ⟨f, hf, hfext, hfpay, hflt⟩ := Frame.exists_frame h₁ h₂ h₃ hext hextended.1
              hextended.2 hpay
            refine h f hflt ⟨zs, ?_⟩
            rw [Frame.bytes, hf, hfext, hfpay, List.cons_append, List.cons_append,
              List.append_assoc]

/-! ## A frame that may not follow

The relation `Receive` has one condition for each way in which a frame can fail, and the code makes
one check for each, at different places: in the two bytes in front, before room is made, while the
payload is read, and at the end of the frame. So the proof goes through the frame once more and says
at each place that a check that passes gives its condition. -/

/-- What a data frame that passes makes of the message: the other direction of `extends_spec`. -/
theorem extends_extended (ha : ∀ m, a = some m → m.opcode.isControl = false)
    (hbasic : validateIncomingBasicHeader f.header server a.isNone = none) (hroom : Room a f)
    (hdata : f.opcode.isControl = false) :
    Extends a f (extended a f) := by
  obtain ⟨hreserved, -, -, hnew⟩ := validate_header_iff.mp hbasic
  have hext : extended a f = { a.getD ⟨f.opcode, []⟩ with
      payload := (a.getD ⟨f.opcode, []⟩).payload ++ f.payload } := by
    rw [extended, base, hdata]
    rfl
  rw [hext]
  cases a with
  | none =>
    have hop : f.opcode ≠ .continuation := (hnew hdata).mp rfl
    exact .first (((data_iff hreserved).mp hdata).resolve_left hop) (hroom (.inr rfl))
  | some m =>
    have hop : f.opcode = .continuation := by
      by_contra hne
      cases (hnew hdata).mpr hne
    exact .next hop

/-- **A frame that may not follow is refused**, and no message comes of it. -/
theorem handleReadFrame_refused (hat : p.At server a) (hlt : f.payload.length < 2 ^ 64)
    (h : ∀ msgs a', ¬ Receive server a f msgs a') :
    ∃ e, ∀ ys, p.handleReadFrame (f.bytes ++ ys) = ([], .failed e) := by
  cases hbasic : validateIncomingBasicHeader f.header server a.isNone with
  | some e =>
    refine ⟨.code e, fun ys => handleReadFrame_of_error hat.waiting bytes_ne_nil ?_⟩
    have hfails := consume_basic hat f.header (f.extension ++ (f.maskedPayload ++ ys))
    rw [hbasic] at hfails
    rw [show f.bytes ++ ys = f.header.b0 :: f.header.b1 ::
      (f.extension ++ (f.maskedPayload ++ ys)) by simp [Frame.bytes]]
    exact hfails
  | none =>
    obtain ⟨hreserved, hkey, hcontrol, hdata⟩ := validate_header_iff.mp hbasic
    by_cases hroom : Room a f
    · by_cases hbegins : (extended a f).Begins
      · obtain ⟨r, hr, hconsume⟩ := consume_to_end hat hlt hbasic hroom hbegins
        cases hc : f.opcode.isControl with
        | true =>
          -- There is nothing left to refuse a control frame for.
          obtain ⟨hle, hfin⟩ := hcontrol hc
          exact absurd (.control hkey ((control_iff hreserved).mp hc) hfin hle) (h _ _)
        | false =>
          have hextends := extends_extended hat.data hbasic hroom hc
          cases hfin : f.fin with
          | false => exact absurd (.more hkey hlt hextends hbegins hfin) (h _ _)
          | true =>
            obtain ⟨-, -, -, -, -, hop, -⟩ := extends_spec hextends hat.data
            have hwhole : ¬ (f.opcode = .text → ∃ cs, (extended a f).payload = encode cs) :=
              fun hwhole => h _ _ (.last hkey hlt hextends hbegins hfin hwhole)
            refine ⟨.code .invalidUtf8,
              fun ys => handleReadFrame_of_error hat.waiting bytes_ne_nil ?_⟩
            rw [hconsume, (hr.endPayload_fin hfin hop).2 hwhole]
            rfl
      · obtain ⟨q, hq, hpayload⟩ := afterHeader_inPayload hat hlt hroom
        refine ⟨.code .invalidUtf8, fun ys => handleReadFrame_of_error hat.waiting bytes_ne_nil ?_⟩
        rw [consume_frame hat hlt hbasic, hq, Except.bind, consume_payload_error hpayload hbegins]
    · -- The payload is there, but its header alone was already too much.
      have hop : f.opcode.isControl = false := by
        by_contra hc
        rw [Bool.not_eq_false] at hc
        exact hroom fun _ => Nat.le_trans (hcontrol hc).1 (by decide)
      have hnone : a = none := by
        by_contra hne
        exact hroom (by simp [Room, hop, hne])
      have hfull : maxPayload < f.payload.length := by
        rw [← Nat.not_le]
        exact fun hle => hroom fun _ => hle
      subst hnone
      refine ⟨.lengthError, fun ys => handleReadFrame_of_error hat.waiting bytes_ne_nil ?_⟩
      rw [show f.bytes ++ ys = f.header.b0 :: f.header.b1 ::
        (f.extension ++ (f.maskedPayload ++ ys)) by simp [Frame.bytes]]
      apply consume_full hat f.header _ Frame.length_extension hbasic (validate_extended hlt)
      · have hheader : f.header.getOpcode = f.opcode := BasicHeader.getOpcode_new
        rw [hheader, hop]
      · exact Nat.lt_of_lt_of_eq hfull (Frame.getPayloadSize_header hlt).symm

/-! ## What was read -/

/-- How the bytes `xs` were read: as the frames `fs`, which make the messages `msgs`, and `rest`,
    with which no further frame that may follow begins. -/
structure ReadAs (server : Bool) (a : Option Message) (xs : List UInt8) (fs : List Frame)
    (rest : List UInt8) (msgs : List Message) (a' : Option Message) : Prop where
  bytes : xs = fs.flatMap Frame.bytes ++ rest
  receive : ReceiveAll server a fs msgs a'
  maximal : ∀ f msgs' b, Receive server a' f msgs' b → ¬ f.bytes <+: rest

/-- **What was read** are the frames in front that may follow on each other; and where the read did
    not fail, there was not one more frame. -/
theorem handleReadFrame_sound (hat : p.At server a) (xs : List UInt8) :
    ∃ fs rest a', ReadAs server a xs fs rest (p.handleReadFrame xs).1 a' ∧
      ((∃ q, (p.handleReadFrame xs).2 = .waiting q) →
        ∀ f : Frame, f.payload.length < 2 ^ 64 → ¬ f.bytes <+: rest) := by
  induction hn : xs.length using Nat.strongRecOn generalizing p a xs with
  | ind n ih =>
  by_cases hreceive : ∃ f msgs a', Receive server a f msgs a' ∧ f.bytes <+: xs
  · obtain ⟨f, msgs, a₁, hf, ys, rfl⟩ := hreceive
    obtain ⟨q, hq, hread⟩ := handleReadFrame_receive hat hf
    have hlt : ys.length < n := by
      rw [← hn, Frame.bytes]
      simp
      omega
    obtain ⟨fs, rest, a', hys, hwaits⟩ := ih ys.length hlt hq ys rfl
    rw [hread]
    refine ⟨f :: fs, rest, a', ⟨?_, .cons hf hys.receive, hys.maximal⟩, hwaits⟩
    rw [List.flatMap_cons, List.append_assoc, ← hys.bytes]
  · have hmaximal : ∀ f msgs b, Receive server a f msgs b → ¬ f.bytes <+: xs :=
      fun f msgs b hf hbegins => hreceive ⟨f, msgs, b, hf, hbegins⟩
    by_cases hframe : ∃ f : Frame, f.payload.length < 2 ^ 64 ∧ f.bytes <+: xs
    · obtain ⟨f, hlt, ys, rfl⟩ := hframe
      obtain ⟨e, hfails⟩ := handleReadFrame_refused hat hlt
        fun msgs b hf => hmaximal f msgs b hf (List.prefix_append _ _)
      rw [hfails]
      refine ⟨[], f.bytes ++ ys, a, ⟨by simp, .nil, hmaximal⟩, ?_⟩
      rintro ⟨q, hq⟩
      cases hq
    · have hnone : ∀ f : Frame, f.payload.length < 2 ^ 64 → ¬ f.bytes <+: xs :=
        fun f hlt hbegins => hframe ⟨f, hlt, hbegins⟩
      rw [handleReadFrame_short hat hnone]
      exact ⟨[], xs, a, ⟨by simp, .nil, hmaximal⟩, fun _ => hnone⟩

/-- Whole frames are read without an error if each may follow on the ones before, and only then. -/
theorem handleReadFrame_iff (hat : p.At server a) {fs : List Frame} {msgs : List Message}
    (hlt : ∀ f ∈ fs, f.payload.length < 2 ^ 64) :
    (∃ q, p.handleReadFrame (fs.flatMap Frame.bytes) = (msgs, .waiting q)) ↔
      ∃ a', ReceiveAll server a fs msgs a' := by
  constructor
  · intro hread
    induction fs generalizing p a msgs with
    | nil =>
      obtain ⟨q, hq⟩ := hread
      rw [List.flatMap_nil, handleReadFrame_nil] at hq
      cases hq
      exact ⟨a, .nil⟩
    | cons f fs ih =>
      obtain ⟨q, hq⟩ := hread
      rw [List.flatMap_cons] at hq
      by_cases hreceive : ∃ msgs a', Receive server a f msgs a'
      · obtain ⟨msgs₀, a₁, hf⟩ := hreceive
        obtain ⟨p₁, hp₁, hgoes⟩ := handleReadFrame_receive hat hf
        rw [hgoes] at hq
        obtain ⟨hmsgs, hend⟩ := Prod.mk.inj hq
        obtain ⟨a', hfs⟩ := ih hp₁ (fun g hg => hlt g (.tail _ hg)) ⟨q, Prod.ext rfl hend⟩
        exact ⟨a', hmsgs ▸ .cons hf hfs⟩
      · obtain ⟨e, hfails⟩ := handleReadFrame_refused hat (hlt f (.head _))
          fun msgs a' hf => hreceive ⟨msgs, a', hf⟩
        rw [hfails] at hq
        cases hq
  · intro ⟨a', hfs⟩
    obtain ⟨q, -, hgoes⟩ := handleReadFrame_complete hat hfs
    have hall := hgoes []
    rw [List.append_nil, handleReadFrame_nil, List.append_nil] at hall
    exact ⟨q, hall⟩

/-- **Which frames are read**: those that may follow on each other, in any cuts, and with the
    messages that they make. -/
theorem readAll_frames {fs : List Frame} (hlt : ∀ f ∈ fs, f.payload.length < 2 ^ 64) (server : Bool)
    {bufs : List (List UInt8)} (hbufs : bufs.flatten = fs.flatMap Frame.bytes)
    (msgs : List Message) :
    (∃ q, (new server).readAll bufs = (msgs, .waiting q)) ↔
      ∃ a, ReceiveAll server none fs msgs a := by
  rw [readAll_eq_handleReadFrame (new_waiting server), hbufs]
  exact handleReadFrame_iff (new_at server) hlt

/-- A text in two frames with a ping between them, to a client. -/
theorem readAll_frames_ping :
    (∃ q, (new false).readAll [[0x01, 1], [0x48, 0x89], [0, 0x80, 1, 0x69]] =
        ([⟨.ping, []⟩, ⟨.text, [0x48, 0x69]⟩], .waiting q)) ↔
      ∃ a, ReceiveAll false none [⟨false, .text, none, [0x48]⟩, ⟨true, .ping, none, []⟩,
        ⟨true, .continuation, none, [0x69]⟩] [⟨.ping, []⟩, ⟨.text, [0x48, 0x69]⟩] a :=
  readAll_frames (by decide) false (by decide) _

end Hybi13

end WebsocketTest.WebSocket
