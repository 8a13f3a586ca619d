import WebsocketTest.Tcp.Connection
import WebsocketTest.Udp

/-!
# One frame, three pieces of code

A sender builds a frame in a `CVBuffer`: two bytes for the length, the payload behind them, and then
`setTcpMsgLen`, which puts the size of the buffer in front as 16 bits. Two receivers read it back,
`CTcpTask` with a `short` for the payload's size and `CUdpTask` with an `unsigned short`.

What the sender writes is `Lib.Framing.frame` (`encoded_eq`), except that a full buffer, 65536
bytes, is announced as 0. The UDP side takes two from that and is back at the right size, so it
delivers every payload (`udp_delivers`). The TCP side refuses the 0, and makes a negative size of
every payload above 32767 (`tcp_drops`).

**`encoded_delivered_iff`** — both deliver the payload exactly when a `short` holds its length.
Nothing in between reports the others: `setTcpMsgLen` returns nothing.

The receivers start as they do on a new connection, with anything in the memory of their buffers,
and get the frame in one piece: the TCP side's trouble with pieces is a subject of its own (`Tcp/`).
A payload that does not fit the buffer beside the two bytes is no frame of this sender, for `Append`
leaves it out, and the theorem bounds the payload by that.
-/

set_option autoImplicit false

namespace WebsocketTest

open Lib.Memory Lib.Integers Lib.Framing

/-! ## The sender

Its buffer may have been used before; clearing resets the cursors. -/

namespace CVBuffer

/-- `operator<<((unsigned short)0)`, `Append(p)` and `setTcpMsgLen(getSize())`, on a cleared
    buffer. -/
def encode (b : CVBuffer) (p : List UInt8) : CVBuffer :=
  let b := (b.clear.shl16 0).append p |>.2
  b.setTcpMsgLen b.getSize

/-- The bytes to send: all that the buffer holds then. -/
def encoded (b : CVBuffer) (p : List UInt8) : List UInt8 :=
  read (b.encode p).buffer 0 (b.encode p).getSize

/-- Storing what `htons` swapped is writing big-endian. -/
theorem hostStore_htons (n : Nat) : hostStore (htons n) = beBytes 2 n := by
  have hlow : (n % 256 * 256 + n / 256 % 256) % 256 = n / 256 % 256 := by omega
  have hhigh : (n % 256 * 256 + n / 256 % 256) / 256 % 256 = n % 256 := by omega
  have hswap : UInt8.ofNat (htons n) = UInt8.ofNat (n / 256) ∧
      UInt8.ofNat (htons n / 256) = UInt8.ofNat n := by
    constructor
    · exact UInt8.toNat_inj.mp (by rw [UInt8.toNat_ofNat', UInt8.toNat_ofNat']; exact hlow)
    · exact UInt8.toNat_inj.mp (by rw [UInt8.toNat_ofNat', UInt8.toNat_ofNat']; exact hhigh)
  simp [hostStore, beBytes, hswap]

/-- Two bytes see no more of a number than its 16 bits. -/
theorem beBytes_toU16 (n : Nat) : beBytes 2 (toU16 n) = beBytes 2 n := by
  have h : beNat (beBytes 2 (toU16 n)) = beNat (beBytes 2 n) := by
    simp only [beNat_beBytes, toU16]
    omega
  have h' := congrArg (beBytes 2) h
  have hl := beBytes_beNat (beBytes 2 (toU16 n))
  have hr := beBytes_beNat (beBytes 2 n)
  rw [length_beBytes] at hl hr
  rwa [hl, hr] at h'

/-- **What the sender writes is the frame**, its length as far as 16 bits go. -/
theorem encoded_eq (b : CVBuffer) {p : List UInt8} (hp : p.length ≤ 65534) :
    b.encoded p = frame 2 p := by
  have hshl : b.clear.shl16 0 = ⟨write b.buffer 0 (hostStore (htons 0)), 2, 0⟩ := by
    rw [hostStore_htons]
    rfl
  have happend : ((b.clear.shl16 0).append p).2.uOffset = 2 + p.length ∧
      read ((b.clear.shl16 0).append p).2.buffer 2 p.length = p := by
    rw [hshl]
    by_cases h₀ : p.length = 0
    · rw [append, if_pos h₀, h₀]
      exact ⟨rfl, (List.length_eq_zero_iff.mp h₀).symm⟩
    · have hu : u32 (2 + p.length) = 2 + p.length := u32_eq (by omega)
      rw [append, if_neg h₀, set, hu, if_neg (by simp only [maxCVBufferSize]; omega)]
      exact ⟨rfl, read_write_self _ 2 p⟩
  obtain ⟨hsize, hbody⟩ := happend
  have hprefix : read (b.encode p).buffer 0 2 = beBytes 2 (2 + p.length) := by
    simp only [encode, setTcpMsgLen, getSize, hsize]
    rw [hostStore_htons, beBytes_toU16]
    exact read_write_self _ 0 (beBytes 2 (2 + p.length))
  have hrest : read (b.encode p).buffer 2 p.length = p := by
    have hlen : 0 + (hostStore (htons (toU16 (2 + p.length)))).length ≤ 2 := by
      rw [hostStore_htons, length_beBytes]
    simp only [encode, setTcpMsgLen, getSize, hsize]
    exact (read_write_above _ _ hlen).trans hbody
  rw [encoded, show (b.encode p).getSize = 2 + p.length from hsize, read_add, hprefix, Nat.zero_add,
    hrest, frame]

end CVBuffer

/-! ## The receivers -/

/-- The prefix of a sent frame, as it is read back. -/
theorem beNat_take_two (p : List UInt8) :
    beNat ((frame 2 p).take 2) = (2 + p.length) % 65536 := by
  have htake : (frame 2 p).take 2 = beBytes 2 (2 + p.length) :=
    List.take_left' (length_beBytes 2 (2 + p.length))
  rw [htake]
  exact beNat_beBytes 2 (2 + p.length)

namespace CTcpTask

/-- The whole frame in the buffer of a fresh task. -/
theorem sent_holds (mem : Nat → UInt8) {p : List UInt8} (hp : p.length ≤ 65534) :
    ((new mem).store (frame 2 p)).Holds (frame 2 p) :=
  (new_holds mem).store (by rw [length_frame]; omega)

theorem sent_msgs (mem : Nat → UInt8) (p : List UInt8) :
    ((Receiver.fresh mem).call (.bytes (frame 2 p))).msgs =
      (parse (((new mem).store (frame 2 p)).vReceiveBuffer.getSize + 1)
        ((new mem).store (frame 2 p))).msgs := by
  have hne : frame 2 p ≠ [] := List.ne_nil_of_length_pos (by rw [length_frame]; omega)
  rw [Receiver.call_live rfl, recvProcess_bytes hne]
  rfl

/-- A payload that a `short` measures is what a fresh task hands on. -/
theorem tcp_delivers (mem : Nat → UInt8) {p : List UInt8} (hp : p.length ≤ 32767) :
    ((Receiver.fresh mem).call (.bytes (frame 2 p))).msgs.map CSendMsg.sendBody = [p] := by
  have hh := sent_holds mem (show p.length ≤ 65534 by omega)
  have hstream : frame 2 p = stream 2 [p] := by simp
  rw [sent_msgs]
  rw [hstream] at hh ⊢
  exact (parse_holds (by simpa using hp) hh (Nat.lt_succ_self _)).2.1

/-- Every other payload is refused, or faults. -/
theorem tcp_drops (mem : Nat → UInt8) {p : List UInt8} (hp : 32767 < p.length)
    (hmax : p.length ≤ 65534) : ((Receiver.fresh mem).call (.bytes (frame 2 p))).msgs = [] := by
  have hh := sent_holds mem hmax
  have ho := hh.uOffset
  rw [length_frame] at ho
  have ha : ((new mem).store (frame 2 p)).announced = some ((2 + p.length) % 65536) := by
    rw [hh.announced (by rw [length_frame]; omega), beNat_take_two]
  rw [sent_msgs]
  by_cases hfull : p.length = 65534
  · -- 65536 is announced as 0
    have hz : (2 + p.length) % 65536 = 0 := by omega
    obtain ⟨t', ht⟩ := turn_zero hh.shape (hz ▸ ha)
    rw [parse_ret (by omega) ht]
  · rw [parse_fault (by omega) (turn_fault hh.shape ha (by omega) (by omega) (by omega))]

end CTcpTask

namespace CUdpTask

/-- **Every payload is delivered**, whatever the buffer held before. -/
theorem udp_delivers (t : CUdpTask) {p : List UInt8} (hp : p.length ≤ 65534) :
    (t.recvProcess [frame 2 p]).msgs.map CSendMsg.sendBody = [p] := by
  have hlen := length_frame 2 p
  have htake := beNat_take_two p
  -- the wrap of the prefix and that of the subtraction cancel
  have hsize : toU16 (((2 + p.length) % 65536 : Nat) - 2) = p.length := by
    unfold toU16
    omega
  have hone : (t.recvOne (frame 2 p)).msgs =
      (CUdpTask.mk ⟨write t.vReceiveBuffer.buffer 0 (frame 2 p), (frame 2 p).length, 2⟩
        p.length).processOnePacket.toList := by
    rw [recvOne, packetFinished_of_le (by omega) (by omega), htake, hsize,
      decide_eq_true (show (2 + p.length) % 65536 ≤ (frame 2 p).length by omega)]
    simp only [if_true]
  obtain ⟨m, hm, hbody⟩ := processOnePacket_eq
    (t := ⟨⟨write t.vReceiveBuffer.buffer 0 (frame 2 p), (frame 2 p).length, 2⟩, p.length⟩)
    (show p.length < 65536 by omega)
  have hread := (read_jumpBuffer (d := frame 2 p) t.vReceiveBuffer.buffer
    (show 2 ≤ 2 + p.length by omega) (by omega)).2
  have htail : ((frame 2 p).take (2 + p.length)).drop 2 = p := by
    rw [List.take_of_length_le (by omega), frame, List.drop_left' (length_beBytes 2 _)]
  rw [htail, Nat.add_sub_cancel_left] at hread
  rw [recvProcess, if_neg (by omega), UdpCall.andThen]
  simp only [recvProcess, hone, hm, Option.toList_some, List.append_nil, List.map_singleton, hbody,
    hread]

end CUdpTask

/-- **Delivered by both**: exactly the payloads whose length is a `short`. -/
theorem encoded_delivered_iff (b : CVBuffer) (mem : Nat → UInt8) (t : CUdpTask) (p : List UInt8)
    (hp : p.length ≤ 65534) :
    (((Receiver.fresh mem).call (.bytes (b.encoded p))).msgs.map CSendMsg.sendBody = [p] ∧
      (t.recvProcess [b.encoded p]).msgs.map CSendMsg.sendBody = [p]) ↔ p.length ≤ 32767 := by
  rw [CVBuffer.encoded_eq b hp]
  constructor
  · rintro ⟨htcp, -⟩
    by_contra hlong
    rw [CTcpTask.tcp_drops mem (by omega) hp] at htcp
    cases htcp
  · intro hshort
    exact ⟨CTcpTask.tcp_delivers mem hshort, CUdpTask.udp_delivers t hp⟩

/-- A payload of one byte. -/
theorem encoded_delivered_iff_one_byte :
    (((Receiver.fresh fun _ => 0).call (.bytes ((CVBuffer.new fun _ => 0).encoded [0x41]))).msgs.map
        CSendMsg.sendBody = [[0x41]] ∧
      ((CUdpTask.mk (.new fun _ => 0) 0).recvProcess
        [(CVBuffer.new fun _ => 0).encoded [0x41]]).msgs.map CSendMsg.sendBody = [[0x41]]) ↔
      ([0x41] : List UInt8).length ≤ 32767 :=
  encoded_delivered_iff (.new fun _ => 0) (fun _ => 0) ⟨.new fun _ => 0, 0⟩ [0x41] (by decide)

/-- The smallest payload that only one of the two delivers. -/
theorem payload_32768_dropped :
    ((Receiver.fresh fun _ => 0).call
      (.bytes ((CVBuffer.new fun _ => 0).encoded (List.replicate 32768 0)))).msgs.map
        CSendMsg.sendBody ≠ [List.replicate 32768 0] := by
  have hp : (List.replicate 32768 (0 : UInt8)).length = 32768 := List.length_replicate
  intro hd
  rw [CVBuffer.encoded_eq _ (by omega), CTcpTask.tcp_drops _ (by omega) (by omega)] at hd
  cases hd

end WebsocketTest
