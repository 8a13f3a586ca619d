import WebsocketTest.Buffer
import WebsocketTest.Message

/-!
# `CUdpTask::RecvProcess` (`mytask.cpp`)

A datagram is a message: `2(totallen)` and then the body, the prefix counting itself. The loop
takes datagrams until `recvfrom` has none, each into the buffer the last one was in. `Clear` resets
the cursors and leaves the bytes.

`recvOne` is the body of the loop for one datagram, `recvProcess` a call, and `recvAll` one call
after another. Nothing is assumed of the task a call starts from, so its buffer may hold anything.

**`recvAll_exact_iff`** — a session hands on just the bodies its datagrams carry, and looks at no
byte outside them, exactly when every datagram has a prefix and every prefix counts itself. A
shorter prefix is taken from two and wraps; a missing one reads as zero.

Every datagram that is not like that is handed on too, as a message of the wrapped size. So the
number of messages tells it apart, and the harder direction needs no more than counting: if as many
messages come out as bodies were expected, no datagram was wrong (`recvProcess_count`).

A prefix that counts itself may still promise more than its datagram has. Then nothing is handed on,
and nothing is expected either; the rest of that message is not waited for, because the next
datagram starts the buffer over.

A datagram is no longer than the buffer and not empty, which are hypotheses. A longer one would be
cut by `recvfrom`, and an empty one ends the call it comes in, with datagrams left in the socket for
the next.
-/

set_option autoImplicit false

namespace WebsocketTest

open Lib.Memory Lib.Integers Lib.Framing

/-- The members of a `CUdpTask` that receiving uses. -/
structure CUdpTask where
  vReceiveBuffer : CVBuffer
  iDataSize : Nat

/-- What receiving comes to: the task it leaves, the messages handed to `PutMsgToList`, and the
    tasks `ProcessOnePacket` was called on, each with the datagram it was called for. -/
structure UdpCall where
  task : CUdpTask
  msgs : List CSendMsg
  processed : List (List UInt8 × CUdpTask)

def UdpCall.andThen (c : UdpCall) (f : CUdpTask → UdpCall) : UdpCall :=
  let c' := f c.task
  ⟨c'.task, c.msgs ++ c'.msgs, c.processed ++ c'.processed⟩

namespace CUdpTask

/-- `iLen` keeps its initial 0 if `Get` fails. The size is an `unsigned short`. -/
def packetFinished (t : CUdpTask) : Bool × CUdpTask :=
  let (tData, b) := t.vReceiveBuffer.getType 2
  let iLen := (tData.map hostLoad).getD 0
  let sLen := ntohs iLen
  (decide (sLen ≤ b.getSize), { vReceiveBuffer := b, iDataSize := toU16 (sLen - 2) })

/-- The message; a `UdpCall` reports it next to the task. It is never `none`: the size is not
    negative. -/
def processOnePacket (t : CUdpTask) : Option CSendMsg :=
  CSendMsg.new t.iDataSize t.vReceiveBuffer.buffer t.vReceiveBuffer.jumpBuffer

/-- The task after `Clear`, `recvfrom` of the datagram `d` to `JumpBuffer()`, and `AddDataSize`. -/
def store (t : CUdpTask) (d : List UInt8) : CUdpTask :=
  let b := t.vReceiveBuffer.clear
  { t with vReceiveBuffer :=
      { b with buffer := write b.buffer b.jumpBuffer d }.addDataSize d.length }

def recvOne (t : CUdpTask) (d : List UInt8) : UdpCall :=
  let (finished, t) := (t.store d).packetFinished
  if finished then ⟨t, t.processOnePacket.toList, [(d, t)]⟩ else ⟨t, [], []⟩

/-- One call. Where `recvfrom` returns nothing the call returns 0, whatever `errno` is. -/
def recvProcess (t : CUdpTask) : List (List UInt8) → UdpCall
  | [] => ⟨{ t with vReceiveBuffer := t.vReceiveBuffer.clear }, [], []⟩
  | d :: ds =>
    if d.length = 0 then ⟨{ t with vReceiveBuffer := t.vReceiveBuffer.clear }, [], []⟩
    else (t.recvOne d).andThen fun t' => recvProcess t' ds

/-- Any number of calls, each with the datagrams that `recvfrom` returns to it. -/
def recvAll (t : CUdpTask) : List (List (List UInt8)) → UdpCall
  | [] => ⟨t, [], []⟩
  | ds :: dss => (t.recvProcess ds).andThen fun t' => recvAll t' dss

/-! ## What a datagram is worth

Said without the buffer: from the datagram alone. -/

/-- The body a datagram carries, if its prefix is that of a message it has all of. -/
def expected (d : List UInt8) : Option (List UInt8) :=
  if 2 ≤ d.length ∧ 2 ≤ beNat (d.take 2) ∧ beNat (d.take 2) ≤ d.length then
    some ((d.take (beNat (d.take 2))).drop 2)
  else none

/-- There is a prefix, and it counts itself. -/
def WellPrefixed (d : List UInt8) : Prop := 2 ≤ d.length ∧ 2 ≤ beNat (d.take 2)

instance (d : List UInt8) : Decidable (WellPrefixed d) :=
  inferInstanceAs (Decidable (_ ∧ _))

/-- The bytes copied for a datagram are the datagram's. -/
def Inside (p : List UInt8 × CUdpTask) : Prop :=
  p.2.vReceiveBuffer.jumpBuffer + p.2.iDataSize ≤ p.1.length ∧
    read p.2.vReceiveBuffer.buffer 0 p.1.length = p.1

variable {t : CUdpTask} {d : List UInt8}

/-! ## One datagram -/

/-- The buffer holds the datagram, and behind it what was there before. -/
theorem store_eq (t : CUdpTask) (hd : d.length ≤ 65536) :
    (t.store d).vReceiveBuffer = ⟨write t.vReceiveBuffer.buffer 0 d, d.length, 0⟩ := by
  have hu : u32 (0 + d.length) = d.length := by rw [Nat.zero_add, u32_eq (by omega)]
  have hj : t.vReceiveBuffer.clear.jumpBuffer = 0 := rfl
  simp only [store, CVBuffer.addDataSize, CVBuffer.clear_buffer, CVBuffer.clear_uOffset,
    CVBuffer.clear_uGetOffset, hj, hu]

theorem processOnePacket_eq (h : t.iDataSize < 65536) :
    ∃ m, t.processOnePacket = some m ∧
      m.sendBody = read t.vReceiveBuffer.buffer t.vReceiveBuffer.jumpBuffer t.iDataSize := by
  unfold processOnePacket CSendMsg.new
  rw [dif_pos ⟨by omega, by omega⟩]
  exact ⟨_, rfl, rfl⟩

/-- A datagram with a prefix is measured by it. -/
theorem packetFinished_of_le (hd : d.length ≤ 65536) (h₂ : 2 ≤ d.length) :
    (t.store d).packetFinished = (decide (beNat (d.take 2) ≤ d.length),
      ⟨⟨write t.vReceiveBuffer.buffer 0 d, d.length, 2⟩, toU16 (beNat (d.take 2) - 2)⟩) := by
  have hval : ntohs (hostLoad (read (write t.vReceiveBuffer.buffer 0 d) 0 2)) =
      beNat (d.take 2) := by
    rw [ntohs_hostLoad_read, ← take_read _ h₂, read_write_self]
  rw [packetFinished, store_eq t hd, CVBuffer.getType_of_le (by simpa using h₂)
    (show d.length < 4294967296 by omega)]
  simp only [Option.map_some, Option.getD_some, hval, CVBuffer.getSize, Nat.zero_add]

/-- One byte is no prefix: it counts as zero, which is no more than what is there. -/
theorem packetFinished_of_one (h₁ : d.length = 1) :
    (t.store d).packetFinished =
      (true, ⟨⟨write t.vReceiveBuffer.buffer 0 d, d.length, 0⟩, 65534⟩) := by
  rw [packetFinished, store_eq t (by omega), CVBuffer.getType_of_gt (show d.length < 0 + 2 by omega)
    (by simp)]
  simp [ntohs, toU16]

/-- What lies behind the prefix, up to the end of the message. Two bytes and no more put the
    cursor at the end, where `JumpBuffer()` goes back to the start; then nothing is copied. -/
theorem read_jumpBuffer (m : Nat → UInt8) {L : Nat} (h₂ : 2 ≤ L) (hle : L ≤ d.length) :
    (CVBuffer.mk (write m 0 d) d.length 2).jumpBuffer + (L - 2) ≤ d.length ∧
      read (write m 0 d) (CVBuffer.mk (write m 0 d) d.length 2).jumpBuffer (L - 2) =
        (d.take L).drop 2 := by
  by_cases he : d.length = 2
  · have hL : L = 2 := by omega
    subst hL
    simp [CVBuffer.jumpBuffer, he]
  · have hj : (CVBuffer.mk (write m 0 d) d.length 2).jumpBuffer = 2 :=
      if_pos (show d.length > 2 by omega)
    have hread : read (write m 0 d) 0 d.length = d := read_write_self m 0 d
    refine ⟨by rw [hj]; omega, ?_⟩
    calc read (write m 0 d) (CVBuffer.mk (write m 0 d) d.length 2).jumpBuffer (L - 2)
        = (read (write m 0 d) 0 L).drop 2 := by rw [hj, drop_read _ h₂, Nat.zero_add]
      _ = (d.take L).drop 2 := by rw [← take_read _ hle, hread]

/-- **A well-prefixed datagram** is handed on as it should be, whatever the buffer held. -/
theorem recvOne_of_wellPrefixed (hd : d.length ≤ 65536) (h : WellPrefixed d) :
    (t.recvOne d).msgs.map CSendMsg.sendBody = (expected d).toList ∧
      ∀ p ∈ (t.recvOne d).processed, Inside p := by
  obtain ⟨h₂, hL⟩ := h
  rw [recvOne, packetFinished_of_le hd h₂]
  by_cases hle : beNat (d.take 2) ≤ d.length
  · have hlt : beNat (d.take 2) < 256 ^ (d.take 2).length := beNat_lt _
    rw [List.length_take_of_le h₂] at hlt
    have hsize : toU16 ((beNat (d.take 2) : Nat) - 2) = beNat (d.take 2) - 2 := by
      unfold toU16
      omega
    obtain ⟨hin, hread⟩ := read_jumpBuffer t.vReceiveBuffer.buffer hL hle
    simp only [hle, decide_true, if_true, hsize, expected, h₂, hL, true_and]
    obtain ⟨m, hm, hbody⟩ := processOnePacket_eq
      (t := ⟨⟨write t.vReceiveBuffer.buffer 0 d, d.length, 2⟩, beNat (d.take 2) - 2⟩)
      (show beNat (d.take 2) - 2 < 65536 by omega)
    refine ⟨?_, ?_⟩
    · rw [hm, Option.toList_some, List.map_singleton, hbody, hread, Option.toList_some]
    · intro p hp
      rw [List.mem_singleton.mp hp]
      exact ⟨hin, read_write_self t.vReceiveBuffer.buffer 0 d⟩
  · simp [hle, expected]

/-- **Any other datagram** carries nothing, and is handed on all the same. -/
theorem recvOne_of_not_wellPrefixed (h₁ : 1 ≤ d.length) (hd : d.length ≤ 65536)
    (h : ¬ WellPrefixed d) : (t.recvOne d).msgs.length = 1 ∧ expected d = none := by
  have hnone : expected d = none := if_neg fun he => h ⟨he.1, he.2.1⟩
  refine ⟨?_, hnone⟩
  by_cases h₂ : 2 ≤ d.length
  · have hlt : beNat (d.take 2) < 2 := Nat.lt_of_not_le fun hL => h ⟨h₂, hL⟩
    rw [recvOne, packetFinished_of_le hd h₂]
    simp only [show beNat (d.take 2) ≤ d.length by omega, decide_true, if_true]
    obtain ⟨m, hm, -⟩ := processOnePacket_eq
      (t := ⟨⟨write t.vReceiveBuffer.buffer 0 d, d.length, 2⟩, toU16 (beNat (d.take 2) - 2)⟩)
      (toU16_lt _)
    rw [hm]
    rfl
  · rw [recvOne, packetFinished_of_one (by omega)]
    obtain ⟨m, hm, -⟩ := processOnePacket_eq
      (t := ⟨⟨write t.vReceiveBuffer.buffer 0 d, d.length, 0⟩, 65534⟩)
      (show 65534 < 65536 by decide)
    simp only [if_true]
    rw [hm]
    rfl

/-! ## Sessions

A call goes on with the task that the call before left. Since a datagram is judged the same whatever
the buffer held, the calls add up. -/

/-- The messages of a call, counted: those expected, and one for every datagram that is not well
    prefixed. -/
theorem recvProcess_count {ds : List (List UInt8)}
    (hds : ∀ d ∈ ds, 1 ≤ d.length ∧ d.length ≤ 65536) :
    (t.recvProcess ds).msgs.length =
      (ds.filterMap expected).length + ds.countP fun d => ¬ WellPrefixed d := by
  induction ds generalizing t with
  | nil => rfl
  | cons d ds ih =>
    obtain ⟨h₁, hd⟩ := hds d List.mem_cons_self
    have hrest := ih (t := (t.recvOne d).task) fun d' h' => hds d' (List.mem_cons_of_mem d h')
    rw [recvProcess, if_neg (by omega), UdpCall.andThen, List.length_append, hrest,
      List.filterMap_cons, List.countP_cons]
    by_cases hw : WellPrefixed d
    · have hlen := congrArg List.length (recvOne_of_wellPrefixed (t := t) hd hw).1
      rw [List.length_map] at hlen
      rw [hlen]
      cases expected d with
      | none => simp [hw]
      | some b =>
        simp [hw]
        omega
    · obtain ⟨hlen, hnone⟩ := recvOne_of_not_wellPrefixed (t := t) h₁ hd hw
      rw [hlen, hnone]
      simp [hw]
      omega

/-- A call over well-prefixed datagrams hands on what is expected, and copies from no other
    place. -/
theorem recvProcess_of_wellPrefixed {ds : List (List UInt8)}
    (hds : ∀ d ∈ ds, d.length ≤ 65536 ∧ WellPrefixed d) :
    (t.recvProcess ds).msgs.map CSendMsg.sendBody = ds.filterMap expected ∧
      ∀ p ∈ (t.recvProcess ds).processed, Inside p := by
  induction ds generalizing t with
  | nil => exact ⟨rfl, by simp [recvProcess]⟩
  | cons d ds ih =>
    obtain ⟨hd, hw⟩ := hds d List.mem_cons_self
    obtain ⟨hms, hin⟩ := recvOne_of_wellPrefixed (t := t) hd hw
    obtain ⟨hms', hin'⟩ := ih (t := (t.recvOne d).task)
      fun d' h' => hds d' (List.mem_cons_of_mem d h')
    have hpos := hw.1
    rw [recvProcess, if_neg (by omega), UdpCall.andThen]
    refine ⟨?_, ?_⟩
    · rw [List.map_append, hms, hms', List.filterMap_cons]
      cases expected d <;> rfl
    · intro p hp
      rcases List.mem_append.mp hp with hp | hp
      · exact hin p hp
      · exact hin' p hp

theorem recvAll_append (t : CUdpTask) (dss ess : List (List (List UInt8))) :
    (t.recvAll (dss ++ ess)).msgs =
      (t.recvAll dss).msgs ++ ((t.recvAll dss).task.recvAll ess).msgs := by
  induction dss generalizing t with
  | nil => rfl
  | cons ds dss ih =>
    rw [List.cons_append, recvAll, recvAll, UdpCall.andThen, UdpCall.andThen, ih, List.append_assoc]

theorem recvAll_count {dss : List (List (List UInt8))}
    (hds : ∀ ds ∈ dss, ∀ d ∈ ds, 1 ≤ d.length ∧ d.length ≤ 65536) :
    (t.recvAll dss).msgs.length =
      (dss.flatten.filterMap expected).length + dss.flatten.countP fun d => ¬ WellPrefixed d := by
  induction dss generalizing t with
  | nil => rfl
  | cons ds dss ih =>
    have hrest := ih (t := (t.recvProcess ds).task)
      fun es hes => hds es (List.mem_cons_of_mem ds hes)
    rw [recvAll, UdpCall.andThen, List.length_append, hrest,
      recvProcess_count (hds ds List.mem_cons_self), List.flatten_cons, List.filterMap_append,
      List.countP_append, List.length_append]
    omega

theorem recvAll_of_wellPrefixed (dss : List (List (List UInt8)))
    (hds : ∀ ds ∈ dss, ∀ d ∈ ds, d.length ≤ 65536 ∧ WellPrefixed d) :
    (t.recvAll dss).msgs.map CSendMsg.sendBody = dss.flatten.filterMap expected ∧
      ∀ p ∈ (t.recvAll dss).processed, Inside p := by
  induction dss generalizing t with
  | nil => exact ⟨rfl, by simp [recvAll]⟩
  | cons ds dss ih =>
    obtain ⟨hms, hin⟩ := recvProcess_of_wellPrefixed (t := t) (hds ds List.mem_cons_self)
    obtain ⟨hms', hin'⟩ :=
      ih (t := (t.recvProcess ds).task) fun es hes => hds es (List.mem_cons_of_mem ds hes)
    rw [recvAll, UdpCall.andThen]
    refine ⟨?_, ?_⟩
    · rw [List.map_append, hms, hms', List.flatten_cons, List.filterMap_append]
    · intro p hp
      rcases List.mem_append.mp hp with hp | hp
      · exact hin p hp
      · exact hin' p hp

/-- Messages with the same bodies are the same. -/
theorem msgs_eq_of_bodies {ms ms' : List CSendMsg}
    (h : ms.map CSendMsg.sendBody = ms'.map CSendMsg.sendBody) : ms = ms' :=
  List.map_injective_iff.mpr (fun _ _ he => CSendMsg.ext he) h

/-- **Sessions.** Over any calls and from any task: the messages are the bodies the datagrams carry
    and every copy stays in its datagram, exactly when every datagram is well prefixed. And what a
    well-prefixed datagram yields at the end of a session does not depend on the session. -/
theorem recvAll_exact_iff (t : CUdpTask) (dss : List (List (List UInt8)))
    (hds : ∀ ds ∈ dss, ∀ d ∈ ds, 1 ≤ d.length ∧ d.length ≤ maxCVBufferSize) :
    (((t.recvAll dss).msgs.map CSendMsg.sendBody = dss.flatten.filterMap expected ∧
        ∀ p ∈ (t.recvAll dss).processed, Inside p) ↔ ∀ d ∈ dss.flatten, WellPrefixed d) ∧
    ∀ (t' : CUdpTask) (dss' : List (List (List UInt8))) (d : List UInt8),
      WellPrefixed d → d.length ≤ maxCVBufferSize →
      ∃ ms, (t.recvAll (dss ++ [[d]])).msgs = (t.recvAll dss).msgs ++ ms ∧
        (t'.recvAll (dss' ++ [[d]])).msgs = (t'.recvAll dss').msgs ++ ms := by
  refine ⟨⟨?_, ?_⟩, ?_⟩
  · rintro ⟨hms, _⟩
    have hcount := recvAll_count (t := t) hds
    rw [← hms, List.length_map] at hcount
    have hzero : (dss.flatten.countP fun d => ¬ WellPrefixed d) = 0 := by omega
    intro d hd
    by_contra hbad
    exact List.countP_eq_zero.mp hzero d hd (decide_eq_true hbad)
  · intro hw
    exact recvAll_of_wellPrefixed dss fun ds hmem d hd =>
      ⟨(hds ds hmem d hd).2, hw d (List.mem_flatten_of_mem hmem hd)⟩
  · intro t' dss' d hw hd
    have last : ∀ u : CUdpTask, (u.recvAll [[d]]).msgs.map CSendMsg.sendBody =
        [d].filterMap expected := fun u =>
      (recvAll_of_wellPrefixed (t := u) [[d]] (by simpa using ⟨hd, hw⟩)).1
    refine ⟨((t.recvAll dss).task.recvAll [[d]]).msgs, recvAll_append t dss [[d]], ?_⟩
    rw [recvAll_append, msgs_eq_of_bodies ((last _).trans (last _).symm)]

theorem recvAll_exact_iff_two_datagrams :
    (((CUdpTask.mk (.new fun _ => 0) 0).recvAll [[[0, 3, 65]], [[0, 2]]]).msgs.map
        CSendMsg.sendBody = [[[0, 3, 65]], [[0, 2]]].flatten.filterMap expected ∧
      ∀ p ∈ ((CUdpTask.mk (.new fun _ => 0) 0).recvAll [[[0, 3, 65]], [[0, 2]]]).processed,
        Inside p) ↔ ∀ d ∈ [[[0, 3, 65]], [[0, 2]]].flatten, WellPrefixed d :=
  (recvAll_exact_iff ⟨.new fun _ => 0, 0⟩ [[[0, 3, 65]], [[0, 2]]] (by decide)).1

/-- The one-byte datagram `07` is handed on as a message of 65534 bytes, read from a buffer that
    holds one. -/
theorem one_byte_datagram :
    ∃ m ∈ ((CUdpTask.mk (.new fun _ => 0) 0).recvAll [[[7]]]).msgs, m.sendBody.length = 65534 ∧
      expected [7] = none := by
  obtain ⟨m, hm, hbody⟩ := processOnePacket_eq
    (t := ⟨⟨write (fun _ => 0) 0 [7], 1, 0⟩, 65534⟩) (by decide)
  refine ⟨m, ?_, by rw [hbody, length_read], by decide⟩
  rw [recvAll, recvProcess, if_neg (by decide), UdpCall.andThen, UdpCall.andThen, recvOne,
    packetFinished_of_one rfl]
  simp only [if_true]
  rw [show (CVBuffer.new fun _ => 0).buffer = fun _ => (0 : UInt8) from rfl,
    show [(7 : UInt8)].length = 1 from rfl, hm]
  simp

end CUdpTask

end WebsocketTest
