import WebsocketTest.Tcp.Recv

/-!
# What one pass of the parse loop does

`turn` is a `switch` with a fall-through over four integer types. This module reads it once, on
the tasks a run can reach, and everything about `RecvProcess` is derived from the five equations
it ends in (`turn_none` … `turn_wait`): the loop has either not seen a whole prefix yet, or it has
announced a total `L`, and `L` alone decides what happens next.

`InShape` is the invariant that makes this so. Between two passes a task either waits for a
prefix with the cursor at 0, or has read one, with the cursor behind it at 2. In the second state
the two bytes in front of the cursor need not be the prefix any more: the next `recv` may have
been pointed at them.

That does not matter to what is waited for, because both numbers were remembered when the prefix was
read: the total in an `int`, which holds any prefix, and the payload size in a `short`, which holds
it up to 32767. From there come the two cases of `toS16_total` and `toS16_total_neg`, and a `turn`
that faults: a message cannot be built from a negative size.
-/

set_option autoImplicit false

namespace WebsocketTest

open Lib.Memory Lib.Integers Lib.Framing

namespace CTcpTask

structure InShape (t : CTcpTask) : Prop where
  size : t.vReceiveBuffer.uOffset ≤ maxCVBufferSize
  reading : t.state = .readPacketLen → t.vReceiveBuffer.uGetOffset = 0
  waiting : t.state = .readPacket →
    t.vReceiveBuffer.uGetOffset = 2 ∧ 2 ≤ t.vReceiveBuffer.uOffset ∧
      0 < t.iTotalPackLen ∧ t.iTotalPackLen ≤ 65535 ∧ t.iDataSize = toS16 (t.iTotalPackLen - 2)

/-- The total the parser goes by: the one it remembers, or the prefix in front of it. -/
def announced (t : CTcpTask) : Option Nat :=
  match t.state with
  | .readPacket => some t.iTotalPackLen.toNat
  | .readPacketLen =>
    if t.vReceiveBuffer.uOffset < 2 then none else some (beNat (read t.vReceiveBuffer.buffer 0 2))

/-- The task that has read the prefix `L`. -/
def armed (t : CTcpTask) (L : Nat) : CTcpTask where
  vReceiveBuffer := { t.vReceiveBuffer with uGetOffset := 2 }
  iDataSize := toS16 (L - 2)
  iTotalPackLen := L
  state := .readPacket

/-- The task that has handed on a packet of total length `L`: what lay behind it moved to the
    front. -/
def consumed (t : CTcpTask) (L : Nat) : CTcpTask where
  vReceiveBuffer :=
    { buffer := move t.vReceiveBuffer.buffer 0 L (t.vReceiveBuffer.uOffset - L)
      uOffset := t.vReceiveBuffer.uOffset - L
      uGetOffset := 0 }
  iDataSize := toS16 (L - 2)
  iTotalPackLen := L
  state := .readPacketLen

variable {t : CTcpTask} {L : Nat}

theorem new_inShape (mem : Nat → UInt8) : (new mem).InShape :=
  ⟨Nat.zero_le _, fun _ => rfl, fun h => absurd h (by simp [new])⟩

theorem announced_lt (h : t.InShape) (ha : t.announced = some L) : L < 65536 := by
  unfold announced at ha
  split at ha
  · rename_i hs
    obtain ⟨-, -, h₁, h₂, -⟩ := h.waiting hs
    simp only [Option.some.injEq] at ha
    omega
  · split at ha
    · cases ha
    · have := beNat_lt (read t.vReceiveBuffer.buffer 0 2)
      simp only [Option.some.injEq, length_read] at ha this
      omega

/-- A waiting task is the one that has read its own total. -/
theorem armed_of_waiting (h : t.InShape) (hs : t.state = .readPacket) :
    t.armed t.iTotalPackLen.toNat = t := by
  obtain ⟨hg, -, h₁, -, hd⟩ := h.waiting hs
  obtain ⟨⟨m, o, g⟩, d, l, s⟩ := t
  simp only at hg hs h₁ hd
  subst hg hs
  have hl : ((l.toNat : Nat) : Int) = l := by omega
  simp [armed, hl, hd]

theorem armed_inShape (h : t.InShape) (ha : t.announced = some L) (hL : 0 < L) :
    (t.armed L).InShape := by
  have hlt := announced_lt h ha
  refine ⟨h.size, fun hs => absurd hs (by simp [armed]), fun _ => ⟨rfl, ?_, ?_, ?_, rfl⟩⟩
  · show 2 ≤ t.vReceiveBuffer.uOffset
    unfold announced at ha
    split at ha
    · exact (h.waiting ‹_›).2.1
    · split at ha
      · cases ha
      · omega
  · simp only [armed]; omega
  · simp only [armed]; omega

theorem consumed_inShape (h : t.InShape) (L : Nat) : (t.consumed L).InShape :=
  ⟨Nat.le_trans (Nat.sub_le _ _) h.size, fun _ => rfl, fun hs => absurd hs (by simp [consumed])⟩

/-! ## The switch

`case ReadPacketLen` falls through to `case ReadPacket` once it has the prefix, so that a pass
enters the second case with a prefix just read or with an old one. `armed` is both. -/

theorem enterReadPacket_none (ha : t.announced = none) : t.enterReadPacket = .error (1, t) := by
  unfold announced at ha
  split at ha
  · cases ha
  · rename_i hs
    split at ha
    · rename_i hlt
      simp [enterReadPacket, hs, readPacketLen, CVBuffer.getSize, hlt]
    · cases ha

/-- A complete prefix, read: `iTotalPackLen` is its value, and the cursor is behind it. -/
theorem readPacketLen_eq (h : t.InShape) (hs : t.state = .readPacketLen)
    (ha : t.announced = some L) :
    t.readPacketLen =
      if L = 0 then
        .error (-1, { t with
          vReceiveBuffer := { t.vReceiveBuffer with uGetOffset := 2 }, iTotalPackLen := 0 })
      else .ok (t.armed L) := by
  have hlt := announced_lt h ha
  have hg := h.reading hs
  have hz : t.vReceiveBuffer.uOffset ≤ 65536 := h.size
  simp only [announced, hs] at ha
  split at ha
  · cases ha
  rename_i hsz
  simp only [Option.some.injEq] at ha
  have hget : t.vReceiveBuffer.getType 2 =
      (some (read t.vReceiveBuffer.buffer 0 2), { t.vReceiveBuffer with uGetOffset := 2 }) := by
    rw [CVBuffer.getType_of_le (by omega) (by omega), hg]
  have hval : ntohs (hostLoad (read t.vReceiveBuffer.buffer 0 2)) = L := by
    rw [ntohs_hostLoad_read, ha]
  unfold readPacketLen
  rw [if_neg (show ¬ t.vReceiveBuffer.getSize < 2 from hsz), hget]
  simp only [Option.map_some, Option.getD_some, hval]
  by_cases hL : L = 0
  · subst hL
    simp
  · rw [if_neg (by omega), if_neg hL]
    rfl

theorem enterReadPacket_zero (h : t.InShape) (ha : t.announced = some 0) :
    ∃ t', t.enterReadPacket = .error (-1, t') := by
  cases hs : t.state with
  | readPacketLen =>
    have he : t.enterReadPacket = t.readPacketLen := by simp only [enterReadPacket, hs]
    exact ⟨_, he.trans ((readPacketLen_eq h hs ha).trans (if_pos rfl))⟩
  | readPacket =>
    obtain ⟨-, -, h₁, -, -⟩ := h.waiting hs
    simp only [announced, hs, Option.some.injEq] at ha
    omega

theorem enterReadPacket_some (h : t.InShape) (ha : t.announced = some L) (hL : 0 < L) :
    t.enterReadPacket = .ok (t.armed L) := by
  cases hs : t.state with
  | readPacketLen =>
    simp only [enterReadPacket, hs]
    rw [readPacketLen_eq h hs ha, if_neg (by omega)]
  | readPacket =>
    have hL' : L = t.iTotalPackLen.toNat := by
      simp only [announced, hs, Option.some.injEq] at ha
      exact ha.symm
    simp only [enterReadPacket, hs]
    rw [hL', armed_of_waiting h hs]

/-- Fewer than two bytes: more data needed. -/
theorem turn_none (ha : t.announced = none) : t.turn = .ret 1 t := by
  rw [turn, enterReadPacket_none ha]

/-- A zero prefix is the only one refused. -/
theorem turn_zero (h : t.InShape) (ha : t.announced = some 0) : ∃ t', t.turn = .ret (-1) t' := by
  obtain ⟨t', ht⟩ := enterReadPacket_zero h ha
  exact ⟨t', by rw [turn, ht]⟩

/-- Every other prefix, and a prefix read by an earlier call, goes on to `case ReadPacket`. -/
theorem turn_some (h : t.InShape) (ha : t.announced = some L) (hL : 0 < L) :
    t.turn = (t.armed L).readPacket := by
  rw [turn, enterReadPacket_some h ha hL]

/-! ## `case ReadPacket` -/

theorem packetFinished_armed (hlt : L < 65536) :
    (t.armed L).packetFinished = decide (L ≤ t.vReceiveBuffer.uOffset) := by
  simp only [packetFinished, armed, CVBuffer.getSize, toU32_natCast (show L < 4294967296 by omega)]

/-- Not all of the frame is there yet. -/
theorem turn_wait (h : t.InShape) (ha : t.announced = some L) (hL : 0 < L)
    (hw : t.vReceiveBuffer.uOffset < L) : t.turn = .ret 1 (t.armed L) := by
  have hf : (t.armed L).packetFinished = false := by
    rw [packetFinished_armed (announced_lt h ha)]
    exact decide_eq_false (by omega)
  rw [turn_some h ha hL, readPacket, hf]
  rfl

/-- The payload sizes a `short` holds as they are. -/
theorem toS16_total (h : 2 ≤ L) (h' : L ≤ 32769) : toS16 (L - 2) = (L - 2 : Nat) := by
  rw [toS16_eq (by omega) (by omega)]
  omega

/-- A total of 1, or above 32769, becomes a negative `short`. -/
theorem toS16_total_neg (hlt : L < 65536) (hL : 0 < L) (h : L < 2 ∨ 32769 < L) :
    toS16 (L - 2) < 0 := by
  unfold toS16
  omega

/-- With a negative size the message cannot be built: its constructor allocates that many bytes. -/
theorem turn_fault (h : t.InShape) (ha : t.announced = some L) (hL : 0 < L)
    (hw : L ≤ t.vReceiveBuffer.uOffset) (hbad : L < 2 ∨ 32769 < L) :
    t.turn = .fault (t.armed L) := by
  have hlt := announced_lt h ha
  have hf : (t.armed L).packetFinished = true := by
    rw [packetFinished_armed hlt]
    exact decide_eq_true hw
  have hp : (t.armed L).processOnePacket = none := by
    have hneg : (t.armed L).iDataSize < 0 := toS16_total_neg hlt hL hbad
    rw [processOnePacket, CSendMsg.new_of_neg hneg]
    rfl
  rw [turn_some h ha hL, readPacket, hf, hp]
  rfl

/-- A frame that is all there is handed on, and the loop goes on behind it. -/
theorem turn_packet (h : t.InShape) (ha : t.announced = some L) (hw : L ≤ t.vReceiveBuffer.uOffset)
    (h₂ : 2 ≤ L) (h₃ : L ≤ 32769) :
    ∃ pMsg, t.turn = .packet pMsg (t.consumed L) ∧
      pMsg.sendBody = read t.vReceiveBuffer.buffer 2 (L - 2) := by
  have hz : t.vReceiveBuffer.uOffset ≤ 65536 := h.size
  have hf : (t.armed L).packetFinished = true := by
    rw [packetFinished_armed (announced_lt h ha)]
    exact decide_eq_true hw
  have hd : (t.armed L).iDataSize = (L - 2 : Nat) := toS16_total h₂ h₃
  obtain ⟨pMsg, hm⟩ : ∃ pMsg, CSendMsg.new (t.armed L).iDataSize
      (t.armed L).vReceiveBuffer.buffer (t.armed L).vReceiveBuffer.jumpBuffer = some pMsg := by
    unfold CSendMsg.new
    rw [dif_pos ⟨by omega, by omega⟩]
    exact ⟨_, rfl⟩
  have hbody : pMsg.sendBody = read t.vReceiveBuffer.buffer 2 (L - 2) := by
    rw [(CSendMsg.new_eq_some.mp hm).2.2, hd, Int.toNat_natCast]
    by_cases he : L = 2
    · subst he
      rfl
    · have hj : (t.armed L).vReceiveBuffer.jumpBuffer = 2 := by
        simp only [CVBuffer.jumpBuffer, armed]
        exact if_pos (by omega)
      rw [hj]
      rfl
  have hj : (t.armed L).vReceiveBuffer.jump (toU32 (t.armed L).iDataSize) =
      { t.vReceiveBuffer with uGetOffset := L } := by
    rw [hd, toU32_natCast (by omega), CVBuffer.jump_of_le (by simp only [armed]; omega)
      (by simp only [armed]; omega)]
    simp only [armed, CVBuffer.mk.injEq, true_and]
    omega
  have hp : (t.armed L).processOnePacket =
      some (pMsg, { t.consumed L with state := .readPacket }) := by
    rw [processOnePacket, hm, hj, CVBuffer.alignBuf_of_le hw]
    rfl
  refine ⟨pMsg, ?_, hbody⟩
  rw [turn_some h ha (by omega), readPacket, hf, hp]
  rfl

end CTcpTask

end WebsocketTest
