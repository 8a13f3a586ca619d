import WebsocketTest.Tcp.Turn

/-!
# The parse loop over what the buffer holds

Two facts about `parse`, from the equations of `Tcp/Turn.lean`.

`parse_inShape` is the loop's termination: on a task in shape every packet takes at least its two
prefix bytes out of the buffer, so the fuel `recvProcess` passes is never used up.

`parse_holds` is what the loop is for. `Holds t bs` says the task is between two frames with `bs`
in front of it; if `bs` is a run of whole frames whose payloads a `short` can measure, the loop
hands on exactly their payloads and is left with nothing.

The loop of the source has no bound, and `parse` has fuel: as many passes as there are bytes, and
one more.

`Holds` is more than `InShape`. It is about the bytes, and it is lost at a `recv` into a buffer that
is not empty. `InShape` is about the cursors, and every call keeps it.
-/

set_option autoImplicit false

namespace WebsocketTest

open Lib.Memory Lib.Integers Lib.Framing

namespace CTcpTask

variable {t : CTcpTask}

/-! ## The loop, one pass at a time -/

theorem parse_empty {n : Nat} (h : t.vReceiveBuffer.uOffset = 0) :
    parse (n + 1) t = ⟨t, [], .ret 0⟩ := if_pos h

theorem parse_ret {n : Nat} {r : Int} {t' : CTcpTask} (h : t.vReceiveBuffer.uOffset ≠ 0)
    (hr : t.turn = .ret r t') : parse (n + 1) t = ⟨t', [], .ret r⟩ := by
  rw [parse, if_neg (show ¬ t.vReceiveBuffer.getSize = 0 from h), hr]

theorem parse_fault {n : Nat} {t' : CTcpTask} (h : t.vReceiveBuffer.uOffset ≠ 0)
    (hr : t.turn = .fault t') : parse (n + 1) t = ⟨t', [], .fault⟩ := by
  rw [parse, if_neg (show ¬ t.vReceiveBuffer.getSize = 0 from h), hr]

theorem parse_packet {n : Nat} {m : CSendMsg} {t' : CTcpTask}
    (h : t.vReceiveBuffer.uOffset ≠ 0) (hr : t.turn = .packet m t') :
    parse (n + 1) t = { parse n t' with msgs := m :: (parse n t').msgs } := by
  rw [parse, if_neg (show ¬ t.vReceiveBuffer.getSize = 0 from h), hr]

/-- A task that can be called again: in shape, with room for at least two more bytes. -/
def Ready (t : CTcpTask) : Prop := t.InShape ∧ t.vReceiveBuffer.uOffset ≤ 65534

/-- The outcomes of a pass, with what `turn` is in each of them. -/
theorem turn_cases (h : t.InShape) :
    (∃ t', t.turn = .ret 1 t' ∧ t'.Ready) ∨ (∃ t', t.turn = .ret (-1) t') ∨
      (∃ t', t.turn = .fault t') ∨
      ∃ m L, t.turn = .packet m (t.consumed L) ∧ 2 ≤ L ∧ L ≤ t.vReceiveBuffer.uOffset ∧
        m.sendBody.length ≤ 32767 := by
  cases ha : t.announced with
  | none =>
    refine .inl ⟨t, turn_none ha, h, ?_⟩
    unfold announced at ha
    split at ha
    · cases ha
    · split at ha
      · omega
      · cases ha
  | some L =>
    by_cases hL : L = 0
    · subst hL
      exact .inr (.inl (turn_zero h ha))
    by_cases hw : L ≤ t.vReceiveBuffer.uOffset
    · by_cases hbad : L < 2 ∨ 32769 < L
      · exact .inr (.inr (.inl ⟨_, turn_fault h ha (by omega) hw hbad⟩))
      · obtain ⟨m, hm, hb⟩ := turn_packet h ha hw (by omega) (by omega)
        exact .inr (.inr (.inr ⟨m, L, hm, by omega, hw, by rw [hb, length_read]; omega⟩))
    · have hlt := announced_lt h ha
      exact .inl ⟨_, turn_wait h ha (by omega) (by omega), armed_inShape h ha (by omega),
        show t.vReceiveBuffer.uOffset ≤ 65534 by omega⟩

/-- **The loop ends**: a task it returns from with anything but -1 is ready for the next call, and
    no message it handed on is longer than a `short` can say. The induction is on the fuel; a
    packet leaves at least two bytes less. -/
theorem parse_inShape {n : Nat} (h : t.InShape) (hn : t.vReceiveBuffer.uOffset < n) :
    (parse n t).exit ≠ .spin ∧
      (∀ r, (parse n t).exit = .ret r → r ≠ -1 → (parse n t).task.Ready) ∧
      ∀ m ∈ (parse n t).msgs, m.sendBody.length ≤ 32767 := by
  induction n generalizing t with
  | zero => omega
  | succ n ih =>
    by_cases hz : t.vReceiveBuffer.uOffset = 0
    · rw [parse_empty hz]
      exact ⟨by simp, fun _ _ _ => ⟨h, show t.vReceiveBuffer.uOffset ≤ 65534 by omega⟩, by simp⟩
    rcases turn_cases h with ⟨t', ht, hs⟩ | ⟨t', ht⟩ | ⟨t', ht⟩ | ⟨m, L, ht, hL, hle, hm⟩
    · rw [parse_ret hz ht]
      exact ⟨by simp, fun _ _ _ => hs, by simp⟩
    · rw [parse_ret hz ht]
      exact ⟨by simp, fun r hr hne => absurd (Exit.ret.inj hr).symm hne, by simp⟩
    · rw [parse_fault hz ht]
      exact ⟨by simp, fun r hr => absurd hr (by simp), by simp⟩
    · rw [parse_packet hz ht]
      obtain ⟨hx, hr, hms⟩ := ih (consumed_inShape h L) (by simp only [consumed]; omega)
      refine ⟨hx, hr, ?_⟩
      intro m' hm'
      rcases List.mem_cons.mp hm' with rfl | hm'
      · exact hm
      · exact hms m' hm'

/-! ## Between two frames

Each frame is taken off the front of `bs`, and the loop is an induction on what is left. -/

/-- The task waits for a prefix, and `bs` is what it has received and not looked at. -/
structure Holds (t : CTcpTask) (bs : List UInt8) : Prop where
  shape : t.InShape
  state : t.state = .readPacketLen
  bytes : read t.vReceiveBuffer.buffer 0 t.vReceiveBuffer.uOffset = bs

theorem Holds.uOffset {bs : List UInt8} (h : t.Holds bs) :
    t.vReceiveBuffer.uOffset = bs.length := by
  rw [← h.bytes, length_read]

theorem new_holds (mem : Nat → UInt8) : (new mem).Holds [] := ⟨new_inShape mem, rfl, rfl⟩

/-- Nothing in front of the cursor: `JumpBuffer` is the start of the array, and so is the end of
    what was received. This is the one state in which a `recv` stores where it should. -/
theorem Holds.store (h : t.Holds []) {bs : List UInt8} (hbs : bs.length ≤ 65536) :
    (t.store bs).Holds bs := by
  have ho : t.vReceiveBuffer.uOffset = 0 := h.uOffset
  have hg : t.vReceiveBuffer.uGetOffset = 0 := h.shape.reading h.state
  have hj : t.vReceiveBuffer.jumpBuffer = 0 := by simp [CVBuffer.jumpBuffer, ho]
  have hu : u32 (0 + bs.length) = bs.length := by rw [Nat.zero_add, u32_eq (by omega)]
  refine ⟨⟨?_, fun _ => hg, fun hs => absurd (h.state.symm.trans hs) (by simp)⟩, h.state, ?_⟩
  · simp only [CTcpTask.store, CVBuffer.addDataSize, ho, hu]
    exact hbs
  · simp only [CTcpTask.store, CVBuffer.addDataSize, ho, hu, hj]
    exact read_write_self _ _ _

/-- A frame at the front is announced by its prefix. -/
theorem Holds.announced {bs : List UInt8} (h : t.Holds bs) (hlen : 2 ≤ bs.length) :
    t.announced = some (beNat (bs.take 2)) := by
  have ho := h.uOffset
  have hr : read t.vReceiveBuffer.buffer 0 2 = bs.take 2 := by
    rw [← h.bytes, take_read _ (by omega)]
  simp only [CTcpTask.announced, h.state, hr]
  exact if_neg (by omega)

/-- What lies behind a frame of total length `L` is what the task holds after it. -/
theorem Holds.consumed {bs : List UInt8} (h : t.Holds bs) {L : Nat} (hL : L ≤ bs.length) :
    (t.consumed L).Holds (bs.drop L) := by
  have ho := h.uOffset
  refine ⟨consumed_inShape h.shape L, rfl, ?_⟩
  simp only [CTcpTask.consumed, read_move]
  rw [← h.bytes, drop_read _ (by omega), Nat.zero_add]

/-- **One whole frame is one message**, and the rest stays. -/
theorem Holds.frame {p rest : List UInt8} (h : t.Holds (frame 2 p ++ rest))
    (hp : p.length ≤ 32767) :
    ∃ m t', t.turn = .packet m t' ∧ m.sendBody = p ∧ t'.Holds rest := by
  have ho := h.uOffset
  have hlen : (Lib.Framing.frame 2 p ++ rest).length = 2 + p.length + rest.length := by simp
  have ha : t.announced = some (2 + p.length) := by
    rw [h.announced (by omega), beNat_take_frame (by omega)]
  obtain ⟨m, ht, hm⟩ := turn_packet h.shape ha (by omega) (by omega) (by omega)
  have hrest : (Lib.Framing.frame 2 p ++ rest).drop (2 + p.length) = rest :=
    List.drop_left' (length_frame 2 p)
  refine ⟨m, _, ht, ?_, hrest ▸ h.consumed (by omega)⟩
  have hbody : read t.vReceiveBuffer.buffer 2 p.length =
      ((Lib.Framing.frame 2 p ++ rest).drop 2).take p.length := by
    rw [← h.bytes, drop_read _ (by omega), take_read _ (by omega)]
  rw [hm, Nat.add_sub_cancel_left, hbody, Lib.Framing.frame, List.append_assoc,
    List.drop_left' (length_beBytes 2 _), List.take_left' rfl]

/-- **The loop decodes whole frames**, however many the buffer holds. -/
theorem parse_holds {ps : List (List UInt8)} (hps : ∀ p ∈ ps, p.length ≤ 32767)
    (h : t.Holds (stream 2 ps)) {n : Nat} (hn : t.vReceiveBuffer.uOffset < n) :
    (parse n t).exit = .ret 0 ∧ (parse n t).msgs.map CSendMsg.sendBody = ps ∧
      (parse n t).task.Holds [] := by
  induction ps generalizing t n with
  | nil =>
    obtain ⟨n, rfl⟩ : ∃ k, n = k + 1 := ⟨n - 1, by omega⟩
    rw [parse_empty h.uOffset]
    exact ⟨rfl, rfl, h⟩
  | cons p ps ih =>
    obtain ⟨n, rfl⟩ : ∃ k, n = k + 1 := ⟨n - 1, by omega⟩
    have ho := h.uOffset
    rw [stream_cons] at h ho
    rw [List.length_append, length_frame] at ho
    obtain ⟨m, t', ht, hm, h'⟩ := h.frame (hps p List.mem_cons_self)
    have ho' := h'.uOffset
    obtain ⟨he, hms, hh⟩ :=
      ih (fun q hq => hps q (List.mem_cons_of_mem p hq)) h' (n := n) (by omega)
    rw [parse_packet (by omega) ht]
    exact ⟨he, by rw [List.map_cons, hm, hms], hh⟩

end CTcpTask

end WebsocketTest
