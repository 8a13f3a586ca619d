import WebsocketTest.Tcp.Packets

/-!
# Where the TCP receiver stands between two calls

A call leaves from several points of the parse loop, each with its own cursors. They come down to
two shapes (`Rests`): waiting for a prefix, with at most one byte of it, or waiting for the rest of
a frame whose total is known, with the cursor behind the prefix. In both there is room for at
least two more bytes, so the branch for a full buffer is never taken.

The shapes need `InShape` (`Tcp/Turn.lean`) inside the loop. What the loop adds is the count: each
packet takes its total out of the buffer, and nothing else leaves it (`parse_rests`).

**`rests_of_run`** is about runs in which no call returned -1 and no total that was announced made
a negative size.

The two hypotheses are not of one kind. After a -1 there is no task to speak of. A negative size is
handed to the copy and the cursor (`Packets`), and what the buffer is then is no longer told by
counting. A total of 0 makes one too, but that prefix is refused before it is used.

The count says how many bytes are kept, and not which: after a `recv` into a buffer that is not
empty they need not be the ones that came (`Misplaced`).
-/

set_option autoImplicit false

namespace WebsocketTest

open Lib.Memory Lib.Integers Lib.Framing Lib.Run

/-- The totals of the frames the messages came in, prefixes included. -/
def totals (ms : List CSendMsg) : Nat := (ms.map fun m => 2 + m.getLen).sum

@[simp] theorem totals_nil : totals [] = 0 := rfl

@[simp] theorem totals_cons (m : CSendMsg) (ms : List CSendMsg) :
    totals (m :: ms) = 2 + m.getLen + totals ms := rfl

theorem totals_append (ms ms' : List CSendMsg) : totals (ms ++ ms') = totals ms + totals ms' := by
  simp [totals]

namespace CTcpTask

variable {t : CTcpTask} {L : Nat}

/-- Waiting for a prefix, of which one byte may be there. -/
def AwaitsPrefix (t : CTcpTask) : Prop :=
  t.state = .readPacketLen ∧ t.vReceiveBuffer.uGetOffset = 0 ∧ t.vReceiveBuffer.uOffset ≤ 1

/-- Waiting for the rest of a frame. -/
def AwaitsPacket (t : CTcpTask) : Prop :=
  t.state = .readPacket ∧ t.vReceiveBuffer.uGetOffset = 2 ∧ 2 ≤ t.vReceiveBuffer.uOffset ∧
    (t.vReceiveBuffer.uOffset : Int) < t.iTotalPackLen ∧ t.iTotalPackLen ≤ 65535

def Rests (t : CTcpTask) : Prop := t.AwaitsPrefix ∨ t.AwaitsPacket

theorem new_rests (mem : Nat → UInt8) : (new mem).Rests := .inl ⟨rfl, rfl, Nat.zero_le _⟩

/-- A task that has no prefix yet is at rest: there is at most one byte in its buffer. -/
theorem rests_of_none (h : t.InShape) (ha : t.announced = none) : t.Rests := by
  unfold announced at ha
  split at ha
  · cases ha
  · rename_i hs
    split at ha
    · exact .inl ⟨hs, h.reading hs, by omega⟩
    · cases ha

/-- A task that has a prefix and not all of its frame is at rest, waiting for the others. -/
theorem armed_rests (h : t.InShape) (ha : t.announced = some L) (hL : 0 < L)
    (hw : t.vReceiveBuffer.uOffset < L) : (t.armed L).Rests := by
  have hlt := announced_lt h ha
  obtain ⟨-, h₂, -⟩ := (armed_inShape h ha hL).waiting rfl
  refine .inr ⟨rfl, rfl, h₂, ?_, ?_⟩
  · simp only [armed]
    omega
  · simp only [armed]
    omega

/-- An announced total with a size that is not negative. -/
theorem measurable_of_nonneg (hlt : L < 65536) (h : L ≠ 0 → 0 ≤ toS16 (L - 2)) : Measurable L := by
  by_contra hbad
  have hL : 0 < L ∧ (L < 2 ∨ 32769 < L) := by
    unfold Measurable at hbad
    omega
  have hneg := toS16_total_neg hlt hL.1 hL.2
  have := h (by omega)
  omega

/-- **The loop, counted.** It returns -1, or it comes to rest, and the bytes that were in the
    buffer are the frames it handed on and those that still are. -/
theorem parse_rests {n : Nat} (h : t.InShape) (hm : t.Measured) (hn : t.vReceiveBuffer.uOffset < n)
    (hp : ∀ u ∈ passes n t, ∀ L, u.nextPrefix = some L → Measurable L) :
    (parse n t).exit = .ret (-1) ∨
      (∃ k, (parse n t).exit = .ret k ∧ k ≠ -1) ∧ (parse n t).task.Rests ∧
        t.vReceiveBuffer.uOffset =
          totals (parse n t).msgs + (parse n t).task.vReceiveBuffer.uOffset := by
  induction n generalizing t with
  | zero => omega
  | succ n ih =>
    by_cases hz : t.vReceiveBuffer.uOffset = 0
    · have hs : t.state = .readPacketLen := by
        cases hs : t.state with
        | readPacketLen => rfl
        | readPacket =>
          have := (h.waiting hs).2.1
          omega
      rw [parse_empty hz]
      exact .inr ⟨⟨0, rfl, by decide⟩, .inl ⟨hs, h.reading hs, by simp only; omega⟩, by simp⟩
    cases ha : t.announced with
    -- no prefix yet, so the loop waits for one
    | none =>
      rw [parse_ret hz (turn_none ha)]
      exact .inr ⟨⟨1, rfl, by decide⟩, rests_of_none h ha, by simp⟩
    | some L =>
      have hL := hm.announced h (hp t (mem_passes hz)) ha
      -- a prefix of 0 is the one that is refused, and the call returns -1
      by_cases h₀ : L = 0
      · obtain ⟨t', ht⟩ := turn_zero h (h₀ ▸ ha)
        rw [parse_ret hz ht]
        exact .inl rfl
      by_cases hw : L ≤ t.vReceiveBuffer.uOffset
      · -- a packet: its total leaves the buffer
        have h₂ : 2 ≤ L := by have := hL.1; omega
        obtain ⟨m, ht, hbody⟩ := turn_packet h ha hw h₂ hL.2
        have hlen : m.getLen = L - 2 := by rw [CSendMsg.getLen, hbody, length_read]
        rw [passes_packet hz ht] at hp
        rw [parse_packet hz ht]
        rcases ih (consumed_inShape h L) (fun hs => absurd hs (by simp [consumed]))
          (by simp only [consumed]; omega) (fun u hu => hp u (List.mem_cons_of_mem t hu)) with
          hret | ⟨hret, hrest, hcount⟩
        · exact .inl hret
        · refine .inr ⟨hret, hrest, ?_⟩
          simp only [totals_cons]
          simp only [consumed] at hcount
          simp only [consumed]
          omega
      · rw [parse_ret hz (turn_wait h ha (by omega) (Nat.not_le.mp hw))]
        exact .inr ⟨⟨1, rfl, by decide⟩, armed_rests h ha (by omega) (Nat.not_le.mp hw),
          by simp [armed]⟩

/-- A task at rest has room for two more bytes, so that a `recv` asks for some. -/
theorem Rests.two_le_uMaxReceive (hr : t.Rests) (h : t.InShape) : 2 ≤ t.uMaxReceive := by
  rw [uMaxReceive_of_inShape h]
  rcases hr with ⟨-, -, h₁⟩ | ⟨-, -, -, h₁, h₂⟩
  · omega
  · omega

/-- A `recv` that returns 0 is taken for the end of the connection, since there was room: in a full
    buffer the same 0 would be nothing to read into. -/
theorem Rests.recvProcess_nil (hr : t.Rests) (h : t.InShape) :
    t.recvProcess (.bytes []) = ⟨t, [], .ret (-1)⟩ := by
  have hroom := hr.two_le_uMaxReceive h
  exact if_pos ⟨rfl, by omega⟩

/-- **One call, counted**: what was there and what came is what was handed on and what is there. -/
theorem recvProcess_rests (hr : t.Rests) (h : t.Ready) (hm : t.Measured) {r : RecvResult}
    (hf : Receiver.Fits t r)
    (hp : ∀ u ∈ t.recvPasses r, ∀ L, u.nextPrefix = some L → Measurable L) :
    (t.recvProcess r).conn = .closed ∨
      ∃ u, (t.recvProcess r).conn = .live u ∧ u.Rests ∧
        t.vReceiveBuffer.uOffset + (Receiver.received [r]).length =
          totals (t.recvProcess r).msgs + u.vReceiveBuffer.uOffset := by
  cases r with
  | error e =>
    cases he : e.retry with
    | true => exact .inr ⟨t, by simp [recvProcess, Call.conn, he], hr, by simp [recvProcess,
        Receiver.received]⟩
    | false => exact .inl (by simp [recvProcess, Call.conn, he])
  | bytes bs =>
    by_cases hbs : bs = []
    · rw [hbs, hr.recvProcess_nil h.1]
      exact .inl rfl
    · obtain ⟨hshape, ho⟩ := store_inShape h.1 hf
      rw [recvPasses, if_neg fun hc => hbs (List.length_eq_zero_iff.mp hc.1)] at hp
      rw [recvProcess_bytes hbs]
      have hfuel : (t.store bs).vReceiveBuffer.uOffset < (t.store bs).vReceiveBuffer.getSize + 1 :=
        Nat.lt_succ_self _
      rcases parse_rests hshape (show (t.store bs).Measured from hm) hfuel hp with
        hret | ⟨⟨k, hk, hne⟩, hrest, hcount⟩
      · exact .inl (by simp [Call.conn, hret])
      · refine .inr ⟨_, by simp only [Call.conn, hk, if_neg hne], hrest, ?_⟩
        rw [← hcount, ho]
        simp [Receiver.received]

end CTcpTask

namespace Receiver

variable {s s' : Receiver}

/-- The run invariant, `n` bytes into the run: the connection is closed, or its task is at rest and
    every byte is accounted for. -/
def Resting (s : Receiver) (n : Nat) : Prop :=
  s.conn = .closed ∨ ∃ t, s.conn = .live t ∧ t.Ready ∧ t.Measured ∧ t.Rests ∧
    n = totals s.msgs + t.vReceiveBuffer.uOffset

theorem fresh_resting (mem : Nat → UInt8) : (fresh mem).Resting 0 :=
  .inr ⟨_, rfl, CTcpTask.new_ready mem, fun hs => absurd hs (by simp [CTcpTask.new]),
    CTcpTask.new_rests mem, rfl⟩

theorem step_resting {r : RecvResult} {n : Nat} (h : s.Resting n) (hs : step s r s')
    (hp : ∀ u ∈ s.passes r, ∀ L, u.nextPrefix = some L → CTcpTask.Measurable L) :
    s'.Resting (n + (received [r]).length) := by
  obtain ⟨t, ht, hf, rfl⟩ := hs
  rcases h with hclosed | ⟨t', ht', hready, hmeas, hrest, rfl⟩
  · rw [hclosed] at ht
    cases ht
  rw [ht] at ht'
  cases ht'
  rw [passes_live ht] at hp
  rw [call_live ht]
  rcases CTcpTask.recvProcess_rests hrest hready hmeas hf hp with hc | ⟨u, hu, hrest', hcount⟩
  · exact .inl hc
  · obtain ⟨-, hm'⟩ := recvPasses_sound hready hmeas hf hp
    obtain ⟨-, hr', -⟩ := CTcpTask.recvProcess_ready hready hf
    obtain ⟨rfl, k, hk, hne⟩ := Call.conn_live hu
    refine .inr ⟨_, hu, hr' k hk hne, hm' _ hu, hrest', ?_⟩
    rw [totals_append]
    omega

theorem steps_resting {rs : List RecvResult} {n : Nat} (h : s.Resting n) (hrun : Steps step s rs s')
    (hp : ∀ u ∈ s.trace rs, ∀ L, u.nextPrefix = some L → CTcpTask.Measurable L) :
    s'.Resting (n + (received rs).length) := by
  induction hrun generalizing n with
  | nil => exact h
  | @cons s t u r rs head _ ih =>
    rw [trace] at hp
    have hnext := step_resting h head fun u hu => hp u (List.mem_append_left _ hu)
    obtain ⟨t', -, -, rfl⟩ := head
    have hlast := ih hnext fun u hu => hp u (List.mem_append_right _ hu)
    have hlen : (received (r :: rs)).length =
        (received [r]).length + (received rs).length := by simp [received]
    rwa [hlen, ← Nat.add_assoc]

/-- **Between two calls.** In a run in which no call returned -1 and no total that was announced
    made a negative size, the task waits for a prefix or for a packet; there is room for two more
    bytes, and a `recv` that returns 0 ends the connection; and what was received is the frames
    handed on and what the buffer holds. -/
theorem rests_of_run (mem : Nat → UInt8) {rs : List RecvResult} (hrun : Steps step (fresh mem) rs s)
    (hopen : s.conn ≠ .closed)
    (hsize : ∀ u ∈ (fresh mem).trace rs, ∀ L : Nat, u.nextPrefix = some L → L ≠ 0 →
      0 ≤ toS16 (L - 2)) :
    ∃ t, s.conn = .live t ∧ (t.AwaitsPrefix ∨ t.AwaitsPacket) ∧ 2 ≤ t.uMaxReceive ∧
      t.recvProcess (.bytes []) = ⟨t, [], .ret (-1)⟩ ∧
      (received rs).length = totals s.msgs + t.vReceiveBuffer.uOffset := by
  have hp : ∀ u ∈ (fresh mem).trace rs, ∀ L, u.nextPrefix = some L → CTcpTask.Measurable L := by
    intro u hu L hL
    have hshape := trace_inShape (fresh_sound mem) hrun u hu
    obtain ⟨-, ha⟩ := CTcpTask.nextPrefix_announced hshape hL
    exact CTcpTask.measurable_of_nonneg (CTcpTask.announced_lt hshape ha) (hsize u hu L hL)
  rcases steps_resting (fresh_resting mem) hrun hp with hclosed | ⟨t, ht, hready, -, hrest, hcount⟩
  · exact absurd hclosed hopen
  · exact ⟨t, ht, hrest, hrest.two_le_uMaxReceive hready.1, hrest.recvProcess_nil hready.1,
      by rw [← hcount, Nat.zero_add]⟩

/-- A frame, the next prefix and one byte of the packet behind it; and then nothing for a while. -/
theorem rests_of_run_half_packet :
    ∃ s, Steps step (fresh fun _ => 0) [.bytes [0, 4, 0xAA, 0xBB, 0, 5, 1], .error .eagain] s ∧
      s.msgs.length = 1 ∧
      ∃ t, s.conn = .live t ∧ (t.AwaitsPrefix ∨ t.AwaitsPacket) ∧
        7 = totals s.msgs + t.vReceiveBuffer.uOffset := by
  have hf : Fits (CTcpTask.new fun _ => 0) (.bytes [0, 4, 0xAA, 0xBB, 0, 5, 1]) :=
    show 7 ≤ (CTcpTask.new fun _ => 0).uMaxReceive by decide
  have hrun : Steps step (fresh fun _ => 0)
      [.bytes [0, 4, 0xAA, 0xBB, 0, 5, 1], .error .eagain] _ :=
    .cons ⟨_, rfl, hf, rfl⟩ (.single ⟨_, rfl, trivial, rfl⟩)
  have htrace : ((fresh fun _ => 0).trace
      [.bytes [0, 4, 0xAA, 0xBB, 0, 5, 1], .error .eagain]).map CTcpTask.nextPrefix =
      [some 4, some 5] := by decide +kernel
  have hsize : ∀ u ∈ (fresh fun _ => 0).trace
      [.bytes [0, 4, 0xAA, 0xBB, 0, 5, 1], .error .eagain],
      ∀ L : Nat, u.nextPrefix = some L → L ≠ 0 → 0 ≤ toS16 (L - 2) := by
    intro u hu L hL _
    have hmem := List.mem_map_of_mem (f := CTcpTask.nextPrefix) hu
    rw [htrace, hL] at hmem
    have hcases : L = 4 ∨ L = 5 := by simpa using hmem
    rcases hcases with rfl | rfl <;> decide
  obtain ⟨t, ht, hrest, -, -, hcount⟩ := rests_of_run (fun _ => 0) hrun
    (fun hc => nomatch (show Conn.live _ = Conn.closed from hc)) hsize
  exact ⟨_, hrun, rfl, t, ht, hrest, hcount⟩

end Receiver

end WebsocketTest
