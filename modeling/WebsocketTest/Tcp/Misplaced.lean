import WebsocketTest.Tcp.Connection

/-!
# A `recv` while something is unread

`recv` stores at `JumpBuffer()`, and `JumpBuffer()` is the read cursor, not the end of what was
received. The two agree only on an empty buffer. On any other the new bytes land on top of unread
ones, and `AddDataSize` counts cells behind them that nobody wrote.

This module follows a connection from the first such call on. `Astray p c z` lists where it can
be while `p` is the next payload it owes and `z` is what the peer has still to say; the payload is
one whose first byte is found nowhere it could be picked up by accident. **`Astray.step`** is the
case analysis of one call, and **`Astray.run`** the induction over the rest of the connection: the
next message is not `p`, however the remaining bytes arrive.

A connection that went astray does not come back for this payload, but it need not stay silent
either. It may hand on something that is not `p`, wait for a frame that nobody sends, or be closed,
and which of these depends on how the rest is cut. What they have in common is all that is proved.
-/

set_option autoImplicit false

namespace WebsocketTest

open Lib.Memory Lib.Integers Lib.Framing Lib.Run

namespace CTcpTask

variable {t : CTcpTask} {L : Nat}

/-! ## The loop on an announced frame -/

theorem parse_wait {n : Nat} (h : t.InShape) (ha : t.announced = some L) (hL : 0 < L)
    (hz : t.vReceiveBuffer.uOffset ≠ 0) (hw : t.vReceiveBuffer.uOffset < L) :
    parse (n + 1) t = ⟨t.armed L, [], .ret 1⟩ :=
  parse_ret hz (turn_wait h ha hL hw)

/-- The first message of a call is the payload of the frame in front, or there is none and the
    connection is gone. -/
theorem parse_finished {n : Nat} (h : t.InShape) (ha : t.announced = some L)
    (hz : t.vReceiveBuffer.uOffset ≠ 0) (hw : L ≤ t.vReceiveBuffer.uOffset) :
    (∃ m ms, (parse (n + 1) t).msgs = m :: ms ∧ 2 ≤ L ∧
      m.sendBody = read t.vReceiveBuffer.buffer 2 (L - 2)) ∨
    ((parse (n + 1) t).msgs = [] ∧ ∀ u, (parse (n + 1) t).conn ≠ .live u) := by
  by_cases h₀ : L = 0
  · obtain ⟨t', ht⟩ := turn_zero h (h₀ ▸ ha)
    rw [parse_ret hz ht]
    exact .inr ⟨rfl, fun u => by simp [Call.conn]⟩
  by_cases hbad : L < 2 ∨ 32769 < L
  · rw [parse_fault hz (turn_fault h ha (by omega) hw hbad)]
    exact .inr ⟨rfl, fun u => by simp [Call.conn]⟩
  · obtain ⟨m, ht, hm⟩ := turn_packet h ha hw (by omega) (by omega)
    rw [parse_packet hz ht]
    exact .inl ⟨m, _, rfl, by omega, hm⟩

/-- A task that has read the prefix `L` and not all of the frame. -/
structure Waits (t : CTcpTask) (L : Nat) : Prop where
  shape : t.InShape
  state : t.state = .readPacket
  total : t.iTotalPackLen = L

theorem Waits.cursor (h : t.Waits L) :
    t.vReceiveBuffer.uGetOffset = 2 ∧ 2 ≤ t.vReceiveBuffer.uOffset :=
  ⟨(h.shape.waiting h.state).1, (h.shape.waiting h.state).2.1⟩

theorem Waits.announced (h : t.Waits L) : t.announced = some L := by
  simp [CTcpTask.announced, h.state, h.total]

theorem Waits.store (h : t.Waits L) {bs : List UInt8} (hf : bs.length ≤ t.uMaxReceive) :
    (t.store bs).Waits L :=
  ⟨(store_inShape h.shape hf).1, h.state, h.total⟩

theorem Waits.armed (h : t.Waits L) : t.armed L = t := by
  have he := armed_of_waiting h.shape h.state
  rwa [h.total, Int.toNat_natCast] at he

theorem armed_waits (h : t.InShape) (ha : t.announced = some L) (hL : 0 < L) :
    (t.armed L).Waits L :=
  ⟨armed_inShape h ha hL, rfl, rfl⟩

/-- What is unread stays where it is, and the new bytes go to the cursor. -/
theorem store_buffer (t : CTcpTask) (bs : List UInt8) :
    (t.store bs).vReceiveBuffer.buffer =
      write t.vReceiveBuffer.buffer t.vReceiveBuffer.jumpBuffer bs := rfl

end CTcpTask

/-! ## Where the connection can be -/

/-- Places from which the next message is not `p`, with what the peer has still to say:

* the connection is gone;
* a prefix was misread, and the frame waited for is not the length of `p`;
* some of `p` is there, and the next bytes will replace its beginning;
* only the prefix is there, and the next bytes go over it instead of behind it;
* one byte of the prefix is there, and the other will replace it. -/
inductive Astray (p : List UInt8) : Conn → List UInt8 → Prop
  | gone {c : Conn} {z : List UInt8} (dead : ∀ t, c ≠ .live t) : Astray p c z
  | mismeasured {t : CTcpTask} {L : Nat} {z : List UInt8} (waits : t.Waits L)
      (wrong : L ≠ 2 + p.length) : Astray p (.live t) z
  | inside {t : CTcpTask} {x : UInt8} {ys r : List UInt8} {j : Nat} (hp : p = x :: ys)
      (waits : t.Waits (2 + p.length)) (size : t.vReceiveBuffer.uOffset = 2 + (j + 1))
      (short : j < ys.length) (once : x ∉ ys) : Astray p (.live t) (ys.drop j ++ r)
  | behindPrefix {t : CTcpTask} {x : UInt8} {ys r : List UInt8} (hp : p = x :: ys)
      (waits : t.Waits (2 + p.length)) (size : t.vReceiveBuffer.uOffset = 2) (once : x ∉ ys)
      (stale : t.vReceiveBuffer.buffer 2 ≠ x) (after : x ∉ r.take 2) : Astray p (.live t) (p ++ r)
  | inPrefix {t : CTcpTask} {hi lo : UInt8} {r : List UInt8} (holds : t.Holds [hi])
      (total : beNat [hi, lo] = 2 + p.length)
      (first : ∀ x ys, p = x :: ys →
        x ∉ ys ∧ t.vReceiveBuffer.buffer 2 ≠ x ∧ x ∉ r.take 2 ∧ x ≠ lo) :
      Astray p (.live t) (lo :: (p ++ r))

/-! ## One call

A call misses `p` when its first message is something else, or when it has none and the connection
is astray still. -/

/-- What a call from such a place comes to: a wrong message, or none and no way back. -/
def Missed (p : List UInt8) (c : Call) (z : List UInt8) : Prop :=
  (∃ m ms, c.msgs = m :: ms ∧ m.sendBody ≠ p) ∨ (c.msgs = [] ∧ Astray p c.conn z)

/-- A call misses `p` if waiting is astray and what is handed on, if anything is, is not `p`. -/
theorem missed_of_announced {p z : List UInt8} {t : CTcpTask} {L n : Nat} (h : t.InShape)
    (ha : t.announced = some L) (hz : t.vReceiveBuffer.uOffset ≠ 0)
    (hwait : 0 < L → t.vReceiveBuffer.uOffset < L → Astray p (.live (t.armed L)) z)
    (hdone : 2 ≤ L → L ≤ t.vReceiveBuffer.uOffset → read t.vReceiveBuffer.buffer 2 (L - 2) ≠ p) :
    Missed p (CTcpTask.parse (n + 1) t) z := by
  by_cases hw : t.vReceiveBuffer.uOffset < L
  · rw [CTcpTask.parse_wait h ha (by omega) hz hw]
    exact .inr ⟨rfl, hwait (by omega) hw⟩
  · rcases CTcpTask.parse_finished (n := n) h ha hz (by omega) with ⟨m, ms, hms, hL, hm⟩ | ⟨hms, hc⟩
    · exact .inl ⟨m, ms, hms, by rw [hm]; exact hdone hL (by omega)⟩
    · exact .inr ⟨hms, .gone hc⟩

/-- A call misses `p` also from a task that waits already, after a `recv`. -/
theorem missed_of_waits {p z bs : List UInt8} {t : CTcpTask} {L : Nat} (h : t.Waits L)
    (hbs : bs ≠ []) (hf : bs.length ≤ t.uMaxReceive)
    (hwait : t.vReceiveBuffer.uOffset + bs.length < L → Astray p (.live (t.store bs)) z)
    (hdone : 2 ≤ L → L ≤ t.vReceiveBuffer.uOffset + bs.length →
      read (t.store bs).vReceiveBuffer.buffer 2 (L - 2) ≠ p) :
    Missed p (t.recvProcess (.bytes bs)) z := by
  have hu := h.store hf
  have ho := (CTcpTask.store_inShape h.shape hf).2
  have h₂ := h.cursor.2
  rw [CTcpTask.recvProcess_bytes hbs]
  refine missed_of_announced hu.shape hu.announced (by omega) ?_ ?_
  · intro _ hw
    rw [hu.armed]
    exact hwait (by omega)
  · intro hL hw
    exact hdone hL (by omega)

/-- A payload of another length is another payload. -/
theorem read_ne_of_length {p : List UInt8} (m : Nat → UInt8) {L : Nat} (hL : 2 ≤ L)
    (h : L ≠ 2 + p.length) : read m 2 (L - 2) ≠ p := by
  intro he
  have hl := congrArg List.length he
  rw [length_read] at hl
  omega

/-- A payload with another first byte is another payload. -/
theorem read_ne_of_head {x : UInt8} {ys : List UInt8} {m : Nat → UInt8} (h : m 2 ≠ x) :
    read m 2 (2 + (x :: ys).length - 2) ≠ x :: ys := by
  intro he
  rw [show 2 + (x :: ys).length - 2 = ys.length + 1 by simp, read_succ] at he
  exact h (List.cons.inj he).1

theorem missed_mismeasured {p z bs : List UInt8} {t : CTcpTask} {L : Nat} (h : t.Waits L)
    (hL : L ≠ 2 + p.length) (hbs : bs ≠ []) (hf : bs.length ≤ t.uMaxReceive) :
    Missed p (t.recvProcess (.bytes bs)) z :=
  missed_of_waits h hbs hf (fun _ => .mismeasured (h.store hf) hL)
    fun h₂ _ => read_ne_of_length _ h₂ hL

/-- The cursor is at 2 and there are bytes behind it, so the next bytes go over the payload. -/
theorem missed_inside {t : CTcpTask} {x : UInt8} {ys r bs : List UInt8} {j : Nat}
    (h : t.Waits (2 + (x :: ys).length)) (ho : t.vReceiveBuffer.uOffset = 2 + (j + 1))
    (hj : j < ys.length) (hx : x ∉ ys) (hbs : bs ≠ []) (hf : bs.length ≤ t.uMaxReceive)
    (hpre : bs <+: ys.drop j ++ r) :
    Missed (x :: ys) (t.recvProcess (.bytes bs)) ((ys.drop j ++ r).drop bs.length) := by
  have hjump : t.vReceiveBuffer.jumpBuffer = 2 := by
    rw [CVBuffer.jumpBuffer, if_pos (by rw [h.cursor.1]; omega), h.cursor.1]
  -- The byte that now stands first is a later byte of the payload.
  have hfirst : (t.store bs).vReceiveBuffer.buffer 2 ≠ x := by
    obtain ⟨b, bs, rfl⟩ := List.exists_cons_of_ne_nil hbs
    rw [CTcpTask.store_buffer, hjump]
    have hb : write t.vReceiveBuffer.buffer 2 (b :: bs) (2 + 0) = b :=
      write_apply_of_mem _ _ (Nat.succ_pos _)
    rw [show (2 : Nat) = 2 + 0 from rfl, hb]
    rw [List.drop_eq_getElem_cons hj, List.cons_append, List.cons_prefix_cons] at hpre
    rintro rfl
    exact hx (hpre.1 ▸ List.getElem_mem hj)
  refine missed_of_waits h hbs hf ?_ fun _ _ => read_ne_of_head hfirst
  intro hw
  rw [ho, List.length_cons] at hw
  have hpos := List.length_pos_iff.mpr hbs
  rw [List.drop_append_of_le_length (by rw [List.length_drop]; omega), List.drop_drop]
  refine .inside rfl (h.store hf) ?_ (show j + bs.length < ys.length by omega) hx
  rw [(CTcpTask.store_inShape h.shape hf).2, ho]
  omega

/-- The third byte from the payload's first on is in the payload or right behind it. -/
theorem getElem_two_mem {x : UInt8} {ys r : List UInt8} (h : 2 < ((x :: ys) ++ r).length) :
    ((x :: ys) ++ r)[2] ∈ ys ++ r.take 2 := by
  by_cases hy : 1 < ys.length
  · simp only [List.cons_append, List.getElem_cons_succ, List.getElem_append_left hy]
    exact List.mem_append_left _ (List.getElem_mem hy)
  · simp only [List.cons_append, List.getElem_cons_succ,
      List.getElem_append_right (Nat.not_lt.mp hy)]
    refine List.mem_append_right _ (List.mem_take_iff_getElem.mpr ⟨1 - ys.length, ?_, rfl⟩)
    simp only [List.cons_append, List.length_cons, List.length_append] at h
    omega

/-- Nothing behind the cursor, so the next bytes go to the start of the array, and the payload is
    looked for two cells too far. -/
theorem missed_behindPrefix {t : CTcpTask} {x : UInt8} {ys r bs : List UInt8}
    (h : t.Waits (2 + (x :: ys).length)) (ho : t.vReceiveBuffer.uOffset = 2) (hx : x ∉ ys)
    (hstale : t.vReceiveBuffer.buffer 2 ≠ x) (hr : x ∉ r.take 2) (hbs : bs ≠ [])
    (hf : bs.length ≤ t.uMaxReceive) (hpre : bs <+: (x :: ys) ++ r) :
    Missed (x :: ys) (t.recvProcess (.bytes bs)) (((x :: ys) ++ r).drop bs.length) := by
  have hjump : t.vReceiveBuffer.jumpBuffer = 0 := by
    rw [CVBuffer.jumpBuffer, if_neg (by rw [h.cursor.1]; omega)]
  have hpos := List.length_pos_iff.mpr hbs
  have hfirst : (t.store bs).vReceiveBuffer.buffer 2 ≠ x := by
    rw [CTcpTask.store_buffer, hjump]
    by_cases h₂ : 2 < bs.length
    · have hb := write_apply_of_mem t.vReceiveBuffer.buffer (p := 0) bs h₂
      rw [Nat.zero_add] at hb
      rw [hb, hpre.getElem h₂]
      intro he
      have hmem := getElem_two_mem (Nat.lt_of_lt_of_le h₂ hpre.length_le)
      rw [he] at hmem
      rcases List.mem_append.mp hmem with hm | hm
      · exact hx hm
      · exact hr hm
    · rwa [write_apply_of_ge _ _ (by omega)]
  refine missed_of_waits h hbs hf ?_ fun _ _ => read_ne_of_head hfirst
  intro hw
  rw [ho, List.length_cons] at hw
  obtain ⟨k, hk⟩ : ∃ k, bs.length = k + 1 := ⟨bs.length - 1, by omega⟩
  have hdrop : ((x :: ys) ++ r).drop bs.length = ys.drop k ++ r := by
    rw [hk, List.cons_append, List.drop_succ_cons, List.drop_append_of_le_length (by omega)]
  rw [hdrop]
  refine .inside rfl (h.store hf) ?_ (show k < ys.length by omega) hx
  rw [(CTcpTask.store_inShape h.shape hf).2, ho, hk]

/-- One byte of the prefix is unread, and the other goes over it: the total becomes whatever the
    low byte and its successor spell. Where that is the right total after all, both bytes of the
    prefix were equal and the receiver is in front of the payload with the cursor already moved. -/
theorem missed_inPrefix {p r bs : List UInt8} {t : CTcpTask} {hi lo : UInt8} (h : t.Holds [hi])
    (htotal : beNat [hi, lo] = 2 + p.length)
    (hfirst : ∀ x ys, p = x :: ys →
      x ∉ ys ∧ t.vReceiveBuffer.buffer 2 ≠ x ∧ x ∉ r.take 2 ∧ x ≠ lo)
    (hbs : bs ≠ []) (hf : bs.length ≤ t.uMaxReceive) (hpre : bs <+: lo :: (p ++ r)) :
    Missed p (t.recvProcess (.bytes bs)) ((lo :: (p ++ r)).drop bs.length) := by
  have ho : t.vReceiveBuffer.uOffset = 1 := h.uOffset
  have hjump : t.vReceiveBuffer.jumpBuffer = 0 := by
    rw [CVBuffer.jumpBuffer, h.shape.reading h.state, ite_self]
  obtain ⟨hu, hsize⟩ := CTcpTask.store_inShape h.shape hf
  obtain ⟨b, bs, rfl⟩ := List.exists_cons_of_ne_nil hbs
  obtain ⟨rfl, hpre'⟩ := List.cons_prefix_cons.mp hpre
  rw [CTcpTask.recvProcess_bytes hbs]
  rw [ho, List.length_cons] at hsize
  generalize hud : t.store (b :: bs) = u at hu hsize ⊢
  have hb₀ : u.vReceiveBuffer.buffer 0 = b := by
    rw [← hud, CTcpTask.store_buffer, hjump]
    exact write_apply_of_mem _ (p := 0) (b :: bs) (Nat.succ_pos _)
  have ha : u.announced = some (beNat [b, u.vReceiveBuffer.buffer 1]) := by
    have hs : u.state = .readPacketLen := hud ▸ h.state
    simp only [CTcpTask.announced, hs]
    rw [if_neg (by omega), read_succ, read_succ, read_zero, hb₀]
  by_cases hT : beNat [b, u.vReceiveBuffer.buffer 1] = 2 + p.length
  · -- The misread total is the right one only if all three bytes are the same.
    have hb₁ : u.vReceiveBuffer.buffer 1 = b := by
      have h₁ := hi.toNat_lt
      have h₂ := b.toNat_lt
      have h₃ := (u.vReceiveBuffer.buffer 1).toNat_lt
      rw [beNat_pair] at htotal hT
      exact UInt8.toNat_inj.mp (by omega)
    have hpos : p ≠ [] := by
      rintro rfl
      have h₂ := b.toNat_lt
      rw [hb₁, beNat_pair, List.length_nil] at hT
      omega
    obtain ⟨x, ys, rfl⟩ := List.exists_cons_of_ne_nil hpos
    obtain ⟨hx, hstale, hr, hlo⟩ := hfirst x ys rfl
    -- A second byte would be the payload's first, which is not the low byte.
    have hnil : bs = [] := by
      cases bs with
      | nil => rfl
      | cons c bs =>
        have hc : u.vReceiveBuffer.buffer 1 = c := by
          rw [← hud, CTcpTask.store_buffer, hjump]
          exact write_apply_of_mem _ (p := 0) (i := 1) (b :: c :: bs) (by simp)
        have hx' : c = x := (List.cons_prefix_cons.mp hpre').1
        exact absurd (hx'.symm.trans (hc.symm.trans hb₁)) hlo
    subst hnil
    have hkept : u.vReceiveBuffer.buffer 2 ≠ x := by
      rw [← hud, CTcpTask.store_buffer, hjump, write_apply_of_ge _ _ (by simp)]
      exact hstale
    rw [hT] at ha
    refine missed_of_announced hu ha (by omega) ?_ ?_
    · intro hL _
      exact .behindPrefix rfl (CTcpTask.armed_waits hu ha hL) hsize hx hkept hr
    · intro _ hle
      rw [hsize, List.length_cons, List.length_nil] at hle
      omega
  · exact missed_of_announced hu ha (by omega)
      (fun hL _ => .mismeasured (CTcpTask.armed_waits hu ha hL) hT)
      fun hL _ => read_ne_of_length _ hL hT

/-! ## Steps and runs -/

variable {p z : List UInt8} {s s' : Receiver}

/-- **One call from an astray connection misses the payload.** -/
theorem Astray.step {bs : List UInt8} (h : Astray p s.conn z)
    (hs : Receiver.step s (.bytes bs) s') (hbs : bs ≠ []) (hpre : bs <+: z) :
    (∃ m ms, s'.msgs = s.msgs ++ m :: ms ∧ m.sendBody ≠ p) ∨
      (s'.msgs = s.msgs ∧ Astray p s'.conn (z.drop bs.length)) := by
  obtain ⟨t, ht, hf, rfl⟩ := hs
  have hmissed : Missed p (t.recvProcess (.bytes bs)) (z.drop bs.length) := by
    rw [ht] at h
    cases h with
    | gone dead => exact absurd rfl (dead t)
    | mismeasured waits wrong => exact missed_mismeasured waits wrong hbs hf
    | inside hp waits size short once =>
      subst hp
      exact missed_inside waits size short once hbs hf hpre
    | behindPrefix hp waits size once stale after =>
      subst hp
      exact missed_behindPrefix waits size once stale after hbs hf hpre
    | inPrefix holds total first => exact missed_inPrefix holds total first hbs hf hpre
  rw [Receiver.call_live ht]
  rcases hmissed with ⟨m, ms, hms, hm⟩ | ⟨hms, hc⟩
  · exact .inl ⟨m, ms, by rw [hms], hm⟩
  · exact .inr ⟨by rw [hms, List.append_nil], hc⟩

/-- Messages are only ever added, so what was missed once is missing for the rest of the run. -/
theorem Receiver.msgs_mono {rs : List RecvResult} (hs : Steps step s rs s') :
    s.msgs <+: s'.msgs := by
  refine hs.invariant (P := fun v => s.msgs <+: v.msgs) (fun v r v' hv hstep => ?_)
    List.prefix_rfl
  obtain ⟨t, ht, -, rfl⟩ := hstep
  rw [call_live ht]
  exact hv.trans (List.prefix_append _ _)

/-- **The payload is lost for good**: whatever part of the remaining bytes arrives, in whatever
    pieces, the next message is not `p`. -/
theorem Astray.run {bss : List (List UInt8)} (h : Astray p s.conn z)
    (hs : Steps Receiver.step s (bss.map .bytes) s') (hne : ∀ bs ∈ bss, bs ≠ [])
    (hpre : bss.flatten <+: z) (m : CSendMsg) (ms : List CSendMsg)
    (hms : s'.msgs = s.msgs ++ m :: ms) : m.sendBody ≠ p := by
  induction bss generalizing s z with
  | nil =>
    cases hs
    simp at hms
  | cons bs bss ih =>
    cases hs with
    | cons head tail =>
      rw [List.flatten_cons] at hpre
      have hhead : bs <+: z := (List.prefix_append _ _).trans hpre
      rcases h.step head (hne bs List.mem_cons_self) hhead with ⟨m', ms', he, hm'⟩ | ⟨he, hc⟩
      · obtain ⟨more, hmore⟩ := Receiver.msgs_mono tail
        rw [he, hms, List.append_assoc, List.append_cancel_left_eq, List.cons_append,
          List.cons.injEq] at hmore
        exact hmore.1 ▸ hm'
      · refine ih hc tail (fun b hb => hne b (List.mem_cons_of_mem bs hb)) ?_
          (by rw [he]; exact hms)
        obtain ⟨w, rfl⟩ := hpre
        rw [List.append_assoc, List.drop_left' rfl]
        exact List.prefix_append _ _

end WebsocketTest
