import WebsocketTest.Lib.Deframing
import WebsocketTest.Tcp.Parse

/-!
# The parse loop against a decoder

`Lib.Framing.split` takes a byte string apart without a buffer, a cursor or a state between the
pieces. The loop does the same with all three.

**`parse_decodes`** — over any byte string of which no prefix is one that the task makes a negative
size of, the loop ends; it hands on the payloads of the whole frames at the front, and how it ends
and what it leaves are told by the rest.

This goes beyond `parse_holds`, where the buffer held whole frames and nothing else. Here it may
hold anything, and a `return` in the middle of the loop is part of the statement: 0 when everything
is taken, -1 at a prefix of 0, and 1 when more is to come. The decoder knows nothing of these. It
says where the frames end, and the rest says which of the three it is.

The condition on the prefixes is about those that `split` comes across, the last one included, whose
frame is not complete. The loop measures it before it waits.
-/

set_option autoImplicit false

namespace WebsocketTest

open Lib.Memory Lib.Framing

/-- How a call ends that has `rest` left: with everything taken, at a prefix of zero, or waiting for
    more, in which case the rest lies at the start of the buffer. -/
def Call.Ends (c : Call) (rest : List UInt8) : Prop :=
  if rest = [] then c.exit = .ret 0 ∧ c.task.vReceiveBuffer.getSize = 0
  else if 2 ≤ rest.length ∧ stated 2 rest = 0 then c.exit = .ret (-1)
  else c.exit = .ret 1 ∧ read c.task.vReceiveBuffer.buffer 0 c.task.vReceiveBuffer.getSize = rest

namespace CTcpTask

variable {t : CTcpTask} {bs : List UInt8}

/-- The loop over a byte string without a whole frame in front. -/
theorem parse_stuck (h : t.Holds bs) (hstuck : ¬ Whole 2 bs)
    (hone : 2 ≤ bs.length → stated 2 bs ≠ 1) {n : Nat} (hn : bs.length < n) :
    (parse n t).msgs = [] ∧ (parse n t).Ends bs := by
  have ho := h.uOffset
  obtain ⟨n, rfl⟩ : ∃ k, n = k + 1 := ⟨n - 1, by omega⟩
  by_cases hnil : bs = []
  · subst hnil
    rw [parse_empty ho]
    exact ⟨rfl, by rw [Call.Ends, if_pos rfl]; exact ⟨rfl, ho⟩⟩
  have hne : t.vReceiveBuffer.uOffset ≠ 0 := by
    rw [ho]
    exact fun h₀ => hnil (List.length_eq_zero_iff.mp h₀)
  by_cases h₂ : 2 ≤ bs.length
  · have ha : t.announced = some (stated 2 bs) := h.announced h₂
    by_cases hzero : stated 2 bs = 0
    · obtain ⟨t', ht⟩ := turn_zero h.shape (hzero ▸ ha)
      rw [parse_ret hne ht]
      exact ⟨rfl, by rw [Call.Ends, if_neg hnil, if_pos ⟨h₂, hzero⟩]⟩
    · -- the prefix counts itself, so there are too few bytes
      have hone' := hone h₂
      have hfew : t.vReceiveBuffer.uOffset < stated 2 bs := by
        by_contra hle
        exact hstuck ⟨by omega, by omega, by omega⟩
      rw [parse_ret hne (turn_wait h.shape ha (Nat.pos_of_ne_zero hzero) hfew)]
      refine ⟨rfl, ?_⟩
      rw [Call.Ends, if_neg hnil, if_neg fun hc => hzero hc.2]
      exact ⟨rfl, h.bytes⟩
  · have ha : t.announced = none := by
      simp only [CTcpTask.announced, h.state]
      exact if_pos (by omega)
    rw [parse_ret hne (turn_none ha)]
    refine ⟨rfl, ?_⟩
    rw [Call.Ends, if_neg hnil, if_neg fun hc => h₂ hc.1]
    exact ⟨rfl, h.bytes⟩

/-- A whole frame in front is one message, and the loop goes on behind it. -/
theorem turn_whole (h : t.Holds bs) (hwhole : Whole 2 bs) (hshort : stated 2 bs ≤ 32769) :
    ∃ m t', t.turn = .packet m t' ∧ m.sendBody = payload 2 bs ∧
      t'.Holds (bs.drop (stated 2 bs)) := by
  obtain ⟨hpos, h₂, hle⟩ := hwhole
  have ho := h.uOffset
  obtain ⟨m, ht, hm⟩ := turn_packet h.shape (h.announced (Nat.le_trans h₂ hle)) (ho ▸ hle) h₂ hshort
  refine ⟨m, _, ht, ?_, h.consumed hle⟩
  have hbody : read t.vReceiveBuffer.buffer 2 (stated 2 bs - 2) =
      (read t.vReceiveBuffer.buffer 0 (stated 2 bs)).drop 2 := by
    rw [drop_read _ h₂, Nat.zero_add]
  calc m.sendBody
      = (read t.vReceiveBuffer.buffer 0 (stated 2 bs)).drop 2 := hm.trans hbody
    _ = ((read t.vReceiveBuffer.buffer 0 t.vReceiveBuffer.uOffset).take (stated 2 bs)).drop 2 := by
        rw [take_read _ (ho ▸ hle)]
    _ = payload 2 bs := by rw [h.bytes, payload]

/-- The loop, one pass for each whole frame. The induction is along `split`. -/
theorem parse_split (h : t.Holds bs) (hok : ∀ L ∈ prefixes 2 bs, L ≠ 1 ∧ L ≤ 32769) {n : Nat}
    (hn : bs.length < n) :
    (parse n t).msgs.map CSendMsg.sendBody = (split 2 bs).1 ∧
      (parse n t).Ends (split 2 bs).2 := by
  induction bs using split_induction generalizing t n with
  | stuck bs hstuck =>
    rw [prefixes_of_not_whole hstuck] at hok
    have hone : 2 ≤ bs.length → stated 2 bs ≠ 1 := by
      intro h₂
      exact (hok _ (by rw [if_pos h₂]; exact List.mem_singleton.mpr rfl)).1
    obtain ⟨hmsgs, hends⟩ := parse_stuck h hstuck hone hn
    rw [split_of_not_whole hstuck, hmsgs]
    exact ⟨rfl, hends⟩
  | whole bs hwhole ih =>
    rw [prefixes_of_whole hwhole] at hok
    have hlt := hwhole.drop_lt
    obtain ⟨m, t', ht, hm, h'⟩ := turn_whole h hwhole (hok _ List.mem_cons_self).2
    obtain ⟨n, rfl⟩ : ∃ k, n = k + 1 := ⟨n - 1, by omega⟩
    obtain ⟨hmsgs, hends⟩ :=
      ih h' (fun L hL => hok L (List.mem_cons_of_mem _ hL)) (n := n) (by omega)
    have hne : t.vReceiveBuffer.uOffset ≠ 0 := by
      rw [h.uOffset]
      omega
    rw [parse_packet hne ht, split_of_whole hwhole]
    exact ⟨by rw [List.map_cons, hm, hmsgs], hends⟩

/-- **The loop decodes everything that is complete.** On a task between two frames that holds `bs`,
    of which no prefix is 1 or above 32769, it ends, whatever fuel above the number of bytes it is
    given; the bodies it hands on are the payloads of the whole frames at the front of `bs`, in
    order, and it ends as the rest says. The frames and the rest are `bs`, and the rest begins with
    no whole frame. -/
theorem parse_decodes (t : CTcpTask) (bs : List UInt8) (h : t.Holds bs)
    (hok : ∀ L ∈ prefixes 2 bs, L ≠ 1 ∧ L ≤ 32769) :
    (∀ n, bs.length < n →
      (parse n t).msgs.map CSendMsg.sendBody = (split 2 bs).1 ∧
        (parse n t).Ends (split 2 bs).2) ∧
      stream 2 (split 2 bs).1 ++ (split 2 bs).2 = bs ∧ ¬ Whole 2 (split 2 bs).2 := by
  refine ⟨?_, stream_split 2 bs, not_whole_split 2 bs⟩
  intro n hn
  exact parse_split h hok hn

/-- A frame with one byte in it, and three bytes of one with three. -/
theorem parse_decodes_frame_and_half :
    ∃ t : CTcpTask, t.Holds [0, 3, 65, 0, 5, 1] ∧
      (parse 7 t).msgs.map CSendMsg.sendBody = [[65]] ∧ (parse 7 t).Ends [0, 5, 1] := by
  have h : ((new fun _ => 0).store [0, 3, 65, 0, 5, 1]).Holds [0, 3, 65, 0, 5, 1] :=
    (new_holds fun _ => 0).store (by decide)
  have hwhole : Whole 2 [0, 3, 65, 0, 5, 1] := by decide
  have hstuck :
      ¬ Whole 2 (([0, 3, 65, 0, 5, 1] : List UInt8).drop (stated 2 [0, 3, 65, 0, 5, 1])) := by
    decide
  have hsplit := split_of_whole hwhole
  rw [split_of_not_whole hstuck] at hsplit
  have hprefixes := prefixes_of_whole hwhole
  rw [prefixes_of_not_whole hstuck] at hprefixes
  obtain ⟨hrun, -, -⟩ := parse_decodes _ _ h (by rw [hprefixes]; decide)
  have hseven := hrun 7 (by decide)
  rw [hsplit] at hseven
  exact ⟨_, h, hseven⟩

end CTcpTask

end WebsocketTest
