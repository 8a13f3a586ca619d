import WebsocketTest.Base.Task

/-!
# Delivery: nothing is lost on the way out, and nothing waits for ever

Two invariants of a task in its loop.

**`Sender.sent_conserved`** — for TCP, what the kernel took and what is left, in order, are the
bodies of the messages that were accepted; and after a hard error nothing more is sent.

**`Sender.output_armed`** — for any `SendData`, a registered task with something to send has
`EPOLLOUT` in its interest set, and `SendProcess` takes it out when it finds nothing.

Both are `sendLoop_rule`, the loop's induction, applied to one attempt, and `Steps.invariant`.

## What they say of a failure, and of time

A hard error ends the task: `HandleProcess` destroys it, and the messages that were queued are gone.
`sent_conserved` says so by its last part, and it says as well that the kernel had got a beginning
of what was accepted by then. The task does not know how far its peer got, and no statement here is
about the peer.

`output_armed` is what "nothing waits for ever" comes to without a clock. Epoll will report the
descriptor once it is writable, since it was asked to; that it ever is writable is up to the other
side. The second half is about the opposite waste, of a descriptor that is reported writable for
ever to a task which has nothing to write.

The first is about TCP alone. A UDP task starts a message over, and drops one on an error; what it
delivers is in `Datagrams.lean`.
-/

set_option autoImplicit false

namespace WebsocketTest

open Lib.Integers Lib.Run

namespace Sender

variable {M : SendMethod} {s s' : Sender}

/-! ## The loop

`SendProcess` tries up to `m_nSendNum` times and stops early at 2 and at -1. -/

/-- **The loop rule.** `P` holds whenever an attempt is made; `Q` relates what the loop answers to
    the state it leaves. One attempt from `P` gives `Q`, and `P` again unless the loop stops. -/
theorem sendLoop_rule {P : Sender → Prop} {Q : Int → Sender → Prop}
    (hattempt : ∀ s r, P s → Q (s.attempt M r).1 (s.attempt M r).2 ∧
      ((s.attempt M r).1 ≠ 2 → (s.attempt M r).1 ≠ -1 → P (s.attempt M r).2))
    (rs : Nat → SendResult) {n ii : Nat} {retValue : Int} (hP : P s) (hQ : Q retValue s) :
    Q (s.sendLoop M rs n ii retValue).1 (s.sendLoop M rs n ii retValue).2 := by
  induction n generalizing ii retValue s with
  | zero => exact hQ
  | succ n ih =>
    obtain ⟨hQ', hP'⟩ := hattempt s (rs ii) hP
    rw [sendLoop]
    by_cases hstop : (s.attempt M (rs ii)).1 = 2 ∨ (s.attempt M (rs ii)).1 = -1
    · simp only [if_pos hstop]
      exact hQ'
    · simp only [if_neg hstop]
      exact ih (hP' (fun h => hstop (.inl h)) fun h => hstop (.inr h)) hQ'

/-- The three things an attempt can be. -/
theorem attempt_cases (M : SendMethod) (r : SendResult) (s : Sender) :
    (∃ pMsg, s.task.pCurSendMsg = some pMsg ∧ s.attempt M r = s.sendData M r pMsg) ∨
    (∃ pMsg rest, s.task.pCurSendMsg = none ∧ s.task.sendList = pMsg :: rest ∧
      s.attempt M r = sendData M r
        { s with task := { s.task with sendList := rest, pCurSendMsg := some pMsg } } pMsg) ∨
    (¬ s.task.Pending ∧
      s.attempt M r = (2, { s with interest := s.interest.modify Events.input })) := by
  cases hc : s.task.pCurSendMsg with
  | some pMsg => exact .inl ⟨pMsg, rfl, by simp only [attempt, hc]⟩
  | none =>
    cases hl : s.task.sendList with
    | cons pMsg rest =>
      refine .inr (.inl ⟨pMsg, rest, rfl, rfl, ?_⟩)
      simp only [attempt, hc, CBaseTask.getMsgFromSendList, hl]
    | nil =>
      refine .inr (.inr ⟨by simp [CBaseTask.Pending, hc, hl], ?_⟩)
      simp only [attempt, hc, CBaseTask.getMsgFromSendList, hl]

/-! ## The interest set

It is changed in four places: `Init`, `PutMsgToSendList`, the attempt that finds nothing, and
`DestroySelf`. -/

/-- Registered and something to send: `EPOLLOUT` is asked for. -/
def Armed (s : Sender) : Prop :=
  ∀ ev, s.interest = some ev → s.task.Pending → ev.epollout = true

/-- `EPOLLOUT` is not asked for: the task is not registered, or for other events. -/
def Disarmed (s : Sender) : Prop := ∀ ev, s.interest = some ev → ev.epollout = false

theorem modify_input_disarmed (s : Sender) :
    Disarmed { s with interest := s.interest.modify Events.input } := by
  intro ev hev
  obtain ⟨_, _, rfl⟩ := Option.map_eq_some_iff.mp hev
  rfl

/-- `SendData` leaves epoll alone, and it is only called with something to send. -/
theorem sendData_armed {r : SendResult} {pMsg : CSendMsg}
    (h : ∀ ev, s.interest = some ev → ev.epollout = true) : Armed (s.sendData M r pMsg).2 :=
  fun ev hev _ => h ev hev

theorem attempt_armed (h : Armed s) (r : SendResult) :
    Armed (s.attempt M r).2 ∧ ((s.attempt M r).1 = 2 → Disarmed (s.attempt M r).2) := by
  rcases attempt_cases M r s with ⟨pMsg, hc, he⟩ | ⟨pMsg, rest, -, hl, he⟩ | ⟨hn, he⟩
  · rw [he]
    refine ⟨sendData_armed fun ev hev => h ev hev (.inr (by simp [hc])), ?_⟩
    intro h₂
    exact absurd h₂ (M.retValue_ne _ _ _)
  · rw [he]
    refine ⟨sendData_armed fun ev hev => h ev hev (.inl (by simp [hl])), ?_⟩
    intro h₂
    exact absurd h₂ (M.retValue_ne _ _ _)
  · rw [he]
    exact ⟨fun _ _ hp => absurd hp hn, fun _ => modify_input_disarmed s⟩

theorem sendProcess_armed (h : Armed s) (rs : Nat → SendResult) :
    Armed (s.sendProcess M rs).2 ∧ ((s.sendProcess M rs).1 = 2 → Disarmed (s.sendProcess M rs).2) :=
  sendLoop_rule (P := Armed) (Q := fun r v => Armed v ∧ (r = 2 → Disarmed v))
    (fun _ r hv => ⟨attempt_armed hv r, fun _ _ => (attempt_armed hv r).1⟩) rs h
    ⟨h, fun h₂ => absurd h₂ (by decide)⟩

theorem init_armed (h : Armed s) : Armed s.init := by
  intro ev hev hp
  cases hi : s.interest with
  | some e =>
    have he : e = ev := by simpa [init, Interest.add, hi] using hev
    exact he ▸ h e hi hp
  | none =>
    have hp' : s.task.Pending := hp
    have he : Events.input.withOut = ev := by simpa [init, Interest.add, hi, hp'] using hev
    exact he ▸ rfl

theorem putMsgToSendList_armed (h : Armed s) (pBuf : Option CSendMsg) :
    Armed (s.putMsgToSendList pBuf).2 := by
  cases pBuf with
  | none => exact h
  | some pMsg =>
    unfold putMsgToSendList
    by_cases hz : pMsg.getLen = 0
    · simp only [if_pos hz]
      exact h
    · simp only [if_neg hz]
      intro ev hev _
      obtain ⟨_, _, rfl⟩ := Option.map_eq_some_iff.mp hev
      rfl

theorem destroySelf_armed (s : Sender) : Armed s.destroySelf := fun _ hev => by cases hev

/-- The outcomes of `HandleProcess`: the task is destroyed, or it is what `SendProcess` left, or
    nothing happened. -/
theorem handleProcess_cases (M : SendMethod) (events : Events) (recvRet : Int)
    (rs : Nat → SendResult) (s : Sender) :
    s.handleProcess M events recvRet rs = (-1, s.destroySelf) ∨
    ((s.sendProcess M rs).1 = -1 ∧
      s.handleProcess M events recvRet rs = (-1, (s.sendProcess M rs).2.destroySelf)) ∨
    ((s.sendProcess M rs).1 ≠ -1 ∧
      s.handleProcess M events recvRet rs = (0, (s.sendProcess M rs).2)) ∨
    s.handleProcess M events recvRet rs = (0, s) := by
  have hdef : s.handleProcess M events recvRet rs =
      if events.widen.epollin ∧ recvRet = -1 then (-1, s.destroySelf)
      else if events.widen.epollout then
        if (s.sendProcess M rs).1 = -1 then (-1, (s.sendProcess M rs).2.destroySelf)
        else (0, (s.sendProcess M rs).2)
      else (0, s) := rfl
  rw [hdef]
  split
  · exact .inl rfl
  · split
    · by_cases hr : (s.sendProcess M rs).1 = -1
      · exact .inr (.inl ⟨hr, if_pos hr⟩)
      · exact .inr (.inr (.inl ⟨hr, if_neg hr⟩))
    · exact .inr (.inr (.inr rfl))

theorem step_armed {op : Op} (h : Armed s) (hs : step M s op s') : Armed s' := by
  obtain ⟨-, rfl⟩ := hs
  cases op with
  | init => exact init_armed h
  | put pBuf => exact putMsgToSendList_armed h pBuf
  | handle events recvRet rs =>
    rcases handleProcess_cases M events recvRet rs s with he | ⟨-, he⟩ | ⟨-, he⟩ | he
    · rw [apply, he]; exact destroySelf_armed _
    · rw [apply, he]; exact destroySelf_armed _
    · rw [apply, he]; exact (sendProcess_armed h rs).1
    · rw [apply, he]; exact h

/-- With nothing to send, the first attempt of a `SendProcess` is its last. -/
theorem sendProcess_of_not_pending (h : ¬ s.task.Pending) (hnum : 0 < s.task.nSendNum)
    (rs : Nat → SendResult) :
    s.sendProcess M rs = (2, { s with interest := s.interest.modify Events.input }) := by
  obtain ⟨n, hn⟩ := Nat.exists_eq_add_one.mpr hnum
  simp only [CBaseTask.Pending, not_or, not_not] at h
  rcases attempt_cases M (rs 0) s with ⟨pMsg, hc, -⟩ | ⟨pMsg, rest, -, hl, -⟩ | ⟨-, he⟩
  · rw [h.2] at hc
    cases hc
  · rw [h.1] at hl
    cases hl
  · rw [sendProcess, hn, sendLoop, he]
    exact if_pos (.inl rfl)

/-- **No stalled output.** In every run, a registered task with something to send is woken when it
    can send; and when `SendProcess` answers that it found nothing, it is woken for that no more,
    which is what it does answer with nothing to send. The number of attempts is in a hypothesis
    because `M` is any `SendData` at all: the two of the code leave the constructor's 20 alone. -/
theorem output_armed (M : SendMethod) {ops : List Op} {s : Sender}
    (h : Steps (step M) fresh ops s) :
    (∀ ev, s.interest = some ev → s.task.Pending → ev.epollout = true) ∧
      (∀ rs, (s.sendProcess M rs).1 = 2 →
        ∀ ev, (s.sendProcess M rs).2.interest = some ev → ev.epollout = false) ∧
      (¬ s.task.Pending → 0 < s.task.nSendNum → ∀ rs, (s.sendProcess M rs).1 = 2 ∧
        ∀ ev, (s.sendProcess M rs).2.interest = some ev → ev.epollout = false) := by
  have harmed : Armed s :=
    h.invariant (fun _ _ _ hv hs => step_armed hv hs) fun ev hev => by cases hev
  refine ⟨harmed, fun rs h₂ => (sendProcess_armed harmed rs).2 h₂, fun hp hnum rs => ?_⟩
  rw [sendProcess_of_not_pending hp hnum]
  exact ⟨rfl, modify_input_disarmed s⟩

/-- A message put before `Init`: the task is registered with `EPOLLOUT`. The `SendProcess` that it
    is woken for sends the message, finds nothing more and takes `EPOLLOUT` out. -/
theorem output_armed_put_then_init :
    ∃ ops s ev, Steps (step CTcpTask.sendMethod) fresh ops s ∧ s.interest = some ev ∧
      s.task.Pending ∧ ev.epollout = true ∧
      (s.sendProcess CTcpTask.sendMethod fun _ => ⟨some 1, .other⟩).1 = 2 ∧
      ∃ ev', (s.sendProcess CTcpTask.sendMethod fun _ => ⟨some 1, .other⟩).2.interest = some ev' ∧
        ev'.epollout = false := by
  have hrun : Steps (step CTcpTask.sendMethod) fresh [.put (some ⟨[1], by decide⟩), .init] _ :=
    .cons ⟨rfl, rfl⟩ (.single ⟨rfl, rfl⟩)
  obtain ⟨harmed, hdisarmed, -⟩ := output_armed CTcpTask.sendMethod hrun
  exact ⟨_, _, _, hrun, rfl, by decide, harmed _ rfl (by decide), rfl, Events.input, rfl,
    hdisarmed (fun _ => ⟨some 1, .other⟩) rfl _ rfl⟩

/-! ## Bytes and order, for TCP

`unsent` is the rest of the current message and then the queue. An attempt moves bytes from its
front to the kernel, and a put adds a body at its end. -/

end Sender

namespace CBaseTask

/-- What is still to go out, in order. -/
def unsent (t : CBaseTask) : List UInt8 :=
  (match t.pCurSendMsg with
    | some pMsg => pMsg.sendBody.drop t.iCurSendLen
    | none => []) ++ (t.sendList.map CSendMsg.sendBody).flatten

/-- The current message is not finished, and no queued one is empty. -/
structure Sendable (t : CBaseTask) : Prop where
  current : ∀ pMsg, t.pCurSendMsg = some pMsg → t.iCurSendLen < pMsg.getLen
  idle : t.pCurSendMsg = none → t.iCurSendLen = 0
  queued : ∀ pMsg ∈ t.sendList, 0 < pMsg.getLen

variable {t : CBaseTask} {pMsg : CSendMsg}

theorem unsent_current (h : t.pCurSendMsg = some pMsg) :
    t.unsent = pMsg.sendBody.drop t.iCurSendLen ++ (t.sendList.map CSendMsg.sendBody).flatten := by
  rw [unsent, h]

theorem unsent_idle (h : t.pCurSendMsg = none) :
    t.unsent = (t.sendList.map CSendMsg.sendBody).flatten := by
  rw [unsent, h, List.nil_append]

/-- The kernel takes at most what it is given. -/
theorem retLen_eq (r : SendResult) {n : Nat} (hn : n < 2147483648) :
    r.retLen n ≤ 0 ∨ ∃ k, r.retLen n = (k : Nat) ∧ 0 < k ∧ k ≤ n := by
  unfold SendResult.retLen
  cases r.room with
  | none => exact .inl (show (-1 : Int) ≤ 0 by decide)
  | some m =>
    simp only [toS32_eq (show (-2147483648 : Int) ≤ (min m n : Nat) by omega)
      (show ((min m n : Nat) : Int) < 2147483648 by omega)]
    by_cases h : 0 < min m n
    · exact .inr ⟨min m n, rfl, h, Nat.min_le_right _ _⟩
    · exact .inl (by omega)

/-- **One TCP `SendData`**: what it sent comes off the front of what was unsent. -/
theorem tcp_sendData (h : t.Sendable) (hc : t.pCurSendMsg = some pMsg) (r : SendResult) :
    (CTcpTask.sendData t pMsg r).sent ++ (CTcpTask.sendData t pMsg r).task.unsent = t.unsent ∧
      (CTcpTask.sendData t pMsg r).task.Sendable := by
  have hcur := h.current pMsg hc
  have hlen : pMsg.getLen < 2147483648 := pMsg.len_lt
  have hsend : toU32 ((pMsg.getLen : Int) - t.iCurSendLen) = pMsg.getLen - t.iCurSendLen := by
    rw [show (pMsg.getLen : Int) - t.iCurSendLen = (pMsg.getLen - t.iCurSendLen : Nat) by omega]
    exact toU32_natCast (by omega)
  unfold CTcpTask.sendData
  rw [hsend]
  rcases retLen_eq r (n := pMsg.getLen - t.iCurSendLen) (by omega) with hle | ⟨k, hk, hk₀, hkn⟩
  · -- Nothing went out, and nothing was changed.
    simp only [if_neg (Int.not_lt.mpr hle)]
    split <;> exact ⟨rfl, h⟩
  · have hoff : u32 (t.iCurSendLen + toU32 (k : Int)) = t.iCurSendLen + k := by
      rw [toU32_natCast (by omega), u32_eq (by omega)]
    simp only [hk, if_pos (show (k : Int) > 0 by omega), Int.toNat_natCast, hoff]
    rw [unsent_current hc]
    split
    · rename_i hall
      refine ⟨?_, ⟨by simp, fun _ => rfl, h.queued⟩⟩
      have hbody : (pMsg.sendBody.drop t.iCurSendLen).length ≤ k := by
        rw [List.length_drop]
        have : pMsg.sendBody.length = pMsg.getLen := rfl
        omega
      rw [List.take_of_length_le hbody, unsent_idle rfl]
    · rename_i hpart
      refine ⟨?_, ⟨?_, fun hn => absurd (hn.symm.trans hc) (by simp), h.queued⟩⟩
      · rw [unsent_current (t := { t with iCurSendLen := t.iCurSendLen + k }) hc,
          ← List.append_assoc, ← List.drop_drop, List.take_append_drop]
      · intro m hm
        obtain rfl : pMsg = m := Option.some.inj (hc.symm.trans hm)
        show t.iCurSendLen + k < pMsg.getLen
        omega

end CBaseTask

namespace Sender

variable {s s' : Sender}

/-- What went out and what is to go out is what was accepted. -/
structure Conserved (s : Sender) : Prop where
  sendable : s.task.Sendable
  bytes : s.wire ++ s.task.unsent = (s.accepted.map CSendMsg.sendBody).flatten

theorem sendData_conserved (h : s.Conserved) {pMsg : CSendMsg}
    (hc : s.task.pCurSendMsg = some pMsg) (r : SendResult) :
    (s.sendData CTcpTask.sendMethod r pMsg).2.Conserved := by
  obtain ⟨hb, hs⟩ := CBaseTask.tcp_sendData h.sendable hc r
  refine ⟨hs, ?_⟩
  show (s.wire ++ (CTcpTask.sendData s.task pMsg r).sent) ++
    (CTcpTask.sendData s.task pMsg r).task.unsent = (s.accepted.map CSendMsg.sendBody).flatten
  rw [List.append_assoc, hb, h.bytes]

/-- Taking the next message off the list changes nothing that counts. -/
theorem dequeue_conserved (h : s.Conserved) {pMsg : CSendMsg} {rest : List CSendMsg}
    (hc : s.task.pCurSendMsg = none) (hl : s.task.sendList = pMsg :: rest) :
    Conserved { s with task := { s.task with sendList := rest, pCurSendMsg := some pMsg } } := by
  have hidle := h.sendable.idle hc
  refine ⟨⟨?_, fun hn => absurd hn (by simp), ?_⟩, ?_⟩
  · intro m hm
    obtain rfl : pMsg = m := Option.some.inj hm
    show s.task.iCurSendLen < pMsg.getLen
    rw [hidle]
    exact h.sendable.queued pMsg (by simp [hl])
  · intro m hm
    exact h.sendable.queued m (by rw [hl]; exact List.mem_cons_of_mem pMsg hm)
  · rw [← h.bytes, CBaseTask.unsent_idle hc, CBaseTask.unsent_current rfl, hl, hidle]
    rfl

/-- A state in which no `SendData` has failed for good, and what a call may leave. -/
theorem attempt_conserved (h : s.Conserved) (hf : s.failedAt = none) (r : SendResult) :
    (s.attempt CTcpTask.sendMethod r).2.Conserved ∧
      (s.attempt CTcpTask.sendMethod r).2.failedAt =
        if (s.attempt CTcpTask.sendMethod r).1 = -1 then
          some (s.attempt CTcpTask.sendMethod r).2.wire else none := by
  have failed : ∀ (v : Sender) (pMsg : CSendMsg), v.failedAt = none →
      (v.sendData CTcpTask.sendMethod r pMsg).2.failedAt =
        if (v.sendData CTcpTask.sendMethod r pMsg).1 = -1 then
          some (v.sendData CTcpTask.sendMethod r pMsg).2.wire else none := by
    intro v pMsg hv
    simp only [sendData, hv]
    rfl
  rcases attempt_cases CTcpTask.sendMethod r s with
    ⟨pMsg, hc, he⟩ | ⟨pMsg, rest, hc, hl, he⟩ | ⟨-, he⟩
  · rw [he]
    exact ⟨sendData_conserved h hc r, failed s pMsg hf⟩
  · rw [he]
    exact ⟨sendData_conserved (dequeue_conserved h hc hl) rfl r, failed _ pMsg hf⟩
  · rw [he]
    exact ⟨⟨h.sendable, h.bytes⟩, hf⟩

theorem sendProcess_conserved (h : s.Conserved) (hf : s.failedAt = none) (rs : Nat → SendResult) :
    (s.sendProcess CTcpTask.sendMethod rs).2.Conserved ∧
      (s.sendProcess CTcpTask.sendMethod rs).2.failedAt =
        if (s.sendProcess CTcpTask.sendMethod rs).1 = -1 then
          some (s.sendProcess CTcpTask.sendMethod rs).2.wire else none := by
  refine sendLoop_rule (P := fun v => v.Conserved ∧ v.failedAt = none)
    (Q := fun r v => v.Conserved ∧ v.failedAt = if r = -1 then some v.wire else none)
    (fun v r hv => ?_) rs ⟨h, hf⟩ ⟨h, hf⟩
  obtain ⟨hc, hfail⟩ := attempt_conserved hv.1 hv.2 r
  exact ⟨⟨hc, hfail⟩, fun _ hne => ⟨hc, by rw [hfail, if_neg hne]⟩⟩

theorem putMsgToSendList_conserved (h : s.Conserved) (pBuf : Option CSendMsg) :
    (s.putMsgToSendList pBuf).2.Conserved ∧
      (s.putMsgToSendList pBuf).2.failedAt = s.failedAt := by
  cases pBuf with
  | none => exact ⟨h, rfl⟩
  | some pMsg =>
    unfold putMsgToSendList
    by_cases hz : pMsg.getLen = 0
    · simp only [if_pos hz]
      exact ⟨h, trivial⟩
    · simp only [if_neg hz]
      refine ⟨⟨⟨h.sendable.current, h.sendable.idle, ?_⟩, ?_⟩, trivial⟩
      · intro m hm
        rcases List.mem_append.mp hm with hm | hm
        · exact h.sendable.queued m hm
        · rw [List.mem_singleton.mp hm]
          exact Nat.pos_of_ne_zero hz
      · rw [List.map_append, List.flatten_append, ← h.bytes, List.append_assoc,
          List.append_cancel_left_eq]
        simp only [CBaseTask.unsent, List.map_append, List.flatten_append, List.append_assoc]

/-- The run invariant: conserved, and a task that failed for good is gone, with nothing sent
    since. -/
structure Delivering (s : Sender) : Prop where
  conserved : s.Conserved
  failed : ∀ w, s.failedAt = some w → s.destroyed = true ∧ s.wire = w

theorem Delivering.notFailed (h : s.Delivering) (hd : s.destroyed = false) : s.failedAt = none := by
  cases hf : s.failedAt with
  | none => rfl
  | some w => exact absurd ((h.failed w hf).1.symm.trans hd) (by decide)

theorem step_delivering {op : Op} (h : s.Delivering) (hs : step CTcpTask.sendMethod s op s') :
    s'.Delivering := by
  obtain ⟨hd, rfl⟩ := hs
  have hf := h.notFailed hd
  have notFailed : ∀ v : Sender, v.Conserved → v.failedAt = none → v.Delivering := fun v hv hn =>
    ⟨hv, fun w hw => absurd (hn.symm.trans hw) (by simp)⟩
  cases op with
  | init => exact notFailed _ ⟨h.conserved.sendable, h.conserved.bytes⟩ hf
  | put pBuf =>
    obtain ⟨hc, he⟩ := putMsgToSendList_conserved h.conserved pBuf
    exact notFailed _ hc (he.trans hf)
  | handle events recvRet rs =>
    obtain ⟨hc, hfail⟩ := sendProcess_conserved h.conserved hf rs
    rcases handleProcess_cases CTcpTask.sendMethod events recvRet rs s with
      he | ⟨hr, he⟩ | ⟨hr, he⟩ | he
    · rw [apply, he]
      exact notFailed _ ⟨h.conserved.sendable, h.conserved.bytes⟩ hf
    · rw [apply, he]
      rw [if_pos hr] at hfail
      exact ⟨⟨hc.sendable, hc.bytes⟩, fun w hw => ⟨rfl, Option.some.inj (hfail.symm.trans hw)⟩⟩
    · rw [apply, he]
      exact notFailed _ hc (by rw [hfail, if_neg hr])
    · rw [apply, he]
      exact h

theorem fresh_delivering : fresh.Delivering :=
  ⟨⟨⟨(fun _ hm => nomatch hm), fun _ => rfl, (fun _ hm => nomatch hm)⟩, rfl⟩,
    (fun _ hw => nomatch hw)⟩

/-- **Bytes and order.** In every state a run reaches: what the kernel took, then the rest of the
    current message, then the queue, are the accepted bodies in order; the offset is inside the
    current message, and zero when there is none; and what was sent when a `SendData` failed for
    good is all that is ever sent, a prefix of what was accepted. -/
theorem sent_conserved {ops : List Op} {s : Sender}
    (h : Steps (step CTcpTask.sendMethod) fresh ops s) :
    s.wire ++ s.task.unsent = (s.accepted.map CSendMsg.sendBody).flatten ∧
      (∀ pMsg, s.task.pCurSendMsg = some pMsg → s.task.iCurSendLen < pMsg.getLen) ∧
      (s.task.pCurSendMsg = none → s.task.iCurSendLen = 0) ∧
      (∀ w, s.failedAt = some w → s.wire = w ∧
        w <+: (s.accepted.map CSendMsg.sendBody).flatten ∧
        ∀ op s', ¬ step CTcpTask.sendMethod s op s') := by
  have hd : s.Delivering := h.invariant (fun _ _ _ hv hs => step_delivering hv hs) fresh_delivering
  refine ⟨hd.conserved.bytes, hd.conserved.sendable.current, hd.conserved.sendable.idle, ?_⟩
  intro w hw
  obtain ⟨hdes, rfl⟩ := hd.failed w hw
  refine ⟨rfl, ⟨s.task.unsent, hd.conserved.bytes⟩, ?_⟩
  rintro op s' ⟨hlive, -⟩
  exact absurd (hdes.symm.trans hlive) (by decide)

/-- Two bytes, of which the kernel takes one and then fails. -/
theorem sent_conserved_partial :
    ∃ ops s, Steps (step CTcpTask.sendMethod) fresh ops s ∧ s.failedAt = some [1] ∧
      s.wire ++ s.task.unsent = (s.accepted.map CSendMsg.sendBody).flatten := by
  have hrun : Steps (step CTcpTask.sendMethod) fresh
      [.put (some ⟨[1, 2], by decide⟩), .handle ⟨false, true, false, false⟩ 0 fun i =>
        if i = 0 then ⟨some 1, .other⟩ else ⟨none, .other⟩] _ :=
    .cons ⟨rfl, rfl⟩ (.single ⟨rfl, rfl⟩)
  exact ⟨_, _, hrun, by decide, (sent_conserved hrun).1⟩

end Sender

end WebsocketTest
