import WebsocketTest.Base.Delivery

/-!
# Datagrams: every message at most once, in order

`CUdpTask::SendData` starts every attempt from the first byte and, unlike the TCP one, gives a
message up after a hard error: it deletes it and answers 0, so that `SendProcess` goes on with the
next.

`Outbox` is a task with two records beside it, of the datagrams that `sendto` took and of the
messages that were deleted, with what became of them. They are read off what an attempt does to the
`Sender` (`attempt`) and change nothing about it (`steps_sender`).

**`delivery_of_run`** — in every state that calls of `PutMsgToSendList` and `SendProcess` lead to,
the accepted messages are, in order, the ones done with, the current one and the queued ones; the
datagrams are the bodies of those that were sent; and nothing is dropped but for an error that is
no reason to try again.

The `sendto` of a datagram socket takes the whole message or fails, which is `Sendto`: the loop that
is written for a partial `send` never sees one. That no message is empty is `PutMsgToSendList`'s
doing, and it is needed, for a `sendto` of no bytes returns 0, which the code takes for a failure.

At most once, and not exactly once. What the network does with a datagram is not modelled, and one
that was dropped for an error is not tried again.
-/

set_option autoImplicit false

namespace WebsocketTest

open Lib.Integers Lib.Run

/-- What `sendto` does on a datagram socket: it takes the whole message, or fails. -/
inductive Sendto
  | whole (errno : Errno)
  | error (errno : Errno)

/-- The result as `SendData` sees it. There is room for any message, whose length is an `int`. -/
def Sendto.result : Sendto → SendResult
  | whole errno => ⟨some 2147483647, errno⟩
  | error errno => ⟨none, errno⟩

/-- What became of a message that the task deleted. -/
inductive Fate
  | sent
  | dropped (errno : Errno)
  deriving DecidableEq

structure Outbox where
  sender : Sender
  datagrams : List (List UInt8)
  done : List (CSendMsg × Fate)

/-- The message that the next `SendData` is called on. -/
def CBaseTask.next (t : CBaseTask) : Option CSendMsg := t.pCurSendMsg <|> t.sendList.head?

/-- The messages that are current or queued, the next one first. -/
def CBaseTask.waiting (t : CBaseTask) : List CSendMsg := t.pCurSendMsg.toList ++ t.sendList

/-- The bodies of those that were sent. -/
def sentBodies (done : List (CSendMsg × Fate)) : List (List UInt8) :=
  (done.filter fun p => p.2 = .sent).map fun p => p.1.sendBody

namespace Outbox

def fresh : Outbox := ⟨.fresh, [], []⟩

/-- One attempt, with a record of what the kernel took and of whether the message is still there. -/
def attempt (r : SendResult) (s : Outbox) : Int × Outbox :=
  let (retValue, sender) := s.sender.attempt CUdpTask.sendMethod r
  let out := sender.wire.drop s.sender.wire.length
  let deleted := if sender.task.pCurSendMsg = none then s.sender.task.next else none
  (retValue, {
    sender := sender
    datagrams := s.datagrams ++ if out = [] then [] else [out]
    done := s.done ++
      (deleted.map fun pMsg => (pMsg, if out = [] then .dropped r.errno else .sent)).toList })

def sendLoop (rs : Nat → SendResult) : Nat → Nat → Int → Outbox → Int × Outbox
  | 0, _, retValue, s => (retValue, s)
  | n + 1, ii, _, s =>
    let (retValue, s') := s.attempt (rs ii)
    if retValue = 2 ∨ retValue = -1 then (retValue, s') else sendLoop rs n (ii + 1) retValue s'

def sendProcess (rs : Nat → SendResult) (s : Outbox) : Int × Outbox :=
  s.sendLoop rs s.sender.task.nSendNum 0 0

/-- The two calls; attempt `ii` of a `SendProcess` meets with `outcomes ii`. -/
inductive Op
  | put (pBuf : Option CSendMsg)
  | sendProcess (outcomes : Nat → Sendto)

def apply (s : Outbox) : Op → Outbox
  | .put pBuf => { s with sender := (s.sender.putMsgToSendList pBuf).2 }
  | .sendProcess outcomes => (s.sendProcess fun ii => (outcomes ii).result).2

def step (s : Outbox) (op : Op) (s' : Outbox) : Prop := s' = s.apply op

/-! ## The records change nothing

What `Outbox` does to its `sender` is what the loop calls of `Task.lean` do, so that a run here is a
run of the task. A UDP task is never destroyed by its own `SendProcess`, since its `SendData` never
answers -1. -/

theorem sendLoop_sender (rs : Nat → SendResult) (n ii : Nat) (retValue : Int) (s : Outbox) :
    (s.sendLoop rs n ii retValue).2.sender =
      (s.sender.sendLoop CUdpTask.sendMethod rs n ii retValue).2 := by
  induction n generalizing ii retValue s with
  | zero => rfl
  | succ n ih =>
    have hret : (s.attempt (rs ii)).1 = (s.sender.attempt CUdpTask.sendMethod (rs ii)).1 := rfl
    have hsender : (s.attempt (rs ii)).2.sender =
        (s.sender.attempt CUdpTask.sendMethod (rs ii)).2 := rfl
    simp only [sendLoop, Sender.sendLoop, hret]
    split
    · exact hsender
    · rw [ih, hsender]

theorem sendData_ret (t : CBaseTask) (pMsg : CSendMsg) (r : SendResult) :
    (CUdpTask.sendData t pMsg r).retValue ≠ -1 := by
  simp only [CUdpTask.sendData]
  split <;> split <;> simp

/-- An attempt of a UDP task is no reason to destroy it, and does not do so itself. -/
theorem attempt_ret (r : SendResult) (s : Sender) :
    (s.attempt CUdpTask.sendMethod r).1 ≠ -1 ∧
      (s.attempt CUdpTask.sendMethod r).2.destroyed = s.destroyed := by
  unfold Sender.attempt
  split
  · exact ⟨sendData_ret _ _ _, rfl⟩
  · split
    · exact ⟨sendData_ret _ _ _, rfl⟩
    · exact ⟨show (2 : Int) ≠ -1 by decide, rfl⟩

theorem sendLoop_ret (rs : Nat → SendResult) (n ii : Nat) (s : Sender) {retValue : Int}
    (hret : retValue ≠ -1) :
    (s.sendLoop CUdpTask.sendMethod rs n ii retValue).1 ≠ -1 ∧
      (s.sendLoop CUdpTask.sendMethod rs n ii retValue).2.destroyed = s.destroyed := by
  induction n generalizing ii retValue s with
  | zero => exact ⟨hret, rfl⟩
  | succ n ih =>
    obtain ⟨hone, hlive⟩ := attempt_ret (rs ii) s
    simp only [Sender.sendLoop]
    split
    · exact ⟨hone, hlive⟩
    · obtain ⟨hrest, hlive'⟩ := ih (ii + 1) (s.attempt CUdpTask.sendMethod (rs ii)).2 hone
      exact ⟨hrest, hlive'.trans hlive⟩

/-- The call of the event loop that a call here is: `HandleProcess` with `EPOLLOUT` alone. -/
def Op.call : Op → Sender.Op
  | .put pBuf => .put pBuf
  | .sendProcess outcomes => .handle ⟨false, true, false, false⟩ 0 fun ii => (outcomes ii).result

theorem apply_sender (s : Outbox) (op : Op) :
    (s.apply op).sender = s.sender.apply CUdpTask.sendMethod op.call ∧
      (s.apply op).sender.destroyed = s.sender.destroyed := by
  cases op with
  | put pBuf =>
    refine ⟨rfl, ?_⟩
    simp only [apply, Sender.putMsgToSendList]
    split
    · rfl
    · split <;> rfl
  | sendProcess outcomes =>
    obtain ⟨hret, hlive⟩ := sendLoop_ret (fun ii => (outcomes ii).result) s.sender.task.nSendNum 0
      s.sender (show (0 : Int) ≠ -1 by decide)
    have hsender : (s.apply (.sendProcess outcomes)).sender =
        (s.sender.sendProcess CUdpTask.sendMethod fun ii => (outcomes ii).result).2 :=
      sendLoop_sender _ _ _ _ _
    refine ⟨?_, by rw [hsender]; exact hlive⟩
    rw [hsender, Op.call, Sender.apply, Sender.handleProcess, Events.widen]
    simp only [Bool.or_false, Bool.false_eq_true, if_false, false_and, if_true]
    rw [Sender.sendProcess, if_neg hret]

/-- **A run with records is a run of the task**, call by call. -/
theorem steps_sender {s s' : Outbox} {ops : List Op} (hrun : Steps step s ops s')
    (hlive : s.sender.destroyed = false) :
    Steps (Sender.step CUdpTask.sendMethod) s.sender (ops.map Op.call) s'.sender := by
  induction hrun with
  | nil => exact .nil _
  | @cons s _ _ op _ hstep _ ih =>
    obtain rfl := hstep
    obtain ⟨hsame, hkept⟩ := apply_sender s op
    exact .cons ⟨hlive, hsame⟩ (ih (hkept.trans hlive))

end Outbox

/-! ## One `SendData`

An attempt does one of three things with the first message that waits: it keeps it, sends it whole,
or drops it. Runs are made of these. -/

namespace CUdpTask

variable {t : CBaseTask} {pMsg : CSendMsg}

/-- The whole message goes out, wherever the last attempt stopped. -/
theorem sendData_whole (hpos : 0 < pMsg.getLen) (t : CBaseTask) (errno : Errno) :
    sendData t pMsg (Sendto.whole errno).result =
      ⟨0, { t with pCurSendMsg := none, iCurSendLen := 0 }, pMsg.sendBody⟩ := by
  have hlen : pMsg.getLen < 2147483648 := pMsg.len_lt
  have hsend : toU32 ((pMsg.getLen : Int) - (0 : Nat)) = pMsg.getLen := by
    rw [Int.natCast_zero, Int.sub_zero, toU32_natCast (by omega)]
  have hret : (Sendto.whole errno).result.retLen pMsg.getLen = pMsg.getLen := by
    have hmin : min 2147483647 pMsg.getLen = pMsg.getLen := Nat.min_eq_right (by omega)
    simp only [SendResult.retLen, Sendto.result, hmin]
    exact toS32_eq (by omega) (by omega)
  have hoff : u32 (0 + toU32 (pMsg.getLen : Int)) = pMsg.getLen := by
    rw [toU32_natCast (by omega), Nat.zero_add, u32_eq (by omega)]
  unfold sendData
  simp only [hsend, hret, hoff, if_true, Int.toNat_natCast, List.drop_zero]
  rw [if_pos (by omega), List.take_of_length_le (show pMsg.sendBody.length ≤ pMsg.getLen from
    Nat.le_refl _)]

theorem sendData_error (t : CBaseTask) (pMsg : CSendMsg) (errno : Errno) :
    sendData t pMsg (Sendto.error errno).result =
      if errno.retry then ⟨1, { t with iCurSendLen := 0 }, []⟩
      else ⟨0, { t with iCurSendLen := 0, pCurSendMsg := none }, []⟩ := by
  unfold sendData
  rfl

end CUdpTask

namespace Outbox

variable {s s' : Outbox} {o : Sendto}

/-- An attempt finds nothing, or it is a `SendData` on the first message that waits. -/
theorem attempt_current (r : SendResult) (s : Sender) :
    (s.task.waiting = [] ∧ s.attempt CUdpTask.sendMethod r =
      (2, { s with interest := s.interest.modify Events.input })) ∨
    ∃ (pMsg : CSendMsg) (v : Sender), s.task.next = some pMsg ∧
      s.task.waiting = pMsg :: v.task.sendList ∧ v.task.pCurSendMsg = some pMsg ∧
      v.wire = s.wire ∧ v.accepted = s.accepted ∧
      s.attempt CUdpTask.sendMethod r = v.sendData CUdpTask.sendMethod r pMsg := by
  rcases Sender.attempt_cases CUdpTask.sendMethod r s with
    ⟨pMsg, hc, he⟩ | ⟨pMsg, rest, hc, hl, he⟩ | ⟨hn, he⟩
  · refine .inr ⟨pMsg, s, ?_, ?_, hc, rfl, rfl, he⟩
    · simp [CBaseTask.next, hc]
    · simp [CBaseTask.waiting, hc]
  · refine .inr ⟨pMsg,
      { s with task := { s.task with sendList := rest, pCurSendMsg := some pMsg } },
      ?_, ?_, rfl, rfl, rfl, he⟩
    · simp [CBaseTask.next, hc, hl]
    · simp [CBaseTask.waiting, hc, hl]
  · refine .inl ⟨?_, he⟩
    simp only [CBaseTask.Pending, not_or, not_not] at hn
    simp [CBaseTask.waiting, hn.1, hn.2]

/-- The messages a task was given, and those that wait, as they were. -/
structure Same (s s' : Outbox) : Prop where
  accepted : s'.sender.accepted = s.sender.accepted
  waiting : s'.sender.task.waiting = s.sender.task.waiting
  datagrams : s'.datagrams = s.datagrams
  done : s'.done = s.done

/-- The first message that waits is done with. -/
structure Finishes (s s' : Outbox) (pMsg : CSendMsg) (fate : Fate) : Prop where
  accepted : s'.sender.accepted = s.sender.accepted
  waiting : s.sender.task.waiting = pMsg :: s'.sender.task.waiting
  datagrams : s'.datagrams = s.datagrams ++ sentBodies [(pMsg, fate)]
  done : s'.done = s.done ++ [(pMsg, fate)]
  hard : ∀ errno, fate = .dropped errno → errno.retry = false

/-- What an attempt leaves, by what `SendData` does. -/
theorem attempt_of_sendData {r : SendResult} {pMsg : CSendMsg} {v : Sender} {d : SendDone}
    (hn : s.sender.task.next = some pMsg) (hwire : v.wire = s.sender.wire)
    (hacc : v.accepted = s.sender.accepted)
    (he : s.sender.attempt CUdpTask.sendMethod r = v.sendData CUdpTask.sendMethod r pMsg)
    (hd : CUdpTask.sendData v.task pMsg r = d) :
    (s.attempt r).2.sender.accepted = s.sender.accepted ∧
      (s.attempt r).2.sender.task = d.task ∧
      (s.attempt r).2.datagrams = s.datagrams ++ (if d.sent = [] then [] else [d.sent]) ∧
      (s.attempt r).2.done = s.done ++ if d.task.pCurSendMsg = none then
        [(pMsg, if d.sent = [] then .dropped r.errno else .sent)] else [] := by
  have hsent : (v.sendData CUdpTask.sendMethod r pMsg).2.wire = v.wire ++ d.sent :=
    congrArg (fun d : SendDone => v.wire ++ d.sent) hd
  have htask : (v.sendData CUdpTask.sendMethod r pMsg).2.task = d.task :=
    congrArg SendDone.task hd
  simp only [attempt, he, hn, hsent, htask, hwire, List.drop_left]
  refine ⟨hacc, trivial, trivial, ?_⟩
  by_cases hgone : d.task.pCurSendMsg = none
  · rw [if_pos hgone, if_pos hgone]
    rfl
  · rw [if_neg hgone, if_neg hgone]
    rfl

/-- **One attempt** changes nothing, or the first message that waits is sent as a whole, or it is
    dropped for a hard error. -/
theorem attempt_cases (hpos : ∀ pMsg ∈ s.sender.task.waiting, 0 < pMsg.getLen) (o : Sendto) :
    Same s (s.attempt o.result).2 ∨ ∃ pMsg fate, Finishes s (s.attempt o.result).2 pMsg fate := by
  rcases attempt_current o.result s.sender with ⟨hw, he⟩ | ⟨pMsg, v, hn, hw, hc, hwire, hacc, he⟩
  · have hcur : s.sender.task.pCurSendMsg = none := by
      simp [CBaseTask.waiting] at hw
      exact hw.1
    have hnext : s.sender.task.next = none := by
      simp [CBaseTask.waiting] at hw
      simp [CBaseTask.next, hw.1, hw.2]
    refine .inl ⟨?_, ?_, ?_, ?_⟩
    · simp only [attempt, he]
    · simp only [attempt, he]
    · simp [attempt, he]
    · simp [attempt, he, hnext]
  · have hlen : 0 < pMsg.getLen := hpos pMsg (by rw [hw]; exact List.mem_cons_self)
    have hbody : pMsg.sendBody ≠ [] := List.ne_nil_of_length_pos hlen
    cases o with
    | whole errno =>
      obtain ⟨ha, ht, hd, hf⟩ := attempt_of_sendData hn hwire hacc he
        (CUdpTask.sendData_whole hlen v.task errno)
      refine .inr ⟨pMsg, .sent, ha, ?_, ?_, ?_, fun _ hne => by cases hne⟩
      · rw [ht, hw]
        rfl
      · rw [hd, if_neg hbody]
        rfl
      · rw [hf, if_pos rfl, if_neg hbody]
    | error errno =>
      obtain ⟨ha, ht, hd, hf⟩ := attempt_of_sendData hn hwire hacc he
        (CUdpTask.sendData_error v.task pMsg errno)
      -- an error to be tried again keeps the message; any other drops it
      by_cases hretry : errno.retry = true
      · rw [if_pos hretry] at ht hd hf
        refine .inl ⟨ha, ?_, ?_, ?_⟩
        · rw [ht, hw]
          simp [CBaseTask.waiting, hc]
        · rw [hd, if_pos rfl, List.append_nil]
        · rw [hf, if_neg (by simp [hc]), List.append_nil]
      · rw [if_neg hretry] at ht hd hf
        refine .inr ⟨pMsg, .dropped errno, ha, ?_, ?_, ?_, ?_⟩
        · rw [ht, hw]
          rfl
        · rw [hd]
          rfl
        · rw [hf]
          rfl
        · intro e he'
          cases he'
          simpa using hretry

/-! ## Runs -/

/-- Every accepted message is done with, current or queued, and the datagrams are those sent. -/
structure Partitioned (s : Outbox) : Prop where
  accepted : s.sender.accepted = s.done.map Prod.fst ++ s.sender.task.waiting
  datagrams : s.datagrams = sentBodies s.done
  hard : ∀ pMsg errno, (pMsg, .dropped errno) ∈ s.done → errno.retry = false
  positive : ∀ pMsg ∈ s.sender.task.waiting, 0 < pMsg.getLen

theorem sentBodies_append (d d' : List (CSendMsg × Fate)) :
    sentBodies (d ++ d') = sentBodies d ++ sentBodies d' := by
  simp [sentBodies]

theorem Same.partitioned (h : Same s s') (hs : s.Partitioned) : s'.Partitioned := by
  refine ⟨?_, ?_, ?_, ?_⟩
  · rw [h.accepted, h.done, h.waiting, hs.accepted]
  · rw [h.datagrams, h.done, hs.datagrams]
  · rw [h.done]
    exact hs.hard
  · rw [h.waiting]
    exact hs.positive

theorem Finishes.partitioned {pMsg : CSendMsg} {fate : Fate} (h : Finishes s s' pMsg fate)
    (hs : s.Partitioned) : s'.Partitioned := by
  refine ⟨?_, ?_, ?_, ?_⟩
  · rw [h.accepted, h.done, hs.accepted, h.waiting]
    simp
  · rw [h.datagrams, h.done, hs.datagrams, sentBodies_append]
  · intro m errno hm
    rw [h.done] at hm
    rcases List.mem_append.mp hm with hm | hm
    · exact hs.hard m errno hm
    · cases List.mem_singleton.mp hm
      exact h.hard errno rfl
  · intro m hm
    exact hs.positive m (by rw [h.waiting]; exact List.mem_cons_of_mem pMsg hm)

/-- What was done with and what was accepted stays so. -/
structure Grows (s s' : Outbox) : Prop where
  done : s.done <+: s'.done
  accepted : s.sender.accepted <+: s'.sender.accepted

theorem Grows.refl (s : Outbox) : Grows s s := ⟨List.prefix_rfl, List.prefix_rfl⟩

theorem Grows.trans {s'' : Outbox} (h : Grows s s') (h' : Grows s' s'') : Grows s s'' :=
  ⟨h.done.trans h'.done, h.accepted.trans h'.accepted⟩

theorem attempt_partitioned (h : s.Partitioned) (o : Sendto) :
    (s.attempt o.result).2.Partitioned ∧ Grows s (s.attempt o.result).2 := by
  rcases attempt_cases h.positive o with hsame | ⟨pMsg, fate, hfin⟩
  · exact ⟨hsame.partitioned h, hsame.done ▸ List.prefix_rfl, hsame.accepted ▸ List.prefix_rfl⟩
  · exact ⟨hfin.partitioned h, hfin.done ▸ List.prefix_append _ _, hfin.accepted ▸ List.prefix_rfl⟩

theorem sendLoop_partitioned (h : s.Partitioned) (outcomes : Nat → Sendto) (n ii : Nat)
    (retValue : Int) :
    (s.sendLoop (fun k => (outcomes k).result) n ii retValue).2.Partitioned ∧
      Grows s (s.sendLoop (fun k => (outcomes k).result) n ii retValue).2 := by
  induction n generalizing ii retValue s with
  | zero => exact ⟨h, .refl s⟩
  | succ n ih =>
    obtain ⟨hone, hgrow⟩ := attempt_partitioned h (outcomes ii)
    simp only [sendLoop]
    split
    · exact ⟨hone, hgrow⟩
    · obtain ⟨hrest, hgrow'⟩ := ih hone (ii + 1) (s.attempt (outcomes ii).result).1
      exact ⟨hrest, hgrow.trans hgrow'⟩

theorem put_partitioned (h : s.Partitioned) (pBuf : Option CSendMsg) :
    (s.apply (.put pBuf)).Partitioned ∧ Grows s (s.apply (.put pBuf)) := by
  cases pBuf with
  | none => exact ⟨h, .refl s⟩
  | some pMsg =>
    by_cases hz : pMsg.getLen = 0
    · have hsame : s.apply (.put (some pMsg)) = s := by
        simp only [apply, Sender.putMsgToSendList, if_pos hz]
      rw [hsame]
      exact ⟨h, .refl s⟩
    · have hacc : (s.apply (.put (some pMsg))).sender.accepted = s.sender.accepted ++ [pMsg] := by
        simp only [apply, Sender.putMsgToSendList, if_neg hz]
      have hwait : (s.apply (.put (some pMsg))).sender.task.waiting =
          s.sender.task.waiting ++ [pMsg] := by
        simp only [apply, Sender.putMsgToSendList, if_neg hz, CBaseTask.waiting, List.append_assoc]
      refine ⟨⟨?_, h.datagrams, h.hard, ?_⟩, List.prefix_rfl, ?_⟩
      · rw [hacc, hwait, h.accepted, List.append_assoc]
        rfl
      · intro m hm
        rw [hwait] at hm
        rcases List.mem_append.mp hm with hm | hm
        · exact h.positive m hm
        · rw [List.mem_singleton.mp hm]
          exact Nat.pos_of_ne_zero hz
      · rw [hacc]
        exact List.prefix_append _ _

theorem step_partitioned {op : Op} (h : s.Partitioned) (hs : step s op s') :
    s'.Partitioned ∧ Grows s s' := by
  obtain rfl := hs
  cases op with
  | put pBuf => exact put_partitioned h pBuf
  | sendProcess outcomes => exact sendLoop_partitioned h outcomes _ _ _

theorem run_partitioned {ops : List Op} (h : s.Partitioned) (hs : Steps step s ops s') :
    s'.Partitioned ∧ Grows s s' :=
  hs.invariant (P := fun t => t.Partitioned ∧ Grows s t)
    (fun _ _ _ ht hstep =>
      ⟨(step_partitioned ht.1 hstep).1, ht.2.trans (step_partitioned ht.1 hstep).2⟩)
    ⟨h, .refl s⟩

theorem fresh_partitioned : fresh.Partitioned :=
  ⟨rfl, rfl, (fun _ _ hm => nomatch hm), (fun _ hm => nomatch hm)⟩

/-- **At most once, in order.** In every state a run reaches, the accepted messages are those done
    with, then the current one, then the queued ones; the datagrams are the whole bodies of those
    that were sent, and the others were dropped for an error that is no reason to try again. And
    from there on, whatever became of the messages so far: those done with next are the ones that
    wait and the ones accepted later, in that order, and the datagrams the bodies of those of them
    that are sent. -/
theorem delivery_of_run {ops : List Op} {s : Outbox} (h : Steps step fresh ops s) :
    s.sender.accepted = s.done.map Prod.fst ++
        (s.sender.task.pCurSendMsg.toList ++ s.sender.task.sendList) ∧
      s.datagrams = sentBodies s.done ∧
      (∀ pMsg errno, (pMsg, .dropped errno) ∈ s.done → errno.retry = false) ∧
      ∀ ops' s', Steps step s ops' s' → ∃ later new,
        s'.sender.accepted = s.sender.accepted ++ new ∧ s'.done = s.done ++ later ∧
        later.map Prod.fst <+: s.sender.task.waiting ++ new ∧
        s'.datagrams = s.datagrams ++ sentBodies later := by
  obtain ⟨hs, -⟩ := run_partitioned fresh_partitioned h
  refine ⟨hs.accepted, hs.datagrams, hs.hard, ?_⟩
  intro ops' s' hrun
  obtain ⟨hs', ⟨later, hlater⟩, ⟨new, hnew⟩⟩ := run_partitioned hs hrun
  refine ⟨later, new, hnew.symm, hlater.symm, ⟨s'.sender.task.waiting, ?_⟩, ?_⟩
  · have hacc := hs'.accepted
    rw [← hnew, ← hlater, hs.accepted, List.map_append, List.append_assoc,
      List.append_assoc] at hacc
    exact (List.append_cancel_left hacc).symm
  · rw [hs'.datagrams, hs.datagrams, ← hlater, sentBodies_append]

/-- Two messages: the first cannot be sent, the second goes out when tried again. -/
theorem delivery_of_run_two_messages :
    ∃ ops s, Steps step fresh ops s ∧ s.datagrams = [[2, 3]] ∧
      s.done.map Prod.snd = [.dropped .other, .sent] ∧
      s.sender.accepted = s.done.map Prod.fst ++
        (s.sender.task.pCurSendMsg.toList ++ s.sender.task.sendList) := by
  have hrun : Steps step fresh
      [.put (some ⟨[1], by decide⟩), .put (some ⟨[2, 3], by decide⟩), .sendProcess fun ii =>
        if ii = 0 then .error .other else if ii = 1 then .error .eagain else .whole .other] _ :=
    .cons rfl (.cons rfl (.single rfl))
  exact ⟨_, _, hrun, by decide, by decide, (delivery_of_run hrun).1⟩

end Outbox

end WebsocketTest
