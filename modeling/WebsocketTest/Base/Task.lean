import WebsocketTest.Lib.Run
import WebsocketTest.Message
import WebsocketTest.Sys

/-!
# `CBaseTask` — the send half of a task (`basetask.cpp`, `SendData` in `mytask.cpp`)

A task keeps the messages it was given in `m_sendList`, the one it is sending in `m_pCurSendMsg`
and how much of that went out in `m_iCurSendLen`. `SendProcess` is called when epoll reports the
descriptor writable and makes up to `m_nSendNum` attempts.

`SendData` is virtual. A `SendMethod` is an implementation of it; the repository has two, the TCP
and the UDP one.

`Sender` is a task in its event loop: the task, the entry epoll has for its descriptor, and three
ghosts: the bytes the kernel took, the messages `PutMsgToSendList` took, and, once `SendData` has
failed for good, the bytes the kernel had taken by then.

What `send` returns and sets `errno` to is an input of each attempt, so that a run is any behaviour
of the socket: it may take one byte at a time, or refuse for as long as it likes. Its only rule is
that it takes no more than it is given.

A `SendMethod` must not answer 2 (`retValue_ne`). The base class uses that value for a list with
nothing in it, and switches off `EPOLLOUT` on seeing it. Both implementations of the repository meet
the rule, and the results of `Delivery.lean` that are about any method use nothing else of one.
-/

set_option autoImplicit false

namespace WebsocketTest

open Lib.Integers Lib.Run

/-- The members of a `CBaseTask` that sending uses. -/
structure CBaseTask where
  sendList : List CSendMsg
  iCurSendLen : Nat
  pCurSendMsg : Option CSendMsg
  nSendNum : Nat

/-- One `SendData`: `[0, Ok] [1, ReTry] [-1, error]`, the task, and the bytes the kernel took. -/
structure SendDone where
  retValue : Int
  task : CBaseTask
  sent : List UInt8

namespace CBaseTask

/-- The constructor: nothing to send, and 20 attempts in a call. -/
def new : CBaseTask := ⟨[], 0, none, 20⟩

def getMsgFromSendList (t : CBaseTask) : Option CSendMsg × CBaseTask :=
  match t.sendList with
  | [] => (none, t)
  | pMsg :: rest => (some pMsg, { t with sendList := rest })

/-- Something is left to send, whether or not its sending has begun. -/
def Pending (t : CBaseTask) : Prop := t.sendList ≠ [] ∨ t.pCurSendMsg ≠ none

instance (t : CBaseTask) : Decidable t.Pending := inferInstanceAs (Decidable (_ ∨ _))

end CBaseTask

/-! ## `SendData` -/

/-- `CTcpTask::SendData`, on a task whose `m_pCurSendMsg` is `pMsg`. -/
def CTcpTask.sendData (t : CBaseTask) (pMsg : CSendMsg) (r : SendResult) : SendDone :=
  let sendLen := toU32 ((pMsg.getLen : Int) - t.iCurSendLen)
  let retLen := r.retLen sendLen
  if retLen > 0 then
    let sent := (pMsg.sendBody.drop t.iCurSendLen).take retLen.toNat
    let iCurSendLen := u32 (t.iCurSendLen + toU32 retLen)
    if iCurSendLen = pMsg.getLen then ⟨0, { t with pCurSendMsg := none, iCurSendLen := 0 }, sent⟩
    else ⟨1, { t with iCurSendLen := iCurSendLen }, sent⟩
  -- a return value of 0 comes here too, with whatever `errno` was before
  else if r.errno.retry then ⟨1, t, []⟩
  else ⟨-1, t, []⟩

/-- `CUdpTask::SendData`: every attempt starts the message over, and a hard error drops it. -/
def CUdpTask.sendData (t : CBaseTask) (pMsg : CSendMsg) (r : SendResult) : SendDone :=
  let t := { t with iCurSendLen := 0 }
  let sendLen := toU32 ((pMsg.getLen : Int) - t.iCurSendLen)
  let retLen := r.retLen sendLen
  if retLen > 0 then
    let sent := (pMsg.sendBody.drop t.iCurSendLen).take retLen.toNat
    let iCurSendLen := u32 (t.iCurSendLen + toU32 retLen)
    if iCurSendLen = pMsg.getLen then ⟨0, { t with pCurSendMsg := none, iCurSendLen := 0 }, sent⟩
    else ⟨1, { t with iCurSendLen := iCurSendLen }, sent⟩
  else if r.errno.retry then ⟨1, t, []⟩
  else ⟨0, { t with pCurSendMsg := none }, []⟩

/-- A virtual `SendData`: its answer is never the one `SendProcess` gives for an empty list. -/
structure SendMethod where
  sendData : CBaseTask → CSendMsg → SendResult → SendDone
  retValue_ne : ∀ t pMsg r, (sendData t pMsg r).retValue ≠ 2

def CTcpTask.sendMethod : SendMethod where
  sendData := CTcpTask.sendData
  retValue_ne t pMsg r := by
    simp only [CTcpTask.sendData]
    split <;> split <;> simp

def CUdpTask.sendMethod : SendMethod where
  sendData := CUdpTask.sendData
  retValue_ne t pMsg r := by
    simp only [CUdpTask.sendData]
    split <;> split <;> simp

/-! ## A task in its loop -/

structure Sender where
  task : CBaseTask
  interest : Interest
  wire : List UInt8
  accepted : List CSendMsg
  failedAt : Option (List UInt8)
  destroyed : Bool

namespace Sender

def fresh : Sender := ⟨.new, none, [], [], none, false⟩

/-- `SendData` called on the current message. -/
def sendData (M : SendMethod) (r : SendResult) (s : Sender) (pMsg : CSendMsg) : Int × Sender :=
  let d := M.sendData s.task pMsg r
  let wire := s.wire ++ d.sent
  (d.retValue, { s with
    task := d.task
    wire := wire
    failedAt := if d.retValue = -1 then s.failedAt <|> some wire else s.failedAt })

/-- The body of the loop in `SendProcess`. -/
def attempt (M : SendMethod) (r : SendResult) (s : Sender) : Int × Sender :=
  match s.task.pCurSendMsg with
  | some pMsg => s.sendData M r pMsg
  | none =>
    match s.task.getMsgFromSendList with
    | (some pMsg, t) => { s with task := { t with pCurSendMsg := some pMsg } }.sendData M r pMsg
    | (none, _) => (2, { s with interest := s.interest.modify Events.input })

/-- `while (ii < m_nSendNum)`, with `n` attempts left; attempt `ii` has the result `rs ii`. -/
def sendLoop (M : SendMethod) (rs : Nat → SendResult) : Nat → Nat → Int → Sender → Int × Sender
  | 0, _, retValue, s => (retValue, s)
  | n + 1, ii, _, s =>
    let (retValue, s') := s.attempt M (rs ii)
    if retValue = 2 ∨ retValue = -1 then (retValue, s') else sendLoop M rs n (ii + 1) retValue s'

def sendProcess (M : SendMethod) (rs : Nat → SendResult) (s : Sender) : Int × Sender :=
  s.sendLoop M rs s.task.nSendNum 0 0

/-- `PutMsgToSendList`; `none` is `NULL`. -/
def putMsgToSendList (pBuf : Option CSendMsg) (s : Sender) : Int × Sender :=
  match pBuf with
  | none => (-1, s)
  | some pMsg =>
    if pMsg.getLen = 0 then (-1, s)
    else
      (0, { s with
        task := { s.task with sendList := s.task.sendList ++ [pMsg] }
        interest := s.interest.modify Events.input.withOut
        accepted := s.accepted ++ [pMsg] })

/-- `CBaseTask::Init`, which is `AddToEpoll`. -/
def init (s : Sender) : Sender :=
  let tmpEvent := if s.task.Pending then Events.input.withOut else Events.input
  { s with interest := s.interest.add tmpEvent }

/-- `DestroySelf`: the descriptor leaves epoll, and the task is gone with its messages. -/
def destroySelf (s : Sender) : Sender := { s with interest := none, destroyed := true }

/-- `HandleProcess`; `recvRet` is what the virtual `RecvProcess` returns. -/
def handleProcess (M : SendMethod) (events : Events) (recvRet : Int) (rs : Nat → SendResult)
    (s : Sender) : Int × Sender :=
  let events := events.widen
  if events.epollin ∧ recvRet = -1 then (-1, s.destroySelf)
  else if events.epollout then
    let (ret, s') := s.sendProcess M rs
    if ret = -1 then (-1, s'.destroySelf) else (0, s')
  else (0, s)

/-- What can happen to a task, in any order. `SendProcess` is called by `HandleProcess` alone, which
    is this call with `EPOLLOUT` for its events. -/
inductive Op
  | init
  | put (pBuf : Option CSendMsg)
  | handle (events : Events) (recvRet : Int) (rs : Nat → SendResult)

def apply (M : SendMethod) (s : Sender) : Op → Sender
  | .init => s.init
  | .put pBuf => (s.putMsgToSendList pBuf).2
  | .handle events recvRet rs => (s.handleProcess M events recvRet rs).2

/-- Calls on a task that was not destroyed. -/
def step (M : SendMethod) (s : Sender) (op : Op) (s' : Sender) : Prop :=
  s.destroyed = false ∧ s' = s.apply M op

end Sender

end WebsocketTest
