import WebsocketTest.Buffer
import WebsocketTest.Message
import WebsocketTest.Sys

/-!
# `CTcpTask::RecvProcess` (`mytask.cpp`)

The receive half of a TCP task: a buffer, and a two-state parser that remembers between calls
the length it has read but not yet received. Frames are `2(totallen)` and then the message; the
prefix counts itself.

One call is one `recv` and then the `while` loop over what the buffer holds. `turn` is one pass of
that loop, with the `switch` falling through from `ReadPacketLen` into `ReadPacket`; `parse` is the
loop. The loop is unbounded in the source and gets fuel here. The fuel `recvProcess` hands it is
never used up on a task a run can reach (`parse_inShape`, `Tcp/Turn.lean`), so `spin` is not an
outcome of a run; it is there because a task in an arbitrary state really can loop for ever.
-/

set_option autoImplicit false

namespace WebsocketTest

open Lib.Memory Lib.Integers

inductive TcpState
  | readPacketLen
  | readPacket
  deriving DecidableEq

/-- The members of a `CTcpTask` that receiving uses. What it inherits from `CBaseTask` is the send
    half, which no function of this module reads or writes. -/
structure CTcpTask where
  vReceiveBuffer : CVBuffer
  iDataSize : Int
  iTotalPackLen : Int
  state : TcpState

/-- How a call ends: with a return value, inside an undefined copy, or not at all. -/
inductive Exit
  | ret (r : Int)
  | fault
  | spin
  deriving DecidableEq

/-- One call: the task it leaves, the messages it handed to `PutMsgToList`, and its end. -/
structure Call where
  task : CTcpTask
  msgs : List CSendMsg
  exit : Exit

/-- One pass of the loop: it returns, it is undefined, or it handed on a packet and goes on. -/
inductive Turn
  | ret (r : Int) (t : CTcpTask)
  | fault (t : CTcpTask)
  | packet (pMsg : CSendMsg) (t : CTcpTask)

namespace CTcpTask

/-- The constructor, over uninitialised buffer memory `mem`. -/
def new (mem : Nat → UInt8) : CTcpTask := ⟨.new mem, 0, 0, .readPacketLen⟩

/-- The `int` on the left is converted to the `unsigned int` on the right. -/
def packetFinished (t : CTcpTask) : Bool :=
  decide (toU32 t.iTotalPackLen ≤ t.vReceiveBuffer.getSize)

/-- `none` when the message cannot be built, see `CSendMsg.new`. -/
def processOnePacket (t : CTcpTask) : Option (CSendMsg × CTcpTask) :=
  (CSendMsg.new t.iDataSize t.vReceiveBuffer.buffer t.vReceiveBuffer.jumpBuffer).map fun pMsg =>
    (pMsg, { t with vReceiveBuffer := (t.vReceiveBuffer.jump (toU32 t.iDataSize)).alignBuf })

/-- `case ReadPacket`. -/
def readPacket (t : CTcpTask) : Turn :=
  if t.packetFinished then
    match t.processOnePacket with
    | some (pMsg, t') => .packet pMsg { t' with state := .readPacketLen }
    | none => .fault t
  else .ret 1 t

/-- `case ReadPacketLen`: what it returns with, or the task that falls through into `case
    ReadPacket`. `iLen` keeps its initial 0 if `Get` fails. -/
def readPacketLen (t : CTcpTask) : Except (Int × CTcpTask) CTcpTask :=
  if t.vReceiveBuffer.getSize < 2 then .error (1, t)
  else
    let (tData, b) := t.vReceiveBuffer.getType 2
    let iLen := (tData.map hostLoad).getD 0
    let t := { t with vReceiveBuffer := b, iTotalPackLen := ntohs iLen }
    if t.iTotalPackLen > 400 * 1024 * 1024 ∨ t.iTotalPackLen ≤ 0 then .error (-1, t)
    -- the difference is a `size_t`, of which the member, a `short`, keeps the low 16 bits
    else .ok { t with state := .readPacket, iDataSize := toS16 (t.iTotalPackLen - 2) }

/-- The `switch` up to `case ReadPacket`. -/
def enterReadPacket (t : CTcpTask) : Except (Int × CTcpTask) CTcpTask :=
  match t.state with
  | .readPacketLen => t.readPacketLen
  | .readPacket => .ok t

/-- The body of the `while` loop. -/
def turn (t : CTcpTask) : Turn :=
  match t.enterReadPacket with
  | .error (r, t') => .ret r t'
  | .ok t' => t'.readPacket

/-- `while (m_vReceiveBuffer.getSize()) { … }` and the `return 0` behind it. -/
def parse : Nat → CTcpTask → Call
  | 0, t => ⟨t, [], .spin⟩
  | n + 1, t =>
    if t.vReceiveBuffer.getSize = 0 then ⟨t, [], .ret 0⟩
    else
      match t.turn with
      | .ret r t' => ⟨t', [], .ret r⟩
      | .fault t' => ⟨t', [], .fault⟩
      | .packet pMsg t' =>
        let c := parse n t'
        { c with msgs := pMsg :: c.msgs }

/-- `uMaxReceive`, the most bytes one `recv` is asked for. -/
def uMaxReceive (t : CTcpTask) : Nat := toU32 (maxCVBufferSize - t.vReceiveBuffer.getSize : Int)

/-- The task after `recv` stored `bs` where `JumpBuffer` points, and `AddDataSize`. -/
def store (t : CTcpTask) (bs : List UInt8) : CTcpTask :=
  let b := t.vReceiveBuffer
  { t with vReceiveBuffer :=
      { b with buffer := write b.buffer b.jumpBuffer bs }.addDataSize bs.length }

def recvProcess (t : CTcpTask) : RecvResult → Call
  | .error errno => ⟨t, [], .ret (if errno.retry then 0 else -1)⟩
  | .bytes bs =>
    -- the peer closed the connection, unless there was no room to ask for a byte
    if bs.length = 0 ∧ t.uMaxReceive ≠ 0 then ⟨t, [], .ret (-1)⟩
    else parse ((t.store bs).vReceiveBuffer.getSize + 1) (t.store bs)

end CTcpTask

/-! ## A connection, call after call

`HandleProcess` destroys a task whose `RecvProcess` returned -1 (`basetask.cpp`), and a task whose
call was undefined, or never came back, has no behaviour left to speak of. -/

inductive Conn
  | live (t : CTcpTask)
  | closed
  | lost

/-- What a call leaves of the connection. -/
def Call.conn (c : Call) : Conn :=
  match c.exit with
  | .ret r => if r = -1 then .closed else .live c.task
  | .fault | .spin => .lost

/-- A connection and every message it has handed on so far. -/
structure Receiver where
  conn : Conn
  msgs : List CSendMsg

namespace Receiver

/-- A task on which nothing was received yet. -/
def fresh (mem : Nat → UInt8) : Receiver := ⟨.live (.new mem), []⟩

/-- One `RecvProcess` call, if there is still a task to call it on. -/
def call (s : Receiver) (r : RecvResult) : Receiver :=
  match s.conn with
  | .live t => ⟨(t.recvProcess r).conn, s.msgs ++ (t.recvProcess r).msgs⟩
  | .closed | .lost => s

/-- The kernel's side of `recv`: it never returns more than it was asked for. -/
def Fits (t : CTcpTask) : RecvResult → Prop
  | .bytes bs => bs.length ≤ t.uMaxReceive
  | .error _ => True

/-- The calls a live connection can make. -/
def step (s : Receiver) (r : RecvResult) (s' : Receiver) : Prop :=
  ∃ t, s.conn = .live t ∧ Fits t r ∧ s' = s.call r

end Receiver

end WebsocketTest
