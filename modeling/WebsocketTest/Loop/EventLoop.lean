import WebsocketTest.Lib.Heap
import WebsocketTest.Lib.Run
import WebsocketTest.Sys

/-!
# The event loop and its tasks (`myepoll.cpp`, `basetask.cpp`, `mytask.cpp`, `common.h`)

What lives when, and who holds which descriptor. A task is a `CAcceptTask`, a `CLongConTask` or a
`CUdpTask`; of its members the model keeps `m_iSocket` and `m_iTimeOut`, and what it reads and
writes is left out: that a `RecvProcess` or `SendProcess` failed is an input here.

* Tasks are on a `Lib.Heap`, so a pointer to a task that was deleted stays recognisable. Calling
  `HandleProcess` through one, or deleting it again, is a `Fault`: what the program does from there
  on is not defined, and a run ends.
* The kernel is the set of open descriptors and, for each, the task it is registered with. Closing
  a descriptor unregisters it. `accept` and `socket` return -1 or a descriptor that was not open.
* `EpollWait` is two kinds of step: `epollWait`, which fetches a batch of registered tasks, and a
  `dispatch` for each entry, which sees the world as the entries before left it. Whatever else the
  program does with tasks it does between two calls of `EpollWait`.

Not modelled: `FD_SET` on a descriptor it has no bit for, and the assertion in `GetAddr`, which
stops a debug build that closes a `CAcceptTask`.

## What is an input, and what is a ghost

What a system call returns is chosen by the step, so that a run is any behaviour of the kernel that
its calls allow: a descriptor number is used again as soon as it was closed, and a batch may hold
any of the registered tasks with any events. `m_iTimeOut` of an accepted connection is an input too,
for its constructor leaves that member as it finds it in memory.

Two parts of the state are no part of the program's: `fault`, which is set where the program would
do something undefined, and `accepted`, the descriptor that a connection was accepted with. No
function reads them but to stop at a fault.
-/

set_option autoImplicit false

namespace WebsocketTest

open Lib Lib.Run

inductive TaskClass
  | acceptTask
  | longConTask (iTimeOut : Int)
  | udpTask
  deriving DecidableEq

/-- `accepted` is a ghost: the descriptor `accept` returned for the task, until `CloseConnect`. -/
structure LoopTask where
  cls : TaskClass
  iSocket : Int
  accepted : Option Int

/-- A call through, or a `delete` of, a task that was deleted before. -/
inductive Fault
  | handleProcess (pTask : Nat)
  | delete (pTask : Nat)
  deriving DecidableEq

structure EventLoop where
  tasks : Heap LoopTask
  opened : Int → Bool
  epoll : Int → Option Nat
  pInstance : Option Nat
  batch : List (Nat × Events)
  /-- The `close` calls on a descriptor that was not open. -/
  badCloses : List Int
  fault : Option Fault

/-- What the system calls of one `CreateListenSocket` or `CreateBindSocket` come to. -/
structure SetUp where
  iSocket : Int
  bound : Bool
  listening : Bool

/-- One turn of the accept loop: what `accept` returned, what `m_iTimeOut` of the task made for it
    happens to hold, and what `socket` returns if that is called. -/
structure Accepted where
  iSocket : Int
  iTimeOut : Int
  socket : Int

/-- What one `HandleProcess` meets: the turns of an accept loop, or what the task's `RecvProcess`
    and `SendProcess` return. -/
structure Outcome where
  accepts : List Accepted
  recvRet : Int
  sendRet : Int

/-- What the program does with tasks between two calls of `EpollWait`. -/
inductive LoopCall
  | newTask (cls : TaskClass)
  | createListenSocket (pTask : Nat) (r : SetUp)
  | createBindSocket (pTask : Nat) (r : SetUp)
  | init (pTask : Nat) (socket : Int)
  | closeConnect (pTask : Nat)
  | destroySelf (pTask : Nat)
  | delete (pTask : Nat)

inductive LoopOp
  | call (c : LoopCall)
  | epollWait (ready : List (Int × Events))
  | dispatch (o : Outcome)

namespace EventLoop

/-- The program at its start. -/
def start : EventLoop := ⟨.empty, fun _ => false, fun _ => none, none, [], [], none⟩

/-- `GetSocket()`; there is none where there is no task. -/
def socketOf (w : EventLoop) (pTask : Nat) : Int :=
  match w.tasks.cell pTask with
  | some task => task.iSocket
  | none => -1

def classOf (w : EventLoop) (pTask : Nat) : Option TaskClass :=
  (w.tasks.cell pTask).map (·.cls)

/-- The task has not been destroyed. -/
def Live (w : EventLoop) (pTask : Nat) : Prop := (w.tasks.cell pTask).isSome

instance (w : EventLoop) (pTask : Nat) : Decidable (w.Live pTask) :=
  inferInstanceAs (Decidable (_ = true))

/-! ## The kernel

Four calls. That a closed descriptor is out of the epoll table at once is the kernel's behaviour for
a descriptor that was not duplicated, and nothing under the repository duplicates one. -/

/-- `accept` or `socket` returns `fd`: -1, or a descriptor that was not open. -/
def openFd (w : EventLoop) (fd : Int) : Option EventLoop :=
  if fd = -1 then some w
  else if 0 ≤ fd ∧ w.opened fd = false then
    some { w with opened := Function.update w.opened fd true }
  else none

def close (w : EventLoop) (fd : Int) : EventLoop :=
  if w.opened fd then
    { w with opened := Function.update w.opened fd false, epoll := Function.update w.epoll fd none }
  else { w with badCloses := w.badCloses ++ [fd] }

/-! ## `CEpoll`

Each call is made with the socket that the task has at that moment, which is not always the one it
was registered with. -/

def addToEpoll (w : EventLoop) (pTask : Nat) : EventLoop :=
  if w.opened (w.socketOf pTask) ∧ w.epoll (w.socketOf pTask) = none then
    { w with epoll := Function.update w.epoll (w.socketOf pTask) (some pTask) }
  else w

def modifyFromEpoll (w : EventLoop) (pTask : Nat) : EventLoop :=
  if (w.epoll (w.socketOf pTask)).isSome then
    { w with epoll := Function.update w.epoll (w.socketOf pTask) (some pTask) }
  else w

/-- `CBaseTask::DelFromEpoll`. -/
def delFromEpoll (w : EventLoop) (pTask : Nat) : EventLoop :=
  if w.socketOf pTask = -1 then w
  else { w with epoll := Function.update w.epoll (w.socketOf pTask) none }

/-! ## Tasks

A pointer is a number, and a task that is deleted leaves its number unused. So a stale pointer stays
stale, where in the program another task may come to lie in its place; either is undefined. -/

/-- A new task, at `w.tasks.next`. -/
def newTask (w : EventLoop) (task : LoopTask) : EventLoop :=
  { w with tasks := w.tasks.alloc task }

def setSocket (w : EventLoop) (pTask : Nat) (iSocket : Int) : EventLoop :=
  { w with tasks := w.tasks.modify pTask fun task => { task with iSocket := iSocket } }

def closeConnect (w : EventLoop) (pTask : Nat) : EventLoop :=
  let w := w.delFromEpoll pTask
  if w.socketOf pTask = -1 then w
  else
    let w := w.close (w.socketOf pTask)
    { w with tasks := w.tasks.modify pTask fun task => ⟨task.cls, -1, none⟩ }

/-- `~CBaseTask`, as far as the descriptor is concerned. -/
def destruct (w : EventLoop) (pTask : Nat) : EventLoop :=
  if w.socketOf pTask = -1 then w else w.close (w.socketOf pTask)

/-- `delete pTask`. -/
def delete (w : EventLoop) (pTask : Nat) : EventLoop :=
  match (w.destruct pTask).tasks.free pTask with
  | some tasks => { w.destruct pTask with tasks := tasks }
  | none => { w with fault := some (.delete pTask) }

def destroySelf (w : EventLoop) (pTask : Nat) : EventLoop := (w.closeConnect pTask).delete pTask

/-- `CMySingleton<CLongConTask>::SetInstance`. -/
def setInstance (w : EventLoop) (pTask : Nat) : EventLoop :=
  let w := match w.pInstance with
    -- whatever has become of it
    | some old => w.delete old
    | none => w
  { w with pInstance := some pTask }

/-- `CLongConTask::Connect`, as far as it goes for the descriptor: `connect` and `select` leave it
    as it is, whatever they answer. -/
def connect (w : EventLoop) (pTask : Nat) (nTimeOut socket : Int) : Option EventLoop :=
  if nTimeOut < 0 then some w else (w.openFd socket).map fun w => w.setSocket pTask socket

def longConInit (w : EventLoop) (pTask : Nat) (iTimeOut socket : Int) : Option EventLoop :=
  (w.connect pTask iTimeOut socket).map fun w => w.addToEpoll pTask

def createListenSocket (w : EventLoop) (pTask : Nat) (r : SetUp) : Option EventLoop :=
  (w.openFd r.iSocket).map fun w =>
    if r.iSocket < 0 then w
    else if ¬ r.bound then w.close r.iSocket
    -- `listen` failed: the function returns and the descriptor stays open
    else if ¬ r.listening then w
    else if r.iSocket = 0 then w
    else (w.setSocket pTask r.iSocket).addToEpoll pTask

def createBindSocket (w : EventLoop) (pTask : Nat) (r : SetUp) : Option EventLoop :=
  (w.openFd r.iSocket).map fun w =>
    if r.iSocket < 0 then w
    else if ¬ r.bound then w.close r.iSocket
    else if r.iSocket = 0 then w.setSocket pTask r.iSocket
    else (w.setSocket pTask r.iSocket).addToEpoll pTask

/-- A turn of the accept loop that has a descriptor. `CLongConTask(iSocket, m_pEpoll)` leaves
    `m_iTimeOut` as it finds it; `accept_num`, which is never counted up, stops nothing. -/
def acceptOne (w : EventLoop) (r : Accepted) : Option EventLoop :=
  let pTcpTask := w.tasks.next
  ((w.newTask ⟨.longConTask r.iTimeOut, r.iSocket, some r.iSocket⟩).longConInit pTcpTask r.iTimeOut
    r.socket).map fun w => w.setInstance pTcpTask

/-- The `while (1)` of `CAcceptTask::HandleProcess`. At the end of the list `accept` fails. -/
def acceptLoop (w : EventLoop) : List Accepted → Option EventLoop
  | [] => some w
  | r :: rs =>
    match w.openFd r.iSocket with
    | none => none
    | some w =>
      -- a descriptor 0 is taken for a failure
      if r.iSocket > 0 then
        match w.acceptOne r with
        | none => none
        | some w => if w.fault.isSome then some w else w.acceptLoop rs
      -- the loop is left, so there is no further turn
      else if rs.isEmpty then some w
      else none

/-- `CBaseTask::HandleProcess`. `SendProcess` returns 2 when it had nothing to send and took the
    task's interest in output back. -/
def baseHandleProcess (w : EventLoop) (pTask : Nat) (events : Events) (o : Outcome) : EventLoop :=
  let events := events.widen
  if events.epollin = true ∧ o.recvRet = -1 then w.destroySelf pTask
  else if events.epollout = true then
    if o.sendRet = -1 then w.destroySelf pTask
    else if o.sendRet = 2 then w.modifyFromEpoll pTask
    else w
  else w

/-- `HandleProcess`, by class. -/
def handleProcess (w : EventLoop) (pTask : Nat) (events : Events) (o : Outcome) :
    Option EventLoop :=
  match w.classOf pTask with
  | some .acceptTask => if events.epollin then w.acceptLoop o.accepts else some w
  | some _ => some (w.baseHandleProcess pTask events o)
  | none => some { w with fault := some (.handleProcess pTask) }

/-! ## Steps -/

def runCall (w : EventLoop) : LoopCall → Option EventLoop
  | .newTask cls => some (w.newTask ⟨cls, -1, none⟩)
  | .createListenSocket pTask r =>
    if w.classOf pTask = some .acceptTask then w.createListenSocket pTask r else none
  | .createBindSocket pTask r =>
    if w.classOf pTask = some .udpTask then w.createBindSocket pTask r else none
  | .init pTask socket =>
    match w.classOf pTask with
    | some (.longConTask iTimeOut) => w.longConInit pTask iTimeOut socket
    | some _ => some (w.addToEpoll pTask)
    | none => none
  | .closeConnect pTask => if w.Live pTask then some (w.closeConnect pTask) else none
  | .destroySelf pTask => if w.Live pTask then some (w.destroySelf pTask) else none
  | .delete pTask => if w.Live pTask then some (w.delete pTask) else none

/-- `epoll_wait`: each descriptor once, with the task it is registered with. -/
def epollWait (w : EventLoop) (ready : List (Int × Events)) : Option EventLoop :=
  if (ready.map (·.1)).Nodup ∧ ∀ e ∈ ready, (w.epoll e.1).isSome then
    some { w with batch := ready.filterMap fun e => (w.epoll e.1).map fun pTask => (pTask, e.2) }
  else none

def step (w : EventLoop) (op : LoopOp) : Option EventLoop :=
  if w.fault.isSome then none
  else
    match op, w.batch with
    | .call c, [] => w.runCall c
    | .epollWait ready, [] => w.epollWait ready
    | .dispatch o, e :: rest => { w with batch := rest }.handleProcess e.1 e.2 o
    | _, _ => none

/-! ## Conditions on a step

What the results on runs ask of each step. They are stated on the state before the step and its
inputs, with no look at what the step makes of them. -/

/-- The events and results on which `CBaseTask::HandleProcess` ends in `DestroySelf`. -/
def Destroys (events : Events) (o : Outcome) : Prop :=
  (events.widen.epollin = true ∧ o.recvRet = -1) ∨ (events.widen.epollout = true ∧ o.sendRet = -1)

/-- A set-up that comes to store a descriptor, or an `Init` that connects, finds its task without
    one. -/
def SetsUpEmpty (w : EventLoop) : LoopCall → Prop
  | .createListenSocket pTask r =>
    0 < r.iSocket → r.bound = true → r.listening = true → w.socketOf pTask = -1
  | .createBindSocket pTask r => 0 ≤ r.iSocket → r.bound = true → w.socketOf pTask = -1
  | .init pTask _ => ∀ iTimeOut, w.classOf pTask = some (.longConTask iTimeOut) → 0 ≤ iTimeOut →
      w.socketOf pTask = -1
  | _ => True

end EventLoop

end WebsocketTest
