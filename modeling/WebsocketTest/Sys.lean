import WebsocketTest.Lib.Integers

/-!
# System calls, as the tasks see them

What a call can come back with, and the part of the kernel's state the tasks rely on: the interest
set that epoll keeps for a descriptor. Which of the possible results a call has is an input of
every model here.
-/

set_option autoImplicit false

namespace WebsocketTest

open Lib.Integers

/-- The values of `errno` the tasks tell apart. -/
inductive Errno
  | eagain
  | eintr
  | other
  deriving DecidableEq

/-- `errno == EAGAIN || errno == EINTR`. -/
def Errno.retry : Errno → Bool
  | .eagain | .eintr => true
  | .other => false

/-- What a `recv` comes back with: the bytes it stored (none is the return value 0), or -1. -/
inductive RecvResult
  | bytes (bs : List UInt8)
  | error (errno : Errno)

/-- What a `send` or `sendto` comes back with: -1, or the number of bytes the kernel has room for,
    of those it is given. `errno` is its value afterwards, which a success leaves alone. -/
structure SendResult where
  room : Option Nat
  errno : Errno

/-- The return value, as the `int` the callers keep it in. -/
def SendResult.retLen (r : SendResult) (sendLen : Nat) : Int :=
  match r.room with
  | some n => toS32 (min n sendLen : Nat)
  | none => -1

/-! ## epoll -/

/-- `EPOLLIN`, `EPOLLOUT`, `EPOLLERR` and `EPOLLHUP`, of the event bits. -/
structure Events where
  epollin : Bool
  epollout : Bool
  epollerr : Bool
  epollhup : Bool
  deriving DecidableEq

/-- `EPOLLIN`. -/
def Events.readable : Events := ⟨true, false, false, false⟩

/-- `EPOLLERR|EPOLLHUP|EPOLLIN`. -/
def Events.input : Events := ⟨true, false, true, true⟩

/-- `tmpEvent|EPOLLOUT`. -/
def Events.withOut (e : Events) : Events := { e with epollout := true }

/-- `events | EPOLLIN | EPOLLOUT` if there was an error or a hangup, with which `HandleProcess`
    begins. -/
def Events.widen (e : Events) : Events :=
  if e.epollerr || e.epollhup then { e with epollin := true, epollout := true } else e

/-- What epoll keeps for one descriptor: nothing, or the events it was asked for. -/
abbrev Interest := Option Events

namespace Interest

/-- `EPOLL_CTL_ADD`: `EEXIST` if there is an entry. -/
def add (i : Interest) (e : Events) : Interest := some (i.getD e)

/-- `EPOLL_CTL_MOD`: `ENOENT` if there is none. -/
def modify (i : Interest) (e : Events) : Interest := i.map fun _ => e

end Interest

end WebsocketTest
