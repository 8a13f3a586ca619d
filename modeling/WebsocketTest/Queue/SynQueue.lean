import Mathlib.Tactic.Common

/-!
# `CSynQueue` — the queue between the threads (`synqueue_t.h`)

A deque with a mutex, and two semaphores counted outside it: `m_sem_write` counts free places,
`m_sem_read` elements to fetch. Each operation is three atomic steps, a wait, a locked section and
a post, and they are separate definitions here: one caller alone runs them in a row (`put`,
`putPri`, `get`), several interleave them (`Queue/Concurrent.lean`).

An element is a `T*`, so `none` is an element too: `NULL`. `get` answers with it when it finds the
deque empty.

The semaphores are counters with an upper end, `SEM_VALUE_MAX`, and a post at the end fails. Neither
`put` nor `get` looks at what a post returns. That the end is never reached is part of what the
invariant in `Concurrent.lean` gives.
-/

set_option autoImplicit false

namespace WebsocketTest

universe u

/-- `MAX_QUEUE_SIZE`. -/
abbrev maxQueueSize : Nat := 512000

/-- `CQUE_PRI_HIGH`. -/
abbrev cquePriHigh : Int := 1

/-- `SEM_VALUE_MAX`. -/
abbrev semValueMax : Nat := 2147483647

/-- `sem_wait`, which returns once it has decremented; `none` while it cannot. -/
def semWait (v : Nat) : Option Nat := if v = 0 then none else some (v - 1)

/-- `sem_post`; `EOVERFLOW` at the top. -/
def semPost (v : Nat) : Int × Nat := if v < semValueMax then (0, v + 1) else (-1, v)

structure CSynQueue (α : Type u) where
  maxsize : Nat
  semRead : Nat
  semWrite : Nat
  queue : List (Option α)

namespace CSynQueue

variable {α : Type u}

def new : CSynQueue α := ⟨maxQueueSize, 0, maxQueueSize - 1, []⟩

/-! ## The atomic steps -/

def waitWrite (q : CSynQueue α) : Option (CSynQueue α) :=
  (semWait q.semWrite).map fun v => { q with semWrite := v }

def waitRead (q : CSynQueue α) : Option (CSynQueue α) :=
  (semWait q.semRead).map fun v => { q with semRead := v }

/-- The locked section of `put(pMsg)`. -/
def pushBack (pMsg : Option α) (q : CSynQueue α) : CSynQueue α :=
  { q with queue := q.queue ++ [pMsg] }

/-- The locked section of `put(pMsg, pri)`. There is no other branch. -/
def pushPri (pMsg : Option α) (pri : Int) (q : CSynQueue α) : CSynQueue α :=
  if cquePriHigh = pri then { q with queue := pMsg :: q.queue } else q

/-- The locked section of `get`. -/
def popFront (q : CSynQueue α) : Option α × CSynQueue α :=
  match q.queue with
  | [] => (none, q)
  | pMsg :: rest => (pMsg, { q with queue := rest })

def postRead (q : CSynQueue α) : Int × CSynQueue α :=
  let (ret, v) := semPost q.semRead
  (ret, { q with semRead := v })

def postWrite (q : CSynQueue α) : Int × CSynQueue α :=
  let (ret, v) := semPost q.semWrite
  (ret, { q with semWrite := v })

/-! ## The operations of one caller

`none` is a call that waits, for ever if nobody else calls. -/

def put (q : CSynQueue α) (pMsg : Option α) : Option (Int × CSynQueue α) :=
  q.waitWrite.map fun q => (q.pushBack pMsg).postRead

def putPri (q : CSynQueue α) (pMsg : Option α) (pri : Int) : Option (Int × CSynQueue α) :=
  q.waitWrite.map fun q => (q.pushPri pMsg pri).postRead

def get (q : CSynQueue α) : Option (Option α × CSynQueue α) :=
  q.waitRead.map fun q => (q.popFront.1, q.popFront.2.postWrite.2)

/-! ## What each step does -/

variable {q q' : CSynQueue α}

theorem waitWrite_eq_some :
    q.waitWrite = some q' ↔ 0 < q.semWrite ∧ q' = { q with semWrite := q.semWrite - 1 } := by
  unfold waitWrite semWait
  split
  · simp; omega
  · simp only [Option.map_some, Option.some.injEq]
    exact ⟨fun h => ⟨by omega, h.symm⟩, fun h => h.2.symm⟩

theorem waitRead_eq_some :
    q.waitRead = some q' ↔ 0 < q.semRead ∧ q' = { q with semRead := q.semRead - 1 } := by
  unfold waitRead semWait
  split
  · simp; omega
  · simp only [Option.map_some, Option.some.injEq]
    exact ⟨fun h => ⟨by omega, h.symm⟩, fun h => h.2.symm⟩

theorem postRead_of_lt (h : q.semRead < semValueMax) :
    q.postRead = (0, { q with semRead := q.semRead + 1 }) := by
  simp only [postRead, semPost, if_pos h]

theorem postWrite_of_lt (h : q.semWrite < semValueMax) :
    q.postWrite = (0, { q with semWrite := q.semWrite + 1 }) := by
  simp only [postWrite, semPost, if_pos h]

/-- An empty deque is left alone, and its first element is `NULL`. -/
theorem popFront_eq (q : CSynQueue α) :
    q.popFront = (q.queue.head?.join, { q with queue := q.queue.tail }) := by
  obtain ⟨_, _, _, queue⟩ := q
  cases queue <;> rfl

end CSynQueue

end WebsocketTest
