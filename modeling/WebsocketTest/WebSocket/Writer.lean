import WebsocketTest.Lib.Run
import WebsocketTest.WebSocket.Prepare

/-!
# The write queue of a connection

What `connection` writes goes through `m_send_queue`. `write_frame` takes one message from it, gives
its two parts to the transport and holds `m_write_flag` until `handle_write_frame` is called, which
starts the next one. The transport has its own list of buffers, and writes all that is in it.

Whoever pushes a message and finds the flag down posts a `write_frame`; so several of them may be
waiting to run, and a `write_frame` may find the flag up or the queue empty. `posted` counts those
that wait, and `writing` has the writes that the transport has not finished, each with the flag that
was bound to its handler.

**`Writer.Inv`** — what holds whatever the order: one write at a time, of one message, in the order
of the queue, and as long as the queue is not empty something is on its way to empty it.

## Where the order could go wrong

The lock is held while the queue is looked at, and not while a write is under way. So the flag is
all that keeps two writes apart, and it is taken down in a handler that runs at a time of the
transport's choosing. Two things are to be feared: a `write_frame` that runs too often, so that a
second message is given to the transport behind the first; and one that runs too seldom, so that a
message stays in the queue for ever. The first cannot happen because the flag is up from the time a
message is taken until its handler is called. The second cannot because whoever pushes with the flag
down posts a `write_frame`, and whoever ends a write with a queue that is not empty does as well;
`Inv` says so for every order of the steps.

What a write does is not modelled, only that it ends, with an error or without. Bytes that the
transport was given count as written.
-/

set_option autoImplicit false

namespace WebsocketTest.WebSocket

open Lib.Run

/-! ## The code -/

/-- The members of `connection`, and of the transport under it, that have to do with writing. What
    was pushed and what was written are kept in the order in which it was. -/
structure Writer where
  sendQueue : List Prepared := []
  sendBufferSize : Nat := 0
  writeFlag : Bool := false
  currentMsg : Option Prepared := none
  sendBuffer : List (List UInt8) := []
  bufs : List (List UInt8) := []
  posted : Nat := 0
  writing : List Bool := []
  pushed : List Prepared := []
  written : List (List (List UInt8)) := []

/-- How a write ends for the connection: it goes on, or it is to be shut down because the frame was
    the last one, or because the write failed. -/
inductive WriteEnd
  | next
  | terminate
  | failed
  deriving DecidableEq, Repr

namespace Writer

/-- `write_push` -/
def writePush (w : Writer) (m : Prepared) : Writer :=
  { w with
    sendBufferSize := w.sendBufferSize + m.payload.length
    sendQueue := w.sendQueue ++ [m]
    pushed := w.pushed ++ [m] }

/-- `write_pop` -/
def writePop (w : Writer) : Option Prepared × Writer :=
  match w.sendQueue with
  | [] => (none, w)
  | m :: ms =>
    (some m, { w with sendBufferSize := w.sendBufferSize - m.payload.length, sendQueue := ms })

/-- `dispatch` of a `write_frame` -/
def dispatch (w : Writer) : Writer := { w with posted := w.posted + 1 }

/-- What is done with a prepared message wherever there is one. The source has these lines once in
    each of `send`, `ping`, `pong` and `send_close_frame`. -/
def push (w : Writer) (m : Prepared) : Writer :=
  let w := w.writePush m
  let needsWriting := ¬ w.writeFlag ∧ w.sendQueue ≠ []
  if needsWriting then w.dispatch else w

/-- The `async_write` of the transport. -/
def asyncWrite (w : Writer) (terminal : Bool) : Writer :=
  let bufs := w.bufs ++ w.sendBuffer
  { w with bufs := bufs, writing := w.writing ++ [terminal], written := w.written ++ [bufs] }

/-- `write_frame` -/
def writeFrame (w : Writer) : Writer :=
  if w.writeFlag then w
  else match w.writePop with
    | (none, w) => { w with currentMsg := none }
    | (some m, w) =>
      asyncWrite
        { w with
          currentMsg := some m
          writeFlag := true
          sendBuffer := w.sendBuffer ++ [m.header, m.payload] }
        m.terminal

/-- `handle_async_write` and `handle_write_frame`, with how it ends. -/
def handleWriteFrame (w : Writer) (terminal failed : Bool) : WriteEnd × Writer :=
  let w := { w with bufs := [], sendBuffer := [], currentMsg := none }
  if failed then (.failed, w)
  else if terminal then (.terminate, w)
  else
    let w := { w with writeFlag := false }
    let needsWriting := w.sendQueue ≠ []
    (.next, if needsWriting then w.dispatch else w)

/-! ## Steps -/

inductive Op
  | push (m : Prepared)
  | writeFrame
  | done (failed : Bool)
  deriving DecidableEq, Repr

/-- A `write_frame` runs if one was posted, and a write ends if one was begun. -/
def step (w : Writer) : Op → Option (WriteEnd × Writer)
  | .push m => some (.next, w.push m)
  | .writeFrame =>
    if 0 < w.posted then some (.next, { w with posted := w.posted - 1 }.writeFrame) else none
  | .done failed =>
    match w.writing with
    | [] => none
    | terminal :: writing =>
      some ({ w with writing := writing }.handleWriteFrame terminal failed)

def Steps : Writer → List Op → Writer → Prop :=
  Lib.Run.Steps fun w op w' => ∃ e, w.step op = some (e, w')

/-! ## The invariant -/

/-- The two parts that go to the transport. -/
def parts (m : Prepared) : List (List UInt8) := [m.header, m.payload]

/-- The number of bytes of payload that wait. -/
def waiting (ms : List Prepared) : Nat := (ms.map fun m => m.payload.length).sum

/-- What holds of a writer: `ms` are the messages that were given to the transport. That the list is
    named is for the proofs only, each of which says what it is after a step. -/
structure InvOf (w : Writer) (ms : List Prepared) : Prop where
  pushed : w.pushed = ms ++ w.sendQueue
  written : w.written = ms.map parts
  size : w.sendBufferSize = waiting w.sendQueue
  idle : w.writing = [] → w.bufs = [] ∧ w.sendBuffer = [] ∧ w.currentMsg = none
  busy : w.writing ≠ [] → ∃ m, ms.getLast? = some m ∧ w.currentMsg = some m ∧
    w.writing = [m.terminal] ∧ w.writeFlag = true
  free : w.writeFlag = false → ∀ m ∈ ms, m.terminal = false
  terminal : ∀ m ∈ ms.dropLast, m.terminal = false

/-- The messages were written one by one, the rest of them is in the queue, and something is on its
    way to write it. -/
def Inv (w : Writer) : Prop :=
  (∃ ms, w.InvOf ms) ∧ (w.sendQueue ≠ [] → w.writeFlag = true ∨ 0 < w.posted)

theorem inv_new : ({} : Writer).Inv :=
  ⟨⟨[], rfl, rfl, rfl, fun _ => ⟨rfl, rfl, rfl⟩, fun h => absurd rfl h, nofun, nofun⟩,
    fun h => absurd rfl h⟩

variable {w w' : Writer} {ms : List Prepared}

theorem waiting_append (ms ms' : List Prepared) :
    waiting (ms ++ ms') = waiting ms + waiting ms' := by
  simp [waiting]

theorem waiting_cons (m : Prepared) (ms : List Prepared) :
    waiting (m :: ms) = m.payload.length + waiting ms := by
  simp [waiting]

/-- A push leaves everything else alone, but for the `write_frame` that it may post. -/
theorem push_eq (w : Writer) (m : Prepared) :
    w.push m = { w.writePush m with posted := w.posted + if w.writeFlag then 0 else 1 } := by
  cases hflag : w.writeFlag <;> simp [push, writePush, dispatch, hflag]

theorem InvOf.push (h : w.InvOf ms) (m : Prepared) : (w.push m).Inv := by
  rw [push_eq]
  refine ⟨⟨ms, ?_, h.written, ?_, h.idle, h.busy, h.free, h.terminal⟩, fun _ => ?_⟩
  · show w.pushed ++ [m] = ms ++ (w.sendQueue ++ [m])
    rw [h.pushed, List.append_assoc]
  · show w.sendBufferSize + m.payload.length = waiting (w.sendQueue ++ [m])
    rw [h.size, waiting_append, waiting_cons]
    rfl
  · cases hflag : w.writeFlag
    · exact .inr (by simp)
    · exact .inl hflag

/-- With the flag up a `write_frame` does nothing, so that one too many does no harm. -/
theorem writeFrame_of_flag (h : w.writeFlag = true) : w.writeFrame = w := by
  rw [writeFrame, if_pos h]

/-- With the flag down it gives the transport the next message, and puts the flag up. -/
theorem writeFrame_cons {m : Prepared} {queue : List Prepared} (h : w.writeFlag = false)
    (hq : w.sendQueue = m :: queue) (hbufs : w.bufs = []) (hbuffer : w.sendBuffer = []) :
    w.writeFrame = { w with
      sendQueue := queue
      sendBufferSize := w.sendBufferSize - m.payload.length
      currentMsg := some m
      writeFlag := true
      sendBuffer := parts m
      bufs := parts m
      writing := w.writing ++ [m.terminal]
      written := w.written ++ [parts m] } := by
  rw [writeFrame, if_neg (by simp [h]), writePop, hq]
  simp [asyncWrite, hbufs, hbuffer, parts]

theorem InvOf.writeFrame (h : w.InvOf ms) : w.writeFrame.Inv := by
  cases hflag : w.writeFlag with
  | true =>
    rw [writeFrame_of_flag hflag]
    exact ⟨⟨ms, h⟩, fun _ => .inl hflag⟩
  | false =>
    have hidle : w.writing = [] := by
      by_contra hne
      obtain ⟨-, -, -, -, hup⟩ := h.busy hne
      rw [hflag] at hup
      cases hup
    obtain ⟨hbufs, hbuffer, hcurrent⟩ := h.idle hidle
    cases hq : w.sendQueue with
    | nil =>
      have heq : w.writeFrame = { w with currentMsg := none } := by
        simp [Writer.writeFrame, writePop, hflag, hq]
      rw [heq]
      exact ⟨⟨ms, h.pushed, h.written, h.size, fun _ => ⟨hbufs, hbuffer, rfl⟩,
        fun hne => absurd hidle hne, h.free, h.terminal⟩, fun hne => absurd hq hne⟩
    | cons m queue =>
      rw [writeFrame_cons hflag hq hbufs hbuffer]
      refine ⟨⟨ms ++ [m], ?_, ?_, ?_, ?_, ?_, nofun, ?_⟩, fun _ => .inl rfl⟩
      · show w.pushed = ms ++ [m] ++ queue
        rw [h.pushed, hq, List.append_assoc]
        rfl
      · show w.written ++ [parts m] = (ms ++ [m]).map parts
        rw [h.written, List.map_append]
        rfl
      · show w.sendBufferSize - m.payload.length = waiting queue
        rw [h.size, hq, waiting_cons, Nat.add_sub_cancel_left]
      · intro hnil
        exact absurd (List.append_eq_nil_iff.mp hnil).2 (List.cons_ne_nil _ _)
      · intro _
        refine ⟨m, List.getLast?_concat, rfl, ?_, rfl⟩
        show w.writing ++ [m.terminal] = [m.terminal]
        rw [hidle, List.nil_append]
      · rw [List.dropLast_concat]
        exact h.free hflag

/-- The end of a write leaves nothing of it behind. -/
theorem InvOf.done (h : w.InvOf ms) {terminal : Bool} {rest : List Bool}
    (hw : w.writing = terminal :: rest) (failed : Bool) :
    (({ w with writing := rest } : Writer).handleWriteFrame terminal failed).2.Inv := by
  obtain ⟨m, hlast, hcurrent, hone, hflag⟩ := h.busy (by rw [hw]; exact List.cons_ne_nil _ _)
  have hrest : rest = [] := by
    rw [hw] at hone
    exact (List.cons.inj hone).2
  subst hrest
  have hterminal : terminal = m.terminal := by
    rw [hw] at hone
    exact (List.cons.inj hone).1
  have hstop : ({ w with
      writing := [], bufs := [], sendBuffer := [], currentMsg := none } : Writer).InvOf ms :=
    ⟨h.pushed, h.written, h.size, fun _ => ⟨rfl, rfl, rfl⟩, fun hne => absurd rfl hne, h.free,
      h.terminal⟩
  unfold handleWriteFrame
  cases failed with
  | true => exact ⟨⟨ms, hstop⟩, fun _ => .inl hflag⟩
  | false =>
    cases terminal with
    | true => exact ⟨⟨ms, hstop⟩, fun _ => .inl hflag⟩
    | false =>
      simp only [Bool.false_eq_true, if_false]
      -- The write that has ended was not the last one, and no other was before it.
      have hall : ∀ m' ∈ ms, m'.terminal = false := by
        intro m' hm'
        rw [← List.dropLast_append_getLast? m hlast] at hm'
        rcases List.mem_append.mp hm' with hbefore | hmem
        · exact h.terminal m' hbefore
        · rw [List.mem_singleton.mp hmem, hterminal]
      have hnext : ∀ n, ({ w with
          writing := [], bufs := [], sendBuffer := [], currentMsg := none, writeFlag := false,
          posted := n } : Writer).InvOf ms :=
        fun n => ⟨h.pushed, h.written, h.size, fun _ => ⟨rfl, rfl, rfl⟩, fun hne => absurd rfl hne,
          fun _ => hall, h.terminal⟩
      split
      · exact ⟨⟨ms, hnext _⟩, fun _ => .inr (Nat.succ_pos _)⟩
      · next hq => exact ⟨⟨ms, hnext _⟩, fun hne => absurd hne hq⟩

/-- **Every operation keeps the invariant**, whatever the order they come in. -/
theorem Inv.step (h : w.Inv) {op : Op} {e : WriteEnd} (hstep : w.step op = some (e, w')) :
    w'.Inv := by
  obtain ⟨⟨ms, h⟩, -⟩ := h
  cases op with
  | push m =>
    cases hstep
    exact h.push m
  | writeFrame =>
    rw [Writer.step] at hstep
    split at hstep
    · cases hstep
      have hposted : ({ w with posted := w.posted - 1 } : Writer).InvOf ms :=
        ⟨h.pushed, h.written, h.size, h.idle, h.busy, h.free, h.terminal⟩
      exact hposted.writeFrame
    · cases hstep
  | done failed =>
    rw [Writer.step] at hstep
    cases hw : w.writing with
    | nil =>
      rw [hw] at hstep
      cases hstep
    | cons terminal rest =>
      rw [hw] at hstep
      obtain rfl : _ = w' := congrArg Prod.snd (Option.some.inj hstep)
      exact h.done hw failed

theorem step_push (w : Writer) (m : Prepared) : w.step (.push m) = some (.next, w.push m) := rfl

/-! ## What the connection uses of it -/

/-- What was written stays written, and only a push adds to what was pushed. -/
theorem step_grows {op : Op} {e : WriteEnd} (hstep : w.step op = some (e, w')) :
    w.written <+: w'.written ∧ ((∀ m, op ≠ .push m) → w'.pushed = w.pushed) := by
  cases op with
  | push m =>
    cases hstep
    rw [push_eq]
    exact ⟨List.prefix_rfl, fun hop => absurd rfl (hop m)⟩
  | writeFrame =>
    rw [Writer.step] at hstep
    split at hstep
    · cases hstep
      unfold Writer.writeFrame writePop
      split
      · exact ⟨List.prefix_rfl, fun _ => rfl⟩
      · cases w.sendQueue with
        | nil => exact ⟨List.prefix_rfl, fun _ => rfl⟩
        | cons m queue => exact ⟨List.prefix_append _ _, fun _ => rfl⟩
    · cases hstep
  | done failed =>
    rw [Writer.step] at hstep
    cases hw : w.writing with
    | nil =>
      rw [hw] at hstep
      cases hstep
    | cons terminal rest =>
      rw [hw] at hstep
      obtain rfl : _ = w' := congrArg Prod.snd (Option.some.inj hstep)
      unfold handleWriteFrame
      dsimp only
      split
      · exact ⟨List.prefix_rfl, fun _ => rfl⟩
      · split
        · exact ⟨List.prefix_rfl, fun _ => rfl⟩
        · split <;> exact ⟨List.prefix_rfl, fun _ => rfl⟩

/-- As long as no write was the last one, the flag is up for a write. -/
def Held (w : Writer) : Prop := w.writeFlag = true → w.writing ≠ []

theorem Held.step (h : w.Held) {op : Op} (hstep : w.step op = some (.next, w')) : w'.Held := by
  cases op with
  | push m =>
    cases hstep
    rw [push_eq]
    exact h
  | writeFrame =>
    rw [Writer.step] at hstep
    split at hstep
    · cases hstep
      unfold Writer.writeFrame
      split
      · exact h
      · unfold writePop
        cases w.sendQueue with
        | nil => exact h
        | cons m queue =>
          intro _ hnil
          exact absurd (List.append_eq_nil_iff.mp hnil).2 (List.cons_ne_nil _ _)
    · cases hstep
  | done failed =>
    rw [Writer.step] at hstep
    cases hw : w.writing with
    | nil =>
      rw [hw] at hstep
      cases hstep
    | cons terminal rest =>
      rw [hw] at hstep
      -- the flag goes down with the end of a write, so that there is nothing to hold
      have hdown : w'.writeFlag = false := by
        simp only [handleWriteFrame] at hstep
        split at hstep
        · cases hstep
        · split at hstep
          · cases hstep
          · obtain rfl : _ = w' := congrArg Prod.snd (Option.some.inj hstep)
            dsimp only
            split <;> rfl
      intro hup
      rw [hdown] at hup
      cases hup

end Writer

end WebsocketTest.WebSocket
