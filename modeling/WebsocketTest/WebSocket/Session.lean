import Mathlib.Logic.Relation
import WebsocketTest.WebSocket.Connection

/-!
# What a connection does

`Move` has the few things that can be done to a connection, and `step_cases` says that every event
is a move of the reader (`Reads`) and then some of these. What holds of every run is shown for the
moves, one by one.

**`pump`** — what was put on the queue is written, in that order and each message once, one write at
a time; and nothing gets stuck there unless a write was the last one.
**`closing`** — behind a close frame come only close frames, and the ones behind the first say that
the other endpoint broke the protocol.

## Why there are moves

A time round the loop of `handle_read_frame` may call a handler, which may call `send` and `close`
any number of times, and then answer a ping or a close frame, close because of an error, or give up.
A statement about runs that was proved event by event would have to go through all of that once for
each statement. So it is gone through once (`step_cases`): whatever an event is, the reader does its
part, and then a number of moves is made, of which there are seven. `Moves.invariant` and
`invariant_steps` carry over to events and to runs what is shown of the moves.

`Move` has a parameter, the predicate `ok` on what the application asks for. Here it is `True`; the
modules on two endpoints take one that says that the messages can be sent. What a connection sends
by itself has to be `ok` too (`Allows`).
-/

set_option autoImplicit false

namespace WebsocketTest.WebSocket

open Lib.Run Lib.Utf8

/-! ## The moves -/

/-- What is asked for is a close frame. -/
def Outgoing.isClose : Outgoing → Bool
  | close .. => true
  | _ => false

namespace Connection

/-- Nothing has changed but for the local close code, the error and the timers. No result of this
    development speaks of these, so that a step that touches nothing else counts as none. -/
structure Quiet (c c' : Connection) : Prop where
  isServer : c'.isServer = c.isServer
  keys : c'.keys = c.keys
  processor : c'.processor = c.processor
  state : c'.state = c.state
  remoteCloseCode : c'.remoteCloseCode = c.remoteCloseCode
  remoteCloseReason : c'.remoteCloseReason = c.remoteCloseReason
  writer : c'.writer = c.writer
  reading : c'.reading = c.reading
  shutdowns : c'.shutdowns = c.shutdowns
  finished : c'.finished = c.finished
  asked : c'.asked = c.asked
  received : c'.received = c.received

/-- A close frame came from whose payload the code or the reason cannot be extracted. It is the one
    case in which a connection sends a close frame though it has sent one before. -/
def Broken (c : Connection) : Prop :=
  ∃ m ∈ c.received, m.opcode = .close ∧
    ((Close.extractCode m.payload).2.isSome ∨ (Close.extractReason m.payload).2.isSome)

/-- What is done to a connection, where the application sends what is `ok`. -/
inductive Move (ok : Outgoing → Prop) : Connection → Connection → Prop
  | quiet {c c' : Connection} (h : Quiet c c') : Move ok c c'
  | push {c : Connection} {o : Outgoing} {m : Prepared} (hstate : c.state = .opened) (hok : ok o)
      (hopen : o.isClose = false) (hprepare : o.prepare c.isServer (c.keys 0) = .ok m) :
      Move ok c (c.push o m)
  | close {c : Connection} {code : UInt16} {reason : List UInt8} {m : Prepared} {terminal : Bool}
      (hwhy : c.state = .opened ∨ code = Close.protocolError ∧ c.Broken)
      (hok : ok (.close code reason))
      (hprepare : prepareClose c.isServer (c.keys 0) code reason = .ok m) :
      Move ok c
        ({ c with state := .closing }.push (.close code reason) { m with terminal := terminal })
  | terminate {c : Connection} {tstat : TerminateStatus} (hstate : c.state ≠ .closed) :
      Move ok c { c with state := .closed, shutdowns := c.shutdowns ++ [tstat] }
  | write {c : Connection} {op : Writer.Op} {w : Writer} (hop : ∀ m, op ≠ .push m)
      (hstep : c.writer.step op = some (.next, w)) : Move ok c { c with writer := w }
  | last {c : Connection} {failed : Bool} {w : Writer} {e : WriteEnd}
      (hstep : c.writer.step (.done failed) = some (e, w)) (hlast : e ≠ .next) :
      Move ok c ({ c with writer := w }.handleWriteEnd e)
  | shutdown {c : Connection} {tstat : TerminateStatus} {shutdowns : List TerminateStatus}
      (h : c.shutdowns = tstat :: shutdowns) :
      Move ok c ({ c with shutdowns := shutdowns }.handleTerminate tstat)

/-- What a connection sends by itself is `ok`: its pongs, and close frames with texts in them. -/
structure Allows (ok : Outgoing → Prop) : Prop where
  pong : ∀ payload, ok (.pong payload)
  close : ∀ code cs, ok (.close code (encode cs))

/-- Any number of moves, one after the other. -/
abbrev Moves (ok : Outgoing → Prop) : Connection → Connection → Prop :=
  Relation.ReflTransGen (Move ok)

variable {ok : Outgoing → Prop} {c c' c₁ : Connection}

theorem Move.moves (h : Move ok c c') : Moves ok c c' := .single h

theorem Moves.invariant {P : Connection → Prop} (hmove : ∀ c c', P c → Move ok c c' → P c')
    (h : Moves ok c c') (hc : P c) : P c' := by
  induction h with
  | refl => exact hc
  | tail _ hmv ih => exact hmove _ _ ih hmv

/-! ## What the functions do -/

theorem moves_sendOpen {o : Outgoing} (hok : ok o) (hopen : o.isClose = false) :
    Moves ok c (c.sendOpen o).2 := by
  unfold sendOpen
  split
  · exact .refl
  · next hstate =>
    split
    · exact .refl
    · next m hprepare => exact (Move.push (not_not.mp hstate) hok hopen hprepare).moves

theorem moves_sendCloseFrame {code : UInt16} {reason : List UInt8} {ack terminal : Bool}
    (hwhy : c.state = .opened ∨ code = Close.protocolError ∧ c.Broken)
    (hok : ok (.close (c.closeWith code reason ack).1 (c.closeWith code reason ack).2)) :
    Moves ok c (c.sendCloseFrame code reason ack terminal).2 := by
  have hcode : c.state = .opened ∨
      (c.closeWith code reason ack).1 = Close.protocolError ∧ c.Broken := by
    refine hwhy.imp_right ?_
    rintro ⟨rfl, hbroken⟩
    exact ⟨by rw [closeWith, if_pos (by decide)], hbroken⟩
  unfold sendCloseFrame
  dsimp only
  split
  · exact Move.moves (.quiet (by constructor <;> rfl))
  · next m hprepare =>
    have hquiet : Quiet c { c with
        localCloseCode := (c.closeWith code reason ack).1
        localCloseReason := (c.closeWith code reason ack).2
        timers := c.timers + 1 } := by
      constructor <;> rfl
    refine .trans (Move.quiet hquiet).moves (Move.moves ?_)
    exact .close hcode hok hprepare

theorem moves_close {code : UInt16} {reason : List UInt8} (hallows : Allows ok)
    (hok : ok (.close code (reason.take closeReasonSize))) :
    Moves ok c (c.close code reason).2 := by
  unfold close
  split
  · exact .refl
  · next hstate =>
    refine moves_sendCloseFrame (.inl (not_not.mp hstate)) ?_
    unfold closeWith
    split
    · exact hok
    · exact hallows.close _ []

/-- The close frame that says that the other endpoint broke the protocol. -/
theorem moves_sendCloseAck {reason : List UInt8} (hbroken : c.Broken) (hallows : Allows ok)
    (hreason : ∃ cs, reason = encode cs) :
    Moves ok c (c.sendCloseAck Close.protocolError reason).2 := by
  obtain ⟨cs, rfl⟩ := hreason
  refine moves_sendCloseFrame (.inr ⟨rfl, hbroken⟩) ?_
  rw [closeWith, if_pos (by decide)]
  exact hallows.close _ cs

theorem moves_terminate {ec : Option ErrorCode} : Moves ok c (c.terminate ec) := by
  have hend : ∀ c₁ : Connection, Moves ok c₁ (c₁.terminate none) := by
    intro c₁
    unfold terminate
    dsimp only
    split
    · next hs =>
      have hopen : c₁.state ≠ .closed := by simp [hs]
      exact (Move.terminate hopen).moves
    · exact .refl
    · next hclosed => exact (Move.terminate hclosed).moves
  cases ec with
  | none => exact hend c
  | some e =>
    have hquiet : Quiet c { c with
        ec := some e
        localCloseCode := Close.abnormalClose
        localCloseReason := bytesOf e.message } := by
      constructor <;> rfl
    exact .trans (Move.quiet hquiet).moves (hend _)

theorem validate_texts : validate (bytesOf "Invalid close code") = true ∧
    validate (bytesOf "Invalid close reason") = true ∧
    ∀ e : Error, validate ((bytesOf e.message).take closeReasonSize) = true := by
  refine ⟨by decide, by decide, fun e => ?_⟩
  cases e <;> decide

/-! ## What an event does -/

/-- What is recorded of a message: of a close frame, its code and its reason. -/
def record (r : UInt16 × List UInt8) (m : Message) : UInt16 × List UInt8 :=
  if m.opcode = .close then
    ((Close.extractCode m.payload).1,
      if (Close.extractCode m.payload).2.isSome then r.2 else (Close.extractReason m.payload).1)
  else r

/-- The code and the reason after a message, or after none. -/
def remote (c : Connection) (msg : Option Message) : UInt16 × List UInt8 :=
  msg.toList.foldl record (c.remoteCloseCode, c.remoteCloseReason)

/-- The connection after the reader has done its part: the processor, where `handle_read_frame` is,
    and the message that was handed out. -/
def readTo (c : Connection) (p : Hybi13) (r : Reading) (msg : Option Message) : Connection :=
  { c with
    processor := p
    reading := r
    received := c.received ++ msg.toList
    remoteCloseCode := (c.remote msg).1
    remoteCloseReason := (c.remote msg).2 }

theorem readTo_none (c : Connection) (p : Hybi13) (r : Reading) :
    c.readTo p r none = { c with processor := p, reading := r } := by
  simp [readTo, remote]

theorem readTo_of_not_close {p : Hybi13} {r : Reading} {m : Message} (h : m.opcode ≠ .close) :
    c.readTo p r (some m) =
      { c with processor := p, reading := r, received := c.received ++ [m] } := by
  simp [readTo, remote, record, h]

theorem moves_processControlFrame (c : Connection) (m : Message) (pong : Bool)
    (hallows : Allows ok) :
    Moves ok (c.readTo c.processor c.reading (some m))
      ({ c with received := c.received ++ [m] }.processControlFrame m pong) := by
  have hmem : m ∈ c.received ++ [m] := List.mem_append_right _ (.head _)
  unfold processControlFrame
  split
  · next hop =>
    rw [readTo_of_not_close (by rw [hop]; nofun)]
    split
    · exact moves_sendOpen (hallows.pong _) rfl
    · exact .refl
  · next hop =>
    rw [readTo_of_not_close (by rw [hop]; nofun)]
  · next hop =>
    have hread : c.readTo c.processor c.reading (some m) = { c with
        received := c.received ++ [m]
        remoteCloseCode := (Close.extractCode m.payload).1
        remoteCloseReason := if (Close.extractCode m.payload).2.isSome then c.remoteCloseReason
          else (Close.extractReason m.payload).1 } := by
      simp [readTo, remote, record, hop]
    rw [hread]
    dsimp only
    split
    · next hcode =>
      exact moves_sendCloseAck ⟨m, hmem, hop, .inl hcode⟩ hallows (validate_iff.mp validate_texts.1)
    · split
      · next hreason =>
        exact moves_sendCloseAck ⟨m, hmem, hop, .inr hreason⟩ hallows
          (validate_iff.mp validate_texts.2.1)
      · next hreason =>
        split
        · next hs =>
          -- The reason is sent back, and it is a text.
          obtain ⟨cs, hcs⟩ : ∃ cs, (Close.extractReason m.payload).1 = encode cs := by
            rw [← validate_iff]
            by_contra hnot
            exact hreason (by simp [Close.extractReason] at hnot ⊢; exact hnot)
          refine moves_sendCloseFrame (.inl hs) ?_
          rw [closeWith, if_neg (by decide), if_neg (by decide)]
          split
          · exact hallows.close _ []
          · dsimp only
            rw [hcs]
            exact hallows.close _ cs
        · split
          · exact moves_terminate
          · exact .refl
        · exact .refl
  · next hop _ hclose =>
    rw [readTo_of_not_close hclose]

/-- What the application sends with a call. -/
def Call.Ok (ok : Outgoing → Prop) : Call → Prop
  | .send payload op => ok (.data op payload)
  | .ping payload => ok (.ping payload)
  | .pong payload => ok (.pong payload)
  | .close code reason => ok (.close code (reason.take closeReasonSize))

theorem moves_call {k : Call} (hallows : Allows ok) (hok : k.Ok ok) :
    Moves ok c (c.call k).2 := by
  cases k with
  | send payload op => exact moves_sendOpen hok rfl
  | ping payload => exact moves_sendOpen hok rfl
  | pong payload => exact moves_sendOpen hok rfl
  | close code reason => exact moves_close hallows hok

theorem moves_callAll {calls : List Call} (hallows : Allows ok) (hok : ∀ k ∈ calls, k.Ok ok) :
    Moves ok c (c.callAll calls) := by
  induction calls generalizing c with
  | nil => exact .refl
  | cons k calls ih =>
    exact .trans (moves_call hallows (hok k (.head _))) (ih fun k' hk' => hok k' (.tail _ hk'))

theorem moves_handleWriteEnd {failed : Bool} {e : WriteEnd} {w : Writer}
    (hstep : c.writer.step (.done failed) = some (e, w)) :
    Moves ok c ({ c with writer := w }.handleWriteEnd e) := by
  by_cases hlast : e = .next
  · subst hlast
    exact (Move.write (fun m hm => by cases hm) hstep).moves
  · exact (Move.last hstep hlast).moves

/-- What an event does to the reader. -/
inductive Reads (c : Connection) : Event → Hybi13 → Reading → Option Message → Prop
  | idle {e : Event} (hread : ∀ buf, e ≠ .read buf) (hround : ∀ calls pong, e ≠ .round calls pong) :
      Reads c e c.processor c.reading none
  | read {buf : List UInt8} (hasked : c.reading = .asked) :
      Reads c (.read buf) c.processor (.buffered buf) none
  | again {calls : List Call} {pong : Bool} (hdone : c.reading = .buffered []) :
      Reads c (.round calls pong) c.processor .asked none
  | round {buf rest : List UInt8} {calls : List Call} {pong : Bool} {p : Hybi13}
      (hbuf : c.reading = .buffered buf) (hne : buf ≠ [])
      (hconsume : c.processor.consume buf = .ok (p, rest)) (hready : ¬ p.isReady = true) :
      Reads c (.round calls pong) p (.buffered rest) none
  | message {buf rest : List UInt8} {calls : List Call} {pong : Bool} {p : Hybi13}
      (hbuf : c.reading = .buffered buf) (hne : buf ≠ [])
      (hconsume : c.processor.consume buf = .ok (p, rest)) (hready : p.isReady = true) :
      Reads c (.round calls pong) p.getMessage.2 (.buffered rest) p.getMessage.1
  | stop {e : Event} : Reads c e c.processor .stopped none

/-- An event in which the application asks only for what is `ok`, in a call of its own or in a
    handler. -/
def Event.Ok (ok : Outgoing → Prop) : Event → Prop
  | .call k => k.Ok ok
  | .round calls _ => ∀ k ∈ calls, k.Ok ok
  | _ => True

theorem moves_dispatch {m : Message} {calls : List Call} {pong : Bool}
    (hcalls : ∀ k ∈ calls, k.Ok ok) (hallows : Allows ok) :
    Moves ok (c.readTo c.processor c.reading (some m)) (c.dispatch m calls pong) := by
  unfold dispatch
  dsimp only
  split
  · exact moves_processControlFrame _ _ _ hallows
  · next hop =>
    rw [readTo_of_not_close (fun hclose => hop (by rw [hclose]; rfl))]
    exact moves_callAll hallows hcalls

theorem round_cases {buf : List UInt8} {calls : List Call} {pong : Bool}
    (hbuf : c.reading = .buffered buf) (hne : buf ≠ []) (hcalls : ∀ k ∈ calls, k.Ok ok)
    (hallows : Allows ok) :
    ∃ p r msg, Reads c (.round calls pong) p r msg ∧
      Moves ok (c.readTo p r msg) (c.round buf calls pong) := by
  unfold round
  split
  · -- The exception leaves everything but the reading as it was.
    exact ⟨c.processor, .stopped, none, .stop, by rw [readTo_none]⟩
  · next e hconsume =>
    refine ⟨c.processor, .stopped, none, .stop, ?_⟩
    rw [readTo_none]
    have hclose : Moves ok { c with reading := .stopped }
        ({ c with reading := .stopped }.close e.toWs (bytesOf e.message)).2 := by
      obtain ⟨cs, hcs⟩ := validate_iff.mp (validate_texts.2.2 e)
      exact moves_close hallows (by rw [hcs]; exact hallows.close _ cs)
    dsimp only
    split
    · next ec c₁ hc₁ =>
      rw [hc₁] at hclose
      exact .trans hclose moves_terminate
    · next c₁ hc₁ =>
      rw [hc₁] at hclose
      exact hclose
  · next p rest hconsume =>
    by_cases hready : p.isReady = true
    · refine ⟨_, _, _, .message hbuf hne hconsume hready, ?_⟩
      dsimp only
      rw [if_pos hready]
      cases hmsg : p.getMessage.1 with
      | none => rw [readTo_none]
      | some m =>
        exact moves_dispatch
          (c := { c with reading := .buffered rest, processor := p.getMessage.2 }) hcalls hallows
    · refine ⟨_, _, _, .round hbuf hne hconsume hready, ?_⟩
      dsimp only
      rw [if_neg hready, readTo_none]

/-- **What an event does**: its part of the reading, and then some moves. -/
theorem step_cases {e : Event} (h : c.step e = some c') (he : e.Ok ok) (hallows : Allows ok) :
    ∃ p r msg, Reads c e p r msg ∧ Moves ok (c.readTo p r msg) c' := by
  -- An event that reads nothing leaves the reader where it is; one that stops reading says so.
  have hidle : (∀ buf, e ≠ .read buf) → (∀ calls pong, e ≠ .round calls pong) → Moves ok c c' →
      ∃ p r msg, Reads c e p r msg ∧ Moves ok (c.readTo p r msg) c' := by
    intro hread hround hmoves
    exact ⟨_, _, _, .idle hread hround, by rw [readTo_none]; exact hmoves⟩
  have hstop : Moves ok { c with reading := .stopped } c' →
      ∃ p r msg, Reads c e p r msg ∧ Moves ok (c.readTo p r msg) c' := by
    intro hmoves
    exact ⟨_, _, _, .stop, by rw [readTo_none]; exact hmoves⟩
  cases e with
  | call k =>
    cases h
    exact hidle (by simp) (by simp) (moves_call hallows he)
  | read buf =>
    rw [step] at h
    split at h
    · next hasked =>
      cases h
      unfold handleReadFrame at hstop ⊢
      split
      · next hlong =>
        rw [if_pos hlong] at hstop
        exact hstop moves_terminate
      · exact ⟨_, _, _, .read hasked, by rw [readTo_none]⟩
    · cases h
  | readError e =>
    rw [step] at h
    split at h
    · cases h
      apply hstop
      unfold handleReadError
      dsimp only
      split
      · exact .refl
      · split <;> exact moves_terminate
    · cases h
  | round calls pong =>
    rw [step] at h
    split at h
    · next hbuf =>
      cases h
      exact ⟨_, _, _, .again hbuf, by rw [readTo_none]⟩
    · next buf hne hbuf =>
      cases h
      exact round_cases hbuf hne he hallows
    · cases h
  | writeFrame =>
    rw [step, Option.map_eq_some_iff] at h
    obtain ⟨⟨e, w⟩, hstep, rfl⟩ := h
    -- the loop of `write_frame` never ends the connection: only the end of a write does
    have hnext : e = .next := by
      rw [Writer.step] at hstep
      split at hstep <;> cases hstep
      rfl
    rw [hnext] at hstep
    have hop : ∀ m, Writer.Op.writeFrame ≠ .push m := by simp
    exact hidle (by simp) (by simp) (Move.write hop hstep).moves
  | written failed =>
    rw [step, Option.map_eq_some_iff] at h
    obtain ⟨⟨e, w⟩, hstep, rfl⟩ := h
    exact hidle (by simp) (by simp) (moves_handleWriteEnd hstep)
  | closeTimeout =>
    rw [step] at h
    split at h
    · cases h
      refine hidle (by simp) (by simp) (.trans (Move.moves (.quiet ?_)) moves_terminate)
      constructor <;> rfl
    · cases h
  | shutdown =>
    rw [step] at h
    split at h
    · cases h
    · next tstat shutdowns hs =>
      cases h
      exact hidle (by simp) (by simp) (Move.shutdown hs).moves

/-! ## Writing

The writer keeps its own invariant under its own steps. What is added is that a last write leads to
a shutdown: that is why a connection whose queue stays full is one that is being shut down. -/

/-- A shutdown of the transport has begun. -/
def Begun (c : Connection) : Prop := c.shutdowns ≠ [] ∨ c.finished ≠ []

theorem terminate_eq (ec : Option ErrorCode) : (c.terminate ec).writer = c.writer ∧
    (c.terminate ec).asked = c.asked ∧ (c.terminate ec).finished = c.finished ∧
    (c.terminate ec).received = c.received ∧ (c.terminate ec).state = .closed ∧
    (c.terminate ec).shutdowns = c.shutdowns ++
      match c.state with
      | .connecting => [.failed]
      | .closed => []
      | _ => [.closed] := by
  cases ec <;> cases hs : c.state <;> simp [terminate, hs]

/-- The last write ends the connection, whether it failed or its frame was terminal. -/
theorem handleWriteEnd_last (c : Connection) {e : WriteEnd} (hlast : e ≠ .next) :
    ∃ ec, c.handleWriteEnd e = c.terminate ec := by
  cases e with
  | next => exact absurd rfl hlast
  | terminate => exact ⟨none, rfl⟩
  | failed => exact ⟨some (.transport .passThrough), rfl⟩

/-- What holds of the writer of a connection. `held` is asked for as long as nothing was shut down:
    the flag that a last write leaves up is up for no write. -/
structure WriteInv (c : Connection) : Prop where
  writer : c.writer.Inv
  held : c.writer.Held ∨ c.Begun
  closed : c.state = .closed → c.Begun

theorem WriteInv.move (h : c.WriteInv) (hmove : Move ok c c') : c'.WriteInv := by
  cases hmove with
  | quiet hq =>
    constructor
    · rw [hq.writer]
      exact h.writer
    · rw [hq.writer, Begun, hq.shutdowns, hq.finished]
      exact h.held
    · rw [hq.state, Begun, hq.shutdowns, hq.finished]
      exact h.closed
  | @push o m _ _ _ _ =>
    have hstep : c.writer.step (.push m) = some (.next, c.writer.push m) := rfl
    exact ⟨h.writer.step hstep, h.held.imp_left fun hheld => hheld.step hstep, h.closed⟩
  | @close code reason m terminal _ _ _ =>
    have hstep : c.writer.step (.push { m with terminal := terminal }) =
      some (.next, c.writer.push { m with terminal := terminal }) := rfl
    exact ⟨h.writer.step hstep, h.held.imp_left fun hheld => hheld.step hstep, nofun⟩
  | terminate _ =>
    have hbegun : ∀ tstat : TerminateStatus, c.shutdowns ++ [tstat] ≠ [] := by simp
    exact ⟨h.writer, .inr (.inl (hbegun _)), fun _ => .inl (hbegun _)⟩
  | write _ hstep =>
    exact ⟨h.writer.step hstep, h.held.imp_left fun hheld => hheld.step hstep, h.closed⟩
  | @last failed w e hstep hlast =>
    -- The flag stays up for ever, but the connection is closed.
    have hinv := h.writer.step hstep
    obtain ⟨ec, hec⟩ := handleWriteEnd_last { c with writer := w } hlast
    obtain ⟨hwriter, -, hfin, -, -, hshut⟩ := { c with writer := w }.terminate_eq ec
    rw [hec]
    have hbegun : ({ c with writer := w }.terminate ec).Begun := by
      rw [Begun, hshut, hfin]
      cases hs : c.state with
      | closed => simpa [Begun] using h.closed hs
      | connecting => simp
      | opened => simp
      | closing => simp
    exact ⟨by rw [hwriter]; exact hinv, .inr hbegun, fun _ => hbegun⟩
  | shutdown hs =>
    have hfin : ∀ tstat : TerminateStatus, c.finished ++ [tstat] ≠ [] := by simp
    exact ⟨h.writer, .inr (.inr (hfin _)), fun _ => .inr (hfin _)⟩

theorem allows_true : Allows fun _ => True := ⟨fun _ => trivial, fun _ _ => trivial⟩

/-- What is kept by every move, and by the reader, is kept by every event. -/
theorem invariant_step {P : Connection → Prop}
    (hread : ∀ c p r msg, P c → P (c.readTo p r msg))
    (hmove : ∀ c c', P c → Move (fun _ => True) c c' → P c') {e : Event} (h : P c)
    (hstep : c.step e = some c') : P c' := by
  have hok : e.Ok fun _ => True := by
    have hcall : ∀ k : Call, k.Ok fun _ => True := by
      intro k
      cases k <;> trivial
    cases e with
    | call k => exact hcall k
    | round calls pong => exact fun k _ => hcall k
    | _ => trivial
  obtain ⟨p, r, msg, -, hmoves⟩ := step_cases hstep hok allows_true
  exact hmoves.invariant hmove (hread c p r msg h)

/-- What is kept by every move, and by the reader, is kept by every run. -/
theorem invariant_steps {P : Connection → Prop}
    (hread : ∀ c p r msg, P c → P (c.readTo p r msg))
    (hmove : ∀ c c', P c → Move (fun _ => True) c c' → P c') {es : List Event}
    (h : c.Steps es c') (hc : P c) : P c' := by
  have hstep : ∀ c e c', P c → Lib.Run.ofFn step c e c' → P c' :=
    fun _ _ _ hc hstep => invariant_step hread hmove hc hstep
  exact Lib.Run.Steps.invariant hstep h hc

/-- **The queue is written**, in every run: what was put on it, in that order and each message once,
    one write at a time, each of one frame, with nothing behind a frame that is terminal; and as
    long as there is something on the queue, a write is under way or about to begin, unless the
    connection is being shut down. -/
theorem pump {isServer : Bool} {keys : Nat → UInt32} {es : List Event}
    (h : (opened isServer keys).Steps es c) :
    (∃ ms, c.writer.pushed = ms ++ c.writer.sendQueue ∧
      c.writer.written = (ms.map fun m => [m.header, m.payload]) ∧
      ∀ m ∈ ms.dropLast, m.terminal = false) ∧
      c.writer.writing.length ≤ 1 ∧
      c.writer.sendBufferSize = (c.writer.sendQueue.map fun m => m.payload.length).sum ∧
      (c.writer.sendQueue ≠ [] →
        c.writer.writing ≠ [] ∨ 0 < c.writer.posted ∨ c.shutdowns ≠ [] ∨ c.finished ≠ []) := by
  have hinv : c.WriteInv := by
    refine invariant_steps ?_ ?_ h ⟨Writer.inv_new, .inl nofun, nofun⟩
    · exact fun c p r msg hc => ⟨hc.writer, hc.held, hc.closed⟩
    · exact fun c c' hc hmove => hc.move hmove
  obtain ⟨⟨ms, hms⟩, hway⟩ := hinv.writer
  refine ⟨⟨ms, hms.pushed, hms.written, hms.terminal⟩, ?_, hms.size, fun hq => ?_⟩
  · by_cases hw : c.writer.writing = []
    · rw [hw]
      exact Nat.zero_le 1
    · obtain ⟨m, -, -, hone, -⟩ := hms.busy hw
      rw [hone]
      exact Nat.le_refl 1
  · rcases hway hq with hflag | hposted
    · rcases hinv.held with hheld | hbegun
      · exact .inl (hheld hflag)
      · exact .inr (.inr hbegun)
    · exact .inr (.inl hposted)

/-- A message of a client that is on its way. -/
theorem pump_send : ∃ c, (opened false fun _ => 7).Steps
    [.call (.send [0x48] .text), .call (.ping []), .writeFrame] c ∧
      (∃ ms, c.writer.pushed = ms ++ c.writer.sendQueue ∧
        c.writer.written = (ms.map fun m => [m.header, m.payload]) ∧
        ∀ m ∈ ms.dropLast, m.terminal = false) ∧
      c.writer.writing.length ≤ 1 ∧
      c.writer.sendBufferSize = (c.writer.sendQueue.map fun m => m.payload.length).sum ∧
      (c.writer.sendQueue ≠ [] →
        c.writer.writing ≠ [] ∨ 0 < c.writer.posted ∨ c.shutdowns ≠ [] ∨ c.finished ≠ []) := by
  have h : ∃ c, (opened false fun _ => 7).Steps
      [.call (.send [0x48] .text), .call (.ping []), .writeFrame] c :=
    ⟨_, .cons rfl (.cons rfl (.cons rfl (.nil _)))⟩
  obtain ⟨c, hc⟩ := h
  exact ⟨c, hc, pump hc⟩

/-! ## Closing

What was asked for splits into what is no close frame and the close frames behind it. The invariant
names the two parts, so that a move says how they grow: a push adds to the first and needs the
second to be empty, which an open connection's is. -/

/-- What holds of a connection that has sent `os`, and then the close frames `cs`. -/
structure CloseInv (c : Connection) (os cs : List Outgoing) : Prop where
  asked : c.asked = os ++ cs
  before : ∀ o ∈ os, o.isClose = false
  closes : ∀ o ∈ cs, o.isClose = true
  again : ∀ o ∈ cs.tail, ∃ reason, o = .close Close.protocolError reason
  opened : c.state = .opened ↔ cs = [] ∧ c.shutdowns = [] ∧ c.finished = []
  once : ¬ c.Broken → cs.length ≤ 1 ∧ c.shutdowns.length + c.finished.length ≤ 1 ∧
    (c.state = .closed ↔ c.shutdowns.length + c.finished.length = 1)

section

variable {os cs : List Outgoing}

/-- The invariant looks at five members and at whether a close frame was broken; a connection that
    agrees with another in these satisfies it where the other does. -/
theorem CloseInv.congr (h : c.CloseInv os cs) (hasked : c'.asked = c.asked)
    (hstate : c'.state = c.state) (hshut : c'.shutdowns = c.shutdowns)
    (hfin : c'.finished = c.finished) (hrec : c'.received = c.received) : c'.CloseInv os cs := by
  refine ⟨by rw [hasked, h.asked], h.before, h.closes, h.again, ?_, ?_⟩
  · rw [hstate, hshut, hfin]
    exact h.opened
  · rw [Broken, hrec, hstate, hshut, hfin]
    exact h.once

/-- A connection that ends: it is closed then, and a shutdown has begun if it was not closed before.
    Two calls of `terminate` in a row begin one. -/
theorem CloseInv.ended (h : c.CloseInv os cs) {l : List TerminateStatus}
    (hasked : c'.asked = c.asked) (hstate : c'.state = .closed)
    (hshut : c'.shutdowns = c.shutdowns ++ l) (hl : l.length = if c.state = .closed then 0 else 1)
    (hfin : c'.finished = c.finished) (hrec : c'.received = c.received) : c'.CloseInv os cs := by
  by_cases hclosed : c.state = .closed
  · rw [if_pos hclosed] at hl
    refine h.congr hasked (by rw [hstate, hclosed]) ?_ hfin hrec
    rw [hshut, List.eq_nil_of_length_eq_zero hl, List.append_nil]
  · rw [if_neg hclosed] at hl
    have hlen : c'.shutdowns.length = c.shutdowns.length + 1 := by
      rw [hshut, List.length_append, hl]
    refine ⟨by rw [hasked, h.asked], h.before, h.closes, h.again, ?_, fun hb => ?_⟩
    · rw [hstate]
      refine ⟨nofun, fun ⟨_, hnil, _⟩ => ?_⟩
      rw [hnil] at hlen
      cases hlen
    · rw [Broken, hrec] at hb
      obtain ⟨hcs, hle, hiff⟩ := h.once hb
      have hzero : ¬ c.shutdowns.length + c.finished.length = 1 := fun h1 => hclosed (hiff.mpr h1)
      rw [hlen, hfin]
      exact ⟨hcs, by omega, by simp only [hstate, true_iff]; omega⟩

theorem CloseInv.move (h : c.CloseInv os cs) (hmove : Move ok c c') :
    ∃ os cs, c'.CloseInv os cs := by
  cases hmove with
  | quiet hq => exact ⟨os, cs, h.congr hq.asked hq.state hq.shutdowns hq.finished hq.received⟩
  -- a frame that is no close frame is sent while the connection is open, before any that is
  | @push o m hstate _ hopen _ =>
    obtain ⟨rfl, hs, hf⟩ := h.opened.mp hstate
    refine ⟨os ++ [o], [], ?_, ?_, nofun, nofun, ?_, h.once⟩
    · show c.asked ++ [o] = os ++ [o] ++ []
      rw [h.asked, List.append_nil, List.append_nil]
    · intro o' ho'
      rcases List.mem_append.mp ho' with hmem | hmem
      · exact h.before o' hmem
      · rw [List.mem_singleton.mp hmem, hopen]
    · exact h.opened
  -- a second close frame is sent only after one that was broken
  | @close code reason m terminal hwhy _ _ =>
    refine ⟨os, cs ++ [.close code reason], ?_, h.before, ?_, ?_, ?_, ?_⟩
    · show c.asked ++ [.close code reason] = os ++ (cs ++ [.close code reason])
      rw [h.asked, List.append_assoc]
    · intro o ho
      rcases List.mem_append.mp ho with hmem | hmem
      · exact h.closes o hmem
      · rw [List.mem_singleton.mp hmem]
        rfl
    · intro o ho
      cases cs with
      | nil => cases ho
      | cons o' cs =>
        rcases List.mem_append.mp ho with hmem | hmem
        · exact h.again o hmem
        · rcases hwhy with hstate | ⟨rfl, -⟩
          · cases (h.opened.mp hstate).1
          · exact ⟨reason, List.mem_singleton.mp hmem⟩
    · refine ⟨nofun, fun ⟨hnil, _⟩ => ?_⟩
      exact absurd (List.append_eq_nil_iff.mp hnil).2 (List.cons_ne_nil _ _)
    · intro hb
      rcases hwhy with hstate | ⟨-, hbroken⟩
      · obtain ⟨rfl, hs, hf⟩ := h.opened.mp hstate
        show 1 ≤ 1 ∧ c.shutdowns.length + c.finished.length ≤ 1 ∧
          (SessionState.closing = .closed ↔ c.shutdowns.length + c.finished.length = 1)
        rw [hs, hf]
        simp
      · exact absurd hbroken hb
  | @terminate tstat hstate =>
    exact ⟨os, cs, h.ended (l := [tstat]) rfl rfl rfl (by rw [if_neg hstate]; rfl) rfl rfl⟩
  | write _ _ => exact ⟨os, cs, h.congr rfl rfl rfl rfl rfl⟩
  | @last failed w e hstep hlast =>
    obtain ⟨ec, hec⟩ := handleWriteEnd_last { c with writer := w } hlast
    obtain ⟨-, hasked, hfin, hrec, hstate, hshut⟩ := { c with writer := w }.terminate_eq ec
    rw [hec]
    refine ⟨os, cs, h.ended hasked hstate hshut ?_ hfin hrec⟩
    cases hs : c.state <;> simp
  -- a shutdown that ends goes from the one list to the other
  | @shutdown tstat shutdowns hs =>
    have hlen : shutdowns.length + (c.finished ++ [tstat]).length =
        c.shutdowns.length + c.finished.length := by
      rw [hs, List.length_append, List.length_cons, List.length_cons]
      simp
      omega
    refine ⟨os, cs, h.asked, h.before, h.closes, h.again, ?_, ?_⟩
    · show c.state = .opened ↔ cs = [] ∧ shutdowns = [] ∧ c.finished ++ [tstat] = []
      rw [h.opened, hs]
      simp
    · show ¬ c.Broken → cs.length ≤ 1 ∧ shutdowns.length + (c.finished ++ [tstat]).length ≤ 1 ∧
        (c.state = .closed ↔ shutdowns.length + (c.finished ++ [tstat]).length = 1)
      rw [hlen]
      exact h.once

/-- **Closing**, in every run: behind a close frame come only close frames, and those behind the
    first say that the other endpoint broke the protocol. Where none of its close frames was
    broken there is one at most, and the connection is shut down once at most, which is when it is
    closed. -/
theorem closing {isServer : Bool} {keys : Nat → UInt32} {es : List Event}
    (h : (opened isServer keys).Steps es c) :
    ∃ os cs, c.asked = os ++ cs ∧ (∀ o ∈ os, o.isClose = false) ∧ (∀ o ∈ cs, o.isClose = true) ∧
      (∀ o ∈ cs.tail, ∃ reason, o = .close Close.protocolError reason) ∧
      (c.state = .opened ↔ cs = [] ∧ c.shutdowns = [] ∧ c.finished = []) ∧
      (¬ c.Broken → cs.length ≤ 1 ∧ c.shutdowns.length + c.finished.length ≤ 1 ∧
        (c.state = .closed ↔ c.shutdowns.length + c.finished.length = 1)) := by
  have hinv : ∃ os cs, c.CloseInv os cs := by
    refine invariant_steps (P := fun c => ∃ os cs, c.CloseInv os cs) ?_ ?_ h
      ⟨[], [], rfl, nofun, nofun, nofun, by simp [opened], fun _ => by simp [opened]⟩
    · rintro c p r msg ⟨os, cs, hc⟩
      refine ⟨os, cs, hc.asked, hc.before, hc.closes, hc.again, hc.opened, fun hb => hc.once ?_⟩
      rintro ⟨m, hm, hbroken⟩
      exact hb ⟨m, List.mem_append_left _ hm, hbroken⟩
    · rintro c c' ⟨os, cs, hc⟩ hmove
      exact hc.move hmove
  obtain ⟨os, cs, hc⟩ := hinv
  exact ⟨os, cs, hc.asked, hc.before, hc.closes, hc.again, hc.opened, hc.once⟩

/-- A client closes, and the other endpoint does not answer in time. -/
theorem closing_timeout : ∃ c, (opened false fun _ => 7).Steps
    [.call (.close Close.normal []), .writeFrame, .written false, .closeTimeout, .shutdown] c ∧
      ∃ os cs, c.asked = os ++ cs ∧ (∀ o ∈ os, o.isClose = false) ∧ (∀ o ∈ cs, o.isClose = true) ∧
        (∀ o ∈ cs.tail, ∃ reason, o = .close Close.protocolError reason) ∧
        (c.state = .opened ↔ cs = [] ∧ c.shutdowns = [] ∧ c.finished = []) ∧
        (¬ c.Broken → cs.length ≤ 1 ∧ c.shutdowns.length + c.finished.length ≤ 1 ∧
          (c.state = .closed ↔ c.shutdowns.length + c.finished.length = 1)) := by
  have h : ∃ c, (opened false fun _ => 7).Steps
      [.call (.close Close.normal []), .writeFrame, .written false, .closeTimeout, .shutdown] c :=
    ⟨_, .cons rfl (.cons rfl (.cons rfl (.cons rfl (.cons rfl (.nil _)))))⟩
  obtain ⟨c, hc⟩ := h
  exact ⟨c, hc, closing hc⟩

end

end Connection

end WebsocketTest.WebSocket
