import WebsocketTest.WebSocket.Session
import WebsocketTest.WebSocket.Soundness

/-!
# Two endpoints

A client and a server, each with its application, and the two byte streams between them. A stream
delivers what was written in the order in which it was, in pieces of any length and as late as it
likes; the end of it may never come.

**`conversation`** — whatever either of them does and whenever it does it, the messages that the one
is given are a beginning of what the other has sent; neither of them ever finds an error in what the
other wrote; and what was written and read to its end was all of it.

## How it is put together

Every part of it is proved elsewhere, of one endpoint: what is pushed is written in its order
(`Writer.Inv`), what is written are whole frames (`PreparedAll`), and whole frames are read back
whatever the cuts are (`readAll_eq_handleReadFrame`). What has to be shown here is that nothing is
lost between the parts. `SentInv` says that the queue holds exactly what the application asked for,
each prepared for this end; `ReadInv` says that the messages handed out are those of the bytes that
came, less those of the bytes that are still in the buffer; and `link` puts the two together for one
direction. The other direction is the same lemma again.

## What is asked of the applications

That what they send is `Sendable`: texts and binary messages no longer than a string can be. That a
text is UTF-8 is not asked for: `send` itself refuses one that is not, and nothing goes on the
queue. The transports deliver bytes in order and change none; that either stops is allowed at any
time, so nothing is said of whether a message arrives, only of what has arrived.
-/

set_option autoImplicit false

namespace WebsocketTest.WebSocket

open Lib.Run

/-! ## What is sent

The queue is prepared one by one for what was asked for, and stays so: nothing but a push adds to
it, and what is written is taken from its front. -/

theorem PreparedAll.append {server : Bool} {os os' : List Outgoing} {ms ms' : List Prepared}
    (h : PreparedAll server os ms) (h' : PreparedAll server os' ms') :
    PreparedAll server (os ++ os') (ms ++ ms') := by
  induction h with
  | nil => exact h'
  | cons hs hprepare _ ih => exact .cons hs hprepare ih

theorem PreparedAll.take {server : Bool} {os : List Outgoing} {ms : List Prepared}
    (h : PreparedAll server os ms) (k : Nat) : PreparedAll server (os.take k) (ms.take k) := by
  induction h generalizing k with
  | nil =>
    rw [List.take_nil, List.take_nil]
    exact .nil
  | cons hs hprepare _ ih =>
    cases k with
    | zero => exact .nil
    | succ k => exact .cons hs hprepare (ih k)

theorem PreparedAll.length_eq {server : Bool} {os : List Outgoing} {ms : List Prepared}
    (h : PreparedAll server os ms) : os.length = ms.length := by
  induction h with
  | nil => rfl
  | cons _ _ _ ih => rw [List.length_cons, List.length_cons, ih]

namespace Connection

variable {ok : Outgoing → Prop} {c c' : Connection}

/-- The bytes that were given to the transport, all of them one behind the other. -/
def wire (c : Connection) : List UInt8 := c.writer.written.flatten.flatten

/-- What was put on the queue was prepared for what was asked for. -/
def SentInv (c : Connection) : Prop :=
  ∃ ms, PreparedAll c.isServer c.asked ms ∧
    c.writer.pushed.map Prepared.bytes = ms.map Prepared.bytes

/-- The reader is as it was: no message was handed out, and no byte consumed. -/
structure SameReader (c c' : Connection) : Prop where
  isServer : c'.isServer = c.isServer
  processor : c'.processor = c.processor
  reading : c'.reading = c.reading
  received : c'.received = c.received
  remoteCloseCode : c'.remoteCloseCode = c.remoteCloseCode
  remoteCloseReason : c'.remoteCloseReason = c.remoteCloseReason

theorem SameReader.trans {c₁ : Connection} (h : SameReader c c') (h' : SameReader c' c₁) :
    SameReader c c₁ :=
  ⟨h'.isServer.trans h.isServer, h'.processor.trans h.processor, h'.reading.trans h.reading,
    h'.received.trans h.received, h'.remoteCloseCode.trans h.remoteCloseCode,
    h'.remoteCloseReason.trans h.remoteCloseReason⟩

theorem sameReader_terminate (ec : Option ErrorCode) : SameReader c (c.terminate ec) := by
  constructor <;> cases ec <;> cases hs : c.state <;> simp [terminate, hs]

/-- No move is one of the reader, so that what is read depends on `Reads` alone. -/
theorem Move.sameReader (h : Move ok c c') : SameReader c c' := by
  cases h with
  | quiet hq =>
    exact ⟨hq.isServer, hq.processor, hq.reading, hq.received, hq.remoteCloseCode,
      hq.remoteCloseReason⟩
  | @last failed w e hstep hlast =>
    obtain ⟨ec, hec⟩ := handleWriteEnd_last { c with writer := w } hlast
    have hsame := sameReader_terminate (c := { c with writer := w }) ec
    rw [hec]
    exact ⟨hsame.isServer, hsame.processor, hsame.reading, hsame.received, hsame.remoteCloseCode,
      hsame.remoteCloseReason⟩
  | _ => constructor <;> rfl

theorem Moves.sameReader (h : Moves ok c c') : SameReader c c' :=
  h.invariant (P := SameReader c) (fun _ _ hd hmove => hd.trans hmove.sameReader)
    (by constructor <;> rfl)

theorem SentInv.move (h : c.SentInv) (hsend : ∀ o, ok o → o.Sendable) (hmove : Move ok c c') :
    c'.SentInv := by
  obtain ⟨ms, hms, hbytes⟩ := h
  have hadd : ∀ {o m m'}, o.Sendable → o.prepare c.isServer (c.keys 0) = .ok m →
      m'.bytes = m.bytes → (PreparedAll c.isServer (c.asked ++ [o]) (ms ++ [m]) ∧
        (c.writer.push m').pushed.map Prepared.bytes = (ms ++ [m]).map Prepared.bytes) := by
    intro o m m' ho hprepare hm'
    refine ⟨hms.append (.cons ho hprepare .nil), ?_⟩
    rw [Writer.push_eq]
    show (c.writer.pushed ++ [m']).map Prepared.bytes = _
    rw [List.map_append, List.map_append, hbytes, List.map_singleton, List.map_singleton, hm']
  cases hmove with
  | quiet hq =>
    refine ⟨ms, ?_, ?_⟩
    · rw [hq.isServer, hq.asked]
      exact hms
    · rw [hq.writer]
      exact hbytes
  | push _ hok _ hprepare => exact ⟨_, hadd (hsend _ hok) hprepare rfl⟩
  | @close code reason m terminal _ _ hprepare =>
    exact ⟨_, hadd (o := .close code reason) trivial hprepare rfl⟩
  | terminate _ => exact ⟨ms, hms, hbytes⟩
  | write hop hstep => exact ⟨ms, hms, by rw [(Writer.step_grows hstep).2 hop]; exact hbytes⟩
  | @last failed w e hstep hlast =>
    obtain ⟨ec, hec⟩ := handleWriteEnd_last { c with writer := w } hlast
    have hserver := (sameReader_terminate (c := { c with writer := w }) ec).isServer
    obtain ⟨hwriter, hasked, -⟩ := { c with writer := w }.terminate_eq ec
    have hpushed := (Writer.step_grows hstep).2 fun m hm => by cases hm
    rw [hec]
    refine ⟨ms, ?_, ?_⟩
    · rw [hserver, hasked]
      exact hms
    · rw [hwriter]
      show w.pushed.map Prepared.bytes = _
      rw [hpushed]
      exact hbytes
  | shutdown _ => exact ⟨ms, hms, hbytes⟩

/-- **What was written** are the frames of what was asked for first. -/
theorem wire_eq (hwriter : c.writer.Inv) (hsent : c.SentInv) :
    ∃ k ms, c.wire = ms.flatMap Prepared.bytes ∧ PreparedAll c.isServer (c.asked.take k) ms ∧
      (c.writer.sendQueue = [] → c.asked.take k = c.asked) := by
  obtain ⟨⟨done, hdone⟩, -⟩ := hwriter
  obtain ⟨ms, hms, hbytes⟩ := hsent
  have hlen : ms.length = done.length + c.writer.sendQueue.length := by
    have := congrArg List.length hbytes
    rw [List.length_map, List.length_map, hdone.pushed, List.length_append] at this
    exact this.symm
  refine ⟨done.length, ms.take done.length, ?_, hms.take _, fun hq => ?_⟩
  · have hparts : ∀ l : List Prepared, (l.map Writer.parts).flatten.flatten =
        (l.map Prepared.bytes).flatten := by
      intro l
      induction l with
      | nil => rfl
      | cons m l ih =>
        rw [List.map_cons, List.flatten_cons, List.flatten_append, ih, List.map_cons,
          List.flatten_cons]
        simp [Writer.parts, Prepared.bytes]
    have htake : done.map Prepared.bytes = (ms.take done.length).map Prepared.bytes := by
      rw [List.map_take, ← hbytes, hdone.pushed, List.map_append,
        List.take_left' (List.length_map _)]
    rw [wire, hdone.written, hparts, htake, List.flatMap_def]
  · rw [hq, List.length_nil, Nat.add_zero] at hlen
    rw [List.take_of_length_le]
    rw [hms.length_eq, hlen]

/-! ## What is read

The reader works through a read in several events, with calls in between. `ReadInv` compares what it
has handed out with one `handleReadFrame` of all the bytes that came, which is where the theorem on
cuts is used: the reads so far, and the rounds so far of the last of them, are one read. -/

/-- The bytes that `handle_read_frame` still has. -/
def left (c : Connection) : List UInt8 :=
  match c.reading with
  | .buffered buf => buf
  | _ => []

/-- The reader of a connection that was given the bytes `seen`: it is where a new processor would be
    that had read all of them but those that are left, and the messages are those it would have
    handed out. -/
structure ReadInv (c : Connection) (seen : List UInt8) : Prop where
  waiting : c.processor.Waiting
  reading : c.reading ≠ .stopped → ∀ ys, (Hybi13.new c.isServer).handleReadFrame (seen ++ ys) =
    (c.received ++ (c.processor.handleReadFrame (c.left ++ ys)).1,
      (c.processor.handleReadFrame (c.left ++ ys)).2)
  received : c.received <+: ((Hybi13.new c.isServer).handleReadFrame seen).1

theorem readInv_opened (isServer : Bool) (keys : Nat → UInt32) :
    (opened isServer keys).ReadInv [] :=
  ⟨Hybi13.new_waiting isServer, fun _ _ => rfl, List.nil_prefix⟩

/-- More bytes do not take a message back: the messages of a beginning are a beginning of them. -/
theorem handleReadFrame_begins {p : Hybi13} (h : p.Waiting) (xs ys : List UInt8) :
    (p.handleReadFrame xs).1 <+: (p.handleReadFrame (xs ++ ys)).1 := by
  rw [Hybi13.handleReadFrame_append h]
  obtain ⟨msgs, e⟩ := p.handleReadFrame xs
  cases e <;> simp [Hybi13.readOn]

/-- The bytes that an event delivers. -/
def Event.bytes : Event → List UInt8
  | .read buf => buf
  | _ => []

@[simp] theorem Event.bytes_round (calls : List Call) (pong : Bool) :
    (Event.round calls pong).bytes = [] := rfl

theorem ReadInv.read {seen : List UInt8} (h : c.ReadInv seen) {e : Event} {p : Hybi13} {r : Reading}
    {msg : Option Message} (hreads : Reads c e p r msg) :
    (c.readTo p r msg).ReadInv (seen ++ e.bytes) := by
  have hnew := Hybi13.new_waiting c.isServer
  cases hreads with
  | idle hread _ =>
    have hbytes : e.bytes = [] := by
      cases e with
      | read buf => exact absurd rfl (hread buf)
      | _ => rfl
    rw [readTo_none, hbytes, List.append_nil]
    exact ⟨h.waiting, h.reading, h.received⟩
  -- the bytes go from the wire to the buffer, and all before them had been used up
  | @read buf hasked =>
    rw [readTo_none]
    refine ⟨h.waiting, fun _ ys => ?_, h.received.trans (handleReadFrame_begins hnew _ _)⟩
    have hbefore := h.reading (by rw [hasked]; nofun) (buf ++ ys)
    have hleft : c.left = [] := by rw [left, hasked]
    rw [hleft, List.nil_append] at hbefore
    rw [Event.bytes, List.append_assoc]
    exact hbefore
  | @again calls pong hdone =>
    rw [Event.bytes_round, List.append_nil, readTo_none]
    refine ⟨h.waiting, fun _ ys => ?_, h.received⟩
    have hbefore := h.reading (by rw [hdone]; nofun) ys
    have hleft : c.left = [] := by rw [left, hdone]
    rw [hleft] at hbefore
    exact hbefore
  -- the buffer ends in the middle of a frame: all of it is in the processor now
  | @round buf rest calls pong p hbuf hne hconsume hready =>
    rw [Event.bytes_round, List.append_nil, readTo_none]
    have hp : p.Waiting ∧ rest = [] := by
      rcases Hybi13.consume_cases (.inl h.waiting.1) hconsume with hs | hp
      · exact absurd (Hybi13.isReady_iff.mpr hs) hready
      · exact hp
    obtain ⟨hp, rfl⟩ := hp
    refine ⟨hp, fun _ ys => ?_, h.received⟩
    have hbefore := h.reading (by rw [hbuf]; nofun) ys
    have hleft : c.left = buf := by rw [left, hbuf]
    have hgoes : c.processor.handleReadFrame (buf ++ ys) = p.handleReadFrame ys := by
      apply Hybi13.handleReadFrame_congr h.waiting hp (by simp [hne])
      rw [Hybi13.consume_append (.inl h.waiting.1), hconsume, Except.bind, Hybi13.goOn,
        if_neg hready]
    rw [hleft, hgoes] at hbefore
    exact hbefore
  -- a frame ends here, and the reader goes on behind it as a reader of the rest
  | @message buf rest calls pong p hbuf hne hconsume hready =>
    rw [Event.bytes_round, List.append_nil]
    have hp := Hybi13.getMessage_waiting hready
    have hgoes : ∀ ys, c.processor.handleReadFrame (buf ++ ys) =
        (p.getMessage.1.toList ++ (p.getMessage.2.handleReadFrame (rest ++ ys)).1,
          (p.getMessage.2.handleReadFrame (rest ++ ys)).2) := by
      intro ys
      rw [Hybi13.handleReadFrame_eq h.waiting (by simp [hne]),
        Hybi13.consume_append (.inl h.waiting.1), hconsume, Except.bind, Hybi13.goOn, if_pos hready]
      dsimp only
      rw [if_pos hready]
    have hleft : c.left = buf := by rw [left, hbuf]
    have hall : ∀ ys, (Hybi13.new c.isServer).handleReadFrame (seen ++ ys) =
        (c.received ++ p.getMessage.1.toList ++ (p.getMessage.2.handleReadFrame (rest ++ ys)).1,
          (p.getMessage.2.handleReadFrame (rest ++ ys)).2) := by
      intro ys
      rw [h.reading (by rw [hbuf]; nofun) ys, hleft, hgoes ys, List.append_assoc]
    refine ⟨hp, fun _ ys => hall ys, ?_⟩
    have hnow := hall []
    rw [List.append_nil] at hnow
    show c.received ++ p.getMessage.1.toList <+: _
    rw [readTo, hnow]
    exact List.prefix_append _ _
  | stop =>
    rw [readTo_none]
    exact ⟨h.waiting, fun hne => absurd rfl hne,
      h.received.trans (handleReadFrame_begins hnew _ _)⟩

theorem ReadInv.congr {seen : List UInt8} (h : c.ReadInv seen) (hsame : SameReader c c') :
    c'.ReadInv seen := by
  refine ⟨by rw [hsame.processor]; exact h.waiting, ?_,
    by rw [hsame.isServer, hsame.received]; exact h.received⟩
  rw [hsame.isServer, hsame.processor, hsame.reading, hsame.received, left, hsame.reading]
  exact h.reading

/-- A round that has a whole frame in front of it dispatches the message that the frame
    completes. -/
theorem round_receive {a a' : Option Message} {f : Frame} {m : Message}
    (hat : c.processor.At c.isServer a) (h : Receive c.isServer a f [m] a') (ys : List UInt8)
    (calls : List Call) (pong : Bool) :
    ∃ q : Hybi13, q.At c.isServer a' ∧ c.round (f.bytes ++ ys) calls pong =
      { c with processor := q, reading := .buffered ys }.dispatch m calls pong := by
  obtain ⟨r, hr, hconsume⟩ := Hybi13.consume_receive hat h
  refine ⟨_, hr.at_next, ?_⟩
  rw [round, hconsume]
  dsimp only
  rw [if_pos hr.ready, hr.getMessage]

/-! ## One direction -/

/-- **One direction**: what is written here is read there. -/
theorem link {w r : Connection} {seen : List UInt8} (hserver : r.isServer = !w.isServer)
    (hwriter : w.writer.Inv) (hsent : w.SentInv) (hread : r.ReadInv seen)
    (hseen : seen <+: w.wire) :
    r.received <+: w.asked.map Outgoing.message ∧
      (∀ buf e, r.reading = .buffered buf → r.processor.consume buf ≠ .error e) ∧
      (r.reading = .asked → seen = w.wire → w.writer.sendQueue = [] →
        r.received = w.asked.map Outgoing.message) := by
  obtain ⟨k, ms, hwire, hms, hall⟩ := wire_eq hwriter hsent
  obtain ⟨zs, hzs⟩ := hseen
  obtain ⟨q, -, hgoes⟩ := hms.handleReadFrame
  -- read to its end, the wire is exactly the messages that were written
  have hwhole : (Hybi13.new r.isServer).handleReadFrame (seen ++ zs) =
      ((w.asked.take k).map Outgoing.message, .waiting q) := by
    have := hgoes []
    rw [List.append_nil, Hybi13.handleReadFrame_nil, List.append_nil] at this
    rw [hserver, hzs, hwire, this]
  refine ⟨?_, ?_, ?_⟩
  · -- what was received is the beginning of what the rest would complete
    have hbegins := hread.received.trans
      (handleReadFrame_begins (Hybi13.new_waiting r.isServer) seen zs)
    rw [hwhole] at hbegins
    exact hbegins.trans ((List.take_prefix k w.asked).map _)
  · intro buf e hbuf herror
    have hne : buf ≠ [] := by
      rintro rfl
      rw [hread.waiting.consume_nil] at herror
      cases herror
    have hgoes := hread.reading (by rw [hbuf]; nofun) zs
    have hleft : r.left = buf := by rw [left, hbuf]
    rw [hwhole, hleft, Hybi13.handleReadFrame_of_error hread.waiting (e := e) (by simp [hne])
      (by rw [Hybi13.consume_append (.inl hread.waiting.1), herror]; rfl)] at hgoes
    cases (Prod.mk.inj hgoes).2
  · intro hasked heq hq
    have hzs' : zs = [] := by
      have := congrArg List.length hzs
      rw [List.length_append, ← heq] at this
      exact List.eq_nil_of_length_eq_zero (by omega)
    have hgoes := hread.reading (by rw [hasked]; nofun) zs
    have hleft : r.left = [] := by rw [left, hasked]
    rw [hwhole, hleft, hzs', List.append_nil, Hybi13.handleReadFrame_nil, List.append_nil,
      hall hq] at hgoes
    exact (Prod.mk.inj hgoes).1.symm

/-- What a connection may send by itself, it may send, and what it may send can be sent. -/
structure Sends (ok : Outgoing → Prop) : Prop extends Allows ok where
  sendable : ∀ o, ok o → o.Sendable

theorem sends_sendable : Sends Outgoing.Sendable :=
  ⟨⟨fun _ => trivial, fun _ _ => trivial⟩, fun _ h => h⟩

/-- What holds of a connection that was given the bytes `seen`. -/
structure Good (c : Connection) (isServer : Bool) (seen : List UInt8) : Prop where
  isServer : c.isServer = isServer
  write : c.WriteInv
  sent : c.SentInv
  read : c.ReadInv seen

theorem good_opened (isServer : Bool) (keys : Nat → UInt32) :
    (opened isServer keys).Good isServer [] :=
  ⟨rfl, ⟨Writer.inv_new, .inl nofun, nofun⟩, ⟨[], .nil, rfl⟩, readInv_opened isServer keys⟩

theorem Good.step {isServer : Bool} {seen : List UInt8} (h : c.Good isServer seen) {e : Event}
    (hsends : Sends ok) (hstep : c.step e = some c') (he : e.Ok ok) :
    c'.Good isServer (seen ++ e.bytes) := by
  obtain ⟨p, r, msg, hreads, hmoves⟩ := step_cases hstep he hsends.toAllows
  have hwrite : (c.readTo p r msg).WriteInv := ⟨h.write.writer, h.write.held, h.write.closed⟩
  have hsent : (c.readTo p r msg).SentInv := h.sent
  exact ⟨hmoves.sameReader.isServer.trans h.isServer,
    hmoves.invariant (fun _ _ hc hmove => hc.move hmove) hwrite,
    hmoves.invariant (fun _ _ hc hmove => hc.move hsends.sendable hmove) hsent,
    (h.read.read hreads).congr hmoves.sameReader⟩

/-- What was written stays written, so that what the other end has read of it stays a beginning. -/
theorem Move.written_prefix (h : Move ok c c') : c.writer.written <+: c'.writer.written := by
  cases h with
  | quiet hq => rw [hq.writer]
  | @push o m _ _ _ _ => exact (Writer.step_grows (Writer.step_push c.writer m)).1
  | @close code reason m terminal _ _ _ =>
    exact (Writer.step_grows (Writer.step_push c.writer { m with terminal := terminal })).1
  | terminate _ => exact List.prefix_rfl
  | write _ hstep => exact (Writer.step_grows hstep).1
  | @last failed w e hstep hlast =>
    obtain ⟨ec, hec⟩ := handleWriteEnd_last { c with writer := w } hlast
    obtain ⟨hwriter, -⟩ := { c with writer := w }.terminate_eq ec
    rw [hec, hwriter]
    exact (Writer.step_grows hstep).1
  | shutdown _ => exact List.prefix_rfl

theorem step_wire {e : Event} (hallows : Allows ok) (hstep : c.step e = some c') (he : e.Ok ok) :
    c.wire <+: c'.wire := by
  obtain ⟨p, r, msg, -, hmoves⟩ := step_cases hstep he hallows
  have hwritten : c.writer.written <+: c'.writer.written :=
    hmoves.invariant (P := fun d => c.writer.written <+: d.writer.written)
      (fun _ _ hd hmove => hd.trans hmove.written_prefix) List.prefix_rfl
  obtain ⟨more, hmore⟩ := hwritten
  refine ⟨more.flatten.flatten, ?_⟩
  rw [wire, wire, ← hmore, List.flatten_append, List.flatten_append]

end Connection

/-! ## Both directions

A step of the network is an event at one end. The only event that needs the other end is a read,
which brings bytes that come next of what the other has written. -/

/-- The server, the client, and what each of them has read from the other. -/
structure Network where
  server : Connection
  client : Connection
  toServer : List UInt8 := []
  toClient : List UInt8 := []

/-- The one to which something happens. -/
inductive Side
  | server
  | client
  deriving DecidableEq, Repr

namespace Network

open Connection

/-- Something happens at one end. The applications send what is `ok`, and what is read is what comes
    next of what the other end has written. -/
inductive Step (ok : Outgoing → Prop) : Network → Side × Event → Network → Prop
  | server {n : Network} {e : Event} {c : Connection} (hstep : n.server.step e = some c)
      (he : e.Ok ok) (hread : n.toServer ++ e.bytes <+: n.client.wire) :
      Step ok n (.server, e) { n with server := c, toServer := n.toServer ++ e.bytes }
  | client {n : Network} {e : Event} {c : Connection} (hstep : n.client.step e = some c)
      (he : e.Ok ok) (hread : n.toClient ++ e.bytes <+: n.server.wire) :
      Step ok n (.client, e) { n with client := c, toClient := n.toClient ++ e.bytes }

/-- Both of them after the handshake, with the generators of their keys. -/
def start (keys keys' : Nat → UInt32) : Network := ⟨opened true keys, opened false keys', [], []⟩

/-- The runs of the two, where the applications send what is `ok`. -/
abbrev Runs (ok : Outgoing → Prop) : Network → List (Side × Event) → Network → Prop :=
  Lib.Run.Steps (Step ok)

/-- What holds of the two of them: of each what holds of one, and what each has read is a beginning
    of what the other has written. -/
structure Inv (n : Network) : Prop where
  server : n.server.Good true n.toServer
  client : n.client.Good false n.toClient
  toServer : n.toServer <+: n.client.wire
  toClient : n.toClient <+: n.server.wire

variable {ok : Outgoing → Prop} {n n' : Network}

theorem inv_start (keys keys' : Nat → UInt32) : (start keys keys').Inv :=
  ⟨good_opened true keys, good_opened false keys', List.nil_prefix, List.nil_prefix⟩

theorem Inv.step {l : Side × Event} (h : n.Inv) (hsends : Sends ok) (hstep : Step ok n l n') :
    n'.Inv := by
  cases hstep with
  | server hs he hread =>
    exact ⟨h.server.step hsends hs he, h.client, hread,
      h.toClient.trans (step_wire hsends.toAllows hs he)⟩
  | client hs he hread =>
    exact ⟨h.server, h.client.step hsends hs he,
      h.toServer.trans (step_wire hsends.toAllows hs he), hread⟩

theorem Inv.runs {ls : List (Side × Event)} (h : n.Inv) (hsends : Sends ok)
    (hruns : Runs ok n ls n') : n'.Inv :=
  hruns.invariant (fun _ _ _ hn hstep => hn.step hsends hstep) h

/-- What is read at one end was written at the other. -/
theorem Inv.links (h : n.Inv) :
    (n.server.received <+: n.client.asked.map Outgoing.message ∧
      (∀ buf e, n.server.reading = .buffered buf → n.server.processor.consume buf ≠ .error e) ∧
      (n.server.reading = .asked → n.toServer = n.client.wire → n.client.writer.sendQueue = [] →
        n.server.received = n.client.asked.map Outgoing.message)) ∧
    n.client.received <+: n.server.asked.map Outgoing.message ∧
      (∀ buf e, n.client.reading = .buffered buf → n.client.processor.consume buf ≠ .error e) ∧
      (n.client.reading = .asked → n.toClient = n.server.wire → n.server.writer.sendQueue = [] →
        n.client.received = n.server.asked.map Outgoing.message) :=
  ⟨link (by rw [h.server.isServer, h.client.isServer]; rfl) h.client.write.writer h.client.sent
      h.server.read h.toServer,
    link (by rw [h.server.isServer, h.client.isServer]; rfl) h.server.write.writer h.server.sent
      h.client.read h.toClient⟩

/-- A whole frame in the client's buffer is its next message. -/
theorem Inv.client_round (h : n.Inv) (hallows : Allows ok) {a a' : Option Message} {f : Frame}
    {m : Message} (hat : n.client.processor.At false a) (hreceive : Receive false a f [m] a')
    {ys : List UInt8} (hreading : n.client.reading = .buffered (f.bytes ++ ys))
    {calls : List Connection.Call} (hcalls : ∀ k ∈ calls, k.Ok ok) (pong : Bool) :
    ∃ c, Step ok n (.client, .round calls pong)
        { n with client := c, toClient := n.toClient ++ [] } ∧
      c.received = n.client.received ++ [m] := by
  rw [← h.client.isServer] at hat hreceive
  obtain ⟨q, -, hround⟩ := round_receive hat hreceive ys calls pong
  have hstep : n.client.step (.round calls pong) =
      some (n.client.round (f.bytes ++ ys) calls pong) := by
    rw [Connection.step, hreading, Frame.bytes]
    rfl
  have hprefix : n.toClient ++ [] <+: n.server.wire := by
    rw [List.append_nil]
    exact h.toClient
  refine ⟨_, .client hstep hcalls hprefix, ?_⟩
  rw [hround]
  exact (moves_dispatch hcalls hallows).sameReader.received

/-- **The conversation**: at any time in any run, each end was given a beginning of what the other
    has sent, in order and each message once; it finds no error in what it reads; and once the
    other's queue is empty and all its bytes were read, it was given everything. -/
theorem conversation {keys keys' : Nat → UInt32} {ls : List (Side × Event)}
    (h : Runs Outgoing.Sendable (start keys keys') ls n) :
    (n.server.received <+: n.client.asked.map Outgoing.message ∧
      (∀ buf e, n.server.reading = .buffered buf → n.server.processor.consume buf ≠ .error e) ∧
      (n.server.reading = .asked → n.toServer = n.client.wire → n.client.writer.sendQueue = [] →
        n.server.received = n.client.asked.map Outgoing.message)) ∧
    n.client.received <+: n.server.asked.map Outgoing.message ∧
      (∀ buf e, n.client.reading = .buffered buf → n.client.processor.consume buf ≠ .error e) ∧
      (n.client.reading = .asked → n.toClient = n.server.wire → n.server.writer.sendQueue = [] →
        n.client.received = n.server.asked.map Outgoing.message) :=
  ((inv_start keys keys').runs sends_sendable h).links

/-- The client sends a text, and the server is given it. -/
theorem conversation_text : ∃ n, Runs Outgoing.Sendable (start (fun _ => 7) fun _ => 9)
    [(.client, .call (.send [0x48] .text)), (.client, .writeFrame),
      (.server, .read [0x81, 0x81, 9, 0, 0, 0, 0x41]), (.server, .round [] false),
      (.server, .round [] false)] n ∧
    n.server.received = [⟨.text, [0x48]⟩] ∧
    (n.server.received <+: n.client.asked.map Outgoing.message ∧
      (∀ buf e, n.server.reading = .buffered buf → n.server.processor.consume buf ≠ .error e) ∧
      (n.server.reading = .asked → n.toServer = n.client.wire → n.client.writer.sendQueue = [] →
        n.server.received = n.client.asked.map Outgoing.message)) ∧
    n.client.received <+: n.server.asked.map Outgoing.message ∧
      (∀ buf e, n.client.reading = .buffered buf → n.client.processor.consume buf ≠ .error e) ∧
      (n.client.reading = .asked → n.toClient = n.server.wire → n.server.writer.sendQueue = [] →
        n.client.received = n.server.asked.map Outgoing.message) := by
  have h : ∃ n, Runs Outgoing.Sendable (start (fun _ => 7) fun _ => 9)
      [(.client, .call (.send [0x48] .text)), (.client, .writeFrame),
        (.server, .read [0x81, 0x81, 9, 0, 0, 0, 0x41]), (.server, .round [] false),
        (.server, .round [] false)] n ∧ n.server.received = [⟨.text, [0x48]⟩] := by
    have hcs : ∃ cs, ([0x48] : List UInt8) = Lib.Utf8.encode cs := validate_iff.mp (by decide)
    have hread : Receive (!false) none (frameOf false 9 .text true [0x48]) [⟨.text, [0x48]⟩] none :=
      receive_data (.inl rfl) (by decide) fun _ => hcs
    obtain ⟨q, -, hround⟩ := round_receive
      (c := { opened true (fun _ => 7) with reading := .buffered [0x81, 0x81, 9, 0, 0, 0, 0x41] })
      (Hybi13.new_at true) hread [] [] false
    refine ⟨_, .cons (.client rfl ?_ ?_) (.cons (.client rfl trivial ?_)
      (.cons (.server rfl trivial ?_) (.cons (.server (congrArg some hround) ?_ ?_)
        (.cons (.server rfl ?_ ?_) (.nil _))))), ?_⟩
    · exact ⟨.inl rfl, by decide⟩
    · exact List.nil_prefix
    · exact List.nil_prefix
    · exact ⟨[], by decide⟩
    · nofun
    · exact ⟨[], rfl⟩
    · nofun
    · exact ⟨[], rfl⟩
    · rfl
  obtain ⟨n, hn, hreceived⟩ := h
  exact ⟨n, hn, hreceived, conversation hn⟩

end Network

end WebsocketTest.WebSocket
