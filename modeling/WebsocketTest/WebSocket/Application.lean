import WebsocketTest.WebSocket.Closing

/-!
# The server and its client

`server/main.cpp` answers every message with the same text, in a frame of the kind that the message
came in, and does nothing else; `client/cclient.cpp` sends texts. What the two texts are is up to
the JSON library, so that they are parameters here.

**`replies`** — the messages that the client is given are the answers to the first of those that it
sent, in that order and one for each, and when everything has arrived it has an answer to all.

## What makes it true

The server sends in the handler of a message, and the handler is called in the round that has read
it. So the answers go on the queue in the order of the messages, and nothing else does that the
client's application would see: pongs and close frames are for the connection (`dataOf` leaves them
out). The rest is the conversation of the two ends, once in each direction.

Two things are asked for. The answer has to be UTF-8, because a text that is not is refused by
`send`, and there would be a message without an answer; the JSON library writes UTF-8. And the
server calls `send` nowhere else (`Serves`), which is what its program says. Where the server has
closed, or was closed, a message that comes in later is not answered, and nothing is promised of it.
-/

set_option autoImplicit false

namespace WebsocketTest.WebSocket

open Lib.Run Lib.Utf8

/-! ## The two programs -/

/-- `on_message` of the server: `s->send(hdl, rec, msg->get_opcode())`. -/
def onMessage (rec : List UInt8) (msg : Message) : List Connection.Call :=
  [.send rec msg.opcode]

/-- The answer to a message, as a message. -/
def reply (rec : List UInt8) (msg : Message) : Message := ⟨msg.opcode, rec⟩

/-- The messages for the application: the control frames are for the connection. -/
def dataOf (ms : List Message) : List Message := ms.filter fun m => !m.opcode.isControl

/-- What is asked for is no message for the application of the other end. -/
def Outgoing.Quiet (o : Outgoing) : Prop := o.message.opcode.isControl = true

namespace Connection

variable {c c' : Connection} {rec : List UInt8}

theorem allows_quiet : Allows Outgoing.Quiet := ⟨fun _ => rfl, fun _ _ => rfl⟩

theorem dataOf_append (ms ms' : List Message) : dataOf (ms ++ ms') = dataOf ms ++ dataOf ms' :=
  List.filter_append _ _

/-! ## The server

The invariant says that the answers asked for are those to a beginning of the messages that came,
and to all of them as long as the connection is open. It is a beginning only once the server is
closing: then `send` refuses. -/

/-- The answers that were sent are those to the first of the messages that came. -/
structure Replying (rec : List UInt8) (c : Connection) : Prop where
  answers : dataOf (c.asked.map Outgoing.message) <+: (dataOf c.received).map (reply rec)
  all : c.state = .opened →
    dataOf (c.asked.map Outgoing.message) = (dataOf c.received).map (reply rec)

theorem replying_opened (rec : List UInt8) (isServer : Bool) (keys : Nat → UInt32) :
    Replying rec (opened isServer keys) :=
  ⟨List.nil_prefix, fun _ => rfl⟩

theorem Move.dataOf_asked (h : Move Outgoing.Quiet c c') :
    dataOf (c'.asked.map Outgoing.message) = dataOf (c.asked.map Outgoing.message) := by
  have hadd : ∀ {o : Outgoing}, o.Quiet → dataOf ((c.asked ++ [o]).map Outgoing.message) =
      dataOf (c.asked.map Outgoing.message) := by
    intro o ho
    have hnil : dataOf ([o].map Outgoing.message) = [] := by
      rw [dataOf, List.map_singleton, List.filter_singleton]
      simp [show o.message.opcode.isControl = true from ho]
    rw [List.map_append, dataOf_append, hnil, List.append_nil]
  cases h with
  | quiet hq => rw [hq.asked]
  | push _ hok _ _ => exact hadd hok
  | close _ hok _ => exact hadd hok
  | terminate _ => rfl
  | write _ _ => rfl
  | @last failed w e hstep hlast =>
    obtain ⟨ec, hec⟩ := handleWriteEnd_last { c with writer := w } hlast
    rw [hec, (terminate_eq ec).2.1]
  | shutdown _ => rfl

/-- Nothing is sent to the other application, and no message has come from it. -/
theorem Replying.quiet (h : Replying rec c) {e : Event} (hstep : c.step e = some c')
    (he : e.Ok Outgoing.Quiet) (hnone : dataOf c'.received = dataOf c.received) :
    Replying rec c' := by
  obtain ⟨p, r, msg, -, hmoves⟩ := step_cases hstep he allows_quiet
  have hasked : dataOf (c'.asked.map Outgoing.message) = dataOf (c.asked.map Outgoing.message) :=
    hmoves.invariant (P := fun d => dataOf (d.asked.map Outgoing.message) =
      dataOf (c.asked.map Outgoing.message)) (fun _ _ hd hmove => hmove.dataOf_asked.trans hd) rfl
  refine ⟨by rw [hasked, hnone]; exact h.answers, fun hs => ?_⟩
  rw [hasked, hnone]
  apply h.all
  by_contra hnot
  exact hmoves.not_opened (c := c.readTo p r msg) hnot hs

/-- A message that came is answered, if the connection is open, and if it is not there is no answer
    to it nor to any later one. -/
theorem Replying.message (h : Replying rec c) (hrec : ∃ cs, rec = encode cs) {m : Message}
    (hm : m.opcode.isControl = false) (p : Hybi13) (r : Reading) :
    Replying rec ({ c with processor := p, reading := r, received := c.received ++ [m] }.callAll
      (onMessage rec m)) := by
  have hdata : dataOf (c.received ++ [m]) = dataOf c.received ++ [m] := by
    rw [dataOf_append]
    congr 1
    simp [dataOf, hm]
  let d : Connection := { c with processor := p, reading := r, received := c.received ++ [m] }
  have hcall : d.callAll (onMessage rec m) = (d.sendOpen (.data m.opcode rec)).2 := rfl
  show Replying rec (d.callAll (onMessage rec m))
  rw [hcall, sendOpen]
  by_cases hs : c.state = .opened
  · have hprepare : (Outgoing.data m.opcode rec).prepare d.isServer (d.keys 0) =
        .ok (prepare d.isServer (d.keys 0) m.opcode true rec) := by
      rw [Outgoing.prepare, prepareDataFrame, if_neg (by rw [hm]; nofun),
        if_neg (by rw [validate_iff.mpr hrec]; simp)]
    rw [if_neg (not_not.mpr hs), hprepare]
    have hasked : dataOf ((c.asked ++ [Outgoing.data m.opcode rec]).map Outgoing.message) =
        (dataOf (c.received ++ [m])).map (reply rec) := by
      have hone : dataOf ([Outgoing.data m.opcode rec].map Outgoing.message) =
          [m].map (reply rec) := by
        simp [dataOf, Outgoing.message, hm, reply]
      rw [List.map_append, dataOf_append, h.all hs, hdata, List.map_append, hone]
    refine ⟨?_, fun _ => hasked⟩
    show dataOf ((c.asked ++ [Outgoing.data m.opcode rec]).map Outgoing.message) <+:
      (dataOf (c.received ++ [m])).map (reply rec)
    rw [hasked]
  · rw [if_pos hs]
    refine ⟨?_, fun hs' => absurd hs' hs⟩
    show dataOf (c.asked.map Outgoing.message) <+: (dataOf (c.received ++ [m])).map (reply rec)
    rw [hdata, List.map_append]
    exact h.answers.trans (List.prefix_append _ _)

/-- A round hands a message to the application, or it does not matter what the application would
    do. -/
theorem round_data (c : Connection) (buf : List UInt8) (calls : List Call) (pong : Bool) :
    (∃ p rest m, c.processor.consume buf = .ok (p, rest) ∧ p.isReady = true ∧
      p.getMessage.1 = some m ∧ m.opcode.isControl = false ∧ c.round buf calls pong =
        { c with
          processor := p.getMessage.2
          reading := .buffered rest
          received := c.received ++ [m] }.callAll calls) ∨
      c.round buf calls pong = c.round buf [] pong ∧
        dataOf (c.round buf [] pong).received = dataOf c.received := by
  unfold round
  cases hconsume : c.processor.consume buf with
  | error failure =>
    right
    cases failure with
    | lengthError => exact ⟨rfl, rfl⟩
    | code e =>
      refine ⟨rfl, ?_⟩
      have hclose : SameReader { c with reading := .stopped }
          ({ c with reading := .stopped }.close e.toWs (bytesOf e.message)).2 :=
        (moves_close allows_true trivial).sameReader
      dsimp only
      split
      · next ec c₁ hc₁ =>
        rw [hc₁] at hclose
        rw [(sameReader_terminate (some ec)).received, hclose.received]
      · next c₁ hc₁ =>
        rw [hc₁] at hclose
        rw [hclose.received]
  | ok s =>
    obtain ⟨p, rest⟩ := s
    by_cases hready : p.isReady = true
    · simp only [hready, if_true]
      cases hmsg : p.getMessage.1 with
      | none => exact .inr ⟨rfl, rfl⟩
      | some m =>
        cases hm : m.opcode.isControl with
        | false =>
          refine .inl ⟨p, rest, m, rfl, hready, hmsg, hm, ?_⟩
          simp [dispatch, hm]
        | true =>
          right
          have hcontrol : ∀ (d : Connection) (ks : List Call), d.dispatch m ks pong =
              { d with received := d.received ++ [m] }.processControlFrame m pong := by
            intro d ks
            rw [dispatch, if_pos hm]
          dsimp only
          rw [hcontrol, hcontrol]
          have hsame := (moves_processControlFrame
            { c with reading := .buffered rest, processor := p.getMessage.2 } m pong
            allows_true).sameReader
          refine ⟨rfl, ?_⟩
          rw [hsame.received]
          show dataOf (c.received ++ [m]) = dataOf c.received
          rw [dataOf_append]
          simp [dataOf, hm]
    · simp [hready]

/-- The handler of the server is called for a message, and the server does nothing else. -/
def Serves (rec : List UInt8) (c : Connection) : Event → Prop
  | .call _ => False
  | .round calls _ => ∀ buf p rest m, c.reading = .buffered buf →
    c.processor.consume buf = .ok (p, rest) → p.isReady = true → p.getMessage.1 = some m →
    m.opcode.isControl = false → calls = onMessage rec m
  | _ => True

theorem Replying.step (h : Replying rec c) (hrec : ∃ cs, rec = encode cs) {e : Event}
    (hserves : c.Serves rec e) (hstep : c.step e = some c') : Replying rec c' := by
  have hquiet : e.Ok Outgoing.Quiet → (∀ calls pong, e ≠ .round calls pong) → Replying rec c' := by
    intro he hround
    obtain ⟨p, r, msg, hreads, hmoves⟩ := step_cases hstep he allows_quiet
    refine h.quiet hstep he ?_
    rw [hmoves.sameReader.received]
    cases hreads with
    | round => exact absurd rfl (hround _ _)
    | message => exact absurd rfl (hround _ _)
    | _ => rw [readTo_none]
  cases e with
  | call k => exact absurd hserves id
  | round calls pong =>
    have hnot : ∀ k ∈ ([] : List Call), k.Ok Outgoing.Quiet := fun k hk => by cases hk
    cases hr : c.reading with
    | buffered buf =>
      cases buf with
      | nil =>
        rw [Connection.step, hr] at hstep
        cases hstep
        exact ⟨h.answers, h.all⟩
      | cons b bs =>
        have hgoes : ∀ calls, c.step (.round calls pong) = some (c.round (b :: bs) calls pong) := by
          intro calls
          rw [Connection.step, hr]
        obtain rfl : c.round (b :: bs) calls pong = c' :=
          Option.some.inj ((hgoes calls).symm.trans hstep)
        rcases c.round_data (b :: bs) calls pong with
          ⟨p, rest, m, hconsume, hready, hmsg, hm, heq⟩ | ⟨heq, hnone⟩
        · rw [heq, hserves _ p rest m hr hconsume hready hmsg hm]
          exact h.message hrec hm _ _
        · rw [heq]
          exact h.quiet (hgoes []) hnot hnone
    | asked =>
      rw [Connection.step, hr] at hstep
      cases hstep
    | stopped =>
      rw [Connection.step, hr] at hstep
      cases hstep
  | _ => exact hquiet trivial (by simp)

end Connection

namespace Network

open Connection

/-! ## Both -/

/-- The server does what its program says, and the client what it likes. -/
def Serves (rec : List UInt8) (n : Network) : Side × Event → Prop
  | (.server, e) => n.server.Serves rec e
  | (.client, _) => True

variable {n n' : Network} {rec : List UInt8}

/-- **The answers**: at any time in any run, the messages that the client was given are the answers
    to the first of the messages that it sent, one for each and in order; and if the server has not
    closed and everything was read, there is an answer to each. -/
theorem replies {keys keys' : Nat → UInt32} {ls : List (Side × Event)}
    (hrec : ∃ cs, rec = encode cs)
    (h : Lib.Run.Steps (guard (Serves rec) (Step Outgoing.Sendable)) (start keys keys') ls n) :
    dataOf n.client.received <+: (dataOf (n.client.asked.map Outgoing.message)).map (reply rec) ∧
      (n.server.state = .opened → n.server.reading = .asked → n.client.reading = .asked →
        n.toServer = n.client.wire → n.toClient = n.server.wire →
        n.client.writer.sendQueue = [] → n.server.writer.sendQueue = [] →
        dataOf n.client.received =
          (dataOf (n.client.asked.map Outgoing.message)).map (reply rec)) := by
  have hn : n.Inv ∧ Replying rec n.server := by
    refine h.invariant (P := fun n => n.Inv ∧ Replying rec n.server) ?_
      ⟨inv_start keys keys', replying_opened rec true keys⟩
    rintro n l n' ⟨hinv, hreply⟩ ⟨hserves, hstep⟩
    refine ⟨hinv.step sends_sendable hstep, ?_⟩
    cases hstep with
    | server hs _ _ => exact hreply.step hrec hserves hs
    | client _ _ _ => exact hreply
  obtain ⟨hinv, hreply⟩ := hn
  obtain ⟨⟨hserver, -, hserverAll⟩, hclient, -, hclientAll⟩ := hinv.links
  constructor
  · have hdata : (dataOf n.server.received).map (reply rec) <+:
        (dataOf (n.client.asked.map Outgoing.message)).map (reply rec) :=
      (hserver.filter _).map _
    exact ((hclient.filter _).trans hreply.answers).trans hdata
  · intro hs hserverAsked hclientAsked hto hfrom hq hq'
    rw [hclientAll hclientAsked hfrom hq', hreply.all hs, hserverAll hserverAsked hto hq]

/-- The client sends a text, the server answers it, and the client is given the answer. -/
theorem replies_text : ∃ n, Lib.Run.Steps (guard (Serves [0x4F, 0x6B]) (Step Outgoing.Sendable))
    (start (fun _ => 7) fun _ => 9)
    [(.client, .call (.send [0x48] .text)), (.client, .writeFrame),
      (.server, .read [0x81, 0x81, 9, 0, 0, 0, 0x41]),
      (.server, .round [.send [0x4F, 0x6B] .text] false), (.server, .writeFrame),
      (.client, .read [0x81, 2, 0x4F, 0x6B]), (.client, .round [] false)] n ∧
    n.client.received = [⟨.text, [0x4F, 0x6B]⟩] ∧
    dataOf n.client.received <+:
      (dataOf (n.client.asked.map Outgoing.message)).map (reply [0x4F, 0x6B]) ∧
      (n.server.state = .opened → n.server.reading = .asked → n.client.reading = .asked →
        n.toServer = n.client.wire → n.toClient = n.server.wire →
        n.client.writer.sendQueue = [] → n.server.writer.sendQueue = [] →
        dataOf n.client.received =
          (dataOf (n.client.asked.map Outgoing.message)).map (reply [0x4F, 0x6B])) := by
  have hask : ∃ cs, ([0x48] : List UInt8) = encode cs := validate_iff.mp (by decide)
  have htext : ∃ cs, ([0x4F, 0x6B] : List UInt8) = encode cs := validate_iff.mp (by decide)
  have hto : Receive (!false) none (frameOf false 9 .text true [0x48]) [⟨.text, [0x48]⟩] none :=
    receive_data (.inl rfl) (by decide) fun _ => hask
  have hfrom : Receive (!true) none (frameOf true 7 .text true [0x4F, 0x6B])
      [⟨.text, [0x4F, 0x6B]⟩] none := receive_data (.inl rfl) (by decide) fun _ => htext
  obtain ⟨r, hr, hconsume⟩ := Hybi13.consume_receive (Hybi13.new_at true) hto
  -- the round in which the server is given the message, and its handler answers
  obtain ⟨q, -, hround⟩ := round_receive
    (c := { opened true (fun _ => 7) with reading := .buffered [0x81, 0x81, 9, 0, 0, 0, 0x41] })
    (Hybi13.new_at true) hto [] [.send [0x4F, 0x6B] .text] false
  have hprepare : (Outgoing.data .text [0x4F, 0x6B]).prepare (opened true fun _ => 7).isServer
      ((opened true fun _ => 7).keys 0) = .ok ⟨[0x81, 2], [0x4F, 0x6B], false⟩ := rfl
  have hanswered : ({ opened true (fun _ => 7) with
      processor := q
      reading := .buffered [] } : Connection).dispatch ⟨.text, [0x48]⟩
        [.send [0x4F, 0x6B] .text] false =
      { opened true (fun _ => 7) with
        processor := q
        reading := .buffered []
        received := [⟨.text, [0x48]⟩]
        writer := ({} : Writer).push ⟨[0x81, 2], [0x4F, 0x6B], false⟩
        asked := [.data .text [0x4F, 0x6B]] } := by
    show (sendOpen _ (.data .text [0x4F, 0x6B])).2 = _
    rw [sendOpen]
    dsimp only
    rw [hprepare]
    rfl
  -- that the handler does as `on_message` does, on the message that was completed
  have hserves : ({ opened true (fun _ => 7) with
      reading := .buffered [0x81, 0x81, 9, 0, 0, 0, 0x41] } : Connection).Serves [0x4F, 0x6B]
      (.round [.send [0x4F, 0x6B] .text] false) := by
    intro buf p rest m hbuf hp hready hm hdata
    cases hbuf
    obtain ⟨rfl, -⟩ := Prod.mk.inj (Except.ok.inj ((hconsume []).symm.trans hp))
    rw [hr.getMessage] at hm
    cases hm
    rfl
  have hsendable : (Outgoing.data .text [0x48]).Sendable ∧
      (Outgoing.data .text [0x4F, 0x6B]).Sendable :=
    ⟨⟨.inl rfl, by decide⟩, .inl rfl, by decide⟩
  -- all steps but the last, in which the client is given the answer
  obtain ⟨n, hn, hat, hreading, hfresh⟩ : ∃ n,
      Lib.Run.Steps (guard (Serves [0x4F, 0x6B]) (Step Outgoing.Sendable))
        (start (fun _ => 7) fun _ => 9)
        [(.client, .call (.send [0x48] .text)), (.client, .writeFrame),
          (.server, .read [0x81, 0x81, 9, 0, 0, 0, 0x41]),
          (.server, .round [.send [0x4F, 0x6B] .text] false), (.server, .writeFrame),
          (.client, .read [0x81, 2, 0x4F, 0x6B])] n ∧
        n.client.processor.At false none ∧
        n.client.reading = .buffered [0x81, 2, 0x4F, 0x6B] ∧ n.client.received = [] := by
    refine ⟨_, .cons ⟨trivial, .client rfl hsendable.1 List.nil_prefix⟩
      (.cons ⟨trivial, .client rfl trivial List.nil_prefix⟩
      (.cons ⟨trivial, .server rfl trivial ⟨[], rfl⟩⟩
      (.cons ⟨hserves, .server (congrArg some (hround.trans hanswered)) ?_ ⟨[], rfl⟩⟩
      (.cons ⟨trivial, .server rfl trivial ⟨[], rfl⟩⟩
      (.cons ⟨trivial, .client rfl trivial ⟨[], rfl⟩⟩ (.nil _)))))),
      Hybi13.new_at false, rfl, rfl⟩
    simpa [Event.Ok, Connection.Call.Ok] using hsendable.2
  have hinv := (inv_start _ _).runs sends_sendable (hn.mono fun _ _ _ h => h.2)
  have hnone : ∀ k ∈ ([] : List Connection.Call), k.Ok Outgoing.Sendable := by simp
  obtain ⟨c, hstep, hreceived⟩ :=
    hinv.client_round sends_sendable.toAllows hat hfrom hreading hnone false
  have hfree : Serves [0x4F, 0x6B] n (.client, .round [] false) := trivial
  have hruns := hn.append (.single ⟨hfree, hstep⟩)
  rw [hfresh] at hreceived
  exact ⟨_, hruns, hreceived, replies htext hruns⟩

end Network

end WebsocketTest.WebSocket
