import WebsocketTest.Lib.Pipeline
import WebsocketTest.Redis.Reply

/-!
# The connections of `redis::base_client`

A request leaves through `send_`, which is `anetWrite`, and its reply comes in through one of the
`recv_…_reply_` functions. At the other end of each socket a server takes the bytes apart into
requests and answers one after the other; what it answers is the parameter `serve`.

As long as replies are read from their first byte to their last, the bytes in a socket are those of
the replies that the connection still owes: `Shows` is that abstraction, to the queues of
`Lib.Pipeline`, and sending and receiving are `send` and `recv` there (`comes_send`,
`comes_recvFrom`). A reply that its reader gives up in the middle leaves the rest of its bytes in
front of the others (`Queues.torn`).

`send_` passes the size of the message as an `int`. A message of 2 ^ 31 bytes or more is a negative
count or a shorter one, so that what holds of messages is stated of those that are `IntSized`.

## What is a parameter

What a server answers to a request is a function of its state and of the request (`serve`), and
nothing is assumed of it until the module on strings. When its bytes arrive, and in which pieces, is
the schedule of its socket; a `write` takes as much as the network says, but something. A server
answers as soon as it has a whole request. One that answers later is a schedule in which the bytes
arrive later, because nobody but this client talks to it in this model.

A socket that is lost is not modelled here beyond `anetWrite` and the readers, which have their
cases for it: the results on commands are about sockets that stay open. What becomes of a client
whose connection is lost is the subject of the modules on the pool.
-/

set_option autoImplicit false

namespace WebsocketTest.Redis

open Lib.Text Lib.Outcome Lib.Stream Lib.Resp Lib.Pipeline Lib.Integers

/-! ## Commands -/

/-- `makecmd`: the command and its arguments. Which of them is the key matters to a `command` only,
    and is kept there. -/
structure MakeCmd where
  lines : List Str

namespace MakeCmd

def new (cmdName : Str) : MakeCmd := ⟨[cmdName]⟩

/-- `<< datum`. -/
def append (cmd : MakeCmd) (datum : Str) : MakeCmd := ⟨cmd.lines ++ [datum]⟩

/-- `<< data`. -/
def appendAll (cmd : MakeCmd) (data : List Str) : MakeCmd := ⟨cmd.lines ++ data⟩

/-- `operator std::string`. -/
def str (cmd : MakeCmd) : Str :=
  '*' :: (decimal cmd.lines.length ++ "\r\n".toList) ++ cmd.lines.flatMap fun param =>
    '$' :: (decimal param.length ++ "\r\n".toList) ++ (param ++ "\r\n".toList)

/-- **What is sent is a request** of the lines. -/
theorem str_eq (cmd : MakeCmd) : cmd.str = request cmd.lines := by
  have hbulk (param : Str) : '$' :: (decimal param.length ++ "\r\n".toList) ++
      (param ++ "\r\n".toList) = bulk param := by simp [bulk, line]
  simp only [str, hbulk]
  simp [request, line]

end MakeCmd

/-- `command`. -/
structure Command where
  request : Str
  hashKey : Str
  reply : ReplyData

/-- `set_reply`. -/
def Command.setReply (cmd : Command) (reply : ReplyData) : Command := { cmd with reply := reply }

/-! ## `anetWrite` -/

/-- What a `write` comes to: it takes some of what it is given, or fails. -/
inductive Wrote
  | took (count : Nat)
  | failed (err : Str)
  deriving DecidableEq

/-- What `anetWrite` returns, or the `errno` of the `write` that failed; what it wrote, and what
    the next calls come to. -/
structure AnetWrite where
  total : Except Str Nat
  written : Str
  writes : List Wrote

/-- The loop of `anetWrite`, on what is still to be written. A `write` takes no more than it is
    given; one of which nothing is said takes it all. -/
def writeLoop : List Wrote → Str → AnetWrite
  | ws, [] => ⟨.ok 0, [], ws⟩
  | [], buf => ⟨.ok buf.length, buf, []⟩
  | .failed err :: ws, _ :: _ => ⟨.error err, [], ws⟩
  | .took 0 :: ws, _ :: _ => ⟨.ok 0, [], ws⟩
  | .took (k + 1) :: ws, c :: buf =>
    let r := writeLoop ws (buf.drop k)
    ⟨r.total.map (min (k + 1) (buf.length + 1) + ·), c :: buf.take k ++ r.written, r.writes⟩

/-- `anetWrite`, to a socket that is open. A negative count becomes a `size_t` that is larger than
    any buffer, and the first `write` refuses it. -/
def anetWrite (ws : List Wrote) (buf : Str) (count : Int) : AnetWrite :=
  if count < 0 then ⟨.error "Bad address".toList, [], ws⟩ else writeLoop ws (buf.take count.toNat)

/-- The write takes something. One that takes nothing ends the loop of `anetWrite` early, and no
    blocking socket has one. -/
def Wrote.Took (w : Wrote) : Prop := ∃ k, w = .took (k + 1)

theorem writeLoop_all {ws : List Wrote} (h : ∀ w ∈ ws, w.Took) (buf : Str) :
    (writeLoop ws buf).total = .ok buf.length ∧ (writeLoop ws buf).written = buf ∧
      ∀ w ∈ (writeLoop ws buf).writes, w.Took := by
  induction ws generalizing buf with
  | nil =>
    cases buf with
    | nil => exact ⟨rfl, rfl, h⟩
    | cons c buf => exact ⟨rfl, rfl, h⟩
  | cons w ws ih =>
    cases buf with
    | nil => exact ⟨rfl, rfl, h⟩
    | cons c buf =>
      rw [List.forall_mem_cons] at h
      obtain ⟨⟨k, rfl⟩, hws⟩ := h
      obtain ⟨htotal, hwritten, hrest⟩ := ih hws (buf.drop k)
      rw [writeLoop]
      refine ⟨?_, ?_, hrest⟩
      · simp only [htotal, Except.map, List.length_drop, List.length_cons, Except.ok.injEq]
        omega
      · simp only [hwritten, List.cons_append, List.take_append_drop]

/-- The size of the message is an `int`. -/
abbrev IntSized (msg : Str) : Prop := msg.length < 2147483648

theorem IntSized.count {msg : Str} (h : IntSized msg) : toS32 msg.length = msg.length :=
  toS32_eq (by omega) (by omega)

/-- **All is written**, in pieces, if no `write` fails. -/
theorem anetWrite_all {ws : List Wrote} (h : ∀ w ∈ ws, w.Took) {buf : Str} (hbuf : IntSized buf) :
    (anetWrite ws buf (toS32 buf.length)).total = .ok buf.length ∧
      (anetWrite ws buf (toS32 buf.length)).written = buf ∧
      ∀ w ∈ (anetWrite ws buf (toS32 buf.length)).writes, w.Took := by
  have hloop : anetWrite ws buf (toS32 buf.length) = writeLoop ws buf := by
    rw [hbuf.count, anetWrite, if_neg (by omega), Int.toNat_natCast, List.take_length]
  rw [hloop]
  exact writeLoop_all h buf

/-! ## The client and its servers -/

/-- `base_client`: the sockets of its connections, and which of them the hasher picks for a key. -/
structure BaseClient where
  connections : List Int
  hasher : Str → Nat
  positive : ∀ s ∈ connections, 0 < s
  nodup : connections.Nodup
  hasher_lt : ∀ key, hasher key < connections.length

namespace BaseClient

variable (c : BaseClient)

/-- `get_socket(key)`. -/
def getSocket (key : Str) : Int :=
  if c.connections.length = 1 then c.connections.getD 0 (-1)
  else c.connections.getD (c.hasher key) (-1)

theorem getSocket_mem (key : Str) : c.getSocket key ∈ c.connections := by
  have hlt := c.hasher_lt key
  have hget {i : Nat} (hi : i < c.connections.length) :
      c.connections.getD i (-1) ∈ c.connections := by
    rw [List.getD_eq_getElem?_getD, List.getElem?_eq_getElem hi]
    exact List.getElem_mem hi
  rw [getSocket]
  split
  · exact hget (by omega)
  · exact hget hlt

/-- The loop of `get_socket(keys)`, behind the first key. -/
def sameSocket (socket : Int) : List Str → Int
  | [] => socket
  | key :: keys => if socket ≠ c.getSocket key then -1 else sameSocket (c.getSocket key) keys

/-- `get_socket(keys)`. -/
def getSocketOf (keys : List Str) : Int :=
  if c.connections.length = 1 then c.connections.getD 0 (-1)
  else
    match keys with
    | [] => -1
    | key :: keys => c.sameSocket (c.getSocket key) keys

end BaseClient

variable {σ : Type}

/-- The servers at the other ends of the sockets, each with the part of a request that it has not
    got all of, and the sockets: what they will receive, and what the next writes come to. -/
structure Net (σ : Type) where
  server : Int → σ
  pending : Int → Str
  source : Int → Source Char Str
  writes : Int → List Wrote

abbrev Op (σ : Type) (β : Type) := Program (Net σ) Thrown β

variable (serve : σ → List Str → σ × Value)

/-- A server and its answers to requests, in order. -/
def serveAll : σ → List (List Str) → σ × List Value
  | s, [] => (s, [])
  | s, args :: rs =>
    let r := serveAll (serve s args).1 rs
    (r.1, (serve s args).2 :: r.2)

/-- Bytes get to a server, which answers the requests that they make whole and keeps the rest. -/
def Net.deliver (socket : Int) (bytes : Str) (w : Net σ) : Net σ :=
  let got := requests (w.pending socket ++ bytes)
  let served := serveAll serve (w.server socket) got.1
  { w with
    server := Function.update w.server socket served.1
    pending := Function.update w.pending socket got.2
    source := Function.update w.source socket
      { w.source socket with input := (w.source socket).input ++ encodeAll served.2 } }

/-- `send_`. The size of the message is passed as an `int`. Where there is something to write, to
    write it to a socket that is not open is an error. -/
def send_ (c : BaseClient) (socket : Int) (msg : Str) : Op σ Unit := program fun w =>
  let count := toS32 msg.length
  if socket ∈ c.connections then
    let r := anetWrite (w.writes socket) msg count
    let w := Net.deliver serve socket r.written
      { w with writes := Function.update w.writes socket r.writes }
    match r.total with
    | .error err => (.error (.connection err), w)
    | .ok _ => (.ok (), w)
  else if count = 0 then (.ok (), w)
  else (.error (.connection "Bad file descriptor".toList), w)

/-- A reply is read from a socket. -/
def recvFrom {β : Type} (socket : Int) (m : Recv β) : Op σ β := program fun w =>
  let r := m.run.run (w.source socket)
  (r.1, { w with source := Function.update w.source socket r.2 })

/-! ## The queues behind the bytes

The bytes in a socket are cut into replies by whoever reads them. As long as every reader takes its
reply whole, nobody needs to know the bytes: a connection is a queue of replies. -/

/-- The servers, and what comes out of each socket: the rest of a reply that was given up in the
    middle, and the replies that the connection owes. -/
structure Queues (σ : Type) where
  server : Int → σ
  torn : Int → Str
  owing : Owing Int Value

/-- The state in which no reply was given up in the middle: whole replies are owed, and no part of
    one. -/
def Queues.whole (server : Int → σ) (owing : Owing Int Value) : Queues σ :=
  ⟨server, fun _ => [], owing⟩

/-- The bytes in the sockets are those of the replies that are owed, the servers have no part of a
    request, and no write will fail. -/
structure Shows (w : Net σ) (q : Queues σ) : Prop where
  server : w.server = q.server
  pending : ∀ s, w.pending s = []
  input : ∀ s, (w.source s).input = q.torn s ++ encodeAll (q.owing s)
  writes : ∀ s, ∀ x ∈ w.writes s, x.Took

/-- Requests are made on a socket. -/
def Queues.request (q : Queues σ) (socket : Int) (rs : List (List Str)) : Queues σ :=
  let served := serveAll serve (q.server socket) rs
  ⟨Function.update q.server socket served.1, q.torn, send q.owing socket served.2⟩

/-- The oldest reply on a socket is read, all but these bytes of it. -/
def Queues.reply (q : Queues σ) (socket : Int) (left : Str) : Queues σ :=
  ⟨q.server, Function.update q.torn socket left, (recv q.owing socket).2⟩

variable {serve} {c : BaseClient} {q : Queues σ} {socket : Int}

/-- **What is sent is served**, and its replies are owed. -/
theorem comes_send (hsocket : socket ∈ c.connections) (rs : List (List Str))
    (hsize : IntSized (rs.flatMap request)) :
    Comes Shows (send_ serve c socket (rs.flatMap request)) q (.ok ())
      (q.request serve socket rs) := by
  intro w hw
  obtain ⟨htotal, hwritten, hwrites⟩ := anetWrite_all (hw.writes socket) hsize
  have hgot : requests (w.pending socket ++ rs.flatMap request) = (rs, []) := by
    rw [hw.pending, List.nil_append, requests_flatMap]
  rw [send_, run_program, if_pos hsocket]
  simp only [htotal, hwritten]
  refine ⟨_, rfl, ?_, ?_, ?_, ?_⟩
  · simp only [Net.deliver, hgot, hw.server, Queues.request]
  · intro s
    simp only [Net.deliver, hgot]
    rw [Function.update_apply]
    split
    · rfl
    · exact hw.pending s
  · intro s
    simp only [Net.deliver, hgot, Queues.request, send, Function.update_apply]
    split
    · rename_i hs
      rw [hs, hw.input, hw.server, encodeAll_append, List.append_assoc]
    · exact hw.input s
  · intro s x hx
    simp only [Net.deliver, Function.update_apply] at hx
    split at hx
    · exact hwrites x hx
    · exact hw.writes s x hx

theorem comes_send_one (hsocket : socket ∈ c.connections) {args : List Str}
    (hsize : IntSized (request args)) :
    Comes Shows (send_ serve c socket (request args)) q (.ok ())
      (q.request serve socket [args]) := by
  have hone : [args].flatMap request = request args := by simp
  have h : Comes Shows (send_ serve c socket _) q _ _ :=
    comes_send hsocket [args] (hone ▸ hsize)
  rwa [hone] at h

/-- **A reply that is read from its first byte on** is the oldest that is owed, and the bytes that
    its reader does not take are in front of the next. -/
theorem comes_recvFrom {β : Type} {m : Recv β} {v : Value} {vs : List Value} {r : Except Thrown β}
    {left : Str} (htorn : q.torn socket = []) (hv : q.owing socket = v :: vs)
    (hm : ∀ ending rest, Reads ending m (encode v ++ rest) r (left ++ rest)) :
    Comes Shows (recvFrom socket m) q r (q.reply socket left) := by
  intro w hw
  have hinput : (w.source socket).input = encode v ++ encodeAll vs := by
    rw [hw.input, htorn, hv, encodeAll, List.nil_append]
  obtain ⟨s', hrun, hs', -⟩ := hm (w.source socket).ending _ (w.source socket) ⟨hinput, rfl⟩
  rw [recvFrom, run_program, hrun]
  refine ⟨_, rfl, hw.server, hw.pending, ?_, hw.writes⟩
  intro s
  simp only [Queues.reply, recv, Function.update_apply]
  split
  · rw [hs', hv, List.tail_cons]
  · exact hw.input s

end WebsocketTest.Redis
