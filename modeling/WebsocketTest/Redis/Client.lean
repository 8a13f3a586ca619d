import WebsocketTest.Lib.Pipeline
import WebsocketTest.Lib.Text
import Mathlib.Data.List.FinRange

/-!
# `redis::client`, and the macro around its operations

A client has `n` connections. An operation writes its requests, a `send_` for each connection it
uses, and then reads their replies one by one; the first that is not what it should be is thrown,
and the rest is not read. `GPN_OPERATION` catches what is thrown. Three texts make it reconnect and
run the operation again, every other is logged, and in each case the client goes back to the pool.

The text of that log line is `" error %s"` with the message streamed behind it, so that the `%s` has
no argument. `vfprintf` then reads one that was never passed, which is undefined and mostly a crash;
an execution that gets there has no result here. It does not get there while `ERROR` lines are
switched off.

What the server answers and what the calls to the kernel come back with is the `RedisWorld` of a
run. Of a request only its place is kept: which run of an operation wrote it, in which `send_`, and
the how many-th command of that it is.

**`func_spec`** — what a run on an idle client leaves unread, by the point at which it stops.

## How much of an operation is kept

An `Operation` is what all of them have in common: requests in batches, and then a reply for each
request, in the same order. Which commands these are does not matter for what stays unread, only how
many each `send_` writes and where. `msetex` is one of them, with two requests for each key at most.

A connection is a queue of requests without a reply (`Lib/Pipeline`), so that an unread reply is
known by the request it answers. A reader that takes what is oldest there takes the reply to its own
request exactly if nothing older was left. The byte-level model beside this one (`Net`, `Shows`)
shows that a connection is such a queue as long as replies are read whole.
-/

set_option autoImplicit false

namespace WebsocketTest

open Lib.Text Lib.Pipeline

variable {n : Nat}

structure Request where
  owner : Nat
  batch : Nat
  pos : Nat
  deriving DecidableEq

/-- A `redis::client` of `n` connections: the requests whose replies have not been read. -/
abbrev RedisClient (n : Nat) := Owing (Fin n) Request

/-- What the reading of a reply comes to. `error` is every complete reply that makes the reader
    throw, `closed` a `recv` that returns 0, `recvError` one that fails. -/
inductive Reply
  | ok
  | error (what : Str)
  | closed
  | recvError (err : Str)

/-- What is thrown for a reply. After `lost` there are no more replies on its connection. -/
inductive ReplyFault
  | error (what : Str)
  | lost (what : Str)

def ReplyFault.what : ReplyFault → Str
  | .error what => what
  | .lost what => what

def Reply.fault : Reply → Option ReplyFault
  | .ok => none
  | .error what => some (.error what)
  | .closed => some (.lost "connection was closed".toList)
  | .recvError err => some (.lost ("recv error: ".toList ++ err))

/-- One run of an operation: the text that the `k`-th `send_` throws, if it does, and the `k`-th
    reply. -/
structure RedisWorld where
  sendError : Nat → Option Str
  reply : Nat → Reply

/-- An operation: for each `send_`, its connection, and how many requests it writes. -/
structure Operation (n : Nat) where
  batches : List (Fin n × Nat)
  nonempty : batches ≠ []
  positive : ∀ b ∈ batches, 0 < b.2

/-- `msetex`: an `MSET` to each socket that has keys, and an `EXPIRE` for each of the keys. -/
def msetex (sockets : List (Fin n × Nat)) (h : sockets ≠ []) : Operation n where
  batches := sockets.map fun s => (s.1, s.2 + 1)
  nonempty := by simpa using h
  positive := by
    intro b hb
    obtain ⟨s, -, rfl⟩ := List.mem_map.mp hb
    exact Nat.succ_pos _

/-- What a run of an operation leaves: the client, the requests whose replies it read, and what it
    threw. -/
structure FuncRun (n : Nat) where
  client : RedisClient n
  read : List (Option Request)
  thrown : Option Str

/-- The requests of one `send_`. -/
def batchRequests (owner batch count : Nat) : List Request :=
  (List.range count).map fun pos => ⟨owner, batch, pos⟩

/-- The `send_` loop, from the `k`-th on. -/
def sendBatches (owner : Nat) (sendError : Nat → Option Str) :
    List (Fin n × Nat) → Nat → RedisClient n → RedisClient n × Option Str
  | [], _, c => (c, none)
  | (socket, count) :: batches, k, c =>
    match sendError 0 with
    | some what => (c, some what)
    | none => sendBatches owner (fun k => sendError (k + 1)) batches (k + 1)
        (send c socket (batchRequests owner k count))

/-- The `recv` loop. -/
def readReplies (reply : Nat → Reply) : List (Fin n) → RedisClient n → FuncRun n
  | [], c => ⟨c, [], none⟩
  | socket :: sockets, c =>
    match reply 0 with
    | .ok =>
      let rest := readReplies (fun k => reply (k + 1)) sockets (recv c socket).2
      ⟨rest.client, (recv c socket).1 :: rest.read, rest.thrown⟩
    | .error what => ⟨(recv c socket).2, [(recv c socket).1], some what⟩
    | .closed => ⟨clear c socket, [], some "connection was closed".toList⟩
    | .recvError err => ⟨clear c socket, [], some ("recv error: ".toList ++ err)⟩

namespace Operation

/-- The sockets to read from, in order. -/
def reads (op : Operation n) : List (Fin n) := op.batches.flatMap fun b => List.replicate b.2 b.1

/-- `func`, run on a client. -/
def func (op : Operation n) (owner : Nat) (w : RedisWorld) (c : RedisClient n) : FuncRun n :=
  match sendBatches owner w.sendError op.batches 0 c with
  | (c, some what) => ⟨c, [], some what⟩
  | (c, none) => readReplies w.reply op.reads c

end Operation

/-! ## The macro

The handler runs `reconnect` and the operation inside the `catch`, so that what they throw leaves
the macro. `reconnect` goes through the connections in their order and stops at the first whose
`init` throws. -/

/-- `reconnect`, from a connection on; `init` is the text that `init` throws. The old socket is
    replaced in any case. -/
def reconnectFrom (init : Fin n → Option Str) :
    List (Fin n) → RedisClient n → RedisClient n × Option Str
  | [], c => (c, none)
  | i :: is, c =>
    match init i with
    | some what => (clear c i, some what)
    | none => reconnectFrom init is (clear c i)

def reconnect (init : Fin n → Option Str) (c : RedisClient n) : RedisClient n × Option Str :=
  reconnectFrom init (List.finRange n) c

/-- `SOCKET_BREAKE_PIPE`, `REIDS_CONNECT_ERROR` or `BAD_FILE_DESCRIPTOR`. -/
def connectionText (what : Str) : Prop :=
  what = "Broken pipe".toList ∨ what = "connection was closed".toList ∨
    what = "Bad file descriptor".toList

instance (what : Str) : Decidable (connectionText what) :=
  inferInstanceAs (Decidable (_ ∨ _ ∨ _))

/-- One execution of the macro: the first run of `func`, whether an `ERROR` line gets as far as
    `vfprintf` (`nLogOff` is not 0, and the log file can be opened), what `reconnect` meets, and the
    second run. -/
structure Script (n : Nat) where
  first : RedisWorld
  logged : Bool
  init : Fin n → Option Str
  second : RedisWorld

/-- What an execution leaves: the client, what each run of `func` read, and what leaves the
    macro. -/
structure Execution (n : Nat) where
  client : RedisClient n
  runs : List (List (Option Request))
  thrown : Option Str

/-- `CATCH_REDIS_EXCEPTION`. The runs of `func` are the `owner`-th and the next. There is no result
    if the message of another text is formatted; that of the three texts has its argument. -/
def catchRedisException (op : Operation n) (owner : Nat) (s : Script n) (c : RedisClient n) :
    Option (Execution n) :=
  let first := op.func owner s.first c
  match first.thrown with
  | none => some ⟨first.client, [first.read], none⟩
  | some what =>
    if connectionText what then
      match reconnect s.init first.client with
      | (c, some err) => some ⟨c, [first.read], some err⟩
      | (c, none) =>
        let second := op.func (owner + 1) s.second c
        some ⟨second.client, [first.read, second.read], second.thrown⟩
    else if s.logged then none
    else some ⟨first.client, [first.read], none⟩

/-! ## Where a run stops

Three things can end a run, and for each the connections that owe replies then can be read off the
operation. -/

/-- Where a run stops: at the `k`-th `send_`, at the `k`-th reply, or not before its end. -/
inductive Stop
  | done
  | send (k : Nat) (what : Str)
  | reply (k : Nat) (e : ReplyFault)

def Stop.what : Stop → Option Str
  | .done => none
  | .send _ what => some what
  | .reply _ e => some e.what

namespace Operation

def stop (op : Operation n) (w : RedisWorld) : Stop :=
  match firstSome w.sendError op.batches.length with
  | some (k, what) => .send k what
  | none =>
    match firstSome (fun k => (w.reply k).fault) op.reads.length with
    | some (k, e) => .reply k e
    | none => .done

/-- The connection still has replies to come for requests of a run that stops there: for requests
    that were written before a failing `send_`, or behind a reply that was thrown, unless it is the
    connection that was lost. -/
def Owes (op : Operation n) : Stop → Fin n → Prop
  | .done, _ => False
  | .send k _, i => ∃ b ∈ op.batches.take k, b.1 = i
  | .reply k (.error _), i => i ∈ op.reads.drop (k + 1)
  | .reply k (.lost _), i => i ∈ op.reads.drop (k + 1) ∧ op.reads[k]? ≠ some i

/-- The requests of the batches, each with its socket. -/
def requestsFrom (owner : Nat) : List (Fin n × Nat) → Nat → List (Fin n × Request)
  | [], _ => []
  | (socket, count) :: batches, k =>
    (batchRequests owner k count).map (socket, ·) ++ requestsFrom owner batches (k + 1)

/-- The requests of an operation, in the order in which their replies are read. -/
def requests (op : Operation n) (owner : Nat) : List (Fin n × Request) :=
  requestsFrom owner op.batches 0

theorem requestsFrom_sockets (owner : Nat) (batches : List (Fin n × Nat)) (k : Nat) :
    (requestsFrom owner batches k).map Prod.fst =
      batches.flatMap fun b => List.replicate b.2 b.1 := by
  induction batches generalizing k with
  | nil => rfl
  | cons b batches ih =>
    rw [requestsFrom, List.map_append, ih, List.flatMap_cons, batchRequests, List.map_map,
      List.map_map]
    congr 1
    simp [Function.comp_def]

theorem requests_sockets (op : Operation n) (owner : Nat) :
    (op.requests owner).map Prod.fst = op.reads :=
  requestsFrom_sockets owner op.batches 0

end Operation

/-! ## The two loops -/

open Operation

theorem sendBatches_done (owner : Nat) {sendError : Nat → Option Str}
    {batches : List (Fin n × Nat)} (h : ∀ j < batches.length, sendError j = none) (k : Nat)
    (rs : List (Fin n × Request)) :
    sendBatches owner sendError batches k (owed rs) =
      (owed (rs ++ requestsFrom owner batches k), none) := by
  induction batches generalizing sendError k rs with
  | nil => rw [sendBatches, requestsFrom, List.append_nil]
  | cons b batches ih =>
    rw [sendBatches, h 0 (Nat.succ_pos _)]
    simp only
    rw [send_owed, ih fun j hj => h (j + 1) (Nat.succ_lt_succ hj), requestsFrom, List.append_assoc]

theorem sendBatches_fault (owner : Nat) {sendError : Nat → Option Str}
    {batches : List (Fin n × Nat)} {m : Nat} (hm : m < batches.length) {what : Str}
    (hwhat : sendError m = some what) (h : ∀ j < m, sendError j = none) (k : Nat)
    (rs : List (Fin n × Request)) :
    sendBatches owner sendError batches k (owed rs) =
      (owed (rs ++ requestsFrom owner (batches.take m) k), some what) := by
  induction batches generalizing sendError m k rs with
  | nil => cases hm
  | cons b batches ih =>
    cases m with
    | zero =>
      rw [sendBatches, hwhat, List.take_zero, requestsFrom, List.append_nil]
    | succ m =>
      rw [sendBatches, h 0 (Nat.succ_pos _)]
      simp only
      rw [send_owed,
        ih (Nat.lt_of_succ_lt_succ hm) hwhat fun j hj => h (j + 1) (Nat.succ_lt_succ hj),
        List.take_succ_cons, requestsFrom, List.append_assoc]

theorem Reply.ok_of_fault {r : Reply} (h : r.fault = none) : r = .ok := by
  cases r with
  | ok => rfl
  | _ => cases h

theorem readReplies_error {reply : Nat → Reply} {what : Str}
    (h : (reply 0).fault = some (.error what)) (socket : Fin n) (sockets : List (Fin n))
    (c : RedisClient n) :
    readReplies reply (socket :: sockets) c =
      ⟨(recv c socket).2, [(recv c socket).1], some what⟩ := by
  rw [readReplies]
  cases hr : reply 0 with
  | error what' =>
    rw [hr] at h
    cases h
    rfl
  | _ =>
    rw [hr] at h
    cases h

theorem readReplies_lost {reply : Nat → Reply} {what : Str}
    (h : (reply 0).fault = some (.lost what)) (socket : Fin n) (sockets : List (Fin n))
    (c : RedisClient n) :
    readReplies reply (socket :: sockets) c = ⟨clear c socket, [], some what⟩ := by
  rw [readReplies]
  cases hr : reply 0 with
  | closed | recvError err =>
    rw [hr] at h
    cases h
    rfl
  | _ =>
    rw [hr] at h
    cases h

theorem readReplies_done {reply : Nat → Reply} {rs : List (Fin n × Request)}
    (h : ∀ j < rs.length, (reply j).fault = none) :
    readReplies reply (rs.map Prod.fst) (owed rs) =
      ⟨owed [], rs.map fun r => some r.2, none⟩ := by
  induction rs generalizing reply with
  | nil => rfl
  | cons r rs ih =>
    obtain ⟨socket, request⟩ := r
    rw [List.map_cons, readReplies, Reply.ok_of_fault (h 0 (Nat.succ_pos _))]
    simp only [recv_owed]
    rw [ih fun j hj => h (j + 1) (Nat.succ_lt_succ hj)]
    rfl

/-- What is not read any more, of the requests from the faulty reply on. -/
def ReplyFault.unread : ReplyFault → List (Fin n × Request) → List (Fin n × Request)
  | _, [] => []
  | .error _, _ :: rs => rs
  | .lost _, r :: rs => rs.filter (·.1 ≠ r.1)

/-- The replies are read up to the first faulty one. -/
theorem readReplies_fault {reply : Nat → Reply} {rs : List (Fin n × Request)} {k : Nat}
    (hk : k < rs.length) {e : ReplyFault} (he : (reply k).fault = some e)
    (h : ∀ j < k, (reply j).fault = none) :
    ∃ got, readReplies reply (rs.map Prod.fst) (owed rs) =
        ⟨owed (e.unread (rs.drop k)), got, some e.what⟩ ∧
      got <+: rs.map fun r => some r.2 := by
  induction rs generalizing reply k with
  | nil => cases hk
  | cons r rs ih =>
    obtain ⟨socket, request⟩ := r
    rw [List.map_cons]
    cases k with
    | zero =>
      rw [List.drop_zero]
      cases e with
      | error what =>
        rw [readReplies_error he, recv_owed]
        exact ⟨_, rfl, ⟨_, rfl⟩⟩
      | lost what =>
        rw [readReplies_lost he, clear_owed, List.filter_cons_of_neg (by simp)]
        exact ⟨_, rfl, List.nil_prefix⟩
    | succ k =>
      obtain ⟨got, hgot, hstart⟩ := ih (Nat.lt_of_succ_lt_succ hk) he
        fun j hj => h (j + 1) (Nat.succ_lt_succ hj)
      rw [readReplies, Reply.ok_of_fault (h 0 (Nat.succ_pos _))]
      simp only [recv_owed, hgot]
      exact ⟨_, rfl, List.cons_prefix_cons.mpr ⟨rfl, hstart⟩⟩

/-! ## A run on an idle client -/

namespace Operation

/-- The requests whose replies are not read by a run that stops there. -/
def left (op : Operation n) (owner : Nat) : Stop → List (Fin n × Request)
  | .done => []
  | .send k _ => requestsFrom owner (op.batches.take k) 0
  | .reply k e => e.unread ((op.requests owner).drop k)

/-- **A run on an idle client**: what it leaves unread, and that it read replies to its own requests
    only, in their order. -/
theorem func_spec (op : Operation n) (owner : Nat) (w : RedisWorld) :
    (op.func owner w (owed [])).client = owed (op.left owner (op.stop w)) ∧
      (op.func owner w (owed [])).thrown = (op.stop w).what ∧
      (op.func owner w (owed [])).read <+: (op.requests owner).map fun r => some r.2 := by
  have hlen : (op.requests owner).length = op.reads.length := by
    rw [← requests_sockets op owner, List.length_map]
  rw [func, stop]
  cases hsend : firstSome w.sendError op.batches.length with
  | some p =>
    obtain ⟨hk, hwhat, hbefore⟩ := firstSome_eq_some hsend
    simp only [sendBatches_fault owner hk hwhat hbefore 0 [], List.nil_append]
    exact ⟨rfl, rfl, List.nil_prefix⟩
  | none =>
    have hsent : sendBatches owner w.sendError op.batches 0 (owed []) =
        (owed (op.requests owner), none) := by
      rw [sendBatches_done owner (firstSome_eq_none hsend), List.nil_append, requests]
    simp only [hsent]
    rw [← requests_sockets op owner]
    cases hreply : firstSome (fun k => (w.reply k).fault)
        ((op.requests owner).map Prod.fst).length with
    | none =>
      rw [List.length_map] at hreply
      rw [readReplies_done (firstSome_eq_none hreply)]
      exact ⟨rfl, rfl, List.prefix_rfl⟩
    | some p =>
      rw [List.length_map] at hreply
      obtain ⟨hk, hfault, hbefore⟩ := firstSome_eq_some hreply
      obtain ⟨got, hgot, hstart⟩ := readReplies_fault hk hfault hbefore
      rw [hgot]
      exact ⟨rfl, rfl, hstart⟩

theorem mem_requestsFrom {owner : Nat} {batches : List (Fin n × Nat)}
    (hpos : ∀ b ∈ batches, 0 < b.2) (k : Nat) (i : Fin n) :
    i ∈ (requestsFrom owner batches k).map Prod.fst ↔ ∃ b ∈ batches, b.1 = i := by
  rw [requestsFrom_sockets, List.mem_flatMap]
  constructor
  · rintro ⟨b, hb, hi⟩
    exact ⟨b, hb, (List.eq_of_mem_replicate hi).symm⟩
  · rintro ⟨b, hb, rfl⟩
    exact ⟨b, hb, List.mem_replicate.mpr ⟨Nat.ne_of_gt (hpos b hb), rfl⟩⟩

/-- The connections that owe replies are those of the requests that are left. -/
theorem owes_iff (op : Operation n) (owner : Nat) (stop : Stop) (i : Fin n) :
    op.Owes stop i ↔ i ∈ (op.left owner stop).map Prod.fst := by
  cases stop with
  | done => simp [Owes, left]
  | send k what =>
    exact (mem_requestsFrom (fun b hb => op.positive b ((List.take_sublist k _).mem hb)) 0 i).symm
  | reply k e =>
    have hdrop (j : Nat) : op.reads.drop j = ((op.requests owner).drop j).map Prod.fst := by
      rw [← requests_sockets op owner, List.map_drop]
    have hget : op.reads[k]? = ((op.requests owner).drop k).head?.map Prod.fst := by
      rw [← List.head?_drop, hdrop, List.head?_map]
    have htail : (op.requests owner).drop (k + 1) = ((op.requests owner).drop k).tail := by
      rw [List.tail_drop]
    cases e with
    | error what =>
      rw [Owes, left, hdrop, htail]
      cases (op.requests owner).drop k with
      | nil => rfl
      | cons r rs => rfl
    | lost what =>
      rw [Owes, left, hdrop, htail, hget]
      cases (op.requests owner).drop k with
      | nil => simp [ReplyFault.unread]
      | cons r rs =>
        simp only [List.tail_cons, List.head?_cons, Option.map_some, ReplyFault.unread,
          List.mem_map, List.mem_filter]
        constructor
        · rintro ⟨⟨q, hq, rfl⟩, hne⟩
          exact ⟨q, ⟨hq, by simpa using fun he => hne (congrArg some he.symm)⟩, rfl⟩
        · rintro ⟨q, ⟨hq, hne⟩, rfl⟩
          exact ⟨⟨q, hq, rfl⟩, fun he => by simp [Option.some.inj he] at hne⟩

/-- **When a run leaves the client idle**: when no connection has replies to come. -/
theorem idle_func_iff (op : Operation n) (owner : Nat) (w : RedisWorld) :
    Idle (op.func owner w (owed [])).client ↔ ∀ i, ¬ op.Owes (op.stop w) i := by
  rw [(op.func_spec owner w).1, idle_owed]
  constructor
  · intro hnil i hi
    rw [owes_iff op owner, hnil] at hi
    cases hi
  · intro h
    have hnil : (op.left owner (op.stop w)).map Prod.fst = [] :=
      List.eq_nil_iff_forall_not_mem.mpr fun i hi => h i ((owes_iff op owner _ i).mpr hi)
    exact List.map_eq_nil_iff.mp hnil

end Operation

end WebsocketTest
