import WebsocketTest.Lib.SortedMap
import WebsocketTest.Redis.Net

/-!
# `exec`: many commands, one trip

`exec` of a vector of commands puts the requests for each server together, sends each server its
part, and then reads the replies in the order of the commands, each into its command.
`readAnswers` is what the reading comes to: the answers that the servers give to the commands one by
one, as far as they can be received, the rest of the answer that makes the reader throw, and the
answers behind it, which stay unread. The commands are a reference, so that the ones in front of a
throw keep the replies they have got.

**`comes_execAll`** — every command gets the reply to it, whatever the hasher does and however the
replies arrive, up to the first answer that is thrown.

What a server is sent at once must be `IntSized`; what happens to a longer message is up to
`anetWrite`, and nothing is said of it here.

## Why the order is right

The requests leave in the order of a map, socket by socket, and the replies are read in the order of
the commands, which may go back and forth between the sockets. That fits because each socket is a
queue of its own: what is sent on one is answered on that one, in the order in which it was put
together, and that is the order of the commands there. `foldl_request` has the one half of it, that
sending by sockets is sending the requests one by one, and `foldl_request_owed` the other, that one
by one they leave the queue of answers in the order of the commands.

The loop that reads has nothing to make up for a reader that throws. The commands behind are not
asked for again and their answers stay in the sockets; so does the rest of the answer that was
thrown at, in front of the later answers on its socket. Whoever uses the client next reads these.
-/

set_option autoImplicit false

namespace WebsocketTest.Redis

open Std Lib.Text Lib.Outcome Lib.Stream Lib.Resp Lib.Pipeline Lib.SortedMap

variable {σ : Type}

/-- `std::map<int, …>`, from sockets. -/
abbrev Sockets (β : Type) := ExtTreeMap Int β compare

section Code

variable (lexicalCast : Str → Option Int) (serve : σ → List Str → σ × Value) (c : BaseClient)

/-- The loop that sends each socket its commands. -/
def sendAll : List (Int × Str) → Op σ Unit
  | [] => pure ()
  | (socket, msg) :: sps => do
    send_ serve c socket msg
    sendAll sps

/-- `exec` of a command: the command with its reply. -/
def exec (cmd : Command) : Op σ Command := do
  send_ serve c (c.getSocket cmd.hashKey) cmd.request
  let reply ← recvFrom (c.getSocket cmd.hashKey) (recvGenericReply lexicalCast)
  pure (cmd.setReply reply)

/-- The map `socket_commands`: the requests for each socket. -/
def collectCommands (commands : List Command) : Sockets Str :=
  collectFrom (fun cmd => c.getSocket cmd.hashKey) (fun buf cmd => buf.getD [] ++ cmd.request) ∅
    commands

/-- The loop that reads the replies: the commands after it, and what ends it. -/
def setReplies : List Command → Op σ (List Command × Except Thrown Unit)
  | [] => pure ([], .ok ())
  | cmd :: cmds => do
    match ← attempt (recvFrom (c.getSocket cmd.hashKey) (recvGenericReply lexicalCast)) with
    | .error e => pure (cmd :: cmds, .error e)
    | .ok reply =>
      let rest ← setReplies cmds
      pure (cmd.setReply reply :: rest.1, rest.2)

/-- `exec` of a vector of commands: the commands after it, and what it throws. -/
def execAll (commands : List Command) : Op σ (List Command × Except Thrown Unit) := do
  let socketCommands := collectCommands c commands
  match ← attempt (sendAll serve c socketCommands.toList) with
  | .error e => pure (commands, .error e)
  | .ok () => setReplies lexicalCast c commands

/-- `exec`, of one command after the other, up to the first that throws. -/
def execEach : List Command → Op σ (List Command × Except Thrown Unit)
  | [] => pure ([], .ok ())
  | cmd :: cmds => do
    match ← attempt (exec lexicalCast serve c cmd) with
    | .error e => pure (cmd :: cmds, .error e)
    | .ok cmd =>
      let rest ← execEach cmds
      pure (cmd :: rest.1, rest.2)

end Code

/-! ## Many requests

The map of the source has one message for each socket that gets any. What is proved of the loop over
it is stated for any way to write such messages, as the other functions that spread keys over the
servers use the same loop. -/

section Requests

variable {serve : σ → List Str → σ × Value} {c : BaseClient}

theorem serveAll_append (s : σ) (rs ts : List (List Str)) :
    serveAll serve s (rs ++ ts) = ((serveAll serve (serveAll serve s rs).1 ts).1,
      (serveAll serve s rs).2 ++ (serveAll serve (serveAll serve s rs).1 ts).2) := by
  induction rs generalizing s with
  | nil => rfl
  | cons args rs ih => simp only [List.cons_append, serveAll, ih]

/-- Requests on all sockets at once, to each the ones that `f` has for it. -/
def Queues.requestEach (serve : σ → List Str → σ × Value) (q : Queues σ)
    (f : Int → List (List Str)) : Queues σ :=
  ⟨fun s => (serveAll serve (q.server s) (f s)).1, q.torn,
    fun s => q.owing s ++ (serveAll serve (q.server s) (f s)).2⟩

theorem requestEach_nil (q : Queues σ) : q.requestEach serve (fun _ => []) = q := by
  rw [Queues.requestEach]
  simp only [serveAll, List.append_nil]

/-- What is sent to one socket, and then to all, is sent to that one first and then the rest. -/
theorem requestEach_request (q : Queues σ) (socket : Int) (rs : List (List Str))
    (f : Int → List (List Str)) :
    (q.request serve socket rs).requestEach serve f =
      q.requestEach serve fun s => if s = socket then rs ++ f s else f s := by
  simp only [Queues.requestEach, Queues.request, send, Function.update_apply, Queues.mk.injEq,
    true_and]
  constructor
  · funext s
    by_cases hs : s = socket
    · simp only [hs, if_true, serveAll_append]
    · simp only [if_neg hs]
  · funext s
    by_cases hs : s = socket
    · simp only [hs, if_true, serveAll_append, List.append_assoc]
    · simp only [if_neg hs]

/-- Requests one after the other are, on each socket, the requests of that socket. -/
theorem foldl_request (q : Queues σ) (rs : List (Int × List Str)) :
    rs.foldl (fun q r => q.request serve r.1 [r.2]) q =
      q.requestEach serve fun s => (rs.filter (·.1 = s)).map (·.2) := by
  induction rs generalizing q with
  | nil => exact (requestEach_nil q).symm
  | cons r rs ih =>
    rw [List.foldl_cons, ih, requestEach_request]
    congr 1
    funext s
    by_cases hs : s = r.1
    · rw [if_pos hs, List.filter_cons_of_pos (by simpa using hs.symm), List.map_cons]
      rfl
    · rw [if_neg hs, List.filter_cons_of_neg (by simpa using Ne.symm hs)]

/-- The loop that sends, over sockets that are different. -/
theorem comes_sendAll_list {β : Type} {render : β → Str} {f : Int → List (List Str)}
    {l : List (Int × β)} (hl : ∀ p ∈ l, p.1 ∈ c.connections ∧ render p.2 = (f p.1).flatMap request)
    (hsize : ∀ s ∈ c.connections, IntSized ((f s).flatMap request))
    (hnodup : (l.map Prod.fst).Nodup) (q : Queues σ) :
    Comes Shows (sendAll serve c (l.map fun p => (p.1, render p.2))) q (.ok ())
      (q.requestEach serve fun s => if s ∈ l.map Prod.fst then f s else []) := by
  induction l generalizing q with
  | nil =>
    simp only [List.map_nil, List.not_mem_nil, if_false, requestEach_nil]
    exact Comes.pure ()
  | cons p l ih =>
    rw [List.forall_mem_cons] at hl
    obtain ⟨⟨hsocket, hrender⟩, hl⟩ := hl
    rw [List.map_cons, List.nodup_cons] at hnodup
    have hsend : Comes Shows (send_ serve c p.1 _) q _ _ :=
      comes_send hsocket (f p.1) (hsize p.1 hsocket)
    have hrest := ih hl hnodup.2 (q.request serve p.1 (f p.1))
    have hf (s : Int) : (if s ∈ (p :: l).map Prod.fst then f s else []) =
        if s = p.1 then f p.1 ++ (if s ∈ l.map Prod.fst then f s else [])
        else if s ∈ l.map Prod.fst then f s else [] := by
      rw [List.map_cons]
      by_cases hs : s = p.1
      · rw [hs, if_pos List.mem_cons_self, if_pos rfl, if_neg hnodup.1, List.append_nil]
      · simp only [List.mem_cons, hs, false_or, if_false]
    rw [requestEach_request] at hrest
    simp only [hf]
    rw [List.map_cons, sendAll, hrender]
    exact hsend.bind hrest

/-- **What is collected for each socket is sent to it.** -/
theorem comes_sendAll {β : Type} {render : β → Str} {f : Int → List (List Str)} {t : Sockets β}
    (hsome : ∀ s b, t[s]? = some b → s ∈ c.connections ∧ render b = (f s).flatMap request)
    (hnone : ∀ s, t[s]? = none → f s = [])
    (hsize : ∀ s ∈ c.connections, IntSized ((f s).flatMap request)) (q : Queues σ) :
    Comes Shows (sendAll serve c (t.toList.map fun p => (p.1, render p.2))) q (.ok ())
      (q.requestEach serve f) := by
  have hmem (p : Int × β) (hp : p ∈ t.toList) :
      p.1 ∈ c.connections ∧ render p.2 = (f p.1).flatMap request :=
    hsome p.1 p.2 (ExtTreeMap.mem_toList_iff_getElem?_eq_some.mp hp)
  have hnodup : (t.toList.map Prod.fst).Nodup := by
    rw [ExtTreeMap.map_fst_toList_eq_keys]
    exact ExtTreeMap.nodup_keys
  have h : Comes Shows (sendAll serve c _) q _ _ := comes_sendAll_list hmem hsize hnodup q
  have hf : (fun s => if s ∈ t.toList.map Prod.fst then f s else []) = f := by
    funext s
    split
    · rfl
    · rename_i hs
      refine (hnone s ?_).symm
      rw [ExtTreeMap.map_fst_toList_eq_keys, ExtTreeMap.mem_keys] at hs
      exact ExtTreeMap.getElem?_eq_none hs
  rwa [hf] at h

end Requests

/-! ## Many replies

`readAnswers` goes through the answers as the loop does. It has three results because the loop
leaves three things: what it got, what ended it, and what is in the sockets then. -/

/-- The servers after requests that they get one by one, and what they answer, each with its
    socket. -/
def answers (serve : σ → List Str → σ × Value) :
    (Int → σ) → List (Int × List Str) → (Int → σ) × List (Int × Value)
  | server, [] => (server, [])
  | server, (socket, args) :: rs =>
    let served := serve (server socket) args
    let rest := answers serve (Function.update server socket served.1) rs
    (rest.1, (socket, served.2) :: rest.2)

/-- What a loop over answers comes to: the replies it gets and what ends it; in each socket, the
    bytes of an answer that was given up in the middle; and the answers behind that one. -/
structure Answered where
  got : List ReplyData
  ended : Except Thrown Unit
  torn : Int → Str
  behind : List (Int × Value)

/-- The answers are received in order, up to the first that makes the reader throw. -/
def readAnswers : List (Int × Value) → Answered
  | [] => ⟨[], .ok (), fun _ => [], []⟩
  | (socket, v) :: vs =>
    match received v with
    | .error e => ⟨[], .error e, Function.update (fun _ => []) socket (unread v), vs⟩
    | .ok reply => { readAnswers vs with got := reply :: (readAnswers vs).got }

/-- An answer that is received is read to its end. -/
theorem unread_of_received {v : Value} {reply : ReplyData} (h : received v = .ok reply) :
    unread v = [] := by
  have helems (vs : List Value) (datas : List Str) (h : receivedElems vs = .ok datas) :
      unreadElems vs = [] := by
    induction vs generalizing datas with
    | nil => rfl
    | cons v vs ih =>
      cases v with
      | bulk | nil =>
        rw [receivedElems] at h
        cases hvs : receivedElems vs with
        | error e =>
          rw [hvs] at h
          cases h
        | ok datas => exact ih datas hvs
      | _ => cases h
  cases v with
  | array elems =>
    rw [received] at h
    split at h
    · cases h
    · rename_i hfits
      rw [unread, if_neg hfits]
      cases hdatas : receivedElems elems with
      | error e =>
        rw [hdatas] at h
        cases h
      | ok datas => exact helems elems datas hdatas
  | _ => rfl

/-- **If nothing is thrown**, nothing is left. -/
theorem readAnswers_ok {vs : List (Int × Value)} (h : (readAnswers vs).ended = .ok ()) :
    (readAnswers vs).torn = (fun _ => []) ∧ (readAnswers vs).behind = [] := by
  induction vs with
  | nil => exact ⟨rfl, rfl⟩
  | cons p vs ih =>
    obtain ⟨socket, v⟩ := p
    rw [readAnswers] at h ⊢
    cases hv : received v with
    | error e =>
      rw [hv] at h
      cases h
    | ok reply =>
      rw [hv] at h
      exact ih h

/-- The replies that a loop gets, in their commands. -/
def withReplies : List Command → List ReplyData → List Command
  | cmd :: cmds, reply :: replies => cmd.setReply reply :: withReplies cmds replies
  | cmds, _ => cmds

theorem withReplies_nil (cmds : List Command) : withReplies cmds [] = cmds := by
  cases cmds with
  | nil => rfl
  | cons cmd cmds => rfl

section Replies

variable {serve : σ → List Str → σ × Value} {c : BaseClient}

theorem request_owed (server : Int → σ) (us : List (Int × Value)) (socket : Int)
    (args : List Str) :
    Queues.request serve (.whole server (owed us)) socket [args] =
      .whole (Function.update server socket (serve (server socket) args).1)
        (owed (us ++ [(socket, (serve (server socket) args).2)])) := by
  simp only [Queues.request, Queues.whole, serveAll, send_owed, List.map_cons, List.map_nil]

/-- **One by one**, the requests leave the answers to them. -/
theorem foldl_request_owed (server : Int → σ) (us : List (Int × Value))
    (rs : List (Int × List Str)) :
    rs.foldl (fun q r => Queues.request serve q r.1 [r.2]) (.whole server (owed us)) =
      .whole (answers serve server rs).1 (owed (us ++ (answers serve server rs).2)) := by
  induction rs generalizing server us with
  | nil => simp only [List.foldl_nil, answers, List.append_nil]
  | cons r rs ih =>
    simp only [List.foldl_cons, request_owed, ih, answers, List.append_assoc, List.cons_append,
      List.nil_append]

theorem owed_cons_self (socket : Int) (v : Value) (vs : List (Int × Value)) :
    owed ((socket, v) :: vs) socket = v :: owed vs socket := by
  simp [owed]

/-- The oldest answer, up to where its reader gives it up. -/
theorem comes_oldest_torn {β : Type} {m : Recv β} {r : Except Thrown β} (server : Int → σ)
    {socket : Int} {v : Value} (left : Str) (vs : List (Int × Value))
    (hm : ∀ ending rest, Reads ending m (encode v ++ rest) r (left ++ rest)) :
    Comes Shows (recvFrom socket m) (.whole server (owed ((socket, v) :: vs))) r
      ⟨server, Function.update (fun _ => []) socket left, owed vs⟩ := by
  have h : Comes Shows (recvFrom socket m) (.whole server (owed ((socket, v) :: vs))) r _ :=
    comes_recvFrom rfl (owed_cons_self socket v vs) hm
  rwa [Queues.reply, Queues.whole, recv_owed] at h

/-- **The oldest answer**, read to its end. -/
theorem comes_oldest {β : Type} {m : Recv β} {r : Except Thrown β} (server : Int → σ)
    {socket : Int} {v : Value} (vs : List (Int × Value))
    (hm : ∀ ending rest, Reads ending m (encode v ++ rest) r rest) :
    Comes Shows (recvFrom socket m) (.whole server (owed ((socket, v) :: vs))) r
      (.whole server (owed vs)) := by
  have h : Comes Shows (recvFrom socket m) (.whole server (owed ((socket, v) :: vs))) r _ :=
    comes_oldest_torn server [] vs hm
  rwa [Function.update_eq_self] at h

/-- **The loop that reads** gets the answers in order, up to the first that makes it throw. -/
theorem comes_setReplies {lexicalCast : Str → Option Int} (hcast : ReadsLongs lexicalCast)
    (server : Int → σ) {vs : List (Int × Value)} {cmds : List Command}
    (hcmds : cmds.map (fun cmd => c.getSocket cmd.hashKey) = vs.map Prod.fst)
    (hvs : ∀ p ∈ vs, Sendable p.2) :
    Comes Shows (setReplies lexicalCast c cmds) (.whole server (owed vs))
      (.ok (withReplies cmds (readAnswers vs).got, (readAnswers vs).ended))
      ⟨server, (readAnswers vs).torn, owed (readAnswers vs).behind⟩ := by
  induction vs generalizing cmds with
  | nil =>
    obtain rfl := List.map_eq_nil_iff.mp hcmds
    exact Comes.pure _
  | cons p vs ih =>
    obtain ⟨socket, v⟩ := p
    obtain ⟨cmd, cmds, rfl, rfl, htail⟩ := List.map_eq_cons_iff.mp hcmds
    rw [List.forall_mem_cons] at hvs
    have hrecv : Comes Shows (recvFrom (c.getSocket cmd.hashKey) (recvGenericReply lexicalCast))
        (.whole server (owed ((c.getSocket cmd.hashKey, v) :: vs))) (received v) _ :=
      comes_oldest_torn server (unread v) vs fun _ _ => reads_recvGenericReply hcast hvs.1
    rw [setReplies, readAnswers]
    cases hv : received v with
    | error e =>
      rw [hv] at hrecv
      refine hrecv.attempt.bind ?_
      rw [withReplies_nil]
      exact Comes.pure _
    | ok reply =>
      rw [hv, unread_of_received hv, Function.update_eq_self] at hrecv
      exact hrecv.attempt.bind ((ih htail hvs.2).bind (Comes.pure _))

end Replies

/-! ## `exec`

`Quiet` is where a run begins, and where it ends if nothing was thrown: no byte on its way in either
direction, and no write that will fail. -/

section Exec

variable {lexicalCast : Str → Option Int} {serve : σ → List Str → σ × Value} {c : BaseClient}

/-- A new command, of a key and the lines of its request. -/
def Command.ofLines (r : Str × List Str) : Command :=
  ⟨Lib.Resp.request r.2, r.1, (.noReply, .str [])⟩

/-- The sockets of commands, and their requests. -/
def routed (c : BaseClient) (rs : List (Str × List Str)) : List (Int × List Str) :=
  rs.map fun r => (c.getSocket r.1, r.2)

/-- What is sent to a socket at once: the requests that go there. -/
def message (c : BaseClient) (rs : List (Str × List Str)) (s : Int) : Str :=
  (((routed c rs).filter (·.1 = s)).map (·.2)).flatMap request

/-- Requests that are put together are the requests. -/
theorem foldl_append_requests (rs : List (Str × List Str)) (buf : Option Str) :
    (rs.map Command.ofLines).foldl (fun b cmd => some (b.getD [] ++ cmd.request)) buf =
      if rs = [] then buf else some (buf.getD [] ++ (rs.map Prod.snd).flatMap request) := by
  induction rs generalizing buf with
  | nil => rfl
  | cons r rs ih =>
    rw [List.map_cons, List.foldl_cons, ih, if_neg (List.cons_ne_nil _ _), List.map_cons,
      List.flatMap_cons]
    split
    · rename_i hnil
      simp [hnil, Command.ofLines]
    · simp [Command.ofLines]

/-- What `exec` sends is, for each server, the requests for it. -/
theorem comes_sendCommands {rs : List (Str × List Str)}
    (hsize : ∀ s ∈ c.connections, IntSized (message c rs s)) (q : Queues σ) :
    Comes Shows (sendAll serve c (collectCommands c (rs.map Command.ofLines)).toList) q (.ok ())
      ((routed c rs).foldl (fun q r => q.request serve r.1 [r.2]) q) := by
  rw [foldl_request]
  generalize ht : collectCommands c (rs.map Command.ofLines) = t
  -- what is collected for a socket
  have hget (s : Int) : t[s]? = if rs.filter (c.getSocket ·.1 = s) = [] then none
      else some (((routed c rs).filter (·.1 = s)).map (·.2) |>.flatMap request) := by
    rw [← ht, collectCommands, getElem?_collectFrom, List.filter_map]
    have hkey : ((fun cmd : Command => decide (c.getSocket cmd.hashKey = s)) ∘ Command.ofLines) =
        fun r => decide (c.getSocket r.1 = s) := rfl
    rw [hkey, foldl_append_requests, routed, List.filter_map, List.map_map]
    rfl
  have h : Comes Shows (sendAll serve c (t.toList.map fun p => (p.1, id p.2))) q (.ok ())
      (q.requestEach serve fun s => ((routed c rs).filter (·.1 = s)).map (·.2)) :=
    comes_sendAll ?_ ?_ hsize q
  · simpa only [id_eq, Prod.eta, List.map_id'] using h
  · intro s b hb
    rw [hget] at hb
    split at hb
    · cases hb
    · rename_i hne
      cases hb
      refine ⟨?_, rfl⟩
      obtain ⟨r, hr⟩ := List.exists_mem_of_ne_nil _ hne
      rw [List.mem_filter, decide_eq_true_iff] at hr
      exact hr.2 ▸ c.getSocket_mem r.1
  · intro s hs
    rw [hget] at hs
    split at hs
    · rename_i hnil
      rw [routed, List.filter_map]
      exact congrArg _ (congrArg _ hnil)
    · cases hs

theorem answers_sockets (server : Int → σ) (rs : List (Int × List Str)) :
    (answers serve server rs).2.map Prod.fst = rs.map Prod.fst := by
  induction rs generalizing server with
  | nil => rfl
  | cons r rs ih => rw [answers, List.map_cons, List.map_cons, ih]

/-- **Many commands at once**: each gets the answer to it, up to the first answer that is thrown,
    and the answers to the commands behind that one stay in the sockets. -/
theorem comes_execAll (hcast : ReadsLongs lexicalCast) (server : Int → σ)
    {rs : List (Str × List Str)} (hsize : ∀ s ∈ c.connections, IntSized (message c rs s))
    (hvs : ∀ p ∈ (answers serve server (routed c rs)).2, Sendable p.2) :
    Comes Shows (execAll lexicalCast serve c (rs.map Command.ofLines)) (.whole server (owed []))
      (.ok (withReplies (rs.map Command.ofLines)
          (readAnswers (answers serve server (routed c rs)).2).got,
        (readAnswers (answers serve server (routed c rs)).2).ended))
      ⟨(answers serve server (routed c rs)).1,
        (readAnswers (answers serve server (routed c rs)).2).torn,
        owed (readAnswers (answers serve server (routed c rs)).2).behind⟩ := by
  have hsend : Comes Shows (sendAll serve c _) _ _ _ :=
    comes_sendCommands hsize (.whole server (owed []))
  rw [foldl_request_owed, List.nil_append] at hsend
  refine hsend.attempt.bind (comes_setReplies hcast _ ?_ hvs)
  rw [answers_sockets, routed, List.map_map, List.map_map]
  rfl

/-- **A request and its answer**, on a client that owes nothing: the answer is read to its end, and
    the client owes nothing again. -/
theorem comes_single {β : Type} {m : Recv β} {r : Except Thrown β} (server : Int → σ) {socket : Int}
    (hsocket : socket ∈ c.connections) {args : List Str} (hsize : IntSized (request args))
    (hm : ∀ ending rest,
      Reads ending m (encode (serve (server socket) args).2 ++ rest) r rest) :
    Comes Shows (send_ serve c socket (request args) >>= fun _ => recvFrom socket m)
      (.whole server (owed [])) r
      (.whole (Function.update server socket (serve (server socket) args).1) (owed [])) := by
  have hsend : Comes Shows (send_ serve c socket _) (.whole server (owed [])) _ _ :=
    comes_send_one hsocket hsize
  rw [request_owed, List.nil_append] at hsend
  exact hsend.bind (comes_oldest _ [] hm)

/-- What is sent at once is no shorter than each of the requests in it. -/
theorem intSized_request {rs : List (Str × List Str)}
    (hsize : ∀ s ∈ c.connections, IntSized (message c rs s)) {r : Str × List Str} (hr : r ∈ rs) :
    IntSized (request r.2) := by
  have hmem : r.2 ∈ ((routed c rs).filter (·.1 = c.getSocket r.1)).map (·.2) := by
    refine List.mem_map.mpr ⟨(c.getSocket r.1, r.2), List.mem_filter.mpr ⟨?_, by simp⟩, rfl⟩
    exact List.mem_map.mpr ⟨r, hr, rfl⟩
  have hle : (request r.2).length ≤ (message c rs (c.getSocket r.1)).length := by
    obtain ⟨front, back, hsplit⟩ := List.append_of_mem hmem
    rw [message, hsplit]
    simp only [List.flatMap_append, List.flatMap_cons, List.length_append]
    omega
  exact Nat.lt_of_le_of_lt hle (hsize _ (c.getSocket_mem r.1))

/-- **One command at a time**: the same, as long as no answer is thrown. -/
theorem comes_execEach (hcast : ReadsLongs lexicalCast) (server : Int → σ)
    {rs : List (Str × List Str)} (hsize : ∀ r ∈ rs, IntSized (request r.2))
    (hvs : ∀ p ∈ (answers serve server (routed c rs)).2, Sendable p.2)
    (hended : (readAnswers (answers serve server (routed c rs)).2).ended = .ok ()) :
    Comes Shows (execEach lexicalCast serve c (rs.map Command.ofLines)) (.whole server (owed []))
      (.ok (withReplies (rs.map Command.ofLines)
          (readAnswers (answers serve server (routed c rs)).2).got, .ok ()))
      (.whole (answers serve server (routed c rs)).1 (owed [])) := by
  induction rs generalizing server with
  | nil => exact Comes.pure _
  | cons r rs ih =>
    obtain ⟨key, args⟩ := r
    have hrouted : routed c ((key, args) :: rs) = (c.getSocket key, args) :: routed c rs := rfl
    rw [hrouted, answers] at hvs hended ⊢
    rw [List.forall_mem_cons] at hvs hsize
    rw [readAnswers] at hended ⊢
    cases hv : received (serve (server (c.getSocket key)) args).2 with
    | error e =>
      rw [hv] at hended
      cases hended
    | ok reply =>
      rw [hv] at hended
      have hrecv : Comes Shows (send_ serve c (c.getSocket key) (request args) >>= fun _ =>
            recvFrom (c.getSocket key) (recvGenericReply lexicalCast))
          (.whole server (owed [])) (.ok reply) (.whole (Function.update server (c.getSocket key)
            (serve (server (c.getSocket key)) args).1) (owed [])) := by
        refine comes_single server (c.getSocket_mem key) hsize.1 fun ending rest => ?_
        have hread : Reads ending (recvGenericReply lexicalCast)
            (encode (serve (server (c.getSocket key)) args).2 ++ rest) _ _ :=
          reads_recvGenericReply hcast hvs.1
        rwa [hv, unread_of_received hv, List.nil_append] at hread
      have hexec : Comes Shows (exec lexicalCast serve c (Command.ofLines (key, args)))
          (.whole server (owed [])) (.ok ((Command.ofLines (key, args)).setReply reply))
          (.whole (Function.update server (c.getSocket key)
            (serve (server (c.getSocket key)) args).1) (owed [])) := by
        have h := hrecv.bind (f := fun reply =>
          pure ((Command.ofLines (key, args)).setReply reply)) (Comes.pure _)
        rwa [bind_assoc] at h
      exact hexec.attempt.bind ((ih _ hsize.2 hvs.2 hended).bind (Comes.pure _))

/-- A client with nothing on its way. -/
def Quiet (w : Net σ) : Prop := Shows w (.whole w.server (owed []))

/-- **Many commands at once, from a quiet client**: the commands with the replies they have got,
    what is thrown, the servers, and the bytes in the sockets. -/
theorem execAll_spec (hcast : ReadsLongs lexicalCast) {w : Net σ} (hw : Quiet w)
    {rs : List (Str × List Str)} (hsize : ∀ s ∈ c.connections, IntSized (message c rs s))
    (hvs : ∀ p ∈ (answers serve w.server (routed c rs)).2, Sendable p.2) :
    ∃ w', (execAll lexicalCast serve c (rs.map Command.ofLines)).run.run w =
        (.ok (withReplies (rs.map Command.ofLines)
            (readAnswers (answers serve w.server (routed c rs)).2).got,
          (readAnswers (answers serve w.server (routed c rs)).2).ended), w') ∧
      w'.server = (answers serve w.server (routed c rs)).1 ∧
      ∀ s, (w'.source s).input =
        (readAnswers (answers serve w.server (routed c rs)).2).torn s ++
          encodeAll (owed (readAnswers (answers serve w.server (routed c rs)).2).behind s) := by
  obtain ⟨w', hrun, hw'⟩ := comes_execAll hcast w.server hsize hvs w hw
  exact ⟨w', hrun, hw'.server, hw'.input⟩

/-- A client of two servers, the longer keys on one and the shorter on the other. -/
def twoServers : BaseClient where
  connections := [3, 4]
  hasher key := if 3 ≤ key.length then 0 else 1
  positive := by decide
  nodup := by decide
  hasher_lt key := by
    split <;> decide

/-- A quiet client, of which nothing but the pieces of the next replies is known. -/
def quietNet (server : Int → σ) : Net σ where
  server := server
  pending _ := []
  source _ := ⟨[], 0, [.interrupted, .arrived 1, .arrived 3, .interrupted, .arrived 2], none⟩
  writes _ := [.took 5, .took 1, .took 9]

theorem quiet_quietNet (server : Int → σ) : Quiet (quietNet server) where
  server := rfl
  pending _ := rfl
  input _ := rfl
  writes _ x hx := by
    simp only [quietNet, List.mem_cons, List.not_mem_nil, or_false] at hx
    obtain rfl | rfl | rfl := hx
    · exact ⟨4, rfl⟩
    · exact ⟨0, rfl⟩
    · exact ⟨8, rfl⟩

/-- A server that numbers the requests, and answers the one with the number 1 by a number in an
    array. -/
def numbering (n : Nat) (_ : List Str) : Nat × Value :=
  (n + 1, if n = 1 then .array [.bulk "a".toList, .int 7, .bulk "b".toList] else .int n)

theorem sendable_numbering (n : Nat) (args : List Str) (hn : n ≤ 9223372036854775807) :
    Sendable (numbering n args).2 := by
  change Sendable (if n = 1 then _ else _)
  split
  · refine ⟨by decide, fun elems h e he => ?_⟩
    cases h
    revert e
    decide
  · exact ⟨⟨by omega, by omega⟩, fun _ h => by cases h⟩

def fourCommands : List (Str × List Str) :=
  [("k".toList, ["GET".toList, "k".toList]), ("k".toList, ["LRANGE".toList, "k".toList]),
    ("key".toList, ["GET".toList, "key".toList]), ("k".toList, ["GET".toList, "k".toList])]

/-- What the client makes of the four answers. -/
theorem readAnswers_fourCommands :
    readAnswers (answers numbering (fun _ => 0) (routed twoServers fourCommands)).2 =
      ⟨[(.intReply, .int 0)], .error (.protocol "unexpected prefix for bulk reply".toList),
        Function.update (fun _ => []) 4 (encode (.bulk "b".toList)),
        [(3, .int 0), (4, .int 2)]⟩ := by
  have hmixed : received (.array [.bulk "a".toList, .int 7, .bulk "b".toList]) =
      .error (.protocol "unexpected prefix for bulk reply".toList) := by
    rw [received, if_neg (by decide)]
    rfl
  have hleft : unread (.array [.bulk "a".toList, .int 7, .bulk "b".toList]) =
      encode (.bulk "b".toList) := by
    rw [unread, if_neg (by decide)]
    rfl
  have hanswers : (answers numbering (fun _ => 0) (routed twoServers fourCommands)).2 =
      [(4, .int 0), (4, .array [.bulk "a".toList, .int 7, .bulk "b".toList]), (3, .int 0),
        (4, .int 2)] := rfl
  rw [hanswers, readAnswers, readAnswers, hmixed, hleft]
  rfl

/-- The second command is answered with what the client throws at. The first has its reply; the rest
    of the second answer is left in front of the answer to the fourth, and the one to the third in
    the other socket. -/
theorem execAll_spec_thrown : ∃ w',
    (execAll readInt numbering twoServers (fourCommands.map Command.ofLines)).run.run
        (quietNet fun _ => 0) =
      (.ok (withReplies (fourCommands.map Command.ofLines) [(.intReply, .int 0)],
        .error (.protocol "unexpected prefix for bulk reply".toList)), w') ∧
      w'.server = (answers numbering (fun _ => 0) (routed twoServers fourCommands)).1 ∧
      ∀ s, (w'.source s).input =
        Function.update (fun _ => []) 4 (encode (.bulk "b".toList)) s ++
          encodeAll (owed [(3, .int 0), (4, .int 2)] s) := by
  have hsendable : ∀ p ∈ (answers numbering (fun _ => 0) (routed twoServers fourCommands)).2,
      Sendable p.2 := by
    intro p hp
    change p ∈ [((4 : Int), (numbering 0 []).2), (4, (numbering 1 []).2), (3, (numbering 0 []).2),
      (4, (numbering 2 []).2)] at hp
    simp only [List.mem_cons, List.not_mem_nil, or_false] at hp
    obtain rfl | rfl | rfl | rfl := hp
    · exact sendable_numbering 0 [] (by decide)
    · exact sendable_numbering 1 [] (by decide)
    · exact sendable_numbering 0 [] (by decide)
    · exact sendable_numbering 2 [] (by decide)
  have hsize : ∀ s ∈ twoServers.connections, IntSized (message twoServers fourCommands s) := by
    decide +kernel
  have h := execAll_spec readsLongs_readInt (quiet_quietNet fun _ => 0) hsize hsendable
  have hserver : (quietNet fun _ => 0).server = fun _ => 0 := rfl
  rwa [hserver, readAnswers_fourCommands] at h

/-- **Many commands at once are the commands one by one**: the same replies, the same servers
    afterwards, and nothing unread. -/
theorem execAll_eq_execEach (hcast : ReadsLongs lexicalCast) {w : Net σ} (hw : Quiet w)
    {rs : List (Str × List Str)} (hsize : ∀ s ∈ c.connections, IntSized (message c rs s))
    (hvs : ∀ p ∈ (answers serve w.server (routed c rs)).2, Sendable p.2)
    (hended : (readAnswers (answers serve w.server (routed c rs)).2).ended = .ok ()) :
    ∃ cmds w₁ w₂,
      (execAll lexicalCast serve c (rs.map Command.ofLines)).run.run w = (.ok (cmds, .ok ()), w₁) ∧
      (execEach lexicalCast serve c (rs.map Command.ofLines)).run.run w = (.ok (cmds, .ok ()), w₂) ∧
      cmds = withReplies (rs.map Command.ofLines)
        (readAnswers (answers serve w.server (routed c rs)).2).got ∧
      w₁.server = w₂.server ∧ Quiet w₁ ∧ Quiet w₂ := by
  obtain ⟨w₁, hrun₁, hw₁⟩ := comes_execAll hcast w.server hsize hvs w hw
  obtain ⟨w₂, hrun₂, hw₂⟩ :=
    comes_execEach hcast w.server (fun r hr => intSized_request hsize hr) hvs hended w hw
  obtain ⟨htorn, hbehind⟩ := readAnswers_ok hended
  rw [hended] at hrun₁
  rw [htorn, hbehind] at hw₁
  have hquiet {w' : Net σ} (h : Shows w' (.whole (answers serve w.server (routed c rs)).1
      (owed []))) : Quiet w' := by
    rw [Quiet, h.server]
    exact h
  exact ⟨_, w₁, w₂, hrun₁, hrun₂, rfl, hw₁.server.trans hw₂.server.symm, hquiet hw₁, hquiet hw₂⟩

def twoCommands : List (Str × List Str) :=
  [("key".toList, ["GET".toList, "key".toList]), ("k".toList, ["GET".toList, "k".toList])]

theorem execAll_eq_execEach_two : ∃ cmds w₁ w₂,
    (execAll readInt numbering twoServers (twoCommands.map Command.ofLines)).run.run
        (quietNet fun _ => 5) = (.ok (cmds, .ok ()), w₁) ∧
      (execEach readInt numbering twoServers (twoCommands.map Command.ofLines)).run.run
        (quietNet fun _ => 5) = (.ok (cmds, .ok ()), w₂) ∧
      cmds = withReplies (twoCommands.map Command.ofLines)
        [(.intReply, .int 5), (.intReply, .int 5)] ∧
      w₁.server = w₂.server ∧ Quiet w₁ ∧ Quiet w₂ := by
  have hsendable : ∀ p ∈ (answers numbering (fun _ => 5) (routed twoServers twoCommands)).2,
      Sendable p.2 := by
    intro p hp
    change p ∈ [((3 : Int), (numbering 5 []).2), (4, (numbering 5 []).2)] at hp
    simp only [List.mem_cons, List.not_mem_nil, or_false] at hp
    obtain rfl | rfl := hp <;> exact sendable_numbering 5 [] (by decide)
  have hserver : (quietNet fun _ => 5).server = fun _ => 5 := rfl
  have hread : readAnswers (answers numbering (fun _ => 5) (routed twoServers twoCommands)).2 =
      ⟨[(.intReply, .int 5), (.intReply, .int 5)], .ok (), fun _ => [], []⟩ := by
    have hanswers : (answers numbering (fun _ => 5) (routed twoServers twoCommands)).2 =
        [(3, .int 5), (4, .int 5)] := rfl
    have hreceived : received (.int 5) = .ok (.intReply, .int 5) := rfl
    rw [hanswers, readAnswers, hreceived, readAnswers, hreceived, readAnswers]
  have hsize : ∀ s ∈ twoServers.connections, IntSized (message twoServers twoCommands s) := by
    decide +kernel
  have h := execAll_eq_execEach readsLongs_readInt (quiet_quietNet fun _ => 5) hsize hsendable
    (by rw [hserver, hread])
  rwa [hserver, hread] at h

end Exec

end WebsocketTest.Redis
