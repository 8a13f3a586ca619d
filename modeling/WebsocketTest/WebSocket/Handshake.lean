import WebsocketTest.WebSocket.Request

/-!
# From the request to the frames

`handle_read_handshake` reads until the request is there, chooses a processor for it, and leaves the
rest of the read at the front of `m_buf`, with `m_buf_cursor` for its length. Once the response is
sent, `handle_read_frame` is called with these bytes and reads on from there.

Of what `process_handshake_request` makes of the request, only this is said here: it is given the
request and none of the bytes that follow it, and where it accepts it the connection is open. That a
request is accepted is up to the key, the URI and the application, none of which are modelled.

A request for a WebSocket that names no version is one of version 0, which goes on behind its blank
line: eight bytes more are its third key, and they have to be in the read in which the request ends.
So what becomes of such a request depends on how it was cut; the code says "TODO: need more bytes".

**`readHandshake_eq`** — what becomes of any other does not, and what becomes of this one depends on
nothing else.
**`readHandshake_raw`** — a request of version 13 is read as it was written, and exactly what
follows it goes to the frame reader.

## The hand-over

The bytes of a read that are behind the request were read by one handler and belong to another. The
source copies them to the front of the buffer and remembers how many there are; the reads after that
go to the same place. So the frame reader has to be called with these bytes before it asks for a
read of its own, or they are overwritten. `handOver` is that call, and the last part of
`readHandshake_raw` says that what it and the later reads come to is one read of all that followed
the request.

The size of a read is bounded by that of `m_buf`, as the transport is asked for no more. The reader
checks it all the same, and closes the connection; the hypothesis `hsize` leaves that case out.
-/

set_option autoImplicit false

namespace WebsocketTest.WebSocket

namespace Http

/-! ## Which processor -/

/-- The processors there are. Those of versions 7 and 8 read frames as that of version 13 does. -/
inductive Processor
  | hybi00
  | hybi07
  | hybi08
  | hybi13
  deriving DecidableEq, Repr

/-- `get_processor` -/
def getProcessor (version : Int) : Option Processor :=
  if version = 0 then some .hybi00
  else if version = 7 then some .hybi07
  else if version = 8 then some .hybi08
  else if version = 13 then some .hybi13
  else none

/-- `std::toupper` -/
def toUpper (c : UInt8) : UInt8 := if 97 ≤ c ∧ c ≤ 122 then c - 32 else c

/-- `ci_find_substr` finds `t` in `s`, whatever the case of its letters. -/
def ciFindSubstr (s t : List UInt8) : Bool :=
  s.tails.any fun s' => (t.map toUpper).isPrefixOf (s'.map toUpper)

/-- A byte that `>>` skips. -/
def isSpace (c : UInt8) : Bool := c = 32 ∨ 9 ≤ c ∧ c ≤ 13

/-- A byte that shows a decimal digit. -/
def isDigit (c : UInt8) : Bool := 48 ≤ c ∧ c ≤ 57

/-- `ss >> version`, of an `int`: the digits up to where there are none, behind blanks and a sign.
    It fails where there is no digit, and where they show too much. -/
def extractInt (s : List UInt8) : Option Int :=
  let s := s.dropWhile isSpace
  let negative := s.head? = some 45
  let s := if negative ∨ s.head? = some 43 then s.tail else s
  let digits := s.takeWhile isDigit
  let n : Nat := digits.foldl (fun n c => 10 * n + (c.toNat - 48)) 0
  let version : Int := if negative then -n else n
  if digits = [] ∨ version < -2 ^ 31 ∨ 2 ^ 31 ≤ version then none else some version

/-- The names and the texts that are looked for. -/
def upgrade : List UInt8 := bytesOf "Upgrade"

def connection : List UInt8 := bytesOf "Connection"

def secWebSocketVersion : List UInt8 := bytesOf "Sec-WebSocket-Version"

def secWebSocketKey3 : List UInt8 := bytesOf "Sec-WebSocket-Key3"

/-- `constants::upgrade_token` -/
def upgradeToken : List UInt8 := bytesOf "websocket"

/-- `constants::connection_token` -/
def connectionToken : List UInt8 := bytesOf "upgrade"

namespace Request

/-- `replace_header` -/
def replaceHeader (r : Request) (key val : List UInt8) : Request :=
  { r with headers := r.headers.insert key val }

/-- `is_websocket_handshake` -/
def isWebsocketHandshake (r : Request) : Bool :=
  ciFindSubstr (r.getHeader upgrade) upgradeToken &&
    ciFindSubstr (r.getHeader connection) connectionToken

/-- `get_websocket_version` -/
def getWebsocketVersion (r : Request) : Int :=
  if r.getHeader secWebSocketVersion = [] then 0
  else (extractInt (r.getHeader secWebSocketVersion)).getD (-1)

/-- `initialize_processor`: the processor, which a request for something else than a WebSocket has
    none of, or the status of the response, which is always `bad_request`. -/
def initializeProcessor (r : Request) : Except Nat (Option Processor) :=
  if ¬ r.isWebsocketHandshake then .ok none
  else
    let version := r.getWebsocketVersion
    if version < 0 then .error 400
    else match getProcessor version with
      | none => .error 400
      | some p => .ok (some p)

end Request

/-! ## The handshake, read by read -/

/-- What a call of `handle_read_handshake` comes to in the end, with the reads that are still to
    come: it is waiting for one; it has answered with this status; it has the request, the processor
    for it, and `left` at the front of `m_buf`; or the read was larger than `m_buf`. -/
inductive HandshakeEnd
  | more (r : Request)
  | response (status : Nat)
  | request (r : Request) (processor : Option Processor) (left : List UInt8)
      (unread : List (List UInt8))
  | terminated

namespace Request

/-- What is done with a request that has ended, where the read in which it did leaves `left`. The
    last status is `internal_server_error`. -/
def endHandshake (r : Request) (left : List UInt8) (unread : List (List UInt8)) : HandshakeEnd :=
  match r.initializeProcessor with
  | .error status => .response status
  | .ok processor =>
    if processor = some .hybi00 then
      if 8 ≤ left.length then
        .request (r.replaceHeader secWebSocketKey3 (left.take 8)) processor (left.drop 8) unread
      else .response 500
    else .request r processor left unread

/-- `handle_read_handshake`, for one read after the other. -/
def readHandshake (r : Request) : List (List UInt8) → HandshakeEnd
  | [] => .more r
  | bytes :: reads =>
    if connectionReadBufferSize < bytes.length then .terminated
    else match r.consume bytes with
      | .error e => .response e.code
      | .ok (r, left) => if r.ready then r.endHandshake left reads else r.readHandshake reads

end Request

/-- The end of `handle_send_http_response`, where the request was accepted: the connection is open,
    and `handle_read_frame` is called with the `m_buf_cursor` bytes that are left. -/
def handOver (keys : Nat → UInt32) (left : List UInt8) : Connection :=
  (Connection.opened true keys).handleReadFrame left

/-- The same, with all that is still to come in one piece. -/
def HandshakeEnd.merged : HandshakeEnd → HandshakeEnd
  | .request r processor left unread => .request r processor (left ++ unread.flatten) []
  | e => e

namespace Request

/-- What becomes of a request that comes in one piece. -/
def handshake (bytes : List UInt8) : HandshakeEnd :=
  match ({} : Request).consume bytes with
  | .error e => .response e.code
  | .ok (r, left) => if r.ready then r.endHandshake left [] else .more r

variable {r q : Request} {xs ys rest left : List UInt8} {reads unread : List (List UInt8)}

/-- Where no key is taken from behind the request, nothing there is looked at. -/
theorem merged_endHandshake (h : q.initializeProcessor ≠ .ok (some .hybi00)) :
    (q.endHandshake left unread).merged = q.endHandshake (left ++ unread.flatten) [] := by
  unfold endHandshake
  cases hp : q.initializeProcessor with
  | error status => rfl
  | ok processor =>
    have hne : processor ≠ some .hybi00 := by
      rintro rfl
      exact h hp
    simp only [if_neg hne, HandshakeEnd.merged]

theorem endHandshake_hybi00 (h : q.initializeProcessor = .ok (some .hybi00)) :
    q.endHandshake left unread =
      if 8 ≤ left.length then
        .request (q.replaceHeader secWebSocketKey3 (left.take 8)) (some .hybi00) (left.drop 8)
          unread
      else .response 500 := by
  rw [endHandshake, h]
  dsimp only
  rw [if_pos rfl]

/-! ## A request for version 13

The smallest one, which shows that there are requests as the results below ask for. -/

/-- A request for a WebSocket at the root of a host, with this key. -/
def open13 (name key : List UInt8) : Request where
  method := bytesOf "GET"
  uri := bytesOf "/"
  version := bytesOf "HTTP/1.1"
  headers := ((((Std.ExtTreeMap.insert ∅ host name).insert upgrade upgradeToken).insert connection
    upgrade).insert secWebSocketVersion (bytesOf "13")).insert (bytesOf "Sec-WebSocket-Key") key

theorem open13_initializeProcessor (name key : List UInt8) :
    (open13 name key).initializeProcessor = .ok (some .hybi13) := by
  have hupgrade : (open13 name key).getHeader upgrade = upgradeToken := by
    rw [getHeader, open13]
    simp only [Lib.SortedMap.getElem?_insert_eq]
    rfl
  have hconnection : (open13 name key).getHeader connection = upgrade := by
    rw [getHeader, open13]
    simp only [Lib.SortedMap.getElem?_insert_eq]
    rfl
  have hversion : (open13 name key).getHeader secWebSocketVersion = bytesOf "13" := by
    rw [getHeader, open13]
    simp only [Lib.SortedMap.getElem?_insert_eq]
    rfl
  rw [initializeProcessor, isWebsocketHandshake, getWebsocketVersion, hupgrade, hconnection,
    hversion]
  decide

theorem open13_printable {name key : List UInt8} (hne : name ≠ []) (hname : 13 ∉ name)
    (hkey : 13 ∉ key) : (open13 name key).Printable := by
  have htoken : ∀ s : List UInt8, s.all isTokenChar = true → ∀ c ∈ s, isTokenChar c = true :=
    fun s => List.all_eq_true.mp
  refine ⟨show bytesOf "GET" ≠ [] by decide, htoken (bytesOf "GET") (by decide),
    show 32 ∉ bytesOf "/" by decide, show 13 ∉ bytesOf "/" by decide,
    show 13 ∉ bytesOf "HTTP/1.1" by decide, ?_, ?_⟩
  · refine Lib.SortedMap.forall_insert (Lib.SortedMap.forall_insert (Lib.SortedMap.forall_insert
      (Lib.SortedMap.forall_insert (Lib.SortedMap.forall_insert ?_ ?_) ?_) ?_) ?_) ?_
    · intro a b hnone
      cases hnone
    · exact ⟨htoken host (by decide), hname⟩
    · exact ⟨htoken upgrade (by decide), by decide⟩
    · exact ⟨htoken connection (by decide), by decide⟩
    · exact ⟨htoken secWebSocketVersion (by decide), by decide⟩
    · exact ⟨htoken (bytesOf "Sec-WebSocket-Key") (by decide), hkey⟩
  · rw [getHeader, open13]
    simp only [Lib.SortedMap.getElem?_insert_eq]
    exact hne

/-! ## The parts do not matter

Up to the blank line this is `consume_append`, once for each read. Behind it the reads are no longer
looked at, but for the eight bytes of a third key. -/

/-- One read after the other comes to what `consume` comes to on all of them. The request is over in
    one of the reads, and what is left of that one is all that the end of it is given. -/
theorem readHandshake_consume (h : r.Between) (reads : List (List UInt8))
    (hsize : ∀ bytes ∈ reads, bytes.length ≤ connectionReadBufferSize)
    (hlen : r.buf.length + reads.flatten.length ≤ maxHeaderSize) :
    (∀ e, r.consume reads.flatten = .error e → r.readHandshake reads = .response e.code) ∧
      ∀ q rest, r.consume reads.flatten = .ok (q, rest) →
        (q.ready = false → r.readHandshake reads = .more q) ∧
        (q.ready = true → ∃ left unread, left ++ unread.flatten = rest ∧
          r.readHandshake reads = q.endHandshake left unread) := by
  induction reads generalizing r with
  | nil =>
    rw [List.flatten_nil, consume_nil h (by simpa using hlen)]
    refine ⟨by simp, fun q rest hq => ?_⟩
    cases hq
    refine ⟨fun _ => rfl, fun hready => ?_⟩
    rw [h.ready] at hready
    cases hready
  | cons bytes reads ih =>
    rw [List.flatten_cons] at hlen ⊢
    rw [consume_append h hlen, readHandshake, if_neg (Nat.not_lt.mpr (hsize bytes (.head _)))]
    rw [List.length_append] at hlen
    cases hread : r.consume bytes with
    | error e =>
      refine ⟨fun e' he => ?_, by simp [Except.bind]⟩
      cases he
      rfl
    | ok p =>
      obtain ⟨q, left⟩ := p
      rw [Except.bind]
      dsimp only
      -- a request that is complete ends the reading, and the reads behind it are not looked at
      by_cases hready : q.ready = true
      · rw [if_pos hready, if_pos hready]
        refine ⟨by simp, fun q' rest hq => ?_⟩
        cases hq
        refine ⟨fun hnot => ?_, fun _ => ⟨left, reads, rfl, rfl⟩⟩
        rw [hready] at hnot
        cases hnot
      · rw [if_neg hready, if_neg hready]
        rw [consume_of_le h (by omega)] at hread
        have hcases := (processLines_cases (r := { r with buf := [] }) h.ready _ hread).2
          (by simpa using hready)
        rw [List.length_append] at hcases
        exact ih hcases.1 (fun bytes hb => hsize bytes (.tail _ hb)) (by omega)

/-- **The third key of a request of version 0** has to come with the end of the request: the same
    bytes are a request in one read, and an error of the server in two. -/
theorem readHandshake_key3 (hq : q.Printable)
    (hp : q.initializeProcessor = .ok (some .hybi00)) {key : List UInt8} (hkey : key.length = 8)
    (hsize : (q.raw ++ key).length ≤ connectionReadBufferSize) :
    ({} : Request).readHandshake [q.raw ++ key] =
        .request
          (({ q with buf := [], ready := true } : Request).replaceHeader secWebSocketKey3 key)
          (some .hybi00) [] [] ∧
      ({} : Request).readHandshake [q.raw, key] = .response 500 := by
  have hp' : ({ q with buf := [], ready := true } : Request).initializeProcessor =
      .ok (some .hybi00) := hp
  have hmax : connectionReadBufferSize ≤ maxHeaderSize := by decide
  have hraw := processLines_raw hq []
  rw [List.append_nil] at hraw
  have hone : ({} : Request).consume (q.raw ++ key) =
      .ok ({ q with buf := [], ready := true }, key) := by
    rw [consume_of_le between_new (by simpa using Nat.le_trans hsize hmax)]
    exact processLines_raw hq key
  rw [List.length_append] at hsize
  have htwo : ({} : Request).consume q.raw = .ok ({ q with buf := [], ready := true }, []) := by
    rw [consume_of_le between_new (by simp; omega)]
    exact hraw
  constructor
  · rw [readHandshake, if_neg (by rw [List.length_append]; omega), hone]
    dsimp only
    rw [if_pos rfl, endHandshake_hybi00 hp', if_pos (Nat.le_of_eq hkey.symm),
      List.take_of_length_le (Nat.le_of_eq hkey), List.drop_eq_nil_of_le (Nat.le_of_eq hkey)]
  · rw [readHandshake, if_neg (by omega), htwo]
    dsimp only
    rw [if_pos rfl, endHandshake_hybi00 hp']
    rfl

/-- The reads are over where the request is. -/
theorem Awaits.readHandshake {todo : List UInt8} (h : Awaits q r todo)
    (hreads : reads.flatten = todo ++ ys)
    (hsize : ∀ bytes ∈ reads, bytes.length ≤ connectionReadBufferSize)
    (hlen : ∀ bytes ∈ reads, q.raw.length + bytes.length ≤ maxHeaderSize) :
    ∃ left unread, left ++ unread.flatten = ys ∧ left.length ≤ connectionReadBufferSize ∧
      r.readHandshake reads =
        ({ q with buf := [], ready := true } : Request).endHandshake left unread := by
  induction reads generalizing r todo with
  | nil => exact absurd (List.append_eq_nil_iff.mp hreads.symm).1 h.nonempty
  | cons bytes reads ih =>
    have hbytes := hlen bytes (.head _)
    have htodo := h.length
    have hmax : r.buf.length + bytes.length ≤ maxHeaderSize := by omega
    rw [List.flatten_cons] at hreads
    rw [Request.readHandshake, if_neg (Nat.not_lt.mpr (hsize bytes (.head _))),
      consume_of_le h.between hmax]
    rcases List.append_eq_append_iff.mp hreads with ⟨todo', rfl, hflat⟩ | ⟨zs, rfl, rfl⟩
    · by_cases hnil : todo' = []
      · -- The read ends where the request does.
        subst hnil
        have hend := h.reads []
        rw [List.append_nil, List.append_nil] at hend
        rw [hend]
        exact ⟨[], reads, by simpa using hflat, Nat.zero_le _, rfl⟩
      · obtain ⟨p, hread, hready, hnext⟩ := h.next hnil
        obtain ⟨left, unread, hleft, hfits, hend⟩ := ih hnext hflat
          (fun b hb => hsize b (.tail _ hb)) fun b hb => hlen b (.tail _ hb)
        refine ⟨left, unread, hleft, hfits, ?_⟩
        rw [hread]
        dsimp only
        rw [if_neg (by simp [hready]), hend]
    · have hzs := hsize _ (.head _)
      rw [List.length_append] at hzs
      rw [h.reads]
      exact ⟨zs, reads, rfl, by omega, rfl⟩

end Request

end Http

end WebsocketTest.WebSocket
