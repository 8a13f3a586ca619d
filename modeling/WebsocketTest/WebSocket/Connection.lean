import WebsocketTest.WebSocket.Writer

/-!
# A connection

`websocketpp::connection` once its handshake is done, as a state machine: what the application calls
(`Call`), and what the io service runs (`Event`), in any order. The loop of `handle_read_frame` is
one event each time round, so that a call from another thread may come between two of its rounds.

A call is one step, from its first line to its last. The code is not as strict: `send` and `close`
look at `m_state` without the lock that `m_send_queue` has, so that two threads may be inside them
at once, and what comes of such a race is not said here. The programs of this repository call from
the handlers only, which the io service runs one after the other.

What the handlers of the application do is part of the event in which they are called. The
configurations in use are the default ones: neither `silent_close` nor `drop_on_protocol_error`, and
no `m_pong_timeout_handler`. A timer that was cancelled may have expired before, so that its handler
still comes; `timers` are those whose handler may come.

An exception that leaves `consume` leaves `handle_read_frame` too, and with it the loop of the io
service. Nobody asks for another read then. Everything else may go on, as it does where the
application calls `run` again; the programs of this repository do not, and end.
-/

set_option autoImplicit false

namespace WebsocketTest.WebSocket

/-! ## Errors and their texts

The reason of a close frame that answers an error is the text of the error, so that the texts are
part of what goes over the wire. -/

/-- The bytes of a text of the source. -/
def bytesOf (s : String) : List UInt8 := s.toUTF8.data.toList

/-- The `transport::error` codes of the operations here. -/
inductive TransportError
  | passThrough
  | eof
  | tlsShortRead
  deriving DecidableEq, Repr

/-- An `error_code`, with its category. -/
inductive ErrorCode
  | websocketpp (e : ErrorValue)
  | processor (e : Error)
  | transport (e : TransportError)
  deriving DecidableEq, Repr

/-- `category::message` -/
def ErrorValue.message : ErrorValue → String
  | .general => "Generic error"
  | .invalidState => "invalid state"
  | .badCloseCode => "Unable to extract close code"
  | .reservedCloseCode => "Extracted close code is in a reserved range"
  | .invalidCloseCode => "Extracted close code is in an invalid range"
  | .invalidUtf8 => "Invalid UTF-8"
  | .closeHandshakeTimeout => "The closing handshake timed out"

/-- `processor_category::message` -/
def Error.message : Error → String
  | .general => "Generic processor error"
  | .invalidPayload => "A payload contained invalid data"
  | .invalidArguments => "invalid function arguments"
  | .invalidOpcode => "invalid opcode"
  | .controlTooBig => "Control messages are limited to fewer than 125 characters"
  | .invalidRsvBit => "Invalid use of reserved bits"
  | .fragmentedControl => "Control messages cannot be fragmented"
  | .invalidContinuation => "Invalid message continuation"
  | .maskingRequired => "Clients may not send unmasked frames"
  | .maskingForbidden => "Servers may not send masked frames"
  | .nonMinimalEncoding => "Payload length was not minimally encoded"
  | .invalidUtf8 => "Invalid UTF8 encoding"
  | .reservedCloseCode => "Reserved close code used"
  | .invalidCloseCode => "Invalid close code used"
  | .reasonRequiresCode => "Using a close reason requires a valid close code"

/-- The `message` of the transport's category. -/
def TransportError.message : TransportError → String
  | .passThrough => "Underlying Transport Error"
  | .eof => "End of File"
  | .tlsShortRead => "TLS Short Read"

/-- `error_code::message` -/
def ErrorCode.message : ErrorCode → String
  | .websocketpp e => e.message
  | .processor e => e.message
  | .transport e => e.message

/-- `processor::error::to_ws` -/
def Error.toWs : Error → UInt16
  | .controlTooBig | .invalidOpcode | .invalidRsvBit | .fragmentedControl | .invalidContinuation
  | .maskingRequired | .maskingForbidden | .reservedCloseCode | .invalidCloseCode =>
    Close.protocolError
  | .invalidPayload | .invalidUtf8 => Close.invalidPayload
  | _ => Close.internalEndpointError

/-- `limits::close_reason_size` -/
def closeReasonSize : Nat := 123

/-- `connection_read_buffer_size` -/
def connectionReadBufferSize : Nat := 512

/-! ## The state

Five members beside the writer are not in the source: `asked`, `received`, `shutdowns`, `finished`
and `timers` record what was asked of the transport or given to the application. The functions of
the source only add to them; what the transport still owes (`timers`, `shutdowns`) says which events
can come. -/

/-- `session::state` -/
inductive SessionState
  | connecting
  | opened
  | closing
  | closed
  deriving DecidableEq, Repr

/-- `terminate_status` -/
inductive TerminateStatus
  | failed
  | closed
  deriving DecidableEq, Repr

/-- Where `handle_read_frame` is: a read was asked for, these bytes of `m_buf` are not consumed yet,
    or it was left without asking for another read. -/
inductive Reading
  | asked
  | buffered (buf : List UInt8)
  | stopped
  deriving DecidableEq, Repr

/-- `connection`, with its transport. `asked` is what `writer.pushed` was prepared for, and
    `received` the messages that the handlers were called with; `shutdowns` are the
    `async_shutdown`s that have begun and not ended, and `finished` those that have, for each of
    which the close handler or the fail handler was called. -/
structure Connection where
  isServer : Bool
  keys : Nat → UInt32
  processor : Hybi13
  state : SessionState := .opened
  localCloseCode : UInt16 := Close.abnormalClose
  localCloseReason : List UInt8 := []
  remoteCloseCode : UInt16 := Close.abnormalClose
  remoteCloseReason : List UInt8 := []
  ec : Option ErrorCode := none
  writer : Writer := {}
  reading : Reading := .asked
  timers : Nat := 0
  shutdowns : List TerminateStatus := []
  finished : List TerminateStatus := []
  asked : List Outgoing := []
  received : List Message := []

namespace Connection

/-! ## Sending and closing -/

/-- A connection after its handshake. -/
def opened (isServer : Bool) (keys : Nat → UInt32) : Connection where
  isServer := isServer
  keys := keys
  processor := .new isServer

/-- A prepared message goes on the queue; a client has drawn a key for it. -/
def push (c : Connection) (o : Outgoing) (m : Prepared) : Connection :=
  { c with
    keys := if c.isServer then c.keys else fun n => c.keys (n + 1)
    writer := c.writer.push m
    asked := c.asked ++ [o] }

/-- What `send`, `ping` and `pong` have in common. -/
def sendOpen (c : Connection) (o : Outgoing) : Option ErrorCode × Connection :=
  if c.state ≠ .opened then (some (.websocketpp .invalidState), c)
  else match o.prepare c.isServer (c.keys 0) with
    | .error e => (some (.processor e), c)
    | .ok m => (none, c.push o m)

/-- `send(payload, op)` -/
def send (c : Connection) (payload : List UInt8) (op : Opcode) : Option ErrorCode × Connection :=
  c.sendOpen (.data op payload)

/-- `ping` -/
def ping (c : Connection) (payload : List UInt8) : Option ErrorCode × Connection :=
  c.sendOpen (.ping payload)

/-- `pong` -/
def pong (c : Connection) (payload : List UInt8) : Option ErrorCode × Connection :=
  c.sendOpen (.pong payload)

/-- What `send_close_frame` closes with: what it is given, or what the other endpoint closed
    with. -/
def closeWith (c : Connection) (code : UInt16) (reason : List UInt8) (ack : Bool) :
    UInt16 × List UInt8 :=
  if code ≠ Close.blank then (code, reason)
  else if ¬ ack then (Close.noStatus, [])
  else if c.remoteCloseCode = Close.noStatus then (Close.normal, [])
  else (c.remoteCloseCode, c.remoteCloseReason)

/-- `send_close_frame` -/
def sendCloseFrame (c : Connection) (code : UInt16) (reason : List UInt8) (ack terminal : Bool) :
    Option ErrorCode × Connection :=
  let (code, reason) := c.closeWith code reason ack
  let c := { c with localCloseCode := code, localCloseReason := reason }
  match prepareClose c.isServer (c.keys 0) code reason with
  | .error e => (some (.processor e), c)
  | .ok m =>
    let c := { c with state := .closing, timers := c.timers + 1 }
    (none, c.push (.close code reason) { m with terminal := terminal })

/-- `send_close_ack` -/
def sendCloseAck (c : Connection) (code : UInt16 := Close.blank) (reason : List UInt8 := []) :
    Option ErrorCode × Connection :=
  c.sendCloseFrame code reason true c.isServer

/-- `close` -/
def close (c : Connection) (code : UInt16) (reason : List UInt8) : Option ErrorCode × Connection :=
  if c.state ≠ .opened then (some (.websocketpp .invalidState), c)
  else c.sendCloseFrame code (reason.take closeReasonSize) false (Close.terminal code)

/-- `terminate` -/
def terminate (c : Connection) (ec : Option ErrorCode) : Connection :=
  let c := match ec with
    | some e =>
      { c with
        ec := some e
        localCloseCode := Close.abnormalClose
        localCloseReason := bytesOf e.message }
    | none => c
  let shutdown (tstat : TerminateStatus) : Connection :=
    { c with state := .closed, shutdowns := c.shutdowns ++ [tstat] }
  match c.state with
  | .connecting => shutdown .failed
  | .closed => c
  | _ => shutdown .closed

/-- `handle_terminate`, which calls the fail handler or the close handler. -/
def handleTerminate (c : Connection) (tstat : TerminateStatus) : Connection :=
  { c with finished := c.finished ++ [tstat] }

/-- `process_control_frame`, where the ping handler, if there is one, says `pong`. -/
def processControlFrame (c : Connection) (m : Message) (pong : Bool) : Connection :=
  match m.opcode with
  | .ping => if pong then (c.pong m.payload).2 else c
  | .pong => c
  | .close =>
    let (code, ec) := Close.extractCode m.payload
    let c := { c with remoteCloseCode := code }
    if ec.isSome then (c.sendCloseAck Close.protocolError (bytesOf "Invalid close code")).2
    else
      let (reason, ec) := Close.extractReason m.payload
      let c := { c with remoteCloseReason := reason }
      if ec.isSome then (c.sendCloseAck Close.protocolError (bytesOf "Invalid close reason")).2
      else match c.state with
        | .opened => c.sendCloseAck.2
        | .closing => if c.isServer then c.terminate none else c
        | _ => c
  | _ => c

/-! ## Reading

A read that came is kept in `reading` until its loop has used it up. Each time round the loop is an
event of its own. -/

/-- What the application calls, from a handler or from outside. -/
inductive Call
  | send (payload : List UInt8) (op : Opcode)
  | ping (payload : List UInt8)
  | pong (payload : List UInt8)
  | close (code : UInt16) (reason : List UInt8)
  deriving DecidableEq, Repr

/-- The call, with the error that it returns. -/
def call (c : Connection) : Call → Option ErrorCode × Connection
  | .send payload op => c.send payload op
  | .ping payload => c.ping payload
  | .pong payload => c.pong payload
  | .close code reason => c.close code reason

/-- The calls of a handler, one after the other. -/
def callAll (c : Connection) (calls : List Call) : Connection :=
  calls.foldl (fun c k => (c.call k).2) c

/-- The handlers for a message: those of the application make these calls, and answer a ping. -/
def dispatch (c : Connection) (m : Message) (calls : List Call) (pong : Bool) : Connection :=
  let c := { c with received := c.received ++ [m] }
  if m.opcode.isControl then c.processControlFrame m pong else c.callAll calls

/-- Once round the loop of `handle_read_frame`, where there is anything left to consume. -/
def round (c : Connection) (buf : List UInt8) (calls : List Call) (pong : Bool) : Connection :=
  match c.processor.consume buf with
  | .error .lengthError => { c with reading := .stopped }
  | .error (.code e) =>
    let c := { c with reading := .stopped }
    match c.close e.toWs (bytesOf e.message) with
    | (some closeEc, c) => c.terminate (some closeEc)
    | (none, c) => c
  | .ok (p, rest) =>
    let c := { c with reading := .buffered rest }
    if p.isReady then
      let (msg, p) := p.getMessage
      let c := { c with processor := p }
      match msg with
      | none => c
      | some m => c.dispatch m calls pong
    else { c with processor := p }

/-- `handle_read_frame`, up to its loop. -/
def handleReadFrame (c : Connection) (buf : List UInt8) : Connection :=
  if connectionReadBufferSize < buf.length then
    { c with reading := .stopped }.terminate (some (.websocketpp .general))
  else { c with reading := .buffered buf }

/-- `handle_read_frame`, called with an error. -/
def handleReadError (c : Connection) (e : TransportError) : Connection :=
  let c := { c with reading := .stopped }
  if e = .eof ∧ c.state = .closed then c
  else if e = .eof ∧ c.state = .closing ∧ ¬ c.isServer then c.terminate none
  else c.terminate (some (.transport e))

/-! ## Events -/

/-- What happens: a call of the application, what the transport has read, one time round the loop of
    `handle_read_frame`, a posted `write_frame`, and the ends of writes, shutdowns and timers. -/
inductive Event
  | call (k : Call)
  | read (buf : List UInt8)
  | readError (e : TransportError)
  | round (calls : List Call) (pong : Bool)
  | writeFrame
  | written (failed : Bool)
  | closeTimeout
  | shutdown
  deriving DecidableEq, Repr

/-- `handle_close_handshake_timeout` -/
def handleCloseHandshakeTimeout (c : Connection) : Connection :=
  c.terminate (some (.websocketpp .closeHandshakeTimeout))

/-- `handle_write_frame`, once the writer has done its part. -/
def handleWriteEnd (c : Connection) : WriteEnd → Connection
  | .next => c
  | .terminate => c.terminate none
  | .failed => c.terminate (some (.transport .passThrough))

/-- An event, if it can happen: a handler is called only if it is waited for. -/
def step (c : Connection) : Event → Option Connection
  | .call k => some (c.call k).2
  | .read buf => if c.reading = .asked then some (c.handleReadFrame buf) else none
  | .readError e => if c.reading = .asked then some (c.handleReadError e) else none
  | .round calls pong =>
    match c.reading with
    | .buffered [] => some { c with reading := .asked }
    | .buffered buf => some (c.round buf calls pong)
    | _ => none
  | .writeFrame => (c.writer.step .writeFrame).map fun r => { c with writer := r.2 }
  | .written failed =>
    (c.writer.step (.done failed)).map fun r => { c with writer := r.2 }.handleWriteEnd r.1
  | .closeTimeout =>
    if 0 < c.timers then some { c with timers := c.timers - 1 }.handleCloseHandshakeTimeout
    else none
  | .shutdown =>
    match c.shutdowns with
    | [] => none
    | tstat :: shutdowns => some ({ c with shutdowns := shutdowns }.handleTerminate tstat)

def Steps : Connection → List Event → Connection → Prop := Lib.Run.Steps (Lib.Run.ofFn step)

end Connection

end WebsocketTest.WebSocket
