import SmartGateway.Common.LineParser
import SmartGateway.Common.MessageJson
import SmartGateway.Gateway.DeviceManager
import SmartGateway.Gateway.MessageQueue
import SmartGateway.Lib.WriteLog

/-!
# The server link

`server_link_worker` of `gateway/server_link.c`, with the two functions that write to
the server's socket: `tcp_client_send_all` for the message in hand, and
`gateway_app_send_route_nack` out of the callback for a line. The worker is a machine
over what the calls it makes come back with: the queue, `connect`, `poll`, `send` and
`recv`, and the device manager as the callback finds it. The control says which call
it is at, and holds the connection, so that nothing is sent where none is open. Of a
connection the machine records what went over it.
-/

namespace SmartGateway

open WriteLog

/-! ## What the calls come back with -/

/-- `SERVER_LINK_READ_BUFFER_SIZE`. -/
abbrev serverLinkReadBufferSize : ℕ := 256

/-- `SERVER_LINK_BUFFER_SIZE`. -/
abbrev serverLinkBufferSize : ℕ := 1024

/-- One turn of the loop of `tcp_client_send_all`: how its `poll` ends, a poll that a
signal ends being made again, and if the socket is writable, how its `send` does.
`sent n` takes `n + 1` bytes, or as many as are left. -/
inductive SendTurn
  | pollFailed
  | timedOut
  | hungUp
  | notWritable
  | sent (n : ℕ)
  | interrupted
  | wouldBlock
  | refused
deriving DecidableEq

/-- The turn is the last, with -1. -/
def SendTurn.fails : SendTurn → Bool
  | .pollFailed | .timedOut | .hungUp | .refused => true
  | .notWritable | .sent _ | .interrupted | .wouldBlock => false

/-- The worker's own `poll`, with the two groups of flags it looks at. -/
inductive PollResult
  | interrupted
  | failed
  | timedOut
  | ready (readable hungUp : Bool)
deriving DecidableEq

/-- `recv`: some bytes, of which the read buffer takes what fits, or none. -/
inductive RecvResult
  | data (b : Byte) (bs : Bytes)
  | closed
  | wouldBlock
  | interrupted
  | failed
deriving DecidableEq

/-- What the call the worker is at comes back with. -/
inductive LinkEvent
  /-- At the head of the loop: the running flag, and the queue if it is asked. -/
  | turn (running : Bool) (pop : QueuePop)
  /-- `gateway_app_try_tcp_connect`: whether there is a connection now. -/
  | connect (connected : Bool)
  | send (turn : SendTurn)
  | poll (result : PollResult)
  | recv (result : RecvResult)
  /-- The callback for a line, with the devices as it finds them. -/
  | line (devices : DeviceManager)

/-! ## The two writers -/

/-- A turn of the loop of `tcp_client_send_all`; `none` for -1. -/
def sendAllTurn (w : Write Byte) : SendTurn → Option (Write Byte)
  | .pollFailed | .timedOut | .hungUp | .refused => none
  | .notWritable | .interrupted | .wouldBlock => some w
  | .sent n => some (w.advance (n + 1))

/-- A turn of a send loop keeps the text. -/
theorem sendAllTurn_text {w w' : Write Byte} {turn : SendTurn} (h : sendAllTurn w turn = some w') :
    w'.text = w.text := by
  cases turn with
  | pollFailed | timedOut | hungUp | refused => exact absurd h (by simp [sendAllTurn])
  | notWritable | interrupted | wouldBlock => rw [← Option.some.inj h]
  | sent n => rw [← Option.some.inj h, Write.advance_text]

theorem sendAllTurn_eq_none_iff {w : Write Byte} {turn : SendTurn} :
    sendAllTurn w turn = none ↔ turn.fails = true := by
  cases turn <;> simp [sendAllTurn, SendTurn.fails]

/-- `gateway_app_send_route_nack`: the text it hands to `tcp_client_send_all`, if it
comes to that. -/
def gatewayAppSendRouteNack (command : FrameCommand) (error : CStr) : Option Bytes :=
  if error.bytes = [] then
    none
  else
    match CharBuf.ofCStr? 32 error with
    | none => none
    | some error => messageJsonBuildNack 256 ⟨command.targetNode, command.sequence, error⟩

/-- The error a command is refused with. -/
def routeError : DeviceManagerCode → Option CStr
  | .ok => none
  | .notFound => some ⟨ascii "route_not_found", by decide⟩
  | .offline => some ⟨ascii "route_offline", by decide⟩
  | .queueFull => some ⟨ascii "route_queue_full", by decide⟩
  | _ => some ⟨ascii "route_internal", by decide⟩

/-- `gateway_app_on_tcp_line`: the devices it leaves, and the route NACK it sends. -/
def gatewayAppOnTcpLine (devices : DeviceManager) (line : Bytes) : DeviceManager × Option Bytes :=
  match messageJsonDecodeCommand line with
  | (none, _) => (devices, none)
  | (some _, command) =>
    let (devices, result) :=
      deviceManagerEnqueueCommand devices (some command.targetNode.toCStr) (some command)
    (devices, (routeError result.code).bind (gatewayAppSendRouteNack command))

/-! ## The worker -/

/-- What has gone over a connection: the sends that have ended, the bytes received,
and the lines the callback was called with. -/
structure Connection where
  written : List (Write Byte)
  received : Bytes
  handed : List Line

/-- A connection just made. -/
def Connection.fresh : Connection := ⟨[], [], []⟩

/-- A send that has ended, one way or the other. -/
def Connection.wrote (c : Connection) (w : Write Byte) : Connection :=
  { c with written := c.written ++ [w] }

/-- The call the worker is at. `tcp_fd` is the connection, where there is one. -/
inductive LinkControl
  | head (connection : Option Connection)
  | connecting
  /-- In `tcp_client_send_all` for the message in hand. -/
  | sending (c : Connection) (w : Write Byte)
  | polling (c : Connection)
  | receiving (c : Connection) (hungUp : Bool)
  /-- In the callback for a line. -/
  | onLine (c : Connection) (line : Line) (hungUp : Bool)
  /-- In `tcp_client_send_all` for a route NACK, out of the callback. -/
  | answering (c : Connection) (w : Write Byte) (hungUp : Bool)
  | stopped

/-- The worker: its variables, and for the record the connections it has closed, the
messages it has taken from the queue and those it has sent. -/
structure ServerLink where
  control : LinkControl
  pendingMessage : Option GatewayMessage
  tcpBuffer : Bytes
  closed : List Connection
  taken : List GatewayMessage
  sent : List GatewayMessage

/-- The open connection, with what is out of the send that is going on. -/
def LinkControl.connection : LinkControl → Option Connection
  | .head connection => connection
  | .connecting | .stopped => none
  | .sending c w | .answering c w _ => some (c.wrote w)
  | .polling c | .receiving c _ | .onLine c _ _ => some c

/-- What has been written over the connection the worker is at. -/
def LinkControl.written : LinkControl → List (Write Byte)
  | .head (some c) | .sending c _ | .polling c | .receiving c _ | .onLine c _ _
  | .answering c _ _ => c.written
  | .head none | .connecting | .stopped => []

/-- The send of the message in hand that is going on. -/
def LinkControl.sends : LinkControl → Option (Write Byte)
  | .sending _ w => some w
  | .head _ | .connecting | .polling _ | .receiving .. | .onLine .. | .answering .. | .stopped =>
    none

/-- The send of a route NACK that is going on. -/
def LinkControl.answers : LinkControl → Option (Write Byte)
  | .answering _ w _ => some w
  | .head _ | .connecting | .sending .. | .polling _ | .receiving .. | .onLine .. | .stopped =>
    none

namespace ServerLink

/-- All connections so far. -/
def connections (s : ServerLink) : List Connection := s.closed ++ s.control.connection.toList

/-- `server_link_disconnect`, and back to the head of the loop. -/
def disconnect (s : ServerLink) (c : Connection) : ServerLink :=
  { s with control := .head none, tcpBuffer := [], closed := s.closed ++ [c] }

/-- The end of the loop's body. -/
def checkHangup (s : ServerLink) (c : Connection) (hungUp : Bool) : ServerLink :=
  if hungUp then s.disconnect c else { s with control := .head (some c) }

/-- `line_parser_feed`, from the head of its loop. -/
def feed (s : ServerLink) (c : Connection) (hungUp : Bool) : ServerLink :=
  match lineParserTurn s.tcpBuffer with
  | none => s.checkHangup c hungUp
  | some (line, rest) =>
    { s with
      control := .onLine { c with handed := c.handed ++ [line] } line hungUp
      tcpBuffer := rest }

/-- `tcp_client_send_all` of a route NACK, from the head of its loop. What it returns
is not looked at: the callback is over, and the next line is. -/
def answer (s : ServerLink) (c : Connection) (w : Write Byte) (hungUp : Bool) : ServerLink :=
  if w.written = w.text.length then s.feed (c.wrote w) hungUp
  else { s with control := .answering c w hungUp }

/-- `tcp_client_send_all` of the message in hand, from the head of its loop. -/
def sendPending (s : ServerLink) (c : Connection) (w : Write Byte) : ServerLink :=
  if w.written = w.text.length then
    { s with
      control := .polling (c.wrote w)
      pendingMessage := none
      sent := s.sent ++ s.pendingMessage.toList }
  else
    { s with control := .sending c w }

/-- The worker with a connection: the message in hand goes first. -/
def sendStage (s : ServerLink) (c : Connection) : ServerLink :=
  match s.pendingMessage with
  | none => { s with control := .polling c }
  | some message => s.sendPending c (Write.start message.data)

/-- A connection is looked for if there is none. -/
def connectStage (s : ServerLink) : Option Connection → ServerLink
  | none => { s with control := .connecting }
  | some c => s.sendStage c

/-- Out of the loop: the socket is closed. -/
def stop (s : ServerLink) (connection : Option Connection) : ServerLink :=
  { s with control := .stopped, closed := s.closed ++ connection.toList }

/-- The head of the loop, up to the message in hand. -/
def turn (s : ServerLink) (connection : Option Connection) (running : Bool) (pop : QueuePop) :
    ServerLink :=
  if !running then
    s.stop connection
  else
    match s.pendingMessage, pop with
    | some _, _ | none, .empty => s.connectStage connection
    | none, .ok message =>
      { s with
        pendingMessage := some message
        taken := s.taken ++ [message] }.connectStage connection
    | none, .shutdown | none, .error => s.stop connection

/-- The worker after its `poll`. -/
def polled (s : ServerLink) (c : Connection) : PollResult → ServerLink
  | .interrupted | .timedOut => { s with control := .head (some c) }
  | .failed => s.disconnect c
  | .ready readable hungUp =>
    if readable then { s with control := .receiving c hungUp } else s.checkHangup c hungUp

/-- The worker after its `recv`. -/
def received (s : ServerLink) (c : Connection) (hungUp : Bool) : RecvResult → ServerLink
  | .data b bs =>
    let bytes := (b :: bs).take serverLinkReadBufferSize
    let c := { c with received := c.received ++ bytes }
    if serverLinkBufferSize < s.tcpBuffer.length + bytes.length then
      { s with tcpBuffer := [] }.checkHangup c hungUp
    else
      { s with tcpBuffer := s.tcpBuffer ++ bytes }.feed c hungUp
  | .closed | .failed => s.disconnect c
  | .wouldBlock => { s with control := .head (some c) }
  | .interrupted => s.checkHangup c hungUp

end ServerLink

/-- One call, come back. What the worker is not waiting for leaves it as it is. -/
def serverLinkStep (s : ServerLink) (e : LinkEvent) : ServerLink :=
  match s.control, e with
  | .head connection, .turn running pop => s.turn connection running pop
  | .connecting, .connect connected =>
    if connected then { s with tcpBuffer := [] }.sendStage .fresh
    else { s with control := .head none }
  | .sending c w, .send turn =>
    match sendAllTurn w turn with
    | some w => s.sendPending c w
    | none => s.disconnect (c.wrote w)
  | .polling c, .poll result => s.polled c result
  | .receiving c hungUp, .recv result => s.received c hungUp result
  | .onLine c line hungUp, .line devices =>
    match (gatewayAppOnTcpLine devices line.text).2 with
    | none => s.feed c hungUp
    | some nack => s.answer c (Write.start nack) hungUp
  | .answering c w hungUp, .send turn =>
    match sendAllTurn w turn with
    | some w => s.answer c w hungUp
    | none => s.feed (c.wrote w) hungUp
  | _, _ => s

/-- The worker as a machine. -/
def serverLinkWorker : Machine ServerLink LinkEvent Unit where
  init := ⟨.head none, none, [], [], [], []⟩
  step s e := (serverLinkStep s e, ())

end SmartGateway
