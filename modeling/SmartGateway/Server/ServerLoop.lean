import SmartGateway.Gateway.ServerLink
import SmartGateway.Server.Dispatch
import SmartGateway.Server.TypedCommand

/-!
# The server's loop

`main` of `server/main.c` from its `while`, with `send_all`. The loop is a machine over
what the calls it makes come back with: the clock, `poll`, `fgets`, `accept`, `recv` and
`send`. The control says which call it is at, and holds the connection, where there is
one. What is printed is left out.

`ServerMove` says what the loop does to the connection, its buffer and the tables between
two calls, and `serverStep_moves` that a step is a row of such moves.
-/

namespace SmartGateway

open WriteLog

/-! ## What the calls come back with -/

/-- `RECEIVE_BUFFER_SIZE`. -/
abbrev receiveBufferSize : ℕ := 4096

/-- `TEMP_BUFFER_SIZE`. -/
abbrev tempBufferSize : ℕ := 256

/-- `CMD_RETRY_TABLE`. -/
abbrev cmdRetryTable : ℕ := 16

/-- `CMD_TIMEOUT_SEC`. -/
abbrev cmdTimeoutSec : ℤ := 3

/-- `CMD_MAX_RETRIES`. -/
abbrev cmdMaxRetries : ℤ := 2

/-- `NODE_STORE_MAX_NODES`. -/
abbrev nodeStoreMaxNodes : ℕ := 64

/-- The call of `command_manager_check_timeouts`: every array is given. -/
def loopCheckArgs (now : ℤ) : CheckTimeoutsArgs :=
  ⟨now, cmdTimeoutSec, cmdMaxRetries, true, true, true, true, cmdRetryTable, true, cmdRetryTable⟩

/-- One `send` of `send_all`; there is no `poll` before it. -/
inductive SendResult
  | sent (n : ℕ)
  | interrupted
  | failed
deriving DecidableEq

/-- The turn of a send loop it makes. -/
def SendResult.turn : SendResult → SendTurn
  | .sent n => .sent n
  | .interrupted => .interrupted
  | .failed => .refused

/-- The flags the loop looks at after its `poll`; the last two are those of the client. -/
structure Ready where
  typed : Bool
  accept : Bool
  readable : Bool
  hungUp : Bool
deriving DecidableEq

/-- The loop's `poll`. -/
inductive ServerPoll
  | interrupted
  | failed
  | timedOut
  | ready (flags : Ready)
deriving DecidableEq

/-- What the call the loop is at comes back with. -/
inductive ServerEvent
  /-- At the head of the loop: the running flag, and the clock. -/
  | turn (running : Bool) (now : ℤ)
  | send (result : SendResult)
  | poll (result : ServerPoll)
  /-- `fgets`, and the clock where a command is entered. -/
  | typed (line : Option (CharBuf cmdBufferSize)) (now : ℤ)
  | accept (accepted : Bool)
  | recv (result : RecvResult)
  /-- `on_line`, with its clock. -/
  | line (now : ℤ)

/-! ## The loop -/

/-- The call the loop is at. `client_fd` is the connection, where there is one. -/
inductive ServerControl
  | head (client : Option Connection)
  /-- In `send_all` for a retry, with the retries still to come. -/
  | retrying (c : Connection) (w : Write Byte) (retries : List FrameCommand)
  | polling (client : Option Connection)
  /-- In `fgets`. -/
  | typing (client : Option Connection) (flags : Ready)
  /-- In `send_all` for a typed command. -/
  | commanding (c : Connection) (w : Write Byte) (flags : Ready)
  | accepting (client : Option Connection) (flags : Ready)
  | receiving (c : Connection) (hungUp : Bool)
  /-- In `on_line`, out of `line_parser_feed`. -/
  | onLine (c : Connection) (line : Line) (hungUp : Bool)
  | stopped

/-- The variables of `main`, and for the record the connections it has closed and the lines
it has read from the terminal. -/
structure ServerLoop where
  control : ServerControl
  receiveBuffer : Bytes
  context : ServerContext
  closed : List Connection
  typed : List (CharBuf cmdBufferSize)

/-- A `fields` array, and how many of its entries count. -/
def countedFields (fields : FrameFields) (count : ℕ) : FrameFields :=
  ⟨fields.1.take count, (List.length_take_le' count fields.1).trans fields.2⟩

/-- The commands a report asks to send again: each with what the four arrays hold at its
place. -/
def TimeoutReport.commands (report : TimeoutReport) : List FrameCommand :=
  (report.retrySequences.zip (report.retryTargetNodes.zip
    (report.retryFields.zip report.retryFieldCounts))).map fun retry =>
      ⟨retry.2.1, cmdSender, retry.1, countedFields retry.2.2.1 retry.2.2.2⟩

namespace ServerLoop

/-- The connection is closed, and the loop begins again. -/
def close (s : ServerLoop) (c : Connection) : ServerLoop :=
  { s with control := .head none, receiveBuffer := [], closed := s.closed ++ [c] }

/-- Out of the loop: the socket is closed. -/
def stop (s : ServerLoop) (client : Option Connection) : ServerLoop :=
  { s with control := .stopped, closed := s.closed ++ client.toList }

/-- The end of the loop's body. -/
def checkHangup (s : ServerLoop) (c : Connection) (hungUp : Bool) : ServerLoop :=
  if hungUp then s.close c else { s with control := .head (some c) }

/-- `line_parser_feed`, from the head of its loop. -/
def feed (s : ServerLoop) (c : Connection) (hungUp : Bool) : ServerLoop :=
  match lineParserTurn s.receiveBuffer with
  | none => s.checkHangup c hungUp
  | some (line, rest) =>
    { s with
      control := .onLine { c with handed := c.handed ++ [line] } line hungUp
      receiveBuffer := rest }

/-- The loop over the retries: without a client, or a line, a retry is dropped. -/
def retry (s : ServerLoop) (client : Option Connection) : List FrameCommand → ServerLoop
  | [] => { s with control := .polling client }
  | command :: retries =>
    match client, messageJsonBuildCommand cmdJsonSize command with
    | some c, some text => { s with control := .retrying c (Write.start text) retries }
    | _, _ => s.retry client retries

/-- The head of the loop, up to the first `send`. -/
def turn (s : ServerLoop) (client : Option Connection) (running : Bool) (now : ℤ) : ServerLoop :=
  if !running then
    s.stop client
  else
    let (manager, report) := commandManagerCheckTimeouts s.context.manager (loopCheckArgs now)
    { s with context := { s.context with manager := manager } }.retry client
      (report.getD .empty).commands

/-- The part of the body that receives. -/
def receiveStage (s : ServerLoop) (client : Option Connection) (flags : Ready) : ServerLoop :=
  match client with
  | none => { s with control := .head none }
  | some c =>
    if flags.readable then { s with control := .receiving c flags.hungUp }
    else s.checkHangup c flags.hungUp

/-- The part of the body that accepts. -/
def acceptStage (s : ServerLoop) (client : Option Connection) (flags : Ready) : ServerLoop :=
  if flags.accept then { s with control := .accepting client flags }
  else s.receiveStage client flags

/-- The loop after its `poll`. -/
def polled (s : ServerLoop) (client : Option Connection) : ServerPoll → ServerLoop
  | .interrupted | .timedOut => { s with control := .head client }
  | .failed => s.stop client
  | .ready flags =>
    if flags.typed then { s with control := .typing client flags } else s.acceptStage client flags

/-- The loop after `fgets`. -/
def command (s : ServerLoop) (client : Option Connection) (flags : Ready)
    (line : Option (CharBuf cmdBufferSize)) (now : ℤ) : ServerLoop :=
  let (manager, outcome) := handleStdinCommand client.isSome s.context.manager line now
  let s := { s with
    context := { s.context with manager := manager }
    typed := s.typed ++ line.toList }
  match client, outcome with
  | some c, .sends text => { s with control := .commanding c (Write.start text) flags }
  | _, _ => s.acceptStage client flags

/-- The loop after `accept`: a new client replaces the one there is. -/
def accepted (s : ServerLoop) (client : Option Connection) (flags : Ready) (ok : Bool) :
    ServerLoop :=
  if ok then
    { s with
      control := .head (some .fresh)
      receiveBuffer := []
      closed := s.closed ++ client.toList }
  else
    s.receiveStage client flags

/-- The loop after `recv`: with more than the buffer takes, the connection is closed. -/
def received (s : ServerLoop) (c : Connection) (hungUp : Bool) : RecvResult → ServerLoop
  | .data b bs =>
    let bytes := (b :: bs).take tempBufferSize
    let c := { c with received := c.received ++ bytes }
    if receiveBufferSize < s.receiveBuffer.length + bytes.length then
      s.close c
    else
      { s with receiveBuffer := s.receiveBuffer ++ bytes }.feed c hungUp
  | .closed | .wouldBlock | .failed => s.close c
  | .interrupted => s.checkHangup c hungUp

end ServerLoop

/-- One call, come back. What the loop is not waiting for leaves it as it is. -/
def serverStep (s : ServerLoop) (e : ServerEvent) : ServerLoop :=
  match s.control, e with
  | .head client, .turn running now => s.turn client running now
  | .retrying c w retries, .send result =>
    match sendAllTurn w result.turn with
    | some w =>
      if w.written = w.text.length then s.retry (some (c.wrote w)) retries
      else { s with control := .retrying c w retries }
    | none => s.retry (some (c.wrote w)) retries
  | .polling client, .poll result => s.polled client result
  | .typing client flags, .typed line now => s.command client flags line now
  | .commanding c w flags, .send result =>
    match sendAllTurn w result.turn with
    | some w =>
      if w.written = w.text.length then s.acceptStage (some (c.wrote w)) flags
      else { s with control := .commanding c w flags }
    | none => s.acceptStage (some (c.wrote w)) flags
  | .accepting client flags, .accept ok => s.accepted client flags ok
  | .receiving c hungUp, .recv result => s.received c hungUp result
  | .onLine c line hungUp, .line now =>
    { s with context := (onLine s.context line.text now).1 }.feed c hungUp
  | _, _ => s

/-- The store `main` starts with. -/
def serverStore : NodeStore := ⟨nodeStoreMaxNodes, [], by decide, Nat.zero_le _⟩

/-- `node_store_create` gives it. -/
theorem nodeStoreCreate_eq : nodeStoreCreate nodeStoreMaxNodes = some serverStore := rfl

/-- The loop as a machine. -/
def serverMachine : Machine ServerLoop ServerEvent Unit where
  init := ⟨.head none, [], ⟨serverStore, commandManagerCreate⟩, [], []⟩
  step s e := (serverStep s e, ())

/-! ## What a step can do -/

/-- Where `line_parser_feed` is: not called, between two lines, or in the callback. -/
inductive Feeding
  | idle
  | between
  | inLine (line : Line)
deriving DecidableEq

/-- What the loop holds, wherever it is. -/
structure ServerHeld where
  client : Option Connection
  /-- What is being sent. -/
  writing : Option (Write Byte)
  /-- The retries still to come. -/
  retries : List FrameCommand
  feeding : Feeding
  buffer : Bytes
  context : ServerContext
  closed : List Connection
  typed : List (CharBuf cmdBufferSize)

namespace ServerControl

/-- `client_fd`. -/
def client : ServerControl → Option Connection
  | .head client | .polling client | .typing client _ | .accepting client _ => client
  | .retrying c _ _ | .commanding c _ _ | .receiving c _ | .onLine c _ _ => some c
  | .stopped => none

/-- The text in `send_all`. -/
def writing : ServerControl → Option (Write Byte)
  | .retrying _ w _ | .commanding _ w _ => some w
  | _ => none

/-- The rest of the retries. -/
def retries : ServerControl → List FrameCommand
  | .retrying _ _ retries => retries
  | _ => []

/-- Where `line_parser_feed` is. -/
def feeding : ServerControl → Feeding
  | .onLine _ line _ => .inLine line
  | _ => .idle

end ServerControl

/-- What the loop holds at a control. -/
def ServerLoop.held (s : ServerLoop) : ServerHeld :=
  ⟨s.control.client, s.control.writing, s.control.retries, s.control.feeding, s.receiveBuffer,
    s.context, s.closed, s.typed⟩

/-- The command manager, replaced. -/
def ServerHeld.setManager (h : ServerHeld) (manager : CommandManager) : ServerHeld :=
  { h with context := { h.context with manager := manager } }

/-- The loop holds no call's business: it sends nothing and hands nothing on. -/
structure ServerHeld.Idle (h : ServerHeld) : Prop where
  writing : h.writing = none
  retries : h.retries = []
  feeding : h.feeding = .idle

/-- **What the loop does** between two calls. In a clean step no send fails with a part of
its text out. -/
inductive ServerMove (clean : Bool) : ServerHeld → ServerHeld → Prop
  /-- The timeout check, and the retries it asks for. -/
  | checked (h : ServerHeld) (now : ℤ) : h.Idle →
      ServerMove clean h
        { h.setManager (commandManagerCheckTimeouts h.context.manager (loopCheckArgs now)).1 with
          retries := ((commandManagerCheckTimeouts h.context.manager
            (loopCheckArgs now)).2.getD .empty).commands }
  /-- A retry is dropped. -/
  | skipped (h : ServerHeld) (command : FrameCommand) (retries : List FrameCommand) :
      h.writing = none → h.feeding = .idle → h.retries = command :: retries →
      ServerMove clean h { h with retries := retries }
  /-- Its line is sent. -/
  | begun (h : ServerHeld) (c : Connection) (command : FrameCommand)
      (retries : List FrameCommand) (text : Bytes) : h.writing = none → h.feeding = .idle →
      h.client = some c → h.retries = command :: retries →
      messageJsonBuildCommand cmdJsonSize command = some text →
      ServerMove clean h { h with writing := some (Write.start text), retries := retries }
  /-- A turn of `send_all`. -/
  | went (h : ServerHeld) (c : Connection) (w w' : Write Byte) (turn : SendTurn) :
      h.client = some c → h.writing = some w → sendAllTurn w turn = some w' →
      ServerMove clean h { h with writing := some w' }
  /-- Its end, one way or the other. -/
  | ended (h : ServerHeld) (c : Connection) (w : Write Byte) : h.client = some c →
      h.writing = some w → (clean = true → w.written = 0 ∨ w.Whole) →
      ServerMove clean h { h with client := some (c.wrote w), writing := none }
  /-- A line is read from the terminal, and sends nothing. -/
  | read (h : ServerHeld) (line : Option (CharBuf cmdBufferSize)) : h.Idle →
      ServerMove clean h { h with typed := h.typed ++ line.toList }
  /-- It is a command, and is entered and sent. -/
  | entered (h : ServerHeld) (c : Connection) (line : CharBuf cmdBufferSize)
      (targetNode : CharBuf 32) (value now : ℤ) (manager : CommandManager) : h.Idle →
      h.client = some c → TypedLed line.bytes targetNode value →
      commandManagerSend h.context.manager (some targetNode.toCStr) (some cmdSender.toCStr)
        (some (ledFields value).1) true now = (manager, some h.context.manager.nextSequence) →
      ServerMove clean h
        { h.setManager manager with
          writing := some (Write.start (commandLine
            (typedLedCommand targetNode value h.context.manager.nextSequence) [Ascii.lf]))
          typed := h.typed ++ [line] }
  /-- A client is accepted, and replaces the one there is. -/
  | accepted (h : ServerHeld) : h.Idle →
      ServerMove clean h
        { h with client := some .fresh, buffer := [], closed := h.closed ++ h.client.toList }
  /-- The connection is closed. -/
  | closed (h : ServerHeld) (client : Option Connection) (buffer : Bytes) : h.Idle →
      h.client = client →
      ServerMove clean h
        { h with client := none, buffer := buffer, closed := h.closed ++ client.toList }
  /-- Bytes arrive, and fit. -/
  | received (h : ServerHeld) (c : Connection) (chunk : Bytes) : h.Idle → h.client = some c →
      chunk.length ≤ tempBufferSize → h.buffer.length + chunk.length ≤ receiveBufferSize →
      ServerMove clean h
        { h with
          client := some { c with received := c.received ++ chunk }
          feeding := .between
          buffer := h.buffer ++ chunk }
  /-- They do not fit, and the connection is closed. -/
  | overflowed (h : ServerHeld) (c : Connection) (chunk : Bytes) : h.Idle → h.client = some c →
      chunk.length ≤ tempBufferSize → receiveBufferSize < h.buffer.length + chunk.length →
      ServerMove clean h
        { h with
          client := none
          buffer := []
          closed := h.closed ++ [{ c with received := c.received ++ chunk }] }
  /-- A line is taken out of the buffer. -/
  | handed (h : ServerHeld) (c : Connection) (line : Line) (rest : Bytes) :
      h.feeding = .between → h.writing = none → h.retries = [] → h.client = some c →
      lineParserTurn h.buffer = some (line, rest) →
      ServerMove clean h
        { h with
          client := some { c with handed := c.handed ++ [line] }
          feeding := .inLine line
          buffer := rest }
  /-- `on_line` is through with it. -/
  | dispatched (h : ServerHeld) (c : Connection) (line : Line) (now : ℤ) :
      h.feeding = .inLine line → h.client = some c →
      ServerMove clean h
        { h with context := (onLine h.context line.text now).1, feeding := .between }
  /-- There is no line left. -/
  | fed (h : ServerHeld) (c : Connection) : h.feeding = .between → h.writing = none →
      h.retries = [] → h.client = some c → lineParserTurn h.buffer = none →
      ServerMove clean h { h with feeding := .idle }

/-- A row of moves. -/
abbrev ServerMoves (clean : Bool) : ServerHeld → ServerHeld → Prop :=
  Relation.ReflTransGen (ServerMove clean)

namespace ServerLoop

variable {clean : Bool} {s : ServerLoop} {c : Connection} {client : Option Connection}

/-- What the loop holds between two calls of its body, with this client. -/
def heldWith (s : ServerLoop) (client : Option Connection) : ServerHeld :=
  ⟨client, none, [], .idle, s.receiveBuffer, s.context, s.closed, s.typed⟩

theorem idle_heldWith (s : ServerLoop) (client : Option Connection) : (s.heldWith client).Idle :=
  ⟨rfl, rfl, rfl⟩

theorem moves_close (s : ServerLoop) (c : Connection) :
    ServerMoves clean (s.heldWith (some c)) (s.close c).held :=
  .single (.closed _ (some c) [] (s.idle_heldWith _) rfl)

theorem moves_stop (s : ServerLoop) (client : Option Connection) :
    ServerMoves clean (s.heldWith client) (s.stop client).held :=
  .single (.closed _ client s.receiveBuffer (s.idle_heldWith _) rfl)

theorem moves_checkHangup (s : ServerLoop) (c : Connection) (hungUp : Bool) :
    ServerMoves clean (s.heldWith (some c)) (s.checkHangup c hungUp).held := by
  unfold checkHangup
  split
  · exact s.moves_close c
  · exact .refl

/-- The next line is taken out, or there is none. -/
theorem moves_feed (s : ServerLoop) (c : Connection) (hungUp : Bool) :
    ServerMoves clean { s.heldWith (some c) with feeding := .between } (s.feed c hungUp).held := by
  unfold feed
  split
  · rename_i hturn
    refine .head (.fed _ c rfl rfl rfl rfl hturn) ?_
    exact s.moves_checkHangup c hungUp
  · rename_i line rest hturn
    exact .single (.handed _ c line rest rfl rfl rfl rfl hturn)

/-- The loop over the retries, up to the next that is sent. -/
theorem moves_retry (s : ServerLoop) (client : Option Connection) (retries : List FrameCommand) :
    ServerMoves clean { s.heldWith client with retries := retries }
      (s.retry client retries).held := by
  induction retries with
  | nil => exact .refl
  | cons command retries ih =>
    unfold retry
    split
    · rename_i c text htext
      exact .single (.begun _ c command retries text rfl rfl rfl rfl htext)
    · exact .head (.skipped _ command retries rfl rfl rfl) ih

theorem moves_turn (s : ServerLoop) (client : Option Connection) (running : Bool) (now : ℤ) :
    ServerMoves clean (s.heldWith client) (s.turn client running now).held := by
  unfold turn
  split
  · exact s.moves_stop client
  · have hretry : ServerMoves clean _ _ := moves_retry
      { s with context := { s.context with
          manager := (commandManagerCheckTimeouts s.context.manager (loopCheckArgs now)).1 } }
      client
      ((commandManagerCheckTimeouts s.context.manager (loopCheckArgs now)).2.getD .empty).commands
    exact .head (.checked _ now (s.idle_heldWith client)) hretry

theorem moves_receiveStage (s : ServerLoop) (client : Option Connection) (flags : Ready) :
    ServerMoves clean (s.heldWith client) (s.receiveStage client flags).held := by
  unfold receiveStage
  split
  · exact .refl
  split
  · exact .refl
  · exact s.moves_checkHangup _ _

theorem moves_acceptStage (s : ServerLoop) (client : Option Connection) (flags : Ready) :
    ServerMoves clean (s.heldWith client) (s.acceptStage client flags).held := by
  unfold acceptStage
  split
  · exact .refl
  · exact s.moves_receiveStage client flags

theorem moves_polled (s : ServerLoop) (client : Option Connection) (result : ServerPoll) :
    ServerMoves clean (s.heldWith client) (s.polled client result).held := by
  cases result with
  | interrupted | timedOut => exact .refl
  | failed => exact s.moves_stop client
  | ready flags =>
    unfold polled
    dsimp only
    split
    · exact .refl
    · exact s.moves_acceptStage client flags

/-- A line from the terminal: it is only read, or it is entered and its send begun. -/
theorem moves_command (s : ServerLoop) (client : Option Connection) (flags : Ready)
    (line : Option (CharBuf cmdBufferSize)) (now : ℤ) :
    ServerMoves clean (s.heldWith client) (s.command client flags line now).held := by
  have heffect := handleStdinCommand_effect client.isSome s.context.manager line now
  unfold command
  generalize handleStdinCommand client.isSome s.context.manager line now = result at heffect ⊢
  cases heffect with
  | quiet outcome hquiet =>
    have hstage : (match client, outcome with
        | some c, .sends text =>
          { s with
            typed := s.typed ++ line.toList
            control := .commanding c (Write.start text) flags }
        | _, _ => { s with typed := s.typed ++ line.toList }.acceptStage client flags) =
        { s with typed := s.typed ++ line.toList }.acceptStage client flags := by
      split
      · exact absurd rfl (hquiet _)
      · rfl
    dsimp only at hstage ⊢
    rw [hstage]
    have hnext : ServerMoves clean _ _ :=
      moves_acceptStage { s with typed := s.typed ++ line.toList } client flags
    exact .head (.read _ line (s.idle_heldWith client)) hnext
  | sent typed targetNode value manager hconnected hline htyped hsend =>
    obtain ⟨c, rfl⟩ := Option.isSome_iff_exists.mp hconnected
    subst hline
    exact .single (.entered _ c typed targetNode value now manager (s.idle_heldWith _) rfl htyped
      hsend)

theorem moves_accepted (s : ServerLoop) (client : Option Connection) (flags : Ready) (ok : Bool) :
    ServerMoves clean (s.heldWith client) (s.accepted client flags ok).held := by
  unfold accepted
  split
  · exact .single (.accepted _ (s.idle_heldWith client))
  · exact s.moves_receiveStage client flags

theorem moves_received (s : ServerLoop) (c : Connection) (hungUp : Bool) (result : RecvResult) :
    ServerMoves clean (s.heldWith (some c)) (s.received c hungUp result).held := by
  cases result with
  | data b bs =>
    have hchunk : ((b :: bs).take tempBufferSize).length ≤ tempBufferSize :=
      List.length_take_le _ _
    unfold received
    dsimp only
    split
    · rename_i hover
      exact .single (.overflowed _ c _ (s.idle_heldWith _) rfl hchunk hover)
    · rename_i hfits
      have hfeed : ServerMoves clean _ _ := moves_feed
        { s with receiveBuffer := s.receiveBuffer ++ (b :: bs).take tempBufferSize }
        { c with received := c.received ++ (b :: bs).take tempBufferSize } hungUp
      exact .head (.received _ c _ (s.idle_heldWith _) rfl hchunk (Nat.le_of_not_lt hfits)) hfeed
  | closed | wouldBlock | failed => exact s.moves_close c
  | interrupted => exact s.moves_checkHangup c hungUp

end ServerLoop

/-- No send fails here with a part of its text out. -/
def cleanSend (s : ServerLoop) (e : ServerEvent) : Bool :=
  match s.control, e with
  | .retrying _ w _, .send .failed | .commanding _ w _, .send .failed => w.written == 0
  | _, _ => true

theorem SendResult.turn_fails {result : SendResult} (h : result.turn.fails = true) :
    result = .failed := by
  cases result with
  | sent n | interrupted => exact absurd h Bool.false_ne_true
  | failed => rfl

/-- **A step is a row of moves**, and of clean ones where no send fails half way. -/
theorem serverStep_moves (s : ServerLoop) (e : ServerEvent) :
    ServerMoves (cleanSend s e) s.held (serverStep s e).held := by
  have hfailed : ∀ {w : Write Byte} {result : SendResult}, sendAllTurn w result.turn = none →
      result = .failed :=
    fun hturn => SendResult.turn_fails (sendAllTurn_eq_none_iff.mp hturn)
  unfold serverStep
  split
  · rename_i client running now hat
    have hheld : s.held = s.heldWith client := by
      rw [ServerLoop.held, hat]
      rfl
    rw [hheld]
    exact s.moves_turn client running now
  · rename_i c w retries result hat
    have hheld : s.held = { s.heldWith (some c) with writing := some w, retries := retries } := by
      rw [ServerLoop.held, hat]
      rfl
    rw [hheld]
    split
    · rename_i w' hturn
      refine .head (.went _ c w w' result.turn rfl rfl hturn) ?_
      split
      · rename_i hwhole
        exact .head (.ended _ c w' rfl rfl fun _ => .inr hwhole) (s.moves_retry _ retries)
      · exact .refl
    · rename_i hturn
      obtain rfl := hfailed hturn
      refine .head (.ended _ c w rfl rfl fun hclean => .inl ?_) (s.moves_retry _ retries)
      simpa [cleanSend, hat] using hclean
  · rename_i client result hat
    have hheld : s.held = s.heldWith client := by
      rw [ServerLoop.held, hat]
      rfl
    rw [hheld]
    exact s.moves_polled client result
  · rename_i client flags line now hat
    have hheld : s.held = s.heldWith client := by
      rw [ServerLoop.held, hat]
      rfl
    rw [hheld]
    exact s.moves_command client flags line now
  · rename_i c w flags result hat
    have hheld : s.held = { s.heldWith (some c) with writing := some w } := by
      rw [ServerLoop.held, hat]
      rfl
    rw [hheld]
    split
    · rename_i w' hturn
      refine .head (.went _ c w w' result.turn rfl rfl hturn) ?_
      split
      · rename_i hwhole
        exact .head (.ended _ c w' rfl rfl fun _ => .inr hwhole) (s.moves_acceptStage _ flags)
      · exact .refl
    · rename_i hturn
      obtain rfl := hfailed hturn
      refine .head (.ended _ c w rfl rfl fun hclean => .inl ?_) (s.moves_acceptStage _ flags)
      simpa [cleanSend, hat] using hclean
  · rename_i client flags ok hat
    have hheld : s.held = s.heldWith client := by
      rw [ServerLoop.held, hat]
      rfl
    rw [hheld]
    exact s.moves_accepted client flags ok
  · rename_i c hungUp result hat
    have hheld : s.held = s.heldWith (some c) := by
      rw [ServerLoop.held, hat]
      rfl
    rw [hheld]
    exact s.moves_received c hungUp result
  · rename_i c line hungUp now hat
    have hheld : s.held = { s.heldWith (some c) with feeding := .inLine line } := by
      rw [ServerLoop.held, hat]
      rfl
    rw [hheld]
    have hfeed : ServerMoves (cleanSend s (.line now)) _ _ :=
      ServerLoop.moves_feed { s with context := (onLine s.context line.text now).1 } c hungUp
    exact .head (.dispatched _ c line now rfl rfl) hfeed
  · exact .refl

/-- **An invariant of the loop**: what a move keeps, every run keeps. -/
theorem serverMachine_invariant {I : ServerHeld → Prop} (h0 : I serverMachine.init.held)
    (hmove : ∀ clean h h', I h → ServerMove clean h h' → I h') (events : List ServerEvent) :
    I (serverMachine.state events).held := by
  refine serverMachine.invariant (I := fun s => I s.held) h0 (fun s e hs => ?_)
    (serverMachine.reachable_state events)
  have hmoves := serverStep_moves s e
  change I (serverStep s e).held
  generalize (serverStep s e).held = h' at hmoves ⊢
  induction hmoves with
  | refl => exact hs
  | tail _ hlast ih => exact hmove _ _ _ ih hlast

end SmartGateway
