import SmartGateway.Gateway.CommandFate
import SmartGateway.Gateway.Receiving

/-!
# The loops of the connections

`bluetooth_worker` of `gateway/bluetooth_worker.c` and `wifi_client_worker` of
`gateway/wifi_client.c`, call by call: the head of the loop with the attempt at a command,
the `poll`, the `read`, what `frame_parser_feed` or `line_parser_feed` makes of the bytes,
one call of the callback after the other, and the way out. The two loops are one, over what
is gathered of a stream; where they differ it is said. Around it the Bluetooth worker opens
its device again, with the parser it has.
-/

namespace SmartGateway

open WriteLog

/-! ## What has come over a connection -/

/-- `BLUETOOTH_READ_BUFFER_SIZE`. -/
abbrev bluetoothReadBufferSize : ℕ := 256

/-- The size of the buffer a worker reads into. -/
def readBufferSize : DeviceTransport → ℕ
  | .bluetooth => bluetoothReadBufferSize
  | .wifi => wifiClientReadBufferSize

/-- What has come and is not handed on: the frame that is being gathered with the bytes not
yet fed, or the buffer of lines. -/
inductive Intake
  | frames (parser : FrameParser) (rest : Bytes)
  | lines (buffer : Bytes)

/-- `frame_parser_feed`, up to the next frame. -/
def nextFrame (parser : FrameParser) : Bytes → FrameParser × Option (ParsedFrame × Bytes)
  | [] => (parser, none)
  | ch :: rest =>
    let (parser, frame) := frameParserByte parser ch
    match frame with
    | none => nextFrame parser rest
    | some frame => (parser, some (frame, rest))

namespace Intake

/-- Bytes that were read. Lines that do not fit are thrown away with all there is. -/
def receive : Intake → Bytes → Intake
  | frames parser rest, bytes => frames parser (rest ++ bytes)
  | lines buffer, bytes =>
    if wifiClientBufferSize < buffer.length + bytes.length then lines []
    else lines (buffer ++ bytes)

/-- What the callback is called with next. -/
def next : Intake → Intake × Option UplinkInput
  | frames parser rest =>
    match nextFrame parser rest with
    | (parser, none) => (frames parser [], none)
    | (parser, some (frame, rest)) => (frames parser rest, some (.frame frame))
  | lines buffer =>
    match lineParserTurn buffer with
    | none => (lines buffer, none)
    | some (line, rest) => (lines rest, some (.line line.text))

end Intake

/-! ## The loop -/

/-- Where in its loop a worker is, when it is there. -/
inductive LoopStage
  | head
  | polling
  | reading (hungUp : Bool)
  /-- In the callback. -/
  | calling (input : UplinkInput) (hungUp : Bool)
  /-- Out of the loop. -/
  | leaving

/-- A connection and its loop; for the record what came over it and what the callback was
called with. -/
structure ConnectionLoop where
  worker : Worker
  stage : LoopStage
  intake : Intake
  received : Bytes
  handed : List UplinkInput

/-- What the call a worker is at comes back with. -/
inductive LoopEvent
  /-- The head of the loop: the running flag, and the call of the device manager. -/
  | turn (running : Bool)
  | send (turn : SendTurn)
  | poll (result : PollResult)
  | read (result : RecvResult)
  /-- The callback, at some time. -/
  | called (now : ℤ)
  /-- Out of the loop, `device_manager_disconnect_collect_commands`. -/
  | leave

/-- What a step of a loop leaves, and what it put into the upstream queue. -/
structure LoopResult where
  devices : DeviceManager
  loop : ConnectionLoop
  effects : List UpstreamEffect

namespace ConnectionLoop

/-- The connection's loop at its start. -/
def start (transport : DeviceTransport) (deviceFd : ℤ) (threadId : ℕ) (intake : Intake) :
    ConnectionLoop :=
  ⟨.connected transport deviceFd threadId, .head, intake, [], []⟩

/-- At another place of the loop. -/
def goTo (c : ConnectionLoop) (stage : LoopStage) : ConnectionLoop := { c with stage := stage }

/-- The look at the flags of `poll`. -/
def checkHangup (c : ConnectionLoop) (hungUp : Bool) : ConnectionLoop :=
  if hungUp then c.goTo .leaving else c.goTo .head

/-- Behind the feeding: a WiFi worker does not look at the flags any more. -/
def fed (c : ConnectionLoop) (hungUp : Bool) : ConnectionLoop :=
  match c.worker.context.transport with
  | .bluetooth => c.checkHangup hungUp
  | .wifi => c.goTo .head

/-- The feeding, from one call of the callback to the next. -/
def feed (c : ConnectionLoop) (hungUp : Bool) : ConnectionLoop :=
  match c.intake.next with
  | (intake, none) => { c with intake := intake }.fed hungUp
  | (intake, some input) =>
    { c with
      stage := .calling input hungUp
      intake := intake
      handed := c.handed ++ [input] }

/-- The loop after its `poll`. -/
def polled (c : ConnectionLoop) : PollResult → ConnectionLoop
  | .interrupted | .timedOut => c.goTo .head
  | .failed => c.goTo .leaving
  | .ready readable hungUp =>
    if readable then c.goTo (.reading hungUp) else c.checkHangup hungUp

/-- The loop after its `read`. `serial_port_read` begins again where a signal interrupts
it. -/
def read (c : ConnectionLoop) (hungUp : Bool) : RecvResult → ConnectionLoop
  | .data b bs =>
    let bytes := (b :: bs).take (readBufferSize c.worker.context.transport)
    { c with
      intake := c.intake.receive bytes
      received := c.received ++ bytes }.feed hungUp
  | .closed | .failed => c.goTo .leaving
  | .wouldBlock => c.goTo .head
  | .interrupted =>
    match c.worker.context.transport with
    | .bluetooth => c
    | .wifi => c.checkHangup hungUp

/-- The worker as a step of the command path leaves it. -/
def did (c : ConnectionLoop) (stage : LoopStage) (result : WorkerResult) : LoopResult :=
  ⟨result.devices, { c with worker := result.worker, stage := stage }, result.effects⟩

end ConnectionLoop

/-- One call, come back. What the loop is not waiting for leaves it as it is. -/
def loopStep (devices : DeviceManager) (c : ConnectionLoop) (e : LoopEvent) : LoopResult :=
  match c.worker.control, c.stage, e with
  | .loop, .head, .turn running =>
    if !running then
      ⟨devices, c.goTo .leaving, []⟩
    else
      match c.worker.context.transport with
      | .wifi => c.did .polling (wifiClientTrySendCommand devices c.worker)
      | .bluetooth => c.did .polling (bluetoothWorkerTrySendCommand devices c.worker)
  | .sending command w, _, .send turn =>
    c.did c.stage (sendCommandTurn devices c.worker command w turn)
  | .loop, .polling, .poll result => ⟨devices, c.polled result, []⟩
  | .loop, .reading hungUp, .read result => ⟨devices, c.read hungUp result, []⟩
  | .loop, .calling input hungUp, .called now =>
    let result := gatewayAppOnUplink devices c.worker.context c.worker.threadId now input
    let c := { c with worker := { c.worker with context := result.context } }
    ⟨result.devices, c.feed hungUp, result.effects⟩
  | .loop, .leaving, .leave | .leaving, _, .leave =>
    c.did c.stage (leaveConnection devices c.worker)
  | _, _, _ => ⟨devices, c, []⟩

/-! ## The threads -/

/-- Where the Bluetooth worker is: at `serial_port_open`, or in the loop of a connection. -/
inductive BluetoothControl
  | opening
  | connected (c : ConnectionLoop)
  | stopped

/-- The Bluetooth worker, with its thread and its parser; for the record the connections it
has had. -/
structure BluetoothWorker where
  control : BluetoothControl
  threadId : ℕ
  parser : FrameParser
  closed : List ConnectionLoop

/-- The connection it has. -/
def BluetoothWorker.current (b : BluetoothWorker) : List ConnectionLoop :=
  match b.control with
  | .connected c => [c]
  | .opening | .stopped => []

/-- `serial_port_open`, for a new connection: what the parser has gathered is dropped. -/
def BluetoothWorker.opened (b : BluetoothWorker) (fd : ℕ) : BluetoothWorker :=
  { b with
    control := .connected
      (.start .bluetooth fd b.threadId (.frames (frameParserReset b.parser) [])) }

/-- A step of the connection: behind its end the device is opened again, with the parser as
it is. -/
def BluetoothWorker.went (b : BluetoothWorker) (c : ConnectionLoop) : BluetoothWorker :=
  match c.worker.control, c.intake with
  | .stopped, .frames parser _ =>
    { b with control := .opening, parser := parser, closed := b.closed ++ [c] }
  | _, _ => { b with control := .connected c }

/-- The threads of the gateway that have to do with devices, and the devices they share. -/
structure GatewayThreads where
  devices : DeviceManager
  bluetooth : BluetoothWorker
  wifi : List ConnectionLoop

/-- What happens: a call of one of the threads comes back. -/
inductive ThreadEvent
  /-- The server link hands its callback a line. -/
  | line (line : Bytes)
  /-- The head of the outer loop of the Bluetooth worker: whether it runs on, and the
  descriptor, if the device can be opened. -/
  | opening (running : Bool) (fd : Option ℕ)
  | bluetooth (e : LoopEvent)
  /-- A WiFi client is accepted, and a thread made for it. -/
  | accepted (fd threadId : ℕ)
  | wifi (i : ℕ) (e : LoopEvent)

/-- What a step put into the upstream queue, and the route NACK it sent. -/
structure ThreadOutput where
  effects : List UpstreamEffect
  route : Option Bytes

/-- One step. -/
def threadStep (s : GatewayThreads) : ThreadEvent → GatewayThreads × ThreadOutput
  | .line line =>
    let (devices, nack) := gatewayAppOnTcpLine s.devices line
    ({ s with devices := devices }, ⟨[], nack⟩)
  | .opening running fd =>
    match s.bluetooth.control, running, fd with
    | .opening, false, _ =>
      ({ s with bluetooth := { s.bluetooth with control := .stopped } }, ⟨[], none⟩)
    | .opening, true, some fd => ({ s with bluetooth := s.bluetooth.opened fd }, ⟨[], none⟩)
    | _, _, _ => (s, ⟨[], none⟩)
  | .bluetooth e =>
    match s.bluetooth.control with
    | .connected c =>
      let result := loopStep s.devices c e
      ({ s with devices := result.devices, bluetooth := s.bluetooth.went result.loop },
        ⟨result.effects, none⟩)
    | .opening | .stopped => (s, ⟨[], none⟩)
  | .accepted fd threadId =>
    ({ s with wifi := s.wifi ++ [.start .wifi fd threadId (.lines [])] }, ⟨[], none⟩)
  | .wifi i e =>
    match s.wifi[i]? with
    | none => (s, ⟨[], none⟩)
    | some c =>
      let result := loopStep s.devices c e
      ({ s with devices := result.devices, wifi := s.wifi.set i result.loop },
        ⟨result.effects, none⟩)

/-- The threads from their start, with the thread of the Bluetooth worker. -/
def gatewayThreads (threadId : ℕ) : Machine GatewayThreads ThreadEvent ThreadOutput where
  init := ⟨deviceManagerInit, ⟨.opening, threadId, frameParserInit, []⟩, []⟩
  step := threadStep

/-- All connections there have been. -/
def GatewayThreads.connections (s : GatewayThreads) : List ConnectionLoop :=
  s.bluetooth.closed ++ s.bluetooth.current ++ s.wifi

/-! ## What holds of every connection -/

@[simp] theorem ConnectionLoop.goTo_worker (c : ConnectionLoop) (stage : LoopStage) :
    (c.goTo stage).worker = c.worker := rfl

@[simp] theorem ConnectionLoop.checkHangup_worker (c : ConnectionLoop) (hungUp : Bool) :
    (c.checkHangup hungUp).worker = c.worker := by
  rw [checkHangup]
  split <;> rfl

@[simp] theorem ConnectionLoop.fed_worker (c : ConnectionLoop) (hungUp : Bool) :
    (c.fed hungUp).worker = c.worker := by
  rw [fed]
  split
  · exact checkHangup_worker c hungUp
  · rfl

@[simp] theorem ConnectionLoop.feed_worker (c : ConnectionLoop) (hungUp : Bool) :
    (c.feed hungUp).worker = c.worker := by
  rw [feed]
  split
  · exact fed_worker _ hungUp
  · rfl

@[simp] theorem ConnectionLoop.polled_worker (c : ConnectionLoop) (result : PollResult) :
    (c.polled result).worker = c.worker := by
  cases result with
  | interrupted | timedOut | failed => rfl
  | ready readable hungUp =>
    rw [polled]
    split
    · rfl
    · exact checkHangup_worker c hungUp

@[simp] theorem ConnectionLoop.read_worker (c : ConnectionLoop) (hungUp : Bool)
    (result : RecvResult) : (c.read hungUp result).worker = c.worker := by
  cases result with
  | data b bs => exact feed_worker _ hungUp
  | closed | failed | wouldBlock => rfl
  | interrupted =>
    rw [read]
    split
    · rfl
    · exact checkHangup_worker c hungUp

/-- The connections of the Bluetooth worker, behind a step of the one it has. -/
theorem BluetoothWorker.connections_went (b : BluetoothWorker) (c : ConnectionLoop) :
    (b.went c).closed ++ (b.went c).current = b.closed ++ [c] := by
  rw [went]
  split
  · exact List.append_nil _
  · rfl

/-- All connections of the Bluetooth worker. -/
def BluetoothWorker.connections (b : BluetoothWorker) : List ConnectionLoop := b.closed ++ b.current

/-- **The rule of the connections.** What holds of a loop at its start, and is kept by every
call of it, holds of all connections in any run of the threads; for those of the Bluetooth
worker and those of the WiFi workers it may be different things. -/
theorem gatewayThreads_connections {P Q : ConnectionLoop → Prop}
    (hbluetooth : ∀ (fd : ℤ) (threadId : ℕ) (parser : FrameParser),
      P (.start .bluetooth fd threadId (.frames (frameParserReset parser) [])))
    (hwifi : ∀ (fd : ℤ) (threadId : ℕ), Q (.start .wifi fd threadId (.lines [])))
    (hstep : ∀ devices c e, P c → P (loopStep devices c e).loop)
    (hstep' : ∀ devices c e, Q c → Q (loopStep devices c e).loop) (threadId : ℕ)
    (events : List ThreadEvent) :
    (∀ c ∈ ((gatewayThreads threadId).state events).bluetooth.connections, P c) ∧
      ∀ c ∈ ((gatewayThreads threadId).state events).wifi, Q c := by
  refine (gatewayThreads threadId).run_induction
    (P := fun _ s => (∀ c ∈ s.bluetooth.connections, P c) ∧ ∀ c ∈ s.wifi, Q c)
    ⟨fun c hc => absurd hc List.not_mem_nil, fun c hc => absurd hc List.not_mem_nil⟩
    (fun _ s e h => ?_) events
  obtain ⟨hserial, hlines⟩ := h
  change (∀ c ∈ (threadStep s e).1.bluetooth.connections, P c) ∧
    ∀ c ∈ (threadStep s e).1.wifi, Q c
  have hclosed : ∀ c ∈ s.bluetooth.closed, P c :=
    fun c hc => hserial c (List.mem_append_left _ hc)
  cases e with
  | line line => exact ⟨hserial, hlines⟩
  | opening running fd =>
    unfold threadStep
    dsimp only
    split
    · refine ⟨List.forall_mem_append.mpr ⟨hclosed, ?_⟩, hlines⟩
      exact fun c hc => absurd hc List.not_mem_nil
    · refine ⟨List.forall_mem_append.mpr ⟨hclosed, ?_⟩, hlines⟩
      exact List.forall_mem_singleton.mpr (hbluetooth _ _ _)
    · exact ⟨hserial, hlines⟩
  | bluetooth e =>
    unfold threadStep
    dsimp only
    split
    · rename_i c hcontrol
      have hcurrent : P c := by
        refine hserial c (List.mem_append_right _ ?_)
        rw [BluetoothWorker.current, hcontrol]
        exact List.mem_singleton_self _
      refine ⟨?_, hlines⟩
      rw [BluetoothWorker.connections, BluetoothWorker.connections_went]
      exact List.forall_mem_append.mpr
        ⟨hclosed, List.forall_mem_singleton.mpr (hstep _ _ _ hcurrent)⟩
    · exact ⟨hserial, hlines⟩
    · exact ⟨hserial, hlines⟩
  | accepted fd threadId =>
    refine ⟨hserial, List.forall_mem_append.mpr ⟨hlines, ?_⟩⟩
    exact List.forall_mem_singleton.mpr (hwifi _ _)
  | wifi i e =>
    unfold threadStep
    dsimp only
    split
    · exact ⟨hserial, hlines⟩
    · rename_i c hc
      refine ⟨hserial, fun c' hc' => ?_⟩
      rcases List.mem_or_eq_of_mem_set hc' with hc' | rfl
      · exact hlines c' hc'
      · exact hstep' _ _ _ (hlines c (List.mem_of_getElem? hc))

end SmartGateway
