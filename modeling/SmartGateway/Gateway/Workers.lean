import SmartGateway.Common.Frame
import SmartGateway.Gateway.RecordEffects
import SmartGateway.Gateway.ServerLink
import SmartGateway.Gateway.Upstream

/-!
# The workers of the connections

`wifi_client_worker` and `bluetooth_worker` between two calls of the device manager:
the callback that makes a connection a node's, `wifi_client_try_send_command` and
`bluetooth_worker_try_send_command` up to the write of the command, the write itself,
and the way out of the loop. A Bluetooth worker takes its next connection with the
thread it has, and clears `bound_node_id` between the two, so that what is modelled here
as one worker is one connection. For the record a worker keeps the commands it has
taken, and of each command it has begun to write, how much of it went out.
-/

namespace SmartGateway

open WriteLog

/-- Where a worker is. -/
inductive WorkerControl
  /-- In the loop of its connection. -/
  | loop
  /-- In `wifi_client_send_all` or `serial_port_write_all`, with a command. -/
  | sending (command : FrameCommand) (w : Write Byte)
  /-- Out of the loop, before it tells the device manager. -/
  | leaving
  | stopped

/-- A connection and its worker. -/
structure Worker where
  context : UpstreamContext
  threadId : ℕ
  control : WorkerControl
  taken : List FrameCommand
  writes : List (FrameCommand × Write Byte)

/-- A connection just made. -/
def Worker.connected (transport : DeviceTransport) (deviceFd : ℤ) (threadId : ℕ) : Worker :=
  ⟨⟨transport, deviceFd, default⟩, threadId, .loop, [], []⟩

/-- What a step of a worker leaves, and what it put into the upstream queue. -/
structure WorkerResult where
  devices : DeviceManager
  worker : Worker
  effects : List UpstreamEffect

namespace Worker

/-- The head of the loop of a write: it is over when all is out. -/
def send (worker : Worker) (command : FrameCommand) (w : Write Byte) : Worker :=
  if w.written = w.text.length then
    { worker with control := .loop, writes := worker.writes ++ [(command, w)] }
  else
    { worker with control := .sending command w }

end Worker

/-- What the two `try_send_command` functions do, up to the write; `build` makes the text
of a command, or fails. -/
def trySendCommand (build : FrameCommand → Option Bytes) (devices : DeviceManager)
    (worker : Worker) : WorkerResult :=
  let context := worker.context
  if context.deviceFd < 0 then
    ⟨devices, { worker with control := .leaving }, []⟩
  else if context.boundNodeId.bytes = [] then
    ⟨devices, worker, []⟩
  else
    let (devices, result) := deviceManagerTryDequeueCommand devices
      (some context.boundNodeId.toCStr) context.deviceFd worker.threadId true
    match result.code, result.commands with
    | .ok, command :: _ =>
      let worker := { worker with taken := worker.taken ++ [command] }
      match build command with
      | none => ⟨devices, worker, gatewayAppEnqueueNack context.boundNodeId.toCStr
          command.sequence (cstr (ascii "cmd_encode_failed"))⟩
      | some text => ⟨devices, worker.send command (Write.start text), []⟩
    | .conflict, _ => ⟨devices, { worker with control := .leaving }, []⟩
    | _, _ => ⟨devices, worker, []⟩

/-- The line `wifi_client_try_send_command` sends. -/
def wifiCommandText (command : FrameCommand) : Option Bytes := messageJsonBuildCommand 256 command

/-- The frame `bluetooth_worker_try_send_command` writes. -/
def bluetoothCommandText (command : FrameCommand) : Option Bytes :=
  (frameBuildCommandKv frameMaxLen command.sender.toCStr command.sequence
    command.fields.1).toOption

/-- `wifi_client_try_send_command`. -/
def wifiClientTrySendCommand : DeviceManager → Worker → WorkerResult :=
  trySendCommand wifiCommandText

/-- `bluetooth_worker_try_send_command`. -/
def bluetoothWorkerTrySendCommand : DeviceManager → Worker → WorkerResult :=
  trySendCommand bluetoothCommandText

/-- The text of a command on a transport. -/
def commandText : DeviceTransport → FrameCommand → Option Bytes
  | .wifi => wifiCommandText
  | .bluetooth => bluetoothCommandText

/-- One turn of the loop of the write. The loops of `wifi_client_send_all` and
`serial_port_write_all` are that of `tcp_client_send_all`. -/
def sendCommandTurn (devices : DeviceManager) (worker : Worker) (command : FrameCommand)
    (w : Write Byte) (turn : SendTurn) : WorkerResult :=
  match sendAllTurn w turn with
  | some w => ⟨devices, worker.send command w, []⟩
  | none =>
    ⟨devices, { worker with control := .leaving, writes := worker.writes ++ [(command, w)] },
      gatewayAppEnqueueNack worker.context.boundNodeId.toCStr command.sequence
        (cstr (ascii "transport_send_failed"))⟩

/-- The way out, behind the loop: the commands that are still queued are refused, if the
connection is the node's still. -/
def leaveConnection (devices : DeviceManager) (worker : Worker) : WorkerResult :=
  let context := worker.context
  if context.boundNodeId.bytes = [] then
    ⟨devices, { worker with control := .stopped }, []⟩
  else
    let (devices, result) := deviceManagerDisconnectCollectCommands devices
      (some context.boundNodeId.toCStr) context.deviceFd worker.threadId gatewayCollectArgs
    ⟨devices, { worker with control := .stopped },
      if result.code = .ok then
        result.commands.flatMap fun command => gatewayAppEnqueueNack command.targetNode.toCStr
          command.sequence (cstr (ascii "transport_disconnected"))
      else
        []⟩

/-- What a worker comes to. -/
inductive WorkerInput
  /-- Its callback has decoded a message of a node. -/
  | message (nodeId : CStr) (now : ℤ)
  /-- The head of its loop. -/
  | trySend
  | send (turn : SendTurn)
  /-- The end of the connection, or of the program. -/
  | exit

/-- One step of a worker. What it does not wait for leaves everything as it is. -/
def workerStep (devices : DeviceManager) (worker : Worker) (input : WorkerInput) : WorkerResult :=
  match worker.control, input with
  | .loop, .message nodeId now =>
    let result :=
      (gatewayAppTouchDevice devices worker.context worker.threadId now nodeId).2
    ⟨result.devices, { worker with context := result.context }, result.effects⟩
  | .loop, .trySend =>
    match worker.context.transport with
    | .wifi => wifiClientTrySendCommand devices worker
    | .bluetooth => bluetoothWorkerTrySendCommand devices worker
  | .sending command w, .send turn => sendCommandTurn devices worker command w turn
  | .loop, .exit | .leaving, .exit => leaveConnection devices worker
  | _, _ => ⟨devices, worker, []⟩

end SmartGateway
