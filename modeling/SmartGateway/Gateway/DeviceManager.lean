import SmartGateway.Common.Frame
import SmartGateway.Lib.FirstMatch
import SmartGateway.Lib.Machine
import SmartGateway.Lib.Ring

/-!
# The device manager

`gateway/device_manager.c`: the registered devices, each with the connection
that owns it and the ring of commands waiting for it. Every function runs whole
under the manager's mutex, so a call is one step. The pointers a caller may leave
NULL are options or flags, and the clock is an argument; the manager itself is
given. An entry past `count` is never read, so the array is the list of the
registered devices.
-/

namespace SmartGateway

/-- `DEVICE_MANAGER_MAX_DEVICES`. -/
abbrev deviceManagerMaxDevices : ℕ := 16

/-- `DEVICE_COMMAND_QUEUE_CAPACITY`. -/
abbrev deviceCommandQueueCapacity : ℕ := 8

/-- `device_transport_t`. -/
inductive DeviceTransport
  | bluetooth
  | wifi
deriving DecidableEq

/-- The return codes `DEVICE_MANAGER_*`. -/
inductive DeviceManagerCode
  | queueEmpty
  | ok
  | error
  | notFound
  | exists
  | full
  | conflict
  | offline
  | queueFull
  | bufferTooSmall
deriving DecidableEq

/-- A device's ring of commands. -/
abbrev CommandQueue := Ring FrameCommand deviceCommandQueueCapacity

/-- A zeroed ring. -/
def CommandQueue.zero : CommandQueue := Ring.replicate default (by decide)

/-- `device_t`. -/
structure Device where
  nodeId : CharBuf 32
  transport : DeviceTransport
  fd : ℤ
  online : Bool
  threadId : ℕ
  lastSeen : ℤ
  commandQueue : CommandQueue

/-- `device_manager_t`. -/
structure DeviceManager where
  devices : List Device
  count_le : devices.length ≤ deviceManagerMaxDevices

/-- `device_manager_init`. -/
def deviceManagerInit : DeviceManager := ⟨[], by decide⟩

/-- The test of `strcmp` in the look-up. -/
def Device.isNode (nodeId : CStr) (device : Device) : Bool := device.nodeId.toCStr == nodeId

/-- `device_manager_find_index_locked`. -/
def deviceManagerFindIndexLocked (manager : DeviceManager) (nodeId : CStr) :
    Option (Fin manager.devices.length) :=
  manager.devices.findFinIdx? (Device.isNode nodeId)

/-- Read through a device pointer. -/
abbrev DeviceManager.device (manager : DeviceManager) (i : Fin manager.devices.length) : Device :=
  manager.devices[i]

/-- Write through a device pointer. -/
def DeviceManager.setDevice (manager : DeviceManager) (i : Fin manager.devices.length)
    (device : Device) : DeviceManager where
  devices := manager.devices.set i device
  count_le := by rw [List.length_set]; exact manager.count_le

/-- Take the next free place of the array. -/
def DeviceManager.addDevice (manager : DeviceManager) (device : Device)
    (h : manager.devices.length < deviceManagerMaxDevices) : DeviceManager where
  devices := manager.devices ++ [device]
  count_le := by rw [List.length_append, List.length_singleton]; exact h

/-- What a call gives its caller: the code, the commands it hands out, the count
it writes to `out_count`, the device it copies out. -/
structure DeviceReturn where
  code : DeviceManagerCode
  commands : List FrameCommand
  outCount : Option ℕ
  device : Option Device

/-- A return of a code alone. -/
def DeviceReturn.ofCode (code : DeviceManagerCode) : DeviceReturn := ⟨code, [], none, none⟩

/-- A return of a collecting function that collects nothing. -/
def DeviceReturn.collectNothing (code : DeviceManagerCode) : DeviceReturn :=
  ⟨code, [], some 0, none⟩

/-- The check every function makes first: a `node_id` that is neither NULL nor empty. -/
def nodeIdGiven : Option CStr → Option CStr
  | none => none
  | some nodeId => if nodeId.bytes = [] then none else some nodeId

/-- `device_manager_find`. -/
def deviceManagerFind (manager : DeviceManager) (nodeId : Option CStr) (outDevice : Bool) :
    DeviceReturn :=
  match nodeIdGiven nodeId with
  | none => .ofCode .error
  | some nodeId =>
    if !outDevice then
      .ofCode .error
    else
      match deviceManagerFindIndexLocked manager nodeId with
      | none => .ofCode .notFound
      | some i => ⟨.ok, [], none, some (manager.device i)⟩

/-- `device_manager_register`. A descriptor of zero is stored but does not count as online. -/
def deviceManagerRegister (manager : DeviceManager) (nodeId : Option CStr)
    (transport : DeviceTransport) (fd : ℤ) (threadId : ℕ) (now : ℤ) :
    DeviceManager × DeviceReturn :=
  match nodeIdGiven nodeId with
  | none => (manager, .ofCode .error)
  | some nodeId =>
    match CharBuf.ofCStr? 32 nodeId with
    | none => (manager, .ofCode .error)
    | some nodeIdCopy =>
      if now = -1 then
        (manager, .ofCode .error)
      else
        match deviceManagerFindIndexLocked manager nodeId with
        | some _ => (manager, .ofCode .exists)
        | none =>
          if h : manager.devices.length < deviceManagerMaxDevices then
            let device : Device :=
              { nodeId := nodeIdCopy
                transport := transport
                fd := fd
                online := 0 < fd
                threadId := threadId
                lastSeen := now
                commandQueue := CommandQueue.zero }
            (manager.addDevice device h, .ofCode .ok)
          else
            (manager, .ofCode .full)

/-- `device_manager_unregister`: the later devices move up one place. -/
def deviceManagerUnregister (manager : DeviceManager) (nodeId : Option CStr) :
    DeviceManager × DeviceReturn :=
  match nodeIdGiven nodeId with
  | none => (manager, .ofCode .error)
  | some nodeId =>
    match deviceManagerFindIndexLocked manager nodeId with
    | none => (manager, .ofCode .notFound)
    | some i =>
      ({ devices := manager.devices.eraseIdx i
         count_le := Nat.le_trans (List.length_eraseIdx_le ..) manager.count_le }, .ofCode .ok)

/-- `device_manager_set_online`. -/
def deviceManagerSetOnline (manager : DeviceManager) (nodeId : Option CStr) (online fd : ℤ) :
    DeviceManager × DeviceReturn :=
  match nodeIdGiven nodeId with
  | none => (manager, .ofCode .error)
  | some nodeId =>
    if online ≠ 0 ∧ online ≠ 1 then
      (manager, .ofCode .error)
    else if online ≠ 0 ∧ fd < 0 then
      (manager, .ofCode .error)
    else
      match deviceManagerFindIndexLocked manager nodeId with
      | none => (manager, .ofCode .notFound)
      | some i =>
        let online := decide (online ≠ 0)
        (manager.setDevice i { manager.device i with
          online := online
          fd := if online then fd else -1 }, .ofCode .ok)

/-- `device_manager_update_last_seen`. -/
def deviceManagerUpdateLastSeen (manager : DeviceManager) (nodeId : Option CStr) (now : ℤ) :
    DeviceManager × DeviceReturn :=
  match nodeIdGiven nodeId with
  | none => (manager, .ofCode .error)
  | some nodeId =>
    if now = -1 then
      (manager, .ofCode .error)
    else
      match deviceManagerFindIndexLocked manager nodeId with
      | none => (manager, .ofCode .notFound)
      | some i =>
        (manager.setDevice i { manager.device i with lastSeen := now }, .ofCode .ok)

/-- The output arguments of the two collecting functions: whether `out_commands`
is given, `command_capacity`, and whether `out_count` is given. -/
structure CollectArgs where
  outCommands : Bool
  commandCapacity : ℕ
  outCount : Bool

/-- The parameter check the two collecting functions share, the `node_id` aside. -/
def CollectArgs.refused (args : CollectArgs) (fd : ℤ) : Bool :=
  fd < 0 || !args.outCount || (!args.outCommands && args.commandCapacity != 0)

/-- The array is given and too small for what is pending. -/
def CollectArgs.tooSmall (args : CollectArgs) (queue : CommandQueue) : Bool :=
  args.outCommands && args.commandCapacity < queue.count

/-- The pending commands, copied in FIFO order where an array is given, and their number. -/
def CollectArgs.collect (args : CollectArgs) (queue : CommandQueue) : DeviceReturn where
  code := .ok
  commands := if args.outCommands then queue.toList else []
  outCount := some queue.count
  device := none

/-- `device_manager_disconnect_collect_commands`. -/
def deviceManagerDisconnectCollectCommands (manager : DeviceManager) (nodeId : Option CStr)
    (fd : ℤ) (threadId : ℕ) (args : CollectArgs) : DeviceManager × DeviceReturn :=
  match nodeIdGiven nodeId with
  | none => (manager, .ofCode .error)
  | some nodeId =>
    if args.refused fd then
      (manager, .ofCode .error)
    else
      match deviceManagerFindIndexLocked manager nodeId with
      | none => (manager, .collectNothing .notFound)
      | some i =>
        let device := manager.device i
        if device.fd ≠ fd ∨ device.threadId ≠ threadId then
          (manager, .collectNothing .conflict)
        else if args.tooSmall device.commandQueue then
          (manager, .collectNothing .bufferTooSmall)
        else
          (manager.setDevice i { device with
            online := false
            fd := -1
            commandQueue := device.commandQueue.clear }, args.collect device.commandQueue)

/-- `device_manager_disconnect`: what is pending is dropped. -/
def deviceManagerDisconnect (manager : DeviceManager) (nodeId : Option CStr) (fd : ℤ)
    (threadId : ℕ) : DeviceManager × DeviceReturn :=
  let (manager, result) :=
    deviceManagerDisconnectCollectCommands manager nodeId fd threadId ⟨false, 0, true⟩
  (manager, .ofCode result.code)

/-- `device_manager_bind_connection_collect_commands`. -/
def deviceManagerBindConnectionCollectCommands (manager : DeviceManager) (nodeId : Option CStr)
    (transport : DeviceTransport) (fd : ℤ) (threadId : ℕ) (now : ℤ) (args : CollectArgs) :
    DeviceManager × DeviceReturn :=
  match nodeIdGiven nodeId with
  | none => (manager, .ofCode .error)
  | some nodeId =>
    match CharBuf.ofCStr? 32 nodeId with
    | none => (manager, .ofCode .error)
    | some nodeIdCopy =>
      if args.refused fd then
        (manager, .ofCode .error)
      else
        match deviceManagerFindIndexLocked manager nodeId with
        | none =>
          if h : manager.devices.length < deviceManagerMaxDevices then
            let device : Device :=
              { nodeId := nodeIdCopy
                transport := transport
                fd := fd
                online := true
                threadId := threadId
                lastSeen := now
                commandQueue := CommandQueue.zero }
            (manager.addDevice device h, .collectNothing .ok)
          else
            (manager, .collectNothing .full)
        | some i =>
          let device := manager.device i
          if device.transport ≠ transport then
            (manager, .collectNothing .conflict)
          else if device.online ∧ device.fd = fd ∧ device.threadId = threadId then
            -- the connection that owns the device already: its queue stays
            (manager.setDevice i { device with lastSeen := now }, .collectNothing .ok)
          else if args.tooSmall device.commandQueue then
            (manager, .collectNothing .bufferTooSmall)
          else
            (manager.setDevice i { device with
              fd := fd
              online := true
              threadId := threadId
              lastSeen := now
              commandQueue := device.commandQueue.clear }, args.collect device.commandQueue)

/-- `device_manager_bind_connection`: what is pending is dropped. -/
def deviceManagerBindConnection (manager : DeviceManager) (nodeId : Option CStr)
    (transport : DeviceTransport) (fd : ℤ) (threadId : ℕ) (now : ℤ) :
    DeviceManager × DeviceReturn :=
  let (manager, result) := deviceManagerBindConnectionCollectCommands manager nodeId transport fd
    threadId now ⟨false, 0, true⟩
  (manager, .ofCode result.code)

/-- `device_manager_enqueue_command`. -/
def deviceManagerEnqueueCommand (manager : DeviceManager) (nodeId : Option CStr)
    (command : Option FrameCommand) : DeviceManager × DeviceReturn :=
  match nodeIdGiven nodeId, command with
  | some nodeId, some command =>
    if command.targetNode.bytes = [] ∨ command.targetNode.toCStr ≠ nodeId then
      (manager, .ofCode .error)
    else
      match deviceManagerFindIndexLocked manager nodeId with
      | none => (manager, .ofCode .notFound)
      | some i =>
        let device := manager.device i
        if !device.online ∨ device.fd < 0 then
          (manager, .ofCode .offline)
        else if h : device.commandQueue.count < deviceCommandQueueCapacity then
          (manager.setDevice i { device with commandQueue := device.commandQueue.push command h },
            .ofCode .ok)
        else
          (manager, .ofCode .queueFull)
  | _, _ => (manager, .ofCode .error)

/-- `device_manager_try_dequeue_command`. Of the caller's descriptor only the
sign is looked at. -/
def deviceManagerTryDequeueCommand (manager : DeviceManager) (nodeId : Option CStr) (fd : ℤ)
    (threadId : ℕ) (outCommand : Bool) : DeviceManager × DeviceReturn :=
  match nodeIdGiven nodeId with
  | none => (manager, .ofCode .error)
  | some nodeId =>
    if fd < 0 ∨ !outCommand then
      (manager, .ofCode .error)
    else
      match deviceManagerFindIndexLocked manager nodeId with
      | none => (manager, .ofCode .notFound)
      | some i =>
        let device := manager.device i
        if !device.online ∨ device.fd < 0 ∨ device.threadId ≠ threadId then
          (manager, .ofCode .conflict)
        else if h : 0 < device.commandQueue.count then
          (manager.setDevice i { device with commandQueue := device.commandQueue.pop h },
            ⟨.ok, [device.commandQueue.front], none, none⟩)
        else
          (manager, .ofCode .queueEmpty)

/-! ## Calls and runs -/

/-- A call of the interface, with its arguments and the clock reading it takes. -/
inductive DeviceCall
  | register (nodeId : Option CStr) (transport : DeviceTransport) (fd : ℤ) (threadId : ℕ) (now : ℤ)
  | unregister (nodeId : Option CStr)
  | setOnline (nodeId : Option CStr) (online fd : ℤ)
  | updateLastSeen (nodeId : Option CStr) (now : ℤ)
  | bindConnection (nodeId : Option CStr) (transport : DeviceTransport) (fd : ℤ) (threadId : ℕ)
      (now : ℤ)
  | bindConnectionCollectCommands (nodeId : Option CStr) (transport : DeviceTransport) (fd : ℤ)
      (threadId : ℕ) (now : ℤ) (args : CollectArgs)
  | disconnect (nodeId : Option CStr) (fd : ℤ) (threadId : ℕ)
  | disconnectCollectCommands (nodeId : Option CStr) (fd : ℤ) (threadId : ℕ) (args : CollectArgs)
  | enqueueCommand (nodeId : Option CStr) (command : Option FrameCommand)
  | tryDequeueCommand (nodeId : Option CStr) (fd : ℤ) (threadId : ℕ) (outCommand : Bool)
  | find (nodeId : Option CStr) (outDevice : Bool)

/-- One call. -/
def deviceStep (manager : DeviceManager) : DeviceCall → DeviceManager × DeviceReturn
  | .register nodeId transport fd threadId now =>
    deviceManagerRegister manager nodeId transport fd threadId now
  | .unregister nodeId => deviceManagerUnregister manager nodeId
  | .setOnline nodeId online fd => deviceManagerSetOnline manager nodeId online fd
  | .updateLastSeen nodeId now => deviceManagerUpdateLastSeen manager nodeId now
  | .bindConnection nodeId transport fd threadId now =>
    deviceManagerBindConnection manager nodeId transport fd threadId now
  | .bindConnectionCollectCommands nodeId transport fd threadId now args =>
    deviceManagerBindConnectionCollectCommands manager nodeId transport fd threadId now args
  | .disconnect nodeId fd threadId => deviceManagerDisconnect manager nodeId fd threadId
  | .disconnectCollectCommands nodeId fd threadId args =>
    deviceManagerDisconnectCollectCommands manager nodeId fd threadId args
  | .enqueueCommand nodeId command => deviceManagerEnqueueCommand manager nodeId command
  | .tryDequeueCommand nodeId fd threadId outCommand =>
    deviceManagerTryDequeueCommand manager nodeId fd threadId outCommand
  | .find nodeId outDevice => (manager, deviceManagerFind manager nodeId outDevice)

/-- The manager as a machine over its calls. -/
def deviceMachine : Machine DeviceManager DeviceCall DeviceReturn where
  init := deviceManagerInit
  step := deviceStep

end SmartGateway
