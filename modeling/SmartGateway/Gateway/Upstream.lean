import SmartGateway.Common.UplinkMessage
import SmartGateway.Gateway.DeviceRuns
import SmartGateway.Gateway.MessageQueue

/-!
# On the way up

The callbacks of `gateway/gateway_app.c` for what a node sends: `gateway_app_on_frame`
for the frames of the serial link and `gateway_app_on_wifi_line` for the lines of a WiFi
connection, with `gateway_app_touch_device`, which makes the connection a node's, and
the two functions that put a JSON text into the upstream queue. A callback gives the
devices and the context as it leaves them, and in order what else it does. The pointers
it is handed are there, and printing is left out.
-/

namespace SmartGateway

/-- `gateway_app_upstream_context_t`: whose connection it is. -/
structure UpstreamContext where
  transport : DeviceTransport
  deviceFd : ℤ
  boundNodeId : CharBuf 32

/-- What a callback does beside its calls of the device manager. -/
inductive UpstreamEffect
  /-- `decode_errors` is counted up. -/
  | decodeError
  /-- `message_queue_push` is called. -/
  | push (message : GatewayMessage)
  /-- `bound_node_id` is written. -/
  | bind (nodeId : CharBuf 32)
deriving DecidableEq

/-- What a callback leaves and what it did. -/
structure UpstreamResult where
  devices : DeviceManager
  context : UpstreamContext
  effects : List UpstreamEffect

/-- `gateway_app_enqueue_json`. -/
def gatewayAppEnqueueJson (json : Bytes) : List UpstreamEffect :=
  if h : json.length > gatewayMessageMaxSize then [] else [.push ⟨json, Nat.le_of_not_lt h⟩]

/-- `gateway_app_enqueue_nack`. -/
def gatewayAppEnqueueNack (nodeId : CStr) (sequence : UInt32) (error : CStr) :
    List UpstreamEffect :=
  if nodeId.bytes = [] ∨ error.bytes = [] then
    []
  else
    match CharBuf.ofCStr? 32 nodeId, CharBuf.ofCStr? 32 error with
    | some nodeId, some error =>
      match messageJsonBuildNack 256 ⟨nodeId, sequence, error⟩ with
      | none => []
      | some json => gatewayAppEnqueueJson json
    | _, _ => []

/-- `gateway_app_touch_device`: whether the message may go on. `threadId` is
`pthread_self()`. -/
def gatewayAppTouchDevice (devices : DeviceManager) (context : UpstreamContext) (threadId : ℕ)
    (now : ℤ) (nodeId : CStr) : Bool × UpstreamResult :=
  if nodeId.bytes = [] then
    (false, ⟨devices, context, []⟩)
  else if context.boundNodeId.bytes = [] then
    match CharBuf.ofCStr? 32 nodeId with
    | none => (false, ⟨devices, context, []⟩)
    | some nodeIdCopy =>
      let (devices, result) := deviceManagerBindConnectionCollectCommands devices (some nodeId)
        context.transport context.deviceFd threadId now gatewayCollectArgs
      if result.code ≠ .ok then
        (false, ⟨devices, context, []⟩)
      else
        -- the commands taken from the connection before are refused, then the name is noted
        let nacks := result.commands.flatMap fun command => gatewayAppEnqueueNack
          command.targetNode.toCStr command.sequence (cstr (ascii "transport_replaced"))
        (true, ⟨devices, { context with boundNodeId := nodeIdCopy }, nacks ++ [.bind nodeIdCopy]⟩)
  else if context.boundNodeId.toCStr ≠ nodeId then
    (false, ⟨devices, context, []⟩)
  else
    let (devices, result) := deviceManagerUpdateLastSeen devices (some nodeId) now
    (result.code = .ok, ⟨devices, context, []⟩)

/-- What every branch of the two callbacks does with the message it has decoded. -/
def gatewayAppForward (devices : DeviceManager) (context : UpstreamContext) (threadId : ℕ)
    (now : ℤ) (message : UplinkMessage) : UpstreamResult :=
  let (passed, touched) :=
    gatewayAppTouchDevice devices context threadId now message.nodeId.toCStr
  if !passed then
    touched
  else
    match message.buildJson 256 with
    | none => touched
    | some json => { touched with effects := touched.effects ++ gatewayAppEnqueueJson json }

/-- The message `gateway_app_on_frame` decodes a frame to. -/
def decodeFrame (frame : ParsedFrame) : Option UplinkMessage :=
  match frameGetMessageType frame with
  | .data => (frameDecodeData frame).map .data
  | .ack => (frameDecodeAck frame).map .ack
  | .nack => (frameDecodeNack frame).map .nack
  | .cmd | .unknown => none

/-- The message `gateway_app_on_wifi_line` decodes a line to. A line of another type is
left to the DATA decoder. -/
def decodeWifiLine (line : Bytes) : Option UplinkMessage :=
  match messageJsonPeekType line 8 with
  | none => none
  | some typeName =>
    if typeName.bytes = ascii "ACK" then
      match messageJsonDecodeAck line with
      | (none, _) => none
      | (some _, ack) => some (.ack ack)
    else if typeName.bytes = ascii "NACK" then
      match messageJsonDecodeNack line with
      | (none, _) => none
      | (some _, nack) => some (.nack nack)
    else
      match messageJsonDecodeData line default with
      | (none, _) => none
      | (some _, data) => some (.data data)

/-- `gateway_app_on_frame`. -/
def gatewayAppOnFrame (devices : DeviceManager) (context : UpstreamContext) (threadId : ℕ)
    (now : ℤ) (frame : ParsedFrame) : UpstreamResult :=
  match decodeFrame frame with
  | none => ⟨devices, context, [.decodeError]⟩
  | some message => gatewayAppForward devices context threadId now message

/-- `gateway_app_on_wifi_line`. -/
def gatewayAppOnWifiLine (devices : DeviceManager) (context : UpstreamContext) (threadId : ℕ)
    (now : ℤ) (line : Bytes) : UpstreamResult :=
  match decodeWifiLine line with
  | none => ⟨devices, context, [.decodeError]⟩
  | some message => gatewayAppForward devices context threadId now message

/-- What a connection delivers to its callback. -/
inductive UplinkInput
  | frame (frame : ParsedFrame)
  | line (line : Bytes)

/-- The message in it, if its decoder accepts it. -/
def UplinkInput.message? (input : UplinkInput) : Option UplinkMessage :=
  match input with
  | .frame f => decodeFrame f
  | .line l => decodeWifiLine l

/-- The callback of the connection. -/
def gatewayAppOnUplink (devices : DeviceManager) (context : UpstreamContext) (threadId : ℕ)
    (now : ℤ) (input : UplinkInput) : UpstreamResult :=
  match input with
  | .frame f => gatewayAppOnFrame devices context threadId now f
  | .line l => gatewayAppOnWifiLine devices context threadId now l

/-- Both callbacks do the same with what they have decoded. -/
theorem gatewayAppOnUplink_eq (devices : DeviceManager) (context : UpstreamContext)
    (threadId : ℕ) (now : ℤ) (input : UplinkInput) :
    gatewayAppOnUplink devices context threadId now input =
      match input.message? with
      | none => ⟨devices, context, [.decodeError]⟩
      | some message => gatewayAppForward devices context threadId now message := by
  cases input <;> rfl

/-! ## What `gateway_app_touch_device` does -/

/-- A text a builder gave, put into the queue. -/
def enqueueBuilt (json : Option Bytes) : List UpstreamEffect :=
  match json with
  | none => []
  | some json => gatewayAppEnqueueJson json

/-- The NACK of a command taken from the connection before. -/
def replacedNack (command : FrameCommand) : FrameNack :=
  ⟨command.targetNode, command.sequence, CharBuf.lit 32 "transport_replaced"⟩

/-- The NACKs of a takeover, put into the queue. -/
def enqueueReplaced (commands : List FrameCommand) : List UpstreamEffect :=
  commands.flatMap fun command => enqueueBuilt (messageJsonBuildNack 256 (replacedNack command))

/-- `gateway_app_enqueue_nack` of two texts that fit, and are not empty. -/
theorem gatewayAppEnqueueNack_eq {nodeId error : CharBuf 32} (hnode : nodeId.bytes ≠ [])
    (herror : error.bytes ≠ []) (sequence : UInt32) :
    gatewayAppEnqueueNack nodeId.toCStr sequence error.toCStr =
      enqueueBuilt (messageJsonBuildNack 256 ⟨nodeId, sequence, error⟩) := by
  have hcopy : ∀ b : CharBuf 32, CharBuf.ofCStr? 32 b.toCStr = some b := fun b => dif_pos b.fits
  rw [gatewayAppEnqueueNack, if_neg (not_or.mpr ⟨hnode, herror⟩), hcopy, hcopy]
  rfl

/-- What came of a message of a node. -/
inductive TouchEffect (devices : DeviceManager) (context : UpstreamContext) (threadId : ℕ)
    (now : ℤ) (nodeId : CStr) : Bool × UpstreamResult → Prop
  /-- The connection is another node's, or the device manager does not take the call. -/
  | refused : TouchEffect devices context threadId now nodeId (false, ⟨devices, context, []⟩)
  /-- The first message of a connection makes it the node's. -/
  | bound (copy : CharBuf 32) (devices' : DeviceManager) (result : DeviceReturn) :
      context.boundNodeId.bytes = [] → copy.bytes ≠ [] → copy.toCStr = nodeId →
      gatewayMachine.step devices
        (.bind (some nodeId) context.transport context.deviceFd threadId now) =
          (devices', result) → result.code = .ok →
      TouchEffect devices context threadId now nodeId
        (true, ⟨devices', { context with boundNodeId := copy },
          (result.commands.flatMap fun command => gatewayAppEnqueueNack command.targetNode.toCStr
            command.sequence (cstr (ascii "transport_replaced"))) ++ [.bind copy]⟩)
  /-- A later one notes that the node has been heard of. -/
  | seen (devices' : DeviceManager) (result : DeviceReturn) :
      context.boundNodeId.bytes ≠ [] → context.boundNodeId.toCStr = nodeId →
      gatewayMachine.step devices (.updateLastSeen (some nodeId) now) = (devices', result) →
      TouchEffect devices context threadId now nodeId (true, ⟨devices', context, []⟩)

theorem gatewayAppTouchDevice_effect (devices : DeviceManager) (context : UpstreamContext)
    (threadId : ℕ) (now : ℤ) (nodeId : CStr) :
    TouchEffect devices context threadId now nodeId
      (gatewayAppTouchDevice devices context threadId now nodeId) := by
  unfold gatewayAppTouchDevice
  split
  · exact .refused
  rename_i hne
  split
  · rename_i hunbound
    split
    · exact .refused
    rename_i copy hcopy
    have hname : copy.toCStr = nodeId := CharBuf.toCStr_of_ofCStr? hcopy
    rcases bindConnectionCollectCommands_cases devices (some nodeId) context.transport
      context.deviceFd threadId now gatewayCollectArgs with h | h
    · -- the manager as it was
      dsimp only
      rw [if_pos h.code_ne, h.same]
      exact .refused
    · have hok : (deviceManagerBindConnectionCollectCommands devices (some nodeId)
          context.transport context.deviceFd threadId now gatewayCollectArgs).2.code = .ok := by
        obtain ⟨_, _, _, _, _, _, _, _, _, _, _, h⟩ | ⟨_, _, _, _, h⟩ | ⟨_, _, _, _, _, _, h⟩ := h
        all_goals rw [h]; rfl
      dsimp only
      rw [if_neg (not_not.mpr hok)]
      exact .bound copy _ _ hunbound (by rw [hname]; exact hne) hname rfl hok
  -- bound: another node is refused, the same one is seen
  rename_i hbound
  split
  · exact .refused
  rename_i hsame
  rcases updateLastSeen_cases devices (some nodeId) now with h | ⟨_, _, _, _, h⟩
  · dsimp only
    rw [decide_eq_false h.code_ne, h.same]
    exact .refused
  · have hok : (deviceManagerUpdateLastSeen devices (some nodeId) now).2.code = .ok := by
      rw [h]
      rfl
    dsimp only
    rw [decide_eq_true hok]
    exact .seen _ _ hbound (not_not.mp hsame) rfl

/-! ## What goes into the queue -/

/-- The texts a callback puts into the queue, in order. -/
def pushedBy (effects : List UpstreamEffect) : List Bytes :=
  effects.filterMap fun effect =>
    match effect with
    | .push message => some message.data
    | _ => none

theorem pushedBy_append (effects effects' : List UpstreamEffect) :
    pushedBy (effects ++ effects') = pushedBy effects ++ pushedBy effects' :=
  List.filterMap_append

/-- A text a builder gives is put into the queue: a message takes as much as the builder's
buffer holds. -/
theorem gatewayAppEnqueueJson_of_lt {json : Bytes} (h : json.length < 256) :
    ∃ message : GatewayMessage, message.data = json ∧
      gatewayAppEnqueueJson json = [.push message] := by
  have hle : json.length ≤ gatewayMessageMaxSize := Nat.le_of_lt h
  exact ⟨⟨json, hle⟩, rfl, dif_neg (Nat.not_lt.mpr hle)⟩

/-- **A message that is let through** goes into the queue if its line fits the buffer. -/
theorem gatewayAppForward_effects {devices : DeviceManager} {context : UpstreamContext}
    {threadId : ℕ} {now : ℤ} {m : UplinkMessage}
    (hpass : (gatewayAppTouchDevice devices context threadId now m.nodeId.toCStr).1 = true) :
    pushedBy (gatewayAppForward devices context threadId now m).effects =
      pushedBy (gatewayAppTouchDevice devices context threadId now m.nodeId.toCStr).2.effects ++
        if (m.line [Ascii.lf]).length < 256 then [m.line [Ascii.lf]] else [] := by
  rw [gatewayAppForward]
  generalize gatewayAppTouchDevice devices context threadId now m.nodeId.toCStr = touch at hpass ⊢
  obtain ⟨passed, touched⟩ := touch
  obtain rfl : passed = true := hpass
  cases hbuild : m.buildJson 256 with
  | none =>
    have hlong : ¬ (m.line [Ascii.lf]).length < 256 := by
      intro hlt
      rw [UplinkMessage.buildJson_eq_some_iff.mpr ⟨hlt, rfl⟩] at hbuild
      cases hbuild
    simp [hlong]
  | some json =>
    obtain ⟨hlt, hline⟩ := UplinkMessage.buildJson_eq_some_iff.mp hbuild
    obtain ⟨message, hdata, henqueue⟩ := gatewayAppEnqueueJson_of_lt hlt
    subst hline
    simp [henqueue, pushedBy, hlt, hdata]

end SmartGateway
