import SmartGateway.Common.TextOrigin
import SmartGateway.Gateway.PassedOn

/-!
# Every text for the server is one line

The server tells messages apart by their newlines, and the builders escape nothing. A node
cannot break out of its line all the same: a frame ends at its first newline, and a line of a
WiFi node has none in it, so that no text decoded of either has; and a NACK names only nodes
that have introduced themselves so.
-/

namespace SmartGateway

open WriteLog

/-! ## What is decoded -/

/-- What a message is decoded of. -/
def UplinkInput.given : UplinkInput → Bytes
  | .frame f => f.payload
  | .line l => l

theorem decodeFrame_origin {frame : ParsedFrame} {m : UplinkMessage}
    (h : decodeFrame frame = some m) : m.Of frame.payload := by
  unfold decodeFrame at h
  split at h
  · obtain ⟨d, hd, rfl⟩ := Option.map_eq_some_iff.mp h
    exact UplinkMessage.DecodedFrom.origin (m := .data d) hd
  · obtain ⟨a, ha, rfl⟩ := Option.map_eq_some_iff.mp h
    exact UplinkMessage.DecodedFrom.origin (m := .ack a) ha
  · obtain ⟨n, hn, rfl⟩ := Option.map_eq_some_iff.mp h
    exact UplinkMessage.DecodedFrom.origin (m := .nack n) hn
  · exact absurd h (by simp)
  · exact absurd h (by simp)

theorem decodeWifiLine_origin {line : Bytes} {m : UplinkMessage}
    (h : decodeWifiLine line = some m) : m.Of line := by
  unfold decodeWifiLine at h
  split at h
  · exact absurd h (by simp)
  split at h
  · split at h
    · exact absurd h (by simp)
    · rename_i hdecode
      rw [← Option.some.inj h]
      exact messageJsonDecodeAck_origin hdecode
  split at h
  · split at h
    · exact absurd h (by simp)
    · rename_i hdecode
      rw [← Option.some.inj h]
      exact messageJsonDecodeNack_origin hdecode
  · split at h
    · exact absurd h (by simp)
    · rename_i hdecode
      rw [← Option.some.inj h]
      exact messageJsonDecodeData_origin hdecode

theorem UplinkInput.origin {input : UplinkInput} {m : UplinkMessage}
    (h : input.message? = some m) : m.Of input.given := by
  cases input with
  | frame frame => exact decodeFrame_origin h
  | line line => exact decodeWifiLine_origin h

/-- **What a callback is called with** has no newline in it. -/
theorem Intake.Of.noLf {received : Bytes} {handed : List UplinkInput} {intake : Intake}
    (h : intake.Of received handed) : ∀ input ∈ handed, Ascii.lf ∉ input.given := by
  cases intake with
  | frames parser rest =>
    obtain ⟨fresh, fed, frames, hfresh, -, hfed, rfl⟩ := h
    -- the same frames as from the start
    have hsame : frames = (frameParserFeed frameParserInit fed).2 := by
      have hdelivered := frameParserFeed_delivered hfresh fed
      rw [hfed] at hdelivered
      exact hdelivered.unique (frameParserFeed_delivered waiting_init fed)
    intro input hinput
    obtain ⟨frame, hframe, rfl⟩ := List.mem_map.mp hinput
    rw [hsame] at hframe
    exact (deliveredPayload_of_mem hframe).lf
  | lines buffer =>
    obtain ⟨chunks, lines, -, -, rfl, -, -⟩ := h
    intro input hinput
    obtain ⟨line, -, rfl⟩ := List.mem_map.mp hinput
    exact line.noLf

/-! ## NACKs -/

/-- The NACK of a node is one line. -/
theorem isLine_enqueueNack {nodeId error : CStr} (hnode : Ascii.lf ∉ nodeId.bytes)
    (herror : Ascii.lf ∉ error.bytes) (sequence : UInt32) :
    ∀ text ∈ pushedBy (gatewayAppEnqueueNack nodeId sequence error), IsLine text := by
  unfold gatewayAppEnqueueNack
  split
  · exact fun _ h => absurd h List.not_mem_nil
  split
  swap
  · exact fun _ h => absurd h List.not_mem_nil
  rename_i node err hnodeId herr
  split
  · exact fun _ h => absurd h List.not_mem_nil
  rename_i json hbuild
  obtain ⟨hlt, rfl⟩ := messageJsonBuildNack_eq_some_iff.mp hbuild
  obtain ⟨message, hdata, henqueue⟩ := gatewayAppEnqueueJson_of_lt hlt
  rw [henqueue]
  intro text htext
  obtain rfl : text = message.data := List.mem_singleton.mp htext
  rw [hdata]
  rw [← CharBuf.toCStr_of_ofCStr? hnodeId] at hnode
  rw [← CharBuf.toCStr_of_ofCStr? herr] at herror
  refine UplinkMessage.isLine_line (m := .nack ⟨node, sequence, err⟩) hnode fun t ht => ?_
  rw [List.mem_singleton.mp ht]
  exact herror

/-- And the NACKs of the commands of a node are. -/
theorem isLine_enqueueNacks {error : CStr} (herror : Ascii.lf ∉ error.bytes)
    {commands : List FrameCommand}
    (h : ∀ command ∈ commands, Ascii.lf ∉ command.targetNode.bytes) :
    ∀ text ∈ pushedBy (commands.flatMap fun command =>
      gatewayAppEnqueueNack command.targetNode.toCStr command.sequence error), IsLine text := by
  induction commands with
  | nil => exact fun _ h => absurd h List.not_mem_nil
  | cons command commands ih =>
    rw [List.flatMap_cons, pushedBy_append]
    exact List.forall_mem_append.mpr
      ⟨isLine_enqueueNack (h command List.mem_cons_self) herror _,
        ih fun other hmem => h other (List.mem_cons_of_mem _ hmem)⟩

/-! ## The steps of a worker -/

section

variable {devices : DeviceManager} {worker : Worker}

/-- The commands that the device manager hands out of the queue of a node are for it. -/
theorem lf_not_mem_targetNode (hdevices : devices.Sound) {call : GatewayCall} {nodeId : CStr}
    (hnode : call.node = some nodeId) (hlf : Ascii.lf ∉ nodeId.bytes) :
    ∀ command ∈ (gatewayMachine.step devices call).2.commands,
      Ascii.lf ∉ command.targetNode.bytes := by
  intro command hmem
  have htarget := hdevices.targetNode_of_commands hnode hmem
  rw [← htarget] at hlf
  exact hlf

theorem trySendCommand_lines (build : FrameCommand → Option Bytes) (devices : DeviceManager)
    (hbound : Ascii.lf ∉ worker.context.boundNodeId.bytes) :
    ∀ text ∈ pushedBy (trySendCommand build devices worker).effects, IsLine text := by
  rw [trySendCommand]
  dsimp only
  split
  · exact fun _ h => absurd h List.not_mem_nil
  split
  · exact fun _ h => absurd h List.not_mem_nil
  split
  · split
    · exact isLine_enqueueNack hbound (by decide) _
    · exact fun _ h => absurd h List.not_mem_nil
  · exact fun _ h => absurd h List.not_mem_nil
  · exact fun _ h => absurd h List.not_mem_nil

theorem sendCommandTurn_lines (hbound : Ascii.lf ∉ worker.context.boundNodeId.bytes)
    (command : FrameCommand) (w : Write Byte) (turn : SendTurn) :
    ∀ text ∈ pushedBy (sendCommandTurn devices worker command w turn).effects, IsLine text := by
  rw [sendCommandTurn]
  split
  · exact fun _ h => absurd h List.not_mem_nil
  · exact isLine_enqueueNack hbound (by decide) _

theorem leaveConnection_lines (hdevices : devices.Sound)
    (hbound : Ascii.lf ∉ worker.context.boundNodeId.bytes) :
    ∀ text ∈ pushedBy (leaveConnection devices worker).effects, IsLine text := by
  rw [leaveConnection]
  dsimp only
  split
  · exact fun _ h => absurd h List.not_mem_nil
  dsimp only
  split
  · let call : GatewayCall := .disconnect (some worker.context.boundNodeId.toCStr)
      worker.context.deviceFd worker.threadId
    have hnode : call.node = some worker.context.boundNodeId.toCStr := rfl
    exact isLine_enqueueNacks (by decide) (lf_not_mem_targetNode hdevices hnode hbound)
  · exact fun _ h => absurd h List.not_mem_nil

/-- **The first message of a node**, which takes it over: the commands that are queued for it
are refused. -/
theorem gatewayAppTouchDevice_lines (hdevices : devices.Sound) (context : UpstreamContext)
    (threadId : ℕ) (now : ℤ) {nodeId : CStr} (hnode : Ascii.lf ∉ nodeId.bytes) :
    ∀ text ∈ pushedBy (gatewayAppTouchDevice devices context threadId now nodeId).2.effects,
      IsLine text := by
  have htouch := gatewayAppTouchDevice_effect devices context threadId now nodeId
  generalize gatewayAppTouchDevice devices context threadId now nodeId = touch at htouch
  cases htouch with
  | refused | seen => exact fun _ h => absurd h List.not_mem_nil
  | bound copy devices' result hunbound hfilled hname hstep hok =>
    let call : GatewayCall :=
      .bind (some nodeId) context.transport context.deviceFd threadId now
    have hcall : call.node = some nodeId := rfl
    have hcommands := lf_not_mem_targetNode hdevices hcall hnode
    rw [hstep] at hcommands
    rw [pushedBy_append]
    exact List.forall_mem_append.mpr ⟨isLine_enqueueNacks (by decide) hcommands,
      fun _ h => absurd h List.not_mem_nil⟩

/-- **The callback**: NACKs, and the line of the message. -/
theorem gatewayAppOnUplink_lines (hdevices : devices.Sound) (context : UpstreamContext)
    (threadId : ℕ) (now : ℤ) {input : UplinkInput} (hinput : Ascii.lf ∉ input.given) :
    ∀ text ∈ pushedBy (gatewayAppOnUplink devices context threadId now input).effects,
      IsLine text := by
  rw [gatewayAppOnUplink_eq]
  cases hmessage : input.message? with
  | none => exact fun _ h => absurd h List.not_mem_nil
  | some m =>
    obtain ⟨hnode, hline⟩ := (UplinkInput.origin hmessage).isLine hinput
    have hnacks := gatewayAppTouchDevice_lines hdevices context threadId now hnode
    dsimp only
    cases hpass : (gatewayAppTouchDevice devices context threadId now m.nodeId.toCStr).1 with
    | true =>
      rw [gatewayAppForward_effects hpass]
      refine List.forall_mem_append.mpr ⟨hnacks, ?_⟩
      split
      · exact List.forall_mem_singleton.mpr hline
      · exact fun _ h => absurd h List.not_mem_nil
    | false =>
      have hnothing : gatewayAppForward devices context threadId now m =
          (gatewayAppTouchDevice devices context threadId now m.nodeId.toCStr).2 := by
        rw [gatewayAppForward]
        simp only [hpass, Bool.not_false, if_true]
      rw [hnothing]
      exact hnacks

/-- And the connection gets no name but of a message. -/
theorem gatewayAppOnUplink_name (devices : DeviceManager) {context : UpstreamContext}
    (threadId : ℕ) (now : ℤ) {input : UplinkInput} (hinput : Ascii.lf ∉ input.given)
    (hbound : Ascii.lf ∉ context.boundNodeId.bytes) :
    Ascii.lf ∉
      (gatewayAppOnUplink devices context threadId now input).context.boundNodeId.bytes := by
  rw [gatewayAppOnUplink_eq]
  cases hmessage : input.message? with
  | none => exact hbound
  | some m =>
    obtain ⟨hnode, -⟩ := (UplinkInput.origin hmessage).isLine hinput
    dsimp only
    rw [(gatewayAppForward_touch devices context threadId now m).2]
    have htouch := gatewayAppTouchDevice_effect devices context threadId now m.nodeId.toCStr
    generalize gatewayAppTouchDevice devices context threadId now m.nodeId.toCStr = touch at htouch
    cases htouch with
    | refused | seen => exact hbound
    | bound copy devices' result hunbound hfilled hname hstep hok =>
      rw [← CharBuf.ext_toCStr hname] at hnode
      exact hnode

end

/-! ## The loops -/

/-- A connection with what it has handed on, and whose name has no newline in it. -/
structure ConnectionLoop.OneLine (c : ConnectionLoop) : Prop where
  gathers : c.Gathers
  passes : ∃ passed, c.Passes passed
  name : Ascii.lf ∉ c.worker.context.boundNodeId.bytes

namespace ConnectionLoop.OneLine

variable {c : ConnectionLoop}

theorem calling (h : c.OneLine) {input : UplinkInput} {hungUp : Bool}
    (hstage : c.stage = .calling input hungUp) : Ascii.lf ∉ input.given := by
  obtain ⟨passed, hpasses⟩ := h.passes
  refine h.gathers.of.noLf input ?_
  rw [hpasses.calling input hungUp hstage]
  exact List.mem_concat_self

theorem start (transport : DeviceTransport) (deviceFd : ℤ) (threadId : ℕ) {intake : Intake}
    (h : (ConnectionLoop.start transport deviceFd threadId intake).Gathers) :
    (ConnectionLoop.start transport deviceFd threadId intake).OneLine :=
  ⟨h, ⟨[], passes_start _ _ _ _⟩, List.not_mem_nil⟩

/-- **One call of a loop.** -/
theorem step (h : c.OneLine) (devices : DeviceManager) (e : LoopEvent) :
    (loopStep devices c e).loop.OneLine := by
  obtain ⟨passed, hpasses⟩ := h.passes
  refine ⟨h.gathers.step devices e, ⟨_, hpasses.step devices e⟩, ?_⟩
  -- but for the callback it stays as it is
  have hsame : ∀ context : UpstreamContext, context = c.worker.context →
      Ascii.lf ∉ context.boundNodeId.bytes := fun context hcontext => hcontext ▸ h.name
  unfold loopStep
  split
  · split
    · exact h.name
    · split
      · exact hsame _ (trySendCommand_context _ _ _)
      · exact hsame _ (trySendCommand_context _ _ _)
  · exact hsame _ (sendCommandTurn_context _ _ _ _ _)
  · exact hsame _ (congrArg Worker.context (c.polled_worker _))
  · exact hsame _ (congrArg Worker.context (c.read_worker _ _))
  · rename_i input hungUp now _ hstage
    rw [feed_worker]
    exact gatewayAppOnUplink_name devices _ now (h.calling hstage) h.name
  · exact hsame _ (leaveConnection_context _ _)
  · exact hsame _ (leaveConnection_context _ _)
  · exact h.name

/-- **What it puts into the queue.** -/
theorem lines (h : c.OneLine) {devices : DeviceManager} (hdevices : devices.Sound)
    (e : LoopEvent) : ∀ text ∈ pushedBy (loopStep devices c e).effects, IsLine text := by
  unfold loopStep
  split
  · split
    · exact fun _ h => absurd h List.not_mem_nil
    · split
      · exact trySendCommand_lines _ _ h.name
      · exact trySendCommand_lines _ _ h.name
  · exact sendCommandTurn_lines h.name _ _ _
  · exact fun _ h => absurd h List.not_mem_nil
  · exact fun _ h => absurd h List.not_mem_nil
  · rename_i input hungUp now _ hstage
    exact gatewayAppOnUplink_lines hdevices _ _ now (h.calling hstage)
  · exact leaveConnection_lines hdevices h.name
  · exact leaveConnection_lines hdevices h.name
  · exact fun _ h => absurd h List.not_mem_nil

end ConnectionLoop.OneLine

/-! ## All threads -/

/-- What the threads put into the queue in a step. -/
theorem threadPushes_lines {s : GatewayThreads} (hdevices : s.devices.Sound)
    (hserial : ∀ c ∈ s.bluetooth.connections, c.OneLine) (hwifi : ∀ c ∈ s.wifi, c.OneLine)
    (e : ThreadEvent) : ∀ text ∈ threadPushes s e, IsLine text := by
  unfold threadPushes threadStep
  split
  · exact fun _ h => absurd h List.not_mem_nil
  · dsimp only
    split <;> exact fun _ h => absurd h List.not_mem_nil
  · dsimp only
    split
    · rename_i c hcontrol
      refine (hserial c (List.mem_append_right _ ?_)).lines hdevices _
      rw [BluetoothWorker.current, hcontrol]
      exact List.mem_singleton_self c
    · exact fun _ h => absurd h List.not_mem_nil
    · exact fun _ h => absurd h List.not_mem_nil
  · exact fun _ h => absurd h List.not_mem_nil
  · dsimp only
    split
    · exact fun _ h => absurd h List.not_mem_nil
    · rename_i c hc
      exact (hwifi c (List.mem_of_getElem? hc)).lines hdevices _

/-- In every state of a run. -/
theorem gatewayThreads_lines (threadId : ℕ) (events : List ThreadEvent) (e : ThreadEvent) :
    ∀ text ∈ threadPushes ((gatewayThreads threadId).state events) e, IsLine text := by
  obtain ⟨inputs, hgoes, -⟩ := gatewayThreads_goesBy threadId events
  obtain ⟨hsound, -⟩ := gatewayLedger_balance inputs
  obtain ⟨hserial, hwifi⟩ := gatewayThreads_connections (P := ConnectionLoop.OneLine)
    (Q := ConnectionLoop.OneLine)
    (fun fd threadId parser => .start _ _ _
      ⟨⟨frameParserReset parser, [], [], rfl, rfl, rfl, rfl⟩, fun _ => rfl, rfl⟩)
    (fun fd threadId => .start _ _ _
      ⟨⟨[], [], fun _ h => absurd h List.not_mem_nil, rfl, rfl, rfl, rfl⟩,
        fun _ => List.not_mem_nil, rfl⟩)
    (fun devices c e h => h.step devices e) (fun devices c e h => h.step devices e)
    threadId events
  refine threadPushes_lines ?_ hserial hwifi e
  rw [hgoes.devices]
  exact hsound.devices

/-- **No node breaks out of its line.** In any run of all gateway threads, whatever the nodes
send and the server asks, the texts that go into the upstream queue are lines: each ends with
its newline, and has no other. -/
theorem queued_lines (threadId : ℕ) (events : List ThreadEvent) :
    ∃ lines : List Bytes, (∀ line ∈ lines, Ascii.lf ∉ line) ∧
      (gatewayThreads threadId).log threadPushes events = lines.map (· ++ [Ascii.lf]) := by
  refine exists_lines fun text htext => ?_
  obtain ⟨before, e, after, -, hpushed⟩ := (gatewayThreads threadId).exists_of_mem_log htext
  exact gatewayThreads_lines threadId before e text hpushed

end SmartGateway
