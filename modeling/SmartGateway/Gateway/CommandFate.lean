import SmartGateway.Gateway.Forwarding
import SmartGateway.Gateway.Workers
import SmartGateway.Lib.Lists

/-!
# What becomes of a command

The gateway as a whole: the thread of the server link, which queues the commands it
reads, and the workers of the connections, which take them, write them and answer for
those that cannot be written. Each step makes one call of the device manager at most.
The duty to answer is spread over five places, and which of them has it depends on the
order of the steps; but of each command there is one account, and every step balances it.
-/

namespace SmartGateway

open WriteLog Numeral

/-! ## The gateway -/

/-- The devices, and all connections there have been. -/
structure GatewayState where
  devices : DeviceManager
  workers : List Worker

/-- What happens. -/
inductive GatewayInput
  /-- The server link hands its callback a line. -/
  | line (line : Bytes)
  /-- A connection is made, of whatever descriptor and thread. -/
  | connected (transport : DeviceTransport) (deviceFd : ℤ) (threadId : ℕ)
  | worker (i : ℕ) (input : WorkerInput)

/-- A NACK for a command: the text for the server's socket, or for the upstream queue. -/
inductive NackAttempt
  | route (text : Bytes)
  | queued (text : Bytes)
deriving DecidableEq

/-- The text of it. -/
def NackAttempt.text : NackAttempt → Bytes
  | .route text | .queued text => text

/-- One step. -/
def gatewayStep (s : GatewayState) : GatewayInput → GatewayState × List NackAttempt
  | .line line =>
    let (devices, nack) := gatewayAppOnTcpLine s.devices line
    (⟨devices, s.workers⟩, nack.toList.map .route)
  | .connected transport deviceFd threadId =>
    (⟨s.devices, s.workers ++ [.connected transport deviceFd threadId]⟩, [])
  | .worker i input =>
    match s.workers[i]? with
    | none => (s, [])
    | some worker =>
      let result := workerStep s.devices worker input
      (⟨result.devices, s.workers.set i result.worker⟩, (pushedBy result.effects).map .queued)

/-- The gateway from its start. -/
def gatewaySystem : Machine GatewayState GatewayInput (List NackAttempt) where
  init := ⟨deviceManagerInit, []⟩
  step := gatewayStep

/-! ## Where a command can be -/

/-- The command a worker has taken from the queue and not yet written. -/
def Worker.held (worker : Worker) : List FrameCommand :=
  match worker.control with
  | .sending command _ => [command]
  | .loop | .leaving | .stopped => []

/-- The commands whose text went out whole over this connection. -/
def Worker.written (worker : Worker) : List FrameCommand :=
  (worker.writes.filter fun write => write.2.written = write.2.text.length).map Prod.fst

/-- The commands held by the workers. -/
def GatewayState.held (s : GatewayState) : List FrameCommand := s.workers.flatMap Worker.held

/-- The commands written. -/
def GatewayState.written (s : GatewayState) : List FrameCommand :=
  s.workers.flatMap Worker.written

/-- The command of a line that is one. -/
def acceptedCommand : GatewayInput → List FrameCommand
  | .line line =>
    match messageJsonDecodeCommand line with
    | (none, _) => []
    | (some _, command) => [command]
  | .connected .. | .worker .. => []

/-- The commands of the lines accepted in a run. -/
def acceptedCommands (trace : List (GatewayInput × List NackAttempt)) : List FrameCommand :=
  trace.flatMap fun step => acceptedCommand step.1

/-- The NACKs attempted in a run. -/
def nackAttempts (trace : List (GatewayInput × List NackAttempt)) : List NackAttempt :=
  trace.flatMap Prod.snd

/-- The NACK of a command, with its error: it carries the target and the sequence. -/
def nackText (answer : FrameCommand × CharBuf 32) : Option Bytes :=
  messageJsonBuildNack 256 ⟨answer.1.targetNode, answer.1.sequence, answer.2⟩

/-! ## NACKs -/

/-- Every NACK fits the buffer it is built in. -/
theorem exists_nack (nack : FrameNack) :
    ∃ text, messageJsonBuildNack 256 nack = some text ∧ text.length < 256 := by
  have hlength : (nackLine nack [Ascii.lf]).length = 44 + nack.nodeId.bytes.length +
      (decimal nack.sequence.toNat).length + nack.error.bytes.length :=
    (UplinkMessage.nack nack).length_line
  have hnode := nack.nodeId.fits
  have herror := nack.error.fits
  have hdigits : (decimal nack.sequence.toNat).length ≤ 10 :=
    length_decimal_le (by decide) (Nat.lt_trans nack.sequence.toNat_lt (by norm_num))
  have hshort : (nackLine nack [Ascii.lf]).length < 256 := by omega
  exact ⟨_, messageJsonBuildNack_eq_some_iff.mpr ⟨hshort, rfl⟩, hshort⟩

/-- `gateway_app_enqueue_nack` attempts one NACK. -/
theorem pushedBy_enqueueNack {command : FrameCommand} {nodeId error : CharBuf 32}
    (hnode : command.targetNode = nodeId) (hfilled : nodeId.bytes ≠ [])
    (herror : error.bytes ≠ []) :
    (pushedBy (gatewayAppEnqueueNack nodeId.toCStr command.sequence error.toCStr)).map some =
      [nackText (command, error)] := by
  subst hnode
  obtain ⟨text, hbuild, hshort⟩ := exists_nack ⟨command.targetNode, command.sequence, error⟩
  obtain ⟨message, hdata, henqueue⟩ := gatewayAppEnqueueJson_of_lt hshort
  rw [gatewayAppEnqueueNack_eq hfilled herror, nackText, hbuild]
  simp only [enqueueBuilt, henqueue, pushedBy, List.filterMap_cons, List.filterMap_nil, hdata,
    List.map_cons, List.map_nil]

/-- And one for each command that is refused. -/
theorem pushedBy_enqueueNacks {nodeId error : CharBuf 32} (hfilled : nodeId.bytes ≠ [])
    (herror : error.bytes ≠ []) {commands : List FrameCommand}
    (h : ∀ command ∈ commands, command.targetNode = nodeId) :
    (pushedBy (commands.flatMap fun command => gatewayAppEnqueueNack command.targetNode.toCStr
      command.sequence error.toCStr)).map some =
        (commands.map fun command => (command, error)).map nackText := by
  induction commands with
  | nil => rfl
  | cons command commands ih =>
    have hself : command.targetNode = nodeId := h command List.mem_cons_self
    have hone := pushedBy_enqueueNack (rfl : command.targetNode = _) (hself ▸ hfilled) herror
    have hrest := ih fun command hmem => h command (List.mem_cons_of_mem _ hmem)
    rw [List.flatMap_cons, pushedBy_append, List.map_append, hone, hrest]
    rfl

/-! ## The account of a worker -/

/-- What holds of a worker, whatever the other threads do. -/
structure Worker.Sound (worker : Worker) : Prop where
  /-- A command it holds is for its node, and not all of the text is out. -/
  sending : ∀ command w, worker.control = .sending command w →
    command.targetNode = worker.context.boundNodeId ∧ worker.context.boundNodeId.bytes ≠ [] ∧
      commandText worker.context.transport command = some w.text ∧ w.written < w.text.length
  /-- What it writes is the text of the command, on the transport of the connection. -/
  texts : ∀ write ∈ worker.writes,
    commandText worker.context.transport write.1 = some write.2.text
  /-- It writes what it has taken. -/
  taken : (worker.writes.map Prod.fst ++ worker.held).Sublist worker.taken

/-- What one step of a worker leaves and answers, and that each command is accounted for:
those that waited, were held or were written do so still, or have moved on, or are
answered. -/
structure Accounts (devices : DeviceManager) (worker : Worker) (result : WorkerResult)
    (answered : List (FrameCommand × CharBuf 32)) : Prop where
  devices_sound : result.devices.Sound
  worker_sound : result.worker.Sound
  nacks : (pushedBy result.effects).map some = answered.map nackText
  balance : ∀ command : FrameCommand,
    (devices.pending command.targetNode.toCStr).count command + worker.held.count command +
        worker.written.count command =
      (result.devices.pending command.targetNode.toCStr).count command +
        result.worker.held.count command + result.worker.written.count command +
        (answered.map Prod.fst).count command

section

variable {devices : DeviceManager} {worker : Worker}

theorem Worker.connected_sound (transport : DeviceTransport) (deviceFd : ℤ) (threadId : ℕ) :
    (Worker.connected transport deviceFd threadId).Sound := by
  constructor
  · intro command w hsending
    cases hsending
  · intro write hmem
    cases hmem
  · exact List.Sublist.refl _

/-- A worker that holds no command, at another place of its loop. -/
theorem Worker.Sound.idle (h : worker.Sound) (hheld : worker.held = []) (control : WorkerControl)
    (hcontrol : ∀ command w, control ≠ .sending command w) :
    ({ worker with control := control } : Worker).Sound ∧
      ({ worker with control := control } : Worker).held = [] := by
  have hnone : ({ worker with control := control } : Worker).held = [] := by
    cases control with
    | sending command w => exact absurd rfl (hcontrol command w)
    | loop | leaving | stopped => rfl
  refine ⟨⟨fun command w hsending => absurd hsending (hcontrol command w), h.texts, ?_⟩, hnone⟩
  have htaken := h.taken
  rw [hheld] at htaken
  rw [hnone]
  exact htaken

/-- A step that moves no command. -/
theorem Accounts.idle (hdevices : devices.Sound) (h : worker.Sound) (hheld : worker.held = [])
    {control : WorkerControl} (hcontrol : ∀ command w, control ≠ .sending command w) :
    Accounts devices worker ⟨devices, { worker with control := control }, []⟩ [] := by
  obtain ⟨hsound, hnone⟩ := h.idle hheld control hcontrol
  refine ⟨hdevices, hsound, rfl, fun command => ?_⟩
  rw [hheld, hnone]
  rfl

/-- And one that does nothing. -/
theorem Accounts.same (hdevices : devices.Sound) (h : worker.Sound) :
    Accounts devices worker ⟨devices, worker, []⟩ [] :=
  ⟨hdevices, h, rfl, fun _ => rfl⟩

/-! ## Taking and writing a command -/

/-- A command taken from the queue of the node, or nothing done. -/
theorem tryDequeueCommand_account (h : devices.Sound) (nodeId : CStr) (fd : ℤ) (threadId : ℕ) :
    let ret := deviceManagerTryDequeueCommand devices (some nodeId) fd threadId true
    (ret.1 = devices ∧ ret.2.code ≠ .ok) ∨
      ∃ command, ret.1.Sound ∧ ret.2.code = .ok ∧ ret.2.commands = [command] ∧
        command.targetNode.toCStr = nodeId ∧
        ∀ other : FrameCommand, (devices.pending other.targetNode.toCStr).count other =
          [command].count other + (ret.1.pending other.targetNode.toCStr).count other := by
  intro ret
  let call : GatewayCall := .tryDequeue (some nodeId) fd threadId true
  have hnode : call.node = some nodeId := rfl
  have hstep : gatewayMachine.step devices call = ret := rfl
  rcases tryDequeueCommand_cases devices (some nodeId) fd threadId true with hrefused |
    ⟨_, i, hfilled, -, -, -, -, -, hret⟩
  · exact .inl ⟨hrefused.same, hrefused.code_ne⟩
  · have hcommands : ret.2.commands = [(devices.device i).commandQueue.front] := by
      rw [show ret = _ from hret]
    refine .inr ⟨_, h.step call.toDeviceCall, by rw [show ret = _ from hret], hcommands, ?_, ?_⟩
    · refine h.targetNode_of_commands hnode ?_
      rw [hstep, hcommands]
      exact List.mem_singleton_self _
    · intro other
      rw [h.count_taken hnode (fun _ => rfl) other, hstep, hcommands]

/-- A write at the head of its loop: the command is held, or it is written. -/
theorem Worker.count_send (worker : Worker) (command : FrameCommand) (w : Write Byte)
    (other : FrameCommand) :
    (worker.send command w).held.count other + (worker.send command w).written.count other =
      [command].count other + worker.written.count other := by
  unfold Worker.send
  split
  · rename_i hwhole
    have hwritten : ({ worker with
        control := .loop, writes := worker.writes ++ [(command, w)] } : Worker).written =
          worker.written ++ [command] := by
      unfold Worker.written
      rw [List.filter_append, List.map_append, List.filter_cons_of_pos (by simpa using hwhole)]
      rfl
    rw [hwritten, List.count_append]
    change 0 + _ = _
    omega
  · rfl

/-- The worker is as it should be then. -/
theorem Worker.sound_send {command : FrameCommand} {w : Write Byte}
    (hnode : command.targetNode = worker.context.boundNodeId)
    (hfilled : worker.context.boundNodeId.bytes ≠ [])
    (htext : commandText worker.context.transport command = some w.text)
    (htexts : ∀ write ∈ worker.writes,
      commandText worker.context.transport write.1 = some write.2.text)
    (htaken : (worker.writes.map Prod.fst ++ [command]).Sublist worker.taken) :
    (worker.send command w).Sound := by
  unfold Worker.send
  split
  · refine ⟨nofun, ?_, ?_⟩
    · intro write hmem
      rcases List.mem_append.mp hmem with hmem | hmem
      · exact htexts write hmem
      · rw [List.mem_singleton.mp hmem]
        exact htext
    · rw [List.map_append]
      simpa [Worker.held] using htaken
  · rename_i hpart
    refine ⟨?_, htexts, htaken⟩
    intro command' w' hsending
    obtain ⟨rfl, rfl⟩ := WorkerControl.sending.inj hsending
    exact ⟨hnode, hfilled, htext, Nat.lt_of_le_of_ne w.le hpart⟩

/-- The NACK of a command for the node of the connection. -/
theorem pushedBy_boundNack {nodeId : CharBuf 32} {command : FrameCommand}
    (hnode : command.targetNode = nodeId) (hfilled : nodeId.bytes ≠ []) {error : String}
    (hshort : (ascii error).length < 32) (h0 : (0 : Byte) ∉ ascii error)
    (herror : ascii error ≠ []) :
    (pushedBy (gatewayAppEnqueueNack nodeId.toCStr command.sequence (cstr (ascii error)))).map
      some = [(command, CharBuf.lit 32 error)].map nackText := by
  obtain ⟨hlit, hbytes⟩ := CharBuf.lit_toCStr hshort h0
  rw [← hlit]
  exact pushedBy_enqueueNack hnode hfilled (by rw [hbytes]; exact herror)

/-- **`try_send_command`**, up to the first turn of the write: nothing is done, or a
command is taken and held, or written, or answered for. -/
theorem trySendCommand_account (hdevices : devices.Sound) (h : worker.Sound)
    (hloop : worker.control = .loop) :
    ∃ answered, Accounts devices worker
      (trySendCommand (commandText worker.context.transport) devices worker) answered := by
  have hheld : worker.held = [] := by rw [Worker.held, hloop]
  unfold trySendCommand
  dsimp only
  split
  · exact ⟨[], .idle hdevices h hheld nofun⟩
  split
  · exact ⟨[], .same hdevices h⟩
  rename_i hfilled
  have htry := tryDequeueCommand_account hdevices worker.context.boundNodeId.toCStr
    worker.context.deviceFd worker.threadId
  generalize deviceManagerTryDequeueCommand devices (some worker.context.boundNodeId.toCStr)
    worker.context.deviceFd worker.threadId true = ret at htry ⊢
  obtain ⟨devices', result⟩ := ret
  rcases htry with ⟨hsame, hrefused⟩ | ⟨command, hsound, hok, hcommands, htarget, hbalance⟩
  · -- refused: the devices are as they were, and the loop goes on or ends
    obtain rfl : devices' = devices := hsame
    split
    · rename_i hok _
      exact absurd hok hrefused
    · exact ⟨[], .idle hdevices h hheld nofun⟩
    · exact ⟨[], .same hdevices h⟩
  have hnode : command.targetNode = worker.context.boundNodeId := CharBuf.ext_toCStr htarget
  -- what is taken now comes behind what was taken before
  have htaken : (worker.writes.map Prod.fst ++ [command]).Sublist (worker.taken ++ [command]) := by
    have hbefore := h.taken
    rw [hheld, List.append_nil] at hbefore
    exact hbefore.append (List.Sublist.refl _)
  obtain ⟨code, commands, _, _⟩ := result
  obtain rfl : code = .ok := hok
  obtain rfl : commands = [command] := hcommands
  dsimp only
  split
  · -- no text: it is answered for
    refine ⟨[(command, CharBuf.lit 32 "cmd_encode_failed")], hsound, ?_, ?_, ?_⟩
    · refine ⟨?_, h.texts, ?_⟩
      · intro command' w hsending
        rw [hloop] at hsending
        cases hsending
      · exact h.taken.trans (List.sublist_append_left _ _)
    · exact pushedBy_boundNack hnode hfilled (by decide) (by decide) (by decide)
    · intro other
      have hmoved := hbalance other
      dsimp only at hmoved
      change _ = (devices'.pending other.targetNode.toCStr).count other +
        worker.held.count other + worker.written.count other + [command].count other
      omega
  -- it has a text: the worker holds it while it is written
  · rename_i text hbuild
    refine ⟨[], hsound, ?_, rfl, ?_⟩
    · exact Worker.sound_send hnode hfilled hbuild h.texts htaken
    · intro other
      have hmoved := hbalance other
      have hsent := Worker.count_send { worker with taken := worker.taken ++ [command] } command
         (Write.start text) other
      change _ = [command].count other + worker.written.count other at hsent
      dsimp only at hmoved ⊢
      rw [hheld, List.map_nil, List.count_nil]
      omega

/-- **One turn of a write**: it goes on, or it is over, or it fails and is answered for,
and then a part of the text at most is out. -/
theorem sendCommandTurn_account (hdevices : devices.Sound) (h : worker.Sound)
    {command : FrameCommand} {w : Write Byte} (hsending : worker.control = .sending command w)
    (turn : SendTurn) :
    ∃ answered, Accounts devices worker (sendCommandTurn devices worker command w turn)
      answered := by
  have hheld : worker.held = [command] := by rw [Worker.held, hsending]
  obtain ⟨hnode, hfilled, htext, hpart⟩ := h.sending command w hsending
  have htaken : (worker.writes.map Prod.fst ++ [command]).Sublist worker.taken := by
    have hbefore := h.taken
    rw [hheld] at hbefore
    exact hbefore
  unfold sendCommandTurn
  split
  · rename_i w' hturn
    have hsame : w'.text = w.text := sendAllTurn_text hturn
    refine ⟨[], hdevices, ?_, rfl, ?_⟩
    · exact Worker.sound_send hnode hfilled (by rw [hsame]; exact htext) h.texts htaken
    · intro other
      have hsent := Worker.count_send worker command w' other
      dsimp only
      rw [hheld, List.map_nil, List.count_nil]
      omega
  · refine ⟨[(command, CharBuf.lit 32 "transport_send_failed")], hdevices, ?_, ?_, ?_⟩
    · refine ⟨nofun, ?_, ?_⟩
      · intro write hmem
        rcases List.mem_append.mp hmem with hmem | hmem
        · exact h.texts write hmem
        · rw [List.mem_singleton.mp hmem]
          exact htext
      · rw [List.map_append]
        simpa [Worker.held] using htaken
    · exact pushedBy_boundNack hnode hfilled (by decide) (by decide) (by decide)
    · intro other
      -- the write that broke off does not count as written
      have hwritten : ({ worker with
          control := .leaving, writes := worker.writes ++ [(command, w)] } : Worker).written =
            worker.written := by
        unfold Worker.written
        rw [List.filter_append, List.filter_cons_of_neg (by simpa using Nat.ne_of_lt hpart)]
        simp
      dsimp only
      rw [hheld, hwritten]
      change _ = _ + 0 + _ + [command].count other
      omega

/-! ## Answering for what is still queued -/

/-- A call of the manager whose commands are answered for, each of them. -/
theorem Accounts.collected (hdevices : devices.Sound) {call : GatewayCall} {nodeId : CStr}
    (hnode : call.node = some nodeId) (hquiet : ∀ name, call.command? name = [])
    {worker' : Worker} (hsound : worker'.Sound) (hheld : worker'.held = worker.held)
    (hwritten : worker'.written = worker.written) {effects : List UpstreamEffect}
    (error : CharBuf 32)
    (hpushed : (pushedBy effects).map some =
      ((gatewayMachine.step devices call).2.commands.map fun command =>
        (command, error)).map nackText) :
    Accounts devices worker ⟨(gatewayMachine.step devices call).1, worker', effects⟩
      ((gatewayMachine.step devices call).2.commands.map fun command => (command, error)) := by
  refine ⟨hdevices.step call.toDeviceCall, hsound, hpushed, fun other => ?_⟩
  have hmoved := hdevices.count_taken hnode hquiet other
  have hanswered : ((gatewayMachine.step devices call).2.commands.map
      fun command => (command, error)).map Prod.fst =
        (gatewayMachine.step devices call).2.commands := by
    rw [List.map_map]
    exact List.map_id _
  dsimp only
  rw [hanswered, hheld, hwritten]
  omega

/-- The NACKs of the commands of one node, under an error of the source. -/
theorem pushedBy_collectedNacks {nodeId : CharBuf 32} (hfilled : nodeId.bytes ≠ [])
    {error : String} (hshort : (ascii error).length < 32) (h0 : (0 : Byte) ∉ ascii error)
    (herror : ascii error ≠ []) {commands : List FrameCommand}
    (h : ∀ command ∈ commands, command.targetNode = nodeId) :
    (pushedBy (commands.flatMap fun command => gatewayAppEnqueueNack command.targetNode.toCStr
      command.sequence (cstr (ascii error)))).map some =
        (commands.map fun command => (command, CharBuf.lit 32 error)).map nackText := by
  obtain ⟨hlit, hbytes⟩ := CharBuf.lit_toCStr hshort h0
  rw [← hlit]
  exact pushedBy_enqueueNacks hfilled (by rw [hbytes]; exact herror) h

/-- **The way out**: what is still queued is answered for, if the connection is the node's. -/
theorem leaveConnection_account (hdevices : devices.Sound) (h : worker.Sound)
    (hheld : worker.held = []) :
    ∃ answered, Accounts devices worker (leaveConnection devices worker) answered := by
  unfold leaveConnection
  dsimp only
  split
  · exact ⟨[], .idle hdevices h hheld nofun⟩
  rename_i hfilled
  let call : GatewayCall := .disconnect (some worker.context.boundNodeId.toCStr)
    worker.context.deviceFd worker.threadId
  have hnode : call.node = some worker.context.boundNodeId.toCStr := rfl
  have hstep : deviceManagerDisconnectCollectCommands devices
      (some worker.context.boundNodeId.toCStr) worker.context.deviceFd worker.threadId
        gatewayCollectArgs = gatewayMachine.step devices call := rfl
  -- the queue of a node holds commands for it only
  have htargets : ∀ command ∈ (gatewayMachine.step devices call).2.commands,
      command.targetNode = worker.context.boundNodeId := by
    intro command hmem
    exact CharBuf.ext_toCStr (hdevices.targetNode_of_commands hnode hmem)
  obtain ⟨hsound, hnone⟩ := h.idle hheld .stopped nofun
  rw [hstep]
  refine ⟨_, .collected hdevices hnode (fun _ => rfl) hsound (hnone.trans hheld.symm) rfl
    (.lit 32 "transport_disconnected") ?_⟩
  split
  · exact pushedBy_collectedNacks hfilled (by decide) (by decide) (by decide) htargets
  · -- refused, and no command is handed out
    rename_i hrefused
    have hempty : (gatewayMachine.step devices call).2.commands = [] := by
      rcases disconnectCollectCommands_cases devices (some worker.context.boundNodeId.toCStr)
        worker.context.deviceFd worker.threadId gatewayCollectArgs with hret |
        ⟨_, i, -, -, -, -, hret⟩
      · exact hret.commands
      · rw [← hstep, hret] at hrefused
        exact absurd rfl hrefused
    rw [hempty]
    rfl

/-- **A message of a node.** The first one takes the node over: what was queued for the
connection before is answered for. -/
theorem message_account (hdevices : devices.Sound) (h : worker.Sound)
    (hloop : worker.control = .loop) (nodeId : CStr) (now : ℤ) :
    let result := (gatewayAppTouchDevice devices worker.context worker.threadId now nodeId).2
    ∃ answered, Accounts devices worker
      ⟨result.devices, { worker with context := result.context }, result.effects⟩ answered := by
  intro result
  have htouch := gatewayAppTouchDevice_effect devices worker.context worker.threadId now nodeId
  have hresult : result =
    (gatewayAppTouchDevice devices worker.context worker.threadId now nodeId).2 := rfl
  generalize gatewayAppTouchDevice devices worker.context worker.threadId now nodeId = touch
    at htouch hresult
  cases htouch with
  | refused =>
    rw [hresult]
    exact ⟨[], .same hdevices h⟩
  -- bound to this node already: only the time is noted
  | seen devices' ret _ _ hstep =>
    let call : GatewayCall := .updateLastSeen (some nodeId) now
    have hnode : call.node = some nodeId := rfl
    have hdevices' : devices' = (gatewayMachine.step devices call).1 := by rw [hstep]
    have hempty : (gatewayMachine.step devices call).2.commands = [] := by
      change (deviceManagerUpdateLastSeen devices (some nodeId) now).2.commands = []
      rcases updateLastSeen_cases devices (some nodeId) now with hret | ⟨_, i, -, -, hret⟩
      · exact hret.commands
      · rw [hret]
        rfl
    rw [hresult, hdevices']
    refine ⟨_, .collected hdevices hnode (fun _ => rfl) h rfl rfl default ?_⟩
    rw [hempty]
    rfl
  -- not bound before: the queue of the connection before is handed out and answered for
  | bound copy devices' ret _ hfilled hname hstep _ =>
    let call : GatewayCall :=
      .bind (some nodeId) worker.context.transport worker.context.deviceFd worker.threadId now
    have hnode : call.node = some nodeId := rfl
    have hdevices' : devices' = (gatewayMachine.step devices call).1 := by rw [hstep]
    have hret : ret = (gatewayMachine.step devices call).2 := by rw [hstep]
    have htargets : ∀ command ∈ (gatewayMachine.step devices call).2.commands,
        command.targetNode = copy := by
      intro command hmem
      refine CharBuf.ext_toCStr ?_
      rw [hname]
      exact hdevices.targetNode_of_commands hnode hmem
    let worker' : Worker := { worker with context := { worker.context with boundNodeId := copy } }
    have hheld : worker'.held = worker.held := rfl
    have hwritten : worker'.written = worker.written := rfl
    have hsound : worker'.Sound := by
      refine ⟨fun command w hsending => ?_, h.texts, h.taken⟩
      change worker.control = _ at hsending
      rw [hloop] at hsending
      cases hsending
    rw [hresult, hdevices', hret]
    refine ⟨_, .collected hdevices hnode (fun _ => rfl) hsound hheld hwritten
      (.lit 32 "transport_replaced") ?_⟩
    rw [pushedBy_append]
    change (_ ++ []).map some = _
    rw [List.append_nil]
    exact pushedBy_collectedNacks hfilled (by decide) (by decide) (by decide) htargets

/-- **One step of a worker** balances the account of every command. -/
theorem workerStep_account (hdevices : devices.Sound) (h : worker.Sound) (input : WorkerInput) :
    ∃ answered, Accounts devices worker (workerStep devices worker input) answered := by
  unfold workerStep
  split
  · rename_i nodeId now hloop
    exact message_account hdevices h hloop nodeId now
  · rename_i hloop
    have htry := trySendCommand_account hdevices h hloop
    cases htransport : worker.context.transport with
    | wifi | bluetooth =>
      rw [htransport] at htry
      exact htry
  · rename_i command w turn hsending
    exact sendCommandTurn_account hdevices h hsending turn
  · rename_i hloop
    exact leaveConnection_account hdevices h (by rw [Worker.held, hloop])
  · rename_i hleaving
    exact leaveConnection_account hdevices h (by rw [Worker.held, hleaving])
  · exact ⟨[], .same hdevices h⟩

end

/-! ## The server's lines -/

/-- The error of a call that did not go well. -/
theorem routeError_of_ne {code : DeviceManagerCode} (h : code ≠ .ok) :
    ∃ error : CharBuf 32, routeError code = some error.toCStr ∧ error.bytes ≠ [] := by
  cases code with
  | ok => exact absurd rfl h
  | notFound => exact ⟨⟨⟨ascii "route_not_found", by decide⟩, by decide⟩, rfl, by decide⟩
  | offline => exact ⟨⟨⟨ascii "route_offline", by decide⟩, by decide⟩, rfl, by decide⟩
  | queueFull => exact ⟨⟨⟨ascii "route_queue_full", by decide⟩, by decide⟩, rfl, by decide⟩
  | _ => exact ⟨⟨⟨ascii "route_internal", by decide⟩, by decide⟩, rfl, by decide⟩

/-- `gateway_app_send_route_nack` sends the NACK of the command. -/
theorem gatewayAppSendRouteNack_eq {command : FrameCommand} {error : CharBuf 32}
    (herror : error.bytes ≠ []) :
    gatewayAppSendRouteNack command error.toCStr = nackText (command, error) := by
  have hcopy : CharBuf.ofCStr? 32 error.toCStr = some error := dif_pos error.fits
  rw [gatewayAppSendRouteNack, if_neg herror, hcopy]
  rfl

/-- **A line of the server.** A command in it is queued, or answered for. -/
theorem gatewayAppOnTcpLine_account {devices : DeviceManager} (hdevices : devices.Sound)
    (line : Bytes) :
    ∃ answered : List (FrameCommand × CharBuf 32),
      (gatewayAppOnTcpLine devices line).1.Sound ∧
      (gatewayAppOnTcpLine devices line).2.toList.map some = answered.map nackText ∧
      ∀ other : FrameCommand, (devices.pending other.targetNode.toCStr).count other +
          (acceptedCommand (.line line)).count other =
        ((gatewayAppOnTcpLine devices line).1.pending other.targetNode.toCStr).count other +
          (answered.map Prod.fst).count other := by
  unfold gatewayAppOnTcpLine acceptedCommand
  dsimp only
  rcases messageJsonDecodeCommand line with ⟨_ | consumed, command⟩
  · exact ⟨[], hdevices, rfl, fun _ => rfl⟩
  dsimp only
  let call : GatewayCall := .enqueue (some command.targetNode.toCStr) (some command)
  have hnode : call.node = some command.targetNode.toCStr := rfl
  have hstep : deviceManagerEnqueueCommand devices (some command.targetNode.toCStr)
      (some command) = gatewayMachine.step devices call := rfl
  have hbalance := hdevices.count_step hnode
  rw [hstep]
  rcases enqueueCommand_cases devices (some command.targetNode.toCStr) (some command) with hret |
    ⟨_, _, i, hroom, -, -, -, -, -, -, hret⟩
  · -- refused: one route NACK, and the devices as they were
    obtain ⟨hsame, hne, -⟩ := hret
    rw [hstep] at hsame hne
    obtain ⟨error, herror, hfilled⟩ := routeError_of_ne hne
    obtain ⟨text, htext, -⟩ := exists_nack ⟨command.targetNode, command.sequence, error⟩
    refine ⟨[(command, error)], ?_, ?_, fun other => ?_⟩
    · rw [hsame]
      exact hdevices
    · rw [herror, Option.bind_some, gatewayAppSendRouteNack_eq hfilled, nackText, htext]
      change [some text] = [nackText (command, error)]
      rw [nackText, htext]
    · rw [hsame]
      rfl
  · rw [hstep] at hret
    have hok : (gatewayMachine.step devices call).2.code = .ok := by rw [hret]; rfl
    have hcommands : (gatewayMachine.step devices call).2.commands = [] := by rw [hret]; rfl
    refine ⟨[], hdevices.step call.toDeviceCall, ?_, fun other => ?_⟩
    · rw [hok]
      rfl
    · have hother := hbalance other
      have haccepted : (acceptedAt other.targetNode.toCStr
          (call, (gatewayMachine.step devices call).2)).count other = [command].count other := by
        rw [acceptedAt.eq_def, if_pos hok]
        change (if _ then [command] else []).count other = _
        split_ifs with htarget
        · rfl
        · -- a command for another node is another command
          have hdistinct : command ≠ other := fun he => htarget (by rw [he])
          rw [List.count_nil, List.count_eq_zero_of_not_mem]
          intro hmem
          exact hdistinct (List.mem_singleton.mp hmem).symm
      rw [haccepted, hcommands, List.count_nil] at hother
      rw [List.map_nil, List.count_nil]
      omega

/-! ## The whole gateway -/

/-- A gateway as its steps leave it. -/
structure GatewayState.Sound (s : GatewayState) : Prop where
  devices : s.devices.Sound
  workers : ∀ worker ∈ s.workers, worker.Sound

/-- **One step of the gateway**: the commands that were somewhere, and the one that has
come in, are somewhere, or are answered for. -/
theorem gatewayStep_account {s : GatewayState} (h : s.Sound) (input : GatewayInput) :
    ∃ answered : List (FrameCommand × CharBuf 32),
      (gatewayStep s input).1.Sound ∧
      (gatewayStep s input).2.map (fun attempt => some attempt.text) = answered.map nackText ∧
      ∀ command : FrameCommand,
        (s.devices.pending command.targetNode.toCStr).count command + s.held.count command +
            s.written.count command + (acceptedCommand input).count command =
          ((gatewayStep s input).1.devices.pending command.targetNode.toCStr).count command +
            (gatewayStep s input).1.held.count command +
            (gatewayStep s input).1.written.count command +
            (answered.map Prod.fst).count command := by
  -- which of the threads it is
  cases input with
  | line line =>
    obtain ⟨answered, hsound, hnacks, hbalance⟩ := gatewayAppOnTcpLine_account h.devices line
    refine ⟨answered, ⟨hsound, h.workers⟩, ?_, fun command => ?_⟩
    · rw [← hnacks]
      change List.map _ (List.map _ _) = _
      rw [List.map_map]
      rfl
    · have hcommand := hbalance command
      change _ = ((gatewayAppOnTcpLine s.devices line).1.pending
        command.targetNode.toCStr).count command + s.held.count command +
          s.written.count command + _
      omega
  | connected transport deviceFd threadId =>
    refine ⟨[], ⟨h.devices, fun worker hmem => ?_⟩, rfl, fun command => ?_⟩
    · rcases List.mem_append.mp hmem with hmem | hmem
      · exact h.workers worker hmem
      · rw [List.mem_singleton.mp hmem]
        exact Worker.connected_sound transport deviceFd threadId
    · -- a connection just made holds nothing and has written nothing
      have hheld : (gatewayStep s (.connected transport deviceFd threadId)).1.held = s.held := by
        change (s.workers ++ [_]).flatMap Worker.held = _
        rw [List.flatMap_append]
        exact List.append_nil _
      have hwritten :
          (gatewayStep s (.connected transport deviceFd threadId)).1.written = s.written := by
        change (s.workers ++ [_]).flatMap Worker.written = _
        rw [List.flatMap_append]
        exact List.append_nil _
      rw [hheld, hwritten]
      rfl
  | worker i input =>
    cases hworker : s.workers[i]? with
    | none =>
      have hsame : gatewayStep s (.worker i input) = (s, []) := by
        rw [gatewayStep.eq_def]
        simp only [hworker]
      rw [hsame]
      exact ⟨[], h, rfl, fun _ => rfl⟩
    | some worker =>
      obtain ⟨answered, haccounts⟩ :=
        workerStep_account h.devices (h.workers worker (List.mem_of_getElem? hworker)) input
      have hstep : gatewayStep s (.worker i input) =
          (⟨(workerStep s.devices worker input).devices,
            s.workers.set i (workerStep s.devices worker input).worker⟩,
            (pushedBy (workerStep s.devices worker input).effects).map .queued) := by
        rw [gatewayStep.eq_def]
        simp only [hworker]
      rw [hstep]
      refine ⟨answered, ⟨haccounts.devices_sound, fun other hmem => ?_⟩, ?_, fun command => ?_⟩
      · rcases List.mem_or_eq_of_mem_set hmem with hmem | rfl
        · exact h.workers other hmem
        · exact haccounts.worker_sound
      · rw [← haccounts.nacks, List.map_map]
        rfl
      · have hbalance := haccounts.balance command
        have hheld := Lists.count_flatMap_set Worker.held hworker
          (workerStep s.devices worker input).worker command
        have hwritten := Lists.count_flatMap_set Worker.written hworker
          (workerStep s.devices worker input).worker command
        dsimp only [GatewayState.held, GatewayState.written, acceptedCommand]
        rw [List.count_nil]
        omega

/-- **Every command has one fate.** In any run of the gateway, whatever the connections,
their descriptors and threads, and whatever the order of the steps: a command that was
accepted, as often as it was, is queued for its target, or held by a worker that has
taken it and not written it, or written whole by one, or answered for, and only one of
these. The answers are the NACKs attempted, in order, each with the target and the
sequence of its command. A worker writes, of the commands it has itself taken, the text
on its transport. -/
theorem command_has_one_fate (inputs : List GatewayInput) :
    let s := gatewaySystem.state inputs
    let trace := gatewaySystem.trace inputs
    ∃ answered : List (FrameCommand × CharBuf 32),
      (nackAttempts trace).map (fun attempt => some attempt.text) = answered.map nackText ∧
      (∀ command : FrameCommand, (acceptedCommands trace).count command =
        (s.devices.pending command.targetNode.toCStr).count command + s.held.count command +
          s.written.count command + (answered.map Prod.fst).count command) ∧
      (∀ nodeId, ∀ command ∈ s.devices.pending nodeId, command.targetNode.toCStr = nodeId) ∧
      ∀ worker ∈ s.workers, worker.Sound := by
  intro s trace
  have hrun : s.Sound ∧ ∃ answered : List (FrameCommand × CharBuf 32),
      (nackAttempts trace).map (fun attempt => some attempt.text) = answered.map nackText ∧
      ∀ command : FrameCommand, (acceptedCommands trace).count command =
        (s.devices.pending command.targetNode.toCStr).count command + s.held.count command +
          s.written.count command + (answered.map Prod.fst).count command := by
    refine gatewaySystem.trace_induction (P := fun trace s => s.Sound ∧
      ∃ answered : List (FrameCommand × CharBuf 32),
        (nackAttempts trace).map (fun attempt => some attempt.text) = answered.map nackText ∧
        ∀ command : FrameCommand, (acceptedCommands trace).count command =
          (s.devices.pending command.targetNode.toCStr).count command + s.held.count command +
            s.written.count command + (answered.map Prod.fst).count command) ?_ ?_ inputs
    · exact ⟨⟨deviceManagerInit_sound, nofun⟩, [], rfl, fun _ => rfl⟩
    rintro tr s input ⟨hsound, answered, hnacks, hbalance⟩
    obtain ⟨more, hsound', hnacks', hbalance'⟩ := gatewayStep_account hsound input
    refine ⟨hsound', answered ++ more, ?_, fun command => ?_⟩
    · rw [nackAttempts, List.flatMap_append, List.map_append, List.map_append, ← hnacks,
        ← hnacks']
      simp [nackAttempts, gatewaySystem]
    · have hbefore := hbalance command
      have hstep := hbalance' command
      rw [acceptedCommands, List.flatMap_append, List.count_append, List.map_append,
        List.count_append]
      change (acceptedCommands tr).count command + (acceptedCommand input ++ []).count command = _
      rw [List.append_nil]
      change _ = ((gatewayStep s input).1.devices.pending _).count command +
        (gatewayStep s input).1.held.count command +
          (gatewayStep s input).1.written.count command + _
      omega
  obtain ⟨hsound, answered, hnacks, hbalance⟩ := hrun
  exact ⟨answered, hnacks, hbalance, fun nodeId command hmem =>
    hsound.devices.targetNode_of_pending hmem, hsound.workers⟩

end SmartGateway
