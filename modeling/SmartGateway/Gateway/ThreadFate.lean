import SmartGateway.Gateway.ConnectionLoops
import SmartGateway.Lib.Stepwise

/-!
# The loops go by the steps of the workers

Each call of a loop is one step of the worker it has, or none: what the loop reads, gathers
and polls is not seen by the command path. So whatever the threads do, in whatever order,
the devices, the workers and the NACKs are those of a run of the gateway as it was taken
apart before; and the account of the commands holds of the loops, over every connection the
Bluetooth worker has had.
-/

namespace SmartGateway

open WriteLog

/-! ## One call of a loop -/

/-- The NACKs a call puts into the upstream queue: of the callback those of a takeover, and
not the message it passes on. -/
def loopNacks (devices : DeviceManager) (c : ConnectionLoop) (e : LoopEvent) : List Bytes :=
  match c.worker.control, c.stage, e with
  | .loop, .calling input _, .called now =>
    match input.message? with
    | none => []
    | some m => pushedBy (gatewayAppTouchDevice devices c.worker.context c.worker.threadId now
        m.nodeId.toCStr).2.effects
  | _, _, _ => pushedBy (loopStep devices c e).effects

/-- The message a call passes on: if it is let through, and its line fits the buffer it is
built in. -/
def loopPasses (devices : DeviceManager) (c : ConnectionLoop) (e : LoopEvent) :
    List UplinkMessage :=
  match c.worker.control, c.stage, e with
  | .loop, .calling input _, .called now =>
    match input.message? with
    | none => []
    | some m =>
      if (gatewayAppTouchDevice devices c.worker.context c.worker.threadId now
          m.nodeId.toCStr).1 = true ∧ (m.line [Ascii.lf]).length < 256 then
        [m]
      else
        []
  | _, _, _ => []

/-- What a call of a loop is to its worker. -/
inductive LoopMove (devices : DeviceManager) (c : ConnectionLoop) (nacks : List Bytes) :
    LoopResult → Prop
  /-- It is nothing to it. -/
  | unseen (result : LoopResult) : result.devices = devices → result.loop.worker = c.worker →
      nacks = [] → LoopMove devices c nacks result
  /-- It is a step. -/
  | step (result : LoopResult) (input : WorkerInput) :
      result.devices = (workerStep devices c.worker input).devices →
      result.loop.worker = (workerStep devices c.worker input).worker →
      nacks = pushedBy (workerStep devices c.worker input).effects →
      LoopMove devices c nacks result

/-- The callback is a message to the worker, if it decodes one. -/
theorem gatewayAppForward_touch (devices : DeviceManager) (context : UpstreamContext)
    (threadId : ℕ) (now : ℤ) (m : UplinkMessage) :
    let forwarded := gatewayAppForward devices context threadId now m
    let touched := (gatewayAppTouchDevice devices context threadId now m.nodeId.toCStr).2
    forwarded.devices = touched.devices ∧ forwarded.context = touched.context := by
  intro forwarded touched
  simp only [forwarded, touched, gatewayAppForward]
  split
  · exact ⟨rfl, rfl⟩
  · split <;> exact ⟨rfl, rfl⟩

/-- The attempt at a command, on the transport there is. -/
theorem workerStep_trySend (devices : DeviceManager) {worker : Worker}
    (h : worker.control = .loop) :
    workerStep devices worker .trySend =
      match worker.context.transport with
      | .wifi => wifiClientTrySendCommand devices worker
      | .bluetooth => bluetoothWorkerTrySendCommand devices worker := by
  cases worker
  subst h
  rfl

/-- **Each call of a loop is a step of its worker, or nothing to it.** -/
theorem loopStep_move (devices : DeviceManager) (c : ConnectionLoop) (e : LoopEvent) :
    LoopMove devices c (loopNacks devices c e) (loopStep devices c e) := by
  unfold loopNacks loopStep
  split
  · -- the callback
    rename_i input hungUp now hcontrol hstage
    obtain ⟨⟨context, threadId, control, taken, writes⟩, stage, intake, received, handed⟩ := c
    obtain rfl : control = .loop := hcontrol
    obtain rfl : stage = .calling input hungUp := hstage
    have heq := gatewayAppOnUplink_eq devices context threadId now input
    dsimp only
    cases hmessage : input.message? with
    | none =>
      simp only [hmessage] at heq
      refine .unseen _ (by rw [heq]) ?_ rfl
      rw [ConnectionLoop.feed_worker, heq]
    | some m =>
      simp only [hmessage] at heq
      obtain ⟨hdevices, hcontext⟩ := gatewayAppForward_touch devices context threadId now m
      refine .step _ (.message m.nodeId.toCStr now) ?_ ?_ rfl
      · rw [heq, hdevices]
        rfl
      · rw [ConnectionLoop.feed_worker, heq, hcontext]
        rfl
  · rename_i hcall
    split
    · -- the head of the loop
      rename_i running hcontrol hstage
      split
      · exact .unseen _ rfl rfl rfl
      · have htry := workerStep_trySend devices hcontrol
        cases htransport : c.worker.context.transport with
        | wifi =>
          rw [htransport] at htry
          refine .step _ .trySend ?_ ?_ ?_
          all_goals
            rw [htry]
            rfl
        | bluetooth =>
          rw [htransport] at htry
          refine .step _ .trySend ?_ ?_ ?_
          all_goals
            rw [htry]
            rfl
    · rename_i command w turn hcontrol
      refine .step _ (.send turn) ?_ ?_ ?_
      all_goals
        rw [workerStep.eq_def, hcontrol]
        rfl
    · exact .unseen _ rfl (c.polled_worker _) rfl
    · exact .unseen _ rfl (c.read_worker _ _) rfl
    · rename_i input hungUp now hcontrol hstage
      exact absurd rfl (hcall input hungUp now hcontrol hstage)
    · rename_i hcontrol hstage
      refine .step _ .exit ?_ ?_ ?_
      all_goals
        rw [workerStep.eq_def, hcontrol]
        rfl
    · rename_i hcontrol
      refine .step _ .exit ?_ ?_ ?_
      all_goals
        rw [workerStep.eq_def, hcontrol]
        rfl
    · exact .unseen _ rfl rfl rfl

/-- What a call puts into the upstream queue: NACKs, and the line of the message it passes
on. -/
theorem pushedBy_loopStep (devices : DeviceManager) (c : ConnectionLoop) (e : LoopEvent) :
    pushedBy (loopStep devices c e).effects =
      loopNacks devices c e ++ (loopPasses devices c e).map fun m => m.line [Ascii.lf] := by
  unfold loopNacks loopPasses
  split
  swap
  · exact (List.append_nil _).symm
  rename_i input hungUp now hcontrol hstage
  have heffects : (loopStep devices c (.called now)).effects =
      (gatewayAppOnUplink devices c.worker.context c.worker.threadId now input).effects := by
    unfold loopStep
    simp only [hcontrol, hstage]
  rw [heffects, gatewayAppOnUplink_eq]
  cases input.message? with
  | none => rfl
  | some m =>
    dsimp only
    cases hpass : (gatewayAppTouchDevice devices c.worker.context c.worker.threadId now
      m.nodeId.toCStr).1 with
    | true =>
      rw [gatewayAppForward_effects hpass]
      simp only [true_and]
      split <;> rfl
    | false =>
      have hnothing : (gatewayAppForward devices c.worker.context c.worker.threadId now m) =
          (gatewayAppTouchDevice devices c.worker.context c.worker.threadId now
            m.nodeId.toCStr).2 := by
        rw [gatewayAppForward]
        simp only [hpass, Bool.not_false, if_true]
      rw [hnothing]
      simp

/-! ## All threads -/

/-- The NACKs of a step. -/
def threadNacks (s : GatewayThreads) : ThreadEvent → List NackAttempt
  | .line line => (gatewayAppOnTcpLine s.devices line).2.toList.map .route
  | .bluetooth e =>
    match s.bluetooth.control with
    | .connected c => (loopNacks s.devices c e).map .queued
    | .opening | .stopped => []
  | .wifi i e =>
    match s.wifi[i]? with
    | none => []
    | some c => (loopNacks s.devices c e).map .queued
  | .opening .. | .accepted .. => []

/-- The commands of a step that are accepted. -/
def threadAccepted : ThreadEvent → List FrameCommand
  | .line line => acceptedCommand (.line line)
  | .opening .. | .bluetooth _ | .accepted .. | .wifi .. => []

/-- What is noted of a step: commands accepted, and NACKs attempted. -/
inductive LedgerEntry
  | accepted (command : FrameCommand)
  | answered (attempt : NackAttempt)

/-- The command that is accepted in an entry. -/
def LedgerEntry.command? : LedgerEntry → Option FrameCommand
  | accepted command => some command
  | answered _ => none

/-- The NACK that is attempted in it. -/
def LedgerEntry.attempt? : LedgerEntry → Option NackAttempt
  | accepted _ => none
  | answered attempt => some attempt

/-- A step, noted. -/
def ledger (commands : List FrameCommand) (attempts : List NackAttempt) : List LedgerEntry :=
  commands.map .accepted ++ attempts.map .answered

@[simp] theorem filterMap_command_ledger (commands : List FrameCommand)
    (attempts : List NackAttempt) :
    (ledger commands attempts).filterMap LedgerEntry.command? = commands := by
  have hcommands : LedgerEntry.command? ∘ LedgerEntry.accepted = some := rfl
  have hattempts : LedgerEntry.command? ∘ LedgerEntry.answered = fun _ => none := rfl
  rw [ledger, List.filterMap_append, List.filterMap_map, List.filterMap_map, hcommands, hattempts]
  simp

@[simp] theorem filterMap_attempt_ledger (commands : List FrameCommand)
    (attempts : List NackAttempt) :
    (ledger commands attempts).filterMap LedgerEntry.attempt? = attempts := by
  have hcommands : LedgerEntry.attempt? ∘ LedgerEntry.accepted = fun _ => none := rfl
  have hattempts : LedgerEntry.attempt? ∘ LedgerEntry.answered = some := rfl
  rw [ledger, List.filterMap_append, List.filterMap_map, List.filterMap_map, hcommands, hattempts]
  simp

/-- A step of the gateway taken apart, noted. -/
def gatewayLedger (t : GatewayState) (input : GatewayInput) : List LedgerEntry :=
  ledger (acceptedCommand input) (gatewayStep t input).2

/-- A step of the threads, noted. -/
def threadLedger (s : GatewayThreads) (e : ThreadEvent) : List LedgerEntry :=
  ledger (threadAccepted e) (threadNacks s e)

/-- The threads, and the gateway taken apart. -/
structure GoesBy (s : GatewayThreads) (t : GatewayState) : Prop where
  devices : s.devices = t.devices
  workers : (s.connections.map ConnectionLoop.worker).Perm t.workers

/-- A call of one of the connections, as steps of its worker. -/
theorem LoopMove.goesBy {s s' : GatewayThreads} {t : GatewayState} (h : GoesBy s t)
    {c : ConnectionLoop} {i : ℕ} (hi : s.connections[i]? = some c) {nacks : List Bytes}
    {result : LoopResult} (hmove : LoopMove s.devices c nacks result)
    (hdevices : s'.devices = result.devices)
    (hconnections : s'.connections = s.connections.set i result.loop) :
    ∃ js, GoesBy s' (gatewaySystem.stateFrom t js) ∧
      ledger [] (nacks.map NackAttempt.queued) = gatewaySystem.logFrom gatewayLedger t js := by
  have hworker : (s.connections.map ConnectionLoop.worker)[i]? = some c.worker := by
    rw [List.getElem?_map, hi]
    rfl
  have hset : s'.connections.map ConnectionLoop.worker =
      (s.connections.map ConnectionLoop.worker).set i result.loop.worker := by
    rw [hconnections, List.map_set]
  cases hmove with
  | unseen hsame hworker' hnacks =>
    refine ⟨[], ⟨hdevices.trans (hsame.trans h.devices), ?_⟩, by rw [hnacks]; rfl⟩
    -- the worker is put back where it was
    obtain ⟨hlt, hget⟩ := List.getElem?_eq_some_iff.mp hworker
    rw [hset, hworker', ← hget, List.set_getElem_self]
    exact h.workers
  | step input hdevices' hworker' hnacks =>
    obtain ⟨j, hj, hperm⟩ := exists_perm_set h.workers hworker
    have hstep : gatewayStep t (.worker j input) =
        (⟨(workerStep t.devices c.worker input).devices,
          t.workers.set j (workerStep t.devices c.worker input).worker⟩,
          (pushedBy (workerStep t.devices c.worker input).effects).map .queued) := by
      rw [gatewayStep.eq_def]
      simp only [hj]
    refine ⟨[.worker j input], ⟨?_, ?_⟩, ?_⟩
    · change _ = (gatewayStep t (.worker j input)).1.devices
      rw [hstep, hdevices, hdevices', h.devices]
    · change List.Perm _ (gatewayStep t (.worker j input)).1.workers
      rw [hstep, hset, hworker', h.devices]
      exact hperm _
    · change _ = ledger [] (gatewayStep t (.worker j input)).2 ++ []
      rw [hstep, hnacks, h.devices, List.append_nil]

/-- A step that is nothing to the devices and the connections. -/
theorem GoesBy.same {s s' : GatewayThreads} {t : GatewayState} (h : GoesBy s t)
    (hdevices : s'.devices = s.devices) (hconnections : s'.connections = s.connections) :
    ∃ js, GoesBy s' (gatewaySystem.stateFrom t js) ∧
      ledger [] [] = gatewaySystem.logFrom gatewayLedger t js :=
  ⟨[], ⟨hdevices.trans h.devices, by rw [hconnections]; exact h.workers⟩, rfl⟩

/-- A connection is made. -/
theorem GoesBy.connects {s s' : GatewayThreads} {t : GatewayState} (h : GoesBy s t)
    (transport : DeviceTransport) (deviceFd : ℤ) (threadId : ℕ) (intake : Intake)
    (hdevices : s'.devices = s.devices)
    (hconnections : s'.connections.Perm
      (s.connections ++ [.start transport deviceFd threadId intake])) :
    ∃ js, GoesBy s' (gatewaySystem.stateFrom t js) ∧
      ledger [] [] = gatewaySystem.logFrom gatewayLedger t js := by
  refine ⟨[.connected transport deviceFd threadId], ⟨hdevices.trans h.devices, ?_⟩, rfl⟩
  refine (hconnections.map ConnectionLoop.worker).trans ?_
  rw [List.map_append]
  exact h.workers.append_right _

/-- **One call of any thread.** -/
theorem GoesBy.step {s : GatewayThreads} {t : GatewayState} (h : GoesBy s t) (e : ThreadEvent) :
    ∃ js, GoesBy (threadStep s e).1 (gatewaySystem.stateFrom t js) ∧
      threadLedger s e = gatewaySystem.logFrom gatewayLedger t js := by
  cases e with
  | line line =>
    refine ⟨[.line line], ⟨?_, h.workers⟩, ?_⟩
    · change (gatewayAppOnTcpLine s.devices line).1 = (gatewayAppOnTcpLine t.devices line).1
      rw [h.devices]
    · change _ = ledger _ ((gatewayAppOnTcpLine t.devices line).2.toList.map .route) ++ []
      rw [List.append_nil, ← h.devices]
      rfl
  | opening running fd =>
    unfold threadStep
    change ∃ js, _ ∧ ledger [] [] = _
    dsimp only
    split
    · rename_i hcontrol
      refine h.same rfl ?_
      simp only [GatewayThreads.connections, BluetoothWorker.current, hcontrol]
    · rename_i fd hcontrol
      refine h.connects .bluetooth fd s.bluetooth.threadId
        (.frames (frameParserReset s.bluetooth.parser) []) rfl ?_
      simp only [GatewayThreads.connections, BluetoothWorker.current, BluetoothWorker.opened,
        hcontrol, List.append_nil, List.append_assoc]
      exact List.perm_append_comm.append_left _
    · exact h.same rfl rfl
  | bluetooth e =>
    rw [threadLedger, threadAccepted, threadStep, threadNacks]
    cases hcontrol : s.bluetooth.control with
    | opening | stopped => exact h.same rfl rfl
    | connected c =>
      have hcurrent : s.bluetooth.current = [c] := by rw [BluetoothWorker.current, hcontrol]
      have hi : s.connections[s.bluetooth.closed.length]? = some c := by
        rw [GatewayThreads.connections, hcurrent, List.append_assoc,
          List.getElem?_append_right (le_refl _), Nat.sub_self]
        rfl
      refine (loopStep_move s.devices c e).goesBy h hi rfl ?_
      change (s.bluetooth.went _).closed ++ (s.bluetooth.went _).current ++ s.wifi = _
      rw [BluetoothWorker.connections_went, GatewayThreads.connections, hcurrent,
        List.append_assoc, List.append_assoc, List.set_append_right _ _ (le_refl _), Nat.sub_self]
      rfl
  | accepted fd threadId =>
    refine h.connects .wifi fd threadId (.lines []) rfl ?_
    change (s.bluetooth.closed ++ s.bluetooth.current ++ (s.wifi ++ [_])).Perm _
    rw [← List.append_assoc]
    exact .refl _
  | wifi i e =>
    rw [threadLedger, threadAccepted, threadStep, threadNacks]
    cases hwifi : s.wifi[i]? with
    | none => exact h.same rfl rfl
    | some c =>
      have hi : s.connections[(s.bluetooth.closed ++ s.bluetooth.current).length + i]? =
          some c := by
        rw [GatewayThreads.connections, List.getElem?_append_right (Nat.le_add_right _ _),
          Nat.add_sub_cancel_left, hwifi]
      refine (loopStep_move s.devices c e).goesBy h hi rfl ?_
      change s.bluetooth.closed ++ s.bluetooth.current ++ s.wifi.set i _ = _
      rw [GatewayThreads.connections, List.set_append_right _ _ (Nat.le_add_right _ _),
        Nat.add_sub_cancel_left]

/-- **The threads go by the steps of the gateway taken apart.** -/
theorem gatewayThreads_goesBy (threadId : ℕ) (events : List ThreadEvent) :
    ∃ inputs, GoesBy ((gatewayThreads threadId).state events) (gatewaySystem.state inputs) ∧
      (gatewayThreads threadId).log threadLedger events =
        gatewaySystem.log gatewayLedger inputs := by
  have hstart : GoesBy (gatewayThreads threadId).init gatewaySystem.init := ⟨rfl, .refl _⟩
  exact Machine.stepwise hstart (fun s t e (h : GoesBy s t) => h.step e) events

/-- The account of the gateway taken apart, over its ledger. -/
theorem gatewayLedger_balance (inputs : List GatewayInput) :
    let s := gatewaySystem.state inputs
    let ledger := gatewaySystem.log gatewayLedger inputs
    s.Sound ∧ ∃ answered : List (FrameCommand × CharBuf 32),
      (ledger.filterMap LedgerEntry.attempt?).map (fun attempt => some attempt.text) =
        answered.map nackText ∧
      ∀ command : FrameCommand, (ledger.filterMap LedgerEntry.command?).count command =
        (s.devices.pending command.targetNode.toCStr).count command + s.held.count command +
          s.written.count command + (answered.map Prod.fst).count command := by
  induction inputs using List.reverseRecOn with
  | nil => exact ⟨⟨deviceManagerInit_sound, fun _ h => absurd h List.not_mem_nil⟩, [], rfl,
      fun _ => rfl⟩
  | append_singleton inputs input ih =>
    obtain ⟨hsound, answered, hnacks, hbalance⟩ := ih
    obtain ⟨more, hsound', hnacks', hbalance'⟩ := gatewayStep_account hsound input
    rw [Machine.state_concat, Machine.log_concat]
    refine ⟨hsound', answered ++ more, ?_, fun command => ?_⟩
    · rw [List.filterMap_append, List.map_append, List.map_append, ← hnacks, ← hnacks',
        gatewayLedger, filterMap_attempt_ledger]
    · have hbefore := hbalance command
      have hstep := hbalance' command
      rw [List.filterMap_append, gatewayLedger, filterMap_command_ledger, List.count_append,
        List.map_append, List.count_append]
      change _ = ((gatewayStep _ input).1.devices.pending _).count command +
        (gatewayStep _ input).1.held.count command +
          (gatewayStep _ input).1.written.count command + _
      omega

/-! ## One fate -/

/-- The commands held in the loops. -/
def GatewayThreads.held (s : GatewayThreads) : List FrameCommand :=
  s.connections.flatMap fun c => c.worker.held

/-- The commands written over a connection that there is or was. -/
def GatewayThreads.written (s : GatewayThreads) : List FrameCommand :=
  s.connections.flatMap fun c => c.worker.written

theorem GoesBy.count_held {s : GatewayThreads} {t : GatewayState} (h : GoesBy s t)
    (command : FrameCommand) : s.held.count command = t.held.count command := by
  have hperm := h.workers.flatMap_right Worker.held
  rw [List.flatMap_map] at hperm
  exact hperm.count_eq command

theorem GoesBy.count_written {s : GatewayThreads} {t : GatewayState} (h : GoesBy s t)
    (command : FrameCommand) : s.written.count command = t.written.count command := by
  have hperm := h.workers.flatMap_right Worker.written
  rw [List.flatMap_map] at hperm
  exact hperm.count_eq command

/-- **Every command has one fate in the loops of the threads.** In any run of the Bluetooth
worker, with all its connections, of any number of WiFi workers and of the server link's
callback, whatever arrives, fails or stops short and in whatever order: a command that was
accepted, as often as it was, is queued for its target, or held by a loop that has taken it
and not written it, or was written whole by one, or is answered for with a NACK, and only one
of these. The NACKs are those put into the upstream queue besides the messages handed on, and
those sent to the server at once; each has the target and the sequence of its command. -/
theorem loops_one_fate (threadId : ℕ) (events : List ThreadEvent) :
    let s := (gatewayThreads threadId).state events
    ∃ answered : List (FrameCommand × CharBuf 32),
      ((gatewayThreads threadId).log threadNacks events).map (fun attempt => some attempt.text) =
        answered.map nackText ∧
      (∀ command : FrameCommand, (events.flatMap threadAccepted).count command =
        (s.devices.pending command.targetNode.toCStr).count command + s.held.count command +
          s.written.count command + (answered.map Prod.fst).count command) ∧
      ∀ c ∈ s.connections, c.worker.Sound := by
  intro s
  obtain ⟨inputs, hgoes, hledger⟩ := gatewayThreads_goesBy threadId events
  obtain ⟨hsound, answered, hnacks, hbalance⟩ := gatewayLedger_balance inputs
  have hattempts : (gatewaySystem.log gatewayLedger inputs).filterMap LedgerEntry.attempt? =
      (gatewayThreads threadId).log threadNacks events := by
    rw [← hledger, Machine.filterMap_log]
    simp only [threadLedger, filterMap_attempt_ledger]
  have hcommands : (gatewaySystem.log gatewayLedger inputs).filterMap LedgerEntry.command? =
      events.flatMap threadAccepted := by
    rw [← hledger, Machine.filterMap_log]
    simp only [threadLedger, filterMap_command_ledger]
    exact Machine.log_input _ _
  refine ⟨answered, by rw [← hattempts, hnacks], fun command => ?_, fun c hc => ?_⟩
  · rw [← hcommands, hbalance command, hgoes.devices, hgoes.count_held, hgoes.count_written]
  · exact hsound.workers _ (hgoes.workers.subset (List.mem_map_of_mem hc))

end SmartGateway
