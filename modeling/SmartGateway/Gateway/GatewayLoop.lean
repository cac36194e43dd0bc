import SmartGateway.Gateway.ConnectionLoops

/-!
# The gateway, from its start to its end

`gateway_loop_run` of `gateway/gateway_loop.c`, with the threads it makes and what they share:
the listener, the group that counts the WiFi workers, the queue and the devices. Everything
that happens is a call of one of the threads that comes back, or a signal; the server link, the
loops of the connections and the queue move as they do on their own. What is printed is left
out.
-/

namespace SmartGateway

/-! ## The group of the WiFi workers -/

/-- `wifi_worker_group_t`, less its mutex. Nobody but `gateway_loop_run` waits for
`all_stopped`. -/
structure WorkerGroup where
  activeWorkers : ℕ
  waiting : Bool

/-- `wifi_worker_group_add`. -/
def wifiWorkerGroupAdd (group : WorkerGroup) : WorkerGroup :=
  { group with activeWorkers := group.activeWorkers + 1 }

/-- `wifi_worker_group_remove`. -/
def wifiWorkerGroupRemove (group : WorkerGroup) : WorkerGroup :=
  let activeWorkers :=
    if group.activeWorkers > 0 then group.activeWorkers - 1 else group.activeWorkers
  ⟨activeWorkers, if activeWorkers = 0 then false else group.waiting⟩

/-- `wifi_worker_group_wait`, from its test: whether it returns. -/
def wifiWorkerGroupWait (group : WorkerGroup) : WorkerGroup × Bool :=
  if group.activeWorkers > 0 then ({ group with waiting := true }, false) else (group, true)

/-! ## What there is -/

/-- A thread of the gateway. -/
inductive GatewayThread
  | main
  | server
  | bluetooth
  | wifi (i : ℕ)
deriving DecidableEq

/-- What is made at the start and destroyed at the end. -/
inductive Shared
  | listener
  | workers
  | queue
  | devices
deriving DecidableEq

/-- What has become of it. -/
inductive Life
  | unmade
  | made
  | destroyed
deriving DecidableEq

/-- A thread that is joined at the end. -/
inductive ThreadLife
  | unmade
  | made
  | joined
deriving DecidableEq

/-- Where a WiFi worker is. -/
inductive WifiStage
  /-- At `wifi_client_set_nonblocking`. -/
  | starting
  | looping
  /-- At `wifi_worker_group_remove`, its descriptor closed. -/
  | closed
  | gone
deriving DecidableEq

/-- A WiFi worker, with its `client_fd`. -/
structure WifiThread where
  fd : ℕ
  stage : WifiStage

/-- The calls with which `gateway_loop_run` ends, early or late. -/
inductive Cleanup
  | closeListener
  | shutdownQueue
  | joinBluetooth
  | waitWorkers
  | joinServer
  | destroy (what : Shared)
deriving DecidableEq

/-- The call `gateway_loop_run` is at. -/
inductive MainPlace
  | openListener
  | initWorkers
  | initQueue
  | initDevices
  | createServer
  | createBluetooth
  | head
  | polling
  | accepting
  /-- At `malloc`. -/
  | allocating (fd : ℕ)
  | adding (fd : ℕ)
  | creating (fd : ℕ)
  /-- At `wifi_server_close` of a client that gets no worker, which may be counted already. -/
  | discarding (fd : ℕ) (counted : Bool)
  | removing
  /-- On the way out. -/
  | ending (calls : List Cleanup) (result : ℤ)

/-- What the call comes back with. -/
inductive MainEvent
  | back (ok : Bool)
  | polled (result : PollResult)
  | accepted (fd : Option ℕ)
  /-- `pthread_create` of a WiFi worker. -/
  | created (threadId : Option ℕ)

/-- What happens in a WiFi worker. -/
inductive WifiEvent
  | nonblocking (ok : Bool)
  | loop (e : LoopEvent)
  | close
  | remove

/-- What happens. -/
inductive GatewayEvent
  /-- The running flag is cleared. -/
  | signal
  | main (e : MainEvent)
  | server (e : LinkEvent) (picks : List ℕ)
  /-- `serial_port_open`. -/
  | opening (fd : Option ℕ)
  | bluetooth (e : LoopEvent)
  | wifi (i : ℕ) (e : WifiEvent)
  /-- The thread's `message_queue_push` gets the lock. -/
  | push (t : GatewayThread) (picks : List ℕ)
  /-- It was woken, and has the lock back. -/
  | resume (t : GatewayThread) (picks : List ℕ)
  /-- It wakes up though nobody woke it. -/
  | wake (t : GatewayThread)
  /-- So does `gateway_loop_run`, in `wifi_worker_group_wait`. -/
  | wakeMain

/-- The gateway. `pushes` are the messages a thread has still to push before it goes on;
`accepted` and `closed` are for the record. -/
structure Gateway where
  running : Bool
  place : MainPlace
  life : Shared → Life
  serverThread : ThreadLife
  bluetoothThread : ThreadLife
  group : WorkerGroup
  queue : Monitor.Hall GatewayThread MessageQueue QueueCall QueueCondition
  threads : GatewayThreads
  link : ServerLink
  wifi : List WifiThread
  pushes : GatewayThread → List GatewayMessage
  accepted : List ℕ
  closed : List ℕ

/-! ## The threads -/

/-- The message as `gateway_app_enqueue_json` fills it in. -/
def GatewayMessage.raw (message : GatewayMessage) : RawMessage :=
  ⟨Vector.ofFn fun i => message.data.getD i 0, message.data.length⟩

/-- The messages a callback pushes, in order. -/
def pushedMessages (effects : List UpstreamEffect) : List GatewayMessage :=
  effects.filterMap fun effect =>
    match effect with
    | .push message => some message
    | .decodeError | .bind _ => none

/-- The event with the running flag as it is. -/
def LoopEvent.under (running : Bool) : LoopEvent → LoopEvent
  | .turn _ => .turn running
  | e => e

/-- What `message_queue_try_pop` returned. -/
def popResult : Option (QueueCall × Pass QueueCondition QueueReturn) → QueuePop
  | some (_, .leave (.popped pop) _) => pop
  | _ => .empty

namespace Gateway

/-- At another call. -/
def goTo (s : Gateway) (place : MainPlace) : Gateway := { s with place }

/-- Something is made or destroyed. -/
def setLife (s : Gateway) (what : Shared) (life : Life) : Gateway :=
  { s with life := Function.update s.life what life }

/-- A thread that has to do with devices makes its step, if it has nothing to push. -/
def step (s : Gateway) (t : GatewayThread) (e : ThreadEvent) : Gateway :=
  match s.pushes t with
  | _ :: _ => s
  | [] =>
    let (threads, output) := threadStep s.threads e
    { s with
      threads
      pushes := Function.update s.pushes t (pushedMessages output.effects) }

/-- A move in the queue of a thread that has something to push: it goes on where the push
returns. -/
def pushMove (s : Gateway) (t : GatewayThread)
    (move : GatewayMessage → Move GatewayThread QueueCall) : Gateway :=
  match s.pushes t with
  | [] => s
  | message :: rest =>
    let (queue, pass) := messageQueueMonitor.move s.queue (move message)
    match pass with
    | some (_, .leave ..) => { s with queue, pushes := Function.update s.pushes t rest }
    | some (_, .park _) | none => { s with queue }

/-- A call of the server link comes back. At the head of its loop it asks the queue if there is
no message in hand; its callback for a line finds the devices as they are. -/
def serverStep (s : Gateway) (e : LinkEvent) (picks : List ℕ) : Gateway :=
  match s.link.control, e with
  | .head _, .turn _ _ =>
    if s.running && s.link.pendingMessage.isNone then
      let (queue, pass) := messageQueueMonitor.move s.queue (.enter .server (.tryPop true) picks)
      { s with queue, link := serverLinkStep s.link (.turn true (popResult pass)) }
    else
      { s with link := serverLinkStep s.link (.turn s.running .empty) }
  | .onLine _ line _, .line _ =>
    { s with
      threads := (threadStep s.threads (.line line.text)).1
      link := serverLinkStep s.link (.line s.threads.devices) }
  | _, .turn .. | _, .line _ => s
  | _, e => { s with link := serverLinkStep s.link e }

/-- A WiFi worker at another stage. -/
def setWifi (s : Gateway) (i : ℕ) (w : WifiThread) (stage : WifiStage) : Gateway :=
  { s with wifi := s.wifi.set i { w with stage } }

/-- `close(client_fd)`. -/
def closeClient (s : Gateway) (i : ℕ) (w : WifiThread) : Gateway :=
  { s.setWifi i w .closed with closed := s.closed ++ [w.fd] }

/-- The loop of a connection has ended, and all it had to push is pushed. -/
def loopEnded (s : Gateway) (i : ℕ) : Bool :=
  match s.threads.wifi[i]?, s.pushes (.wifi i) with
  | some c, [] =>
    match c.worker.control with
    | .stopped => true
    | .loop | .sending .. | .leaving => false
  | _, _ => false

/-- A call of a WiFi worker comes back. -/
def wifiStep (s : Gateway) (i : ℕ) (e : WifiEvent) : Gateway :=
  match s.wifi[i]? with
  | none => s
  | some w =>
    match w.stage, e with
    | .starting, .nonblocking ok =>
      if ok then s.setWifi i w .looping else s.closeClient i w
    | .looping, .loop e => s.step (.wifi i) (.wifi i (e.under s.running))
    | .looping, .close => if s.loopEnded i then s.closeClient i w else s
    | .closed, .remove => { s.setWifi i w .gone with group := wifiWorkerGroupRemove s.group }
    | _, _ => s

/-- The Bluetooth worker has returned. -/
def bluetoothEnded (s : Gateway) : Bool :=
  match s.threads.bluetooth.control, s.pushes .bluetooth with
  | .stopped, [] => true
  | _, _ => false

/-- The server link has returned. -/
def serverEnded (s : Gateway) : Bool :=
  match s.link.control with
  | .stopped => true
  | _ => false

/-! ## `gateway_loop_run` -/

/-- A call on the way out; the others come behind it. -/
def cleanup (s : Gateway) (rest : MainPlace) : Cleanup → Gateway
  | .closeListener => (s.setLife .listener .destroyed).goTo rest
  | .shutdownQueue =>
    { s with queue := (messageQueueMonitor.move s.queue (.enter .main .shutdown [])).1 }.goTo rest
  | .joinBluetooth =>
    if s.bluetoothEnded then { s with bluetoothThread := .joined }.goTo rest else s
  | .joinServer => if s.serverEnded then { s with serverThread := .joined }.goTo rest else s
  | .waitWorkers =>
    if s.group.waiting then s
    else
      let (group, returns) := wifiWorkerGroupWait s.group
      if returns then { s with group }.goTo rest else { s with group }
  | .destroy what => (s.setLife what .destroyed).goTo rest

/-- A call of `gateway_loop_run` comes back. -/
def mainStep (s : Gateway) (e : MainEvent) : Gateway :=
  match s.place, e with
  | .openListener, .back ok =>
    if ok then (s.setLife .listener .made).goTo .initWorkers else s.goTo (.ending [] (-1))
  | .initWorkers, .back ok =>
    if ok then (s.setLife .workers .made).goTo .initQueue
    else s.goTo (.ending [.closeListener] (-1))
  | .initQueue, .back ok =>
    if ok then (s.setLife .queue .made).goTo .initDevices
    else s.goTo (.ending [.destroy .workers, .closeListener] (-1))
  | .initDevices, .back ok =>
    if ok then (s.setLife .devices .made).goTo .createServer
    else s.goTo (.ending [.destroy .queue, .destroy .workers, .closeListener] (-1))
  | .createServer, .back ok =>
    if ok then { s with serverThread := .made }.goTo .createBluetooth
    else s.goTo (.ending
      [.destroy .queue, .destroy .workers, .destroy .devices, .closeListener] (-1))
  | .createBluetooth, .back ok =>
    if ok then { s with bluetoothThread := .made }.goTo .head
    else s.goTo (.ending
      [.shutdownQueue, .joinServer, .destroy .queue, .destroy .workers, .closeListener] (-1))
  | .head, .back _ =>
    if s.running then s.goTo .polling
    else s.goTo (.ending
      [.closeListener, .shutdownQueue, .joinBluetooth, .waitWorkers, .joinServer,
        .destroy .workers, .destroy .queue, .destroy .devices] 0)
  | .polling, .polled result =>
    match result with
    | .ready true _ => s.goTo .accepting
    | .ready false _ | .interrupted | .failed | .timedOut => s.goTo .head
  | .accepting, .accepted fd =>
    match fd with
    | none => s.goTo .head
    | some fd => { s with accepted := s.accepted ++ [fd] }.goTo (.allocating fd)
  | .allocating fd, .back ok => s.goTo (if ok then .adding fd else .discarding fd false)
  | .adding fd, .back _ => { s with group := wifiWorkerGroupAdd s.group }.goTo (.creating fd)
  | .creating fd, .created threadId =>
    match threadId with
    | none => s.goTo (.discarding fd true)
    | some threadId =>
      { s with
        threads := (threadStep s.threads (.accepted fd threadId)).1
        wifi := s.wifi ++ [WifiThread.mk fd .starting] }.goTo .head
  | .discarding fd counted, .back _ =>
    { s with closed := s.closed ++ [fd] }.goTo (if counted then .removing else .head)
  | .removing, .back _ => { s with group := wifiWorkerGroupRemove s.group }.goTo .head
  | .ending (call :: rest) result, .back _ => s.cleanup (.ending rest result) call
  | _, _ => s

end Gateway

/-- One step. -/
def gatewayLoopStep (s : Gateway) : GatewayEvent → Gateway
  | .signal => { s with running := false }
  | .main e => s.mainStep e
  | .server e picks => if s.serverThread = .made then s.serverStep e picks else s
  | .opening fd =>
    if s.bluetoothThread = .made then s.step .bluetooth (.opening s.running fd) else s
  | .bluetooth e =>
    if s.bluetoothThread = .made then s.step .bluetooth (.bluetooth (e.under s.running)) else s
  | .wifi i e => s.wifiStep i e
  | .push t picks => s.pushMove t fun message => .enter t (.push (some message.raw)) picks
  | .resume t picks => s.pushMove t fun _ => .resume t picks
  | .wake t => s.pushMove t fun _ => .wake t
  | .wakeMain => { s with group := { s.group with waiting := false } }

/-- What a thread does in the queue for the message it has to push. -/
inductive Pushing (t : GatewayThread) (message : GatewayMessage) :
    Move GatewayThread QueueCall → Prop
  | enter (picks : List ℕ) : Pushing t message (.enter t (.push (some message.raw)) picks)
  | resume (picks : List ℕ) : Pushing t message (.resume t picks)
  | wake : Pushing t message (.wake t)

/-- **One step**, by the thread that makes it. -/
theorem gatewayLoopStep_cases {P : Gateway → Prop} {s : Gateway} (hs : P s)
    (hsignal : P { s with running := false }) (hmain : ∀ e, P (s.mainStep e))
    (hserver : s.serverThread = .made → ∀ e picks, P (s.serverStep e picks))
    (hbluetooth : s.bluetoothThread = .made →
      ∀ e, (∀ fd threadId, e ≠ .accepted fd threadId) → P (s.step .bluetooth e))
    (hwifi : ∀ i e, P (s.wifiStep i e))
    (hpush : ∀ t move, (∀ message, Pushing t message (move message)) → P (s.pushMove t move))
    (hwakeMain : P { s with group := { s.group with waiting := false } }) (e : GatewayEvent) :
    P (gatewayLoopStep s e) := by
  cases e with
  | signal => exact hsignal
  | main e => exact hmain e
  | server e picks =>
    rw [gatewayLoopStep]
    split
    · rename_i hmade
      exact hserver hmade e picks
    · exact hs
  | opening fd =>
    rw [gatewayLoopStep]
    split
    · rename_i hmade
      exact hbluetooth hmade _ fun _ _ => ThreadEvent.noConfusion
    · exact hs
  | bluetooth e =>
    rw [gatewayLoopStep]
    split
    · rename_i hmade
      exact hbluetooth hmade _ fun _ _ => ThreadEvent.noConfusion
    · exact hs
  | wifi i e => exact hwifi i e
  | push t picks => exact hpush t _ fun message => .enter picks
  | resume t picks => exact hpush t _ fun message => .resume picks
  | wake t => exact hpush t _ fun message => .wake
  | wakeMain => exact hwakeMain

/-- The gateway from its start, with the thread of the Bluetooth worker. -/
def gatewayLoopRun (threadId : ℕ) : Machine Gateway GatewayEvent Unit where
  init :=
    { running := true
      place := .openListener
      life := fun _ => .unmade
      serverThread := .unmade
      bluetoothThread := .unmade
      group := ⟨0, false⟩
      queue := (messageQueueMonitor.machine GatewayThread).init
      threads := (gatewayThreads threadId).init
      link := serverLinkWorker.init
      wifi := []
      pushes := fun _ => []
      accepted := []
      closed := [] }
  step s e := (gatewayLoopStep s e, ())

end SmartGateway
