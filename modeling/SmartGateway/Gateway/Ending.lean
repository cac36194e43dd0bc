import SmartGateway.Gateway.Leaving
import SmartGateway.Gateway.Release

/-!
# The gateway can always end

From wherever the signal finds the threads there is a way on which `gateway_loop_run` returns:
none waits for another that waits for it. It goes to the way out of its loop first; at each call
there that waits, the threads waited for come out of the queue, which is shut down, and out of
their loops.
-/

namespace SmartGateway

namespace Gateway

variable {s : Gateway}

/-! ## What the other threads leave alone -/

/-- `gateway_loop_run` is where it was, and the flag as it was. -/
structure Beside (s s' : Gateway) : Prop where
  place : s'.place = s.place
  running : s'.running = s.running

theorem beside_step (s : Gateway) (t : GatewayThread) (e : ThreadEvent) :
    s.Beside (s.step t e) := by
  unfold Gateway.step
  split
  · exact ⟨rfl, rfl⟩
  · exact ⟨rfl, rfl⟩

theorem beside_pushMove (s : Gateway) (t : GatewayThread)
    (move : GatewayMessage → Move GatewayThread QueueCall) : s.Beside (s.pushMove t move) := by
  obtain ⟨queue, pushes, heq, -⟩ := s.exists_pushMove t move
  rw [heq]
  exact ⟨rfl, rfl⟩

theorem beside_serverStep (s : Gateway) (e : LinkEvent) (picks : List ℕ) :
    s.Beside (s.serverStep e picks) := by
  obtain ⟨queue, threads, link, heq, -, -⟩ := s.exists_serverStep e picks
  rw [heq]
  exact ⟨rfl, rfl⟩

theorem beside_wifiStep (s : Gateway) (i : ℕ) (e : WifiEvent) : s.Beside (s.wifiStep i e) := by
  obtain ⟨e', heq⟩ | ⟨wifi, group, closed, -, heq⟩ := s.wifiStep_cases i e
  · rw [heq]
    exact s.beside_step _ _
  · rw [heq]
    exact ⟨rfl, rfl⟩

/-- What a call of `gateway_loop_run` leaves alone: it may make a WiFi worker. -/
structure Keeps (s s' : Gateway) : Prop where
  running : s'.running = s.running
  workers : (s'.threads = s.threads ∧ s'.wifi = s.wifi) ∨ ∃ fd threadId w,
    s'.threads = (threadStep s.threads (.accepted fd threadId)).1 ∧ s'.wifi = s.wifi ++ [w]

/-- A call that makes no worker. -/
theorem Keeps.same {s' : Gateway} (hrunning : s'.running = s.running)
    (hthreads : s'.threads = s.threads) (hwifi : s'.wifi = s.wifi) : s.Keeps s' :=
  ⟨hrunning, .inl ⟨hthreads, hwifi⟩⟩

theorem keeps_cleanup (s : Gateway) (rest : MainPlace) (call : Cleanup) :
    s.Keeps (s.cleanup rest call) := by
  cases call with
  | closeListener | shutdownQueue | destroy what => exact .same rfl rfl rfl
  | joinBluetooth | joinServer =>
    rw [Gateway.cleanup]
    split <;> exact .same rfl rfl rfl
  | waitWorkers =>
    rw [Gateway.cleanup]
    split
    · exact .same rfl rfl rfl
    · dsimp only
      split <;> exact .same rfl rfl rfl

theorem keeps_mainStep (s : Gateway) (e : MainEvent) : s.Keeps (s.mainStep e) := by
  unfold Gateway.mainStep
  cases hplace : s.place <;> cases e <;> try dsimp only
  case openListener.back ok | initWorkers.back ok | initQueue.back ok | initDevices.back ok |
      createServer.back ok | createBluetooth.back ok | head.back ok | polling.polled result |
      accepting.accepted fd =>
    split <;> exact .same rfl rfl rfl
  case creating.created fd threadId =>
    split
    · exact .same rfl rfl rfl
    · exact ⟨rfl, .inr ⟨_, _, _, rfl, rfl⟩⟩
  case ending.back calls result ok =>
    cases calls with
    | nil => exact .same rfl rfl rfl
    | cons call rest => exact s.keeps_cleanup _ call
  case ending.polled calls result polled | ending.accepted calls result fd |
      ending.created calls result threadId =>
    cases calls <;> exact .same rfl rfl rfl
  -- the others leave more alone
  all_goals exact .same rfl rfl rfl

end Gateway

/-- A step of another thread. -/
theorem gatewayLoopStep_beside (s : Gateway) {e : GatewayEvent} (hsignal : e ≠ .signal)
    (hmain : ∀ e', e ≠ .main e') : s.Beside (gatewayLoopStep s e) := by
  cases e with
  | signal => exact absurd rfl hsignal
  | main e => exact absurd rfl (hmain e)
  | server e picks =>
    rw [gatewayLoopStep]
    split
    · exact s.beside_serverStep e picks
    · exact ⟨rfl, rfl⟩
  | opening fd =>
    rw [gatewayLoopStep]
    split
    · exact s.beside_step _ _
    · exact ⟨rfl, rfl⟩
  | bluetooth e =>
    rw [gatewayLoopStep]
    split
    · exact s.beside_step _ _
    · exact ⟨rfl, rfl⟩
  | wifi i e => exact s.beside_wifiStep i e
  | push t picks | resume t picks | wake t =>
    rw [gatewayLoopStep]
    exact s.beside_pushMove t _
  | wakeMain => exact ⟨rfl, rfl⟩

/-- The pushes of a thread leave all but the queue alone. -/
theorem exists_stateFrom_pushes (threadId : ℕ) (s : Gateway) {t : GatewayThread}
    {more : List GatewayEvent} (h : ∀ e ∈ more, e = .push t [] ∨ e = .resume t []) :
    ∃ queue pushes, (gatewayLoopRun threadId).stateFrom s more =
      { s with queue := queue, pushes := pushes } := by
  induction more generalizing s with
  | nil => exact ⟨s.queue, s.pushes, rfl⟩
  | cons e more ih =>
    have hone : ∃ queue pushes,
        gatewayLoopStep s e = { s with queue := queue, pushes := pushes } := by
      rcases h e List.mem_cons_self with rfl | rfl
      · obtain ⟨queue, pushes, heq, -⟩ :=
          s.exists_pushMove t fun message => .enter t (.push (some message.raw)) []
        exact ⟨queue, pushes, heq⟩
      · obtain ⟨queue, pushes, heq, -⟩ := s.exists_pushMove t fun _ => .resume t []
        exact ⟨queue, pushes, heq⟩
    obtain ⟨queue, pushes, hone⟩ := hone
    obtain ⟨queue', pushes', hmore⟩ := ih (gatewayLoopStep s e)
      fun e he => h e (List.mem_cons_of_mem _ he)
    refine ⟨queue', pushes', ?_⟩
    change (gatewayLoopRun threadId).stateFrom (gatewayLoopStep s e) more = _
    rw [hmore, hone]

/-! ## The loops behind the WiFi workers -/

/-- Each WiFi worker has its loop, and what the threads do with the devices is a run of
theirs. -/
structure Gateway.Paired (threadId : ℕ) (s : Gateway) : Prop where
  threads : (gatewayThreads threadId).Reachable s.threads
  lengths : s.wifi.length = s.threads.wifi.length

theorem length_wifi_threadStep (s : GatewayThreads) {e : ThreadEvent}
    (he : ∀ fd threadId, e ≠ .accepted fd threadId) :
    (threadStep s e).1.wifi.length = s.wifi.length := by
  cases e with
  | line line => rfl
  | opening running fd =>
    unfold threadStep
    dsimp only
    split <;> rfl
  | bluetooth e =>
    unfold threadStep
    dsimp only
    split <;> rfl
  | accepted fd threadId => exact absurd rfl (he fd threadId)
  | wifi i e =>
    unfold threadStep
    dsimp only
    split
    · rfl
    · exact List.length_set

namespace Gateway

variable {s : Gateway} {threadId : ℕ}

theorem Paired.same (h : s.Paired threadId) {s' : Gateway} (hthreads : s'.threads = s.threads)
    (hwifi : s'.wifi.length = s.wifi.length) : s'.Paired threadId :=
  ⟨hthreads ▸ h.threads, by rw [hwifi, hthreads]; exact h.lengths⟩

theorem Paired.step (h : s.Paired threadId) (t : GatewayThread) {e : ThreadEvent}
    (he : ∀ fd threadId, e ≠ .accepted fd threadId) : (s.step t e).Paired threadId := by
  unfold Gateway.step
  split
  · exact h
  · exact ⟨h.threads.step _ e, h.lengths.trans (length_wifi_threadStep s.threads he).symm⟩

theorem Paired.serverStep (h : s.Paired threadId) (e : LinkEvent) (picks : List ℕ) :
    (s.serverStep e picks).Paired threadId := by
  obtain ⟨queue, threads, link, heq, -, rfl | ⟨line, rfl⟩⟩ := s.exists_serverStep e picks
  · rw [heq]
    exact h.same rfl rfl
  · rw [heq]
    exact ⟨h.threads.step _ _, h.lengths⟩

theorem Paired.wifiStep (h : s.Paired threadId) (i : ℕ) (e : WifiEvent) :
    (s.wifiStep i e).Paired threadId := by
  obtain ⟨e', heq⟩ | ⟨wifi, group, closed, hlength, heq⟩ := s.wifiStep_cases i e
  · rw [heq]
    exact h.step _ fun _ _ => ThreadEvent.noConfusion
  · rw [heq]
    exact h.same rfl hlength

theorem Paired.mainStep (h : s.Paired threadId) (e : MainEvent) :
    (s.mainStep e).Paired threadId := by
  obtain ⟨hthreads, hwifi⟩ | ⟨fd, threadId, w, hthreads, hwifi⟩ := (s.keeps_mainStep e).workers
  · exact h.same hthreads (congrArg List.length hwifi)
  · refine ⟨hthreads ▸ h.threads.step _ _, ?_⟩
    rw [hwifi, hthreads, List.length_append, h.lengths]
    change _ = (s.threads.wifi ++ [_]).length
    rw [List.length_append]
    rfl

end Gateway

theorem gatewayLoopRun_paired {threadId : ℕ} {s : Gateway}
    (hs : (gatewayLoopRun threadId).Reachable s) : s.Paired threadId := by
  refine (gatewayLoopRun threadId).invariant (I := Gateway.Paired threadId) ⟨⟨[], rfl⟩, rfl⟩
    (fun s e h => ?_) hs
  refine gatewayLoopStep_cases h (h.same rfl rfl) h.mainStep (fun _ => h.serverStep)
    (fun _ e he => h.step .bluetooth he) h.wifiStep (fun t move _ => ?_) (h.same rfl rfl) e
  obtain ⟨queue, pushes, heq, -⟩ := s.exists_pushMove t move
  rw [heq]
  exact h.same rfl rfl

/-! ## On the way out -/

/-- The signal has come, and `gateway_loop_run` is at this call. -/
structure Gateway.EndsAt (threadId : ℕ) (place : MainPlace) (s : Gateway) : Prop where
  reachable : (gatewayLoopRun threadId).Reachable s
  here : s.place = place
  ended : s.running = false

namespace Gateway

variable {s : Gateway} {threadId : ℕ} {place : MainPlace} {call : Cleanup} {rest : List Cleanup}
  {result : ℤ}

theorem EndsAt.sound (h : s.EndsAt threadId place) : s.Sound := by
  obtain ⟨events, rfl⟩ := h.reachable
  exact gatewayLoopRun_sound threadId events

theorem EndsAt.orderly (h : s.EndsAt threadId place) : s.Orderly := by
  obtain ⟨events, rfl⟩ := h.reachable
  exact gatewayLoopRun_orderly threadId events

/-- What it is at may be called. -/
theorem EndsAt.permits (h : s.EndsAt threadId (.ending (call :: rest) result)) :
    ∃ st, s.Stands st ∧ st.Permits call := by
  obtain ⟨st, hst⟩ := h.sound.stands
  have hleads := hst.leads
  rw [h.here] at hleads
  exact ⟨st, hst, hleads.1⟩

/-- Another thread makes a step. -/
theorem EndsAt.step (h : s.EndsAt threadId place) {e : GatewayEvent} (hsignal : e ≠ .signal)
    (hmain : ∀ e', e ≠ .main e') : (gatewayLoopStep s e).EndsAt threadId place := by
  have hbeside := gatewayLoopStep_beside s hsignal hmain
  exact ⟨h.reachable.step _ e, hbeside.place.trans h.here, hbeside.running.trans h.ended⟩

/-- A thread comes out of all it has to push. -/
theorem EndsAt.pushes (h : s.EndsAt threadId (.ending (call :: rest) result))
    (hwaits : call.waits = true) (t : GatewayThread) :
    ∃ more queue pushes, (gatewayLoopRun threadId).stateFrom s more =
        { s with queue := queue, pushes := pushes } ∧ pushes t = [] ∧
      ((gatewayLoopRun threadId).stateFrom s more).EndsAt threadId
        (.ending (call :: rest) result) := by
  obtain ⟨more, hmore, hnone⟩ :=
    gatewayLoopRun_pushes_return h.orderly (h.orderly.down h.here hwaits) threadId t
  obtain ⟨queue, pushes, heq⟩ := exists_stateFrom_pushes threadId s hmore
  have hreachable := h.reachable.stateFrom more
  rw [heq] at hnone hreachable
  refine ⟨more, queue, pushes, heq, hnone, ?_⟩
  rw [heq]
  exact ⟨hreachable, h.here, h.ended⟩

/-! ### The Bluetooth worker -/

/-- A step with which it gets nearer to its end. -/
theorem EndsAt.exists_bluetooth_step (h : s.EndsAt threadId place)
    (hmade : s.bluetoothThread = .made) (hcontrol : s.threads.bluetooth.control ≠ .stopped) :
    ∃ e e', e ≠ .signal ∧ (∀ m, e ≠ .main m) ∧ gatewayLoopStep s e = s.step .bluetooth e' ∧
      (threadStep s.threads e').1.bluetooth.left < s.threads.bluetooth.left := by
  cases hbluetooth : s.threads.bluetooth.control with
  | stopped => exact absurd hbluetooth hcontrol
  | opening =>
    refine ⟨.opening none, .opening false none, GatewayEvent.noConfusion,
      fun _ => GatewayEvent.noConfusion, ?_, ?_⟩
    · rw [gatewayLoopStep, if_pos hmade, h.ended]
    · simp [threadStep, hbluetooth, BluetoothWorker.left]
  | connected c =>
    have hpaired := gatewayLoopRun_paired h.reachable
    have hgoes := gatewayThreads_current threadId hpaired.threads c hbluetooth
    refine ⟨.bluetooth c.exit, .bluetooth c.exit, GatewayEvent.noConfusion,
      fun _ => GatewayEvent.noConfusion, ?_, ?_⟩
    · rw [gatewayLoopStep, if_pos hmade, h.ended, c.exit_under]
    · have hleft : s.threads.bluetooth.left = 2 + c.left := by
        simp only [BluetoothWorker.left, hbluetooth]
      have hexit := c.left_exit s.threads.devices hgoes
      have hwent := s.threads.bluetooth.left_went (loopStep s.threads.devices c c.exit).loop
      rw [hleft]
      simp only [threadStep, hbluetooth]
      omega

/-- **The Bluetooth worker returns** where it is waited for. -/
theorem EndsAt.bluetooth (h : s.EndsAt threadId (.ending (.joinBluetooth :: rest) result)) :
    ∃ more, ((gatewayLoopRun threadId).stateFrom s more).EndsAt threadId
        (.ending (.joinBluetooth :: rest) result) ∧
      ((gatewayLoopRun threadId).stateFrom s more).bluetoothEnded = true := by
  refine Machine.exists_reaches
    (I := fun s : Gateway => s.EndsAt threadId (.ending (.joinBluetooth :: rest) result))
    (G := fun s : Gateway => s.bluetoothEnded = true)
    (fun s : Gateway =>
      2 * s.threads.bluetooth.left + if s.pushes .bluetooth = [] then 0 else 1) ?_ h
  intro s h hgoal
  by_cases hpushes : s.pushes .bluetooth = []
  · obtain ⟨st, hst, hmade⟩ := h.permits
    have hcontrol : s.threads.bluetooth.control ≠ .stopped := fun hstopped =>
      hgoal (by simp [bluetoothEnded, hstopped, hpushes])
    obtain ⟨e, e', hsignal, hmain, hstep, hleft⟩ :=
      h.exists_bluetooth_step (hst.bluetooth.trans hmade) hcontrol
    refine ⟨[e], h.step hsignal hmain, ?_⟩
    change 2 * (gatewayLoopStep s e).threads.bluetooth.left +
      (if (gatewayLoopStep s e).pushes .bluetooth = [] then 0 else 1) < _
    rw [hstep, if_pos hpushes]
    have hthreads : (s.step .bluetooth e').threads = (threadStep s.threads e').1 := by
      rw [Gateway.step, hpushes]
    rw [hthreads]
    split <;> omega
  · obtain ⟨more, queue, pushes, heq, hnone, hends⟩ := h.pushes rfl .bluetooth
    refine ⟨more, hends, ?_⟩
    rw [heq]
    dsimp only
    rw [if_pos hnone, if_neg hpushes]
    exact Nat.lt_succ_self _

/-! ### The server link -/

/-- It gets nearer to its end. -/
theorem left_serverStep (hended : s.running = false) (h : s.link.control ≠ .stopped) :
    (s.serverStep s.link.exit []).link.left < s.link.left := by
  have hlt := ServerLink.left_exit h
  cases hcontrol : s.link.control with
  | stopped => exact absurd hcontrol h
  | head connection =>
    have hexit : s.link.exit = .turn false .empty := by simp only [ServerLink.exit, hcontrol]
    rw [hexit] at hlt ⊢
    simp only [serverStep, hcontrol, hended]
    exact hlt
  | onLine c line hungUp =>
    have hexit : s.link.exit = .line deviceManagerInit := by simp only [ServerLink.exit, hcontrol]
    rw [hexit]
    simp only [serverStep, hcontrol]
    exact ServerLink.left_line hcontrol s.threads.devices
  | connecting | sending | polling | receiving | answering =>
    simp only [ServerLink.exit, hcontrol] at hlt ⊢
    simp only [serverStep, hcontrol]
    exact hlt

/-- **The server link returns** where it is waited for. -/
theorem EndsAt.server (h : s.EndsAt threadId (.ending (.joinServer :: rest) result)) :
    ∃ more, ((gatewayLoopRun threadId).stateFrom s more).EndsAt threadId
        (.ending (.joinServer :: rest) result) ∧
      ((gatewayLoopRun threadId).stateFrom s more).serverEnded = true := by
  refine Machine.exists_reaches
    (I := fun s : Gateway => s.EndsAt threadId (.ending (.joinServer :: rest) result))
    (G := fun s : Gateway => s.serverEnded = true) (fun s : Gateway => s.link.left) ?_ h
  intro s h hgoal
  obtain ⟨st, hst, hmade⟩ := h.permits
  have hcontrol : s.link.control ≠ .stopped := fun hstopped =>
    hgoal (by simp [serverEnded, hstopped])
  have hstep := h.step (e := .server s.link.exit []) GatewayEvent.noConfusion
    fun _ => GatewayEvent.noConfusion
  refine ⟨[.server s.link.exit []], hstep, ?_⟩
  change (gatewayLoopStep s (.server s.link.exit [])).link.left < _
  rw [gatewayLoopStep, if_pos (hst.server.trans hmade)]
  exact left_serverStep h.ended hcontrol

/-! ### The WiFi workers -/

/-- How far a worker is from its end, with its loop and what it has to push. -/
def workerLeft (s : Gateway) (w : WifiThread) (c : ConnectionLoop) (i : ℕ) : ℕ :=
  match w.stage with
  | .gone => 0
  | .closed => 1
  | .starting => 2
  | .looping => 2 + 2 * c.left + if s.pushes (.wifi i) = [] then 0 else 1

/-- How far the worker of this number is. -/
def wifiLeft (s : Gateway) (i : ℕ) : ℕ :=
  match s.wifi[i]?, s.threads.wifi[i]? with
  | some w, some c => s.workerLeft w c i
  | _, _ => 0

theorem wifiLeft_eq {i : ℕ} {w : WifiThread} {c : ConnectionLoop} (hw : s.wifi[i]? = some w)
    (hc : s.threads.wifi[i]? = some c) : s.wifiLeft i = s.workerLeft w c i := by
  rw [wifiLeft, hw, hc]

/-- The other workers are as they were, and there is this one. -/
structure Among (l : List WifiThread) (i : ℕ) (s : Gateway) : Prop where
  others : s.wifi.eraseIdx i = l
  lt : i < s.wifi.length

theorem Among.set {l : List WifiThread} {i : ℕ} (h : s.Among l i) {s' : Gateway} {w : WifiThread}
    (hwifi : s'.wifi = s.wifi.set i w) : s'.Among l i ∧ s'.wifi[i]? = some w := by
  refine ⟨⟨?_, ?_⟩, ?_⟩
  · rw [hwifi, List.eraseIdx_set_eq]
    exact h.others
  · rw [hwifi, List.length_set]
    exact h.lt
  · rw [hwifi]
    exact List.getElem?_set_self h.lt

/-- There is a way on by which the worker of this number gets nearer to its end. -/
def GetsOn (threadId : ℕ) (place : MainPlace) (l : List WifiThread) (i : ℕ) (s : Gateway) : Prop :=
  ∃ more, (((gatewayLoopRun threadId).stateFrom s more).EndsAt threadId place ∧
      ((gatewayLoopRun threadId).stateFrom s more).Among l i) ∧
    ((gatewayLoopRun threadId).stateFrom s more).wifiLeft i < s.wifiLeft i

section

variable {l : List WifiThread} {i : ℕ} {w : WifiThread} {c : ConnectionLoop}

theorem EndsAt.wifi (h : s.EndsAt threadId place) (e : WifiEvent) :
    (gatewayLoopStep s (.wifi i e)).EndsAt threadId place :=
  h.step (e := .wifi i e) GatewayEvent.noConfusion fun _ => GatewayEvent.noConfusion

/-- A step to another stage. -/
theorem EndsAt.getsOn_stage (h : s.EndsAt threadId place) (hamong : s.Among l i)
    (hw : s.wifi[i]? = some w) (hc : s.threads.wifi[i]? = some c) (e : WifiEvent)
    {stage : WifiStage}
    (hwifi : (gatewayLoopStep s (.wifi i e)).wifi = s.wifi.set i { w with stage })
    (hthreads : (gatewayLoopStep s (.wifi i e)).threads = s.threads)
    (hlt : (gatewayLoopStep s (.wifi i e)).workerLeft { w with stage } c i < s.workerLeft w c i) :
    s.GetsOn threadId place l i := by
  obtain ⟨hamong', hw'⟩ := hamong.set hwifi
  refine ⟨[.wifi i e], ⟨h.wifi e, hamong'⟩, ?_⟩
  change (gatewayLoopStep s (.wifi i e)).wifiLeft i < _
  rw [wifiLeft_eq hw' (hthreads ▸ hc), wifiLeft_eq hw hc]
  exact hlt

/-- A step of its loop. -/
theorem EndsAt.getsOn_loop (h : s.EndsAt threadId place) (hamong : s.Among l i)
    (hw : s.wifi[i]? = some w) (hc : s.threads.wifi[i]? = some c) (hstage : w.stage = .looping)
    (hpushes : s.pushes (.wifi i) = []) (hgoes : c.worker.control ≠ .stopped) :
    s.GetsOn threadId place l i := by
  have hexit := c.left_exit s.threads.devices hgoes
  have hloop : gatewayLoopStep s (.wifi i (.loop c.exit)) =
      s.step (.wifi i) (.wifi i c.exit) := by
    simp only [gatewayLoopStep, wifiStep, hw, hstage, h.ended, c.exit_under]
  have hwifi : (s.step (.wifi i) (.wifi i c.exit)).wifi = s.wifi := by
    rw [Gateway.step, hpushes]
  have hc' : (s.step (.wifi i) (.wifi i c.exit)).threads.wifi[i]? =
      some (loopStep s.threads.devices c c.exit).loop := by
    rw [Gateway.step, hpushes]
    simp only [threadStep, hc]
    exact List.getElem?_set_self (List.getElem?_eq_some_iff.mp hc).1
  refine ⟨[.wifi i (.loop c.exit)], ⟨h.wifi _, ?_⟩, ?_⟩
  · change (gatewayLoopStep s (.wifi i (.loop c.exit))).Among l i
    rw [hloop]
    exact ⟨hwifi ▸ hamong.others, hwifi ▸ hamong.lt⟩
  · change (gatewayLoopStep s (.wifi i (.loop c.exit))).wifiLeft i < _
    rw [hloop, wifiLeft_eq (hwifi ▸ hw) hc', wifiLeft_eq hw hc]
    simp only [workerLeft, hstage, hpushes]
    split <;> simp only [if_true] <;> omega

/-- It comes out of what it has to push. -/
theorem EndsAt.getsOn_pushes (h : s.EndsAt threadId (.ending (call :: rest) result))
    (hwaits : call.waits = true) (hamong : s.Among l i) (hw : s.wifi[i]? = some w)
    (hc : s.threads.wifi[i]? = some c) (hstage : w.stage = .looping)
    (hpushes : s.pushes (.wifi i) ≠ []) :
    s.GetsOn threadId (.ending (call :: rest) result) l i := by
  obtain ⟨more, queue, pushes, heq, hnone, hends⟩ := h.pushes hwaits (.wifi i)
  refine ⟨more, ⟨hends, ?_⟩, ?_⟩
  · rw [heq]
    exact ⟨hamong.others, hamong.lt⟩
  · have hleft : wifiLeft { s with queue := queue, pushes := pushes } i =
        workerLeft { s with queue := queue, pushes := pushes } w c i := wifiLeft_eq hw hc
    rw [heq, hleft, wifiLeft_eq hw hc]
    simp only [workerLeft, hstage, if_pos hnone, if_neg hpushes]
    omega

/-- **A WiFi worker gets nearer to its end.** -/
theorem EndsAt.getsOn (h : s.EndsAt threadId (.ending (call :: rest) result))
    (hwaits : call.waits = true) (hamong : s.Among l i) (hw : s.wifi[i]? = some w)
    (hgone : w.stage ≠ .gone) : s.GetsOn threadId (.ending (call :: rest) result) l i := by
  have hi : i < s.threads.wifi.length := (gatewayLoopRun_paired h.reachable).lengths ▸ hamong.lt
  obtain ⟨c, hc⟩ : ∃ c, s.threads.wifi[i]? = some c := ⟨_, List.getElem?_eq_getElem hi⟩
  cases hstage : w.stage with
  | gone => exact absurd hstage hgone
  | closed =>
    have hremove : gatewayLoopStep s (.wifi i .remove) =
        { s.setWifi i w .gone with group := wifiWorkerGroupRemove s.group } := by
      simp only [gatewayLoopStep, wifiStep, hw, hstage]
    refine h.getsOn_stage hamong hw hc .remove (by rw [hremove]; rfl) (by rw [hremove]; rfl) ?_
    simp [workerLeft, hstage]
  | starting =>
    have hclose : gatewayLoopStep s (.wifi i (.nonblocking false)) = s.closeClient i w := by
      simp [gatewayLoopStep, wifiStep, hw, hstage]
    refine h.getsOn_stage hamong hw hc (.nonblocking false) (by rw [hclose]; rfl)
      (by rw [hclose]; rfl) ?_
    simp [workerLeft, hstage]
  | looping =>
    by_cases hpushes : s.pushes (.wifi i) = []
    · by_cases hstopped : c.worker.control = .stopped
      · have hended : s.loopEnded i = true := by
          simp only [loopEnded, hc, hpushes, hstopped]
        have hclose : gatewayLoopStep s (.wifi i .close) = s.closeClient i w := by
          simp [gatewayLoopStep, wifiStep, hw, hstage, hended]
        refine h.getsOn_stage hamong hw hc .close (by rw [hclose]; rfl) (by rw [hclose]; rfl) ?_
        simp only [workerLeft, hstage]
        omega
      · exact h.getsOn_loop hamong hw hc hstage hpushes hstopped
    · exact h.getsOn_pushes hwaits hamong hw hc hstage hpushes

end

/-- **A WiFi worker goes** where the workers are waited for. -/
theorem EndsAt.worker (h : s.EndsAt threadId (.ending (.waitWorkers :: rest) result)) {i : ℕ}
    (hi : i < s.wifi.length) :
    ∃ more, (((gatewayLoopRun threadId).stateFrom s more).EndsAt threadId
          (.ending (.waitWorkers :: rest) result) ∧
        ((gatewayLoopRun threadId).stateFrom s more).Among (s.wifi.eraseIdx i) i) ∧
      ∃ w, ((gatewayLoopRun threadId).stateFrom s more).wifi[i]? = some w ∧ w.stage = .gone := by
  refine Machine.exists_reaches
    (I := fun s' : Gateway => s'.EndsAt threadId (.ending (.waitWorkers :: rest) result) ∧
      s'.Among (s.wifi.eraseIdx i) i)
    (G := fun s' : Gateway => ∃ w, s'.wifi[i]? = some w ∧ w.stage = .gone)
    (fun s' : Gateway => s'.wifiLeft i) ?_ ⟨h, rfl, hi⟩
  rintro s' ⟨hends, hamong⟩ hgoal
  obtain ⟨w, hw⟩ : ∃ w, s'.wifi[i]? = some w := ⟨_, List.getElem?_eq_getElem hamong.lt⟩
  exact hends.getsOn rfl hamong hw fun hgone => hgoal ⟨w, hw, hgone⟩

/-- All of them go. -/
theorem EndsAt.workers (h : s.EndsAt threadId (.ending (.waitWorkers :: rest) result)) :
    ∃ more, ((gatewayLoopRun threadId).stateFrom s more).EndsAt threadId
        (.ending (.waitWorkers :: rest) result) ∧
      ∀ w ∈ ((gatewayLoopRun threadId).stateFrom s more).wifi, w.stage = .gone := by
  refine Machine.exists_reaches
    (I := fun s : Gateway => s.EndsAt threadId (.ending (.waitWorkers :: rest) result))
    (G := fun s : Gateway => ∀ w ∈ s.wifi, w.stage = .gone)
    (fun s : Gateway => s.wifi.countP WifiThread.counts) ?_ h
  intro s h hgoal
  obtain ⟨w, hw, hleft⟩ : ∃ w ∈ s.wifi, w.stage ≠ .gone := by
    by_contra hnone
    exact hgoal fun w hw => by_contra fun hleft => hnone ⟨w, hw, hleft⟩
  obtain ⟨i, hi, rfl⟩ := List.getElem_of_mem hw
  obtain ⟨more, ⟨hends, hamong⟩, w', hw', hgone⟩ := h.worker hi
  refine ⟨more, hends, ?_⟩
  generalize (gatewayLoopRun threadId).stateFrom s more = s' at hends hamong hw'
  obtain ⟨hi', rfl⟩ := List.getElem?_eq_some_iff.mp hw'
  have hbefore := (List.getElem_cons_eraseIdx_perm hi).countP_eq WifiThread.counts
  have hafter := (List.getElem_cons_eraseIdx_perm hi').countP_eq WifiThread.counts
  rw [List.countP_cons, if_pos (by simp [WifiThread.counts, hleft])] at hbefore
  rw [List.countP_cons, if_neg (by simp [WifiThread.counts, hgone]), hamong.others] at hafter
  omega

/-! ### `gateway_loop_run` -/

/-- **A call on the way out comes back.** -/
theorem EndsAt.comes_back (h : s.EndsAt threadId (.ending (call :: rest) result)) :
    ∃ more, ((gatewayLoopRun threadId).stateFrom s more).EndsAt threadId
        (.ending (call :: rest) result) ∧
      (gatewayLoopStep ((gatewayLoopRun threadId).stateFrom s more) (.main (.back true))).place =
        .ending rest result := by
  have hback : ∀ s' : Gateway, s'.EndsAt threadId (.ending (call :: rest) result) →
      gatewayLoopStep s' (.main (.back true)) = s'.cleanup (.ending rest result) call := by
    intro s' h'
    simp only [gatewayLoopStep, Gateway.mainStep, h'.here]
  cases call with
  | closeListener | shutdownQueue | destroy what =>
    refine ⟨[], h, ?_⟩
    change (gatewayLoopStep s (.main (.back true))).place = _
    rw [hback s h]
    rfl
  | joinBluetooth =>
    obtain ⟨more, hends, hended⟩ := h.bluetooth
    refine ⟨more, hends, ?_⟩
    rw [hback _ hends, Gateway.cleanup, if_pos hended]
    rfl
  | joinServer =>
    obtain ⟨more, hends, hended⟩ := h.server
    refine ⟨more, hends, ?_⟩
    rw [hback _ hends, Gateway.cleanup, if_pos hended]
    rfl
  | waitWorkers =>
    obtain ⟨more, hends, hgone⟩ := h.workers
    -- it is woken, and finds nobody counted
    have hwoken := hends.step (e := .wakeMain) GatewayEvent.noConfusion
      fun _ => GatewayEvent.noConfusion
    refine ⟨more ++ [.wakeMain], ?_⟩
    rw [Machine.stateFrom_append]
    generalize (gatewayLoopRun threadId).stateFrom s more = s' at hends hgone hwoken ⊢
    change (gatewayLoopStep s' .wakeMain).EndsAt threadId _ ∧
      (gatewayLoopStep (gatewayLoopStep s' .wakeMain) (.main (.back true))).place = _
    have hcounts := hends.sound.counts
    have hnobody : s'.wifi.countP WifiThread.counts = 0 :=
      List.countP_eq_zero.mpr fun w hw => by simp [WifiThread.counts, hgone w hw]
    have hzero : s'.group.activeWorkers = 0 := by
      rw [hcounts, hnobody, hends.here]
      rfl
    refine ⟨hwoken, ?_⟩
    rw [hback _ hwoken]
    simp [Gateway.cleanup, gatewayLoopStep, wifiWorkerGroupWait, hzero, Gateway.goTo]

end Gateway

/-- How far `gateway_loop_run` is from its end. -/
def MainPlace.left : MainPlace → ℕ
  | .openListener | .initWorkers | .initQueue | .initDevices | .createServer | .createBluetooth |
    .head => 9
  | .polling | .accepting | .discarding _ false | .removing => 10
  | .discarding _ true => 11
  | .creating _ => 12
  | .adding _ => 13
  | .allocating _ => 14
  | .ending calls _ => calls.length

/-- **`gateway_loop_run` gets nearer to its end.** -/
theorem exists_main_step {threadId : ℕ} {s : Gateway} (hs : (gatewayLoopRun threadId).Reachable s)
    (hended : s.running = false) (hnot : ∀ result, s.place ≠ .ending [] result) :
    ∃ more, ((gatewayLoopRun threadId).stateFrom s more).running = false ∧
      ((gatewayLoopRun threadId).stateFrom s more).place.left < s.place.left := by
  have hgoes : ∀ e, (s.mainStep e).place.left < s.place.left →
      ∃ more, ((gatewayLoopRun threadId).stateFrom s more).running = false ∧
        ((gatewayLoopRun threadId).stateFrom s more).place.left < s.place.left := fun e hlt =>
    ⟨[.main e], (s.keeps_mainStep e).running.trans hended, hlt⟩
  cases hplace : s.place with
  | openListener | initWorkers | initQueue | initDevices | createServer | createBluetooth =>
    rw [hplace] at hgoes
    exact hgoes (.back false) (by simp [Gateway.mainStep, hplace, Gateway.goTo, MainPlace.left])
  | head =>
    rw [hplace] at hgoes
    refine hgoes (.back true) ?_
    simp [Gateway.mainStep, hplace, hended, Gateway.goTo, MainPlace.left]
  | polling =>
    rw [hplace] at hgoes
    refine hgoes (.polled .interrupted) ?_
    simp [Gateway.mainStep, hplace, Gateway.goTo, MainPlace.left]
  | accepting =>
    rw [hplace] at hgoes
    refine hgoes (.accepted none) ?_
    simp [Gateway.mainStep, hplace, Gateway.goTo, MainPlace.left]
  | creating fd =>
    rw [hplace] at hgoes
    refine hgoes (.created none) ?_
    simp [Gateway.mainStep, hplace, Gateway.goTo, MainPlace.left]
  | allocating fd | adding fd | removing =>
    rw [hplace] at hgoes
    refine hgoes (.back false) ?_
    simp [Gateway.mainStep, hplace, Gateway.goTo, MainPlace.left]
  | discarding fd counted =>
    rw [hplace] at hgoes
    refine hgoes (.back true) ?_
    cases counted <;> simp [Gateway.mainStep, hplace, Gateway.goTo, MainPlace.left]
  | ending calls result =>
    cases calls with
    | nil => exact absurd hplace (hnot result)
    | cons call rest =>
      have hends : s.EndsAt threadId (.ending (call :: rest) result) := ⟨hs, hplace, hended⟩
      obtain ⟨more, hends, hback⟩ := hends.comes_back
      refine ⟨more ++ [.main (.back true)], ?_⟩
      rw [Machine.stateFrom_append]
      refine ⟨(Gateway.keeps_mainStep _ _).running.trans hends.ended, ?_⟩
      change (gatewayLoopStep _ (.main (.back true))).place.left < _
      rw [hback]
      exact Nat.lt_succ_self _

/-- **The gateway can always end.** In every state that any run of all its threads reaches,
whatever is pushed, sent, read or waited for in it, there is a way on, with the signal, on which
`gateway_loop_run` returns: no thread is where it could never leave, and no two wait for each
other. -/
theorem gateway_can_end (threadId : ℕ) (events : List GatewayEvent) :
    ∃ more result,
      ((gatewayLoopRun threadId).state (events ++ more)).place = .ending [] result := by
  have hsignal : (gatewayLoopStep ((gatewayLoopRun threadId).state events) .signal).running =
      false := rfl
  obtain ⟨more, -, result, hplace⟩ := Machine.exists_reaches (M := gatewayLoopRun threadId)
    (I := fun s : Gateway => (gatewayLoopRun threadId).Reachable s ∧ s.running = false)
    (G := fun s : Gateway => ∃ result, s.place = .ending [] result)
    (fun s : Gateway => s.place.left) (fun s hs hgoal => by
      obtain ⟨more, hended, hlt⟩ := exists_main_step hs.1 hs.2 fun result hplace =>
        hgoal ⟨result, hplace⟩
      exact ⟨more, ⟨hs.1.stateFrom more, hended⟩, hlt⟩)
    ⟨((gatewayLoopRun threadId).reachable_state events).step _ .signal, hsignal⟩
  refine ⟨.signal :: more, result, ?_⟩
  rw [← Machine.stateFrom_state]
  exact hplace

end SmartGateway
