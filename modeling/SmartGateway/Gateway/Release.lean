import SmartGateway.Gateway.Shutdown
import SmartGateway.Lib.Passing

/-!
# Out of the queue before anybody is waited for

A worker that waits in `message_queue_push` for room does not look at the running flag, and
`gateway_loop_run` waits for the workers. It shuts the queue down first: where it waits for a
thread, nobody is parked in the queue any more, and whoever has something to push comes out of
it again, without anybody's help.
-/

namespace SmartGateway

/-! ## The order of the calls -/

/-- On this way out the queue is shut down before anybody is waited for. -/
def shutsFirst : List Cleanup → Bool
  | [] | .shutdownQueue :: _ => true
  | .joinBluetooth :: _ | .joinServer :: _ | .waitWorkers :: _ => false
  | .closeListener :: rest | .destroy _ :: rest => shutsFirst rest

/-- Only a thread that has something to push is in the queue, and where somebody is waited for
the queue is shut down. -/
structure Gateway.Orderly (s : Gateway) : Prop where
  queue : (messageQueueMonitor.machine GatewayThread).Reachable s.queue
  callers : ∀ t ∈ s.queue.threads, s.pushes t ≠ []
  shut : ∀ calls result, s.place = .ending calls result →
    s.queue.data.shuttingDown = true ∨ shutsFirst calls = true

namespace Gateway

variable {s : Gateway}

/-- No thread is in two calls of the queue, and where one is parked it is open. -/
theorem Orderly.awake (h : s.Orderly) : Monitor.Awake messageQueueRationed s.queue := by
  obtain ⟨moves, hmoves⟩ := h.queue
  exact hmoves ▸ messageQueueRationed.awake moves

/-- A thread with nothing to push is not in the queue. -/
theorem Orderly.not_mem_threads (h : s.Orderly) {t : GatewayThread} (ht : s.pushes t = []) :
    t ∉ s.queue.threads := fun hmem => h.callers t hmem ht

/-- A step that has to do with other things. -/
theorem Orderly.same (h : s.Orderly) {s' : Gateway} (hqueue : s'.queue = s.queue)
    (hpushes : s'.pushes = s.pushes) (hplace : s'.place = s.place) : s'.Orderly := by
  refine ⟨hqueue ▸ h.queue, fun t ht => ?_, fun calls result hat => ?_⟩
  · rw [hpushes]
    exact h.callers t (hqueue ▸ ht)
  · rw [hqueue]
    exact h.shut calls result (hplace ▸ hat)

/-- A step of a thread that has nothing to push. -/
theorem Orderly.step (h : s.Orderly) (t : GatewayThread) (e : ThreadEvent) :
    (s.step t e).Orderly := by
  unfold Gateway.step
  split
  · exact h
  · rename_i hnone
    refine ⟨h.queue, fun t' ht' => ?_, h.shut⟩
    have hne : t' ≠ t := by
      rintro rfl
      exact h.not_mem_threads hnone ht'
    change Function.update s.pushes t _ t' ≠ []
    rw [Function.update_of_ne hne]
    exact h.callers t' ht'

/-- **A move in the queue.** -/
theorem Orderly.pushMove (h : s.Orderly) {t : GatewayThread}
    {move : GatewayMessage → Move GatewayThread QueueCall}
    (hmove : ∀ message, Pushing t message (move message)) : (s.pushMove t move).Orderly := by
  unfold Gateway.pushMove
  split
  · exact h
  rename_i message rest hpushes
  have hqueue : (messageQueueMonitor.machine GatewayThread).Reachable
      (messageQueueMonitor.move s.queue (move message)).1 :=
    Machine.Reachable.step (messageQueueMonitor.machine GatewayThread) h.queue (move message)
  have hshut : ∀ calls result, s.place = .ending calls result →
      (messageQueueMonitor.move s.queue (move message)).1.data.shuttingDown = true ∨
        shutsFirst calls = true := fun calls result hplace =>
    (h.shut calls result hplace).imp_left (messageQueueRationed.closed_move · _)
  have hmoved := Monitor.move_passing messageQueueMonitor s.queue (move message)
  have hmove := hmove message
  generalize messageQueueMonitor.move s.queue (move message) = moved at hqueue hshut hmoved ⊢
  obtain ⟨queue, pass⟩ := moved
  generalize move message = m at hmoved hmove
  -- the others in the queue go on with what they have to push
  have hothers : ∀ t' ∈ s.queue.threads, t' ≠ t → Function.update s.pushes t rest t' ≠ [] := by
    intro t' ht' hne
    rw [Function.update_of_ne hne]
    exact h.callers t' ht'
  cases hmoved with
  | none hcalls => exact ⟨hqueue, fun t' ht' => h.callers t' (hcalls.mem_iff.mp ht'), hshut⟩
  | waits _ hcalls =>
    refine ⟨hqueue, fun t' ht' => ?_, hshut⟩
    rcases List.mem_cons.mp (hcalls.mem_iff.mp ht') with rfl | ht'
    · cases hmove
      simp [hpushes]
    · exact h.callers t' ht'
  | passes hnot _ hcalls =>
    refine ⟨hqueue, fun t' ht' => ?_, hshut⟩
    have hin := hcalls.mem_iff.mp ht'
    cases hmove
    exact hothers t' hin fun heq => hnot (heq ▸ hin)
  | waitsOn _ hcalls => exact ⟨hqueue, fun t' ht' => h.callers t' (hcalls.mem_iff.mp ht'), hshut⟩
  | leaves _ hcalls =>
    refine ⟨hqueue, fun t' ht' => ?_, hshut⟩
    cases hmove
    have hnodup := hcalls.nodup_iff.mp h.awake.ordered.nodup
    refine hothers t' (hcalls.mem_iff.mpr (List.mem_cons_of_mem _ ht')) fun heq => ?_
    exact (List.nodup_cons.mp hnodup).1 (heq ▸ ht')

/-- A thread whose call does not park passes through the queue. -/
theorem Orderly.enter (h : s.Orderly) {t : GatewayThread} (ht : s.pushes t = [])
    (call : QueueCall) (picks : List ℕ)
    (hcall : ∀ on, (messageQueueMonitor.pass s.queue.data call).2 ≠ .park on) :
    (messageQueueMonitor.move s.queue (.enter t call picks)).1.threads.Perm s.queue.threads ∧
      (messageQueueMonitor.move s.queue (.enter t call picks)).1.data =
        (messageQueueMonitor.pass s.queue.data call).1 := by
  have hnot := h.not_mem_threads ht
  have hcalls := Monitor.move_passing messageQueueMonitor s.queue (.enter t call picks)
  have hmoved : (messageQueueMonitor.move s.queue (.enter t call picks)).2 ≠ none := by
    rw [Monitor.move, if_neg fun hbusy => hnot (Monitor.Hall.busy_iff.mp hbusy),
      (messageQueueMonitor.passOf_eq _ _ _ _).2]
    exact Option.some_ne_none _
  generalize messageQueueMonitor.move s.queue (.enter t call picks) = moved at hcalls hmoved ⊢
  obtain ⟨queue, pass⟩ := moved
  cases hcalls with
  | none => exact absurd rfl hmoved
  | waits hpass => exact absurd (congrArg Prod.snd hpass) (hcall _)
  | passes _ hpass hperm => exact ⟨hperm, (congrArg Prod.fst hpass).symm⟩

/-- A call of the server link. -/
theorem Orderly.serverStep (h : s.Orderly) (hsound : s.Sound) (e : LinkEvent) (picks : List ℕ) :
    (s.serverStep e picks).Orderly := by
  have hnone : s.pushes .server = [] := by_contra fun hpushes => hsound.pushes .server hpushes
  obtain ⟨queue, threads, link, heq, rfl | rfl, -⟩ := s.exists_serverStep e picks
  · rw [heq]
    exact h.same rfl rfl rfl
  · -- `message_queue_try_pop` waits for nothing
    obtain ⟨hperm, hdata⟩ := h.enter hnone (.tryPop true) picks
      (messageQueueRationed.not_park_of_waitsOn rfl _)
    rw [heq]
    refine ⟨Machine.Reachable.step (messageQueueMonitor.machine GatewayThread) h.queue _,
      fun t ht => h.callers t (hperm.mem_iff.mp ht), fun calls result hplace => ?_⟩
    exact (h.shut calls result hplace).imp_left (messageQueueRationed.closed_move · _)

/-- A call of a WiFi worker is one of its loop, or brings it to another stage. -/
theorem wifiStep_cases (s : Gateway) (i : ℕ) (e : WifiEvent) :
    (∃ e', s.wifiStep i e = s.step (.wifi i) (.wifi i e')) ∨
      ∃ wifi group closed, wifi.length = s.wifi.length ∧
        s.wifiStep i e = { s with wifi := wifi, group := group, closed := closed } := by
  unfold Gateway.wifiStep
  split
  · exact .inr ⟨s.wifi, s.group, s.closed, rfl, rfl⟩
  split
  · split
    · exact .inr ⟨_, s.group, s.closed, List.length_set, rfl⟩
    · exact .inr ⟨_, s.group, _, List.length_set, rfl⟩
  · exact .inl ⟨_, rfl⟩
  · split
    · exact .inr ⟨_, s.group, _, List.length_set, rfl⟩
    · exact .inr ⟨s.wifi, s.group, s.closed, rfl, rfl⟩
  · exact .inr ⟨_, _, s.closed, List.length_set, rfl⟩
  · exact .inr ⟨s.wifi, s.group, s.closed, rfl, rfl⟩

/-- A call of a WiFi worker. -/
theorem Orderly.wifiStep (h : s.Orderly) (i : ℕ) (e : WifiEvent) : (s.wifiStep i e).Orderly := by
  obtain ⟨e', heq⟩ | ⟨wifi, group, closed, -, heq⟩ := s.wifiStep_cases i e
  · rw [heq]
    exact h.step _ _
  · rw [heq]
    exact h.same rfl rfl rfl

/-- `gateway_loop_run` at another call. -/
theorem Orderly.goTo (h : s.Orderly) {s' : Gateway} (hqueue : s'.queue = s.queue)
    (hpushes : s'.pushes = s.pushes)
    (hplace : ∀ calls result, s'.place = .ending calls result →
      s.queue.data.shuttingDown = true ∨ shutsFirst calls = true) : s'.Orderly := by
  refine ⟨hqueue ▸ h.queue, fun t ht => ?_, fun calls result hat => ?_⟩
  · rw [hpushes]
    exact h.callers t (hqueue ▸ ht)
  · rw [hqueue]
    exact hplace calls result hat

/-- **A call on the way out.** -/
theorem Orderly.cleanup (h : s.Orderly) (hsound : s.Sound) {call : Cleanup}
    {rest : List Cleanup} {result : ℤ} (hplace : s.place = .ending (call :: rest) result) :
    (s.cleanup (.ending rest result) call).Orderly := by
  have hshut := h.shut _ _ hplace
  cases call with
  | closeListener | destroy what =>
    refine h.goTo rfl rfl fun calls result' hat => ?_
    obtain ⟨rfl, -⟩ := MainPlace.ending.inj hat
    exact hshut
  | shutdownQueue =>
    have hnone : s.pushes .main = [] := by_contra fun hpushes => hsound.pushes .main hpushes
    obtain ⟨hperm, hdata⟩ := h.enter hnone .shutdown []
      (messageQueueRationed.not_park_of_waitsOn rfl _)
    refine ⟨Machine.Reachable.step (messageQueueMonitor.machine GatewayThread) h.queue _,
      fun t ht => h.callers t (hperm.mem_iff.mp ht), fun _ _ _ => .inl ?_⟩
    exact congrArg MessageQueue.shuttingDown hdata
  | joinBluetooth | joinServer =>
    have hdown : s.queue.data.shuttingDown = true := hshut.resolve_right Bool.false_ne_true
    rw [Gateway.cleanup]
    split
    · exact h.goTo rfl rfl fun _ _ _ => .inl hdown
    · exact h
  | waitWorkers =>
    have hdown : s.queue.data.shuttingDown = true := hshut.resolve_right Bool.false_ne_true
    rw [Gateway.cleanup]
    split
    · exact h
    · dsimp only
      split
      · exact h.goTo rfl rfl fun _ _ _ => .inl hdown
      · exact h.same rfl rfl rfl

/-- **A call of `gateway_loop_run`.** -/
theorem Orderly.mainStep (h : s.Orderly) (hsound : s.Sound) (e : MainEvent) :
    (s.mainStep e).Orderly := by
  have hends : ∀ {s' : Gateway} {calls : List Cleanup} {result : ℤ}, s'.queue = s.queue →
      s'.pushes = s.pushes → s'.place = .ending calls result → shutsFirst calls = true →
      s'.Orderly := by
    intro s' calls result hqueue hpushes hplace hcalls
    refine h.goTo hqueue hpushes fun calls' result' hat => .inr ?_
    obtain ⟨rfl, -⟩ := MainPlace.ending.inj (hplace.symm.trans hat)
    exact hcalls
  have hgoes : ∀ {s' : Gateway}, s'.queue = s.queue → s'.pushes = s.pushes →
      (∀ calls result, s'.place ≠ .ending calls result) → s'.Orderly :=
    fun hqueue hpushes hplace =>
      h.goTo hqueue hpushes fun calls result hat => absurd hat (hplace calls result)
  unfold Gateway.mainStep
  cases hplace : s.place <;> cases e <;> try dsimp only
  case openListener.back ok | initWorkers.back ok | initQueue.back ok | initDevices.back ok |
      createServer.back ok | createBluetooth.back ok | head.back ok =>
    split
    · exact hgoes rfl rfl (by simp [Gateway.goTo])
    · exact hends rfl rfl rfl rfl
  case polling.polled result | accepting.accepted fd | creating.created fd threadId =>
    split <;> exact hgoes rfl rfl (by simp [Gateway.goTo])
  case allocating.back fd ok | discarding.back fd counted ok =>
    refine hgoes rfl rfl fun calls result => ?_
    simp only [Gateway.goTo]
    split <;> simp
  case adding.back fd ok | removing.back ok =>
    exact hgoes rfl rfl (by simp [Gateway.goTo])
  case ending.back calls result ok =>
    cases calls with
    | nil => exact h
    | cons call rest => exact h.cleanup hsound hplace
  case ending.polled calls result polled | ending.accepted calls result fd |
      ending.created calls result threadId =>
    cases calls <;> exact h
  -- no other call comes back like this
  all_goals exact h

end Gateway

/-- **One step.** -/
theorem Gateway.Orderly.gatewayLoopStep {s : Gateway} (h : s.Orderly) (hsound : s.Sound)
    (e : GatewayEvent) : (gatewayLoopStep s e).Orderly := by
  exact gatewayLoopStep_cases h (h.same rfl rfl rfl) (h.mainStep hsound)
    (fun _ => h.serverStep hsound) (fun _ e _ => h.step .bluetooth e) h.wifiStep
    (fun t move hmove => h.pushMove hmove) (h.same rfl rfl rfl) e

/-- In every state of a run. -/
theorem gatewayLoopRun_orderly (threadId : ℕ) (events : List GatewayEvent) :
    ((gatewayLoopRun threadId).state events).Orderly := by
  have hboth := (gatewayLoopRun threadId).invariant (I := fun s => s.Sound ∧ s.Orderly)
    ⟨gatewayLoopRun_sound threadId [], ⟨[], rfl⟩, fun t ht => absurd ht List.not_mem_nil,
      fun calls result hplace => MainPlace.noConfusion hplace⟩
    (fun s e hs => ⟨hs.1.gatewayLoopStep e, hs.2.gatewayLoopStep hs.1 e⟩)
    ((gatewayLoopRun threadId).reachable_state events)
  exact hboth.2

/-! ## Out of the queue -/

/-- `gateway_loop_run` waits for a thread here. -/
def Cleanup.waits : Cleanup → Bool
  | .joinBluetooth | .joinServer | .waitWorkers => true
  | .closeListener | .shutdownQueue | .destroy _ => false

/-- Where it does, the queue is shut down. -/
theorem Gateway.Orderly.down {s : Gateway} (h : s.Orderly) {call : Cleanup} {rest : List Cleanup}
    {result : ℤ} (hplace : s.place = .ending (call :: rest) result) (hwaits : call.waits = true) :
    s.queue.data.shuttingDown = true := by
  refine (h.shut _ _ hplace).resolve_right ?_
  cases call with
  | joinBluetooth | joinServer | waitWorkers => exact Bool.false_ne_true
  | closeListener | shutdownQueue | destroy what => exact absurd hwaits Bool.false_ne_true

theorem Gateway.pushMove_of_leave {s : Gateway} {t : GatewayThread} {message : GatewayMessage}
    {rest : List GatewayMessage} (hpushes : s.pushes t = message :: rest)
    {move : GatewayMessage → Move GatewayThread QueueCall} {call : QueueCall}
    {result : QueueReturn} {notices : List (Notice QueueCondition)}
    (hleave : (messageQueueMonitor.move s.queue (move message)).2 =
      some (call, .leave result notices)) :
    s.pushMove t move =
      { s with
        queue := (messageQueueMonitor.move s.queue (move message)).1
        pushes := Function.update s.pushes t rest } := by
  rw [Gateway.pushMove, hpushes]
  dsimp only
  rw [hleave]

/-- **A push comes back** from a queue that is shut down, with the next step of its thread. -/
theorem gatewayLoopStep_push_returns {s : Gateway} (h : s.Orderly)
    (hdown : s.queue.data.shuttingDown = true) {t : GatewayThread} {message : GatewayMessage}
    {rest : List GatewayMessage} (hpushes : s.pushes t = message :: rest) :
    ∃ e, (e = .push t [] ∨ e = .resume t []) ∧ (gatewayLoopStep s e).Orderly ∧
      (gatewayLoopStep s e).queue.data.shuttingDown = true ∧
      (gatewayLoopStep s e).pushes t = rest := by
  obtain ⟨m, call, result, notices, hm, hleave⟩ :=
    h.awake.exists_leave hdown t (.push (some message.raw))
  have hstays : (messageQueueMonitor.move s.queue m).1.data.shuttingDown = true :=
    messageQueueRationed.closed_move hdown m
  rcases hm with rfl | rfl
  · refine ⟨.push t [], .inl rfl, h.pushMove fun message => .enter [], ?_⟩
    rw [gatewayLoopStep, Gateway.pushMove_of_leave hpushes hleave]
    exact ⟨hstays, Function.update_self t rest s.pushes⟩
  · refine ⟨.resume t [], .inr rfl, h.pushMove fun message => .resume [], ?_⟩
    rw [gatewayLoopStep, Gateway.pushMove_of_leave hpushes hleave]
    exact ⟨hstays, Function.update_self t rest s.pushes⟩

/-- All of them do. -/
theorem gatewayLoopRun_pushes_return {s : Gateway} (h : s.Orderly)
    (hdown : s.queue.data.shuttingDown = true) (threadId : ℕ) (t : GatewayThread) :
    ∃ more, (∀ e ∈ more, e = .push t [] ∨ e = .resume t []) ∧
      ((gatewayLoopRun threadId).stateFrom s more).pushes t = [] := by
  induction hpushes : s.pushes t generalizing s with
  | nil => exact ⟨[], fun e he => absurd he List.not_mem_nil, hpushes⟩
  | cons message rest ih =>
    obtain ⟨e, he, horderly, hdown, hrest⟩ :=
      gatewayLoopStep_push_returns h hdown hpushes
    obtain ⟨more, hmore, hnone⟩ := ih horderly hdown hrest
    exact ⟨e :: more, List.forall_mem_cons.mpr ⟨he, hmore⟩, hnone⟩

/-- **The queue is shut down before anybody is waited for.** Wherever `gateway_loop_run` waits
for the Bluetooth worker, the WiFi workers or the server link, the queue is shut down, nobody is
parked in it, and each thread has steps of its own by which it comes out of all it has to push:
none waits for room that nobody makes any more. -/
theorem released_before_waiting (threadId : ℕ) (events : List GatewayEvent) (call : Cleanup)
    (rest : List Cleanup) (result : ℤ)
    (hplace : ((gatewayLoopRun threadId).state events).place = .ending (call :: rest) result)
    (hwaits : call.waits = true) :
    ((gatewayLoopRun threadId).state events).queue.data.shuttingDown = true ∧
      ((gatewayLoopRun threadId).state events).queue.parked = [] ∧
      ∀ t, ∃ more, (∀ e ∈ more, e = .push t [] ∨ e = .resume t []) ∧
        ((gatewayLoopRun threadId).state (events ++ more)).pushes t = [] := by
  have h := gatewayLoopRun_orderly threadId events
  have hdown := h.down hplace hwaits
  refine ⟨hdown, h.awake.parked_eq_nil hdown, fun t => ?_⟩
  obtain ⟨more, hmore, hnone⟩ := gatewayLoopRun_pushes_return h hdown threadId t
  refine ⟨more, hmore, ?_⟩
  rw [← Machine.stateFrom_state]
  exact hnone

/-- The program is ended as soon as all is made. -/
def endedAtOnceRun : List GatewayEvent :=
  List.replicate 6 (.main (.back true)) ++ .signal :: List.replicate 3 (.main (.back true))

/-- It waits for the Bluetooth worker then. -/
theorem released_before_waiting_endedAtOnce :
    ((gatewayLoopRun 0).state endedAtOnceRun).queue.data.shuttingDown = true ∧
      ((gatewayLoopRun 0).state endedAtOnceRun).queue.parked = [] ∧
      ∀ t, ∃ more, (∀ e ∈ more, e = .push t [] ∨ e = .resume t []) ∧
        ((gatewayLoopRun 0).state (endedAtOnceRun ++ more)).pushes t = [] :=
  released_before_waiting 0 endedAtOnceRun .joinBluetooth _ 0 rfl rfl

end SmartGateway
