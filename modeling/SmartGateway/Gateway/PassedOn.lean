import SmartGateway.Gateway.ConnectionIntake
import SmartGateway.Gateway.ThreadFate

/-!
# What the loops pass on

What goes into the upstream queue besides the NACKs: messages, and each of them was handed to
the callback of a connection, and goes up once, in its turn, and in the name of the node that
the connection is bound to. A callback that passes nothing on drops its message for good.
-/

namespace SmartGateway

open WriteLog

/-! ## One connection -/

/-- What the callback has come back from. -/
def ConnectionLoop.called (c : ConnectionLoop) : List UplinkInput :=
  if c.stage.isCalling then c.handed.dropLast else c.handed

/-- The messages handed to the callback of a connection. -/
def ConnectionLoop.messages (c : ConnectionLoop) : List UplinkMessage :=
  c.handed.filterMap UplinkInput.message?

/-- The messages of a connection that have been passed on. -/
structure ConnectionLoop.PassedOn (c : ConnectionLoop) (passed : List UplinkMessage) : Prop where
  sublist : passed.Sublist c.messages
  node : ∀ m ∈ passed, m.nodeId = c.worker.context.boundNodeId

/-- The same, call by call. -/
structure ConnectionLoop.Passes (c : ConnectionLoop) (passed : List UplinkMessage) : Prop where
  sublist : passed.Sublist (c.called.filterMap UplinkInput.message?)
  node : ∀ m ∈ passed, m.nodeId = c.worker.context.boundNodeId ∧
    c.worker.context.boundNodeId.bytes ≠ []
  calling : ∀ input hungUp, c.stage = .calling input hungUp →
    c.handed = c.handed.dropLast ++ [input]

namespace ConnectionLoop

variable {c : ConnectionLoop} {passed : List UplinkMessage}

theorem Passes.passedOn (h : c.Passes passed) : c.PassedOn passed := by
  refine ⟨h.sublist.trans (List.Sublist.filterMap _ ?_), fun m hm => (h.node m hm).1⟩
  rw [called]
  split
  · exact List.dropLast_sublist _
  · exact List.Sublist.refl _

/-- A step that hands nothing on and binds nothing. -/
theorem Passes.same (h : c.Passes passed) {c' : ConnectionLoop} (hhanded : c'.handed = c.handed)
    (hstage : c'.stage = c.stage ∨ c.stage.isCalling = false ∧ c'.stage.isCalling = false)
    (hcontext : c'.worker.context = c.worker.context) : c'.Passes passed := by
  have hcalling : c'.stage.isCalling = c.stage.isCalling := by
    rcases hstage with hstage | ⟨hstage, hstage'⟩
    · rw [hstage]
    · rw [hstage, hstage']
  refine ⟨by rw [called, hcalling, hhanded]; exact h.sublist, by rw [hcontext]; exact h.node,
    fun input hungUp hat => ?_⟩
  rw [hhanded]
  rcases hstage with hstage | ⟨-, hstage'⟩
  · exact h.calling input hungUp (hstage ▸ hat)
  · rw [hat] at hstage'
    exact absurd hstage' (by simp [LoopStage.isCalling])

theorem checkHangup_stage (c : ConnectionLoop) (hungUp : Bool) :
    (c.checkHangup hungUp).stage.isCalling = false ∧ (c.checkHangup hungUp).handed = c.handed := by
  rw [checkHangup]
  split <;> exact ⟨rfl, rfl⟩

/-- The feeding: where it ends, all has been called, and else the last is being called. -/
theorem passes_feed (hsublist : passed.Sublist (c.handed.filterMap UplinkInput.message?))
    (hnode : ∀ m ∈ passed, m.nodeId = c.worker.context.boundNodeId ∧
      c.worker.context.boundNodeId.bytes ≠ []) (hungUp : Bool) : (c.feed hungUp).Passes passed := by
  have hended : ∀ c' : ConnectionLoop, c'.stage.isCalling = false → c'.handed = c.handed →
      c'.worker = c.worker → c'.Passes passed := by
    intro c' hstage hhanded hworker
    refine ⟨?_, by rw [hworker]; exact hnode, fun input hungUp hat => ?_⟩
    · rw [called, hstage, hhanded]
      exact hsublist
    · rw [hat] at hstage
      exact absurd hstage (by simp [LoopStage.isCalling])
  have hworker := c.feed_worker hungUp
  rw [feed] at hworker ⊢
  generalize c.intake.next = result at hworker ⊢
  obtain ⟨intake, - | input⟩ := result
  · dsimp only at hworker ⊢
    refine hended _ ?_ ?_ hworker
    · rw [fed]
      split
      · exact (checkHangup_stage _ hungUp).1
      · rfl
    · rw [fed]
      split
      · exact (checkHangup_stage _ hungUp).2
      · rfl
  · refine ⟨?_, hnode, fun input' hungUp' hat => ?_⟩
    · change passed.Sublist ((c.handed ++ [input]).dropLast.filterMap UplinkInput.message?)
      rw [List.dropLast_concat]
      exact hsublist
    · obtain ⟨rfl, -⟩ := LoopStage.calling.inj hat
      change c.handed ++ [_] = (c.handed ++ [_]).dropLast ++ [_]
      rw [List.dropLast_concat]

theorem Passes.goTo (h : c.Passes passed) (hout : c.stage.isCalling = false) {stage : LoopStage}
    (hstage : stage.isCalling = false) : (c.goTo stage).Passes passed :=
  h.same rfl (.inr ⟨hout, hstage⟩) rfl

theorem Passes.checkHangup (h : c.Passes passed) (hout : c.stage.isCalling = false)
    (hungUp : Bool) : (c.checkHangup hungUp).Passes passed :=
  h.same (checkHangup_stage c hungUp).2 (.inr ⟨hout, (checkHangup_stage c hungUp).1⟩)
    (congrArg Worker.context (c.checkHangup_worker hungUp))

theorem Passes.polled (h : c.Passes passed) (hout : c.stage.isCalling = false)
    (result : PollResult) : (c.polled result).Passes passed := by
  cases result with
  | interrupted | timedOut | failed => exact h.goTo hout rfl
  | ready readable hungUp =>
    rw [ConnectionLoop.polled]
    split
    · exact h.goTo hout rfl
    · exact h.checkHangup hout hungUp

theorem Passes.read (h : c.Passes passed) (hout : c.stage.isCalling = false) (hungUp : Bool)
    (result : RecvResult) : (c.read hungUp result).Passes passed := by
  cases result with
  | closed | failed | wouldBlock => exact h.goTo hout rfl
  | interrupted =>
    rw [ConnectionLoop.read]
    split
    · exact h
    · exact h.checkHangup hout hungUp
  | data b bs =>
    have hsublist := h.sublist
    rw [called, hout, if_neg Bool.false_ne_true] at hsublist
    let bytes := (b :: bs).take (readBufferSize c.worker.context.transport)
    exact passes_feed (c := { c with
      intake := c.intake.receive bytes
      received := c.received ++ bytes }) hsublist h.node hungUp

end ConnectionLoop

/-- **What the callback does to the node of a connection**: it stays once it is there, and a
message that is let through is that node's. -/
theorem gatewayAppOnUplink_bound (devices : DeviceManager) (context : UpstreamContext)
    (threadId : ℕ) (now : ℤ) (input : UplinkInput) :
    let bound := (gatewayAppOnUplink devices context threadId now input).context.boundNodeId
    (context.boundNodeId.bytes ≠ [] → bound = context.boundNodeId) ∧
      ∀ m, input.message? = some m →
        (gatewayAppTouchDevice devices context threadId now m.nodeId.toCStr).1 = true →
          m.nodeId = bound ∧ bound.bytes ≠ [] := by
  intro bound
  have hbound : bound =
      (gatewayAppOnUplink devices context threadId now input).context.boundNodeId := rfl
  rw [gatewayAppOnUplink_eq] at hbound
  cases hmessage : input.message? with
  | none =>
    rw [hmessage] at hbound
    exact ⟨fun _ => hbound, fun m hm => absurd hm (by simp)⟩
  | some m =>
    rw [hmessage] at hbound
    dsimp only at hbound
    rw [(gatewayAppForward_touch devices context threadId now m).2] at hbound
    have htouch : ∀ touch, TouchEffect devices context threadId now m.nodeId.toCStr touch →
        (context.boundNodeId.bytes ≠ [] →
          touch.2.context.boundNodeId = context.boundNodeId) ∧
        (touch.1 = true → m.nodeId = touch.2.context.boundNodeId ∧
          touch.2.context.boundNodeId.bytes ≠ []) := by
      intro touch htouch
      cases htouch with
      | refused => exact ⟨fun _ => rfl, fun hpass => absurd hpass (by simp)⟩
      | seen devices' ret hfilled hsame hstep =>
        exact ⟨fun _ => rfl, fun _ => ⟨(CharBuf.ext_toCStr hsame).symm, hfilled⟩⟩
      | bound copy devices' ret hunbound hfilled hname hstep hok =>
        obtain rfl : copy = m.nodeId := CharBuf.ext_toCStr hname
        exact ⟨fun hne => absurd hunbound hne, fun _ => ⟨rfl, hfilled⟩⟩
    obtain ⟨hstays, hnode⟩ := htouch _
      (gatewayAppTouchDevice_effect devices context threadId now m.nodeId.toCStr)
    rw [hbound]
    refine ⟨hstays, fun m' hm' => ?_⟩
    obtain rfl := Option.some.inj hm'
    exact hnode

/-- **One call of a loop.** -/
theorem ConnectionLoop.Passes.step {c : ConnectionLoop} {passed : List UplinkMessage}
    (h : c.Passes passed) (devices : DeviceManager) (e : LoopEvent) :
    (loopStep devices c e).loop.Passes (passed ++ loopPasses devices c e) := by
  unfold loopPasses
  split
  · -- the callback comes back
    rename_i input hungUp now hcontrol hstage
    unfold loopStep
    simp only [hcontrol, hstage]
    have hhanded := h.calling input hungUp hstage
    have hsublist := h.sublist
    have hcalling : c.stage.isCalling = true := by rw [hstage]; rfl
    rw [called, hcalling, if_pos rfl] at hsublist
    obtain ⟨hstays, hnode⟩ := gatewayAppOnUplink_bound devices c.worker.context
      c.worker.threadId now input
    have hbefore : ∀ m ∈ passed, m.nodeId = (gatewayAppOnUplink devices c.worker.context
        c.worker.threadId now input).context.boundNodeId ∧ (gatewayAppOnUplink devices
          c.worker.context c.worker.threadId now input).context.boundNodeId.bytes ≠ [] := by
      intro m hm
      obtain ⟨hsame, hfilled⟩ := h.node m hm
      rw [hstays hfilled]
      exact ⟨hsame, hfilled⟩
    refine passes_feed ?_ ?_ hungUp
    · change List.Sublist _ (c.handed.filterMap UplinkInput.message?)
      rw [hhanded, List.filterMap_append]
      refine hsublist.append ?_
      cases hmessage : input.message? with
      | none => exact List.nil_sublist _
      | some m =>
        have hone : [input].filterMap UplinkInput.message? = [m] := by simp [hmessage]
        rw [hone]
        dsimp only
        split
        · exact List.Sublist.refl _
        · exact List.nil_sublist _
    · intro m hm
      rcases List.mem_append.mp hm with hm | hm
      · exact hbefore m hm
      · cases hmessage : input.message? with
        | none =>
          rw [hmessage] at hm
          exact absurd hm List.not_mem_nil
        | some m' =>
          rw [hmessage] at hm
          dsimp only at hm
          split at hm
          · rename_i hpass
            obtain rfl := List.mem_singleton.mp hm
            exact hnode m hmessage hpass.1
          · exact absurd hm List.not_mem_nil
  · rename_i hcall
    rw [List.append_nil]
    unfold loopStep
    split
    · rename_i running _ hstage
      have hout : c.stage.isCalling = false := by rw [hstage]; rfl
      split
      · exact h.goTo hout rfl
      · split
        · exact h.same rfl (.inr ⟨hout, rfl⟩) (trySendCommand_context _ _ _)
        · exact h.same rfl (.inr ⟨hout, rfl⟩) (trySendCommand_context _ _ _)
    · exact h.same rfl (.inl rfl) (sendCommandTurn_context _ _ _ _ _)
    · rename_i _ hstage
      exact h.polled (by rw [hstage]; rfl) _
    · rename_i _ hstage
      exact h.read (by rw [hstage]; rfl) _ _
    · rename_i input hungUp now hcontrol hstage
      exact absurd rfl (hcall input hungUp now hcontrol hstage)
    · exact h.same rfl (.inl rfl) (leaveConnection_context _ _)
    · exact h.same rfl (.inl rfl) (leaveConnection_context _ _)
    · exact h

theorem ConnectionLoop.passes_start (transport : DeviceTransport) (deviceFd : ℤ) (threadId : ℕ)
    (intake : Intake) : (ConnectionLoop.start transport deviceFd threadId intake).Passes [] :=
  ⟨List.nil_sublist _, fun _ hm => absurd hm List.not_mem_nil,
    fun _ _ hat => absurd hat (by simp [start])⟩

/-! ## All threads -/

/-- The messages the Bluetooth worker passes on in a step. -/
def serialPasses (s : GatewayThreads) : ThreadEvent → List UplinkMessage
  | .bluetooth e =>
    match s.bluetooth.control with
    | .connected c => loopPasses s.devices c e
    | .opening | .stopped => []
  | .line _ | .opening .. | .accepted .. | .wifi .. => []

/-- The messages the `i`-th WiFi worker passes on. -/
def wifiPasses (i : ℕ) (s : GatewayThreads) : ThreadEvent → List UplinkMessage
  | .wifi j e =>
    match s.wifi[j]? with
    | some c => if j = i then loopPasses s.devices c e else []
    | none => []
  | .line _ | .opening .. | .bluetooth _ | .accepted .. => []

/-- The texts a step puts into the upstream queue. -/
def threadPushes (s : GatewayThreads) (e : ThreadEvent) : List Bytes :=
  pushedBy (threadStep s e).2.effects

/-- The text of a NACK for the upstream queue. -/
def NackAttempt.queuedText : NackAttempt → Option Bytes
  | .route _ => none
  | .queued text => some text

/-- The messages a step passes on, whichever thread does it. -/
def threadPasses (s : GatewayThreads) : ThreadEvent → List UplinkMessage
  | .wifi i e => wifiPasses i s (.wifi i e)
  | e => serialPasses s e

theorem filterMap_queuedText (texts : List Bytes) :
    (texts.map NackAttempt.queued).filterMap NackAttempt.queuedText = texts := by
  rw [List.filterMap_map]
  exact List.filterMap_some

/-- **What a step puts into the queue**: its NACKs, then the line of the message it passes
on. -/
theorem threadPushes_eq (s : GatewayThreads) (e : ThreadEvent) :
    threadPushes s e = (threadNacks s e).filterMap NackAttempt.queuedText ++
      (threadPasses s e).map fun m => m.line [Ascii.lf] := by
  cases e with
  | line line =>
    have hpasses : threadPasses s (.line line) = [] := rfl
    have hroute : NackAttempt.queuedText ∘ NackAttempt.route = fun _ => none := rfl
    rw [hpasses, threadNacks, List.filterMap_map, hroute]
    simp [threadPushes, threadStep, pushedBy]
  | opening running fd =>
    unfold threadPushes threadStep
    dsimp only
    split <;> rfl
  | bluetooth e =>
    unfold threadPushes threadStep threadNacks threadPasses serialPasses
    dsimp only
    cases s.bluetooth.control with
    | connected c =>
      dsimp only
      rw [filterMap_queuedText]
      exact pushedBy_loopStep _ _ _
    | opening | stopped => rfl
  | accepted fd threadId => rfl
  | wifi i e =>
    unfold threadPushes threadStep threadNacks threadPasses wifiPasses
    dsimp only
    cases s.wifi[i]? with
    | none => rfl
    | some c =>
      dsimp only
      rw [filterMap_queuedText, if_pos rfl]
      exact pushedBy_loopStep _ _ _

/-- What was passed on over some connections, one after the other. -/
def PassedOver (connections : List ConnectionLoop) (messages : List UplinkMessage) : Prop :=
  ∃ passed, List.Forall₂ ConnectionLoop.Passes connections passed ∧ messages = passed.flatten

theorem PassedOver.concat {connections : List ConnectionLoop} {messages : List UplinkMessage}
    (h : PassedOver connections messages) (transport : DeviceTransport) (deviceFd : ℤ)
    (threadId : ℕ) (intake : Intake) :
    PassedOver (connections ++ [.start transport deviceFd threadId intake]) messages := by
  obtain ⟨passed, hpassed, rfl⟩ := h
  refine ⟨passed ++ [[]], List.rel_append hpassed
    (.cons (ConnectionLoop.passes_start transport deviceFd threadId intake) .nil), ?_⟩
  rw [List.flatten_append]
  simp

/-- A call of the last of them. -/
theorem PassedOver.step {connections : List ConnectionLoop} {c : ConnectionLoop}
    {messages : List UplinkMessage} (h : PassedOver (connections ++ [c]) messages)
    (devices : DeviceManager) (e : LoopEvent) :
    PassedOver (connections ++ [(loopStep devices c e).loop])
      (messages ++ loopPasses devices c e) := by
  obtain ⟨passed, hpassed, rfl⟩ := h
  -- the messages of the last connection stand last
  obtain ⟨before, last, rfl⟩ : ∃ before last, passed = before ++ [last] := by
    obtain rfl | ⟨before, last, rfl⟩ := passed.eq_nil_or_concat
    · exact absurd hpassed.length_eq (by simp)
    · exact ⟨before, last, List.concat_eq_append⟩
  have hlength : before.length = connections.length := by
    have hlengths := hpassed.length_eq
    rw [List.length_append, List.length_append] at hlengths
    exact (Nat.add_right_cancel hlengths).symm
  have hbefore := List.forall₂_take_append _ _ _ hpassed
  have hlast := List.forall₂_drop_append _ _ _ hpassed
  rw [hlength, List.take_left] at hbefore
  rw [hlength, List.drop_left] at hlast
  obtain ⟨hlast, -⟩ := List.forall₂_cons.mp hlast
  refine ⟨before ++ [last ++ loopPasses devices c e],
    List.rel_append hbefore (.cons (hlast.step devices e) .nil), ?_⟩
  rw [List.flatten_append, List.flatten_append, List.flatten_singleton, List.flatten_singleton,
    List.append_assoc]

/-- **What is passed on**, by the connections of the Bluetooth worker and by each WiFi
worker. -/
structure GatewayThreads.Passing (s : GatewayThreads) (overSerial : List UplinkMessage)
    (overWifi : ℕ → List UplinkMessage) : Prop where
  serial : PassedOver s.bluetooth.connections overSerial
  wifi : ∀ (i : ℕ) (c : ConnectionLoop), s.wifi[i]? = some c → c.Passes (overWifi i)
  later : ∀ i, s.wifi.length ≤ i → overWifi i = []

/-- One call of any thread. -/
theorem GatewayThreads.Passing.step {s : GatewayThreads} {overSerial : List UplinkMessage}
    {overWifi : ℕ → List UplinkMessage} (h : s.Passing overSerial overWifi) (e : ThreadEvent) :
    (threadStep s e).1.Passing (overSerial ++ serialPasses s e)
      (fun i => overWifi i ++ wifiPasses i s e) := by
  have hwifi : (∀ i, wifiPasses i s e = []) →
      (∀ (i : ℕ) (c : ConnectionLoop), s.wifi[i]? = some c →
          c.Passes (overWifi i ++ wifiPasses i s e)) ∧
        ∀ i, s.wifi.length ≤ i → overWifi i ++ wifiPasses i s e = [] := by
    intro hnone
    refine ⟨fun i c hc => ?_, fun i hi => ?_⟩
    · rw [hnone i, List.append_nil]
      exact h.wifi i c hc
    · rw [hnone i, List.append_nil]
      exact h.later i hi
  cases e with
  | line line =>
    obtain ⟨hopen, hlater⟩ := hwifi fun _ => rfl
    refine ⟨?_, hopen, hlater⟩
    rw [show serialPasses s (.line line) = [] from rfl, List.append_nil]
    exact h.serial
  | opening running fd =>
    obtain ⟨hopen, hlater⟩ := hwifi fun _ => rfl
    rw [show serialPasses s (.opening running fd) = [] from rfl, List.append_nil]
    unfold threadStep
    dsimp only
    have hserial := h.serial
    split
    · rename_i hcontrol
      refine ⟨?_, hopen, hlater⟩
      rw [BluetoothWorker.connections, BluetoothWorker.current, hcontrol] at hserial
      exact hserial
    · rename_i hcontrol
      refine ⟨?_, hopen, hlater⟩
      rw [BluetoothWorker.connections, BluetoothWorker.current, hcontrol,
        List.append_nil] at hserial
      exact hserial.concat _ _ _ _
    · exact ⟨hserial, hopen, hlater⟩
  | bluetooth e =>
    obtain ⟨hopen, hlater⟩ := hwifi fun _ => rfl
    have hserial := h.serial
    rw [BluetoothWorker.connections, BluetoothWorker.current] at hserial
    unfold threadStep serialPasses
    dsimp only
    cases hcontrol : s.bluetooth.control with
    | connected c =>
      rw [hcontrol] at hserial
      refine ⟨?_, hopen, hlater⟩
      rw [BluetoothWorker.connections, BluetoothWorker.connections_went]
      exact hserial.step s.devices e
    | opening | stopped =>
      dsimp only
      rw [List.append_nil]
      exact ⟨h.serial, hopen, hlater⟩
  | accepted fd threadId =>
    refine ⟨?_, fun i c hc => ?_, fun i hi => ?_⟩
    · rw [show serialPasses s (.accepted fd threadId) = [] from rfl, List.append_nil]
      exact h.serial
    · rw [show wifiPasses i s (.accepted fd threadId) = [] from rfl, List.append_nil]
      change (s.wifi ++ [_])[i]? = some c at hc
      rcases Nat.lt_or_ge i s.wifi.length with hlt | hge
      · rw [List.getElem?_append_left hlt] at hc
        exact h.wifi i c hc
      · rw [List.getElem?_append_right hge] at hc
        rw [h.later i hge, List.mem_singleton.mp (List.mem_of_getElem? hc)]
        exact ConnectionLoop.passes_start _ _ _ _
    · rw [show wifiPasses i s (.accepted fd threadId) = [] from rfl, List.append_nil]
      refine h.later i (le_trans ?_ hi)
      change s.wifi.length ≤ (s.wifi ++ [_]).length
      rw [List.length_append]
      exact Nat.le_add_right _ _
  | wifi j e =>
    rw [show serialPasses s (.wifi j e) = [] from rfl, List.append_nil]
    unfold threadStep
    dsimp only
    cases hj : s.wifi[j]? with
    | none =>
      have hnone : ∀ i, wifiPasses i s (.wifi j e) = [] := by
        intro i
        rw [wifiPasses, hj]
      obtain ⟨hopen, hlater⟩ := hwifi hnone
      exact ⟨h.serial, hopen, hlater⟩
    | some c =>
      have hpasses : ∀ i, wifiPasses i s (.wifi j e) =
          if j = i then loopPasses s.devices c e else [] := by
        intro i
        rw [wifiPasses, hj]
      obtain ⟨hlt, -⟩ := List.getElem?_eq_some_iff.mp hj
      refine ⟨h.serial, fun i c' hc' => ?_, fun i hi => ?_⟩
      · rw [hpasses]
        change (s.wifi.set j _)[i]? = some c' at hc'
        by_cases hij : j = i
        · subst hij
          rw [List.getElem?_set_self hlt] at hc'
          rw [if_pos rfl, ← Option.some.inj hc']
          exact (h.wifi j c hj).step s.devices e
        · rw [List.getElem?_set_ne hij] at hc'
          rw [if_neg hij, List.append_nil]
          exact h.wifi i c' hc'
      · change (s.wifi.set j _).length ≤ i at hi
        rw [List.length_set] at hi
        rw [hpasses, if_neg (by omega), List.append_nil]
        exact h.later i hi

theorem gatewayThreads_passing (threadId : ℕ) (events : List ThreadEvent) :
    ((gatewayThreads threadId).state events).Passing
      ((gatewayThreads threadId).log serialPasses events)
      (fun i => (gatewayThreads threadId).log (wifiPasses i) events) := by
  induction events using List.reverseRecOn with
  | nil =>
    refine ⟨⟨[], .nil, rfl⟩, fun i c hc => ?_, fun _ _ => rfl⟩
    exact absurd hc (by simp [gatewayThreads])
  | append_singleton events e ih =>
    simp only [Machine.state_concat, Machine.log_concat]
    exact ih.step e

/-- **Nothing goes up that was not handed to a callback.** In any run of all gateway threads,
what goes into the upstream queue is NACKs, which are those that are accounted for, and
lines of messages; over each connection the messages are some of those its callback was
called with, each at most once and in their order, and all of the one node the connection
is bound to. -/
theorem passed_on_once (threadId : ℕ) (events : List ThreadEvent) :
    let M := gatewayThreads threadId
    let s := M.state events
    M.log threadPushes events = M.log (fun s e =>
        (threadNacks s e).filterMap NackAttempt.queuedText ++
          (threadPasses s e).map fun m => m.line [Ascii.lf]) events ∧
      (∃ passed, List.Forall₂ ConnectionLoop.PassedOn s.bluetooth.connections passed ∧
        M.log serialPasses events = passed.flatten) ∧
      ∀ (i : ℕ) (c : ConnectionLoop), s.wifi[i]? = some c →
        c.PassedOn (M.log (wifiPasses i) events) := by
  intro M s
  obtain ⟨⟨passed, hpassed, hserial⟩, hwifi, -⟩ := gatewayThreads_passing threadId events
  refine ⟨?_, ⟨passed, hpassed.imp fun _ _ h => h.passedOn, hserial⟩,
    fun i c hc => (hwifi i c hc).passedOn⟩
  have hpushes : threadPushes = fun s e =>
      (threadNacks s e).filterMap NackAttempt.queuedText ++
        (threadPasses s e).map fun m => m.line [Ascii.lf] :=
    funext fun s => funext fun e => threadPushes_eq s e
  rw [hpushes]

end SmartGateway
