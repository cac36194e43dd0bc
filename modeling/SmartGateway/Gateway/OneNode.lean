import SmartGateway.Common.FrameRoundTrip
import SmartGateway.Gateway.RecordEffects
import SmartGateway.Gateway.Upstream

/-!
# One connection, one node

A connection from its first byte to its last: its callback takes what it delivers, in
order, while the other threads make whatever calls of the device manager they like in
between. The first message that goes through makes the connection a node's, and from
then on it speaks for that node alone.
-/

namespace SmartGateway

/-- A connection, and the devices it shares. -/
structure ConnectionState where
  devices : DeviceManager
  context : UpstreamContext

/-- What happens in the life of a connection. -/
inductive ConnectionInput
  /-- It delivers a frame or a line, which is taken by a thread at a time. -/
  | received (input : UplinkInput) (threadId : ℕ) (now : ℤ)
  /-- Another thread calls the device manager. -/
  | manager (call : DeviceCall)

/-- One of these. -/
def connectionStep (s : ConnectionState) :
    ConnectionInput → ConnectionState × List UpstreamEffect
  | .received input threadId now =>
    let result := gatewayAppOnUplink s.devices s.context threadId now input
    (⟨result.devices, result.context⟩, result.effects)
  | .manager call => (⟨(deviceStep s.devices call).1, s.context⟩, [])

/-- A connection that is nobody's yet. -/
def connectionMachine (transport : DeviceTransport) (deviceFd : ℤ) :
    Machine ConnectionState ConnectionInput (List UpstreamEffect) where
  init := ⟨deviceManagerInit, ⟨transport, deviceFd, default⟩⟩
  step := connectionStep

/-- The names written to `bound_node_id`, in order. -/
def boundBy (effects : List UpstreamEffect) : List (CharBuf 32) :=
  effects.filterMap fun effect =>
    match effect with
    | .bind nodeId => some nodeId
    | _ => none

/-- Nothing is pushed, and `bound_node_id` is not written. -/
def Silent (effects : List UpstreamEffect) : Prop := pushedBy effects = [] ∧ boundBy effects = []

/-- The callback is handed a message of the node, and pushes its line if there is one. -/
def SpeaksFor (bound : CharBuf 32) (step : ConnectionInput × List UpstreamEffect) : Prop :=
  ∃ input threadId now m, step.1 = .received input threadId now ∧ input.message? = some m ∧
    m.nodeId = bound ∧ step.2 = enqueueBuilt (m.buildJson 256)

/-- The same for the message that makes the connection the node's: before it the NACKs of
the commands taken from another connection of that node. -/
def Binds (bound : CharBuf 32) (step : ConnectionInput × List UpstreamEffect) : Prop :=
  ∃ input threadId now m replaced, step.1 = .received input threadId now ∧
    input.message? = some m ∧ m.nodeId = bound ∧
    (∀ command ∈ replaced, command.targetNode = bound) ∧
    step.2 = enqueueReplaced replaced ++ .bind bound :: enqueueBuilt (m.buildJson 256)

/-! ## One message -/

section

variable {devices : DeviceManager} {context : UpstreamContext} {threadId : ℕ} {now : ℤ}

theorem boundBy_append (effects effects' : List UpstreamEffect) :
    boundBy (effects ++ effects') = boundBy effects ++ boundBy effects' := List.filterMap_append

theorem silent_nil : Silent [] := ⟨rfl, rfl⟩

theorem silent_decodeError : Silent [.decodeError] := ⟨rfl, rfl⟩

theorem boundBy_enqueueBuilt (json : Option Bytes) : boundBy (enqueueBuilt json) = [] := by
  cases json with
  | none => rfl
  | some json =>
    rw [enqueueBuilt, gatewayAppEnqueueJson]
    split <;> rfl

theorem boundBy_enqueueReplaced (commands : List FrameCommand) :
    boundBy (enqueueReplaced commands) = [] := by
  induction commands with
  | nil => rfl
  | cons command commands ih =>
    rw [enqueueReplaced, List.flatMap_cons, boundBy_append, boundBy_enqueueBuilt, List.nil_append]
    exact ih

/-- The NACKs `gateway_app_touch_device` enqueues are those of the takeover. -/
theorem enqueueNacks_eq {commands : List FrameCommand} {bound : CharBuf 32}
    (hbound : bound.bytes ≠ []) (h : ∀ command ∈ commands, command.targetNode = bound) :
    (commands.flatMap fun command => gatewayAppEnqueueNack command.targetNode.toCStr
      command.sequence (cstr (ascii "transport_replaced"))) = enqueueReplaced commands := by
  obtain ⟨herror, hbytes⟩ : (CharBuf.lit 32 "transport_replaced").toCStr =
      cstr (ascii "transport_replaced") ∧ _ := CharBuf.lit_toCStr (by decide) (by decide)
  have hfilled : (CharBuf.lit 32 "transport_replaced").bytes ≠ [] := by
    rw [hbytes]
    decide
  refine List.flatMap_congr fun command hmem => ?_
  have hnode : command.targetNode.bytes ≠ [] := by
    rw [h command hmem]
    exact hbound
  rw [← herror, gatewayAppEnqueueNack_eq hnode hfilled]
  rfl

/-- How a callback leaves a connection, bound to a node or to none, and what it pushes. -/
inductive CallbackEffect (bound : CharBuf 32) (step : ConnectionInput × List UpstreamEffect) :
    CharBuf 32 → Prop
  | silent : Silent step.2 → CallbackEffect bound step bound
  | spoken : bound.bytes ≠ [] → SpeaksFor bound step → CallbackEffect bound step bound
  | binds (bound' : CharBuf 32) : bound.bytes = [] → bound'.bytes ≠ [] → Binds bound' step →
      CallbackEffect bound step bound'

/-- **One call of a callback.** -/
theorem gatewayAppOnUplink_effect (hsound : devices.Sound) (input : UplinkInput) :
    let result := gatewayAppOnUplink devices context threadId now input
    CallbackEffect context.boundNodeId (.received input threadId now, result.effects)
        result.context.boundNodeId ∧ result.devices.Sound := by
  intro result
  have hresult : result = gatewayAppOnUplink devices context threadId now input := rfl
  rw [gatewayAppOnUplink_eq] at hresult
  cases hmessage : input.message? with
  | none =>
    rw [hmessage] at hresult
    rw [hresult]
    exact ⟨.silent silent_decodeError, hsound⟩
  | some m =>
    rw [hmessage] at hresult
    simp only [gatewayAppForward] at hresult
    have htouch := gatewayAppTouchDevice_effect devices context threadId now m.nodeId.toCStr
    generalize gatewayAppTouchDevice devices context threadId now m.nodeId.toCStr = touch
      at htouch hresult
    cases htouch with
    | refused =>
      rw [hresult]
      exact ⟨.silent silent_nil, hsound⟩
    -- the node it is bound to: its line is queued, and nothing else
    | seen devices' ret hbound hsame hstep =>
      have hdevices : devices' =
          (deviceStep devices (.updateLastSeen (some m.nodeId.toCStr) now)).1 :=
        (congrArg Prod.fst hstep).symm
      have hforward : result = ⟨devices', context, enqueueBuilt (m.buildJson 256)⟩ := by
        rw [hresult]
        cases m.buildJson 256 <;> rfl
      rw [hforward]
      refine ⟨.spoken hbound ⟨input, threadId, now, m, rfl, hmessage, ?_, rfl⟩, ?_⟩
      · exact (CharBuf.ext_toCStr hsame).symm
      · rw [hdevices]
        exact hsound.step _
    | bound copy devices' ret hunbound hfilled hname hstep hok =>
      have hcopy : copy = m.nodeId := CharBuf.ext_toCStr hname
      subst hcopy
      have hdevices : devices' = (gatewayMachine.step devices
          (.bind (some m.nodeId.toCStr) context.transport context.deviceFd threadId now)).1 := by
        rw [hstep]
      have htargets : ∀ command ∈ ret.commands, command.targetNode = m.nodeId := by
        intro command hmem
        have hhanded := congrArg (fun r => r.2.commands) hstep
        rw [← hhanded] at hmem
        exact CharBuf.ext_toCStr (hsound.targetNode_of_commands rfl hmem)
      rw [enqueueNacks_eq hfilled htargets] at hresult
      have hforward : result = ⟨devices', { context with boundNodeId := m.nodeId },
          enqueueReplaced ret.commands ++ .bind m.nodeId :: enqueueBuilt (m.buildJson 256)⟩ := by
        rw [hresult]
        cases m.buildJson 256 with
        | none => rfl
        | some json =>
          simp only [Bool.not_true, Bool.false_eq_true, if_false, List.append_assoc,
            List.singleton_append]
          rfl
      rw [hforward]
      refine ⟨.binds m.nodeId hunbound hfilled
        ⟨input, threadId, now, m, ret.commands, rfl, hmessage, rfl, htargets, rfl⟩, ?_⟩
      rw [hdevices]
      exact hsound.step _

end

/-! ## A whole life -/

/-- What a connection has pushed, as seen from its end. -/
inductive OneNodeRun (bound : CharBuf 32) (trace : List (ConnectionInput × List UpstreamEffect)) :
    Prop
  /-- It is nobody's still, and has pushed nothing. -/
  | unbound : bound.bytes = [] → (∀ step ∈ trace, Silent step.2) → OneNodeRun bound trace
  /-- One message has made it a node's. Nothing was pushed until then, and since then
  what was pushed are messages of that node. -/
  | bound (before : List (ConnectionInput × List UpstreamEffect))
      (first : ConnectionInput × List UpstreamEffect)
      (after : List (ConnectionInput × List UpstreamEffect)) :
      bound.bytes ≠ [] → trace = before ++ first :: after → (∀ step ∈ before, Silent step.2) →
      Binds bound first → (∀ step ∈ after, Silent step.2 ∨ SpeaksFor bound step) →
      OneNodeRun bound trace

/-- The effects of a run. -/
def effectsOf (trace : List (ConnectionInput × List UpstreamEffect)) : List UpstreamEffect :=
  trace.flatMap Prod.snd

theorem SpeaksFor.boundBy {bound : CharBuf 32} {step : ConnectionInput × List UpstreamEffect}
    (h : SpeaksFor bound step) : boundBy step.2 = [] := by
  obtain ⟨_, _, _, m, -, -, -, heffects⟩ := h
  rw [heffects]
  exact boundBy_enqueueBuilt _

theorem Binds.boundBy {bound : CharBuf 32} {step : ConnectionInput × List UpstreamEffect}
    (h : Binds bound step) : boundBy step.2 = [bound] := by
  obtain ⟨_, _, _, m, replaced, -, -, -, -, heffects⟩ := h
  have hrest : SmartGateway.boundBy (.bind bound :: enqueueBuilt (m.buildJson 256)) =
      bound :: SmartGateway.boundBy (enqueueBuilt (m.buildJson 256)) := rfl
  rw [heffects, boundBy_append, boundBy_enqueueReplaced, hrest, boundBy_enqueueBuilt,
    List.nil_append]

/-- Steps that write nothing to `bound_node_id`. -/
theorem boundBy_effectsOf {trace : List (ConnectionInput × List UpstreamEffect)}
    (h : ∀ step ∈ trace, boundBy step.2 = []) : boundBy (effectsOf trace) = [] := by
  induction trace with
  | nil => rfl
  | cons step trace ih =>
    have hrest := ih fun step' hmem => h step' (List.mem_cons_of_mem _ hmem)
    rw [effectsOf, List.flatMap_cons, boundBy_append, h step (List.mem_cons_self ..)]
    exact hrest

/-- **The name is written once**, or not at all. -/
theorem OneNodeRun.boundBy {bound : CharBuf 32}
    {trace : List (ConnectionInput × List UpstreamEffect)} (h : OneNodeRun bound trace) :
    boundBy (effectsOf trace) = if bound.bytes = [] then [] else [bound] := by
  cases h with
  | unbound hempty hsilent =>
    rw [if_pos hempty]
    exact boundBy_effectsOf fun step hmem => (hsilent step hmem).2
  | bound before first after hfilled htrace hbefore hfirst hafter =>
    have hleft : SmartGateway.boundBy (effectsOf before) = [] :=
      boundBy_effectsOf fun step hmem => (hbefore step hmem).2
    have hright : SmartGateway.boundBy (effectsOf after) = [] :=
      boundBy_effectsOf fun step hmem => (hafter step hmem).elim And.right SpeaksFor.boundBy
    have hsplit : effectsOf trace = effectsOf before ++ (first.2 ++ effectsOf after) := by
      rw [htrace, effectsOf, List.flatMap_append, List.flatMap_cons]
      rfl
    rw [if_neg hfilled, hsplit, boundBy_append, boundBy_append, hleft, hfirst.boundBy, hright]
    rfl

/-- One more step. -/
theorem OneNodeRun.step {bound bound' : CharBuf 32}
    {trace : List (ConnectionInput × List UpstreamEffect)} (h : OneNodeRun bound trace)
    {step : ConnectionInput × List UpstreamEffect} (hstep : CallbackEffect bound step bound') :
    OneNodeRun bound' (trace ++ [step]) := by
  cases h with
  | unbound hempty hsilent =>
    cases hstep with
    | silent hquiet =>
      refine .unbound hempty fun step' hmem => ?_
      rcases List.mem_append.mp hmem with hmem | hmem
      · exact hsilent step' hmem
      · rw [List.mem_singleton.mp hmem]
        exact hquiet
    | spoken hfilled _ => exact absurd hempty hfilled
    | binds _ _ hfilled hbinds => exact .bound trace step [] hfilled rfl hsilent hbinds nofun
  | bound before first after hfilled htrace hbefore hfirst hafter =>
    have hsplit : trace ++ [step] = before ++ first :: (after ++ [step]) := by
      rw [htrace, List.append_assoc, List.cons_append]
    -- bound: the step goes behind the others, and may not bind again
    have hlater : (Silent step.2 ∨ SpeaksFor bound step) →
        ∀ step' ∈ after ++ [step], Silent step'.2 ∨ SpeaksFor bound step' := by
      intro hlast step' hmem
      rcases List.mem_append.mp hmem with hmem | hmem
      · exact hafter step' hmem
      · rw [List.mem_singleton.mp hmem]
        exact hlast
    cases hstep with
    | silent hquiet => exact .bound _ _ _ hfilled hsplit hbefore hfirst (hlater (.inl hquiet))
    | spoken _ hspoken => exact .bound _ _ _ hfilled hsplit hbefore hfirst (hlater (.inr hspoken))
    | binds _ hempty _ _ => exact absurd hempty hfilled

/-- Every life of a connection. -/
theorem connectionMachine_oneNode (transport : DeviceTransport) (deviceFd : ℤ)
    (inputs : List ConnectionInput) :
    let M := connectionMachine transport deviceFd
    (M.state inputs).devices.Sound ∧
      OneNodeRun (M.state inputs).context.boundNodeId (M.trace inputs) := by
  intro M
  refine M.trace_induction
    (P := fun tr s => s.devices.Sound ∧ OneNodeRun s.context.boundNodeId tr) ?_ ?_ inputs
  · exact ⟨deviceManagerInit_sound, .unbound rfl nofun⟩
  rintro tr s input ⟨hsound, hrun⟩
  cases input with
  | manager call => exact ⟨hsound.step call, hrun.step (.silent silent_nil)⟩
  | received input threadId now =>
    obtain ⟨heffect, hsound'⟩ := gatewayAppOnUplink_effect hsound input
    exact ⟨hsound', hrun.step heffect⟩

/-- **One connection speaks for one node.** Over the whole life of a connection, whatever
the other threads make of the device manager meanwhile: `bound_node_id` is written once
at most, and does not change again; before the message that sets it nothing is pushed;
that message pushes the NACKs of a takeover first, then sets it, then pushes its own
line; later messages push their own line; and all of these are of the node it names. -/
theorem connection_speaks_for_one_node (transport : DeviceTransport) (deviceFd : ℤ)
    (inputs : List ConnectionInput) :
    let M := connectionMachine transport deviceFd
    let bound := (M.state inputs).context.boundNodeId
    boundBy (effectsOf (M.trace inputs)) = (if bound.bytes = [] then [] else [bound]) ∧
      (bound.bytes ≠ [] → ∀ more, (M.state (inputs ++ more)).context.boundNodeId = bound) ∧
      OneNodeRun bound (M.trace inputs) := by
  intro M bound
  have hwritten := (connectionMachine_oneNode transport deviceFd inputs).2.boundBy
  refine ⟨hwritten, fun hfilled more => ?_, (connectionMachine_oneNode transport deviceFd inputs).2⟩
  -- the writes of the longer life begin with the one write of the shorter
  have hlonger := (connectionMachine_oneNode transport deviceFd (inputs ++ more)).2.boundBy
  rw [if_neg hfilled] at hwritten
  rw [Machine.trace, Machine.traceFrom_append, effectsOf, List.flatMap_append, boundBy_append,
    show boundBy (List.flatMap Prod.snd (M.traceFrom M.init inputs)) = [bound] from hwritten]
    at hlonger
  split_ifs at hlonger
  · cases hlonger
  · exact (List.cons.inj hlonger).1.symm

/-- A node with a command queued, and its first report over another connection. -/
def takeoverRun : List ConnectionInput :=
  let nodeId : CharBuf 32 := CharBuf.lit 32 "N1"
  [.manager (.bindConnection (some nodeId.toCStr) .bluetooth 5 1 0),
    .manager (.enqueueCommand (some nodeId.toCStr) (some ⟨nodeId, nodeId, 1, default⟩)),
    .received (.frame (sealedFrame (ascii "1,N1,000007,DATA,T=25"))) 2 0]

/-- The NACK of the command is pushed before `bound_node_id` is set. -/
theorem not_silent_until_bound_takeoverRun :
    ¬ ∀ transport deviceFd inputs before message after,
      effectsOf ((connectionMachine transport deviceFd).trace inputs) =
        before ++ .push message :: after → boundBy before ≠ [] := by
  intro h
  obtain ⟨message, after, hlog⟩ : ∃ message after,
      effectsOf ((connectionMachine .bluetooth 6).trace takeoverRun) = .push message :: after := by
    have hhead : ((effectsOf ((connectionMachine .bluetooth 6).trace takeoverRun)).head?.map
        fun effect => (pushedBy [effect]).length) = some 1 := by decide +kernel
    cases hlog : effectsOf ((connectionMachine .bluetooth 6).trace takeoverRun) with
    | nil => simp [hlog] at hhead
    | cons effect after =>
      cases effect with
      | push message => exact ⟨message, after, rfl⟩
      | decodeError => simp [hlog, pushedBy] at hhead
      | bind nodeId => simp [hlog, pushedBy] at hhead
  exact h .bluetooth 6 takeoverRun [] message after hlog rfl

end SmartGateway
