import SmartGateway.Gateway.DeviceMap

/-!
# What a call does to one record

Each call of the device manager, seen from one node: its record before, its record
after, and whether a command went into its queue or out of it. What holds of the
records along a run is read off `step_effect`, one case at a time, with no function of
the manager unfolded again.
-/

namespace SmartGateway

/-- A command moved. -/
inductive QueueMove
  | enqueued
  | dequeued
deriving DecidableEq

/-- Whether a call put a command into the queue of the node or took one out. -/
def queueMove (id : CStr) (call : DeviceCall) (code : DeviceManagerCode) : Option QueueMove :=
  match call with
  | .enqueueCommand given _ => if given = some id ∧ code = .ok then some .enqueued else none
  | .tryDequeueCommand given _ _ _ => if given = some id ∧ code = .ok then some .dequeued else none
  | _ => none

/-- What a call did to the record of a node. -/
inductive RecordEffect (id : CStr) (call : DeviceCall) (ret : MapReturn) :
    Option DeviceRecord → Option DeviceRecord → Prop
  /-- It is refused, or names another node, or only looks. -/
  | same (o : Option DeviceRecord) : queueMove id call ret.code = none →
      RecordEffect id call ret o o
  /-- It notes that the node has been heard of. -/
  | seen (r : DeviceRecord) (now : ℤ) : queueMove id call ret.code = none →
      RecordEffect id call ret (some r) (some { r with lastSeen := now })
  /-- It sets the flag and the descriptor. -/
  | setOnline (r : DeviceRecord) (online fd : ℤ) : queueMove id call ret.code = none →
      call = .setOnline (some id) online fd → (online = 0 ∨ (online = 1 ∧ 0 ≤ fd)) →
      RecordEffect id call ret (some r)
        (some { r with online := online ≠ 0, fd := if online = 0 then -1 else fd })
  /-- A record without commands: a new one, or that of another connection, or of none. -/
  | renewed (o : Option DeviceRecord) (r' : DeviceRecord) : queueMove id call ret.code = none →
      r'.queue = [] → RecordEffect id call ret o (some r')
  | removed (o : Option DeviceRecord) : queueMove id call ret.code = none →
      RecordEffect id call ret o none
  | enqueued (r : DeviceRecord) (cmd : FrameCommand)
      (h : r.queue.length < deviceCommandQueueCapacity) :
      queueMove id call ret.code = some .enqueued → cmd.targetNode.toCStr = id →
      r.online = true → 0 ≤ r.fd → RecordEffect id call ret (some r) (some (r.enqueue cmd h))
  | dequeued (r : DeviceRecord) (cmd : FrameCommand) :
      queueMove id call ret.code = some .dequeued → ret.commands = [cmd] →
      r.queue = cmd :: r.dequeue.queue → RecordEffect id call ret (some r) (some r.dequeue)

variable {id other : CStr} {m : DeviceMap} {call : DeviceCall}

/-- A call that fails moves no command. -/
theorem queueMove_of_ne {code : DeviceManagerCode} (h : code ≠ .ok) :
    queueMove id call code = none := by
  unfold queueMove
  split
  · exact if_neg fun hok => h hok.2
  · exact if_neg fun hok => h hok.2
  · rfl

/-- Nor does one that names another node. -/
theorem queueMove_of_other {given : Option CStr} {code : DeviceManagerCode}
    {command : Option FrameCommand} (h : given ≠ some id) :
    queueMove id (.enqueueCommand given command) code = none := if_neg fun hok => h hok.1

/-- A call refused. -/
theorem RecordEffect.refused {ret : MapReturn} (o : Option DeviceRecord) (h : ret.code ≠ .ok) :
    RecordEffect id call ret o o := .same o (queueMove_of_ne h)

/-- A call that writes to the record of the node it names: what it does to that one is
what it does. -/
theorem RecordEffect.set {ret : MapReturn} {r r' : DeviceRecord} (hr : m.find? other = some r)
    (hother : id ≠ other → queueMove id call ret.code = none)
    (hself : id = other → RecordEffect id call ret (some r) (some r')) :
    RecordEffect id call ret (m.find? id) ((m.set other r').find? id) := by
  rw [DeviceMap.find?_set hr]
  split_ifs with h
  · rw [h, hr, ← h]
    exact hself h
  · exact .same _ (hother h)

/-- A call that names a node: what it does with the record it finds is all it does. -/
theorem RecordEffect.withRecord {given : Option CStr} {ok : Bool} {notFound : MapReturn}
    {f : CStr → DeviceRecord → DeviceMap × MapReturn} (hnotFound : notFound.code ≠ .ok)
    (hf : ∀ name r, given = some name → ok = true → m.find? name = some r →
      RecordEffect id call (f name r).2 (m.find? id) ((f name r).1.find? id)) :
    RecordEffect id call (m.withRecord given ok notFound f).2 (m.find? id)
      ((m.withRecord given ok notFound f).1.find? id) := by
  obtain h | h | ⟨name, r, hname, -, hok, hr, h⟩ := m.withRecord_cases given ok notFound f
  · rw [h]
    exact .refused _ (by simp [MapReturn.ofCode])
  · rw [h]
    exact .refused _ hnotFound
  · rw [h]
    exact hf name r hname hok hr

/-- The same where the call moves no command whatever it returns. -/
theorem RecordEffect.withRecord_quiet (hquiet : ∀ code, queueMove id call code = none)
    {ret : MapReturn} {given : Option CStr} {ok : Bool} {notFound : MapReturn}
    {f : CStr → DeviceRecord → DeviceMap × MapReturn}
    (hf : ∀ name r, ok = true → m.find? name = some r →
      RecordEffect id call ret (m.find? id) ((f name r).1.find? id)) :
    RecordEffect id call ret (m.find? id) ((m.withRecord given ok notFound f).1.find? id) := by
  obtain h | h | ⟨name, r, -, -, hok, hr, h⟩ := m.withRecord_cases given ok notFound f
  · rw [h]
    exact .same _ (hquiet _)
  · rw [h]
    exact .same _ (hquiet _)
  · rw [h]
    exact hf name r hok hr

section

variable (m) (id)

/-- A new record. -/
theorem create_effect (hid : DeviceMap.ValidId other)
    {r : DeviceRecord} (hr : r.queue = []) {created full : MapReturn} (hfull : full.code ≠ .ok)
    (hquiet : queueMove id call created.code = none) :
    RecordEffect id call (m.create other hid r created full).2 (m.find? id)
      ((m.create other hid r created full).1.find? id) := by
  rw [DeviceMap.create]
  split
  · rw [DeviceMap.find?_add]
    split_ifs
    · exact .renewed _ r hquiet hr
    · exact .same _ hquiet
  · exact .refused _ hfull

theorem register_effect (given : Option CStr) (transport : DeviceTransport) (fd : ℤ)
    (threadId : ℕ) (now : ℤ) :
    RecordEffect id (.register given transport fd threadId now)
      (m.register given transport fd threadId now).2 (m.find? id)
      ((m.register given transport fd threadId now).1.find? id) := by
  rw [DeviceMap.register.eq_def]
  split
  · exact .refused _ (by simp [MapReturn.ofCode])
  split
  · split
    · exact .refused _ (by simp [MapReturn.ofCode])
    · rename_i hid _ _
      exact create_effect id m hid.1 rfl (by simp [MapReturn.ofCode]) rfl
  · exact .refused _ (by simp [MapReturn.ofCode])

theorem unregister_effect (given : Option CStr) :
    RecordEffect id (.unregister given) (m.unregister given).2 (m.find? id)
      ((m.unregister given).1.find? id) := by
  refine .withRecord (by simp [MapReturn.ofCode]) fun name r _ _ _ => ?_
  rw [DeviceMap.find?_remove]
  split_ifs
  · exact .removed _ rfl
  · exact .same _ rfl

theorem setOnline_effect (given : Option CStr) (online fd : ℤ) :
    RecordEffect id (.setOnline given online fd) (m.setOnline given online fd).2 (m.find? id)
      ((m.setOnline given online fd).1.find? id) := by
  refine .withRecord (by simp [MapReturn.ofCode]) fun name r hname hok hr => ?_
  refine .set hr (fun _ => rfl) ?_
  rintro rfl
  exact .setOnline r online fd rfl (by rw [hname]) (of_decide_eq_true hok)

theorem updateLastSeen_effect (given : Option CStr) (now : ℤ) :
    RecordEffect id (.updateLastSeen given now) (m.updateLastSeen given now).2 (m.find? id)
      ((m.updateLastSeen given now).1.find? id) := by
  refine .withRecord (by simp [MapReturn.ofCode]) fun name r _ _ hr => ?_
  exact .set hr (fun _ => rfl) fun _ => .seen r now rfl

/-- The collecting functions, under either name, move no command by themselves. -/
theorem disconnectCollect_effect (hquiet : ∀ code, queueMove id call code = none)
    (given : Option CStr) (fd : ℤ) (threadId : ℕ) (args : CollectArgs) {ret : MapReturn} :
    RecordEffect id call ret (m.find? id)
      ((m.disconnectCollect given fd threadId args).1.find? id) := by
  refine .withRecord_quiet hquiet fun name r _ hr => ?_
  split
  · exact .same _ (hquiet _)
  split
  · exact .same _ (hquiet _)
  · exact .set hr (fun _ => hquiet _) fun _ => .renewed _ _ (hquiet _) rfl

theorem bindCollect_effect (hquiet : ∀ code, queueMove id call code = none) (given : Option CStr)
    (transport : DeviceTransport) (fd : ℤ) (threadId : ℕ) (now : ℤ) (args : CollectArgs)
    {ret : MapReturn} :
    RecordEffect id call ret (m.find? id)
      ((m.bindCollect given transport fd threadId now args).1.find? id) := by
  rw [DeviceMap.bindCollect.eq_def]
  split
  · exact .same _ (hquiet _)
  rename_i name
  split
  swap
  · exact .same _ (hquiet _)
  rename_i hid
  split
  -- a new record, if there is room
  · rw [DeviceMap.create]
    split
    · rw [DeviceMap.find?_add]
      split_ifs
      · exact .renewed _ _ (hquiet _) rfl
      · exact .same _ (hquiet _)
    · exact .same _ (hquiet _)
  · rename_i r hr
    rw [DeviceMap.takeOver]
    split
    · exact .same _ (hquiet _)
    split
    · exact .set hr (fun _ => hquiet _) fun _ => .seen r now (hquiet _)
    split
    · exact .same _ (hquiet _)
    · exact .set hr (fun _ => hquiet _) fun _ => .renewed _ _ (hquiet _) rfl

theorem enqueueCommand_effect (given : Option CStr) (command : Option FrameCommand) :
    RecordEffect id (.enqueueCommand given command) (m.enqueueCommand given command).2
      (m.find? id) ((m.enqueueCommand given command).1.find? id) := by
  rw [DeviceMap.enqueueCommand.eq_def]
  split
  · exact .refused _ (by simp [MapReturn.ofCode])
  rename_i cmd
  refine .withRecord (by simp [MapReturn.ofCode]) fun name r hname hok hr => ?_
  subst hname
  split
  · exact .refused _ (by simp [MapReturn.ofCode])
  rename_i honline
  split
  swap
  · exact .refused _ (by simp [MapReturn.ofCode])
  rename_i hroom
  have htarget : cmd.targetNode.toCStr = name := Option.some.inj (of_decide_eq_true hok)
  simp only [not_or, Bool.not_eq_true', Bool.not_eq_false, not_lt] at honline
  refine .set hr (fun hne => queueMove_of_other fun he => hne (Option.some.inj he).symm) ?_
  rintro rfl
  exact .enqueued r cmd hroom (if_pos ⟨rfl, rfl⟩) htarget honline.1 honline.2

theorem tryDequeueCommand_effect (given : Option CStr) (fd : ℤ) (threadId : ℕ)
    (outCommand : Bool) :
    RecordEffect id (.tryDequeueCommand given fd threadId outCommand)
      (m.tryDequeueCommand given fd threadId outCommand).2 (m.find? id)
      ((m.tryDequeueCommand given fd threadId outCommand).1.find? id) := by
  refine .withRecord (by simp [MapReturn.ofCode]) fun name r hname _ hr => ?_
  subst hname
  split
  · exact .refused _ (by simp [MapReturn.ofCode])
  split
  · exact .refused _ (by simp [MapReturn.ofCode])
  rename_i cmd rest hqueue
  refine .set hr (fun hne => if_neg fun hok => hne (Option.some.inj hok.1).symm) ?_
  rintro rfl
  have htail : r.queue = cmd :: r.dequeue.queue := by
    rw [DeviceRecord.queue_dequeue, hqueue, List.tail_cons]
  exact .dequeued r cmd (if_pos ⟨rfl, rfl⟩) rfl htail

theorem find_effect (given : Option CStr) (outDevice : Bool) :
    RecordEffect id (.find given outDevice) (m.find given outDevice).2 (m.find? id)
      ((m.find given outDevice).1.find? id) :=
  .withRecord (by simp [MapReturn.ofCode]) fun _ _ _ _ _ => .same _ rfl

/-- **One call, one node.** -/
theorem step_effect (call : DeviceCall) :
    RecordEffect id call (m.step call).2 (m.find? id) ((m.step call).1.find? id) := by
  cases call with
  | register given transport fd threadId now =>
    exact register_effect id m given transport fd threadId now
  | unregister given => exact unregister_effect id m given
  | setOnline given online fd => exact setOnline_effect id m given online fd
  | updateLastSeen given now => exact updateLastSeen_effect id m given now
  | bindConnection given transport fd threadId now =>
    exact bindCollect_effect id m (fun _ => rfl) given transport fd threadId now _
  | bindConnectionCollectCommands given transport fd threadId now args =>
    exact bindCollect_effect id m (fun _ => rfl) given transport fd threadId now args
  | disconnect given fd threadId =>
    exact disconnectCollect_effect id m (fun _ => rfl) given fd threadId _
  | disconnectCollectCommands given fd threadId args =>
    exact disconnectCollect_effect id m (fun _ => rfl) given fd threadId args
  | enqueueCommand given command => exact enqueueCommand_effect id m given command
  | tryDequeueCommand given fd threadId outCommand =>
    exact tryDequeueCommand_effect id m given fd threadId outCommand
  | find given outDevice => exact find_effect id m given outDevice

end

/-! ## On the array -/

/-- The record of a node. -/
def DeviceManager.record? (manager : DeviceManager) (id : CStr) : Option DeviceRecord :=
  (manager.device? id).map Device.record

variable {manager : DeviceManager}

theorem DeviceManager.StandsFor.record? (h : manager.StandsFor m) (id : CStr) :
    manager.record? id = m.find? id := h.device? id

/-- **One call, one node**, on the array. -/
theorem deviceStep_effect (h : manager.StandsFor m) (id : CStr) (call : DeviceCall) :
    RecordEffect id call (deviceStep manager call).2.record (manager.record? id)
      ((deviceStep manager call).1.record? id) := by
  have hagree := deviceStep_agree h call
  rw [h.record?, hagree.state.record?, hagree.output]
  exact step_effect id m call

/-- What is queued for a node is addressed to it. -/
theorem RecordEffect.targets {ret : MapReturn} {before after : Option DeviceRecord}
    (h : RecordEffect id call ret before after)
    (hbefore : ∀ r, before = some r → ∀ cmd ∈ r.queue, cmd.targetNode.toCStr = id) :
    ∀ r, after = some r → ∀ cmd ∈ r.queue, cmd.targetNode.toCStr = id := by
  intro r' hr' cmd hcmd
  cases h with
  | same o _ => exact hbefore r' hr' cmd hcmd
  | seen r now _ =>
    obtain rfl := Option.some.inj hr'
    exact hbefore r rfl cmd hcmd
  | setOnline r online fd _ _ _ =>
    obtain rfl := Option.some.inj hr'
    exact hbefore r rfl cmd hcmd
  | renewed o r'' _ hempty =>
    obtain rfl := Option.some.inj hr'
    rw [hempty] at hcmd
    exact absurd hcmd List.not_mem_nil
  | removed o _ => cases hr'
  | enqueued r cmd' _ _ htarget _ _ =>
    obtain rfl := Option.some.inj hr'
    rcases List.mem_append.mp hcmd with hcmd | hcmd
    · exact hbefore r rfl cmd hcmd
    · rw [List.mem_singleton.mp hcmd]
      exact htarget
  | dequeued r cmd' _ _ hqueue =>
    obtain rfl := Option.some.inj hr'
    exact hbefore r rfl cmd (List.mem_of_mem_tail hcmd)

/-- A manager as calls leave it: it stands for a map, and what it has queued for a node
is addressed to that node. -/
structure DeviceManager.Sound (manager : DeviceManager) : Prop where
  stands : ∃ m, manager.StandsFor m
  targets : ∀ id r, manager.record? id = some r → ∀ cmd ∈ r.queue, cmd.targetNode.toCStr = id

theorem deviceManagerInit_sound : deviceManagerInit.Sound :=
  ⟨⟨.empty, KeyedList.Represents.nil⟩, nofun⟩

theorem DeviceManager.Sound.step (h : manager.Sound) (call : DeviceCall) :
    (deviceStep manager call).1.Sound := by
  obtain ⟨⟨m, hm⟩, htargets⟩ := h
  refine ⟨⟨_, (deviceStep_agree hm call).state⟩, fun id => ?_⟩
  exact (deviceStep_effect hm id call).targets (htargets id)

/-! ## What the gateway's calls hand out -/

/-- What waits for a node is what its record has queued. -/
theorem DeviceManager.mem_pending {nodeId : CStr} {cmd : FrameCommand}
    (h : cmd ∈ manager.pending nodeId) :
    ∃ r, manager.record? nodeId = some r ∧ cmd ∈ r.queue := by
  rw [DeviceManager.pending] at h
  split at h
  · exact absurd h List.not_mem_nil
  · rename_i device hdevice
    exact ⟨device.record, by rw [DeviceManager.record?, hdevice, Option.map_some], h⟩

namespace DeviceManager.Sound

theorem targetNode_of_pending (h : manager.Sound) {nodeId : CStr} {cmd : FrameCommand}
    (hcmd : cmd ∈ manager.pending nodeId) : cmd.targetNode.toCStr = nodeId := by
  obtain ⟨r, hr, hqueued⟩ := DeviceManager.mem_pending hcmd
  exact h.targets nodeId r hr cmd hqueued

/-- A call hands out commands addressed to the node it names. -/
theorem targetNode_of_commands (h : manager.Sound) {call : GatewayCall} {nodeId : CStr}
    (hnode : call.node = some nodeId) {cmd : FrameCommand}
    (hcmd : cmd ∈ (gatewayMachine.step manager call).2.commands) :
    cmd.targetNode.toCStr = nodeId := by
  have hlaw := gatewayStep_conserved manager call nodeId
  have hout : cmd ∈ handedOutAt nodeId (call, (gatewayMachine.step manager call).2) := by
    rw [handedOutAt.eq_def, if_pos hnode]
    exact hcmd
  have hbefore : cmd ∈ manager.pending nodeId ++
      acceptedAt nodeId (call, (gatewayMachine.step manager call).2) := by
    rw [hlaw]
    exact List.mem_append_left _ hout
  rcases List.mem_append.mp hbefore with hpending | haccepted
  · exact h.targetNode_of_pending hpending
  · exact targetNode_of_mem_acceptedAt haccepted

/-- **The account of one command** over one call: what waited for its target and what the
call has accepted are what it hands out and what waits then. -/
theorem count_step (h : manager.Sound) {call : GatewayCall} {nodeId : CStr}
    (hnode : call.node = some nodeId) (cmd : FrameCommand) :
    (manager.pending cmd.targetNode.toCStr).count cmd +
        (acceptedAt cmd.targetNode.toCStr (call, (gatewayMachine.step manager call).2)).count cmd =
      (gatewayMachine.step manager call).2.commands.count cmd +
        ((gatewayMachine.step manager call).1.pending cmd.targetNode.toCStr).count cmd := by
  have hlaw := congrArg (List.count cmd)
    (gatewayStep_conserved manager call cmd.targetNode.toCStr)
  rw [List.count_append, List.count_append] at hlaw
  have hout : (handedOutAt cmd.targetNode.toCStr
      (call, (gatewayMachine.step manager call).2)).count cmd =
        (gatewayMachine.step manager call).2.commands.count cmd := by
    by_cases hself : nodeId = cmd.targetNode.toCStr
    · rw [handedOutAt.eq_def, if_pos (hnode.trans (congrArg some hself))]
    · have hnot : cmd ∉ (gatewayMachine.step manager call).2.commands :=
        fun hmem => hself (h.targetNode_of_commands hnode hmem).symm
      have hother : call.node ≠ some cmd.targetNode.toCStr := by
        rw [hnode]
        exact fun he => hself (Option.some.inj he)
      rw [handedOutAt.eq_def, if_neg hother, List.count_nil, List.count_eq_zero_of_not_mem hnot]
  rw [hlaw, hout]

/-- Of a call that queues nothing, only what it hands out is missing afterwards. -/
theorem count_taken (h : manager.Sound) {call : GatewayCall} {nodeId : CStr}
    (hnode : call.node = some nodeId) (hquiet : ∀ name, call.command? name = [])
    (cmd : FrameCommand) :
    (manager.pending cmd.targetNode.toCStr).count cmd =
      (gatewayMachine.step manager call).2.commands.count cmd +
        ((gatewayMachine.step manager call).1.pending cmd.targetNode.toCStr).count cmd := by
  have hnone : acceptedAt cmd.targetNode.toCStr (call, (gatewayMachine.step manager call).2) =
      [] := by
    rw [acceptedAt.eq_def, hquiet, ite_self]
  rw [← h.count_step hnode cmd, hnone, List.count_nil, Nat.add_zero]

end DeviceManager.Sound

end SmartGateway
