import SmartGateway.Gateway.DeviceManager

/-!
# Runs of the device manager

Two properties of every sequence of calls. Commands are conserved: for each node
what was accepted is what was handed out followed by what its ring still holds.
And a connection that does not own a device can do nothing to it, as far as the
calls compare it with the one on record.
-/

namespace SmartGateway

/-! ## What one look-up and one write do -/

/-- The record of a node: the first of its name. -/
def DeviceManager.device? (manager : DeviceManager) (nodeId : CStr) : Option Device :=
  manager.devices.find? (Device.isNode nodeId)

/-- The commands that wait for a node, oldest first. -/
def DeviceManager.pending (manager : DeviceManager) (nodeId : CStr) : List FrameCommand :=
  match manager.device? nodeId with
  | none => []
  | some device => device.commandQueue.toList

variable {manager : DeviceManager} {nodeId other : CStr}

theorem Device.isNode_iff {device : Device} :
    device.isNode nodeId = true ↔ device.nodeId.toCStr = nodeId := by
  rw [Device.isNode, beq_iff_eq]

/-- The look-up of a call finds the record. -/
theorem device?_of_findIndex {i : Fin manager.devices.length}
    (h : deviceManagerFindIndexLocked manager nodeId = some i) :
    manager.device? nodeId = some (manager.device i) :=
  FirstMatch.find_eq h

theorem device?_of_findIndex_none (h : deviceManagerFindIndexLocked manager nodeId = none) :
    manager.device? nodeId = none :=
  FirstMatch.find_eq_none h

/-- And a record is found by the look-up. -/
theorem exists_findIndex {device : Device} (h : manager.device? nodeId = some device) :
    ∃ i, deviceManagerFindIndexLocked manager nodeId = some i ∧ manager.device i = device := by
  cases hfind : deviceManagerFindIndexLocked manager nodeId with
  | none =>
    rw [device?_of_findIndex_none hfind] at h
    exact absurd h (by simp)
  | some i =>
    rw [device?_of_findIndex hfind, Option.some.injEq] at h
    exact ⟨i, rfl, h⟩

/-- **A write to a record** shows under its own name and no other. -/
theorem device?_setDevice {i : Fin manager.devices.length} {device : Device}
    (h : deviceManagerFindIndexLocked manager nodeId = some i)
    (hname : device.nodeId = (manager.device i).nodeId) (other : CStr) :
    (manager.setDevice i device).device? other =
      if other = nodeId then some device else manager.device? other := by
  have hfound : (manager.device i).nodeId.toCStr = nodeId :=
    Device.isNode_iff.mp (FirstMatch.getElem_of_find h)
  have hdevice : device.nodeId.toCStr = nodeId := hname ▸ hfound
  by_cases hother : other = nodeId
  · rw [if_pos hother, hother]
    exact FirstMatch.find_set_self h (Device.isNode_iff.mpr hdevice)
  · rw [if_neg hother]
    refine FirstMatch.find_set_other i ?_ ?_
    · rw [Device.isNode, hfound, beq_eq_false_iff_ne]
      exact fun he => hother he.symm
    · rw [Device.isNode, hdevice, beq_eq_false_iff_ne]
      exact fun he => hother he.symm

/-- **A new record** likewise. -/
theorem device?_addDevice {device : Device}
    {hroom : manager.devices.length < deviceManagerMaxDevices}
    (h : deviceManagerFindIndexLocked manager nodeId = none)
    (hname : device.nodeId.toCStr = nodeId) (other : CStr) :
    (manager.addDevice device hroom).device? other =
      if other = nodeId then some device else manager.device? other := by
  by_cases hother : other = nodeId
  · rw [if_pos hother, hother]
    exact FirstMatch.find_concat_self (device?_of_findIndex_none h) (Device.isNode_iff.mpr hname)
  · rw [if_neg hother]
    refine FirstMatch.find_concat_other ?_
    rw [Device.isNode, hname, beq_eq_false_iff_ne]
    exact fun he => hother he.symm

theorem pending_setDevice {i : Fin manager.devices.length} {device : Device}
    (h : deviceManagerFindIndexLocked manager nodeId = some i)
    (hname : device.nodeId = (manager.device i).nodeId) (other : CStr) :
    (manager.setDevice i device).pending other =
      if other = nodeId then device.commandQueue.toList else manager.pending other := by
  unfold DeviceManager.pending
  rw [device?_setDevice h hname]
  split_ifs <;> rfl

theorem pending_addDevice {device : Device}
    {hroom : manager.devices.length < deviceManagerMaxDevices}
    (h : deviceManagerFindIndexLocked manager nodeId = none)
    (hname : device.nodeId.toCStr = nodeId) (other : CStr) :
    (manager.addDevice device hroom).pending other =
      if other = nodeId then device.commandQueue.toList else manager.pending other := by
  unfold DeviceManager.pending
  rw [device?_addDevice h hname]
  split_ifs <;> rfl

theorem pending_of_findIndex {i : Fin manager.devices.length}
    (h : deviceManagerFindIndexLocked manager nodeId = some i) :
    manager.pending nodeId = (manager.device i).commandQueue.toList := by
  rw [DeviceManager.pending, device?_of_findIndex h]

/-! ## What a call can do -/

/-- A call that fails: the manager as it was, nothing handed out. -/
structure Refused (manager : DeviceManager) (result : DeviceManager × DeviceReturn) : Prop where
  same : result.1 = manager
  code_ne : result.2.code ≠ .ok
  commands : result.2.commands = []

theorem refused_ofCode {code : DeviceManagerCode} (h : code ≠ .ok) :
    Refused manager (manager, .ofCode code) := ⟨rfl, h, rfl⟩

theorem refused_collectNothing {code : DeviceManagerCode} (h : code ≠ .ok) :
    Refused manager (manager, .collectNothing code) := ⟨rfl, h, rfl⟩

theorem nodeIdGiven_eq_some_iff {given : Option CStr} :
    nodeIdGiven given = some nodeId ↔ given = some nodeId ∧ nodeId.bytes ≠ [] := by
  cases given with
  | none => simp [nodeIdGiven]
  | some name =>
    simp only [nodeIdGiven]
    split_ifs with h
    · simp only [Option.some.injEq, false_iff, not_and, not_not]
      rintro rfl
      exact h
    · simp only [Option.some.injEq]
      exact ⟨fun he => ⟨he, he ▸ h⟩, fun he => he.1⟩

theorem register_cases (manager : DeviceManager) (given : Option CStr)
    (transport : DeviceTransport) (fd : ℤ) (threadId : ℕ) (now : ℤ) :
    Refused manager (deviceManagerRegister manager given transport fd threadId now) ∨
      ∃ nodeId device, ∃ h : manager.devices.length < deviceManagerMaxDevices,
        given = some nodeId ∧ nodeId.bytes ≠ [] ∧ device.nodeId.toCStr = nodeId ∧
        deviceManagerFindIndexLocked manager nodeId = none ∧ now ≠ -1 ∧
        device.fd = fd ∧ device.online = decide (0 < fd) ∧
        deviceManagerRegister manager given transport fd threadId now =
          (manager.addDevice device h, .ofCode .ok) := by
  unfold deviceManagerRegister
  split
  · exact .inl (refused_ofCode (by decide))
  rename_i nodeId hgiven
  obtain ⟨hnode, hne⟩ := nodeIdGiven_eq_some_iff.mp hgiven
  split
  · exact .inl (refused_ofCode (by decide))
  rename_i nodeIdCopy hcopy
  split
  · exact .inl (refused_ofCode (by decide))
  rename_i hnow
  split
  · exact .inl (refused_ofCode (by decide))
  rename_i hnone
  split
  swap
  · exact .inl (refused_ofCode (by decide))
  rename_i hroom
  exact .inr ⟨nodeId, _, hroom, hnode, hne, CharBuf.toCStr_of_ofCStr? hcopy, hnone, hnow, rfl, rfl,
    rfl⟩

theorem unregister_cases (manager : DeviceManager) (given : Option CStr) :
    Refused manager (deviceManagerUnregister manager given) ∨
      ∃ nodeId i, given = some nodeId ∧ deviceManagerFindIndexLocked manager nodeId = some i ∧
        (deviceManagerUnregister manager given).1.devices = manager.devices.eraseIdx i ∧
        (deviceManagerUnregister manager given).2 = .ofCode .ok := by
  unfold deviceManagerUnregister
  split
  · exact .inl (refused_ofCode (by decide))
  rename_i nodeId hgiven
  split
  · exact .inl (refused_ofCode (by decide))
  rename_i i hi
  exact .inr ⟨nodeId, i, (nodeIdGiven_eq_some_iff.mp hgiven).1, hi, rfl, rfl⟩

theorem setOnline_cases (manager : DeviceManager) (given : Option CStr) (online fd : ℤ) :
    Refused manager (deviceManagerSetOnline manager given online fd) ∨
      ∃ nodeId i, given = some nodeId ∧ deviceManagerFindIndexLocked manager nodeId = some i ∧
        (online = 0 ∨ 0 ≤ fd) ∧
        deviceManagerSetOnline manager given online fd =
          (manager.setDevice i { manager.device i with
            online := decide (online ≠ 0)
            fd := if online = 0 then -1 else fd }, .ofCode .ok) := by
  unfold deviceManagerSetOnline
  split
  · exact .inl (refused_ofCode (by decide))
  rename_i nodeId hgiven
  split
  · exact .inl (refused_ofCode (by decide))
  split
  · exact .inl (refused_ofCode (by decide))
  rename_i hfd
  split
  · exact .inl (refused_ofCode (by decide))
  rename_i i hi
  refine .inr ⟨nodeId, i, (nodeIdGiven_eq_some_iff.mp hgiven).1, hi, ?_, ?_⟩
  · by_contra hnot
    rw [not_or, Int.not_le] at hnot
    exact hfd hnot
  · by_cases honline : online = 0
    · simp [honline]
    · simp [honline]

theorem enqueueCommand_cases (manager : DeviceManager) (given : Option CStr)
    (command : Option FrameCommand) :
    Refused manager (deviceManagerEnqueueCommand manager given command) ∨
      ∃ nodeId cmd i, ∃ h : (manager.device i).commandQueue.count < deviceCommandQueueCapacity,
        given = some nodeId ∧ command = some cmd ∧ cmd.targetNode.toCStr = nodeId ∧
        deviceManagerFindIndexLocked manager nodeId = some i ∧
        (manager.device i).online = true ∧ 0 ≤ (manager.device i).fd ∧
        deviceManagerEnqueueCommand manager given command =
          (manager.setDevice i { manager.device i with
            commandQueue := (manager.device i).commandQueue.push cmd h }, .ofCode .ok) := by
  unfold deviceManagerEnqueueCommand
  split
  swap
  · exact Or.inl (refused_ofCode (by decide))
  rename_i nodeId cmd hgiven
  split
  · exact Or.inl (refused_ofCode (by decide))
  rename_i htarget
  split
  · exact Or.inl (refused_ofCode (by decide))
  rename_i i hi
  dsimp only
  split
  · exact Or.inl (refused_ofCode (by decide))
  rename_i honline
  split
  swap
  · exact Or.inl (refused_ofCode (by decide))
  rename_i hroom
  simp only [not_or, not_not, ne_eq] at htarget
  simp only [not_or, Bool.not_eq_true', Bool.not_eq_false, not_lt] at honline
  exact Or.inr ⟨nodeId, cmd, i, hroom, (nodeIdGiven_eq_some_iff.mp hgiven).1, rfl, htarget.2, hi,
    honline.1, honline.2, rfl⟩

theorem tryDequeueCommand_cases (manager : DeviceManager) (given : Option CStr) (fd : ℤ)
    (threadId : ℕ) (outCommand : Bool) :
    Refused manager (deviceManagerTryDequeueCommand manager given fd threadId outCommand) ∨
      ∃ nodeId i, ∃ h : 0 < (manager.device i).commandQueue.count,
        given = some nodeId ∧ deviceManagerFindIndexLocked manager nodeId = some i ∧
        (manager.device i).online = true ∧ 0 ≤ (manager.device i).fd ∧
        (manager.device i).threadId = threadId ∧
        deviceManagerTryDequeueCommand manager given fd threadId outCommand =
          (manager.setDevice i { manager.device i with
            commandQueue := (manager.device i).commandQueue.pop h },
            ⟨.ok, [(manager.device i).commandQueue.front], none, none⟩) := by
  unfold deviceManagerTryDequeueCommand
  split
  · exact Or.inl (refused_ofCode (by decide))
  rename_i nodeId hgiven
  split
  · exact Or.inl (refused_ofCode (by decide))
  split
  · exact Or.inl (refused_ofCode (by decide))
  rename_i i hi
  dsimp only
  split
  · exact Or.inl (refused_ofCode (by decide))
  rename_i howner
  split
  swap
  · exact Or.inl (refused_ofCode (by decide))
  rename_i hcount
  simp only [not_or, not_not, ne_eq, Bool.not_eq_true', Bool.not_eq_false, not_lt] at howner
  exact Or.inr ⟨nodeId, i, hcount, (nodeIdGiven_eq_some_iff.mp hgiven).1, hi, howner.1,
    howner.2.1, howner.2.2, rfl⟩

theorem disconnectCollectCommands_cases (manager : DeviceManager) (given : Option CStr) (fd : ℤ)
    (threadId : ℕ) (args : CollectArgs) :
    Refused manager (deviceManagerDisconnectCollectCommands manager given fd threadId args) ∨
      ∃ nodeId i, given = some nodeId ∧ deviceManagerFindIndexLocked manager nodeId = some i ∧
        (manager.device i).fd = fd ∧ (manager.device i).threadId = threadId ∧
        deviceManagerDisconnectCollectCommands manager given fd threadId args =
          (manager.setDevice i { manager.device i with
            online := false
            fd := -1
            commandQueue := (manager.device i).commandQueue.clear },
            args.collect (manager.device i).commandQueue) := by
  unfold deviceManagerDisconnectCollectCommands
  split
  · exact Or.inl (refused_ofCode (by decide))
  rename_i nodeId hgiven
  split
  · exact Or.inl (refused_ofCode (by decide))
  split
  · exact Or.inl (refused_collectNothing (by decide))
  rename_i i hi
  dsimp only
  split
  · exact Or.inl (refused_collectNothing (by decide))
  rename_i howner
  split
  · exact Or.inl (refused_collectNothing (by decide))
  simp only [not_or, not_not, ne_eq] at howner
  exact Or.inr ⟨nodeId, i, (nodeIdGiven_eq_some_iff.mp hgiven).1, hi, howner.1, howner.2, rfl⟩

theorem updateLastSeen_cases (manager : DeviceManager) (given : Option CStr) (now : ℤ) :
    Refused manager (deviceManagerUpdateLastSeen manager given now) ∨
      ∃ nodeId i, given = some nodeId ∧ deviceManagerFindIndexLocked manager nodeId = some i ∧
        deviceManagerUpdateLastSeen manager given now =
          (manager.setDevice i { manager.device i with lastSeen := now }, .ofCode .ok) := by
  unfold deviceManagerUpdateLastSeen
  split
  · exact Or.inl (refused_ofCode (by decide))
  rename_i nodeId hgiven
  split
  · exact Or.inl (refused_ofCode (by decide))
  split
  · exact Or.inl (refused_ofCode (by decide))
  rename_i i hi
  exact Or.inr ⟨nodeId, i, (nodeIdGiven_eq_some_iff.mp hgiven).1, hi, rfl⟩

/-- A device that takes over a connection, new or known. -/
theorem bindConnectionCollectCommands_cases (manager : DeviceManager) (given : Option CStr)
    (transport : DeviceTransport) (fd : ℤ) (threadId : ℕ) (now : ℤ) (args : CollectArgs) :
    Refused manager
        (deviceManagerBindConnectionCollectCommands manager given transport fd threadId now args) ∨
      (∃ nodeId device, ∃ h : manager.devices.length < deviceManagerMaxDevices,
        given = some nodeId ∧ deviceManagerFindIndexLocked manager nodeId = none ∧
        device.nodeId.toCStr = nodeId ∧ device.commandQueue = CommandQueue.zero ∧
        nodeId.bytes ≠ [] ∧ device.fd = fd ∧ device.online = true ∧ 0 ≤ fd ∧
        deviceManagerBindConnectionCollectCommands manager given transport fd threadId now args =
          (manager.addDevice device h, .collectNothing .ok)) ∨
      (∃ nodeId i, given = some nodeId ∧ deviceManagerFindIndexLocked manager nodeId = some i ∧
        deviceManagerBindConnectionCollectCommands manager given transport fd threadId now args =
          (manager.setDevice i { manager.device i with lastSeen := now },
            .collectNothing .ok)) ∨
      (∃ nodeId i, given = some nodeId ∧ deviceManagerFindIndexLocked manager nodeId = some i ∧
        0 ≤ fd ∧ ¬ ((manager.device i).online ∧ (manager.device i).fd = fd ∧
          (manager.device i).threadId = threadId) ∧
        deviceManagerBindConnectionCollectCommands manager given transport fd threadId now args =
          (manager.setDevice i { manager.device i with
            fd := fd
            online := true
            threadId := threadId
            lastSeen := now
            commandQueue := (manager.device i).commandQueue.clear },
            args.collect (manager.device i).commandQueue)) := by
  unfold deviceManagerBindConnectionCollectCommands
  split
  · exact Or.inl (refused_ofCode (by decide))
  rename_i nodeId hgiven
  have hnode := (nodeIdGiven_eq_some_iff.mp hgiven).1
  split
  · exact Or.inl (refused_ofCode (by decide))
  rename_i nodeIdCopy hcopy
  have hname : nodeIdCopy.toCStr = nodeId := CharBuf.toCStr_of_ofCStr? hcopy
  split
  · exact Or.inl (refused_ofCode (by decide))
  rename_i hrefused
  have hfd : 0 ≤ fd := by
    simp only [CollectArgs.refused, Bool.or_eq_true, decide_eq_true_eq, not_or, not_lt] at hrefused
    exact hrefused.1.1
  -- a new device, if there is room
  split
  · rename_i hnone
    split
    · rename_i hroom
      exact Or.inr (Or.inl ⟨nodeId, _, hroom, hnode, hnone, hname, rfl,
        (nodeIdGiven_eq_some_iff.mp hgiven).2, rfl, rfl, hfd, rfl⟩)
    · exact Or.inl (refused_collectNothing (by decide))
  rename_i i hi
  -- a known one: the kind of its transport, its owner, and the room for its commands
  dsimp only
  split
  · exact Or.inl (refused_collectNothing (by decide))
  split
  · exact Or.inr (Or.inr (Or.inl ⟨nodeId, i, hnode, hi, rfl⟩))
  rename_i howner
  split
  · exact Or.inl (refused_collectNothing (by decide))
  · exact Or.inr (Or.inr (Or.inr ⟨nodeId, i, hnode, hi, hfd, howner, rfl⟩))

/-! ## Commands are conserved -/

/-- The calls the gateway makes: the two collecting functions with an array of the
queue's capacity, and the four that keep every queue's content accounted for. -/
inductive GatewayCall
  | bind (nodeId : Option CStr) (transport : DeviceTransport) (fd : ℤ) (threadId : ℕ) (now : ℤ)
  | disconnect (nodeId : Option CStr) (fd : ℤ) (threadId : ℕ)
  | enqueue (nodeId : Option CStr) (command : Option FrameCommand)
  | tryDequeue (nodeId : Option CStr) (fd : ℤ) (threadId : ℕ) (outCommand : Bool)
  | updateLastSeen (nodeId : Option CStr) (now : ℤ)
  | find (nodeId : Option CStr) (outDevice : Bool)

/-- The output arguments the gateway passes. -/
def gatewayCollectArgs : CollectArgs := ⟨true, deviceCommandQueueCapacity, true⟩

/-- The call of the interface each of them is. -/
def GatewayCall.toDeviceCall : GatewayCall → DeviceCall
  | .bind nodeId transport fd threadId now =>
    .bindConnectionCollectCommands nodeId transport fd threadId now gatewayCollectArgs
  | .disconnect nodeId fd threadId =>
    .disconnectCollectCommands nodeId fd threadId gatewayCollectArgs
  | .enqueue nodeId command => .enqueueCommand nodeId command
  | .tryDequeue nodeId fd threadId outCommand => .tryDequeueCommand nodeId fd threadId outCommand
  | .updateLastSeen nodeId now => .updateLastSeen nodeId now
  | .find nodeId outDevice => .find nodeId outDevice

/-- The node a call names. -/
def GatewayCall.node : GatewayCall → Option CStr
  | .bind nodeId .. | .disconnect nodeId .. | .enqueue nodeId _ | .tryDequeue nodeId ..
  | .updateLastSeen nodeId _ | .find nodeId _ => nodeId

/-- The manager under the gateway's calls. -/
def gatewayMachine : Machine DeviceManager GatewayCall DeviceReturn where
  init := deviceManagerInit
  step manager call := deviceStep manager call.toDeviceCall

/-- The command a call asks to queue for a node. -/
def GatewayCall.command? (nodeId : CStr) : GatewayCall → List FrameCommand
  | .enqueue (some name) (some command) => if name = nodeId then [command] else []
  | _ => []

/-- The command a step accepted for a node, if it did. -/
def acceptedAt (nodeId : CStr) (step : GatewayCall × DeviceReturn) : List FrameCommand :=
  if step.2.code = .ok then step.1.command? nodeId else []

/-- The commands a step handed out for a node. -/
def handedOutAt (nodeId : CStr) (step : GatewayCall × DeviceReturn) : List FrameCommand :=
  if step.1.node = some nodeId then step.2.commands else []

/-- The commands a run accepted for a node, in order. -/
def accepted (nodeId : CStr) (trace : List (GatewayCall × DeviceReturn)) : List FrameCommand :=
  trace.flatMap (acceptedAt nodeId)

/-- The commands a run handed out for a node, in order. -/
def handedOut (nodeId : CStr) (trace : List (GatewayCall × DeviceReturn)) : List FrameCommand :=
  trace.flatMap (handedOutAt nodeId)

/-- A step that concerns no queue. -/
theorem conserved_of_same {step : GatewayCall × DeviceReturn} {after : DeviceManager}
    (haccepted : acceptedAt nodeId step = []) (hcommands : step.2.commands = [])
    (hpending : after.pending nodeId = manager.pending nodeId) :
    manager.pending nodeId ++ acceptedAt nodeId step =
      handedOutAt nodeId step ++ after.pending nodeId := by
  have hout : handedOutAt nodeId step = [] := by
    unfold handedOutAt
    rw [hcommands, ite_self]
  rw [haccepted, hout, hpending, List.append_nil, List.nil_append]

/-- Of a refused call there is nothing to account for. -/
theorem Refused.conserved (call : GatewayCall)
    (h : Refused manager (gatewayMachine.step manager call)) (nodeId : CStr) :
    manager.pending nodeId ++ acceptedAt nodeId (call, (gatewayMachine.step manager call).2) =
      handedOutAt nodeId (call, (gatewayMachine.step manager call).2) ++
        (gatewayMachine.step manager call).1.pending nodeId :=
  conserved_of_same (if_neg h.code_ne) h.commands (by rw [h.same])

/-- A call about a known node: the law for the queue it writes is the law of the
step, every other queue being as it was. -/
theorem conserved_of_write (call : GatewayCall) {name : CStr} {i : Fin manager.devices.length}
    {device : Device} {result : DeviceReturn}
    (h : gatewayMachine.step manager call = (manager.setDevice i device, result))
    (hi : deviceManagerFindIndexLocked manager name = some i)
    (hname : device.nodeId = (manager.device i).nodeId) (hok : result.code = .ok)
    (hnode : call.node = some name) (hcommand : ∀ other, other ≠ name → call.command? other = [])
    (hqueue : (manager.device i).commandQueue.toList ++ call.command? name =
      result.commands ++ device.commandQueue.toList) (nodeId : CStr) :
    manager.pending nodeId ++ acceptedAt nodeId (call, (gatewayMachine.step manager call).2) =
      handedOutAt nodeId (call, (gatewayMachine.step manager call).2) ++
        (gatewayMachine.step manager call).1.pending nodeId := by
  rw [h, pending_setDevice hi hname, acceptedAt, handedOutAt, if_pos hok]
  by_cases hother : nodeId = name
  · subst hother
    rw [pending_of_findIndex hi, if_pos hnode, if_pos rfl]
    exact hqueue
  · have hnot : call.node ≠ some nodeId := by
      rw [hnode, ne_eq, Option.some.injEq]
      exact fun h => hother h.symm
    rw [if_neg hnot, if_neg hother, hcommand nodeId hother, List.append_nil, List.nil_append]

/-- **The law of one step**: what was pending and what is accepted go, in this
order, to what is handed out and what is pending then. -/
theorem gatewayStep_conserved (manager : DeviceManager) (call : GatewayCall) (nodeId : CStr) :
    manager.pending nodeId ++ acceptedAt nodeId (call, (gatewayMachine.step manager call).2) =
      handedOutAt nodeId (call, (gatewayMachine.step manager call).2) ++
        (gatewayMachine.step manager call).1.pending nodeId := by
  cases call with
  | find given outDevice =>
    refine conserved_of_same (ite_self _) ?_ rfl
    change (deviceManagerFind manager given outDevice).commands = []
    unfold deviceManagerFind
    repeat' split
    all_goals rfl
  | updateLastSeen given now =>
    rcases updateLastSeen_cases manager given now with h | ⟨name, i, rfl, hi, h⟩
    · exact Refused.conserved (.updateLastSeen given now) h nodeId
    · exact conserved_of_write (.updateLastSeen (some name) now) h hi rfl rfl rfl (fun _ _ => rfl)
        (List.append_nil _) nodeId
  -- accepted at the back of the ring, handed out at the front
  | enqueue given command =>
    rcases enqueueCommand_cases manager given command with h |
      ⟨name, cmd, i, hroom, rfl, rfl, htarget, hi, -, -, h⟩
    · exact Refused.conserved (.enqueue given command) h nodeId
    · refine conserved_of_write (.enqueue (some name) (some cmd)) h hi rfl rfl rfl
        (fun other hother => if_neg fun he => hother he.symm) ?_ nodeId
      rw [GatewayCall.command?, if_pos rfl]
      exact (Ring.toList_push _ cmd hroom).symm
  | tryDequeue given fd threadId outCommand =>
    rcases tryDequeueCommand_cases manager given fd threadId outCommand with h |
      ⟨name, i, hcount, rfl, hi, -, -, -, h⟩
    · exact Refused.conserved (.tryDequeue given fd threadId outCommand) h nodeId
    · refine conserved_of_write (.tryDequeue (some name) fd threadId outCommand) h hi rfl rfl rfl
        (fun _ _ => rfl) ?_ nodeId
      exact (List.append_nil _).trans (Ring.toList_pop _ hcount)
  | disconnect given fd threadId =>
    rcases disconnectCollectCommands_cases manager given fd threadId gatewayCollectArgs with h |
      ⟨name, i, rfl, hi, -, -, h⟩
    · exact Refused.conserved (.disconnect given fd threadId) h nodeId
    · exact conserved_of_write (.disconnect (some name) fd threadId) h hi rfl rfl rfl
        (fun _ _ => rfl) rfl nodeId
  | bind given transport fd threadId now =>
    rcases bindConnectionCollectCommands_cases manager given transport fd threadId now
      gatewayCollectArgs with h | ⟨name, device, hroom, rfl, hnone, hname, hqueue, -, -, -, -, h⟩ |
      ⟨name, i, rfl, hi, h⟩ | ⟨name, i, rfl, hi, -, -, h⟩
    · exact Refused.conserved (.bind given transport fd threadId now) h nodeId
    -- a new device has nothing pending, and no command is handed out
    · have hstep : gatewayMachine.step manager (.bind (some name) transport fd threadId now) =
          (manager.addDevice device hroom, .collectNothing .ok) := h
      rw [hstep]
      refine conserved_of_same (ite_self _) rfl ?_
      rw [pending_addDevice hnone hname, hqueue]
      split_ifs with hother
      · rw [hother, DeviceManager.pending, device?_of_findIndex_none hnone]
        rfl
      · rfl
    · exact conserved_of_write (.bind (some name) transport fd threadId now) h hi rfl rfl rfl
        (fun _ _ => rfl) (List.append_nil _) nodeId
    · exact conserved_of_write (.bind (some name) transport fd threadId now) h hi rfl rfl rfl
        (fun _ _ => rfl) rfl nodeId

/-- A command is accepted for the node it is addressed to. -/
theorem targetNode_of_mem_acceptedAt {call : GatewayCall} {cmd : FrameCommand}
    (h : cmd ∈ acceptedAt nodeId (call, (gatewayMachine.step manager call).2)) :
    cmd.targetNode.toCStr = nodeId := by
  unfold acceptedAt at h
  split at h
  swap
  · exact absurd h (by simp)
  rename_i hok
  unfold GatewayCall.command? at h
  split at h
  swap
  · exact absurd h (by simp)
  rename_i name command hcall
  split_ifs at h with hname
  swap
  · exact absurd h (by simp)
  rw [List.mem_singleton.mp h, ← hname]
  have hcall' : call = .enqueue (some name) (some command) := hcall
  subst hcall'
  rcases enqueueCommand_cases manager (some name) (some command) with hrefused |
    ⟨name', cmd', i, -, hgiven, hcommand, htarget, -⟩
  · exact absurd hok hrefused.code_ne
  · cases hgiven
    cases hcommand
    exact htarget

/-- A bind by the connection that owns the device online collects nothing and
leaves its queue. -/
theorem bind_owner_keeps {device : Device} (h : manager.device? nodeId = some device)
    (honline : device.online = true) (transport : DeviceTransport) (now : ℤ) :
    let result := gatewayMachine.step manager
      (.bind (some nodeId) transport device.fd device.threadId now)
    result.2.commands = [] ∧ result.1.pending nodeId = manager.pending nodeId := by
  obtain ⟨i, hi, rfl⟩ := exists_findIndex h
  have hsame : ∀ {j}, deviceManagerFindIndexLocked manager nodeId = some j → j = i := by
    intro j hj
    rw [hi, Option.some.injEq] at hj
    exact hj.symm
  rcases bindConnectionCollectCommands_cases manager (some nodeId) transport
    (manager.device i).fd (manager.device i).threadId now gatewayCollectArgs with hstep |
    ⟨name, _, _, hname, hnone, -⟩ | ⟨name, j, hname, hj, hstep⟩ | ⟨name, j, hname, hj, -, hnot, -⟩
  · exact ⟨hstep.commands, congrArg (fun m => DeviceManager.pending m nodeId) hstep.same⟩
  · cases hname
    rw [hi] at hnone
    exact absurd hnone (by simp)
  · cases hname
    obtain rfl := hsame hj
    have hstep' : gatewayMachine.step manager (.bind (some nodeId) transport
        (manager.device j).fd (manager.device j).threadId now) = _ := hstep
    rw [hstep', pending_of_findIndex hj]
    refine ⟨rfl, (pending_setDevice hj ?_ nodeId).trans (if_pos rfl)⟩
    rfl
  · cases hname
    obtain rfl := hsame hj
    exact absurd ⟨honline, rfl, rfl⟩ hnot

/-- **No command is lost, doubled, reordered or misrouted.** After any sequence of
the gateway's calls and for every node: the commands accepted for it are those
handed out for it, in order, and then those still in its queue; what was handed
out was addressed to it; and a bind repeated by the online owner hands out nothing
and keeps the queue. -/
theorem gateway_commands_conserved (calls : List GatewayCall) (nodeId : CStr) :
    accepted nodeId (gatewayMachine.trace calls) =
        handedOut nodeId (gatewayMachine.trace calls) ++
          (gatewayMachine.state calls).pending nodeId ∧
      (∀ cmd ∈ handedOut nodeId (gatewayMachine.trace calls), cmd.targetNode.toCStr = nodeId) ∧
      ∀ device, (gatewayMachine.state calls).device? nodeId = some device →
        device.online = true → ∀ transport now,
          let result := gatewayMachine.step (gatewayMachine.state calls)
            (.bind (some nodeId) transport device.fd device.threadId now)
          result.2.commands = [] ∧
            result.1.pending nodeId = (gatewayMachine.state calls).pending nodeId := by
  have hrun := gatewayMachine.trace_induction
    (P := fun tr manager =>
      accepted nodeId tr = handedOut nodeId tr ++ manager.pending nodeId ∧
        ∀ cmd ∈ accepted nodeId tr, cmd.targetNode.toCStr = nodeId)
    ⟨rfl, fun _ h => absurd h (by simp [accepted])⟩ ?_ calls
  · obtain ⟨hlaw, htarget⟩ := hrun
    refine ⟨hlaw, fun cmd hcmd => htarget cmd ?_, fun device h honline transport now =>
      bind_owner_keeps h honline transport now⟩
    rw [hlaw]
    exact List.mem_append_left _ hcmd
  · rintro tr manager call ⟨hlaw, htarget⟩
    have hstep := gatewayStep_conserved manager call nodeId
    simp only [accepted, handedOut, List.flatMap_append, List.flatMap_cons, List.flatMap_nil,
      List.append_nil] at hlaw htarget ⊢
    refine ⟨?_, fun cmd hcmd => ?_⟩
    · rw [hlaw, List.append_assoc, hstep, List.append_assoc]
    · rcases List.mem_append.mp hcmd with hcmd | hcmd
      · exact htarget cmd hcmd
      · exact targetNode_of_mem_acceptedAt hcmd

/-! ## Ownership -/

/-- What every record of a reachable manager satisfies. -/
structure DeviceOk (device : Device) : Prop where
  nodeId_ne : device.nodeId.bytes ≠ []
  fd_nonneg : device.online = true → 0 ≤ device.fd

/-- All records do. -/
def DeviceManager.Ok (manager : DeviceManager) : Prop := ∀ device ∈ manager.devices, DeviceOk device

theorem DeviceManager.Ok.get (h : manager.Ok) (i : Fin manager.devices.length) :
    DeviceOk (manager.device i) := h _ (List.getElem_mem _)

/-- Where a record comes from in a call. -/
inductive RecordOrigin (manager : DeviceManager) (call : DeviceCall) (device : Device) : Prop
  /-- It was there, on the same connection. -/
  | kept (old : Device) : old ∈ manager.devices → device.nodeId = old.nodeId →
      device.online = old.online → device.fd = old.fd → RecordOrigin manager call device
  /-- It was added with a descriptor, whatever that is. -/
  | registered (given : Option CStr) (transport : DeviceTransport) (fd : ℤ) (threadId : ℕ)
      (now : ℤ) : call = .register given transport fd threadId now → device.nodeId.bytes ≠ [] →
      device.fd = fd → device.online = decide (0 < fd) → RecordOrigin manager call device
  /-- It was bound, or set online. -/
  | connected : (device.nodeId.bytes ≠ [] ∨ ∃ old ∈ manager.devices, device.nodeId = old.nodeId) →
      device.online = true → 0 ≤ device.fd → RecordOrigin manager call device
  /-- It has no connection any more. -/
  | disconnected (old : Device) : old ∈ manager.devices → device.nodeId = old.nodeId →
      device.online = false → device.fd = -1 → RecordOrigin manager call device

namespace RecordOrigin

variable {call : DeviceCall} {device written : Device} {i : Fin manager.devices.length}

theorem of_mem (h : device ∈ manager.devices) : RecordOrigin manager call device :=
  .kept device h rfl rfl rfl

theorem of_refused {result : DeviceManager × DeviceReturn} (hstep : Refused manager result)
    (h : device ∈ result.1.devices) : RecordOrigin manager call device := by
  rw [hstep.same] at h
  exact of_mem h

/-- Of a record that was overwritten the new one is looked at. -/
theorem of_setDevice (h : device ∈ (manager.setDevice i written).devices)
    (hwritten : RecordOrigin manager call written) : RecordOrigin manager call device := by
  rcases List.mem_or_eq_of_mem_set h with h | rfl
  · exact of_mem h
  · exact hwritten

theorem of_addDevice (hroom : manager.devices.length < deviceManagerMaxDevices)
    (h : device ∈ (manager.addDevice written hroom).devices)
    (hwritten : RecordOrigin manager call written) : RecordOrigin manager call device := by
  rcases List.mem_append.mp h with h | h
  · exact of_mem h
  · rw [List.mem_singleton.mp h]
    exact hwritten

/-- The collecting functions, under either name. -/
theorem of_bind {given : Option CStr} {transport : DeviceTransport} {fd : ℤ} {threadId : ℕ}
    {now : ℤ} {args : CollectArgs}
    (h : device ∈ (deviceManagerBindConnectionCollectCommands manager given transport fd threadId
      now args).1.devices) : RecordOrigin manager call device := by
  rcases bindConnectionCollectCommands_cases manager given transport fd threadId now args with
    hstep | ⟨name, bound, hroom, -, -, hname, -, hne, hfd, honline, hnonneg, hstep⟩ |
    ⟨name, i, -, -, hstep⟩ | ⟨name, i, -, -, hnonneg, -, hstep⟩
  · exact of_refused hstep h
  · rw [hstep] at h
    refine of_addDevice hroom h (.connected (.inl ?_) honline (hfd ▸ hnonneg))
    rw [hname]
    exact hne
  · rw [hstep] at h
    exact of_setDevice h (.kept _ (List.getElem_mem i.isLt) rfl rfl rfl)
  · rw [hstep] at h
    exact of_setDevice h (.connected (.inr ⟨_, List.getElem_mem i.isLt, rfl⟩) rfl hnonneg)

theorem of_disconnect {given : Option CStr} {fd : ℤ} {threadId : ℕ} {args : CollectArgs}
    (h : device ∈ (deviceManagerDisconnectCollectCommands manager given fd threadId
      args).1.devices) : RecordOrigin manager call device := by
  rcases disconnectCollectCommands_cases manager given fd threadId args with hstep |
    ⟨name, i, -, -, -, -, hstep⟩
  · exact of_refused hstep h
  · rw [hstep] at h
    exact of_setDevice h (.disconnected _ (List.getElem_mem i.isLt) rfl rfl rfl)

end RecordOrigin

/-- **Every record after a call** has one of these origins. -/
theorem deviceStep_origin (manager : DeviceManager) (call : DeviceCall) {device : Device}
    (h : device ∈ (deviceStep manager call).1.devices) : RecordOrigin manager call device := by
  cases call with
  | register given transport fd threadId now =>
    rcases register_cases manager given transport fd threadId now with hstep |
      ⟨name, added, hroom, -, hne, hname, -, -, hfd, honline, hstep⟩
    · exact .of_refused hstep h
    · rw [deviceStep, hstep] at h
      refine .of_addDevice hroom h (.registered given transport fd threadId now rfl ?_ hfd honline)
      rw [hname]
      exact hne
  | unregister given =>
    rcases unregister_cases manager given with hstep | ⟨name, i, -, -, hdevices, -⟩
    · exact .of_refused hstep h
    · rw [deviceStep, hdevices] at h
      exact .of_mem (List.mem_of_mem_eraseIdx h)
  | setOnline given online fd =>
    rcases setOnline_cases manager given online fd with hstep | ⟨name, i, -, -, hfd, hstep⟩
    · exact .of_refused hstep h
    · rw [deviceStep, hstep] at h
      refine .of_setDevice h ?_
      -- a descriptor is kept only while the device is online
      by_cases honline : online = 0
      · exact .disconnected _ (List.getElem_mem i.isLt) rfl (by simp [honline]) (by simp [honline])
      · refine .connected (.inr ⟨_, List.getElem_mem i.isLt, rfl⟩) (by simp [honline]) ?_
        simpa [honline] using hfd
  | updateLastSeen given now =>
    rcases updateLastSeen_cases manager given now with hstep | ⟨name, i, -, -, hstep⟩
    · exact .of_refused hstep h
    · rw [deviceStep, hstep] at h
      exact .of_setDevice h (.kept _ (List.getElem_mem i.isLt) rfl rfl rfl)
  | bindConnection given transport fd threadId now => exact .of_bind h
  | bindConnectionCollectCommands given transport fd threadId now args => exact .of_bind h
  | disconnect given fd threadId => exact .of_disconnect h
  | disconnectCollectCommands given fd threadId args => exact .of_disconnect h
  | enqueueCommand given command =>
    rcases enqueueCommand_cases manager given command with hstep |
      ⟨name, cmd, i, hroom, -, -, -, -, -, -, hstep⟩
    · exact .of_refused hstep h
    · rw [deviceStep, hstep] at h
      exact .of_setDevice h (.kept _ (List.getElem_mem i.isLt) rfl rfl rfl)
  | tryDequeueCommand given fd threadId outCommand =>
    rcases tryDequeueCommand_cases manager given fd threadId outCommand with hstep |
      ⟨name, i, hcount, -, -, -, -, -, hstep⟩
    · exact .of_refused hstep h
    · rw [deviceStep, hstep] at h
      exact .of_setDevice h (.kept _ (List.getElem_mem i.isLt) rfl rfl rfl)
  | find given outDevice => exact .of_mem h

/-- **Every reachable record is in order**: a device that is online has a descriptor. -/
theorem deviceMachine_ok {manager : DeviceManager} (h : deviceMachine.Reachable manager) :
    manager.Ok := by
  refine deviceMachine.invariant
    (fun _ hd => absurd hd (by simp [deviceMachine, deviceManagerInit]))
    (fun manager call hok device hdevice => ?_) h
  cases deviceStep_origin manager call hdevice with
  | kept old hold hname honline hfd =>
    refine ⟨hname ▸ (hok old hold).nodeId_ne, fun h => ?_⟩
    rw [hfd]
    exact (hok old hold).fd_nonneg (honline ▸ h)
  | registered given transport fd threadId now _ hne hfd honline =>
    refine ⟨hne, fun h => ?_⟩
    rw [honline] at h
    rw [hfd]
    exact Int.le_of_lt (of_decide_eq_true h)
  | connected hname _ hfd =>
    refine ⟨?_, fun _ => hfd⟩
    rcases hname with hne | ⟨old, hold, hname⟩
    · exact hne
    · exact hname ▸ (hok old hold).nodeId_ne
  | disconnected old hold hname honline _ =>
    refine ⟨hname ▸ (hok old hold).nodeId_ne, fun h => ?_⟩
    rw [honline] at h
    exact absurd h Bool.false_ne_true

/-- A caller the three calls keep out of a node: each answers `CONFLICT`, hands
out nothing and leaves the manager as it is. -/
structure KeptOut (manager : DeviceManager) (nodeId : CStr) (fd : ℤ) (threadId : ℕ) : Prop where
  tryDequeue : deviceManagerTryDequeueCommand manager (some nodeId) fd threadId true =
    (manager, .ofCode .conflict)
  disconnectCollect : ∀ args : CollectArgs, args.refused fd = false →
    deviceManagerDisconnectCollectCommands manager (some nodeId) fd threadId args =
      (manager, .collectNothing .conflict)
  disconnect : deviceManagerDisconnect manager (some nodeId) fd threadId =
    (manager, .ofCode .conflict)

/-- The disconnects compare descriptor and thread, so they keep every other caller out. -/
theorem disconnectCollectCommands_conflict {i : Fin manager.devices.length} {fd : ℤ}
    {threadId : ℕ} {args : CollectArgs} (hne : nodeId.bytes ≠ [])
    (hi : deviceManagerFindIndexLocked manager nodeId = some i) (hargs : args.refused fd = false)
    (howner : (manager.device i).fd ≠ fd ∨ (manager.device i).threadId ≠ threadId) :
    deviceManagerDisconnectCollectCommands manager (some nodeId) fd threadId args =
      (manager, .collectNothing .conflict) := by
  have hgiven : nodeIdGiven (some nodeId) = some nodeId := nodeIdGiven_eq_some_iff.mpr ⟨rfl, hne⟩
  simp only [deviceManagerDisconnectCollectCommands, hgiven, hargs, hi, Bool.false_eq_true,
    if_false, if_pos howner]

/-- The dequeue looks at the thread alone. -/
theorem tryDequeueCommand_conflict_iff {i : Fin manager.devices.length} {fd : ℤ} {threadId : ℕ}
    (hok : manager.Ok) (hne : nodeId.bytes ≠ []) (hfd : 0 ≤ fd)
    (hi : deviceManagerFindIndexLocked manager nodeId = some i) :
    deviceManagerTryDequeueCommand manager (some nodeId) fd threadId true =
        (manager, .ofCode .conflict) ↔
      threadId ≠ (manager.device i).threadId ∨ (manager.device i).online = false := by
  have hgiven : nodeIdGiven (some nodeId) = some nodeId := nodeIdGiven_eq_some_iff.mpr ⟨rfl, hne⟩
  have hargs : ¬ (fd < 0 ∨ (!true) = true) := by
    simp [hfd]
  simp only [deviceManagerTryDequeueCommand, hgiven, if_neg hargs, hi]
  by_cases howner : (!(manager.device i).online) = true ∨ (manager.device i).fd < 0 ∨
      (manager.device i).threadId ≠ threadId
  · rw [if_pos howner]
    simp only [true_iff]
    rcases howner with honline | hneg | hthread
    · exact Or.inr (by simpa using honline)
    -- a device that is online has a descriptor
    · refine Or.inr (Bool.eq_false_iff.mpr fun honline => ?_)
      have := (hok.get i).fd_nonneg honline
      omega
    · exact Or.inl hthread.symm
  · have hnot : ¬ (threadId ≠ (manager.device i).threadId ∨
        (manager.device i).online = false) := by
      rintro (hthread | honline)
      · exact howner (Or.inr (Or.inr hthread.symm))
      · exact howner (Or.inl (by rw [honline]; rfl))
    rw [if_neg howner]
    simp only [hnot, iff_false]
    split
    · exact fun h => absurd (congrArg (fun r => r.2.code) h) (by simp [DeviceReturn.ofCode])
    · exact fun h => absurd (congrArg (fun r => r.2.code) h) (by simp [DeviceReturn.ofCode])

/-- **Who is kept out.** In every reachable state and for every registered device,
a caller whose descriptor or thread is not the recorded one is kept out exactly
when its thread is not the recorded one or the device is offline: a stale
descriptor under the recorded thread passes for the owner. -/
theorem keptOut_iff (manager : DeviceManager) (hreach : deviceMachine.Reachable manager)
    (nodeId : CStr) (device : Device) (hdevice : manager.device? nodeId = some device) (fd : ℤ)
    (threadId : ℕ) (hfd : 0 ≤ fd) (hcaller : (fd, threadId) ≠ (device.fd, device.threadId)) :
    KeptOut manager nodeId fd threadId ↔
      threadId ≠ device.threadId ∨ device.online = false := by
  obtain ⟨i, hi, rfl⟩ := exists_findIndex hdevice
  have hok := deviceMachine_ok hreach
  have hname : (manager.device i).nodeId.toCStr = nodeId :=
    Device.isNode_iff.mp (FirstMatch.getElem_of_find hi)
  have hne : nodeId.bytes ≠ [] := hname ▸ (hok.get i).nodeId_ne
  have howner : (manager.device i).fd ≠ fd ∨ (manager.device i).threadId ≠ threadId := by
    by_contra hboth
    simp only [not_or, not_not] at hboth
    exact hcaller (by rw [hboth.1, hboth.2])
  constructor
  · exact fun h => (tryDequeueCommand_conflict_iff hok hne hfd hi).mp h.tryDequeue
  · intro h
    have hrefused : CollectArgs.refused ⟨false, 0, true⟩ fd = false := by
      simpa [CollectArgs.refused] using hfd
    exact {
      tryDequeue := (tryDequeueCommand_conflict_iff hok hne hfd hi).mpr h
      disconnectCollect := fun args hargs =>
        disconnectCollectCommands_conflict hne hi hargs howner
      disconnect := by
        rw [deviceManagerDisconnect, disconnectCollectCommands_conflict hne hi hrefused howner]
        rfl }

/-- One worker thread binds a node on descriptor 5, reconnects it on descriptor 6,
and a command is queued for the new connection. -/
def reconnectRun : List DeviceCall :=
  let nodeId : CharBuf 32 := ⟨⟨ascii "N1", by decide⟩, by decide⟩
  [.bindConnection (some nodeId.toCStr) .wifi 5 1 0,
    .bindConnection (some nodeId.toCStr) .wifi 6 1 0,
    .enqueueCommand (some nodeId.toCStr) (some ⟨nodeId, nodeId, 1, default⟩)]

/-- **The old connection is not kept out**: it takes the command of the new one. -/
theorem not_keptOut_reconnectRun :
    ∃ device, (deviceMachine.state reconnectRun).device? ⟨ascii "N1", by decide⟩ = some device ∧
      (5, 1) ≠ (device.fd, device.threadId) ∧
      ¬ KeptOut (deviceMachine.state reconnectRun) ⟨ascii "N1", by decide⟩ 5 1 := by
  refine ⟨_, rfl, by decide, fun h => ?_⟩
  have hcode := congrArg (fun r => r.2.code) h.tryDequeue
  exact absurd hcode (by decide)

/-- Another thread is kept out of the same node. -/
theorem keptOut_iff_reconnectRun :
    KeptOut (deviceMachine.state reconnectRun) ⟨ascii "N1", by decide⟩ 6 2 :=
  (keptOut_iff (deviceMachine.state reconnectRun) (deviceMachine.reachable_state reconnectRun)
    ⟨ascii "N1", by decide⟩ _ rfl 6 2 (by decide) (by decide)).mpr (Or.inl (by decide))

end SmartGateway
