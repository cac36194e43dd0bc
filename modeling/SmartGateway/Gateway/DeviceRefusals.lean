import SmartGateway.Gateway.DeviceRuns

/-!
# Calls of the device manager that fail

Every function of `device_manager.c` makes all its checks before it writes. So a call with
any code but `DEVICE_MANAGER_OK` leaves the table as it was, with every record, ring and
count, and hands out no command; a collecting function whose parameters were in order has
written zero to `out_count` by then.
-/

namespace SmartGateway

/-- The check of its parameters that a collecting function makes before it writes to
`out_count`: a node, a descriptor, the count, and an array wherever a capacity is given. -/
structure CollectArgs.Passes (args : CollectArgs) (nodeId : Option CStr) (fd : ℤ) : Prop where
  node : ∃ id, nodeId = some id ∧ id.bytes ≠ []
  fd : 0 ≤ fd
  outCount : args.outCount = true
  outCommands : args.outCommands = true ∨ args.commandCapacity = 0

/-- The call is one of a collecting function, and passes that check. -/
def DeviceCall.CountWritten : DeviceCall → Prop
  | .bindConnectionCollectCommands nodeId _ fd _ _ args =>
    args.Passes nodeId fd ∧ ∀ id, nodeId = some id → id.bytes.length < 32
  | .disconnectCollectCommands nodeId fd _ args => args.Passes nodeId fd
  | _ => False

variable {manager : DeviceManager}

/-! ## Refused, or carried out -/

theorem bindConnectionCollectCommands_refused {given : Option CStr} {transport : DeviceTransport}
    {fd : ℤ} {threadId : ℕ} {now : ℤ} {args : CollectArgs}
    (h : (deviceManagerBindConnectionCollectCommands manager given transport fd threadId now
      args).2.code ≠ .ok) :
    Refused manager
      (deviceManagerBindConnectionCollectCommands manager given transport fd threadId now args) := by
  rcases bindConnectionCollectCommands_cases manager given transport fd threadId now args with
    hrefused | ⟨_, _, _, -, -, -, -, -, -, -, -, hstep⟩ | ⟨_, _, -, -, hstep⟩ |
    ⟨_, _, -, -, -, -, hstep⟩
  · exact hrefused
  all_goals
    rw [hstep] at h
    exact absurd rfl h

theorem disconnectCollectCommands_refused {given : Option CStr} {fd : ℤ} {threadId : ℕ}
    {args : CollectArgs}
    (h : (deviceManagerDisconnectCollectCommands manager given fd threadId args).2.code ≠ .ok) :
    Refused manager (deviceManagerDisconnectCollectCommands manager given fd threadId args) := by
  rcases disconnectCollectCommands_cases manager given fd threadId args with
    hrefused | ⟨_, _, -, -, -, -, hstep⟩
  · exact hrefused
  · rw [hstep] at h
    exact absurd rfl h

theorem find_commands (manager : DeviceManager) (given : Option CStr) (outDevice : Bool) :
    (deviceManagerFind manager given outDevice).commands = [] := by
  unfold deviceManagerFind
  split
  · rfl
  split
  · rfl
  split
  · rfl
  · rfl

/-- **A call that fails** is refused. -/
theorem deviceStep_refused (manager : DeviceManager) {call : DeviceCall}
    (h : (deviceStep manager call).2.code ≠ .ok) : Refused manager (deviceStep manager call) := by
  -- each operation is refused or ends with OK
  cases call with
  | register given transport fd threadId now =>
    rcases register_cases manager given transport fd threadId now with
      hrefused | ⟨_, _, _, -, -, -, -, -, -, -, hstep⟩
    · exact hrefused
    · rw [deviceStep, hstep] at h
      exact absurd rfl h
  | unregister given =>
    rcases unregister_cases manager given with hrefused | ⟨_, _, -, -, -, hret⟩
    · exact hrefused
    · rw [deviceStep, hret] at h
      exact absurd rfl h
  | setOnline given online fd =>
    rcases setOnline_cases manager given online fd with hrefused | ⟨_, _, -, -, -, hstep⟩
    · exact hrefused
    · rw [deviceStep, hstep] at h
      exact absurd rfl h
  | updateLastSeen given now =>
    rcases updateLastSeen_cases manager given now with hrefused | ⟨_, _, -, -, hstep⟩
    · exact hrefused
    · rw [deviceStep, hstep] at h
      exact absurd rfl h
  | bindConnection given transport fd threadId now =>
    exact ⟨(bindConnectionCollectCommands_refused h).same, h, rfl⟩
  | bindConnectionCollectCommands given transport fd threadId now args =>
    exact bindConnectionCollectCommands_refused h
  | disconnect given fd threadId =>
    exact ⟨(disconnectCollectCommands_refused h).same, h, rfl⟩
  | disconnectCollectCommands given fd threadId args =>
    exact disconnectCollectCommands_refused h
  | enqueueCommand given command =>
    rcases enqueueCommand_cases manager given command with
      hrefused | ⟨_, _, _, _, -, -, -, -, -, -, hstep⟩
    · exact hrefused
    · rw [deviceStep, hstep] at h
      exact absurd rfl h
  | tryDequeueCommand given fd threadId outCommand =>
    rcases tryDequeueCommand_cases manager given fd threadId outCommand with
      hrefused | ⟨_, _, _, -, -, -, -, -, hstep⟩
    · exact hrefused
    · rw [deviceStep, hstep] at h
      exact absurd rfl h
  | find given outDevice => exact ⟨rfl, h, find_commands manager given outDevice⟩

/-! ## The count -/

theorem CollectArgs.Passes.refused_eq {args : CollectArgs} {given : Option CStr} {fd : ℤ}
    (h : args.Passes given fd) : args.refused fd = false := by
  have hfd := h.fd
  unfold CollectArgs.refused
  rcases h.outCommands with harray | hcapacity
  · simp [h.outCount, harray, hfd]
  · simp [h.outCount, hcapacity, hfd]

/-- Behind the check the count is zero until the call succeeds. -/
theorem disconnectCollectCommands_outCount {args : CollectArgs} {given : Option CStr} {fd : ℤ}
    (h : args.Passes given fd) (threadId : ℕ)
    (hcode : (deviceManagerDisconnectCollectCommands manager given fd threadId args).2.code ≠ .ok) :
    (deviceManagerDisconnectCollectCommands manager given fd threadId args).2.outCount =
      some 0 := by
  obtain ⟨id, hnode, hne⟩ := h.node
  have hgiven := nodeIdGiven_eq_some_iff.mpr ⟨hnode, hne⟩
  have hrefused := h.refused_eq
  unfold deviceManagerDisconnectCollectCommands at hcode ⊢
  simp only [hgiven, hrefused, Bool.false_eq_true, if_false] at hcode ⊢
  cases hfind : deviceManagerFindIndexLocked manager id with
  | none => rfl
  | some i =>
    simp only [hfind] at hcode ⊢
    split_ifs at hcode ⊢
    · rfl
    · rfl
    · exact absurd rfl hcode

theorem bindConnectionCollectCommands_outCount {args : CollectArgs} {given : Option CStr} {fd : ℤ}
    (h : args.Passes given fd) (hshort : ∀ id, given = some id → id.bytes.length < 32)
    (transport : DeviceTransport) (threadId : ℕ) (now : ℤ)
    (hcode : (deviceManagerBindConnectionCollectCommands manager given transport fd threadId now
      args).2.code ≠ .ok) :
    (deviceManagerBindConnectionCollectCommands manager given transport fd threadId now
      args).2.outCount = some 0 := by
  obtain ⟨id, hnode, hne⟩ := h.node
  have hgiven := nodeIdGiven_eq_some_iff.mpr ⟨hnode, hne⟩
  have hcopy : CharBuf.ofCStr? 32 id = some ⟨id, hshort id hnode⟩ := dif_pos (hshort id hnode)
  have hrefused := h.refused_eq
  unfold deviceManagerBindConnectionCollectCommands at hcode ⊢
  simp only [hgiven, hcopy, hrefused, Bool.false_eq_true, if_false] at hcode ⊢
  cases hfind : deviceManagerFindIndexLocked manager id with
  | none =>
    simp only [hfind] at hcode ⊢
    split_ifs at hcode ⊢
    · exact absurd rfl hcode
    · rfl
  | some i =>
    simp only [hfind] at hcode ⊢
    split_ifs at hcode ⊢
    · rfl
    · exact absurd rfl hcode
    · rfl
    · exact absurd rfl hcode

/-- **Calls that fail change nothing**: whatever the table holds, and whatever is called
with whatever arguments, a code other than `DEVICE_MANAGER_OK` means that the table is as
before and no command is handed out; and a collecting function that passed its parameter
check has counted none. -/
theorem deviceStep_failed (manager : DeviceManager) (call : DeviceCall)
    (h : (deviceStep manager call).2.code ≠ .ok) :
    (deviceStep manager call).1 = manager ∧ (deviceStep manager call).2.commands = [] ∧
      (call.CountWritten → (deviceStep manager call).2.outCount = some 0) := by
  have hrefused := deviceStep_refused manager h
  refine ⟨hrefused.same, hrefused.commands, fun hcount => ?_⟩
  cases call with
  | bindConnectionCollectCommands given transport fd threadId now args =>
    exact bindConnectionCollectCommands_outCount hcount.1 hcount.2 transport threadId now h
  | disconnectCollectCommands given fd threadId args =>
    exact disconnectCollectCommands_outCount hcount threadId h
  | _ => exact hcount.elim

/-- A disconnect of a node that is not there. -/
theorem deviceStep_failed_disconnect :
    (deviceStep deviceManagerInit (.disconnectCollectCommands (some (cstr (ascii "N1"))) 3 0
      ⟨true, 8, true⟩)).2.outCount = some 0 :=
  (deviceStep_failed deviceManagerInit (.disconnectCollectCommands (some (cstr (ascii "N1"))) 3 0
    ⟨true, 8, true⟩) (by decide)).2.2
      ⟨⟨_, rfl, by decide⟩, by decide, rfl, .inl rfl⟩

end SmartGateway
