import SmartGateway.Gateway.DeviceRuns

/-!
# Online flag and descriptor

A record says twice whether its node has a connection, in `online` and in the sign of `fd`.
Every function that writes one writes the other: `device_manager_set_online`, the bind and
the disconnect let a descriptor of zero count as one. `device_manager_register` does not.
-/

namespace SmartGateway

/-- Every record is online exactly if it has a descriptor. -/
def DeviceManager.FlagsAgree (manager : DeviceManager) : Prop :=
  ∀ device ∈ manager.devices, device.online = true ↔ 0 ≤ device.fd

/-- The call registers a node, which the table has room for and does not hold, at
descriptor zero. -/
def DeviceManager.registersZero (manager : DeviceManager) : DeviceCall → Bool
  | .register (some nodeId) _ fd _ now =>
    fd = 0 && now ≠ -1 && nodeId.bytes ≠ [] && nodeId.bytes.length < 32 &&
      (manager.device? nodeId).isNone && manager.devices.length < deviceManagerMaxDevices
  | _ => false

variable {manager : DeviceManager}

/-- What such a call adds. -/
theorem register_zero {nodeId : CStr} {transport : DeviceTransport} {threadId : ℕ} {now : ℤ}
    (hnow : now ≠ -1) (hne : nodeId.bytes ≠ []) (hshort : nodeId.bytes.length < 32)
    (hnew : manager.device? nodeId = none)
    (hroom : manager.devices.length < deviceManagerMaxDevices) :
    ∃ device ∈ (deviceManagerRegister manager (some nodeId) transport 0 threadId now).1.devices,
      device.online = false ∧ device.fd = 0 := by
  have hgiven : nodeIdGiven (some nodeId) = some nodeId := nodeIdGiven_eq_some_iff.mpr ⟨rfl, hne⟩
  have hcopy : CharBuf.ofCStr? 32 nodeId = some ⟨nodeId, hshort⟩ := dif_pos hshort
  have hfind : deviceManagerFindIndexLocked manager nodeId = none := by
    cases hfind : deviceManagerFindIndexLocked manager nodeId with
    | none => rfl
    | some i =>
      rw [device?_of_findIndex hfind] at hnew
      exact absurd hnew (by simp)
  unfold deviceManagerRegister
  simp only [hgiven, hcopy, if_neg hnow, hfind, dif_pos hroom]
  exact ⟨_, List.mem_append_right _ (List.mem_singleton_self _), rfl, rfl⟩

/-- **One call** keeps flag and descriptor together, unless it registers at zero. -/
theorem flagsAgree_step (h : manager.FlagsAgree) (call : DeviceCall) :
    (deviceStep manager call).1.FlagsAgree ↔ (!manager.registersZero call) = true := by
  rw [Bool.not_eq_true']
  constructor
  · intro hagree
    refine eq_false_of_ne_true fun hzero => ?_
    unfold DeviceManager.registersZero at hzero
    split at hzero
    swap
    · exact Bool.false_ne_true hzero
    rename_i nodeId transport fd threadId now
    simp only [Bool.and_eq_true, decide_eq_true_eq, Option.isNone_iff_eq_none] at hzero
    obtain ⟨⟨⟨⟨⟨rfl, hnow⟩, hne⟩, hshort⟩, hnew⟩, hroom⟩ := hzero
    obtain ⟨device, hdevice, honline, hfd⟩ := register_zero hnow hne hshort hnew hroom
    -- offline, with a descriptor
    have hflag := (hagree device hdevice).mpr (le_of_eq hfd.symm)
    rw [honline] at hflag
    exact Bool.false_ne_true hflag
  · intro hother device hdevice
    cases deviceStep_origin manager call hdevice with
    | kept old hold _ honline hfd =>
      rw [honline, hfd]
      exact h old hold
    | registered given transport fd threadId now hcall _ hfd honline =>
      subst hcall
      rcases register_cases manager given transport fd threadId now with hstep |
        ⟨nodeId, added, hroom, rfl, hne, hname, hnone, hnow, -, -, -⟩
      · change device ∈ (deviceManagerRegister manager given transport fd threadId now).1.devices
          at hdevice
        rw [hstep.same] at hdevice
        exact h device hdevice
      · have hpositive : fd ≠ 0 := by
          rintro rfl
          have hshort : nodeId.bytes.length < 32 := by
            rw [← hname]
            exact added.nodeId.fits
          have hnew := device?_of_findIndex_none hnone
          simp [DeviceManager.registersZero, hnow, hne, hshort, hnew, hroom] at hother
        rw [honline, hfd, decide_eq_true_iff]
        omega
    | connected _ honline hfd => exact iff_of_true honline hfd
    | disconnected old _ _ honline hfd =>
      rw [honline, hfd]
      decide

/-- **Flag and descriptor agree** at every point of a run exactly if no call of the run
registers a node at descriptor zero. -/
theorem flagsAgree_iff (calls : List DeviceCall) :
    (∀ before, before <+: calls → (deviceMachine.state before).FlagsAgree) ↔
      deviceMachine.EveryStep (fun manager call => !manager.registersZero call) calls := by
  refine deviceMachine.forall_prefix_iff_everyStep (I := DeviceManager.FlagsAgree) ?_ ?_ calls
  · intro device hdevice
    exact absurd hdevice List.not_mem_nil
  · exact fun manager call h => flagsAgree_step h call

/-- A node registered at descriptor zero. -/
def registerAtZero : List DeviceCall := [.register (some (cstr (ascii "N1"))) .wifi 0 1 100]

/-- **It is offline, and has a descriptor.** -/
theorem not_flagsAgree_registerAtZero :
    ¬ (deviceMachine.state registerAtZero).FlagsAgree := by
  intro h
  have hflag := h _ List.mem_cons_self
  exact absurd (hflag.mpr le_rfl) (by decide)

end SmartGateway
