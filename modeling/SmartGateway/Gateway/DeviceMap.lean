import SmartGateway.Gateway.DeviceRuns
import SmartGateway.Lib.KeyedList

/-!
# The device manager as a map

What the device manager is for: a map from node ids to connection records, each with
the commands that wait for the node. `DeviceMap` is that map, with its own operations,
and `deviceManager_refines_map` says that no sequence of calls tells the array of
records with their rings from it.
-/

namespace SmartGateway

open KeyedList

/-! ## The map -/

/-- What is on record for a node. -/
structure DeviceRecord where
  transport : DeviceTransport
  fd : ℤ
  online : Bool
  threadId : ℕ
  lastSeen : ℤ
  /-- The commands that wait, oldest first. -/
  queue : List FrameCommand
  queue_le : queue.length ≤ deviceCommandQueueCapacity

/-- At most sixteen nodes, with ids of 1 to 31 bytes. -/
structure DeviceMap where
  entries : Finmap fun _ : CStr => DeviceRecord
  card_le : entries.keys.card ≤ deviceManagerMaxDevices
  ids : ∀ id ∈ entries, id.bytes ≠ [] ∧ id.bytes.length < 32

/-- What a call on the map gives its caller. -/
structure MapReturn where
  code : DeviceManagerCode
  commands : List FrameCommand
  outCount : Option ℕ
  device : Option (CStr × DeviceRecord)

/-- A code alone. -/
def MapReturn.ofCode (code : DeviceManagerCode) : MapReturn := ⟨code, [], none, none⟩

/-- A code, and a count of zero. -/
def MapReturn.collectNothing (code : DeviceManagerCode) : MapReturn := ⟨code, [], some 0, none⟩

/-- The whole queue, where an array is given for it, and its length. -/
def MapReturn.collect (args : CollectArgs) (queue : List FrameCommand) : MapReturn :=
  ⟨.ok, if args.outCommands then queue else [], some queue.length, none⟩

namespace DeviceRecord

/-- The record of a connection just made. -/
def connected (transport : DeviceTransport) (fd : ℤ) (threadId : ℕ) (now : ℤ) : DeviceRecord :=
  ⟨transport, fd, true, threadId, now, [], Nat.zero_le _⟩

/-- The connection owns the node, and is online. -/
def OwnedBy (r : DeviceRecord) (fd : ℤ) (threadId : ℕ) : Prop :=
  r.online ∧ r.fd = fd ∧ r.threadId = threadId

instance (r : DeviceRecord) (fd : ℤ) (threadId : ℕ) : Decidable (r.OwnedBy fd threadId) :=
  inferInstanceAs (Decidable (_ ∧ _ ∧ _))

/-- The queue without its first command. -/
def dequeue (r : DeviceRecord) : DeviceRecord :=
  { r with
    queue := r.queue.tail
    queue_le := by rw [List.length_tail]; exact (Nat.sub_le _ _).trans r.queue_le }

@[simp] theorem queue_dequeue (r : DeviceRecord) : r.dequeue.queue = r.queue.tail := rfl

/-- The queue with one more command. -/
def enqueue (r : DeviceRecord) (cmd : FrameCommand)
    (h : r.queue.length < deviceCommandQueueCapacity) : DeviceRecord :=
  { r with
    queue := r.queue ++ [cmd]
    queue_le := by rw [List.length_append, List.length_singleton]; exact h }

@[simp] theorem queue_enqueue (r : DeviceRecord) (cmd : FrameCommand)
    (h : r.queue.length < deviceCommandQueueCapacity) :
    (r.enqueue cmd h).queue = r.queue ++ [cmd] := rfl

/-- The queue emptied. -/
def clear (r : DeviceRecord) : DeviceRecord := { r with queue := [], queue_le := Nat.zero_le _ }

end DeviceRecord

namespace DeviceMap

/-- No node. -/
def empty : DeviceMap := ⟨∅, by simp, fun _ h => absurd h Finmap.notMem_empty⟩

/-- The record of a node. -/
def find? (m : DeviceMap) (id : CStr) : Option DeviceRecord := m.entries.lookup id

theorem keys_insert_of_mem {β : Type*} {m : Finmap fun _ : CStr => β} {id : CStr} {r : β}
    (h : id ∈ m) : (m.insert id r).keys = m.keys := by
  ext other
  rw [Finmap.mem_keys, Finmap.mem_keys, Finmap.mem_insert]
  exact ⟨fun ho => ho.elim (fun he => he ▸ h) fun hmem => hmem, .inr⟩

theorem keys_insert {β : Type*} {m : Finmap fun _ : CStr => β} {id : CStr} {r : β} :
    (m.insert id r).keys = Insert.insert id m.keys := by
  ext other
  rw [Finmap.mem_keys, Finmap.mem_insert, Finset.mem_insert, Finmap.mem_keys]

/-- Another record for a node that has one. -/
def set (m : DeviceMap) (id : CStr) (r : DeviceRecord) : DeviceMap :=
  if h : id ∈ m.entries then
    { entries := m.entries.insert id r
      card_le := by rw [keys_insert_of_mem h]; exact m.card_le
      ids := fun other ho => m.ids other (by
        rwa [← Finmap.mem_keys, keys_insert_of_mem h, Finmap.mem_keys] at ho) }
  else
    m

/-- A node that had none. -/
def add (m : DeviceMap) (id : CStr) (r : DeviceRecord)
    (hid : id.bytes ≠ [] ∧ id.bytes.length < 32)
    (hroom : m.entries.keys.card < deviceManagerMaxDevices) : DeviceMap where
  entries := m.entries.insert id r
  card_le := by
    rw [keys_insert]
    exact (Finset.card_insert_le _ _).trans hroom
  ids := by
    intro other ho
    rcases Finmap.mem_insert.mp ho with rfl | ho
    · exact hid
    · exact m.ids other ho

/-- A node less. -/
def remove (m : DeviceMap) (id : CStr) : DeviceMap where
  entries := m.entries.erase id
  card_le := by
    rw [Finmap.keys_erase]
    exact (Finset.card_le_card (Finset.erase_subset _ _)).trans m.card_le
  ids other ho := m.ids other (Finmap.mem_erase.mp ho).2

section

variable {m : DeviceMap} {id : CStr} {r r' : DeviceRecord}

/-- **A record overwritten** shows under its own name and no other. -/
theorem find?_set (h : m.find? id = some r) (other : CStr) :
    (m.set id r').find? other = if other = id then some r' else m.find? other := by
  rw [set, dif_pos (Finmap.mem_of_lookup_eq_some h)]
  split_ifs with hother
  · rw [hother]
    exact Finmap.lookup_insert _
  · exact Finmap.lookup_insert_of_ne _ hother

/-- **A new record** likewise. -/
theorem find?_add (hid : id.bytes ≠ [] ∧ id.bytes.length < 32)
    (hroom : m.entries.keys.card < deviceManagerMaxDevices) (other : CStr) :
    (m.add id r' hid hroom).find? other = if other = id then some r' else m.find? other := by
  split_ifs with hother
  · rw [hother]
    exact Finmap.lookup_insert _
  · exact Finmap.lookup_insert_of_ne _ hother

/-- **A record taken out** is gone, and no other is. -/
theorem find?_remove (other : CStr) :
    (m.remove id).find? other = if other = id then none else m.find? other := by
  split_ifs with hother
  · rw [hother]
    exact Finmap.lookup_erase _ _
  · exact Finmap.lookup_erase_ne hother

end

/-! ## Its operations -/

/-- What the name of a node may be. -/
abbrev ValidId (id : CStr) : Prop := id.bytes ≠ [] ∧ id.bytes.length < 32

/-- Do something with the record of the node a call names, if its other arguments are
in order. -/
def withRecord (m : DeviceMap) (given : Option CStr) (ok : Bool) (notFound : MapReturn)
    (f : CStr → DeviceRecord → DeviceMap × MapReturn) : DeviceMap × MapReturn :=
  match nodeIdGiven given with
  | none => (m, .ofCode .error)
  | some id =>
    if !ok then
      (m, .ofCode .error)
    else
      match m.find? id with
      | none => (m, notFound)
      | some r => f id r

/-- The ways a call that names a node can go. -/
theorem withRecord_cases (m : DeviceMap) (given : Option CStr) (ok : Bool) (notFound : MapReturn)
    (f : CStr → DeviceRecord → DeviceMap × MapReturn) :
    m.withRecord given ok notFound f = (m, .ofCode .error) ∨
      m.withRecord given ok notFound f = (m, notFound) ∨
      ∃ id r, given = some id ∧ id.bytes ≠ [] ∧ ok = true ∧ m.find? id = some r ∧
        m.withRecord given ok notFound f = f id r := by
  rw [withRecord]
  cases hg : nodeIdGiven given with
  | none => exact .inl rfl
  | some id =>
    obtain ⟨rfl, hne⟩ := nodeIdGiven_eq_some_iff.mp hg
    cases ok with
    | false => exact .inl rfl
    | true =>
      cases hfind : m.find? id with
      | none =>
        right; left
        simp only [Bool.not_true, Bool.false_eq_true, if_false, hfind]
      | some r =>
        right; right
        refine ⟨id, r, rfl, hne, rfl, hfind, ?_⟩
        simp only [Bool.not_true, Bool.false_eq_true, if_false, hfind]

/-- A call that names a node on record. -/
theorem withRecord_of_find {m : DeviceMap} {id : CStr} {r : DeviceRecord} (h : m.find? id = some r)
    (notFound : MapReturn) (f : CStr → DeviceRecord → DeviceMap × MapReturn) :
    m.withRecord (some id) true notFound f = f id r := by
  have hne : id.bytes ≠ [] := (m.ids id (Finmap.mem_of_lookup_eq_some h)).1
  have hgiven : nodeIdGiven (some id) = some id := nodeIdGiven_eq_some_iff.mpr ⟨rfl, hne⟩
  simp only [withRecord, hgiven, h, Bool.not_true, Bool.false_eq_true, if_false]

/-- Put a node on record, if there is room. -/
def create (m : DeviceMap) (id : CStr) (hid : ValidId id) (r : DeviceRecord)
    (created full : MapReturn) : DeviceMap × MapReturn :=
  if hroom : m.entries.keys.card < deviceManagerMaxDevices then
    (m.add id r hid hroom, created)
  else
    (m, full)

/-- A node that must be new. -/
def register (m : DeviceMap) (given : Option CStr) (transport : DeviceTransport) (fd : ℤ)
    (threadId : ℕ) (now : ℤ) : DeviceMap × MapReturn :=
  match given with
  | none => (m, .ofCode .error)
  | some id =>
    if hid : ValidId id ∧ now ≠ -1 then
      match m.find? id with
      | some _ => (m, .ofCode .exists)
      | none =>
        m.create id hid.1 { DeviceRecord.connected transport fd threadId now with online := 0 < fd }
          (.ofCode .ok) (.ofCode .full)
    else
      (m, .ofCode .error)

/-- A node no longer known. -/
def unregister (m : DeviceMap) (given : Option CStr) : DeviceMap × MapReturn :=
  m.withRecord given true (.ofCode .notFound) fun id _ => (m.remove id, .ofCode .ok)

/-- Online with a descriptor, or offline without one. -/
def setOnline (m : DeviceMap) (given : Option CStr) (online fd : ℤ) : DeviceMap × MapReturn :=
  m.withRecord given (online = 0 ∨ (online = 1 ∧ 0 ≤ fd)) (.ofCode .notFound) fun id r =>
    (m.set id { r with online := online ≠ 0, fd := if online = 0 then -1 else fd }, .ofCode .ok)

/-- A message of the node has come. -/
def updateLastSeen (m : DeviceMap) (given : Option CStr) (now : ℤ) : DeviceMap × MapReturn :=
  m.withRecord given (now ≠ -1) (.ofCode .notFound) fun id r =>
    (m.set id { r with lastSeen := now }, .ofCode .ok)

/-- Close a connection that owns its node, and take what is queued. -/
def disconnectCollect (m : DeviceMap) (given : Option CStr) (fd : ℤ) (threadId : ℕ)
    (args : CollectArgs) : DeviceMap × MapReturn :=
  m.withRecord given (!args.refused fd) (.collectNothing .notFound) fun id r =>
    if r.fd ≠ fd ∨ r.threadId ≠ threadId then
      (m, .collectNothing .conflict)
    else if args.outCommands ∧ args.commandCapacity < r.queue.length then
      (m, .collectNothing .bufferTooSmall)
    else
      (m.set id { r.clear with online := false, fd := -1 }, .collect args r.queue)

/-- A connection takes a node over, and takes what is queued for the one before. -/
def takeOver (m : DeviceMap) (id : CStr) (r : DeviceRecord) (transport : DeviceTransport)
    (fd : ℤ) (threadId : ℕ) (now : ℤ) (args : CollectArgs) : DeviceMap × MapReturn :=
  if r.transport ≠ transport then
    (m, .collectNothing .conflict)
  else if r.OwnedBy fd threadId then
    (m.set id { r with lastSeen := now }, .collectNothing .ok)
  else if args.outCommands ∧ args.commandCapacity < r.queue.length then
    (m, .collectNothing .bufferTooSmall)
  else
    (m.set id (.connected transport fd threadId now), .collect args r.queue)

/-- A connection makes a node its own, known or new. -/
def bindCollect (m : DeviceMap) (given : Option CStr) (transport : DeviceTransport) (fd : ℤ)
    (threadId : ℕ) (now : ℤ) (args : CollectArgs) : DeviceMap × MapReturn :=
  match given with
  | none => (m, .ofCode .error)
  | some id =>
    if hid : ValidId id ∧ !args.refused fd then
      match m.find? id with
      | none =>
        m.create id hid.1 (.connected transport fd threadId now) (.collectNothing .ok)
          (.collectNothing .full)
      | some r => m.takeOver id r transport fd threadId now args
    else
      (m, .ofCode .error)

/-- A command for a node that is online and has room for it. -/
def enqueueCommand (m : DeviceMap) (given : Option CStr) (command : Option FrameCommand) :
    DeviceMap × MapReturn :=
  match command with
  | none => (m, .ofCode .error)
  | some cmd =>
    m.withRecord given (some cmd.targetNode.toCStr = given) (.ofCode .notFound) fun id r =>
      if !r.online ∨ r.fd < 0 then
        (m, .ofCode .offline)
      else if h : r.queue.length < deviceCommandQueueCapacity then
        (m.set id (r.enqueue cmd h), .ofCode .ok)
      else
        (m, .ofCode .queueFull)

/-- The first command of a node, for the thread on record. -/
def tryDequeueCommand (m : DeviceMap) (given : Option CStr) (fd : ℤ) (threadId : ℕ)
    (outCommand : Bool) : DeviceMap × MapReturn :=
  m.withRecord given (0 ≤ fd && outCommand) (.ofCode .notFound) fun id r =>
    if !r.online ∨ r.fd < 0 ∨ r.threadId ≠ threadId then
      (m, .ofCode .conflict)
    else
      match r.queue with
      | [] => (m, .ofCode .queueEmpty)
      | cmd :: _ => (m.set id r.dequeue, ⟨.ok, [cmd], none, none⟩)

/-- A copy of a record. -/
def find (m : DeviceMap) (given : Option CStr) (outDevice : Bool) : DeviceMap × MapReturn :=
  m.withRecord given outDevice (.ofCode .notFound) fun id r => (m, ⟨.ok, [], none, some (id, r)⟩)

/-- Only the code of a result. -/
def codeOnly (result : DeviceMap × MapReturn) : DeviceMap × MapReturn :=
  (result.1, .ofCode result.2.code)

/-- One call. -/
def step (m : DeviceMap) : DeviceCall → DeviceMap × MapReturn
  | .register given transport fd threadId now => m.register given transport fd threadId now
  | .unregister given => m.unregister given
  | .setOnline given online fd => m.setOnline given online fd
  | .updateLastSeen given now => m.updateLastSeen given now
  | .bindConnection given transport fd threadId now =>
    codeOnly (m.bindCollect given transport fd threadId now ⟨false, 0, true⟩)
  | .bindConnectionCollectCommands given transport fd threadId now args =>
    m.bindCollect given transport fd threadId now args
  | .disconnect given fd threadId =>
    codeOnly (m.disconnectCollect given fd threadId ⟨false, 0, true⟩)
  | .disconnectCollectCommands given fd threadId args => m.disconnectCollect given fd threadId args
  | .enqueueCommand given command => m.enqueueCommand given command
  | .tryDequeueCommand given fd threadId outCommand =>
    m.tryDequeueCommand given fd threadId outCommand
  | .find given outDevice => m.find given outDevice

/-- The map under calls. -/
def machine : Machine DeviceMap DeviceCall MapReturn where
  init := empty
  step := step

end DeviceMap

/-! ## What the array stands for -/

/-- The record of a device, its ring read out. -/
def Device.record (device : Device) : DeviceRecord where
  transport := device.transport
  fd := device.fd
  online := device.online
  threadId := device.threadId
  lastSeen := device.lastSeen
  queue := device.commandQueue.toList
  queue_le := by rw [Ring.length_toList]; exact device.commandQueue.count_le

/-- A return, its device read out. -/
def DeviceReturn.record (result : DeviceReturn) : MapReturn where
  code := result.code
  commands := result.commands
  outCount := result.outCount
  device := result.device.map fun device => (device.nodeId.toCStr, device.record)

/-- The array is the map. -/
def DeviceManager.StandsFor (manager : DeviceManager) (m : DeviceMap) : Prop :=
  Represents (fun device : Device => device.nodeId.toCStr) Device.record manager.devices m.entries

/-- Two results are one result. -/
structure Agree (result : DeviceManager × DeviceReturn) (result' : DeviceMap × MapReturn) :
    Prop where
  state : result.1.StandsFor result'.1
  output : result.2.record = result'.2

variable {manager : DeviceManager} {m : DeviceMap} {nodeId : CStr}

theorem DeviceManager.StandsFor.same (h : manager.StandsFor m) {result : DeviceReturn}
    {result' : MapReturn} (ho : result.record = result') : Agree (manager, result) (m, result') :=
  ⟨h, ho⟩

/-- The look-up. -/
theorem DeviceManager.StandsFor.lookup (h : manager.StandsFor m) (nodeId : CStr) :
    (deviceManagerFindIndexLocked manager nodeId = none ∧ m.find? nodeId = none) ∨
      ∃ i, deviceManagerFindIndexLocked manager nodeId = some i ∧
        m.find? nodeId = some (manager.device i).record := by
  cases hfind : deviceManagerFindIndexLocked manager nodeId with
  | none => exact .inl ⟨rfl, Represents.lookup_of_find_none h (FirstMatch.find_eq_none hfind)⟩
  | some i => exact .inr ⟨i, rfl, Represents.lookup_of_find h (FirstMatch.find_eq hfind)⟩

/-- A write to a record found. -/
theorem DeviceManager.StandsFor.set (h : manager.StandsFor m) {i : Fin manager.devices.length}
    (hi : deviceManagerFindIndexLocked manager nodeId = some i) {device : Device}
    (hname : device.nodeId = (manager.device i).nodeId) {r : DeviceRecord}
    (hr : device.record = r) : (manager.setDevice i device).StandsFor (m.set nodeId r) := by
  have hfound : (manager.device i).nodeId.toCStr = nodeId :=
    Device.isNode_iff.mp (FirstMatch.getElem_of_find hi)
  have hmem : nodeId ∈ m.entries :=
    (Represents.mem_iff h).mpr ⟨manager.device i, List.getElem_mem _, hfound⟩
  have hset := Represents.set h i.isLt (x := device) (congrArg CharBuf.toCStr hname)
  rw [DeviceManager.StandsFor, DeviceMap.set, dif_pos hmem, ← hr]
  rw [show device.nodeId.toCStr = nodeId by rw [hname, hfound]] at hset
  exact hset

/-- A call that writes to a record found. -/
theorem DeviceManager.StandsFor.write (h : manager.StandsFor m) {i : Fin manager.devices.length}
    (hi : deviceManagerFindIndexLocked manager nodeId = some i) {device : Device}
    (hname : device.nodeId = (manager.device i).nodeId) {r : DeviceRecord}
    (hr : device.record = r) {result : DeviceReturn} {result' : MapReturn}
    (ho : result.record = result') :
    Agree (manager.setDevice i device, result) (m.set nodeId r, result') :=
  ⟨h.set hi hname hr, ho⟩

/-- A new record. -/
theorem DeviceManager.StandsFor.create (h : manager.StandsFor m)
    (hnone : m.find? nodeId = none) {device : Device} (hname : device.nodeId.toCStr = nodeId)
    {r : DeviceRecord} (hr : device.record = r) (hid : DeviceMap.ValidId nodeId)
    {created full : DeviceReturn} :
    Agree
      (if hroom : manager.devices.length < deviceManagerMaxDevices then
        (manager.addDevice device hroom, created)
      else
        (manager, full))
      (m.create nodeId hid r created.record full.record) := by
  have hcard : m.entries.keys.card = manager.devices.length := Represents.card_keys h
  rw [DeviceMap.create]
  by_cases hroom : manager.devices.length < deviceManagerMaxDevices
  · rw [dif_pos hroom, dif_pos (hcard ▸ hroom)]
    refine ⟨?_, rfl⟩
    subst hname hr
    exact Represents.concat h (Finmap.lookup_eq_none.mp hnone)
  · rw [dif_neg hroom, dif_neg (hcard ▸ hroom)]
    exact ⟨h, rfl⟩

/-- A call that names a node: the ways it can go. -/
theorem DeviceManager.StandsFor.withRecord (h : manager.StandsFor m) {given : Option CStr}
    {ok : Bool} (notFound : DeviceReturn) {f : CStr → DeviceRecord → DeviceMap × MapReturn}
    {result : DeviceManager × DeviceReturn}
    (hgiven : nodeIdGiven given = none → result = (manager, .ofCode .error))
    (hok : ok = false → result = (manager, .ofCode .error))
    (hnone : ∀ nodeId, nodeIdGiven given = some nodeId → ok = true →
      deviceManagerFindIndexLocked manager nodeId = none → result = (manager, notFound))
    (hfound : ∀ nodeId i, nodeIdGiven given = some nodeId → ok = true →
      deviceManagerFindIndexLocked manager nodeId = some i →
      Agree result (f nodeId (manager.device i).record)) :
    Agree result (m.withRecord given ok notFound.record f) := by
  rw [DeviceMap.withRecord]
  cases hg : nodeIdGiven given with
  | none =>
    rw [hgiven hg]
    exact h.same rfl
  | some nodeId =>
    cases ok with
    | false =>
      rw [hok rfl]
      exact h.same rfl
    | true =>
      rcases h.lookup nodeId with ⟨hi, hlookup⟩ | ⟨i, hi, hlookup⟩
      · rw [hnone nodeId hg rfl hi]
        simp only [hlookup]
        exact h.same rfl
      · simp only [hlookup]
        exact hfound nodeId i hg rfl hi

/-- The name of a new node is copied if it is short enough. -/
theorem ofCStr?_of_validId (hid : DeviceMap.ValidId nodeId) :
    ∃ copy, CharBuf.ofCStr? 32 nodeId = some copy ∧ copy.toCStr = nodeId := by
  have hcopy : CharBuf.ofCStr? 32 nodeId = some ⟨nodeId, hid.2⟩ := dif_pos hid.2
  exact ⟨_, hcopy, CharBuf.toCStr_of_ofCStr? hcopy⟩

theorem ofCStr?_eq_none (hne : nodeId.bytes ≠ []) (hid : ¬ DeviceMap.ValidId nodeId) :
    CharBuf.ofCStr? 32 nodeId = none := dif_neg fun hlen => hid ⟨hne, hlen⟩

theorem nodeIdGiven_of_ne (hne : nodeId.bytes ≠ []) : nodeIdGiven (some nodeId) = some nodeId :=
  nodeIdGiven_eq_some_iff.mpr ⟨rfl, hne⟩

theorem register_agree (h : manager.StandsFor m) (given : Option CStr)
    (transport : DeviceTransport) (fd : ℤ) (threadId : ℕ) (now : ℤ) :
    Agree (deviceManagerRegister manager given transport fd threadId now)
      (m.register given transport fd threadId now) := by
  rw [DeviceMap.register.eq_def]
  cases given with
  | none => exact h.same rfl
  | some nodeId =>
    rw [deviceManagerRegister]
    by_cases hne : nodeId.bytes = []
    · simp only [nodeIdGiven, DeviceMap.ValidId, hne, ne_eq, not_true_eq_false, false_and,
        dite_false, if_true]
      exact h.same rfl
    rw [nodeIdGiven_of_ne hne]
    by_cases hid : DeviceMap.ValidId nodeId ∧ now ≠ -1
    · obtain ⟨copy, hcopy, hname⟩ := ofCStr?_of_validId hid.1
      simp only [dif_pos hid, hcopy, if_neg hid.2]
      rcases h.lookup nodeId with ⟨hnone, hlookup⟩ | ⟨i, hi, hlookup⟩
      · simp only [hnone, hlookup]
        exact h.create hlookup hname rfl hid.1
      · simp only [hi, hlookup]
        exact h.same rfl
    · simp only [dif_neg hid]
      -- refused for its id or, that being valid, for its time
      by_cases hlen : DeviceMap.ValidId nodeId
      · obtain ⟨copy, hcopy, -⟩ := ofCStr?_of_validId hlen
        have hnow : now = -1 := by
          by_contra hnow
          exact hid ⟨hlen, hnow⟩
        simp only [hcopy, if_pos hnow]
        exact h.same rfl
      · simp only [ofCStr?_eq_none hne hlen]
        exact h.same rfl

theorem unregister_agree (h : manager.StandsFor m) (given : Option CStr) :
    Agree (deviceManagerUnregister manager given) (m.unregister given) := by
  refine h.withRecord (.ofCode .notFound) ?_ nofun ?_ ?_
  · intro hg
    rw [deviceManagerUnregister, hg]
  · intro nodeId hg _ hi
    simp only [deviceManagerUnregister, hg, hi]
  · intro nodeId i hg _ hi
    simp only [deviceManagerUnregister, hg, hi]
    have hfound : (manager.device i).nodeId.toCStr = nodeId :=
      Device.isNode_iff.mp (FirstMatch.getElem_of_find hi)
    have herase := Represents.eraseIdx h i.isLt
    rw [show manager.devices[i.val].nodeId.toCStr = nodeId from hfound] at herase
    exact ⟨herase, rfl⟩

theorem setOnline_agree (h : manager.StandsFor m) (given : Option CStr) (online fd : ℤ) :
    Agree (deviceManagerSetOnline manager given online fd) (m.setOnline given online fd) := by
  refine h.withRecord (.ofCode .notFound) ?_ ?_ ?_ ?_
  · intro hg
    rw [deviceManagerSetOnline, hg]
  · intro hok
    have hbad : ¬ (online = 0 ∨ (online = 1 ∧ 0 ≤ fd)) := of_decide_eq_false hok
    rw [deviceManagerSetOnline]
    split
    · rfl
    split_ifs
    · rfl
    · rfl
    · omega
  · intro nodeId hg hok hi
    have hok : online = 0 ∨ (online = 1 ∧ 0 ≤ fd) := of_decide_eq_true hok
    simp only [deviceManagerSetOnline, hg, hi]
    rw [if_neg (by omega), if_neg (by omega)]
  · intro nodeId i hg hok hi
    have hok : online = 0 ∨ (online = 1 ∧ 0 ≤ fd) := of_decide_eq_true hok
    simp only [deviceManagerSetOnline, hg, hi]
    rw [if_neg (by omega), if_neg (by omega)]
    refine h.write hi ?_ ?_ rfl
    · rfl
    rcases hok with rfl | ⟨rfl, -⟩ <;> rfl

theorem updateLastSeen_agree (h : manager.StandsFor m) (given : Option CStr) (now : ℤ) :
    Agree (deviceManagerUpdateLastSeen manager given now) (m.updateLastSeen given now) := by
  refine h.withRecord (.ofCode .notFound) ?_ ?_ ?_ ?_
  · intro hg
    rw [deviceManagerUpdateLastSeen, hg]
  · intro hok
    have hnow : now = -1 := by simpa using hok
    rw [deviceManagerUpdateLastSeen]
    split
    · rfl
    · rw [if_pos hnow]
  · intro nodeId hg hok hi
    have hnow : now ≠ -1 := of_decide_eq_true hok
    simp only [deviceManagerUpdateLastSeen, hg, hi, if_neg hnow]
  · intro nodeId i hg hok hi
    have hnow : now ≠ -1 := of_decide_eq_true hok
    simp only [deviceManagerUpdateLastSeen, hg, hi, if_neg hnow]
    refine h.write hi ?_ ?_ rfl <;> rfl

/-- The size check of the collecting functions. -/
theorem tooSmall_iff {args : CollectArgs} {device : Device} :
    args.tooSmall device.commandQueue = true ↔
      args.outCommands = true ∧ args.commandCapacity < device.record.queue.length := by
  rw [CollectArgs.tooSmall, Device.record, Ring.length_toList, Bool.and_eq_true,
    decide_eq_true_eq]

/-- What they collect. -/
theorem record_collect (args : CollectArgs) (queue : CommandQueue) :
    (args.collect queue).record = .collect args queue.toList := by
  simp [CollectArgs.collect, DeviceReturn.record, MapReturn.collect]

theorem disconnectCollect_agree (h : manager.StandsFor m) (given : Option CStr) (fd : ℤ)
    (threadId : ℕ) (args : CollectArgs) :
    Agree (deviceManagerDisconnectCollectCommands manager given fd threadId args)
      (m.disconnectCollect given fd threadId args) := by
  refine h.withRecord (.collectNothing .notFound) ?_ ?_ ?_ ?_
  · intro hg
    rw [deviceManagerDisconnectCollectCommands, hg]
  · intro hok
    have hrefused : args.refused fd = true := by simpa using hok
    rw [deviceManagerDisconnectCollectCommands]
    split
    · rfl
    · rw [if_pos hrefused]
  · intro nodeId hg hok hi
    have hrefused : ¬ args.refused fd = true := by simpa using hok
    simp only [deviceManagerDisconnectCollectCommands, hg, hi, if_neg hrefused]
  · intro nodeId i hg hok hi
    have hrefused : ¬ args.refused fd = true := by simpa using hok
    simp only [deviceManagerDisconnectCollectCommands, hg, hi, if_neg hrefused]
    have hrecord : ((manager.device i).record.fd ≠ fd ∨
        (manager.device i).record.threadId ≠ threadId) ↔
        ((manager.device i).fd ≠ fd ∨ (manager.device i).threadId ≠ threadId) := Iff.rfl
    -- the owner of the record is the owner of the slot
    by_cases howner : (manager.device i).fd ≠ fd ∨ (manager.device i).threadId ≠ threadId
    · rw [if_pos howner, if_pos (hrecord.mpr howner)]
      exact h.same rfl
    rw [if_neg howner, if_neg (mt hrecord.mp howner)]
    by_cases hsmall : args.tooSmall (manager.device i).commandQueue = true
    · rw [if_pos hsmall, if_pos (tooSmall_iff.mp hsmall)]
      exact h.same rfl
    · rw [if_neg hsmall, if_neg (mt tooSmall_iff.mpr hsmall)]
      refine h.write hi ?_ ?_ (record_collect _ _) <;> rfl

theorem bindCollect_agree (h : manager.StandsFor m) (given : Option CStr)
    (transport : DeviceTransport) (fd : ℤ) (threadId : ℕ) (now : ℤ) (args : CollectArgs) :
    Agree
      (deviceManagerBindConnectionCollectCommands manager given transport fd threadId now args)
      (m.bindCollect given transport fd threadId now args) := by
  rw [DeviceMap.bindCollect.eq_def]
  cases given with
  | none => exact h.same rfl
  | some nodeId =>
    rw [deviceManagerBindConnectionCollectCommands]
    by_cases hne : nodeId.bytes = []
    · simp only [nodeIdGiven, DeviceMap.ValidId, hne, ne_eq, not_true_eq_false, false_and,
        dite_false, if_true]
      exact h.same rfl
    rw [nodeIdGiven_of_ne hne]
    -- an id that does not fit is refused before the other arguments are looked at
    by_cases hvalid : DeviceMap.ValidId nodeId
    swap
    · have hid : ¬ (DeviceMap.ValidId nodeId ∧ (!args.refused fd) = true) := fun hid => hvalid hid.1
      simp only [dif_neg hid, ofCStr?_eq_none hne hvalid]
      exact h.same rfl
    obtain ⟨copy, hcopy, hname⟩ := ofCStr?_of_validId hvalid
    by_cases hrefused : args.refused fd = true
    · have hid : ¬ (DeviceMap.ValidId nodeId ∧ (!args.refused fd) = true) := by
        rintro ⟨-, hnot⟩
        rw [hrefused] at hnot
        cases hnot
      simp only [dif_neg hid, hcopy, if_pos hrefused]
      exact h.same rfl
    have hid : DeviceMap.ValidId nodeId ∧ (!args.refused fd) = true :=
      ⟨hvalid, by simpa using hrefused⟩
    simp only [dif_pos hid, hcopy, if_neg hrefused]
    rcases h.lookup nodeId with ⟨hnone, hlookup⟩ | ⟨i, hi, hlookup⟩
    · simp only [hnone, hlookup]
      exact h.create hlookup hname rfl hvalid
    -- the device is known: a connection of another kind, the owner again, or a take-over
    simp only [hi, hlookup, DeviceMap.takeOver]
    have hrecord : (manager.device i).record.OwnedBy fd threadId ↔ (manager.device i).online ∧
        (manager.device i).fd = fd ∧ (manager.device i).threadId = threadId := Iff.rfl
    by_cases htransport : (manager.device i).transport ≠ transport
    · rw [if_pos htransport, if_pos (show (manager.device i).record.transport ≠ _ from htransport)]
      exact h.same rfl
    rw [if_neg htransport, if_neg (show ¬ (manager.device i).record.transport ≠ _ from htransport)]
    by_cases howner : (manager.device i).online ∧ (manager.device i).fd = fd ∧
        (manager.device i).threadId = threadId
    · rw [if_pos howner, if_pos (hrecord.mpr howner)]
      refine h.write hi ?_ ?_ rfl <;> rfl
    rw [if_neg howner, if_neg (mt hrecord.mp howner)]
    by_cases hsmall : args.tooSmall (manager.device i).commandQueue = true
    · rw [if_pos hsmall, if_pos (tooSmall_iff.mp hsmall)]
      exact h.same rfl
    · rw [if_neg hsmall, if_neg (mt tooSmall_iff.mpr hsmall)]
      refine h.write hi ?_ ?_ (record_collect _ _)
      · rfl
      rw [← not_not.mp htransport]
      rfl

theorem enqueueCommand_agree (h : manager.StandsFor m) (given : Option CStr)
    (command : Option FrameCommand) :
    Agree (deviceManagerEnqueueCommand manager given command) (m.enqueueCommand given command) := by
  cases command with
  | none =>
    rw [deviceManagerEnqueueCommand.eq_def]
    split
    · rename_i heq
      cases heq
    · exact h.same rfl
  | some cmd =>
    have htarget : ∀ {nodeId : CStr}, nodeIdGiven given = some nodeId →
        decide (some cmd.targetNode.toCStr = given) = true →
        ¬ (cmd.targetNode.bytes = [] ∨ cmd.targetNode.toCStr ≠ nodeId) := by
      intro nodeId hg hok
      obtain ⟨rfl, hne⟩ := nodeIdGiven_eq_some_iff.mp hg
      have he := Option.some.inj (of_decide_eq_true hok)
      rintro (hempty | hother)
      · exact hne (he ▸ hempty)
      · exact hother he
    refine h.withRecord (.ofCode .notFound) ?_ ?_ ?_ ?_
    · intro hg
      simp only [deviceManagerEnqueueCommand, hg]
    · intro hok
      have htarget : some cmd.targetNode.toCStr ≠ given := of_decide_eq_false hok
      rw [deviceManagerEnqueueCommand.eq_def]
      split
      · rename_i nodeId cmd' hg heq
        obtain rfl := Option.some.inj heq
        obtain rfl := (nodeIdGiven_eq_some_iff.mp hg).1
        rw [if_pos (.inr fun he => htarget (congrArg some he))]
      · rfl
    · intro nodeId hg hok hi
      simp only [deviceManagerEnqueueCommand, hg, hi, if_neg (htarget hg hok)]
    · intro nodeId i hg hok hi
      simp only [deviceManagerEnqueueCommand, hg, hi, if_neg (htarget hg hok)]
      have hoffline :
          ((!(manager.device i).record.online) = true ∨ (manager.device i).record.fd < 0) ↔
            ((!(manager.device i).online) = true ∨ (manager.device i).fd < 0) := Iff.rfl
      by_cases honline : (!(manager.device i).online) = true ∨ (manager.device i).fd < 0
      · rw [if_pos honline, if_pos (hoffline.mpr honline)]
        exact h.same rfl
      rw [if_neg honline, if_neg (mt hoffline.mp honline)]
      -- the length of the queue is the count of the ring
      have hcount : (manager.device i).record.queue.length =
          (manager.device i).commandQueue.count := Ring.length_toList _
      by_cases hroom : (manager.device i).commandQueue.count < deviceCommandQueueCapacity
      · rw [dif_pos hroom, dif_pos (hcount ▸ hroom)]
        refine h.write hi ?_ ?_ rfl
        · rfl
        · simp only [Device.record, DeviceRecord.enqueue, Ring.toList_push]
      · rw [dif_neg hroom, dif_neg (hcount ▸ hroom)]
        exact h.same rfl

theorem tryDequeueCommand_agree (h : manager.StandsFor m) (given : Option CStr) (fd : ℤ)
    (threadId : ℕ) (outCommand : Bool) :
    Agree (deviceManagerTryDequeueCommand manager given fd threadId outCommand)
      (m.tryDequeueCommand given fd threadId outCommand) := by
  have hcheck : (decide (0 ≤ fd) && outCommand) = true ↔ ¬ (fd < 0 ∨ (!outCommand) = true) := by
    simp
  refine h.withRecord (.ofCode .notFound) ?_ ?_ ?_ ?_
  · intro hg
    rw [deviceManagerTryDequeueCommand, hg]
  · intro hok
    have hbad : fd < 0 ∨ (!outCommand) = true := by
      by_contra hgood
      rw [hcheck.mpr hgood] at hok
      cases hok
    rw [deviceManagerTryDequeueCommand]
    split
    · rfl
    · rw [if_pos hbad]
  · intro nodeId hg hok hi
    simp only [deviceManagerTryDequeueCommand, hg, hi, if_neg (hcheck.mp hok)]
  · intro nodeId i hg hok hi
    simp only [deviceManagerTryDequeueCommand, hg, hi, if_neg (hcheck.mp hok)]
    have hrecord : ((!(manager.device i).record.online) = true ∨ (manager.device i).record.fd < 0 ∨
        (manager.device i).record.threadId ≠ threadId) ↔
        ((!(manager.device i).online) = true ∨ (manager.device i).fd < 0 ∨
          (manager.device i).threadId ≠ threadId) := Iff.rfl
    by_cases howner : (!(manager.device i).online) = true ∨ (manager.device i).fd < 0 ∨
        (manager.device i).threadId ≠ threadId
    · rw [if_pos howner, if_pos (hrecord.mpr howner)]
      exact h.same rfl
    rw [if_neg howner, if_neg (mt hrecord.mp howner)]
    -- the front of the ring is the head of the queue
    by_cases hcount : 0 < (manager.device i).commandQueue.count
    · have hpop : (manager.device i).record.queue = (manager.device i).commandQueue.front ::
          ((manager.device i).commandQueue.pop hcount).toList := Ring.toList_pop _ hcount
      rw [dif_pos hcount]
      simp only [hpop]
      refine h.write hi ?_ ?_ rfl
      · rfl
      · simp only [Device.record, DeviceRecord.dequeue, Ring.toList_pop _ hcount, List.tail_cons]
    · have hnil : (manager.device i).record.queue = [] :=
        (Ring.toList_eq_nil_iff _).mpr (Nat.eq_zero_of_not_pos hcount)
      rw [dif_neg hcount]
      simp only [hnil]
      exact h.same rfl

theorem find_agree (h : manager.StandsFor m) (given : Option CStr) (outDevice : Bool) :
    Agree (manager, deviceManagerFind manager given outDevice) (m.find given outDevice) := by
  refine h.withRecord (.ofCode .notFound) ?_ ?_ ?_ ?_
  · intro hg
    rw [deviceManagerFind, hg]
  · rintro rfl
    rw [deviceManagerFind]
    split
    · rfl
    · rfl
  · rintro nodeId hg rfl hi
    simp [deviceManagerFind, hg, hi]
  · rintro nodeId i hg rfl hi
    have hfound : (manager.device i).nodeId.toCStr = nodeId :=
      Device.isNode_iff.mp (FirstMatch.getElem_of_find hi)
    simp only [deviceManagerFind, hg, hi]
    refine h.same ?_
    rw [← hfound]
    rfl

/-- The functions that keep what they collect to themselves. -/
theorem Agree.codeOnly {result : DeviceManager × DeviceReturn} {result' : DeviceMap × MapReturn}
    (h : Agree result result') :
    Agree (result.1, .ofCode result.2.code) (DeviceMap.codeOnly result') := by
  refine ⟨h.state, ?_⟩
  rw [DeviceMap.codeOnly, ← h.output]
  rfl

/-- **One call** on the array is one call on the map. -/
theorem deviceStep_agree (h : manager.StandsFor m) (call : DeviceCall) :
    Agree (deviceStep manager call) (m.step call) := by
  cases call with
  | register given transport fd threadId now =>
    exact register_agree h given transport fd threadId now
  | unregister given => exact unregister_agree h given
  | setOnline given online fd => exact setOnline_agree h given online fd
  | updateLastSeen given now => exact updateLastSeen_agree h given now
  | bindConnection given transport fd threadId now =>
    exact (bindCollect_agree h given transport fd threadId now _).codeOnly
  | bindConnectionCollectCommands given transport fd threadId now args =>
    exact bindCollect_agree h given transport fd threadId now args
  | disconnect given fd threadId => exact (disconnectCollect_agree h given fd threadId _).codeOnly
  | disconnectCollectCommands given fd threadId args =>
    exact disconnectCollect_agree h given fd threadId args
  | enqueueCommand given command => exact enqueueCommand_agree h given command
  | tryDequeueCommand given fd threadId outCommand =>
    exact tryDequeueCommand_agree h given fd threadId outCommand
  | find given outDevice => exact find_agree h given outDevice

/-- The array and the map after the same calls. -/
theorem standsFor_state (calls : List DeviceCall) :
    (deviceMachine.state calls).StandsFor (DeviceMap.machine.state calls) ∧
      (deviceMachine.trace calls).map (fun step => (step.1, step.2.record)) =
        DeviceMap.machine.trace calls :=
  deviceMachine.simulation (N := DeviceMap.machine) (R := DeviceManager.StandsFor)
    DeviceReturn.record Represents.nil
    (fun _ _ call h => ⟨(deviceStep_agree h call).state, (deviceStep_agree h call).output⟩) calls

/-- What the array has on record is what the map has. -/
theorem DeviceManager.StandsFor.device? (h : manager.StandsFor m) (nodeId : CStr) :
    (manager.device? nodeId).map Device.record = m.find? nodeId := by
  rcases h.lookup nodeId with ⟨hnone, hlookup⟩ | ⟨i, hi, hlookup⟩
  · rw [device?_of_findIndex_none hnone, hlookup]
    rfl
  · rw [device?_of_findIndex hi, hlookup]
    rfl

/-- An unregister takes its entry out and leaves the others. -/
theorem find?_unregister (m : DeviceMap) {nodeId : CStr} (hne : nodeId.bytes ≠ []) (other : CStr) :
    (m.unregister (some nodeId)).1.find? other =
      if other = nodeId then none else m.find? other := by
  have hgiven := nodeIdGiven_of_ne hne
  simp only [DeviceMap.unregister, DeviceMap.withRecord, hgiven, Bool.not_true,
    Bool.false_eq_true, if_false]
  cases hfind : m.find? nodeId with
  | none =>
    split_ifs with hother
    · rw [hother]
      exact hfind
    · rfl
  | some r => exact DeviceMap.find?_remove other

/-- **The device manager is a map.** Whatever calls are made, with whatever arguments
and clock readings, every code and every output is the one the map gives, and the
records and queues at the end are the map's; an unregister deletes the entry it names
and leaves the others as they are. -/
theorem deviceManager_refines_map (calls : List DeviceCall) :
    (deviceMachine.trace calls).map (fun step => (step.1, step.2.record)) =
        DeviceMap.machine.trace calls ∧
      (∀ nodeId, ((deviceMachine.state calls).device? nodeId).map Device.record =
        (DeviceMap.machine.state calls).find? nodeId) ∧
      (deviceMachine.state calls).devices.length =
        (DeviceMap.machine.state calls).entries.keys.card ∧
      ∀ nodeId : CStr, nodeId.bytes ≠ [] → ∀ other,
        ((DeviceMap.machine.state calls).unregister (some nodeId)).1.find? other =
          if other = nodeId then none else (DeviceMap.machine.state calls).find? other := by
  obtain ⟨hstands, htrace⟩ := standsFor_state calls
  refine ⟨htrace, fun nodeId => hstands.device? nodeId, ?_, fun nodeId hne other => ?_⟩
  · exact (Represents.card_keys hstands).symm
  · exact find?_unregister _ hne other

end SmartGateway
