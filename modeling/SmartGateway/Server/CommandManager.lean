import SmartGateway.Common.FrameParser
import SmartGateway.Lib.FirstMatch
import SmartGateway.Lib.Lists
import SmartGateway.Lib.Machine

/-!
# The command manager

`server/command_manager.c`: the table of commands on their way, the sequence
numbers given to them, and what an answer or the clock does to an entry. The
pointers a caller may leave NULL are options or flags; the clock is an argument.

Two facts about runs are proved at the end. Only `command_manager_send` touches
the free slots, so a run has room for as many commands as the table has slots,
and no more. And one pass of the timeout check reports the entries it changes in
table order, as far as the caller's arrays reach.
-/

namespace SmartGateway

/-- `COMMAND_MANAGER_MAX_COMMANDS`. -/
abbrev commandManagerMaxCommands : ℕ := 64

/-- `command_state_t`. -/
inductive CommandState
  | free
  | waiting
  | acked
  | nacked
  | timeout
deriving DecidableEq

/-- `command_entry_t`. -/
structure CommandEntry where
  state : CommandState
  sequence : UInt32
  sender : CharBuf 32
  targetNode : CharBuf 32
  fields : FrameFields
  sentTime : ℤ
  retries : ℕ
deriving DecidableEq

/-- `struct command_manager`. -/
structure CommandManager where
  entries : List CommandEntry
  nextSequence : UInt32
  size : entries.length = commandManagerMaxCommands

/-- A zeroed entry. -/
def CommandEntry.zero : CommandEntry := ⟨.free, 0, default, default, default, 0, 0⟩

/-- `command_manager_create`. Zero is kept for an unknown sequence. -/
def commandManagerCreate : CommandManager where
  entries := List.replicate commandManagerMaxCommands CommandEntry.zero
  nextSequence := 1
  size := List.length_replicate

/-- Write through an entry pointer. -/
def CommandManager.setEntry (manager : CommandManager) (i : Fin manager.entries.length)
    (entry : CommandEntry) : CommandManager where
  entries := manager.entries.set i entry
  nextSequence := manager.nextSequence
  size := by rw [List.length_set, manager.size]

/-- `command_manager_find`. -/
def commandManagerFind (manager : CommandManager) (sequence : UInt32) :
    Option (Fin manager.entries.length) :=
  manager.entries.findFinIdx? fun entry => entry.state ≠ .free && entry.sequence == sequence

/-- The sequence after one that has just been given out. -/
def nextSequenceAfter (sequence : UInt32) : UInt32 :=
  if sequence + 1 = 0 then 1 else sequence + 1

/-- `command_manager_send`: the sequence written to `sequence_out`, or `none` for
-1. `fields` is `none` for a NULL array with a positive count. -/
def commandManagerSend (manager : CommandManager) (targetNode sender : Option CStr)
    (fields : Option (List FrameKv)) (sequenceOut : Bool) (now : ℤ) :
    CommandManager × Option UInt32 :=
  match targetNode, sender with
  | some targetNode, some sender =>
    if sender.bytes = [] ∨ targetNode.bytes = [] ∨ !sequenceOut then
      (manager, none)
    else
      match fields with
      | none => (manager, none)
      | some fields =>
        if hfields : frameDataMaxFields < fields.length then
          (manager, none)
        else
          match manager.entries.findFinIdx? (·.state == .free) with
          | none => (manager, none)
          | some i =>
            match CharBuf.ofCStr? 32 sender, CharBuf.ofCStr? 32 targetNode with
            | some sender, some targetNode =>
              let entry : CommandEntry :=
                { state := .waiting
                  sequence := manager.nextSequence
                  sender := sender
                  targetNode := targetNode
                  fields := ⟨fields, Nat.le_of_not_lt hfields⟩
                  sentTime := now
                  retries := 0 }
              ({ manager.setEntry i entry with
                nextSequence := nextSequenceAfter manager.nextSequence }, some manager.nextSequence)
            | _, _ => (manager, none)
  | _, _ => (manager, none)

/-- What `command_manager_on_ack` and `command_manager_on_nack` share: `true` for
0, `false` for -1. -/
def commandManagerAnswer (manager : CommandManager) (sequence : UInt32) (nodeId : CharBuf 32)
    (state : CommandState) : CommandManager × Bool :=
  match commandManagerFind manager sequence with
  | none => (manager, false)
  | some i =>
    if manager.entries[i].targetNode ≠ nodeId then
      (manager, false)
    else if manager.entries[i].state ≠ .waiting then
      -- a late answer is found, and changes nothing
      (manager, true)
    else
      (manager.setEntry i { manager.entries[i] with state := state }, true)

/-- `command_manager_on_ack`. -/
def commandManagerOnAck (manager : CommandManager) : Option FrameAck → CommandManager × Bool
  | none => (manager, false)
  | some ack => commandManagerAnswer manager ack.sequence ack.nodeId .acked

/-- `command_manager_on_nack`. -/
def commandManagerOnNack (manager : CommandManager) : Option FrameNack → CommandManager × Bool
  | none => (manager, false)
  | some nack => commandManagerAnswer manager nack.sequence nack.nodeId .nacked

/-- `command_manager_query`. -/
def commandManagerQuery (manager : CommandManager) (sequence : UInt32) : Option CommandState :=
  (commandManagerFind manager sequence).map fun i => manager.entries[i].state

/-- The arguments of `command_manager_check_timeouts`; a flag says whether the
array of its name is given. -/
structure CheckTimeoutsArgs where
  now : ℤ
  timeoutSec : ℤ
  maxRetries : ℤ
  retrySequences : Bool
  retryTargetNodes : Bool
  retryFields : Bool
  retryFieldCounts : Bool
  retryCapacity : ℕ
  timeoutSequences : Bool
  timeoutCapacity : ℕ

/-- What the arrays hold when the call returns, and the two counts. -/
structure TimeoutReport where
  retrySequences : List UInt32
  retryTargetNodes : List (CharBuf 32)
  retryFields : List FrameFields
  retryFieldCounts : List ℕ
  retries : ℕ
  timeoutSequences : List UInt32
  timedOut : ℕ
deriving DecidableEq

/-- Nothing written. -/
def TimeoutReport.empty : TimeoutReport := ⟨[], [], [], [], 0, [], 0⟩

/-- The branch that marks an entry for another try: its record goes to the
arrays that are given, while there is room. -/
def reportRetry (args : CheckTimeoutsArgs) (entry : CommandEntry) (report : TimeoutReport) :
    TimeoutReport :=
  if args.retrySequences then
    if report.retries < args.retryCapacity then
      { report with
        retrySequences := report.retrySequences ++ [entry.sequence]
        retryTargetNodes := if args.retryTargetNodes then
          report.retryTargetNodes ++ [entry.targetNode] else report.retryTargetNodes
        retryFields := if args.retryFields then
          report.retryFields ++ [entry.fields] else report.retryFields
        retryFieldCounts := if args.retryFieldCounts then
          report.retryFieldCounts ++ [entry.fields.1.length] else report.retryFieldCounts
        retries := report.retries + 1 }
    else
      -- the arrays are full: the record of this entry is dropped
      report
  else
    { report with retries := report.retries + 1 }

/-- The branch that gives an entry up. -/
def reportTimeout (args : CheckTimeoutsArgs) (entry : CommandEntry) (report : TimeoutReport) :
    TimeoutReport :=
  if args.timeoutSequences then
    if report.timedOut < args.timeoutCapacity then
      { report with
        timeoutSequences := report.timeoutSequences ++ [entry.sequence]
        timedOut := report.timedOut + 1 }
    else
      report
  else
    { report with timedOut := report.timedOut + 1 }

/-- One turn of the loop of `command_manager_check_timeouts`. -/
def checkEntry (args : CheckTimeoutsArgs) (entry : CommandEntry) (report : TimeoutReport) :
    CommandEntry × TimeoutReport :=
  if entry.state ≠ .waiting then
    (entry, report)
  else if args.now - entry.sentTime < args.timeoutSec then
    (entry, report)
  else if (entry.retries : ℤ) < args.maxRetries then
    ({ entry with retries := entry.retries + 1, sentTime := args.now },
      reportRetry args entry report)
  else
    ({ entry with state := .timeout }, reportTimeout args entry report)

/-- The loop over the table. -/
def checkEntries (args : CheckTimeoutsArgs) :
    List CommandEntry → TimeoutReport → List CommandEntry × TimeoutReport
  | [], report => ([], report)
  | entry :: entries, report =>
    let (entry, report) := checkEntry args entry report
    let (entries, report) := checkEntries args entries report
    (entry :: entries, report)

theorem length_checkEntries (args : CheckTimeoutsArgs) (entries : List CommandEntry)
    (report : TimeoutReport) : (checkEntries args entries report).1.length = entries.length := by
  induction entries generalizing report with
  | nil => rfl
  | cons entry entries ih => simp [checkEntries, ih]

/-- `command_manager_check_timeouts`, with `none` for -1. -/
def commandManagerCheckTimeouts (manager : CommandManager) (args : CheckTimeoutsArgs) :
    CommandManager × Option TimeoutReport :=
  if args.timeoutSec < 0 ∨ args.maxRetries < 0 then
    (manager, none)
  else
    let result := checkEntries args manager.entries TimeoutReport.empty
    ({ entries := result.1
       nextSequence := manager.nextSequence
       size := by rw [length_checkEntries, manager.size] }, some result.2)

/-! ## Runs -/

/-- The calls that change a manager. -/
inductive CommandCall
  | send (targetNode sender : Option CStr) (fields : Option (List FrameKv)) (sequenceOut : Bool)
      (now : ℤ)
  | onAck (ack : Option FrameAck)
  | onNack (nack : Option FrameNack)
  | checkTimeouts (args : CheckTimeoutsArgs)

/-- What they return. -/
inductive CommandReturn
  | sent (sequence : Option UInt32)
  | answered (found : Bool)
  | checked (report : Option TimeoutReport)
deriving DecidableEq

/-- One call. -/
def commandStep (manager : CommandManager) : CommandCall → CommandManager × CommandReturn
  | .send targetNode sender fields sequenceOut now =>
    let (manager, sequence) := commandManagerSend manager targetNode sender fields sequenceOut now
    (manager, .sent sequence)
  | .onAck ack =>
    let (manager, found) := commandManagerOnAck manager ack
    (manager, .answered found)
  | .onNack nack =>
    let (manager, found) := commandManagerOnNack manager nack
    (manager, .answered found)
  | .checkTimeouts args =>
    let (manager, report) := commandManagerCheckTimeouts manager args
    (manager, .checked report)

/-- The manager as a machine over its calls. -/
def commandMachine : Machine CommandManager CommandCall CommandReturn where
  init := commandManagerCreate
  step := commandStep

/-! ## Room in the table -/

/-- The entries of a state that is not `FREE`. -/
def CommandManager.occupied (manager : CommandManager) : ℕ :=
  manager.entries.countP (·.state != .free)

/-- The entries in state `WAITING`: the commands in flight. -/
def CommandManager.inFlight (manager : CommandManager) : ℕ :=
  manager.entries.countP (·.state == .waiting)

/-- The arguments a caller of `command_manager_send` owes. -/
structure SendArgsOk (targetNode sender : CStr) (fields : List FrameKv) : Prop where
  targetNode_ne : targetNode.bytes ≠ []
  targetNode_short : targetNode.bytes.length < 32
  sender_ne : sender.bytes ≠ []
  sender_short : sender.bytes.length < 32
  fields_le : fields.length ≤ frameDataMaxFields

/-- The table has room: every call of `command_manager_send` with arguments in
order succeeds. -/
def CommandManager.Available (manager : CommandManager) : Prop :=
  ∀ targetNode sender fields now, SendArgsOk targetNode sender fields →
    (commandManagerSend manager (some targetNode) (some sender) (some fields) true now).2 ≠ none

theorem CommandManager.occupied_le (manager : CommandManager) :
    manager.occupied ≤ commandManagerMaxCommands :=
  manager.size ▸ List.countP_le_length

theorem CommandManager.inFlight_le_occupied (manager : CommandManager) :
    manager.inFlight ≤ manager.occupied := by
  refine List.countP_mono_left fun entry _ h => ?_
  rw [beq_iff_eq] at h
  simp [h]

/-- A slot is free while the table is not full. -/
theorem exists_free_iff (manager : CommandManager) :
    (∃ i, manager.entries.findFinIdx? (·.state == .free) = some i) ↔
      manager.occupied < commandManagerMaxCommands := by
  have hnone : manager.entries.findFinIdx? (·.state == .free) = none ↔
      manager.occupied = commandManagerMaxCommands := by
    rw [List.findFinIdx?_eq_none_iff, CommandManager.occupied, ← manager.size,
      List.countP_eq_length]
    simp
  have hle := manager.occupied_le
  rw [← Option.isSome_iff_exists, ← Option.ne_none_iff_isSome, ne_eq, hnone]
  omega

/-- Overwriting an entry moves the count by what the entry itself contributed. -/
theorem CommandManager.occupied_setEntry (manager : CommandManager)
    (i : Fin manager.entries.length) (entry : CommandEntry) :
    (manager.setEntry i entry).occupied + (if manager.entries[i].state = .free then 0 else 1) =
      manager.occupied + (if entry.state = .free then 0 else 1) := by
  have hset : (manager.setEntry i entry).occupied =
      manager.occupied - (if manager.entries[i].state != .free then 1 else 0) +
        (if entry.state != .free then 1 else 0) := List.countP_set i.isLt
  by_cases hold : manager.entries[i].state = .free
  · simp only [hset, hold]
    by_cases hnew : entry.state = .free <;> simp [hnew]
  · have hpos : 0 < manager.occupied :=
      List.countP_pos_iff.mpr ⟨manager.entries[i], List.getElem_mem _, by simpa using hold⟩
    by_cases hnew : entry.state = .free
    · simp only [hset, hnew, bne_iff_ne, ne_eq, hold]
      simp
      omega
    · simp only [hset, hnew, bne_iff_ne, ne_eq, hold]
      simp
      omega

/-- What `command_manager_send` can do: refuse and change nothing, or fill a free
slot with the command under the next sequence. -/
theorem commandManagerSend_cases (manager : CommandManager) (targetNode sender : Option CStr)
    (fields : Option (List FrameKv)) (sequenceOut : Bool) (now : ℤ) :
    commandManagerSend manager targetNode sender fields sequenceOut now = (manager, none) ∨
      ∃ i entry, manager.entries.findFinIdx? (·.state == .free) = some i ∧
        entry.state = .waiting ∧ entry.sequence = manager.nextSequence ∧
        some entry.targetNode.toCStr = targetNode ∧ some entry.sender.toCStr = sender ∧
        some entry.fields.1 = fields ∧ entry.sentTime = now ∧ entry.retries = 0 ∧
        commandManagerSend manager targetNode sender fields sequenceOut now =
          ({ manager.setEntry i entry with
            nextSequence := nextSequenceAfter manager.nextSequence }, some manager.nextSequence) := by
  unfold commandManagerSend
  split
  swap
  · exact Or.inl rfl
  rename_i targetNode sender
  split
  · exact Or.inl rfl
  split
  · exact Or.inl rfl
  rename_i fields
  split
  · exact Or.inl rfl
  rename_i hfields
  split
  · exact Or.inl rfl
  rename_i i hi
  split
  swap
  · exact Or.inl rfl
  rename_i sender' targetNode' hsender htarget
  exact Or.inr ⟨i, _, hi, rfl, rfl, congrArg some (CharBuf.toCStr_of_ofCStr? htarget),
    congrArg some (CharBuf.toCStr_of_ofCStr? hsender), rfl, rfl, rfl, rfl⟩

/-- **A send with arguments in order succeeds exactly while a slot is free.** -/
theorem commandManagerSend_ne_none_iff (manager : CommandManager) {targetNode sender : CStr}
    {fields : List FrameKv} (h : SendArgsOk targetNode sender fields) (now : ℤ) :
    (commandManagerSend manager (some targetNode) (some sender) (some fields) true now).2 ≠ none ↔
      manager.occupied < commandManagerMaxCommands := by
  have hargs : ¬ (sender.bytes = [] ∨ targetNode.bytes = [] ∨ (!true) = true) := by
    simp [h.sender_ne, h.targetNode_ne]
  have hcopy : ∀ {text : CStr}, text.bytes.length < 32 →
      ∃ copy, CharBuf.ofCStr? 32 text = some copy := by
    intro text hlen
    exact ⟨⟨text, hlen⟩, dif_pos hlen⟩
  obtain ⟨sender', hsender⟩ := hcopy h.sender_short
  obtain ⟨targetNode', htarget⟩ := hcopy h.targetNode_short
  rw [← exists_free_iff]
  simp only [commandManagerSend, if_neg hargs, dif_neg (Nat.not_lt.mpr h.fields_le)]
  cases hfree : manager.entries.findFinIdx? (·.state == .free) with
  | none => simp
  | some i => simp [hsender, htarget]

theorem commandManagerAnswer_occupied (manager : CommandManager) (sequence : UInt32)
    (nodeId : CharBuf 32) {state : CommandState} (hstate : state ≠ .free) :
    (commandManagerAnswer manager sequence nodeId state).1.occupied = manager.occupied := by
  unfold commandManagerAnswer
  split
  · rfl
  rename_i i hfind
  split
  · rfl
  split
  · rfl
  rename_i hwaiting
  rw [not_not] at hwaiting
  have hset := manager.occupied_setEntry i { manager.entries[i] with state := state }
  simp only [hwaiting, hstate, reduceCtorEq, if_false] at hset
  exact Nat.add_right_cancel hset

/-- The timeout check leaves a free slot free and a taken one taken. -/
theorem checkEntry_state_eq_free_iff (args : CheckTimeoutsArgs) (entry : CommandEntry)
    (report : TimeoutReport) :
    (checkEntry args entry report).1.state = .free ↔ entry.state = .free := by
  unfold checkEntry
  split
  · rfl
  rename_i hwaiting
  rw [not_not] at hwaiting
  split
  · rfl
  split
  · rfl
  · simp [hwaiting]

theorem checkEntries_countP (args : CheckTimeoutsArgs) (entries : List CommandEntry)
    (report : TimeoutReport) :
    (checkEntries args entries report).1.countP (·.state != .free) =
      entries.countP (·.state != .free) := by
  induction entries generalizing report with
  | nil => rfl
  | cons entry entries ih =>
    have hstate := checkEntry_state_eq_free_iff args entry report
    simp only [checkEntries, List.countP_cons, ih, bne_iff_ne, ne_eq, hstate]

theorem commandManagerCheckTimeouts_occupied (manager : CommandManager) (args : CheckTimeoutsArgs) :
    (commandManagerCheckTimeouts manager args).1.occupied = manager.occupied := by
  unfold commandManagerCheckTimeouts
  split
  · rfl
  · exact checkEntries_countP args manager.entries _

/-- Whether a step of a run was a send that gave out a sequence. -/
def acceptedSend : CommandCall × CommandReturn → Bool
  | (.send .., .sent (some _)) => true
  | _ => false

/-- **One call takes a slot exactly when it is an accepted send.** -/
theorem commandStep_occupied (manager : CommandManager) (call : CommandCall) :
    (commandStep manager call).1.occupied =
      manager.occupied + (if acceptedSend (call, (commandStep manager call).2) then 1 else 0) := by
  cases call with
  | send targetNode sender fields sequenceOut now =>
    rcases commandManagerSend_cases manager targetNode sender fields sequenceOut now with
      h | ⟨i, entry, hi, hstate, -, -, -, -, -, -, h⟩
    · simp [commandStep, h, acceptedSend]
    · have hfree : manager.entries[i].state = .free := by
        simpa using FirstMatch.getElem_of_find hi
      have hset := manager.occupied_setEntry i entry
      simp only [hfree, hstate, if_true, reduceCtorEq, if_false] at hset
      simp only [commandStep, h, acceptedSend, if_true]
      exact hset
  | onAck ack =>
    cases ack with
    | none => rfl
    | some ack => exact commandManagerAnswer_occupied manager _ _ (by decide)
  | onNack nack =>
    cases nack with
    | none => rfl
    | some nack => exact commandManagerAnswer_occupied manager _ _ (by decide)
  | checkTimeouts args => exact commandManagerCheckTimeouts_occupied manager args

/-- The sends a run has accepted are the slots it has taken. -/
theorem occupied_eq_countP (calls : List CommandCall) :
    (commandMachine.state calls).occupied = (commandMachine.trace calls).countP acceptedSend := by
  refine commandMachine.trace_induction
    (P := fun tr manager => manager.occupied = tr.countP acceptedSend) ?_ ?_ calls
  · decide
  · intro tr manager call ih
    rw [List.countP_append, List.countP_singleton, ← ih]
    exact commandStep_occupied manager call

/-- **When the table has room.** After any run, sends in order succeed whenever
fewer than 64 commands are in flight exactly if the run has accepted fewer than 64
commands in all, or all 64 slots are in flight and nothing is asked. -/
theorem available_iff (calls : List CommandCall) :
    ((commandMachine.state calls).inFlight < commandManagerMaxCommands →
        (commandMachine.state calls).Available) ↔
      (commandMachine.trace calls).countP acceptedSend < commandManagerMaxCommands ∨
        (commandMachine.state calls).inFlight = commandManagerMaxCommands := by
  have hflight := (commandMachine.state calls).inFlight_le_occupied
  have hle := (commandMachine.state calls).occupied_le
  rw [← occupied_eq_countP]
  constructor
  · intro h
    by_cases hfull : (commandMachine.state calls).inFlight < commandManagerMaxCommands
    · left
      have hok : SendArgsOk ⟨[1], by decide⟩ ⟨[1], by decide⟩ [] :=
        ⟨by decide, by decide, by decide, by decide, by decide⟩
      exact (commandManagerSend_ne_none_iff _ hok 0).mp (h hfull _ _ _ 0 hok)
    · right
      omega
  · rintro (hroom | hfull) hlt
    · intro targetNode sender fields now hok
      exact (commandManagerSend_ne_none_iff _ hok now).mpr hroom
    · omega

/-- A run that fills the table and has every command answered: 64 sends, then an
ACK for each. -/
def answeredRun : List CommandCall :=
  let nodeId : CharBuf 32 := .lit 32 "N1"
  List.replicate commandManagerMaxCommands
      (.send (some nodeId.toCStr) (some nodeId.toCStr) (some []) true 0) ++
    (List.range commandManagerMaxCommands).map fun i =>
      .onAck (some ⟨nodeId, UInt32.ofNat (i + 1), default⟩)

/-- **No slot comes back.** With nothing in flight the table refuses a send. -/
theorem not_available_answeredRun :
    (commandMachine.state answeredRun).inFlight = 0 ∧
      ¬ (commandMachine.state answeredRun).Available := by
  refine ⟨by decide +kernel, fun h => ?_⟩
  have hok : SendArgsOk ⟨[1], by decide⟩ ⟨[1], by decide⟩ [] :=
    ⟨by decide, by decide, by decide, by decide, by decide⟩
  have hroom := (commandManagerSend_ne_none_iff _ hok 0).mp (h _ _ _ 0 hok)
  exact absurd hroom (by decide +kernel)

/-! ## What the timeout check reports -/

/-- The retry counter went up. -/
def retried (before after : CommandEntry) : Bool := before.retries < after.retries

/-- The command was given up. -/
def timedOut (before after : CommandEntry) : Bool :=
  before.state == .waiting && after.state == .timeout

/-- The entries of the table that changed in the way `r` says, in table order. -/
def changedEntries (r : CommandEntry → CommandEntry → Bool) (before after : List CommandEntry) :
    List CommandEntry :=
  ((before.zip after).filter fun p => r p.1 p.2).map (·.1)

@[simp] theorem changedEntries_nil (r : CommandEntry → CommandEntry → Bool) :
    changedEntries r [] [] = [] := rfl

@[simp] theorem changedEntries_cons (r : CommandEntry → CommandEntry → Bool)
    (e e' : CommandEntry) (es es' : List CommandEntry) :
    changedEntries r (e :: es) (e' :: es') =
      (if r e e' then [e] else []) ++ changedEntries r es es' := by
  unfold changedEntries
  rw [List.zip_cons_cons, List.filter_cons]
  split <;> rfl

/-- The report lists these entries and no others: the four retry arrays in step,
each entry once with its own sequence, target, fields and field count, and the
timeout list. -/
structure TimeoutReport.Lists (report : TimeoutReport) (retries timeouts : List CommandEntry) :
    Prop where
  sequences : report.retrySequences = retries.map (·.sequence)
  targetNodes : report.retryTargetNodes = retries.map (·.targetNode)
  fields : report.retryFields = retries.map (·.fields)
  fieldCounts : report.retryFieldCounts = retries.map (·.fields.1.length)
  retryCount : report.retries = retries.length
  timeoutSequences : report.timeoutSequences = timeouts.map (·.sequence)
  timeoutCount : report.timedOut = timeouts.length

/-- All output arrays are given. -/
structure CheckTimeoutsArgs.ArraysGiven (args : CheckTimeoutsArgs) : Prop where
  retrySequences : args.retrySequences = true
  retryTargetNodes : args.retryTargetNodes = true
  retryFields : args.retryFields = true
  retryFieldCounts : args.retryFieldCounts = true
  timeoutSequences : args.timeoutSequences = true

variable {args : CheckTimeoutsArgs} {report : TimeoutReport}
variable {retries timeouts : List CommandEntry}

/-- A retry goes to the arrays while they have room. -/
theorem reportRetry_lists (hargs : args.ArraysGiven) (entry : CommandEntry)
    (h : report.Lists (retries.take args.retryCapacity) timeouts) :
    (reportRetry args entry report).Lists ((retries ++ [entry]).take args.retryCapacity)
      timeouts := by
  rw [Lists.take_concat, ← h.retryCount, reportRetry, if_pos hargs.retrySequences]
  split
  · exact {
      sequences := by simp [h.sequences]
      targetNodes := by simp [hargs.retryTargetNodes, h.targetNodes]
      fields := by simp [hargs.retryFields, h.fields]
      fieldCounts := by simp [hargs.retryFieldCounts, h.fieldCounts]
      retryCount := by simp [h.retryCount]
      timeoutSequences := h.timeoutSequences
      timeoutCount := h.timeoutCount }
  · exact h

/-- And a timeout to its list. -/
theorem reportTimeout_lists (hargs : args.ArraysGiven) (entry : CommandEntry)
    (h : report.Lists retries (timeouts.take args.timeoutCapacity)) :
    (reportTimeout args entry report).Lists retries
      ((timeouts ++ [entry]).take args.timeoutCapacity) := by
  rw [Lists.take_concat, ← h.timeoutCount, reportTimeout, if_pos hargs.timeoutSequences]
  split
  · exact {
      sequences := h.sequences
      targetNodes := h.targetNodes
      fields := h.fields
      fieldCounts := h.fieldCounts
      retryCount := h.retryCount
      timeoutSequences := by simp [h.timeoutSequences]
      timeoutCount := by simp [h.timeoutCount] }
  · exact h

/-- **One turn of the loop** changes an entry in one of the two ways or not at
all, and reports what it changed. -/
theorem checkEntry_lists (hargs : args.ArraysGiven) (entry : CommandEntry)
    (h : report.Lists (retries.take args.retryCapacity) (timeouts.take args.timeoutCapacity)) :
    (checkEntry args entry report).2.Lists
      ((retries ++ if retried entry (checkEntry args entry report).1 then [entry] else []).take
        args.retryCapacity)
      ((timeouts ++ if timedOut entry (checkEntry args entry report).1 then [entry] else []).take
        args.timeoutCapacity) := by
  unfold checkEntry
  split
  · rename_i hstate
    simpa [retried, timedOut, hstate] using h
  rename_i hstate
  rw [not_not] at hstate
  split
  · simpa [retried, timedOut, hstate] using h
  split
  · simpa [retried, timedOut, hstate] using reportRetry_lists hargs entry h
  · simpa [retried, timedOut, hstate] using reportTimeout_lists hargs entry h

/-- **The whole loop**: what it has listed so far, cut at the capacities, grows by
what it changes in the rest of the table. -/
theorem checkEntries_lists (hargs : args.ArraysGiven) (entries : List CommandEntry)
    (h : report.Lists (retries.take args.retryCapacity) (timeouts.take args.timeoutCapacity)) :
    (checkEntries args entries report).2.Lists
      ((retries ++ changedEntries retried entries (checkEntries args entries report).1).take
        args.retryCapacity)
      ((timeouts ++ changedEntries timedOut entries (checkEntries args entries report).1).take
        args.timeoutCapacity) := by
  induction entries generalizing report retries timeouts with
  | nil => simpa [checkEntries] using h
  | cons entry entries ih =>
    have hstep := ih (checkEntry_lists hargs entry h)
    simp only [checkEntries, changedEntries_cons]
    rw [List.append_assoc, List.append_assoc] at hstep
    exact hstep

/-- The commands a call of `command_manager_check_timeouts` counts a retry of. -/
def CommandManager.retriedBy (manager : CommandManager) (args : CheckTimeoutsArgs) :
    List CommandEntry :=
  changedEntries retried manager.entries (commandManagerCheckTimeouts manager args).1.entries

/-- The commands it gives up. -/
def CommandManager.timedOutBy (manager : CommandManager) (args : CheckTimeoutsArgs) :
    List CommandEntry :=
  changedEntries timedOut manager.entries (commandManagerCheckTimeouts manager args).1.entries

/-- **The timeout report.** With all arrays given, a call of
`command_manager_check_timeouts` lists the first `retry_capacity` of the commands
whose retry it counted and the first `timeout_capacity` of those it gave up, in
table order, each once and with its own data; so it lists all of them when the
capacities reach. A call that fails changes nothing. -/
theorem commandManagerCheckTimeouts_reports (manager : CommandManager) (args : CheckTimeoutsArgs)
    (hargs : args.ArraysGiven) :
    (∀ report, (commandManagerCheckTimeouts manager args).2 = some report →
      report.Lists ((manager.retriedBy args).take args.retryCapacity)
          ((manager.timedOutBy args).take args.timeoutCapacity) ∧
        ((manager.retriedBy args).length ≤ args.retryCapacity →
          (manager.timedOutBy args).length ≤ args.timeoutCapacity →
          report.Lists (manager.retriedBy args) (manager.timedOutBy args))) ∧
    ((commandManagerCheckTimeouts manager args).2 = none →
      (commandManagerCheckTimeouts manager args).1 = manager) := by
  unfold CommandManager.retriedBy CommandManager.timedOutBy commandManagerCheckTimeouts
  split_ifs with hneg
  · exact ⟨fun report h => absurd h (by simp), fun _ => rfl⟩
  · refine ⟨fun report hreport => ?_, fun h => absurd h (by simp)⟩
    obtain rfl := Option.some.inj hreport
    have hempty : TimeoutReport.empty.Lists (([] : List CommandEntry).take args.retryCapacity)
        (([] : List CommandEntry).take args.timeoutCapacity) := by
      rw [List.take_nil, List.take_nil]
      exact ⟨rfl, rfl, rfl, rfl, rfl, rfl, rfl⟩
    have hall := checkEntries_lists hargs manager.entries hempty
    rw [List.nil_append, List.nil_append] at hall
    refine ⟨hall, fun hretries htimeouts => ?_⟩
    rwa [List.take_of_length_le hretries, List.take_of_length_le htimeouts] at hall

/-- Two commands sent at time 0. -/
def twoSends : List CommandCall :=
  let nodeId : CStr := cstr (ascii "N1")
  List.replicate 2 (.send (some nodeId) (some nodeId) (some []) true 0)

/-- A check at which both are overdue, by a caller with room for one. -/
def overdueArgs : CheckTimeoutsArgs := ⟨100, 5, 3, true, true, true, true, 1, true, 1⟩

/-- The first of the two is reported. -/
theorem commandManagerCheckTimeouts_reports_twoSends :
    ∃ report, (commandManagerCheckTimeouts (commandMachine.state twoSends) overdueArgs).2 =
        some report ∧
      report.Lists (((commandMachine.state twoSends).retriedBy overdueArgs).take 1)
        (((commandMachine.state twoSends).timedOutBy overdueArgs).take 1) :=
  ⟨_, rfl, ((commandManagerCheckTimeouts_reports (commandMachine.state twoSends) overdueArgs
    ⟨rfl, rfl, rfl, rfl, rfl⟩).1 _ rfl).1⟩

/-- **The second is not**, though its retry is counted. -/
theorem not_lists_twoSends :
    ∃ report, (commandManagerCheckTimeouts (commandMachine.state twoSends) overdueArgs).2 =
        some report ∧
      ¬ report.Lists ((commandMachine.state twoSends).retriedBy overdueArgs)
        ((commandMachine.state twoSends).timedOutBy overdueArgs) := by
  refine ⟨_, rfl, fun h => ?_⟩
  exact absurd h.retryCount (by decide +kernel)

end SmartGateway
