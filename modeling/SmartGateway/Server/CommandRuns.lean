import SmartGateway.Server.CommandManager

/-!
# The life of a command

What becomes of the commands of the table, whatever calls are made. No slot is ever
freed, so sends fill the table from the front, with the sequences counted up from one;
what a call does to the table is therefore what it does to the list of its commands, and
`table_effect` says what that is. A command waits until it is answered or given up, and
then stays as it is.
-/

namespace SmartGateway

/-- The commands of the table. -/
def CommandManager.live (manager : CommandManager) : List CommandEntry :=
  manager.entries.filter (·.state != .free)

/-- What can become of the state of a command in a call. -/
inductive LifeStep (call : CommandCall) (command : CommandEntry) : CommandState → Prop
  | stays : LifeStep call command command.state
  /-- Its own node acknowledges it. -/
  | acked (ack : FrameAck) : call = .onAck (some ack) → ack.sequence = command.sequence →
      ack.nodeId = command.targetNode → command.state = .waiting → LifeStep call command .acked
  /-- Its own node refuses it. -/
  | nacked (nack : FrameNack) : call = .onNack (some nack) → nack.sequence = command.sequence →
      nack.nodeId = command.targetNode → command.state = .waiting → LifeStep call command .nacked
  /-- It is given up. -/
  | timeout (args : CheckTimeoutsArgs) : call = .checkTimeouts args → command.state = .waiting →
      LifeStep call command .timeout

/-- A command, and the same command after a call. -/
structure Continues (call : CommandCall) (command command' : CommandEntry) : Prop where
  sequence : command'.sequence = command.sequence
  sender : command'.sender = command.sender
  targetNode : command'.targetNode = command.targetNode
  fields : command'.fields = command.fields
  state : LifeStep call command command'.state

/-- The command was sent with this sequence, sender, target and fields. -/
def SentAs (command : CommandEntry) (trace : List (CommandCall × CommandReturn)) : Prop :=
  ∃ sequenceOut now, (CommandCall.send (some command.targetNode.toCStr)
    (some command.sender.toCStr) (some command.fields.1) sequenceOut now,
    CommandReturn.sent (some command.sequence)) ∈ trace

/-- The sequence an answer names. -/
def CommandCall.answered? : CommandCall → Option UInt32
  | .onAck (some ack) => some ack.sequence
  | .onNack (some nack) => some nack.sequence
  | _ => none

/-! ## The table, filled from the front -/

/-- The commands stand at the front of the table, and their sequences are counted up from
one. -/
structure CommandManager.Filled (manager : CommandManager) : Prop where
  entries : ∃ free, manager.entries = manager.live ++ free ∧ ∀ e ∈ free, e.state = .free
  sequences : manager.live.map CommandEntry.sequence =
    (List.range manager.live.length).map fun i => UInt32.ofNat (i + 1)
  next : manager.nextSequence = UInt32.ofNat (manager.live.length + 1)

variable {manager : CommandManager}

theorem CommandManager.state_ne_of_mem_live {e : CommandEntry} (h : e ∈ manager.live) :
    e.state ≠ .free := by
  simpa using (List.mem_filter.mp h).2

theorem CommandManager.live_of_entries {live free : List CommandEntry}
    (h : manager.entries = live ++ free) (hlive : ∀ e ∈ live, e.state ≠ .free)
    (hfree : ∀ e ∈ free, e.state = .free) : manager.live = live := by
  have hleft : live.filter (·.state != .free) = live :=
    List.filter_eq_self.mpr fun e he => by simpa using hlive e he
  have hright : free.filter (·.state != .free) = [] :=
    List.filter_eq_nil_iff.mpr fun e he => by simpa using hfree e he
  rw [CommandManager.live, h, List.filter_append, hleft, hright, List.append_nil]

theorem CommandManager.length_live_le (manager : CommandManager) :
    manager.live.length ≤ commandManagerMaxCommands := by
  rw [← manager.size]
  exact List.length_filter_le _ _

namespace CommandManager.Filled

/-- The sequence of the command at a place. -/
theorem sequence_getElem (h : manager.Filled) {i : ℕ} (hi : i < manager.live.length) :
    manager.live[i].sequence = UInt32.ofNat (i + 1) := by
  have hmap : (manager.live.map CommandEntry.sequence)[i]? = some (UInt32.ofNat (i + 1)) := by
    rw [h.sequences, List.getElem?_map, List.getElem?_range hi]
    rfl
  rw [List.getElem?_map, List.getElem?_eq_getElem hi] at hmap
  exact Option.some.inj hmap

/-- **Live sequences are pairwise distinct.** -/
theorem nodup (h : manager.Filled) : (manager.live.map CommandEntry.sequence).Nodup := by
  rw [h.sequences]
  refine List.Nodup.map_on ?_ List.nodup_range
  intro i hi j hj hij
  have hle : manager.live.length ≤ 64 := manager.length_live_le
  rw [List.mem_range] at hi hj
  have hij := congrArg UInt32.toNat hij
  rw [UInt32.toNat_ofNat', UInt32.toNat_ofNat'] at hij
  omega

/-- **And not zero.** -/
theorem sequence_ne_zero (h : manager.Filled) {e : CommandEntry} (he : e ∈ manager.live) :
    e.sequence ≠ 0 := by
  obtain ⟨i, hi, rfl⟩ := List.getElem_of_mem he
  have hle : manager.live.length ≤ 64 := manager.length_live_le
  rw [h.sequence_getElem hi]
  intro hzero
  have hzero := congrArg UInt32.toNat hzero
  rw [UInt32.toNat_ofNat', UInt32.toNat_zero] at hzero
  omega

/-- Commands of one sequence are one command. -/
theorem eq_of_sequence (h : manager.Filled) {e e' : CommandEntry} (he : e ∈ manager.live)
    (he' : e' ∈ manager.live) (heq : e.sequence = e'.sequence) : e = e' :=
  List.inj_on_of_nodup_map h.nodup he he' heq

end CommandManager.Filled

/-- The look-up finds a command. -/
theorem exists_of_commandManagerFind {sequence : UInt32} {i : Fin manager.entries.length}
    (h : commandManagerFind manager sequence = some i) :
    manager.entries.get i ∈ manager.live ∧ (manager.entries.get i).sequence = sequence := by
  have hfound := FirstMatch.getElem_of_find h
  rw [Bool.and_eq_true, beq_iff_eq] at hfound
  obtain ⟨hstate, hsequence⟩ := hfound
  refine ⟨List.mem_filter.mpr ⟨List.getElem_mem _, ?_⟩, hsequence⟩
  simpa using hstate

/-- **What `command_manager_query` says** are the states of the commands. -/
theorem commandManagerQuery_eq_some_iff (h : manager.Filled) {sequence : UInt32}
    {state : CommandState} :
    commandManagerQuery manager sequence = some state ↔
      ∃ e ∈ manager.live, e.sequence = sequence ∧ e.state = state := by
  rw [commandManagerQuery, Option.map_eq_some_iff]
  constructor
  · rintro ⟨i, hi, rfl⟩
    obtain ⟨hlive, hsequence⟩ := exists_of_commandManagerFind hi
    exact ⟨_, hlive, hsequence, rfl⟩
  · rintro ⟨e, he, rfl, rfl⟩
    cases hfind : commandManagerFind manager e.sequence with
    | none =>
      -- the entry itself would have been found
      have hnone := List.findFinIdx?_eq_none_iff.mp hfind e (List.mem_of_mem_filter he)
      have hstate := CommandManager.state_ne_of_mem_live he
      simp [hstate] at hnone
    | some i =>
      obtain ⟨hlive, hsequence⟩ := exists_of_commandManagerFind hfind
      exact ⟨i, rfl, congrArg CommandEntry.state (h.eq_of_sequence hlive he hsequence)⟩

/-! ## What a call does -/

/-- What the timeout check makes of an entry. -/
def checkedEntry (args : CheckTimeoutsArgs) (entry : CommandEntry) : CommandEntry :=
  (checkEntry args entry .empty).1

/-- The commands after a call. -/
inductive TableEffect (manager : CommandManager) (call : CommandCall) (ret : CommandReturn) :
    List CommandEntry → Prop
  | same : TableEffect manager call ret manager.live
  /-- A new command comes last. -/
  | sent (entry : CommandEntry) (sequenceOut : Bool) :
      call = .send (some entry.targetNode.toCStr) (some entry.sender.toCStr)
        (some entry.fields.1) sequenceOut entry.sentTime →
      ret = .sent (some entry.sequence) → entry.state = .waiting →
      entry.sequence = manager.nextSequence →
      TableEffect manager call ret (manager.live ++ [entry])
  /-- One that waits is answered by its node. -/
  | answered (i : ℕ) (hi : i < manager.live.length) (state : CommandState) :
      manager.live[i].state = .waiting → state ≠ .free → LifeStep call manager.live[i] state →
      call.answered? = some manager.live[i].sequence →
      TableEffect manager call ret (manager.live.set i { manager.live[i] with state := state })
  /-- The check passes over all of them. -/
  | checked (args : CheckTimeoutsArgs) : call = .checkTimeouts args →
      TableEffect manager call ret (manager.live.map (checkedEntry args))

namespace CommandManager.Filled

/-- A slot at a place among the commands. -/
theorem getElem?_live (h : manager.Filled) {n : ℕ} (hn : n < manager.live.length) :
    manager.entries[n]? = some manager.live[n] := by
  obtain ⟨free, hentries, -⟩ := h.entries
  rw [hentries, List.getElem?_append_left hn, List.getElem?_eq_getElem hn]

/-- And one behind them. -/
theorem state_of_ge (h : manager.Filled) {n : ℕ} (hn : manager.live.length ≤ n) {e : CommandEntry}
    (he : manager.entries[n]? = some e) : e.state = .free := by
  obtain ⟨free, hentries, hfree⟩ := h.entries
  rw [hentries, List.getElem?_append_right hn] at he
  exact hfree e (List.mem_of_getElem? he)

/-- The first free slot is the one behind the commands. -/
theorem first_free (h : manager.Filled) {i : Fin manager.entries.length}
    (hi : manager.entries.findFinIdx? (·.state == .free) = some i) :
    i.val = manager.live.length := by
  obtain ⟨hstate, hmin⟩ := List.findFinIdx?_eq_some_iff.mp hi
  have hlt := i.isLt
  have hat : manager.entries[i.val]? = some manager.entries[i] := List.getElem?_eq_getElem hlt
  rcases Nat.lt_trichotomy i.val manager.live.length with hbelow | heq | habove
  · -- a command is not free
    rw [h.getElem?_live hbelow] at hat
    have hne := CommandManager.state_ne_of_mem_live (List.getElem_mem hbelow)
    rw [Option.some.inj hat] at hne
    exact absurd (beq_iff_eq.mp hstate) hne
  · exact heq
  · -- the slot behind the commands is free already
    have hearlier := hmin ⟨manager.live.length, by omega⟩ habove
    have hfree := h.state_of_ge le_rfl
      (List.getElem?_eq_getElem (show manager.live.length < manager.entries.length by omega))
    exact absurd (beq_iff_eq.mpr hfree) hearlier

/-- The look-up finds a place among the commands. -/
theorem getElem_of_find (h : manager.Filled) {sequence : UInt32}
    {i : Fin manager.entries.length} (hi : commandManagerFind manager sequence = some i) :
    ∃ hlt : i.val < manager.live.length, manager.entries.get i = manager.live.get ⟨i, hlt⟩ := by
  obtain ⟨hlive, -⟩ := exists_of_commandManagerFind hi
  have hat : manager.entries[i.val]? = some manager.entries[i] := List.getElem?_eq_getElem i.isLt
  by_cases hbelow : i.val < manager.live.length
  · rw [h.getElem?_live hbelow] at hat
    exact ⟨hbelow, (Option.some.inj hat).symm⟩
  · have hfree := h.state_of_ge (by omega) hat
    exact absurd hfree (CommandManager.state_ne_of_mem_live hlive)

/-- A write to a command. -/
theorem setEntry (h : manager.Filled) {i : Fin manager.entries.length}
    (hi : i.val < manager.live.length) {entry : CommandEntry} (hstate : entry.state ≠ .free)
    (hsequence : entry.sequence = manager.live[i.val].sequence) :
    (manager.setEntry i entry).live = manager.live.set i entry ∧
      (manager.setEntry i entry).Filled := by
  obtain ⟨free, hentries, hfree⟩ := h.entries
  have hset : (manager.setEntry i entry).entries = manager.live.set i entry ++ free := by
    calc (manager.setEntry i entry).entries
        = (manager.live ++ free).set i entry := congrArg (List.set · i.val entry) hentries
      _ = manager.live.set i entry ++ free := List.set_append_left _ _ hi
  have hnot : ∀ e ∈ manager.live.set i entry, e.state ≠ .free := by
    intro e he
    rcases List.mem_or_eq_of_mem_set he with hmem | rfl
    · exact CommandManager.state_ne_of_mem_live hmem
    · exact hstate
  have hlive := CommandManager.live_of_entries hset hnot hfree
  refine ⟨hlive, ⟨free, hlive ▸ hset, hfree⟩, ?_, ?_⟩
  · have hsame : (manager.live.set i entry).map CommandEntry.sequence =
        manager.live.map CommandEntry.sequence := by
      rw [List.map_set, hsequence, ← List.getElem_map CommandEntry.sequence,
        List.set_getElem_self]
      rwa [List.length_map]
    rw [hlive, List.length_set, hsame, h.sequences]
  · rw [hlive, List.length_set]
    exact h.next

/-- A command sent. -/
theorem send (h : manager.Filled) {i : Fin manager.entries.length}
    (hi : manager.entries.findFinIdx? (·.state == .free) = some i) {entry : CommandEntry}
    (hstate : entry.state ≠ .free) (hsequence : entry.sequence = manager.nextSequence)
    {next : CommandManager} (hentries : next.entries = (manager.setEntry i entry).entries)
    (hnext : next.nextSequence = nextSequenceAfter manager.nextSequence) :
    next.live = manager.live ++ [entry] ∧ next.Filled := by
  have hat := h.first_free hi
  have hlt : manager.live.length < 64 := by
    have hsize : manager.entries.length = 64 := manager.size
    have := i.isLt
    omega
  obtain ⟨free, htable, hfree⟩ := h.entries
  obtain ⟨slot, rest, rfl⟩ : ∃ slot rest, free = slot :: rest := by
    refine List.exists_cons_of_ne_nil fun hnil => ?_
    have hlength := congrArg List.length htable
    rw [hnil, List.append_nil] at hlength
    have := i.isLt
    omega
  -- the first free slot is the one behind the commands
  have hset : next.entries = (manager.live ++ [entry]) ++ rest := by
    calc next.entries
        = (manager.live ++ slot :: rest).set i entry :=
          hentries.trans (congrArg (List.set · i.val entry) htable)
      _ = manager.live ++ (slot :: rest).set (i - manager.live.length) entry :=
          List.set_append_right _ _ (by omega)
      _ = (manager.live ++ [entry]) ++ rest := by
          rw [hat, Nat.sub_self, List.set_cons_zero, List.append_cons]
  have hnot : ∀ e ∈ manager.live ++ [entry], e.state ≠ .free := by
    intro e he
    rcases List.mem_append.mp he with hmem | hmem
    · exact CommandManager.state_ne_of_mem_live hmem
    · rw [List.mem_singleton.mp hmem]
      exact hstate
  have hrest : ∀ e ∈ rest, e.state = .free := fun e he => hfree e (List.mem_cons_of_mem _ he)
  have hlive := CommandManager.live_of_entries hset hnot hrest
  refine ⟨hlive, ⟨rest, hlive ▸ hset, hrest⟩, ?_, ?_⟩
  · rw [hlive, List.map_append, h.sequences, List.length_append, List.length_singleton,
      List.range_succ, List.map_append, List.map_singleton, List.map_singleton, hsequence, h.next]
  · -- the counter is far from its wrap
    have hstep : UInt32.ofNat (manager.live.length + 1) + 1 =
        UInt32.ofNat (manager.live.length + 1 + 1) := (UInt32.ofNat_add _ 1).symm
    have hne : UInt32.ofNat (manager.live.length + 1 + 1) ≠ 0 := by
      intro hzero
      have hzero := congrArg UInt32.toNat hzero
      rw [UInt32.toNat_ofNat', UInt32.toNat_zero] at hzero
      omega
    rw [hnext, h.next, nextSequenceAfter, hstep, if_neg hne, hlive, List.length_append,
      List.length_singleton]

end CommandManager.Filled

/-- The report says nothing about the entry. -/
theorem checkEntry_fst (args : CheckTimeoutsArgs) (entry : CommandEntry)
    (report : TimeoutReport) : (checkEntry args entry report).1 = checkedEntry args entry := by
  unfold checkedEntry checkEntry
  split_ifs <;> rfl

theorem checkEntries_fst (args : CheckTimeoutsArgs) (entries : List CommandEntry)
    (report : TimeoutReport) :
    (checkEntries args entries report).1 = entries.map (checkedEntry args) := by
  induction entries generalizing report with
  | nil => rfl
  | cons entry entries ih =>
    rw [checkEntries, List.map_cons, ← checkEntry_fst args entry report, ← ih]

/-- The check touches the state, the clock and the counter of an entry that waits. -/
theorem checkedEntry_continues (args : CheckTimeoutsArgs) (entry : CommandEntry) :
    Continues (.checkTimeouts args) entry (checkedEntry args entry) := by
  unfold checkedEntry checkEntry
  split_ifs with hstate hearly hretry
  · exact ⟨rfl, rfl, rfl, rfl, .stays⟩
  · exact ⟨rfl, rfl, rfl, rfl, .stays⟩
  · exact ⟨rfl, rfl, rfl, rfl, .stays⟩
  · exact ⟨rfl, rfl, rfl, rfl, .timeout args rfl (not_not.mp hstate)⟩

/-- An answer. -/
theorem commandManagerAnswer_effect (h : manager.Filled) {call : CommandCall}
    {ret : CommandReturn} {sequence : UInt32} {nodeId : CharBuf 32} {state : CommandState}
    (hstate : state ≠ .free) (hanswered : call.answered? = some sequence)
    (hlife : ∀ e : CommandEntry, e.sequence = sequence → e.targetNode = nodeId →
      e.state = .waiting → LifeStep call e state) :
    let next := (commandManagerAnswer manager sequence nodeId state).1
    TableEffect manager call ret next.live ∧ next.Filled := by
  intro next
  have hnext : next = (commandManagerAnswer manager sequence nodeId state).1 := rfl
  unfold commandManagerAnswer at hnext
  split at hnext
  · rw [hnext]
    exact ⟨.same, h⟩
  rename_i i hfind
  split at hnext
  · rw [hnext]
    exact ⟨.same, h⟩
  rename_i htarget
  split at hnext
  · rw [hnext]
    exact ⟨.same, h⟩
  rename_i hwaiting
  -- found, sent to this node, and still waiting
  have hsequence : manager.entries[i].sequence = sequence := (exists_of_commandManagerFind hfind).2
  obtain ⟨hi, hfound⟩ := h.getElem_of_find hfind
  have hentry : manager.entries[i] = manager.live[i.val] := hfound
  simp only [hentry, not_not] at hnext htarget hwaiting hsequence
  let entry : CommandEntry := { manager.live[i.val] with state := state }
  obtain ⟨hlive, hfilled⟩ := h.setEntry hi (show entry.state ≠ .free from hstate) rfl
  rw [hnext]
  refine ⟨?_, hfilled⟩
  rw [hlive]
  exact .answered i hi state hwaiting hstate (hlife _ hsequence htarget hwaiting)
    (by rw [hanswered, hsequence])

/-- The timeout check. -/
theorem check_effect (h : manager.Filled) (args : CheckTimeoutsArgs) {ret : CommandReturn} :
    let next := (commandManagerCheckTimeouts manager args).1
    TableEffect manager (.checkTimeouts args) ret next.live ∧ next.Filled := by
  intro next
  by_cases hneg : args.timeoutSec < 0 ∨ args.maxRetries < 0
  · have hnext : next = manager := by
      show (commandManagerCheckTimeouts manager args).1 = manager
      rw [commandManagerCheckTimeouts, if_pos hneg]
    rw [hnext]
    exact ⟨.same, h⟩
  obtain ⟨free, htable, hfree⟩ := h.entries
  have hnext : next.entries =
      manager.live.map (checkedEntry args) ++ free.map (checkedEntry args) := by
    show (commandManagerCheckTimeouts manager args).1.entries = _
    rw [commandManagerCheckTimeouts, if_neg hneg, ← List.map_append, ← htable]
    exact checkEntries_fst args manager.entries .empty
  have hcounter : next.nextSequence = manager.nextSequence := by
    show (commandManagerCheckTimeouts manager args).1.nextSequence = _
    rw [commandManagerCheckTimeouts, if_neg hneg]
  -- no slot becomes free, and none is taken
  have hstate : ∀ e, (checkedEntry args e).state = .free ↔ e.state = .free :=
    fun e => checkEntry_state_eq_free_iff args e .empty
  have hfree' : ∀ e ∈ free.map (checkedEntry args), e.state = .free := by
    intro e he
    obtain ⟨slot, hslot, rfl⟩ := List.mem_map.mp he
    exact (hstate slot).mpr (hfree slot hslot)
  have hnot : ∀ e ∈ manager.live.map (checkedEntry args), e.state ≠ .free := by
    intro e he
    obtain ⟨entry, hentry, rfl⟩ := List.mem_map.mp he
    exact fun hnone => CommandManager.state_ne_of_mem_live hentry ((hstate entry).mp hnone)
  have hlive := CommandManager.live_of_entries hnext hnot hfree'
  have hsequences : (manager.live.map (checkedEntry args)).map CommandEntry.sequence =
      manager.live.map CommandEntry.sequence := by
    rw [List.map_map]
    exact List.map_congr_left fun e _ => (checkedEntry_continues args e).sequence
  refine ⟨?_, ⟨⟨_, hlive ▸ hnext, hfree'⟩, ?_, ?_⟩⟩
  · rw [hlive]
    exact .checked args rfl
  · rw [hlive, hsequences, List.length_map, h.sequences]
  · rw [hlive, List.length_map, hcounter]
    exact h.next

/-- **One call.** -/
theorem table_effect (h : manager.Filled) (call : CommandCall) :
    TableEffect manager call (commandStep manager call).2 (commandStep manager call).1.live ∧
      (commandStep manager call).1.Filled := by
  cases call with
  | send targetNode sender fields sequenceOut now =>
    rcases commandManagerSend_cases manager targetNode sender fields sequenceOut now with
      hsend | ⟨i, entry, hi, hstate, hsequence, rfl, rfl, rfl, rfl, -, hsend⟩
    · rw [commandStep, hsend]
      exact ⟨.same, h⟩
    · rw [commandStep, hsend]
      have hlives : entry.state ≠ .free := by
        rw [hstate]
        exact CommandState.noConfusion
      obtain ⟨hlive, hfilled⟩ := h.send hi hlives hsequence
        (show ({ manager.setEntry i entry with
          nextSequence := nextSequenceAfter manager.nextSequence } : CommandManager).entries =
            (manager.setEntry i entry).entries from rfl) rfl
      refine ⟨?_, hfilled⟩
      rw [hlive]
      exact .sent entry sequenceOut rfl (by rw [hsequence]) hstate hsequence
  | onAck ack =>
    cases ack with
    | none => exact ⟨.same, h⟩
    | some ack =>
      exact commandManagerAnswer_effect h CommandState.noConfusion rfl
        fun e hsequence htarget hwaiting => .acked ack rfl hsequence.symm htarget.symm hwaiting
  | onNack nack =>
    cases nack with
    | none => exact ⟨.same, h⟩
    | some nack =>
      exact commandManagerAnswer_effect h CommandState.noConfusion rfl
        fun e hsequence htarget hwaiting => .nacked nack rfl hsequence.symm htarget.symm hwaiting
  | checkTimeouts args => exact check_effect h args

/-! ## What becomes of a command -/

/-- A command left alone. -/
theorem Continues.refl (call : CommandCall) (e : CommandEntry) : Continues call e e :=
  ⟨rfl, rfl, rfl, rfl, .stays⟩

section

variable {call : CommandCall} {ret : CommandReturn} {live : List CommandEntry}

/-- **A command goes on** through every call. -/
theorem TableEffect.continues (h : TableEffect manager call ret live) {e : CommandEntry}
    (he : e ∈ manager.live) : ∃ e' ∈ live, Continues call e e' := by
  cases h with
  | same => exact ⟨e, he, .refl call e⟩
  | sent entry sequenceOut _ _ _ _ => exact ⟨e, List.mem_append_left _ he, .refl call e⟩
  | answered i hi state _ _ hlife _ =>
    obtain ⟨j, hj, rfl⟩ := List.getElem_of_mem he
    by_cases hij : j = i
    · subst hij
      exact ⟨_, List.mem_set hi _, rfl, rfl, rfl, rfl, hlife⟩
    · refine ⟨manager.live[j], ?_, .refl call _⟩
      rw [List.mem_iff_getElem?]
      exact ⟨j, by rw [List.getElem?_set_ne (Ne.symm hij), List.getElem?_eq_getElem hj]⟩
  | checked args hcall =>
    rw [hcall]
    exact ⟨_, List.mem_map_of_mem he, checkedEntry_continues args e⟩

/-- **And comes from a send**, in this call or before it. -/
theorem TableEffect.origin (h : TableEffect manager call ret live) {e' : CommandEntry}
    (he' : e' ∈ live) :
    (∃ e ∈ manager.live, Continues call e e') ∨
      (e'.state = .waiting ∧ SentAs e' [(call, ret)]) := by
  cases h with
  | same => exact .inl ⟨e', he', .refl call e'⟩
  | sent entry sequenceOut hcall hret hstate _ =>
    rcases List.mem_append.mp he' with hmem | hmem
    · exact .inl ⟨e', hmem, .refl call e'⟩
    · rw [List.mem_singleton.mp hmem]
      refine .inr ⟨hstate, sequenceOut, entry.sentTime, ?_⟩
      rw [hcall, hret]
      exact List.mem_singleton_self _
  | answered i hi state _ _ hlife _ =>
    rcases List.mem_or_eq_of_mem_set he' with hmem | rfl
    · exact .inl ⟨e', hmem, .refl call e'⟩
    · exact .inl ⟨_, List.getElem_mem hi, rfl, rfl, rfl, rfl, hlife⟩
  | checked args hcall =>
    obtain ⟨e, he, rfl⟩ := List.mem_map.mp he'
    rw [hcall]
    exact .inl ⟨e, he, checkedEntry_continues args e⟩

/-- **An answer touches one state.** -/
theorem TableEffect.frame (hfilled : manager.Filled) (h : TableEffect manager call ret live)
    {sequence : UInt32} (hcall : call.answered? = some sequence) :
    ∃ state : CommandEntry → CommandState,
      live = manager.live.map (fun e => { e with state := state e }) ∧
      ∀ e ∈ manager.live, e.sequence ≠ sequence → state e = e.state := by
  cases h with
  | same => exact ⟨CommandEntry.state, (List.map_id'' (fun _ => rfl) _).symm, fun _ _ _ => rfl⟩
  | sent entry sequenceOut hsend _ _ _ =>
    rw [hsend] at hcall
    cases hcall
  | answered i hi state _ _ _ hanswered =>
    obtain rfl := Option.some.inj (hcall.symm.trans hanswered)
    refine ⟨fun e => if e.sequence = manager.live[i].sequence then state else e.state, ?_,
      fun e _ hne => if_neg hne⟩
    refine List.ext_getElem (by rw [List.length_set, List.length_map]) fun j hj hj' => ?_
    rw [List.length_set] at hj
    rw [List.getElem_map, List.getElem_set]
    by_cases hij : i = j
    · subst hij
      simp only [if_true]
    · have hne : manager.live[j].sequence ≠ manager.live[i].sequence := by
        intro hsame
        have heq := hfilled.eq_of_sequence (List.getElem_mem hj) (List.getElem_mem hi) hsame
        have hnodup : manager.live.Nodup := List.Nodup.of_map _ hfilled.nodup
        exact hij (hnodup.getElem_inj_iff.mp heq).symm
      simp only [if_neg hij, if_neg hne]
  | checked args hcheck =>
    rw [hcheck] at hcall
    cases hcall

end

/-- A sent command, seen from later on. -/
theorem SentAs.mono {e : CommandEntry} {trace trace' : List (CommandCall × CommandReturn)}
    (h : SentAs e trace) (hsub : trace ⊆ trace') : SentAs e trace' := by
  obtain ⟨sequenceOut, now, hmem⟩ := h
  exact ⟨sequenceOut, now, hsub hmem⟩

theorem SentAs.continues {call : CommandCall} {e e' : CommandEntry}
    {trace : List (CommandCall × CommandReturn)} (h : SentAs e trace) (he : Continues call e e') :
    SentAs e' trace := by
  rw [SentAs, he.targetNode, he.sender, he.fields, he.sequence]
  exact h

/-- Every run. -/
theorem commandMachine_filled (calls : List CommandCall) :
    (commandMachine.state calls).Filled ∧
      ∀ e ∈ (commandMachine.state calls).live, SentAs e (commandMachine.trace calls) := by
  refine commandMachine.trace_induction
    (P := fun tr manager => manager.Filled ∧ ∀ e ∈ manager.live, SentAs e tr) ?_ ?_ calls
  · have hfree : ∀ e ∈ commandManagerCreate.entries, e.state = .free := by
      intro e he
      rw [List.eq_of_mem_replicate he]
      rfl
    have hlive : commandMachine.init.live = [] :=
      CommandManager.live_of_entries (List.nil_append _).symm nofun hfree
    refine ⟨⟨⟨commandManagerCreate.entries, ?_, hfree⟩, ?_, ?_⟩, ?_⟩
    · rw [hlive]
      rfl
    · rw [hlive]
      rfl
    · rw [hlive]
      rfl
    · rw [hlive]
      exact nofun
  · rintro tr manager call ⟨hfilled, hsent⟩
    obtain ⟨heffect, hfilled'⟩ := table_effect hfilled call
    refine ⟨hfilled', fun e' he' => ?_⟩
    obtain ⟨e, he, hcontinues⟩ | ⟨-, hnew⟩ := heffect.origin he'
    · exact ((hsent e he).continues hcontinues).mono (List.subset_append_left _ _)
    · exact hnew.mono (List.subset_append_right _ _)

/-- A state that is not `WAITING` does not change in a call. -/
theorem commandManagerQuery_step (h : manager.Filled) {sequence : UInt32} {state : CommandState}
    (hquery : commandManagerQuery manager sequence = some state) (hdone : state ≠ .waiting)
    (call : CommandCall) :
    commandManagerQuery (commandStep manager call).1 sequence = some state := by
  obtain ⟨heffect, hfilled⟩ := table_effect h call
  obtain ⟨e, he, rfl, rfl⟩ := (commandManagerQuery_eq_some_iff h).mp hquery
  obtain ⟨e', he', hcontinues⟩ := heffect.continues he
  refine (commandManagerQuery_eq_some_iff hfilled).mpr ⟨e', he', hcontinues.sequence, ?_⟩
  have hlife := hcontinues.state
  generalize e'.state = state at hlife
  cases hlife with
  | stays => rfl
  | acked _ _ _ _ hwaiting => exact absurd hwaiting hdone
  | nacked _ _ _ _ hwaiting => exact absurd hwaiting hdone
  | timeout _ _ hwaiting => exact absurd hwaiting hdone

/-- Nor in the rest of a run. -/
theorem commandManagerQuery_of_done {calls : List CommandCall} {sequence : UInt32}
    {state : CommandState}
    (hquery : commandManagerQuery (commandMachine.state calls) sequence = some state)
    (hdone : state ≠ .waiting) (more : List CommandCall) :
    commandManagerQuery (commandMachine.state (calls ++ more)) sequence = some state := by
  induction more using List.reverseRecOn with
  | nil =>
    rw [List.append_nil]
    exact hquery
  | append_singleton more call ih =>
    rw [← List.append_assoc, Machine.state_concat]
    exact commandManagerQuery_step (commandMachine_filled (calls ++ more)).1 ih hdone call

/-- **The life of a command.** After any run:

* the sequences of the commands in the table are pairwise distinct and not zero, and what
  `command_manager_query` says of a sequence is the state of its command;
* each command is as it was given at its send;
* in the next call, whatever it is, each command goes on, with its sequence, sender, target
  and fields, and in the same state unless it waits and is acknowledged or refused by its own
  node under its own sequence, or given up by the timeout check; and a command that was not
  there before waits, and is the one the call has sent;
* an answer touches nothing but the state of the command it names;
* and a state other than `WAITING` is never left again. -/
theorem command_life_cycle (calls : List CommandCall) :
    let manager := commandMachine.state calls
    (manager.live.map CommandEntry.sequence).Nodup ∧
      (∀ e ∈ manager.live, e.sequence ≠ 0) ∧
      (∀ sequence state, commandManagerQuery manager sequence = some state ↔
        ∃ e ∈ manager.live, e.sequence = sequence ∧ e.state = state) ∧
      (∀ e ∈ manager.live, SentAs e (commandMachine.trace calls)) ∧
      (∀ call,
        let next := commandStep manager call
        (∀ e ∈ manager.live, ∃ e' ∈ next.1.live, Continues call e e') ∧
        (∀ e' ∈ next.1.live, (∃ e ∈ manager.live, Continues call e e') ∨
          (e'.state = .waiting ∧ SentAs e' [(call, next.2)])) ∧
        ∀ sequence, call.answered? = some sequence → ∃ state : CommandEntry → CommandState,
          next.1.live = manager.live.map (fun e => { e with state := state e }) ∧
          ∀ e ∈ manager.live, e.sequence ≠ sequence → state e = e.state) ∧
      ∀ sequence state, commandManagerQuery manager sequence = some state → state ≠ .waiting →
        ∀ more, commandManagerQuery (commandMachine.state (calls ++ more)) sequence =
          some state := by
  intro manager
  obtain ⟨hfilled, hsent⟩ := commandMachine_filled calls
  refine ⟨hfilled.nodup, fun e he => hfilled.sequence_ne_zero he,
    fun sequence state => commandManagerQuery_eq_some_iff hfilled, hsent, fun call => ?_,
    fun sequence state hquery hdone more => commandManagerQuery_of_done hquery hdone more⟩
  obtain ⟨heffect, -⟩ := table_effect hfilled call
  exact ⟨fun e he => heffect.continues he, fun e' he' => heffect.origin he',
    fun sequence hcall => heffect.frame hfilled hcall⟩

end SmartGateway
