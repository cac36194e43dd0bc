import SmartGateway.Server.RetrySchedule
import SmartGateway.Server.ServerLines

/-!
# What the server sends

Every text the server's loop hands to `send_all` is the line of a command somebody typed,
and it hands over each at most three times: the send, and two retries. The run of the
loop is a run of the command manager, and what is tried is tied to the table by
`ServerHeld.Tries`.
-/

namespace SmartGateway

open WriteLog

/-- The command an entry stands for; the server is the sender. -/
def CommandEntry.command (entry : CommandEntry) : FrameCommand :=
  ⟨entry.targetNode, cmdSender, entry.sequence, entry.fields⟩

/-- The commands of the table. -/
def CommandManager.commands (manager : CommandManager) : List FrameCommand :=
  manager.live.map CommandEntry.command

/-- Each command is what a line of its own asks for, and the lines were typed in this order. -/
def TypedOneByOne (typed : List (CharBuf cmdBufferSize)) (commands : List FrameCommand) : Prop :=
  ∃ entered : List (CharBuf cmdBufferSize × FrameCommand),
    (entered.map Prod.fst).Sublist typed ∧ entered.map Prod.snd = commands ∧
      ∀ p ∈ entered, ∃ value, TypedLed p.1.bytes p.2.targetNode value ∧
        p.2 = typedLedCommand p.2.targetNode value p.2.sequence

namespace ServerHeld

/-- The texts handed to `send_all` so far, over all connections. -/
def attempts (h : ServerHeld) : List Bytes :=
  (h.connections.flatMap Connection.written ++ h.writing.toList).map Write.text

/-- The lines of the retries still to come. -/
def pending (h : ServerHeld) : List Bytes :=
  h.retries.filterMap (messageJsonBuildCommand cmdJsonSize)

/-- The run of the loop, as a run of the command manager, and the commands it has tried to
send. -/
structure Tries (h : ServerHeld) (calls : List CommandCall) (tries : List FrameCommand) :
    Prop where
  manager : h.context.manager = commandMachine.state calls
  checks : ChecksWith cmdTimeoutSec cmdMaxRetries calls
  typed : TypedOneByOne h.typed h.context.manager.commands
  texts : (h.attempts ++ h.pending).Sublist (tries.filterMap (messageJsonBuildCommand cmdJsonSize))
  counted : ∀ sequence, (tries.map FrameCommand.sequence).count sequence ≤
    (sendTimes sequence calls).length + (retryTimes sequence calls).length
  known : ∀ command ∈ tries, command ∈ h.context.manager.commands

end ServerHeld

/-! ## One call of the manager -/

section

variable {manager manager' : CommandManager} {calls : List CommandCall}

theorem Continues.command {call : CommandCall} {e e' : CommandEntry} (h : Continues call e e') :
    e'.command = e.command := by
  rw [CommandEntry.command, CommandEntry.command, h.targetNode, h.sequence, h.fields]

/-- A call that enters nothing leaves the commands of the table. -/
theorem commands_step (h : manager.Filled) {call : CommandCall}
    (hcall : ∀ targetNode sender fields sequenceOut now,
      call ≠ .send targetNode sender fields sequenceOut now) :
    (commandStep manager call).1.commands = manager.commands := by
  have heffect := (table_effect h call).1
  rw [CommandManager.commands, CommandManager.commands]
  generalize (commandStep manager call).1.live = live at heffect ⊢
  cases heffect with
  | same => rfl
  | sent entry sequenceOut hsend => exact absurd hsend (hcall _ _ _ _ _)
  | answered i hi state =>
    have hlt : i < (manager.live.map CommandEntry.command).length := by rwa [List.length_map]
    have hsame : ({ manager.live[i] with state := state } : CommandEntry).command =
        (manager.live.map CommandEntry.command)[i] := by
      rw [List.getElem_map]
      rfl
    rw [List.map_set, hsame, List.set_getElem_self]
  | checked args hargs =>
    rw [List.map_map]
    exact List.map_congr_left fun e _ => (checkedEntry_continues args e).command

/-- A command that is entered comes last. -/
theorem commands_send (h : manager.Filled) {targetNode sender : CharBuf 32}
    {fields : FrameFields} {now : ℤ} {sequence : UInt32}
    (hsend : commandManagerSend manager (some targetNode.toCStr) (some sender.toCStr)
      (some fields.1) true now = (manager', some sequence)) :
    manager'.commands = manager.commands ++ [⟨targetNode, cmdSender, sequence, fields⟩] := by
  rcases commandManagerSend_cases manager (some targetNode.toCStr) (some sender.toCStr)
    (some fields.1) true now with
    hnone | ⟨i, entry, hi, hstate, hsequence, htarget, -, hfields, -, -, hsome⟩
  · rw [hsend] at hnone
    exact absurd (Prod.mk.inj hnone).2 (Option.some_ne_none _)
  rw [hsend] at hsome
  obtain ⟨hmanager, hnext⟩ := Prod.mk.inj hsome
  have hlives : entry.state ≠ .free := by
    rw [hstate]
    exact CommandState.noConfusion
  obtain ⟨hlive, -⟩ := h.send hi hlives hsequence
    (show manager'.entries = (manager.setEntry i entry).entries by rw [hmanager])
    (by rw [hmanager])
  rw [CommandManager.commands, hlive, List.map_append, List.map_singleton, CommandEntry.command,
    CharBuf.ext_toCStr (Option.some.inj htarget), hsequence, Option.some.inj hnext,
    Subtype.ext (Option.some.inj hfields)]
  rfl

/-- The arrays of a report, read as commands. -/
theorem TimeoutReport.Lists.commands {report : TimeoutReport} {retries timeouts : List CommandEntry}
    (h : report.Lists retries timeouts) :
    report.commands = retries.map CommandEntry.command := by
  have hcounted : ∀ e : CommandEntry, countedFields e.fields e.fields.1.length = e.fields :=
    fun e => Subtype.ext (List.take_of_length_le (le_refl _))
  rw [TimeoutReport.commands, h.sequences, h.targetNodes, h.fields, h.fieldCounts, List.zip_map',
    List.zip_map', List.zip_map', List.map_map]
  refine List.map_congr_left fun e _ => ?_
  rw [CommandEntry.command, ← hcounted e]
  rfl

theorem loopCheckArgs_nonneg (now : ℤ) :
    ¬ ((loopCheckArgs now).timeoutSec < 0 ∨ (loopCheckArgs now).maxRetries < 0) := by
  change ¬ ((3 : ℤ) < 0 ∨ (2 : ℤ) < 0)
  decide

/-- The commands the loop tries again after its check. -/
theorem commands_loopCheck (manager : CommandManager) (now : ℤ) :
    ((commandManagerCheckTimeouts manager (loopCheckArgs now)).2.getD .empty).commands =
      ((manager.retriedBy (loopCheckArgs now)).take cmdRetryTable).map CommandEntry.command := by
  have hempty : TimeoutReport.empty.Lists (([] : List CommandEntry).take cmdRetryTable)
      (([] : List CommandEntry).take cmdRetryTable) := by
    rw [List.take_nil]
    exact ⟨rfl, rfl, rfl, rfl, rfl, rfl, rfl⟩
  have hargs : (loopCheckArgs now).ArraysGiven := ⟨rfl, rfl, rfl, rfl, rfl⟩
  have hlists := checkEntries_lists hargs manager.entries hempty
  rw [List.nil_append, List.nil_append] at hlists
  rw [CommandManager.retriedBy, commandManagerCheckTimeouts, if_neg (loopCheckArgs_nonneg now)]
  exact hlists.commands

/-- The calls `on_line` makes to the manager. -/
theorem onLine_manager (context : ServerContext) (line : Bytes) (now : ℤ) :
    (onLine context line now).1.manager = context.manager ∨
      (∃ ack, (onLine context line now).1.manager =
        (commandStep context.manager (.onAck (some ack))).1) ∨
      ∃ nack, (onLine context line now).1.manager =
        (commandStep context.manager (.onNack (some nack))).1 := by
  unfold onLine
  split
  · split
    · exact .inl rfl
    · rename_i ack hdecode
      exact .inr (.inl ⟨ack, rfl⟩)
  split
  · split
    · exact .inl rfl
    · rename_i nack hdecode
      exact .inr (.inr ⟨nack, rfl⟩)
  split
  · exact .inl rfl
  · split
    · exact .inl rfl
    · exact .inl rfl

end

/-! ## One move -/

namespace ServerHeld.Tries

variable {h h' : ServerHeld} {calls : List CommandCall} {tries : List FrameCommand}

theorem filled (hh : h.Tries calls tries) : h.context.manager.Filled := by
  rw [hh.manager]
  exact (commandMachine_filled calls).1

/-- A move that leaves the manager alone. -/
theorem quiet (hh : h.Tries calls tries) (hmanager : h'.context.manager = h.context.manager)
    (htyped : h.typed.Sublist h'.typed)
    (htexts : (h'.attempts ++ h'.pending).Sublist (h.attempts ++ h.pending)) :
    h'.Tries calls tries where
  manager := hmanager.trans hh.manager
  checks := hh.checks
  typed := by
    obtain ⟨entered, hlines, hcommands, hled⟩ := hh.typed
    exact ⟨entered, hlines.trans htyped, by rw [hmanager, hcommands], hled⟩
  texts := htexts.trans hh.texts
  counted := hh.counted
  known := by
    rw [hmanager]
    exact hh.known

/-- A move that makes one call of the manager, and with it has `new` to try. -/
theorem call (hh : h.Tries calls tries) (call : CommandCall) (new : List FrameCommand)
    (hmanager : h'.context.manager = (commandStep h.context.manager call).1)
    (hchecks : ∀ args, call = .checkTimeouts args →
      args.timeoutSec = cmdTimeoutSec ∧ args.maxRetries = cmdMaxRetries)
    (htyped : TypedOneByOne h'.typed (commandStep h.context.manager call).1.commands)
    (htexts : ((h'.attempts ++ h'.pending)).Sublist
      ((h.attempts ++ h.pending) ++ new.filterMap (messageJsonBuildCommand cmdJsonSize)))
    (hcounted : ∀ sequence, (new.map FrameCommand.sequence).count sequence ≤
      (sendsOf sequence h.context.manager call).length +
        (retriesOf sequence h.context.manager call).length)
    (hold : ∀ command ∈ h.context.manager.commands,
      command ∈ (commandStep h.context.manager call).1.commands)
    (hknown : ∀ command ∈ new, command ∈ (commandStep h.context.manager call).1.commands) :
    h'.Tries (calls ++ [call]) (tries ++ new) where
  manager := by rw [hmanager, hh.manager, Machine.state_concat]; rfl
  checks args hargs := by
    rcases List.mem_append.mp hargs with hargs | hargs
    · exact hh.checks args hargs
    · exact hchecks args (List.mem_singleton.mp hargs).symm
  typed := hmanager ▸ htyped
  texts := by
    rw [List.filterMap_append]
    exact htexts.trans (hh.texts.append (List.Sublist.refl _))
  counted sequence := by
    have hbefore := hh.counted sequence
    have hnew := hcounted sequence
    rw [hh.manager] at hnew
    rw [sendTimes_concat, retryTimes_concat, List.map_append, List.count_append,
      List.length_append, List.length_append]
    omega
  known command hcommand := by
    rw [hmanager]
    rcases List.mem_append.mp hcommand with hcommand | hcommand
    · exact hold command (hh.known command hcommand)
    · exact hknown command hcommand

/-- One that enters nothing. -/
theorem callQuiet (hh : h.Tries calls tries) (call : CommandCall) (new : List FrameCommand)
    (hcall : ∀ targetNode sender fields sequenceOut now,
      call ≠ .send targetNode sender fields sequenceOut now)
    (hmanager : h'.context.manager = (commandStep h.context.manager call).1)
    (hchecks : ∀ args, call = .checkTimeouts args →
      args.timeoutSec = cmdTimeoutSec ∧ args.maxRetries = cmdMaxRetries)
    (htyped : h'.typed = h.typed)
    (htexts : ((h'.attempts ++ h'.pending)).Sublist
      ((h.attempts ++ h.pending) ++ new.filterMap (messageJsonBuildCommand cmdJsonSize)))
    (hcounted : ∀ sequence, (new.map FrameCommand.sequence).count sequence ≤
      (retriesOf sequence h.context.manager call).length)
    (hknown : ∀ command ∈ new, command ∈ h.context.manager.commands) :
    h'.Tries (calls ++ [call]) (tries ++ new) := by
  have hcommands := commands_step hh.filled hcall
  refine hh.call call new hmanager hchecks ?_ htexts
    (fun sequence => (hcounted sequence).trans (Nat.le_add_left _ _)) ?_ ?_
  · rw [hcommands, htyped]
    exact hh.typed
  · rw [hcommands]
    exact fun command hcommand => hcommand
  · rw [hcommands]
    exact hknown

end ServerHeld.Tries

/-- One more line, and its command. -/
theorem TypedOneByOne.concat {typed : List (CharBuf cmdBufferSize)} {commands : List FrameCommand}
    (h : TypedOneByOne typed commands) {line : CharBuf cmdBufferSize} {targetNode : CharBuf 32}
    {value : ℤ} (htyped : TypedLed line.bytes targetNode value) (sequence : UInt32) :
    TypedOneByOne (typed ++ [line])
      (commands ++ [typedLedCommand targetNode value sequence]) := by
  obtain ⟨entered, hlines, rfl, hled⟩ := h
  refine ⟨entered ++ [(line, typedLedCommand targetNode value sequence)], ?_, ?_, ?_⟩
  · rw [List.map_append]
    exact hlines.append (List.Sublist.refl _)
  · rw [List.map_append]
    rfl
  · intro p hp
    rcases List.mem_append.mp hp with hp | hp
    · exact hled p hp
    · rw [List.mem_singleton.mp hp]
      exact ⟨value, htyped, rfl⟩

/-- **A move and the commands.** -/
theorem ServerMove.tries {clean : Bool} {h h' : ServerHeld}
    (hh : ∃ calls tries, h.Tries calls tries) (hmove : ServerMove clean h h') :
    ∃ calls tries, h'.Tries calls tries := by
  obtain ⟨calls, tries, hh⟩ := hh
  have htexts : ∀ h : ServerHeld, h.attempts =
      (h.connections.flatMap Connection.written ++ h.writing.toList).map Write.text :=
    fun h => rfl
  cases hmove with
  | checked now hidle =>
    refine ⟨_, _, hh.callQuiet (.checkTimeouts (loopCheckArgs now))
      ((h.context.manager.retriedBy (loopCheckArgs now)).take cmdRetryTable |>.map
        CommandEntry.command) (by simp) rfl ?_ rfl ?_ ?_ ?_⟩
    · intro args hargs
      rw [← CommandCall.checkTimeouts.inj hargs]
      exact ⟨rfl, rfl⟩
    · have hpending : h.pending = [] := by rw [ServerHeld.pending, hidle.retries]; rfl
      rw [hpending, List.append_nil, ← commands_loopCheck]
      exact List.Sublist.refl _
    · intro sequence
      rw [List.map_map, retriesOf, List.length_replicate]
      exact ((List.take_sublist _ _).map _).count_le sequence
    · intro command hcommand
      obtain ⟨e, he, rfl⟩ := List.mem_map.mp hcommand
      have hretried := List.mem_of_mem_take he
      rw [retriedBy_eq (loopCheckArgs_nonneg now)] at hretried
      exact List.mem_map_of_mem (List.mem_of_mem_filter hretried)
  | skipped command retries hw hf hr =>
    refine ⟨calls, tries, hh.quiet rfl (List.Sublist.refl _) ?_⟩
    refine List.Sublist.append (List.Sublist.refl _) ?_
    rw [ServerHeld.pending, ServerHeld.pending, hr]
    exact (List.sublist_cons_self command retries).filterMap _
  | begun c command retries text hw hf hc hr htext =>
    refine ⟨calls, tries, hh.quiet rfl (List.Sublist.refl _) ?_⟩
    simp only [htexts, ServerHeld.connections, ServerHeld.pending, hw, hr, List.filterMap_cons,
      htext, Option.toList_none, Option.toList_some, List.append_nil, List.map_append,
      List.append_assoc]
    exact List.Sublist.refl _
  | went c w w' turn hc hw hturn =>
    refine ⟨calls, tries, hh.quiet rfl (List.Sublist.refl _) ?_⟩
    have htext := sendAllTurn_text hturn
    simp only [htexts, ServerHeld.connections, ServerHeld.pending, hw, Option.toList_some,
      List.map_append, List.map_cons, List.map_nil, htext]
    exact List.Sublist.refl _
  | ended c w hc hw hclean =>
    refine ⟨calls, tries, hh.quiet rfl (List.Sublist.refl _) ?_⟩
    simp only [htexts, ServerHeld.connections, ServerHeld.pending, hw, hc, Option.toList_some,
      Option.toList_none, List.flatMap_append, List.flatMap_singleton, Connection.wrote,
      List.append_nil, List.append_assoc]
    exact List.Sublist.refl _
  | read line hidle =>
    exact ⟨calls, tries, hh.quiet rfl (List.sublist_append_left _ _)
      (List.Sublist.refl _)⟩
  | entered c line targetNode value now manager hidle hc htyped hsend =>
    have hmanager : (commandStep h.context.manager (.send (some targetNode.toCStr)
        (some cmdSender.toCStr) (some (ledFields value).1) true now)).1 = manager := by
      rw [commandStep, hsend]
    refine ⟨_, _, hh.call _ [typedLedCommand targetNode value h.context.manager.nextSequence]
      hmanager.symm (by simp) ?_ ?_ ?_ ?_ ?_⟩
    · rw [hmanager, commands_send hh.filled hsend]
      exact hh.typed.concat htyped _
    · simp only [htexts, ServerHeld.connections, ServerHeld.pending, ServerHeld.setManager,
        hidle.writing, hidle.retries, List.filterMap_cons, List.filterMap_nil,
        messageJsonBuildCommand_typedLedCommand, Option.toList_none, Option.toList_some,
        List.append_nil, List.map_append]
      exact List.Sublist.refl _
    · intro sequence
      rw [sendsOf, hsend]
      dsimp only
      by_cases hsequence : h.context.manager.nextSequence = sequence
      · rw [if_pos hsequence]
        exact (List.count_le_length).trans (Nat.le_add_right _ _)
      · rw [List.map_singleton, List.count_singleton, if_neg]
        · exact Nat.zero_le _
        · exact fun hsame => hsequence (beq_iff_eq.mp hsame)
    · rw [hmanager, commands_send hh.filled hsend]
      exact fun command hcommand => List.mem_append_left _ hcommand
    · rw [hmanager, commands_send hh.filled hsend]
      exact fun command hcommand => List.mem_append_right _ hcommand
  | accepted hidle =>
    refine ⟨calls, tries, hh.quiet rfl (List.Sublist.refl _) ?_⟩
    simp [htexts, ServerHeld.connections, ServerHeld.pending, Connection.fresh]
  | closed client buffer hidle hclient =>
    refine ⟨calls, tries, hh.quiet rfl (List.Sublist.refl _) ?_⟩
    simp [htexts, ServerHeld.connections, ServerHeld.pending, hclient]
  | received c chunk hidle hc hchunk hfits =>
    refine ⟨calls, tries, hh.quiet rfl (List.Sublist.refl _) ?_⟩
    simp [htexts, ServerHeld.connections, ServerHeld.pending, hc]
  | overflowed c chunk hidle hc hchunk hover =>
    refine ⟨calls, tries, hh.quiet rfl (List.Sublist.refl _) ?_⟩
    simp [htexts, ServerHeld.connections, ServerHeld.pending, hc]
  | handed c line rest hbetween hw hr hc hturn =>
    refine ⟨calls, tries, hh.quiet rfl (List.Sublist.refl _) ?_⟩
    simp [htexts, ServerHeld.connections, ServerHeld.pending, hc]
  | dispatched c line now hline hc =>
    have hanswer : ∀ call, (onLine h.context line.text now).1.manager =
        (commandStep h.context.manager call).1 → (∀ args, call ≠ .checkTimeouts args) →
        (∀ targetNode sender fields sequenceOut now,
          call ≠ .send targetNode sender fields sequenceOut now) →
        ∃ calls tries, ServerHeld.Tries { h with
          context := (onLine h.context line.text now).1, feeding := .between } calls tries := by
      intro call hmanager hcheck hnosend
      refine ⟨_, _, hh.callQuiet call [] hnosend hmanager
        (fun args hargs => absurd hargs (hcheck args)) rfl ?_ (fun _ => Nat.zero_le _) (by simp)⟩
      rw [List.filterMap_nil, List.append_nil]
      exact List.Sublist.refl _
    rcases onLine_manager h.context line.text now with hsame | ⟨ack, hack⟩ | ⟨nack, hnack⟩
    · exact ⟨calls, tries, hh.quiet hsame (List.Sublist.refl _) (List.Sublist.refl _)⟩
    · exact hanswer _ hack (by simp) (by simp)
    · exact hanswer _ hnack (by simp) (by simp)
  | fed c hbetween hw hr hc hturn =>
    exact ⟨calls, tries, hh.quiet rfl (List.Sublist.refl _) (List.Sublist.refl _)⟩

/-! ## Every run -/

theorem server_tries (events : List ServerEvent) :
    ∃ calls tries, (serverMachine.state events).held.Tries calls tries := by
  refine serverMachine_invariant (I := fun h => ∃ calls tries, h.Tries calls tries) ?_
    (fun _ _ _ => ServerMove.tries) events
  exact ⟨[], [], rfl, fun args hargs => absurd hargs List.not_mem_nil,
    ⟨[], List.Sublist.refl _, by decide, fun p hp => absurd hp List.not_mem_nil⟩,
    List.Sublist.refl _, fun _ => Nat.zero_le _,
    fun command hcommand => absurd hcommand List.not_mem_nil⟩

section

variable {h : ServerHeld} {calls : List CommandCall} {tries : List FrameCommand}

/-- A command that was tried is one that was typed. -/
theorem ServerHeld.Tries.typed_of_mem (hh : h.Tries calls tries) {command : FrameCommand}
    (hcommand : command ∈ tries) : ∃ line ∈ h.typed, ∃ value,
      TypedLed line.bytes command.targetNode value ∧
        command = typedLedCommand command.targetNode value command.sequence := by
  obtain ⟨entered, hlines, hcommands, hled⟩ := hh.typed
  have hknown := hh.known command hcommand
  rw [← hcommands] at hknown
  obtain ⟨p, hp, rfl⟩ := List.mem_map.mp hknown
  exact ⟨p.1, hlines.subset (List.mem_map_of_mem hp), hled p hp⟩

/-- A sequence is tried at most three times. -/
theorem ServerHeld.Tries.count_le (hh : h.Tries calls tries) (sequence : UInt32) :
    (tries.map FrameCommand.sequence).count sequence ≤ 3 := by
  have hschedule := schedule hh.checks
  have hsends := hschedule.length_sendTimes_le sequence
  have hretries := hschedule.length_retryTimes_le sequence
  have hcounted := hh.counted sequence
  have htwo : cmdMaxRetries.toNat = 2 := rfl
  omega

/-- And stands for one command, of the first sixty-four. -/
theorem ServerHeld.Tries.eq_of_sequence (hh : h.Tries calls tries) {command command' : FrameCommand}
    (hcommand : command ∈ tries) (hcommand' : command' ∈ tries)
    (hsame : command.sequence = command'.sequence) : command = command' := by
  obtain ⟨e, he, rfl⟩ := List.mem_map.mp (hh.known command hcommand)
  obtain ⟨e', he', rfl⟩ := List.mem_map.mp (hh.known command' hcommand')
  rw [hh.filled.eq_of_sequence he he' hsame]

end

end SmartGateway
