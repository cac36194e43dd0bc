import SmartGateway.Server.CommandRuns

/-!
# When a command is tried again

`command_manager_check_timeouts` over a whole run. An entry keeps a counter and the time of
its last try; the run before it says which tries these were. `Schedule` ties the two
together, and each call keeps it: a send opens the schedule of a new command, an answer
closes one, and a check adds a retry to it or gives it up.
-/

namespace SmartGateway

/-- When a call sends the command of a sequence. -/
def sendsOf (sequence : UInt32) (manager : CommandManager) : CommandCall → List ℤ
  | .send targetNode sender fields sequenceOut now =>
    match (commandManagerSend manager targetNode sender fields sequenceOut now).2 with
    | some sent => if sent = sequence then [now] else []
    | none => []
  | _ => []

/-- When it counts a retry of it. -/
def retriesOf (sequence : UInt32) (manager : CommandManager) : CommandCall → List ℤ
  | .checkTimeouts args =>
    List.replicate (((manager.retriedBy args).map CommandEntry.sequence).count sequence) args.now
  | _ => []

/-- When it reports one to the caller: as often as the sequence stands in
`retry_sequences`. -/
def reportsOf (sequence : UInt32) (manager : CommandManager) : CommandCall → List ℤ
  | .checkTimeouts args =>
    match (commandManagerCheckTimeouts manager args).2 with
    | some report => List.replicate (report.retrySequences.count sequence) args.now
    | none => []
  | _ => []

/-- The sends of a run, for one sequence. -/
def sendTimes (sequence : UInt32) (calls : List CommandCall) : List ℤ :=
  commandMachine.log (sendsOf sequence) calls

/-- The retries it counts. -/
def retryTimes (sequence : UInt32) (calls : List CommandCall) : List ℤ :=
  commandMachine.log (retriesOf sequence) calls

/-- The retries it reports. -/
def reportTimes (sequence : UInt32) (calls : List CommandCall) : List ℤ :=
  commandMachine.log (reportsOf sequence) calls

/-- The tries: the send, and the retries after it. -/
def tryTimes (sequence : UInt32) (calls : List CommandCall) : List ℤ :=
  sendTimes sequence calls ++ retryTimes sequence calls

/-- Every check of the run is made with these bounds. -/
def ChecksWith (timeoutSec maxRetries : ℤ) (calls : List CommandCall) : Prop :=
  ∀ args, .checkTimeouts args ∈ calls →
    args.timeoutSec = timeoutSec ∧ args.maxRetries = maxRetries

variable {manager : CommandManager} {timeoutSec maxRetries : ℤ}

/-! ## One check -/

/-- The entry has waited long enough, and has retries left. -/
def retryDue (args : CheckTimeoutsArgs) (entry : CommandEntry) : Bool :=
  entry.state = .waiting && args.timeoutSec ≤ args.now - entry.sentTime &&
    entry.retries < args.maxRetries

/-- It has waited long enough, and has none left. -/
def giveUpDue (args : CheckTimeoutsArgs) (entry : CommandEntry) : Bool :=
  entry.state = .waiting && args.timeoutSec ≤ args.now - entry.sentTime &&
    args.maxRetries ≤ entry.retries

/-- What the check makes of an entry. -/
theorem checkedEntry_eq (args : CheckTimeoutsArgs) (entry : CommandEntry) :
    checkedEntry args entry =
      if retryDue args entry then
        { entry with retries := entry.retries + 1, sentTime := args.now }
      else if giveUpDue args entry then { entry with state := .timeout } else entry := by
  unfold checkedEntry checkEntry retryDue giveUpDue
  by_cases hwaiting : entry.state = .waiting
  swap
  · simp [hwaiting]
  by_cases hearly : args.now - entry.sentTime < args.timeoutSec
  · simp [hwaiting, hearly, Int.not_le.mpr hearly]
  by_cases hleft : (entry.retries : ℤ) < args.maxRetries
  · simp [hwaiting, hearly, Int.not_lt.mp hearly, hleft]
  · simp [hwaiting, hearly, Int.not_lt.mp hearly, hleft, Int.not_lt.mp hleft]

theorem retried_checkedEntry (args : CheckTimeoutsArgs) (entry : CommandEntry) :
    retried entry (checkedEntry args entry) = retryDue args entry := by
  rw [checkedEntry_eq]
  unfold retried
  split_ifs with hdue hgive <;> simp [hdue]

/-- The entries changed by a function, read off the table before it. -/
theorem changedEntries_map (r : CommandEntry → CommandEntry → Bool)
    (f : CommandEntry → CommandEntry) (entries : List CommandEntry) :
    changedEntries r entries (entries.map f) = entries.filter fun e => r e (f e) := by
  induction entries with
  | nil => rfl
  | cons entry entries ih =>
    rw [List.map_cons, changedEntries_cons, ih, List.filter_cons]
    split <;> rfl

/-- The check passes over the commands and leaves the free slots. -/
theorem live_checkTimeouts {args : CheckTimeoutsArgs}
    (hargs : ¬ (args.timeoutSec < 0 ∨ args.maxRetries < 0)) :
    (commandManagerCheckTimeouts manager args).1.live = manager.live.map (checkedEntry args) := by
  have hentries : (commandManagerCheckTimeouts manager args).1.entries =
      manager.entries.map (checkedEntry args) := by
    rw [commandManagerCheckTimeouts, if_neg hargs]
    exact checkEntries_fst args manager.entries .empty
  rw [CommandManager.live, hentries, List.filter_map, CommandManager.live]
  congr 1
  refine List.filter_congr fun e _ => ?_
  have hstate : (checkedEntry args e).state = .free ↔ e.state = .free :=
    checkEntry_state_eq_free_iff args e .empty
  rw [Function.comp_apply, Bool.eq_iff_iff, bne_iff_ne, bne_iff_ne, ne_eq, ne_eq, hstate]

/-- The commands whose retry it counts. -/
theorem retriedBy_eq {args : CheckTimeoutsArgs}
    (hargs : ¬ (args.timeoutSec < 0 ∨ args.maxRetries < 0)) :
    manager.retriedBy args = manager.live.filter (retryDue args) := by
  have hentries : (commandManagerCheckTimeouts manager args).1.entries =
      manager.entries.map (checkedEntry args) := by
    rw [commandManagerCheckTimeouts, if_neg hargs]
    exact checkEntries_fst args manager.entries .empty
  rw [CommandManager.retriedBy, hentries, changedEntries_map, CommandManager.live,
    List.filter_filter]
  refine List.filter_congr fun e _ => ?_
  rw [retried_checkedEntry]
  cases hdue : retryDue args e with
  | false => rfl
  | true =>
    have hwaiting : e.state = .waiting := by
      simp only [retryDue, Bool.and_eq_true, decide_eq_true_eq] at hdue
      exact hdue.1.1
    rw [hwaiting]
    rfl

/-- A check with a negative bound changes nothing, so it counts nothing. -/
theorem retriedBy_of_neg {args : CheckTimeoutsArgs}
    (hargs : args.timeoutSec < 0 ∨ args.maxRetries < 0) : manager.retriedBy args = [] := by
  have hnext : (commandManagerCheckTimeouts manager args).1 = manager := by
    rw [commandManagerCheckTimeouts, if_pos hargs]
  have hsame := changedEntries_map retried id manager.entries
  rw [List.map_id] at hsame
  rw [CommandManager.retriedBy, hnext, hsame, List.filter_eq_nil_iff]
  intro e _
  simp [retried]

/-- **A check counts a retry of a command** if one is due, and of no other. -/
theorem retriesOf_checkTimeouts (h : manager.Filled) {args : CheckTimeoutsArgs}
    (hargs : ¬ (args.timeoutSec < 0 ∨ args.maxRetries < 0)) {e : CommandEntry}
    (he : e ∈ manager.live) :
    retriesOf e.sequence manager (.checkTimeouts args) =
      if retryDue args e then [args.now] else [] := by
  have hnodup : ((manager.live.filter (retryDue args)).map CommandEntry.sequence).Nodup :=
    h.nodup.sublist (List.filter_sublist.map _)
  have hmem : e.sequence ∈ (manager.live.filter (retryDue args)).map CommandEntry.sequence ↔
      retryDue args e = true := by
    constructor
    · intro hmem
      obtain ⟨e', he', hsame⟩ := List.mem_map.mp hmem
      obtain ⟨hlive, hdue⟩ := List.mem_filter.mp he'
      rwa [← h.eq_of_sequence hlive he hsame]
    · exact fun hdue => List.mem_map_of_mem (List.mem_filter.mpr ⟨he, hdue⟩)
  rw [retriesOf, retriedBy_eq hargs, List.Nodup.count hnodup]
  simp only [hmem]
  split <;> rfl

/-- And none for a sequence without a command. -/
theorem retriesOf_of_not_mem {sequence : UInt32}
    (hnew : ∀ e ∈ manager.live, e.sequence ≠ sequence) (call : CommandCall) :
    retriesOf sequence manager call = [] := by
  cases call with
  | checkTimeouts args =>
    by_cases hargs : args.timeoutSec < 0 ∨ args.maxRetries < 0
    · rw [retriesOf, retriedBy_of_neg hargs]
      rfl
    · rw [retriesOf, retriedBy_eq hargs, List.count_eq_zero.mpr, List.replicate_zero]
      intro hmem
      obtain ⟨e, he, hsame⟩ := List.mem_map.mp hmem
      exact hnew e (List.mem_of_mem_filter he) hsame
  | _ => rfl

/-! ## One call -/

/-- What a call does to a command, and the retries it counts of it. -/
inductive TryStep (call : CommandCall) (e : CommandEntry) : CommandEntry → List ℤ → Prop
  | kept (state : CommandState) : (state = .timeout → e.state = .timeout) →
      TryStep call e { e with state := state } []
  | retried (args : CheckTimeoutsArgs) : call = .checkTimeouts args → retryDue args e = true →
      TryStep call e { e with retries := e.retries + 1, sentTime := args.now } [args.now]
  | givenUp (args : CheckTimeoutsArgs) : call = .checkTimeouts args → 0 ≤ args.maxRetries →
      giveUpDue args e = true → TryStep call e { e with state := .timeout } []

theorem TryStep.sequence {call : CommandCall} {e e' : CommandEntry} {retries : List ℤ}
    (h : TryStep call e e' retries) : e'.sequence = e.sequence := by
  cases h <;> rfl

/-- Only a check retries a command or gives it up. -/
theorem TableEffect.tryStep {call : CommandCall} {ret : CommandReturn} {live : List CommandEntry}
    (h : TableEffect manager call ret live) (hcall : ∀ args, call ≠ .checkTimeouts args)
    {e : CommandEntry} (he : e ∈ manager.live) : ∃ e' ∈ live, TryStep call e e' [] := by
  cases h with
  | same => exact ⟨e, he, .kept e.state id⟩
  | sent entry sequenceOut _ _ _ _ => exact ⟨e, List.mem_append_left _ he, .kept e.state id⟩
  | answered i hi state hwaiting _ hlife hanswered =>
    obtain ⟨j, hj, rfl⟩ := List.getElem_of_mem he
    by_cases hij : j = i
    · subst hij
      refine ⟨_, List.mem_set hi _, .kept state fun hstate => ?_⟩
      cases hlife with
      | stays => exact hstate
      | acked | nacked => cases hstate
      | timeout args hcheck _ => exact absurd hcheck (hcall args)
    · refine ⟨manager.live[j], ?_, .kept _ id⟩
      rw [List.mem_iff_getElem?]
      exact ⟨j, by rw [List.getElem?_set_ne (Ne.symm hij), List.getElem?_eq_getElem hj]⟩
  | checked args hcheck => exact absurd hcheck (hcall args)

/-- **A command through one call.** -/
theorem tryStep (h : manager.Filled) (call : CommandCall) {e : CommandEntry}
    (he : e ∈ manager.live) :
    ∃ e' ∈ (commandStep manager call).1.live,
      TryStep call e e' (retriesOf e.sequence manager call) := by
  cases call with
  | checkTimeouts args =>
    change ∃ e' ∈ (commandManagerCheckTimeouts manager args).1.live, _
    by_cases hargs : args.timeoutSec < 0 ∨ args.maxRetries < 0
    · rw [retriesOf, retriedBy_of_neg hargs, commandManagerCheckTimeouts, if_pos hargs]
      exact ⟨e, he, .kept e.state id⟩
    rw [live_checkTimeouts hargs, retriesOf_checkTimeouts h hargs he]
    refine ⟨checkedEntry args e, List.mem_map_of_mem he, ?_⟩
    rw [checkedEntry_eq]
    by_cases hdue : retryDue args e = true
    · rw [if_pos hdue, if_pos hdue]
      exact .retried args rfl hdue
    rw [if_neg hdue, if_neg hdue]
    by_cases hgive : giveUpDue args e = true
    · rw [if_pos hgive]
      exact .givenUp args rfl (by omega) hgive
    · rw [if_neg hgive]
      exact .kept e.state id
  | send | onAck | onNack =>
    exact (table_effect h _).1.tryStep (fun args => CommandCall.noConfusion) he

/-- What a send adds: nothing, or one command under a new sequence. -/
theorem sent_of_send (h : manager.Filled) (targetNode sender : Option CStr)
    (fields : Option (List FrameKv)) (sequenceOut : Bool) (now : ℤ) :
    let call : CommandCall := .send targetNode sender fields sequenceOut now
    let next := (commandStep manager call).1
    (next = manager ∧ ∀ sequence, sendsOf sequence manager call = []) ∨
      ∃ entry, next.live = manager.live ++ [entry] ∧ entry.state = .waiting ∧
        entry.retries = 0 ∧
        (∀ sequence, sendsOf sequence manager call =
          if entry.sequence = sequence then [entry.sentTime] else []) ∧
        ∀ e ∈ manager.live, e.sequence ≠ entry.sequence := by
  intro call next
  rcases commandManagerSend_cases manager targetNode sender fields sequenceOut now with
    hsend | ⟨i, entry, hi, hstate, hsequence, -, -, -, hnow, hretries, hsend⟩
  · refine .inl ⟨?_, fun sequence => ?_⟩
    · exact congrArg Prod.fst hsend
    · simp only [sendsOf, call, hsend]
  · have hlives : entry.state ≠ .free := by
      rw [hstate]
      exact CommandState.noConfusion
    obtain ⟨hlive, hfilled⟩ := h.send hi hlives hsequence
      (show next.entries = (manager.setEntry i entry).entries from
        congrArg (fun result => result.1.entries) hsend)
      (congrArg (fun result => result.1.nextSequence) hsend)
    refine .inr ⟨entry, hlive, hstate, hretries, fun sequence => ?_, fun e he hsame => ?_⟩
    · simp only [sendsOf, call, hsend, hsequence, hnow]
    · have hnodup := hfilled.nodup
      rw [hlive, List.map_append, List.nodup_append] at hnodup
      exact hnodup.2.2 _ (List.mem_map_of_mem he) _ (List.mem_singleton_self _) hsame

/-- **Where a command comes from**: it was there, and is not sent again, or the call sends
it. -/
theorem live_origin (h : manager.Filled) (call : CommandCall) {e' : CommandEntry}
    (he' : e' ∈ (commandStep manager call).1.live) :
    (∃ e ∈ manager.live, e.sequence = e'.sequence ∧ sendsOf e'.sequence manager call = []) ∨
      ((∀ e ∈ manager.live, e.sequence ≠ e'.sequence) ∧ e'.state = .waiting ∧
        e'.retries = 0 ∧ sendsOf e'.sequence manager call = [e'.sentTime]) := by
  cases call with
  | send targetNode sender fields sequenceOut now =>
    rcases sent_of_send h targetNode sender fields sequenceOut now with
      ⟨hsame, hsends⟩ | ⟨entry, hlive, hstate, hretries, hsends, hnew⟩
    · rw [hsame] at he'
      exact .inl ⟨e', he', rfl, hsends _⟩
    rw [hlive] at he'
    rcases List.mem_append.mp he' with hold | hlast
    · refine .inl ⟨e', hold, rfl, ?_⟩
      rw [hsends, if_neg (Ne.symm (hnew e' hold))]
    · obtain rfl := List.mem_singleton.mp hlast
      exact .inr ⟨hnew, hstate, hretries, by rw [hsends, if_pos rfl]⟩
  | onAck | onNack | checkTimeouts =>
    obtain ⟨e, he, hcontinues⟩ | ⟨-, sequenceOut, now, hsent⟩ :=
      (table_effect h _).1.origin he'
    · exact .inl ⟨e, he, hcontinues.sequence.symm, rfl⟩
    · cases congrArg Prod.fst (List.mem_singleton.mp hsent)

/-- What is sent is in the table. -/
theorem sendsOf_eq_nil (h : manager.Filled) (call : CommandCall) {sequence : UInt32}
    (hnew : ∀ e' ∈ (commandStep manager call).1.live, e'.sequence ≠ sequence) :
    sendsOf sequence manager call = [] := by
  cases call with
  | send targetNode sender fields sequenceOut now =>
    rcases sent_of_send h targetNode sender fields sequenceOut now with
      ⟨-, hsends⟩ | ⟨entry, hlive, -, -, hsends, -⟩
    · exact hsends sequence
    · rw [hlive] at hnew
      rw [hsends, if_neg (hnew entry (List.mem_append_right _ (List.mem_singleton_self _)))]
  | onAck | onNack | checkTimeouts => rfl

/-! ## The schedule -/

/-- What the entry of a command says about its tries. -/
structure CommandEntry.Records (entry : CommandEntry) (maxRetries : ℤ)
    (sends retries : List ℤ) : Prop where
  once : sends.length = 1
  count : entry.retries = retries.length
  bound : retries.length ≤ maxRetries.toNat
  last : (sends ++ retries).getLast? = some entry.sentTime

/-- The table tells the tries of the run. -/
structure Schedule (maxRetries : ℤ) (calls : List CommandCall) (manager : CommandManager) :
    Prop where
  filled : manager.Filled
  records : ∀ e ∈ manager.live,
    e.Records maxRetries (sendTimes e.sequence calls) (retryTimes e.sequence calls)
  unsent : ∀ sequence, (∀ e ∈ manager.live, e.sequence ≠ sequence) →
    sendTimes sequence calls = [] ∧ retryTimes sequence calls = []

theorem sendTimes_concat (sequence : UInt32) (calls : List CommandCall) (call : CommandCall) :
    sendTimes sequence (calls ++ [call]) =
      sendTimes sequence calls ++ sendsOf sequence (commandMachine.state calls) call :=
  commandMachine.log_concat _ calls call

theorem retryTimes_concat (sequence : UInt32) (calls : List CommandCall) (call : CommandCall) :
    retryTimes sequence (calls ++ [call]) =
      retryTimes sequence calls ++ retriesOf sequence (commandMachine.state calls) call :=
  commandMachine.log_concat _ calls call

theorem reportTimes_concat (sequence : UInt32) (calls : List CommandCall) (call : CommandCall) :
    reportTimes sequence (calls ++ [call]) =
      reportTimes sequence calls ++ reportsOf sequence (commandMachine.state calls) call :=
  commandMachine.log_concat _ calls call

/-- The record of a command goes on with it. -/
theorem CommandEntry.Records.step {call : CommandCall} {e e' : CommandEntry}
    {sends retries more : List ℤ} (h : e.Records maxRetries sends retries)
    (hstep : TryStep call e e' more)
    (hcall : ∀ args, call = .checkTimeouts args → args.maxRetries = maxRetries) :
    e'.Records maxRetries sends (retries ++ more) := by
  have hcount := h.count
  have hbound := h.bound
  cases hstep with
  | kept state _ =>
    rw [List.append_nil]
    exact ⟨h.once, hcount, hbound, h.last⟩
  | givenUp args _ _ _ =>
    rw [List.append_nil]
    exact ⟨h.once, hcount, hbound, h.last⟩
  | retried args hcheck hdue =>
    have hmax := hcall args hcheck
    simp only [retryDue, Bool.and_eq_true, decide_eq_true_eq] at hdue
    obtain ⟨-, hleft⟩ := hdue
    refine ⟨h.once, ?_, ?_, ?_⟩
    · rw [List.length_append, List.length_singleton, ← hcount]
    · rw [List.length_append, List.length_singleton]
      omega
    · rw [← List.append_assoc, List.getLast?_concat]

/-- **One call keeps the schedule.** -/
theorem Schedule.step {calls : List CommandCall}
    (h : Schedule maxRetries calls (commandMachine.state calls)) {call : CommandCall}
    (hcall : ∀ args, call = .checkTimeouts args → args.maxRetries = maxRetries) :
    Schedule maxRetries (calls ++ [call]) (commandMachine.state (calls ++ [call])) := by
  rw [Machine.state_concat]
  have hfilled := (table_effect h.filled call).2
  refine ⟨hfilled, fun e' he' => ?_, fun sequence hnew => ?_⟩
  · rw [sendTimes_concat, retryTimes_concat]
    rcases live_origin h.filled call he' with
      ⟨e, he, hsame, hsends⟩ | ⟨hnew, -, hretries, hsends⟩
    · -- the same command, one call on
      obtain ⟨e₁, he₁, htry⟩ := tryStep h.filled call he
      obtain rfl := hfilled.eq_of_sequence he₁ he' (htry.sequence.trans hsame)
      rw [hsends, List.append_nil, ← hsame]
      exact (h.records e he).step htry hcall
    · obtain ⟨hnone, hnotried⟩ := h.unsent _ hnew
      rw [hsends, hnone, hnotried, retriesOf_of_not_mem hnew]
      exact ⟨rfl, hretries, Nat.zero_le _, rfl⟩
  · have hbefore : ∀ e ∈ (commandMachine.state calls).live, e.sequence ≠ sequence := by
      intro e he hsame
      obtain ⟨e', he', htry⟩ := tryStep h.filled call he
      exact hnew e' he' (htry.sequence.trans hsame)
    obtain ⟨hnone, hnotried⟩ := h.unsent sequence hbefore
    rw [sendTimes_concat, retryTimes_concat, hnone, hnotried, sendsOf_eq_nil h.filled call hnew,
      retriesOf_of_not_mem hbefore]
    exact ⟨rfl, rfl⟩

theorem ChecksWith.of_prefix {before after : List CommandCall}
    (h : ChecksWith timeoutSec maxRetries (before ++ after)) :
    ChecksWith timeoutSec maxRetries before :=
  fun args hargs => h args (List.mem_append_left _ hargs)

/-- Every run. -/
theorem schedule {calls : List CommandCall} (hcalls : ChecksWith timeoutSec maxRetries calls) :
    Schedule maxRetries calls (commandMachine.state calls) := by
  induction calls using List.reverseRecOn with
  | nil =>
    have hfilled := (commandMachine_filled []).1
    have hlive : (commandMachine.state []).live = [] := by
      refine List.filter_eq_nil_iff.mpr fun e he => ?_
      rw [List.eq_of_mem_replicate he]
      exact Bool.false_ne_true
    refine ⟨hfilled, fun e he => ?_, fun sequence _ => ⟨rfl, rfl⟩⟩
    rw [hlive] at he
    exact absurd he List.not_mem_nil
  | append_singleton calls call ih =>
    refine (ih hcalls.of_prefix).step fun args hargs => ?_
    subst hargs
    exact (hcalls args (List.mem_append_right _ (List.mem_singleton_self _))).2

/-! ## Reports -/

theorem reportRetry_retrySequences (args : CheckTimeoutsArgs) (entry : CommandEntry)
    (report : TimeoutReport) :
    (reportRetry args entry report).retrySequences.Sublist
      (report.retrySequences ++ [entry.sequence]) := by
  unfold reportRetry
  split
  · split
    · exact List.Sublist.refl _
    · exact List.sublist_append_left _ _
  · exact List.sublist_append_left _ _

theorem reportTimeout_retrySequences (args : CheckTimeoutsArgs) (entry : CommandEntry)
    (report : TimeoutReport) :
    (reportTimeout args entry report).retrySequences = report.retrySequences := by
  unfold reportTimeout
  split_ifs <;> rfl

/-- A turn of the loop reports at most the retry it counts. -/
theorem checkEntry_retrySequences (args : CheckTimeoutsArgs) (entry : CommandEntry)
    (report : TimeoutReport) :
    (checkEntry args entry report).2.retrySequences.Sublist (report.retrySequences ++
      (if retried entry (checkEntry args entry report).1 then [entry] else []).map
        CommandEntry.sequence) := by
  unfold checkEntry
  split
  · exact List.sublist_append_left _ _
  split
  · exact List.sublist_append_left _ _
  split
  · have hretried : retried entry { entry with
        retries := entry.retries + 1, sentTime := args.now } = true := by
      simp [retried]
    rw [if_pos hretried]
    exact reportRetry_retrySequences args entry report
  · rw [reportTimeout_retrySequences]
    exact List.sublist_append_left _ _

/-- What the loop reports, it counts. -/
theorem checkEntries_retrySequences (args : CheckTimeoutsArgs) (entries : List CommandEntry)
    (report : TimeoutReport) :
    (checkEntries args entries report).2.retrySequences.Sublist (report.retrySequences ++
      (changedEntries retried entries (checkEntries args entries report).1).map
        CommandEntry.sequence) := by
  induction entries generalizing report with
  | nil => exact List.sublist_append_left _ _
  | cons entry entries ih =>
    have hentry := checkEntry_retrySequences args entry report
    simp only [checkEntries, changedEntries_cons, List.map_append]
    rw [← List.append_assoc]
    exact (ih _).trans (hentry.append (List.Sublist.refl _))

/-- **A report is a counted retry.** -/
theorem reportsOf_sublist (sequence : UInt32) (manager : CommandManager) (call : CommandCall) :
    (reportsOf sequence manager call).Sublist (retriesOf sequence manager call) := by
  cases call with
  | checkTimeouts args =>
    cases hreport : (commandManagerCheckTimeouts manager args).2 with
    | none =>
      rw [reportsOf, hreport]
      exact List.nil_sublist _
    | some report =>
      rw [reportsOf, hreport, retriesOf]
      refine (List.replicate_sublist_replicate _).mpr (List.Sublist.count_le sequence ?_)
      unfold CommandManager.retriedBy
      unfold commandManagerCheckTimeouts at hreport ⊢
      split_ifs at hreport ⊢
      obtain rfl := Option.some.inj hreport
      have hall := checkEntries_retrySequences args manager.entries .empty
      rwa [show TimeoutReport.empty.retrySequences = [] from rfl, List.nil_append] at hall
  | send | onAck | onNack => exact List.nil_sublist _

/-- Over a whole run. -/
theorem reportTimes_sublist (sequence : UInt32) (calls : List CommandCall) :
    (reportTimes sequence calls).Sublist (retryTimes sequence calls) := by
  induction calls using List.reverseRecOn with
  | nil => exact List.Sublist.refl _
  | append_singleton calls call ih =>
    rw [reportTimes_concat, retryTimes_concat]
    exact ih.append (reportsOf_sublist sequence _ call)

/-! ## The schedule of a run -/

section

variable {calls : List CommandCall} {sequence : UInt32}

/-- A command of the table, by its sequence; without one nothing is counted. -/
theorem exists_of_retriesOf_ne_nil {call : CommandCall}
    (h : retriesOf sequence manager call ≠ []) : ∃ e ∈ manager.live, e.sequence = sequence := by
  by_contra hnone
  push Not at hnone
  exact h (retriesOf_of_not_mem hnone call)

/-- **When a retry is counted**: the command waits, before and after, and its last try was
`timeout_sec` ago or more. -/
theorem Schedule.retried (h : Schedule maxRetries calls (commandMachine.state calls))
    {call : CommandCall}
    (hcall : ∀ args, call = .checkTimeouts args → args.timeoutSec = timeoutSec)
    (hretries : retriesOf sequence (commandMachine.state calls) call ≠ []) :
    commandManagerQuery (commandMachine.state calls) sequence = some .waiting ∧
      commandManagerQuery (commandStep (commandMachine.state calls) call).1 sequence =
        some .waiting ∧
      ∃ last now, (tryTimes sequence calls).getLast? = some last ∧ timeoutSec ≤ now - last ∧
        retriesOf sequence (commandMachine.state calls) call = [now] := by
  obtain ⟨e, he, rfl⟩ := exists_of_retriesOf_ne_nil hretries
  obtain ⟨e', he', htry⟩ := tryStep h.filled call he
  generalize hcounted : retriesOf e.sequence (commandMachine.state calls) call = counted
    at hretries htry
  cases htry with
  | kept | givenUp => exact absurd rfl hretries
  | retried args hcheck hdue =>
    simp only [retryDue, Bool.and_eq_true, decide_eq_true_eq] at hdue
    obtain ⟨⟨hwaiting, hgap⟩, -⟩ := hdue
    rw [hcall args hcheck] at hgap
    have hfilled := (table_effect h.filled call).2
    exact ⟨(commandManagerQuery_eq_some_iff h.filled).mpr ⟨e, he, rfl, hwaiting⟩,
      (commandManagerQuery_eq_some_iff hfilled).mpr ⟨_, he', rfl, hwaiting⟩,
      e.sentTime, args.now, (h.records e he).last, hgap, rfl⟩

/-- **When a command is given up**: after `max_retries` counted retries, and one more
expiry. -/
theorem Schedule.givenUp (h : Schedule maxRetries calls (commandMachine.state calls))
    {call : CommandCall}
    (hcall : ∀ args, call = .checkTimeouts args →
      args.timeoutSec = timeoutSec ∧ args.maxRetries = maxRetries)
    (hbefore : commandManagerQuery (commandMachine.state calls) sequence ≠ some .timeout)
    (hafter : commandManagerQuery (commandStep (commandMachine.state calls) call).1 sequence =
      some .timeout) :
    ((retryTimes sequence calls).length : ℤ) = maxRetries ∧
      ∃ args last, call = .checkTimeouts args ∧
        (tryTimes sequence calls).getLast? = some last ∧ timeoutSec ≤ args.now - last := by
  have hfilled := (table_effect h.filled call).2
  obtain ⟨e', he', rfl, hstate⟩ := (commandManagerQuery_eq_some_iff hfilled).mp hafter
  rcases live_origin h.filled call he' with ⟨e, he, hsame, -⟩ | ⟨-, hwaiting, -, -⟩
  swap
  · rw [hwaiting] at hstate
    cases hstate
  have hrecords := h.records e he
  rw [← hsame] at hbefore ⊢
  have hnot : e.state ≠ .timeout := fun hdone =>
    hbefore ((commandManagerQuery_eq_some_iff h.filled).mpr ⟨e, he, rfl, hdone⟩)
  obtain ⟨e₁, he₁, htry⟩ := tryStep h.filled call he
  obtain rfl := hfilled.eq_of_sequence he₁ he' (htry.sequence.trans hsame)
  -- of what a call does to a command, only giving up leads to `TIMEOUT`
  generalize retriesOf e.sequence (commandMachine.state calls) call = counted at htry
  cases htry with
  | kept state hkept => exact absurd (hkept hstate) hnot
  | retried args _ _ => exact absurd hstate hnot
  | givenUp args hcheck hsign hdue =>
    obtain ⟨hgap, hmax⟩ := hcall args hcheck
    simp only [giveUpDue, Bool.and_eq_true, decide_eq_true_eq] at hdue
    obtain ⟨⟨-, hexpired⟩, hspent⟩ := hdue
    have hbound := hrecords.bound
    have hcount := hrecords.count
    refine ⟨by omega, args, e.sentTime, hcheck, hrecords.last, ?_⟩
    rw [← hgap]
    exact hexpired

/-- A run counts no more retries than it may. -/
theorem Schedule.length_retryTimes_le
    (h : Schedule maxRetries calls (commandMachine.state calls)) (sequence : UInt32) :
    (retryTimes sequence calls).length ≤ maxRetries.toNat := by
  by_cases hlive : ∃ e ∈ (commandMachine.state calls).live, e.sequence = sequence
  · obtain ⟨e, he, rfl⟩ := hlive
    exact (h.records e he).bound
  · push Not at hlive
    rw [(h.unsent sequence hlive).2]
    exact Nat.zero_le _

/-- And sends a command once. -/
theorem Schedule.length_sendTimes_le
    (h : Schedule maxRetries calls (commandMachine.state calls)) (sequence : UInt32) :
    (sendTimes sequence calls).length ≤ 1 := by
  by_cases hlive : ∃ e ∈ (commandMachine.state calls).live, e.sequence = sequence
  · obtain ⟨e, he, rfl⟩ := hlive
    exact (h.records e he).once.le
  · push Not at hlive
    rw [(h.unsent sequence hlive).1]
    exact Nat.zero_le _

/-- After an answer, or given up, it is not retried again. -/
theorem retryTimes_of_done (more : List CommandCall) {state : CommandState}
    (hcalls : ChecksWith timeoutSec maxRetries (calls ++ more))
    (hquery : commandManagerQuery (commandMachine.state calls) sequence = some state)
    (hdone : state ≠ .waiting) :
    retryTimes sequence (calls ++ more) = retryTimes sequence calls ∧
      reportTimes sequence (calls ++ more) = reportTimes sequence calls := by
  induction more using List.reverseRecOn with
  | nil =>
    rw [List.append_nil]
    exact ⟨rfl, rfl⟩
  | append_singleton more call ih =>
    rw [← List.append_assoc] at hcalls ⊢
    obtain ⟨hretries, hreports⟩ := ih hcalls.of_prefix
    have hstill := commandManagerQuery_of_done hquery hdone more
    have hnone : retriesOf sequence (commandMachine.state (calls ++ more)) call = [] := by
      by_contra hsome
      have hwaiting := ((schedule hcalls.of_prefix).retried
        (fun args hargs => (hcalls args (List.mem_append_right _ (by
          rw [hargs]
          exact List.mem_singleton_self _))).1) hsome).1
      rw [hstill] at hwaiting
      exact hdone (Option.some.inj hwaiting)
    have hreport := reportsOf_sublist sequence (commandMachine.state (calls ++ more)) call
    rw [hnone, List.sublist_nil] at hreport
    rw [retryTimes_concat, reportTimes_concat, hnone, hreport, List.append_nil, List.append_nil]
    exact ⟨hretries, hreports⟩

end

/-- **The retry schedule.** In a run whose checks are all made with the same `timeout_sec`
and `max_retries`, for each sequence:

* it is sent at most once, and reported at most `max_retries` times;
* every report is of a retry counted in the same call, and such a retry is counted only while
  the command waits, before and after the call, and at `timeout_sec` or more from the last
  try: the send, or the last retry counted before;
* the command becomes `TIMEOUT` only in a check, when exactly `max_retries` retries have been
  counted before, and at `timeout_sec` or more from the last of these tries;
* once it is not `WAITING` any more, no retry of it is counted or reported. -/
theorem retry_schedule {calls : List CommandCall}
    (hcalls : ChecksWith timeoutSec maxRetries calls) (sequence : UInt32) :
    (sendTimes sequence calls).length ≤ 1 ∧
      (reportTimes sequence calls).length ≤ maxRetries.toNat ∧
      (∀ before call after, calls = before ++ call :: after →
        let manager := commandMachine.state before
        let next := (commandStep manager call).1
        (reportsOf sequence manager call).Sublist (retriesOf sequence manager call) ∧
        (retriesOf sequence manager call ≠ [] →
          commandManagerQuery manager sequence = some .waiting ∧
          commandManagerQuery next sequence = some .waiting ∧
          ∃ last now, (tryTimes sequence before).getLast? = some last ∧
            timeoutSec ≤ now - last ∧ retriesOf sequence manager call = [now]) ∧
        (commandManagerQuery manager sequence ≠ some .timeout →
          commandManagerQuery next sequence = some .timeout →
          ((retryTimes sequence before).length : ℤ) = maxRetries ∧
          ∃ args last, call = .checkTimeouts args ∧
            (tryTimes sequence before).getLast? = some last ∧ timeoutSec ≤ args.now - last)) ∧
      ∀ before after, calls = before ++ after → ∀ state,
        commandManagerQuery (commandMachine.state before) sequence = some state →
        state ≠ .waiting →
        retryTimes sequence calls = retryTimes sequence before ∧
          reportTimes sequence calls = reportTimes sequence before := by
  have hall := schedule hcalls
  refine ⟨hall.length_sendTimes_le sequence,
    (reportTimes_sublist sequence calls).length_le.trans (hall.length_retryTimes_le sequence),
    ?_, ?_⟩
  · rintro before call after rfl manager next
    have hbefore := schedule (hcalls.of_prefix)
    have hcall : ∀ args, call = .checkTimeouts args →
        args.timeoutSec = timeoutSec ∧ args.maxRetries = maxRetries := by
      rintro args rfl
      exact hcalls args (List.mem_append_right _ List.mem_cons_self)
    exact ⟨reportsOf_sublist sequence manager call,
      fun hretries => hbefore.retried (fun args hargs => (hcall args hargs).1) hretries,
      fun hnot htimeout => hbefore.givenUp hcall hnot htimeout⟩
  · rintro before after rfl state hquery hdone
    exact retryTimes_of_done after hcalls hquery hdone

/-- One command, checked with `timeout_sec` 5 and one retry at the times 4, 5, 9 and 10. -/
def retriedOnce : List CommandCall :=
  let nodeId : CStr := cstr (ascii "N1")
  .send (some nodeId) (some nodeId) (some []) true 0 :: [4, 5, 9, 10].map fun now =>
    .checkTimeouts ⟨now, 5, 1, true, true, true, true, 8, true, 8⟩

/-- It is reported at 5, and given up at 10. -/
example : reportTimes 1 retriedOnce = [5] ∧
    commandManagerQuery (commandMachine.state retriedOnce) 1 = some .timeout := by
  decide +kernel

/-- Its reports are within the bound. -/
theorem retry_schedule_retriedOnce : (reportTimes 1 retriedOnce).length ≤ 1 := by
  have hcalls : ChecksWith 5 1 retriedOnce := by
    intro args hargs
    simp only [retriedOnce, List.map_cons, List.map_nil, List.mem_cons, List.not_mem_nil,
      reduceCtorEq, CommandCall.checkTimeouts.injEq, false_or, or_false] at hargs
    obtain rfl | rfl | rfl | rfl := hargs <;> exact ⟨rfl, rfl⟩
  exact (retry_schedule hcalls 1).2.1

end SmartGateway
