import SmartGateway.Gateway.RecordEffects

/-!
# Where a connection ends

Commands are queued for a connection. When the node goes offline, or its descriptor
changes, what is still queued belongs to a connection that is over. The device manager
is watched here for one node: beside each queued command stands whether its connection
has ended since. Disconnecting, binding and unregistering empty the queue, so that
nothing of that kind is left; `device_manager_set_online` does not.
-/

namespace SmartGateway

open KeyedList

/-! ## A manager that is watched -/

/-- The connection on record before a call is not the one on record after it: the node
has gone offline, or its descriptor is another. -/
def connectionEnded (before after : Option DeviceRecord) : Bool :=
  match before, after with
  | none, _ => false
  | some _, none => true
  | some r, some r' => (r.online && !r'.online) || r.fd != r'.fd

/-- The queue of a record, if there is one. -/
def queueOf (o : Option DeviceRecord) : List FrameCommand := (o.map DeviceRecord.queue).getD []

/-- The manager, and for each command queued for the node watched, oldest first, whether
the connection it was accepted for has ended since. -/
structure Watched where
  manager : DeviceManager
  stale : List Bool

/-- The marks after a call: those of the commands still queued, all set if the
connection has ended. -/
def marksAfter (stale : List Bool) (move : Option QueueMove) (before after : Option DeviceRecord) :
    List Bool :=
  let kept :=
    match move with
    | some .enqueued => stale ++ [false]
    | some .dequeued => stale.tail
    | none => if queueOf after = [] then [] else stale
  if connectionEnded before after then kept.map fun _ => true else kept

/-- One call, watched; with the mark of the command it hands out of the queue. -/
def watchedStep (id : CStr) (s : Watched) (call : DeviceCall) :
    Watched × DeviceReturn × Option Bool :=
  let (manager, ret) := deviceStep s.manager call
  let move := queueMove id call ret.code
  (⟨manager, marksAfter s.stale move (s.manager.record? id) (manager.record? id)⟩, ret,
    if move = some .dequeued then s.stale.head? else none)

/-- The manager, watched for a node. -/
def watchedMachine (id : CStr) : Machine Watched DeviceCall (DeviceReturn × Option Bool) where
  init := ⟨deviceManagerInit, []⟩
  step := watchedStep id

/-- The call does not end, with `device_manager_set_online`, the connection of a node
whose queue is not empty. -/
def keepsConnection (id : CStr) (s : Watched) : DeviceCall → Bool
  | .setOnline given online fd =>
    match s.manager.record? id with
    | none => true
    | some r =>
      given != some id || r.queue = [] ||
        !(online = 0 || (online = 1 && decide (0 ≤ fd) && fd != r.fd))
  | _ => true

/-! ## One call -/

variable {id : CStr} {manager : DeviceManager} {m : DeviceMap}

/-- Nothing queued for the node is left from a connection that is over, and nothing is
queued for it while it is offline. -/
structure Watched.Fresh (id : CStr) (s : Watched) : Prop where
  stands : ∃ m, s.manager.StandsFor m
  marks : s.stale = (queueOf (s.manager.record? id)).map fun _ => false
  offline : ∀ r, s.manager.record? id = some r → r.online = false → r.queue = []

theorem connectionEnded_self (o : Option DeviceRecord) : connectionEnded o o = false := by
  cases o with
  | none => rfl
  | some r => simp [connectionEnded]

/-- A queue that is emptied has no marks. -/
theorem marksAfter_of_empty {stale : List Bool} {before after : Option DeviceRecord}
    (h : queueOf after = []) :
    marksAfter stale none before after = (queueOf after).map fun _ => false := by
  simp only [marksAfter, h, if_true]
  split_ifs <;> rfl

/-- A queue that is left alone keeps its marks, if its connection goes on. -/
theorem marksAfter_of_kept {before after : Option DeviceRecord}
    (h : connectionEnded before after = false) (hqueue : queueOf after = queueOf before) :
    marksAfter ((queueOf before).map fun _ => false) none before after =
      (queueOf after).map fun _ => false := by
  simp only [marksAfter, h, Bool.false_eq_true, if_false]
  split_ifs with hempty
  · rw [hempty]
    rfl
  · rw [hqueue]

section

variable {call : DeviceCall} {ret : MapReturn} {before after : Option DeviceRecord}

/-- What `device_manager_set_online` may do: it finds the queue empty, or leaves the
connection as it was. -/
def Harmless (id : CStr) (before : Option DeviceRecord) (call : DeviceCall) : Prop :=
  ∀ r online fd, before = some r → call = .setOnline (some id) online fd →
    (online = 0 ∨ (online = 1 ∧ 0 ≤ fd)) → r.queue = [] ∨ (online = 1 ∧ fd = r.fd)

theorem harmless_of_keeps {s : Watched} (h : keepsConnection id s call = true) :
    Harmless id (s.manager.record? id) call := by
  rintro r online fd hr rfl hvalid
  simp only [keepsConnection, hr, bne_self_eq_false, Bool.false_or, Bool.or_eq_true,
    decide_eq_true_eq, Bool.not_eq_true', Bool.or_eq_false_iff, decide_eq_false_iff_not,
    Bool.and_eq_false_iff, bne_eq_false_iff_eq] at h
  obtain hempty | ⟨hoff, hfd⟩ := h
  · exact .inl hempty
  · refine .inr ?_
    omega

/-- The marks after a call. -/
theorem RecordEffect.marks (h : RecordEffect id call ret before after)
    (hcall : Harmless id before call) :
    marksAfter ((queueOf before).map fun _ => false) (queueMove id call ret.code) before after =
      (queueOf after).map fun _ => false := by
  cases h with
  | same o hmove =>
    rw [hmove]
    exact marksAfter_of_kept (connectionEnded_self before) rfl
  | seen r now hmove =>
    rw [hmove]
    exact marksAfter_of_kept (by simp [connectionEnded]) rfl
  -- only a connection that stays, or an empty queue, is harmless
  | setOnline r online fd hmove heq hvalid =>
    rw [hmove]
    obtain hempty | ⟨rfl, rfl⟩ := hcall r online fd rfl heq hvalid
    · exact marksAfter_of_empty hempty
    · exact marksAfter_of_kept (by simp [connectionEnded]) rfl
  | renewed o r' hmove hempty =>
    rw [hmove]
    exact marksAfter_of_empty hempty
  | removed o hmove =>
    rw [hmove]
    exact marksAfter_of_empty rfl
  | enqueued r cmd hroom hmove _ _ _ =>
    have hgoes : connectionEnded (some r) (some (r.enqueue cmd hroom)) = false :=
      connectionEnded_self (some r)
    rw [hmove, marksAfter.eq_def, hgoes]
    simp [queueOf]
  | dequeued r cmd hmove _ hqueue =>
    have hgoes : connectionEnded (some r) (some r.dequeue) = false := connectionEnded_self (some r)
    rw [hmove, marksAfter.eq_def, hgoes]
    simp [queueOf]

/-- A node that is offline after a call has no commands. -/
theorem RecordEffect.offline (h : RecordEffect id call ret before after)
    (hcall : Harmless id before call)
    (hbefore : ∀ r, before = some r → r.online = false → r.queue = []) :
    ∀ r, after = some r → r.online = false → r.queue = [] := by
  cases h with
  | same o _ => exact hbefore
  | seen r now _ =>
    intro r' hr' hoff
    obtain rfl := Option.some.inj hr'
    exact hbefore r rfl hoff
  | setOnline r online fd _ heq hvalid =>
    intro r' hr' hoff
    obtain rfl := Option.some.inj hr'
    obtain hempty | ⟨rfl, -⟩ := hcall r online fd rfl heq hvalid
    · exact hempty
    · simp at hoff
  | renewed o r' _ hempty =>
    intro r'' hr'' _
    obtain rfl := Option.some.inj hr''
    exact hempty
  | removed o _ => nofun
  | enqueued r cmd hroom _ _ honline _ =>
    intro r' hr' hoff
    obtain rfl := Option.some.inj hr'
    exact absurd (honline.symm.trans hoff) (by simp)
  | dequeued r cmd _ _ hqueue =>
    intro r' hr' hoff
    obtain rfl := Option.some.inj hr'
    rw [hbefore r rfl hoff] at hqueue
    exact absurd hqueue (by simp)

end

/-! ## Every run -/

/-- **One call** that keeps the connection keeps the queue fresh, and hands out a
command of the connection on record. -/
theorem Watched.Fresh.step {s : Watched} (h : s.Fresh id) {call : DeviceCall}
    (hkeeps : keepsConnection id s call = true) :
    (watchedStep id s call).1.Fresh id ∧ (watchedStep id s call).2.2 ≠ some true := by
  obtain ⟨⟨m, hm⟩, hmarks, hoffline⟩ := h
  have heffect := deviceStep_effect hm id call
  have hcall := harmless_of_keeps hkeeps
  refine ⟨⟨⟨_, (deviceStep_agree hm call).state⟩, ?_, heffect.offline hcall hoffline⟩, ?_⟩
  · simp only [watchedStep, hmarks]
    exact heffect.marks hcall
  · have hhead : s.stale.head? ≠ some true := by
      rw [hmarks]
      intro hhead
      simpa using List.mem_of_head? hhead
    simp only [watchedStep]
    split_ifs
    · exact hhead
    · simp

/-- The record after a `device_manager_set_online` of a node on record. -/
theorem record?_setOnline (h : manager.StandsFor m) {r : DeviceRecord} {online fd : ℤ}
    (hr : manager.record? id = some r) (hvalid : online = 0 ∨ (online = 1 ∧ 0 ≤ fd)) :
    (deviceStep manager (.setOnline (some id) online fd)).1.record? id =
      some { r with online := online ≠ 0, fd := if online = 0 then -1 else fd } := by
  rw [h.record?] at hr
  have hcheck : decide (online = 0 ∨ (online = 1 ∧ 0 ≤ fd)) = true := decide_eq_true hvalid
  rw [(deviceStep_agree h _).state.record?, DeviceMap.step, DeviceMap.setOnline, hcheck,
    DeviceMap.withRecord_of_find hr, DeviceMap.find?_set hr, if_pos rfl]

/-- What is queued for a node online comes out when the thread on record asks. -/
theorem code_tryDequeue (h : manager.StandsFor m) {r : DeviceRecord}
    (hr : manager.record? id = some r) (honline : r.online = true) (hfd : 0 ≤ r.fd)
    (hqueue : r.queue ≠ []) :
    (deviceStep manager (.tryDequeueCommand (some id) r.fd r.threadId true)).2.code = .ok := by
  rw [h.record?] at hr
  have hcode : (deviceStep manager (.tryDequeueCommand (some id) r.fd r.threadId true)).2.code =
      (m.step (.tryDequeueCommand (some id) r.fd r.threadId true)).2.code := by
    rw [← (deviceStep_agree h _).output]
    rfl
  have hcheck : (decide (0 ≤ r.fd) && true) = true := by simpa using hfd
  have howner : ¬ ((!r.online) = true ∨ r.fd < 0 ∨ r.threadId ≠ r.threadId) := by
    simp [honline, hfd]
  rw [hcode, DeviceMap.step, DeviceMap.tryDequeueCommand, hcheck, DeviceMap.withRecord_of_find hr,
    if_neg howner]
  cases hlist : r.queue with
  | nil => exact absurd hlist hqueue
  | cons cmd rest => simp only

theorem watchedStep_mark {s : Watched} {call : DeviceCall}
    (h : queueMove id call (deviceStep s.manager call).2.code = some .dequeued) :
    (watchedStep id s call).2.2 = s.stale.head? := if_pos h

/-- **A call that ends a connection under its commands** leaves them where they should
not be: with a node that is offline, or for the thread on record to take. -/
theorem Watched.Fresh.breaks {s : Watched} (h : s.Fresh id) {call : DeviceCall}
    (hends : keepsConnection id s call = false) :
    (∃ r, (watchedStep id s call).1.manager.record? id = some r ∧ r.online = false ∧
      r.queue ≠ []) ∨
    ∃ fd threadId, (watchedStep id (watchedStep id s call).1
      (.tryDequeueCommand (some id) fd threadId true)).2.2 = some true := by
  obtain ⟨⟨m, hm⟩, hmarks, -⟩ := h
  cases call with
  | setOnline given online fd =>
    cases hr : s.manager.record? id with
    | none => simp [keepsConnection, hr] at hends
    | some r =>
      simp only [keepsConnection, hr, Bool.or_eq_false_iff, bne_eq_false_iff_eq,
        decide_eq_false_iff_not, Bool.not_eq_false', Bool.or_eq_true, decide_eq_true_eq,
        Bool.and_eq_true, bne_iff_ne] at hends
      obtain ⟨⟨rfl, hqueue⟩, hends⟩ := hends
      have hvalid : online = 0 ∨ (online = 1 ∧ 0 ≤ fd) := by omega
      have hafter := record?_setOnline hm hr hvalid
      have hm' := (deviceStep_agree hm (.setOnline (some id) online fd)).state
      obtain rfl | ⟨⟨rfl, hfd⟩, hne⟩ := hends
      · exact .inl ⟨_, hafter, rfl, hqueue⟩
      · refine .inr ⟨fd, r.threadId, ?_⟩
        -- the descriptor is another one, so that every command queued is marked
        have hcode := code_tryDequeue hm' hafter rfl hfd hqueue
        have hmove : queueMove id (.tryDequeueCommand (some id) fd r.threadId true)
            (deviceStep (deviceStep s.manager (.setOnline (some id) 1 fd)).1
              (.tryDequeueCommand (some id) fd r.threadId true)).2.code = some .dequeued :=
          if_pos ⟨rfl, hcode⟩
        have hstale : (watchedStep id s (.setOnline (some id) 1 fd)).1.stale =
            r.queue.map fun _ => true := by
          have hended : connectionEnded (some r)
              (some { r with online := (1 : ℤ) ≠ 0, fd := if (1 : ℤ) = 0 then -1 else fd }) =
                true := by
            simpa [connectionEnded] using fun he => hne he.symm
          simp only [watchedStep, queueMove, hr, hafter, marksAfter, hended, if_true, hmarks,
            queueOf, Option.map_some, Option.getD_some, if_neg hqueue, List.map_map]
          rfl
        have hhead : (r.queue.map fun _ => true).head? = some true := by
          obtain ⟨cmd, rest, hlist⟩ := List.exists_cons_of_ne_nil hqueue
          rw [hlist]
          rfl
        rw [watchedStep_mark hmove, hstale]
        exact hhead
  | _ => simp [keepsConnection] at hends

/-- Watching changes nothing. -/
theorem watched_manager (id : CStr) (calls : List DeviceCall) :
    ((watchedMachine id).state calls).manager = deviceMachine.state calls := by
  refine ((watchedMachine id).simulation (N := deviceMachine)
    (R := fun s manager => s.manager = manager) Prod.fst rfl ?_ calls).1
  rintro s _ call rfl
  exact ⟨rfl, rfl⟩

/-- **Old commands do not follow a node onto a new connection**, in every run in which
`device_manager_set_online` neither takes a node with commands queued offline nor
changes its descriptor: no command is handed out whose connection has ended since it
was accepted, and a node that is offline has no commands. A first such call breaks it:
the node is offline with commands, or the next command handed out is an old one. -/
theorem commands_stay_on_connection (id : CStr) (calls : List DeviceCall)
    (h : (watchedMachine id).EveryStep (keepsConnection id) calls) :
    (∀ step ∈ (watchedMachine id).trace calls, step.2.2 ≠ some true) ∧
      (∀ r, (deviceMachine.state calls).record? id = some r → r.online = false → r.queue = []) ∧
      ∀ call, keepsConnection id ((watchedMachine id).state calls) call = false →
        (∃ r, (deviceMachine.state (calls ++ [call])).record? id = some r ∧ r.online = false ∧
          r.queue ≠ []) ∨
        ∃ fd threadId, ∃ step ∈ (watchedMachine id).trace
          (calls ++ [call, .tryDequeueCommand (some id) fd threadId true]), step.2.2 = some true := by
  have hrun := (watchedMachine id).trace_induction_of_everyStep
    (P := fun tr s => (∀ step ∈ tr, step.2.2 ≠ some true) ∧ s.Fresh id) ?_ ?_ h
  · obtain ⟨hout, hfresh⟩ := hrun
    rw [← watched_manager id calls]
    refine ⟨hout, hfresh.offline, fun call hends => ?_⟩
    rw [← watched_manager id (calls ++ [call]), Machine.state_concat]
    obtain hoffline | ⟨fd, threadId, hold⟩ := hfresh.breaks hends
    · exact .inl hoffline
    · refine .inr ⟨fd, threadId, (.tryDequeueCommand (some id) fd threadId true, _), ?_, hold⟩
      rw [show calls ++ [call, .tryDequeueCommand (some id) fd threadId true] =
        calls ++ [call] ++ [.tryDequeueCommand (some id) fd threadId true] by simp,
        Machine.trace_concat, Machine.state_concat]
      exact List.mem_concat_self
  · refine ⟨fun step hstep => absurd hstep List.not_mem_nil, ⟨.empty, Represents.nil⟩, rfl, ?_⟩
    intro r hr
    cases hr
  · rintro tr s call ⟨hout, hfresh⟩ hkeeps
    obtain ⟨hfresh', hmark⟩ := hfresh.step hkeeps
    refine ⟨fun step hstep => ?_, hfresh'⟩
    rcases List.mem_append.mp hstep with hstep | hstep
    · exact hout step hstep
    · rw [List.mem_singleton.mp hstep]
      exact hmark

/-- A command for a node. -/
def queuedCommand (node : String) : FrameCommand :=
  ⟨.lit 32 node, .lit 32 "SERVER", 1, .single ⟨.lit 16 "LED", .lit 32 "1"⟩⟩

/-- A node binds, a command is queued for it, and it is said to be online with another
descriptor; the thread on record then asks. -/
def otherDescriptorRun : List DeviceCall :=
  [.bindConnection (some (cstr (ascii "N1"))) .wifi 3 1 0,
    .enqueueCommand (some (cstr (ascii "N1"))) (some (queuedCommand "N1")),
    .setOnline (some (cstr (ascii "N1"))) 1 4,
    .tryDequeueCommand (some (cstr (ascii "N1"))) 4 1 true]

/-- The same with a disconnect and a bind in its place. -/
def rebindRun : List DeviceCall :=
  [.bindConnection (some (cstr (ascii "N1"))) .wifi 3 1 0,
    .enqueueCommand (some (cstr (ascii "N1"))) (some (queuedCommand "N1")),
    .disconnect (some (cstr (ascii "N1"))) 3 1,
    .bindConnection (some (cstr (ascii "N1"))) .wifi 4 1 0,
    .tryDequeueCommand (some (cstr (ascii "N1"))) 4 1 true,
    .setOnline (some (cstr (ascii "N1"))) 0 (-1)]

/-- The command is handed out though its connection is over. -/
theorem not_commands_stay_otherDescriptorRun :
    ¬ ∀ id calls, (∀ step ∈ (watchedMachine id).trace calls, step.2.2 ≠ some true) ∧
      ∀ r, (deviceMachine.state calls).record? id = some r → r.online = false → r.queue = [] := by
  intro h
  have hnone := (h (cstr (ascii "N1")) otherDescriptorRun).1
  have hmarks : ((watchedMachine (cstr (ascii "N1"))).trace otherDescriptorRun).any
      (fun step => step.2.2 == some true) = true := by decide +kernel
  obtain ⟨step, hmem, hstep⟩ := List.any_eq_true.mp hmarks
  exact hnone step hmem (eq_of_beq hstep)

theorem commands_stay_on_connection_rebindRun :
    ∃ r, (deviceMachine.state rebindRun).record? (cstr (ascii "N1")) = some r ∧
      r.online = false ∧ r.queue = [] := by
  have honline : ((deviceMachine.state rebindRun).record? (cstr (ascii "N1"))).map
      DeviceRecord.online = some false := by decide +kernel
  obtain ⟨r, hr, hoff⟩ := Option.map_eq_some_iff.mp honline
  exact ⟨r, hr, hoff, (commands_stay_on_connection (cstr (ascii "N1")) rebindRun
    (by decide +kernel)).2.1 r hr hoff⟩

end SmartGateway
