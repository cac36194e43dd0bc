import SmartGateway.Common.CString
import SmartGateway.Lib.Ring
import SmartGateway.Lib.Wakeup

/-!
# The upstream queue

`gateway/message_queue.c`: a ring of messages behind a mutex, with the conditions
`not_empty` and `not_full`. Each of its functions is one pass of a monitor: `push`
parks while the ring is full, `pop` while it is empty, both only as long as the queue
is not shut down. `messageQueue_linear` is its FIFO contract under every schedule of
any number of threads.
-/

namespace SmartGateway

/-- `MESSAGE_QUEUE_CAPACITY`. -/
abbrev messageQueueCapacity : ℕ := 32

/-- `GATEWAY_MESSAGE_MAX_SIZE`. -/
abbrev gatewayMessageMaxSize : ℕ := 256

/-- `gateway_message_t`. -/
structure GatewayMessage where
  data : Bytes
  fits : data.length ≤ gatewayMessageMaxSize
deriving DecidableEq

/-- A `gateway_message_t` as its caller filled it in: nothing bounds `length` yet. -/
structure RawMessage where
  data : Vector Byte gatewayMessageMaxSize
  length : ℕ

/-- The message, if its length passes the check of `message_queue_push`. -/
def RawMessage.checked? (message : RawMessage) : Option GatewayMessage :=
  if message.length > gatewayMessageMaxSize then
    none
  else
    some ⟨message.data.toList.take message.length, by simp⟩

/-- `message_queue_t`, less what makes it a monitor. -/
structure MessageQueue where
  items : Ring GatewayMessage messageQueueCapacity
  shuttingDown : Bool

/-- `message_queue_init`. -/
def messageQueueInit : MessageQueue := ⟨Ring.replicate ⟨[], by simp⟩ (by simp), false⟩

/-- The conditions of the queue. -/
inductive QueueCondition
  | notEmpty
  | notFull
deriving DecidableEq

/-- What `message_queue_push` returns. -/
inductive QueuePush
  | ok
  | shutdown
  | error
deriving DecidableEq

/-- What `message_queue_pop` and `message_queue_try_pop` return. -/
inductive QueuePop
  | ok (message : GatewayMessage)
  | empty
  | shutdown
  | error
deriving DecidableEq

namespace MessageQueue

/-- A ring that `push` does not wait for has room. -/
theorem hasRoom {queue : MessageQueue}
    (hfull : ¬ (queue.items.count = messageQueueCapacity ∧ ¬ queue.shuttingDown))
    (hdown : ¬ queue.shuttingDown) : queue.items.count < messageQueueCapacity := by
  have hle := queue.items.count_le
  have hne : queue.items.count ≠ messageQueueCapacity := fun h => hfull ⟨h, hdown⟩
  omega

end MessageQueue

/-- `message_queue_push`; `none` for a NULL message. -/
def messageQueuePush (queue : MessageQueue) (message : Option RawMessage) :
    MessageQueue × Pass QueueCondition QueuePush :=
  match message.bind RawMessage.checked? with
  | none => (queue, .leave .error [])
  | some message =>
    if hfull : queue.items.count = messageQueueCapacity ∧ ¬ queue.shuttingDown then
      (queue, .park .notFull)
    else if hdown : queue.shuttingDown then
      (queue, .leave .shutdown [])
    else
      ({ queue with items := queue.items.push message (MessageQueue.hasRoom hfull hdown) },
        .leave .ok [.signal .notEmpty])

/-- The end of both ways to pop: the oldest message leaves the ring. -/
def messageQueueTake (queue : MessageQueue) (h : 0 < queue.items.count) :
    MessageQueue × Pass QueueCondition QueuePop :=
  ({ queue with items := queue.items.pop h }, .leave (.ok queue.items.front) [.signal .notFull])

/-- `message_queue_pop`; `false` for a NULL output pointer. -/
def messageQueuePop (queue : MessageQueue) (message : Bool) :
    MessageQueue × Pass QueueCondition QueuePop :=
  if !message then
    (queue, .leave .error [])
  else if h : queue.items.count = 0 then
    if queue.shuttingDown then (queue, .leave .shutdown []) else (queue, .park .notEmpty)
  else
    messageQueueTake queue (Nat.pos_of_ne_zero h)

/-- `message_queue_try_pop`; `false` for a NULL output pointer. -/
def messageQueueTryPop (queue : MessageQueue) (message : Bool) :
    MessageQueue × Pass QueueCondition QueuePop :=
  if !message then
    (queue, .leave .error [])
  else if h : queue.items.count = 0 then
    (queue, .leave (if queue.shuttingDown then .shutdown else .empty) [])
  else
    messageQueueTake queue (Nat.pos_of_ne_zero h)

/-- `message_queue_shutdown`. -/
def messageQueueShutdown (queue : MessageQueue) : MessageQueue × Pass QueueCondition Unit :=
  ({ queue with shuttingDown := true }, .leave () [.broadcast .notEmpty, .broadcast .notFull])

/-! ## The monitor -/

/-- A call of one of the queue's functions. -/
inductive QueueCall
  | push (message : Option RawMessage)
  | pop (message : Bool)
  | tryPop (message : Bool)
  | shutdown

/-- What the call returns. -/
inductive QueueReturn
  | pushed (code : QueuePush)
  | popped (result : QueuePop)
  | done

/-- One pass through the queue's lock. -/
def messageQueuePass (queue : MessageQueue) :
    QueueCall → MessageQueue × Pass QueueCondition QueueReturn
  | .push message => (messageQueuePush queue message).map id (Pass.map .pushed)
  | .pop message => (messageQueuePop queue message).map id (Pass.map .popped)
  | .tryPop message => (messageQueueTryPop queue message).map id (Pass.map .popped)
  | .shutdown => (messageQueueShutdown queue).map id (Pass.map fun _ => .done)

/-- The queue as its threads use it. -/
def messageQueueMonitor : Monitor MessageQueue QueueCall QueueCondition QueueReturn where
  init := messageQueueInit
  pass := messageQueuePass

/-! ## What a run did -/

/-- A pass that is over, with the call it belongs to. -/
abbrev QueueEvent := QueueCall × Pass QueueCondition QueueReturn

/-- The message whose push returned OK. -/
def QueueEvent.accepted? : QueueEvent → Option GatewayMessage
  | (.push message, .leave (.pushed .ok) _) => message.bind RawMessage.checked?
  | _ => none

/-- The message a pop gave out. -/
def QueueEvent.handedOut? : QueueEvent → Option GatewayMessage
  | (_, .leave (.popped (.ok message)) _) => some message
  | _ => none

/-- The call returned this. -/
def QueueEvent.Returned (e : QueueEvent) (result : QueueReturn) : Prop :=
  ∃ notices, e.2 = .leave result notices

/-- The messages whose push returned OK, in the order in which those pushes took effect. -/
def acceptedIn (events : List QueueEvent) : List GatewayMessage :=
  events.filterMap QueueEvent.accepted?

/-- The messages given out, in order. -/
def handedOutIn (events : List QueueEvent) : List GatewayMessage :=
  events.filterMap QueueEvent.handedOut?

theorem acceptedIn_concat (events : List QueueEvent) (e : QueueEvent) :
    acceptedIn (events ++ [e]) = acceptedIn events ++ e.accepted?.toList := by
  rw [acceptedIn, List.filterMap_append, acceptedIn, List.filterMap_cons]
  cases e.accepted? <;> rfl

theorem handedOutIn_concat (events : List QueueEvent) (e : QueueEvent) :
    handedOutIn (events ++ [e]) = handedOutIn events ++ e.handedOut?.toList := by
  rw [handedOutIn, List.filterMap_append, handedOutIn, List.filterMap_cons]
  cases e.handedOut? <;> rfl

/-- Someone has shut the queue down. -/
def ShutDownIn (events : List QueueEvent) : Prop := ∃ e ∈ events, e.1 = .shutdown

/-! ## One pass -/

/-- What a pass can do to the queue. -/
inductive QueueEffect (queue : MessageQueue) : MessageQueue → QueueEvent → Prop
  /-- Nothing: it parks, or comes back with an error, or finds the queue empty or shut
  down. -/
  | none {e : QueueEvent} : e.1 ≠ .shutdown → ¬ e.Returned (.pushed .ok) →
      (∀ m, ¬ e.Returned (.popped (.ok m))) →
      (e.Returned (.popped .shutdown) → queue.items.toList = [] ∧ queue.shuttingDown) →
      QueueEffect queue queue e
  | accept {queue' : MessageQueue} {message : Option RawMessage} {m : GatewayMessage}
      {notices : List (Notice QueueCondition)} : message.bind RawMessage.checked? = some m →
      queue.shuttingDown = false → queue'.shuttingDown = false →
      queue'.items.toList = queue.items.toList ++ [m] →
      QueueEffect queue queue' (.push message, .leave (.pushed .ok) notices)
  | take {queue' : MessageQueue} {call : QueueCall} {m : GatewayMessage}
      {notices : List (Notice QueueCondition)} : call ≠ .shutdown →
      queue'.shuttingDown = queue.shuttingDown → queue.items.toList = m :: queue'.items.toList →
      QueueEffect queue queue' (call, .leave (.popped (.ok m)) notices)
  | shutDown {notices : List (Notice QueueCondition)} :
      QueueEffect queue { queue with shuttingDown := true } (.shutdown, .leave .done notices)

section

variable {call : QueueCall} {result result' : QueueReturn}

theorem not_returned_park {on : QueueCondition} :
    ¬ QueueEvent.Returned (call, .park on) result := by
  rintro ⟨notices, h⟩
  cases h

@[simp] theorem returned_leave_iff {notices : List (Notice QueueCondition)} :
    QueueEvent.Returned (call, .leave result notices) result' ↔ result = result' := by
  constructor
  · rintro ⟨notices', h⟩
    injection h
  · rintro rfl
    exact ⟨notices, rfl⟩

theorem accepted?_eq_none {e : QueueEvent} (h : ¬ e.Returned (.pushed .ok)) :
    e.accepted? = none := by
  rw [QueueEvent.accepted?.eq_def]
  split
  · rename_i notices
    exact absurd ⟨notices, rfl⟩ h
  · rfl

theorem handedOut?_eq_none {e : QueueEvent} (h : ∀ m, ¬ e.Returned (.popped (.ok m))) :
    e.handedOut? = none := by
  rw [QueueEvent.handedOut?.eq_def]
  split
  · rename_i m notices
    exact absurd ⟨notices, rfl⟩ (h m)
  · rfl

/-- What a pop gives out was not accepted by the same pass. -/
theorem accepted?_popped {pop : QueuePop} {notices : List (Notice QueueCondition)} :
    QueueEvent.accepted? (call, .leave (.popped pop) notices) = none :=
  accepted?_eq_none (by simp)

variable (queue : MessageQueue)

/-- A pass that parks does nothing. -/
theorem QueueEffect.park (hcall : call ≠ .shutdown) (on : QueueCondition) :
    QueueEffect queue queue (call, .park on) :=
  .none hcall not_returned_park (fun _ => not_returned_park) fun h => absurd h not_returned_park

theorem messageQueuePush_effect (message : Option RawMessage) :
    QueueEffect queue (messageQueuePass queue (.push message)).1
      (.push message, (messageQueuePass queue (.push message)).2) := by
  simp only [messageQueuePass, messageQueuePush]
  split
  · exact .none nofun (by simp [Pass.map]) (by simp [Pass.map]) (by simp [Pass.map])
  · rename_i m hm
    by_cases hfull : queue.items.count = messageQueueCapacity ∧ ¬ queue.shuttingDown
    · rw [dif_pos hfull]
      exact .park queue (by simp) .notFull
    · rw [dif_neg hfull]
      by_cases hdown : queue.shuttingDown
      · rw [dif_pos hdown]
        exact .none nofun (by simp [Pass.map]) (by simp [Pass.map]) (by simp [Pass.map])
      · rw [dif_neg hdown]
        have hopen : queue.shuttingDown = false := by simpa using hdown
        exact .accept hm hopen hopen (queue.items.toList_push m _)

/-- Both ways to pop take the oldest message out. -/
theorem messageQueueTake_effect (hcall : call ≠ .shutdown) (h : 0 < queue.items.count) :
    QueueEffect queue (messageQueueTake queue h).1
      (call, Pass.map .popped (messageQueueTake queue h).2) :=
  .take hcall rfl (queue.items.toList_pop h)

/-- And both say SHUTDOWN of an empty queue that is shut down only. -/
theorem QueueEffect.shutdown (hcall : call ≠ .shutdown) (h : queue.items.count = 0)
    (hdown : queue.shuttingDown) : QueueEffect queue queue (call, .leave (.popped .shutdown) []) :=
  .none hcall (by simp) (by simp) fun _ => ⟨queue.items.toList_eq_nil_iff.mpr h, hdown⟩

theorem messageQueuePop_effect (message : Bool) :
    QueueEffect queue (messageQueuePass queue (.pop message)).1
      (.pop message, (messageQueuePass queue (.pop message)).2) := by
  simp only [messageQueuePass, messageQueuePop]
  split
  · exact .none nofun (by simp [Pass.map]) (by simp [Pass.map]) (by simp [Pass.map])
  · by_cases h : queue.items.count = 0
    · rw [dif_pos h]
      by_cases hdown : queue.shuttingDown
      · rw [if_pos hdown]
        exact .shutdown queue nofun h hdown
      · rw [if_neg hdown]
        exact .park queue (by simp) .notEmpty
    · rw [dif_neg h]
      exact messageQueueTake_effect queue (by simp) _

theorem messageQueueTryPop_effect (message : Bool) :
    QueueEffect queue (messageQueuePass queue (.tryPop message)).1
      (.tryPop message, (messageQueuePass queue (.tryPop message)).2) := by
  simp only [messageQueuePass, messageQueueTryPop]
  split
  · exact .none nofun (by simp [Pass.map]) (by simp [Pass.map]) (by simp [Pass.map])
  · by_cases h : queue.items.count = 0
    · rw [dif_pos h]
      by_cases hdown : queue.shuttingDown
      · rw [if_pos hdown]
        exact .shutdown queue nofun h hdown
      · rw [if_neg hdown]
        exact .none nofun (by simp [Pass.map]) (by simp [Pass.map]) (by simp [Pass.map])
    · rw [dif_neg h]
      exact messageQueueTake_effect queue (by simp) _

/-- **One pass**, whichever function makes it. -/
theorem messageQueuePass_effect (call : QueueCall) :
    QueueEffect queue (messageQueuePass queue call).1
      (call, (messageQueuePass queue call).2) := by
  cases call with
  | push message => exact messageQueuePush_effect queue message
  | pop message => exact messageQueuePop_effect queue message
  | tryPop message => exact messageQueueTryPop_effect queue message
  | shutdown => exact .shutDown

end

/-! ## Every run -/

/-- The queue after some passes: what came out, then what is in the ring, is what went
in; and it is shut down if someone did that. -/
structure LinearAfter (events : List QueueEvent) (queue : MessageQueue) : Prop where
  fifo : handedOutIn events ++ queue.items.toList = acceptedIn events
  down : queue.shuttingDown = true ↔ ShutDownIn events

/-- Only a shutdown shuts the queue down. -/
theorem shutDownIn_concat {events : List QueueEvent} {e : QueueEvent} (he : e.1 ≠ .shutdown) :
    ShutDownIn (events ++ [e]) ↔ ShutDownIn events := by
  simp [ShutDownIn, or_and_right, exists_or, he]

theorem LinearAfter.concat {events : List QueueEvent} {queue queue' : MessageQueue}
    {e : QueueEvent} (h : LinearAfter events queue) (he : QueueEffect queue queue' e) :
    LinearAfter (events ++ [e]) queue' := by
  obtain ⟨hfifo, hdown⟩ := h
  cases he with
  | none hcall hpush hpop _ =>
    refine ⟨?_, hdown.trans (shutDownIn_concat hcall).symm⟩
    rw [acceptedIn_concat, handedOutIn_concat, accepted?_eq_none hpush, handedOut?_eq_none hpop]
    simpa using hfifo
  | @accept _ message m notices hm hopen hopen' hpush =>
    refine ⟨?_, ?_⟩
    · have hacc : QueueEvent.accepted? (.push message, .leave (.pushed .ok) notices) = some m := hm
      rw [acceptedIn_concat, handedOutIn_concat, hacc, hpush, ← hfifo]
      simp [QueueEvent.handedOut?]
    · rw [shutDownIn_concat (by simp), ← hdown, hopen, hopen']
  | take hcall hsame hpop =>
    refine ⟨?_, ?_⟩
    · rw [acceptedIn_concat, handedOutIn_concat, accepted?_popped, ← hfifo, hpop]
      simp [QueueEvent.handedOut?]
    · rw [shutDownIn_concat hcall, ← hdown, hsame]
  | shutDown =>
    refine ⟨?_, fun _ => ⟨_, List.mem_concat_self, rfl⟩, fun _ => rfl⟩
    rw [acceptedIn_concat, handedOutIn_concat, accepted?_eq_none (by simp),
      handedOut?_eq_none (by simp)]
    simpa using hfifo

theorem linearAfter_trace (calls : List QueueCall) :
    LinearAfter (messageQueueMonitor.sequential.trace calls)
      (messageQueueMonitor.sequential.state calls) :=
  messageQueueMonitor.sequential.trace_induction (P := LinearAfter)
    ⟨rfl, by simp [ShutDownIn, Monitor.sequential, messageQueueMonitor, messageQueueInit]⟩
    (fun _ queue call h => h.concat (messageQueuePass_effect queue call)) calls

/-- **The queue is a FIFO under every schedule.** Whatever threads call its functions,
and however they are scheduled, woken and parked again: the messages given out,
followed by the content of the ring, are the messages whose push returned OK, in the
order in which those pushes took effect, and the ring is never overfull. After a
shutdown no push returns OK; and a pop returns SHUTDOWN only after one, and when
everything accepted has been given out. -/
theorem messageQueue_linear {τ : Type*} [DecidableEq τ] (moves : List (Move τ QueueCall)) :
    let events : List QueueEvent := messageQueueMonitor.passes moves
    let queue := ((messageQueueMonitor.machine τ).state moves).data
    handedOutIn events ++ queue.items.toList = acceptedIn events ∧
      queue.items.count ≤ messageQueueCapacity ∧
      ∀ before e after, events = before ++ e :: after →
        (e.Returned (.pushed .ok) → ¬ ShutDownIn before) ∧
        (e.Returned (.popped .shutdown) →
          ShutDownIn before ∧ handedOutIn before = acceptedIn before) := by
  intro events queue
  obtain ⟨calls, hevents, hqueue⟩ := messageQueueMonitor.passes_eq_trace moves
  have hlinear : LinearAfter events queue := by
    rw [show events = _ from hevents, show queue = _ from hqueue]
    exact linearAfter_trace calls
  refine ⟨hlinear.fifo, queue.items.count_le, ?_⟩
  -- what was true of the queue when the pass began is read off the passes before it
  intro before e after hsplit
  obtain ⟨js, rfl, he⟩ :=
    messageQueueMonitor.sequential.exists_of_trace_eq_append (hevents.symm.trans hsplit)
  have hbefore := linearAfter_trace js
  have heffect := messageQueuePass_effect (messageQueueMonitor.sequential.state js) e.1
  rw [show (e.1, (messageQueuePass _ e.1).2) = e from he.symm] at heffect
  generalize (messageQueuePass (messageQueueMonitor.sequential.state js) e.1).1 = queue' at heffect
  cases heffect with
  | none _ hpush _ hdown =>
    refine ⟨fun hok => absurd hok hpush, fun hret => ?_⟩
    obtain ⟨hempty, hset⟩ := hdown hret
    refine ⟨hbefore.down.mp hset, ?_⟩
    have hfifo := hbefore.fifo
    rwa [hempty, List.append_nil] at hfifo
  | accept _ hopen _ _ =>
    refine ⟨fun _ hd => ?_, by simp⟩
    have hset := hbefore.down.mpr hd
    rw [hopen] at hset
    cases hset
  | take _ _ _ => simp
  | shutDown => simp

/-! ## Wake-ups -/

/-- A producer's call. -/
def QueueCall.isPush : QueueCall → Bool
  | .push _ => true
  | .pop _ | .tryPop _ | .shutdown => false

/-- A consumer's call, of those that wait. -/
def QueueCall.isPop : QueueCall → Bool
  | .pop _ => true
  | .push _ | .tryPop _ | .shutdown => false

/-- What a call may have to wait for: one that comes back with an error does not. -/
def QueueCall.waitsOn : QueueCall → Option QueueCondition
  | .push message => (message.bind RawMessage.checked?).map fun _ => .notFull
  | .pop true => some .notEmpty
  | .pop false | .tryPop _ | .shutdown => none

/-- A producer waits for a free slot, a consumer for a message. -/
theorem QueueCall.on_of_waitsOn {call : QueueCall} {on : QueueCondition}
    (h : call.waitsOn = some on) :
    (call.isPush = true → on = .notFull) ∧ (call.isPop = true → on = .notEmpty) := by
  cases call with
  | push message =>
    obtain ⟨_, -, hon⟩ := Option.map_eq_some_iff.mp h
    exact ⟨fun _ => hon.symm, nofun⟩
  | pop message =>
    cases message with
    | true => exact ⟨nofun, fun _ => (Option.some.inj h).symm⟩
    | false => cases h
  | tryPop | shutdown => cases h

theorem QueueCall.isPush_of_waitsOn {call : QueueCall} (h : call.waitsOn = some .notFull) :
    call.isPush = true := by
  cases call with
  | push => rfl
  | pop message => cases message <;> cases h
  | tryPop | shutdown => cases h

theorem QueueCall.isPop_of_waitsOn {call : QueueCall} (h : call.waitsOn = some .notEmpty) :
    call.isPop = true := by
  cases call with
  | push message =>
    obtain ⟨_, -, hon⟩ := Option.map_eq_some_iff.mp h
    cases hon
  | pop => rfl
  | tryPop | shutdown => cases h

/-- How many threads may pass: producers as there are free slots, consumers as there are
messages. -/
def MessageQueue.room (queue : MessageQueue) : QueueCondition → ℕ
  | .notFull => messageQueueCapacity - queue.items.count
  | .notEmpty => queue.items.count

/-- What a pass does to the room, and the notices it gives. -/
inductive RoomEffect (queue : MessageQueue) (call : QueueCall) :
    MessageQueue × Pass QueueCondition QueueReturn → Prop
  | parks (on : QueueCondition) : call.waitsOn = some on → queue.shuttingDown = false →
      queue.room on = 0 → RoomEffect queue call (queue, .park on)
  /-- It leaves at once: with an error, or because it does not wait, or after a shutdown. -/
  | passes (result : QueueReturn) : call.waitsOn = none ∨ queue.shuttingDown = true →
      RoomEffect queue call (queue, .leave result [])
  | pushes (message : GatewayMessage) (h : queue.items.count < messageQueueCapacity)
      (result : QueueReturn) : call.waitsOn = some .notFull → queue.shuttingDown = false →
      RoomEffect queue call
        ({ queue with items := queue.items.push message h }, .leave result [.signal .notEmpty])
  | takes (h : 0 < queue.items.count) (result : QueueReturn) :
      call.waitsOn = some .notEmpty ∨ call.waitsOn = none →
      RoomEffect queue call
        ({ queue with items := queue.items.pop h }, .leave result [.signal .notFull])
  | shuts (result : QueueReturn) :
      RoomEffect queue call ({ queue with shuttingDown := true },
        .leave result [.broadcast .notEmpty, .broadcast .notFull])

section

variable (queue : MessageQueue)

theorem messageQueuePush_room (message : Option RawMessage) :
    RoomEffect queue (.push message) (messageQueuePass queue (.push message)) := by
  simp only [messageQueuePass, messageQueuePush]
  split
  · rename_i hnone
    exact .passes _ (.inl (by rw [QueueCall.waitsOn, hnone]; rfl))
  · rename_i m hm
    have hwaits : (QueueCall.push message).waitsOn = some .notFull := by
      rw [QueueCall.waitsOn, hm]
      rfl
    by_cases hfull : queue.items.count = messageQueueCapacity ∧ ¬ queue.shuttingDown
    · rw [dif_pos hfull]
      refine .parks .notFull hwaits (by simpa using hfull.2) ?_
      rw [MessageQueue.room, hfull.1, Nat.sub_self]
    · rw [dif_neg hfull]
      by_cases hdown : queue.shuttingDown
      · rw [dif_pos hdown]
        exact .passes _ (.inr hdown)
      · rw [dif_neg hdown]
        exact .pushes m _ _ hwaits (by simpa using hdown)

theorem messageQueuePop_room (message : Bool) :
    RoomEffect queue (.pop message) (messageQueuePass queue (.pop message)) := by
  simp only [messageQueuePass, messageQueuePop]
  split
  · rename_i hnone
    obtain rfl : message = false := by simpa using hnone
    exact .passes _ (.inl rfl)
  · rename_i hsome
    obtain rfl : message = true := by simpa using hsome
    by_cases h : queue.items.count = 0
    · rw [dif_pos h]
      by_cases hdown : queue.shuttingDown
      · rw [if_pos hdown]
        exact .passes _ (.inr hdown)
      · rw [if_neg hdown]
        exact .parks .notEmpty rfl (by simpa using hdown) h
    · rw [dif_neg h]
      exact .takes _ _ (.inl rfl)

theorem messageQueueTryPop_room (message : Bool) :
    RoomEffect queue (.tryPop message) (messageQueuePass queue (.tryPop message)) := by
  simp only [messageQueuePass, messageQueueTryPop]
  split
  · exact .passes _ (.inl rfl)
  · by_cases h : queue.items.count = 0
    · rw [dif_pos h]
      exact .passes _ (.inl rfl)
    · rw [dif_neg h]
      exact .takes _ _ (.inr rfl)

theorem messageQueuePass_room (call : QueueCall) :
    RoomEffect queue call (messageQueuePass queue call) := by
  cases call with
  | push message => exact messageQueuePush_room queue message
  | pop message => exact messageQueuePop_room queue message
  | tryPop message => exact messageQueueTryPop_room queue message
  | shutdown => exact .shuts _

end

/-- **The queue signals for the room it makes.** -/
def messageQueueRationed : messageQueueMonitor.Rationed where
  waitsOn := QueueCall.waitsOn
  room := MessageQueue.room
  closed queue := queue.shuttingDown = true
  park := by
    intro queue call queue' on hpass
    have heffect := messageQueuePass_room queue call
    rw [show messageQueuePass queue call = (queue', .park on) from hpass] at heffect
    cases heffect with
    | parks _ hwaits hopen hroom => exact ⟨rfl, hwaits, by simp [hopen], hroom⟩
  leave := by
    intro queue call queue' result notices hpass hopen'
    have heffect := messageQueuePass_room queue call
    rw [show messageQueuePass queue call = (queue', .leave result notices) from hpass] at heffect
    cases heffect with
    | passes _ hwaits =>
      rcases hwaits with hwaits | hdown
      · refine ⟨hopen', fun on => ?_⟩
        rw [hwaits]
        simp
      · exact absurd hdown hopen'
    | pushes message h _ hwaits hopen =>
      refine ⟨by simp [hopen], fun on => ?_⟩
      have hcount : (queue.items.push message h).count = queue.items.count + 1 := rfl
      rw [hwaits]
      cases on with
      | notFull =>
        simp [MessageQueue.room, Monitor.signals, hcount]
        omega
      | notEmpty => simp [MessageQueue.room, Monitor.signals, hcount]
    | takes h _ hwaits =>
      refine ⟨hopen', fun on => ?_⟩
      have hcount : (queue.items.pop h).count = queue.items.count - 1 := rfl
      have hroom : ∀ on, MessageQueue.room { queue with items := queue.items.pop h } on +
          (if some QueueCondition.notEmpty = some on then 1 else 0) ≤
            queue.room on + [Notice.signal QueueCondition.notFull].countP (Monitor.signals on) := by
        intro on
        cases on with
        | notFull =>
          simp [MessageQueue.room, Monitor.signals, hcount]
          omega
        | notEmpty =>
          simp [MessageQueue.room, Monitor.signals, hcount]
          omega
      rcases hwaits with hwaits | hwaits
      · rw [hwaits]
        exact hroom on
      · rw [hwaits, if_neg nofun]
        exact Nat.le_trans (Nat.add_le_add_left (Nat.zero_le _) _) (hroom on)
    | shuts => exact absurd rfl hopen'
  shut := by
    intro queue call queue' result notices hpass hclosed
    have heffect := messageQueuePass_room queue call
    rw [show messageQueuePass queue call = (queue', .leave result notices) from hpass] at heffect
    cases heffect with
    | passes | takes => exact .inl hclosed
    | pushes => exact .inl hclosed
    | shuts =>
      refine .inr fun on => ?_
      cases on with
      | notFull => rfl
      | notEmpty => rfl

/-- **No thread stays parked where it could go on and nobody is on the way.** In every state
that any threads and any schedule reach: where a producer is parked, the queue is not shut
down, and there are no more free slots than producers woken and not back yet; and where a
consumer is parked, no more messages than consumers. -/
theorem messageQueue_no_lost_wakeup {τ : Type*} [DecidableEq τ] (moves : List (Move τ QueueCall)) :
    let s := (messageQueueMonitor.machine τ).state moves
    ((∃ p ∈ s.parked, p.call.isPush) → s.data.shuttingDown = false ∧
      messageQueueCapacity - s.data.items.count ≤ s.woken.countP fun w => w.2.isPush) ∧
    ((∃ p ∈ s.parked, p.call.isPop) → s.data.shuttingDown = false ∧
      s.data.items.count ≤ s.woken.countP fun w => w.2.isPop) := by
  intro s
  have hawake : Monitor.Awake messageQueueRationed s := messageQueueRationed.awake moves
  have hparked : ∀ p ∈ s.parked, p.call.waitsOn = some p.on ∧ s.data.shuttingDown = false ∧
      s.data.room p.on ≤ s.woken.countP fun w => w.2.waitsOn = some p.on := by
    intro p hp
    obtain ⟨hopen, hle⟩ := hawake.room p.on (List.countP_pos_iff.mpr ⟨p, hp, decide_eq_true rfl⟩)
    exact ⟨hawake.ordered.waits p hp, eq_false_of_ne_true hopen, hle⟩
  constructor
  · rintro ⟨p, hp, hpush⟩
    obtain ⟨hwaits, hopen, hle⟩ := hparked p hp
    rw [(QueueCall.on_of_waitsOn hwaits).1 hpush] at hle
    refine ⟨hopen, Nat.le_trans hle (List.countP_mono_left fun w _ hw => ?_)⟩
    exact QueueCall.isPush_of_waitsOn (of_decide_eq_true hw)
  · rintro ⟨p, hp, hpop⟩
    obtain ⟨hwaits, hopen, hle⟩ := hparked p hp
    rw [(QueueCall.on_of_waitsOn hwaits).2 hpop] at hle
    refine ⟨hopen, Nat.le_trans hle (List.countP_mono_left fun w _ hw => ?_)⟩
    exact QueueCall.isPop_of_waitsOn (of_decide_eq_true hw)

end SmartGateway
