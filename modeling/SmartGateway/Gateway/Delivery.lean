import SmartGateway.Gateway.LinkInvariant
import SmartGateway.Lib.Lists

/-!
# Delivery of the upstream messages

What becomes of the messages the worker takes from its queue. Each call of
`tcp_client_send_all` for the message in hand ends in an **attempt**: on some connection,
with so much of the text out, and a report. The attempts of a step are read off the worker
before it and behind it. A message stays in hand until an attempt for it is reported well, and
a bad report ends the connection, so that the next attempt is the first thing on the next one.
-/

namespace SmartGateway

open WriteLog

/-! ## The record of the attempts -/

/-- A call of `tcp_client_send_all` for the message in hand, come back: the number of its
connection, what it put there, and whether it reported success. -/
structure UplinkAttempt where
  message : GatewayMessage
  connection : ℕ
  write : Write Byte
  success : Bool

/-- The messages that were reported sent, in order. -/
def delivered (attempts : List UplinkAttempt) : List GatewayMessage :=
  (attempts.filter (·.success)).map (·.message)

/-- The call that has come back well: one message more is sent, and the write of it is the last
on the open connection. -/
def ServerLink.sentAttempts (s s' : ServerLink) : List UplinkAttempt :=
  (s'.sent.drop s.sent.length).zipWith
    (fun message w => ⟨message, s'.closed.length, w, true⟩) s'.control.written.getLast?.toList

/-- The call that has come back with -1: the worker was in it, and has no connection now. -/
def ServerLink.brokenAttempts (s s' : ServerLink) : List UplinkAttempt :=
  match s.control.sends, s'.control with
  | some w, .head none =>
    s.pendingMessage.toList.map fun message => ⟨message, s.closed.length, w, false⟩
  | _, _ => []

/-- The calls for a message that come back between two states of the worker. -/
def uplinkAttempts (s s' : ServerLink) : List UplinkAttempt :=
  s.sentAttempts s' ++ s.brokenAttempts s'

/-- The worker, with the attempts of each step for its output. -/
def serverLinkUplink : Machine ServerLink LinkEvent (List UplinkAttempt) where
  init := serverLinkWorker.init
  step s e := (serverLinkStep s e, uplinkAttempts s (serverLinkStep s e))

/-- The attempts of a trace. -/
def attemptsOf (trace : List (LinkEvent × List UplinkAttempt)) : List UplinkAttempt :=
  trace.flatMap Prod.snd

@[simp] theorem delivered_append (as bs : List UplinkAttempt) :
    delivered (as ++ bs) = delivered as ++ delivered bs := by
  unfold delivered
  rw [List.filter_append, List.map_append]

theorem delivered_singleton_of_failure {a : UplinkAttempt} (h : a.success = false) :
    delivered [a] = [] := by
  unfold delivered
  rw [List.filter_cons_of_neg (by simp [h]), List.filter_nil, List.map_nil]

theorem attemptsOf_concat (trace : List (LinkEvent × List UplinkAttempt)) (e : LinkEvent)
    (as : List UplinkAttempt) : attemptsOf (trace ++ [(e, as)]) = attemptsOf trace ++ as := by
  unfold attemptsOf
  rw [List.flatMap_append, List.flatMap_singleton]

/-- No connection is open, or nothing was written on it before the message in hand. -/
def LinkControl.Unwritten : LinkControl → Prop
  | .head none | .connecting | .stopped => True
  | .sending c _ => c.written = []
  | .head (some _) | .polling _ | .receiving .. | .onLine .. | .answering .. => False

namespace ServerLink

variable {s s' : ServerLink} {c : Connection} {w : Write Byte} {message : GatewayMessage}
  {popped : List GatewayMessage}

theorem sendStage_of_pending (h : s.pendingMessage = some message) :
    s.sendStage c = s.sendPending c (Write.start message.data) := by
  unfold sendStage
  rw [h]

/-! ## What a call does to the messages -/

/-- The message in hand has been sent, and not well: the next connection is looked for, or the
message is sent on it and nothing else was. -/
structure Renewing (s : ServerLink) : Prop where
  pending : s.pendingMessage.isSome
  control : s.control.Unwritten

/-- No send of a message ends. `popped` are the messages taken from the queue, which is asked
where none is in hand. -/
structure GoesOn (s s' : ServerLink) (popped : List GatewayMessage) : Prop where
  sent : s'.sent = s.sent
  taken : s'.taken = s.taken ++ popped
  inHand : s'.pendingMessage.toList = s.pendingMessage.toList ++ popped
  connected : s.control.sends = none ∨ s'.control ≠ .head none
  renewing : s.Renewing → s'.Renewing ∧ s'.closed = s.closed

/-- A send of a message on `c` ends well, and the message is out of hand. -/
structure EndsWell (s s' : ServerLink) (popped : List GatewayMessage) (message : GatewayMessage)
    (c : Connection) (w : Write Byte) : Prop where
  inHand : s.pendingMessage.toList ++ popped = [message]
  sent : s'.sent = s.sent ++ [message]
  taken : s'.taken = s.taken ++ popped
  pending : s'.pendingMessage = none
  closed : s'.closed = s.closed
  control : s'.control = .polling (c.wrote w)
  text : w.text = message.data
  whole : w.Whole
  first : s.Renewing → c.written = []

/-- It fails: the message stays in hand, and the connection is closed. -/
structure EndsBadly (s s' : ServerLink) (message : GatewayMessage) (c : Connection)
    (w : Write Byte) : Prop where
  control : s.control = .sending c w
  inHand : s.pendingMessage = some message
  text : w.text = message.data
  next : s' = s.disconnect (c.wrote w)

/-- What a call of the worker does to the messages. -/
inductive UplinkStep (s s' : ServerLink) : List GatewayMessage → Prop
  | goesOn {popped : List GatewayMessage} (h : s.GoesOn s' popped) : UplinkStep s s' popped
  | ended {popped : List GatewayMessage} {message : GatewayMessage} {c : Connection}
      {w : Write Byte} (h : s.EndsWell s' popped message c w) : UplinkStep s s' popped
  | failed {message : GatewayMessage} {c : Connection} {w : Write Byte}
      (h : s.EndsBadly s' message c w) : UplinkStep s s' []

/-- The messages are as they were. -/
structure SameMessages (s s' : ServerLink) : Prop where
  taken : s'.taken = s.taken
  sent : s'.sent = s.sent
  pending : s'.pendingMessage = s.pendingMessage

theorem sameMessages_checkHangup (s : ServerLink) (c : Connection) (hungUp : Bool) :
    s.SameMessages (s.checkHangup c hungUp) := by
  unfold checkHangup
  split
  · exact ⟨rfl, rfl, rfl⟩
  · exact ⟨rfl, rfl, rfl⟩

theorem sameMessages_feed (s : ServerLink) (c : Connection) (hungUp : Bool) :
    s.SameMessages (s.feed c hungUp) := by
  unfold feed
  split
  · exact s.sameMessages_checkHangup c hungUp
  · exact ⟨rfl, rfl, rfl⟩

theorem sameMessages_answer (s : ServerLink) (c : Connection) (w : Write Byte) (hungUp : Bool) :
    s.SameMessages (s.answer c w hungUp) := by
  unfold answer
  split
  · exact s.sameMessages_feed (c.wrote w) hungUp
  · exact ⟨rfl, rfl, rfl⟩

theorem sameMessages_polled (s : ServerLink) (c : Connection) (result : PollResult) :
    s.SameMessages (s.polled c result) := by
  cases result with
  | interrupted | timedOut | failed => exact ⟨rfl, rfl, rfl⟩
  | ready readable hungUp =>
    unfold polled
    dsimp only
    split
    · exact ⟨rfl, rfl, rfl⟩
    · exact s.sameMessages_checkHangup c hungUp

theorem sameMessages_received (s : ServerLink) (c : Connection) (hungUp : Bool)
    (result : RecvResult) : s.SameMessages (s.received c hungUp result) := by
  cases result with
  | data b bs =>
    unfold received
    dsimp only
    split
    · have hsame := sameMessages_checkHangup { s with tcpBuffer := [] }
        { c with received := c.received ++ (b :: bs).take serverLinkReadBufferSize } hungUp
      exact ⟨hsame.taken, hsame.sent, hsame.pending⟩
    · have hsame := sameMessages_feed
        { s with tcpBuffer := s.tcpBuffer ++ (b :: bs).take serverLinkReadBufferSize }
        { c with received := c.received ++ (b :: bs).take serverLinkReadBufferSize } hungUp
      exact ⟨hsame.taken, hsame.sent, hsame.pending⟩
  | closed | failed | wouldBlock => exact ⟨rfl, rfl, rfl⟩
  | interrupted => exact s.sameMessages_checkHangup c hungUp

/-- Of a call that has nothing to do with them. -/
theorem SameMessages.uplinkStep (h : s.SameMessages s') (hidle : s.control.sends = none)
    (hnot : ¬ s.control.Unwritten) : s.UplinkStep s' [] :=
  .goesOn ⟨h.sent, by rw [h.taken, List.append_nil], by rw [h.pending, List.append_nil],
    .inl hidle, fun hrenewing => absurd hrenewing.control hnot⟩

/-- A call that comes back with something else than the one the worker is at. -/
theorem UplinkStep.refl (s : ServerLink) : s.UplinkStep s [] := by
  refine .goesOn ⟨rfl, (List.append_nil _).symm, (List.append_nil _).symm, ?_, fun h => ⟨h, rfl⟩⟩
  cases s.control with
  | sending c w => exact .inr (by simp)
  | head | connecting | polling | receiving | onLine | answering | stopped => exact .inl rfl

/-- A call that leaves the messages alone, and the worker at another call. -/
theorem UplinkStep.of_control (s : ServerLink) {control : LinkControl}
    (hconnected : control ≠ .head none) (hrenewing : s.Renewing → control.Unwritten) :
    s.UplinkStep { s with control := control } [] :=
  .goesOn ⟨rfl, (List.append_nil _).symm, (List.append_nil _).symm, .inr hconnected,
    fun h => ⟨⟨h.pending, hrenewing h⟩, rfl⟩⟩

theorem uplink_sendPending (hmessage : s.pendingMessage = some message)
    (htext : w.text = message.data) (hfirst : s.Renewing → c.written = []) :
    s.UplinkStep (s.sendPending c w) [] := by
  unfold sendPending
  split
  · rename_i hwhole
    exact .ended ⟨by rw [hmessage]; rfl, by rw [hmessage]; rfl, (List.append_nil _).symm, rfl, rfl,
      rfl, htext, hwhole, hfirst⟩
  · exact .of_control s LinkControl.noConfusion hfirst

theorem uplink_sendStage (s : ServerLink) (c : Connection)
    (hfirst : s.Renewing → c.written = []) : s.UplinkStep (s.sendStage c) [] := by
  cases hmessage : s.pendingMessage with
  | none =>
    have hpolling : s.sendStage c = { s with control := .polling c } := by
      unfold sendStage
      rw [hmessage]
    rw [hpolling]
    exact .of_control s LinkControl.noConfusion
      fun h => absurd h.pending (by simp [hmessage])
  | some message =>
    rw [sendStage_of_pending hmessage]
    exact uplink_sendPending hmessage rfl hfirst

theorem uplink_connectStage {connection : Option Connection} (hat : s.control = .head connection) :
    s.UplinkStep (s.connectStage connection) [] := by
  cases connection with
  | none => exact .of_control s LinkControl.noConfusion fun _ => trivial
  | some c =>
    refine s.uplink_sendStage c fun h => absurd h.control ?_
    rw [hat]
    exact id

theorem uplink_stop {connection : Option Connection} (hat : s.control = .head connection) :
    s.UplinkStep (s.stop connection) [] := by
  refine .goesOn ⟨rfl, (List.append_nil _).symm, (List.append_nil _).symm,
    .inr LinkControl.noConfusion, fun h => ⟨⟨h.pending, trivial⟩, ?_⟩⟩
  cases connection with
  | none => exact List.append_nil _
  | some c =>
    have hfalse := h.control
    rw [hat] at hfalse
    exact hfalse.elim

/-- A message that has just been taken is in hand. -/
theorem UplinkStep.of_taken (hidle : s.control.sends = none) (hnone : s.pendingMessage = none)
    (h : UplinkStep { s with pendingMessage := some message, taken := s.taken ++ [message] } s'
      []) : s.UplinkStep s' [message] := by
  have hnot : ¬ s.Renewing := fun hrenewing => absurd hrenewing.pending (by simp [hnone])
  cases h with
  | goesOn h =>
    exact .goesOn ⟨h.sent, h.taken.trans (List.append_nil _), by rw [h.inHand, hnone]; rfl,
      h.connected, fun hrenewing => absurd hrenewing hnot⟩
  | ended h =>
    exact .ended ⟨by rw [hnone]; exact h.inHand, h.sent, h.taken.trans (List.append_nil _),
      h.pending, h.closed, h.control, h.text, h.whole, fun hrenewing => absurd hrenewing hnot⟩
  | failed h =>
    have hsends := congrArg LinkControl.sends h.control
    exact absurd (hsends.symm.trans hidle) (by simp [LinkControl.sends])

/-- What is in the buffer does not matter. -/
theorem UplinkStep.of_buffer {buffer : Bytes}
    (h : UplinkStep { s with tcpBuffer := buffer } s' popped) : s.UplinkStep s' popped := by
  cases h with
  | goesOn h =>
    exact .goesOn ⟨h.sent, h.taken, h.inHand, h.connected,
      fun hrenewing => h.renewing ⟨hrenewing.pending, hrenewing.control⟩⟩
  | ended h =>
    exact .ended ⟨h.inHand, h.sent, h.taken, h.pending, h.closed, h.control, h.text, h.whole,
      fun hrenewing => h.first ⟨hrenewing.pending, hrenewing.control⟩⟩
  | failed h => exact .failed ⟨h.control, h.inHand, h.text, h.next⟩

theorem uplink_turn {connection : Option Connection} (hat : s.control = .head connection)
    (running : Bool) (pop : QueuePop) :
    ∃ popped, s.UplinkStep (s.turn connection running pop) popped := by
  unfold turn
  split
  · exact ⟨[], uplink_stop hat⟩
  split
  · exact ⟨[], uplink_connectStage hat⟩
  · exact ⟨[], uplink_connectStage hat⟩
  · rename_i message hnone
    exact ⟨[message], .of_taken (by rw [hat]; rfl) hnone (uplink_connectStage hat)⟩
  · exact ⟨[], uplink_stop hat⟩
  · exact ⟨[], uplink_stop hat⟩

end ServerLink

/-! ## What is being sent, and what was -/

/-- What is being sent is the message in hand. -/
def sendingInHand : LinkInvariant where
  unconnected _ := True
  idle _ _ := True
  sending s _ w := ∃ message, s.pendingMessage = some message ∧ w.text = message.data
  lines _ _ := True
  answering _ _ _ := True
  breakable _ := True
  take_unconnected _ _ _ _ := trivial
  take_idle _ _ _ _ _ := trivial
  opened _ _ := trivial
  closed _ _ _ _ := trivial
  begun _ _ message _ h := ⟨message, h, rfl⟩
  sending_turn := by
    rintro s c w turn w' ⟨message, hmessage, htext⟩ hturn
    exact ⟨message, hmessage, (sendAllTurn_text hturn).trans htext⟩
  sent _ _ _ _ _ := trivial
  broken _ _ _ _ := trivial
  received _ _ _ _ _ _ := trivial
  handed _ _ _ _ _ _ := trivial
  quiet _ _ _ _ := trivial
  refused _ _ _ _ _ _ _ := trivial
  answering_turn _ _ _ _ _ _ _ := trivial
  answered _ _ _ _ _ := trivial
  answer_broken _ _ _ _ _ := trivial

/-- The writes that have ended on a connection begin with these. -/
def Logged (n : ℕ) (writes : List (Write Byte)) (connections : List Connection) : Prop :=
  ∃ c, connections[n]? = some c ∧ writes <+: c.written

variable {n : ℕ} {writes : List (Write Byte)} {cs : List Connection} {c c' : Connection}

theorem Logged.concat (h : Logged n writes cs) (c : Connection) : Logged n writes (cs ++ [c]) := by
  obtain ⟨d, hd, hprefix⟩ := h
  have hlt : n < cs.length := (List.getElem?_eq_some_iff.mp hd).1
  exact ⟨d, by rw [List.getElem?_append_left hlt]; exact hd, hprefix⟩

/-- More is written on the last of them. -/
theorem Logged.grow (h : Logged n writes (cs ++ [c])) (hc : c.written <+: c'.written) :
    Logged n writes (cs ++ [c']) := by
  obtain ⟨d, hd, hprefix⟩ := h
  rw [List.getElem?_append] at hd
  split at hd
  · rename_i hlt
    exact ⟨d, by rw [List.getElem?_append_left hlt]; exact hd, hprefix⟩
  · rename_i hge
    have hlast : n = cs.length := by
      have hlt := (List.getElem?_eq_some_iff.mp hd).1
      rw [List.length_singleton] at hlt
      omega
    subst hlast
    rw [Nat.sub_self] at hd
    obtain rfl : c = d := Option.some.inj hd
    exact ⟨c', List.getElem?_concat_length, hprefix.trans hc⟩

theorem Logged.wrote (h : Logged n writes (cs ++ [c])) (w : Write Byte) :
    Logged n writes (cs ++ [c.wrote w]) :=
  h.grow (List.prefix_append _ _)

theorem Logged.same (h : Logged n writes (cs ++ [c])) (hc : c'.written = c.written) :
    Logged n writes (cs ++ [c']) :=
  h.grow (by rw [hc])

/-- What is on a connection stays there. -/
def logging (n : ℕ) (writes : List (Write Byte)) : LinkInvariant where
  unconnected s := Logged n writes s.closed
  idle s c := Logged n writes (s.closed ++ [c])
  sending s c _ := Logged n writes (s.closed ++ [c])
  lines s c := Logged n writes (s.closed ++ [c])
  answering s c _ := Logged n writes (s.closed ++ [c])
  breakable _ := True
  take_unconnected _ _ h _ := h
  take_idle _ _ _ h _ := h
  opened _ h := h.concat .fresh
  closed _ _ _ h := h
  begun _ _ _ h _ := h
  sending_turn _ _ _ _ _ h _ := h
  sent _ _ w h _ := h.wrote w
  broken _ _ w h := h.wrote w
  received _ _ _ h _ _ := h.same rfl
  handed _ _ _ _ h _ := h.same rfl
  quiet _ _ h _ := h
  refused _ _ _ _ _ h _ := h
  answering_turn _ _ _ _ _ h _ := h
  answered _ _ w h _ := h.wrote w
  answer_broken _ _ w h _ := h.wrote w

/-- The connections, that of a send with what is out so far, begin with it too. -/
theorem Logged.connections {s : ServerLink} (h : (logging n writes).Holds s) :
    Logged n writes s.connections := by
  unfold LinkInvariant.Holds at h
  unfold ServerLink.connections
  cases hat : s.control with
  | head connection =>
    rw [hat] at h
    cases connection with
    | none => exact (List.append_nil s.closed).symm ▸ h
    | some c => exact h
  | connecting | stopped =>
    rw [hat] at h
    exact (List.append_nil s.closed).symm ▸ h
  | sending c w | answering c w hungUp =>
    rw [hat] at h
    exact Logged.wrote h w
  | polling c | receiving c hungUp | onLine c line hungUp =>
    rw [hat] at h
    exact h

/-! ## One step -/

variable {s s' : ServerLink} {popped : List GatewayMessage} {a : UplinkAttempt}

/-- **Each call**, by what it does to the messages. -/
theorem uplink_step (h : sendingInHand.Holds s) (e : LinkEvent) :
    ∃ popped, s.UplinkStep (serverLinkStep s e) popped := by
  unfold LinkInvariant.Holds at h
  unfold serverLinkStep
  cases hat : s.control with
  | head connection =>
    cases e with
    | turn running pop => exact ServerLink.uplink_turn hat running pop
    | connect | send | poll | recv | line => exact ⟨[], .refl s⟩
  | connecting =>
    cases e with
    | connect connected =>
      cases connected with
      | false =>
        exact ⟨[], .goesOn ⟨rfl, (List.append_nil _).symm, (List.append_nil _).symm,
          .inl (by rw [hat]; rfl), fun hrenewing => ⟨⟨hrenewing.pending, trivial⟩, rfl⟩⟩⟩
      | true =>
        have hsend := ServerLink.uplink_sendStage { s with tcpBuffer := [] } .fresh fun _ => rfl
        exact ⟨[], hsend.of_buffer⟩
    | turn | send | poll | recv | line => exact ⟨[], .refl s⟩
  | sending c w =>
    rw [hat] at h
    obtain ⟨message, hmessage, htext⟩ := h
    cases e with
    | send turn =>
      dsimp only
      split
      · rename_i w' hturn
        refine ⟨[], ServerLink.uplink_sendPending hmessage ((sendAllTurn_text hturn).trans htext)
          fun hrenewing => ?_⟩
        have hfirst := hrenewing.control
        rw [hat] at hfirst
        exact hfirst
      · exact ⟨[], .failed ⟨hat, hmessage, htext, rfl⟩⟩
    | turn | connect | poll | recv | line => exact ⟨[], .refl s⟩
  | polling c =>
    cases e with
    | poll result =>
      exact ⟨[], (s.sameMessages_polled c result).uplinkStep (by rw [hat]; rfl)
        (by rw [hat]; exact id)⟩
    | turn | connect | send | recv | line => exact ⟨[], .refl s⟩
  | receiving c hungUp =>
    cases e with
    | recv result =>
      exact ⟨[], (s.sameMessages_received c hungUp result).uplinkStep (by rw [hat]; rfl)
        (by rw [hat]; exact id)⟩
    | turn | connect | send | poll | line => exact ⟨[], .refl s⟩
  | onLine c line hungUp =>
    cases e with
    | line devices =>
      refine ⟨[], ServerLink.SameMessages.uplinkStep ?_ (by rw [hat]; rfl)
        (by rw [hat]; exact id)⟩
      dsimp only
      split
      · exact s.sameMessages_feed c hungUp
      · exact s.sameMessages_answer c _ hungUp
    | turn | connect | send | poll | recv => exact ⟨[], .refl s⟩
  | answering c w hungUp =>
    cases e with
    | send turn =>
      refine ⟨[], ServerLink.SameMessages.uplinkStep ?_ (by rw [hat]; rfl)
        (by rw [hat]; exact id)⟩
      dsimp only
      split
      · exact s.sameMessages_answer c _ hungUp
      · exact s.sameMessages_feed (c.wrote w) hungUp
    | turn | connect | poll | recv | line => exact ⟨[], .refl s⟩
  | stopped => exact ⟨[], .refl s⟩

/-! ## What is read off a call -/

variable {c : Connection}

/-- Nothing, if no send of a message ends. -/
theorem uplinkAttempts_eq_nil (h : s.GoesOn s' popped) : uplinkAttempts s s' = [] := by
  have hgood : s.sentAttempts s' = [] := by
    rw [ServerLink.sentAttempts, h.sent, List.drop_length, List.zipWith_nil_left]
  have hbad : s.brokenAttempts s' = [] := by
    rw [ServerLink.brokenAttempts]
    split
    · rename_i hsends hcontrol
      rcases h.connected with hnone | hother
      · exact absurd (hsends.symm.trans hnone) (by simp)
      · exact absurd hcontrol hother
    · rfl
  rw [uplinkAttempts, hgood, hbad, List.append_nil]

/-- A call in which a send of a message on `c` ends: `a` is read off it, and this is so. -/
structure Attempted (s s' : ServerLink) (popped : List GatewayMessage) (c : Connection)
    (a : UplinkAttempt) : Prop where
  read : uplinkAttempts s s' = [a]
  taken : s'.taken = s.taken ++ popped
  message : s.pendingMessage.toList ++ popped = [a.message]
  inHand : delivered [a] ++ s'.pendingMessage.toList = [a.message]
  text : a.write.text = a.message.data ∧ (a.success = true → a.write.Whole)
  connection : a.connection = s.closed.length
  logged : (logging a.connection (c.written ++ [a.write])).Holds s'
  first : s.Renewing → c.written = []
  fails : a.success = false → s'.Renewing ∧ s'.closed.length = a.connection + 1

variable {message : GatewayMessage} {w : Write Byte}

/-- It is reported sent. -/
theorem attempted_of_endsWell (h : s.EndsWell s' popped message c w) :
    Attempted s s' popped c ⟨message, s.closed.length, w, true⟩ where
  read := by
    have hgood : s.sentAttempts s' = [⟨message, s.closed.length, w, true⟩] := by
      have hlast : (LinkControl.polling (c.wrote w)).written.getLast? = some w :=
        List.getLast?_concat
      rw [ServerLink.sentAttempts, h.sent, List.drop_left, h.control, hlast, h.closed]
      rfl
    have hbad : s.brokenAttempts s' = [] := by
      rw [ServerLink.brokenAttempts, h.control]
      cases s.control.sends <;> rfl
    rw [uplinkAttempts, hgood, hbad, List.append_nil]
  taken := h.taken
  message := h.inHand
  inHand := by rw [h.pending]; rfl
  text := ⟨h.text, fun _ => h.whole⟩
  connection := rfl
  logged := by
    rw [LinkInvariant.Holds, h.control]
    exact ⟨c.wrote w, h.closed ▸ List.getElem?_concat_length, List.prefix_refl _⟩
  first := h.first
  fails := nofun

/-- It is not. -/
theorem attempted_of_endsBadly (h : s.EndsBadly s' message c w) :
    Attempted s s' [] c ⟨message, s.closed.length, w, false⟩ := by
  obtain ⟨hcontrol, hhand, htext, rfl⟩ := h
  refine ⟨?_, (List.append_nil _).symm, ?_, congrArg Option.toList hhand, ⟨htext, nofun⟩, rfl,
    ⟨c.wrote w, List.getElem?_concat_length, List.prefix_refl _⟩, fun hrenewing => ?_,
    fun _ => ⟨⟨?_, trivial⟩, List.length_append⟩⟩
  · have hgood : s.sentAttempts (s.disconnect (c.wrote w)) = [] := by
      change (s.sent.drop s.sent.length).zipWith _ _ = []
      rw [List.drop_length, List.zipWith_nil_left]
    rw [uplinkAttempts, hgood, List.nil_append, ServerLink.brokenAttempts, hcontrol, hhand]
    rfl
  · rw [hhand]
    rfl
  · have hfirst := hrenewing.control
    rw [hcontrol] at hfirst
    exact hfirst
  · rw [ServerLink.disconnect, hhand]
    rfl

/-! ## Whole runs -/

/-- What a run has done with the messages, by its attempts. -/
structure Delivering (attempts : List UplinkAttempt) (s : ServerLink) : Prop where
  taken : s.taken = delivered attempts ++ s.pendingMessage.toList
  /-- Each attempt is for the message behind those delivered before it. -/
  inTurn : ∀ before a after, attempts = before ++ a :: after →
    delivered before ++ [a.message] <+: s.taken
  text : ∀ a ∈ attempts, a.write.text = a.message.data ∧ (a.success = true → a.write.Whole)
  logged : ∀ a ∈ attempts, ∃ writes, (logging a.connection (writes ++ [a.write])).Holds s
  /-- The attempt after one that failed is the first on the next connection. -/
  renewed : ∀ before a b after, attempts = before ++ a :: b :: after → a.success = false →
    b.connection = a.connection + 1 ∧ (logging b.connection [b.write]).Holds s
  renewing : ∀ before a, attempts = before ++ [a] → a.success = false →
    s.Renewing ∧ s.closed.length = a.connection + 1

/-- What is on the connections stays there in a step. -/
theorem logging_step {n : ℕ} {writes : List (Write Byte)} (h : (logging n writes).Holds s)
    (e : LinkEvent) : (logging n writes).Holds (serverLinkStep s e) :=
  h.step e fun _ _ _ _ _ _ _ => trivial

/-- A step without an attempt. -/
theorem Delivering.goesOn {attempts : List UplinkAttempt} (h : Delivering attempts s)
    (e : LinkEvent) (hstep : s.GoesOn (serverLinkStep s e) popped) :
    Delivering attempts (serverLinkStep s e) where
  taken := by rw [hstep.taken, h.taken, List.append_assoc, hstep.inHand]
  inTurn before a after hsplit := by
    rw [hstep.taken]
    exact (h.inTurn before a after hsplit).trans (List.prefix_append _ _)
  text := h.text
  logged a ha := by
    obtain ⟨writes, hlogged⟩ := h.logged a ha
    exact ⟨writes, logging_step hlogged e⟩
  renewed before a b after hsplit hfail := by
    obtain ⟨hnext, hlogged⟩ := h.renewed before a b after hsplit hfail
    exact ⟨hnext, logging_step hlogged e⟩
  renewing before a hsplit hfail := by
    obtain ⟨hbefore, hclosed⟩ := h.renewing before a hsplit hfail
    obtain ⟨hstill, hsame⟩ := hstep.renewing hbefore
    exact ⟨hstill, by rw [hsame, hclosed]⟩

/-- A step with one. -/
theorem Delivering.attempted {attempts : List UplinkAttempt} (h : Delivering attempts s)
    (e : LinkEvent) (ha : Attempted s (serverLinkStep s e) popped c a) :
    Delivering (attempts ++ [a]) (serverLinkStep s e) := by
  -- what was taken and not delivered is the message of the attempt
  have htaken : (serverLinkStep s e).taken = delivered attempts ++ [a.message] := by
    rw [ha.taken, h.taken, List.append_assoc, ha.message]
  refine ⟨?_, ?_, ?_, ?_, ?_, ?_⟩
  · rw [htaken, delivered_append, List.append_assoc, ha.inHand]
  · intro before b after hsplit
    rcases Lists.concat_eq_append_cons hsplit with ⟨rfl, rfl, -⟩ | ⟨rest, -, hbefore⟩
    · rw [htaken]
    · rw [ha.taken]
      exact (h.inTurn before b rest hbefore).trans (List.prefix_append _ _)
  · intro b hb
    rcases List.mem_append.mp hb with hold | hnew
    · exact h.text b hold
    · rw [List.mem_singleton.mp hnew]
      exact ha.text
  · intro b hb
    rcases List.mem_append.mp hb with hold | hnew
    · obtain ⟨writes, hlogged⟩ := h.logged b hold
      exact ⟨writes, logging_step hlogged e⟩
    · rw [List.mem_singleton.mp hnew]
      exact ⟨c.written, ha.logged⟩
  · intro before b d after hsplit hfail
    have hsplit' : attempts ++ [a] = (before ++ [b]) ++ d :: after := by
      rw [List.append_assoc]
      exact hsplit
    rcases Lists.concat_eq_append_cons hsplit' with ⟨rfl, rfl, -⟩ | ⟨rest, -, hbefore⟩
    · -- the attempt before this one failed
      obtain ⟨hrenewing, hclosed⟩ := h.renewing before b rfl hfail
      have hlogged := ha.logged
      rw [ha.first hrenewing] at hlogged
      exact ⟨ha.connection.trans hclosed, hlogged⟩
    · rw [List.append_assoc] at hbefore
      obtain ⟨hnext, hlogged⟩ := h.renewed before b d rest hbefore hfail
      exact ⟨hnext, logging_step hlogged e⟩
  · intro before b hsplit hfail
    obtain ⟨rfl, hlast⟩ := List.append_inj' hsplit rfl
    obtain rfl := List.singleton_inj.mp hlast
    exact ha.fails hfail

/-- **One step more.** -/
theorem Delivering.step {attempts : List UplinkAttempt} (h : Delivering attempts s)
    (hin : sendingInHand.Holds s) (e : LinkEvent) :
    Delivering (attempts ++ uplinkAttempts s (serverLinkStep s e)) (serverLinkStep s e) := by
  obtain ⟨popped, hstep⟩ := uplink_step hin e
  cases hstep with
  | goesOn hstep =>
    rw [uplinkAttempts_eq_nil hstep, List.append_nil]
    exact h.goesOn e hstep
  | ended hstep =>
    rw [(attempted_of_endsWell hstep).read]
    exact h.attempted e (attempted_of_endsWell hstep)
  | failed hstep =>
    rw [(attempted_of_endsBadly hstep).read]
    exact h.attempted e (attempted_of_endsBadly hstep)

/-- **Every run delivers in order.** -/
theorem serverLinkUplink_delivering (events : List LinkEvent) :
    Delivering (attemptsOf (serverLinkUplink.trace events)) (serverLinkUplink.state events) := by
  have hrun : ∀ tr s, (sendingInHand.Holds s ∧ Delivering (attemptsOf tr) s) →
      ∀ e, sendingInHand.Holds (serverLinkStep s e) ∧
        Delivering (attemptsOf (tr ++ [(e, uplinkAttempts s (serverLinkStep s e))]))
          (serverLinkStep s e) := by
    rintro tr s ⟨hin, hdelivering⟩ e
    rw [attemptsOf_concat]
    exact ⟨hin.step e fun _ _ _ _ _ _ _ => trivial, hdelivering.step hin e⟩
  refine (serverLinkUplink.trace_induction
    (P := fun tr s => sendingInHand.Holds s ∧ Delivering (attemptsOf tr) s) ⟨trivial, ?_⟩
    (fun tr s e h => hrun tr s h e) events).2
  refine ⟨rfl, ?_, nofun, nofun, ?_, ?_⟩
  · intro before a after h
    exact absurd h (by simp [attemptsOf])
  · intro before a b after h
    exact absurd h (by simp [attemptsOf])
  · intro before a h
    exact absurd h (by simp [attemptsOf])

/-- **Delivery across connections.** The messages that were reported sent are those taken,
in order and each once, but for the one in hand if there is one. Every attempt is for the
message behind those delivered before it, begins at its first byte, and ends at its last
if it is reported sent; what it put out is on its connection. The attempt after one that
failed is for the same message, on the next connection, and the first thing there; until
then that message stays in hand and the connection that failed is closed. -/
theorem serverLinkWorker_delivers (events : List LinkEvent) :
    let s := serverLinkUplink.state events
    let attempts := attemptsOf (serverLinkUplink.trace events)
    s.taken = delivered attempts ++ s.pendingMessage.toList ∧
      (∀ before a after, attempts = before ++ a :: after →
        delivered before ++ [a.message] <+: s.taken ∧ a.write.text = a.message.data ∧
          (a.success = true → a.write.Whole) ∧
          ∃ c, s.connections[a.connection]? = some c ∧ a.write ∈ c.written) ∧
      (∀ before a b after, attempts = before ++ a :: b :: after → a.success = false →
        b.message = a.message ∧ b.connection = a.connection + 1 ∧
          ∃ c, s.connections[b.connection]? = some c ∧ c.written.head? = some b.write) ∧
      ∀ before a, attempts = before ++ [a] → a.success = false →
        s.pendingMessage = some a.message ∧ s.closed.length = a.connection + 1 := by
  intro s attempts
  have h : Delivering attempts s := serverLinkUplink_delivering events
  refine ⟨h.taken, ?_, ?_, ?_⟩
  · intro before a after hsplit
    have ha : a ∈ attempts := by
      rw [hsplit]
      exact List.mem_append_right _ List.mem_cons_self
    obtain ⟨htext, hwhole⟩ := h.text a ha
    obtain ⟨writes, hlogged⟩ := h.logged a ha
    obtain ⟨c, hc, hprefix⟩ := Logged.connections hlogged
    refine ⟨h.inTurn before a after hsplit, htext, hwhole, c, hc, ?_⟩
    exact hprefix.subset (List.mem_append_right _ (List.mem_singleton.mpr rfl))
  -- the next attempt is the first of its connection, and after a failure for the same message
  · intro before a b after hsplit hfail
    obtain ⟨hnext, hlogged⟩ := h.renewed before a b after hsplit hfail
    obtain ⟨c, hc, hprefix⟩ := Logged.connections hlogged
    have hsplit' : attempts = (before ++ [a]) ++ b :: after := by
      rw [List.append_assoc]
      exact hsplit
    have hfirst := h.inTurn before a (b :: after) hsplit
    have hagain := h.inTurn (before ++ [a]) b after hsplit'
    rw [delivered_append, delivered_singleton_of_failure hfail, List.append_nil] at hagain
    refine ⟨Lists.eq_of_isPrefix_concat hagain hfirst, hnext, c, hc, ?_⟩
    obtain ⟨rest, hrest⟩ := hprefix
    rw [← hrest]
    rfl
  -- the last attempt failed: what is taken and not delivered is its message
  · intro before a hsplit hfail
    obtain ⟨⟨hsome, -⟩, hclosed⟩ := h.renewing before a hsplit hfail
    obtain ⟨message, hmessage⟩ := Option.isSome_iff_exists.mp hsome
    have hturn := h.inTurn before a [] hsplit
    have hrest : delivered before ++ [message] = s.taken := by
      rw [h.taken, hsplit, delivered_append, delivered_singleton_of_failure hfail, List.append_nil,
        hmessage]
      rfl
    have hprefix : delivered before ++ [message] <+: s.taken := by rw [hrest]
    rw [hmessage, Lists.eq_of_isPrefix_concat hturn hprefix]
    exact ⟨rfl, hclosed⟩

end SmartGateway
