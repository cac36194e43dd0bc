import SmartGateway.Gateway.ServerLink

/-!
# Invariants of the server link

What holds of the worker of the server link at each call it can be at, with what there
is to show for it: a condition for each thing that can happen to a connection, the
buffer and the message in hand. The functions of the worker are walked through once,
here, so that an invariant is these conditions and nothing besides.
-/

namespace SmartGateway

open WriteLog

/-- The worker but for the call it is at. -/
def ServerLink.rest (s : ServerLink) : ServerLink := { s with control := .stopped }

/-- A property of the worker for each kind of call, which the worker's steps keep. -/
structure LinkInvariant where
  /-- No connection is open. -/
  unconnected : ServerLink → Prop
  /-- One is open, and the lines that have come in are handed on. -/
  idle : ServerLink → Connection → Prop
  /-- The message in hand is being sent. -/
  sending : ServerLink → Connection → Write Byte → Prop
  /-- Lines are being handed on. -/
  lines : ServerLink → Connection → Prop
  /-- A route NACK is being sent. -/
  answering : ServerLink → Connection → Write Byte → Prop
  /-- The send of a route NACK may fail here. -/
  breakable : Write Byte → Prop
  take_unconnected : ∀ s message, unconnected s → s.pendingMessage = none →
    unconnected { s with pendingMessage := some message, taken := s.taken ++ [message] }
  take_idle : ∀ s c message, idle s c → s.pendingMessage = none →
    idle { s with pendingMessage := some message, taken := s.taken ++ [message] } c
  opened : ∀ s, unconnected s → idle { s with tcpBuffer := [] } .fresh
  closed : ∀ s c buffer, idle s c →
    unconnected { s with tcpBuffer := buffer, closed := s.closed ++ [c] }
  begun : ∀ s c message, idle s c → s.pendingMessage = some message →
    sending s c (Write.start message.data)
  sending_turn : ∀ s c w turn w', sending s c w → sendAllTurn w turn = some w' → sending s c w'
  sent : ∀ s c w, sending s c w → w.Whole →
    idle { s with pendingMessage := none, sent := s.sent ++ s.pendingMessage.toList } (c.wrote w)
  broken : ∀ s c w, sending s c w →
    unconnected { s with tcpBuffer := [], closed := s.closed ++ [c.wrote w] }
  received : ∀ s c chunk, idle s c → chunk ≠ [] → chunk.length ≤ serverLinkReadBufferSize →
    lines
      { s with
        tcpBuffer := if serverLinkBufferSize < s.tcpBuffer.length + chunk.length then []
          else s.tcpBuffer ++ chunk }
      { c with received := c.received ++ chunk }
  handed : ∀ s c line rest, lines s c → lineParserTurn s.tcpBuffer = some (line, rest) →
    lines { s with tcpBuffer := rest } { c with handed := c.handed ++ [line] }
  quiet : ∀ s c, lines s c → lineParserTurn s.tcpBuffer = none → idle s c
  refused : ∀ s c (line : Line) devices nack, lines s c →
    (gatewayAppOnTcpLine devices line.text).2 = some nack → answering s c (Write.start nack)
  answering_turn : ∀ s c w turn w', answering s c w → sendAllTurn w turn = some w' →
    answering s c w'
  answered : ∀ s c w, answering s c w → w.Whole → lines s (c.wrote w)
  answer_broken : ∀ s c w, answering s c w → breakable w → lines s (c.wrote w)

namespace LinkInvariant

variable (I : LinkInvariant)

/-- What it says of the worker. -/
def Holds (s : ServerLink) : Prop :=
  match s.control with
  | .head none | .connecting | .stopped => I.unconnected s.rest
  | .head (some c) | .polling c | .receiving c _ => I.idle s.rest c
  | .sending c w => I.sending s.rest c w
  | .onLine c _ _ => I.lines s.rest c
  | .answering c w _ => I.answering s.rest c w

/-- What it says at the head of the loop, of the connection there. -/
def AtHead (s : ServerLink) : Option Connection → Prop
  | none => I.unconnected s.rest
  | some c => I.idle s.rest c

variable {I} {s : ServerLink} {c : Connection} {w : Write Byte}

theorem holds_disconnect (h : I.idle s.rest c) : I.Holds (s.disconnect c) :=
  I.closed s.rest c [] h

theorem holds_checkHangup (h : I.idle s.rest c) (hungUp : Bool) :
    I.Holds (s.checkHangup c hungUp) := by
  unfold ServerLink.checkHangup
  split
  · exact holds_disconnect h
  · exact h

/-- One line more is handed on, or there is none. -/
theorem holds_feed (h : I.lines s.rest c) (hungUp : Bool) : I.Holds (s.feed c hungUp) := by
  unfold ServerLink.feed
  split
  · rename_i hturn
    exact holds_checkHangup (I.quiet s.rest c h hturn) hungUp
  · rename_i line rest hturn
    exact I.handed s.rest c line rest h hturn

theorem holds_answer (h : I.answering s.rest c w) (hungUp : Bool) :
    I.Holds (s.answer c w hungUp) := by
  unfold ServerLink.answer
  split
  · rename_i hwhole
    exact holds_feed (I.answered s.rest c w h hwhole) hungUp
  · exact h

theorem holds_sendPending (h : I.sending s.rest c w) : I.Holds (s.sendPending c w) := by
  unfold ServerLink.sendPending
  split
  · rename_i hwhole
    exact I.sent s.rest c w h hwhole
  · exact h

theorem holds_sendStage (h : I.idle s.rest c) : I.Holds (s.sendStage c) := by
  unfold ServerLink.sendStage
  split
  · exact h
  · rename_i message hmessage
    exact holds_sendPending (I.begun s.rest c message h hmessage)

theorem holds_connectStage {connection : Option Connection} (h : I.AtHead s connection) :
    I.Holds (s.connectStage connection) := by
  cases connection with
  | none => exact h
  | some c => exact holds_sendStage h

theorem holds_stop {connection : Option Connection} (h : I.AtHead s connection) :
    I.Holds (s.stop connection) := by
  cases connection with
  | none =>
    -- nothing is added to the closed connections
    have hsame : (s.stop none).rest = s.rest := by
      unfold ServerLink.stop ServerLink.rest
      rw [Option.toList_none, List.append_nil]
    change I.unconnected (s.stop none).rest
    rw [hsame]
    exact h
  | some c => exact I.closed s.rest c s.tcpBuffer h

theorem holds_turn {connection : Option Connection} (h : I.AtHead s connection) (running : Bool)
    (pop : QueuePop) : I.Holds (s.turn connection running pop) := by
  unfold ServerLink.turn
  split
  · exact holds_stop h
  split
  · exact holds_connectStage h
  · exact holds_connectStage h
  · rename_i message hnone
    refine holds_connectStage ?_
    cases connection with
    | none => exact I.take_unconnected s.rest message h hnone
    | some c => exact I.take_idle s.rest c message h hnone
  · exact holds_stop h
  · exact holds_stop h

theorem holds_polled (h : I.idle s.rest c) (result : PollResult) :
    I.Holds (s.polled c result) := by
  cases result with
  | interrupted | timedOut => exact h
  | failed => exact holds_disconnect h
  | ready readable hungUp =>
    unfold ServerLink.polled
    dsimp only
    split
    · exact h
    · exact holds_checkHangup h hungUp

theorem holds_received (h : I.idle s.rest c) (hungUp : Bool) (result : RecvResult) :
    I.Holds (s.received c hungUp result) := by
  cases result with
  | data b bs =>
    have hlines := I.received s.rest c ((b :: bs).take serverLinkReadBufferSize) h (by simp)
      (List.length_take_le _ _)
    have hbuffer : s.rest.tcpBuffer = s.tcpBuffer := rfl
    rw [hbuffer] at hlines
    unfold ServerLink.received
    dsimp only
    split
    · -- what does not fit is dropped, with what is there
      rename_i hover
      rw [if_pos hover] at hlines
      exact holds_checkHangup (I.quiet _ _ hlines (lineParserTurn_of_not_mem List.not_mem_nil))
        hungUp
    · rename_i hfits
      rw [if_neg hfits] at hlines
      exact holds_feed hlines hungUp
  | closed | failed => exact holds_disconnect h
  | wouldBlock => exact h
  | interrupted => exact holds_checkHangup h hungUp

/-- **One call keeps the invariant**, if no send of a route NACK fails where it may not. -/
theorem Holds.step (h : I.Holds s) (e : LinkEvent)
    (hbreak : ∀ c w hungUp turn, s.control = .answering c w hungUp → e = .send turn →
      turn.fails = true → I.breakable w) : I.Holds (serverLinkStep s e) := by
  unfold Holds at h
  unfold serverLinkStep
  split
  · -- the head of the loop
    rename_i connection running pop hat
    rw [hat] at h
    refine holds_turn ?_ running pop
    cases connection with
    | none => exact h
    | some c => exact h
  · -- a connection is asked for
    rename_i connected hat
    rw [hat] at h
    split
    · exact holds_sendStage (I.opened s.rest h)
    · exact h
  · -- the message in hand
    rename_i c w turn hat
    rw [hat] at h
    split
    · rename_i w' hturn
      exact holds_sendPending (I.sending_turn s.rest c w turn w' h hturn)
    · exact I.broken s.rest c w h
  · rename_i c result hat
    rw [hat] at h
    exact holds_polled h result
  · rename_i c hungUp result hat
    rw [hat] at h
    exact holds_received h hungUp result
  · -- the callback
    rename_i c line hungUp devices hat
    rw [hat] at h
    split
    · exact holds_feed h hungUp
    · rename_i nack hnack
      exact holds_answer (I.refused s.rest c line devices nack h hnack) hungUp
  · -- a route NACK: what the send comes to is not looked at
    rename_i c w hungUp turn hat
    rw [hat] at h
    split
    · rename_i w' hturn
      exact holds_answer (I.answering_turn s.rest c w turn w' h hturn) hungUp
    · rename_i hturn
      have hfails := sendAllTurn_eq_none_iff.mp hturn
      exact holds_feed (I.answer_broken s.rest c w h (hbreak c w hungUp turn hat rfl hfails)) hungUp
  · exact h

/-- What the invariant gives of a connection at each call, it gives of all connections. -/
theorem Holds.connections (h : I.Holds s) {P : Connection → Prop}
    (hunconnected : I.unconnected s.rest → ∀ c ∈ s.closed, P c)
    (hidle : ∀ c, I.idle s.rest c → P c ∧ ∀ c ∈ s.closed, P c)
    (hsending : ∀ c w, I.sending s.rest c w → P (c.wrote w) ∧ ∀ c ∈ s.closed, P c)
    (hlines : ∀ c, I.lines s.rest c → P c ∧ ∀ c ∈ s.closed, P c)
    (hanswering : ∀ c w, I.answering s.rest c w → P (c.wrote w) ∧ ∀ c ∈ s.closed, P c) :
    ∀ c ∈ s.connections, P c := by
  -- the open connection, if there is one, by where the thread stands
  have hall : ∀ connection, s.control.connection = connection →
      (∀ c ∈ connection, P c) ∧ ∀ c ∈ s.closed, P c := by
    rintro connection rfl
    unfold Holds at h
    cases hat : s.control with
    | head connection =>
      rw [hat] at h
      cases connection with
      | none => exact ⟨nofun, hunconnected h⟩
      | some c => exact ⟨fun _ hc => Option.some.inj hc ▸ (hidle c h).1, (hidle c h).2⟩
    | connecting | stopped =>
      rw [hat] at h
      exact ⟨nofun, hunconnected h⟩
    | sending c w =>
      rw [hat] at h
      exact ⟨fun _ hc => Option.some.inj hc ▸ (hsending c w h).1, (hsending c w h).2⟩
    | polling c | receiving c hungUp =>
      rw [hat] at h
      exact ⟨fun _ hc => Option.some.inj hc ▸ (hidle c h).1, (hidle c h).2⟩
    | onLine c line hungUp =>
      rw [hat] at h
      exact ⟨fun _ hc => Option.some.inj hc ▸ (hlines c h).1, (hlines c h).2⟩
    | answering c w hungUp =>
      rw [hat] at h
      exact ⟨fun _ hc => Option.some.inj hc ▸ (hanswering c w h).1, (hanswering c w h).2⟩
  intro c hc
  rcases List.mem_append.mp hc with hclosed | hopen
  · exact (hall _ rfl).2 c hclosed
  · exact (hall _ rfl).1 c (Option.mem_toList.mp hopen)

end LinkInvariant

end SmartGateway
