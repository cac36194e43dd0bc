import SmartGateway.Gateway.NorthboundFraming
import Mathlib.Logic.Relation

/-!
# What the server link writes

The worker of the server link as a row of moves: of the message in hand and of route NACKs,
taken, begun, sent on and ended. Of this comes where each text that went out whole is from:
it is the next message of the queue, which is then out of hand, or a route NACK. A message
whose send broke off was not out whole, and is still in hand.
-/

namespace SmartGateway

open WriteLog

/-! ## The moves -/

/-- What the worker writes: the sends that have ended, over all connections, the send that is
going on, and the messages. -/
structure LinkView where
  done : List (Write Byte)
  /-- The send of the message in hand. -/
  sending : Option (Write Byte)
  /-- The send of a route NACK. -/
  answering : Option (Write Byte)
  pending : Option GatewayMessage
  taken : List GatewayMessage
  sent : List GatewayMessage

/-- The worker, as far as it writes. -/
def ServerLink.view (s : ServerLink) : LinkView :=
  ⟨s.closed.flatMap Connection.written ++ s.control.written, s.control.sends, s.control.answers,
    s.pendingMessage, s.taken, s.sent⟩

/-- One move. -/
inductive LinkMove : LinkView → LinkView → Prop
  /-- A message is taken from the queue. -/
  | took (v : LinkView) (message : GatewayMessage) : v.sending = none → v.pending = none →
      LinkMove v { v with pending := some message, taken := v.taken ++ [message] }
  /-- The send of the message in hand begins. -/
  | begun (v : LinkView) (message : GatewayMessage) : v.sending = none →
      v.pending = some message → LinkMove v { v with sending := some (Write.start message.data) }
  | went (v : LinkView) (w w' : Write Byte) : v.sending = some w → w'.text = w.text →
      LinkMove v { v with sending := some w' }
  | sent (v : LinkView) (w : Write Byte) : v.sending = some w → w.Whole →
      LinkMove v
        { v with
          done := v.done ++ [w]
          sending := none
          pending := none
          sent := v.sent ++ v.pending.toList }
  | broke (v : LinkView) (w : Write Byte) : v.sending = some w → ¬ w.Whole →
      LinkMove v { v with done := v.done ++ [w], sending := none }
  /-- A route NACK is begun. -/
  | refused (v : LinkView) (nack : Bytes) : v.answering = none → RouteNack nack →
      LinkMove v { v with answering := some (Write.start nack) }
  | answers (v : LinkView) (w w' : Write Byte) : v.answering = some w → w'.text = w.text →
      LinkMove v { v with answering := some w' }
  /-- It ends, one way or the other. -/
  | answered (v : LinkView) (w : Write Byte) : v.answering = some w →
      LinkMove v { v with done := v.done ++ [w], answering := none }

/-- A row of moves. -/
abbrev LinkMoves : LinkView → LinkView → Prop := Relation.ReflTransGen LinkMove

namespace ServerLink

variable {s : ServerLink} {c : Connection} {w : Write Byte}

/-- The worker at a connection, with nothing being sent. -/
def viewWith (s : ServerLink) (connection : Option Connection) : LinkView :=
  ⟨s.closed.flatMap Connection.written ++ connection.toList.flatMap Connection.written, none, none,
    s.pendingMessage, s.taken, s.sent⟩

/-- No send stays at the end of its text. -/
def Unfinished (s : ServerLink) : Prop :=
  (∀ w, s.control.sends = some w → ¬ w.Whole) ∧ ∀ w, s.control.answers = some w → ¬ w.Whole

theorem viewWith_some (s : ServerLink) (c : Connection) :
    s.viewWith (some c) = ⟨s.closed.flatMap Connection.written ++ c.written, none, none,
      s.pendingMessage, s.taken, s.sent⟩ := by
  rw [viewWith, Option.toList_some, List.flatMap_singleton]

/-- A state in which nothing is being sent. -/
theorem unfinished_of_idle (hsends : s.control.sends = none) (hanswers : s.control.answers = none) :
    s.Unfinished :=
  ⟨fun w hw => by rw [hsends] at hw; exact absurd hw (by simp),
    fun w hw => by rw [hanswers] at hw; exact absurd hw (by simp)⟩

/-- Where a stretch of the loop's body leads to. -/
def Reaches (v : LinkView) (s : ServerLink) : Prop := LinkMoves v s.view ∧ s.Unfinished

theorem Reaches.of_eq {v : LinkView} (hview : s.view = v) (hsends : s.control.sends = none)
    (hanswers : s.control.answers = none) : Reaches v s :=
  ⟨hview ▸ .refl, unfinished_of_idle hsends hanswers⟩

theorem Reaches.head {v v' : LinkView} (h : Reaches v' s) (hmove : LinkMove v v') : Reaches v s :=
  ⟨.head hmove h.1, h.2⟩

theorem reaches_disconnect (s : ServerLink) (c : Connection) :
    Reaches (s.viewWith (some c)) (s.disconnect c) := by
  refine .of_eq ?_ rfl rfl
  rw [viewWith_some, view, disconnect, List.flatMap_append, List.flatMap_singleton]
  exact congrArg (LinkView.mk · none none _ _ _) (List.append_nil _)

theorem reaches_checkHangup (s : ServerLink) (c : Connection) (hungUp : Bool) :
    Reaches (s.viewWith (some c)) (s.checkHangup c hungUp) := by
  rw [checkHangup]
  split
  · exact reaches_disconnect s c
  · exact .of_eq (viewWith_some s c).symm rfl rfl

theorem reaches_feed (s : ServerLink) (c : Connection) (hungUp : Bool) :
    Reaches (s.viewWith (some c)) (s.feed c hungUp) := by
  rw [feed]
  split
  · exact reaches_checkHangup s c hungUp
  · exact .of_eq (viewWith_some s c).symm rfl rfl

/-- A route NACK at the head of its loop. -/
theorem reaches_answer (s : ServerLink) (c : Connection) (w : Write Byte) (hungUp : Bool) :
    Reaches { s.viewWith (some c) with answering := some w } (s.answer c w hungUp) := by
  rw [answer]
  split
  · refine Reaches.head ?_ (.answered _ w rfl)
    have hview : ({ s.viewWith (some c) with
        done := (s.viewWith (some c)).done ++ [w], answering := none } : LinkView) =
          s.viewWith (some (c.wrote w)) := by
      rw [viewWith_some, viewWith_some, Connection.wrote, List.append_assoc]
    change Reaches { s.viewWith (some c) with
      done := (s.viewWith (some c)).done ++ [w], answering := none } _
    rw [hview]
    exact reaches_feed s (c.wrote w) hungUp
  · rename_i hpart
    refine ⟨?_, fun _ hw => absurd hw (by simp [LinkControl.sends]), fun w' hw => ?_⟩
    · rw [viewWith_some]
      exact .refl
    · rw [← Option.some.inj hw]
      exact hpart

/-- The message in hand at the head of its loop. -/
theorem reaches_sendPending (s : ServerLink) (c : Connection) (w : Write Byte) :
    Reaches { s.viewWith (some c) with sending := some w } (s.sendPending c w) := by
  rw [sendPending]
  split
  · rename_i hwhole
    refine ⟨?_, unfinished_of_idle rfl rfl⟩
    have hmove := LinkMove.sent { s.viewWith (some c) with sending := some w } w rfl hwhole
    refine .single ?_
    rw [viewWith_some] at hmove ⊢
    rw [view]
    rw [List.append_assoc] at hmove
    exact hmove
  · rename_i hpart
    refine ⟨?_, fun w' hw => ?_, fun _ hw => absurd hw (by simp [LinkControl.answers])⟩
    · rw [viewWith_some]
      exact .refl
    · rw [← Option.some.inj hw]
      exact hpart

theorem reaches_sendStage (s : ServerLink) (c : Connection) :
    Reaches (s.viewWith (some c)) (s.sendStage c) := by
  rw [sendStage]
  split
  · exact .of_eq (viewWith_some s c).symm rfl rfl
  · rename_i message hmessage
    exact (reaches_sendPending s c (Write.start message.data)).head
      (.begun _ message rfl hmessage)

theorem reaches_connectStage (s : ServerLink) (connection : Option Connection) :
    Reaches (s.viewWith connection) (s.connectStage connection) := by
  cases connection with
  | none => exact .of_eq rfl rfl rfl
  | some c => exact reaches_sendStage s c

theorem reaches_stop (s : ServerLink) (connection : Option Connection) :
    Reaches (s.viewWith connection) (s.stop connection) := by
  refine .of_eq ?_ rfl rfl
  rw [viewWith, view, stop, List.flatMap_append]
  exact congrArg (LinkView.mk · none none _ _ _) (List.append_nil _)

theorem reaches_turn (s : ServerLink) (connection : Option Connection) (running : Bool)
    (pop : QueuePop) : Reaches (s.viewWith connection) (s.turn connection running pop) := by
  unfold turn
  split
  · exact reaches_stop s connection
  split
  · exact reaches_connectStage s connection
  · exact reaches_connectStage s connection
  · rename_i message hnone
    exact (reaches_connectStage { s with
      pendingMessage := some message
      taken := s.taken ++ [message] } connection).head (.took _ message rfl hnone)
  · exact reaches_stop s connection
  · exact reaches_stop s connection

theorem reaches_polled (s : ServerLink) (c : Connection) (result : PollResult) :
    Reaches (s.viewWith (some c)) (s.polled c result) := by
  cases result with
  | interrupted | timedOut => exact .of_eq (viewWith_some s c).symm rfl rfl
  | failed => exact reaches_disconnect s c
  | ready readable hungUp =>
    rw [polled]
    split
    · exact .of_eq (viewWith_some s c).symm rfl rfl
    · exact reaches_checkHangup s c hungUp

theorem reaches_received (s : ServerLink) (c : Connection) (hungUp : Bool)
    (result : RecvResult) : Reaches (s.viewWith (some c)) (s.received c hungUp result) := by
  cases result with
  | data b bs =>
    unfold received
    dsimp only
    split
    · exact reaches_checkHangup { s with tcpBuffer := [] }
        { c with received := c.received ++ (b :: bs).take serverLinkReadBufferSize } hungUp
    · exact reaches_feed
        { s with tcpBuffer := s.tcpBuffer ++ (b :: bs).take serverLinkReadBufferSize }
        { c with received := c.received ++ (b :: bs).take serverLinkReadBufferSize } hungUp
  | closed | failed => exact reaches_disconnect s c
  | wouldBlock => exact .of_eq (viewWith_some s c).symm rfl rfl
  | interrupted => exact reaches_checkHangup s c hungUp

/-- The worker at a connection with nothing being sent, as seen. -/
theorem view_eq {s : ServerLink} {connection : Option Connection}
    (hwritten : s.control.written = connection.toList.flatMap Connection.written)
    (hsends : s.control.sends = none) (hanswers : s.control.answers = none) :
    s.view = s.viewWith connection := by
  rw [view, viewWith, hwritten, hsends, hanswers]

/-- A send that goes on or ends: the view of the connection behind it. -/
theorem viewWith_wrote (s : ServerLink) (c : Connection) (w : Write Byte) :
    s.viewWith (some (c.wrote w)) =
      { s.viewWith (some c) with done := (s.viewWith (some c)).done ++ [w] } := by
  rw [viewWith_some, viewWith_some, Connection.wrote, List.append_assoc]

/-- **Each call is a row of moves.** -/
theorem reaches_step (h : s.Unfinished) (e : LinkEvent) : Reaches s.view (serverLinkStep s e) := by
  unfold serverLinkStep
  split
  · rename_i connection running pop hat
    have hview : s.view = s.viewWith connection := by
      refine view_eq ?_ (by rw [hat]; rfl) (by rw [hat]; rfl)
      rw [hat]
      cases connection with
      | none => rfl
      | some c => exact (List.flatMap_singleton _ _).symm
    rw [hview]
    exact reaches_turn s connection running pop
  · rename_i connected hat
    have hview : s.view = s.viewWith none :=
      view_eq (by rw [hat]; rfl) (by rw [hat]; rfl) (by rw [hat]; rfl)
    rw [hview]
    split
    · exact reaches_sendStage { s with tcpBuffer := [] } .fresh
    · exact .of_eq rfl rfl rfl
  · rename_i c w turn hat
    have hview : s.view = { s.viewWith (some c) with sending := some w } := by
      rw [viewWith_some, view, hat]
      rfl
    rw [hview]
    split
    · rename_i w' hturn
      exact (reaches_sendPending s c w').head (.went _ w w' rfl (sendAllTurn_text hturn))
    · refine Reaches.head ?_ (.broke _ w rfl (h.1 w (by rw [hat]; rfl)))
      have hreaches := reaches_disconnect s (c.wrote w)
      rw [viewWith_wrote] at hreaches
      exact hreaches
  · rename_i c result hat
    have hview : s.view = s.viewWith (some c) := by
      rw [viewWith_some, view, hat]
      rfl
    rw [hview]
    exact reaches_polled s c result
  · rename_i c hungUp result hat
    have hview : s.view = s.viewWith (some c) := by
      rw [viewWith_some, view, hat]
      rfl
    rw [hview]
    exact reaches_received s c hungUp result
  · rename_i c line hungUp devices hat
    have hview : s.view = s.viewWith (some c) := by
      rw [viewWith_some, view, hat]
      rfl
    rw [hview]
    split
    · exact reaches_feed s c hungUp
    · rename_i nack hnack
      exact (reaches_answer s c (Write.start nack) hungUp).head
        (.refused _ nack rfl (routeNack_of_gatewayAppOnTcpLine hnack))
  · rename_i c w hungUp turn hat
    have hview : s.view = { s.viewWith (some c) with answering := some w } := by
      rw [viewWith_some, view, hat]
      rfl
    rw [hview]
    split
    · rename_i w' hturn
      exact (reaches_answer s c w' hungUp).head (.answers _ w w' rfl (sendAllTurn_text hturn))
    · refine Reaches.head ?_ (.answered _ w rfl)
      have hreaches := reaches_feed s (c.wrote w) hungUp
      rw [viewWith_wrote] at hreaches
      exact hreaches
  · exact ⟨.refl, h⟩

end ServerLink

/-- **The rule of the moves.** What holds at the start and is kept by every move holds in
every run. -/
theorem serverLink_moves {I : LinkView → Prop} (h0 : I serverLinkWorker.init.view)
    (hmove : ∀ v v', I v → LinkMove v v' → I v') (events : List LinkEvent) :
    I (serverLinkWorker.state events).view ∧ (serverLinkWorker.state events).Unfinished := by
  refine serverLinkWorker.run_induction (P := fun _ s => I s.view ∧ s.Unfinished)
    ⟨h0, ServerLink.unfinished_of_idle rfl rfl⟩ (fun _ s e h => ?_) events
  obtain ⟨hmoves, hunfinished⟩ := ServerLink.reaches_step h.2 e
  refine ⟨?_, hunfinished⟩
  change I (serverLinkStep s e).view
  generalize (serverLinkStep s e).view = v at hmoves
  induction hmoves with
  | refl => exact h.1
  | tail _ hlast ih => exact hmove _ _ ih hlast

/-! ## Where the texts are from -/

/-- A text that the worker sends. -/
inductive UpText
  | message (message : GatewayMessage)
  | route (nack : Bytes)

namespace UpText

/-- The bytes of it. -/
def text : UpText → Bytes
  | message m => m.data
  | route nack => nack

/-- The message it is. -/
def message? : UpText → Option GatewayMessage
  | message m => some m
  | route _ => none

end UpText

/-- The texts that went out whole, and where each is from. -/
structure SourcedBy (done : List (Write Byte)) (sent : List GatewayMessage)
    (sources : List UpText) : Prop where
  texts : sources.map UpText.text = wholeTexts done
  messages : sources.filterMap UpText.message? = sent
  routes : ∀ nack, UpText.route nack ∈ sources → RouteNack nack

/-- What the worker has sent, and what it sends. -/
structure LinkView.Sourced (v : LinkView) : Prop where
  sources : ∃ sources, SourcedBy v.done v.sent sources
  taken : v.taken = v.sent ++ v.pending.toList
  sending : ∀ w, v.sending = some w → ∃ message, v.pending = some message ∧ w.text = message.data
  answering : ∀ w, v.answering = some w → RouteNack w.text

/-- A write that is not whole. -/
theorem SourcedBy.broken {done : List (Write Byte)} {sent : List GatewayMessage}
    {sources : List UpText} (h : SourcedBy done sent sources) {w : Write Byte} (hw : ¬ w.Whole) :
    SourcedBy (done ++ [w]) sent sources := by
  refine ⟨?_, h.messages, h.routes⟩
  rw [wholeTexts_append, wholeTexts_of_not_whole hw, List.append_nil]
  exact h.texts

/-- **One move.** -/
theorem LinkView.Sourced.move {v v' : LinkView} (h : v.Sourced) (hmove : LinkMove v v') :
    v'.Sourced := by
  obtain ⟨⟨sources, hsources⟩, htaken, hsending, hanswering⟩ := h
  cases hmove with
  | took message hidle hnone =>
    refine ⟨⟨sources, hsources⟩, ?_, fun w hw => ?_, hanswering⟩
    · rw [htaken, hnone, Option.toList_none, List.append_nil]
      rfl
    · rw [hidle] at hw
      exact absurd hw (by simp)
  | begun message hidle hmessage =>
    refine ⟨⟨sources, hsources⟩, htaken, fun w hw => ?_, hanswering⟩
    rw [← Option.some.inj hw]
    exact ⟨message, hmessage, rfl⟩
  | went w w' hw htext =>
    refine ⟨⟨sources, hsources⟩, htaken, fun v hv => ?_, hanswering⟩
    rw [← Option.some.inj hv, htext]
    exact hsending w hw
  | sent w hw hwhole =>
    obtain ⟨message, hmessage, htext⟩ := hsending w hw
    refine ⟨⟨sources ++ [.message message], ?_, ?_, fun nack hnack => ?_⟩, ?_,
      fun _ hv => absurd hv (by simp), hanswering⟩
    · rw [List.map_append, wholeTexts_append, wholeTexts_of_whole hwhole, hsources.texts, htext]
      rfl
    · rw [List.filterMap_append, hsources.messages, hmessage]
      rfl
    · rcases List.mem_append.mp hnack with hnack | hnack
      · exact hsources.routes nack hnack
      · exact absurd (List.mem_singleton.mp hnack) (by simp)
    · rw [htaken, Option.toList_none, List.append_nil]
  | broke w hw hpart =>
    exact ⟨⟨sources, hsources.broken hpart⟩, htaken, fun _ hv => absurd hv (by simp), hanswering⟩
  | refused nack hidle hnack =>
    refine ⟨⟨sources, hsources⟩, htaken, hsending, fun w hw => ?_⟩
    rw [← Option.some.inj hw]
    exact hnack
  | answers w w' hw htext =>
    refine ⟨⟨sources, hsources⟩, htaken, hsending, fun v hv => ?_⟩
    rw [← Option.some.inj hv, htext]
    exact hanswering w hw
  | answered w hw =>
    have hnack := hanswering w hw
    refine ⟨?_, htaken, hsending, fun _ hv => absurd hv (by simp)⟩
    by_cases hwhole : w.Whole
    · refine ⟨sources ++ [.route w.text], ?_, ?_, fun nack hmem => ?_⟩
      · rw [List.map_append, wholeTexts_append, wholeTexts_of_whole hwhole, hsources.texts]
        rfl
      · rw [List.filterMap_append, hsources.messages]
        exact List.append_nil _
      · rcases List.mem_append.mp hmem with hmem | hmem
        · exact hsources.routes nack hmem
        · obtain rfl := UpText.route.inj (List.mem_singleton.mp hmem)
          exact hnack
    · exact ⟨sources, hsources.broken hwhole⟩

/-- **What went out whole**, over all connections: messages of the queue, each once and in the
order they were taken, and route NACKs between them. -/
theorem serverLink_sources (events : List LinkEvent) :
    ∃ sources, SourcedBy ((serverLinkWorker.state events).connections.flatMap Connection.written)
      (serverLinkWorker.state events).sent sources ∧
        (serverLinkWorker.state events).sent <+: (serverLinkWorker.state events).taken := by
  have hstart : serverLinkWorker.init.view.Sourced :=
    ⟨⟨[], rfl, rfl, fun _ h => absurd h List.not_mem_nil⟩, rfl,
      fun _ h => absurd h (by simp [serverLinkWorker, ServerLink.view, LinkControl.sends]),
      fun _ h => absurd h (by simp [serverLinkWorker, ServerLink.view, LinkControl.answers])⟩
  obtain ⟨⟨⟨sources, hsources⟩, htaken, -, -⟩, hunfinished⟩ :=
    serverLink_moves hstart (fun _ _ h hmove => h.move hmove) events
  generalize serverLinkWorker.state events = s at hsources htaken hunfinished ⊢
  have hprefix : s.sent <+: s.taken := by
    have hall : s.taken = s.sent ++ s.pendingMessage.toList := htaken
    rw [hall]
    exact List.prefix_append _ _
  refine ⟨sources, ?_, hprefix⟩
  -- the send that is going on does not count
  have hwrites : s.connections.flatMap Connection.written =
      s.view.done ++ (s.control.sends.toList ++ s.control.answers.toList) := by
    rw [ServerLink.connections, List.flatMap_append, ServerLink.view, List.append_assoc]
    refine congrArg (_ ++ ·) ?_
    cases s.control with
    | head connection =>
      cases connection with
      | none => rfl
      | some c => simp [LinkControl.connection, LinkControl.written, LinkControl.sends,
          LinkControl.answers]
    | connecting | stopped => rfl
    | sending c w | answering c w hungUp =>
      simp [LinkControl.connection, LinkControl.written, LinkControl.sends, LinkControl.answers,
        Connection.wrote]
    | polling c | receiving c hungUp | onLine c line hungUp =>
      simp [LinkControl.connection, LinkControl.written, LinkControl.sends, LinkControl.answers]
  have hnone : ∀ w : Option (Write Byte), (∀ v, w = some v → ¬ v.Whole) →
      wholeTexts w.toList = [] := by
    intro w hw
    cases w with
    | none => rfl
    | some v => exact wholeTexts_of_not_whole (hw v rfl)
  refine ⟨?_, hsources.messages, hsources.routes⟩
  rw [hwrites, wholeTexts_append, wholeTexts_append, hnone _ hunfinished.1, hnone _ hunfinished.2,
    List.append_nil, List.append_nil]
  exact hsources.texts

end SmartGateway
