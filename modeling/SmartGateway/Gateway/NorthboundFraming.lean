import SmartGateway.Common.UplinkMessage
import SmartGateway.Gateway.LinkInvariant

/-!
# Framing towards the server

Both writers of the server link put a text on the connection whole or break off in it.
Where the send of the message in hand breaks off, the connection is closed, and the
message starts again on the next one. Where the send of a route NACK does, nobody looks:
the connection stays, and the next text comes right behind the piece. A run in which no
route NACK breaks off in the middle keeps every connection framed.
-/

namespace SmartGateway

open WriteLog

/-! ## What is sent -/

/-- A line that a NACK is built to. -/
def RouteNack (text : Bytes) : Prop :=
  IsLine text ∧ ∃ nack, messageJsonBuildNack 256 nack = some text

/-- The route NACK for a line is one: the target it names comes out of the line. -/
theorem routeNack_of_gatewayAppOnTcpLine {devices : DeviceManager} {line : Line} {text : Bytes}
    (h : (gatewayAppOnTcpLine devices line.text).2 = some text) : RouteNack text := by
  rw [gatewayAppOnTcpLine] at h
  split at h
  · exact absurd h (by simp)
  rename_i consumed command hdecode
  obtain ⟨error, herror, hsend⟩ := Option.bind_eq_some_iff.mp h
  have htarget : Ascii.lf ∉ command.targetNode.bytes :=
    fun hlf => line.noLf (messageJsonDecodeCommand_targetNode_subset hdecode hlf)
  -- the texts of the route errors are written in the source
  have herrorlf : Ascii.lf ∉ error.bytes := by
    unfold routeError at herror
    split at herror
    · exact absurd herror (by simp)
    all_goals
      rw [← Option.some.inj herror]
      decide
  rw [gatewayAppSendRouteNack] at hsend
  split at hsend
  · exact absurd hsend (by simp)
  split at hsend
  · exact absurd hsend (by simp)
  rename_i buf hbuf
  refine ⟨?_, _, hsend⟩
  obtain ⟨-, rfl⟩ := messageJsonBuildNack_eq_some_iff.mp hsend
  refine UplinkMessage.isLine_line (m := .nack _) htarget fun t ht => ?_
  rw [UplinkMessage.texts, List.mem_singleton] at ht
  rw [ht]
  rw [← CharBuf.toCStr_of_ofCStr? hbuf] at herrorlf
  exact herrorlf

/-- What the worker sends: a message it has taken from the queue, or a route NACK. -/
def Northbound (taken : List GatewayMessage) (text : Bytes) : Prop :=
  (∃ message ∈ taken, message.data = text) ∨ RouteNack text

theorem Northbound.concat {taken : List GatewayMessage} {text : Bytes} (h : Northbound taken text)
    (message : GatewayMessage) : Northbound (taken ++ [message]) text := by
  rcases h with ⟨m, hm, rfl⟩ | hnack
  · exact Or.inl ⟨m, List.mem_append_left _ hm, rfl⟩
  · exact Or.inr hnack

/-! ## Connections -/

variable {taken : List GatewayMessage} {c : Connection} {w : Write Byte}

/-- A connection the worker goes on with: every text that was begun was finished. -/
structure Connection.Usable (taken : List GatewayMessage) (c : Connection) : Prop where
  intact : Intact c.written
  texts : ∀ w ∈ c.written, Northbound taken w.text

/-- A connection the worker is done with. -/
structure Connection.Done (taken : List GatewayMessage) (c : Connection) : Prop where
  framed : Framed c.written
  texts : ∀ w ∈ c.written, Northbound taken w.text

theorem Connection.usable_fresh : Connection.fresh.Usable taken :=
  ⟨intact_nil, fun _ h => absurd h (by simp [Connection.fresh])⟩

theorem Connection.Usable.done (h : c.Usable taken) : c.Done taken := ⟨h.intact.framed, h.texts⟩

theorem Connection.Usable.texts_wrote (h : c.Usable taken) (hw : Northbound taken w.text) :
    ∀ v ∈ (c.wrote w).written, Northbound taken v.text := by
  intro v hv
  rcases List.mem_append.mp hv with hv | hv
  · exact h.texts v hv
  · rw [List.mem_singleton.mp hv]
    exact hw

/-- A send that went through, or that put nothing out, leaves the connection usable. -/
theorem Connection.Usable.wrote (h : c.Usable taken) (hw : Northbound taken w.text)
    (hwhole : w.written = 0 ∨ w.Whole) : (c.wrote w).Usable taken :=
  ⟨h.intact.concat hwhole, h.texts_wrote hw⟩

/-- **Any one send more leaves it framed**, if it is the last. -/
theorem Connection.Usable.done_wrote (h : c.Usable taken) (hw : Northbound taken w.text) :
    (c.wrote w).Done taken :=
  ⟨h.intact.framed_concat w, h.texts_wrote hw⟩

/-! ## The worker -/

/-- What holds of the connection at each call. -/
def LinkControl.Sound (taken : List GatewayMessage) : LinkControl → Prop
  | .head none | .connecting | .stopped => True
  | .head (some c) | .polling c | .receiving c _ | .onLine c _ _ => c.Usable taken
  | .sending c w | .answering c w _ => c.Usable taken ∧ Northbound taken w.text

/-- What the worker keeps besides the connection it is at. -/
structure ServerLink.Kept (s : ServerLink) : Prop where
  closed : ∀ c ∈ s.closed, c.Done s.taken
  pending : ∀ message, s.pendingMessage = some message → message ∈ s.taken

/-- **The invariant.** -/
structure ServerLink.Sound (s : ServerLink) : Prop where
  kept : s.Kept
  control : s.control.Sound s.taken

namespace ServerLink

variable {s : ServerLink}

/-- Closing a connection. -/
theorem Kept.close (hs : s.Kept) (hc : c.Done s.taken) (buffer : Bytes) :
    ServerLink.Kept { s with tcpBuffer := buffer, closed := s.closed ++ [c] } := by
  refine ⟨fun c' hc' => ?_, hs.pending⟩
  rcases List.mem_append.mp hc' with hmem | hmem
  · exact hs.closed c' hmem
  · rw [List.mem_singleton.mp hmem]
    exact hc

/-- One more message taken. -/
theorem Kept.take (hs : s.Kept) (message : GatewayMessage) :
    ServerLink.Kept
      { s with pendingMessage := some message, taken := s.taken ++ [message] } where
  closed c hc :=
    ⟨(hs.closed c hc).framed, fun w hw => ((hs.closed c hc).texts w hw).concat message⟩
  pending m hm := by
    rw [← Option.some.inj hm]
    exact List.mem_append_right _ (List.mem_singleton_self message)

end ServerLink

/-- The invariant, call by call. A route NACK may fail as long as nothing of it is out. -/
def framing : LinkInvariant where
  unconnected s := s.Kept
  idle s c := s.Kept ∧ c.Usable s.taken
  sending s c w := s.Kept ∧ c.Usable s.taken ∧ Northbound s.taken w.text
  lines s c := s.Kept ∧ c.Usable s.taken
  answering s c w := s.Kept ∧ c.Usable s.taken ∧ Northbound s.taken w.text
  breakable w := w.written = 0
  take_unconnected _ message hs _ := hs.take message
  take_idle := by
    rintro s c message ⟨hs, hc⟩ -
    exact ⟨hs.take message, hc.intact, fun w hw => (hc.texts w hw).concat message⟩
  opened _ hs := ⟨⟨hs.closed, hs.pending⟩, Connection.usable_fresh⟩
  closed := by
    rintro s c buffer ⟨hs, hc⟩
    exact hs.close hc.done buffer
  begun := by
    rintro s c message ⟨hs, hc⟩ hmessage
    exact ⟨hs, hc, Or.inl ⟨message, hs.pending message hmessage, rfl⟩⟩
  sending_turn := by
    rintro s c w turn w' ⟨hs, hc, hw⟩ hturn
    rw [← sendAllTurn_text hturn] at hw
    exact ⟨hs, hc, hw⟩
  sent := by
    rintro s c w ⟨hs, hc, hw⟩ hwhole
    exact ⟨⟨hs.closed, nofun⟩, hc.wrote hw (Or.inr hwhole)⟩
  broken := by
    rintro s c w ⟨hs, hc, hw⟩
    exact hs.close (hc.done_wrote hw) []
  received := by
    rintro s c chunk ⟨hs, hc⟩ - -
    exact ⟨⟨hs.closed, hs.pending⟩, hc.intact, hc.texts⟩
  handed := by
    rintro s c line rest ⟨hs, hc⟩ -
    exact ⟨⟨hs.closed, hs.pending⟩, hc.intact, hc.texts⟩
  quiet _ _ h _ := h
  refused := by
    rintro s c line devices nack ⟨hs, hc⟩ hnack
    exact ⟨hs, hc, Or.inr (routeNack_of_gatewayAppOnTcpLine hnack)⟩
  answering_turn := by
    rintro s c w turn w' ⟨hs, hc, hw⟩ hturn
    rw [← sendAllTurn_text hturn] at hw
    exact ⟨hs, hc, hw⟩
  answered := by
    rintro s c w ⟨hs, hc, hw⟩ hwhole
    exact ⟨hs, hc.wrote hw (Or.inr hwhole)⟩
  answer_broken := by
    rintro s c w ⟨hs, hc, hw⟩ hnothing
    exact ⟨hs, hc.wrote hw (Or.inl hnothing)⟩

/-- It says the same. -/
theorem ServerLink.sound_iff {s : ServerLink} : s.Sound ↔ framing.Holds s := by
  have hkept : s.rest.Kept ↔ s.Kept :=
    ⟨fun h => ⟨h.closed, h.pending⟩, fun h => ⟨h.closed, h.pending⟩⟩
  have hsound : s.Sound ↔ s.rest.Kept ∧ s.control.Sound s.taken :=
    ⟨fun h => ⟨hkept.mpr h.kept, h.control⟩, fun h => ⟨hkept.mp h.1, h.2⟩⟩
  rw [hsound]
  unfold LinkInvariant.Holds LinkControl.Sound
  cases s.control with
  | head connection =>
    cases connection with
    | none => exact and_iff_left trivial
    | some c => exact Iff.rfl
  | connecting | stopped => exact and_iff_left trivial
  | sending c w | answering c w hungUp => exact Iff.rfl
  | polling c | receiving c hungUp | onLine c line hungUp => exact Iff.rfl

/-- No send of a route NACK fails here with some of it out. -/
def noBrokenAnswer (s : ServerLink) (e : LinkEvent) : Bool :=
  match s.control, e with
  | .answering _ w _, .send turn => !turn.fails || w.written == 0
  | _, _ => true

/-- **One call keeps the invariant**, unless it breaks off a route NACK. -/
theorem serverLinkStep_sound {s : ServerLink} (hs : s.Sound) {e : LinkEvent}
    (he : noBrokenAnswer s e = true) : (serverLinkStep s e).Sound := by
  refine ServerLink.sound_iff.mpr ((ServerLink.sound_iff.mp hs).step e ?_)
  intro c w hungUp turn hat hevent hfails
  subst hevent
  unfold noBrokenAnswer at he
  rw [hat] at he
  change w.written = 0
  simpa [hfails] using he

/-- Every connection of a sound worker is framed, the open one too. -/
theorem ServerLink.Sound.connections {s : ServerLink} (hs : s.Sound) :
    ∀ c ∈ s.connections, c.Done s.taken := by
  refine (ServerLink.sound_iff.mp hs).connections ?_ ?_ ?_ ?_ ?_
  · intro h
    exact h.closed
  · rintro c ⟨h, hc⟩
    exact ⟨hc.done, h.closed⟩
  · rintro c w ⟨h, hc, hw⟩
    exact ⟨hc.done_wrote hw, h.closed⟩
  · rintro c ⟨h, hc⟩
    exact ⟨hc.done, h.closed⟩
  · rintro c w ⟨h, hc, hw⟩
    exact ⟨hc.done_wrote hw, h.closed⟩

/-- **Northbound framing.** In a run in which no route NACK is broken off, what has gone
over each connection is whole texts, one behind the other, then at most one that broke
off; and each is a message taken from the queue or a route NACK. -/
theorem northbound_framed (events : List LinkEvent)
    (h : serverLinkWorker.EveryStep noBrokenAnswer events) :
    ∀ c ∈ (serverLinkWorker.state events).connections,
      (∃ whole last, FramedAs c.written whole last ∧
        out c.written = (whole.map Write.text).flatten ++ out last) ∧
      ∀ w ∈ c.written, Northbound (serverLinkWorker.state events).taken w.text := by
  have hstart : serverLinkWorker.init.Sound :=
    ⟨⟨fun c hc => absurd hc (by simp [serverLinkWorker]), fun m hm => absurd hm (by
      simp [serverLinkWorker])⟩, trivial⟩
  have hsound : (serverLinkWorker.state events).Sound :=
    serverLinkWorker.invariant_of_everyStep hstart (fun s e hs => serverLinkStep_sound hs) h
  intro c hc
  obtain ⟨⟨whole, last, hframed⟩, htexts⟩ := hsound.connections c hc
  exact ⟨⟨whole, last, hframed, hframed.out_eq⟩, htexts⟩

/-- A message on its way up. -/
def upMessage : GatewayMessage where
  data := ascii
    "\x7b\"node\":\"N1\",\"seq\":7,\"type\":\"ACK\",\"fields\":\x7b\"LED\":\"1\"\x7d\x7d\n"
  fits := by decide

/-- A command for a node nobody knows, read from a new connection. -/
def unknownNodeRun : List LinkEvent :=
  [.turn true .empty, .connect true, .poll (.ready true false),
    .recv (.data Ascii.openBrace
      (ascii "\"node\":\"N9\",\"sender\":\"S\",\"seq\":7,\"type\":\"CMD\"\x7d\n")),
    .line deviceManagerInit]

/-- Its route NACK is sent in two pieces, then a message breaks off. -/
def brokenMessageRun : List LinkEvent :=
  unknownNodeRun ++ [.send (.sent 9), .send .wouldBlock, .send (.sent 99),
    .turn true (.ok upMessage), .send (.sent 9), .send .timedOut]

/-- The one connection of that run is framed. -/
theorem northbound_framed_brokenMessageRun :
    ∃ c, (serverLinkWorker.state brokenMessageRun).connections = [c] ∧
      ∃ whole last, FramedAs c.written whole last ∧
        out c.written = (whole.map Write.text).flatten ++ out last := by
  have hone : (serverLinkWorker.state brokenMessageRun).connections.length = 1 := by
    decide +kernel
  obtain ⟨c, hc⟩ := List.length_eq_one_iff.mp hone
  have hmem : c ∈ (serverLinkWorker.state brokenMessageRun).connections := by
    rw [hc]
    exact List.mem_singleton_self c
  exact ⟨c, hc, (northbound_framed brokenMessageRun (by decide +kernel) c hmem).1⟩

/-- With the route NACK broken off after ten bytes, the message comes behind the piece. -/
theorem not_northbound_framed_unknownNodeRun :
    ¬ ∀ events, ∀ c ∈ (serverLinkWorker.state events).connections, Framed c.written := by
  intro h
  have hconnections : (serverLinkWorker.state (unknownNodeRun ++ [.send (.sent 9), .send .timedOut,
      .turn true (.ok upMessage), .send (.sent 99)])).connections.map Connection.written =
      [[⟨ascii
        "\x7b\"node\":\"N9\",\"seq\":7,\"type\":\"NACK\",\"error\":\"route_not_found\"\x7d\n",
        10, by decide⟩, ⟨upMessage.data, upMessage.data.length, le_refl _⟩]] := by
    decide +kernel
  obtain ⟨c, hc, hwritten⟩ := List.mem_map.mp (hconnections ▸ List.mem_singleton_self _)
  have hframed := h _ c hc
  rw [hwritten] at hframed
  have hwhole := Framed.whole_of_append [] hframed (by decide) (List.mem_singleton_self _)
    (by decide)
  exact absurd hwhole (by unfold Write.Whole; decide)

end SmartGateway
