import SmartGateway.Common.FrameStream
import SmartGateway.Gateway.ConnectionLoops

/-!
# What comes over a connection

The loops hand their callbacks what stands in the stream of their own connection. Over the
serial line it is the frames, however the stream is cut into reads, and though the parser
outlives the connection; over WiFi it is the lines, as long as none is too long to be
gathered beside a full read.
-/

namespace SmartGateway

open WriteLog

/-! ## What has been gathered -/

/-- What has been handed on, and what is gathered still, are what came. -/
def Intake.Of (received : Bytes) (handed : List UplinkInput) : Intake → Prop
  | .frames parser rest => ∃ (fresh : FrameParser) (fed : Bytes) (frames : List ParsedFrame),
      fresh.collecting = false ∧ received = fed ++ rest ∧
        frameParserFeed fresh fed = (parser, frames) ∧ handed = frames.map .frame
  | .lines buffer => ∃ (chunks : List Bytes) (lines : List Line),
      (∀ chunk ∈ chunks, Received wifiClientReadBufferSize chunk) ∧ received = chunks.flatten ∧
        handed = lines.map (fun line => .line line.text) ∧
        linesOf wifiClientReceive chunks = lines ++ (lineParserFeed buffer).1 ∧
        (lineReceiver wifiClientReceive).state chunks = (lineParserFeed buffer).2

/-- All that could be handed on has been. -/
def Intake.Quiet : Intake → Prop
  | .frames _ rest => rest = []
  | .lines buffer => Ascii.lf ∉ buffer

/-- The transport it belongs to. -/
def Intake.transport : Intake → DeviceTransport
  | .frames .. => .bluetooth
  | .lines _ => .wifi

/-- In the callback. -/
def LoopStage.isCalling : LoopStage → Bool
  | .calling .. => true
  | .head | .polling | .reading _ | .leaving => false

/-- Up to the next frame, or to the end of the bytes. -/
theorem nextFrame_cases (parser : FrameParser) (bytes : Bytes) :
    (∃ after, nextFrame parser bytes = (after, none) ∧
      frameParserFeed parser bytes = (after, [])) ∨
    ∃ after frame fed rest, nextFrame parser bytes = (after, some (frame, rest)) ∧
      bytes = fed ++ rest ∧ frameParserFeed parser fed = (after, [frame]) := by
  induction bytes generalizing parser with
  | nil => exact .inl ⟨parser, rfl, rfl⟩
  | cons ch bytes ih =>
    have hfeed : ∀ bytes, frameParserFeed parser (ch :: bytes) =
        ((frameParserFeed (frameParserByte parser ch).1 bytes).1,
          (frameParserByte parser ch).2.toList ++
            (frameParserFeed (frameParserByte parser ch).1 bytes).2) := fun _ => rfl
    cases hframe : (frameParserByte parser ch).2 with
    | some frame =>
      have hnext : nextFrame parser (ch :: bytes) =
          ((frameParserByte parser ch).1, some (frame, bytes)) := by simp only [nextFrame, hframe]
      refine .inr ⟨_, frame, [ch], bytes, hnext, rfl, ?_⟩
      rw [frameParserFeed_singleton, hframe]
      rfl
    | none =>
      have hnext : nextFrame parser (ch :: bytes) =
          nextFrame (frameParserByte parser ch).1 bytes := by simp only [nextFrame, hframe]
      rcases ih (frameParserByte parser ch).1 with ⟨after, hrest, hfed⟩ |
        ⟨after, frame, fed, rest, hrest, hbytes, hfed⟩
      · refine .inl ⟨after, hnext.trans hrest, ?_⟩
        rw [hfeed, hfed, hframe]
        rfl
      · refine .inr ⟨after, frame, ch :: fed, rest, hnext.trans hrest, by rw [hbytes]; rfl, ?_⟩
        rw [hfeed, hfed, hframe]
        rfl

/-- **The next call of the callback**, or none. -/
theorem Intake.Of.next {received : Bytes} {handed : List UplinkInput} {intake : Intake}
    (h : intake.Of received handed) :
    intake.next.1.transport = intake.transport ∧
      match intake.next with
      | (after, none) => after.Of received handed ∧ after.Quiet
      | (after, some input) => after.Of received (handed ++ [input]) := by
  cases intake with
  | frames parser rest =>
    obtain ⟨fresh, fed, frames, hfresh, hreceived, hfed, hhanded⟩ := h
    rw [Intake.next]
    rcases nextFrame_cases parser rest with ⟨after, hnext, hmore⟩ |
      ⟨after, frame, more, rest', hnext, hrest, hmore⟩
    all_goals rw [hnext]
    · refine ⟨rfl, ⟨fresh, received, frames, hfresh, by simp, ?_, hhanded⟩, rfl⟩
      rw [hreceived, frameParserFeed_append, hfed, hmore, List.append_nil]
    · refine ⟨rfl, fresh, fed ++ more, frames ++ [frame], hfresh, ?_, ?_, ?_⟩
      · rw [hreceived, hrest, List.append_assoc]
      · rw [frameParserFeed_append, hfed, hmore]
      · rw [hhanded, List.map_append]
        rfl
  | lines buffer =>
    obtain ⟨chunks, lines, hchunks, hreceived, hhanded, hlines, hstate⟩ := h
    rw [Intake.next]
    cases hturn : lineParserTurn buffer with
    | none =>
      refine ⟨rfl, ⟨chunks, lines, hchunks, hreceived, hhanded, hlines, hstate⟩, fun hlf => ?_⟩
      obtain ⟨line, rest, hsome⟩ := exists_lineParserTurn hlf
      rw [hturn] at hsome
      exact absurd hsome (by simp)
    | some turn =>
      obtain ⟨line, rest⟩ := turn
      rw [lineParserFeed_of_turn hturn] at hlines hstate
      refine ⟨rfl, chunks, lines ++ [line], hchunks, hreceived, ?_, ?_, hstate⟩
      · rw [hhanded, List.map_append]
        rfl
      · rw [hlines, List.append_cons]

/-- **A read.** -/
theorem Intake.Of.receive {received : Bytes} {handed : List UplinkInput} {intake : Intake}
    (h : intake.Of received handed) (hquiet : intake.Quiet) {bytes : Bytes}
    (hbytes : intake.transport = .wifi → Received wifiClientReadBufferSize bytes) :
    (intake.receive bytes).Of (received ++ bytes) handed ∧
      (intake.receive bytes).transport = intake.transport := by
  cases intake with
  | frames parser rest =>
    obtain ⟨fresh, fed, frames, hfresh, hreceived, hfed, hhanded⟩ := h
    refine ⟨⟨fresh, fed, frames, hfresh, ?_, hfed, hhanded⟩, rfl⟩
    rw [hreceived, List.append_assoc]
  | lines buffer =>
    obtain ⟨chunks, lines, hchunks, hreceived, hhanded, hlines, hstate⟩ := h
    rw [lineParserFeed_of_not_mem hquiet] at hlines hstate
    rw [List.append_nil] at hlines
    -- the branch is taken, or the buffer thrown away
    have hbranch : wifiClientReceive buffer bytes = lineParserFeed
        (if wifiClientBufferSize < buffer.length + bytes.length then [] else buffer ++ bytes) := by
      rw [wifiClientReceive, receiveChunk]
      split <;> rfl
    have hreceive : (Intake.lines buffer).receive bytes = .lines
        (if wifiClientBufferSize < buffer.length + bytes.length then [] else buffer ++ bytes) := by
      rw [Intake.receive]
      split <;> rfl
    rw [hreceive]
    refine ⟨⟨chunks ++ [bytes], lines, fun chunk hchunk => ?_, ?_, hhanded, ?_, ?_⟩, rfl⟩
    · rcases List.mem_append.mp hchunk with hchunk | hchunk
      · exact hchunks chunk hchunk
      · rw [List.mem_singleton.mp hchunk]
        exact hbytes rfl
    · rw [hreceived, List.flatten_append, List.flatten_singleton]
    · rw [linesOf_concat, hlines, hstate, hbranch]
    · rw [Machine.state_concat, hstate]
      exact congrArg Prod.snd hbranch

/-! ## The loop -/

namespace ConnectionLoop

variable {c : ConnectionLoop}

/-- What holds of a loop and its stream. -/
structure Gathers (c : ConnectionLoop) : Prop where
  of : c.intake.Of c.received c.handed
  quiet : c.stage.isCalling = false → c.intake.Quiet
  transport : c.intake.transport = c.worker.context.transport

/-- The same stream and what was handed on of it, with another worker or at another place. -/
theorem Gathers.same (h : c.Gathers) {c' : ConnectionLoop} (hintake : c'.intake = c.intake)
    (hreceived : c'.received = c.received) (hhanded : c'.handed = c.handed)
    (hstage : c'.stage.isCalling = c.stage.isCalling ∨ c.stage.isCalling = false)
    (htransport : c'.worker.context.transport = c.worker.context.transport) : c'.Gathers := by
  refine ⟨by rw [hintake, hreceived, hhanded]; exact h.of, fun hcalling => ?_,
    by rw [hintake, htransport]; exact h.transport⟩
  rw [hintake]
  rcases hstage with hstage | hstage
  · exact h.quiet (hstage ▸ hcalling)
  · exact h.quiet hstage

/-- At another place, out of the callback. -/
theorem Gathers.goTo (h : c.Gathers) (hstage : c.stage.isCalling = false) (stage : LoopStage) :
    (c.goTo stage).Gathers :=
  h.same rfl rfl rfl (.inr hstage) rfl

theorem Gathers.checkHangup (h : c.Gathers) (hstage : c.stage.isCalling = false)
    (hungUp : Bool) : (c.checkHangup hungUp).Gathers := by
  rw [ConnectionLoop.checkHangup]
  split
  · exact h.goTo hstage _
  · exact h.goTo hstage _

/-- **The feeding**, from one call of the callback to the next. -/
theorem gathers_feed (hof : c.intake.Of c.received c.handed)
    (htransport : c.intake.transport = c.worker.context.transport) (hungUp : Bool) :
    (c.feed hungUp).Gathers := by
  obtain ⟨hsame, hnext⟩ := hof.next
  rw [ConnectionLoop.feed]
  generalize c.intake.next = result at hsame hnext
  obtain ⟨intake, - | input⟩ := result
  · -- behind the last call, at the flags or at the head
    have hquiet : ∀ stage : LoopStage,
        ({ c with intake := intake, stage := stage } : ConnectionLoop).Gathers :=
      fun stage => ⟨hnext.1, fun _ => hnext.2, hsame.trans htransport⟩
    dsimp only
    rw [ConnectionLoop.fed]
    split
    · rw [ConnectionLoop.checkHangup]
      split
      · exact hquiet .leaving
      · exact hquiet .head
    · exact hquiet .head
  · exact ⟨hnext, fun hcalling => absurd hcalling (by simp [LoopStage.isCalling]),
      hsame.trans htransport⟩

theorem Gathers.polled (h : c.Gathers) (hstage : c.stage.isCalling = false)
    (result : PollResult) : (c.polled result).Gathers := by
  cases result with
  | interrupted | timedOut | failed => exact h.goTo hstage _
  | ready readable hungUp =>
    rw [ConnectionLoop.polled]
    split
    · exact h.goTo hstage _
    · exact h.checkHangup hstage hungUp

theorem Gathers.read (h : c.Gathers) (hstage : c.stage.isCalling = false) (hungUp : Bool)
    (result : RecvResult) : (c.read hungUp result).Gathers := by
  cases result with
  | closed | failed | wouldBlock => exact h.goTo hstage _
  | interrupted =>
    rw [ConnectionLoop.read]
    split
    · exact h
    · exact h.checkHangup hstage hungUp
  | data b bs =>
    have hbytes : c.intake.transport = .wifi → Received wifiClientReadBufferSize
        ((b :: bs).take (readBufferSize c.worker.context.transport)) := by
      intro hwifi
      rw [← h.transport, hwifi, readBufferSize]
      exact ⟨by simp, List.length_take_le _ _⟩
    obtain ⟨hof, htransport⟩ := h.of.receive (h.quiet hstage) hbytes
    exact gathers_feed hof (htransport.trans h.transport) hungUp

/-- What has been handed on over the serial line: the frames of what was fed. -/
theorem Gathers.frames (h : c.Gathers) (hbluetooth : c.worker.context.transport = .bluetooth) :
    ∃ fed frames, fed <+: c.received ∧ Delivered fed frames ∧
      c.handed = frames.map UplinkInput.frame ∧ (c.stage.isCalling = false → fed = c.received) := by
  obtain ⟨hof, hquiet, htransport⟩ := h
  cases hintake : c.intake with
  | lines buffer =>
    rw [hintake, hbluetooth] at htransport
    exact absurd htransport (by simp [Intake.transport])
  | frames parser rest =>
    rw [hintake] at hof hquiet
    obtain ⟨fresh, fed, frames, hfresh, hreceived, hfed, hhanded⟩ := hof
    refine ⟨fed, frames, ⟨rest, hreceived.symm⟩, ?_, hhanded, fun hcalling => ?_⟩
    · have hdelivered := frameParserFeed_delivered hfresh fed
      rw [hfed] at hdelivered
      exact hdelivered
    · rw [hreceived, show rest = [] from hquiet hcalling, List.append_nil]

/-- A step of the command path changes nothing of it. -/
theorem Gathers.did (h : c.Gathers) {stage : LoopStage} {result : WorkerResult}
    (hstage : stage.isCalling = c.stage.isCalling ∨ c.stage.isCalling = false)
    (htransport : result.worker.context = c.worker.context) :
    (c.did stage result).loop.Gathers :=
  h.same rfl rfl rfl hstage (congrArg UpstreamContext.transport htransport)

end ConnectionLoop

@[simp] theorem Worker.send_context (worker : Worker) (command : FrameCommand) (w : Write Byte) :
    (worker.send command w).context = worker.context := by
  rw [Worker.send]
  split <;> rfl

/-- The attempt at a command leaves the connection whose it is. -/
theorem trySendCommand_context (build : FrameCommand → Option Bytes) (devices : DeviceManager)
    (worker : Worker) : (trySendCommand build devices worker).worker.context = worker.context := by
  rw [trySendCommand]
  dsimp only
  split
  · rfl
  split
  · rfl
  split
  · split
    · rfl
    · exact Worker.send_context _ _ _
  · rfl
  · rfl

theorem sendCommandTurn_context (devices : DeviceManager) (worker : Worker)
    (command : FrameCommand) (w : Write Byte) (turn : SendTurn) :
    (sendCommandTurn devices worker command w turn).worker.context = worker.context := by
  rw [sendCommandTurn]
  split
  · exact Worker.send_context _ _ _
  · rfl

theorem leaveConnection_context (devices : DeviceManager) (worker : Worker) :
    (leaveConnection devices worker).worker.context = worker.context := by
  rw [leaveConnection]
  dsimp only
  split <;> rfl

/-- The callback leaves the connection its transport. -/
theorem gatewayAppOnUplink_transport (devices : DeviceManager) (context : UpstreamContext)
    (threadId : ℕ) (now : ℤ) (input : UplinkInput) :
    (gatewayAppOnUplink devices context threadId now input).context.transport =
      context.transport := by
  have htouch : ∀ nodeId : CStr, (gatewayAppTouchDevice devices context threadId now
      nodeId).2.context.transport = context.transport := by
    intro nodeId
    rw [gatewayAppTouchDevice]
    split
    · rfl
    split
    · split
      · rfl
      · dsimp only
        split <;> rfl
    split <;> rfl
  rw [gatewayAppOnUplink_eq]
  split
  · rfl
  · rename_i m _
    rw [gatewayAppForward]
    dsimp only
    split
    · exact htouch m.nodeId.toCStr
    · split
      · exact htouch m.nodeId.toCStr
      · exact htouch m.nodeId.toCStr

/-- **One call of a loop.** -/
theorem ConnectionLoop.Gathers.step {c : ConnectionLoop} (h : c.Gathers)
    (devices : DeviceManager) (e : LoopEvent) : (loopStep devices c e).loop.Gathers := by
  unfold loopStep
  split
  · rename_i running _ hstage
    have hout : c.stage.isCalling = false := by rw [hstage]; rfl
    split
    · exact h.goTo hout _
    · split
      · exact h.did (.inr hout) (trySendCommand_context _ _ _)
      · exact h.did (.inr hout) (trySendCommand_context _ _ _)
  · exact h.did (.inl rfl) (sendCommandTurn_context _ _ _ _ _)
  · rename_i _ hstage
    exact h.polled (by rw [hstage]; rfl) _
  · rename_i _ hstage
    exact h.read (by rw [hstage]; rfl) _ _
  · rename_i input hungUp now _ _
    have htransport := gatewayAppOnUplink_transport devices c.worker.context c.worker.threadId now
      input
    exact ConnectionLoop.gathers_feed
      (c := { c with worker := { c.worker with
        context := (gatewayAppOnUplink devices c.worker.context c.worker.threadId now
          input).context } }) h.of (h.transport.trans htransport.symm) hungUp
  · exact h.did (.inl rfl) (leaveConnection_context _ _)
  · exact h.did (.inl rfl) (leaveConnection_context _ _)
  · exact h

/-- A call of a loop leaves the connection its transport. -/
theorem loopStep_transport (devices : DeviceManager) (c : ConnectionLoop) (e : LoopEvent) :
    (loopStep devices c e).loop.worker.context.transport = c.worker.context.transport := by
  have hpath : ∀ result : WorkerResult, result.worker.context = c.worker.context →
      result.worker.context.transport = c.worker.context.transport :=
    fun result h => congrArg UpstreamContext.transport h
  unfold loopStep
  split
  · split
    · rfl
    · split
      · exact hpath _ (trySendCommand_context _ _ _)
      · exact hpath _ (trySendCommand_context _ _ _)
  · exact hpath _ (sendCommandTurn_context _ _ _ _ _)
  · rw [ConnectionLoop.polled_worker]
  · rw [ConnectionLoop.read_worker]
  · rw [ConnectionLoop.feed_worker]
    exact gatewayAppOnUplink_transport _ _ _ _ _
  · exact hpath _ (leaveConnection_context _ _)
  · exact hpath _ (leaveConnection_context _ _)
  · rfl

/-- **All connections of all threads.** -/
theorem gatewayThreads_gathers (threadId : ℕ) (events : List ThreadEvent) :
    let s := (gatewayThreads threadId).state events
    (∀ c ∈ s.bluetooth.connections, c.Gathers ∧ c.worker.context.transport = .bluetooth) ∧
      ∀ c ∈ s.wifi, c.Gathers ∧ c.worker.context.transport = .wifi := by
  refine gatewayThreads_connections (fun fd threadId parser => ⟨?_, rfl⟩)
    (fun fd threadId => ⟨?_, rfl⟩)
    (fun devices c e h => ⟨h.1.step devices e, (loopStep_transport devices c e).trans h.2⟩)
    (fun devices c e h => ⟨h.1.step devices e, (loopStep_transport devices c e).trans h.2⟩)
    threadId events
  · exact ⟨⟨frameParserReset parser, [], [], rfl, rfl, rfl, rfl⟩, fun _ => rfl, rfl⟩
  · exact ⟨⟨[], [], nofun, rfl, rfl, rfl, rfl⟩, fun _ => List.not_mem_nil, rfl⟩

/-! ## Lines that are not too long -/

/-- What may stand in the buffer beside a full read. -/
abbrev wifiLineMax : ℕ := wifiClientBufferSize - wifiClientReadBufferSize

/-- What stands in front of more of a line is a part of the line. -/
theorem CutInto.exists_front {front text rest : Bytes} {raws : List Bytes}
    (hfront : Ascii.lf ∉ front) (h : CutInto (front ++ text) raws rest) :
    ∃ line ∈ raws ++ [rest], front <+: line := by
  obtain ⟨heq, hlines, hrest⟩ := h
  cases raws with
  | nil => exact ⟨rest, by simp, ⟨text, heq⟩⟩
  | cons raw raws =>
    refine ⟨raw, by simp, ?_⟩
    have hsplit : front ++ text = raw ++ Ascii.lf :: (joinLines raws ++ rest) := by
      rw [heq]
      simp [joinLines]
    rcases List.append_eq_append_iff.mp hsplit with ⟨more, rfl, -⟩ | ⟨more, rfl, hmore⟩
    · exact List.prefix_append _ _
    · -- the newline would be in front
      cases more with
      | nil => rw [List.append_nil]
      | cons b more =>
        obtain ⟨rfl, -⟩ := List.cons.inj hmore
        exact absurd (by simp) hfront

/-- **Where no line is too long nothing is thrown away.** -/
theorem linesOf_wifi {chunks : List Bytes}
    (hchunks : ∀ chunk ∈ chunks, Received wifiClientReadBufferSize chunk)
    {raws : List Bytes} {rest : Bytes} (hcut : CutInto chunks.flatten raws rest)
    (hshort : ∀ line ∈ raws ++ [rest], line.length ≤ wifiLineMax) :
    (linesOf wifiClientReceive chunks).map Line.text = raws.map stripCr ∧
      (lineReceiver wifiClientReceive).state chunks = rest := by
  induction chunks using List.reverseRecOn generalizing raws rest with
  | nil =>
    obtain ⟨heq, -, -⟩ := hcut
    obtain ⟨hraws, rfl⟩ := List.append_eq_nil_iff.mp heq.symm
    cases raws with
    | nil => exact ⟨rfl, rfl⟩
    | cons raw raws => exact absurd hraws (by simp [joinLines])
  | append_singleton chunks chunk ih =>
    obtain ⟨before, buffer, hbefore⟩ := exists_cut chunks.flatten
    obtain ⟨after, hafter, hlines⟩ := lineParserFeed_cut (buffer ++ chunk)
    -- the lines of the stream are those before, and those that come of the buffer
    have hall : CutInto (chunks ++ [chunk]).flatten (before ++ after)
        (lineParserFeed (buffer ++ chunk)).2 := by
      refine ⟨?_, fun line hline => ?_, hafter.rest⟩
      · rw [List.flatten_append, List.flatten_singleton, hbefore.eq, joinLines_append,
          List.append_assoc, List.append_assoc, ← hafter.eq]
      · rcases List.mem_append.mp hline with hline | hline
        · exact hbefore.lines line hline
        · exact hafter.lines line hline
    have hunique := hcut.splitOn.symm.trans hall.splitOn
    obtain ⟨rfl, hrest⟩ := List.append_inj' hunique rfl
    obtain rfl := List.singleton_inj.mp hrest
    obtain ⟨line, hmem, hprefix⟩ := hafter.exists_front hbefore.rest
    have hbuffer : buffer.length ≤ wifiLineMax := by
      refine hprefix.length_le.trans (hshort line ?_)
      rw [List.append_assoc]
      exact List.mem_append_right _ hmem
    have hfits := (hchunks chunk (by simp)).2
    obtain ⟨htexts, hstate⟩ := ih (fun chunk hchunk => hchunks chunk (by simp [hchunk])) hbefore
      fun line hline => by
        rcases List.mem_append.mp hline with hline | hline
        · exact hshort line (by simp [hline])
        · rw [List.mem_singleton.mp hline]
          exact hbuffer
    have hreceive : wifiClientReceive buffer chunk = lineParserFeed (buffer ++ chunk) := by
      have hlimit : wifiLineMax + wifiClientReadBufferSize = wifiClientBufferSize := rfl
      rw [wifiClientReceive, receiveChunk, if_neg (by omega)]
    rw [linesOf_concat, List.map_append, htexts, Machine.state_concat, hstate, hreceive, hlines,
      List.map_append]
    exact ⟨rfl, congrArg Prod.snd hreceive⟩

/-! ## Every connection -/

/-- **Every connection's callback is called with what stands in that connection's stream**,
in any run of all threads. Over the serial line it is called with the frames of what has come
so far, each once and in their order, however the stream is cut into reads and whatever was
left of a connection before; over WiFi with the lines, each less one CR, if no line of the
stream is longer than what may stand in the buffer beside a full read. And a loop that is
not in its callback has nothing left to call it with. -/
theorem callbacks_of_stream (threadId : ℕ) (events : List ThreadEvent) :
    let s := (gatewayThreads threadId).state events
    (∀ c ∈ s.bluetooth.connections, ∃ fed frames, fed <+: c.received ∧ Delivered fed frames ∧
      c.handed = frames.map UplinkInput.frame ∧
      (c.stage.isCalling = false → fed = c.received)) ∧
    (∀ c ∈ s.wifi, (∀ line ∈ c.received.splitOn Ascii.lf, line.length ≤ wifiLineMax) →
      ∃ more, (c.received.splitOn Ascii.lf).dropLast.map (fun raw => .line (stripCr raw)) =
          c.handed ++ more ∧
        (c.stage.isCalling = false → more = [])) := by
  intro s
  obtain ⟨hserial, hlines⟩ := gatewayThreads_gathers threadId events
  refine ⟨fun c hc => ?_, fun c hc hshort => ?_⟩
  · obtain ⟨hgathers, hbluetooth⟩ := hserial c hc
    exact hgathers.frames hbluetooth
  · obtain ⟨⟨hof, hquiet, htransport⟩, hwifi⟩ := hlines c hc
    cases hintake : c.intake with
    | frames parser rest =>
      rw [hintake, hwifi] at htransport
      exact absurd htransport (by simp [Intake.transport])
    | lines buffer =>
      rw [hintake] at hof hquiet
      obtain ⟨chunks, lines, hchunks, hreceived, hhanded, hlines, -⟩ := hof
      obtain ⟨raws, rest, hcut⟩ := exists_cut c.received
      rw [hcut.splitOn] at hshort ⊢
      rw [hreceived] at hcut
      obtain ⟨htexts, -⟩ := linesOf_wifi hchunks hcut hshort
      refine ⟨(lineParserFeed buffer).1.map fun line => .line line.text, ?_, fun hcalling => ?_⟩
      · have hinputs := congrArg (List.map UplinkInput.line) htexts
        rw [hlines, List.map_append, List.map_append, List.map_map, List.map_map,
          List.map_map] at hinputs
        rw [List.dropLast_concat, hhanded]
        exact hinputs.symm
      · rw [lineParserFeed_of_not_mem (hquiet hcalling)]
        rfl

end SmartGateway
