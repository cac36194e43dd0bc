import SmartGateway.Common.FramePieces
import SmartGateway.Gateway.PassedOn
import SmartGateway.Lib.Lists
import SmartGateway.Tools.NodeReports

/-!
# Both ends of the serial line

The Bluetooth worker at the one end, with all connections it has had, and the mock node at
the other. The line may lose what is under way when a connection ends, and the worker what
comes while it has none; neither end knows of the other but what it reads. Put together,
commands go out and answers come in, at most one of each for every command written.
-/

namespace SmartGateway

open WriteLog

/-! ## Commands on the line -/

/-- A command as a node reads it: the frame has no target, and six digits of the sequence. -/
def FrameCommand.asRead (command : FrameCommand) : FrameCommand :=
  { command with targetNode := default, sequence := command.sequence % 1000000 }

/-- What a command asks of the node. -/
def commandRequest (command : FrameCommand) : NodeRequest :=
  match frameFieldsFind command.asRead.fields.1 (cstr (ascii "LED")) with
  | none => .unsupported command.asRead.sequence
  | some ledText =>
    if atoiLong ledText.toCStr = 0 then .legal command.asRead.sequence false
    else if atoiLong ledText.toCStr = 1 then .legal command.asRead.sequence true
    else .invalid command.asRead.sequence

/-- The writes over a connection, with the one that is going on. -/
def Worker.line (worker : Worker) : List (FrameCommand × Write Byte) :=
  worker.writes ++
    match worker.control with
    | .sending command w => [(command, w)]
    | .loop | .leaving | .stopped => []

/-- The writes of commands. -/
def CommandLog (ws : List (FrameCommand × Write Byte)) : Prop :=
  ∀ write ∈ ws, bluetoothCommandText write.1 = some write.2.text

theorem built_of_bluetoothCommandText {command : FrameCommand} {text : Bytes}
    (h : bluetoothCommandText command = some text) :
    frameBuildCommandKv frameMaxLen command.sender.toCStr command.sequence command.fields.1 =
      .ok text := by
  rw [bluetoothCommandText] at h
  cases hbuild : frameBuildCommandKv frameMaxLen command.sender.toCStr command.sequence
      command.fields.1 with
  | error error =>
    rw [hbuild] at h
    exact absurd h (by simp [Except.toOption])
  | ok built =>
    rw [hbuild] at h
    exact congrArg Except.ok (Option.some.inj h)

theorem plainFrame_of_bluetoothCommandText {command : FrameCommand} {text : Bytes}
    (h : bluetoothCommandText command = some text) : ∃ frame, PlainFrame text frame :=
  ⟨_, Built.plain (.inr (.inl ⟨_, _, _, built_of_bluetoothCommandText h⟩))⟩

/-- **What the node makes of a command's frame.** -/
theorem nodeRequest_of_bluetoothCommandText {command : FrameCommand} {text : Bytes}
    (h : bluetoothCommandText command = some text) :
    (framesOf text).filterMap nodeRequest = [commandRequest command] := by
  obtain ⟨frame, hplain⟩ := plainFrame_of_bluetoothCommandText h
  have hframe := hplain.framesOf
  obtain ⟨htype, hparse⟩ := UplinkMessage.framesOf_buildKvFrame (by decide) (by decide +kernel)
    (built_of_bluetoothCommandText h) hframe
  have hcmd : frameGetMessageType frame = .cmd := htype
  have hrequest : nodeRequest frame = some (commandRequest command) := by
    have hdecode : frameDecodeCommand frame = some command.asRead := by
      rw [frameDecodeCommand, hparse]
      rfl
    rw [nodeRequest, hcmd]
    dsimp only
    rw [hdecode, commandRequest]
    dsimp only
    cases frameFieldsFind command.asRead.fields.1 (cstr (ascii "LED")) with
    | none => rfl
    | some ledText =>
      dsimp only
      split
      · rfl
      · split <;> rfl
  rw [hframe, List.filterMap_cons, hrequest]
  rfl

/-- The commands of a log that were written whole. -/
def wholeCommands (ws : List (FrameCommand × Write Byte)) : List FrameCommand :=
  (ws.filter fun write => write.2.written = write.2.text.length).map Prod.fst

/-- What the node makes of a log: what was written whole. -/
theorem CommandLog.requests {ws : List (FrameCommand × Write Byte)} (h : CommandLog ws) :
    ((wholeTexts (ws.map Prod.snd)).flatMap framesOf).filterMap nodeRequest =
      (wholeCommands ws).map commandRequest := by
  induction ws with
  | nil => rfl
  | cons write ws ih =>
    have hrest := ih fun write hmem => h write (List.mem_cons_of_mem _ hmem)
    rw [List.map_cons, ← List.singleton_append, wholeTexts_append, List.flatMap_append,
      List.filterMap_append, hrest, wholeCommands, wholeCommands]
    by_cases hwhole : write.2.Whole
    · rw [wholeTexts_of_whole hwhole, List.flatMap_singleton,
        nodeRequest_of_bluetoothCommandText (h write List.mem_cons_self),
        List.filter_cons_of_pos (by simpa using (show write.2.written = _ from hwhole))]
      rfl
    · rw [wholeTexts_of_not_whole hwhole,
        List.filter_cons_of_neg (by simpa using (show ¬ write.2.written = _ from hwhole))]
      rfl

theorem CommandLog.plain {ws : List (FrameCommand × Write Byte)} (h : CommandLog ws) :
    PlainLog (ws.map Prod.snd) := by
  intro w hw
  obtain ⟨write, hwrite, rfl⟩ := List.mem_map.mp hw
  exact plainFrame_of_bluetoothCommandText (h write hwrite)

/-- The writes of a worker of the serial line. -/
theorem Worker.Sound.commandLog {worker : Worker} (h : worker.Sound)
    (htransport : worker.context.transport = .bluetooth) : CommandLog worker.line := by
  intro write hwrite
  rcases List.mem_append.mp hwrite with hwrite | hwrite
  · have htext := h.texts write hwrite
    rw [htransport] at htext
    exact htext
  · split at hwrite
    · rename_i command w hcontrol
      obtain ⟨-, -, htext, -⟩ := h.sending command w hcontrol
      rw [htransport] at htext
      rw [List.mem_singleton.mp hwrite]
      exact htext
    all_goals exact absurd hwrite List.not_mem_nil

/-- The write that is going on does not count. -/
theorem Worker.Sound.wholeCommands {worker : Worker} (h : worker.Sound) :
    SmartGateway.wholeCommands worker.line = worker.written := by
  rw [SmartGateway.wholeCommands, Worker.line, Worker.written, List.filter_append,
    List.map_append]
  refine List.append_right_eq_self.mpr ?_
  split
  · rename_i command w hcontrol
    obtain ⟨-, -, -, hlt⟩ := h.sending command w hcontrol
    rw [List.filter_cons_of_neg (by simpa using Nat.ne_of_lt hlt)]
    rfl
  all_goals rfl

/-- All workers, in any run. -/
theorem gatewayThreads_sound (threadId : ℕ) (events : List ThreadEvent) :
    ∀ c ∈ ((gatewayThreads threadId).state events).connections, c.worker.Sound := by
  intro c hc
  obtain ⟨inputs, hgoes, -⟩ := gatewayThreads_goesBy threadId events
  obtain ⟨hsound, -⟩ := gatewayLedger_balance inputs
  exact hsound.workers _ (hgoes.workers.subset (List.mem_map_of_mem hc))

/-! ## Answers on the line -/

/-- An ACK or a NACK. -/
def UplinkMessage.isAnswer : UplinkMessage → Bool
  | .data _ => false
  | .ack _ | .nack _ => true

/-- The answers among the messages, over all connections. -/
def answersHanded (connections : List ConnectionLoop) : List UplinkMessage :=
  (connections.flatMap ConnectionLoop.messages).filter UplinkMessage.isAnswer

/-- The reply to a command, from a node with a fault or without. -/
def commandReply (answered : FrameCommand × Bool) : UplinkMessage :=
  ((commandRequest answered.1).reply answered.2).message

/-- What the callback of a connection is called with is heard on its line. -/
theorem ConnectionLoop.Gathers.messages_heard {c : ConnectionLoop} (h : c.Gathers)
    (hbluetooth : c.worker.context.transport = .bluetooth) :
    c.messages <+: heard c.received := by
  obtain ⟨fed, frames, ⟨rest, hreceived⟩, hdelivered, hhanded, -⟩ := h.frames hbluetooth
  have hframes : frames = framesOf fed :=
    hdelivered.unique (frameParserFeed_delivered waiting_init fed)
  have hmessages : c.messages = (framesOf fed).filterMap decodeFrame := by
    rw [messages, hhanded, hframes, List.filterMap_map]
    rfl
  rw [hmessages, heard, ← hreceived, framesOf, framesOf, frameParserFeed_append,
    List.filterMap_append]
  exact List.prefix_append _ _

/-- **The replies of the node's callback**, without a bound on their number: the fault may
come at any of them. -/
theorem exists_replied (failEvery : BitVec 32) (frames : List ParsedFrame) :
    ∃ replies : List (NodeRequest × Bool),
      replies.map Prod.fst = frames.filterMap nodeRequest ∧
      List.Forall₂ (fun (reply : NodeRequest × Bool) (replied : ParsedFrame × Bytes) =>
          (reply.1.reply reply.2).message.buildFrame frameMaxLen = .ok replied.2 ∧
            (reply.1.reply reply.2).message.sequence.toNat < 1000000)
        replies ((nodeCallback failEvery).log repliedTo frames) := by
  induction frames using List.reverseRecOn with
  | nil => exact ⟨[], rfl, .nil⟩
  | append_singleton frames frame ih =>
    obtain ⟨replies, hrequests, hreplied⟩ := ih
    rw [Machine.log_concat, List.filterMap_append, ← hrequests]
    generalize (nodeCallback failEvery).state frames = context
    have heq := onNodeFrame_eq context frame
    cases hrequest : nodeRequest frame with
    | none =>
      simp only [hrequest] at heq
      refine ⟨replies, by simp [hrequest], ?_⟩
      rw [repliedTo, heq, List.append_nil]
      exact hreplied
    | some request =>
      simp only [hrequest] at heq
      obtain ⟨text, htext⟩ := (request.reply_known context.faulty).built
      refine ⟨replies ++ [(request, context.faulty)], by simp [hrequest], ?_⟩
      have hone : repliedTo context frame = [(frame, text)] := by
        rw [repliedTo, heq]
        simp only [htext]
      rw [hone]
      exact List.rel_append hreplied (.cons ⟨htext, reply_sequence_lt hrequest _⟩ .nil)

/-- Answers are heard of the writes that answer. -/
theorem answers_sublist {ws : List (NodeCause × Write Byte)}
    (hreports : ∀ sequence now w, (NodeCause.report sequence now, w) ∈ ws →
      (heard w.text).filter UplinkMessage.isAnswer = []) :
    (((wholeTexts (ws.map Prod.snd)).flatMap heard).filter UplinkMessage.isAnswer).Sublist
      ((MockNode.repliesOf ws).flatMap fun replied => heard replied.2) := by
  induction ws with
  | nil => exact List.Sublist.refl _
  | cons write ws ih =>
    have hrest := ih fun sequence now w hmem => hreports sequence now w
      (List.mem_cons_of_mem _ hmem)
    have hone : (((wholeTexts [write.2]).flatMap heard).filter UplinkMessage.isAnswer).Sublist
        ((MockNode.repliesOf [write]).flatMap fun replied => heard replied.2) := by
      by_cases hwhole : write.2.Whole
      · obtain ⟨cause, w⟩ := write
        rw [wholeTexts_of_whole hwhole, List.flatMap_singleton]
        cases cause with
        | answer frame =>
          change List.Sublist _ (heard w.text ++ [])
          rw [List.append_nil]
          exact List.filter_sublist
        | report sequence now =>
          rw [hreports sequence now w List.mem_cons_self]
          exact List.nil_sublist _
      · rw [wholeTexts_of_not_whole hwhole]
        exact List.nil_sublist _
    rw [List.map_cons, ← List.singleton_append (x := write.2), wholeTexts_append,
      List.flatMap_append, List.filter_append, ← List.singleton_append (x := write) (l := ws),
      MockNode.repliesOf_append, List.flatMap_append]
    exact hone.append hrest

namespace MockNode

variable {failEvery : BitVec 32} {start : ℤ} {s : MockNode}

/-- Of its log, answers are heard of what it wrote to reply. -/
theorem Reports.answers_sublist (hreports : s.Reports start) :
    (((wholeTexts (s.writes.map Prod.snd)).flatMap heard).filter UplinkMessage.isAnswer).Sublist
      ((repliesOf s.writes).flatMap fun replied => heard replied.2) := by
  refine SmartGateway.answers_sublist fun sequence now w hmem => ?_
  -- a report is no answer
  have hreport : (⟨sequence, now, w.text⟩ : NodeReport) ∈ reportsOf s.writes :=
    List.mem_filterMap.mpr ⟨_, hmem, rfl⟩
  rw [heard, UplinkMessage.filterMap_framesOf (hreports.writes.texts _ hreport)]
  rfl

/-- **What is heard of its replies** answers the requests it has read, each. -/
theorem Listens.exists_replies (hlistens : s.Listens failEvery) :
    ∃ replies : List (NodeRequest × Bool),
      replies.map Prod.fst = s.reached.filterMap nodeRequest ∧
      ((repliesOf s.writes).flatMap fun replied => heard replied.2) =
        replies.map fun reply => (reply.1.reply reply.2).message := by
  obtain ⟨replies, hrequests, hreplied⟩ := exists_replied failEvery s.reached
  rw [← hlistens.replied] at hreplied
  refine ⟨replies, hrequests, ?_⟩
  generalize repliesOf s.writes = replied at hreplied
  clear hrequests
  induction hreplied with
  | nil => rfl
  | cons hbuilt _ ih =>
    rw [List.flatMap_cons, heard_built hbuilt.1 hbuilt.2, ih]
    rfl

end MockNode

/-! ## Both ends -/

/-- **Over the serial line every command is read and answered at most once**, whatever
breaks off at either end, is lost with a connection or comes while there is none. The node
reads commands that the worker wrote whole, each once and in their order; and the ACKs and
NACKs the worker's callbacks are called with, over all its connections, are the node's replies
to such commands, again each once and in their order: there is no answer without a command,
and none to the wrong one. They are of the replies the node wrote, with the faults it has by
its `fail_every`. -/
theorem serial_line (threadId : ℕ) (events : List ThreadEvent) (failEvery : BitVec 32)
    (start : ℤ) (nodeEvents : List NodeEvent) :
    let connections := ((gatewayThreads threadId).state events).bluetooth.connections
    let node := (mockNode failEvery start).state nodeEvents
    let written := connections.flatMap fun c => c.worker.written
    CameOf (connections.map fun c => out (c.worker.line.map Prod.snd)) node.received →
    PiecesOf (connections.map ConnectionLoop.received) (out (node.writes.map Prod.snd)) →
      (node.reached.filterMap nodeRequest).Sublist (written.map commandRequest) ∧
      (answersHanded connections).Sublist
        ((MockNode.repliesOf node.writes).flatMap fun replied => heard replied.2) ∧
      ∃ answered : List (FrameCommand × Bool), (answered.map Prod.fst).Sublist written ∧
        answersHanded connections = answered.map commandReply := by
  intro connections node written hdown hup
  obtain ⟨hgathers, -⟩ := gatewayThreads_gathers threadId events
  have hnone : Ascii.atSign ∉ ([] : Bytes) := List.not_mem_nil
  have hsound : ∀ c ∈ connections, c.worker.Sound :=
    fun c hc => gatewayThreads_sound threadId events c (List.mem_append_left _ hc)
  have hlistens : node.Listens failEvery := MockNode.listens failEvery start nodeEvents
  have hreports : node.Reports start := MockNode.reports failEvery start nodeEvents
  have hlog : ∀ c ∈ connections, CommandLog c.worker.line :=
    fun c hc => (hsound c hc).commandLog (hgathers c hc).2
  -- what the node has read
  have hrequests : (node.reached.filterMap nodeRequest).Sublist (written.map commandRequest) := by
    have hlogs : CameOf ((connections.map fun c => c.worker.line.map Prod.snd).map out)
        node.received := by
      rw [List.map_map]
      exact hdown
    obtain ⟨vs, hreceived, hvs, hsub⟩ := hlogs.exists_log fun ws hws => by
      obtain ⟨c, hc, rfl⟩ := List.mem_map.mp hws
      exact (hlog c hc).plain
    obtain ⟨fed, hfed, hreached⟩ := hlistens.fed
    have hreaches : node.reached <+: framesOf node.received := by
      rw [hfed, framesOf, frameParserFeed_append, hreached]
      exact List.prefix_append _ _
    have hframes : framesOf node.received = (wholeTexts vs).flatMap framesOf := by
      rw [hreceived]
      exact framesOf_log hnone hvs
    refine (hreaches.sublist.filterMap nodeRequest).trans ?_
    rw [hframes]
    refine ((hsub.flatMap framesOf).filterMap nodeRequest).trans ?_
    have hall : (((connections.map fun c => c.worker.line.map Prod.snd).flatMap
        wholeTexts).flatMap framesOf).filterMap nodeRequest = written.map commandRequest := by
      rw [List.flatMap_map, List.flatMap_assoc, List.filterMap_flatMap, List.map_flatMap]
      refine List.flatMap_congr fun c hc => ?_
      rw [(hlog c hc).requests, (hsound c hc).wholeCommands]
    rw [hall]
  -- and what is heard of its replies
  have hhanded : (answersHanded connections).Sublist
      ((MockNode.repliesOf node.writes).flatMap fun replied => heard replied.2) := by
    have hplain : PlainLog (node.writes.map Prod.snd) := by
      intro w hw
      obtain ⟨write, hwrite, rfl⟩ := List.mem_map.mp hw
      obtain ⟨m, hm⟩ := MockNode.exists_message_of_write hlistens hreports hwrite
      exact ⟨_, (UplinkMessage.built_of_buildFrame hm).plain⟩
    have hpieces := hup.framesOf_sublist (List.nil_append _).symm hnone hplain
    have hmessages : (connections.flatMap ConnectionLoop.messages).Sublist
        ((connections.map ConnectionLoop.received).flatMap heard) := by
      rw [List.flatMap_map]
      exact List.Sublist.flatMap_right _ fun c hc =>
        ((hgathers c hc).1.messages_heard (hgathers c hc).2).sublist
    have hheard : ((connections.map ConnectionLoop.received).flatMap heard).Sublist
        ((wholeTexts (node.writes.map Prod.snd)).flatMap heard) := by
      have hdecoded := hpieces.filterMap decodeFrame
      rw [List.filterMap_flatMap, List.filterMap_flatMap] at hdecoded
      exact hdecoded
    exact ((hmessages.trans hheard).filter _).trans hreports.answers_sublist
  refine ⟨hrequests, hhanded, ?_⟩
  obtain ⟨replies, hfirst, hheard⟩ := hlistens.exists_replies
  rw [hheard] at hhanded
  obtain ⟨replies', hsub, hanswered⟩ := List.sublist_map_iff.mp hhanded
  have hcommands : (replies'.map Prod.fst).Sublist (written.map commandRequest) := by
    refine (hsub.map Prod.fst).trans ?_
    rw [hfirst]
    exact hrequests
  obtain ⟨answered, hwritten, rfl⟩ := Lists.exists_zip_sublist hcommands
  refine ⟨answered, hwritten, ?_⟩
  rw [hanswered, List.map_map]
  rfl

/-- A node makes itself known, is sent one command, and acknowledges it. -/
def oneCommandRun : List ThreadEvent :=
  [.opening true (some 3), .bluetooth (.turn true), .bluetooth (.poll (.ready true false)),
    .bluetooth (.read (.data Ascii.atSign
      (ascii "1,NODE01,000000,DATA,DEV=1,T=250,H=500,P=1013*60A3\r\n"))),
    .bluetooth (.called 0),
    .line (ascii "\x7b\"node\":\"NODE01\",\"sender\":\"GATEWAY\",\"seq\":7,\"type\":\"CMD\"," ++
      ascii "\"fields\":\x7b\"LED\":\"1\"\x7d\x7d"),
    .bluetooth (.turn true), .bluetooth (.send (.sent 100)),
    .bluetooth (.poll (.ready true false)),
    .bluetooth (.read (.data Ascii.atSign (ascii "1,NODE01,000007,ACK,LED=1*1217\r\n")))]

/-- The same from the node's side. -/
def oneCommandNodeRun : List NodeEvent :=
  [.turn true, .wait false, .clock 0, .write (.wrote 200), .turn true, .wait true,
    .read (ascii "@1,GATEWAY,000007,CMD,LED=1*45DA\r\n"), .write (.wrote 200)]

/-- Of these the answer is that to the one command. -/
theorem serial_line_oneCommand :
    let connections := ((gatewayThreads 0).state oneCommandRun).bluetooth.connections
    ∃ answered : List (FrameCommand × Bool),
      (answered.map Prod.fst).Sublist (connections.flatMap fun c => c.worker.written) ∧
        answersHanded connections = answered.map commandReply ∧ answered.length = 1 := by
  intro connections
  have hdown : connections.map (fun c => out (c.worker.line.map Prod.snd)) =
      [((mockNode 0 0).state oneCommandNodeRun).received] := by decide +kernel
  have hup : connections.map ConnectionLoop.received =
      [out (((mockNode 0 0).state oneCommandNodeRun).writes.map Prod.snd)] := by decide +kernel
  have hone : (answersHanded connections).length = 1 := by decide +kernel
  obtain ⟨-, -, answered, hwritten, hanswers⟩ := serial_line 0 oneCommandRun 0 0 oneCommandNodeRun
    (by rw [hdown]; exact .whole _) (by rw [hup]; exact .whole _)
  refine ⟨answered, hwritten, hanswers, ?_⟩
  rw [hanswers, List.length_map] at hone
  exact hone

end SmartGateway
