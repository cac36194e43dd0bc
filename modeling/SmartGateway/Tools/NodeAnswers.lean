import SmartGateway.Gateway.UplinkFrames
import SmartGateway.Tools.MockNode

/-!
# What the mock node answers

The node as it is meant: a device with one light, that carries out the commands it
understands except for every `n`-th, and says of each command what became of it. Against
this: whatever the bytes come in and however its own writes go, the node answers the
commands that stand in the stream, each once and in their order, and its light is as the
last command left it that it has acknowledged.
-/

namespace SmartGateway

open WriteLog Numeral

/-! ## Requests and replies -/

/-- What a command frame asks of the node. -/
inductive NodeRequest
  | undecodable
  | unsupported (sequence : UInt32)
  | invalid (sequence : UInt32)
  | legal (sequence : UInt32) (led : Bool)
deriving DecidableEq

/-- A command the node understands. -/
def NodeRequest.isLegal : NodeRequest → Bool
  | .legal .. => true
  | .undecodable | .unsupported _ | .invalid _ => false

/-- What the node says of a command. -/
inductive NodeReply
  | done (sequence : UInt32) (led : Bool)
  | refused (sequence : UInt32) (error : CharBuf 32)
deriving DecidableEq

/-- The request of a frame, if it is a command. -/
def nodeRequest (frame : ParsedFrame) : Option NodeRequest :=
  match frameGetMessageType frame with
  | .cmd =>
    match frameDecodeCommand frame with
    | none => some .undecodable
    | some cmd =>
      match frameFieldsFind cmd.fields.1 (cstr (ascii "LED")) with
      | none => some (.unsupported cmd.sequence)
      | some ledText =>
        if atoiLong ledText.toCStr = 0 then some (.legal cmd.sequence false)
        else if atoiLong ledText.toCStr = 1 then some (.legal cmd.sequence true)
        else some (.invalid cmd.sequence)
  | .data | .ack | .nack | .unknown => none

/-- The reply to a request, where the node has a fault or has none. -/
def NodeRequest.reply (faulty : Bool) : NodeRequest → NodeReply
  | .undecodable => .refused 0 (.lit 32 "bad_cmd")
  | .unsupported sequence => .refused sequence (.lit 32 "unsupported_cmd")
  | .invalid sequence => .refused sequence (.lit 32 "invalid_led")
  | .legal sequence led =>
    if faulty then .refused sequence (.lit 32 "sim_fault") else .done sequence led

/-- The light as an `int`. -/
def ledInt (led : Bool) : BitVec 32 := if led then 1 else 0

/-- A reply as the message it is sent as. -/
def NodeReply.message : NodeReply → UplinkMessage
  | .done sequence led =>
    .ack ⟨.lit 32 "NODE01", sequence, .single ⟨nodeLedKey, intText (ledInt led)⟩⟩
  | .refused sequence error => .nack ⟨.lit 32 "NODE01", sequence, error⟩

/-- The light a reply tells of. -/
def NodeReply.led? : NodeReply → Option Bool
  | .done _ led => some led
  | .refused .. => none

/-- The commands the node understands among some requests. -/
def legalCount (requests : List NodeRequest) : ℕ := requests.countP NodeRequest.isLegal

/-- The `n`-th command the node understands fails, if `n` is a multiple of `every`. -/
def faultAt (every n : ℕ) : Bool := decide (0 < every ∧ every ∣ n)

/-- The replies to the requests that have come. -/
def nodeReplies (every : ℕ) (requests : List NodeRequest) : List NodeReply :=
  requests.mapIdx fun i request =>
    request.reply (faultAt every (legalCount (requests.take (i + 1))))

/-- The light after some replies. -/
def ledAfter (replies : List NodeReply) : Bool :=
  (replies.filterMap NodeReply.led?).getLast?.getD false

theorem nodeReplies_concat (every : ℕ) (requests : List NodeRequest) (request : NodeRequest) :
    nodeReplies every (requests ++ [request]) =
      nodeReplies every requests ++
        [request.reply (faultAt every (legalCount (requests ++ [request])))] := by
  have hfull : (requests ++ [request]).take (requests.length + 1) = requests ++ [request] :=
    List.take_of_length_le (by simp)
  rw [nodeReplies, List.mapIdx_concat, hfull]
  refine congrArg (· ++ _) (List.mapIdx_eq_mapIdx_iff.mpr fun i hi => ?_)
  rw [List.take_append_of_le_length hi]

theorem legalCount_concat (requests : List NodeRequest) (request : NodeRequest) :
    legalCount (requests ++ [request]) =
      legalCount requests + if request.isLegal then 1 else 0 := by
  rw [legalCount, List.countP_append, List.countP_singleton]
  rfl

theorem ledAfter_concat (replies : List NodeReply) (reply : NodeReply) :
    ledAfter (replies ++ [reply]) = reply.led?.getD (ledAfter replies) := by
  rw [ledAfter, List.filterMap_append]
  cases hled : reply.led? with
  | none => simp [hled, ledAfter]
  | some led => simp [hled]

/-! ## The callback -/

/-- The errors the node sends. -/
def nodeErrors : List (CharBuf 32) :=
  [.lit 32 "bad_cmd", .lit 32 "unsupported_cmd", .lit 32 "invalid_led", .lit 32 "sim_fault"]

/-- A reply the node can come to: an error is one of those. -/
def NodeReply.Known : NodeReply → Prop
  | .done .. => True
  | .refused _ error => error ∈ nodeErrors

theorem NodeRequest.reply_known (faulty : Bool) (request : NodeRequest) :
    (request.reply faulty).Known := by
  cases request with
  | undecodable | unsupported sequence | invalid sequence =>
    simp [reply, NodeReply.Known, nodeErrors]
  | legal sequence led =>
    cases faulty with
    | false => trivial
    | true =>
      change CharBuf.lit 32 "sim_fault" ∈ nodeErrors
      simp [nodeErrors]

theorem fieldOk_led (led : Bool) : FieldOk ⟨nodeLedKey, intText (ledInt led)⟩ := by
  cases led <;> exact ⟨by decide +kernel, by decide +kernel⟩

/-- **Every reply can be built.** -/
theorem NodeReply.Known.built {reply : NodeReply} (h : reply.Known) :
    ∃ text, reply.message.buildFrame frameMaxLen = .ok text := by
  have hid : nodeIdIsValid (CharBuf.lit 32 "NODE01").toCStr.bytes = true := by decide +kernel
  cases reply with
  | done sequence led =>
    refine buildKvFrame_ok sequence hid (fun f hf => ?_) (FrameFields.single _).2 ?_
    · rw [List.mem_singleton.mp hf]
      exact fieldOk_led led
    · cases led <;> decide +kernel
  | refused sequence error =>
    have herror : ∀ error ∈ nodeErrors, nodeIdIsValid error.toCStr.bytes = true ∧
        (CharBuf.lit 32 "NODE01").toCStr.bytes.length + error.toCStr.bytes.length + 27 <
          frameMaxLen := by decide +kernel
    exact frameBuildNack_ok sequence hid (herror error h).1 (herror error h).2

/-- The node has a fault with the next command it understands. -/
def NodeContext.faulty (context : NodeContext) : Bool :=
  decide (0 < context.failEvery.toInt ∧
    (context.failCounter + 1).srem context.failEvery = 0)

/-- The context after a request. -/
def NodeContext.after (context : NodeContext) : NodeRequest → NodeContext
  | .undecodable | .unsupported _ | .invalid _ => context
  | .legal _ led =>
    { context with
      failCounter := context.failCounter + 1
      ledState := if context.faulty then context.ledState else ledInt led }

/-- **The callback answers the request of the frame**, and no other frame. -/
theorem onNodeFrame_eq (context : NodeContext) (frame : ParsedFrame) :
    onNodeFrame context frame =
      match nodeRequest frame with
      | none => (context, none)
      | some request =>
        (context.after request,
          some ((request.reply context.faulty).message.buildFrame frameMaxLen)) := by
  have htexts : (CharBuf.lit 32 "NODE01").toCStr = nodeName ∧
      (CharBuf.lit 32 "bad_cmd").toCStr = cstr (ascii "bad_cmd") ∧
      (CharBuf.lit 32 "unsupported_cmd").toCStr = cstr (ascii "unsupported_cmd") ∧
      (CharBuf.lit 32 "invalid_led").toCStr = cstr (ascii "invalid_led") ∧
      (CharBuf.lit 32 "sim_fault").toCStr = cstr (ascii "sim_fault") := by decide +kernel
  obtain ⟨hname, hbad, hunsupported, hinvalid, hfault⟩ := htexts
  unfold onNodeFrame nodeRequest
  cases frameGetMessageType frame with
  | data | ack | nack | unknown => rfl
  | cmd =>
    dsimp only
    cases frameDecodeCommand frame with
    | none =>
      simp only [NodeContext.after, NodeRequest.reply, NodeReply.message,
        UplinkMessage.buildFrame, hname, hbad]
    | some cmd =>
      dsimp only
      cases frameFieldsFind cmd.fields.1 (cstr (ascii "LED")) with
      | none =>
        simp only [NodeContext.after, NodeRequest.reply, NodeReply.message,
          UplinkMessage.buildFrame, hname, hunsupported]
      | some ledText =>
        dsimp only
        generalize atoiLong ledText.toCStr = value
        by_cases hvalue : value = 0 ∨ value = 1
        swap
        · rw [not_or] at hvalue
          simp only [if_pos hvalue, if_neg hvalue.1, if_neg hvalue.2, NodeContext.after,
            NodeRequest.reply, NodeReply.message, UplinkMessage.buildFrame, hname, hinvalid]
        · -- with a fault or without one
          have hlegal : ¬ (value ≠ 0 ∧ value ≠ 1) := by
            rintro ⟨hzero, hone⟩
            exact hvalue.elim hzero hone
          have hrequest : (if value = 0 then some (NodeRequest.legal cmd.sequence false)
              else if value = 1 then some (.legal cmd.sequence true)
              else some (.invalid cmd.sequence)) =
                some (.legal cmd.sequence (value = 1)) := by
            rcases hvalue with rfl | rfl <;> rfl
          have hled : ledInt (value = 1) = value := by
            rcases hvalue with rfl | rfl <;> rfl
          rw [if_neg hlegal, hrequest]
          by_cases hfaulty : 0 < context.failEvery.toInt ∧
              (context.failCounter + 1).srem context.failEvery = 0
          · have htrue : context.faulty = true := decide_eq_true hfaulty
            rw [if_pos hfaulty]
            simp only [NodeContext.after, NodeRequest.reply, htrue, if_true, NodeReply.message,
              UplinkMessage.buildFrame, hname, hfault]
          · have hfalse : context.faulty = false := decide_eq_false hfaulty
            rw [if_neg hfaulty]
            simp only [NodeContext.after, NodeRequest.reply, hfalse, Bool.false_eq_true, if_false,
              NodeReply.message, UplinkMessage.buildFrame, hname, hled, FrameFields.single]

/-! ## From frame to frame -/

/-- The callback over the frames it is called with. -/
def nodeCallback (failEvery : BitVec 32) :
    Machine NodeContext ParsedFrame (Option (Except FrameError Bytes)) where
  init := ⟨0, failEvery, 0⟩
  step := onNodeFrame

/-- The reply to a frame, as the text that is sent. -/
def repliedTo (context : NodeContext) (frame : ParsedFrame) : List (ParsedFrame × Bytes) :=
  match (onNodeFrame context frame).2 with
  | some (.ok text) => [(frame, text)]
  | some (.error _) | none => []

/-- As long as the counter has not run over, the fault comes where it is meant to. -/
theorem faulty_eq {context : NodeContext} {n : ℕ} (hcounter : context.failCounter.toNat = n)
    (hn : n + 1 < 2 ^ 31) :
    context.faulty = faultAt context.failEvery.toInt.toNat (n + 1) := by
  have hnat : (context.failCounter + 1).toNat = n + 1 := by
    rw [BitVec.toNat_add, hcounter]
    exact Nat.mod_eq_of_lt (show n + 1 < 2 ^ 32 by omega)
  have hint : (context.failCounter + 1).toInt = ((n + 1 : ℕ) : ℤ) := by
    rw [BitVec.toInt_eq_toNat_of_lt (by rw [hnat]; omega), hnat]
  have hzero : ∀ x : BitVec 32, x = 0 ↔ x.toInt = 0 := fun x =>
    ⟨fun h => by rw [h]; rfl, fun h => BitVec.eq_of_toInt_eq h⟩
  rw [NodeContext.faulty, faultAt, decide_eq_decide, hzero, BitVec.toInt_srem, hint]
  refine ⟨fun ⟨hpos, hmod⟩ => ⟨by omega, ?_⟩, fun ⟨hpos, hdvd⟩ => ⟨by omega, ?_⟩⟩
  · have hdvd := Int.dvd_of_tmod_eq_zero hmod
    rw [← Int.toNat_of_nonneg hpos.le] at hdvd
    exact Int.natCast_dvd_natCast.mp hdvd
  · refine Int.tmod_eq_zero_of_dvd ?_
    rw [← Int.toNat_of_nonneg (by omega : 0 ≤ context.failEvery.toInt)]
    exact Int.natCast_dvd_natCast.mpr hdvd

/-- What holds of the callback when it has been called with some frames. -/
structure CalledWith (failEvery : BitVec 32) (frames : List ParsedFrame) (context : NodeContext)
    (replied : List (ParsedFrame × Bytes)) : Prop where
  every : context.failEvery = failEvery
  counter : context.failCounter.toNat = legalCount (frames.filterMap nodeRequest)
  led : context.ledState =
    ledInt (ledAfter (nodeReplies failEvery.toInt.toNat (frames.filterMap nodeRequest)))
  answered : replied.map Prod.fst = frames.filter fun frame => (nodeRequest frame).isSome
  texts : List.Forall₂ (fun (reply : NodeReply) (text : Bytes) =>
      reply.message.buildFrame frameMaxLen = .ok text)
    (nodeReplies failEvery.toInt.toNat (frames.filterMap nodeRequest)) (replied.map Prod.snd)

theorem CalledWith.step {failEvery : BitVec 32} {frames : List ParsedFrame}
    {context : NodeContext} {replied : List (ParsedFrame × Bytes)}
    (h : CalledWith failEvery frames context replied) (frame : ParsedFrame)
    (hcount : legalCount ((frames ++ [frame]).filterMap nodeRequest) < 2 ^ 31) :
    CalledWith failEvery (frames ++ [frame]) (onNodeFrame context frame).1
      (replied ++ repliedTo context frame) := by
  have heq := onNodeFrame_eq context frame
  rw [List.filterMap_append] at hcount
  cases hrequest : nodeRequest frame with
  | none =>
    -- no command: nothing is sent, and nothing changes
    simp only [hrequest] at heq
    have hsame : (frames ++ [frame]).filterMap nodeRequest = frames.filterMap nodeRequest := by
      rw [List.filterMap_append]
      simp [hrequest]
    have hnone : repliedTo context frame = [] := by
      rw [repliedTo, heq]
    rw [heq, hnone, List.append_nil]
    refine ⟨h.every, by rw [hsame]; exact h.counter, by rw [hsame]; exact h.led, ?_,
      by rw [hsame]; exact h.texts⟩
    rw [h.answered, List.filter_append]
    simp [hrequest]
  | some request =>
    simp only [hrequest] at heq
    have hmore : (frames ++ [frame]).filterMap nodeRequest =
        frames.filterMap nodeRequest ++ [request] := by
      rw [List.filterMap_append]
      simp [hrequest]
    have hsingle : [frame].filterMap nodeRequest = [request] := by simp [hrequest]
    rw [hsingle, legalCount_concat] at hcount
    obtain ⟨text, htext⟩ := (request.reply_known context.faulty).built
    have hsome : repliedTo context frame = [(frame, text)] := by
      rw [repliedTo, heq]
      simp only [htext]
    -- whether there is a fault matters for a legal command alone
    have hreply : request.reply context.faulty = request.reply (faultAt failEvery.toInt.toNat
        (legalCount (frames.filterMap nodeRequest ++ [request]))) := by
      cases request with
      | undecodable | unsupported sequence | invalid sequence => rfl
      | legal sequence led =>
        have hlegal : (NodeRequest.legal sequence led).isLegal = true := rfl
        rw [hlegal, if_pos rfl] at hcount
        rw [legalCount_concat, hlegal, if_pos rfl, ← h.every, faulty_eq h.counter hcount]
    rw [heq, hsome]
    refine ⟨?_, ?_, ?_, ?_, ?_⟩
    · rw [← h.every]
      cases request <;> rfl
    · rw [hmore, legalCount_concat, ← h.counter]
      cases request with
      | undecodable | unsupported sequence | invalid sequence => rfl
      | legal sequence led =>
        rw [h.counter.symm] at hcount
        have hlegal : (NodeRequest.legal sequence led).isLegal = true := rfl
        rw [hlegal, if_pos rfl] at hcount ⊢
        change (context.failCounter + 1).toNat = _
        rw [BitVec.toNat_add]
        exact Nat.mod_eq_of_lt (show context.failCounter.toNat + 1 < 2 ^ 32 by omega)
    · rw [hmore, nodeReplies_concat, ← hreply, ledAfter_concat]
      cases request with
      | undecodable | unsupported sequence | invalid sequence => exact h.led
      | legal sequence led =>
        cases hfaulty : context.faulty with
        | true =>
          change (if context.faulty then context.ledState else ledInt led) = _
          rw [hfaulty]
          exact h.led
        | false =>
          change (if context.faulty then context.ledState else ledInt led) = _
          rw [hfaulty]
          rfl
    · rw [List.map_append, h.answered, List.filter_append]
      simp [hrequest]
    · rw [hmore, nodeReplies_concat, List.map_append, ← hreply]
      exact List.rel_append h.texts (.cons htext .nil)

theorem nodeCallback_calledWith (failEvery : BitVec 32) (frames : List ParsedFrame)
    (hcount : legalCount (frames.filterMap nodeRequest) < 2 ^ 31) :
    CalledWith failEvery frames ((nodeCallback failEvery).state frames)
      ((nodeCallback failEvery).log repliedTo frames) := by
  induction frames using List.reverseRecOn with
  | nil => exact ⟨rfl, rfl, rfl, rfl, .nil⟩
  | append_singleton frames frame ih =>
    rw [Machine.state_concat, Machine.log_concat]
    have hle : legalCount (frames.filterMap nodeRequest) ≤
        legalCount ((frames ++ [frame]).filterMap nodeRequest) := by
      rw [List.filterMap_append]
      exact (List.sublist_append_left _ _).countP_le
    exact (ih (hle.trans_lt hcount)).step frame hcount

/-! ## The node in its loop -/

namespace MockNode

variable {failEvery : BitVec 32} {start : ℤ} {s : MockNode}

/-- The write that is going on. -/
def writing (s : MockNode) : List (NodeCause × Write Byte) :=
  match s.control with
  | .answering frame w _ => [(.answer frame, w)]
  | .reporting now w => [(.report s.sequence now, w)]
  | .head | .waiting | .reading | .asking | .stopped _ => []

/-- All writes so far. -/
def writes (s : MockNode) : List (NodeCause × Write Byte) := s.wrote ++ s.writing

/-- The bytes read and not yet fed. -/
def rest (s : MockNode) : Bytes :=
  match s.control with
  | .answering _ _ rest => rest
  | .head | .waiting | .reading | .asking | .reporting .. | .stopped _ => []

/-- The frames answered, each with the text of the reply. -/
def repliesOf (ws : List (NodeCause × Write Byte)) : List (ParsedFrame × Bytes) :=
  ws.filterMap fun write =>
    match write.1 with
    | .answer frame => some (frame, write.2.text)
    | .report .. => none

theorem repliesOf_append (ws vs : List (NodeCause × Write Byte)) :
    repliesOf (ws ++ vs) = repliesOf ws ++ repliesOf vs := List.filterMap_append

/-- What the node has made of the line. -/
structure Listens (failEvery : BitVec 32) (s : MockNode) : Prop where
  fed : ∃ fed, s.received = fed ++ s.rest ∧
    frameParserFeed frameParserInit fed = (s.parser, s.reached)
  context : s.context = (nodeCallback failEvery).state s.reached
  replied : repliesOf s.writes = (nodeCallback failEvery).log repliedTo s.reached

/-- Bytes are fed, with nothing being written. -/
theorem feed_listens {fed data : Bytes} (hreceived : s.received = fed ++ data)
    (hfed : frameParserFeed frameParserInit fed = (s.parser, s.reached))
    (hcontext : s.context = (nodeCallback failEvery).state s.reached)
    (hreplied : repliesOf s.wrote = (nodeCallback failEvery).log repliedTo s.reached) :
    (s.feed data).Listens failEvery := by
  induction data generalizing s fed with
  | nil =>
    refine ⟨⟨fed, hreceived, hfed⟩, hcontext, ?_⟩
    rw [feed, writes, writing, List.append_nil]
    exact hreplied
  | cons ch data ih =>
    have hreceived' : s.received = (fed ++ [ch]) ++ data := by
      rw [hreceived, List.append_assoc]
      rfl
    have hfed' : frameParserFeed frameParserInit (fed ++ [ch]) =
        ((frameParserByte s.parser ch).1,
          s.reached ++ (frameParserByte s.parser ch).2.toList) := by
      rw [frameParserFeed_append, hfed, frameParserFeed_singleton]
    rw [feed]
    generalize frameParserByte s.parser ch = byte at hfed' ⊢
    obtain ⟨parser, frame⟩ := byte
    cases frame with
    | none =>
      rw [Option.toList_none, List.append_nil] at hfed'
      exact ih (s := { s with parser := parser }) hreceived' hfed' hcontext hreplied
    | some frame =>
      -- the callback is called, and where it replies the feeding stops for the write
      have hlog : (nodeCallback failEvery).log repliedTo (s.reached ++ [frame]) =
          repliesOf s.wrote ++ repliedTo s.context frame := by
        rw [Machine.log_concat, hreplied, hcontext]
      have hstate : (onNodeFrame s.context frame).1 =
          (nodeCallback failEvery).state (s.reached ++ [frame]) := by
        rw [Machine.state_concat, ← hcontext]
        rfl
      dsimp only
      rw [repliedTo] at hlog
      generalize onNodeFrame s.context frame = called at hlog hstate
      obtain ⟨context, reply⟩ := called
      rcases reply with - | error | text
      · rw [List.append_nil] at hlog
        exact ih hreceived' hfed' hstate hlog.symm
      · rw [List.append_nil] at hlog
        exact ih hreceived' hfed' hstate hlog.symm
      · refine ⟨⟨fed ++ [ch], hreceived', hfed'⟩, hstate, ?_⟩
        rw [hlog, writes, writing, repliesOf_append]
        rfl

/-- Nothing is being fed. -/
theorem Listens.idle (h : s.Listens failEvery) (hrest : s.rest = []) :
    frameParserFeed frameParserInit s.received = (s.parser, s.reached) := by
  obtain ⟨fed, hreceived, hfed⟩ := h.fed
  rw [hreceived, hrest, List.append_nil]
  exact hfed

theorem writeAllTurn_text {w w' : Write Byte} {result : NodeWrite}
    (h : writeAllTurn w result = some w') : w'.text = w.text := by
  cases result with
  | wrote n => rw [← Option.some.inj h, Write.advance_text]
  | interrupted => rw [← Option.some.inj h]
  | failed => exact absurd h (by simp [writeAllTurn])

/-- A write of a reply that has ended, and what is left of the bytes. -/
theorem Listens.ended {frame : ParsedFrame} {w w' : Write Byte} {rest : Bytes}
    (h : s.Listens failEvery) (hcontrol : s.control = .answering frame w rest)
    (htext : w'.text = w.text) : ((s.ended (.answer frame) w').feed rest).Listens failEvery := by
  obtain ⟨fed, hreceived, hfed⟩ := h.fed
  have hreplied := h.replied
  rw [writes, writing, hcontrol, repliesOf_append] at hreplied
  rw [MockNode.rest, hcontrol] at hreceived
  refine feed_listens (s := s.ended (.answer frame) w') hreceived hfed h.context ?_
  rw [MockNode.ended, repliesOf_append]
  refine Eq.trans ?_ hreplied
  simp only [repliesOf, List.filterMap_cons, List.filterMap_nil, htext]

/-- At another place of the loop, with no reply going on or ended. -/
theorem Listens.at' (h : s.Listens failEvery) {s' : MockNode} (hrest : s.rest = [])
    (hrest' : s'.rest = []) (hreceived : s'.received = s.received) (hparser : s'.parser = s.parser)
    (hreached : s'.reached = s.reached) (hcontext : s'.context = s.context)
    (hreplied : repliesOf s'.writes = repliesOf s.writes) : s'.Listens failEvery := by
  refine ⟨⟨s.received, ?_, ?_⟩, ?_, ?_⟩
  · rw [hrest', hreceived, List.append_nil]
  · rw [hparser, hreached, h.idle hrest]
  · rw [hcontext, hreached, h.context]
  · rw [hreplied, hreached, h.replied]

/-- Where no reply is being written. -/
def Quiet (s : MockNode) : Prop := s.rest = [] ∧ repliesOf s.writing = []

theorem Quiet.repliesOf_writes (h : s.Quiet) : repliesOf s.writes = repliesOf s.wrote := by
  rw [writes, repliesOf_append, h.2, List.append_nil]

theorem repliesOf_concat_report (ws : List (NodeCause × Write Byte)) (sequence : UInt32) (now : ℤ)
    (w : Write Byte) : repliesOf (ws ++ [(.report sequence now, w)]) = repliesOf ws := by
  rw [repliesOf_append]
  exact List.append_nil _

theorem Listens.reports (h : s.Listens failEvery) (hquiet : s.Quiet) (now : ℤ) (w : Write Byte) :
    (s.report now w).Listens failEvery := by
  rw [report]
  split
  · refine h.at' hquiet.1 rfl rfl rfl rfl rfl ?_
    rw [hquiet.repliesOf_writes, writes, writing, List.append_nil]
    exact repliesOf_concat_report _ _ _ _
  · refine h.at' hquiet.1 rfl rfl rfl rfl rfl ?_
    rw [hquiet.repliesOf_writes, writes, writing]
    exact repliesOf_concat_report _ _ _ _

/-- A control that neither feeds nor writes. -/
theorem Listens.goes (h : s.Listens failEvery) (hquiet : s.Quiet) {control : NodeControl}
    (hcontrol : ({ s with control := control } : MockNode).Quiet) :
    ({ s with control := control } : MockNode).Listens failEvery := by
  refine h.at' hquiet.1 hcontrol.1 rfl rfl rfl rfl ?_
  rw [hquiet.repliesOf_writes, hcontrol.repliesOf_writes]

/-- **One call keeps it.** -/
theorem Listens.step (h : s.Listens failEvery) (e : NodeEvent) :
    (mockNodeStep s e).Listens failEvery := by
  unfold mockNodeStep
  split
  · rename_i running hcontrol
    have hquiet : s.Quiet := by rw [Quiet, MockNode.rest, writing, hcontrol]; exact ⟨rfl, rfl⟩
    cases running with
    | true => exact h.goes hquiet ⟨rfl, rfl⟩
    | false => exact h.goes hquiet ⟨rfl, rfl⟩
  · rename_i readable hcontrol
    have hquiet : s.Quiet := by rw [Quiet, MockNode.rest, writing, hcontrol]; exact ⟨rfl, rfl⟩
    cases readable with
    | true => exact h.goes hquiet ⟨rfl, rfl⟩
    | false => exact h.goes hquiet ⟨rfl, rfl⟩
  · rename_i bytes hcontrol
    have hquiet : s.Quiet := by rw [Quiet, MockNode.rest, writing, hcontrol]; exact ⟨rfl, rfl⟩
    have hmore : s.received ++ bytes.take nodeReadBufferSize =
        s.received ++ bytes.take nodeReadBufferSize := rfl
    refine feed_listens hmore (h.idle hquiet.1) h.context ?_
    exact hquiet.repliesOf_writes.symm.trans h.replied
  · rename_i frame w rest result hcontrol
    split
    · rename_i w' hturn
      have htext := writeAllTurn_text hturn
      rw [answer]
      split
      · exact h.ended hcontrol htext
      · obtain ⟨fed, hreceived, hfed⟩ := h.fed
        refine ⟨⟨fed, ?_, hfed⟩, h.context, ?_⟩
        · rw [MockNode.rest, hcontrol] at hreceived
          exact hreceived
        · have hreplied := h.replied
          rw [writes, writing, hcontrol] at hreplied
          rw [← hreplied, writes, writing, repliesOf_append, repliesOf_append]
          simp only [repliesOf, List.filterMap_cons, List.filterMap_nil, htext]
    · exact h.ended hcontrol rfl
  · rename_i now hcontrol
    have hquiet : s.Quiet := by rw [Quiet, MockNode.rest, writing, hcontrol]; exact ⟨rfl, rfl⟩
    rw [clocked]
    split
    · exact h.goes hquiet ⟨rfl, rfl⟩
    split
    · exact h.goes hquiet ⟨rfl, rfl⟩
    · exact h.reports hquiet _ _
  · rename_i now w result hcontrol
    have hquiet : s.Quiet := by rw [Quiet, MockNode.rest, writing, hcontrol]; exact ⟨rfl, rfl⟩
    split
    · exact h.reports hquiet _ _
    · refine h.at' hquiet.1 rfl rfl rfl rfl rfl ?_
      rw [hquiet.repliesOf_writes, writes, writing, List.append_nil]
      exact repliesOf_concat_report _ _ _ _
  · exact h

theorem listens (failEvery : BitVec 32) (start : ℤ) (events : List NodeEvent) :
    ((mockNode failEvery start).state events).Listens failEvery :=
  (mockNode failEvery start).run_induction (P := fun _ s => s.Listens failEvery)
    ⟨⟨[], rfl, rfl⟩, rfl, rfl⟩ (fun _ _ e h => h.step e) events

end MockNode

/-! ## What is heard of it -/

/-- What the gateway decodes of a line, from its start. -/
def heard (line : Bytes) : List UplinkMessage := (framesOf line).filterMap decodeFrame

theorem heard_built {m : UplinkMessage} {text : Bytes}
    (h : m.buildFrame frameMaxLen = .ok text) (hsix : m.sequence.toNat < 1000000) :
    heard text = [m] := by
  rw [heard, UplinkMessage.filterMap_framesOf h, UplinkMessage.sixDigits_of_lt hsix]

/-- A reply carries the sequence of the command, which has six digits. -/
theorem reply_sequence_lt {frame : ParsedFrame} {request : NodeRequest}
    (h : nodeRequest frame = some request) (faulty : Bool) :
    (request.reply faulty).message.sequence.toNat < 1000000 := by
  unfold nodeRequest at h
  cases htype : frameGetMessageType frame with
  | data | ack | nack | unknown =>
    rw [htype] at h
    exact absurd h (by simp)
  | cmd =>
    simp only [htype] at h
    split at h
    · rw [← Option.some.inj h]
      exact Nat.zero_lt_succ _
    rename_i cmd hcmd
    have hlt := sequence_lt_of_decodeCommand hcmd
    split at h
    · rw [← Option.some.inj h]
      exact hlt
    split at h
    · rw [← Option.some.inj h]
      cases faulty <;> exact hlt
    split at h
    · rw [← Option.some.inj h]
      cases faulty <;> exact hlt
    · rw [← Option.some.inj h]
      exact hlt

theorem sequence_lt_of_mem_nodeReplies {every : ℕ} {frames : List ParsedFrame} {reply : NodeReply}
    (h : reply ∈ nodeReplies every (frames.filterMap nodeRequest)) :
    reply.message.sequence.toNat < 1000000 := by
  obtain ⟨i, hi, rfl⟩ := List.mem_mapIdx.mp h
  obtain ⟨frame, -, hframe⟩ := List.mem_filterMap.mp (List.getElem_mem hi)
  exact reply_sequence_lt hframe _

theorem flatMap_heard {replies : List NodeReply} {texts : List Bytes}
    (h : List.Forall₂ (fun (reply : NodeReply) (text : Bytes) =>
      reply.message.buildFrame frameMaxLen = .ok text) replies texts)
    (hsix : ∀ reply ∈ replies, reply.message.sequence.toNat < 1000000) :
    texts.flatMap heard = replies.map NodeReply.message := by
  induction h with
  | nil => rfl
  | cons hbuilt _ ih =>
    rw [List.flatMap_cons, heard_built hbuilt (hsix _ List.mem_cons_self),
      ih fun reply hmem => hsix reply (List.mem_cons_of_mem _ hmem)]
    rfl

/-- **The node answers every command that stands in its stream**, once and in order, however
the bytes come in and however its own writes go. Its callback has been called with the first
frames of the stream, and with all of them unless it is at a reply just now; to those that
are commands it has replied, to each with the sequence the command has: it refuses what it
cannot read, does not know or finds out of range, and of the commands it understands each
`fail_every`-th; the others it carries out, and its light is what the last of these asked
for. -/
theorem mockNode_answers (failEvery : BitVec 32) (start : ℤ) (events : List NodeEvent) :
    let s := (mockNode failEvery start).state events
    let requests := s.reached.filterMap nodeRequest
    let replies := nodeReplies failEvery.toInt.toNat requests
    legalCount requests < 2 ^ 31 →
      s.reached <+: framesOf s.received ∧ (s.rest = [] → s.reached = framesOf s.received) ∧
        (MockNode.repliesOf s.writes).map Prod.fst =
          s.reached.filter (fun frame => (nodeRequest frame).isSome) ∧
        (MockNode.repliesOf s.writes).flatMap (fun reply => heard reply.2) =
          replies.map NodeReply.message ∧
        s.context.ledState = ledInt (ledAfter replies) := by
  intro s requests replies hcount
  have hlistens : s.Listens failEvery := MockNode.listens failEvery start events
  have hcalled := nodeCallback_calledWith failEvery s.reached hcount
  rw [← hlistens.replied, ← hlistens.context] at hcalled
  refine ⟨?_, fun hrest => ?_, hcalled.answered, ?_, hcalled.led⟩
  · obtain ⟨fed, hreceived, hfed⟩ := hlistens.fed
    rw [hreceived, framesOf, frameParserFeed_append, hfed]
    exact List.prefix_append _ _
  · rw [framesOf, hlistens.idle hrest]
  · rw [← flatMap_heard hcalled.texts fun reply => sequence_lt_of_mem_nodeReplies,
      List.flatMap_map]

/-- Two commands arrive in one read, and the node writes two replies. -/
def faultRun : List NodeEvent :=
  [.turn true, .wait true,
    .read (ascii "@1,GATEWAY,000007,CMD,LED=1*45DA\r\n@1,GATEWAY,000007,CMD,LED=1*45DA\r\n"),
    .write (.wrote 20), .write .interrupted, .write (.wrote 20), .write .failed]

/-- Of these the second fails, where every second one does. -/
theorem mockNode_answers_faultRun :
    (MockNode.repliesOf ((mockNode 2 0).state faultRun).writes).flatMap
        (fun reply => heard reply.2) =
      [.ack ⟨.lit 32 "NODE01", 7, .single ⟨nodeLedKey, intText 1⟩⟩,
        .nack ⟨.lit 32 "NODE01", 7, .lit 32 "sim_fault"⟩] ∧
      ((mockNode 2 0).state faultRun).context.ledState = 1 := by
  have hreplies : nodeReplies (2 : BitVec 32).toInt.toNat
      (((mockNode 2 0).state faultRun).reached.filterMap nodeRequest) =
        [.done 7 true, .refused 7 (.lit 32 "sim_fault")] := by decide +kernel
  obtain ⟨-, -, -, hheard, hled⟩ := mockNode_answers 2 0 faultRun (by decide +kernel)
  rw [hreplies] at hheard hled
  exact ⟨hheard, hled⟩

end SmartGateway
