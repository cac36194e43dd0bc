import SmartGateway.Common.FrameParser
import SmartGateway.Common.Scanning
import SmartGateway.Lib.Machine
import SmartGateway.Lib.WriteLog

/-!
# The mock node

`tools/mock_node_app.c`: the node at the other end of the serial line, with its callback
for a frame, `on_node_frame`, and its loop, `mock_node_app_run`. The node is a machine over
what its calls come back with: the wait and the `read`, each `write`, and the clock. Of the
line it records what came and what it wrote, and why. Printing is left out.
-/

namespace SmartGateway

open WriteLog

/-! ## The callback -/

/-- `node_context_t`, less the descriptor. -/
structure NodeContext where
  ledState : BitVec 32
  failEvery : BitVec 32
  failCounter : BitVec 32

/-- The id the node has. -/
def nodeName : CStr := cstr (ascii "NODE01")

/-- The key of the one parameter it knows. -/
def nodeLedKey : CharBuf frameKvKeyMax := .lit frameKvKeyMax "LED"

/-- `on_node_frame`, up to the write of the reply: no reply to a frame that is no command. -/
def onNodeFrame (context : NodeContext) (frame : ParsedFrame) :
    NodeContext × Option (Except FrameError Bytes) :=
  match frameGetMessageType frame with
  | .cmd =>
    match frameDecodeCommand frame with
    | none => (context, some (frameBuildNack frameMaxLen nodeName 0 (cstr (ascii "bad_cmd"))))
    | some cmd =>
      match frameFieldsFind cmd.fields.1 (cstr (ascii "LED")) with
      | none =>
        (context, some (frameBuildNack frameMaxLen nodeName cmd.sequence
          (cstr (ascii "unsupported_cmd"))))
      | some ledText =>
        let ledValue := atoiLong ledText.toCStr
        if ledValue ≠ 0 ∧ ledValue ≠ 1 then
          (context, some (frameBuildNack frameMaxLen nodeName cmd.sequence
            (cstr (ascii "invalid_led"))))
        else
          let context := { context with failCounter := context.failCounter + 1 }
          if 0 < context.failEvery.toInt ∧ context.failCounter.srem context.failEvery = 0 then
            (context, some (frameBuildNack frameMaxLen nodeName cmd.sequence
              (cstr (ascii "sim_fault"))))
          else
            let context := { context with ledState := ledValue }
            (context, some (frameBuildAckKv frameMaxLen nodeName cmd.sequence
              [⟨nodeLedKey, intText context.ledState⟩]))
  | .data | .ack | .nack | .unknown => (context, none)

/-- The fields of a report. -/
def reportFields (sequence : UInt32) : List FrameKv :=
  [⟨.lit frameKvKeyMax "DEV", intText 1⟩,
    ⟨.lit frameKvKeyMax "T", intText (250 + BitVec.ofNat 32 (sequence % 10).toNat)⟩,
    ⟨.lit frameKvKeyMax "H", intText (500 + BitVec.ofNat 32 (sequence % 20).toNat)⟩,
    ⟨.lit frameKvKeyMax "P", intText (1013 + BitVec.ofNat 32 (sequence % 10).toNat)⟩]

/-! ## The loop -/

/-- The size of `read_buffer`. -/
abbrev nodeReadBufferSize : ℕ := 4096

/-- One `write` of the loop of `write_all`: `wrote n` is `n + 1` bytes, or as many as are
left. -/
inductive NodeWrite
  | wrote (n : ℕ)
  | interrupted
  | failed

/-- A turn of the loop of `write_all`; `none` for -1. -/
def writeAllTurn (w : Write Byte) : NodeWrite → Option (Write Byte)
  | .wrote n => some (w.advance (n + 1))
  | .interrupted => some w
  | .failed => none

/-- Why the node writes: for a frame it answers, or for a report at some time. -/
inductive NodeCause
  | answer (frame : ParsedFrame)
  | report (sequence : UInt32) (now : ℤ)
deriving DecidableEq

/-- What the call the node is at comes back with. -/
inductive NodeEvent
  | turn (running : Bool)
  | wait (readable : Bool)
  /-- The bytes read, of which there are none if the read fails. -/
  | read (bytes : Bytes)
  | write (result : NodeWrite)
  | clock (now : ℤ)

/-- The call the node is at. -/
inductive NodeControl
  | head
  | waiting
  | reading
  /-- In `write_all` for a reply, out of the callback, with the bytes still to be fed. -/
  | answering (frame : ParsedFrame) (w : Write Byte) (rest : Bytes)
  | asking
  /-- In `write_all` for a report. -/
  | reporting (now : ℤ) (w : Write Byte)
  | stopped (code : ℤ)

/-- The node: its variables, and for the record the bytes received, the frames its callback
was called with, and the writes that have ended. -/
structure MockNode where
  control : NodeControl
  parser : FrameParser
  context : NodeContext
  sequence : UInt32
  nextReport : ℤ
  received : Bytes
  reached : List ParsedFrame
  wrote : List (NodeCause × Write Byte)

namespace MockNode

/-- A write that has ended. -/
def ended (s : MockNode) (cause : NodeCause) (w : Write Byte) : MockNode :=
  { s with wrote := s.wrote ++ [(cause, w)] }

/-- `frame_parser_feed`, up to a frame that is answered: a frame is never empty, so that
`write_all` comes to a write. -/
def feed (s : MockNode) : Bytes → MockNode
  | [] => { s with control := .asking }
  | ch :: rest =>
    let (parser, frame) := frameParserByte s.parser ch
    match frame with
    | none => { s with parser := parser }.feed rest
    | some frame =>
      let (context, reply) := onNodeFrame s.context frame
      let s := { s with parser := parser, context := context, reached := s.reached ++ [frame] }
      match reply with
      | none | some (.error _) => s.feed rest
      | some (.ok text) => { s with control := .answering frame (.start text) rest }

/-- `write_all` of a reply, from the head of its loop. -/
def answer (s : MockNode) (frame : ParsedFrame) (w : Write Byte) (rest : Bytes) : MockNode :=
  if w.written = w.text.length then (s.ended (.answer frame) w).feed rest
  else { s with control := .answering frame w rest }

/-- `write_all` of a report, from the head of its loop. -/
def report (s : MockNode) (now : ℤ) (w : Write Byte) : MockNode :=
  if w.written = w.text.length then
    { s.ended (.report s.sequence now) w with
      control := .head
      sequence := (s.sequence + 1) % 1000000
      nextReport := now + 5 }
  else
    { s with control := .reporting now w }

/-- The second half of the loop's body. -/
def clocked (s : MockNode) (now : ℤ) : MockNode :=
  if now < s.nextReport then
    { s with control := .head }
  else
    match frameBuildDataKv frameMaxLen nodeName s.sequence (reportFields s.sequence) with
    | .error _ => { s with control := .stopped 1 }
    | .ok text => s.report now (.start text)

end MockNode

/-- One call, come back. What the node is not waiting for leaves it as it is. -/
def mockNodeStep (s : MockNode) (e : NodeEvent) : MockNode :=
  match s.control, e with
  | .head, .turn running => { s with control := if running then .waiting else .stopped 0 }
  | .waiting, .wait readable => { s with control := if readable then .reading else .asking }
  | .reading, .read bytes =>
    let bytes := bytes.take nodeReadBufferSize
    { s with received := s.received ++ bytes }.feed bytes
  | .answering frame w rest, .write result =>
    match writeAllTurn w result with
    | some w => s.answer frame w rest
    | none => (s.ended (.answer frame) w).feed rest
  | .asking, .clock now => s.clocked now
  | .reporting now w, .write result =>
    match writeAllTurn w result with
    | some w => s.report now w
    | none => { s.ended (.report s.sequence now) w with control := .stopped 1 }
  | _, _ => s

/-- `mock_node_app_run`, with the `fail_every` it is given and the time it starts at. -/
def mockNode (failEvery : BitVec 32) (start : ℤ) : Machine MockNode NodeEvent Unit where
  init := ⟨.head, frameParserInit, ⟨0, failEvery, 0⟩, 0, start, [], [], []⟩
  step s e := (mockNodeStep s e, ())

end SmartGateway
