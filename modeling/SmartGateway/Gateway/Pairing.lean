import SmartGateway.Gateway.Translation

/-!
# A command and its answer

The way of a sequence number: from the line of the server into the CMD frame, out
of it at the node, into the ACK frame, out of it at the gateway, and back in the
line of the answer. Both frames print six digits, so the number comes back modulo a
million: it is the server's own exactly below that.
-/

namespace SmartGateway

open Numeral ObjectScan

/-- What the gateway makes of an ACK frame that the node has built. -/
theorem ackFrame_sequence {outSize : ℕ} {nodeId : CStr} {n : UInt32} {fields : List FrameKv}
    {out : Bytes} (hout : frameBuildAckKv outSize nodeId n fields = .ok out) {frame : ParsedFrame}
    (hframe : frame ∈ (frameParserFeed frameParserInit out).2) {ack : FrameAck}
    (hack : frameDecodeAck frame = some ack) : ack.sequence = n % 1000000 := by
  obtain ⟨hid, hfs, -, payload, hpayload, -, rfl, -⟩ := buildKvFrame_eq_ok hout
  have hnot : ∀ b ∈ [(0 : Byte), Ascii.atSign, Ascii.lf], b ∉ payload := by
    intro b hb
    have hb' : isDigit b = false ∧ b ≠ Ascii.comma ∧ b ≠ Ascii.equals ∧ b ∉ ascii "ACK" := by
      revert b
      decide +kernel
    have htexts : b ∉ nodeId.bytes ∧ ∀ f ∈ fields, b ∉ f.key.bytes ∧ b ∉ f.value.bytes := by
      rcases List.mem_cons.mp hb with rfl | hb
      · exact ⟨nodeId.nulFree, fun f _ => ⟨f.key.nulFree, f.value.nulFree⟩⟩
      · have hres : b ∈ nodeIdReserved ∧ b ∈ fieldTextReserved := by
          revert b
          decide +kernel
        exact ⟨(textIsValid_iff.mp hid).2 b hres.1, fun f hf =>
          ⟨(textIsValid_iff.mp (hfs f hf).key).2 b hres.2,
            (textIsValid_iff.mp (hfs f hf).value).2 b hres.2⟩⟩
    rw [hpayload]
    exact not_mem_kvPayload hb'.1 hb'.2.1 hb'.2.2.1 htexts.1 hb'.2.2.2 htexts.2
  have hne : payload ≠ [] := by
    rw [hpayload]
    simp [frameHead]
  -- the frame that arrives is the one built
  obtain rfl := eq_of_mem_frameParserFeed_frameText hne (hnot _ (by simp)) (hnot _ (by simp))
    (hnot _ (by simp)) hframe
  obtain ⟨p, hp, rfl⟩ := Option.map_eq_some_iff.mp hack
  have hnul := hnot 0 (by simp)
  rw [hpayload] at hp hnul
  rw [sequence_of_parseKvPayload hid hfs (toNat_mod_million_lt n) (by decide) (by decide) hnul hp,
    UInt32.ofNat_toNat]

/-- **The sequence of an answer** is the command's modulo a million. The node reads
the command's frame; of any ACK frame it builds for the sequence it has read, with
any id and fields, the line that goes up is read back if its texts are stable, and
however it is read, it carries that number: the command's own exactly if the
command's has at most six digits. -/
theorem answer_sequence (command : FrameCommand) (out : Bytes)
    (hout : frameBuildCommandKv frameMaxLen command.sender.toCStr command.sequence
      command.fields.1 = .ok out) :
    ∃ frame received, (frameParserFeed frameParserInit out).2 = [frame] ∧
      frameDecodeCommand frame = some received ∧
      received.sequence = command.sequence % 1000000 ∧
      ∀ (outSize : ℕ) (nodeId : CStr) (fields : List FrameKv) (ackOut : Bytes),
        frameBuildAckKv outSize nodeId received.sequence fields = .ok ackOut →
        ∀ ackFrame ∈ (frameParserFeed frameParserInit ackOut).2,
        ∀ ack, frameDecodeAck ackFrame = some ack →
        ∀ (jsonSize : ℕ) (json : Bytes), messageJsonBuildAck jsonSize ack = some json →
          ((UplinkMessage.ack ack).Stable →
            messageJsonDecodeAck json = (some (json.length - 1), ack)) ∧
          ∀ consumed answer, messageJsonDecodeAck json = (some consumed, answer) →
            answer.sequence = command.sequence % 1000000 ∧
            (answer.sequence = command.sequence ↔ command.sequence < 1000000) := by
  obtain ⟨frame, hfeed, -, hparse⟩ :=
    buildKvFrame_roundTrip (le_refl frameMaxLen) (by decide) (by decide +kernel) hout
  refine ⟨frame, ⟨default, command.sender, command.sequence % 1000000, command.fields⟩, hfeed,
    by rw [frameDecodeCommand, hparse]; rfl, rfl, ?_⟩
  intro outSize nodeId fields ackOut hackOut ackFrame hackFrame ack hack jsonSize json hjson
  have hframe : (UplinkMessage.ack ack).DecodedFrom ackFrame := hack
  obtain ⟨hnode, hcomma, hfilled⟩ := hframe.texts
  obtain ⟨-, rfl⟩ := messageJsonBuildAck_eq_some_iff.mp hjson
  refine ⟨fun hstable => ?_, fun consumed answer hanswer => ?_⟩
  · exact UplinkMessage.readFrom_line (m := .ack ack) hstable hfilled [Ascii.lf]
  · have hcarried : answer.sequence = command.sequence % 1000000 := by
      obtain ⟨-, hsequence, -⟩ := messageJsonDecodeAck_ackLine_eq_some hnode
        (UplinkMessage.forall_fieldTexts.mp hcomma) hanswer
      have hmod : command.sequence % 1000000 % 1000000 = command.sequence % 1000000 := by
        rw [mod_million_eq_iff, UInt32.lt_iff_toNat_lt]
        exact toNat_mod_million_lt command.sequence
      rw [hsequence, ackFrame_sequence hackOut hackFrame hack, hmod]
    exact ⟨hcarried, by rw [hcarried]; exact mod_million_eq_iff command.sequence⟩

/-- A command of the server to switch an LED on. -/
def ledCommand (sequence : UInt32) : FrameCommand :=
  ⟨.lit 32 "N1", .lit 32 "GATEWAY", sequence, .single ⟨.lit _ "LED", .lit _ "1"⟩⟩

/-- The line of the answer to command 7. -/
def ledAnswer : Bytes :=
  ascii "\x7b\"node\":\"N1\",\"seq\":7,\"type\":\"ACK\",\"fields\":\x7b\"LED\":\"1\"\x7d\x7d\n"

/-- Command 7, its ACK frame, and the line of the answer. -/
theorem answer_sequence_ledCommand :
    ∃ answer : FrameAck, messageJsonDecodeAck ledAnswer = (some (ledAnswer.length - 1), answer) ∧
      answer.sequence = 7 % 1000000 := by
  obtain ⟨frame, received, -, -, hsequence, hanswer⟩ := answer_sequence (ledCommand 7)
    (ascii "@1,GATEWAY,000007,CMD,LED=1*45DA\r\n") (by decide +kernel)
  have hread := hanswer 256 ⟨ascii "N1", by decide⟩ (ledCommand 7).fields.1
    (ascii "@1,N1,000007,ACK,LED=1*1F6D\r\n") (by rw [hsequence]; decide +kernel)
    (sealedFrame (ascii "1,N1,000007,ACK,LED=1")) (by decide +kernel)
    ⟨(ledCommand 7).targetNode, 7, (ledCommand 7).fields⟩ (by decide +kernel) 256
    ledAnswer (by decide +kernel)
  have hline := hread.1 (by decide +kernel)
  exact ⟨_, hline, (hread.2 _ _ hline).1⟩

/-- Command 1000000 is accepted from the server, and its frame carries 0. -/
theorem not_answer_sequence_million :
    ¬ ∀ (line : Bytes) (consumed : ℕ) (command : FrameCommand) (out : Bytes),
      messageJsonDecodeCommand line = (some consumed, command) →
      frameBuildCommandKv frameMaxLen command.sender.toCStr command.sequence command.fields.1 =
        .ok out →
      ∀ frame ∈ (frameParserFeed frameParserInit out).2, ∀ received,
        frameDecodeCommand frame = some received → received.sequence = command.sequence := by
  intro h
  have hsequence := h (ascii
      "\x7b\"node\":\"N1\",\"sender\":\"GATEWAY\",\"seq\":1000000,\"type\":\"CMD\",\"fields\":\x7b\"LED\":\"1\"\x7d\x7d")
    80 (ledCommand 1000000) (ascii "@1,GATEWAY,000000,CMD,LED=1*6C67\r\n") (by decide +kernel)
    (by decide +kernel) (sealedFrame (ascii "1,GATEWAY,000000,CMD,LED=1")) (by decide +kernel)
    ⟨default, (ledCommand 0).sender, 0, (ledCommand 0).fields⟩ (by decide +kernel)
  exact absurd hsequence (by decide +kernel)

end SmartGateway
