import SmartGateway.Common.FrameRoundTrip
import SmartGateway.Common.JsonAgreement
import SmartGateway.Gateway.Upstream

/-!
# What is forwarded

A message that its callback has decoded, and that `gateway_app_touch_device` has let
through, goes up as one line of JSON if the line fits a buffer of 256 bytes with its
terminator. How long the line is can be read off the message, and both links carry
messages whose lines are longer: the frame writes a field with two bytes around key and
value, and the line with six.

A line of a WiFi connection is looked at for its type before it is decoded, by the other
of the two parsers, so a DATA line is decoded where its members pass the checks of both.
-/

namespace SmartGateway

open Numeral

/-- What the fields take in a line: their texts, and six bytes for each but the last,
which has no comma behind it. -/
def fieldsJsonLength (fs : List FrameKv) : ℕ :=
  (fs.map fun f => f.key.bytes.length + f.value.bytes.length + 6).sum - 1

/-- The length of the line built from the message, with its newline. -/
def UplinkMessage.jsonLength : UplinkMessage → ℕ
  | .data d =>
    45 + d.nodeId.bytes.length + (decimal d.sequence.toNat).length + fieldsJsonLength d.fields.1
  | .ack a =>
    44 + a.nodeId.bytes.length + (decimal a.sequence.toNat).length + fieldsJsonLength a.fields.1
  | .nack n =>
    44 + n.nodeId.bytes.length + (decimal n.sequence.toNat).length + n.error.bytes.length

theorem length_jsonFieldsText_comma (fs : List FrameKv) :
    (jsonFieldsText [Ascii.comma] fs).length =
      (fs.map fun f => f.key.bytes.length + f.value.bytes.length + 6).sum := by
  induction fs with
  | nil => rfl
  | cons f fs ih =>
    rw [jsonFieldsText, List.length_append, List.length_append, ih, List.map_cons, List.sum_cons]
    simp only [jsonField, List.length_cons, List.length_append, List.length_nil]
    omega

theorem length_jsonFieldsText (fs : List FrameKv) :
    (jsonFieldsText [] fs).length = fieldsJsonLength fs := by
  cases fs with
  | nil => rfl
  | cons f fs =>
    rw [jsonFieldsText, List.length_append, List.length_append, length_jsonFieldsText_comma,
      fieldsJsonLength, List.map_cons, List.sum_cons]
    simp only [jsonField, List.length_cons, List.length_append, List.length_nil]
    omega

/-- The head of a line, but for what it frames. -/
theorem length_lineHead (node : Bytes) (sequence : UInt32) (type p : Bytes) :
    (lineHead node sequence type p).length =
      27 + node.length + (decimal sequence.toNat).length + type.length + p.length := by
  have hnode : (ascii "node").length = 4 := by decide
  have hseq : (ascii "seq").length = 3 := by decide
  have htype : (ascii "type").length = 4 := by decide
  simp only [lineHead, List.length_cons, List.length_append, hnode, hseq, htype]
  omega

/-- **The length of a line** is the one read off the message. -/
theorem UplinkMessage.length_line (m : UplinkMessage) :
    (m.line [Ascii.lf]).length = m.jsonLength := by
  have hfields : (ascii "fields").length = 6 := by decide
  have herror : (ascii "error").length = 5 := by decide
  have hdata : (ascii "DATA").length = 4 := by decide
  have hack : (ascii "ACK").length = 3 := by decide
  have hnack : (ascii "NACK").length = 4 := by decide
  cases m with
  | data d =>
    simp only [line, dataLine, List.length_cons, length_lineHead, fieldsTail, List.length_append,
      length_jsonFieldsText, hfields, hdata, jsonLength, List.length_nil]
    omega
  | ack a =>
    simp only [line, ackLine, List.length_cons, length_lineHead, fieldsTail, List.length_append,
      length_jsonFieldsText, hfields, hack, jsonLength, List.length_nil]
    omega
  | nack n =>
    simp only [line, nackLine, List.length_cons, length_lineHead, errorTail, List.length_append,
      herror, hnack, jsonLength, List.length_nil]
    omega

/-- **What is forwarded, exactly.** A message decoded from a frame or a line, for which
`gateway_app_touch_device` passes, puts one text into the queue beside the NACKs of a
takeover if and only if its line is shorter than 256 bytes; and then the text is that
line. -/
theorem uplink_forwarded_iff (devices : DeviceManager) (context : UpstreamContext) (threadId : ℕ)
    (now : ℤ) (input : UplinkInput) (m : UplinkMessage) (hm : input.message? = some m)
    (hpass : (gatewayAppTouchDevice devices context threadId now m.nodeId.toCStr).1 = true) :
    let takeover := (gatewayAppTouchDevice devices context threadId now m.nodeId.toCStr).2
    let pushed := pushedBy (gatewayAppOnUplink devices context threadId now input).effects
    ((∃ json, pushed = pushedBy takeover.effects ++ [json]) ↔ m.jsonLength < 256) ∧
      (m.jsonLength < 256 → pushed = pushedBy takeover.effects ++ [m.line [Ascii.lf]]) := by
  intro takeover pushed
  have heq : gatewayAppOnUplink devices context threadId now input =
      gatewayAppForward devices context threadId now m := by
    rw [gatewayAppOnUplink_eq, hm]
  have hpushed : pushed = pushedBy takeover.effects ++
      if (m.line [Ascii.lf]).length < 256 then [m.line [Ascii.lf]] else [] := by
    rw [show pushed = pushedBy _ from rfl, heq]
    exact gatewayAppForward_effects hpass
  rw [m.length_line] at hpushed
  constructor
  · constructor
    · rintro ⟨json, hjson⟩
      by_contra hlong
      -- nothing but the takeover's NACKs went out
      rw [if_neg hlong, List.append_nil, hjson] at hpushed
      have hlength := congrArg List.length hpushed
      rw [List.length_append, List.length_singleton] at hlength
      omega
    · intro hshort
      rw [if_pos hshort] at hpushed
      exact ⟨_, hpushed⟩
  · intro hshort
    rw [if_pos hshort] at hpushed
    exact hpushed

/-- A report of one field: it is forwarded. -/
theorem uplink_forwarded_iff_oneField :
    ∃ m, decodeFrame (sealedFrame (ascii "1,N1,000007,DATA,T=25")) = some m ∧
      pushedBy (gatewayAppOnUplink deviceManagerInit ⟨.bluetooth, 3, default⟩ 1 0
        (.frame (sealedFrame (ascii "1,N1,000007,DATA,T=25")))).effects = [m.line [Ascii.lf]] := by
  have hmessage : (decodeFrame (sealedFrame (ascii "1,N1,000007,DATA,T=25"))).map
      (fun m => (m.jsonLength, (gatewayAppTouchDevice deviceManagerInit
        ⟨.bluetooth, 3, default⟩ 1 0 m.nodeId.toCStr).1,
        pushedBy (gatewayAppTouchDevice deviceManagerInit ⟨.bluetooth, 3, default⟩ 1 0
          m.nodeId.toCStr).2.effects)) = some (56, true, []) := by decide +kernel
  obtain ⟨m, hm, hfacts⟩ := Option.map_eq_some_iff.mp hmessage
  simp only [Prod.mk.injEq] at hfacts
  obtain ⟨hlength, hpass, htakeover⟩ := hfacts
  refine ⟨m, hm, ?_⟩
  have hpushed := (uplink_forwarded_iff deviceManagerInit ⟨.bluetooth, 3, default⟩ 1 0
    (.frame (sealedFrame (ascii "1,N1,000007,DATA,T=25"))) m hm hpass).2 (by omega)
  rw [htakeover] at hpushed
  exact hpushed

/-- A DATA payload with sixteen fields: its frame has 184 bytes. -/
def sixteenFields : Bytes :=
  ascii "1,N1,000007,DATA,A=1234567,B=1234567,C=1234567,D=1234567,E=1234567,F=1234567" ++
    ascii ",G=1234567,H=1234567,I=1234567,J=1234567,K=1234567,L=1234567,M=1234567" ++
    ascii ",N=1234567,O=1234567,P=1234567"

/-- Its frame is delivered, decoded and let through, and nothing goes into the queue. -/
theorem not_uplink_forwarded_sixteenFields :
    ¬ ∀ devices context threadId now stream frame m,
      frame ∈ (frameParserFeed frameParserInit stream).2 → decodeFrame frame = some m →
      (gatewayAppTouchDevice devices context threadId now m.nodeId.toCStr).1 = true →
      ∃ json, pushedBy (gatewayAppOnFrame devices context threadId now frame).effects =
        pushedBy (gatewayAppTouchDevice devices context threadId now m.nodeId.toCStr).2.effects ++
          [json] := by
  intro h
  have hfeed : (frameParserFeed frameParserInit
      (frameText sixteenFields (crc16CcittFalse sixteenFields))).2 = [sealedFrame sixteenFields] :=
    frameParserFeed_frameText (by decide +kernel) (by decide +kernel) (by decide +kernel)
      (by decide +kernel) (by decide +kernel)
  have hmessage : (decodeFrame (sealedFrame sixteenFields)).map
      (fun m => (m.jsonLength, (gatewayAppTouchDevice deviceManagerInit
        ⟨.bluetooth, 3, default⟩ 1 0 m.nodeId.toCStr).1)) = some (271, true) := by decide +kernel
  obtain ⟨m, hm, hfacts⟩ := Option.map_eq_some_iff.mp hmessage
  simp only [Prod.mk.injEq] at hfacts
  obtain ⟨hlength, hpass⟩ := hfacts
  obtain ⟨json, hjson⟩ := h deviceManagerInit ⟨.bluetooth, 3, default⟩ 1 0 _ _ m
    (by rw [hfeed]; exact List.mem_singleton_self _) hm hpass
  have hpushed := gatewayAppForward_effects hpass
  rw [m.length_line, hlength, if_neg (by omega), List.append_nil] at hpushed
  rw [gatewayAppOnFrame, hm] at hjson
  have hcount := congrArg List.length (hpushed.symm.trans hjson)
  rw [List.length_append, List.length_singleton] at hcount
  omega

/-! ## DATA lines before they are decoded -/

theorem messageJsonDecodeData_congr {line : Bytes} {consumed : ℕ} {old data : FrameData}
    (h : messageJsonDecodeData line old = (some consumed, data)) (old' : FrameData) :
    messageJsonDecodeData line old' = (some consumed, data) :=
  messageJsonDecodeData_eq_some_iff.mpr (messageJsonDecodeData_eq_some_iff.mp h)

/-- **What the dispatch makes of a line the DATA decoder accepts.** The look at the type
finds `DATA`, and the line is decoded as that message, if and only if each member of the
line passes the checks of `json_parse_object`; otherwise the line is dropped. -/
theorem dataLine_dispatched_iff {line : Bytes} {consumed : ℕ} {old data : FrameData}
    (h : messageJsonDecodeData line old = (some consumed, data)) :
    (messageJsonPeekType line 8 = some (cstr (ascii "DATA")) ↔
        ∀ m ∈ members line, PassesObject m) ∧
      (decodeWifiLine line = some (.data data) ↔ ∀ m ∈ members line, PassesObject m) := by
  have hpeek := messageJsonPeekType_of_decodeData h
  have htype : (cstr (ascii "DATA")).bytes = ascii "DATA" := by decide
  have hother : ascii "DATA" ≠ ascii "ACK" ∧ ascii "DATA" ≠ ascii "NACK" := by decide
  by_cases hpass : ∀ m ∈ members line, PassesObject m
  · rw [if_pos hpass] at hpeek
    refine ⟨⟨fun _ => hpass, fun _ => hpeek⟩, fun _ => hpass, fun _ => ?_⟩
    rw [decodeWifiLine, hpeek]
    simp only [htype, if_neg hother.1, if_neg hother.2, messageJsonDecodeData_congr h default]
  · rw [if_neg hpass] at hpeek
    refine ⟨⟨fun hfound => ?_, fun hall => absurd hall hpass⟩,
      fun hdecoded => ?_, fun hall => absurd hall hpass⟩
    · rw [hpeek] at hfound
      exact absurd hfound (by simp)
    · rw [decodeWifiLine, hpeek] at hdecoded
      exact absurd hdecoded (by simp)

/-- A report with a member of its own behind the fields, a number. -/
def numberedReport (number : String) : Bytes :=
  ascii "\x7b\"node\":\"N1\",\"seq\":7,\"type\":\"DATA\",\"fields\":\x7b\"T\":\"25\"\x7d,\"uptime\":" ++
    ascii number ++ ascii "\x7d"

/-- One that fits 32 bits is passed over by both parsers. -/
theorem dataLine_dispatched_iff_uptime :
    decodeWifiLine (numberedReport "4294967295") =
      some (.data ⟨.lit 32 "N1", 7, .single ⟨.lit _ "T", .lit _ "25"⟩⟩) := by
  have hdecode : messageJsonDecodeData (numberedReport "4294967295") default =
      (some 75, ⟨.lit 32 "N1", 7, .single ⟨.lit _ "T", .lit _ "25"⟩⟩) := by decide +kernel
  exact (dataLine_dispatched_iff hdecode).2.mpr (by decide +kernel)

/-- One that does not is passed over by the DATA decoder alone. -/
theorem not_dataLine_dispatched_uptime :
    ¬ ∀ line consumed old data, messageJsonDecodeData line old = (some consumed, data) →
      messageJsonPeekType line 8 = some (cstr (ascii "DATA")) := by
  intro h
  have hdecode : messageJsonDecodeData (numberedReport "4294967296") default =
      (some 75, ⟨.lit 32 "N1", 7, .single ⟨.lit _ "T", .lit _ "25"⟩⟩) := by decide +kernel
  have hpeek := h _ _ _ _ hdecode
  exact absurd hpeek (by decide +kernel)

end SmartGateway
