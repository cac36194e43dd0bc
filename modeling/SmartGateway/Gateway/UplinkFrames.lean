import SmartGateway.Common.FrameLog
import SmartGateway.Common.FrameReading
import SmartGateway.Gateway.Upstream

/-!
# The frames of messages

What a node builds of a DATA, ACK or NACK message, and what `gateway_app_on_frame` decodes
of it: the message, with the six digits of its sequence. So of a log of such frames the
gateway decodes the messages whose frames were written whole.
-/

namespace SmartGateway

open WriteLog Numeral

namespace UplinkMessage

/-- `frame_build_*` of the message's kind. -/
def buildFrame (outSize : ℕ) : UplinkMessage → Except FrameError Bytes
  | .data d => frameBuildDataKv outSize d.nodeId.toCStr d.sequence d.fields.1
  | .ack a => frameBuildAckKv outSize a.nodeId.toCStr a.sequence a.fields.1
  | .nack n => frameBuildNack outSize n.nodeId.toCStr n.sequence n.error.toCStr

/-- The sequence. -/
def sequence : UplinkMessage → UInt32
  | .data d => d.sequence
  | .ack a => a.sequence
  | .nack n => n.sequence

/-- The message with the sequence a frame carries. -/
def sixDigits : UplinkMessage → UplinkMessage
  | .data d => .data { d with sequence := d.sequence % 1000000 }
  | .ack a => .ack { a with sequence := a.sequence % 1000000 }
  | .nack n => .nack { n with sequence := n.sequence % 1000000 }

theorem sixDigits_of_lt {m : UplinkMessage} (h : m.sequence.toNat < 1000000) :
    m.sixDigits = m := by
  have hmod : m.sequence % 1000000 = m.sequence :=
    (mod_million_eq_iff m.sequence).mpr (UInt32.lt_iff_toNat_lt.mpr h)
  cases m with
  | data d => rw [sixDigits, show d.sequence % 1000000 = d.sequence from hmod]
  | ack a => rw [sixDigits, show a.sequence % 1000000 = a.sequence from hmod]
  | nack n => rw [sixDigits, show n.sequence % 1000000 = n.sequence from hmod]

theorem built_of_buildFrame {m : UplinkMessage} {text : Bytes}
    (h : m.buildFrame frameMaxLen = .ok text) : Built text := by
  cases m with
  | data d => exact .inl ⟨_, _, _, h⟩
  | ack a => exact .inr (.inr (.inl ⟨_, _, _, h⟩))
  | nack n => exact .inr (.inr (.inr ⟨_, _, _, h⟩))

/-- The type and the decoder of a frame a kv builder returns. -/
theorem framesOf_buildKvFrame {id : CharBuf 32} {sequence : UInt32} {type : Bytes}
    {fields : FrameFields} {text : Bytes} (hne : type ≠ [])
    (htype : ∀ b ∈ [0, Ascii.comma, Ascii.atSign, Ascii.lf], b ∉ type)
    (h : buildKvFrame frameMaxLen id.toCStr sequence type fields.1 = .ok text)
    {frame : ParsedFrame} (hframe : framesOf text = [frame]) :
    frameGetMessageType frame = (if type = ascii "DATA" then .data
        else if type = ascii "CMD" then .cmd else if type = ascii "ACK" then .ack
        else if type = ascii "NACK" then .nack else .unknown) ∧
      parseKvPayload frame type = some ⟨id, sequence % 1000000, fields⟩ := by
  obtain ⟨frame', hfeed, hread⟩ := buildKvFrame_roundTrip (le_refl frameMaxLen) hne htype h
  obtain rfl : frame' = frame := List.singleton_inj.mp (hfeed.symm.trans hframe)
  exact hread

/-- **What the gateway decodes of a message's frame** is the message. -/
theorem decodeFrame_built {m : UplinkMessage} {text : Bytes}
    (h : m.buildFrame frameMaxLen = .ok text) {frame : ParsedFrame}
    (hframe : framesOf text = [frame]) : decodeFrame frame = some m.sixDigits := by
  cases m with
  | data d =>
    obtain ⟨htype, hparse⟩ := framesOf_buildKvFrame (by decide) (by decide +kernel) h hframe
    have hdata : frameGetMessageType frame = .data := htype
    rw [decodeFrame, hdata]
    simp only [frameDecodeData, hparse, Option.map_some, sixDigits]
  | ack a =>
    obtain ⟨htype, hparse⟩ := framesOf_buildKvFrame (by decide) (by decide +kernel) h hframe
    have hack : frameGetMessageType frame = .ack := htype
    rw [decodeFrame, hack]
    simp only [frameDecodeAck, hparse, Option.map_some, sixDigits]
  | nack n =>
    obtain ⟨frame', hfeed, htype, hdecode⟩ := frameBuildNack_roundTrip (le_refl frameMaxLen) h
    obtain rfl : frame' = frame := List.singleton_inj.mp (hfeed.symm.trans hframe)
    rw [decodeFrame, htype]
    simp only [hdecode, Option.map_some, sixDigits]

theorem filterMap_framesOf {m : UplinkMessage} {text : Bytes}
    (h : m.buildFrame frameMaxLen = .ok text) :
    (framesOf text).filterMap decodeFrame = [m.sixDigits] := by
  have hframe := (built_of_buildFrame h).plain.framesOf
  rw [hframe, List.filterMap_cons, decodeFrame_built h hframe]
  rfl

end UplinkMessage

/-! ## Six digits are all that is read -/

/-- What is read out of six bytes is below a million, with a sign or without. -/
theorem parseUint32Decimal_lt {text : Bytes} (hlength : text.length = 6) {n : UInt32}
    (h : parseUint32Decimal text = some n) : n.toNat < 1000000 := by
  rw [parseUint32Decimal] at h
  split at h
  · exact absurd h (by simp)
  split at h
  · exact absurd h (by simp)
  rename_i parsed hparsed
  split at h
  · exact absurd h (by simp)
  rename_i hle
  obtain rfl := Option.some.inj h
  have hdrop := (List.dropWhile_suffix (l := text) isspace).length_le
  rw [UInt32.toNat_ofNat_of_lt' (by simp only [UInt32.size]; omega)]
  unfold strtoul at hparsed
  generalize text.dropWhile isspace = s at hparsed hdrop
  simp only at hparsed
  -- the digits, with a sign in front of them or none
  have hdigits : ∀ digits : Bytes, digits.length ≤ 6 → digits.all isDigit = true →
      decimalValue digits < 1000000 := by
    intro digits hlen hall
    have hlt := decimalValue_lt (List.all_eq_true.mp hall)
    exact hlt.trans_le ((Nat.pow_le_pow_right (by decide) hlen).trans (by decide))
  have htail : s.tail.length ≤ 6 := by
    rw [List.length_tail]
    omega
  generalize hd : (if s.head? = some Ascii.minus ∨ s.head? = some Ascii.plus then s.tail
    else s) = digits at hparsed
  have hlen : digits.length ≤ 6 := by
    rw [← hd]
    split
    · exact htail
    · omega
  split at hparsed
  · exact absurd hparsed (by simp)
  rename_i hvalid
  rw [not_or] at hvalid
  have hlt := hdigits digits hlen (by simpa using hvalid.2)
  split at hparsed
  · exact absurd hparsed (by simp)
  split at hparsed
  · -- negated in `unsigned long`, only zero stays in range
    have hval := Option.some.inj hparsed
    by_cases hzero : decimalValue digits = 0
    · rw [hzero] at hval
      simp at hval
      omega
    · have hmax : ulongMax = 18446744073709551615 := rfl
      rw [Nat.mod_eq_of_lt (by omega)] at hval
      omega
  · rw [← Option.some.inj hparsed]
    exact hlt

/-- The sequence of a command a node decodes. -/
theorem sequence_lt_of_decodeCommand {frame : ParsedFrame} {command : FrameCommand}
    (h : frameDecodeCommand frame = some command) : command.sequence.toNat < 1000000 := by
  obtain ⟨p, hp, rfl⟩ := Option.map_eq_some_iff.mp h
  obtain ⟨id, sequence, items, -, -, hlength, hsequence, -⟩ := parseKvPayload_eq_some hp
  exact parseUint32Decimal_lt hlength hsequence

end SmartGateway
