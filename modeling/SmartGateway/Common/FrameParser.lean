import SmartGateway.Common.Frame
import SmartGateway.Lib.Tokens

/-!
# The frame parser

`common/frame_parser.c`: the byte state machine `frame_parser_feed`, the check
`validate_frame` it makes at every line feed, and the decoders of a frame it
delivers. The receive buffer is the 256-byte array of the source, written byte
by byte with its terminator behind, and read back with the C string functions.
-/

namespace SmartGateway

open Numeral

/-- `parsed_frame_t`: the frame, its payload, and the CRC it carried and the one
calculated. -/
structure ParsedFrame where
  raw : Bytes
  payload : Bytes
  receivedCrc : BitVec 16
  calculatedCrc : BitVec 16
deriving DecidableEq

/-- `frame_parser_stats_t`. -/
structure FrameParserStats where
  validFrames : ℕ
  crcErrors : ℕ
  formatErrors : ℕ
  overflowErrors : ℕ
  discardedBytes : ℕ
deriving DecidableEq

/-- `frame_parser_t`. -/
structure FrameParser where
  buffer : Vector Byte frameMaxLen
  length : ℕ
  collecting : Bool
  stats : FrameParserStats

/-- `toupper` in the C locale. -/
def toupper (ch : Byte) : Byte := if 97 ≤ ch ∧ ch ≤ 122 then ch - 32 else ch

/-- `hex_value`, with `none` for -1. -/
def hexValue (ch : Byte) : Option ℕ :=
  if 48 ≤ ch ∧ ch ≤ 57 then
    some (ch.toNat - 48)
  else if 65 ≤ toupper ch ∧ toupper ch ≤ 70 then
    some ((toupper ch).toNat - 65 + 10)
  else
    none

/-- `parse_crc4`: four digits from the start of `text`. -/
def parseCrc4 (text : Bytes) : Option (BitVec 16) :=
  (text.take 4).foldlM
    (fun value ch => (hexValue ch).map fun digit => value <<< 4 ||| BitVec.ofNat 16 digit) 0#16

/-- `strrchr`: the index of the last occurrence. -/
def strrchr (s : CStr) (c : Byte) : Option ℕ :=
  (s.bytes.reverse.findIdx? (· == c)).map fun i => s.bytes.length - 1 - i

/-- The three results of `validate_frame`: 0, 1 and -1. -/
inductive ValidateResult
  | valid (frame : ParsedFrame)
  | crcError
  | formatError
deriving DecidableEq

/-- `validate_frame`. -/
def validateFrame (buffer : Vector Byte frameMaxLen) (length : ℕ) : ValidateResult :=
  if h : length < 8 ∨ frameMaxLen ≤ length then
    .formatError
  else
    have : length < 256 := by
      simp only [frameMaxLen, not_or, not_le] at h
      exact h.2
    if buffer[0] ≠ Ascii.atSign ∨ buffer[length - 2] ≠ Ascii.cr ∨
        buffer[length - 1] ≠ Ascii.lf then
      .formatError
    else
      match strrchr (cstr buffer.toList) Ascii.star with
      | none => .formatError
      | some starIndex =>
        if starIndex + 7 ≠ length then
          .formatError
        else if starIndex ≤ 1 then
          .formatError
        else
          match parseCrc4 (buffer.toList.drop (starIndex + 1)) with
          | none => .formatError
          | some receivedCrc =>
            let payload := (buffer.toList.drop 1).take (starIndex - 1)
            let calculatedCrc := crc16CcittFalse payload
            if calculatedCrc ≠ receivedCrc then
              .crcError
            else
              .valid ⟨buffer.toList.take length, payload, receivedCrc, calculatedCrc⟩

/-- `frame_parser_init`. -/
def frameParserInit : FrameParser where
  buffer := Vector.replicate frameMaxLen 0
  length := 0
  collecting := false
  stats := ⟨0, 0, 0, 0, 0⟩

/-- `frame_parser_reset`. -/
def frameParserReset (parser : FrameParser) : FrameParser :=
  { parser with buffer := parser.buffer.set 0 0, length := 0, collecting := false }

/-- The first byte of a frame, in either state. -/
def frameParserStart (parser : FrameParser) : FrameParser :=
  { parser with
    buffer := (parser.buffer.set 0 Ascii.atSign).set 1 0
    length := 1
    collecting := true }

/-- A byte of a frame, appended with the terminator behind it. -/
def frameParserPut (parser : FrameParser) (ch : Byte) (h : parser.length + 1 < frameMaxLen) :
    FrameParser :=
  { parser with
    buffer := (parser.buffer.set parser.length ch (Nat.lt_of_succ_lt h)).set
      (parser.length + 1) 0 h
    length := parser.length + 1 }

/-- The end of a frame: validate, count, and go back to waiting. The frame is
given where the source calls its callback. -/
def frameParserFinish (parser : FrameParser) : FrameParser × Option ParsedFrame :=
  match validateFrame parser.buffer parser.length with
  | .valid frame =>
    (frameParserReset { parser with
      stats := { parser.stats with validFrames := parser.stats.validFrames + 1 } }, some frame)
  | .crcError =>
    (frameParserReset { parser with
      stats := { parser.stats with crcErrors := parser.stats.crcErrors + 1 } }, none)
  | .formatError =>
    (frameParserReset { parser with
      stats := { parser.stats with formatErrors := parser.stats.formatErrors + 1 } }, none)

/-- One turn of the loop of `frame_parser_feed`. -/
def frameParserByte (parser : FrameParser) (ch : Byte) : FrameParser × Option ParsedFrame :=
  if !parser.collecting then
    if ch = Ascii.atSign then
      (frameParserStart parser, none)
    else
      ({ parser with
        stats := { parser.stats with discardedBytes := parser.stats.discardedBytes + 1 } }, none)
  else if ch = Ascii.atSign then
    (frameParserStart { parser with
      stats := { parser.stats with formatErrors := parser.stats.formatErrors + 1 } }, none)
  else if h : frameMaxLen - 1 ≤ parser.length then
    -- only the place of the terminator is left: the whole frame is dropped
    (frameParserReset { parser with
      stats := { parser.stats with overflowErrors := parser.stats.overflowErrors + 1 } }, none)
  else
    let parser := frameParserPut parser ch (by omega)
    if ch = Ascii.lf then frameParserFinish parser else (parser, none)

/-- `frame_parser_feed`: the new parser, and the frames given to the callback in
order; the value returned is their number. -/
def frameParserFeed (parser : FrameParser) : Bytes → FrameParser × List ParsedFrame
  | [] => (parser, [])
  | ch :: data =>
    let (parser, frame) := frameParserByte parser ch
    let (parser, frames) := frameParserFeed parser data
    (parser, frame.toList ++ frames)

/-- The tokens `strtok_r` gives for a set of one delimiter, all calls together:
runs of the delimiter separate, and none is empty. -/
def strtok (delim : Byte) (s : CStr) : List Bytes := tokens delim s.bytes

/-- `isspace` in the C locale. -/
def isspace (ch : Byte) : Bool := ch = 32 || (9 ≤ ch && ch ≤ 13)

/-- `ULONG_MAX` of a 64-bit `unsigned long`. -/
abbrev ulongMax : ℕ := 2 ^ 64 - 1

/-- `strtoul` in base 10 over a whole string: leading space, an optional sign, digits. `none`
where nothing was converted, text was left over, or the value was out of range;
a minus sign negates in `unsigned long`. -/
def strtoul (text : Bytes) : Option ℕ :=
  let s := text.dropWhile isspace
  let negative := s.head? = some Ascii.minus
  let digits := if negative ∨ s.head? = some Ascii.plus then s.tail else s
  if digits = [] ∨ !digits.all isDigit then
    none
  else if ulongMax < decimalValue digits then
    none
  else if negative then
    some ((ulongMax + 1 - decimalValue digits) % (ulongMax + 1))
  else
    some (decimalValue digits)

/-- `parse_uint32_decimal`. -/
def parseUint32Decimal (text : Bytes) : Option UInt32 :=
  if text = [] then
    none
  else
    match strtoul text with
    | none => none
    | some parsed => if 2 ^ 32 - 1 < parsed then none else some (UInt32.ofNat parsed)

/-- One item of the data area: `KEY=VALUE` around the first `=`. -/
def parseKv (kv : Bytes) : Option FrameKv :=
  let key := kv.takeWhile (· ≠ Ascii.equals)
  match kv.dropWhile (· ≠ Ascii.equals) with
  | [] => none
  | _ :: value =>
    if key = [] ∨ value = [] then
      none
    else
      match CharBuf.ofRaw? frameKvKeyMax key, CharBuf.ofRaw? frameKvValueMax value with
      | some key, some value => some ⟨key, value⟩
      | _, _ => none

/-- The item loop of `parse_kv_payload`. -/
def parseItems : List Bytes → Option (List FrameKv)
  | [] => some []
  | kv :: items =>
    match parseKv kv with
    | none => none
    | some f => (parseItems items).map (f :: ·)

theorem length_parseItems {items : List Bytes} {fs : List FrameKv}
    (h : parseItems items = some fs) : fs.length = items.length := by
  induction items generalizing fs with
  | nil => cases h; rfl
  | cons kv items ih =>
    simp only [parseItems] at h
    split at h
    · exact absurd h (by simp)
    · obtain ⟨fs', hfs', rfl⟩ := Option.map_eq_some_iff.mp h
      simp [ih hfs']

/-- What `parse_kv_payload` gives: the id, the sequence and the fields. -/
structure KvPayload where
  id : CharBuf 32
  sequence : UInt32
  fields : FrameFields
deriving DecidableEq

/-- `parse_kv_payload`, for an id buffer of 32 bytes as every caller has. -/
def parseKvPayload (frame : ParsedFrame) (type : Bytes) : Option KvPayload :=
  if frameMaxLen ≤ frame.payload.length then
    none
  else
    match strtok Ascii.comma (cstr frame.payload) with
    | version :: id :: sequence :: typeToken :: items =>
      if h : frameDataMaxFields < items.length then
        none
      else if version ≠ ascii "1" then
        none
      else if typeToken ≠ type then
        none
      else
        match CharBuf.ofRaw? 32 id with
        | none => none
        | some id =>
          if sequence.length ≠ 6 then
            none
          else
            match parseUint32Decimal sequence with
            | none => none
            | some sequence =>
              match hitems : parseItems items with
              | none => none
              | some fields =>
                some ⟨id, sequence, ⟨fields, by
                  rw [length_parseItems hitems]
                  exact Nat.le_of_not_lt h⟩⟩
    | _ => none

/-- `frame_fields_find`: the value of the first field with the key. -/
def frameFieldsFind (fields : List FrameKv) (key : CStr) : Option (CharBuf frameKvValueMax) :=
  if key.bytes = [] then none
  else (fields.find? fun f => f.key.bytes = key.bytes).map FrameKv.value

/-- `frame_decode_data`. -/
def frameDecodeData (frame : ParsedFrame) : Option FrameData :=
  (parseKvPayload frame (ascii "DATA")).map fun p => ⟨p.id, p.sequence, p.fields⟩

/-- `frame_decode_command`. The frame does not carry the target node. -/
def frameDecodeCommand (frame : ParsedFrame) : Option FrameCommand :=
  (parseKvPayload frame (ascii "CMD")).map fun p => ⟨default, p.id, p.sequence, p.fields⟩

/-- `frame_decode_ack`. -/
def frameDecodeAck (frame : ParsedFrame) : Option FrameAck :=
  (parseKvPayload frame (ascii "ACK")).map fun p => ⟨p.id, p.sequence, p.fields⟩

/-- `frame_decode_nack`. -/
def frameDecodeNack (frame : ParsedFrame) : Option FrameNack :=
  if frameMaxLen ≤ frame.payload.length then
    none
  else
    match strtok Ascii.comma (cstr frame.payload) with
    | [version, id, sequence, typeToken, errToken] =>
      if version ≠ ascii "1" then
        none
      else if typeToken ≠ ascii "NACK" then
        none
      else if errToken.take 4 ≠ ascii "ERR=" then
        none
      else
        match CharBuf.ofRaw? 32 id with
        | none => none
        | some id =>
          if sequence.length ≠ 6 then
            none
          else
            match parseUint32Decimal sequence with
            | none => none
            | some sequence =>
              if errToken.drop 4 = [] then
                none
              else
                match CharBuf.ofRaw? 32 (errToken.drop 4) with
                | none => none
                | some error => some ⟨id, sequence, error⟩
    | _ => none

/-- `frame_message_type_t`. -/
inductive FrameMessageType
  | unknown
  | data
  | cmd
  | ack
  | nack
deriving DecidableEq

/-- `frame_get_message_type`: the fourth token. -/
def frameGetMessageType (frame : ParsedFrame) : FrameMessageType :=
  if frameMaxLen ≤ frame.payload.length then
    .unknown
  else
    match (strtok Ascii.comma (cstr frame.payload))[3]? with
    | none => .unknown
    | some token =>
      if token = ascii "DATA" then .data
      else if token = ascii "CMD" then .cmd
      else if token = ascii "ACK" then .ack
      else if token = ascii "NACK" then .nack
      else .unknown

end SmartGateway
