import SmartGateway.Common.Crc16
import SmartGateway.Lib.Numeral

/-!
# Frames: the message types and the builders

`common/frame.h`, the message structs of `common/frame_parser.h`, and the
builders of `common/frame.c`. A struct's `fields` array with its `field_count`
is a list of at most `FRAME_DATA_MAX_FIELDS` pairs; entries past the count are
never read. A builder returns the bytes it wrote to `out`, or the error code.
-/

namespace SmartGateway

open Numeral

/-- `FRAME_MAX_LEN`, the terminator included. -/
abbrev frameMaxLen : ℕ := 256

/-- `FRAME_KV_KEY_MAX`. -/
abbrev frameKvKeyMax : ℕ := 16

/-- `FRAME_KV_VALUE_MAX`. -/
abbrev frameKvValueMax : ℕ := 32

/-- `FRAME_DATA_MAX_FIELDS`. -/
abbrev frameDataMaxFields : ℕ := 16

/-- `frame_error_t`. -/
inductive FrameError
  | param
  | tooLong
  | nodeId
deriving DecidableEq

/-- `frame_kv_t`. -/
structure FrameKv where
  key : CharBuf frameKvKeyMax
  value : CharBuf frameKvValueMax
deriving DecidableEq

/-- A `fields` array with its count. -/
abbrev FrameFields := { fs : List FrameKv // fs.length ≤ frameDataMaxFields }

/-- An empty `fields` array. -/
instance : Inhabited FrameFields := ⟨⟨[], by decide⟩⟩

/-- An array of one field. -/
def FrameFields.single (f : FrameKv) : FrameFields := ⟨[f], show 1 ≤ frameDataMaxFields by decide⟩

/-- `frame_data_t`. -/
structure FrameData where
  nodeId : CharBuf 32
  sequence : UInt32
  fields : FrameFields
deriving DecidableEq, Inhabited

/-- `frame_ack_t`. -/
structure FrameAck where
  nodeId : CharBuf 32
  sequence : UInt32
  fields : FrameFields
deriving DecidableEq, Inhabited

/-- `frame_nack_t`. -/
structure FrameNack where
  nodeId : CharBuf 32
  sequence : UInt32
  error : CharBuf 32
deriving DecidableEq, Inhabited

/-- `frame_command_t`. -/
structure FrameCommand where
  targetNode : CharBuf 32
  sender : CharBuf 32
  sequence : UInt32
  fields : FrameFields
deriving DecidableEq, Inhabited

/-- The bytes `node_id_is_valid` rejects. -/
def nodeIdReserved : Bytes := [Ascii.atSign, Ascii.star, Ascii.comma, Ascii.cr, Ascii.lf]

/-- The bytes `field_text_is_valid` rejects: the same, and `=`. -/
def fieldTextReserved : Bytes :=
  [Ascii.atSign, Ascii.star, Ascii.comma, Ascii.equals, Ascii.cr, Ascii.lf]

/-- The check both functions make: non-empty, and free of the reserved bytes. -/
def textIsValid (reserved text : Bytes) : Bool :=
  !text.isEmpty && text.all fun b => !reserved.contains b

/-- `node_id_is_valid`. -/
def nodeIdIsValid (nodeId : Bytes) : Bool := textIsValid nodeIdReserved nodeId

/-- `field_text_is_valid`. -/
def fieldTextIsValid (text : Bytes) : Bool := textIsValid fieldTextReserved text

/-- `,KEY=VALUE`. -/
def kvText (f : FrameKv) : Bytes :=
  Ascii.comma :: f.key.bytes ++ Ascii.equals :: f.value.bytes

/-- The field loop of `build_kv_frame`, on the `crc_data` written so far. -/
def appendFields (crcData : Bytes) : List FrameKv → Except FrameError Bytes
  | [] => .ok crcData
  | f :: fs =>
    if f.key.bytes = [] ∨ f.value.bytes = [] ∨ !fieldTextIsValid f.key.bytes ∨
        !fieldTextIsValid f.value.bytes then
      .error .param
    else if frameMaxLen ≤ crcData.length then
      .error .tooLong
    else if frameMaxLen - crcData.length ≤ (kvText f).length then
      .error .tooLong
    else
      appendFields (crcData ++ kvText f) fs

/-- An upper-case hexadecimal digit. -/
def hexDigit (n : ℕ) : Byte := if n < 10 then UInt8.ofNat (48 + n) else UInt8.ofNat (55 + n)

/-- `%04X` of a 16-bit value, which never needs more than four digits. -/
def hex04X (crc : BitVec 16) : Bytes :=
  [hexDigit (crc.toNat / 4096 % 16), hexDigit (crc.toNat / 256 % 16),
    hexDigit (crc.toNat / 16 % 16), hexDigit (crc.toNat % 16)]

/-- `@%s*%04X\r\n`. -/
def frameText (crcData : Bytes) (crc : BitVec 16) : Bytes :=
  Ascii.atSign :: (crcData ++ Ascii.star :: (hex04X crc ++ [Ascii.cr, Ascii.lf]))

/-- `1,%s,%06u,%s`. -/
def frameHead (id : Bytes) (sequence : ℕ) (type : Bytes) : Bytes :=
  ascii "1" ++ Ascii.comma :: (id ++ Ascii.comma ::
    (decimalPad 6 sequence ++ Ascii.comma :: type))

/-- The last step of every builder: the CRC over the checked data, and the whole
frame if `out` holds it and its terminator. -/
def sealFrame (outSize : ℕ) (crcData : Bytes) : Except FrameError Bytes :=
  let frame := frameText crcData (crc16CcittFalse crcData)
  if outSize ≤ frame.length then .error .tooLong else .ok frame

/-- `build_kv_frame`. The sequence is reduced to the six digits of the frame
format before it is printed. -/
def buildKvFrame (outSize : ℕ) (id : CStr) (sequence : UInt32) (type : Bytes)
    (fields : List FrameKv) : Except FrameError Bytes :=
  if outSize = 0 then
    .error .param
  else if frameDataMaxFields < fields.length then
    .error .param
  else if !nodeIdIsValid id.bytes then
    .error .nodeId
  else
    let head := frameHead id.bytes (sequence % 1000000).toNat type
    if frameMaxLen ≤ head.length then
      .error .tooLong
    else
      match appendFields head fields with
      | .error e => .error e
      | .ok crcData => sealFrame outSize crcData

/-- `frame_build_data_kv`. -/
def frameBuildDataKv (outSize : ℕ) (nodeId : CStr) (sequence : UInt32) (fields : List FrameKv) :
    Except FrameError Bytes :=
  buildKvFrame outSize nodeId sequence (ascii "DATA") fields

/-- `frame_build_command_kv`. -/
def frameBuildCommandKv (outSize : ℕ) (sender : CStr) (sequence : UInt32)
    (fields : List FrameKv) : Except FrameError Bytes :=
  buildKvFrame outSize sender sequence (ascii "CMD") fields

/-- `frame_build_ack_kv`. -/
def frameBuildAckKv (outSize : ℕ) (nodeId : CStr) (sequence : UInt32) (fields : List FrameKv) :
    Except FrameError Bytes :=
  buildKvFrame outSize nodeId sequence (ascii "ACK") fields

/-- `frame_build_nack`. The error text is held to the rule for node ids, so it
may contain `=`. -/
def frameBuildNack (outSize : ℕ) (nodeId : CStr) (sequence : UInt32) (error : CStr) :
    Except FrameError Bytes :=
  if outSize = 0 then
    .error .param
  else if !nodeIdIsValid nodeId.bytes then
    .error .nodeId
  else if !nodeIdIsValid error.bytes then
    .error .param
  else
    let crcNack := frameHead nodeId.bytes (sequence % 1000000).toNat
      (ascii "NACK,ERR=" ++ error.bytes)
    if frameMaxLen ≤ crcNack.length then .error .tooLong else sealFrame outSize crcNack

end SmartGateway
