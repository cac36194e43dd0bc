import SmartGateway.Common.FrameParser
import SmartGateway.Lib.ObjectScan

/-!
# Messages as JSON lines

`common/message_json.c`: the builders of the four kinds of line, and the decoders.
A pointer into the line is the text from there to its end. Of the two parsers of
the source, `json_parse_object` serves the command, ACK and NACK decoders and the
look at the type; `message_json_decode_data` has its own. Both are the member loop
of `ObjectScan`, each with its rule for the values.
-/

namespace SmartGateway

open Numeral ObjectScan

/-! ## Builders -/

/-- One `snprintf` to the end of the text: it has to leave room for the terminator. -/
def appendText (outSize : ℕ) (text piece : Bytes) : Option Bytes :=
  if outSize ≤ text.length + piece.length then none else some (text ++ piece)

/-- `"KEY":"VALUE"`. -/
def jsonField (f : FrameKv) : Bytes :=
  Ascii.quote :: (f.key.bytes ++ Ascii.quote :: Ascii.colon :: Ascii.quote ::
    (f.value.bytes ++ [Ascii.quote]))

/-- The field loop of a builder; `separator` is empty before the first field. -/
def appendJsonFields (outSize : ℕ) (separator : Bytes) : List FrameKv → Bytes → Option Bytes
  | [], text => some text
  | f :: fs, text =>
    match appendText outSize text (separator ++ jsonField f) with
    | none => none
    | some text => appendJsonFields outSize [Ascii.comma] fs text

/-- What follows the fixed head of the lines with fields. -/
def buildJsonFields (outSize : ℕ) (head : Bytes) (fields : List FrameKv) : Option Bytes :=
  match appendText outSize [] head with
  | none => none
  | some text =>
    match appendJsonFields outSize [] fields text with
    | none => none
    | some text => appendText outSize text (ascii "\x7d\x7d\n")

/-- `{"node":"%s",`. -/
def jsonNode (node : Bytes) : Bytes := ascii "\x7b\"node\":\"" ++ node ++ ascii "\","

/-- `"seq":%u,"type":"TYPE",`. -/
def jsonSeqType (sequence : UInt32) (type : Bytes) : Bytes :=
  ascii "\"seq\":" ++ decimal sequence.toNat ++ ascii ",\"type\":\"" ++ type ++ ascii "\","

/-- `message_json_build_data`. -/
def messageJsonBuildData (outSize : ℕ) (data : FrameData) : Option Bytes :=
  buildJsonFields outSize (jsonNode data.nodeId.bytes ++ jsonSeqType data.sequence (ascii "DATA") ++
    ascii "\"fields\":\x7b") data.fields.1

/-- `message_json_build_ack`. -/
def messageJsonBuildAck (outSize : ℕ) (ack : FrameAck) : Option Bytes :=
  buildJsonFields outSize (jsonNode ack.nodeId.bytes ++ jsonSeqType ack.sequence (ascii "ACK") ++
    ascii "\"fields\":\x7b") ack.fields.1

/-- `message_json_build_nack`. -/
def messageJsonBuildNack (outSize : ℕ) (nack : FrameNack) : Option Bytes :=
  appendText outSize [] (jsonNode nack.nodeId.bytes ++ jsonSeqType nack.sequence (ascii "NACK") ++
    ascii "\"error\":\"" ++ nack.error.bytes ++ ascii "\"\x7d\n")

/-- `message_json_build_command`. -/
def messageJsonBuildCommand (outSize : ℕ) (command : FrameCommand) : Option Bytes :=
  buildJsonFields outSize (jsonNode command.targetNode.bytes ++ ascii "\"sender\":\"" ++
    command.sender.bytes ++ ascii "\"," ++ jsonSeqType command.sequence (ascii "CMD") ++
    ascii "\"fields\":\x7b") command.fields.1

/-! ## Numbers -/

/-- Digits skipped. -/
def skipDigits (p : Bytes) : Bytes := p.dropWhile isDigit

/-- Digits skipped, of which there has to be one. -/
def skipDigits1 : Bytes → Option Bytes
  | [] => none
  | b :: p => if isDigit b then some (skipDigits p) else none

/-- A byte skipped if it is one of these. -/
def skipOneOf (bs p : Bytes) : Bytes :=
  match p with
  | [] => []
  | b :: p => if b ∈ bs then p else b :: p

/-- `'e'` or `'E'`. -/
def isExponentMark (b : Byte) : Bool := b == 101 || b == 69

/-- The fraction of a number skipped, digits or none. -/
def skipFraction : Bytes → Bytes
  | [] => []
  | b :: p => if b = Ascii.dot then skipDigits p else b :: p

/-- The exponent of a number skipped, digits or none. -/
def skipExponent : Bytes → Bytes
  | [] => []
  | b :: p =>
    if isExponentMark b then skipDigits (skipOneOf [Ascii.plus, Ascii.minus] p) else b :: p

/-- A fraction that needs its digits, if there is one. -/
def fraction1 : Bytes → Option Bytes
  | [] => some []
  | b :: p => if b = Ascii.dot then skipDigits1 p else some (b :: p)

/-- An exponent that needs its digits, if there is one. -/
def exponent1 : Bytes → Option Bytes
  | [] => some []
  | b :: p =>
    if isExponentMark b then skipDigits1 (skipOneOf [Ascii.plus, Ascii.minus] p)
    else some (b :: p)

/-- The number of a field value, kept as its text. -/
def scanNumberText (p : Bytes) : Option (Bytes × Bytes) :=
  (((skipDigits1 (skipOneOf [Ascii.minus] p)).bind fraction1).bind exponent1).map fun rest =>
    (p.take (p.length - rest.length), rest)

/-- A digit loop that gives up where `overflow` says so of the value and the next digit. -/
def digitLoop (overflow : ℕ → ℕ → Bool) : ℕ → Bytes → Option (ℕ × Bytes)
  | value, [] => some (value, [])
  | value, b :: p =>
    if isDigit b then
      if overflow value (b.toNat - 48) then none
      else digitLoop overflow (value * 10 + (b.toNat - 48)) p
    else
      some (value, b :: p)

/-- `value > (0xFFFFFFFF - digit) / 10`. -/
def uint32Overflow (value digit : ℕ) : Bool := (0xFFFFFFFF - digit) / 10 < value

/-- `int_part > (0x7FFFFFFF - 9) / 10`. -/
def x10Overflow (value _digit : ℕ) : Bool := (0x7FFFFFFF - 9) / 10 < value

/-- An `int` as `%d` prints it. -/
def decimalInt (value : BitVec 32) : Bytes :=
  if value.toInt < 0 then Ascii.minus :: decimal value.toInt.natAbs else decimal value.toInt.toNat

theorem length_decimalInt (value : BitVec 32) : (decimalInt value).length < 32 := by
  have habs : value.toInt.natAbs < 10 ^ 10 := by
    have h1 := value.toInt_lt
    have h2 := value.le_toInt
    norm_num at h1 h2 ⊢
    omega
  have hnat : value.toInt.toNat < 10 ^ 10 := by omega
  have h1 := length_decimal_le (by decide) habs
  have h2 := length_decimal_le (by decide) hnat
  unfold decimalInt
  split
  · rw [List.length_cons]
    omega
  · omega

/-- The text of an `int` in a value buffer. -/
def intText (value : BitVec 32) : CharBuf frameKvValueMax where
  bytes := decimalInt value
  nulFree := by
    unfold decimalInt
    split
    · rw [List.mem_cons, not_or]
      exact ⟨by decide, not_mem_decimal (by decide)⟩
    · exact not_mem_decimal (by decide)
  fits := length_decimalInt value

/-- `atoi`, of a text too short for its digits to overflow a `long`. -/
def atoi (text : CStr) : BitVec 32 :=
  let s := text.bytes.dropWhile isspace
  let value := BitVec.ofNat 32
    (decimalValue ((skipOneOf [Ascii.plus, Ascii.minus] s).takeWhile isDigit))
  if s.head? = some Ascii.minus then -value else value

/-! ## Fields -/

/-- `kv_array_add`. -/
def kvArrayAdd (fields : FrameFields) (key value : Bytes) : Option FrameFields :=
  if key = [] ∨ value = [] then
    none
  else
    match CharBuf.ofRaw? frameKvKeyMax key, CharBuf.ofRaw? frameKvValueMax value with
    | some key, some value =>
      if h : fields.1.length < frameDataMaxFields then
        some ⟨fields.1 ++ [⟨key, value⟩], by rw [List.length_append]; exact h⟩
      else
        none
    | _, _ => none

/-- The value of a field: a string, or a number kept as its text. -/
def scanFieldValue : Bytes → Option (Bytes × Bytes)
  | [] => none
  | b :: p => if b = Ascii.quote then scanString p else scanNumberText (b :: p)

/-- A member of a `fields` object. -/
def fieldMember (key p : Bytes) (fields : FrameFields) : Option Bytes × FrameFields :=
  match scanFieldValue p with
  | none => (none, fields)
  | some (value, rest) =>
    match kvArrayAdd fields key value with
    | none => (none, fields)
    | some fields => (some rest, fields)

/-- A member of a `fields` object in `message_json_decode_data`, which looks at
the key and the room before the value. -/
def dataFieldMember (key p : Bytes) (fields : FrameFields) : Option Bytes × FrameFields :=
  if key = [] ∨ frameKvKeyMax ≤ key.length ∨ frameDataMaxFields ≤ fields.1.length then
    (none, fields)
  else
    fieldMember key p fields

/-- The value of a `fields` member: an object. -/
def scanFields (member : Bytes → Bytes → FrameFields → Option Bytes × FrameFields) (p : Bytes)
    (fields : FrameFields) : Option Bytes × FrameFields :=
  match p with
  | [] => (none, fields)
  | b :: p => if b ≠ Ascii.openBrace then (none, fields) else scanObject member p fields

/-! ## `json_parse_object` -/

/-- `json_object_t`. -/
structure JsonObject where
  foundNode : Bool
  nodeId : CharBuf 32
  foundSender : Bool
  sender : CharBuf 32
  foundSeq : Bool
  sequence : UInt32
  foundLed : Bool
  ledValue : BitVec 32
  foundError : Bool
  error : CharBuf 32
  foundType : Bool
  typeValue : CharBuf 8
  foundFields : Bool
  fields : FrameFields

/-- All zero. -/
def JsonObject.zero : JsonObject :=
  ⟨false, default, false, default, false, 0, false, 0, false, default, false, default, false,
    default⟩

/-- What a string value does to the object under its key; `none` for -1. -/
def objectString (key text : Bytes) (obj : JsonObject) : Option JsonObject :=
  if key = ascii "node" then
    (CharBuf.ofRaw? 32 text).map fun nodeId => { obj with nodeId := nodeId, foundNode := true }
  else if key = ascii "sender" then
    (CharBuf.ofRaw? 32 text).map fun sender => { obj with sender := sender, foundSender := true }
  else if key = ascii "type" then
    (CharBuf.ofRaw? 8 text).map fun typeValue =>
      { obj with typeValue := typeValue, foundType := true }
  else if key = ascii "led" then
    if text = [] ∨ 16 ≤ text.length then none
    else some { obj with ledValue := atoi (cstr text), foundLed := true }
  else if key = ascii "error" then
    if text = [] then none
    else (CharBuf.ofRaw? 32 text).map fun error => { obj with error := error, foundError := true }
  else
    some obj

/-- What a number does to the object under its key; `none` for -1. -/
def objectNumber (key : Bytes) (negative : Bool) (value : ℕ) (obj : JsonObject) :
    Option JsonObject :=
  if key = ascii "seq" then
    if negative then none
    else some { obj with sequence := UInt32.ofNat value, foundSeq := true }
  else if key = ascii "led" then
    let led := BitVec.ofNat 32 value
    some { obj with ledValue := if negative then -led else led, foundLed := true }
  else
    some obj

/-- A number of `json_parse_object`: its sign, its digits within 32 bits, and a
fraction and an exponent that are skipped. -/
def scanNumber (p : Bytes) : Option (Bool × ℕ × Bytes) :=
  let digits := skipOneOf [Ascii.minus] p
  match digits with
  | [] => none
  | b :: _ =>
    if !isDigit b then
      none
    else
      (digitLoop uint32Overflow 0 digits).map fun r =>
        (p.head? == some Ascii.minus, r.1, skipExponent (skipFraction r.2))

/-- A member of the object. -/
def objectMember (key p : Bytes) (obj : JsonObject) : Option Bytes × JsonObject :=
  if key = ascii "fields" then
    match scanFields fieldMember p obj.fields with
    | (none, fields) => (none, { obj with fields := fields })
    | (some rest, fields) => (some rest, { obj with fields := fields, foundFields := true })
  else
    match p with
    | [] => (none, obj)
    | b :: rest =>
      if b = Ascii.quote then
        stringValue (objectString key) rest obj
      else
        match scanNumber (b :: rest) with
        | none => (none, obj)
        | some (negative, value, rest) =>
          match objectNumber key negative value obj with
          | none => (none, obj)
          | some obj => (some rest, obj)

/-- An object behind white space, and how much of the line it took. -/
def parseWith {σ : Type*} (member : Bytes → Bytes → σ → Option Bytes × σ) (line : Bytes)
    (st : σ) : Option ℕ × σ :=
  match skipWhitespace line with
  | [] => (none, st)
  | b :: p =>
    if b ≠ Ascii.openBrace then
      (none, st)
    else
      match scanObject member p st with
      | (none, st) => (none, st)
      | (some rest, st) => (some (line.length - rest.length), st)

/-- `json_parse_object`: the bytes consumed, or `none` for -1, and the object. -/
def jsonParseObject (line : Bytes) : Option ℕ × JsonObject :=
  parseWith objectMember line JsonObject.zero

/-- `message_json_peek_type`, into a buffer of `type_size` bytes. -/
def messageJsonPeekType (line : Bytes) (typeSize : ℕ) : Option CStr :=
  if typeSize = 0 then
    none
  else
    match jsonParseObject line with
    | (none, _) => none
    | (some _, obj) =>
      if !obj.foundType then none
      else if typeSize < obj.typeValue.bytes.length + 1 then none
      else some obj.typeValue.toCStr

/-- The fields of a command or an ACK: the `fields` object, or the older single
`led`, or none. -/
def JsonObject.messageFields (obj : JsonObject) : FrameFields :=
  if obj.foundFields then
    obj.fields
  else if obj.foundLed then
    .single ⟨⟨⟨ascii "LED", by decide⟩, by decide⟩, intText obj.ledValue⟩
  else
    default

/-- `message_json_decode_command`: the bytes consumed, or `none` for -1, and the
struct, zeroed before anything else. -/
def messageJsonDecodeCommand (line : Bytes) : Option ℕ × FrameCommand :=
  match jsonParseObject line with
  | (none, _) => (none, default)
  | (some consumed, obj) =>
    if !obj.foundNode ∨ !obj.foundSender ∨ !obj.foundSeq ∨ !obj.foundType then
      (none, default)
    else if obj.typeValue.bytes ≠ ascii "CMD" then
      (none, default)
    else
      (some consumed, ⟨obj.nodeId, obj.sender, obj.sequence, obj.messageFields⟩)

/-- `message_json_decode_ack`. -/
def messageJsonDecodeAck (line : Bytes) : Option ℕ × FrameAck :=
  match jsonParseObject line with
  | (none, _) => (none, default)
  | (some consumed, obj) =>
    if !obj.foundNode ∨ !obj.foundSeq ∨ !obj.foundType then
      (none, default)
    else if obj.typeValue.bytes ≠ ascii "ACK" then
      (none, default)
    else
      (some consumed, ⟨obj.nodeId, obj.sequence, obj.messageFields⟩)

/-- `message_json_decode_nack`. -/
def messageJsonDecodeNack (line : Bytes) : Option ℕ × FrameNack :=
  match jsonParseObject line with
  | (none, _) => (none, default)
  | (some consumed, obj) =>
    if !obj.foundNode ∨ !obj.foundSeq ∨ !obj.foundError ∨ !obj.foundType then
      (none, default)
    else if obj.typeValue.bytes ≠ ascii "NACK" then
      (none, default)
    else
      (some consumed, ⟨obj.nodeId, obj.sequence, obj.error⟩)

/-! ## `message_json_decode_data` -/

/-- The struct being filled, and the local variables of the function. -/
structure DataScan where
  data : FrameData
  foundNode : Bool
  foundSeq : Bool
  foundType : Bool
  sequence : UInt32

/-- All zero. -/
def DataScan.zero : DataScan := ⟨default, false, false, false, 0⟩

/-- `json_parse_x10`: the numeral times ten as an `int`, its decimals after the
first dropped, and what follows it. -/
def jsonParseX10 (p : Bytes) : Option (BitVec 32 × Bytes) :=
  let digits := skipOneOf [Ascii.minus] p
  let negative := p.head? == some Ascii.minus
  match digits with
  | [] => none
  | b :: _ =>
    if !isDigit b then
      none
    else
      match digitLoop x10Overflow 0 digits with
      | none => none
      | some (intPart, rest) =>
        let frac : ℕ :=
          match rest with
          | dot :: d :: _ => if dot = Ascii.dot ∧ isDigit d then d.toNat - 48 else 0
          | _ => 0
        let value : ℤ := intPart * 10 + frac
        some (BitVec.ofInt 32 (if negative then -value else value), skipFraction rest)

/-- What a string value does under its key; `none` for -1. -/
def dataString (key text : Bytes) (st : DataScan) : Option DataScan :=
  if key = ascii "node" then
    (CharBuf.ofRaw? 32 text).map fun nodeId =>
      { st with data := { st.data with nodeId := nodeId }, foundNode := true }
  else if key = ascii "type" then
    if text = ascii "DATA" then some { st with foundType := true } else none
  else
    some st

/-- The value of a `temperature` or a `humidity`, which becomes a field. -/
def dataX10 (key p : Bytes) (st : DataScan) : Option Bytes × DataScan :=
  match jsonParseX10 p with
  | none => (none, st)
  | some (x10, rest) =>
    let name := if key = ascii "temperature" then ascii "T" else ascii "H"
    match kvArrayAdd st.data.fields name (decimalInt x10) with
    | none => (none, st)
    | some fields => (some rest, { st with data := { st.data with fields := fields } })

/-- The value of a `seq` that is no string. Digits are not asked for. -/
def dataSeq (p : Bytes) (st : DataScan) : Option Bytes × DataScan :=
  if p.head? = some Ascii.minus then
    (none, st)
  else
    match digitLoop uint32Overflow 0 p with
    | none => (none, st)
    | some (value, rest) =>
      (some (skipExponent (skipFraction rest)),
        { st with sequence := UInt32.ofNat value, foundSeq := true })

/-- A member of the object. -/
def dataMember (key p : Bytes) (st : DataScan) : Option Bytes × DataScan :=
  if key = ascii "fields" then
    let (rest, fields) := scanFields dataFieldMember p st.data.fields
    (rest, { st with data := { st.data with fields := fields } })
  else
    match p with
    | [] => (none, st)
    | b :: rest =>
      if b = Ascii.quote then
        stringValue (dataString key) rest st
      else if key = ascii "temperature" ∨ key = ascii "humidity" then
        dataX10 key (b :: rest) st
      else if key = ascii "seq" then
        dataSeq (b :: rest) st
      else
        -- a number under another name: no digits are asked for, and none are read
        (some (skipExponent (skipFraction (skipDigits (skipOneOf [Ascii.minus] (b :: rest))))), st)

/-- `message_json_decode_data`: the bytes consumed, or `none` for -1, and the
struct as the call leaves it. It is zeroed unless the line is empty, and filled
while the line is read. -/
def messageJsonDecodeData (line : Bytes) (data : FrameData) : Option ℕ × FrameData :=
  if line = [] then
    (none, data)
  else
    match parseWith dataMember line DataScan.zero with
    | (none, st) => (none, st.data)
    | (some consumed, st) =>
      if !st.foundNode ∨ !st.foundSeq ∨ !st.foundType then
        (none, st.data)
      else
        (some consumed, { st.data with sequence := st.sequence })

end SmartGateway
