import SmartGateway.Common.FrameMemory
import SmartGateway.Common.MessageJson
import SmartGateway.Lib.ObjectCursor

/-!
# The JSON decoders, index by index

The parsers of `common/message_json.c` as they run: each pointer is an index into the line, each
read is checked against its length, and each write against the array it goes to. The structs are
those in memory. An `int` holds every index of a line, so the conversions of the source change
nothing. Each loop is given a number of turns.
-/

namespace SmartGateway

open Cursor ObjectCursor ObjectScan TextArray Numeral

variable {σ : Type}

/-! ## Numbers -/

/-- `if (*p == '-') p++`, and whether it was one. -/
def skipMinusAt (line : Bytes) (p : ℕ) : Checked σ (Bool × ℕ) := do
  let b ← load line p
  if b = Ascii.minus then pure (true, p + 1) else pure (false, p)

/-- A digit is asked for, and the digits from there skipped. -/
def skipDigits1At (line : Bytes) (turns p : ℕ) : Checked σ ℕ := do
  let b ← peek line p
  if !isDigit b then throw .refused else skipWhile line isDigit turns p

/-- `if (p < end && (*p == '+' || *p == '-')) p++`. -/
def skipSignAt (line : Bytes) (p : ℕ) : Checked σ ℕ := do
  if ← nextIs line (fun b => b == Ascii.plus || b == Ascii.minus) p then pure (p + 1) else pure p

/-- A fraction skipped, digits or none. -/
def skipFractionAt (line : Bytes) (turns p : ℕ) : Checked σ ℕ := do
  if ← nextIs line (· == Ascii.dot) p then skipWhile line isDigit turns (p + 1) else pure p

/-- An exponent skipped, digits or none. -/
def skipExponentAt (line : Bytes) (turns p : ℕ) : Checked σ ℕ := do
  if ← nextIs line isExponentMark p then do
    let p ← skipSignAt line (p + 1)
    skipWhile line isDigit turns p
  else
    pure p

/-- A fraction that needs its digits, if there is one. -/
def fraction1At (line : Bytes) (turns p : ℕ) : Checked σ ℕ := do
  if ← nextIs line (· == Ascii.dot) p then skipDigits1At line turns (p + 1) else pure p

/-- An exponent that needs its digits, if there is one. -/
def exponent1At (line : Bytes) (turns p : ℕ) : Checked σ ℕ := do
  if ← nextIs line isExponentMark p then do
    let p ← skipSignAt line (p + 1)
    skipDigits1At line turns p
  else
    pure p

/-- The number of a field value, to the place behind it. -/
def scanNumberTextAt (line : Bytes) (turns p : ℕ) : Checked σ ℕ := do
  let (_, p) ← skipMinusAt line p
  let p ← skipDigits1At line turns p
  let p ← fraction1At line turns p
  exponent1At line turns p

/-- A digit loop: the value, and the place behind the digits. -/
def digitLoopAt (line : Bytes) (overflow : ℕ → ℕ → Bool) : ℕ → ℕ → ℕ → Checked σ (ℕ × ℕ)
  | 0, _, _ => throw .hang
  | turns + 1, value, p =>
    if p < line.length then do
      let b ← load line p
      if isDigit b then
        if overflow value (b.toNat - 48) then throw .refused
        else digitLoopAt line overflow turns (value * 10 + (b.toNat - 48)) (p + 1)
      else
        pure (value, p)
    else
      pure (value, p)

/-- A number of `json_parse_object`: its sign, its value, and the place behind it. -/
def scanNumberAt (line : Bytes) (turns p : ℕ) : Checked σ (Bool × ℕ × ℕ) := do
  let (negative, p) ← skipMinusAt line p
  let b ← peek line p
  if !isDigit b then
    throw .refused
  else do
    let (value, p) ← digitLoopAt line uint32Overflow turns 0 p
    let p ← skipFractionAt line turns p
    let p ← skipExponentAt line turns p
    pure (negative, value, p)

/-- The fraction of `json_parse_x10`: its first digit, and the place behind it. -/
def tenthsAt (line : Bytes) (turns p : ℕ) : Checked σ (ℕ × ℕ) := do
  if ← nextIs line (· == Ascii.dot) p then
    if ← nextIs line isDigit (p + 1) then do
      let b ← load line (p + 1)
      let p ← skipWhile line isDigit turns (p + 2)
      pure (b.toNat - 48, p)
    else do
      let p ← skipWhile line isDigit turns (p + 1)
      pure (0, p)
  else
    pure (0, p)

/-- `json_parse_x10`: the value, and the place behind the numeral. -/
def jsonParseX10At (line : Bytes) (turns p : ℕ) : Checked σ (BitVec 32 × ℕ) :=
  if line.length ≤ p then
    throw .refused
  else do
    let (negative, p) ← skipMinusAt line p
    let b ← peek line p
    if !isDigit b then
      throw .refused
    else do
      let (intPart, p) ← digitLoopAt line x10Overflow turns 0 p
      let (frac, p) ← tenthsAt line turns p
      let value : ℤ := intPart * 10 + frac
      pure (BitVec.ofInt 32 (if negative then -value else value), p)

/-! ## Fields -/

/-- A `fields` array and its count, as `kv_array_add` gets pointers to them. -/
structure KvArray where
  fields : FieldsMemory
  fieldCount : ℕ

/-- `kv_array_add`, of a key and a value that stand somewhere in memory. -/
def kvArrayAddAt (keyText : Bytes) (keyStart keyLength : ℕ) (valueText : Bytes)
    (valueStart valueLength : ℕ) : Checked KvArray Unit := do
  let a ← get
  if keyLength = 0 ∨ frameKvKeyMax ≤ keyLength ∨ valueLength = 0 ∨
      frameKvValueMax ≤ valueLength ∨ frameDataMaxFields ≤ a.fieldCount then
    throw .refused
  else
    match a.fields[a.fieldCount]? with
    | none => throw .fault
    | some slot => do
      let key ← copyText slot.key keyText keyStart keyLength
      let value ← copyText slot.value valueText valueStart valueLength
      set (⟨a.fields.setIfInBounds a.fieldCount ⟨key, value⟩, a.fieldCount + 1⟩ : KvArray)

/-- The value of a field: where it starts, its length, and the place behind it. -/
def scanFieldValueAt (line : Bytes) (turns p : ℕ) : Checked σ (ℕ × ℕ × ℕ) := do
  let b ← load line p
  if b = Ascii.quote then do
    let (length, q) ← readString line turns (p + 1)
    pure (p + 1, length, q)
  else do
    let q ← scanNumberTextAt line turns p
    pure (p, q - p, q)

/-- A member of a `fields` object. -/
def fieldMemberAt (line : Bytes) (turns keyStart keyLength p : ℕ) : Checked KvArray ℕ := do
  let (start, length, q) ← scanFieldValueAt line turns p
  kvArrayAddAt line keyStart keyLength line start length
  pure q

/-- A member of a `fields` object in `message_json_decode_data`. -/
def dataFieldMemberAt (line : Bytes) (turns keyStart keyLength p : ℕ) : Checked KvArray ℕ := do
  let a ← get
  if keyLength = 0 ∨ frameKvKeyMax ≤ keyLength ∨ frameDataMaxFields ≤ a.fieldCount then
    throw .refused
  else
    fieldMemberAt line turns keyStart keyLength p

/-- The value of a `fields` member. -/
def scanFieldsAt (line : Bytes) (turns : ℕ) (member : ℕ → ℕ → ℕ → Checked KvArray ℕ) (p : ℕ) :
    Checked KvArray ℕ := do
  let b ← load line p
  if b ≠ Ascii.openBrace then throw .refused else readObject line turns member (p + 1)

/-- `value_length >= sizeof(array)` is refused, and the value copied else. -/
def copyValue {n : ℕ} (a : Vector Byte n) (line : Bytes) (start length : ℕ) :
    Checked σ (Vector Byte n) :=
  if n ≤ length then throw .refused else copyText a line start length

/-- An object behind white space, to the place behind it. -/
def parseWithAt (line : Bytes) (turns : ℕ) (member : ℕ → ℕ → ℕ → Checked σ ℕ) : Checked σ ℕ := do
  let p ← skipWhile line isWhitespace turns 0
  let b ← peek line p
  if b ≠ Ascii.openBrace then throw .refused else readObject line turns member (p + 1)

/-! ## `json_parse_object` -/

/-- `json_object_t` in memory. -/
structure JsonObjectMemory where
  foundNode : Bool
  nodeId : Vector Byte 32
  foundSender : Bool
  sender : Vector Byte 32
  foundSeq : Bool
  sequence : UInt32
  foundLed : Bool
  ledValue : BitVec 32
  foundError : Bool
  error : Vector Byte 32
  foundType : Bool
  typeValue : Vector Byte 8
  foundFields : Bool
  fields : FieldsMemory
  fieldCount : ℕ

/-- All zero. -/
def JsonObjectMemory.zero : JsonObjectMemory :=
  ⟨false, TextArray.zero 32, false, TextArray.zero 32, false, 0, false, 0, false,
    TextArray.zero 32, false, TextArray.zero 8, false, FieldsMemory.zero, 0⟩

/-- The struct being filled, and the local variables of the function. -/
structure JsonObjectScan where
  out : JsonObjectMemory
  foundSeq : Bool
  foundLed : Bool
  sequence : UInt32
  ledValue : BitVec 32

namespace JsonObjectScan

/-- Behind the `memset` and the initializations. -/
def start : JsonObjectScan := ⟨.zero, false, false, 0, 0⟩

/-- The array that the pointers to `out->fields` and `out->field_count` stand for. -/
def kvArray (s : JsonObjectScan) : KvArray := ⟨s.out.fields, s.out.fieldCount⟩

def putKvArray (a : KvArray) (s : JsonObjectScan) : JsonObjectScan :=
  { s with out := { s.out with fields := a.fields, fieldCount := a.fieldCount } }

/-- What is written to the struct from the local variables at the end. -/
def finish (s : JsonObjectScan) : JsonObjectMemory :=
  { s.out with
    foundSeq := s.foundSeq
    sequence := s.sequence
    foundLed := s.foundLed
    ledValue := s.ledValue }

end JsonObjectScan

/-- A string value under its key. -/
def objectStringAt (line : Bytes) (isNode isSender isType isLed isError : Bool)
    (start length : ℕ) : Checked JsonObjectScan Unit := do
  let s ← get
  if isNode then do
    let nodeId ← copyValue s.out.nodeId line start length
    set { s with out := { s.out with nodeId := nodeId, foundNode := true } }
  else if isSender then do
    let sender ← copyValue s.out.sender line start length
    set { s with out := { s.out with sender := sender, foundSender := true } }
  else if isType then do
    let typeValue ← copyValue s.out.typeValue line start length
    set { s with out := { s.out with typeValue := typeValue, foundType := true } }
  else if isLed then
    if length = 0 then
      throw .refused
    else do
      -- `char number[16]`, of which `atoi` reads what is copied
      let number ← copyValue (TextArray.zero 16) line start length
      set { s with ledValue := atoi (cstr number.toList), foundLed := true }
  else if isError then
    if length = 0 then
      throw .refused
    else do
      let error ← copyValue s.out.error line start length
      set { s with out := { s.out with error := error, foundError := true } }
  else
    pure ()

/-- A number under its key. -/
def objectNumberAt (isSeq isLed negative : Bool) (value : ℕ) : Checked JsonObjectScan Unit := do
  let s ← get
  if isSeq then
    if negative then throw .refused
    else set { s with sequence := UInt32.ofNat value, foundSeq := true }
  else if isLed then
    let led := BitVec.ofNat 32 value
    set { s with ledValue := if negative then -led else led, foundLed := true }
  else
    pure ()

/-- A member of the object. -/
def objectMemberAt (line : Bytes) (turns keyStart keyLength p : ℕ) :
    Checked JsonObjectScan ℕ := do
  let isNode ← textIs line keyStart keyLength (ascii "node")
  let isSender ← textIs line keyStart keyLength (ascii "sender")
  let isSeq ← textIs line keyStart keyLength (ascii "seq")
  let isLed ← textIs line keyStart keyLength (ascii "led")
  let isError ← textIs line keyStart keyLength (ascii "error")
  let isType ← textIs line keyStart keyLength (ascii "type")
  let isFields ← textIs line keyStart keyLength (ascii "fields")
  if isFields then do
    let q ← onPart JsonObjectScan.kvArray JsonObjectScan.putKvArray
      (scanFieldsAt line turns (fieldMemberAt line turns) p)
    modify fun s => { s with out := { s.out with foundFields := true } }
    pure q
  else do
    let b ← load line p
    if b = Ascii.quote then do
      let (length, q) ← readString line turns (p + 1)
      objectStringAt line isNode isSender isType isLed isError (p + 1) length
      pure q
    else do
      let (negative, value, q) ← scanNumberAt line turns p
      objectNumberAt isSeq isLed negative value
      pure q

/-- `json_parse_object`: the bytes consumed, and the object as the call leaves it. -/
def jsonParseObjectAt (turns : ℕ) (line : Bytes) (out : JsonObjectMemory) :
    EStateM.Result Stop JsonObjectMemory ℕ :=
  if line.length = 0 then
    .error .refused out
  else
    match parseWithAt line turns (objectMemberAt line turns) JsonObjectScan.start with
    | .ok consumed s => .ok consumed s.finish
    | .error stop s => .error stop s.out

/-! ## The decoders over it -/

/-- What the command and the ACK take from the object as their fields: the array as it stands,
or the older single `led` as a field of a zeroed one. -/
def JsonObjectMemory.messageFields (obj : JsonObjectMemory) : KvArray :=
  if obj.foundFields then
    ⟨obj.fields, obj.fieldCount⟩
  else if obj.foundLed then
    ⟨FieldsMemory.zero.setIfInBounds 0
        (FrameKvMemory.zero.store (ascii "LED") (decimalInt obj.ledValue)), 1⟩
  else
    ⟨FieldsMemory.zero, 0⟩

/-- `message_json_decode_command`: the struct is zeroed first. The object is a local variable, of
any content. -/
def messageJsonDecodeCommandAt (turns : ℕ) (line : Bytes) (obj : JsonObjectMemory)
    (_command : CommandMemory) : EStateM.Result Stop CommandMemory ℕ :=
  let command := CommandMemory.zero
  match jsonParseObjectAt turns line obj with
  | .error stop _ => .error stop command
  | .ok consumed obj =>
    if !obj.foundNode ∨ !obj.foundSender ∨ !obj.foundSeq ∨ !obj.foundType then
      .error .refused command
    else if (cstr obj.typeValue.toList).bytes ≠ ascii "CMD" then
      .error .refused command
    else if 32 ≤ (cstr obj.nodeId.toList).bytes.length then
      .error .refused command
    else if 32 ≤ (cstr obj.sender.toList).bytes.length then
      .error .refused command
    else
      .ok consumed
        { targetNode := store command.targetNode (cstr obj.nodeId.toList).bytes
          message :=
            { id := store command.message.id (cstr obj.sender.toList).bytes
              sequence := obj.sequence
              fields := obj.messageFields.fields
              fieldCount := obj.messageFields.fieldCount } }

/-- `message_json_decode_ack`. -/
def messageJsonDecodeAckAt (turns : ℕ) (line : Bytes) (obj : JsonObjectMemory) (_ack : KvMemory) :
    EStateM.Result Stop KvMemory ℕ :=
  let ack := KvMemory.zero
  match jsonParseObjectAt turns line obj with
  | .error stop _ => .error stop ack
  | .ok consumed obj =>
    if !obj.foundNode ∨ !obj.foundSeq ∨ !obj.foundType then
      .error .refused ack
    else if (cstr obj.typeValue.toList).bytes ≠ ascii "ACK" then
      .error .refused ack
    else if 32 ≤ (cstr obj.nodeId.toList).bytes.length then
      .error .refused ack
    else
      .ok consumed
        { id := store ack.id (cstr obj.nodeId.toList).bytes
          sequence := obj.sequence
          fields := obj.messageFields.fields
          fieldCount := obj.messageFields.fieldCount }

/-- `message_json_decode_nack`. The node id and the sequence are written before the length of
the error is looked at. -/
def messageJsonDecodeNackAt (turns : ℕ) (line : Bytes) (obj : JsonObjectMemory)
    (_nack : NackMemory) : EStateM.Result Stop NackMemory ℕ :=
  let nack := NackMemory.zero
  match jsonParseObjectAt turns line obj with
  | .error stop _ => .error stop nack
  | .ok consumed obj =>
    if !obj.foundNode ∨ !obj.foundSeq ∨ !obj.foundError ∨ !obj.foundType then
      .error .refused nack
    else if (cstr obj.typeValue.toList).bytes ≠ ascii "NACK" then
      .error .refused nack
    else if 32 ≤ (cstr obj.nodeId.toList).bytes.length then
      .error .refused nack
    else
      let nack := { nack with
        nodeId := store nack.nodeId (cstr obj.nodeId.toList).bytes
        sequence := obj.sequence }
      if 32 ≤ (cstr obj.error.toList).bytes.length then
        .error .refused nack
      else
        .ok consumed { nack with error := store nack.error (cstr obj.error.toList).bytes }

/-! ## `message_json_decode_data` -/

/-- The struct being filled, and the local variables of the function. -/
structure DataScanMemory where
  data : KvMemory
  foundNode : Bool
  foundSeq : Bool
  foundType : Bool
  sequence : UInt32

namespace DataScanMemory

/-- Behind the `memset` and the initializations. -/
def start : DataScanMemory := ⟨.zero, false, false, false, 0⟩

/-- The array that the pointers to `data->fields` and `data->field_count` stand for. -/
def kvArray (s : DataScanMemory) : KvArray := ⟨s.data.fields, s.data.fieldCount⟩

def putKvArray (a : KvArray) (s : DataScanMemory) : DataScanMemory :=
  { s with data := { s.data with fields := a.fields, fieldCount := a.fieldCount } }

end DataScanMemory

/-- A string value under its key. -/
def dataStringAt (line : Bytes) (isNode isType : Bool) (start length : ℕ) :
    Checked DataScanMemory Unit := do
  let s ← get
  if isNode then do
    let id ← copyValue s.data.id line start length
    set { s with data := { s.data with id := id }, foundNode := true }
  else if isType then do
    let isData ← textIs line start length (ascii "DATA")
    if !isData then throw .refused else set { s with foundType := true }
  else
    pure ()

/-- The value of a `temperature` or a `humidity`: `snprintf` writes it to an array of its own,
and it is added as a field. -/
def dataX10At (line : Bytes) (turns : ℕ) (isTemp : Bool) (p : ℕ) : Checked DataScanMemory ℕ := do
  let (x10, q) ← jsonParseX10At line turns p
  let text := decimalInt x10
  if frameKvValueMax ≤ text.length then
    throw .refused
  else do
    onPart DataScanMemory.kvArray DataScanMemory.putKvArray
      (kvArrayAddAt (if isTemp then ascii "T" else ascii "H") 0 1
        (padded frameKvValueMax text).toList 0 text.length)
    pure q

/-- The value of a `seq` that is no string. -/
def dataSeqAt (line : Bytes) (turns p : ℕ) : Checked DataScanMemory ℕ := do
  let b ← load line p
  if b = Ascii.minus then
    throw .refused
  else do
    let (value, p) ← digitLoopAt line uint32Overflow turns 0 p
    let p ← skipFractionAt line turns p
    let p ← skipExponentAt line turns p
    modify fun s => { s with sequence := UInt32.ofNat value, foundSeq := true }
    pure p

/-- A number under another name, skipped. -/
def skipNumberAt (line : Bytes) (turns p : ℕ) : Checked σ ℕ := do
  let (_, p) ← skipMinusAt line p
  let p ← skipWhile line isDigit turns p
  let p ← skipFractionAt line turns p
  skipExponentAt line turns p

/-- A member of the object. -/
def dataMemberAt (line : Bytes) (turns keyStart keyLength p : ℕ) : Checked DataScanMemory ℕ := do
  let isNode ← textIs line keyStart keyLength (ascii "node")
  let isSeq ← textIs line keyStart keyLength (ascii "seq")
  let isTemp ← textIs line keyStart keyLength (ascii "temperature")
  let isHumi ← textIs line keyStart keyLength (ascii "humidity")
  let isType ← textIs line keyStart keyLength (ascii "type")
  let isFields ← textIs line keyStart keyLength (ascii "fields")
  if isFields then
    onPart DataScanMemory.kvArray DataScanMemory.putKvArray
      (scanFieldsAt line turns (dataFieldMemberAt line turns) p)
  else do
    let b ← load line p
    if b = Ascii.quote then do
      let (length, q) ← readString line turns (p + 1)
      dataStringAt line isNode isType (p + 1) length
      pure q
    else if isTemp || isHumi then
      dataX10At line turns isTemp p
    else if isSeq then
      dataSeqAt line turns p
    else
      skipNumberAt line turns p

/-- `message_json_decode_data`: the bytes consumed, and the struct as the call leaves it. -/
def messageJsonDecodeDataAt (turns : ℕ) (line : Bytes) (data : KvMemory) :
    EStateM.Result Stop KvMemory ℕ :=
  if line.length = 0 then
    .error .refused data
  else
    match parseWithAt line turns (dataMemberAt line turns) DataScanMemory.start with
    | .error stop s => .error stop s.data
    | .ok consumed s =>
      if !s.foundNode ∨ !s.foundSeq ∨ !s.foundType then
        .error .refused s.data
      else
        .ok consumed { s.data with sequence := s.sequence }

end SmartGateway
