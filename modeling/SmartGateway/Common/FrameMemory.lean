import SmartGateway.Common.FrameReading
import SmartGateway.Lib.TextArray

/-!
# What the frame decoders leave in memory

The message structs byte by byte, and the decoders of `common/frame_parser.c` as they write
to them. Each zeroes its struct before it looks at the payload, and the one they share writes
the id and the fields while it still checks the items, so a call that fails leaves what it
has written. On success the struct holds what the decoder gives.
-/

namespace SmartGateway

open TextArray

/-! ## The structs -/

/-- `frame_kv_t`. -/
structure FrameKvMemory where
  key : Vector Byte frameKvKeyMax
  value : Vector Byte frameKvValueMax
deriving DecidableEq

/-- A `fields` array. -/
abbrev FieldsMemory := Vector FrameKvMemory frameDataMaxFields

/-- `frame_data_t`, `frame_ack_t`, and the members of `frame_command_t` behind the target:
the id stands for `node_id` or `sender`. -/
structure KvMemory where
  id : Vector Byte 32
  sequence : UInt32
  fields : FieldsMemory
  fieldCount : ℕ
deriving DecidableEq

/-- `frame_command_t`. -/
structure CommandMemory where
  targetNode : Vector Byte 32
  message : KvMemory
deriving DecidableEq

/-- `frame_nack_t`. -/
structure NackMemory where
  nodeId : Vector Byte 32
  sequence : UInt32
  error : Vector Byte 32
deriving DecidableEq

namespace FrameKvMemory

/-- All zero. -/
def zero : FrameKvMemory := ⟨TextArray.zero _, TextArray.zero _⟩

/-- A key and a value copied in. -/
def store (slot : FrameKvMemory) (key value : Bytes) : FrameKvMemory :=
  ⟨TextArray.store slot.key key, TextArray.store slot.value value⟩

/-- A slot with a field in it and nothing else. -/
def holding (f : FrameKv) : FrameKvMemory := zero.store f.key.bytes f.value.bytes

end FrameKvMemory

namespace FieldsMemory

/-- All zero. -/
def zero : FieldsMemory := Vector.replicate _ FrameKvMemory.zero

/-- A key and a value copied to a slot. -/
def store (fields : FieldsMemory) (i : ℕ) (key value : Bytes) : FieldsMemory :=
  fields.mapIdx fun j slot => if j = i then slot.store key value else slot

/-- These fields in the first slots, and nothing else. -/
def holding (fs : List FrameKv) : FieldsMemory :=
  Vector.ofFn fun i => (fs[i.val]?).elim FrameKvMemory.zero FrameKvMemory.holding

end FieldsMemory

/-- All zero. -/
def KvMemory.zero : KvMemory := ⟨TextArray.zero 32, 0, FieldsMemory.zero, 0⟩

/-- All zero. -/
def CommandMemory.zero : CommandMemory := ⟨TextArray.zero 32, KvMemory.zero⟩

/-- All zero. -/
def NackMemory.zero : NackMemory := ⟨TextArray.zero 32, 0, TextArray.zero 32⟩

/-! ## The decoders -/

/-- The checks of `parse_kv_payload` before its first write, and what it goes on with: the
id, the sequence and the items. -/
def parseKvHead (frame : ParsedFrame) (type : Bytes) :
    Option (CharBuf 32 × UInt32 × List Bytes) :=
  if frameMaxLen ≤ frame.payload.length then
    none
  else
    match strtok Ascii.comma (cstr frame.payload) with
    | version :: id :: sequence :: typeToken :: items =>
      if frameDataMaxFields < items.length then
        none
      else if version ≠ ascii "1" then
        none
      else if typeToken ≠ type then
        none
      else
        match CharBuf.ofRaw? 32 id with
        | none => none
        | some id =>
          if sequence.length ≠ 6 then
            none
          else
            (parseUint32Decimal sequence).map fun sequence => (id, sequence, items)
    | _ => none

/-- The item loop of `parse_kv_payload`, from slot `i`: what it writes, and whether it comes
to its end. -/
def storeItems (i : ℕ) (fields : FieldsMemory) : List Bytes → FieldsMemory × Bool
  | [] => (fields, true)
  | kv :: items =>
    match parseKv kv with
    | none => (fields, false)
    | some f => storeItems (i + 1) (fields.store i f.key.bytes f.value.bytes) items

/-- A decoder of the kind: the struct zeroed, and `parse_kv_payload` writing to it. The
sequence and the count come last, from local variables. -/
def decodeKvInto (type : Bytes) (frame : ParsedFrame) (_out : KvMemory) : KvMemory × Bool :=
  let out := KvMemory.zero
  match parseKvHead frame type with
  | none => (out, false)
  | some (id, sequence, items) =>
    let out := { out with id := store out.id id.bytes }
    let (fields, done) := storeItems 0 out.fields items
    let out := { out with fields := fields }
    if done then ({ out with sequence := sequence, fieldCount := items.length }, true)
    else (out, false)

/-- `frame_decode_data`. -/
def frameDecodeDataInto : ParsedFrame → KvMemory → KvMemory × Bool := decodeKvInto (ascii "DATA")

/-- `frame_decode_ack`. -/
def frameDecodeAckInto : ParsedFrame → KvMemory → KvMemory × Bool := decodeKvInto (ascii "ACK")

/-- `frame_decode_command`. Nothing is written to the target node. -/
def frameDecodeCommandInto (frame : ParsedFrame) (out : CommandMemory) : CommandMemory × Bool :=
  let (message, done) := decodeKvInto (ascii "CMD") frame out.message
  (⟨TextArray.zero 32, message⟩, done)

/-- The checks of `frame_decode_nack` before its first write behind the zeroing, and what it
goes on with: the id, the sequence and the text of the error. -/
def parseNackHead (frame : ParsedFrame) : Option (CharBuf 32 × UInt32 × Bytes) :=
  match strtok Ascii.comma (cstr frame.payload) with
  | [version, id, sequence, typeToken, errToken] =>
    if version ≠ ascii "1" then
      none
    else if typeToken ≠ ascii "NACK" then
      none
    else if errToken.take 4 ≠ ascii "ERR=" then
      none
    else
      match CharBuf.ofRaw? 32 id with
      | none => none
      | some id =>
        if sequence.length ≠ 6 then
          none
        else
          (parseUint32Decimal sequence).map fun sequence => (id, sequence, errToken.drop 4)
  | _ => none

/-- `frame_decode_nack`. A payload too long for the copy is refused before the struct is
zeroed, and the sequence is written before the error is looked at. -/
def frameDecodeNackInto (frame : ParsedFrame) (out : NackMemory) : NackMemory × Bool :=
  if frameMaxLen ≤ frame.payload.length then
    (out, false)
  else
    let out := NackMemory.zero
    match parseNackHead frame with
    | none => (out, false)
    | some (id, sequence, error) =>
      let out := { out with sequence := sequence }
      if error = [] then
        (out, false)
      else
        match CharBuf.ofRaw? 32 error with
        | none => (out, false)
        | some error =>
          let out := { out with error := store out.error error.bytes }
          ({ out with nodeId := store out.nodeId id.bytes }, true)

/-! ## The item loop -/

/-- The items in front of the first one that is refused, read. -/
def readItems (items : List Bytes) : List FrameKv :=
  (items.takeWhile fun kv => (parseKv kv).isSome).filterMap parseKv

/-- Whether none is refused. -/
def AllRead (items : List Bytes) : Prop := ∀ kv ∈ items, parseKv kv ≠ none

instance (items : List Bytes) : Decidable (AllRead items) :=
  inferInstanceAs (Decidable (∀ kv ∈ items, parseKv kv ≠ none))

theorem FieldsMemory.holding_nil : FieldsMemory.holding [] = FieldsMemory.zero := by
  refine Vector.ext fun i hi => ?_
  rw [FieldsMemory.holding, FieldsMemory.zero, Vector.getElem_ofFn, Vector.getElem_replicate]
  rfl

/-- The next slot written. -/
theorem FieldsMemory.store_holding (fs : List FrameKv) (f : FrameKv) :
    (FieldsMemory.holding fs).store fs.length f.key.bytes f.value.bytes =
      FieldsMemory.holding (fs ++ [f]) := by
  refine Vector.ext fun i hi => ?_
  rw [FieldsMemory.store, Vector.getElem_mapIdx, FieldsMemory.holding, FieldsMemory.holding,
    Vector.getElem_ofFn, Vector.getElem_ofFn]
  dsimp only
  rcases Nat.lt_trichotomy i fs.length with hbefore | rfl | hbehind
  · rw [if_neg (by omega), List.getElem?_append_left hbefore]
  · rw [if_pos rfl, List.getElem?_eq_none le_rfl, List.getElem?_concat_length]
    rfl
  · have hnone : (fs ++ [f])[i]? = none := by
      rw [List.getElem?_eq_none_iff, List.length_append, List.length_singleton]
      exact hbehind
    rw [if_neg (by omega), hnone, List.getElem?_eq_none (by omega)]

theorem readItems_cons_none {kv : Bytes} (h : parseKv kv = none) (items : List Bytes) :
    readItems (kv :: items) = [] := by
  rw [readItems, List.takeWhile_cons_of_neg (by simp [h]), List.filterMap_nil]

theorem readItems_cons_some {kv : Bytes} {f : FrameKv} (h : parseKv kv = some f)
    (items : List Bytes) : readItems (kv :: items) = f :: readItems items := by
  rw [readItems, List.takeWhile_cons_of_pos (by simp [h]), List.filterMap_cons, h]
  rfl

theorem not_allRead_cons {kv : Bytes} (h : parseKv kv = none) (items : List Bytes) :
    ¬ AllRead (kv :: items) :=
  fun hall => hall kv List.mem_cons_self h

theorem allRead_cons_iff {kv : Bytes} {f : FrameKv} (h : parseKv kv = some f)
    (items : List Bytes) : AllRead (kv :: items) ↔ AllRead items := by
  unfold AllRead
  rw [List.forall_mem_cons, h]
  exact and_iff_right (Option.some_ne_none f)

/-- **The item loop** writes the items it reads, up to the first one that is refused. -/
theorem storeItems_eq (fs : List FrameKv) (items : List Bytes) :
    storeItems fs.length (FieldsMemory.holding fs) items =
      (FieldsMemory.holding (fs ++ readItems items), decide (AllRead items)) := by
  induction items generalizing fs with
  | nil =>
    rw [storeItems, readItems, List.takeWhile_nil, List.filterMap_nil, List.append_nil]
    rfl
  | cons kv items ih =>
    rw [storeItems]
    cases hkv : parseKv kv with
    | none =>
      rw [readItems_cons_none hkv, List.append_nil, decide_eq_false (not_allRead_cons hkv items)]
    | some f =>
      have hnext := ih (fs ++ [f])
      rw [List.length_append, List.length_singleton, ← FieldsMemory.store_holding,
        List.append_assoc] at hnext
      rw [readItems_cons_some hkv, decide_eq_decide.mpr (allRead_cons_iff hkv items)]
      exact hnext

/-- The fields handed on are those of the items, if all are read. -/
theorem parseItems_eq (items : List Bytes) :
    parseItems items = if AllRead items then some (readItems items) else none := by
  induction items with
  | nil => rfl
  | cons kv items ih =>
    rw [parseItems, ih]
    cases hkv : parseKv kv with
    | none => rw [if_neg (not_allRead_cons hkv items)]
    | some f =>
      rw [readItems_cons_some hkv]
      simp only [allRead_cons_iff hkv]
      split <;> rfl

/-! ## What a decoder leaves -/

/-- A decoder of the kind, by its parts. -/
theorem decodeKvInto_eq (type : Bytes) (frame : ParsedFrame) (out : KvMemory) :
    decodeKvInto type frame out =
      match parseKvHead frame type with
      | none => (KvMemory.zero, false)
      | some (id, sequence, items) =>
        if AllRead items then
          (⟨padded 32 id.bytes, sequence, .holding (readItems items), items.length⟩, true)
        else
          (⟨padded 32 id.bytes, 0, .holding (readItems items), 0⟩, false) := by
  unfold decodeKvInto
  cases parseKvHead frame type with
  | none => rfl
  | some head =>
    obtain ⟨id, sequence, items⟩ := head
    have hitems := storeItems_eq [] items
    rw [FieldsMemory.holding_nil, List.nil_append] at hitems
    dsimp only
    rw [show KvMemory.zero.fields = FieldsMemory.zero from rfl, ← List.length_nil (α := FrameKv),
      hitems]
    by_cases hall : AllRead items
    · rw [decide_eq_true hall, if_pos hall]
      rfl
    · rw [decide_eq_false hall, if_neg hall]
      rfl

/-- The payload is what the head and the items say. -/
theorem parseKvPayload_eq_map (frame : ParsedFrame) (type : Bytes) :
    (parseKvPayload frame type).map (fun p => (p.id, p.sequence, p.fields.1)) =
      (parseKvHead frame type).bind fun head =>
        (parseItems head.2.2).map fun fs => (head.1, head.2.1, fs) := by
  unfold parseKvPayload parseKvHead
  by_cases hlong : frameMaxLen ≤ frame.payload.length
  · rw [if_pos hlong, if_pos hlong]
    rfl
  rw [if_neg hlong, if_neg hlong]
  generalize strtok Ascii.comma (cstr frame.payload) = tokens
  -- fewer than four tokens: no decoder looks at any of them
  rcases tokens with _ | ⟨version, _ | ⟨id, _ | ⟨sequence, _ | ⟨typeToken, items⟩⟩⟩⟩
  · rfl
  · rfl
  · rfl
  · rfl
  dsimp only
  by_cases hcount : frameDataMaxFields < items.length
  · rw [dif_pos hcount, if_pos hcount]
    rfl
  rw [dif_neg hcount, if_neg hcount]
  by_cases hversion : version ≠ ascii "1"
  · rw [if_pos hversion, if_pos hversion]
    rfl
  rw [if_neg hversion, if_neg hversion]
  by_cases htype : typeToken ≠ type
  · rw [if_pos htype, if_pos htype]
    rfl
  rw [if_neg htype, if_neg htype]
  cases CharBuf.ofRaw? 32 id with
  | none => rfl
  | some id =>
    dsimp only
    by_cases hlength : sequence.length ≠ 6
    · rw [if_pos hlength, if_pos hlength]
      rfl
    rw [if_neg hlength, if_neg hlength]
    cases parseUint32Decimal sequence with
    | none => rfl
    | some sequence =>
      dsimp only
      rw [Option.map_some, Option.bind_some]
      -- what is left is the same reading of the items
      split
      · rename_i hnone
        rw [hnone]
        rfl
      · rename_i fields hsome
        exact (congrArg (Option.map fun fs => (id, sequence, fs)) hsome).symm

/-- A struct with a message in it and nothing else. -/
def KvMemory.holding (id : CharBuf 32) (sequence : UInt32) (fields : FrameFields) : KvMemory :=
  ⟨padded 32 id.bytes, sequence, .holding fields.1, fields.1.length⟩

/-- **A decoder that succeeds** leaves the message that the payload gives. -/
theorem decodeKvInto_payload (type : Bytes) (frame : ParsedFrame) (out : KvMemory) :
    (parseKvPayload frame type = none ∧ (decodeKvInto type frame out).2 = false) ∨
      ∃ p, parseKvPayload frame type = some p ∧
        decodeKvInto type frame out = (.holding p.id p.sequence p.fields, true) := by
  have hmap := parseKvPayload_eq_map frame type
  rw [decodeKvInto_eq]
  cases hhead : parseKvHead frame type with
  | none =>
    rw [hhead, Option.bind_none, Option.map_eq_none_iff] at hmap
    exact .inl ⟨hmap, rfl⟩
  | some head =>
    obtain ⟨id, sequence, items⟩ := head
    rw [hhead, Option.bind_some, parseItems_eq] at hmap
    dsimp only at hmap ⊢
    by_cases hall : AllRead items
    · rw [if_pos hall, Option.map_some, Option.map_eq_some_iff] at hmap
      obtain ⟨p, hp, hparts⟩ := hmap
      obtain ⟨rfl, hrest⟩ := Prod.mk.inj hparts
      obtain ⟨rfl, hfields⟩ := Prod.mk.inj hrest
      have hlength := length_parseItems ((parseItems_eq items).trans (if_pos hall))
      refine .inr ⟨p, hp, ?_⟩
      rw [if_pos hall, KvMemory.holding, hfields, hlength]
    · rw [if_neg hall, Option.map_none, Option.map_eq_none_iff] at hmap
      exact .inl ⟨hmap, by rw [if_neg hall]⟩

/-- **A NACK decoder that succeeds** leaves what the frame gives. -/
theorem frameDecodeNackInto_payload (frame : ParsedFrame) (out : NackMemory) :
    (frameDecodeNack frame = none ∧ (frameDecodeNackInto frame out).2 = false) ∨
      ∃ nack, frameDecodeNack frame = some nack ∧ frameDecodeNackInto frame out =
        (⟨padded 32 nack.nodeId.bytes, nack.sequence, padded 32 nack.error.bytes⟩, true) := by
  unfold frameDecodeNack frameDecodeNackInto parseNackHead
  by_cases hlong : frameMaxLen ≤ frame.payload.length
  · rw [if_pos hlong, if_pos hlong]
    exact .inl ⟨rfl, rfl⟩
  rw [if_neg hlong, if_neg hlong]
  generalize strtok Ascii.comma (cstr frame.payload) = tokens
  -- only five tokens are looked at
  rcases tokens with _ | ⟨version, _ | ⟨id, _ | ⟨sequence, _ | ⟨typeToken, _ | ⟨errToken,
    _ | ⟨token, tokens⟩⟩⟩⟩⟩⟩
  · exact .inl ⟨rfl, rfl⟩
  · exact .inl ⟨rfl, rfl⟩
  · exact .inl ⟨rfl, rfl⟩
  · exact .inl ⟨rfl, rfl⟩
  · exact .inl ⟨rfl, rfl⟩
  swap
  · exact .inl ⟨rfl, rfl⟩
  -- both make the same tests in the same order
  dsimp only
  by_cases hversion : version ≠ ascii "1"
  · rw [if_pos hversion, if_pos hversion]
    exact .inl ⟨rfl, rfl⟩
  rw [if_neg hversion, if_neg hversion]
  by_cases htype : typeToken ≠ ascii "NACK"
  · rw [if_pos htype, if_pos htype]
    exact .inl ⟨rfl, rfl⟩
  rw [if_neg htype, if_neg htype]
  by_cases herr : errToken.take 4 ≠ ascii "ERR="
  · rw [if_pos herr, if_pos herr]
    exact .inl ⟨rfl, rfl⟩
  rw [if_neg herr, if_neg herr]
  cases CharBuf.ofRaw? 32 id with
  | none => exact .inl ⟨rfl, rfl⟩
  | some id =>
    dsimp only
    by_cases hlength : sequence.length ≠ 6
    · rw [if_pos hlength, if_pos hlength]
      exact .inl ⟨rfl, rfl⟩
    rw [if_neg hlength, if_neg hlength]
    cases parseUint32Decimal sequence with
    | none => exact .inl ⟨rfl, rfl⟩
    | some sequence =>
      rw [Option.map_some]
      dsimp only
      by_cases hempty : errToken.drop 4 = []
      · rw [if_pos hempty, if_pos hempty]
        exact .inl ⟨rfl, rfl⟩
      rw [if_neg hempty, if_neg hempty]
      cases CharBuf.ofRaw? 32 (errToken.drop 4) with
      | none => exact .inl ⟨rfl, rfl⟩
      | some error => exact .inr ⟨_, rfl, rfl⟩

/-! ## When nothing changes -/

/-- The struct is what a failed call leaves of it: zero, if the call fails before it writes;
the id and the items that were read, if it fails at an item. A call that succeeds is not
asked about. -/
def KvUntouched (type : Bytes) (frame : ParsedFrame) (out : KvMemory) : Prop :=
  match parseKvHead frame type with
  | none => out = .zero
  | some (id, _, items) =>
    AllRead items ∨ out = ⟨padded 32 id.bytes, 0, .holding (readItems items), 0⟩

/-- The same for a command, which has a target node besides, zeroed too. -/
def CommandUntouched (frame : ParsedFrame) (out : CommandMemory) : Prop :=
  match parseKvHead frame (ascii "CMD") with
  | none => out = .zero
  | some (id, _, items) =>
    AllRead items ∨
      out = ⟨TextArray.zero 32, ⟨padded 32 id.bytes, 0, .holding (readItems items), 0⟩⟩

/-- The same for a NACK: a payload too long is refused before the struct is zeroed, and a
bad error behind a sequence leaves the sequence. -/
def NackUntouched (frame : ParsedFrame) (out : NackMemory) : Prop :=
  frameMaxLen ≤ frame.payload.length ∨
    match parseNackHead frame with
    | none => out = .zero
    | some (_, sequence, error) =>
      (error ≠ [] ∧ error.length < 32) ∨ out = { NackMemory.zero with sequence := sequence }

/-- A decoder of the kind. -/
theorem decodeKvInto_untouched_iff (type : Bytes) (frame : ParsedFrame) (out : KvMemory) :
    ((decodeKvInto type frame out).2 = false → (decodeKvInto type frame out).1 = out) ↔
      KvUntouched type frame out := by
  rw [decodeKvInto_eq, KvUntouched]
  cases parseKvHead frame type with
  | none => exact ⟨fun h => (h rfl).symm, fun h _ => h.symm⟩
  | some head =>
    obtain ⟨id, sequence, items⟩ := head
    dsimp only
    by_cases hall : AllRead items
    · rw [if_pos hall]
      exact iff_of_true (fun h => absurd h (by simp)) (.inl hall)
    · rw [if_neg hall]
      constructor
      · exact fun h => .inr (h rfl).symm
      · rintro (hread | hleft) _
        · exact absurd hread hall
        · exact hleft.symm

/-- The command decoder, which is one of the kind behind its target node. -/
theorem frameDecodeCommandInto_untouched_iff (frame : ParsedFrame) (out : CommandMemory) :
    ((frameDecodeCommandInto frame out).2 = false → (frameDecodeCommandInto frame out).1 = out) ↔
      CommandUntouched frame out := by
  rw [frameDecodeCommandInto, decodeKvInto_eq, CommandUntouched]
  cases parseKvHead frame (ascii "CMD") with
  | none => exact ⟨fun h => (h rfl).symm, fun h _ => h.symm⟩
  | some head =>
    obtain ⟨id, sequence, items⟩ := head
    dsimp only
    by_cases hall : AllRead items
    · rw [if_pos hall]
      exact iff_of_true (fun h => absurd h (by simp)) (.inl hall)
    · rw [if_neg hall]
      constructor
      · exact fun h => .inr (h rfl).symm
      · rintro (hread | hleft) _
        · exact absurd hread hall
        · exact hleft.symm

theorem frameDecodeNackInto_untouched_iff (frame : ParsedFrame) (out : NackMemory) :
    ((frameDecodeNackInto frame out).2 = false → (frameDecodeNackInto frame out).1 = out) ↔
      NackUntouched frame out := by
  rw [frameDecodeNackInto, NackUntouched]
  by_cases hlong : frameMaxLen ≤ frame.payload.length
  · rw [if_pos hlong]
    exact iff_of_true (fun _ => rfl) (.inl hlong)
  rw [if_neg hlong, or_iff_right hlong]
  cases parseNackHead frame with
  | none => exact ⟨fun h => (h rfl).symm, fun h _ => h.symm⟩
  | some head =>
    obtain ⟨id, sequence, error⟩ := head
    dsimp only
    -- id and sequence are written by now; only the error text can still be refused
    by_cases hempty : error = []
    · rw [if_pos hempty]
      constructor
      · exact fun h => .inr (h rfl).symm
      · rintro (⟨hne, -⟩ | hleft) _
        · exact absurd hempty hne
        · exact hleft.symm
    rw [if_neg hempty]
    by_cases hshort : error.length < 32
    · rw [CharBuf.ofRaw?, dif_pos hshort]
      exact iff_of_true (fun h => absurd h (by simp)) (.inl ⟨hempty, hshort⟩)
    · rw [CharBuf.ofRaw?, dif_neg hshort]
      constructor
      · exact fun h => .inr (h rfl).symm
      · rintro (⟨-, hlt⟩ | hleft) _
        · exact absurd hlt hshort
        · exact hleft.symm

/-- **A failed decode changes its struct**, unless the struct held already what the call
leaves of it. For each decoder, every frame and every content of the struct before: a call
that fails leaves the content as it was exactly if the frame is decoded, or the content is
what is written before the failure (nothing but zeros, or the zeros with the id and the
items that were read, or with the sequence of a NACK; nothing at all, for a NACK whose
payload is too long). -/
theorem frameDecode_untouched_iff (frame : ParsedFrame) (out : KvMemory)
    (command : CommandMemory) (nack : NackMemory) :
    (((frameDecodeDataInto frame out).2 = false → (frameDecodeDataInto frame out).1 = out) ↔
        KvUntouched (ascii "DATA") frame out) ∧
      (((frameDecodeCommandInto frame command).2 = false →
          (frameDecodeCommandInto frame command).1 = command) ↔
        CommandUntouched frame command) ∧
      (((frameDecodeAckInto frame out).2 = false → (frameDecodeAckInto frame out).1 = out) ↔
        KvUntouched (ascii "ACK") frame out) ∧
      (((frameDecodeNackInto frame nack).2 = false →
          (frameDecodeNackInto frame nack).1 = nack) ↔ NackUntouched frame nack) :=
  ⟨decodeKvInto_untouched_iff (ascii "DATA") frame out,
    frameDecodeCommandInto_untouched_iff frame command,
    decodeKvInto_untouched_iff (ascii "ACK") frame out,
    frameDecodeNackInto_untouched_iff frame nack⟩

/-- A node sends `@1,N1,000001,DATA,T*0310` and a line end, whose one item has no value. The
struct held nothing; the call fails and leaves the node id in it. -/
theorem not_frameDecodeData_untouched :
    let line := ascii "@1,N1,000001,DATA,T*0310" ++ [Ascii.cr, Ascii.lf]
    let frame : ParsedFrame := ⟨line, ascii "1,N1,000001,DATA,T", 0x0310#16, 0x0310#16⟩
    (frameParserFeed frameParserInit line).2 = [frame] ∧
      (frameDecodeDataInto frame .zero).2 = false ∧
      (frameDecodeDataInto frame .zero).1 = { KvMemory.zero with id := padded 32 (ascii "N1") } ∧
      (frameDecodeDataInto frame .zero).1 ≠ .zero := by
  decide +kernel

end SmartGateway
