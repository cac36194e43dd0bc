import SmartGateway.Common.FrameStream

/-!
# Builders and decoders agree

What a builder of `frame.c` returns, read back: the bytes spell a frame, so the
parser delivers it, and the decoder of its kind finds the id, the sequence
number reduced to six digits, and the fields in order. The argument follows the
payload, `1,ID,SEQ,TYPE` and then `,KEY=VALUE` for each field, through the
builder's checks and through the cut at its commas.
-/

namespace SmartGateway

open Numeral

/-! ## What the builders check -/

theorem textIsValid_iff {reserved text : Bytes} :
    textIsValid reserved text = true ↔ text ≠ [] ∧ ∀ b ∈ reserved, b ∉ text := by
  simp only [textIsValid, Bool.and_eq_true, Bool.not_eq_true', List.isEmpty_eq_false_iff,
    List.all_eq_true, List.contains_eq_mem, decide_eq_false_iff_not]
  refine and_congr_right fun _ => ?_
  exact ⟨fun h b hb ht => h b ht hb, fun h b hb ht => h b ht hb⟩

/-- The two texts of a field that a builder accepts. -/
structure FieldOk (f : FrameKv) : Prop where
  key : fieldTextIsValid f.key.bytes = true
  value : fieldTextIsValid f.value.bytes = true

/-- The data area of a list of fields. -/
def fieldsText (fs : List FrameKv) : Bytes := fs.flatMap kvText

@[simp] theorem fieldsText_nil : fieldsText [] = [] := rfl

@[simp] theorem fieldsText_cons (f : FrameKv) (fs : List FrameKv) :
    fieldsText (f :: fs) = kvText f ++ fieldsText fs := rfl

/-- The field loop accepts valid fields that fit, and appends their text. -/
theorem appendFields_eq_ok {crcData out : Bytes} {fs : List FrameKv}
    (h : appendFields crcData fs = .ok out) (hlen : crcData.length < frameMaxLen) :
    (∀ f ∈ fs, FieldOk f) ∧ out = crcData ++ fieldsText fs ∧ out.length < frameMaxLen := by
  induction fs generalizing crcData with
  | nil =>
    obtain rfl : crcData = out := by simpa [appendFields] using h
    simpa using hlen
  | cons f fs ih =>
    rw [appendFields] at h
    -- the tests of one turn: the field is valid, and its text fits
    split at h
    · exact absurd h (by simp)
    rename_i hvalid
    split at h
    · exact absurd h (by simp)
    split at h
    · exact absurd h (by simp)
    rename_i hfull hroom
    simp only [not_or, Bool.not_eq_true', Bool.not_eq_false] at hvalid
    have hroom' : (crcData ++ kvText f).length < frameMaxLen := by
      rw [List.length_append]
      omega
    obtain ⟨hfs, hout, houtlen⟩ := ih h hroom'
    refine ⟨?_, ?_, houtlen⟩
    · intro g hg
      rcases List.mem_cons.mp hg with rfl | hg
      · exact ⟨hvalid.2.2.1, hvalid.2.2.2⟩
      · exact hfs g hg
    · rw [hout, fieldsText_cons, List.append_assoc]

/-- What `build_kv_frame` has checked when it returns a length. -/
theorem buildKvFrame_eq_ok {outSize : ℕ} {id : CStr} {sequence : UInt32} {type : Bytes}
    {fs : List FrameKv} {out : Bytes} (h : buildKvFrame outSize id sequence type fs = .ok out) :
    nodeIdIsValid id.bytes = true ∧ (∀ f ∈ fs, FieldOk f) ∧ fs.length ≤ frameDataMaxFields ∧
      ∃ payload, payload = frameHead id.bytes (sequence % 1000000).toNat type ++ fieldsText fs ∧
        payload.length < frameMaxLen ∧ out = frameText payload (crc16CcittFalse payload) ∧
        out.length < outSize := by
  unfold buildKvFrame at h
  split at h
  · exact absurd h (by simp)
  split at h
  · exact absurd h (by simp)
  rename_i hmany
  split at h
  · exact absurd h (by simp)
  rename_i hid
  dsimp only at h
  split at h
  · exact absurd h (by simp)
  rename_i hhead
  split at h
  · exact absurd h (by simp)
  rename_i payload hpayload
  obtain ⟨hfs, hout, hlen⟩ := appendFields_eq_ok hpayload (by omega)
  rw [sealFrame] at h
  split at h
  · exact absurd h (by simp)
  rename_i hsize
  obtain rfl : frameText payload (crc16CcittFalse payload) = out := by simpa using h
  exact ⟨by simpa using hid, hfs, by omega, payload, hout, hlen, rfl, by omega⟩

/-- What `frame_build_nack` has checked when it returns a length. -/
theorem frameBuildNack_eq_ok {outSize : ℕ} {id error : CStr} {sequence : UInt32} {out : Bytes}
    (h : frameBuildNack outSize id sequence error = .ok out) :
    nodeIdIsValid id.bytes = true ∧ nodeIdIsValid error.bytes = true ∧
      ∃ payload, payload = frameHead id.bytes (sequence % 1000000).toNat
          (ascii "NACK,ERR=" ++ error.bytes) ∧
        payload.length < frameMaxLen ∧ out = frameText payload (crc16CcittFalse payload) ∧
        out.length < outSize := by
  unfold frameBuildNack at h
  split at h
  · exact absurd h (by simp)
  split at h
  · exact absurd h (by simp)
  rename_i hid
  split at h
  · exact absurd h (by simp)
  rename_i herror
  dsimp only at h
  split at h
  · exact absurd h (by simp)
  rename_i hlen
  rw [sealFrame] at h
  split at h
  · exact absurd h (by simp)
  rename_i hsize
  rw [Except.ok.injEq] at h
  subst h
  exact ⟨by simpa using hid, by simpa using herror, _, rfl, by omega, rfl, by omega⟩

/-! ## The frame is delivered -/

theorem hexDigitOf_hexDigit {n : ℕ} (h : n < 16) : HexDigitOf (hexDigit n) n := by
  unfold HexDigitOf hexDigit
  split
  · left
    refine ⟨by omega, ?_⟩
    rw [UInt8.toNat_ofNat']
    omega
  · right
    refine ⟨by omega, h, Or.inl ?_⟩
    rw [UInt8.toNat_ofNat']
    omega

/-- `%04X` prints the four digits of the value. -/
theorem hexTextOf_hex04X (crc : BitVec 16) : HexTextOf (hex04X crc) crc := by
  have hlt := crc.isLt
  refine ⟨_, _, _, _, _, _, _, _, rfl, hexDigitOf_hexDigit (Nat.mod_lt _ (by decide)),
    hexDigitOf_hexDigit (Nat.mod_lt _ (by decide)), hexDigitOf_hexDigit (Nat.mod_lt _ (by decide)),
    hexDigitOf_hexDigit (Nat.mod_lt _ (by decide)), ?_⟩
  omega

/-- The frame the parser reads out of a sealed payload. -/
def sealedFrame (payload : Bytes) : ParsedFrame where
  raw := frameText payload (crc16CcittFalse payload)
  payload := payload
  receivedCrc := crc16CcittFalse payload
  calculatedCrc := crc16CcittFalse payload

/-- **A sealed payload arrives.** -/
theorem frameParserFeed_frameText {payload : Bytes} (hne : payload ≠ [])
    (hnul : (0 : Byte) ∉ payload) (hat : Ascii.atSign ∉ payload) (hlf : Ascii.lf ∉ payload)
    (hlen : (frameText payload (crc16CcittFalse payload)).length < frameMaxLen) :
    (frameParserFeed frameParserInit (frameText payload (crc16CcittFalse payload))).2 =
      [sealedFrame payload] := by
  have hframe : IsFrame (frameText payload (crc16CcittFalse payload)) (sealedFrame payload) :=
    ⟨rfl, ⟨_, rfl, hexTextOf_hex04X _⟩, hne, hnul, rfl, rfl⟩
  have htracks := tracks_of_waiting waiting_init
  exact (htracks.feed_intact hframe (by omega) hat hlf).1

/-- Nothing but the sealed payload arrives, however long the text is. -/
theorem eq_of_mem_frameParserFeed_frameText {payload : Bytes} (hne : payload ≠ [])
    (hnul : (0 : Byte) ∉ payload) (hat : Ascii.atSign ∉ payload) (hlf : Ascii.lf ∉ payload)
    {frame : ParsedFrame}
    (h : frame ∈ (frameParserFeed frameParserInit
      (frameText payload (crc16CcittFalse payload))).2) : frame = sealedFrame payload := by
  have hhex := hexTextOf_hex04X (crc16CcittFalse payload)
  obtain ⟨t, htext, htat, htlf⟩ : ∃ t, frameText payload (crc16CcittFalse payload) =
      Ascii.atSign :: (t ++ [Ascii.lf]) ∧ Ascii.atSign ∉ t ∧ Ascii.lf ∉ t := by
    refine ⟨payload ++ Ascii.star :: (hex04X (crc16CcittFalse payload) ++ [Ascii.cr]),
      by simp [frameText], ?_, ?_⟩
    · simp [hat, hhex.not_mem (b := Ascii.atSign) (by decide)]
    · simp [hlf, hhex.not_mem (b := Ascii.lf) (by decide)]
  obtain ⟨i, j, hplace⟩ := exists_isFrameAt_of_mem h
  -- the only `@` of the text is its first byte, the only line feed its last
  have hi : i = 0 := by
    have hstart := hplace.start
    rw [htext] at hstart
    cases i with
    | zero => rfl
    | succ i =>
      rw [List.getElem?_cons_succ] at hstart
      rcases List.mem_append.mp (List.mem_of_getElem? hstart) with hmem | hmem
      · exact absurd hmem htat
      · exact absurd (List.mem_singleton.mp hmem) (by decide)
  have hj : j + 1 = (frameText payload (crc16CcittFalse payload)).length := by
    have hstop := hplace.stop
    have hlt : j < (frameText payload (crc16CcittFalse payload)).length :=
      (List.getElem?_eq_some_iff.mp hstop).1
    rw [htext] at hstop hlt ⊢
    have hpos := hplace.lt
    obtain ⟨j, rfl⟩ : ∃ k, j = k + 1 := ⟨j - 1, by omega⟩
    rw [List.getElem?_cons_succ] at hstop
    simp only [List.length_cons, List.length_append, List.length_nil] at hlt ⊢
    by_contra hshort
    rw [List.getElem?_append_left (by omega)] at hstop
    exact htlf (List.mem_of_getElem? hstop)
  have hslice : slice (frameText payload (crc16CcittFalse payload)) i j =
      frameText payload (crc16CcittFalse payload) := by
    rw [slice, hi, List.drop_zero, hj, Nat.sub_zero, List.take_length]
  have hframe := hplace.isFrame
  rw [hslice] at hframe
  exact hframe.unique ⟨rfl, ⟨_, rfl, hhex⟩, hne, hnul, rfl, rfl⟩

/-! ## The payload is cut at its commas -/

/-- A byte the head of a payload is free of. -/
theorem not_mem_frameHead {b : Byte} {id type : Bytes} {n : ℕ} (hdigit : isDigit b = false)
    (hcomma : b ≠ Ascii.comma) (hid : b ∉ id) (htype : b ∉ type) : b ∉ frameHead id n type := by
  have h1 : b ∉ ascii "1" := by
    intro h
    change b ∈ [(49 : Byte)] at h
    rw [List.mem_singleton.mp h] at hdigit
    exact absurd hdigit (by decide)
  simp [frameHead, h1, hid, htype, hcomma, not_mem_decimalPad hdigit]

/-- A byte the data area is free of. -/
theorem not_mem_fieldsText {b : Byte} {fs : List FrameKv} (hcomma : b ≠ Ascii.comma)
    (hequals : b ≠ Ascii.equals) (hfs : ∀ f ∈ fs, b ∉ f.key.bytes ∧ b ∉ f.value.bytes) :
    b ∉ fieldsText fs := by
  induction fs with
  | nil => simp
  | cons f fs ih =>
    have hf := hfs f (by simp)
    have ih := ih fun g hg => hfs g (by simp [hg])
    simp [kvText, hf, ih, hcomma, hequals]

/-- The tokens of a data area behind a first token. -/
theorem tokens_fieldsText {fs : List FrameKv} (hfs : ∀ f ∈ fs, FieldOk f) {t : Bytes}
    (hne : t ≠ []) (ht : Ascii.comma ∉ t) :
    tokens Ascii.comma (t ++ fieldsText fs) =
      t :: fs.map fun f => f.key.bytes ++ Ascii.equals :: f.value.bytes := by
  induction fs generalizing t with
  | nil => simpa using tokens_of_not_mem hne ht
  | cons f fs ih =>
    have hkey := (textIsValid_iff.mp (hfs f (by simp)).key).2 Ascii.comma (by decide)
    have hvalue := (textIsValid_iff.mp (hfs f (by simp)).value).2 Ascii.comma (by decide)
    have hitem : Ascii.comma ∉ f.key.bytes ++ Ascii.equals :: f.value.bytes := by
      simp [hkey, hvalue]
    rw [fieldsText_cons, kvText, List.cons_append, List.cons_append, tokens_append_cons hne ht,
      ih (fun g hg => hfs g (by simp [hg])) (by simp) hitem]
    rfl

/-- The tokens of a head, and of what follows its type. -/
theorem tokens_frameHead {id type rest : Bytes} {n : ℕ} (hne : id ≠ []) (hid : Ascii.comma ∉ id) :
    tokens Ascii.comma (frameHead id n type ++ rest) =
      ascii "1" :: id :: decimalPad 6 n :: tokens Ascii.comma (type ++ rest) := by
  have hpad : decimalPad 6 n ≠ [] := by
    simp [decimalPad]
  have hnot : Ascii.comma ∉ decimalPad 6 n := not_mem_decimalPad (by decide)
  have hassoc : frameHead id n type ++ rest = ascii "1" ++ Ascii.comma :: (id ++ Ascii.comma ::
      (decimalPad 6 n ++ Ascii.comma :: (type ++ rest))) := by
    simp [frameHead]
  rw [hassoc, tokens_append_cons (by decide) (by decide), tokens_append_cons hne hid,
    tokens_append_cons hpad hnot]

/-! ## The decoders find what was built -/

/-- An item of the data area is its field. -/
theorem parseKv_item {f : FrameKv} (h : FieldOk f) :
    parseKv (f.key.bytes ++ Ascii.equals :: f.value.bytes) = some f := by
  obtain ⟨hkne, hkey⟩ := textIsValid_iff.mp h.key
  obtain ⟨hvne, -⟩ := textIsValid_iff.mp h.value
  have hpos : ∀ b ∈ f.key.bytes, decide (b ≠ Ascii.equals) = true := by
    intro b hb
    simpa using fun he : b = Ascii.equals => hkey Ascii.equals (by decide) (he ▸ hb)
  have htake : (f.key.bytes ++ Ascii.equals :: f.value.bytes).takeWhile (· ≠ Ascii.equals) =
      f.key.bytes := by
    rw [List.takeWhile_append_of_pos hpos]
    simp
  have hdrop : (f.key.bytes ++ Ascii.equals :: f.value.bytes).dropWhile (· ≠ Ascii.equals) =
      Ascii.equals :: f.value.bytes := by
    rw [List.dropWhile_append_of_pos hpos]
    simp
  rw [parseKv, htake, hdrop]
  simp [hkne, hvne]

theorem parseItems_items {fs : List FrameKv} (hfs : ∀ f ∈ fs, FieldOk f) :
    parseItems (fs.map fun f => f.key.bytes ++ Ascii.equals :: f.value.bytes) = some fs := by
  induction fs with
  | nil => rfl
  | cons f fs ih =>
    rw [List.map_cons, parseItems, parseKv_item (hfs f (by simp)),
      ih fun g hg => hfs g (by simp [hg])]
    rfl

/-- A printed sequence number is read back. -/
theorem parseUint32Decimal_decimalPad {n : ℕ} (h : n < 1000000) :
    parseUint32Decimal (decimalPad 6 n) = some (UInt32.ofNat n) := by
  have hne : decimalPad 6 n ≠ [] := by simp [decimalPad]
  have hall : (decimalPad 6 n).all isDigit = true :=
    List.all_eq_true.mpr fun b hb => isDigit_of_mem_decimalPad hb
  have hdigit : ∀ b, (decimalPad 6 n).head? = some b → isDigit b = true := by
    intro b hb
    exact isDigit_of_mem_decimalPad (List.mem_of_mem_head? hb)
  -- a digit is neither a blank nor a sign, so `strtoul` skips nothing
  have hspace : (decimalPad 6 n).dropWhile isspace = decimalPad 6 n := by
    cases hpad : decimalPad 6 n with
    | nil => rfl
    | cons b rest =>
      have hb := isDigit_iff.mp (hdigit b (by rw [hpad]; rfl))
      have hnot : isspace b = false := by
        simp only [isspace, Bool.or_eq_false_iff, decide_eq_false_iff_not, Bool.and_eq_false_iff,
          UInt8.le_iff_toNat_le]
        refine ⟨?_, Or.inr ?_⟩
        · rintro rfl
          exact absurd hb.1 (by decide)
        · change ¬ b.toNat ≤ 13
          omega
      simp [hnot]
  have hminus : (decimalPad 6 n).head? ≠ some Ascii.minus := fun h =>
    absurd (hdigit _ h) (by decide)
  have hplus : (decimalPad 6 n).head? ≠ some Ascii.plus := fun h =>
    absurd (hdigit _ h) (by decide)
  have hstrtoul : strtoul (decimalPad 6 n) = some n := by
    unfold strtoul
    rw [hspace]
    simp [hminus, hplus, hne, hall, ulongMax]
    omega
  rw [parseUint32Decimal, if_neg hne, hstrtoul]
  simp
  omega

theorem toNat_mod_million_lt (sequence : UInt32) : (sequence % 1000000).toNat < 1000000 := by
  rw [UInt32.toNat_mod]
  exact Nat.mod_lt _ (by decide)

/-- A number of six digits is not changed by the frames. -/
theorem mod_million_eq_iff (n : UInt32) : n % 1000000 = n ↔ n < 1000000 := by
  rw [← UInt32.toNat_inj, UInt32.toNat_mod, UInt32.lt_iff_toNat_lt]
  exact Nat.mod_eq_iff_lt (by decide)

/-- The payload of a kv frame has none of the bytes that are neither separators
nor in its texts. -/
theorem not_mem_kvPayload {b : Byte} {id : CStr} {type : Bytes} {fs : List FrameKv} {n : ℕ}
    (hdigit : isDigit b = false) (hcomma : b ≠ Ascii.comma) (hequals : b ≠ Ascii.equals)
    (hid : b ∉ id.bytes) (htype : b ∉ type)
    (hfs : ∀ f ∈ fs, b ∉ f.key.bytes ∧ b ∉ f.value.bytes) :
    b ∉ frameHead id.bytes n type ++ fieldsText fs := by
  rw [List.mem_append, not_or]
  exact ⟨not_mem_frameHead hdigit hcomma hid htype, not_mem_fieldsText hcomma hequals hfs⟩

/-- The tokens of the payload of a kv frame. -/
theorem strtok_kvPayload {id type : Bytes} {n : ℕ} {fs : List FrameKv}
    (hid : nodeIdIsValid id = true) (hfs : ∀ f ∈ fs, FieldOk f) (hne : type ≠ [])
    (hcomma : Ascii.comma ∉ type)
    (hnul : (0 : Byte) ∉ frameHead id n type ++ fieldsText fs) :
    strtok Ascii.comma (cstr (frameHead id n type ++ fieldsText fs)) =
      ascii "1" :: id :: decimalPad 6 n :: type ::
        fs.map fun f => f.key.bytes ++ Ascii.equals :: f.value.bytes := by
  obtain ⟨hidne, hidres⟩ := textIsValid_iff.mp hid
  rw [strtok, cstr_bytes_of_nulFree hnul, tokens_frameHead hidne (hidres _ (by decide)),
    tokens_fieldsText hfs hne hcomma]

/-- The sequence of a kv frame is the number printed, whatever becomes of the id. -/
theorem sequence_of_parseKvPayload {id type : Bytes} {n : ℕ} {fs : List FrameKv}
    (hid : nodeIdIsValid id = true) (hfs : ∀ f ∈ fs, FieldOk f) (hn : n < 1000000)
    (hne : type ≠ []) (hcomma : Ascii.comma ∉ type)
    (hnul : (0 : Byte) ∉ frameHead id n type ++ fieldsText fs) {p : KvPayload}
    (h : parseKvPayload (sealedFrame (frameHead id n type ++ fieldsText fs)) type = some p) :
    p.sequence = UInt32.ofNat n := by
  have hsix : (decimalPad 6 n).length = 6 := length_decimalPad (by decide) (by omega)
  rw [parseKvPayload, sealedFrame] at h
  simp only [strtok_kvPayload hid hfs hne hcomma hnul, hsix, parseUint32Decimal_decimalPad hn,
    ne_eq, not_true_eq_false, if_false] at h
  split at h
  · exact absurd h (by simp)
  split at h
  · exact absurd h (by simp)
  split at h
  · exact absurd h (by simp)
  split at h
  · exact absurd h (by simp)
  · rw [← Option.some.inj h]

/-- **The kv decoder inverts the kv builder**, on the payload of any type. -/
theorem parseKvPayload_built {id : CharBuf 32} {n : ℕ} {type : Bytes} {fields : FrameFields}
    (hid : nodeIdIsValid id.bytes = true) (hfs : ∀ f ∈ fields.1, FieldOk f) (hn : n < 1000000)
    (hne : type ≠ []) (hcomma : Ascii.comma ∉ type) (hnul : (0 : Byte) ∉ type)
    (hlen : (frameHead id.bytes n type ++ fieldsText fields.1).length < frameMaxLen) :
    parseKvPayload (sealedFrame (frameHead id.bytes n type ++ fieldsText fields.1)) type =
      some ⟨id, UInt32.ofNat n, fields⟩ := by
  have hpnul : (0 : Byte) ∉ frameHead id.bytes n type ++ fieldsText fields.1 :=
    not_mem_kvPayload (by decide) (by decide) (by decide) id.nulFree hnul
      fun f _ => ⟨f.key.nulFree, f.value.nulFree⟩
  have htokens := strtok_kvPayload hid hfs hne hcomma hpnul
  have hmany : ¬ frameDataMaxFields <
      (fields.1.map fun f => f.key.bytes ++ Ascii.equals :: f.value.bytes).length := by
    rw [List.length_map]
    exact Nat.not_lt.mpr fields.2
  have hitems := parseItems_items hfs
  have hsix : (decimalPad 6 n).length = 6 := length_decimalPad (by decide) (by omega)
  simp only [parseKvPayload, sealedFrame, if_neg (Nat.not_le.mpr hlen), htokens, dif_neg hmany,
    ne_eq, not_true_eq_false, if_false, CharBuf.ofRaw?_bytes, hsix,
    parseUint32Decimal_decimalPad hn]
  split
  · rename_i hnone
    rw [hitems] at hnone
    exact absurd hnone (by simp)
  · rename_i fs hsome
    rw [hitems, Option.some.injEq] at hsome
    subst hsome
    rfl

/-- The type is the fourth token. -/
theorem frameGetMessageType_built {id type : Bytes} {n : ℕ} {fs : List FrameKv}
    (hid : nodeIdIsValid id = true) (hfs : ∀ f ∈ fs, FieldOk f) (hne : type ≠ [])
    (hcomma : Ascii.comma ∉ type)
    (hnul : (0 : Byte) ∉ frameHead id n type ++ fieldsText fs)
    (hlen : (frameHead id n type ++ fieldsText fs).length < frameMaxLen) :
    frameGetMessageType (sealedFrame (frameHead id n type ++ fieldsText fs)) =
      if type = ascii "DATA" then .data else if type = ascii "CMD" then .cmd
      else if type = ascii "ACK" then .ack else if type = ascii "NACK" then .nack
      else .unknown := by
  have htoken : (strtok Ascii.comma (cstr (frameHead id n type ++ fieldsText fs)))[3]? =
      some type := by
    rw [strtok_kvPayload hid hfs hne hcomma hnul]
    rfl
  simp only [frameGetMessageType, sealedFrame, if_neg (Nat.not_le.mpr hlen), htoken]

/-- **One kv builder, read back**: the frame is delivered alone, it has the type
built, and the kv decoder finds id, fields and the six digits of the sequence. -/
theorem buildKvFrame_roundTrip {outSize : ℕ} (hsize : outSize ≤ frameMaxLen) {id : CharBuf 32}
    {sequence : UInt32} {type : Bytes} {fields : FrameFields} {out : Bytes}
    (hne : type ≠ []) (htype : ∀ b ∈ [0, Ascii.comma, Ascii.atSign, Ascii.lf], b ∉ type)
    (h : buildKvFrame outSize id.toCStr sequence type fields.1 = .ok out) :
    ∃ frame, (frameParserFeed frameParserInit out).2 = [frame] ∧
      frameGetMessageType frame = (if type = ascii "DATA" then .data
        else if type = ascii "CMD" then .cmd else if type = ascii "ACK" then .ack
        else if type = ascii "NACK" then .nack else .unknown) ∧
      parseKvPayload frame type = some ⟨id, sequence % 1000000, fields⟩ := by
  obtain ⟨hid, hfs, -, payload, hpayload, hlen, rfl, hout⟩ := buildKvFrame_eq_ok h
  have hn := toNat_mod_million_lt sequence
  -- what begins and ends a frame is reserved in every text
  have hreserved : ∀ b ∈ [Ascii.atSign, Ascii.lf], b ∉ payload := by
    intro b hb
    rw [hpayload]
    have hres : b ∈ nodeIdReserved ∧ b ∈ fieldTextReserved ∧ isDigit b = false ∧
        b ≠ Ascii.comma ∧ b ≠ Ascii.equals := by
      revert b
      decide +kernel
    refine not_mem_kvPayload hres.2.2.1 hres.2.2.2.1 hres.2.2.2.2
      ((textIsValid_iff.mp hid).2 b hres.1) (htype b ?_) fun f hf => ?_
    · exact List.mem_cons_of_mem _ (List.mem_cons_of_mem _ hb)
    · exact ⟨(textIsValid_iff.mp (hfs f hf).key).2 b hres.2.1,
        (textIsValid_iff.mp (hfs f hf).value).2 b hres.2.1⟩
  have hnul : (0 : Byte) ∉ payload := by
    rw [hpayload]
    exact not_mem_kvPayload (by decide) (by decide) (by decide) id.nulFree (htype 0 (by simp))
      fun f _ => ⟨f.key.nulFree, f.value.nulFree⟩
  have hpne : payload ≠ [] := by
    rw [hpayload]
    simp [frameHead]
  refine ⟨sealedFrame payload, frameParserFeed_frameText hpne hnul (hreserved _ (by simp))
    (hreserved _ (by simp)) (by omega), ?_, ?_⟩
  · rw [hpayload] at hnul hlen ⊢
    exact frameGetMessageType_built hid hfs hne (htype _ (by simp)) hnul hlen
  · rw [hpayload] at hlen ⊢
    rw [parseKvPayload_built hid hfs hn hne (htype _ (by simp)) (htype _ (by simp)) hlen,
      UInt32.ofNat_toNat]

/-- **The NACK builder, read back.** -/
theorem frameBuildNack_roundTrip {outSize : ℕ} (hsize : outSize ≤ frameMaxLen)
    {id error : CharBuf 32} {sequence : UInt32} {out : Bytes}
    (h : frameBuildNack outSize id.toCStr sequence error.toCStr = .ok out) :
    ∃ frame, (frameParserFeed frameParserInit out).2 = [frame] ∧
      frameGetMessageType frame = .nack ∧
      frameDecodeNack frame = some ⟨id, sequence % 1000000, error⟩ := by
  obtain ⟨hid, herror, payload, hpayload, hlen, rfl, hout⟩ := frameBuildNack_eq_ok h
  obtain ⟨hidne, hidres⟩ := textIsValid_iff.mp hid
  obtain ⟨herrorne, herrorres⟩ := textIsValid_iff.mp herror
  have hn := toNat_mod_million_lt sequence
  -- what the parser looks for comes nowhere in the payload
  have hreserved : ∀ b ∈ [0, Ascii.atSign, Ascii.lf], b ∉ payload := by
    intro b hb
    have hres : isDigit b = false ∧ b ≠ Ascii.comma ∧ b ∉ ascii "NACK,ERR=" := by
      revert b
      decide +kernel
    have htexts : b ∉ id.bytes ∧ b ∉ error.bytes := by
      rcases List.mem_cons.mp hb with rfl | hb
      · exact ⟨id.nulFree, error.nulFree⟩
      · have hb' : b ∈ nodeIdReserved := by
          revert b
          decide +kernel
        exact ⟨hidres b hb', herrorres b hb'⟩
    rw [hpayload]
    refine not_mem_frameHead hres.1 hres.2.1 htexts.1 ?_
    rw [List.mem_append, not_or]
    exact ⟨hres.2.2, htexts.2⟩
  have hpne : payload ≠ [] := by
    rw [hpayload]
    simp [frameHead]
  have hitem : Ascii.comma ∉ ascii "ERR=" ++ error.bytes := by
    rw [List.mem_append, not_or]
    exact ⟨by decide, herrorres _ (by decide)⟩
  -- no item is empty, so `strtok` gives all five
  have htokens : strtok Ascii.comma (cstr payload) =
      [ascii "1", id.bytes, decimalPad 6 (sequence % 1000000).toNat, ascii "NACK",
        ascii "ERR=" ++ error.bytes] := by
    have htype : ascii "NACK,ERR=" ++ error.bytes ++ [] =
        ascii "NACK" ++ Ascii.comma :: (ascii "ERR=" ++ error.bytes) := by
      rw [List.append_nil]
      rfl
    rw [strtok, cstr_bytes_of_nulFree (hreserved 0 (by simp)), hpayload,
      ← List.append_nil (frameHead _ _ _), tokens_frameHead hidne (hidres _ (by decide)), htype,
      tokens_append_cons (by decide) (by decide), tokens_of_not_mem (by simp [herrorne]) hitem]
  have hsix : (decimalPad 6 (sequence % 1000000).toNat).length = 6 :=
    length_decimalPad (by decide) (by omega)
  refine ⟨sealedFrame payload, frameParserFeed_frameText hpne (hreserved _ (by simp))
    (hreserved _ (by simp)) (hreserved _ (by simp)) (by omega), ?_, ?_⟩
  · simp only [frameGetMessageType, sealedFrame, if_neg (Nat.not_le.mpr hlen), htokens]
    rfl
  · have htake : (ascii "ERR=" ++ error.bytes).take 4 = ascii "ERR=" := List.take_left' rfl
    have hdrop : (ascii "ERR=" ++ error.bytes).drop 4 = error.bytes := List.drop_left' rfl
    simp only [frameDecodeNack, sealedFrame, if_neg (Nat.not_le.mpr hlen), htokens, ne_eq,
      not_true_eq_false, if_false, CharBuf.ofRaw?_bytes, hsix, parseUint32Decimal_decimalPad hn,
      htake, hdrop, herrorne, UInt32.ofNat_toNat]

/-- **The codec round trip.** Whatever a builder returns, a fresh parser delivers
it as one frame of the kind built, and the decoder of that kind gives back the id,
the fields or the error, and the sequence modulo a million. -/
theorem frame_roundTrip (outSize : ℕ) (hsize : outSize ≤ frameMaxLen) (id : CharBuf 32)
    (sequence : UInt32) (fields : FrameFields) (error : CharBuf 32) (out : Bytes) :
    (frameBuildDataKv outSize id.toCStr sequence fields.1 = .ok out →
      ∃ frame, (frameParserFeed frameParserInit out).2 = [frame] ∧
        frameGetMessageType frame = .data ∧
        frameDecodeData frame = some ⟨id, sequence % 1000000, fields⟩) ∧
    (frameBuildCommandKv outSize id.toCStr sequence fields.1 = .ok out →
      ∃ frame, (frameParserFeed frameParserInit out).2 = [frame] ∧
        frameGetMessageType frame = .cmd ∧
        frameDecodeCommand frame = some ⟨default, id, sequence % 1000000, fields⟩) ∧
    (frameBuildAckKv outSize id.toCStr sequence fields.1 = .ok out →
      ∃ frame, (frameParserFeed frameParserInit out).2 = [frame] ∧
        frameGetMessageType frame = .ack ∧
        frameDecodeAck frame = some ⟨id, sequence % 1000000, fields⟩) ∧
    (frameBuildNack outSize id.toCStr sequence error.toCStr = .ok out →
      ∃ frame, (frameParserFeed frameParserInit out).2 = [frame] ∧
        frameGetMessageType frame = .nack ∧
        frameDecodeNack frame = some ⟨id, sequence % 1000000, error⟩) := by
  refine ⟨fun h => ?_, fun h => ?_, fun h => ?_, frameBuildNack_roundTrip hsize⟩
  · obtain ⟨frame, hfeed, htype, hdecode⟩ :=
      buildKvFrame_roundTrip hsize (by decide) (by decide +kernel) h
    exact ⟨frame, hfeed, htype, by rw [frameDecodeData, hdecode]; rfl⟩
  · obtain ⟨frame, hfeed, htype, hdecode⟩ :=
      buildKvFrame_roundTrip hsize (by decide) (by decide +kernel) h
    exact ⟨frame, hfeed, htype, by rw [frameDecodeCommand, hdecode]; rfl⟩
  · obtain ⟨frame, hfeed, htype, hdecode⟩ :=
      buildKvFrame_roundTrip hsize (by decide) (by decide +kernel) h
    exact ⟨frame, hfeed, htype, by rw [frameDecodeAck, hdecode]; rfl⟩

/-- A DATA frame of one field, built into a buffer of the full size. -/
theorem frame_roundTrip_data :
    ∃ frame, (frameParserFeed frameParserInit (ascii "@1,N1,000007,DATA,T=25*2922\r\n")).2 =
        [frame] ∧ frameGetMessageType frame = .data ∧
      frameDecodeData frame = some ⟨⟨⟨ascii "N1", by decide⟩, by decide⟩, 7 % 1000000,
        ⟨[⟨⟨⟨ascii "T", by decide⟩, by decide⟩, ⟨⟨ascii "25", by decide⟩, by decide⟩⟩],
          by decide⟩⟩ :=
  (frame_roundTrip 256 (by decide) ⟨⟨ascii "N1", by decide⟩, by decide⟩ 7
    ⟨[⟨⟨⟨ascii "T", by decide⟩, by decide⟩, ⟨⟨ascii "25", by decide⟩, by decide⟩⟩], by decide⟩
    default _).1 (by decide +kernel)

end SmartGateway
