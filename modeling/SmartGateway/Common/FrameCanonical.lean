import SmartGateway.Common.FrameReading

/-!
# Which payloads are canonical

The decoders of `frame_parser.c` cut a payload with `strtok_r` and read its sequence with
`strtoul`, so they take more than the builders of `frame.c` ever write: commas side by side,
a sequence with blanks and a sign, reserved bytes in an id or a field, a value with `=`.
A payload that has none of these is what the builder of its kind makes of the message
decoded from it, and one that has any is not.
-/

namespace SmartGateway

open Numeral

/-! ## Payloads as their items -/

/-- The items of a payload with fields. -/
def kvItems (id : Bytes) (n : ℕ) (type : Bytes) (fs : List FrameKv) : List Bytes :=
  ascii "1" :: id :: decimalPad 6 n :: type :: fs.map kvItem

/-- The items of a NACK. -/
def nackItems (id : Bytes) (n : ℕ) (error : Bytes) : List Bytes :=
  [ascii "1", id, decimalPad 6 n, ascii "NACK", ascii "ERR=" ++ error]

theorem fieldsText_eq_intercalate (t : Bytes) (fs : List FrameKv) :
    t ++ fieldsText fs = [Ascii.comma].intercalate (t :: fs.map kvItem) := by
  induction fs generalizing t with
  | nil => simp
  | cons f fs ih =>
    rw [List.map_cons, List.intercalate_cons_cons, ← ih, fieldsText_cons, kvText, kvItem]
    simp

theorem kvPayload_eq_intercalate (id : Bytes) (n : ℕ) (type : Bytes) (fs : List FrameKv) :
    frameHead id n type ++ fieldsText fs = [Ascii.comma].intercalate (kvItems id n type fs) := by
  unfold kvItems frameHead
  rw [List.intercalate_cons_cons, List.intercalate_cons_cons, List.intercalate_cons_cons,
    ← fieldsText_eq_intercalate]
  simp

theorem nackPayload_eq_intercalate (id : Bytes) (n : ℕ) (error : Bytes) :
    frameHead id n (ascii "NACK,ERR=" ++ error) =
      [Ascii.comma].intercalate (nackItems id n error) := by
  have htype : ascii "NACK,ERR=" ++ error =
      ascii "NACK" ++ Ascii.comma :: (ascii "ERR=" ++ error) := rfl
  unfold nackItems frameHead
  rw [htype]
  simp

/-! ## Strict payloads -/

/-- No comma too many, a sequence of digits, and neither `*` nor CR anywhere. -/
structure StrictPayload (payload : Bytes) : Prop where
  noEmpty : [] ∉ payload.splitOn Ascii.comma
  digits : ∀ s ∈ (payload.splitOn Ascii.comma)[2]?, ∀ b ∈ s, isDigit b = true
  star : Ascii.star ∉ payload
  cr : Ascii.cr ∉ payload

/-- And at most one `=` in each item behind the type. -/
structure StrictKvPayload (payload : Bytes) : Prop extends StrictPayload payload where
  equals : ∀ item ∈ (payload.splitOn Ascii.comma).drop 4, item.count Ascii.equals ≤ 1

/-- What is known of the payload of a frame the parser delivers. -/
structure DeliveredPayload (payload : Bytes) : Prop where
  nul : (0 : Byte) ∉ payload
  atSign : Ascii.atSign ∉ payload
  lf : Ascii.lf ∉ payload
  short : payload.length + 8 < frameMaxLen

theorem deliveredPayload_of_mem {data : Bytes} {frame : ParsedFrame}
    (h : frame ∈ (frameParserFeed frameParserInit data).2) : DeliveredPayload frame.payload := by
  obtain ⟨i, j, hplace⟩ := exists_isFrameAt_of_mem h
  obtain ⟨before, text, rest, -, -, -, hopen, hshort, hframe⟩ := isFrameAt_iff.mp hplace
  obtain ⟨hex, hspells, hhex⟩ := hframe.spells
  -- the text in front of the line feed, without its `@`
  have htext : text = Ascii.atSign :: (frame.payload ++ Ascii.star :: (hex ++ [Ascii.cr])) := by
    have hconcat : Ascii.atSign :: (frame.payload ++ Ascii.star :: (hex ++ [Ascii.cr, Ascii.lf])) =
        Ascii.atSign :: (frame.payload ++ Ascii.star :: (hex ++ [Ascii.cr])) ++ [Ascii.lf] := by
      simp
    rw [hconcat] at hspells
    exact List.append_cancel_right hspells
  obtain ⟨before', t, -, ht, hat, hlf, -⟩ := hopen
  obtain rfl : frame.payload ++ Ascii.star :: (hex ++ [Ascii.cr]) = t :=
    (List.cons.inj (htext.symm.trans ht)).2
  have hfour : hex.length = 4 := by
    obtain ⟨a, b, c, d, a', b', c', d', rfl, -⟩ := hhex
    rfl
  refine ⟨hframe.nulFree, fun hmem => hat (List.mem_append_left _ hmem),
    fun hmem => hlf (List.mem_append_left _ hmem), ?_⟩
  rw [htext, List.length_cons, List.length_append, List.length_cons, List.length_append, hfour,
    List.length_singleton] at hshort
  change frame.payload.length + 8 < 256
  omega

/-- Without empty pieces the tokens are the pieces. -/
theorem strtok_eq_splitOn {payload : Bytes} (hnul : (0 : Byte) ∉ payload)
    (hnone : [] ∉ payload.splitOn Ascii.comma) :
    strtok Ascii.comma (cstr payload) = payload.splitOn Ascii.comma := by
  rw [strtok, cstr_bytes_of_nulFree hnul, tokens, List.filter_eq_self]
  intro t ht
  have hne : t ≠ [] := by
    rintro rfl
    exact hnone ht
  simpa using hne

/-- And each of them is a part of the payload, not empty and without a comma. -/
theorem token_part {payload : Bytes} {ts : List Bytes} (hsplit : ts = payload.splitOn Ascii.comma)
    (hnone : [] ∉ payload.splitOn Ascii.comma) {t : Bytes} (ht : t ∈ ts) :
    t ⊆ payload ∧ t ≠ [] ∧ Ascii.comma ∉ t := by
  rw [hsplit] at ht
  obtain ⟨hpart, hcomma⟩ := infix_of_mem_splitOn ht
  exact ⟨hpart.subset, fun hempty => hnone (hempty ▸ ht), hcomma⟩

/-! ## The sequence -/

/-- A sequence of six digits is printed as it was read. -/
theorem parseUint32Decimal_digits {text : Bytes} (hdigits : ∀ b ∈ text, isDigit b = true)
    (hlength : text.length = 6) {sequence : UInt32}
    (h : parseUint32Decimal text = some sequence) :
    sequence.toNat < 1000000 ∧ decimalPad 6 sequence.toNat = text := by
  have hpad := decimalPad_decimalValue hdigits hlength (by decide)
  have hlt := decimalValue_lt hdigits
  rw [hlength] at hlt
  rw [← hpad, parseUint32Decimal_decimalPad hlt] at h
  have hnat : sequence.toNat = decimalValue text := by
    rw [← Option.some.inj h]
    exact UInt32.toNat_ofNat_of_lt' (Nat.lt_trans hlt (by decide))
  rw [hnat]
  exact ⟨hlt, hpad⟩

/-! ## The builders accept what is strict -/

theorem appendFields_ok {crcData : Bytes} {fs : List FrameKv} (hfs : ∀ f ∈ fs, FieldOk f)
    (hlength : (crcData ++ fieldsText fs).length < frameMaxLen) :
    appendFields crcData fs = .ok (crcData ++ fieldsText fs) := by
  induction fs generalizing crcData with
  | nil => rw [appendFields, fieldsText_nil, List.append_nil]
  | cons f fs ih =>
    obtain ⟨hkey, hvalue⟩ := hfs f List.mem_cons_self
    have hrest := hlength
    rw [fieldsText_cons, ← List.append_assoc] at hrest
    rw [fieldsText_cons, List.length_append, List.length_append] at hlength
    rw [appendFields, if_neg, if_neg (by omega), if_neg (by omega),
      ih (fun g hg => hfs g (List.mem_cons_of_mem _ hg)) hrest, fieldsText_cons, List.append_assoc]
    simp [hkey, hvalue, (textIsValid_iff.mp hkey).1, (textIsValid_iff.mp hvalue).1]

/-- `sealFrame` of a payload that was delivered. -/
theorem sealFrame_ok {payload : Bytes} (hshort : payload.length + 8 < frameMaxLen) :
    sealFrame frameMaxLen payload = .ok (frameText payload (crc16CcittFalse payload)) := by
  have hlength : (frameText payload (crc16CcittFalse payload)).length = payload.length + 8 := by
    simp [frameText, hex04X]
  rw [sealFrame]
  exact if_neg (by rw [hlength]; omega)

/-- The bytes a builder forbids in an id. -/
theorem nodeIdIsValid_of {payload id : Bytes} (hdelivered : DeliveredPayload payload)
    (hstar : Ascii.star ∉ payload) (hcr : Ascii.cr ∉ payload) (hpart : id ⊆ payload)
    (hne : id ≠ []) (hcomma : Ascii.comma ∉ id) : nodeIdIsValid id = true := by
  refine textIsValid_iff.mpr ⟨hne, fun b hb hmem => ?_⟩
  have hin := hpart hmem
  simp only [nodeIdReserved, List.mem_cons, List.not_mem_nil, or_false] at hb
  rcases hb with rfl | rfl | rfl | rfl | rfl
  · exact hdelivered.atSign hin
  · exact hstar hin
  · exact hcomma hmem
  · exact hcr hin
  · exact hdelivered.lf hin

/-- And in a field. -/
theorem fieldTextIsValid_of {payload text : Bytes} (hdelivered : DeliveredPayload payload)
    (hstar : Ascii.star ∉ payload) (hcr : Ascii.cr ∉ payload) (hpart : text ⊆ payload)
    (hne : text ≠ []) (hcomma : Ascii.comma ∉ text) (hequals : Ascii.equals ∉ text) :
    fieldTextIsValid text = true := by
  refine textIsValid_iff.mpr ⟨hne, fun b hb hmem => ?_⟩
  have hin := hpart hmem
  simp only [fieldTextReserved, List.mem_cons, List.not_mem_nil, or_false] at hb
  rcases hb with rfl | rfl | rfl | rfl | rfl | rfl
  · exact hdelivered.atSign hin
  · exact hstar hin
  · exact hcomma hmem
  · exact hequals hmem
  · exact hcr hin
  · exact hdelivered.lf hin

/-! ## Exactly the strict payloads -/

/-- A type as the kv builders write it. -/
structure PlainType (type : Bytes) : Prop where
  ne : type ≠ []
  comma : Ascii.comma ∉ type
  star : Ascii.star ∉ type
  cr : Ascii.cr ∉ type

/-- A payload is `1,ID,SEQ,TYPE` and then `,KEY=VALUE` for each field, of the message read out
of it, with a sequence of six digits; and the builder makes it again. -/
def KvCanonical (payload type : Bytes) (id : CharBuf 32) (sequence : UInt32)
    (fields : FrameFields) : Prop :=
  payload = frameHead id.bytes sequence.toNat type ++ fieldsText fields.1 ∧
    sequence.toNat < 1000000 ∧
    buildKvFrame frameMaxLen id.toCStr sequence type fields.1 =
      .ok (frameText payload (crc16CcittFalse payload))

/-- What the builder makes is strict. -/
theorem KvCanonical.strict {payload type : Bytes} (htype : PlainType type) {id : CharBuf 32}
    {sequence : UInt32} {fields : FrameFields} (h : KvCanonical payload type id sequence fields) :
    StrictKvPayload payload := by
  obtain ⟨hpayload, -, hbuild⟩ := h
  obtain ⟨hid, hfs, -⟩ := buildKvFrame_eq_ok hbuild
  obtain ⟨hidne, hidres⟩ := textIsValid_iff.mp hid
  have hkey : ∀ f ∈ fields.1, f.key.bytes ≠ [] ∧ ∀ b ∈ fieldTextReserved, b ∉ f.key.bytes :=
    fun f hf => textIsValid_iff.mp (hfs f hf).key
  have hvalue : ∀ f ∈ fields.1, f.value.bytes ≠ [] ∧ ∀ b ∈ fieldTextReserved, b ∉ f.value.bytes :=
    fun f hf => textIsValid_iff.mp (hfs f hf).value
  -- no item has a comma, so the pieces are the items
  have hsplit : payload.splitOn Ascii.comma =
      kvItems id.bytes sequence.toNat type fields.1 := by
    rw [hpayload, kvPayload_eq_intercalate]
    refine List.splitOn_intercalate _ ?_ (by simp [kvItems])
    intro t ht
    simp only [kvItems, List.mem_cons, List.mem_map] at ht
    rcases ht with rfl | rfl | rfl | rfl | ⟨f, hf, rfl⟩
    · decide
    · exact hidres _ (by decide)
    · exact not_mem_decimalPad (by decide)
    · exact htype.comma
    · have hk := (hkey f hf).2 Ascii.comma (by decide)
      have hv := (hvalue f hf).2 Ascii.comma (by decide)
      simp [kvItem, hk, hv]
  -- what ends a frame is reserved in every text, and is no digit
  have hnot : ∀ b ∈ [Ascii.star, Ascii.cr], b ∉ payload := by
    intro b hb
    have hres : b ∈ nodeIdReserved ∧ b ∈ fieldTextReserved ∧ isDigit b = false ∧
        b ≠ Ascii.comma ∧ b ≠ Ascii.equals := by
      revert b
      decide +kernel
    have hplain : b ∉ type := by
      rcases List.mem_cons.mp hb with rfl | hb
      · exact htype.star
      · rw [List.mem_singleton.mp hb]
        exact htype.cr
    rw [hpayload]
    exact @not_mem_kvPayload b id.toCStr type fields.1 sequence.toNat hres.2.2.1 hres.2.2.2.1
      hres.2.2.2.2 (hidres b hres.1) hplain
      fun f hf => ⟨(hkey f hf).2 b hres.2.1, (hvalue f hf).2 b hres.2.1⟩
  refine ⟨⟨?_, ?_, hnot _ (by simp), hnot _ (by simp)⟩, ?_⟩
  · rw [hsplit]
    intro hmem
    simp only [kvItems, List.mem_cons, List.mem_map] at hmem
    rcases hmem with h | h | h | h | ⟨f, hf, h⟩
    · exact absurd h (by decide)
    · exact hidne h.symm
    · exact absurd h (by simp [decimalPad])
    · exact htype.ne h.symm
    · exact absurd h (by simp [kvItem])
  · rw [hsplit]
    intro s hs b hb
    obtain rfl : decimalPad 6 sequence.toNat = s := Option.some.inj hs
    exact isDigit_of_mem_decimalPad hb
  -- a field has one `=`, between its key and its value
  · rw [hsplit]
    intro item hitem
    obtain ⟨f, hf, rfl⟩ := List.mem_map.mp (show item ∈ fields.1.map kvItem from hitem)
    have hk := (hkey f hf).2 Ascii.equals (by decide)
    have hv := (hvalue f hf).2 Ascii.equals (by decide)
    rw [kvItem, List.count_append, List.count_cons_self, List.count_eq_zero_of_not_mem hk,
      List.count_eq_zero_of_not_mem hv]

/-- **What is strict, the builder makes.** -/
theorem kvCanonical_of_strict {frame : ParsedFrame} (hdelivered : DeliveredPayload frame.payload)
    {type : Bytes} {p : KvPayload} (h : parseKvPayload frame type = some p)
    (hstrict : StrictKvPayload frame.payload) :
    KvCanonical frame.payload type p.id p.sequence p.fields := by
  obtain ⟨id, sequence, items, htokens, hid, hlength, hsequence, hitems⟩ :=
    parseKvPayload_eq_some h
  have hsplit := strtok_eq_splitOn hdelivered.nul hstrict.noEmpty
  rw [htokens] at hsplit
  -- every item is a non-empty part of the payload without a comma
  have hpart : ∀ t ∈ ascii "1" :: id :: sequence :: type :: items,
      t ⊆ frame.payload ∧ t ≠ [] ∧ Ascii.comma ∉ t :=
    fun t ht => token_part hsplit hstrict.noEmpty ht
  have hidpart := hpart id (by simp)
  have hidbytes : p.id.bytes = id :=
    (CharBuf.ofRaw?_eq_some_iff fun h0 => hdelivered.nul (hidpart.1 h0)).mp hid
  have hdigits : ∀ b ∈ sequence, isDigit b = true :=
    hstrict.digits sequence (by rw [← hsplit]; rfl)
  obtain ⟨hlt, hpad⟩ := parseUint32Decimal_digits hdigits hlength hsequence
  obtain ⟨hmap, hparts⟩ := parseItems_eq_some
    (fun kv hkv h0 => hdelivered.nul ((hpart kv (by simp [hkv])).1 h0)) hitems
  have hpayload : frame.payload =
      frameHead p.id.bytes p.sequence.toNat type ++ fieldsText p.fields.1 := by
    rw [kvPayload_eq_intercalate, kvItems, hidbytes, hpad, ← hmap, hsplit,
      List.intercalate_splitOn]
  have hvalid : nodeIdIsValid p.id.bytes = true := by
    rw [hidbytes]
    exact nodeIdIsValid_of hdelivered hstrict.star hstrict.cr hidpart.1 hidpart.2.1 hidpart.2.2
  have hfs : ∀ f ∈ p.fields.1, FieldOk f := by
    intro f hf
    have hmem : kvItem f ∈ items := by
      rw [hmap]
      exact List.mem_map_of_mem hf
    obtain ⟨hsub, -, hcomma⟩ := hpart (kvItem f) (by simp [hmem])
    obtain ⟨hequals, hkne, hvne⟩ := hparts f hf
    have hcount := hstrict.equals (kvItem f) (by rw [← hsplit]; exact hmem)
    rw [kvItem, List.count_append, List.count_cons_self,
      List.count_eq_zero_of_not_mem hequals] at hcount
    have hvalueequals : Ascii.equals ∉ f.value.bytes := List.count_eq_zero.mp (by omega)
    have hkeysub : f.key.bytes ⊆ kvItem f := List.subset_append_left _ _
    have hvaluesub : f.value.bytes ⊆ kvItem f :=
      List.Subset.trans (List.subset_cons_self _ _) (List.subset_append_right _ _)
    constructor
    · exact fieldTextIsValid_of hdelivered hstrict.star hstrict.cr
        (List.Subset.trans hkeysub hsub) hkne
        (fun hmem => hcomma (hkeysub hmem)) hequals
    · exact fieldTextIsValid_of hdelivered hstrict.star hstrict.cr
        (List.Subset.trans hvaluesub hsub) hvne
        (fun hmem => hcomma (hvaluesub hmem)) hvalueequals
  refine ⟨hpayload, hlt, ?_⟩
  have hmod : (p.sequence % 1000000).toNat = p.sequence.toNat := by
    rw [UInt32.toNat_mod]
    exact Nat.mod_eq_of_lt hlt
  have hshort := hdelivered.short
  have hhead : (frameHead p.id.bytes p.sequence.toNat type).length < frameMaxLen := by
    rw [hpayload, List.length_append] at hshort
    omega
  unfold buildKvFrame
  rw [if_neg (by decide), if_neg (Nat.not_lt.mpr p.fields.2), if_neg (by simp [hvalid]), hmod]
  dsimp only
  rw [if_neg (Nat.not_le.mpr hhead), appendFields_ok hfs (by rw [← hpayload]; omega), ← hpayload]
  exact sealFrame_ok hshort

/-- The same for a NACK: `1,ID,SEQ,NACK,ERR=TEXT`. -/
def NackCanonical (payload : Bytes) (nack : FrameNack) : Prop :=
  payload = frameHead nack.nodeId.bytes nack.sequence.toNat
      (ascii "NACK,ERR=" ++ nack.error.bytes) ∧
    nack.sequence.toNat < 1000000 ∧
    frameBuildNack frameMaxLen nack.nodeId.toCStr nack.sequence nack.error.toCStr =
      .ok (frameText payload (crc16CcittFalse payload))

theorem NackCanonical.strict {payload : Bytes} {nack : FrameNack}
    (h : NackCanonical payload nack) : StrictPayload payload := by
  obtain ⟨hpayload, -, hbuild⟩ := h
  obtain ⟨hid, herror, -⟩ := frameBuildNack_eq_ok hbuild
  obtain ⟨hidne, hidres⟩ := textIsValid_iff.mp hid
  obtain ⟨-, herrorres⟩ := textIsValid_iff.mp herror
  -- the fifth item is the error behind its `ERR=`
  have hsplit : payload.splitOn Ascii.comma =
      nackItems nack.nodeId.bytes nack.sequence.toNat nack.error.bytes := by
    rw [hpayload, nackPayload_eq_intercalate]
    refine List.splitOn_intercalate _ ?_ (by simp [nackItems])
    intro t ht
    simp only [nackItems, List.mem_cons, List.not_mem_nil, or_false] at ht
    rcases ht with rfl | rfl | rfl | rfl | rfl
    · decide
    · exact hidres _ (by decide)
    · exact not_mem_decimalPad (by decide)
    · decide
    · rw [List.mem_append, not_or]
      exact ⟨by decide, herrorres _ (by decide)⟩
  have hnot : ∀ b ∈ [Ascii.star, Ascii.cr], b ∉ payload := by
    intro b hb
    have hres : b ∈ nodeIdReserved ∧ isDigit b = false ∧ b ≠ Ascii.comma ∧
        b ∉ ascii "NACK,ERR=" := by
      revert b
      decide +kernel
    rw [hpayload]
    refine not_mem_frameHead hres.2.1 hres.2.2.1 (hidres b hres.1) ?_
    rw [List.mem_append, not_or]
    exact ⟨hres.2.2.2, herrorres b hres.1⟩
  refine ⟨?_, ?_, hnot _ (by simp), hnot _ (by simp)⟩
  · rw [hsplit]
    intro hmem
    simp only [nackItems, List.mem_cons, List.not_mem_nil, or_false] at hmem
    rcases hmem with h | h | h | h | h
    · exact absurd h (by decide)
    · exact hidne h.symm
    · exact absurd h (by simp [decimalPad])
    · exact absurd h (by decide)
    · exact absurd (List.append_eq_nil_iff.mp h.symm).1 (by decide)
  · rw [hsplit]
    intro s hs b hb
    obtain rfl : decimalPad 6 nack.sequence.toNat = s := Option.some.inj hs
    exact isDigit_of_mem_decimalPad hb

theorem nackCanonical_of_strict {frame : ParsedFrame}
    (hdelivered : DeliveredPayload frame.payload) {nack : FrameNack}
    (h : frameDecodeNack frame = some nack) (hstrict : StrictPayload frame.payload) :
    NackCanonical frame.payload nack := by
  obtain ⟨id, sequence, error, htokens, hid, hlength, hsequence, herrorne, herror⟩ :=
    frameDecodeNack_eq_some h
  have hsplit := strtok_eq_splitOn hdelivered.nul hstrict.noEmpty
  rw [htokens] at hsplit
  -- no piece was empty, so the five tokens are all of the payload
  have hpart : ∀ t ∈ [ascii "1", id, sequence, ascii "NACK", ascii "ERR=" ++ error],
      t ⊆ frame.payload ∧ t ≠ [] ∧ Ascii.comma ∉ t :=
    fun t ht => token_part hsplit hstrict.noEmpty ht
  have hidpart := hpart id (by simp)
  obtain ⟨herrsub, -, herrcomma⟩ := hpart (ascii "ERR=" ++ error) (by simp)
  have herrorsub : error ⊆ frame.payload :=
    List.Subset.trans (List.subset_append_right _ _) herrsub
  have hidbytes : nack.nodeId.bytes = id :=
    (CharBuf.ofRaw?_eq_some_iff fun h0 => hdelivered.nul (hidpart.1 h0)).mp hid
  have herrorbytes : nack.error.bytes = error :=
    (CharBuf.ofRaw?_eq_some_iff fun h0 => hdelivered.nul (herrorsub h0)).mp herror
  have hdigits : ∀ b ∈ sequence, isDigit b = true :=
    hstrict.digits sequence (by rw [← hsplit]; rfl)
  obtain ⟨hlt, hpad⟩ := parseUint32Decimal_digits hdigits hlength hsequence
  have hpayload : frame.payload = frameHead nack.nodeId.bytes nack.sequence.toNat
      (ascii "NACK,ERR=" ++ nack.error.bytes) := by
    rw [nackPayload_eq_intercalate, nackItems, hidbytes, herrorbytes, hpad, hsplit,
      List.intercalate_splitOn]
  have hidvalid : nodeIdIsValid nack.nodeId.bytes = true := by
    rw [hidbytes]
    exact nodeIdIsValid_of hdelivered hstrict.star hstrict.cr hidpart.1 hidpart.2.1 hidpart.2.2
  have herrorvalid : nodeIdIsValid nack.error.bytes = true := by
    rw [herrorbytes]
    exact nodeIdIsValid_of hdelivered hstrict.star hstrict.cr herrorsub herrorne
      fun hmem => herrcomma (List.mem_append_right _ hmem)
  refine ⟨hpayload, hlt, ?_⟩
  -- six digits: the builder prints the whole sequence
  have hmod : (nack.sequence % 1000000).toNat = nack.sequence.toNat := by
    rw [UInt32.toNat_mod]
    exact Nat.mod_eq_of_lt hlt
  have hshort := hdelivered.short
  unfold frameBuildNack
  rw [if_neg (by decide), if_neg (by simp [hidvalid]), if_neg (by simp [herrorvalid]), hmod]
  dsimp only
  rw [← hpayload, if_neg (by omega)]
  exact sealFrame_ok hshort

theorem plainType_data : PlainType (ascii "DATA") :=
  ⟨by decide, by decide, by decide, by decide⟩

theorem plainType_cmd : PlainType (ascii "CMD") := ⟨by decide, by decide, by decide, by decide⟩

theorem plainType_ack : PlainType (ascii "ACK") := ⟨by decide, by decide, by decide, by decide⟩

theorem parseKvPayload_canonical_iff {frame : ParsedFrame}
    (hdelivered : DeliveredPayload frame.payload) {type : Bytes} (htype : PlainType type)
    {p : KvPayload} (h : parseKvPayload frame type = some p) :
    KvCanonical frame.payload type p.id p.sequence p.fields ↔ StrictKvPayload frame.payload :=
  ⟨fun hcanonical => hcanonical.strict htype, kvCanonical_of_strict hdelivered h⟩

/-- A frame that comes out of a stream. -/
def Arrives (frame : ParsedFrame) : Prop :=
  ∃ stream, frame ∈ (frameParserFeed frameParserInit stream).2

theorem Arrives.delivered {frame : ParsedFrame} (h : Arrives frame) :
    DeliveredPayload frame.payload := by
  obtain ⟨stream, hmem⟩ := h
  exact deliveredPayload_of_mem hmem

/-- No other frame with a payload of a kind is decoded to the same message. -/
def DecodesApart {Message : Type} (frame : ParsedFrame) (decode : ParsedFrame → Option Message)
    (Kind : Bytes → Prop) : Prop :=
  ∀ frame', Arrives frame' → Kind frame.payload → Kind frame'.payload →
    ∀ message, decode frame = some message → decode frame' = some message →
      frame.payload = frame'.payload

theorem decodesApart_kv {Message : Type} {frame : ParsedFrame} (harrives : Arrives frame)
    {decode : ParsedFrame → Option Message} {type : Bytes} {make : KvPayload → Message}
    (hmake : ∀ p p' : KvPayload, make p = make p' → p = p')
    (hdecode : ∀ frame, decode frame = (parseKvPayload frame type).map make) :
    DecodesApart frame decode StrictKvPayload := by
  intro frame' harrives' hstrict hstrict' message hmessage hmessage'
  rw [hdecode] at hmessage hmessage'
  obtain ⟨p, hp, rfl⟩ := Option.map_eq_some_iff.mp hmessage
  obtain ⟨p', hp', heq⟩ := Option.map_eq_some_iff.mp hmessage'
  obtain rfl := hmake p' p heq
  have hcanonical := kvCanonical_of_strict harrives.delivered hp hstrict
  have hcanonical' := kvCanonical_of_strict harrives'.delivered hp' hstrict'
  exact hcanonical.1.trans hcanonical'.1.symm

/-- **Which accepted payloads are canonical**: of a frame that comes out of a stream and
that a decoder accepts, exactly one that has no empty item, only digits in its sequence, no
`*` and no CR, and (but for a NACK) no second `=` in an item. Its builder makes it again,
and no other such payload is decoded to the same message. -/
theorem frameDecode_canonical_iff {frame : ParsedFrame} (harrives : Arrives frame) :
    ((∀ data, frameDecodeData frame = some data →
        (KvCanonical frame.payload (ascii "DATA") data.nodeId data.sequence data.fields ↔
          StrictKvPayload frame.payload)) ∧
      (∀ command, frameDecodeCommand frame = some command →
        (KvCanonical frame.payload (ascii "CMD") command.sender command.sequence
          command.fields ↔ StrictKvPayload frame.payload)) ∧
      (∀ ack, frameDecodeAck frame = some ack →
        (KvCanonical frame.payload (ascii "ACK") ack.nodeId ack.sequence ack.fields ↔
          StrictKvPayload frame.payload)) ∧
      ∀ nack, frameDecodeNack frame = some nack →
        (NackCanonical frame.payload nack ↔ StrictPayload frame.payload)) ∧
    DecodesApart frame frameDecodeData StrictKvPayload ∧
    DecodesApart frame frameDecodeCommand StrictKvPayload ∧
    DecodesApart frame frameDecodeAck StrictKvPayload ∧
    DecodesApart frame frameDecodeNack StrictPayload := by
  refine ⟨⟨?_, ?_, ?_, ?_⟩, ?_, ?_, ?_, ?_⟩
  · intro data h
    obtain ⟨p, hp, rfl⟩ := Option.map_eq_some_iff.mp h
    exact parseKvPayload_canonical_iff harrives.delivered plainType_data hp
  · intro command h
    obtain ⟨p, hp, rfl⟩ := Option.map_eq_some_iff.mp h
    exact parseKvPayload_canonical_iff harrives.delivered plainType_cmd hp
  · intro ack h
    obtain ⟨p, hp, rfl⟩ := Option.map_eq_some_iff.mp h
    exact parseKvPayload_canonical_iff harrives.delivered plainType_ack hp
  · intro nack h
    exact ⟨NackCanonical.strict, nackCanonical_of_strict harrives.delivered h⟩
  -- the records of the three kinds differ from the payload in their names only
  · refine decodesApart_kv harrives (fun p p' h => ?_) fun frame => rfl
    injection h with hid hsequence hfields
    cases p
    cases p'
    simp_all
  · refine decodesApart_kv harrives (fun p p' h => ?_) fun frame => rfl
    injection h with htarget hid hsequence hfields
    cases p
    cases p'
    simp_all
  · refine decodesApart_kv harrives (fun p p' h => ?_) fun frame => rfl
    injection h with hid hsequence hfields
    cases p
    cases p'
    simp_all
  · intro frame' harrives' hstrict hstrict' nack h h'
    have hcanonical := nackCanonical_of_strict harrives.delivered h hstrict
    have hcanonical' := nackCanonical_of_strict harrives'.delivered h' hstrict'
    exact hcanonical.1.trans hcanonical'.1.symm

/-- A DATA payload in the builder's form. -/
def tidyPayload : Bytes := ascii "1,N1,000007,DATA,T=25"

/-- The same message with a comma too many and blanks and a sign before its sequence. -/
def loosePayload : Bytes := ascii "1,,N1,    +7,DATA,T=25"

theorem arrives_of {payload : Bytes} (hne : payload ≠ [])
    (hnul : (0 : Byte) ∉ payload) (hat : Ascii.atSign ∉ payload) (hlf : Ascii.lf ∉ payload)
    (hlength : (frameText payload (crc16CcittFalse payload)).length < frameMaxLen) :
    Arrives (sealedFrame payload) :=
  ⟨_, by rw [frameParserFeed_frameText hne hnul hat hlf hlength]; exact List.mem_singleton.mpr rfl⟩

theorem arrives_tidy : Arrives (sealedFrame tidyPayload) :=
  arrives_of (by decide) (by decide) (by decide) (by decide) (by decide +kernel)

/-- The first is canonical. -/
theorem frameDecode_canonical_tidy :
    KvCanonical tidyPayload (ascii "DATA") (.lit 32 "N1") 7
      (.single ⟨.lit _ "T", .lit _ "25"⟩) :=
  ((frameDecode_canonical_iff arrives_tidy).1.1
    ⟨.lit 32 "N1", 7, .single ⟨.lit _ "T", .lit _ "25"⟩⟩ (by decide +kernel)).mpr
      ⟨⟨by decide +kernel, by decide +kernel, by decide, by decide⟩, by decide +kernel⟩

/-- **Two payloads, one message.** -/
theorem frameDecodeData_loose :
    Arrives (sealedFrame loosePayload) ∧ Arrives (sealedFrame tidyPayload) ∧
      (frameDecodeData (sealedFrame loosePayload)).isSome = true ∧
      frameDecodeData (sealedFrame loosePayload) = frameDecodeData (sealedFrame tidyPayload) ∧
      (sealedFrame loosePayload).payload ≠ (sealedFrame tidyPayload).payload := by
  refine ⟨arrives_of ?_ ?_ ?_ ?_ ?_, arrives_tidy, ?_, ?_, ?_⟩
  all_goals decide +kernel

end SmartGateway
