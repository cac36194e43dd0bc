import SmartGateway.Common.FrameCanonical
import SmartGateway.Common.JsonStable
import SmartGateway.Common.UplinkMessage

/-!
# Where the texts of a message come from

A decoder makes no text up. What it stores under an id, a key, a value or an error is a
stretch of what it was given; but for the number that a `temperature`, a `humidity` or an
older `led` is printed as, and the three names they go by. So a message has no byte in it,
a newline least of all, that its sender did not write.
-/

namespace SmartGateway

open Numeral ObjectScan

/-- A text out of what was read: a stretch of it, or a number that was printed, or a name that
stands in the source. -/
def TextOf (given text : Bytes) : Prop :=
  text <:+: given ∨ (∀ b ∈ text, isNumberByte b = true) ∨
    text ∈ [ascii "T", ascii "H", ascii "LED"]

variable {given text : Bytes}

theorem textOf_nil (given : Bytes) : TextOf given [] := .inl (List.nil_infix)

/-- A copy of it is. -/
theorem TextOf.ofRaw? (h : TextOf given text) {cap : ℕ} {b : CharBuf cap}
    (hcopy : CharBuf.ofRaw? cap text = some b) : TextOf given b.bytes := by
  have hfront : b.bytes <+: text := by
    unfold CharBuf.ofRaw? at hcopy
    split at hcopy
    · rw [← Option.some.inj hcopy]
      exact List.takeWhile_prefix _
    · exact absurd hcopy (by simp)
  rcases h with hpart | hnumber | hname
  · exact .inl (hfront.isInfix.trans hpart)
  · exact .inr (.inl fun c hc => hnumber c (hfront.subset hc))
  · -- the names have no NUL in them
    have hnul : ∀ name ∈ [ascii "T", ascii "H", ascii "LED"], (0 : Byte) ∉ name := by decide
    rw [(CharBuf.ofRaw?_eq_some_iff (hnul text hname)).mp hcopy]
    exact .inr (.inr hname)

/-- What is not in what was read, and in no number or name, is not in the text. -/
theorem TextOf.not_mem (h : TextOf given text) {b : Byte} (hb : b ∉ given)
    (hnumber : isNumberByte b = false) (hnames : b ∉ ascii "THLED") : b ∉ text := by
  intro hmem
  rcases h with hpart | hdigits | hname
  · exact hb (hpart.subset hmem)
  · rw [hdigits b hmem] at hnumber
    exact absurd hnumber (by simp)
  · have hsub : ∀ name ∈ [ascii "T", ascii "H", ascii "LED"], name ⊆ ascii "THLED" := by decide
    exact hnames (hsub text hname hmem)

/-- Both texts of each field are. -/
def FieldsOf (given : Bytes) (fs : List FrameKv) : Prop :=
  ∀ f ∈ fs, TextOf given f.key.bytes ∧ TextOf given f.value.bytes

/-- The id and the texts of a message are. -/
structure UplinkMessage.Of (given : Bytes) (m : UplinkMessage) : Prop where
  node : TextOf given m.nodeId.bytes
  texts : ∀ t ∈ m.texts, TextOf given t

/-- **A message without a newline of its own is one line.** -/
theorem UplinkMessage.Of.isLine {m : UplinkMessage} (h : m.Of given) (hlf : Ascii.lf ∉ given) :
    Ascii.lf ∉ m.nodeId.bytes ∧ IsLine (m.line [Ascii.lf]) := by
  have hnode := h.node.not_mem hlf (by decide) (by decide)
  exact ⟨hnode, isLine_line hnode fun t ht => (h.texts t ht).not_mem hlf (by decide) (by decide)⟩

/-! ## Frames -/

section

variable {frame : ParsedFrame}

/-- A token is a stretch of the payload, without a NUL. -/
theorem token_origin {payload token : Bytes} (h : token ∈ strtok Ascii.comma (cstr payload)) :
    token <:+: payload ∧ (0 : Byte) ∉ token := by
  have hpart := (infix_of_mem_tokens h).1
  have hfront : (cstr payload).bytes <+: payload := List.takeWhile_prefix _
  exact ⟨hpart.trans hfront.isInfix, fun hnul => (cstr payload).nulFree (hpart.subset hnul)⟩

theorem parseItems_origin {items : List Bytes} {fs : List FrameKv}
    (hitems : ∀ item ∈ items, item <:+: given ∧ (0 : Byte) ∉ item)
    (h : parseItems items = some fs) : FieldsOf given fs := by
  obtain ⟨rfl, -⟩ := parseItems_eq_some (fun item hitem => (hitems item hitem).2) h
  intro f hf
  obtain ⟨hitem, -⟩ := hitems (kvItem f) (List.mem_map_of_mem hf)
  have hkey : f.key.bytes <:+: kvItem f := (List.prefix_append _ _).isInfix
  have hvalue : f.value.bytes <:+: kvItem f :=
    ((List.suffix_cons _ _).trans (List.suffix_append _ _)).isInfix
  exact ⟨.inl (hkey.trans hitem), .inl (hvalue.trans hitem)⟩

theorem parseKvPayload_origin {type : Bytes} {p : KvPayload}
    (h : parseKvPayload frame type = some p) :
    TextOf frame.payload p.id.bytes ∧ FieldsOf frame.payload p.fields.1 := by
  obtain ⟨id, sequence, items, htokens, hid, -, -, hitems⟩ := parseKvPayload_eq_some h
  have htoken : ∀ token ∈ ascii "1" :: id :: sequence :: type :: items,
      token <:+: frame.payload ∧ (0 : Byte) ∉ token := fun token htoken =>
    token_origin (htokens ▸ htoken)
  refine ⟨TextOf.ofRaw? (.inl (htoken id (by simp)).1) hid, parseItems_origin ?_ hitems⟩
  intro item hitem
  exact htoken item (by simp [hitem])

theorem frameDecodeNack_origin {nack : FrameNack} (h : frameDecodeNack frame = some nack) :
    TextOf frame.payload nack.nodeId.bytes ∧ TextOf frame.payload nack.error.bytes := by
  obtain ⟨id, sequence, error, htokens, hid, -, -, -, herror⟩ := frameDecodeNack_eq_some h
  have htoken : ∀ token ∈ [ascii "1", id, sequence, ascii "NACK", ascii "ERR=" ++ error],
      token <:+: frame.payload := fun token htoken => (token_origin (htokens ▸ htoken)).1
  refine ⟨TextOf.ofRaw? (.inl (htoken id (by simp))) hid, TextOf.ofRaw? (.inl ?_) herror⟩
  exact (List.suffix_append (ascii "ERR=") error).isInfix.trans (htoken _ (by simp))

/-- **What is decoded of a frame** is out of its payload. -/
theorem UplinkMessage.DecodedFrom.origin {m : UplinkMessage} (h : m.DecodedFrom frame) :
    m.Of frame.payload := by
  cases m with
  | data d =>
    obtain ⟨p, hp, rfl⟩ := Option.map_eq_some_iff.mp h
    obtain ⟨hid, hfields⟩ := parseKvPayload_origin hp
    exact ⟨hid, forall_fieldTexts.mpr hfields⟩
  | ack a =>
    obtain ⟨p, hp, rfl⟩ := Option.map_eq_some_iff.mp h
    obtain ⟨hid, hfields⟩ := parseKvPayload_origin hp
    exact ⟨hid, forall_fieldTexts.mpr hfields⟩
  | nack n =>
    obtain ⟨hid, herror⟩ := frameDecodeNack_origin h
    refine ⟨hid, fun t ht => ?_⟩
    rw [List.mem_singleton.mp ht]
    exact herror

end

/-! ## Fields of a JSON object -/

section

variable {line p rest : Bytes}

theorem scanString_origin (hp : p <:+ line) (h : scanString p = some (text, rest)) :
    TextOf line text := by
  obtain ⟨rfl, -⟩ := scanString_eq_some_iff.mp h
  exact .inl ((List.prefix_append text _).isInfix.trans hp.isInfix)

theorem scanMember_origin {k key q : Bytes} (hk : k <:+ line)
    (h : scanMember k = some (key, q)) : TextOf line key := by
  obtain ⟨rest, hscan, -, -⟩ := scanMember_eq_some h
  exact scanString_origin hk hscan

theorem scanFieldValue_origin {value : Bytes} (hp : p <:+ line)
    (h : scanFieldValue p = some (value, rest)) : TextOf line value := by
  cases p with
  | nil => exact absurd h (by simp [scanFieldValue])
  | cons b p =>
    rw [scanFieldValue] at h
    split at h
    · exact scanString_origin ((List.suffix_cons b p).trans hp) h
    · exact .inr (.inl (scanNumberText_eq_some h).2)

/-- A field that is added. -/
theorem kvArrayAdd_origin {fields fields' : FrameFields} {key value : Bytes}
    (h : kvArrayAdd fields key value = some fields') (hkey : TextOf line key)
    (hvalue : TextOf line value) (hfields : FieldsOf line fields.1) : FieldsOf line fields'.1 := by
  obtain ⟨-, -, -, f, hkeycopy, hvaluecopy, happend⟩ := kvArrayAdd_eq_some h
  intro g hg
  rw [happend] at hg
  rcases List.mem_append.mp hg with hg | hg
  · exact hfields g hg
  · rw [List.mem_singleton.mp hg]
    exact ⟨hkey.ofRaw? hkeycopy, hvalue.ofRaw? hvaluecopy⟩

theorem scanFields_origin {fields fields' : FrameFields} (hp : p <:+ line)
    (h : scanFields fieldMember p fields = (some rest, fields'))
    (hfields : FieldsOf line fields.1) : FieldsOf line fields'.1 := by
  obtain ⟨p', rfl, hrun⟩ := (scanFields_eq_some_iff fieldMember_consumes).mp h
  refine hrun.keeps fieldMember_consumes (I := fun fields => FieldsOf line fields.1) ?_
    ((List.suffix_cons _ p').trans hp) hfields
  intro k key q fields rest fields' hk hmember hv hbefore
  obtain ⟨value, hscan, hadd⟩ := fieldMember_eq_some_iff.mp hv
  have hq : q <:+ line := (scanMember_suffix hmember).trans hk
  exact kvArrayAdd_origin hadd (scanMember_origin hk hmember) (scanFieldValue_origin hq hscan)
    hbefore

/-! ## ACK and NACK lines -/

/-- The texts of the object are out of the line. -/
structure JsonObject.Of (line : Bytes) (obj : JsonObject) : Prop where
  node : TextOf line obj.nodeId.bytes
  error : TextOf line obj.error.bytes
  fields : FieldsOf line obj.fields.1

theorem JsonObject.zero_of (line : Bytes) : JsonObject.zero.Of line :=
  ⟨textOf_nil line, textOf_nil line, fun _ h => absurd h List.not_mem_nil⟩

theorem objectString_origin {key : Bytes} {obj obj' : JsonObject} (htext : TextOf line text)
    (h : objectString key text obj = some obj') (hobj : obj.Of line) : obj'.Of line := by
  unfold objectString at h
  split at h
  · obtain ⟨nodeId, hcopy, rfl⟩ := Option.map_eq_some_iff.mp h
    exact { hobj with node := htext.ofRaw? hcopy }
  split at h
  · obtain ⟨sender, -, rfl⟩ := Option.map_eq_some_iff.mp h
    exact { hobj with }
  split at h
  · obtain ⟨type, -, rfl⟩ := Option.map_eq_some_iff.mp h
    exact { hobj with }
  split at h
  · split at h
    · exact absurd h (by simp)
    · rw [← Option.some.inj h]
      exact { hobj with }
  split at h
  · split at h
    · exact absurd h (by simp)
    obtain ⟨error, hcopy, rfl⟩ := Option.map_eq_some_iff.mp h
    exact { hobj with error := htext.ofRaw? hcopy }
  · rw [← Option.some.inj h]
    exact hobj

theorem objectNumber_origin {key : Bytes} {negative : Bool} {value : ℕ} {obj obj' : JsonObject}
    (h : objectNumber key negative value obj = some obj') (hobj : obj.Of line) : obj'.Of line := by
  unfold objectNumber at h
  split at h
  · split at h
    · exact absurd h (by simp)
    · rw [← Option.some.inj h]
      exact { hobj with }
  split at h
  · rw [← Option.some.inj h]
    exact { hobj with }
  · rw [← Option.some.inj h]
    exact hobj

theorem objectMember_origin {key : Bytes} {obj obj' : JsonObject} (hp : p <:+ line)
    (h : objectMember key p obj = (some rest, obj')) (hobj : obj.Of line) : obj'.Of line := by
  by_cases hkey : key = ascii "fields"
  · subst hkey
    obtain ⟨fields, hscan, rfl⟩ := objectMember_fields_eq_some_iff.mp h
    exact { hobj with fields := scanFields_origin hp hscan hobj.fields }
  rw [objectMember.eq_def, if_neg hkey] at h
  cases p with
  | nil => exact absurd (Prod.mk.inj h).1 (by simp)
  | cons b p =>
    simp only at h
    split at h
    · obtain ⟨text, hscan, hstring⟩ := stringValue_eq_some_iff.mp h
      have htext := scanString_origin ((List.suffix_cons b p).trans hp) hscan
      exact objectString_origin htext hstring hobj
    · split at h
      · exact absurd (Prod.mk.inj h).1 (by simp)
      split at h
      · exact absurd (Prod.mk.inj h).1 (by simp)
      rename_i obj₁ hnumber
      rw [← (Prod.mk.inj h).2]
      exact objectNumber_origin hnumber hobj

theorem jsonParseObject_origin {consumed : ℕ} {obj : JsonObject}
    (h : jsonParseObject line = (some consumed, obj)) : obj.Of line := by
  obtain ⟨p, rest, hp, hrun⟩ := parseWith_eq_some objectMember_consumes h
  refine hrun.keeps objectMember_consumes (I := JsonObject.Of line) ?_ hp
    (JsonObject.zero_of line)
  intro k key q obj rest obj' hk hmember hv hobj
  exact objectMember_origin ((scanMember_suffix hmember).trans hk) hv hobj

/-- A `led` is printed. -/
theorem JsonObject.Of.messageFields {obj : JsonObject} (h : obj.Of line) :
    FieldsOf line obj.messageFields.1 := by
  unfold JsonObject.messageFields
  split
  · exact h.fields
  split
  · intro f hf
    obtain rfl := List.mem_singleton.mp hf
    exact ⟨.inr (.inr (by simp)), .inr (.inl fun b hb => isNumberByte_of_mem_decimalInt hb)⟩
  · exact fun _ hf => absurd hf List.not_mem_nil

/-! ## DATA lines -/

/-- The texts of the struct being filled. -/
structure DataScan.Of (line : Bytes) (st : DataScan) : Prop where
  node : TextOf line st.data.nodeId.bytes
  fields : FieldsOf line st.data.fields.1

theorem dataString_origin {key : Bytes} {st st' : DataScan} (htext : TextOf line text)
    (h : dataString key text st = some st') (hst : st.Of line) : st'.Of line := by
  unfold dataString at h
  split at h
  · obtain ⟨nodeId, hcopy, rfl⟩ := Option.map_eq_some_iff.mp h
    exact { hst with node := htext.ofRaw? hcopy }
  split at h
  · split at h
    · rw [← Option.some.inj h]
      exact { hst with }
    · exact absurd h (by simp)
  · rw [← Option.some.inj h]
    exact hst

/-- A `temperature` or a `humidity` is printed. -/
theorem dataX10_origin {key : Bytes} {st st' : DataScan}
    (h : dataX10 key p st = (some rest, st')) (hst : st.Of line) : st'.Of line := by
  rw [dataX10] at h
  split at h
  · exact absurd (Prod.mk.inj h).1 (by simp)
  rename_i x10 q hx10
  simp only at h
  split at h
  · exact absurd (Prod.mk.inj h).1 (by simp)
  rename_i fields hadd
  obtain ⟨-, rfl⟩ := Prod.mk.inj h
  have hname : TextOf line (if key = ascii "temperature" then ascii "T" else ascii "H") := by
    refine .inr (.inr ?_)
    split <;> simp
  have hvalue : TextOf line (decimalInt x10) :=
    .inr (.inl fun b hb => isNumberByte_of_mem_decimalInt hb)
  exact { hst with fields := kvArrayAdd_origin hadd hname hvalue hst.fields }

theorem dataMember_origin {key : Bytes} {st st' : DataScan} (hp : p <:+ line)
    (h : dataMember key p st = (some rest, st')) (hst : st.Of line) : st'.Of line := by
  by_cases hkey : key = ascii "fields"
  · subst hkey
    obtain ⟨fields, hscan, rfl⟩ := dataMember_fields_eq_some_iff.mp h
    exact { hst with fields := scanFields_origin hp hscan hst.fields }
  rw [dataMember.eq_def, if_neg hkey] at h
  cases p with
  | nil => exact absurd (Prod.mk.inj h).1 (by simp)
  | cons b p =>
    simp only at h
    split_ifs at h
    · obtain ⟨text, hscan, hstring⟩ := stringValue_eq_some_iff.mp h
      have htext := scanString_origin ((List.suffix_cons b p).trans hp) hscan
      exact dataString_origin htext hstring hst
    · exact dataX10_origin h hst
    · -- a sequence
      rw [dataSeq] at h
      split at h
      · exact absurd (Prod.mk.inj h).1 (by simp)
      split at h
      · exact absurd (Prod.mk.inj h).1 (by simp)
      · rw [← (Prod.mk.inj h).2]
        exact { hst with }
    · rw [← (Prod.mk.inj h).2]
      exact hst

theorem parseData_origin {consumed : ℕ} {st : DataScan}
    (h : parseWith dataMember line DataScan.zero = (some consumed, st)) : st.Of line := by
  obtain ⟨p, rest, hp, hrun⟩ := parseWith_eq_some dataMember_consumes h
  refine hrun.keeps dataMember_consumes (I := DataScan.Of line) ?_ hp
    ⟨textOf_nil line, fun _ h => absurd h List.not_mem_nil⟩
  intro k key q st rest st' hk hmember hv hst
  exact dataMember_origin ((scanMember_suffix hmember).trans hk) hv hst

/-- **What is decoded of a line** is out of it. -/
theorem messageJsonDecodeData_origin {consumed : ℕ} {old data : FrameData}
    (h : messageJsonDecodeData line old = (some consumed, data)) :
    UplinkMessage.Of line (.data data) := by
  obtain ⟨-, st, hparse, -, -, -, rfl⟩ := messageJsonDecodeData_eq_some_iff.mp h
  have hst := parseData_origin hparse
  exact ⟨hst.node, UplinkMessage.forall_fieldTexts.mpr hst.fields⟩

theorem messageJsonDecodeAck_origin {consumed : ℕ} {ack : FrameAck}
    (h : messageJsonDecodeAck line = (some consumed, ack)) : UplinkMessage.Of line (.ack ack) := by
  obtain ⟨obj, hparse, -, -, -, -, rfl⟩ := messageJsonDecodeAck_eq_some_iff.mp h
  have hobj := jsonParseObject_origin hparse
  exact ⟨hobj.node, UplinkMessage.forall_fieldTexts.mpr hobj.messageFields⟩

theorem messageJsonDecodeNack_origin {consumed : ℕ} {nack : FrameNack}
    (h : messageJsonDecodeNack line = (some consumed, nack)) :
    UplinkMessage.Of line (.nack nack) := by
  obtain ⟨obj, hparse, -, -, -, -, -, rfl⟩ := messageJsonDecodeNack_eq_some_iff.mp h
  have hobj := jsonParseObject_origin hparse
  refine ⟨hobj.node, fun t ht => ?_⟩
  rw [List.mem_singleton.mp ht]
  exact hobj.error

end

end SmartGateway
