import SmartGateway.Common.JsonRoundTrip

/-!
# Messages built a second time

A gateway decodes each line and builds it anew. The builders escape nothing, but a text
a decoder has cut out of a line stopped at its own closing quote, or is a printed number,
so it is stable: what is built from a decoded message is read back as that message. That
holds of each of the four kinds of line, however the line the message came in was written.
-/

namespace SmartGateway

open Numeral ObjectScan

/-! ## Texts a decoder stores -/

/-- A numeric text has nothing the scanner or a C string stops at. -/
theorem stable_of_number {text : Bytes} (h : ∀ b ∈ text, isNumberByte b = true) :
    Stable text ∧ (0 : Byte) ∉ text := by
  have hnot : ∀ {b : Byte}, isNumberByte b = false → b ∉ text := by
    intro b hb hmem
    rw [h b hmem] at hb
    exact absurd hb (by decide)
  exact ⟨stable_of_not_mem (hnot (by decide)) (hnot (by decide)), hnot (by decide)⟩

theorem isNumberByte_of_mem_decimalInt {value : BitVec 32} {b : Byte}
    (h : b ∈ decimalInt value) : isNumberByte b = true := by
  unfold decimalInt at h
  split at h
  · rcases List.mem_cons.mp h with rfl | h
    · decide
    · exact isNumberByte_of_isDigit (isDigit_of_mem_decimal h)
  · exact isNumberByte_of_isDigit (isDigit_of_mem_decimal h)

theorem decimalInt_ne_nil (value : BitVec 32) : decimalInt value ≠ [] := by
  unfold decimalInt
  split
  · exact List.cons_ne_nil _ _
  · exact decimal_ne_nil _

/-- What a copy of a stable text without a NUL holds. -/
theorem stable_of_ofRaw? {cap : ℕ} {text : Bytes} {b : CharBuf cap} (hstable : Stable text)
    (hnul : (0 : Byte) ∉ text) (h : CharBuf.ofRaw? cap text = some b) :
    Stable b.bytes ∧ b.bytes = text := by
  have hbytes := (CharBuf.ofRaw?_eq_some_iff hnul).mp h
  rw [hbytes]
  exact ⟨hstable, rfl⟩

/-- A text that was scanned out of a part of the line. -/
theorem scanString_text {line p text rest : Bytes} (hline : (0 : Byte) ∉ line) (hp : p <:+ line)
    (h : scanString p = some (text, rest)) : Stable text ∧ (0 : Byte) ∉ text := by
  obtain ⟨rfl, hstable⟩ := scanString_eq_some_iff.mp h
  exact ⟨hstable, fun h0 => hline (hp.subset (List.mem_append_left _ h0))⟩

/-- A member's key was. -/
theorem scanMember_key {line k key q : Bytes} (hline : (0 : Byte) ∉ line) (hk : k <:+ line)
    (h : scanMember k = some (key, q)) : Stable key ∧ (0 : Byte) ∉ key := by
  obtain ⟨rest, hscan, -, -⟩ := scanMember_eq_some h
  exact scanString_text hline hk hscan

/-- So is the value of a field, or it is numeric. -/
theorem scanFieldValue_text {line p value rest : Bytes} (hline : (0 : Byte) ∉ line)
    (hp : p <:+ line) (h : scanFieldValue p = some (value, rest)) :
    Stable value ∧ (0 : Byte) ∉ value := by
  cases p with
  | nil => exact absurd h (by simp [scanFieldValue])
  | cons b p =>
    rw [scanFieldValue] at h
    split at h
    · exact scanString_text hline ((List.suffix_cons b p).trans hp) h
    · exact stable_of_number (scanNumberText_eq_some h).2

/-! ## Fields -/

/-- Every field could be written and read back. -/
def FrameFields.Readable (fields : FrameFields) : Prop := ∀ f ∈ fields.1, FieldReadable f

theorem FrameFields.readable_default : FrameFields.Readable default := nofun

/-- A field of stable texts is a readable one: `kv_array_add` refuses empty texts. -/
theorem kvArrayAdd_readable {fields fields' : FrameFields} {key value : Bytes}
    (h : kvArrayAdd fields key value = some fields') (hkey : Stable key ∧ (0 : Byte) ∉ key)
    (hvalue : Stable value ∧ (0 : Byte) ∉ value) (hfields : fields.Readable) :
    fields'.Readable := by
  obtain ⟨hkeyne, hvaluene, -, f, hkeycopy, hvaluecopy, happend⟩ := kvArrayAdd_eq_some h
  obtain ⟨hkeystable, hkeybytes⟩ := stable_of_ofRaw? hkey.1 hkey.2 hkeycopy
  obtain ⟨hvaluestable, hvaluebytes⟩ := stable_of_ofRaw? hvalue.1 hvalue.2 hvaluecopy
  intro g hg
  rw [happend] at hg
  rcases List.mem_append.mp hg with hg | hg
  · exact hfields g hg
  · rw [List.mem_singleton.mp hg]
    exact ⟨by rwa [hkeybytes], by rwa [hvaluebytes], hkeystable, hvaluestable⟩

/-- **A `fields` object keeps the fields readable.** -/
theorem scanFields_readable {line p rest : Bytes} {fields fields' : FrameFields}
    (hline : (0 : Byte) ∉ line) (hp : p <:+ line)
    (h : scanFields fieldMember p fields = (some rest, fields')) (hfields : fields.Readable) :
    fields'.Readable := by
  obtain ⟨p', rfl, hrun⟩ := (scanFields_eq_some_iff fieldMember_consumes).mp h
  refine hrun.keeps fieldMember_consumes (I := FrameFields.Readable) ?_
    ((List.suffix_cons _ p').trans hp) hfields
  intro k key q fields rest fields' hk hmember hv hreadable
  obtain ⟨value, hscan, hadd⟩ := fieldMember_eq_some_iff.mp hv
  have hq : q <:+ line := (scanMember_suffix hmember).trans hk
  exact kvArrayAdd_readable hadd (scanMember_key hline hk hmember)
    (scanFieldValue_text hline hq hscan) hreadable

/-! ## Objects -/

/-- Every text of the object could be written and read back. -/
structure JsonObject.Readable (obj : JsonObject) : Prop where
  node : Stable obj.nodeId.bytes
  sender : Stable obj.sender.bytes
  error : Stable obj.error.bytes
  error_ne : obj.foundError = true → obj.error.bytes ≠ []
  fields : obj.fields.Readable

theorem JsonObject.readable_zero : JsonObject.zero.Readable :=
  ⟨stable_nil, stable_nil, stable_nil, nofun, FrameFields.readable_default⟩

/-- A string value. -/
theorem objectString_readable {key text : Bytes} {obj obj' : JsonObject}
    (htext : Stable text ∧ (0 : Byte) ∉ text) (h : objectString key text obj = some obj')
    (hobj : obj.Readable) : obj'.Readable := by
  unfold objectString at h
  split at h
  · obtain ⟨nodeId, hcopy, rfl⟩ := Option.map_eq_some_iff.mp h
    exact { hobj with node := (stable_of_ofRaw? htext.1 htext.2 hcopy).1 }
  split at h
  · obtain ⟨sender, hcopy, rfl⟩ := Option.map_eq_some_iff.mp h
    exact { hobj with sender := (stable_of_ofRaw? htext.1 htext.2 hcopy).1 }
  split at h
  · obtain ⟨type, -, rfl⟩ := Option.map_eq_some_iff.mp h
    exact { hobj with }
  split at h
  · split at h
    · exact absurd h (by simp)
    · rw [← Option.some.inj h]
      exact { hobj with }
  split at h
  · split at h
    · exact absurd h (by simp)
    rename_i hne
    obtain ⟨error, hcopy, rfl⟩ := Option.map_eq_some_iff.mp h
    obtain ⟨hstable, hbytes⟩ := stable_of_ofRaw? htext.1 htext.2 hcopy
    exact { hobj with error := hstable, error_ne := fun _ => by rwa [hbytes] }
  · rw [← Option.some.inj h]
    exact hobj

/-- A number touches no text. -/
theorem objectNumber_readable {key : Bytes} {negative : Bool} {value : ℕ}
    {obj obj' : JsonObject} (h : objectNumber key negative value obj = some obj')
    (hobj : obj.Readable) : obj'.Readable := by
  unfold objectNumber at h
  split at h
  · split at h
    · exact absurd h (by simp)
    · rw [← Option.some.inj h]
      exact { hobj with }
  split at h
  · rw [← Option.some.inj h]
    exact { hobj with }
  · rw [← Option.some.inj h]
    exact hobj

theorem objectMember_readable {line key p rest : Bytes} {obj obj' : JsonObject}
    (hline : (0 : Byte) ∉ line) (hp : p <:+ line)
    (h : objectMember key p obj = (some rest, obj')) (hobj : obj.Readable) : obj'.Readable := by
  by_cases hkey : key = ascii "fields"
  · subst hkey
    obtain ⟨fields, hscan, rfl⟩ := objectMember_fields_eq_some_iff.mp h
    exact { hobj with fields := scanFields_readable hline hp hscan hobj.fields }
  rw [objectMember.eq_def, if_neg hkey] at h
  cases p with
  | nil => exact absurd (Prod.mk.inj h).1 (by simp)
  | cons b p =>
    simp only at h
    split at h
    · obtain ⟨text, hscan, hstring⟩ := stringValue_eq_some_iff.mp h
      have htext := scanString_text hline ((List.suffix_cons b p).trans hp) hscan
      exact objectString_readable htext hstring hobj
    · split at h
      · exact absurd (Prod.mk.inj h).1 (by simp)
      split at h
      · exact absurd (Prod.mk.inj h).1 (by simp)
      rename_i obj₁ hnumber
      rw [← (Prod.mk.inj h).2]
      exact objectNumber_readable hnumber hobj

/-- **What `json_parse_object` has read** could be written and read back. -/
theorem jsonParseObject_readable {line : Bytes} {consumed : ℕ} {obj : JsonObject}
    (hline : (0 : Byte) ∉ line) (h : jsonParseObject line = (some consumed, obj)) :
    obj.Readable := by
  obtain ⟨p, rest, hp, hrun⟩ := parseWith_eq_some objectMember_consumes h
  refine hrun.keeps objectMember_consumes (I := JsonObject.Readable) ?_ hp JsonObject.readable_zero
  intro k key q obj rest obj' hk hmember hv hobj
  exact objectMember_readable hline ((scanMember_suffix hmember).trans hk) hv hobj

/-- The older single `led` becomes a readable field too. -/
theorem JsonObject.messageFields_readable {obj : JsonObject} (hobj : obj.Readable) :
    obj.messageFields.Readable := by
  unfold JsonObject.messageFields
  split
  · exact hobj.fields
  split
  · intro f hf
    obtain rfl := List.mem_singleton.mp hf
    have hvalue : ∀ b ∈ (intText obj.ledValue).bytes, isNumberByte b = true :=
      fun b hb => isNumberByte_of_mem_decimalInt hb
    have hkey : ascii "LED" ≠ [] ∧ Stable (ascii "LED") :=
      ⟨by decide, stable_of_not_mem (by decide) (by decide)⟩
    exact ⟨hkey.1, decimalInt_ne_nil _, hkey.2, (stable_of_number hvalue).1⟩
  · exact FrameFields.readable_default

/-- The texts `message_json_decode_data` has stored could be. -/
structure DataScan.Readable (st : DataScan) : Prop where
  node : Stable st.data.nodeId.bytes
  fields : st.data.fields.Readable

theorem DataScan.readable_zero : DataScan.zero.Readable :=
  ⟨stable_nil, FrameFields.readable_default⟩

theorem dataString_readable {key text : Bytes} {st st' : DataScan}
    (htext : Stable text ∧ (0 : Byte) ∉ text) (h : dataString key text st = some st')
    (hst : st.Readable) : st'.Readable := by
  unfold dataString at h
  split at h
  · obtain ⟨nodeId, hcopy, rfl⟩ := Option.map_eq_some_iff.mp h
    exact { hst with node := (stable_of_ofRaw? htext.1 htext.2 hcopy).1 }
  split at h
  · split at h
    · rw [← Option.some.inj h]
      exact { hst with }
    · exact absurd h (by simp)
  · rw [← Option.some.inj h]
    exact hst

/-- A `temperature` or a `humidity` is printed anew. -/
theorem dataX10_readable {key p rest : Bytes} {st st' : DataScan}
    (h : dataX10 key p st = (some rest, st')) (hst : st.Readable) : st'.Readable := by
  rw [dataX10] at h
  split at h
  · exact absurd (Prod.mk.inj h).1 (by simp)
  rename_i x10 q hx10
  simp only at h
  split at h
  · exact absurd (Prod.mk.inj h).1 (by simp)
  rename_i fields hadd
  obtain ⟨-, rfl⟩ := Prod.mk.inj h
  have hname : ∀ name : Bytes, name = ascii "T" ∨ name = ascii "H" →
      Stable name ∧ (0 : Byte) ∉ name := by
    rintro name (rfl | rfl)
    · exact ⟨stable_of_not_mem (by decide) (by decide), by decide⟩
    · exact ⟨stable_of_not_mem (by decide) (by decide), by decide⟩
  have hvalue : ∀ b ∈ decimalInt x10, isNumberByte b = true :=
    fun b hb => isNumberByte_of_mem_decimalInt hb
  exact { hst with
    fields := kvArrayAdd_readable hadd (hname _ (ite_eq_or_eq _ _ _)) (stable_of_number hvalue)
      hst.fields }

theorem dataMember_readable {line key p rest : Bytes} {st st' : DataScan}
    (hline : (0 : Byte) ∉ line) (hp : p <:+ line) (h : dataMember key p st = (some rest, st'))
    (hst : st.Readable) : st'.Readable := by
  by_cases hkey : key = ascii "fields"
  · subst hkey
    obtain ⟨fields, hscan, rfl⟩ := dataMember_fields_eq_some_iff.mp h
    exact { hst with fields := scanFields_readable hline hp hscan hst.fields }
  rw [dataMember.eq_def, if_neg hkey] at h
  cases p with
  | nil => exact absurd (Prod.mk.inj h).1 (by simp)
  | cons b p =>
    simp only at h
    split_ifs at h
    · obtain ⟨text, hscan, hstring⟩ := stringValue_eq_some_iff.mp h
      have htext := scanString_text hline ((List.suffix_cons b p).trans hp) hscan
      exact dataString_readable htext hstring hst
    · exact dataX10_readable h hst
    · -- a sequence
      rw [dataSeq] at h
      split at h
      · exact absurd (Prod.mk.inj h).1 (by simp)
      split at h
      · exact absurd (Prod.mk.inj h).1 (by simp)
      · rw [← (Prod.mk.inj h).2]
        exact { hst with }
    · rw [← (Prod.mk.inj h).2]
      exact hst

/-- **What `message_json_decode_data` has read** could be written and read back. -/
theorem parseData_readable {line : Bytes} {consumed : ℕ} {st : DataScan}
    (hline : (0 : Byte) ∉ line)
    (h : parseWith dataMember line DataScan.zero = (some consumed, st)) : st.Readable := by
  obtain ⟨p, rest, hp, hrun⟩ := parseWith_eq_some dataMember_consumes h
  refine hrun.keeps dataMember_consumes (I := DataScan.Readable) ?_ hp DataScan.readable_zero
  intro k key q st rest st' hk hmember hv hst
  exact dataMember_readable hline ((scanMember_suffix hmember).trans hk) hv hst

/-! ## Command lines -/

/-- A CMD line, and what follows its object. -/
def commandLine (command : FrameCommand) (rest : Bytes) : Bytes :=
  Ascii.openBrace :: Ascii.quote :: (ascii "node" ++ Ascii.quote :: Ascii.colon :: Ascii.quote ::
    (command.targetNode.bytes ++ Ascii.quote :: Ascii.comma :: Ascii.quote ::
      (ascii "sender" ++ Ascii.quote :: Ascii.colon :: Ascii.quote ::
        (command.sender.bytes ++ Ascii.quote :: Ascii.comma :: Ascii.quote ::
          (ascii "seq" ++ Ascii.quote :: Ascii.colon ::
            (decimal command.sequence.toNat ++ Ascii.comma :: Ascii.quote ::
              (ascii "type" ++ Ascii.quote :: Ascii.colon :: Ascii.quote ::
                (ascii "CMD" ++ Ascii.quote :: Ascii.comma ::
                  fieldsTail command.fields.1 rest))))))))

/-- **The CMD builder.** -/
theorem messageJsonBuildCommand_eq_some_iff {outSize : ℕ} {command : FrameCommand}
    {line : Bytes} :
    messageJsonBuildCommand outSize command = some line ↔ line.length < outSize ∧
      commandLine command [Ascii.lf] = line := by
  have hnode : ascii "\x7b\"node\":\"" = Ascii.openBrace :: Ascii.quote :: (ascii "node" ++
      [Ascii.quote, Ascii.colon, Ascii.quote]) := by decide
  have hsender : ascii "\"sender\":\"" = Ascii.quote :: (ascii "sender" ++
      [Ascii.quote, Ascii.colon, Ascii.quote]) := by decide
  have hseq : ascii "\"seq\":" = Ascii.quote :: (ascii "seq" ++ [Ascii.quote, Ascii.colon]) := by
    decide
  have htype : ascii ",\"type\":\"" = Ascii.comma :: Ascii.quote :: (ascii "type" ++
      [Ascii.quote, Ascii.colon, Ascii.quote]) := by decide
  have hclose : ascii "\"," = [Ascii.quote, Ascii.comma] := by decide
  have hline : jsonNode command.targetNode.bytes ++ ascii "\"sender\":\"" ++
      command.sender.bytes ++ ascii "\"," ++ jsonSeqType command.sequence (ascii "CMD") ++
      ascii "\"fields\":\x7b" ++ jsonFieldsText [] command.fields.1 ++ ascii "\x7d\x7d\n" =
        commandLine command [Ascii.lf] := by
    rw [commandLine, ← jsonFields_append_end]
    simp only [jsonNode, jsonSeqType, hnode, hsender, hseq, htype, hclose, List.append_assoc,
      List.cons_append, List.nil_append]
  rw [messageJsonBuildCommand, buildJsonFields_eq_some_iff, hline]

theorem messageJsonDecodeCommand_eq_some_iff {line : Bytes} {consumed : ℕ}
    {command : FrameCommand} :
    messageJsonDecodeCommand line = (some consumed, command) ↔
      ∃ obj, jsonParseObject line = (some consumed, obj) ∧ obj.foundNode = true ∧
        obj.foundSender = true ∧ obj.foundSeq = true ∧ obj.foundType = true ∧
        obj.typeValue.bytes = ascii "CMD" ∧
        ⟨obj.nodeId, obj.sender, obj.sequence, obj.messageFields⟩ = command := by
  rw [messageJsonDecodeCommand]
  cases jsonParseObject line with
  | mk out obj =>
    cases out with
    | none => simp
    | some c =>
      simp only [Prod.mk.injEq, Option.some.injEq]
      constructor
      · intro h
        split_ifs at h with hfound htype
        · exact absurd (Prod.mk.inj h).1 (by simp)
        · exact absurd (Prod.mk.inj h).1 (by simp)
        · obtain ⟨hc, rfl⟩ := Prod.mk.inj h
          simp only [not_or, Bool.not_eq_true', Bool.not_eq_false] at hfound
          exact ⟨obj, ⟨Option.some.inj hc, rfl⟩, hfound.1, hfound.2.1, hfound.2.2.1,
            hfound.2.2.2, not_not.mp htype, rfl⟩
      · rintro ⟨obj', ⟨rfl, rfl⟩, hnode, hsender, hseq, htype, hcmd, rfl⟩
        simp [hnode, hsender, hseq, htype, hcmd]

/-- The name of the type in its buffer. -/
def cmdType : CharBuf 8 := ⟨⟨ascii "CMD", by decide⟩, by decide⟩

theorem stable_cmdType : Stable cmdType.bytes := stable_of_not_mem (by decide) (by decide)

/-- **A CMD line of stable texts** is read back, all of its object. -/
theorem messageJsonDecodeCommand_commandLine {command : FrameCommand}
    (hnode : Stable command.targetNode.bytes) (hsender : Stable command.sender.bytes)
    (hfields : command.fields.Readable) (rest : Bytes) :
    messageJsonDecodeCommand (commandLine command rest) =
      (some ((commandLine command rest).length - rest.length), command) := by
  let reader := objectKv cmdType stable_cmdType
  let named : JsonObject :=
    { JsonObject.zero with nodeId := command.targetNode, foundNode := true }
  let sent : JsonObject := { named with sender := command.sender, foundSender := true }
  have hnamed : objectString (ascii "node") command.targetNode.bytes JsonObject.zero =
      some named :=
    objectString_node_eq_some_iff.mpr ⟨command.targetNode, CharBuf.ofRaw?_bytes _, rfl⟩
  have hsent : objectString (ascii "sender") command.sender.bytes named = some sent := by
    rw [objectString, if_neg (by decide), if_pos rfl, CharBuf.ofRaw?_bytes]
    rfl
  have hnodekey : Stable (ascii "node") := stable_of_not_mem (by decide) (by decide)
  have hsenderkey : Stable (ascii "sender") := stable_of_not_mem (by decide) (by decide)
  have htail : ObjectRun objectMember (fieldsTail command.fields.1 rest)
      (reader.typed (reader.seq command.sequence sent)) rest
        (reader.setFields command.fields (reader.typed (reader.seq command.sequence sent))) :=
    reader.fields_run hfields command.fields rfl
  have hrun : ObjectRun objectMember _ JsonObject.zero rest _ :=
    .written_string hnodekey hnode (objectMember_string (by decide) · _) hnamed
      (.written_string hsenderkey hsender (objectMember_string (by decide) · _) hsent
        (reader.seq_run.mpr (reader.type_run.mpr htail)))
  exact messageJsonDecodeCommand_eq_some_iff.mpr
    ⟨_, (parseWith_openBrace_eq_some_iff objectMember_consumes).mpr ⟨rest, hrun, rfl⟩,
      rfl, rfl, rfl, rfl, rfl, rfl⟩

/-! ## Built again -/

section

variable {line text : Bytes} {consumed outSize : ℕ}

theorem FrameFields.Readable.texts {node : Bytes} (hnode : Stable node) {fields : FrameFields}
    (h : fields.Readable) : TextsStable node fields.1 :=
  ⟨hnode, fun f hf => ⟨(h f hf).key_stable, (h f hf).value_stable⟩⟩

theorem FrameFields.Readable.filled {fields : FrameFields} (h : fields.Readable) :
    ∀ f ∈ fields.1, f.key.bytes ≠ [] ∧ f.value.bytes ≠ [] :=
  fun f hf => ⟨(h f hf).key_ne, (h f hf).value_ne⟩

/-- A decoded DATA message is built to a line that is read as that message. -/
theorem messageJsonDecodeData_built (hline : (0 : Byte) ∉ line) {old data : FrameData}
    (hdecode : messageJsonDecodeData line old = (some consumed, data))
    (hbuild : messageJsonBuildData outSize data = some text) (old' : FrameData) :
    messageJsonDecodeData text old' = (some (text.length - 1), data) := by
  obtain ⟨-, st, hparse, -, -, -, rfl⟩ := messageJsonDecodeData_eq_some_iff.mp hdecode
  obtain ⟨hnode, hfields⟩ := parseData_readable hline hparse
  obtain ⟨-, rfl⟩ := messageJsonBuildData_eq_some_iff.mp hbuild
  exact @messageJsonDecodeData_dataLine { st.data with sequence := st.sequence }
    (hfields.texts hnode) hfields.filled [Ascii.lf] old'

/-- The same of an ACK. -/
theorem messageJsonDecodeAck_built (hline : (0 : Byte) ∉ line) {ack : FrameAck}
    (hdecode : messageJsonDecodeAck line = (some consumed, ack))
    (hbuild : messageJsonBuildAck outSize ack = some text) :
    messageJsonDecodeAck text = (some (text.length - 1), ack) := by
  obtain ⟨obj, hparse, -, -, -, -, rfl⟩ := messageJsonDecodeAck_eq_some_iff.mp hdecode
  have hobj := jsonParseObject_readable hline hparse
  have hfields := JsonObject.messageFields_readable hobj
  obtain ⟨-, rfl⟩ := messageJsonBuildAck_eq_some_iff.mp hbuild
  exact messageJsonDecodeAck_ackLine (hfields.texts hobj.node) hfields.filled [Ascii.lf]

/-- The same of a NACK: its error is there, so it is not empty. -/
theorem messageJsonDecodeNack_built (hline : (0 : Byte) ∉ line) {nack : FrameNack}
    (hdecode : messageJsonDecodeNack line = (some consumed, nack))
    (hbuild : messageJsonBuildNack outSize nack = some text) :
    messageJsonDecodeNack text = (some (text.length - 1), nack) := by
  obtain ⟨obj, hparse, -, -, hfound, -, -, rfl⟩ := messageJsonDecodeNack_eq_some_iff.mp hdecode
  have hobj := jsonParseObject_readable hline hparse
  obtain ⟨-, rfl⟩ := messageJsonBuildNack_eq_some_iff.mp hbuild
  exact messageJsonDecodeNack_nackLine hobj.node hobj.error (hobj.error_ne hfound) [Ascii.lf]

/-- The same of a command. -/
theorem messageJsonDecodeCommand_built (hline : (0 : Byte) ∉ line) {command : FrameCommand}
    (hdecode : messageJsonDecodeCommand line = (some consumed, command))
    (hbuild : messageJsonBuildCommand outSize command = some text) :
    messageJsonDecodeCommand text = (some (text.length - 1), command) := by
  obtain ⟨obj, hparse, -, -, -, -, -, rfl⟩ := messageJsonDecodeCommand_eq_some_iff.mp hdecode
  have hobj := jsonParseObject_readable hline hparse
  obtain ⟨-, rfl⟩ := messageJsonBuildCommand_eq_some_iff.mp hbuild
  exact messageJsonDecodeCommand_commandLine hobj.node hobj.sender
    (JsonObject.messageFields_readable hobj) [Ascii.lf]

end

/-- **The codec is stable under a second writing**: of any line without a NUL, whatever
its layout, the message a decoder takes out of it is built, where the buffer holds the
text, to a line of which the decoder consumes all but the newline, and in which it finds
the message again. -/
theorem message_stable_under_rebuilding {line : Bytes} (hline : (0 : Byte) ∉ line)
    (outSize consumed : ℕ) (text : Bytes) :
    (∀ old data, messageJsonDecodeData line old = (some consumed, data) →
      messageJsonBuildData outSize data = some text →
        ∀ old', messageJsonDecodeData text old' = (some (text.length - 1), data)) ∧
    (∀ ack, messageJsonDecodeAck line = (some consumed, ack) →
      messageJsonBuildAck outSize ack = some text →
        messageJsonDecodeAck text = (some (text.length - 1), ack)) ∧
    (∀ nack, messageJsonDecodeNack line = (some consumed, nack) →
      messageJsonBuildNack outSize nack = some text →
        messageJsonDecodeNack text = (some (text.length - 1), nack)) ∧
    (∀ command, messageJsonDecodeCommand line = (some consumed, command) →
      messageJsonBuildCommand outSize command = some text →
        messageJsonDecodeCommand text = (some (text.length - 1), command)) := by
  refine ⟨?_, ?_, ?_, ?_⟩
  · exact fun old data hdecode hbuild old' => messageJsonDecodeData_built hline hdecode hbuild old'
  · exact fun ack hdecode hbuild => messageJsonDecodeAck_built hline hdecode hbuild
  · exact fun nack hdecode hbuild => messageJsonDecodeNack_built hline hdecode hbuild
  · exact fun command hdecode hbuild => messageJsonDecodeCommand_built hline hdecode hbuild

/-- A command in the older form, with white space, its members in another order and an
escaped quote in its sender. -/
def oldCommandLine : Bytes :=
  ascii " \x7b \"led\" : -1, \"type\":\"CMD\",\"seq\":7.0,\"sender\":\"a\\\"b\",\"node\":\"N1\"\x7d\r\n"

/-- What it is read as. -/
def oldCommand : FrameCommand :=
  ⟨.lit 32 "N1", .lit 32 "a\\\"b", 7, .single ⟨.lit _ "LED", intText (-1)⟩⟩

theorem nulFree_oldCommandLine : (0 : Byte) ∉ oldCommandLine := by decide +kernel

/-- Its line in the builder's form is read as the same command. -/
theorem message_stable_under_rebuilding_oldCommand :
    messageJsonDecodeCommand (commandLine oldCommand [Ascii.lf]) =
      (some ((commandLine oldCommand [Ascii.lf]).length - 1), oldCommand) :=
  (message_stable_under_rebuilding nulFree_oldCommandLine 512 66
    (commandLine oldCommand [Ascii.lf])).2.2.2 oldCommand (by decide +kernel) (by decide +kernel)

end SmartGateway
