import SmartGateway.Common.FrameReading
import SmartGateway.Common.UplinkMessage

/-!
# From frames to lines

The translation of `gateway_app_on_frame`: the message a frame is decoded to goes
up as the line built from it. The frame layer cuts at commas and ends at a NUL, so
the texts it hands on are without either; it does not keep out what JSON reserves,
and the builders escape nothing.
-/

namespace SmartGateway

open ObjectScan

/-! ## The texts a frame carries -/

/-- A token of a payload has no comma and no NUL, and is not empty. -/
theorem mem_strtok_comma {payload t : Bytes} (h : t ∈ strtok Ascii.comma (cstr payload)) :
    Ascii.comma ∉ t ∧ (0 : Byte) ∉ t ∧ t ≠ [] := by
  obtain ⟨hpart, hcomma⟩ := infix_of_mem_tokens h
  refine ⟨hcomma, fun h0 => ?_, ne_nil_of_mem_tokens h⟩
  exact (cstr payload).nulFree (hpart.subset h0)

/-- Fields that were read are parts of the items, and none of them is empty. -/
theorem parseItems_texts {items : List Bytes} {fs : List FrameKv}
    (hitems : ∀ kv ∈ items, Ascii.comma ∉ kv ∧ (0 : Byte) ∉ kv) (h : parseItems items = some fs) :
    ∀ f ∈ fs, (Ascii.comma ∉ f.key.bytes ∧ Ascii.comma ∉ f.value.bytes) ∧
      (f.key.bytes ≠ [] ∧ f.value.bytes ≠ []) := by
  obtain ⟨hspelled, hparts⟩ := parseItems_eq_some (fun kv hkv => (hitems kv hkv).2) h
  intro f hf
  have hcomma : Ascii.comma ∉ kvItem f := by
    refine (hitems _ ?_).1
    rw [hspelled]
    exact List.mem_map_of_mem hf
  rw [kvItem, List.mem_append, List.mem_cons, not_or, not_or] at hcomma
  exact ⟨⟨hcomma.1, hcomma.2.2⟩, (hparts f hf).2⟩

/-- **What the kv decoder hands on**: texts without commas, and no empty field. -/
theorem parseKvPayload_texts {frame : ParsedFrame} {type : Bytes} {p : KvPayload}
    (h : parseKvPayload frame type = some p) : FrameTexts p.id.bytes p.fields.1 := by
  obtain ⟨id, sequence, items, htokens, hid, -, -, hitems⟩ := parseKvPayload_eq_some h
  have htoken : ∀ t ∈ ascii "1" :: id :: sequence :: type :: items,
      Ascii.comma ∉ t ∧ (0 : Byte) ∉ t ∧ t ≠ [] := by
    rw [← htokens]
    exact fun t => mem_strtok_comma
  have hfields := parseItems_texts
    (fun kv hkv => ⟨(htoken kv (by simp [hkv])).1, (htoken kv (by simp [hkv])).2.1⟩) hitems
  obtain ⟨hcomma, hnul, -⟩ := htoken id (by simp)
  refine ⟨?_, fun f hf => (hfields f hf).1, fun f hf => (hfields f hf).2⟩
  rw [(CharBuf.ofRaw?_eq_some_iff hnul).mp hid]
  exact hcomma

/-- **What the NACK decoder hands on.** -/
theorem frameDecodeNack_texts {frame : ParsedFrame} {nack : FrameNack}
    (h : frameDecodeNack frame = some nack) :
    Ascii.comma ∉ nack.nodeId.bytes ∧ Ascii.comma ∉ nack.error.bytes ∧ nack.error.bytes ≠ [] := by
  obtain ⟨id, sequence, error, htokens, hid, -, -, hne, herror⟩ := frameDecodeNack_eq_some h
  have htoken : ∀ t ∈ [ascii "1", id, sequence, ascii "NACK", ascii "ERR=" ++ error],
      Ascii.comma ∉ t ∧ (0 : Byte) ∉ t ∧ t ≠ [] := by
    rw [← htokens]
    exact fun t => mem_strtok_comma
  obtain ⟨hidcomma, hidnul, -⟩ := htoken id (by simp)
  obtain ⟨herrcomma, herrnul, -⟩ := htoken (ascii "ERR=" ++ error) (by simp)
  have herrorbytes :=
    (CharBuf.ofRaw?_eq_some_iff fun h0 => herrnul (List.mem_append_right _ h0)).mp herror
  rw [(CharBuf.ofRaw?_eq_some_iff hidnul).mp hid, herrorbytes]
  exact ⟨hidcomma, fun hc => herrcomma (List.mem_append_right _ hc), hne⟩

namespace UplinkMessage

/-- The texts of a message that came in a frame. -/
theorem DecodedFrom.texts {frame : ParsedFrame} {m : UplinkMessage} (h : m.DecodedFrom frame) :
    Ascii.comma ∉ m.nodeId.bytes ∧ (∀ t ∈ m.texts, Ascii.comma ∉ t) ∧ ∀ t ∈ m.texts, t ≠ [] := by
  cases m with
  | data data =>
    obtain ⟨p, hp, rfl⟩ := Option.map_eq_some_iff.mp h
    obtain ⟨hnode, hfields, hfilled⟩ := parseKvPayload_texts hp
    exact ⟨hnode, forall_fieldTexts.mpr hfields, forall_fieldTexts.mpr hfilled⟩
  | ack ack =>
    obtain ⟨p, hp, rfl⟩ := Option.map_eq_some_iff.mp h
    obtain ⟨hnode, hfields, hfilled⟩ := parseKvPayload_texts hp
    exact ⟨hnode, forall_fieldTexts.mpr hfields, forall_fieldTexts.mpr hfilled⟩
  | nack nack =>
    obtain ⟨hnode, hcomma, hne⟩ := frameDecodeNack_texts h
    refine ⟨hnode, fun t ht => ?_, fun t ht => ?_⟩
    · rw [UplinkMessage.texts, List.mem_singleton] at ht
      rw [ht]
      exact hcomma
    · rw [UplinkMessage.texts, List.mem_singleton] at ht
      rw [ht]
      exact hne

end UplinkMessage

/-! ## The translation -/

/-- **The translation of a frame preserves it exactly if its texts are stable**:
no `"` that is not behind a backslash, and no open backslash at the end, in the
id, the keys and values, or the error. The frame may be any, delivered or not. -/
theorem translation_preserves_iff (frame : ParsedFrame) (m : UplinkMessage)
    (hframe : m.DecodedFrom frame) (outSize : ℕ) (line : Bytes)
    (hline : m.buildJson outSize = some line) :
    m.ReadFrom line (line.length - 1) ↔ m.Stable := by
  obtain ⟨hnode, hcomma, hfilled⟩ := hframe.texts
  obtain ⟨-, rfl⟩ := UplinkMessage.buildJson_eq_some_iff.mp hline
  exact UplinkMessage.readFrom_line_iff hnode hcomma hfilled

/-- A node's report of one temperature, as text. -/
def temperatureReport (value : CharBuf frameKvValueMax) : UplinkMessage :=
  .data ⟨.lit 32 "N1", 7, .single ⟨.lit _ "T", value⟩⟩

/-- The report of `25`: its frame is delivered, and its line read back. -/
theorem translation_preserves_iff_temperature :
    (frameParserFeed frameParserInit (ascii "@1,N1,000007,DATA,T=25*2922\r\n")).2 =
        [sealedFrame (ascii "1,N1,000007,DATA,T=25")] ∧
      ((temperatureReport ⟨⟨ascii "25", by decide⟩, by decide⟩).ReadFrom
          (ascii "\x7b\"node\":\"N1\",\"seq\":7,\"type\":\"DATA\",\"fields\":\x7b\"T\":\"25\"\x7d\x7d\n")
          55 ↔
        (temperatureReport ⟨⟨ascii "25", by decide⟩, by decide⟩).Stable) :=
  ⟨by decide +kernel, translation_preserves_iff (sealedFrame (ascii "1,N1,000007,DATA,T=25")) _
    (by decide +kernel) 256 _ (by decide +kernel)⟩

/-- The report of `2"5` is delivered and built like any other, and not read back. -/
theorem not_translation_preserves_quote :
    ¬ ∀ frame ∈ (frameParserFeed frameParserInit
        (ascii "@1,N1,000007,DATA,T=2\"5*6B59\r\n")).2,
      ∀ (m : UplinkMessage) (line : Bytes), m.DecodedFrom frame →
        m.buildJson 256 = some line → m.ReadFrom line (line.length - 1) := by
  intro h
  have hfeed : (frameParserFeed frameParserInit (ascii "@1,N1,000007,DATA,T=2\"5*6B59\r\n")).2 =
      [sealedFrame (ascii "1,N1,000007,DATA,T=2\"5")] := by decide +kernel
  have hread := h (sealedFrame (ascii "1,N1,000007,DATA,T=2\"5")) (by simp [hfeed])
    (temperatureReport ⟨⟨ascii "2\"5", by decide⟩, by decide⟩)
    (ascii
      "\x7b\"node\":\"N1\",\"seq\":7,\"type\":\"DATA\",\"fields\":\x7b\"T\":\"2\"5\"\x7d\x7d\n")
    (by decide +kernel) (by decide +kernel) default
  exact absurd hread (by decide +kernel)

end SmartGateway
