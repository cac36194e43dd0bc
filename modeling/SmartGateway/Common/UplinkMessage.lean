import SmartGateway.Common.JsonRoundTrip
import SmartGateway.Common.LineParser

/-!
# Messages on their way up

The three messages a node sends: a frame is decoded to one, a line is built from
one, and a line is read as one. The functions of the source come one for each kind;
here the kind picks among them.
-/

namespace SmartGateway

open Numeral ObjectScan

/-- A DATA, ACK or NACK message. -/
inductive UplinkMessage
  | data (data : FrameData)
  | ack (ack : FrameAck)
  | nack (nack : FrameNack)
deriving DecidableEq

namespace UplinkMessage

/-- The frame decoder of the message's kind gives the message. -/
def DecodedFrom (frame : ParsedFrame) : UplinkMessage → Prop
  | .data d => frameDecodeData frame = some d
  | .ack a => frameDecodeAck frame = some a
  | .nack n => frameDecodeNack frame = some n

instance (frame : ParsedFrame) (m : UplinkMessage) : Decidable (m.DecodedFrom frame) :=
  match m with
  | .data d => inferInstanceAs (Decidable (frameDecodeData frame = some d))
  | .ack a => inferInstanceAs (Decidable (frameDecodeAck frame = some a))
  | .nack n => inferInstanceAs (Decidable (frameDecodeNack frame = some n))

/-- `message_json_build_*`. -/
def buildJson (outSize : ℕ) : UplinkMessage → Option Bytes
  | .data d => messageJsonBuildData outSize d
  | .ack a => messageJsonBuildAck outSize a
  | .nack n => messageJsonBuildNack outSize n

/-- `message_json_decode_*` accepts the line, consumes that much of it and gives
the message, whatever the struct held before. -/
def ReadFrom (line : Bytes) (consumed : ℕ) : UplinkMessage → Prop
  | .data d => ∀ old, messageJsonDecodeData line old = (some consumed, d)
  | .ack a => messageJsonDecodeAck line = (some consumed, a)
  | .nack n => messageJsonDecodeNack line = (some consumed, n)

/-- The object of the message, and what follows it. -/
def line : UplinkMessage → Bytes → Bytes
  | .data d => dataLine d
  | .ack a => ackLine a
  | .nack n => nackLine n

/-- The node id. -/
def nodeId : UplinkMessage → CharBuf 32
  | .data d => d.nodeId
  | .ack a => a.nodeId
  | .nack n => n.nodeId

/-- The texts besides the id: keys and values, or the error. -/
def texts : UplinkMessage → List Bytes
  | .data d => d.fields.1.flatMap fun f => [f.key.bytes, f.value.bytes]
  | .ack a => a.fields.1.flatMap fun f => [f.key.bytes, f.value.bytes]
  | .nack n => [n.error.bytes]

/-- Every text of the message is stable. -/
def Stable (m : UplinkMessage) : Prop :=
  ObjectScan.Stable m.nodeId.bytes ∧ ∀ t ∈ m.texts, ObjectScan.Stable t

instance (m : UplinkMessage) : Decidable m.Stable :=
  inferInstanceAs (Decidable (ObjectScan.Stable m.nodeId.bytes ∧
    ∀ t ∈ m.texts, ObjectScan.Stable t))

theorem buildJson_eq_some_iff {m : UplinkMessage} {outSize : ℕ} {text : Bytes} :
    m.buildJson outSize = some text ↔ text.length < outSize ∧ m.line [Ascii.lf] = text := by
  cases m with
  | data d => exact messageJsonBuildData_eq_some_iff
  | ack a => exact messageJsonBuildAck_eq_some_iff
  | nack n => exact messageJsonBuildNack_eq_some_iff

/-- What follows the object stands at the end of the line. -/
theorem line_eq_append (m : UplinkMessage) (rest : Bytes) : m.line rest = m.line [] ++ rest := by
  cases m with
  | data d => simp [line, dataLine, lineHead, fieldsTail]
  | ack a => simp [line, ackLine, lineHead, fieldsTail]
  | nack n => simp [line, nackLine, lineHead, errorTail]

/-- What is said of all texts of the fields is said of both texts of each. -/
theorem forall_fieldTexts {fs : List FrameKv} {P : Bytes → Prop} :
    (∀ t ∈ fs.flatMap fun f => [f.key.bytes, f.value.bytes], P t) ↔
      ∀ f ∈ fs, P f.key.bytes ∧ P f.value.bytes := by
  simp only [List.mem_flatMap, List.mem_cons, List.not_mem_nil, or_false]
  constructor
  · intro h f hf
    exact ⟨h _ ⟨f, hf, Or.inl rfl⟩, h _ ⟨f, hf, Or.inr rfl⟩⟩
  · rintro h t ⟨f, hf, rfl | rfl⟩
    · exact (h f hf).1
    · exact (h f hf).2

theorem lf_not_mem_lineHead {node type p : Bytes} (n : UInt32) (hnode : Ascii.lf ∉ node)
    (htype : Ascii.lf ∉ type) (hp : Ascii.lf ∉ p) : Ascii.lf ∉ lineHead node n type p := by
  have hdecimal : Ascii.lf ∉ decimal n.toNat := not_mem_decimal (by decide)
  have hnames : Ascii.lf ∉ ascii "node" ∧ Ascii.lf ∉ ascii "seq" ∧ Ascii.lf ∉ ascii "type" := by
    decide
  simp [lineHead, hnames.1, hnode, hnames.2.1, hdecimal, hnames.2.2, htype, hp]

theorem lf_not_mem_fieldsTail {fs : List FrameKv}
    (hfs : ∀ f ∈ fs, Ascii.lf ∉ f.key.bytes ∧ Ascii.lf ∉ f.value.bytes) :
    Ascii.lf ∉ fieldsTail fs [] := by
  have hfields : ∀ sep : Bytes, Ascii.lf ∉ sep → Ascii.lf ∉ jsonFieldsText sep fs := by
    induction fs with
    | nil => exact fun _ _ h => absurd h (by simp [jsonFieldsText])
    | cons f fs ih =>
      intro sep hsep
      obtain ⟨hkey, hvalue⟩ := hfs f (by simp)
      have hrest := ih (fun f hf => hfs f (List.mem_cons_of_mem _ hf)) [Ascii.comma] (by decide)
      simp [jsonFieldsText, jsonField, hsep, hkey, hvalue, hrest]
  have hname : Ascii.lf ∉ ascii "fields" := by decide
  simp [fieldsTail, hname, hfields [] (by simp)]

theorem lf_not_mem_errorTail {error : Bytes} (herror : Ascii.lf ∉ error) :
    Ascii.lf ∉ errorTail error [] := by
  have hname : Ascii.lf ∉ ascii "error" := by decide
  simp [errorTail, hname, herror]

/-- Of texts without newlines a line is built that has one at its end. -/
theorem isLine_line {m : UplinkMessage} (hnode : Ascii.lf ∉ m.nodeId.bytes)
    (htexts : ∀ t ∈ m.texts, Ascii.lf ∉ t) : IsLine (m.line [Ascii.lf]) := by
  have hbrace : Ascii.lf ≠ Ascii.openBrace := by decide
  refine ⟨m.line [], ?_, line_eq_append m _⟩
  cases m with
  | data d =>
    refine List.not_mem_cons_of_ne_of_not_mem hbrace ?_
    exact lf_not_mem_lineHead d.sequence hnode (by decide)
      (lf_not_mem_fieldsTail (forall_fieldTexts.mp htexts))
  | ack a =>
    refine List.not_mem_cons_of_ne_of_not_mem hbrace ?_
    exact lf_not_mem_lineHead a.sequence hnode (by decide)
      (lf_not_mem_fieldsTail (forall_fieldTexts.mp htexts))
  | nack n =>
    refine List.not_mem_cons_of_ne_of_not_mem hbrace ?_
    exact lf_not_mem_lineHead n.sequence hnode (by decide)
      (lf_not_mem_errorTail (htexts n.error.bytes (by simp [texts])))

/-- **Stable texts are read back**, with or without the newline behind the object. -/
theorem readFrom_line {m : UplinkMessage} (hstable : m.Stable) (hfilled : ∀ t ∈ m.texts, t ≠ [])
    (rest : Bytes) : m.ReadFrom (m.line rest) ((m.line rest).length - rest.length) := by
  obtain ⟨hnode, htexts⟩ := hstable
  cases m with
  | data d =>
    exact messageJsonDecodeData_dataLine ⟨hnode, forall_fieldTexts.mp htexts⟩
      (forall_fieldTexts.mp hfilled) rest
  | ack a =>
    exact messageJsonDecodeAck_ackLine ⟨hnode, forall_fieldTexts.mp htexts⟩
      (forall_fieldTexts.mp hfilled) rest
  | nack n =>
    exact messageJsonDecodeNack_nackLine hnode (htexts _ (by simp [texts]))
      (hfilled _ (by simp [texts])) rest

/-- **Without commas in the texts the built line comes back exactly if they are stable.** -/
theorem readFrom_line_iff {m : UplinkMessage} (hnode : Ascii.comma ∉ m.nodeId.bytes)
    (hcomma : ∀ t ∈ m.texts, Ascii.comma ∉ t) (hfilled : ∀ t ∈ m.texts, t ≠ []) :
    m.ReadFrom (m.line [Ascii.lf]) ((m.line [Ascii.lf]).length - 1) ↔ m.Stable := by
  cases m with
  | data d =>
    have htexts : FrameTexts d.nodeId.bytes d.fields.1 :=
      ⟨hnode, forall_fieldTexts.mp hcomma, forall_fieldTexts.mp hfilled⟩
    constructor
    · intro h
      have hstable := (messageJsonDecodeData_dataLine_iff htexts default).mp (h default)
      exact ⟨hstable.node, forall_fieldTexts.mpr hstable.fields⟩
    · rintro ⟨hstable, hfields⟩ old
      exact (messageJsonDecodeData_dataLine_iff htexts old).mpr
        ⟨hstable, forall_fieldTexts.mp hfields⟩
  | ack a =>
    have htexts : FrameTexts a.nodeId.bytes a.fields.1 :=
      ⟨hnode, forall_fieldTexts.mp hcomma, forall_fieldTexts.mp hfilled⟩
    constructor
    · intro h
      have hstable := (messageJsonDecodeAck_ackLine_iff htexts).mp h
      exact ⟨hstable.node, forall_fieldTexts.mpr hstable.fields⟩
    · rintro ⟨hstable, hfields⟩
      exact (messageJsonDecodeAck_ackLine_iff htexts).mpr
        ⟨hstable, forall_fieldTexts.mp hfields⟩
  | nack n =>
    have herror : n.error.bytes ∈ texts (.nack n) := by simp [texts]
    refine (messageJsonDecodeNack_nackLine_iff hnode (hcomma _ herror) (hfilled _ herror)).trans ?_
    refine and_congr_right fun _ => ⟨fun h t ht => ?_, fun h => h _ herror⟩
    rw [texts, List.mem_singleton] at ht
    rw [ht]
    exact h

end UplinkMessage

end SmartGateway
