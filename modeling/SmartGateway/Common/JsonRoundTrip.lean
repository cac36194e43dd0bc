import SmartGateway.Common.JsonReading

/-!
# JSON lines, read back

What the builders of `common/message_json.c` write, and what its decoders make of
it. The builders escape nothing, so the texts of a message decide: a line whose
texts are all stable is read back as it was written. The converse is for texts
without commas, where an unstable text is never made up for by what follows it.
-/

namespace SmartGateway

open Numeral ObjectScan

/-! ## What the builders write -/

/-- The members of a `fields` object; `separator` is empty before the first. -/
def jsonFieldsText (separator : Bytes) : List FrameKv → Bytes
  | [] => []
  | f :: fs => separator ++ jsonField f ++ jsonFieldsText [Ascii.comma] fs

/-- The members every line starts with, behind the opening brace. -/
def lineHead (node : Bytes) (sequence : UInt32) (type p : Bytes) : Bytes :=
  Ascii.quote :: (ascii "node" ++ Ascii.quote :: Ascii.colon :: Ascii.quote ::
    (node ++ Ascii.quote :: Ascii.comma :: Ascii.quote ::
      (ascii "seq" ++ Ascii.quote :: Ascii.colon ::
        (decimal sequence.toNat ++ Ascii.comma :: Ascii.quote ::
          (ascii "type" ++ Ascii.quote :: Ascii.colon :: Ascii.quote ::
            (type ++ Ascii.quote :: Ascii.comma :: p))))))

/-- A `fields` member, the end of the object, and what follows it. -/
def fieldsTail (fs : List FrameKv) (rest : Bytes) : Bytes :=
  Ascii.quote :: (ascii "fields" ++ Ascii.quote :: Ascii.colon :: Ascii.openBrace ::
    (jsonFieldsText [] fs ++ Ascii.closeBrace :: Ascii.closeBrace :: rest))

/-- An `error` member, the end of the object, and what follows it. -/
def errorTail (error rest : Bytes) : Bytes :=
  Ascii.quote :: (ascii "error" ++ Ascii.quote :: Ascii.colon :: Ascii.quote ::
    (error ++ Ascii.quote :: Ascii.closeBrace :: rest))

/-- A DATA line, and what follows its object: the newline, or nothing where a line
parser has taken it off. -/
def dataLine (data : FrameData) (rest : Bytes) : Bytes :=
  Ascii.openBrace :: lineHead data.nodeId.bytes data.sequence (ascii "DATA")
    (fieldsTail data.fields.1 rest)

/-- An ACK line. -/
def ackLine (ack : FrameAck) (rest : Bytes) : Bytes :=
  Ascii.openBrace :: lineHead ack.nodeId.bytes ack.sequence (ascii "ACK")
    (fieldsTail ack.fields.1 rest)

/-- A NACK line. -/
def nackLine (nack : FrameNack) (rest : Bytes) : Bytes :=
  Ascii.openBrace :: lineHead nack.nodeId.bytes nack.sequence (ascii "NACK")
    (errorTail nack.error.bytes rest)

theorem appendText_eq_some_iff {outSize : ℕ} {text piece r : Bytes} :
    appendText outSize text piece = some r ↔
      (text ++ piece).length < outSize ∧ text ++ piece = r := by
  rw [appendText, List.length_append]
  split
  · constructor
    · intro h
      exact absurd h (by simp)
    · intro h
      omega
  · rw [Option.some.injEq]
    constructor
    · intro h
      exact ⟨by omega, h⟩
    · exact fun h => h.2

/-- The field loop writes the members if the buffer holds them. -/
theorem appendJsonFields_eq_some_iff {outSize : ℕ} {fs : List FrameKv} {separator text r : Bytes}
    (htext : text.length < outSize) :
    appendJsonFields outSize separator fs text = some r ↔
      (text ++ jsonFieldsText separator fs).length < outSize ∧
        text ++ jsonFieldsText separator fs = r := by
  induction fs generalizing separator text with
  | nil =>
    rw [appendJsonFields, jsonFieldsText, List.append_nil, Option.some.injEq]
    exact (and_iff_right htext).symm
  | cons f fs ih =>
    rw [appendJsonFields, jsonFieldsText]
    cases happend : appendText outSize text (separator ++ jsonField f) with
    | none =>
      simp only [reduceCtorEq, false_iff, not_and]
      intro hlen
      have hshort : (text ++ (separator ++ jsonField f)).length < outSize := by
        simp only [List.length_append] at hlen ⊢
        omega
      rw [appendText_eq_some_iff.mpr ⟨hshort, rfl⟩] at happend
      exact absurd happend (by simp)
    | some text' =>
      obtain ⟨hshort, rfl⟩ := appendText_eq_some_iff.mp happend
      rw [ih hshort, List.append_assoc text]

theorem buildJsonFields_eq_some_iff {outSize : ℕ} {head : Bytes} {fs : List FrameKv}
    {line : Bytes} :
    buildJsonFields outSize head fs = some line ↔
      line.length < outSize ∧ head ++ jsonFieldsText [] fs ++ ascii "\x7d\x7d\n" = line := by
  -- a line that fits has room for each of its beginnings
  have hlen : ∀ {text r : Bytes}, text ++ r = line → line.length < outSize →
      text.length < outSize := by
    rintro text r rfl h
    rw [List.length_append] at h
    omega
  rw [buildJsonFields]
  cases happend : appendText outSize [] head with
  | none =>
    simp only [reduceCtorEq, false_iff, not_and]
    intro hline heq
    rw [List.append_assoc] at heq
    have h := appendText_eq_some_iff.mpr ⟨(hlen heq hline : ([] ++ head).length < outSize), rfl⟩
    rw [happend] at h
    exact absurd h (by simp)
  | some text =>
    obtain ⟨hhead, rfl⟩ := appendText_eq_some_iff.mp happend
    simp only [List.nil_append] at hhead ⊢
    cases hfields : appendJsonFields outSize [] fs head with
    | none =>
      simp only [reduceCtorEq, false_iff, not_and]
      intro hline heq
      rw [(appendJsonFields_eq_some_iff hhead).mpr ⟨hlen heq hline, rfl⟩] at hfields
      exact absurd hfields (by simp)
    | some text =>
      obtain ⟨-, rfl⟩ := (appendJsonFields_eq_some_iff hhead).mp hfields
      simp only [appendText_eq_some_iff]
      constructor
      · rintro ⟨h, rfl⟩
        exact ⟨h, rfl⟩
      · rintro ⟨h, rfl⟩
        exact ⟨h, rfl⟩

/-- The head of a line, piece by piece. -/
theorem jsonNode_append_jsonSeqType (node : Bytes) (sequence : UInt32) (type p : Bytes) :
    jsonNode node ++ (jsonSeqType sequence type ++ p) =
      Ascii.openBrace :: lineHead node sequence type p := by
  have hnode : ascii "\x7b\"node\":\"" =
      Ascii.openBrace :: Ascii.quote :: (ascii "node" ++
        [Ascii.quote, Ascii.colon, Ascii.quote]) := by decide
  have hseq : ascii "\"seq\":" = Ascii.quote :: (ascii "seq" ++ [Ascii.quote, Ascii.colon]) := by
    decide
  have htype : ascii ",\"type\":\"" = Ascii.comma :: Ascii.quote :: (ascii "type" ++
      [Ascii.quote, Ascii.colon, Ascii.quote]) := by decide
  have hclose : ascii "\"," = [Ascii.quote, Ascii.comma] := by decide
  simp only [jsonNode, jsonSeqType, lineHead, hnode, hseq, htype, hclose, List.append_assoc,
    List.cons_append, List.nil_append]

theorem jsonFields_append_end (fs : List FrameKv) :
    ascii "\"fields\":\x7b" ++ (jsonFieldsText [] fs ++ ascii "\x7d\x7d\n") =
      fieldsTail fs [Ascii.lf] := by
  have hopen : ascii "\"fields\":\x7b" = Ascii.quote :: (ascii "fields" ++
      [Ascii.quote, Ascii.colon, Ascii.openBrace]) := by decide
  have hclose : ascii "\x7d\x7d\n" = [Ascii.closeBrace, Ascii.closeBrace, Ascii.lf] := by decide
  simp only [fieldsTail, hopen, hclose, List.append_assoc, List.cons_append, List.nil_append]

/-- **The DATA builder.** -/
theorem messageJsonBuildData_eq_some_iff {outSize : ℕ} {data : FrameData} {line : Bytes} :
    messageJsonBuildData outSize data = some line ↔ line.length < outSize ∧
      dataLine data [Ascii.lf] = line := by
  rw [messageJsonBuildData, buildJsonFields_eq_some_iff, dataLine, ← jsonNode_append_jsonSeqType,
    ← jsonFields_append_end]
  simp only [List.append_assoc]

/-- **The ACK builder.** -/
theorem messageJsonBuildAck_eq_some_iff {outSize : ℕ} {ack : FrameAck} {line : Bytes} :
    messageJsonBuildAck outSize ack = some line ↔ line.length < outSize ∧
      ackLine ack [Ascii.lf] = line := by
  rw [messageJsonBuildAck, buildJsonFields_eq_some_iff, ackLine, ← jsonNode_append_jsonSeqType,
    ← jsonFields_append_end]
  simp only [List.append_assoc]

/-- **The NACK builder.** -/
theorem messageJsonBuildNack_eq_some_iff {outSize : ℕ} {nack : FrameNack} {line : Bytes} :
    messageJsonBuildNack outSize nack = some line ↔ line.length < outSize ∧
      nackLine nack [Ascii.lf] = line := by
  have hopen : ascii "\"error\":\"" = Ascii.quote :: (ascii "error" ++
      [Ascii.quote, Ascii.colon, Ascii.quote]) := by decide
  have hclose : ascii "\"\x7d\n" = [Ascii.quote, Ascii.closeBrace, Ascii.lf] := by decide
  have hline : jsonNode nack.nodeId.bytes ++ jsonSeqType nack.sequence (ascii "NACK") ++
      ascii "\"error\":\"" ++ nack.error.bytes ++ ascii "\"\x7d\n" =
        nackLine nack [Ascii.lf] := by
    rw [nackLine, ← jsonNode_append_jsonSeqType, errorTail, hopen, hclose]
    simp only [List.append_assoc, List.cons_append, List.nil_append]
  rw [messageJsonBuildNack, appendText_eq_some_iff, List.nil_append, hline]
  constructor
  · rintro ⟨h, rfl⟩
    exact ⟨h, rfl⟩
  · rintro ⟨h, rfl⟩
    exact ⟨h, rfl⟩

/-! ## The fields -/

/-- A field the decoders store as it stands, and read as it is written. -/
structure FieldReadable (f : FrameKv) : Prop where
  key_ne : f.key.bytes ≠ []
  value_ne : f.value.bytes ≠ []
  key_stable : Stable f.key.bytes
  value_stable : Stable f.value.bytes

/-- A pair whose texts are not empty is appended while there is room. -/
theorem kvArrayAdd_bytes {f : FrameKv} (hkey : f.key.bytes ≠ []) (hvalue : f.value.bytes ≠ [])
    {fields : FrameFields} (hroom : fields.1.length < frameDataMaxFields) :
    kvArrayAdd fields f.key.bytes f.value.bytes =
      some ⟨fields.1 ++ [f], by rw [List.length_append]; exact hroom⟩ := by
  have hempty : ¬ (f.key.bytes = [] ∨ f.value.bytes = []) := by
    rw [not_or]
    exact ⟨hkey, hvalue⟩
  rw [kvArrayAdd, if_neg hempty, CharBuf.ofRaw?_bytes, CharBuf.ofRaw?_bytes]
  exact dif_pos hroom

/-- A written value is read as a string. -/
theorem scanFieldValue_quote (p : Bytes) :
    scanFieldValue (Ascii.quote :: p) = scanString p := by
  rw [scanFieldValue]
  exact if_pos rfl

theorem fieldMember_written {f : FrameKv} (hf : FieldReadable f) {fields : FrameFields}
    (hroom : fields.1.length < frameDataMaxFields) (p : Bytes) :
    fieldMember f.key.bytes (Ascii.quote :: (f.value.bytes ++ Ascii.quote :: p)) fields =
      (some p, ⟨fields.1 ++ [f], by rw [List.length_append]; exact hroom⟩) := by
  refine fieldMember_eq_some_iff.mpr
    ⟨f.value.bytes, ?_, kvArrayAdd_bytes hf.key_ne hf.value_ne hroom⟩
  rw [scanFieldValue_quote]
  exact scanString_eq_some_iff.mpr ⟨rfl, hf.value_stable⟩

/-- A field as it is written, with what follows it. -/
theorem jsonField_append (f : FrameKv) (p : Bytes) :
    jsonField f ++ p = Ascii.quote :: (f.key.bytes ++ Ascii.quote :: Ascii.colon :: Ascii.quote ::
      (f.value.bytes ++ Ascii.quote :: p)) := by
  simp [jsonField]

theorem jsonFieldsText_cons (f : FrameKv) (fs : List FrameKv) (p : Bytes) :
    jsonFieldsText [] (f :: fs) ++ p =
      jsonField f ++ (jsonFieldsText [Ascii.comma] fs ++ p) := by
  simp [jsonFieldsText]

theorem jsonFieldsText_comma (f : FrameKv) (fs : List FrameKv) (p : Bytes) :
    jsonFieldsText [Ascii.comma] (f :: fs) ++ p =
      Ascii.comma :: (jsonFieldsText [] (f :: fs) ++ p) := by
  simp [jsonFieldsText]

/-- **Readable fields are read back**, in order, behind those already there. -/
theorem fieldsRun_written {fs : List FrameKv} (hfs : ∀ f ∈ fs, FieldReadable f)
    {fields fields' : FrameFields} (hfields : fields'.1 = fields.1 ++ fs) (rest : Bytes) :
    ObjectRun fieldMember (jsonFieldsText [] fs ++ Ascii.closeBrace :: rest) fields rest
      fields' := by
  induction fs generalizing fields with
  | nil =>
    rw [List.append_nil] at hfields
    rw [Subtype.ext hfields]
    exact .close (skipWhitespace_cons (by decide) rest)
  | cons f fs ih =>
    have hf := hfs f (by simp)
    -- the fields that are left all have a place
    have hroom : fields.1.length < frameDataMaxFields := by
      have hlen := fields'.2
      rw [hfields, List.length_append, List.length_cons] at hlen
      omega
    have hmember := fieldMember_written hf hroom
    have hnext : fields'.1 = (fields.1 ++ [f]) ++ fs := by
      rw [hfields, List.append_assoc, List.singleton_append]
    rw [jsonFieldsText_cons, jsonField_append]
    cases fs with
    | nil =>
      have hlast : fields' = ⟨fields.1 ++ [f], by rw [List.length_append]; exact hroom⟩ :=
        Subtype.ext (by rw [hnext, List.append_nil])
      rw [hlast]
      exact .written_last hf.key_stable (by decide) (hmember _)
    | cons g gs =>
      rw [jsonFieldsText_comma]
      refine .written_cons hf.key_stable (by decide) (hmember _) ?_
      exact ih (fun f hf => hfs f (List.mem_cons_of_mem _ hf)) hnext

/-- A text that is scanned out of its own written form is stable, and the scan
stopped at its closing quote. -/
theorem scanString_charBuf {cap : ℕ} {b : CharBuf cap} {p text rest : Bytes}
    (hscan : scanString (b.bytes ++ Ascii.quote :: p) = some (text, rest))
    (hstored : CharBuf.ofRaw? cap text = some b) :
    Stable b.bytes ∧ text = b.bytes ∧ rest = p := by
  obtain ⟨heq, hstable⟩ := scanString_eq_some_iff.mp hscan
  have hbytes : text.takeWhile (· ≠ 0) = b.bytes := by
    unfold CharBuf.ofRaw? at hstored
    split at hstored
    · rw [← Option.some.inj hstored]
      rfl
    · exact absurd hstored (by simp)
  have hsplit : b.bytes ++ text.dropWhile (· ≠ 0) = text := by
    rw [← hbytes]
    exact List.takeWhile_append_dropWhile
  cases hdrop : text.dropWhile (· ≠ 0) with
  | nil =>
    rw [hdrop, List.append_nil] at hsplit
    rw [← hsplit] at heq hstable
    exact ⟨hstable, hsplit.symm, (List.cons.inj (List.append_cancel_left heq)).2.symm⟩
  | cons c d =>
    -- the text would go on behind its stored part with a NUL, where there is a quote
    have hc : c = 0 := by
      have hne : text.dropWhile (· ≠ 0) ≠ [] := by
        rw [hdrop]
        exact List.cons_ne_nil c d
      have hhead : (text.dropWhile (· ≠ 0)).head hne = c := by
        simp only [hdrop, List.head_cons]
      have hnot := List.head_dropWhile_not (fun b : Byte => decide (b ≠ 0)) hne
      rw [hhead] at hnot
      simpa using hnot
    rw [hdrop] at hsplit
    rw [← hsplit, List.append_assoc] at heq
    have hquote := (List.cons.inj (List.append_cancel_left heq)).1
    rw [hc] at hquote
    exact absurd hquote (by decide)

/-- The fields are only appended to. -/
theorem prefix_of_fieldsRun {p rest : Bytes} {fields fields' : FrameFields}
    (h : ObjectRun fieldMember p fields rest fields') : fields.1 <+: fields'.1 := by
  refine h.rel (R := fun fs fs' : FrameFields => fs.1 <+: fs'.1) (fun fs => List.prefix_refl fs.1)
    (fun {a b c : FrameFields} (h₁ : a.1 <+: b.1) (h₂ : b.1 <+: c.1) => h₁.trans h₂) fun hv => ?_
  obtain ⟨value, -, hadd⟩ := fieldMember_eq_some_iff.mp hv
  obtain ⟨-, -, -, f, -, -, hfields⟩ := kvArrayAdd_eq_some hadd
  rw [hfields]
  exact List.prefix_append _ [f]

/-- **Fields that came back as they were written are stable.** -/
theorem stable_of_fieldsRun {fs : List FrameKv} {fields fields' : FrameFields} {w rest : Bytes}
    (h : ObjectRun fieldMember (jsonFieldsText [] fs ++ w) fields rest fields')
    (hfields : fields'.1 = fields.1 ++ fs) :
    ∀ f ∈ fs, Stable f.key.bytes ∧ Stable f.value.bytes := by
  induction fs generalizing fields with
  | nil =>
    intro f hf
    exact absurd hf (by simp)
  | cons f fs ih =>
    rw [jsonFieldsText_cons, jsonField_append] at h
    have hskip : ∀ k k' : Bytes,
        skipWhitespace (Ascii.quote :: k) = Ascii.quote :: k' → k = k' := by
      intro k k' hk
      rw [skipWhitespace_cons (by decide)] at hk
      exact (List.cons.inj hk).2
    -- what the first member of the run has read, if the next field in the array is `f`
    have hmember : ∀ {k key q q' : Bytes} {fields₁ : FrameFields},
        f.key.bytes ++ Ascii.quote :: Ascii.colon :: Ascii.quote :: (f.value.bytes ++
          Ascii.quote :: (jsonFieldsText [Ascii.comma] fs ++ w)) = k →
        scanMember k = some (key, q) → fieldMember key q fields = (some q', fields₁) →
        fields₁.1 <+: fields'.1 → Stable f.key.bytes ∧ Stable f.value.bytes ∧
          fields₁.1 = fields.1 ++ [f] ∧ q' = jsonFieldsText [Ascii.comma] fs ++ w := by
      rintro k key q q' fields₁ rfl hk hv hle
      obtain ⟨value, hscan, hadd⟩ := fieldMember_eq_some_iff.mp hv
      obtain ⟨-, -, -, g, hkey, hvalue, hfields₁⟩ := kvArrayAdd_eq_some hadd
      obtain ⟨r, hscankey, -, -⟩ := scanMember_eq_some hk
      have hg : g = f := by
        rw [hfields₁, hfields, List.prefix_append_right_inj] at hle
        obtain ⟨t, ht⟩ := hle
        exact (List.cons.inj ht).1
      subst hg
      obtain ⟨hkeystable, rfl, -⟩ := scanString_charBuf hscankey hkey
      rw [scanMember_written hkeystable (by decide), Option.some.injEq, Prod.mk.injEq] at hk
      rw [← hk.2, scanFieldValue_quote] at hscan
      obtain ⟨hvaluestable, -, hq'⟩ := scanString_charBuf hscan hvalue
      exact ⟨hkeystable, hvaluestable, hfields₁, hq'⟩
    cases h with
    | close hp =>
      rw [skipWhitespace_cons (by decide)] at hp
      exact absurd (List.cons.inj hp).1 (by decide)
    | last hp hk hv hq =>
      obtain ⟨hkey, hvalue, hadded, -⟩ := hmember (hskip _ _ hp) hk hv (List.prefix_refl _)
      have hnil : fs = [] := by
        rw [hadded] at hfields
        exact (List.cons.inj (List.append_cancel_left hfields)).2.symm
      subst hnil
      intro f' hf'
      rw [List.mem_singleton.mp hf']
      exact ⟨hkey, hvalue⟩
    | cons hp hk hv hq hrun =>
      obtain ⟨hkey, hvalue, hadded, hq'⟩ :=
        hmember (hskip _ _ hp) hk hv (prefix_of_fieldsRun hrun)
      intro f' hf'
      rcases List.mem_cons.mp hf' with rfl | hf'
      · exact ⟨hkey, hvalue⟩
      cases fs with
      | nil => exact absurd hf' (by simp)
      | cons g gs =>
        rw [hq', jsonFieldsText_comma, skipWhitespace_cons (by decide)] at hq
        rw [← (List.cons.inj hq).2] at hrun
        refine ih hrun ?_ f' hf'
        rw [hadded, hfields, List.append_assoc, List.singleton_append]

/-! ## The head -/

/-- How a rule for members reads the head of a line of one type: the node id,
which it may refuse, the sequence and the type. -/
structure HeadReader {σ : Type*} (member : Bytes → Bytes → σ → Option Bytes × σ)
    (type : Bytes) where
  node : Bytes → σ → Option σ
  seq : UInt32 → σ → σ
  typed : σ → σ
  member_node : ∀ r st, member (ascii "node") (Ascii.quote :: r) st = stringValue node r st
  member_seq : ∀ n p st, member (ascii "seq") (decimal n.toNat ++ Ascii.comma :: p) st =
    (some (Ascii.comma :: p), seq n st)
  member_type : ∀ p st, member (ascii "type") (Ascii.quote :: (type ++ Ascii.quote :: p)) st =
    (some p, typed st)

/-- A reader of the lines with fields, which go into a place of their own. -/
structure KvReader {σ : Type*} (member : Bytes → Bytes → σ → Option Bytes × σ)
    (type : Bytes) extends HeadReader member type where
  fields : σ → FrameFields
  setFields : FrameFields → σ → σ
  member_fields : ∀ {p rest st st'}, member (ascii "fields") p st = (some rest, st') ↔
    ∃ fs, scanFields fieldMember p (fields st) = (some rest, fs) ∧ st' = setFields fs st

/-- `json_parse_object` and a type that fits its buffer. -/
def objectHead (type : CharBuf 8) (htype : Stable type.bytes) :
    HeadReader objectMember type.bytes where
  node := objectString (ascii "node")
  seq n obj := { obj with sequence := n, foundSeq := true }
  typed obj := { obj with typeValue := type, foundType := true }
  member_node := objectMember_string (by decide)
  member_seq := objectMember_seq
  member_type p obj := by
    rw [objectMember_string (by decide)]
    refine stringValue_written htype ?_ p
    rw [objectString, if_neg (by decide), if_neg (by decide), if_pos rfl, CharBuf.ofRaw?_bytes]
    rfl

def objectKv (type : CharBuf 8) (htype : Stable type.bytes) :
    KvReader objectMember type.bytes where
  toHeadReader := objectHead type htype
  fields obj := obj.fields
  setFields fs obj := { obj with fields := fs, foundFields := true }
  member_fields := objectMember_fields_eq_some_iff

/-- `message_json_decode_data`. -/
def dataKv : KvReader dataMember (ascii "DATA") where
  node := dataString (ascii "node")
  seq n st := { st with sequence := n, foundSeq := true }
  typed st := { st with foundType := true }
  member_node := dataMember_string (by decide)
  member_seq := dataMember_seq
  member_type p st := by
    rw [dataMember_string (by decide)]
    refine stringValue_written (stable_of_not_mem (by decide) (by decide)) ?_ p
    rw [dataString, if_neg (by decide), if_pos rfl, if_pos rfl]
  fields st := st.data.fields
  setFields fs st := { st with data := { st.data with fields := fs } }
  member_fields := dataMember_fields_eq_some_iff

section Head

variable {σ : Type*} {member : Bytes → Bytes → σ → Option Bytes × σ} {type : Bytes}
variable {node : Bytes} {n : UInt32} {p rest : Bytes} {st st₁ st' : σ}

/-- The number of a head stands before a comma, and starts with a digit. -/
theorem HeadReader.seq_run (R : HeadReader member type) :
    ObjectRun member (Ascii.quote :: (ascii "seq" ++ Ascii.quote :: Ascii.colon ::
      (decimal n.toNat ++ Ascii.comma :: p))) st rest st' ↔
      ObjectRun member p (R.seq n st) rest st' := by
  obtain ⟨b, ds, hdecimal, hdigit⟩ := exists_decimal_eq_cons n.toNat
  have hread := R.member_seq n p st
  rw [hdecimal, List.cons_append] at hread ⊢
  have hkey : Stable (ascii "seq") := stable_of_not_mem (by decide) (by decide)
  constructor
  · intro h
    obtain ⟨q, st₂, hv, hnext⟩ := h.of_written hkey (ne_of_isDigit hdigit).2.2
    rw [hread] at hv
    obtain ⟨hq, rfl⟩ := Prod.mk.inj hv
    rw [← Option.some.inj hq, skipWhitespace_cons (by decide)] at hnext
    rcases hnext with ⟨hclose, -⟩ | ⟨p', hcomma, hrun⟩
    · exact absurd (List.cons.inj hclose).1 (by decide)
    · rw [(List.cons.inj hcomma).2]
      exact hrun
  · exact fun h => .written_cons hkey (ne_of_isDigit hdigit).2.2 hread h

/-- The type of a head is read as it is written. -/
theorem HeadReader.type_run (R : HeadReader member type) :
    ObjectRun member (Ascii.quote :: (ascii "type" ++ Ascii.quote :: Ascii.colon ::
      Ascii.quote :: (type ++ Ascii.quote :: Ascii.comma :: p))) st rest st' ↔
      ObjectRun member p (R.typed st) rest st' := by
  have hread := R.member_type (Ascii.comma :: p) st
  have hkey : Stable (ascii "type") := stable_of_not_mem (by decide) (by decide)
  constructor
  · intro h
    obtain ⟨q, st₂, hv, hnext⟩ := h.of_written hkey (by decide)
    rw [hread] at hv
    obtain ⟨hq, rfl⟩ := Prod.mk.inj hv
    rw [← Option.some.inj hq, skipWhitespace_cons (by decide)] at hnext
    rcases hnext with ⟨hclose, -⟩ | ⟨p', hcomma, hrun⟩
    · exact absurd (List.cons.inj hclose).1 (by decide)
    · rw [(List.cons.inj hcomma).2]
      exact hrun
  · exact fun h => .written_cons hkey (by decide) hread h

/-- A head with a stable id, and the members behind it. -/
theorem HeadReader.head_run (R : HeadReader member type) (hnode : Stable node)
    (hst : R.node node st = some st₁)
    (h : ObjectRun member p (R.typed (R.seq n st₁)) rest st') :
    ObjectRun member (lineHead node n type p) st rest st' :=
  .written_string (stable_of_not_mem (by decide) (by decide)) hnode
    (fun r => R.member_node r st) hst (R.seq_run.mpr (R.type_run.mpr h))

/-- **A line with a comma-free id** that is accepted has its id, its sequence and
its type read as they are written, or the object was closed inside the id. -/
theorem HeadReader.of_head_run (R : HeadReader member type) (hcomma : Ascii.comma ∉ node)
    (h : ObjectRun member (lineHead node n type p) st rest st') :
    (Stable node ∧ ∃ st₁, R.node node st = some st₁ ∧
      ObjectRun member p (R.typed (R.seq n st₁)) rest st') ∨ ∃ u, R.node u st = some st' := by
  have hkey : Stable (ascii "node") := stable_of_not_mem (by decide) (by decide)
  have hseq : ascii "seq" = 115 :: ascii "eq" := by decide
  rw [lineHead, hseq] at h
  rcases h.of_written_string hkey hcomma (fun r => R.member_node r st) (by decide) (by decide) with
    ⟨hstable, st₁, hst, hrun⟩ | hclosed
  · refine Or.inl ⟨hstable, st₁, hst, ?_⟩
    exact R.type_run.mp (R.seq_run.mp hrun)
  · exact Or.inr hclosed

end Head

/-! ## Lines with fields -/

/-- The commas of a fields text are its separators, each behind a quote. -/
theorem commasQuoted_fieldsText {fs : List FrameKv}
    (hfs : ∀ f ∈ fs, Ascii.comma ∉ f.key.bytes ∧ Ascii.comma ∉ f.value.bytes) {b : Byte}
    (hb : b ≠ Ascii.comma) {p : Bytes} (hp : CommasQuoted (b :: p)) :
    CommasQuoted (jsonFieldsText [] fs ++ b :: p) := by
  induction fs with
  | nil => exact hp
  | cons f fs ih =>
    have hrest : CommasQuoted (Ascii.quote :: (jsonFieldsText [Ascii.comma] fs ++ b :: p)) := by
      have htail := ih fun f hf => hfs f (List.mem_cons_of_mem _ hf)
      cases fs with
      | nil => exact commasQuoted_cons_cons.mpr ⟨fun h => absurd h hb, hp⟩
      | cons g gs =>
        rw [jsonFieldsText_comma]
        refine commasQuoted_cons_cons.mpr ⟨fun _ => rfl, ?_⟩
        rw [jsonFieldsText_cons, jsonField_append] at htail ⊢
        exact commasQuoted_cons_cons.mpr ⟨fun h => absurd h (by decide), htail⟩
    have hquoted : ∀ {t : Bytes}, Ascii.comma ∉ t → Ascii.comma ∉ Ascii.quote :: t := by
      intro t ht
      rw [List.mem_cons, not_or]
      exact ⟨by decide, ht⟩
    obtain ⟨hkey, hvalue⟩ := hfs f (by simp)
    rw [jsonFieldsText_cons, jsonField_append]
    refine CommasQuoted.append (hquoted hkey) (by decide) ?_
    refine commasQuoted_cons_cons.mpr ⟨fun h => absurd h (by decide), ?_⟩
    refine commasQuoted_cons_cons.mpr ⟨fun h => absurd h (by decide), ?_⟩
    exact CommasQuoted.append (hquoted hvalue) (by decide) hrest

section Kv

variable {σ : Type*} {member : Bytes → Bytes → σ → Option Bytes × σ} {type : Bytes}
variable {node : Bytes} {n : UInt32} {fs : List FrameKv} {rest : Bytes} {st st₁ st' : σ}

/-- Readable fields at the end of a line, behind those already there. -/
theorem KvReader.fields_run (R : KvReader member type) (hfs : ∀ f ∈ fs, FieldReadable f)
    (fields : FrameFields) (hfields : fields.1 = (R.fields st).1 ++ fs) :
    ObjectRun member (fieldsTail fs rest) st rest (R.setFields fields st) := by
  refine .written_last ?_ (by decide) (R.member_fields.mpr ?_)
  · exact stable_of_not_mem (by decide) (by decide)
  · refine ⟨fields, (scanFields_eq_some_iff fieldMember_consumes).mpr ⟨_, rfl, ?_⟩, rfl⟩
    exact fieldsRun_written hfs hfields (Ascii.closeBrace :: rest)

/-- **A line of stable texts** is read to the end of its object. -/
theorem KvReader.kv_run (R : KvReader member type) (hnode : Stable node)
    (hfs : ∀ f ∈ fs, FieldReadable f) (hst : R.node node st = some st₁) (fields : FrameFields)
    (hfields : fields.1 = (R.fields (R.typed (R.seq n st₁))).1 ++ fs) :
    ObjectRun member (lineHead node n type (fieldsTail fs rest)) st rest
      (R.setFields fields (R.typed (R.seq n st₁))) :=
  R.head_run hnode hst (R.fields_run hfs fields hfields)

/-- **A line without commas in its texts** that is accepted has its head read as
it is written, and ends with the fields object; or it was closed inside the id. -/
theorem KvReader.of_kv_run (R : KvReader member type) (hnode : Ascii.comma ∉ node)
    (hfs : ∀ f ∈ fs, Ascii.comma ∉ f.key.bytes ∧ Ascii.comma ∉ f.value.bytes)
    (h : ObjectRun member (lineHead node n type (fieldsTail fs [Ascii.lf])) st rest st') :
    (Stable node ∧ ∃ st₁ fields q, R.node node st = some st₁ ∧
      ObjectRun fieldMember (jsonFieldsText [] fs ++ [Ascii.closeBrace, Ascii.closeBrace, Ascii.lf])
        (R.fields (R.typed (R.seq n st₁))) q fields ∧
      st' = R.setFields fields (R.typed (R.seq n st₁))) ∨ ∃ u, R.node u st = some st' := by
  rcases R.of_head_run hnode h with ⟨hstable, st₁, hst, hrun⟩ | hclosed
  swap
  · exact Or.inr hclosed
  have hkey : Stable (ascii "fields") := stable_of_not_mem (by decide) (by decide)
  obtain ⟨q, st₂, hv, hnext⟩ := hrun.of_written hkey (by decide)
  obtain ⟨fields, hscan, rfl⟩ := R.member_fields.mp hv
  obtain ⟨p', hp', hfieldsrun⟩ := (scanFields_eq_some_iff fieldMember_consumes).mp hscan
  obtain ⟨-, rfl⟩ := List.cons.inj hp'
  rcases hnext with ⟨-, rfl⟩ | ⟨p'', hcomma, -⟩
  · exact Or.inl ⟨hstable, st₁, fields, q, hst, hfieldsrun, rfl⟩
  · -- the member loop goes on behind a comma only, and no brace of the fields has one next
    have hquoted : CommasQuoted
        (jsonFieldsText [] fs ++ [Ascii.closeBrace, Ascii.closeBrace, Ascii.lf]) :=
      commasQuoted_fieldsText hfs (by decide) (commasQuoted_of_not_mem (by decide))
    obtain ⟨w, hw⟩ := hfieldsrun.exists_closeBrace fieldMember_consumes
    rw [hw] at hquoted
    exact absurd hcomma hquoted.not_comma

end Kv

/-! ## Round trips -/

/-- The texts of a line with fields are stable. -/
structure TextsStable (node : Bytes) (fs : List FrameKv) : Prop where
  node : Stable node
  fields : ∀ f ∈ fs, Stable f.key.bytes ∧ Stable f.value.bytes

/-- The texts of a line with fields as a frame can carry them. -/
structure FrameTexts (node : Bytes) (fs : List FrameKv) : Prop where
  node : Ascii.comma ∉ node
  fields : ∀ f ∈ fs, Ascii.comma ∉ f.key.bytes ∧ Ascii.comma ∉ f.value.bytes
  filled : ∀ f ∈ fs, f.key.bytes ≠ [] ∧ f.value.bytes ≠ []

/-- A node id that was stored. -/
theorem objectString_node_eq_some_iff {text : Bytes} {obj obj' : JsonObject} :
    objectString (ascii "node") text obj = some obj' ↔
      ∃ nodeId, CharBuf.ofRaw? 32 text = some nodeId ∧
        { obj with nodeId := nodeId, foundNode := true } = obj' := by
  rw [objectString, if_pos rfl, Option.map_eq_some_iff]

theorem dataString_node_eq_some_iff {text : Bytes} {st st' : DataScan} :
    dataString (ascii "node") text st = some st' ↔
      ∃ nodeId, CharBuf.ofRaw? 32 text = some nodeId ∧
        { st with data := { st.data with nodeId := nodeId }, foundNode := true } = st' := by
  rw [dataString, if_pos rfl, Option.map_eq_some_iff]

theorem messageJsonDecodeAck_eq_some_iff {line : Bytes} {consumed : ℕ} {ack : FrameAck} :
    messageJsonDecodeAck line = (some consumed, ack) ↔
      ∃ obj, jsonParseObject line = (some consumed, obj) ∧ obj.foundNode = true ∧
        obj.foundSeq = true ∧ obj.foundType = true ∧ obj.typeValue.bytes = ascii "ACK" ∧
        ⟨obj.nodeId, obj.sequence, obj.messageFields⟩ = ack := by
  rw [messageJsonDecodeAck]
  cases jsonParseObject line with
  | mk out obj =>
    cases out with
    | none => simp
    | some c =>
      simp only [Prod.mk.injEq, Option.some.injEq]
      constructor
      · intro h
        split_ifs at h with hfound htype
        · exact absurd (Prod.mk.inj h).1 (by simp)
        · exact absurd (Prod.mk.inj h).1 (by simp)
        · obtain ⟨hc, rfl⟩ := Prod.mk.inj h
          simp only [not_or, Bool.not_eq_true', Bool.not_eq_false] at hfound
          exact ⟨obj, ⟨Option.some.inj hc, rfl⟩, hfound.1, hfound.2.1, hfound.2.2,
            not_not.mp htype, rfl⟩
      · rintro ⟨obj', ⟨rfl, rfl⟩, hnode, hseq, htype, hack, rfl⟩
        simp [hnode, hseq, htype, hack]

theorem messageJsonDecodeNack_eq_some_iff {line : Bytes} {consumed : ℕ} {nack : FrameNack} :
    messageJsonDecodeNack line = (some consumed, nack) ↔
      ∃ obj, jsonParseObject line = (some consumed, obj) ∧ obj.foundNode = true ∧
        obj.foundSeq = true ∧ obj.foundError = true ∧ obj.foundType = true ∧
        obj.typeValue.bytes = ascii "NACK" ∧ ⟨obj.nodeId, obj.sequence, obj.error⟩ = nack := by
  rw [messageJsonDecodeNack]
  cases jsonParseObject line with
  | mk out obj =>
    cases out with
    | none => simp
    | some c =>
      simp only [Prod.mk.injEq, Option.some.injEq]
      constructor
      · intro h
        split_ifs at h with hfound htype
        · exact absurd (Prod.mk.inj h).1 (by simp)
        · exact absurd (Prod.mk.inj h).1 (by simp)
        · obtain ⟨hc, rfl⟩ := Prod.mk.inj h
          simp only [not_or, Bool.not_eq_true', Bool.not_eq_false] at hfound
          exact ⟨obj, ⟨Option.some.inj hc, rfl⟩, hfound.1, hfound.2.1, hfound.2.2.1,
            hfound.2.2.2, not_not.mp htype, rfl⟩
      · rintro ⟨obj', ⟨rfl, rfl⟩, hnode, hseq, herror, htype, hnack, rfl⟩
        simp [hnode, hseq, herror, htype, hnack]

theorem messageJsonDecodeData_eq_some_iff {line : Bytes} {consumed : ℕ} {data data' : FrameData} :
    messageJsonDecodeData line data = (some consumed, data') ↔ line ≠ [] ∧
      ∃ st, parseWith dataMember line DataScan.zero = (some consumed, st) ∧
        st.foundNode = true ∧ st.foundSeq = true ∧ st.foundType = true ∧
        { st.data with sequence := st.sequence } = data' := by
  rw [messageJsonDecodeData]
  by_cases hline : line = []
  · simp [hline]
  rw [if_neg hline]
  cases parseWith dataMember line DataScan.zero with
  | mk out st =>
    cases out with
    | none => simp
    | some c =>
      simp only [Prod.mk.injEq, Option.some.injEq]
      constructor
      · intro h
        split_ifs at h with hfound
        · exact absurd (Prod.mk.inj h).1 (by simp)
        · obtain ⟨hc, rfl⟩ := Prod.mk.inj h
          simp only [not_or, Bool.not_eq_true', Bool.not_eq_false] at hfound
          exact ⟨hline, st, ⟨Option.some.inj hc, rfl⟩, hfound.1, hfound.2.1, hfound.2.2, rfl⟩
      · rintro ⟨-, st', ⟨rfl, rfl⟩, hnode, hseq, htype, rfl⟩
        simp [hnode, hseq, htype]

/-- The name of a type in its buffer. -/
def ackType : CharBuf 8 := ⟨⟨ascii "ACK", by decide⟩, by decide⟩

@[inherit_doc ackType] def nackType : CharBuf 8 := ⟨⟨ascii "NACK", by decide⟩, by decide⟩

theorem stable_ackType : Stable ackType.bytes := stable_of_not_mem (by decide) (by decide)

theorem stable_nackType : Stable nackType.bytes := stable_of_not_mem (by decide) (by decide)

section Decoders

variable {node : Bytes} {n : UInt32} {fs : List FrameKv}

theorem FieldReadable.of_texts (hstable : TextsStable node fs)
    (hfilled : ∀ f ∈ fs, f.key.bytes ≠ [] ∧ f.value.bytes ≠ []) :
    ∀ f ∈ fs, FieldReadable f := by
  intro f hf
  obtain ⟨hkey, hvalue⟩ := hstable.fields f hf
  exact ⟨(hfilled f hf).1, (hfilled f hf).2, hkey, hvalue⟩

/-- **An ACK line of stable texts** is read back, all of its object. -/
theorem messageJsonDecodeAck_ackLine {ack : FrameAck}
    (hstable : TextsStable ack.nodeId.bytes ack.fields.1)
    (hfilled : ∀ f ∈ ack.fields.1, f.key.bytes ≠ [] ∧ f.value.bytes ≠ []) (rest : Bytes) :
    messageJsonDecodeAck (ackLine ack rest) =
      (some ((ackLine ack rest).length - rest.length), ack) := by
  have hst : objectString (ascii "node") ack.nodeId.bytes JsonObject.zero =
      some { JsonObject.zero with nodeId := ack.nodeId, foundNode := true } :=
    objectString_node_eq_some_iff.mpr ⟨ack.nodeId, CharBuf.ofRaw?_bytes _, rfl⟩
  have hrun : ObjectRun objectMember (lineHead ack.nodeId.bytes ack.sequence (ascii "ACK")
      (fieldsTail ack.fields.1 rest)) JsonObject.zero rest _ :=
    (objectKv ackType stable_ackType).kv_run hstable.node (FieldReadable.of_texts hstable hfilled)
      hst ack.fields rfl
  exact messageJsonDecodeAck_eq_some_iff.mpr
    ⟨_, (parseWith_openBrace_eq_some_iff objectMember_consumes).mpr ⟨_, hrun, rfl⟩,
      rfl, rfl, rfl, rfl, rfl⟩

/-- **A DATA line of stable texts** is read back, all of its object. -/
theorem messageJsonDecodeData_dataLine {data : FrameData}
    (hstable : TextsStable data.nodeId.bytes data.fields.1)
    (hfilled : ∀ f ∈ data.fields.1, f.key.bytes ≠ [] ∧ f.value.bytes ≠ []) (rest : Bytes)
    (old : FrameData) :
    messageJsonDecodeData (dataLine data rest) old =
      (some ((dataLine data rest).length - rest.length), data) := by
  have hst : dataString (ascii "node") data.nodeId.bytes DataScan.zero =
      some { DataScan.zero with
        data := { DataScan.zero.data with nodeId := data.nodeId }, foundNode := true } :=
    dataString_node_eq_some_iff.mpr ⟨data.nodeId, CharBuf.ofRaw?_bytes _, rfl⟩
  have hrun : ObjectRun dataMember (lineHead data.nodeId.bytes data.sequence (ascii "DATA")
      (fieldsTail data.fields.1 rest)) DataScan.zero rest _ :=
    dataKv.kv_run hstable.node (FieldReadable.of_texts hstable hfilled) hst data.fields rfl
  exact messageJsonDecodeData_eq_some_iff.mpr
    ⟨List.cons_ne_nil _ _, _, (parseWith_openBrace_eq_some_iff dataMember_consumes).mpr
      ⟨_, hrun, rfl⟩, rfl, rfl, rfl, rfl⟩

/-- **A NACK line of stable texts** is read back, all of its object. -/
theorem messageJsonDecodeNack_nackLine {nack : FrameNack} (hnode : Stable nack.nodeId.bytes)
    (herror : Stable nack.error.bytes) (hne : nack.error.bytes ≠ []) (rest : Bytes) :
    messageJsonDecodeNack (nackLine nack rest) =
      (some ((nackLine nack rest).length - rest.length), nack) := by
  have hst : objectString (ascii "node") nack.nodeId.bytes JsonObject.zero =
      some { JsonObject.zero with nodeId := nack.nodeId, foundNode := true } :=
    objectString_node_eq_some_iff.mpr ⟨nack.nodeId, CharBuf.ofRaw?_bytes _, rfl⟩
  let obj : JsonObject := { JsonObject.zero with
    nodeId := nack.nodeId, foundNode := true, sequence := nack.sequence, foundSeq := true,
    typeValue := nackType, foundType := true, error := nack.error, foundError := true }
  have herrorvalue : objectString (ascii "error") nack.error.bytes
      { obj with error := default, foundError := false } = some obj := by
    rw [objectString, if_neg (by decide), if_neg (by decide), if_neg (by decide),
      if_neg (by decide), if_pos rfl, if_neg hne, CharBuf.ofRaw?_bytes]
    rfl
  have hmember : objectMember (ascii "error")
      (Ascii.quote :: (nack.error.bytes ++ Ascii.quote :: Ascii.closeBrace :: rest))
      { obj with error := default, foundError := false } =
        (some (Ascii.closeBrace :: rest), obj) := by
    rw [objectMember_string (by decide)]
    exact stringValue_written herror herrorvalue _
  have hrun : ObjectRun objectMember (lineHead nack.nodeId.bytes nack.sequence (ascii "NACK")
      (errorTail nack.error.bytes rest)) JsonObject.zero rest obj :=
    (objectHead nackType stable_nackType).head_run hnode hst
      (.written_last (stable_of_not_mem (by decide) (by decide)) (by decide) hmember)
  exact messageJsonDecodeNack_eq_some_iff.mpr
    ⟨obj, (parseWith_openBrace_eq_some_iff objectMember_consumes).mpr ⟨_, hrun, rfl⟩,
      rfl, rfl, rfl, rfl, rfl, rfl⟩

/-- **What an accepted ACK line has been read as**, if there are no commas in its
texts: the id is stable, id and sequence are as written, and the fields are those
of a run on the written ones. -/
theorem messageJsonDecodeAck_ackLine_eq_some {ack ack' : FrameAck}
    (hnode : Ascii.comma ∉ ack.nodeId.bytes)
    (hfs : ∀ f ∈ ack.fields.1, Ascii.comma ∉ f.key.bytes ∧ Ascii.comma ∉ f.value.bytes)
    {consumed : ℕ} (h : messageJsonDecodeAck (ackLine ack [Ascii.lf]) = (some consumed, ack')) :
    Stable ack.nodeId.bytes ∧ ack'.sequence = ack.sequence ∧ ∃ q, ObjectRun fieldMember
      (jsonFieldsText [] ack.fields.1 ++ [Ascii.closeBrace, Ascii.closeBrace, Ascii.lf]) default q
        ack'.fields := by
  obtain ⟨obj, hparse, -, hseq, -, -, rfl⟩ := messageJsonDecodeAck_eq_some_iff.mp h
  obtain ⟨rest, hrun, -⟩ := (parseWith_openBrace_eq_some_iff objectMember_consumes).mp hparse
  rcases (objectKv ackType stable_ackType).of_kv_run hnode hfs hrun with
    ⟨hstable, st₁, fields, q, hst, hfields, rfl⟩ | ⟨u, hu⟩
  · obtain ⟨nodeId, -, rfl⟩ := objectString_node_eq_some_iff.mp hst
    exact ⟨hstable, rfl, q, hfields⟩
  · -- closed inside the id: no sequence was found
    obtain ⟨nodeId, -, rfl⟩ := objectString_node_eq_some_iff.mp hu
    exact absurd hseq Bool.false_ne_true

/-- **What an accepted DATA line has been read as**, in the same way. -/
theorem messageJsonDecodeData_dataLine_eq_some {data data' old : FrameData}
    (hnode : Ascii.comma ∉ data.nodeId.bytes)
    (hfs : ∀ f ∈ data.fields.1, Ascii.comma ∉ f.key.bytes ∧ Ascii.comma ∉ f.value.bytes)
    {consumed : ℕ}
    (h : messageJsonDecodeData (dataLine data [Ascii.lf]) old = (some consumed, data')) :
    Stable data.nodeId.bytes ∧ data'.sequence = data.sequence ∧ ∃ q, ObjectRun fieldMember
      (jsonFieldsText [] data.fields.1 ++ [Ascii.closeBrace, Ascii.closeBrace, Ascii.lf]) default q
        data'.fields := by
  obtain ⟨-, st, hparse, -, hseq, -, rfl⟩ := messageJsonDecodeData_eq_some_iff.mp h
  obtain ⟨rest, hrun, -⟩ := (parseWith_openBrace_eq_some_iff dataMember_consumes).mp hparse
  rcases dataKv.of_kv_run hnode hfs hrun with ⟨hstable, st₁, fields, q, hst, hfields, rfl⟩ | ⟨u, hu⟩
  · obtain ⟨nodeId, -, rfl⟩ := dataString_node_eq_some_iff.mp hst
    exact ⟨hstable, rfl, q, hfields⟩
  · obtain ⟨nodeId, -, rfl⟩ := dataString_node_eq_some_iff.mp hu
    exact absurd hseq Bool.false_ne_true

/-- **What an accepted NACK line has been read as**: id and sequence as written,
and of the error what a scan of it gives. -/
theorem messageJsonDecodeNack_nackLine_eq_some {nack nack' : FrameNack}
    (hnode : Ascii.comma ∉ nack.nodeId.bytes) (herror : Ascii.comma ∉ nack.error.bytes)
    {consumed : ℕ}
    (h : messageJsonDecodeNack (nackLine nack [Ascii.lf]) = (some consumed, nack')) :
    Stable nack.nodeId.bytes ∧ nack'.sequence = nack.sequence ∧ ∃ u q,
      scanString (nack.error.bytes ++ [Ascii.quote, Ascii.closeBrace, Ascii.lf]) = some (u, q) ∧
        CharBuf.ofRaw? 32 u = some nack'.error := by
  obtain ⟨obj, hparse, -, hseq, -, -, -, rfl⟩ := messageJsonDecodeNack_eq_some_iff.mp h
  obtain ⟨rest, hrun, -⟩ := (parseWith_openBrace_eq_some_iff objectMember_consumes).mp hparse
  rcases (objectHead nackType stable_nackType).of_head_run hnode hrun with
    ⟨hstable, st₁, hst, hrun⟩ | ⟨u, hu⟩
  swap
  · obtain ⟨nodeId, -, rfl⟩ := objectString_node_eq_some_iff.mp hu
    exact absurd hseq Bool.false_ne_true
  obtain ⟨nodeId, -, rfl⟩ := objectString_node_eq_some_iff.mp hst
  have hkey : ascii "error" ≠ ascii "fields" := by decide
  obtain ⟨u, q, hscan, hu⟩ := hrun.of_written_string_last
    (stable_of_not_mem (by decide) (by decide)) herror
    (objectMember_string hkey · _) (by decide) (by decide) (by decide)
  rw [objectString, if_neg (by decide), if_neg (by decide), if_neg (by decide),
    if_neg (by decide), if_pos rfl] at hu
  split_ifs at hu
  obtain ⟨text, htext, rfl⟩ := Option.map_eq_some_iff.mp hu
  exact ⟨hstable, rfl, u, q, hscan, htext⟩

/-- **DATA lines with frame texts come back exactly if the texts are stable.** -/
theorem messageJsonDecodeData_dataLine_iff {data : FrameData}
    (htexts : FrameTexts data.nodeId.bytes data.fields.1) (old : FrameData) :
    messageJsonDecodeData (dataLine data [Ascii.lf]) old =
      (some ((dataLine data [Ascii.lf]).length - 1), data) ↔
        TextsStable data.nodeId.bytes data.fields.1 := by
  constructor
  · intro h
    obtain ⟨hnode, -, q, hrun⟩ := messageJsonDecodeData_dataLine_eq_some htexts.node htexts.fields h
    exact ⟨hnode, stable_of_fieldsRun hrun rfl⟩
  · exact fun h => messageJsonDecodeData_dataLine h htexts.filled [Ascii.lf] old

/-- **ACK lines with frame texts come back exactly if the texts are stable.** -/
theorem messageJsonDecodeAck_ackLine_iff {ack : FrameAck}
    (htexts : FrameTexts ack.nodeId.bytes ack.fields.1) :
    messageJsonDecodeAck (ackLine ack [Ascii.lf]) =
      (some ((ackLine ack [Ascii.lf]).length - 1), ack) ↔
        TextsStable ack.nodeId.bytes ack.fields.1 := by
  constructor
  · intro h
    obtain ⟨hnode, -, q, hrun⟩ := messageJsonDecodeAck_ackLine_eq_some htexts.node htexts.fields h
    exact ⟨hnode, stable_of_fieldsRun hrun rfl⟩
  · exact fun h => messageJsonDecodeAck_ackLine h htexts.filled [Ascii.lf]

/-- **NACK lines with frame texts come back exactly if the texts are stable.** -/
theorem messageJsonDecodeNack_nackLine_iff {nack : FrameNack}
    (hnode : Ascii.comma ∉ nack.nodeId.bytes) (herror : Ascii.comma ∉ nack.error.bytes)
    (hne : nack.error.bytes ≠ []) :
    messageJsonDecodeNack (nackLine nack [Ascii.lf]) =
      (some ((nackLine nack [Ascii.lf]).length - 1), nack) ↔
        Stable nack.nodeId.bytes ∧ Stable nack.error.bytes := by
  constructor
  · intro h
    obtain ⟨hstable, -, u, q, hscan, hstored⟩ :=
      messageJsonDecodeNack_nackLine_eq_some hnode herror h
    exact ⟨hstable, (scanString_charBuf hscan hstored).1⟩
  · exact fun h => messageJsonDecodeNack_nackLine h.1 h.2 hne [Ascii.lf]

end Decoders

end SmartGateway
