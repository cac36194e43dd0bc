import SmartGateway.Common.JsonSafety

/-!
# What a failed JSON decode leaves behind

The decoders zero their struct before anything else, so that it is clean where they fail. Three
of them parse into a struct of their own and fill the caller's only behind the last check.
`message_json_decode_data` fills it while it reads: what it has stored before it gives up stays.
-/

namespace SmartGateway

open Cursor ObjectCursor ObjectScan TextArray Numeral

/-! ## What stores a field -/

/-- The first entry of a `fields` object: its key, and the text from its value on. -/
def firstEntry : Bytes → Option (Bytes × Bytes)
  | [] => none
  | b :: p =>
    if b ≠ Ascii.openBrace then
      none
    else
      match skipWhitespace p with
      | [] => none
      | c :: k => if c ≠ Ascii.quote then none else scanMember k

/-- A `fields` object whose first entry is one that `kv_array_add` takes. -/
def StoresEntry (p : Bytes) : Prop :=
  ∃ key value text rest, firstEntry p = some (key, value) ∧
    scanFieldValue value = some (text, rest) ∧ kvArrayAdd default key text ≠ none

/-- A member that stores a field: a `fields` object with such an entry, or a `temperature` or a
`humidity` with a number. -/
def StoresField (member : Bytes × Bytes) : Prop :=
  (member.1 = ascii "fields" ∧ StoresEntry member.2) ∨
    ((member.1 = ascii "temperature" ∨ member.1 = ascii "humidity") ∧
      member.2.head? ≠ some Ascii.quote ∧ jsonParseX10 member.2 ≠ none)

theorem eq_default_of_nil {fields : FrameFields} (h : fields.1 = []) : fields = default :=
  Subtype.ext h

/-- A member of a `fields` object that is refused leaves the array; one that is read makes it
longer. -/
theorem dataFieldMember_cases (key p : Bytes) (fields : FrameFields) :
    dataFieldMember key p fields = (none, fields) ∨
      ∃ rest fields', dataFieldMember key p fields = (some rest, fields') ∧ fields'.1 ≠ [] := by
  rw [dataFieldMember]
  split
  · exact .inl rfl
  rw [fieldMember]
  cases scanFieldValue p with
  | none => exact .inl rfl
  | some r =>
    dsimp only
    cases hadd : kvArrayAdd fields key r.1 with
    | none => exact .inl rfl
    | some fields' =>
      refine .inr ⟨r.2, fields', rfl, ?_⟩
      obtain ⟨-, -, -, f, -, -, happend⟩ := kvArrayAdd_eq_some hadd
      rw [happend]
      exact List.append_ne_nil_of_right_ne_nil _ (List.cons_ne_nil _ _)

theorem dataFieldMember_ne_nil (key p : Bytes) (fields : FrameFields) (h : fields.1 ≠ []) :
    (dataFieldMember key p fields).2.1 ≠ [] := by
  rcases dataFieldMember_cases key p fields with hnone | ⟨rest, fields', hsome, hne⟩
  · rw [hnone]
    exact h
  · rw [hsome]
    exact hne

theorem scanFields_ne_nil (p : Bytes) (fields : FrameFields) (h : fields.1 ≠ []) :
    (scanFields dataFieldMember p fields).2.1 ≠ [] := by
  rw [scanFields.eq_def]
  cases p with
  | nil => exact h
  | cons b p =>
    dsimp only
    split
    · exact h
    · exact objectLoop_keeps (I := fun fields : FrameFields => fields.1 ≠ [])
        dataFieldMember_ne_nil _ p h

/-- **A `fields` value stores something** exactly if its first entry is taken, whatever becomes of
the rest of it. -/
theorem scanFields_ne_nil_iff (p : Bytes) :
    (scanFields dataFieldMember p default).2.1 ≠ [] ↔ StoresEntry p := by
  have hempty : ∀ {q : Bytes}, firstEntry q = none →
      ((default : FrameFields).1 ≠ [] ↔ StoresEntry q) := by
    intro q hfirst
    refine iff_of_false (fun h => h rfl) ?_
    rintro ⟨key, value, text, rest, hsome, -⟩
    rw [hfirst] at hsome
    exact absurd hsome (by simp)
  rw [scanFields.eq_def]
  -- up to the first entry, whatever ends the scan has stored nothing
  cases p with
  | nil => exact hempty rfl
  | cons b p =>
    dsimp only
    by_cases hopen : b ≠ Ascii.openBrace
    · rw [if_pos hopen]
      exact hempty (if_pos hopen)
    rw [if_neg hopen, scanObject, objectLoop]
    have hfirst : firstEntry (b :: p) = match skipWhitespace p with
        | [] => none
        | c :: k => if c ≠ Ascii.quote then none else scanMember k := if_neg hopen
    cases hskip : skipWhitespace p with
    | nil =>
      rw [hskip] at hfirst
      exact hempty hfirst
    | cons c k =>
      rw [hskip] at hfirst
      dsimp only at hfirst ⊢
      by_cases hclose : c = Ascii.closeBrace
      · rw [if_pos hclose]
        rw [if_pos (by rw [hclose]; decide)] at hfirst
        exact hempty hfirst
      rw [if_neg hclose]
      by_cases hquote : c ≠ Ascii.quote
      · rw [if_pos hquote]
        rw [if_pos hquote] at hfirst
        exact hempty hfirst
      rw [if_neg hquote]
      rw [if_neg hquote] at hfirst
      cases hmember : scanMember k with
      | none =>
        rw [hmember] at hfirst
        exact hempty hfirst
      | some member =>
        obtain ⟨key, value⟩ := member
        rw [hmember] at hfirst
        dsimp only
        rcases dataFieldMember_cases key value default with hnone | ⟨rest, fields, hsome, hne⟩
        · rw [hnone]
          refine iff_of_false (fun h => h rfl) ?_
          rintro ⟨key', value', text, rest, hfirst', hscan, hadd⟩
          rw [hfirst, Option.some.injEq, Prod.mk.injEq] at hfirst'
          obtain ⟨rfl, rfl⟩ := hfirst'
          obtain ⟨fields, hfields⟩ := Option.ne_none_iff_exists'.mp hadd
          rw [dataFieldMember_eq_some_iff.mpr (fieldMember_eq_some_iff.mpr
            ⟨text, hscan, hfields⟩)] at hnone
          exact absurd (Prod.mk.inj hnone).1 (by simp)
        · rw [hsome]
          dsimp only
          refine iff_of_true ?_ ?_
          · -- what follows the entry takes nothing away
            have hkeeps := fun fuel q => objectLoop_keeps
              (I := fun fields : FrameFields => fields.1 ≠ []) dataFieldMember_ne_nil fuel q hne
            cases skipWhitespace rest with
            | nil => exact hne
            | cons d q =>
              dsimp only
              split
              · exact hkeeps p.length q
              split
              · exact hne
              · exact hne
          · obtain ⟨text, hscan, hadd⟩ :=
              fieldMember_eq_some_iff.mp (dataFieldMember_eq_some_iff.mp hsome)
            exact ⟨key, value, text, rest, hfirst, hscan, by rw [hadd]; simp⟩

/-- A string leaves the fields. -/
theorem stringValue_dataString_fields (key p : Bytes) (st : DataScan) :
    (stringValue (dataString key) p st).2.data.fields = st.data.fields := by
  rw [stringValue]
  cases scanString p with
  | none => rfl
  | some r =>
    dsimp only
    cases hstring : dataString key r.1 st with
    | none => rfl
    | some st' =>
      rw [dataString] at hstring
      split at hstring
      · obtain ⟨nodeId, -, rfl⟩ := Option.map_eq_some_iff.mp hstring
        rfl
      split at hstring
      · split at hstring
        · rw [← Option.some.inj hstring]
        · exact absurd hstring (by simp)
      · rw [← Option.some.inj hstring]

theorem dataSeq_fields (p : Bytes) (st : DataScan) :
    (dataSeq p st).2.data.fields = st.data.fields := by
  rw [dataSeq]
  split
  · rfl
  · cases digitLoop uint32Overflow 0 p with
    | none => rfl
    | some r => rfl

/-- The first value of a `temperature` or a `humidity` always finds room. -/
theorem kvArrayAdd_x10 (key : Bytes) (x10 : BitVec 32) :
    ∃ fields, kvArrayAdd default (if key = ascii "temperature" then ascii "T" else ascii "H")
      (decimalInt x10) = some fields := by
  have hname : ∀ name : Bytes, name = ascii "T" ∨ name = ascii "H" →
      name ≠ [] ∧ name.length < frameKvKeyMax := by
    rintro name (rfl | rfl)
    · exact ⟨by decide, by decide⟩
    · exact ⟨by decide, by decide⟩
  generalize hif : (if key = ascii "temperature" then ascii "T" else ascii "H") = name
  obtain ⟨hne, hshort⟩ := hname name (by rw [← hif]; split <;> simp)
  have hvalue : decimalInt x10 ≠ [] := by
    rw [decimalInt]
    split
    · exact List.cons_ne_nil _ _
    · obtain ⟨b, ds, hdecimal, -⟩ := exists_decimal_eq_cons x10.toInt.toNat
      rw [hdecimal]
      exact List.cons_ne_nil _ _
  rw [kvArrayAdd, if_neg (not_or.mpr ⟨hne, hvalue⟩), CharBuf.ofRaw?, dif_pos hshort,
    CharBuf.ofRaw?, dif_pos (length_decimalInt x10)]
  exact ⟨_, dif_pos (by decide)⟩

/-- **A member adds a field** to none exactly if it stores one. -/
theorem dataMember_ne_nil_iff (key p : Bytes) {st : DataScan} (h : st.data.fields.1 = []) :
    (dataMember key p st).2.data.fields.1 ≠ [] ↔ StoresField (key, p) := by
  have hnothing : ¬ StoresField (key, p) →
      (st.data.fields.1 ≠ [] ↔ StoresField (key, p)) := fun hno =>
    iff_of_false (fun hne => hne h) hno
  rw [dataMember.eq_def]
  by_cases hfields : key = ascii "fields"
  · rw [if_pos hfields, eq_default_of_nil h]
    refine (scanFields_ne_nil_iff p).trans ⟨fun hstores => .inl ⟨hfields, hstores⟩, ?_⟩
    rintro (⟨-, hstores⟩ | ⟨hkey, -⟩)
    · exact hstores
    · rw [hfields] at hkey
      change ascii "fields" = ascii "temperature" ∨ ascii "fields" = ascii "humidity" at hkey
      exact absurd hkey (by decide)
  rw [if_neg hfields]
  -- any other member leaves the fields alone
  have hother : (key ≠ ascii "temperature" ∧ key ≠ ascii "humidity" ∨
      p.head? = some Ascii.quote ∨ jsonParseX10 p = none) → ¬ StoresField (key, p) := by
    rintro hno (⟨hkey, -⟩ | ⟨hkey, hhead, hparse⟩)
    · exact hfields hkey
    · rcases hno with ⟨htemp, hhumi⟩ | hquote | hnone
      · exact hkey.elim htemp hhumi
      · exact hhead hquote
      · exact hparse hnone
  cases p with
  | nil => exact hnothing (hother (.inr (.inr rfl)))
  | cons b rest =>
    dsimp only
    by_cases hquote : b = Ascii.quote
    · rw [if_pos hquote]
      have hstring : (stringValue (dataString key) rest st).2.data.fields = st.data.fields :=
        stringValue_dataString_fields key rest st
      rw [hstring]
      exact hnothing (hother (.inr (.inl (by rw [hquote]; rfl))))
    rw [if_neg hquote]
    by_cases hx10 : key = ascii "temperature" ∨ key = ascii "humidity"
    · rw [if_pos hx10, dataX10]
      cases hparse : jsonParseX10 (b :: rest) with
      | none => exact hnothing (hother (.inr (.inr hparse)))
      | some r =>
        have hstores : StoresField (key, b :: rest) :=
          .inr ⟨hx10, by simpa using hquote, by rw [hparse]; simp⟩
        refine iff_of_true ?_ hstores
        obtain ⟨fields, hadd⟩ := kvArrayAdd_x10 key r.1
        dsimp only
        rw [eq_default_of_nil h, hadd]
        obtain ⟨-, -, -, f, -, -, happend⟩ := kvArrayAdd_eq_some hadd
        dsimp only
        rw [happend]
        exact List.append_ne_nil_of_right_ne_nil _ (List.cons_ne_nil _ _)
    rw [if_neg hx10]
    rw [not_or] at hx10
    have hno := hnothing (hother (.inl hx10))
    by_cases hseq : key = ascii "seq"
    · rw [if_pos hseq, dataSeq_fields]
      exact hno
    · rw [if_neg hseq]
      exact hno

/-- And takes none away. -/
theorem dataMember_ne_nil (key p : Bytes) {st : DataScan} (h : st.data.fields.1 ≠ []) :
    (dataMember key p st).2.data.fields.1 ≠ [] := by
  rw [dataMember.eq_def]
  by_cases hfields : key = ascii "fields"
  · rw [if_pos hfields]
    exact scanFields_ne_nil p st.data.fields h
  rw [if_neg hfields]
  cases p with
  | nil => exact h
  | cons b rest =>
    dsimp only
    split
    · rw [stringValue_dataString_fields]
      exact h
    -- a reading in tenths adds a field or leaves them
    split
    · rw [dataX10]
      cases jsonParseX10 (b :: rest) with
      | none => exact h
      | some r =>
        dsimp only
        split
        · exact h
        · rename_i fields hadd
          obtain ⟨-, -, -, f, -, -, happend⟩ := kvArrayAdd_eq_some hadd
          dsimp only
          rw [happend]
          exact List.append_ne_nil_of_right_ne_nil _ (List.cons_ne_nil _ _)
    split
    · rw [dataSeq_fields]
      exact h
    · exact h

/-- There are fields exactly if a member of the list has stored one. -/
def FieldsListed (t : DataScan × List (Bytes × Bytes)) : Prop :=
  t.1.data.fields.1 = [] ↔ ∀ member ∈ t.2, ¬ StoresField member

theorem fieldsListed_step (key p : Bytes) (t : DataScan × List (Bytes × Bytes))
    (h : FieldsListed t) : FieldsListed (traced dataMember key p t).2 := by
  obtain ⟨st, ms⟩ := t
  change (dataMember key p st).2.data.fields.1 = [] ↔
    ∀ member ∈ ms ++ [(key, p)], ¬ StoresField member
  rw [List.forall_mem_append, List.forall_mem_singleton]
  by_cases hempty : st.data.fields.1 = []
  · have hiff := dataMember_ne_nil_iff key p hempty
    rw [← not_iff_not, not_not] at hiff
    rw [hiff]
    exact (and_iff_right (h.mp hempty)).symm
  · exact iff_of_false (dataMember_ne_nil key p hempty) fun hnone => hempty (h.mpr hnone.1)

/-- **Over a whole line** there are no fields exactly if no member has stored one. -/
theorem dataMembers_fields_iff (line : Bytes) :
    (parseWith dataMember line DataScan.zero).2.data.fields.1 = [] ↔
      ∀ member ∈ dataMembers line, ¬ StoresField member := by
  rw [← (parseWith_traced dataMember line DataScan.zero []).2, dataMembers]
  change FieldsListed (parseWith (traced dataMember) line (DataScan.zero, [])).2
  have hstart : FieldsListed (DataScan.zero, []) := iff_of_true rfl (List.forall_mem_nil _)
  rw [parseWith]
  cases skipWhitespace line with
  | nil => exact hstart
  | cons b p =>
    dsimp only
    by_cases hopen : b ≠ Ascii.openBrace
    · rw [if_pos hopen]
      exact hstart
    rw [if_neg hopen, scanObject]
    have hloop := objectLoop_keeps fieldsListed_step (p.length + 1) p hstart
    generalize objectLoop (traced dataMember) (p.length + 1) p (DataScan.zero, []) = r at hloop ⊢
    obtain ⟨o, t⟩ := r
    cases o with
    | none => exact hloop
    | some rest => exact hloop

/-! ## What is left -/

/-- The members that a line is read up to leave nothing: none stores a field, and the node texts,
each with its terminator over the one before, leave nothing but zeros. -/
def LeavesNothing (line : Bytes) : Prop :=
  (∀ member ∈ dataMembers line, ¬ StoresField member) ∧
    nodeArray (dataMembers line) = TextArray.zero 32

/-- A line with an object, read to its closing brace, that has a node id, a sequence and the
type. -/
def IsDataLine (line : Bytes) : Prop :=
  ∃ p rest st, skipWhitespace line = Ascii.openBrace :: p ∧
    ObjectRun dataMember p DataScan.zero rest st ∧ st.foundNode ∧ st.foundSeq ∧ st.foundType

/-- No fields, no bytes of any: the array is as zeroed. -/
theorem FieldsRead.eq_zero_iff {a : KvArray} {fs : FrameFields} (h : FieldsRead a fs) :
    (a.fields = FieldsMemory.zero ∧ a.fieldCount = 0) ↔ fs.1 = [] := by
  rw [h.count, List.length_eq_zero_iff]
  refine ⟨fun hzero => hzero.2, fun hnil => ⟨Vector.ext fun i hi => ?_, hnil⟩⟩
  have hslot := h.zero i a.fields[i] (by rw [hnil]; exact Nat.zero_le i)
    (Vector.getElem?_eq_getElem hi)
  rw [hslot, FieldsMemory.zero, Vector.getElem_replicate]

/-- **The struct is all zero** while it is filled exactly if nothing has been left in it. -/
theorem DataReads.eq_zero_iff {members : List (Bytes × Bytes)} {s : DataScanMemory}
    {st : DataScan} (h : DataReads members s st) :
    s.data = .zero ↔ st.data.fields.1 = [] ∧ nodeArray members = TextArray.zero 32 := by
  rw [← h.fields.eq_zero_iff, ← h.id]
  have hsequence := h.unsequenced
  change s.data = .zero ↔ (s.data.fields = FieldsMemory.zero ∧ s.data.fieldCount = 0) ∧
    s.data.id = TextArray.zero 32
  generalize s.data = data at hsequence ⊢
  obtain ⟨id, sequence, fields, fieldCount⟩ := data
  rw [KvMemory.zero, KvMemory.mk.injEq]
  constructor
  · rintro ⟨hid, -, hfields, hcount⟩
    exact ⟨⟨hfields, hcount⟩, hid⟩
  · rintro ⟨⟨hfields, hcount⟩, hid⟩
    exact ⟨hid, hsequence, hfields, hcount⟩

/-- The decoder takes the data lines. -/
theorem messageJsonDecodeData_ne_none_iff {line : Bytes} (hline : line ≠ []) (old : FrameData) :
    (messageJsonDecodeData line old).1 ≠ none ↔ IsDataLine line := by
  rw [messageJsonDecodeData, if_neg hline]
  constructor
  · intro h
    cases hparse : parseWith dataMember line DataScan.zero with
    | mk o st =>
      rw [hparse] at h
      cases o with
      | none => exact absurd rfl h
      | some consumed =>
        obtain ⟨p, rest, hskip, hrun, -⟩ := (parseWith_eq_some_iff dataMember_consumes).mp hparse
        by_cases hmissing : !st.foundNode ∨ !st.foundSeq ∨ !st.foundType
        · exact absurd (congrArg Prod.fst (if_pos hmissing)) h
        · simp only [not_or, Bool.not_eq_true', Bool.not_eq_false] at hmissing
          exact ⟨p, rest, st, hskip, hrun, hmissing⟩
  · rintro ⟨p, rest, st, hskip, hrun, hnode, hseq, htype⟩
    have hparse := (parseWith_eq_some_iff dataMember_consumes).mpr
      ⟨p, rest, hskip, hrun, rfl⟩
    rw [hparse]
    dsimp only
    rw [hnode, hseq, htype, if_neg (by simp)]
    exact Option.some_ne_none _

/-- A call leaves one struct. -/
theorem eq_of_refused {σ α : Type} {r : EStateM.Result Stop σ α} {left left' : σ}
    (h : r = .error .refused left) (h' : r = .error .refused left') : left' = left :=
  (EStateM.Result.error.inj (h'.symm.trans h)).2

/-- **A failed JSON decode leaves a clean struct** in the command, the ACK and the NACK decoder,
whatever the struct held; in `message_json_decode_data` exactly on the lines that it takes or
that leave nothing. -/
theorem failedJsonDecode_zero_iff (turns : ℕ) (line : Bytes) (hturns : line.length < turns)
    (hline : line ≠ []) (obj : JsonObjectMemory) (command : CommandMemory) (ack : KvMemory)
    (nack : NackMemory) (data : KvMemory) :
    (∀ left, messageJsonDecodeCommandAt turns line obj command = .error .refused left →
        left = .zero) ∧
      (∀ left, messageJsonDecodeAckAt turns line obj ack = .error .refused left →
        left = .zero) ∧
      (∀ left, messageJsonDecodeNackAt turns line obj nack = .error .refused left →
        left = .zero) ∧
      ((∀ left, messageJsonDecodeDataAt turns line data = .error .refused left →
        left = .zero) ↔ IsDataLine line ∨ LeavesNothing line) := by
  refine ⟨fun left hleft => ?_, fun left hleft => ?_, fun left hleft => ?_, ?_⟩
  · rcases messageJsonDecodeCommandAt_follows hturns hline obj command with
      ⟨consumed, m, message, -, hread, -⟩ | ⟨-, hread⟩
    · exact absurd (hread.symm.trans hleft) (by simp)
    · exact eq_of_refused hread hleft
  · rcases messageJsonDecodeAckAt_follows hturns hline obj ack with
      ⟨consumed, m, message, -, hread, -⟩ | ⟨-, hread⟩
    · exact absurd (hread.symm.trans hleft) (by simp)
    · exact eq_of_refused hread hleft
  · rcases messageJsonDecodeNackAt_follows hturns hline obj nack with
      ⟨consumed, m, message, -, hread, -⟩ | ⟨-, hread⟩
    · exact absurd (hread.symm.trans hleft) (by simp)
    · exact eq_of_refused hread hleft
  -- the DATA decoder writes into the struct of the caller as it goes
  have htaken := messageJsonDecodeData_ne_none_iff hline default
  rcases messageJsonDecodeDataAt_follows hturns hline data default with
    ⟨consumed, m, message, hdecode, hread, -⟩ | ⟨s, hdecode, hread, hR⟩
  · rw [hdecode] at htaken
    refine iff_of_true (fun left hleft => ?_) (.inl (htaken.mp (Option.some_ne_none _)))
    rw [hread] at hleft
    exact absurd hleft (by simp)
  · rw [hdecode] at htaken
    have hrefused : ¬ IsDataLine line := fun h => htaken.mpr h rfl
    rw [or_iff_right hrefused, LeavesNothing, ← dataMembers_fields_iff, ← hR.eq_zero_iff, hread]
    constructor
    · exact fun h => h s.data rfl
    · intro hzero left hleft
      exact (eq_of_refused rfl hleft).trans hzero

/-- A line that breaks off behind its one member. -/
theorem failedJsonDecode_zero_iff_brokenOff :
    (∀ left, messageJsonDecodeDataAt 8 (ascii "\x7b\"x\":1,") .zero = .error .refused left →
        left = .zero) ↔
      IsDataLine (ascii "\x7b\"x\":1,") ∨ LeavesNothing (ascii "\x7b\"x\":1,") :=
  (failedJsonDecode_zero_iff 8 (ascii "\x7b\"x\":1,") (by decide) (by decide) .zero .zero .zero
    .zero .zero).2.2.2

/-- A line without a type, whose node id stays: no member stores a field, but the array is not
as zeroed. -/
theorem not_failedJsonDecode_zero :
    messageJsonDecodeDataAt 22 (ascii "\x7b\"node\":\"N1\",\"seq\":1\x7d") .zero =
        .error .refused { KvMemory.zero with id := padded 32 (ascii "N1") } ∧
      { KvMemory.zero with id := padded 32 (ascii "N1") } ≠ KvMemory.zero := by
  decide +kernel

end SmartGateway
