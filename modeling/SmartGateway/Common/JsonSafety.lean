import SmartGateway.Common.JsonRefinement
import SmartGateway.Lib.ObjectLockstep

/-!
# The JSON scanners are safe

The data decoder by index against the one by rest, with a list of the members it comes to
beside the state: which node texts have been stored, one over the other, is not to be seen in
the text that the array reads as. With that, both scanners stop on every line, read and write
inside their arrays, and consume no more than there is.
-/

namespace SmartGateway

open Cursor ObjectCursor ObjectScan TextArray Numeral

variable {line rest : Bytes} {p turns : ℕ}

/-! ## What the node array holds -/

/-- The text that a member stores in the node array, if it stores one. -/
def nodeText (member : Bytes × Bytes) : Option Bytes :=
  match member.2 with
  | [] => none
  | b :: rest =>
    if member.1 = ascii "node" ∧ b = Ascii.quote then
      ((scanString rest).map Prod.fst).filter fun text => decide (text.length < 32)
    else
      none

/-- The node array after these members: each text with its terminator over the one before. -/
def nodeArray (members : List (Bytes × Bytes)) : Vector Byte 32 :=
  (members.filterMap nodeText).foldl store (TextArray.zero 32)

theorem nodeArray_concat_none {members : List (Bytes × Bytes)} {member : Bytes × Bytes}
    (h : nodeText member = none) : nodeArray (members ++ [member]) = nodeArray members := by
  rw [nodeArray, List.filterMap_append, List.filterMap_cons, h, List.filterMap_nil,
    List.append_nil, nodeArray]

theorem nodeArray_concat_some {members : List (Bytes × Bytes)} {member : Bytes × Bytes}
    {text : Bytes} (h : nodeText member = some text) :
    nodeArray (members ++ [member]) = store (nodeArray members) text := by
  rw [nodeArray, List.filterMap_append, List.filterMap_cons, h, List.filterMap_nil,
    List.foldl_append, List.foldl_cons, List.foldl_nil, nodeArray]

theorem nodeText_of_ne {key p : Bytes} (h : key ≠ ascii "node") : nodeText (key, p) = none := by
  rw [nodeText]
  cases p with
  | nil => rfl
  | cons b rest => exact if_neg fun hnode => h hnode.1

theorem nodeText_of_not_quote (key : Bytes) {b : Byte} (h : b ≠ Ascii.quote) (rest : Bytes) :
    nodeText (key, b :: rest) = none :=
  if_neg fun hnode => h hnode.2

/-! ## `message_json_decode_data` -/

/-- The struct being filled reads as the scan's, and its node array is what the members of the
list have made of it. -/
structure DataReads (members : List (Bytes × Bytes)) (s : DataScanMemory) (st : DataScan) :
    Prop where
  nodeId : ReadsAs s.data.id st.data.nodeId
  id : s.data.id = nodeArray members
  unsequenced : s.data.sequence = 0
  fields : FieldsRead s.kvArray st.data.fields
  foundNode : s.foundNode = st.foundNode
  foundSeq : s.foundSeq = st.foundSeq
  foundType : s.foundType = st.foundType
  sequence : s.sequence = st.sequence

theorem dataReads_start : DataReads [] .start .zero where
  nodeId := readsAs_zero rfl
  id := rfl
  unsequenced := rfl
  fields := kvArray_zero_reads
  foundNode := rfl
  foundSeq := rfl
  foundType := rfl
  sequence := rfl

variable {members : List (Bytes × Bytes)} {s : DataScanMemory} {st : DataScan}

/-- One more member, which stores no node text. -/
theorem DataReads.listed (hR : DataReads members s st) {member : Bytes × Bytes}
    (h : nodeText member = none) : DataReads (members ++ [member]) s st :=
  { hR with id := hR.id.trans (nodeArray_concat_none h).symm }

/-- **A string value under its key.** -/
theorem dataStringAt_updates (hR : DataReads members s st) (key : Bytes) {text : Bytes}
    {start : ℕ} (htext : TextAt line start text) {p : Bytes}
    (hscan : scanString p = some (text, rest)) :
    (dataString key text st = none ∧
        dataStringAt line (decide (key = ascii "node")) (decide (key = ascii "type")) start
          text.length s = .error .refused s ∧
        DataReads (members ++ [(key, Ascii.quote :: p)]) s st) ∨
      ∃ s' st', dataString key text st = some st' ∧
        dataStringAt line (decide (key = ascii "node")) (decide (key = ascii "type")) start
          text.length s = .ok () s' ∧
        DataReads (members ++ [(key, Ascii.quote :: p)]) s' st' := by
  have hget : (get : Checked DataScanMemory DataScanMemory) s = .ok s s := rfl
  rw [dataStringAt, bind_ok hget, dataString]
  simp only [decide_eq_true_eq]
  by_cases hnode : key = ascii "node"
  · rw [if_pos hnode, if_pos hnode]
    have hnodeText : nodeText (key, Ascii.quote :: p) =
        if text.length < 32 then some text else none := by
      rw [nodeText]
      dsimp only
      rw [if_pos ⟨hnode, rfl⟩, hscan, Option.map_some, Option.filter_some]
      simp only [decide_eq_true_eq]
    rcases copyValue_at (s := s) s.data.id htext with
      ⟨hnone, hcopy⟩ | ⟨b, hsome, hcopy, hreads⟩
    · have hlong : ¬ text.length < 32 := by
        intro hlt
        rw [CharBuf.ofRaw?, dif_pos hlt] at hnone
        exact absurd hnone (by simp)
      -- too long for the array: nothing is written
      rw [if_neg hlong] at hnodeText
      rw [hnone, bind_error hcopy]
      exact .inl ⟨rfl, rfl, hR.listed hnodeText⟩
    · have hshort : text.length < 32 := by
        by_contra hlong
        rw [CharBuf.ofRaw?, dif_neg hlong] at hsome
        exact absurd hsome (by simp)
      rw [if_pos hshort] at hnodeText
      rw [hsome, bind_ok hcopy]
      -- the array now holds the last `node` that fits
      have hid : store s.data.id text = nodeArray (members ++ [(key, Ascii.quote :: p)]) := by
        rw [nodeArray_concat_some hnodeText, hR.id]
      exact .inr ⟨_, _, rfl, rfl, { hR with nodeId := hreads, id := hid, foundNode := rfl }⟩
  rw [if_neg hnode, if_neg hnode]
  have hR' := hR.listed (nodeText_of_ne (p := Ascii.quote :: p) hnode)
  by_cases htype : key = ascii "type"
  · rw [if_pos htype, if_pos htype, bind_ok (textIs_at htext)]
    by_cases hdata : text = ascii "DATA"
    · rw [if_pos hdata, decide_eq_true hdata]
      exact .inr ⟨_, _, rfl, rfl, { hR' with foundType := rfl }⟩
    · rw [if_neg hdata, decide_eq_false hdata]
      exact .inl ⟨rfl, rfl, hR'⟩
  · rw [if_neg htype, if_neg htype]
    exact .inr ⟨_, _, rfl, rfl, hR'⟩

/-- A text at the start of an array. -/
theorem textAt_padded {n : ℕ} {text : Bytes} (h : text.length < n) :
    TextAt (padded n text).toList 0 text := by
  refine ⟨?_, ?_⟩
  · rw [List.drop_zero, padded, toList_store _ h, List.take_left]
  · rw [Vector.length_toList]
    omega

/-- The value of a `temperature` or a `humidity`. -/
theorem dataX10At_follows (hturns : line.length < turns) {b : Byte} (hat : At line p (b :: rest))
    (hR : DataReads members s st) {key : Bytes} :
    Follows (DataReads members) line
      (dataX10At line turns (decide (key = ascii "temperature")) p s)
      (dataX10 key (b :: rest) st) := by
  rw [dataX10At, dataX10]
  rcases jsonParseX10At_at (s := s) hturns hat with
    ⟨hnone, hread⟩ | ⟨x10, rest', q, hparse, hread, hq⟩
  · rw [hnone, bind_error hread]
    exact .refused hR
  rw [hparse, bind_ok hread]
  dsimp only
  have hshort := length_decimalInt x10
  rw [if_neg (Nat.not_le_of_lt hshort)]
  obtain ⟨name, hname, hlength, hif⟩ : ∃ name, TextAt name 0 name ∧ name.length = 1 ∧
      (if decide (key = ascii "temperature") then ascii "T" else ascii "H") = name ∧
      (if key = ascii "temperature" then ascii "T" else ascii "H") = name := by
    by_cases htemp : key = ascii "temperature"
    · exact ⟨ascii "T", ⟨rfl, le_rfl⟩, rfl, by rw [if_pos (decide_eq_true htemp)], if_pos htemp⟩
    · exact ⟨ascii "H", ⟨rfl, le_rfl⟩, rfl, by rw [if_neg (by simpa using htemp)], if_neg htemp⟩
  rw [hif.1, hif.2, ← hlength]
  rcases kvArrayAddAt_at hR.fields hname (textAt_padded hshort) with
    ⟨hnone, hadd⟩ | ⟨fs, a, hsome, hadd, ha⟩
  · rw [hnone, bind_error (onPart_error hadd)]
    exact .refused hR
  · rw [hsome, bind_ok (onPart_ok hadd)]
    exact .done hq { hR with fields := ha }

/-- The value of a `seq` that is no string. -/
theorem dataSeqAt_follows (hturns : line.length < turns) {b : Byte} (hat : At line p (b :: rest))
    (hR : DataReads members s st) :
    Follows (DataReads members) line (dataSeqAt line turns p s) (dataSeq (b :: rest) st) := by
  rw [dataSeqAt, bind_ok (load_at hat), dataSeq, List.head?_cons]
  by_cases hminus : b = Ascii.minus
  · rw [if_pos hminus, if_pos (congrArg some hminus)]
    exact .refused hR
  rw [if_neg hminus, if_neg (by simpa using hminus)]
  rcases digitLoopAt_at uint32Overflow 0 (s := s)
    (length_lt_turns hturns hat) hat with ⟨hnone, hloop⟩ | ⟨w, rest₁, q₁, hsome, hloop, hat₁⟩
  · rw [hnone, bind_error hloop]
    exact .refused hR
  rw [hsome, bind_ok hloop]
  dsimp only
  obtain ⟨q₂, hfraction, hat₂⟩ := (skipFractionAt_moves (s := s) hturns hat₁).exists_place
  obtain ⟨q₃, hexponent, hat₃⟩ := (skipExponentAt_moves (s := s) hturns hat₂).exists_place
  rw [bind_ok hfraction, bind_ok hexponent]
  exact .done hat₃ { hR with foundSeq := rfl, sequence := rfl }

/-- **A member of the object**, listed. -/
theorem dataMemberAt_follows (hturns : line.length < turns) :
    FollowsValue (fun s (t : DataScan × List (Bytes × Bytes)) => DataReads t.2 s t.1) line
      (dataMemberAt line turns) (traced dataMember) := by
  rintro start key p rest s ⟨st, ms⟩ hkey hat hne hR
  -- the trace grows by this member, whatever becomes of it
  suffices h : Follows (DataReads (ms ++ [(key, rest)])) line
      (dataMemberAt line turns start key.length p s) (dataMember key rest st) from
    h.map (g := fun st => (st, ms ++ [(key, rest)])) fun hR' => hR'
  change DataReads ms s st at hR
  rw [dataMemberAt, bind_ok (textIs_at hkey), bind_ok (textIs_at hkey),
    bind_ok (textIs_at hkey), bind_ok (textIs_at hkey), bind_ok (textIs_at hkey),
    bind_ok (textIs_at hkey), dataMember.eq_def]
  by_cases hfields : key = ascii "fields"
  · have hnode : key ≠ ascii "node" := by
      rw [hfields]
      decide
    have hR' := hR.listed (nodeText_of_ne (p := rest) hnode)
    rw [if_pos hfields, if_pos (decide_eq_true hfields)]
    rcases (scanFieldsAt_follows hturns dataFieldMember_consumes
      (dataFieldMemberAt_follows hturns) hat hne hR'.fields).cases with
      ⟨q, a, rest', fs, hscan, hval, hq, ha⟩ | ⟨a, fs, hscan, hval, ha⟩
    · rw [hval, onPart_ok hscan]
      exact .done hq { hR' with fields := ha }
    · rw [hval, onPart_error hscan]
      exact .refused { hR' with fields := ha }
  rw [if_neg hfields, if_neg (by simpa using hfields)]
  obtain ⟨b, rest, rfl⟩ := List.exists_cons_of_ne_nil hne
  rw [bind_ok (load_at hat)]
  dsimp only
  by_cases hquote : b = Ascii.quote
  · subst hquote
    rw [if_pos rfl, if_pos rfl, stringValue]
    rcases readString_at (s := s) hturns hat.next with
      ⟨hnone, hread⟩ | ⟨text, rest', q, hscan, hread, htext, hq⟩
    · have hnodeText : nodeText (key, Ascii.quote :: rest) = none := by
        rw [nodeText]
        dsimp only
        rw [hnone]
        exact ite_self none
      rw [hnone, bind_error hread]
      exact .refused (hR.listed hnodeText)
    rw [hscan, bind_ok hread]
    dsimp only
    rcases dataStringAt_updates hR key htext hscan with
      ⟨hnone, hstring, hR'⟩ | ⟨s', st', hsome, hstring, hR'⟩
    · rw [hnone, bind_error hstring]
      exact .refused hR'
    · rw [hsome, bind_ok hstring]
      exact .done hq hR'
  have hR' := hR.listed (nodeText_of_not_quote key hquote rest)
  rw [if_neg hquote, if_neg hquote]
  -- the numbers: tenths, the sequence, and what is skipped
  by_cases hx10 : key = ascii "temperature" ∨ key = ascii "humidity"
  · rw [if_pos hx10, if_pos (by simpa using hx10)]
    exact dataX10At_follows hturns hat hR'
  rw [if_neg hx10, if_neg (by simpa using hx10)]
  by_cases hseq : key = ascii "seq"
  · rw [if_pos hseq, if_pos (decide_eq_true hseq)]
    exact dataSeqAt_follows hturns hat hR'
  · rw [if_neg hseq, if_neg (by simpa using hseq)]
    obtain ⟨q, hskip, hq⟩ := (skipNumberAt_moves (s := s) hturns hat).exists_place
    rw [hskip]
    exact .done hq hR'

/-! ## Whole lines -/

/-- A parser with the list beside its state is the parser. -/
theorem parseWith_traced {σ : Type} (member : Bytes → Bytes → σ → Option Bytes × σ) (line : Bytes)
    (st : σ) (ms : List (Bytes × Bytes)) :
    (parseWith (traced member) line (st, ms)).1 = (parseWith member line st).1 ∧
      (parseWith (traced member) line (st, ms)).2.1 = (parseWith member line st).2 := by
  rw [parseWith, parseWith]
  cases skipWhitespace line with
  | nil => exact ⟨rfl, rfl⟩
  | cons b p =>
    dsimp only
    by_cases hb : b ≠ Ascii.openBrace
    · rw [if_pos hb, if_pos hb]
      exact ⟨rfl, rfl⟩
    rw [if_neg hb, if_neg hb]
    obtain ⟨hplace, hstate⟩ := objectLoop_traced member (p.length + 1) p st ms
    rw [scanObject, scanObject]
    generalize objectLoop (traced member) (p.length + 1) p (st, ms) = r at hplace hstate ⊢
    generalize objectLoop member (p.length + 1) p st = r' at hplace hstate ⊢
    obtain ⟨o, st₁, ms₁⟩ := r
    obtain ⟨o', st₂⟩ := r'
    obtain rfl : o = o' := hplace
    obtain rfl : st₁ = st₂ := hstate
    cases o with
    | none => exact ⟨rfl, rfl⟩
    | some rest => exact ⟨rfl, rfl⟩

/-- The members that `message_json_decode_data` comes to, as far as it reads the line: each key
with the text from its value on. -/
def dataMembers (line : Bytes) : List (Bytes × Bytes) :=
  (parseWith (traced dataMember) line (DataScan.zero, [])).2.2

/-- **The loop of `message_json_decode_data`** over a whole line. -/
theorem dataParse_follows (hturns : line.length < turns) :
    (∃ consumed s st, parseWith dataMember line DataScan.zero = (some consumed, st) ∧
        parseWithAt line turns (dataMemberAt line turns) .start = .ok consumed s ∧
        DataReads (dataMembers line) s st ∧ 2 ≤ consumed ∧ consumed ≤ line.length) ∨
      ∃ s st, parseWith dataMember line DataScan.zero = (none, st) ∧
        parseWithAt line turns (dataMemberAt line turns) .start = .error .refused s ∧
        DataReads (dataMembers line) s st := by
  obtain ⟨hplace, hstate⟩ := parseWith_traced dataMember line DataScan.zero []
  rcases parseWithAt_follows (t := (DataScan.zero, [])) hturns
    (traced_consumes dataMember_consumes) (dataMemberAt_follows hturns) dataReads_start with
    ⟨consumed, s, ⟨st, ms⟩, hparse, hread, hR, hbounds⟩ | ⟨s, ⟨st, ms⟩, hparse, hread, hR⟩
  · rw [hparse] at hplace hstate
    refine .inl ⟨consumed, s, st, Prod.ext hplace.symm hstate.symm, hread, ?_, hbounds⟩
    rw [dataMembers, hparse]
    exact hR
  · rw [hparse] at hplace hstate
    refine .inr ⟨s, st, Prod.ext hplace.symm hstate.symm, hread, ?_⟩
    rw [dataMembers, hparse]
    exact hR

/-- **`message_json_decode_data`** of a line that is not empty: refused where the decoder by rest
refuses it, and otherwise as much consumed of it, with a struct that reads as the message. -/
theorem messageJsonDecodeDataAt_follows (hturns : line.length < turns) (hline : line ≠ [])
    (data : KvMemory) (old : FrameData) :
    (∃ consumed m message, messageJsonDecodeData line old = (some consumed, message) ∧
        messageJsonDecodeDataAt turns line data = .ok consumed m ∧
        KvReads m message.nodeId message.sequence message.fields ∧
        2 ≤ consumed ∧ consumed ≤ line.length) ∨
      ∃ s, messageJsonDecodeData line old =
          (none, (parseWith dataMember line DataScan.zero).2.data) ∧
        messageJsonDecodeDataAt turns line data = .error .refused s.data ∧
        DataReads (dataMembers line) s (parseWith dataMember line DataScan.zero).2 := by
  rw [messageJsonDecodeDataAt, if_neg (fun h => hline (List.length_eq_zero_iff.mp h)),
    messageJsonDecodeData, if_neg hline]
  rcases dataParse_follows hturns with
    ⟨consumed, s, st, hparse, hread, hR, hbounds⟩ | ⟨s, st, hparse, hread, hR⟩
  · rw [hparse, hread]
    dsimp only
    rw [hR.foundNode, hR.foundSeq, hR.foundType]
    by_cases hmissing : !st.foundNode ∨ !st.foundSeq ∨ !st.foundType
    · rw [if_pos hmissing, if_pos hmissing]
      exact .inr ⟨s, rfl, rfl, hR⟩
    · rw [if_neg hmissing, if_neg hmissing]
      exact .inl ⟨consumed, _, _, rfl, rfl, ⟨hR.nodeId, hR.sequence, hR.fields⟩, hbounds⟩
  · rw [hparse, hread]
    exact .inr ⟨s, rfl, rfl, hR⟩

/-- How a parser may end: it has consumed at least two bytes and at most the line, with at most
the sixteen fields, or it has given up. -/
def EndsSafely {σ : Type} (line : Bytes) (fieldCount : σ → ℕ) (r : EStateM.Result Stop σ ℕ) :
    Prop :=
  (∃ consumed left, r = .ok consumed left ∧ 2 ≤ consumed ∧ consumed ≤ line.length ∧
      fieldCount left ≤ frameDataMaxFields) ∨
    ∃ left, r = .error .refused left

theorem FieldsRead.fieldCount_le {a : KvArray} {fs : FrameFields} (h : FieldsRead a fs) :
    a.fieldCount ≤ frameDataMaxFields := by
  rw [h.count]
  exact fs.2

/-- **The JSON scanners are safe.** On every line, with more turns for each loop than the line
has bytes, `json_parse_object` and `message_json_decode_data` come to an end, without a read
outside the line and without a write outside an array. -/
theorem jsonScanners_safe (turns : ℕ) (line : Bytes) (hturns : line.length < turns)
    (out : JsonObjectMemory) (data : KvMemory) :
    EndsSafely line JsonObjectMemory.fieldCount (jsonParseObjectAt turns line out) ∧
      EndsSafely line KvMemory.fieldCount (messageJsonDecodeDataAt turns line data) := by
  by_cases hline : line = []
  · subst hline
    exact ⟨.inr ⟨out, rfl⟩, .inr ⟨data, rfl⟩⟩
  constructor
  · rcases jsonParseObjectAt_follows hturns hline out with
      ⟨consumed, m, obj, -, hread, hR, htwo, hle⟩ | ⟨m, obj, -, hread⟩
    · exact .inl ⟨consumed, m, hread, htwo, hle, hR.fields.fieldCount_le⟩
    · exact .inr ⟨m, hread⟩
  · rcases messageJsonDecodeDataAt_follows hturns hline data default with
      ⟨consumed, m, message, -, hread, hR, htwo, hle⟩ | ⟨s, -, hread, -⟩
    · exact .inl ⟨consumed, m, hread, htwo, hle, hR.fields.fieldCount_le⟩
    · exact .inr ⟨s.data, hread⟩

/-- A line that breaks off behind a backslash, inside a string. -/
theorem jsonScanners_safe_brokenOff :
    let line := ascii "\x7b\"node\\"
    EndsSafely line JsonObjectMemory.fieldCount (jsonParseObjectAt 8 line .zero) ∧
      EndsSafely line KvMemory.fieldCount (messageJsonDecodeDataAt 8 line .zero) :=
  jsonScanners_safe 8 (ascii "\x7b\"node\\") (by decide) .zero .zero

end SmartGateway
