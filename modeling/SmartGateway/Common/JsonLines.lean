import SmartGateway.Common.JsonText

/-!
# The lines the decoders accept

The lines of `common/message_json.c` as they are written: values, members with the white
space around them, and what stands before and behind the object. Each of the two parsers
reads back what is written so, and takes one step for each member: a line is accepted
exactly if it is such a text and the steps of its members go through. What is decoded is
then a matter of the members alone.
-/

namespace SmartGateway

open Numeral ObjectScan

/-! ## Values -/

/-- The value of a field. -/
inductive FieldValue
  | string (text : StableText)
  | number (n : NumberText)

/-- The value of a member of the object. -/
inductive ValueText
  | string (text : StableText)
  | number (n : NumberText)
  | object (fields : ObjectText FieldValue)

/-- A text without quotes and backslashes, or nothing where it has some. -/
def plainText (text : Bytes) : StableText :=
  if h : Ascii.quote ∉ text ∧ Ascii.backslash ∉ text then ⟨text, stable_of_not_mem h.1 h.2⟩
  else ⟨[], stable_nil⟩

/-- How a string is written. -/
def stringText (text : StableText) : Bytes := Ascii.quote :: (text.1 ++ [Ascii.quote])

def FieldValue.text : FieldValue → Bytes
  | .string text => stringText text
  | .number n => n.text

def ValueText.text : ValueText → Bytes
  | .string text => stringText text
  | .number n => n.text
  | .object fields => Ascii.openBrace :: fields.text FieldValue.text []

/-! ## Steps -/

/-- What the value of a field is kept as. -/
def FieldValue.kept : FieldValue → Option Bytes
  | .string text => some text.1
  | .number n => if n.Strict then some n.text else none

/-- What a member of a `fields` object does. -/
def fieldStep (key : Bytes) (v : FieldValue) (fields : FrameFields) : Option FrameFields :=
  v.kept.bind (kvArrayAdd fields key)

/-- What a parser has under its members: the fields, and rules for the strings and the
numbers. -/
structure MemberRules (σ : Type) where
  fields : σ → FrameFields
  setFields : FrameFields → σ → σ
  string : Bytes → Bytes → σ → Option σ
  number : Bytes → NumberText → σ → Option σ

/-- What a member of the object does: only `fields` has an object, and nothing else. -/
def MemberRules.step {σ : Type} (r : MemberRules σ) (key : Bytes) (v : ValueText) (st : σ) :
    Option σ :=
  match v with
  | .object o =>
    if key = ascii "fields" then
      (runMembers fieldStep o.members (r.fields st)).map fun fields => r.setFields fields st
    else
      none
  | .string text => if key = ascii "fields" then none else r.string key text.1 st
  | .number n => if key = ascii "fields" then none else r.number key n st

namespace MemberRules

variable {σ : Type} (r : MemberRules σ) {key : Bytes} (st : σ)

theorem step_fields_object (o : ObjectText FieldValue) :
    r.step (ascii "fields") (.object o) st =
      (runMembers fieldStep o.members (r.fields st)).map fun fields => r.setFields fields st := by
  rw [step, if_pos rfl]

theorem step_fields_string (text : StableText) :
    r.step (ascii "fields") (.string text) st = none := by
  rw [step, if_pos rfl]

theorem step_fields_number (n : NumberText) : r.step (ascii "fields") (.number n) st = none := by
  rw [step, if_pos rfl]

theorem step_object (hkey : key ≠ ascii "fields") (o : ObjectText FieldValue) :
    r.step key (.object o) st = none := by
  rw [step, if_neg hkey]

theorem step_string (hkey : key ≠ ascii "fields") (text : StableText) :
    r.step key (.string text) st = r.string key text.1 st := by
  rw [step, if_neg hkey]

theorem step_number (hkey : key ≠ ascii "fields") (n : NumberText) :
    r.step key (.number n) st = r.number key n st := by
  rw [step, if_neg hkey]

end MemberRules

/-- A number of `json_parse_object`: it has digits within 32 bits, whatever its name. -/
def readObjectNumber (key : Bytes) (n : NumberText) (obj : JsonObject) : Option JsonObject :=
  if n.digits.1 ≠ [] ∧ decimalValue n.digits.1 ≤ 0xFFFFFFFF then
    objectNumber key n.minus (decimalValue n.digits.1) obj
  else
    none

/-- `json_parse_object`. -/
def objectRules : MemberRules JsonObject where
  fields obj := obj.fields
  setFields fields obj := { obj with fields := fields, foundFields := true }
  string := objectString
  number := readObjectNumber

/-- A temperature or a humidity: it becomes a field. -/
def dataTenths (key : Bytes) (n : NumberText) (st : DataScan) : Option DataScan :=
  if n.digits.1 ≠ [] ∧ n.exponent.isNone ∧ decimalValue n.digits.1 / 10 ≤ 214748363 then
    (kvArrayAdd st.data.fields (if key = ascii "temperature" then ascii "T" else ascii "H")
      (decimalInt (BitVec.ofInt 32 n.tenths))).map fun fields =>
        { st with data := { st.data with fields := fields } }
  else
    none

/-- A number of `message_json_decode_data`: under an unknown name it is not looked at. -/
def readDataNumber (key : Bytes) (n : NumberText) (st : DataScan) : Option DataScan :=
  if key = ascii "temperature" ∨ key = ascii "humidity" then
    dataTenths key n st
  else if key = ascii "seq" then
    if n.minus = false ∧ decimalValue n.digits.1 ≤ 0xFFFFFFFF then
      some { st with sequence := UInt32.ofNat (decimalValue n.digits.1), foundSeq := true }
    else
      none
  else
    some st

/-- `message_json_decode_data`. -/
def dataRules : MemberRules DataScan where
  fields st := st.data.fields
  setFields fields st := { st with data := { st.data with fields := fields } }
  string := dataString
  number := readDataNumber

/-! ## First bytes -/

theorem not_isWhitespace_of_number {b : Byte} (h : isNumberByte b = true) :
    isWhitespace b = false := by
  by_contra hspace
  simp only [isWhitespace, Bool.not_eq_false, Bool.or_eq_true, beq_iff_eq] at hspace
  rcases hspace with ((rfl | rfl) | rfl) | rfl
  all_goals exact absurd h (by decide)

/-- A number has no other bytes. -/
theorem NumberText.isNumberByte_of_mem (n : NumberText) {b : Byte} (hb : b ∈ n.text) :
    isNumberByte b = true := by
  obtain ⟨minus, digits, fraction, exponent⟩ := n
  unfold NumberText.text at hb
  -- the four parts of the text, from the left
  rcases List.mem_append.mp hb with hb | hb
  · unfold minusText at hb
    split at hb
    · obtain rfl := List.mem_singleton.mp hb
      decide
    · exact absurd hb List.not_mem_nil
  rcases List.mem_append.mp hb with hb | hb
  · exact isNumberByte_of_isDigit (digits.2 b hb)
  rcases List.mem_append.mp hb with hb | hb
  · cases fraction with
    | none => exact absurd hb List.not_mem_nil
    | some ds =>
      rcases List.mem_cons.mp hb with rfl | hb
      · decide
      · exact isNumberByte_of_isDigit (ds.2 b hb)
  · cases exponent with
    | none => exact absurd hb List.not_mem_nil
    | some e =>
      obtain ⟨mark, sign, ds⟩ := e
      rcases List.mem_cons.mp hb with rfl | hb
      · exact isNumberByte_of_isExponentMark mark.2
      rcases List.mem_append.mp hb with hb | hb
      · cases sign with
        | none => exact absurd hb List.not_mem_nil
        | some sign =>
          obtain rfl := List.mem_singleton.mp hb
          obtain ⟨b, rfl | rfl⟩ := sign
          · decide
          · decide
      · exact isNumberByte_of_isDigit (ds.2 b hb)

theorem ne_of_isNumberByte {b : Byte} (h : isNumberByte b = true) :
    b ≠ Ascii.quote ∧ b ≠ Ascii.openBrace := by
  constructor
  · rintro rfl
    exact absurd h (by decide)
  · rintro rfl
    exact absurd h (by decide)

/-- A number, if only an empty one, starts neither as a string nor as an object. -/
theorem NumberText.exists_cons (n : NumberText) {q : Bytes} (hq : Separated q) :
    ∃ b p, n.text ++ q = b :: p ∧ b ≠ Ascii.quote ∧ b ≠ Ascii.openBrace := by
  cases htext : n.text with
  | cons b text =>
    exact ⟨b, text ++ q, rfl, ne_of_isNumberByte
      (n.isNumberByte_of_mem (by rw [htext]; exact List.mem_cons_self))⟩
  | nil =>
    obtain ⟨c, rest, hskip, hc⟩ := hq
    cases q with
    | nil => exact absurd hskip (by simp [skipWhitespace])
    | cons b q =>
      refine ⟨b, q, rfl, ?_⟩
      by_cases hspace : isWhitespace b = true
      · constructor
        · rintro rfl
          exact absurd hspace (by decide)
        · rintro rfl
          exact absurd hspace (by decide)
      · rw [skipWhitespace_cons (eq_false_of_ne_true hspace)] at hskip
        obtain ⟨rfl, -⟩ := List.cons.inj hskip
        rcases hc with rfl | rfl
        · decide
        · decide

theorem stringText_append (text : StableText) (q : Bytes) :
    stringText text ++ q = Ascii.quote :: (text.1 ++ Ascii.quote :: q) := by
  simp [stringText]

theorem scanString_stringText (text : StableText) (q : Bytes) :
    scanString (text.1 ++ Ascii.quote :: q) = some (text.1, q) :=
  scanString_eq_some_iff.mpr ⟨rfl, text.2⟩

theorem ValueText.object_append (o : ObjectText FieldValue) (q : Bytes) :
    (ValueText.object o).text ++ q = Ascii.openBrace :: o.text FieldValue.text q := by
  rw [ValueText.text, List.cons_append, ObjectText.text_append, List.nil_append]

/-! ## Fields -/

/-- The value of a field, read back. -/
theorem scanFieldValue_written (v : FieldValue) {q : Bytes} (hq : Separated q) :
    scanFieldValue (v.text ++ q) = v.kept.map (·, q) := by
  cases v with
  | string text =>
    rw [FieldValue.text, stringText_append, scanFieldValue, if_pos rfl]
    exact scanString_stringText text q
  | number n =>
    obtain ⟨b, p, hcons, hquote, -⟩ := n.exists_cons hq
    have hscan := n.scanNumberText_text (numberEnds_of_separated hq)
    rw [hcons] at hscan
    rw [FieldValue.text, hcons, scanFieldValue, if_neg hquote, hscan, FieldValue.kept]
    split_ifs
    · rfl
    · rfl

theorem fieldMember_reads : Reads fieldMember FieldValue.text fieldStep where
  start v b hb := by
    cases v with
    | string text =>
      obtain rfl : Ascii.quote = b := Option.some.inj hb
      decide
    | number n =>
      exact not_isWhitespace_of_number (n.isNumberByte_of_mem (List.mem_of_mem_head? hb))
  reads {key v q fields q' fields'} hq := by
    rw [fieldMember_eq_some_iff, scanFieldValue_written v hq, fieldStep, Option.bind_eq_some_iff]
    constructor
    · rintro ⟨⟨value, hscan, hadd⟩, -⟩
      obtain ⟨kept, hkept, heq⟩ := Option.map_eq_some_iff.mp hscan
      obtain ⟨rfl, rfl⟩ := Prod.mk.inj heq
      exact ⟨rfl, kept, hkept, hadd⟩
    · rintro ⟨rfl, kept, hkept, hadd⟩
      exact ⟨⟨kept, by rw [hkept]; rfl, hadd⟩, hq⟩
  writes {key p fields q fields'} h _ := by
    obtain ⟨value, hscan, -⟩ := fieldMember_eq_some_iff.mp h
    cases p with
    | nil => exact absurd hscan (by simp [scanFieldValue])
    | cons b p =>
      -- a value that was read is a string or a number, whose text can be written again
      rw [scanFieldValue] at hscan
      split at hscan
      · rename_i hquote
        obtain ⟨hp, hstable⟩ := scanString_eq_some_iff.mp hscan
        refine ⟨.string ⟨value, hstable⟩, ?_⟩
        rw [FieldValue.text, stringText_append, hquote, hp]
      · obtain ⟨n, hn⟩ := exists_numberText (b :: p)
        refine ⟨.number n, ?_⟩
        rw [behindNumber_of_scanNumberText hscan]
        exact hn

/-- **A `fields` object** as it is written. -/
theorem scanFields_text (o : ObjectText FieldValue) {q q' : Bytes} {fields fields' : FrameFields} :
    scanFields fieldMember ((ValueText.object o).text ++ q) fields = (some q', fields') ↔
      q' = q ∧ runMembers fieldStep o.members fields = some fields' := by
  rw [scanFields_eq_some_iff fieldMember_consumes, ValueText.object_append,
    ← objectRun_text_iff fieldMember_reads]
  constructor
  · rintro ⟨p', hp, hrun⟩
    rw [(List.cons.inj hp).2]
    exact hrun
  · exact fun hrun => ⟨_, rfl, hrun⟩

/-- What is read as one was written so. -/
theorem exists_fields_text {p q : Bytes} {fields fields' : FrameFields}
    (h : scanFields fieldMember p fields = (some q, fields')) :
    ∃ o : ObjectText FieldValue, p = (ValueText.object o).text ++ q := by
  obtain ⟨p', rfl, hrun⟩ := (scanFields_eq_some_iff fieldMember_consumes).mp h
  obtain ⟨o, rfl⟩ := hrun.exists_text fieldMember_reads
  exact ⟨o, (ValueText.object_append o q).symm⟩

/-- A value that is no object is no `fields` value. -/
theorem scanFields_of_ne {b : Byte} (hb : b ≠ Ascii.openBrace) (p : Bytes) (fields : FrameFields) :
    scanFields fieldMember (b :: p) fields = (none, fields) :=
  if_pos hb

/-! ## Members of the object -/

/-- A parser with these rules, as far as its values go. -/
structure ReadsBy {σ : Type} (member : Bytes → Bytes → σ → Option Bytes × σ)
    (r : MemberRules σ) : Prop where
  fields : ∀ {p q st st'}, member (ascii "fields") p st = (some q, st') ↔
    ∃ fields, scanFields fieldMember p (r.fields st) = (some q, fields) ∧
      st' = r.setFields fields st
  string : ∀ {key}, key ≠ ascii "fields" → ∀ p st,
    member key (Ascii.quote :: p) st = stringValue (r.string key) p st
  object : ∀ {key p st q st'}, key ≠ ascii "fields" →
    member key (Ascii.openBrace :: p) st = (some q, st') → ¬ Separated q
  number : ∀ {key n q st q' st'}, key ≠ ascii "fields" → Separated q →
    (member key (NumberText.text n ++ q) st = (some q', st') ∧ Separated q' ↔
      q' = q ∧ r.number key n st = some st')
  behind : ∀ {key p st q st'}, key ≠ ascii "fields" → p.head? ≠ some Ascii.quote →
    member key p st = (some q, st') → Separated q → q = behindNumber p

/-- It reads back what is written, and takes a step with it. -/
theorem ReadsBy.reads {σ : Type} {member : Bytes → Bytes → σ → Option Bytes × σ}
    {r : MemberRules σ} (h : ReadsBy member r) : Reads member ValueText.text r.step where
  start v b hb := by
    cases v with
    | string text =>
      obtain rfl : Ascii.quote = b := Option.some.inj hb
      decide
    | number n =>
      exact not_isWhitespace_of_number (n.isNumberByte_of_mem (List.mem_of_mem_head? hb))
    | object o =>
      obtain rfl : Ascii.openBrace = b := Option.some.inj hb
      decide
  reads {key v q st q' st'} hq := by
    by_cases hkey : key = ascii "fields"
    · subst hkey
      rw [h.fields]
      cases v with
      | object o =>
        simp only [scanFields_text, MemberRules.step, if_true, Option.map_eq_some_iff]
        constructor
        · rintro ⟨⟨fields, ⟨rfl, hrun⟩, rfl⟩, -⟩
          exact ⟨rfl, fields, hrun, rfl⟩
        · rintro ⟨rfl, fields, hrun, rfl⟩
          exact ⟨⟨fields, ⟨rfl, hrun⟩, rfl⟩, hq⟩
      -- `fields` takes nothing but an object
      | string text =>
        rw [ValueText.text, stringText_append, MemberRules.step, if_pos rfl]
        simp [scanFields_of_ne (show Ascii.quote ≠ Ascii.openBrace by decide)]
      | number n =>
        obtain ⟨b, p, hcons, -, hbrace⟩ := n.exists_cons hq
        rw [ValueText.text, hcons, MemberRules.step, if_pos rfl]
        simp [scanFields_of_ne hbrace]
    · cases v with
      -- and no other key takes one
      | object o =>
        rw [ValueText.object_append, MemberRules.step, if_neg hkey]
        constructor
        · rintro ⟨hmember, hsep⟩
          exact absurd hsep (h.object hkey hmember)
        · rintro ⟨-, hstep⟩
          exact absurd hstep (by simp)
      | string text =>
        rw [ValueText.text, stringText_append, MemberRules.step, if_neg hkey, h.string hkey,
          stringValue_eq_some_iff, scanString_stringText]
        constructor
        · rintro ⟨⟨t, hscan, hstring⟩, -⟩
          obtain ⟨rfl, rfl⟩ := Prod.mk.inj (Option.some.inj hscan)
          exact ⟨rfl, hstring⟩
        · rintro ⟨rfl, hstring⟩
          exact ⟨⟨_, rfl, hstring⟩, hq⟩
      | number n =>
        rw [ValueText.text, MemberRules.step, if_neg hkey]
        exact h.number hkey hq
  writes {key p st q st'} hmember hq := by
    by_cases hkey : key = ascii "fields"
    · subst hkey
      obtain ⟨fields, hscan, -⟩ := h.fields.mp hmember
      obtain ⟨o, ho⟩ := exists_fields_text hscan
      exact ⟨.object o, ho⟩
    by_cases hquote : p.head? = some Ascii.quote
    · obtain ⟨p', rfl⟩ := List.head?_eq_some_iff.mp hquote
      rw [h.string hkey] at hmember
      obtain ⟨text, hscan, -⟩ := stringValue_eq_some_iff.mp hmember
      obtain ⟨hp, hstable⟩ := scanString_eq_some_iff.mp hscan
      refine ⟨.string ⟨text, hstable⟩, ?_⟩
      rw [ValueText.text, stringText_append, hp]
    · obtain ⟨n, hn⟩ := exists_numberText p
      refine ⟨.number n, ?_⟩
      rw [h.behind hkey hquote hmember hq]
      exact hn

/-- **`json_parse_object`** reads by its rules. -/
theorem objectMember_readsBy : ReadsBy objectMember objectRules where
  fields := objectMember_fields_eq_some_iff
  string hkey p obj := objectMember_string hkey p obj
  -- a brace is no digit
  object {key p obj q obj'} hkey hmember := by
    obtain ⟨negative, value, hscan, -⟩ :=
      (objectMember_number_eq_some_iff hkey (by decide)).mp hmember
    exact absurd hscan (by simp [scanNumber, skipOneOf, show Ascii.openBrace ≠ Ascii.minus by decide,
      show isDigit Ascii.openBrace = false by decide])
  number {key n q obj q' obj'} hkey hq := by
    have hends := numberEnds_of_separated hq
    obtain ⟨b, p, hcons, hquote, -⟩ := n.exists_cons hq
    rw [hcons, objectMember_number_eq_some_iff hkey hquote, ← hcons]
    simp only [scanNumber_eq_some_iff, n.leadingDigits_text hends, n.head_minus hends,
      n.behindNumber_text hends, objectRules, readObjectNumber]
    constructor
    · rintro ⟨⟨negative, value, ⟨hread, rfl, rfl, rfl⟩, hnumber⟩, -⟩
      exact ⟨rfl, (if_pos hread).trans hnumber⟩
    · rintro ⟨rfl, hstep⟩
      split_ifs at hstep with hread
      exact ⟨⟨_, _, ⟨hread, rfl, rfl, rfl⟩, hstep⟩, hq⟩
  behind {key p obj q obj'} hkey hquote hmember _ := by
    cases p with
    | nil =>
      rw [objectMember.eq_def, if_neg hkey] at hmember
      exact absurd (Prod.mk.inj hmember).1 (by simp)
    | cons b p =>
      have hb : b ≠ Ascii.quote := fun hb => hquote (congrArg some hb)
      obtain ⟨negative, value, hscan, -⟩ :=
        (objectMember_number_eq_some_iff hkey hb).mp hmember
      exact (scanNumber_eq_some_iff.mp hscan).2.2.2

/-- A number without digits is no temperature. -/
theorem jsonParseX10_eq_none (n : NumberText) (hdigits : n.digits.1 = []) {q : Bytes}
    (hq : NumberEnds q) : jsonParseX10 (n.text ++ q) = none := by
  have hhead := n.fractionText_head hq
  rw [jsonParseX10, n.skipMinus_text hq, hdigits, List.nil_append]
  cases hcut : fractionText n.fraction ++ (exponentText n.exponent ++ q) with
  | nil => rfl
  | cons b p =>
    rw [hcut] at hhead
    simp [(hhead b rfl).1]

/-- An exponent is no separator. -/
theorem separated_exponentText {exponent : Option ExponentText} {q : Bytes} (hq : NumberEnds q)
    (h : Separated (exponentText exponent ++ q)) : exponent = none := by
  cases exponent with
  | none => rfl
  | some e =>
    have hskip := NumberText.skipExponent_text ⟨false, ⟨[], by simp⟩, none, some e⟩ hq
    rw [skipExponent_of_separated h] at hskip
    have hlength := congrArg List.length hskip
    rw [exponentText, ExponentText.text, List.length_append, List.length_cons] at hlength
    omega

/-- What a temperature or a humidity is read as. -/
theorem dataX10_text {key : Bytes} (n : NumberText) {q q' : Bytes} (hq : Separated q)
    {st st' : DataScan} :
    dataX10 key (n.text ++ q) st = (some q', st') ∧ Separated q' ↔
      q' = q ∧ dataTenths key n st = some st' := by
  have hends := numberEnds_of_separated hq
  rw [dataX10, dataTenths]
  by_cases hdigits : n.digits.1 = []
  · rw [jsonParseX10_eq_none n hdigits hends]
    simp [hdigits]
  have hx10 := jsonParseX10_text n hdigits (r := exponentText n.exponent ++ q) fun b hb =>
    ⟨(n.exponentText_head hends b hb).1, fun _ => (n.exponentText_head hends b hb).2.1⟩
  rw [NumberText.text_append, hx10]
  by_cases hfits : decimalValue n.digits.1 / 10 ≤ 214748363
  swap
  · simp [hfits]
  rw [if_pos hfits]
  dsimp only
  cases hadd : kvArrayAdd st.data.fields
      (if key = ascii "temperature" then ascii "T" else ascii "H")
      (decimalInt (BitVec.ofInt 32 n.tenths)) with
  | none => simp
  | some fields =>
    simp only [Prod.mk.injEq, Option.some.injEq]
    constructor
    -- an exponent is left standing, and no separator begins with it
    · rintro ⟨⟨rfl, rfl⟩, hsep⟩
      have hnone := separated_exponentText hends hsep
      refine ⟨by rw [hnone]; rfl, ?_⟩
      rw [if_pos ⟨hdigits, by rw [hnone]; rfl, hfits⟩]
      rfl
    · rintro ⟨rfl, hstep⟩
      split_ifs at hstep with hread
      have hnone : n.exponent = none := Option.isNone_iff_eq_none.mp hread.2.1
      refine ⟨⟨by rw [hnone]; rfl, Option.some.inj hstep⟩, hq⟩

/-- What a sequence is read as. -/
theorem dataSeq_text (n : NumberText) {q q' : Bytes} (hq : Separated q) {st st' : DataScan} :
    dataSeq (n.text ++ q) st = (some q', st') ∧ Separated q' ↔
      q' = q ∧ (n.minus = false ∧ decimalValue n.digits.1 ≤ 0xFFFFFFFF) ∧
        st' = { st with sequence := UInt32.ofNat (decimalValue n.digits.1), foundSeq := true } := by
  have hends := numberEnds_of_separated hq
  have hhead := n.head_minus hends
  have hskip := n.skipMinus_text hends
  rw [dataSeq]
  -- a minus is refused before any digit is read
  by_cases hminus : n.minus = true
  · rw [hminus, beq_iff_eq] at hhead
    rw [if_pos hhead, hminus]
    simp
  have hfalse := eq_false_of_ne_true hminus
  rw [hfalse, beq_eq_false_iff_ne] at hhead
  have hread := digitLoop_uint32 (Nat.zero_le 0xFFFFFFFF) (n.text ++ q)
  have htext : n.text ++ q =
      n.digits.1 ++ (fractionText n.fraction ++ (exponentText n.exponent ++ q)) := by
    rw [NumberText.text_append, hfalse]
    rfl
  have htake : (n.text ++ q).takeWhile isDigit = n.digits.1 := by
    rw [htext]
    exact takeWhile_isDigit_append _ fun b hb => (n.fractionText_head hends b hb).1
  rw [htake, ← decimalValue] at hread
  rw [if_neg hhead, hread, hfalse]
  by_cases hfits : decimalValue n.digits.1 ≤ 0xFFFFFFFF
  swap
  · simp [hfits]
  rw [if_pos hfits, htext, n.skipDigits_text hends]
  dsimp only
  rw [n.skipFraction_text hends, n.skipExponent_text hends]
  simp only [Prod.mk.injEq, Option.some.injEq]
  -- behind the digits a fraction and an exponent are skipped
  constructor
  · rintro ⟨⟨rfl, rfl⟩, -⟩
    exact ⟨rfl, ⟨trivial, hfits⟩, rfl⟩
  · rintro ⟨rfl, -, rfl⟩
    exact ⟨⟨rfl, rfl⟩, hq⟩

/-- **`message_json_decode_data`** reads by its rules. -/
theorem dataMember_readsBy : ReadsBy dataMember dataRules where
  fields := dataMember_fields_eq_some_iff
  string hkey p st := dataMember_string hkey p st
  object {key p st q st'} hkey hmember hsep := by
    -- the number skipper stays at the brace, and no comma or closing brace is there
    have hrest := (dataMember_number hkey (by decide) hmember hsep).rest_eq
    have hsame : behindNumber (Ascii.openBrace :: p) = Ascii.openBrace :: p := rfl
    obtain ⟨c, rest, hskip, hc⟩ := hsep
    rw [hrest, hsame, skipWhitespace_cons (by decide)] at hskip
    obtain ⟨rfl, -⟩ := List.cons.inj hskip
    rcases hc with hc | hc
    · exact absurd hc (by decide)
    · exact absurd hc (by decide)
  number {key n q st q' st'} hkey hq := by
    have hends := numberEnds_of_separated hq
    have hbehind := n.behindNumber_text hends
    obtain ⟨b, p, hcons, hquote, -⟩ := n.exists_cons hq
    have hx10 : dataX10 key (n.text ++ q) st = (some q', st') ∧ Separated q' ↔
        q' = q ∧ dataTenths key n st = some st' := dataX10_text n hq
    have hseq : dataSeq (n.text ++ q) st = (some q', st') ∧ Separated q' ↔
        q' = q ∧ (n.minus = false ∧ decimalValue n.digits.1 ≤ 0xFFFFFFFF) ∧
          st' = { st with sequence := UInt32.ofNat (decimalValue n.digits.1), foundSeq := true } :=
      dataSeq_text n hq
    rw [hcons] at hbehind hx10 hseq ⊢
    rw [dataMember.eq_def, if_neg hkey]
    simp only [if_neg hquote, dataRules, readDataNumber]
    split_ifs with h1 h2 h3
    · exact hx10
    · rw [hseq]
      simp [h3, eq_comm]
    · rw [hseq]
      simp [h3]
    -- an unknown key: the number is skipped
    · rw [← behindNumber, hbehind]
      simp only [Prod.mk.injEq, Option.some.injEq]
      constructor
      · rintro ⟨⟨rfl, rfl⟩, -⟩
        exact ⟨rfl, rfl⟩
      · rintro ⟨rfl, rfl⟩
        exact ⟨⟨rfl, rfl⟩, hq⟩
  behind {key p st q st'} hkey hquote hmember hsep := by
    cases p with
    | nil =>
      rw [dataMember.eq_def, if_neg hkey] at hmember
      exact absurd (Prod.mk.inj hmember).1 (by simp)
    | cons b p =>
      have hb : b ≠ Ascii.quote := fun hb => hquote (congrArg some hb)
      exact (dataMember_number hkey hb hmember hsep).rest_eq

/-! ## Lines -/

/-- A line as it stands before a decoder: an object, with white space before it and
anything behind it. -/
structure LineText where
  lead : White
  object : ObjectText ValueText
  rest : Bytes

/-- How a line is written. -/
def LineText.text (t : LineText) : Bytes :=
  t.lead.1 ++ Ascii.openBrace :: t.object.text ValueText.text t.rest

/-- A member without white space, under a key without quotes and backslashes. -/
def plainMember (key : Bytes) (v : ValueText) : MemberText ValueText where
  lead := noWhite
  key := plainText key
  beforeColon := noWhite
  afterColon := noWhite
  value := v
  trail := noWhite

/-- The line with other members. -/
def LineText.withMembers (t : LineText) (ms : List (MemberText ValueText)) : LineText :=
  { t with object := { t.object with members := ms } }

/-- **A line is accepted** exactly if the steps of its members go through. -/
theorem ReadsBy.parseWith_text {σ : Type} {member : Bytes → Bytes → σ → Option Bytes × σ}
    {r : MemberRules σ} (h : ReadsBy member r) (hmember : Consumes member) (t : LineText)
    {consumed : ℕ} {st st' : σ} :
    parseWith member t.text st = (some consumed, st') ↔
      runMembers r.step t.object.members st = some st' ∧
        consumed = t.text.length - t.rest.length := by
  have hskip : skipWhitespace t.text = Ascii.openBrace :: t.object.text ValueText.text t.rest := by
    rw [LineText.text, skipWhitespace_append, skipWhitespace_cons (by decide)]
  rw [parseWith_eq_some_iff hmember, hskip]
  constructor
  · rintro ⟨p, rest, hp, hrun, hconsumed⟩
    rw [← (List.cons.inj hp).2] at hrun
    obtain ⟨rfl, hsteps⟩ := (objectRun_text_iff h.reads t.object).mp hrun
    exact ⟨hsteps, hconsumed⟩
  · rintro ⟨hsteps, hconsumed⟩
    exact ⟨_, t.rest, rfl, (objectRun_text_iff h.reads t.object).mpr ⟨rfl, hsteps⟩, hconsumed⟩

/-- **What is accepted is a line** in that sense. -/
theorem ReadsBy.exists_lineText {σ : Type} {member : Bytes → Bytes → σ → Option Bytes × σ}
    {r : MemberRules σ} (h : ReadsBy member r) (hmember : Consumes member) {line : Bytes}
    {consumed : ℕ} {st st' : σ} (hparse : parseWith member line st = (some consumed, st')) :
    ∃ t : LineText, t.text = line := by
  obtain ⟨p, rest, hp, hrun, -⟩ := (parseWith_eq_some_iff hmember).mp hparse
  obtain ⟨lead, rfl⟩ := exists_white hp
  obtain ⟨o, rfl⟩ := hrun.exists_text h.reads
  exact ⟨⟨lead, o, rest⟩, rfl⟩

/-! ## Results -/

/-- Two results are the same: both refuse, or both accept with equal structs. -/
def SameResult {σ : Type} (r r' : Option ℕ × σ) : Prop :=
  r.1.isSome = r'.1.isSome ∧ (r.1.isSome = true → r.2 = r'.2)

/-- The result of a parser on a line is that of its members. -/
theorem ReadsBy.sameResult {σ : Type} {member : Bytes → Bytes → σ → Option Bytes × σ}
    {r : MemberRules σ} (h : ReadsBy member r) (hmember : Consumes member) {t t' : LineText}
    {st : σ} (hrun : runMembers r.step t.object.members st =
      runMembers r.step t'.object.members st) :
    SameResult (parseWith member t.text st) (parseWith member t'.text st) := by
  cases hparse : parseWith member t.text st with
  | mk out st₁ =>
    cases hparse' : parseWith member t'.text st with
    | mk out' st₁' =>
      cases out with
      | some consumed =>
        obtain ⟨hsteps, -⟩ := (h.parseWith_text hmember t).mp hparse
        rw [hrun] at hsteps
        have haccept := (h.parseWith_text hmember t').mpr ⟨hsteps, rfl⟩
        rw [hparse'] at haccept
        obtain ⟨rfl, rfl⟩ := Prod.mk.inj haccept
        exact ⟨rfl, fun _ => rfl⟩
      | none =>
        cases out' with
        | none => exact ⟨rfl, fun hsome => absurd hsome (by simp)⟩
        | some consumed =>
          obtain ⟨hsteps, -⟩ := (h.parseWith_text hmember t').mp hparse'
          rw [← hrun] at hsteps
          have haccept := (h.parseWith_text hmember t).mpr ⟨hsteps, rfl⟩
          rw [hparse] at haccept
          exact absurd (Prod.mk.inj haccept).1 (by simp)

theorem sameResult_refused {σ : Type} (st st' : σ) : SameResult (none, st) (none, st') :=
  ⟨rfl, fun h => absurd h (by simp)⟩

theorem sameResult_accepted {σ : Type} (consumed consumed' : ℕ) (st : σ) :
    SameResult (some consumed, st) (some consumed', st) :=
  ⟨rfl, fun _ => rfl⟩

theorem SameResult.cases {σ : Type} {r r' : Option ℕ × σ} (h : SameResult r r') :
    (∃ st st', r = (none, st) ∧ r' = (none, st')) ∨
      ∃ consumed consumed' st, r = (some consumed, st) ∧ r' = (some consumed', st) := by
  obtain ⟨out, st⟩ := r
  obtain ⟨out', st'⟩ := r'
  obtain ⟨haccept, hst⟩ := h
  cases out with
  | none =>
    cases out' with
    | none => exact .inl ⟨st, st', rfl, rfl⟩
    | some consumed' => exact absurd haccept (by simp)
  | some consumed =>
    cases out' with
    | none => exact absurd haccept (by simp)
    | some consumed' =>
      obtain rfl : st = st' := hst rfl
      exact .inr ⟨consumed, consumed', st, rfl, rfl⟩

/-! ## The decoders on `json_parse_object` -/

/-- How a decoder ends: with the message of an object that has all it needs. -/
def finishObject {α : Type} [Inhabited α] (complete : JsonObject → Bool) (make : JsonObject → α) :
    Option ℕ × JsonObject → Option ℕ × α
  | (none, _) => (none, default)
  | (some consumed, obj) => if complete obj then (some consumed, make obj) else (none, default)

/-- A decoder that looks at nothing but the parsed object. -/
def FinishesObject {α : Type} [Inhabited α] (decode : Bytes → Option ℕ × α) : Prop :=
  ∃ complete make, ∀ line, decode line = finishObject complete make (jsonParseObject line)

theorem messageJsonDecodeCommand_finishes : FinishesObject messageJsonDecodeCommand := by
  refine ⟨fun obj => obj.foundNode && obj.foundSender && obj.foundSeq && obj.foundType &&
    obj.typeValue.bytes == ascii "CMD",
    fun obj => ⟨obj.nodeId, obj.sender, obj.sequence, obj.messageFields⟩, fun line => ?_⟩
  unfold messageJsonDecodeCommand finishObject
  obtain ⟨out, obj⟩ := jsonParseObject line
  cases out with
  | none => rfl
  | some consumed =>
    dsimp only
    split_ifs <;> simp_all

theorem messageJsonDecodeAck_finishes : FinishesObject messageJsonDecodeAck := by
  refine ⟨fun obj => obj.foundNode && obj.foundSeq && obj.foundType &&
    obj.typeValue.bytes == ascii "ACK",
    fun obj => ⟨obj.nodeId, obj.sequence, obj.messageFields⟩, fun line => ?_⟩
  unfold messageJsonDecodeAck finishObject
  obtain ⟨out, obj⟩ := jsonParseObject line
  cases out with
  | none => rfl
  | some consumed =>
    dsimp only
    split_ifs <;> simp_all

theorem messageJsonDecodeNack_finishes : FinishesObject messageJsonDecodeNack := by
  refine ⟨fun obj => obj.foundNode && obj.foundSeq && obj.foundError && obj.foundType &&
    obj.typeValue.bytes == ascii "NACK",
    fun obj => ⟨obj.nodeId, obj.sequence, obj.error⟩, fun line => ?_⟩
  unfold messageJsonDecodeNack finishObject
  obtain ⟨out, obj⟩ := jsonParseObject line
  cases out with
  | none => rfl
  | some consumed =>
    dsimp only
    split_ifs <;> simp_all

section

variable {α : Type} [Inhabited α] {decode : Bytes → Option ℕ × α} {line line' : Bytes}

/-- Lines that parse to one object are decoded the same. -/
theorem FinishesObject.sameResult (hdecode : FinishesObject decode)
    (h : SameResult (jsonParseObject line) (jsonParseObject line')) :
    SameResult (decode line) (decode line') := by
  obtain ⟨complete, make, heq⟩ := hdecode
  rw [heq, heq]
  unfold finishObject
  rcases h.cases with ⟨obj, obj', hline, hline'⟩ | ⟨consumed, consumed', obj, hline, hline'⟩
  · rw [hline, hline']
    exact sameResult_refused _ _
  · rw [hline, hline']
    dsimp only
    split_ifs
    · exact sameResult_accepted _ _ _
    · exact sameResult_refused _ _

/-- What such a decoder accepts, the parser has accepted. -/
theorem FinishesObject.parsed (hdecode : FinishesObject decode)
    (h : (decode line).1.isSome = true) : (jsonParseObject line).1.isSome = true := by
  obtain ⟨complete, make, heq⟩ := hdecode
  rw [heq] at h
  generalize jsonParseObject line = parsed at h ⊢
  obtain ⟨out, obj⟩ := parsed
  cases out with
  | none => exact absurd h (by simp [finishObject])
  | some consumed => rfl

theorem FinishesObject.refused (hdecode : FinishesObject decode)
    (h : (jsonParseObject line).1.isSome = false) : (decode line).1.isSome = false := by
  refine eq_false_of_ne_true fun haccept => ?_
  have hparsed := hdecode.parsed haccept
  rw [h] at hparsed
  exact absurd hparsed (by simp)

end

/-! ## `message_json_decode_data` -/

theorem messageJsonDecodeData_sameResult {line line' : Bytes} (hline : line ≠ [])
    (hline' : line' ≠ []) (old : FrameData)
    (h : SameResult (parseWith dataMember line DataScan.zero)
      (parseWith dataMember line' DataScan.zero)) :
    SameResult (messageJsonDecodeData line old) (messageJsonDecodeData line' old) := by
  unfold messageJsonDecodeData
  rw [if_neg hline, if_neg hline']
  rcases h.cases with ⟨st, st', hparse, hparse'⟩ | ⟨consumed, consumed', st, hparse, hparse'⟩
  · rw [hparse, hparse']
    exact sameResult_refused _ _
  · rw [hparse, hparse']
    dsimp only
    split_ifs
    · exact sameResult_refused _ _
    · exact sameResult_accepted _ _ _

/-! ## Lines and their members -/

theorem LineText.text_ne_nil (t : LineText) : t.text ≠ [] := by
  unfold LineText.text
  simp

/-- **Lines whose members do the same** are decoded the same. -/
theorem sameResult_of_objectSteps {t t' : LineText}
    (h : runMembers objectRules.step t.object.members JsonObject.zero =
      runMembers objectRules.step t'.object.members JsonObject.zero) :
    SameResult (messageJsonDecodeCommand t.text) (messageJsonDecodeCommand t'.text) ∧
      SameResult (messageJsonDecodeAck t.text) (messageJsonDecodeAck t'.text) ∧
        SameResult (messageJsonDecodeNack t.text) (messageJsonDecodeNack t'.text) := by
  have hparse : SameResult (jsonParseObject t.text) (jsonParseObject t'.text) :=
    objectMember_readsBy.sameResult objectMember_consumes h
  exact ⟨messageJsonDecodeCommand_finishes.sameResult hparse,
    messageJsonDecodeAck_finishes.sameResult hparse,
    messageJsonDecodeNack_finishes.sameResult hparse⟩

theorem sameResult_of_dataSteps {t t' : LineText} (old : FrameData)
    (h : runMembers dataRules.step t.object.members DataScan.zero =
      runMembers dataRules.step t'.object.members DataScan.zero) :
    SameResult (messageJsonDecodeData t.text old) (messageJsonDecodeData t'.text old) :=
  messageJsonDecodeData_sameResult t.text_ne_nil t'.text_ne_nil old
    (dataMember_readsBy.sameResult dataMember_consumes h)

end SmartGateway
