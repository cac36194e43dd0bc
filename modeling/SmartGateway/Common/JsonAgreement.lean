import SmartGateway.Common.JsonRoundTrip
import SmartGateway.Lib.ObjectLockstep

/-!
# Two parsers of one grammar

`json_parse_object` on what `message_json_decode_data` accepts. The two walk the same
members, but not with the same care: `json_parse_object` looks at the length of a
`sender`, a `led` and an `error`, which the DATA decoder passes over, and of every
number it asks for digits within 32 bits, under whatever name it stands. So it
takes a DATA line exactly if each member passes those checks too, and then it finds
the type `DATA`.
-/

namespace SmartGateway

open Numeral ObjectScan

/-! ## The members of a line -/

/-- The value of a member: the object of `fields`, a string, or a number with the digits
it starts with. -/
inductive MemberValue
  | object
  | string (text : Bytes)
  | number (digits : Bytes)
deriving DecidableEq

/-- The digits of a number behind its sign. -/
def leadingDigits (p : Bytes) : Bytes := (skipOneOf [Ascii.minus] p).takeWhile isDigit

/-- What follows a number. -/
def behindNumber (p : Bytes) : Bytes :=
  skipExponent (skipFraction (skipDigits (skipOneOf [Ascii.minus] p)))

/-- A member of a `fields` object passed over. -/
def skipField (_key p : Bytes) (u : Unit) : Option Bytes × Unit :=
  ((scanFieldValue p).map Prod.snd, u)

/-- The value at a place, and what follows it. -/
def readValue (key p : Bytes) : Option (MemberValue × Bytes) :=
  match p with
  | [] => none
  | b :: rest =>
    if key = ascii "fields" then
      if b = Ascii.openBrace then (scanObject skipField rest ()).1.map (.object, ·) else none
    else if b = Ascii.quote then
      (scanString rest).map fun r => (.string r.1, r.2)
    else
      some (.number (leadingDigits (b :: rest)), behindNumber (b :: rest))

/-- The members of the object on a line, in order. -/
def members (line : Bytes) : List (Bytes × MemberValue) :=
  (parseWith (listMember readValue) line []).2

/-- What `json_parse_object` asks of a member beyond the DATA decoder: the length of some
strings, and of a number that it has digits and fits 32 bits. -/
def PassesObject : Bytes × MemberValue → Prop
  | (_, .object) => True
  | (key, .string text) =>
    (key = ascii "sender" → text.length < 32) ∧
      (key = ascii "led" → text ≠ [] ∧ text.length < 16) ∧
        (key = ascii "error" → text ≠ [] ∧ text.length < 32)
  | (_, .number digits) => digits ≠ [] ∧ decimalValue digits ≤ 0xFFFFFFFF

instance (m : Bytes × MemberValue) : Decidable (PassesObject m) :=
  match m with
  | (_, .object) => inferInstanceAs (Decidable True)
  | (key, .string text) => inferInstanceAs (Decidable ((key = ascii "sender" → text.length < 32) ∧
      (key = ascii "led" → text ≠ [] ∧ text.length < 16) ∧
        (key = ascii "error" → text ≠ [] ∧ text.length < 32)))
  | (_, .number digits) =>
    inferInstanceAs (Decidable (digits ≠ [] ∧ decimalValue digits ≤ 0xFFFFFFFF))

/-! ## Numbers -/

theorem behindNumber_behind (p : Bytes) : BehindNumber (behindNumber p) p :=
  (skipExponent_behind _).trans ((skipFraction_behind _).trans
    ((skipDigits_behind _).trans (skipMinus_behind p)))

/-- What stands before a comma or a brace has no exponent left. -/
theorem skipExponent_of_separated {q : Bytes} (h : Separated q) : skipExponent q = q := by
  cases q with
  | nil => rfl
  | cons b q =>
    rw [skipExponent]
    refine if_neg fun hmark => ?_
    have hnot : isWhitespace b = false ∧ b ≠ Ascii.comma ∧ b ≠ Ascii.closeBrace := by
      simp only [isExponentMark, Bool.or_eq_true, beq_iff_eq] at hmark
      rcases hmark with rfl | rfl
      · decide
      · decide
    obtain ⟨c, rest, hskip, hc⟩ := h
    rw [skipWhitespace_cons hnot.1] at hskip
    obtain ⟨rfl, -⟩ := List.cons.inj hskip
    rcases hc with hc | hc
    · exact hnot.2.1 hc
    · exact hnot.2.2 hc

/-- **A number of `json_parse_object`**, by its digits alone. -/
theorem scanNumber_eq_some_iff {p rest : Bytes} {negative : Bool} {value : ℕ} :
    scanNumber p = some (negative, value, rest) ↔
      (leadingDigits p ≠ [] ∧ decimalValue (leadingDigits p) ≤ 0xFFFFFFFF) ∧
        negative = (p.head? == some Ascii.minus) ∧ value = decimalValue (leadingDigits p) ∧
          rest = behindNumber p := by
  rw [scanNumber, leadingDigits, behindNumber]
  generalize skipOneOf [Ascii.minus] p = digits
  cases digits with
  | nil => simp
  | cons b q =>
    by_cases hdigit : isDigit b = true
    swap
    · simp [hdigit]
    have hne : (b :: q).takeWhile isDigit ≠ [] := by
      rw [List.takeWhile_cons_of_pos hdigit]
      exact List.cons_ne_nil _ _
    -- the loop refuses what does not fit in 32 bits, and nothing else
    have hread := digitLoop_uint32 (Nat.zero_le 0xFFFFFFFF) (b :: q)
    simp only [hdigit, Bool.not_true, Bool.false_eq_true, if_false, hread, hne, ne_eq,
      not_false_eq_true, true_and]
    rw [decimalValue]
    by_cases hfits : ((b :: q).takeWhile isDigit).foldl
        (fun v b => v * 10 + (b.toNat - 48)) 0 ≤ 0xFFFFFFFF
    · rw [if_pos hfits, Option.map_some, Option.some.injEq, Prod.mk.injEq, Prod.mk.injEq]
      constructor
      · rintro ⟨rfl, rfl, rfl⟩
        exact ⟨hfits, rfl, rfl, rfl⟩
      · rintro ⟨-, rfl, rfl, rfl⟩
        exact ⟨rfl, rfl, rfl⟩
    · rw [if_neg hfits, Option.map_none]
      constructor
      · exact fun h => absurd h (by simp)
      · exact fun h => absurd h.1 hfits

/-! ## Values -/

/-- A text is stored where it is short enough. -/
theorem exists_ofRaw? {cap : ℕ} {text : Bytes} (h : text.length < cap) :
    ∃ b : CharBuf cap, CharBuf.ofRaw? cap text = some b := ⟨_, dif_pos h⟩

theorem length_lt_of_ofRaw? {cap : ℕ} {text : Bytes} {b : CharBuf cap}
    (h : CharBuf.ofRaw? cap text = some b) : text.length < cap := by
  by_contra hlong
  rw [CharBuf.ofRaw?, dif_neg hlong] at h
  exact absurd h (by simp)

/-- Where a pair goes into one array, it goes into any with room. -/
theorem kvArrayAdd_of_room {fields fields' fields₂ : FrameFields} {key value : Bytes}
    (h : kvArrayAdd fields key value = some fields')
    (hroom : fields₂.1.length < frameDataMaxFields) :
    ∃ fields₂', kvArrayAdd fields₂ key value = some fields₂' ∧
      fields₂'.1.length = fields₂.1.length + 1 := by
  obtain ⟨hkey, hvalue, -, f, hkeycopy, hvaluecopy, -⟩ := kvArrayAdd_eq_some h
  rw [kvArrayAdd, if_neg (not_or.mpr ⟨hkey, hvalue⟩), hkeycopy, hvaluecopy]
  exact ⟨_, dif_pos hroom, List.length_append⟩

/-- A pair more. -/
theorem length_of_kvArrayAdd {fields fields' : FrameFields} {key value : Bytes}
    (h : kvArrayAdd fields key value = some fields') :
    fields'.1.length = fields.1.length + 1 := by
  obtain ⟨-, -, -, f, -, -, happend⟩ := kvArrayAdd_eq_some h
  rw [happend, List.length_append, List.length_singleton]

/-- **A `fields` object** that one array had room for is read into a shorter one as well. -/
theorem scanFields_of_le {p rest : Bytes} {fields fields' fields₂ : FrameFields}
    (h : scanFields fieldMember p fields = (some rest, fields'))
    (hle : fields₂.1.length ≤ fields.1.length) :
    ∃ fields₂', scanFields fieldMember p fields₂ = (some rest, fields₂') ∧
      fields₂'.1.length ≤ fields'.1.length := by
  obtain ⟨p', rfl, hrun⟩ := (scanFields_eq_some_iff fieldMember_consumes).mp h
  obtain ⟨fields₂', hrun₂, hle'⟩ := hrun.simulate
    (R := fun fs fs₂ : FrameFields => fs₂.1.length ≤ fs.1.length)
    (fun {key q q' fs fs₁ fs₂} hv _ hle => by
      obtain ⟨value, hscan, hadd⟩ := fieldMember_eq_some_iff.mp hv
      have hroom : fs₂.1.length < frameDataMaxFields :=
        Nat.lt_of_le_of_lt hle (kvArrayAdd_eq_some hadd).2.2.1
      have hgrown := length_of_kvArrayAdd hadd
      obtain ⟨fs₂', hadd₂, hgrown₂⟩ := kvArrayAdd_of_room hadd hroom
      refine ⟨fs₂', fieldMember_eq_some_iff.mpr ⟨value, hscan, hadd₂⟩, ?_⟩
      omega) hle
  exact ⟨fields₂', (scanFields_eq_some_iff fieldMember_consumes).mpr ⟨p', rfl, hrun₂⟩, hle'⟩

theorem skipField_consumes : Consumes skipField := by
  intro key p u rest u' h
  obtain ⟨⟨text, rest'⟩, hscan, rfl⟩ := Option.map_eq_some_iff.mp (Prod.mk.inj h).1
  exact scanFieldValue_suffix hscan

/-- It is passed over to the same place. -/
theorem readValue_fields {p rest : Bytes} {fields fields' : FrameFields}
    (h : scanFields fieldMember p fields = (some rest, fields')) :
    readValue (ascii "fields") p = some (.object, rest) := by
  obtain ⟨p', rfl, hrun⟩ := (scanFields_eq_some_iff fieldMember_consumes).mp h
  obtain ⟨u, hskip, -⟩ : ∃ u, ObjectRun skipField p' () rest u ∧ True := hrun.simulate
    (R := fun _ _ => True) (fun hv _ _ => by
      obtain ⟨value, hscan, -⟩ := fieldMember_eq_some_iff.mp hv
      refine ⟨(), ?_, trivial⟩
      rw [skipField, hscan]
      rfl) trivial
  have hscan := (scanObject_eq_some_iff skipField_consumes).mpr hskip
  rw [readValue, if_pos rfl, if_pos rfl, hscan]
  rfl

/-- What the two parsers have read alike: no more fields than the DATA decoder, and the
type `DATA` where that has found it. -/
structure ReadAlike (st : DataScan) (obj : JsonObject) : Prop where
  fields_le : obj.fields.1.length ≤ st.data.fields.1.length
  foundType : obj.foundType = st.foundType
  typeValue : obj.foundType = true → obj.typeValue.bytes = ascii "DATA"

/-- **A string** the DATA decoder takes. -/
theorem objectString_of_dataString {key text : Bytes} {st st' : DataScan} {obj : JsonObject}
    (h : dataString key text st = some st') (halike : ReadAlike st obj)
    (hpass : PassesObject (key, .string text)) :
    ∃ obj', objectString key text obj = some obj' ∧ ReadAlike st' obj' := by
  obtain ⟨hsender, hled, herror⟩ := hpass
  unfold dataString at h
  unfold objectString
  -- `node`: both copy it under the same bound
  split at h
  · obtain ⟨nodeId, hcopy, rfl⟩ := Option.map_eq_some_iff.mp h
    rename_i hnode
    rw [if_pos hnode, hcopy]
    exact ⟨_, rfl, { halike with }⟩
  rename_i hnode
  rw [if_neg hnode]
  -- `type`: the DATA decoder takes only `DATA`, and that fits
  split at h
  · rename_i htype
    subst htype
    split at h
    · rename_i htext
      subst htext
      have hcopy : CharBuf.ofRaw? 8 (ascii "DATA") = some ⟨⟨ascii "DATA", by decide⟩, by decide⟩ :=
        (CharBuf.ofRaw?_eq_some_iff (by decide)).mpr rfl
      rw [if_neg (by decide), if_pos rfl, hcopy, ← Option.some.inj h]
      exact ⟨_, rfl, { halike with foundType := rfl, typeValue := fun _ => rfl }⟩
    · exact absurd h (by simp)
  rename_i htype
  obtain rfl := Option.some.inj h
  -- the keys of the other messages: passing the checks is all they need
  split
  · rename_i hkey
    obtain ⟨sender, hcopy⟩ := exists_ofRaw? (hsender hkey)
    rw [hcopy]
    exact ⟨_, rfl, { halike with }⟩
  split
  · rename_i hkey
    obtain ⟨hne, hlength⟩ := hled hkey
    rw [if_neg (not_or.mpr ⟨hne, Nat.not_le.mpr hlength⟩)]
    exact ⟨_, rfl, { halike with }⟩
  split
  · rename_i hkey
    obtain ⟨hne, hlength⟩ := herror hkey
    obtain ⟨error, hcopy⟩ := exists_ofRaw? hlength
    rw [if_neg hne, hcopy]
    exact ⟨_, rfl, { halike with }⟩
  · exact ⟨_, rfl, halike⟩

/-- And one `json_parse_object` takes. -/
theorem passesObject_of_objectString {key text : Bytes} {obj obj' : JsonObject}
    (h : objectString key text obj = some obj') : PassesObject (key, .string text) := by
  refine ⟨?_, ?_, ?_⟩
  · rintro rfl
    rw [objectString, if_neg (by decide), if_pos rfl] at h
    obtain ⟨sender, hcopy, -⟩ := Option.map_eq_some_iff.mp h
    exact length_lt_of_ofRaw? hcopy
  · rintro rfl
    rw [objectString, if_neg (by decide), if_neg (by decide), if_neg (by decide), if_pos rfl] at h
    split at h
    · exact absurd h (by simp)
    rename_i hfits
    rw [not_or] at hfits
    exact ⟨hfits.1, Nat.not_le.mp hfits.2⟩
  · rintro rfl
    rw [objectString, if_neg (by decide), if_neg (by decide), if_neg (by decide),
      if_neg (by decide), if_pos rfl] at h
    split at h
    · exact absurd h (by simp)
    rename_i hne
    obtain ⟨error, hcopy, -⟩ := Option.map_eq_some_iff.mp h
    exact ⟨hne, length_lt_of_ofRaw? hcopy⟩

/-- A member of `json_parse_object` that is a number. -/
theorem objectMember_number_eq_some_iff {key p rest : Bytes} {b : Byte} {obj obj' : JsonObject}
    (hkey : key ≠ ascii "fields") (hb : b ≠ Ascii.quote) :
    objectMember key (b :: p) obj = (some rest, obj') ↔
      ∃ negative value, scanNumber (b :: p) = some (negative, value, rest) ∧
        objectNumber key negative value obj = some obj' := by
  rw [objectMember.eq_def, if_neg hkey]
  simp only [if_neg hb]
  cases scanNumber (b :: p) with
  | none => simp
  | some r =>
    obtain ⟨negative, value, rest'⟩ := r
    simp only [Option.some.injEq, Prod.mk.injEq]
    cases hnumber : objectNumber key negative value obj with
    | none =>
      constructor
      · exact fun h => absurd (Prod.mk.inj h).1 (by simp)
      · rintro ⟨negative', value', ⟨rfl, rfl, -⟩, h⟩
        rw [hnumber] at h
        exact absurd h (by simp)
    | some obj₁ =>
      constructor
      · intro h
        obtain ⟨hrest, rfl⟩ := Prod.mk.inj h
        exact ⟨negative, value, ⟨rfl, rfl, Option.some.inj hrest⟩, hnumber⟩
      · rintro ⟨negative', value', ⟨rfl, rfl, rfl⟩, h⟩
        rw [hnumber] at h
        rw [Option.some.inj h]

/-- **A number** is taken, unless it is a negative sequence. -/
theorem objectNumber_readAlike {key : Bytes} {negative : Bool} {st : DataScan} {obj : JsonObject}
    (halike : ReadAlike st obj) (hseq : key = ascii "seq" → negative = false) (value : ℕ) :
    ∃ obj', objectNumber key negative value obj = some obj' ∧ ReadAlike st obj' := by
  unfold objectNumber
  split
  · rename_i hkey
    rw [hseq hkey]
    exact ⟨_, rfl, { halike with }⟩
  split
  · exact ⟨_, rfl, { halike with }⟩
  · exact ⟨_, rfl, halike⟩

/-- What the DATA decoder has read of a number. -/
structure DataNumber (key p rest : Bytes) (st st' : DataScan) : Prop where
  rest_eq : rest = behindNumber p
  seq : key = ascii "seq" → (p.head? == some Ascii.minus) = false
  foundType : st'.foundType = st.foundType
  fields_le : st.data.fields.1.length ≤ st'.data.fields.1.length

/-- A temperature or a humidity has no exponent, so what follows it is what follows the
number. -/
theorem dataX10_number {key p rest : Bytes} {st st' : DataScan}
    (h : dataX10 key p st = (some rest, st')) (hsep : Separated rest)
    (hseq : key ≠ ascii "seq") : DataNumber key p rest st st' := by
  rw [dataX10] at h
  split at h
  · exact absurd (Prod.mk.inj h).1 (by simp)
  rename_i x10 q hx10
  simp only at h
  split at h
  · exact absurd (Prod.mk.inj h).1 (by simp)
  rename_i fields hadd
  obtain ⟨hrest, rfl⟩ := Prod.mk.inj h
  obtain rfl := Option.some.inj hrest
  have hgrown := length_of_kvArrayAdd hadd
  refine ⟨?_, fun hkey => absurd hkey hseq, rfl, Nat.le_of_lt (hgrown ▸ Nat.lt_succ_self _)⟩
  rw [jsonParseX10] at hx10
  split at hx10
  · exact absurd hx10 (by simp)
  rename_i b r hdigits
  split at hx10
  · exact absurd hx10 (by simp)
  split at hx10
  · exact absurd hx10 (by simp)
  rename_i intPart q' hloop
  simp only [Option.some.injEq, Prod.mk.injEq] at hx10
  -- `json_parse_x10` stops behind the fraction
  have hrest : q = skipFraction (skipDigits (skipOneOf [Ascii.minus] p)) := by
    rw [← (digitLoop_eq_some hloop).2]
    exact hx10.2.symm
  rw [behindNumber, ← hrest]
  exact (skipExponent_of_separated hsep).symm

/-- **A number** the DATA decoder takes, with what a run has behind it. -/
theorem dataMember_number {key p rest : Bytes} {b : Byte} {st st' : DataScan}
    (hkey : key ≠ ascii "fields") (hb : b ≠ Ascii.quote)
    (h : dataMember key (b :: p) st = (some rest, st')) (hsep : Separated rest) :
    DataNumber key (b :: p) rest st st' := by
  rw [dataMember.eq_def, if_neg hkey] at h
  simp only [if_neg hb] at h
  split_ifs at h with hx10 hseq
  · refine dataX10_number h hsep ?_
    rintro rfl
    exact absurd hx10 (by decide)
  -- the sequence: without a minus; a fraction and an exponent are skipped
  · rw [dataSeq] at h
    split at h
    · exact absurd (Prod.mk.inj h).1 (by simp)
    rename_i hminus
    split at h
    · exact absurd (Prod.mk.inj h).1 (by simp)
    rename_i value q hloop
    obtain ⟨hrest, rfl⟩ := Prod.mk.inj h
    have hskip : skipOneOf [Ascii.minus] (b :: p) = b :: p := by
      rw [skipOneOf, if_neg]
      intro hmem
      rw [List.mem_singleton.mp hmem] at hminus
      exact hminus rfl
    refine ⟨?_, fun _ => beq_eq_false_iff_ne.mpr hminus, rfl, Nat.le_refl _⟩
    rw [behindNumber, hskip, ← (digitLoop_eq_some hloop).2]
    exact (Option.some.inj hrest).symm
  · obtain ⟨hrest, rfl⟩ := Prod.mk.inj h
    exact ⟨(Option.some.inj hrest).symm, fun hkey => absurd hkey hseq, rfl, Nat.le_refl _⟩

/-! ## In lockstep -/

/-- What is read at a value of the DATA decoder that is followed by a separator. -/
theorem readValue_of_dataMember {key q q' : Bytes} {st st' : DataScan}
    (h : dataMember key q st = (some q', st')) (hsep : Separated q') :
    ∃ v, readValue key q = some (v, q') := by
  by_cases hkey : key = ascii "fields"
  · subst hkey
    obtain ⟨fields, hscan, -⟩ := dataMember_fields_eq_some_iff.mp h
    exact ⟨_, readValue_fields hscan⟩
  cases q with
  | nil =>
    rw [dataMember.eq_def, if_neg hkey] at h
    exact absurd (Prod.mk.inj h).1 (by simp)
  | cons b q =>
    rw [readValue, if_neg hkey]
    by_cases hb : b = Ascii.quote
    · subst hb
      rw [dataMember_string hkey] at h
      obtain ⟨text, hscan, -⟩ := stringValue_eq_some_iff.mp h
      rw [if_pos rfl, hscan]
      exact ⟨_, rfl⟩
    · rw [if_neg hb, ← (dataMember_number hkey hb h hsep).rest_eq]
      exact ⟨_, rfl⟩

/-- **`json_parse_object` follows the DATA decoder** exactly on the members that pass its
checks. -/
theorem dataObject_lockstep :
    Lockstep readValue dataMember objectMember ReadAlike PassesObject where
  read_eq := readValue_of_dataMember
  follows := by
    intro key q q' v st st₁ obj hdata hsep hread halike hpass
    -- the fields are scanned alike, from no more of them than there
    by_cases hkey : key = ascii "fields"
    · subst hkey
      obtain ⟨fields, hscan, rfl⟩ := dataMember_fields_eq_some_iff.mp hdata
      obtain ⟨fields₂, hscan₂, hle⟩ := scanFields_of_le hscan halike.fields_le
      exact ⟨_, objectMember_fields_eq_some_iff.mpr ⟨fields₂, hscan₂, rfl⟩,
        { halike with fields_le := hle }⟩
    cases q with
    | nil => exact absurd hread (by simp [readValue])
    | cons b q =>
      rw [readValue, if_neg hkey] at hread
      by_cases hb : b = Ascii.quote
      · subst hb
        rw [dataMember_string hkey] at hdata
        obtain ⟨text, hscan, hstring⟩ := stringValue_eq_some_iff.mp hdata
        rw [if_pos rfl, hscan] at hread
        cases hread
        obtain ⟨obj', hobject, halike'⟩ := objectString_of_dataString hstring halike hpass
        rw [objectMember_string hkey]
        exact ⟨obj', stringValue_eq_some_iff.mpr ⟨text, hscan, hobject⟩, halike'⟩
      -- a number: both end behind it, at the same place
      · rw [if_neg hb] at hread
        cases hread
        have hnumber := dataMember_number hkey hb hdata hsep
        have hread : ReadAlike st₁ obj :=
          ⟨halike.fields_le.trans hnumber.fields_le,
            halike.foundType.trans hnumber.foundType.symm, halike.typeValue⟩
        obtain ⟨obj', hobject, halike'⟩ := objectNumber_readAlike hread hnumber.seq
          (decimalValue (leadingDigits (b :: q)))
        refine ⟨obj', (objectMember_number_eq_some_iff hkey hb).mpr ⟨_, _, ?_, hobject⟩, halike'⟩
        exact scanNumber_eq_some_iff.mpr ⟨hpass, rfl, rfl, rfl⟩
  admits := by
    intro key q q' v st st₁ obj q'' obj' hdata hsep hread halike hobject
    by_cases hkey : key = ascii "fields"
    · subst hkey
      obtain ⟨fields, hscan, -⟩ := dataMember_fields_eq_some_iff.mp hdata
      rw [readValue_fields hscan] at hread
      cases hread
      exact trivial
    cases q with
    | nil => exact absurd hread (by simp [readValue])
    | cons b q =>
      rw [readValue, if_neg hkey] at hread
      by_cases hb : b = Ascii.quote
      · subst hb
        rw [objectMember_string hkey] at hobject
        obtain ⟨text, hscan, hstring⟩ := stringValue_eq_some_iff.mp hobject
        rw [if_pos rfl, hscan] at hread
        cases hread
        exact passesObject_of_objectString hstring
      · rw [if_neg hb] at hread
        cases hread
        obtain ⟨negative, value, hscan, -⟩ :=
          (objectMember_number_eq_some_iff hkey hb).mp hobject
        exact (scanNumber_eq_some_iff.mp hscan).1

theorem readValue_suffix {key p rest : Bytes} {v : MemberValue}
    (h : readValue key p = some (v, rest)) : rest <:+ p := by
  cases p with
  | nil => exact absurd h (by simp [readValue])
  | cons b p =>
    rw [readValue] at h
    split_ifs at h with hkey hbrace hquote
    · obtain ⟨rest', hscan, heq⟩ := Option.map_eq_some_iff.mp h
      obtain ⟨-, rfl⟩ := Prod.mk.inj heq
      obtain ⟨w, rfl⟩ := ((scanObject_eq_some_iff skipField_consumes).mp
        (Prod.ext hscan rfl)).exists_closeBrace skipField_consumes
      exact ((List.suffix_cons _ rest').trans (List.suffix_append w _)).trans (List.suffix_cons b _)
    · obtain ⟨⟨text, rest'⟩, hscan, heq⟩ := Option.map_eq_some_iff.mp h
      obtain ⟨-, rfl⟩ := Prod.mk.inj heq
      exact (scanString_suffix hscan).trans (List.suffix_cons b p)
    · obtain ⟨-, rfl⟩ := Prod.mk.inj (Option.some.inj h)
      exact (behindNumber_behind _).suffix

/-- **The look at the type of a DATA line** finds `DATA` if every member of the line passes
the checks of `json_parse_object`, and nothing if one does not. -/
theorem messageJsonPeekType_of_decodeData {line : Bytes} {consumed : ℕ} {old data : FrameData}
    (h : messageJsonDecodeData line old = (some consumed, data)) :
    messageJsonPeekType line 8 =
      if ∀ m ∈ members line, PassesObject m then some (cstr (ascii "DATA")) else none := by
  obtain ⟨-, st, hparse, -, -, hfound, -⟩ := messageJsonDecodeData_eq_some_iff.mp h
  obtain ⟨p, rest, hskip, hrun, hconsumed⟩ := (parseWith_eq_some_iff dataMember_consumes).mp hparse
  have hzero : ReadAlike DataScan.zero JsonObject.zero := ⟨le_rfl, rfl, nofun⟩
  obtain ⟨ms, hlist, hfollow, hadmitted⟩ := dataObject_lockstep.run hrun hzero []
  have hmembers : members line = ms := by
    have hlisted := (parseWith_eq_some_iff (listMember_consumes readValue_suffix)).mpr
      ⟨p, rest, hskip, hlist, rfl⟩
    rw [members, hlisted, List.nil_append]
  rw [hmembers]
  by_cases hpass : ∀ m ∈ ms, PassesObject m
  · rw [if_pos hpass]
    obtain ⟨obj, hobject, halike⟩ := hfollow hpass
    have hparsed : jsonParseObject line = (some (line.length - rest.length), obj) :=
      (parseWith_eq_some_iff objectMember_consumes).mpr ⟨p, rest, hskip, hobject, rfl⟩
    have htype : obj.foundType = true := halike.foundType.trans hfound
    have hvalue := halike.typeValue htype
    have hlength : ¬ 8 < obj.typeValue.bytes.length + 1 := by
      rw [hvalue]
      decide
    rw [messageJsonPeekType, if_neg (by decide), hparsed]
    simp only [htype, Bool.not_true, Bool.false_eq_true, if_false, if_neg hlength]
    have htext : obj.typeValue.toCStr = cstr (ascii "DATA") :=
      congrArg CharBuf.toCStr (CharBuf.ext_bytes (b := CharBuf.lit 8 "DATA") hvalue)
    rw [htext]
  -- a parse that came through would have passed every member
  · rw [if_neg hpass, messageJsonPeekType, if_neg (by decide)]
    cases hparsed : jsonParseObject line with
    | mk out obj =>
      cases out with
      | none => rfl
      | some c =>
        obtain ⟨p', rest', hskip', hobject, -⟩ :=
          (parseWith_eq_some_iff objectMember_consumes).mp hparsed
        rw [hskip] at hskip'
        obtain ⟨-, rfl⟩ := List.cons.inj hskip'
        exact absurd (hadmitted hobject) hpass

end SmartGateway
