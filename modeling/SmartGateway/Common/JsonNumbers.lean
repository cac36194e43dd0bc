import SmartGateway.Common.JsonMembers
import SmartGateway.Common.JsonStable
import Mathlib.Data.Rat.Floor
import Mathlib.Tactic.Positivity
import Mathlib.Tactic.FieldSimp
import Mathlib.Tactic.Linarith

/-!
# What numbers are decoded to

A number of a line against the rational number it denotes. The sequence and the older
`led` are read off the integer part: a fraction and an exponent are consumed and do not
count. The older `temperature` and `humidity` are multiplied by ten and cut off behind
the first decimal; the guard against an overflow looks at the integer part before it is
multiplied, so between the guard and the range of an `int` the result is a wrong one.
-/

namespace SmartGateway

open Numeral ObjectScan

/-! ## What a number denotes -/

/-- The integer part with its sign. -/
def NumberText.integerPart (n : NumberText) : ℤ :=
  if n.minus then -(decimalValue n.digits.1 : ℤ) else decimalValue n.digits.1

/-- What a fraction adds. -/
def fractionValue : Option Digits → ℚ
  | none => 0
  | some ds => decimalValue ds.1 / 10 ^ ds.1.length

/-- The power of ten of an exponent. -/
def exponentValue : Option ExponentText → ℚ
  | none => 1
  | some e =>
    if e.sign.map (fun b => b.1) = some Ascii.minus then (10 ^ decimalValue e.digits.1)⁻¹
    else 10 ^ decimalValue e.digits.1

/-- The number a text denotes. -/
def NumberText.value (n : NumberText) : ℚ :=
  (if n.minus then -1 else 1) * (decimalValue n.digits.1 + fractionValue n.fraction) *
    exponentValue n.exponent

/-- The integer a text spells: digits, with a sign before them if there is one. -/
def spelledInt (text : Bytes) : Option ℤ :=
  let digits := skipOneOf [Ascii.plus, Ascii.minus] text
  if digits ≠ [] ∧ ∀ b ∈ digits, isDigit b = true then
    some (if text.head? = some Ascii.minus then -(decimalValue digits : ℤ) else decimalValue digits)
  else
    none

/-- The integer of a value: the integer part of a number, or what a string spells. -/
def ValueText.integer : ValueText → Option ℤ
  | .number n => some n.integerPart
  | .string text => spelledInt text.1
  | .object _ => none

/-- An integer in decimal. -/
def intDigits (z : ℤ) : Bytes :=
  if z < 0 then Ascii.minus :: decimal z.natAbs else decimal z.toNat

/-! ## The last member of a name -/

/-- The number under a name, if the member is one. -/
def memberNumber (name : Bytes) (m : MemberText ValueText) : Option NumberText :=
  match m.value with
  | .number n => if m.key.1 = name then some n else none
  | _ => none

theorem memberNumber_eq_some {name : Bytes} {m : MemberText ValueText} {n : NumberText}
    (h : memberNumber name m = some n) : m.value = .number n ∧ m.key.1 = name := by
  unfold memberNumber at h
  split at h
  · rename_i n' hvalue
    split_ifs at h with hkey
    rw [← Option.some.inj h]
    exact ⟨hvalue, hkey⟩
  · exact absurd h (by simp)

/-- The value under a name. -/
def memberValue (name : Bytes) (m : MemberText ValueText) : Option ValueText :=
  if m.key.1 = name then some m.value else none

/-- The last number under a name. -/
def LineText.lastNumber (name : Bytes) (t : LineText) : Option NumberText :=
  (t.object.members.filterMap (memberNumber name)).getLast?

/-- The last value under a name. -/
def LineText.lastValue (name : Bytes) (t : LineText) : Option ValueText :=
  (t.object.members.filterMap (memberValue name)).getLast?

/-! ## What is found in the object -/

/-- The sequence, if one was found. -/
def JsonObject.seq? (obj : JsonObject) : Option ℕ :=
  if obj.foundSeq then some obj.sequence.toNat else none

/-- The older parameter, if one was found. -/
def JsonObject.led? (obj : JsonObject) : Option (BitVec 32) :=
  if obj.foundLed then some obj.ledValue else none

/-- What `led` is set to. -/
def ledOf : ValueText → BitVec 32
  | .string text => atoi (cstr text.1)
  | .number n => BitVec.ofInt 32 n.integerPart
  | .object _ => 0

/-- What a string can change, by its key. -/
theorem objectString_found {key text : Bytes} {obj obj' : JsonObject}
    (h : objectString key text obj = some obj') :
    obj'.seq? = obj.seq? ∧ obj'.foundFields = obj.foundFields ∧
      obj'.led? = (if key = ascii "led" then some (atoi (cstr text)) else none).or obj.led? := by
  unfold objectString at h
  split at h
  · rename_i hkey
    obtain ⟨nodeId, -, rfl⟩ := Option.map_eq_some_iff.mp h
    exact ⟨rfl, rfl, by rw [hkey]; rfl⟩
  split at h
  · rename_i hkey
    obtain ⟨sender, -, rfl⟩ := Option.map_eq_some_iff.mp h
    exact ⟨rfl, rfl, by rw [hkey]; rfl⟩
  split at h
  · rename_i hkey
    obtain ⟨typeValue, -, rfl⟩ := Option.map_eq_some_iff.mp h
    exact ⟨rfl, rfl, by rw [hkey]; rfl⟩
  split at h
  · rename_i hkey
    split at h
    · exact absurd h (by simp)
    · rw [if_pos hkey, ← Option.some.inj h]
      exact ⟨rfl, rfl, rfl⟩
  rename_i hled
  split at h
  · split at h
    · exact absurd h (by simp)
    · obtain ⟨error, -, rfl⟩ := Option.map_eq_some_iff.mp h
      exact ⟨rfl, rfl, by rw [if_neg hled]; rfl⟩
  · rw [if_neg hled, ← Option.some.inj h]
    exact ⟨rfl, rfl, rfl⟩

/-- What a number that fits can change, by its key. -/
theorem objectNumber_found {key : Bytes} {n : NumberText}
    (hfits : decimalValue n.digits.1 ≤ 0xFFFFFFFF) {obj obj' : JsonObject}
    (h : objectNumber key n.minus (decimalValue n.digits.1) obj = some obj') :
    obj'.seq? = (if key = ascii "seq" then some (decimalValue n.digits.1) else none).or obj.seq? ∧
      obj'.foundFields = obj.foundFields ∧
      obj'.led? = (if key = ascii "led" then some (ledOf (.number n)) else none).or obj.led? := by
  unfold objectNumber at h
  split at h
  · rename_i hkey
    split at h
    · exact absurd h (by simp)
    · rw [if_pos hkey, ← Option.some.inj h]
      refine ⟨?_, rfl, by rw [hkey]; rfl⟩
      have hto : (UInt32.ofNat (decimalValue n.digits.1)).toNat = decimalValue n.digits.1 :=
        UInt32.toNat_ofNat_of_lt' (Nat.lt_succ_of_le hfits)
      rw [JsonObject.seq?, if_pos rfl, hto]
      rfl
  rename_i hseq
  split at h
  · rename_i hled
    rw [if_neg hseq, if_pos hled, ← Option.some.inj h]
    refine ⟨rfl, rfl, ?_⟩
    rw [JsonObject.led?, if_pos rfl, ledOf, NumberText.integerPart]
    cases n.minus with
    | true => simp [BitVec.ofInt_neg]
    | false => simp
  · rename_i hled
    rw [if_neg hseq, if_neg hled, ← Option.some.inj h]
    exact ⟨rfl, rfl, rfl⟩

/-- **What a member writes**: a number under `seq` the sequence, a string or a number
under `led` the older parameter, and `fields` that there are fields. -/
theorem objectStep_found {m : MemberText ValueText} {obj obj' : JsonObject}
    (h : objectRules.step m.key.1 m.value obj = some obj') :
    obj'.seq? = ((memberNumber (ascii "seq") m).map fun n => decimalValue n.digits.1).or obj.seq? ∧
      obj'.led? = ((memberValue (ascii "led") m).map ledOf).or obj.led? ∧
      obj'.foundFields = (decide (m.key.1 = ascii "fields") || obj.foundFields) := by
  unfold memberNumber memberValue
  -- under `fields` only an object comes through, and it writes the flag alone
  by_cases hfields : m.key.1 = ascii "fields"
  · rw [hfields] at h ⊢
    cases hvalue : m.value with
    | object o =>
      rw [hvalue, objectRules.step_fields_object obj o] at h
      obtain ⟨fields, -, rfl⟩ := Option.map_eq_some_iff.mp h
      exact ⟨rfl, rfl, rfl⟩
    | string text =>
      rw [hvalue, objectRules.step_fields_string obj text] at h
      exact absurd h (by simp)
    | number n =>
      rw [hvalue, objectRules.step_fields_number obj n] at h
      exact absurd h (by simp)
  rw [decide_eq_false hfields, Bool.false_or]
  cases hvalue : m.value with
  | object o =>
    rw [hvalue, objectRules.step_object obj hfields o] at h
    exact absurd h (by simp)
  | string text =>
    rw [hvalue, objectRules.step_string obj hfields text] at h
    obtain ⟨hseq, hfound, hled⟩ := objectString_found h
    refine ⟨hseq, ?_, hfound⟩
    rw [hled]
    split_ifs
    · rfl
    · rfl
  | number n =>
    rw [hvalue, objectRules.step_number obj hfields n] at h
    change readObjectNumber m.key.1 n obj = some obj' at h
    unfold readObjectNumber at h
    split_ifs at h with hread
    obtain ⟨hseq, hfound, hled⟩ := objectNumber_found hread.2 h
    refine ⟨?_, ?_, hfound⟩
    · rw [hseq]
      dsimp only
      split_ifs
      · rfl
      · rfl
    · rw [hled]
      split_ifs
      · rfl
      · rfl

/-- What is found in the end. -/
theorem jsonParseObject_found {t : LineText} {consumed : ℕ} {obj : JsonObject}
    (h : jsonParseObject t.text = (some consumed, obj)) :
    obj.seq? = (t.lastNumber (ascii "seq")).map (fun n => decimalValue n.digits.1) ∧
      obj.led? = (t.lastValue (ascii "led")).map ledOf ∧
      obj.foundFields = t.object.members.any fun m => decide (m.key.1 = ascii "fields") := by
  obtain ⟨hrun, -⟩ := (objectMember_readsBy.parseWith_text objectMember_consumes t).mp h
  have hseq := runMembers_last JsonObject.seq? (memberNumber (ascii "seq"))
    (fun n => decimalValue n.digits.1) (fun hstep => (objectStep_found hstep).1) hrun
  have hled := runMembers_last JsonObject.led? (memberValue (ascii "led")) ledOf
    (fun hstep => (objectStep_found hstep).2.1) hrun
  have hfields := runMembers_any JsonObject.foundFields
    (fun m => decide (m.key.1 = ascii "fields")) (fun hstep => (objectStep_found hstep).2.2) hrun
  exact ⟨hseq.trans (Option.or_none ..), hled.trans (Option.or_none ..),
    hfields.trans (Bool.or_false _)⟩

/-- A number under `seq` or `led` has digits within 32 bits, and under `seq` no minus. -/
theorem objectStep_number {key : Bytes} {n : NumberText} {obj obj' : JsonObject}
    (hkey : key = ascii "seq" ∨ key = ascii "led")
    (h : objectRules.step key (.number n) obj = some obj') :
    (n.digits.1 ≠ [] ∧ decimalValue n.digits.1 ≤ 0xFFFFFFFF) ∧
      (key = ascii "seq" → n.minus = false) := by
  have hfields : key ≠ ascii "fields" := by
    rcases hkey with rfl | rfl
    · decide
    · decide
  rw [objectRules.step_number obj hfields] at h
  change readObjectNumber key n obj = some obj' at h
  unfold readObjectNumber at h
  split_ifs at h with hread
  refine ⟨hread, fun hseq => ?_⟩
  unfold objectNumber at h
  rw [if_pos hseq] at h
  split at h
  · exact absurd h (by simp)
  · rename_i hminus
    exact eq_false_of_ne_true hminus

/-! ## What is found in a DATA line -/

def DataScan.seq? (st : DataScan) : Option ℕ :=
  if st.foundSeq then some st.sequence.toNat else none

/-- Only a number under `seq` writes the sequence; it has no minus and fits 32 bits. -/
theorem dataStep_seq {m : MemberText ValueText} {st st' : DataScan}
    (h : dataRules.step m.key.1 m.value st = some st') :
    st'.seq? = ((memberNumber (ascii "seq") m).map fun n => decimalValue n.digits.1).or st.seq? ∧
      ∀ n ∈ memberNumber (ascii "seq") m,
        n.minus = false ∧ decimalValue n.digits.1 ≤ 0xFFFFFFFF := by
  unfold memberNumber
  -- `fields` is the one key of an object, and leaves the sequence
  by_cases hfields : m.key.1 = ascii "fields"
  · rw [hfields] at h ⊢
    cases hvalue : m.value with
    | object o =>
      rw [hvalue, dataRules.step_fields_object st o] at h
      obtain ⟨fields, -, rfl⟩ := Option.map_eq_some_iff.mp h
      exact ⟨rfl, nofun⟩
    | string text =>
      rw [hvalue, dataRules.step_fields_string st text] at h
      exact absurd h (by simp)
    | number n =>
      rw [hvalue, dataRules.step_fields_number st n] at h
      exact absurd h (by simp)
  cases hvalue : m.value with
  | object o =>
    rw [hvalue, dataRules.step_object st hfields o] at h
    exact absurd h (by simp)
  | string text =>
    rw [hvalue, dataRules.step_string st hfields text] at h
    change dataString m.key.1 text.1 st = some st' at h
    refine ⟨?_, nofun⟩
    unfold dataString at h
    split at h
    · obtain ⟨nodeId, -, rfl⟩ := Option.map_eq_some_iff.mp h
      rfl
    split at h
    · split at h
      · rw [← Option.some.inj h]
        rfl
      · exact absurd h (by simp)
    · rw [← Option.some.inj h]
      rfl
  | number n =>
    rw [hvalue, dataRules.step_number st hfields n] at h
    change readDataNumber m.key.1 n st = some st' at h
    unfold readDataNumber at h
    dsimp only
    split_ifs at h with hx10 hseq hread
    -- a reading in tenths goes to the fields
    · have hseq : m.key.1 ≠ ascii "seq" := by
        rcases hx10 with hkey | hkey
        · rw [hkey]
          decide
        · rw [hkey]
          decide
      rw [if_neg hseq]
      refine ⟨?_, nofun⟩
      unfold dataTenths at h
      split at h
      · obtain ⟨fields, -, rfl⟩ := Option.map_eq_some_iff.mp h
        rfl
      · exact absurd h (by simp)
    · rw [if_pos hseq, ← Option.some.inj h]
      refine ⟨?_, fun n' hn' => by rw [← Option.some.inj hn']; exact hread⟩
      have hto : (UInt32.ofNat (decimalValue n.digits.1)).toNat = decimalValue n.digits.1 :=
        UInt32.toNat_ofNat_of_lt' (Nat.lt_succ_of_le hread.2)
      rw [DataScan.seq?, if_pos rfl, hto]
      rfl
    · rw [if_neg hseq, ← Option.some.inj h]
      exact ⟨rfl, nofun⟩

theorem parseData_found {t : LineText} {consumed : ℕ} {st : DataScan}
    (h : parseWith dataMember t.text DataScan.zero = (some consumed, st)) :
    st.seq? = (t.lastNumber (ascii "seq")).map fun n => decimalValue n.digits.1 := by
  obtain ⟨hrun, -⟩ := (dataMember_readsBy.parseWith_text dataMember_consumes t).mp h
  exact (runMembers_last DataScan.seq? (memberNumber (ascii "seq"))
    (fun n => decimalValue n.digits.1) (fun hstep => (dataStep_seq hstep).1) hrun).trans
      (Option.or_none ..)

/-! ## The older parameter -/

/-- `atoi` of a text that spells an integer. -/
theorem atoi_spelled {text : Bytes} {z : ℤ} (h : spelledInt text = some z) :
    atoi (cstr text) = BitVec.ofInt 32 z := by
  unfold spelledInt at h
  dsimp only at h
  split at h
  swap
  · exact absurd h (by simp)
  rename_i hdigits
  obtain ⟨hne, hdigits⟩ := hdigits
  cases text with
  | nil => exact absurd rfl hne
  | cons b p =>
    -- only digits and a sign, so `atoi` stops nowhere before the end
    have hall : ∀ c ∈ b :: p, isDigit c = true ∨ c = Ascii.plus ∨ c = Ascii.minus := by
      intro c hc
      rw [skipOneOf] at hdigits
      split at hdigits
      · rename_i hsign
        rcases List.mem_cons.mp hc with rfl | hc
        · exact .inr (by simpa using hsign)
        · exact .inl (hdigits c hc)
      · exact .inl (hdigits c hc)
    have hnul : (0 : Byte) ∉ b :: p := by
      intro h0
      rcases hall 0 h0 with h0 | h0 | h0
      · exact absurd h0 (by decide)
      · exact absurd h0 (by decide)
      · exact absurd h0 (by decide)
    have hspace : isspace b = false := by
      rcases hall b List.mem_cons_self with hb | rfl | rfl
      · have hrange := isDigit_iff.mp hb
        unfold isspace
        rw [Bool.or_eq_false_iff, decide_eq_false_iff_not, Bool.and_eq_false_iff]
        refine ⟨fun hb => ?_, .inr (decide_eq_false fun hle => ?_)⟩
        · rw [hb] at hrange
          exact absurd hrange (by decide)
        · have hle : b.toNat ≤ 13 := UInt8.le_iff_toNat_le.mp hle
          omega
      · decide
      · decide
    have htake : (skipOneOf [Ascii.plus, Ascii.minus] (b :: p)).takeWhile isDigit =
        skipOneOf [Ascii.plus, Ascii.minus] (b :: p) := List.takeWhile_eq_self_iff.mpr hdigits
    unfold atoi
    rw [cstr_bytes_of_nulFree hnul, List.dropWhile_cons_of_neg (by simp [hspace])]
    dsimp only
    rw [htake, ← Option.some.inj h]
    split
    · rw [BitVec.ofInt_neg, BitVec.ofInt_natCast]
    · rw [BitVec.ofInt_natCast]

/-- **`led` is set to the integer of its value**, where that fits an `int`. -/
theorem ledOf_toInt {v : ValueText} {z : ℤ} (h : v.integer = some z) (hlow : -2147483648 ≤ z)
    (hhigh : z ≤ 2147483647) : (ledOf v).toInt = z := by
  have hled : ledOf v = BitVec.ofInt 32 z := by
    cases v with
    | string text => exact atoi_spelled h
    | number n => rw [ledOf, Option.some.inj h]
    | object o => exact absurd h (by simp [ValueText.integer])
  rw [hled]
  exact BitVec.toInt_ofInt_eq_self (by decide) (by norm_num; omega) (by norm_num; omega)

/-- The field an older parameter becomes. -/
theorem messageFields_led {obj : JsonObject} (hfields : obj.foundFields = false)
    {led : BitVec 32} (hled : obj.led? = some led) :
    ∃ f, obj.messageFields.1 = [f] ∧ f.key.bytes = ascii "LED" ∧
      f.value.bytes = intDigits led.toInt := by
  unfold JsonObject.led? at hled
  split at hled
  · rename_i hfound
    refine ⟨⟨⟨⟨ascii "LED", by decide⟩, by decide⟩, intText led⟩, ?_, rfl, rfl⟩
    rw [JsonObject.messageFields, hfields, if_neg (by simp), if_pos hfound, ← Option.some.inj hled]
    rfl
  · exact absurd hled (by simp)

/-! ## Decoded numbers -/

/-- A number without fraction and exponent denotes its integer part. -/
theorem NumberText.value_eq_integerPart {n : NumberText} (hfraction : n.fraction = none)
    (hexponent : n.exponent = none) : n.value = n.integerPart := by
  rw [value, integerPart, hfraction, hexponent, fractionValue, exponentValue]
  cases n.minus with
  | true => simp
  | false => simp

/-- The sequence is the integer part of the last number under `seq`, and so its value where
the number is an integer as it is written. -/
def SeqRead (t : LineText) (n : NumberText) (sequence : UInt32) : Prop :=
  t.lastNumber (ascii "seq") = some n ∧ n.minus = false ∧
    (n.digits.1 ≠ [] → (sequence.toNat : ℤ) = n.integerPart ∧
      (n.fraction = none → n.exponent = none → (sequence.toNat : ℚ) = n.value))

/-- Where there are no fields, a value under `led` becomes one, with the integer the last
of them denotes, if that fits an `int`. -/
def LedRead (t : LineText) (fields : FrameFields) : Prop :=
  (∀ m ∈ t.object.members, m.key.1 ≠ ascii "fields") →
    ∀ v, t.lastValue (ascii "led") = some v → ∀ z, v.integer = some z →
      -2147483648 ≤ z → z ≤ 2147483647 →
        ∃ f, fields.1 = [f] ∧ f.key.bytes = ascii "LED" ∧ f.value.bytes = intDigits z

/-- A number under `seq` or `led` that `json_parse_object` does not take. -/
def NumberRefused (m : MemberText ValueText) (n : NumberText) : Prop :=
  m.value = .number n ∧
    ((m.key.1 = ascii "seq" ∨ m.key.1 = ascii "led") ∧
        (n.digits.1 = [] ∨ 0xFFFFFFFF < decimalValue n.digits.1) ∨
      m.key.1 = ascii "seq" ∧ n.minus = true)

theorem seqRead_of_found {t : LineText} {found : Bool} {sequence : UInt32}
    (hseq : (if found then some sequence.toNat else none) =
      (t.lastNumber (ascii "seq")).map fun n => decimalValue n.digits.1)
    (hfound : found = true)
    (hminus : ∀ m ∈ t.object.members, ∀ n ∈ memberNumber (ascii "seq") m, n.minus = false) :
    ∃ n, SeqRead t n sequence ∧ ∃ m ∈ t.object.members, memberNumber (ascii "seq") m = some n := by
  rw [if_pos hfound] at hseq
  obtain ⟨n, hlast, hvalue⟩ := Option.map_eq_some_iff.mp hseq.symm
  obtain ⟨m, hm, hn⟩ := List.mem_filterMap.mp (List.mem_of_getLast? hlast)
  have hplus := hminus m hm n hn
  have hpart : (sequence.toNat : ℤ) = n.integerPart := by
    rw [NumberText.integerPart, hplus, if_neg (by simp), ← hvalue]
  refine ⟨n, ⟨hlast, hplus, fun _ => ⟨hpart, fun hfraction hexponent => ?_⟩⟩, m, hm, hn⟩
  rw [NumberText.value_eq_integerPart hfraction hexponent, ← hpart]
  rfl

theorem ledRead_of_found {t : LineText} {consumed : ℕ} {obj : JsonObject}
    (h : jsonParseObject t.text = (some consumed, obj)) : LedRead t obj.messageFields := by
  obtain ⟨-, hled, hfound⟩ := jsonParseObject_found h
  intro hnofields v hv z hz hlow hhigh
  have hfalse : obj.foundFields = false := by
    rw [hfound]
    simpa using hnofields
  rw [hv, Option.map_some] at hled
  obtain ⟨f, hfields, hkey, hvalue⟩ := messageFields_led hfalse hled
  exact ⟨f, hfields, hkey, by rw [hvalue, ledOf_toInt hz hlow hhigh]⟩

/-- The sequence of an object. -/
theorem seqRead_of_parse {t : LineText} {consumed : ℕ} {obj : JsonObject}
    (h : jsonParseObject t.text = (some consumed, obj)) (hfound : obj.foundSeq = true) :
    ∃ n, SeqRead t n obj.sequence ∧ n.digits.1 ≠ [] := by
  obtain ⟨hrun, -⟩ := (objectMember_readsBy.parseWith_text objectMember_consumes t).mp h
  have htaken : ∀ m ∈ t.object.members, ∀ n ∈ memberNumber (ascii "seq") m,
      n.digits.1 ≠ [] ∧ n.minus = false := by
    intro m hm n hn
    obtain ⟨hvalue, hkey⟩ := memberNumber_eq_some hn
    obtain ⟨obj₁, obj₂, hstep⟩ := runMembers_mem hrun hm
    rw [hvalue] at hstep
    obtain ⟨⟨hdigits, -⟩, hminus⟩ := objectStep_number (.inl hkey) hstep
    exact ⟨hdigits, hminus hkey⟩
  obtain ⟨n, hread, m, hm, hn⟩ := seqRead_of_found (jsonParseObject_found h).1 hfound
    fun m hm n hn => (htaken m hm n hn).2
  exact ⟨n, hread, (htaken m hm n hn).1⟩

/-- The sequence of a DATA line. -/
theorem seqRead_of_parseData {t : LineText} {consumed : ℕ} {st : DataScan}
    (h : parseWith dataMember t.text DataScan.zero = (some consumed, st))
    (hfound : st.foundSeq = true) : ∃ n, SeqRead t n st.sequence := by
  obtain ⟨hrun, -⟩ := (dataMember_readsBy.parseWith_text dataMember_consumes t).mp h
  obtain ⟨n, hread, -⟩ := seqRead_of_found (parseData_found h) hfound fun m hm n hn => by
    obtain ⟨st₁, st₂, hstep⟩ := runMembers_mem hrun hm
    exact ((dataStep_seq hstep).2 n hn).1
  exact ⟨n, hread⟩

/-- A line with a number that is not taken is refused. -/
theorem jsonParseObject_of_refused {t : LineText} {m : MemberText ValueText}
    (hm : m ∈ t.object.members) {n : NumberText} (h : NumberRefused m n) :
    (jsonParseObject t.text).1.isSome = false := by
  refine jsonParseObject_refused ?_
  cases hrun : runMembers objectRules.step t.object.members JsonObject.zero with
  | none => rfl
  | some obj =>
    obtain ⟨obj₁, obj₂, hstep⟩ := runMembers_mem hrun hm
    obtain ⟨hvalue, ⟨hkey, hbad⟩ | ⟨hkey, hminus⟩⟩ := h
    · rw [hvalue] at hstep
      obtain ⟨⟨hdigits, hfits⟩, -⟩ := objectStep_number hkey hstep
      rcases hbad with hnone | hlarge
      · exact absurd hnone hdigits
      · exact absurd hfits (not_le.mpr hlarge)
    · rw [hvalue] at hstep
      obtain ⟨-, hplus⟩ := objectStep_number (.inl hkey) hstep
      rw [hplus hkey] at hminus
      exact absurd hminus (by simp)

/-- So is a DATA line with a negative sequence, or one over 32 bits. -/
theorem parseData_of_refused {t : LineText} {m : MemberText ValueText}
    (hm : m ∈ t.object.members) {n : NumberText} (hn : memberNumber (ascii "seq") m = some n)
    (hbad : n.minus = true ∨ 0xFFFFFFFF < decimalValue n.digits.1) :
    (parseWith dataMember t.text DataScan.zero).1.isSome = false := by
  cases hparse : parseWith dataMember t.text DataScan.zero with
  | mk out st =>
    cases out with
    | none => rfl
    | some consumed =>
      obtain ⟨hrun, -⟩ := (dataMember_readsBy.parseWith_text dataMember_consumes t).mp hparse
      obtain ⟨st₁, st₂, hstep⟩ := runMembers_mem hrun hm
      obtain ⟨hminus, hfits⟩ := (dataStep_seq hstep).2 n hn
      rcases hbad with hnegative | hlarge
      · rw [hminus] at hnegative
        exact absurd hnegative (by simp)
      · exact absurd hfits (not_le.mpr hlarge)

/-- **What the numbers of a line are decoded to.** Every line a decoder accepts is a text of
members. The sequence is the integer part of the last number under `seq`, and the older
`led` of a command or an ACK the integer of the last value under `led`; a number that
has no digits where `json_parse_object` looks, does not fit 32 bits, or is negative
under `seq` makes the line be refused. -/
theorem jsonNumbers_decoded :
    (∀ line old, (messageJsonDecodeCommand line).1.isSome = true ∨
      (messageJsonDecodeAck line).1.isSome = true ∨ (messageJsonDecodeNack line).1.isSome = true ∨
        (messageJsonDecodeData line old).1.isSome = true → ∃ t : LineText, t.text = line) ∧
    ∀ t : LineText,
      (∀ consumed command, messageJsonDecodeCommand t.text = (some consumed, command) →
        (∃ n, SeqRead t n command.sequence ∧ n.digits.1 ≠ []) ∧ LedRead t command.fields) ∧
      (∀ consumed ack, messageJsonDecodeAck t.text = (some consumed, ack) →
        (∃ n, SeqRead t n ack.sequence ∧ n.digits.1 ≠ []) ∧ LedRead t ack.fields) ∧
      (∀ consumed nack, messageJsonDecodeNack t.text = (some consumed, nack) →
        ∃ n, SeqRead t n nack.sequence ∧ n.digits.1 ≠ []) ∧
      (∀ old consumed data, messageJsonDecodeData t.text old = (some consumed, data) →
        ∃ n, SeqRead t n data.sequence) ∧
      (∀ m ∈ t.object.members, ∀ n, NumberRefused m n →
        (messageJsonDecodeCommand t.text).1.isSome = false ∧
          (messageJsonDecodeAck t.text).1.isSome = false ∧
            (messageJsonDecodeNack t.text).1.isSome = false) ∧
      ∀ m ∈ t.object.members, ∀ n, memberNumber (ascii "seq") m = some n →
        n.minus = true ∨ 0xFFFFFFFF < decimalValue n.digits.1 →
          ∀ old, (messageJsonDecodeData t.text old).1.isSome = false := by
  refine ⟨fun line old => exists_lineText_of_accepted, fun t => ⟨?_, ?_, ?_, ?_, ?_, ?_⟩⟩
  · intro consumed command h
    obtain ⟨obj, hparse, -, -, hseq, -, -, rfl⟩ := messageJsonDecodeCommand_eq_some_iff.mp h
    exact ⟨seqRead_of_parse hparse hseq, ledRead_of_found hparse⟩
  · intro consumed ack h
    obtain ⟨obj, hparse, -, hseq, -, -, rfl⟩ := messageJsonDecodeAck_eq_some_iff.mp h
    exact ⟨seqRead_of_parse hparse hseq, ledRead_of_found hparse⟩
  · intro consumed nack h
    obtain ⟨obj, hparse, -, hseq, -, -, -, rfl⟩ := messageJsonDecodeNack_eq_some_iff.mp h
    exact seqRead_of_parse hparse hseq
  · intro old consumed data h
    obtain ⟨-, st, hparse, -, hseq, -, rfl⟩ := messageJsonDecodeData_eq_some_iff.mp h
    exact seqRead_of_parseData hparse hseq
  · intro m hm n hbad
    have hrefused := jsonParseObject_of_refused hm hbad
    exact ⟨messageJsonDecodeCommand_finishes.refused hrefused,
      messageJsonDecodeAck_finishes.refused hrefused,
      messageJsonDecodeNack_finishes.refused hrefused⟩
  · intro m hm n hn hbad old
    have hrefused := parseData_of_refused hm hn hbad
    exact eq_false_of_ne_true fun h => by
      simp [parseData_of_decodeData h] at hrefused

/-- The command with a sequence of 7. -/
theorem jsonNumbers_decoded_seven :
    ∃ n, SeqRead (plainLine builtOrder) n 7 ∧ n.digits.1 ≠ [] :=
  ((jsonNumbers_decoded.2 (plainLine builtOrder)).1 51
    ⟨.lit 32 "N1", .lit 32 "admin", 7, default⟩ (by decide +kernel)).1

/-- `1e3`. -/
def thousand : NumberText :=
  ⟨false, digitsOf (ascii "1"), none, some ⟨⟨101, by decide⟩, none, digitsOf (ascii "3")⟩⟩

/-- A command whose sequence is written with an exponent. -/
def exponentLine : LineText :=
  plainLine (plainMember (ascii "seq") (.number thousand) :: builtOrder.eraseIdx 2)

/-- It is accepted, with the sequence 1. -/
theorem exponentLine_decoded :
    exponentLine.lastNumber (ascii "seq") = some thousand ∧ thousand.value = 1000 ∧
      (messageJsonDecodeCommand exponentLine.text).1.isSome = true ∧
        (messageJsonDecodeCommand exponentLine.text).2.sequence.toNat = 1 := by
  refine ⟨rfl, ?_, by decide +kernel, by decide +kernel⟩
  have hdigits : decimalValue thousand.digits.1 = 1 := by decide +kernel
  have hexponent : exponentValue thousand.exponent = 1000 := by
    have hthree : decimalValue (digitsOf (ascii "3")).1 = 3 := by decide +kernel
    rw [thousand, exponentValue, if_neg (by simp), hthree]
    norm_num
  rw [NumberText.value, hdigits, hexponent]
  norm_num [thousand, fractionValue]

/-! ## Ten times a number -/

/-- A rational number cut off toward zero. -/
def truncate (x : ℚ) : ℤ := if 0 ≤ x then ⌊x⌋ else ⌈x⌉

theorem truncate_neg (x : ℚ) : truncate (-x) = -truncate x := by
  unfold truncate
  rcases lt_trichotomy x 0 with hx | rfl | hx
  · rw [if_pos (by linarith), if_neg (by linarith), Int.floor_neg]
  · simp
  · rw [if_neg (by linarith), if_pos (by linarith), Int.ceil_neg]

/-- Ten times a fraction is its first digit and something below one. -/
theorem exists_tenth (fraction : Option Digits) :
    ∃ r : ℚ, 0 ≤ r ∧ r < 1 ∧ 10 * fractionValue fraction = firstDigit fraction + r := by
  match fraction with
  | none => exact ⟨0, le_refl 0, one_pos, by simp [fractionValue, firstDigit]⟩
  | some ⟨[], hds⟩ =>
    exact ⟨0, le_refl 0, one_pos, by simp [fractionValue, firstDigit, decimalValue]⟩
  | some ⟨d :: ds, hds⟩ =>
    have hlt := decimalValue_lt fun b hb => hds b (List.mem_cons_of_mem d hb)
    have hpos : (0 : ℚ) < 10 ^ ds.length := by positivity
    have hcast : (decimalValue ds : ℚ) < 10 ^ ds.length := by exact_mod_cast hlt
    refine ⟨decimalValue ds / 10 ^ ds.length, by positivity, (div_lt_one hpos).mpr hcast, ?_⟩
    change 10 * ((decimalValue (d :: ds) : ℚ) / 10 ^ (ds.length + 1)) = (d.toNat - 48 : ℕ) + _
    rw [decimalValue_cons, pow_succ]
    push_cast
    field_simp

/-- **`tenths` is ten times the number, cut off.** -/
theorem NumberText.tenths_eq {n : NumberText} (hexponent : n.exponent = none) :
    n.tenths = truncate (10 * n.value) := by
  obtain ⟨r, hr, hr1, htenth⟩ := exists_tenth n.fraction
  have hfloor : truncate (10 * (decimalValue n.digits.1 + fractionValue n.fraction)) =
      (decimalValue n.digits.1 * 10 + firstDigit n.fraction : ℕ) := by
    have hsum : 10 * ((decimalValue n.digits.1 : ℚ) + fractionValue n.fraction) =
        ((decimalValue n.digits.1 * 10 + firstDigit n.fraction : ℕ) : ℤ) + r := by
      rw [mul_add, htenth]
      push_cast
      ring
    rw [hsum, truncate, if_pos (by positivity), Int.floor_intCast_add,
      Int.floor_eq_zero_iff.mpr ⟨hr, hr1⟩, add_zero]
  rw [tenths, value, hexponent, exponentValue, mul_one]
  cases n.minus with
  | true =>
    rw [if_pos rfl, if_pos rfl, ← hfloor, ← truncate_neg]
    congr 1
    ring
  | false =>
    rw [if_neg (by simp), if_neg (by simp), ← hfloor, one_mul]

/-- Ten times the number, cut off, fits an `int`; or its integer part is so large that the
guard refuses it. -/
def TenthsFit (n : NumberText) : Prop :=
  2147483640 ≤ decimalValue n.digits.1 ∨
    -2147483648 ≤ truncate (10 * n.value) ∧ truncate (10 * n.value) ≤ 2147483647

/-- An `int` holds an integer exactly if it is in range. -/
theorem toInt_ofInt_eq_iff (z : ℤ) :
    (BitVec.ofInt 32 z).toInt = z ↔ -2147483648 ≤ z ∧ z ≤ 2147483647 := by
  constructor
  · intro h
    have hlow := (BitVec.ofInt 32 z).le_toInt
    have hhigh := (BitVec.ofInt 32 z).toInt_lt
    rw [h] at hlow hhigh
    norm_num at hlow hhigh
    omega
  · rintro ⟨hlow, hhigh⟩
    exact BitVec.toInt_ofInt_eq_self (by decide) (by norm_num; omega) (by norm_num; omega)

/-- What `json_parse_x10` stores is the right number exactly if that is in range. -/
theorem jsonParseX10_right_iff {n : NumberText} (hdigits : n.digits.1 ≠ [])
    (hexponent : n.exponent = none) {r : Bytes}
    (hr : ∀ b ∈ r.head?, isDigit b = false ∧ (n.fraction = none → b ≠ Ascii.dot)) :
    (jsonParseX10 (n.text ++ r) = none ∨ ∃ v, jsonParseX10 (n.text ++ r) = some (v, r) ∧
      v.toInt = truncate (10 * n.value)) ↔ TenthsFit n := by
  have hread := jsonParseX10_text n hdigits hr
  have htext : n.text ++ r =
      minusText n.minus ++ (n.digits.1 ++ (fractionText n.fraction ++ r)) := by
    rw [NumberText.text_append, hexponent]
    rfl
  rw [htext, hread, NumberText.tenths_eq hexponent, TenthsFit]
  by_cases hguard : decimalValue n.digits.1 / 10 ≤ 214748363
  · have hsmall : ¬ 2147483640 ≤ decimalValue n.digits.1 := by omega
    rw [if_pos hguard]
    simp only [Option.some.injEq, Prod.mk.injEq, and_true, reduceCtorEq, false_or, hsmall,
      exists_eq_left']
    exact toInt_ofInt_eq_iff _
  · have hlarge : 2147483640 ≤ decimalValue n.digits.1 := by omega
    rw [if_neg hguard]
    exact iff_of_true (.inl rfl) (.inl hlarge)

/-! ### Temperatures and humidities of a line -/

theorem intDigits_injective : Function.Injective intDigits := by
  have hhead : ∀ (k l : ℕ), Ascii.minus :: decimal k ≠ decimal l := by
    intro k l h
    have hmem : Ascii.minus ∈ decimal l := by
      rw [← h]
      exact List.mem_cons_self
    exact not_mem_decimal (by decide) hmem
  have hvalue : ∀ {k l : ℕ}, decimal k = decimal l → k = l := by
    intro k l h
    rw [← decimalValue_decimal k, h, decimalValue_decimal]
  intro y z h
  unfold intDigits at h
  split_ifs at h with hy hz hz
  · have habs := hvalue (List.cons.inj h).2
    omega
  · exact absurd h (hhead _ _)
  · exact absurd h.symm (hhead _ _)
  · have habs := hvalue h
    omega

/-- Fields are added behind those that are there. -/
theorem runFields_grows {ms : List (MemberText FieldValue)} {fields fields' : FrameFields}
    (h : runMembers fieldStep ms fields = some fields') : fields.1 <+: fields'.1 := by
  refine runMembers_rel (R := fun fs fs' : FrameFields => fs.1 <+: fs'.1)
    (fun fs => List.prefix_rfl)
    (fun h h' => h.trans h') ?_ h
  intro m fs fs' hstep
  obtain ⟨value, -, hadd⟩ := Option.bind_eq_some_iff.mp hstep
  obtain ⟨-, -, -, f, -, -, happend⟩ := kvArrayAdd_eq_some hadd
  rw [happend]
  exact List.prefix_append _ _

/-- The field of a temperature or a humidity. -/
theorem dataTenths_eq_some {key : Bytes} {n : NumberText} {st st' : DataScan}
    (h : dataTenths key n st = some st') :
    n.digits.1 ≠ [] ∧ n.exponent = none ∧ decimalValue n.digits.1 / 10 ≤ 214748363 ∧
      ∃ f : FrameKv, st'.data.fields.1 = st.data.fields.1 ++ [f] ∧
        f.key.bytes = (if key = ascii "temperature" then ascii "T" else ascii "H") ∧
        f.value.bytes = intDigits (BitVec.ofInt 32 n.tenths).toInt := by
  unfold dataTenths at h
  split at h
  swap
  · exact absurd h (by simp)
  rename_i hguard
  obtain ⟨fields, hadd, rfl⟩ := Option.map_eq_some_iff.mp h
  obtain ⟨-, -, -, f, hkey, hvalue, happend⟩ := kvArrayAdd_eq_some hadd
  refine ⟨hguard.1, Option.isNone_iff_eq_none.mp hguard.2.1, hguard.2.2, f, happend, ?_, ?_⟩
  · refine (CharBuf.ofRaw?_eq_some_iff ?_).mp hkey
    split
    · decide
    · decide
  · exact (CharBuf.ofRaw?_eq_some_iff (intText (BitVec.ofInt 32 n.tenths)).nulFree).mp hvalue

theorem DataEffect.grows {key : Bytes} {f : DataScan → Option DataScan} (h : DataEffect key f)
    {st st' : DataScan} (hst : f st = some st') : st.data.fields.1 <+: st'.data.fields.1 := by
  cases h with
  | refuse => exact absurd hst (by simp)
  | fields ms =>
    obtain ⟨fields, hrun, rfl⟩ := Option.map_eq_some_iff.mp hst
    exact runFields_grows hrun
  | pass =>
    rw [← Option.some.inj hst]
  | node nodeId =>
    rw [← Option.some.inj hst]
  | type =>
    rw [← Option.some.inj hst]
  | seq sequence =>
    rw [← Option.some.inj hst]

theorem dataStep_grows {m : MemberText ValueText} {st st' : DataScan}
    (h : dataRules.step m.key.1 m.value st = some st') :
    st.data.fields.1 <+: st'.data.fields.1 := by
  by_cases hx10 : m.key.1 = ascii "temperature" ∨ m.key.1 = ascii "humidity"
  · have hfields : m.key.1 ≠ ascii "fields" := by
      rcases hx10 with hkey | hkey
      · rw [hkey]
        decide
      · rw [hkey]
        decide
    cases hvalue : m.value with
    | object o =>
      rw [hvalue, dataRules.step_object st hfields o] at h
      exact absurd h (by simp)
    | string text =>
      rw [hvalue, dataRules.step_string st hfields text] at h
      exact (dataEffect_string m.key.1 text.1).grows h
    | number n =>
      rw [hvalue, dataRules.step_number st hfields n] at h
      change readDataNumber m.key.1 n st = some st' at h
      rw [readDataNumber, if_pos hx10] at h
      obtain ⟨-, -, -, f, happend, -, -⟩ := dataTenths_eq_some h
      rw [happend]
      exact List.prefix_append _ _
  · obtain ⟨htemperature, hhumidity⟩ := not_or.mp hx10
    exact (dataEffect_step htemperature hhumidity m.value).grows h

/-- Every temperature and every humidity of a DATA line is a field of what is decoded, behind
those of the members before it. -/
theorem exists_tenthsField {t : LineText} {old data : FrameData} {consumed : ℕ}
    (h : messageJsonDecodeData t.text old = (some consumed, data))
    {xs ys : List (MemberText ValueText)} {m : MemberText ValueText} {n : NumberText}
    (hsplit : t.object.members = xs ++ m :: ys)
    (hkey : m.key.1 = ascii "temperature" ∨ m.key.1 = ascii "humidity")
    (hvalue : m.value = .number n) :
    n.digits.1 ≠ [] ∧ n.exponent = none ∧ decimalValue n.digits.1 / 10 ≤ 214748363 ∧
      ∃ (st : DataScan) (f : FrameKv) (tail : List FrameKv),
        runMembers dataRules.step xs DataScan.zero = some st ∧
        data.fields.1 = st.data.fields.1 ++ f :: tail ∧
        f.key.bytes = (if m.key.1 = ascii "temperature" then ascii "T" else ascii "H") ∧
        f.value.bytes = intDigits (BitVec.ofInt 32 n.tenths).toInt := by
  obtain ⟨-, st', hparse, -, -, -, rfl⟩ := messageJsonDecodeData_eq_some_iff.mp h
  obtain ⟨hrun, -⟩ := (dataMember_readsBy.parseWith_text dataMember_consumes t).mp hparse
  rw [hsplit, runMembers_append] at hrun
  obtain ⟨st, hbefore, hrun⟩ := Option.bind_eq_some_iff.mp hrun
  rw [runMembers_cons] at hrun
  obtain ⟨st₁, hstep, hrest⟩ := Option.bind_eq_some_iff.mp hrun
  have hfields : m.key.1 ≠ ascii "fields" := by
    rcases hkey with hkey | hkey
    · rw [hkey]
      decide
    · rw [hkey]
      decide
  rw [hvalue, dataRules.step_number st hfields n] at hstep
  change readDataNumber m.key.1 n st = some st₁ at hstep
  rw [readDataNumber, if_pos hkey] at hstep
  obtain ⟨hdigits, hexponent, hguard, f, happend, hname, htext⟩ := dataTenths_eq_some hstep
  obtain ⟨tail, htail⟩ := runMembers_rel
    (R := fun st st' : DataScan => st.data.fields.1 <+: st'.data.fields.1)
    (fun st => List.prefix_rfl) (fun h h' => h.trans h') dataStep_grows hrest
  refine ⟨hdigits, hexponent, hguard, st, f, tail, hbefore, ?_, hname, htext⟩
  rw [← htail, happend, List.append_assoc]
  rfl

/-- **`json_parse_x10` is right exactly where the result is in range**: for a number without
exponent, with anything behind it that does not continue it, it fails or stores ten times
the number, cut off, and leaves what stands behind, exactly if that fits an `int` or the
guard refuses the integer part. The `T` or `H` field a DATA line gets from it has the right
text under the same condition. -/
theorem jsonParseX10_exact_iff (n : NumberText) :
    (n.digits.1 ≠ [] → n.exponent = none → ∀ r : Bytes,
      (∀ b ∈ r.head?, isDigit b = false ∧ (n.fraction = none → b ≠ Ascii.dot)) →
        ((jsonParseX10 (n.text ++ r) = none ∨ ∃ v, jsonParseX10 (n.text ++ r) = some (v, r) ∧
          v.toInt = truncate (10 * n.value)) ↔ TenthsFit n)) ∧
    ∀ (t : LineText) (old data : FrameData) (consumed : ℕ),
      messageJsonDecodeData t.text old = (some consumed, data) →
        ∀ (xs ys : List (MemberText ValueText)) (m : MemberText ValueText),
          t.object.members = xs ++ m :: ys →
            (m.key.1 = ascii "temperature" ∨ m.key.1 = ascii "humidity") →
              m.value = .number n →
                ∃ (st : DataScan) (f : FrameKv) (tail : List FrameKv),
                  runMembers dataRules.step xs DataScan.zero = some st ∧
                  data.fields.1 = st.data.fields.1 ++ f :: tail ∧
                  f.key.bytes = (if m.key.1 = ascii "temperature" then ascii "T" else ascii "H") ∧
                  (f.value.bytes = intDigits (truncate (10 * n.value)) ↔ TenthsFit n) := by
  constructor
  · intro hdigits hexponent r hr
    exact jsonParseX10_right_iff hdigits hexponent hr
  · intro t old data consumed h xs ys m hsplit hkey hvalue
    obtain ⟨-, hexponent, hguard, st, f, tail, hbefore, hfields, hname, htext⟩ :=
      exists_tenthsField h hsplit hkey hvalue
    refine ⟨st, f, tail, hbefore, hfields, hname, ?_⟩
    have hsmall : ¬ 2147483640 ≤ decimalValue n.digits.1 := by omega
    rw [htext, intDigits_injective.eq_iff, NumberText.tenths_eq hexponent, toInt_ofInt_eq_iff,
      TenthsFit, or_iff_right hsmall]

/-- 25.3 degrees. -/
def warm : NumberText := ⟨false, digitsOf (ascii "25"), some (digitsOf (ascii "3")), none⟩

theorem jsonParseX10_exact_warm :
    jsonParseX10 (warm.text ++ []) = none ∨ ∃ v, jsonParseX10 (warm.text ++ []) = some (v, []) ∧
      v.toInt = truncate (10 * warm.value) := by
  have htenths : truncate (10 * warm.value) = 253 :=
    (NumberText.tenths_eq rfl).symm.trans (by decide +kernel)
  refine ((jsonParseX10_exact_iff warm).1 (by decide +kernel) rfl [] nofun).mpr (.inr ?_)
  rw [htenths]
  decide

/-- A tenth of the range of an `int`, and a bit more. -/
def tooHot : NumberText := integerText (ascii "214748365")

/-- It is stored as a negative number. -/
theorem jsonParseX10_tooHot :
    truncate (10 * tooHot.value) = 2147483650 ∧
      (jsonParseX10 tooHot.text).map (fun r => r.1.toInt) = some (-2147483646) := by
  have htenths : tooHot.tenths = 2147483650 := by decide +kernel
  refine ⟨?_, by decide +kernel⟩
  rw [← htenths, NumberText.tenths_eq rfl]

end SmartGateway
