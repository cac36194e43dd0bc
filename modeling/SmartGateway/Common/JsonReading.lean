import SmartGateway.Common.MessageJson

/-!
# What the decoders read

One lemma for each rule of the decoders: a value as the builders write it is read
back with what follows it left over, and no rule gives bytes back, so that a
decoder accepts a line exactly when its member loop has a run on it.
-/

namespace SmartGateway

open Numeral ObjectScan

/-! ## Nothing is given back -/

/-- A byte of a number: a digit, a sign, a dot or an exponent mark. -/
def isNumberByte (b : Byte) : Bool :=
  isDigit b || isExponentMark b || b == Ascii.minus || b == Ascii.plus || b == Ascii.dot

/-- What is left behind some bytes of a number. -/
def BehindNumber (rest p : Bytes) : Prop :=
  ∃ text, p = text ++ rest ∧ ∀ b ∈ text, isNumberByte b = true

namespace BehindNumber

theorem refl (p : Bytes) : BehindNumber p p := ⟨[], rfl, by simp⟩

theorem trans {r q p : Bytes} (h : BehindNumber r q) (h' : BehindNumber q p) :
    BehindNumber r p := by
  obtain ⟨t, rfl, ht⟩ := h
  obtain ⟨u, rfl, hu⟩ := h'
  refine ⟨u ++ t, (List.append_assoc u t r).symm, fun b hb => ?_⟩
  rcases List.mem_append.mp hb with hb | hb
  · exact hu b hb
  · exact ht b hb

theorem cons {b : Byte} (hb : isNumberByte b = true) (p : Bytes) : BehindNumber p (b :: p) :=
  ⟨[b], rfl, fun c hc => by rw [List.mem_singleton.mp hc]; exact hb⟩

theorem suffix {rest p : Bytes} (h : BehindNumber rest p) : rest <:+ p := by
  obtain ⟨text, rfl, -⟩ := h
  exact List.suffix_append text rest

end BehindNumber

theorem isNumberByte_of_isDigit {b : Byte} (h : isDigit b = true) : isNumberByte b = true := by
  simp [isNumberByte, h]

theorem isNumberByte_of_isExponentMark {b : Byte} (h : isExponentMark b = true) :
    isNumberByte b = true := by
  simp [isNumberByte, h]

theorem skipDigits_behind (p : Bytes) : BehindNumber (skipDigits p) p :=
  ⟨p.takeWhile isDigit, List.takeWhile_append_dropWhile.symm,
    fun _ hb => isNumberByte_of_isDigit (List.mem_takeWhile_imp hb)⟩

theorem skipDigits1_behind {p rest : Bytes} (h : skipDigits1 p = some rest) :
    BehindNumber rest p := by
  cases p with
  | nil => exact absurd h (by simp [skipDigits1])
  | cons b p =>
    rw [skipDigits1] at h
    split at h
    · rename_i hdigit
      rw [← Option.some.inj h]
      exact (skipDigits_behind p).trans (.cons (isNumberByte_of_isDigit hdigit) p)
    · exact absurd h (by simp)

theorem skipOneOf_behind {bs : Bytes} (hbs : ∀ b ∈ bs, isNumberByte b = true) (p : Bytes) :
    BehindNumber (skipOneOf bs p) p := by
  cases p with
  | nil => exact .refl _
  | cons b p =>
    rw [skipOneOf]
    split
    · rename_i hb
      exact .cons (hbs b hb) p
    · exact .refl _

/-- The signs are bytes of a number. -/
theorem skipMinus_behind (p : Bytes) : BehindNumber (skipOneOf [Ascii.minus] p) p :=
  skipOneOf_behind (by simp [isNumberByte]) p

theorem skipSign_behind (p : Bytes) : BehindNumber (skipOneOf [Ascii.plus, Ascii.minus] p) p :=
  skipOneOf_behind (by simp [isNumberByte]) p

theorem skipFraction_behind (p : Bytes) : BehindNumber (skipFraction p) p := by
  cases p with
  | nil => exact .refl _
  | cons b p =>
    rw [skipFraction]
    split
    · rename_i hdot
      subst hdot
      exact (skipDigits_behind p).trans (.cons (by decide) p)
    · exact .refl _

theorem skipExponent_behind (p : Bytes) : BehindNumber (skipExponent p) p := by
  cases p with
  | nil => exact .refl _
  | cons b p =>
    rw [skipExponent]
    split
    · rename_i hmark
      exact ((skipDigits_behind _).trans (skipSign_behind p)).trans
        (.cons (isNumberByte_of_isExponentMark hmark) p)
    · exact .refl _

theorem fraction1_behind {p rest : Bytes} (h : fraction1 p = some rest) :
    BehindNumber rest p := by
  cases p with
  | nil =>
    rw [← Option.some.inj h]
    exact .refl _
  | cons b p =>
    rw [fraction1] at h
    split at h
    · rename_i hdot
      subst hdot
      exact (skipDigits1_behind h).trans (.cons (by decide) p)
    · rw [← Option.some.inj h]
      exact .refl _

theorem exponent1_behind {p rest : Bytes} (h : exponent1 p = some rest) :
    BehindNumber rest p := by
  cases p with
  | nil =>
    rw [← Option.some.inj h]
    exact .refl _
  | cons b p =>
    rw [exponent1] at h
    split at h
    · rename_i hmark
      exact ((skipDigits1_behind h).trans (skipSign_behind p)).trans
        (.cons (isNumberByte_of_isExponentMark hmark) p)
    · rw [← Option.some.inj h]
      exact .refl _

/-- A number of a field value stands before what is left, and its text is numeric. -/
theorem scanNumberText_eq_some {p text rest : Bytes}
    (h : scanNumberText p = some (text, rest)) :
    p = text ++ rest ∧ ∀ b ∈ text, isNumberByte b = true := by
  obtain ⟨rest', hexp, heq⟩ := Option.map_eq_some_iff.mp h
  obtain ⟨htext, rfl⟩ := Prod.mk.inj heq
  obtain ⟨p₂, hfrac, hexp⟩ := Option.bind_eq_some_iff.mp hexp
  obtain ⟨p₁, hdigits, hfrac⟩ := Option.bind_eq_some_iff.mp hfrac
  obtain ⟨t, rfl, ht⟩ := (exponent1_behind hexp).trans ((fraction1_behind hfrac).trans
    ((skipDigits1_behind hdigits).trans (skipMinus_behind p)))
  have hlength : (t ++ rest').length - rest'.length = t.length := by
    rw [List.length_append]
    omega
  rw [hlength, List.take_left] at htext
  rw [← htext]
  exact ⟨rfl, ht⟩

theorem scanNumberText_suffix {p text rest : Bytes} (h : scanNumberText p = some (text, rest)) :
    rest <:+ p := by
  rw [(scanNumberText_eq_some h).1]
  exact List.suffix_append text rest

theorem digitLoop_behind {overflow : ℕ → ℕ → Bool} {v w : ℕ} {p rest : Bytes}
    (h : digitLoop overflow v p = some (w, rest)) : BehindNumber rest p := by
  induction p generalizing v with
  | nil =>
    obtain ⟨-, rfl⟩ := Prod.mk.inj (Option.some.inj h)
    exact .refl _
  | cons b p ih =>
    rw [digitLoop] at h
    split_ifs at h with hdigit
    · exact (ih h).trans (.cons (isNumberByte_of_isDigit hdigit) p)
    · obtain ⟨-, rfl⟩ := Prod.mk.inj (Option.some.inj h)
      exact .refl _

theorem scanFieldValue_suffix {p text rest : Bytes} (h : scanFieldValue p = some (text, rest)) :
    rest <:+ p := by
  cases p with
  | nil => exact absurd h (by simp [scanFieldValue])
  | cons b p =>
    rw [scanFieldValue] at h
    split at h
    · exact (scanString_suffix h).trans (List.suffix_cons b p)
    · exact scanNumberText_suffix h

/-- A field that was read: its value, and the array with the pair behind. -/
theorem fieldMember_eq_some_iff {key p rest : Bytes} {fields fields' : FrameFields} :
    fieldMember key p fields = (some rest, fields') ↔
      ∃ value, scanFieldValue p = some (value, rest) ∧
        kvArrayAdd fields key value = some fields' := by
  rw [fieldMember]
  cases scanFieldValue p with
  | none => simp
  | some r =>
    obtain ⟨value, rest'⟩ := r
    simp only [Option.some.injEq, Prod.mk.injEq]
    cases hadd : kvArrayAdd fields key value with
    | none =>
      constructor
      · intro h
        exact absurd (Prod.mk.inj h).1 (by simp)
      · rintro ⟨value', ⟨rfl, -⟩, h⟩
        rw [hadd] at h
        exact absurd h (by simp)
    | some fs =>
      constructor
      · intro h
        simp only [Prod.mk.injEq, Option.some.injEq] at h
        exact ⟨value, ⟨rfl, h.1⟩, by rw [hadd, h.2]⟩
      · rintro ⟨value', ⟨rfl, rfl⟩, h⟩
        rw [hadd, Option.some.injEq] at h
        rw [h]

/-- What `kv_array_add` takes and leaves. -/
theorem kvArrayAdd_eq_some {fields fields' : FrameFields} {key value : Bytes}
    (h : kvArrayAdd fields key value = some fields') :
    key ≠ [] ∧ value ≠ [] ∧ fields.1.length < frameDataMaxFields ∧
      ∃ f : FrameKv, CharBuf.ofRaw? frameKvKeyMax key = some f.key ∧
        CharBuf.ofRaw? frameKvValueMax value = some f.value ∧ fields'.1 = fields.1 ++ [f] := by
  rw [kvArrayAdd] at h
  by_cases hempty : key = [] ∨ value = []
  · rw [if_pos hempty] at h
    exact absurd h (by simp)
  rw [if_neg hempty] at h
  rw [not_or] at hempty
  split at h
  · rename_i k v hk hv
    by_cases hroom : fields.1.length < frameDataMaxFields
    · rw [dif_pos hroom] at h
      rw [← Option.some.inj h]
      exact ⟨hempty.1, hempty.2, hroom, ⟨k, v⟩, hk, hv, rfl⟩
    · rw [dif_neg hroom] at h
      exact absurd h (by simp)
  · exact absurd h (by simp)

/-- The checks `message_json_decode_data` makes before a value refuse no field
that `kv_array_add` would take. -/
theorem dataFieldMember_eq_some_iff {key p rest : Bytes} {fields fields' : FrameFields} :
    dataFieldMember key p fields = (some rest, fields') ↔
      fieldMember key p fields = (some rest, fields') := by
  rw [dataFieldMember]
  split_ifs with hguard
  · refine ⟨fun h => absurd (Prod.mk.inj h).1 (by simp), fun h => ?_⟩
    obtain ⟨value, -, hadd⟩ := fieldMember_eq_some_iff.mp h
    obtain ⟨hkey, -, hroom, f, hraw, -⟩ := kvArrayAdd_eq_some hadd
    have hfits : key.length < frameKvKeyMax := by
      by_contra hlong
      rw [CharBuf.ofRaw?, dif_neg hlong] at hraw
      exact absurd hraw (by simp)
    rcases hguard with h0 | h1 | h2
    · exact absurd h0 hkey
    · omega
    · omega
  · exact Iff.rfl

theorem fieldMember_consumes : Consumes fieldMember := by
  intro key p fields rest fields' h
  obtain ⟨value, hscan, -⟩ := fieldMember_eq_some_iff.mp h
  exact scanFieldValue_suffix hscan

theorem dataFieldMember_consumes : Consumes dataFieldMember := by
  intro key p fields rest fields' h
  exact fieldMember_consumes (dataFieldMember_eq_some_iff.mp h)

/-- A `fields` value that was read is a run of its member loop. -/
theorem scanFields_eq_some_iff {member : Bytes → Bytes → FrameFields → Option Bytes × FrameFields}
    (hmember : Consumes member) {p rest : Bytes} {fields fields' : FrameFields} :
    scanFields member p fields = (some rest, fields') ↔
      ∃ p', p = Ascii.openBrace :: p' ∧ ObjectRun member p' fields rest fields' := by
  cases p with
  | nil => simp [scanFields]
  | cons b p =>
    rw [scanFields]
    by_cases hb : b = Ascii.openBrace
    · subst hb
      rw [if_neg (by simp), scanObject_eq_some_iff hmember]
      constructor
      · intro h
        exact ⟨p, rfl, h⟩
      · rintro ⟨p', hp, h⟩
        rw [(List.cons.inj hp).2]
        exact h
    · rw [if_pos hb]
      constructor
      · intro h
        exact absurd (Prod.mk.inj h).1 (by simp)
      · rintro ⟨p', hp, -⟩
        exact absurd (List.cons.inj hp).1 hb

/-- Both decoders read the same `fields` objects, the same way. -/
theorem scanFields_dataFieldMember {p rest : Bytes} {fields fields' : FrameFields} :
    scanFields dataFieldMember p fields = (some rest, fields') ↔
      scanFields fieldMember p fields = (some rest, fields') := by
  rw [scanFields_eq_some_iff dataFieldMember_consumes, scanFields_eq_some_iff fieldMember_consumes]
  constructor
  · rintro ⟨p', hp, hrun⟩
    exact ⟨p', hp, hrun.mono dataFieldMember_eq_some_iff.mp⟩
  · rintro ⟨p', hp, hrun⟩
    exact ⟨p', hp, hrun.mono dataFieldMember_eq_some_iff.mpr⟩

theorem scanFields_suffix {p rest : Bytes} {fields fields' : FrameFields}
    (h : scanFields fieldMember p fields = (some rest, fields')) : rest <:+ p := by
  obtain ⟨p', rfl, hrun⟩ := (scanFields_eq_some_iff fieldMember_consumes).mp h
  obtain ⟨w, rfl⟩ := hrun.exists_closeBrace fieldMember_consumes
  exact ((List.suffix_cons _ rest).trans (List.suffix_append w _)).trans (List.suffix_cons _ _)

/-! ## Numbers as they are written -/

/-- A digit loop only goes up. -/
theorem le_foldl_digits (ds : Bytes) (v : ℕ) :
    v ≤ ds.foldl (fun v b => v * 10 + (b.toNat - 48)) v := by
  induction ds generalizing v with
  | nil => exact Nat.le_refl v
  | cons b ds ih =>
    have h := ih (v * 10 + (b.toNat - 48))
    rw [List.foldl_cons]
    omega

/-- A digit loop that does not give up has read the digits there are. -/
theorem digitLoop_eq_some {overflow : ℕ → ℕ → Bool} {v w : ℕ} {p rest : Bytes}
    (h : digitLoop overflow v p = some (w, rest)) :
    w = (p.takeWhile isDigit).foldl (fun v b => v * 10 + (b.toNat - 48)) v ∧
      rest = skipDigits p := by
  induction p generalizing v with
  | nil =>
    obtain ⟨rfl, rfl⟩ := Prod.mk.inj (Option.some.inj h)
    exact ⟨rfl, rfl⟩
  | cons b p ih =>
    rw [digitLoop] at h
    split_ifs at h with hdigit
    · rw [List.takeWhile_cons_of_pos hdigit, List.foldl_cons, skipDigits,
        List.dropWhile_cons_of_pos hdigit]
      exact ih h
    · obtain ⟨rfl, rfl⟩ := Prod.mk.inj (Option.some.inj h)
      rw [List.takeWhile_cons_of_neg hdigit, skipDigits, List.dropWhile_cons_of_neg hdigit]
      exact ⟨rfl, rfl⟩

/-- **The loop of a 32-bit number** gives up exactly where the number does not fit. -/
theorem digitLoop_uint32 {v : ℕ} (hv : v ≤ 0xFFFFFFFF) (p : Bytes) :
    digitLoop uint32Overflow v p =
      if (p.takeWhile isDigit).foldl (fun v b => v * 10 + (b.toNat - 48)) v ≤ 0xFFFFFFFF then
        some ((p.takeWhile isDigit).foldl (fun v b => v * 10 + (b.toNat - 48)) v, skipDigits p)
      else
        none := by
  induction p generalizing v with
  | nil => exact (if_pos hv).symm
  | cons b p ih =>
    by_cases hdigit : isDigit b = true
    · have hle := le_foldl_digits (p.takeWhile isDigit) (v * 10 + (b.toNat - 48))
      have hbyte := (isDigit_iff.mp hdigit).2
      rw [digitLoop, if_pos hdigit, List.takeWhile_cons_of_pos hdigit, List.foldl_cons, skipDigits,
        List.dropWhile_cons_of_pos hdigit]
      by_cases hover : uint32Overflow v (b.toNat - 48) = true
      · rw [if_pos hover]
        rw [uint32Overflow, decide_eq_true_eq] at hover
        refine (if_neg fun hfits => ?_).symm
        have hnext := hle.trans hfits
        omega
      · rw [if_neg hover]
        rw [uint32Overflow, decide_eq_true_eq] at hover
        exact ih (by omega)
    · rw [digitLoop, if_neg hdigit, List.takeWhile_cons_of_neg hdigit, skipDigits,
        List.dropWhile_cons_of_neg hdigit]
      exact (if_pos hv).symm

/-- **A printed number is read back.** -/
theorem digitLoop_decimal (n : UInt32) {c : Byte} (hc : isDigit c = false) (p : Bytes) :
    digitLoop uint32Overflow 0 (decimal n.toNat ++ c :: p) = some (n.toNat, c :: p) := by
  have hdigits : ∀ b ∈ decimal n.toNat, isDigit b = true := fun b hb => isDigit_of_mem_decimal hb
  have hnot : ¬ isDigit c = true := by
    rw [hc]
    exact Bool.false_ne_true
  have hvalue : (decimal n.toNat).foldl (fun v b => v * 10 + (b.toNat - 48)) 0 = n.toNat :=
    decimalValue_decimal n.toNat
  rw [digitLoop_uint32 (Nat.zero_le _), skipDigits, List.takeWhile_append_of_pos hdigits,
    List.dropWhile_append_of_pos hdigits, List.takeWhile_cons_of_neg hnot,
    List.dropWhile_cons_of_neg hnot, List.append_nil, hvalue]
  exact if_pos (Nat.le_of_lt_succ n.toNat_lt)

/-- A printed number starts with a digit. -/
theorem exists_decimal_eq_cons (n : ℕ) : ∃ b ds, decimal n = b :: ds ∧ isDigit b = true := by
  cases h : decimal n with
  | nil => exact absurd h (decimal_ne_nil n)
  | cons b ds => exact ⟨b, ds, rfl, isDigit_of_mem_decimal (n := n) (by simp [h])⟩

/-- What a digit is not. -/
theorem ne_of_isDigit {b : Byte} (h : isDigit b = true) :
    b ≠ Ascii.quote ∧ b ≠ Ascii.minus ∧ isWhitespace b = false := by
  refine ⟨?_, ?_, ?_⟩
  · rintro rfl
    exact absurd h (by decide)
  · rintro rfl
    exact absurd h (by decide)
  · by_contra hspace
    simp only [isWhitespace, Bool.not_eq_false, Bool.or_eq_true, beq_iff_eq] at hspace
    rcases hspace with ((rfl | rfl) | rfl) | rfl <;> exact absurd h (by decide)

/-! ## Members of `json_parse_object` -/

theorem scanNumber_suffix {p rest : Bytes} {negative : Bool} {value : ℕ}
    (h : scanNumber p = some (negative, value, rest)) : rest <:+ p := by
  rw [scanNumber] at h
  split at h
  · exact absurd h (by simp)
  rename_i b q hdigits
  split_ifs at h
  obtain ⟨r, hloop, heq⟩ := Option.map_eq_some_iff.mp h
  simp only [Prod.mk.injEq] at heq
  obtain ⟨-, -, rfl⟩ := heq
  exact ((skipExponent_behind _).trans ((skipFraction_behind _).trans
    ((digitLoop_behind hloop).trans (skipMinus_behind p)))).suffix

theorem objectMember_string {key : Bytes} (hkey : key ≠ ascii "fields") (r : Bytes)
    (obj : JsonObject) :
    objectMember key (Ascii.quote :: r) obj = stringValue (objectString key) r obj := by
  rw [objectMember, if_neg hkey]
  exact if_pos rfl

theorem objectMember_fields_eq_some_iff {p rest : Bytes} {obj obj' : JsonObject} :
    objectMember (ascii "fields") p obj = (some rest, obj') ↔
      ∃ fields, scanFields fieldMember p obj.fields = (some rest, fields) ∧
        obj' = { obj with fields := fields, foundFields := true } := by
  rw [objectMember.eq_def, if_pos rfl]
  cases scanFields fieldMember p obj.fields with
  | mk out fields =>
    cases out with
    | none => simp
    | some q =>
      simp only [Prod.mk.injEq, Option.some.injEq]
      constructor
      · rintro ⟨rfl, rfl⟩
        exact ⟨fields, ⟨rfl, rfl⟩, rfl⟩
      · rintro ⟨fields', ⟨rfl, rfl⟩, rfl⟩
        exact ⟨rfl, rfl⟩

theorem objectMember_seq (n : UInt32) (p : Bytes) (obj : JsonObject) :
    objectMember (ascii "seq") (decimal n.toNat ++ Ascii.comma :: p) obj =
      (some (Ascii.comma :: p), { obj with sequence := n, foundSeq := true }) := by
  obtain ⟨b, ds, hdecimal, hdigit⟩ := exists_decimal_eq_cons n.toNat
  obtain ⟨hquote, hminus, -⟩ := ne_of_isDigit hdigit
  have hloop := digitLoop_decimal n (show isDigit Ascii.comma = false by decide) p
  rw [hdecimal, List.cons_append] at hloop ⊢
  have hnumber : scanNumber (b :: (ds ++ Ascii.comma :: p)) =
      some (false, n.toNat, Ascii.comma :: p) := by
    have hskip : skipOneOf [Ascii.minus] (b :: (ds ++ Ascii.comma :: p)) =
        b :: (ds ++ Ascii.comma :: p) := by
      rw [skipOneOf, if_neg (by simpa using hminus)]
    have hsign : ((b :: (ds ++ Ascii.comma :: p)).head? == some Ascii.minus) = false := by
      simpa using hminus
    rw [scanNumber]
    simp only [hskip, hdigit, Bool.not_true, Bool.false_eq_true, if_false, hloop, hsign]
    rfl
  have hnumeric : objectNumber (ascii "seq") false n.toNat obj =
      some { obj with sequence := n, foundSeq := true } := by
    rw [objectNumber, if_pos rfl, UInt32.ofNat_toNat]
    rfl
  rw [objectMember, if_neg (by decide)]
  simp only [if_neg hquote, hnumber, hnumeric]

theorem objectMember_consumes : Consumes objectMember := by
  intro key p obj rest obj' h
  by_cases hkey : key = ascii "fields"
  · subst hkey
    obtain ⟨fields, hscan, -⟩ := objectMember_fields_eq_some_iff.mp h
    exact scanFields_suffix hscan
  rw [objectMember.eq_def, if_neg hkey] at h
  cases p with
  | nil => exact absurd (Prod.mk.inj h).1 (by simp)
  | cons b p =>
    simp only at h
    split at h
    · obtain ⟨text, hscan, -⟩ := stringValue_eq_some_iff.mp h
      exact (scanString_suffix hscan).trans (List.suffix_cons b p)
    · split at h
      · exact absurd (Prod.mk.inj h).1 (by simp)
      rename_i negative value q hnumber
      split at h
      · exact absurd (Prod.mk.inj h).1 (by simp)
      · rw [← Option.some.inj (Prod.mk.inj h).1]
        exact scanNumber_suffix hnumber

/-! ## Members of `message_json_decode_data` -/

theorem jsonParseX10_suffix {p rest : Bytes} {x10 : BitVec 32}
    (h : jsonParseX10 p = some (x10, rest)) : rest <:+ p := by
  rw [jsonParseX10] at h
  split at h
  · exact absurd h (by simp)
  rename_i b q hdigits
  split at h
  · exact absurd h (by simp)
  split at h
  · exact absurd h (by simp)
  rename_i intPart q' hloop
  simp only [Option.some.injEq, Prod.mk.injEq] at h
  rw [← h.2]
  exact ((skipFraction_behind q').trans
    ((digitLoop_behind hloop).trans (skipMinus_behind p))).suffix

theorem dataMember_string {key : Bytes} (hkey : key ≠ ascii "fields") (r : Bytes)
    (st : DataScan) :
    dataMember key (Ascii.quote :: r) st = stringValue (dataString key) r st := by
  rw [dataMember, if_neg hkey]
  exact if_pos rfl

theorem dataMember_fields_eq_some_iff {p rest : Bytes} {st st' : DataScan} :
    dataMember (ascii "fields") p st = (some rest, st') ↔
      ∃ fields, scanFields fieldMember p st.data.fields = (some rest, fields) ∧
        st' = { st with data := { st.data with fields := fields } } := by
  rw [dataMember.eq_def, if_pos rfl]
  cases hscan : scanFields dataFieldMember p st.data.fields with
  | mk out fields =>
    simp only [Prod.mk.injEq]
    constructor
    · rintro ⟨rfl, rfl⟩
      exact ⟨fields, scanFields_dataFieldMember.mp hscan, rfl⟩
    · rintro ⟨fields', h, rfl⟩
      rw [scanFields_dataFieldMember.mpr h] at hscan
      obtain ⟨rfl, rfl⟩ := Prod.mk.inj hscan
      exact ⟨rfl, rfl⟩

theorem dataMember_seq (n : UInt32) (p : Bytes) (st : DataScan) :
    dataMember (ascii "seq") (decimal n.toNat ++ Ascii.comma :: p) st =
      (some (Ascii.comma :: p), { st with sequence := n, foundSeq := true }) := by
  obtain ⟨b, ds, hdecimal, hdigit⟩ := exists_decimal_eq_cons n.toNat
  obtain ⟨hquote, hminus, -⟩ := ne_of_isDigit hdigit
  have hloop := digitLoop_decimal n (show isDigit Ascii.comma = false by decide) p
  rw [hdecimal, List.cons_append] at hloop ⊢
  have hseq : dataSeq (b :: (ds ++ Ascii.comma :: p)) st =
      (some (Ascii.comma :: p), { st with sequence := n, foundSeq := true }) := by
    rw [dataSeq, if_neg (by simpa using hminus), hloop]
    simp only [UInt32.ofNat_toNat]
    rfl
  have hkey : ¬ (ascii "seq" = ascii "temperature" ∨ ascii "seq" = ascii "humidity") := by decide
  rw [dataMember, if_neg (by decide)]
  simp only [if_neg hquote, if_neg hkey, if_true, hseq]

theorem dataX10_suffix {key p rest : Bytes} {st st' : DataScan}
    (h : dataX10 key p st = (some rest, st')) : rest <:+ p := by
  rw [dataX10] at h
  split at h
  · exact absurd (Prod.mk.inj h).1 (by simp)
  rename_i x10 q hx10
  simp only at h
  split at h
  · exact absurd (Prod.mk.inj h).1 (by simp)
  · rw [← Option.some.inj (Prod.mk.inj h).1]
    exact jsonParseX10_suffix hx10

theorem dataSeq_suffix {p rest : Bytes} {st st' : DataScan}
    (h : dataSeq p st = (some rest, st')) : rest <:+ p := by
  rw [dataSeq] at h
  split at h
  · exact absurd (Prod.mk.inj h).1 (by simp)
  split at h
  · exact absurd (Prod.mk.inj h).1 (by simp)
  rename_i value q hloop
  rw [← Option.some.inj (Prod.mk.inj h).1]
  exact ((skipExponent_behind _).trans
    ((skipFraction_behind q).trans (digitLoop_behind hloop))).suffix

theorem dataMember_consumes : Consumes dataMember := by
  intro key p st rest st' h
  by_cases hkey : key = ascii "fields"
  · subst hkey
    obtain ⟨fields, hscan, -⟩ := dataMember_fields_eq_some_iff.mp h
    exact scanFields_suffix hscan
  rw [dataMember.eq_def, if_neg hkey] at h
  cases p with
  | nil => exact absurd (Prod.mk.inj h).1 (by simp)
  | cons b p =>
    simp only at h
    split_ifs at h
    · obtain ⟨text, hscan, -⟩ := stringValue_eq_some_iff.mp h
      exact (scanString_suffix hscan).trans (List.suffix_cons b p)
    · exact dataX10_suffix h
    · exact dataSeq_suffix h
    · rw [← Option.some.inj (Prod.mk.inj h).1]
      exact ((skipExponent_behind _).trans ((skipFraction_behind _).trans
        ((skipDigits_behind _).trans (skipMinus_behind _)))).suffix

/-! ## The whole object -/

/-- **A parser accepts** what its member loop has a run on, behind white space and an
opening brace, and consumes all up to where the run ends. -/
theorem parseWith_eq_some_iff {σ : Type*} {member : Bytes → Bytes → σ → Option Bytes × σ}
    (hmember : Consumes member) {line : Bytes} {st st' : σ} {consumed : ℕ} :
    parseWith member line st = (some consumed, st') ↔
      ∃ p rest, skipWhitespace line = Ascii.openBrace :: p ∧ ObjectRun member p st rest st' ∧
        consumed = line.length - rest.length := by
  rw [parseWith]
  cases hskip : skipWhitespace line with
  | nil => simp
  | cons b p =>
    by_cases hb : b = Ascii.openBrace
    swap
    · simp [hb]
    subst hb
    simp only [ne_eq, not_true_eq_false, if_false, List.cons.injEq, true_and]
    cases hscan : scanObject member p st with
    | mk out st₁ =>
      cases out with
      | none =>
        -- the loop has turns enough for every run
        simp only [Prod.mk.injEq, reduceCtorEq, false_and, false_iff, not_exists, not_and]
        rintro p' rest rfl hrun
        rw [(scanObject_eq_some_iff hmember).mpr hrun] at hscan
        exact absurd (Prod.mk.inj hscan).1 (by simp)
      | some rest =>
        simp only [Prod.mk.injEq, Option.some.injEq]
        constructor
        · rintro ⟨rfl, rfl⟩
          exact ⟨p, rest, rfl, (scanObject_eq_some_iff hmember).mp hscan, rfl⟩
        · rintro ⟨p', rest', rfl, hrun, rfl⟩
          rw [(scanObject_eq_some_iff hmember).mpr hrun] at hscan
          obtain ⟨hrest, rfl⟩ := Prod.mk.inj hscan
          rw [Option.some.inj hrest]
          exact ⟨rfl, rfl⟩

/-- The same of a line that starts with its object. -/
theorem parseWith_openBrace_eq_some_iff {σ : Type*}
    {member : Bytes → Bytes → σ → Option Bytes × σ} (hmember : Consumes member) {p : Bytes}
    {st st' : σ} {consumed : ℕ} :
    parseWith member (Ascii.openBrace :: p) st = (some consumed, st') ↔
      ∃ rest, ObjectRun member p st rest st' ∧ consumed = p.length + 1 - rest.length := by
  rw [parseWith_eq_some_iff hmember, skipWhitespace_cons (by decide)]
  simp only [List.cons.injEq, true_and, List.length_cons]
  constructor
  · rintro ⟨p', rest, rfl, hrun, hconsumed⟩
    exact ⟨rest, hrun, hconsumed⟩
  · rintro ⟨rest, hrun, hconsumed⟩
    exact ⟨p, rest, rfl, hrun, hconsumed⟩

/-- The object that was read is a part of the line. -/
theorem parseWith_eq_some {σ : Type*} {member : Bytes → Bytes → σ → Option Bytes × σ}
    (hmember : Consumes member) {line : Bytes} {st st' : σ} {consumed : ℕ}
    (h : parseWith member line st = (some consumed, st')) :
    ∃ p rest, p <:+ line ∧ ObjectRun member p st rest st' := by
  obtain ⟨p, rest, hskip, hrun, -⟩ := (parseWith_eq_some_iff hmember).mp h
  refine ⟨p, rest, (List.suffix_cons Ascii.openBrace p).trans ?_, hrun⟩
  rw [← hskip]
  exact skipWhitespace_suffix line

/-! ## Where the node id comes from -/

/-- A string value changes the id only under `node`. -/
theorem objectString_nodeId {key text : Bytes} {obj obj' : JsonObject}
    (h : objectString key text obj = some obj') :
    obj'.nodeId = obj.nodeId ∨ CharBuf.ofRaw? 32 text = some obj'.nodeId := by
  unfold objectString at h
  split at h
  · obtain ⟨nodeId, hnode, rfl⟩ := Option.map_eq_some_iff.mp h
    exact Or.inr hnode
  refine Or.inl ?_
  split at h
  · obtain ⟨sender, -, rfl⟩ := Option.map_eq_some_iff.mp h
    rfl
  split at h
  · obtain ⟨type, -, rfl⟩ := Option.map_eq_some_iff.mp h
    rfl
  split at h
  · split at h
    · exact absurd h (by simp)
    · rw [← Option.some.inj h]
  split at h
  · split at h
    · exact absurd h (by simp)
    · obtain ⟨error, -, rfl⟩ := Option.map_eq_some_iff.mp h
      rfl
  · rw [← Option.some.inj h]

/-- A number never does. -/
theorem objectNumber_nodeId {key : Bytes} {negative : Bool} {value : ℕ} {obj obj' : JsonObject}
    (h : objectNumber key negative value obj = some obj') : obj'.nodeId = obj.nodeId := by
  unfold objectNumber at h
  split at h
  · split at h
    · exact absurd h (by simp)
    · rw [← Option.some.inj h]
  split at h
  · rw [← Option.some.inj h]
  · rw [← Option.some.inj h]

/-- The bytes of a stored text are bytes of the text. -/
theorem ofRaw?_subset {cap : ℕ} {raw : Bytes} {b : CharBuf cap}
    (h : CharBuf.ofRaw? cap raw = some b) : b.bytes ⊆ raw := by
  unfold CharBuf.ofRaw? at h
  split at h
  · rw [← Option.some.inj h]
    exact (List.takeWhile_prefix _).subset
  · exact absurd h (by simp)

/-- A member leaves the id made of bytes of the text it is read from. -/
theorem objectMember_nodeId_subset {text key p rest : Bytes} {obj obj' : JsonObject}
    (hp : p <:+ text) (h : objectMember key p obj = (some rest, obj'))
    (hobj : obj.nodeId.bytes ⊆ text) : obj'.nodeId.bytes ⊆ text := by
  by_cases hkey : key = ascii "fields"
  · subst hkey
    obtain ⟨fields, -, rfl⟩ := objectMember_fields_eq_some_iff.mp h
    exact hobj
  rw [objectMember.eq_def, if_neg hkey] at h
  cases p with
  | nil => exact absurd (Prod.mk.inj h).1 (by simp)
  | cons b p =>
    simp only at h
    -- a string under `node` is copied; nothing else writes the id
    split at h
    · obtain ⟨t, hscan, hstring⟩ := stringValue_eq_some_iff.mp h
      rcases objectString_nodeId hstring with hsame | hnode
      · rw [hsame]
        exact hobj
      · have ht : t ⊆ p := by
          rw [(scanString_eq_some_iff.mp hscan).1]
          exact List.subset_append_left t _
        exact fun c hc => hp.subset (List.mem_cons_of_mem b (ht (ofRaw?_subset hnode hc)))
    · split at h
      · exact absurd (Prod.mk.inj h).1 (by simp)
      split at h
      · exact absurd (Prod.mk.inj h).1 (by simp)
      rename_i obj₁ hnumber
      rw [← (Prod.mk.inj h).2, objectNumber_nodeId hnumber]
      exact hobj

/-- **The target of a command** is made of bytes of its line. -/
theorem messageJsonDecodeCommand_targetNode_subset {line : Bytes} {consumed : ℕ}
    {command : FrameCommand} (h : messageJsonDecodeCommand line = (some consumed, command)) :
    command.targetNode.bytes ⊆ line := by
  rw [messageJsonDecodeCommand] at h
  split at h
  · exact absurd (Prod.mk.inj h).1 (by simp)
  rename_i c obj hparse
  split at h
  · exact absurd (Prod.mk.inj h).1 (by simp)
  split at h
  · exact absurd (Prod.mk.inj h).1 (by simp)
  obtain ⟨-, rfl⟩ := Prod.mk.inj h
  obtain ⟨p, rest, hp, hrun⟩ := parseWith_eq_some objectMember_consumes hparse
  exact hrun.keeps objectMember_consumes (I := fun obj => obj.nodeId.bytes ⊆ line)
    (fun hk hmember hv hobj =>
      objectMember_nodeId_subset ((scanMember_suffix hmember).trans hk) hv hobj)
    hp (List.nil_subset line)

end SmartGateway
