import SmartGateway.Common.JsonCursor
import SmartGateway.Common.JsonReading

/-!
# The decoders by index against the decoders by rest

Every program of the index level, at a place in the line, against the function it is the
running form of, on the text from there: the two give up together, or come to the same place
with states that read alike. So the programs only ever stop by giving up.
-/

namespace SmartGateway

open Cursor ObjectCursor ObjectScan TextArray Numeral

variable {σ : Type} {line rest : Bytes} {p turns : ℕ} {s : σ}

/-! ## Numbers -/

theorem length_lt_turns (hturns : line.length < turns) (hat : At line p rest) :
    rest.length < turns :=
  Nat.lt_of_le_of_lt (length_le_of_at hat) hturns

theorem skipDigits_moves (hturns : line.length < turns) (hat : At line p rest) :
    Moves line s (skipWhile line isDigit turns p s) (some (skipDigits rest)) := by
  obtain ⟨p', hskip, hat'⟩ := skipWhile_at isDigit (s := s) (length_lt_turns hturns hat) hat
  rw [hskip]
  exact .done hat'

theorem skipDigits1At_moves (hturns : line.length < turns) (hat : At line p rest) :
    Moves line s (skipDigits1At line turns p s) (skipDigits1 rest) := by
  rw [skipDigits1At]
  cases rest with
  | nil =>
    rw [bind_error (peek_nil hat)]
    exact .refused
  | cons b rest =>
    rw [bind_ok (peek_cons hat), skipDigits1]
    by_cases hb : isDigit b = true
    · rw [hb, if_pos rfl]
      have hmoves := skipDigits_moves (s := s) hturns hat
      rw [skipDigits, List.dropWhile_cons_of_pos hb] at hmoves
      exact hmoves
    · rw [if_neg hb, if_pos (by simpa using hb)]
      exact .refused

/-- The sign: the place behind it, and whether there was one. -/
theorem skipMinusAt_at {b : Byte} (hat : At line p (b :: rest)) :
    ∃ p', skipMinusAt line p s = .ok ((b :: rest).head? == some Ascii.minus, p') s ∧
      At line p' (skipOneOf [Ascii.minus] (b :: rest)) := by
  rw [skipMinusAt, bind_ok (load_at hat), skipOneOf, List.head?_cons]
  by_cases hb : b = Ascii.minus
  · subst hb
    rw [if_pos rfl, if_pos (List.mem_singleton.mpr rfl)]
    exact ⟨p + 1, rfl, hat.next⟩
  · rw [if_neg hb, if_neg (by simpa using hb), beq_false_of_ne (by simpa using hb)]
    exact ⟨p, rfl, hat⟩

theorem skipSignAt_moves (hat : At line p rest) :
    Moves line s (skipSignAt line p s) (some (skipOneOf [Ascii.plus, Ascii.minus] rest)) := by
  rw [skipSignAt]
  cases rest with
  | nil =>
    rw [bind_ok (nextIs_nil hat)]
    exact .done hat
  | cons b rest =>
    rw [bind_ok (nextIs_cons hat), skipOneOf]
    by_cases hb : b ∈ [Ascii.plus, Ascii.minus]
    · rw [if_pos hb, if_pos (by simpa using hb)]
      exact .done hat.next
    · rw [if_neg hb, if_neg (by simpa using hb)]
      exact .done hat

theorem skipFractionAt_moves (hturns : line.length < turns) (hat : At line p rest) :
    Moves line s (skipFractionAt line turns p s) (some (skipFraction rest)) := by
  rw [skipFractionAt]
  cases rest with
  | nil =>
    rw [bind_ok (nextIs_nil hat)]
    exact .done hat
  | cons b rest =>
    rw [bind_ok (nextIs_cons hat), skipFraction]
    by_cases hb : b = Ascii.dot
    · rw [if_pos hb, if_pos (by simpa using hb)]
      exact skipDigits_moves hturns hat.next
    · rw [if_neg hb, if_neg (by simpa using hb)]
      exact .done hat

theorem fraction1At_moves (hturns : line.length < turns) (hat : At line p rest) :
    Moves line s (fraction1At line turns p s) (fraction1 rest) := by
  rw [fraction1At]
  cases rest with
  | nil =>
    rw [bind_ok (nextIs_nil hat)]
    exact .done hat
  | cons b rest =>
    rw [bind_ok (nextIs_cons hat), fraction1]
    by_cases hb : b = Ascii.dot
    · rw [if_pos hb, if_pos (by simpa using hb)]
      exact skipDigits1At_moves hturns hat.next
    · rw [if_neg hb, if_neg (by simpa using hb)]
      exact .done hat

theorem skipExponentAt_moves (hturns : line.length < turns) (hat : At line p rest) :
    Moves line s (skipExponentAt line turns p s) (some (skipExponent rest)) := by
  rw [skipExponentAt]
  cases rest with
  | nil =>
    rw [bind_ok (nextIs_nil hat)]
    exact .done hat
  | cons b rest =>
    rw [bind_ok (nextIs_cons hat), skipExponent]
    by_cases hb : isExponentMark b = true
    · rw [if_pos hb, if_pos hb]
      exact (skipSignAt_moves hat.next).bind fun hat' => skipDigits_moves hturns hat'
    · rw [if_neg hb, if_neg hb]
      exact .done hat

theorem exponent1At_moves (hturns : line.length < turns) (hat : At line p rest) :
    Moves line s (exponent1At line turns p s) (exponent1 rest) := by
  rw [exponent1At]
  cases rest with
  | nil =>
    rw [bind_ok (nextIs_nil hat)]
    exact .done hat
  | cons b rest =>
    rw [bind_ok (nextIs_cons hat), exponent1]
    by_cases hb : isExponentMark b = true
    · rw [if_pos hb, if_pos hb]
      exact (skipSignAt_moves hat.next).bind fun hat' => skipDigits1At_moves hturns hat'
    · rw [if_neg hb, if_neg hb]
      exact .done hat

/-- A number skipped whole, digits or none. -/
theorem skipNumberAt_moves {b : Byte} (hturns : line.length < turns)
    (hat : At line p (b :: rest)) :
    Moves line s (skipNumberAt line turns p s)
      (some (skipExponent (skipFraction (skipDigits (skipOneOf [Ascii.minus] (b :: rest)))))) := by
  obtain ⟨p', hminus, hat'⟩ := skipMinusAt_at (s := s) hat
  obtain ⟨q₁, hdigits, hat₁⟩ := (skipDigits_moves (s := s) hturns hat').exists_place
  rw [skipNumberAt, bind_ok hminus]
  dsimp only
  rw [bind_ok hdigits]
  exact (skipFractionAt_moves hturns hat₁).bind fun hat₂ => skipExponentAt_moves hturns hat₂

/-- **The number of a field value** is the text between its two places. -/
theorem scanNumberTextAt_at {b : Byte} (hturns : line.length < turns)
    (hat : At line p (b :: rest)) :
    (scanNumberText (b :: rest) = none ∧
        scanNumberTextAt line turns p s = .error .refused s) ∨
      ∃ text rest' q, scanNumberText (b :: rest) = some (text, rest') ∧
        scanNumberTextAt line turns p s = .ok q s ∧ TextAt line p text ∧ text.length = q - p ∧
        At line q rest' := by
  obtain ⟨p', hminus, hat'⟩ := skipMinusAt_at (s := s) hat
  have hmoves : Moves line s (scanNumberTextAt line turns p s)
      (((skipDigits1 (skipOneOf [Ascii.minus] (b :: rest))).bind fraction1).bind exponent1) := by
    rw [scanNumberTextAt, bind_ok hminus, Option.bind_assoc]
    exact (skipDigits1At_moves hturns hat').bind fun hat₁ =>
      (fraction1At_moves hturns hat₁).bind fun hat₂ => exponent1At_moves hturns hat₂
  rw [scanNumberText]
  rcases hmoves.cases with ⟨hnone, hread⟩ | ⟨rest', q, hsome, hread, hq⟩
  · rw [hnone]
    exact .inl ⟨rfl, hread⟩
  · have hscan : scanNumberText (b :: rest) =
        some ((b :: rest).take ((b :: rest).length - rest'.length), rest') := by
      rw [scanNumberText, hsome, Option.map_some]
    obtain ⟨htext, hlength⟩ := hat.textAt_sub hq (scanNumberText_suffix hscan)
    rw [hsome, Option.map_some]
    exact .inr ⟨_, rest', q, rfl, hread, htext, hlength, hq⟩

/-- A digit loop gives up at the same digit, or ends with the same value at the same place. -/
theorem digitLoopAt_at (overflow : ℕ → ℕ → Bool) (value : ℕ) (hturns : rest.length < turns)
    (hat : At line p rest) :
    (digitLoop overflow value rest = none ∧
        digitLoopAt line overflow turns value p s = .error .refused s) ∨
      ∃ w rest' q, digitLoop overflow value rest = some (w, rest') ∧
        digitLoopAt line overflow turns value p s = .ok (w, q) s ∧ At line q rest' := by
  induction rest generalizing turns value p with
  | nil =>
    obtain ⟨turns, rfl⟩ := Nat.exists_eq_add_of_lt hturns
    rw [digitLoopAt, if_neg (Nat.not_lt_of_le (Nat.le_of_eq hat.eq_end.symm))]
    exact .inr ⟨value, [], p, rfl, rfl, hat⟩
  | cons b rest ih =>
    obtain ⟨turns, rfl⟩ := Nat.exists_eq_succ_of_ne_zero (Nat.ne_zero_of_lt hturns)
    rw [List.length_cons] at hturns
    have hfewer : rest.length < turns := by omega
    rw [digitLoopAt, if_pos hat.lt, bind_ok (load_at hat), digitLoop]
    by_cases hb : isDigit b = true
    · rw [if_pos hb, if_pos hb]
      by_cases hover : overflow value (b.toNat - 48) = true
      · rw [if_pos hover, if_pos hover]
        exact .inl ⟨rfl, rfl⟩
      · rw [if_neg hover, if_neg hover]
        exact ih _ hfewer hat.next
    · rw [if_neg hb, if_neg hb]
      exact .inr ⟨value, b :: rest, p, rfl, rfl, hat⟩

/-- **A number of `json_parse_object`.** -/
theorem scanNumberAt_at {b : Byte} (hturns : line.length < turns) (hat : At line p (b :: rest)) :
    (scanNumber (b :: rest) = none ∧ scanNumberAt line turns p s = .error .refused s) ∨
      ∃ negative value rest' q, scanNumber (b :: rest) = some (negative, value, rest') ∧
        scanNumberAt line turns p s = .ok (negative, value, q) s ∧ At line q rest' := by
  obtain ⟨p', hminus, hat'⟩ := skipMinusAt_at (s := s) hat
  rw [scanNumberAt, bind_ok hminus, scanNumber]
  dsimp only
  generalize ((b :: rest).head? == some Ascii.minus) = negative
  generalize skipOneOf [Ascii.minus] (b :: rest) = digits at hat' ⊢
  cases digits with
  | nil =>
    rw [bind_error (peek_nil hat')]
    exact .inl ⟨rfl, rfl⟩
  | cons d ds =>
    rw [bind_ok (peek_cons hat')]
    dsimp only
    by_cases hd : (!isDigit d) = true
    · rw [if_pos hd, if_pos hd]
      exact .inl ⟨rfl, rfl⟩
    rw [if_neg hd, if_neg hd]
    rcases digitLoopAt_at uint32Overflow 0 (s := s)
      (length_lt_turns hturns hat') hat' with ⟨hnone, hloop⟩ | ⟨w, rest₁, q₁, hsome, hloop, hat₁⟩
    · rw [hnone, bind_error hloop]
      exact .inl ⟨rfl, rfl⟩
    rw [hsome, bind_ok hloop, Option.map_some]
    dsimp only
    obtain ⟨q₂, hfraction, hat₂⟩ := (skipFractionAt_moves (s := s) hturns hat₁).exists_place
    obtain ⟨q₃, hexponent, hat₃⟩ := (skipExponentAt_moves (s := s) hturns hat₂).exists_place
    rw [bind_ok hfraction, bind_ok hexponent]
    exact .inr ⟨negative, w, _, q₃, rfl, rfl, hat₃⟩

/-- The first decimal of a numeral, behind its integer part. -/
def firstDecimal : Bytes → ℕ
  | dot :: d :: _ => if dot = Ascii.dot ∧ isDigit d then d.toNat - 48 else 0
  | _ => 0

theorem tenthsAt_at (hturns : line.length < turns) (hat : At line p rest) :
    ∃ q, tenthsAt line turns p s = .ok (firstDecimal rest, q) s ∧
      At line q (skipFraction rest) := by
  rw [tenthsAt]
  cases rest with
  | nil =>
    rw [bind_ok (nextIs_nil hat)]
    exact ⟨p, rfl, hat⟩
  | cons dot rest =>
    rw [bind_ok (nextIs_cons hat), skipFraction]
    -- the fraction may be empty; its first digit is loaded, the others are skipped
    by_cases hdot : dot = Ascii.dot
    swap
    · rw [if_neg hdot, if_neg (by simpa using hdot)]
      cases rest with
      | nil => exact ⟨p, rfl, hat⟩
      | cons d rest =>
        rw [firstDecimal, if_neg (fun h => hdot h.1)]
        exact ⟨p, rfl, hat⟩
    rw [if_pos hdot, if_pos (by simpa using hdot)]
    cases rest with
    | nil =>
      rw [bind_ok (nextIs_nil hat.next)]
      obtain ⟨q, hskip, hq⟩ := skipWhile_at isDigit (s := s)
        (length_lt_turns hturns hat.next) hat.next
      refine ⟨q, ?_, hq⟩
      rw [if_neg Bool.false_ne_true, bind_ok hskip]
      rfl
    | cons d rest =>
      rw [bind_ok (nextIs_cons hat.next), firstDecimal]
      by_cases hd : isDigit d = true
      · obtain ⟨q, hskip, hq⟩ := skipWhile_at isDigit (s := s)
          (length_lt_turns hturns hat.next.next) hat.next.next
        rw [if_pos hd, if_pos ⟨hdot, hd⟩, bind_ok (load_at hat.next), bind_ok hskip, skipDigits,
          List.dropWhile_cons_of_pos hd]
        exact ⟨q, rfl, hq⟩
      · obtain ⟨q, hskip, hq⟩ := skipWhile_at isDigit (s := s)
          (length_lt_turns hturns hat.next) hat.next
        rw [if_neg hd, if_neg (fun h => hd h.2), bind_ok hskip]
        exact ⟨q, rfl, hq⟩

/-- **`json_parse_x10`.** -/
theorem jsonParseX10At_at {b : Byte} (hturns : line.length < turns) (hat : At line p (b :: rest)) :
    (jsonParseX10 (b :: rest) = none ∧ jsonParseX10At line turns p s = .error .refused s) ∨
      ∃ x10 rest' q, jsonParseX10 (b :: rest) = some (x10, rest') ∧
        jsonParseX10At line turns p s = .ok (x10, q) s ∧ At line q rest' := by
  obtain ⟨p', hminus, hat'⟩ := skipMinusAt_at (s := s) hat
  rw [jsonParseX10At, if_neg (Nat.not_le_of_lt hat.lt), bind_ok hminus, jsonParseX10]
  dsimp only
  generalize ((b :: rest).head? == some Ascii.minus) = negative
  generalize skipOneOf [Ascii.minus] (b :: rest) = digits at hat' ⊢
  cases digits with
  | nil =>
    rw [bind_error (peek_nil hat')]
    exact .inl ⟨rfl, rfl⟩
  | cons d ds =>
    rw [bind_ok (peek_cons hat')]
    dsimp only
    by_cases hd : (!isDigit d) = true
    · rw [if_pos hd, if_pos hd]
      exact .inl ⟨rfl, rfl⟩
    rw [if_neg hd, if_neg hd]
    rcases digitLoopAt_at x10Overflow 0 (s := s)
      (length_lt_turns hturns hat') hat' with ⟨hnone, hloop⟩ | ⟨w, rest₁, q₁, hsome, hloop, hat₁⟩
    · rw [hnone, bind_error hloop]
      exact .inl ⟨rfl, rfl⟩
    rw [hsome, bind_ok hloop]
    dsimp only
    obtain ⟨q₂, htenths, hat₂⟩ := tenthsAt_at (s := s) hturns hat₁
    rw [bind_ok htenths]
    exact .inr ⟨_, _, q₂, rfl, rfl, hat₂⟩

/-- The value of a field. -/
theorem scanFieldValueAt_at {b : Byte} (hturns : line.length < turns)
    (hat : At line p (b :: rest)) :
    (scanFieldValue (b :: rest) = none ∧
        scanFieldValueAt line turns p s = .error .refused s) ∨
      ∃ text rest' start q, scanFieldValue (b :: rest) = some (text, rest') ∧
        scanFieldValueAt line turns p s = .ok (start, text.length, q) s ∧
        TextAt line start text ∧ At line q rest' := by
  rw [scanFieldValueAt, bind_ok (load_at hat), scanFieldValue]
  by_cases hquote : b = Ascii.quote
  · rw [if_pos hquote, if_pos hquote]
    rcases readString_at (s := s) hturns hat.next with
      ⟨hnone, hread⟩ | ⟨text, rest', q, hscan, hread, htext, hq⟩
    · exact .inl ⟨hnone, bind_error hread⟩
    · rw [bind_ok hread]
      exact .inr ⟨text, rest', p + 1, q, hscan, rfl, htext, hq⟩
  · rw [if_neg hquote, if_neg hquote]
    rcases scanNumberTextAt_at (s := s) hturns hat with
      ⟨hnone, hread⟩ | ⟨text, rest', q, hscan, hread, htext, hlength, hq⟩
    · exact .inl ⟨hnone, bind_error hread⟩
    · rw [bind_ok hread, ← hlength]
      exact .inr ⟨text, rest', p, q, hscan, rfl, htext, hq⟩

/-! ## What the structs read as -/

/-- The array reads as the string of the buffer. -/
def ReadsAs {n : ℕ} (a : Vector Byte n) (b : CharBuf n) : Prop := cstr a.toList = b.toCStr

/-- A field in its slot. -/
structure SlotReads (slot : FrameKvMemory) (f : FrameKv) : Prop where
  key : ReadsAs slot.key f.key
  value : ReadsAs slot.value f.value

/-- The fields in the first slots, the others zero. -/
structure FieldsRead (a : KvArray) (fs : FrameFields) : Prop where
  count : a.fieldCount = fs.1.length
  slot : ∀ (i : ℕ) f, fs.1[i]? = some f → ∃ slot, a.fields[i]? = some slot ∧ SlotReads slot f
  zero : ∀ (i : ℕ) slot, fs.1.length ≤ i → a.fields[i]? = some slot → slot = FrameKvMemory.zero

theorem cstr_append_zero (text rest : Bytes) : cstr (text ++ 0 :: rest) = cstr text := by
  have hbytes : (text ++ 0 :: rest).takeWhile (· ≠ 0) = text.takeWhile (· ≠ 0) := by
    induction text with
    | nil => rfl
    | cons b text ih => rw [List.cons_append, List.takeWhile_cons, List.takeWhile_cons, ih]
  simp only [cstr, hbytes]

theorem cstr_store {n : ℕ} (a : Vector Byte n) {text : Bytes} (h : text.length < n) :
    cstr (store a text).toList = cstr text := by
  rw [toList_store a h, cstr_append_zero]

theorem cstr_zero (n : ℕ) : (cstr (TextArray.zero n).toList).bytes = [] := by
  rw [TextArray.zero, Vector.toList_replicate]
  cases n with
  | zero => rfl
  | succ n => rfl

theorem readsAs_zero {n : ℕ} {b : CharBuf n} (h : b.bytes = []) : ReadsAs (TextArray.zero n) b := by
  have hbytes := (cstr_zero n).trans h.symm
  obtain ⟨⟨bytes, hnul⟩, hfits⟩ := b
  rw [ReadsAs, CStr.mk.injEq]
  exact hbytes

/-- **A value copied** reads as the buffer it makes. -/
theorem copyValue_at {n start : ℕ} (a : Vector Byte n) {text : Bytes}
    (h : TextAt line start text) :
    (CharBuf.ofRaw? n text = none ∧ copyValue a line start text.length s = .error .refused s) ∨
      ∃ b, CharBuf.ofRaw? n text = some b ∧
        copyValue a line start text.length s = .ok (store a text) s ∧ ReadsAs (store a text) b := by
  rw [copyValue, CharBuf.ofRaw?]
  by_cases hlen : text.length < n
  · rw [dif_pos hlen, if_neg (Nat.not_le_of_lt hlen), copyText_at a h hlen]
    exact .inr ⟨_, rfl, rfl, cstr_store a hlen⟩
  · rw [dif_neg hlen, if_pos (Nat.le_of_not_lt hlen)]
    exact .inl ⟨rfl, rfl⟩

/-- A field written to the next slot. -/
theorem FieldsRead.add {a : KvArray} {fs : FrameFields} (ha : FieldsRead a fs)
    (hroom : fs.1.length < frameDataMaxFields) {slot : FrameKvMemory} {f : FrameKv}
    (hslot : SlotReads slot f) {h : (fs.1 ++ [f]).length ≤ frameDataMaxFields} :
    FieldsRead ⟨a.fields.setIfInBounds a.fieldCount slot, a.fieldCount + 1⟩ ⟨fs.1 ++ [f], h⟩ := by
  have hcount := ha.count
  refine ⟨?_, fun i g hg => ?_, fun i slot' hi hslot' => ?_⟩
  · rw [List.length_append, List.length_singleton, hcount]
  · dsimp only at hg ⊢
    rw [Vector.getElem?_setIfInBounds]
    rcases Nat.lt_trichotomy i fs.1.length with hbefore | rfl | hbehind
    · rw [if_neg (by omega)]
      rw [List.getElem?_append_left hbefore] at hg
      exact ha.slot i g hg
    · rw [List.getElem?_concat_length, Option.some.injEq] at hg
      subst hg
      rw [if_pos hcount, if_pos (by omega)]
      exact ⟨slot, rfl, hslot⟩
    · rw [List.getElem?_eq_none (by rw [List.length_append, List.length_singleton]; omega)] at hg
      exact absurd hg (by simp)
  · rw [List.length_append, List.length_singleton] at hi
    rw [Vector.getElem?_setIfInBounds, if_neg (by omega)] at hslot'
    exact ha.zero i slot' (by omega) hslot'

/-- **`kv_array_add`** refuses the same fields, and what it adds reads as the rule's. -/
theorem kvArrayAddAt_at {a : KvArray} {fs : FrameFields} (ha : FieldsRead a fs)
    {keyText valueText key value : Bytes} {keyStart valueStart : ℕ}
    (hkey : TextAt keyText keyStart key) (hvalue : TextAt valueText valueStart value) :
    (kvArrayAdd fs key value = none ∧
        kvArrayAddAt keyText keyStart key.length valueText valueStart value.length a =
          .error .refused a) ∨
      ∃ fs' a', kvArrayAdd fs key value = some fs' ∧
        kvArrayAddAt keyText keyStart key.length valueText valueStart value.length a =
          .ok () a' ∧ FieldsRead a' fs' := by
  have hget : (get : Checked KvArray KvArray) a = .ok a a := rfl
  rw [kvArrayAddAt, bind_ok hget, kvArrayAdd]
  by_cases hempty : key = [] ∨ value = []
  · rw [if_pos hempty, if_pos (by rcases hempty with rfl | rfl <;> simp)]
    exact .inl ⟨rfl, rfl⟩
  rw [if_neg hempty]
  rw [not_or, ← List.length_eq_zero_iff, ← List.length_eq_zero_iff (l := value)] at hempty
  rw [CharBuf.ofRaw?, CharBuf.ofRaw?]
  by_cases hkeyLen : key.length < frameKvKeyMax
  swap
  · rw [dif_neg hkeyLen, if_pos (by omega)]
    exact .inl ⟨rfl, rfl⟩
  by_cases hvalueLen : value.length < frameKvValueMax
  swap
  · rw [dif_pos hkeyLen, dif_neg hvalueLen, if_pos (by omega)]
    exact .inl ⟨rfl, rfl⟩
  rw [dif_pos hkeyLen, dif_pos hvalueLen]
  dsimp only
  have hcount := ha.count
  by_cases hroom : fs.1.length < frameDataMaxFields
  swap
  · rw [dif_neg hroom, if_pos (by omega)]
    exact .inl ⟨rfl, rfl⟩
  rw [dif_pos hroom, if_neg (by omega)]
  -- with room left there is a slot at `field_count`
  obtain ⟨slot, hslot⟩ : ∃ slot, a.fields[a.fieldCount]? = some slot :=
    ⟨_, Vector.getElem?_eq_getElem (by omega)⟩
  rw [hslot]
  dsimp only
  rw [bind_ok (copyText_at slot.key hkey hkeyLen),
    bind_ok (copyText_at slot.value hvalue hvalueLen)]
  refine .inr ⟨_, _, rfl, rfl, ha.add hroom ?_⟩
  exact ⟨cstr_store slot.key hkeyLen, cstr_store slot.value hvalueLen⟩

/-- **A member of a `fields` object.** -/
theorem fieldMemberAt_follows (hturns : line.length < turns) :
    FollowsValue FieldsRead line (fieldMemberAt line turns) fieldMember := by
  intro start key p rest a fs hkey hat hne ha
  obtain ⟨b, rest, rfl⟩ := List.exists_cons_of_ne_nil hne
  rw [fieldMemberAt, fieldMember]
  rcases scanFieldValueAt_at (s := a) hturns hat with
    ⟨hnone, hread⟩ | ⟨value, rest', valueStart, q, hscan, hread, hvalue, hq⟩
  · rw [hnone, bind_error hread]
    exact .refused ha
  rw [hscan, bind_ok hread]
  dsimp only
  rcases kvArrayAddAt_at ha hkey hvalue with ⟨hnone, hadd⟩ | ⟨fs', a', hsome, hadd, ha'⟩
  · rw [hnone, bind_error hadd]
    exact .refused ha
  · rw [hsome, bind_ok hadd]
    exact .done hq ha'

/-- The same behind the checks of `message_json_decode_data`. -/
theorem dataFieldMemberAt_follows (hturns : line.length < turns) :
    FollowsValue FieldsRead line (dataFieldMemberAt line turns) dataFieldMember := by
  intro start key p rest a fs hkey hat hne ha
  have hget : (get : Checked KvArray KvArray) a = .ok a a := rfl
  have hiff : (key.length = 0 ∨ frameKvKeyMax ≤ key.length ∨ frameDataMaxFields ≤ a.fieldCount) ↔
      (key = [] ∨ frameKvKeyMax ≤ key.length ∨ frameDataMaxFields ≤ fs.1.length) := by
    rw [List.length_eq_zero_iff, ha.count]
  rw [dataFieldMemberAt, bind_ok hget, dataFieldMember]
  by_cases hcheck : key = [] ∨ frameKvKeyMax ≤ key.length ∨ frameDataMaxFields ≤ fs.1.length
  · rw [if_pos (hiff.mpr hcheck), if_pos hcheck]
    exact .refused ha
  · rw [if_neg (fun h => hcheck (hiff.mp h)), if_neg hcheck]
    exact fieldMemberAt_follows hturns hkey hat hne ha

/-- **The value of a `fields` member.** -/
theorem scanFieldsAt_follows {program : ℕ → ℕ → ℕ → Checked KvArray ℕ}
    {member : Bytes → Bytes → FrameFields → Option Bytes × FrameFields}
    (hturns : line.length < turns) (hmember : Consumes member)
    (hfollows : FollowsValue FieldsRead line program member) (hat : At line p rest)
    (hne : rest ≠ []) {a : KvArray} {fs : FrameFields} (ha : FieldsRead a fs) :
    Follows FieldsRead line (scanFieldsAt line turns program p a) (scanFields member rest fs) := by
  obtain ⟨b, rest, rfl⟩ := List.exists_cons_of_ne_nil hne
  rw [scanFieldsAt, bind_ok (load_at hat), scanFields]
  split
  · exact .refused ha
  · exact readObject_follows hturns hmember hfollows hat.next ha

/-- **A whole line.** The parser refuses the lines that the parser by rest refuses, and of the
others consumes as much: its braces at least, and no more than there is. -/
theorem parseWithAt_follows {τ : Type} {R : σ → τ → Prop} {program : ℕ → ℕ → ℕ → Checked σ ℕ}
    {member : Bytes → Bytes → τ → Option Bytes × τ} (hturns : line.length < turns)
    (hconsumes : Consumes member) (hfollows : FollowsValue R line program member) {t : τ}
    (hR : R s t) :
    (∃ consumed s' t', parseWith member line t = (some consumed, t') ∧
        parseWithAt line turns program s = .ok consumed s' ∧ R s' t' ∧
        2 ≤ consumed ∧ consumed ≤ line.length) ∨
      ∃ s' t', parseWith member line t = (none, t') ∧
        parseWithAt line turns program s = .error .refused s' ∧ R s' t' := by
  have hstart := At.start line
  obtain ⟨p, hskip, hat⟩ := skipWhile_at isWhitespace (s := s) hturns hstart
  change At line p (skipWhitespace line) at hat
  rw [parseWithAt, bind_ok hskip, parseWith]
  cases hrest : skipWhitespace line with
  | nil =>
    rw [hrest] at hat
    rw [bind_error (peek_nil hat)]
    exact .inr ⟨s, t, rfl, rfl, hR⟩
  | cons b rest =>
    rw [hrest] at hat
    rw [bind_ok (peek_cons hat)]
    dsimp only
    by_cases hb : b ≠ Ascii.openBrace
    · rw [if_pos hb, if_pos hb]
      exact .inr ⟨s, t, rfl, rfl, hR⟩
    rw [if_neg hb, if_neg hb]
    rcases (readObject_follows hturns hconsumes hfollows hat.next hR).cases with
      ⟨q, s', rest', t', hread, hscan, hq, hR'⟩ | ⟨s', t', hread, hscan, hR'⟩
    · rw [hscan, hread]
      dsimp only
      -- the object ends with a brace of its own, behind the one that opens it
      have hlen := hq.length_add
      have hrun := (scanObject_eq_some_iff hconsumes).mp hscan
      obtain ⟨w, rfl⟩ := hrun.exists_closeBrace hconsumes
      have hopen := hat.next.length_add
      rw [List.length_append, List.length_cons] at hopen
      refine .inl ⟨line.length - rest'.length, s', t', rfl, ?_, hR', by omega, by omega⟩
      rw [show line.length - rest'.length = q by omega]
    · rw [hscan, hread]
      exact .inr ⟨s', t', rfl, rfl, hR'⟩

/-! ## `json_parse_object` -/

/-- The struct being filled reads as the object, with what is still in local variables. -/
structure ObjectReads (s : JsonObjectScan) (obj : JsonObject) : Prop where
  foundNode : s.out.foundNode = obj.foundNode
  nodeId : ReadsAs s.out.nodeId obj.nodeId
  foundSender : s.out.foundSender = obj.foundSender
  sender : ReadsAs s.out.sender obj.sender
  foundSeq : s.foundSeq = obj.foundSeq
  sequence : s.sequence = obj.sequence
  foundLed : s.foundLed = obj.foundLed
  ledValue : s.ledValue = obj.ledValue
  foundError : s.out.foundError = obj.foundError
  error : ReadsAs s.out.error obj.error
  foundType : s.out.foundType = obj.foundType
  typeValue : ReadsAs s.out.typeValue obj.typeValue
  foundFields : s.out.foundFields = obj.foundFields
  fields : FieldsRead s.kvArray obj.fields

/-- A program that gives nothing but its effect, against a rule for the state. -/
inductive Updates {τ : Type} (R : σ → τ → Prop) (s : σ) (t : τ) :
    EStateM.Result Stop σ Unit → Option τ → Prop
  | done {s' : σ} {t' : τ} (hR : R s' t') : Updates R s t (.ok () s') (some t')
  | refused : Updates R s t (.error .refused s) none

theorem Updates.cases {τ : Type} {R : σ → τ → Prop} {t : τ} {r : EStateM.Result Stop σ Unit}
    {o : Option τ} (h : Updates R s t r o) :
    (o = none ∧ r = .error .refused s) ∨ ∃ s' t', o = some t' ∧ r = .ok () s' ∧ R s' t' := by
  cases h with
  | done hR => exact .inr ⟨_, _, rfl, rfl, hR⟩
  | refused => exact .inl ⟨rfl, rfl⟩

/-- **A string value under its key.** -/
theorem objectStringAt_updates {obj : JsonObject} {s : JsonObjectScan} (hR : ObjectReads s obj)
    (key : Bytes) {text : Bytes} {start : ℕ} (htext : TextAt line start text) :
    Updates ObjectReads s obj
      (objectStringAt line (decide (key = ascii "node")) (decide (key = ascii "sender"))
        (decide (key = ascii "type")) (decide (key = ascii "led"))
        (decide (key = ascii "error")) start text.length s)
      (objectString key text obj) := by
  have hget : (get : Checked JsonObjectScan JsonObjectScan) s = .ok s s := rfl
  rw [objectStringAt, bind_ok hget, objectString]
  simp only [decide_eq_true_eq]
  split
  · rcases copyValue_at (s := s) s.out.nodeId htext with
      ⟨hnone, hcopy⟩ | ⟨b, hsome, hcopy, hreads⟩
    · rw [hnone, bind_error hcopy]
      exact .refused
    · rw [hsome, bind_ok hcopy]
      exact .done { hR with foundNode := rfl, nodeId := hreads }
  split
  · rcases copyValue_at (s := s) s.out.sender htext with
      ⟨hnone, hcopy⟩ | ⟨b, hsome, hcopy, hreads⟩
    · rw [hnone, bind_error hcopy]
      exact .refused
    · rw [hsome, bind_ok hcopy]
      exact .done { hR with foundSender := rfl, sender := hreads }
  split
  · rcases copyValue_at (s := s) s.out.typeValue htext with
      ⟨hnone, hcopy⟩ | ⟨b, hsome, hcopy, hreads⟩
    · rw [hnone, bind_error hcopy]
      exact .refused
    · rw [hsome, bind_ok hcopy]
      exact .done { hR with foundType := rfl, typeValue := hreads }
  split
  -- `led`: the test is made before the copy, and on both bounds
  · by_cases hempty : text = []
    · subst hempty
      rw [if_pos List.length_nil, if_pos (.inl rfl)]
      exact .refused
    rw [if_neg (fun h => hempty (List.length_eq_zero_iff.mp h))]
    by_cases hlen : 16 ≤ text.length
    · rw [if_pos (.inr hlen), copyValue, if_pos hlen]
      exact .refused
    · rw [if_neg (not_or.mpr ⟨hempty, hlen⟩)]
      have hcopy : copyValue (TextArray.zero 16) line start text.length s =
          .ok (store (TextArray.zero 16) text) s := by
        rw [copyValue, if_neg hlen, copyText_at _ htext (Nat.lt_of_not_le hlen)]
      rw [bind_ok hcopy, cstr_store _ (Nat.lt_of_not_le hlen)]
      exact .done { hR with foundLed := rfl, ledValue := rfl }
  split
  -- `error`: only the empty text is tested for
  · by_cases hempty : text = []
    · subst hempty
      rw [if_pos List.length_nil, if_pos rfl]
      exact .refused
    rw [if_neg (fun h => hempty (List.length_eq_zero_iff.mp h)), if_neg hempty]
    rcases copyValue_at (s := s) s.out.error htext with
      ⟨hnone, hcopy⟩ | ⟨b, hsome, hcopy, hreads⟩
    · rw [hnone, bind_error hcopy]
      exact .refused
    · rw [hsome, bind_ok hcopy]
      exact .done { hR with foundError := rfl, error := hreads }
  · exact .done hR

theorem objectNumberAt_updates {obj : JsonObject} {s : JsonObjectScan} (hR : ObjectReads s obj)
    (key : Bytes) (negative : Bool) (value : ℕ) :
    Updates ObjectReads s obj
      (objectNumberAt (decide (key = ascii "seq")) (decide (key = ascii "led")) negative value s)
      (objectNumber key negative value obj) := by
  have hget : (get : Checked JsonObjectScan JsonObjectScan) s = .ok s s := rfl
  rw [objectNumberAt, bind_ok hget, objectNumber]
  simp only [decide_eq_true_eq]
  split
  · split
    · exact .refused
    · exact .done { hR with foundSeq := rfl, sequence := rfl }
  split
  · exact .done { hR with foundLed := rfl, ledValue := rfl }
  · exact .done hR

/-- **A member of the object.** -/
theorem objectMemberAt_follows (hturns : line.length < turns) :
    FollowsValue ObjectReads line (objectMemberAt line turns) objectMember := by
  intro start key p rest s obj hkey hat hne hR
  rw [objectMemberAt, bind_ok (textIs_at hkey), bind_ok (textIs_at hkey),
    bind_ok (textIs_at hkey), bind_ok (textIs_at hkey), bind_ok (textIs_at hkey),
    bind_ok (textIs_at hkey), bind_ok (textIs_at hkey), objectMember.eq_def]
  by_cases hfields : key = ascii "fields"
  · rw [if_pos hfields, if_pos (decide_eq_true hfields)]
    rcases (scanFieldsAt_follows hturns fieldMember_consumes (fieldMemberAt_follows hturns) hat hne
      hR.fields).cases with ⟨q, a, rest', fs, hscan, hval, hq, ha⟩ | ⟨a, fs, hscan, hval, ha⟩
    · rw [hval, bind_ok (onPart_ok hscan)]
      exact .done hq { hR with foundFields := rfl, fields := ha }
    -- refused, with the fields read so far
    · rw [hval, bind_error (onPart_error hscan)]
      exact .refused { hR with fields := ha }
  rw [if_neg hfields, if_neg (by simpa using hfields)]
  obtain ⟨b, rest, rfl⟩ := List.exists_cons_of_ne_nil hne
  rw [bind_ok (load_at hat)]
  dsimp only
  -- a value is a string if it begins with a quote, else a number
  by_cases hquote : b = Ascii.quote
  · rw [if_pos hquote, if_pos hquote, stringValue]
    rcases readString_at (s := s) hturns hat.next with
      ⟨hnone, hread⟩ | ⟨text, rest', q, hscan, hread, htext, hq⟩
    · rw [hnone, bind_error hread]
      exact .refused hR
    rw [hscan, bind_ok hread]
    dsimp only
    rcases (objectStringAt_updates hR key htext).cases with
      ⟨hnone, hstring⟩ | ⟨s', obj', hsome, hstring, hR'⟩
    · rw [hnone, bind_error hstring]
      exact .refused hR
    · rw [hsome, bind_ok hstring]
      exact .done hq hR'
  · rw [if_neg hquote, if_neg hquote]
    rcases scanNumberAt_at (s := s) hturns hat with
      ⟨hnone, hread⟩ | ⟨negative, value, rest', q, hscan, hread, hq⟩
    · rw [hnone, bind_error hread]
      exact .refused hR
    rw [hscan, bind_ok hread]
    dsimp only
    rcases (objectNumberAt_updates hR key negative value).cases with
      ⟨hnone, hnumber⟩ | ⟨s', obj', hsome, hnumber, hR'⟩
    · rw [hnone, bind_error hnumber]
      exact .refused hR
    · rw [hsome, bind_ok hnumber]
      exact .done hq hR'

theorem kvArray_zero_reads : FieldsRead ⟨FieldsMemory.zero, 0⟩ default := by
  refine ⟨rfl, fun i f hf => ?_, fun i slot _ hslot => ?_⟩
  · exact absurd hf (by simp [show (default : FrameFields).1 = [] from rfl])
  · rw [FieldsMemory.zero, Vector.getElem?_replicate] at hslot
    split at hslot
    · exact (Option.some.inj hslot).symm
    · exact absurd hslot (by simp)

theorem objectReads_start : ObjectReads .start .zero where
  foundNode := rfl
  nodeId := readsAs_zero rfl
  foundSender := rfl
  sender := readsAs_zero rfl
  foundSeq := rfl
  sequence := rfl
  foundLed := rfl
  ledValue := rfl
  foundError := rfl
  error := readsAs_zero rfl
  foundType := rfl
  typeValue := readsAs_zero rfl
  foundFields := rfl
  fields := kvArray_zero_reads

/-- The struct, filled, reads as the object. -/
structure JsonObjectReads (m : JsonObjectMemory) (obj : JsonObject) : Prop where
  foundNode : m.foundNode = obj.foundNode
  nodeId : ReadsAs m.nodeId obj.nodeId
  foundSender : m.foundSender = obj.foundSender
  sender : ReadsAs m.sender obj.sender
  foundSeq : m.foundSeq = obj.foundSeq
  sequence : m.sequence = obj.sequence
  foundLed : m.foundLed = obj.foundLed
  ledValue : m.ledValue = obj.ledValue
  foundError : m.foundError = obj.foundError
  error : ReadsAs m.error obj.error
  foundType : m.foundType = obj.foundType
  typeValue : ReadsAs m.typeValue obj.typeValue
  foundFields : m.foundFields = obj.foundFields
  fields : FieldsRead ⟨m.fields, m.fieldCount⟩ obj.fields

theorem ObjectReads.finish {s : JsonObjectScan} {obj : JsonObject} (h : ObjectReads s obj) :
    JsonObjectReads s.finish obj where
  foundNode := h.foundNode
  nodeId := h.nodeId
  foundSender := h.foundSender
  sender := h.sender
  foundSeq := h.foundSeq
  sequence := h.sequence
  foundLed := h.foundLed
  ledValue := h.ledValue
  foundError := h.foundError
  error := h.error
  foundType := h.foundType
  typeValue := h.typeValue
  foundFields := h.foundFields
  fields := h.fields

/-- **`json_parse_object`** of a line that is not empty: refused where the parser by rest refuses
it, and otherwise as much consumed of it, with a struct that reads as the object. -/
theorem jsonParseObjectAt_follows (hturns : line.length < turns) (hline : line ≠ [])
    (out : JsonObjectMemory) :
    (∃ consumed m obj, jsonParseObject line = (some consumed, obj) ∧
        jsonParseObjectAt turns line out = .ok consumed m ∧ JsonObjectReads m obj ∧
        2 ≤ consumed ∧ consumed ≤ line.length) ∨
      ∃ m obj, jsonParseObject line = (none, obj) ∧
        jsonParseObjectAt turns line out = .error .refused m := by
  rw [jsonParseObjectAt, if_neg (fun h => hline (List.length_eq_zero_iff.mp h))]
  rcases parseWithAt_follows hturns objectMember_consumes (objectMemberAt_follows hturns)
    objectReads_start with
    ⟨consumed, s, obj, hparse, hread, hR, hbounds⟩ | ⟨s, obj, hparse, hread, -⟩
  · rw [hread]
    exact .inl ⟨consumed, s.finish, obj, hparse, rfl, hR.finish, hbounds⟩
  · rw [hread]
    exact .inr ⟨s.out, obj, hparse, rfl⟩

/-! ## The decoders over it -/

/-- A message in memory reads as one of these parts. -/
structure KvReads (m : KvMemory) (id : CharBuf 32) (sequence : UInt32) (fields : FrameFields) :
    Prop where
  id : ReadsAs m.id id
  sequence : m.sequence = sequence
  fields : FieldsRead ⟨m.fields, m.fieldCount⟩ fields

theorem ReadsAs.bytes_eq {n : ℕ} {a : Vector Byte n} {b : CharBuf n} (h : ReadsAs a b) :
    (cstr a.toList).bytes = b.bytes :=
  congrArg CStr.bytes h

/-- `strcpy` of a text that an array reads as. -/
theorem readsAs_store {n : ℕ} (a : Vector Byte n) (b : CharBuf n) :
    ReadsAs (store a b.bytes) b := by
  rw [ReadsAs, cstr_store a b.fits]
  obtain ⟨⟨bytes, hnul⟩, hfits⟩ := b
  rw [CStr.mk.injEq]
  exact cstr_bytes_of_nulFree hnul

/-- The fields of the message. -/
theorem JsonObjectReads.messageFields {m : JsonObjectMemory} {obj : JsonObject}
    (h : JsonObjectReads m obj) : FieldsRead m.messageFields obj.messageFields := by
  rw [JsonObjectMemory.messageFields, JsonObject.messageFields, h.foundFields, h.foundLed,
    h.ledValue]
  split
  · exact h.fields
  split
  · refine kvArray_zero_reads.add (by decide) ⟨?_, ?_⟩
    · exact readsAs_store _ ⟨⟨ascii "LED", by decide⟩, by decide⟩
    · exact readsAs_store _ (intText obj.ledValue)
  · exact kvArray_zero_reads

/-- **`message_json_decode_command`** follows the decoder by rest, and leaves zeros where it
refuses. -/
theorem messageJsonDecodeCommandAt_follows (hturns : line.length < turns) (hline : line ≠ [])
    (out : JsonObjectMemory) (command : CommandMemory) :
    (∃ consumed m message, messageJsonDecodeCommand line = (some consumed, message) ∧
        messageJsonDecodeCommandAt turns line out command = .ok consumed m ∧
        ReadsAs m.targetNode message.targetNode ∧
        KvReads m.message message.sender message.sequence message.fields) ∨
      (messageJsonDecodeCommand line = (none, default) ∧
        messageJsonDecodeCommandAt turns line out command = .error .refused .zero) := by
  rw [messageJsonDecodeCommand, messageJsonDecodeCommandAt]
  rcases jsonParseObjectAt_follows hturns hline out with
    ⟨consumed, m, obj, hparse, hread, hR, -⟩ | ⟨m, obj, hparse, hread⟩
  swap
  · rw [hparse, hread]
    exact .inr ⟨rfl, rfl⟩
  rw [hparse, hread]
  dsimp only
  rw [hR.foundNode, hR.foundSender, hR.foundSeq, hR.foundType, hR.typeValue.bytes_eq,
    hR.nodeId.bytes_eq, hR.sender.bytes_eq]
  by_cases hmissing : !obj.foundNode ∨ !obj.foundSender ∨ !obj.foundSeq ∨ !obj.foundType
  · rw [if_pos hmissing, if_pos hmissing]
    exact .inr ⟨rfl, rfl⟩
  rw [if_neg hmissing, if_neg hmissing]
  by_cases htype : obj.typeValue.bytes ≠ ascii "CMD"
  · rw [if_pos htype, if_pos htype]
    exact .inr ⟨rfl, rfl⟩
  rw [if_neg htype, if_neg htype, if_neg (Nat.not_le_of_lt obj.nodeId.fits),
    if_neg (Nat.not_le_of_lt obj.sender.fits)]
  exact .inl ⟨consumed, _, _, rfl, rfl, readsAs_store _ obj.nodeId,
    readsAs_store _ obj.sender, hR.sequence, hR.messageFields⟩

/-- **`message_json_decode_ack`** likewise. -/
theorem messageJsonDecodeAckAt_follows (hturns : line.length < turns) (hline : line ≠ [])
    (out : JsonObjectMemory) (ack : KvMemory) :
    (∃ consumed m message, messageJsonDecodeAck line = (some consumed, message) ∧
        messageJsonDecodeAckAt turns line out ack = .ok consumed m ∧
        KvReads m message.nodeId message.sequence message.fields) ∨
      (messageJsonDecodeAck line = (none, default) ∧
        messageJsonDecodeAckAt turns line out ack = .error .refused .zero) := by
  rw [messageJsonDecodeAck, messageJsonDecodeAckAt]
  rcases jsonParseObjectAt_follows hturns hline out with
    ⟨consumed, m, obj, hparse, hread, hR, -⟩ | ⟨m, obj, hparse, hread⟩
  swap
  · rw [hparse, hread]
    exact .inr ⟨rfl, rfl⟩
  rw [hparse, hread]
  dsimp only
  rw [hR.foundNode, hR.foundSeq, hR.foundType, hR.typeValue.bytes_eq, hR.nodeId.bytes_eq]
  by_cases hmissing : !obj.foundNode ∨ !obj.foundSeq ∨ !obj.foundType
  · rw [if_pos hmissing, if_pos hmissing]
    exact .inr ⟨rfl, rfl⟩
  rw [if_neg hmissing, if_neg hmissing]
  by_cases htype : obj.typeValue.bytes ≠ ascii "ACK"
  · rw [if_pos htype, if_pos htype]
    exact .inr ⟨rfl, rfl⟩
  rw [if_neg htype, if_neg htype, if_neg (Nat.not_le_of_lt obj.nodeId.fits)]
  exact .inl ⟨consumed, _, _, rfl, rfl, readsAs_store _ obj.nodeId, hR.sequence,
    hR.messageFields⟩

/-- **`message_json_decode_nack`** likewise: the check behind its first writes always passes. -/
theorem messageJsonDecodeNackAt_follows (hturns : line.length < turns) (hline : line ≠ [])
    (out : JsonObjectMemory) (nack : NackMemory) :
    (∃ consumed m message, messageJsonDecodeNack line = (some consumed, message) ∧
        messageJsonDecodeNackAt turns line out nack = .ok consumed m ∧
        ReadsAs m.nodeId message.nodeId ∧ m.sequence = message.sequence ∧
        ReadsAs m.error message.error) ∨
      (messageJsonDecodeNack line = (none, default) ∧
        messageJsonDecodeNackAt turns line out nack = .error .refused .zero) := by
  rw [messageJsonDecodeNack, messageJsonDecodeNackAt]
  rcases jsonParseObjectAt_follows hturns hline out with
    ⟨consumed, m, obj, hparse, hread, hR, -⟩ | ⟨m, obj, hparse, hread⟩
  swap
  · rw [hparse, hread]
    exact .inr ⟨rfl, rfl⟩
  rw [hparse, hread]
  dsimp only
  rw [hR.foundNode, hR.foundSeq, hR.foundError, hR.foundType, hR.typeValue.bytes_eq,
    hR.nodeId.bytes_eq, hR.error.bytes_eq]
  by_cases hmissing : !obj.foundNode ∨ !obj.foundSeq ∨ !obj.foundError ∨ !obj.foundType
  · rw [if_pos hmissing, if_pos hmissing]
    exact .inr ⟨rfl, rfl⟩
  rw [if_neg hmissing, if_neg hmissing]
  by_cases htype : obj.typeValue.bytes ≠ ascii "NACK"
  · rw [if_pos htype, if_pos htype]
    exact .inr ⟨rfl, rfl⟩
  rw [if_neg htype, if_neg htype, if_neg (Nat.not_le_of_lt obj.nodeId.fits),
    if_neg (Nat.not_le_of_lt obj.error.fits)]
  exact .inl ⟨consumed, _, _, rfl, rfl, readsAs_store _ obj.nodeId, hR.sequence,
    readsAs_store _ obj.error⟩

end SmartGateway
