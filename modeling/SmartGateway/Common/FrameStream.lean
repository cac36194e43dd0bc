import SmartGateway.Common.FrameParser
import Mathlib.Data.List.Sort

/-!
# The parser over whole streams

What `frame_parser_feed` delivers, said of the stream itself: a frame is a
stretch from an `@` to the next line feed, with no other `@` inside, short enough
for the buffer and spelling `@payload*CRC\r\n`. The parser's buffer is at every
byte the stretch from the last `@`, while that can still become a frame; one byte
keeps this, and so does a run.
-/

namespace SmartGateway

/-! ## What a frame looks like -/

/-- A hexadecimal digit in either case, and its value. -/
def HexDigitOf (ch : Byte) (digit : ℕ) : Prop :=
  digit < 10 ∧ ch.toNat = 48 + digit ∨
    10 ≤ digit ∧ digit < 16 ∧ (ch.toNat = 55 + digit ∨ ch.toNat = 87 + digit)

/-- Four hexadecimal digits, and the 16-bit value they spell. -/
def HexTextOf (text : Bytes) (value : BitVec 16) : Prop :=
  ∃ a b c d a' b' c' d', text = [a, b, c, d] ∧ HexDigitOf a a' ∧ HexDigitOf b b' ∧
    HexDigitOf c c' ∧ HexDigitOf d d' ∧
    value.toNat = a' * 4096 + b' * 256 + c' * 16 + d'

/-- A whole frame as text, with what is read out of it: `@`, a payload that is
not empty and has no NUL, `*`, the CRC of the payload in four hexadecimal digits,
CR and LF. -/
structure IsFrame (text : Bytes) (frame : ParsedFrame) : Prop where
  raw : frame.raw = text
  spells : ∃ hex, text = Ascii.atSign :: (frame.payload ++ Ascii.star ::
    (hex ++ [Ascii.cr, Ascii.lf])) ∧ HexTextOf hex frame.receivedCrc
  payload_ne : frame.payload ≠ []
  nulFree : (0 : Byte) ∉ frame.payload
  calculated : frame.calculatedCrc = crc16CcittFalse frame.payload
  agree : frame.calculatedCrc = frame.receivedCrc

/-- The stretch `s[i..j]`. -/
def slice (s : Bytes) (i j : ℕ) : Bytes := (s.drop i).take (j + 1 - i)

/-- A frame stands in the stream from `i` to `j`. -/
structure IsFrameAt (s : Bytes) (i j : ℕ) (frame : ParsedFrame) : Prop where
  start : s[i]? = some Ascii.atSign
  lt : i < j
  stop : s[j]? = some Ascii.lf
  first : ∀ k, i < k → k < j → s[k]? ≠ some Ascii.lf
  onlyAt : ∀ k, i < k → k < j → s[k]? ≠ some Ascii.atSign
  short : j - i + 1 ≤ frameMaxLen - 1
  isFrame : IsFrame (slice s i j) frame

/-! ## The check at the line feed -/

theorem toNat_toupper (ch : Byte) :
    (toupper ch).toNat =
      if 97 ≤ ch.toNat ∧ ch.toNat ≤ 122 then ch.toNat - 32 else ch.toNat := by
  unfold toupper
  by_cases h : 97 ≤ ch.toNat ∧ ch.toNat ≤ 122
  · have h32 : (32 : Byte) ≤ ch := UInt8.le_iff_toNat_le.mpr (show 32 ≤ ch.toNat by omega)
    rw [if_pos h, if_pos ⟨UInt8.le_iff_toNat_le.mpr h.1, UInt8.le_iff_toNat_le.mpr h.2⟩,
      UInt8.toNat_sub_of_le _ _ h32]
    rfl
  · rw [if_neg h, if_neg]
    rintro ⟨h1, h2⟩
    exact h ⟨UInt8.le_iff_toNat_le.mp h1, UInt8.le_iff_toNat_le.mp h2⟩

/-- `hex_value` accepts the digits in either case. -/
theorem hexValue_eq_some_iff {ch : Byte} {digit : ℕ} :
    hexValue ch = some digit ↔ HexDigitOf ch digit := by
  have hup := toNat_toupper ch
  have h09 : (48 ≤ ch ∧ ch ≤ 57) ↔ 48 ≤ ch.toNat ∧ ch.toNat ≤ 57 := by
    simp only [UInt8.le_iff_toNat_le]
    exact Iff.rfl
  have hAF : (65 ≤ toupper ch ∧ toupper ch ≤ 70) ↔
      65 ≤ (toupper ch).toNat ∧ (toupper ch).toNat ≤ 70 := by
    simp only [UInt8.le_iff_toNat_le]
    exact Iff.rfl
  unfold hexValue HexDigitOf
  simp only [h09, hAF]
  by_cases h : 48 ≤ ch.toNat ∧ ch.toNat ≤ 57
  · rw [if_pos h, Option.some.injEq]
    omega
  · rw [if_neg h]
    by_cases h' : 65 ≤ (toupper ch).toNat ∧ (toupper ch).toNat ≤ 70
    · rw [if_pos h', Option.some.injEq]
      split at hup <;> omega
    · rw [if_neg h']
      simp only [reduceCtorEq, false_iff]
      split at hup <;> omega

/-- One turn of the digit loop, while there is room for the digit. -/
theorem toNat_shiftLeft_or (value : BitVec 16) (digit : ℕ) (hv : value.toNat < 4096)
    (hd : digit < 16) :
    (value <<< 4 ||| BitVec.ofNat 16 digit).toNat = value.toNat * 16 + digit := by
  have hshift : value.toNat <<< 4 = value.toNat * 16 := by
    rw [Nat.shiftLeft_eq]
  rw [BitVec.toNat_or, BitVec.toNat_shiftLeft, BitVec.toNat_ofNat,
    Nat.mod_eq_of_lt (show value.toNat <<< 4 < 2 ^ 16 by rw [hshift]; omega),
    Nat.mod_eq_of_lt (show digit < 2 ^ 16 by omega), ← Nat.shiftLeft_add_eq_or_of_lt hd, hshift]

/-- Four accepted digits are put together as a number. -/
theorem parseCrc4_eq_some_iff {a b c d : Byte} {rest : Bytes} {value : BitVec 16} :
    parseCrc4 (a :: b :: c :: d :: rest) = some value ↔ HexTextOf [a, b, c, d] value := by
  -- the loop over the four digits, written out
  have hparse : parseCrc4 (a :: b :: c :: d :: rest) =
      (hexValue a).bind fun a' => (hexValue b).bind fun b' => (hexValue c).bind fun c' =>
        (hexValue d).bind fun d' => some ((((0#16 <<< 4 ||| BitVec.ofNat 16 a') <<< 4 |||
          BitVec.ofNat 16 b') <<< 4 ||| BitVec.ofNat 16 c') <<< 4 ||| BitVec.ofNat 16 d') := by
    unfold parseCrc4
    simp only [List.take_succ_cons, List.take_zero, List.foldlM_cons, List.foldlM_nil]
    cases hexValue a <;> cases hexValue b <;> cases hexValue c <;> cases hexValue d <;> rfl
  -- each shift makes room for a digit, so `|` adds
  have hval : ∀ {a' b' c' d' : ℕ}, a' < 16 → b' < 16 → c' < 16 → d' < 16 →
      ((((0#16 <<< 4 ||| BitVec.ofNat 16 a') <<< 4 ||| BitVec.ofNat 16 b') <<< 4 |||
        BitVec.ofNat 16 c') <<< 4 ||| BitVec.ofNat 16 d').toNat =
      a' * 4096 + b' * 256 + c' * 16 + d' := by
    intro a' b' c' d' ha hb hc hd
    have h1 := toNat_shiftLeft_or 0#16 a' (by decide) ha
    have h0 : (0#16).toNat = 0 := rfl
    have h2 := toNat_shiftLeft_or _ b' (by rw [h1]; omega) hb
    have h3 := toNat_shiftLeft_or _ c' (by rw [h2, h1]; omega) hc
    have h4 := toNat_shiftLeft_or _ d' (by rw [h3, h2, h1]; omega) hd
    rw [h4, h3, h2, h1]
    omega
  have hlt : ∀ {ch : Byte} {digit : ℕ}, HexDigitOf ch digit → digit < 16 := by
    intro ch digit h
    unfold HexDigitOf at h
    omega
  rw [hparse]
  simp only [Option.bind_eq_some_iff, hexValue_eq_some_iff]
  constructor
  · rintro ⟨a', ha, b', hb, c', hc, d', hd, hv⟩
    cases hv
    exact ⟨a, b, c, d, a', b', c', d', rfl, ha, hb, hc, hd,
      hval (hlt ha) (hlt hb) (hlt hc) (hlt hd)⟩
  · rintro ⟨_, _, _, _, a', b', c', d', hl, ha, hb, hc, hd, hv⟩
    cases hl
    refine ⟨a', ha, b', hb, c', hc, d', hd, ?_⟩
    rw [Option.some.injEq, ← BitVec.toNat_inj, hval (hlt ha) (hlt hb) (hlt hc) (hlt hd), hv]

/-- `strrchr` splits at the last occurrence. -/
theorem strrchr_eq_some_iff {s : CStr} {c : Byte} {k : ℕ} :
    strrchr s c = some k ↔ ∃ u v, s.bytes = u ++ c :: v ∧ c ∉ v ∧ u.length = k := by
  -- the search from the end stops at the byte with none behind it
  have key : ∀ u v : Bytes, s.bytes = u ++ c :: v → c ∉ v → strrchr s c = some u.length := by
    intro u v hs hv
    have hnone : v.reverse.findIdx? (· == c) = none := by
      rw [List.findIdx?_eq_none_iff]
      intro x hx
      simpa using fun he : x = c => hv (he ▸ List.mem_reverse.mp hx)
    simp [strrchr, hs, List.findIdx?_append, hnone, List.findIdx?_cons]
  constructor
  · intro h
    have hc : c ∈ s.bytes := by
      by_contra hc
      have hnone : s.bytes.reverse.findIdx? (· == c) = none := by
        rw [List.findIdx?_eq_none_iff]
        intro x hx
        simpa using fun he : x = c => hc (he ▸ List.mem_reverse.mp hx)
      simp [strrchr, hnone] at h
    obtain ⟨v, u, hs, hv⟩ := List.eq_append_cons_of_mem (List.mem_reverse.mpr hc)
    have hs' : s.bytes = u.reverse ++ c :: v.reverse := by
      rw [← s.bytes.reverse_reverse, hs]
      simp
    have hv' : c ∉ v.reverse := by simpa using hv
    rw [key _ _ hs' hv', Option.some.injEq] at h
    exact ⟨_, _, hs', hv', h⟩
  · rintro ⟨u, v, hs, hv, rfl⟩
    exact key u v hs hv

/-- The buffer holds a text with its terminator behind. -/
def Holds (buffer : Vector Byte frameMaxLen) (text : Bytes) : Prop :=
  ∃ rest, buffer.toList = text ++ 0 :: rest

theorem Holds.length_lt {buffer : Vector Byte frameMaxLen} {text : Bytes}
    (h : Holds buffer text) : text.length < 256 := by
  obtain ⟨rest, hrest⟩ := h
  have hlen : buffer.toList.length = 256 := by simp
  rw [hrest] at hlen
  simp only [List.length_append, List.length_cons] at hlen
  omega

/-- A frame's text spells a frame in one way. -/
theorem IsFrame.unique {text : Bytes} {frame frame' : ParsedFrame} (h : IsFrame text frame)
    (h' : IsFrame text frame') : frame = frame' := by
  obtain ⟨hraw, ⟨hex, htext, hhex⟩, -, -, hcalc, hagree⟩ := h
  obtain ⟨hraw', ⟨hex', htext', hhex'⟩, -, -, hcalc', hagree'⟩ := h'
  have hlen : hex.length = hex'.length := by
    obtain ⟨_, _, _, _, _, _, _, _, rfl, -⟩ := hhex
    obtain ⟨_, _, _, _, _, _, _, _, rfl, -⟩ := hhex'
    rfl
  have hpay : frame.payload = frame'.payload := by
    rw [htext, List.cons.injEq] at htext'
    exact (List.append_inj_left' htext'.2 (by simp [hlen]))
  obtain ⟨raw, payload, rcrc, ccrc⟩ := frame
  obtain ⟨raw', payload', rcrc', ccrc'⟩ := frame'
  simp only at hraw hraw' hpay hcalc hcalc' hagree hagree'
  subst hpay
  simp only [ParsedFrame.mk.injEq, true_and]
  exact ⟨hraw.trans hraw'.symm, by rw [← hagree, ← hagree', hcalc, hcalc'],
    hcalc.trans hcalc'.symm⟩

/-- Four digits spell one value. -/
theorem HexTextOf.unique {text : Bytes} {value value' : BitVec 16} (h : HexTextOf text value)
    (h' : HexTextOf text value') : value = value' := by
  have key : ∀ {ch : Byte} {digit digit' : ℕ}, HexDigitOf ch digit → HexDigitOf ch digit' →
      digit = digit' := by
    unfold HexDigitOf
    intro ch digit digit' h h'
    omega
  obtain ⟨_, _, _, _, _, _, _, _, rfl, h1, h2, h3, h4, hvalue⟩ := h
  obtain ⟨_, _, _, _, _, _, _, _, htext, h1', h2', h3', h4', hvalue'⟩ := h'
  simp only [List.cons.injEq, and_true] at htext
  obtain ⟨rfl, rfl, rfl, rfl⟩ := htext
  refine BitVec.eq_of_toNat_eq ?_
  rw [hvalue, hvalue', key h1 h1', key h2 h2', key h3 h3', key h4 h4']

/-- A hexadecimal digit is none of the bytes before the digits, nor `@`. -/
theorem HexTextOf.not_mem {text : Bytes} {value : BitVec 16} (h : HexTextOf text value) {b : Byte}
    (hb : b.toNat < 48 ∨ b.toNat = 64) : b ∉ text := by
  have key : ∀ {ch : Byte} {digit : ℕ}, HexDigitOf ch digit → b ≠ ch := by
    rintro ch digit h rfl
    unfold HexDigitOf at h
    omega
  obtain ⟨_, _, _, _, _, _, _, _, rfl, h1, h2, h3, h4, -⟩ := h
  simp [key h1, key h2, key h3, key h4]

/-- The tests of `validate_frame`, one after the other, on a length the buffer has room for. -/
theorem validateFrame_eq_valid_iff_tests {buffer : Vector Byte frameMaxLen} {length : ℕ}
    (h8 : 8 ≤ length) (h256 : length < 256) {frame : ParsedFrame} :
    validateFrame buffer length = .valid frame ↔
      buffer.toList[0]? = some Ascii.atSign ∧ buffer.toList[length - 2]? = some Ascii.cr ∧
        buffer.toList[length - 1]? = some Ascii.lf ∧
        ∃ starIndex, strrchr (cstr buffer.toList) Ascii.star = some starIndex ∧
          starIndex + 7 = length ∧ 1 < starIndex ∧
          parseCrc4 (buffer.toList.drop (starIndex + 1)) = some frame.receivedCrc ∧
          frame.payload = (buffer.toList.drop 1).take (starIndex - 1) ∧
          frame.calculatedCrc = crc16CcittFalse frame.payload ∧
          frame.calculatedCrc = frame.receivedCrc ∧
          frame.raw = buffer.toList.take length := by
  have hlen : ¬ (length < 8 ∨ frameMaxLen ≤ length) := by
    simp only [frameMaxLen]
    omega
  have hat : ∀ {i : ℕ} (hi : i < frameMaxLen) {b : Byte},
      buffer.toList[i]? = some b ↔ buffer[i] = b := by
    intro i hi b
    simp [hi]
  rw [validateFrame, dif_neg hlen, hat (by decide), hat (show length - 2 < 256 by omega),
    hat (show length - 1 < 256 by omega)]
  dsimp only
  split
  · rename_i hends
    simp only [reduceCtorEq, false_iff]
    rintro ⟨h0, h1, h2, -⟩
    exact hends.elim (absurd h0) fun h => h.elim (absurd h1) (absurd h2)
  rename_i hends
  simp only [not_or, not_not] at hends
  obtain ⟨h0, h1, h2⟩ := hends
  simp only [h0, h1, h2, true_and]
  -- the last `*` of the buffer as a C string
  cases hstar : strrchr (cstr buffer.toList) Ascii.star with
  | none => simp
  | some starIndex =>
    simp only [Option.some.injEq, exists_eq_left']
    by_cases hseven : starIndex + 7 = length
    swap
    · simp [hseven]
    by_cases hone : starIndex ≤ 1
    · simp [hseven, hone, Nat.not_lt.mpr hone]
    cases hcrc : parseCrc4 (buffer.toList.drop (starIndex + 1)) with
    | none => simp [hseven, hone]
    | some receivedCrc =>
      simp only [hseven, hone, ne_eq, not_true_eq_false, if_false, true_and, Nat.lt_of_not_le hone,
        Option.some.injEq]
      obtain ⟨raw, payload, rcrc, ccrc⟩ := frame
      -- the two checksums
      split
      · rename_i hagree
        simp only [reduceCtorEq, false_iff]
        rintro ⟨rfl, rfl, rfl, heq, -⟩
        exact hagree heq
      · rename_i hagree
        rw [not_not] at hagree
        simp only [ValidateResult.valid.injEq, ParsedFrame.mk.injEq]
        constructor
        · rintro ⟨rfl, rfl, rfl, rfl⟩
          exact ⟨rfl, rfl, rfl, hagree, rfl⟩
        · rintro ⟨rfl, rfl, rfl, -, rfl⟩
          exact ⟨rfl, rfl, rfl, rfl⟩

/-- **The check is the format.** On a buffer that holds a text, `validate_frame`
accepts exactly the texts that spell a frame, and reads that frame out. -/
theorem validateFrame_eq_valid_iff {buffer : Vector Byte frameMaxLen} {text : Bytes}
    (h : Holds buffer text) {frame : ParsedFrame} :
    validateFrame buffer text.length = .valid frame ↔ IsFrame text frame := by
  have hlt := h.length_lt
  obtain ⟨rest, hrest⟩ := h
  by_cases h8 : 8 ≤ text.length
  swap
  · have hshort : validateFrame buffer text.length = .formatError := by
      rw [validateFrame, dif_pos (Or.inl (by omega))]
    rw [hshort]
    simp only [reduceCtorEq, false_iff]
    intro h
    obtain ⟨hex, htext, hhex⟩ := h.spells
    obtain ⟨_, _, _, _, _, _, _, _, rfl, -⟩ := hhex
    have := List.length_pos_iff.mpr h.payload_ne
    simp only [htext, List.length_cons, List.length_append, List.length_nil] at h8
    omega
  rw [validateFrame_eq_valid_iff_tests h8 hlt, hrest]
  constructor
  · rintro ⟨h0, h1, h2, starIndex, hstar, hseven, hone, hcrc, hpay, hcalc, hagree, hraw⟩
    obtain ⟨u, v, huv, hv, rfl⟩ := strrchr_eq_some_iff.mp hstar
    have hpre : u ++ Ascii.star :: v <+: text ++ 0 :: rest := huv ▸ List.takeWhile_prefix _
    have hu : u ++ [Ascii.star] <+: text := by
      refine List.prefix_of_prefix_length_le (List.IsPrefix.trans ?_ hpre)
        (List.prefix_append text _) (by simp; omega)
      exact ⟨v, by simp⟩
    obtain ⟨x, rfl⟩ := hu
    have hnul : (0 : Byte) ∉ u := by
      have := (cstr (u ++ [Ascii.star] ++ x ++ 0 :: rest)).nulFree
      rw [huv] at this
      simp only [List.mem_append, not_or] at this
      exact this.1
    have hx : x.length = 6 := by
      simp only [List.length_append, List.length_singleton] at hseven
      omega
    have hlen : (u ++ [Ascii.star] ++ x).length = u.length + 7 := hseven.symm
    have hat : ∀ i < 6, (u ++ [Ascii.star] ++ x ++ 0 :: rest)[u.length + 1 + i]? = x[i]? := by
      intro i hi
      rw [List.getElem?_append_left (by omega), List.getElem?_append_right (by simp),
        List.length_append, List.length_singleton, Nat.add_sub_cancel_left]
    rw [hlen, show u.length + 7 - 2 = u.length + 1 + 4 by omega, hat 4 (by decide)] at h1
    rw [hlen, show u.length + 7 - 1 = u.length + 1 + 5 by omega, hat 5 (by decide)] at h2
    have hdrop : (u ++ [Ascii.star] ++ x ++ 0 :: rest).drop (u.length + 1) = x ++ 0 :: rest := by
      rw [List.append_assoc _ x, ← List.length_singleton (a := Ascii.star), ← List.length_append,
        List.drop_left]
    rw [hdrop] at hcrc
    -- the six bytes behind the star, and the first of those before it
    obtain ⟨a, b, c, d, e, f, rfl⟩ : ∃ a b c d e f, x = [a, b, c, d, e, f] := by
      rcases x with _ | ⟨a, _ | ⟨b, _ | ⟨c, _ | ⟨d, _ | ⟨e, _ | ⟨f, _ | ⟨g, x⟩⟩⟩⟩⟩⟩⟩
      case cons.cons.cons.cons.cons.cons.nil => exact ⟨a, b, c, d, e, f, rfl⟩
      all_goals
        simp only [List.length_cons, List.length_nil] at hx
        omega
    obtain ⟨at', payload, rfl⟩ := List.exists_cons_of_length_pos (Nat.zero_lt_of_lt hone)
    obtain rfl : at' = Ascii.atSign := by simpa using h0
    obtain rfl : e = Ascii.cr := by simpa using h1
    obtain rfl : f = Ascii.lf := by simpa using h2
    obtain hpay : frame.payload = payload := by simpa using hpay
    exact {
      raw := by rw [hraw, List.take_left]
      spells := ⟨[a, b, c, d], by simp [hpay], parseCrc4_eq_some_iff.mp hcrc⟩
      payload_ne := by
        rw [hpay]
        rintro rfl
        simp at hone
      nulFree := by
        rw [hpay]
        exact fun h => hnul (List.mem_cons_of_mem _ h)
      calculated := hcalc
      agree := hagree }
  · intro h
    obtain ⟨hex, htext, hhex⟩ := h.spells
    have hnul : (0 : Byte) ∉ text := by
      simp [htext, h.nulFree, hhex.not_mem (b := 0) (by decide)]
    have hstar : Ascii.star ∉ hex ++ [Ascii.cr, Ascii.lf] := by
      simp [hhex.not_mem (b := Ascii.star) (by decide)]
    have hfour := hhex
    obtain ⟨a, b, c, d, _, _, _, _, rfl, -⟩ := hfour
    have hseven : frame.payload.length + 1 + 7 = text.length := by
      simp [htext]
    have hpos := List.length_pos_iff.mpr h.payload_ne
    have hcstr : (cstr (text ++ 0 :: rest)).bytes = text := by
      rw [cstr_append_nul hnul]
    have hat : ∀ i < 7, (text ++ 0 :: rest)[frame.payload.length + 1 + i]? =
        [Ascii.star, a, b, c, d, Ascii.cr, Ascii.lf][i]? := by
      intro i hi
      rw [List.getElem?_append_left (by omega), htext, ← List.cons_append,
        List.getElem?_append_right (by simp), List.length_cons, Nat.add_sub_cancel_left]
      rfl
    refine ⟨by simp [htext], ?_, ?_, frame.payload.length + 1, ?_, hseven, by omega, ?_, ?_,
      h.calculated, h.agree, ?_⟩
    · rw [← hseven]
      exact hat 5 (by decide)
    · rw [← hseven]
      exact hat 6 (by decide)
    · rw [strrchr_eq_some_iff, hcstr]
      exact ⟨Ascii.atSign :: frame.payload, _, htext, hstar, rfl⟩
    · have hdrop : (text ++ 0 :: rest).drop (frame.payload.length + 1 + 1) =
          a :: b :: c :: d :: Ascii.cr :: Ascii.lf :: 0 :: rest := by
        simp [htext]
      rw [hdrop, parseCrc4_eq_some_iff]
      exact hhex
    · simp [htext]
    · simp [h.raw]

/-! ## The buffer follows the stream -/

/-- The stretch of the stream a frame may still come of: from the last `@`, with
no line feed since, and short enough for the buffer. -/
def OpenFrame (s text : Bytes) : Prop :=
  ∃ before t, s = before ++ text ∧ text = Ascii.atSign :: t ∧ Ascii.atSign ∉ t ∧
    Ascii.lf ∉ t ∧ text.length ≤ 255

/-- There is only one last `@`. -/
theorem OpenFrame.unique {s text text' : Bytes} (h : OpenFrame s text)
    (h' : OpenFrame s text') : text = text' := by
  have key : ∀ {before before' t t' : Bytes},
      before ++ Ascii.atSign :: t = before' ++ Ascii.atSign :: t' → Ascii.atSign ∉ t →
        before.length ≤ before'.length → t = t' := by
    intro before before' t t' heq ht hlen
    obtain ⟨d, rfl⟩ := List.prefix_of_prefix_length_le (List.prefix_append before _)
      (heq ▸ List.prefix_append before' _) hlen
    rw [List.append_assoc, List.append_cancel_left_eq] at heq
    cases d with
    | nil => exact (List.cons.injEq _ _ _ _ ▸ heq).2
    | cons d ds =>
      obtain ⟨-, rfl⟩ := List.cons.injEq _ _ _ _ ▸ heq
      exact absurd (by simp) ht
  obtain ⟨before, t, hs, rfl, ht, -, -⟩ := h
  obtain ⟨before', t', hs', rfl, ht', -, -⟩ := h'
  rw [hs] at hs'
  rcases Nat.le_total before.length before'.length with hle | hle
  · rw [key hs' ht hle]
  · rw [key hs'.symm ht' hle]

/-- An `@` opens a frame, whatever came before. -/
theorem openFrame_atSign (s : Bytes) : OpenFrame (s ++ [Ascii.atSign]) [Ascii.atSign] :=
  ⟨s, [], rfl, rfl, by simp, by simp, by simp⟩

/-- A line feed leaves none open. -/
theorem not_openFrame_lf (s text : Bytes) : ¬ OpenFrame (s ++ [Ascii.lf]) text := by
  rintro ⟨before, t, hs, rfl, -, hlf, -⟩
  have hlast : (before ++ Ascii.atSign :: t).getLast? = some Ascii.lf := by simp [← hs]
  rcases List.eq_nil_or_concat t with rfl | ⟨t', x, rfl⟩
  · simp at hlast
  · rw [List.concat_eq_append] at hlast hlf
    rw [← List.cons_append, ← List.append_assoc, List.getLast?_concat, Option.some.injEq] at hlast
    simp [hlast] at hlf

/-- Any other byte extends the open frame, while the buffer has room. -/
theorem openFrame_concat_iff {s text : Bytes} {ch : Byte} (hat : ch ≠ Ascii.atSign)
    (hlf : ch ≠ Ascii.lf) :
    OpenFrame (s ++ [ch]) text ↔
      ∃ text', OpenFrame s text' ∧ text = text' ++ [ch] ∧ text'.length < 255 := by
  constructor
  · rintro ⟨before, t, hs, rfl, ht, htl, hlen⟩
    rcases List.eq_nil_or_concat t with rfl | ⟨t', x, rfl⟩
    · obtain ⟨-, h⟩ := List.append_inj' hs rfl
      exact absurd (by simpa using h) hat
    · rw [List.concat_eq_append] at *
      rw [← List.cons_append, ← List.append_assoc] at hs
      obtain ⟨rfl, h⟩ := List.append_inj' hs rfl
      obtain rfl : ch = x := by simpa using h
      simp only [List.mem_append, not_or] at ht htl
      simp only [List.length_cons, List.length_append, List.length_nil] at hlen
      refine ⟨Ascii.atSign :: t', ⟨before, t', rfl, rfl, ht.1, htl.1, ?_⟩, rfl, ?_⟩
      · rw [List.length_cons]
        omega
      · rw [List.length_cons]
        omega
  · rintro ⟨_, ⟨before, t, rfl, rfl, ht, htl, -⟩, rfl, hlen⟩
    refine ⟨before, t ++ [ch], by simp, rfl, ?_, ?_, by simpa using Nat.succ_le_of_lt hlen⟩
    · simp [ht, hat.symm]
    · simp [htl, hlf.symm]

/-- **The invariant of the byte machine**, against the stream fed so far. -/
structure Tracks (s : Bytes) (parser : FrameParser) : Prop where
  opened : parser.collecting = true →
    ∃ text, OpenFrame s text ∧ Holds parser.buffer text ∧ parser.length = text.length
  closed : parser.collecting = false → ∀ text, ¬ OpenFrame s text

/-- Starting leaves `@` in the buffer. -/
theorem holds_start (parser : FrameParser) :
    Holds (frameParserStart parser).buffer [Ascii.atSign] := by
  have hlen : parser.buffer.toList.length = 256 := by simp
  have hlist : (frameParserStart parser).buffer.toList =
      (parser.buffer.toList.set 0 Ascii.atSign).set 1 0 := by
    simp [frameParserStart, Vector.toList_set]
  match hbuf : parser.buffer.toList, hlen with
  | _ :: _ :: rest, _ => exact ⟨rest, by rw [hlist, hbuf]; rfl⟩

/-- Putting a byte appends it to what the buffer holds. -/
theorem holds_put {parser : FrameParser} {text : Bytes} (h : Holds parser.buffer text)
    (hlen : parser.length = text.length) (ch : Byte) (hroom : parser.length + 1 < frameMaxLen) :
    Holds (frameParserPut parser ch hroom).buffer (text ++ [ch]) := by
  obtain ⟨rest, hrest⟩ := h
  have hlist : (frameParserPut parser ch hroom).buffer.toList =
      ((text ++ 0 :: rest).set text.length ch).set (text.length + 1) 0 := by
    rw [← hrest, ← hlen]
    simp [frameParserPut, Vector.toList_set]
  have hsize : parser.buffer.toList.length = 256 := by simp
  rw [hrest] at hsize
  cases rest with
  | nil =>
    simp only [List.length_append, List.length_cons, List.length_nil] at hsize
    rw [hlen, frameMaxLen] at hroom
    omega
  | cons _ rest => exact ⟨rest, by rw [hlist]; simp⟩

/-- The end of a frame gives it exactly when the check accepts it. -/
theorem frameParserFinish_eq_some_iff {parser : FrameParser} {text : Bytes}
    (h : Holds parser.buffer text) (hlen : parser.length = text.length) {frame : ParsedFrame} :
    (frameParserFinish parser).2 = some frame ↔ IsFrame text frame := by
  rw [← validateFrame_eq_valid_iff h, ← hlen, frameParserFinish]
  split <;> simp_all

theorem collecting_finish (parser : FrameParser) :
    (frameParserFinish parser).1.collecting = false := by
  unfold frameParserFinish
  split <;> rfl

/-- **The step lemma.** One more byte keeps the invariant, and it delivers a frame
exactly when it is a line feed that completes the open stretch to one. -/
theorem frameParserByte_spec {s : Bytes} {parser : FrameParser} (h : Tracks s parser) (ch : Byte) :
    Tracks (s ++ [ch]) (frameParserByte parser ch).1 ∧
      ∀ frame, (frameParserByte parser ch).2 = some frame ↔
        ch = Ascii.lf ∧ ∃ text, OpenFrame s text ∧ text.length < 255 ∧
          IsFrame (text ++ [Ascii.lf]) frame := by
  have hstarted : ∀ parser' : FrameParser,
      Tracks (s ++ [Ascii.atSign]) (frameParserStart parser') := by
    intro parser'
    refine ⟨fun _ => ⟨_, openFrame_atSign s, holds_start parser', rfl⟩, fun hc => ?_⟩
    exact absurd hc (by simp [frameParserStart])
  unfold frameParserByte
  by_cases hcol : parser.collecting = true
  swap
  · -- waiting: only an `@` changes anything
    have hnone := h.closed (by simpa using hcol)
    rw [if_pos (by simpa using hcol)]
    by_cases hat : ch = Ascii.atSign
    · rw [if_pos hat, hat]
      exact ⟨hstarted parser, by simp⟩
    · rw [if_neg hat]
      refine ⟨⟨fun hc => absurd hc hcol, fun _ text ho => ?_⟩, fun frame => ?_⟩
      · by_cases hlf : ch = Ascii.lf
        · exact not_openFrame_lf s text (hlf ▸ ho)
        · obtain ⟨text', ho', -⟩ := (openFrame_concat_iff hat hlf).mp ho
          exact hnone text' ho'
      · simp only [reduceCtorEq, false_iff]
        rintro ⟨-, text, ho, -⟩
        exact hnone text ho
  obtain ⟨text, hopen, hholds, hlen⟩ := h.opened hcol
  rw [if_neg (by simpa using hcol)]
  by_cases hat : ch = Ascii.atSign
  · rw [if_pos hat, hat]
    exact ⟨hstarted _, by simp⟩
  rw [if_neg hat]
  by_cases hfull : frameMaxLen - 1 ≤ parser.length
  · -- overlong: the stretch is given up, and no byte but an `@` can open another
    rw [dif_pos hfull]
    have h255 : ¬ text.length < 255 := by
      simp only [frameMaxLen] at hfull
      omega
    refine ⟨⟨fun hc => absurd hc (by simp [frameParserReset]), fun _ text' ho => ?_⟩,
      fun frame => ?_⟩
    · by_cases hlf : ch = Ascii.lf
      · exact not_openFrame_lf s text' (hlf ▸ ho)
      · obtain ⟨text'', ho', -, hlt⟩ := (openFrame_concat_iff hat hlf).mp ho
        exact h255 (hopen.unique ho' ▸ hlt)
    · simp only [reduceCtorEq, false_iff]
      rintro ⟨-, text', ho, hlt, -⟩
      exact h255 (hopen.unique ho ▸ hlt)
  rw [dif_neg hfull]
  have h255 : text.length < 255 := by
    simp only [frameMaxLen] at hfull
    omega
  have hput := holds_put hholds hlen ch (by simp only [frameMaxLen] at hfull ⊢; omega)
  have hputlen : (frameParserPut parser ch (by simp only [frameMaxLen] at hfull ⊢; omega)).length =
      (text ++ [ch]).length := by
    simp [frameParserPut, hlen]
  dsimp only
  by_cases hlf : ch = Ascii.lf
  · -- a line feed: the check decides
    rw [if_pos hlf]
    refine ⟨⟨fun hc => ?_, fun _ text' ho => not_openFrame_lf s text' (hlf ▸ ho)⟩, fun frame => ?_⟩
    · rw [collecting_finish] at hc
      exact absurd hc (by simp)
    · rw [frameParserFinish_eq_some_iff hput hputlen, hlf]
      constructor
      · exact fun hf => ⟨rfl, text, hopen, h255, hf⟩
      · rintro ⟨-, text', ho, -, hf⟩
        exact hopen.unique ho ▸ hf
  · rw [if_neg hlf]
    refine ⟨⟨fun _ => ⟨text ++ [ch], ?_, hput, hputlen⟩, fun hc => ?_⟩, fun frame => ?_⟩
    · exact (openFrame_concat_iff hat hlf).mpr ⟨text, hopen, rfl, h255⟩
    · exact absurd hcol (by simpa [frameParserPut] using hc)
    · simp [hlf]

/-! ## Whole streams -/

/-- A frame in the stream, by the cut it makes: what comes before, the open
stretch, the line feed, and what comes after. -/
theorem isFrameAt_iff {s : Bytes} {i j : ℕ} {frame : ParsedFrame} :
    IsFrameAt s i j frame ↔
      ∃ before text rest, s = before ++ (text ++ Ascii.lf :: rest) ∧ before.length = i ∧
        before.length + text.length = j ∧ OpenFrame (before ++ text) text ∧
        text.length < 255 ∧ IsFrame (text ++ [Ascii.lf]) frame := by
  constructor
  · intro h
    have hj : j < s.length := by
      by_contra hj
      exact absurd (List.getElem?_eq_none (Nat.le_of_not_lt hj) ▸ h.stop) (by simp)
    have hlt := h.lt
    have hdropj : s.drop j = Ascii.lf :: s.drop (j + 1) := by
      rw [List.drop_eq_getElem_cons hj, (List.getElem?_eq_some_iff.mp h.stop).2]
    have hdropi : s.drop i = Ascii.atSign :: s.drop (i + 1) := by
      rw [List.drop_eq_getElem_cons (by omega), (List.getElem?_eq_some_iff.mp h.start).2]
    have hmid : s.drop i = (s.drop i).take (j - i) ++ Ascii.lf :: s.drop (j + 1) := by
      have hij : i + (j - i) = j := by omega
      rw [← hdropj, ← hij, ← List.drop_drop, hij,
        List.take_append_drop]
    have htext : (s.drop i).take (j - i) = Ascii.atSign :: (s.drop (i + 1)).take (j - i - 1) := by
      rw [hdropi, List.take_cons (by omega)]
    -- a byte of the open text stands between the two ends
    have hinside : ∀ {b}, b ∈ (s.drop (i + 1)).take (j - i - 1) →
        ∃ k, i < k ∧ k < j ∧ s[k]? = some b := by
      intro b hb
      obtain ⟨k, hk, hkb⟩ := List.mem_iff_getElem.mp hb
      simp only [List.length_take, List.length_drop] at hk
      refine ⟨i + 1 + k, by omega, by omega, ?_⟩
      rw [← hkb]
      simp
    have hlen : ((s.drop i).take (j - i)).length = j - i := by
      rw [List.length_take, List.length_drop]
      omega
    have hshort := h.short
    simp only [frameMaxLen] at hshort
    refine ⟨s.take i, (s.drop i).take (j - i), s.drop (j + 1), ?_, ?_, ?_, ?_, by omega, ?_⟩
    · rw [← hmid, List.take_append_drop]
    · rw [List.length_take]
      omega
    · rw [hlen, List.length_take]
      omega
    · refine ⟨s.take i, _, rfl, htext, fun hm => ?_, fun hm => ?_, by omega⟩
      · obtain ⟨k, h1, h2, h3⟩ := hinside hm
        exact h.onlyAt k h1 h2 h3
      · obtain ⟨k, h1, h2, h3⟩ := hinside hm
        exact h.first k h1 h2 h3
    · have hslice : slice s i j = (s.drop i).take (j - i) ++ [Ascii.lf] := by
        rw [slice, show j + 1 - i = j - i + 1 by omega, List.take_add_one, List.getElem?_drop,
          show i + (j - i) = j by omega, h.stop]
        rfl
      exact hslice ▸ h.isFrame
  · rintro ⟨before, text, rest, rfl, rfl, rfl, ⟨before', t, hs, rfl, hat, hlf, hlen⟩, hlt, hf⟩
    -- and between the two ends there is only the open text
    have hinside : ∀ k, before.length < k → k < before.length + (Ascii.atSign :: t).length →
        ∃ b ∈ t, (before ++ (Ascii.atSign :: t ++ Ascii.lf :: rest))[k]? = some b := by
      intro k h1 h2
      rw [List.length_cons] at h2
      obtain ⟨m, rfl⟩ : ∃ m, k = before.length + (m + 1) := ⟨k - before.length - 1, by omega⟩
      have hm : m < t.length := by omega
      refine ⟨t[m], List.getElem_mem hm, ?_⟩
      rw [List.getElem?_append_right (by omega), Nat.add_sub_cancel_left,
        List.getElem?_append_left (by rw [List.length_cons]; omega), List.getElem?_cons_succ,
        List.getElem?_eq_getElem hm]
    rw [List.length_cons] at hlt
    exact {
      start := by simp
      lt := by
        rw [List.length_cons]
        omega
      stop := by simp
      first := by
        intro k h1 h2 h3
        obtain ⟨b, hb, hk⟩ := hinside k h1 h2
        rw [hk, Option.some.injEq] at h3
        exact hlf (h3 ▸ hb)
      onlyAt := by
        intro k h1 h2 h3
        obtain ⟨b, hb, hk⟩ := hinside k h1 h2
        rw [hk, Option.some.injEq] at h3
        exact hat (h3 ▸ hb)
      short := by
        simp only [frameMaxLen, List.length_cons]
        omega
      isFrame := by
        have hslice : slice (before ++ (Ascii.atSign :: t ++ Ascii.lf :: rest)) before.length
            (before.length + (Ascii.atSign :: t).length) = Ascii.atSign :: t ++ [Ascii.lf] := by
          rw [slice, List.drop_left, ← List.singleton_append (x := Ascii.lf), ← List.append_assoc]
          refine List.take_left' ?_
          simp only [List.length_append, List.length_cons, List.length_nil]
          omega
        rw [hslice]
        exact hf }

/-- One more byte of the stream: the frames that stood in it, and the one the byte completes. -/
theorem isFrameAt_concat_iff {s : Bytes} {ch : Byte} {i j : ℕ} {frame : ParsedFrame} :
    IsFrameAt (s ++ [ch]) i j frame ↔
      IsFrameAt s i j frame ∨
        j = s.length ∧ ch = Ascii.lf ∧ ∃ text, OpenFrame s text ∧ i + text.length = s.length ∧
          text.length < 255 ∧ IsFrame (text ++ [Ascii.lf]) frame := by
  rw [isFrameAt_iff, isFrameAt_iff]
  constructor
  · rintro ⟨before, text, rest, hs, rfl, rfl, hopen, hlt, hf⟩
    rcases List.eq_nil_or_concat rest with rfl | ⟨rest, x, rfl⟩
    · rw [← List.append_assoc] at hs
      obtain ⟨rfl, h⟩ := List.append_inj' hs rfl
      refine Or.inr ⟨by simp, by simpa using h, text, hopen, by simp, hlt, hf⟩
    · rw [List.concat_eq_append, ← List.cons_append, ← List.append_assoc, ← List.append_assoc] at hs
      obtain ⟨rfl, -⟩ := List.append_inj' hs rfl
      exact Or.inl ⟨before, text, rest, by simp, rfl, rfl, hopen, hlt, hf⟩
  · rintro (⟨before, text, rest, rfl, rfl, rfl, hopen, hlt, hf⟩ |
      ⟨rfl, rfl, text, hopen, hi, hlt, hf⟩)
    · exact ⟨before, text, rest ++ [ch], by simp, rfl, rfl, hopen, hlt, hf⟩
    · have hopen' := hopen
      obtain ⟨before, t, rfl, -⟩ := hopen'
      rw [List.length_append] at hi
      exact ⟨before, text, [], by simp, by omega, by simp, hopen, hlt, hf⟩

/-- What a run has delivered: the frames that stand in the stream, each once and in order. -/
def Delivered (s : Bytes) (frames : List ParsedFrame) : Prop :=
  ∃ places : List (ℕ × ℕ), places.Pairwise (fun p q => p.2 < q.1) ∧
    (∀ i j, (i, j) ∈ places ↔ ∃ frame, IsFrameAt s i j frame) ∧
    List.Forall₂ (fun p frame => IsFrameAt s p.1 p.2 frame) places frames

/-- No frame that stands in the stream reaches into the open stretch. -/
theorem IsFrameAt.stop_lt {s text : Bytes} {i j : ℕ} {frame : ParsedFrame}
    (h : IsFrameAt s i j frame) (hopen : OpenFrame s text) : j + text.length < s.length := by
  obtain ⟨before, t, rfl, rfl, -, hlf, -⟩ := hopen
  have hstop := h.stop
  rw [List.length_append]
  by_contra hge
  rw [List.getElem?_append_right (by omega)] at hstop
  rcases List.mem_cons.mp (List.mem_of_getElem? hstop) with heq | hmem
  · exact absurd heq (by decide)
  · exact hlf hmem

/-- **One byte delivers what it completes.** -/
theorem Delivered.concat {s : Bytes} {frames : List ParsedFrame} (h : Delivered s frames)
    {ch : Byte} {out : Option ParsedFrame}
    (hout : ∀ frame, out = some frame ↔ ch = Ascii.lf ∧ ∃ text, OpenFrame s text ∧
      text.length < 255 ∧ IsFrame (text ++ [Ascii.lf]) frame) :
    Delivered (s ++ [ch]) (frames ++ out.toList) := by
  obtain ⟨places, hsorted, hplaces, hframes⟩ := h
  -- the places found before stay places
  have hold : List.Forall₂ (fun p frame => IsFrameAt (s ++ [ch]) p.1 p.2 frame) places frames :=
    hframes.imp fun _ _ hf => isFrameAt_concat_iff.mpr (Or.inl hf)
  cases out with
  | none =>
    refine ⟨places, hsorted, fun i j => ?_, by simpa using hold⟩
    rw [hplaces]
    refine exists_congr fun frame => ?_
    rw [isFrameAt_concat_iff, iff_self_or]
    rintro ⟨-, hlf, text, hopen, -, hlt, hf⟩
    exact absurd ((hout frame).mpr ⟨hlf, text, hopen, hlt, hf⟩) (by simp)
  | some frame =>
    obtain ⟨hlf, text, hopen, hlt, hf⟩ := (hout frame).mp rfl
    have hle : text.length ≤ s.length := by
      obtain ⟨before, t, rfl, -⟩ := hopen
      simp
    have hnew : IsFrameAt (s ++ [ch]) (s.length - text.length) s.length frame :=
      isFrameAt_concat_iff.mpr (Or.inr ⟨rfl, hlf, text, hopen, by omega, hlt, hf⟩)
    refine ⟨places ++ [(s.length - text.length, s.length)], ?_, fun i j => ?_,
      List.rel_append hold (List.Forall₂.cons hnew List.Forall₂.nil)⟩
    · rw [List.pairwise_append]
      refine ⟨hsorted, List.pairwise_singleton _ _, ?_⟩
      -- the new place begins behind the end of every earlier one
      rintro ⟨i, j⟩ hp q hq
      rw [List.mem_singleton.mp hq]
      obtain ⟨frame', hf'⟩ := (hplaces i j).mp hp
      have := hf'.stop_lt hopen
      change j < s.length - text.length
      omega
    · rw [List.mem_append, List.mem_singleton, hplaces, Prod.mk.injEq]
      constructor
      · rintro (⟨frame', hf'⟩ | ⟨rfl, rfl⟩)
        · exact ⟨frame', isFrameAt_concat_iff.mpr (Or.inl hf')⟩
        · exact ⟨frame, hnew⟩
      · rintro ⟨frame', hf'⟩
        rcases isFrameAt_concat_iff.mp hf' with hf' | ⟨rfl, -, text', hopen', hi, -, -⟩
        · exact Or.inl ⟨frame', hf'⟩
        · obtain rfl := hopen.unique hopen'
          exact Or.inr ⟨by omega, rfl⟩

/-- What the stream delivers is determined. -/
theorem Delivered.unique {s : Bytes} {frames frames' : List ParsedFrame} (h : Delivered s frames)
    (h' : Delivered s frames') : frames = frames' := by
  have hsort : ∀ {places : List (ℕ × ℕ)}, places.Pairwise (fun p q => p.2 < q.1) →
      (∀ i j, (i, j) ∈ places → i < j) → places.Pairwise (fun p q => p.1 < q.1) := by
    intro places hp hlt
    refine hp.imp_of_mem fun {p q} hp _ hpq => ?_
    have := hlt p.1 p.2 hp
    omega
  obtain ⟨places, hsorted, hplaces, hframes⟩ := h
  obtain ⟨places', hsorted', hplaces', hframes'⟩ := h'
  have hlt := hsort hsorted fun i j hp => (((hplaces i j).mp hp).choose_spec).lt
  have hlt' := hsort hsorted' fun i j hp => (((hplaces' i j).mp hp).choose_spec).lt
  have : Std.Irrefl fun p q : ℕ × ℕ => p.1 < q.1 := ⟨fun p => Nat.lt_irrefl p.1⟩
  have : Std.Asymm fun p q : ℕ × ℕ => p.1 < q.1 := ⟨fun _ _ h => Nat.lt_asymm h⟩
  obtain rfl : places = places' := by
    refine hlt.eq_of_mem_iff hlt' fun p => ?_
    exact (hplaces p.1 p.2).trans (hplaces' p.1 p.2).symm
  refine List.right_unique_forall₂' (fun p frame frame' hf hf' => ?_) hframes hframes'
  exact hf.isFrame.unique hf'.isFrame

/-- The frames of two stretches, fed one after the other. -/
theorem frameParserFeed_append (parser : FrameParser) (s t : Bytes) :
    frameParserFeed parser (s ++ t) =
      ((frameParserFeed (frameParserFeed parser s).1 t).1,
        (frameParserFeed parser s).2 ++ (frameParserFeed (frameParserFeed parser s).1 t).2) := by
  induction s generalizing parser with
  | nil => rfl
  | cons ch s ih => simp [frameParserFeed, ih]

theorem frameParserFeed_singleton (parser : FrameParser) (ch : Byte) :
    frameParserFeed parser [ch] =
      ((frameParserByte parser ch).1, (frameParserByte parser ch).2.toList) := by
  simp [frameParserFeed]

/-- A run of calls, from one parser to the next. -/
def frameParserFeedCalls (parser : FrameParser) : List Bytes → FrameParser × List ParsedFrame
  | [] => (parser, [])
  | data :: calls =>
    let (parser, frames) := frameParserFeed parser data
    let (parser, later) := frameParserFeedCalls parser calls
    (parser, frames ++ later)

/-- The cut into calls does not matter. -/
theorem frameParserFeedCalls_eq (parser : FrameParser) (calls : List Bytes) :
    frameParserFeedCalls parser calls = frameParserFeed parser calls.flatten := by
  induction calls generalizing parser with
  | nil => rfl
  | cons data calls ih =>
    simp only [frameParserFeedCalls, ih, List.flatten_cons, frameParserFeed_append]

/-- **The run lemma.** A stretch of stream keeps the invariant, and delivers the
frames it completes. -/
theorem Tracks.feed {s : Bytes} {parser : FrameParser} (h : Tracks s parser) (t : Bytes) :
    Tracks (s ++ t) (frameParserFeed parser t).1 ∧
      ∀ frames, Delivered s frames →
        Delivered (s ++ t) (frames ++ (frameParserFeed parser t).2) := by
  induction t generalizing s parser with
  | nil => simpa [frameParserFeed] using h
  | cons ch t ih =>
    obtain ⟨htracks, hout⟩ := frameParserByte_spec h ch
    obtain ⟨htracks', hdelivered⟩ := ih htracks
    rw [← List.append_cons] at htracks' hdelivered
    refine ⟨htracks', fun frames hframes => ?_⟩
    rw [frameParserFeed, ← List.append_assoc]
    exact hdelivered _ (hframes.concat hout)

theorem waiting_init : frameParserInit.collecting = false := rfl

/-- A parser that waits has nothing to do with what came before. -/
theorem tracks_of_waiting {parser : FrameParser} (h : parser.collecting = false) :
    Tracks [] parser where
  opened hc := absurd (h.symm.trans hc) (by simp)
  closed _ := by
    rintro text ⟨before, t, hs, rfl, -⟩
    simp at hs

theorem delivered_nil : Delivered [] [] := by
  refine ⟨[], List.Pairwise.nil, fun i j => ?_, List.Forall₂.nil⟩
  simp only [List.not_mem_nil, false_iff]
  rintro ⟨frame, h⟩
  exact absurd h.start (by simp)

/-- Fed to a parser that waits, a stream delivers its frames. -/
theorem frameParserFeed_delivered {parser : FrameParser} (h : parser.collecting = false)
    (s : Bytes) : Delivered s (frameParserFeed parser s).2 := by
  simpa using ((tracks_of_waiting h).feed s).2 [] delivered_nil

/-- What a fresh parser delivers stands in the stream. -/
theorem exists_isFrameAt_of_mem {s : Bytes} {frame : ParsedFrame}
    (h : frame ∈ (frameParserFeed frameParserInit s).2) : ∃ i j, IsFrameAt s i j frame := by
  obtain ⟨places, -, -, hforall⟩ := frameParserFeed_delivered waiting_init s
  obtain ⟨k, hk, hget⟩ := List.mem_iff_getElem.mp h
  have hplace := hforall.get (hforall.length_eq ▸ hk) hk
  rw [List.get_eq_getElem, List.get_eq_getElem, hget] at hplace
  exact ⟨_, _, hplace⟩

/-- A frame in a stream cuts it at its separators. -/
theorem IsFrameAt.cut {s : Bytes} {i j : ℕ} {frame : ParsedFrame} (h : IsFrameAt s i j frame) :
    ∃ before hex rest, s = before ++ Ascii.atSign :: (frame.payload ++ Ascii.star ::
      (hex ++ Ascii.cr :: Ascii.lf :: rest)) ∧ before.length = i ∧
      HexTextOf hex frame.receivedCrc := by
  obtain ⟨before, text, rest, hs, hi, -, -, -, hframe⟩ := isFrameAt_iff.mp h
  obtain ⟨hex, hspells, hhex⟩ := hframe.spells
  refine ⟨before, hex, rest, ?_, hi, hhex⟩
  have hsplit : text ++ Ascii.lf :: rest = (text ++ [Ascii.lf]) ++ rest := by simp
  rw [hs, hsplit, hspells]
  simp

/-- Nothing is delivered before a line feed. -/
theorem Tracks.feed_quiet {s : Bytes} {parser : FrameParser} (h : Tracks s parser) {t : Bytes}
    (ht : Ascii.lf ∉ t) : (frameParserFeed parser t).2 = [] := by
  induction t generalizing s parser with
  | nil => rfl
  | cons ch t ih =>
    obtain ⟨htracks, hout⟩ := frameParserByte_spec h ch
    have hnone : (frameParserByte parser ch).2 = none := by
      refine Option.eq_none_iff_forall_ne_some.mpr fun frame hf => ht ?_
      rw [((hout frame).mp hf).1]
      exact List.mem_cons_self
    have hrest := ih htracks fun hm => ht (List.mem_cons_of_mem _ hm)
    simp [frameParserFeed, hnone, hrest]

/-- A frame without an `@` or a line feed inside, fed whole after any stream: it
is delivered, and the parser waits again. -/
theorem Tracks.feed_intact {s text : Bytes} {frame : ParsedFrame} {parser : FrameParser}
    (h : Tracks s parser) (hf : IsFrame text frame) (hlen : text.length ≤ frameMaxLen - 1)
    (hat : Ascii.atSign ∉ frame.payload) (hlf : Ascii.lf ∉ frame.payload) :
    (frameParserFeed parser text).2 = [frame] ∧
      (frameParserFeed parser text).1.collecting = false := by
  obtain ⟨hex, htext, hhex⟩ := hf.spells
  have hsplit : ∃ t, text = Ascii.atSign :: t ++ [Ascii.lf] ∧ Ascii.atSign ∉ t ∧ Ascii.lf ∉ t := by
    refine ⟨frame.payload ++ Ascii.star :: (hex ++ [Ascii.cr]), by simp [htext], ?_, ?_⟩
    · have := hhex.not_mem (b := Ascii.atSign) (by decide)
      simp [hat, this]
    · have := hhex.not_mem (b := Ascii.lf) (by decide)
      simp [hlf, this]
  obtain ⟨t, rfl, htat, htlf⟩ := hsplit
  have hopened := h.feed (Ascii.atSign :: t)
  have hquiet := h.feed_quiet (t := Ascii.atSign :: t) (by simp [htlf])
  have hlt : (Ascii.atSign :: t).length < 255 := by
    simp only [frameMaxLen, List.length_append, List.length_singleton] at hlen
    omega
  have hopen : OpenFrame (s ++ Ascii.atSign :: t) (Ascii.atSign :: t) :=
    ⟨s, t, rfl, rfl, htat, htlf, by omega⟩
  obtain ⟨htracks, hout⟩ := frameParserByte_spec hopened.1 Ascii.lf
  have hdone := (hout frame).mpr ⟨rfl, _, hopen, hlt, hf⟩
  rw [frameParserFeed_append, frameParserFeed_singleton, hquiet, hdone]
  refine ⟨rfl, ?_⟩
  by_contra hc
  obtain ⟨text, ho, -⟩ := htracks.opened (by simpa using hc)
  exact not_openFrame_lf _ _ ho

/-- **The delivered frames are the frames of the stream.** However it is cut into
calls, a fresh parser delivers the frames that stand in the stream, each once
and in order; and a frame intact in itself is among them whatever stands before
it and behind it. -/
theorem frameParserFeedCalls_delivered (calls : List Bytes) :
    Delivered calls.flatten (frameParserFeedCalls frameParserInit calls).2 ∧
      ∀ (before text after : Bytes) (frame : ParsedFrame),
        calls.flatten = before ++ text ++ after → IsFrame text frame →
        text.length ≤ frameMaxLen - 1 → Ascii.atSign ∉ frame.payload →
        Ascii.lf ∉ frame.payload →
        (frameParserFeedCalls frameParserInit calls).2 =
          (frameParserFeed frameParserInit before).2 ++ frame ::
            (frameParserFeed frameParserInit after).2 := by
  have hdelivered : ∀ s, Delivered s (frameParserFeed frameParserInit s).2 :=
    frameParserFeed_delivered waiting_init
  rw [frameParserFeedCalls_eq]
  refine ⟨hdelivered _, fun before text after frame hs hf hlen hat hlf => ?_⟩
  have htracks := ((tracks_of_waiting waiting_init).feed before).1
  obtain ⟨hout, hclosed⟩ := htracks.feed_intact hf hlen hat hlf
  rw [hs, List.append_assoc, frameParserFeed_append, frameParserFeed_append, hout,
    List.singleton_append]
  rw [(frameParserFeed_delivered hclosed after).unique (hdelivered after)]

end SmartGateway
