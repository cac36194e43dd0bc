import SmartGateway.Common.MessageJson

/-!
# Numbers and words out of typed text

`strtol` as the program calls it, over a whole string, `atoi`, which reads what a string
begins with, and the conversion `%Ns` of `sscanf`. Each is given with the texts it accepts.
-/

namespace SmartGateway

open Numeral

/-- `LONG_MAX` of a 64-bit `long`. -/
abbrev longMax : ℕ := 2 ^ 63 - 1

/-- `strtol` in base 10 over a whole string: leading space, an optional sign, digits. `none`
where nothing was converted, text was left over, or the value was out of range. -/
def strtol (text : Bytes) : Option ℤ :=
  let s := text.dropWhile isspace
  let negative := s.head? = some Ascii.minus
  let digits := skipOneOf [Ascii.plus, Ascii.minus] s
  if digits = [] ∨ !digits.all isDigit then
    none
  else if negative then
    if longMax + 1 < decimalValue digits then none else some (-decimalValue digits)
  else
    if longMax < decimalValue digits then none else some (decimalValue digits)

/-- `strtol` in base 10 of the number a text begins with: 0 without a digit, and the nearest
`long` of what is out of range. -/
def strtolFront (text : Bytes) : ℤ :=
  let s := text.dropWhile isspace
  let value := decimalValue ((skipOneOf [Ascii.plus, Ascii.minus] s).takeWhile isDigit)
  if s.head? = some Ascii.minus then max (-(longMax + 1)) (-value) else min longMax value

/-- `atoi` of a text of any length: the `long` cut to an `int`. -/
def atoiLong (text : CStr) : BitVec 32 := BitVec.ofInt 32 (strtolFront text.bytes)

/-- `%Ns` of `sscanf`: space is skipped, and then so many bytes go into the word as there
are before the next space, or as the width allows. `none` where there is no byte for it. -/
def scanWord (width : ℕ) (text : Bytes) : Option (Bytes × Bytes) :=
  let s := text.dropWhile isspace
  let word := (s.takeWhile fun b => !isspace b).take width
  if word = [] then none else some (word, s.drop word.length)

/-- A stretch of space. -/
def Blank (text : Bytes) : Prop := ∀ b ∈ text, isspace b = true

/-- A stretch without any. -/
def Solid (text : Bytes) : Prop := ∀ b ∈ text, isspace b = false

/-- The text goes on with space, or is at its end. -/
def Breaks (text : Bytes) : Prop := ∀ b ∈ text.head?, isspace b = true

theorem dropWhile_isspace_eq_nil_iff {text : Bytes} :
    text.dropWhile isspace = [] ↔ Blank text := List.dropWhile_eq_nil_iff

/-- Every text is space and what follows it. -/
theorem exists_blank (text : Bytes) :
    ∃ blank, Blank blank ∧ text = blank ++ text.dropWhile isspace :=
  ⟨text.takeWhile isspace, fun _ hb => List.mem_takeWhile_imp hb,
    List.takeWhile_append_dropWhile.symm⟩

theorem dropWhile_isspace_append {blank text : Bytes} (hblank : Blank blank)
    (htext : ∀ b ∈ text.head?, isspace b = false) :
    (blank ++ text).dropWhile isspace = text := by
  rw [List.dropWhile_append_of_pos hblank]
  cases text with
  | nil => rfl
  | cons b text =>
    have hb : ¬ isspace b = true := by simp [htext b rfl]
    rw [List.dropWhile_cons_of_neg hb]

/-! ## Words -/

theorem takeWhile_solid_append {word rest : Bytes} (hword : Solid word) (hrest : Breaks rest) :
    (word ++ rest).takeWhile (fun b => !isspace b) = word := by
  rw [List.takeWhile_append_of_pos fun b hb => by simp [hword b hb]]
  cases rest with
  | nil => simp
  | cons b rest => simp [hrest b rfl]

/-- **The word a text begins with**: behind space, up to the width, and short of the width
only where space or the end follows. -/
theorem scanWord_eq_some_iff {width : ℕ} {text word rest : Bytes} :
    scanWord width text = some (word, rest) ↔
      ∃ blank, Blank blank ∧ text = blank ++ word ++ rest ∧ word ≠ [] ∧ Solid word ∧
        word.length ≤ width ∧ (word.length = width ∨ Breaks rest) := by
  unfold scanWord
  constructor
  · intro h
    obtain ⟨blank, hblank, htext⟩ := exists_blank text
    generalize text.dropWhile isspace = s at h htext
    simp only [Option.ite_none_left_eq_some, Option.some.injEq, Prod.mk.injEq] at h
    obtain ⟨hne, rfl, rfl⟩ := h
    have hprefix : (s.takeWhile fun b => !isspace b).take width <+: s :=
      (List.take_prefix _ _).trans (List.takeWhile_prefix _)
    refine ⟨blank, hblank, ?_, hne, ?_, List.length_take_le _ _, ?_⟩
    · have hsplit := List.prefix_iff_eq_append.mp hprefix
      rw [List.append_assoc, hsplit]
      exact htext
    · intro b hb
      simpa using List.mem_takeWhile_imp (List.mem_of_mem_take hb)
    · -- short of the width the whole stretch is in the word
      by_cases hshort : (s.takeWhile fun b => !isspace b).length ≤ width
      · right
        have hrest : s.drop (s.takeWhile fun b => !isspace b).length =
            s.dropWhile fun b => !isspace b := by
          have hsplit := List.takeWhile_append_dropWhile (p := fun b => !isspace b) (l := s)
          rw [← List.append_cancel_left_eq, hsplit]
          exact List.prefix_iff_eq_append.mp (List.takeWhile_prefix _)
        rw [List.take_of_length_le hshort, hrest]
        intro b hb
        have hhead := List.head?_dropWhile_not (fun b => !isspace b) s
        rw [hb] at hhead
        simpa using hhead
      · left
        rw [List.length_take]
        omega
  · rintro ⟨blank, hblank, rfl, hne, hword, hle, hend⟩
    have hs : (blank ++ word ++ rest).dropWhile isspace = word ++ rest := by
      rw [List.append_assoc]
      refine dropWhile_isspace_append hblank fun b hb => ?_
      obtain ⟨c, word, rfl⟩ := List.exists_cons_of_ne_nil hne
      obtain rfl : c = b := Option.some.inj hb
      exact hword c List.mem_cons_self
    have htake : ((word ++ rest).takeWhile fun b => !isspace b).take width = word := by
      rcases hend with hfull | hbreaks
      · have hstretch : word <+: (word ++ rest).takeWhile fun b => !isspace b := by
          rw [List.takeWhile_append_of_pos fun b hb => by simp [hword b hb]]
          exact List.prefix_append _ _
        rw [← hfull]
        exact (List.prefix_iff_eq_take.mp hstretch).symm
      · rw [takeWhile_solid_append hword hbreaks, List.take_of_length_le hle]
    simp only [hs, htake]
    rw [if_neg hne, List.drop_left' rfl]

/-! ## Numbers -/

/-- The text of a number: a sign or none, and digits. -/
structure IsNumber (text : Bytes) (value : ℤ) : Prop where
  split : ∃ sign digits, text = sign ++ digits ∧ digits ≠ [] ∧ (∀ b ∈ digits, isDigit b = true) ∧
    ((sign = [] ∨ sign = [Ascii.plus]) ∧ value = decimalValue digits ∨
      sign = [Ascii.minus] ∧ value = -decimalValue digits)
  lower : -(longMax + 1 : ℤ) ≤ value
  upper : value ≤ longMax

theorem not_isspace_of_isDigit {b : Byte} (hb : isDigit b = true) : isspace b = false := by
  rw [isDigit_iff] at hb
  have hspace : ¬ (b = 32 ∨ 9 ≤ b ∧ b ≤ 13) := by
    rintro (rfl | ⟨-, hle⟩)
    · exact absurd hb.1 (by decide)
    · have := UInt8.le_iff_toNat_le.mp hle
      have h13 : (13 : UInt8).toNat = 13 := rfl
      omega
  simpa [isspace] using hspace

/-- A number has no space in it. -/
theorem IsNumber.solid {text : Bytes} {value : ℤ} (h : IsNumber text value) : Solid text := by
  obtain ⟨sign, digits, rfl, -, hdigits, hsign⟩ := h.split
  intro b hb
  rcases List.mem_append.mp hb with hb | hb
  · rcases hsign with ⟨rfl | rfl, -⟩ | ⟨rfl, -⟩
    · exact absurd hb List.not_mem_nil
    all_goals
      rw [List.mem_singleton.mp hb]
      decide
  · exact not_isspace_of_isDigit (hdigits b hb)

theorem IsNumber.ne_nil {text : Bytes} {value : ℤ} (h : IsNumber text value) : text ≠ [] := by
  obtain ⟨sign, digits, rfl, hne, -, -⟩ := h.split
  exact List.append_ne_nil_of_right_ne_nil _ hne

/-- **What `strtol` accepts**: space, and a number within the range of a `long`. -/
theorem strtol_eq_some_iff {text : Bytes} {value : ℤ} :
    strtol text = some value ↔
      ∃ blank number, Blank blank ∧ text = blank ++ number ∧ IsNumber number value := by
  unfold strtol
  constructor
  · intro h
    obtain ⟨blank, hblank, htext⟩ := exists_blank text
    refine ⟨blank, _, hblank, htext, ?_⟩
    generalize text.dropWhile isspace = s at h
    simp only at h
    split at h
    · exact absurd h (by simp)
    rename_i hdigits
    rw [not_or, Bool.not_eq_true, Bool.not_eq_false', List.all_eq_true] at hdigits
    obtain ⟨hne, hall⟩ := hdigits
    -- the sign is what stands before the digits
    cases s with
    | nil => exact absurd rfl hne
    | cons b s =>
      simp only [skipOneOf, List.mem_cons, List.not_mem_nil, or_false] at hne hall h
      by_cases hminus : b = Ascii.minus
      · subst hminus
        simp only [or_true, if_true] at hne hall h
        simp only [List.head?_cons, if_true, Option.ite_none_left_eq_some, Option.some.injEq,
          not_lt] at h
        obtain ⟨hle, rfl⟩ := h
        refine ⟨⟨[Ascii.minus], s, rfl, hne, hall, .inr ⟨rfl, rfl⟩⟩, ?_, ?_⟩ <;> omega
      · have hhead : ¬ (b :: s).head? = some Ascii.minus := by simpa using hminus
        rw [if_neg hhead] at h
        simp only [Option.ite_none_left_eq_some, Option.some.injEq, not_lt] at h
        by_cases hplus : b = Ascii.plus
        · subst hplus
          simp only [true_or, if_true] at hne hall h
          obtain ⟨hle, rfl⟩ := h
          refine ⟨⟨[Ascii.plus], s, rfl, hne, hall, .inl ⟨.inr rfl, rfl⟩⟩, ?_, ?_⟩ <;> omega
        · rw [if_neg (by simp [hplus, hminus])] at hne hall h
          obtain ⟨hle, rfl⟩ := h
          refine ⟨⟨[], b :: s, rfl, hne, hall, .inl ⟨.inl rfl, rfl⟩⟩, ?_, ?_⟩ <;> omega
  · rintro ⟨blank, number, hblank, rfl, hnumber⟩
    have hs : (blank ++ number).dropWhile isspace = number := by
      refine dropWhile_isspace_append hblank fun b hb => ?_
      exact hnumber.solid b (List.mem_of_mem_head? hb)
    rw [hs]
    obtain ⟨⟨sign, digits, rfl, hne, hall, hsign⟩, hlower, hupper⟩ := hnumber
    have hdigits : ¬ (digits = [] ∨ (!digits.all isDigit) = true) := by
      rw [not_or, Bool.not_eq_true, Bool.not_eq_false', List.all_eq_true]
      exact ⟨hne, hall⟩
    -- without a sign the first byte is a digit, so it is not skipped
    have hfirst : ∀ b ∈ digits.head?, b ≠ Ascii.plus ∧ b ≠ Ascii.minus := by
      intro b hb
      have hdigit := hall b (List.mem_of_mem_head? hb)
      constructor
      · rintro rfl
        exact absurd hdigit (by decide)
      · rintro rfl
        exact absurd hdigit (by decide)
    rcases hsign with ⟨rfl | rfl, rfl⟩ | ⟨rfl, rfl⟩
    · have hskip : skipOneOf [Ascii.plus, Ascii.minus] digits = digits := by
        cases digits with
        | nil => rfl
        | cons b digits => simp [skipOneOf, hfirst b rfl]
      have hhead : ¬ digits.head? = some Ascii.minus := fun hb => (hfirst _ hb).2 rfl
      simp only [List.nil_append, hskip]
      rw [if_neg hdigits, if_neg hhead, if_neg (by omega)]
    · have hskip : skipOneOf [Ascii.plus, Ascii.minus] ([Ascii.plus] ++ digits) = digits := by
        simp [skipOneOf]
      simp only [hskip]
      rw [if_neg hdigits, if_neg (by simp), if_neg (by omega)]
    · have hskip : skipOneOf [Ascii.plus, Ascii.minus] ([Ascii.minus] ++ digits) = digits := by
        simp [skipOneOf]
      simp only [hskip]
      rw [if_neg hdigits, if_pos (by simp), if_neg (by omega)]

end SmartGateway
