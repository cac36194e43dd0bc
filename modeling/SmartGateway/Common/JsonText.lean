import SmartGateway.Common.JsonAgreement
import SmartGateway.Lib.ObjectText

/-!
# Numbers as they stand in a line

A number by its parts: a minus, digits, a fraction and an exponent, of which any may be
missing or have no digits. The number loops of `common/message_json.c` differ in which
parts they ask for and agree on where a number ends: what they leave is what was written
behind it, and there is such a number at the start of every text.
-/

namespace SmartGateway

open Numeral ObjectScan

/-! ## Numbers by their parts -/

/-- Some digits, or none. -/
abbrev Digits := { ds : Bytes // ∀ b ∈ ds, isDigit b = true }

/-- An exponent: its mark, a sign if there is one, and its digits. -/
structure ExponentText where
  mark : { b : Byte // isExponentMark b = true }
  sign : Option { b : Byte // b = Ascii.plus ∨ b = Ascii.minus }
  digits : Digits

/-- A number, of which any part may be missing. -/
structure NumberText where
  minus : Bool
  digits : Digits
  fraction : Option Digits
  exponent : Option ExponentText

def ExponentText.text (e : ExponentText) : Bytes :=
  e.mark.1 :: ((e.sign.map fun b => b.1).toList ++ e.digits.1)

def minusText (minus : Bool) : Bytes := if minus then [Ascii.minus] else []

def fractionText : Option Digits → Bytes
  | none => []
  | some ds => Ascii.dot :: ds.1

def exponentText : Option ExponentText → Bytes
  | none => []
  | some e => e.text

namespace NumberText

/-- How a number is written. -/
def text (n : NumberText) : Bytes :=
  minusText n.minus ++ (n.digits.1 ++ (fractionText n.fraction ++ exponentText n.exponent))

/-- Every part that is there has its digits. -/
def Strict (n : NumberText) : Prop :=
  n.digits.1 ≠ [] ∧ (∀ ds ∈ n.fraction, ds.1 ≠ []) ∧ ∀ e ∈ n.exponent, e.digits.1 ≠ []

instance (n : NumberText) : Decidable n.Strict :=
  inferInstanceAs (Decidable (_ ∧ (∀ ds ∈ n.fraction, ds.1 ≠ []) ∧
    ∀ e ∈ n.exponent, e.digits.1 ≠ []))

end NumberText

/-- The digits of a text. -/
def digitsOf (text : Bytes) : Digits := ⟨text.filter isDigit, fun _ hb => (List.mem_filter.mp hb).2⟩

/-- A number that is its integer part. -/
def integerText (digits : Bytes) : NumberText := ⟨false, digitsOf digits, none, none⟩

/-- What comes next is no byte of a number. -/
def NumberEnds (q : Bytes) : Prop := ∀ b ∈ q.head?, isNumberByte b = false

theorem numberEnds_of_separated {q : Bytes} (h : Separated q) : NumberEnds q := by
  obtain ⟨c, rest, hskip, hc⟩ := h
  intro b hb
  cases q with
  | nil => exact absurd hb (by simp)
  | cons b' q =>
    obtain rfl : b' = b := by simpa using hb
    by_cases hspace : isWhitespace b' = true
    · simp only [isWhitespace, Bool.or_eq_true, beq_iff_eq] at hspace
      rcases hspace with ((rfl | rfl) | rfl) | rfl
      all_goals decide
    · rw [skipWhitespace_cons (eq_false_of_ne_true hspace)] at hskip
      obtain ⟨rfl, -⟩ := List.cons.inj hskip
      rcases hc with rfl | rfl
      · decide
      · decide

theorem not_isDigit_of_numberEnds {q : Bytes} (h : NumberEnds q) :
    ∀ b ∈ q.head?, isDigit b = false := by
  intro b hb
  by_contra hdigit
  have hbyte := h b hb
  rw [isNumberByte_of_isDigit (eq_true_of_ne_false hdigit)] at hbyte
  exact absurd hbyte (by decide)

/-- Digits, up to what is none. -/
theorem skipDigits_append (ds : Digits) {q : Bytes} (hq : ∀ b ∈ q.head?, isDigit b = false) :
    skipDigits (ds.1 ++ q) = q := by
  unfold skipDigits
  rw [List.dropWhile_append_of_pos ds.2]
  cases q with
  | nil => rfl
  | cons b q => exact List.dropWhile_cons_of_neg (by simp [hq b rfl])

theorem takeWhile_isDigit_append (ds : Digits) {q : Bytes}
    (hq : ∀ b ∈ q.head?, isDigit b = false) : (ds.1 ++ q).takeWhile isDigit = ds.1 := by
  rw [List.takeWhile_append_of_pos ds.2]
  cases q with
  | nil => exact List.append_nil _
  | cons b q =>
    rw [List.takeWhile_cons_of_neg (by simp [hq b rfl])]
    exact List.append_nil _

theorem skipDigits1_append (ds : Digits) {q : Bytes} (hq : ∀ b ∈ q.head?, isDigit b = false) :
    skipDigits1 (ds.1 ++ q) = if ds.1 = [] then none else some q := by
  have hskip := skipDigits_append ds hq
  cases hds : ds.1 with
  | nil =>
    cases q with
    | nil => rfl
    | cons b q => exact if_neg (by simp [hq b rfl])
  | cons d tail =>
    have hd := ds.2 d (by rw [hds]; exact List.mem_cons_self)
    rw [hds, List.cons_append, skipDigits, List.dropWhile_cons_of_pos hd] at hskip
    rw [List.cons_append, skipDigits1, if_pos hd, skipDigits, hskip]
    rfl

/-- A minus in front of what has none. -/
theorem skipMinus_minusText (minus : Bool) {p : Bytes} (hp : ∀ b ∈ p.head?, b ≠ Ascii.minus) :
    skipOneOf [Ascii.minus] (minusText minus ++ p) = p := by
  cases minus with
  | true =>
    change skipOneOf [Ascii.minus] (Ascii.minus :: p) = p
    rw [skipOneOf, if_pos (List.mem_singleton.mpr rfl)]
  | false =>
    cases p with
    | nil => rfl
    | cons b p => exact if_neg fun hmem => hp b rfl (List.mem_singleton.mp hmem)

theorem head_minusText (minus : Bool) {p : Bytes} (hp : ∀ b ∈ p.head?, b ≠ Ascii.minus) :
    ((minusText minus ++ p).head? == some Ascii.minus) = minus := by
  cases minus with
  | true => rfl
  | false =>
    cases p with
    | nil => rfl
    | cons b p => exact beq_eq_false_iff_ne.mpr fun hhead => hp b rfl (Option.some.inj hhead)

/-- Digits do not start with a minus. -/
theorem ne_minus_of_digits (ds : Digits) {d : Byte} {tail : Bytes} (hds : ds.1 = d :: tail)
    (p : Bytes) {b : Byte} (hb : b ∈ (d :: tail ++ p).head?) : b ≠ Ascii.minus := by
  have hd := ds.2 d (by rw [hds]; exact List.mem_cons_self)
  obtain rfl : d = b := Option.some.inj hb
  rintro rfl
  exact absurd hd (by decide)

/-- What stands behind the mark and the sign of an exponent. -/
theorem ExponentText.skipSign_text (e : ExponentText) {q : Bytes} (hq : NumberEnds q) :
    skipOneOf [Ascii.plus, Ascii.minus] ((e.sign.map fun b => b.1).toList ++ e.digits.1 ++ q) =
      e.digits.1 ++ q := by
  cases e.sign with
  | some sign =>
    obtain ⟨b, hb⟩ := sign
    exact if_pos (by simpa using hb)
  | none =>
    change skipOneOf [Ascii.plus, Ascii.minus] (e.digits.1 ++ q) = e.digits.1 ++ q
    cases hbody : e.digits.1 ++ q with
    | nil => rfl
    | cons b p =>
      -- without a sign the next byte is a digit, or what ends a number
      have hnot : b ≠ Ascii.plus ∧ b ≠ Ascii.minus := by
        cases hdigits : e.digits.1 with
        | nil =>
          rw [hdigits, List.nil_append] at hbody
          have hbyte := hq b (by rw [hbody]; rfl)
          simp only [isNumberByte, Bool.or_eq_false_iff, beq_eq_false_iff_ne] at hbyte
          exact ⟨hbyte.1.2, hbyte.1.1.2⟩
        | cons d ds =>
          have hd := e.digits.2 d (by rw [hdigits]; exact List.mem_cons_self)
          rw [hdigits] at hbody
          rw [(List.cons.inj hbody).1] at hd
          constructor
          · rintro rfl
            exact absurd hd (by decide)
          · rintro rfl
            exact absurd hd (by decide)
      exact if_neg (by simpa using hnot)

namespace NumberText

variable (n : NumberText) {q : Bytes}

/-- Behind the fraction. -/
theorem exponentText_head (hq : NumberEnds q) :
    ∀ b ∈ (exponentText n.exponent ++ q).head?,
      isDigit b = false ∧ b ≠ Ascii.dot ∧ b ≠ Ascii.minus := by
  intro b hb
  unfold exponentText at hb
  split at hb
  · have hbyte := hq b hb
    simp only [isNumberByte, Bool.or_eq_false_iff, beq_eq_false_iff_ne] at hbyte
    exact ⟨hbyte.1.1.1.1, hbyte.2, hbyte.1.1.2⟩
  · rename_i e he
    obtain rfl : e.mark.1 = b := by simpa [ExponentText.text] using hb
    have hmark := e.mark.2
    simp only [isExponentMark, Bool.or_eq_true, beq_iff_eq] at hmark
    rcases hmark with hmark | hmark
    · rw [hmark]
      decide
    · rw [hmark]
      decide

/-- Behind the digits. -/
theorem fractionText_head (hq : NumberEnds q) :
    ∀ b ∈ (fractionText n.fraction ++ (exponentText n.exponent ++ q)).head?,
      isDigit b = false ∧ b ≠ Ascii.minus := by
  intro b hb
  unfold fractionText at hb
  split at hb
  · obtain ⟨hdigit, -, hminus⟩ := n.exponentText_head hq b hb
    exact ⟨hdigit, hminus⟩
  · obtain rfl : Ascii.dot = b := by simpa using hb
    decide

theorem text_append :
    n.text ++ q = minusText n.minus ++
      (n.digits.1 ++ (fractionText n.fraction ++ (exponentText n.exponent ++ q))) := by
  unfold text
  simp only [List.append_assoc]

/-- Behind the minus. -/
theorem digits_head (hq : NumberEnds q) :
    ∀ b ∈ (n.digits.1 ++ (fractionText n.fraction ++ (exponentText n.exponent ++ q))).head?,
      b ≠ Ascii.minus := by
  have hfraction := n.fractionText_head hq
  cases hdigits : n.digits.1 with
  | nil => exact fun b hb => (hfraction b hb).2
  | cons d ds => exact fun b hb => ne_minus_of_digits n.digits hdigits _ hb

theorem skipMinus_text (hq : NumberEnds q) :
    skipOneOf [Ascii.minus] (n.text ++ q) =
      n.digits.1 ++ (fractionText n.fraction ++ (exponentText n.exponent ++ q)) := by
  rw [text_append]
  exact skipMinus_minusText n.minus (n.digits_head hq)

/-- A number starts with a minus if it has one. -/
theorem head_minus (hq : NumberEnds q) :
    ((n.text ++ q).head? == some Ascii.minus) = n.minus := by
  rw [text_append]
  exact head_minusText n.minus (n.digits_head hq)

theorem skipDigits_text (hq : NumberEnds q) :
    skipDigits (n.digits.1 ++ (fractionText n.fraction ++ (exponentText n.exponent ++ q))) =
      fractionText n.fraction ++ (exponentText n.exponent ++ q) :=
  skipDigits_append _ fun b hb => (n.fractionText_head hq b hb).1

theorem leadingDigits_text (hq : NumberEnds q) : leadingDigits (n.text ++ q) = n.digits.1 := by
  unfold leadingDigits
  rw [n.skipMinus_text hq]
  exact takeWhile_isDigit_append _ fun b hb => (n.fractionText_head hq b hb).1

theorem skipFraction_text (hq : NumberEnds q) :
    skipFraction (fractionText n.fraction ++ (exponentText n.exponent ++ q)) =
      exponentText n.exponent ++ q := by
  have hhead := n.exponentText_head hq
  unfold fractionText
  split
  · rw [List.nil_append]
    cases hexponent : exponentText n.exponent ++ q with
    | nil => rfl
    | cons b p =>
      rw [hexponent] at hhead
      exact if_neg (hhead b rfl).2.1
  · rename_i ds hds
    rw [List.cons_append, skipFraction, if_pos rfl]
    exact skipDigits_append ds fun b hb => (hhead b hb).1

theorem skipExponent_text (hq : NumberEnds q) :
    skipExponent (exponentText n.exponent ++ q) = q := by
  have hdigit := not_isDigit_of_numberEnds hq
  unfold exponentText
  split
  · rw [List.nil_append]
    cases q with
    | nil => rfl
    | cons b q =>
      refine if_neg fun hmark => ?_
      have hbyte := hq b rfl
      rw [isNumberByte_of_isExponentMark hmark] at hbyte
      exact absurd hbyte (by decide)
  · rename_i e he
    rw [ExponentText.text, List.cons_append, skipExponent, if_pos e.mark.2, e.skipSign_text hq]
    exact skipDigits_append e.digits hdigit

/-- **What follows a number** is what was written behind it. -/
theorem behindNumber_text (hq : NumberEnds q) : behindNumber (n.text ++ q) = q := by
  unfold behindNumber
  rw [n.skipMinus_text hq, n.skipDigits_text hq, n.skipFraction_text hq, n.skipExponent_text hq]

/-! ### With digits asked for -/

theorem fraction1_text (hq : NumberEnds q) :
    fraction1 (fractionText n.fraction ++ (exponentText n.exponent ++ q)) =
      if ∀ ds ∈ n.fraction, ds.1 ≠ [] then some (exponentText n.exponent ++ q) else none := by
  have hhead := n.exponentText_head hq
  unfold fractionText
  cases n.fraction with
  | none =>
    rw [if_pos (by simp)]
    change fraction1 (exponentText n.exponent ++ q) = _
    cases hexponent : exponentText n.exponent ++ q with
    | nil => rfl
    | cons b p =>
      rw [hexponent] at hhead
      exact if_neg (hhead b rfl).2.1
  | some ds =>
    have hskip := skipDigits1_append ds fun b hb => (hhead b hb).1
    rw [← ite_not] at hskip
    simpa [fraction1] using hskip

theorem exponent1_text (hq : NumberEnds q) :
    exponent1 (exponentText n.exponent ++ q) =
      if ∀ e ∈ n.exponent, e.digits.1 ≠ [] then some q else none := by
  unfold exponentText
  cases n.exponent with
  | none =>
    rw [if_pos (by simp)]
    change exponent1 q = some q
    cases q with
    | nil => rfl
    | cons b q =>
      refine if_neg fun hmark => ?_
      have hbyte := hq b rfl
      rw [isNumberByte_of_isExponentMark hmark] at hbyte
      exact absurd hbyte (by decide)
  | some e =>
    have hskip := skipDigits1_append e.digits (not_isDigit_of_numberEnds hq)
    rw [← ite_not] at hskip
    change exponent1 (e.text ++ q) = _
    rw [ExponentText.text, List.cons_append, exponent1, if_pos e.mark.2, e.skipSign_text hq]
    simpa using hskip

/-- **A number kept as its text** has its digits in every part. -/
theorem scanNumberText_text (hq : NumberEnds q) :
    scanNumberText (n.text ++ q) = if n.Strict then some (n.text, q) else none := by
  unfold scanNumberText
  rw [n.skipMinus_text hq, skipDigits1_append _ fun b hb => (n.fractionText_head hq b hb).1]
  by_cases hdigits : n.digits.1 = []
  · rw [if_pos hdigits, if_neg fun h : n.Strict => h.1 hdigits]
    rfl
  rw [if_neg hdigits, Option.bind_some, n.fraction1_text hq]
  by_cases hfraction : ∀ ds ∈ n.fraction, ds.1 ≠ []
  swap
  · rw [if_neg hfraction, if_neg fun h : n.Strict => hfraction h.2.1]
    rfl
  rw [if_pos hfraction, Option.bind_some, n.exponent1_text hq]
  by_cases hexponent : ∀ e ∈ n.exponent, e.digits.1 ≠ []
  swap
  · rw [if_neg hexponent, if_neg fun h : n.Strict => hexponent h.2.2]
    rfl
  have hstrict : n.Strict := ⟨hdigits, hfraction, hexponent⟩
  rw [if_pos hexponent, if_pos hstrict, Option.map_some, List.length_append, Nat.add_sub_cancel,
    List.take_left]

end NumberText

/-! ## Ten times a number -/

/-- The first digit of a fraction. -/
def firstDigit : Option Digits → ℕ
  | some ⟨d :: _, _⟩ => d.toNat - 48
  | _ => 0

/-- Ten times a number without exponent, its decimals after the first dropped. -/
def NumberText.tenths (n : NumberText) : ℤ :=
  if n.minus then -(decimalValue n.digits.1 * 10 + firstDigit n.fraction : ℕ)
  else (decimalValue n.digits.1 * 10 + firstDigit n.fraction : ℕ)

/-- **The loop of `json_parse_x10`** looks at what it has before each digit, so the last
one always goes in. -/
theorem digitLoop_x10 (v : ℕ) (p : Bytes) :
    digitLoop x10Overflow v p =
      if p.takeWhile isDigit = [] ∨
          (p.takeWhile isDigit).foldl (fun v b => v * 10 + (b.toNat - 48)) v / 10 ≤ 214748363 then
        some ((p.takeWhile isDigit).foldl (fun v b => v * 10 + (b.toNat - 48)) v, skipDigits p)
      else
        none := by
  induction p generalizing v with
  | nil => rfl
  | cons b p ih =>
    rw [digitLoop]
    by_cases hdigit : isDigit b = true
    swap
    · rw [if_neg hdigit, List.takeWhile_cons_of_neg hdigit, if_pos (.inl rfl), skipDigits,
        List.dropWhile_cons_of_neg hdigit]
      rfl
    have hb := isDigit_iff.mp hdigit
    -- each digit makes the value larger: too large now is too large at the end
    have hup : v * 10 + (b.toNat - 48) ≤ (p.takeWhile isDigit).foldl
        (fun v b => v * 10 + (b.toNat - 48)) (v * 10 + (b.toNat - 48)) := le_foldl_digits _ _
    rw [if_pos hdigit, List.takeWhile_cons_of_pos hdigit, skipDigits,
      List.dropWhile_cons_of_pos hdigit, List.foldl_cons, ih]
    by_cases hover : x10Overflow v (b.toNat - 48) = true
    · have hlarge : 214748363 < v := of_decide_eq_true hover
      rw [if_pos hover, if_neg]
      rintro (hnil | hfits)
      · exact absurd hnil (List.cons_ne_nil _ _)
      · omega
    · have hsmall : v ≤ 214748363 := not_lt.mp fun hlarge => hover (decide_eq_true hlarge)
      rw [if_neg hover]
      refine if_congr ⟨?_, ?_⟩ rfl rfl
      · rintro (hnil | hfits)
        · rw [hnil, List.foldl_nil]
          right
          omega
        · exact .inr hfits
      · rintro (hnil | hfits)
        · exact absurd hnil (List.cons_ne_nil _ _)
        · exact .inr hfits

theorem skipFraction_fractionText {fraction : Option Digits} {r : Bytes}
    (hr : ∀ b ∈ r.head?, isDigit b = false ∧ (fraction = none → b ≠ Ascii.dot)) :
    skipFraction (fractionText fraction ++ r) = r := by
  cases fraction with
  | none =>
    cases r with
    | nil => rfl
    | cons b r => exact if_neg ((hr b rfl).2 rfl)
  | some ds =>
    change skipFraction (Ascii.dot :: (ds.1 ++ r)) = r
    rw [skipFraction, if_pos rfl, skipDigits_append ds fun b hb => (hr b hb).1]

/-- The decimal of `json_parse_x10`, where two bytes follow the digits. -/
theorem firstDigit_of_cons {fraction : Option Digits} {r tail : Bytes} {dot d : Byte}
    (hr : ∀ b ∈ r.head?, isDigit b = false ∧ (fraction = none → b ≠ Ascii.dot))
    (h : fractionText fraction ++ r = dot :: d :: tail) :
    (if dot = Ascii.dot ∧ isDigit d = true then d.toNat - 48 else 0) = firstDigit fraction := by
  cases fraction with
  | none =>
    change r = dot :: d :: tail at h
    rw [h] at hr
    exact if_neg fun hdot => (hr dot rfl).2 rfl hdot.1
  | some ds =>
    obtain ⟨ds, hds⟩ := ds
    obtain ⟨rfl, htail⟩ := List.cons.inj h
    cases ds with
    | cons d' ds =>
      obtain ⟨rfl, -⟩ := List.cons.inj htail
      exact if_pos ⟨rfl, hds d' List.mem_cons_self⟩
    | nil =>
      rw [show r = d :: tail from htail] at hr
      exact if_neg fun hdot => absurd hdot.2 (by simp [(hr d rfl).1])

/-- Where fewer do. -/
theorem firstDigit_of_short {fraction : Option Digits} (r : Bytes)
    (h : ∀ dot d tail, fractionText fraction ++ r = dot :: d :: tail → False) :
    firstDigit fraction = 0 := by
  cases fraction with
  | none => rfl
  | some ds =>
    obtain ⟨ds, hds⟩ := ds
    cases ds with
    | nil => rfl
    | cons d ds => exact (h Ascii.dot d (ds ++ r) rfl).elim

/-- **What `json_parse_x10` makes of a number**, and what it leaves. -/
theorem jsonParseX10_text (n : NumberText) (hdigits : n.digits.1 ≠ []) {r : Bytes}
    (hr : ∀ b ∈ r.head?, isDigit b = false ∧ (n.fraction = none → b ≠ Ascii.dot)) :
    jsonParseX10 (minusText n.minus ++ (n.digits.1 ++ (fractionText n.fraction ++ r))) =
      if decimalValue n.digits.1 / 10 ≤ 214748363 then some (BitVec.ofInt 32 n.tenths, r)
      else none := by
  have hbehind : ∀ b ∈ (fractionText n.fraction ++ r).head?, isDigit b = false := by
    cases hfraction : n.fraction with
    | none => exact fun b hb => (hr b hb).1
    | some ds =>
      intro b hb
      obtain rfl : Ascii.dot = b := Option.some.inj hb
      decide
  have hnominus : ∀ b ∈ (n.digits.1 ++ (fractionText n.fraction ++ r)).head?,
      b ≠ Ascii.minus := by
    cases hcons : n.digits.1 with
    | nil => exact absurd hcons hdigits
    | cons d ds => exact fun b hb => ne_minus_of_digits n.digits hcons _ hb
  have hloop := digitLoop_x10 0 (n.digits.1 ++ (fractionText n.fraction ++ r))
  rw [takeWhile_isDigit_append _ hbehind, skipDigits_append _ hbehind, ← decimalValue] at hloop
  rw [jsonParseX10, skipMinus_minusText _ hnominus, head_minusText _ hnominus]
  simp only
  split
  · rename_i hnil
    exact absurd (List.append_eq_nil_iff.mp hnil).1 hdigits
  rename_i b p hcons
  have hb : isDigit b = true := by
    cases hds : n.digits.1 with
    | nil => exact absurd hds hdigits
    | cons d ds =>
      rw [hds] at hcons
      rw [← (List.cons.inj hcons).1]
      exact n.digits.2 d (by rw [hds]; exact List.mem_cons_self)
  rw [hb, hloop]
  simp only [Bool.not_true, Bool.false_eq_true, if_false, hdigits, false_or]
  by_cases hfits : decimalValue n.digits.1 / 10 ≤ 214748363
  swap
  · rw [if_neg hfits, if_neg hfits]
  rw [if_pos hfits, if_pos hfits]
  simp only [skipFraction_fractionText hr, Option.some.injEq, Prod.mk.injEq, and_true]
  refine congrArg (BitVec.ofInt 32) ?_
  rw [NumberText.tenths]
  push_cast
  -- the first decimal counts if there is one
  cases hcut : fractionText n.fraction ++ r with
  | nil => rw [firstDigit_of_short r fun _ _ _ h => absurd (hcut.symm.trans h) (by simp)]
  | cons dot tail =>
    cases tail with
    | nil => rw [firstDigit_of_short r fun _ _ _ h => absurd (hcut.symm.trans h) (by simp)]
    | cons d tail => rw [← firstDigit_of_cons hr hcut]

/-! ## A number at the start of every text -/

theorem exists_minus (p : Bytes) :
    ∃ minus : Bool, p = minusText minus ++ skipOneOf [Ascii.minus] p := by
  cases p with
  | nil => exact ⟨false, rfl⟩
  | cons b p =>
    rw [skipOneOf]
    split
    · rename_i hmem
      obtain rfl := List.mem_singleton.mp hmem
      exact ⟨true, rfl⟩
    · exact ⟨false, rfl⟩

theorem exists_digits (p : Bytes) : ∃ ds : Digits, p = ds.1 ++ skipDigits p :=
  ⟨⟨p.takeWhile isDigit, fun _ hb => List.mem_takeWhile_imp hb⟩,
    List.takeWhile_append_dropWhile.symm⟩

theorem exists_fraction (p : Bytes) :
    ∃ fraction : Option Digits, p = fractionText fraction ++
      skipFraction p := by
  cases p with
  | nil => exact ⟨none, rfl⟩
  | cons b p =>
    rw [skipFraction]
    split
    · rename_i hdot
      obtain ⟨ds, hds⟩ := exists_digits p
      refine ⟨some ds, ?_⟩
      rw [hdot]
      exact congrArg (Ascii.dot :: ·) hds
    · exact ⟨none, rfl⟩

theorem exists_sign (p : Bytes) :
    ∃ sign : Option { b : Byte // b = Ascii.plus ∨ b = Ascii.minus },
      p = (sign.map fun b => b.1).toList ++ skipOneOf [Ascii.plus, Ascii.minus] p := by
  cases p with
  | nil => exact ⟨none, rfl⟩
  | cons b p =>
    rw [skipOneOf]
    split
    · rename_i hmem
      exact ⟨some ⟨b, by simpa using hmem⟩, rfl⟩
    · exact ⟨none, rfl⟩

theorem exists_exponent (p : Bytes) :
    ∃ exponent : Option ExponentText, p = exponentText exponent ++ skipExponent p := by
  cases p with
  | nil => exact ⟨none, rfl⟩
  | cons b p =>
    rw [skipExponent]
    split
    · rename_i hmark
      obtain ⟨sign, hsign⟩ := exists_sign p
      obtain ⟨ds, hds⟩ := exists_digits (skipOneOf [Ascii.plus, Ascii.minus] p)
      refine ⟨some ⟨⟨b, hmark⟩, sign, ds⟩, ?_⟩
      change b :: p = b :: ((sign.map fun b => b.1).toList ++ ds.1) ++ _
      rw [List.cons_append, List.append_assoc, ← hds, ← hsign]
    · exact ⟨none, rfl⟩

/-- **Every text starts with a number**, if only an empty one. -/
theorem exists_numberText (p : Bytes) : ∃ n : NumberText, p = n.text ++ behindNumber p := by
  obtain ⟨minus, hminus⟩ := exists_minus p
  obtain ⟨digits, hdigits⟩ := exists_digits (skipOneOf [Ascii.minus] p)
  obtain ⟨fraction, hfraction⟩ := exists_fraction (skipDigits (skipOneOf [Ascii.minus] p))
  obtain ⟨exponent, hexponent⟩ :=
    exists_exponent (skipFraction (skipDigits (skipOneOf [Ascii.minus] p)))
  refine ⟨⟨minus, digits, fraction, exponent⟩, ?_⟩
  calc p = minusText minus ++ skipOneOf [Ascii.minus] p := hminus
    _ = minusText minus ++ (digits.1 ++
          (fractionText fraction ++
            (exponentText exponent ++ behindNumber p))) := by
      rw [behindNumber, ← hexponent, ← hfraction, ← hdigits]
    _ = _ := by
      simp only [NumberText.text, List.append_assoc]

/-- What is left behind a number kept as its text. -/
theorem behindNumber_of_scanNumberText {p text rest : Bytes}
    (h : scanNumberText p = some (text, rest)) : rest = behindNumber p := by
  have hdigits1 : ∀ {p r : Bytes}, skipDigits1 p = some r → r = skipDigits p := by
    intro p r h
    cases p with
    | nil => exact absurd h (by simp [skipDigits1])
    | cons b p =>
      rw [skipDigits1] at h
      split at h
      · rename_i hdigit
        rw [skipDigits, List.dropWhile_cons_of_pos hdigit]
        exact (Option.some.inj h).symm
      · exact absurd h (by simp)
  -- integer part, fraction and exponent, each as the skipper takes it
  obtain ⟨rest', hexponent, heq⟩ := Option.map_eq_some_iff.mp h
  obtain ⟨-, rfl⟩ := Prod.mk.inj heq
  obtain ⟨p₂, hfraction, hexponent⟩ := Option.bind_eq_some_iff.mp hexponent
  obtain ⟨p₁, hdigits, hfraction⟩ := Option.bind_eq_some_iff.mp hfraction
  have hfraction' : p₂ = skipFraction p₁ := by
    cases p₁ with
    | nil => exact (Option.some.inj hfraction).symm
    | cons b p =>
      rw [fraction1] at hfraction
      rw [skipFraction]
      split at hfraction
      · rename_i hdot
        rw [if_pos hdot]
        exact hdigits1 hfraction
      · rename_i hdot
        rw [if_neg hdot]
        exact (Option.some.inj hfraction).symm
  have hexponent' : rest' = skipExponent p₂ := by
    cases p₂ with
    | nil => exact (Option.some.inj hexponent).symm
    | cons b p =>
      rw [exponent1] at hexponent
      rw [skipExponent]
      split at hexponent
      · rename_i hmark
        rw [if_pos hmark]
        exact hdigits1 hexponent
      · rename_i hmark
        rw [if_neg hmark]
        exact (Option.some.inj hexponent).symm
  rw [behindNumber, hexponent', hfraction', hdigits1 hdigits]

end SmartGateway
