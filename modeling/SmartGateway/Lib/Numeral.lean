import Mathlib.Data.List.Basic
import Mathlib.Data.Nat.Digits.Defs

/-!
# Numerals as bytes

Printing and reading of unsigned numerals over byte lists: `decimal` is what
`%u` prints, `decimalPad w` what `%0wu` prints, and `decimalValue` is the value
a left-to-right digit loop accumulates. Reading back a printed numeral gives the
number, padded or not.
-/

namespace SmartGateway

namespace Numeral

/-- `'0'` to `'9'`. -/
def isDigit (b : UInt8) : Bool := 48 ≤ b && b ≤ 57

/-- The numeral `%u` prints. -/
def decimal (n : ℕ) : List UInt8 := (Nat.toDigits 10 n).map Char.toUInt8

/-- The numeral `%0wu` prints: zeros on the left up to `w` bytes. -/
def decimalPad (w n : ℕ) : List UInt8 :=
  List.replicate (w - (decimal n).length) 48 ++ decimal n

/-- The value of a digit string, read from the left. -/
def decimalValue (ds : List UInt8) : ℕ := ds.foldl (fun v b => v * 10 + (b.toNat - 48)) 0

theorem isDigit_iff {b : UInt8} : isDigit b = true ↔ 48 ≤ b.toNat ∧ b.toNat ≤ 57 := by
  simp [isDigit, UInt8.le_iff_toNat_le]

/-- A digit character is one byte, with its own code. -/
theorem toNat_toUInt8_of_isDigit {c : Char} (h : c.isDigit = true) : c.toUInt8.toNat = c.toNat := by
  have hc : c.toNat ≤ 57 := by
    simp only [Char.isDigit, Bool.and_eq_true, decide_eq_true_eq] at h
    exact h.2
  rw [Char.toUInt8, UInt32.toNat_toUInt8]
  exact Nat.mod_eq_of_lt (show c.toNat < 256 by omega)

theorem isDigit_toUInt8 {c : Char} (h : c.isDigit = true) : isDigit c.toUInt8 = true := by
  rw [isDigit_iff, toNat_toUInt8_of_isDigit h]
  simp only [Char.isDigit, Bool.and_eq_true, decide_eq_true_eq] at h
  exact h

/-- A printed numeral is digits throughout. -/
theorem isDigit_of_mem_decimal {n : ℕ} {b : UInt8} (h : b ∈ decimal n) : isDigit b = true := by
  obtain ⟨c, hc, rfl⟩ := List.mem_map.mp h
  exact isDigit_toUInt8 (Nat.isDigit_of_mem_toDigits (by decide) (by decide) hc)

@[simp] theorem decimal_ne_nil (n : ℕ) : decimal n ≠ [] := by
  simp [decimal]

/-- The digit loop over character codes is the one over bytes. -/
theorem foldl_toUInt8 (cs : List Char) (hcs : ∀ c ∈ cs, c.isDigit = true) (v : ℕ) :
    (cs.map Char.toUInt8).foldl (fun v b => v * 10 + (b.toNat - 48)) v =
      Nat.ofDigitChars 10 cs v := by
  induction cs generalizing v with
  | nil => simp
  | cons c cs ih =>
    have hc := toNat_toUInt8_of_isDigit (hcs c (by simp))
    rw [List.map_cons, List.foldl_cons, ih (fun c' h => hcs c' (by simp [h])),
      Nat.ofDigitChars_cons, hc, Nat.mul_comm]
    rfl

/-- **Reading back what `%u` printed.** -/
@[simp] theorem decimalValue_decimal (n : ℕ) : decimalValue (decimal n) = n := by
  rw [decimalValue, decimal, foldl_toUInt8 _ fun c hc =>
    Nat.isDigit_of_mem_toDigits (by decide) (by decide) hc]
  exact Nat.ofDigitChars_ten_toDigits

/-- Leading zeros do not count. -/
theorem decimalValue_replicate_append (k : ℕ) (ds : List UInt8) :
    decimalValue (List.replicate k 48 ++ ds) = decimalValue ds := by
  induction k with
  | zero => rfl
  | succ k ih => simpa [decimalValue, List.replicate_succ] using ih

/-- **Reading back what `%0wu` printed.** -/
@[simp] theorem decimalValue_decimalPad (w n : ℕ) : decimalValue (decimalPad w n) = n := by
  rw [decimalPad, decimalValue_replicate_append, decimalValue_decimal]

theorem isDigit_of_mem_decimalPad {w n : ℕ} {b : UInt8} (h : b ∈ decimalPad w n) :
    isDigit b = true := by
  rcases List.mem_append.mp h with h | h
  · rw [(List.mem_replicate.mp h).2]
    decide
  · exact isDigit_of_mem_decimal h

/-- A number below a power of ten has no more digits than the power says. -/
theorem length_decimal_le {w n : ℕ} (hw : 0 < w) (hn : n < 10 ^ w) : (decimal n).length ≤ w := by
  rw [decimal, List.length_map]
  exact (Nat.length_toDigits_le_iff (by decide) hw).mpr hn

/-- A number of at most `w` digits is padded to exactly `w`. -/
theorem length_decimalPad {w n : ℕ} (hw : 0 < w) (hn : n < 10 ^ w) :
    (decimalPad w n).length = w := by
  have hle : (decimal n).length ≤ w := length_decimal_le hw hn
  simp only [decimalPad, List.length_append, List.length_replicate]
  omega

theorem foldl_digits (ds : List UInt8) (v : ℕ) :
    ds.foldl (fun v b => v * 10 + (b.toNat - 48)) v = v * 10 ^ ds.length + decimalValue ds := by
  induction ds generalizing v with
  | nil => simp [decimalValue]
  | cons b ds ih =>
    rw [decimalValue, List.foldl_cons, List.foldl_cons, ih, ih (0 * 10 + _), List.length_cons,
      pow_succ, Nat.zero_mul, Nat.zero_add, Nat.add_mul, Nat.mul_assoc, Nat.add_assoc,
      Nat.mul_comm 10]

/-- One more digit on the left. -/
theorem decimalValue_cons (b : UInt8) (ds : List UInt8) :
    decimalValue (b :: ds) = (b.toNat - 48) * 10 ^ ds.length + decimalValue ds := by
  rw [decimalValue, List.foldl_cons, foldl_digits, Nat.zero_mul, Nat.zero_add]

/-- Digits are worth less than the power of ten of their number. -/
theorem decimalValue_lt {ds : List UInt8} (hds : ∀ b ∈ ds, isDigit b = true) :
    decimalValue ds < 10 ^ ds.length := by
  induction ds with
  | nil => exact Nat.one_pos
  | cons b ds ih =>
    have hlt := ih fun b hb => hds b (List.mem_cons_of_mem _ hb)
    have hb : b.toNat - 48 ≤ 9 := by
      have h := isDigit_iff.mp (hds b List.mem_cons_self)
      omega
    have hmul := Nat.mul_le_mul_right (10 ^ ds.length) hb
    rw [decimalValue_cons, List.length_cons, pow_succ]
    omega

/-- Numerals of one length with one value are the same. -/
theorem eq_of_decimalValue_eq {ds es : List UInt8} (hds : ∀ b ∈ ds, isDigit b = true)
    (hes : ∀ b ∈ es, isDigit b = true) (hlength : ds.length = es.length)
    (h : decimalValue ds = decimalValue es) : ds = es := by
  induction ds generalizing es with
  | nil => exact (List.length_eq_zero_iff.mp hlength.symm).symm
  | cons b ds ih =>
    cases es with
    | nil => exact absurd hlength (by simp)
    | cons c es =>
      have hlength' : ds.length = es.length := Nat.succ_inj.mp hlength
      have hds' : ∀ b ∈ ds, isDigit b = true := fun d hd => hds d (List.mem_cons_of_mem b hd)
      have hes' : ∀ b ∈ es, isDigit b = true := fun d hd => hes d (List.mem_cons_of_mem c hd)
      have hlow := decimalValue_lt hds'
      have hlow' := decimalValue_lt hes'
      have hpos : 0 < 10 ^ es.length := Nat.pow_pos (by decide)
      rw [decimalValue_cons, decimalValue_cons, hlength'] at h
      rw [hlength'] at hlow
      -- the first digits are what a division leaves, the rest what it throws away
      have hfirst : b.toNat - 48 = c.toNat - 48 := by
        have hdiv := congrArg (· / 10 ^ es.length) h
        simpa only [Nat.mul_comm _ (10 ^ es.length), Nat.mul_add_div hpos,
          Nat.div_eq_of_lt hlow, Nat.div_eq_of_lt hlow', Nat.add_zero] using hdiv
      have hrest : decimalValue ds = decimalValue es := by
        rw [hfirst] at h
        exact Nat.add_left_cancel h
      have hb := isDigit_iff.mp (hds b List.mem_cons_self)
      have hc := isDigit_iff.mp (hes c List.mem_cons_self)
      have hbc : b = c := UInt8.toNat.inj (by omega)
      rw [hbc, ih hds' hes' hlength' hrest]

/-- **Digits are the padded print of their value.** -/
theorem decimalPad_decimalValue {w : ℕ} {ds : List UInt8} (hds : ∀ b ∈ ds, isDigit b = true)
    (hlength : ds.length = w) (hw : 0 < w) : decimalPad w (decimalValue ds) = ds := by
  have hlt := decimalValue_lt hds
  rw [hlength] at hlt
  exact eq_of_decimalValue_eq (fun b hb => isDigit_of_mem_decimalPad hb) hds
    ((length_decimalPad hw hlt).trans hlength.symm) (decimalValue_decimalPad w _)

/-- A byte that is not a digit does not occur in a numeral. -/
theorem not_mem_decimal {n : ℕ} {b : UInt8} (hb : isDigit b = false) : b ∉ decimal n := by
  intro h
  rw [isDigit_of_mem_decimal h] at hb
  exact absurd hb (by decide)

theorem not_mem_decimalPad {w n : ℕ} {b : UInt8} (hb : isDigit b = false) :
    b ∉ decimalPad w n := by
  intro h
  rw [isDigit_of_mem_decimalPad h] at hb
  exact absurd hb (by decide)

end Numeral

end SmartGateway
