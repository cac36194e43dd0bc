import Mathlib.Data.List.Basic
import Mathlib.Data.Nat.Digits.Defs
import Mathlib.Logic.Function.Iterate

/-!
# Shift registers with feedback

A register that goes up one place at a time and folds a polynomial back in where a bit
falls off the top. It is linear in exclusive or, so what two texts of one length leave in
it differs by what their **error** leaves in an empty one; and with the lowest bit in the
polynomial a step loses nothing, so an error that leaves something is seen however long
the text goes on. With an odd number of ones in the polynomial a step keeps the parity of
the register, the bit that falls off the top counted, so an odd error is seen as well.
-/

namespace SmartGateway

namespace ShiftRegister

variable {w : ℕ} {poly : BitVec w}

/-- One place up, with the feedback. -/
def feedback (poly c : BitVec w) : BitVec w :=
  if c.msb then c <<< 1 ^^^ poly else c <<< 1

/-- A byte comes in at the top, and the register goes up eight places. -/
def feed (poly c : BitVec w) (b : UInt8) : BitVec w :=
  (feedback poly)^[8] (c ^^^ (b.toBitVec.setWidth w <<< (w - 8)))

/-- What a text leaves in an empty register. -/
def syndrome (poly : BitVec w) (e : List UInt8) : BitVec w := e.foldl (feed poly) 0

theorem syndrome_append (e v : List UInt8) :
    syndrome poly (e ++ v) = v.foldl (feed poly) (syndrome poly e) := List.foldl_append

/-! ## Linear -/

theorem xor_xor_xor_comm (a b c d : BitVec w) :
    (a ^^^ b) ^^^ (c ^^^ d) = (a ^^^ c) ^^^ (b ^^^ d) := by
  ac_rfl

theorem feedback_xor (a b : BitVec w) :
    feedback poly (a ^^^ b) = feedback poly a ^^^ feedback poly b := by
  have hcancel : a <<< 1 ^^^ poly ^^^ (b <<< 1 ^^^ poly) = a <<< 1 ^^^ b <<< 1 := by
    rw [xor_xor_xor_comm, BitVec.xor_self, BitVec.xor_zero]
  unfold feedback
  rw [BitVec.msb_xor, BitVec.shiftLeft_xor_distrib]
  cases a.msb <;> cases b.msb
  · rfl
  · exact (BitVec.xor_assoc _ _ _).trans rfl
  · change a <<< 1 ^^^ b <<< 1 ^^^ poly = a <<< 1 ^^^ poly ^^^ b <<< 1
    ac_rfl
  · exact hcancel.symm

theorem iterate_feedback_xor (n : ℕ) (a b : BitVec w) :
    (feedback poly)^[n] (a ^^^ b) = (feedback poly)^[n] a ^^^ (feedback poly)^[n] b := by
  induction n generalizing a b with
  | zero => rfl
  | succ n ih =>
    rw [Function.iterate_succ_apply, Function.iterate_succ_apply, Function.iterate_succ_apply,
      feedback_xor, ih]

theorem feed_xor (c d : BitVec w) (a b : UInt8) :
    feed poly (c ^^^ d) (a ^^^ b) = feed poly c a ^^^ feed poly d b := by
  unfold feed
  rw [UInt8.toBitVec_xor, BitVec.setWidth_xor, BitVec.shiftLeft_xor_distrib, xor_xor_xor_comm,
    iterate_feedback_xor]

theorem feed_zero : feed poly 0 0 = 0 := by
  have h : feed poly (0 ^^^ 0) (0 ^^^ 0) = feed poly 0 0 ^^^ feed poly 0 0 := feed_xor 0 0 0 0
  rw [BitVec.xor_self, BitVec.xor_self] at h
  exact h

/-- **The error decides.** Where two texts of one length leave the registers differs by
what their error leaves. -/
theorem foldl_xor_foldl {xs ys : List UInt8} (h : xs.length = ys.length) (c d : BitVec w) :
    xs.foldl (feed poly) c ^^^ ys.foldl (feed poly) d =
      (List.zipWith (· ^^^ ·) xs ys).foldl (feed poly) (c ^^^ d) := by
  induction xs generalizing ys c d with
  | nil =>
    obtain rfl := List.length_eq_zero_iff.mp h.symm
    rfl
  | cons x xs ih =>
    cases ys with
    | nil => exact absurd h (by simp)
    | cons y ys =>
      rw [List.zipWith_cons_cons, List.foldl_cons, List.foldl_cons, List.foldl_cons, feed_xor]
      exact ih (Nat.succ.inj h) _ _

/-! ## Nothing is lost -/

theorem eq_zero_of_feedback (hpoly : poly.getLsbD 0 = true) {c : BitVec w}
    (h : feedback poly c = 0) : c = 0 := by
  have hw : 0 < w := by
    by_contra hw
    obtain rfl : w = 0 := by omega
    simp at hpoly
  unfold feedback at h
  split at h
  · -- the lowest bit of the polynomial would be seen
    have hlow := congrArg (BitVec.getLsbD · 0) h
    simp [hpoly] at hlow
  · rename_i hmsb
    refine BitVec.eq_of_getLsbD_eq fun i hi => ?_
    suffices hclear : c.getLsbD i = false by simpa using hclear
    by_cases hlast : i = w - 1
    · rw [hlast, ← BitVec.msb_eq_getLsbD_last]
      exact eq_false_of_ne_true hmsb
    · have hbit := congrArg (BitVec.getLsbD · (i + 1)) h
      rw [BitVec.getLsbD_eq_getElem hi]
      simpa [show i + 1 < w by omega] using hbit

theorem eq_zero_of_iterate (hpoly : poly.getLsbD 0 = true) {n : ℕ} {c : BitVec w}
    (h : (feedback poly)^[n] c = 0) : c = 0 := by
  induction n generalizing c with
  | zero => exact h
  | succ n ih =>
    rw [Function.iterate_succ_apply] at h
    exact eq_zero_of_feedback hpoly (ih h)

/-- A register that is not empty stays so, while no error comes in. -/
theorem eq_zero_of_foldl (hpoly : poly.getLsbD 0 = true) {zeros : List UInt8}
    (hzeros : ∀ b ∈ zeros, b = 0) {c : BitVec w} (h : zeros.foldl (feed poly) c = 0) : c = 0 := by
  induction zeros generalizing c with
  | nil => exact h
  | cons b zeros ih =>
    rw [List.foldl_cons] at h
    have hfeed := ih (fun b hb => hzeros b (List.mem_cons_of_mem _ hb)) h
    obtain rfl := hzeros b List.mem_cons_self
    unfold feed at hfeed
    have hc := eq_zero_of_iterate hpoly hfeed
    simpa using hc

/-- An empty one stays so as well. -/
theorem foldl_zeros {zeros : List UInt8} (hzeros : ∀ b ∈ zeros, b = 0) :
    zeros.foldl (feed poly) 0 = 0 := by
  induction zeros with
  | nil => rfl
  | cons b zeros ih =>
    obtain rfl := hzeros b List.mem_cons_self
    rw [List.foldl_cons, feed_zero]
    exact ih fun b hb => hzeros b (List.mem_cons_of_mem _ hb)

/-! ## Two bytes -/

/-- What does not reach the top goes up as it is. -/
theorem iterate_feedback_of_lt {n : ℕ} {c : BitVec w} (hn : n ≤ w) (h : c.toNat < 2 ^ (w - n)) :
    (feedback poly)^[n] c = c <<< n := by
  induction n with
  | zero => simp
  | succ n ih =>
    have hhalf : 2 * 2 ^ (w - (n + 1)) = 2 ^ (w - n) := by
      rw [← Nat.pow_succ']
      congr 1
      omega
    have hup : (c <<< n).msb = false := by
      rw [BitVec.msb_eq_decide, decide_eq_false_iff_not, BitVec.toNat_shiftLeft, Nat.shiftLeft_eq]
      have htop : 2 ^ (w - (n + 1)) * 2 ^ n = 2 ^ (w - 1) := by
        rw [← Nat.pow_add]
        congr 1
        omega
      have hlt : c.toNat * 2 ^ n < 2 ^ (w - 1) := by
        rw [← htop]
        exact Nat.mul_lt_mul_of_pos_right h (Nat.two_pow_pos n)
      have hmod := Nat.mod_le (c.toNat * 2 ^ n) (2 ^ w)
      omega
    rw [Function.iterate_succ_apply', ih (by omega) (by omega), feedback, hup,
      if_neg Bool.false_ne_true, BitVec.shiftLeft_add]

/-- **Three bytes of error** empty a register of two exactly if the last two are what
the first leaves. -/
theorem eq_of_syndrome_three {poly : BitVec 16} (hpoly : poly.getLsbD 0 = true) {a b c : UInt8}
    (h : syndrome poly [a, b, c] = 0) :
    feed poly 0 a = b.toBitVec.setWidth 16 <<< 8 ^^^ c.toBitVec.setWidth 16 := by
  have hlow : (feedback poly)^[8] (c.toBitVec.setWidth 16) = c.toBitVec.setWidth 16 <<< 8 := by
    refine iterate_feedback_of_lt (by decide) ?_
    rw [BitVec.toNat_setWidth]
    have := c.toBitVec.isLt
    omega
  change (feedback poly)^[8]
    ((feedback poly)^[8] (feed poly 0 a ^^^ b.toBitVec.setWidth 16 <<< 8) ^^^
      c.toBitVec.setWidth 16 <<< 8) = 0 at h
  rw [← hlow, ← iterate_feedback_xor] at h
  have hzero := eq_zero_of_iterate hpoly (eq_zero_of_iterate hpoly h)
  rw [BitVec.xor_assoc] at hzero
  exact BitVec.xor_eq_zero_iff.mp hzero

/-! ## Parity -/

/-- How many bits are set. -/
def ones (c : BitVec w) : ℕ := (List.range w).countP c.getLsbD

/-- Bits that are set on both sides cancel in pairs. -/
theorem countP_xor {α : Type*} (p q : α → Bool) (l : List α) :
    (l.countP fun a => p a ^^ q a) % 2 = (l.countP p + l.countP q) % 2 := by
  induction l with
  | nil => rfl
  | cons a l ih =>
    simp only [List.countP_cons]
    cases p a <;> cases q a
    all_goals
      simp
      omega

theorem ones_xor (a b : BitVec w) : ones (a ^^^ b) % 2 = (ones a + ones b) % 2 := by
  unfold ones
  rw [← countP_xor, ← funext fun i => BitVec.getLsbD_xor (x := a) (y := b) (i := i)]

/-- One place up, and the bit at the top is gone. -/
theorem ones_shiftLeft_one (c : BitVec w) : ones (c <<< 1) + c.msb.toNat = ones c := by
  cases w with
  | zero =>
    have hmsb : c.msb = false := by rw [BitVec.eq_nil c]; rfl
    rw [hmsb]
    rfl
  | succ n =>
    have hlow : (c <<< 1).getLsbD 0 = false := by simp
    have hup : ∀ i ∈ List.range n, (c <<< 1).getLsbD (i + 1) = c.getLsbD i := by
      intro i hi
      have hlt : i + 1 < n + 1 := Nat.succ_lt_succ (List.mem_range.mp hi)
      rw [BitVec.getLsbD_shiftLeft]
      simp only [hlt, decide_true, Bool.true_and, Nat.add_sub_cancel]
      simp
    have hleft : ones (c <<< 1) = (List.range n).countP c.getLsbD := by
      unfold ones
      rw [List.range_succ_eq_map, List.countP_cons, hlow, List.countP_map]
      exact List.countP_congr fun i hi => by simp [hup i hi]
    have hright : ones c = (List.range n).countP c.getLsbD + c.msb.toNat := by
      unfold ones
      rw [List.range_succ, List.countP_append, List.countP_singleton, BitVec.msb_eq_getLsbD_last,
        Nat.add_sub_cancel]
      cases c.getLsbD n <;> rfl
    rw [hleft, hright]

/-- A step keeps the parity. -/
theorem ones_feedback (hodd : ones poly % 2 = 1) (c : BitVec w) :
    ones (feedback poly c) % 2 = ones c % 2 := by
  have hshift := ones_shiftLeft_one c
  unfold feedback
  cases hmsb : c.msb with
  | false =>
    rw [hmsb, Bool.toNat_false, Nat.add_zero] at hshift
    rw [if_neg Bool.false_ne_true, hshift]
  | true =>
    rw [hmsb, Bool.toNat_true] at hshift
    have hxor := ones_xor (c <<< 1) poly
    rw [if_pos rfl]
    omega

theorem ones_iterate (hodd : ones poly % 2 = 1) (n : ℕ) (c : BitVec w) :
    ones ((feedback poly)^[n] c) % 2 = ones c % 2 := by
  induction n generalizing c with
  | zero => rfl
  | succ n ih => rw [Function.iterate_succ_apply, ih, ones_feedback hodd]

/-- A byte at the top has its own bits. -/
theorem ones_top (hw : 8 ≤ w) (b : BitVec 8) : ones (b.setWidth w <<< (w - 8)) = ones b := by
  have hlow : ∀ i ∈ List.range (w - 8),
      ¬ (b.setWidth w <<< (w - 8)).getLsbD i = true := by
    intro i hi
    have hlt := List.mem_range.mp hi
    simp [BitVec.getLsbD_shiftLeft, hlt]
  have hhigh : ∀ i ∈ List.range 8,
      (b.setWidth w <<< (w - 8)).getLsbD (w - 8 + i) = b.getLsbD i := by
    intro i hi
    have hlt := List.mem_range.mp hi
    have hin : w - 8 + i < w := by omega
    simp [hin]
  have hsplit : List.range w = List.range (w - 8) ++ (List.range 8).map (w - 8 + ·) := by
    rw [← List.range_add]
    congr 1
    omega
  unfold ones
  rw [hsplit, List.countP_append, List.countP_eq_zero.mpr hlow, Nat.zero_add, List.countP_map]
  exact List.countP_congr fun i hi => by simp [hhigh i hi]

/-- **Ones are kept modulo two.** -/
theorem ones_foldl (hodd : ones poly % 2 = 1) (hw : 8 ≤ w) (e : List UInt8) (c : BitVec w) :
    ones (e.foldl (feed poly) c) % 2 = (ones c + (e.map fun b => ones b.toBitVec).sum) % 2 := by
  induction e generalizing c with
  | nil => rfl
  | cons b e ih =>
    have hbyte : ones (feed poly c b) % 2 = (ones c + ones b.toBitVec) % 2 := by
      unfold feed
      rw [ones_iterate hodd, ones_xor, ones_top hw]
    rw [List.foldl_cons, ih, List.map_cons, List.sum_cons]
    omega

/-- An odd error leaves something. -/
theorem syndrome_ne_zero_of_odd (hodd : ones poly % 2 = 1) (hw : 8 ≤ w) {e : List UInt8}
    (he : (e.map fun b => ones b.toBitVec).sum % 2 = 1) : syndrome poly e ≠ 0 := by
  intro hzero
  have hkept := ones_foldl hodd hw e 0
  have hnone : ones (0 : BitVec w) = 0 := by
    unfold ones
    exact List.countP_eq_zero.mpr fun i _ => by simp
  change ones (syndrome poly e) % 2 = _ at hkept
  rw [hzero, hnone, Nat.zero_add, he] at hkept
  exact absurd hkept (by decide)

end ShiftRegister

end SmartGateway
