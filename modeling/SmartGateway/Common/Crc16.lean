import SmartGateway.Common.CString
import SmartGateway.Lib.Burst
import SmartGateway.Lib.ShiftRegister

/-!
# CRC-16/CCITT-FALSE

`common/crc16.c`: initial value `0xFFFF`, polynomial `0x1021`, most significant bit first, no
final exclusive or. Two texts of one length that differ in one window of sixteen bits, or in
an odd number of bits, have different CRCs. The window is seen because the register loses
nothing; the odd number because `x^16 + x^12 + x^5 + 1` has an even number of terms, so that
every step of the register keeps the parity of its ones and the text's together.
-/

namespace SmartGateway

open ShiftRegister

/-- One turn of the bit loop. -/
def crc16Bit (crc : BitVec 16) : BitVec 16 :=
  if crc &&& 0x8000#16 ≠ 0#16 then (crc <<< 1) ^^^ 0x1021#16 else crc <<< 1

/-- One turn of the byte loop. -/
def crc16Byte (crc : BitVec 16) (b : Byte) : BitVec 16 :=
  Nat.iterate crc16Bit 8 (crc ^^^ (b.toBitVec.setWidth 16 <<< 8))

/-- `crc16_ccitt_false`. -/
def crc16CcittFalse (data : Bytes) : BitVec 16 := data.foldl crc16Byte 0xFFFF#16

/-- The catalogue's check value. -/
example : crc16CcittFalse (ascii "123456789") = 0x29B1#16 := by decide +kernel

/-! ## The CRC as a register -/

theorem crc16Bit_eq (crc : BitVec 16) : crc16Bit crc = feedback 0x1021#16 crc := by
  have htop : crc &&& 0x8000#16 ≠ 0#16 ↔ crc.msb = true := by
    rw [ne_eq, ← BitVec.toNat_inj, BitVec.toNat_and, BitVec.msb_eq_getLsbD_last,
      ← BitVec.testBit_toNat]
    change ¬crc.toNat &&& 2 ^ 15 = 0 ↔ crc.toNat.testBit 15 = true
    rw [Nat.and_two_pow]
    cases crc.toNat.testBit 15 <;> simp
  unfold crc16Bit feedback
  by_cases h : crc.msb = true
  · rw [if_pos h, if_pos (htop.mpr h)]
  · rw [if_neg h, if_neg (mt htop.mp h)]

theorem crc16Byte_eq (crc : BitVec 16) (b : Byte) : crc16Byte crc b = feed 0x1021#16 crc b := by
  have hbit : crc16Bit = feedback 0x1021#16 := funext crc16Bit_eq
  unfold crc16Byte feed
  rw [hbit]

theorem crc16CcittFalse_eq (data : Bytes) :
    crc16CcittFalse data = data.foldl (feed 0x1021#16) 0xFFFF#16 := by
  have hbyte : crc16Byte = feed 0x1021#16 := funext₂ crc16Byte_eq
  unfold crc16CcittFalse
  rw [hbyte]

/-- The CRCs of two texts of one length differ by what their error leaves. -/
theorem crc16CcittFalse_xor {f g : Bytes} (h : f.length = g.length) :
    crc16CcittFalse f ^^^ crc16CcittFalse g =
      syndrome 0x1021#16 (List.zipWith (· ^^^ ·) f g) := by
  rw [crc16CcittFalse_eq, crc16CcittFalse_eq, foldl_xor_foldl h, BitVec.xor_self]
  rfl

/-- What a byte of error leaves has a bit set behind one of the byte's, or in its place,
whichever end the bits are counted from. -/
theorem exists_bit_behind : ∀ (order : BitOrder) (a : BitVec 8), a ≠ 0 →
    ∃ i : Fin 8, order.bitOf ⟨a⟩ i = true ∧
      ∃ j : Fin 8, i ≤ j ∧ order.bitOf ⟨(crc16Byte 0 ⟨a⟩).setWidth 8⟩ j = true := by
  intro order
  cases order with
  | msbFirst => decide +kernel
  | lsbFirst => decide +kernel

/-- What it leaves reaches into the last three digits. -/
theorem eq_zero_of_low_digits : ∀ a : BitVec 8, (crc16Byte 0 ⟨a⟩).toNat % 4096 = 0 → a = 0 := by
  decide +kernel

/-- Two texts that differ in their last byte have CRCs that differ in the last three
digits. -/
theorem eq_of_low_digits {u : Bytes} {x y : Byte}
    (h : (crc16CcittFalse (u ++ [x])).toNat % 4096 = (crc16CcittFalse (u ++ [y])).toNat % 4096) :
    x = y := by
  have hxor : crc16CcittFalse (u ++ [x]) ^^^ crc16CcittFalse (u ++ [y]) =
      crc16Byte 0 (x ^^^ y) := by
    unfold crc16CcittFalse
    rw [List.foldl_append, List.foldl_append, List.foldl_cons, List.foldl_cons, List.foldl_nil,
      List.foldl_nil, crc16Byte_eq, crc16Byte_eq, ← feed_xor, BitVec.xor_self, crc16Byte_eq]
    rfl
  have hlow : (crc16Byte 0 (x ^^^ y)).toNat % 2 ^ 12 = 0 := by
    rw [← hxor, BitVec.toNat_xor, Nat.xor_mod_two_pow]
    change _ % 4096 ^^^ _ % 4096 = 0
    rw [h, Nat.xor_self]
  have hzero := eq_zero_of_low_digits (x ^^^ y).toBitVec hlow
  exact UInt8.xor_eq_zero_iff.mp (UInt8.toBitVec_inj.mp hzero)

/-- A byte is the low half of what it is put into. -/
theorem setWidth_shiftLeft_xor (b c : BitVec 8) :
    (b.setWidth 16 <<< 8 ^^^ c.setWidth 16).setWidth 8 = c := by
  refine BitVec.eq_of_getLsbD_eq fun i hi => ?_
  simp [hi]

theorem eq_zero_of_three {order : BitOrder} {r : ℕ} {a b c : Byte}
    (hfirst : ∀ i, i < 8 → order.bitOf a i = true → r ≤ i)
    (hlast : ∀ i, i < 8 → order.bitOf c i = true → i < r)
    (h : syndrome 0x1021#16 [a, b, c] = 0) : a = 0 ∧ b = 0 ∧ c = 0 := by
  have hleft := eq_of_syndrome_three (by decide) h
  have hc : (crc16Byte 0 a).setWidth 8 = c.toBitVec := by
    rw [crc16Byte_eq, hleft]
    exact setWidth_shiftLeft_xor b.toBitVec c.toBitVec
  have ha : a = 0 := by
    by_contra hne
    obtain ⟨i, hi, j, hij, hj⟩ := exists_bit_behind order a.toBitVec fun h =>
      hne (UInt8.toBitVec_inj.mp h)
    have hlow := hfirst i i.isLt hi
    rw [hc] at hj
    have hhigh := hlast j j.isLt hj
    omega
  subst ha
  have hzero : c.toBitVec = 0#8 := by
    rw [← hc, crc16Byte_eq, feed_zero]
    rfl
  obtain rfl : c = 0 := UInt8.toBitVec_inj.mp hzero
  refine ⟨rfl, ?_, rfl⟩
  rw [feed_zero] at hleft
  refine UInt8.toBitVec_inj.mp (BitVec.eq_of_getLsbD_eq fun i hi => ?_)
  have hbit := congrArg (BitVec.getLsbD · (i + 8)) hleft
  have hwide : i + 8 < 16 := by omega
  simpa [hi, hwide] using hbit.symm

/-- An error inside three bytes that leaves nothing is none. -/
theorem ByteBurst.eq_zero {order : BitOrder} {q r : ℕ} {e : Bytes} (h : ByteBurst order q r e)
    (hs : syndrome 0x1021#16 e = 0) : ∀ x ∈ e, x = 0 := by
  induction q generalizing e with
  | zero =>
    have hzeros : ∀ b ∈ ([0, 0, 0] : Bytes), b = 0 := by simp
    have hpadded := h.append_zeros hzeros
    have hleft : syndrome 0x1021#16 (e ++ [0, 0, 0]) = 0 := by
      rw [syndrome_append, hs]
      exact foldl_zeros hzeros
    -- three bytes, and behind them nothing but zeros
    obtain ⟨a, b, c, v, hsplit⟩ : ∃ a b c v, e ++ [0, 0, 0] = [a, b, c] ++ v := by
      rcases e with _ | ⟨a, _ | ⟨b, _ | ⟨c, v⟩⟩⟩
      all_goals exact ⟨_, _, _, _, rfl⟩
    rw [hsplit] at hpadded hleft
    rw [syndrome_append] at hleft
    have hv : ∀ x ∈ v, x = 0 := by
      intro x hx
      obtain ⟨p, hp⟩ := List.mem_iff_getElem?.mp hx
      by_contra hne
      have := (hpadded.inside (p + 3) x hp hne).2
      omega
    obtain ⟨rfl, rfl, rfl⟩ := eq_zero_of_three (hpadded.first a rfl) (hpadded.last c rfl)
      (eq_zero_of_foldl (by decide) hv hleft)
    intro x hx
    have hmem : x ∈ ([0, 0, 0] : Bytes) ++ v := hsplit ▸ List.mem_append_left _ hx
    rcases List.mem_append.mp hmem with hx | hx
    · exact hzeros x hx
    · exact hv x hx
  | succ q ih =>
    cases e with
    | nil => exact fun x hx => absurd hx List.not_mem_nil
    | cons y e =>
      obtain rfl : y = 0 := by
        by_contra hne
        have := (h.inside 0 y rfl hne).1
        omega
      have hrest : ByteBurst order q r e := by
        refine ⟨fun p x hx hne => ?_, fun x hx => ?_, fun x hx => ?_⟩
        · have := h.inside (p + 1) x hx hne
          omega
        · exact h.first x hx
        · exact h.last x hx
      have hs' : syndrome 0x1021#16 e = 0 := by
        unfold syndrome at hs
        rw [List.foldl_cons, feed_zero] at hs
        exact hs
      intro x hx
      rcases List.mem_cons.mp hx with rfl | hx
      · rfl
      · exact ih hrest hs' x hx

/-- **The CRC sees every burst of at most sixteen bits** between texts of one length. -/
theorem crc16CcittFalse_burst {order : BitOrder} {f g : Bytes} (h : Burst order 16 f g)
    (hcrc : crc16CcittFalse f = crc16CcittFalse g) : f = g := by
  have hlength := h.length_eq
  have hs : syndrome 0x1021#16 (List.zipWith (· ^^^ ·) f g) = 0 := by
    rw [← crc16CcittFalse_xor hlength.symm, hcrc, BitVec.xor_self]
    rfl
  obtain ⟨q, r, -, hburst⟩ := h.byteBurst
  have hzero := hburst.eq_zero hs
  refine List.ext_getElem? fun p => ?_
  rcases Nat.lt_or_ge p f.length with hlt | hge
  · obtain ⟨a, hf⟩ : ∃ a, f[p]? = some a := ⟨_, List.getElem?_eq_getElem hlt⟩
    obtain ⟨b, hg⟩ : ∃ b, g[p]? = some b := ⟨_, List.getElem?_eq_getElem (by omega)⟩
    have herror : a ^^^ b ∈ List.zipWith (· ^^^ ·) f g :=
      List.mem_of_getElem? (List.getElem?_zipWith_eq_some.mpr ⟨a, b, hf, hg, rfl⟩)
    rw [hf, hg, UInt8.xor_eq_zero_iff.mp (hzero _ herror)]
  · rw [List.getElem?_eq_none hge, List.getElem?_eq_none (by omega)]

/-! ## What it detects -/

/-- The CRC sees an odd number of changed bits. -/
theorem crc16CcittFalse_odd {order : BitOrder} {f g : Bytes} (hlength : g.length = f.length)
    (hodd : Odd (differingBits order f g)) : crc16CcittFalse f ≠ crc16CcittFalse g := by
  intro hcrc
  have hpoly : ones (0x1021#16) % 2 = 1 := by decide
  have herror : ((List.zipWith (· ^^^ ·) f g).map fun b => ones b.toBitVec).sum % 2 = 1 := by
    rw [differingBits_eq order hlength] at hodd
    exact Nat.odd_iff.mp hodd
  have hs : syndrome 0x1021#16 (List.zipWith (· ^^^ ·) f g) = 0 := by
    rw [← crc16CcittFalse_xor hlength.symm, hcrc, BitVec.xor_self]
    rfl
  exact syndrome_ne_zero_of_odd hpoly (by decide) herror hs

/-- **What the CRC detects**: texts of one length that differ, but inside one window of at
most sixteen consecutive bits only, or in an odd number of bits, have different CRCs. The
bits of a byte are counted from the highest. -/
theorem crc16CcittFalse_detects {f g : Bytes} (hlength : g.length = f.length) (hne : f ≠ g)
    (h : Burst .msbFirst 16 f g ∨ Odd (differingBits .msbFirst f g)) :
    crc16CcittFalse f ≠ crc16CcittFalse g := by
  rcases h with hburst | hodd
  · intro hcrc
    exact hne (crc16CcittFalse_burst hburst hcrc)
  · exact crc16CcittFalse_odd hlength hodd

/-- A digit that turned into its neighbour. -/
theorem crc16CcittFalse_detects_digit :
    crc16CcittFalse (ascii "T=25") ≠ crc16CcittFalse (ascii "T=24") :=
  crc16CcittFalse_detects (by decide) (by decide) (.inr (by decide +kernel))

end SmartGateway
