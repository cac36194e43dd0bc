import Mathlib.Algebra.GroupWithZero.Nat
import Mathlib.Data.List.Basic

/-!
# Bursts of bit errors

Two texts of one length that differ inside one window of consecutive bits only. The bits
of a byte may be counted from either end; both orders are kept apart from the texts, so
that what is said of bursts is said of both. A window of sixteen bits lies in three bytes:
it leaves the front of the first alone and the back of the last.
-/

namespace SmartGateway

/-- Which end of a byte its bits are counted from. -/
inductive BitOrder
  | msbFirst
  | lsbFirst
deriving DecidableEq

namespace BitOrder

/-- A bit of a byte. -/
def bitOf (order : BitOrder) (b : UInt8) (i : ℕ) : Bool :=
  match order with
  | .msbFirst => b.toBitVec.getLsbD (7 - i)
  | .lsbFirst => b.toBitVec.getLsbD i

/-- A bit of a text. -/
def bitAt (order : BitOrder) (s : List UInt8) (i : ℕ) : Option Bool :=
  s[i / 8]?.map fun b => order.bitOf b (i % 8)

variable {order : BitOrder} {a b : UInt8}

theorem bitOf_xor (a b : UInt8) (i : ℕ) :
    order.bitOf (a ^^^ b) i = (order.bitOf a i ^^ order.bitOf b i) := by
  unfold bitOf
  cases order with
  | msbFirst => exact BitVec.getLsbD_xor
  | lsbFirst => exact BitVec.getLsbD_xor

@[simp] theorem bitOf_zero (i : ℕ) : order.bitOf 0 i = false := by
  cases order with
  | msbFirst => exact BitVec.getLsbD_zero
  | lsbFirst => exact BitVec.getLsbD_zero

/-- A byte is its eight bits. -/
theorem eq_of_bitOf (h : ∀ i, i < 8 → order.bitOf a i = order.bitOf b i) : a = b := by
  refine UInt8.toBitVec_inj.mp (BitVec.eq_of_getLsbD_eq fun i hi => ?_)
  cases order with
  | lsbFirst => exact h i hi
  | msbFirst =>
    have hbit := h (7 - i) (by omega)
    have hback : 7 - (7 - i) = i := by omega
    unfold bitOf at hbit
    rwa [hback] at hbit

theorem bitAt_byte (s : List UInt8) (p : ℕ) {i : ℕ} (hi : i < 8) :
    order.bitAt s (8 * p + i) = s[p]?.map fun b => order.bitOf b i := by
  have hdiv : (8 * p + i) / 8 = p := by omega
  have hmod : (8 * p + i) % 8 = i := by omega
  rw [bitAt, hdiv, hmod]

end BitOrder

/-- The two texts differ inside a window of `n` bits only. -/
structure Burst (order : BitOrder) (n : ℕ) (f g : List UInt8) : Prop where
  length_eq : g.length = f.length
  window : ∃ k, ∀ i, order.bitAt f i ≠ order.bitAt g i → k ≤ i ∧ i < k + n

variable {order : BitOrder} {n : ℕ} {f g : List UInt8}

/-- A change to one byte. -/
theorem burst_set (order : BitOrder) (f : List UInt8) (p : ℕ) (b : UInt8) :
    Burst order 8 f (f.set p b) := by
  refine ⟨List.length_set, 8 * p, fun i hi => ?_⟩
  by_contra hout
  have hne : p ≠ i / 8 := by omega
  rw [BitOrder.bitAt, BitOrder.bitAt, List.getElem?_set_ne hne] at hi
  exact hi rfl

theorem Burst.mono {m : ℕ} (h : Burst order n f g) (hle : n ≤ m) : Burst order m f g := by
  obtain ⟨k, hk⟩ := h.window
  refine ⟨h.length_eq, k, fun i hi => ?_⟩
  have := hk i hi
  omega

/-- What a stretch of the text sees of a burst is one. -/
theorem Burst.stretch (h : Burst order n f g) (q m : ℕ) :
    Burst order n ((f.drop q).take m) ((g.drop q).take m) := by
  obtain ⟨k, hk⟩ := h.window
  refine ⟨by simp only [List.length_take, List.length_drop, h.length_eq], k - 8 * q, fun i hi => ?_⟩
  have hdiff : order.bitAt f (8 * q + i) ≠ order.bitAt g (8 * q + i) := by
    intro heq
    apply hi
    have hdiv : (8 * q + i) / 8 = q + i / 8 := by omega
    have hmod : (8 * q + i) % 8 = i % 8 := by omega
    unfold BitOrder.bitAt at heq ⊢
    rw [hdiv, hmod] at heq
    rw [List.getElem?_take, List.getElem?_take, List.getElem?_drop, List.getElem?_drop]
    split
    · exact heq
    · rfl
  have := hk _ hdiff
  omega

/-- Where two bytes differ a bit does. -/
theorem Burst.exists_bit (h : Burst order n f g) {p : ℕ} (hp : f[p]? ≠ g[p]?) :
    ∃ i, i < 8 ∧ order.bitAt f (8 * p + i) ≠ order.bitAt g (8 * p + i) := by
  by_contra hnone
  have hsame : ∀ i, i < 8 →
      f[p]?.map (fun b => order.bitOf b i) = g[p]?.map fun b => order.bitOf b i := by
    intro i hi
    by_contra hbit
    rw [← BitOrder.bitAt_byte f p hi, ← BitOrder.bitAt_byte g p hi] at hbit
    exact hnone ⟨i, hi, hbit⟩
  have hlength := h.length_eq
  rcases Nat.lt_or_ge p f.length with hlt | hge
  · rw [List.getElem?_eq_getElem hlt, List.getElem?_eq_getElem (by omega)] at hp hsame
    exact hp (congrArg some (BitOrder.eq_of_bitOf fun i hi => Option.some.inj (hsame i hi)))
  · exact hp (by rw [List.getElem?_eq_none hge, List.getElem?_eq_none (by omega)])

/-- The error of a burst of two bytes: inside three, from bit `r` of the first and up to
bit `r` of the last. -/
structure ByteBurst (order : BitOrder) (q r : ℕ) (e : List UInt8) : Prop where
  inside : ∀ p x, e[p]? = some x → x ≠ 0 → q ≤ p ∧ p ≤ q + 2
  first : ∀ x, e[q]? = some x → ∀ i, i < 8 → order.bitOf x i = true → r ≤ i
  last : ∀ x, e[q + 2]? = some x → ∀ i, i < 8 → order.bitOf x i = true → i < r

/-- Zeros behind it change nothing. -/
theorem ByteBurst.append_zeros {q r : ℕ} {e zeros : List UInt8} (h : ByteBurst order q r e)
    (hzeros : ∀ b ∈ zeros, b = 0) : ByteBurst order q r (e ++ zeros) := by
  have hcases : ∀ {p : ℕ} {x : UInt8}, (e ++ zeros)[p]? = some x → e[p]? = some x ∨ x = 0 := by
    intro p x hx
    rw [List.getElem?_append] at hx
    split at hx
    · exact .inl hx
    · exact .inr (hzeros x (List.mem_of_getElem? hx))
  refine ⟨fun p x hx hne => ?_, fun x hx i hi hset => ?_, fun x hx i hi hset => ?_⟩
  · rcases hcases hx with hx | rfl
    · exact h.inside p x hx hne
    · exact absurd rfl hne
  · rcases hcases hx with hx | rfl
    · exact h.first x hx i hi hset
    · exact absurd hset (by simp)
  · rcases hcases hx with hx | rfl
    · exact h.last x hx i hi hset
    · exact absurd hset (by simp)

/-- **A window of sixteen bits lies in three bytes.** -/
theorem Burst.byteBurst (h : Burst order 16 f g) :
    ∃ q r, r < 8 ∧ ByteBurst order q r (List.zipWith (· ^^^ ·) f g) := by
  obtain ⟨k, hk⟩ := h.window
  -- a bit of the error is a difference of the texts
  have hbit : ∀ p x i, (List.zipWith (· ^^^ ·) f g)[p]? = some x → i < 8 →
      order.bitOf x i = true → k ≤ 8 * p + i ∧ 8 * p + i < k + 16 := by
    intro p x i hx hi hset
    obtain ⟨a, b, ha, hb, rfl⟩ := List.getElem?_zipWith_eq_some.mp hx
    refine hk _ fun heq => ?_
    rw [BitOrder.bitAt_byte f p hi, BitOrder.bitAt_byte g p hi, ha, hb] at heq
    have heq : order.bitOf a i = order.bitOf b i := Option.some.inj heq
    rw [BitOrder.bitOf_xor, heq, Bool.xor_self] at hset
    exact Bool.false_ne_true hset
  refine ⟨k / 8, k % 8, Nat.mod_lt _ (by decide), ?_, ?_, ?_⟩
  · intro p x hx hne
    have hset : ∃ i, i < 8 ∧ order.bitOf x i = true := by
      by_contra hnone
      refine hne (@BitOrder.eq_of_bitOf order _ _ fun i hi => ?_)
      rw [BitOrder.bitOf_zero]
      by_contra hset
      exact hnone ⟨i, hi, eq_true_of_ne_false hset⟩
    obtain ⟨i, hi, hset⟩ := hset
    have := hbit p x i hx hi hset
    omega
  · intro x hx i hi hset
    have := hbit _ x i hx hi hset
    omega
  · intro x hx i hi hset
    have := hbit _ x i hx hi hset
    omega

/-- Two bytes that differ are at most two places apart. -/
theorem Burst.near (h : Burst order 16 f g) {p q : ℕ} (hp : f[p]? ≠ g[p]?) (hq : f[q]? ≠ g[q]?) :
    q ≤ p + 2 := by
  obtain ⟨k, hk⟩ := h.window
  obtain ⟨i, hi, hbit⟩ := h.exists_bit hp
  obtain ⟨j, hj, hbit'⟩ := h.exists_bit hq
  have hlow := hk _ hbit
  have hhigh := hk _ hbit'
  omega

/-- Behind a byte that differs the texts go on alike. -/
theorem Burst.drop_eq (h : Burst order 16 f g) {p q : ℕ} (hp : f[p]? ≠ g[p]?) (hq : p + 2 < q) :
    f.drop q = g.drop q := by
  refine List.ext_getElem? fun i => ?_
  rw [List.getElem?_drop, List.getElem?_drop]
  by_contra hne
  have := h.near hp hne
  omega

/-- And before it they began alike. -/
theorem Burst.take_eq (h : Burst order 16 f g) {p q : ℕ} (hp : f[p]? ≠ g[p]?) (hq : q + 2 ≤ p) :
    f.take q = g.take q := by
  refine List.ext_getElem? fun i => ?_
  rw [List.getElem?_take, List.getElem?_take]
  split
  · by_contra hne
    have := h.near hne hp
    omega
  · rfl

theorem exists_ne_of_stretch_ne {q m : ℕ} (h : (f.drop q).take m ≠ (g.drop q).take m) :
    ∃ p, q ≤ p ∧ p < q + m ∧ f[p]? ≠ g[p]? := by
  by_contra hnone
  refine h (List.ext_getElem? fun i => ?_)
  rw [List.getElem?_take, List.getElem?_take, List.getElem?_drop, List.getElem?_drop]
  split
  · by_contra hne
    exact hnone ⟨q + i, by omega, by omega, hne⟩
  · rfl

theorem exists_ne_of_drop_ne {q : ℕ} (h : f.drop q ≠ g.drop q) :
    ∃ p, q ≤ p ∧ f[p]? ≠ g[p]? := by
  by_contra hnone
  refine h (List.ext_getElem? fun i => ?_)
  rw [List.getElem?_drop, List.getElem?_drop]
  by_contra hne
  exact hnone ⟨q + i, by omega, hne⟩

/-! ## Single bits -/

/-- How many bits two texts of one length differ in. -/
def differingBits (order : BitOrder) (f g : List UInt8) : ℕ :=
  (List.range (8 * f.length)).countP fun i => order.bitAt f i ≠ order.bitAt g i

/-- The ones of a byte, from either end. -/
theorem countP_bitOf (order : BitOrder) (b : UInt8) :
    (List.range 8).countP (order.bitOf b) = (List.range 8).countP b.toBitVec.getLsbD := by
  cases order with
  | lsbFirst => rfl
  | msbFirst =>
    have hperm : ((List.range 8).map (7 - ·)).Perm (List.range 8) := by decide
    rw [← hperm.countP_eq, List.countP_map]
    rfl

/-- They are the ones of the error. -/
theorem differingBits_eq (order : BitOrder) {f g : List UInt8} (h : g.length = f.length) :
    differingBits order f g =
      ((List.zipWith (· ^^^ ·) f g).map fun b => (List.range 8).countP b.toBitVec.getLsbD).sum := by
  induction f generalizing g with
  | nil => rfl
  | cons a f ih =>
    cases g with
    | nil => exact absurd h (by simp)
    | cons b g =>
      have hrest := ih (Nat.succ.inj h)
      -- the first byte has the first eight places, the others theirs behind it
      have hfirst : ∀ i ∈ List.range 8,
          decide (order.bitAt (a :: f) i ≠ order.bitAt (b :: g) i) = order.bitOf (a ^^^ b) i := by
        intro i hi
        have hlt := List.mem_range.mp hi
        have ha : order.bitAt (a :: f) (8 * 0 + i) = some (order.bitOf a i) :=
          BitOrder.bitAt_byte (a :: f) 0 hlt
        have hb : order.bitAt (b :: g) (8 * 0 + i) = some (order.bitOf b i) :=
          BitOrder.bitAt_byte (b :: g) 0 hlt
        rw [Nat.mul_zero, Nat.zero_add] at ha hb
        rw [ha, hb, BitOrder.bitOf_xor]
        cases order.bitOf a i <;> cases order.bitOf b i <;> simp
      have hlater : ∀ i, order.bitAt (a :: f) (8 + i) ≠ order.bitAt (b :: g) (8 + i) ↔
          order.bitAt f i ≠ order.bitAt g i := by
        intro i
        have hdiv : (8 + i) / 8 = i / 8 + 1 := by omega
        have hmod : (8 + i) % 8 = i % 8 := by omega
        unfold BitOrder.bitAt
        rw [hdiv, hmod, List.getElem?_cons_succ, List.getElem?_cons_succ]
      have hlength : 8 * (a :: f).length = 8 + 8 * f.length := by
        rw [List.length_cons]
        omega
      unfold differingBits at hrest ⊢
      rw [hlength, List.range_add, List.countP_append, List.countP_map, List.zipWith_cons_cons,
        List.map_cons, List.sum_cons, ← hrest, ← countP_bitOf order]
      congr 1
      · exact List.countP_congr fun i hi => by rw [hfirst i hi]
      · exact List.countP_congr fun i _ => by simpa using hlater i

end SmartGateway
