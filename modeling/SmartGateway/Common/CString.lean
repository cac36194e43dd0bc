import SmartGateway.Lib.TextArray
import Mathlib.Data.List.TakeWhile

/-!
# C strings

The program stores text in fixed `char` arrays and reads it with the C string
functions. A `CStr` is what such a function sees, bytes up to the first NUL; a
`CharBuf cap` is a `char buf[cap]` that holds one with room for its terminator.
Both carry their condition as a field, so a text that would not fit its array,
or that reads differently from how it was written, cannot be built.
-/

namespace SmartGateway

/-- A `const char *`: the bytes before the terminator, none of them NUL. -/
structure CStr where
  bytes : Bytes
  nulFree : (0 : Byte) ∉ bytes
deriving DecidableEq

/-- What the C string functions see of raw storage: everything before the first
NUL. -/
def cstr (raw : Bytes) : CStr where
  bytes := raw.takeWhile (· ≠ 0)
  nulFree h := by simpa using List.mem_takeWhile_imp h

theorem cstr_bytes_of_nulFree {raw : Bytes} (h : (0 : Byte) ∉ raw) : (cstr raw).bytes = raw := by
  refine List.takeWhile_eq_self_iff.mpr fun b hb => ?_
  simpa using fun h0 : b = 0 => h (h0 ▸ hb)

/-- A terminated string in a larger buffer. -/
theorem cstr_append_nul {text : Bytes} (h : (0 : Byte) ∉ text) (rest : Bytes) :
    (cstr (text ++ 0 :: rest)).bytes = text := by
  have hpos : ∀ b ∈ text, decide (b ≠ 0) = true := by
    intro b hb
    simpa using fun h0 : b = 0 => h (h0 ▸ hb)
  calc (cstr (text ++ 0 :: rest)).bytes
      = text ++ (0 :: rest).takeWhile (· ≠ 0) := List.takeWhile_append_of_pos hpos
    _ = text := by simp

theorem cstr_length_le (raw : Bytes) : (cstr raw).bytes.length ≤ raw.length :=
  (List.takeWhile_prefix _).length_le

/-- A `char buf[cap]` holding a terminated string. -/
structure CharBuf (cap : ℕ) extends CStr where
  fits : bytes.length < cap
deriving DecidableEq

namespace CharBuf

variable {cap : ℕ}

theorem ext_bytes {a b : CharBuf cap} (h : a.bytes = b.bytes) : a = b := by
  obtain ⟨⟨_, _⟩, _⟩ := a
  obtain ⟨⟨_, _⟩, _⟩ := b
  cases h
  rfl

theorem ext_bytes_iff {a b : CharBuf cap} : a = b ↔ a.bytes = b.bytes :=
  ⟨fun h => h ▸ rfl, ext_bytes⟩

/-- Two arrays that hold the same string are the same. -/
theorem ext_toCStr {a b : CharBuf cap} (h : a.toCStr = b.toCStr) : a = b :=
  ext_bytes (congrArg CStr.bytes h)

/-- A zeroed array. -/
def empty (h : 0 < cap) : CharBuf cap := ⟨⟨[], by simp⟩, h⟩

/-- `memcpy` of a stretch of raw text and its terminator, where it fits: what is
read back stops at the first NUL of the text. -/
def ofRaw? (cap : ℕ) (raw : Bytes) : Option (CharBuf cap) :=
  if h : raw.length < cap then some ⟨cstr raw, Nat.lt_of_le_of_lt (cstr_length_le raw) h⟩
  else none

/-- A string copied into an array it fits. -/
def ofCStr? (cap : ℕ) (s : CStr) : Option (CharBuf cap) :=
  if h : s.bytes.length < cap then some ⟨s, h⟩ else none

/-- An array that holds a literal, or nothing where the literal does not fit. -/
def lit (cap : ℕ) [Inhabited (CharBuf cap)] (s : String) : CharBuf cap :=
  (ofRaw? cap (ascii s)).getD default

/-- A literal that fits, and has no NUL, reads as it stands. -/
theorem lit_toCStr [Inhabited (CharBuf cap)] {s : String} (h : (ascii s).length < cap)
    (h0 : (0 : Byte) ∉ ascii s) :
    (lit cap s).toCStr = cstr (ascii s) ∧ (lit cap s).bytes = ascii s := by
  have hlit : lit cap s = ⟨cstr (ascii s), Nat.lt_of_le_of_lt (cstr_length_le _) h⟩ := by
    rw [lit, ofRaw?, dif_pos h, Option.getD_some]
  rw [hlit]
  exact ⟨rfl, cstr_bytes_of_nulFree h0⟩

/-- The copy reads as the string. -/
theorem toCStr_of_ofCStr? {s : CStr} {b : CharBuf cap} (h : ofCStr? cap s = some b) :
    b.toCStr = s := by
  unfold ofCStr? at h
  split at h
  · cases h
    rfl
  · exact absurd h (by simp)

/-- Text without a NUL is stored as it stands. -/
theorem ofRaw?_eq_some_iff {raw : Bytes} (h0 : (0 : Byte) ∉ raw) {b : CharBuf cap} :
    ofRaw? cap raw = some b ↔ b.bytes = raw := by
  unfold ofRaw?
  split
  · rw [Option.some.injEq, ext_bytes_iff, cstr_bytes_of_nulFree h0]
    exact eq_comm
  · rename_i hlen
    refine ⟨fun h => absurd h (by simp), fun h => absurd b.fits ?_⟩
    rw [h]
    exact hlen

/-- A buffer's own text is stored back as it was. -/
@[simp] theorem ofRaw?_bytes (b : CharBuf cap) : ofRaw? cap b.bytes = some b :=
  (ofRaw?_eq_some_iff b.nulFree).mpr rfl

end CharBuf

instance : Inhabited (CharBuf 8) := ⟨CharBuf.empty (by decide)⟩
instance : Inhabited (CharBuf 16) := ⟨CharBuf.empty (by decide)⟩
instance : Inhabited (CharBuf 32) := ⟨CharBuf.empty (by decide)⟩

end SmartGateway
