import Mathlib

/-!
# Texts, and texts in arrays

Texts are byte lists. The characters that formats give a meaning have names; the text of a
string literal is its bytes.

A `char` array as it stands in memory, and the one way a program writes to it: a text is
copied to the front, with a terminator behind it. What stood behind the terminator stays, so
the bytes of an array tell more than the text it is read as.
-/

namespace SmartGateway

/-- A byte of a buffer or a stream. -/
abbrev Byte := UInt8

/-- Raw storage or a stretch of a stream. -/
abbrev Bytes := List Byte

/-- The bytes of an ASCII literal. -/
def ascii (s : String) : Bytes := s.toList.map Char.toUInt8

namespace Ascii

@[simp] abbrev atSign : Byte := 64
@[simp] abbrev star : Byte := 42
@[simp] abbrev comma : Byte := 44
@[simp] abbrev equals : Byte := 61
@[simp] abbrev cr : Byte := 13
@[simp] abbrev lf : Byte := 10
@[simp] abbrev quote : Byte := 34
@[simp] abbrev backslash : Byte := 92
@[simp] abbrev colon : Byte := 58
@[simp] abbrev openBrace : Byte := 123
@[simp] abbrev closeBrace : Byte := 125
@[simp] abbrev minus : Byte := 45
@[simp] abbrev plus : Byte := 43
@[simp] abbrev dot : Byte := 46

end Ascii

namespace TextArray

variable {n : ℕ}

/-- All zero. -/
def zero (n : ℕ) : Vector Byte n := Vector.replicate n 0

/-- A text copied to the front of an array, with its terminator. -/
def store (a : Vector Byte n) (text : Bytes) : Vector Byte n :=
  a.mapIdx fun i b => if i < text.length then text.getD i 0 else if i = text.length then 0 else b

/-- An array with a text in it and nothing else. -/
def padded (n : ℕ) (text : Bytes) : Vector Byte n := store (zero n) text

theorem getElem_store (a : Vector Byte n) (text : Bytes) {i : ℕ} (hi : i < n) :
    (store a text)[i] =
      if i < text.length then text.getD i 0 else if i = text.length then 0 else a[i] :=
  Vector.getElem_mapIdx hi

/-- The bytes of an array after a store. -/
theorem toList_store (a : Vector Byte n) {text : Bytes} (h : text.length < n) :
    (store a text).toList = text ++ 0 :: a.toList.drop (text.length + 1) := by
  refine List.ext_getElem ?_ fun i hi hi' => ?_
  · rw [Vector.length_toList, List.length_append, List.length_cons, List.length_drop,
      Vector.length_toList]
    omega
  · rw [Vector.length_toList] at hi
    rw [Vector.getElem_toList, getElem_store]
    rcases Nat.lt_trichotomy i text.length with hbefore | rfl | hbehind
    · rw [if_pos hbefore, List.getElem_append_left hbefore, List.getD_eq_getElem _ _ hbefore]
    · rw [if_neg (lt_irrefl _), if_pos rfl, List.getElem_append_right le_rfl]
      simp
    · obtain ⟨k, rfl⟩ := Nat.exists_eq_add_of_lt hbehind
      rw [if_neg (by omega), if_neg (by omega), List.getElem_append_right (by omega)]
      simp only [Nat.add_assoc, Nat.add_sub_cancel_left, List.getElem_cons_succ,
        List.getElem_drop, Vector.getElem_toList]
      congr 1
      omega

end TextArray

end SmartGateway
