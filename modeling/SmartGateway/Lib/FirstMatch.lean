import Mathlib.Data.List.Basic

/-!
# First-match tables

A table kept as a list and searched from the front: an operation finds the first
entry a predicate accepts and overwrites it in place. What a search finds after
such a write is what these lemmas say, for the predicate the entry was found by
and for one that rejects both the old entry and the new.
-/

namespace SmartGateway

namespace FirstMatch

variable {α : Type*} {p q : α → Bool} {l : List α}

/-- The entry a search stops at is accepted. -/
theorem getElem_of_find {i : Fin l.length} (h : l.findFinIdx? p = some i) : p l[i] = true :=
  (List.findFinIdx?_eq_some_iff.mp h).1

/-- The index search and the entry search agree. -/
theorem find_eq {i : Fin l.length} (h : l.findFinIdx? p = some i) : l.find? p = some l[i] := by
  rw [List.find?_eq_map_findFinIdx?_getElem, h]
  rfl

theorem find_eq_none (h : l.findFinIdx? p = none) : l.find? p = none := by
  rw [List.find?_eq_map_findFinIdx?_getElem, h]
  rfl

/-- **Overwriting the entry found.** The search now finds what was written. -/
theorem find_set_self {i : Fin l.length} (h : l.findFinIdx? p = some i) {x : α} (hx : p x = true) :
    (l.set i x).find? p = some x := by
  rw [List.find?_eq_some_iff_getElem]
  refine ⟨hx, i, by simp, by simp, fun j hj => ?_⟩
  have hmin := (List.findFinIdx?_eq_some_iff.mp h).2 ⟨j, by omega⟩ hj
  rw [List.getElem_set_ne (by omega)]
  simpa using hmin

/-- **And no other search notices**, if it passes over the old entry and the
new one. -/
theorem find_set_other (i : Fin l.length) {x : α} (hold : q l[i] = false) (hnew : q x = false) :
    (l.set i x).find? q = l.find? q := by
  obtain ⟨i, hi⟩ := i
  induction l generalizing i with
  | nil => exact absurd hi (Nat.not_lt_zero _)
  | cons a l ih =>
    cases i with
    | zero =>
      have ha : q a = false := hold
      simp [ha, hnew]
    | succ i =>
      have hl : i < l.length := Nat.lt_of_succ_lt_succ hi
      simp only [List.set_cons_succ, List.find?_cons]
      rw [ih i hl hold]

/-- An entry put at the end is found where nothing was. -/
theorem find_concat_self (h : l.find? p = none) {x : α} (hx : p x = true) :
    (l ++ [x]).find? p = some x := by
  simp [List.find?_append, h, hx]

/-- And hides nothing. -/
theorem find_concat_other {x : α} (hx : q x = false) : (l ++ [x]).find? q = l.find? q := by
  simp [List.find?_append, hx]

end FirstMatch

end SmartGateway
