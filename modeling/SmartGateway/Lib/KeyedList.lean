import Mathlib.Data.Finmap

/-!
# Lists as finite maps

A table kept as a list, no two entries of which have one key, is a finite map from
the keys to what the entries say besides. `Represents` is that relation, and there is
one lemma for each way to change the list: an entry overwritten under its own key, an
entry put at the end under a new one, and an entry taken out with the later ones
moving up.
-/

namespace SmartGateway

namespace KeyedList

variable {α κ β : Type*} [DecidableEq κ] {key : α → κ} {val : α → β} {l : List α}
  {m : Finmap fun _ : κ => β}

/-- The list, read by `key` and `val`, is the map. -/
structure Represents (key : α → κ) (val : α → β) (l : List α) (m : Finmap fun _ : κ => β) :
    Prop where
  nodup : (l.map key).Nodup
  lookup_iff : ∀ k b, m.lookup k = some b ↔ ∃ x ∈ l, key x = k ∧ val x = b

namespace Represents

theorem nil : Represents key val [] ∅ := by
  refine ⟨List.nodup_nil, fun k b => ?_⟩
  simp

theorem mem_iff (h : Represents key val l m) {k : κ} : k ∈ m ↔ ∃ x ∈ l, key x = k := by
  rw [Finmap.mem_iff]
  constructor
  · rintro ⟨b, hb⟩
    obtain ⟨x, hx, hk, -⟩ := (h.lookup_iff k b).mp hb
    exact ⟨x, hx, hk⟩
  · rintro ⟨x, hx, hk⟩
    exact ⟨val x, (h.lookup_iff k _).mpr ⟨x, hx, hk, rfl⟩⟩

/-- The map has as many entries as the list. -/
theorem card_keys (h : Represents key val l m) : m.keys.card = l.length := by
  have hkeys : m.keys = (l.map key).toFinset := by
    ext k
    rw [Finmap.mem_keys, h.mem_iff, List.mem_toFinset, List.mem_map]
  rw [hkeys, List.toFinset_card_of_nodup h.nodup, List.length_map]

/-- What is found in the list is what the map has. -/
theorem lookup_of_find (h : Represents key val l m) {k : κ} {x : α}
    (hx : l.find? (key · == k) = some x) : m.lookup k = some (val x) := by
  have hk : key x = k := by simpa using List.find?_some hx
  exact (h.lookup_iff k _).mpr ⟨x, List.mem_of_find?_eq_some hx, hk, rfl⟩

theorem lookup_of_find_none (h : Represents key val l m) {k : κ}
    (hk : l.find? (key · == k) = none) : m.lookup k = none := by
  rw [Finmap.lookup_eq_none, h.mem_iff]
  rintro ⟨x, hx, rfl⟩
  simpa using List.find?_eq_none.mp hk x hx

/-- Only the entry itself has its key. -/
theorem key_ne_of_mem {as bs : List α} {a x : α} (h : Represents key val (as ++ a :: bs) m)
    (hx : x ∈ as ++ bs) : key x ≠ key a := by
  have hnodup := h.nodup
  rw [List.map_append, List.map_cons, List.nodup_middle, List.nodup_cons, ← List.map_append]
    at hnodup
  intro he
  exact hnodup.1 (he ▸ List.mem_map_of_mem hx)

/-- **An entry overwritten** under its own key. -/
theorem set (h : Represents key val l m) {i : ℕ} (hi : i < l.length) {x : α}
    (hkey : key x = key l[i]) : Represents key val (l.set i x) (m.insert (key x) (val x)) := by
  obtain ⟨as, a, bs, rfl, rfl⟩ : ∃ as a bs, l = as ++ a :: bs ∧ as.length = i :=
    ⟨l.take i, l[i], l.drop (i + 1), by simp, by simp; omega⟩
  have hkey : key x = key a := by simpa using hkey
  rw [List.set_append_right _ _ (Nat.le_refl _), Nat.sub_self, List.set_cons_zero]
  refine ⟨?_, fun k b => ?_⟩
  -- the keys are the same
  · have hnodup := h.nodup
    simp only [List.map_append, List.map_cons, ← hkey] at hnodup ⊢
    exact hnodup
  · by_cases hk : k = key x
    · subst hk
      rw [Finmap.lookup_insert, Option.some.injEq]
      constructor
      · rintro rfl
        exact ⟨x, by simp, rfl, rfl⟩
      · rintro ⟨y, hy, hyk, rfl⟩
        rcases List.mem_append.mp hy with hy | hy
        · exact absurd (hyk.trans hkey) (h.key_ne_of_mem (List.mem_append_left _ hy))
        · rcases List.mem_cons.mp hy with rfl | hy
          · rfl
          · exact absurd (hyk.trans hkey) (h.key_ne_of_mem (List.mem_append_right _ hy))
    · rw [Finmap.lookup_insert_of_ne _ hk, h.lookup_iff]
      have hxk : key x ≠ k := fun he => hk he.symm
      have hak : key a ≠ k := fun he => hk (he.symm.trans hkey.symm)
      simp [or_and_right, exists_or, hxk, hak]

/-- **A new entry at the end.** -/
theorem concat (h : Represents key val l m) {x : α} (hx : key x ∉ m) :
    Represents key val (l ++ [x]) (m.insert (key x) (val x)) := by
  have hfresh : ∀ y ∈ l, key y ≠ key x := fun y hy he => hx (h.mem_iff.mpr ⟨y, hy, he⟩)
  refine ⟨?_, fun k b => ?_⟩
  · rw [List.map_append, List.nodup_append]
    refine ⟨h.nodup, List.nodup_singleton _, ?_⟩
    intro k hk k' hk'
    obtain ⟨y, hy, rfl⟩ := List.mem_map.mp hk
    obtain rfl : k' = key x := by simpa using hk'
    exact hfresh y hy
  · by_cases hk : k = key x
    · subst hk
      rw [Finmap.lookup_insert, Option.some.injEq]
      constructor
      · rintro rfl
        exact ⟨x, by simp, rfl, rfl⟩
      · rintro ⟨y, hy, hyk, rfl⟩
        rcases List.mem_append.mp hy with hy | hy
        · exact absurd hyk (hfresh y hy)
        · rw [List.mem_singleton.mp hy]
    · rw [Finmap.lookup_insert_of_ne _ hk, h.lookup_iff]
      have hxk : key x ≠ k := fun he => hk he.symm
      simp [or_and_right, exists_or, hxk]

/-- **An entry taken out**: the later ones move up, and no other is touched. -/
theorem eraseIdx (h : Represents key val l m) {i : ℕ} (hi : i < l.length) :
    Represents key val (l.eraseIdx i) (m.erase (key l[i])) := by
  obtain ⟨as, a, bs, rfl, rfl⟩ : ∃ as a bs, l = as ++ a :: bs ∧ as.length = i :=
    ⟨l.take i, l[i], l.drop (i + 1), by simp, by simp; omega⟩
  have ha : (as ++ a :: bs)[as.length] = a := by simp
  rw [ha, List.eraseIdx_append_of_length_le (Nat.le_refl _), Nat.sub_self, List.eraseIdx_cons_zero]
  refine ⟨?_, fun k b => ?_⟩
  · have hnodup := h.nodup
    simp only [List.map_append, List.map_cons, List.nodup_middle, List.nodup_cons] at hnodup ⊢
    exact hnodup.2
  · by_cases hk : k = key a
    · subst hk
      rw [Finmap.lookup_erase]
      simp only [reduceCtorEq, false_iff]
      rintro ⟨y, hy, hyk, -⟩
      exact h.key_ne_of_mem hy hyk
    · rw [Finmap.lookup_erase_ne hk, h.lookup_iff]
      have hak : key a ≠ k := fun he => hk he.symm
      simp [or_and_right, exists_or, hak]

end Represents

end KeyedList

end SmartGateway
