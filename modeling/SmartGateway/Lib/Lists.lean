import Mathlib.Data.List.Basic
import Mathlib.Data.List.Forall2

/-!
# Lists

What Mathlib does not have: where a list with one more at its end is cut, a list around one of
its places, and lists that are put together of some of the parts of others.
-/

namespace SmartGateway

namespace Lists

variable {α β γ : Type*}

/-- A place in a list with one more at its end is the last, or one of before. -/
theorem concat_eq_append_cons {xs before after : List α} {x y : α}
    (h : xs ++ [x] = before ++ y :: after) :
    xs = before ∧ x = y ∧ after = [] ∨
      ∃ rest, after = rest ++ [x] ∧ xs = before ++ y :: rest := by
  obtain rfl | ⟨rest, last, rfl⟩ := after.eq_nil_or_concat
  · obtain ⟨hxs, hx⟩ := List.append_inj' h rfl
    exact .inl ⟨hxs, List.singleton_inj.mp hx, rfl⟩
  · rw [List.concat_eq_append, ← List.cons_append, ← List.append_assoc] at h
    obtain ⟨hxs, hx⟩ := List.append_inj' h rfl
    obtain rfl := List.singleton_inj.mp hx
    exact .inr ⟨rest, List.concat_eq_append, hxs⟩

/-- Behind a prefix a list goes on in one way. -/
theorem eq_of_isPrefix_concat {xs ys : List α} {x y : α} (hx : xs ++ [x] <+: ys)
    (hy : xs ++ [y] <+: ys) : x = y := by
  have hlength : (xs ++ [x]).length = (xs ++ [y]).length := by
    rw [List.length_append, List.length_append, List.length_singleton, List.length_singleton]
  have heq := (List.prefix_of_prefix_length_le hx hy (Nat.le_of_eq hlength)).eq_of_length hlength
  exact List.singleton_inj.mp (List.append_cancel_left heq)

/-- A list cut at a capacity takes one more element while there is room. -/
theorem take_concat (l : List α) (x : α) (n : ℕ) :
    (l ++ [x]).take n = if (l.take n).length < n then l.take n ++ [x] else l.take n := by
  rw [List.take_append, List.length_take]
  by_cases h : l.length < n
  · have hone : [x].length ≤ n - l.length := by
      rw [List.length_singleton]
      omega
    rw [if_pos (by omega), List.take_of_length_le (show l.length ≤ n by omega),
      List.take_of_length_le hone]
  · rw [if_neg (by omega), show n - l.length = 0 by omega, List.take_zero, List.append_nil]

/-- A byte that stands in a text once. -/
theorem index_of_once {u v : List α} {b : α} (hu : b ∉ u) (hv : b ∉ v) {p : ℕ}
    (h : (u ++ b :: v)[p]? = some b) : p = u.length := by
  rw [List.getElem?_append] at h
  split at h
  · exact absurd (List.mem_of_getElem? h) hu
  · cases hp : p - u.length with
    | zero => omega
    | succ k =>
      rw [hp, List.getElem?_cons_succ] at h
      exact absurd (List.mem_of_getElem? h) hv

/-- A list around one of its places. -/
theorem exists_split_of_getElem? {l : List α} {i : ℕ} {a : α} (h : l[i]? = some a) :
    ∃ before after, l = before ++ a :: after ∧ ∀ b, l.set i b = before ++ b :: after := by
  obtain ⟨hi, rfl⟩ := List.getElem?_eq_some_iff.mp h
  refine ⟨l.take i, l.drop (i + 1), ?_,
    fun b => List.set_eq_take_append_cons_drop.trans (if_pos hi)⟩
  rw [← List.drop_eq_getElem_cons, List.take_append_drop]

/-- One entry of a list replaced, and what its entries stand for counted. -/
theorem count_flatMap_set [BEq β] (f : α → List β) {l : List α} {i : ℕ} {a : α}
    (h : l[i]? = some a) (b : α) (x : β) :
    ((l.set i b).flatMap f).count x + (f a).count x =
      (l.flatMap f).count x + (f b).count x := by
  obtain ⟨before, after, rfl, hset⟩ := exists_split_of_getElem? h
  rw [hset]
  simp only [List.flatMap_append, List.flatMap_cons, List.count_append]
  omega

/-- Sublists of some of them, put together. -/
theorem flatMap_sublist_flatMap {R : α → β → Prop} {as : List α} {bs : List β}
    (h : List.SublistForall₂ R as bs) {f : α → List γ} {g : β → List γ}
    (hsublist : ∀ a ∈ as, ∀ b ∈ bs, R a b → (f a).Sublist (g b)) :
    (as.flatMap f).Sublist (bs.flatMap g) := by
  induction h with
  | nil => exact List.nil_sublist _
  | cons hab h ih =>
    rw [List.flatMap_cons, List.flatMap_cons]
    refine (hsublist _ List.mem_cons_self _ List.mem_cons_self hab).append (ih ?_)
    exact fun a ha b hb => hsublist a (List.mem_cons_of_mem _ ha) b (List.mem_cons_of_mem _ hb)
  | cons_right h ih =>
    rw [List.flatMap_cons]
    refine (ih ?_).trans (List.sublist_append_right _ _)
    exact fun a ha b hb => hsublist a ha b (List.mem_cons_of_mem _ hb)

/-- Pairs that on their left are some of `as`, read by `f`, are these read so. -/
theorem exists_zip_sublist {f : α → β} {as : List α} {bs : List (β × γ)}
    (h : (bs.map Prod.fst).Sublist (as.map f)) :
    ∃ answered : List (α × γ), (answered.map Prod.fst).Sublist as ∧
      bs = answered.map fun answer => (f answer.1, answer.2) := by
  obtain ⟨as', has', heq⟩ := List.sublist_map_iff.mp h
  have hlength : as'.length = bs.length := by
    have hmaps := congrArg List.length heq
    simpa using hmaps.symm
  refine ⟨as'.zip (bs.map Prod.snd), ?_, ?_⟩
  · rw [List.map_fst_zip (by simp [hlength])]
    exact has'
  · have hzip : (as'.zip (bs.map Prod.snd)).map (fun answer => (f answer.1, answer.2)) =
        (as'.map f).zip (bs.map Prod.snd) := by
      rw [List.zip_map_left]
      rfl
    rw [hzip, ← heq, ← List.unzip_fst, ← List.unzip_snd, List.zip_unzip]

end Lists

end SmartGateway
