import Mathlib.Data.List.Basic
import Mathlib.Data.List.Range
import Mathlib.Data.Nat.ModEq

/-!
# Ring buffers

`n` slots, the index of the oldest element, the index the next one is written
to, and the number held. The three indices carry their invariant as fields, so a
ring whose `tail` has drifted from `head + count` cannot be built. `toList` is
the content in FIFO order: the walk of `count` slots from `head`, which is also
the copying loop the C code runs when it hands a queue out whole.
-/

namespace SmartGateway

/-- A ring of `n` slots, with head, tail and count. -/
structure Ring (α : Type*) (n : ℕ) where
  /-- The storage; slots outside the live window hold stale values. -/
  slots : Vector α n
  /-- Where the oldest element is. -/
  head : ℕ
  /-- Where the next element goes. -/
  tail : ℕ
  /-- How many elements are held. -/
  count : ℕ
  head_lt : head < n
  count_le : count ≤ n
  tail_eq : tail = (head + count) % n

namespace Ring

variable {α : Type*} {n : ℕ}

theorem pos (r : Ring α n) : 0 < n := by
  have := r.head_lt
  omega

theorem index_lt (r : Ring α n) (i : ℕ) : (r.head + i) % n < n := Nat.mod_lt _ r.pos

/-- The `i`-th element from the head. -/
def get (r : Ring α n) (i : ℕ) : α :=
  have := r.index_lt i
  r.slots[(r.head + i) % n]

/-- The content, oldest first. -/
def toList (r : Ring α n) : List α := (List.range r.count).map r.get

/-- A ring whose storage is `x` throughout and which holds nothing. -/
def replicate (x : α) (hn : 0 < n) : Ring α n where
  slots := Vector.replicate n x
  head := 0
  tail := 0
  count := 0
  head_lt := hn
  count_le := Nat.zero_le n
  tail_eq := by simp

/-- Forget the content; the storage keeps its stale values. -/
def clear (r : Ring α n) : Ring α n where
  slots := r.slots
  head := 0
  tail := 0
  count := 0
  head_lt := r.pos
  count_le := Nat.zero_le n
  tail_eq := by simp

/-- Write at the tail and advance it. -/
def push (r : Ring α n) (x : α) (h : r.count < n) : Ring α n where
  slots := r.slots.set r.tail x (by rw [r.tail_eq]; exact r.index_lt _)
  head := r.head
  tail := (r.tail + 1) % n
  count := r.count + 1
  head_lt := r.head_lt
  count_le := h
  tail_eq := by rw [r.tail_eq, Nat.mod_add_mod, Nat.add_assoc]

/-- Read at the head. -/
def front (r : Ring α n) : α :=
  have := r.head_lt
  r.slots[r.head]

/-- Advance the head. -/
def pop (r : Ring α n) (h : 0 < r.count) : Ring α n where
  slots := r.slots
  head := (r.head + 1) % n
  tail := r.tail
  count := r.count - 1
  head_lt := r.index_lt 1
  count_le := by have := r.count_le; omega
  tail_eq := by
    rw [r.tail_eq, Nat.mod_add_mod]
    congr 1
    omega

@[simp] theorem length_toList (r : Ring α n) : r.toList.length = r.count := by
  simp [toList]

@[simp] theorem toList_replicate (x : α) (hn : 0 < n) : (replicate x hn).toList = [] := rfl

@[simp] theorem toList_clear (r : Ring α n) : r.clear.toList = [] := rfl

/-- The ring holds nothing exactly when its count says so. -/
theorem toList_eq_nil_iff (r : Ring α n) : r.toList = [] ↔ r.count = 0 := by
  rw [← List.length_eq_zero_iff, length_toList]

/-- Two live positions are two slots: the live window wraps at most once. -/
theorem index_ne (r : Ring α n) {i j : ℕ} (hij : i < j) (hj : j < n) :
    (r.head + i) % n ≠ (r.head + j) % n := by
  intro h
  have hdvd : n ∣ (r.head + j) - (r.head + i) := (Nat.modEq_iff_dvd' (by omega)).mp h
  have := Nat.le_of_dvd (by omega) hdvd
  omega

/-- What was held is still read after a push. -/
theorem get_push_of_lt (r : Ring α n) (x : α) (h : r.count < n) {i : ℕ} (hi : i < r.count) :
    (r.push x h).get i = r.get i := by
  have hne : r.tail ≠ (r.head + i) % n := by
    rw [r.tail_eq]
    exact (r.index_ne hi h).symm
  simp only [get, push]
  exact Vector.getElem_set_ne _ _ hne

/-- And what was pushed is read last. -/
theorem get_push_self (r : Ring α n) (x : α) (h : r.count < n) :
    (r.push x h).get r.count = x := by
  simp only [get, push, ← r.tail_eq]
  exact Vector.getElem_set_self _

/-- **A push appends.** -/
theorem toList_push (r : Ring α n) (x : α) (h : r.count < n) :
    (r.push x h).toList = r.toList ++ [x] := by
  have hcount : (r.push x h).count = r.count + 1 := rfl
  rw [toList, hcount, List.range_succ, List.map_append, List.map_singleton, get_push_self, toList]
  congr 1
  refine List.map_congr_left fun i hi => ?_
  exact r.get_push_of_lt x h (List.mem_range.mp hi)

theorem get_pop (r : Ring α n) (h : 0 < r.count) (i : ℕ) : (r.pop h).get i = r.get (i + 1) := by
  simp only [get, pop, Nat.mod_add_mod]
  congr 2
  omega

/-- **A pop takes the first.** -/
theorem toList_pop (r : Ring α n) (h : 0 < r.count) :
    r.toList = r.front :: (r.pop h).toList := by
  have hcount : r.count = (r.pop h).count + 1 := (Nat.sub_add_cancel h).symm
  have hfront : r.get 0 = r.front := by
    simp only [get, front, Nat.add_zero, Nat.mod_eq_of_lt r.head_lt]
  rw [toList, hcount, List.range_succ_eq_map, List.map_cons, hfront, List.map_map, toList]
  congr 1
  exact List.map_congr_left fun i _ => (r.get_pop h i).symm

end Ring

end SmartGateway
