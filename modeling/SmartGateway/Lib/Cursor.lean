import SmartGateway.Lib.TextArray

/-!
# Reading a text by index

Programs that move an index through a text and write to a struct as they go, with what can
stop them: the function gives up, a read or a write is outside its array, or a loop runs out
of its turns. Only the first of the three is a result. A place in the text stands for the text
from there to its end, and the lemmas say what each program does at a place in terms of that
rest.
-/

namespace SmartGateway

namespace Cursor

/-- Why a program stops before its end. -/
inductive Stop
  /-- It gives up: the function returns -1. -/
  | refused
  /-- A byte outside an array would be read or written. -/
  | fault
  /-- A loop has had all its turns. -/
  | hang
deriving DecidableEq

/-- A program over a struct, which is left as it is where the program stops. -/
abbrev Checked (σ α : Type) := EStateM Stop σ α

variable {σ α β : Type}

/-- Outcomes can be compared where values and structs can. -/
instance [DecidableEq σ] [DecidableEq α] : DecidableEq (EStateM.Result Stop σ α)
  | .ok a s, .ok b t =>
    decidable_of_iff (a = b ∧ s = t) (by rw [EStateM.Result.ok.injEq])
  | .error e s, .error f t =>
    decidable_of_iff (e = f ∧ s = t) (by rw [EStateM.Result.error.injEq])
  | .ok _ _, .error _ _ => isFalse (by simp)
  | .error _ _, .ok _ _ => isFalse (by simp)

/-- A byte of the text. -/
def load (input : Bytes) (p : ℕ) : Checked σ Byte :=
  match input[p]? with
  | none => throw .fault
  | some b => pure b

/-- `p >= end` is refused, and `*p` read else. -/
def peek (input : Bytes) (p : ℕ) : Checked σ Byte :=
  if input.length ≤ p then throw .refused else load input p

/-- `p < end`, and then `*p` is asked about. -/
def nextIs (input : Bytes) (pred : Byte → Bool) (p : ℕ) : Checked σ Bool :=
  if p < input.length then do
    let b ← load input p
    pure (pred b)
  else
    pure false

/-- `while (p < end && …) p++`. -/
def skipWhile (input : Bytes) (pred : Byte → Bool) : ℕ → ℕ → Checked σ ℕ
  | 0, _ => throw .hang
  | turns + 1, p => do
    if ← nextIs input pred p then skipWhile input pred turns (p + 1) else pure p

/-- `memcmp` with a literal, made where the lengths agree. -/
def textIs (input : Bytes) (start length : ℕ) (text : Bytes) : Checked σ Bool :=
  if length ≠ text.length then
    pure false
  else if start + length ≤ input.length then
    pure ((input.drop start).take length = text)
  else
    throw .fault

/-- `memcpy` to an array, and the terminator written behind the text. -/
def copyText {n : ℕ} (a : Vector Byte n) (input : Bytes) (start length : ℕ) :
    Checked σ (Vector Byte n) :=
  if start + length ≤ input.length ∧ length < n then
    pure (TextArray.store a ((input.drop start).take length))
  else
    throw .fault

/-- A program on a part of the struct, given a pointer to it. -/
def onPart {τ : Type} (get : σ → τ) (put : τ → σ → σ) (x : Checked τ α) : Checked σ α := fun s =>
  match x (get s) with
  | .ok a t => .ok a (put t s)
  | .error e t => .error e (put t s)

/-! ## One program after another -/

theorem bind_ok {x : Checked σ α} {f : α → Checked σ β} {s s' : σ} {a : α}
    (h : x s = .ok a s') : (x >>= f) s = f a s' := by
  change EStateM.bind x f s = _
  rw [EStateM.bind, h]

theorem bind_error {x : Checked σ α} {f : α → Checked σ β} {s s' : σ} {e : Stop}
    (h : x s = .error e s') : (x >>= f) s = .error e s' := by
  change EStateM.bind x f s = _
  rw [EStateM.bind, h]

/-! ## Places -/

/-- The text from a place on. -/
structure At (input : Bytes) (p : ℕ) (rest : Bytes) : Prop where
  drop_eq : input.drop p = rest
  le : p ≤ input.length

/-- A stretch of the text. -/
structure TextAt (input : Bytes) (start : ℕ) (text : Bytes) : Prop where
  take_eq : (input.drop start).take text.length = text
  le : start + text.length ≤ input.length

variable {input rest text : Bytes} {p : ℕ} {b : Byte} {pred : Byte → Bool} {s : σ}

theorem At.start (input : Bytes) : At input 0 input := ⟨rfl, Nat.zero_le _⟩

theorem At.length_add (h : At input p rest) : p + rest.length = input.length := by
  have hle := h.le
  rw [← h.drop_eq, List.length_drop]
  omega

theorem At.append (h : At input p (text ++ rest)) : At input (p + text.length) rest := by
  have hlen := h.length_add
  rw [List.length_append] at hlen
  refine ⟨?_, by omega⟩
  rw [← List.drop_drop, h.drop_eq, List.drop_left]

theorem At.next (h : At input p (b :: rest)) : At input (p + 1) rest :=
  At.append (show At input p ([b] ++ rest) from h)

theorem At.textAt (h : At input p (text ++ rest)) : TextAt input p text := by
  have hlen := h.length_add
  rw [List.length_append] at hlen
  refine ⟨?_, by omega⟩
  rw [h.drop_eq, List.take_left]

theorem At.lt (h : At input p (b :: rest)) : p < input.length := by
  have hlen := h.length_add
  rw [List.length_cons] at hlen
  omega

theorem At.eq_end (h : At input p []) : p = input.length := h.length_add

/-- The stretch between two places. -/
theorem At.textAt_sub {p' : ℕ} {rest' : Bytes} (h : At input p rest) (h' : At input p' rest')
    (hsuffix : rest' <:+ rest) :
    TextAt input p (rest.take (rest.length - rest'.length)) ∧
      (rest.take (rest.length - rest'.length)).length = p' - p := by
  obtain ⟨text, rfl⟩ := hsuffix
  have hlen := h.length_add
  have hlen' := h'.length_add
  rw [List.length_append] at hlen
  have htake : (text ++ rest').take ((text ++ rest').length - rest'.length) = text := by
    rw [List.length_append, Nat.add_sub_cancel, List.take_left]
  rw [htake]
  exact ⟨h.textAt, by omega⟩

/-! ## What the programs do at a place -/

@[simp] theorem load_at (h : At input p (b :: rest)) : load input p s = .ok b s := by
  have hget : input[p]? = some b := by
    rw [← List.head?_drop, h.drop_eq, List.head?_cons]
  rw [load, hget]
  rfl

theorem peek_end (h : input.length ≤ p) : peek input p s = .error .refused s := by
  rw [peek, if_pos h]
  rfl

theorem peek_nil (h : At input p []) : peek input p s = .error .refused s :=
  peek_end (Nat.le_of_eq h.eq_end.symm)

theorem peek_cons (h : At input p (b :: rest)) : peek input p s = .ok b s := by
  rw [peek, if_neg (Nat.not_le_of_lt h.lt), load_at h]

theorem nextIs_end (h : input.length ≤ p) : nextIs input pred p s = .ok false s := by
  rw [nextIs, if_neg (Nat.not_lt_of_le h)]
  rfl

theorem nextIs_nil (h : At input p []) : nextIs input pred p s = .ok false s :=
  nextIs_end (Nat.le_of_eq h.eq_end.symm)

theorem nextIs_cons (h : At input p (b :: rest)) : nextIs input pred p s = .ok (pred b) s := by
  rw [nextIs, if_pos h.lt, bind_ok (load_at h)]
  rfl

/-- **The skipping loop** ends where skipping the rest does. -/
theorem skipWhile_at (pred : Byte → Bool) {turns : ℕ} (hturns : rest.length < turns)
    (h : At input p rest) :
    ∃ p', skipWhile input pred turns p s = .ok p' s ∧ At input p' (rest.dropWhile pred) := by
  induction rest generalizing turns p with
  | nil =>
    obtain ⟨turns, rfl⟩ := Nat.exists_eq_add_of_lt hturns
    exact ⟨p, bind_ok (nextIs_nil h), h⟩
  | cons b rest ih =>
    obtain ⟨turns, rfl⟩ := Nat.exists_eq_add_of_lt hturns
    rw [skipWhile, bind_ok (nextIs_cons h)]
    by_cases hb : pred b = true
    · rw [hb, if_pos rfl, List.dropWhile_cons_of_pos hb]
      exact ih (by rw [List.length_cons]; omega) h.next
    · rw [if_neg hb, List.dropWhile_cons_of_neg hb]
      exact ⟨p, rfl, h⟩

/-- An outcome against a rule for the rest of the text: both have given up, or both have come to
the same place. The struct is as it was. -/
inductive Moves (input : Bytes) (s : σ) : EStateM.Result Stop σ ℕ → Option Bytes → Prop
  | done {p : ℕ} {rest : Bytes} (hat : At input p rest) : Moves input s (.ok p s) (some rest)
  | refused : Moves input s (.error .refused s) none

theorem Moves.cases {r : EStateM.Result Stop σ ℕ} {o : Option Bytes} (h : Moves input s r o) :
    (o = none ∧ r = .error .refused s) ∨
      ∃ rest p, o = some rest ∧ r = .ok p s ∧ At input p rest := by
  cases h with
  | done hat => exact .inr ⟨_, _, rfl, rfl, hat⟩
  | refused => exact .inl ⟨rfl, rfl⟩

/-- A rule that never gives up. -/
theorem Moves.exists_place {r : EStateM.Result Stop σ ℕ} (h : Moves input s r (some rest)) :
    ∃ p, r = .ok p s ∧ At input p rest := by
  cases h with
  | done hat => exact ⟨_, rfl, hat⟩

theorem Moves.bind {x : Checked σ ℕ} {f : ℕ → Checked σ ℕ} {o : Option Bytes}
    {g : Bytes → Option Bytes} (hx : Moves input s (x s) o)
    (hf : ∀ {p rest}, At input p rest → Moves input s (f p s) (g rest)) :
    Moves input s ((x >>= f) s) (o.bind g) := by
  rcases hx.cases with ⟨rfl, hstop⟩ | ⟨rest, p, rfl, hcome, hat⟩
  · rw [bind_error hstop]
    exact .refused
  · rw [bind_ok hcome]
    exact hf hat

theorem textIs_at {text' : Bytes} (h : TextAt input p text) :
    textIs input p text.length text' s = .ok (decide (text = text')) s := by
  rw [textIs]
  by_cases hlen : text.length ≠ text'.length
  · rw [if_pos hlen, decide_eq_false (fun heq => hlen (congrArg List.length heq))]
    rfl
  · rw [if_neg hlen, if_pos h.le, h.take_eq]
    rfl

theorem copyText_at {n : ℕ} (a : Vector Byte n) (h : TextAt input p text) (hlen : text.length < n) :
    copyText a input p text.length s = .ok (TextArray.store a text) s := by
  rw [copyText, if_pos ⟨h.le, hlen⟩, h.take_eq]
  rfl

section OnPart

variable {τ : Type} {get : σ → τ} {put : τ → σ → σ} {x : Checked τ α} {t : τ}

theorem onPart_ok {a : α} (h : x (get s) = .ok a t) :
    onPart get put x s = .ok a (put t s) := by
  rw [onPart, h]

theorem onPart_error {e : Stop} (h : x (get s) = .error e t) :
    onPart get put x s = .error e (put t s) := by
  rw [onPart, h]

end OnPart

end Cursor

end SmartGateway
