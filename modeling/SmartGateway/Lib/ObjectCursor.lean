import SmartGateway.Lib.Cursor
import SmartGateway.Lib.ObjectScan

/-!
# Scanning objects by index

The scanner of `ObjectScan` as a program over an index into the text, with a check in front of
each read. The escape rule takes two bytes at once, so behind a string's loop the index can be
past the end of the text. Where each value's program follows a rule for values, the program for
an object follows the member loop with that rule: it gives up exactly where the loop does and
otherwise ends at the same place, and it neither faults nor hangs.
-/

namespace SmartGateway

namespace ObjectCursor

open Cursor ObjectScan

variable {σ τ : Type}

/-! ## The programs -/

/-- The loop over a string, to the place of its closing quote. The byte behind a backslash is
stepped over unread. -/
def quoteLoop (input : Bytes) : ℕ → ℕ → Checked σ ℕ
  | 0, _ => throw .hang
  | turns + 1, p =>
    if p < input.length then do
      let b ← load input p
      if b = Ascii.quote then pure p
      else if b = Ascii.backslash then quoteLoop input turns (p + 2)
      else quoteLoop input turns (p + 1)
    else
      pure p

/-- A string from behind its opening quote: its length, and the place behind its closing
quote. -/
def readString (input : Bytes) (turns p : ℕ) : Checked σ (ℕ × ℕ) := do
  let q ← quoteLoop input turns p
  if input.length ≤ q then throw .refused else pure (q - p, q + 1)

/-- A member's key from behind its opening quote, and its colon: the length of the key, and the
place of the value. -/
def readMember (input : Bytes) (turns p : ℕ) : Checked σ (ℕ × ℕ) := do
  let (length, p) ← readString input turns p
  let p ← skipWhile input isWhitespace turns p
  let b ← peek input p
  if b ≠ Ascii.colon then
    throw .refused
  else do
    let p ← skipWhile input isWhitespace turns (p + 1)
    if input.length ≤ p then throw .refused else pure (length, p)

/-- The member loop, from behind an opening brace to behind the closing one. The program for a
value gets the place and the length of the key and the place of the value. -/
def memberTurns (input : Bytes) (turns : ℕ) (value : ℕ → ℕ → ℕ → Checked σ ℕ) :
    ℕ → ℕ → Checked σ ℕ
  | 0, _ => throw .hang
  | left + 1, p => do
    let p ← skipWhile input isWhitespace turns p
    let b ← peek input p
    if b = Ascii.closeBrace then
      pure (p + 1)
    else if b ≠ Ascii.quote then
      throw .refused
    else do
      let (length, q) ← readMember input turns (p + 1)
      let q ← value (p + 1) length q
      let q ← skipWhile input isWhitespace turns q
      let b ← peek input q
      if b = Ascii.comma then memberTurns input turns value left (q + 1)
      else if b = Ascii.closeBrace then pure (q + 1)
      else throw .refused

/-- The loop with the same number of turns as the loops in it. -/
def readObject (input : Bytes) (turns : ℕ) (value : ℕ → ℕ → ℕ → Checked σ ℕ) (p : ℕ) :
    Checked σ ℕ :=
  memberTurns input turns value turns p

/-! ## Following -/

/-- A program's outcome against a rule's: both have given up, or both have come to the same
place, in states that are related. -/
inductive Follows (R : σ → τ → Prop) (input : Bytes) :
    EStateM.Result Stop σ ℕ → Option Bytes × τ → Prop
  | done {p s rest t} (hat : At input p rest) (hR : R s t) :
    Follows R input (.ok p s) (some rest, t)
  | refused {s t} (hR : R s t) : Follows R input (.error .refused s) (none, t)

/-- A program that follows a rule for values, whatever the key and wherever the value. -/
def FollowsValue (R : σ → τ → Prop) (input : Bytes) (program : ℕ → ℕ → ℕ → Checked σ ℕ)
    (value : Bytes → Bytes → τ → Option Bytes × τ) : Prop :=
  ∀ ⦃start key p rest s t⦄, TextAt input start key → At input p rest → rest ≠ [] → R s t →
    Follows R input (program start key.length p s) (value key rest t)

variable {R : σ → τ → Prop} {input rest : Bytes} {p turns : ℕ} {s : σ} {t : τ}

theorem Follows.cases {r : EStateM.Result Stop σ ℕ} {o : Option Bytes × τ}
    (h : Follows R input r o) :
    (∃ p s rest t, r = .ok p s ∧ o = (some rest, t) ∧ At input p rest ∧ R s t) ∨
      ∃ s t, r = .error .refused s ∧ o = (none, t) ∧ R s t := by
  cases h with
  | done hat hR => exact .inl ⟨_, _, _, _, rfl, rfl, hat, hR⟩
  | refused hR => exact .inr ⟨_, _, rfl, rfl, hR⟩

/-- What else is carried along with the rule's state. -/
theorem Follows.map {τ' : Type} {R' : σ → τ' → Prop} {g : τ → τ'}
    {r : EStateM.Result Stop σ ℕ} {o : Option Bytes × τ} (h : Follows R input r o)
    (hR : ∀ {s t}, R s t → R' s (g t)) : Follows R' input r (o.1, g o.2) := by
  cases h with
  | done hat h => exact .done hat (hR h)
  | refused h => exact .refused (hR h)

theorem length_le_of_at (h : At input p rest) : rest.length ≤ input.length := by
  have hlen := h.length_add
  omega

/-! ## Strings and members -/

theorem quoteLoop_end (h : input.length ≤ p) (hturns : 0 < turns) :
    quoteLoop input turns p s = .ok p s := by
  obtain ⟨turns, rfl⟩ := Nat.exists_eq_add_of_lt hturns
  rw [quoteLoop, if_neg (Nat.not_lt_of_le h)]
  rfl

/-- The loop stops at the quote that closes the string, or past the end of the text. -/
theorem quoteLoop_at (hturns : rest.length < turns) (h : At input p rest) :
    (scanString rest = none ∧ ∃ q, input.length ≤ q ∧ quoteLoop input turns p s = .ok q s) ∨
      ∃ text rest', scanString rest = some (text, rest') ∧
        quoteLoop input turns p s = .ok (p + text.length) s := by
  induction rest using scanString.induct generalizing turns p with
  | case1 =>
    have hend : input.length ≤ p := Nat.le_of_eq h.eq_end.symm
    exact .inl ⟨rfl, p, hend, quoteLoop_end hend (by omega)⟩
  | case2 rest =>
    obtain ⟨turns, rfl⟩ := Nat.exists_eq_add_of_lt hturns
    refine .inr ⟨[], rest, scanString_quote rest, ?_⟩
    rw [quoteLoop, if_pos h.lt, bind_ok (load_at h), if_pos rfl]
    rfl
  | case3 =>
    -- the backslash is the last byte: the index ends one past the end
    obtain ⟨turns, rfl⟩ := Nat.exists_eq_add_of_lt hturns
    have hend : input.length ≤ p + 2 := by
      have hlen := h.next.eq_end
      omega
    rw [List.length_singleton] at hturns ⊢
    refine .inl ⟨by simp [scanString], p + 2, hend, ?_⟩
    rw [quoteLoop, if_pos h.lt, bind_ok (load_at h), if_neg (by decide), if_pos rfl]
    exact quoteLoop_end hend (by omega)
  | case4 c rest _ ih =>
    obtain ⟨turns, rfl⟩ := Nat.exists_eq_succ_of_ne_zero (Nat.ne_zero_of_lt hturns)
    rw [List.length_cons, List.length_cons] at hturns
    have hfewer : rest.length < turns := by omega
    rw [quoteLoop, if_pos h.lt, bind_ok (load_at h), if_neg (by decide), if_pos rfl,
      scanString_backslash]
    rcases ih hfewer h.next.next with ⟨hnone, q, hq, hloop⟩ | ⟨text, rest', hscan, hloop⟩
    · exact .inl ⟨by rw [hnone]; rfl, q, hq, hloop⟩
    · refine .inr ⟨Ascii.backslash :: c :: text, rest', by rw [hscan]; rfl, ?_⟩
      rw [List.length_cons, List.length_cons, show p + (text.length + 1 + 1) = p + 2 + text.length
        by omega]
      exact hloop
  | case5 b rest hq hb ih =>
    obtain ⟨turns, rfl⟩ := Nat.exists_eq_succ_of_ne_zero (Nat.ne_zero_of_lt hturns)
    rw [List.length_cons] at hturns
    have hfewer : rest.length < turns := by omega
    rw [quoteLoop, if_pos h.lt, bind_ok (load_at h), if_neg hq, if_neg hb, scanString_cons hq hb]
    rcases ih hfewer h.next with ⟨hnone, q, hq, hloop⟩ | ⟨text, rest', hscan, hloop⟩
    · exact .inl ⟨by rw [hnone]; rfl, q, hq, hloop⟩
    · refine .inr ⟨b :: text, rest', by rw [hscan]; rfl, ?_⟩
      rw [List.length_cons, show p + (text.length + 1) = p + 1 + text.length by omega]
      exact hloop

/-- **A string is read** where its scan succeeds, and refused else. -/
theorem readString_at (hturns : input.length < turns) (h : At input p rest) :
    (scanString rest = none ∧ readString input turns p s = .error .refused s) ∨
      ∃ text rest' q, scanString rest = some (text, rest') ∧
        readString input turns p s = .ok (text.length, q) s ∧ TextAt input p text ∧
        At input q rest' := by
  have hrest := length_le_of_at h
  rcases quoteLoop_at (s := s) (Nat.lt_of_le_of_lt hrest hturns) h with
    ⟨hnone, q, hq, hloop⟩ | ⟨text, rest', hscan, hloop⟩
  · refine .inl ⟨hnone, ?_⟩
    rw [readString, bind_ok hloop, if_pos hq]
    rfl
  · obtain ⟨rfl, -⟩ := scanString_eq_some_iff.mp hscan
    refine .inr ⟨text, rest', p + text.length + 1, hscan, ?_, h.textAt, h.append.next⟩
    rw [readString, bind_ok hloop, if_neg (Nat.not_le_of_lt h.append.lt), Nat.add_sub_cancel_left]
    rfl

/-- A member's key and colon likewise. -/
theorem readMember_at (hturns : input.length < turns) (h : At input p rest) :
    (scanMember rest = none ∧ readMember input turns p s = .error .refused s) ∨
      ∃ key b rest' q, scanMember rest = some (key, b :: rest') ∧
        readMember input turns p s = .ok (key.length, q) s ∧ TextAt input p key ∧
        At input q (b :: rest') := by
  rcases readString_at (s := s) hturns h with
    ⟨hnone, hread⟩ | ⟨key, rest₁, q₁, hscan, hread, hkey, hat₁⟩
  · exact .inl ⟨by rw [scanMember, hnone], bind_error hread⟩
  have hle₁ := length_le_of_at hat₁
  obtain ⟨q₂, hskip₂, hat₂⟩ := skipWhile_at isWhitespace (s := s)
    (Nat.lt_of_le_of_lt hle₁ hturns) hat₁
  rw [scanMember, hscan, readMember, bind_ok hread]
  dsimp only
  rw [bind_ok hskip₂]
  -- the place behind the blanks is that of the rest without them
  change At input q₂ (skipWhitespace rest₁) at hat₂
  cases hrest₂ : skipWhitespace rest₁ with
  | nil =>
    rw [hrest₂] at hat₂
    exact .inl ⟨rfl, bind_error (peek_nil hat₂)⟩
  | cons b rest₂ =>
    rw [hrest₂] at hat₂
    dsimp only
    rw [bind_ok (peek_cons hat₂)]
    by_cases hcolon : b ≠ Ascii.colon
    · rw [if_pos hcolon, if_pos hcolon]
      exact .inl ⟨rfl, rfl⟩
    rw [if_neg hcolon, if_neg hcolon]
    have hle₂ := length_le_of_at hat₂.next
    obtain ⟨q₃, hskip₃, hat₃⟩ := skipWhile_at isWhitespace (s := s)
      (Nat.lt_of_le_of_lt hle₂ hturns) hat₂.next
    rw [bind_ok hskip₃]
    change At input q₃ (skipWhitespace rest₂) at hat₃
    cases hrest₃ : skipWhitespace rest₂ with
    | nil =>
      rw [hrest₃] at hat₃
      rw [if_pos (Nat.le_of_eq hat₃.eq_end.symm)]
      exact .inl ⟨rfl, rfl⟩
    | cons c rest₃ =>
      rw [hrest₃] at hat₃
      rw [if_neg (Nat.not_le_of_lt hat₃.lt)]
      exact .inr ⟨key, c, rest₃, q₃, rfl, rfl, hkey, hat₃⟩

/-! ## Objects -/

/-- **The member loop is followed**, with turns and fuel for every byte. -/
theorem memberTurns_follows {program : ℕ → ℕ → ℕ → Checked σ ℕ}
    {value : Bytes → Bytes → τ → Option Bytes × τ} (hturns : input.length < turns)
    (hconsumes : Consumes value) (hvalue : FollowsValue R input program value) {left fuel : ℕ}
    (hleft : rest.length < left) (hfuel : rest.length < fuel) (hat : At input p rest)
    (hR : R s t) :
    Follows R input (memberTurns input turns program left p s) (objectLoop value fuel rest t) := by
  induction left generalizing fuel rest p s t with
  | zero => exact absurd hleft (Nat.not_lt_zero _)
  | succ left ih =>
    obtain ⟨fuel, rfl⟩ := Nat.exists_eq_add_of_lt (Nat.zero_lt_of_lt hfuel)
    have hle := length_le_of_at hat
    obtain ⟨p₁, hskip₁, hat₁⟩ := skipWhile_at isWhitespace (s := s)
      (Nat.lt_of_le_of_lt hle hturns) hat
    rw [memberTurns, bind_ok hskip₁, Nat.zero_add, objectLoop]
    change At input p₁ (skipWhitespace rest) at hat₁
    cases hrest₁ : skipWhitespace rest with
    | nil =>
      rw [hrest₁] at hat₁
      rw [bind_error (peek_nil hat₁)]
      exact .refused hR
    | cons b rest₁ =>
      rw [hrest₁] at hat₁
      rw [bind_ok (peek_cons hat₁)]
      dsimp only
      by_cases hclose : b = Ascii.closeBrace
      · rw [if_pos hclose, if_pos hclose]
        exact .done hat₁.next hR
      rw [if_neg hclose, if_neg hclose]
      by_cases hquote : b ≠ Ascii.quote
      · rw [if_pos hquote, if_pos hquote]
        exact .refused hR
      rw [if_neg hquote, if_neg hquote]
      rcases readMember_at (s := s) hturns hat₁.next with
        ⟨hnone, hread⟩ | ⟨key, c, rest₂, q₂, hmember, hread, hkey, hat₂⟩
      · rw [hnone, bind_error hread]
        exact .refused hR
      rw [hmember, bind_ok hread]
      dsimp only
      rcases (hvalue hkey hat₂ (List.cons_ne_nil _ _) hR).cases with
        ⟨q₃, s₃, rest₃, t₃, hprogram, hval, hat₃, hR₃⟩ | ⟨s₃, t₃, hprogram, hval, hR₃⟩
      swap
      · rw [hval, bind_error hprogram]
        exact .refused hR₃
      rw [hval, bind_ok hprogram]
      dsimp only
      have hle₃ := length_le_of_at hat₃
      obtain ⟨q₄, hskip₄, hat₄⟩ := skipWhile_at isWhitespace (s := s₃)
        (Nat.lt_of_le_of_lt hle₃ hturns) hat₃
      rw [bind_ok hskip₄]
      change At input q₄ (skipWhitespace rest₃) at hat₄
      cases hrest₄ : skipWhitespace rest₃ with
      | nil =>
        rw [hrest₄] at hat₄
        rw [bind_error (peek_nil hat₄)]
        exact .refused hR₃
      | cons d rest₄ =>
        rw [hrest₄] at hat₄
        rw [bind_ok (peek_cons hat₄)]
        dsimp only
        by_cases hcomma : d = Ascii.comma
        · rw [if_pos hcomma, if_pos hcomma]
          -- the loop goes on with less of the text
          have hquote' : skipWhitespace rest = Ascii.quote :: rest₁ := by
            rw [hrest₁, not_not.mp hquote]
          have hlt := length_lt_of_member hconsumes hquote' hmember hval
          have hle₄ : (skipWhitespace rest₃).length ≤ rest₃.length :=
            (skipWhitespace_suffix rest₃).length_le
          rw [hrest₄, List.length_cons] at hle₄
          exact ih (by omega) (by omega) hat₄.next hR₃
        rw [if_neg hcomma, if_neg hcomma]
        by_cases hend : d = Ascii.closeBrace
        · rw [if_pos hend, if_pos hend]
          exact .done hat₄.next hR₃
        · rw [if_neg hend, if_neg hend]
          exact .refused hR₃

/-- **An object is followed** where its values are. -/
theorem readObject_follows {program : ℕ → ℕ → ℕ → Checked σ ℕ}
    {value : Bytes → Bytes → τ → Option Bytes × τ} (hturns : input.length < turns)
    (hconsumes : Consumes value) (hvalue : FollowsValue R input program value)
    (hat : At input p rest) (hR : R s t) :
    Follows R input (readObject input turns program p s) (scanObject value rest t) :=
  memberTurns_follows hturns hconsumes hvalue
    (Nat.lt_of_le_of_lt (length_le_of_at hat) hturns) (Nat.lt_succ_self _) hat hR

end ObjectCursor

end SmartGateway
