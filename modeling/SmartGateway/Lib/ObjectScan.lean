import SmartGateway.Lib.TextArray
import Mathlib.Data.List.Chain
import Mathlib.Data.List.TakeWhile

/-!
# Scanning objects

The scanner for flat texts of the shape `{"key":value,...}`, over any state and
any rule for the values: white space, quoted strings with two-byte escapes kept
as they stand, and the loop over the members. The loop takes fuel; `ObjectRun`
says without fuel what its successful runs are, and the two agree. A string text
that a scan gives back whole is a stable one: no quote in it is bare, and no
backslash at its end is left open.
-/

namespace SmartGateway

namespace ObjectScan

/-- Space, tab, CR and LF. -/
def isWhitespace (b : Byte) : Bool := b == 32 || b == 9 || b == 13 || b == 10

/-- White space skipped. -/
def skipWhitespace (p : Bytes) : Bytes := p.dropWhile isWhitespace

/-- The text up to the closing quote, and what follows the quote. A backslash
takes the next byte with it. -/
def scanString : Bytes → Option (Bytes × Bytes)
  | [] => none
  | b :: rest =>
    if b = Ascii.quote then
      some ([], rest)
    else if b = Ascii.backslash then
      match rest with
      | [] => none
      | c :: rest => (scanString rest).map fun r => (b :: c :: r.1, r.2)
    else
      (scanString rest).map fun r => (b :: r.1, r.2)

/-- A text a scan runs through to its end and no further. -/
def Stable : Bytes → Prop
  | [] => True
  | b :: rest =>
    b ≠ Ascii.quote ∧
      if b = Ascii.backslash then
        match rest with
        | [] => False
        | _ :: rest => Stable rest
      else
        Stable rest

/-- The rest of a member's key, its colon, and the place of its value. -/
def scanMember (p : Bytes) : Option (Bytes × Bytes) :=
  match scanString p with
  | none => none
  | some (key, rest) =>
    match skipWhitespace rest with
    | [] => none
    | b :: rest =>
      if b ≠ Ascii.colon then
        none
      else
        match skipWhitespace rest with
        | [] => none
        | c :: rest => some (key, c :: rest)

variable {σ : Type*}

/-- The rule for a string value, behind its opening quote: what the text does to
the state, or a failure. -/
def stringValue (f : Bytes → σ → Option σ) (r : Bytes) (st : σ) : Option Bytes × σ :=
  match scanString r with
  | none => (none, st)
  | some (text, rest) =>
    match f text st with
    | none => (none, st)
    | some st => (some rest, st)

/-- The member loop, from behind an opening brace to behind the closing one. The
rule for a value gets the key, the place and the state, and gives the place behind
the value, or `none`, and the state it has left. -/
def objectLoop (value : Bytes → Bytes → σ → Option Bytes × σ) :
    ℕ → Bytes → σ → Option Bytes × σ
  | 0, _, st => (none, st)
  | fuel + 1, p, st =>
    match skipWhitespace p with
    | [] => (none, st)
    | b :: rest =>
      if b = Ascii.closeBrace then
        (some rest, st)
      else if b ≠ Ascii.quote then
        (none, st)
      else
        match scanMember rest with
        | none => (none, st)
        | some (key, p) =>
          match value key p st with
          | (none, st) => (none, st)
          | (some p, st) =>
            match skipWhitespace p with
            | [] => (none, st)
            | b :: rest =>
              if b = Ascii.comma then
                objectLoop value fuel rest st
              else if b = Ascii.closeBrace then
                (some rest, st)
              else
                (none, st)

/-- The loop with fuel for every byte. -/
def scanObject (value : Bytes → Bytes → σ → Option Bytes × σ) (p : Bytes) (st : σ) :
    Option Bytes × σ :=
  objectLoop value (p.length + 1) p st

/-- A successful run of the member loop. -/
inductive ObjectRun (value : Bytes → Bytes → σ → Option Bytes × σ) :
    Bytes → σ → Bytes → σ → Prop
  | close {p rest st} (hp : skipWhitespace p = Ascii.closeBrace :: rest) :
    ObjectRun value p st rest st
  | last {p k key q q' rest st st'} (hp : skipWhitespace p = Ascii.quote :: k)
    (hk : scanMember k = some (key, q)) (hv : value key q st = (some q', st'))
    (hq : skipWhitespace q' = Ascii.closeBrace :: rest) : ObjectRun value p st rest st'
  | cons {p k key q q' p' rest st st' st''} (hp : skipWhitespace p = Ascii.quote :: k)
    (hk : scanMember k = some (key, q)) (hv : value key q st = (some q', st'))
    (hq : skipWhitespace q' = Ascii.comma :: p') (hrun : ObjectRun value p' st' rest st'') :
    ObjectRun value p st rest st''

/-- A rule for values that never gives bytes back. -/
def Consumes (value : Bytes → Bytes → σ → Option Bytes × σ) : Prop :=
  ∀ ⦃key p st rest st'⦄, value key p st = (some rest, st') → rest <:+ p

/-! ## White space and strings -/

theorem skipWhitespace_suffix (p : Bytes) : skipWhitespace p <:+ p := List.dropWhile_suffix _

/-- A byte that is no white space stops the skipping. -/
@[simp] theorem skipWhitespace_cons {b : Byte} (h : isWhitespace b = false) (p : Bytes) :
    skipWhitespace (b :: p) = b :: p := by
  simp [skipWhitespace, h]

@[simp] theorem scanString_quote (rest : Bytes) :
    scanString (Ascii.quote :: rest) = some ([], rest) := by
  rw [scanString.eq_def]
  exact if_pos rfl

@[simp] theorem scanString_backslash (c : Byte) (rest : Bytes) :
    scanString (Ascii.backslash :: c :: rest) =
      (scanString rest).map fun r => (Ascii.backslash :: c :: r.1, r.2) := by
  simp [scanString]

theorem scanString_cons {b : Byte} (hq : b ≠ Ascii.quote) (hb : b ≠ Ascii.backslash)
    (rest : Bytes) :
    scanString (b :: rest) = (scanString rest).map fun r => (b :: r.1, r.2) := by
  rw [scanString.eq_def]
  exact (if_neg hq).trans (if_neg hb)

@[simp] theorem stable_nil : Stable [] := trivial

@[simp] theorem not_stable_quote (rest : Bytes) : ¬ Stable (Ascii.quote :: rest) := by
  rw [Stable.eq_def]
  exact fun h => h.1 rfl

@[simp] theorem not_stable_backslash : ¬ Stable [Ascii.backslash] := by
  simp [Stable]

@[simp] theorem stable_backslash_iff (c : Byte) (rest : Bytes) :
    Stable (Ascii.backslash :: c :: rest) ↔ Stable rest := by
  simp [Stable]

theorem stable_cons_iff {b : Byte} (hq : b ≠ Ascii.quote) (hb : b ≠ Ascii.backslash)
    (rest : Bytes) : Stable (b :: rest) ↔ Stable rest := by
  rw [Stable.eq_def]
  simp only [if_neg hb]
  exact and_iff_right hq

/-- **What a scan gives** is the text before the closing quote, and that text is stable. -/
theorem scanString_eq_some_iff {p text rest : Bytes} :
    scanString p = some (text, rest) ↔ p = text ++ Ascii.quote :: rest ∧ Stable text := by
  induction p using scanString.induct generalizing text with
  | case1 => simp [scanString]
  -- the closing quote
  | case2 p =>
    rw [scanString_quote, Option.some.injEq, Prod.mk.injEq]
    constructor
    · rintro ⟨rfl, rfl⟩
      exact ⟨rfl, stable_nil⟩
    · rintro ⟨hp, hstable⟩
      cases text with
      | nil => exact ⟨rfl, (List.cons.inj hp).2⟩
      | cons b text =>
        rw [← (List.cons.inj hp).1] at hstable
        exact absurd hstable (not_stable_quote text)
  | case3 =>
    constructor
    · intro h
      exact absurd h (by simp [scanString])
    · rintro ⟨hp, -⟩
      cases text with
      | nil => exact absurd (List.cons.inj hp).1 (by decide)
      | cons b text => exact absurd (List.cons.inj hp).2 (by simp)
  -- a backslash goes with the byte behind it, whatever that is
  | case4 c p _ ih =>
    rw [scanString_backslash, Option.map_eq_some_iff]
    constructor
    · rintro ⟨⟨text', rest'⟩, hscan, heq⟩
      obtain ⟨rfl, rfl⟩ := Prod.mk.inj heq
      obtain ⟨rfl, hstable⟩ := ih.mp hscan
      exact ⟨rfl, (stable_backslash_iff c text').mpr hstable⟩
    · rintro ⟨hp, hstable⟩
      cases text with
      | nil => exact absurd (List.cons.inj hp).1 (by decide)
      | cons b text =>
        obtain ⟨rfl, htail⟩ := List.cons.inj hp
        cases text with
        | nil => exact absurd hstable not_stable_backslash
        | cons c' text =>
          obtain ⟨rfl, rfl⟩ := List.cons.inj htail
          exact ⟨(text, rest), ih.mpr ⟨rfl, (stable_backslash_iff c text).mp hstable⟩, rfl⟩
  | case5 b p hq hb ih =>
    rw [scanString_cons hq hb, Option.map_eq_some_iff]
    constructor
    · rintro ⟨⟨text', rest'⟩, hscan, heq⟩
      obtain ⟨rfl, rfl⟩ := Prod.mk.inj heq
      obtain ⟨rfl, hstable⟩ := ih.mp hscan
      exact ⟨rfl, (stable_cons_iff hq hb text').mpr hstable⟩
    · rintro ⟨hp, hstable⟩
      cases text with
      | nil => exact absurd (List.cons.inj hp).1 hq
      | cons b' text =>
        obtain ⟨rfl, rfl⟩ := List.cons.inj hp
        exact ⟨(text, rest), ih.mpr ⟨rfl, (stable_cons_iff hq hb text).mp hstable⟩, rfl⟩

/-- Whether a text is stable is seen by scanning it. -/
instance (text : Bytes) : Decidable (Stable text) :=
  decidable_of_iff (scanString (text ++ [Ascii.quote]) = some (text, []))
    (scanString_eq_some_iff.trans (and_iff_right rfl))

theorem scanString_suffix {p text rest : Bytes} (h : scanString p = some (text, rest)) :
    rest <:+ p := by
  rw [(scanString_eq_some_iff.mp h).1]
  exact (List.suffix_cons _ rest).trans (List.suffix_append text _)

/-- A text with neither quote nor backslash is stable. -/
theorem stable_of_not_mem {text : Bytes} (hq : Ascii.quote ∉ text) (hb : Ascii.backslash ∉ text) :
    Stable text := by
  induction text with
  | nil => exact stable_nil
  | cons b text ih =>
    rw [List.mem_cons, not_or] at hq hb
    exact (stable_cons_iff (Ne.symm hq.1) (Ne.symm hb.1) text).mpr (ih hq.2 hb.2)

/-- **How a text fails to be stable**: a bare quote ends it early, or its last
backslash takes what comes next. -/
theorem not_stable_cases {text : Bytes} (h : ¬ Stable text) :
    (∃ u t, text = u ++ Ascii.quote :: t ∧ Stable u) ∨
      ∃ u, text = u ++ [Ascii.backslash] ∧ Stable u := by
  induction text using scanString.induct with
  | case1 => exact absurd stable_nil h
  | case2 t => exact Or.inl ⟨[], t, rfl, stable_nil⟩
  | case3 => exact Or.inr ⟨[], rfl, stable_nil⟩
  | case4 c t _ ih =>
    rw [stable_backslash_iff] at h
    rcases ih h with ⟨u, t', rfl, hu⟩ | ⟨u, rfl, hu⟩
    · exact Or.inl ⟨Ascii.backslash :: c :: u, t', rfl, (stable_backslash_iff c u).mpr hu⟩
    · exact Or.inr ⟨Ascii.backslash :: c :: u, rfl, (stable_backslash_iff c u).mpr hu⟩
  | case5 b t hq hb ih =>
    rw [stable_cons_iff hq hb] at h
    rcases ih h with ⟨u, t', rfl, hu⟩ | ⟨u, rfl, hu⟩
    · exact Or.inl ⟨b :: u, t', rfl, (stable_cons_iff hq hb u).mpr hu⟩
    · exact Or.inr ⟨b :: u, rfl, (stable_cons_iff hq hb u).mpr hu⟩

/-- A stable text, then the rest of the scan. -/
theorem scanString_append {u : Bytes} (h : Stable u) (p : Bytes) :
    scanString (u ++ p) = (scanString p).map fun r => (u ++ r.1, r.2) := by
  induction u using scanString.induct with
  | case1 => simp
  | case2 t => exact absurd h (not_stable_quote t)
  | case3 => exact absurd h not_stable_backslash
  | case4 c t _ ih =>
    have ih := ih ((stable_backslash_iff c t).mp h)
    rw [List.cons_append, List.cons_append, scanString_backslash, ih, Option.map_map]
    rfl
  | case5 b t hq hb ih =>
    have ih := ih ((stable_cons_iff hq hb t).mp h)
    rw [List.cons_append, scanString_cons hq hb, ih, Option.map_map]
    rfl

/-- The scan of a text that ends in a backslash runs over the quote behind it. -/
theorem scanString_open {u : Bytes} (h : Stable u) (c : Byte) (p : Bytes) :
    scanString (u ++ Ascii.backslash :: c :: p) =
      (scanString p).map fun r => (u ++ Ascii.backslash :: c :: r.1, r.2) := by
  rw [scanString_append h, scanString_backslash, Option.map_map]
  rfl

theorem stringValue_eq_some_iff {σ : Type*} {f : Bytes → σ → Option σ} {r rest : Bytes}
    {st st' : σ} :
    stringValue f r st = (some rest, st') ↔
      ∃ text, scanString r = some (text, rest) ∧ f text st = some st' := by
  rw [stringValue]
  cases scanString r with
  | none => simp
  | some s =>
    obtain ⟨text, q⟩ := s
    cases hf : f text st with
    | none =>
      simp only [hf, Prod.mk.injEq, reduceCtorEq, false_and, false_iff, not_exists, not_and,
        Option.some.injEq]
      rintro t ⟨rfl, -⟩ h
      rw [hf] at h
      exact absurd h (by simp)
    | some st₁ =>
      simp only [hf, Prod.mk.injEq, Option.some.injEq]
      constructor
      · rintro ⟨rfl, rfl⟩
        exact ⟨text, ⟨rfl, rfl⟩, hf⟩
      · rintro ⟨t, ⟨rfl, rfl⟩, h⟩
        rw [hf] at h
        exact ⟨rfl, Option.some.inj h⟩

/-- A stable text, as it is written. -/
theorem stringValue_written {σ : Type*} {f : Bytes → σ → Option σ} {text : Bytes}
    (htext : Stable text) {st st' : σ} (hf : f text st = some st') (p : Bytes) :
    stringValue f (text ++ Ascii.quote :: p) st = (some p, st') :=
  stringValue_eq_some_iff.mpr ⟨text, scanString_eq_some_iff.mpr ⟨rfl, htext⟩, hf⟩

/-! ## Commas -/

/-- Every comma behind the first byte comes right after a quote. -/
def CommasQuoted (p : Bytes) : Prop :=
  p.IsChain fun a b => b = Ascii.comma → a = Ascii.quote

theorem commasQuoted_cons_cons {a b : Byte} {p : Bytes} :
    CommasQuoted (a :: b :: p) ↔ (b = Ascii.comma → a = Ascii.quote) ∧ CommasQuoted (b :: p) :=
  List.isChain_cons_cons

theorem commasQuoted_of_not_mem {t : Bytes} (h : Ascii.comma ∉ t) : CommasQuoted t := by
  induction t with
  | nil => exact .nil
  | cons a t ih =>
    rw [List.mem_cons, not_or] at h
    refine List.IsChain.cons (ih h.2) fun b hb hcomma => ?_
    subst hcomma
    exact absurd (List.mem_of_mem_head? hb) h.2

/-- A text without commas changes nothing before a byte that is none. -/
theorem CommasQuoted.append {t : Bytes} (h : Ascii.comma ∉ t) {b : Byte} (hb : b ≠ Ascii.comma)
    {p : Bytes} (hp : CommasQuoted (b :: p)) : CommasQuoted (t ++ b :: p) := by
  refine List.IsChain.append (commasQuoted_of_not_mem h) hp fun x _ y hy hcomma => ?_
  rw [List.head?_cons, Option.mem_some_iff] at hy
  rw [← hy] at hcomma
  exact absurd hcomma hb

/-- Behind a closing brace of such a text there is no comma next. -/
theorem CommasQuoted.not_comma {w rest p' : Bytes}
    (h : CommasQuoted (w ++ Ascii.closeBrace :: rest)) :
    skipWhitespace rest ≠ Ascii.comma :: p' := by
  intro hskip
  obtain ⟨ws, hws⟩ := skipWhitespace_suffix rest
  rw [hskip] at hws
  have hspace : ∀ b ∈ ws, isWhitespace b = true := by
    intro b hb
    have hlen : ws = rest.takeWhile isWhitespace := by
      have h := List.takeWhile_append_dropWhile (p := isWhitespace) (l := rest)
      rw [show rest.dropWhile isWhitespace = Ascii.comma :: p' from hskip] at h
      exact List.append_cancel_right (hws.trans h.symm)
    rw [hlen] at hb
    exact List.mem_takeWhile_imp hb
  -- the byte before that comma is a quote, but it is white space or the brace
  rw [← hws] at h
  rcases List.eq_nil_or_concat ws with rfl | ⟨ws', b, rfl⟩
  · exact absurd ((List.isChain_append_cons_cons.mp h).2.1 rfl) (by decide)
  · rw [List.concat_eq_append, List.append_assoc, List.singleton_append, ← List.cons_append,
      ← List.append_assoc] at h
    have hb := hspace b (by simp)
    rw [(List.isChain_append_cons_cons.mp h).2.1 rfl] at hb
    exact absurd hb (by decide)

/-! ## Members and runs -/

/-- A key as it is written, its colon, and the value behind. -/
theorem scanMember_written {key : Bytes} (hkey : Stable key) {b : Byte}
    (hb : isWhitespace b = false) (p : Bytes) :
    scanMember (key ++ Ascii.quote :: Ascii.colon :: b :: p) = some (key, b :: p) := by
  have hscan : scanString (key ++ Ascii.quote :: Ascii.colon :: b :: p) =
      some (key, Ascii.colon :: b :: p) := scanString_eq_some_iff.mpr ⟨rfl, hkey⟩
  rw [scanMember, hscan]
  simp only [skipWhitespace_cons (show isWhitespace Ascii.colon = false by decide),
    skipWhitespace_cons hb, ne_eq, not_true_eq_false, if_false]

/-- What a member scan has read. -/
theorem scanMember_eq_some {p key q : Bytes} (h : scanMember p = some (key, q)) :
    ∃ rest, scanString p = some (key, rest) ∧ q <:+ rest ∧ q ≠ [] := by
  unfold scanMember at h
  split at h
  · exact absurd h (by simp)
  rename_i key' rest hscan
  split at h
  · exact absurd h (by simp)
  rename_i b rest' hcolon
  split_ifs at h
  split at h
  · exact absurd h (by simp)
  rename_i c rest'' hvalue
  obtain ⟨rfl, rfl⟩ := Prod.mk.inj (Option.some.inj h)
  refine ⟨rest, hscan, ?_, by simp⟩
  rw [← hvalue]
  refine (skipWhitespace_suffix rest').trans ?_
  refine (List.suffix_cons b rest').trans ?_
  rw [← hcolon]
  exact skipWhitespace_suffix rest

variable {value : Bytes → Bytes → σ → Option Bytes × σ}

/-- One turn of the loop, when the whole succeeds. -/
theorem objectLoop_succ_eq_some_iff {fuel : ℕ} {p rest : Bytes} {st st' : σ} :
    objectLoop value (fuel + 1) p st = (some rest, st') ↔
      (skipWhitespace p = Ascii.closeBrace :: rest ∧ st = st') ∨
      ∃ k key q q' st₁, skipWhitespace p = Ascii.quote :: k ∧ scanMember k = some (key, q) ∧
        value key q st = (some q', st₁) ∧
        ((skipWhitespace q' = Ascii.closeBrace :: rest ∧ st₁ = st') ∨
          ∃ p', skipWhitespace q' = Ascii.comma :: p' ∧
            objectLoop value fuel p' st₁ = (some rest, st')) := by
  have hne : Ascii.quote ≠ Ascii.closeBrace := by decide
  rw [objectLoop]
  cases hp : skipWhitespace p with
  | nil => simp
  | cons b k =>
    by_cases hclose : b = Ascii.closeBrace
    · subst hclose
      simp [hne.symm]
    by_cases hquote : b = Ascii.quote
    swap
    · simp [hclose, hquote]
    subst hquote
    simp only [ne_eq, not_true_eq_false, if_false, List.cons.injEq, true_and,
      hne, false_and, false_or]
    cases hk : scanMember k with
    | none => simp [hk]
    | some r =>
      obtain ⟨key, q⟩ := r
      simp only [exists_and_left]
      cases hv : value key q st with
      | mk out st₁ =>
        cases out with
        | none => simp [hk, hv]
        | some q' =>
          simp only
          -- behind the value: a comma and the rest of the loop, or the closing brace
          constructor
          · intro h
            refine ⟨k, rfl, key, q, hk, q', st₁, hv, ?_⟩
            split at h
            · exact absurd h (by simp)
            rename_i c p' hq
            split_ifs at h with hcomma hbrace
            · subst hcomma
              exact Or.inr ⟨p', hq, h⟩
            · subst hbrace
              simp only [Prod.mk.injEq, Option.some.injEq] at h
              exact Or.inl ⟨by rw [hq, h.1], h.2⟩
            · exact absurd h (by simp)
          · rintro ⟨k', rfl, key', q₂, hk', q₂', st₂, hv', h⟩
            rw [hk] at hk'
            cases hk'
            rw [hv] at hv'
            cases hv'
            rcases h with ⟨hq, rfl⟩ | ⟨p', hq, h⟩
            · simp [hq]
            · simpa [hq] using h

/-- A loop that succeeds has run. -/
theorem objectRun_of_objectLoop {fuel : ℕ} {p rest : Bytes} {st st' : σ}
    (h : objectLoop value fuel p st = (some rest, st')) : ObjectRun value p st rest st' := by
  induction fuel generalizing p st with
  | zero => exact absurd h (by simp [objectLoop])
  | succ fuel ih =>
    rcases objectLoop_succ_eq_some_iff.mp h with ⟨hp, rfl⟩ |
      ⟨k, key, q, q', st₁, hp, hk, hv, ⟨hq, rfl⟩ | ⟨p', hq, hloop⟩⟩
    · exact .close hp
    · exact .last hp hk hv hq
    · exact .cons hp hk hv hq (ih hloop)

/-- What a member has read lies behind its key. -/
theorem length_lt_of_member (hvalue : Consumes value) {p k key q q' : Bytes} {st st' : σ}
    (hp : skipWhitespace p = Ascii.quote :: k) (hk : scanMember k = some (key, q))
    (hv : value key q st = (some q', st')) : q'.length < p.length := by
  obtain ⟨rest, hscan, hsuffix, -⟩ := scanMember_eq_some hk
  have h1 : q'.length ≤ q.length := (hvalue hv).length_le
  have h2 : q.length ≤ rest.length := hsuffix.length_le
  have h3 : rest.length < k.length := by
    rw [(scanString_eq_some_iff.mp hscan).1, List.length_append, List.length_cons]
    omega
  have h4 : (skipWhitespace p).length ≤ p.length := (skipWhitespace_suffix p).length_le
  rw [hp, List.length_cons] at h4
  omega

/-- And a run is what the loop finds with enough fuel. -/
theorem objectLoop_of_objectRun (hvalue : Consumes value) {p rest : Bytes} {st st' : σ}
    (h : ObjectRun value p st rest st') {fuel : ℕ} (hfuel : p.length < fuel) :
    objectLoop value fuel p st = (some rest, st') := by
  induction h generalizing fuel with
  | close hp =>
    cases fuel with
    | zero => omega
    | succ fuel => exact objectLoop_succ_eq_some_iff.mpr (Or.inl ⟨hp, rfl⟩)
  | last hp hk hv hq =>
    cases fuel with
    | zero => omega
    | succ fuel =>
      exact objectLoop_succ_eq_some_iff.mpr
        (Or.inr ⟨_, _, _, _, _, hp, hk, hv, Or.inl ⟨hq, rfl⟩⟩)
  | @cons p k key q q' p' rest st st₁ st₂ hp hk hv hq hrun ih =>
    cases fuel with
    | zero => omega
    | succ fuel =>
      have hlt := length_lt_of_member hvalue hp hk hv
      have hle : (skipWhitespace q').length ≤ q'.length := (skipWhitespace_suffix q').length_le
      rw [hq, List.length_cons] at hle
      exact objectLoop_succ_eq_some_iff.mpr
        (Or.inr ⟨_, _, _, _, _, hp, hk, hv, Or.inr ⟨_, hq, ih (by omega)⟩⟩)

/-- **The loop succeeds exactly on its runs**: the fuel is always enough. -/
theorem scanObject_eq_some_iff (hvalue : Consumes value) {p rest : Bytes} {st st' : σ} :
    scanObject value p st = (some rest, st') ↔ ObjectRun value p st rest st' :=
  ⟨objectRun_of_objectLoop, fun h => objectLoop_of_objectRun hvalue h (Nat.lt_succ_self _)⟩

/-- **A run carries** whatever each value carries. -/
theorem ObjectRun.rel {R : σ → σ → Prop} (hrefl : ∀ st, R st st)
    (htrans : ∀ {a b c}, R a b → R b c → R a c)
    (hstep : ∀ {key q st rest st'}, value key q st = (some rest, st') → R st st')
    {p rest : Bytes} {st st' : σ} (h : ObjectRun value p st rest st') : R st st' := by
  induction h with
  | close => exact hrefl _
  | last _ _ hv _ => exact hstep hv
  | cons _ _ hv _ _ ih => exact htrans (hstep hv) ih

/-- A rule that succeeds wherever another does, the same way, has its runs. -/
theorem ObjectRun.mono {value' : Bytes → Bytes → σ → Option Bytes × σ}
    (hle : ∀ {key p st q st'}, value key p st = (some q, st') → value' key p st = (some q, st'))
    {p rest : Bytes} {st st' : σ} (h : ObjectRun value p st rest st') :
    ObjectRun value' p st rest st' := by
  induction h with
  | close hp => exact .close hp
  | last hp hk hv hq => exact .last hp hk (hle hv) hq
  | cons hp hk hv hq _ ih => exact .cons hp hk (hle hv) hq ih

/-- A member's value stands behind its key. -/
theorem scanMember_suffix {k key q : Bytes} (h : scanMember k = some (key, q)) : q <:+ k := by
  obtain ⟨rest, hscan, hq, -⟩ := scanMember_eq_some h
  exact hq.trans (scanString_suffix hscan)

/-- **A run keeps** whatever each value keeps that is read out of the run's text, behind its
key. -/
theorem ObjectRun.keeps (hvalue : Consumes value) {I : σ → Prop} {text : Bytes}
    (hstep : ∀ {k key q st rest st'}, k <:+ text → scanMember k = some (key, q) →
      value key q st = (some rest, st') → I st → I st')
    {p rest : Bytes} {st st' : σ} (h : ObjectRun value p st rest st') (hp : p <:+ text)
    (hst : I st) : I st' := by
  have hplace : ∀ {p k : Bytes}, p <:+ text → skipWhitespace p = Ascii.quote :: k →
      k <:+ text := by
    intro p k hp hskip
    have hkp : Ascii.quote :: k <:+ p := by
      rw [← hskip]
      exact skipWhitespace_suffix p
    exact (List.suffix_cons _ k).trans (hkp.trans hp)
  induction h with
  | close => exact hst
  | last hskip hk hv _ => exact hstep (hplace hp hskip) hk hv hst
  | @cons p k key q q' p' rest st st₁ st₂ hskip hk hv hnext _ ih =>
    have hplaced := hplace hp hskip
    have hp' : Ascii.comma :: p' <:+ q' := by
      rw [← hnext]
      exact skipWhitespace_suffix q'
    have hq : q' <:+ text := (hvalue hv).trans ((scanMember_suffix hk).trans hplaced)
    exact ih ((List.suffix_cons _ p').trans (hp'.trans hq)) (hstep hplaced hk hv hst)

/-- A run ends right behind a closing brace of the text. -/
theorem ObjectRun.exists_closeBrace (hvalue : Consumes value) {p rest : Bytes} {st st' : σ}
    (h : ObjectRun value p st rest st') : ∃ w, p = w ++ Ascii.closeBrace :: rest := by
  have hskip : ∀ {p q : Bytes}, skipWhitespace p = q → ∃ w, p = w ++ q := by
    intro p q h
    obtain ⟨w, hw⟩ := skipWhitespace_suffix p
    exact ⟨w, by rw [← h, hw]⟩
  have hmember : ∀ {p k key q q' : Bytes} {st st' : σ}, skipWhitespace p = Ascii.quote :: k →
      scanMember k = some (key, q) → value key q st = (some q', st') → ∃ w, p = w ++ q' := by
    intro p k key q q' st st' hp hk hv
    obtain ⟨w₁, rfl⟩ := hskip hp
    obtain ⟨r, hscan, ⟨w₂, rfl⟩, -⟩ := scanMember_eq_some hk
    obtain ⟨w₃, rfl⟩ := hvalue hv
    obtain ⟨rfl, -⟩ := scanString_eq_some_iff.mp hscan
    exact ⟨w₁ ++ Ascii.quote :: (key ++ Ascii.quote :: (w₂ ++ w₃)), by simp⟩
  induction h with
  | close hp => exact hskip hp
  | last hp hk hv hq =>
    obtain ⟨w₁, rfl⟩ := hmember hp hk hv
    obtain ⟨w₂, rfl⟩ := hskip hq
    exact ⟨w₁ ++ w₂, by simp⟩
  | cons hp hk hv hq _ ih =>
    obtain ⟨w₁, rfl⟩ := hmember hp hk hv
    obtain ⟨w₂, rfl⟩ := hskip hq
    obtain ⟨w₃, rfl⟩ := ih
    exact ⟨w₁ ++ w₂ ++ Ascii.comma :: w₃, by simp⟩

/-- A member as it is written, and the brace behind its value. -/
theorem ObjectRun.written_last {key : Bytes} (hkey : Stable key) {b : Byte}
    (hb : isWhitespace b = false) {p rest : Bytes} {st st' : σ}
    (hv : value key (b :: p) st = (some (Ascii.closeBrace :: rest), st')) :
    ObjectRun value (Ascii.quote :: (key ++ Ascii.quote :: Ascii.colon :: b :: p)) st rest st' :=
  .last (skipWhitespace_cons (by decide) _) (scanMember_written hkey hb p) hv
    (skipWhitespace_cons (by decide) rest)

/-- A member as it is written, the comma behind its value, and the members behind that. -/
theorem ObjectRun.written_cons {key : Bytes} (hkey : Stable key) {b : Byte}
    (hb : isWhitespace b = false) {p p' rest : Bytes} {st st' st'' : σ}
    (hv : value key (b :: p) st = (some (Ascii.comma :: p'), st'))
    (hrun : ObjectRun value p' st' rest st'') :
    ObjectRun value (Ascii.quote :: (key ++ Ascii.quote :: Ascii.colon :: b :: p)) st rest st'' :=
  .cons (skipWhitespace_cons (by decide) _) (scanMember_written hkey hb p) hv
    (skipWhitespace_cons (by decide) p') hrun

/-- A run of a text that starts with a member reads that member first. -/
theorem objectRun_member_iff {p k key q rest : Bytes} {st st'' : σ}
    (hp : skipWhitespace p = Ascii.quote :: k) (hk : scanMember k = some (key, q)) :
    ObjectRun value p st rest st'' ↔ ∃ q' st', value key q st = (some q', st') ∧
      ((skipWhitespace q' = Ascii.closeBrace :: rest ∧ st' = st'') ∨
        ∃ p', skipWhitespace q' = Ascii.comma :: p' ∧ ObjectRun value p' st' rest st'') := by
  constructor
  · intro h
    cases h with
    | close hclose =>
      rw [hp] at hclose
      exact absurd (List.cons.inj hclose).1 (by decide)
    | last hp' hk' hv hq =>
      rw [hp] at hp'
      obtain ⟨-, rfl⟩ := List.cons.inj hp'
      rw [hk] at hk'
      cases hk'
      exact ⟨_, _, hv, Or.inl ⟨hq, rfl⟩⟩
    | cons hp' hk' hv hq hrun =>
      rw [hp] at hp'
      obtain ⟨-, rfl⟩ := List.cons.inj hp'
      rw [hk] at hk'
      cases hk'
      exact ⟨_, _, hv, Or.inr ⟨_, hq, hrun⟩⟩
  · rintro ⟨q', st', hv, ⟨hq, rfl⟩ | ⟨p', hq, hrun⟩⟩
    · exact .last hp hk hv hq
    · exact .cons hp hk hv hq hrun

/-- The same where the member is as it is written. -/
theorem ObjectRun.of_written {key : Bytes} (hkey : Stable key) {b : Byte}
    (hb : isWhitespace b = false) {p rest : Bytes} {st st'' : σ}
    (h : ObjectRun value (Ascii.quote :: (key ++ Ascii.quote :: Ascii.colon :: b :: p)) st rest
      st'') :
    ∃ q st', value key (b :: p) st = (some q, st') ∧
      ((skipWhitespace q = Ascii.closeBrace :: rest ∧ st' = st'') ∨
        ∃ p', skipWhitespace q = Ascii.comma :: p' ∧ ObjectRun value p' st' rest st'') :=
  (objectRun_member_iff (skipWhitespace_cons (by decide) _) (scanMember_written hkey hb p)).mp h

/-- What comes next behind a bare quote of a comma-free text is no comma. -/
theorem skipWhitespace_ne_comma {t : Bytes} (ht : Ascii.comma ∉ t) (p p' : Bytes) :
    skipWhitespace (t ++ Ascii.quote :: p) ≠ Ascii.comma :: p' := by
  induction t with
  | nil =>
    rw [List.nil_append, skipWhitespace_cons (by decide)]
    exact fun h => absurd (List.cons.inj h).1 (by decide)
  | cons b t ih =>
    rw [List.mem_cons, not_or] at ht
    by_cases hb : isWhitespace b = true
    · rw [List.cons_append, skipWhitespace, List.dropWhile_cons_of_pos hb]
      exact ih ht.2
    · rw [List.cons_append, skipWhitespace_cons (by simpa using hb)]
      exact fun h => ht.1 (List.cons.inj h).1.symm

section StringMember

variable {key text : Bytes} {f : Bytes → σ → Option σ} {rest : Bytes} {st st' st'' : σ}

/-- A string member as it is written, and the members behind it. -/
theorem ObjectRun.written_string (hkey : Stable key) (htext : Stable text)
    (hvalue : ∀ r, value key (Ascii.quote :: r) st = stringValue f r st)
    (hf : f text st = some st') {p : Bytes} (hrun : ObjectRun value p st' rest st'') :
    ObjectRun value (Ascii.quote :: (key ++ Ascii.quote :: Ascii.colon :: Ascii.quote ::
      (text ++ Ascii.quote :: Ascii.comma :: p))) st rest st'' := by
  refine .written_cons hkey (by decide) ?_ hrun
  rw [hvalue]
  exact stringValue_written htext hf _

/-- **A comma-free string member in the middle of an accepted object** was read
as it was written, or the object was closed inside it. -/
theorem ObjectRun.of_written_string (hkey : Stable key) (hcomma : Ascii.comma ∉ text)
    (hvalue : ∀ r, value key (Ascii.quote :: r) st = stringValue f r st) {c : Byte}
    (hspace : isWhitespace c = false) (hc : c ≠ Ascii.comma) {p : Bytes}
    (h : ObjectRun value (Ascii.quote :: (key ++ Ascii.quote :: Ascii.colon :: Ascii.quote ::
      (text ++ Ascii.quote :: Ascii.comma :: Ascii.quote :: c :: p))) st rest st'') :
    (Stable text ∧ ∃ st', f text st = some st' ∧
      ObjectRun value (Ascii.quote :: c :: p) st' rest st'') ∨ ∃ u, f u st = some st'' := by
  obtain ⟨q, st', hv, hnext⟩ := h.of_written hkey (by decide)
  rw [hvalue] at hv
  obtain ⟨u, hscan, hf⟩ := stringValue_eq_some_iff.mp hv
  rcases hnext with ⟨-, rfl⟩ | ⟨p', hq, hrun⟩
  · exact Or.inr ⟨u, hf⟩
  by_cases htext : Stable text
  · rw [scanString_eq_some_iff.mpr ⟨rfl, htext⟩] at hscan
    obtain ⟨rfl, rfl⟩ := Prod.mk.inj (Option.some.inj hscan)
    rw [skipWhitespace_cons (by decide)] at hq
    obtain ⟨-, rfl⟩ := List.cons.inj hq
    exact Or.inl ⟨htext, st', hf, hrun⟩
  · exfalso
    rcases not_stable_cases htext with ⟨w, t, rfl, hw⟩ | ⟨w, rfl, hw⟩
    · -- a bare quote: the text behind it would have to start with a comma
      rw [List.append_assoc, List.cons_append, scanString_eq_some_iff.mpr ⟨rfl, hw⟩] at hscan
      obtain ⟨-, rfl⟩ := Prod.mk.inj (Option.some.inj hscan)
      rw [List.mem_append, List.mem_cons, not_or, not_or] at hcomma
      exact skipWhitespace_ne_comma hcomma.2.2 _ _ hq
    · -- an open backslash: the string runs up to the quote of the next key
      rw [List.append_assoc, List.singleton_append, scanString_open hw,
        scanString_cons (by decide) (by decide), scanString_quote] at hscan
      obtain ⟨-, rfl⟩ := Prod.mk.inj (Option.some.inj hscan)
      rw [skipWhitespace_cons hspace] at hq
      exact hc (List.cons.inj hq).1

/-- **A comma-free string member at the end of an accepted object** is the last
one read, however much of it was. -/
theorem ObjectRun.of_written_string_last (hkey : Stable key) (hcomma : Ascii.comma ∉ text)
    (hvalue : ∀ r, value key (Ascii.quote :: r) st = stringValue f r st) {c : Byte}
    (hspace : isWhitespace c = false) (hc : c ≠ Ascii.comma) {p : Bytes}
    (hp : scanString (c :: p) = none)
    (h : ObjectRun value (Ascii.quote :: (key ++ Ascii.quote :: Ascii.colon :: Ascii.quote ::
      (text ++ Ascii.quote :: c :: p))) st rest st'') :
    ∃ u q, scanString (text ++ Ascii.quote :: c :: p) = some (u, q) ∧ f u st = some st'' := by
  obtain ⟨q, st', hv, hnext⟩ := h.of_written hkey (by decide)
  rw [hvalue] at hv
  obtain ⟨u, hscan, hf⟩ := stringValue_eq_some_iff.mp hv
  rcases hnext with ⟨-, rfl⟩ | ⟨p', hq, -⟩
  · exact ⟨u, q, hscan, hf⟩
  exfalso
  by_cases htext : Stable text
  · rw [scanString_eq_some_iff.mpr ⟨rfl, htext⟩] at hscan
    obtain ⟨-, rfl⟩ := Prod.mk.inj (Option.some.inj hscan)
    rw [skipWhitespace_cons hspace] at hq
    exact hc (List.cons.inj hq).1
  · rcases not_stable_cases htext with ⟨w, t, rfl, hw⟩ | ⟨w, rfl, hw⟩
    · rw [List.append_assoc, List.cons_append, scanString_eq_some_iff.mpr ⟨rfl, hw⟩] at hscan
      obtain ⟨-, rfl⟩ := Prod.mk.inj (Option.some.inj hscan)
      rw [List.mem_append, List.mem_cons, not_or, not_or] at hcomma
      exact skipWhitespace_ne_comma hcomma.2.2 _ _ hq
    · rw [List.append_assoc, List.singleton_append, scanString_open hw, hp] at hscan
      exact absurd hscan (by simp)

end StringMember

end ObjectScan

end SmartGateway
