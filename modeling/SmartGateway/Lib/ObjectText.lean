import SmartGateway.Lib.ObjectLockstep
import Mathlib.Data.List.Perm.Basic

/-!
# Objects as they are written

The texts the scanner takes, taken apart: the members in order, each with the white space
around its key, its colon and its value, and what stands before the closing brace. A rule
for values that reads back what is rendered, and does one step with it, has a run on a
text exactly if the steps of its members go through one after the other; and every text
with a run is such a text. So what a text comes to is read off the list of its members:
a member whose step does nothing can be put in anywhere, and members whose steps commute
can change places.
-/

namespace SmartGateway

namespace ObjectScan

/-- White space. -/
abbrev White := { ws : Bytes // ∀ b ∈ ws, isWhitespace b = true }

def noWhite : White := ⟨[], nofun⟩

/-- The text of a key or of a string value. -/
abbrev StableText := { text : Bytes // Stable text }

/-- A member as it stands in a text. -/
structure MemberText (V : Type*) where
  lead : White
  key : StableText
  beforeColon : White
  afterColon : White
  value : V
  trail : White

/-- An object as it stands in a text: its members, and before the closing brace, if it is
not the last member that ends there, a comma with white space behind, or white space
alone where there are no members. -/
structure ObjectText (V : Type*) where
  members : List (MemberText V)
  ending : Option White

variable {V σ : Type*}

/-- How a member is written. -/
def MemberText.text (render : V → Bytes) (m : MemberText V) : Bytes :=
  m.lead.1 ++ Ascii.quote :: (m.key.1 ++ Ascii.quote :: (m.beforeColon.1 ++ Ascii.colon ::
    (m.afterColon.1 ++ (render m.value ++ m.trail.1))))

/-- Members with commas between them, and what comes behind. -/
def membersText (render : V → Bytes) : List (MemberText V) → Bytes → Bytes
  | [], behind => behind
  | [m], behind => m.text render ++ behind
  | m :: m' :: ms, behind => m.text render ++ Ascii.comma :: membersText render (m' :: ms) behind

/-- What stands between the last member and the closing brace. -/
def ObjectText.endingText (t : ObjectText V) : Bytes :=
  match t.members, t.ending with
  | _, none => []
  | [], some ws => ws.1
  | _ :: _, some ws => Ascii.comma :: ws.1

/-- How an object is written, from behind its opening brace, and what comes behind it. -/
def ObjectText.text (render : V → Bytes) (t : ObjectText V) (rest : Bytes) : Bytes :=
  membersText render t.members (t.endingText ++ Ascii.closeBrace :: rest)

/-- What the members do, one after the other. -/
def runMembers (step : Bytes → V → σ → Option σ) (ms : List (MemberText V)) (st : σ) : Option σ :=
  ms.foldl (fun st m => st.bind (step m.key.1 m.value)) (some st)

/-- The rule for values reads back what is rendered, and does a step with it. -/
structure Reads (value : Bytes → Bytes → σ → Option Bytes × σ) (render : V → Bytes)
    (step : Bytes → V → σ → Option σ) : Prop where
  start : ∀ v, ∀ b ∈ (render v).head?, isWhitespace b = false
  reads : ∀ {key v q st q' st'}, Separated q →
    (value key (render v ++ q) st = (some q', st') ∧ Separated q' ↔
      q' = q ∧ step key v st = some st')
  writes : ∀ {key p st q st'}, value key p st = (some q, st') → Separated q →
    ∃ v, p = render v ++ q

/-! ## White space -/

theorem skipWhitespace_append (ws : White) (p : Bytes) :
    skipWhitespace (ws.1 ++ p) = skipWhitespace p := by
  unfold skipWhitespace
  exact List.dropWhile_append_of_pos ws.2

/-- What was skipped is white space. -/
theorem exists_white {p q : Bytes} (h : skipWhitespace p = q) : ∃ ws : White, p = ws.1 ++ q := by
  refine ⟨⟨p.takeWhile isWhitespace, fun _ hb => List.mem_takeWhile_imp hb⟩, ?_⟩
  rw [← h]
  exact List.takeWhile_append_dropWhile.symm

theorem membersText_append (render : V → Bytes) (ms : List (MemberText V)) (behind q : Bytes) :
    membersText render ms behind ++ q = membersText render ms (behind ++ q) := by
  induction ms with
  | nil => rfl
  | cons m ms ih =>
    cases ms with
    | nil => exact List.append_assoc _ _ _
    | cons m' ms => rw [membersText, membersText, List.append_assoc, List.cons_append, ih]

theorem ObjectText.text_append (render : V → Bytes) (t : ObjectText V) (rest q : Bytes) :
    t.text render rest ++ q = t.text render (rest ++ q) := by
  unfold ObjectText.text
  rw [membersText_append, List.append_assoc, List.cons_append]

/-! ## The steps of the members -/

variable {step : Bytes → V → σ → Option σ}

theorem foldl_bind_none (ms : List (MemberText V)) :
    ms.foldl (fun st m => st.bind (step m.key.1 m.value)) none = none := by
  induction ms with
  | nil => rfl
  | cons m ms ih => exact ih

theorem runMembers_cons (m : MemberText V) (ms : List (MemberText V)) (st : σ) :
    runMembers step (m :: ms) st =
      (step m.key.1 m.value st).bind (runMembers step ms) := by
  unfold runMembers
  rw [List.foldl_cons, Option.bind_some]
  cases step m.key.1 m.value st with
  | none => exact foldl_bind_none ms
  | some st' => rfl

theorem runMembers_append (ms ms' : List (MemberText V)) (st : σ) :
    runMembers step (ms ++ ms') st = (runMembers step ms st).bind (runMembers step ms') := by
  induction ms generalizing st with
  | nil => rfl
  | cons m ms ih =>
    rw [List.cons_append, runMembers_cons, runMembers_cons, Option.bind_assoc]
    exact congrArg _ (funext ih)

/-- **A member that does nothing** can be put in anywhere. -/
theorem runMembers_insert {m : MemberText V} (hm : ∀ st, step m.key.1 m.value st = some st)
    (ms ms' : List (MemberText V)) (st : σ) :
    runMembers step (ms ++ m :: ms') st = runMembers step (ms ++ ms') st := by
  rw [runMembers_append, runMembers_append]
  refine congrArg _ (funext fun st' => ?_)
  rw [runMembers_cons, hm]
  rfl

/-- One that is refused is refused anywhere. -/
theorem runMembers_insert_none {m : MemberText V} (hm : ∀ st, step m.key.1 m.value st = none)
    (ms ms' : List (MemberText V)) (st : σ) : runMembers step (ms ++ m :: ms') st = none := by
  rw [runMembers_append]
  cases runMembers step ms st with
  | none => rfl
  | some st' =>
    rw [Option.bind_some, runMembers_cons, hm]
    rfl

/-- **Members whose steps commute** can change places. -/
theorem runMembers_perm {ms ms' : List (MemberText V)} (hperm : ms.Perm ms')
    (hnodup : (ms.map fun m => m.key.1).Nodup)
    (hcomm : ∀ m ∈ ms, ∀ m' ∈ ms, m.key.1 ≠ m'.key.1 → ∀ st,
      (step m.key.1 m.value st).bind (step m'.key.1 m'.value) =
        (step m'.key.1 m'.value st).bind (step m.key.1 m.value)) (st : σ) :
    runMembers step ms st = runMembers step ms' st := by
  refine hperm.foldl_eq' (fun m hm m' hm' o => ?_) (some st)
  rw [Option.bind_assoc, Option.bind_assoc]
  by_cases hkey : m.key.1 = m'.key.1
  · rw [List.inj_on_of_nodup_map hnodup hm hm' hkey]
  · exact congrArg _ (funext (hcomm m hm m' hm' hkey))

/-- Each member of a run that went through did its step. -/
theorem runMembers_mem {ms : List (MemberText V)} {st st' : σ}
    (h : runMembers step ms st = some st') {m : MemberText V} (hm : m ∈ ms) :
    ∃ st₁ st₂, step m.key.1 m.value st₁ = some st₂ := by
  obtain ⟨xs, ys, rfl⟩ := List.append_of_mem hm
  rw [runMembers_append] at h
  obtain ⟨st₁, -, h⟩ := Option.bind_eq_some_iff.mp h
  rw [runMembers_cons] at h
  obtain ⟨st₂, hstep, -⟩ := Option.bind_eq_some_iff.mp h
  exact ⟨st₁, st₂, hstep⟩

/-- What each step carries, a run carries. -/
theorem runMembers_rel {R : σ → σ → Prop} (hrefl : ∀ st, R st st)
    (htrans : ∀ {a b c}, R a b → R b c → R a c)
    (hstep : ∀ {m : MemberText V} {st st' : σ}, step m.key.1 m.value st = some st' → R st st')
    {ms : List (MemberText V)} {st st' : σ} (h : runMembers step ms st = some st') : R st st' := by
  induction ms generalizing st with
  | nil =>
    obtain rfl := Option.some.inj h
    exact hrefl _
  | cons m ms ih =>
    rw [runMembers_cons] at h
    obtain ⟨st₁, hfirst, hrest⟩ := Option.bind_eq_some_iff.mp h
    exact htrans (hstep hfirst) (ih hrest)

/-- **The last member to write a value** is the one whose value is there in the end. -/
theorem runMembers_last {α β : Type*} (get : σ → Option β) (write : MemberText V → Option α)
    (g : α → β)
    (hstep : ∀ {m : MemberText V} {st st' : σ}, step m.key.1 m.value st = some st' →
      get st' = ((write m).map g).or (get st))
    {ms : List (MemberText V)} {st st' : σ} (h : runMembers step ms st = some st') :
    get st' = ((ms.filterMap write).getLast?.map g).or (get st) := by
  induction ms generalizing st with
  | nil =>
    obtain rfl := Option.some.inj h
    rfl
  | cons m ms ih =>
    rw [runMembers_cons] at h
    obtain ⟨st₁, hfirst, hrest⟩ := Option.bind_eq_some_iff.mp h
    rw [ih hrest, hstep hfirst, List.filterMap_cons]
    cases write m with
    | none => rfl
    | some a =>
      rw [List.getLast?_cons]
      cases (ms.filterMap write).getLast? with
      | none => rfl
      | some a' => rfl

/-- A flag that members set is set in the end if one of them has. -/
theorem runMembers_any (get : σ → Bool) (write : MemberText V → Bool)
    (hstep : ∀ {m : MemberText V} {st st' : σ}, step m.key.1 m.value st = some st' →
      get st' = (write m || get st))
    {ms : List (MemberText V)} {st st' : σ} (h : runMembers step ms st = some st') :
    get st' = (ms.any write || get st) := by
  induction ms generalizing st with
  | nil =>
    obtain rfl := Option.some.inj h
    rfl
  | cons m ms ih =>
    rw [runMembers_cons] at h
    obtain ⟨st₁, hfirst, hrest⟩ := Option.bind_eq_some_iff.mp h
    rw [ih hrest, hstep hfirst, List.any_cons, ← Bool.or_assoc, Bool.or_comm (ms.any write)]

/-! ## Runs of a text -/

variable {value : Bytes → Bytes → σ → Option Bytes × σ} {render : V → Bytes}

theorem objectRun_close_iff {p rest rest' : Bytes} {st st' : σ}
    (hp : skipWhitespace p = Ascii.closeBrace :: rest) :
    ObjectRun value p st rest' st' ↔ rest' = rest ∧ st = st' := by
  constructor
  · intro h
    cases h with
    | close hclose =>
      rw [hp] at hclose
      exact ⟨(List.cons.inj hclose).2.symm, rfl⟩
    | last hquote | cons hquote =>
      rw [hp] at hquote
      exact absurd (List.cons.inj hquote).1 (by decide)
  · rintro ⟨rfl, rfl⟩
    exact .close hp

/-- A run reads the member its text begins with, does its step, and goes on behind the
separator. -/
theorem objectRun_memberText_iff (h : Reads value render step) (m : MemberText V) {c : Byte}
    (hc : c = Ascii.comma ∨ c = Ascii.closeBrace) {p rest : Bytes} {st st'' : σ} :
    ObjectRun value (m.text render ++ c :: p) st rest st'' ↔
      ∃ st', step m.key.1 m.value st = some st' ∧
        (c = Ascii.closeBrace ∧ p = rest ∧ st' = st'' ∨
          c = Ascii.comma ∧ ObjectRun value p st' rest st'') := by
  have hcspace : isWhitespace c = false := by
    rcases hc with rfl | rfl
    · decide
    · decide
  have hskip : ∀ ws : White, skipWhitespace (ws.1 ++ c :: p) = c :: p := fun ws => by
    rw [skipWhitespace_append, skipWhitespace_cons hcspace]
  have hsep : ∀ ws : White, Separated (ws.1 ++ c :: p) := fun ws => ⟨c, p, hskip ws, hc⟩
  -- the value, with the white space behind it unless there is nothing of the value to see
  obtain ⟨ws, hvalue⟩ : ∃ ws : White,
      skipWhitespace (m.afterColon.1 ++ (render m.value ++ (m.trail.1 ++ c :: p))) =
        render m.value ++ (ws.1 ++ c :: p) := by
    rw [skipWhitespace_append]
    cases hrender : render m.value with
    | nil => exact ⟨⟨[], nofun⟩, hskip m.trail⟩
    | cons b text =>
      refine ⟨m.trail, skipWhitespace_cons (h.start m.value b ?_) _⟩
      rw [hrender]
      rfl
  have hne : render m.value ++ (ws.1 ++ c :: p) ≠ [] := by simp
  have hquote : skipWhitespace (m.text render ++ c :: p) =
      Ascii.quote :: (m.key.1 ++ Ascii.quote :: (m.beforeColon.1 ++ Ascii.colon ::
        (m.afterColon.1 ++ (render m.value ++ (m.trail.1 ++ c :: p))))) := by
    unfold MemberText.text
    rw [List.append_assoc, skipWhitespace_append, List.cons_append, skipWhitespace_cons (by decide)]
    simp
  have hmember : scanMember (m.key.1 ++ Ascii.quote :: (m.beforeColon.1 ++ Ascii.colon ::
      (m.afterColon.1 ++ (render m.value ++ (m.trail.1 ++ c :: p))))) =
      some (m.key.1, render m.value ++ (ws.1 ++ c :: p)) := by
    unfold scanMember
    rw [scanString_eq_some_iff.mpr ⟨rfl, m.key.2⟩]
    dsimp only
    rw [skipWhitespace_append, skipWhitespace_cons (by decide)]
    dsimp only
    rw [if_neg (by simp), hvalue]
    cases hcut : render m.value ++ (ws.1 ++ c :: p) with
    | nil => exact absurd hcut hne
    | cons b text => rfl
  rw [objectRun_member_iff hquote hmember]
  constructor
  · rintro ⟨q', st', hv, hnext⟩
    have hsep' : Separated q' := by
      rcases hnext with ⟨hq, -⟩ | ⟨p', hq, -⟩
      · exact ⟨_, _, hq, .inr rfl⟩
      · exact ⟨_, _, hq, .inl rfl⟩
    obtain ⟨rfl, hstep⟩ := (h.reads (hsep ws)).mp ⟨hv, hsep'⟩
    rw [hskip] at hnext
    refine ⟨st', hstep, ?_⟩
    rcases hnext with ⟨hq, hst⟩ | ⟨p', hq, hrun⟩
    · obtain ⟨hbrace, hrest⟩ := List.cons.inj hq
      exact .inl ⟨hbrace, hrest, hst⟩
    · obtain ⟨hcomma, rfl⟩ := List.cons.inj hq
      exact .inr ⟨hcomma, hrun⟩
  · rintro ⟨st', hstep, hnext⟩
    have hv := ((h.reads (hsep ws)).mpr ⟨rfl, hstep⟩).1
    refine ⟨_, st', hv, ?_⟩
    rw [hskip]
    rcases hnext with ⟨rfl, rfl, hst⟩ | ⟨rfl, hrun⟩
    · exact .inl ⟨rfl, hst⟩
    · exact .inr ⟨p, rfl, hrun⟩

/-- The same for the members that are left, with what ends the object behind them. -/
theorem objectRun_membersText_iff (h : Reads value render step) (m : MemberText V)
    (ms : List (MemberText V)) (ending : Option White) {rest rest' : Bytes} {st st' : σ} :
    ObjectRun value (ObjectText.text render ⟨m :: ms, ending⟩ rest) st rest' st' ↔
      rest' = rest ∧ runMembers step (m :: ms) st = some st' := by
  have hcomma : Ascii.comma ≠ Ascii.closeBrace := by decide
  -- behind the last member is the closing brace, or a comma and blanks before it
  induction ms generalizing m st with
  | nil =>
    rw [runMembers_cons, Option.bind_eq_some_iff]
    cases ending with
    | none =>
      change ObjectRun value (m.text render ++ Ascii.closeBrace :: rest) st rest' st' ↔ _
      rw [objectRun_memberText_iff h m (.inr rfl)]
      constructor
      · rintro ⟨st₁, hstep, ⟨-, hrest, rfl⟩ | ⟨hbrace, -⟩⟩
        · exact ⟨hrest.symm, st₁, hstep, rfl⟩
        · exact absurd hbrace.symm hcomma
      · rintro ⟨rfl, st₁, hstep, hst⟩
        exact ⟨st₁, hstep, .inl ⟨rfl, rfl, Option.some.inj hst⟩⟩
    | some ws =>
      have hclose : skipWhitespace (ws.1 ++ Ascii.closeBrace :: rest) =
          Ascii.closeBrace :: rest := by
        rw [skipWhitespace_append, skipWhitespace_cons (by decide)]
      change ObjectRun value (m.text render ++ Ascii.comma :: (ws.1 ++ Ascii.closeBrace :: rest))
        st rest' st' ↔ _
      rw [objectRun_memberText_iff h m (.inl rfl)]
      constructor
      · rintro ⟨st₁, hstep, ⟨hbrace, -⟩ | ⟨-, hrun⟩⟩
        · exact absurd hbrace hcomma
        · obtain ⟨hrest, rfl⟩ := (objectRun_close_iff hclose).mp hrun
          exact ⟨hrest, st₁, hstep, rfl⟩
      · rintro ⟨hrest, st₁, hstep, hst⟩
        exact ⟨st₁, hstep, .inr ⟨rfl, (objectRun_close_iff hclose).mpr
          ⟨hrest, Option.some.inj hst⟩⟩⟩
  | cons m' ms ih =>
    have htext : ObjectText.text render ⟨m :: m' :: ms, ending⟩ rest =
        m.text render ++ Ascii.comma :: ObjectText.text render ⟨m' :: ms, ending⟩ rest := by
      cases ending with
      | none => rfl
      | some ws => rfl
    rw [runMembers_cons, Option.bind_eq_some_iff, htext, objectRun_memberText_iff h m (.inl rfl)]
    constructor
    · rintro ⟨st₁, hstep, ⟨hbrace, -⟩ | ⟨-, hrun⟩⟩
      · exact absurd hbrace hcomma
      · obtain ⟨hrest, hruns⟩ := (ih m').mp hrun
        exact ⟨hrest, st₁, hstep, hruns⟩
    · rintro ⟨hrest, st₁, hstep, hruns⟩
      exact ⟨st₁, hstep, .inr ⟨rfl, (ih m').mpr ⟨hrest, hruns⟩⟩⟩

/-- **A text has a run** exactly if the steps of its members go through. -/
theorem objectRun_text_iff (h : Reads value render step) (t : ObjectText V)
    {rest rest' : Bytes} {st st' : σ} :
    ObjectRun value (t.text render rest) st rest' st' ↔
      rest' = rest ∧ runMembers step t.members st = some st' := by
  obtain ⟨members, ending⟩ := t
  cases members with
  | cons m ms => exact objectRun_membersText_iff h m ms ending
  | nil =>
    have hclose : skipWhitespace (ObjectText.text render ⟨[], ending⟩ rest) =
        Ascii.closeBrace :: rest := by
      cases ending with
      | none => exact skipWhitespace_cons (by decide) rest
      | some ws =>
        change skipWhitespace (ws.1 ++ Ascii.closeBrace :: rest) = _
        rw [skipWhitespace_append, skipWhitespace_cons (by decide)]
    rw [objectRun_close_iff hclose]
    exact and_congr_right fun _ => ⟨congrArg some, Option.some.inj⟩

/-- What a member was read from. -/
theorem exists_memberText (h : Reads value render step) {p k key q q' p' : Bytes} {c : Byte}
    {st st' : σ} (hp : skipWhitespace p = Ascii.quote :: k) (hk : scanMember k = some (key, q))
    (hv : value key q st = (some q', st')) (hq : skipWhitespace q' = c :: p')
    (hc : c = Ascii.comma ∨ c = Ascii.closeBrace) :
    ∃ m : MemberText V, p = m.text render ++ c :: p' := by
  obtain ⟨lead, rfl⟩ := exists_white hp
  obtain ⟨v, rfl⟩ := h.writes hv ⟨c, p', hq, hc⟩
  obtain ⟨trail, rfl⟩ := exists_white hq
  unfold scanMember at hk
  split at hk
  · exact absurd hk (by simp)
  rename_i key' r hscan
  split at hk
  · exact absurd hk (by simp)
  rename_i b r' hcolon
  split_ifs at hk with hb
  obtain rfl := not_not.mp hb
  split at hk
  · exact absurd hk (by simp)
  rename_i d r'' hplace
  obtain ⟨rfl, hplaced⟩ := Prod.mk.inj (Option.some.inj hk)
  rw [hplaced] at hplace
  obtain ⟨hkey, hstable⟩ := scanString_eq_some_iff.mp hscan
  obtain ⟨before, hbefore⟩ := exists_white hcolon
  obtain ⟨after, hafter⟩ := exists_white hplace
  refine ⟨⟨lead, ⟨key', hstable⟩, before, after, v, trail⟩, ?_⟩
  rw [hkey, hbefore, hafter]
  simp [MemberText.text]

/-- **What has a run is a text.** -/
theorem ObjectRun.exists_text (h : Reads value render step) {p rest : Bytes} {st st' : σ}
    (hrun : ObjectRun value p st rest st') :
    ∃ t : ObjectText V, p = t.text render rest := by
  induction hrun with
  | close hp =>
    obtain ⟨ws, rfl⟩ := exists_white hp
    exact ⟨⟨[], some ws⟩, rfl⟩
  | last hp hk hv hq =>
    obtain ⟨m, rfl⟩ := exists_memberText h hp hk hv hq (.inr rfl)
    exact ⟨⟨[m], none⟩, rfl⟩
  | cons hp hk hv hq _ ih =>
    obtain ⟨m, rfl⟩ := exists_memberText h hp hk hv hq (.inl rfl)
    obtain ⟨⟨members, ending⟩, rfl⟩ := ih
    cases members with
    | cons m' ms =>
      refine ⟨⟨m :: m' :: ms, ending⟩, ?_⟩
      cases ending with
      | none => rfl
      | some ws => rfl
    | nil =>
      cases ending with
      | none => exact ⟨⟨[m], some ⟨[], nofun⟩⟩, rfl⟩
      | some ws => exact ⟨⟨[m], some ws⟩, rfl⟩

end ObjectScan

end SmartGateway
