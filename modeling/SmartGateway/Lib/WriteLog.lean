import Mathlib.Data.List.Basic
import Mathlib.Order.MinMax

/-!
# Writes that may stop short

The log of what a sender has put on one connection: texts, each with how much of it
went out. A log is **framed** if its reader sees whole texts and then at most one
that breaks off, with nothing behind it. A sender that has finished every text it
has begun can begin one more, whatever becomes of it.
-/

namespace SmartGateway

namespace WriteLog

/-- A text, and how much of it was written. -/
structure Write (α : Type*) where
  text : List α
  written : ℕ
  le : written ≤ text.length
deriving DecidableEq

variable {α : Type*}

/-- A text of which nothing is written. -/
def Write.start (text : List α) : Write α := ⟨text, 0, Nat.zero_le _⟩

/-- So much more of it, or all that is left. -/
def Write.advance (w : Write α) (n : ℕ) : Write α where
  text := w.text
  written := min (w.written + n) w.text.length
  le := Nat.min_le_right _ _

@[simp] theorem Write.advance_text (w : Write α) (n : ℕ) : (w.advance n).text = w.text := rfl

/-- What the reader gets of it. -/
def Write.out (w : Write α) : List α := w.text.take w.written

/-- All of it was written. -/
def Write.Whole (w : Write α) : Prop := w.written = w.text.length

/-- What the reader gets of a connection. -/
def out (ws : List (Write α)) : List α := ws.flatMap Write.out

/-- Every text that was begun was finished. -/
def Intact (ws : List (Write α)) : Prop := ∀ w ∈ ws, w.written = 0 ∨ w.Whole

/-- The log is these whole texts and then at most one more; the writes that put
nothing out do not count. -/
structure FramedAs (ws whole last : List (Write α)) : Prop where
  split : ws.filter (fun w => w.written != 0) = whole ++ last
  whole : ∀ w ∈ whole, w.Whole
  one : last.length ≤ 1

/-- Whole texts, then at most one that breaks off, and nothing behind it. -/
def Framed (ws : List (Write α)) : Prop := ∃ whole last, FramedAs ws whole last

@[simp] theorem Write.out_whole {w : Write α} (h : w.Whole) : w.out = w.text := by
  rw [Write.out, h, List.take_length]

/-- Writes that put nothing out are not seen. -/
theorem out_filter (ws : List (Write α)) : out (ws.filter fun w => w.written != 0) = out ws := by
  induction ws with
  | nil => rfl
  | cons w ws ih =>
    by_cases h : w.written = 0
    · have hout : w.out = [] := by rw [Write.out, h, List.take_zero]
      rw [List.filter_cons_of_neg (by simp [h]), ih]
      simp [out, hout]
    · rw [List.filter_cons_of_pos (by simp [h])]
      simp only [out, List.flatMap_cons] at ih ⊢
      rw [ih]

/-- **What the reader of a framed log gets**: the whole texts, one behind the
other, and of the last what went out. -/
theorem FramedAs.out_eq {ws whole last : List (Write α)} (h : FramedAs ws whole last) :
    out ws = (whole.map Write.text).flatten ++ out last := by
  have hwhole : out whole = (whole.map Write.text).flatten := by
    rw [out, List.flatMap_def]
    congr 1
    exact List.map_congr_left fun w hw => Write.out_whole (h.whole w hw)
  rw [← out_filter ws, h.split, out, List.flatMap_append]
  exact congrArg (· ++ out last) hwhole

/-- What has bytes behind it was finished, if any of it went out. -/
theorem Framed.whole_of_append (ws : List (Write α)) {rest : List (Write α)} {w v : Write α}
    (h : Framed (ws ++ w :: rest)) (hw : w.written ≠ 0) (hv : v ∈ rest) (hv' : v.written ≠ 0) :
    w.Whole := by
  obtain ⟨whole, last, hsplit, hwhole, hone⟩ := h
  have hmem : v ∈ rest.filter fun w => w.written != 0 :=
    List.mem_filter.mpr ⟨hv, by simpa using hv'⟩
  rw [List.filter_append, List.filter_cons_of_pos (by simpa using hw)] at hsplit
  rcases List.append_eq_append_iff.mp hsplit with ⟨front, rfl, hback⟩ | ⟨back, -, rfl⟩
  · cases front with
    | nil =>
      -- then `w` and `v` are both in the last part
      rw [List.nil_append] at hback
      rw [← hback, List.length_cons] at hone
      have hpos := List.length_pos_of_mem hmem
      omega
    | cons u front =>
      obtain ⟨rfl, -⟩ := List.cons.inj hback
      exact hwhole w (by simp)
  · have hpos := List.length_pos_of_mem hmem
    rw [List.length_append, List.length_cons] at hone
    omega

@[simp] theorem intact_nil : Intact ([] : List (Write α)) := fun _ h => absurd h (by simp)

/-- What was finished, or put nothing out, leaves the log intact. -/
theorem Intact.concat {ws : List (Write α)} (h : Intact ws) {w : Write α}
    (hw : w.written = 0 ∨ w.Whole) : Intact (ws ++ [w]) := by
  intro v hv
  rcases List.mem_append.mp hv with hv | hv
  · exact h v hv
  · rw [List.mem_singleton.mp hv]
    exact hw

/-- The writes of an intact log that count are whole. -/
theorem Intact.whole {ws : List (Write α)} (h : Intact ws) :
    ∀ w ∈ ws.filter (fun w => w.written != 0), w.Whole := by
  intro w hw
  obtain ⟨hmem, hne⟩ := List.mem_filter.mp hw
  exact (h w hmem).resolve_left (by simpa using hne)

/-- An intact log is framed. -/
theorem Intact.framed {ws : List (Write α)} (h : Intact ws) : Framed ws :=
  ⟨_, [], (List.append_nil _).symm, h.whole, Nat.zero_le 1⟩

/-- **And with one write more it is, however far that got.** -/
theorem Intact.framed_concat {ws : List (Write α)} (h : Intact ws) (w : Write α) :
    Framed (ws ++ [w]) := by
  refine ⟨_, [w].filter fun w => w.written != 0, ?_, h.whole, ?_⟩
  · rw [List.filter_append]
  · exact List.length_filter_le _ [w]

/-! ## What was written whole -/

/-- The texts of a log that were written whole. -/
def wholeTexts (ws : List (Write α)) : List (List α) :=
  (ws.filter fun w => w.written = w.text.length).map Write.text

@[simp] theorem wholeTexts_nil : wholeTexts ([] : List (Write α)) = [] := rfl

theorem wholeTexts_append (ws vs : List (Write α)) :
    wholeTexts (ws ++ vs) = wholeTexts ws ++ wholeTexts vs := by
  rw [wholeTexts, List.filter_append, List.map_append]
  rfl

/-- Of logs put together. -/
theorem wholeTexts_flatMap {β : Type*} (logs : List β) (f : β → List (Write α)) :
    wholeTexts (logs.flatMap f) = logs.flatMap fun log => wholeTexts (f log) := by
  induction logs with
  | nil => rfl
  | cons log logs ih => rw [List.flatMap_cons, List.flatMap_cons, wholeTexts_append, ih]

theorem wholeTexts_of_whole {w : Write α} (h : w.Whole) : wholeTexts [w] = [w.text] := by
  have htrue : decide (w.written = w.text.length) = true := decide_eq_true h
  rw [wholeTexts, List.filter_singleton, htrue]
  rfl

theorem wholeTexts_of_not_whole {w : Write α} (h : ¬ w.Whole) : wholeTexts [w] = [] := by
  have hfalse : decide (w.written = w.text.length) = false := decide_eq_false h
  rw [wholeTexts, List.filter_singleton, hfalse]
  rfl

/-- Texts with something in them are whole only if something was written. -/
theorem wholeTexts_filter {ws : List (Write α)} (hne : ∀ w ∈ ws, w.text ≠ []) :
    wholeTexts (ws.filter fun w => w.written != 0) = wholeTexts ws := by
  induction ws with
  | nil => rfl
  | cons w ws ih =>
    have hrest := ih fun v hv => hne v (List.mem_cons_of_mem _ hv)
    rw [← List.singleton_append, wholeTexts_append, List.filter_append, wholeTexts_append, hrest]
    refine congrArg (· ++ _) ?_
    by_cases hzero : w.written = 0
    · have hpart : ¬ w.Whole := by
        rw [Write.Whole, hzero]
        exact fun h => hne w List.mem_cons_self (List.eq_nil_of_length_eq_zero h.symm)
      rw [List.filter_singleton, wholeTexts_of_not_whole hpart]
      simp [hzero]
    · have hkept : [w].filter (fun w => w.written != 0) = [w] :=
        List.filter_eq_self.mpr fun v hv => by simpa [List.mem_singleton.mp hv] using hzero
      rw [hkept]

theorem wholeTexts_of_forall {ws : List (Write α)} (h : ∀ w ∈ ws, w.Whole) :
    wholeTexts ws = ws.map Write.text := by
  have hall : ∀ w ∈ ws, decide (w.written = w.text.length) = true := fun w hw =>
    decide_eq_true (h w hw)
  rw [wholeTexts, List.filter_eq_self.mpr hall]

/-- A text that its last item, and no other, ends. -/
def Delimited (sep : α) (text : List α) : Prop := ∃ body, sep ∉ body ∧ text = body ++ [sep]

theorem Delimited.ne_nil {sep : α} {text : List α} (h : Delimited sep text) : text ≠ [] := by
  obtain ⟨body, -, rfl⟩ := h
  simp

/-- The end is not in what is not whole. -/
theorem Write.not_mem_out {w : Write α} {sep : α} (h : Delimited sep w.text) (hpart : ¬ w.Whole) :
    sep ∉ w.out := by
  obtain ⟨body, hbody, htext⟩ := h
  have hshort : w.written ≤ body.length := by
    have hle := w.le
    have hne : w.written ≠ w.text.length := hpart
    rw [htext, List.length_append, List.length_singleton] at hle hne
    omega
  rw [Write.out, htext, List.take_append_of_le_length hshort]
  exact fun hmem => hbody (List.mem_of_mem_take hmem)

/-- **What the reader of a framed log of delimited texts gets**: those that were written
whole, and behind them no end of one more. -/
theorem Framed.out_delimited {sep : α} {ws : List (Write α)} (h : Framed ws)
    (hws : ∀ w ∈ ws, Delimited sep w.text) :
    ∃ rest, sep ∉ rest ∧ out ws = (wholeTexts ws).flatten ++ rest := by
  obtain ⟨whole, last, hframed⟩ := h
  have hlast : ∀ w ∈ last, Delimited sep w.text := by
    intro w hw
    have hmem : w ∈ ws.filter fun w => w.written != 0 := by
      rw [hframed.split]
      exact List.mem_append_right _ hw
    exact hws w (List.mem_of_mem_filter hmem)
  have htexts : wholeTexts ws = whole.map Write.text ++ wholeTexts last := by
    rw [← wholeTexts_filter fun w hw => (hws w hw).ne_nil, hframed.split, wholeTexts_append,
      wholeTexts_of_forall hframed.whole]
  rw [hframed.out_eq, htexts, List.flatten_append]
  cases last with
  | nil => exact ⟨[], List.not_mem_nil, by simp [out]⟩
  | cons w more =>
    obtain rfl : more = [] := List.eq_nil_of_length_eq_zero (Nat.le_zero.mp
      (Nat.le_of_succ_le_succ hframed.one))
    have hone : out [w] = w.out := List.flatMap_singleton _ _
    by_cases hwhole : w.Whole
    · refine ⟨[], List.not_mem_nil, ?_⟩
      rw [hone, wholeTexts_of_whole hwhole, Write.out_whole hwhole]
      simp
    · refine ⟨w.out, Write.not_mem_out (hlast w List.mem_cons_self) hwhole, ?_⟩
      rw [hone, wholeTexts_of_not_whole hwhole]
      simp

/-! ## Cutting a log -/

/-- A write as far as a place in it. -/
def cutWrite (w : Write α) (n : ℕ) : Write α :=
  ⟨w.text, min n w.text.length, min_le_right _ _⟩

theorem cutWrite_out {w : Write α} {n : ℕ} (h : n ≤ w.written) :
    (cutWrite w n).out = w.out.take n := by
  have hle : n ≤ w.text.length := h.trans w.le
  have hwritten : (cutWrite w n).written = n := min_eq_left hle
  rw [Write.out, Write.out, List.take_take, hwritten, min_eq_left h]
  rfl

theorem out_append (ws vs : List (Write α)) : out (ws ++ vs) = out ws ++ out vs :=
  List.flatMap_append

@[simp] theorem out_singleton (w : Write α) : out [w] = w.out := by simp [out]

/-- **A cut through a log** goes between two writes, or through one. -/
theorem out_eq_append {ws : List (Write α)} {a b : List α} (h : out ws = a ++ b) :
    (∃ vs us, ws = vs ++ us ∧ a = out vs ∧ b = out us) ∨
      ∃ vs w us n, ws = vs ++ w :: us ∧ 0 < n ∧ n < w.written ∧
        a = out (vs ++ [cutWrite w n]) ∧ b = w.out.drop n ++ out us := by
  induction ws generalizing a with
  | nil =>
    obtain ⟨rfl, rfl⟩ := List.append_eq_nil_iff.mp h.symm
    exact .inl ⟨[], [], rfl, rfl, rfl⟩
  | cons w ws ih =>
    have hout : out (w :: ws) = w.out ++ out ws := rfl
    rw [hout] at h
    rcases List.append_eq_append_iff.mp h with ⟨more, rfl, hmore⟩ | ⟨more, hw, rfl⟩
    · -- behind this write
      rcases ih hmore with ⟨vs, us, rfl, rfl, rfl⟩ | ⟨vs, v, us, n, rfl, hpos, hlt, rfl, rfl⟩
      · exact .inl ⟨w :: vs, us, rfl, rfl, rfl⟩
      · exact .inr ⟨w :: vs, v, us, n, rfl, hpos, hlt, rfl, rfl⟩
    · have hlength : a.length + more.length = w.written := by
        rw [← List.length_append, ← hw, Write.out, List.length_take]
        exact min_eq_left w.le
      rcases Nat.eq_zero_or_pos a.length with hzero | hpos
      · obtain rfl := List.eq_nil_of_length_eq_zero hzero
        refine .inl ⟨[], w :: ws, rfl, rfl, ?_⟩
        rw [hout, hw]
        rfl
      rcases Nat.eq_zero_or_pos more.length with hzero | hpos'
      · obtain rfl := List.eq_nil_of_length_eq_zero hzero
        rw [List.append_nil] at hw
        exact .inl ⟨[w], ws, rfl, by rw [out_singleton, hw], rfl⟩
      · refine .inr ⟨[], w, ws, a.length, rfl, hpos, by omega, ?_, ?_⟩
        · rw [List.nil_append, out_singleton, cutWrite_out (by omega), hw, List.take_left]
        · rw [hw, List.drop_left]

theorem wholeTexts_cutWrite {w : Write α} {n : ℕ} (h : n < w.text.length) :
    wholeTexts [cutWrite w n] = [] := by
  have hwritten : (cutWrite w n).written = n := min_eq_left h.le
  refine wholeTexts_of_not_whole ?_
  rw [Write.Whole, hwritten]
  exact Nat.ne_of_lt h

end WriteLog

end SmartGateway
