import SmartGateway.Lib.TextArray
import SmartGateway.Lib.Machine
import Mathlib.Data.List.TakeWhile

/-!
# Lines out of a buffer

`common/line_parser.c`. The loop of `line_parser_feed` calls back between its turns,
and the callback may take its time; a turn is therefore on its own.
-/

namespace SmartGateway

/-- A text that is one line: its newline is its last byte, and its only one. -/
def IsLine (text : Bytes) : Prop := ∃ line, Ascii.lf ∉ line ∧ text = line ++ [Ascii.lf]

/-- A line as the callback gets it. There is no newline in it. -/
structure Line where
  text : Bytes
  noLf : Ascii.lf ∉ text
deriving DecidableEq

/-- One CR at the end removed. -/
def stripCr (line : Bytes) : Bytes :=
  if line.getLast? = some Ascii.cr then line.dropLast else line

theorem stripCr_subset (line : Bytes) : stripCr line ⊆ line := by
  unfold stripCr
  split
  · exact List.dropLast_subset line
  · exact List.Subset.refl line

/-- What stands before the first newline, less one CR. -/
def Line.first (buffer : Bytes) : Line where
  text := stripCr (buffer.takeWhile (· ≠ Ascii.lf))
  noLf h := by simpa using List.mem_takeWhile_imp (stripCr_subset _ h)

/-- A turn of the loop of `line_parser_feed`: the line to call back with, and what
stays in the buffer behind its newline. -/
def lineParserTurn (buffer : Bytes) : Option (Line × Bytes) :=
  match buffer.dropWhile (· ≠ Ascii.lf) with
  | [] => none
  | _ :: rest => some (Line.first buffer, rest)

/-- The loop ends where no newline is left. -/
theorem lineParserTurn_of_not_mem {buffer : Bytes} (h : Ascii.lf ∉ buffer) :
    lineParserTurn buffer = none := by
  have hdrop : buffer.dropWhile (· ≠ Ascii.lf) = [] := by
    refine List.dropWhile_eq_nil_iff.mpr fun b hb => ?_
    simpa using fun hlf : b = Ascii.lf => h (hlf ▸ hb)
  rw [lineParserTurn, hdrop]

/-- A turn takes the bytes before the first newline. -/
theorem lineParserTurn_append {raw : Bytes} (h : Ascii.lf ∉ raw) (rest : Bytes) :
    ∃ line, lineParserTurn (raw ++ Ascii.lf :: rest) = some (line, rest) ∧
      line.text = stripCr raw := by
  have hpos : ∀ b ∈ raw, decide (b ≠ Ascii.lf) = true := by
    intro b hb
    simpa using fun hlf : b = Ascii.lf => h (hlf ▸ hb)
  have hdrop : (raw ++ Ascii.lf :: rest).dropWhile (· ≠ Ascii.lf) = Ascii.lf :: rest := by
    rw [List.dropWhile_append_of_pos hpos]
    simp
  have htake : (raw ++ Ascii.lf :: rest).takeWhile (· ≠ Ascii.lf) = raw := by
    rw [List.takeWhile_append_of_pos hpos]
    simp
  refine ⟨Line.first (raw ++ Ascii.lf :: rest), ?_, ?_⟩
  · rw [lineParserTurn, hdrop]
  · exact congrArg stripCr htake

/-- **A turn**: the buffer is the bytes of the line, its newline, and what stays. -/
theorem lineParserTurn_eq_some {buffer rest : Bytes} {line : Line}
    (h : lineParserTurn buffer = some (line, rest)) :
    ∃ raw, Ascii.lf ∉ raw ∧ buffer = raw ++ Ascii.lf :: rest ∧ line.text = stripCr raw := by
  by_cases hlf : Ascii.lf ∈ buffer
  · obtain ⟨raw, rest', rfl, hraw⟩ := List.eq_append_cons_of_mem hlf
    obtain ⟨line', hturn, htext⟩ := lineParserTurn_append hraw rest'
    rw [hturn] at h
    obtain ⟨rfl, rfl⟩ := Prod.mk.inj (Option.some.inj h)
    exact ⟨raw, hraw, rfl, htext⟩
  · rw [lineParserTurn_of_not_mem hlf] at h
    exact absurd h (by simp)

/-- There is a turn as long as there is a newline. -/
theorem exists_lineParserTurn {buffer : Bytes} (h : Ascii.lf ∈ buffer) :
    ∃ line rest, lineParserTurn buffer = some (line, rest) := by
  obtain ⟨raw, rest, rfl, hraw⟩ := List.eq_append_cons_of_mem h
  obtain ⟨line, hturn, -⟩ := lineParserTurn_append hraw rest
  exact ⟨line, rest, hturn⟩

/-! ## The whole loop -/

/-- The loop of `line_parser_feed`, at most so many turns of it. -/
def lineParserLoop : ℕ → Bytes → List Line × Bytes
  | 0, buffer => ([], buffer)
  | turns + 1, buffer =>
    match lineParserTurn buffer with
    | none => ([], buffer)
    | some (line, rest) =>
      let (lines, left) := lineParserLoop turns rest
      (line :: lines, left)

/-- `line_parser_feed`: the lines it calls back with, in order, and what it leaves in the
buffer. A turn takes a byte at least. -/
def lineParserFeed (buffer : Bytes) : List Line × Bytes := lineParserLoop buffer.length buffer

/-- A turn leaves less in the buffer. -/
theorem length_lt_of_lineParserTurn {buffer rest : Bytes} {line : Line}
    (h : lineParserTurn buffer = some (line, rest)) : rest.length < buffer.length := by
  obtain ⟨raw, -, rfl, -⟩ := lineParserTurn_eq_some h
  rw [List.length_append, List.length_cons]
  omega

/-- More turns than there are bytes change nothing. -/
theorem lineParserLoop_eq_feed {turns : ℕ} {buffer : Bytes} (h : buffer.length ≤ turns) :
    lineParserLoop turns buffer = lineParserFeed buffer := by
  suffices hsame : ∀ turns turns' buffer, buffer.length ≤ turns → buffer.length ≤ turns' →
      lineParserLoop turns buffer = lineParserLoop turns' buffer from hsame _ _ _ h le_rfl
  intro turns
  induction turns with
  | zero =>
    intro turns' buffer hturns _
    obtain rfl : buffer = [] := List.eq_nil_of_length_eq_zero (by omega)
    cases turns' <;> rfl
  | succ turns ih =>
    intro turns' buffer hturns hturns'
    cases turns' with
    | zero =>
      obtain rfl : buffer = [] := List.eq_nil_of_length_eq_zero (by omega)
      rfl
    | succ turns' =>
      rw [lineParserLoop, lineParserLoop]
      cases hturn : lineParserTurn buffer with
      | none => rfl
      | some p =>
        have hless := length_lt_of_lineParserTurn hturn
        simp only
        rw [ih turns' p.2 (by omega) (by omega)]

/-- The loop is over where no newline is left. -/
theorem lineParserFeed_of_not_mem {buffer : Bytes} (h : Ascii.lf ∉ buffer) :
    lineParserFeed buffer = ([], buffer) := by
  rw [lineParserFeed]
  cases buffer with
  | nil => rfl
  | cons b bs =>
    rw [List.length_cons, lineParserLoop, lineParserTurn_of_not_mem h]

/-- **The loop goes on** behind the line it has called back with. -/
theorem lineParserFeed_of_turn {buffer rest : Bytes} {line : Line}
    (h : lineParserTurn buffer = some (line, rest)) :
    lineParserFeed buffer = (line :: (lineParserFeed rest).1, (lineParserFeed rest).2) := by
  have hless := length_lt_of_lineParserTurn h
  have hturns : rest.length ≤ buffer.length - 1 := by omega
  rw [← lineParserLoop_eq_feed hturns]
  obtain ⟨turns, hturns⟩ : ∃ turns, buffer.length = turns + 1 := ⟨buffer.length - 1, by omega⟩
  rw [lineParserFeed, hturns, lineParserLoop, h, Nat.add_sub_cancel]

/-! ## A whole stream -/

/-- A buffer that chunks are appended to, each followed by a call of `line_parser_feed`. A
call returns the number of lines it has called back with. -/
def lineParserStream : Machine Bytes Bytes (List Line) where
  init := []
  step buffer chunk := (lineParserFeed (buffer ++ chunk)).swap

/-- Lines with their newlines, one behind the other. -/
def joinLines (raws : List Bytes) : Bytes := raws.flatMap fun raw => raw ++ [Ascii.lf]

theorem joinLines_append (raws raws' : List Bytes) :
    joinLines (raws ++ raws') = joinLines raws ++ joinLines raws' := List.flatMap_append

/-- A text cut into its lines and what stands behind the last newline. -/
structure CutInto (text : Bytes) (raws : List Bytes) (rest : Bytes) : Prop where
  eq : text = joinLines raws ++ rest
  lines : ∀ raw ∈ raws, Ascii.lf ∉ raw
  rest : Ascii.lf ∉ rest

theorem CutInto.splitOn {text rest : Bytes} {raws : List Bytes} (h : CutInto text raws rest) :
    text.splitOn Ascii.lf = raws ++ [rest] := by
  obtain ⟨rfl, hlines, hrest⟩ := h
  induction raws with
  | nil => exact List.splitOn_eq_singleton hrest
  | cons raw raws ih =>
    have htext : joinLines (raw :: raws) ++ rest = raw ++ Ascii.lf :: (joinLines raws ++ rest) := by
      simp [joinLines]
    rw [htext, List.splitOn_append_cons_self_of_not_mem (hlines raw List.mem_cons_self),
      ih fun raw' hmem => hlines raw' (List.mem_cons_of_mem _ hmem)]
    rfl

theorem CutInto.count {text rest : Bytes} {raws : List Bytes} (h : CutInto text raws rest) :
    text.count Ascii.lf = raws.length := by
  obtain ⟨rfl, hlines, hrest⟩ := h
  rw [List.count_append, List.count_eq_zero_of_not_mem hrest, Nat.add_zero]
  induction raws with
  | nil => rfl
  | cons raw raws ih =>
    have hraw : raw.count Ascii.lf = 0 :=
      List.count_eq_zero_of_not_mem (hlines raw List.mem_cons_self)
    have hrest := ih fun raw' hmem => hlines raw' (List.mem_cons_of_mem _ hmem)
    rw [joinLines] at hrest
    rw [joinLines, List.flatMap_cons, List.count_append, List.count_append, hraw, hrest,
      List.count_singleton_self, List.length_cons]
    omega

/-- **One call** cuts the buffer. -/
theorem lineParserFeed_cut (buffer : Bytes) :
    ∃ raws, CutInto buffer raws (lineParserFeed buffer).2 ∧
      (lineParserFeed buffer).1.map Line.text = raws.map stripCr := by
  induction hn : buffer.length using Nat.strong_induction_on generalizing buffer with
  | _ n ih =>
    by_cases hlf : Ascii.lf ∈ buffer
    · obtain ⟨line, rest, hturn⟩ := exists_lineParserTurn hlf
      have hless := length_lt_of_lineParserTurn hturn
      obtain ⟨raw, hraw, hbuffer, htext⟩ := lineParserTurn_eq_some hturn
      obtain ⟨raws, hcut, hlines⟩ := ih rest.length (by omega) rest rfl
      rw [lineParserFeed_of_turn hturn]
      refine ⟨raw :: raws, ⟨?_, ?_, hcut.rest⟩, ?_⟩
      · rw [hbuffer, joinLines, List.flatMap_cons, List.append_assoc, List.append_assoc]
        exact congrArg (fun text => raw ++ Ascii.lf :: text) hcut.eq
      · intro raw' hmem
        rcases List.mem_cons.mp hmem with rfl | hmem
        · exact hraw
        · exact hcut.lines raw' hmem
      · rw [List.map_cons, List.map_cons, htext, hlines]
    · rw [lineParserFeed_of_not_mem hlf]
      exact ⟨[], ⟨rfl, nofun, hlf⟩, rfl⟩

theorem exists_cut (text : Bytes) : ∃ raws rest, CutInto text raws rest := by
  obtain ⟨raws, hcut, -⟩ := lineParserFeed_cut text
  exact ⟨raws, _, hcut⟩

theorem splitOn_joinLines_append (hraws : ∀ raw ∈ raws, Ascii.lf ∉ raw) (rest : Bytes) :
    (joinLines raws ++ rest).splitOn Ascii.lf = raws ++ rest.splitOn Ascii.lf := by
  induction raws with
  | nil => rfl
  | cons raw raws ih =>
    have htext : joinLines (raw :: raws) ++ rest = raw ++ Ascii.lf :: (joinLines raws ++ rest) := by
      simp [joinLines]
    rw [htext, List.splitOn_append_cons_self_of_not_mem (hraws raw List.mem_cons_self),
      ih fun raw' hmem => hraws raw' (List.mem_cons_of_mem _ hmem), List.cons_append]

/-- More of a stream has its lines first. -/
theorem splitOn_dropLast_mono {text more : Bytes} (h : text <+: more) :
    (text.splitOn Ascii.lf).dropLast <+: (more.splitOn Ascii.lf).dropLast := by
  obtain ⟨behind, rfl⟩ := h
  obtain ⟨raws, rest, hcut⟩ := exists_cut text
  rw [hcut.splitOn, List.dropLast_concat, hcut.eq, List.append_assoc,
    splitOn_joinLines_append hcut.lines,
    List.dropLast_append_of_ne_nil (List.splitOn_ne_nil _ _)]
  exact List.prefix_append _ _

/-- Texts that are lines, with their lines. -/
theorem exists_lines {texts : List Bytes} (h : ∀ text ∈ texts, IsLine text) :
    ∃ lines : List Bytes, (∀ line ∈ lines, Ascii.lf ∉ line) ∧
      texts = lines.map (· ++ [Ascii.lf]) := by
  induction texts with
  | nil => exact ⟨[], fun _ h => absurd h List.not_mem_nil, rfl⟩
  | cons text texts ih =>
    obtain ⟨lines, hlines, rfl⟩ := ih fun other hother => h other (List.mem_cons_of_mem _ hother)
    obtain ⟨line, hline, rfl⟩ := h text List.mem_cons_self
    exact ⟨line :: lines, List.forall_mem_cons.mpr ⟨hline, hlines⟩, rfl⟩

/-- One behind the other they are split into them. -/
theorem splitOn_flatten_lines {texts : List Bytes} (h : ∀ text ∈ texts, IsLine text) {rest : Bytes}
    (hrest : Ascii.lf ∉ rest) :
    ((texts.flatten ++ rest).splitOn Ascii.lf).dropLast = texts.map List.dropLast := by
  obtain ⟨lines, hlines, rfl⟩ := exists_lines h
  have hjoin : (lines.map (· ++ [Ascii.lf])).flatten = joinLines lines := by
    rw [joinLines, List.flatMap_def]
  have hraws : (lines.map (· ++ [Ascii.lf])).map List.dropLast = lines := by
    simp [Function.comp_def]
  rw [hjoin, splitOn_joinLines_append hlines, hraws,
    List.dropLast_append_of_ne_nil (List.splitOn_ne_nil _ _), List.splitOn_eq_singleton hrest]
  exact List.append_nil _

/-- **The lines of a stream**, however it is cut into chunks: the calls are made with its
lines, each less one CR, they return as many as there are newlines, and what is left in the
buffer is what stands behind the last of them. -/
theorem lineParserStream_lines (chunks : List Bytes) :
    let stream := chunks.flatten
    let trace := lineParserStream.trace chunks
    (trace.flatMap Prod.snd).map Line.text = (stream.splitOn Ascii.lf).dropLast.map stripCr ∧
      (trace.map fun call => call.2.length).sum = stream.count Ascii.lf ∧
      (stream.splitOn Ascii.lf).getLast? = some (lineParserStream.state chunks) := by
  intro stream trace
  have hrun : ∃ raws, CutInto ((trace.map Prod.fst).flatten) raws (lineParserStream.state chunks) ∧
      (trace.flatMap Prod.snd).map Line.text = raws.map stripCr := by
    refine lineParserStream.trace_induction (P := fun tr buffer =>
      ∃ raws, CutInto ((tr.map Prod.fst).flatten) raws buffer ∧
        (tr.flatMap Prod.snd).map Line.text = raws.map stripCr) ?_ ?_ chunks
    · exact ⟨[], ⟨rfl, nofun, List.not_mem_nil⟩, rfl⟩
    rintro tr buffer chunk ⟨raws, hcut, hlines⟩
    obtain ⟨raws', hcut', hlines'⟩ := lineParserFeed_cut (buffer ++ chunk)
    refine ⟨raws ++ raws', ⟨?_, ?_, hcut'.rest⟩, ?_⟩
    · have hleft : (lineParserStream.step buffer chunk).1 =
          (lineParserFeed (buffer ++ chunk)).2 := rfl
      rw [List.map_append, List.flatten_append, hcut.eq, joinLines_append, List.append_assoc,
        List.append_assoc, hleft, ← hcut'.eq, List.map_singleton, List.flatten_singleton]
    · intro raw hmem
      rcases List.mem_append.mp hmem with hmem | hmem
      · exact hcut.lines raw hmem
      · exact hcut'.lines raw hmem
    · rw [List.flatMap_append, List.map_append, hlines, List.map_append, ← hlines']
      simp [lineParserStream]
  have hstream : (trace.map Prod.fst).flatten = stream := by
    rw [Machine.map_fst_trace]
  obtain ⟨raws, hcut, hlines⟩ := hrun
  rw [hstream] at hcut
  rw [hcut.splitOn, List.dropLast_concat, hcut.count, List.getLast?_concat]
  refine ⟨hlines, ?_, rfl⟩
  -- as many lines as the calls have returned
  have hcount := congrArg List.length hlines
  rw [List.length_map, List.length_map, List.length_flatMap] at hcount
  exact hcount

end SmartGateway
