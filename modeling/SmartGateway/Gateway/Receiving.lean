import SmartGateway.Common.LineParser
import SmartGateway.Gateway.LinkInvariant
import SmartGateway.Lib.Machine

/-!
# Lines out of a stream

The receive branches of `wifi_client_worker` and `server_link_worker`: what `recv`
delivers is gathered in a buffer, and `line_parser_feed` takes the lines out of it. Bytes
that do not fit are thrown away with all that is in the buffer, and the stream is taken up
again behind them, be that in the middle of a line or not. `torn_iff` says when it is, and
`whole_lines_iff` what comes of it: the rest of the line is handed on as a line of its own
as soon as its newline arrives.
-/

namespace SmartGateway

/-! ## The branches -/

/-- `WIFI_CLIENT_READ_BUFFER_SIZE`. -/
abbrev wifiClientReadBufferSize : ℕ := 256

/-- `WIFI_CLIENT_BUFFER_SIZE`. -/
abbrev wifiClientBufferSize : ℕ := 1024

/-- A receive branch, with the size of its buffer: the lines handed on and the buffer, after
`recv` has delivered a chunk. -/
def receiveChunk (size : ℕ) (buffer chunk : Bytes) : List Line × Bytes :=
  if size < buffer.length + chunk.length then ([], []) else lineParserFeed (buffer ++ chunk)

/-- The receive branch of `wifi_client_worker`. -/
def wifiClientReceive : Bytes → Bytes → List Line × Bytes := receiveChunk wifiClientBufferSize

/-- The receive branch of `server_link_worker`. -/
def serverLinkReceive : Bytes → Bytes → List Line × Bytes := receiveChunk serverLinkBufferSize

/-- A receive branch as a machine over the chunks. -/
def lineReceiver (receive : Bytes → Bytes → List Line × Bytes) :
    Machine Bytes Bytes (List Line) where
  init := []
  step buffer chunk := (receive buffer chunk).swap

/-! ## Where the lines lie -/

/-- A buffer, with where in the stream it begins. -/
structure Receiver where
  buffer : Bytes
  start : ℕ

/-- A line handed on, with where in the stream it begins. -/
structure Handed where
  start : ℕ
  line : Line

/-- `line_parser_feed`, watched. -/
def Receiver.loop : ℕ → Receiver → List Handed × Receiver
  | 0, s => ([], s)
  | turns + 1, s =>
    match lineParserTurn s.buffer with
    | none => ([], s)
    | some (line, rest) =>
      let (handed, s') := Receiver.loop turns ⟨rest, s.start + (s.buffer.length - rest.length)⟩
      (⟨s.start, line⟩ :: handed, s')

/-- A receive branch, watched. -/
def Receiver.receive (size : ℕ) (s : Receiver) (chunk : Bytes) : List Handed × Receiver :=
  if size < s.buffer.length + chunk.length then
    ([], ⟨[], s.start + s.buffer.length + chunk.length⟩)
  else
    Receiver.loop (s.buffer ++ chunk).length ⟨s.buffer ++ chunk, s.start⟩

/-- A receive branch as a machine, watched. -/
def watchedReceiver (size : ℕ) : Machine Receiver Bytes (List Handed) where
  init := ⟨[], 0⟩
  step s chunk := (s.receive size chunk).swap

/-- The lines a run hands on. -/
def handedOn (size : ℕ) (chunks : List Bytes) : List Handed :=
  ((watchedReceiver size).trace chunks).flatMap Prod.snd

/-- The place is the beginning of the stream, or right behind a newline. -/
def AtLineStart (stream : Bytes) (start : ℕ) : Prop :=
  start = 0 ∨ stream[start - 1]? = some Ascii.lf

/-- What is handed on lies in the stream up to a newline, less one CR. -/
def Ends (stream : Bytes) (h : Handed) : Prop :=
  ∃ raw after, Ascii.lf ∉ raw ∧ stream.drop h.start = raw ++ Ascii.lf :: after ∧
    h.line.text = stripCr raw

/-- **A complete line of the stream.** -/
def WholeLine (stream : Bytes) (h : Handed) : Prop := AtLineStart stream h.start ∧ Ends stream h

/-! ## When a line is torn -/

/-- The chunk does not fit behind what is in the buffer. -/
def overflows (size : ℕ) (buffer chunk : Bytes) : Bool := size < buffer.length + chunk.length

/-- The line being gathered has lost its beginning: of the chunks so far one did not fit, and
did not end in a newline; and since then all have fitted, and none had a newline in it. -/
def Torn (size : ℕ) (chunks : List Bytes) : Prop :=
  ∃ before chunk between, chunks = before ++ chunk :: between ∧
    overflows size ((lineReceiver (receiveChunk size)).state before) chunk = true ∧
    chunk.getLast? ≠ some Ascii.lf ∧
    (lineReceiver (receiveChunk size)).EveryStepFrom
      (fun buffer next => !overflows size buffer next)
      ((lineReceiver (receiveChunk size)).state (before ++ [chunk])) between ∧
    Ascii.lf ∉ between.flatten

/-- No line that has lost its beginning gets its newline. -/
def NoneTorn (size : ℕ) (chunks : List Bytes) : Prop :=
  ∀ before chunk after, chunks = before ++ chunk :: after → Torn size before →
    overflows size ((lineReceiver (receiveChunk size)).state before) chunk = false →
    Ascii.lf ∉ chunk

/-! ## Watching changes nothing -/

variable {size : ℕ} {s : Receiver} {stream chunk : Bytes} {chunks : List Bytes}

theorem Receiver.loop_lines (turns : ℕ) (s : Receiver) :
    ((s.loop turns).1.map Handed.line, (s.loop turns).2.buffer) =
      lineParserLoop turns s.buffer := by
  induction turns generalizing s with
  | zero => rfl
  | succ turns ih =>
    rw [Receiver.loop, lineParserLoop]
    cases lineParserTurn s.buffer with
    | none => rfl
    | some p =>
      have hrest := ih ⟨p.2, s.start + (s.buffer.length - p.2.length)⟩
      simp only [List.map_cons]
      rw [← hrest]

/-- The lines handed on, and the buffer, are those of the branch itself. -/
theorem Receiver.receive_lines (size : ℕ) (s : Receiver) (chunk : Bytes) :
    ((s.receive size chunk).1.map Handed.line, (s.receive size chunk).2.buffer) =
      receiveChunk size s.buffer chunk := by
  rw [Receiver.receive, receiveChunk]
  split
  · rfl
  · exact Receiver.loop_lines _ _

theorem watchedReceiver_lines (size : ℕ) (chunks : List Bytes) :
    ((watchedReceiver size).state chunks).buffer =
        (lineReceiver (receiveChunk size)).state chunks ∧
      ((watchedReceiver size).trace chunks).map (fun p => (p.1, p.2.map Handed.line)) =
        (lineReceiver (receiveChunk size)).trace chunks := by
  refine (watchedReceiver size).simulation (N := lineReceiver (receiveChunk size))
    (R := fun s buffer => s.buffer = buffer) (List.map Handed.line) rfl ?_ chunks
  rintro s _ chunk rfl
  have hstep := Receiver.receive_lines size s chunk
  exact ⟨congrArg Prod.snd hstep, congrArg Prod.fst hstep⟩

theorem buffer_eq (chunks : List Bytes) :
    ((watchedReceiver size).state chunks).buffer =
      (lineReceiver (receiveChunk size)).state chunks :=
  (watchedReceiver_lines size chunks).1

/-- The lines of the branch are those handed on. -/
theorem handedOn_lines (size : ℕ) (chunks : List Bytes) :
    ((lineReceiver (receiveChunk size)).trace chunks).flatMap Prod.snd =
      (handedOn size chunks).map Handed.line := by
  rw [← (watchedReceiver_lines size chunks).2, handedOn, List.flatMap_map, List.map_flatMap]

theorem handedOn_concat (chunks : List Bytes) (chunk : Bytes) :
    handedOn size (chunks ++ [chunk]) = handedOn size chunks ++
      (((watchedReceiver size).state chunks).receive size chunk).1 := by
  rw [handedOn, Machine.trace_concat, List.flatMap_append, List.flatMap_singleton]
  rfl

/-! ## One chunk -/

/-- More of the stream changes nothing about a place in it. -/
theorem atLineStart_append {start : ℕ} (h : start ≤ stream.length) (more : Bytes) :
    AtLineStart (stream ++ more) start ↔ AtLineStart stream start := by
  refine or_congr_right' fun hpos => ?_
  rw [List.getElem?_append_left (by omega)]

theorem Ends.append {h : Handed} (hends : Ends stream h) (more : Bytes) :
    Ends (stream ++ more) h := by
  obtain ⟨raw, after, hraw, hdrop, htext⟩ := hends
  have hle : h.start ≤ stream.length := by
    by_contra hlt
    rw [List.drop_eq_nil_of_le (by omega)] at hdrop
    exact absurd hdrop (by simp)
  refine ⟨raw, after ++ more, hraw, ?_, htext⟩
  rw [List.drop_append_of_le_length hle, hdrop, List.append_assoc, List.cons_append]

theorem Ends.start_le {h : Handed} (hends : Ends stream h) : h.start ≤ stream.length := by
  obtain ⟨raw, after, -, hdrop, -⟩ := hends
  by_contra hlt
  rw [List.drop_eq_nil_of_le (by omega)] at hdrop
  exact absurd hdrop (by simp)

/-- The buffer is the end of the stream, from where it begins. -/
structure Receiver.Holds (s : Receiver) (stream : Bytes) : Prop where
  start_le : s.start ≤ stream.length
  drop : stream.drop s.start = s.buffer

theorem Receiver.Holds.length (h : s.Holds stream) :
    s.start + s.buffer.length = stream.length := by
  have hlength := congrArg List.length h.drop
  rw [List.length_drop] at hlength
  have := h.start_le
  omega

theorem Receiver.Holds.append (h : s.Holds stream) (chunk : Bytes) :
    Receiver.Holds ⟨s.buffer ++ chunk, s.start⟩ (stream ++ chunk) where
  start_le := h.start_le.trans (by rw [List.length_append]; omega)
  drop := by rw [List.drop_append_of_le_length h.start_le, h.drop]

/-- A turn of the loop moves the buffer on behind a newline. -/
theorem Receiver.Holds.turn (h : s.Holds stream) {line : Line} {rest : Bytes}
    (hturn : lineParserTurn s.buffer = some (line, rest)) :
    Ends stream ⟨s.start, line⟩ ∧
      Receiver.Holds ⟨rest, s.start + (s.buffer.length - rest.length)⟩ stream ∧
      AtLineStart stream (s.start + (s.buffer.length - rest.length)) := by
  obtain ⟨raw, hraw, hbuffer, htext⟩ := lineParserTurn_eq_some hturn
  have hlength := h.length
  have htaken : s.buffer.length - rest.length = raw.length + 1 := by
    rw [hbuffer, List.length_append, List.length_cons]
    omega
  have hsplit : stream.drop s.start = (raw ++ [Ascii.lf]) ++ rest := by
    rw [h.drop, hbuffer, List.append_assoc, List.singleton_append]
  have hlt : raw.length < s.buffer.length := by
    rw [hbuffer, List.length_append, List.length_cons]
    omega
  refine ⟨⟨raw, rest, hraw, h.drop.trans hbuffer, htext⟩, ⟨?_, ?_⟩, ?_⟩
  · rw [htaken]
    show s.start + (raw.length + 1) ≤ stream.length
    omega
  · rw [htaken, ← List.drop_drop, hsplit]
    exact List.drop_left' (by rw [List.length_append, List.length_singleton])
  · -- the byte before is the newline of the line
    right
    have hbyte : (stream.drop s.start)[raw.length]? = some Ascii.lf := by
      rw [h.drop, hbuffer, List.getElem?_append_right le_rfl, Nat.sub_self]
      rfl
    rw [List.getElem?_drop] at hbyte
    rw [htaken]
    exact hbyte

/-- **The loop** takes every newline out of the buffer. The first line begins where the
buffer did, and every other one at the beginning of a line, as does what is left. -/
theorem Receiver.Holds.loop (h : s.Holds stream) {turns : ℕ} (hturns : s.buffer.length ≤ turns) :
    (s.loop turns).2.Holds stream ∧ Ascii.lf ∉ (s.loop turns).2.buffer ∧
      (∀ l ∈ (s.loop turns).1, Ends stream l) ∧
      (Ascii.lf ∉ s.buffer → s.loop turns = ([], s)) ∧
      (Ascii.lf ∈ s.buffer → ∃ line rest, (s.loop turns).1 = ⟨s.start, line⟩ :: rest ∧
        (∀ l ∈ rest, AtLineStart stream l.start) ∧
        AtLineStart stream (s.loop turns).2.start) := by
  induction turns generalizing s with
  | zero =>
    have hempty : s.buffer = [] := List.eq_nil_of_length_eq_zero (by omega)
    refine ⟨h, ?_, nofun, fun _ => rfl, fun hlf => ?_⟩
    · rw [Receiver.loop, hempty]
      exact List.not_mem_nil
    · rw [hempty] at hlf
      exact absurd hlf List.not_mem_nil
  | succ turns ih =>
    by_cases hlf : Ascii.lf ∈ s.buffer
    · obtain ⟨line, rest, hturn⟩ := exists_lineParserTurn hlf
      obtain ⟨hends, hrest, hstart⟩ := h.turn hturn
      have hless := length_lt_of_lineParserTurn hturn
      obtain ⟨hholds, hnone, hlines, hquiet, hmore⟩ := ih hrest
        (show rest.length ≤ turns by omega)
      have hloop : s.loop (turns + 1) =
          (⟨s.start, line⟩ ::
              (Receiver.loop turns ⟨rest, s.start + (s.buffer.length - rest.length)⟩).1,
            (Receiver.loop turns ⟨rest, s.start + (s.buffer.length - rest.length)⟩).2) := by
        rw [Receiver.loop, hturn]
      rw [hloop]
      refine ⟨hholds, hnone, ?_, fun hno => absurd hlf hno, fun _ => ⟨line, _, rfl, ?_⟩⟩
      · intro l hl
        rcases List.mem_cons.mp hl with rfl | hl
        · exact hends
        · exact hlines l hl
      -- the second line begins where the first one ended
      · by_cases hagain : Ascii.lf ∈ rest
        · obtain ⟨line', rest', hfirst, hstarts, hleft⟩ := hmore hagain
          refine ⟨fun l hl => ?_, hleft⟩
          rw [hfirst] at hl
          rcases List.mem_cons.mp hl with rfl | hl
          · exact hstart
          · exact hstarts l hl
        · rw [hquiet hagain]
          exact ⟨nofun, hstart⟩
    · have hloop : s.loop (turns + 1) = ([], s) := by
        rw [Receiver.loop, lineParserTurn_of_not_mem hlf]
      rw [hloop]
      exact ⟨h, hlf, nofun, fun _ => rfl, fun hmem => absurd hmem hlf⟩

/-- The buffer between two chunks: there is no newline in it. -/
structure Receiver.Waits (s : Receiver) (stream : Bytes) : Prop extends s.Holds stream where
  noLf : Ascii.lf ∉ s.buffer

/-- What a chunk can do. -/
inductive ReceiveEffect (size : ℕ) (s : Receiver) (stream chunk : Bytes) :
    List Handed × Receiver → Prop
  /-- It does not fit: nothing is handed on, and the stream is taken up again behind it. -/
  | dropped : overflows size s.buffer chunk = true →
      ReceiveEffect size s stream chunk ([], ⟨[], (stream ++ chunk).length⟩)
  /-- It has no newline in it. -/
  | gathered : overflows size s.buffer chunk = false → Ascii.lf ∉ chunk →
      ReceiveEffect size s stream chunk ([], ⟨s.buffer ++ chunk, s.start⟩)
  /-- Its first newline ends the line that is being gathered. -/
  | handed (line : Line) (rest : List Handed) (s' : Receiver) :
      overflows size s.buffer chunk = false → Ascii.lf ∈ chunk →
      Ends (stream ++ chunk) ⟨s.start, line⟩ →
      (∀ l ∈ rest, WholeLine (stream ++ chunk) l) → AtLineStart (stream ++ chunk) s'.start →
      ReceiveEffect size s stream chunk (⟨s.start, line⟩ :: rest, s')

/-- **One chunk.** -/
theorem Receiver.Waits.receive (h : s.Waits stream) (size : ℕ) (chunk : Bytes) :
    (s.receive size chunk).2.Waits (stream ++ chunk) ∧
      ReceiveEffect size s stream chunk (s.receive size chunk) := by
  rw [Receiver.receive]
  split
  · rename_i hover
    have hend : s.start + s.buffer.length + chunk.length = (stream ++ chunk).length := by
      rw [h.length, List.length_append]
    rw [hend]
    refine ⟨⟨⟨le_rfl, List.drop_length⟩, List.not_mem_nil⟩, .dropped ?_⟩
    exact decide_eq_true hover
  · rename_i hfits
    have hover : overflows size s.buffer chunk = false := decide_eq_false hfits
    have hloop := (h.append chunk).loop (le_refl (s.buffer ++ chunk).length)
    generalize Receiver.loop (s.buffer ++ chunk).length ⟨s.buffer ++ chunk, s.start⟩ = result
      at hloop ⊢
    obtain ⟨handed, s'⟩ := result
    obtain ⟨hholds, hnone, hlines, hquiet, hmore⟩ := hloop
    refine ⟨⟨hholds, hnone⟩, ?_⟩
    by_cases hlf : Ascii.lf ∈ chunk
    · obtain ⟨line, rest, rfl, hstarts, hleft⟩ := hmore (List.mem_append_right _ hlf)
      refine .handed line rest s' hover hlf (hlines _ (List.mem_cons_self ..)) ?_ hleft
      exact fun l hl => ⟨hstarts l hl, hlines l (List.mem_cons_of_mem _ hl)⟩
    · rw [hquiet (by rw [List.mem_append]; exact not_or.mpr ⟨h.noLf, hlf⟩)]
      exact .gathered hover hlf

/-! ## Every stream, in any chunks -/

theorem watchedReceiver_waits (size : ℕ) (chunks : List Bytes) :
    ((watchedReceiver size).state chunks).Waits chunks.flatten := by
  induction chunks using List.reverseRecOn with
  | nil => exact ⟨⟨le_rfl, rfl⟩, List.not_mem_nil⟩
  | append_singleton chunks chunk ih =>
    rw [Machine.state_concat, List.flatten_append, List.flatten_singleton]
    exact (ih.receive size chunk).1

/-- Behind bytes thrown away the stream goes on at the beginning of a line just if the last
of them is a newline. -/
theorem atLineStart_dropped (h : s.Waits stream) (hover : overflows size s.buffer chunk = true) :
    AtLineStart (stream ++ chunk) (stream ++ chunk).length ↔
      chunk.getLast? = some Ascii.lf := by
  have hlast : AtLineStart (stream ++ chunk) (stream ++ chunk).length ↔
      (stream ++ chunk).getLast? = some Ascii.lf := by
    rw [AtLineStart, List.getLast?_eq_getElem?, or_iff_right_iff_imp]
    intro hempty
    have hover := of_decide_eq_true hover
    have hlength := h.length
    rw [List.length_append] at hempty
    omega
  rw [hlast, List.getLast?_append]
  cases hchunk : chunk.getLast? with
  | some b => rfl
  | none =>
    -- an empty chunk: the last byte is in the buffer
    refine iff_of_false (fun hlf => h.noLf ?_) (by simp)
    obtain rfl : chunk = [] := List.getLast?_eq_none_iff.mp hchunk
    have hover := of_decide_eq_true hover
    rw [Option.none_or, ← List.take_append_drop s.start stream, h.drop, List.getLast?_append] at hlf
    cases hbuffer : s.buffer.getLast? with
    | some b =>
      rw [hbuffer, Option.some_or, Option.some.injEq] at hlf
      rw [← hlf]
      exact List.mem_of_getLast? hbuffer
    | none =>
      rw [List.getLast?_eq_none_iff.mp hbuffer] at hover
      exact absurd hover (by simp)

/-- A line loses its beginning to a chunk that does not fit, and only to that. -/
theorem torn_concat (chunks : List Bytes) (chunk : Bytes) :
    Torn size (chunks ++ [chunk]) ↔
      (overflows size ((lineReceiver (receiveChunk size)).state chunks) chunk = true ∧
        chunk.getLast? ≠ some Ascii.lf) ∨
      (Torn size chunks ∧
        overflows size ((lineReceiver (receiveChunk size)).state chunks) chunk = false ∧
        Ascii.lf ∉ chunk) := by
  constructor
  · rintro ⟨before, first, between, hsplit, hover, hlast, hfit, hquiet⟩
    -- the chunk that does not fit is the last one, or one before it
    obtain rfl | ⟨init, last, rfl⟩ := between.eq_nil_or_concat
    · obtain ⟨rfl, hchunk⟩ := List.append_inj' hsplit rfl
      rw [List.singleton_inj.mp hchunk]
      exact .inl ⟨hover, hlast⟩
    · rw [List.concat_eq_append] at hsplit hfit hquiet
      rw [← List.cons_append, ← List.append_assoc] at hsplit
      obtain ⟨rfl, hchunk⟩ := List.append_inj' hsplit rfl
      obtain rfl := List.singleton_inj.mp hchunk
      obtain ⟨hinit, hchunk⟩ := (Machine.everyStepFrom_append _).mp hfit
      rw [List.flatten_append, List.mem_append, not_or] at hquiet
      rw [Machine.stateFrom_state, List.append_assoc, List.singleton_append] at hchunk
      refine .inr ⟨⟨before, first, init, rfl, hover, hlast, hinit, hquiet.1⟩, ?_, ?_⟩
      · exact (Bool.not_eq_true' _).mp hchunk.1
      · exact fun hlf => hquiet.2 (by rw [List.flatten_singleton]; exact hlf)
  · rintro (⟨hover, hlast⟩ |
      ⟨⟨before, first, between, rfl, hover, hlast, hfit, hquiet⟩, hfits, hlf⟩)
    · exact ⟨chunks, chunk, [], rfl, hover, hlast, trivial, List.not_mem_nil⟩
    · refine ⟨before, first, between ++ [chunk], by simp, hover, hlast, ?_, ?_⟩
      · refine (Machine.everyStepFrom_append _).mpr ⟨hfit, ?_, trivial⟩
        rw [Machine.stateFrom_state, List.append_assoc, List.singleton_append]
        exact (Bool.not_eq_true' _).mpr hfits
      · rw [List.flatten_append, List.mem_append, List.flatten_singleton]
        exact not_or.mpr ⟨hquiet, hlf⟩

/-- **A line is torn** exactly if the buffer does not begin where a line does. -/
theorem torn_iff (size : ℕ) (chunks : List Bytes) :
    Torn size chunks ↔
      ¬ AtLineStart chunks.flatten ((watchedReceiver size).state chunks).start := by
  induction chunks using List.reverseRecOn with
  | nil =>
    refine iff_of_false ?_ (not_not.mpr (.inl rfl))
    rintro ⟨before, chunk, between, hsplit, -⟩
    exact absurd hsplit (by simp)
  | append_singleton chunks chunk ih =>
    have hwaits := watchedReceiver_waits size chunks
    have heffect := (hwaits.receive size chunk).2
    rw [torn_concat, ← buffer_eq, ih, Machine.state_concat, List.flatten_append,
      List.flatten_singleton]
    show _ ↔ ¬ AtLineStart _ (Receiver.receive size _ chunk).2.start
    generalize hresult : Receiver.receive size ((watchedReceiver size).state chunks) chunk = result
      at heffect ⊢
    cases heffect with
    | dropped hover =>
      rw [atLineStart_dropped hwaits hover]
      simp [hover]
    | gathered hover hlf =>
      rw [atLineStart_append hwaits.start_le]
      simp [hover, hlf]
    | handed line rest s' hover hlf _ _ hstart =>
      simp [hover, hlf, hstart]

theorem noneTorn_concat (chunks : List Bytes) (chunk : Bytes) :
    NoneTorn size (chunks ++ [chunk]) ↔ NoneTorn size chunks ∧ (Torn size chunks →
      overflows size ((lineReceiver (receiveChunk size)).state chunks) chunk = false →
      Ascii.lf ∉ chunk) := by
  constructor
  · intro h
    refine ⟨fun before first after hsplit => ?_, h chunks chunk [] rfl⟩
    exact h before first (after ++ [chunk]) (by rw [hsplit]; simp)
  · rintro ⟨hbefore, hlast⟩ before first after hsplit
    obtain rfl | ⟨init, last, rfl⟩ := after.eq_nil_or_concat
    · obtain ⟨rfl, hchunk⟩ := List.append_inj' hsplit rfl
      rw [← List.singleton_inj.mp hchunk]
      exact hlast
    · rw [List.concat_eq_append, ← List.cons_append, ← List.append_assoc] at hsplit
      obtain ⟨hinit, -⟩ := List.append_inj' hsplit rfl
      exact hbefore before first init hinit

/-- **What is handed on are complete lines**, exactly if no line that has lost its beginning
gets its newline. -/
theorem wholeLine_iff (size : ℕ) (chunks : List Bytes) :
    (∀ l ∈ handedOn size chunks, WholeLine chunks.flatten l) ↔ NoneTorn size chunks := by
  suffices h : (∀ l ∈ handedOn size chunks, Ends chunks.flatten l) ∧
      ((∀ l ∈ handedOn size chunks, WholeLine chunks.flatten l) ↔ NoneTorn size chunks) from h.2
  induction chunks using List.reverseRecOn with
  | nil =>
    refine ⟨nofun, iff_of_true nofun ?_⟩
    intro before chunk after hsplit
    exact absurd hsplit (by simp)
  | append_singleton chunks chunk ih =>
    obtain ⟨hends, hiff⟩ := ih
    have hwaits := watchedReceiver_waits size chunks
    have heffect := (hwaits.receive size chunk).2
    have hkeep : ∀ l ∈ handedOn size chunks,
        (WholeLine (chunks.flatten ++ chunk) l ↔ WholeLine chunks.flatten l) := by
      intro l hl
      have hl := hends l hl
      rw [WholeLine, WholeLine, atLineStart_append hl.start_le]
      exact and_congr_right' (iff_of_true (hl.append chunk) hl)
    have hold : (∀ l ∈ handedOn size chunks, WholeLine (chunks.flatten ++ chunk) l) ↔
        NoneTorn size chunks := by
      rw [← hiff]
      exact forall₂_congr hkeep
    rw [noneTorn_concat, ← hold, torn_iff, ← buffer_eq, handedOn_concat, List.flatten_append,
      List.flatten_singleton]
    simp only [List.forall_mem_append]
    generalize Receiver.receive size ((watchedReceiver size).state chunks) chunk = result
      at heffect ⊢
    have hendsOld : ∀ l ∈ handedOn size chunks, Ends (chunks.flatten ++ chunk) l :=
      fun l hl => (hends l hl).append chunk
    cases heffect with
    | dropped hover => exact ⟨⟨hendsOld, nofun⟩, by simp [hover]⟩
    | gathered hover hlf => exact ⟨⟨hendsOld, nofun⟩, by simp [hlf]⟩
    | handed line rest s' hover hlf hfirst hrest _ =>
      refine ⟨⟨hendsOld, ?_⟩, and_congr_right' ?_⟩
      · intro l hl
        rcases List.mem_cons.mp hl with rfl | hl
        · exact hfirst
        · exact (hrest l hl).2
      · -- of the lines this chunk ends, the first alone may be torn
        rw [List.forall_mem_cons, and_iff_left hrest, WholeLine, and_iff_left hfirst,
          atLineStart_append hwaits.start_le]
        simp [hover, hlf]

/-! ## The connections of the server link -/

/-- What `recv` can deliver into the read buffer. -/
def Received (size : ℕ) (chunk : Bytes) : Prop := chunk ≠ [] ∧ chunk.length ≤ size

/-- The lines of a run. -/
def linesOf (receive : Bytes → Bytes → List Line × Bytes) (chunks : List Bytes) : List Line :=
  ((lineReceiver receive).trace chunks).flatMap Prod.snd

/-- The lines handed on over a connection so far are those of its stream, cut into some
chunks. -/
def Connection.HandsLines (c : Connection) : Prop :=
  ∃ chunks, (∀ chunk ∈ chunks, Received serverLinkReadBufferSize chunk) ∧
    c.received = chunks.flatten ∧ c.handed <+: linesOf serverLinkReceive chunks

/-- The same with the buffer: what is still to be handed on is in it. -/
def Connection.Feeds (tcpBuffer : Bytes) (c : Connection) : Prop :=
  ∃ chunks, (∀ chunk ∈ chunks, Received serverLinkReadBufferSize chunk) ∧
    c.received = chunks.flatten ∧
    linesOf serverLinkReceive chunks = c.handed ++ (lineParserFeed tcpBuffer).1 ∧
    (lineReceiver serverLinkReceive).state chunks = (lineParserFeed tcpBuffer).2

/-- Between two chunks there is nothing left to hand on. -/
def Connection.Settled (tcpBuffer : Bytes) (c : Connection) : Prop :=
  c.Feeds tcpBuffer ∧ Ascii.lf ∉ tcpBuffer

/-- What holds of the connection at each call. -/
def LinkControl.Receives (tcpBuffer : Bytes) : LinkControl → Prop
  | .head none | .connecting | .stopped => True
  | .head (some c) | .polling c | .receiving c _ | .sending c _ => c.Settled tcpBuffer
  | .onLine c _ _ | .answering c _ _ => c.Feeds tcpBuffer

/-- **The invariant.** -/
structure ServerLink.Receives (s : ServerLink) : Prop where
  closed : ∀ c ∈ s.closed, c.HandsLines
  control : s.control.Receives s.tcpBuffer

variable {c : Connection}

theorem linesOf_concat (receive : Bytes → Bytes → List Line × Bytes) (chunks : List Bytes)
    (chunk : Bytes) :
    linesOf receive (chunks ++ [chunk]) = linesOf receive chunks ++
      (receive ((lineReceiver receive).state chunks) chunk).1 := by
  rw [linesOf, Machine.trace_concat, List.flatMap_append, List.flatMap_singleton]
  rfl

theorem Connection.Feeds.handsLines {tcpBuffer : Bytes} (h : c.Feeds tcpBuffer) :
    c.HandsLines := by
  obtain ⟨chunks, hreceived, hstream, hlines, -⟩ := h
  exact ⟨chunks, hreceived, hstream, hlines ▸ List.prefix_append _ _⟩

theorem Connection.settled_fresh : Connection.fresh.Settled [] :=
  ⟨⟨[], nofun, rfl, rfl, rfl⟩, List.not_mem_nil⟩

/-- A chunk comes in. -/
theorem Connection.Settled.receive {tcpBuffer chunk : Bytes} (h : c.Settled tcpBuffer)
    (hchunk : Received serverLinkReadBufferSize chunk) :
    Connection.Feeds
      (if serverLinkBufferSize < tcpBuffer.length + chunk.length then [] else tcpBuffer ++ chunk)
      { c with received := c.received ++ chunk } := by
  obtain ⟨⟨chunks, hreceived, hstream, hlines, hstate⟩, hquiet⟩ := h
  rw [lineParserFeed_of_not_mem hquiet, List.append_nil] at hlines
  rw [lineParserFeed_of_not_mem hquiet] at hstate
  have hbranch : serverLinkReceive tcpBuffer chunk = lineParserFeed
      (if serverLinkBufferSize < tcpBuffer.length + chunk.length then []
        else tcpBuffer ++ chunk) := by
    rw [serverLinkReceive, receiveChunk]
    split <;> rfl
  refine ⟨chunks ++ [chunk], ?_, ?_, ?_, ?_⟩
  · intro other hmem
    rcases List.mem_append.mp hmem with hmem | hmem
    · exact hreceived other hmem
    · rw [List.mem_singleton.mp hmem]
      exact hchunk
  · rw [List.flatten_append, List.flatten_singleton, ← hstream]
  · rw [linesOf_concat, hlines, hstate, hbranch]
  · rw [Machine.state_concat, ← hbranch]
    show (serverLinkReceive _ chunk).2 = _
    rw [hstate]

/-- A line more is handed on. -/
theorem Connection.Feeds.handed {tcpBuffer rest : Bytes} {line : Line} (h : c.Feeds tcpBuffer)
    (hturn : lineParserTurn tcpBuffer = some (line, rest)) :
    Connection.Feeds rest { c with handed := c.handed ++ [line] } := by
  obtain ⟨chunks, hreceived, hstream, hlines, hstate⟩ := h
  rw [lineParserFeed_of_turn hturn] at hlines hstate
  refine ⟨chunks, hreceived, hstream, ?_, hstate⟩
  rw [hlines, List.append_cons]

/-- No line is left. -/
theorem Connection.Feeds.settled {tcpBuffer : Bytes} (h : c.Feeds tcpBuffer)
    (hturn : lineParserTurn tcpBuffer = none) : c.Settled tcpBuffer := by
  refine ⟨h, fun hlf => ?_⟩
  obtain ⟨line, rest, hsome⟩ := exists_lineParserTurn hlf
  rw [hturn] at hsome
  cases hsome

/-- One connection more is closed. -/
theorem handsLines_concat {closed : List Connection} (h : ∀ c ∈ closed, c.HandsLines)
    (hc : c.HandsLines) : ∀ c' ∈ closed ++ [c], c'.HandsLines := by
  intro c' hc'
  rcases List.mem_append.mp hc' with hmem | hmem
  · exact h c' hmem
  · rw [List.mem_singleton.mp hmem]
    exact hc

/-- The invariant, call by call. What is written does not matter. -/
def receiving : LinkInvariant where
  unconnected s := ∀ c ∈ s.closed, c.HandsLines
  idle s c := (∀ c ∈ s.closed, c.HandsLines) ∧ c.Settled s.tcpBuffer
  sending s c _ := (∀ c ∈ s.closed, c.HandsLines) ∧ c.Settled s.tcpBuffer
  lines s c := (∀ c ∈ s.closed, c.HandsLines) ∧ c.Feeds s.tcpBuffer
  answering s c _ := (∀ c ∈ s.closed, c.HandsLines) ∧ c.Feeds s.tcpBuffer
  breakable _ := True
  take_unconnected _ _ h _ := h
  take_idle _ _ _ h _ := h
  opened _ h := ⟨h, Connection.settled_fresh⟩
  closed _ _ _ h := handsLines_concat h.1 h.2.1.handsLines
  begun _ _ _ h _ := h
  sending_turn _ _ _ _ _ h _ := h
  sent _ _ _ h _ := h
  broken _ c w h := handsLines_concat (c := c.wrote w) h.1 h.2.1.handsLines
  received _ _ _ h hne hlength := ⟨h.1, h.2.receive ⟨hne, hlength⟩⟩
  handed _ _ _ _ h hturn := ⟨h.1, h.2.handed hturn⟩
  quiet _ _ h hturn := ⟨h.1, h.2.settled hturn⟩
  refused _ _ _ _ _ h _ := h
  answering_turn _ _ _ _ _ h _ := h
  answered _ _ _ h _ := h
  answer_broken _ _ _ h _ := h

namespace ServerLink

variable {s : ServerLink}

/-- It says the same. -/
theorem receives_iff : s.Receives ↔ receiving.Holds s := by
  have hreceives : s.Receives ↔
      (∀ c ∈ s.rest.closed, c.HandsLines) ∧ s.control.Receives s.tcpBuffer :=
    ⟨fun h => ⟨h.closed, h.control⟩, fun h => ⟨h.1, h.2⟩⟩
  rw [hreceives]
  unfold LinkInvariant.Holds LinkControl.Receives
  cases s.control with
  | head connection =>
    cases connection with
    | none => exact and_iff_left trivial
    | some c => exact Iff.rfl
  | connecting | stopped => exact and_iff_left trivial
  | sending c w | answering c w hungUp => exact Iff.rfl
  | polling c | receiving c hungUp | onLine c line hungUp => exact Iff.rfl

/-- **One call.** -/
theorem Receives.step (h : s.Receives) (e : LinkEvent) : (serverLinkStep s e).Receives :=
  receives_iff.mpr ((receives_iff.mp h).step e fun _ _ _ _ _ _ _ => trivial)

theorem Receives.connections (h : s.Receives) : ∀ c ∈ s.connections, c.HandsLines := by
  refine (receives_iff.mp h).connections ?_ ?_ ?_ ?_ ?_
  · intro h
    exact h
  · rintro c ⟨h, hc⟩
    exact ⟨hc.1.handsLines, h⟩
  · rintro c w ⟨h, hc⟩
    exact ⟨Connection.Feeds.handsLines hc.1, h⟩
  · rintro c ⟨h, hc⟩
    exact ⟨hc.handsLines, h⟩
  · rintro c w ⟨h, hc⟩
    exact ⟨Connection.Feeds.handsLines hc, h⟩

end ServerLink

/-- **The lines of a connection** of the server link are those of its receive branch. -/
theorem serverLink_handsLines (events : List LinkEvent) :
    ∀ c ∈ (serverLinkWorker.state events).connections, c.HandsLines := by
  have hstart : serverLinkWorker.init.Receives := ⟨nofun, trivial⟩
  exact (serverLinkWorker.invariant hstart (fun s e hs => hs.step e)
    (serverLinkWorker.reachable_state events)).connections

/-- **Only complete lines are interpreted**, on either side, exactly if no line that has lost
its beginning to an overflow gets its newline: for every stream, cut in any way, what the
receive branch hands on are complete lines of the stream just if each chunk that does not
fit ends in a newline, or the next newline comes after another such chunk. -/
theorem whole_lines_iff (chunks : List Bytes) :
    (linesOf wifiClientReceive chunks =
        (handedOn wifiClientBufferSize chunks).map Handed.line ∧
      ((∀ l ∈ handedOn wifiClientBufferSize chunks, WholeLine chunks.flatten l) ↔
        NoneTorn wifiClientBufferSize chunks)) ∧
    (linesOf serverLinkReceive chunks =
        (handedOn serverLinkBufferSize chunks).map Handed.line ∧
      ((∀ l ∈ handedOn serverLinkBufferSize chunks, WholeLine chunks.flatten l) ↔
        NoneTorn serverLinkBufferSize chunks)) :=
  ⟨⟨handedOn_lines _ chunks, wholeLine_iff _ chunks⟩,
    ⟨handedOn_lines _ chunks, wholeLine_iff _ chunks⟩⟩

/-- A line of 1281 bytes, in chunks of what the read buffer takes: the fifth does not fit. -/
def overlongLine : List Bytes :=
  List.replicate 5 (List.replicate wifiClientReadBufferSize 65) ++ [ascii "x\n"]

/-- Its last byte is handed on as a line. -/
theorem not_whole_lines_overlongLine :
    ¬ ((∀ chunks, (∀ chunk ∈ chunks, Received wifiClientReadBufferSize chunk) →
          ∀ l ∈ handedOn wifiClientBufferSize chunks, WholeLine chunks.flatten l) ∨
        ∀ chunks, (∀ chunk ∈ chunks, Received serverLinkReadBufferSize chunk) →
          ∀ l ∈ handedOn serverLinkBufferSize chunks, WholeLine chunks.flatten l) := by
  have hchunks : ∀ chunk ∈ overlongLine, Received 256 chunk := by
    intro chunk hchunk
    rcases List.mem_append.mp hchunk with hchunk | hchunk
    · rw [List.eq_of_mem_replicate hchunk]
      exact ⟨by simp, by simp⟩
    · rw [List.mem_singleton.mp hchunk]
      exact ⟨by decide, by decide⟩
  have hhanded : (handedOn 1024 overlongLine).map (fun l => (l.start, l.line.text)) =
      [(1280, ascii "x")] := by decide +kernel
  have hbefore : overlongLine.flatten[1279]? = some 65 := by decide +kernel
  -- no newline stands before it
  have htorn : ∃ l ∈ handedOn 1024 overlongLine, ¬ WholeLine overlongLine.flatten l := by
    obtain ⟨l, hl, hplace⟩ := List.mem_map.mp (hhanded ▸ List.mem_singleton_self _)
    refine ⟨l, hl, fun hwhole => ?_⟩
    obtain ⟨hstart, -⟩ := Prod.mk.inj hplace
    obtain hzero | hnewline := hwhole.1
    · omega
    · rw [hstart, hbefore] at hnewline
      exact absurd hnewline (by decide)
  obtain ⟨l, hl, hnot⟩ := htorn
  rintro (h | h)
  · exact hnot (h overlongLine hchunks l hl)
  · exact hnot (h overlongLine hchunks l hl)

end SmartGateway
