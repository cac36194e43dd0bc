import SmartGateway.Server.ServerLoop

/-!
# The lines the server takes in

What the server reads from a gateway, over every connection it has. A connection that
brings more than the buffer takes is closed, and not read on in the middle of a line, and
a new client starts with an empty buffer: no line is ever put together out of pieces that
do not belong together. The node store is what these lines have made of it.
-/

namespace SmartGateway

/-! ## Streams -/

/-- The stream of a connection is the lines it has handed on, and a rest. -/
structure Connection.Cut (c : Connection) (raws : List Bytes) (rest : Bytes) : Prop where
  received : c.received = joinLines raws ++ rest
  lines : ∀ raw ∈ raws, Ascii.lf ∉ raw
  handed : c.handed.map Line.text = raws.map stripCr

/-- All lines of the stream have been handed on, each less one CR. -/
def Connection.AllLines (c : Connection) : Prop :=
  c.handed.map Line.text = (c.received.splitOn Ascii.lf).dropLast.map stripCr

/-- The lines handed on are the first of the stream. -/
def Connection.FirstLines (c : Connection) : Prop :=
  c.handed.map Line.text <+: (c.received.splitOn Ascii.lf).dropLast.map stripCr

/-- The lines handed on are those before a stretch that the buffer does not take: there is no
newline in it but at its very end, in the last bytes that arrived. -/
def Connection.Overlong (c : Connection) : Prop :=
  ∃ lines rest, c.received = lines ++ rest ∧ (lines = [] ∨ lines.getLast? = some Ascii.lf) ∧
    c.handed.map Line.text = (lines.splitOn Ascii.lf).dropLast.map stripCr ∧
    receiveBufferSize < rest.length ∧
    Ascii.lf ∉ rest.take (receiveBufferSize - tempBufferSize + 1)

variable {c : Connection} {raws : List Bytes} {rest : Bytes}

theorem joinLines_ends (raws : List Bytes) :
    joinLines raws = [] ∨ (joinLines raws).getLast? = some Ascii.lf := by
  obtain rfl | ⟨init, last, rfl⟩ := raws.eq_nil_or_concat
  · exact .inl rfl
  · right
    rw [List.concat_eq_append, joinLines_append]
    simp [joinLines]

/-- With no newline left, these are all lines. -/
theorem Connection.Cut.allLines (h : c.Cut raws rest) (hrest : Ascii.lf ∉ rest) : c.AllLines := by
  have hcut : CutInto c.received raws rest := ⟨h.received, h.lines, hrest⟩
  rw [Connection.AllLines, hcut.splitOn, List.dropLast_concat, h.handed]

theorem Connection.Cut.firstLines (h : c.Cut raws rest) : c.FirstLines := by
  have hne : rest.splitOn Ascii.lf ≠ [] := List.splitOn_ne_nil _ _
  rw [Connection.FirstLines, h.received, splitOn_joinLines_append h.lines,
    List.dropLast_append_of_ne_nil hne, List.map_append, h.handed]
  exact List.prefix_append _ _

theorem Connection.Cut.overlong {buffer chunk : Bytes} (h : c.Cut raws (buffer ++ chunk))
    (hbuffer : Ascii.lf ∉ buffer) (hchunk : chunk.length ≤ tempBufferSize)
    (hover : receiveBufferSize < buffer.length + chunk.length) : c.Overlong := by
  refine ⟨joinLines raws, buffer ++ chunk, h.received, joinLines_ends raws, ?_, ?_, ?_⟩
  · have hsplit := splitOn_joinLines_append h.lines []
    rw [List.append_nil] at hsplit
    rw [hsplit, List.splitOn_nil, List.dropLast_concat, h.handed]
  · rw [List.length_append]
    exact hover
  · -- so many bytes are in the buffer already
    have hsize : receiveBufferSize - tempBufferSize + 1 ≤ buffer.length := by
      simp only [receiveBufferSize, tempBufferSize] at hchunk hover ⊢
      omega
    rw [List.take_append_of_le_length hsize]
    exact fun hlf => hbuffer (List.mem_of_mem_take hlf)

/-! ## Every run -/

/-- A connection the server is done with. -/
def Connection.Finished (c : Connection) : Prop :=
  (∃ raws rest, c.Cut raws rest) ∧ (c.AllLines ∨ c.Overlong)

/-- The buffer is the rest of the client's stream. -/
structure ServerHeld.Gathers (h : ServerHeld) : Prop where
  client : ∀ c, h.client = some c → ∃ raws, c.Cut raws h.buffer
  idle : h.feeding = .idle → ∀ c, h.client = some c → Ascii.lf ∉ h.buffer
  closed : ∀ c ∈ h.closed, c.Finished

namespace ServerHeld.Gathers

variable {h : ServerHeld}

/-- All lines of the client have been handed on, wherever the loop is idle. -/
theorem allLines (hh : h.Gathers) (hidle : h.feeding = .idle) (hc : h.client = some c) :
    c.AllLines := by
  obtain ⟨raws, hcut⟩ := hh.client c hc
  exact hcut.allLines (hh.idle hidle c hc)

/-- Closing it, or being left by it. -/
theorem finished_closed (hh : h.Gathers) (hidle : h.feeding = .idle) :
    ∀ c ∈ h.closed ++ h.client.toList, c.Finished := by
  intro c hc
  rcases List.mem_append.mp hc with hc | hc
  · exact hh.closed c hc
  · have hclient := Option.mem_toList.mp hc
    obtain ⟨raws, hcut⟩ := hh.client c hclient
    exact ⟨⟨raws, h.buffer, hcut⟩, .inl (hh.allLines hidle hclient)⟩

end ServerHeld.Gathers

/-- **A move keeps the stream together.** -/
theorem ServerMove.gathers {clean : Bool} {h h' : ServerHeld} (hh : h.Gathers)
    (hmove : ServerMove clean h h') : h'.Gathers := by
  cases hmove with
  | checked now hidle | skipped command retries | begun c command retries text
  | went c w w' turn | read line hidle | entered c line targetNode value now manager hidle =>
    exact ⟨hh.client, hh.idle, hh.closed⟩
  | ended c w hc hw hclean =>
    -- what is written to a connection has nothing to do with what it brings
    refine ⟨fun c' hc' => ?_, fun hidle _ _ => hh.idle hidle c hc, hh.closed⟩
    obtain ⟨raws, hcut⟩ := hh.client c hc
    obtain rfl := Option.some.inj hc'
    exact ⟨raws, hcut.received, hcut.lines, hcut.handed⟩
  | accepted hidle =>
    refine ⟨fun c hc => ?_, fun _ _ _ => List.not_mem_nil, hh.finished_closed hidle.feeding⟩
    obtain rfl := Option.some.inj hc
    exact ⟨[], rfl, fun raw hraw => absurd hraw List.not_mem_nil, rfl⟩
  | closed client buffer hidle hclient =>
    refine ⟨by simp, by simp, ?_⟩
    rw [← hclient]
    exact hh.finished_closed hidle.feeding
  | received c chunk hidle hc hchunk hfits =>
    refine ⟨fun c' hc' => ?_, by simp, hh.closed⟩
    obtain ⟨raws, hcut⟩ := hh.client c hc
    obtain rfl := Option.some.inj hc'
    exact ⟨raws, by rw [hcut.received, List.append_assoc], hcut.lines, hcut.handed⟩
  | overflowed c chunk hidle hc hchunk hover =>
    refine ⟨by simp, by simp, fun c' hc' => ?_⟩
    rcases List.mem_append.mp hc' with hc' | hc'
    · exact hh.closed c' hc'
    obtain ⟨raws, hcut⟩ := hh.client c hc
    rw [List.mem_singleton.mp hc']
    have hcut' : Connection.Cut { c with received := c.received ++ chunk } raws
        (h.buffer ++ chunk) :=
      ⟨by rw [hcut.received, List.append_assoc], hcut.lines, hcut.handed⟩
    exact ⟨⟨raws, _, hcut'⟩, .inr (hcut'.overlong (hh.idle hidle.feeding c hc) hchunk hover)⟩
  | handed c line rest hbetween hw hr hc hturn =>
    refine ⟨fun c' hc' => ?_, by simp, hh.closed⟩
    obtain ⟨raws, hcut⟩ := hh.client c hc
    obtain ⟨raw, hraw, hbuffer, htext⟩ := lineParserTurn_eq_some hturn
    obtain rfl := Option.some.inj hc'
    refine ⟨raws ++ [raw], ?_, fun raw' hmem => ?_, ?_⟩
    · rw [joinLines_append, hcut.received, hbuffer]
      simp [joinLines]
    · rcases List.mem_append.mp hmem with hmem | hmem
      · exact hcut.lines raw' hmem
      · rw [List.mem_singleton.mp hmem]
        exact hraw
    · rw [List.map_append, List.map_append, hcut.handed, List.map_singleton, htext]
      rfl
  | dispatched c line now hline hc => exact ⟨hh.client, by simp, hh.closed⟩
  | fed c hbetween hw hr hc hturn =>
    refine ⟨hh.client, fun _ c' hc' hlf => ?_, hh.closed⟩
    obtain ⟨line, rest, hsome⟩ := exists_lineParserTurn hlf
    exact absurd (hsome.symm.trans hturn) (by simp)

theorem server_gathers (events : List ServerEvent) :
    (serverMachine.state events).held.Gathers :=
  serverMachine_invariant (I := ServerHeld.Gathers)
    ⟨fun c (hc : none = some c) => by simp at hc, fun _ c (hc : none = some c) => by simp at hc,
      fun _ hc => absurd hc List.not_mem_nil⟩
    (fun _ _ _ => ServerMove.gathers) events

/-- The connections of a run, in their order. -/
def ServerHeld.connections (h : ServerHeld) : List Connection := h.closed ++ h.client.toList

theorem ServerHeld.Gathers.firstLines {h : ServerHeld} (hh : h.Gathers) :
    ∀ c ∈ h.connections, c.FirstLines := by
  intro c hc
  rcases List.mem_append.mp hc with hc | hc
  · obtain ⟨⟨raws, rest, hcut⟩, -⟩ := hh.closed c hc
    exact hcut.firstLines
  · obtain ⟨raws, hcut⟩ := hh.client c (Option.mem_toList.mp hc)
    exact hcut.firstLines

/-- **The server never tears a line.** On every connection, whatever becomes of it, the lines
handed on are the first lines of its own stream, in order, each once and less one CR. They
are all of them wherever the server is not inside `line_parser_feed`, and when the connection
is closed; unless it was closed for bringing more than the buffer takes without a newline. -/
theorem server_lines (events : List ServerEvent) :
    let held := (serverMachine.state events).held
    (∀ c ∈ held.connections, c.FirstLines) ∧
      (∀ c ∈ held.closed, c.AllLines ∨ c.Overlong) ∧
      (held.feeding = .idle → ∀ c, held.client = some c → c.AllLines) := by
  intro held
  have hheld : held.Gathers := server_gathers events
  exact ⟨hheld.firstLines, fun c hc => (hheld.closed c hc).2,
    fun hidle c hc => hheld.allLines hidle hc⟩

/-! ## What the lines make of the store -/

/-- What `on_line` makes of the store. -/
def lineStore (store : NodeStore) (line : Bytes) (now : ℤ) : NodeStore :=
  (onLine ⟨store, commandManagerCreate⟩ line now).1.store

/-- The command manager has no say in it. -/
theorem onLine_store (context : ServerContext) (line : Bytes) (now : ℤ) :
    (onLine context line now).1.store = lineStore context.store line now := by
  unfold lineStore onLine
  split
  · split <;> rfl
  split
  · split <;> rfl
  split
  · rfl
  · dsimp only
    split <;> rfl

/-- A line, and the time `on_line` was called with it. -/
structure LineCall where
  line : Line
  now : ℤ

/-- The calls of `on_line`, one after the other, on the store `main` starts with. -/
def replay (calls : List LineCall) : NodeStore :=
  calls.foldl (fun store call => lineStore store call.line.text call.now) serverStore

theorem replay_concat (calls : List LineCall) (call : LineCall) :
    replay (calls ++ [call]) = lineStore (replay calls) call.line.text call.now := by
  rw [replay, List.foldl_append]
  rfl

/-- The line the callback is at. -/
def Feeding.line : Feeding → List Line
  | .inLine line => [line]
  | .idle | .between => []

/-- The lines handed on so far, over all connections. -/
def ServerHeld.handed (h : ServerHeld) : List Line := h.connections.flatMap Connection.handed

/-- The store is what the lines handed on have made of it, but for the one in the callback. -/
def ServerHeld.Replays (h : ServerHeld) : Prop :=
  ∃ calls : List LineCall, h.handed = calls.map LineCall.line ++ h.feeding.line ∧
    h.context.store = replay calls

theorem ServerMove.replays {clean : Bool} {h h' : ServerHeld} (hh : h.Replays)
    (hmove : ServerMove clean h h') : h'.Replays := by
  obtain ⟨calls, hhanded, hstore⟩ := hh
  unfold ServerHeld.handed ServerHeld.connections at hhanded
  cases hmove with
  | checked now hidle | skipped command retries | begun c command retries text
  | went c w w' turn | read line hidle | entered c line targetNode value now manager hidle =>
    exact ⟨calls, hhanded, hstore⟩
  | ended c w hc hw hclean =>
    rw [hc] at hhanded
    refine ⟨calls, ?_, hstore⟩
    rw [← hhanded]
    simp [ServerHeld.handed, ServerHeld.connections, Connection.wrote]
  | accepted hidle =>
    refine ⟨calls, ?_, hstore⟩
    rw [← hhanded]
    simp [ServerHeld.handed, ServerHeld.connections, Connection.fresh]
  | closed client buffer hidle hclient =>
    refine ⟨calls, ?_, hstore⟩
    rw [← hhanded, hclient]
    simp [ServerHeld.handed, ServerHeld.connections]
  | received c chunk hidle hc hchunk hfits =>
    rw [hc, hidle.feeding] at hhanded
    refine ⟨calls, ?_, hstore⟩
    simpa [ServerHeld.handed, ServerHeld.connections, Feeding.line] using hhanded
  | overflowed c chunk hidle hc hchunk hover =>
    refine ⟨calls, ?_, hstore⟩
    rw [← hhanded, hc]
    simp [ServerHeld.handed, ServerHeld.connections]
  | handed c line rest hbetween hw hr hc hturn =>
    refine ⟨calls, ?_, hstore⟩
    rw [hc, hbetween] at hhanded
    simp only [ServerHeld.handed, ServerHeld.connections, Option.toList_some, List.flatMap_append,
      List.flatMap_singleton] at hhanded ⊢
    rw [← List.append_assoc, hhanded, Feeding.line, Feeding.line, List.append_nil]
  | dispatched c line now hline hc =>
    refine ⟨calls ++ [⟨line, now⟩], ?_, ?_⟩
    · rw [hline] at hhanded
      rw [List.map_append, Feeding.line, List.append_nil]
      exact hhanded
    · rw [replay_concat, ← hstore]
      exact onLine_store h.context line.text now
  | fed c hbetween hw hr hc hturn =>
    rw [hbetween] at hhanded
    exact ⟨calls, hhanded, hstore⟩

/-- **The store is a replay of the lines.** Whatever connections come and go, the node store
is what `on_line` makes of the lines handed on, in their order over all connections, each
once; the one line it may not have seen yet is the one in the callback. -/
theorem server_store (events : List ServerEvent) :
    let held := (serverMachine.state events).held
    ∃ calls : List LineCall, held.handed = calls.map LineCall.line ++ held.feeding.line ∧
      held.context.store = replay calls :=
  serverMachine_invariant (I := ServerHeld.Replays) ⟨[], rfl, rfl⟩
    (fun _ _ _ => ServerMove.replays) events

end SmartGateway
