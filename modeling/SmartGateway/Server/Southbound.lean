import SmartGateway.Server.ServerCommands

/-!
# Framing towards the gateway

`send_all` of the server may fail with a part of a CMD line out, and nobody closes the
connection then: the next line comes right behind the piece. A run in which no send fails
half way keeps every connection framed.
-/

namespace SmartGateway

open Numeral WriteLog

/-- The line of a typed command is one line. -/
theorem isLine_typedLedCommand {line : Bytes} {targetNode : CharBuf 32} {value : ℤ}
    (h : TypedLed line targetNode value) (sequence : UInt32) :
    IsLine (commandLine (typedLedCommand targetNode value sequence) [Ascii.lf]) := by
  refine ⟨commandLine (typedLedCommand targetNode value sequence) [], ?_, ?_⟩
  · have htarget : Ascii.lf ∉ targetNode.bytes := by
      intro hlf
      have hspace := h.solid _ hlf
      exact absurd hspace (by decide)
    have hvalue : Ascii.lf ∉ decimalInt (BitVec.ofInt 32 value) := by
      intro hlf
      have hnumber := isNumberByte_of_mem_decimalInt hlf
      exact absurd hnumber (by decide)
    have hkey : Ascii.lf ∉ ledKey.bytes := by decide
    have hfields : Ascii.lf ∉ fieldsTail (ledFields value).1 [] := by
      refine UplinkMessage.lf_not_mem_fieldsTail fun f hf => ?_
      rw [List.mem_singleton.mp hf]
      exact ⟨hkey, hvalue⟩
    have hdecimal : Ascii.lf ∉ decimal sequence.toNat := not_mem_decimal (by decide)
    have hnames : Ascii.lf ∉ ascii "node" ∧ Ascii.lf ∉ ascii "sender" ∧
        Ascii.lf ∉ cmdSender.bytes ∧ Ascii.lf ∉ ascii "seq" ∧ Ascii.lf ∉ ascii "type" ∧
        Ascii.lf ∉ ascii "CMD" := by
      decide
    simp [commandLine, typedLedCommand, hnames.1, hnames.2.1, hnames.2.2.1, hnames.2.2.2.1,
      hnames.2.2.2.2.1, hnames.2.2.2.2.2, htarget, hdecimal, hfields]
  · simp [commandLine, fieldsTail]

/-- What a gateway has been sent over each connection, in their order; the text in
`send_all` is the last of the open one. -/
def ServerHeld.streams (h : ServerHeld) : List (List (Write Byte)) :=
  h.closed.map Connection.written ++
    (h.client.map fun c => c.written ++ h.writing.toList).toList

/-- Every text that was begun, and is not in `send_all`, was finished. -/
structure ServerHeld.Unbroken (h : ServerHeld) : Prop where
  closed : ∀ c ∈ h.closed, Intact c.written
  client : ∀ c, h.client = some c → Intact c.written

/-- **A clean move breaks nothing off.** -/
theorem ServerMove.unbroken {h h' : ServerHeld} (hh : h.Unbroken) (hmove : ServerMove true h h') :
    h'.Unbroken := by
  cases hmove with
  | checked now hidle | skipped command retries | begun c command retries text
  | went c w w' turn | read line hidle | entered c line targetNode value now manager hidle
  | dispatched c line now | fed c =>
    exact ⟨hh.closed, hh.client⟩
  | ended c w hc hw hclean =>
    refine ⟨hh.closed, fun c' hc' => ?_⟩
    obtain rfl := Option.some.inj hc'
    exact (hh.client c hc).concat (hclean rfl)
  | accepted hidle =>
    refine ⟨fun c hc => ?_, fun c hc => ?_⟩
    · rcases List.mem_append.mp hc with hc | hc
      · exact hh.closed c hc
      · exact hh.client c (Option.mem_toList.mp hc)
    · obtain rfl := Option.some.inj hc
      exact intact_nil
  | closed client buffer hidle hclient =>
    refine ⟨fun c hc => ?_, nofun⟩
    rcases List.mem_append.mp hc with hc | hc
    · exact hh.closed c hc
    · exact hh.client c (hclient.trans (Option.mem_toList.mp hc))
  | received c chunk hidle hc | handed c line rest hbetween hw hr hc =>
    refine ⟨hh.closed, fun c' hc' => ?_⟩
    obtain rfl := Option.some.inj hc'
    exact hh.client c hc
  | overflowed c chunk hidle hc =>
    refine ⟨fun c' hc' => ?_, nofun⟩
    rcases List.mem_append.mp hc' with hc' | hc'
    · exact hh.closed c' hc'
    · rw [List.mem_singleton.mp hc']
      exact hh.client c hc

/-- A run of clean steps. -/
theorem server_unbroken {events : List ServerEvent}
    (h : serverMachine.EveryStep cleanSend events) :
    (serverMachine.state events).held.Unbroken := by
  refine serverMachine.invariant_of_everyStep (I := fun s => s.held.Unbroken) ?_ ?_ h
  · exact ⟨fun c hc => absurd hc List.not_mem_nil, nofun⟩
  · intro s e hs hclean
    have hmoves := serverStep_moves s e
    rw [hclean] at hmoves
    change (serverStep s e).held.Unbroken
    generalize (serverStep s e).held = h' at hmoves ⊢
    induction hmoves with
    | refl => exact hs
    | tail _ hlast ih => exact hlast.unbroken ih

/-- **Southbound framing.** In a run in which no send fails half way, what a gateway gets on
each connection is whole CMD lines, one behind the other, then at most one that breaks off;
and each is the line of a typed command. -/
theorem southbound_framed (events : List ServerEvent)
    (h : serverMachine.EveryStep cleanSend events) :
    let held := (serverMachine.state events).held
    ∀ stream ∈ held.streams,
      (∃ whole last, FramedAs stream whole last ∧
        out stream = (whole.map Write.text).flatten ++ out last) ∧
      ∀ w ∈ stream, IsLine w.text ∧ ∃ line ∈ held.typed, ∃ targetNode value sequence,
        TypedLed line.bytes targetNode value ∧
          w.text = commandLine (typedLedCommand targetNode value sequence) [Ascii.lf] := by
  intro held stream hstream
  have hunbroken : held.Unbroken := server_unbroken h
  have hframed : Framed stream := by
    rcases List.mem_append.mp hstream with hstream | hstream
    · obtain ⟨c, hc, rfl⟩ := List.mem_map.mp hstream
      exact (hunbroken.closed c hc).framed
    · obtain ⟨c, hc, rfl⟩ := Option.mem_map.mp (Option.mem_toList.mp hstream)
      have hintact := hunbroken.client c hc
      cases held.writing with
      | none =>
        rw [Option.toList_none, List.append_nil]
        exact hintact.framed
      | some w => exact hintact.framed_concat w
  obtain ⟨whole, last, hsplit⟩ := hframed
  refine ⟨⟨whole, last, hsplit, hsplit.out_eq⟩, fun w hw => ?_⟩
  -- its text is among those that were handed to `send_all`
  have hattempt : w.text ∈ held.attempts := by
    refine List.mem_map_of_mem ?_
    rcases List.mem_append.mp hstream with hstream | hstream
    · obtain ⟨c, hc, rfl⟩ := List.mem_map.mp hstream
      exact List.mem_append_left _ (List.mem_flatMap.mpr ⟨c, List.mem_append_left _ hc, hw⟩)
    · obtain ⟨c, hc, rfl⟩ := Option.mem_map.mp (Option.mem_toList.mp hstream)
      rcases List.mem_append.mp hw with hw | hw
      · exact List.mem_append_left _ (List.mem_flatMap.mpr
          ⟨c, List.mem_append_right _ (Option.mem_toList.mpr hc), hw⟩)
      · exact List.mem_append_right _ hw
  obtain ⟨calls, tries, htries⟩ := server_tries events
  have htext := (List.mem_append_left held.pending hattempt)
  obtain ⟨command, hcommand, hbuilt⟩ := List.mem_filterMap.mp (htries.texts.subset htext)
  obtain ⟨line, hline, value, htyped, hled⟩ := htries.typed_of_mem hcommand
  rw [hled, messageJsonBuildCommand_typedLedCommand] at hbuilt
  rw [← Option.some.inj hbuilt]
  exact ⟨isLine_typedLedCommand htyped _, line, hline, command.targetNode, value, command.sequence,
    htyped, rfl⟩

/-- A client connects, a command is typed, and its line goes out in two pieces. -/
def typedRun : List ServerEvent :=
  [.turn true 100, .poll (.ready ⟨false, true, false, false⟩), .accept true,
    .turn true 100, .poll (.ready ⟨true, false, false, false⟩),
    .typed (some ⟨⟨ascii "led NODE01 1\n", by decide⟩, by decide⟩) 100, .send (.sent 9),
    .send .interrupted, .send (.sent 99)]

/-- The one stream of that run is framed. -/
theorem southbound_framed_typedRun :
    ∃ stream, (serverMachine.state typedRun).held.streams = [stream] ∧
      ∃ whole last, FramedAs stream whole last ∧
        out stream = (whole.map Write.text).flatten ++ out last := by
  have hone : (serverMachine.state typedRun).held.streams.length = 1 := by
    decide +kernel
  obtain ⟨stream, hstream⟩ := List.length_eq_one_iff.mp hone
  have hmem : stream ∈ (serverMachine.state typedRun).held.streams := by
    rw [hstream]
    exact List.mem_singleton_self stream
  exact ⟨stream, hstream, (southbound_framed typedRun (by decide +kernel) stream hmem).1⟩

end SmartGateway
