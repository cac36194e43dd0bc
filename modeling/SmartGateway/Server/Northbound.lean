import SmartGateway.Gateway.LinkMoves
import SmartGateway.Gateway.QueuedLines
import SmartGateway.Lib.Lists
import SmartGateway.Server.ServerLines

/-!
# Northbound, put together

From the threads of the gateway through the queue, the server link and its connections to the
lines the server hears. A message whose send breaks off is sent again over the next
connection, and its first attempt is no line for the server; one that went out whole is out
of hand, whether or not it arrives. So nothing is heard twice or out of turn.
-/

namespace SmartGateway

open WriteLog

/-- The line the server makes of a text. -/
def UpText.line (text : UpText) : Bytes := stripCr text.text.dropLast

/-! ## One connection -/

/-- **What the server hears over a connection** of what was written to it: lines that were
written whole, from the first on. -/
theorem Connection.FirstLines.prefix_of_written {server link : Connection}
    (h : server.FirstLines) {taken : List GatewayMessage} (hlink : link.Done taken)
    (htaken : ∀ message ∈ taken, IsLine message.data)
    (hcame : server.received <+: out link.written) :
    server.handed.map Line.text <+:
      (wholeTexts link.written).map fun text => stripCr text.dropLast := by
  have hlines : ∀ w ∈ link.written, Delimited Ascii.lf w.text := by
    intro w hw
    rcases hlink.texts w hw with ⟨message, hmessage, htext⟩ | hnack
    · rw [← htext]
      exact htaken message hmessage
    · exact hnack.1
  obtain ⟨rest, hrest, hout⟩ := hlink.framed.out_delimited hlines
  have hwhole : ∀ text ∈ wholeTexts link.written, IsLine text := by
    intro text htext
    obtain ⟨w, hw, rfl⟩ := List.mem_map.mp htext
    exact hlines w (List.mem_of_mem_filter hw)
  have hheard := (splitOn_dropLast_mono hcame).map stripCr
  rw [hout, splitOn_flatten_lines hwhole hrest, List.map_map] at hheard
  exact List.IsPrefix.trans h hheard

/-! ## All connections -/

/-- Every connection of the link is framed. -/
theorem serverLink_done {events : List LinkEvent}
    (h : serverLinkWorker.EveryStep noBrokenAnswer events) :
    ∀ c ∈ (serverLinkWorker.state events).connections,
      c.Done (serverLinkWorker.state events).taken := by
  have hstart : serverLinkWorker.init.Sound :=
    ⟨⟨fun c hc => absurd hc List.not_mem_nil, fun m hm => absurd hm (by
      simp [serverLinkWorker])⟩, trivial⟩
  have hsound : (serverLinkWorker.state events).Sound :=
    serverLinkWorker.invariant_of_everyStep hstart (fun s e hs => serverLinkStep_sound hs) h
  exact hsound.connections

/-- **The link and the server.** The lines handed on are texts that went out whole, some of
them and in their order. -/
theorem heard_of_written {link : List LinkEvent} {server : List ServerEvent}
    (hanswers : serverLinkWorker.EveryStep noBrokenAnswer link)
    (htaken : ∀ message ∈ (serverLinkWorker.state link).taken, IsLine message.data)
    (hwire : List.SublistForall₂ (fun c l => c.received <+: out l.written)
      (serverMachine.state server).held.connections (serverLinkWorker.state link).connections) :
    ((serverMachine.state server).held.handed.map Line.text).Sublist
      ((wholeTexts ((serverLinkWorker.state link).connections.flatMap Connection.written)).map
        fun text => stripCr text.dropLast) := by
  have hlines := (server_gathers server).firstLines
  have hdone := serverLink_done hanswers
  rw [wholeTexts_flatMap, List.map_flatMap, ServerHeld.handed, List.map_flatMap]
  refine Lists.flatMap_sublist_flatMap hwire fun c hc l hl hcame => ?_
  exact ((hlines c hc).prefix_of_written (hdone l hl) htaken hcame).sublist

/-- What comes out of the queue was accepted, in this order. -/
theorem handedOut_prefix_accepted {τ : Type*} [DecidableEq τ] (moves : List (Move τ QueueCall)) :
    handedOutIn (messageQueueMonitor.passes moves) <+:
      acceptedIn (messageQueueMonitor.passes moves) := by
  obtain ⟨calls, hevents, -⟩ := messageQueueMonitor.passes_eq_trace moves
  rw [show messageQueueMonitor.passes moves = _ from hevents, ← (linearAfter_trace calls).fifo]
  exact List.prefix_append _ _

/-- **Nothing is heard twice or out of turn.** Take any run of the gateway's threads, of the
queue under any schedule, of the server link and of the server, such that what is accepted by
the queue is what the threads push, the link takes what the queue gives out, and each
connection of the server is one of the link's, in their order, and has brought a first part
of what was written to it. If no route NACK is broken off, then each line that the server
hands on is a message that the queue accepted or a route NACK; and the messages among them
are some of those accepted, each at most once and in the order of the queue, however often the
link was broken and a message sent again. -/
theorem heard_in_order {τ : Type*} [DecidableEq τ] (threadId : ℕ) (threads : List ThreadEvent)
    (moves : List (Move τ QueueCall)) (link : List LinkEvent) (server : List ServerEvent)
    (hpushed : ∀ message ∈ acceptedIn (messageQueueMonitor.passes moves),
      message.data ∈ (gatewayThreads threadId).log threadPushes threads)
    (htaken : (serverLinkWorker.state link).taken =
      handedOutIn (messageQueueMonitor.passes moves))
    (hanswers : serverLinkWorker.EveryStep noBrokenAnswer link)
    (hwire : List.SublistForall₂ (fun c l => c.received <+: out l.written)
      (serverMachine.state server).held.connections (serverLinkWorker.state link).connections) :
    ∃ heard : List UpText,
      (serverMachine.state server).held.handed.map Line.text = heard.map UpText.line ∧
      (heard.filterMap UpText.message?).Sublist (acceptedIn (messageQueueMonitor.passes moves)) ∧
      ∀ nack, UpText.route nack ∈ heard → RouteNack nack := by
  have hqueue := handedOut_prefix_accepted moves
  rw [← htaken] at hqueue
  have hlines : ∀ message ∈ (serverLinkWorker.state link).taken, IsLine message.data := by
    intro message hmessage
    obtain ⟨before, e, after, -, hpush⟩ :=
      (gatewayThreads threadId).exists_of_mem_log (hpushed message (hqueue.subset hmessage))
    exact gatewayThreads_lines threadId before e message.data hpush
  have hheard := heard_of_written hanswers hlines hwire
  obtain ⟨sources, ⟨htexts, hmessages, hroutes⟩, hsent⟩ := serverLink_sources link
  rw [← htexts, List.map_map] at hheard
  obtain ⟨heard, hsublist, hmap⟩ := List.sublist_map_iff.mp hheard
  refine ⟨heard, hmap, ?_, fun nack hnack => hroutes nack (hsublist.subset hnack)⟩
  have hmessages' := hsublist.filterMap UpText.message?
  rw [hmessages] at hmessages'
  exact hmessages'.trans (hsent.trans hqueue).sublist

/-- A WiFi node acknowledges a command. -/
def oneAckThreads : List ThreadEvent :=
  [.accepted 5 1, .wifi 0 (.turn true), .wifi 0 (.poll (.ready true false)),
    .wifi 0 (.read (.data Ascii.openBrace upMessage.data.tail)), .wifi 0 (.called 0)]

/-- Its thread pushes the line, and the link pops it. -/
def oneAckMoves : List (Move ℕ QueueCall) :=
  [.enter 0 (.push (some ⟨Vector.ofFn fun i => upMessage.data.getD i 0, upMessage.data.length⟩)) [],
    .enter 1 (.tryPop true) []]

/-- The link is broken after ten bytes of it, and sends it again. -/
def resentLink : List LinkEvent :=
  [.turn true (.ok upMessage), .connect true, .send (.sent 9), .send .timedOut, .turn true .empty,
    .connect true, .send (.sent 99)]

/-- The server gets the ten bytes, and over the next connection the line. -/
def resentServer : List ServerEvent :=
  [.turn true 0, .poll (.ready ⟨false, true, false, false⟩), .accept true,
    .turn true 0, .poll (.ready ⟨false, false, true, false⟩),
    .recv (.data Ascii.openBrace ((upMessage.data.take 10).tail)),
    .turn true 0, .poll (.ready ⟨false, true, false, false⟩), .accept true,
    .turn true 0, .poll (.ready ⟨false, false, true, false⟩),
    .recv (.data Ascii.openBrace upMessage.data.tail), .line 0]

/-- It is heard once. -/
theorem heard_in_order_resent :
    ∃ heard : List UpText,
      (serverMachine.state resentServer).held.handed.map Line.text = heard.map UpText.line ∧
      (heard.filterMap UpText.message?).Sublist
        (acceptedIn (messageQueueMonitor.passes oneAckMoves)) ∧
      (∀ nack, UpText.route nack ∈ heard → RouteNack nack) ∧ heard.length = 1 := by
  have hlengths : (serverMachine.state resentServer).held.connections.length =
      (serverLinkWorker.state resentLink).connections.length := by decide +kernel
  have hcame : ∀ p ∈ (serverMachine.state resentServer).held.connections.zip
      (serverLinkWorker.state resentLink).connections,
        p.1.received <+: out p.2.written := by decide +kernel
  have hone : (serverMachine.state resentServer).held.handed.length = 1 := by decide +kernel
  obtain ⟨heard, hlines, hmessages, hroutes⟩ := heard_in_order 0 oneAckThreads oneAckMoves
    resentLink resentServer (by decide +kernel) (by decide +kernel) (by decide +kernel)
    (List.sublistForall₂_iff.mpr ⟨_, List.forall₂_iff_zip.mpr ⟨hlengths, fun {a b} h =>
      hcame (a, b) h⟩, List.Sublist.refl _⟩)
  refine ⟨heard, hlines, hmessages, hroutes, ?_⟩
  have hlength := congrArg List.length hlines
  rw [List.length_map, List.length_map, hone] at hlength
  exact hlength.symm

end SmartGateway
