import SmartGateway.Common.FrameLog

/-!
# A log of frames, read in pieces

A line that loses bytes: its reader gets pieces of what was written, in their order. Each
piece read by itself gives the frames that lie in it whole, for what it begins with has no
`@` in it; and a reader that goes on from one log to the next loses no more than what did
not come of the one before.
-/

namespace SmartGateway

open WriteLog

/-! ## Frames -/

/-- The texts are frames. -/
def PlainLog (ws : List (Write Byte)) : Prop := ∀ w ∈ ws, ∃ frame, PlainFrame w.text frame

theorem PlainLog.sublist {ws vs : List (Write Byte)} (h : PlainLog ws) (hvs : vs.Sublist ws) :
    PlainLog vs := fun w hw => h w (hvs.subset hw)

theorem PlainLog.concat_cut {vs us : List (Write Byte)} {w : Write Byte}
    (h : PlainLog (vs ++ w :: us)) (n : ℕ) : PlainLog (vs ++ [cutWrite w n]) := by
  intro v hv
  rcases List.mem_append.mp hv with hv | hv
  · exact h v (List.mem_append_left _ hv)
  · rw [List.mem_singleton.mp hv]
    exact h w (by simp)

/-- Behind its first byte there is no `@` in a frame. -/
theorem PlainFrame.atSign_not_mem {text : Bytes} {frame : ParsedFrame} (h : PlainFrame text frame)
    {n : ℕ} (hn : 0 < n) : Ascii.atSign ∉ text.drop n := by
  obtain ⟨hex, htext, hhex⟩ := h.isFrame.spells
  have htail : Ascii.atSign ∉ text.drop 1 := by
    have hat := hhex.not_mem (b := Ascii.atSign) (by decide)
    simp [htext, h.atSign, hat]
  have hsplit : text.drop n = (text.drop 1).drop (n - 1) := by
    rw [List.drop_drop]
    congr 1
    omega
  rw [hsplit]
  exact fun hmem => htail (List.mem_of_mem_drop hmem)

/-- A parser that waits passes over what has no `@` in it. -/
theorem frameParserFeed_waiting {parser : FrameParser} (h : parser.collecting = false)
    {bytes : Bytes} (hbytes : Ascii.atSign ∉ bytes) :
    (frameParserFeed parser bytes).1.collecting = false ∧
      (frameParserFeed parser bytes).2 = [] := by
  induction bytes generalizing parser with
  | nil => exact ⟨h, rfl⟩
  | cons ch bytes ih =>
    rw [List.mem_cons, not_or] at hbytes
    have hbyte : (frameParserByte parser ch).1.collecting = false ∧
        (frameParserByte parser ch).2 = none := by
      rw [frameParserByte, if_neg (Ne.symm hbytes.1)]
      simp [h]
    obtain ⟨hwaits, hnone⟩ := ih hbyte.1 hbytes.2
    refine ⟨hwaits, ?_⟩
    change (frameParserByte parser ch).2.toList ++
      (frameParserFeed (frameParserByte parser ch).1 bytes).2 = []
    rw [hbyte.2, hnone]
    rfl

/-- **A log behind the end of a write**: what is left of that one is passed over. -/
theorem framesOf_log {front : Bytes} {ws : List (Write Byte)} (hfront : Ascii.atSign ∉ front)
    (hws : PlainLog ws) : framesOf (front ++ out ws) = (wholeTexts ws).flatMap framesOf := by
  obtain ⟨hwaits, hnone⟩ := frameParserFeed_waiting waiting_init hfront
  rw [framesOf, frameParserFeed_append, hnone]
  exact (tracks_of_waiting hwaits).feed_log hws

/-- **A piece of a log**, and what comes behind it: each gives the frames that lie in it
whole. -/
theorem exists_log_append {front a b : Bytes} {ws : List (Write Byte)}
    (hfront : Ascii.atSign ∉ front) (hws : PlainLog ws) (h : front ++ out ws = a ++ b) :
    ∃ front' vs back us, a = front' ++ out vs ∧ b = back ++ out us ∧
      Ascii.atSign ∉ front' ∧ Ascii.atSign ∉ back ∧ PlainLog vs ∧ PlainLog us ∧
      (wholeTexts vs ++ wholeTexts us).Sublist (wholeTexts ws) := by
  rcases List.append_eq_append_iff.mp h with ⟨more, rfl, hmore⟩ | ⟨more, rfl, rfl⟩
  · rcases out_eq_append hmore with ⟨vs, us, rfl, rfl, rfl⟩ |
      ⟨vs, w, us, n, rfl, hpos, hlt, rfl, rfl⟩
    · refine ⟨front, vs, [], us, rfl, rfl, hfront, List.not_mem_nil,
        hws.sublist (List.sublist_append_left _ _), hws.sublist (List.sublist_append_right _ _), ?_⟩
      rw [wholeTexts_append]
    · obtain ⟨frame, hplain⟩ := hws w (by simp)
      refine ⟨front, vs ++ [cutWrite w n], w.out.drop n, us, rfl, rfl, hfront, ?_,
        hws.concat_cut n, ?_, ?_⟩
      · rw [Write.out, List.drop_take]
        exact fun hmem => hplain.atSign_not_mem hpos (List.mem_of_mem_take hmem)
      · refine hws.sublist ((List.sublist_cons_self w us).trans (List.sublist_append_right _ _))
      · have hcut : wholeTexts [cutWrite w n] = [] :=
          wholeTexts_cutWrite (hlt.trans_le w.le)
        have hsplit : vs ++ w :: us = vs ++ ([w] ++ us) := rfl
        rw [wholeTexts_append, hcut, List.append_nil, hsplit, wholeTexts_append, wholeTexts_append]
        exact List.Sublist.append_left (List.sublist_append_right _ _) _
  · refine ⟨a, [], more, ws, by simp [out], rfl, ?_, ?_, fun _ h => absurd h List.not_mem_nil, hws,
      List.Sublist.refl _⟩
    · exact fun hmem => hfront (List.mem_append_left _ hmem)
    · exact fun hmem => hfront (List.mem_append_right _ hmem)

/-! ## Lines that lose bytes -/

/-- Pieces of a stream, in their order, with gaps between them. -/
inductive PiecesOf : List Bytes → Bytes → Prop
  | nil (stream : Bytes) : PiecesOf [] stream
  | cons {pieces : List Bytes} {rest : Bytes} (gap piece : Bytes) :
      PiecesOf pieces rest → PiecesOf (piece :: pieces) (gap ++ (piece ++ rest))

/-- Nothing is lost. -/
theorem PiecesOf.whole (stream : Bytes) : PiecesOf [stream] stream := by
  have hone := PiecesOf.cons [] stream (.nil [])
  rw [List.append_nil] at hone
  exact hone

/-- **The pieces of a log**, each read from its beginning by itself, give frames that were
written whole, each once and in their order. -/
theorem PiecesOf.framesOf_sublist {pieces : List Bytes} {stream : Bytes}
    (h : PiecesOf pieces stream) {front : Bytes} {ws : List (Write Byte)}
    (hstream : stream = front ++ out ws) (hfront : Ascii.atSign ∉ front) (hws : PlainLog ws) :
    (pieces.flatMap framesOf).Sublist ((wholeTexts ws).flatMap framesOf) := by
  induction h generalizing front ws with
  | nil stream => exact List.nil_sublist _
  | @cons pieces rest gap piece h ih =>
    obtain ⟨-, vs, back, us, -, hbehind, -, hback, -, hus, hfirst⟩ :=
      exists_log_append hfront hws hstream.symm
    obtain ⟨front', vs', back', us', hpiece, hrest, hfront', hback', hvs', hus', hsecond⟩ :=
      exists_log_append hback hus hbehind.symm
    rw [List.flatMap_cons, hpiece, framesOf_log hfront' hvs']
    refine (List.Sublist.append_left (ih hrest hback' hus') _).trans ?_
    rw [← List.flatMap_append]
    exact (hsecond.trans ((List.sublist_append_right _ _).trans hfirst)).flatMap framesOf

/-- What comes of some streams, one after the other, each as far as it came. -/
def CameOf (streams : List Bytes) (received : Bytes) : Prop :=
  ∃ came, List.Forall₂ (fun bytes stream => bytes <+: stream) came streams ∧
    received = came.flatten

/-- Nothing is lost. -/
theorem CameOf.whole (stream : Bytes) : CameOf [stream] stream :=
  ⟨[stream], .cons (List.prefix_refl stream) .nil, List.flatten_singleton.symm⟩

/-- **Logs one after the other**, each as far as it came: again a log, of no more whole
frames. -/
theorem CameOf.exists_log {logs : List (List (Write Byte))} {received : Bytes}
    (h : CameOf (logs.map out) received) (hlogs : ∀ ws ∈ logs, PlainLog ws) :
    ∃ vs, received = out vs ∧ PlainLog vs ∧
      (wholeTexts vs).Sublist (logs.flatMap wholeTexts) := by
  obtain ⟨came, hcame, rfl⟩ := h
  induction logs generalizing came with
  | nil =>
    cases hcame
    exact ⟨[], rfl, nofun, List.Sublist.refl _⟩
  | cons ws logs ih =>
    cases hcame with
    | @cons bytes _ came _ hbytes hcame =>
      obtain ⟨more, hmore⟩ := hbytes
      have hnone : Ascii.atSign ∉ ([] : Bytes) := List.not_mem_nil
      have hws := hlogs ws List.mem_cons_self
      obtain ⟨vs', hrest, hvs', hsub'⟩ :=
        ih (fun ws hws => hlogs ws (List.mem_cons_of_mem _ hws)) came hcame
      -- the log is cut where it stops
      have hcut : ∃ vs, bytes = out vs ∧ PlainLog vs ∧ (wholeTexts vs).Sublist (wholeTexts ws) := by
        rcases out_eq_append hmore.symm with ⟨vs, us, rfl, rfl, -⟩ |
          ⟨vs, w, us, n, rfl, -, hlt, rfl, -⟩
        · refine ⟨vs, rfl, hws.sublist (List.sublist_append_left _ _), ?_⟩
          rw [wholeTexts_append]
          exact List.sublist_append_left _ _
        · refine ⟨_, rfl, hws.concat_cut n, ?_⟩
          rw [wholeTexts_append, wholeTexts_append, wholeTexts_cutWrite (hlt.trans_le w.le),
            List.append_nil]
          exact List.sublist_append_left _ _
      obtain ⟨vs, rfl, hvs, hsub⟩ := hcut
      refine ⟨vs ++ vs', by rw [List.flatten_cons, hrest, out_append], ?_, ?_⟩
      · intro w hw
        rcases List.mem_append.mp hw with hw | hw
        · exact hvs w hw
        · exact hvs' w hw
      · rw [wholeTexts_append, List.flatMap_cons]
        exact hsub.append hsub'

end SmartGateway
