import SmartGateway.Tools.NodeAnswers

/-!
# What is heard of the mock node

The line from the node to the gateway: reports at their times, and replies between them.
A reply whose write fails is given up in the middle of a frame, and the loop goes on; the
gateway hears every frame that was written whole all the same, and nothing else.
-/

namespace SmartGateway

open WriteLog

/-! ## Reports -/

theorem length_reportFields (sequence : UInt32) :
    (reportFields sequence).length ≤ frameDataMaxFields := show 4 ≤ 16 by decide

/-- The report of a number, as a message. -/
def reportMessage (sequence : UInt32) : UplinkMessage :=
  .data ⟨.lit 32 "NODE01", sequence, ⟨reportFields sequence, length_reportFields sequence⟩⟩

theorem frameBuildDataKv_report {sequence : UInt32} {text : Bytes}
    (h : frameBuildDataKv frameMaxLen nodeName sequence (reportFields sequence) = .ok text) :
    (reportMessage sequence).buildFrame frameMaxLen = .ok text := by
  have hname : (CharBuf.lit 32 "NODE01").toCStr = nodeName := by decide +kernel
  rw [← hname] at h
  exact h

/-- A report the node has begun to write. -/
structure NodeReport where
  sequence : UInt32
  now : ℤ
  text : Bytes

/-- The number of the report after `n` others. -/
def reportNumber (n : ℕ) : UInt32 := UInt32.ofNat (n % 1000000)

theorem reportNumber_succ (n : ℕ) : (reportNumber n + 1) % 1000000 = reportNumber (n + 1) := by
  have hone : (1 : UInt32).toNat = 1 := rfl
  have hmillion : (1000000 : UInt32).toNat = 1000000 := rfl
  rw [← UInt32.toNat_inj, reportNumber, reportNumber, UInt32.toNat_mod, UInt32.toNat_add,
    UInt32.toNat_ofNat', UInt32.toNat_ofNat', hone, hmillion]
  omega

theorem toNat_reportNumber_lt (n : ℕ) : (reportNumber n).toNat < 1000000 := by
  rw [reportNumber, UInt32.toNat_ofNat']
  omega

/-- Reports in their numbers, each the text of its number, five seconds apart at least. -/
structure InTurn (start : ℤ) (reports : List NodeReport) : Prop where
  numbers : reports.map NodeReport.sequence = (List.range reports.length).map reportNumber
  texts : ∀ report ∈ reports,
    (reportMessage report.sequence).buildFrame frameMaxLen = .ok report.text
  apart : (reports.map NodeReport.now).Pairwise fun now later => now + 5 ≤ later
  begun : ∀ report ∈ reports, start ≤ report.now

theorem InTurn.concat {start nextReport : ℤ} {reports : List NodeReport}
    (h : InTurn start reports) {report : NodeReport}
    (hnumber : report.sequence = reportNumber reports.length)
    (htext : (reportMessage report.sequence).buildFrame frameMaxLen = .ok report.text)
    (hnext : ∀ before ∈ reports, before.now + 5 ≤ nextReport) (hstart : start ≤ nextReport)
    (hdue : nextReport ≤ report.now) : InTurn start (reports ++ [report]) := by
  refine ⟨?_, fun r hr => ?_, ?_, fun r hr => ?_⟩
  · rw [List.map_append, h.numbers, List.map_singleton, hnumber, List.length_append,
      List.length_singleton, List.range_succ, List.map_append, List.map_singleton]
  · rcases List.mem_append.mp hr with hr | hr
    · exact h.texts r hr
    · rw [List.mem_singleton.mp hr]
      exact htext
  · rw [List.map_append, List.map_singleton]
    refine List.pairwise_append.mpr ⟨h.apart, List.pairwise_singleton _ _, ?_⟩
    intro now hnow later hlater
    obtain ⟨before, hbefore, rfl⟩ := List.mem_map.mp hnow
    rw [List.mem_singleton.mp hlater]
    exact (hnext before hbefore).trans hdue
  · rcases List.mem_append.mp hr with hr | hr
    · exact h.begun r hr
    · rw [List.mem_singleton.mp hr]
      exact hstart.trans hdue

namespace MockNode

variable {failEvery : BitVec 32} {start : ℤ} {s : MockNode}

/-- The reports among some writes. -/
def reportsOf (ws : List (NodeCause × Write Byte)) : List NodeReport :=
  ws.filterMap fun write =>
    match write.1 with
    | .answer _ => none
    | .report sequence now => some ⟨sequence, now, write.2.text⟩

theorem reportsOf_append (ws vs : List (NodeCause × Write Byte)) :
    reportsOf (ws ++ vs) = reportsOf ws ++ reportsOf vs := List.filterMap_append

/-- The reports behind the node, and what is set for the next one. -/
structure Reports (start : ℤ) (s : MockNode) : Prop where
  inTurn : InTurn start (reportsOf s.wrote)
  number : (∀ code, s.control ≠ .stopped code) →
    s.sequence = reportNumber (reportsOf s.wrote).length
  next : (∀ code, s.control ≠ .stopped code) →
    ∀ report ∈ reportsOf s.wrote, report.now + 5 ≤ s.nextReport
  begun : start ≤ s.nextReport
  due : ∀ now w, s.control = .reporting now w → s.nextReport ≤ now ∧
    (reportMessage s.sequence).buildFrame frameMaxLen = .ok w.text

/-- Feeding writes nothing, and comes to a stop at the clock or at a reply. -/
theorem feed_frame (s : MockNode) (data : Bytes) :
    ((s.feed data).wrote = s.wrote ∧ (s.feed data).sequence = s.sequence ∧
      (s.feed data).nextReport = s.nextReport) ∧
      ((s.feed data).control = .asking ∨
        ∃ frame w rest, (s.feed data).control = .answering frame w rest) := by
  induction data generalizing s with
  | nil => exact ⟨⟨rfl, rfl, rfl⟩, .inl rfl⟩
  | cons ch data ih =>
    rw [feed]
    generalize frameParserByte s.parser ch = byte
    obtain ⟨parser, - | frame⟩ := byte
    · exact ih { s with parser := parser }
    · dsimp only
      generalize onNodeFrame s.context frame = called
      obtain ⟨context, - | - | text⟩ := called
      · exact ih _
      · exact ih _
      · exact ⟨⟨rfl, rfl, rfl⟩, .inr ⟨_, _, _, rfl⟩⟩

/-- A state with the same reports behind it. -/
theorem Reports.same (h : s.Reports start) {s' : MockNode}
    (hwrote : reportsOf s'.wrote = reportsOf s.wrote) (hsequence : s'.sequence = s.sequence)
    (hnext : s'.nextReport = s.nextReport) (hstopped : ∀ code, s.control ≠ .stopped code)
    (hreporting : ∀ now w, s'.control ≠ .reporting now w) : s'.Reports start := by
  refine ⟨by rw [hwrote]; exact h.inTurn, fun _ => ?_, fun _ => ?_, by rw [hnext]; exact h.begun,
    fun now w hc => absurd hc (hreporting now w)⟩
  · rw [hsequence, hwrote, h.number hstopped]
  · rw [hwrote, hnext]
    exact h.next hstopped

/-- Bytes are fed. -/
theorem Reports.feed (h : s.Reports start) {s' : MockNode} (data : Bytes)
    (hwrote : reportsOf s'.wrote = reportsOf s.wrote) (hsequence : s'.sequence = s.sequence)
    (hnext : s'.nextReport = s.nextReport) (hstopped : ∀ code, s.control ≠ .stopped code) :
    (s'.feed data).Reports start := by
  obtain ⟨⟨hwrote', hsequence', hnext'⟩, hcontrol⟩ := s'.feed_frame data
  refine h.same (by rw [hwrote', hwrote]) (hsequence'.trans hsequence) (hnext'.trans hnext)
    hstopped fun now w hc => ?_
  rcases hcontrol with hc' | ⟨frame, w, rest, hc'⟩
  all_goals
    rw [hc'] at hc
    exact absurd hc (by simp)

/-- With the report that is being written. -/
theorem Reports.concat (h : s.Reports start) (hstopped : ∀ code, s.control ≠ .stopped code)
    {now : ℤ} {w : Write Byte} (hdue : s.nextReport ≤ now)
    (htext : (reportMessage s.sequence).buildFrame frameMaxLen = .ok w.text) :
    InTurn start (reportsOf (s.wrote ++ [(.report s.sequence now, w)])) := by
  rw [reportsOf_append]
  exact h.inTurn.concat (h.number hstopped) htext (h.next hstopped) h.begun hdue

/-- A report whose time has come. -/
theorem Reports.report (h : s.Reports start) (hstopped : ∀ code, s.control ≠ .stopped code)
    {now : ℤ} {w : Write Byte} (hdue : s.nextReport ≤ now)
    (htext : (reportMessage s.sequence).buildFrame frameMaxLen = .ok w.text) :
    (s.report now w).Reports start := by
  have hafter : s.nextReport ≤ now + 5 := by omega
  rw [MockNode.report]
  split
  · refine ⟨h.concat hstopped hdue htext, fun _ => ?_, fun _ report hmem => ?_,
      h.begun.trans hafter, fun _ _ hc => absurd hc (by simp)⟩
    · change (s.sequence + 1) % 1000000 = reportNumber (reportsOf (s.wrote ++ _)).length
      rw [h.number hstopped, reportNumber_succ, reportsOf_append, List.length_append]
      rfl
    · change report ∈ reportsOf (s.wrote ++ _) at hmem
      rw [reportsOf_append] at hmem
      rcases List.mem_append.mp hmem with hmem | hmem
      · exact (h.next hstopped report hmem).trans hafter
      · rw [List.mem_singleton.mp hmem]
  · refine ⟨h.inTurn, fun _ => h.number hstopped, fun _ => h.next hstopped, h.begun, ?_⟩
    intro now' w' hc
    obtain ⟨rfl, rfl⟩ := NodeControl.reporting.inj hc
    exact ⟨hdue, htext⟩

/-- **One call keeps it.** -/
theorem Reports.step (h : s.Reports start) (e : NodeEvent) :
    (mockNodeStep s e).Reports start := by
  unfold mockNodeStep
  split
  · rename_i running hcontrol
    have hstopped : ∀ code, s.control ≠ .stopped code := by simp [hcontrol]
    cases running <;> exact h.same rfl rfl rfl hstopped fun _ _ => by simp
  · rename_i readable hcontrol
    have hstopped : ∀ code, s.control ≠ .stopped code := by simp [hcontrol]
    cases readable <;> exact h.same rfl rfl rfl hstopped fun _ _ => by simp
  · rename_i bytes hcontrol
    exact h.feed _ rfl rfl rfl (by simp [hcontrol])
  · rename_i frame w rest result hcontrol
    have hstopped : ∀ code, s.control ≠ .stopped code := by simp [hcontrol]
    have hended : ∀ w', ((s.ended (.answer frame) w').feed rest).Reports start := by
      refine fun w' => h.feed rest ?_ rfl rfl hstopped
      rw [MockNode.ended, reportsOf_append]
      exact List.append_nil _
    split
    · rw [answer]
      split
      · exact hended _
      · exact h.same rfl rfl rfl hstopped fun _ _ => by simp
    · exact hended w
  · rename_i now hcontrol
    have hstopped : ∀ code, s.control ≠ .stopped code := by simp [hcontrol]
    rw [clocked]
    split
    · exact h.same rfl rfl rfl hstopped fun _ _ => by simp
    rename_i hdue
    split
    · exact h.same rfl rfl rfl hstopped fun _ _ => by simp
    · rename_i text htext
      exact h.report hstopped (not_lt.mp hdue) (frameBuildDataKv_report htext)
  · rename_i now w result hcontrol
    have hstopped : ∀ code, s.control ≠ .stopped code := by simp [hcontrol]
    obtain ⟨hdue, htext⟩ := h.due now w hcontrol
    split
    · rename_i w' hturn
      exact h.report hstopped hdue (by rw [writeAllTurn_text hturn]; exact htext)
    · refine ⟨h.concat hstopped hdue htext, fun hruns => absurd rfl (hruns 1),
        fun hruns => absurd rfl (hruns 1), h.begun, fun _ _ hc => absurd hc (by simp)⟩
  · exact h

theorem reports (failEvery : BitVec 32) (start : ℤ) (events : List NodeEvent) :
    ((mockNode failEvery start).state events).Reports start :=
  (mockNode failEvery start).run_induction (P := fun _ s => s.Reports start)
    ⟨⟨rfl, fun _ h => absurd h List.not_mem_nil, .nil, fun _ h => absurd h List.not_mem_nil⟩,
      fun _ => rfl, fun _ _ h => absurd h List.not_mem_nil, le_refl _,
      fun _ _ hc => absurd hc (by simp [mockNode])⟩
    (fun _ _ e h => h.step e) events

/-- The report that is being written is in turn too. -/
theorem Reports.writes (h : s.Reports start) : InTurn start (reportsOf s.writes) := by
  rw [MockNode.writes, writing]
  split
  · rw [reportsOf_append]
    exact (List.append_nil _).symm ▸ h.inTurn
  · rename_i now w hcontrol
    obtain ⟨hdue, htext⟩ := h.due now w hcontrol
    exact h.concat (by simp [hcontrol]) hdue htext
  all_goals
    rw [List.append_nil]
    exact h.inTurn

/-- Every reply is the frame of a message. -/
theorem exists_message_of_replied {frames : List ParsedFrame} {replied : ParsedFrame × Bytes}
    (h : replied ∈ (nodeCallback failEvery).log repliedTo frames) :
    ∃ m : UplinkMessage, m.buildFrame frameMaxLen = .ok replied.2 := by
  induction frames using List.reverseRecOn with
  | nil => exact absurd h List.not_mem_nil
  | append_singleton frames frame ih =>
    rw [Machine.log_concat] at h
    rcases List.mem_append.mp h with h | h
    · exact ih h
    rw [repliedTo, onNodeFrame_eq] at h
    cases hrequest : nodeRequest frame with
    | none =>
      simp only [hrequest] at h
      exact absurd h List.not_mem_nil
    | some request =>
      simp only [hrequest] at h
      split at h
      · rename_i text htext
        rw [List.mem_singleton.mp h]
        exact ⟨_, Option.some.inj htext⟩
      all_goals exact absurd h List.not_mem_nil

/-- And so is every write. -/
theorem exists_message_of_write (hlistens : s.Listens failEvery) (hreports : s.Reports start)
    {write : NodeCause × Write Byte} (h : write ∈ s.writes) :
    ∃ m : UplinkMessage, m.buildFrame frameMaxLen = .ok write.2.text := by
  obtain ⟨cause, w⟩ := write
  cases cause with
  | answer frame =>
    have hmem : (frame, w.text) ∈ repliesOf s.writes := List.mem_filterMap.mpr ⟨_, h, rfl⟩
    rw [hlistens.replied] at hmem
    exact exists_message_of_replied hmem
  | report sequence now =>
    have hmem : (⟨sequence, now, w.text⟩ : NodeReport) ∈ reportsOf s.writes :=
      List.mem_filterMap.mpr ⟨_, h, rfl⟩
    exact ⟨_, hreports.writes.texts _ hmem⟩

end MockNode

/-! ## The line to the gateway -/

theorem InTurn.heard {start : ℤ} {reports : List NodeReport} (h : InTurn start reports) :
    reports.flatMap (fun report => heard report.text) =
      (List.range reports.length).map fun n => reportMessage (reportNumber n) := by
  have hsix : ∀ report ∈ reports, report.sequence.toNat < 1000000 := by
    intro report hmem
    have hnumber : report.sequence ∈ reports.map NodeReport.sequence := List.mem_map_of_mem hmem
    rw [h.numbers] at hnumber
    obtain ⟨n, -, hn⟩ := List.mem_map.mp hnumber
    rw [← hn]
    exact toNat_reportNumber_lt n
  have hone : ∀ report ∈ reports, SmartGateway.heard report.text =
      [reportMessage report.sequence] :=
    fun report hmem => heard_built (h.texts report hmem) (hsix report hmem)
  have hmap : (List.range reports.length).map (fun n => reportMessage (reportNumber n)) =
      reports.map fun report => reportMessage report.sequence := by
    have hnumbers := congrArg (List.map reportMessage) h.numbers
    rw [List.map_map, List.map_map] at hnumbers
    exact hnumbers.symm
  rw [List.flatMap_congr hone, ← List.map_eq_flatMap, hmap]

/-- **What the gateway hears of the node**, whatever writes fail or stop short: of each write
that was whole its one message, in the order written, and nothing else, though a frame that
broke off stands between them. Of the writes, the reports carry the numbers from 0 on modulo
a million, one for each, and are at least five seconds apart. -/
theorem mockNode_heard (failEvery : BitVec 32) (start : ℤ) (events : List NodeEvent) :
    let s := (mockNode failEvery start).state events
    let line := s.writes.map Prod.snd
    let reports := MockNode.reportsOf s.writes
    heard (out line) = (wholeTexts line).flatMap heard ∧
      (∀ w ∈ line, ∃ m, heard w.text = [m]) ∧
      reports.flatMap (fun report => heard report.text) =
        (List.range reports.length).map (fun n => reportMessage (reportNumber n)) ∧
      ((reports.map NodeReport.now).Pairwise fun now later => now + 5 ≤ later) ∧
      ∀ report ∈ reports, start ≤ report.now := by
  intro s line reports
  have hlistens : s.Listens failEvery := MockNode.listens failEvery start events
  have hreports : s.Reports start := MockNode.reports failEvery start events
  have hmessage : ∀ w ∈ line, ∃ m : UplinkMessage, m.buildFrame frameMaxLen = .ok w.text := by
    intro w hw
    obtain ⟨write, hwrite, rfl⟩ := List.mem_map.mp hw
    exact MockNode.exists_message_of_write hlistens hreports hwrite
  refine ⟨?_, fun w hw => ?_, hreports.writes.heard, hreports.writes.apart,
    hreports.writes.begun⟩
  · have hplain : ∀ w ∈ line, ∃ frame, PlainFrame w.text frame := by
      intro w hw
      obtain ⟨m, hm⟩ := hmessage w hw
      exact ⟨_, (UplinkMessage.built_of_buildFrame hm).plain⟩
    rw [heard, framesOf, (tracks_of_waiting waiting_init).feed_log hplain,
      List.filterMap_flatMap]
    rfl
  · obtain ⟨m, hm⟩ := hmessage w hw
    exact ⟨m.sixDigits, UplinkMessage.filterMap_framesOf hm⟩

end SmartGateway
