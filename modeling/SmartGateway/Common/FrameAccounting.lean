import SmartGateway.Common.FrameStream

/-!
# What becomes of a frame start

Every `@` the parser is fed starts a frame, and a frame that was started comes to one end,
which one of four counters tells: it is delivered, its CRC does not agree, it has not the
form of a frame, or it is too long. One frame at most is open. No byte needs to know the
stream for this; only the buffer does, and there the invariant of the byte machine is used.
-/

namespace SmartGateway

/-- The frames that have come to an end. -/
def FrameParserStats.ended (stats : FrameParserStats) : ℕ :=
  stats.validFrames + stats.crcErrors + stats.formatErrors + stats.overflowErrors

/-- The frame being collected. -/
def FrameParser.opened (parser : FrameParser) : ℕ := if parser.collecting then 1 else 0

/-- What the calls of `frame_parser_feed` return, one after the other. -/
def frameParserFeedReturns (parser : FrameParser) : List Bytes → List ℕ
  | [] => []
  | data :: calls =>
    let (parser, frames) := frameParserFeed parser data
    frames.length :: frameParserFeedReturns parser calls

/-- The buffer of a parser that collects: an `@`, no other one behind it and no line feed,
and the terminator. -/
structure FrameParser.BufferOk (parser : FrameParser) : Prop where
  length_pos : 1 ≤ parser.length
  length_le : parser.length ≤ frameMaxLen - 1
  start : parser.buffer.toList[0]? = some Ascii.atSign
  middle : ∀ i, 1 ≤ i → i < parser.length → ∃ ch, parser.buffer.toList[i]? = some ch ∧
    ch ≠ Ascii.atSign ∧ ch ≠ Ascii.lf
  terminator : parser.buffer.toList[parser.length]? = some 0

/-! ## One byte -/

theorem frameParserFinish_counts (parser : FrameParser) :
    (frameParserFinish parser).1.stats.ended = parser.stats.ended + 1 ∧
      (frameParserFinish parser).1.stats.validFrames =
        parser.stats.validFrames + (frameParserFinish parser).2.toList.length := by
  unfold frameParserFinish
  split
  · refine ⟨?_, rfl⟩
    simp only [frameParserReset, FrameParserStats.ended]
    omega
  · refine ⟨?_, rfl⟩
    simp only [frameParserReset, FrameParserStats.ended]
    omega
  · refine ⟨?_, rfl⟩
    simp only [frameParserReset, FrameParserStats.ended]
    omega

/-- **One byte.** An `@` starts a frame; what is started is open, or has come to an end. -/
theorem frameParserByte_counts (parser : FrameParser) (ch : Byte) :
    (frameParserByte parser ch).1.stats.ended + (frameParserByte parser ch).1.opened =
        parser.stats.ended + parser.opened + [ch].count Ascii.atSign ∧
      (frameParserByte parser ch).1.stats.validFrames =
        parser.stats.validFrames + (frameParserByte parser ch).2.toList.length := by
  rw [List.count_singleton]
  unfold frameParserByte
  by_cases hcollecting : parser.collecting = true
  swap
  -- waiting: only an `@` opens a frame
  · have hopen : parser.opened = 0 := if_neg hcollecting
    rw [if_pos (by simpa using hcollecting)]
    by_cases hat : ch = Ascii.atSign
    · rw [if_pos hat, hat, beq_self_eq_true, if_pos rfl, hopen]
      exact ⟨rfl, rfl⟩
    · rw [if_neg hat, beq_eq_false_iff_ne.mpr hat, hopen]
      refine ⟨?_, rfl⟩
      simp only [FrameParser.opened, if_neg hcollecting]
      rfl
  have hopen : parser.opened = 1 := if_pos hcollecting
  rw [if_neg (by simpa using hcollecting)]
  by_cases hat : ch = Ascii.atSign
  · -- the frame is given up, and another one started
    rw [if_pos hat, hat, beq_self_eq_true, if_pos rfl, hopen]
    refine ⟨?_, rfl⟩
    simp only [frameParserStart, FrameParser.opened, FrameParserStats.ended, if_true]
    omega
  rw [if_neg hat, beq_eq_false_iff_ne.mpr hat, hopen]
  -- no room is left: the frame ends as an overlong one
  by_cases hfull : frameMaxLen - 1 ≤ parser.length
  · rw [dif_pos hfull]
    refine ⟨?_, rfl⟩
    simp only [frameParserReset, FrameParser.opened, FrameParserStats.ended]
    simp only [Bool.false_eq_true, if_false]
    omega
  rw [dif_neg hfull]
  dsimp only
  -- a line feed ends it, as a valid frame or as one refused for a reason
  by_cases hlf : ch = Ascii.lf
  · rw [if_pos hlf]
    obtain ⟨hended, hvalid⟩ := frameParserFinish_counts (frameParserPut parser ch (by omega))
    refine ⟨?_, hvalid⟩
    rw [hended, FrameParser.opened, collecting_finish]
    rfl
  · rw [if_neg hlf]
    refine ⟨?_, rfl⟩
    rw [← hopen]
    rfl

/-- **A stretch of stream.** -/
theorem frameParserFeed_counts (parser : FrameParser) (s : Bytes) :
    (frameParserFeed parser s).1.stats.ended + (frameParserFeed parser s).1.opened =
        parser.stats.ended + parser.opened + s.count Ascii.atSign ∧
      (frameParserFeed parser s).1.stats.validFrames =
        parser.stats.validFrames + (frameParserFeed parser s).2.length := by
  induction s generalizing parser with
  | nil => exact ⟨rfl, rfl⟩
  | cons ch s ih =>
    obtain ⟨hended, hvalid⟩ := frameParserByte_counts parser ch
    obtain ⟨hended', hvalid'⟩ := ih (frameParserByte parser ch).1
    simp only [frameParserFeed]
    rw [List.count_cons, List.length_append]
    rw [List.count_singleton] at hended
    omega

/-! ## The buffer -/

/-- What the buffer holds of an open frame is in order. -/
theorem Tracks.bufferOk {s : Bytes} {parser : FrameParser} (h : Tracks s parser)
    (hcollecting : parser.collecting = true) : parser.BufferOk := by
  obtain ⟨text, ⟨before, t, -, rfl, hat, hlf, hshort⟩, ⟨rest, hbuffer⟩, hlength⟩ :=
    h.opened hcollecting
  have hpos : parser.length = t.length + 1 := hlength
  have hle : parser.length ≤ 255 := hlength ▸ hshort
  refine ⟨by omega, hle, ?_, fun i hi hlt => ?_, ?_⟩
  · rw [hbuffer]
    rfl
  · obtain ⟨j, rfl⟩ := Nat.exists_eq_add_of_le' hi
    have hj : j < t.length := by omega
    refine ⟨t[j], ?_, ?_, ?_⟩
    · rw [hbuffer, List.cons_append, List.getElem?_cons_succ, List.getElem?_append_left hj,
        List.getElem?_eq_getElem hj]
    · exact fun heq => hat (heq ▸ List.getElem_mem hj)
    · exact fun heq => hlf (heq ▸ List.getElem_mem hj)
  · rw [hbuffer, hlength, List.getElem?_append_right le_rfl, Nat.sub_self]
    rfl

/-! ## Calls -/

/-- The returned counts add up to the frames delivered. -/
theorem sum_frameParserFeedReturns (parser : FrameParser) (calls : List Bytes) :
    (frameParserFeedReturns parser calls).sum = (frameParserFeedCalls parser calls).2.length := by
  induction calls generalizing parser with
  | nil => rfl
  | cons data calls ih =>
    simp only [frameParserFeedReturns, frameParserFeedCalls, List.sum_cons, List.length_append, ih]

/-- **The accounts of the parser.** After any calls of `frame_parser_feed` on a fresh parser,
and so at any point of a stream, since it may be cut anywhere: there have been as many `@` as
frames have come to an end, each in one of the four ways, and are open; as words the counters
say the same, whatever their size; `valid_frames` is the number of calls of the callback, and
of the returned counts together; and while a frame is open the buffer holds it. -/
theorem frameParserFeedCalls_accounts (calls : List Bytes) :
    let parser := (frameParserFeedCalls frameParserInit calls).1
    let frames := (frameParserFeedCalls frameParserInit calls).2
    calls.flatten.count Ascii.atSign =
        parser.stats.validFrames + parser.stats.crcErrors + parser.stats.formatErrors +
          parser.stats.overflowErrors + (if parser.collecting then 1 else 0) ∧
      (∀ w, BitVec.ofNat w (calls.flatten.count Ascii.atSign) =
        BitVec.ofNat w parser.stats.validFrames + BitVec.ofNat w parser.stats.crcErrors +
          BitVec.ofNat w parser.stats.formatErrors + BitVec.ofNat w parser.stats.overflowErrors +
            BitVec.ofNat w (if parser.collecting then 1 else 0)) ∧
      parser.stats.validFrames = frames.length ∧
      parser.stats.validFrames = (frameParserFeedReturns frameParserInit calls).sum ∧
      (parser.collecting = true → parser.BufferOk) := by
  intro parser frames
  have hreturns := sum_frameParserFeedReturns frameParserInit calls
  have hfeed := frameParserFeedCalls_eq frameParserInit calls
  obtain ⟨hended, hvalid⟩ := frameParserFeed_counts frameParserInit calls.flatten
  have htracks := ((tracks_of_waiting waiting_init).feed calls.flatten).1
  rw [← hfeed] at hended hvalid htracks
  have hnone : frameParserInit.stats.ended + frameParserInit.opened = 0 := rfl
  have hzero : frameParserInit.stats.validFrames = 0 := rfl
  rw [hnone, Nat.zero_add] at hended
  rw [hzero, Nat.zero_add] at hvalid
  have hcount : calls.flatten.count Ascii.atSign =
      parser.stats.validFrames + parser.stats.crcErrors + parser.stats.formatErrors +
        parser.stats.overflowErrors + (if parser.collecting then 1 else 0) := hended.symm
  refine ⟨hcount, fun w => ?_, hvalid, hvalid.trans hreturns.symm, htracks.bufferOk⟩
  rw [hcount, BitVec.ofNat_add, BitVec.ofNat_add, BitVec.ofNat_add, BitVec.ofNat_add]

end SmartGateway
