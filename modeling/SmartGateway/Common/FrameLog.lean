import SmartGateway.Common.FrameBursts
import SmartGateway.Common.FrameCanonical
import SmartGateway.Lib.WriteLog

/-!
# A log of frames, read

What a builder returns, written to a line one behind the other, each write as far as it
got. A piece of a frame has no line feed in it, and the `@` of the next one drops it: the
reader gets the frames that were written whole, and nothing of the others.
-/

namespace SmartGateway

open WriteLog Numeral

/-- A text that is one frame, with nothing inside that begins or ends one. -/
structure PlainFrame (text : Bytes) (frame : ParsedFrame) : Prop where
  isFrame : IsFrame text frame
  short : text.length ≤ frameMaxLen - 1
  atSign : Ascii.atSign ∉ frame.payload
  lf : Ascii.lf ∉ frame.payload

/-- What a fresh parser makes of a text. -/
def framesOf (text : Bytes) : List ParsedFrame := (frameParserFeed frameParserInit text).2

/-! ## What the builders return -/

/-- A payload of a builder has no NUL in it. -/
theorem nulFree_of_buildKvFrame {id : CStr} {sequence : UInt32} {type : Bytes}
    {fs : List FrameKv} {text : Bytes} (htype : (0 : Byte) ∉ type)
    (h : buildKvFrame frameMaxLen id sequence type fs = .ok text) :
    (0 : Byte) ∉ payloadOf text ∧ payloadOf text ≠ [] ∧ text.length < frameMaxLen := by
  obtain ⟨-, -, -, payload, hpayload, -, rfl, hout⟩ := buildKvFrame_eq_ok h
  rw [payloadOf_frameText]
  refine ⟨?_, by simp [hpayload, frameHead], hout⟩
  rw [hpayload]
  exact not_mem_kvPayload (by decide) (by decide) (by decide) id.nulFree htype
    fun f _ => ⟨f.key.nulFree, f.value.nulFree⟩

theorem Built.nulFree {text : Bytes} (h : Built text) :
    (0 : Byte) ∉ payloadOf text ∧ payloadOf text ≠ [] ∧ text.length < frameMaxLen := by
  rcases h with ⟨_, _, _, h⟩ | ⟨_, _, _, h⟩ | ⟨_, _, _, h⟩ | ⟨nodeId, sequence, error, h⟩
  · exact nulFree_of_buildKvFrame (by decide +kernel) h
  · exact nulFree_of_buildKvFrame (by decide +kernel) h
  · exact nulFree_of_buildKvFrame (by decide +kernel) h
  · obtain ⟨-, -, payload, hpayload, -, rfl, hout⟩ := frameBuildNack_eq_ok h
    rw [payloadOf_frameText]
    refine ⟨?_, by simp [hpayload, frameHead], hout⟩
    rw [hpayload]
    refine not_mem_frameHead (by decide) (by decide) nodeId.nulFree ?_
    rw [List.mem_append, not_or]
    exact ⟨by decide +kernel, error.nulFree⟩

/-- **What a builder returns is one frame**, of its payload. -/
theorem Built.plain {text : Bytes} (h : Built text) :
    PlainFrame text (sealedFrame (payloadOf text)) := by
  have hsealed := h.sealed
  obtain ⟨hnul, hne, hlength⟩ := h.nulFree
  refine ⟨?_, Nat.le_sub_one_of_lt hlength, hsealed.free _ (by simp), hsealed.free _ (by simp)⟩
  have heq := hsealed.eq
  exact ⟨heq.symm, ⟨_, heq, hexTextOf_hex04X _⟩, hne, hnul, rfl, rfl⟩

theorem length_frameHead (id : Bytes) (sequence : UInt32) (type : Bytes) :
    (frameHead id (sequence % 1000000).toNat type).length = id.length + type.length + 10 := by
  have hsix : (decimalPad 6 (sequence % 1000000).toNat).length = 6 :=
    length_decimalPad (by decide) (toNat_mod_million_lt sequence)
  have hone : (ascii "1").length = 1 := rfl
  simp only [frameHead, List.length_append, List.length_cons, hsix, hone]
  omega

/-- A kv builder builds what is valid and fits. -/
theorem buildKvFrame_ok {id : CStr} (sequence : UInt32) {type : Bytes} {fs : List FrameKv}
    (hid : nodeIdIsValid id.bytes = true) (hfs : ∀ f ∈ fs, FieldOk f)
    (hcount : fs.length ≤ frameDataMaxFields)
    (hlength : id.bytes.length + type.length + (fieldsText fs).length + 18 < frameMaxLen) :
    ∃ text, buildKvFrame frameMaxLen id sequence type fs = .ok text := by
  have hhead := length_frameHead id.bytes sequence type
  have hpayload : (frameHead id.bytes (sequence % 1000000).toNat type ++ fieldsText fs).length =
      id.bytes.length + type.length + 10 + (fieldsText fs).length := by
    rw [List.length_append, hhead]
  unfold buildKvFrame
  rw [if_neg (by decide), if_neg (Nat.not_lt.mpr hcount), if_neg (by simp [hid])]
  dsimp only
  rw [if_neg (by omega), appendFields_ok hfs (by omega)]
  exact ⟨_, sealFrame_ok (by omega)⟩

/-- And so does the NACK builder. -/
theorem frameBuildNack_ok {id error : CStr} (sequence : UInt32)
    (hid : nodeIdIsValid id.bytes = true) (herror : nodeIdIsValid error.bytes = true)
    (hlength : id.bytes.length + error.bytes.length + 27 < frameMaxLen) :
    ∃ text, frameBuildNack frameMaxLen id sequence error = .ok text := by
  have hhead := length_frameHead id.bytes sequence (ascii "NACK,ERR=" ++ error.bytes)
  have hnack : (ascii "NACK,ERR=").length = 9 := rfl
  rw [List.length_append, hnack] at hhead
  unfold frameBuildNack
  rw [if_neg (by decide), if_neg (by simp [hid]), if_neg (by simp [herror])]
  dsimp only
  rw [if_neg (by omega)]
  exact ⟨_, sealFrame_ok (by omega)⟩

theorem PlainFrame.framesOf {text : Bytes} {frame : ParsedFrame} (h : PlainFrame text frame) :
    framesOf text = [frame] :=
  ((tracks_of_waiting waiting_init).feed_intact h.isFrame h.short h.atSign h.lf).1

/-- The line feed is the last byte of it. -/
theorem PlainFrame.delimited {text : Bytes} {frame : ParsedFrame} (h : PlainFrame text frame) :
    Delimited Ascii.lf text := by
  obtain ⟨hex, htext, hhex⟩ := h.isFrame.spells
  refine ⟨Ascii.atSign :: (frame.payload ++ Ascii.star :: (hex ++ [Ascii.cr])), ?_, ?_⟩
  · have hlf := hhex.not_mem (b := Ascii.lf) (by decide)
    simp [h.lf, hlf]
  · simp [htext]

/-! ## The reader -/

/-- Nothing is delivered of a frame that was not written whole. -/
theorem Tracks.feed_torn {s : Bytes} {parser : FrameParser} (h : Tracks s parser)
    {w : Write Byte} {frame : ParsedFrame} (hplain : PlainFrame w.text frame)
    (htorn : ¬ w.Whole) : (frameParserFeed parser w.out).2 = [] :=
  h.feed_quiet (w.not_mem_out hplain.delimited htorn)

/-- **The reader gets the whole frames of a log, and nothing else**, in their order, whatever
came before and wherever the writes stopped. -/
theorem Tracks.feed_log {s : Bytes} {parser : FrameParser} (h : Tracks s parser)
    {ws : List (Write Byte)} (hplain : ∀ w ∈ ws, ∃ frame, PlainFrame w.text frame) :
    (frameParserFeed parser (out ws)).2 = (wholeTexts ws).flatMap framesOf := by
  induction ws generalizing s parser with
  | nil => rfl
  | cons w ws ih =>
    obtain ⟨frame, hw⟩ := hplain w List.mem_cons_self
    have hrest := ih (h.feed w.out).1 fun v hv => hplain v (List.mem_cons_of_mem _ hv)
    have hout : out (w :: ws) = w.out ++ out ws := by simp [out]
    rw [hout, frameParserFeed_append, hrest, ← List.singleton_append, wholeTexts_append,
      List.flatMap_append]
    refine congrArg (· ++ _) ?_
    by_cases hwhole : w.Whole
    · rw [wholeTexts_of_whole hwhole, List.flatMap_singleton, hw.framesOf, Write.out_whole hwhole]
      exact (h.feed_intact hw.isFrame hw.short hw.atSign hw.lf).1
    · rw [wholeTexts_of_not_whole hwhole, List.flatMap_nil]
      exact h.feed_torn hw hwhole

end SmartGateway
