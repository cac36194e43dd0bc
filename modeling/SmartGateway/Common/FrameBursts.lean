import SmartGateway.Common.FrameRoundTrip
import SmartGateway.Lib.Lists

/-!
# Frames under bursts of errors

What the parser makes of a frame in which one window of at most sixteen bits was
changed. Between texts of one length the CRC sees every such burst, and the separators
and the digits behind the payload leave a burst no way past it. What it does not cover
is where the payload begins: a byte that turns into an `@` begins the frame anew, and
the bytes behind it are delivered if their CRC happens to be the one that was sent.
-/

namespace SmartGateway

/-! ## What the builders return -/

/-- The payload of a frame: what is between the `@` and the `*` of the CRC. -/
def payloadOf (text : Bytes) : Bytes := (text.drop 1).take (text.length - 8)

/-- What a builder returns into a buffer of `FRAME_MAX_LEN`. -/
def Built (text : Bytes) : Prop :=
  (∃ nodeId sequence fields, frameBuildDataKv frameMaxLen nodeId sequence fields = .ok text) ∨
  (∃ sender sequence fields, frameBuildCommandKv frameMaxLen sender sequence fields = .ok text) ∨
  (∃ nodeId sequence fields, frameBuildAckKv frameMaxLen nodeId sequence fields = .ok text) ∨
  ∃ nodeId sequence error, frameBuildNack frameMaxLen nodeId sequence error = .ok text

/-- A payload sealed, of which the separators of the frame are no part. -/
structure Sealed (text payload : Bytes) : Prop where
  eq : text = frameText payload (crc16CcittFalse payload)
  free : ∀ b ∈ [Ascii.atSign, Ascii.star, Ascii.lf], b ∉ payload

theorem payloadOf_frameText (payload : Bytes) (crc : BitVec 16) :
    payloadOf (frameText payload crc) = payload := by
  have hlength : (frameText payload crc).length - 8 = payload.length := by
    simp [frameText, hex04X]
  unfold payloadOf
  rw [hlength]
  exact List.take_left' rfl

/-- The bytes that separate a frame are neither digits nor separators of a payload. -/
theorem frameSeparators {b : Byte} (hb : b ∈ [Ascii.atSign, Ascii.star, Ascii.lf]) :
    Numeral.isDigit b = false ∧ b ≠ Ascii.comma ∧ b ≠ Ascii.equals ∧ b ∈ nodeIdReserved ∧
      b ∈ fieldTextReserved := by
  simp only [List.mem_cons, List.not_mem_nil, or_false] at hb
  rcases hb with rfl | rfl | rfl
  all_goals decide

theorem sealed_of_buildKvFrame {id : CStr} {sequence : UInt32} {type : Bytes}
    {fs : List FrameKv} {text : Bytes}
    (htype : ∀ b ∈ [Ascii.atSign, Ascii.star, Ascii.lf], b ∉ type)
    (h : buildKvFrame frameMaxLen id sequence type fs = .ok text) :
    Sealed text (payloadOf text) := by
  obtain ⟨hid, hfs, -, payload, hpayload, -, rfl, -⟩ := buildKvFrame_eq_ok h
  rw [payloadOf_frameText]
  refine ⟨rfl, fun b hb => ?_⟩
  obtain ⟨hdigit, hcomma, hequals, hnode, hfield⟩ := frameSeparators hb
  rw [hpayload]
  refine not_mem_kvPayload hdigit hcomma hequals ((textIsValid_iff.mp hid).2 b hnode)
    (htype b hb) fun f hf => ?_
  exact ⟨(textIsValid_iff.mp (hfs f hf).key).2 b hfield,
    (textIsValid_iff.mp (hfs f hf).value).2 b hfield⟩

theorem Built.sealed {text : Bytes} (h : Built text) : Sealed text (payloadOf text) := by
  rcases h with ⟨_, _, _, h⟩ | ⟨_, _, _, h⟩ | ⟨_, _, _, h⟩ | ⟨nodeId, sequence, error, h⟩
  · exact sealed_of_buildKvFrame (by decide +kernel) h
  · exact sealed_of_buildKvFrame (by decide +kernel) h
  · exact sealed_of_buildKvFrame (by decide +kernel) h
  · obtain ⟨hid, herror, payload, hpayload, -, rfl, -⟩ := frameBuildNack_eq_ok h
    rw [payloadOf_frameText]
    refine ⟨rfl, fun b hb => ?_⟩
    obtain ⟨hdigit, hcomma, hequals, hnode, -⟩ := frameSeparators hb
    have htype : b ∉ ascii "NACK,ERR=" := by
      simp only [List.mem_cons, List.not_mem_nil, or_false] at hb
      rcases hb with rfl | rfl | rfl
      all_goals decide +kernel
    rw [hpayload]
    refine not_mem_frameHead hdigit hcomma ((textIsValid_iff.mp hid).2 b hnode) ?_
    rw [List.mem_append, not_or]
    exact ⟨htype, (textIsValid_iff.mp herror).2 b hnode⟩

/-! ## Where the separators are -/

variable {f g payload : Bytes} {p : ℕ}

theorem Sealed.index_atSign (h : Sealed f payload) (hp : f[p]? = some Ascii.atSign) : p = 0 := by
  have hhex := (hexTextOf_hex04X (crc16CcittFalse payload)).not_mem (b := Ascii.atSign) (by decide)
  have hpayload := h.free Ascii.atSign (by decide)
  rw [h.eq, frameText, ← List.nil_append (Ascii.atSign :: _)] at hp
  exact Lists.index_of_once (by simp) (by simp [hhex, hpayload]) hp

theorem Sealed.index_star (h : Sealed f payload) (hp : f[p]? = some Ascii.star) :
    p = payload.length + 1 := by
  have hhex := (hexTextOf_hex04X (crc16CcittFalse payload)).not_mem (b := Ascii.star) (by decide)
  have hpayload := h.free Ascii.star (by decide)
  rw [h.eq, frameText, ← List.cons_append] at hp
  exact Lists.index_of_once (by simp [hpayload]) (by simp [hhex]) hp

theorem Sealed.index_lf (h : Sealed f payload) (hp : f[p]? = some Ascii.lf) :
    p = payload.length + 7 := by
  have hhex := (hexTextOf_hex04X (crc16CcittFalse payload)).not_mem (b := Ascii.lf) (by decide)
  have hpayload := h.free Ascii.lf (by decide)
  have hsplit : f = (Ascii.atSign :: (payload ++ Ascii.star ::
      (hex04X (crc16CcittFalse payload) ++ [Ascii.cr]))) ++ Ascii.lf :: [] := by
    rw [h.eq]
    simp [frameText]
  rw [hsplit] at hp
  have hlast := Lists.index_of_once (by simp [hpayload, hhex]) (by simp) hp
  rw [hlast]
  simp [hex04X]

/-! ## A frame with a burst in it -/

theorem frameText_length (payload : Bytes) (crc : BitVec 16) :
    (frameText payload crc).length = payload.length + 8 := by
  simp [frameText, hex04X]

theorem HexTextOf.length {text : Bytes} {value : BitVec 16} (h : HexTextOf text value) :
    text.length = 4 := by
  obtain ⟨_, _, _, _, _, _, _, _, rfl, -⟩ := h
  rfl

/-- Where a frame that is delivered from the changed text stands: it ends where the text
does. -/
structure Reread (g payload : Bytes) (frame : ParsedFrame) (i : ℕ) (hex : Bytes) : Prop where
  start : g[i]? = some Ascii.atSign
  extent : i + frame.payload.length = payload.length
  nonempty : frame.payload ≠ []
  inside : frame.payload = (g.drop (i + 1)).take frame.payload.length
  digits : hex = (g.drop (payload.length + 2)).take 4
  spells : HexTextOf hex (crc16CcittFalse frame.payload)

theorem exists_reread {order : BitOrder} (hf : Sealed f payload) (hg : Burst order 16 f g)
    {frame : ParsedFrame} (h : frame ∈ (frameParserFeed frameParserInit g).2) :
    ∃ i hex, Reread g payload frame i hex := by
  obtain ⟨i, j, hplace⟩ := exists_isFrameAt_of_mem h
  obtain ⟨before, hex, rest, hcut, rfl, hhex⟩ := hplace.cut
  have hhexlen := hhex.length
  have hinside : g.drop (before.length + 1) =
      frame.payload ++ Ascii.star :: (hex ++ Ascii.cr :: Ascii.lf :: rest) := by
    rw [hcut, List.drop_length_add_append]
    rfl
  have htail : g.drop (before.length + 1 + frame.payload.length) =
      Ascii.star :: (hex ++ Ascii.cr :: Ascii.lf :: rest) := by
    rw [← List.drop_drop, hinside, List.drop_left]
  have hstar : g[before.length + 1 + frame.payload.length]? = some Ascii.star := by
    rw [← Nat.add_zero (before.length + 1 + frame.payload.length), ← List.getElem?_drop, htail]
    rfl
  have hlf : g[before.length + 1 + frame.payload.length + 6]? = some Ascii.lf := by
    obtain ⟨_, _, _, _, _, _, _, _, rfl, -⟩ := hhex
    rw [← List.getElem?_drop, htail]
    rfl
  -- the `*` and the line feed are those sent: a burst does not reach from one to the other
  have hend : before.length + frame.payload.length = payload.length := by
    by_contra hne
    have hlength := hg.length_eq
    rw [hf.eq, frameText_length, hcut] at hlength
    simp only [List.length_append, List.length_cons, hhexlen] at hlength
    have hstar' : f[before.length + 1 + frame.payload.length]? ≠ some Ascii.star := by
      intro heq
      have := hf.index_star heq
      omega
    have hlf' : f[before.length + 1 + frame.payload.length + 6]? ≠ some Ascii.lf := by
      intro heq
      have := hf.index_lf heq
      omega
    have hnear := hg.near (hstar ▸ hstar') (hlf ▸ hlf')
    omega
  refine ⟨before.length, hex, ?_, hend, hplace.isFrame.payload_ne, ?_, ?_, ?_⟩
  · rw [hcut, List.getElem?_append_right (Nat.le_refl _), Nat.sub_self, List.getElem?_cons_zero]
  · rw [hinside, List.take_left]
  · have hdigits : payload.length + 2 = before.length + 1 + frame.payload.length + 1 := by omega
    rw [hdigits, ← List.drop_drop, htail]
    exact (List.take_left' hhexlen).symm
  · rw [← hplace.isFrame.calculated, hplace.isFrame.agree]
    exact hhex

/-! ## What is delivered -/

theorem Sealed.payload_eq (h : Sealed f payload) : payload = (f.drop 1).take payload.length := by
  rw [h.eq]
  exact (List.take_left' rfl).symm

theorem Sealed.digits_eq (h : Sealed f payload) :
    hex04X (crc16CcittFalse payload) = (f.drop (payload.length + 2)).take 4 := by
  have hcut : f = (Ascii.atSign :: payload ++ [Ascii.star]) ++
      (hex04X (crc16CcittFalse payload) ++ [Ascii.cr, Ascii.lf]) := by
    rw [h.eq]
    simp [frameText]
  have hdrop : f.drop (payload.length + 2) =
      hex04X (crc16CcittFalse payload) ++ [Ascii.cr, Ascii.lf] := by
    conv_lhs => rw [hcut]
    exact List.drop_left' (by simp)
  rw [hdrop]
  exact (List.take_left' rfl).symm

/-- With the digits as they were sent the CRC is the one that was sent. -/
theorem Reread.crc_eq {frame : ParsedFrame} {i : ℕ} {hex : Bytes}
    (h : Reread g payload frame i hex) (hf : Sealed f payload)
    (hdigits : f.drop (payload.length + 2) = g.drop (payload.length + 2)) :
    crc16CcittFalse frame.payload = crc16CcittFalse payload := by
  have hhex := hexTextOf_hex04X (crc16CcittFalse payload)
  rw [hf.digits_eq, hdigits, ← h.digits] at hhex
  exact h.spells.unique hhex

/-- The last three digits are the value's low twelve bits. -/
theorem HexTextOf.low {text text' : Bytes} {value value' : BitVec 16} (h : HexTextOf text value)
    (h' : HexTextOf text' value') (htail : text.drop 1 = text'.drop 1) :
    value.toNat % 4096 = value'.toNat % 4096 := by
  have key : ∀ {ch : Byte} {digit digit' : ℕ}, HexDigitOf ch digit → HexDigitOf ch digit' →
      digit = digit' ∧ digit < 16 := by
    unfold HexDigitOf
    intro ch digit digit' h h'
    omega
  obtain ⟨_, _, _, _, _, _, _, _, rfl, -, h2, h3, h4, hvalue⟩ := h
  obtain ⟨_, _, _, _, _, _, _, _, rfl, -, h2', h3', h4', hvalue'⟩ := h'
  simp only [List.drop_succ_cons, List.drop_zero, List.cons.injEq, and_true] at htail
  obtain ⟨rfl, rfl, rfl⟩ := htail
  obtain ⟨hb, hb'⟩ := key h2 h2'
  obtain ⟨hc, hc'⟩ := key h3 h3'
  obtain ⟨hd, hd'⟩ := key h4 h4'
  omega

/-- A stretch is what comes before its last byte, and that. -/
theorem take_drop_one (s : Bytes) {n : ℕ} (hn : 0 < n) :
    (s.drop 1).take n = (s.take n).drop 1 ++ s[n]?.toList := by
  obtain ⟨m, rfl⟩ : ∃ m, n = m + 1 := ⟨n - 1, by omega⟩
  rw [List.take_add_one, List.getElem?_drop, List.drop_take, Nat.add_sub_cancel, Nat.add_comm 1 m]

theorem Reread.inside_whole {frame : ParsedFrame} {hex : Bytes}
    (h : Reread g payload frame 0 hex) : frame.payload = (g.drop 1).take payload.length := by
  have hlength : frame.payload.length = payload.length := by
    have := h.extent
    omega
  rw [← hlength]
  exact h.inside

/-- A burst between the last byte of the payload and the first digit shows in the others. -/
theorem Reread.payload_eq_of_last {order : BitOrder} {frame : ParsedFrame} {hex : Bytes}
    (h : Reread g payload frame 0 hex) (hf : Sealed f payload) (hg : Burst order 16 f g)
    (hdigit : f[payload.length + 2]? ≠ g[payload.length + 2]?)
    (hlast : f[payload.length]? ≠ g[payload.length]?) : frame.payload = payload := by
  have hfront := hg.take_eq hdigit (Nat.le_refl _)
  have hback := hg.drop_eq hlast (Nat.lt_succ_self _)
  have hpos : 0 < payload.length := by
    have hne := List.length_pos_of_ne_nil h.nonempty
    have hextent := h.extent
    omega
  have hflen : f.length = payload.length + 8 := by rw [hf.eq, frameText_length]
  have hglen := hg.length_eq
  obtain ⟨x, hx⟩ : ∃ x, f[payload.length]? = some x := ⟨_, List.getElem?_eq_getElem (by omega)⟩
  obtain ⟨y, hy⟩ : ∃ y, g[payload.length]? = some y := ⟨_, List.getElem?_eq_getElem (by omega)⟩
  have hsent : payload = (g.take payload.length).drop 1 ++ [x] := by
    have hsplit := hf.payload_eq.trans (take_drop_one f hpos)
    rw [hfront, hx] at hsplit
    exact hsplit
  have hread : frame.payload = (g.take payload.length).drop 1 ++ [y] := by
    have hsplit := h.inside_whole.trans (take_drop_one g hpos)
    rw [hy] at hsplit
    exact hsplit
  -- the digits but the first are those sent
  have htail : hex.drop 1 = (hex04X (crc16CcittFalse payload)).drop 1 := by
    rw [h.digits, hf.digits_eq, List.drop_take, List.drop_take, List.drop_drop, List.drop_drop,
      hback]
  have hlow := h.spells.low (hexTextOf_hex04X (crc16CcittFalse payload)) htail
  obtain ⟨u, hu⟩ : ∃ u, u = (g.take payload.length).drop 1 := ⟨_, rfl⟩
  rw [← hu] at hsent hread
  rw [hread, hsent] at hlow
  rw [hread, hsent, eq_of_low_digits hlow]

/-- **From the first byte on** nothing is read but what was sent. -/
theorem Reread.payload_eq {order : BitOrder} {frame : ParsedFrame} {hex : Bytes}
    (h : Reread g payload frame 0 hex) (hf : Sealed f payload) (hg : Burst order 16 f g) :
    frame.payload = payload := by
  have hinside := h.inside_whole
  by_contra hne
  -- the payload was changed
  obtain ⟨p, hp1, hpm, hp⟩ : ∃ p, 1 ≤ p ∧ p < 1 + payload.length ∧ f[p]? ≠ g[p]? := by
    refine exists_ne_of_stretch_ne fun heq => hne ?_
    rw [hinside, ← heq, ← hf.payload_eq]
  by_cases hdigits : f.drop (payload.length + 2) = g.drop (payload.length + 2)
  · have hburst := hg.stretch 1 payload.length
    rw [← hinside, ← hf.payload_eq] at hburst
    exact hne (crc16CcittFalse_burst hburst (h.crc_eq hf hdigits).symm).symm
  · -- and the digits were: the burst has the last byte of the one, and the first of the other
    obtain ⟨q, hqm, hq⟩ := exists_ne_of_drop_ne hdigits
    have hnear := hg.near hp hq
    obtain rfl : p = payload.length := by omega
    obtain rfl : q = payload.length + 2 := by omega
    exact hne (h.payload_eq_of_last hf hg hq hp)

/-- **Link integrity.** From a built frame in which one window of at most sixteen bits was
changed, a fresh parser delivers the payload that was sent or what stands behind a byte
of it that has become an `@`, and that only if it has the CRC that was sent. -/
theorem frameParserFeed_burst (order : BitOrder) (f g : Bytes) (hf : Built f)
    (hg : Burst order 16 f g) (frame : ParsedFrame)
    (h : frame ∈ (frameParserFeed frameParserInit g).2) :
    frame.payload = payloadOf f ∨
      ∃ i, 0 < i ∧ i < (payloadOf f).length ∧ g[i]? = some Ascii.atSign ∧
        frame.payload = (g.drop (i + 1)).take ((payloadOf f).length - i) ∧
        crc16CcittFalse frame.payload = crc16CcittFalse (payloadOf f) := by
  have hsealed := hf.sealed
  obtain ⟨i, hex, hread⟩ := exists_reread hsealed hg h
  have hextent := hread.extent
  have hpos := List.length_pos_of_ne_nil hread.nonempty
  rcases Nat.eq_zero_or_pos i with rfl | hi
  · exact .inl (hread.payload_eq hsealed hg)
  · right
    have hlength : frame.payload.length = (payloadOf f).length - i := by omega
    refine ⟨i, hi, by omega, hread.start, hlength ▸ hread.inside, ?_⟩
    -- the frame sent has no `@` there
    have hchanged : f[i]? ≠ g[i]? := by
      intro heq
      have := hsealed.index_atSign (heq.trans hread.start)
      omega
    exact hread.crc_eq hsealed (hg.drop_eq hchanged (by omega))

theorem built_npg : Built (ascii "@1,NPG,000001,DATA*B877\r\n") :=
  .inl ⟨⟨ascii "NPG", by decide⟩, 1, [], by decide +kernel⟩

theorem burst_npg (order : BitOrder) :
    Burst order 16 (ascii "@1,NPG,000001,DATA*B877\r\n")
      (ascii "@1,NP@,000001,DATA*B877\r\n") :=
  (burst_set order (ascii "@1,NPG,000001,DATA*B877\r\n") 5 Ascii.atSign).mono (by decide)

theorem delivered_npg : sealedFrame (ascii ",000001,DATA") ∈
    (frameParserFeed frameParserInit (ascii "@1,NP@,000001,DATA*B877\r\n")).2 := by
  decide +kernel

/-- The rest of a frame, behind a name that ends in an `@` now. -/
theorem frameParserFeed_burst_npg :
    (sealedFrame (ascii ",000001,DATA")).payload =
        payloadOf (ascii "@1,NPG,000001,DATA*B877\r\n") ∨
      ∃ i, 0 < i ∧ i < (payloadOf (ascii "@1,NPG,000001,DATA*B877\r\n")).length ∧
        (ascii "@1,NP@,000001,DATA*B877\r\n")[i]? = some Ascii.atSign ∧
        (sealedFrame (ascii ",000001,DATA")).payload =
          ((ascii "@1,NP@,000001,DATA*B877\r\n").drop (i + 1)).take
            ((payloadOf (ascii "@1,NPG,000001,DATA*B877\r\n")).length - i) ∧
        crc16CcittFalse (sealedFrame (ascii ",000001,DATA")).payload =
          crc16CcittFalse (payloadOf (ascii "@1,NPG,000001,DATA*B877\r\n")) :=
  frameParserFeed_burst .msbFirst _ _ built_npg (burst_npg .msbFirst) _ delivered_npg

/-- A name that brings the CRC of what begins the payload back to where it started: with
an `@` for its last byte, the rest of the frame is delivered for a payload. -/
theorem frameParserFeed_burst_restart :
    ∃ (f g : Bytes) (frame : ParsedFrame), Built f ∧ (∀ order, Burst order 16 f g) ∧
      frame ∈ (frameParserFeed frameParserInit g).2 ∧ frame.payload ≠ payloadOf f :=
  ⟨_, _, _, built_npg, burst_npg, delivered_npg, by decide +kernel⟩

end SmartGateway
