import SmartGateway.Common.FrameRoundTrip

/-!
# What the frame decoders have read

`strtok_r` cuts the payload of a frame at its commas. A decoder of `frame_parser.c` that
accepts the payload has found the version, an id, a sequence of six bytes and the type of
its kind in front, and behind them items that spell the fields it hands on.
-/

namespace SmartGateway

/-! ## Items -/

/-- `KEY=VALUE`. -/
def kvItem (f : FrameKv) : Bytes := f.key.bytes ++ Ascii.equals :: f.value.bytes

/-- An item that was read is a key and a value around its first `=`. -/
theorem parseKv_eq_some {kv : Bytes} (hnul : (0 : Byte) ∉ kv) {f : FrameKv}
    (h : parseKv kv = some f) :
    kv = kvItem f ∧ Ascii.equals ∉ f.key.bytes ∧ f.key.bytes ≠ [] ∧ f.value.bytes ≠ [] := by
  -- the three tests: there is an `=`, neither side of it is empty, both fit
  unfold parseKv at h
  dsimp only at h
  split at h
  · exact absurd h (by simp)
  rename_i b value hdrop
  split at h
  · exact absurd h (by simp)
  rename_i hempty
  rw [not_or] at hempty
  split at h
  swap
  · exact absurd h (by simp)
  rename_i key value' hkey hvalue
  have hsplit := List.takeWhile_append_dropWhile (p := (· ≠ Ascii.equals)) (l := kv)
  have hkeynul : (0 : Byte) ∉ kv.takeWhile (· ≠ Ascii.equals) :=
    fun hmem => hnul ((List.takeWhile_prefix _).subset hmem)
  have hvaluenul : (0 : Byte) ∉ value := by
    intro hmem
    refine hnul ((List.dropWhile_suffix (· ≠ Ascii.equals)).subset ?_)
    rw [hdrop]
    exact List.mem_cons_of_mem b hmem
  -- the rest begins with the byte the key ends at
  have hb : b = Ascii.equals := by
    have hhead := List.head?_dropWhile_not (· ≠ Ascii.equals) kv
    rw [hdrop] at hhead
    simpa using hhead
  rw [CharBuf.ofRaw?_eq_some_iff hkeynul] at hkey
  rw [CharBuf.ofRaw?_eq_some_iff hvaluenul] at hvalue
  rw [← Option.some.inj h]
  refine ⟨?_, ?_, by rw [hkey]; exact hempty.1, by rw [hvalue]; exact hempty.2⟩
  · rw [kvItem, hkey, hvalue]
    rw [hdrop, hb] at hsplit
    exact hsplit.symm
  · rw [hkey]
    intro hmem
    exact absurd (List.mem_takeWhile_imp hmem) (by simp)

theorem parseItems_eq_some {items : List Bytes} (hnul : ∀ kv ∈ items, (0 : Byte) ∉ kv)
    {fs : List FrameKv} (h : parseItems items = some fs) :
    items = fs.map kvItem ∧
      ∀ f ∈ fs, Ascii.equals ∉ f.key.bytes ∧ f.key.bytes ≠ [] ∧ f.value.bytes ≠ [] := by
  induction items generalizing fs with
  | nil =>
    obtain rfl := Option.some.inj h
    exact ⟨rfl, fun f hf => absurd hf List.not_mem_nil⟩
  | cons kv items ih =>
    rw [parseItems] at h
    split at h
    · exact absurd h (by simp)
    rename_i f hf
    obtain ⟨fs', hfs', rfl⟩ := Option.map_eq_some_iff.mp h
    obtain ⟨hkv, hparts⟩ := parseKv_eq_some (hnul kv List.mem_cons_self) hf
    obtain ⟨hitems, hrest⟩ := ih (fun kv hkv => hnul kv (List.mem_cons_of_mem _ hkv)) hfs'
    refine ⟨by rw [List.map_cons, ← hkv, ← hitems], fun g hg => ?_⟩
    rcases List.mem_cons.mp hg with rfl | hg
    · exact hparts
    · exact hrest g hg

/-! ## The decoders -/

/-- The items of a payload `parse_kv_payload` accepts. -/
theorem parseKvPayload_eq_some {frame : ParsedFrame} {type : Bytes} {p : KvPayload}
    (h : parseKvPayload frame type = some p) :
    ∃ id sequence items,
      strtok Ascii.comma (cstr frame.payload) = ascii "1" :: id :: sequence :: type :: items ∧
        CharBuf.ofRaw? 32 id = some p.id ∧ sequence.length = 6 ∧
        parseUint32Decimal sequence = some p.sequence ∧ parseItems items = some p.fields.1 := by
  -- an accepted payload has passed every test
  unfold parseKvPayload at h
  split at h
  · exact absurd h (by simp)
  split at h
  swap
  · exact absurd h (by simp)
  rename_i version id sequence typeToken items htokens
  split at h
  · exact absurd h (by simp)
  split at h
  · exact absurd h (by simp)
  rename_i hversion
  split at h
  · exact absurd h (by simp)
  rename_i htype
  split at h
  · exact absurd h (by simp)
  rename_i id' hid
  split at h
  · exact absurd h (by simp)
  rename_i hlength
  split at h
  · exact absurd h (by simp)
  rename_i sequence' hsequence
  split at h
  · exact absurd h (by simp)
  rename_i fields hitems
  refine ⟨id, sequence, items, ?_, ?_, not_not.mp hlength, ?_, ?_⟩
  · rw [htokens, not_not.mp hversion, not_not.mp htype]
  · rw [hid, ← Option.some.inj h]
  · rw [hsequence, ← Option.some.inj h]
  · rw [hitems, ← Option.some.inj h]

/-- The items of a payload `frame_decode_nack` accepts. -/
theorem frameDecodeNack_eq_some {frame : ParsedFrame} {nack : FrameNack}
    (h : frameDecodeNack frame = some nack) :
    ∃ id sequence error,
      strtok Ascii.comma (cstr frame.payload) =
          [ascii "1", id, sequence, ascii "NACK", ascii "ERR=" ++ error] ∧
        CharBuf.ofRaw? 32 id = some nack.nodeId ∧ sequence.length = 6 ∧
        parseUint32Decimal sequence = some nack.sequence ∧ error ≠ [] ∧
        CharBuf.ofRaw? 32 error = some nack.error := by
  unfold frameDecodeNack at h
  split at h
  · exact absurd h (by simp)
  split at h
  swap
  · exact absurd h (by simp)
  rename_i version id sequence typeToken errToken htokens
  split at h
  · exact absurd h (by simp)
  rename_i hversion
  split at h
  · exact absurd h (by simp)
  rename_i htype
  split at h
  · exact absurd h (by simp)
  rename_i herr
  split at h
  · exact absurd h (by simp)
  rename_i id' hid
  split at h
  · exact absurd h (by simp)
  rename_i hlength
  split at h
  · exact absurd h (by simp)
  rename_i sequence' hsequence
  split at h
  · exact absurd h (by simp)
  rename_i hne
  split at h
  · exact absurd h (by simp)
  rename_i error herror
  -- the decoder compares the first four bytes and keeps the others
  have herrToken : errToken = ascii "ERR=" ++ errToken.drop 4 := by
    rw [← not_not.mp herr, List.take_append_drop]
  refine ⟨id, sequence, errToken.drop 4, ?_, ?_, not_not.mp hlength, ?_, hne, ?_⟩
  · rw [htokens, not_not.mp hversion, not_not.mp htype, ← herrToken]
  · rw [hid, ← Option.some.inj h]
  · rw [hsequence, ← Option.some.inj h]
  · rw [herror, ← Option.some.inj h]

end SmartGateway
