import SmartGateway.Common.UplinkMessage
import SmartGateway.Lib.Tokens
import SmartGateway.Server.CommandManager
import SmartGateway.Server.NodeStore

/-!
# The server's lines

`on_line` of `server/main.c`: a line from the gateway goes to the command manager
or the node store. The kind is looked for as text, anywhere in the line, before
any of it is parsed; a field of a DATA message can hold that text.
-/

namespace SmartGateway

open Numeral ObjectScan

/-- `server_context_t`. -/
structure ServerContext where
  store : NodeStore
  manager : CommandManager

/-- The call a line ends in, with the struct handed over. -/
inductive ServerCall
  | onAck (ack : FrameAck)
  | onNack (nack : FrameNack)
  | update (data : FrameData)
deriving DecidableEq

/-- `line_has`: the text somewhere in the line. -/
def lineHas : Bytes → Bytes → Bool
  | [], pattern => pattern.isPrefixOf []
  | b :: line, pattern => pattern.isPrefixOf (b :: line) || lineHas line pattern

/-- The text that tells a type: `"type":"TYPE"`. -/
def typeText (type : Bytes) : Bytes := ascii "\"type\":\"" ++ type ++ ascii "\""

/-- `on_line`, at the time `now`: the context it leaves, and the call it made. -/
def onLine (ctx : ServerContext) (line : Bytes) (now : ℤ) : ServerContext × Option ServerCall :=
  if lineHas line (typeText (ascii "ACK")) then
    match messageJsonDecodeAck line with
    | (none, _) => (ctx, none)
    | (some _, ack) =>
      ({ ctx with manager := (commandManagerOnAck ctx.manager (some ack)).1 }, some (.onAck ack))
  else if lineHas line (typeText (ascii "NACK")) then
    match messageJsonDecodeNack line with
    | (none, _) => (ctx, none)
    | (some _, nack) =>
      ({ ctx with manager := (commandManagerOnNack ctx.manager (some nack)).1 },
        some (.onNack nack))
  else
    -- the struct is not initialised: where decoding fails nothing reads it
    match messageJsonDecodeData line default with
    | (none, _) => (ctx, none)
    | (some _, data) =>
      match nodeStoreUpdate ctx.store data now with
      | none => (ctx, some (.update data))
      | some store => ({ ctx with store := store }, some (.update data))

/-! ## Where the text of a type stands -/

theorem lineHas_iff {line pattern : Bytes} : lineHas line pattern = true ↔ pattern <:+: line := by
  induction line with
  | nil =>
    rw [lineHas, List.isPrefixOf_iff_prefix, List.prefix_nil, List.infix_nil]
  | cons b line ih =>
    rw [lineHas, Bool.or_eq_true, List.isPrefixOf_iff_prefix, ih, List.infix_cons_iff]

/-- The pieces of a type's text between its quotes. -/
def typePieces (type : Bytes) : List Bytes := [ascii "type", [Ascii.colon], type]

/-- Where a type's text stands in a line, its pieces stand between the quotes. -/
theorem typePieces_of_lineHas {type line : Bytes} (htype : Ascii.quote ∉ type)
    (h : lineHas line (typeText type) = true) :
    typePieces type <:+: line.splitOn Ascii.quote := by
  have htext : typeText type =
      Ascii.quote :: ([Ascii.quote].intercalate (typePieces type) ++ [Ascii.quote]) := by
    have hopen : ascii "\"type\":\"" = Ascii.quote :: (ascii "type" ++
        [Ascii.quote, Ascii.colon, Ascii.quote]) := by decide
    have hclose : ascii "\"" = [Ascii.quote] := by decide
    simp [typeText, typePieces, hopen, hclose, List.intercalate]
  have hpart := lineHas_iff.mp h
  rw [htext] at hpart
  refine infix_splitOn (by simp [typePieces]) (fun t ht => ?_) hpart
  rcases List.mem_cons.mp ht with rfl | ht
  · decide
  rcases List.mem_cons.mp ht with rfl | ht
  · decide
  · rw [List.mem_singleton.mp ht]
    exact htype

/-- The cut at the quote behind a quote-free text. -/
theorem splitOn_quote {t : Bytes} (ht : Ascii.quote ∉ t) (p : Bytes) :
    (t ++ Ascii.quote :: p).splitOn Ascii.quote = t :: p.splitOn Ascii.quote :=
  List.splitOn_append_cons_self_of_not_mem ht p

/-- The pieces of a type's text come next, or later. -/
theorem typePieces_cons_iff {type t : Bytes} {ts : List Bytes} :
    typePieces type <:+: t :: ts ↔
      (ascii "type" = t ∧ [[Ascii.colon], type] <+: ts) ∨ typePieces type <:+: ts := by
  rw [List.infix_cons_iff, typePieces, List.cons_prefix_cons]

/-- The pieces of a head, and of what follows it behind a quote. -/
theorem splitOn_lineHead {node type : Bytes} {n : UInt32} (hnode : Ascii.quote ∉ node)
    (htype : Ascii.quote ∉ type) (p : Bytes) :
    (Ascii.openBrace :: lineHead node n type (Ascii.quote :: p)).splitOn Ascii.quote =
      [Ascii.openBrace] :: ascii "node" :: [Ascii.colon] :: node :: [Ascii.comma] ::
        ascii "seq" :: (Ascii.colon :: (decimal n.toNat ++ [Ascii.comma])) :: ascii "type" ::
          [Ascii.colon] :: type :: [Ascii.comma] :: p.splitOn Ascii.quote := by
  have hnumber : Ascii.quote ∉ Ascii.colon :: (decimal n.toNat ++ [Ascii.comma]) := by
    have hdecimal : Ascii.quote ∉ decimal n.toNat := not_mem_decimal (by decide)
    simp [hdecimal]
  have hline : Ascii.openBrace :: lineHead node n type (Ascii.quote :: p) =
      [Ascii.openBrace] ++ Ascii.quote :: (ascii "node" ++ Ascii.quote :: ([Ascii.colon] ++
        Ascii.quote :: (node ++ Ascii.quote :: ([Ascii.comma] ++ Ascii.quote :: (ascii "seq" ++
          Ascii.quote :: ((Ascii.colon :: (decimal n.toNat ++ [Ascii.comma])) ++ Ascii.quote ::
            (ascii "type" ++ Ascii.quote :: ([Ascii.colon] ++ Ascii.quote :: (type ++
              Ascii.quote :: ([Ascii.comma] ++ Ascii.quote :: p)))))))))) := by
    simp [lineHead]
  rw [hline, splitOn_quote (by decide), splitOn_quote (by decide), splitOn_quote (by decide),
    splitOn_quote hnode, splitOn_quote (by decide), splitOn_quote (by decide),
    splitOn_quote hnumber, splitOn_quote (by decide), splitOn_quote (by decide),
    splitOn_quote htype, splitOn_quote (by decide)]

/-- The text of a type in a line is that of the head, or lies behind it. -/
theorem typePieces_lineHead {node type type' p : Bytes} {n : UInt32}
    (hnode : Ascii.quote ∉ node) (htype : Ascii.quote ∉ type)
    (h : typePieces type' <:+:
      (Ascii.openBrace :: lineHead node n type (Ascii.quote :: p)).splitOn Ascii.quote) :
    type' = type ∨ typePieces type' <:+: p.splitOn Ascii.quote := by
  have hcolon : [Ascii.colon] ≠ [Ascii.comma] := by decide
  rw [splitOn_lineHead hnode htype] at h
  simp only [typePieces_cons_iff, List.cons_prefix_cons] at h
  -- at each piece of the head: it would have to be `type`, and the next one a colon
  rcases h with ⟨h, -⟩ | ⟨h, -⟩ | ⟨h, -⟩ | ⟨-, h, -⟩ | ⟨h, -⟩ | ⟨h, -⟩ | ⟨h, -⟩ | ⟨-, -, h, -⟩ |
    ⟨h, -⟩ | ⟨-, h, -⟩ | ⟨h, -⟩ | h
  · exact absurd h (by decide)
  · exact absurd h (by decide)
  · exact absurd h (by decide)
  · exact absurd h hcolon
  · exact absurd h (by decide)
  · exact absurd h (by decide)
  · exact absurd (List.cons.inj h).1 (by decide)
  · exact Or.inl h
  · exact absurd h (by decide)
  · exact absurd h hcolon
  · exact absurd h (by decide)
  · exact Or.inr h

/-- The text of a type behind the head of a line with fields is one of its fields. -/
theorem typePieces_fields {type sep : Bytes} {fs : List FrameKv} (hsep : Ascii.quote ∉ sep)
    (hsep' : ascii "type" ≠ sep)
    (hfs : ∀ f ∈ fs, Ascii.quote ∉ f.key.bytes ∧ Ascii.quote ∉ f.value.bytes)
    (h : typePieces type <:+: (sep ++ (jsonFieldsText [] fs ++
      [Ascii.closeBrace, Ascii.closeBrace])).splitOn Ascii.quote) :
    ∃ f ∈ fs, f.key.bytes = ascii "type" ∧ f.value.bytes = type := by
  induction fs generalizing sep with
  | nil =>
    have hend : Ascii.quote ∉ sep ++ (jsonFieldsText [] [] ++
        [Ascii.closeBrace, Ascii.closeBrace]) := by
      rw [List.mem_append, not_or]
      exact ⟨hsep, by decide⟩
    rw [List.splitOn_eq_singleton hend] at h
    exact absurd h.length_le (by simp [typePieces])
  | cons f fs ih =>
    obtain ⟨hkey, hvalue⟩ := hfs f (by simp)
    -- what stands behind the field: the end, or a comma and the next field
    obtain ⟨sep', hbehind, hquote', htype', hcolon'⟩ : ∃ sep' : Bytes,
        jsonFieldsText [Ascii.comma] fs ++ [Ascii.closeBrace, Ascii.closeBrace] =
          sep' ++ (jsonFieldsText [] fs ++ [Ascii.closeBrace, Ascii.closeBrace]) ∧
        Ascii.quote ∉ sep' ∧ ascii "type" ≠ sep' ∧
        ¬ [[Ascii.colon], type] <+: (sep' ++ (jsonFieldsText [] fs ++
          [Ascii.closeBrace, Ascii.closeBrace])).splitOn Ascii.quote := by
      cases fs with
      | nil =>
        refine ⟨[], rfl, by simp, by decide, ?_⟩
        rw [List.splitOn_eq_singleton (by decide)]
        exact fun h => absurd h.length_le (by simp)
      | cons g gs =>
        refine ⟨[Ascii.comma], jsonFieldsText_comma g gs _, by decide, by decide, ?_⟩
        rw [jsonFieldsText_cons, jsonField_append, splitOn_quote (by decide),
          List.cons_prefix_cons]
        exact fun h => absurd h.1 (by decide)
    have hcut : (sep ++ (jsonFieldsText [] (f :: fs) ++
        [Ascii.closeBrace, Ascii.closeBrace])).splitOn Ascii.quote =
          sep :: f.key.bytes :: [Ascii.colon] :: f.value.bytes ::
            (sep' ++ (jsonFieldsText [] fs ++ [Ascii.closeBrace, Ascii.closeBrace])).splitOn
              Ascii.quote := by
      have hfield := splitOn_quote (t := [Ascii.colon]) (by decide) (f.value.bytes ++
        Ascii.quote :: (jsonFieldsText [Ascii.comma] fs ++ [Ascii.closeBrace, Ascii.closeBrace]))
      rw [List.singleton_append] at hfield
      rw [jsonFieldsText_cons, jsonField_append, splitOn_quote hsep, splitOn_quote hkey, hfield,
        splitOn_quote hvalue, hbehind]
    rw [hcut] at h
    simp only [typePieces_cons_iff] at h
    rcases h with ⟨h, -⟩ | ⟨h, hnext⟩ | ⟨h, -⟩ | ⟨-, h⟩ | h
    · exact absurd h hsep'
    · rw [List.cons_prefix_cons, List.cons_prefix_cons] at hnext
      exact ⟨f, by simp, h.symm, hnext.2.1.symm⟩
    · exact absurd h (by decide)
    · exact absurd h hcolon'
    · obtain ⟨g, hg, hfound⟩ := ih hquote' htype' (fun g hg => hfs g (List.mem_cons_of_mem _ hg)) h
      exact ⟨g, List.mem_cons_of_mem _ hg, hfound⟩

/-- A type's text, as the encoder writes it. -/
theorem typeText_eq (type : Bytes) :
    typeText type = Ascii.quote :: (ascii "type" ++ Ascii.quote :: Ascii.colon :: Ascii.quote ::
      (type ++ [Ascii.quote])) := by
  have hopen : ascii "\"type\":\"" = Ascii.quote :: (ascii "type" ++
      [Ascii.quote, Ascii.colon, Ascii.quote]) := by decide
  have hclose : ascii "\"" = [Ascii.quote] := by decide
  rw [typeText, hopen, hclose]
  simp only [List.append_assoc, List.cons_append, List.nil_append]

/-- A head tells its type. -/
theorem lineHas_lineHead (node type p : Bytes) (n : UInt32) :
    lineHas (Ascii.openBrace :: lineHead node n type p) (typeText type) = true := by
  refine lineHas_iff.mpr ⟨Ascii.openBrace :: Ascii.quote :: (ascii "node" ++ Ascii.quote ::
    Ascii.colon :: Ascii.quote :: (node ++ Ascii.quote :: Ascii.comma :: Ascii.quote ::
      (ascii "seq" ++ Ascii.quote :: Ascii.colon :: (decimal n.toNat ++ [Ascii.comma])))),
    Ascii.comma :: p, ?_⟩
  simp [typeText_eq, lineHead]

/-- So does a field. -/
theorem typeText_of_mem {fs : List FrameKv} {f : FrameKv} (hf : f ∈ fs) {type : Bytes}
    (hkey : f.key.bytes = ascii "type") (hvalue : f.value.bytes = type) (sep : Bytes) :
    typeText type <:+: jsonFieldsText sep fs := by
  induction fs generalizing sep with
  | nil => exact absurd hf (by simp)
  | cons g gs ih =>
    rw [jsonFieldsText]
    rcases List.mem_cons.mp hf with rfl | hf
    · refine ⟨sep, jsonFieldsText [Ascii.comma] gs, ?_⟩
      rw [typeText_eq, ← hkey, ← hvalue]
      simp [jsonField]
    · exact (ih hf [Ascii.comma]).trans (List.suffix_append _ _).isInfix

/-- **A DATA line tells another type exactly where a field does**: one with the
key `type` and that value. -/
theorem lineHas_dataLine_iff {data : FrameData} (hnode : Ascii.quote ∉ data.nodeId.bytes)
    (hfs : ∀ f ∈ data.fields.1, Ascii.quote ∉ f.key.bytes ∧ Ascii.quote ∉ f.value.bytes)
    {type : Bytes} (htype : Ascii.quote ∉ type) (hne : type ≠ ascii "DATA") :
    lineHas (dataLine data []) (typeText type) = true ↔
      ∃ f ∈ data.fields.1, f.key.bytes = ascii "type" ∧ f.value.bytes = type := by
  constructor
  · intro h
    rcases typePieces_lineHead hnode (by decide) (typePieces_of_lineHas htype h) with heq | h
    · exact absurd heq hne
    have hcut := splitOn_quote (t := ascii "fields") (by decide) ([Ascii.colon, Ascii.openBrace] ++
      (jsonFieldsText [] data.fields.1 ++ [Ascii.closeBrace, Ascii.closeBrace]))
    rw [List.cons_append, List.singleton_append] at hcut
    rw [hcut, typePieces_cons_iff] at h
    rcases h with ⟨h, -⟩ | h
    · exact absurd h (by decide)
    · have hsep : Ascii.quote ∉ [Ascii.colon, Ascii.openBrace] := by decide
      exact typePieces_fields hsep (by decide) hfs h
  · rintro ⟨f, hf, hkey, hvalue⟩
    refine lineHas_iff.mpr ((typeText_of_mem hf hkey hvalue []).trans ?_)
    refine ⟨Ascii.openBrace :: lineHead data.nodeId.bytes data.sequence (ascii "DATA")
      (Ascii.quote :: (ascii "fields" ++ [Ascii.quote, Ascii.colon, Ascii.openBrace])),
      [Ascii.closeBrace, Ascii.closeBrace], ?_⟩
    simp [dataLine, fieldsTail, lineHead]

/-- A NACK line does not tell ACK. -/
theorem not_lineHas_nackLine {nack : FrameNack} (hnode : Ascii.quote ∉ nack.nodeId.bytes)
    (herror : Ascii.quote ∉ nack.error.bytes) :
    ¬ lineHas (nackLine nack []) (typeText (ascii "ACK")) = true := by
  intro h
  rcases typePieces_lineHead hnode (by decide) (typePieces_of_lineHas (by decide) h) with heq | h
  · exact absurd heq (by decide)
  have hcolon := splitOn_quote (t := [Ascii.colon]) (by decide)
    (nack.error.bytes ++ [Ascii.quote, Ascii.closeBrace])
  rw [List.singleton_append] at hcolon
  rw [splitOn_quote (by decide), hcolon, splitOn_quote herror,
    List.splitOn_eq_singleton (a := Ascii.quote) (by decide)] at h
  simp only [typePieces_cons_iff, List.cons_prefix_cons] at h
  rcases h with ⟨h, -⟩ | ⟨h, -⟩ | ⟨-, h, -⟩ | ⟨h, -⟩ | h
  · exact absurd h (by decide)
  · exact absurd h (by decide)
  · exact absurd h (by decide)
  · exact absurd h (by decide)
  · exact absurd h.length_le (by simp [typePieces])

/-! ## What the server hands on -/

namespace UplinkMessage

/-- The call a message is for. -/
def serverCall : UplinkMessage → ServerCall
  | .data d => .update d
  | .ack a => .onAck a
  | .nack n => .onNack n

/-- Strings that need no escape: none empty, and no `"` or backslash in any. -/
structure Clean (m : UplinkMessage) : Prop where
  node_ne : m.nodeId.bytes ≠ []
  text_ne : ∀ t ∈ m.texts, t ≠ []
  node : Ascii.quote ∉ m.nodeId.bytes ∧ Ascii.backslash ∉ m.nodeId.bytes
  text : ∀ t ∈ m.texts, Ascii.quote ∉ t ∧ Ascii.backslash ∉ t

/-- No field of a DATA message passes for the type of an answer. -/
def TellsOneType : UplinkMessage → Prop
  | .data d => ∀ f ∈ d.fields.1, f.key.bytes = ascii "type" →
      f.value.bytes ≠ ascii "ACK" ∧ f.value.bytes ≠ ascii "NACK"
  | .ack _ => True
  | .nack _ => True

theorem Clean.stable {m : UplinkMessage} (h : m.Clean) : m.Stable :=
  ⟨stable_of_not_mem h.node.1 h.node.2,
    fun t ht => stable_of_not_mem (h.text t ht).1 (h.text t ht).2⟩

end UplinkMessage

/-- A DATA line that tells another type is not handed on. -/
theorem onLine_ne_update {ctx : ServerContext} {line : Bytes} {now : ℤ}
    (h : lineHas line (typeText (ascii "ACK")) = true ∨
      lineHas line (typeText (ascii "NACK")) = true) (data : FrameData) :
    (onLine ctx line now).2 ≠ some (.update data) := by
  rw [onLine]
  split_ifs with hack hnack
  · split
    · exact fun h => absurd h (by simp)
    · exact fun h => absurd (Option.some.inj h) (by simp)
  · split
    · exact fun h => absurd h (by simp)
    · exact fun h => absurd (Option.some.inj h) (by simp)
  · rcases h with h | h
    · exact absurd h hack
    · exact absurd h hnack

/-- **The server hands on the message a line was built from, exactly if no field
of a DATA message passes for the type of an answer.** ACK and NACK messages always
arrive; `on_line` gets the line without its newline. -/
theorem onLine_hands_on_iff (m : UplinkMessage) (hclean : m.Clean) (outSize : ℕ) (text : Bytes)
    (hbuild : m.buildJson outSize = some text) (ctx : ServerContext) (now : ℤ) :
    (onLine ctx text.dropLast now).2 = some m.serverCall ↔ m.TellsOneType := by
  obtain ⟨-, rfl⟩ := UplinkMessage.buildJson_eq_some_iff.mp hbuild
  have hread := UplinkMessage.readFrom_line hclean.stable hclean.text_ne []
  rw [UplinkMessage.line_eq_append, List.dropLast_concat]
  cases m with
  | data d =>
    have hfs := UplinkMessage.forall_fieldTexts.mp hclean.text
    have htells : ∀ (type : Bytes), Ascii.quote ∉ type → type ≠ ascii "DATA" →
        (lineHas (dataLine d []) (typeText type) = true ↔
          ∃ f ∈ d.fields.1, f.key.bytes = ascii "type" ∧ f.value.bytes = type) :=
      fun _ htype hne => lineHas_dataLine_iff hclean.node.1
        (fun f hf => ⟨(hfs f hf).1.1, (hfs f hf).2.1⟩) htype hne
    have hack := htells (ascii "ACK") (by decide) (by decide)
    have hnack := htells (ascii "NACK") (by decide) (by decide)
    constructor
    · intro h f hf hkey
      refine ⟨fun hvalue => ?_, fun hvalue => ?_⟩
      · exact onLine_ne_update (Or.inl (hack.mpr ⟨f, hf, hkey, hvalue⟩)) d h
      · exact onLine_ne_update (Or.inr (hnack.mpr ⟨f, hf, hkey, hvalue⟩)) d h
    · intro h
      have hnotack : ¬ lineHas (dataLine d []) (typeText (ascii "ACK")) = true := by
        rw [hack]
        rintro ⟨f, hf, hkey, hvalue⟩
        exact (h f hf hkey).1 hvalue
      have hnotnack : ¬ lineHas (dataLine d []) (typeText (ascii "NACK")) = true := by
        rw [hnack]
        rintro ⟨f, hf, hkey, hvalue⟩
        exact (h f hf hkey).2 hvalue
      have hdecode : messageJsonDecodeData (dataLine d []) default =
          (some (dataLine d []).length, d) := hread default
      rw [onLine, UplinkMessage.line, if_neg hnotack, if_neg hnotnack, hdecode]
      simp only
      split
      · rfl
      · rfl
  | ack a =>
    have hack : lineHas (ackLine a []) (typeText (ascii "ACK")) = true := lineHas_lineHead _ _ _ _
    have hdecode : messageJsonDecodeAck (ackLine a []) = (some (ackLine a []).length, a) := hread
    rw [onLine, UplinkMessage.line, if_pos hack, hdecode]
    exact iff_of_true rfl trivial
  | nack n =>
    have herror := (hclean.text n.error.bytes (List.mem_singleton.mpr rfl)).1
    have hnotack := not_lineHas_nackLine hclean.node.1 herror
    have hnack : lineHas (nackLine n []) (typeText (ascii "NACK")) = true :=
      lineHas_lineHead _ _ _ _
    have hdecode : messageJsonDecodeNack (nackLine n []) = (some (nackLine n []).length, n) :=
      hread
    rw [onLine, UplinkMessage.line, if_neg hnotack, if_pos hnack, hdecode]
    exact iff_of_true rfl trivial

/-- A report of one field. -/
def oneFieldReport (key : CharBuf frameKvKeyMax) (value : CharBuf frameKvValueMax) :
    UplinkMessage :=
  .data ⟨.lit 32 "N1", 7, .single ⟨key, value⟩⟩

/-- A report of a switch position under the key `mode` is handed on. -/
theorem onLine_hands_on_mode :
    (onLine ⟨⟨1, [], by decide, by decide⟩, commandManagerCreate⟩
      (ascii "\x7b\"node\":\"N1\",\"seq\":7,\"type\":\"DATA\",\"fields\":\x7b\"mode\":\"ACK\"\x7d\x7d\n").dropLast
        0).2 =
      some (oneFieldReport ⟨⟨ascii "mode", by decide⟩, by decide⟩
        ⟨⟨ascii "ACK", by decide⟩, by decide⟩).serverCall ↔
    (oneFieldReport ⟨⟨ascii "mode", by decide⟩, by decide⟩
      ⟨⟨ascii "ACK", by decide⟩, by decide⟩).TellsOneType :=
  onLine_hands_on_iff _ ⟨by decide, by decide, by decide, by decide⟩ 256 _ (by decide +kernel) _ 0

/-- The same report under the key `type` is not: it is taken for an ACK. -/
theorem not_onLine_hands_on_type :
    ¬ ∀ (m : UplinkMessage), m.Clean → ∀ (outSize : ℕ) (text : Bytes),
      m.buildJson outSize = some text → ∀ (ctx : ServerContext) (now : ℤ),
        (onLine ctx text.dropLast now).2 = some m.serverCall := by
  intro h
  have hcall := h (oneFieldReport ⟨⟨ascii "type", by decide⟩, by decide⟩
      ⟨⟨ascii "ACK", by decide⟩, by decide⟩)
    ⟨by decide, by decide, by decide, by decide⟩ 256
    (ascii "\x7b\"node\":\"N1\",\"seq\":7,\"type\":\"DATA\",\"fields\":\x7b\"type\":\"ACK\"\x7d\x7d\n")
    (by decide +kernel) ⟨⟨1, [], by decide, by decide⟩, commandManagerCreate⟩ 0
  exact absurd hcall (by decide +kernel)

end SmartGateway
