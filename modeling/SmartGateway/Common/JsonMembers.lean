import SmartGateway.Common.JsonLines

/-!
# Members that do not matter, and their order

What the members of a line do to what is decoded from it. Every member has an effect
that depends on nothing but its own part of the state: its key names the part. So members
with different keys can change places, except that a temperature and a humidity go to the
fields too. A member under a name that no decoder knows does nothing, if its value is
read at all: `json_parse_object` wants a number under any name to fit 32 bits.
-/

namespace SmartGateway

open Numeral ObjectScan

/-! ## Effects -/

/-- What a member can do to the object of `json_parse_object`, by its key. -/
inductive ObjectEffect : Bytes → (JsonObject → Option JsonObject) → Prop
  | refuse (key : Bytes) : ObjectEffect key fun _ => none
  | pass (key : Bytes) : ObjectEffect key fun obj => some obj
  | node (nodeId : CharBuf 32) : ObjectEffect (ascii "node") fun obj =>
      some { obj with nodeId := nodeId, foundNode := true }
  | sender (sender : CharBuf 32) : ObjectEffect (ascii "sender") fun obj =>
      some { obj with sender := sender, foundSender := true }
  | type (typeValue : CharBuf 8) : ObjectEffect (ascii "type") fun obj =>
      some { obj with typeValue := typeValue, foundType := true }
  | led (ledValue : BitVec 32) : ObjectEffect (ascii "led") fun obj =>
      some { obj with ledValue := ledValue, foundLed := true }
  | error (error : CharBuf 32) : ObjectEffect (ascii "error") fun obj =>
      some { obj with error := error, foundError := true }
  | seq (sequence : UInt32) : ObjectEffect (ascii "seq") fun obj =>
      some { obj with sequence := sequence, foundSeq := true }
  | fields (ms : List (MemberText FieldValue)) : ObjectEffect (ascii "fields") fun obj =>
      (runMembers fieldStep ms obj.fields).map fun fields =>
        { obj with fields := fields, foundFields := true }

theorem ObjectEffect.of_eq {key : Bytes} {f g : JsonObject → Option JsonObject}
    (h : ObjectEffect key f) (heq : ∀ obj, g obj = f obj) : ObjectEffect key g := by
  rw [funext heq]
  exact h

/-- A string or a refusal. -/
theorem objectEffect_string (key text : Bytes) : ObjectEffect key (objectString key text) := by
  -- a text that does not fit is refused, under any key
  have hcopy : ∀ {cap : ℕ} {f : CharBuf cap → JsonObject → JsonObject},
      (∀ b, ObjectEffect key fun obj => some (f b obj)) →
        ObjectEffect key fun obj => (CharBuf.ofRaw? cap text).map fun b => f b obj := by
    intro cap f h
    cases CharBuf.ofRaw? cap text with
    | none => exact .refuse key
    | some b => exact h b
  unfold objectString
  by_cases hnode : key = ascii "node"
  · subst hnode
    exact hcopy .node
  by_cases hsender : key = ascii "sender"
  · subst hsender
    exact hcopy .sender
  by_cases htype : key = ascii "type"
  · subst htype
    exact hcopy .type
  by_cases hled : key = ascii "led"
  · subst hled
    by_cases hlong : text = [] ∨ 16 ≤ text.length
    · exact (ObjectEffect.refuse _).of_eq fun obj => if_pos hlong
    · exact (ObjectEffect.led _).of_eq fun obj => if_neg hlong
  by_cases herror : key = ascii "error"
  · subst herror
    by_cases hempty : text = []
    · exact (ObjectEffect.refuse _).of_eq fun obj => if_pos hempty
    · exact (hcopy .error).of_eq fun obj => if_neg hempty
  · simp only [if_neg hnode, if_neg hsender, if_neg htype, if_neg hled, if_neg herror]
    exact .pass key

/-- A number under its name, or one that is passed over. -/
theorem objectEffect_number (key : Bytes) (negative : Bool) (value : ℕ) :
    ObjectEffect key (objectNumber key negative value) := by
  unfold objectNumber
  by_cases hseq : key = ascii "seq"
  · subst hseq
    cases negative with
    | true => exact .refuse _
    | false => exact .seq _
  by_cases hled : key = ascii "led"
  · subst hled
    exact .led _
  · simp only [if_neg hseq, if_neg hled]
    exact .pass key

/-- **What a member does is one of these.** -/
theorem objectEffect_step (key : Bytes) (v : ValueText) :
    ObjectEffect key (objectRules.step key v) := by
  by_cases hkey : key = ascii "fields"
  · subst hkey
    cases v with
    | object o =>
      exact (ObjectEffect.fields o.members).of_eq fun obj => objectRules.step_fields_object obj o
    | string text =>
      exact (ObjectEffect.refuse _).of_eq fun obj => objectRules.step_fields_string obj text
    | number n =>
      exact (ObjectEffect.refuse _).of_eq fun obj => objectRules.step_fields_number obj n
  · cases v with
    | object o =>
      exact (ObjectEffect.refuse _).of_eq fun obj => objectRules.step_object obj hkey o
    | string text =>
      exact (objectEffect_string key text.1).of_eq fun obj => objectRules.step_string obj hkey text
    | number n =>
      by_cases hread : n.digits.1 ≠ [] ∧ decimalValue n.digits.1 ≤ 0xFFFFFFFF
      · exact (objectEffect_number key n.minus (decimalValue n.digits.1)).of_eq fun obj =>
          (objectRules.step_number obj hkey n).trans (if_pos hread)
      · exact (ObjectEffect.refuse _).of_eq fun obj =>
          (objectRules.step_number obj hkey n).trans (if_neg hread)

/-- **Effects under different keys commute.** -/
theorem ObjectEffect.comm {key key' : Bytes} {f f' : JsonObject → Option JsonObject}
    (h : ObjectEffect key f) (h' : ObjectEffect key' f') (hne : key ≠ key') (obj : JsonObject) :
    (f obj).bind f' = (f' obj).bind f := by
  cases h with
  | refuse =>
    cases f' obj with
    | none => rfl
    | some obj' => rfl
  | pass =>
    cases hf : f' obj with
    | none => exact hf
    | some obj' => exact hf
  | fields ms =>
    cases h' with
    | fields => exact absurd rfl hne
    | _ =>
      cases hrun : runMembers fieldStep ms obj.fields with
      | none => simp [hrun]
      | some fields => simp [hrun]
  | _ =>
    cases h' with
    | fields ms =>
      cases hrun : runMembers fieldStep ms obj.fields with
      | none => simp [hrun]
      | some fields => simp [hrun]
    | _ => first | rfl | exact absurd rfl hne

/-- What a member can do in `message_json_decode_data`, by its key; a temperature or a
humidity apart. -/
inductive DataEffect : Bytes → (DataScan → Option DataScan) → Prop
  | refuse (key : Bytes) : DataEffect key fun _ => none
  | pass (key : Bytes) : DataEffect key fun st => some st
  | node (nodeId : CharBuf 32) : DataEffect (ascii "node") fun st =>
      some { st with data := { st.data with nodeId := nodeId }, foundNode := true }
  | type : DataEffect (ascii "type") fun st => some { st with foundType := true }
  | seq (sequence : UInt32) : DataEffect (ascii "seq") fun st =>
      some { st with sequence := sequence, foundSeq := true }
  | fields (ms : List (MemberText FieldValue)) : DataEffect (ascii "fields") fun st =>
      (runMembers fieldStep ms st.data.fields).map fun fields =>
        { st with data := { st.data with fields := fields } }

theorem DataEffect.of_eq {key : Bytes} {f g : DataScan → Option DataScan}
    (h : DataEffect key f) (heq : ∀ st, g st = f st) : DataEffect key g := by
  rw [funext heq]
  exact h

theorem dataEffect_string (key text : Bytes) : DataEffect key (dataString key text) := by
  unfold dataString
  by_cases hnode : key = ascii "node"
  · subst hnode
    cases hcopy : CharBuf.ofRaw? 32 text with
    | none => exact .refuse _
    | some nodeId => exact .node nodeId
  by_cases htype : key = ascii "type"
  · subst htype
    by_cases hdata : text = ascii "DATA"
    · exact DataEffect.type.of_eq fun st => if_pos hdata
    · exact (DataEffect.refuse _).of_eq fun st => if_neg hdata
  · simp only [if_neg hnode, if_neg htype]
    exact .pass key

theorem dataEffect_number {key : Bytes} (htemperature : key ≠ ascii "temperature")
    (hhumidity : key ≠ ascii "humidity") (n : NumberText) :
    DataEffect key (readDataNumber key n) := by
  unfold readDataNumber
  simp only [if_neg (not_or.mpr ⟨htemperature, hhumidity⟩)]
  by_cases hseq : key = ascii "seq"
  · subst hseq
    simp only [if_true]
    by_cases hread : n.minus = false ∧ decimalValue n.digits.1 ≤ 0xFFFFFFFF
    · simp only [if_pos hread]
      exact .seq _
    · simp only [if_neg hread]
      exact .refuse _
  · simp only [if_neg hseq]
    exact .pass key

theorem dataEffect_step {key : Bytes} (htemperature : key ≠ ascii "temperature")
    (hhumidity : key ≠ ascii "humidity") (v : ValueText) :
    DataEffect key (dataRules.step key v) := by
  by_cases hkey : key = ascii "fields"
  · subst hkey
    cases v with
    | object o =>
      exact (DataEffect.fields o.members).of_eq fun st => dataRules.step_fields_object st o
    | string text =>
      exact (DataEffect.refuse _).of_eq fun st => dataRules.step_fields_string st text
    | number n =>
      exact (DataEffect.refuse _).of_eq fun st => dataRules.step_fields_number st n
  · cases v with
    | object o => exact (DataEffect.refuse _).of_eq fun st => dataRules.step_object st hkey o
    | string text =>
      exact (dataEffect_string key text.1).of_eq fun st => dataRules.step_string st hkey text
    | number n =>
      exact (dataEffect_number htemperature hhumidity n).of_eq fun st =>
        dataRules.step_number st hkey n

theorem DataEffect.comm {key key' : Bytes} {f f' : DataScan → Option DataScan}
    (h : DataEffect key f) (h' : DataEffect key' f') (hne : key ≠ key') (st : DataScan) :
    (f st).bind f' = (f' st).bind f := by
  cases h with
  | refuse =>
    cases f' st with
    | none => rfl
    | some st' => rfl
  | pass =>
    cases hf : f' st with
    | none => exact hf
    | some st' => exact hf
  | fields ms =>
    cases h' with
    | fields => exact absurd rfl hne
    | _ =>
      cases hrun : runMembers fieldStep ms st.data.fields with
      | none => simp [hrun]
      | some fields => simp [hrun]
  | _ =>
    cases h' with
    | fields ms =>
      cases hrun : runMembers fieldStep ms st.data.fields with
      | none => simp [hrun]
      | some fields => simp [hrun]
    | _ => first | rfl | exact absurd rfl hne

/-! ## The order of the members -/

/-- **The order of the members does not matter**: lines with the same members, all under
different keys, are decoded the same by `message_json_decode_command`, `_ack` and `_nack`,
and by `message_json_decode_data` where no member is a temperature or a humidity. -/
theorem jsonMembers_perm (t t' : LineText)
    (hperm : t.object.members.Perm t'.object.members)
    (hkeys : (t.object.members.map fun m => m.key.1).Nodup) :
    (SameResult (messageJsonDecodeCommand t.text) (messageJsonDecodeCommand t'.text) ∧
      SameResult (messageJsonDecodeAck t.text) (messageJsonDecodeAck t'.text) ∧
        SameResult (messageJsonDecodeNack t.text) (messageJsonDecodeNack t'.text)) ∧
    ((∀ m ∈ t.object.members, m.key.1 ≠ ascii "temperature" ∧ m.key.1 ≠ ascii "humidity") →
      ∀ old, SameResult (messageJsonDecodeData t.text old) (messageJsonDecodeData t'.text old)) := by
  constructor
  · refine sameResult_of_objectSteps (runMembers_perm hperm hkeys ?_ _)
    intro m _ m' _ hne obj
    exact (objectEffect_step m.key.1 m.value).comm (objectEffect_step m'.key.1 m'.value) hne obj
  · intro hnames old
    refine sameResult_of_dataSteps old (runMembers_perm hperm hkeys ?_ _)
    intro m hm m' hm' hne st
    obtain ⟨ht, hh⟩ := hnames m hm
    obtain ⟨ht', hh'⟩ := hnames m' hm'
    exact (dataEffect_step ht hh m.value).comm (dataEffect_step ht' hh' m'.value) hne st

/-- A command in the order of the builder. -/
def builtOrder : List (MemberText ValueText) :=
  [plainMember (ascii "node") (.string (plainText (ascii "N1"))),
    plainMember (ascii "sender") (.string (plainText (ascii "admin"))),
    plainMember (ascii "seq") (.number (integerText (ascii "7"))),
    plainMember (ascii "type") (.string (plainText (ascii "CMD")))]

/-- A line without white space around its object. -/
def plainLine (ms : List (MemberText ValueText)) : LineText := ⟨noWhite, ⟨ms, none⟩, []⟩

/-- The other way round. -/
theorem jsonMembers_perm_reverse :
    SameResult (messageJsonDecodeCommand (plainLine builtOrder).text)
      (messageJsonDecodeCommand (plainLine builtOrder.reverse).text) :=
  (jsonMembers_perm (plainLine builtOrder) (plainLine builtOrder.reverse)
    builtOrder.reverse_perm.symm (by decide +kernel)).1.1

/-! ## Members under other names -/

/-- The names the decoders know. -/
def knownNames : List Bytes :=
  [ascii "node", ascii "sender", ascii "seq", ascii "led", ascii "error", ascii "type",
    ascii "fields", ascii "temperature", ascii "humidity"]

/-- A string, or a number with its digits in every part. -/
def Extra : ValueText → Prop
  | .string _ => True
  | .number n => n.Strict
  | .object _ => False

/-- No number over 32 bits: its integer part is at most 4294967295. -/
def Within32 : ValueText → Prop
  | .number n => decimalValue n.digits.1 ≤ 0xFFFFFFFF
  | _ => True

/-- A key that is none of them. -/
def Unknown (key : Bytes) : Prop := ∀ name ∈ knownNames, key ≠ name

instance (key : Bytes) : Decidable (Unknown key) :=
  inferInstanceAs (Decidable (∀ name ∈ knownNames, key ≠ name))

instance (v : ValueText) : Decidable (Extra v) :=
  match v with
  | .string _ => inferInstanceAs (Decidable True)
  | .number n => inferInstanceAs (Decidable n.Strict)
  | .object _ => inferInstanceAs (Decidable False)

instance (v : ValueText) : Decidable (Within32 v) :=
  match v with
  | .string _ => inferInstanceAs (Decidable True)
  | .number n => inferInstanceAs (Decidable (decimalValue n.digits.1 ≤ 0xFFFFFFFF))
  | .object _ => inferInstanceAs (Decidable True)

section

variable {key : Bytes} (hkey : Unknown key)
include hkey

theorem objectString_unknown (text : Bytes) (obj : JsonObject) :
    objectString key text obj = some obj := by
  unfold objectString
  rw [if_neg (hkey _ (by simp [knownNames])), if_neg (hkey _ (by simp [knownNames])),
    if_neg (hkey _ (by simp [knownNames])), if_neg (hkey _ (by simp [knownNames])),
    if_neg (hkey _ (by simp [knownNames]))]

theorem objectNumber_unknown (negative : Bool) (value : ℕ) (obj : JsonObject) :
    objectNumber key negative value obj = some obj := by
  unfold objectNumber
  rw [if_neg (hkey _ (by simp [knownNames])), if_neg (hkey _ (by simp [knownNames]))]

/-- It does nothing in `json_parse_object` if its number fits. -/
theorem objectStep_unknown {v : ValueText} (hextra : Extra v) (hfits : Within32 v)
    (obj : JsonObject) : objectRules.step key v obj = some obj := by
  have hfields : key ≠ ascii "fields" := hkey _ (by simp [knownNames])
  cases v with
  | object o => exact hextra.elim
  | string text =>
    rw [objectRules.step_string obj hfields]
    exact objectString_unknown hkey text.1 obj
  | number n =>
    rw [objectRules.step_number obj hfields]
    exact (if_pos ⟨hextra.1, hfits⟩).trans (objectNumber_unknown hkey _ _ obj)

/-- And is refused if it does not. -/
theorem objectStep_refused {v : ValueText} (hlarge : ¬ Within32 v) (obj : JsonObject) :
    objectRules.step key v obj = none := by
  have hfields : key ≠ ascii "fields" := hkey _ (by simp [knownNames])
  cases v with
  | object o => exact absurd trivial hlarge
  | string text => exact absurd trivial hlarge
  | number n =>
    rw [objectRules.step_number obj hfields]
    exact if_neg fun hread => hlarge hread.2

/-- It does nothing in `message_json_decode_data`. -/
theorem dataStep_unknown {v : ValueText} (hextra : Extra v) (st : DataScan) :
    dataRules.step key v st = some st := by
  have hfields : key ≠ ascii "fields" := hkey _ (by simp [knownNames])
  cases v with
  | object o => exact hextra.elim
  | string text =>
    rw [dataRules.step_string st hfields]
    change dataString key text.1 st = some st
    rw [dataString, if_neg (hkey _ (by simp [knownNames])), if_neg (hkey _ (by simp [knownNames]))]
  | number n =>
    rw [dataRules.step_number st hfields]
    change readDataNumber key n st = some st
    have hx10 : ¬ (key = ascii "temperature" ∨ key = ascii "humidity") :=
      not_or.mpr ⟨hkey _ (by simp [knownNames]), hkey _ (by simp [knownNames])⟩
    rw [readDataNumber, if_neg hx10, if_neg (hkey _ (by simp [knownNames]))]

end

theorem parseData_of_decodeData {line : Bytes} {old : FrameData}
    (h : (messageJsonDecodeData line old).1.isSome = true) :
    (parseWith dataMember line DataScan.zero).1.isSome = true := by
  unfold messageJsonDecodeData at h
  split at h
  · exact absurd h (by simp)
  split at h
  · exact absurd h (by simp)
  · rename_i hparse
    rw [hparse]
    rfl

/-- A line accepted is a text. -/
theorem exists_lineText_of_jsonParseObject {line : Bytes}
    (h : (jsonParseObject line).1.isSome = true) : ∃ t : LineText, t.text = line := by
  obtain ⟨consumed, hconsumed⟩ := Option.isSome_iff_exists.mp h
  exact objectMember_readsBy.exists_lineText objectMember_consumes
    (Prod.ext hconsumed rfl : jsonParseObject line = (some consumed, (jsonParseObject line).2))

/-- A line with a member that is refused is refused. -/
theorem jsonParseObject_refused {t : LineText}
    (hrun : runMembers objectRules.step t.object.members JsonObject.zero = none) :
    (jsonParseObject t.text).1.isSome = false := by
  cases hparse : jsonParseObject t.text with
  | mk out obj =>
    cases out with
    | none => rfl
    | some consumed =>
      obtain ⟨hsteps, -⟩ := (objectMember_readsBy.parseWith_text objectMember_consumes t).mp hparse
      rw [hrun] at hsteps
      exact absurd hsteps (by simp)

/-- **Every line a decoder accepts** is a text of members. -/
theorem exists_lineText_of_accepted {line : Bytes} {old : FrameData}
    (h : (messageJsonDecodeCommand line).1.isSome = true ∨
      (messageJsonDecodeAck line).1.isSome = true ∨ (messageJsonDecodeNack line).1.isSome = true ∨
        (messageJsonDecodeData line old).1.isSome = true) : ∃ t : LineText, t.text = line := by
  rcases h with h | h | h | h
  · exact exists_lineText_of_jsonParseObject (messageJsonDecodeCommand_finishes.parsed h)
  · exact exists_lineText_of_jsonParseObject (messageJsonDecodeAck_finishes.parsed h)
  · exact exists_lineText_of_jsonParseObject (messageJsonDecodeNack_finishes.parsed h)
  · obtain ⟨consumed, hconsumed⟩ := Option.isSome_iff_exists.mp (parseData_of_decodeData h)
    exact dataMember_readsBy.exists_lineText dataMember_consumes (Prod.ext hconsumed rfl)

/-- A decoder of `json_parse_object` goes on as before exactly if the number fits. -/
theorem FinishesObject.insert_iff {α : Type} [Inhabited α] {decode : Bytes → Option ℕ × α}
    (hdecode : FinishesObject decode) {t : LineText} {xs ys : List (MemberText ValueText)}
    {m : MemberText ValueText} (hsplit : t.object.members = xs ++ ys) (hkey : Unknown m.key.1)
    (hextra : Extra m.value) (haccept : (decode t.text).1.isSome = true) :
    SameResult (decode t.text) (decode (t.withMembers (xs ++ m :: ys)).text) ↔
      Within32 m.value := by
  constructor
  · intro hsame
    by_contra hlarge
    have hrefused := jsonParseObject_refused (t := t.withMembers (xs ++ m :: ys))
      (runMembers_insert_none (objectStep_refused hkey hlarge) xs ys _)
    have hparsed := hdecode.parsed (hsame.1.symm.trans haccept)
    rw [hrefused] at hparsed
    exact absurd hparsed (by simp)
  · intro hfits
    refine hdecode.sameResult (objectMember_readsBy.sameResult objectMember_consumes ?_)
    rw [hsplit]
    exact (runMembers_insert (objectStep_unknown hkey hextra hfits) xs ys _).symm

/-- **Members under unknown names**: a string or a number put in anywhere under a name no
decoder knows leaves the result of `message_json_decode_data` as it is, and that of the
others exactly if its integer part fits 32 bits. Every line a decoder accepts is such a
text of members. -/
theorem jsonMembers_insert (t : LineText) (xs ys : List (MemberText ValueText))
    (m : MemberText ValueText) (hsplit : t.object.members = xs ++ ys) (hkey : Unknown m.key.1)
    (hextra : Extra m.value) :
    (((messageJsonDecodeCommand t.text).1.isSome = true →
        (SameResult (messageJsonDecodeCommand t.text)
          (messageJsonDecodeCommand (t.withMembers (xs ++ m :: ys)).text) ↔ Within32 m.value)) ∧
      ((messageJsonDecodeAck t.text).1.isSome = true →
        (SameResult (messageJsonDecodeAck t.text)
          (messageJsonDecodeAck (t.withMembers (xs ++ m :: ys)).text) ↔ Within32 m.value)) ∧
      ((messageJsonDecodeNack t.text).1.isSome = true →
        (SameResult (messageJsonDecodeNack t.text)
          (messageJsonDecodeNack (t.withMembers (xs ++ m :: ys)).text) ↔ Within32 m.value)) ∧
      ∀ old, SameResult (messageJsonDecodeData t.text old)
        (messageJsonDecodeData (t.withMembers (xs ++ m :: ys)).text old)) ∧
    ∀ line old, (messageJsonDecodeCommand line).1.isSome = true ∨
      (messageJsonDecodeAck line).1.isSome = true ∨ (messageJsonDecodeNack line).1.isSome = true ∨
        (messageJsonDecodeData line old).1.isSome = true → ∃ t : LineText, t.text = line := by
  refine ⟨⟨?_, ?_, ?_, fun old => ?_⟩, fun line old => exists_lineText_of_accepted⟩
  · exact messageJsonDecodeCommand_finishes.insert_iff hsplit hkey hextra
  · exact messageJsonDecodeAck_finishes.insert_iff hsplit hkey hextra
  · exact messageJsonDecodeNack_finishes.insert_iff hsplit hkey hextra
  · refine sameResult_of_dataSteps old ?_
    rw [hsplit]
    exact (runMembers_insert (dataStep_unknown hkey hextra) xs ys _).symm

/-- A time stamp in milliseconds, which is longer than 32 bits. -/
def timeMember : MemberText ValueText :=
  plainMember (ascii "ts") (.number (integerText (ascii "1700000000000")))

/-- Before a command it is refused, though the command alone is accepted. -/
theorem jsonMembers_insert_time :
    Unknown timeMember.key.1 ∧ Extra timeMember.value ∧
      (messageJsonDecodeCommand (plainLine builtOrder).text).1.isSome = true ∧
        ¬ SameResult (messageJsonDecodeCommand (plainLine builtOrder).text)
          (messageJsonDecodeCommand (plainLine (timeMember :: builtOrder)).text) := by
  refine ⟨by decide +kernel, by decide +kernel, by decide +kernel, fun h => ?_⟩
  exact absurd h.1 (by decide +kernel)

/-- A small number is passed over. -/
theorem jsonMembers_insert_small :
    SameResult (messageJsonDecodeCommand (plainLine builtOrder).text)
      (messageJsonDecodeCommand (plainLine
        (plainMember (ascii "n") (.number (integerText (ascii "1"))) :: builtOrder)).text) :=
  ((jsonMembers_insert (plainLine builtOrder) [] builtOrder _ rfl (by decide +kernel)
    (by decide +kernel)).1.1 (by decide +kernel)).mpr (by decide +kernel)

end SmartGateway
