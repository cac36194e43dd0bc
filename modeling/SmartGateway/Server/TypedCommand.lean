import SmartGateway.Common.JsonStable
import SmartGateway.Common.Scanning
import SmartGateway.Server.CommandRuns

/-!
# Typed commands

`handle_stdin_command` of `server/main.c`: a line from the terminal is `help`, `nodes`, or
the command `led` with a target and a value, which is entered into the command table and
sent to the gateway. `TypedLed` says which lines are such a command.
-/

namespace SmartGateway

open Numeral

/-- `CMD_BUFFER_SIZE`. -/
abbrev cmdBufferSize : ℕ := 256

/-- `CMD_SENDER`. -/
def cmdSender : CharBuf 32 := ⟨⟨ascii "GATEWAY", by decide⟩, by decide⟩

theorem nulFree_led : (0 : Byte) ∉ ascii "LED" := by decide

theorem length_led_lt : (ascii "LED").length < frameKvKeyMax := by decide

/-- The key `LED`. -/
def ledKey : CharBuf frameKvKeyMax := ⟨⟨ascii "LED", nulFree_led⟩, length_led_lt⟩

/-- The one field of the command: `LED`, with the value as `%d` prints it. -/
def ledFields (value : ℤ) : FrameFields := .single ⟨ledKey, intText (BitVec.ofInt 32 value)⟩

/-- The command for a target, under its sequence. -/
def typedLedCommand (targetNode : CharBuf 32) (value : ℤ) (sequence : UInt32) : FrameCommand :=
  ⟨targetNode, cmdSender, sequence, ledFields value⟩

/-- The size of the buffer the server builds a CMD line in. -/
abbrev cmdJsonSize : ℕ := 256

/-- `command[strcspn(command, "\r\n")] = '\0'`. -/
def cutLine (line : Bytes) : Bytes := line.takeWhile fun b => b ≠ Ascii.cr && b ≠ Ascii.lf

/-- `sscanf(command, "led %31s %31s %c", ...)`: the two words, where it returns 2. A word of
31 bytes fits its array. -/
def scanLedCommand (command : Bytes) : Option (CharBuf 32 × Bytes) :=
  if !(ascii "led").isPrefixOf command then
    none
  else
    match scanWord 31 (command.drop 3) with
    | none => none
    | some (targetNode, rest) =>
      match scanWord 31 rest with
      | none => none
      | some (ledText, rest) =>
        -- a third conversion takes the next byte that is not space
        if rest.dropWhile isspace ≠ [] then none
        else (CharBuf.ofRaw? 32 targetNode).map fun targetNode => (targetNode, ledText)

/-- What `handle_stdin_command` comes to. -/
inductive StdinOutcome
  | noLine
  | help
  | nodes
  | unknownCommand
  | invalidValue
  | noGateway
  | tableFull
  | buildFailed
  /-- The text it hands to `send_all`. -/
  | sends (text : Bytes)
deriving DecidableEq

/-- `handle_stdin_command`, from the line that `fgets` wrote to the text for `send_all`. The
command is in the table before its line is built. -/
def handleStdinCommand (connected : Bool) (manager : CommandManager)
    (line : Option (CharBuf cmdBufferSize)) (now : ℤ) : CommandManager × StdinOutcome :=
  match line with
  | none => (manager, .noLine)
  | some line =>
    let command := cutLine line.bytes
    if command = ascii "help" then
      (manager, .help)
    else if command = ascii "nodes" then
      (manager, .nodes)
    else
      match scanLedCommand command with
      | none => (manager, .unknownCommand)
      | some (targetNode, ledText) =>
        match strtol ledText with
        | none => (manager, .invalidValue)
        | some value =>
          if value < 0 ∨ 1 < value then
            (manager, .invalidValue)
          else if !connected then
            (manager, .noGateway)
          else
            match commandManagerSend manager (some targetNode.toCStr) (some cmdSender.toCStr)
                (some (ledFields value).1) true now with
            | (manager, none) => (manager, .tableFull)
            | (manager, some sequence) =>
              match messageJsonBuildCommand cmdJsonSize
                  (typedLedCommand targetNode value sequence) with
              | none => (manager, .buildFailed)
              | some text => (manager, .sends text)

/-! ## Which lines are commands -/

/-- **A typed `led` command.** The target may follow `led` without space, and fills its
array where the value follows it without space. -/
structure TypedLed (line : Bytes) (targetNode : CharBuf 32) (value : ℤ) : Prop where
  split : ∃ blank₁ blank₂ blank₃ number, Blank blank₁ ∧ Blank blank₂ ∧ Blank blank₃ ∧
    cutLine line = ascii "led" ++ blank₁ ++ targetNode.bytes ++ blank₂ ++ number ++ blank₃ ∧
    (blank₂ = [] → targetNode.bytes.length = 31) ∧ number.length ≤ 31 ∧ IsNumber number value
  solid : Solid targetNode.bytes
  target_ne : targetNode.bytes ≠ []
  binary : value = 0 ∨ value = 1

theorem cutLine_nulFree {line : Bytes} (h : (0 : Byte) ∉ line) : (0 : Byte) ∉ cutLine line :=
  fun hmem => h ((List.takeWhile_prefix _).subset hmem)

/-- The two words behind `led`. -/
theorem scanLedCommand_eq_some_iff {command ledText : Bytes} {targetNode : CharBuf 32}
    (h0 : (0 : Byte) ∉ command) :
    scanLedCommand command = some (targetNode, ledText) ↔
      ∃ blank₁ blank₂ blank₃, Blank blank₁ ∧ Blank blank₂ ∧ Blank blank₃ ∧
        command = ascii "led" ++ blank₁ ++ targetNode.bytes ++ blank₂ ++ ledText ++ blank₃ ∧
        (blank₂ = [] → targetNode.bytes.length = 31) ∧
        (targetNode.bytes ≠ [] ∧ Solid targetNode.bytes) ∧
        ledText ≠ [] ∧ Solid ledText ∧ ledText.length ≤ 31 := by
  unfold scanLedCommand
  constructor
  · intro h
    split at h
    · exact absurd h (by simp)
    rename_i hled
    rw [Bool.not_eq_true, Bool.not_eq_false', List.isPrefixOf_iff_prefix] at hled
    obtain ⟨behind, rfl⟩ := hled
    rw [List.drop_left' (by decide)] at h
    split at h
    · exact absurd h (by simp)
    rename_i word rest hword
    split at h
    · exact absurd h (by simp)
    rename_i ledText' rest' hled
    split at h
    · exact absurd h (by simp)
    rename_i hend
    obtain ⟨targetNode', hcopy, heq⟩ := Option.map_eq_some_iff.mp h
    obtain ⟨rfl, rfl⟩ := Prod.mk.inj heq
    obtain ⟨blank₁, hblank₁, rfl, hne, hsolid, hle, hfull⟩ := scanWord_eq_some_iff.mp hword
    obtain ⟨blank₂, hblank₂, rfl, hne', hsolid', hle', -⟩ := scanWord_eq_some_iff.mp hled
    have hblank₃ : Blank rest' := dropWhile_isspace_eq_nil_iff.mp (not_not.mp hend)
    have h0word : (0 : Byte) ∉ word := fun hmem => h0 (by simp [hmem])
    obtain rfl := (CharBuf.ofRaw?_eq_some_iff h0word).mp hcopy
    refine ⟨blank₁, blank₂, rest', hblank₁, hblank₂, hblank₃, by simp, ?_, ⟨hne, hsolid⟩, hne',
      hsolid', hle'⟩
    -- without space the word went on, so it is full
    rintro rfl
    refine hfull.resolve_right fun hbreaks => ?_
    obtain ⟨b, text, rfl⟩ := List.exists_cons_of_ne_nil hne'
    have hspace := hbreaks b rfl
    rw [hsolid' b List.mem_cons_self] at hspace
    exact absurd hspace (by simp)
  · rintro ⟨blank₁, blank₂, blank₃, hblank₁, hblank₂, hblank₃, rfl, hfull, ⟨hne, hsolid⟩, hne',
      hsolid', hle'⟩
    have hled : ascii "led" <+: ascii "led" ++ blank₁ ++ targetNode.bytes ++ blank₂ ++ ledText ++
        blank₃ := by
      simp only [List.append_assoc]
      exact List.prefix_append _ _
    have hdrop : (ascii "led" ++ blank₁ ++ targetNode.bytes ++ blank₂ ++ ledText ++ blank₃).drop 3 =
        blank₁ ++ targetNode.bytes ++ (blank₂ ++ ledText ++ blank₃) := by
      simp only [List.append_assoc]
      exact List.drop_left' (by decide)
    have hfits := targetNode.fits
    have hword : scanWord 31 (blank₁ ++ targetNode.bytes ++ (blank₂ ++ ledText ++ blank₃)) =
        some (targetNode.bytes, blank₂ ++ ledText ++ blank₃) := by
      refine scanWord_eq_some_iff.mpr ⟨blank₁, hblank₁, rfl, hne, hsolid, by omega, ?_⟩
      cases blank₂ with
      | nil => exact .inl (hfull rfl)
      | cons b blank₂ =>
        right
        intro c hc
        obtain rfl : b = c := Option.some.inj hc
        exact hblank₂ b List.mem_cons_self
    have hvalue : scanWord 31 (blank₂ ++ ledText ++ blank₃) = some (ledText, blank₃) := by
      refine scanWord_eq_some_iff.mpr ⟨blank₂, hblank₂, rfl, hne', hsolid', hle', .inr ?_⟩
      exact fun b hb => hblank₃ b (List.mem_of_mem_head? hb)
    have hend : ¬ blank₃.dropWhile isspace ≠ [] :=
      not_not.mpr (dropWhile_isspace_eq_nil_iff.mpr hblank₃)
    have hbegins : ¬ (!(ascii "led").isPrefixOf (ascii "led" ++ blank₁ ++ targetNode.bytes ++
        blank₂ ++ ledText ++ blank₃)) = true := by
      rw [List.isPrefixOf_iff_prefix.mpr hled]
      decide
    rw [if_neg hbegins, hdrop, hword]
    simp only [hvalue]
    rw [if_neg hend, CharBuf.ofRaw?_bytes]
    rfl

/-- **The lines taken for a command**, and the command they are taken for. -/
theorem typedLed_iff {line : Bytes} (h0 : (0 : Byte) ∉ line) {targetNode : CharBuf 32} {value : ℤ} :
    TypedLed line targetNode value ↔
      ∃ ledText, scanLedCommand (cutLine line) = some (targetNode, ledText) ∧
        strtol ledText = some value ∧ ¬ (value < 0 ∨ 1 < value) := by
  constructor
  · rintro ⟨⟨blank₁, blank₂, blank₃, number, hblank₁, hblank₂, hblank₃, hsplit, hfull, hle,
      hnumber⟩, hsolid, hne, hbinary⟩
    refine ⟨number, (scanLedCommand_eq_some_iff (cutLine_nulFree h0)).mpr ⟨blank₁, blank₂, blank₃,
      hblank₁, hblank₂, hblank₃, hsplit, hfull, ⟨hne, hsolid⟩, hnumber.ne_nil, hnumber.solid,
      hle⟩, ?_, by omega⟩
    exact strtol_eq_some_iff.mpr ⟨[], number, fun b hb => absurd hb List.not_mem_nil, rfl, hnumber⟩
  · rintro ⟨ledText, hscan, hvalue, hrange⟩
    obtain ⟨blank₁, blank₂, blank₃, hblank₁, hblank₂, hblank₃, hsplit, hfull, ⟨hne, hsolid⟩, -,
      hsolid', hle⟩ := (scanLedCommand_eq_some_iff (cutLine_nulFree h0)).mp hscan
    obtain ⟨blank, number, hblank, rfl, hnumber⟩ := strtol_eq_some_iff.mp hvalue
    -- there is no space in the word, so none before the number
    obtain rfl : blank = [] := by
      refine List.eq_nil_iff_forall_not_mem.mpr fun b hb => ?_
      have hspace := hblank b hb
      rw [hsolid' b (List.mem_append_left _ hb)] at hspace
      exact absurd hspace (by simp)
    exact ⟨⟨blank₁, blank₂, blank₃, number, hblank₁, hblank₂, hblank₃, hsplit, hfull, hle,
      hnumber⟩, hsolid, hne, by omega⟩

/-! ## What is sent -/

/-- The line of a typed command fits the buffer it is built in. -/
theorem messageJsonBuildCommand_typedLedCommand (targetNode : CharBuf 32) (value : ℤ)
    (sequence : UInt32) :
    messageJsonBuildCommand cmdJsonSize (typedLedCommand targetNode value sequence) =
      some (commandLine (typedLedCommand targetNode value sequence) [Ascii.lf]) := by
  refine messageJsonBuildCommand_eq_some_iff.mpr ⟨?_, rfl⟩
  change _ < 256
  have htarget := targetNode.fits
  have hsequence : (decimal sequence.toNat).length ≤ 10 :=
    length_decimal_le (by decide) (sequence.toNat_lt.trans (by norm_num))
  have hvalue := length_decimalInt (BitVec.ofInt 32 value)
  -- the texts that are written in the source
  have hnames : (ascii "node").length = 4 ∧ (ascii "sender").length = 6 ∧
      (ascii "GATEWAY").length = 7 ∧ (ascii "seq").length = 3 ∧ (ascii "type").length = 4 ∧
      (ascii "CMD").length = 3 ∧ (ascii "fields").length = 6 ∧ (ascii "LED").length = 3 := by
    decide
  simp only [commandLine, typedLedCommand, fieldsTail, jsonFieldsText, ledFields,
    FrameFields.single, jsonField, intText, ledKey, cmdSender, List.length_append,
    List.length_cons, List.length_nil]
  omega

theorem TypedLed.sendArgsOk {line : Bytes} {targetNode : CharBuf 32} {value : ℤ}
    (h : TypedLed line targetNode value) :
    SendArgsOk targetNode.toCStr cmdSender.toCStr (ledFields value).1 :=
  ⟨h.target_ne, targetNode.fits, by decide, cmdSender.fits, (ledFields value).2⟩

/-- A line for `led` is none of the other two commands. -/
theorem not_led_of_scanLedCommand {command ledText : Bytes} {targetNode : CharBuf 32}
    (h : scanLedCommand command = some (targetNode, ledText)) :
    command ≠ ascii "help" ∧ command ≠ ascii "nodes" := by
  constructor
  · rintro rfl
    have hnone : scanLedCommand (ascii "help") = none := by decide
    exact absurd (hnone.symm.trans h) (by simp)
  · rintro rfl
    have hnone : scanLedCommand (ascii "nodes") = none := by decide
    exact absurd (hnone.symm.trans h) (by simp)

/-- What a typed line can do to the table. -/
inductive StdinEffect (connected : Bool) (manager : CommandManager)
    (line : Option (CharBuf cmdBufferSize)) (now : ℤ) : CommandManager × StdinOutcome → Prop
  | quiet (outcome : StdinOutcome) : (∀ text, outcome ≠ .sends text) →
      StdinEffect connected manager line now (manager, outcome)
  | sent (typed : CharBuf cmdBufferSize) (targetNode : CharBuf 32) (value : ℤ)
      (manager' : CommandManager) : connected = true → line = some typed →
      TypedLed typed.bytes targetNode value →
      commandManagerSend manager (some targetNode.toCStr) (some cmdSender.toCStr)
        (some (ledFields value).1) true now = (manager', some manager.nextSequence) →
      StdinEffect connected manager line now (manager',
        .sends (commandLine (typedLedCommand targetNode value manager.nextSequence) [Ascii.lf]))

/-- **One typed line**: nothing, or one command entered and its line to send. -/
theorem handleStdinCommand_effect (connected : Bool) (manager : CommandManager)
    (line : Option (CharBuf cmdBufferSize)) (now : ℤ) :
    StdinEffect connected manager line now (handleStdinCommand connected manager line now) := by
  unfold handleStdinCommand
  split
  · exact .quiet _ nofun
  rename_i typed
  dsimp only
  split
  · exact .quiet _ nofun
  split
  · exact .quiet _ nofun
  split
  · exact .quiet _ nofun
  rename_i targetNode ledText hscan
  split
  · exact .quiet _ nofun
  rename_i value hvalue
  split
  · exact .quiet _ nofun
  rename_i hrange
  have htyped := (typedLed_iff typed.nulFree).mpr ⟨ledText, hscan, hvalue, hrange⟩
  split
  · exact .quiet _ nofun
  rename_i hconnected
  rw [Bool.not_eq_true, Bool.not_eq_false'] at hconnected
  rcases commandManagerSend_cases manager (some targetNode.toCStr) (some cmdSender.toCStr)
    (some (ledFields value).1) true now with hsend | ⟨i, entry, -, -, -, -, -, -, -, -, hsend⟩
  · simp only [hsend]
    exact .quiet _ nofun
  · simp only [hsend, messageJsonBuildCommand_typedLedCommand]
    exact .sent typed targetNode value _ hconnected rfl htyped hsend

/-- What is typed is one command. -/
theorem TypedLed.unique {line : Bytes} (h0 : (0 : Byte) ∉ line)
    {targetNode targetNode' : CharBuf 32} {value value' : ℤ} (h : TypedLed line targetNode value)
    (h' : TypedLed line targetNode' value') : targetNode = targetNode' ∧ value = value' := by
  obtain ⟨ledText, hscan, hvalue, -⟩ := (typedLed_iff h0).mp h
  obtain ⟨ledText', hscan', hvalue', -⟩ := (typedLed_iff h0).mp h'
  obtain ⟨rfl, rfl⟩ := Prod.mk.inj (Option.some.inj (hscan.symm.trans hscan'))
  exact ⟨rfl, Option.some.inj (hvalue.symm.trans hvalue')⟩

/-- A typed command, where a gateway is connected and there is room: it is entered, and its
line is to be sent. -/
theorem handleStdinCommand_typedLed {manager : CommandManager} {line : CharBuf cmdBufferSize}
    {targetNode : CharBuf 32} {value : ℤ} (htyped : TypedLed line.bytes targetNode value)
    (hroom : manager.occupied < commandManagerMaxCommands) (now : ℤ) :
    ∃ manager', commandManagerSend manager (some targetNode.toCStr) (some cmdSender.toCStr)
        (some (ledFields value).1) true now = (manager', some manager.nextSequence) ∧
      handleStdinCommand true manager (some line) now = (manager',
        .sends (commandLine (typedLedCommand targetNode value manager.nextSequence) [Ascii.lf])) := by
  obtain ⟨ledText, hscan, hvalue, hrange⟩ := (typedLed_iff line.nulFree).mp htyped
  obtain ⟨hhelp, hnodes⟩ := not_led_of_scanLedCommand hscan
  have hsome := (commandManagerSend_ne_none_iff manager htyped.sendArgsOk now).mpr hroom
  rcases commandManagerSend_cases manager (some targetNode.toCStr) (some cmdSender.toCStr)
    (some (ledFields value).1) true now with hsend | ⟨i, entry, -, -, -, -, -, -, -, -, hsend⟩
  · rw [hsend] at hsome
    exact absurd rfl hsome
  · refine ⟨_, hsend, ?_⟩
    simp only [handleStdinCommand, hhelp, hnodes, hscan, hvalue, hrange, if_false, hsend,
      messageJsonBuildCommand_typedLedCommand, Bool.not_true, Bool.false_eq_true]

/-- **When a typed line is sent**: it is a `led` command, a gateway is connected, and the
table has a free slot. The text is then the CMD line under the next sequence, and the table is
what `command_manager_send` makes of the command typed, under that sequence; otherwise the table
stays as it is. -/
theorem handleStdinCommand_sends_iff (connected : Bool) (manager : CommandManager)
    (line : CharBuf cmdBufferSize) (now : ℤ) (text : Bytes) :
    ((handleStdinCommand connected manager (some line) now).2 = .sends text ↔
      connected = true ∧ manager.occupied < commandManagerMaxCommands ∧
        ∃ targetNode value, TypedLed line.bytes targetNode value ∧
          text = commandLine (typedLedCommand targetNode value manager.nextSequence) [Ascii.lf]) ∧
    ((handleStdinCommand connected manager (some line) now).2 = .sends text →
      ∀ targetNode value, TypedLed line.bytes targetNode value →
        commandManagerSend manager (some targetNode.toCStr) (some cmdSender.toCStr)
            (some (ledFields value).1) true now =
          ((handleStdinCommand connected manager (some line) now).1,
            some manager.nextSequence)) ∧
    ((∀ text, (handleStdinCommand connected manager (some line) now).2 ≠ .sends text) →
      (handleStdinCommand connected manager (some line) now).1 = manager) := by
  have heffect := handleStdinCommand_effect connected manager (some line) now
  refine ⟨⟨fun h => ?_, ?_⟩, fun h targetNode value htyped => ?_, fun h => ?_⟩
  · generalize handleStdinCommand connected manager (some line) now = result at h heffect
    cases heffect with
    | quiet outcome hquiet => exact absurd h (hquiet text)
    | sent typed targetNode value manager' hconnected hline htyped hsend =>
      obtain rfl := Option.some.inj hline
      refine ⟨hconnected, ?_, targetNode, value, htyped, (StdinOutcome.sends.inj h).symm⟩
      rw [← commandManagerSend_ne_none_iff manager htyped.sendArgsOk now, hsend]
      exact Option.some_ne_none _
  · rintro ⟨rfl, hroom, targetNode, value, htyped, rfl⟩
    obtain ⟨manager', -, heq⟩ := handleStdinCommand_typedLed htyped hroom now
    rw [heq]
  · generalize handleStdinCommand connected manager (some line) now = result at h heffect
    cases heffect with
    | quiet outcome hquiet => exact absurd h (hquiet text)
    | sent typed targetNode' value' manager' hconnected hline htyped' hsend =>
      obtain rfl := Option.some.inj hline
      obtain ⟨rfl, rfl⟩ := htyped.unique line.nulFree htyped'
      exact hsend
  · generalize handleStdinCommand connected manager (some line) now = result at h heffect
    cases heffect with
    | quiet outcome hquiet => rfl
    | sent typed targetNode value manager' hconnected hline htyped hsend => exact absurd rfl (h _)

/-- Both the blank behind `led` and the one before the value can be left out. -/
example : (handleStdinCommand true commandManagerCreate
    (some ⟨⟨ascii "ledABCDEFGHIJKLMNOPQRSTUVWXYZ012341 \r\n", by decide⟩, by decide⟩) 0).2 =
      .sends (commandLine (typedLedCommand ⟨⟨ascii "ABCDEFGHIJKLMNOPQRSTUVWXYZ01234", by decide⟩,
        by decide⟩ 1 1) [Ascii.lf]) := by
  decide +kernel

end SmartGateway
