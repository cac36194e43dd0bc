import SmartGateway.Gateway.ConnectionIntake
import SmartGateway.Gateway.GatewayLoop

/-!
# Ways out of the loops

Whatever a thread is waiting for, the call may come back so that the thread gets nearer to its
end: the connection is gone, or nothing was there. What is left to do is what has come and is
not handed on, and the few calls on the way out.
-/

namespace SmartGateway

/-! ## A connection -/

/-- What has come and is not handed on. -/
def Intake.size : Intake → ℕ
  | .frames _ rest => rest.length
  | .lines buffer => buffer.length

theorem length_lt_of_nextFrame {parser after : FrameParser} {bytes rest : Bytes}
    {frame : ParsedFrame} (h : nextFrame parser bytes = (after, some (frame, rest))) :
    rest.length < bytes.length := by
  induction bytes generalizing parser with
  | nil => cases h
  | cons ch bytes ih =>
    rw [nextFrame] at h
    dsimp only at h
    split at h
    · exact Nat.lt_succ_of_lt (ih h)
    · cases h
      exact Nat.lt_succ_self _

theorem Intake.size_next {intake intake' : Intake} {input : UplinkInput}
    (h : intake.next = (intake', some input)) : intake'.size < intake.size := by
  cases intake with
  | frames parser rest =>
    rw [Intake.next] at h
    split at h
    · cases h
    · rename_i hnext
      cases h
      exact length_lt_of_nextFrame hnext
  | lines buffer =>
    rw [Intake.next] at h
    split at h
    · cases h
    · rename_i hturn
      cases h
      exact length_lt_of_lineParserTurn hturn

namespace ConnectionLoop

/-- The call it is at comes back so that it gets nearer to its end. -/
def exit (c : ConnectionLoop) : LoopEvent :=
  match c.worker.control, c.stage with
  | .sending .., _ => .send .refused
  | .leaving, _ | .stopped, _ | .loop, .leaving => .leave
  | .loop, .head => .turn false
  | .loop, .polling => .poll .failed
  | .loop, .reading _ => .read .failed
  | .loop, .calling .. => .called 0

/-- How far it is from its end. -/
def left (c : ConnectionLoop) : ℕ :=
  match c.worker.control, c.stage with
  | .stopped, _ => 0
  | .leaving, _ | .loop, .leaving => 1
  | .sending .., _ | .loop, .head | .loop, .polling | .loop, .reading _ => 2
  | .loop, .calling .. => 3 + c.intake.size

variable {c : ConnectionLoop}

theorem exit_under (c : ConnectionLoop) : c.exit.under false = c.exit := by
  unfold exit
  split <;> rfl

theorem left_fed (hloop : c.worker.control = .loop) (hungUp : Bool) : (c.fed hungUp).left ≤ 2 := by
  have hleft : ∀ stage, (∀ input hungUp, stage ≠ .calling input hungUp) →
      (c.goTo stage).left ≤ 2 := by
    intro stage hstage
    cases stage with
    | calling input hungUp => exact absurd rfl (hstage input hungUp)
    | head | polling | reading _ | leaving => simp [left, goTo, hloop]
  rw [fed, checkHangup]
  split
  · split
    · exact hleft _ fun _ _ => LoopStage.noConfusion
    · exact hleft _ fun _ _ => LoopStage.noConfusion
  · exact hleft _ fun _ _ => LoopStage.noConfusion

theorem left_feed (hloop : c.worker.control = .loop) (hungUp : Bool) :
    (c.feed hungUp).left < 3 + c.intake.size := by
  rw [feed]
  split
  · rename_i intake hnext
    exact Nat.lt_of_le_of_lt (left_fed (c := { c with intake := intake }) hloop hungUp)
      (by omega)
  · rename_i intake input hnext
    have hsize := Intake.size_next hnext
    simp only [left, hloop]
    omega

theorem control_leaveConnection (devices : DeviceManager) (worker : Worker) :
    (leaveConnection devices worker).worker.control = .stopped := by
  unfold leaveConnection
  dsimp only
  split <;> rfl

/-- **It gets nearer.** -/
theorem left_exit (devices : DeviceManager) (h : c.worker.control ≠ .stopped) :
    (loopStep devices c c.exit).loop.left < c.left := by
  cases hcontrol : c.worker.control with
  | stopped => exact absurd hcontrol h
  | sending command w =>
    simp [exit, left, hcontrol, loopStep, did, sendCommandTurn, sendAllTurn]
  | leaving => simp [exit, left, hcontrol, loopStep, did, control_leaveConnection]
  | loop =>
    cases hstage : c.stage with
    | head => simp [exit, left, hcontrol, hstage, loopStep, goTo]
    | polling => simp [exit, left, hcontrol, hstage, loopStep, polled, goTo]
    | reading hungUp => simp [exit, left, hcontrol, hstage, loopStep, read, goTo]
    | leaving => simp [exit, left, hcontrol, hstage, loopStep, did, control_leaveConnection]
    | calling input hungUp =>
      have hleft : c.left = 3 + c.intake.size := by simp only [left, hcontrol, hstage]
      have hexit : c.exit = .called 0 := by simp only [exit, hcontrol, hstage]
      rw [hleft, hexit]
      simp only [loopStep, hcontrol, hstage]
      exact left_feed rfl hungUp

end ConnectionLoop

/-! ## The Bluetooth worker -/

/-- How far it is from its end. -/
def BluetoothWorker.left (b : BluetoothWorker) : ℕ :=
  match b.control with
  | .stopped => 0
  | .opening => 1
  | .connected c => 2 + c.left

theorem BluetoothWorker.left_went (b : BluetoothWorker) (c : ConnectionLoop) :
    (b.went c).left ≤ 2 + c.left := by
  unfold went
  split
  · change 1 ≤ 2 + c.left
    omega
  · exact Nat.le_refl _

/-- A connection that is over is not the current one. -/
def BluetoothWorker.Current (b : BluetoothWorker) : Prop :=
  ∀ c, b.control = .connected c → c.worker.control ≠ .stopped

theorem BluetoothWorker.current_went (b : BluetoothWorker) {c : ConnectionLoop} (h : c.Gathers)
    (hbluetooth : c.worker.context.transport = .bluetooth) : (b.went c).Current := by
  have htransport := h.transport.trans hbluetooth
  intro c' hc' hstopped
  unfold went at hc'
  split at hc'
  · cases hc'
  · rename_i hnot
    cases hc'
    cases hintake : c.intake with
    | frames parser rest => exact hnot parser rest hstopped hintake
    | lines buffer =>
      rw [hintake] at htransport
      cases htransport

theorem gatewayThreads_current (threadId : ℕ) {s : GatewayThreads}
    (hs : (gatewayThreads threadId).Reachable s) : s.bluetooth.Current := by
  obtain ⟨events, rfl⟩ := hs
  induction events using List.reverseRecOn with
  | nil => exact fun c hc => BluetoothControl.noConfusion hc
  | append_singleton events e ih =>
    have hgathers := (gatewayThreads_gathers threadId events).1
    rw [Machine.state_concat]
    generalize (gatewayThreads threadId).state events = s at ih hgathers ⊢
    change (threadStep s e).1.bluetooth.Current
    unfold threadStep
    split
    · exact ih
    · split
      · exact fun c hc => BluetoothControl.noConfusion hc
      · intro c hc
        cases hc
        exact WorkerControl.noConfusion
      · exact ih
    · split
      · rename_i c hcontrol
        have hc : c ∈ s.bluetooth.connections := by
          simp [BluetoothWorker.connections, BluetoothWorker.current, hcontrol]
        obtain ⟨hgather, htransport⟩ := hgathers c hc
        exact s.bluetooth.current_went (hgather.step s.devices _)
          ((loopStep_transport s.devices c _).trans htransport)
      · exact ih
      · exact ih
    · exact ih
    · split
      · exact ih
      · exact ih

/-! ## The server link -/

/-- The call it is at comes back so that it gets nearer to its end. -/
def ServerLink.exit (s : ServerLink) : LinkEvent :=
  match s.control with
  | .head _ | .stopped => .turn false .empty
  | .connecting => .connect false
  | .sending .. | .answering .. => .send .refused
  | .polling _ => .poll .failed
  | .receiving .. => .recv .failed
  | .onLine .. => .line deviceManagerInit

/-- How far it is from its end. -/
def ServerLink.left (s : ServerLink) : ℕ :=
  match s.control with
  | .stopped => 0
  | .head _ => 1
  | .connecting | .sending .. | .polling _ | .receiving .. => 2
  | .answering .. => 3 + 2 * s.tcpBuffer.length
  | .onLine .. => 4 + 2 * s.tcpBuffer.length

namespace ServerLink

variable {s : ServerLink}

theorem left_feed (s : ServerLink) (c : Connection) (hungUp : Bool) :
    (s.feed c hungUp).left < 3 + 2 * s.tcpBuffer.length := by
  rw [feed]
  split
  · rw [checkHangup]
    split
    · simp only [left, disconnect]
      omega
    · simp only [left]
      omega
  · rename_i line rest hturn
    have hlt := length_lt_of_lineParserTurn hturn
    simp only [left]
    omega

theorem left_answer (s : ServerLink) (c : Connection) (w : WriteLog.Write Byte) (hungUp : Bool) :
    (s.answer c w hungUp).left < 4 + 2 * s.tcpBuffer.length := by
  rw [answer]
  split
  · have hfeed := left_feed s (c.wrote w) hungUp
    omega
  · simp only [left]
    omega

/-- In the callback, whatever devices it finds. -/
theorem left_line {c : Connection} {line : Line} {hungUp : Bool}
    (hcontrol : s.control = .onLine c line hungUp) (devices : DeviceManager) :
    (serverLinkStep s (.line devices)).left < s.left := by
  have hleft : s.left = 4 + 2 * s.tcpBuffer.length := by simp only [left, hcontrol]
  rw [hleft]
  simp only [serverLinkStep, hcontrol]
  split
  · have hfeed := left_feed s c hungUp
    omega
  · exact left_answer s c _ hungUp

/-- **It gets nearer.** -/
theorem left_exit (h : s.control ≠ .stopped) : (serverLinkStep s s.exit).left < s.left := by
  cases hcontrol : s.control with
  | stopped => exact absurd hcontrol h
  | head connection => simp [exit, left, hcontrol, serverLinkStep, turn, stop]
  | connecting => simp [exit, left, hcontrol, serverLinkStep]
  | sending c w => simp [exit, left, hcontrol, serverLinkStep, sendAllTurn, disconnect]
  | polling c => simp [exit, left, hcontrol, serverLinkStep, polled, disconnect]
  | receiving c hungUp => simp [exit, left, hcontrol, serverLinkStep, received, disconnect]
  | onLine c line hungUp =>
    have hexit : s.exit = .line deviceManagerInit := by simp only [exit, hcontrol]
    rw [hexit]
    exact left_line hcontrol deviceManagerInit
  | answering c w hungUp =>
    have hleft : s.left = 3 + 2 * s.tcpBuffer.length := by simp only [left, hcontrol]
    have hexit : s.exit = .send .refused := by simp only [exit, hcontrol]
    rw [hleft, hexit]
    simp only [serverLinkStep, hcontrol, sendAllTurn]
    exact left_feed s (c.wrote w) hungUp

end ServerLink

end SmartGateway
