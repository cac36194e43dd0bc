import SmartGateway.Gateway.GatewayLoop

/-!
# What is shared outlives its threads

`gateway_loop_run` destroys the group, the queue and the devices with no lock held: nothing but
the order of its calls sees to it that no thread uses them any more. Each of its ways out is
read call by call against what is made and which threads there are; and what is so read off is
kept by every step of every thread.
-/

namespace SmartGateway

/-! ## The ways out -/

/-- What `gateway_loop_run` knows: what is made, which threads it has to join, and whether no
WiFi worker is left. -/
structure Standing where
  life : Shared → Life
  server : ThreadLife
  bluetooth : ThreadLife
  idle : Bool

namespace Standing

/-- No thread is left that uses the queue or the devices. -/
def Quiet (st : Standing) : Prop :=
  st.server ≠ .made ∧ st.bluetooth ≠ .made ∧ st.idle = true

/-- When a call on the way out may be made. -/
def Permits (st : Standing) : Cleanup → Prop
  | .closeListener => st.life .listener = .made
  | .shutdownQueue => st.life .queue = .made
  | .joinBluetooth => st.bluetooth = .made
  | .joinServer => st.server = .made
  | .waitWorkers => st.life .workers = .made
  | .destroy .listener => False
  | .destroy .workers => st.life .workers = .made ∧ st.idle = true
  | .destroy .queue => st.life .queue = .made ∧ st.Quiet
  | .destroy .devices => st.life .devices = .made ∧ st.Quiet

/-- What is known behind it. -/
def after (st : Standing) : Cleanup → Standing
  | .closeListener => { st with life := Function.update st.life .listener .destroyed }
  | .shutdownQueue => st
  | .joinBluetooth => { st with bluetooth := .joined }
  | .joinServer => { st with server := .joined }
  | .waitWorkers => { st with idle := true }
  | .destroy what => { st with life := Function.update st.life what .destroyed }

/-- At the end no thread is left, and nothing that was made; but the devices are, where the
Bluetooth worker could not be made. -/
def Over (st : Standing) : Prop :=
  st.Quiet ∧ st.life .listener ≠ .made ∧ st.life .workers ≠ .made ∧ st.life .queue ≠ .made ∧
    (st.life .devices = .made → st.server = .joined ∧ st.bluetooth = .unmade)

/-- A way out on which every call may be made. -/
def Safe : Standing → List Cleanup → Prop
  | st, [] => st.Over
  | st, call :: rest => st.Permits call ∧ (st.after call).Safe rest

/-- What a thread uses is made. -/
structure Holds (st : Standing) : Prop where
  threads : ¬ st.Quiet → st.life .queue = .made ∧ st.life .devices = .made
  workers : st.idle = false → st.life .workers = .made

/-- **A call that may be made** takes nothing from a thread that is left. -/
theorem Holds.after {st : Standing} (h : st.Holds) {call : Cleanup} (hpermits : st.Permits call) :
    (st.after call).Holds := by
  cases call with
  | closeListener => exact ⟨h.threads, h.workers⟩
  | shutdownQueue => exact h
  | joinBluetooth =>
    have hmade : ¬ st.Quiet := fun hquiet => hquiet.2.1 hpermits
    exact ⟨fun _ => h.threads hmade, h.workers⟩
  | joinServer =>
    have hmade : ¬ st.Quiet := fun hquiet => hquiet.1 hpermits
    exact ⟨fun _ => h.threads hmade, h.workers⟩
  | waitWorkers =>
    refine ⟨fun hleft => h.threads fun hquiet => hleft ⟨hquiet.1, hquiet.2.1, rfl⟩, fun hidle => ?_⟩
    exact absurd hidle (by simp [Standing.after])
  | destroy what =>
    cases what with
    | listener => exact absurd hpermits id
    | workers =>
      obtain ⟨-, hidle⟩ := hpermits
      exact ⟨h.threads, fun hbusy => absurd (hidle.symm.trans hbusy) (by simp)⟩
    | queue | devices =>
      obtain ⟨-, hquiet⟩ := hpermits
      exact ⟨fun hleft => absurd hquiet hleft,
        fun hbusy => absurd (hquiet.2.2.symm.trans hbusy) (by simp)⟩

end Standing

/-- These are made. -/
def lifeOf (made : List Shared) (what : Shared) : Life := if what ∈ made then .made else .unmade

theorem update_lifeOf (made : List Shared) (what : Shared) :
    Function.update (lifeOf made) what .made = lifeOf (what :: made) := by
  funext other
  rw [Function.update_apply, lifeOf, lifeOf]
  by_cases hother : other = what
  · rw [if_pos hother, if_pos (hother ▸ List.mem_cons_self)]
  · rw [if_neg hother]
    simp [hother]

/-- All of it. -/
abbrev allShared : List Shared := [.devices, .queue, .workers, .listener]

/-- What is known at a call: up to the loop what is made so far, in the loop all, and on the
way out as much as makes the rest of it safe. -/
def MainPlace.Leads (st : Standing) : MainPlace → Prop
  | .openListener => st = ⟨lifeOf [], .unmade, .unmade, true⟩
  | .initWorkers => st = ⟨lifeOf [.listener], .unmade, .unmade, true⟩
  | .initQueue => st = ⟨lifeOf [.workers, .listener], .unmade, .unmade, true⟩
  | .initDevices => st = ⟨lifeOf [.queue, .workers, .listener], .unmade, .unmade, true⟩
  | .createServer => st = ⟨lifeOf allShared, .unmade, .unmade, true⟩
  | .createBluetooth => st = ⟨lifeOf allShared, .made, .unmade, true⟩
  | .head | .polling | .accepting | .allocating _ | .adding _ | .creating _ | .discarding .. |
    .removing => st = ⟨lifeOf allShared, .made, .made, false⟩
  | .ending calls _ => st.Safe calls

/-! ## The group -/

theorem activeWorkers_remove {group : WorkerGroup} (hpos : 0 < group.activeWorkers) :
    (wifiWorkerGroupRemove group).activeWorkers = group.activeWorkers - 1 := if_pos hpos

theorem waiting_of_remove {group : WorkerGroup} :
    (wifiWorkerGroupRemove group).waiting = true → group.waiting = true := by
  rw [wifiWorkerGroupRemove]
  dsimp only
  generalize (if group.activeWorkers > 0 then group.activeWorkers - 1 else group.activeWorkers) = n
  cases n with
  | zero => exact fun hwaiting => absurd hwaiting (by simp)
  | succ n => exact id

/-! ## The invariant -/

/-- The descriptor `gateway_loop_run` has in hand. -/
def MainPlace.fd : MainPlace → List ℕ
  | .allocating fd | .adding fd | .creating fd | .discarding fd _ => [fd]
  | .openListener | .initWorkers | .initQueue | .initDevices | .createServer | .createBluetooth |
    .head | .polling | .accepting | .removing | .ending .. => []

/-- It has counted a worker that does not run, or not any more. -/
def MainPlace.counted : MainPlace → ℕ
  | .creating _ | .discarding _ true | .removing => 1
  | .openListener | .initWorkers | .initQueue | .initDevices | .createServer | .createBluetooth |
    .head | .polling | .accepting | .allocating _ | .adding _ | .discarding _ false |
    .ending .. => 0

/-- The descriptor a WiFi worker has to close. -/
def WifiThread.held (w : WifiThread) : Option ℕ :=
  match w.stage with
  | .starting | .looping => some w.fd
  | .closed | .gone => none

/-- The worker is still counted. -/
def WifiThread.counts (w : WifiThread) : Bool := w.stage ≠ .gone

namespace Gateway

/-- A thread that may have something to push. -/
def Working (s : Gateway) : GatewayThread → Prop
  | .bluetooth => s.bluetoothThread = .made
  | .wifi i => ∃ w, s.wifi[i]? = some w ∧ w.stage = .looping
  | .main | .server => False

/-- How things stand. -/
structure Stands (s : Gateway) (st : Standing) : Prop where
  life : s.life = st.life
  server : s.serverThread = st.server
  bluetooth : s.bluetoothThread = st.bluetooth
  idle : st.idle = true → ∀ w ∈ s.wifi, w.stage = .gone
  leads : s.place.Leads st
  holds : st.Holds

/-- **The invariant**: every WiFi worker is counted until it is gone, and every descriptor is
closed, or somebody's to close. -/
structure Sound (s : Gateway) : Prop where
  stands : ∃ st, s.Stands st
  counts : s.group.activeWorkers = s.wifi.countP WifiThread.counts + s.place.counted
  descriptors :
    s.accepted.Perm (s.closed ++ (s.place.fd ++ s.wifi.filterMap WifiThread.held))
  waits : s.group.waiting = true → ∃ rest result, s.place = .ending (.waitWorkers :: rest) result
  pushes : ∀ t, s.pushes t ≠ [] → s.Working t

variable {s : Gateway} {st : Standing}

/-- A worker that is not gone. -/
theorem Stands.busy (h : s.Stands st) {w : WifiThread} (hw : w ∈ s.wifi)
    (hstage : w.stage ≠ .gone) : st.idle = false :=
  eq_false_of_ne_true fun hidle => hstage (h.idle hidle w hw)

/-- What it uses is made. -/
theorem Stands.shared_of_busy (h : s.Stands st) {w : WifiThread} (hw : w ∈ s.wifi)
    (hstage : w.stage ≠ .gone) :
    s.life .workers = .made ∧ s.life .queue = .made ∧ s.life .devices = .made := by
  have hbusy := h.busy hw hstage
  rw [h.life]
  refine ⟨h.holds.workers hbusy, h.holds.threads fun hquiet => ?_⟩
  exact absurd (hquiet.2.2.symm.trans hbusy) (by simp)

theorem Stands.shared_of_server (h : s.Stands st) (hserver : s.serverThread = .made) :
    s.life .queue = .made ∧ s.life .devices = .made := by
  rw [h.life]
  exact h.holds.threads fun hquiet => hquiet.1 (h.server.symm.trans hserver)

theorem Stands.shared_of_bluetooth (h : s.Stands st) (hbluetooth : s.bluetoothThread = .made) :
    s.life .queue = .made ∧ s.life .devices = .made := by
  rw [h.life]
  exact h.holds.threads fun hquiet => hquiet.2.1 (h.bluetooth.symm.trans hbluetooth)

/-- What a thread that pushes uses is made. -/
theorem Stands.shared_of_working (h : s.Stands st) {t : GatewayThread} (ht : s.Working t) :
    s.life .queue = .made ∧ s.life .devices = .made := by
  cases t with
  | main | server => exact absurd ht id
  | bluetooth => exact h.shared_of_bluetooth ht
  | wifi i =>
    obtain ⟨w, hw, hstage⟩ := ht
    exact (h.shared_of_busy (List.mem_of_getElem? hw) (by simp [hstage])).2

/-- Nobody waits at another call. -/
theorem Sound.not_waiting (h : s.Sound)
    (hplace : ∀ rest result, s.place ≠ .ending (.waitWorkers :: rest) result) :
    s.group.waiting = false := by
  refine eq_false_of_ne_true fun hwaiting => ?_
  obtain ⟨rest, result, hat⟩ := h.waits hwaiting
  exact hplace rest result hat

/-! ## The threads -/

/-- What a move in the queue changes. -/
theorem exists_pushMove (s : Gateway) (t : GatewayThread)
    (move : GatewayMessage → Move GatewayThread QueueCall) :
    ∃ queue pushes, s.pushMove t move = { s with queue := queue, pushes := pushes } ∧
      ∀ t', pushes t' ≠ [] → s.pushes t' ≠ [] := by
  unfold Gateway.pushMove
  split
  · exact ⟨s.queue, s.pushes, rfl, fun _ => id⟩
  · rename_i message rest hpushes
    dsimp only
    split
    · refine ⟨_, _, rfl, fun t' hleft hnone => hleft ?_⟩
      by_cases ht' : t' = t
      · rw [ht', hpushes] at hnone
        exact absurd hnone (by simp)
      · rw [Function.update_of_ne ht']
        exact hnone
    · exact ⟨_, s.pushes, rfl, fun _ => id⟩
    · exact ⟨_, s.pushes, rfl, fun _ => id⟩

/-- What a call of the server link changes. -/
theorem exists_serverStep (s : Gateway) (e : LinkEvent) (picks : List ℕ) :
    ∃ queue threads link,
      s.serverStep e picks = { s with queue := queue, threads := threads, link := link } ∧
        (queue = s.queue ∨
          queue = (messageQueueMonitor.move s.queue (.enter .server (.tryPop true) picks)).1) ∧
        (threads = s.threads ∨ ∃ line, threads = (threadStep s.threads (.line line)).1) := by
  unfold Gateway.serverStep
  split
  · split
    · exact ⟨_, s.threads, _, rfl, .inr rfl, .inl rfl⟩
    · exact ⟨s.queue, s.threads, _, rfl, .inl rfl, .inl rfl⟩
  · exact ⟨s.queue, _, _, rfl, .inl rfl, .inr ⟨_, rfl⟩⟩
  · exact ⟨s.queue, s.threads, s.link, rfl, .inl rfl, .inl rfl⟩
  · exact ⟨s.queue, s.threads, s.link, rfl, .inl rfl, .inl rfl⟩
  · exact ⟨s.queue, s.threads, _, rfl, .inl rfl, .inl rfl⟩

/-- **What the threads do among themselves**, with the queue, the devices and the server link. -/
theorem Sound.aside (h : s.Sound) (running : Bool)
    (queue : Monitor.Hall GatewayThread MessageQueue QueueCall QueueCondition)
    (threads : GatewayThreads) (link : ServerLink) (pushes : GatewayThread → List GatewayMessage)
    (hpushes : ∀ t, pushes t ≠ [] → s.Working t) :
    { s with
      running := running
      queue := queue
      threads := threads
      link := link
      pushes := pushes }.Sound := by
  obtain ⟨st, hst⟩ := h.stands
  exact ⟨⟨st, hst.life, hst.server, hst.bluetooth, hst.idle, hst.leads, hst.holds⟩, h.counts,
    h.descriptors, h.waits, hpushes⟩

/-- A step of a thread that has to do with devices. -/
theorem Sound.step (h : s.Sound) {t : GatewayThread} (ht : s.Working t) (e : ThreadEvent) :
    (s.step t e).Sound := by
  unfold Gateway.step
  split
  · exact h
  · refine h.aside s.running s.queue _ s.link _ fun t' hpushes => ?_
    by_cases ht' : t' = t
    · exact ht' ▸ ht
    · refine h.pushes t' fun hnone => hpushes ?_
      rw [Function.update_of_ne ht']
      exact hnone

/-- A move of the queue. -/
theorem Sound.pushMove (h : s.Sound) (t : GatewayThread)
    (move : GatewayMessage → Move GatewayThread QueueCall) : (s.pushMove t move).Sound := by
  obtain ⟨queue, pushes, heq, hpushes⟩ := s.exists_pushMove t move
  rw [heq]
  exact h.aside s.running queue s.threads s.link pushes fun t' hleft =>
    h.pushes t' (hpushes t' hleft)

/-- A call of the server link. -/
theorem Sound.serverStep (h : s.Sound) (e : LinkEvent) (picks : List ℕ) :
    (s.serverStep e picks).Sound := by
  obtain ⟨queue, threads, link, heq, -, -⟩ := s.exists_serverStep e picks
  rw [heq]
  exact h.aside s.running queue threads link s.pushes h.pushes

/-- A WiFi worker in the list of them, and another in its place. -/
theorem exists_rest {i : ℕ} {w : WifiThread} (hw : s.wifi[i]? = some w) :
    ∃ rest, s.wifi.Perm (w :: rest) ∧ ∀ w', (s.wifi.set i w').Perm (w' :: rest) := by
  obtain ⟨hlt, rfl⟩ := List.getElem?_eq_some_iff.mp hw
  exact ⟨s.wifi.eraseIdx i, (List.getElem_cons_eraseIdx_perm hlt).symm,
    fun w' => List.set_perm_cons_eraseIdx hlt w'⟩

theorem Working.setWifi {t : GatewayThread} (ht : s.Working t) {i : ℕ} (hne : t ≠ .wifi i)
    (w : WifiThread) (stage : WifiStage) : (s.setWifi i w stage).Working t := by
  cases t with
  | main | server => exact ht
  | bluetooth => exact ht
  | wifi j =>
    obtain ⟨w', hw', hstage⟩ := ht
    refine ⟨w', ?_, hstage⟩
    change (s.wifi.set i _)[j]? = some w'
    rw [List.getElem?_set_ne fun hij : i = j => hne (congrArg GatewayThread.wifi hij.symm)]
    exact hw'

/-- **A worker at its next stage.** -/
theorem Sound.setWifi (h : s.Sound) {i : ℕ} {w : WifiThread} (hw : s.wifi[i]? = some w)
    (hstage : w.stage ≠ .gone) (hpushes : s.pushes (.wifi i) = []) (stage : WifiStage)
    (group : WorkerGroup) (closed : List ℕ)
    (hgroup : group.waiting = true → s.group.waiting = true)
    (hcounts : group.activeWorkers + (if w.counts then 1 else 0) =
      s.group.activeWorkers + (if { w with stage }.counts then 1 else 0))
    (hclosed : (closed ++ ({ w with stage } : WifiThread).held.toList).Perm
      (s.closed ++ w.held.toList)) :
    { s.setWifi i w stage with group := group, closed := closed }.Sound := by
  obtain ⟨st, hst⟩ := h.stands
  obtain ⟨rest, hperm, hperm'⟩ := exists_rest hw
  have hbusy := hst.busy (List.mem_of_getElem? hw) hstage
  refine ⟨⟨st, hst.life, hst.server, hst.bluetooth, fun hidle => ?_, hst.leads, hst.holds⟩, ?_, ?_,
    fun hwaiting => h.waits (hgroup hwaiting), fun t ht => ?_⟩
  · rw [hidle] at hbusy
    cases hbusy
  · have hbefore := h.counts
    have hwifi := (hperm' { w with stage }).countP_eq WifiThread.counts
    rw [hperm.countP_eq, List.countP_cons] at hbefore
    rw [List.countP_cons] at hwifi
    change group.activeWorkers = (s.wifi.set i { w with stage }).countP _ + s.place.counted
    omega
  · have hbefore := h.descriptors
    change s.accepted.Perm (closed ++
      (s.place.fd ++ (s.wifi.set i { w with stage }).filterMap WifiThread.held))
    have hheld : (s.wifi.filterMap WifiThread.held).Perm
        (w.held.toList ++ rest.filterMap WifiThread.held) := by
      refine (hperm.filterMap _).trans ?_
      rw [List.filterMap_cons]
      cases w.held <;> exact .refl _
    have hheld' : ((s.wifi.set i { w with stage }).filterMap WifiThread.held).Perm
        (({ w with stage } : WifiThread).held.toList ++ rest.filterMap WifiThread.held) := by
      refine ((hperm' _).filterMap _).trans ?_
      rw [List.filterMap_cons]
      cases ({ w with stage } : WifiThread).held <;> exact .refl _
    -- the descriptor goes over from the worker to the closed ones, or stays
    have hmoves : ∀ (a b c d : List ℕ), (a ++ (b ++ (c ++ d))).Perm (a ++ c ++ (b ++ d)) := by
      intro a b c d
      rw [List.append_assoc a c]
      refine List.Perm.append_left a ?_
      rw [← List.append_assoc, ← List.append_assoc]
      exact List.perm_append_comm.append_right d
    have hthere := hbefore.trans
      (((hheld.append_left s.place.fd).append_left s.closed).trans (hmoves _ _ _ _))
    have hback := ((hheld'.append_left s.place.fd).append_left closed).trans (hmoves _ _ _ _)
    exact hthere.trans ((hclosed.symm.append_right _).trans hback.symm)
  · have hne : t ≠ .wifi i := fun hti => ht (hti ▸ hpushes)
    exact (h.pushes t ht).setWifi hne w stage

/-- A worker that has something to push is in its loop. -/
theorem Sound.pushes_eq_nil (h : s.Sound) {i : ℕ} {w : WifiThread} (hw : s.wifi[i]? = some w)
    (hstage : w.stage ≠ .looping) : s.pushes (.wifi i) = [] := by
  by_contra hpushes
  obtain ⟨w', hw', hlooping⟩ := h.pushes _ hpushes
  obtain rfl := Option.some.inj (hw.symm.trans hw')
  exact hstage hlooping

/-- `close(client_fd)`. -/
theorem Sound.closeClient (h : s.Sound) {i : ℕ} {w : WifiThread} (hw : s.wifi[i]? = some w)
    (hheld : w.held = some w.fd) (hpushes : s.pushes (.wifi i) = []) :
    (s.closeClient i w).Sound := by
  have hstage : w.stage ≠ .gone := fun hgone => by simp [WifiThread.held, hgone] at hheld
  refine h.setWifi hw hstage hpushes .closed s.group (s.closed ++ [w.fd]) id ?_ ?_
  · simp [WifiThread.counts, hstage]
  · rw [hheld]
    simp [WifiThread.held]

/-- A call of a WiFi worker. -/
theorem Sound.wifiStep (h : s.Sound) (i : ℕ) (e : WifiEvent) : (s.wifiStep i e).Sound := by
  unfold Gateway.wifiStep
  split
  · exact h
  rename_i w hw
  split
  · rename_i ok hstage
    have hpushes := h.pushes_eq_nil hw (by simp [hstage])
    split
    · refine h.setWifi hw (by simp [hstage]) hpushes .looping s.group s.closed id ?_ ?_
      · simp [WifiThread.counts, hstage]
      · simp [WifiThread.held, hstage]
    · exact h.closeClient hw (by simp [WifiThread.held, hstage]) hpushes
  · rename_i e hstage
    have hworking : s.Working (.wifi i) := ⟨w, hw, hstage⟩
    exact h.step hworking _
  · rename_i hstage
    split
    · rename_i hended
      refine h.closeClient hw (by simp [WifiThread.held, hstage]) ?_
      unfold loopEnded at hended
      split at hended
      · assumption
      · cases hended
    · exact h
  · rename_i hstage
    have hpushes := h.pushes_eq_nil hw (by simp [hstage])
    obtain ⟨rest, hperm, -⟩ := exists_rest hw
    have hpos : 0 < s.group.activeWorkers := by
      rw [h.counts, hperm.countP_eq, List.countP_cons, if_pos (by simp [WifiThread.counts, hstage])]
      omega
    refine h.setWifi hw (by simp [hstage]) hpushes .gone (wifiWorkerGroupRemove s.group) s.closed
      ?_ ?_ ?_
    · exact waiting_of_remove
    · rw [activeWorkers_remove hpos]
      simp [WifiThread.counts, hstage]
      omega
    · simp [WifiThread.held, hstage]
  · exact h

/-! ## `gateway_loop_run` -/

theorem holds_unmade (life : Shared → Life) :
    Standing.Holds ⟨life, .unmade, .unmade, true⟩ :=
  ⟨fun hleft => absurd ⟨by simp, by simp, rfl⟩ hleft, fun hbusy => absurd hbusy (by simp)⟩

theorem holds_all (server bluetooth : ThreadLife) (idle : Bool) :
    Standing.Holds ⟨lifeOf allShared, server, bluetooth, idle⟩ :=
  ⟨fun _ => ⟨rfl, rfl⟩, fun _ => rfl⟩

/-- At another call, with nothing else done. -/
theorem Stands.goTo (h : s.Stands st) {place : MainPlace} (hleads : place.Leads st) :
    (s.goTo place).Stands st :=
  ⟨h.life, h.server, h.bluetooth, h.idle, hleads, h.holds⟩

/-- Something is made. -/
theorem Stands.make {made : List Shared} (h : s.Stands ⟨lifeOf made, .unmade, .unmade, true⟩)
    (what : Shared) {place : MainPlace}
    (hleads : place.Leads ⟨lifeOf (what :: made), .unmade, .unmade, true⟩) :
    ((s.setLife what .made).goTo place).Stands ⟨lifeOf (what :: made), .unmade, .unmade, true⟩ := by
  refine ⟨?_, h.server, h.bluetooth, h.idle, hleads, holds_unmade _⟩
  change Function.update s.life what .made = lifeOf (what :: made)
  rw [h.life, update_lifeOf]

/-- A step of `gateway_loop_run` that has to do with no WiFi worker. -/
theorem Sound.moves (h : s.Sound) {s' : Gateway} (st' : Standing) (hst : s'.Stands st')
    (hwifi : s'.wifi = s.wifi) (hgroup : s'.group = s.group) (haccepted : s'.accepted = s.accepted)
    (hclosed : s'.closed = s.closed) (hpushes : s'.pushes = s.pushes)
    (hbluetooth : s.pushes .bluetooth ≠ [] → s.bluetoothThread = .made →
      s'.bluetoothThread = .made)
    (hcounted : s'.place.counted = s.place.counted) (hfd : s'.place.fd = s.place.fd)
    (hwaits : s.group.waiting = false) : s'.Sound := by
  refine ⟨⟨st', hst⟩, ?_, ?_, fun hwaiting => ?_, fun t ht => ?_⟩
  · rw [hgroup, hwifi, hcounted]
    exact h.counts
  · rw [haccepted, hclosed, hfd, hwifi]
    exact h.descriptors
  · rw [hgroup, hwaits] at hwaiting
    cases hwaiting
  · rw [hpushes] at ht
    have hworking := h.pushes t ht
    cases t with
    | main | server => exact hworking
    | bluetooth => exact hbluetooth ht hworking
    | wifi i =>
      obtain ⟨w, hw, hlooping⟩ := hworking
      exact ⟨w, hwifi ▸ hw, hlooping⟩

/-- From one call to another. -/
theorem Sound.goTo (h : s.Sound) (hst : s.Stands st) {next : MainPlace} (hnext : next.Leads st)
    (hcounted : next.counted = s.place.counted) (hfd : next.fd = s.place.fd)
    (hwaits : s.group.waiting = false) : (s.goTo next).Sound :=
  h.moves _ (hst.goTo hnext) rfl rfl rfl rfl rfl (fun _ hmade => hmade) hcounted hfd hwaits

/-- **A call on the way out.** -/
theorem Sound.cleanup (h : s.Sound) {call : Cleanup} {rest : List Cleanup} {result : ℤ}
    (hplace : s.place = .ending (call :: rest) result) :
    (s.cleanup (.ending rest result) call).Sound := by
  obtain ⟨st, hst⟩ := h.stands
  have hleads := hst.leads
  rw [hplace] at hleads
  obtain ⟨hpermits, hsafe⟩ : st.Permits call ∧ (st.after call).Safe rest := hleads
  have hholds := hst.holds.after hpermits
  have hcounted : ∀ rest, (MainPlace.ending rest result).counted = s.place.counted := by
    rw [hplace]
    exact fun _ => rfl
  have hfd : ∀ rest, (MainPlace.ending rest result).fd = s.place.fd := by
    rw [hplace]
    exact fun _ => rfl
  cases call with
  | closeListener =>
    refine h.moves (st.after .closeListener) ⟨?_, hst.server, hst.bluetooth, hst.idle, hsafe,
      hholds⟩ rfl rfl rfl rfl rfl (fun _ hmade => hmade) (hcounted _) (hfd _)
      (h.not_waiting (by simp [hplace]))
    change Function.update s.life _ _ = _
    rw [hst.life]
    rfl
  | shutdownQueue =>
    exact h.moves (st.after .shutdownQueue) ⟨hst.life, hst.server, hst.bluetooth, hst.idle, hsafe,
      hholds⟩ rfl rfl rfl rfl rfl (fun _ hmade => hmade) (hcounted _) (hfd _)
      (h.not_waiting (by simp [hplace]))
  | joinBluetooth =>
    rw [Gateway.cleanup]
    split
    · rename_i hended
      refine h.moves (st.after .joinBluetooth) ⟨hst.life, hst.server, rfl, hst.idle, hsafe,
        hholds⟩ rfl rfl rfl rfl rfl (fun hpushes _ => ?_) (hcounted _) (hfd _)
        (h.not_waiting (by simp [hplace]))
      unfold bluetoothEnded at hended
      split at hended
      · rename_i hnone
        exact absurd hnone hpushes
      · cases hended
    · exact h
  | joinServer =>
    rw [Gateway.cleanup]
    split
    · exact h.moves (st.after .joinServer) ⟨hst.life, rfl, hst.bluetooth, hst.idle, hsafe,
        hholds⟩ rfl rfl rfl rfl rfl (fun _ hmade => hmade) (hcounted _) (hfd _)
        (h.not_waiting (by simp [hplace]))
    · exact h
  | waitWorkers =>
    rw [Gateway.cleanup]
    split
    · exact h
    · rename_i hwaiting
      by_cases hnone : s.group.activeWorkers > 0
      · rw [wifiWorkerGroupWait, if_pos hnone]
        exact ⟨⟨st, hst.life, hst.server, hst.bluetooth, hst.idle, hst.leads, hst.holds⟩, h.counts,
          h.descriptors, fun _ => ⟨rest, result, hplace⟩, h.pushes⟩
      · rw [wifiWorkerGroupWait, if_neg hnone]
        -- nobody is counted, so that nobody is left
        have hgone : ∀ w ∈ s.wifi, w.stage = .gone := by
          have hcounts := h.counts
          have hzero : s.wifi.countP WifiThread.counts = 0 := by omega
          intro w hw
          have hw := List.countP_eq_zero.mp hzero w hw
          simpa [WifiThread.counts] using hw
        exact h.moves (st.after .waitWorkers) ⟨hst.life, hst.server, hst.bluetooth,
          fun _ => hgone, hsafe, hholds⟩ rfl rfl rfl rfl rfl (fun _ hmade => hmade) (hcounted _)
          (hfd _) (by simpa using hwaiting)
  | destroy what =>
    refine h.moves (st.after (.destroy what)) ⟨?_, hst.server, hst.bluetooth, hst.idle, hsafe,
      hholds⟩ rfl rfl rfl rfl rfl (fun _ hmade => hmade) (hcounted _) (hfd _)
      (h.not_waiting (by simp [hplace]))
    change Function.update s.life _ _ = _
    rw [hst.life]
    rfl

/-- At a call up to the loop. -/
theorem Sound.makes (h : s.Sound) {place next : MainPlace} (hplace : s.place = place)
    {made : List Shared} {what : Shared} {calls : List Cleanup} (ok : Bool)
    (hleads : ∀ st, place.Leads st → st = ⟨lifeOf made, .unmade, .unmade, true⟩)
    (hnext : next.Leads ⟨lifeOf (what :: made), .unmade, .unmade, true⟩)
    (hfails : Standing.Safe ⟨lifeOf made, .unmade, .unmade, true⟩ calls)
    (hcounted : next.counted = 0 ∧ place.counted = 0) (hfd : next.fd = [] ∧ place.fd = [])
    (hwaits : s.group.waiting = false) :
    (if ok then (s.setLife what .made).goTo next else s.goTo (.ending calls (-1))).Sound := by
  obtain ⟨st, hst⟩ := h.stands
  obtain rfl := hleads st (hplace ▸ hst.leads)
  split
  · refine h.moves _ (hst.make what hnext) rfl rfl rfl rfl rfl (fun _ hmade => hmade) ?_ ?_ hwaits
    · exact hcounted.1.trans (hplace ▸ hcounted.2).symm
    · exact hfd.1.trans (hplace ▸ hfd.2).symm
  · refine h.goTo hst hfails ?_ ?_ hwaits
    · exact (hplace ▸ hcounted.2).symm
    · exact (hplace ▸ hfd.2).symm

/-- What is known in the loop. -/
abbrev inLoop : Standing := ⟨lifeOf allShared, .made, .made, false⟩

/-- Another call of the loop, with its count and its descriptors. -/
theorem Sound.turns (h : s.Sound) (hst : s.Stands inLoop) (next : MainPlace)
    (hnext : next.Leads inLoop) (group : WorkerGroup) (accepted closed : List ℕ)
    (hwaits : group.waiting = false)
    (hcounts : group.activeWorkers + s.place.counted = s.group.activeWorkers + next.counted)
    (hdescriptors : accepted.Perm (closed ++ (next.fd ++ s.wifi.filterMap WifiThread.held))) :
    { s with
      group := group, accepted := accepted, closed := closed, place := next }.Sound := by
  refine ⟨⟨_, hst.life, hst.server, hst.bluetooth, hst.idle, hnext, hst.holds⟩, ?_, hdescriptors,
    fun hwaiting => ?_, h.pushes⟩
  · have hbefore := h.counts
    change group.activeWorkers = s.wifi.countP _ + next.counted
    omega
  · exact absurd (hwaits.symm.trans hwaiting) (by simp)

/-- A worker is made. -/
theorem Sound.creates (h : s.Sound) (hst : s.Stands inLoop) {fd : ℕ}
    (hplace : s.place = .creating fd) (threads : GatewayThreads)
    (hwaits : s.group.waiting = false) :
    { s with
      threads := threads
      wifi := s.wifi ++ [WifiThread.mk fd .starting]
      place := .head }.Sound := by
  refine ⟨⟨_, hst.life, hst.server, hst.bluetooth, fun hidle => absurd hidle (by simp), rfl,
    hst.holds⟩, ?_, ?_, fun hwaiting => ?_, fun t ht => ?_⟩
  · have hbefore := h.counts
    rw [hplace] at hbefore
    change s.group.activeWorkers = (s.wifi ++ [WifiThread.mk fd .starting]).countP _ + 0
    rw [List.countP_append, hbefore]
    rfl
  · have hbefore := h.descriptors
    rw [hplace] at hbefore
    change s.accepted.Perm (s.closed ++
      (s.wifi ++ [WifiThread.mk fd .starting]).filterMap WifiThread.held)
    rw [List.filterMap_append]
    exact hbefore.trans (List.perm_append_comm.append_left _)
  · exact absurd (hwaits.symm.trans hwaiting) (by simp)
  · have hworking := h.pushes t ht
    cases t with
    | main | server | bluetooth => exact hworking
    | wifi i =>
      obtain ⟨w, hw, hlooping⟩ := hworking
      have hlt := (List.getElem?_eq_some_iff.mp hw).1
      exact ⟨w, (List.getElem?_append_left hlt).trans hw, hlooping⟩

/-- **A call of `gateway_loop_run`.** -/
theorem Sound.mainStep (h : s.Sound) (e : MainEvent) : (s.mainStep e).Sound := by
  obtain ⟨st, hst⟩ := h.stands
  have hleads := hst.leads
  have hdescriptors := h.descriptors
  unfold Gateway.mainStep
  cases hplace : s.place <;> cases e <;> try dsimp only
  case openListener.back ok =>
    exact h.makes hplace ok (fun _ h => h) rfl
      ⟨⟨by decide, by decide, rfl⟩, by decide, by decide, by decide, by decide⟩ ⟨rfl, rfl⟩
      ⟨rfl, rfl⟩ (h.not_waiting (by simp [hplace]))
  case initWorkers.back ok =>
    exact h.makes hplace ok (fun _ h => h) rfl
      ⟨rfl, ⟨by decide, by decide, rfl⟩, by decide, by decide, by decide, by decide⟩ ⟨rfl, rfl⟩
      ⟨rfl, rfl⟩ (h.not_waiting (by simp [hplace]))
  case initQueue.back ok =>
    exact h.makes hplace ok (fun _ h => h) rfl
      ⟨⟨rfl, rfl⟩, rfl, ⟨by decide, by decide, rfl⟩, by decide, by decide, by decide, by decide⟩
      ⟨rfl, rfl⟩ ⟨rfl, rfl⟩ (h.not_waiting (by simp [hplace]))
  case initDevices.back ok =>
    exact h.makes hplace ok (fun _ h => h) rfl
      ⟨⟨rfl, by decide, by decide, rfl⟩, ⟨rfl, rfl⟩, rfl, ⟨by decide, by decide, rfl⟩, by decide,
        by decide, by decide, by decide⟩
      ⟨rfl, rfl⟩ ⟨rfl, rfl⟩ (h.not_waiting (by simp [hplace]))
  case createServer.back ok =>
    rw [hplace] at hleads
    obtain rfl : st = ⟨lifeOf allShared, .unmade, .unmade, true⟩ := hleads
    have hwaits := h.not_waiting (by simp [hplace])
    split
    · exact h.moves ⟨lifeOf allShared, .made, .unmade, true⟩
        ⟨hst.life, rfl, hst.bluetooth, hst.idle, rfl, holds_all _ _ _⟩ rfl rfl rfl rfl rfl
        (fun _ hmade => hmade) (by rw [hplace]; rfl) (by rw [hplace]; rfl) hwaits
    · exact h.goTo hst
        ⟨⟨rfl, by decide, by decide, rfl⟩, ⟨rfl, rfl⟩, ⟨rfl, by decide, by decide, rfl⟩, rfl,
          ⟨by decide, by decide, rfl⟩, by decide, by decide, by decide, by decide⟩
        (by rw [hplace]; rfl) (by rw [hplace]; rfl) hwaits
  case createBluetooth.back ok =>
    rw [hplace] at hleads
    obtain rfl : st = ⟨lifeOf allShared, .made, .unmade, true⟩ := hleads
    have hwaits := h.not_waiting (by simp [hplace])
    split
    · exact h.moves inLoop
        ⟨hst.life, hst.server, rfl, fun hidle => absurd hidle (by simp), rfl, holds_all _ _ _⟩
        rfl rfl rfl rfl rfl (fun _ _ => rfl) (by rw [hplace]; rfl) (by rw [hplace]; rfl) hwaits
    · exact h.goTo hst
        ⟨rfl, rfl, ⟨rfl, by decide, by decide, rfl⟩, ⟨rfl, rfl⟩, rfl, ⟨by decide, by decide, rfl⟩,
          by decide, by decide, by decide, by decide⟩
        (by rw [hplace]; rfl) (by rw [hplace]; rfl) hwaits
  case head.back ok =>
    rw [hplace] at hleads
    obtain rfl : st = inLoop := hleads
    have hwaits := h.not_waiting (by simp [hplace])
    split
    · exact h.goTo hst rfl (by rw [hplace]; rfl) (by rw [hplace]; rfl) hwaits
    · exact h.goTo hst
        ⟨rfl, rfl, rfl, rfl, rfl, ⟨rfl, rfl⟩, ⟨rfl, by decide, by decide, rfl⟩,
          ⟨rfl, by decide, by decide, rfl⟩, ⟨by decide, by decide, rfl⟩, by decide, by decide,
          by decide, by decide⟩
        (by rw [hplace]; rfl) (by rw [hplace]; rfl) hwaits
  case polling.polled result =>
    rw [hplace] at hleads
    obtain rfl : st = inLoop := hleads
    have hwaits := h.not_waiting (by simp [hplace])
    split <;> exact h.goTo hst rfl (by rw [hplace]; rfl) (by rw [hplace]; rfl) hwaits
  case accepting.accepted fd =>
    rw [hplace] at hleads hdescriptors
    obtain rfl : st = inLoop := hleads
    have hwaits := h.not_waiting (by simp [hplace])
    split
    · exact h.goTo hst rfl (by rw [hplace]; rfl) (by rw [hplace]; rfl) hwaits
    · rename_i fd
      refine h.turns hst (.allocating fd) rfl s.group (s.accepted ++ [fd]) s.closed hwaits
        (by rw [hplace]; rfl) ?_
      exact (hdescriptors.append_right [fd]).trans
        ((List.perm_append_singleton _ _).trans List.perm_middle.symm)
  case allocating.back fd ok =>
    rw [hplace] at hleads
    obtain rfl : st = inLoop := hleads
    have hwaits := h.not_waiting (by simp [hplace])
    cases ok
    · exact h.goTo hst rfl (by rw [hplace]; rfl) (by rw [hplace]; rfl) hwaits
    · exact h.goTo hst rfl (by rw [hplace]; rfl) (by rw [hplace]; rfl) hwaits
  case adding.back fd ok =>
    rw [hplace] at hleads hdescriptors
    obtain rfl : st = inLoop := hleads
    have hwaits := h.not_waiting (by simp [hplace])
    exact h.turns hst (.creating fd) rfl (wifiWorkerGroupAdd s.group) s.accepted s.closed
      hwaits (by rw [hplace]; rfl) hdescriptors
  case creating.created fd threadId =>
    rw [hplace] at hleads
    obtain rfl : st = inLoop := hleads
    have hwaits := h.not_waiting (by simp [hplace])
    split
    · exact h.goTo hst rfl (by rw [hplace]; rfl) (by rw [hplace]; rfl) hwaits
    · exact h.creates hst hplace _ hwaits
  case discarding.back fd counted ok =>
    rw [hplace] at hleads hdescriptors
    obtain rfl : st = inLoop := hleads
    have hwaits := h.not_waiting (by simp [hplace])
    have hclosed : s.accepted.Perm (s.closed ++ [fd] ++ s.wifi.filterMap WifiThread.held) := by
      rw [List.append_assoc]
      exact hdescriptors
    cases counted
    · exact h.turns hst .head rfl s.group s.accepted (s.closed ++ [fd]) hwaits
        (by rw [hplace]; rfl) hclosed
    · exact h.turns hst .removing rfl s.group s.accepted (s.closed ++ [fd]) hwaits
        (by rw [hplace]; rfl) hclosed
  case removing.back ok =>
    have hcounts := h.counts
    rw [hplace] at hleads hdescriptors hcounts
    obtain rfl : st = inLoop := hleads
    have hwaits := h.not_waiting (by simp [hplace])
    have hpos : 0 < s.group.activeWorkers := by
      rw [hcounts]
      exact Nat.succ_pos _
    refine h.turns hst .head rfl (wifiWorkerGroupRemove s.group) s.accepted s.closed
      ?_ ?_ hdescriptors
    · exact eq_false_of_ne_true fun hwaiting =>
        absurd (hwaits.symm.trans (waiting_of_remove hwaiting)) (by simp)
    · rw [hplace, activeWorkers_remove hpos]
      exact Nat.sub_add_cancel hpos
  case ending.back calls result ok =>
    cases calls with
    | nil => exact h
    | cons call rest => exact h.cleanup hplace
  case ending.polled calls result polled | ending.accepted calls result fd |
      ending.created calls result threadId =>
    cases calls <;> exact h
  -- no other call comes back like this
  all_goals exact h

end Gateway

/-- **One step.** -/
theorem Gateway.Sound.gatewayLoopStep {s : Gateway} (h : s.Sound) (e : GatewayEvent) :
    (gatewayLoopStep s e).Sound := by
  refine gatewayLoopStep_cases h (h.aside false s.queue s.threads s.link s.pushes h.pushes)
    h.mainStep (fun _ => h.serverStep) (fun hmade e _ => ?_) h.wifiStep
    (fun t move _ => h.pushMove t move) ?_ e
  · have hworking : s.Working .bluetooth := hmade
    exact h.step hworking e
  · obtain ⟨st, hst⟩ := h.stands
    exact ⟨⟨st, hst.life, hst.server, hst.bluetooth, hst.idle, hst.leads, hst.holds⟩, h.counts,
      h.descriptors, fun hwaiting => absurd hwaiting Bool.false_ne_true, h.pushes⟩

/-- In every state of a run. -/
theorem gatewayLoopRun_sound (threadId : ℕ) (events : List GatewayEvent) :
    ((gatewayLoopRun threadId).state events).Sound := by
  refine (gatewayLoopRun threadId).invariant (I := Gateway.Sound) ?_
    (fun s e hs => hs.gatewayLoopStep e) ((gatewayLoopRun threadId).reachable_state events)
  refine ⟨⟨⟨lifeOf [], .unmade, .unmade, true⟩, rfl, rfl, rfl, fun _ w hw => ?_, rfl,
    Gateway.holds_unmade _⟩, rfl, .refl _, fun hwaiting => ?_, fun t ht => absurd rfl ht⟩
  · exact absurd hw List.not_mem_nil
  · exact absurd hwaiting (by simp [gatewayLoopRun])

/-! ## What is used -/

/-- What a call on the way out uses. -/
def Cleanup.uses : Cleanup → List Shared
  | .closeListener => [.listener]
  | .shutdownQueue => [.queue]
  | .joinBluetooth | .joinServer => []
  | .waitWorkers => [.workers]
  | .destroy what => [what]

/-- What `gateway_loop_run` uses at a call. -/
def MainPlace.uses : MainPlace → List Shared
  | .polling | .accepting => [.listener]
  | .adding _ | .removing => [.workers]
  | .ending (call :: _) _ => call.uses
  | .openListener | .initWorkers | .initQueue | .initDevices | .createServer | .createBluetooth |
    .head | .allocating _ | .creating _ | .discarding .. | .ending [] _ => []

/-- What a WiFi worker uses. -/
def WifiThread.uses (w : WifiThread) : WifiEvent → List Shared
  | .loop _ => if w.stage = .looping then [.devices] else []
  | .remove => if w.stage = .closed then [.workers] else []
  | .nonblocking _ | .close => []

/-- What is used where something happens. -/
def Gateway.uses (s : Gateway) : GatewayEvent → List Shared
  | .signal => []
  | .main _ => s.place.uses
  | .server .. => if s.serverThread = .made then [.queue, .devices] else []
  | .opening _ | .bluetooth _ => if s.bluetoothThread = .made then [.devices] else []
  | .wifi i e => (s.wifi[i]?.map fun w => w.uses e).getD []
  | .push t _ | .resume t _ | .wake t => if s.pushes t = [] then [] else [.queue]
  | .wakeMain => if s.group.waiting then [.workers] else []

theorem Standing.Permits.uses_made {st : Standing} {call : Cleanup} (h : st.Permits call) :
    ∀ what ∈ call.uses, st.life what = .made := by
  cases call with
  | joinBluetooth | joinServer => exact fun what hwhat => absurd hwhat List.not_mem_nil
  | closeListener | shutdownQueue | waitWorkers => exact List.forall_mem_singleton.mpr h
  | destroy what =>
    cases what with
    | listener => exact absurd h id
    | workers | queue | devices => exact List.forall_mem_singleton.mpr h.1

namespace Gateway

variable {s : Gateway} {st : Standing}

/-- What `gateway_loop_run` uses is made. -/
theorem Stands.place_uses_made (h : s.Stands st) :
    ∀ what ∈ s.place.uses, s.life what = .made := by
  have hleads := h.leads
  rw [h.life]
  cases hplace : s.place with
  | polling | accepting | adding _ | removing =>
    rw [hplace] at hleads
    obtain rfl : st = inLoop := hleads
    exact List.forall_mem_singleton.mpr rfl
  | ending calls result =>
    rw [hplace] at hleads
    cases calls with
    | nil => exact fun what hwhat => absurd hwhat List.not_mem_nil
    | cons call rest => exact Standing.Permits.uses_made hleads.1
  | _ => exact fun what hwhat => absurd hwhat List.not_mem_nil

/-- **What is used is made.** -/
theorem Sound.uses_made (h : s.Sound) (e : GatewayEvent) :
    ∀ what ∈ s.uses e, s.life what = .made := by
  obtain ⟨st, hst⟩ := h.stands
  have hqueue : ∀ t, ∀ what ∈ (if s.pushes t = [] then [] else [Shared.queue]),
      s.life what = .made := by
    intro t
    split
    · exact fun what hwhat => absurd hwhat List.not_mem_nil
    · rename_i hpushes
      exact List.forall_mem_singleton.mpr (hst.shared_of_working (h.pushes t hpushes)).1
  have hbluetooth : ∀ what ∈ (if s.bluetoothThread = .made then [Shared.devices] else []),
      s.life what = .made := by
    split
    · rename_i hmade
      exact List.forall_mem_singleton.mpr (hst.shared_of_bluetooth hmade).2
    · exact fun what hwhat => absurd hwhat List.not_mem_nil
  cases e with
  | signal => exact fun what hwhat => absurd hwhat List.not_mem_nil
  | main e => exact hst.place_uses_made
  | server e picks =>
    rw [uses]
    split
    · rename_i hmade
      obtain ⟨hqueue, hdevices⟩ := hst.shared_of_server hmade
      exact List.forall_mem_cons.mpr ⟨hqueue, List.forall_mem_singleton.mpr hdevices⟩
    · exact fun what hwhat => absurd hwhat List.not_mem_nil
  | opening fd => exact hbluetooth
  | bluetooth e => exact hbluetooth
  | wifi i e =>
    rw [uses]
    cases hw : s.wifi[i]? with
    | none => exact fun what hwhat => absurd hwhat List.not_mem_nil
    | some w =>
      have hshared := hst.shared_of_busy (List.mem_of_getElem? hw)
      cases e with
      | nonblocking ok => exact fun what hwhat => absurd hwhat List.not_mem_nil
      | close => exact fun what hwhat => absurd hwhat List.not_mem_nil
      | loop e =>
        rw [Option.map_some, Option.getD_some, WifiThread.uses]
        split
        · rename_i hstage
          exact List.forall_mem_singleton.mpr (hshared (by simp [hstage])).2.2
        · exact fun what hwhat => absurd hwhat List.not_mem_nil
      | remove =>
        rw [Option.map_some, Option.getD_some, WifiThread.uses]
        split
        · rename_i hstage
          exact List.forall_mem_singleton.mpr (hshared (by simp [hstage])).1
        · exact fun what hwhat => absurd hwhat List.not_mem_nil
  | push t picks => exact hqueue t
  | resume t picks => exact hqueue t
  | wake t => exact hqueue t
  | wakeMain =>
    rw [uses]
    split
    · rename_i hwaiting
      obtain ⟨rest, result, hplace⟩ := h.waits hwaiting
      have hmade := hst.place_uses_made
      rw [hplace] at hmade
      exact hmade
    · exact fun what hwhat => absurd hwhat List.not_mem_nil

/-- The step leaves the queue, the group and the devices as they are, but for what is used. -/
structure Spares (s s' : Gateway) (used : List Shared) : Prop where
  queue : .queue ∉ used → s'.queue = s.queue
  workers : .workers ∉ used → s'.group = s.group
  devices : .devices ∉ used → s'.threads.devices = s.threads.devices

theorem Spares.refl (s : Gateway) (used : List Shared) : s.Spares s used :=
  ⟨fun _ => rfl, fun _ => rfl, fun _ => rfl⟩

theorem spares_step (s : Gateway) (t : GatewayThread) (e : ThreadEvent) {used : List Shared}
    (hused : .devices ∈ used) : s.Spares (s.step t e) used := by
  unfold Gateway.step
  split
  · exact .refl s used
  · exact ⟨fun _ => rfl, fun _ => rfl, fun hnot => absurd hused hnot⟩

theorem spares_pushMove (s : Gateway) (t : GatewayThread)
    (move : GatewayMessage → Move GatewayThread QueueCall) :
    s.Spares (s.pushMove t move) (if s.pushes t = [] then [] else [.queue]) := by
  unfold Gateway.pushMove
  split
  · exact .refl s _
  · rename_i message rest hpushes
    have hused : Shared.queue ∈ (if s.pushes t = [] then [] else [Shared.queue]) := by
      rw [hpushes]
      exact List.mem_singleton_self _
    dsimp only
    split
    · exact ⟨fun hnot => absurd hused hnot, fun _ => rfl, fun _ => rfl⟩
    · exact ⟨fun hnot => absurd hused hnot, fun _ => rfl, fun _ => rfl⟩
    · exact ⟨fun hnot => absurd hused hnot, fun _ => rfl, fun _ => rfl⟩

theorem spares_serverStep (s : Gateway) (e : LinkEvent) (picks : List ℕ) :
    s.Spares (s.serverStep e picks) [.queue, .devices] := by
  obtain ⟨queue, threads, link, heq, -, -⟩ := s.exists_serverStep e picks
  rw [heq]
  exact ⟨fun hnot => absurd (by simp) hnot, fun _ => rfl, fun hnot => absurd (by simp) hnot⟩

theorem spares_wifiStep (s : Gateway) (i : ℕ) (e : WifiEvent) :
    s.Spares (s.wifiStep i e) (s.uses (.wifi i e)) := by
  unfold Gateway.wifiStep
  split
  · exact .refl s _
  rename_i w hw
  have huses : s.uses (.wifi i e) = w.uses e := by rw [uses, hw, Option.map_some, Option.getD_some]
  rw [huses]
  split
  · split <;> exact ⟨fun _ => rfl, fun _ => rfl, fun _ => rfl⟩
  · rename_i hstage
    exact spares_step s _ _ (by simp [WifiThread.uses, hstage])
  · split
    · exact ⟨fun _ => rfl, fun _ => rfl, fun _ => rfl⟩
    · exact .refl s _
  · rename_i hstage
    exact ⟨fun _ => rfl, fun hnot => absurd (by simp [WifiThread.uses, hstage]) hnot, fun _ => rfl⟩
  · exact .refl s _

theorem spares_cleanup (s : Gateway) (rest : MainPlace) (call : Cleanup) :
    s.Spares (s.cleanup rest call) call.uses := by
  cases call with
  | closeListener | destroy what => exact ⟨fun _ => rfl, fun _ => rfl, fun _ => rfl⟩
  | shutdownQueue =>
    exact ⟨fun hnot => absurd (List.mem_singleton_self _) hnot, fun _ => rfl, fun _ => rfl⟩
  | joinBluetooth | joinServer =>
    rw [Gateway.cleanup]
    split
    · exact ⟨fun _ => rfl, fun _ => rfl, fun _ => rfl⟩
    · exact .refl s _
  | waitWorkers =>
    rw [Gateway.cleanup]
    split
    · exact .refl s _
    · dsimp only
      split
      · exact ⟨fun _ => rfl, fun hnot => absurd (List.mem_singleton_self _) hnot, fun _ => rfl⟩
      · exact ⟨fun _ => rfl, fun hnot => absurd (List.mem_singleton_self _) hnot, fun _ => rfl⟩

theorem spares_mainStep (s : Gateway) (e : MainEvent) :
    s.Spares (s.mainStep e) s.place.uses := by
  unfold Gateway.mainStep
  cases hplace : s.place <;> cases e <;> try dsimp only
  case openListener.back ok | initWorkers.back ok | initQueue.back ok | initDevices.back ok |
      createServer.back ok | createBluetooth.back ok | head.back ok | polling.polled result |
      accepting.accepted fd | creating.created fd threadId =>
    split <;> exact ⟨fun _ => rfl, fun _ => rfl, fun _ => rfl⟩
  case allocating.back fd ok | discarding.back fd counted ok =>
    exact ⟨fun _ => rfl, fun _ => rfl, fun _ => rfl⟩
  case adding.back fd ok | removing.back ok =>
    exact ⟨fun _ => rfl, fun hnot => absurd (List.mem_singleton_self _) hnot, fun _ => rfl⟩
  case ending.back calls result ok =>
    cases calls with
    | nil => exact .refl s _
    | cons call rest => exact s.spares_cleanup _ call
  case ending.polled calls result polled | ending.accepted calls result fd |
      ending.created calls result threadId =>
    cases calls <;> exact .refl s _
  -- no other call comes back like this
  all_goals exact .refl s _

end Gateway

/-- **One step** leaves what it does not use. -/
theorem gatewayLoopStep_spares (s : Gateway) (e : GatewayEvent) :
    s.Spares (gatewayLoopStep s e) (s.uses e) := by
  cases e with
  | signal => exact ⟨fun _ => rfl, fun _ => rfl, fun _ => rfl⟩
  | main e => exact s.spares_mainStep e
  | server e picks =>
    rw [gatewayLoopStep, Gateway.uses]
    split
    · exact s.spares_serverStep e picks
    · exact .refl s _
  | opening fd =>
    rw [gatewayLoopStep, Gateway.uses]
    split
    · exact s.spares_step _ _ (List.mem_singleton_self _)
    · exact .refl s _
  | bluetooth e =>
    rw [gatewayLoopStep, Gateway.uses]
    split
    · exact s.spares_step _ _ (List.mem_singleton_self _)
    · exact .refl s _
  | wifi i e => exact s.spares_wifiStep i e
  | push t picks =>
    exact s.spares_pushMove t fun message => .enter t (.push (some message.raw)) picks
  | resume t picks => exact s.spares_pushMove t fun _ => .resume t picks
  | wake t => exact s.spares_pushMove t fun _ => .wake t
  | wakeMain =>
    rw [gatewayLoopStep, Gateway.uses]
    refine ⟨fun _ => rfl, fun hnot => ?_, fun _ => rfl⟩
    by_cases hwaiting : s.group.waiting = true
    · rw [if_pos hwaiting] at hnot
      exact absurd (List.mem_singleton_self _) hnot
    · change WorkerGroup.mk _ false = s.group
      rw [← eq_false_of_ne_true hwaiting]

/-- **Nothing is used before it is made or after it is destroyed.** In every state that any run
of all threads of the gateway reaches, however the start goes and whenever the signal comes,
what the next call uses is made, and neither destroyed nor still to be made; and what it does
not use of the queue, the group and the devices it leaves as it is. -/
theorem shared_while_used (threadId : ℕ) (events : List GatewayEvent) (e : GatewayEvent) :
    let s := (gatewayLoopRun threadId).state events
    (∀ what ∈ s.uses e, s.life what = .made) ∧ s.Spares (gatewayLoopStep s e) (s.uses e) :=
  ⟨(gatewayLoopRun_sound threadId events).uses_made e, gatewayLoopStep_spares _ e⟩

/-- **Where `gateway_loop_run` has returned**, early or late, no other thread is left: the
server link and the Bluetooth worker have been joined or were never made, and every WiFi worker
is gone. Every descriptor of a WiFi client has been closed, each once. The listener, the group
and the queue are not there any more, and the devices only where the Bluetooth worker could not
be made. -/
theorem returned_alone (threadId : ℕ) (events : List GatewayEvent) (result : ℤ)
    (hplace : ((gatewayLoopRun threadId).state events).place = .ending [] result) :
    let s := (gatewayLoopRun threadId).state events
    (s.serverThread ≠ .made ∧ s.bluetoothThread ≠ .made ∧ ∀ w ∈ s.wifi, w.stage = .gone) ∧
      s.accepted.Perm s.closed ∧
      s.life .listener ≠ .made ∧ s.life .workers ≠ .made ∧ s.life .queue ≠ .made ∧
      (s.life .devices = .made → s.serverThread = .joined ∧ s.bluetoothThread = .unmade) := by
  intro s
  have h := gatewayLoopRun_sound threadId events
  obtain ⟨st, hst⟩ := h.stands
  have hleads := hst.leads
  rw [hplace] at hleads
  obtain ⟨⟨hserver, hbluetooth, hidle⟩, hlistener, hworkers, hqueue, hdevices⟩ : st.Over := hleads
  have hgone := hst.idle hidle
  rw [← hst.server] at hserver hdevices
  rw [← hst.bluetooth] at hbluetooth hdevices
  rw [← hst.life] at hlistener hworkers hqueue hdevices
  refine ⟨⟨hserver, hbluetooth, hgone⟩, ?_, hlistener, hworkers, hqueue, hdevices⟩
  have hdescriptors := h.descriptors
  have hnone : s.wifi.filterMap WifiThread.held = [] := by
    refine List.filterMap_eq_nil_iff.mpr fun w hw => ?_
    simp [WifiThread.held, hgone w hw]
  rw [hplace] at hdescriptors
  have hrest : s.closed ++ (MainPlace.fd (.ending [] result) ++
      s.wifi.filterMap WifiThread.held) = s.closed := by
    rw [hnone]
    exact List.append_nil _
  exact hrest ▸ hdescriptors

/-- A WiFi client comes and cannot be served; then the program is ended. -/
def oneClientRun : List GatewayEvent :=
  List.replicate 7 (.main (.back true)) ++
    [.main (.polled (.ready true false)), .main (.accepted (some 5)), .main (.back true),
      .main (.back true), .main (.created (some 1)), .wifi 0 (.nonblocking false), .signal,
      .main (.back true), .main (.back true), .main (.back true), .opening none,
      .main (.back true), .main (.back true), .wifi 0 .remove, .main (.back true),
      .server (.turn true .empty) [], .main (.back true), .main (.back true), .main (.back true),
      .main (.back true)]

/-- Its descriptor is closed, and the gateway is alone at the end. -/
theorem returned_alone_oneClient :
    let s := (gatewayLoopRun 0).state oneClientRun
    (s.serverThread ≠ .made ∧ s.bluetoothThread ≠ .made ∧ ∀ w ∈ s.wifi, w.stage = .gone) ∧
      s.accepted.Perm s.closed ∧
      s.life .listener ≠ .made ∧ s.life .workers ≠ .made ∧ s.life .queue ≠ .made ∧
      (s.life .devices = .made → s.serverThread = .joined ∧ s.bluetoothThread = .unmade) :=
  returned_alone 0 oneClientRun 0 rfl

end SmartGateway
