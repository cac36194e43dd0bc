import SmartGateway.Lib.Monitor
import Mathlib.Data.List.Nodup

/-!
# No lost wake-up

A monitor that signals one thread at a time must signal often enough. What is enough
can be said pass by pass: each condition has **room** for some threads, a call that
waits parks only where there is none and takes some when it leaves, and a pass that
leaves signals for all the room it makes. A thread may come in ahead of one that was
woken, and that one may park again; still, as long as anyone is parked on a condition,
there is room for no more threads than have been woken for it and are on their way.
-/

namespace SmartGateway

namespace Monitor

variable {τ σ κ γ ρ : Type*} [DecidableEq γ]

/-- The notice is a signal for a thread parked on the condition. -/
def signals (on : γ) : Notice γ → Bool
  | .signal c => c = on
  | .broadcast _ => false

/-- The notice is for all threads parked on the condition. -/
def broadcasts (on : γ) : Notice γ → Bool
  | .signal _ => false
  | .broadcast c => c = on

/-- A monitor whose passes signal for the room they make. Where it is closed nobody is to
wait any more. -/
structure Rationed (M : Monitor σ κ γ ρ) where
  /-- The condition a call may have to wait for. -/
  waitsOn : κ → Option γ
  room : σ → γ → ℕ
  closed : σ → Prop
  park : ∀ s call s' on, M.pass s call = (s', .park on) →
    s' = s ∧ waitsOn call = some on ∧ ¬ closed s ∧ room s on = 0
  leave : ∀ s call s' result notices, M.pass s call = (s', .leave result notices) →
    ¬ closed s' → ¬ closed s ∧ ∀ on,
      room s' on + (if waitsOn call = some on then 1 else 0) ≤
        room s on + notices.countP (signals on)
  shut : ∀ s call s' result notices, M.pass s call = (s', .leave result notices) →
    closed s' → closed s ∨ ∀ on, notices.any (broadcasts on)

namespace Hall

/-- The threads parked on a condition. -/
def parkedOn (s : Hall τ σ κ γ) (on : γ) : ℕ := s.parked.countP fun p => p.on = on

/-- The threads woken, and not back yet, whose call waits for it. -/
def wokenFor (waitsOn : κ → Option γ) (s : Hall τ σ κ γ) (on : γ) : ℕ :=
  s.woken.countP fun w => waitsOn w.2 = some on

/-- The threads in the middle of a call. -/
def threads (s : Hall τ σ κ γ) : List τ :=
  s.parked.map Parked.thread ++ s.woken.map Prod.fst

/-- A thread is in one place, and parks where its call waits. -/
structure Ordered (waitsOn : κ → Option γ) (s : Hall τ σ κ γ) : Prop where
  nodup : s.threads.Nodup
  waits : ∀ p ∈ s.parked, waitsOn p.call = some p.on

/-- What notices do: who is parked still was parked before, and is not the one a signal
was for. -/
structure Noticed (waitsOn : κ → Option γ) (s s' : Hall τ σ κ γ) (notices : List (Notice γ)) :
    Prop where
  ordered : s'.Ordered waitsOn
  data : s'.data = s.data
  parked : ∀ on, 0 < s'.parkedOn on → 0 < s.parkedOn on ∧
    s'.wokenFor waitsOn on = s.wokenFor waitsOn on + notices.countP (signals on) ∧
    notices.any (broadcasts on) = false

variable {waitsOn : κ → Option γ} {s s' : Hall τ σ κ γ}

/-- A notice that finds nobody. -/
theorem Noticed.nobody (h : s.Ordered waitsOn) {c : γ} (hnobody : s.parkedOn c = 0) :
    Noticed waitsOn s s [.signal c] := by
  refine ⟨h, rfl, fun on hon => ⟨hon, ?_, rfl⟩⟩
  have hne : c ≠ on := by
    rintro rfl
    omega
  simp [signals, hne]

variable [DecidableEq τ]

omit [DecidableEq γ] in
/-- A thread taken out of its place among the parked. -/
theorem Ordered.exists_rouse (h : s.Ordered waitsOn) {p : Parked τ κ γ} (hp : p ∈ s.parked) :
    ∃ before after, s.parked = before ++ p :: after ∧ (s.rouse p).parked = before ++ after := by
  obtain ⟨q, before, after, -, hq, hparked, herase⟩ :=
    List.exists_of_eraseP (p := fun q : Parked τ κ γ => decide (q.thread = p.thread)) hp
      (by simp)
  have hthreads : (s.parked.map Parked.thread).Nodup := (List.nodup_append.mp h.nodup).1
  have hmem : q ∈ s.parked := by
    rw [hparked]
    exact List.mem_append_right _ List.mem_cons_self
  obtain rfl : q = p := List.inj_on_of_nodup_map hthreads hmem hp (of_decide_eq_true hq)
  exact ⟨before, after, hparked, herase⟩

/-- **A thread is woken.** -/
theorem Ordered.rouse (h : s.Ordered waitsOn) {p : Parked τ κ γ} (hp : p ∈ s.parked) :
    (s.rouse p).Ordered waitsOn ∧ ∀ on,
      s.parkedOn on = (s.rouse p).parkedOn on + (if p.on = on then 1 else 0) ∧
      (s.rouse p).wokenFor waitsOn on =
        s.wokenFor waitsOn on + (if p.on = on then 1 else 0) := by
  obtain ⟨before, after, hparked, hparked'⟩ := h.exists_rouse hp
  have hwoken : (s.rouse p).woken = s.woken ++ [(p.thread, p.call)] := rfl
  refine ⟨⟨?_, ?_⟩, fun on => ⟨?_, ?_⟩⟩
  -- the thread has only moved to the end
  · have hthreads : (s.rouse p).threads =
        before.map Parked.thread ++ after.map Parked.thread ++ s.woken.map Prod.fst ++
          [p.thread] := by
      rw [threads, hparked', hwoken, List.map_append, List.map_append, List.append_assoc _ _ [_]]
      rfl
    have hthreads' : s.threads =
        before.map Parked.thread ++ p.thread :: after.map Parked.thread ++
          s.woken.map Prod.fst := by
      rw [threads, hparked, List.map_append, List.map_cons]
    have hperm : (s.rouse p).threads.Perm s.threads := by
      rw [hthreads, hthreads']
      exact (List.perm_append_singleton _ _).trans (List.perm_middle.symm.append_right _)
    exact hperm.nodup_iff.mpr h.nodup
  -- the others still wait where they did
  · intro q hq
    refine h.waits q ?_
    rw [hparked'] at hq
    rw [hparked]
    rcases List.mem_append.mp hq with hq | hq
    · exact List.mem_append_left _ hq
    · exact List.mem_append_right _ (List.mem_cons_of_mem _ hq)
  · unfold parkedOn
    rw [hparked, hparked', List.countP_append, List.countP_append, List.countP_cons]
    simp only [decide_eq_true_eq]
    omega
  · unfold wokenFor
    rw [hwoken, List.countP_append, List.countP_singleton, h.waits p hp]
    simp

theorem Ordered.notify (h : s.Ordered waitsOn) (pick : ℕ) (notice : Notice γ) :
    Noticed waitsOn s (s.notify pick notice) [notice] := by
  cases notice with
  | signal c =>
    unfold Hall.notify
    dsimp only
    cases hpick : (s.parked.filter fun p => p.on = c)[pick %
        (s.parked.filter fun p => p.on = c).length]? with
    | none =>
      -- no index is out of range but that of an empty list
      refine .nobody h ?_
      rw [parkedOn, List.countP_eq_length_filter]
      by_contra hne
      have hlt := Nat.mod_lt pick (Nat.pos_of_ne_zero hne)
      rw [List.getElem?_eq_none_iff] at hpick
      omega
    | some p =>
      have hmem := List.mem_filter.mp (List.mem_of_getElem? hpick)
      have hon : p.on = c := of_decide_eq_true hmem.2
      obtain ⟨hordered, hcounts⟩ := h.rouse hmem.1
      refine ⟨hordered, rfl, fun on hparked => ?_⟩
      obtain ⟨hbefore, hwoken⟩ := hcounts on
      dsimp only at hparked ⊢
      refine ⟨by omega, ?_, rfl⟩
      rw [hwoken, hon, List.countP_singleton]
      simp [signals]
  | broadcast c =>
    unfold Hall.notify
    refine ⟨⟨?_, ?_⟩, rfl, fun on hparked => ?_⟩
    · refine (List.Perm.nodup_iff ?_).mpr h.nodup
      have hsplit := (List.filter_append_perm (fun p : Parked τ κ γ => p.on ≠ c) s.parked).map
        Parked.thread
      have hneg : (s.parked.filter fun p => !decide (p.on ≠ c)) =
          s.parked.filter fun p => p.on = c := by
        congr 1
        funext p
        simp
      rw [hneg, List.map_append] at hsplit
      unfold threads
      rw [List.map_append, List.map_map]
      refine List.Perm.trans ?_ (hsplit.append_right _)
      rw [List.append_assoc]
      exact List.Perm.append_left _ List.perm_append_comm
    · intro q hq
      exact h.waits q (List.mem_filter.mp hq).1
    · have hne : on ≠ c := by
        rintro rfl
        unfold parkedOn at hparked
        rw [List.countP_pos_iff] at hparked
        obtain ⟨p, hp, hon⟩ := hparked
        have hnot := (List.mem_filter.mp hp).2
        simp only [decide_eq_true_eq] at hon hnot
        exact hnot hon
      refine ⟨?_, ?_, ?_⟩
      · unfold parkedOn at hparked ⊢
        rw [List.countP_pos_iff] at hparked ⊢
        obtain ⟨p, hp, hon⟩ := hparked
        exact ⟨p, (List.mem_filter.mp hp).1, hon⟩
      · -- those woken waited for another condition
        have hnone : ((s.parked.filter fun p => p.on = c).map fun p =>
            (p.thread, p.call)).countP (fun w => waitsOn w.2 = some on) = 0 := by
          rw [List.countP_eq_zero]
          intro w hw
          obtain ⟨p, hp, rfl⟩ := List.mem_map.mp hw
          obtain ⟨hp, hon⟩ := List.mem_filter.mp hp
          rw [h.waits p hp, of_decide_eq_true hon]
          simpa using fun he : c = on => hne he.symm
        unfold wokenFor
        rw [List.countP_append, hnone]
        rfl
      · simpa [broadcasts] using fun he : c = on => hne he.symm

theorem Ordered.notifyAll (h : s.Ordered waitsOn) (picks : List ℕ) (notices : List (Notice γ)) :
    Noticed waitsOn s (s.notifyAll picks notices) notices := by
  induction notices generalizing s picks with
  | nil => exact ⟨h, rfl, fun on hon => ⟨hon, rfl, rfl⟩⟩
  | cons notice notices ih =>
    have hone := h.notify (picks.headD 0) notice
    have hrest := ih hone.ordered picks.tail
    rw [Hall.notifyAll]
    refine ⟨hrest.ordered, hrest.data.trans hone.data, fun on hon => ?_⟩
    obtain ⟨hparked, hwoken, hquiet⟩ := hrest.parked on hon
    obtain ⟨hparked', hwoken', hquiet'⟩ := hone.parked on hparked
    refine ⟨hparked', ?_, ?_⟩
    · rw [hwoken, hwoken', List.countP_singleton, List.countP_cons]
      omega
    · rw [List.any_cons, hquiet, Bool.or_false]
      simpa using hquiet'

end Hall

/-! ## The rule -/

variable {M : Monitor σ κ γ ρ} [DecidableEq τ]

/-- **The invariant**: where a thread is parked, the monitor is open, and there is room for
no more threads than are on their way. -/
structure Awake (R : M.Rationed) (s : Hall τ σ κ γ) : Prop where
  ordered : s.Ordered R.waitsOn
  room : ∀ on, 0 < s.parkedOn on →
    ¬ R.closed s.data ∧ R.room s.data on ≤ s.wokenFor R.waitsOn on

namespace Awake

variable {R : M.Rationed} {s : Hall τ σ κ γ}

omit [DecidableEq γ] in
theorem not_mem_threads {t : τ} (h : s.busy t = false) : t ∉ s.threads := by
  unfold Hall.busy at h
  rw [Bool.or_eq_false_iff, List.any_eq_false, List.any_eq_false] at h
  obtain ⟨hparked, hwoken⟩ := h
  intro hmem
  rcases List.mem_append.mp hmem with hmem | hmem
  · obtain ⟨p, hp, rfl⟩ := List.mem_map.mp hmem
    exact hparked p hp (decide_eq_true rfl)
  · obtain ⟨w, hw, rfl⟩ := List.mem_map.mp hmem
    exact hwoken w hw (decide_eq_true rfl)

/-- **A pass** of a thread that is nowhere else. Where its call waits on a condition it may
count itself among those on their way. -/
theorem passOf (hordered : s.Ordered R.waitsOn) {t : τ} (ht : t ∉ s.threads) (call : κ)
    (hroom : ∀ on, 0 < s.parkedOn on → ¬ R.closed s.data ∧
      R.room s.data on ≤
        s.wokenFor R.waitsOn on + (if R.waitsOn call = some on then 1 else 0))
    (picks : List ℕ) : Awake R (M.passOf s t call picks).1 := by
  unfold Monitor.passOf
  rcases hpass : M.pass s.data call with ⟨data, pass⟩
  dsimp only
  cases pass with
  | park on =>
    obtain ⟨rfl, hwaits, hopen, hnone⟩ := R.park _ _ _ _ hpass
    refine ⟨⟨?_, ?_⟩, fun on' hparked => ⟨hopen, ?_⟩⟩
    · have hperm : Hall.threads ({ s with
          parked := s.parked ++ [⟨t, call, on⟩] } : Hall τ σ κ γ) |>.Perm (t :: s.threads) := by
        unfold Hall.threads
        rw [List.map_append, List.map_singleton]
        exact (List.perm_append_singleton _ _).append_right _
      exact hperm.nodup_iff.mpr (List.nodup_cons.mpr ⟨ht, hordered.nodup⟩)
    · intro p hp
      rcases List.mem_append.mp hp with hp | hp
      · exact hordered.waits p hp
      · rw [List.mem_singleton.mp hp]
        exact hwaits
    · -- there is no room on the one it parks on, and of the others it is none
      by_cases hon : on = on'
      · subst hon
        change R.room s.data on ≤ _
        omega
      · have hbefore : 0 < s.parkedOn on' := by
          unfold Hall.parkedOn at hparked ⊢
          rw [List.countP_append, List.countP_singleton] at hparked
          simpa [hon] using hparked
        have hle := (hroom on' hbefore).2
        rw [hwaits, if_neg fun he => hon (Option.some.inj he)] at hle
        exact hle
  | leave result notices =>
    have hnoticed := Hall.Ordered.notifyAll (s := { s with data := data })
      ⟨hordered.nodup, hordered.waits⟩ picks notices
    refine ⟨hnoticed.ordered, fun on hparked => ?_⟩
    obtain ⟨hbefore, hwoken, hquiet⟩ := hnoticed.parked on hparked
    obtain ⟨hopen, hle⟩ := hroom on hbefore
    rw [hnoticed.data]
    -- a call that closes the monitor wakes all of them
    have hopen' : ¬ R.closed data := by
      intro hclosed
      rcases R.shut _ _ _ _ _ hpass hclosed with hbefore | hall
      · exact hopen hbefore
      · rw [hall on] at hquiet
        cases hquiet
    have hleave := (R.leave _ _ _ _ _ hpass hopen').2 on
    refine ⟨hopen', ?_⟩
    rw [hwoken]
    change R.room data on ≤ s.wokenFor R.waitsOn on + _
    omega

/-- **One move of the scheduler.** -/
theorem move (h : Awake R s) (m : Move τ κ) : Awake R (M.move s m).1 := by
  cases m with
  | enter t call picks =>
    rw [Monitor.move]
    split
    · exact h
    · rename_i hbusy
      refine passOf h.ordered (not_mem_threads (by simpa using hbusy)) call (fun on hon => ?_) picks
      obtain ⟨hopen, hle⟩ := h.room on hon
      exact ⟨hopen, by omega⟩
  | resume t picks =>
    rw [Monitor.move]
    split
    · exact h
    rename_i w call hfind
    have hw : w = t := by simpa using List.find?_some hfind
    subst hw
    obtain ⟨q, before, after, -, hq, hwoken, herase⟩ :=
      List.exists_of_eraseP (p := fun v : τ × κ => decide (v.1 = w))
        (List.mem_of_find?_eq_some hfind) (by simp)
    -- the thread is among the woken once
    have hnodup := h.ordered.nodup
    have hthreads : (s.woken.map Prod.fst).Nodup := (List.nodup_append.mp hnodup).2.1
    have hmem : q ∈ s.woken := by
      rw [hwoken]
      exact List.mem_append_right _ List.mem_cons_self
    obtain rfl : q = (w, call) := List.inj_on_of_nodup_map hthreads hmem
      (List.mem_of_find?_eq_some hfind) (of_decide_eq_true hq)
    let rest : Hall τ σ κ γ := { s with woken := s.woken.eraseP (·.1 = w) }
    have hrest : rest.woken = before ++ after := herase
    have hperm : s.threads.Perm (w :: rest.threads) := by
      unfold Hall.threads
      rw [hwoken, hrest, List.map_append, List.map_cons, List.map_append, ← List.append_assoc,
        ← List.append_assoc]
      exact List.perm_middle
    obtain ⟨hfresh, hnodup'⟩ := List.nodup_cons.mp (hperm.nodup_iff.mp hnodup)
    refine passOf (s := rest) ⟨hnodup', h.ordered.waits⟩ hfresh call (fun on hon => ?_) picks
    obtain ⟨hopen, hle⟩ := h.room on hon
    refine ⟨hopen, Nat.le_trans hle (Nat.le_of_eq ?_)⟩
    unfold Hall.wokenFor
    rw [hwoken, hrest, List.countP_append, List.countP_append, List.countP_cons]
    simp only [decide_eq_true_eq]
    omega
  | wake t =>
    rw [Monitor.move]
    split
    · exact h
    rename_i p hfind
    obtain ⟨hordered, hcounts⟩ := h.ordered.rouse (List.mem_of_find?_eq_some hfind)
    refine ⟨hordered, fun on hparked => ?_⟩
    obtain ⟨hbefore, hwoken⟩ := hcounts on
    dsimp only at hparked
    obtain ⟨hopen, hle⟩ := h.room on (by omega)
    refine ⟨hopen, ?_⟩
    rw [hwoken]
    change R.room s.data on ≤ _
    omega

end Awake

/-- **No wake-up is lost** in any run. -/
theorem Rationed.awake (R : M.Rationed) (moves : List (Move τ κ)) :
    Awake R ((M.machine τ).state moves) := by
  refine (M.machine τ).invariant (I := Awake R) ?_ (fun s m hs => hs.move m)
    ((M.machine τ).reachable_state moves)
  refine ⟨⟨List.nodup_nil, nofun⟩, fun on hon => absurd hon ?_⟩
  exact Nat.lt_irrefl 0

end Monitor

end SmartGateway
