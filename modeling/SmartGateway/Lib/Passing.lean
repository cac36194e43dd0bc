import SmartGateway.Lib.Wakeup

/-!
# Who is in a monitor

The threads in the middle of a call are those that are parked and those that have been woken. A
notice moves a thread from the ones to the others, so that all a move can do is to put its own
thread in, where the pass parks, or to take it out, where a woken one leaves. In a monitor that
is closed nobody parks, and whoever is in it comes out.
-/

namespace SmartGateway

namespace Monitor

variable {τ σ κ γ ρ : Type*} [DecidableEq τ]

namespace Hall

variable {s : Hall τ σ κ γ}

/-- A thread that is busy is in a call. -/
theorem busy_iff {t : τ} : s.busy t = true ↔ t ∈ s.threads := by
  simp only [busy, threads, Bool.or_eq_true, List.any_eq_true, decide_eq_true_eq,
    List.mem_append, List.mem_map]

/-- An element taken out of its place, by its thread. -/
theorem perm_of_eraseP {α : Type*} {l : List α} {f : α → τ} {a : α} (ha : a ∈ l) :
    (l.map f).Perm (f a :: (l.eraseP fun b => f b = f a).map f) := by
  obtain ⟨b, before, after, -, hb, hl', herase⟩ :=
    List.exists_of_eraseP (p := fun b => decide (f b = f a)) ha (by simp)
  have hfb : f b = f a := of_decide_eq_true hb
  rw [herase]
  nth_rewrite 1 [hl']
  rw [List.map_append, List.map_cons, List.map_append, hfb]
  exact List.perm_middle

/-- A thread that is woken is in its call still. -/
theorem rouse_threads {p : Parked τ κ γ} (hp : p ∈ s.parked) :
    (s.rouse p).threads.Perm s.threads := by
  have hparked := perm_of_eraseP (f := Parked.thread) hp
  have hthreads : (s.rouse p).threads = (s.parked.eraseP (·.thread = p.thread)).map
      Parked.thread ++ (s.woken ++ [(p.thread, p.call)]).map Prod.fst := rfl
  rw [hthreads, threads, List.map_append, ← List.append_assoc]
  refine (List.perm_append_singleton _ _).trans ?_
  exact hparked.symm.append_right (s.woken.map Prod.fst)

variable [DecidableEq γ]

/-- **A notice** lets nobody in or out. -/
theorem notify_threads (s : Hall τ σ κ γ) (pick : ℕ) (notice : Notice γ) :
    (s.notify pick notice).threads.Perm s.threads := by
  cases notice with
  | signal on =>
    rw [notify]
    split
    · exact .refl _
    · rename_i p hpick
      exact rouse_threads (List.mem_filter.mp (List.mem_of_getElem? hpick)).1
  | broadcast on =>
    have hsplit := (List.filter_append_perm (fun p : Parked τ κ γ => p.on ≠ on) s.parked).map
      Parked.thread
    have hneg : (s.parked.filter fun p => !decide (p.on ≠ on)) =
        s.parked.filter fun p => p.on = on := by
      congr 1
      funext p
      simp
    have hwoken : ((s.parked.filter fun p => p.on = on).map fun p => (p.thread, p.call)).map
        Prod.fst = (s.parked.filter fun p => p.on = on).map Parked.thread := by
      rw [List.map_map]
      rfl
    rw [hneg, List.map_append] at hsplit
    rw [threads, threads, notify, List.map_append, hwoken]
    refine List.Perm.trans ?_ (hsplit.append_right _)
    rw [List.append_assoc]
    exact List.Perm.append_left _ List.perm_append_comm

theorem notifyAll_threads (s : Hall τ σ κ γ) (picks : List ℕ) (notices : List (Notice γ)) :
    (s.notifyAll picks notices).threads.Perm s.threads := by
  induction notices generalizing s picks with
  | nil => exact .refl _
  | cons notice notices ih =>
    rw [notifyAll]
    exact (ih _ _).trans (notify_threads s (picks.headD 0) notice)

end Hall

/-! ## A move -/

variable [DecidableEq γ] (M : Monitor σ κ γ ρ)

/-- Who is in the monitor after a move, with the pass it made. -/
inductive Passing (s s' : Hall τ σ κ γ) : Move τ κ → Option (κ × Pass γ ρ) → Prop
  /-- No pass. -/
  | none {m : Move τ κ} : s'.threads.Perm s.threads → Passing s s' m none
  /-- A thread comes in and parks. -/
  | waits {t : τ} {call : κ} {picks : List ℕ} {on : γ} :
      M.pass s.data call = (s'.data, .park on) → s'.threads.Perm (t :: s.threads) →
      Passing s s' (.enter t call picks) (some (call, .park on))
  /-- A thread comes in and leaves at once. -/
  | passes {t : τ} {call : κ} {picks : List ℕ} {result : ρ} {notices : List (Notice γ)} :
      t ∉ s.threads → M.pass s.data call = (s'.data, .leave result notices) →
      s'.threads.Perm s.threads →
      Passing s s' (.enter t call picks) (some (call, .leave result notices))
  /-- A woken thread parks again. -/
  | waitsOn {t : τ} {call : κ} {picks : List ℕ} {on : γ} :
      M.pass s.data call = (s'.data, .park on) → s'.threads.Perm s.threads →
      Passing s s' (.resume t picks) (some (call, .park on))
  /-- A woken thread leaves. -/
  | leaves {t : τ} {call : κ} {picks : List ℕ} {result : ρ} {notices : List (Notice γ)} :
      M.pass s.data call = (s'.data, .leave result notices) →
      s.threads.Perm (t :: s'.threads) →
      Passing s s' (.resume t picks) (some (call, .leave result notices))

variable {M} {s : Hall τ σ κ γ}

/-- **One move.** -/
theorem move_passing (M : Monitor σ κ γ ρ) (s : Hall τ σ κ γ) (m : Move τ κ) :
    Passing M s (M.move s m).1 m (M.move s m).2 := by
  cases m with
  | enter t call picks =>
    rw [move]
    split
    · exact .none (.refl _)
    · rename_i hbusy
      rw [passOf]
      rcases hpass : M.pass s.data call with ⟨data, pass⟩
      let inside : Hall τ σ κ γ := { s with data }
      cases pass with
      | park on =>
        refine .waits hpass ?_
        rw [Hall.threads, Hall.threads, List.map_append, List.map_singleton]
        exact (List.perm_append_singleton _ _).append_right _
      | leave result notices =>
        refine .passes (fun hmem => hbusy (Hall.busy_iff.mpr hmem)) ?_ ?_
        · rw [data_notifyAll]
          exact hpass
        · exact inside.notifyAll_threads picks notices
  | resume t picks =>
    rw [move]
    split
    · exact .none (.refl _)
    · rename_i w call hfind
      have hw : (w, call) ∈ s.woken := List.mem_of_find?_eq_some hfind
      obtain rfl : w = t := by simpa using List.find?_some hfind
      let rest : Hall τ σ κ γ := { s with woken := s.woken.eraseP (·.1 = w) }
      have hrest : s.threads.Perm (w :: rest.threads) := by
        have hwoken := Hall.perm_of_eraseP (f := Prod.fst) hw
        rw [Hall.threads, Hall.threads]
        exact (hwoken.append_left _).trans List.perm_middle
      rw [passOf]
      rcases hpass : M.pass s.data call with ⟨data, pass⟩
      let inside : Hall τ σ κ γ := { rest with data }
      cases pass with
      | park on =>
        refine .waitsOn hpass (.trans ?_ hrest.symm)
        rw [Hall.threads, List.map_append, List.map_singleton]
        exact (List.perm_append_singleton _ _).append_right _
      | leave result notices =>
        refine .leaves ?_ (hrest.trans (.cons _ ?_))
        · rw [data_notifyAll]
          exact hpass
        · exact (inside.notifyAll_threads picks notices).symm
  | wake t =>
    rw [move]
    split
    · exact .none (.refl _)
    · rename_i p hfind
      exact .none (Hall.rouse_threads (List.mem_of_find?_eq_some hfind))

/-- A call that waits for nothing does not park. -/
theorem Rationed.not_park_of_waitsOn (R : M.Rationed) {call : κ} (hwaits : R.waitsOn call = none)
    (data : σ) (on : γ) : (M.pass data call).2 ≠ .park on := by
  intro hpark
  have hon := (R.park data call _ on (Prod.ext rfl hpark)).2.1
  exact absurd (hwaits.symm.trans hon) (by simp)

/-! ## A closed monitor -/

/-- A call in a closed monitor does not park, -/
theorem Rationed.leaves_of_closed (R : M.Rationed) {data : σ} (hclosed : R.closed data)
    (call : κ) : ∃ result notices, (M.pass data call).2 = .leave result notices := by
  rcases hpass : M.pass data call with ⟨data', pass⟩
  cases pass with
  | park on => exact absurd hclosed (R.park _ _ _ _ hpass).2.2.1
  | leave result notices => exact ⟨result, notices, rfl⟩

/-- and it stays closed. -/
theorem Rationed.closed_move (R : M.Rationed) (hclosed : R.closed s.data) (m : Move τ κ) :
    R.closed (M.move s m).1.data := by
  rcases M.move_cases s m with ⟨-, hdata⟩ | ⟨call, -, hdata⟩
  · rw [hdata]
    exact hclosed
  · rw [hdata]
    rcases hpass : M.pass s.data call with ⟨data', pass⟩
    obtain ⟨result, notices, hleave⟩ := R.leaves_of_closed hclosed call
    rw [hpass] at hleave
    dsimp only at hleave
    subst hleave
    by_contra hopen
    exact (R.leave _ _ _ _ _ hpass hopen).1 hclosed

namespace Awake

variable {R : M.Rationed}

omit [DecidableEq τ] in
/-- Nobody is parked in it. -/
theorem parked_eq_nil (h : Awake R s) (hclosed : R.closed s.data) : s.parked = [] := by
  refine List.eq_nil_iff_forall_not_mem.mpr fun p hp => ?_
  have hparked : 0 < s.parkedOn p.on := List.countP_pos_iff.mpr ⟨p, hp, decide_eq_true rfl⟩
  exact (h.room p.on hparked).1 hclosed

/-- **A thread comes out** of a closed monitor with its next move: with the call it is in the
middle of, or else with the one it makes. -/
theorem exists_leave (h : Awake R s) (hclosed : R.closed s.data) (t : τ) (call : κ) :
    ∃ m call' result notices, (m = .enter t call [] ∨ m = .resume t []) ∧
      (M.move s m).2 = some (call', .leave result notices) := by
  by_cases hbusy : s.busy t = true
  · have hmem := Hall.busy_iff.mp hbusy
    rw [Hall.threads, h.parked_eq_nil hclosed, List.map_nil, List.nil_append] at hmem
    obtain ⟨w, hw, hwt⟩ := List.mem_map.mp hmem
    have hfound : (s.woken.find? (·.1 = t)).isSome = true :=
      List.find?_isSome.mpr ⟨w, hw, decide_eq_true hwt⟩
    obtain ⟨⟨t', call'⟩, hfind⟩ := Option.isSome_iff_exists.mp hfound
    obtain ⟨result, notices, hleave⟩ := R.leaves_of_closed hclosed call'
    refine ⟨.resume t [], call', result, notices, .inr rfl, ?_⟩
    rw [Monitor.move, hfind]
    exact (M.passOf_eq _ _ _ _).2.trans (congrArg (fun pass => some (call', pass)) hleave)
  · obtain ⟨result, notices, hleave⟩ := R.leaves_of_closed hclosed call
    refine ⟨.enter t call [], call, result, notices, .inl rfl, ?_⟩
    rw [Monitor.move, if_neg hbusy]
    exact (M.passOf_eq _ _ _ _).2.trans (congrArg (fun pass => some (call, pass)) hleave)

end Awake

end Monitor

end SmartGateway
