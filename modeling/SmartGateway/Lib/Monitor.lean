import SmartGateway.Lib.Machine

/-!
# Monitors

A state behind a lock, and threads that pass through its critical section, each with
the call it makes. A **pass** either leaves with a result or finds that it has to
wait: the thread parks on a condition, which gives up the lock in the same step, and
when it has been woken it makes its pass again, from the test it waited in. A pass
that leaves may notify a condition, for one of the threads parked on it or for all.

Everything the scheduler decides is an input of the machine: who comes in next, whom
a signal wakes, when a woken thread gets the lock back, and the wake-ups that no one
asked for. `passes_eq_trace` is what the lock is for: whatever the scheduler does, the
passes happen one after the other, so they are a trace of the **sequential** machine,
whose step is one pass. What holds of every trace of that one holds under every
schedule.
-/

namespace SmartGateway

/-- A pass tells the threads parked on a condition: one of them, or all. -/
inductive Notice (γ : Type*)
  | signal (on : γ)
  | broadcast (on : γ)

/-- How a pass through the critical section ends. -/
inductive Pass (γ ρ : Type*)
  | park (on : γ)
  | leave (result : ρ) (notices : List (Notice γ))

/-- The same pass, with its result under another name. -/
def Pass.map {γ ρ ρ' : Type*} (f : ρ → ρ') : Pass γ ρ → Pass γ ρ'
  | .park on => .park on
  | .leave result notices => .leave (f result) notices

/-- A state with calls `κ`, conditions `γ` and results `ρ`. -/
structure Monitor (σ κ γ ρ : Type*) where
  /-- The state before any call. -/
  init : σ
  /-- One pass of a thread that has the lock. -/
  pass : σ → κ → σ × Pass γ ρ

/-- A thread parked in the middle of its call. -/
structure Parked (τ κ γ : Type*) where
  thread : τ
  call : κ
  on : γ

/-- What the scheduler does next. `picks` says, for each signal of the pass, which of
the threads it finds parked is woken. -/
inductive Move (τ κ : Type*)
  /-- A thread makes a call. -/
  | enter (thread : τ) (call : κ) (picks : List ℕ)
  /-- A woken thread has the lock back. -/
  | resume (thread : τ) (picks : List ℕ)
  /-- A thread wakes up though no one notified it. -/
  | wake (thread : τ)

namespace Monitor

variable {τ σ κ γ ρ : Type*} [DecidableEq τ] [DecidableEq γ]

/-- The state and its threads: those parked, and those that have been woken and have
not got the lock back. -/
structure Hall (τ σ κ γ : Type*) where
  data : σ
  parked : List (Parked τ κ γ)
  woken : List (τ × κ)

namespace Hall

/-- The thread is in the middle of a call. -/
def busy (s : Hall τ σ κ γ) (t : τ) : Bool :=
  s.parked.any (·.thread = t) || s.woken.any (·.1 = t)

/-- A parked thread is woken. -/
def rouse (s : Hall τ σ κ γ) (p : Parked τ κ γ) : Hall τ σ κ γ :=
  { s with
    parked := s.parked.eraseP (·.thread = p.thread)
    woken := s.woken ++ [(p.thread, p.call)] }

/-- One notice. A signal that finds nobody parked does nothing. -/
def notify (s : Hall τ σ κ γ) (pick : ℕ) : Notice γ → Hall τ σ κ γ
  | .signal on =>
    let waiting := s.parked.filter (·.on = on)
    match waiting[pick % waiting.length]? with
    | none => s
    | some p => s.rouse p
  | .broadcast on =>
    { s with
      parked := s.parked.filter (·.on ≠ on)
      woken := s.woken ++ (s.parked.filter (·.on = on)).map fun p => (p.thread, p.call) }

/-- The notices of a pass, in order. -/
def notifyAll (s : Hall τ σ κ γ) : List ℕ → List (Notice γ) → Hall τ σ κ γ
  | _, [] => s
  | picks, notice :: notices =>
    notifyAll (s.notify (picks.headD 0) notice) picks.tail notices

end Hall

variable (M : Monitor σ κ γ ρ)

/-- A thread that has the lock makes one pass. -/
def passOf (s : Hall τ σ κ γ) (t : τ) (call : κ) (picks : List ℕ) :
    Hall τ σ κ γ × Option (κ × Pass γ ρ) :=
  let (data, pass) := M.pass s.data call
  let s := { s with data }
  match pass with
  | .park on => ({ s with parked := s.parked ++ [⟨t, call, on⟩] }, some (call, pass))
  | .leave _ notices => (s.notifyAll picks notices, some (call, pass))

/-- One move of the scheduler. A move that its thread cannot make does nothing. -/
def move (s : Hall τ σ κ γ) : Move τ κ → Hall τ σ κ γ × Option (κ × Pass γ ρ)
  | .enter t call picks => if s.busy t then (s, none) else M.passOf s t call picks
  | .resume t picks =>
    match s.woken.find? (·.1 = t) with
    | none => (s, none)
    | some (_, call) =>
      M.passOf { s with woken := s.woken.eraseP (·.1 = t) } t call picks
  | .wake t =>
    match s.parked.find? (·.thread = t) with
    | none => (s, none)
    | some p => (s.rouse p, none)

/-- The monitor under a scheduler. -/
def machine (τ : Type*) [DecidableEq τ] :
    Machine (Hall τ σ κ γ) (Move τ κ) (Option (κ × Pass γ ρ)) where
  init := ⟨M.init, [], []⟩
  step := M.move

/-- The calls made one after the other, by someone who has the lock. -/
def sequential : Machine σ κ (Pass γ ρ) where
  init := M.init
  step := M.pass

/-- The passes of a run, in the order in which they had the lock. -/
def passes (moves : List (Move τ κ)) : List (κ × Pass γ ρ) :=
  ((M.machine τ).trace moves).filterMap (·.2)

section Hall

variable (s : Hall τ σ κ γ)

omit [DecidableEq γ] in
@[simp] theorem data_rouse (p : Parked τ κ γ) : (s.rouse p).data = s.data := rfl

@[simp] theorem data_notify (pick : ℕ) (notice : Notice γ) :
    (s.notify pick notice).data = s.data := by
  cases notice with
  | signal on =>
    simp only [Hall.notify]
    split <;> rfl
  | broadcast on => rfl

/-- Notices wake threads and leave what the lock protects alone. -/
@[simp] theorem data_notifyAll (picks : List ℕ) (notices : List (Notice γ)) :
    (s.notifyAll picks notices).data = s.data := by
  induction notices generalizing s picks with
  | nil => rfl
  | cons notice notices ih =>
    rw [Hall.notifyAll, ih, data_notify]

end Hall

/-- A pass is the sequential machine's, whoever makes it. -/
theorem passOf_eq (s : Hall τ σ κ γ) (t : τ) (call : κ) (picks : List ℕ) :
    (M.passOf s t call picks).1.data = (M.pass s.data call).1 ∧
      (M.passOf s t call picks).2 = some (call, (M.pass s.data call).2) := by
  rw [passOf]
  obtain ⟨data, pass⟩ := M.pass s.data call
  cases pass with
  | park on => exact ⟨rfl, rfl⟩
  | leave result notices => exact ⟨data_notifyAll _ _ _, rfl⟩

/-- A move makes one pass, or leaves what the lock protects alone. -/
theorem move_cases (s : Hall τ σ κ γ) (m : Move τ κ) :
    ((M.move s m).2 = none ∧ (M.move s m).1.data = s.data) ∨
      ∃ call, (M.move s m).2 = some (call, (M.pass s.data call).2) ∧
        (M.move s m).1.data = (M.pass s.data call).1 := by
  cases m with
  | enter t call picks =>
    rw [move]
    split
    · exact .inl ⟨rfl, rfl⟩
    · have h := M.passOf_eq s t call picks
      exact .inr ⟨call, h.2, h.1⟩
  | resume t picks =>
    rw [move]
    split
    · exact .inl ⟨rfl, rfl⟩
    · rename_i call _
      have h := M.passOf_eq { s with woken := s.woken.eraseP (·.1 = t) } t call picks
      exact .inr ⟨call, h.2, h.1⟩
  | wake t =>
    rw [move]
    split
    · exact .inl ⟨rfl, rfl⟩
    · exact .inl ⟨rfl, rfl⟩

/-- **The lock orders the passes.** Under every schedule the passes are a trace of the
sequential machine, and what the lock protects is where that trace ends. -/
theorem passes_eq_trace (moves : List (Move τ κ)) :
    ∃ calls, M.passes moves = M.sequential.trace calls ∧
      ((M.machine τ).state moves).data = M.sequential.state calls := by
  refine (M.machine τ).trace_induction
    (P := fun tr s => ∃ calls, tr.filterMap (·.2) = M.sequential.trace calls ∧
      s.data = M.sequential.state calls) ⟨[], rfl, rfl⟩ ?_ moves
  rintro tr s m ⟨calls, htr, hs⟩
  rw [List.filterMap_append, htr]
  obtain ⟨hnone, hdata⟩ | ⟨call, hsome, hdata⟩ := M.move_cases s m
  · refine ⟨calls, ?_, hdata.trans hs⟩
    have hout : ((M.machine τ).step s m).2 = none := hnone
    simp [hout]
  · refine ⟨calls ++ [call], ?_, ?_⟩
    · have hout : ((M.machine τ).step s m).2 = some (call, (M.pass s.data call).2) := hsome
      rw [Machine.trace_concat, ← hs]
      simp [hout, sequential]
    · rw [Machine.state_concat, ← hs]
      exact hdata

end Monitor

end SmartGateway
