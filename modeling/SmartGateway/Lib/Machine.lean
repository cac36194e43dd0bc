import Mathlib.Data.List.Induction

/-!
# Machines and their runs

A machine is a state, and a step that takes an input and gives an output. A
**run** feeds it a list of inputs from its initial state; the **trace** of the
run pairs each input with the output it got. Claims about any sequence of calls
are claims about every trace, and `trace_induction` is the one induction they
share: what holds of the empty run and is carried by one more step holds of
every run.
-/

namespace SmartGateway

/-- A deterministic machine over inputs `ι` and outputs `ω`. -/
structure Machine (σ ι ω : Type*) where
  /-- The state a run starts in. -/
  init : σ
  /-- One input, answered. -/
  step : σ → ι → σ × ω

namespace Machine

variable {σ ι ω : Type*} (M : Machine σ ι ω)

/-- The state a list of inputs leads to, from `s`. -/
def stateFrom (s : σ) (is : List ι) : σ :=
  is.foldl (fun s i => (M.step s i).1) s

/-- The inputs of a run, each with the output it got, from `s`. -/
def traceFrom (s : σ) : List ι → List (ι × ω)
  | [] => []
  | i :: is => (i, (M.step s i).2) :: traceFrom (M.step s i).1 is

/-- The state a run ends in. -/
def state (is : List ι) : σ := M.stateFrom M.init is

/-- The trace of a run. -/
def trace (is : List ι) : List (ι × ω) := M.traceFrom M.init is

/-- The states some run ends in. -/
def Reachable (s : σ) : Prop := ∃ is, M.state is = s

@[simp] theorem state_nil : M.state [] = M.init := rfl

@[simp] theorem trace_nil : M.trace [] = [] := rfl

theorem stateFrom_append (s : σ) (is js : List ι) :
    M.stateFrom s (is ++ js) = M.stateFrom (M.stateFrom s is) js := by
  simp [stateFrom]

theorem traceFrom_append (s : σ) (is js : List ι) :
    M.traceFrom s (is ++ js) = M.traceFrom s is ++ M.traceFrom (M.stateFrom s is) js := by
  induction is generalizing s with
  | nil => rfl
  | cons i is ih => simp [traceFrom, ih, stateFrom]

@[simp] theorem state_concat (is : List ι) (i : ι) :
    M.state (is ++ [i]) = (M.step (M.state is) i).1 := by
  simp [state, stateFrom]

@[simp] theorem trace_concat (is : List ι) (i : ι) :
    M.trace (is ++ [i]) = M.trace is ++ [(i, (M.step (M.state is) i).2)] := by
  simp [trace, state, traceFrom_append, traceFrom]

/-- A run that goes on. -/
theorem stateFrom_state (is js : List ι) : M.stateFrom (M.state is) js = M.state (is ++ js) :=
  (M.stateFrom_append M.init is js).symm

/-- The inputs of a trace are those of the run. -/
theorem map_fst_trace (is : List ι) : (M.trace is).map Prod.fst = is := by
  induction is using List.reverseRecOn with
  | nil => rfl
  | append_singleton is i ih => rw [trace_concat, List.map_append, ih, List.map_singleton]

/-- **The run rule.** A relation between the trace so far and the state that
holds of the empty run, and that one more step carries, holds of every run. -/
theorem trace_induction {P : List (ι × ω) → σ → Prop} (h0 : P [] M.init)
    (hstep : ∀ tr s i, P tr s → P (tr ++ [(i, (M.step s i).2)]) (M.step s i).1) (is : List ι) :
    P (M.trace is) (M.state is) := by
  induction is using List.reverseRecOn with
  | nil => exact h0
  | append_singleton is i ih =>
    rw [trace_concat, state_concat]
    exact hstep _ _ _ ih

/-- The same rule with the inputs alone. -/
theorem run_induction {P : List ι → σ → Prop} (h0 : P [] M.init)
    (hstep : ∀ is s i, P is s → P (is ++ [i]) (M.step s i).1) (is : List ι) :
    P is (M.state is) := by
  induction is using List.reverseRecOn with
  | nil => exact h0
  | append_singleton is i ih =>
    rw [state_concat]
    exact hstep _ _ _ ih

/-- A point of a trace is a step of the run: what comes before it is the trace of the
inputs before it, and its output is the step's. -/
theorem exists_of_trace_eq_append {is : List ι} {before after : List (ι × ω)} {p : ι × ω}
    (h : M.trace is = before ++ p :: after) :
    ∃ js, M.trace js = before ∧ p = (p.1, (M.step (M.state js) p.1).2) := by
  induction is using List.reverseRecOn generalizing after with
  | nil => simp at h
  | append_singleton is i ih =>
    rw [trace_concat] at h
    obtain rfl | ⟨init, last, rfl⟩ := after.eq_nil_or_concat
    · -- the last step of the run
      obtain ⟨hinit, hlast⟩ := List.append_inj' h rfl
      obtain rfl : p = (i, (M.step (M.state is) i).2) := (List.singleton_inj.mp hlast).symm
      exact ⟨is, hinit, rfl⟩
    · rw [List.concat_eq_append, ← List.cons_append, ← List.append_assoc] at h
      exact ih (List.append_inj' h rfl).1

/-- The same rule for a property of the state alone: an invariant of every
reachable state. -/
theorem invariant {I : σ → Prop} (h0 : I M.init) (hstep : ∀ s i, I s → I (M.step s i).1)
    {s : σ} (hs : M.Reachable s) : I s := by
  obtain ⟨is, rfl⟩ := hs
  exact M.trace_induction (P := fun _ s => I s) h0 (fun _ s i => hstep s i) is

/-- Every input of a run, from `s`, comes to a state it is admitted in. -/
def EveryStepFrom (admits : σ → ι → Bool) (s : σ) : List ι → Prop
  | [] => True
  | i :: is => admits s i = true ∧ EveryStepFrom admits (M.step s i).1 is

/-- Every input of a run comes to a state it is admitted in. -/
def EveryStep (admits : σ → ι → Bool) (is : List ι) : Prop := M.EveryStepFrom admits M.init is

instance decidableEveryStepFrom (admits : σ → ι → Bool) :
    ∀ (s : σ) (is : List ι), Decidable (M.EveryStepFrom admits s is)
  | _, [] => inferInstanceAs (Decidable True)
  | s, i :: is =>
    have := decidableEveryStepFrom admits (M.step s i).1 is
    inferInstanceAs (Decidable (admits s i = true ∧ _))

instance (admits : σ → ι → Bool) (is : List ι) : Decidable (M.EveryStep admits is) :=
  M.decidableEveryStepFrom admits M.init is

theorem everyStepFrom_append {admits : σ → ι → Bool} {s : σ} {is js : List ι} :
    M.EveryStepFrom admits s (is ++ js) ↔
      M.EveryStepFrom admits s is ∧ M.EveryStepFrom admits (M.stateFrom s is) js := by
  induction is generalizing s with
  | nil => simp [EveryStepFrom, stateFrom]
  | cons i is ih =>
    rw [List.cons_append, EveryStepFrom, EveryStepFrom, ih, and_assoc]
    rfl

/-- **The run rule, for admitted steps.** -/
theorem trace_induction_of_everyStep {P : List (ι × ω) → σ → Prop} {admits : σ → ι → Bool}
    (h0 : P [] M.init)
    (hstep : ∀ tr s i, P tr s → admits s i = true →
      P (tr ++ [(i, (M.step s i).2)]) (M.step s i).1)
    {is : List ι} (his : M.EveryStep admits is) : P (M.trace is) (M.state is) := by
  induction is using List.reverseRecOn with
  | nil => exact h0
  | append_singleton is i ih =>
    obtain ⟨his, hi⟩ := M.everyStepFrom_append.mp his
    rw [trace_concat, state_concat]
    exact hstep _ _ _ (ih his) hi.1

/-- What holds at the start, and is carried by every admitted step, holds at the end of
a run of such steps. -/
theorem invariant_of_everyStep {I : σ → Prop} {admits : σ → ι → Bool} (h0 : I M.init)
    (hstep : ∀ s i, I s → admits s i = true → I (M.step s i).1) {is : List ι}
    (his : M.EveryStep admits is) : I (M.state is) :=
  M.trace_induction_of_everyStep (P := fun _ s => I s) h0 (fun _ s i => hstep s i) his

/-- **The exact run rule.** If an invariant that holds is kept by the admitted steps and by
no others, it holds at every point of a run exactly if every step is admitted. -/
theorem forall_prefix_iff_everyStep {I : σ → Prop} {admits : σ → ι → Bool} (h0 : I M.init)
    (hstep : ∀ s i, I s → (I (M.step s i).1 ↔ admits s i = true)) (is : List ι) :
    (∀ js, js <+: is → I (M.state js)) ↔ M.EveryStep admits is := by
  induction is using List.reverseRecOn with
  | nil =>
    refine ⟨fun _ => trivial, fun _ js hjs => ?_⟩
    rw [List.prefix_nil.mp hjs]
    exact h0
  | append_singleton is i ih =>
    have hsplit : M.EveryStep admits (is ++ [i]) ↔
        M.EveryStep admits is ∧ admits (M.state is) i = true := by
      refine M.everyStepFrom_append.trans (and_congr_right fun _ => ?_)
      exact and_iff_left trivial
    rw [hsplit, ← ih]
    constructor
    · intro h
      have hbefore : ∀ js, js <+: is → I (M.state js) :=
        fun js hjs => h js (hjs.trans (List.prefix_append is [i]))
      have hafter := h (is ++ [i]) List.prefix_rfl
      rw [state_concat] at hafter
      exact ⟨hbefore, (hstep _ i (hbefore is List.prefix_rfl)).mp hafter⟩
    · rintro ⟨hbefore, hadmitted⟩ js hjs
      rcases List.prefix_concat_iff.mp hjs with rfl | hjs
      · rw [state_concat]
        exact (hstep _ i (hbefore is List.prefix_rfl)).mpr hadmitted
      · exact hbefore js hjs

/-- **The simulation rule.** If each step keeps a relation between the states of two
machines, and gives the one's output read by `f` as the other's, then so do runs. -/
theorem simulation {σ' ω' : Type*} {N : Machine σ' ι ω'} {R : σ → σ' → Prop} (f : ω → ω')
    (h0 : R M.init N.init)
    (hstep : ∀ s s' i, R s s' →
      R (M.step s i).1 (N.step s' i).1 ∧ f (M.step s i).2 = (N.step s' i).2)
    (is : List ι) :
    R (M.state is) (N.state is) ∧ (M.trace is).map (fun p => (p.1, f p.2)) = N.trace is := by
  induction is using List.reverseRecOn with
  | nil => exact ⟨h0, rfl⟩
  | append_singleton is i ih =>
    obtain ⟨hstate, htrace⟩ := ih
    obtain ⟨hstate', hout⟩ := hstep _ _ i hstate
    rw [state_concat, state_concat, trace_concat, trace_concat, List.map_append, htrace]
    exact ⟨hstate', by rw [List.map_singleton, hout]⟩

/-- What the steps of a run note down, from `s`, in their order. -/
def logFrom {α : Type*} (note : σ → ι → List α) (s : σ) : List ι → List α
  | [] => []
  | i :: is => note s i ++ logFrom note (M.step s i).1 is

/-- What the steps of a run note down. -/
def log {α : Type*} (note : σ → ι → List α) (is : List ι) : List α := M.logFrom note M.init is

theorem logFrom_append {α : Type*} (note : σ → ι → List α) (s : σ) (is js : List ι) :
    M.logFrom note s (is ++ js) =
      M.logFrom note s is ++ M.logFrom note (M.stateFrom s is) js := by
  induction is generalizing s with
  | nil => rfl
  | cons i is ih =>
    rw [List.cons_append, logFrom, logFrom, ih, List.append_assoc]
    rfl

@[simp] theorem log_nil {α : Type*} (note : σ → ι → List α) : M.log note [] = [] := rfl

@[simp] theorem log_concat {α : Type*} (note : σ → ι → List α) (is : List ι) (i : ι) :
    M.log note (is ++ [i]) = M.log note is ++ note (M.state is) i := by
  rw [log, logFrom_append, logFrom, logFrom, List.append_nil]
  rfl

/-- What is noted was noted in a step. -/
theorem exists_of_mem_log {α : Type*} {note : σ → ι → List α} {is : List ι} {a : α}
    (h : a ∈ M.log note is) :
    ∃ before i after, is = before ++ i :: after ∧ a ∈ note (M.state before) i := by
  induction is using List.reverseRecOn with
  | nil => exact absurd h List.not_mem_nil
  | append_singleton is i ih =>
    rw [log_concat] at h
    rcases List.mem_append.mp h with h | h
    · obtain ⟨before, j, after, rfl, hnote⟩ := ih h
      exact ⟨before, j, after ++ [i], by simp, hnote⟩
    · exact ⟨is, i, [], rfl, h⟩

/-- A run ends in a reachable state. -/
theorem reachable_state (is : List ι) : M.Reachable (M.state is) := ⟨is, rfl⟩

/-- A step leads from a reachable state to one. -/
theorem Reachable.step {s : σ} (hs : M.Reachable s) (i : ι) : M.Reachable (M.step s i).1 := by
  obtain ⟨is, rfl⟩ := hs
  exact ⟨is ++ [i], M.state_concat is i⟩

/-! ## Progress -/

variable {M}

/-- A run from a reachable state ends in one. -/
theorem Reachable.stateFrom {s : σ} (hs : M.Reachable s) (is : List ι) :
    M.Reachable (M.stateFrom s is) := by
  obtain ⟨before, rfl⟩ := hs
  exact ⟨before ++ is, (M.stateFrom_state before is).symm⟩

/-- **The rule of progress.** Where some steps make a measure smaller as long as the goal is not
reached, there is a run that reaches it. -/
theorem exists_reaches {I G : σ → Prop} (left : σ → ℕ)
    (hstep : ∀ s, I s → ¬ G s →
      ∃ is, I (M.stateFrom s is) ∧ left (M.stateFrom s is) < left s)
    {s : σ} (hs : I s) : ∃ is, I (M.stateFrom s is) ∧ G (M.stateFrom s is) := by
  induction hleft : left s using Nat.strongRecOn generalizing s with
  | ind n ih =>
    by_cases hgoal : G s
    · exact ⟨[], hs, hgoal⟩
    · obtain ⟨is, his, hlt⟩ := hstep s hs hgoal
      obtain ⟨js, hjs⟩ := ih _ (hleft ▸ hlt) his rfl
      refine ⟨is ++ js, ?_⟩
      rw [stateFrom_append]
      exact hjs

end Machine

end SmartGateway
