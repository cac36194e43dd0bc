import SmartGateway.Lib.Machine
import Mathlib.Data.List.Perm.Basic

/-!
# A machine that goes by the steps of another

Where each step of a machine is some steps of another, or none, its runs are runs of the
other. And for machines whose state is a crowd: in two lists with the same members, one
member can be replaced in both.
-/

namespace SmartGateway

namespace Machine

variable {σ ι ω σ' ι' ω' α : Type*} {M : Machine σ ι ω} {N : Machine σ' ι' ω'}

/-- **The rule of the steps.** If each step of `M` is some steps of `N` that note the same,
each run of `M` is a run of `N` that notes the same. -/
theorem stepwise {R : σ → σ' → Prop} {note : σ → ι → List α} {note' : σ' → ι' → List α}
    (h0 : R M.init N.init)
    (hstep : ∀ s s' i, R s s' → ∃ js, R (M.step s i).1 (N.stateFrom s' js) ∧
      note s i = N.logFrom note' s' js) (is : List ι) :
    ∃ js, R (M.state is) (N.state js) ∧ M.log note is = N.log note' js := by
  induction is using List.reverseRecOn with
  | nil => exact ⟨[], h0, rfl⟩
  | append_singleton is i ih =>
    obtain ⟨js, hstate, hlog⟩ := ih
    obtain ⟨more, hmore, hnote⟩ := hstep _ _ i hstate
    refine ⟨js ++ more, ?_, ?_⟩
    · rw [state_concat, ← stateFrom_state]
      exact hmore
    · rw [log_concat, hlog, hnote, log, log, logFrom_append]
      rfl

/-- Notes that are read, step for step. -/
theorem filterMap_log {β : Type*} (f : α → Option β) (note : σ → ι → List α) (is : List ι) :
    (M.log note is).filterMap f = M.log (fun s i => (note s i).filterMap f) is := by
  induction is using List.reverseRecOn with
  | nil => rfl
  | append_singleton is i ih => rw [log_concat, log_concat, List.filterMap_append, ih]

/-- What is noted of the inputs alone. -/
theorem log_input (note : ι → List α) (is : List ι) :
    M.log (fun _ i => note i) is = is.flatMap note := by
  induction is using List.reverseRecOn with
  | nil => rfl
  | append_singleton is i ih =>
    rw [log_concat, List.flatMap_append, ih, List.flatMap_singleton]

end Machine

/-- A member of a list, replaced, and the same member of another with the same members. -/
theorem exists_perm_set {α : Type*} {l m : List α} (h : l.Perm m) {i : ℕ} {a : α}
    (hi : l[i]? = some a) :
    ∃ j, m[j]? = some a ∧ ∀ b, (l.set i b).Perm (m.set j b) := by
  have hset : ∀ {l : List α} {i : ℕ} {a : α}, l[i]? = some a →
      l.Perm (a :: l.eraseIdx i) ∧ ∀ b, (l.set i b).Perm (b :: l.eraseIdx i) := by
    intro l i a hi
    obtain ⟨hlt, rfl⟩ := List.getElem?_eq_some_iff.mp hi
    refine ⟨(List.getElem_cons_eraseIdx_perm hlt).symm, fun b => ?_⟩
    exact List.set_perm_cons_eraseIdx hlt b
  obtain ⟨j, hj⟩ := List.mem_iff_getElem?.mp (h.subset (List.mem_of_getElem? hi))
  obtain ⟨hl, hl'⟩ := hset hi
  obtain ⟨hm, hm'⟩ := hset hj
  have hrest : (l.eraseIdx i).Perm (m.eraseIdx j) :=
    (List.perm_cons a).mp ((hl.symm.trans h).trans hm)
  exact ⟨j, hj, fun b => (hl' b).trans ((hrest.cons b).trans (hm' b).symm)⟩

end SmartGateway
