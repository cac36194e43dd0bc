import SmartGateway.Lib.ObjectScan

/-!
# Two readers of one object

What a second rule for values makes of a text that a first rule has a run on. Where
the second follows the first value by value, it has a run too, to the same end. Where it
follows only on some values, it has one exactly if the members are all of that kind; the
members of a text are what a third rule lists, which keeps no state but the list. Of a text
that the first rule gives up on, the members it has come to are listed beside its state.
-/

namespace SmartGateway

namespace ObjectScan

variable {σ τ μ : Type*}
variable {value : Bytes → Bytes → σ → Option Bytes × σ}
variable {value' : Bytes → Bytes → τ → Option Bytes × τ}
variable {R : σ → τ → Prop} {p rest : Bytes} {st st' : σ} {t : τ}

/-- What a run has behind each value: a comma or a closing brace, behind white space. -/
def Separated (p : Bytes) : Prop :=
  ∃ c rest, skipWhitespace p = c :: rest ∧ (c = Ascii.comma ∨ c = Ascii.closeBrace)

/-- **A rule that follows another** value by value has its runs. -/
theorem ObjectRun.simulate
    (hstep : ∀ {key q q' st st₁ t}, value key q st = (some q', st₁) → Separated q' → R st t →
      ∃ t₁, value' key q t = (some q', t₁) ∧ R st₁ t₁)
    (h : ObjectRun value p st rest st') (hR : R st t) :
    ∃ t', ObjectRun value' p t rest t' ∧ R st' t' := by
  induction h generalizing t with
  | close hp => exact ⟨t, .close hp, hR⟩
  | last hp hk hv hq =>
    obtain ⟨t₁, hv', hR'⟩ := hstep hv ⟨_, _, hq, Or.inr rfl⟩ hR
    exact ⟨t₁, .last hp hk hv' hq, hR'⟩
  | cons hp hk hv hq _ ih =>
    obtain ⟨t₁, hv', hR₁⟩ := hstep hv ⟨_, _, hq, Or.inl rfl⟩ hR
    obtain ⟨t', hrun, hR'⟩ := ih hR₁
    exact ⟨t', .cons hp hk hv' hq hrun, hR'⟩

/-- The rule that lists the members, each key with what `read` makes of the value. -/
def listMember (read : Bytes → Bytes → Option (μ × Bytes)) (key p : Bytes)
    (ms : List (Bytes × μ)) : Option Bytes × List (Bytes × μ) :=
  match read key p with
  | none => (none, ms)
  | some (v, rest) => (some rest, ms ++ [(key, v)])

theorem listMember_eq_some {read : Bytes → Bytes → Option (μ × Bytes)} {key : Bytes} {v : μ}
    (h : read key p = some (v, rest)) (ms : List (Bytes × μ)) :
    listMember read key p ms = (some rest, ms ++ [(key, v)]) := by
  rw [listMember, h]

theorem listMember_consumes {read : Bytes → Bytes → Option (μ × Bytes)}
    (hread : ∀ {key p v rest}, read key p = some (v, rest) → rest <:+ p) :
    Consumes (listMember read) := by
  intro key p ms rest ms' h
  rw [listMember] at h
  split at h
  · exact absurd (Prod.mk.inj h).1 (by simp)
  rename_i v q hq
  rw [← Option.some.inj (Prod.mk.inj h).1]
  exact hread hq

/-- A text with a run has its members listed, if each value can be read. -/
theorem ObjectRun.listed {read : Bytes → Bytes → Option (μ × Bytes)}
    (hread : ∀ {key q q' st st₁}, value key q st = (some q', st₁) → Separated q' →
      ∃ v, read key q = some (v, q'))
    (h : ObjectRun value p st rest st') (ms₀ : List (Bytes × μ)) :
    ∃ ms, ObjectRun (listMember read) p ms₀ rest (ms₀ ++ ms) := by
  obtain ⟨ms', hlist, ms, rfl⟩ := h.simulate (R := fun _ ms => ms₀ <+: ms)
    (fun hv hsep hms => by
      obtain ⟨v, hread⟩ := hread hv hsep
      exact ⟨_, listMember_eq_some hread _, hms.trans (List.prefix_append _ _)⟩)
    (List.prefix_refl ms₀)
  exact ⟨ms, hlist⟩

/-- The second rule follows the first exactly on the members `P` holds of. -/
structure Lockstep (read : Bytes → Bytes → Option (μ × Bytes))
    (value : Bytes → Bytes → σ → Option Bytes × σ)
    (value' : Bytes → Bytes → τ → Option Bytes × τ) (R : σ → τ → Prop)
    (P : Bytes × μ → Prop) : Prop where
  read_eq : ∀ {key q q' st st₁}, value key q st = (some q', st₁) → Separated q' →
    ∃ v, read key q = some (v, q')
  follows : ∀ {key q q' v st st₁ t}, value key q st = (some q', st₁) → Separated q' →
    read key q = some (v, q') → R st t → P (key, v) →
      ∃ t₁, value' key q t = (some q', t₁) ∧ R st₁ t₁
  admits : ∀ {key q q' v st st₁ t q'' t₁}, value key q st = (some q', st₁) → Separated q' →
    read key q = some (v, q') → R st t → value' key q t = (some q'', t₁) → P (key, v)

/-- **Two rules in lockstep**: on a text the first has a run on, the second has one, to
the same end, exactly if `P` holds of every member. -/
theorem Lockstep.run {read : Bytes → Bytes → Option (μ × Bytes)} {P : Bytes × μ → Prop}
    (L : Lockstep read value value' R P) (h : ObjectRun value p st rest st') (hR : R st t)
    (ms₀ : List (Bytes × μ)) :
    ∃ ms, ObjectRun (listMember read) p ms₀ rest (ms₀ ++ ms) ∧
      ((∀ m ∈ ms, P m) → ∃ t', ObjectRun value' p t rest t' ∧ R st' t') ∧
      (∀ {rest' t'}, ObjectRun value' p t rest' t' → ∀ m ∈ ms, P m) := by
  induction h generalizing t ms₀ with
  | close hp =>
    refine ⟨[], ?_, fun _ => ⟨t, .close hp, hR⟩, fun _ => nofun⟩
    rw [List.append_nil]
    exact .close hp
  | @last p k key q q' rest st st₁ hp hk hv hq =>
    have hsep : Separated q' := ⟨_, _, hq, Or.inr rfl⟩
    obtain ⟨v, hread⟩ := L.read_eq hv hsep
    refine ⟨[(key, v)], .last hp hk (listMember_eq_some hread ms₀) hq, fun hP => ?_,
      fun hrun m hm => ?_⟩
    · obtain ⟨t₁, hv', hR'⟩ := L.follows hv hsep hread hR (hP _ List.mem_cons_self)
      exact ⟨t₁, .last hp hk hv' hq, hR'⟩
    · obtain ⟨q'', t₁, hv', -⟩ := (objectRun_member_iff hp hk).mp hrun
      rw [List.mem_singleton.mp hm]
      exact L.admits hv hsep hread hR hv'
  | @cons p k key q q' p' rest st st₁ st₂ hp hk hv hq hrun₁ ih =>
    have hsep : Separated q' := ⟨_, _, hq, Or.inl rfl⟩
    obtain ⟨v, hread⟩ := L.read_eq hv hsep
    by_cases hP : P (key, v)
    · obtain ⟨t₁, hv', hR₁⟩ := L.follows hv hsep hread hR hP
      obtain ⟨ms, hlist, hfollow, hadmitted⟩ := ih hR₁ (ms₀ ++ [(key, v)])
      rw [List.append_assoc] at hlist
      refine ⟨(key, v) :: ms, .cons hp hk (listMember_eq_some hread ms₀) hq hlist,
        fun hall => ?_, fun hrun m hm => ?_⟩
      · obtain ⟨t', hrun, hR'⟩ := hfollow fun m hm => hall m (List.mem_cons_of_mem _ hm)
        exact ⟨t', .cons hp hk hv' hq hrun, hR'⟩
      · -- the second rule's run goes on where the first one's does
        obtain ⟨q'', t₂, hv'', hnext⟩ := (objectRun_member_iff hp hk).mp hrun
        rw [hv'] at hv''
        cases hv''
        rw [hq] at hnext
        rcases hnext with ⟨hclose, -⟩ | ⟨p'', hcomma, hrun'⟩
        · exact absurd (List.cons.inj hclose).1 (by decide)
        obtain ⟨-, rfl⟩ := List.cons.inj hcomma
        rcases List.mem_cons.mp hm with rfl | hm
        · exact hP
        · exact hadmitted hrun' m hm
    · -- the second rule stops here, and the list goes on
      obtain ⟨ms, hlist⟩ :=
        hrun₁.listed (fun hv₁ hsep₁ => L.read_eq hv₁ hsep₁) (ms₀ ++ [(key, v)])
      rw [List.append_assoc] at hlist
      refine ⟨(key, v) :: ms, .cons hp hk (listMember_eq_some hread ms₀) hq hlist,
        fun hall => absurd (hall _ List.mem_cons_self) hP, fun hrun => ?_⟩
      obtain ⟨q'', t₁, hv', -⟩ := (objectRun_member_iff hp hk).mp hrun
      exact absurd (L.admits hv hsep hread hR hv') hP

/-! ## Loops that may give up -/

/-- **Two rules that agree on the place** and keep their states related, wherever they are
called, have loops that do. -/
theorem objectLoop_rel
    (hvalue : ∀ key p s t, R s t → (value key p s).1 = (value' key p t).1 ∧
      R (value key p s).2 (value' key p t).2) {fuel : ℕ} {s : σ} (hR : R s t) :
    (objectLoop value fuel p s).1 = (objectLoop value' fuel p t).1 ∧
      R (objectLoop value fuel p s).2 (objectLoop value' fuel p t).2 := by
  induction fuel generalizing p s t with
  | zero => exact ⟨rfl, hR⟩
  | succ fuel ih =>
    rw [objectLoop, objectLoop]
    cases skipWhitespace p with
    | nil => exact ⟨rfl, hR⟩
    | cons b k =>
      dsimp only
      by_cases hclose : b = Ascii.closeBrace
      · rw [if_pos hclose, if_pos hclose]
        exact ⟨rfl, hR⟩
      rw [if_neg hclose, if_neg hclose]
      by_cases hquote : b ≠ Ascii.quote
      · rw [if_pos hquote, if_pos hquote]
        exact ⟨rfl, hR⟩
      rw [if_neg hquote, if_neg hquote]
      cases scanMember k with
      | none => exact ⟨rfl, hR⟩
      | some member =>
        obtain ⟨hplace, hR'⟩ := hvalue member.1 member.2 s t hR
        dsimp only
        generalize value member.1 member.2 s = r at hplace hR' ⊢
        generalize value' member.1 member.2 t = r' at hplace hR' ⊢
        obtain ⟨o, s'⟩ := r
        obtain ⟨o', t'⟩ := r'
        obtain rfl : o = o' := hplace
        cases o with
        | none => exact ⟨rfl, hR'⟩
        -- a comma goes on with the related states, anything else ends both
        | some q =>
          dsimp only
          cases skipWhitespace q with
          | nil => exact ⟨rfl, hR'⟩
          | cons c p' =>
            dsimp only
            by_cases hcomma : c = Ascii.comma
            · rw [if_pos hcomma, if_pos hcomma]
              exact ih hR'
            rw [if_neg hcomma, if_neg hcomma]
            by_cases hend : c = Ascii.closeBrace
            · rw [if_pos hend, if_pos hend]
              exact ⟨rfl, hR'⟩
            · rw [if_neg hend, if_neg hend]
              exact ⟨rfl, hR'⟩

/-- A loop keeps what each value keeps, also where it gives up. -/
theorem objectLoop_keeps {I : σ → Prop} (hvalue : ∀ key p s, I s → I (value key p s).2)
    (fuel : ℕ) (p : Bytes) (hst : I st) : I (objectLoop value fuel p st).2 := by
  have hrel : (objectLoop value fuel p st).1 = (objectLoop value fuel p st).1 ∧
      (objectLoop value fuel p st).2 = (objectLoop value fuel p st).2 ∧
        I (objectLoop value fuel p st).2 :=
    objectLoop_rel (R := fun s s' => s = s' ∧ I s)
      (by
        rintro key p s _ ⟨rfl, hI⟩
        exact ⟨rfl, rfl, hvalue key p s hI⟩) ⟨rfl, hst⟩
  exact hrel.2.2

/-- A rule with a list beside its state, of the members it has been called for: each key, with
the place of the value. -/
def traced (value : Bytes → Bytes → σ → Option Bytes × σ) (key p : Bytes)
    (st : σ × List (Bytes × Bytes)) : Option Bytes × (σ × List (Bytes × Bytes)) :=
  ((value key p st.1).1, (value key p st.1).2, st.2 ++ [(key, p)])

theorem traced_consumes (hvalue : Consumes value) : Consumes (traced value) := by
  intro key p st rest st' h
  exact hvalue (Prod.ext (Prod.mk.inj h).1 rfl)

/-- The list changes nothing. -/
theorem objectLoop_traced (value : Bytes → Bytes → σ → Option Bytes × σ) (fuel : ℕ) (p : Bytes)
    (st : σ) (ms : List (Bytes × Bytes)) :
    (objectLoop (traced value) fuel p (st, ms)).1 = (objectLoop value fuel p st).1 ∧
      (objectLoop (traced value) fuel p (st, ms)).2.1 = (objectLoop value fuel p st).2 :=
  objectLoop_rel (R := fun (t : σ × List (Bytes × Bytes)) s => t.1 = s)
    (by
      rintro key p t _ rfl
      exact ⟨rfl, rfl⟩) rfl

end ObjectScan

end SmartGateway
