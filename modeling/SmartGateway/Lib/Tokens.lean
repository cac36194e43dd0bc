import Mathlib.Data.List.Infix

/-!
# Tokens

The pieces of a list between occurrences of a delimiter, the empty ones left
out: what a `strtok` loop walks through. Cutting a text that was put together
with delimiters gives back the pieces, and every piece a cut gives is a
non-empty part of the text without the delimiter.
-/

namespace SmartGateway

variable {α : Type*} [BEq α]

/-- The non-empty pieces of `text` between delimiters. -/
def tokens (delim : α) (text : List α) : List (List α) :=
  (text.splitOn delim).filter fun t => !t.isEmpty

theorem ne_nil_of_mem_tokens {delim : α} {text t : List α} (h : t ∈ tokens delim text) :
    t ≠ [] := by
  simpa using (List.mem_filter.mp h).2

variable [LawfulBEq α]

/-- A piece and its delimiter come off the front. -/
theorem tokens_append_cons {delim : α} {t : List α} (hne : t ≠ []) (hd : delim ∉ t)
    (rest : List α) : tokens delim (t ++ delim :: rest) = t :: tokens delim rest := by
  rw [tokens, List.splitOn_append_cons_self_of_not_mem hd, List.filter_cons_of_pos]
  · rfl
  · simpa using hne

/-- A text without a delimiter is one token. -/
theorem tokens_of_not_mem {delim : α} {t : List α} (hne : t ≠ []) (hd : delim ∉ t) :
    tokens delim t = [t] := by
  rw [tokens, List.splitOn_eq_singleton hd, List.filter_cons_of_pos]
  · rfl
  · simpa using hne

/-- A piece between delimiters is a part of the text and has no delimiter. -/
theorem infix_of_mem_splitOn {delim : α} {text t : List α} (h : t ∈ text.splitOn delim) :
    t <:+: text ∧ delim ∉ t := by
  by_cases hd : delim ∈ text
  · obtain ⟨u, v, huv, hu⟩ := List.eq_append_cons_of_mem hd
    have hlen : v.length < text.length := by
      rw [huv]
      simp only [List.length_append, List.length_cons]
      omega
    rw [huv, List.splitOn_append_cons_self_of_not_mem hu] at h
    rcases List.mem_cons.mp h with rfl | h
    · exact ⟨huv ▸ (List.prefix_append t _).isInfix, hu⟩
    · obtain ⟨hpart, hnot⟩ := infix_of_mem_splitOn h
      refine ⟨hpart.trans ?_, hnot⟩
      exact ⟨u ++ [delim], [], by simp [huv]⟩
  · rw [List.splitOn_eq_singleton hd, List.mem_singleton] at h
    subst h
    exact ⟨List.infix_rfl, hd⟩
termination_by text.length

theorem infix_of_mem_tokens {delim : α} {text t : List α} (h : t ∈ tokens delim text) :
    t <:+: text ∧ delim ∉ t :=
  infix_of_mem_splitOn (List.mem_filter.mp h).1

/-- **Pieces that stand between delimiters somewhere in a text** are consecutive
pieces of its cut. -/
theorem infix_splitOn {delim : α} {pieces : List (List α)} (hne : pieces ≠ [])
    (hpieces : ∀ t ∈ pieces, delim ∉ t) {s : List α}
    (h : delim :: ([delim].intercalate pieces ++ [delim]) <:+: s) :
    pieces <:+: s.splitOn delim := by
  obtain ⟨u, v, rfl⟩ := h
  have hassoc : u ++ delim :: ([delim].intercalate pieces ++ [delim]) ++ v =
      u ++ delim :: ([delim].intercalate pieces ++ delim :: v) := by
    simp
  refine ⟨u.splitOn delim, v.splitOn delim, ?_⟩
  rw [hassoc, List.splitOn_append_cons_self, List.splitOn_append_cons_self,
    List.splitOn_intercalate delim hpieces hne, List.append_assoc]

end SmartGateway
