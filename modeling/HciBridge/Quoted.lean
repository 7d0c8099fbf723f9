import HciBridge.Text

/-!
Texts cut by a quote character: where a pattern that starts at a quote is found.
-/

namespace Text

section

variable {α : Type} [DecidableEq α] {c : α} {a l key t : List α}

/-- Pairs of what stands between two quotes and what follows the second one. -/
def quoted (c : α) (ps : List (List α × List α)) : List α := ps.flatMap fun p => c :: (p.1 ++ c :: p.2)

omit [DecidableEq α] in
theorem quoted_cons (p : List α × List α) (ps : List (List α × List α)) :
    quoted c (p :: ps) = c :: (p.1 ++ c :: (p.2 ++ quoted c ps)) := by
  simp [quoted]

theorem after_skip {pat : List α} (h : c ∉ a) : after (c :: pat) (a ++ l) = after (c :: pat) l := by
  induction a with
  | nil => rfl
  | cons x a ih =>
    rw [List.mem_cons, not_or] at h
    rw [List.cons_append, after, if_neg, ih h.2]
    rw [List.cons_prefix_cons]
    exact fun hp => h.1 hp.1

theorem after_quote (hkey : c ∉ key) (ha : c ∉ a) :
    after (c :: (key ++ c :: t)) (c :: (a ++ c :: l)) =
      if a = key ∧ t <+: l then some (l.drop t.length) else after (c :: (key ++ c :: t)) (c :: l) := by
  have hhere : c :: (key ++ c :: t) <+: c :: (a ++ c :: l) ↔ a = key ∧ t <+: l := by
    rw [List.cons_prefix_cons]
    constructor
    · rintro ⟨-, d, hd⟩
      rw [List.append_assoc, List.cons_append] at hd
      obtain ⟨rfl, hl⟩ := append_sep_inj hd hkey ha
      exact ⟨rfl, d, hl⟩
    · rintro ⟨rfl, d, rfl⟩
      exact ⟨rfl, d, by simp⟩
  rw [after]
  by_cases h : a = key ∧ t <+: l
  · obtain ⟨rfl, ht⟩ := h
    rw [if_pos (hhere.mpr ⟨rfl, ht⟩), if_pos ⟨rfl, ht⟩]
    simp only [List.length_cons, List.length_append, List.drop_succ_cons]
    rw [List.drop_append, List.drop_eq_nil_of_le (by omega)]
    have hdrop : a.length + (t.length + 1) - a.length = t.length + 1 := by omega
    rw [hdrop]
    simp
  · rw [if_neg (hhere.not.mpr h), if_neg h, after_skip ha]

theorem after_unquoted (hkey : c ∉ key) (ha : c ∉ a) (hne : a ≠ key) (ps : List (List α × List α)) :
    after (c :: (key ++ c :: t)) (c :: (a ++ quoted c ps)) = after (c :: (key ++ c :: t)) (quoted c ps) := by
  cases ps with
  | nil =>
    have hno : ¬c :: (key ++ c :: t) <+: c :: (a ++ quoted c []) := by
      rw [List.cons_prefix_cons]
      rintro ⟨-, hp⟩
      have hc : c ∈ a ++ quoted c [] := hp.subset (by simp)
      simp [quoted, ha] at hc
    rw [after, if_neg hno, after_skip ha]
  | cons p ps =>
    rw [quoted_cons, after_quote hkey ha, if_neg (fun h => hne h.1)]

theorem after_quoted (hkey : c ∉ key) {p : List α × List α} (hp : c ∉ p.1 ∧ c ∉ p.2 ∧ p.2 ≠ key)
    (ps : List (List α × List α)) :
    after (c :: (key ++ c :: t)) (quoted c (p :: ps)) =
      if p.1 = key ∧ t <+: p.2 ++ quoted c ps then some ((p.2 ++ quoted c ps).drop t.length)
      else after (c :: (key ++ c :: t)) (quoted c ps) := by
  rw [quoted_cons, after_quote hkey hp.1, after_unquoted hkey hp.2.1 hp.2.2]

theorem after_quoted_append (hkey : c ∉ key) {pre : List (List α × List α)}
    (hpre : ∀ p ∈ pre, c ∉ p.1 ∧ c ∉ p.2 ∧ p.2 ≠ key)
    (hskip : ∀ p ∈ pre, p.1 = key → ∃ x ∈ p.2.head?, x ∉ t.head? ∧ t ≠ []) (ps : List (List α × List α)) :
    after (c :: (key ++ c :: t)) (quoted c (pre ++ ps)) = after (c :: (key ++ c :: t)) (quoted c ps) := by
  induction pre with
  | nil => rfl
  | cons p pre ih =>
    rw [List.forall_mem_cons] at hpre hskip
    rw [List.cons_append, after_quoted hkey hpre.1, if_neg, ih hpre.2 hskip.2]
    rintro ⟨hp, ht⟩
    obtain ⟨x, hx, hne, hnil⟩ := hskip.1 hp
    obtain ⟨u, hu⟩ := List.head?_eq_some_iff.mp hx
    obtain ⟨y, t', rfl⟩ := List.exists_cons_of_ne_nil hnil
    rw [hu, List.cons_append, List.cons_prefix_cons] at ht
    exact hne (by simp [ht.1])

end

end Text
