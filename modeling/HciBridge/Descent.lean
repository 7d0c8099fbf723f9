import Mathlib.Tactic.Common
import HciBridge.Runs

/-!
Bounded response: a measure that every counted step lowers and no step raises, until a goal is reached.
-/

namespace Runs

variable {σ α : Type} {step : σ → α → Option σ} {C : σ → α → Bool}

theorem run_append {s s' : σ} {as bs : List α} (h : run step C s (as ++ bs) = some s') :
    ∃ t, run step C s as = some t ∧ run step C t bs = some s' := by
  induction as generalizing s with
  | nil => exact ⟨s, rfl, h⟩
  | cons a as ih =>
    simp only [List.cons_append, run] at h ⊢
    split at h
    case isFalse => cases h
    case isTrue hc =>
      obtain ⟨u, hu, h⟩ := Option.bind_eq_some_iff.mp h
      rw [if_pos hc, hu]
      exact ih h

theorem run_trans {s t s' : σ} {as bs : List α} (h : run step C s as = some t) (h' : run step C t bs = some s') :
    run step C s (as ++ bs) = some s' := by
  induction as generalizing s with
  | nil =>
    cases h
    exact h'
  | cons a as ih =>
    simp only [List.cons_append, run] at h ⊢
    split at h
    case isFalse => cases h
    case isTrue hc =>
      obtain ⟨u, hu, h⟩ := Option.bind_eq_some_iff.mp h
      rw [if_pos hc, hu]
      exact ih h

/-- `I` holds and `μ` falls with every counted step that `C` lets through, until `G` holds. -/
def Descends (step : σ → α → Option σ) (C : σ → α → Bool) (counted : α → Bool) (I G : σ → Prop) (μ : σ → ℕ) :
    Prop :=
  ∀ s a s', I s → C s a = true → step s a = some s' →
    G s' ∨ I s' ∧ μ s' + (if counted a then 1 else 0) ≤ μ s

variable {counted : α → Bool} {I G : σ → Prop} {μ : σ → ℕ}

theorem Descends.reaches_or (h : Descends step C counted I G μ) {s s' : σ} {as : List α} (hI : I s)
    (hr : run step C s as = some s') :
    (∃ bs t, bs <+: as ∧ run step C s bs = some t ∧ G t) ∨ I s' ∧ μ s' + as.countP counted ≤ μ s := by
  induction as generalizing s with
  | nil =>
    cases hr
    exact .inr ⟨hI, Nat.le_refl _⟩
  | cons a as ih =>
    simp only [run] at hr
    split at hr
    case isFalse => cases hr
    case isTrue hc =>
      obtain ⟨u, hu, hr⟩ := Option.bind_eq_some_iff.mp hr
      rcases h s a u hI hc hu with hG | ⟨hIu, hle⟩
      · exact .inl ⟨[a], u, by simp, by simp [run, hc, hu], hG⟩
      · rcases ih hIu hr with ⟨bs, t, hbs, ht, hG⟩ | ⟨hI', hle'⟩
        · exact .inl ⟨a :: bs, t, List.cons_prefix_cons.mpr ⟨rfl, hbs⟩, by simp [run, hc, hu, ht], hG⟩
        · refine .inr ⟨hI', ?_⟩
          rw [List.countP_cons]
          omega

theorem Descends.reaches (h : Descends step C counted I G μ) {s s' : σ} {as : List α} (hI : I s)
    (hr : run step C s as = some s') (hcount : μ s < as.countP counted) :
    ∃ bs t, bs <+: as ∧ run step C s bs = some t ∧ G t := by
  rcases h.reaches_or hI hr with hgoal | ⟨-, hle⟩
  · exact hgoal
  · omega

theorem Descends.countP_le (h : Descends step C counted I (fun _ => False) μ) {s s' : σ} {as : List α} (hI : I s)
    (hr : run step C s as = some s') : as.countP counted ≤ μ s := by
  by_contra hlt
  obtain ⟨_, _, _, _, hG⟩ := h.reaches hI hr (Nat.lt_of_not_le hlt)
  exact hG

end Runs
