import Mathlib.Data.Nat.Notation
import Mathlib.Data.List.Basic

/-!
Runs of a labelled step function. `none` is a label that is not enabled. A
condition on steps restricts which runs are considered.
-/

namespace Runs

variable {σ α : Type} (step : σ → α → Option σ)

def run (C : σ → α → Bool) : σ → List α → Option σ
  | s, [] => some s
  | s, a :: as => if C s a then (step s a).bind fun s' => run C s' as else none

inductive ReachableWhile (init : σ → Prop) (C : σ → α → Bool) : σ → Prop
  | start {s : σ} (h : init s) : ReachableWhile init C s
  | next {s s' : σ} {a : α} (h : ReachableWhile init C s) (hc : C s a = true)
      (hs : step s a = some s') : ReachableWhile init C s'

def always (_ : σ) (_ : α) : Bool := true

abbrev Reachable (init : σ → Prop) : σ → Prop := ReachableWhile step init always

variable {step} {init : σ → Prop} {C D : σ → α → Bool}

theorem ReachableWhile.weaken (hCD : ∀ s a, C s a = true → D s a = true) {s : σ}
    (h : ReachableWhile step init C s) : ReachableWhile step init D s := by
  induction h with
  | start h => exact .start h
  | next _ hc hs ih => exact .next ih (hCD _ _ hc) hs

theorem ReachableWhile.reachable {s : σ} (h : ReachableWhile step init C s) :
    Reachable step init s := h.weaken fun _ _ _ => rfl

/-- The invariant rule. The step lemma may use that its state is reachable, so that invariants
build on one another. -/
theorem ReachableWhile.invariant (I : σ → Prop) (h0 : ∀ s, init s → I s)
    (hstep : ∀ s a s', ReachableWhile step init C s → I s → C s a = true → step s a = some s' → I s')
    {s : σ} (h : ReachableWhile step init C s) : I s := by
  induction h with
  | start h => exact h0 _ h
  | next hr hc hs ih => exact hstep _ _ _ hr ih hc hs

theorem reachableWhile_of_run {s s' : σ} (as : List α) (h : ReachableWhile step init C s)
    (hr : run step C s as = some s') : ReachableWhile step init C s' := by
  induction as generalizing s with
  | nil =>
    simp only [run, Option.some.injEq] at hr
    exact hr ▸ h
  | cons a as ih =>
    simp only [run] at hr
    split at hr
    case isTrue hc =>
      obtain ⟨t, ht, hr⟩ := Option.bind_eq_some_iff.mp hr
      exact ih (h.next hc ht) hr
    case isFalse => cases hr

theorem run_concat (s : σ) (as : List α) (a : α) :
    run step C s (as ++ [a]) = (run step C s as).bind fun s' => if C s' a then step s' a else none := by
  induction as generalizing s with
  | nil => simp [run]
  | cons b as ih =>
    simp only [List.cons_append, run]
    split
    case isTrue =>
      rw [Option.bind_assoc]
      exact congrArg _ (funext ih)
    case isFalse => rfl

theorem exists_of_run (step : σ → α → Option σ) (init : σ → Prop) (C : σ → α → Bool) (s : σ)
    (as : List α) (p : σ → Bool) (h : init s)
    (hr : (run step C s as).map p = some true) :
    ∃ s', ReachableWhile step init C s' ∧ p s' = true := by
  obtain ⟨s', hs', hp⟩ := Option.map_eq_some_iff.mp hr
  exact ⟨s', reachableWhile_of_run as (.start h) hs', hp⟩

end Runs
