import Mathlib.Data.List.Induction
import Mathlib.Data.Nat.Notation
import Mathlib.Order.Nat

/-!
A limiter that counts in windows of a fixed width, on a clock that wraps. A window begins with the first
event after the one before has run out, so that two of them may meet in any stretch of that width.
-/

namespace FixedWindow

structure Clock (α : Type) where
  reading : ℕ → α
  since : α → α → ℕ
  range : ℕ
  since_eq : ∀ v t, v ≤ t → since (reading t) (reading v) = (t - v) % range

structure State (α : Type) where
  start : α
  count : ℕ
deriving DecidableEq, Repr

section Step

variable {α : Type} (clock : Clock α) (limit width : ℕ)

def current (s : State α) (t : ℕ) : State α :=
  if width ≤ clock.since (clock.reading t) s.start then ⟨clock.reading t, 0⟩ else s

def step (s : State α) (t : ℕ) : State α × Bool :=
  let s := current clock width s t
  if s.count < limit then (⟨s.start, s.count + 1⟩, true) else (s, false)

def run (s : State α) (ts : List ℕ) : State α := ts.foldl (fun s t => (step clock limit width s t).1) s

def allowed (s : State α) : List ℕ → List ℕ
  | [] => []
  | t :: ts =>
    (if (step clock limit width s t).2 then [t] else []) ++ allowed (step clock limit width s t).1 ts

def within (width a : ℕ) (ts : List ℕ) : List ℕ := ts.filter fun t => a ≤ t ∧ t < a + width

end Step

section Bounds

variable {α : Type} {clock : Clock α} {limit width a w t : ℕ} {s : State α} {ts : List ℕ}

theorem within_append (ts us : List ℕ) : within width a (ts ++ us) = within width a ts ++ within width a us :=
  List.filter_append ..

theorem allowed_append (s : State α) (ts us : List ℕ) : allowed clock limit width s (ts ++ us) =
    allowed clock limit width s ts ++ allowed clock limit width (run clock limit width s ts) us := by
  induction ts generalizing s with
  | nil => rfl
  | cons t ts ih => simp only [List.cons_append, allowed, ih, List.append_assoc, run, List.foldl_cons]

theorem step_cases (width : ℕ) (hs : s.start = clock.reading w) (hcount : s.count ≤ limit) (hw : w ≤ t) :
    ∃ v c, (step clock limit width s t).1.start = clock.reading v ∧ v ≤ t ∧
      (v = w ∧ c = s.count ∨ v = t ∧ c = 0 ∧ w + width ≤ t) ∧
      (c < limit ∧ (step clock limit width s t).2 = true ∧ (step clock limit width s t).1.count = c + 1 ∨
        c = limit ∧ (step clock limit width s t).2 = false ∧ (step clock limit width s t).1.count = c) := by
  have hexpired : width ≤ clock.since (clock.reading t) s.start → w + width ≤ t := by
    intro h
    rw [hs, clock.since_eq w t hw] at h
    have hle := Nat.mod_le (t - w) clock.range
    omega
  unfold step current
  by_cases hnew : width ≤ clock.since (clock.reading t) s.start
  · refine ⟨t, 0, ?_, le_refl t, .inr ⟨rfl, rfl, hexpired hnew⟩, ?_⟩
    · rw [if_pos hnew]
      dsimp only
      split <;> rfl
    · rw [if_pos hnew]
      by_cases hlimit : 0 < limit
      · exact .inl ⟨hlimit, by simp [hlimit]⟩
      · exact .inr ⟨by omega, by simp [hlimit]⟩
  · refine ⟨w, s.count, ?_, hw, .inl ⟨rfl, rfl⟩, ?_⟩
    · rw [if_neg hnew]
      dsimp only
      split <;> exact hs
    · rw [if_neg hnew]
      by_cases hlimit : s.count < limit
      · exact .inl ⟨hlimit, by simp [hlimit]⟩
      · exact .inr ⟨by omega, by simp [hlimit]⟩

/-- What may still be let through between `a` and `a + width`, when the window has been open since `w`. -/
def quota (limit width a w c : ℕ) : ℕ :=
  if a + width ≤ w then 0 else if a ≤ w then limit - c else limit - c + limit

theorem allowed_after (hs : s.start = clock.reading w) (hcount : s.count ≤ limit) (hsorted : (w :: ts).Pairwise (· ≤ ·))
    (ha : ∀ t ∈ ts, a ≤ t) :
    (within width a (allowed clock limit width s ts)).length ≤ quota limit width a w s.count := by
  induction ts generalizing s w with
  | nil => exact Nat.zero_le _
  | cons t ts ih =>
    rw [List.pairwise_cons] at hsorted
    have hw : w ≤ t := hsorted.1 t (by simp)
    have hat : a ≤ t := ha t (by simp)
    obtain ⟨v, c, hv, hvt, hwindow, hpass⟩ := step_cases width hs hcount hw
    have hrest : (v :: ts).Pairwise (· ≤ ·) := by
      rw [List.pairwise_cons] at hsorted ⊢
      exact ⟨fun u hu => hvt.trans (hsorted.2.1 u hu), hsorted.2.2⟩
    have hnext : (step clock limit width s t).1.count ≤ limit := by
      rcases hpass with ⟨_, _, h⟩ | ⟨_, _, h⟩ <;> omega
    have hquota := ih hv hnext hrest fun u hu => ha u (List.mem_cons_of_mem _ hu)
    have hhead : (within width a (if (step clock limit width s t).2 then [t] else [])).length ≤
        if c < limit ∧ t < a + width then 1 else 0 := by
      rcases hpass with ⟨hlt, hpass, -⟩ | ⟨-, hpass, -⟩
      · rw [hpass, if_pos rfl]
        by_cases hin : t < a + width
        · rw [if_pos ⟨hlt, hin⟩]
          exact (List.length_filter_le _ _).trans (by simp)
        · simp [within, hin]
      · simp [hpass, within]
    rw [allowed, within_append, List.length_append]
    -- the window that is open after this event has what was left of it, less the event
    unfold quota at hquota ⊢
    rcases hwindow with ⟨rfl, rfl⟩ | ⟨rfl, rfl, hexpired⟩ <;>
      rcases hpass with ⟨hlt, -, hcount'⟩ | ⟨hfull, -, hcount'⟩ <;> rw [hcount'] at hquota <;>
      split_ifs at hquota hhead ⊢ <;> omega

theorem allowed_le (hs : s.start = clock.reading w) (hcount : s.count ≤ limit) (hsorted : (w :: ts).Pairwise (· ≤ ·))
    (a : ℕ) : (within width a (allowed clock limit width s ts)).length ≤ 2 * limit := by
  induction ts generalizing s w with
  | nil => exact Nat.zero_le _
  | cons t ts ih =>
    rw [List.pairwise_cons] at hsorted
    by_cases hat : a ≤ t
    · have hall : ∀ u ∈ t :: ts, a ≤ u := by
        have htail := List.pairwise_cons.mp hsorted.2
        exact List.forall_mem_cons.mpr ⟨hat, fun u hu => hat.trans (htail.1 u hu)⟩
      apply (allowed_after hs hcount (List.pairwise_cons.mpr hsorted) hall).trans
      unfold quota
      split_ifs <;> omega
    · obtain ⟨v, c, hv, hvt, -, hpass⟩ := step_cases width hs hcount (hsorted.1 t (by simp))
      have hrest : (v :: ts).Pairwise (· ≤ ·) := by
        have htail := List.pairwise_cons.mp hsorted.2
        exact List.pairwise_cons.mpr ⟨fun u hu => hvt.trans (htail.1 u hu), htail.2⟩
      have hnext : (step clock limit width s t).1.count ≤ limit := by
        rcases hpass with ⟨_, _, h⟩ | ⟨_, _, h⟩ <;> omega
      have hhead : within width a (if (step clock limit width s t).2 then [t] else []) = [] := by
        split <;> simp [within, hat]
      rw [allowed, within_append, hhead, List.nil_append]
      exact ih hv hnext hrest

theorem run_concat (s : State α) (ts : List ℕ) (t : ℕ) :
    run clock limit width s (ts ++ [t]) = (step clock limit width (run clock limit width s ts) t).1 := by
  rw [run, List.foldl_append]
  rfl

theorem run_open (limit width : ℕ) (hs : s.start = clock.reading w) (hcount : s.count = 0)
    (hsorted : (w :: ts).Pairwise (· ≤ ·)) :
    ∃ v, (run clock limit width s ts).start = clock.reading v ∧ (v = w ∨ v ∈ ts) ∧
      (run clock limit width s ts).count ≤ limit ∧
      (run clock limit width s ts).count ≤ ((allowed clock limit width s ts).filter fun u => v ≤ u).length := by
  induction ts using List.reverseRecOn with
  | nil => exact ⟨w, hs, .inl rfl, by simp [run, hcount], by simp [run, hcount]⟩
  | append_singleton ts t ih =>
    rw [← List.cons_append, List.pairwise_append] at hsorted
    obtain ⟨v, hv, hmem, hle, hlen⟩ := ih hsorted.1
    have hvt : v ≤ t := hsorted.2.2 v (by rcases hmem with rfl | hmem <;> simp [*]) t (by simp)
    obtain ⟨u, c, hu, hut, hwindow, hpass⟩ := step_cases width hv hle hvt
    rw [run_concat, allowed_append]
    refine ⟨u, hu, ?_, by rcases hpass with ⟨_, _, h⟩ | ⟨_, _, h⟩ <;> omega, ?_⟩
    · rcases hwindow with ⟨rfl, -⟩ | ⟨rfl, -⟩
      · exact hmem.imp_right (List.mem_append_left _)
      · exact .inr (by simp)
    · have hnew : c ≤ ((allowed clock limit width s ts).filter fun x => u ≤ x).length := by
        rcases hwindow with ⟨rfl, rfl⟩ | ⟨-, rfl, -⟩
        · exact hlen
        · exact Nat.zero_le _
      rw [List.filter_append, List.length_append]
      rcases hpass with ⟨-, hpass, hc⟩ | ⟨-, hpass, hc⟩
      · rw [hc, allowed, hpass, if_pos rfl]
        simpa [allowed, hut] using hnew
      · rw [hc]
        omega

theorem full_of_refused (hlimit : 0 < limit) (hs : s.start = clock.reading w) (hcount : s.count = 0)
    (hsorted : (w :: (ts ++ [t])).Pairwise (· ≤ ·))
    (h : (step clock limit width (run clock limit width s ts) t).2 = false) :
    ∃ v ≤ t, (t - v) % clock.range < width ∧
      limit ≤ ((allowed clock limit width s ts).filter fun u => v ≤ u).length := by
  rw [← List.cons_append, List.pairwise_append] at hsorted
  obtain ⟨v, hv, hmem, -, hlen⟩ := run_open limit width hs hcount hsorted.1
  have hvt : v ≤ t := hsorted.2.2 v (by rcases hmem with rfl | hmem <;> simp [*]) t (by simp)
  unfold step current at h
  rw [hv, clock.since_eq v t hvt] at h
  by_cases hnew : width ≤ (t - v) % clock.range
  · rw [if_pos hnew] at h
    simp [hlimit] at h
  · rw [if_neg hnew] at h
    refine ⟨v, hvt, not_le.mp hnew, le_trans ?_ hlen⟩
    by_contra hlt
    simp [not_le.mp hlt] at h

end Bounds

end FixedWindow
