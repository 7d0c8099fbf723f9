import HciBridge.DiscoveryTask

namespace HciBridge.DiscoveryTask

open Auth (Bytes)

def Task.window (s : Task) : FixedWindow.State UInt32 := ⟨s.replyWindow, s.replies⟩

def asked (d : Device) (s : Task) (r : Round) : Bool :=
  (r.datagram.any isProbe) && (announceRound d s r).announce.isSome

def probes (d : Device) : Task → List Round → List ℕ
  | _, [] => []
  | s, r :: rs => (if asked d s r then [r.after] else []) ++ probes d (round d s r) rs

section Limiter

variable {d : Device} {s : Task} {r : Round} {rs : List Round} {p q : ℕ}

theorem announceRound_rest (d : Device) (s : Task) (r : Round) :
    (announceRound d s r).window = s.window ∧ (announceRound d s r).answers = s.answers := by
  unfold announceRound
  split <;> exact ⟨rfl, rfl⟩

theorem answerProbe_spec (s : Task) (r : Round) (announce : Bytes) :
    (answerProbe s r announce).window = (FixedWindow.step clock probeRepliesPerS 1000 s.window r.after).1 ∧
    (answerProbe s r announce).answers = s.answers ++
      if (FixedWindow.step clock probeRepliesPerS 1000 s.window r.after).2 then [⟨r.before, r.after, announce⟩]
      else [] := by
  have hnew : replyWindowMs ≤ millis r.after - s.replyWindow ↔ 1000 ≤ (millis r.after - s.replyWindow).toNat := by
    rw [UInt32.le_iff_toNat_le]
    rfl
  have hcurrent : FixedWindow.current clock 1000 s.window r.after =
      if replyWindowMs ≤ millis r.after - s.replyWindow then ⟨millis r.after, 0⟩ else s.window :=
    if_congr hnew.symm rfl rfl
  unfold answerProbe FixedWindow.step
  rw [hcurrent]
  by_cases h : replyWindowMs ≤ millis r.after - s.replyWindow
  · simp [h, Task.window, probeRepliesPerS]
  · by_cases hlimit : s.replies < probeRepliesPerS <;> simp [h, hlimit, Task.window]

theorem round_spec (d : Device) (s : Task) (r : Round) :
    if asked d s r then
      (round d s r).window = (FixedWindow.step clock probeRepliesPerS 1000 s.window r.after).1 ∧
      ∃ announce, (announceRound d s r).announce = some announce ∧ (round d s r).answers = s.answers ++
        if (FixedWindow.step clock probeRepliesPerS 1000 s.window r.after).2 then [⟨r.before, r.after, announce⟩]
        else []
    else round d s r = announceRound d s r := by
  obtain ⟨hwindow, hanswers⟩ := announceRound_rest d s r
  unfold asked round
  dsimp only
  cases hdata : r.datagram with
  | none => simp
  | some data =>
    cases hann : (announceRound d s r).announce with
    | none => simp
    | some announce =>
      by_cases hprobe : isProbe data = true
      · have hspec := answerProbe_spec (announceRound d s r) r announce
        rw [hwindow, hanswers] at hspec
        simp only [hprobe, Option.any_some, Option.isSome_some, Bool.and_true, if_true]
        exact ⟨hspec.1, announce, rfl, hspec.2⟩
      · simp [hprobe]

theorem run_limiter (d : Device) (s : Task) (rs : List Round) :
    (run d s rs).window = FixedWindow.run clock probeRepliesPerS 1000 s.window (probes d s rs) ∧
    (run d s rs).answers.map Answer.time =
      s.answers.map Answer.time ++ FixedWindow.allowed clock probeRepliesPerS 1000 s.window (probes d s rs) := by
  induction rs generalizing s with
  | nil => exact ⟨rfl, (List.append_nil _).symm⟩
  | cons r rs ih =>
    obtain ⟨hwindow, hanswers⟩ := ih (round d s r)
    have hround := round_spec d s r
    rw [run, List.foldl_cons, ← run, hwindow, hanswers, probes]
    by_cases hasked : asked d s r = true
    · rw [if_pos hasked] at hround ⊢
      obtain ⟨hstep, announce, -, hans⟩ := hround
      rw [hstep, hans, List.singleton_append, FixedWindow.allowed, List.map_append, List.append_assoc]
      refine ⟨rfl, ?_⟩
      split <;> rfl
    · rw [if_neg hasked] at hround ⊢
      rw [hround, (announceRound_rest d s r).1, (announceRound_rest d s r).2]
      exact ⟨rfl, rfl⟩

theorem probes_sorted (h : Follows p q rs) : (q :: probes d s rs).Pairwise (· ≤ ·) := by
  induction rs generalizing s p q with
  | nil => simp [probes]
  | cons r rs ih =>
    obtain ⟨hq, -, hr, hrest⟩ := h
    have hnext := ih (s := round d s r) hrest
    rw [probes]
    split
    case isTrue =>
      rw [List.singleton_append, List.pairwise_cons]
      refine ⟨?_, hnext⟩
      intro t ht
      rw [List.pairwise_cons] at hnext
      rcases List.mem_cons.mp ht with rfl | ht
      · exact hq.trans hr
      · exact (hq.trans hr).trans (hnext.1 t ht)
    case isFalse =>
      rw [List.nil_append]
      rw [List.pairwise_cons] at hnext ⊢
      exact ⟨fun t ht => (hq.trans hr).trans (hnext.1 t ht), hnext.2⟩

theorem follows_append {rs us : List Round} (h : Follows p q (rs ++ us)) : Follows p q rs := by
  induction rs generalizing p q with
  | nil => trivial
  | cons r rs ih => exact ⟨h.1, h.2.1, h.2.2.1, ih h.2.2.2⟩

theorem probes_append (d : Device) (s : Task) (rs us : List Round) :
    probes d s (rs ++ us) = probes d s rs ++ probes d (run d s rs) us := by
  induction rs generalizing s with
  | nil => rfl
  | cons r rs ih => simp only [List.cons_append, probes, ih, List.append_assoc, run, List.foldl_cons]

end Limiter

theorem boot_window (t : ℕ) : (boot t).window.start = clock.reading 0 := rfl

theorem answers_limited (d : Device) (h : History) :
    (∀ a, (FixedWindow.within 1000 a ((h.task d).answers.map Answer.time)).length ≤ 10) ∧
    (∀ before r rest, h.rounds = before ++ r :: rest → asked d (run d (boot h.start) before) r = true →
      (run d (boot h.start) (before ++ [r])).answers = (run d (boot h.start) before).answers →
      ∃ v ≤ r.after, (r.after - v) % 2 ^ 32 < 1000 ∧
        5 ≤ (((run d (boot h.start) before).answers.map Answer.time).filter fun u => v ≤ u).length) := by
  have hanswers (rs : List Round) : (run d (boot h.start) rs).answers.map Answer.time =
      FixedWindow.allowed clock probeRepliesPerS 1000 (boot h.start).window (probes d (boot h.start) rs) :=
    (run_limiter d (boot h.start) rs).2
  have hsorted {rs : List Round} (hf : Follows h.start h.start rs) :
      (0 :: probes d (boot h.start) rs).Pairwise (· ≤ ·) := by
    have hpairs := probes_sorted (d := d) (s := boot h.start) hf
    exact List.pairwise_cons.mpr ⟨fun _ _ => Nat.zero_le _, (List.pairwise_cons.mp hpairs).2⟩
  constructor
  · intro a
    rw [History.task, hanswers]
    exact FixedWindow.allowed_le (boot_window h.start) (Nat.zero_le _) (hsorted h.follows) a
  · intro before r rest hrounds hasked hsame
    have hfollows : Follows h.start h.start (before ++ [r]) := by
      have hall := h.follows
      rw [hrounds, List.append_cons] at hall
      exact follows_append hall
    have hprobes : probes d (boot h.start) (before ++ [r]) = probes d (boot h.start) before ++ [r.after] := by
      rw [probes_append]
      simp [probes, hasked]
    have hround := round_spec d (run d (boot h.start) before) r
    rw [if_pos hasked, (run_limiter d (boot h.start) before).1] at hround
    obtain ⟨-, announce, -, hans⟩ := hround
    rw [hanswers before]
    have hlimit : 0 < probeRepliesPerS := by decide
    apply FixedWindow.full_of_refused hlimit (boot_window h.start) rfl (hprobes ▸ hsorted hfollows)
    by_contra hpassed
    rw [Bool.not_eq_false] at hpassed
    rw [hpassed, if_pos rfl] at hans
    have hgrown : run d (boot h.start) (before ++ [r]) = round d (run d (boot h.start) before) r := by
      simp [run]
    rw [hgrown, hans] at hsame
    simp at hsame

def vectorDevice : Device where
  hashes := KeyProtocol.vectorHashes
  mac := .fill 6 1
  port := 6633
  name := ⟨Auth.ascii "hcibridge", by decide⟩
  name_ne := by decide
  name_tab := by decide
  name_le := by decide

def probeRound (t : ℕ) : Round where
  before := t
  ip := .fill 4 9
  board := ⟨.fill 32 66, true, .fill 16 0, 0⟩
  datagram := some (Auth.ascii "ESPHCI1\tPROBE\n")
  after := t + 1

def sevenProbes : History where
  start := 0
  rounds := [10, 20, 30, 40, 50, 60, 1010].map probeRound
  follows := by simp [Follows, probeRound]

example : (sevenProbes.task vectorDevice).answers.map Answer.time = [11, 21, 31, 41, 51, 1011] := by
  decide +kernel

end HciBridge.DiscoveryTask
