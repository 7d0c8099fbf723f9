import Mathlib.Tactic.Common
import HciBridge.Runs

/-!
The rollback timer of a fresh image: `ota_init` arms it, `ota_confirm` stops it and
`rollback_timeout` restarts the board. Each runs in a task of its own.
-/

namespace HciBridge.Rollback

inductive ImgState
  | pendingVerify | valid | other
deriving DecidableEq

/-- `idle` is created and not started, stopped, or expired. -/
inductive Timer
  | null | idle | running
deriving DecidableEq

inductive InitPc
  | check | create | startOnce | done
deriving DecidableEq

/-- Where `ota_confirm` is. `failed` is the result of marking the image, which the code does not keep. -/
inductive ConfirmPc
  | idle
  | check
  | mark
  | testTimer (failed : Bool)
  | stop (failed : Bool)
deriving DecidableEq

inductive TimeoutPc
  | idle | check | restart | restarted
deriving DecidableEq

/-- `image` is what `esp_ota_get_state_partition` finds for the running partition, if anything. -/
structure State where
  image : Option ImgState
  timer : Timer
  init : InitPc
  confirm : ConfirmPc
  timeout : TimeoutPc
deriving DecidableEq

inductive Label
  | init
  | gotIp
  | confirm
  | mark (ok : Bool)
  | expire
  | timeout
deriving DecidableEq

def State.pendingVerify (s : State) : Bool := s.image = some .pendingVerify

def otaInit (s : State) : Option State :=
  match s.init with
  | .check => some { s with init := if s.pendingVerify then .create else .done }
  | .create => some { s with timer := .idle, init := .startOnce }
  | .startOnce => some { s with timer := .running, init := .done }
  | .done => none

/-- The result of `esp_timer_stop` is ignored: only a running timer is stopped. -/
def Timer.stop : Timer → Timer
  | running => idle
  | t => t

def otaConfirm (s : State) : Label → Option State
  | .gotIp => if s.confirm = .idle then some { s with confirm := .check } else none
  | .mark ok =>
    if s.confirm = .mark then
      some { s with image := if ok then some .valid else s.image, confirm := .testTimer !ok }
    else none
  | .confirm =>
    match s.confirm with
    | .check => some { s with confirm := if s.pendingVerify then .mark else .testTimer false }
    | .testTimer failed => some { s with confirm := if s.timer = .null then .idle else .stop failed }
    | .stop _ => some { s with timer := s.timer.stop, confirm := .idle }
    | _ => none
  | _ => none

def rollbackTimeout (s : State) : Option State :=
  match s.timeout with
  | .check => some { s with timeout := if s.pendingVerify then .restart else .idle }
  | .restart => some { s with timeout := .restarted }
  | _ => none

def step (s : State) (l : Label) : Option State :=
  if s.timeout = .restarted then none
  else
    match l with
    | .init => otaInit s
    | .expire => if s.timer = .running then some { s with timer := .idle, timeout := .check } else none
    | .timeout => rollbackTimeout s
    | l => otaConfirm s l

def boot (image : Option ImgState) : State := ⟨image, .null, .check, .idle, .idle⟩

def IsInit (s : State) : Prop := ∃ image, s = boot image

def Fired (s : State) : Prop :=
  ∃ n s', Runs.run step Runs.always s (List.replicate n .timeout) = some s' ∧ s'.timeout = .restarted

def Guarded (s : State) : Prop :=
  s.init = .done → s.pendingVerify = false ∨ s.timer = .running ∨ Fired s

/-- An `ota_confirm` that failed to mark the image does not come to `esp_timer_stop` while the timer runs. -/
def stopsOnlyMarked (s : State) : Label → Bool
  | .confirm => !(s.confirm = .stop true && s.timer = .running)
  | _ => true

inductive Step (s : State) : Label → State → Prop
  | pending (h : s.init = .check) (hp : s.pendingVerify = true) : Step s .init { s with init := .create }
  | skip (h : s.init = .check) (hp : s.pendingVerify = false) : Step s .init { s with init := .done }
  | create (h : s.init = .create) : Step s .init { s with timer := .idle, init := .startOnce }
  | startOnce (h : s.init = .startOnce) : Step s .init { s with timer := .running, init := .done }
  | gotIp (h : s.confirm = .idle) : Step s .gotIp { s with confirm := .check }
  | unmarked (h : s.confirm = .check) (hp : s.pendingVerify = true) : Step s .confirm { s with confirm := .mark }
  | settled (h : s.confirm = .check) (hp : s.pendingVerify = false) :
      Step s .confirm { s with confirm := .testTimer false }
  | marked (h : s.confirm = .mark) :
      Step s (.mark true) { s with image := some .valid, confirm := .testTimer false }
  | failed (h : s.confirm = .mark) : Step s (.mark false) { s with confirm := .testTimer true }
  | noTimer {failed : Bool} (h : s.confirm = .testTimer failed) (ht : s.timer = .null) :
      Step s .confirm { s with confirm := .idle }
  | someTimer {failed : Bool} (h : s.confirm = .testTimer failed) (ht : s.timer ≠ .null) :
      Step s .confirm { s with confirm := .stop failed }
  | stop {failed : Bool} (h : s.confirm = .stop failed) :
      Step s .confirm { s with timer := s.timer.stop, confirm := .idle }
  | expire (h : s.timer = .running) : Step s .expire { s with timer := .idle, timeout := .check }
  | noIp (h : s.timeout = .check) (hp : s.pendingVerify = true) : Step s .timeout { s with timeout := .restart }
  | late (h : s.timeout = .check) (hp : s.pendingVerify = false) : Step s .timeout { s with timeout := .idle }
  | restart (h : s.timeout = .restart) : Step s .timeout { s with timeout := .restarted }

section Steps

variable {s s' : State} {l : Label}

theorem otaInit_cases (h : otaInit s = some s') : Step s .init s' := by
  unfold otaInit at h
  split at h
  case h_1 hpc =>
    cases h
    cases hp : s.pendingVerify
    · exact .skip hpc hp
    · exact .pending hpc hp
  case h_2 hpc =>
    cases h
    exact .create hpc
  case h_3 hpc =>
    cases h
    exact .startOnce hpc
  case h_4 => cases h

theorem otaConfirm_cases (h : otaConfirm s l = some s') : Step s l s' := by
  unfold otaConfirm at h
  split at h
  case h_1 =>
    obtain ⟨hpc, rfl⟩ := Option.ite_some_none_eq_some.mp h
    exact .gotIp hpc
  case h_2 ok =>
    obtain ⟨hpc, rfl⟩ := Option.ite_some_none_eq_some.mp h
    cases ok
    · exact .failed hpc
    · exact .marked hpc
  case h_3 =>
    split at h
    case h_1 hpc =>
      cases h
      cases hp : s.pendingVerify
      · exact .settled hpc hp
      · exact .unmarked hpc hp
    case h_2 failed hpc =>
      cases h
      by_cases ht : s.timer = .null
      · rw [if_pos ht]
        exact .noTimer hpc ht
      · rw [if_neg ht]
        exact .someTimer hpc ht
    case h_3 failed hpc =>
      cases h
      exact .stop hpc
    case h_4 => cases h
  case h_4 => cases h

theorem rollbackTimeout_cases (h : rollbackTimeout s = some s') : Step s .timeout s' := by
  unfold rollbackTimeout at h
  split at h
  case h_1 hpc =>
    cases h
    cases hp : s.pendingVerify
    · exact .late hpc hp
    · exact .noIp hpc hp
  case h_2 hpc =>
    cases h
    exact .restart hpc
  case h_3 => cases h

theorem step_cases (h : step s l = some s') : Step s l s' := by
  unfold step at h
  split at h
  case isTrue => cases h
  case isFalse =>
    split at h
    case h_1 => exact otaInit_cases h
    case h_2 =>
      obtain ⟨hrun, rfl⟩ := Option.ite_some_none_eq_some.mp h
      exact .expire hrun
    case h_3 => exact rollbackTimeout_cases h
    case h_4 => exact otaConfirm_cases h

end Steps

theorem Timer.stop_ne_running (t : Timer) : t.stop ≠ running := by cases t <;> simp [stop]

def ConfirmPc.seen : ConfirmPc → Option Bool
  | mark => some true
  | testTimer failed | stop failed => some failed
  | _ => none

structure TimerInv (s : State) : Prop where
  early : s.init ≠ .done → s.timer ≠ .running ∧ s.timeout = .idle
  once : s.timer = .running → s.timeout = .idle
  seen : ∀ pending, s.confirm.seen = some pending → s.pendingVerify = pending

theorem timerInv_boot (image : Option ImgState) : TimerInv (boot image) :=
  ⟨fun _ => ⟨by simp [boot], rfl⟩, fun _ => rfl, by simp [boot, ConfirmPc.seen]⟩

theorem timerInv_step {s s' : State} {l : Label} (hi : TimerInv s) (h : Step s l s') : TimerInv s' := by
  obtain ⟨hearly, honce, hseen⟩ := hi
  cases h with
  | pending h hp => exact ⟨fun _ => hearly (by simp [h]), honce, hseen⟩
  | skip h hp => exact ⟨by simp, honce, hseen⟩
  | create h =>
    have hidle : s.timeout = .idle := (hearly (by simp [h])).2
    exact ⟨fun _ => ⟨by simp, hidle⟩, by simp, hseen⟩
  | startOnce h =>
    have hidle : s.timeout = .idle := (hearly (by simp [h])).2
    exact ⟨by simp, fun _ => hidle, hseen⟩
  | gotIp | noTimer => exact ⟨hearly, honce, by simp [ConfirmPc.seen]⟩
  | unmarked h hp | settled h hp => exact ⟨hearly, honce, fun pending hf => by cases hf; exact hp⟩
  | marked h => exact ⟨hearly, honce, fun pending hf => by cases hf; rfl⟩
  | failed h | someTimer h ht =>
    -- the image is as the step before has seen it
    exact ⟨hearly, honce, fun pending hf => hseen pending (by rw [h]; exact hf)⟩
  | stop h =>
    have hstop : s.timer.stop ≠ .running := s.timer.stop_ne_running
    exact ⟨fun hinit => ⟨hstop, (hearly hinit).2⟩, fun hrun => absurd hrun hstop, by simp [ConfirmPc.seen]⟩
  | expire h => exact ⟨fun hinit => absurd h (hearly hinit).1, by simp, hseen⟩
  | noIp h hp | late h hp | restart h =>
    -- the callback runs only when the timer has been started and has expired
    have hrun : s.timer ≠ .running := fun hrun => by simp [honce hrun] at h
    have hdone (hinit : s.init ≠ .done) : False := by simp [(hearly hinit).2] at h
    exact ⟨fun hinit => (hdone hinit).elim, fun h => absurd h hrun, hseen⟩

theorem timerInv_of_reachable {s : State} (h : Runs.Reachable step IsInit s) : TimerInv s :=
  h.invariant TimerInv (by rintro _ ⟨image, rfl⟩; exact timerInv_boot image)
    fun _ _ _ _ hi _ hs => timerInv_step hi (step_cases hs)

section Callback

variable {s : State}

theorem fired_of_timeout (hp : s.pendingVerify = true) (h : s.timeout ≠ .idle) : Fired s := by
  cases hpc : s.timeout with
  | idle => exact absurd hpc h
  | check => exact ⟨2, _, by simp [Runs.run, step, Runs.always, rollbackTimeout, hpc, hp]; rfl, rfl⟩
  | restart => exact ⟨1, _, by simp [Runs.run, step, Runs.always, rollbackTimeout, hpc]; rfl, rfl⟩
  | restarted => exact ⟨0, s, rfl, hpc⟩

theorem not_fired_of_idle (h : s.timeout = .idle) : ¬Fired s := by
  rintro ⟨n, s', hrun, hrestarted⟩
  cases n with
  | zero =>
    cases hrun
    rw [h] at hrestarted
    cases hrestarted
  | succ n => simp [List.replicate_succ, Runs.run, step, Runs.always, rollbackTimeout, h] at hrun

theorem guarded_iff : Guarded s ↔
    (s.init = .done → s.pendingVerify = true → s.timer ≠ .running → s.timeout ≠ .idle) := by
  constructor
  · intro h hinit hp hrun hidle
    rcases h hinit with h | h | h
    · rw [hp] at h
      cases h
    · exact hrun h
    · exact not_fired_of_idle hidle h
  · intro h hinit
    cases hp : s.pendingVerify with
    | false => exact .inl rfl
    | true =>
      by_cases hrun : s.timer = .running
      · exact .inr (.inl hrun)
      · exact .inr (.inr (fired_of_timeout hp (h hinit hp hrun)))

end Callback

theorem guarded_boot (image : Option ImgState) : Guarded (boot image) := by
  intro h
  cases h

theorem guarded_step {s s' : State} {l : Label} (hi : TimerInv s) (hg : Guarded s)
    (hc : stopsOnlyMarked s l = true) (h : Step s l s') : Guarded s' := by
  rw [guarded_iff] at hg ⊢
  cases h with
  | skip h hp | late h hp => exact fun _ hp' => absurd (hp.symm.trans hp') (by simp)
  | marked h => exact fun _ hp' => absurd hp' (by simp [State.pendingVerify])
  | @stop failed h =>
    intro hinit hp _
    have hfailed : failed = true := (hi.seen failed (by rw [h]; rfl)).symm.trans hp
    have hrun : s.timer ≠ .running := by simpa [stopsOnlyMarked, h, hfailed] using hc
    exact hg hinit hp hrun
  | gotIp | unmarked | settled | failed | noTimer | someTimer => exact hg
  | pending | create | startOnce | expire | noIp | restart => simp

theorem unguarded_of_stop {s s' : State} {l : Label} (hi : TimerInv s) (hc : stopsOnlyMarked s l = false)
    (h : Step s l s') : ¬Guarded s' := by
  cases h with
  | @stop failed h =>
    simp only [stopsOnlyMarked, h, Bool.not_eq_false', Bool.and_eq_true, decide_eq_true_eq] at hc
    obtain ⟨hstop, hrun⟩ := hc
    cases hstop
    intro hg
    have hinit : s.init = .done := by_contra fun hinit => (hi.early hinit).1 hrun
    have hp : s.pendingVerify = true := hi.seen true (by rw [h]; rfl)
    exact guarded_iff.mp hg hinit hp s.timer.stop_ne_running (hi.once hrun)
  | unmarked h | settled h | noTimer h | someTimer h => simp [stopsOnlyMarked, h] at hc
  | _ => simp [stopsOnlyMarked] at hc

theorem guarded_while_marked (s : State) :
    (Runs.ReachableWhile step IsInit stopsOnlyMarked s → Guarded s) ∧
      (Runs.Reachable step IsInit s →
        ∀ l s', step s l = some s' → stopsOnlyMarked s l = false → ¬Guarded s') := by
  constructor
  · intro h
    exact h.invariant Guarded (by rintro _ ⟨image, rfl⟩; exact guarded_boot image)
      fun _ _ _ hr hg hc hs => guarded_step (timerInv_of_reachable hr.reachable) hg hc (step_cases hs)
  · intro h l s' hs hc
    exact unguarded_of_stop (timerInv_of_reachable h) hc (step_cases hs)

/-- The address comes before the timer is created, and the image cannot be marked. -/
def earlyFailure : List Label :=
  [.init, .gotIp, .confirm, .mark false, .confirm, .init, .init]

def lateFailure : List Label :=
  earlyFailure ++ [.gotIp, .confirm, .mark false, .confirm]

theorem guarded_after_early_failure :
    (∃ s, Runs.ReachableWhile step IsInit stopsOnlyMarked s ∧
      (s.init = .done ∧ s.pendingVerify = true ∧ s.confirm = .idle) ∧ Guarded s) ∧
      ∃ s s', Runs.Reachable step IsInit s ∧ step s .confirm = some s' ∧ ¬Guarded s' := by
  constructor
  · obtain ⟨s, hs, hp⟩ := Runs.exists_of_run step IsInit stopsOnlyMarked (boot (some .pendingVerify)) earlyFailure
      (fun s => s.init = .done ∧ s.pendingVerify = true ∧ s.confirm = .idle) ⟨_, rfl⟩ (by decide)
    exact ⟨s, hs, of_decide_eq_true hp, (guarded_while_marked s).1 hs⟩
  · obtain ⟨s, hs, hp⟩ := Runs.exists_of_run step IsInit Runs.always (boot (some .pendingVerify)) lateFailure
      (fun s => (step s .confirm).isSome = true ∧ stopsOnlyMarked s .confirm = false) ⟨_, rfl⟩ (by decide)
    obtain ⟨hstep, hc⟩ := of_decide_eq_true hp
    obtain ⟨s', hs'⟩ := Option.isSome_iff_exists.mp hstep
    exact ⟨s, s', hs, hs', (guarded_while_marked s).2 hs .confirm s' hs' hc⟩

theorem unguarded_after_late_failure : ¬∀ s, Runs.Reachable step IsInit s → Guarded s := by
  intro h
  obtain ⟨s, hs, hp⟩ := Runs.exists_of_run step IsInit Runs.always (boot (some .pendingVerify))
    [.init, .init, .init, .gotIp, .confirm, .mark false, .confirm, .confirm]
    (fun s => s = ⟨some .pendingVerify, .idle, .done, .idle, .idle⟩) ⟨_, rfl⟩ (by decide)
  cases of_decide_eq_true hp
  exact guarded_iff.mp (h _ hs) rfl rfl (by simp) rfl

end HciBridge.Rollback
