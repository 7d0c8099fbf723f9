import Mathlib.Tactic
import HciBridge.BridgeSteps

/-!
The parking protocol: `acceptClient` waits for `txTask` to stand still before
it hands the client over.
-/

namespace HciBridge.Bridge

/-- `txTask` holds no chunk, is in no call, and reads `tx_pause` before it does anything else. -/
def Parked (s : State) : Prop := s.tx = .loadPause ∨ s.tx = .storeIdle

def RxPc.awaiting : RxPc → Bool
  | awaitIdle _ _ => true
  | _ => false

def RxPc.pastWait : RxPc → Bool
  | closeOld _ _ | clearFailed _ | drain _ | publish _ | clearPause => true
  | _ => false

/-- When `rxTask` sets `tx_pause`, it is not so that `txTask` has set `tx_idle` for an earlier round
and has since read `tx_pause` as false. -/
def idleIsFresh (s : State) : Label → Bool
  | .rx =>
    match s.rx with
    | .setPause _ _ => !(s.txIdle && s.tx = .clearIdle)
    | _ => true
  | _ => true

structure ParkInv (s : State) : Prop where
  idle : s.txIdle = true → Parked s ∨ s.tx = .clearIdle
  pause : s.txPause = (s.rx.awaiting || s.rx.pastWait)
  waiting : s.rx.awaiting = true → s.txIdle = true → Parked s
  past : s.rx.pastWait = true → Parked s

theorem parkInv_init : ParkInv init := by
  constructor <;> simp [init, RxPc.awaiting, RxPc.pastWait, Parked]

theorem ParkInv.keep {s s' : State} (hi : ParkInv s) (htx : s'.tx = s.tx) (hid : s'.txIdle = s.txIdle)
    (hpause : s'.txPause = s.txPause) (hwait : s'.rx.awaiting = s.rx.awaiting)
    (hpast : s'.rx.pastWait = s.rx.pastWait) : ParkInv s' := by
  obtain ⟨h1, h2, h3, h4⟩ := hi
  constructor
  case idle =>
    simpa only [Parked, htx, hid] using h1
  case pause =>
    rw [hpause, hwait, hpast, h2]
  case waiting =>
    simpa only [Parked, htx, hid, hwait] using h3
  case past =>
    simpa only [Parked, htx, hpast] using h4

theorem ParkInv.tx {s s' : State} (hi : ParkInv s) (hrx : s'.rx = s.rx) (hpause : s'.txPause = s.txPause)
    (hidle : s'.txIdle = true → Parked s' ∨ s'.tx = .clearIdle)
    (hpark : s.txPause = true → Parked s → Parked s')
    (hnew : s.txPause = true → s'.txIdle = true → s.txIdle = true ∨ Parked s') : ParkInv s' := by
  obtain ⟨h1, h2, h3, h4⟩ := hi
  refine ⟨hidle, by rw [hpause, hrx, h2], ?_, ?_⟩
  · intro hw hid
    rw [hrx] at hw
    have hp : s.txPause = true := by simp [h2, hw]
    exact (hnew hp hid).elim (fun h => hpark hp (h3 hw h)) id
  · intro hw
    rw [hrx] at hw
    exact hpark (by simp [h2, hw]) (h4 hw)

theorem parkInv_step {s s' : State} {l : Label} (hi : ParkInv s) (hc : idleIsFresh s l = true)
    (hs : Step s l s') : ParkInv s' := by
  cases hs with
  | setPause newFd old h =>
    -- the only step where the flag could be a leftover: the condition rules it out
    have hfresh : s.txIdle = true → s.tx ≠ .clearIdle := by
      simpa [idleIsFresh, h, imp_iff_not_or] using hc
    refine ⟨hi.idle, by simp [RxPc.awaiting], fun _ hid => ?_, by simp [RxPc.pastWait]⟩
    exact (hi.idle hid).resolve_right (hfresh hid)
  | clearIdle newFd old h =>
    have hpause : s.txPause = false := by rw [hi.pause, h]; rfl
    exact ⟨by simp, hpause, by simp [RxPc.awaiting], by simp [RxPc.pastWait]⟩
  | idleNone newFd h hid | idleOld newFd old h hid =>
    have hpark : Parked s := hi.waiting (by rw [h]; rfl) hid
    have hpause : s.txPause = true := by rw [hi.pause, h]; rfl
    exact ⟨hi.idle, hpause, by simp [RxPc.awaiting], fun _ => hpark⟩
  | clearPause h => exact ⟨hi.idle, rfl, by simp [RxPc.awaiting], by simp [RxPc.pastWait]⟩
  | poll listening host h hcl =>
    cases listening <;> exact hi.keep rfl rfl rfl (by rw [h]; rfl) (by rw [h]; rfl)
  | dropNone why h | dropClose why old h =>
    cases why <;> exact hi.keep rfl rfl rfl (by rw [h]; rfl) (by rw [h]; rfl)
  | stillBusy => exact hi
  | drain | cbCall | cbNoHost | cbHost | cbOverflow | cbFits | cbWrite =>
    exact hi.keep rfl rfl rfl rfl rfl
  | txPaused h hp =>
    exact hi.tx rfl rfl (fun _ => .inl (.inr rfl)) (fun _ _ => .inr rfl) (fun _ => .inl)
  | txStoreIdle h =>
    exact hi.tx rfl rfl (fun _ => .inl (.inl rfl)) (fun _ _ => .inl rfl) (fun _ _ => .inr (.inl rfl))
  | txRunning h hp =>
    exact hi.tx rfl rfl (fun _ => .inr rfl) (by simp [hp]) (fun _ => .inl)
  | txClearIdle h =>
    exact hi.tx rfl rfl (by simp) (fun _ hp => absurd hp (by simp [Parked, h])) (by simp)
  | txRecvNone | txStale | txSent | txStoreFailed =>
    exact hi.tx rfl rfl (fun _ => .inl (.inl rfl)) (fun _ _ => .inl rfl) (fun _ => .inl)
  | txRecv _ h | txLoaded _ _ h | txSendClosed _ _ _ h | txSendFailed _ _ _ _ h =>
    have hbusy : ¬Parked s := by simp [Parked, h]
    have hidle : s.txIdle ≠ true := fun hid => (hi.idle hid).elim hbusy (by simp [h])
    exact hi.tx rfl rfl (fun hid => absurd hid hidle) (fun _ hp => absurd hp hbusy) (fun _ => .inl)
  | _ =>
    refine hi.keep rfl rfl rfl ?_ ?_ <;> rw [‹s.rx = _›] <;> rfl

theorem parked_past_wait {s : State} (h : Runs.ReachableWhile step IsInit idleIsFresh s)
    (hp : s.rx.pastWait = true) : Parked s := by
  have hinv : ParkInv s := h.invariant ParkInv (by rintro _ rfl; exact parkInv_init)
    (fun s l s' _ hi hc hs => parkInv_step hi hc (step_cases hs))
  exact hinv.past hp

def firstHost : List Label :=
  [.rx, .rxPoll (some (true, false)), .rxAccept (some 5), .rxHandshake true, .rx, .rx, .rx,
    .tx, .tx, .rx, .rx, .rxDrain 0]

theorem parked_at_first_host :
    ∃ s, Runs.ReachableWhile step IsInit idleIsFresh s ∧ s.rx = .publish 5 ∧ Parked s := by
  obtain ⟨s, hs, hp⟩ := Runs.exists_of_run step IsInit idleIsFresh init firstHost
    (fun s => s.rx = .publish 5) rfl (by decide)
  have hrx : s.rx = .publish 5 := by simpa using hp
  exact ⟨s, hs, hrx, parked_past_wait hs (by simp [hrx, RxPc.pastWait])⟩

/-- `txTask` goes round once more in the first pause and stores `tx_idle` only after `rxTask` has
cleared it for the second; then it reads `tx_pause` before `rxTask` sets it. -/
def leftoverIdle : List Label :=
  [.rx, .rxPoll (some (true, false)), .rxAccept (some 5), .rxHandshake true, .rx, .rx, .rx,
    .tx, .tx, .tx, .rx, .rx, .rxDrain 0, .rx, .rx, .rx, .rx,
    .rx, .rxPoll (some (true, false)), .rxAccept (some 6), .rxHandshake true, .rx, .rx, .rx,
    .tx, .tx, .rx, .rx, .tx]

theorem not_parked_past_wait : ¬∀ s, Reachable s → s.rx.pastWait = true → Parked s := by
  intro h
  obtain ⟨s, hs, hp⟩ := Runs.exists_of_run step IsInit Runs.always init leftoverIdle
    (fun s => s.rx = .closeOld 6 5 && s.tx = .recv) rfl (by decide)
  simp only [Bool.and_eq_true, decide_eq_true_eq] at hp
  rcases h s hs (by simp [hp.1, RxPc.pastWait]) with ht | ht <;> simp [hp.2] at ht

end HciBridge.Bridge
