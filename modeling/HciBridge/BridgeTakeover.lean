import HciBridge.BridgeDescriptors
import HciBridge.BridgeParking
import HciBridge.Descent

/-!
A new host does not wait forever: `txTask` parks after a few steps, and the drain of the stream buffer
ends although the controller may still be writing to it.
-/

namespace HciBridge.Bridge

def Label.ofTx : Label → Bool
  | tx | txRecv _ | txSend _ => true
  | _ => false

def Label.isDrain : Label → Bool
  | rxDrain _ => true
  | _ => false

def State.toPark (s : State) : ℕ :=
  match s.tx with
  | .clearIdle => 7
  | .recv => 6
  | .loadClient _ => 5
  | .send _ _ => 4
  | .storeFailed => 3
  | .loadPause => if s.txIdle then 0 else 2
  | .storeIdle => if s.txIdle then 0 else 1

section Wait

variable {s s' : State} {l : Label}

theorem pause_of_reachable (h : Reachable s) : s.txPause = (s.rx.awaiting || s.rx.pastWait) := by
  apply h.invariant (fun s => s.txPause = (s.rx.awaiting || s.rx.pastWait))
  · rintro _ rfl
    rfl
  · intro s l s' _ hI _ hs
    cases step_cases hs with
    | setPause | clearPause => rfl
    | idleNone newFd h | idleOld newFd old h => simpa [h, RxPc.awaiting, RxPc.pastWait] using hI
    | poll listening host h => cases listening <;> simpa [h, RxPc.awaiting, RxPc.pastWait] using hI
    | dropNone why h | dropClose why old h =>
      cases why <;> simpa [h, RxPc.awaiting, RxPc.pastWait, Reason.after] using hI
    | stillBusy | cbCall | cbNoHost | cbHost | cbOverflow | cbFits | cbWrite | txPaused | txRunning | txStoreIdle
    | txClearIdle | txRecvNone | txRecv | txStale | txLoaded | txSendClosed | txSent | txSendFailed
    | txStoreFailed => exact hI
    | _ => simp_all [RxPc.awaiting, RxPc.pastWait]

theorem wait_step (hwait : s.rx.awaiting = true) (hpause : s.txPause = true) (hs : Step s l s') :
    s'.rx.awaiting = false ∨
      s'.rx.awaiting = true ∧ s'.txPause = true ∧ (s'.toPark + (if l.ofTx then 1 else 0) ≤ s.toPark ∨
        s.toPark = 0 ∧ s'.toPark = 0) ∧ (s.toPark = 0 → l ≠ .rx) := by
  cases hs with
  | txRunning _ hp => simp [hp] at hpause
  | txPaused h | txStoreIdle h | txRecvNone h | txStale n h | txSent fd n c h | txStoreFailed h =>
    refine .inr ⟨hwait, hpause, ?_, nofun⟩
    cases hi : s.txIdle <;> simp [State.toPark, h, hi, Label.ofTx]
  | txClearIdle h | txRecv n h | txLoaded n fd h | txSendClosed fd n k h | txSendFailed fd n k c h =>
    refine .inr ⟨hwait, hpause, .inl ?_, nofun⟩
    simp [State.toPark, h, Label.ofTx]
  | stillBusy newFd old h hi =>
    refine .inr ⟨hwait, hpause, .inl le_rfl, ?_⟩
    unfold State.toPark
    split <;> simp [hi]
  | idleNone | idleOld => exact .inl rfl
  | cbCall | cbNoHost | cbHost | cbOverflow | cbFits | cbWrite => exact .inr ⟨hwait, hpause, .inl le_rfl, nofun⟩
  | _ => simp [*, RxPc.awaiting] at hwait

theorem toPark_le (s : State) : s.toPark ≤ 7 := by
  unfold State.toPark
  split <;> try split
  all_goals omega

theorem parked_until_seen : Runs.Descends step Runs.always (fun l => l = .rx)
    (fun s => Reachable s ∧ s.rx.awaiting = true ∧ s.toPark = 0) (fun s => s.rx.awaiting = false) (fun _ => 0) := by
  rintro s l s' ⟨hr, hwait, hpark⟩ - hs
  have hpause : s.txPause = true := by rw [pause_of_reachable hr, hwait, Bool.true_or]
  rcases wait_step hwait hpause (step_cases hs) with hout | ⟨hwait', -, hle, hrx⟩
  · exact .inl hout
  · refine .inr ⟨⟨hr.next rfl hs, hwait', by omega⟩, ?_⟩
    simp [hrx hpark]

theorem parks : Runs.Descends step Runs.always Label.ofTx
    (fun s => Reachable s ∧ s.rx.awaiting = true ∧ 0 < s.toPark)
    (fun s => s.rx.awaiting = false ∨ s.rx.awaiting = true ∧ s.toPark = 0) (fun s => s.toPark - 1) := by
  rintro s l s' ⟨hr, hwait, hpos⟩ - hs
  have hpause : s.txPause = true := by rw [pause_of_reachable hr, hwait, Bool.true_or]
  rcases wait_step hwait hpause (step_cases hs) with hout | ⟨hwait', -, hle, -⟩
  · exact .inl (.inl hout)
  · by_cases hzero : s'.toPark = 0
    · exact .inl (.inr ⟨hwait', hzero⟩)
    · refine .inr ⟨⟨hr.next rfl hs, hwait', by omega⟩, ?_⟩
      dsimp only
      omega

theorem wait_ends (h : Reachable s) (hwait : s.rx.awaiting = true) {as : List Label}
    (hr : Runs.run step Runs.always s (as ++ [.rx]) = some s') (hcount : 7 ≤ as.countP Label.ofTx) :
    ∃ bs t, bs <+: as ++ [.rx] ∧ Runs.run step Runs.always s bs = some t ∧ t.rx.awaiting = false := by
  obtain ⟨u, hu, hlast⟩ := Runs.run_append hr
  have hpark : ∃ bs t, bs <+: as ∧ Runs.run step Runs.always s bs = some t ∧
      (t.rx.awaiting = false ∨ t.rx.awaiting = true ∧ t.toPark = 0) := by
    by_cases hzero : s.toPark = 0
    · exact ⟨[], s, List.nil_prefix, rfl, .inr ⟨hwait, hzero⟩⟩
    · have hle := toPark_le s
      exact parks.reaches ⟨h, hwait, by omega⟩ hu (by omega)
  obtain ⟨bs, t, ⟨cs, rfl⟩, ht, hout | ⟨hwait', hzero⟩⟩ := hpark
  · exact ⟨bs, t, (List.prefix_append _ _).trans (List.prefix_append _ _), ht, hout⟩
  · rw [List.append_assoc] at hr ⊢
    obtain ⟨t', ht', hrest⟩ := Runs.run_append hr
    obtain rfl : t = t' := Option.some.inj (ht.symm.trans ht')
    have hreach := Runs.reachableWhile_of_run bs h ht
    obtain ⟨ds, v, hds, hv, hout⟩ := parked_until_seen.reaches ⟨hreach, hwait', hzero⟩ hrest (by simp)
    exact ⟨bs ++ ds, v, (List.prefix_append_right_inj bs).mpr hds, Runs.run_trans ht hv, hout⟩

end Wait

def CbPc.room : CbPc → ℕ
  | space pkt _ | write pkt _ => min pkt.length streamBufferLen
  | _ => 0

section Drain

variable {s s' : State} {l : Label}

theorem sb_fits (h : Reachable s) : s.sb.length ≤ streamBufferLen := by
  apply h.invariant (fun s => s.sb.length ≤ streamBufferLen)
  · rintro _ rfl
    exact Nat.zero_le _
  · intro s l s' _ hI _ hs
    cases step_cases hs with
    | drain | txRecv =>
      simp only [List.length_drop]
      omega
    | cbWrite =>
      simp only [List.length_append, List.length_take]
      omega
    | _ => exact hI

/-- The callback may finish the packet it has begun; it starts no other while no host is connected. -/
theorem drain_descends (newFd : Fd) : Runs.Descends step Runs.always Label.isDrain
    (fun s => Reachable s ∧ s.rx = .drain newFd) (fun s => s.rx = .publish newFd)
    (fun s => s.sb.length + s.cb.room) := by
  rintro s l s' ⟨hr, hrx⟩ - hs
  have hnone : s.clientFd = none := (fdInv_of_reachable hr).gone (by rw [hrx]; rfl)
  have hnext : Reachable s' := hr.next rfl hs
  cases step_cases hs with
  | drained fd h =>
    rw [hrx] at h
    cases h
    exact .inl rfl
  | drain fd n h hn hle =>
    refine .inr ⟨⟨hnext, hrx⟩, ?_⟩
    simp only [List.length_drop, Label.isDrain, if_true]
    omega
  | txRecv n h hn hle =>
    refine .inr ⟨⟨hnext, hrx⟩, ?_⟩
    simp only [List.length_drop, Label.isDrain, Bool.false_eq_true, if_false]
    omega
  | cbHost pkt fd h hc => simp [hnone] at hc
  | cbWrite pkt seen h =>
    refine .inr ⟨⟨hnext, hrx⟩, ?_⟩
    simp only [h, CbPc.room, List.length_append, List.length_take, cells, List.length_map, Label.isDrain,
      Bool.false_eq_true, if_false]
    omega
  | cbCall pkt h | cbNoHost pkt h | cbOverflow pkt seen h | cbFits pkt seen h =>
    exact .inr ⟨⟨hnext, hrx⟩, by simp [h, CbPc.room, Label.isDrain]⟩
  | txPaused | txRunning | txStoreIdle | txClearIdle | txRecvNone | txStale | txLoaded | txSendClosed | txSent
  | txSendFailed | txStoreFailed => exact .inr ⟨⟨hnext, hrx⟩, by simp [Label.isDrain]⟩
  | _ => simp_all

theorem drain_ends (h : Reachable s) {newFd : Fd} (hrx : s.rx = .drain newFd) {as : List Label}
    (hr : Runs.run step Runs.always s as = some s') (hcount : 2 * streamBufferLen < as.countP Label.isDrain) :
    ∃ bs t, bs <+: as ∧ Runs.run step Runs.always s bs = some t ∧ t.rx = .publish newFd := by
  have hfits := sb_fits h
  have hroom : s.cb.room ≤ streamBufferLen := by
    unfold CbPc.room
    split <;> simp
  exact (drain_descends newFd).reaches ⟨h, hrx⟩ hr (by omega)

end Drain

theorem takeover_ends {s s' : State} (h : Reachable s) {as : List Label}
    (hr : Runs.run step Runs.always s as = some s') :
    (s.rx.awaiting = true → (∃ before, as = before ++ [.rx] ∧ 7 ≤ before.countP Label.ofTx) →
      ∃ bs t, bs <+: as ∧ Runs.run step Runs.always s bs = some t ∧ t.rx.awaiting = false) ∧
    (∀ newFd, s.rx = .drain newFd → 2 * streamBufferLen < as.countP Label.isDrain →
      ∃ bs t, bs <+: as ∧ Runs.run step Runs.always s bs = some t ∧ t.rx = .publish newFd) := by
  refine ⟨?_, fun newFd hrx hcount => drain_ends h hrx hr hcount⟩
  rintro hwait ⟨before, rfl, hcount⟩
  exact wait_ends h hwait hr hcount

theorem takeover_ends_of_first_host :
    ∃ s, Reachable s ∧ s.rx.awaiting = true ∧ s.tx = .recv ∧
      ∃ bs t, bs <+: [.txRecv 0, .tx, .tx, .tx, .tx, .tx, .tx, .rx] ∧ Runs.run step Runs.always s bs = some t ∧
        t.rx.awaiting = false := by
  obtain ⟨s, h, hp⟩ := Runs.exists_of_run step IsInit Runs.always init
    [.tx, .tx, .rx, .rxPoll (some (true, false)), .rxAccept (some 5), .rxHandshake true, .rx, .rx, .rx]
    (fun s => s.rx.awaiting && s.tx = .recv &&
      (Runs.run step Runs.always s [.txRecv 0, .tx, .tx, .tx, .tx, .tx, .tx, .rx]).isSome) rfl (by decide)
  simp only [Bool.and_eq_true, decide_eq_true_eq] at hp
  obtain ⟨t, ht⟩ := Option.isSome_iff_exists.mp hp.2
  exact ⟨s, h, hp.1.1, hp.1.2,
    (takeover_ends h ht).1 hp.1.1 ⟨[.txRecv 0, .tx, .tx, .tx, .tx, .tx, .tx], rfl, by decide⟩⟩

end HciBridge.Bridge
