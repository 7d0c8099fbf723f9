import HciBridge.Descent
import HciBridge.H4Bounds
import HciBridge.SessionStream

namespace HciBridge.Session

open H4.Reassembler (feed_spec consumed_pos)

def End.left : End → ℕ
  | testError _ => 4
  | setError _ => 3
  | storeStop => 2
  | shutdown => 1
  | ended => 0

def ToLocalPc.bound : ToLocalPc → ℕ
  | unstarted => 4
  | loadStop => 3
  | fill => 2 * readBufLen + 6
  | feed chunk => 2 * chunk.length + 5
  | write _ rest => 2 * rest.length + 6
  | ending e => e.left

def ToTcpPc.bound : ToTcpPc → ℕ
  | unstarted => 4
  | loadStop => 3
  | poll => 7
  | read => 6
  | write _ => 5
  | ending e => e.left

def RunPc.bound : RunPc → ℕ
  | spawnToLocal => 5
  | spawnToTcp => 4
  | storeStop _ => 3
  | shutdown _ | awaitToLocal => 2
  | awaitOnly _ | awaitToTcp => 1
  | finished _ => 0

def State.bound (s : State) : ℕ := s.toLocal.bound + s.toTcp.bound + s.run.bound

def Woken (s : State) : Prop :=
  s.stop = true →
    s.shut = true ∨ s.toLocal = .ending .shutdown ∨ s.toTcp = .ending .shutdown ∨ ∃ e, s.run = .shutdown e

section Stop

variable {s s' t : State} {l : Label} {e e' : End}

theorem EndStep.left_lt (h : EndStep s e t e') : e'.left < e.left := by
  cases h with
  | _ => simp [End.left]

theorem EndStep.stop_or (h : EndStep s e t e') :
    t.stop = s.stop ∧ (t.shut = s.shut ∧ e ≠ .shutdown ∨ t.shut = true) ∨ e' = .shutdown := by
  cases h with
  | report | ignore | setError => exact .inl ⟨rfl, .inl ⟨rfl, by simp⟩⟩
  | storeStop => exact .inr rfl
  | shutdown => exact .inl ⟨rfl, .inr rfl⟩

theorem woken_step (h : Woken s) (hI : SessionInv s) (hstep : Step s l s') : Woken s' := by
  have hphase := hI.phase
  cases hstep with
  | toLocalEnd hpc hend =>
    obtain ⟨hrun, -, htcp, -⟩ := hend.frame
    rcases hend.stop_or with ⟨hstop, hshut⟩ | rfl
    · intro hs
      rcases hshut with ⟨hshut, hne⟩ | hshut
      · rcases h (hstop ▸ hs) with h | h | h | h
        · exact .inl (hshut.trans h)
        · rw [hpc] at h
          cases h
          exact absurd rfl hne
        · exact .inr (.inr (.inl (htcp.trans h)))
        · exact .inr (.inr (.inr (hrun ▸ h)))
      · exact .inl hshut
    · exact fun _ => .inr (.inl rfl)
  | toTcpEnd hpc hend =>
    obtain ⟨hrun, hl, -⟩ := hend.frame
    rcases hend.stop_or with ⟨hstop, hshut⟩ | rfl
    · intro hs
      rcases hshut with ⟨hshut, hne⟩ | hshut
      · rcases h (hstop ▸ hs) with h | h | h | h
        · exact .inl (hshut.trans h)
        · exact .inr (.inl (hl.trans h))
        · rw [hpc] at h
          cases h
          exact absurd rfl hne
        · exact .inr (.inr (.inr (hrun ▸ h)))
      · exact .inl hshut
    · exact fun _ => .inr (.inr (.inl rfl))
  | runStop => exact fun _ => .inr (.inr (.inr ⟨_, rfl⟩))
  | runShutdown => exact fun _ => .inl rfl
  | spawned hpc =>
    rw [hpc] at hphase
    intro hs
    simpa [hpc, hphase.1, hphase.2] using h hs
  | bothSpawned hpc =>
    rw [hpc] at hphase
    intro hs
    simpa [hpc, hphase.1] using h hs
  | _ =>
    intro hs
    have hwoken := h hs
    simp_all [State.failToLocal, State.failToTcp]

theorem Reachable.woken (h : Reachable s) : Woken s := by
  apply Runs.ReachableWhile.invariant Woken _ _ h
  · rintro _ ⟨storage, -, rfl⟩ ⟨⟩
  · exact fun s l s' hr hI _ hs => woken_step hI (Reachable.inv hr) (step_cases hs)

theorem stop_step (h : s.stop = true) (hstep : Step s l s') : s'.stop = true := by
  cases hstep with
  | toLocalEnd _ hend | toTcpEnd _ hend => exact hend.frame.2.2.2.2.2.2.1 h
  | runStop => rfl
  | _ => exact h

theorem bound_step (h : StreamInv s) (hstop : s.stop = true) (hI : SessionInv s) (hstep : Step s l s') :
    s'.bound < s.bound := by
  have hphase := hI.phase
  unfold State.bound
  cases hstep with
  | readOn _ hs | pollOn _ hs => simp [hstop] at hs
  | toLocalEnd hpc hend =>
    obtain ⟨hrun, -, htcp, -⟩ := hend.frame
    have hlt := hend.left_lt
    simp only [hpc, hrun, htcp, ToLocalPc.bound]
    omega
  | toTcpEnd hpc hend =>
    obtain ⟨hrun, hl, -⟩ := hend.frame
    have hlt := hend.left_lt
    simp only [hpc, hrun, hl, ToTcpPc.bound]
    omega
  | filled hpc _ hlen =>
    simp only [hpc, ToLocalPc.bound]
    omega
  | feedOn hpc hne hfeed | feedPacket hpc hne hfeed =>
    have hpos := consumed_pos h.wf hne hfeed
    simp only at hpos
    simp only [hpc, ToLocalPc.bound, List.length_drop]
    omega
  | spawned hpc =>
    rw [hpc] at hphase
    simp only [hpc, hphase.1, ToLocalPc.bound, RunPc.bound]
    omega
  | bothSpawned hpc =>
    rw [hpc] at hphase
    simp only [hpc, hphase.1, ToTcpPc.bound, RunPc.bound]
    omega
  | _ => simp_all [State.failToLocal, State.failToTcp, ToLocalPc.bound, ToTcpPc.bound, RunPc.bound, End.left]

theorem Reachable.bound_le (h : Reachable s) : s.bound ≤ 2 * readBufLen + 15 := by
  have hshort := h.stream.short
  have hphase := h.inv.phase
  have hlocal : s.toLocal.bound ≤ 2 * readBufLen + 6 := by
    cases hpc : s.toLocal with
    | feed | write =>
      simp only [hpc, ToLocalPc.left] at hshort
      simp only [ToLocalPc.bound]
      omega
    | ending e => cases e <;> simp [ToLocalPc.bound, End.left]
    | _ => simp [ToLocalPc.bound]
  have htcp : s.toTcp.bound ≤ 7 := by
    cases hpc : s.toTcp with
    | ending e => cases e <;> simp [ToTcpPc.bound, End.left]
    | _ => simp [ToTcpPc.bound]
  unfold State.bound
  cases hrun : s.run with
  | spawnToLocal =>
    rw [hrun] at hphase
    rw [hphase.1, hphase.2]
    simp only [ToLocalPc.bound, ToTcpPc.bound, RunPc.bound]
    omega
  | spawnToTcp | storeStop =>
    rw [hrun] at hphase
    rw [hphase.1]
    simp only [ToTcpPc.bound, RunPc.bound]
    omega
  | _ =>
    simp only [RunPc.bound]
    omega

/-- A label whose call returns by itself: reading from the board and writing to it may wait, until the socket is
shut down. -/
def Label.prompt (s : State) : Label → Prop
  | fill _ | writeAll _ => s.shut = true
  | _ => True

theorem toLocal_prompt (h : StreamInv s) (hpc : s.toLocal ≠ .unstarted) (hne : s.toLocal ≠ .ending .ended)
    (hfill : s.toLocal = .fill → s.shut = true) : ∃ l s', l.prompt s ∧ step s l = some s' := by
  cases hl : s.toLocal with
  | unstarted => exact absurd hl hpc
  | loadStop => exact ⟨.toLocal, _, trivial, by simp only [step, pumpTcpToLocal, hl]; rfl⟩
  | fill => exact ⟨.fill (.error .EndOfStream), _, hfill hl, by simp only [step, pumpTcpToLocal, hl]; rfl⟩
  | feed chunk =>
    refine ⟨.toLocal, ?_⟩
    simp only [step, pumpTcpToLocal, hl]
    split
    · exact ⟨_, trivial, rfl⟩
    · obtain ⟨re, r, hfeed, -⟩ := feed_spec h.wf chunk
      unfold feedChunk
      rw [hfeed]
      rcases r with _ | ⟨_, _ | _⟩ <;> exact ⟨_, trivial, rfl⟩
  | write => exact ⟨.writePacket none, _, trivial, by simp only [step, pumpTcpToLocal, hl]; rfl⟩
  | ending e =>
    refine ⟨.toLocal, ?_⟩
    simp only [step, pumpTcpToLocal, hl]
    cases e with
    | ended => exact absurd hl hne
    | _ => exact ⟨_, trivial, rfl⟩

theorem toTcp_prompt (hpc : s.toTcp ≠ .unstarted) (hne : s.toTcp ≠ .ending .ended)
    (hwrite : ∀ pkt, s.toTcp = .write pkt → s.shut = true) : ∃ l s', l.prompt s ∧ step s l = some s' := by
  cases ht : s.toTcp with
  | unstarted => exact absurd ht hpc
  | loadStop => exact ⟨.toTcp, _, trivial, by simp only [step, pumpLocalToTcp, ht]; rfl⟩
  | poll => exact ⟨.poll (.ok .timeout), _, trivial, by simp only [step, pumpLocalToTcp, ht]; rfl⟩
  | read => exact ⟨.readPacket (.ok []), _, trivial, by simp only [step, pumpLocalToTcp, ht]; rfl⟩
  | write pkt => exact ⟨.writeAll none, _, hwrite pkt ht, by simp only [step, pumpLocalToTcp, ht]; rfl⟩
  | ending e =>
    refine ⟨.toTcp, ?_⟩
    simp only [step, pumpLocalToTcp, ht]
    cases e with
    | ended => exact absurd ht hne
    | _ => exact ⟨_, trivial, rfl⟩

theorem not_stuck (h : Reachable s) (hstop : s.stop = true) (hrun : ∀ r, s.run ≠ .finished r) :
    ∃ l s', l.prompt s ∧ step s l = some s' := by
  have hphase := h.inv.phase
  cases hpc : s.run with
  | spawnToLocal | spawnToTcp => exact ⟨.spawn none, _, trivial, by simp only [step, runTask, hpc]; rfl⟩
  | storeStop | shutdown => exact ⟨.run, _, trivial, by simp only [step, runTask, hpc]; rfl⟩
  | awaitOnly e =>
    by_cases hl : s.toLocal = .ending .ended
    · exact ⟨.run, _, trivial, by simp only [step, runTask, hpc, if_pos hl]; rfl⟩
    · rw [hpc] at hphase
      exact toLocal_prompt h.stream hphase.2.1 hl fun _ => hphase.2.2.2
  | awaitToLocal =>
    by_cases hl : s.toLocal = .ending .ended
    · exact ⟨.run, _, trivial, by simp only [step, runTask, hpc, if_pos hl]; rfl⟩
    · rw [hpc] at hphase
      by_cases hfill : s.toLocal = .fill ∧ s.shut = false
      · -- the other pump has set the flag and is about to wake this one
        rcases h.woken hstop with hw | hw | hw | ⟨e, hw⟩
        · simp [hw] at hfill
        · simp [hw] at hfill
        · exact toTcp_prompt (by simp [hw]) (by simp [hw]) (by simp [hw])
        · simp [hpc] at hw
      · apply toLocal_prompt h.stream hphase.2 hl
        intro hf
        simpa [hf] using hfill
  | awaitToTcp =>
    by_cases ht : s.toTcp = .ending .ended
    · exact ⟨.run, _, trivial, by simp only [step, runTask, hpc, if_pos ht]; rfl⟩
    · rw [hpc] at hphase
      have hends := h.inv.ends
      rw [hphase.2] at hends
      exact toTcp_prompt hphase.1 ht fun _ _ => hends.left.closed rfl
  | finished r => exact absurd hpc (hrun r)

theorem session_ends (h : Reachable s)
    (hend : s.stop = true ∨ s.toLocal = .ending .ended ∨ s.toTcp = .ending .ended) :
    (∀ as s', Runs.run step Runs.always s as = some s' → as.length ≤ 2 * readBufLen + 15) ∧
    ((∀ r, s.run ≠ .finished r) → ∃ l s', l.prompt s ∧ step s l = some s') := by
  have hstop : s.stop = true := by
    have hends := h.inv.ends
    rcases hend with hs | hl | ht
    · exact hs
    · exact hends.left.stored .ended (by rw [hl]; rfl) rfl
    · exact hends.right.stored .ended (by rw [ht]; rfl) rfl
  refine ⟨fun as s' hr => ?_, not_stuck h hstop⟩
  have hdesc : Runs.Descends step Runs.always (fun _ => true) (fun s => Reachable s ∧ s.stop = true)
      (fun _ => False) State.bound := by
    intro u l u' hu _ hs
    have hstep := step_cases hs
    exact .inr ⟨⟨hu.1.next rfl hs, stop_step hu.2 hstep⟩, bound_step hu.1.stream hu.2 hu.1.inv hstep⟩
  have hcount := hdesc.countP_le ⟨h, hstop⟩ hr
  rw [List.countP_true] at hcount
  exact hcount.trans h.bound_le

end Stop

theorem session_ends_of_broken : ∃ s : State, s.toTcp = .ending .ended ∧ s.toLocal = .fill ∧
    ∀ as s', Runs.run step Runs.always s as = some s' → as.length ≤ 2 * readBufLen + 15 := by
  obtain ⟨s, h, hpc⟩ := Runs.exists_of_run step IsInit Runs.always (init (List.replicate H4.maxPacketLen 0))
    [.spawn none, .spawn none, .toLocal, .toTcp, .poll (.ok (.ready false true)), .toTcp, .toTcp, .toTcp, .toTcp]
    (fun s => decide (s.toTcp = .ending .ended ∧ s.toLocal = .fill)) ⟨_, List.length_replicate, rfl⟩ rfl
  have hpc := of_decide_eq_true hpc
  exact ⟨s, hpc.1, hpc.2, (session_ends h (.inr (.inr hpc.1))).1⟩

end HciBridge.Session
