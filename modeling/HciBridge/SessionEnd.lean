import HciBridge.Descent
import HciBridge.Session

namespace HciBridge.Session

def ToLocalPc.ending? : ToLocalPc → Option End
  | ending e => some e
  | _ => none

def ToTcpPc.ending? : ToTcpPc → Option End
  | ending e => some e
  | _ => none

def End.raised : End → Option Err
  | testError e | setError e => some e
  | _ => none

def End.stored : End → Bool
  | shutdown | ended => true
  | _ => false

structure Slot (stop shut : Bool) (failures : List Err) (p : Option End) : Prop where
  stored : ∀ e, p = some e → e.stored = true → stop = true
  closed : p = some .ended → shut = true
  raised : ∀ e err, p = some e → e.raised = some err → err ∈ failures
  reported : ∀ err, p = some (.setError err) → err.clean = false

structure EndInv (stop shut : Bool) (first : Option Err) (failures : List Err) (p q : Option End) : Prop where
  left : Slot stop shut failures p
  right : Slot stop shut failures q
  report : ∀ err, first = some err → err ∈ failures ∧ err.clean = false
  kept : ∀ err ∈ failures, err.clean = false →
    first ≠ none ∨ p.bind End.raised = some err ∨ q.bind End.raised = some err

section Ends

variable {stop shut stop' shut' : Bool} {first : Option Err} {failures failures' : List Err} {p q : Option End}

theorem Slot.mono (h : Slot stop shut failures p) (hstop : stop = true → stop' = true)
    (hshut : shut = true → shut' = true) (hfailures : failures ⊆ failures') : Slot stop' shut' failures' p :=
  ⟨fun e hp he => hstop (h.stored e hp he), fun hp => hshut (h.closed hp),
    fun e err hp he => hfailures (h.raised e err hp he), h.reported⟩

theorem slot_none : Slot stop shut failures none := ⟨nofun, nofun, nofun, nofun⟩

theorem EndInv.symm (h : EndInv stop shut first failures p q) : EndInv stop shut first failures q p :=
  ⟨h.right, h.left, h.report, fun err hmem hc => (h.kept err hmem hc).imp_right Or.symm⟩

theorem EndInv.mono (h : EndInv stop shut first failures p q) (hstop : stop = true → stop' = true)
    (hshut : shut = true → shut' = true) : EndInv stop' shut' first failures p q :=
  ⟨h.left.mono hstop hshut (List.Subset.refl _), h.right.mono hstop hshut (List.Subset.refl _), h.report, h.kept⟩

theorem EndInv.start (h : EndInv stop shut first failures none q) :
    EndInv stop shut first failures (some .storeStop) q := by
  refine ⟨⟨?_, nofun, ?_, nofun⟩, h.right, h.report, h.kept⟩
  · rintro _ ⟨⟩ ⟨⟩
  · rintro _ _ ⟨⟩ ⟨⟩

theorem EndInv.fail (h : EndInv stop shut first failures none q) (err : Err) :
    EndInv stop shut first (failures ++ [err]) (some (.testError err)) q := by
  refine ⟨⟨?_, nofun, ?_, nofun⟩, h.right.mono id id (List.subset_append_left _ _), ?_, ?_⟩
  · rintro _ ⟨⟩ ⟨⟩
  · rintro _ _ ⟨⟩ ⟨⟩
    exact List.mem_append_right _ (List.mem_singleton_self err)
  · exact fun err' hfirst => ⟨List.mem_append_left _ (h.report err' hfirst).1, (h.report err' hfirst).2⟩
  · intro err' hmem hc
    rcases List.mem_append.mp hmem with hmem | hmem
    · rcases h.kept err' hmem hc with hfirst | hp | hq
      · exact .inl hfirst
      · cases hp
      · exact .inr (.inr hq)
    · cases List.mem_singleton.mp hmem
      exact .inr (.inl rfl)

theorem EndInv.step {s t : State} {e e' : End} (h : EndInv s.stop s.shut s.firstError s.failures (some e) q)
    (hend : EndStep s e t e') : EndInv t.stop t.shut t.firstError t.failures (some e') q := by
  cases hend with
  | @report err hfirst hc =>
    refine ⟨⟨?_, nofun, ?_, ?_⟩, h.right, h.report, h.kept⟩
    · rintro _ ⟨⟩ ⟨⟩
    · rintro _ _ ⟨⟩ ⟨⟩
      exact h.left.raised _ err rfl rfl
    · rintro _ ⟨⟩
      exact hc
  | @ignore err hor =>
    refine ⟨⟨?_, nofun, ?_, nofun⟩, h.right, h.report, ?_⟩
    · rintro _ ⟨⟩ ⟨⟩
    · rintro _ _ ⟨⟩ ⟨⟩
    · intro err' hmem hc
      rcases h.kept err' hmem hc with hfirst | hp | hq
      · exact .inl hfirst
      · -- the error that was tested: another one is there already, or it is a clean one
        cases hp
        exact .inl (hor.resolve_right (by simp [hc]))
      · exact .inr (.inr hq)
  | @setError err =>
    refine ⟨⟨?_, nofun, ?_, nofun⟩, h.right, ?_, fun _ _ _ => .inl (by simp)⟩
    · rintro _ ⟨⟩ ⟨⟩
    · rintro _ _ ⟨⟩ ⟨⟩
    · rintro _ ⟨⟩
      exact ⟨h.left.raised _ err rfl rfl, h.left.reported err rfl⟩
  | storeStop =>
    refine ⟨⟨fun _ _ _ => rfl, nofun, ?_, nofun⟩, h.right.mono (fun _ => rfl) id (List.Subset.refl _), h.report, ?_⟩
    · rintro _ _ ⟨⟩ ⟨⟩
    · exact h.kept
  | shutdown =>
    have hstop : s.stop = true := h.left.stored .shutdown rfl rfl
    refine ⟨⟨fun _ _ _ => hstop, fun _ => rfl, ?_, nofun⟩, h.right.mono id (fun _ => rfl) (List.Subset.refl _),
      h.report, ?_⟩
    · rintro _ _ ⟨⟩ ⟨⟩
    · exact h.kept

end Ends

def Phase (s : State) : RunPc → Prop
  | .spawnToLocal => s.toLocal = .unstarted ∧ s.toTcp = .unstarted
  | .spawnToTcp | .storeStop _ => s.toTcp = .unstarted ∧ s.toLocal ≠ .unstarted
  | .shutdown _ => s.toTcp = .unstarted ∧ s.toLocal ≠ .unstarted ∧ s.stop = true
  | .awaitOnly _ => s.toTcp = .unstarted ∧ s.toLocal ≠ .unstarted ∧ s.stop = true ∧ s.shut = true
  | .awaitToLocal => s.toTcp ≠ .unstarted ∧ s.toLocal ≠ .unstarted
  | .awaitToTcp => s.toTcp ≠ .unstarted ∧ s.toLocal = .ending .ended
  | .finished r => s.toLocal = .ending .ended ∧ s.toTcp = .ending .ended ∧ s.notStarted = none ∧ r = s.result ∨
      s.toTcp = .unstarted ∧ (s.toLocal = .unstarted ∨ s.toLocal = .ending .ended) ∧
        ∃ e, s.notStarted = some e ∧ r = .error e

def Carries (notStarted : Option Err) : RunPc → Prop
  | .storeStop e | .shutdown e | .awaitOnly e => notStarted = some e
  | .finished _ => True
  | _ => notStarted = none

structure SessionInv (s : State) : Prop where
  ends : EndInv s.stop s.shut s.firstError s.failures s.toLocal.ending? s.toTcp.ending?
  counted : s.stats = ⟨s.written.length, s.sent.length⟩
  phase : Phase s s.run
  carries : Carries s.notStarted s.run

section Steps

variable {s s' t : State} {l : Label} {e e' : End} {p : RunPc}

theorem EndStep.frame (h : EndStep s e t e') :
    t.run = s.run ∧ t.toLocal = s.toLocal ∧ t.toTcp = s.toTcp ∧ t.stats = s.stats ∧ t.written = s.written ∧
      t.sent = s.sent ∧ (s.stop = true → t.stop = true) ∧ (s.shut = true → t.shut = true) := by
  cases h with
  | report | ignore | setError => exact ⟨rfl, rfl, rfl, rfl, rfl, rfl, id, id⟩
  | storeStop => exact ⟨rfl, rfl, rfl, rfl, rfl, rfl, fun _ => rfl, id⟩
  | shutdown => exact ⟨rfl, rfl, rfl, rfl, rfl, rfl, id, fun _ => rfl⟩

theorem EndStep.notStarted (h : EndStep s e t e') : t.notStarted = s.notStarted := by
  cases h <;> rfl

theorem Phase.moveToLocal (h : Phase s p) (hs : s.toLocal ≠ .unstarted) (hne : s.toLocal ≠ .ending .ended)
    (ht : t.toLocal ≠ .unstarted) (htcp : t.toTcp = s.toTcp) (hstop : s.stop = true → t.stop = true)
    (hshut : s.shut = true → t.shut = true) : Phase t p := by
  cases p with
  | spawnToLocal => exact absurd h.1 hs
  | spawnToTcp | storeStop => exact ⟨htcp.trans h.1, ht⟩
  | shutdown => exact ⟨htcp.trans h.1, ht, hstop h.2.2⟩
  | awaitOnly => exact ⟨htcp.trans h.1, ht, hstop h.2.2.1, hshut h.2.2.2⟩
  | awaitToLocal => exact ⟨htcp ▸ h.1, ht⟩
  | awaitToTcp => exact absurd h.2 hne
  | finished =>
    rcases h with ⟨hl, -⟩ | ⟨-, hl | hl, -⟩
    · exact absurd hl hne
    · exact absurd hl hs
    · exact absurd hl hne

theorem Phase.moveToTcp (h : Phase s p) (hs : s.toTcp ≠ .unstarted) (hne : s.toTcp ≠ .ending .ended)
    (ht : t.toTcp ≠ .unstarted) (hl : t.toLocal = s.toLocal) : Phase t p := by
  cases p with
  | spawnToLocal => exact absurd h.2 hs
  | spawnToTcp | storeStop | shutdown | awaitOnly => exact absurd h.1 hs
  | awaitToLocal => exact ⟨ht, hl ▸ h.2⟩
  | awaitToTcp => exact ⟨ht, hl.trans h.2⟩
  | finished =>
    rcases h with ⟨-, he, -⟩ | ⟨hu, -⟩
    · exact absurd he hne
    · exact absurd hu hs

theorem phase_step (h : Phase s s.run) (hc : Carries s.notStarted s.run) (hstep : Step s l s') : Phase s' s'.run := by
  cases hstep with
  | toLocalEnd hpc hend =>
    obtain ⟨hrun, -, htcp, -, -, -, hstop, hshut⟩ := hend.frame
    rw [← hrun] at h
    exact h.moveToLocal (by simp [hpc]) (by rw [hpc]; rintro ⟨⟩; cases hend) (by simp) htcp hstop hshut
  | toTcpEnd hpc hend =>
    obtain ⟨hrun, hl, -⟩ := hend.frame
    rw [← hrun] at h
    exact h.moveToTcp (by simp [hpc]) (by rw [hpc]; rintro ⟨⟩; cases hend) (by simp) hl
  | readOn hpc | readStop hpc | closed hpc | fillFailed hpc | filled hpc | fed hpc | feedFailed hpc | feedOn hpc
  | feedPacket hpc | packetFailed hpc | packetWritten hpc =>
    exact h.moveToLocal (by simp [hpc]) (by simp [hpc]) (by simp [State.failToLocal]) rfl id id
  | pollOn hpc | pollStop hpc | pollFailed hpc | pollTimeout hpc | pollBroken hpc | pollReady hpc | readFailed hpc
  | readNothing hpc | readUnknown hpc | readKnown hpc | writeFailed hpc | written hpc =>
    exact h.moveToTcp (by simp [hpc]) (by simp [hpc]) (by simp [State.failToTcp]) rfl
  | spawned hpc =>
    rw [hpc] at h
    exact ⟨h.2, by simp⟩
  | notSpawned hpc =>
    rw [hpc] at h
    exact .inr ⟨h.2, .inl h.1, _, rfl, rfl⟩
  | bothSpawned hpc =>
    rw [hpc] at h
    exact ⟨by simp, h.2⟩
  | oneSpawned hpc =>
    rw [hpc] at h
    exact h
  | runStop hpc =>
    rw [hpc] at h
    exact ⟨h.1, h.2, rfl⟩
  | runShutdown hpc =>
    rw [hpc] at h
    exact ⟨h.1, h.2.1, h.2.2, rfl⟩
  | gaveUp hpc hl =>
    rw [hpc] at h hc
    exact .inr ⟨h.1, .inr hl, _, hc, rfl⟩
  | joined hpc hl =>
    rw [hpc] at h
    exact ⟨h.1, hl⟩
  | returned hpc ht =>
    rw [hpc] at h hc
    exact .inl ⟨h.2, ht, hc, rfl⟩

theorem carries_step (h : Carries s.notStarted s.run) (hstep : Step s l s') : Carries s'.notStarted s'.run := by
  cases hstep with
  | toLocalEnd hpc hend | toTcpEnd hpc hend =>
    rw [← hend.notStarted, ← hend.frame.1] at h
    exact h
  | notSpawned | gaveUp | returned => trivial
  | oneSpawned => rfl
  | spawned hpc | bothSpawned hpc | runStop hpc | runShutdown hpc | joined hpc =>
    rw [hpc] at h
    exact h
  | _ => exact h

theorem ends_step (h : SessionInv s) (hstep : Step s l s') :
    EndInv s'.stop s'.shut s'.firstError s'.failures s'.toLocal.ending? s'.toTcp.ending? := by
  have hends := h.ends
  have hphase := h.phase
  cases hstep with
  | toLocalEnd hpc hend =>
    rw [hpc] at hends
    rw [← hend.frame.2.2.1] at hends
    have hnext := hends.step hend
    exact hnext
  | toTcpEnd hpc hend =>
    rw [hpc] at hends
    rw [← hend.frame.2.1] at hends
    have hnext := hends.symm.step hend
    exact hnext.symm
  | readOn hpc | filled hpc | fed hpc | feedOn hpc | feedPacket hpc | packetWritten hpc | pollOn hpc | pollTimeout hpc
  | pollReady hpc | readUnknown hpc | readKnown hpc | written hpc =>
    rw [hpc] at hends
    exact hends
  | readStop hpc | closed hpc =>
    rw [hpc] at hends
    exact EndInv.start hends
  | fillFailed hpc | feedFailed hpc | packetFailed hpc =>
    rw [hpc] at hends
    exact EndInv.fail hends _
  | pollStop hpc =>
    rw [hpc] at hends
    exact (EndInv.start hends.symm).symm
  | pollFailed hpc | pollBroken hpc | readFailed hpc | readNothing hpc | writeFailed hpc =>
    rw [hpc] at hends
    exact (EndInv.fail hends.symm _).symm
  | spawned hpc =>
    rw [hpc] at hphase
    rw [hphase.1] at hends
    exact hends
  | bothSpawned hpc =>
    rw [hpc] at hphase
    rw [hphase.1] at hends
    exact hends
  | runStop | runShutdown => exact hends.mono (fun _ => by simp [*]) (fun _ => by simp [*])
  | notSpawned | oneSpawned | gaveUp | joined | returned => exact hends

theorem counted_step (h : SessionInv s) (hstep : Step s l s') :
    s'.stats = ⟨s'.written.length, s'.sent.length⟩ := by
  have hcounted := h.counted
  cases hstep with
  | packetWritten | written => simp [hcounted]
  | toLocalEnd _ hend | toTcpEnd _ hend =>
    obtain ⟨-, -, -, hstats, hwritten, hsent, -⟩ := hend.frame
    rw [hstats, hwritten, hsent]
    exact hcounted
  | _ => exact hcounted

theorem Reachable.inv (h : Reachable s) : SessionInv s := by
  apply Runs.ReachableWhile.invariant SessionInv _ _ h
  · rintro _ ⟨storage, -, rfl⟩
    exact ⟨⟨slot_none, slot_none, nofun, nofun⟩, rfl, ⟨rfl, rfl⟩, rfl⟩
  · intro s l s' _ hI _ hs
    have hstep := step_cases hs
    exact ⟨ends_step hI hstep, counted_step hI hstep, phase_step hI.phase hI.carries hstep,
      carries_step hI.carries hstep⟩

theorem EndInv.ended {stop shut : Bool} {first : Option Err} {failures : List Err}
    (h : EndInv stop shut first failures (some .ended) (some .ended)) {err : Err} (hmem : err ∈ failures)
    (hc : err.clean = false) : first ≠ none := by
  rcases h.kept err hmem hc with hfirst | ⟨⟨⟩⟩ | ⟨⟨⟩⟩
  exact hfirst

theorem run_result (h : Reachable s) {r : Except Err Stats} (hrun : s.run = .finished r) :
    ((s.toLocal = .unstarted ∨ s.toLocal = .ending .ended ∧ s.stop = true ∧ s.shut = true) ∧
      (s.toTcp = .unstarted ∨ s.toLocal = .ending .ended ∧ s.toTcp = .ending .ended)) ∧
    (∀ st, r = .ok st → st = ⟨s.written.length, s.sent.length⟩ ∧ s.toTcp = .ending .ended ∧
      ∀ e ∈ s.failures, e.clean = true) ∧
    (∀ e, r = .error e → s.toTcp = .unstarted ∧ s.notStarted = some e ∨
      s.notStarted = none ∧ e ∈ s.failures ∧ e.clean = false) := by
  have hI := h.inv
  have hphase := hI.phase
  have hends := hI.ends
  rw [hrun] at hphase
  rcases hphase with ⟨hl, ht, hnone, rfl⟩ | ⟨ht, hl, e, hsome, rfl⟩
  · rw [hl, ht] at hends
    have hstop : s.stop = true := hends.left.stored .ended rfl rfl
    refine ⟨⟨.inr ⟨hl, hstop, hends.left.closed rfl⟩, .inr ⟨hl, ht⟩⟩, ?_, ?_⟩
    · intro st hr
      unfold State.result at hr
      split at hr
      case h_1 => cases hr
      case h_2 hfirst =>
        cases hr
        refine ⟨hI.counted, ht, fun e hmem => ?_⟩
        by_contra hc
        exact hends.ended hmem (Bool.eq_false_of_not_eq_true hc) hfirst
    · intro e hr
      unfold State.result at hr
      split at hr
      case h_1 hfirst =>
        cases hr
        exact .inr ⟨hnone, hends.report e hfirst⟩
      case h_2 => cases hr
  · refine ⟨⟨?_, .inl ht⟩, nofun, ?_⟩
    · rcases hl with hl | hl
      · exact .inl hl
      · rw [hl] at hends
        exact .inr ⟨hl, hends.left.stored .ended rfl rfl, hends.left.closed rfl⟩
    · rintro _ ⟨⟩
      exact .inl ⟨ht, hsome⟩

end Steps

theorem run_result_of_closed :
    (∃ s : State, s.run = .finished (.ok ⟨0, 1⟩) ∧ (⟨0, 1⟩ : Stats) = ⟨s.written.length, s.sent.length⟩ ∧
      s.toTcp = .ending .ended ∧ ∀ e ∈ s.failures, e.clean = true) ∧
    ∃ s : State, s.run = .finished (.error (.other 11)) ∧ s.notStarted = some (.other 11) := by
  obtain ⟨s, h, hrun⟩ := Runs.exists_of_run step IsInit Runs.always (init (List.replicate H4.maxPacketLen 0))
    [.spawn none, .spawn none, .toTcp, .poll (.ok (.ready true false)), .readPacket (.ok [1, 3, 12, 0]),
      .writeAll none, .toLocal, .fill (.error .ConnectionResetByPeer), .toLocal, .toLocal, .toLocal, .toTcp, .toTcp,
      .toTcp, .run, .run]
    (fun s => decide (s.run = .finished (.ok ⟨0, 1⟩))) ⟨_, List.length_replicate, rfl⟩ rfl
  obtain ⟨s', h', hrun'⟩ := Runs.exists_of_run step IsInit Runs.always (init (List.replicate H4.maxPacketLen 0))
    [.spawn none, .spawn (some (.other 11)), .run, .run, .toLocal, .toLocal, .toLocal, .run]
    (fun s => decide (s.run = .finished (.error (.other 11)) ∧ s.failures = [])) ⟨_, List.length_replicate, rfl⟩ rfl
  have hrun := of_decide_eq_true hrun
  obtain ⟨hrun', hfailures⟩ := of_decide_eq_true hrun'
  refine ⟨⟨s, hrun, (run_result h hrun).2.1 _ rfl⟩, s', hrun', ?_⟩
  rcases (run_result h' hrun').2.2 _ rfl with h | h
  · exact h.2
  · simp [hfailures] at h

end HciBridge.Session
