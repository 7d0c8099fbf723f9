import HciBridge.Registry

namespace HciBridge.Manager

open Auth (Bytes)
open Config (Settings lookupPsk)
open KeyProtocol (Hashes)

namespace Thread

def beforeLink : Thread → Bool
  | absent | connecting | connected | authed => true
  | _ => false

def serving : Thread → Bool
  | published | pumping => true
  | _ => false

end Thread

/-- `revokeMissing` is not at a board whose key is missing and whose link is not set yet. -/
def linkSet (s : State) : Label → Bool
  | .revoke =>
    match s.pc with
    | .revoking (id :: _) _ =>
      (s.boards[id]?).all fun b => (lookupPsk s.keys.entries b.bdaddr).isSome || !b.thread.beforeLink
    | _ => true
  | _ => true

structure Cut (b : Board) : Prop where
  past : b.thread.beforeLink = false
  shut : b.thread.serving = true → ∃ st, b.stream = some st ∧ st.shut = true

def AllCut (revoked : List ℕ) (boards : List Board) : Prop :=
  ∀ id ∈ revoked, ∃ b, boards[id]? = some b ∧ Cut b

def Swept (s : State) : Prop :=
  ∀ rest m, s.pc = .revoking rest m → ∀ bd id, (bd, id) ∈ s.map → lookupPsk s.keys.entries bd = none →
    id ∈ rest ∨ id ∈ s.revoked

variable {env : Env} {H : Hashes} {s s' : State} {l : Label} {b b' : Board} {a : Act} {f : Board → Board}
  {revoked : List ℕ} {boards : List Board} {i : ℕ}

theorem Cut.act (h : Cut b) (hact : b.act a = some b') : Cut b' := by
  obtain ⟨hpast, hshut⟩ := h
  cases act_moves hact <;> constructor <;> simp_all [Thread.beforeLink, Thread.serving, Board.destroy]

theorem Cut.kill (h : Cut b) : Cut b.kill := by
  unfold Board.kill
  split
  case isTrue =>
    refine ⟨h.past, fun hserving => ?_⟩
    obtain ⟨st, hst, -⟩ := h.shut hserving
    exact ⟨{ st with shut := true }, by simp [hst], rfl⟩
  case isFalse => exact h

theorem Wired.cut (h : Wired b) (hpast : b.thread.beforeLink = false) : Cut b.kill := by
  rw [kill_frame]
  refine ⟨hpast, fun hserving => ?_⟩
  have hlinked : b.thread.linked = true ∧ b.thread.onStream = true := by
    revert hserving
    cases b.thread <;> simp [Thread.serving, Thread.linked, Thread.onStream]
  obtain ⟨st, hst, -⟩ := h.opened hlinked.2
  refine ⟨{ st with shut := true }, ?_, rfl⟩
  simp [Board.kill, h.link, hlinked.1, hst]

theorem AllCut.modify (h : AllCut revoked boards) (hf : ∀ b, boards[i]? = some b → Cut b → Cut (f b)) :
    AllCut revoked (boards.modify i f) := by
  intro id hid
  obtain ⟨b, hb, hcut⟩ := h id hid
  by_cases hi : i = id
  · subst hi
    exact ⟨f b, modify_same hb, hf b hb hcut⟩
  · exact ⟨b, by rw [List.getElem?_modify_ne _ _ hi, hb], hcut⟩

theorem AllCut.append (h : AllCut revoked boards) (b : Board) : AllCut revoked (boards ++ [b]) := by
  intro id hid
  obtain ⟨c, hc, hcut⟩ := h id hid
  have hlt := (List.getElem?_eq_some_iff.mp hc).1
  exact ⟨c, by rw [List.getElem?_append_left hlt, hc], hcut⟩

theorem AllCut.step (h : AllCut s.revoked s.boards) (hreg : Registry s.pc s.map s.boards)
    (hc : linkSet s l = true) (hs : Step env H s l s') : AllCut s'.revoked s'.boards := by
  cases hs with
  | revoked id rest m b hpc hb hkey =>
    have hpast : b.thread.beforeLink = false := by
      simpa [linkSet, hpc, hb, hkey] using hc
    have hall := h.modify (i := id) (f := Board.kill) fun c _ hcut => hcut.kill
    intro j hj
    rcases List.mem_cons.mp hj with rfl | hj
    · exact ⟨b.kill, modify_same hb, (hreg.wired hb).cut hpast⟩
    · exact hall j hj
  | unnamed | created => exact h.append _
  | found id old m ctx putFails hpc =>
    refine h.modify fun c _ hcut => ?_
    split
    case isTrue => exact hcut.kill
    case isFalse => exact hcut
  | registered | discarded | gaveUp => exact h.modify fun c _ hcut => ⟨hcut.past, hcut.shut⟩
  | spawned id m hpc =>
    refine h.modify fun c hc hcut => ?_
    have habsent := (hreg.own hc).alone (by rw [hpc]; rfl)
    have hpast := hcut.past
    rw [habsent] at hpast
    cases hpast
  | act id a b b' hb hact | released id b b' hb hact =>
    refine h.modify fun c hc hcut => ?_
    cases hc.symm.trans hb
    exact hcut.act hact
  | _ => exact h

theorem Swept.step (h : Swept s) (hreg : Registry s.pc s.map s.boards) (hs : Step env H s l s') : Swept s' := by
  cases hs with
  | refreshed m result now stamp keys hpc =>
    intro rest m' hpc' bd id hmem _
    cases hpc'
    exact .inl (List.mem_map.mpr ⟨(bd, id), hmem, rfl⟩)
  | spared id rest m hpc hkey =>
    intro rest' m' hpc' bd j hmem hnone
    cases hpc'
    rcases h _ _ hpc bd j hmem hnone with hj | hj
    · rcases List.mem_cons.mp hj with rfl | hj
      · obtain ⟨b, hb, -, -, rfl⟩ := (hreg.entries bd j).mp hmem
        have hsome := hkey b hb
        rw [hnone] at hsome
        cases hsome
      · exact .inl hj
    · exact .inr hj
  | revoked id rest m b hpc hb hkey =>
    intro rest' m' hpc' bd j hmem hnone
    cases hpc'
    rcases h _ _ hpc bd j hmem hnone with hj | hj
    · rcases List.mem_cons.mp hj with rfl | hj
      · exact .inr List.mem_cons_self
      · exact .inl hj
    · exact .inr (List.mem_cons_of_mem _ hj)
  | act id a b b' => exact h
  | released id b b' hb hact hfree =>
    intro rest m hpc
    simp only [remove_pc, update_pc] at hpc
    simp [State.locked, hpc] at hfree
  | ignored => exact h
  | _ =>
    intro rest m hpc
    cases hpc

structure RevokedCut (env : Env) (H : Hashes) (s : State) : Prop where
  swept : ∀ m, s.pc = .revoking [] m → ∀ bd id, (bd, id) ∈ s.map → lookupPsk s.keys.entries bd = none →
    id ∈ s.revoked
  kept : ∀ l s', step env H s l = some s' → s.revoked ⊆ s'.revoked
  cut : ∀ id ∈ s.revoked, ∀ a s', a = .openVhci ∨ a = .pump → step env H s (.board id a) = some s' →
    ∃ b st, s.boards[id]? = some b ∧ b.stream = some st ∧ st.shut = true

theorem revoked_subset (hs : Step env H s l s') : s.revoked ⊆ s'.revoked := by
  cases hs with
  | revoked => exact fun id hid => List.mem_cons_of_mem _ hid
  | _ => exact fun id hid => hid

theorem serving_of_act (hact : b.act a = some b') (ha : a = .openVhci ∨ a = .pump) :
    b.thread.serving = true := by
  cases act_moves hact with
  | openVhci h | pump h => rw [h]; rfl
  | _ => simp at ha

theorem revoked_cut (h : Runs.ReachableWhile (step env H) (IsInit env) linkSet s) : RevokedCut env H s := by
  have hswept : Swept s ∧ AllCut s.revoked s.boards := by
    apply h.invariant (fun s => Swept s ∧ AllCut s.revoked s.boards)
    · rintro _ rfl
      exact ⟨fun _ _ hpc => Pc.noConfusion hpc, nofun⟩
    · intro s l s' hr hinv hc hs
      have hreg := Reachable.registry hr.reachable
      exact ⟨hinv.1.step hreg (step_cases hs), hinv.2.step hreg hc (step_cases hs)⟩
  refine ⟨fun m hpc bd id hmem hnone => ?_, fun l s' hs => revoked_subset (step_cases hs), ?_⟩
  · rcases hswept.1 [] m hpc bd id hmem hnone with hid | hid
    · cases hid
    · exact hid
  · intro id hid a s' ha hs
    obtain ⟨b, hb, hcut⟩ := hswept.2 id hid
    simp only [step, hb] at hs
    obtain ⟨b', hact, -⟩ := Option.bind_eq_some_iff.mp hs
    obtain ⟨st, hst, hshut⟩ := hcut.shut (serving_of_act hact ha)
    exact ⟨b, st, hb, hst, hshut⟩

section Vector

def reloadingEnv : Env := { vectorEnv with opts := { vectorOptions with reloads := true } }

def attachReloading : List Label :=
  [.datagram vectorAnnounce (some vectorSource), .refresh (.ok { Settings.default with psk := [vectorEntry] }) 0 0,
    .revoke, .verify (.ok .default) 0 0, .create .ok, .claim false, .spawn false]

def revokeReloading : List Label :=
  [.datagram vectorAnnounce (some vectorSource), .refresh (.ok .default) 2000000000 2000000000, .revoke, .revoke,
    .verify (.ok .default) 2000000000 2000000000]

def deleteKey (before after : List Act) : List Label :=
  attachReloading ++ before.map (Label.board 0) ++ revokeReloading ++ after.map (Label.board 0)

/-- The kill comes before the link is set and is lost. -/
theorem revoked_board_served :
    ¬ ∀ (env : Env) (H : Hashes) (s : State), Reachable env H s →
      ∀ id ∈ s.revoked, ∀ a s', a = .openVhci ∨ a = .pump → step env H s (.board id a) = some s' →
        ∃ b st, s.boards[id]? = some b ∧ b.stream = some st ∧ st.shut = true := by
  intro h
  obtain ⟨s, hs, hp⟩ := Runs.exists_of_run (step reloadingEnv KeyProtocol.vectorHashes) (IsInit reloadingEnv)
    Runs.always (start reloadingEnv.opts) (deleteKey [.connect] [.authenticate, .publish, .openVhci])
    (fun s => decide (s.revoked = [0] ∧ s.boards.map (fun b => (b.thread, b.stream)) =
      [(.pumping, some ⟨false, false⟩)])) rfl (by decide +kernel)
  obtain ⟨hrevoked, hboards⟩ := of_decide_eq_true hp
  obtain ⟨b, hb, hb'⟩ : ∃ b, s.boards[0]? = some b ∧ (b.thread, b.stream) = (.pumping, some ⟨false, false⟩) := by
    have h0 := congrArg (fun l => l[0]?) hboards
    simpa using h0
  rw [Prod.mk.injEq] at hb'
  have hpump : step reloadingEnv KeyProtocol.vectorHashes s (.board 0 .pump) = some (s.update 0 fun _ => b) := by
    simp [step, hb, Board.act, hb'.1, onAct]
  obtain ⟨c, st, hc, hst, hshut⟩ := h _ _ s hs 0 (by simp [hrevoked]) .pump _ (.inr rfl) hpump
  cases hb.symm.trans hc
  rw [hb'.2, Option.some.injEq] at hst
  subst hst
  cases hshut

theorem revoked_cut_pumping :
    ∃ s, RevokedCut reloadingEnv KeyProtocol.vectorHashes s ∧ s.revoked = [0] ∧
      s.boards.map (fun b => (b.thread, b.stream)) = [(.pumping, some ⟨true, false⟩)] := by
  obtain ⟨s, hs, hp⟩ := Runs.exists_of_run (step reloadingEnv KeyProtocol.vectorHashes) (IsInit reloadingEnv)
    linkSet (start reloadingEnv.opts) (deleteKey [.connect, .authenticate, .publish, .openVhci, .pump] [.pump])
    (fun s => decide (s.revoked = [0] ∧ s.boards.map (fun b => (b.thread, b.stream)) =
      [(.pumping, some ⟨true, false⟩)])) rfl (by decide +kernel)
  exact ⟨s, revoked_cut hs, of_decide_eq_true hp⟩

end Vector

end HciBridge.Manager
