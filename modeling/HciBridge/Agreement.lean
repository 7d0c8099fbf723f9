import HciBridge.Handshake

namespace HciBridge.Handshake

open Auth

def Host.Proved (h : Host) (sn cn : Nonce) : Prop := h.serverNonce = some sn ∧ h.clientNonce = some cn

def Host.Completed (h : Host) (sn cn : Nonce) : Prop := h.Proved sn cn ∧ h.result = some true

def Board.Accepted (b : Board) (sn cn : Nonce) : Prop := b.serverNonce = some sn ∧ b.clientNonce = some cn

def Board.Replied (b : Board) (sn cn : Nonce) : Prop := b.Accepted sn cn ∧ b.replied = true

structure AgreeInv (psk : Psk) (s : State) : Prop where
  drawn : ∀ i cn, (s.hosts i).clientNonce = some cn → cn ∈ s.drawn
  own : ∀ i i' cn, (s.hosts i).clientNonce = some cn → (s.hosts i').clientNonce = some cn → i = i'
  read : ∀ i, (s.hosts i).serverNonce = none → (s.hosts i).clientNonce = none
  started : ∀ j, (s.boards j).serverNonce = none → (s.boards j).clientNonce = none
  clientProof : ∀ sn cn, clientMac psk sn cn ∈ s.wire → ∃ i, (s.hosts i).Proved sn cn
  boardProof : ∀ sn cn, boardMac psk cn sn ∈ s.wire → ∃ j, (s.boards j).Replied sn cn
  completed : ∀ i sn cn, (s.hosts i).Completed sn cn → ∃ j, (s.boards j).Replied sn cn
  accepted : ∀ j sn cn, (s.boards j).Accepted sn cn → ∃ i, (s.hosts i).Proved sn cn

section

variable {psk : Psk}

theorem agreeInv_init : AgreeInv psk init := by
  constructor <;> simp [init, Host.Completed, Host.Proved, Board.Accepted]

theorem update_all {α : Type} {f : ℕ → α} {i : ℕ} {a : α} (P : ℕ → α → Prop) (hi : P i a)
    (h : ∀ k, P k (f k)) (k : ℕ) : P k (Function.update f i a k) := by
  by_cases hk : k = i
  · subst hk
    rwa [Function.update_self]
  · rw [Function.update_of_ne hk]
    exact h k

theorem AgreeInv.host {s : State} {i : ℕ} {h : Host} (hi : AgreeInv psk s)
    (hclient : h.clientNonce = (s.hosts i).clientNonce)
    (hserver : ∀ sn, (s.hosts i).serverNonce = some sn → h.serverNonce = some sn)
    (hdone : ∀ sn cn, h.Completed sn cn → ∃ j, (s.boards j).Replied sn cn) :
    AgreeInv psk { s with hosts := Function.update s.hosts i h } := by
  have hsame : ∀ k, (Function.update s.hosts i h k).clientNonce = (s.hosts k).clientNonce :=
    update_all (fun k (g : Host) => g.clientNonce = (s.hosts k).clientNonce) hclient (fun _ => rfl)
  have hkeep : ∀ k sn cn, (s.hosts k).Proved sn cn → (Function.update s.hosts i h k).Proved sn cn :=
    update_all (fun k (g : Host) => ∀ sn cn, (s.hosts k).Proved sn cn → g.Proved sn cn)
      (fun sn _ hp => ⟨hserver sn hp.1, hclient.trans hp.2⟩) (fun _ _ _ => id)
  have hread : h.serverNonce = none → h.clientNonce = none := by
    intro hnone
    rw [hclient]
    apply hi.read
    cases hsn : (s.hosts i).serverNonce with
    | none => rfl
    | some sn => rw [hserver sn hsn] at hnone; cases hnone
  have hreads := update_all (i := i) (fun _ (g : Host) => g.serverNonce = none → g.clientNonce = none)
    hread hi.read
  have hcompletes := update_all (i := i)
    (fun _ (g : Host) => ∀ sn cn, g.Completed sn cn → ∃ j, (s.boards j).Replied sn cn)
    hdone hi.completed
  refine ⟨?_, ?_, hreads, hi.started, ?_, hi.boardProof, hcompletes, ?_⟩
  · intro k cn hk
    exact hi.drawn k cn ((hsame k).symm.trans hk)
  · intro k k' cn hk hk'
    exact hi.own k k' cn ((hsame k).symm.trans hk) ((hsame k').symm.trans hk')
  · intro sn cn hm
    obtain ⟨k, hk⟩ := hi.clientProof sn cn hm
    exact ⟨k, hkeep k sn cn hk⟩
  · intro j sn cn hj
    obtain ⟨k, hk⟩ := hi.accepted j sn cn hj
    exact ⟨k, hkeep k sn cn hk⟩

theorem AgreeInv.draw {s : State} {i : ℕ} {sn cn : Nonce} (hi : AgreeInv psk s)
    (hsn : (s.hosts i).serverNonce = some sn) (hcn : (s.hosts i).clientNonce = none)
    (hr : (s.hosts i).result = none) (hnew : cn ∉ s.drawn) :
    AgreeInv psk { s with
      hosts := Function.update s.hosts i { s.hosts i with clientNonce := some cn }
      drawn := cn :: s.drawn } := by
  have hkeep : ∀ k sn' cn', (s.hosts k).Proved sn' cn' →
      (Function.update s.hosts i { s.hosts i with clientNonce := some cn } k).Proved sn' cn' :=
    update_all (fun k (g : Host) => ∀ sn' cn', (s.hosts k).Proved sn' cn' → g.Proved sn' cn')
      (fun _ _ hp => by rw [Host.Proved, hcn] at hp; cases hp.2) (fun _ _ _ => id)
  have hfresh : ∀ k, (s.hosts k).clientNonce ≠ some cn := fun k hk => hnew (hi.drawn k cn hk)
  have hback := update_all (i := i) (a := { s.hosts i with clientNonce := some cn })
    (fun k (g : Host) => ∀ cn', g.clientNonce = some cn' →
      (k = i ∧ cn' = cn) ∨ (s.hosts k).clientNonce = some cn')
    (fun cn' h => .inl ⟨rfl, (Option.some.inj h).symm⟩) (fun _ _ => .inr)
  have hreads := update_all (i := i) (a := { s.hosts i with clientNonce := some cn })
    (fun _ (g : Host) => g.serverNonce = none → g.clientNonce = none) (by simp [hsn]) hi.read
  have hcompletes := update_all (i := i) (a := { s.hosts i with clientNonce := some cn })
    (fun _ (g : Host) => ∀ sn cn, g.Completed sn cn → ∃ j, (s.boards j).Replied sn cn)
    (fun _ _ hc => by rw [Host.Completed, hr] at hc; cases hc.2) hi.completed
  refine ⟨?_, ?_, hreads, hi.started, ?_, hi.boardProof, hcompletes, ?_⟩
  · intro k cn' hk
    rcases hback k cn' hk with ⟨_, rfl⟩ | hk
    · exact List.mem_cons_self
    · exact List.mem_cons_of_mem _ (hi.drawn k cn' hk)
  · intro k k' cn' hk hk'
    rcases hback k cn' hk with ⟨hki, hcn'⟩ | hold <;> rcases hback k' cn' hk' with ⟨hki', hcn''⟩ | hold'
    · exact hki.trans hki'.symm
    · exact absurd (hcn' ▸ hold') (hfresh k')
    · exact absurd (hcn'' ▸ hold) (hfresh k)
    · exact hi.own k k' cn' hold hold'
  · intro sn' cn' hm
    obtain ⟨k, hk⟩ := hi.clientProof sn' cn' hm
    exact ⟨k, hkeep k sn' cn' hk⟩
  · intro j sn' cn' hj
    obtain ⟨k, hk⟩ := hi.accepted j sn' cn' hj
    exact ⟨k, hkeep k sn' cn' hk⟩

theorem AgreeInv.board {s : State} {j : ℕ} {b : Board} {drawn : List Nonce} (hi : AgreeInv psk s)
    (hreplied : ∀ sn cn, (s.boards j).Replied sn cn → b.Replied sn cn)
    (hstarted : b.serverNonce = none → b.clientNonce = none)
    (haccepted : ∀ sn cn, b.Accepted sn cn → ∃ i, (s.hosts i).Proved sn cn) (hdrawn : s.drawn ⊆ drawn) :
    AgreeInv psk { s with boards := Function.update s.boards j b, drawn := drawn } := by
  have hkeep : ∀ k sn cn, (s.boards k).Replied sn cn → (Function.update s.boards j b k).Replied sn cn :=
    update_all (fun k (c : Board) => ∀ sn cn, (s.boards k).Replied sn cn → c.Replied sn cn)
      hreplied (fun _ _ _ => id)
  have hstarts := update_all (i := j) (fun _ (c : Board) => c.serverNonce = none → c.clientNonce = none)
    hstarted hi.started
  have haccepts := update_all (i := j)
    (fun _ (c : Board) => ∀ sn cn, c.Accepted sn cn → ∃ i, (s.hosts i).Proved sn cn)
    haccepted hi.accepted
  refine ⟨fun i cn h => hdrawn (hi.drawn i cn h), hi.own, hi.read, hstarts, hi.clientProof, ?_, ?_,
    haccepts⟩
  · intro sn cn hm
    obtain ⟨k, hk⟩ := hi.boardProof sn cn hm
    exact ⟨k, hkeep k sn cn hk⟩
  · intro i sn cn hc
    obtain ⟨k, hk⟩ := hi.completed i sn cn hc
    exact ⟨k, hkeep k sn cn hk⟩

theorem AgreeInv.push {s : State} {m : Mac} (hi : AgreeInv psk s)
    (hclient : ∀ sn cn, clientMac psk sn cn = m → ∃ i, (s.hosts i).Proved sn cn)
    (hboard : ∀ sn cn, boardMac psk cn sn = m → ∃ j, (s.boards j).Replied sn cn) :
    AgreeInv psk { s with wire := m :: s.wire } := by
  refine ⟨hi.drawn, hi.own, hi.read, hi.started, ?_, ?_, hi.completed, hi.accepted⟩
  · intro sn cn hm
    exact (List.mem_cons.mp hm).elim (hclient sn cn) (hi.clientProof sn cn)
  · intro sn cn hm
    exact (List.mem_cons.mp hm).elim (hboard sn cn) (hi.boardProof sn cn)

theorem mem_of_knows {s : State} {u : Use} (h : s.knows psk (u.mac psk) = true) : u.mac psk ∈ s.wire := by
  rw [Use.mac_eq] at h ⊢
  simpa [State.knows] using h

theorem agreeInv_step {s s' : State} {l : Label} (hi : AgreeInv psk s) (h : Step psk s l s') :
    AgreeInv psk s' := by
  cases h with
  | hostReadNonce i sn h =>
    refine hi.host rfl (by simp [h]) ?_
    rintro sn' cn ⟨⟨_, hcn⟩, _⟩
    simp only [hi.read i h] at hcn
    cases hcn
  | hostProve i sn cn h hc hr hnew =>
    apply (hi.draw h hc hr hnew).push
    · intro sn' cn' he
      obtain ⟨_, _, hin⟩ := mac_inj (u := .client sn' cn') (v := .client sn cn) he
      obtain ⟨rfl, rfl⟩ := client_input_inj hin
      exact ⟨i, by simp [Host.Proved, h]⟩
    · intro sn' cn' he
      cases (mac_inj (u := .board cn' sn') (v := .client sn cn) he).2.1
  | hostReadProof i sn cn mac h hc hk =>
    refine hi.host rfl (by simp) ?_
    rintro sn' cn' ⟨⟨hsn, hcn⟩, hr⟩
    simp only [h, hc, Option.some.injEq, decide_eq_true_eq] at hsn hcn hr
    subst hsn hcn hr
    exact hi.boardProof sn cn (mem_of_knows (u := .board cn sn) hk)
  | hostFail i =>
    refine hi.host rfl (by simp) ?_
    rintro sn cn ⟨_, hr⟩
    cases hr
  | boardStart j sn h hnew =>
    have hnone := hi.started j h
    refine hi.board ?_ (by simp) ?_ (List.subset_cons_self _ _)
    · rintro sn' cn ⟨⟨hsn, _⟩, _⟩
      rw [h] at hsn
      cases hsn
    · rintro sn' cn ⟨_, hcn⟩
      simp only [hnone] at hcn
      cases hcn
  | boardAccept j sn cn h hc hk =>
    refine hi.board ?_ (by simp [h]) ?_ (List.Subset.refl _)
    · rintro sn' cn' ⟨⟨_, hcn⟩, _⟩
      rw [hc] at hcn
      cases hcn
    · rintro sn' cn' ⟨hsn, hcn⟩
      simp only [h, Option.some.injEq] at hsn hcn
      subst hsn hcn
      exact hi.clientProof sn cn (mem_of_knows (u := .client sn cn) hk)
  | boardRefuse j cn mac | boardFail j =>
    exact hi.board (fun _ _ => id) (hi.started j) (hi.accepted j) (List.Subset.refl _)
  | boardReply j sn cn replyPsk h hc =>
    have hb : AgreeInv psk
        { s with boards := Function.update s.boards j { s.boards j with replied := true } } :=
      hi.board (fun _ _ hr => ⟨hr.1, rfl⟩) (hi.started j) (hi.accepted j) (List.Subset.refl _)
    apply hb.push
    · intro sn' cn' he
      cases (mac_inj (u := .client sn' cn') (v := .board cn sn) he).2.1
    · intro sn' cn' he
      obtain ⟨_, _, hin⟩ := mac_inj (u := .board cn' sn') (v := .board cn sn) he
      obtain ⟨rfl, rfl⟩ := board_input_inj hin
      exact ⟨j, by simp [Board.Replied, Board.Accepted, h, hc]⟩
  | sign u hc hb =>
    apply hi.push
    · exact fun sn cn he => absurd (mac_inj (u := .client sn cn) he).2.1.symm hc
    · exact fun sn cn he => absurd (mac_inj (u := .board cn sn) he).2.1.symm hb

theorem agreement {s : State} (h : Reachable psk s) :
    (∀ i sn cn, (s.hosts i).Completed sn cn →
      (∃ j, (s.boards j).Replied sn cn) ∧ ∀ i', (s.hosts i').Completed sn cn → i' = i) ∧
    ∀ j sn cn, (s.boards j).Accepted sn cn → ∃ i, (s.hosts i).Proved sn cn := by
  have hi : AgreeInv psk s := h.invariant (AgreeInv psk) (by rintro _ rfl; exact agreeInv_init)
    fun _ _ _ _ hi _ hs => agreeInv_step hi (step_cases hs)
  refine ⟨fun i sn cn hc => ⟨hi.completed i sn cn hc, fun i' hc' => ?_⟩, hi.accepted⟩
  exact hi.own i' i cn hc'.1.2 hc.1.2

end

def session (psk : Psk) (sn cn : Nonce) : List Label :=
  [.boardStart 0 sn, .hostReadNonce 0 sn, .hostProve 0 cn, .boardReadProof 0 cn (clientMac psk sn cn),
    .boardReply 0 none, .hostReadProof 0 (boardMac psk cn sn)]

theorem agreement_of_session :
    ∃ s, Reachable (.fill 32 0x42) s ∧ (s.hosts 0).Completed (.fill 32 1) (.fill 32 2) ∧
      (∃ j, (s.boards j).Replied (.fill 32 1) (.fill 32 2)) ∧
      ∀ i', (s.hosts i').Completed (.fill 32 1) (.fill 32 2) → i' = 0 := by
  obtain ⟨s, hs, hp⟩ := Runs.exists_of_run (step (.fill 32 0x42)) IsInit Runs.always init
    (session (.fill 32 0x42) (.fill 32 1) (.fill 32 2))
    (fun s => s.hosts 0 = ⟨some (.fill 32 1), some (.fill 32 2), some true⟩) rfl (by decide +kernel)
  have hc : (s.hosts 0).Completed (.fill 32 1) (.fill 32 2) := by
    simp only [decide_eq_true_eq] at hp
    simp [Host.Completed, Host.Proved, hp]
  obtain ⟨hreplied, hunique⟩ := (agreement hs).1 0 _ _ hc
  exact ⟨s, hs, hc, hreplied, hunique⟩

end HciBridge.Handshake
