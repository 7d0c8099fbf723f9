import Mathlib.Tactic
import HciBridge.BridgeSteps

namespace HciBridge.Bridge

def RxPc.newFd : RxPc → Option Fd
  | handshake f | closeRejected f | swapOld f | shutdownOld f _ | clearIdle f _ | setPause f _
  | awaitIdle f _ | closeOld f _ | clearFailed f | drain f | publish f => some f
  | _ => none

def RxPc.oldFd : RxPc → Option Fd
  | shutdownOld _ f | closeOld _ f | dropClose f _ => some f
  | clearIdle _ f | setPause _ f | awaitIdle _ f => f
  | _ => none

def RxPc.proved : RxPc → Bool
  | swapOld _ | shutdownOld _ _ | clearIdle _ _ | setPause _ _ | awaitIdle _ _ | closeOld _ _
  | clearFailed _ | drain _ | publish _ => true
  | _ => false

def RxPc.noClient : RxPc → Bool
  | shutdownOld _ _ | clearIdle _ _ | setPause _ _ | awaitIdle _ _ | closeOld _ _ | clearFailed _
  | drain _ | publish _ | dropClose _ _ => true
  | _ => false

structure FdInv (s : State) : Prop where
  fresh : ∀ fd c, s.owner fd = some c → c < s.accepted
  inj : ∀ fd fd' c, s.owner fd = some c → s.owner fd' = some c → fd = fd'
  client : ∀ fd, s.clientFd = some fd →
    ∃ c, s.owner fd = some c ∧ (s.peers c).authenticated = true ∧ (s.peers c).published = true
  new : ∀ fd, s.rx.newFd = some fd →
    s.clientFd ≠ some fd ∧ ∃ c, s.owner fd = some c ∧ (s.peers c).published = false ∧
      (s.rx.proved = true → (s.peers c).authenticated = true)
  old : ∀ fd, s.rx.oldFd = some fd → s.rx.newFd ≠ some fd
  gone : s.rx.noClient = true → s.clientFd = none

theorem fdInv_init : FdInv init := by
  constructor <;> simp [init, RxPc.newFd, RxPc.oldFd, RxPc.noClient]

def Kept (s s' : State) : Prop :=
  ∀ c, ((s.peers c).authenticated = true → (s'.peers c).authenticated = true) ∧
    (s'.peers c).published = (s.peers c).published

theorem kept_of_eq {s s' : State} (h : s'.peers = s.peers) : Kept s s' := by
  intro c
  rw [h]
  exact ⟨id, rfl⟩

theorem kept_of_revise {s s' : State} {o : Option Conn} {f : Peer → Peer}
    (h : s'.peers = revise s.peers o f)
    (ha : ∀ p : Peer, p.authenticated = true → (f p).authenticated = true)
    (hp : ∀ p : Peer, (f p).published = p.published) : Kept s s' := by
  intro c
  rw [h]
  exact revise_rel (fun p q => (p.authenticated = true → q.authenticated = true) ∧ q.published = p.published)
    (fun _ => ⟨id, rfl⟩) (fun p => ⟨ha p, hp p⟩) c

theorem FdInv.advance {s s' : State} (hi : FdInv s) (ho : s'.owner = s.owner)
    (ha : s'.accepted = s.accepted) (hc : s'.clientFd = s.clientFd) (hk : Kept s s')
    (hnew : s'.rx.newFd = none ∨ s'.rx.newFd = s.rx.newFd ∧ (s'.rx.proved = true → s.rx.proved = true))
    (hold : ∀ f, s'.rx.oldFd = some f → s.rx.oldFd = some f)
    (hgone : s'.rx.noClient = true → s.rx.noClient = true) : FdInv s' := by
  constructor
  case fresh =>
    rw [ho, ha]; exact hi.fresh
  case inj =>
    rw [ho]; exact hi.inj
  case client =>
    intro fd hfd
    rw [hc] at hfd
    obtain ⟨c, hoc, h1, h2⟩ := hi.client fd hfd
    exact ⟨c, by rw [ho]; exact hoc, (hk c).1 h1, by rw [(hk c).2, h2]⟩
  case new =>
    intro fd hfd
    rcases hnew with hn | ⟨hn, hp⟩
    · rw [hn] at hfd; cases hfd
    · obtain ⟨hne, c, hoc, hpub, hauth⟩ := hi.new fd (hn ▸ hfd)
      exact ⟨by rw [hc]; exact hne, c, by rw [ho]; exact hoc, by rw [(hk c).2, hpub],
        fun h => (hk c).1 (hauth (hp h))⟩
  case old =>
    intro fd hfd
    rcases hnew with hn | ⟨hn, _⟩
    · rw [hn]; exact Option.some_ne_none fd |>.symm
    · rw [hn]; exact hi.old fd (hold fd hfd)
  case gone =>
    intro h; rw [hc]; exact hi.gone (hgone h)

theorem FdInv.close {s s' : State} {fd : Fd} (hi : FdInv s)
    (ho : s'.owner = Function.update s.owner fd none) (ha : s'.accepted = s.accepted)
    (hc : s'.clientFd = s.clientFd) (hp : s'.peers = s.peers) (hne : s.clientFd ≠ some fd)
    (hnew : ∀ f, s'.rx.newFd = some f → f ≠ fd ∧ s.rx.newFd = some f ∧
      (s'.rx.proved = true → s.rx.proved = true))
    (hold : s'.rx.oldFd = none) (hgone : s'.rx.noClient = true → s.rx.noClient = true) : FdInv s' := by
  have hsome {f : Fd} {c : Conn} : s'.owner f = some c ↔ f ≠ fd ∧ s.owner f = some c := by
    rw [ho, Function.update_apply]
    split <;> simp_all
  constructor
  case fresh =>
    intro f c hf
    rw [ha]; exact hi.fresh f c (hsome.mp hf).2
  case inj =>
    intro f f' c hf hf'
    exact hi.inj f f' c (hsome.mp hf).2 (hsome.mp hf').2
  case client =>
    intro f hf
    rw [hc] at hf
    obtain ⟨c, hoc, hauth⟩ := hi.client f hf
    refine ⟨c, hsome.mpr ⟨?_, hoc⟩, by rwa [hp]⟩
    rintro rfl
    exact hne hf
  case new =>
    intro f hf
    obtain ⟨hfd, hn, hpr⟩ := hnew f hf
    obtain ⟨hnc, c, hoc, hpub, hauth⟩ := hi.new f hn
    exact ⟨by rwa [hc], c, hsome.mpr ⟨hfd, hoc⟩, by rwa [hp], fun h => by rw [hp]; exact hauth (hpr h)⟩
  case old =>
    intro f hf; rw [hold] at hf; cases hf
  case gone =>
    intro h; rw [hc]; exact hi.gone (hgone h)

theorem FdInv.client_ne {s : State} {fd f : Fd} (hi : FdInv s) (hfd : s.owner fd = none)
    (hf : s.clientFd = some f) : f ≠ fd := by
  obtain ⟨c, hoc, _⟩ := hi.client f hf
  rintro rfl
  rw [hfd] at hoc
  cases hoc

theorem FdInv.accept {s : State} {fd : Fd} (hi : FdInv s) (hfd : s.owner fd = none) :
    FdInv { s with
      owner := Function.update s.owner fd (some s.accepted)
      peers := revise s.peers (some s.accepted) (fun _ => .fresh)
      accepted := s.accepted + 1
      rx := .handshake fd } := by
  have hsome {f : Fd} {c : Conn} :
      Function.update s.owner fd (some s.accepted) f = some c ↔
        (f = fd ∧ c = s.accepted) ∨ (f ≠ fd ∧ s.owner f = some c) := by
    rw [Function.update_apply]
    split <;> simp_all [eq_comm]
  have hother {f : Fd} {c : Conn} (hf : s.owner f = some c) :
      revise s.peers (some s.accepted) (fun _ => .fresh) c = s.peers c :=
    revise_ne (hi.fresh f c hf).ne'
  constructor
  case fresh =>
    intro f c hf
    rcases hsome.mp hf with ⟨_, rfl⟩ | ⟨_, hf⟩
    · exact Nat.lt_succ_self _
    · exact (hi.fresh f c hf).trans (Nat.lt_succ_self _)
  case inj =>
    intro f f' c hf hf'
    rcases hsome.mp hf with ⟨e, hc⟩ | ⟨_, hf⟩ <;> rcases hsome.mp hf' with ⟨e', hc'⟩ | ⟨_, hf'⟩
    · rw [e, e']
    · exact absurd (hi.fresh f' c hf') (hc ▸ lt_irrefl _)
    · exact absurd (hi.fresh f c hf) (hc' ▸ lt_irrefl _)
    · exact hi.inj f f' c hf hf'
  case client =>
    intro f hf
    obtain ⟨c, hoc, hauth⟩ := hi.client f hf
    refine ⟨c, hsome.mpr (.inr ⟨hi.client_ne hfd hf, hoc⟩), ?_⟩
    simp only [hother hoc]
    exact hauth
  case new =>
    intro f hf
    simp only [RxPc.newFd, Option.some.injEq] at hf
    subst hf
    exact ⟨fun hcl => hi.client_ne hfd hcl rfl, s.accepted, hsome.mpr (.inl ⟨rfl, rfl⟩), by simp [Peer.fresh],
      by simp [RxPc.proved]⟩
  case old =>
    simp [RxPc.oldFd]
  case gone =>
    simp [RxPc.noClient]

theorem FdInv.handshake {s : State} {newFd : Fd} (hi : FdInv s) (h : s.rx = .handshake newFd) :
    FdInv { s with peers := revise s.peers (s.owner newFd) .setAuthenticated, rx := .swapOld newFd } := by
  obtain ⟨hne, c, hoc, hpub, _⟩ := hi.new newFd (by rw [h]; rfl)
  have hk : Kept s { s with peers := revise s.peers (s.owner newFd) .setAuthenticated } :=
    kept_of_revise rfl (fun _ _ => rfl) (fun _ => rfl)
  refine ⟨hi.fresh, hi.inj, ?_, ?_, by simp [RxPc.oldFd], by simp [RxPc.noClient]⟩
  · intro f hf
    obtain ⟨d, hod, h1, h2⟩ := hi.client f hf
    exact ⟨d, hod, (hk d).1 h1, (hk d).2.trans h2⟩
  · intro f hf
    simp only [RxPc.newFd, Option.some.injEq] at hf
    subst hf
    exact ⟨hne, c, hoc, (hk c).2.trans hpub, fun _ => by simp only [hoc, revise_same]; rfl⟩

theorem FdInv.swapNone {s : State} {newFd : Fd} (hi : FdInv s) (h : s.rx = .swapOld newFd)
    (hc : s.clientFd = none) : FdInv { s with rx := .clearIdle newFd none } := by
  obtain ⟨hne, c, hoc, hpub, hauth⟩ := hi.new newFd (by rw [h]; rfl)
  refine ⟨hi.fresh, hi.inj, hi.client, ?_, by simp [RxPc.oldFd], fun _ => hc⟩
  intro f hf
  simp only [RxPc.newFd, Option.some.injEq] at hf
  subst hf
  exact ⟨hne, c, hoc, hpub, fun _ => hauth (by rw [h]; rfl)⟩

theorem FdInv.swapOld {s : State} {newFd old : Fd} (hi : FdInv s) (h : s.rx = .swapOld newFd)
    (hc : s.clientFd = some old) : FdInv { s with clientFd := none, rx := .shutdownOld newFd old } := by
  obtain ⟨hne, c, hoc, hpub, hauth⟩ := hi.new newFd (by rw [h]; rfl)
  refine ⟨hi.fresh, hi.inj, by simp, ?_, ?_, fun _ => rfl⟩
  · intro f hf
    simp only [RxPc.newFd, Option.some.injEq] at hf
    subst hf
    exact ⟨by simp, c, hoc, hpub, fun _ => hauth (by rw [h]; rfl)⟩
  · intro f hf hf'
    simp only [RxPc.oldFd, RxPc.newFd, Option.some.injEq] at hf hf'
    subst hf hf'
    exact hne hc

theorem FdInv.closeOld {s : State} {newFd old : Fd} (hi : FdInv s) (h : s.rx = .closeOld newFd old) :
    FdInv { s with owner := Function.update s.owner old none, rx := .clearFailed newFd } := by
  have hnew := hi.old old (by rw [h]; rfl)
  have hgone := hi.gone (by rw [h]; rfl)
  refine hi.close rfl rfl rfl rfl (by rw [hgone]; simp) ?_ rfl (by rw [h]; exact id)
  intro f hf
  have hf' : s.rx.newFd = some f := by rw [h]; exact hf
  exact ⟨by rintro rfl; exact hnew hf', hf', fun _ => by rw [h]; rfl⟩

theorem FdInv.publish {s : State} {newFd : Fd} (hi : FdInv s) (h : s.rx = .publish newFd) :
    FdInv { s with
      peers := revise s.peers (s.owner newFd) .setPublished
      clientFd := some newFd
      rx := .clearPause } := by
  obtain ⟨_, c, hoc, _, hauth⟩ := hi.new newFd (by rw [h]; rfl)
  refine ⟨hi.fresh, hi.inj, ?_, by simp [RxPc.newFd], by simp [RxPc.oldFd], by simp [RxPc.noClient]⟩
  intro f hf
  simp only [Option.some.injEq] at hf
  subst hf
  refine ⟨c, hoc, ?_⟩
  simp only [hoc, revise_same]
  exact ⟨hauth (by rw [h]; rfl), rfl⟩

theorem fdInv_step {s s' : State} {l : Label} (hi : FdInv s) (hs : Step s l s') : FdInv s' := by
  cases hs with
  | poll listening host h hc =>
    cases listening <;>
      exact hi.advance rfl rfl rfl (kept_of_eq rfl) (.inl rfl) (by simp [RxPc.oldFd]) (by simp [RxPc.noClient])
  | accept fd h hfd => exact hi.accept hfd
  | handshake newFd h => exact hi.handshake h
  | closeRejected newFd h =>
    have hnew := hi.new newFd (by rw [h]; rfl)
    exact hi.close rfl rfl rfl rfl hnew.1 (by simp [RxPc.newFd]) rfl (by simp [RxPc.noClient])
  | swapNone newFd h hc => exact hi.swapNone h hc
  | swapOld newFd old h hc => exact hi.swapOld h hc
  | shutdownOld newFd old h =>
    exact hi.advance rfl rfl rfl (kept_of_revise rfl (fun _ => id) (fun _ => rfl))
      (.inr ⟨by rw [h]; rfl, fun _ => by rw [h]; rfl⟩) (by rw [h]; exact fun _ => id) (by rw [h]; exact id)
  | clearIdle newFd old h | setPause newFd old h | idleOld newFd old h =>
    exact hi.advance rfl rfl rfl (kept_of_eq rfl)
      (.inr ⟨by rw [h]; rfl, fun _ => by rw [h]; rfl⟩) (by rw [h]; exact fun _ => id) (by rw [h]; exact id)
  | idleNone newFd h | clearFailed newFd h | drained newFd h =>
    exact hi.advance rfl rfl rfl (kept_of_eq rfl)
      (.inr ⟨by rw [h]; rfl, fun _ => by rw [h]; rfl⟩) (by simp [RxPc.oldFd]) (by rw [h]; exact id)
  | closeOld newFd old h => exact hi.closeOld h
  | publish newFd h => exact hi.publish h
  | dropSwap why old h hc =>
    exact ⟨hi.fresh, hi.inj, by simp, by simp [RxPc.newFd], by simp [RxPc.newFd], fun _ => rfl⟩
  | dropNone why h hc =>
    cases why <;>
      exact hi.advance rfl rfl rfl (kept_of_eq rfl) (.inl rfl) (by simp [RxPc.oldFd, Reason.after])
        (by simp [RxPc.noClient, Reason.after])
  | dropClose why old h =>
    have hgone := hi.gone (by rw [h]; rfl)
    cases why <;>
      exact hi.close rfl rfl rfl rfl (by rw [hgone]; simp) (by simp [RxPc.newFd, Reason.after]) rfl
        (by simp [RxPc.noClient, Reason.after])
  | recv fd c bytes h ho hne hle =>
    exact hi.advance rfl rfl rfl (kept_of_revise rfl (fun _ => id) (fun _ => rfl)) (.inl rfl)
      (by simp [RxPc.oldFd]) (by simp [RxPc.noClient])
  | txSent | txSendFailed =>
    exact hi.advance rfl rfl rfl (kept_of_revise rfl (fun _ => id) (fun _ => rfl)) (.inr ⟨rfl, id⟩)
      (fun _ => id) id
  | stillBusy | txPaused | txRunning | txStoreIdle | txClearIdle | txRecvNone | txRecv | txStale | txLoaded
  | txSendClosed | txStoreFailed | cbCall | cbNoHost | cbHost | cbOverflow | cbFits | cbWrite | drain =>
    exact hi.advance rfl rfl rfl (kept_of_eq rfl) (.inr ⟨rfl, id⟩) (fun _ => id) id
  | handshakeFailed newFd h =>
    exact hi.advance rfl rfl rfl (kept_of_eq rfl)
      (.inr ⟨by rw [h]; rfl, fun h => by cases h⟩) (by simp [RxPc.oldFd]) (by simp [RxPc.noClient])
  | _ =>
    exact hi.advance rfl rfl rfl (kept_of_eq rfl) (.inl rfl) (by simp [RxPc.oldFd]) (by simp [RxPc.noClient])

theorem fdInv_of_reachable {C : State → Label → Bool} {s : State}
    (h : Runs.ReachableWhile step IsInit C s) : FdInv s :=
  h.invariant FdInv (by rintro _ rfl; exact fdInv_init) fun _ _ _ _ hi _ hs => fdInv_step hi (step_cases hs)

def Unborn (s : State) : Prop := ∀ c, s.accepted ≤ c → s.peers c = .fresh

theorem revise_unborn {s : State} {fd : Fd} (hf : FdInv s) (hu : Unborn s) (f : Peer → Peer) (c : Conn)
    (hc : s.accepted ≤ c) : revise s.peers (s.owner fd) f c = .fresh := by
  unfold revise
  split
  case isTrue ho => exact absurd hc (hf.fresh fd c ho).not_ge
  case isFalse => exact hu c hc

theorem unborn_step {s s' : State} {l : Label} (hf : FdInv s) (hu : Unborn s) (hs : Step s l s') :
    Unborn s' := by
  cases hs with
  | accept fd h hfd =>
    intro c hc
    have hlt : s.accepted < c := hc
    simp only [revise_ne hlt.ne]
    exact hu c hlt.le
  | handshake newFd h => exact revise_unborn hf hu _
  | shutdownOld newFd old h => exact revise_unborn hf hu _
  | publish newFd h => exact revise_unborn hf hu _
  | recv fd c bytes h ho hne hle => exact ho ▸ revise_unborn hf hu _
  | txSent fd n c h ho => exact ho ▸ revise_unborn hf hu _
  | txSendFailed fd n k c h ho hk => exact ho ▸ revise_unborn hf hu _
  | _ => exact hu

theorem unborn_of_reachable {C : State → Label → Bool} {s : State}
    (h : Runs.ReachableWhile step IsInit C s) : Unborn s :=
  h.invariant Unborn (by rintro _ rfl; exact fun _ _ => rfl)
    fun _ _ _ hr hu _ hs => unborn_step (fdInv_of_reachable hr) hu (step_cases hs)

theorem accept_peers {s : State} (hu : Unborn s) :
    revise s.peers (some s.accepted) (fun _ => .fresh) = s.peers := by
  funext c
  unfold revise
  split
  case isTrue hc =>
    cases hc
    exact (hu s.accepted le_rfl).symm
  case isFalse => rfl

/-- `glue_accept` does not hand out the number that `txTask` has loaded and not finished sending
on. -/
def heldNotReused (s : State) : Label → Bool
  | .rxAccept (some fd) =>
    match s.tx with
    | .send held _ => held ≠ fd
    | _ => true
  | _ => true

def SendInv (s : State) : Prop :=
  ∀ fd n c, s.tx = .send fd n → s.owner fd = some c →
    (s.peers c).authenticated = true ∧ (s.peers c).published = true

theorem SendInv.keep {s s' : State} (hi : SendInv s) (ht : s'.tx = s.tx)
    (ho : ∀ fd n c, s.tx = .send fd n → s'.owner fd = some c → s.owner fd = some c)
    (hk : Kept s s') : SendInv s' := by
  intro fd n c htx hoc
  rw [ht] at htx
  obtain ⟨h1, h2⟩ := hi fd n c htx (ho fd n c htx hoc)
  exact ⟨(hk c).1 h1, (hk c).2.trans h2⟩

theorem owner_of_close {owner : Fd → Option Conn} {f fd : Fd} {c : Conn}
    (h : Function.update owner f none fd = some c) : owner fd = some c := by
  rw [Function.update_apply] at h
  split at h
  · cases h
  · exact h

theorem sendInv_step {s s' : State} {l : Label} (hf : FdInv s) (hi : SendInv s)
    (hc : heldNotReused s l = true) (hs : Step s l s') : SendInv s' := by
  cases hs with
  | accept fd h hfd =>
    intro held n c htx hoc
    have hne : held ≠ fd := by simpa [heldNotReused, show s.tx = .send held n from htx] using hc
    have hoc' : s.owner held = some c := by simpa [Function.update_apply, hne] using hoc
    simp only [revise_ne (hf.fresh held c hoc').ne']
    exact hi held n c htx hoc'
  | txLoaded n fd h hcl =>
    intro held m c htx hoc
    simp only [TxPc.send.injEq] at htx
    obtain ⟨d, hod, hauth⟩ := hf.client fd hcl
    rw [htx.1] at hod
    cases hod.symm.trans hoc
    exact hauth
  | handshake newFd h =>
    exact hi.keep rfl (fun _ _ _ _ => id) (kept_of_revise rfl (fun _ _ => rfl) (fun _ => rfl))
  | publish newFd h =>
    intro held n c htx hoc
    have hold := hi held n c htx hoc
    simp only [revise]
    split
    · exact ⟨hold.1, rfl⟩
    · exact hold
  | shutdownOld | recv =>
    exact hi.keep rfl (fun _ _ _ _ => id) (kept_of_revise rfl (fun _ => id) (fun _ => rfl))
  | closeRejected | closeOld | dropClose =>
    exact hi.keep rfl (fun _ _ _ _ => owner_of_close) (kept_of_eq rfl)
  | txPaused | txRunning | txStoreIdle | txClearIdle | txRecvNone | txRecv | txStale | txSendClosed
  | txSent | txSendFailed | txStoreFailed =>
    intro held n c htx
    cases htx
  | _ => exact hi.keep rfl (fun _ _ _ _ => id) (kept_of_eq rfl)

theorem sendInv_of_reachable {C : State → Label → Bool} {s : State}
    (hC : ∀ s l, C s l = true → heldNotReused s l = true) (h : Runs.ReachableWhile step IsInit C s) :
    SendInv s :=
  h.invariant SendInv (by rintro _ rfl; intro fd n c ht; cases ht)
    fun _ _ _ hr hi hc hs => sendInv_step (fdInv_of_reachable hr) hi (hC _ _ hc) (step_cases hs)

theorem send_to_published {s : State} (h : Runs.ReachableWhile step IsInit heldNotReused s) {fd : Fd}
    {n : ℕ} {c : Conn} (ht : s.tx = .send fd n) (ho : s.owner fd = some c) :
    (s.peers c).authenticated = true ∧ (s.peers c).published = true :=
  sendInv_of_reachable (fun _ _ => id) h fd n c ht ho

def eventToFirstHost : List Label :=
  [.rx, .rxPoll (some (true, false)), .rxAccept (some 5), .rxHandshake true, .rx, .rx, .rx,
    .tx, .tx, .rx, .rx, .rxDrain 0, .rx, .rx, .rx, .rx,
    .cbCall [0x04, 0x10, 0x00], .cb, .cb, .cb, .tx, .tx, .txRecv 3, .tx]

theorem send_to_first_host :
    ∃ s, Runs.ReachableWhile step IsInit heldNotReused s ∧ s.tx = .send 5 3 ∧ s.owner 5 = some 0 ∧
      (s.peers 0).authenticated = true ∧ (s.peers 0).published = true := by
  obtain ⟨s, hs, hp⟩ := Runs.exists_of_run step IsInit heldNotReused init eventToFirstHost
    (fun s => s.tx = .send 5 3 && s.owner 5 = some 0) rfl (by decide)
  simp only [Bool.and_eq_true, decide_eq_true_eq] at hp
  exact ⟨s, hs, hp.1, hp.2, send_to_published hs hp.1 hp.2⟩

/-- The host hangs up while `txTask` holds its number; `dropClient` closes the number without
parking `txTask`, and the next connection gets it. -/
def reusedNumber : List Label :=
  eventToFirstHost ++ [.rx, .rxPoll (some (false, true)), .rx, .rx, .rxRecv [], .rx, .rx,
    .rx, .rxPoll (some (true, false)), .rxAccept (some 5)]

theorem send_to_unauthenticated :
    ¬∀ s, Reachable s → ∀ fd n c, s.tx = .send fd n → s.owner fd = some c →
      (s.peers c).authenticated = true ∧ (s.peers c).published = true := by
  intro h
  obtain ⟨s, hs, hp⟩ := Runs.exists_of_run step IsInit Runs.always init reusedNumber
    (fun s => s.tx = .send 5 3 && s.owner 5 = some 1 && !(s.peers 1).authenticated) rfl (by decide)
  simp only [Bool.and_eq_true, decide_eq_true_eq, Bool.not_eq_true'] at hp
  have hauth := (h s hs 5 3 1 hp.1.1 hp.1.2).1
  rw [hp.2] at hauth
  cases hauth

end HciBridge.Bridge
