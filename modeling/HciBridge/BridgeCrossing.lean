import HciBridge.BridgeParking
import HciBridge.BridgeDescriptors

namespace HciBridge.Bridge

def TxPc.count : TxPc → ℕ
  | loadClient n | send _ n => n
  | _ => 0

def State.inFlight (s : State) : List Cell := s.txChunk.take s.tx.count

theorem Parked.count {s : State} (h : Parked s) : s.tx.count = 0 := by
  rcases h with ht | ht <;> rw [ht] <;> rfl

theorem Parked.ne_send {s : State} (h : Parked s) (fd : Fd) (n : ℕ) : s.tx ≠ .send fd n := by
  rcases h with ht | ht <;> rw [ht] <;> simp

theorem Parked.ne_loadClient {s : State} (h : Parked s) (n : ℕ) : s.tx ≠ .loadClient n := by
  rcases h with ht | ht <;> rw [ht] <;> simp

def CbPc.looked : CbPc → Option (Option Conn)
  | space _ seen | write _ seen => some seen
  | _ => none

/-- When the drain finds the buffer empty, no callback has looked at `client_fd` and not written
yet. -/
def drainIsFinal (s : State) : Label → Bool
  | .rxDrain 0 => s.cb.looked = none
  | _ => true

def noCrossing (s : State) (l : Label) : Bool :=
  idleIsFresh s l && heldNotReused s l && drainIsFinal s l

def Tagged (cs : List Cell) (o : Option Conn) : Prop := ∀ x ∈ cs, x.seen = o

theorem tagged_nil (o : Option Conn) : Tagged [] o := by simp [Tagged]

theorem tagged_append {cs ds : List Cell} {o : Option Conn} (hc : Tagged cs o) (hd : Tagged ds o) :
    Tagged (cs ++ ds) o := by
  intro x hx
  exact (List.mem_append.mp hx).elim (hc x) (hd x)

theorem Tagged.take {cs : List Cell} {o : Option Conn} (h : Tagged cs o) (n : ℕ) :
    Tagged (cs.take n) o := fun x hx => h x (List.mem_of_mem_take hx)

theorem Tagged.drop {cs : List Cell} {o : Option Conn} (h : Tagged cs o) (n : ℕ) :
    Tagged (cs.drop n) o := fun x hx => h x (List.mem_of_mem_drop hx)

theorem tagged_cells (pkt : List UInt8) (o : Option Conn) : Tagged (cells pkt o) o := by
  intro x hx
  obtain ⟨b, _, rfl⟩ := List.mem_map.mp hx
  rfl

theorem filled_take {s : State} {n : ℕ} (hle : n ≤ s.sb.length) :
    (s.filled n).take n = s.sb.take n := by
  rw [State.filled, List.take_append_of_le_length (by simp [hle]), List.take_take, min_self]

structure CrossInv (s : State) : Prop where
  queued : s.clientFd ≠ none → Tagged s.sb s.current
  held : s.clientFd ≠ none → ∀ n, s.tx = .loadClient n → Tagged s.inFlight s.current
  sending : ∀ fd n c, s.tx = .send fd n → s.owner fd = some c → Tagged s.inFlight (some c)
  callback : s.clientFd ≠ none → ∀ o, s.cb.looked = some o → o = s.current
  drained : ∀ fd, s.rx = .publish fd → s.sb = [] ∧ s.cb.looked = none
  sent : ∀ c, Tagged (s.peers c).sent (some c)

theorem crossInv_init : CrossInv init := by
  constructor <;> simp [init, CbPc.looked, Tagged, Peer.fresh]

theorem CrossInv.keep {s s' : State} (hi : CrossInv s)
    (hcur : s'.clientFd ≠ none → s.clientFd ≠ none ∧ s'.current = s.current)
    (ho : ∀ fd n c, s.tx = .send fd n → s'.owner fd = some c → s.owner fd = some c)
    (hsb : s'.sb = s.sb) (hchunk : s'.txChunk = s.txChunk) (htx : s'.tx = s.tx) (hcb : s'.cb = s.cb)
    (hsent : ∀ c, (s'.peers c).sent ⊆ (s.peers c).sent)
    (hpub : ∀ fd, s'.rx = .publish fd → s.rx = .publish fd) : CrossInv s' := by
  have hfl : s'.inFlight = s.inFlight := by simp only [State.inFlight, hchunk, htx]
  constructor
  case queued =>
    intro h
    obtain ⟨hc, he⟩ := hcur h
    rw [hsb, he]
    exact hi.queued hc
  case held =>
    intro h n hn
    obtain ⟨hc, he⟩ := hcur h
    rw [hfl, he]
    exact hi.held hc n (htx ▸ hn)
  case sending =>
    intro fd n c hs hoc
    rw [hfl]
    rw [htx] at hs
    exact hi.sending fd n c hs (ho fd n c hs hoc)
  case callback =>
    intro h o hl
    obtain ⟨hc, he⟩ := hcur h
    rw [he]
    exact hi.callback hc o (hcb ▸ hl)
  case drained =>
    intro fd hp
    rw [hsb, hcb]
    exact hi.drained fd (hpub fd hp)
  case sent =>
    exact fun c x hx => hi.sent c x (hsent c hx)

theorem revise_sent {peers : Conn → Peer} {o : Option Conn} {f : Peer → Peer}
    (h : ∀ p : Peer, (f p).sent ⊆ p.sent) (c : Conn) : (revise peers o f c).sent ⊆ (peers c).sent :=
  revise_rel (fun p q => q.sent ⊆ p.sent) (fun _ => List.Subset.refl _) h c

theorem CrossInv.txIdle {s s' : State} (hi : CrossInv s) (hcl : s'.clientFd = s.clientFd)
    (ho : s'.owner = s.owner) (hsb : s'.sb = s.sb) (hcb : s'.cb = s.cb) (hrx : s'.rx = s.rx)
    (hp : s'.peers = s.peers) (hl : ∀ n, s'.tx ≠ .loadClient n) (hs : ∀ fd n, s'.tx ≠ .send fd n) :
    CrossInv s' := by
  have hcur : s'.current = s.current := by simp only [State.current, hcl, ho]
  refine ⟨?_, fun _ n hn => absurd hn (hl n), fun fd n _ hn => absurd hn (hs fd n), ?_, ?_, ?_⟩
  · rw [hcl, hsb, hcur]; exact hi.queued
  · rw [hcl, hcb, hcur]; exact hi.callback
  · rw [hrx, hsb, hcb]; exact hi.drained
  · rw [hp]; exact hi.sent

theorem current_of_close {s : State} {fd : Fd} (hne : s.clientFd ≠ some fd) :
    s.clientFd.bind (Function.update s.owner fd none) = s.current := by
  unfold State.current
  cases hc : s.clientFd with
  | none => rfl
  | some f =>
    have : f ≠ fd := by rintro rfl; exact hne hc
    simp [Function.update_apply, this]

section Moves

variable {s : State} {n : ℕ} {c : Conn} {pkt : List UInt8} {seen : Option Conn}

theorem CrossInv.accept {fd : Fd} (hi : CrossInv s) (hf : FdInv s) (hfd : s.owner fd = none)
    (hheld : ∀ n, s.tx ≠ .send fd n) :
    CrossInv { s with
      owner := Function.update s.owner fd (some s.accepted)
      peers := revise s.peers (some s.accepted) (fun _ => .fresh)
      accepted := s.accepted + 1
      rx := .handshake fd } := by
  refine hi.keep ?_ ?_ rfl rfl rfl rfl ?_ (by simp)
  · intro hne
    obtain ⟨f, hcl⟩ := Option.ne_none_iff_exists'.mp hne
    have hff : f ≠ fd := hf.client_ne hfd hcl
    refine ⟨hne, ?_⟩
    simp only at hcl
    simp [State.current, hcl, Function.update_apply, hff]
  · intro held n c htx hoc
    have hne : held ≠ fd := by
      rintro rfl
      exact hheld n htx
    simpa [Function.update_apply, hne] using hoc
  · exact revise_sent fun _ => List.nil_subset _

/-- The drain overwrites `tx_chunk`, but `txTask` is parked and holds nothing. -/
theorem CrossInv.drain {newFd : Fd} (hi : CrossInv s) (hgone : s.clientFd = none) (hpark : Parked s)
    (h : s.rx = .drain newFd) : CrossInv { s with sb := s.sb.drop n, txChunk := s.filled n } := by
  refine ⟨fun hcl => absurd hgone hcl, fun hcl => absurd hgone hcl, ?_, fun hcl => absurd hgone hcl, ?_, hi.sent⟩
  · exact fun fd m c htx => absurd htx (hpark.ne_send fd m)
  · intro fd hrx
    simp [h] at hrx

theorem CrossInv.publish {newFd : Fd} (hi : CrossInv s) (hpark : Parked s) (h : s.rx = .publish newFd) :
    CrossInv { s with
      peers := revise s.peers (s.owner newFd) .setPublished
      clientFd := some newFd
      rx := .clearPause } := by
  obtain ⟨hsb, hlook⟩ := hi.drained newFd h
  refine ⟨?_, ?_, hi.sending, ?_, by simp, ?_⟩
  · intro _
    simp only [hsb]
    exact tagged_nil _
  · exact fun _ n htx => absurd htx (hpark.ne_loadClient n)
  · intro _ o ho
    simp only [hlook] at ho
    cases ho
  · exact fun c x hx => hi.sent c x (revise_sent (f := .setPublished) (fun _ => List.Subset.refl _) c hx)

theorem CrossInv.txRecv (hi : CrossInv s) (hn : 0 < n) (hle : n ≤ s.sb.length) :
    CrossInv { s with sb := s.sb.drop n, txChunk := s.filled n, tx := .loadClient n } := by
  have hfl : (State.inFlight { s with sb := s.sb.drop n, txChunk := s.filled n, tx := .loadClient n }) =
      s.sb.take n := filled_take hle
  refine ⟨fun hcl => (hi.queued hcl).drop n, ?_, by simp, hi.callback, ?_, hi.sent⟩
  · intro hcl m _
    rw [hfl]
    exact (hi.queued hcl).take n
  · intro fd hrx
    have hsb := (hi.drained fd hrx).1
    rw [hsb] at hle
    exact absurd hle (by simpa using hn.ne')

theorem CrossInv.txLoaded {fd : Fd} (hi : CrossInv s) (h : s.tx = .loadClient n) (hcl : s.clientFd = some fd) :
    CrossInv { s with tx := .send fd n } := by
  have hne : s.clientFd ≠ none := by simp [hcl]
  refine ⟨hi.queued, by simp, ?_, hi.callback, hi.drained, hi.sent⟩
  intro held m c htx hoc
  simp only [TxPc.send.injEq] at htx
  have hcur : s.current = some c := by
    rw [State.current, hcl, Option.bind_some, htx.1]
    exact hoc
  have hin := hi.held hne n h
  rwa [hcur, State.inFlight, h] at hin

theorem CrossInv.send {fd : Fd} {k : ℕ} {f : Peer → Peer} {pc : TxPc} (hi : CrossInv s) (h : s.tx = .send fd n)
    (ho : s.owner fd = some c) (hk : k ≤ n) (hf : ∀ p : Peer, (f p).sent = p.sent ++ s.txChunk.take k)
    (hload : ∀ n, pc ≠ .loadClient n) (hsend : ∀ fd n, pc ≠ .send fd n) :
    CrossInv { s with peers := revise s.peers (some c) f, tx := pc } := by
  have hin : Tagged (s.txChunk.take k) (some c) := by
    have hheld := (hi.sending fd n c h ho).take k
    rwa [State.inFlight, h, TxPc.count, List.take_take, min_eq_left hk] at hheld
  refine ⟨hi.queued, fun _ n hn => absurd hn (hload n), fun fd n _ hn => absurd hn (hsend fd n), hi.callback,
    hi.drained, revise_all (fun d p => Tagged p.sent (some d)) hi.sent ?_⟩
  rw [hf]
  exact tagged_append (hi.sent c) hin

theorem CrossInv.cbHost {fd : Fd} (hi : CrossInv s) (hf : FdInv s) (hcl : s.clientFd = some fd) :
    CrossInv { s with cb := .space pkt s.current } := by
  refine ⟨hi.queued, hi.held, hi.sending, ?_, ?_, hi.sent⟩
  · intro _ o ho
    simp only [CbPc.looked, Option.some.injEq] at ho
    exact ho.symm
  · intro f hrx
    have hgone := hf.gone (by rw [show s.rx = .publish f from hrx]; rfl)
    rw [hgone] at hcl
    cases hcl

theorem CrossInv.cbFits (hi : CrossInv s) (h : s.cb = .space pkt seen) :
    CrossInv { s with cb := .write pkt seen } := by
  have hlook : s.cb.looked = some seen := by rw [h]; rfl
  refine ⟨hi.queued, hi.held, hi.sending, ?_, ?_, hi.sent⟩
  · intro hcl o ho
    exact hi.callback hcl o (hlook.trans ho)
  · intro f hrx
    rw [(hi.drained f hrx).2] at hlook
    cases hlook

theorem CrossInv.cbWrite (hi : CrossInv s) (h : s.cb = .write pkt seen) (cs : List Cell)
    (hcs : Tagged cs seen) (queued : List (List Cell)) :
    CrossInv { s with sb := s.sb ++ cs, queued := queued, cb := .idle } := by
  have hlook : s.cb.looked = some seen := by rw [h]; rfl
  refine ⟨?_, hi.held, hi.sending, by simp [CbPc.looked], ?_, hi.sent⟩
  · intro hcl
    have hseen := hi.callback hcl seen hlook
    exact tagged_append (hi.queued hcl) (hseen ▸ hcs)
  · intro f hrx
    rw [(hi.drained f hrx).2] at hlook
    cases hlook

end Moves

theorem crossInv_step {s s' : State} {l : Label} (hf : FdInv s) (hp : ParkInv s) (hi : CrossInv s)
    (hc : noCrossing s l = true) (hs : Step s l s') : CrossInv s' := by
  simp only [noCrossing, Bool.and_eq_true] at hc
  obtain ⟨⟨_, hheld⟩, hdrain⟩ := hc
  cases hs with
  | accept fd h hfd =>
    refine hi.accept hf hfd fun n htx => ?_
    simp [heldNotReused, htx] at hheld
  | swapOld | dropSwap =>
    exact hi.keep (by simp) (fun _ _ _ _ => id) rfl rfl rfl rfl (fun _ => List.Subset.refl _) (by simp)
  | closeRejected newFd h =>
    have hne := (hf.new newFd (by rw [h]; rfl)).1
    exact hi.keep (fun hcl => ⟨hcl, current_of_close hne⟩) (fun _ _ _ _ => owner_of_close) rfl rfl rfl rfl
      (fun _ => List.Subset.refl _) (by simp)
  | closeOld newFd old h =>
    have hgone := hf.gone (by rw [h]; rfl)
    exact hi.keep (fun hcl => absurd hgone hcl) (fun _ _ _ _ => owner_of_close) rfl rfl rfl rfl
      (fun _ => List.Subset.refl _) (by simp)
  | dropClose why old h =>
    have hgone := hf.gone (by rw [h]; rfl)
    exact hi.keep (fun hcl => absurd hgone hcl) (fun _ _ _ _ => owner_of_close) rfl rfl rfl rfl
      (fun _ => List.Subset.refl _) (by cases why <;> simp [Reason.after])
  | drained newFd h hsb =>
    refine ⟨hi.queued, hi.held, hi.sending, hi.callback, fun _ _ => ⟨hsb, ?_⟩, hi.sent⟩
    simpa [drainIsFinal] using hdrain
  | drain newFd n h hn hle => exact hi.drain (hf.gone (by rw [h]; rfl)) (hp.past (by rw [h]; rfl)) h
  | publish newFd h => exact hi.publish (hp.past (by rw [h]; rfl)) h
  | txRecv n h hn hle => exact hi.txRecv hn hle
  | txLoaded n fd h hcl => exact hi.txLoaded h hcl
  | txSent fd n c h ho => exact hi.send h ho le_rfl (fun _ => rfl) (by simp) (by simp)
  | txSendFailed fd n k c h ho hk => exact hi.send h ho hk.le (fun _ => rfl) (by simp) (by simp)
  | cbHost pkt fd h hcl => exact hi.cbHost hf hcl
  | cbFits pkt seen h hle => exact hi.cbFits h
  | cbWrite pkt seen h => exact hi.cbWrite h _ ((tagged_cells pkt seen).take _) _
  | cbCall | cbNoHost | cbOverflow =>
    exact ⟨hi.queued, hi.held, hi.sending, by simp [CbPc.looked],
      fun f hrx => ⟨(hi.drained f hrx).1, rfl⟩, hi.sent⟩
  | txPaused | txRunning | txStoreIdle | txClearIdle | txRecvNone | txStale | txSendClosed
  | txStoreFailed => exact hi.txIdle rfl rfl rfl rfl rfl rfl (by simp) (by simp)
  | handshake | shutdownOld | recv =>
    exact hi.keep (fun hcl => ⟨hcl, rfl⟩) (fun _ _ _ _ => id) rfl rfl rfl rfl
      (revise_sent fun _ => List.Subset.refl _) (by simp)
  | poll listening host h hcl =>
    exact hi.keep (fun hcl => ⟨hcl, rfl⟩) (fun _ _ _ _ => id) rfl rfl rfl rfl
      (fun _ => List.Subset.refl _) (by cases listening <;> simp)
  | dropNone why h hcl =>
    exact hi.keep (fun hcl => ⟨hcl, rfl⟩) (fun _ _ _ _ => id) rfl rfl rfl rfl
      (fun _ => List.Subset.refl _) (by cases why <;> simp [Reason.after])
  | stillBusy => exact hi
  | _ =>
    exact hi.keep (fun hcl => ⟨hcl, rfl⟩) (fun _ _ _ _ => id) rfl rfl rfl rfl
      (fun _ => List.Subset.refl _) (by simp)

theorem parkInv_of_reachable {C : State → Label → Bool} {s : State}
    (hC : ∀ s l, C s l = true → idleIsFresh s l = true) (h : Runs.ReachableWhile step IsInit C s) :
    ParkInv s :=
  h.invariant ParkInv (by rintro _ rfl; exact parkInv_init)
    fun _ _ _ _ hi hc hs => parkInv_step hi (hC _ _ hc) (step_cases hs)

theorem noCrossing_idleIsFresh (s : State) (l : Label) (h : noCrossing s l = true) :
    idleIsFresh s l = true := by
  simp only [noCrossing, Bool.and_eq_true] at h
  exact h.1.1

theorem sent_only_to_seen {s : State} (h : Runs.ReachableWhile step IsInit noCrossing s) (c : Conn) :
    ∀ x ∈ (s.peers c).sent, x.seen = some c := by
  have hinv : CrossInv s := h.invariant CrossInv (by rintro _ rfl; exact crossInv_init)
    (fun s l s' hr hi hc hs => crossInv_step (fdInv_of_reachable hr)
      (parkInv_of_reachable noCrossing_idleIsFresh hr) hi hc (step_cases hs))
  exact hinv.sent c

theorem sent_to_first_host :
    ∃ s, Runs.ReachableWhile step IsInit noCrossing s ∧
      (s.peers 0).sent.map Cell.byte = [0x04, 0x10, 0x00] ∧ ∀ x ∈ (s.peers 0).sent, x.seen = some 0 := by
  obtain ⟨s, hs, hp⟩ := Runs.exists_of_run step IsInit noCrossing init
    (eventToFirstHost ++ [.txSend none])
    (fun s => (s.peers 0).sent.map Cell.byte = [0x04, 0x10, 0x00]) rfl (by decide)
  exact ⟨s, hs, by simpa using hp, sent_only_to_seen hs 0⟩

/-- The callback sees the first host, a second one takes over, and only then does the callback
write. -/
def lateWrite : List Label :=
  firstHost ++ [.rx, .rx, .rx, .rx, .cbCall [0x04, 0x10, 0x00], .cb, .cb,
    .rx, .rxPoll (some (true, false)), .rxAccept (some 6), .rxHandshake true, .rx, .rx, .rx, .rx,
    .tx, .tx, .rx, .rx, .rx, .rxDrain 0, .rx, .rx, .cb,
    .tx, .tx, .txRecv 3, .tx, .txSend none]

theorem sent_to_the_next_host :
    ¬∀ s, Reachable s → ∀ c, ∀ x ∈ (s.peers c).sent, x.seen = some c := by
  intro h
  obtain ⟨s, hs, hp⟩ := Runs.exists_of_run step IsInit Runs.always init lateWrite
    (fun s => (s.peers 1).sent = cells [0x04, 0x10, 0x00] (some 0)) rfl (by decide)
  simp only [decide_eq_true_eq] at hp
  have := h s hs 1 ⟨0x04, some 0⟩ (by rw [hp]; simp [cells])
  cases this

end HciBridge.Bridge
