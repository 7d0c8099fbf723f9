import HciBridge.BridgeCrossing

namespace HciBridge.Bridge

def FromPacket (queued : List (List Cell)) (cs : List Cell) : Prop :=
  ∃ ps, ps <:+ queued ∧ cs = ps.flatten

def Within (queued : List (List Cell)) (cs : List Cell) : Prop :=
  ∃ ps, ps <:+ queued ∧ cs <+: ps.flatten

theorem fromPacket_nil (queued : List (List Cell)) : FromPacket queued [] :=
  ⟨[], List.nil_suffix, rfl⟩

theorem within_nil (queued : List (List Cell)) : Within queued [] :=
  ⟨[], List.nil_suffix, List.nil_prefix⟩

theorem suffix_push {α : Type} {ps qs : List α} (h : ps <:+ qs) (q : α) : ps ++ [q] <:+ qs ++ [q] := by
  obtain ⟨t, rfl⟩ := h
  exact ⟨t, (List.append_assoc _ _ _).symm⟩

theorem FromPacket.push {queued : List (List Cell)} {cs : List Cell} (h : FromPacket queued cs)
    (w : List Cell) : FromPacket (queued ++ [w]) (cs ++ w) := by
  obtain ⟨ps, hps, rfl⟩ := h
  exact ⟨ps ++ [w], suffix_push hps w, by simp⟩

theorem Within.push {queued : List (List Cell)} {cs : List Cell} (h : Within queued cs)
    (w : List Cell) : Within (queued ++ [w]) cs := by
  obtain ⟨ps, hps, hcs⟩ := h
  refine ⟨ps ++ [w], suffix_push hps w, hcs.trans ?_⟩
  simp

theorem Within.shorten {queued : List (List Cell)} {cs ds : List Cell} (h : Within queued ds)
    (hp : cs <+: ds) : Within queued cs := by
  obtain ⟨ps, hps, hds⟩ := h
  exact ⟨ps, hps, hp.trans hds⟩

theorem FromPacket.within {queued : List (List Cell)} {cs ds : List Cell}
    (h : FromPacket queued (cs ++ ds)) : Within queued cs := by
  obtain ⟨ps, hps, he⟩ := h
  exact ⟨ps, hps, he ▸ List.prefix_append _ _⟩

def noSendAfterFailure (s : State) : Label → Bool
  | .txSend _ =>
    match s.tx with
    | .send fd _ => (s.owner fd).all fun c => !(s.peers c).sendFailed
    | _ => true
  | _ => true

def keepsFraming (s : State) (l : Label) : Bool :=
  idleIsFresh s l && heldNotReused s l && noSendAfterFailure s l

theorem keepsFraming_idleIsFresh (s : State) (l : Label) (h : keepsFraming s l = true) :
    idleIsFresh s l = true := by
  simp only [keepsFraming, Bool.and_eq_true] at h
  exact h.1.1

theorem keepsFraming_heldNotReused (s : State) (l : Label) (h : keepsFraming s l = true) :
    heldNotReused s l = true := by
  simp only [keepsFraming, Bool.and_eq_true] at h
  exact h.1.2

structure FrameInv (s : State) : Prop where
  current : ∀ fd c, s.clientFd = some fd → s.owner fd = some c → (s.peers c).sendFailed = false →
    FromPacket s.queued ((s.peers c).sent ++ s.inFlight ++ s.sb)
  sending : ∀ fd n c, s.tx = .send fd n → s.owner fd = some c → (s.peers c).sendFailed = false →
    Within s.queued ((s.peers c).sent ++ s.inFlight)
  all : ∀ c, Within s.queued (s.peers c).sent
  drained : ∀ fd, s.rx = .publish fd → FromPacket s.queued s.sb
  target : ∀ fd n f, s.tx = .send fd n → s.clientFd = some f → f = fd
  unsent : ∀ c, (s.peers c).published = false → (s.peers c).sent = [] ∧ (s.peers c).sendFailed = false

theorem frameInv_init : FrameInv init := by
  constructor <;> simp [init, Peer.fresh, within_nil]

def SameSent (s s' : State) : Prop :=
  ∀ c, (s'.peers c).sent = (s.peers c).sent ∧ (s'.peers c).sendFailed = (s.peers c).sendFailed ∧
    ((s'.peers c).published = false → (s.peers c).published = false)

theorem sameSent_of_eq {s s' : State} (h : s'.peers = s.peers) : SameSent s s' := by
  intro c
  rw [h]
  exact ⟨rfl, rfl, id⟩

theorem sameSent_of_revise {s s' : State} {o : Option Conn} {f : Peer → Peer}
    (h : s'.peers = revise s.peers o f) (hs : ∀ p : Peer, (f p).sent = p.sent)
    (hf : ∀ p : Peer, (f p).sendFailed = p.sendFailed)
    (hp : ∀ p : Peer, (f p).published = false → p.published = false) : SameSent s s' := by
  intro c
  rw [h]
  exact revise_rel
    (fun p q => q.sent = p.sent ∧ q.sendFailed = p.sendFailed ∧ (q.published = false → p.published = false))
    (fun _ => ⟨rfl, rfl, id⟩) (fun p => ⟨hs p, hf p, hp p⟩) c

theorem FrameInv.keep {s s' : State} (hi : FrameInv s)
    (hcl : ∀ f, s'.clientFd = some f → s.clientFd = some f)
    (ho : ∀ f c, s.clientFd = some f ∨ (∃ n, s.tx = .send f n) → s'.owner f = some c →
      s.owner f = some c)
    (hsb : s'.sb = s.sb) (hchunk : s'.txChunk = s.txChunk) (htx : s'.tx = s.tx)
    (hq : s'.queued = s.queued) (hsame : SameSent s s')
    (hpub : ∀ fd, s'.rx = .publish fd → s.rx = .publish fd) : FrameInv s' := by
  have hfl : s'.inFlight = s.inFlight := by simp only [State.inFlight, hchunk, htx]
  constructor
  case current =>
    intro fd c hc hoc hfail
    obtain ⟨hsent, hf, _⟩ := hsame c
    rw [hq, hsent, hfl, hsb]
    exact hi.current fd c (hcl fd hc) (ho fd c (.inl (hcl fd hc)) hoc) (hf ▸ hfail)
  case sending =>
    intro fd n c ht hoc hfail
    obtain ⟨hsent, hf, _⟩ := hsame c
    rw [htx] at ht
    rw [hq, hsent, hfl]
    exact hi.sending fd n c ht (ho fd c (.inr ⟨n, ht⟩) hoc) (hf ▸ hfail)
  case all =>
    intro c
    rw [hq, (hsame c).1]
    exact hi.all c
  case drained =>
    intro fd hp
    rw [hq, hsb]
    exact hi.drained fd (hpub fd hp)
  case target =>
    intro fd n f ht hc
    exact hi.target fd n f (htx ▸ ht) (hcl f hc)
  case unsent =>
    intro c hp
    obtain ⟨hsent, hf, hpc⟩ := hsame c
    rw [hsent, hf]
    exact hi.unsent c (hpc hp)

theorem FrameInv.txMove {s s' : State} (hi : FrameInv s) (hcl : s'.clientFd = s.clientFd)
    (ho : s'.owner = s.owner) (hsb : s'.sb = s.sb) (hchunk : s'.txChunk = s.txChunk)
    (hrx : s'.rx = s.rx) (hq : s'.queued = s.queued) (hp : s'.peers = s.peers)
    (hcount : s.clientFd = none ∨ s.tx.count = 0) (hcount' : s'.tx.count = 0)
    (hsend : ∀ fd n, s'.tx ≠ .send fd n) : FrameInv s' := by
  refine ⟨?_, fun fd n _ ht => absurd ht (hsend fd n), ?_, ?_, fun fd n _ ht => absurd ht (hsend fd n), ?_⟩
  · intro fd c hc hoc hfail
    rw [hcl] at hc
    have hzero : s.tx.count = 0 := hcount.resolve_left (by rw [hc]; simp)
    have hfl : s'.inFlight = s.inFlight := by simp only [State.inFlight, hchunk, hcount', hzero]
    rw [hq, hp, hfl, hsb]
    exact hi.current fd c hc (ho ▸ hoc) (hp ▸ hfail)
  · rw [hq, hp]; exact hi.all
  · rw [hrx, hq, hsb]; exact hi.drained
  · rw [hp]; exact hi.unsent

theorem FrameInv.publish {s s' : State} {newFd : Fd} (hi : FrameInv s) (hf : FdInv s) (hpark : Parked s)
    (h : s.rx = .publish newFd) (hcl : s'.clientFd = some newFd) (ho : s'.owner = s.owner)
    (hsb : s'.sb = s.sb) (htx : s'.tx = s.tx) (hrx : s'.rx = .clearPause)
    (hq : s'.queued = s.queued)
    (hpeers : s'.peers = revise s.peers (s.owner newFd) .setPublished) : FrameInv s' := by
  obtain ⟨_, c, hoc, hpub, _⟩ := hf.new newFd (by rw [h]; rfl)
  have hsame : SameSent s s' :=
    sameSent_of_revise hpeers (fun _ => rfl) (fun _ => rfl) (by simp [Peer.setPublished])
  have hsend : ∀ fd n, s'.tx ≠ .send fd n := by
    intro fd n
    rw [htx]
    exact hpark.ne_send fd n
  refine ⟨?_, fun fd n _ ht => absurd ht (hsend fd n), ?_, by simp [hrx],
    fun fd n _ ht => absurd ht (hsend fd n), ?_⟩
  · -- the new client has been sent nothing and `txTask` holds nothing, so only the buffer counts
    intro fd d hfd hod _
    rw [hcl] at hfd
    obtain rfl : newFd = fd := Option.some.inj hfd
    rw [ho] at hod
    obtain rfl : c = d := Option.some.inj (hoc.symm.trans hod)
    have hfl : s'.inFlight = [] := by rw [State.inFlight, htx, hpark.count, List.take_zero]
    rw [(hsame c).1, (hi.unsent c hpub).1, hfl, hq, hsb]
    exact hi.drained newFd h
  · intro d
    rw [hq, (hsame d).1]
    exact hi.all d
  · intro d hd
    obtain ⟨hsent, hfail, hpd⟩ := hsame d
    rw [hsent, hfail]
    exact hi.unsent d (hpd hd)

theorem FrameInv.send {s s' : State} {fd : Fd} {n : ℕ} {c : Conn} {f : Peer → Peer} (hi : FrameInv s)
    (hs : SendInv s) (h : s.tx = .send fd n) (ho : s.owner fd = some c)
    (hfail : (s.peers c).sendFailed = false)
    (hpart : (f (s.peers c)).sent <+: (s.peers c).sent ++ s.inFlight)
    (hpub : ∀ p : Peer, (f p).published = p.published)
    (hwhole : (f (s.peers c)).sendFailed = false → (f (s.peers c)).sent = (s.peers c).sent ++ s.inFlight)
    (hpeers : s'.peers = revise s.peers (some c) f) (hcl : s'.clientFd = s.clientFd)
    (ho' : s'.owner = s.owner) (hsb : s'.sb = s.sb) (hrx : s'.rx = s.rx) (hq : s'.queued = s.queued)
    (hcount : s'.tx.count = 0) (hsend : ∀ fd n, s'.tx ≠ .send fd n) : FrameInv s' := by
  have hfl : s'.inFlight = [] := by rw [State.inFlight, hcount, List.take_zero]
  refine ⟨?_, fun fd n _ ht => absurd ht (hsend fd n), ?_, by rw [hrx, hq, hsb]; exact hi.drained,
    fun fd n _ ht => absurd ht (hsend fd n), ?_⟩
  · intro g d hg hod hfd
    rw [hcl] at hg
    obtain rfl : g = fd := hi.target fd n g h hg
    rw [ho'] at hod
    obtain rfl : c = d := Option.some.inj (ho.symm.trans hod)
    rw [hpeers, revise_same] at hfd ⊢
    rw [hwhole hfd, hfl, hq, hsb, List.append_nil]
    exact hi.current g c hg ho hfail
  · rw [hpeers, hq]
    exact revise_all (fun _ p => Within s.queued p.sent) hi.all ((hi.sending fd n c h ho hfail).shorten hpart)
  · rw [hpeers]
    apply revise_all (fun _ p => p.published = false → p.sent = [] ∧ p.sendFailed = false) hi.unsent
    intro hp
    rw [hpub, (hs fd n c h ho).2] at hp
    cases hp

section Moves

variable {s : State} {n : ℕ} {fd : Fd}

theorem FrameInv.accept (hi : FrameInv s) (hf : FdInv s) (hu : Unborn s) (hfd : s.owner fd = none)
    (hheld : ∀ n, s.tx ≠ .send fd n) :
    FrameInv { s with
      owner := Function.update s.owner fd (some s.accepted)
      peers := revise s.peers (some s.accepted) (fun _ => .fresh)
      accepted := s.accepted + 1
      rx := .handshake fd } := by
  refine hi.keep (fun _ => id) ?_ rfl rfl rfl rfl (sameSent_of_eq (accept_peers hu)) (by simp)
  intro f c hf' hoc
  have hne : f ≠ fd := by
    rcases hf' with hcl | ⟨n, ht⟩
    · exact hf.client_ne hfd hcl
    · rintro rfl
      exact hheld n ht
  simpa [Function.update_apply, hne] using hoc

theorem FrameInv.drain (hi : FrameInv s) (hgone : s.clientFd = none) (hpark : Parked s) (h : s.rx = .drain fd) :
    FrameInv { s with sb := s.sb.drop n, txChunk := s.filled n } :=
  ⟨by simp [hgone], fun fd m c ht => absurd ht (hpark.ne_send fd m), hi.all, by simp [h], by simp [hgone], hi.unsent⟩

theorem FrameInv.txRecv (hi : FrameInv s) (hp : ParkInv s) (h : s.tx = .recv) (hle : n ≤ s.sb.length) :
    FrameInv { s with sb := s.sb.drop n, txChunk := s.filled n, tx := .loadClient n } := by
  have hfl : s.inFlight = [] := by rw [State.inFlight, h]; rfl
  have hfl' : (State.inFlight { s with sb := s.sb.drop n, txChunk := s.filled n, tx := .loadClient n }) =
      s.sb.take n := filled_take hle
  refine ⟨?_, by simp, hi.all, ?_, by simp, hi.unsent⟩
  · intro fd c hcl hoc hfail
    have hcurrent := hi.current fd c hcl hoc hfail
    rw [hfl, List.append_nil] at hcurrent
    rw [hfl', List.append_assoc, List.take_append_drop]
    exact hcurrent
  · intro fd hrx
    have hpark : Parked s := hp.past (by rw [show s.rx = .publish fd from hrx]; rfl)
    rcases hpark with he | he <;> rw [he] at h <;> cases h

theorem FrameInv.txLoaded (hi : FrameInv s) (h : s.tx = .loadClient n) (hcl : s.clientFd = some fd) :
    FrameInv { s with tx := .send fd n } := by
  have hfl : s.inFlight = s.txChunk.take n := by rw [State.inFlight, h]; rfl
  refine ⟨?_, ?_, hi.all, hi.drained, ?_, hi.unsent⟩
  · intro f c hc hoc hfail
    have hcurrent := hi.current f c hc hoc hfail
    rwa [hfl] at hcurrent
  · intro f m c ht hoc hfail
    simp only [TxPc.send.injEq] at ht
    obtain ⟨rfl, rfl⟩ := ht
    have hwithin := (hi.current fd c hcl hoc hfail).within
    rwa [hfl] at hwithin
  · intro f m g ht hc
    simp only [TxPc.send.injEq] at ht
    rw [← ht.1]
    exact Option.some.inj (Eq.trans hc.symm hcl)

theorem FrameInv.txSent {c : Conn} (hi : FrameInv s) (hs : SendInv s) (h : s.tx = .send fd n) (ho : s.owner fd = some c)
    (hfail : (s.peers c).sendFailed = false) :
    FrameInv { s with peers := revise s.peers (some c) (.write (s.txChunk.take n)), tx := .loadPause } := by
  have hfl : s.inFlight = s.txChunk.take n := by rw [State.inFlight, h]; rfl
  have hsent : (Peer.write (s.txChunk.take n) (s.peers c)).sent = (s.peers c).sent ++ s.inFlight := by
    rw [hfl]; rfl
  exact hi.send (f := .write (s.txChunk.take n)) hs h ho hfail ⟨[], by rw [hsent, List.append_nil]⟩
    (fun _ => rfl) (fun _ => hsent) rfl rfl rfl rfl rfl rfl rfl (by simp)

theorem FrameInv.txSendFailed {c : Conn} {k : ℕ} (hi : FrameInv s) (hs : SendInv s) (h : s.tx = .send fd n)
    (ho : s.owner fd = some c) (hfail : (s.peers c).sendFailed = false) (hk : k < n) :
    FrameInv { s with peers := revise s.peers (some c) (.writePart (s.txChunk.take k)), tx := .storeFailed } := by
  have hfl : s.inFlight = s.txChunk.take n := by rw [State.inFlight, h]; rfl
  refine hi.send (f := .writePart (s.txChunk.take k)) hs h ho hfail ?_ (fun _ => rfl)
    (by simp [Peer.writePart]) rfl rfl rfl rfl rfl rfl rfl (by simp)
  rw [hfl]
  apply (List.prefix_append_right_inj _).mpr
  rw [← Nat.min_eq_left hk.le, ← List.take_take]
  exact List.take_prefix _ _

/-- The descriptor that the send goes to has been closed, so it is not that of the client. -/
theorem FrameInv.txSendClosed (hi : FrameInv s) (h : s.tx = .send fd n) (ho : s.owner fd = none) :
    FrameInv { s with tx := .storeFailed } := by
  refine ⟨?_, by simp, hi.all, hi.drained, by simp, hi.unsent⟩
  intro f c hcl hoc
  obtain rfl : f = fd := hi.target fd n f h hcl
  cases ho.symm.trans hoc

theorem FrameInv.cbWrite (hi : FrameInv s) (cs : List Cell) :
    FrameInv { s with sb := s.sb ++ cs, queued := s.queued ++ [cs], cb := .idle } := by
  refine ⟨?_, ?_, fun c => (hi.all c).push _, fun fd hrx => (hi.drained fd hrx).push _, hi.target, hi.unsent⟩
  · intro fd c hcl hoc hfail
    have hpushed := (hi.current fd c hcl hoc hfail).push cs
    rwa [List.append_assoc] at hpushed
  · exact fun fd n c ht hoc hfail => (hi.sending fd n c ht hoc hfail).push _

end Moves

theorem frameInv_step {s s' : State} {l : Label} (hf : FdInv s) (hu : Unborn s) (hp : ParkInv s)
    (hs : SendInv s) (hi : FrameInv s) (hc : keepsFraming s l = true) (h : Step s l s') :
    FrameInv s' := by
  simp only [keepsFraming, Bool.and_eq_true] at hc
  obtain ⟨⟨_, hheld⟩, hstop⟩ := hc
  cases h with
  | accept fd h hfd =>
    refine hi.accept hf hu hfd fun n ht => ?_
    simp [heldNotReused, ht] at hheld
  | swapOld | dropSwap =>
    exact hi.keep (by simp) (fun _ _ _ => id) rfl rfl rfl rfl (sameSent_of_eq rfl) (by simp)
  | closeRejected | closeOld =>
    exact hi.keep (fun _ => id) (fun _ _ _ => owner_of_close) rfl rfl rfl rfl (sameSent_of_eq rfl) (by simp)
  | dropClose why old h =>
    exact hi.keep (fun _ => id) (fun _ _ _ => owner_of_close) rfl rfl rfl rfl (sameSent_of_eq rfl)
      (by cases why <;> simp [Reason.after])
  | drained newFd h hsb =>
    exact ⟨hi.current, hi.sending, hi.all, fun _ _ => hsb ▸ fromPacket_nil _, hi.target, hi.unsent⟩
  | drain newFd n h hn hle => exact hi.drain (hf.gone (by rw [h]; rfl)) (hp.past (by rw [h]; rfl)) h
  | publish newFd h =>
    exact hi.publish hf (hp.past (by rw [h]; rfl)) h rfl rfl rfl rfl rfl rfl rfl
  | txRecv n h hn hle => exact hi.txRecv hp h hle
  | txLoaded n fd h hcl => exact hi.txLoaded h hcl
  | txSent fd n c h ho => exact hi.txSent hs h ho (by simpa [noSendAfterFailure, h, ho] using hstop)
  | txSendFailed fd n k c h ho hk =>
    exact hi.txSendFailed hs h ho (by simpa [noSendAfterFailure, h, ho] using hstop) hk
  | txSendClosed fd n k h ho => exact hi.txSendClosed h ho
  | txStale n h hcl => exact hi.txMove rfl rfl rfl rfl rfl rfl rfl (.inl hcl) rfl (by simp)
  | txPaused h | txRunning h | txStoreIdle h | txClearIdle h | txRecvNone h | txStoreFailed h =>
    exact hi.txMove rfl rfl rfl rfl rfl rfl rfl (.inr (by rw [h]; rfl)) rfl (by simp)
  | cbWrite pkt seen h => exact hi.cbWrite _
  | handshake | shutdownOld | recv =>
    exact hi.keep (fun _ => id) (fun _ _ _ => id) rfl rfl rfl rfl
      (sameSent_of_revise rfl (fun _ => rfl) (fun _ => rfl) (fun _ => id)) (by simp)
  | poll listening host h hcl =>
    exact hi.keep (fun _ => id) (fun _ _ _ => id) rfl rfl rfl rfl (sameSent_of_eq rfl)
      (by cases listening <;> simp)
  | dropNone why h hcl =>
    exact hi.keep (fun _ => id) (fun _ _ _ => id) rfl rfl rfl rfl (sameSent_of_eq rfl)
      (by cases why <;> simp [Reason.after])
  | stillBusy => exact hi
  | cbCall | cbNoHost | cbHost | cbOverflow | cbFits =>
    exact hi.keep (fun _ => id) (fun _ _ _ => id) rfl rfl rfl rfl (sameSent_of_eq rfl) (fun _ => id)
  | _ =>
    exact hi.keep (fun _ => id) (fun _ _ _ => id) rfl rfl rfl rfl (sameSent_of_eq rfl) (by simp)

def CbPc.pending : CbPc → List (List UInt8)
  | idle => []
  | loadClient pkt | space pkt _ | write pkt _ => [pkt]

structure QueueInv (s : State) : Prop where
  fits : ∀ pkt seen, s.cb = .write pkt seen → pkt.length ≤ streamBufferLen - s.sb.length
  order : (s.queued.map (List.map Cell.byte) ++ s.cb.pending).Sublist s.produced

theorem queueInv_init : QueueInv init := by
  constructor <;> simp [init, CbPc.pending]

theorem map_byte_cells (pkt : List UInt8) (seen : Option Conn) :
    (cells pkt seen).map Cell.byte = pkt := by
  simp [cells, Function.comp_def]

theorem queueInv_step {s s' : State} {l : Label} (hi : QueueInv s) (h : Step s l s') : QueueInv s' := by
  obtain ⟨hfits, horder⟩ := hi
  cases h with
  | drain newFd n h hn hle | txRecv n h hn hle =>
    refine ⟨fun pkt seen hcb => ?_, horder⟩
    have := hfits pkt seen hcb
    simp only [List.length_drop]
    omega
  | cbCall pkt h =>
    refine ⟨by simp, ?_⟩
    rw [h, CbPc.pending, List.append_nil] at horder
    exact horder.append (List.Sublist.refl [pkt])
  | cbNoHost pkt h hc | cbOverflow pkt seen h =>
    refine ⟨by simp, ?_⟩
    simp only [CbPc.pending, List.append_nil]
    exact (List.sublist_append_left _ _).trans horder
  | cbHost pkt fd h hc =>
    refine ⟨by simp, ?_⟩
    rw [h] at horder
    exact horder
  | cbFits pkt seen h hle =>
    refine ⟨?_, by rw [h] at horder; exact horder⟩
    intro p o hcb
    simp only [CbPc.write.injEq] at hcb
    rw [← hcb.1]
    exact hle
  | cbWrite pkt seen h =>
    refine ⟨by simp, ?_⟩
    have hwhole : (cells pkt seen).take (streamBufferLen - s.sb.length) = cells pkt seen :=
      List.take_of_length_le (by simpa [cells] using hfits pkt seen h)
    rw [h] at horder
    simpa only [hwhole, CbPc.pending, List.map_append, List.map_cons, List.map_nil, map_byte_cells,
      List.append_nil] using horder
  | _ => exact ⟨hfits, horder⟩

theorem queueInv_of_reachable {C : State → Label → Bool} {s : State}
    (h : Runs.ReachableWhile step IsInit C s) : QueueInv s :=
  h.invariant QueueInv (by rintro _ rfl; exact queueInv_init)
    fun _ _ _ _ hi _ hs => queueInv_step hi (step_cases hs)

theorem sent_whole_packets {s : State} (h : Runs.ReachableWhile step IsInit keepsFraming s) (c : Conn) :
    ∃ ps : List (List UInt8), ps.Sublist s.produced ∧ (s.peers c).sent.map Cell.byte <+: ps.flatten := by
  have hinv : FrameInv s := h.invariant FrameInv (by rintro _ rfl; exact frameInv_init)
    (fun s l s' hr hi hc hs => frameInv_step (fdInv_of_reachable hr) (unborn_of_reachable hr)
      (parkInv_of_reachable keepsFraming_idleIsFresh hr)
      (sendInv_of_reachable keepsFraming_heldNotReused hr) hi hc (step_cases hs))
  obtain ⟨ps, hps, hsent⟩ := hinv.all c
  refine ⟨ps.map (List.map Cell.byte), ?_, ?_⟩
  · have hqueued : (s.queued.map (List.map Cell.byte)).Sublist s.produced :=
      (List.sublist_append_left _ _).trans (queueInv_of_reachable h).order
    exact (hps.sublist.map _).trans hqueued
  · rw [← List.map_flatten]
    exact hsent.map _

theorem sent_first_packet :
    ∃ s, Runs.ReachableWhile step IsInit keepsFraming s ∧
      (s.peers 0).sent.map Cell.byte = [0x04, 0x10, 0x00] ∧
      ∃ ps : List (List UInt8), ps.Sublist s.produced ∧ (s.peers 0).sent.map Cell.byte <+: ps.flatten := by
  obtain ⟨s, hs, hp⟩ := Runs.exists_of_run step IsInit keepsFraming init
    (eventToFirstHost ++ [.txSend none])
    (fun s => (s.peers 0).sent.map Cell.byte = [0x04, 0x10, 0x00]) rfl (by decide)
  exact ⟨s, hs, by simpa using hp, sent_whole_packets hs 0⟩

/-- A send writes one byte of an event and fails; before `rxTask` looks at `tx_failed`, `txTask`
sends the next event on the same connection. -/
def sendAfterFailure : List Label :=
  eventToFirstHost ++ [.txSend (some 1), .tx, .cbCall [0x04, 0x0e, 0x01, 0x00], .cb, .cb, .cb,
    .tx, .tx, .txRecv 4, .tx, .txSend none]

theorem sent_torn_packet :
    ¬∀ s, Reachable s → ∀ c, ∃ ps : List (List UInt8), ps.Sublist s.produced ∧
      (s.peers c).sent.map Cell.byte <+: ps.flatten := by
  intro h
  obtain ⟨s, hs, hp⟩ := Runs.exists_of_run step IsInit Runs.always init sendAfterFailure
    (fun s => s.produced = [[0x04, 0x10, 0x00], [0x04, 0x0e, 0x01, 0x00]] &&
      (s.peers 0).sent.map Cell.byte = [0x04, 0x04, 0x0e, 0x01, 0x00]) rfl (by decide)
  simp only [Bool.and_eq_true, decide_eq_true_eq] at hp
  obtain ⟨ps, hps, hsent⟩ := h s hs 0
  rw [hp.1] at hps
  rw [hp.2] at hsent
  have hnone : ∀ ps ∈ [[0x04, 0x10, 0x00], [0x04, 0x0e, 0x01, 0x00]].sublists,
      ¬([0x04, 0x04, 0x0e, 0x01, 0x00] : List UInt8) <+: ps.flatten := by decide
  exact hnone ps (List.mem_sublists.mpr hps) hsent

end HciBridge.Bridge
