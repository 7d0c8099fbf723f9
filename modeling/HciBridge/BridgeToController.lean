import HciBridge.H4Stream
import HciBridge.BridgeCrossing

namespace HciBridge.Bridge

open H4 (parse framing)

def State.passedOf (s : State) (c : Conn) : List (List UInt8) :=
  s.passed.filterMap fun x => if x.1 = some c then some x.2 else none

def RxPc.rest : RxPc → List UInt8
  | feed chunk => chunk
  | deliver _ rest => rest
  | _ => []

def RxPc.taken : RxPc → List (List UInt8)
  | deliver pkt _ => [pkt]
  | _ => []

def RxPc.reading : RxPc → Bool
  | recv _ | feed _ | deliver _ _ => true
  | _ => false

def RxPc.afterReset : RxPc → Bool
  | setPause _ _ | awaitIdle _ _ | closeOld _ _ | clearFailed _ | drain _ | publish _ => true
  | _ => false

def Settled (s : State) (c : Conn) : Prop :=
  s.passedOf c = (parse rxPacketLen (s.peers c).received).frames

structure IntakeInv (s : State) : Prop where
  wf : s.re.Wf
  cap : s.re.buf.length = rxPacketLen
  reading : s.rx.reading = true → s.clientFd ≠ none
  reads : ∀ fd, s.rx = .recv fd → s.clientFd = some fd
  empty : s.rx.afterReset = true → s.re.view = .start
  tracked : ∀ c, s.current = some c → s.rx ≠ .dropSwap .protocolError →
    s.re.view.error = none ∧ ∃ done, (s.peers c).received = done ++ s.rx.rest ∧
      parse rxPacketLen done = s.re.view.addFront (s.passedOf c ++ s.rx.taken)
  settled : ∀ c, s.current ≠ some c ∨ s.rx = .dropSwap .protocolError → Settled s c
  heard : ∀ c, (s.peers c).received ≠ [] →
    (s.peers c).authenticated = true ∧ (s.peers c).published = true
  attributed : ∀ x ∈ s.passed, x.1 ≠ none

theorem parse_nil : parse rxPacketLen [] = .start := by simp [parse]

theorem intakeInv_init : IntakeInv init := by
  refine ⟨H4.Reassembler.init_wf _ (by rw [List.length_replicate]; decide), List.length_replicate,
    by simp [init, RxPc.reading], by simp [init], by simp [init, RxPc.afterReset],
    by simp [init, State.current], ?_, by simp [init, Peer.fresh], by simp [init]⟩
  intro c _
  simp only [Settled, init, State.passedOf, Peer.fresh, parse_nil]
  rfl

theorem IntakeInv.settledAt {s : State} (hi : IntakeInv s) (hrest : s.rx.rest = [])
    (htaken : s.rx.taken = []) (c : Conn) : Settled s c := by
  by_cases h : s.current = some c ∧ s.rx ≠ .dropSwap .protocolError
  · obtain ⟨_, done, hdone, hparse⟩ := hi.tracked c h.1 h.2
    rw [hrest, List.append_nil] at hdone
    rw [htaken, List.append_nil] at hparse
    rw [Settled, hdone, hparse, Scan.addFront_frames]
    exact (List.append_nil _).symm
  · exact hi.settled c (by tauto)

def SameHeard (s s' : State) : Prop :=
  ∀ c, (s'.peers c).received = (s.peers c).received ∧
    ((s.peers c).authenticated = true → (s'.peers c).authenticated = true) ∧
    ((s.peers c).published = true → (s'.peers c).published = true)

theorem sameHeard_of_eq {s s' : State} (h : s'.peers = s.peers) : SameHeard s s' := by
  intro c
  rw [h]
  exact ⟨rfl, id, id⟩

theorem sameHeard_of_revise {s s' : State} {o : Option Conn} {f : Peer → Peer}
    (h : s'.peers = revise s.peers o f) (hr : ∀ p : Peer, (f p).received = p.received)
    (ha : ∀ p : Peer, p.authenticated = true → (f p).authenticated = true)
    (hp : ∀ p : Peer, p.published = true → (f p).published = true) : SameHeard s s' := by
  intro c
  rw [h]
  exact revise_rel
    (fun p q => q.received = p.received ∧ (p.authenticated = true → q.authenticated = true) ∧
      (p.published = true → q.published = true))
    (fun _ => ⟨rfl, id, id⟩) (fun p => ⟨hr p, ha p, hp p⟩) c

theorem passedOf_eq {s s' : State} (h : s'.passed = s.passed) (c : Conn) :
    s'.passedOf c = s.passedOf c := by rw [State.passedOf, h, State.passedOf]

theorem IntakeInv.heard_of_same {s s' : State} (hi : IntakeInv s) (hsame : SameHeard s s') (c : Conn)
    (h : (s'.peers c).received ≠ []) :
    (s'.peers c).authenticated = true ∧ (s'.peers c).published = true := by
  obtain ⟨hr, ha, hp⟩ := hsame c
  rw [hr] at h
  exact (hi.heard c h).imp ha hp

theorem settled_of_same {s s' : State} (hpassed : s'.passed = s.passed) (hsame : SameHeard s s') {c : Conn}
    (h : Settled s c) : Settled s' c := by
  rw [Settled, passedOf_eq hpassed, (hsame c).1]
  exact h

theorem IntakeInv.frame {s s' : State} (hi : IntakeInv s) (hre : s'.re = s.re)
    (hpassed : s'.passed = s.passed) (hrx : s'.rx = s.rx) (hcl : s'.clientFd = s.clientFd)
    (ho : s'.owner = s.owner) (hsame : SameHeard s s') : IntakeInv s' := by
  have hcur : s'.current = s.current := by simp only [State.current, hcl, ho]
  refine ⟨hre ▸ hi.wf, hre ▸ hi.cap, ?_, ?_, ?_, ?_, ?_, fun c => hi.heard_of_same hsame c, ?_⟩
  · rw [hrx, hcl]; exact hi.reading
  · rw [hrx, hcl]; exact hi.reads
  · rw [hrx, hre]; exact hi.empty
  · intro c hc hne
    rw [hcur] at hc
    rw [hrx] at hne
    rw [hre, hrx, (hsame c).1, passedOf_eq hpassed]
    exact hi.tracked c hc hne
  · intro c hc
    rw [hcur, hrx] at hc
    exact settled_of_same hpassed hsame (hi.settled c hc)
  · rw [hpassed]; exact hi.attributed

theorem IntakeInv.keep {s s' : State} (hi : IntakeInv s) (hre : s'.re = s.re)
    (hpassed : s'.passed = s.passed) (hsame : SameHeard s s')
    (hcur : ∀ c, s'.current = some c → s.current = some c ∧ s.rx ≠ .dropSwap .protocolError)
    (hrest : s.rx.rest = [] ∧ s.rx.taken = []) (hrest' : s'.rx.rest = [] ∧ s'.rx.taken = [])
    (hread : s'.rx.reading = false) (hempty : s'.rx.afterReset = true → s.rx.afterReset = true) :
    IntakeInv s' := by
  refine ⟨hre ▸ hi.wf, hre ▸ hi.cap, by simp [hread], ?_, ?_, ?_, ?_, fun c => hi.heard_of_same hsame c, ?_⟩
  · intro fd h
    rw [h] at hread
    cases hread
  · intro h
    rw [hre]
    exact hi.empty (hempty h)
  · intro c hc _
    obtain ⟨hc, hne⟩ := hcur c hc
    have := hi.tracked c hc hne
    rw [hrest.1, hrest.2] at this
    rw [hre, hrest'.1, hrest'.2, (hsame c).1, passedOf_eq hpassed]
    exact this
  · exact fun c _ => settled_of_same hpassed hsame (hi.settledAt hrest.1 hrest.2 c)
  · rw [hpassed]; exact hi.attributed

theorem current_of_client {s : State} {fd : Fd} {c : Conn} (hc : s.clientFd = some fd)
    (ho : s.owner fd = some c) : s.current = some c := by rw [State.current, hc, Option.bind_some, ho]

theorem IntakeInv.current {s : State} (hi : IntakeInv s) (hf : FdInv s) (h : s.rx.reading = true) :
    ∃ c, s.current = some c ∧ (s.peers c).authenticated = true ∧ (s.peers c).published = true := by
  obtain ⟨fd, hcl⟩ := Option.ne_none_iff_exists'.mp (hi.reading h)
  obtain ⟨c, ho, hap⟩ := hf.client fd hcl
  exact ⟨c, current_of_client hcl ho, hap⟩

theorem scan_extend {done q : List UInt8} {v : Scan UInt8 H4.Error} {ps : List (List UInt8)}
    (h : parse rxPacketLen done = v.addFront ps) :
    parse rxPacketLen (done ++ q) = ((framing rxPacketLen).scan v q).addFront ps := by
  rw [← H4.scan_eq_parse, Framing.scan_append, H4.scan_eq_parse, h, Framing.scan_addFront]

theorem intakeInv_feed {s s' : State} {chunk : List UInt8} {re : H4.Reassembler}
    {r : Except H4.Error H4.FeedResult} (hf : FdInv s) (hi : IntakeInv s) (h : s.rx = .feed chunk)
    (hfeed : s.re.feed chunk = some (re, r)) (hpassed : s'.passed = s.passed)
    (hcl : s'.clientFd = s.clientFd) (ho : s'.owner = s.owner) (hpeers : s'.peers = s.peers)
    (hs' : match r with
      | .error _ => s'.re = re.reset ∧ s'.rx = .dropSwap .protocolError
      | .ok ⟨n, none⟩ => s'.re = re ∧ s'.rx = .feed (chunk.drop n)
      | .ok ⟨n, some pkt⟩ => s'.re = re ∧ s'.rx = .deliver pkt (chunk.drop n)) : IntakeInv s' := by
  obtain ⟨c, hcur, _⟩ := hi.current hf (by rw [h]; rfl)
  obtain ⟨_, done, hdone, hparse⟩ := hi.tracked c hcur (by rw [h]; simp)
  simp only [h, RxPc.rest, RxPc.taken, List.append_nil] at hdone hparse
  obtain ⟨re', r', hfeed', hwf, hcap, hfed⟩ := H4.Reassembler.feed_spec hi.wf chunk
  obtain ⟨rfl, rfl⟩ := Prod.mk.inj (Option.some.inj (hfeed.symm.trans hfeed'))
  have hcur' : s'.current = s.current := by simp only [State.current, hcl, ho]
  have hsame : SameHeard s s' := sameHeard_of_eq hpeers
  have hclient : s.clientFd ≠ none := hi.reading (by rw [h]; rfl)
  have hother : ∀ d, s'.current ≠ some d → Settled s' d := fun d hd =>
    settled_of_same hpassed hsame (hi.settled d (.inl (hcur' ▸ hd)))
  have heard := fun d => hi.heard_of_same hsame d
  have hattr : ∀ x ∈ s'.passed, x.1 ≠ none := hpassed ▸ hi.attributed
  rw [hi.cap] at hcap
  cases hfed with
  | exhausted hv he =>
    rw [hcap] at hv
    obtain ⟨hre, hrx⟩ := hs'
    rw [List.drop_length] at hrx
    refine ⟨hre ▸ hwf, hre ▸ hcap, fun _ => hcl ▸ hclient, by simp [hrx], by simp [hrx, RxPc.afterReset],
      ?_, ?_, heard, hattr⟩
    · intro d hd _
      obtain rfl : c = d := Option.some.inj (hcur.symm.trans (hcur'.symm.trans hd))
      refine ⟨hre ▸ he, done ++ chunk, ?_, ?_⟩
      · rw [hrx, hpeers, hdone, RxPc.rest, List.append_nil]
      · have htaken : s'.rx.taken = [] := by rw [hrx]; rfl
        rw [scan_extend hparse, hv, hre, htaken, passedOf_eq hpassed, List.append_nil]
    · intro d hd
      exact hother d (hd.resolve_right (by simp [hrx]))
  | packet n pkt hn hle hv he =>
    rw [hcap] at hv
    obtain ⟨hre, hrx⟩ := hs'
    refine ⟨hre ▸ hwf, hre ▸ hcap, fun _ => hcl ▸ hclient, by simp [hrx], by simp [hrx, RxPc.afterReset],
      ?_, ?_, heard, hattr⟩
    · intro d hd _
      obtain rfl : c = d := Option.some.inj (hcur.symm.trans (hcur'.symm.trans hd))
      refine ⟨by rw [hre, he]; rfl, done ++ chunk.take n, ?_, ?_⟩
      · rw [hrx, hpeers, hdone, RxPc.rest, List.append_assoc, List.take_append_drop]
      · rw [scan_extend hparse, hv, hre, hrx, passedOf_eq hpassed, he]
        simp [Scan.addFront, Scan.start, RxPc.taken]
    · intro d hd
      exact hother d (hd.resolve_right (by simp [hrx]))
  | failed n e hle hv hsome =>
    rw [hcap] at hv
    obtain ⟨hre, hrx⟩ := hs'
    refine ⟨hre ▸ H4.Reassembler.reset_wf hwf, hre ▸ hcap, by simp [hrx, RxPc.reading], by simp [hrx],
      by simp [hrx, RxPc.afterReset], fun _ _ hne => absurd hrx hne, ?_, heard, hattr⟩
    intro d _
    by_cases hd : s'.current = some d
    · obtain rfl : c = d := Option.some.inj (hcur.symm.trans (hcur'.symm.trans hd))
      have hscan : (framing rxPacketLen).scan s.re.view chunk = re.view := by
        conv_lhs => rw [← List.take_append_drop n chunk]
        rw [Framing.scan_append, hv]
        exact (framing rxPacketLen).scan_error _ _ (by simp [hsome])
      rw [Settled, passedOf_eq hpassed, hpeers, hdone, scan_extend hparse, hscan, Scan.addFront_frames]
      exact (List.append_nil _).symm
    · exact hother d hd

theorem passedOf_push (s : State) (o : Option Conn) (pkt : List UInt8) (rx : RxPc) (c : Conn) :
    State.passedOf { s with passed := s.passed ++ [(o, pkt)], rx := rx } c =
      s.passedOf c ++ if o = some c then [pkt] else [] := by
  simp only [State.passedOf, List.filterMap_append]
  split <;> simp_all

theorem intakeInv_deliver {s : State} {pkt rest : List UInt8} (hf : FdInv s) (hi : IntakeInv s)
    (h : s.rx = .deliver pkt rest) :
    IntakeInv { s with passed := s.passed ++ [(s.current, pkt)], rx := .feed rest } := by
  obtain ⟨c, hcur, _⟩ := hi.current hf (by rw [h]; rfl)
  refine ⟨hi.wf, hi.cap, fun _ => hi.reading (by rw [h]; rfl), by simp, by simp [RxPc.afterReset], ?_, ?_,
    hi.heard, ?_⟩
  · intro d hd _
    have hd : s.current = some d := hd
    have := hi.tracked d hd (by rw [h]; simp)
    rw [h] at this
    rw [passedOf_push, if_pos hd]
    simpa only [RxPc.taken, RxPc.rest, List.append_nil] using this
  · intro d hd
    have hd : s.current ≠ some d := hd.resolve_right (by simp)
    rw [Settled, passedOf_push, if_neg hd, List.append_nil]
    exact hi.settled d (.inl hd)
  · intro x hx
    rcases List.mem_append.mp hx with hx | hx
    · exact hi.attributed x hx
    · rw [List.mem_singleton.mp hx, hcur]
      simp

theorem intakeInv_recv {s : State} {fd : Fd} {c : Conn} {bytes : List UInt8} (hf : FdInv s)
    (hi : IntakeInv s) (h : s.rx = .recv fd) (ho : s.owner fd = some c) :
    IntakeInv { s with peers := revise s.peers (some c) (.receive bytes), rx := .feed bytes } := by
  have hcl : s.clientFd = some fd := hi.reads fd h
  have hcur : s.current = some c := current_of_client hcl ho
  refine ⟨hi.wf, hi.cap, fun _ => hi.reading (by rw [h]; rfl), by simp, by simp [RxPc.afterReset], ?_, ?_, ?_,
    hi.attributed⟩
  · intro d hd _
    obtain rfl : c = d := Option.some.inj (hcur.symm.trans hd)
    obtain ⟨herr, done, hdone, hparse⟩ := hi.tracked c hcur (by rw [h]; simp)
    rw [h] at hdone hparse
    refine ⟨herr, done, ?_, hparse⟩
    simp only [RxPc.rest, List.append_nil] at hdone
    simp only [revise_same, Peer.receive, RxPc.rest, hdone]
  · intro d hd
    have hd : s.current ≠ some d := hd.resolve_right (by simp)
    have hcd : c ≠ d := by rintro rfl; exact hd hcur
    have hsettled := hi.settled d (.inl hd)
    rw [Settled, State.passedOf]
    simp only [revise_ne hcd]
    exact hsettled
  · obtain ⟨e, hoe, hap⟩ := hf.client fd hcl
    obtain rfl : c = e := Option.some.inj (ho.symm.trans hoe)
    exact revise_all (fun _ p => p.received ≠ [] → p.authenticated = true ∧ p.published = true) hi.heard
      fun _ => hap

theorem intakeInv_publish {s s' : State} {newFd : Fd} (hf : FdInv s) (hi : IntakeInv s)
    (h : s.rx = .publish newFd) (hre : s'.re = s.re) (hpassed : s'.passed = s.passed)
    (hrx : s'.rx = .clearPause) (hcl : s'.clientFd = some newFd) (ho : s'.owner = s.owner)
    (hpeers : s'.peers = revise s.peers (s.owner newFd) .setPublished) : IntakeInv s' := by
  obtain ⟨_, c, hoc, hpub, hauth⟩ := hf.new newFd (by rw [h]; rfl)
  have hsame : SameHeard s s' :=
    sameHeard_of_revise hpeers (fun _ => rfl) (fun _ => id) (fun _ _ => rfl)
  have hsettled : ∀ d, Settled s d := hi.settledAt (by rw [h]; rfl) (by rw [h]; rfl)
  refine ⟨hre ▸ hi.wf, hre ▸ hi.cap, by simp [hrx, RxPc.reading], by simp [hrx], by simp [hrx, RxPc.afterReset],
    ?_, fun d _ => settled_of_same hpassed hsame (hsettled d), fun d => hi.heard_of_same hsame d,
    hpassed ▸ hi.attributed⟩
  intro d hd _
  rw [State.current, hcl, ho, Option.bind_some] at hd
  obtain rfl : c = d := Option.some.inj (hoc.symm.trans hd)
  -- the reassembler is fresh, and so is the stream of a connection not published before
  have hview : s'.re.view = .start := by rw [hre]; exact hi.empty (by rw [h]; rfl)
  have hsilent : (s.peers c).received = [] := by
    by_contra hne
    rw [(hi.heard c hne).2] at hpub
    cases hpub
  have hnone : s.passedOf c = [] := by
    have := hsettled c
    rwa [Settled, hsilent, parse_nil] at this
  refine ⟨by rw [hview]; rfl, [], ?_, ?_⟩
  · rw [(hsame c).1, hsilent, hrx]
    rfl
  · rw [parse_nil, passedOf_eq hpassed, hnone, hrx, hview]
    rfl

theorem intakeInv_clearIdle {s : State} {newFd : Fd} {old : Option Fd} (hf : FdInv s) (hi : IntakeInv s)
    (h : s.rx = .clearIdle newFd old) :
    IntakeInv { s with re := s.re.reset, txIdle := false, rx := .setPause newFd old } := by
  have hgone : s.clientFd = none := hf.gone (by rw [h]; rfl)
  have hcur : s.current = none := by rw [State.current, hgone, Option.bind_none]
  refine ⟨H4.Reassembler.reset_wf hi.wf, hi.cap, by simp [RxPc.reading], by simp,
    fun _ => H4.Reassembler.view_reset s.re, ?_, fun c _ => hi.settled c (.inl (by simp [hcur])), hi.heard,
    hi.attributed⟩
  intro c hc
  cases hcur.symm.trans hc

theorem intakeInv_ready {s : State} {fd : Fd} (hi : IntakeInv s) (h : s.rx = .checkClient)
    (hcl : s.clientFd = some fd) : IntakeInv { s with rx := .recv fd } := by
  refine ⟨hi.wf, hi.cap, by simp [hcl], ?_, by simp [RxPc.afterReset], ?_, ?_, hi.heard, hi.attributed⟩
  · intro f hrx
    simp only [RxPc.recv.injEq] at hrx
    rw [← hrx]
    exact hcl
  · intro c hcur _
    have := hi.tracked c hcur (by rw [h]; simp)
    rw [h] at this
    exact this
  · intro c _
    exact hi.settledAt (by rw [h]; rfl) (by rw [h]; rfl) c

theorem intakeInv_accept {s : State} {fd : Fd} (hf : FdInv s) (hu : Unborn s) (hi : IntakeInv s)
    (h : s.rx = .accept) (hfd : s.owner fd = none) :
    IntakeInv { s with
      owner := Function.update s.owner fd (some s.accepted)
      peers := revise s.peers (some s.accepted) (fun _ => .fresh)
      accepted := s.accepted + 1
      rx := .handshake fd } := by
  refine hi.keep rfl rfl (sameHeard_of_eq (accept_peers hu)) ?_ (by rw [h]; exact ⟨rfl, rfl⟩) ⟨rfl, rfl⟩ rfl
    (by simp [RxPc.afterReset])
  intro c hcur
  refine ⟨?_, by rw [h]; simp⟩
  obtain ⟨f, hcl, ho⟩ := Option.bind_eq_some_iff.mp hcur
  simp only [Function.update_of_ne (hf.client_ne hfd hcl)] at ho
  exact current_of_client hcl ho

theorem intakeInv_step {s s' : State} {l : Label} (hf : FdInv s) (hu : Unborn s) (hi : IntakeInv s)
    (h : Step s l s') : IntakeInv s' := by
  cases h with
  | feedError chunk re e h hne hfeed => exact intakeInv_feed hf hi h hfeed rfl rfl rfl rfl ⟨rfl, rfl⟩
  | feedMore chunk re n h hne hfeed => exact intakeInv_feed hf hi h hfeed rfl rfl rfl rfl ⟨rfl, rfl⟩
  | feedPacket chunk re n pkt h hne hfeed => exact intakeInv_feed hf hi h hfeed rfl rfl rfl rfl ⟨rfl, rfl⟩
  | deliver pkt rest h => exact intakeInv_deliver hf hi h
  | recv fd c bytes h ho hne hle => exact intakeInv_recv hf hi h ho
  | publish newFd h => exact intakeInv_publish hf hi h rfl rfl rfl rfl rfl rfl
  | clearIdle newFd old h => exact intakeInv_clearIdle hf hi h
  | ready fd h hc hcl => exact intakeInv_ready hi h hcl
  | accept fd h hfd => exact intakeInv_accept hf hu hi h hfd
  | closeRejected newFd h =>
    have hne := (hf.new newFd (by rw [h]; rfl)).1
    exact hi.keep rfl rfl (sameHeard_of_eq rfl)
      (fun c hcur => ⟨(current_of_close hne).symm.trans hcur, by rw [h]; simp⟩)
      (by rw [h]; exact ⟨rfl, rfl⟩) ⟨rfl, rfl⟩ rfl (by simp [RxPc.afterReset])
  | closeOld newFd old h =>
    have hne : s.clientFd ≠ some old := by rw [hf.gone (by rw [h]; rfl)]; simp
    exact hi.keep rfl rfl (sameHeard_of_eq rfl)
      (fun c hcur => ⟨(current_of_close hne).symm.trans hcur, by rw [h]; simp⟩)
      (by rw [h]; exact ⟨rfl, rfl⟩) ⟨rfl, rfl⟩ rfl (by rw [h]; exact id)
  | dropClose why old h =>
    have hne : s.clientFd ≠ some old := by rw [hf.gone (by rw [h]; rfl)]; simp
    exact hi.keep rfl rfl (sameHeard_of_eq rfl)
      (fun c hcur => ⟨(current_of_close hne).symm.trans hcur, by rw [h]; simp⟩)
      (by rw [h]; exact ⟨rfl, rfl⟩) (by cases why <;> exact ⟨rfl, rfl⟩) (by cases why <;> rfl)
      (by cases why <;> simp [Reason.after, RxPc.afterReset])
  | swapOld newFd old h hc | dropSwap why old h hc =>
    exact hi.keep rfl rfl (sameHeard_of_eq rfl) (by simp [State.current]) (by rw [h]; exact ⟨rfl, rfl⟩)
      ⟨rfl, rfl⟩ rfl (by simp [RxPc.afterReset])
  | dropNone why h hc =>
    exact hi.keep rfl rfl (sameHeard_of_eq rfl) (by simp [State.current, hc]) (by rw [h]; exact ⟨rfl, rfl⟩)
      (by cases why <;> exact ⟨rfl, rfl⟩) (by cases why <;> rfl)
      (by cases why <;> simp [Reason.after, RxPc.afterReset])
  | handshake newFd h =>
    exact hi.keep rfl rfl (sameHeard_of_revise rfl (fun _ => rfl) (fun _ _ => rfl) (fun _ => id))
      (fun c hcur => ⟨hcur, by rw [h]; simp⟩) (by rw [h]; exact ⟨rfl, rfl⟩) ⟨rfl, rfl⟩ rfl
      (by simp [RxPc.afterReset])
  | shutdownOld newFd old h =>
    exact hi.keep rfl rfl (sameHeard_of_revise rfl (fun _ => rfl) (fun _ => id) (fun _ => id))
      (fun c hcur => ⟨hcur, by rw [h]; simp⟩) (by rw [h]; exact ⟨rfl, rfl⟩) ⟨rfl, rfl⟩ rfl
      (by simp [RxPc.afterReset])
  | poll listening host h hc =>
    exact hi.keep rfl rfl (sameHeard_of_eq rfl) (fun c hcur => ⟨hcur, by rw [h]; simp⟩)
      (by rw [h]; exact ⟨rfl, rfl⟩) (by cases listening <;> exact ⟨rfl, rfl⟩) (by cases listening <;> rfl)
      (by cases listening <;> simp [RxPc.afterReset])
  | setPause newFd old h | idleNone newFd h | idleOld newFd old h | clearFailed newFd h | drained newFd h =>
    exact hi.keep rfl rfl (sameHeard_of_eq rfl) (fun c hcur => ⟨hcur, by rw [h]; simp⟩)
      (by rw [h]; exact ⟨rfl, rfl⟩) ⟨rfl, rfl⟩ rfl (by rw [h]; exact id)
  | stillBusy => exact hi
  | drain newFd n h hn hle => exact hi.frame rfl rfl rfl rfl rfl (sameHeard_of_eq rfl)
  | txSent fd n c h ho | txSendFailed fd n k c h ho =>
    exact hi.frame rfl rfl rfl rfl rfl
      (sameHeard_of_revise rfl (fun _ => rfl) (fun _ => id) (fun _ => id))
  | txPaused | txRunning | txStoreIdle | txClearIdle | txRecvNone | txRecv | txStale | txLoaded
  | txSendClosed | txStoreFailed | cbCall | cbNoHost | cbHost | cbOverflow | cbFits | cbWrite =>
    exact hi.frame rfl rfl rfl rfl rfl (sameHeard_of_eq rfl)
  | loadClient h | pollFailed h | acceptFailed h | handshakeFailed _ h | swapNone _ h | clearPause h
  | sendFailed h | noFailure h | notReady h | recvNone _ h | chunkDone h =>
    exact hi.keep rfl rfl (sameHeard_of_eq rfl) (fun c hcur => ⟨hcur, by rw [h]; simp⟩)
      (by rw [h]; exact ⟨rfl, rfl⟩) ⟨rfl, rfl⟩ rfl (by simp [RxPc.afterReset])

theorem intakeInv_of_reachable {C : State → Label → Bool} {s : State}
    (h : Runs.ReachableWhile step IsInit C s) : IntakeInv s :=
  h.invariant IntakeInv (by rintro _ rfl; exact intakeInv_init) fun _ _ _ hr hi _ hs =>
    intakeInv_step (fdInv_of_reachable hr) (unborn_of_reachable hr) hi (step_cases hs)

theorem revise_received {peers : Conn → Peer} {o : Option Conn} {f : Peer → Peer}
    (h : ∀ p : Peer, (f p).received = p.received) (c : Conn) :
    (revise peers o f c).received = (peers c).received :=
  revise_rel (fun p q => q.received = p.received) (fun _ => rfl) h c

theorem received_from_current {s s' : State} {l : Label} (hf : FdInv s) (hu : Unborn s) (hi : IntakeInv s)
    (h : Step s l s') {c : Conn} (hne : (s'.peers c).received ≠ (s.peers c).received) :
    s.current = some c ∧ (s.peers c).authenticated = true := by
  cases h with
  | recv fd d bytes h ho =>
    by_cases hcd : d = c
    · subst hcd
      obtain ⟨e, hcur, hauth, _⟩ := hi.current hf (by rw [h]; rfl)
      obtain rfl : d = e := Option.some.inj ((current_of_client (hi.reads fd h) ho).symm.trans hcur)
      exact ⟨hcur, hauth⟩
    · exact absurd (by simp only [revise_ne hcd]) hne
  | accept fd h hfd => exact absurd (by simp only [accept_peers hu]) hne
  | handshake | publish | shutdownOld | txSent | txSendFailed =>
    refine absurd (revise_received ?_ c) hne
    exact fun _ => rfl
  | _ => exact absurd rfl hne

theorem passed_for_current {s s' : State} {l : Label} (h : Step s l s') :
    s'.passed = s.passed ∨ ∃ pkt, s'.passed = s.passed ++ [(s.current, pkt)] := by
  cases h with
  | deliver pkt rest h => exact .inr ⟨pkt, rfl⟩
  | _ => exact .inl rfl

theorem IntakeInv.passedOf_isPrefix {s : State} (hi : IntakeInv s) (c : Conn) :
    s.passedOf c <+: (parse rxPacketLen (s.peers c).received).frames := by
  by_cases h : s.current = some c ∧ s.rx ≠ .dropSwap .protocolError
  · obtain ⟨_, done, hdone, hparse⟩ := hi.tracked c h.1 h.2
    rw [hdone, scan_extend hparse, Scan.addFront_frames, List.append_assoc]
    exact List.prefix_append _ _
  · have hsettled : Settled s c := hi.settled c (by tauto)
    rw [hsettled]

theorem flatten_frames_isPrefix (bytes : List UInt8) : (parse rxPacketLen bytes).frames.flatten <+: bytes := by
  obtain ⟨t, ht, htaken, _⟩ := (framing rxPacketLen).scan_taken .start bytes
  rw [H4.scan_eq_parse] at htaken
  have hpre : (parse rxPacketLen bytes).frames.flatten <+: t :=
    ⟨(parse rxPacketLen bytes).pending, htaken⟩
  exact hpre.trans ht

theorem mem_passedOf {s : State} {c : Conn} {pkt : List UInt8} (h : (some c, pkt) ∈ s.passed) :
    pkt ∈ s.passedOf c := List.mem_filterMap.mpr ⟨_, h, by simp⟩

theorem complete_of_mem_frames {bytes pkt : List UInt8} (h : pkt ∈ (parse rxPacketLen bytes).frames) :
    H4.total rxPacketLen pkt = .ok (some pkt.length) := by
  rw [← H4.scan_eq_parse] at h
  rcases (framing rxPacketLen).scan_complete .start bytes pkt h with hstart | hlen
  · cases hstart
  · exact hlen

theorem passed_is_parse {s : State} (h : Reachable s) :
    (∀ x ∈ s.passed, ∃ c, x.1 = some c ∧ (s.peers c).authenticated = true ∧
      H4.total rxPacketLen x.2 = .ok (some x.2.length)) ∧
    (∀ c, s.passedOf c <+: (parse rxPacketLen (s.peers c).received).frames ∧
      (s.passedOf c).flatten <+: (s.peers c).received ∧
      (s.rx = .loadClient → s.passedOf c = (parse rxPacketLen (s.peers c).received).frames)) ∧
    ∀ l s', step s l = some s' →
      (s'.passed = s.passed ∨ ∃ pkt, s'.passed = s.passed ++ [(s.current, pkt)]) ∧
      ∀ c, (s'.peers c).received ≠ (s.peers c).received →
        s.current = some c ∧ (s.peers c).authenticated = true := by
  have hf := fdInv_of_reachable h
  have hu := unborn_of_reachable h
  have hi := intakeInv_of_reachable h
  refine ⟨?_, ?_, ?_⟩
  · rintro ⟨o, pkt⟩ hx
    obtain ⟨c, rfl⟩ := Option.ne_none_iff_exists'.mp (hi.attributed _ hx)
    have hmem := (hi.passedOf_isPrefix c).subset (mem_passedOf hx)
    have hlen := complete_of_mem_frames hmem
    have hreceived : (s.peers c).received ≠ [] := by
      intro hnil
      rw [hnil, parse_nil] at hmem
      cases hmem
    exact ⟨c, rfl, (hi.heard c hreceived).1, hlen⟩
  · intro c
    have hpre := hi.passedOf_isPrefix c
    refine ⟨hpre, hpre.flatten.trans (flatten_frames_isPrefix _), fun hrx => ?_⟩
    exact hi.settledAt (by rw [hrx]; rfl) (by rw [hrx]; rfl) c
  · exact fun l s' hs => ⟨passed_for_current (step_cases hs),
      fun c hne => received_from_current hf hu hi (step_cases hs) hne⟩

def resetFromFirstHost : List Label :=
  firstHost ++ [.rx, .rx, .rx, .rx,
    .rx, .rxPoll (some (false, true)), .rx, .rx, .rxRecv [0x01, 0x03], .rx, .rx,
    .rx, .rxPoll (some (false, true)), .rx, .rx, .rxRecv [0x0c, 0x00], .rx, .rx, .rx]

theorem passed_reset_command :
    ∃ s, Reachable s ∧ s.passed = [(some 0, [0x01, 0x03, 0x0c, 0x00])] ∧
      (s.peers 0).authenticated = true ∧
      s.passedOf 0 = (parse rxPacketLen (s.peers 0).received).frames := by
  obtain ⟨s, hs, hp⟩ := Runs.exists_of_run step IsInit Runs.always init resetFromFirstHost
    (fun s => s.passed = [(some 0, [0x01, 0x03, 0x0c, 0x00])] && s.rx = .loadClient) rfl (by decide +kernel)
  simp only [Bool.and_eq_true, decide_eq_true_eq] at hp
  obtain ⟨hall, hparse, _⟩ := passed_is_parse hs
  obtain ⟨c, hc, hauth, _⟩ := hall (some 0, [0x01, 0x03, 0x0c, 0x00]) (by simp [hp.1])
  cases hc
  exact ⟨s, hs, hp.1, hauth, (hparse 0).2.2 hp.2⟩

end HciBridge.Bridge
