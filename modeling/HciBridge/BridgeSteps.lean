import HciBridge.Bridge

namespace HciBridge.Bridge

inductive Step (s : State) : Label → State → Prop
  | loadClient (h : s.rx = .loadClient) : Step s .rx { s with client := s.clientFd, rx := .poll }
  | pollFailed (h : s.rx = .poll) : Step s (.rxPoll none) { s with rx := .loadClient }
  | poll (listening host : Bool) (h : s.rx = .poll) (hc : host = true → s.client.isSome) :
      Step s (.rxPoll (some (listening, host)))
        { s with hostReady := host, rx := if listening then .accept else .checkFailed }
  | acceptFailed (h : s.rx = .accept) : Step s (.rxAccept none) { s with rx := .checkFailed }
  | accept (fd : Fd) (h : s.rx = .accept) (hfd : s.owner fd = none) :
      Step s (.rxAccept (some fd))
        { s with
          owner := Function.update s.owner fd (some s.accepted)
          peers := revise s.peers (some s.accepted) (fun _ => .fresh)
          accepted := s.accepted + 1
          rx := .handshake fd }
  | handshakeFailed (newFd : Fd) (h : s.rx = .handshake newFd) :
      Step s (.rxHandshake false) { s with rx := .closeRejected newFd }
  | handshake (newFd : Fd) (h : s.rx = .handshake newFd) :
      Step s (.rxHandshake true)
        { s with peers := revise s.peers (s.owner newFd) .setAuthenticated, rx := .swapOld newFd }
  | closeRejected (newFd : Fd) (h : s.rx = .closeRejected newFd) :
      Step s .rx { s with owner := Function.update s.owner newFd none, rx := .checkFailed }
  | swapNone (newFd : Fd) (h : s.rx = .swapOld newFd) (hc : s.clientFd = none) :
      Step s .rx { s with rx := .clearIdle newFd none }
  | swapOld (newFd old : Fd) (h : s.rx = .swapOld newFd) (hc : s.clientFd = some old) :
      Step s .rx { s with clientFd := none, rx := .shutdownOld newFd old }
  | shutdownOld (newFd old : Fd) (h : s.rx = .shutdownOld newFd old) :
      Step s .rx
        { s with peers := revise s.peers (s.owner old) .shutdown, rx := .clearIdle newFd (some old) }
  | clearIdle (newFd : Fd) (old : Option Fd) (h : s.rx = .clearIdle newFd old) :
      Step s .rx { s with re := s.re.reset, txIdle := false, rx := .setPause newFd old }
  | setPause (newFd : Fd) (old : Option Fd) (h : s.rx = .setPause newFd old) :
      Step s .rx { s with txPause := true, rx := .awaitIdle newFd old }
  | stillBusy (newFd : Fd) (old : Option Fd) (h : s.rx = .awaitIdle newFd old)
      (hi : s.txIdle = false) : Step s .rx s
  | idleNone (newFd : Fd) (h : s.rx = .awaitIdle newFd none) (hi : s.txIdle = true) :
      Step s .rx { s with rx := .clearFailed newFd }
  | idleOld (newFd old : Fd) (h : s.rx = .awaitIdle newFd (some old)) (hi : s.txIdle = true) :
      Step s .rx { s with rx := .closeOld newFd old }
  | closeOld (newFd old : Fd) (h : s.rx = .closeOld newFd old) :
      Step s .rx { s with owner := Function.update s.owner old none, rx := .clearFailed newFd }
  | clearFailed (newFd : Fd) (h : s.rx = .clearFailed newFd) :
      Step s .rx { s with txFailed := false, rx := .drain newFd }
  | drained (newFd : Fd) (h : s.rx = .drain newFd) (hsb : s.sb = []) :
      Step s (.rxDrain 0) { s with rx := .publish newFd }
  | drain (newFd : Fd) (n : ℕ) (h : s.rx = .drain newFd) (hn : 0 < n) (hle : n ≤ s.sb.length) :
      Step s (.rxDrain n) { s with sb := s.sb.drop n, txChunk := s.filled n }
  | publish (newFd : Fd) (h : s.rx = .publish newFd) :
      Step s .rx
        { s with
          peers := revise s.peers (s.owner newFd) .setPublished
          clientFd := some newFd
          rx := .clearPause }
  | clearPause (h : s.rx = .clearPause) : Step s .rx { s with txPause := false, rx := .checkFailed }
  | sendFailed (h : s.rx = .checkFailed) (hf : s.txFailed = true) :
      Step s .rx { s with txFailed := false, rx := .dropSwap .sendFailed }
  | noFailure (h : s.rx = .checkFailed) (hf : s.txFailed = false) :
      Step s .rx { s with rx := .checkClient }
  | ready (fd : Fd) (h : s.rx = .checkClient) (hc : s.client = some fd) (hf : s.clientFd = some fd) :
      Step s .rx { s with rx := .recv fd }
  | notReady (h : s.rx = .checkClient) : Step s .rx { s with rx := .loadClient }
  | recvNone (fd : Fd) (h : s.rx = .recv fd) :
      Step s (.rxRecv []) { s with rx := .dropSwap .hostClosed }
  | recv (fd : Fd) (c : Conn) (bytes : List UInt8) (h : s.rx = .recv fd) (ho : s.owner fd = some c)
      (hne : bytes ≠ []) (hle : bytes.length ≤ rxChunkLen) :
      Step s (.rxRecv bytes) { s with peers := revise s.peers (some c) (.receive bytes), rx := .feed bytes }
  | chunkDone (h : s.rx = .feed []) : Step s .rx { s with rx := .loadClient }
  | feedError (chunk : List UInt8) (re : H4.Reassembler) (e : H4.Error) (h : s.rx = .feed chunk)
      (hne : chunk ≠ []) (hf : s.re.feed chunk = some (re, .error e)) :
      Step s .rx { s with re := re.reset, rx := .dropSwap .protocolError }
  | feedMore (chunk : List UInt8) (re : H4.Reassembler) (n : ℕ) (h : s.rx = .feed chunk)
      (hne : chunk ≠ []) (hf : s.re.feed chunk = some (re, .ok ⟨n, none⟩)) :
      Step s .rx { s with re := re, rx := .feed (chunk.drop n) }
  | feedPacket (chunk : List UInt8) (re : H4.Reassembler) (n : ℕ) (pkt : List UInt8)
      (h : s.rx = .feed chunk) (hne : chunk ≠ [])
      (hf : s.re.feed chunk = some (re, .ok ⟨n, some pkt⟩)) :
      Step s .rx { s with re := re, rx := .deliver pkt (chunk.drop n) }
  | deliver (pkt rest : List UInt8) (h : s.rx = .deliver pkt rest) :
      Step s .rx { s with passed := s.passed ++ [(s.current, pkt)], rx := .feed rest }
  | dropNone (why : Reason) (h : s.rx = .dropSwap why) (hc : s.clientFd = none) :
      Step s .rx { s with rx := why.after }
  | dropSwap (why : Reason) (old : Fd) (h : s.rx = .dropSwap why) (hc : s.clientFd = some old) :
      Step s .rx { s with clientFd := none, rx := .dropClose old why }
  | dropClose (why : Reason) (old : Fd) (h : s.rx = .dropClose old why) :
      Step s .rx { s with owner := Function.update s.owner old none, rx := why.after }
  | txPaused (h : s.tx = .loadPause) (hp : s.txPause = true) : Step s .tx { s with tx := .storeIdle }
  | txRunning (h : s.tx = .loadPause) (hp : s.txPause = false) : Step s .tx { s with tx := .clearIdle }
  | txStoreIdle (h : s.tx = .storeIdle) : Step s .tx { s with txIdle := true, tx := .loadPause }
  | txClearIdle (h : s.tx = .clearIdle) : Step s .tx { s with txIdle := false, tx := .recv }
  | txRecvNone (h : s.tx = .recv) (hsb : s.sb = []) : Step s (.txRecv 0) { s with tx := .loadPause }
  | txRecv (n : ℕ) (h : s.tx = .recv) (hn : 0 < n) (hle : n ≤ s.sb.length) :
      Step s (.txRecv n) { s with sb := s.sb.drop n, txChunk := s.filled n, tx := .loadClient n }
  | txStale (n : ℕ) (h : s.tx = .loadClient n) (hc : s.clientFd = none) :
      Step s .tx { s with tx := .loadPause }
  | txLoaded (n : ℕ) (fd : Fd) (h : s.tx = .loadClient n) (hc : s.clientFd = some fd) :
      Step s .tx { s with tx := .send fd n }
  | txSendClosed (fd : Fd) (n k : ℕ) (h : s.tx = .send fd n) (ho : s.owner fd = none) :
      Step s (.txSend (some k)) { s with tx := .storeFailed }
  | txSent (fd : Fd) (n : ℕ) (c : Conn) (h : s.tx = .send fd n) (ho : s.owner fd = some c) :
      Step s (.txSend none)
        { s with peers := revise s.peers (some c) (.write (s.txChunk.take n)), tx := .loadPause }
  | txSendFailed (fd : Fd) (n k : ℕ) (c : Conn) (h : s.tx = .send fd n) (ho : s.owner fd = some c)
      (hk : k < n) :
      Step s (.txSend (some k))
        { s with peers := revise s.peers (some c) (.writePart (s.txChunk.take k)), tx := .storeFailed }
  | txStoreFailed (h : s.tx = .storeFailed) : Step s .tx { s with txFailed := true, tx := .loadPause }
  | cbCall (pkt : List UInt8) (h : s.cb = .idle) :
      Step s (.cbCall pkt) { s with produced := s.produced ++ [pkt], cb := .loadClient pkt }
  | cbNoHost (pkt : List UInt8) (h : s.cb = .loadClient pkt) (hc : s.clientFd = none) :
      Step s .cb { s with cb := .idle }
  | cbHost (pkt : List UInt8) (fd : Fd) (h : s.cb = .loadClient pkt) (hc : s.clientFd = some fd) :
      Step s .cb { s with cb := .space pkt s.current }
  | cbOverflow (pkt : List UInt8) (seen : Option Conn) (h : s.cb = .space pkt seen) :
      Step s .cb { s with cb := .idle }
  | cbFits (pkt : List UInt8) (seen : Option Conn) (h : s.cb = .space pkt seen)
      (hle : pkt.length ≤ streamBufferLen - s.sb.length) : Step s .cb { s with cb := .write pkt seen }
  | cbWrite (pkt : List UInt8) (seen : Option Conn) (h : s.cb = .write pkt seen) :
      Step s .cb
        { s with
          sb := s.sb ++ (cells pkt seen).take (streamBufferLen - s.sb.length)
          queued := s.queued ++ [(cells pkt seen).take (streamBufferLen - s.sb.length)]
          cb := .idle }

theorem sbRecvGives_zero {sb : List Cell} (h : sbRecvGives sb 0 = true) : sb = [] := by
  simpa [sbRecvGives] using h

theorem sbRecvGives_le {sb : List Cell} {n : ℕ} (hn : n ≠ 0) (h : sbRecvGives sb n = true) :
    n ≤ sb.length := by
  simp only [sbRecvGives, if_neg hn, Bool.and_eq_true, decide_eq_true_eq] at h
  exact h.2

theorem filled_zero {s : State} (h : s.sb = []) : s.filled 0 = s.txChunk := by simp [State.filled, h]

theorem acceptClient_step {s s' : State} {l : Label} (h : acceptClient s l = some s') : Step s l s' := by
  unfold acceptClient at h
  split at h
  case h_1 hpc => cases h; exact .acceptFailed hpc
  case h_2 fd hpc =>
    split at h
    case isTrue hfd => cases h; exact .accept fd hpc hfd
    case isFalse => cases h
  case h_3 newFd hpc => cases h; exact .handshakeFailed newFd hpc
  case h_4 newFd hpc => cases h; exact .handshake newFd hpc
  case h_5 newFd hpc => cases h; exact .closeRejected newFd hpc
  case h_6 newFd hpc =>
    split at h
    case h_1 hc => cases h; exact .swapNone newFd hpc hc
    case h_2 old hc => cases h; exact .swapOld newFd old hpc hc
  case h_7 newFd old hpc => cases h; exact .shutdownOld newFd old hpc
  case h_8 newFd old hpc => cases h; exact .clearIdle newFd old hpc
  case h_9 newFd old hpc => cases h; exact .setPause newFd old hpc
  case h_10 newFd old hpc =>
    split at h
    case isTrue hi =>
      cases old with
      | none => cases h; exact .idleNone newFd hpc hi
      | some old => cases h; exact .idleOld newFd old hpc hi
    case isFalse hi => cases h; exact .stillBusy newFd old hpc (by simpa using hi)
  case h_11 newFd old hpc => cases h; exact .closeOld newFd old hpc
  case h_12 newFd hpc => cases h; exact .clearFailed newFd hpc
  case h_13 newFd n hpc =>
    unfold drainStreamBuffer at h
    split at h
    case isTrue hg =>
      cases h
      by_cases hn : n = 0
      · subst hn
        have hsb := sbRecvGives_zero hg
        simpa [filled_zero hsb, hsb] using Step.drained newFd hpc hsb
      · simpa [hn, hpc] using Step.drain newFd n hpc (Nat.pos_of_ne_zero hn) (sbRecvGives_le hn hg)
    case isFalse => cases h
  case h_14 newFd hpc => cases h; exact .publish newFd hpc
  case h_15 hpc => cases h; exact .clearPause hpc
  case h_16 => cases h

theorem dropClient_step {s s' : State} {l : Label} (h : dropClient s l = some s') : Step s l s' := by
  unfold dropClient at h
  split at h
  case h_1 why hpc =>
    split at h
    case h_1 hc => cases h; exact .dropNone why hpc hc
    case h_2 old hc => cases h; exact .dropSwap why old hpc hc
  case h_2 why old hpc => cases h; exact .dropClose old why hpc
  case h_3 => cases h

theorem feedChunk_step {s s' : State} {chunk : List UInt8} (hpc : s.rx = .feed chunk)
    (hne : chunk ≠ []) (h : feedChunk s chunk = some s') : Step s .rx s' := by
  unfold feedChunk at h
  split at h
  case h_1 => cases h
  case h_2 re e hf => cases h; exact .feedError chunk re e hpc hne hf
  case h_3 re n hf => cases h; exact .feedMore chunk re n hpc hne hf
  case h_4 re n pkt hf => cases h; exact .feedPacket chunk re n pkt hpc hne hf

theorem rxTask_step {s s' : State} {l : Label} (h : rxTask s l = some s') : Step s l s' := by
  unfold rxTask at h
  split at h
  case h_1 hpc => cases h; exact .loadClient hpc
  case h_2 hpc => cases h; exact .pollFailed hpc
  case h_3 listening host hpc =>
    split at h
    case isTrue => cases h
    case isFalse hc =>
      cases h
      refine .poll listening host hpc fun hh => ?_
      cases hcl : s.client with
      | none => simp [hh, hcl] at hc
      | some fd => rfl
  case h_4 hpc =>
    cases h
    cases hf : s.txFailed with
    | true => simpa [hf] using Step.sendFailed hpc hf
    | false => simpa [hf] using Step.noFailure hpc hf
  case h_5 hpc =>
    split at h
    case h_1 => cases h; exact .notReady hpc
    case h_2 fd hc =>
      split at h
      case isTrue hr =>
        cases h
        simp only [Bool.and_eq_true, decide_eq_true_eq] at hr
        exact .ready fd hpc hc hr.2
      case isFalse => cases h; exact .notReady hpc
  case h_6 fd bytes hpc =>
    split at h
    case isTrue hg =>
      cases h
      simp only [Bool.and_eq_true, Bool.or_eq_true, decide_eq_true_eq] at hg
      by_cases hne : bytes = []
      · subst hne
        have hp : revise s.peers (s.owner fd) (.receive []) = s.peers := by
          funext c
          simp [revise, Peer.receive]
        simpa [hp] using Step.recvNone fd hpc
      · obtain ⟨c, ho⟩ := Option.isSome_iff_exists.mp (hg.2.resolve_left hne)
        simpa [ho, hne] using Step.recv fd c bytes hpc ho hne hg.1
    case isFalse => cases h
  case h_7 chunk hpc =>
    split at h
    case isTrue hne =>
      cases h
      subst hne
      exact .chunkDone hpc
    case isFalse hne => exact feedChunk_step hpc hne h
  case h_8 pkt rest hpc => cases h; exact .deliver pkt rest hpc
  case h_9 => exact dropClient_step h
  case h_10 => exact dropClient_step h
  case h_11 => exact acceptClient_step h

theorem txTask_step {s s' : State} {l : Label} (h : txTask s l = some s') : Step s l s' := by
  unfold txTask at h
  split at h
  case h_1 hpc =>
    cases h
    cases hp : s.txPause with
    | true => simpa [hp] using Step.txPaused hpc hp
    | false => simpa [hp] using Step.txRunning hpc hp
  case h_2 hpc => cases h; exact .txStoreIdle hpc
  case h_3 hpc => cases h; exact .txClearIdle hpc
  case h_4 n hpc =>
    split at h
    case isTrue hg =>
      cases h
      by_cases hn : n = 0
      · subst hn
        have hsb := sbRecvGives_zero hg
        simpa [filled_zero hsb, hsb] using Step.txRecvNone hpc hsb
      · simpa [hn] using Step.txRecv n hpc (Nat.pos_of_ne_zero hn) (sbRecvGives_le hn hg)
    case isFalse => cases h
  case h_5 n hpc =>
    split at h
    case h_1 hc => cases h; exact .txStale n hpc hc
    case h_2 fd hc => cases h; exact .txLoaded n fd hpc hc
  case h_6 fd n failedAfter hpc =>
    split at h
    case h_1 k ho => cases h; exact .txSendClosed fd n k hpc ho
    case h_2 => cases h
    case h_3 c ho =>
      split at h
      case isTrue => cases h
      case isFalse => cases h; exact .txSent fd n c hpc ho
    case h_4 c k ho =>
      split at h
      case isTrue hk => cases h; exact .txSendFailed fd n k c hpc ho hk
      case isFalse => cases h
  case h_7 hpc => cases h; exact .txStoreFailed hpc
  case h_8 => cases h

theorem bridgeOnControllerPacket_step {s s' : State} {l : Label}
    (h : bridgeOnControllerPacket s l = some s') : Step s l s' := by
  unfold bridgeOnControllerPacket at h
  split at h
  case h_1 pkt hpc =>
    split at h
    case isTrue => cases h; exact .cbCall pkt hpc
    case isFalse => cases h
  case h_2 pkt hpc =>
    split at h
    case h_1 hc => cases h; exact .cbNoHost pkt hpc hc
    case h_2 fd hc => cases h; exact .cbHost pkt fd hpc hc
  case h_3 pkt seen hpc =>
    split at h
    case isTrue => cases h; exact .cbOverflow pkt seen hpc
    case isFalse hle => cases h; exact .cbFits pkt seen hpc (by omega)
  case h_4 pkt seen hpc => cases h; exact .cbWrite pkt seen hpc
  case h_5 => cases h

theorem step_cases {s s' : State} {l : Label} (h : step s l = some s') : Step s l s' := by
  unfold step at h
  split at h
  case h_4 => exact bridgeOnControllerPacket_step h
  case h_5 => exact bridgeOnControllerPacket_step h
  case h_6 => exact rxTask_step h
  all_goals exact txTask_step h

@[simp] theorem revise_same (peers : Conn → Peer) (c : Conn) (f : Peer → Peer) :
    revise peers (some c) f c = f (peers c) := by simp [revise]

theorem revise_rel (R : Peer → Peer → Prop) {peers : Conn → Peer} {o : Option Conn} {f : Peer → Peer}
    (hrefl : ∀ p, R p p) (hf : ∀ p, R p (f p)) (c : Conn) : R (peers c) (revise peers o f c) := by
  unfold revise
  split
  · exact hf _
  · exact hrefl _

theorem revise_all (P : Conn → Peer → Prop) {peers : Conn → Peer} {c : Conn} {f : Peer → Peer}
    (h : ∀ d, P d (peers d)) (hc : P c (f (peers c))) (d : Conn) : P d (revise peers (some c) f d) := by
  unfold revise
  split
  case isTrue hcd =>
    cases hcd
    exact hc
  case isFalse => exact h d

theorem revise_ne {peers : Conn → Peer} {c d : Conn} {f : Peer → Peer} (h : c ≠ d) :
    revise peers (some c) f d = peers d := by simp [revise, h]

end HciBridge.Bridge
