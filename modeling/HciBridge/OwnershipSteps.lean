import HciBridge.Ownership

namespace HciBridge.Ownership

open Auth (Bytes Block Psk ascii hexlify bdaddrText)
open Config
open KeyProtocol (Hashes httpNonce)
open HostClaim (Curve claimedPsk derivePsk)
open Claim (Ecdh proved scanPeer)
open RefusedClaim (ClaimEnv Nvs Response claimPost authClaim authUnclaim agree boot)
open StatusJson (Status statusGet)

section Board

variable {H : Hashes} {c : Curve} {m : Ecdh} {b : RefusedClaim.State}

inductive ClaimServed (c : Curve) (m : Ecdh) (b : RefusedClaim.State) (received : Bytes) :
    RefusedClaim.State × Response → Prop
  | claimed (r : Response) (hclaimed : b.ram.claimed = true) (hr : r.status ≠ 200) :
      ClaimServed c m b received (b, r)
  | refused (b' : RefusedClaim.State) (r : Response) (hclaimed : b.ram.claimed = false) (hr : r.status ≠ 200) :
      ClaimServed c m b received (b', r)
  | accepted (b' : RefusedClaim.State) (peer d z : Block 32) (hclaimed : b.ram.claimed = false)
      (hlen : 64 ≤ received.length) (hpeer : scanPeer received = some peer)
      (hz : m.computeShared d peer = some z) (hram : b'.ram.claimed = true)
      (hpsk : b'.ram.psk = c.sha256 z.bytes) (hflash : b'.flash = some b'.ram.psk) :
      ClaimServed c m b received (b', ⟨200, hexlify (m.genPublic d).bytes ++ ascii "\n"⟩)

theorem agree_spec {env : ClaimEnv} {peer : Block 32} {psk psk' : Psk} {ours : Block 32}
    (h : agree c m env peer psk = (psk', some ours)) :
    ∃ d z, m.computeShared d peer = some z ∧ psk' = c.sha256 z.bytes ∧ ours = m.genPublic d := by
  unfold agree at h
  repeat' split at h
  all_goals cases h
  exact ⟨_, _, by assumption, rfl, rfl⟩

theorem authClaim_spec {env : ClaimEnv} {peer ours : Block 32} {b' : RefusedClaim.State}
    (h : authClaim c m b env peer = (b', some ours)) :
    ∃ d z, m.computeShared d peer = some z ∧ ours = m.genPublic d ∧ b'.ram.claimed = true ∧
      b'.ram.psk = c.sha256 z.bytes ∧ b'.flash = some b'.ram.psk := by
  have hsome : (authClaim c m b env peer).2.isSome = true := by
    rw [h]
    rfl
  have hclaims := RefusedClaim.authClaim_claims hsome
  rw [h] at hclaims
  unfold authClaim at h
  split at h
  case isTrue => cases h
  case isFalse =>
    split at h
    case h_1 psk ours' hagree =>
      split at h
      case h_1 => cases h
      case h_2 ours'' =>
        obtain ⟨d, z, hz, hpsk, hours⟩ := agree_spec hagree
        split at h
        case isTrue => cases h
        case isFalse =>
          dsimp only at h
          split at h
          case isTrue => cases h
          case isFalse =>
            cases h
            exact ⟨d, z, hz, hours, hclaims.1, hpsk, hclaims.2⟩

theorem claimPost_served (env : ClaimEnv) (received : Bytes) :
    ClaimServed c m b received (claimPost c m b env received) := by
  unfold claimPost RefusedClaim.authClaimed
  split
  case isTrue hclaimed => exact .claimed _ hclaimed (by decide)
  case isFalse hclaimed =>
    rw [Bool.not_eq_true] at hclaimed
    split
    case isTrue => exact .refused _ _ hclaimed (by decide)
    case isFalse hlen =>
      split
      case h_1 => exact .refused _ _ hclaimed (by decide)
      case h_2 peer hpeer =>
        split
        case h_1 => exact .refused _ _ hclaimed (by decide)
        case h_2 b' ours hauth =>
          obtain ⟨d, z, hz, rfl, hram, hpsk, hflash⟩ := authClaim_spec hauth
          exact .accepted b' peer d z hclaimed (Nat.le_of_not_lt hlen) hpeer hz hram hpsk hflash

inductive UnclaimServed (b : RefusedClaim.State) : RefusedClaim.State × Response → Prop
  | refused (flash : Option Psk) (r : Response) (hflash : flash = b.flash ∨ flash = none) (hr : r.status ≠ 200) :
      UnclaimServed b ({ b with flash := flash }, r)
  | accepted (b' : RefusedClaim.State) (r : Response) (hram : b'.ram.claimed = false) (hflash : b'.flash = none) :
      UnclaimServed b (b', r)

theorem unclaimPost_served (httpd : KeyProtocol.Firmware.Httpd) (headers : Bytes) (nvs : Nvs) :
    UnclaimServed b (unclaimPost H httpd b headers nvs) := by
  unfold unclaimPost
  dsimp only
  split
  case isTrue => exact .refused b.flash _ (.inl rfl) (by decide)
  case isFalse =>
    split
    case h_1 b' hauth =>
      have hfailed : (authUnclaim b nvs).2 = false := by rw [hauth]
      obtain ⟨hram, hflash⟩ := RefusedClaim.authUnclaim_failed hfailed
      rw [hauth] at hram hflash
      have hb : b' = { b with flash := b'.flash } := by
        obtain ⟨ram, flash⟩ := b'
        rw [show ram = b.ram from hram]
      rw [hb]
      apply UnclaimServed.refused
      · rw [hflash]
        cases nvs.opened && nvs.kept <;> simp
      · decide
    case h_2 b' hauth =>
      have hwell : (authUnclaim b nvs).2 = true := by rw [hauth]
      obtain ⟨hram, hflash⟩ := RefusedClaim.authUnclaim_unclaims hwell
      rw [hauth] at hram hflash
      exact .accepted b' _ hram hflash

end Board

section Steps

variable {H : Hashes} {c : Curve} {m : Ecdh} {site : Site} {s s' : State}

inductive Step (H : Hashes) (c : Curve) (m : Ecdh) (site : Site) (s : State) : State → Prop
  | quiet : Step H c m site s s
  | claim (status : Bytes) (info : HostClaim.BoardInfo) (secretKey : Block 32) (hcli : s.cli = .idle)
      (hclaimed : s.board.ram.claimed = false) (hinfo : HostClaim.boardInfo status = some info)
      (hbdaddr : info.bdaddr = bdaddrText site.mac) :
      Step H c m site s
        (s.send (.claim (hexlify (c.publicKey secretKey).bytes)) (.claiming s.next status secretKey))
  | unclaim (headers : Bytes) (hcli : s.cli = .idle) :
      Step H c m site s (s.send (.unclaim headers) (.unclaiming s.next (bdaddrText site.mac)))
  | unclaimed (hcli : s.cli = .idle) (hclaimed : s.board.ram.claimed = false) :
      Step H c m site s { s with cli := .releasing (bdaddrText site.mac) }
  | revoke (disk : Revoke.Disk) (hcli : s.cli = .idle) :
      Step H c m site s { s with
        files := (Revoke.revoke disk s.files site.env site.cfgPath (bdaddrText site.mac)).2, saved := none }
  | save (disk : HostClaim.Disk) (i : ℕ) (status : Bytes) (secretKey : Block 32) (r : Response)
      (hcli : s.cli = .claiming i status secretKey) (hr : (i, r) ∈ s.replies) :
      Step H c m site s (save c site s disk i status secretKey r)
  | answered (i : ℕ) (bdaddr : Bytes) (r : Response) (hcli : s.cli = .unclaiming i bdaddr)
      (hr : (i, r) ∈ s.replies) :
      Step H c m site s (answered s r bdaddr)
  | release (disk : Revoke.Disk) (bdaddr : Bytes) (hcli : s.cli = .releasing bdaddr) :
      Step H c m site s { s with
        files := (Revoke.revoke disk s.files site.env site.cfgPath bdaddr).2, cli := .idle }
  | abort : Step H c m site s { s with cli := .idle }
  | stranger (post : Post) : Step H c m site s (s.send post s.cli)
  | drop (i : ℕ) : Step H c m site s { s with posts := s.take i }
  | serveClaim (i n : ℕ) (body : Bytes) (env : ClaimEnv) (hpost : (i, .claim body) ∈ s.posts) :
      Step H c m site s (serveClaim c m s i (body.take n) env)
  | serveUnclaim (i : ℕ) (headers : Bytes) (nvs : Nvs) (hpost : (i, .unclaim headers) ∈ s.posts) :
      Step H c m site s (serveUnclaim H site.httpd s i headers nvs)
  | bump : Step H c m site s { s with board.ram.httpCounter := s.board.ram.httpCounter + 1 }
  | reboot (rand : Block 16) : Step H c m site s { s with board := boot s.board.flash rand }

theorem boardInfo_status (st : Status) (b : KeyProtocol.Firmware.Board) (mac : Block 6) :
    ∃ body, statusGet { st with mac := mac, auth := b } = some body ∧
      HostClaim.boardInfo body = some ⟨bdaddrText mac, some b.claimed, some (httpNonce b)⟩ := by
  refine ⟨_, StatusJson.statusGet_eq _, ?_⟩
  have hinfo := StatusJson.boardInfo_statusText { st with mac := mac, auth := b }
  simp only [StatusJson.boardInfo, Option.bind_eq_bind, Option.bind_eq_some_iff] at hinfo
  obtain ⟨base, hbase, hinfo⟩ := hinfo
  rw [Option.pure_def, Option.some.injEq, StatusJson.BoardInfo.mk.injEq] at hinfo
  rw [hbase, hinfo.1]

theorem step_unclaim {status : Bytes} (hcli : s.cli = .idle)
    (hinfo : HostClaim.boardInfo status =
      some ⟨bdaddrText site.mac, some s.board.ram.claimed, some (httpNonce s.board.ram)⟩) :
    Step H c m site s (unclaim H site s status) := by
  unfold unclaim
  rw [hinfo]
  split
  case h_1 keys info hkeys heq =>
    cases heq
    split
    case isTrue hclaimed =>
      rw [Option.some.injEq] at hclaimed
      exact .unclaimed hcli hclaimed
    case isFalse =>
      split
      case h_1 => exact .quiet
      case h_2 headers _ => exact .unclaim headers hcli
  case h_2 => exact .quiet

theorem mem_of_find {α : Type} {l : List (ℕ × α)} {i : ℕ} {p : ℕ × α}
    (h : (l.find? fun q => q.1 = i) = some p) : (i, p.2) ∈ l := by
  have hp := List.mem_of_find?_eq_some h
  have hi : p.1 = i := by simpa using List.find?_some h
  rw [← hi]
  exact hp

theorem step_cases {l : Label} (h : step H c m site s l = some s') : Step H c m site s s' := by
  cases l with
  | claim status secretKey =>
    obtain ⟨body, hbody, hinfo⟩ := boardInfo_status status s.board.ram site.mac
    simp only [step, hbody] at h
    split at h
    case h_1 body' hcli heq =>
      cases heq
      cases h
      unfold claim
      rw [hinfo]
      simp only
      split
      case isTrue hclaimed =>
        rw [Option.some.injEq] at hclaimed
        exact .claim body _ secretKey hcli hclaimed hinfo rfl
      case isFalse => exact .quiet
    case h_2 => cases h
  | unclaim status =>
    obtain ⟨body, hbody, hinfo⟩ := boardInfo_status status s.board.ram site.mac
    simp only [step, hbody] at h
    split at h
    case h_1 body' hcli heq =>
      cases heq
      cases h
      exact step_unclaim hcli hinfo
    case h_2 => cases h
  | revoke disk =>
    simp only [step] at h
    split at h
    case h_1 hcli =>
      cases h
      exact .revoke disk hcli
    case h_2 => cases h
  | save disk =>
    simp only [step] at h
    split at h
    case h_1 i status secretKey hcli =>
      obtain ⟨r, hr, rfl⟩ := Option.map_eq_some_iff.mp h
      exact .save disk i status secretKey r.2 hcli (mem_of_find hr)
    case h_2 => cases h
  | answered =>
    simp only [step] at h
    split at h
    case h_1 i bdaddr hcli =>
      obtain ⟨r, hr, rfl⟩ := Option.map_eq_some_iff.mp h
      exact .answered i bdaddr r.2 hcli (mem_of_find hr)
    case h_2 => cases h
  | release disk =>
    simp only [step] at h
    split at h
    case h_1 bdaddr hcli =>
      cases h
      exact .release disk bdaddr hcli
    case h_2 => cases h
  | abort =>
    cases h
    exact .abort
  | stranger post =>
    cases h
    exact .stranger post
  | drop i =>
    cases h
    exact .drop i
  | serveClaim i n env =>
    simp only [step] at h
    split at h
    case h_1 j body hfind =>
      cases h
      exact .serveClaim i (min n 79) body env (mem_of_find hfind)
    case h_2 => cases h
  | serveUnclaim i nvs =>
    simp only [step] at h
    split at h
    case h_1 j headers hfind =>
      cases h
      exact .serveUnclaim i headers nvs (mem_of_find hfind)
    case h_2 => cases h
  | bump =>
    cases h
    exact .bump
  | reboot rand =>
    cases h
    exact .reboot rand

end Steps

end HciBridge.Ownership
