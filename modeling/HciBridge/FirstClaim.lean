import HciBridge.ClaimBody
import HciBridge.KeyProtocolAgrees

namespace HciBridge.Claim

open Text
open Auth (Bytes Block Psk ascii hexlify hexDigit hexToBlock)
open HostClaim (Curve derivePsk claimedPsk)
open KeyProtocol (Hashes CString Shows nibble_hexDigit)
open KeyProtocol.Firmware (Board hmacParts httpLens httpNonceBytes httpParts nibble preLens preParts)

section Text

theorem scanHex_hexDigit {hi lo : ℕ} (hhi : hi < 16) (hlo : lo < 16) (rest : Bytes) :
    scanHex (hexDigit hi :: hexDigit lo :: rest) = some (hi * 16 + lo).toUInt8 :=
  scanHex_digits (nibble_hexDigit hhi) (nibble_hexDigit hlo) rest

theorem scanPairs_hexlify (bs rest : Bytes) : scanPairs bs.length (hexlify bs ++ rest) = some bs := by
  induction bs with
  | nil => rfl
  | cons b bs ih =>
    have hb := b.toNat_lt
    have hval : b.toNat / 16 * 16 + b.toNat % 16 = b.toNat := by omega
    have htext : hexlify (b :: bs) ++ rest =
        hexDigit (b.toNat / 16) :: hexDigit (b.toNat % 16) :: (hexlify bs ++ rest) := by
      simp [hexlify]
    rw [htext, List.length_cons, scanPairs, scanHex_hexDigit (by omega) (by omega), Option.bind_some,
      List.drop_succ_cons, List.drop_succ_cons, List.drop_zero, ih, hval]
    simp

theorem scanPeer_hexlify {n : ℕ} {pk peer : Block 32} (hlen : 64 ≤ ((hexlify pk.bytes).take n).length)
    (h : scanPeer ((hexlify pk.bytes).take n) = some peer) : peer = pk := by
  have hhex : (hexlify pk.bytes).length = 64 := by rw [Auth.hexlify_length, pk.length_eq]
  have htake : ((hexlify pk.bytes).take n).take 64 = hexlify pk.bytes ++ [] := by
    rw [List.length_take] at hlen
    rw [List.append_nil, List.take_take, List.take_of_length_le (by omega)]
  have hscan := scanPairs_hexlify pk.bytes []
  rw [pk.length_eq] at hscan
  rw [scanPeer, htake, hscan, Option.bind_some, dif_pos pk.length_eq, Option.some.injEq] at h
  exact h.symm

theorem claimedPsk_reply (c : Curve) (sk ours : Block 32) :
    claimedPsk c sk 200 (hexlify ours.bytes ++ ascii "\n") = derivePsk c sk ours := by
  have hnl : ascii "\n" = [10] := by decide
  have hnotin : ∀ x ∈ hexlify ours.bytes, x ∉ ([32, 13, 10] : Bytes) := by
    intro x hx
    obtain ⟨n, hn, rfl⟩ := Auth.mem_hexlify hx
    have := (Auth.hexDigit_range hn).1
    simp only [List.mem_cons, List.not_mem_nil, or_false, ← UInt8.toNat_inj, UInt8.reduceToNat]
    omega
  have htrim : trim [32, 13, 10] (hexlify ours.bytes) = hexlify ours.bytes :=
    trim_eq_self (fun x hx => hnotin x (List.mem_of_head? hx)) (fun x hx => hnotin x (List.mem_of_getLast? hx))
  rw [claimedPsk, if_neg (by decide), hnl, trim_concat (by simp), htrim, Auth.hexToBlock_hexlify,
    Option.bind_some]

end Text

section Proofs

variable (H : Hashes) (key : Psk) (b : Board)

def unclaimAuth : Auth.Digest :=
  H.hmac key (ascii "POST /unclaim\n" ++ httpNonceBytes b ++ (H.sha256 []).bytes)

def unclaimPre : Auth.Digest := H.hmac key (ascii "PRE POST /unclaim\n" ++ httpNonceBytes b ++ [0, 0, 0, 0])

theorem hmacParts_auth : hmacParts H key (httpParts b post unclaimPath (H.sha256 [])) (httpLens post unclaimPath) 6 =
    unclaimAuth H key b := by
  have htext : ascii "POST /unclaim\n" = ascii "POST" ++ ascii " " ++ ascii "/unclaim" ++ ascii "\n" := by decide
  rw [hmacParts, KeyProtocol.httpInput_eq, unclaimAuth, htext]
  simp [KeyProtocol.Zig.httpAuthParts, KeyProtocol.httpNonce, post, unclaimPath]

theorem hmacParts_pre : hmacParts H key (preParts b post unclaimPath 0) (preLens post unclaimPath) 7 =
    unclaimPre H key b := by
  have htext : ascii "PRE POST /unclaim\n" = ascii "PRE " ++ ascii "POST" ++ ascii " " ++ ascii "/unclaim" ++
    ascii "\n" := by decide
  have hinput := KeyProtocol.preInput_eq b post unclaimPath (Nat.zero_le 4294967295)
  rw [hmacParts, unclaimPre, htext]
  change H.hmac key (KeyProtocol.Firmware.fed _ _ _) = _
  rw [show (0 : UInt32) = Nat.toUInt32 0 from rfl, hinput]
  simp [KeyProtocol.Zig.httpPreParts, KeyProtocol.httpNonce, KeyProtocol.Zig.writeInt32, post, unclaimPath]

/-- The two headers show the proofs that only a host with the board's key can make. -/
structure ShowProofs (auth pre : Option CString) : Prop where
  auth : ∃ a, auth = some a ∧ Shows a (unclaimAuth H key b)
  pre : ∃ p, pre = some p ∧ Shows p (unclaimPre H key b)

variable {H b} {auth pre : Option CString}

theorem showProofs_of_proved (h : proved H b auth pre = true) : ShowProofs H b.psk b auth pre := by
  simp only [proved, Bool.and_eq_true] at h
  obtain ⟨⟨-, hpre⟩, hauth⟩ := h
  obtain ⟨-, a, ha, hshows⟩ := KeyProtocol.shows_of_checkMac hauth
  obtain ⟨-, p, hp, hshows'⟩ := KeyProtocol.shows_of_checkMac hpre
  rw [hmacParts_auth] at hshows
  rw [hmacParts_pre] at hshows'
  exact ⟨⟨a, ha, hshows⟩, p, hp, hshows'⟩

end Proofs

section Key

def State.settled (s : State) : Prop := s.pc ≠ .erased ∧ ∀ i ours, s.pc ≠ .stored i ours

def Kept (H : Hashes) (s : State) : Prop :=
  match s.pc with
  | .idle => s.key = s.flash
  | .agreeing .. | .storing .. | .restarting => s.ram.claimed = false ∧ s.flash = none
  | .stored .. => s.ram.claimed = false ∧ s.flash = some s.ram.psk
  | .erasing auth pre => s.ram.claimed = true ∧ s.flash = some s.ram.psk ∧ proved H s.ram auth pre = true
  | .erased => s.ram.claimed = true ∧ s.flash = none

variable {H : Hashes} {c : Curve} {m : Ecdh} {flash : Option Psk} {s s' : State}

theorem key_of_claimed (h : s.ram.claimed = true) : s.key = some s.ram.psk := if_pos h

theorem key_of_unclaimed (h : s.ram.claimed = false) : s.key = none := if_neg (by simp [h])

theorem key_authInit (flash : Option Psk) (rand : Block 16) (hram : s.ram = authInit flash rand) :
    s.key = flash := by
  cases flash <;> simp [State.key, hram, authInit]

theorem Kept.key_eq (hk : Kept H s) (hs : s.settled) : s.key = s.flash := by
  unfold Kept at hk
  cases hpc : s.pc with
  | idle => simpa only [hpc] using hk
  | agreeing i peer =>
    simp only [hpc] at hk
    rw [key_of_unclaimed hk.1, hk.2]
  | storing i ours =>
    simp only [hpc] at hk
    rw [key_of_unclaimed hk.1, hk.2]
  | stored i ours => exact absurd hpc (hs.2 i ours)
  | erasing auth pre =>
    simp only [hpc] at hk
    rw [key_of_claimed hk.1, hk.2.1]
  | erased => exact absurd hpc hs.1
  | restarting =>
    simp only [hpc] at hk
    rw [key_of_unclaimed hk.1, hk.2]

theorem proved_claimed {b : Board} {auth pre : Option CString} (h : proved H b auth pre = true) :
    b.claimed = true := by
  simp only [proved, Bool.and_eq_true] at h
  exact h.1.1.1.1

theorem Kept.step (hk : Kept H s) (h : Step H c m s s') : Kept H s' := by
  have hidle : s.pc = .idle → s.key = s.flash := fun hpc => hk.key_eq (by simp [State.settled, hpc])
  unfold Kept at hk
  cases h with
  | host | stranger | drop => exact hk
  | refuse _ _ _ _ _ hpc => exact hidle hpc
  | unclaimRefused hpc | bump hpc =>
    simp only [Kept, hpc]
    exact hidle hpc
  | claim i n body peer hpc hreq hclaimed =>
    have hkey := hidle hpc
    rw [key_of_unclaimed hclaimed] at hkey
    exact ⟨hclaimed, hkey.symm⟩
  | agree i peer d z hpc =>
    simp only [hpc] at hk
    exact hk
  | agreeRefused i peer text hpc =>
    simp only [hpc] at hk
    exact (key_of_unclaimed hk.1).trans hk.2.symm
  | agreeFailed i peer left text hpc =>
    simp only [hpc] at hk
    change State.key _ = s.flash
    rw [hk.2]
    exact key_of_unclaimed hk.1
  | store i ours hpc =>
    simp only [hpc] at hk
    exact ⟨hk.1, rfl⟩
  | storeFailed i ours text hpc =>
    simp only [hpc] at hk
    exact (key_of_unclaimed hk.1).trans hk.2.symm
  | finish i ours hpc =>
    simp only [hpc] at hk
    exact (key_of_claimed rfl).trans hk.2.symm
  | unclaim auth pre hpc hproved =>
    have hkey := hidle hpc
    rw [key_of_claimed (proved_claimed hproved)] at hkey
    exact ⟨proved_claimed hproved, hkey.symm, hproved⟩
  | erase auth pre hpc =>
    simp only [hpc] at hk
    exact ⟨hk.1, rfl⟩
  | eraseFailed auth pre hpc =>
    simp only [hpc] at hk
    exact (key_of_claimed hk.1).trans hk.2.1.symm
  | forget hpc =>
    simp only [hpc] at hk
    exact ⟨rfl, hk.2⟩
  | restart rand => exact key_authInit s.flash rand rfl

theorem Reachable.kept (h : Reachable H c m flash s) : Kept H s := by
  apply h.invariant
  · rintro _ ⟨rand, rfl⟩
    exact key_authInit flash rand rfl
  · intro s l s' _ hk _ hs
    exact hk.step (step_cases hs)

def Label.network : Label → Bool
  | .host _ | .stranger _ | .drop _ => true
  | _ => false

/-- In this run the board took an `/unclaim` with these headers while it had the RAM that it has now, and has
done nothing since. -/
def Asked (H : Hashes) (c : Curve) (m : Ecdh) (flash : Option Psk) (s : State) (auth pre : Option CString) : Prop :=
  ∃ t t' ls, Reachable H c m flash t ∧ Claim.step H c m t (.unclaim auth pre) = some t' ∧
    Runs.run (Claim.step H c m) Runs.always t' ls = some s ∧ t.ram = s.ram ∧ ∀ l ∈ ls, l.network = true

theorem Asked.network {auth pre : Option CString} (h : Asked H c m flash s auth pre) {l : Label}
    (hl : l.network = true) (hs : Claim.step H c m s l = some s') : Asked H c m flash s' auth pre := by
  obtain ⟨t, t', ls, ht, hunclaim, hrun, hram, hls⟩ := h
  refine ⟨t, t', ls ++ [l], ht, hunclaim, ?_, hram.trans ?_, ?_⟩
  · rw [Runs.run_concat, hrun, Option.bind_some, if_pos (by rfl), hs]
  · cases l with
    | host | stranger | drop =>
      cases hs
      rfl
    | _ => cases hl
  · rw [List.forall_mem_append]
    exact ⟨hls, by simpa using hl⟩

theorem claimPost_pc (s : State) (i : ℕ) (body : Bytes) (auth pre : Option CString) :
    (claimPost s i body).pc ≠ .erasing auth pre := by
  unfold claimPost
  split
  case isTrue => nofun
  case isFalse =>
    split
    case isTrue => nofun
    case isFalse => split <;> nofun

theorem authAgree_pc (s : State) (i : ℕ) (peer d : Block 32) (auth pre : Option CString) :
    (authAgree c m s i peer d).pc ≠ .erasing auth pre := by
  unfold authAgree
  split
  case isTrue => nofun
  case isFalse => split <;> nofun

theorem not_erasing_of_step {l : Label} (hs : Claim.step H c m s l = some s') (hnetwork : l.network = false)
    (hl : ∀ a p, l ≠ .unclaim a p) (auth pre : Option CString) : s'.pc ≠ .erasing auth pre := by
  cases l with
  | host | stranger | drop => cases hnetwork
  | unclaim a p => exact absurd rfl (hl a p)
  | restart =>
    cases hs
    intro h
    cases h
  | claim i n =>
    simp only [Claim.step] at hs
    split at hs
    case h_1 =>
      cases hs
      exact claimPost_pc _ _ _ _ _
    case h_2 => cases hs
  | agree d =>
    simp only [Claim.step] at hs
    split at hs
    case h_1 =>
      cases hs
      exact authAgree_pc _ _ _ _ _ _
    case h_2 => cases hs
  | bump =>
    simp only [Claim.step] at hs
    split at hs
    case h_1 hidle =>
      cases hs
      simp [hidle]
    case h_2 => cases hs
  | agreeFailed | store | storeFailed | finish | erase | eraseFailed | forget =>
    simp only [Claim.step] at hs
    split at hs
    case h_1 =>
      cases hs
      intro h
      cases h
    case h_2 => cases hs

theorem Reachable.asked (h : Reachable H c m flash s) :
    ∀ auth pre, s.pc = .erasing auth pre → Asked H c m flash s auth pre := by
  apply h.invariant
  · rintro _ ⟨rand, rfl⟩ auth pre h
    cases h
  · intro s l s' hr hi _ hs auth pre hpc
    cases l with
    | host | stranger | drop =>
      refine (hi auth pre ?_).network rfl hs
      cases hs
      exact hpc
    | unclaim a p =>
      have hstep := hs
      simp only [Claim.step] at hs
      split at hs
      case h_1 hidle =>
        cases hs
        split at hpc
        case isTrue hproved =>
          cases hpc
          refine ⟨s, _, [], hr, hstep, rfl, ?_, by simp⟩
          rw [if_pos hproved]
        case isFalse =>
          rw [hidle] at hpc
          cases hpc
      case h_2 => cases hs
    | _ => exact absurd hpc (not_erasing_of_step hs rfl (by simp) auth pre)

inductive Written (H : Hashes) (c : Curve) (m : Ecdh) (flash : Option Psk) (s s' : State) : Prop
  | same (hflash : s'.flash = s.flash) (hlog : s'.log = s.log)
  | accepted (i : ℕ) (hnone : s.key = none) (hbefore : s.flash = none) (hflash : s'.flash = some s.ram.psk)
      (hlog : s'.log = s.log ++ [.accepted i s.ram.psk])
  | unclaimed (auth pre : Option CString) (hasked : Asked H c m flash s auth pre)
      (hproofs : ShowProofs H s.ram.psk s.ram auth pre) (hbefore : s.flash = some s.ram.psk) (hflash : s'.flash = none)
      (hlog : s'.log = s.log ++ [.unclaimed s.ram.psk])

theorem Reachable.written (hr : Reachable H c m flash s) (h : Step H c m s s') : Written H c m flash s s' := by
  have hk := hr.kept
  unfold Kept at hk
  cases h with
  | store i ours hpc =>
    simp only [hpc] at hk
    exact .accepted i (key_of_unclaimed hk.1) hk.2 rfl rfl
  | erase auth pre hpc =>
    simp only [hpc] at hk
    exact .unclaimed auth pre (hr.asked auth pre hpc) (showProofs_of_proved hk.2.2) hk.2.1 rfl rfl
  | _ => exact .same rfl rfl

end Key

section Agreed

structure Fresh (s : State) (i : ℕ) : Prop where
  below : i < s.next
  log : ∀ k, .accepted i k ∉ s.log
  reply : ∀ r ∈ s.replies, r.id ≠ i

structure Done (c : Curve) (s : State) (i : ℕ) (ours : Block 32) (k : Psk) : Prop where
  below : i < s.next
  log : ∀ k', .accepted i k' ∈ s.log ↔ k' = k
  agreed : ∀ sk, (i, sk) ∈ s.hosts → derivePsk c sk ours = some k

def Pc.id : Pc → Option ℕ
  | agreeing i _ | storing i _ | stored i _ => some i
  | idle | erasing .. | erased | restarting => none

def Handling (c : Curve) (s : State) : Pc → Prop
  | .agreeing i peer => Fresh s i ∧ ∀ sk, (i, sk) ∈ s.hosts → peer = c.publicKey sk
  | .storing i ours => Fresh s i ∧ ∀ sk, (i, sk) ∈ s.hosts → derivePsk c sk ours = some s.ram.psk
  | .stored i ours => Done c s i ours s.ram.psk ∧ ∀ r ∈ s.replies, r.id ≠ i
  | .idle | .erasing .. | .erased | .restarting => True

structure Agreed (c : Curve) (s : State) : Prop where
  hosts : ∀ i sk, (i, sk) ∈ s.hosts → i < s.next
  events : ∀ i k, .accepted i k ∈ s.log → i < s.next
  answered : ∀ r ∈ s.replies, r.id < s.next
  requests : ∀ i body, (i, body) ∈ s.requests → Fresh s i ∧ s.pc.id ≠ some i ∧
    ∀ sk, (i, sk) ∈ s.hosts → body = hexlify (c.publicKey sk).bytes
  replies : ∀ r ∈ s.replies, r.status = 200 →
    ∃ ours k, r.body = hexlify ours.bytes ++ ascii "\n" ∧ Done c s r.id ours k
  handling : Handling c s s.pc

variable {H : Hashes} {c : Curve} {m : Ecdh} {flash : Option Psk} {s s' : State}

theorem Handling.mono {pc : Pc} (h : Handling c s pc) (hfresh : ∀ i, Fresh s i → Fresh s' i)
    (hdone : ∀ i ours k, Done c s i ours k → Done c s' i ours k)
    (hhosts : ∀ i sk, i < s.next → (i, sk) ∈ s'.hosts → (i, sk) ∈ s.hosts)
    (hpsk : s'.ram.psk = s.ram.psk) (hreplies : s'.replies = s.replies) : Handling c s' pc := by
  cases pc with
  | agreeing i peer => exact ⟨hfresh i h.1, fun sk hsk => h.2 sk (hhosts i sk h.1.below hsk)⟩
  | storing i ours =>
    refine ⟨hfresh i h.1, fun sk hsk => ?_⟩
    rw [hpsk]
    exact h.2 sk (hhosts i sk h.1.below hsk)
  | stored i ours =>
    unfold Handling at h ⊢
    rw [hpsk, hreplies]
    exact ⟨hdone i ours _ h.1, h.2⟩
  | _ => trivial

theorem Handling.below {pc : Pc} (h : Handling c s pc) {i : ℕ} (hid : pc.id = some i) : i < s.next := by
  cases pc with
  | agreeing j peer | storing j ours | stored j ours =>
    cases hid
    exact h.1.below
  | _ => cases hid

theorem Agreed.send (ha : Agreed c s) (secretKey : Option (Block 32)) (body : Bytes)
    (hbody : ∀ sk ∈ secretKey, body = hexlify (c.publicKey sk).bytes) :
    Agreed c (s.send secretKey body) := by
  have hmem : ∀ {i sk}, (i, sk) ∈ (s.send secretKey body).hosts →
      (i = s.next ∧ sk ∈ secretKey) ∨ (i, sk) ∈ s.hosts := by
    intro i sk h
    cases secretKey with
    | none => exact .inr h
    | some sk' => simpa [State.send, eq_comm] using h
  have hold : ∀ {i sk}, i < s.next → (i, sk) ∈ (s.send secretKey body).hosts → (i, sk) ∈ s.hosts := by
    intro i sk hi h
    rcases hmem h with ⟨rfl, -⟩ | h
    · exact absurd hi (Nat.lt_irrefl _)
    · exact h
  have hfresh : ∀ {i}, Fresh s i → Fresh (s.send secretKey body) i :=
    fun h => ⟨Nat.lt_succ_of_lt h.below, h.log, h.reply⟩
  have hdone : ∀ {i ours k}, Done c s i ours k → Done c (s.send secretKey body) i ours k :=
    fun h => ⟨Nat.lt_succ_of_lt h.below, h.log, fun sk hsk => h.agreed sk (hold h.below hsk)⟩
  refine ⟨?_, fun i k h => Nat.lt_succ_of_lt (ha.events i k h),
    fun r hr => Nat.lt_succ_of_lt (ha.answered r hr), ?_, ?_, ?_⟩
  · intro i sk h
    rcases hmem h with ⟨rfl, -⟩ | h
    · exact Nat.lt_succ_self _
    · exact Nat.lt_succ_of_lt (ha.hosts i sk h)
  · intro i b h
    rcases List.mem_cons.mp h with h | h
    · cases h
      refine ⟨⟨Nat.lt_succ_self _, fun k hk => ?_, fun r hr hri => ?_⟩, ?_, fun sk hsk => ?_⟩
      · exact Nat.lt_irrefl _ (ha.events _ k hk)
      · exact Nat.lt_irrefl _ (hri ▸ ha.answered r hr)
      · intro hid
        exact Nat.lt_irrefl _ (ha.handling.below hid)
      · rcases hmem hsk with ⟨-, hsk⟩ | hsk
        · exact hbody sk hsk
        · exact absurd (ha.hosts _ sk hsk) (Nat.lt_irrefl _)
    · obtain ⟨hf, hid, hb⟩ := ha.requests i b h
      exact ⟨hfresh hf, hid, fun sk hsk => hb sk (hold hf.below hsk)⟩
  · intro r hr h200
    obtain ⟨ours, k, hb, hd⟩ := ha.replies r hr h200
    exact ⟨ours, k, hb, hdone hd⟩
  · exact ha.handling.mono (fun _ => hfresh) (fun _ _ _ => hdone) (fun _ _ => hold) rfl rfl

theorem Agreed.quiet (ha : Agreed c s) (hreq : ∀ p ∈ s'.requests, p ∈ s.requests ∧ s'.pc.id ≠ some p.1)
    (hhosts : s'.hosts = s.hosts) (hnext : s'.next = s.next) (hreplies : s'.replies = s.replies)
    (hlog : ∀ i k, .accepted i k ∈ s'.log ↔ .accepted i k ∈ s.log) (hhandling : Handling c s' s'.pc) :
    Agreed c s' := by
  have hfresh : ∀ {i}, Fresh s i → Fresh s' i := by
    intro i h
    exact ⟨hnext ▸ h.below, fun k hk => h.log k ((hlog i k).mp hk), hreplies ▸ h.reply⟩
  have hdone : ∀ {i ours k}, Done c s i ours k → Done c s' i ours k := by
    intro i ours k h
    exact ⟨hnext ▸ h.below, fun k' => (hlog i k').trans (h.log k'), hhosts ▸ h.agreed⟩
  refine ⟨?_, ?_, ?_, ?_, ?_, hhandling⟩
  · rw [hhosts, hnext]
    exact ha.hosts
  · intro i k h
    rw [hnext]
    exact ha.events i k ((hlog i k).mp h)
  · rw [hreplies, hnext]
    exact ha.answered
  · intro i body h
    obtain ⟨hmem, hid⟩ := hreq _ h
    obtain ⟨hf, -, hb⟩ := ha.requests i body hmem
    exact ⟨hfresh hf, hid, hhosts ▸ hb⟩
  · intro r hr h200
    rw [hreplies] at hr
    obtain ⟨ours, k, hb, hd⟩ := ha.replies r hr h200
    exact ⟨ours, k, hb, hdone hd⟩

theorem Agreed.drop (ha : Agreed c s) (i : ℕ) :
    Agreed c { s with requests := s.requests.filter fun r => r.1 ≠ i } := by
  refine ha.quiet (fun p hp => ?_) rfl rfl rfl (fun _ _ => Iff.rfl) ?_
  · have hmem := (List.mem_filter.mp hp).1
    exact ⟨hmem, (ha.requests p.1 p.2 hmem).2.1⟩
  · exact ha.handling.mono (fun _ h => ⟨h.below, h.log, h.reply⟩)
      (fun _ _ _ h => ⟨h.below, h.log, h.agreed⟩) (fun _ _ _ h => h) rfl rfl

theorem Agreed.reply (ha : Agreed c s) (i status : ℕ) (text : Bytes) (hi : i < s.next)
    (hgone : ∀ p ∈ s.requests, p.1 ≠ i)
    (hdone : status = 200 → ∃ ours k, text = hexlify ours.bytes ++ ascii "\n" ∧ Done c s i ours k) :
    Agreed c (s.reply i status text) := by
  refine ⟨ha.hosts, ha.events, ?_, ?_, ?_, trivial⟩
  · intro r hr
    rcases List.mem_cons.mp hr with rfl | hr
    · exact hi
    · exact ha.answered r hr
  · intro j body h
    obtain ⟨hf, -, hb⟩ := ha.requests j body h
    refine ⟨⟨hf.below, hf.log, ?_⟩, nofun, hb⟩
    intro r hr
    rcases List.mem_cons.mp hr with rfl | hr
    · exact (hgone _ h).symm
    · exact hf.reply r hr
  · intro r hr h200
    have hkeep : ∀ {j ours k}, Done c s j ours k → Done c (s.reply i status text) j ours k :=
      fun h => ⟨h.below, h.log, h.agreed⟩
    rcases List.mem_cons.mp hr with rfl | hr
    · obtain ⟨ours, k, hb, hd⟩ := hdone h200
      exact ⟨ours, k, hb, hkeep hd⟩
    · obtain ⟨ours, k, hb, hd⟩ := ha.replies r hr h200
      exact ⟨ours, k, hb, hkeep hd⟩

theorem Agreed.gone (ha : Agreed c s) {i : ℕ} (hid : s.pc.id = some i) : ∀ p ∈ s.requests, p.1 ≠ i := by
  rintro ⟨j, body⟩ h rfl
  exact (ha.requests j body h).2.1 hid

theorem Agreed.store (ha : Agreed c s) {i : ℕ} {ours : Block 32} (hpc : s.pc = .storing i ours) :
    Agreed c { s with
      flash := some s.ram.psk, log := s.log ++ [.accepted i s.ram.psk], pc := .stored i ours } := by
  have hh := ha.handling
  simp only [Handling, hpc] at hh
  have hgone := ha.gone (by rw [hpc]; rfl)
  refine ⟨ha.hosts, ?_, ha.answered, ?_, ?_, ⟨⟨hh.1.below, ?_, hh.2⟩, hh.1.reply⟩⟩
  · intro j k h
    rcases List.mem_append.mp h with h | h
    · exact ha.events j k h
    · cases List.mem_singleton.mp h
      exact hh.1.below
  · intro j body h
    obtain ⟨hf, hid, hb⟩ := ha.requests j body h
    refine ⟨⟨hf.below, ?_, hf.reply⟩, by simpa [hpc, Pc.id] using hid, hb⟩
    intro k hk
    rcases List.mem_append.mp hk with hk | hk
    · exact hf.log k hk
    · cases List.mem_singleton.mp hk
      exact hgone _ h rfl
  · intro r hr h200
    obtain ⟨ours', k, hb, hd⟩ := ha.replies r hr h200
    have hne : r.id ≠ i := hh.1.reply r hr
    refine ⟨ours', k, hb, hd.below, ?_, hd.agreed⟩
    intro k'
    rw [← hd.log k']
    simp [hne]
  · intro k
    have hnone := hh.1.log k
    simp [hnone]

theorem Agreed.step (hcomm : ∀ a b z, m.computeShared b (c.publicKey a) = some z →
      c.scalarmult a (m.genPublic b) = some z) (ha : Agreed c s) (h : Step H c m s s') : Agreed c s' := by
  have hh := ha.handling
  have hidle : s.pc = .idle → ∀ p ∈ s.requests, p ∈ s.requests ∧ s.pc.id ≠ some p.1 := by
    intro hpc p hp
    exact ⟨hp, by simp [hpc, Pc.id]⟩
  cases h with
  | host secretKey => exact ha.send _ _ (by simp)
  | stranger body => exact ha.send _ _ (by simp)
  | drop i => exact ha.drop i
  | refuse i n status body text hpc hreq hstatus =>
    refine (ha.drop i).reply i status text (ha.requests i body hreq).1.below (fun p hp => ?_)
      (fun h => absurd h hstatus)
    simpa using (List.mem_filter.mp hp).2
  | claim i n body peer hpc hreq hclaimed hpeer hlen =>
    obtain ⟨hf, -, hb⟩ := ha.requests i body hreq
    refine ha.quiet (fun p hp => ?_) rfl rfl rfl (fun _ _ => Iff.rfl) ⟨⟨hf.below, hf.log, hf.reply⟩, ?_⟩
    · obtain ⟨hmem, hne⟩ := List.mem_filter.mp hp
      have hne' : p.1 ≠ i := by simpa using hne
      exact ⟨hmem, by simpa [Pc.id] using hne'.symm⟩
    · intro sk hsk
      rw [hb sk hsk] at hpeer hlen
      exact scanPeer_hexlify hlen hpeer
  | agree i peer d z hpc hz =>
    simp only [hpc] at hh
    refine ha.quiet (fun p hp => ?_) rfl rfl rfl (fun _ _ => Iff.rfl)
      ⟨⟨hh.1.below, hh.1.log, hh.1.reply⟩, fun sk hsk => ?_⟩
    · have := ha.gone (i := i) (by rw [hpc]; rfl) p hp
      exact ⟨hp, by simpa [Pc.id] using this.symm⟩
    · rw [hh.2 sk hsk] at hz
      rw [derivePsk, hcomm sk d z hz]
      rfl
  | agreeRefused i peer text hpc =>
    simp only [hpc] at hh
    exact ha.reply i 500 text hh.1.below (ha.gone (by rw [hpc]; rfl)) nofun
  | agreeFailed i peer left text hpc =>
    simp only [hpc] at hh
    have hgone := ha.gone (i := i) (by rw [hpc]; rfl)
    have ha' : Agreed c { s with ram := { s.ram with psk := left } } := by
      refine ha.quiet (fun p hp => ⟨hp, (ha.requests p.1 p.2 hp).2.1⟩) rfl rfl rfl (fun _ _ => Iff.rfl) ?_
      rw [hpc]
      exact ⟨⟨hh.1.below, hh.1.log, hh.1.reply⟩, hh.2⟩
    exact ha'.reply i 500 text hh.1.below hgone nofun
  | store i ours hpc => exact ha.store hpc
  | storeFailed i ours text hpc =>
    simp only [hpc] at hh
    exact ha.reply i 500 text hh.1.below (ha.gone (by rw [hpc]; rfl)) nofun
  | finish i ours hpc =>
    simp only [hpc] at hh
    have hgone := ha.gone (i := i) (by rw [hpc]; rfl)
    have hdone := hh.1
    have ha' : Agreed c { s with ram := { s.ram with claimed := true } } := by
      refine ha.quiet (fun p hp => ⟨hp, (ha.requests p.1 p.2 hp).2.1⟩) rfl rfl rfl (fun _ _ => Iff.rfl) ?_
      rw [hpc]
      exact ⟨⟨hdone.below, hdone.log, hdone.agreed⟩, hh.2⟩
    exact ha'.reply i 200 _ hdone.below hgone
      (fun _ => ⟨ours, s.ram.psk, rfl, ⟨hdone.below, hdone.log, hdone.agreed⟩⟩)
  | unclaim auth pre hpc => exact ha.quiet (fun p hp => ⟨hp, nofun⟩) rfl rfl rfl (fun _ _ => Iff.rfl) trivial
  | unclaimRefused => exact ha
  | erase auth pre hpc =>
    exact ha.quiet (fun p hp => ⟨hp, nofun⟩) rfl rfl rfl (fun i k => by simp) trivial
  | eraseFailed auth pre hpc =>
    exact ha.quiet (fun p hp => ⟨hp, nofun⟩) rfl rfl rfl (fun _ _ => Iff.rfl) trivial
  | forget hpc => exact ha.quiet (fun p hp => ⟨hp, nofun⟩) rfl rfl rfl (fun _ _ => Iff.rfl) trivial
  | bump hpc =>
    refine ha.quiet (hidle hpc) rfl rfl rfl (fun _ _ => Iff.rfl) ?_
    simp only [Handling, hpc]
  | restart rand => exact ha.quiet (fun p hp => ⟨hp, nofun⟩) rfl rfl rfl (fun _ _ => Iff.rfl) trivial

theorem Reachable.agreed (hcomm : ∀ a b z, m.computeShared b (c.publicKey a) = some z →
      c.scalarmult a (m.genPublic b) = some z) (h : Reachable H c m flash s) : Agreed c s := by
  apply h.invariant
  · rintro _ ⟨rand, rfl⟩
    exact ⟨nofun, nofun, nofun, nofun, nofun, trivial⟩
  · intro s l s' _ ha _ hs
    exact ha.step hcomm (step_cases hs)

end Agreed

section

variable {H : Hashes} {c : Curve} {m : Ecdh} {flash : Option Psk} {s : State}

theorem Agreed.host (ha : Agreed c s) {i : ℕ} {sk : Block 32} {body : Bytes} (hhost : (i, sk) ∈ s.hosts)
    (hreply : ⟨i, 200, body⟩ ∈ s.replies) :
    ∃ k, claimedPsk c sk 200 body = some k ∧ ∀ k', .accepted i k' ∈ s.log ↔ k' = k := by
  obtain ⟨ours, k, hbody, hdone⟩ := ha.replies _ hreply rfl
  simp only at hbody
  refine ⟨k, ?_, hdone.log⟩
  rw [hbody, claimedPsk_reply]
  exact hdone.agreed sk hhost

theorem Reachable.append {s' : State} (h : Reachable H c m flash s) {ls : List Label}
    (hrun : Runs.run (step H c m) Runs.always s ls = some s') : Reachable H c m flash s' :=
  Runs.reachableWhile_of_run ls h hrun

end

end HciBridge.Claim
