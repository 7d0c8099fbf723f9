import HciBridge.HostClaim
import HciBridge.KeyProtocol
import HciBridge.Runs

/-!
`/claim` and `/unclaim` of `firmware/main/ota.c` with `auth_claim` and `auth_unclaim` of
`firmware/main/auth.c`, against any number of hosts and over any number of boots.
-/

namespace HciBridge.Claim

open Auth (Bytes Block Psk ascii hexlify)
open HostClaim (Curve derivePsk claimedPsk)
open KeyProtocol (Hashes CString)
open KeyProtocol.Firmware (Board nibble checkHttp checkHttpPre)

/-- X25519 of mbedTLS: the public key of a private value, and the secret shared with a peer. -/
structure Ecdh where
  genPublic : Block 32 → Block 32
  computeShared : Block 32 → Block 32 → Option (Block 32)

def isSpace (c : UInt8) : Bool := c = 32 ∨ (9 ≤ c ∧ c ≤ 13)

/-- `(uint8_t)v` after `sscanf(s, "%2x", &v)`; `none` is a result other than 1. -/
def scanHex (s : Bytes) : Option UInt8 :=
  match (s.takeWhile fun c => c ≠ 0).dropWhile isSpace with
  | [] => none
  | [c] => (nibble c).map Nat.toUInt8
  | c :: d :: _ =>
    if c = 43 then (nibble d).map Nat.toUInt8
    else if c = 45 then (nibble d).map fun n => 0 - n.toUInt8
    -- "0x" is the beginning of a longer number and none of its own
    else if c = 48 ∧ (d = 120 ∨ d = 88) then none
    else (nibble c).map fun h => ((nibble d).map fun l => h * 16 + l).getD h |>.toUInt8

def scanPairs : ℕ → Bytes → Option Bytes
  | 0, _ => some []
  | n + 1, s => (scanHex s).bind fun v => (scanPairs n (s.drop 2)).map fun vs => v :: vs

def scanPeer (body : Bytes) : Option (Block 32) :=
  (scanPairs 32 (body.take 64)).bind fun bs => if h : bs.length = 32 then some ⟨bs, h⟩ else none

inductive Event
  | accepted (i : ℕ) (key : Psk)
  | unclaimed (key : Psk)
deriving DecidableEq, Repr

inductive Pc
  | idle
  -- in `auth_claim`, before, during and after the agreement and the write to flash
  | agreeing (i : ℕ) (peer : Block 32)
  | storing (i : ℕ) (ours : Block 32)
  | stored (i : ℕ) (ours : Block 32)
  -- in `auth_unclaim`, and before the restart that follows
  | erasing (auth pre : Option CString)
  | erased
  | restarting

structure Reply where
  id : ℕ
  status : ℕ
  body : Bytes
deriving DecidableEq, Repr

structure State where
  ram : Board
  flash : Option Psk
  pc : Pc
  -- `/claim` requests on their way, the secret keys of those sent by `hcibridge claim`, the answers
  requests : List (ℕ × Bytes)
  hosts : List (ℕ × Block 32)
  next : ℕ
  replies : List Reply
  log : List Event

inductive Label
  | host (secretKey : Block 32)
  | stranger (body : Bytes)
  | drop (i : ℕ)
  | claim (i n : ℕ)
  | agree (d : Block 32)
  | agreeFailed (left : Psk)
  | store
  | storeFailed
  | finish
  | unclaim (auth pre : Option CString)
  | erase
  | eraseFailed
  | forget
  | bump
  | restart (rand : Block 16)

def authInit (flash : Option Psk) (rand : Block 16) : Board :=
  ⟨flash.getD (.fill 32 0), flash.isSome, rand, 0⟩

def start (flash : Option Psk) (rand : Block 16) : State :=
  ⟨authInit flash rand, flash, .idle, [], [], 0, [], []⟩

def State.key (s : State) : Option Psk := if s.ram.claimed then some s.ram.psk else none

def State.send (s : State) (secretKey : Option (Block 32)) (body : Bytes) : State :=
  { s with
    requests := (s.next, body) :: s.requests
    hosts := (secretKey.map fun sk => (s.next, sk)).toList ++ s.hosts
    next := s.next + 1 }

def State.reply (s : State) (i status : ℕ) (body : Bytes) : State :=
  { s with pc := .idle, replies := ⟨i, status, body⟩ :: s.replies }

def post : CString := ⟨ascii "POST", by decide⟩
def unclaimPath : CString := ⟨ascii "/unclaim", by decide⟩

/-- `get_proofs` and the two checks of `unclaim_post` -/
def proved (H : Hashes) (b : Board) (auth pre : Option CString) : Bool :=
  b.claimed && auth.isSome && pre.isSome && checkHttpPre H b post unclaimPath 0 pre &&
    checkHttp H b post unclaimPath (H.sha256 []) auth

def claimPost (s : State) (i : ℕ) (body : Bytes) : State :=
  if s.ram.claimed then s.reply i 403 (ascii "already claimed; factory-reset to re-key")
  else if body.length < 64 then s.reply i 400 (ascii "expected 64 hex chars")
  else
    match scanPeer body with
    | none => s.reply i 400 (ascii "bad hex")
    | some peer => { s with pc := .agreeing i peer }

section

variable (H : Hashes) (c : Curve) (m : Ecdh)

def authAgree (s : State) (i : ℕ) (peer d : Block 32) : State :=
  if s.ram.claimed then s.reply i 500 (ascii "claim failed")
  else
    match m.computeShared d peer with
    | none => s.reply i 500 (ascii "claim failed")
    | some z =>
      { s with ram := { s.ram with psk := c.sha256 z.bytes }, pc := .storing i (m.genPublic d) }

/-- The server handles one request at a time; the board may restart between any two steps. -/
def step (s : State) : Label → Option State
  | .host secretKey => some (s.send (some secretKey) (hexlify (c.publicKey secretKey).bytes))
  | .stranger body => some (s.send none body)
  | .drop i => some { s with requests := s.requests.filter fun r => r.1 ≠ i }
  | .claim i n =>
    match s.pc, s.requests.find? fun r => r.1 = i with
    -- `httpd_req_recv` returns at most 79 bytes, and maybe fewer than were sent
    | .idle, some (_, body) =>
      some (claimPost { s with requests := s.requests.filter fun r => r.1 ≠ i } i (body.take (min n 79)))
    | _, _ => none
  | .agree d =>
    match s.pc with
    | .agreeing i peer => some (authAgree c m s i peer d)
    | _ => none
  | .agreeFailed left =>
    match s.pc with
    | .agreeing i _ => some ({ s with ram := { s.ram with psk := left } }.reply i 500 (ascii "claim failed"))
    | _ => none
  | .store =>
    match s.pc with
    | .storing i ours =>
      some { s with flash := some s.ram.psk, log := s.log ++ [.accepted i s.ram.psk], pc := .stored i ours }
    | _ => none
  | .storeFailed =>
    match s.pc with
    | .storing i _ => some (s.reply i 500 (ascii "claim failed"))
    | _ => none
  | .finish =>
    match s.pc with
    | .stored i ours =>
      some ({ s with ram := { s.ram with claimed := true } }.reply i 200 (hexlify ours.bytes ++ ascii "\n"))
    | _ => none
  | .unclaim auth pre =>
    match s.pc with
    | .idle => some (if proved H s.ram auth pre then { s with pc := .erasing auth pre } else s)
    | _ => none
  | .erase =>
    match s.pc with
    | .erasing _ _ => some { s with flash := none, log := s.log ++ [.unclaimed s.ram.psk], pc := .erased }
    | _ => none
  | .eraseFailed =>
    match s.pc with
    | .erasing _ _ => some { s with pc := .idle }
    | _ => none
  | .forget =>
    match s.pc with
    | .erased => some { s with ram := { s.ram with psk := .fill 32 0, claimed := false }, pc := .restarting }
    | _ => none
  | .bump =>
    match s.pc with
    | .idle => some { s with ram := { s.ram with httpCounter := s.ram.httpCounter + 1 } }
    | _ => none
  | .restart rand => some { s with ram := authInit s.flash rand, pc := .idle }

def IsInit (flash : Option Psk) (s : State) : Prop := ∃ rand, s = start flash rand

abbrev Reachable (flash : Option Psk) : State → Prop := Runs.Reachable (step H c m) (IsInit flash)

inductive Step (s : State) : State → Prop
  | host (secretKey : Block 32) : Step s (s.send (some secretKey) (hexlify (c.publicKey secretKey).bytes))
  | stranger (body : Bytes) : Step s (s.send none body)
  | drop (i : ℕ) : Step s { s with requests := s.requests.filter fun r => r.1 ≠ i }
  | refuse (i n status : ℕ) (body text : Bytes) (hpc : s.pc = .idle) (hreq : (i, body) ∈ s.requests)
      (hstatus : status ≠ 200) :
      Step s ({ s with requests := s.requests.filter fun r => r.1 ≠ i }.reply i status text)
  | claim (i n : ℕ) (body : Bytes) (peer : Block 32) (hpc : s.pc = .idle) (hreq : (i, body) ∈ s.requests)
      (hclaimed : s.ram.claimed = false) (hpeer : scanPeer (body.take n) = some peer)
      (hlen : 64 ≤ (body.take n).length) :
      Step s { s with requests := s.requests.filter fun r => r.1 ≠ i, pc := .agreeing i peer }
  | agree (i : ℕ) (peer d z : Block 32) (hpc : s.pc = .agreeing i peer)
      (hz : m.computeShared d peer = some z) :
      Step s { s with ram := { s.ram with psk := c.sha256 z.bytes }, pc := .storing i (m.genPublic d) }
  | agreeRefused (i : ℕ) (peer : Block 32) (text : Bytes) (hpc : s.pc = .agreeing i peer) :
      Step s (s.reply i 500 text)
  | agreeFailed (i : ℕ) (peer : Block 32) (left : Psk) (text : Bytes) (hpc : s.pc = .agreeing i peer) :
      Step s ({ s with ram := { s.ram with psk := left } }.reply i 500 text)
  | store (i : ℕ) (ours : Block 32) (hpc : s.pc = .storing i ours) :
      Step s { s with flash := some s.ram.psk, log := s.log ++ [.accepted i s.ram.psk], pc := .stored i ours }
  | storeFailed (i : ℕ) (ours : Block 32) (text : Bytes) (hpc : s.pc = .storing i ours) :
      Step s (s.reply i 500 text)
  | finish (i : ℕ) (ours : Block 32) (hpc : s.pc = .stored i ours) :
      Step s ({ s with ram := { s.ram with claimed := true } }.reply i 200 (hexlify ours.bytes ++ ascii "\n"))
  | unclaim (auth pre : Option CString) (hpc : s.pc = .idle) (hproved : proved H s.ram auth pre = true) :
      Step s { s with pc := .erasing auth pre }
  | unclaimRefused (hpc : s.pc = .idle) : Step s s
  | erase (auth pre : Option CString) (hpc : s.pc = .erasing auth pre) :
      Step s { s with flash := none, log := s.log ++ [.unclaimed s.ram.psk], pc := .erased }
  | eraseFailed (auth pre : Option CString) (hpc : s.pc = .erasing auth pre) : Step s { s with pc := .idle }
  | forget (hpc : s.pc = .erased) :
      Step s { s with ram := { s.ram with psk := .fill 32 0, claimed := false }, pc := .restarting }
  | bump (hpc : s.pc = .idle) : Step s { s with ram := { s.ram with httpCounter := s.ram.httpCounter + 1 } }
  | restart (rand : Block 16) : Step s { s with ram := authInit s.flash rand, pc := .idle }

variable {H c m}

theorem step_claimPost {s : State} {i n : ℕ} {body : Bytes} (hpc : s.pc = .idle)
    (hreq : (i, body) ∈ s.requests) :
    Step H c m s
      (claimPost { s with requests := s.requests.filter fun r => r.1 ≠ i } i (body.take n)) := by
  unfold claimPost
  split
  case isTrue => exact .refuse i n 403 body _ hpc hreq (by decide)
  case isFalse hclaimed =>
    split
    case isTrue => exact .refuse i n 400 body _ hpc hreq (by decide)
    case isFalse hlen =>
      split
      case h_1 => exact .refuse i n 400 body _ hpc hreq (by decide)
      case h_2 peer hpeer =>
        exact .claim i n body peer hpc hreq (by simpa using hclaimed) hpeer (Nat.le_of_not_lt hlen)

theorem step_authAgree {s : State} {i : ℕ} {peer : Block 32} (hpc : s.pc = .agreeing i peer) (d : Block 32) :
    Step H c m s (authAgree c m s i peer d) := by
  unfold authAgree
  split
  case isTrue => exact .agreeRefused i peer _ hpc
  case isFalse =>
    split
    case h_1 => exact .agreeRefused i peer _ hpc
    case h_2 z hz => exact .agree i peer d z hpc hz

theorem step_cases {s s' : State} {l : Label} (h : step H c m s l = some s') : Step H c m s s' := by
  cases l with
  | host secretKey =>
    cases h
    exact .host secretKey
  | stranger body =>
    cases h
    exact .stranger body
  | drop i =>
    cases h
    exact .drop i
  | claim i n =>
    simp only [step] at h
    split at h
    case h_1 j body hpc hfind =>
      cases h
      have hj : j = i := by simpa using List.find?_some hfind
      subst hj
      exact step_claimPost hpc (List.mem_of_find?_eq_some hfind)
    case h_2 => cases h
  | agree d =>
    simp only [step] at h
    split at h
    case h_1 i peer hpc =>
      cases h
      exact step_authAgree hpc d
    case h_2 => cases h
  | agreeFailed left =>
    simp only [step] at h
    split at h
    case h_1 i peer hpc =>
      cases h
      exact .agreeFailed i peer left _ hpc
    case h_2 => cases h
  | store =>
    simp only [step] at h
    split at h
    case h_1 i ours hpc =>
      cases h
      exact .store i ours hpc
    case h_2 => cases h
  | storeFailed =>
    simp only [step] at h
    split at h
    case h_1 i ours hpc =>
      cases h
      exact .storeFailed i ours _ hpc
    case h_2 => cases h
  | finish =>
    simp only [step] at h
    split at h
    case h_1 i ours hpc =>
      cases h
      exact .finish i ours hpc
    case h_2 => cases h
  | unclaim auth pre =>
    simp only [step] at h
    split at h
    case h_1 hpc =>
      split at h
      case isTrue hproved =>
        cases h
        exact .unclaim auth pre hpc hproved
      case isFalse =>
        cases h
        exact .unclaimRefused hpc
    case h_2 => cases h
  | erase =>
    simp only [step] at h
    split at h
    case h_1 auth pre hpc =>
      cases h
      exact .erase auth pre hpc
    case h_2 => cases h
  | eraseFailed =>
    simp only [step] at h
    split at h
    case h_1 auth pre hpc =>
      cases h
      exact .eraseFailed auth pre hpc
    case h_2 => cases h
  | forget =>
    simp only [step] at h
    split at h
    case h_1 hpc =>
      cases h
      exact .forget hpc
    case h_2 => cases h
  | bump =>
    simp only [step] at h
    split at h
    case h_1 hpc =>
      cases h
      exact .bump hpc
    case h_2 => cases h
  | restart rand =>
    cases h
    exact .restart rand

end

end HciBridge.Claim
