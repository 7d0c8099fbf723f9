import HciBridge.Auth
import HciBridge.Runs

/-!
`auth_handshake` on the HCI task against `/claim` and `/unclaim` on the HTTP
task: both work on `g_psk` and `g_claimed`, one step for each test or write of
them.
-/

namespace HciBridge.Unclaim

open Auth

inductive HandshakePc
  | idle
  | sendNonce
  | recvAnswer (serverNonce : Nonce)
  | checkProof (serverNonce clientNonce : Nonce) (proof : Mac)
  | sendReply (serverNonce clientNonce : Nonce) (proof : Mac) (holder : Option Psk)
deriving DecidableEq, Repr

inductive HttpPc
  | idle
  -- auth_claim
  | testClaimed | derive | store | setClaimed
  -- auth_unclaim
  | erase | clearPsk | clearClaimed
  | restart
deriving DecidableEq, Repr

structure Accepted where
  serverNonce : Nonce
  clientNonce : Nonce
  proof : Mac
  reply : Mac
  holder : Option Psk
deriving DecidableEq, Repr

structure State where
  nvs : Option Psk
  gPsk : Psk
  gClaimed : Bool
  hs : HandshakePc
  http : HttpPc
  -- the key of the claim in force: from the end of `auth_claim` to its erasure
  holder : Option Psk
  accepted : List Accepted
deriving DecidableEq, Repr

/-- What `auth_init` makes of the flash; `g_psk` starts out as zeros. -/
def boot (nvs : Option Psk) : State where
  nvs := nvs
  gPsk := nvs.getD (.fill 32 0)
  gClaimed := nvs.isSome
  hs := .idle
  http := .idle
  holder := nvs
  accepted := []

inductive Label
  | handshake
  | sendNonce (serverNonce : Option Nonce)
  | recvAnswer (answer : Option (Nonce × Mac))
  | checkProof
  | sendReply (ok : Bool)
  | claimPost (decoded : Bool)
  | testClaimed
  | derive (key : Option Psk)
  | store (ok stored : Bool)
  | setClaimed
  | unclaimPost (proved : Bool)
  | erase (ok erased : Bool)
  | clearPsk
  | clearClaimed
  | restart
deriving DecidableEq, Repr

def authHandshake (s : State) (l : Label) : Option State :=
  match s.hs, l with
  | .idle, .handshake => some { s with hs := if s.gClaimed then .sendNonce else .idle }
  | .sendNonce, .sendNonce none => some { s with hs := .idle }
  | .sendNonce, .sendNonce (some sn) => some { s with hs := .recvAnswer sn }
  | .recvAnswer _, .recvAnswer none => some { s with hs := .idle }
  | .recvAnswer sn, .recvAnswer (some (cn, proof)) => some { s with hs := .checkProof sn cn proof }
  | .checkProof sn cn proof, .checkProof =>
    some { s with hs := if proof = clientMac s.gPsk sn cn then .sendReply sn cn proof s.holder else .idle }
  | .sendReply sn cn proof holder, .sendReply ok =>
    some { s with
      hs := .idle
      accepted := if ok then s.accepted ++ [⟨sn, cn, proof, boardMac s.gPsk cn sn, holder⟩] else s.accepted }
  | _, _ => none

def authClaim (s : State) (l : Label) : Option State :=
  match s.http, l with
  | .testClaimed, .testClaimed => some { s with http := if s.gClaimed then .idle else .derive }
  | .derive, .derive none => some { s with http := .idle }
  | .derive, .derive (some key) => some { s with gPsk := key, http := .store }
  | .store, .store ok stored =>
    -- a commit that fails may still have stored the key
    if ok && !stored then none
    else some { s with
      nvs := if stored then some s.gPsk else s.nvs
      http := if ok then .setClaimed else .idle }
  | .setClaimed, .setClaimed => some { s with gClaimed := true, holder := some s.gPsk, http := .idle }
  | _, _ => none

def authUnclaim (s : State) (l : Label) : Option State :=
  match s.http, l with
  | .erase, .erase ok erased =>
    if ok && !erased then none
    else some { s with
      nvs := if erased then none else s.nvs
      http := if ok then .clearPsk else .idle }
  | .clearPsk, .clearPsk => some { s with gPsk := .fill 32 0, holder := none, http := .clearClaimed }
  | .clearClaimed, .clearClaimed => some { s with gClaimed := false, http := .restart }
  | _, _ => none

def httpTask (s : State) (l : Label) : Option State :=
  match s.http, l with
  | .idle, .claimPost decoded =>
    some { s with http := if !s.gClaimed && decoded then .testClaimed else .idle }
  | .idle, .unclaimPost proved => some { s with http := if s.gClaimed && proved then .erase else .idle }
  | .testClaimed, l | .derive, l | .store, l | .setClaimed, l => authClaim s l
  | .erase, l | .clearPsk, l | .clearClaimed, l => authUnclaim s l
  | _, _ => none

/-- `unclaim_post` restarts when it is done, and the board may be restarted or lose power at any
time. -/
def step (s : State) (l : Label) : Option State :=
  match l with
  | .handshake | .sendNonce _ | .recvAnswer _ | .checkProof | .sendReply _ => authHandshake s l
  | .restart => some { boot s.nvs with accepted := s.accepted }
  | _ => httpTask s l

def IsInit (s : State) : Prop := ∃ nvs, s = boot nvs

abbrev Reachable : State → Prop := Runs.Reachable step IsInit

def Accepted.UnderHolder (a : Accepted) : Prop :=
  ∃ key, a.holder = some key ∧ a.proof = clientMac key a.serverNonce a.clientNonce

/-- No proof is checked between the erasure of `g_psk` by `auth_unclaim` and the restart. -/
def checksBeforeErase (s : State) : Label → Bool
  | .checkProof => s.http ≠ .clearClaimed && s.http ≠ .restart
  | _ => true

def HandshakePc.pending : HandshakePc → Bool
  | sendNonce | recvAnswer _ | checkProof _ _ _ => true
  | _ => false

def HttpPc.claiming : HttpPc → Bool
  | derive | store | setClaimed => true
  | _ => false

structure HolderInv (s : State) : Prop where
  held : s.gClaimed = true → s.http ≠ .clearClaimed → s.holder = some s.gPsk
  pending : s.hs.pending = true → s.gClaimed = true ∨ s.http = .restart
  claiming : s.http.claiming = true → s.gClaimed = false
  restarting : s.http = .restart → s.gClaimed = false
  replying : ∀ sn cn proof holder, s.hs = .sendReply sn cn proof holder →
    ∃ key, holder = some key ∧ proof = clientMac key sn cn
  accepted : ∀ a ∈ s.accepted, a.UnderHolder

theorem holderInv_boot (nvs : Option Psk) : HolderInv (boot nvs) := by
  constructor <;> cases nvs <;> simp [boot, HandshakePc.pending, HttpPc.claiming]

theorem holderInv_authHandshake {s s' : State} {l : Label} (hi : HolderInv s)
    (hc : checksBeforeErase s l = true) (h : authHandshake s l = some s') : HolderInv s' := by
  obtain ⟨hheld, hpending, hclaiming, hrestarting, hreplying, haccepted⟩ := hi
  unfold authHandshake at h
  split at h
  case h_1 hpc =>
    cases h
    refine ⟨hheld, ?_, hclaiming, hrestarting, ?_, haccepted⟩
    · intro hp
      by_cases hg : s.gClaimed = true
      · exact .inl hg
      · simp [hg, HandshakePc.pending] at hp
    · intro sn cn proof holder
      split <;> simp
  case h_2 hpc | h_4 hpc =>
    cases h
    exact ⟨hheld, by simp [HandshakePc.pending], hclaiming, hrestarting, by simp, haccepted⟩
  case h_3 hpc | h_5 hpc =>
    cases h
    exact ⟨hheld, fun _ => hpending (by rw [hpc]; rfl), hclaiming, hrestarting, by simp, haccepted⟩
  case h_6 sn cn proof hpc =>
    cases h
    refine ⟨hheld, ?_, hclaiming, hrestarting, ?_, haccepted⟩
    · intro hp
      by_cases he : proof = clientMac s.gPsk sn cn <;> simp [he, HandshakePc.pending] at hp
    · intro sn' cn' proof' holder hr
      -- this is where the key is used that `g_claimed` vouched for some time ago
      simp only [checksBeforeErase, Bool.and_eq_true, decide_eq_true_eq] at hc
      have hg : s.gClaimed = true := (hpending (by rw [hpc]; rfl)).resolve_right hc.2
      simp only at hr
      split at hr
      case isTrue he =>
        cases hr
        exact ⟨s.gPsk, hheld hg hc.1, he⟩
      case isFalse => cases hr
  case h_7 sn cn proof holder ok hpc =>
    cases h
    refine ⟨hheld, by simp [HandshakePc.pending], hclaiming, hrestarting, by simp, ?_⟩
    intro a ha
    cases ok with
    | false => exact haccepted a ha
    | true =>
      rcases List.mem_append.mp ha with ha | ha
      · exact haccepted a ha
      · rw [List.mem_singleton.mp ha]
        exact hreplying sn cn proof holder hpc
  case h_8 => cases h

theorem HolderInv.not_pending {s : State} (hi : HolderInv s) (h : s.http.claiming = true) :
    s.hs.pending = false := by
  cases hp : s.hs.pending with
  | false => rfl
  | true =>
    rcases hi.pending hp with hg | hr
    · rw [hi.claiming h] at hg
      cases hg
    · rw [hr] at h
      cases h

theorem holderInv_authClaim {s s' : State} {l : Label} (hi : HolderInv s)
    (h : authClaim s l = some s') : HolderInv s' := by
  unfold authClaim at h
  split at h
  case h_1 hpc =>
    cases h
    have hpending : s.hs.pending = true → s.gClaimed = true := fun hp =>
      (hi.pending hp).resolve_right (by simp [hpc])
    refine ⟨fun hg _ => hi.held hg (by simp [hpc]), fun hp => .inl (hpending hp), ?_, ?_, hi.replying,
      hi.accepted⟩
    · cases hg : s.gClaimed <;> simp [HttpPc.claiming]
    · cases hg : s.gClaimed <;> simp
  case h_2 hpc =>
    cases h
    have hg : s.gClaimed = false := hi.claiming (by rw [hpc]; rfl)
    have hp : s.hs.pending = false := hi.not_pending (by rw [hpc]; rfl)
    exact ⟨by simp [hg], by simp [hp], by simp [HttpPc.claiming], by simp, hi.replying, hi.accepted⟩
  case h_3 key hpc =>
    cases h
    have hg : s.gClaimed = false := hi.claiming (by rw [hpc]; rfl)
    have hp : s.hs.pending = false := hi.not_pending (by rw [hpc]; rfl)
    exact ⟨by simp [hg], by simp [hp], fun _ => hg, by simp, hi.replying, hi.accepted⟩
  case h_4 ok stored hpc =>
    split at h
    case isTrue => cases h
    case isFalse =>
      cases h
      have hg : s.gClaimed = false := hi.claiming (by rw [hpc]; rfl)
      have hp : s.hs.pending = false := hi.not_pending (by rw [hpc]; rfl)
      exact ⟨by simp [hg], by simp [hp], fun _ => hg, by cases ok <;> simp, hi.replying, hi.accepted⟩
  case h_5 hpc =>
    cases h
    exact ⟨fun _ _ => rfl, fun _ => .inl rfl, by simp [HttpPc.claiming], by simp, hi.replying, hi.accepted⟩
  case h_6 => cases h

theorem holderInv_authUnclaim {s s' : State} {l : Label} (hi : HolderInv s)
    (h : authUnclaim s l = some s') : HolderInv s' := by
  have hpending (hne : s.http ≠ .restart) : s.hs.pending = true → s.gClaimed = true := fun hp =>
    (hi.pending hp).resolve_right hne
  unfold authUnclaim at h
  split at h
  case h_1 ok erased hpc =>
    split at h
    case isTrue => cases h
    case isFalse =>
      cases h
      exact ⟨fun hg _ => hi.held hg (by simp [hpc]), fun hp => .inl (hpending (by simp [hpc]) hp),
        by cases ok <;> simp [HttpPc.claiming], by cases ok <;> simp, hi.replying, hi.accepted⟩
  case h_2 hpc =>
    cases h
    exact ⟨by simp, fun hp => .inl (hpending (by simp [hpc]) hp), by simp [HttpPc.claiming], by simp,
      hi.replying, hi.accepted⟩
  case h_3 hpc =>
    cases h
    exact ⟨by simp, fun _ => .inr rfl, by simp [HttpPc.claiming], fun _ => rfl, hi.replying, hi.accepted⟩
  case h_4 => cases h

theorem holderInv_httpTask {s s' : State} {l : Label} (hi : HolderInv s)
    (h : httpTask s l = some s') : HolderInv s' := by
  unfold httpTask at h
  split at h
  case h_1 decoded hpc | h_2 proved hpc =>
    cases h
    exact ⟨fun hg _ => hi.held hg (by simp [hpc]),
      fun hp => .inl ((hi.pending hp).resolve_right (by simp [hpc])),
      by split <;> simp [HttpPc.claiming], by split <;> simp, hi.replying, hi.accepted⟩
  case h_10 => cases h
  case h_7 | h_8 | h_9 => exact holderInv_authUnclaim hi h
  all_goals exact holderInv_authClaim hi h

theorem holderInv_step {s s' : State} {l : Label} (hi : HolderInv s) (hc : checksBeforeErase s l = true)
    (h : step s l = some s') : HolderInv s' := by
  unfold step at h
  split at h
  case h_6 =>
    cases h
    obtain ⟨hheld, hpending, hclaiming, hrestarting, hreplying, _⟩ := holderInv_boot s.nvs
    exact ⟨hheld, hpending, hclaiming, hrestarting, hreplying, hi.accepted⟩
  case h_7 => exact holderInv_httpTask hi h
  all_goals exact holderInv_authHandshake hi hc h

theorem accepted_under_holder {s : State} (h : Runs.ReachableWhile step IsInit checksBeforeErase s) :
    ∀ a ∈ s.accepted, a.UnderHolder := by
  have hi : HolderInv s := h.invariant HolderInv (by rintro _ ⟨nvs, rfl⟩; exact holderInv_boot nvs)
    fun _ _ _ _ hi hc hs => holderInv_step hi hc hs
  exact hi.accepted

def ownerConnects (key : Psk) : List Label :=
  [.handshake, .sendNonce (some (.fill 32 1)),
    .recvAnswer (some (.fill 32 2, clientMac key (.fill 32 1) (.fill 32 2))), .checkProof, .sendReply true]

theorem accepted_owner :
    ∃ s, Runs.ReachableWhile step IsInit checksBeforeErase s ∧ ∃ a ∈ s.accepted, a.UnderHolder := by
  obtain ⟨s, hs, hp⟩ := Runs.exists_of_run step IsInit checksBeforeErase (boot (some (.fill 32 0x42)))
    (ownerConnects (.fill 32 0x42)) (fun s => s.accepted.length = 1) ⟨_, rfl⟩ (by decide +kernel)
  simp only [decide_eq_true_eq] at hp
  obtain ⟨a, ha⟩ := List.length_eq_one_iff.mp hp
  have hmem : a ∈ s.accepted := by simp [ha]
  exact ⟨s, hs, a, hmem, accepted_under_holder hs a hmem⟩

/-- A stranger waits with its answer until `auth_unclaim` has left zeros for a key. -/
def zeroKeyConnects : List Label :=
  [.handshake, .sendNonce (some (.fill 32 1)), .unclaimPost true, .erase true true, .clearPsk,
    .clearClaimed, .recvAnswer (some (.fill 32 2, clientMac (.fill 32 0) (.fill 32 1) (.fill 32 2))),
    .checkProof, .sendReply true]

theorem accepted_zero_key : ¬∀ s, Reachable s → ∀ a ∈ s.accepted, a.UnderHolder := by
  intro h
  obtain ⟨s, hs, hp⟩ := Runs.exists_of_run step IsInit Runs.always (boot (some (.fill 32 0x42)))
    zeroKeyConnects (fun s => s.accepted.map Accepted.holder = [none]) ⟨_, rfl⟩ (by decide +kernel)
  simp only [decide_eq_true_eq] at hp
  obtain ⟨a, ha, hnone⟩ := List.map_eq_singleton_iff.mp hp
  obtain ⟨key, hkey, _⟩ := h s hs a (by simp [ha])
  rw [hnone] at hkey
  cases hkey

end HciBridge.Unclaim
