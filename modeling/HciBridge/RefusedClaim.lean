import HciBridge.Claim
import Mathlib.Logic.Relation

/-!
`auth_claim` and `auth_unclaim` of `firmware/main/auth.c` step by step, with every failure of mbedTLS
and of the flash store between them, and what the board is after such a failure and a reboot.
-/

namespace HciBridge.RefusedClaim

open Auth (Bytes Block Psk ascii hexlify)
open HostClaim (Curve)
open KeyProtocol.Firmware (Board)
open Claim (Ecdh authInit scanPeer)

structure State where
  ram : Board
  flash : Option Psk

/-- How the calls on the open store end. A change that was not committed lasts if it is `kept`. -/
structure Nvs where
  opened : Bool
  updated : Bool
  committed : Bool
  kept : Bool
deriving DecidableEq, Repr

inductive EspErr
  | ok
  | fail
  | notFound
deriving DecidableEq, Repr

def Nvs.setBlob (nvs : Nvs) : EspErr := if nvs.updated then .ok else .fail

def Nvs.eraseKey (nvs : Nvs) (flash : Option Psk) : EspErr :=
  if !nvs.updated then .fail else if flash.isNone then .notFound else .ok

/-- `nvs_commit` after the change `err` comes from: the key in flash, and the error of both. -/
def Nvs.commit (nvs : Nvs) (err : EspErr) (before after : Option Psk) : Option Psk × EspErr :=
  let err := if err = .ok && !nvs.committed then .fail else err
  (if err = .ok || nvs.kept then after else before, err)

/-- Which steps of `auth_claim` succeed: the private value is `genPublic`, and `hashLeft` what a failed
SHA-256 leaves in `g_psk`. -/
structure ClaimEnv where
  groupLoad : Bool
  genPublic : Option (Block 32)
  writePublic : Bool
  readPeer : Bool
  lset : Bool
  computeShared : Bool
  writeShared : Bool
  hashLeft : Option Psk
  nvs : Nvs
deriving DecidableEq, Repr

section

variable (c : Curve) (m : Ecdh)

def agree (env : ClaimEnv) (peer : Block 32) (psk : Psk) : Psk × Option (Block 32) :=
  if !env.groupLoad then (psk, none)
  else match env.genPublic with
    | none => (psk, none)
    | some d =>
      if !env.writePublic then (psk, none)
      else if !env.readPeer then (psk, none)
      else if !env.lset then (psk, none)
      else if !env.computeShared then (psk, none)
      else match m.computeShared d peer with
        | none => (psk, none)
        | some z =>
          if !env.writeShared then (psk, none)
          else match env.hashLeft with
            | some left => (left, none)
            | none => (c.sha256 z.bytes, some (m.genPublic d))

/-- No public key means that `auth_claim` returned an error. -/
def authClaim (s : State) (env : ClaimEnv) (peer : Block 32) : State × Option (Block 32) :=
  if s.ram.claimed then (s, none)
  else
    let (psk, ours) := agree c m env peer s.ram.psk
    let s := { s with ram := { s.ram with psk := psk } }
    match ours with
    | none => (s, none)
    | some ours =>
      if !env.nvs.opened then (s, none)
      else
        let (flash, err) := env.nvs.commit env.nvs.setBlob s.flash (some psk)
        let s := { s with flash := flash }
        if err ≠ .ok then (s, none) else ({ s with ram := { s.ram with claimed := true } }, some ours)

def authUnclaim (s : State) (nvs : Nvs) : State × Bool :=
  if !nvs.opened then (s, false)
  else
    let err := nvs.eraseKey s.flash
    let err := if err = .notFound then .ok else err
    let (flash, err) := nvs.commit err s.flash none
    let s := { s with flash := flash }
    if err ≠ .ok then (s, false) else ({ s with ram := { s.ram with psk := .fill 32 0, claimed := false } }, true)

def authClaimed (b : Board) : Bool := b.claimed

/-- `inner` is how the exchange of proofs would end. -/
def authHandshake (b : Board) (inner : Bool) : Bool := if !b.claimed then false else inner

structure Response where
  status : ℕ
  body : Bytes
deriving DecidableEq, Repr

def claimPost (s : State) (env : ClaimEnv) (received : Bytes) : State × Response :=
  if authClaimed s.ram then (s, ⟨403, ascii "already claimed; factory-reset to re-key"⟩)
  else if received.length < 64 then (s, ⟨400, ascii "expected 64 hex chars"⟩)
  else match scanPeer received with
    | none => (s, ⟨400, ascii "bad hex"⟩)
    | some peer =>
      match authClaim c m s env peer with
      | (s, none) => (s, ⟨500, ascii "claim failed"⟩)
      | (s, some ours) => (s, ⟨200, hexlify ours.bytes ++ ascii "\n"⟩)

def boot (flash : Option Psk) (rand : Block 16) : State := ⟨authInit flash rand, flash⟩

def ClaimEnv.agrees (env : ClaimEnv) (peer : Block 32) : Bool :=
  env.groupLoad && env.writePublic && env.readPeer && env.lset && env.computeShared && env.writeShared &&
    env.hashLeft.isNone && env.genPublic.any fun d => (m.computeShared d peer).isSome

inductive Call
  | claim (env : ClaimEnv) (received : Bytes)
  | unclaim (nvs : Nvs)
  | reboot (rand : Block 16)

def serve (s : State) : Call → State
  | .claim env received => (claimPost c m s env received).1
  | .unclaim nvs => (authUnclaim s nvs).1
  | .reboot rand => boot s.flash rand

def Call.clean : Call → Bool
  | claim env _ => !env.nvs.kept
  | unclaim nvs => !nvs.kept
  | reboot _ => true

end

section

variable {c : Curve} {m : Ecdh} {s : State} {env : ClaimEnv} {nvs : Nvs} {peer : Block 32}

theorem commit_done {err : EspErr} {before after : Option Psk} (h : (nvs.commit err before after).2 = .ok) :
    (nvs.commit err before after).1 = after := by
  unfold Nvs.commit at h ⊢
  simp only at h ⊢
  rw [h]
  rfl

theorem commit_flash {err : EspErr} {before after : Option Psk} (h : (nvs.commit err before after).2 ≠ .ok) :
    (nvs.commit err before after).1 = if nvs.kept then after else before := by
  unfold Nvs.commit at h ⊢
  simp only at h ⊢
  rw [decide_eq_false h, Bool.false_or]

theorem authClaim_claims (h : (authClaim c m s env peer).2.isSome = true) :
    (authClaim c m s env peer).1.ram.claimed = true ∧
      (authClaim c m s env peer).1.flash = some (authClaim c m s env peer).1.ram.psk := by
  unfold authClaim at h ⊢
  cases hs : s.ram.claimed with
  | true => simp [hs] at h
  | false =>
    simp only [hs, Bool.false_eq_true, if_false] at h ⊢
    split at h
    case h_1 => cases h
    case h_2 =>
      split at h
      case isTrue => cases h
      case isFalse hopen =>
        split at h
        case isTrue => cases h
        case isFalse herr =>
          rw [not_not] at herr
          simp [hopen, herr, commit_done herr]

theorem authUnclaim_failed (h : (authUnclaim s nvs).2 = false) :
    (authUnclaim s nvs).1.ram = s.ram ∧
      (authUnclaim s nvs).1.flash = if nvs.opened && nvs.kept then none else s.flash := by
  unfold authUnclaim at h ⊢
  cases ho : nvs.opened with
  | false => simp
  | true =>
    simp only [ho, Bool.not_true, Bool.false_eq_true, if_false, Bool.true_and] at h ⊢
    generalize (if nvs.eraseKey s.flash = .notFound then EspErr.ok else nvs.eraseKey s.flash) = err at h ⊢
    by_cases herr : (nvs.commit err s.flash none).2 = .ok
    · simp [herr] at h
    · simp [herr, commit_flash herr]

theorem authUnclaim_unclaims (h : (authUnclaim s nvs).2 = true) :
    (authUnclaim s nvs).1.ram.claimed = false ∧ (authUnclaim s nvs).1.flash = none := by
  unfold authUnclaim at h ⊢
  cases ho : nvs.opened with
  | false => simp [ho] at h
  | true =>
    simp only [ho, Bool.not_true, Bool.false_eq_true, if_false] at h ⊢
    generalize (if nvs.eraseKey s.flash = .notFound then EspErr.ok else nvs.eraseKey s.flash) = err at h ⊢
    by_cases herr : (nvs.commit err s.flash none).2 = .ok
    · simp [herr, commit_done herr]
    · simp [herr] at h

end

section

variable (c : Curve) (m : Ecdh)

end

end HciBridge.RefusedClaim
