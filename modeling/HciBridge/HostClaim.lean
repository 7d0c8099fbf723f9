import HciBridge.Reload

/-!
`claim` of `host/cli.zig`: the board's status reply, the key agreed with it, and the drop-in the key
is saved in.
-/

namespace HciBridge.HostClaim

open Text
open Auth (Bytes Block Psk HttpNonce ascii hexlify hexToBlock hexToNonce pskToHex)
open Config
open Reload

/-- `std.crypto.dh.X25519` and SHA-256; `none` is the identity element. -/
structure Curve where
  publicKey : Block 32 → Block 32
  scalarmult : Block 32 → Block 32 → Option (Block 32)
  sha256 : Bytes → Block 32

def derivePsk (c : Curve) (secretKey peerPublic : Block 32) : Option Psk :=
  (c.scalarmult secretKey peerPublic).map fun shared => c.sha256 shared.bytes

def jsonField (body key : Bytes) (cap : ℕ) : Option Bytes := do
  let pat := ascii "\"" ++ key ++ ascii "\":\""
  if 64 < pat.length then none
  let rest ← after pat body
  let (v, _) ← cut 34 rest
  if cap < v.length then none else some v

def jsonBool (body key : Bytes) : Option Bool := do
  let yes := ascii "\"" ++ key ++ ascii "\":true"
  if 64 < yes.length then none
  if (after yes body).isSome then return true
  let no := ascii "\"" ++ key ++ ascii "\":false"
  if 64 < no.length then none
  if (after no body).isSome then return false
  none

structure BoardInfo where
  bdaddr : Bytes
  claimed : Option Bool
  nonce : Option HttpNonce
deriving DecidableEq, Repr

def boardInfo (body : Bytes) : Option BoardInfo := do
  let bdaddr ← jsonField body (ascii "bdaddr") 48
  if bdaddr.length ≠ 17 then none
  return ⟨bdaddr, jsonBool body (ascii "claimed"), (jsonField body (ascii "nonce") 48).bind hexToNonce⟩

def claimedPsk (c : Curve) (secretKey : Block 32) (status : ℕ) (body : Bytes) : Option Psk :=
  if status ≠ 200 then none
  else (hexToBlock 32 (trim [32, 13, 10] body)).bind (derivePsk c secretKey)

def claimLine (bdaddr : Bytes) (psk : Psk) : Bytes :=
  ascii "psk = " ++ bdaddr ++ ascii "=" ++ pskToHex psk ++ ascii "\n"

def dropinName (bdaddr : Bytes) : Bytes :=
  ascii "board-" ++ (bdaddr.map fun c => if c = 58 then 45 else lower c) ++ ascii ".conf"

/-- Whether files can be created beside the configuration, how much gets into one when writing it fails, and
what the system does about a file whose path goes through further directories. -/
structure Disk where
  writable : Bool
  cut : Option ℕ
  elsewhere : Files → Bytes → Bytes → Bool × Files

def writeFile (disk : Disk) (files : Files) (name data : Bytes) : Bool × Files :=
  if 0 ∈ name ∨ disk.writable = false then (false, files)
  else if 47 ∈ name then disk.elsewhere files name data
  else
    match files.dropIns with
    | .absent | .notDir => (false, files)
    | .failed _ => (disk.cut.isNone, files)
    | .listing entries err =>
      let kind := ((entries.find? fun e => e.name = name).map Entry.kind).getD .file
      if kind = .directory ∨ kind = .special then (false, files)
      else
        -- `createFile` has truncated it before the first byte
        let content := match disk.cut with
          | none => data
          | some n => data.take n
        (disk.cut.isNone, { files with
          dropIns := .listing ((entries.filter fun e => e.name ≠ name) ++ [⟨name, kind, .content content⟩]) err })

/-- The end of `claim`: the exit code, `none` when it returns an error. -/
def saveClaim (disk : Disk) (files : Files) (cfgPath bdaddr : Bytes) (psk : Psk) : Option ℕ × Files :=
  if 128 < (claimLine bdaddr psk).length then (none, files)
  else if 512 < (cfgPath ++ ascii ".d/" ++ dropinName bdaddr).length then (none, files)
  else
    match writeFile disk files (dropinName bdaddr) (claimLine bdaddr psk) with
    | (true, files') => (some 0, files')
    | (false, files') => (some 3, files')

def claim (c : Curve) (disk : Disk) (files : Files) (cfgPath statusBody : Bytes) (secretKey : Block 32)
    (status : ℕ) (reply : Bytes) : Option ℕ × Files :=
  match boardInfo statusBody with
  | none => (none, files)
  | some info =>
    match info.claimed with
    | none => (some 1, files)
    | some true => (some 1, files)
    | some false =>
      if status ≠ 200 then (some 1, files)
      else
        match hexToBlock 32 (trim [32, 13, 10] reply) with
        | none => (some 1, files)
        | some boardPk =>
          match derivePsk c secretKey boardPk with
          | none => (none, files)
          | some psk => saveClaim disk files cfgPath info.bdaddr psk

end HciBridge.HostClaim
