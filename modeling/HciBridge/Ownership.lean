import HciBridge.FirstClaim
import HciBridge.RefusedClaim
import HciBridge.Revoke
import HciBridge.StatusJson

/-!
`claim`, `unclaim` and `revoke` of `host/cli.zig`, run one at a time on one PC, against a board that
others reach too. Requests and replies may be late or lost, a command may die at any step, and the
flash store of the board may fail.
-/

namespace HciBridge.Ownership

open Auth (Bytes Block Psk ascii hexlify bdaddrText)
open Config
open Reload
open KeyProtocol (Hashes CString Zig.authHeaders httpNonce)
open KeyProtocol.Firmware (Board Httpd getHeader)
open HostClaim (Curve dropinName claimLine claimedPsk)
open SavedClaim (Files.without entryFor)
open Claim (Ecdh proved)
open RefusedClaim (ClaimEnv Nvs Response claimPost authUnclaim boot)
open Revoke (revoke)
open StatusJson (Status statusGet)

/-- A board and the configuration of a PC, in which the key of the board is nowhere but in its drop-in. -/
structure Site where
  mac : Block 6
  httpd : Httpd
  cfgPath : Bytes
  env : Environ
  main : FileState
  dropIns : List Entry
  readable : ∃ pairs, loadRaw ⟨main, .listing dropIns none⟩ cfgPath = .ok pairs
  fits : (cfgPath ++ ascii ".d/" ++ dropinName (bdaddrText mac)).length ≤ 512
  others : ∀ e ∈ confItems (Files.without ⟨main, .listing dropIns none⟩ (dropinName (bdaddrText mac))) cfgPath ++
    envItems (getPosix env), entryFor (bdaddrText mac) e = false

def Site.files (site : Site) : Files := ⟨site.main, .listing site.dropIns none⟩

inductive Post
  | claim (body : Bytes)
  | unclaim (headers : Bytes)
deriving DecidableEq, Repr

inductive Cli
  | idle
  | claiming (i : ℕ) (status : Bytes) (secretKey : Block 32)
  | unclaiming (i : ℕ) (bdaddr : Bytes)
  | releasing (bdaddr : Bytes)
deriving DecidableEq

structure State where
  board : RefusedClaim.State
  files : Files
  cli : Cli
  posts : List (ℕ × Post)
  replies : List (ℕ × Response)
  next : ℕ
  -- the post that put the key into flash, and that of the last `claim` here to end well, until a `revoke`
  holder : Option ℕ
  saved : Option ℕ

inductive Label
  | claim (status : Status) (secretKey : Block 32)
  | unclaim (status : Status)
  | revoke (disk : Revoke.Disk)
  | save (disk : HostClaim.Disk)
  | answered
  | release (disk : Revoke.Disk)
  | abort
  | stranger (post : Post)
  | drop (i : ℕ)
  | serveClaim (i n : ℕ) (env : ClaimEnv)
  | serveUnclaim (i : ℕ) (nvs : Nvs)
  | bump
  | reboot (rand : Block 16)

def State.send (s : State) (post : Post) (cli : Cli) : State :=
  { s with cli := cli, posts := (s.next, post) :: s.posts, next := s.next + 1 }

def State.take (s : State) (i : ℕ) : List (ℕ × Post) := s.posts.filter fun p => p.1 ≠ i

section

variable (H : Hashes) (c : Curve) (m : Ecdh) (site : Site)

/-- `unclaim_post`; the restart that follows is one that may come at any time. -/
def unclaimPost (httpd : Httpd) (b : RefusedClaim.State) (headers : Bytes) (nvs : Nvs) :
    RefusedClaim.State × Response :=
  let auth := getHeader httpd headers (ascii "X-Bridge-Auth") 80
  let pre := getHeader httpd headers (ascii "X-Bridge-Pre") 80
  if !proved H b.ram auth pre then (b, ⟨403, ascii "bad or missing X-Bridge-Auth / X-Bridge-Pre"⟩)
  else
    match authUnclaim b nvs with
    | (b, false) => (b, ⟨500, ascii "could not erase key"⟩)
    | (b, true) => (b, ⟨200, ascii "unclaimed, rebooting\n"⟩)

/-- `claim` up to the request. -/
def claim (s : State) (status : Bytes) (secretKey : Block 32) : State :=
  match HostClaim.boardInfo status with
  | none => s
  | some info =>
    if info.claimed = some false then
      s.send (.claim (hexlify (c.publicKey secretKey).bytes)) (.claiming s.next status secretKey)
    else s

/-- `unclaim` up to the request, or up to `revoke` for a board that says it is not claimed. -/
def unclaim (s : State) (status : Bytes) : State :=
  match loadKeys s.files site.env site.cfgPath, HostClaim.boardInfo status with
  | .ok keys, some info =>
    if info.claimed = some false then { s with cli := .releasing info.bdaddr }
    else
      match (lookupPsk keys.psk info.bdaddr).bind fun psk =>
          Zig.authHeaders H psk (ascii "POST") (ascii "/unclaim") info.nonce [] with
      | none => s
      | some headers => s.send (.unclaim headers) (.unclaiming s.next info.bdaddr)
  | _, _ => s

def answered (s : State) (r : Response) (bdaddr : Bytes) : State :=
  if r.status = 200 then { s with cli := .releasing bdaddr } else { s with cli := .idle }

def save (s : State) (disk : HostClaim.Disk) (i : ℕ) (status : Bytes) (secretKey : Block 32) (r : Response) : State :=
  let (code, files) := HostClaim.claim c disk s.files site.cfgPath status secretKey r.status r.body
  { s with files := files, cli := .idle, saved := if code = some 0 then some i else s.saved }

def serveClaim (s : State) (i : ℕ) (received : Bytes) (env : ClaimEnv) : State :=
  let (board, r) := claimPost c m s.board env received
  { s with
    board := board
    posts := s.take i
    replies := (i, r) :: s.replies
    holder := if r.status = 200 ∨ board.flash ≠ s.board.flash then some i else s.holder }

def serveUnclaim (httpd : Httpd) (s : State) (i : ℕ) (headers : Bytes) (nvs : Nvs) : State :=
  let (board, r) := unclaimPost H httpd s.board headers nvs
  { s with
    board := board
    posts := s.take i
    replies := (i, r) :: s.replies
    holder := if board.flash = none then none else s.holder }

def step (s : State) : Label → Option State
  | .claim status secretKey =>
    match s.cli, statusGet { status with mac := site.mac, auth := s.board.ram } with
    | .idle, some body => some (claim c s body secretKey)
    | _, _ => none
  | .unclaim status =>
    match s.cli, statusGet { status with mac := site.mac, auth := s.board.ram } with
    | .idle, some body => some (unclaim H site s body)
    | _, _ => none
  | .revoke disk =>
    match s.cli with
    | .idle => some { s with
        files := (revoke disk s.files site.env site.cfgPath (bdaddrText site.mac)).2, saved := none }
    | _ => none
  | .save disk =>
    match s.cli with
    | .claiming i status secretKey =>
      (s.replies.find? fun r => r.1 = i).map fun r => save c site s disk i status secretKey r.2
    | _ => none
  | .answered =>
    match s.cli with
    | .unclaiming i bdaddr => (s.replies.find? fun r => r.1 = i).map fun r => answered s r.2 bdaddr
    | _ => none
  | .release disk =>
    match s.cli with
    | .releasing bdaddr =>
      some { s with files := (revoke disk s.files site.env site.cfgPath bdaddr).2, cli := .idle }
    | _ => none
  | .abort => some { s with cli := .idle }
  | .stranger post => some (s.send post s.cli)
  | .drop i => some { s with posts := s.take i }
  | .serveClaim i n env =>
    match s.posts.find? fun p => p.1 = i with
    -- `httpd_req_recv` returns at most 79 bytes, and maybe fewer than were sent
    | some (_, .claim body) => some (serveClaim c m s i (body.take (min n 79)) env)
    | _ => none
  | .serveUnclaim i nvs =>
    match s.posts.find? fun p => p.1 = i with
    | some (_, .unclaim headers) => some (serveUnclaim H site.httpd s i headers nvs)
    | _ => none
  | .bump =>
    some { s with board.ram.httpCounter := s.board.ram.httpCounter + 1 }
  | .reboot rand => some { s with board := boot s.board.flash rand }

def start (flash : Option Psk) (rand : Block 16) : State :=
  ⟨boot flash rand, site.files, .idle, [], [], 0, none, none⟩

def IsInit (s : State) : Prop := ∃ flash rand, s = start site flash rand

abbrev Reachable : State → Prop := Runs.Reachable (step H c m site) (IsInit site)

end

end HciBridge.Ownership
