import HciBridge.Auth

/-!
The request handlers of `firmware/main/ota.c` and the HTTP part of
`firmware/main/auth.c`. A handler runs to its end before the next request is
looked at; what the calls it makes return comes in with the request.
-/

namespace HciBridge.Ota

open Auth

structure Board where
  nvs : Option Psk
  gPsk : Psk
  gClaimed : Bool
  gHttpRand : Block 16
  gHttpCounter : UInt32
deriving DecidableEq, Repr

def authInit (nvs : Option Psk) (rand : Block 16) : Board where
  nvs := nvs
  gPsk := nvs.getD (.fill 32 0)
  gClaimed := nvs.isSome
  gHttpRand := rand
  gHttpCounter := 0

def nonceOf (rand : Block 16) (counter : UInt32) : HttpNonce :=
  ⟨rand.bytes ++ be32 counter, by simp [rand.length_eq, be32]⟩

def Board.httpNonce (b : Board) : HttpNonce := nonceOf b.gHttpRand b.gHttpCounter

def Board.nonceBump (b : Board) : Board := { b with gHttpCounter := b.gHttpCounter + 1 }

/-- How a flash update ends: a commit that fails may have taken effect all the same. -/
inductive NvsResult
  | ok
  | failed (durable : Bool)
deriving DecidableEq, Repr

def NvsResult.durable : NvsResult → Bool
  | ok => true
  | failed durable => durable

/-- No `key` means that mbedTLS could not make one; the result is whether the claim succeeded. -/
def authClaim (b : Board) (key : Option Psk) (r : NvsResult) : Board × Bool :=
  if b.gClaimed then (b, false)
  else match key with
    | none => (b, false)
    | some key =>
      let b := { b with gPsk := key, nvs := if r.durable then some key else b.nvs }
      if r = .ok then ({ b with gClaimed := true }, true) else (b, false)

def authUnclaim (b : Board) (r : NvsResult) : Board × Bool :=
  let b := { b with nvs := if r.durable then none else b.nvs }
  if r = .ok then ({ b with gPsk := .fill 32 0, gClaimed := false }, true) else (b, false)

/-- A header as `get_header` and `unhex` see it: not there (or empty, or too long), not 64 hex
digits, or a MAC. -/
inductive Header
  | missing
  | malformed
  | mac (m : Mac)
deriving DecidableEq, Repr

def checkMac (b : Board) (header : Header) (mac : Psk → Mac) : Bool :=
  b.gClaimed && header = .mac (mac b.gPsk)

def authCheckHttp (b : Board) (method path : String) (bodySha : Digest) (header : Header) : Bool :=
  checkMac b header fun psk => httpAuth psk method path b.httpNonce bodySha

def authCheckHttpPre (b : Board) (method path : String) (contentLen : UInt32) (header : Header) : Bool :=
  checkMac b header fun psk => httpPre psk method path b.httpNonce contentLen

def getProofs (b : Board) (auth pre : Header) : Bool :=
  b.gClaimed && auth ≠ .missing && pre ≠ .missing

structure Response where
  status : ℕ
  text : String
deriving DecidableEq, Repr

inductive FlashOp
  | begin
  | write (chunk : Bytes)
  | abort
  | finish
  | setBoot
deriving DecidableEq, Repr

inductive Effect
  | update (image : Bytes)
  | restart
  | erase
deriving DecidableEq, Repr

structure Outcome where
  board : Board
  flash : List FlashOp
  response : Response
  effect : Option Effect
deriving DecidableEq, Repr

def refuse (b : Board) (flash : List FlashOp) (status : ℕ) (text : String) : Outcome :=
  ⟨b, flash, ⟨status, text⟩, none⟩

/-- An update partition is smaller than 2^31 bytes, so that `int remaining` holds every length. -/
structure Partition where
  size : ℕ
  size_lt : size < 2 ^ 31
deriving DecidableEq, Repr

/-- What `httpd_req_recv` gives; with data comes the name of the error of `esp_ota_write`, if any. -/
inductive Recv
  | data (bytes : Bytes) (writeErr : Option String)
  | timeout
  | error
deriving DecidableEq, Repr

structure OtaEnv where
  partition : Option Partition
  beginErr : Option String
  recvs : List Recv
  endErr : Option String
  setBootErr : Option String
deriving DecidableEq, Repr

def otaMaxRecvTimeouts : ℕ := 6
def otaBufLen : ℕ := 1024

inductive Stop
  | stalled
  | interrupted
  | writeFailed (err : String)
deriving DecidableEq, Repr

structure Upload where
  got : Bytes
  writes : List FlashOp
  stop : Option Stop
deriving DecidableEq, Repr

/-- The receive loop. When the script ends the connection is gone. -/
def recvLoop (remaining timeouts : ℕ) (up : Upload) : List Recv → Upload
  | [] => if remaining = 0 then up else { up with stop := some .interrupted }
  | r :: rs =>
    if remaining = 0 then up
    else match r with
    | .timeout =>
      if timeouts + 1 < otaMaxRecvTimeouts then recvLoop remaining (timeouts + 1) up rs
      else { up with stop := some .stalled }
    | .error => { up with stop := some .interrupted }
    | .data bytes writeErr =>
      let chunk := bytes.take (min remaining otaBufLen)
      if chunk = [] then { up with stop := some .interrupted }
      else
        let up := { up with got := up.got ++ chunk, writes := up.writes ++ [.write chunk] }
        match writeErr with
        | some err => { up with stop := some (.writeFailed err) }
        | none => recvLoop (remaining - chunk.length) 0 up rs

def upload (contentLen : ℕ) (recvs : List Recv) : Upload := recvLoop contentLen 0 ⟨[], [], none⟩ recvs

section

variable (sha256 : Bytes → Digest)

/-- `ota_post` from the digest on. -/
def otaActivate (b : Board) (auth : Header) (env : OtaEnv) (image : Bytes) (flash : List FlashOp) :
    Outcome :=
  if !authCheckHttp b "POST" "/ota" (sha256 image) auth then
    refuse b (flash ++ [.abort]) 403 "bad X-Bridge-Auth"
  else match env.endErr with
    | some err => refuse b (flash ++ [.finish]) 400 err
    | none =>
      match env.setBootErr with
      | some err => refuse b (flash ++ [.finish, .setBoot]) 500 err
      | none =>
        ⟨b.nonceBump, flash ++ [.finish, .setBoot], ⟨200, "ok, rebooting\n"⟩, some (.update image)⟩

/-- `ota_post` from `esp_ota_begin` on. -/
def otaReceive (b : Board) (auth : Header) (contentLen : ℕ) (env : OtaEnv) : Outcome :=
  match env.beginErr with
  | some err => refuse b [.begin] 500 err
  | none =>
    let up := upload contentLen env.recvs
    match up.stop with
    | some .stalled => refuse b (.begin :: up.writes ++ [.abort]) 408 "upload stalled"
    | some .interrupted => refuse b (.begin :: up.writes ++ [.abort]) 400 "upload interrupted"
    | some (.writeFailed err) => refuse b (.begin :: up.writes ++ [.abort]) 500 err
    | none => otaActivate sha256 b auth env up.got (.begin :: up.writes)

def otaPost (b : Board) (auth pre : Header) (contentLen : ℕ) (env : OtaEnv) : Outcome :=
  if !getProofs b auth pre then
    refuse b [] 401 "X-Bridge-Auth and X-Bridge-Pre required (claim the board first)"
  else match env.partition with
    | none => refuse b [] 500 "no ota partition"
    | some part =>
      if part.size < contentLen then refuse b [] 413 "image larger than the ota partition"
      else if !authCheckHttpPre b "POST" "/ota" contentLen.toUInt32 pre then
        refuse b [] 403 "bad X-Bridge-Pre"
      else otaReceive sha256 b auth contentLen env

def proved (b : Board) (path : String) (auth pre : Header) : Bool :=
  getProofs b auth pre && authCheckHttpPre b "POST" path 0 pre && authCheckHttp b "POST" path (sha256 []) auth

def rebootPost (b : Board) (auth pre : Header) : Outcome :=
  if !proved sha256 b "/reboot" auth pre then
    refuse b [] 403 "bad or missing X-Bridge-Auth / X-Bridge-Pre"
  else ⟨b.nonceBump, [], ⟨200, "rebooting\n"⟩, some .restart⟩

def unclaimPost (b : Board) (auth pre : Header) (r : NvsResult) : Outcome :=
  if !proved sha256 b "/unclaim" auth pre then
    refuse b [] 403 "bad or missing X-Bridge-Auth / X-Bridge-Pre"
  else
    let (b, ok) := authUnclaim b r
    if !ok then refuse b [] 500 "could not erase key"
    else ⟨b, [], ⟨200, "unclaimed, rebooting\n"⟩, some .erase⟩

end

end HciBridge.Ota
