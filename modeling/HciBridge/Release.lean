import HciBridge.AuthHex

/-!
`host/release.zig`: the latest release's tag, its list of checksums, and the images it names. The network
answers the `t`-th request as it likes.
-/

namespace HciBridge.Release

open Auth (Bytes Digest ascii hexlify)
open Text

def latestUrl : Bytes := ascii "https://github.com/heppu/hcibridge/releases/latest"
def downloadBase : Bytes := ascii "https://github.com/heppu/hcibridge/releases/download/"
def maxBody : ℕ := 4 * 1024 * 1024
def attempts : ℕ := 3
def maxLocation : ℕ := 4096

inductive Err
  | AssetNotReadyYet | NameServerFailure | TemporaryNameServerFailure | ConnectionRefused | ConnectionResetByPeer
  | ConnectionTimedOut | NetworkUnreachable | HostLacksNetworkAddresses | EndOfStream | UnexpectedReadFailure
  | UnexpectedWriteFailure | HttpConnectionClosing
  | HttpStatus | NoRedirectLocation | RedirectTooLong | NoTagInRedirect | TooManyRedirects | ReadFailed
  | ResponseTooLarge | NoSpaceLeft | NoSuchBoardImage | ChecksumMismatch
  | other (name : ℕ)
deriving DecidableEq, Repr

def transient : Err → Bool
  | .AssetNotReadyYet | .NameServerFailure | .TemporaryNameServerFailure | .ConnectionRefused
  | .ConnectionResetByPeer | .ConnectionTimedOut | .NetworkUnreachable | .HostLacksNetworkAddresses | .EndOfStream
  | .UnexpectedReadFailure | .UnexpectedWriteFailure | .HttpConnectionClosing => true
  | _ => false

/-- The reads of a body, and whether the one after them fails. -/
structure Body where
  reads : List Bytes
  broken : Bool
deriving DecidableEq, Repr

inductive Reply
  | failed (e : Err)
  | response (status : ℕ) (location : Option Bytes) (body : Body)
deriving DecidableEq, Repr

abbrev Net := ℕ → Bytes → Reply

/-- `status.class() == .redirect` -/
def isRedirect (status : ℕ) : Bool := 300 ≤ status && status < 400

/-- `bufPrint` into a buffer of `cap` bytes. -/
def bufPrint (cap : ℕ) (text : Bytes) : Except Err Bytes :=
  if text.length ≤ cap then .ok text else .error .NoSpaceLeft

def imageName (board : Bytes) : Except Err Bytes := bufPrint 128 (ascii "hcibridge-" ++ board ++ ascii ".bin")

def marker : Bytes := ascii "/releases/tag/"
def tagStop : Bytes := ascii "?#/"

def isAlphanumeric (c : UInt8) : Bool := (48 ≤ c && c ≤ 57) || (65 ≤ c && c ≤ 90) || (97 ≤ c && c ≤ 122)

def tagChar (c : UInt8) : Bool := isAlphanumeric c || c ∈ ascii ".-_"

def tagFromLocation (loc : Bytes) : Option Bytes :=
  (cutSeq marker loc).bind fun p =>
    let tag := p.2.takeWhile fun c => c ∉ tagStop
    if tag = [] ∨ 64 < tag.length ∨ ¬tag.head?.any isAlphanumeric then none
    else if tag.all tagChar then some tag else none

def sumLine (name line : Bytes) : Option Bytes :=
  (cut 32 line).bind fun p =>
    let rest := trim [32] (line.drop p.1.length)
    let rest := if rest.head? = some 42 then rest.tail else rest
    if p.1.length = 64 ∧ rest = name then some p.1 else none

def sumFor (sums name : Bytes) : Option Bytes := (sums.splitOn 10).findSome? (sumLine name)

def readBody (acc : Bytes) : List Bytes → Bool → Except Err Bytes
  | [], broken => if broken then .error .ReadFailed else .ok acc
  | chunk :: reads, broken =>
    if chunk = [] then .ok acc
    else if maxBody < (acc ++ chunk).length then .error .ResponseTooLarge
    else readBody (acc ++ chunk) reads broken

/-- The loop of `getOnce` with `hops` rounds left, and the number of the next request. -/
def getLoop (net : Net) : ℕ → Bool → Bytes → ℕ → Except Err Bytes × ℕ
  | 0, _, _, t => (.error .TooManyRedirects, t)
  | hops + 1, redirected, cur, t =>
    match net t cur with
    | .failed e => (.error e, t + 1)
    | .response status location body =>
      if isRedirect status then
        match location with
        | none => (.error .NoRedirectLocation, t + 1)
        | some loc =>
          if maxLocation < loc.length then (.error .RedirectTooLong, t + 1) else getLoop net hops true loc (t + 1)
      else if status ≠ 200 then
        (.error (if redirected ∧ (status = 400 ∨ status = 403) then .AssetNotReadyYet else .HttpStatus), t + 1)
      else (readBody [] body.reads body.broken, t + 1)

def getOnce (net : Net) (url : Bytes) (t : ℕ) : Except Err Bytes × ℕ := getLoop net 6 false url t

def tagLoop (net : Net) : ℕ → Bytes → ℕ → Except Err Bytes × ℕ
  | 0, _, t => (.error .NoTagInRedirect, t)
  | hops + 1, cur, t =>
    match net t cur with
    | .failed e => (.error e, t + 1)
    | .response status location _ =>
      if isRedirect status then
        match location with
        | none => (.error .NoRedirectLocation, t + 1)
        | some loc =>
          match tagFromLocation loc with
          | some tag => (.ok tag, t + 1)
          | none =>
            if maxLocation < loc.length then (.error .RedirectTooLong, t + 1) else tagLoop net hops loc (t + 1)
      else (.error .HttpStatus, t + 1)

def latestTag (net : Net) (t : ℕ) : Except Err Bytes × ℕ := tagLoop net 6 latestUrl t

def retryFrom {α : Type} (f : ℕ → Except Err α × ℕ) : ℕ → ℕ → Except Err α × ℕ
  | 0, t => f t
  | more + 1, t =>
    match f t with
    | (.ok a, t') => (.ok a, t')
    | (.error e, t') => if transient e then retryFrom f more t' else (.error e, t')

def retry {α : Type} (f : ℕ → Except Err α × ℕ) (t : ℕ) : Except Err α × ℕ := retryFrom f (attempts - 1) t

def get (net : Net) (url : Bytes) (t : ℕ) : Except Err Bytes × ℕ := retry (getOnce net url) t

structure Latest where
  tag : Bytes
  sums : Bytes
deriving DecidableEq, Repr

/-- `download_base` with the tag and a file's name -/
def assetUrl (tag name : Bytes) : Bytes := downloadBase ++ tag ++ ascii "/" ++ name

def latest (net : Net) (t : ℕ) : Except Err Latest × ℕ :=
  match retry (latestTag net) t with
  | (.error e, t) => (.error e, t)
  | (.ok tag, t) =>
    match bufPrint 256 (assetUrl tag (ascii "SHA256SUMS")) with
    | .error e => (.error e, t)
    | .ok url =>
      match get net url t with
      | (.error e, t) => (.error e, t)
      | (.ok sums, t) => (.ok ⟨tag, sums⟩, t)

variable (sha256 : Bytes → Digest)

def Latest.image (net : Net) (self : Latest) (board : Bytes) (t : ℕ) : Except Err Bytes × ℕ :=
  match imageName board with
  | .error e => (.error e, t)
  | .ok name =>
    match sumFor self.sums name with
    | none => (.error .NoSuchBoardImage, t)
    | some expected =>
      match bufPrint 256 (assetUrl self.tag name) with
      | .error e => (.error e, t)
      | .ok url =>
        match get net url t with
        | (.error e, t) => (.error e, t)
        | (.ok body, t) =>
          if hexlify (sha256 body).bytes = expected then (.ok body, t) else (.error .ChecksumMismatch, t)

end HciBridge.Release
