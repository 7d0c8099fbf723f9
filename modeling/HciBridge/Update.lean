import HciBridge.KeyProtocol
import HciBridge.Release
import HciBridge.Settings
import HciBridge.StatusJson

/-!
`update` of `host/cli.zig`, for one board or for all that were found: which image each of them is sent,
under which proof, and what the command returns. `waitForBoard`, which only reports, is left out.
-/

namespace HciBridge.Update

open Auth (Bytes Psk ascii)
open Config (lookupPsk)
open KeyProtocol (Hashes)
open Release (Net Latest)
open StatusJson (BoardInfo boardInfo)

structure Addr where
  ip : ℕ
  port : ℕ
deriving DecidableEq, Repr

structure LatestImages where
  rel : Latest
  -- `StringHashMap` of image by preset
  cache : List (Bytes × Bytes)
deriving DecidableEq, Repr

structure Post where
  addr : Addr
  image : Bytes
  headers : Option Bytes
deriving DecidableEq, Repr

/-- What the calls for one board come to: its status page, asked for twice, and the status of the upload. -/
structure Answers where
  firstPage : Option Bytes
  secondPage : Option Bytes
  upload : Option ℕ
deriving DecidableEq, Repr

structure Command where
  hashes : Hashes
  net : Net
  fileImage : Option Bytes
  boardOverride : Option Bytes
  keys : List Bytes

structure State where
  latest : Option LatestImages
  -- the number of the next request to the release server
  requests : ℕ
deriving DecidableEq, Repr

inductive Picked
  | reported
  | nothingToDo
  | image (img : Bytes)
deriving DecidableEq, Repr

variable (c : Command)

/-- `LatestImages.image` -/
def cachedImage (li : LatestImages) (board : Bytes) (t : ℕ) : Picked × State :=
  match li.cache.lookup board with
  | some img => (.image img, ⟨some li, t⟩)
  | none =>
    match li.rel.image c.hashes.sha256 c.net board t with
    | (.error _, t) => (.reported, ⟨some li, t⟩)
    | (.ok img, t) => (.image img, ⟨some { li with cache := (board, img) :: li.cache }, t⟩)

def pickFor (li : LatestImages) (info : BoardInfo) (board : Bytes) (t : ℕ) : Picked × State :=
  if info.version = li.rel.tag then (.nothingToDo, ⟨some li, t⟩) else cachedImage c li board t

def imageFor (page : Option Bytes) (s : State) : Picked × State :=
  match c.fileImage with
  | some img => (.image img, s)
  | none =>
    match page.bind boardInfo with
    | none => (.reported, s)
    | some info =>
      match c.boardOverride <|> info.board with
      | none => (.reported, s)
      | some board =>
        match s.latest with
        | some li => pickFor c li info board s.requests
        | none =>
          match Release.latest c.net s.requests with
          | (.error _, t) => (.reported, ⟨none, t⟩)
          | (.ok rel, t) => pickFor c ⟨rel, []⟩ info board t

def updateOne (addr : Addr) (image : Bytes) (page : Option Bytes) (upload : Option ℕ) : Option Post × Bool :=
  match page.bind boardInfo with
  | none => (none, false)
  | some info =>
    match info.claimed with
    | some _ =>
      match lookupPsk c.keys info.bdaddr with
      | none => (none, false)
      | some psk =>
        let headers := KeyProtocol.Zig.authHeaders c.hashes psk (ascii "POST") (ascii "/ota") info.nonce image
        (some ⟨addr, image, headers⟩, upload = some 200)
    | none => (some ⟨addr, image, none⟩, upload = some 200)

/-- A round of the loop over `bridges`; a discovered port is replaced by that of the web server. -/
def visit (addr : Addr) (a : Answers) (s : State) : (Option Post × Bool) × State :=
  let addr := { addr with port := 80 }
  match imageFor c a.firstPage s with
  | (.reported, s) => ((none, false), s)
  | (.nothingToDo, s) => ((none, true), s)
  | (.image img, s) => (updateOne c addr img a.secondPage a.upload, s)

def visits (s : State) : List (Addr × Answers) → List (Option Post × Bool) × State
  | [] => ([], s)
  | b :: bridges =>
    let r := visit c b.1 b.2 s
    let rest := visits r.2 bridges
    (r.1 :: rest.1, rest.2)

inductive Target
  | all (bridges : List (Addr × Answers))
  | address (ip : Option ℕ) (a : Answers)
deriving DecidableEq, Repr

def update : Target → List Post × ℕ
  | .all bridges =>
    let results := (visits c ⟨none, 0⟩ bridges).1
    (results.filterMap Prod.fst,
      if bridges = [] then 1 else if results.countP Prod.snd = bridges.length then 0 else 1)
  | .address none _ => ([], 2)
  | .address (some ip) a =>
    let result := (visit c ⟨ip, 80⟩ a ⟨none, 0⟩).1
    (result.1.toList, if result.2 then 0 else 1)

end HciBridge.Update
