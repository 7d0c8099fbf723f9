import HciBridge.Claim
import HciBridge.OtaUpload
import HciBridge.UpdateSound

/-!
`update` of `host/cli.zig` against boards that run `ota_post` of `firmware/main/ota.c`. What the command is told
is what the boards answer to what it sends, as far as the network brings it.
-/

namespace HciBridge.UpdateBoards

open Auth (Bytes ascii)
open KeyProtocol (Hashes CString)
open KeyProtocol.Firmware (Board Httpd getHeader checkHttp checkHttpPre)
open Ota (FlashOp Partition Recv Response otaBufLen upload)
open StatusJson (Status statusGet)
open Update (Addr Answers Command visit)

/-- What an `httpd_req_recv` comes to: bytes of the body, and the error that `esp_ota_write` gives for them. -/
inductive Arrival
  | data (n : ℕ) (writeErr : Option String)
  | timeout
  | error
deriving DecidableEq, Repr

def deliver (body : Bytes) : List Arrival → List Recv
  | [] => []
  | .data n writeErr :: as =>
    .data (body.take (min n otaBufLen)) writeErr :: deliver (body.drop (min n otaBufLen)) as
  | .timeout :: as => .timeout :: deliver body as
  | .error :: as => .error :: deliver body as

/-- A board while a command is about it: its state for each of the two status requests, if it answers them, and
for the upload, the calls that the upload makes there, and whether its answer arrives. -/
structure Device where
  first : Option Status
  second : Option Status
  board : Board
  httpd : Httpd
  partition : Option Partition
  beginErr : Option String
  arrivals : List Arrival
  endErr : Option String
  setBootErr : Option String
  replied : Bool

structure Outcome where
  board : Board
  flash : List FlashOp
  response : Response
  -- the image that is booted next
  boot : Option Bytes

section

variable (H : Hashes)

def Device.refuse (d : Device) (flash : List FlashOp) (status : ℕ) (text : String) : Outcome :=
  ⟨d.board, flash, ⟨status, text⟩, none⟩

def path : CString := ⟨ascii "/ota", by decide⟩

/-- `ota_post` from the digest on. -/
def otaActivate (d : Device) (auth : CString) (image : Bytes) (flash : List FlashOp) : Outcome :=
  if !checkHttp H d.board Claim.post path (H.sha256 image) (some auth) then
    d.refuse (flash ++ [.abort]) 403 "bad X-Bridge-Auth"
  else match d.endErr with
    | some err => d.refuse (flash ++ [.finish]) 400 err
    | none =>
      match d.setBootErr with
      | some err => d.refuse (flash ++ [.finish, .setBoot]) 500 err
      | none =>
        ⟨{ d.board with httpCounter := d.board.httpCounter + 1 }, flash ++ [.finish, .setBoot],
          ⟨200, "ok, rebooting\n"⟩, some image⟩

/-- `ota_post` from `esp_ota_begin` on. -/
def otaReceive (d : Device) (auth : CString) (body : Bytes) : Outcome :=
  match d.beginErr with
  | some err => d.refuse [.begin] 500 err
  | none =>
    let up := upload body.length (deliver body d.arrivals)
    match up.stop with
    | some .stalled => d.refuse (.begin :: up.writes ++ [.abort]) 408 "upload stalled"
    | some .interrupted => d.refuse (.begin :: up.writes ++ [.abort]) 400 "upload interrupted"
    | some (.writeFailed err) => d.refuse (.begin :: up.writes ++ [.abort]) 500 err
    | none => otaActivate H d auth up.got (.begin :: up.writes)

/-- `ota_post` for a request with these headers; its `content_len` is the length of the body. -/
def otaPost (d : Device) (headers body : Bytes) : Outcome :=
  let auth := getHeader d.httpd headers (ascii "X-Bridge-Auth") 80
  let pre := getHeader d.httpd headers (ascii "X-Bridge-Pre") 80
  match d.board.claimed, auth, pre with
  | true, some auth, some pre =>
    match d.partition with
    | none => d.refuse [] 500 "no ota partition"
    | some part =>
      if part.size < body.length then d.refuse [] 413 "image larger than the ota partition"
      else if !checkHttpPre H d.board Claim.post path body.length.toUInt32 (some pre) then
        d.refuse [] 403 "bad X-Bridge-Pre"
      else otaReceive H d auth body
  | _, _, _ => d.refuse [] 401 "X-Bridge-Auth and X-Bridge-Pre required (claim the board first)"

end

section

variable (c : Command)

def Device.pages (d : Device) : Answers := ⟨d.first.bind statusGet, d.second.bind statusGet, none⟩

/-- What the board makes of what it is sent. The command sends the same whatever becomes of it. -/
def Device.posted (d : Device) (addr : Addr) (s : Update.State) : Option Outcome :=
  (visit c addr d.pages s).1.1.map fun p => otaPost c.hashes d (p.headers.getD []) p.image

def Device.answers (d : Device) (addr : Addr) (s : Update.State) : Answers :=
  { d.pages with upload := if d.replied then (d.posted c addr s).map fun o => o.response.status else none }

end

section Symbolic

def Device.otaEnv (d : Device) (body : Bytes) : Ota.OtaEnv :=
  ⟨d.partition, d.beginErr, deliver body d.arrivals, d.endErr, d.setBootErr⟩

structure Agrees (o : Outcome) (o' : Ota.Outcome) : Prop where
  flash : o.flash = o'.flash
  response : o.response = o'.response
  boot : o'.effect = o.boot.map .update

variable {H : Hashes} {d : Device} {headers body : Bytes} {sha256 : Bytes → Auth.Digest} {b : Ota.Board}
  {auth pre : Ota.Header}

theorem agrees_refuse (flash : List FlashOp) (status : ℕ) (text : String) :
    Agrees (d.refuse flash status text) (Ota.refuse b flash status text) := ⟨rfl, rfl, rfl⟩

theorem agrees_activate {a : CString} (body : Bytes)
    (hauth : ∀ image, Ota.authCheckHttp b "POST" "/ota" (sha256 image) auth =
      checkHttp H d.board Claim.post path (H.sha256 image) (some a)) (image : Bytes) (flash : List FlashOp) :
    Agrees (otaActivate H d a image flash) (Ota.otaActivate sha256 b auth (d.otaEnv body) image flash) := by
  unfold otaActivate Ota.otaActivate
  rw [hauth]
  by_cases hcheck : checkHttp H d.board Claim.post path (H.sha256 image) (some a) = true
  · simp only [hcheck, Device.otaEnv]
    cases d.endErr with
    | some err => exact agrees_refuse _ _ _
    | none =>
      cases d.setBootErr with
      | some err => exact agrees_refuse _ _ _
      | none => exact ⟨rfl, rfl, rfl⟩
  · simp only [hcheck]
    exact agrees_refuse _ _ _

theorem agrees_receive {a : CString}
    (hauth : ∀ image, Ota.authCheckHttp b "POST" "/ota" (sha256 image) auth =
      checkHttp H d.board Claim.post path (H.sha256 image) (some a)) :
    Agrees (otaReceive H d a body) (Ota.otaReceive sha256 b auth body.length (d.otaEnv body)) := by
  unfold otaReceive Ota.otaReceive
  simp only [Device.otaEnv]
  cases d.beginErr with
  | some err => exact agrees_refuse _ _ _
  | none =>
    dsimp only
    generalize upload body.length (deliver body d.arrivals) = up
    obtain ⟨got, writes, stop⟩ := up
    cases stop with
    | none => exact agrees_activate body hauth _ _
    | some stop => cases stop <;> exact agrees_refuse _ _ _

theorem otaPost_agrees
    (hproofs : Ota.getProofs b auth pre =
      (d.board.claimed && (getHeader d.httpd headers (ascii "X-Bridge-Auth") 80).isSome &&
      (getHeader d.httpd headers (ascii "X-Bridge-Pre") 80).isSome))
    (hpre : Ota.authCheckHttpPre b "POST" "/ota" body.length.toUInt32 pre =
      checkHttpPre H d.board Claim.post path body.length.toUInt32 (getHeader d.httpd headers (ascii "X-Bridge-Pre") 80))
    (hauth : ∀ image, Ota.authCheckHttp b "POST" "/ota" (sha256 image) auth =
      checkHttp H d.board Claim.post path (H.sha256 image) (getHeader d.httpd headers (ascii "X-Bridge-Auth") 80)) :
    Agrees (otaPost H d headers body) (Ota.otaPost sha256 b auth pre body.length (d.otaEnv body)) := by
  unfold otaPost Ota.otaPost
  dsimp only
  rw [hproofs, hpre]
  generalize getHeader d.httpd headers (ascii "X-Bridge-Auth") 80 = a at hauth
  generalize getHeader d.httpd headers (ascii "X-Bridge-Pre") 80 = p
  cases d.board.claimed with
  | false => exact agrees_refuse _ _ _
  | true =>
    cases a with
    | none => exact agrees_refuse _ _ _
    | some a =>
      cases p with
      | none => exact agrees_refuse _ _ _
      | some p =>
        simp only [Option.isSome_some, Bool.and_true, Bool.not_true, Bool.false_eq_true, if_false]
        cases hpart : d.partition with
        | none =>
          simp only [Device.otaEnv, hpart]
          exact agrees_refuse _ _ _
        | some part =>
          by_cases hsize : part.size < body.length
          · simp only [Device.otaEnv, hpart, hsize, if_true]
            exact agrees_refuse _ _ _
          · by_cases hcheck : checkHttpPre H d.board Claim.post path body.length.toUInt32 (some p) = true
            · simp only [Device.otaEnv, hpart, hsize, hcheck, if_false, Bool.not_true, Bool.false_eq_true]
              exact agrees_receive hauth
            · simp only [Device.otaEnv, hpart, hsize, hcheck, if_false, Bool.not_false, if_true]
              exact agrees_refuse _ _ _
end Symbolic

end HciBridge.UpdateBoards
