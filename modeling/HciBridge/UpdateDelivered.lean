import HciBridge.UpdateBoards

namespace HciBridge.UpdateBoards

open Auth (Bytes ascii bdaddrText)
open Config (lookupPsk)
open KeyProtocol (Hashes CString httpNonce)
open KeyProtocol.Firmware (Board getHeader checkHttp checkHttpPre httpNonceBytes)
open Ota (FlashOp Partition Recv Receives Response otaBufLen recvLoop upload)
open Release (Latest)
open StatusJson (BoardInfo Status boardInfo statusGet statusText)
open Update (Addr Answers Chosen Command FromRelease Kept Proved Unsent starts visit visits)

structure Writable (d : Device) (body : Bytes) : Prop where
  fits : ∃ part, d.partition = some part ∧ body.length ≤ part.size
  arrives : ∃ chunks, Receives body.length (deliver body d.arrivals) chunks
  flash : d.beginErr = none ∧ d.endErr = none ∧ d.setBootErr = none

structure Accepted (H : Hashes) (d : Device) (headers body : Bytes) : Prop extends Writable d body where
  proofs : ∃ auth pre, getHeader d.httpd headers (ascii "X-Bridge-Auth") 80 = some auth ∧
    getHeader d.httpd headers (ascii "X-Bridge-Pre") 80 = some pre ∧
    checkHttpPre H d.board Claim.post path body.length.toUInt32 (some pre) = true ∧
    checkHttp H d.board Claim.post path (H.sha256 body) (some auth) = true

def Device.bumped (d : Device) : Board := { d.board with httpCounter := d.board.httpCounter + 1 }

structure Refused (d : Device) (o : Outcome) : Prop where
  board : o.board = d.board
  boot : o.boot = none
  status : 400 ≤ o.response.status

section Upload

variable {H : Hashes} {d : Device} {headers body : Bytes}

theorem refused {flash : List FlashOp} {status : ℕ} {text : String} (h : 400 ≤ status) :
    Refused d (d.refuse flash status text) := ⟨rfl, rfl, h⟩

end Upload

structure Ready (c : Command) (d : Device) (img : Bytes) : Prop extends Writable d img where
  claimed : d.board.claimed = true
  published : ∃ st, d.second = some st ∧ httpNonceBytes st.auth = httpNonceBytes d.board ∧
    lookupPsk c.keys (bdaddrText st.mac) = some d.board.psk

inductive Ended (c : Command) (l : Option Latest) (s : Update.State) (d : Device) : Option Outcome → Bool → Prop
  | upToDate {r : Latest} {st : Status} (hfile : c.fileImage = none) (hl : l = some r) (hfirst : d.first = some st)
      (h : st.version.text = r.tag) : Ended c l s d none true
  | unsent (h : Unsent c s d.pages) : Ended c l s d none false
  | refused {img : Bytes} {o : Outcome} (himg : Chosen c l d.pages.firstPage img) (hready : ¬Ready c d img)
      (h : Refused d o) : Ended c l s d (some o) false
  | installed {img headers : Bytes} {o : Outcome} (himg : Chosen c l d.pages.firstPage img)
      (h : Accepted c.hashes d headers img) (hboot : o.boot = some img) (hboard : o.board = d.bumped) :
      Ended c l s d (some o) d.replied

section Rounds

variable {c : Command} {d : Device} {addr : Addr} {s : Update.State} {img : Bytes} {headers : Option Bytes}

theorem page_statusText {st : Option Status} {info : BoardInfo} (h : (st.bind statusGet).bind boardInfo = some info) :
    ∃ st', st = some st' ∧ info = ⟨⟨bdaddrText st'.mac, some st'.auth.claimed, some (httpNonce st'.auth)⟩,
      st'.version.text, st'.boardId.text⟩ := by
  cases st with
  | none => cases h
  | some st =>
    rw [Option.bind_some, StatusJson.statusGet_eq, Option.bind_some, StatusJson.boardInfo_statusText] at h
    exact ⟨st, rfl, (Option.some.inj h).symm⟩

theorem Ready.accepted (hfinds : d.httpd.FindsProofs) (h : Ready c d img)
    (hproof : Proved c d.pages.secondPage img headers) :
    Accepted c.hashes d (headers.getD []) img := by
  obtain ⟨hw, hclaimed, st, hsecond, hnonce, hkey⟩ := h
  obtain ⟨part, hpart, hfits⟩ := hw.fits
  have hlt := part.size_lt
  cases hproof with
  | keyed hpage _ hkey' hheaders =>
    obtain ⟨st', hst', rfl⟩ := page_statusText hpage
    cases hsecond.symm.trans hst'
    cases hkey.symm.trans hkey'
    have hlen : img.length ≤ 4294967295 := by omega
    obtain ⟨nonce, headers', auth, pre, hnonce', hheaders', hauth, hpre, hcheckPre, hcheck⟩ :=
      KeyProtocol.authHeaders_accepted c.hashes hfinds st.auth d.board Claim.post path hclaimed hnonce.symm hlen
    rw [KeyProtocol.hexToNonce_nonceHex] at hnonce'
    cases hnonce'
    cases hheaders.symm.trans hheaders'
    exact ⟨hw, auth, pre, hauth, hpre, hcheckPre, hcheck⟩
  | beforeKeys hpage hclaimed =>
    obtain ⟨st', -, rfl⟩ := page_statusText hpage
    cases hclaimed

theorem Unsent.upload {a : Answers} {u : Option ℕ} (h : Unsent c s { a with upload := u }) : Unsent c s a := by
  cases h with
  | noPage hfile hpage => exact .noPage hfile hpage
  | noPreset hfile hpage hboard => exact .noPreset hfile hpage hboard
  | noRelease hfile hpage hboard hnone h => exact .noRelease hfile hpage hboard hnone h
  | noImage hfile hpage hboard hr hnew h => exact .noImage hfile hpage hboard hr hnew h
  | gone hpage => exact .gone hpage
  | noKey hpage hclaimed hkey => exact .noKey hpage hclaimed hkey

theorem Ended.mono {l l' : Option Latest} {o : Option Outcome} {ok : Bool} (h : Ended c l s d o ok)
    (hl : ∀ r, l = some r → l' = some r) : Ended c l' s d o ok := by
  cases h with
  | upToDate hfile hr hfirst h => exact .upToDate hfile (hl _ hr) hfirst h
  | unsent h => exact .unsent h
  | refused himg hready h => exact .refused (himg.mono hl) hready h
  | installed himg h hboot hboard => exact .installed (himg.mono hl) h hboot hboard

end Rounds

def vectorStatus : Status where
  version := ⟨ascii "v0.10.0", by decide, by decide⟩
  boardId := ⟨ascii "wt32-eth01", by decide, by decide⟩
  boardId_ne := by decide
  idf := ⟨[], by decide, by decide⟩
  running := none
  mac := .fill 6 1
  auth := KeyProtocol.vectorBoard
  time := 0
  prevStage := 0
  reset := 0
  freeHeap := 0
  stats := ⟨0, 0, 0, 0, 0, 0, 0⟩
  connected := false

def vectorDevice : Device where
  first := some vectorStatus
  second := some vectorStatus
  board := KeyProtocol.vectorBoard
  httpd := KeyProtocol.vectorHttpd
  partition := some ⟨4096, by decide⟩
  beginErr := none
  arrivals := [.data 2 none, .timeout, .data 9 none]
  endErr := none
  setBootErr := none
  replied := true

end HciBridge.UpdateBoards
