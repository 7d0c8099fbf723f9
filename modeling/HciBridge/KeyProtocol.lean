import HciBridge.Discovery

/-!
The key protocol written twice: `common/auth.zig` with `authHeaders` of `host/cli.zig`, and
`firmware/main/auth.c` with `discovery_task` of `firmware/main/glue.c`.
-/

namespace HciBridge.KeyProtocol

open Text
open Auth (Bytes Block Psk Nonce Digest HttpNonce ascii decimal hexlify be32 hexToNonce ipText bdaddrText)

structure Hashes where
  hmac : Psk → Bytes → Digest
  sha256 : Bytes → Digest

/-- A C string: its memory ends with the first NUL. -/
structure CString where
  text : Bytes
  noNul : 0 ∉ text

def CString.mem (s : CString) : Bytes := s.text ++ [0]

namespace Zig

def hmac (H : Hashes) (key : Psk) (parts : List Bytes) : Digest := H.hmac key parts.flatten

def ctEqual (a b : Bytes) : Bool := a = b

def clientParts (serverNonce clientNonce : Nonce) : List Bytes :=
  [serverNonce.bytes, clientNonce.bytes, ascii "esp-hci-client"]

def clientMac (H : Hashes) (psk : Psk) (serverNonce clientNonce : Nonce) : Digest :=
  hmac H psk (clientParts serverNonce clientNonce)

def boardParts (clientNonce serverNonce : Nonce) : List Bytes :=
  [clientNonce.bytes, serverNonce.bytes, ascii "esp-hci-board"]

def boardMac (H : Hashes) (psk : Psk) (clientNonce serverNonce : Nonce) : Digest :=
  hmac H psk (boardParts clientNonce serverNonce)

def announceParts (bdaddr : Bytes) (port : ℕ) (name : Bytes) (ip : Block 4) : List Bytes :=
  [bdaddr, ascii "\t", decimal port, ascii "\t", name, ascii "\t", ipText ip]

def announceSig (H : Hashes) (psk : Psk) (bdaddr : Bytes) (port : ℕ) (name : Bytes) (ip : Block 4) : Bytes :=
  hexlify ((hmac H psk (announceParts bdaddr port name ip)).bytes.take 16)

def verifyAnnounce (H : Hashes) (psk : Psk) (bdaddr : Bytes) (port : ℕ) (name : Bytes) (ip : Block 4)
    (sig : Bytes) : Bool := ctEqual (announceSig H psk bdaddr port name ip) sig

def httpAuthParts (H : Hashes) (method path : Bytes) (nonce : HttpNonce) (body : Bytes) : List Bytes :=
  [method, ascii " ", path, ascii "\n", nonce.bytes, (H.sha256 body).bytes]

def httpAuth (H : Hashes) (psk : Psk) (method path : Bytes) (nonce : HttpNonce) (body : Bytes) : Bytes :=
  hexlify (hmac H psk (httpAuthParts H method path nonce body)).bytes

/-- `std.mem.writeInt` of a `u32`, big end first -/
def writeInt32 (n : ℕ) : Bytes :=
  [(n / 16777216).toUInt8, (n / 65536).toUInt8, (n / 256).toUInt8, n.toUInt8]

def httpPreParts (method path : Bytes) (nonce : HttpNonce) (contentLen : ℕ) : List Bytes :=
  [ascii "PRE ", method, ascii " ", path, ascii "\n", nonce.bytes, writeInt32 contentLen]

def httpPre (H : Hashes) (psk : Psk) (method path : Bytes) (nonce : HttpNonce) (contentLen : ℕ) : Bytes :=
  hexlify (hmac H psk (httpPreParts method path nonce contentLen)).bytes

def httpLegacyParts (H : Hashes) (method path body : Bytes) : List Bytes :=
  [method, ascii " ", path, ascii "\n", (H.sha256 body).bytes]

def httpAuthLegacy (H : Hashes) (psk : Psk) (method path body : Bytes) : Bytes :=
  hexlify (hmac H psk (httpLegacyParts H method path body)).bytes

/-- `none` is text that does not fit in the 160 bytes. -/
def authHeaders (H : Hashes) (psk : Psk) (method path : Bytes) (nonce : Option HttpNonce) (body : Bytes) :
    Option Bytes :=
  let text :=
    match nonce with
    | some n =>
      ascii "X-Bridge-Auth: " ++ httpAuth H psk method path n body ++ ascii "\r\nX-Bridge-Pre: " ++
        httpPre H psk method path n body.length
    | none => ascii "X-Bridge-Auth: " ++ httpAuthLegacy H psk method path body
  if text.length ≤ 160 then some text else none

end Zig

namespace Firmware

/-- `g_psk`, `g_claimed`, `g_http_rand` and `g_http_counter` -/
structure Board where
  psk : Psk
  claimed : Bool
  httpRand : Block 16
  httpCounter : UInt32

def strlen (mem : Bytes) : ℕ := (mem.takeWhile fun c => c ≠ 0).length

def literal (s : String) : Bytes := ascii s ++ [0]

def fed (parts : List Bytes) (lens : List ℕ) (n : ℕ) : Bytes :=
  ((List.zipWith (fun p l => p.take l) parts lens).take n).flatten

def hmacParts (H : Hashes) (key : Psk) (parts : List Bytes) (lens : List ℕ) (n : ℕ) : Digest :=
  H.hmac key (fed parts lens n)

def domClient : Bytes := literal "esp-hci-client"
def domBoard : Bytes := literal "esp-hci-board"

def clientInput (sn cn : Nonce) : Bytes :=
  fed [sn.bytes, cn.bytes, domClient] [32, 32, domClient.length - 1] 3

def clientProof (H : Hashes) (b : Board) (sn cn : Nonce) : Digest := H.hmac b.psk (clientInput sn cn)

def boardInput (cn sn : Nonce) : Bytes :=
  fed [cn.bytes, sn.bytes, domBoard] [32, 32, domBoard.length - 1] 3

def boardProof (H : Hashes) (b : Board) (cn sn : Nonce) : Digest := H.hmac b.psk (boardInput cn sn)

def announceInput (bdaddr : CString) (port : ℕ) (name ip : CString) : Bytes :=
  let ps := (decimal port).take 7 ++ [0]
  let pn := (decimal port).length
  fed [bdaddr.mem, literal "\t", ps, literal "\t", name.mem, literal "\t", ip.mem]
    [strlen bdaddr.mem, 1, pn, 1, strlen name.mem, 1, strlen ip.mem] 7

/-- The text left in `out`, `none` when there is no room to write any. -/
def announceSig (H : Hashes) (b : Board) (bdaddr : CString) (port : ℕ) (name ip : CString) (outlen : ℕ) :
    Option Bytes :=
  if ¬ b.claimed ∨ outlen < 33 then
    if 2 ≤ outlen then some (ascii "-") else none
  else some (hexlify ((H.hmac b.psk (announceInput bdaddr port name ip)).bytes.take 16))

def httpNonceBytes (b : Board) : Bytes :=
  b.httpRand.bytes.take 16 ++ [(b.httpCounter >>> 24).toUInt8, (b.httpCounter >>> 16).toUInt8,
    (b.httpCounter >>> 8).toUInt8, b.httpCounter.toUInt8]

def nonceHex (b : Board) (outlen : ℕ) : Bytes :=
  if outlen < 41 then [] else hexlify (httpNonceBytes b)

def nibble (c : UInt8) : Option ℕ :=
  if 48 ≤ c ∧ c ≤ 57 then some (c.toNat - 48)
  else if 97 ≤ (c ||| 32) ∧ (c ||| 32) ≤ 102 then some ((c ||| 32).toNat - 87)
  else none

def unhex : Bytes → ℕ → Option Bytes
  | _, 0 => some []
  | hi :: lo :: rest, n + 1 =>
    match nibble hi, nibble lo with
    | some h, some l => (unhex rest n).map fun bs => (h * 16 + l).toUInt8 :: bs
    | _, _ => none
  | _, _ => none

def checkMac (H : Hashes) (b : Board) (headerHex : Option CString) (parts : List Bytes) (lens : List ℕ)
    (n : ℕ) : Bool :=
  b.claimed &&
    match headerHex with
    | none => false
    | some h =>
      strlen h.mem = 64 && unhex h.mem 32 = some (hmacParts H b.psk parts lens n).bytes

def httpParts (b : Board) (method path : CString) (bodySha : Digest) : List Bytes :=
  [method.mem, literal " ", path.mem, literal "\n", httpNonceBytes b, bodySha.bytes]

def httpLens (method path : CString) : List ℕ :=
  [strlen method.mem, 1, strlen path.mem, 1, 20, 32]

def checkHttp (H : Hashes) (b : Board) (method path : CString) (bodySha : Digest)
    (headerHex : Option CString) : Bool :=
  checkMac H b headerHex (httpParts b method path bodySha) (httpLens method path) 6

def preParts (b : Board) (method path : CString) (contentLen : UInt32) : List Bytes :=
  [literal "PRE ", method.mem, literal " ", path.mem, literal "\n", httpNonceBytes b,
    be32 contentLen]

def preLens (method path : CString) : List ℕ :=
  [4, strlen method.mem, 1, strlen path.mem, 1, 20, 4]

def checkHttpPre (H : Hashes) (b : Board) (method path : CString) (contentLen : UInt32)
    (headerHex : Option CString) : Bool :=
  checkMac H b headerHex (preParts b method path contentLen) (preLens method path) 7

/-- `httpd_req_get_hdr_value_len` and `httpd_req_get_hdr_value_str` of `esp_http_server`, on the text of the
headers and a name; the second leaves a string in a buffer of so many bytes, or fails. -/
structure Httpd where
  hdrValueLen : Bytes → Bytes → ℕ
  hdrValueStr : Bytes → Bytes → ℕ → Option CString

def getHeader (httpd : Httpd) (req name : Bytes) (outlen : ℕ) : Option CString :=
  let n := httpd.hdrValueLen req name
  if n = 0 ∨ n + 1 > outlen then none else httpd.hdrValueStr req name outlen

/-- The server finds `value` under `name`, and copies it into any buffer that can hold it. -/
def Httpd.Finds (httpd : Httpd) (req name value : Bytes) : Prop :=
  httpd.hdrValueLen req name = value.length ∧
    ∀ outlen > value.length, ∃ s : CString, httpd.hdrValueStr req name outlen = some s ∧ s.text = value

/-- Of two header lines with a proof each, the server finds each proof under its name. -/
def Httpd.FindsProofs (httpd : Httpd) : Prop :=
  ∀ (auth pre : Digest) (req : Bytes),
    req = ascii "X-Bridge-Auth: " ++ hexlify auth.bytes ++ ascii "\r\nX-Bridge-Pre: " ++ hexlify pre.bytes →
    httpd.Finds req (ascii "X-Bridge-Auth") (hexlify auth.bytes) ∧
      httpd.Finds req (ascii "X-Bridge-Pre") (hexlify pre.bytes)

theorem notMem_hexlify_nul (bs : Bytes) : 0 ∉ hexlify bs := Auth.notMem_hexlify (by decide)

theorem notMem_bdaddrText {mac : Block 6} {c : UInt8} (hc : ∀ n < 16, Auth.hexDigit n ≠ c) (hcolon : c ≠ 58) :
    c ∉ bdaddrText mac := by
  apply notMem_intercalate (by simpa [ascii] using hcolon)
  intro l hl
  obtain ⟨b, -, rfl⟩ := List.mem_map.mp hl
  exact Auth.notMem_hexlify hc

theorem bdaddrText_length (mac : Block 6) : (bdaddrText mac).length = 17 := by
  have hne : mac.bytes.map (fun b => hexlify [b]) ≠ [] := by
    intro h
    have := congrArg List.length h
    simp [mac.length_eq] at this
  have hlen := length_intercalate (c := 58) hne
  have hsum : ((mac.bytes.map fun b => hexlify [b]).map fun l => l.length + 1).sum = 18 := by
    have hconst : ((fun l : Bytes => l.length + 1) ∘ fun b => hexlify [b]) = fun _ => 3 := by
      funext b
      simp
    rw [List.map_map, hconst, List.map_const', List.sum_replicate, mac.length_eq]
    rfl
  rw [hsum] at hlen
  have hcolon : ascii ":" = [58] := by decide
  rw [bdaddrText, hcolon]
  exact Nat.succ_injective hlen

theorem notMem_ipText {ip : Block 4} {c : UInt8} (hc : c < 48 ∨ 57 < c) (hdot : c ≠ 46) : c ∉ ipText ip := by
  apply notMem_intercalate (by simpa [ascii] using hdot)
  intro l hl
  obtain ⟨b, -, rfl⟩ := List.mem_map.mp hl
  exact Discovery.notMem_decimal hc

/-- `bdaddr` of `discovery_task` -/
def bdaddrString (mac : Block 6) : CString := ⟨bdaddrText mac, notMem_bdaddrText (by decide) (by decide)⟩

/-- `net_ip_str` -/
def ipString (ip : Block 4) : CString := ⟨ipText ip, notMem_ipText (by decide) (by decide)⟩

/-- What `discovery_task` sends; `none` when there is no address yet or the text does not fit. -/
def announceDatagram (H : Hashes) (b : Board) (mac : Block 6) (port : ℕ) (name : CString) (ip : Block 4) :
    Option Bytes :=
  if ip = Block.fill 4 0 then none
  else
    match announceSig H b (bdaddrString mac) port name (ipString ip) 40 with
    | none => none
    | some sig =>
      let announce := Discovery.announceText (bdaddrText mac) port name.text sig
      if announce.length < 224 then some announce else none

end Firmware

open Firmware

@[simp] theorem strlen_mem (s : CString) : strlen s.mem = s.text.length := by
  rw [strlen, CString.mem, List.takeWhile_append_of_pos]
  · simp
  · intro c hc
    simp only [decide_not, Bool.not_eq_eq_eq_not, Bool.not_true, decide_eq_false_iff_not]
    rintro rfl
    exact s.noNul hc

@[simp] theorem take_mem (s : CString) : s.mem.take s.text.length = s.text := by simp [CString.mem]

theorem clientInput_eq (sn cn : Nonce) : clientInput sn cn = (Zig.clientParts sn cn).flatten := by
  have hdom : domClient.take (domClient.length - 1) = ascii "esp-hci-client" := by decide
  simp only [clientInput, fed, Zig.clientParts, List.zipWith_cons_cons, List.zipWith_nil_left, hdom]
  rw [List.take_of_length_le (Nat.le_of_eq sn.length_eq), List.take_of_length_le (Nat.le_of_eq cn.length_eq)]
  rfl

theorem boardInput_eq (cn sn : Nonce) : boardInput cn sn = (Zig.boardParts cn sn).flatten := by
  have hdom : domBoard.take (domBoard.length - 1) = ascii "esp-hci-board" := by decide
  simp only [boardInput, fed, Zig.boardParts, List.zipWith_cons_cons, List.zipWith_nil_left, hdom]
  rw [List.take_of_length_le (Nat.le_of_eq sn.length_eq), List.take_of_length_le (Nat.le_of_eq cn.length_eq)]
  rfl

end HciBridge.KeyProtocol
