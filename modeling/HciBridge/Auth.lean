import Mathlib.Tactic
import Mathlib.Data.Nat.Digits.Lemmas

/-!
The constructions of `firmware/main/auth.c` and `common/auth.zig`: which bytes
go into HMAC under the pre-shared key, and that no two purposes share them.
-/

namespace HciBridge.Auth

abbrev Bytes := List UInt8

structure Block (n : ℕ) where
  bytes : Bytes
  length_eq : bytes.length = n
deriving DecidableEq, Repr

abbrev Psk := Block 32
abbrev Nonce := Block 32
abbrev Digest := Block 32
abbrev HttpNonce := Block 20

def Block.fill (n : ℕ) (b : UInt8) : Block n := ⟨List.replicate n b, List.length_replicate⟩

def ascii (s : String) : Bytes := s.toList.map fun c => c.toNat.toUInt8

def domClient : Bytes := ascii "esp-hci-client"
def domBoard : Bytes := ascii "esp-hci-board"

/-- `"%u"` -/
def decimal (n : ℕ) : Bytes :=
  if n = 0 then ascii "0" else (Nat.digits 10 n).reverse.map fun d => (48 + d).toUInt8

def hexDigit (n : ℕ) : UInt8 := if n < 10 then (48 + n).toUInt8 else (87 + n).toUInt8

def hexlify (bs : Bytes) : Bytes := bs.flatMap fun b => [hexDigit (b.toNat / 16), hexDigit (b.toNat % 16)]

def be32 (n : UInt32) : Bytes :=
  [(n >>> 24).toUInt8, (n >>> 16).toUInt8, (n >>> 8).toUInt8, n.toUInt8]

/-- A MAC value: an HMAC is known by its key and message, everything else is just some bytes. -/
inductive Mac
  | hmac (key : Psk) (msg : Bytes)
  | other (n : ℕ)
deriving DecidableEq, Repr

def hmacParts (key : Psk) (parts : List Bytes) : Mac := .hmac key parts.flatten

def clientMac (psk : Psk) (serverNonce clientNonce : Nonce) : Mac :=
  hmacParts psk [serverNonce.bytes, clientNonce.bytes, domClient]

def boardMac (psk : Psk) (clientNonce serverNonce : Nonce) : Mac :=
  hmacParts psk [clientNonce.bytes, serverNonce.bytes, domBoard]

def announceMac (psk : Psk) (bdaddr : Bytes) (port : ℕ) (name ip : Bytes) : Mac :=
  hmacParts psk [bdaddr, ascii "\t", decimal port, ascii "\t", name, ascii "\t", ip]

def httpAuth (psk : Psk) (method path : String) (nonce : HttpNonce) (bodySha : Digest) : Mac :=
  hmacParts psk [ascii method, ascii " ", ascii path, ascii "\n", nonce.bytes, bodySha.bytes]

def httpPre (psk : Psk) (method path : String) (nonce : HttpNonce) (contentLen : UInt32) : Mac :=
  hmacParts psk [ascii "PRE ", ascii method, ascii " ", ascii path, ascii "\n", nonce.bytes, be32 contentLen]

def httpAuthLegacy (psk : Psk) (method path : String) (bodySha : Digest) : Mac :=
  hmacParts psk [ascii method, ascii " ", ascii path, ascii "\n", bodySha.bytes]

/-- `"%02x:%02x:%02x:%02x:%02x:%02x"` -/
def bdaddrText (bd : Block 6) : Bytes := (ascii ":").intercalate (bd.bytes.map fun b => hexlify [b])

/-- `"%u.%u.%u.%u"` -/
def ipText (ip : Block 4) : Bytes := (ascii ".").intercalate (ip.bytes.map fun b => decimal b.toNat)

inductive Path
  | ota | reboot | unclaim
deriving DecidableEq, Repr

def Path.text : Path → String
  | ota => "/ota"
  | reboot => "/reboot"
  | unclaim => "/unclaim"

inductive Use
  | client (serverNonce clientNonce : Nonce)
  | board (clientNonce serverNonce : Nonce)
  | announce (bdaddr : Block 6) (port : UInt16) (name : Bytes) (ip : Block 4)
  | auth (path : Path) (nonce : HttpNonce) (bodySha : Digest)
  | pre (path : Path) (nonce : HttpNonce) (contentLen : UInt32)
  | legacy (path : Path) (bodySha : Digest)
deriving DecidableEq, Repr

def Use.mac (psk : Psk) : Use → Mac
  | client sn cn => clientMac psk sn cn
  | board cn sn => boardMac psk cn sn
  | announce bd port name ip => announceMac psk (bdaddrText bd) port.toNat name (ipText ip)
  | auth path nonce sha => httpAuth psk "POST" path.text nonce sha
  | pre path nonce len => httpPre psk "POST" path.text nonce len
  | legacy path sha => httpAuthLegacy psk "POST" path.text sha

def Use.input : Use → Bytes
  | client sn cn => sn.bytes ++ (cn.bytes ++ domClient)
  | board cn sn => cn.bytes ++ (sn.bytes ++ domBoard)
  | announce bd port name ip =>
    bdaddrText bd ++ (ascii "\t" ++ (decimal port.toNat ++ (ascii "\t" ++ (name ++ (ascii "\t" ++ ipText ip)))))
  | auth path nonce sha =>
    ascii "POST" ++ (ascii " " ++ (ascii path.text ++ (ascii "\n" ++ (nonce.bytes ++ sha.bytes))))
  | pre path nonce len =>
    ascii "PRE " ++ (ascii "POST" ++ (ascii " " ++ (ascii path.text ++ (ascii "\n" ++ (nonce.bytes ++ be32 len)))))
  | legacy path sha => ascii "POST" ++ (ascii " " ++ (ascii path.text ++ (ascii "\n" ++ sha.bytes)))

theorem Use.mac_eq (psk : Psk) (u : Use) : u.mac psk = .hmac psk u.input := by
  cases u <;>
    simp only [Use.mac, Use.input, clientMac, boardMac, announceMac, httpAuth, httpPre, httpAuthLegacy,
      hmacParts, List.flatten_cons, List.flatten_nil, List.append_nil]

theorem Block.append_inj {n : ℕ} {a b : Block n} {x y : Bytes} (h : a.bytes ++ x = b.bytes ++ y) :
    a = b ∧ x = y := by
  obtain ⟨a, ha⟩ := a
  obtain ⟨b, hb⟩ := b
  obtain ⟨rfl, rfl⟩ := List.append_inj h (ha.trans hb.symm)
  exact ⟨rfl, rfl⟩

theorem Block.bytes_inj {n : ℕ} {a b : Block n} (h : a.bytes = b.bytes) : a = b := by
  cases a
  cases b
  cases h
  rfl

theorem be32_inj {m n : UInt32} (h : be32 m = be32 n) : m = n := by
  simp only [be32, List.cons.injEq, and_true] at h
  obtain ⟨h0, h1, h2, h3⟩ := h
  have h0 := congrArg UInt8.toNat h0
  have h1 := congrArg UInt8.toNat h1
  have h2 := congrArg UInt8.toNat h2
  have h3 := congrArg UInt8.toNat h3
  simp only [UInt32.toNat_toUInt8, UInt32.toNat_shiftRight, Nat.shiftRight_eq_div_pow] at h0 h1 h2 h3
  simp only [UInt32.reduceToNat, Nat.reduceMod, Nat.reducePow] at h0 h1 h2 h3
  have hm := m.toNat_lt
  have hn := n.toNat_lt
  apply UInt32.toNat_inj.mp
  omega

theorem decimal_last (n : ℕ) : ∃ d < 10, (decimal n).getLast? = some (48 + d).toUInt8 := by
  unfold decimal
  split
  case isTrue => exact ⟨0, by decide, by decide⟩
  case isFalse hn =>
    refine ⟨n % 10, Nat.mod_lt _ (by decide), ?_⟩
    rw [Nat.digits_def' (by decide) (Nat.pos_of_ne_zero hn)]
    simp

theorem hexDigit_ne_P {n : ℕ} (h : n < 16) : hexDigit n ≠ 80 := by
  unfold hexDigit
  interval_cases n <;> decide

theorem bdaddrText_head (bd : Block 6) : ∃ c, (bdaddrText bd).head? = some c ∧ c ≠ 80 := by
  obtain ⟨bytes, hlen⟩ := bd
  obtain ⟨b, rest, rfl⟩ := List.exists_cons_of_length_eq_add_one hlen
  have hhead : ∃ c tl, hexlify [b] = c :: tl ∧ c ≠ 80 := by
    refine ⟨_, _, rfl, hexDigit_ne_P ?_⟩
    have := b.toNat_lt
    omega
  obtain ⟨c, tl, hb, hne⟩ := hhead
  refine ⟨c, ?_, hne⟩
  simp only [bdaddrText, List.map_cons, hb]
  cases rest <;> simp [List.intercalate]

theorem ipText_last (ip : Block 4) : ∃ d < 10, (ipText ip).getLast? = some (48 + d).toUInt8 := by
  obtain ⟨bytes, hlen⟩ := ip
  obtain ⟨a, b, c, d, rfl⟩ := List.length_eq_four.mp hlen
  obtain ⟨k, hk, hlast⟩ := decimal_last d.toNat
  refine ⟨k, hk, ?_⟩
  simp only [ipText, List.map_cons, List.map_nil, List.intercalate, List.intersperse_cons_cons,
    List.intersperse_singleton, List.flatten_cons, List.flatten_nil, List.append_nil,
    List.getLast?_append, hlast, Option.some_or]

inductive Kind
  | client | board | announce | auth | pre | legacy
deriving DecidableEq, Repr

def Use.kind : Use → Kind
  | client .. => .client
  | board .. => .board
  | announce .. => .announce
  | auth .. => .auth
  | pre .. => .pre
  | legacy .. => .legacy

/-- The purpose can be read off the bytes: off their length, their ends, and `PR` against `PO`. -/
def kindOf (b : Bytes) : Kind :=
  if b.length = 78 ∧ b.getLast? = some 116 then .client
  else if b.length = 77 ∧ b.getLast? = some 100 then .board
  else if b.head? ≠ some 80 then .announce
  else if (b.drop 1).head? = some 82 then .pre
  else if b.length < 62 then .legacy
  else .auth

theorem kindOf_announce {b : Bytes} {d : ℕ} (hd : d < 10) (hlast : b.getLast? = some (48 + d).toUInt8)
    (hhead : b.head? ≠ some 80) : kindOf b = .announce := by
  have h116 : b.getLast? ≠ some 116 := by
    rw [hlast]
    interval_cases d <;> decide
  have h100 : b.getLast? ≠ some 100 := by
    rw [hlast]
    interval_cases d <;> decide
  rw [kindOf, if_neg (fun h => h116 h.2), if_neg (fun h => h100 h.2), if_pos hhead]

theorem kindOf_input (u : Use) : kindOf u.input = u.kind := by
  cases u with
  | client sn cn =>
    have hlen : (Use.client sn cn).input.length = 78 := by
      simp [Use.input, sn.length_eq, cn.length_eq, domClient, ascii]
    have hlast : (Use.client sn cn).input.getLast? = some 116 := by
      simp [Use.input, domClient, ascii]
    rw [kindOf, if_pos ⟨hlen, hlast⟩]
    rfl
  | board cn sn =>
    have hlen : (Use.board cn sn).input.length = 77 := by
      simp [Use.input, sn.length_eq, cn.length_eq, domBoard, ascii]
    have hlast : (Use.board cn sn).input.getLast? = some 100 := by
      simp [Use.input, domBoard, ascii]
    rw [kindOf, if_neg (by simp [hlen]), if_pos ⟨hlen, hlast⟩]
    rfl
  | announce bd port name ip =>
    obtain ⟨c, hc, hne⟩ := bdaddrText_head bd
    obtain ⟨d, hd, hip⟩ := ipText_last ip
    have hlast : (Use.announce bd port name ip).input.getLast? = some (48 + d).toUInt8 := by
      simp only [Use.input, List.getLast?_append, hip, Option.some_or]
    have hhead : (Use.announce bd port name ip).input.head? ≠ some 80 := by
      simp only [Use.input, List.head?_append, hc, Option.some_or]
      simpa using hne
    exact kindOf_announce hd hlast hhead
  | auth path nonce sha =>
    have hlen : 62 ≤ (Use.auth path nonce sha).input.length ∧ (Use.auth path nonce sha).input.length ≤ 66 := by
      cases path <;> simp [Use.input, nonce.length_eq, sha.length_eq, Path.text, ascii]
    rw [kindOf, if_neg (by omega), if_neg (by omega), if_neg (by simp [Use.input, ascii]),
      if_neg (by simp [Use.input, ascii]), if_neg (by omega)]
    rfl
  | pre path nonce len =>
    have hlen : (Use.pre path nonce len).input.length ≤ 42 := by
      cases path <;> simp [Use.input, nonce.length_eq, Path.text, ascii, be32]
    rw [kindOf, if_neg (by omega), if_neg (by omega), if_neg (by simp [Use.input, ascii]),
      if_pos (by simp [Use.input, ascii])]
    rfl
  | legacy path sha =>
    have hlen : (Use.legacy path sha).input.length ≤ 46 := by
      cases path <;> simp [Use.input, sha.length_eq, Path.text, ascii]
    rw [kindOf, if_neg (by omega), if_neg (by omega), if_neg (by simp [Use.input, ascii]),
      if_neg (by simp [Use.input, ascii]), if_pos (by omega)]
    rfl

theorem kind_eq_of_input {u v : Use} (h : u.input = v.input) : u.kind = v.kind := by
  rw [← kindOf_input u, ← kindOf_input v, h]

theorem path_inj {p q : Path} {x y : Bytes} (hlen : x.length = y.length)
    (h : ascii p.text ++ x = ascii q.text ++ y) : p = q ∧ x = y := by
  have hp : p = q := by
    have := congrArg List.length h
    simp only [List.length_append, hlen] at this
    cases p <;> cases q <;> first | rfl | (simp [Path.text, ascii] at this)
  subst hp
  exact ⟨rfl, List.append_cancel_left h⟩

theorem client_input_inj {sn cn sn' cn' : Nonce} (h : (Use.client sn cn).input = (Use.client sn' cn').input) :
    sn = sn' ∧ cn = cn' := by
  obtain ⟨hfirst, hrest⟩ := Block.append_inj h
  exact ⟨hfirst, (Block.append_inj hrest).1⟩

theorem board_input_inj {cn sn cn' sn' : Nonce} (h : (Use.board cn sn).input = (Use.board cn' sn').input) :
    cn = cn' ∧ sn = sn' := by
  obtain ⟨hfirst, hrest⟩ := Block.append_inj h
  exact ⟨hfirst, (Block.append_inj hrest).1⟩

theorem auth_input_inj {p q : Path} {n n' : HttpNonce} {d d' : Digest}
    (h : (Use.auth p n d).input = (Use.auth q n' d').input) : p = q ∧ n = n' ∧ d = d' := by
  have htext := List.append_cancel_left (List.append_cancel_left h)
  obtain ⟨hp, hrest⟩ := path_inj (by simp [n.length_eq, n'.length_eq, d.length_eq, d'.length_eq]) htext
  obtain ⟨hn, hd⟩ := Block.append_inj (List.append_cancel_left hrest)
  exact ⟨hp, hn, Block.bytes_inj hd⟩

theorem pre_input_inj {p q : Path} {n n' : HttpNonce} {l l' : UInt32}
    (h : (Use.pre p n l).input = (Use.pre q n' l').input) : p = q ∧ n = n' ∧ l = l' := by
  have htext := List.append_cancel_left (List.append_cancel_left (List.append_cancel_left h))
  obtain ⟨hp, hrest⟩ := path_inj (by simp [n.length_eq, n'.length_eq, be32]) htext
  obtain ⟨hn, hl⟩ := Block.append_inj (List.append_cancel_left hrest)
  exact ⟨hp, hn, be32_inj hl⟩

theorem mac_inj {psk psk' : Psk} {u v : Use} (h : u.mac psk = v.mac psk') :
    psk = psk' ∧ u.kind = v.kind ∧ u.input = v.input := by
  rw [Use.mac_eq, Use.mac_eq, Mac.hmac.injEq] at h
  exact ⟨h.1, kind_eq_of_input h.2, h.2⟩

end HciBridge.Auth
