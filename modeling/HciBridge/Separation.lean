import HciBridge.KeyProtocolAgrees

namespace HciBridge.Separation

open Text
open Auth (Bytes Block Psk Nonce Digest HttpNonce Path Use Kind kindOf ascii decimal be32 ipText)
open KeyProtocol (Hashes)

def isHexChar (c : UInt8) : Bool := (48 ≤ c ∧ c ≤ 57) ∨ (65 ≤ c ∧ c ≤ 70) ∨ (97 ≤ c ∧ c ≤ 102)

structure Bdaddr where
  pairs : List Bytes
  length_eq : pairs.length = 6
  hex : ∀ p ∈ pairs, p.length = 2 ∧ ∀ c ∈ p, isHexChar c = true

def Bdaddr.text (bd : Bdaddr) : Bytes := ([58] : Bytes).intercalate bd.pairs

structure Name where
  text : Bytes
  noNul : 0 ∉ text
  noTab : 9 ∉ text

inductive Args
  | client (serverNonce clientNonce : Nonce)
  | board (clientNonce serverNonce : Nonce)
  | announce (bdaddr : Bdaddr) (port : UInt16) (name : Name) (ip : Block 4)
  | auth (path : Path) (nonce : HttpNonce) (body : Bytes)
  | pre (path : Path) (nonce : HttpNonce) (contentLen : UInt32)
  | legacy (path : Path) (body : Bytes)

def Args.input (H : Hashes) : Args → Bytes
  | client sn cn => (KeyProtocol.Zig.clientParts sn cn).flatten
  | board cn sn => (KeyProtocol.Zig.boardParts cn sn).flatten
  | announce bd port name ip => (KeyProtocol.Zig.announceParts bd.text port.toNat name.text ip).flatten
  | auth path nonce body => (KeyProtocol.Zig.httpAuthParts H (ascii "POST") (ascii path.text) nonce body).flatten
  | pre path nonce len =>
    (KeyProtocol.Zig.httpPreParts (ascii "POST") (ascii path.text) nonce len.toNat).flatten
  | legacy path body => (KeyProtocol.Zig.httpLegacyParts H (ascii "POST") (ascii path.text) body).flatten

def Args.body : Args → Option Bytes
  | auth _ _ body => some body
  | legacy _ body => some body
  | _ => none

def NoCollision (H : Hashes) (u v : Args) : Prop :=
  ∀ x ∈ u.body, ∀ y ∈ v.body, H.sha256 x = H.sha256 y → x = y

def Args.kind : Args → Kind
  | client .. => .client
  | board .. => .board
  | announce .. => .announce
  | auth .. => .auth
  | pre .. => .pre
  | legacy .. => .legacy

theorem input_client (H : Hashes) (sn cn : Nonce) : (Args.client sn cn).input H = (Use.client sn cn).input := by
  simp only [Args.input, KeyProtocol.Zig.clientParts, List.flatten_cons, List.flatten_nil, List.append_nil]
  rfl

theorem input_board (H : Hashes) (cn sn : Nonce) : (Args.board cn sn).input H = (Use.board cn sn).input := by
  simp only [Args.input, KeyProtocol.Zig.boardParts, List.flatten_cons, List.flatten_nil, List.append_nil]
  rfl

theorem input_auth (H : Hashes) (path : Path) (nonce : HttpNonce) (body : Bytes) :
    (Args.auth path nonce body).input H = (Use.auth path nonce (H.sha256 body)).input := by
  simp only [Args.input, KeyProtocol.Zig.httpAuthParts, List.flatten_cons, List.flatten_nil, List.append_nil]
  rfl

theorem input_pre (H : Hashes) (path : Path) (nonce : HttpNonce) (len : UInt32) :
    (Args.pre path nonce len).input H = (Use.pre path nonce len).input := by
  simp only [Args.input, KeyProtocol.Zig.httpPreParts, List.flatten_cons, List.flatten_nil, List.append_nil,
    ← KeyProtocol.be32_eq]
  rfl

theorem input_legacy (H : Hashes) (path : Path) (body : Bytes) :
    (Args.legacy path body).input H = (Use.legacy path (H.sha256 body)).input := by
  simp only [Args.input, KeyProtocol.Zig.httpLegacyParts, List.flatten_cons, List.flatten_nil, List.append_nil]
  rfl

theorem input_announce (H : Hashes) (bd : Bdaddr) (port : UInt16) (name : Name) (ip : Block 4) :
    (Args.announce bd port name ip).input H =
      bd.text ++ 9 :: (decimal port.toNat ++ 9 :: (name.text ++ 9 :: ipText ip)) := by
  simp only [Args.input, KeyProtocol.Zig.announceParts, List.flatten_cons, List.flatten_nil, List.append_nil]
  rfl

theorem hex_ne {c d : UInt8} (hc : isHexChar c = true) (hd : d < 48 ∨ 102 < d ∨ 57 < d ∧ d < 65 ∨ 70 < d ∧ d < 97) :
    c ≠ d := by
  rintro rfl
  simp only [isHexChar, decide_eq_true_eq, UInt8.le_iff_toNat_le, UInt8.lt_iff_toNat_lt,
    UInt8.reduceToNat] at hc hd
  omega

theorem Bdaddr.notMem_pair (bd : Bdaddr) {d : UInt8}
    (hd : d < 48 ∨ 102 < d ∨ 57 < d ∧ d < 65 ∨ 70 < d ∧ d < 97) : ∀ p ∈ bd.pairs, d ∉ p := by
  intro p hp hmem
  exact hex_ne ((bd.hex p hp).2 d hmem) hd rfl

theorem Bdaddr.pairs_ne_nil (bd : Bdaddr) : bd.pairs ≠ [] := by
  intro h
  have := bd.length_eq
  rw [h] at this
  cases this

theorem Bdaddr.text_inj {bd bd' : Bdaddr} (h : bd.text = bd'.text) : bd = bd' := by
  have hsplit := List.splitOn_intercalate 58 (bd.notMem_pair (by decide)) bd.pairs_ne_nil
  have hsplit' := List.splitOn_intercalate 58 (bd'.notMem_pair (by decide)) bd'.pairs_ne_nil
  have hpairs : bd.pairs = bd'.pairs := by rw [← hsplit, ← hsplit', ← Bdaddr.text, ← Bdaddr.text, h]
  cases bd
  cases bd'
  cases hpairs
  rfl

theorem Bdaddr.notMem_tab (bd : Bdaddr) : 9 ∉ bd.text :=
  notMem_intercalate (by decide) (bd.notMem_pair (by decide))

theorem Bdaddr.head_ne (bd : Bdaddr) : ∃ c, bd.text.head? = some c ∧ c ≠ 80 := by
  obtain ⟨pairs, hlen, hhex⟩ := bd
  obtain ⟨p, ps, rfl⟩ := List.exists_cons_of_length_eq_add_one hlen
  obtain ⟨hp, hchars⟩ := hhex p (by simp)
  obtain ⟨c, cs, rfl⟩ := List.exists_cons_of_length_eq_add_one hp
  refine ⟨c, ?_, hex_ne (hchars c (by simp)) (by decide)⟩
  cases ps <;> simp [Bdaddr.text, List.intercalate]

theorem decimal_inj {m n : ℕ} (h : decimal m = decimal n) : m = n := by
  have hm := Discovery.parseInt_decimal (Nat.le_max_left m n)
  rw [h, Discovery.parseInt_decimal (Nat.le_max_right m n)] at hm
  exact (Option.some.inj hm).symm

theorem ipText_inj {ip ip' : Block 4} (h : ipText ip = ipText ip') : ip = ip' := by
  have hsplit : ∀ i : Block 4, (ipText i).splitOn 46 = i.bytes.map fun b => decimal b.toNat := by
    intro i
    apply List.splitOn_intercalate
    · intro l hl
      obtain ⟨b, -, rfl⟩ := List.mem_map.mp hl
      exact Discovery.notMem_decimal (by decide)
    · intro hnil
      have := congrArg List.length hnil
      simp [i.length_eq] at this
  have hmap := hsplit ip
  rw [h, hsplit ip'] at hmap
  apply Auth.Block.bytes_inj
  apply List.map_injective_iff.mpr _ hmap.symm
  intro a b hab
  exact UInt8.toNat_inj.mp (decimal_inj hab)

theorem kindOf_input (H : Hashes) (u : Args) : kindOf (u.input H) = u.kind := by
  cases u with
  | client sn cn => rw [input_client, Auth.kindOf_input]; rfl
  | board cn sn => rw [input_board, Auth.kindOf_input]; rfl
  | auth path nonce body => rw [input_auth, Auth.kindOf_input]; rfl
  | pre path nonce len => rw [input_pre, Auth.kindOf_input]; rfl
  | legacy path body => rw [input_legacy, Auth.kindOf_input]; rfl
  | announce bd port name ip =>
    obtain ⟨c, hc, hne⟩ := bd.head_ne
    obtain ⟨d, hd, hip⟩ := Auth.ipText_last ip
    have hlast : ((Args.announce bd port name ip).input H).getLast? = some (48 + d).toUInt8 := by
      simp only [input_announce, List.getLast?_append, List.getLast?_cons, hip, Option.some_or,
        Option.getD_some]
    have hhead : ((Args.announce bd port name ip).input H).head? ≠ some 80 := by
      rw [input_announce, List.head?_append, hc, Option.some_or]
      simpa using hne
    exact Auth.kindOf_announce hd hlast hhead

theorem announce_inj {H : Hashes} {bd bd' : Bdaddr} {port port' : UInt16} {name name' : Name} {ip ip' : Block 4}
    (h : (Args.announce bd port name ip).input H = (Args.announce bd' port' name' ip').input H) :
    Args.announce bd port name ip = Args.announce bd' port' name' ip' := by
  have hdec : ∀ n, 9 ∉ decimal n := fun n => Discovery.notMem_decimal (by decide)
  rw [input_announce, input_announce] at h
  obtain ⟨hbd, h⟩ := append_sep_inj h bd.notMem_tab bd'.notMem_tab
  obtain ⟨hport, h⟩ := append_sep_inj h (hdec _) (hdec _)
  obtain ⟨hname, hip⟩ := append_sep_inj h name.noTab name'.noTab
  obtain rfl := Bdaddr.text_inj hbd
  obtain rfl := UInt16.toNat_inj.mp (decimal_inj hport)
  obtain rfl := ipText_inj hip
  cases name
  cases name'
  cases hname
  rfl

theorem legacy_inj {p q : Path} {d d' : Digest} (h : (Use.legacy p d).input = (Use.legacy q d').input) :
    p = q ∧ d = d' := by
  have htext := List.append_cancel_left (List.append_cancel_left h)
  obtain ⟨hp, hrest⟩ := Auth.path_inj (by simp [d.length_eq, d'.length_eq]) htext
  exact ⟨hp, Auth.Block.bytes_inj (List.append_cancel_left hrest)⟩

theorem input_injective (H : Hashes) (u v : Args) (hsha : NoCollision H u v) :
    u.input H = v.input H ↔ u = v := by
  refine ⟨?_, fun h => by rw [h]⟩
  intro h
  have hkind : u.kind = v.kind := by rw [← kindOf_input H u, ← kindOf_input H v, h]
  cases u with
  | client sn cn =>
    cases v with
    | client sn' cn' =>
      rw [input_client, input_client] at h
      obtain ⟨rfl, rfl⟩ := Auth.client_input_inj h
      rfl
    | _ => cases hkind
  | board cn sn =>
    cases v with
    | board cn' sn' =>
      rw [input_board, input_board] at h
      obtain ⟨rfl, rfl⟩ := Auth.board_input_inj h
      rfl
    | _ => cases hkind
  | announce bd port name ip =>
    cases v with
    | announce bd' port' name' ip' => exact announce_inj h
    | _ => cases hkind
  | auth path nonce body =>
    cases v with
    | auth path' nonce' body' =>
      rw [input_auth, input_auth] at h
      obtain ⟨rfl, rfl, hbody⟩ := Auth.auth_input_inj h
      obtain rfl := hsha body rfl body' rfl hbody
      rfl
    | _ => cases hkind
  | pre path nonce len =>
    cases v with
    | pre path' nonce' len' =>
      rw [input_pre, input_pre] at h
      obtain ⟨rfl, rfl, rfl⟩ := Auth.pre_input_inj h
      rfl
    | _ => cases hkind
  | legacy path body =>
    cases v with
    | legacy path' body' =>
      rw [input_legacy, input_legacy] at h
      obtain ⟨rfl, hbody⟩ := legacy_inj h
      obtain rfl := hsha body rfl body' rfl hbody
      rfl
    | _ => cases hkind

theorem auth_inputs_differ_by_path :
    (Args.auth .reboot (Block.fill 20 0) []).input KeyProtocol.vectorHashes ≠
      (Args.auth .unclaim (Block.fill 20 0) []).input KeyProtocol.vectorHashes := by
  intro h
  have hsame := (input_injective KeyProtocol.vectorHashes (Args.auth .reboot (Block.fill 20 0) [])
    (Args.auth .unclaim (Block.fill 20 0) []) (by
      intro x hx y hy _
      cases hx
      cases hy
      rfl)).mp h
  cases hsame

end HciBridge.Separation
